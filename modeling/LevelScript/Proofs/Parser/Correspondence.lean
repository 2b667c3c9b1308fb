import LevelScript.Parser.Source

set_option autoImplicit false

/-!
# One parser on two tapes

A parser does the same on two tapes that hold the same tokens, whatever its bounds are there, as
long as they are greater than the number of tokens that are left: each round of a loop and each
inner construct passes a token before the next one begins. A look at the next token leaves the tape
where it is and needs no bound.
-/

namespace LevelScript

/-- The tape can be moved from the first place to the second one. -/
inductive Tape.Reaches {σ : Type} [Tape σ] : σ → σ → Prop where
  | here (s : σ) : Reaches s s
  | further {s t u : σ} : Tape.next s = .ok t → Reaches t u → Reaches s u

theorem Tape.Reaches.trans {σ : Type} [Tape σ] {s t u : σ} (h : Tape.Reaches s t)
    (h' : Tape.Reaches t u) : Tape.Reaches s u := by
  induction h with
  | here => exact h'
  | further hnext _ ih => exact .further hnext (ih h')

/-- Tapes that hold the same tokens when they are moved together. -/
structure Pairing (σ τ : Type) [Tape σ] [Tape τ] where
  Related : σ → τ → Prop
  /-- How many tokens are left, with the current one; the end of the input is none. -/
  left : σ → Nat
  /-- Failures on the two tapes that are not told apart. -/
  Same : ParseFailure → ParseFailure → Prop
  token_eq {s : σ} {t : τ} : Related s t → Tape.token s = Tape.token t
  left_pos {s : σ} {t : τ} : Related s t → (0 < left s ↔ Tape.token s ≠ .endOfInput)
  same {s : σ} {t : τ} (fault : ParseFault) : Related s t →
    Same ⟨fault, Tape.token s, Tape.position s⟩ ⟨fault, Tape.token t, Tape.position t⟩
  next {s s' : σ} {t : τ} : Related s t → Tape.next s = .ok s' →
    ∃ t', Tape.next t = .ok t' ∧ Related s' t' ∧ left s' = left s - 1
  next_error {s : σ} {t : τ} {cause : LexFault} {position : Nat} : Related s t →
    Tape.next s = .error (cause, position) → ∃ position', Tape.next t = .error (cause, position') ∧
      Same ⟨.lexical cause, Tape.token s, position⟩ ⟨.lexical cause, Tape.token t, position'⟩

def Pairing.self {σ τ : Type} [Tape σ] [Tape τ] (T : Pairing σ τ) (start : σ) : Pairing σ σ where
  Related s s' := s = s' ∧ Tape.Reaches start s ∧ ∃ t, T.Related s t
  left := T.left
  Same := Eq
  token_eq := fun ⟨h, _⟩ => h ▸ rfl
  left_pos := fun ⟨_, _, _, hrelated⟩ => T.left_pos hrelated
  same := fun _ ⟨h, _⟩ => h ▸ rfl
  next := by
    rintro s s' _ ⟨rfl, hreaches, t, hrelated⟩ hnext
    obtain ⟨t', _, hrelated', hleft⟩ := T.next hrelated hnext
    exact ⟨s', hnext, ⟨rfl, hreaches.trans (.further hnext (.here s')), t', hrelated'⟩, hleft⟩
  next_error := by
    rintro s _ cause position ⟨rfl, _⟩ hnext
    exact ⟨position, hnext, rfl⟩

namespace Parser

variable {σ τ α β : Type} [Tape σ] [Tape τ] {T : Pairing σ τ}

/-- Both parsers succeed with the same result and have passed at least `k` tokens, or both find the
same fault, which is not the bound. -/
inductive Agreed (T : Pairing σ τ) (k : Nat) (s : σ) :
    Except ParseFailure (α × ParseState σ) → Except ParseFailure (α × ParseState τ) → Prop where
  | parsed {a : α} {s' : σ} {t' : τ} {built : Nat} : T.Related s' t' → T.left s' + k ≤ T.left s →
      Agreed T k s (.ok (a, ⟨s', built⟩)) (.ok (a, ⟨t', built⟩))
  | failed {f g : ParseFailure} : T.Same f g → f.fault ≠ .exhausted →
      Agreed T k s (.error f) (.error g)

/-- On a current token in question with at most `limit` tokens left, the parsers agree and pass at
least `k` tokens. -/
def Ends (T : Pairing σ τ) (P : Token → Prop) (k limit : Nat) (p : Parser σ α) (q : Parser τ α) :
    Prop :=
  ∀ ⦃s : σ⦄ ⦃t : τ⦄ (built : Nat), T.Related s t → T.left s ≤ limit → P (Tape.token s) →
    Agreed T k s (p ⟨s, built⟩) (q ⟨t, built⟩)

def Peeks (T : Pairing σ τ) (p : Parser σ α) (q : Parser τ α) : Prop :=
  ∀ ⦃s : σ⦄ ⦃t : τ⦄ (built : Nat), T.Related s t →
    (∃ a n, p ⟨s, built⟩ = .ok (a, ⟨s, n⟩) ∧ q ⟨t, built⟩ = .ok (a, ⟨t, n⟩)) ∨
      ∃ f g, p ⟨s, built⟩ = .error f ∧ q ⟨t, built⟩ = .error g ∧ T.Same f g ∧ f.fault ≠ .exhausted

variable {P : Token → Prop} {j k l limit bound bound' : Nat} {token : Token}

theorem Agreed.mono {s s' : σ} {x : Except ParseFailure (α × ParseState σ)}
    {y : Except ParseFailure (α × ParseState τ)} (h : Agreed T j s' x y)
    (hpassed : T.left s' + k ≤ T.left s + j) : Agreed T k s x y := by
  cases h with
  | parsed hrelated hleft => exact .parsed hrelated (by omega)
  | failed hsame hfault => exact .failed hsame hfault

theorem Ends.within {p : Parser σ α} {q : Parser τ α} (h : Ends T (fun _ => True) k limit p q)
    (hl : l ≤ limit) : Ends T P k l p q :=
  fun _ _ built hrelated hleft _ => h built hrelated (Nat.le_trans hleft hl) trivial

theorem Ends.weaken {p : Parser σ α} {q : Parser τ α} (h : Ends T P (k + 1) limit p q) :
    Ends T P k limit p q :=
  fun _ _ built hrelated hleft htoken => (h built hrelated hleft htoken).mono (by omega)

theorem Ends.bind {p : Parser σ α} {q : Parser τ α} {f : α → Parser σ β} {g : α → Parser τ β}
    (hp : Ends T P j limit p q)
    (hf : ∀ a, j ≤ limit → Ends T (fun _ => True) (k - j) (limit - j) (f a) (g a)) :
    Ends T P k limit (p >>= f) (q >>= g) := by
  intro s t built hrelated hleft htoken
  have hfirst := hp built hrelated hleft htoken
  change Agreed T k s (p ⟨s, built⟩ >>= fun r => f r.1 r.2) (q ⟨t, built⟩ >>= fun r => g r.1 r.2)
  generalize p ⟨s, built⟩ = x at hfirst ⊢
  generalize q ⟨t, built⟩ = y at hfirst ⊢
  cases hfirst with
  | failed hsame hfault => exact .failed hsame hfault
  | @parsed a s' t' n hrelated' hpassed =>
    exact (hf a (by omega) n hrelated' (by omega) trivial).mono (by omega)

theorem Peeks.bind {p : Parser σ α} {q : Parser τ α} {f : α → Parser σ β} {g : α → Parser τ β}
    (hp : Peeks T p q) (hf : ∀ a, Ends T P k limit (f a) (g a)) :
    Ends T P k limit (p >>= f) (q >>= g) := by
  intro s t built hrelated hleft htoken
  change Agreed T k s (p ⟨s, built⟩ >>= fun r => f r.1 r.2) (q ⟨t, built⟩ >>= fun r => g r.1 r.2)
  rcases hp built hrelated with ⟨a, n, hx, hy⟩ | ⟨failure, failure', hx, hy, hsame, hfault⟩
  · rw [hx, hy]
    exact hf a n hrelated hleft htoken
  · rw [hx, hy]
    exact .failed hsame hfault

theorem ends_pure (a : α) : Ends T P 0 limit (pure a) (pure a) :=
  fun _ _ _ hrelated _ _ => .parsed hrelated (Nat.le_refl _)

theorem ends_fail {fault : ParseFault} (h : fault ≠ .exhausted) :
    Ends T P k limit (fail fault : Parser σ α) (fail fault) :=
  fun _ _ _ hrelated _ _ => .failed (T.same fault hrelated) h

theorem ends_current {f : Token → Parser σ α} {g : Token → Parser τ α}
    (h : ∀ token, Ends T (· = token) k limit (f token) (g token)) :
    Ends T P k limit (current >>= f) (current >>= g) := by
  intro s t built hrelated hleft _
  change Agreed T k s (f (Tape.token s) ⟨s, built⟩) (g (Tape.token t) ⟨t, built⟩)
  rw [← T.token_eq hrelated]
  exact h (Tape.token s) built hrelated hleft rfl

theorem ends_ite {C : Prop} [Decidable C] {p p' : Parser σ α} {q q' : Parser τ α}
    (hthen : C → Ends T P k limit p q) (helse : ¬ C → Ends T P k limit p' q') :
    Ends T P k limit (if C then p else p') (if C then q else q') := by
  by_cases h : C
  · rw [if_pos h, if_pos h]
    exact hthen h
  · rw [if_neg h, if_neg h]
    exact helse h

theorem peeks_fresh : Peeks T fresh fresh :=
  fun _ _ built _ => .inl ⟨built + 1, built + 1, rfl, rfl⟩

theorem advance_of_ok {s s' : σ} (h : Tape.next s = .ok s') (built : Nat) :
    advance ⟨s, built⟩ = .ok ((), ⟨s', built⟩) := by
  simp only [advance, get, getThe, MonadStateOf.get, bind, StateT.bind, StateT.get, pure,
    Except.pure, Except.bind, h]
  rfl

theorem advance_of_error {s : σ} {cause : LexFault} {position : Nat}
    (h : Tape.next s = .error (cause, position)) (built : Nat) :
    advance ⟨s, built⟩ = .error ⟨.lexical cause, Tape.token s, position⟩ := by
  simp only [advance, get, getThe, MonadStateOf.get, bind, StateT.bind, StateT.get, pure,
    Except.pure, Except.bind, h]
  rfl

theorem upcoming_of_ok {s s' : σ} (h : Tape.next s = .ok s') (built : Nat) :
    upcoming ⟨s, built⟩ = .ok (Tape.token s', ⟨s, built⟩) := by
  change (advance ⟨s, built⟩ >>= fun r =>
    .ok (Tape.token r.2.tape, ({ r.2 with tape := s } : ParseState σ))) = _
  rw [advance_of_ok h]
  rfl

theorem upcoming_of_error {s : σ} {cause : LexFault} {position : Nat}
    (h : Tape.next s = .error (cause, position)) (built : Nat) :
    upcoming ⟨s, built⟩ = .error ⟨.lexical cause, Tape.token s, position⟩ := by
  change (advance ⟨s, built⟩ >>= fun r =>
    .ok (Tape.token r.2.tape, ({ r.2 with tape := s } : ParseState σ))) = _
  rw [advance_of_error h]
  rfl

theorem agreed_advance {s : σ} {t : τ} (hrelated : T.Related s t) (built : Nat)
    (hk : T.left s - 1 + k ≤ T.left s) :
    Agreed T k s (advance ⟨s, built⟩) (advance ⟨t, built⟩) := by
  cases hs : Tape.next s with
  | ok s' =>
    obtain ⟨t', ht, hrelated', hleft⟩ := T.next hrelated hs
    rw [advance_of_ok hs, advance_of_ok ht]
    exact .parsed hrelated' (hleft ▸ hk)
  | error fault =>
    obtain ⟨position', ht, hsame⟩ := T.next_error hrelated hs
    rw [advance_of_error hs, advance_of_error ht]
    exact .failed hsame nofun

/-- After a step and a look the tape is put back to where it was. -/
theorem peeks_upcoming : Peeks T upcoming upcoming := by
  intro s t built hrelated
  cases hs : Tape.next s with
  | ok s' =>
    obtain ⟨t', ht, hrelated', _⟩ := T.next hrelated hs
    refine .inl ⟨Tape.token s', built, upcoming_of_ok hs built, ?_⟩
    rw [T.token_eq hrelated']
    exact upcoming_of_ok ht built
  | error fault =>
    obtain ⟨position', ht, hsame⟩ := T.next_error hrelated hs
    exact .inr ⟨_, _, upcoming_of_error hs built, upcoming_of_error ht built, hsame, nofun⟩

theorem ends_advance (h : token ≠ .endOfInput) :
    Ends T (· = token) 1 limit advance advance := by
  intro s t built hrelated _ htoken
  have hpos := (T.left_pos hrelated).2 (htoken ▸ h)
  exact agreed_advance hrelated built (by omega)

theorem ends_advance_any : Ends T P 0 limit advance advance :=
  fun _ _ built hrelated _ _ => agreed_advance hrelated built (Nat.sub_le _ _)

theorem ends_pass {f : Unit → Parser σ α} {g : Unit → Parser τ α} (h : token ≠ .endOfInput)
    (hf : 0 < limit → Ends T (fun _ => True) (k - 1) (limit - 1) (f ()) (g ())) :
    Ends T (· = token) k limit (advance >>= f) (advance >>= g) :=
  (ends_advance h).bind fun _ => hf

theorem ends_numbered (build : Nat → α) :
    Ends T P 0 limit (fresh >>= fun id => pure (build id)) (fresh >>= fun id => pure (build id)) :=
  peeks_fresh.bind fun id => ends_pure (build id)

theorem ends_symbol (mark : Symbol) : Ends T P 1 limit (symbol mark) (symbol mark) :=
  ends_current fun _ => ends_ite (fun h => ends_advance (h ▸ nofun)) fun _ => ends_fail nofun

theorem ends_keyword (word : Keyword) : Ends T P 1 limit (keyword word) (keyword word) :=
  ends_current fun _ => ends_ite (fun h => ends_advance (h ▸ nofun)) fun _ => ends_fail nofun

theorem ends_name (what : Expectation) : Ends T P 1 limit (name what) (name what) := by
  refine ends_current fun token => ?_
  cases token with
  | identifier name => exact ends_pass nofun fun _ => ends_pure name
  | _ => exact ends_fail nofun

theorem ends_typeName (what : Expectation) : Ends T P 1 limit (typeName what) (typeName what) := by
  refine ends_current fun token => ?_
  cases token with
  | keyword word =>
    dsimp only
    cases word.typeName? with
    | none => exact ends_fail nofun
    | some type => exact ends_pass nofun fun _ => ends_pure type
  | _ => exact ends_fail nofun

theorem ends_commaTail {item : Parser σ α} {item' : Parser τ α}
    (hitem : Ends T (fun _ => True) 1 limit item item')
    (h : limit < bound) (h' : limit < bound') :
    Ends T P 0 limit (commaTail item bound) (commaTail item' bound') := by
  induction bound generalizing bound' limit P with
  | zero => omega
  | succ bound ih =>
    obtain ⟨bound', rfl⟩ := Nat.exists_eq_add_one_of_ne_zero (Nat.ne_zero_of_lt h')
    refine ends_current fun token => ends_ite (fun hcomma => ?_) fun _ => ends_pure []
    refine ends_pass (hcomma ▸ nofun) fun hl => ?_
    refine (hitem.within (by omega)).bind fun first hl' => ?_
    refine (ih (hitem.within (by omega)) (by omega) (by omega)).bind fun others _ => ?_
    exact ends_pure (first :: others)

theorem ends_commaList {item : Parser σ α} {item' : Parser τ α}
    (hitem : Ends T (fun _ => True) 1 limit item item')
    (h : limit ≤ bound) (h' : limit ≤ bound') (closing : Symbol) :
    Ends T P 1 limit (commaList bound item closing) (commaList bound' item' closing) := by
  refine ends_current fun token => ends_ite (fun hclosing => ?_) fun _ => ?_
  · exact ends_pass (hclosing ▸ nofun) fun _ => ends_pure []
  · refine (hitem.within (Nat.le_refl _)).bind fun first hl => ?_
    refine (ends_commaTail (hitem.within (by omega)) (by omega) (by omega)).bind fun others _ => ?_
    exact (ends_symbol closing).bind fun _ _ => ends_pure (first :: others)

section Expressions

variable {factor expression operand : Parser σ Node} {factor' expression' operand' : Parser τ Node}

theorem ends_chain (op? : Token → Option BinaryOp) (hend : op? .endOfInput = none)
    (hoperand : Ends T (fun _ => True) 1 limit operand operand') (h : limit < bound)
    (h' : limit < bound') (node : Node) :
    Ends T P 0 limit (chain op? operand bound node) (chain op? operand' bound' node) := by
  induction bound generalizing bound' limit P node with
  | zero => omega
  | succ bound ih =>
    obtain ⟨bound', rfl⟩ := Nat.exists_eq_add_one_of_ne_zero (Nat.ne_zero_of_lt h')
    refine ends_current fun token => ?_
    cases hop : op? token with
    | none => exact ends_pure node
    | some op =>
      have htoken : token ≠ .endOfInput := by
        rintro rfl
        cases hend.symm.trans hop
      refine ends_pass htoken fun hl => ?_
      refine (hoperand.within (by omega)).bind fun right hl' => peeks_fresh.bind fun id => ?_
      exact ih (hoperand.within (by omega)) (by omega) (by omega) (.binary id op node right)

theorem ends_level (op? : Token → Option BinaryOp) (hend : op? .endOfInput = none)
    (hoperand : Ends T (fun _ => True) 1 limit operand operand') (h : limit ≤ bound)
    (h' : limit ≤ bound') :
    Ends T P 1 limit (level op? bound operand) (level op? bound' operand') := by
  refine (hoperand.within (Nat.le_refl _)).bind fun node hl => ?_
  exact ends_chain op? hend (hoperand.within (by omega)) (by omega) (by omega) node

theorem ends_termOver (hfactor : Ends T (fun _ => True) 1 limit factor factor') (h : limit ≤ bound)
    (h' : limit ≤ bound') : Ends T P 1 limit (termOver bound factor) (termOver bound' factor') :=
  ends_level _ rfl hfactor h h'

theorem ends_sumOver (hfactor : Ends T (fun _ => True) 1 limit factor factor') (h : limit ≤ bound)
    (h' : limit ≤ bound') : Ends T P 1 limit (sumOver bound factor) (sumOver bound' factor') :=
  ends_level _ rfl (ends_termOver hfactor h h') h h'

theorem ends_relationOver (hfactor : Ends T (fun _ => True) 1 limit factor factor')
    (h : limit ≤ bound) (h' : limit ≤ bound') :
    Ends T P 1 limit (relationOver bound factor) (relationOver bound' factor') :=
  ends_level _ rfl (ends_sumOver hfactor h h') h h'

theorem ends_expressionOver (hfactor : Ends T (fun _ => True) 1 limit factor factor')
    (h : limit ≤ bound) (h' : limit ≤ bound') :
    Ends T P 1 limit (expressionOver bound factor) (expressionOver bound' factor') :=
  ends_level _ rfl (ends_relationOver hfactor h h') h h'

theorem ends_callOf
    (hexpression : 0 < limit → Ends T (fun _ => True) 1 (limit - 1) expression expression')
    (h : limit ≤ bound) (h' : limit ≤ bound') (name : String) :
    Ends T P 1 limit (callOf bound expression name) (callOf bound' expression' name) := by
  refine (ends_symbol _).bind fun _ hl => ?_
  refine (ends_commaList (hexpression hl) (by omega) (by omega) _).bind fun arguments _ => ?_
  exact ends_numbered _

theorem ends_accessOf
    (hexpression : 0 < limit → Ends T (fun _ => True) 1 (limit - 1) expression expression')
    (name : String) : Ends T P 1 limit (accessOf expression name) (accessOf expression' name) := by
  refine (ends_symbol _).bind fun _ hl => (hexpression hl).bind fun index _ => ?_
  exact (ends_symbol _).bind fun _ _ => peeks_fresh.bind fun label => ends_numbered _

theorem ends_arrayLiteral
    (hexpression : 0 < limit → Ends T (fun _ => True) 1 (limit - 1) expression expression')
    (h : limit ≤ bound) (h' : limit ≤ bound') :
    Ends T P 1 limit (arrayLiteral bound expression) (arrayLiteral bound' expression') := by
  refine (ends_symbol _).bind fun _ hl => ?_
  refine (ends_commaList (hexpression hl) (by omega) (by omega) _).bind fun elements _ => ?_
  exact ends_numbered _

theorem ends_lengthCall : Ends T P 1 limit lengthCall lengthCall := by
  refine (ends_keyword _).bind fun _ _ => (ends_symbol _).bind fun _ _ => ?_
  refine (ends_name _).bind fun name _ => (ends_symbol _).bind fun _ _ => ?_
  exact peeks_fresh.bind fun label => ends_numbered _

theorem ends_signed (op : UnaryOp) (htoken : token ≠ .endOfInput)
    (hfactor : 0 < limit → Ends T (fun _ => True) 1 (limit - 1) factor factor') :
    Ends T (· = token) 1 limit (signed op factor) (signed op factor') :=
  ends_pass htoken fun hl => (hfactor hl).bind fun _ _ => ends_numbered _

theorem ends_factorOver (hfactor : 0 < limit → Ends T (fun _ => True) 1 (limit - 1) factor factor')
    (h : limit ≤ bound) (h' : limit ≤ bound') :
    Ends T P 1 limit (factorOver bound factor) (factorOver bound' factor') := by
  have hexpression (hl : 0 < limit) : Ends T (fun _ => True) 1 (limit - 1)
      (expressionOver bound factor) (expressionOver bound' factor') :=
    ends_expressionOver (hfactor hl) (by omega) (by omega)
  refine ends_current fun token => ?_
  split
  · exact ends_signed _ nofun hfactor
  · exact ends_signed _ nofun hfactor
  · exact ends_pass nofun fun _ => ends_numbered _
  · exact ends_pass nofun fun _ => ends_numbered _
  · exact ends_pass nofun fun _ => ends_numbered _
  · exact ends_pass nofun fun _ => ends_numbered _
  · refine ends_pass nofun fun hl => (hexpression hl).bind fun node _ => ?_
    exact (ends_symbol _).bind fun _ _ => ends_pure node
  · exact ends_arrayLiteral hexpression h h'
  · next name =>
    refine ends_pass nofun fun hl => ends_current fun token => ?_
    have hinner (_ : 0 < limit - 1) : Ends T (fun _ => True) 1 (limit - 1 - 1)
        (expressionOver bound factor) (expressionOver bound' factor') :=
      (hexpression hl).within (Nat.sub_le _ _)
    split
    · exact (ends_callOf hinner (by omega) (by omega) name).weaken
    · exact (ends_accessOf hinner name).weaken
    · exact ends_numbered _
  · exact ends_lengthCall
  · exact ends_fail nofun

theorem ends_factor (h : limit < bound) (h' : limit < bound') :
    Ends T P 1 limit (Parser.factor bound) (Parser.factor bound') := by
  induction bound generalizing bound' limit P with
  | zero => omega
  | succ bound ih =>
    obtain ⟨bound', rfl⟩ := Nat.exists_eq_add_one_of_ne_zero (Nat.ne_zero_of_lt h')
    exact ends_factorOver (fun _ => ih (by omega) (by omega)) (by omega) (by omega)

theorem ends_expression (h : limit < bound) (h' : limit < bound') :
    Ends T P 1 limit (Parser.expression bound) (Parser.expression bound') :=
  ends_expressionOver (ends_factor h h') (by omega) (by omega)

end Expressions

section Commands

variable {command : Parser σ Node} {command' : Parser τ Node}

theorem ends_variableDeclaration (h : limit ≤ bound) (h' : limit ≤ bound') :
    Ends T P 1 limit (variableDeclaration bound) (variableDeclaration bound') := by
  refine ends_current fun token => ?_
  cases token with
  | identifier name =>
    refine peeks_fresh.bind fun label => ends_pass nofun fun hl => ?_
    refine (ends_symbol _).bind fun _ _ => (ends_typeName _).bind fun type _ => ?_
    refine (ends_symbol _).bind fun _ _ => ?_
    refine (ends_expression (by omega) (by omega)).bind fun value _ => ?_
    exact (ends_symbol _).bind fun _ _ => ends_numbered _
  | _ => exact ends_fail nofun

theorem ends_parameter : Ends T P 1 limit parameter parameter := by
  refine (ends_name _).bind fun name _ => (ends_symbol _).bind fun _ _ => ?_
  refine (ends_typeName _).bind fun type _ => ?_
  exact peeks_fresh.bind fun label => ends_numbered _

theorem ends_resultType : Ends T P 0 limit resultType resultType := by
  refine ends_current fun token => ends_ite (fun hcolon => ?_) fun _ => ends_pure none
  refine ends_pass (hcolon ▸ nofun) fun _ => ?_
  exact (ends_typeName _).bind fun type _ => ends_pure (some type)

theorem ends_commands (hcommand : Ends T (fun _ => True) 1 limit command command')
    (h : limit < bound) (h' : limit < bound') :
    Ends T P 0 limit (commands command bound) (commands command' bound') := by
  induction bound generalizing bound' limit P with
  | zero => omega
  | succ bound ih =>
    obtain ⟨bound', rfl⟩ := Nat.exists_eq_add_one_of_ne_zero (Nat.ne_zero_of_lt h')
    refine ends_current fun token => ?_
    split
    · exact ends_pure []
    · exact ends_pure []
    · refine ends_pass nofun fun hl => ?_
      exact ih (hcommand.within (by omega)) (by omega) (by omega)
    · refine (hcommand.within (Nat.le_refl _)).bind fun first hl => ?_
      refine (ih (hcommand.within (by omega)) (by omega) (by omega)).bind fun others _ => ?_
      exact ends_pure (first :: others)

theorem ends_blockOf (hcommand : 0 < limit → Ends T (fun _ => True) 1 (limit - 1) command command')
    (h : limit ≤ bound) (h' : limit ≤ bound') :
    Ends T P 1 limit (blockOf bound command) (blockOf bound' command') := by
  refine (ends_symbol _).bind fun _ hl => ?_
  refine (ends_commands (hcommand hl) (by omega) (by omega)).bind fun body _ => ?_
  exact (ends_symbol _).bind fun _ _ => ends_numbered _

theorem ends_conditionalOf
    (hcommand : 0 < limit → Ends T (fun _ => True) 1 (limit - 1) command command')
    (h : limit ≤ bound) (h' : limit ≤ bound') :
    Ends T P 1 limit (conditionalOf bound command) (conditionalOf bound' command') := by
  refine (ends_keyword _).bind fun _ hl => (ends_symbol _).bind fun _ _ => ?_
  refine (ends_expression (by omega) (by omega)).bind fun condition _ => ?_
  refine (ends_symbol _).bind fun _ _ => ?_
  refine ((hcommand hl).within (by omega)).bind fun positive _ => ?_
  refine ends_current fun token => ends_ite (fun helse => ?_) fun _ => ends_numbered _
  refine ends_pass (helse ▸ nofun) fun _ => ?_
  exact ((hcommand hl).within (by omega)).bind fun negative _ => ends_numbered _

theorem ends_loopOf (hcommand : 0 < limit → Ends T (fun _ => True) 1 (limit - 1) command command')
    (h : limit ≤ bound) (h' : limit ≤ bound') :
    Ends T P 1 limit (loopOf bound command) (loopOf bound' command') := by
  refine (ends_keyword _).bind fun _ hl => (ends_symbol _).bind fun _ _ => ?_
  refine (ends_expression (by omega) (by omega)).bind fun condition _ => ?_
  refine (ends_symbol _).bind fun _ _ => ?_
  exact ((hcommand hl).within (by omega)).bind fun body _ => ends_numbered _

theorem ends_result (h : limit ≤ bound) (h' : limit ≤ bound') :
    Ends T P 1 limit (result bound) (result bound') := by
  refine (ends_keyword _).bind fun _ hl => ends_current fun token => ?_
  refine ends_ite (fun hsemicolon => ?_) fun _ => ?_
  · exact ends_pass (hsemicolon ▸ nofun) fun _ => ends_numbered _
  · refine (ends_expression (by omega) (by omega)).bind fun value _ => ?_
    exact (ends_symbol _).bind fun _ _ => ends_numbered _

theorem ends_action (h : limit ≤ bound) (h' : limit ≤ bound') :
    Ends T P 1 limit (action bound) (action bound') := by
  refine ends_current fun token => ends_advance_any.bind fun _ _ => ?_
  refine (ends_symbol _).bind fun _ hl => ?_
  refine (ends_commaList (ends_expression (by omega) (by omega)) (by omega) (by omega) _).bind
    fun arguments _ => ?_
  exact (ends_symbol _).bind fun _ _ => ends_numbered _

theorem ends_assignment (h : limit ≤ bound) (h' : limit ≤ bound') (name : String) :
    Ends T P 1 limit (assignment bound name) (assignment bound' name) := by
  refine (ends_symbol _).bind fun _ hl => ?_
  refine (ends_expression (by omega) (by omega)).bind fun value _ => ?_
  exact (ends_symbol _).bind fun _ _ => peeks_fresh.bind fun label => ends_numbered _

theorem ends_elementAssignment (h : limit ≤ bound) (h' : limit ≤ bound') (name : String) :
    Ends T P 1 limit (elementAssignment bound name) (elementAssignment bound' name) := by
  refine (ends_symbol _).bind fun _ hl => ?_
  refine (ends_expression (by omega) (by omega)).bind fun index _ => ?_
  refine (ends_symbol _).bind fun _ _ => ?_
  exact (ends_assignment (by omega) (by omega) name).weaken

theorem ends_namedCommand (htoken : token ≠ .endOfInput) (h : limit ≤ bound) (h' : limit ≤ bound')
    (name : String) :
    Ends T (· = token) 1 limit (namedCommand bound name) (namedCommand bound' name) := by
  refine ends_pass htoken fun hl => ends_current fun token => ?_
  split
  · refine (ends_callOf (fun _ => ends_expression (by omega) (by omega)) (by omega) (by omega)
      name).bind fun node _ => ?_
    refine ends_current fun token => ends_ite (fun hsemicolon => ?_) fun _ => ends_fail nofun
    exact ends_pass (hsemicolon ▸ nofun) fun _ => ends_pure node
  · exact ends_pass nofun fun _ => ends_numbered _
  · exact (ends_assignment (by omega) (by omega) name).weaken
  · exact (ends_elementAssignment (by omega) (by omega) name).weaken
  · exact ends_fail nofun

theorem ends_commandOver
    (hcommand : 0 < limit → Ends T (fun _ => True) 1 (limit - 1) command command')
    (h : limit ≤ bound) (h' : limit ≤ bound') :
    Ends T P 1 limit (commandOver bound command) (commandOver bound' command') := by
  refine ends_current fun token => ?_
  split
  · exact ends_pass nofun fun _ => ends_numbered _
  · next name =>
    refine peeks_upcoming.bind fun token => ends_ite (fun _ => ?_) fun _ => ?_
    · exact ends_variableDeclaration h h'
    · exact ends_namedCommand (by nofun) h h' name
  · exact ends_blockOf hcommand h h'
  · exact ends_conditionalOf hcommand h h'
  · exact ends_loopOf hcommand h h'
  · exact ends_result h h'
  iterate 6 exact ends_action h h'
  · exact ends_fail nofun

theorem ends_command (h : limit < bound) (h' : limit < bound') :
    Ends T P 1 limit (Parser.command bound) (Parser.command bound') := by
  induction bound generalizing bound' limit P with
  | zero => omega
  | succ bound ih =>
    obtain ⟨bound', rfl⟩ := Nat.exists_eq_add_one_of_ne_zero (Nat.ne_zero_of_lt h')
    exact ends_commandOver (fun _ => ih (by omega) (by omega)) (by omega) (by omega)

theorem ends_block (h : limit ≤ bound) (h' : limit ≤ bound') :
    Ends T P 1 limit (block bound) (block bound') :=
  ends_blockOf (fun _ => ends_command (by omega) (by omega)) h h'

theorem ends_functionDeclaration (h : limit ≤ bound) (h' : limit ≤ bound') :
    Ends T P 1 limit (functionDeclaration bound) (functionDeclaration bound') := by
  refine (ends_keyword _).bind fun _ hl => (ends_name _).bind fun name _ => ?_
  refine (ends_symbol _).bind fun _ _ => ?_
  refine (ends_commaList ends_parameter (by omega) (by omega) _).bind fun parameters _ => ?_
  refine ends_resultType.bind fun type _ => ?_
  refine (ends_block (by omega) (by omega)).bind fun body _ => ?_
  exact peeks_fresh.bind fun id => ends_numbered _

theorem ends_members {inner inner' : Nat} (hinner : limit ≤ inner) (hinner' : limit ≤ inner')
    (h : limit < bound) (h' : limit < bound') :
    Ends T P 0 limit (members inner bound) (members inner' bound') := by
  induction bound generalizing bound' limit P with
  | zero => omega
  | succ bound ih =>
    obtain ⟨bound', rfl⟩ := Nat.exists_eq_add_one_of_ne_zero (Nat.ne_zero_of_lt h')
    have hothers (first : Node) (hl : 0 < limit) : Ends T (fun _ => True) 0 (limit - 1)
        (members inner bound >>= fun others => pure (first :: others))
        (members inner' bound' >>= fun others => pure (first :: others)) :=
      (ih (by omega) (by omega) (by omega) (by omega)).bind fun others _ => ends_pure _
    refine ends_current fun token => ?_
    split
    · exact ends_pure []
    · exact ends_pure []
    · refine peeks_upcoming.bind fun token => ends_ite (fun _ => ?_) fun _ => ends_fail nofun
      exact (ends_variableDeclaration hinner hinner').bind hothers
    · exact (ends_functionDeclaration hinner hinner').bind hothers
    · exact ends_fail nofun

theorem ends_entityDeclaration (h : limit ≤ bound) (h' : limit ≤ bound') :
    Ends T P 1 limit (entityDeclaration bound) (entityDeclaration bound') := by
  refine (ends_keyword _).bind fun _ hl => (ends_name _).bind fun _ _ => ?_
  refine (ends_symbol _).bind fun _ _ => ?_
  refine (ends_members (by omega) (by omega) (by omega) (by omega)).bind fun nodes _ => ?_
  exact (ends_symbol _).bind fun _ _ => ends_numbered _

theorem ends_topLevel (h : limit < bound) (h' : limit < bound') :
    Ends T P 1 limit (topLevel bound) (topLevel bound') := by
  refine ends_current fun token => ?_
  split
  · exact ends_functionDeclaration (by omega) (by omega)
  · exact ends_entityDeclaration (by omega) (by omega)
  · exact ends_command h h'

theorem ends_topLevels {inner inner' : Nat} (hinner : limit < inner) (hinner' : limit < inner')
    (h : limit < bound) (h' : limit < bound') :
    Ends T P 0 limit (topLevels inner bound) (topLevels inner' bound') := by
  induction bound generalizing bound' limit P with
  | zero => omega
  | succ bound ih =>
    obtain ⟨bound', rfl⟩ := Nat.exists_eq_add_one_of_ne_zero (Nat.ne_zero_of_lt h')
    refine ends_current fun token => ends_ite (fun _ => ends_pure []) fun _ => ?_
    refine (ends_topLevel hinner hinner').bind fun first hl => ?_
    refine (ih (by omega) (by omega) (by omega) (by omega)).bind fun others _ => ?_
    exact ends_pure (first :: others)

theorem ends_program (h : limit < bound) (h' : limit < bound') :
    Ends T P 0 limit (program bound) (program bound') :=
  (ends_topLevels h h' h h').bind fun _ _ => ends_numbered _

end Commands

end Parser

open LevelScript.Parser (Ends)

def Construct.least : Construct → Nat
  | .program => 0
  | _ => 1

theorem Construct.least_eq_one {construct : Construct} (h : construct ≠ .program) :
    construct.least = 1 := by
  cases construct with
  | program => exact absurd rfl h
  | _ => rfl

theorem Construct.ends_parser {σ τ : Type} [Tape σ] [Tape τ] {T : Pairing σ τ}
    (construct : Construct) {P : Token → Prop} {limit bound bound' : Nat} (h : limit < bound)
    (h' : limit < bound') :
    Ends T P construct.least limit (construct.parser bound) (construct.parser bound') := by
  have hle := Nat.le_of_lt h
  have hle' := Nat.le_of_lt h'
  have hfactor : Ends T (fun _ => True) 1 limit (Parser.factor bound) (Parser.factor bound') :=
    Parser.ends_factor h h'
  have hexpression (_ : 0 < limit) : Ends T (fun _ => True) 1 (limit - 1) (Parser.expression bound)
      (Parser.expression bound') :=
    Parser.ends_expression (by omega) (by omega)
  have hcommand (_ : 0 < limit) : Ends T (fun _ => True) 1 (limit - 1) (Parser.command bound)
      (Parser.command bound') :=
    Parser.ends_command (by omega) (by omega)
  cases construct with
  | program => exact Parser.ends_program h h'
  | variableDeclaration => exact Parser.ends_variableDeclaration hle hle'
  | functionDeclaration => exact Parser.ends_functionDeclaration hle hle'
  | entityDeclaration => exact Parser.ends_entityDeclaration hle hle'
  | command => exact Parser.ends_command h h'
  | block => exact Parser.ends_block hle hle'
  | conditional => exact Parser.ends_conditionalOf hcommand hle hle'
  | loop => exact Parser.ends_loopOf hcommand hle hle'
  | result => exact Parser.ends_result hle hle'
  | action => exact Parser.ends_action hle hle'
  | assignment name => exact Parser.ends_assignment hle hle' name
  | elementAssignment name => exact Parser.ends_elementAssignment hle hle' name
  | expression => exact Parser.ends_expression h h'
  | relation => exact Parser.ends_relationOver hfactor hle hle'
  | sum => exact Parser.ends_sumOver hfactor hle hle'
  | term => exact Parser.ends_termOver hfactor hle hle'
  | factor => exact Parser.ends_factor h h'
  | arrayLiteral => exact Parser.ends_arrayLiteral hexpression hle hle'
  | call name => exact Parser.ends_callOf hexpression hle hle' name
  | access name => exact Parser.ends_accessOf hexpression name
  | lengthCall => exact Parser.ends_lengthCall

theorem Construct.agreed_parseAt {σ τ : Type} [Tape σ] [Tape τ] {T : Pairing σ τ}
    (construct : Construct) (built : Nat) {s : σ} {t : τ} (hrelated : T.Related s t)
    (hs : T.left s < Tape.room s + 3) (ht : T.left s < Tape.room t + 3) :
    Parser.Agreed T construct.least s (construct.parseAt built s) (construct.parseAt built t) :=
  construct.ends_parser (P := fun _ => True) hs ht built hrelated (Nat.le_refl _) trivial

end LevelScript
