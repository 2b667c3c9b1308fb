import LevelScript.Proofs.Parser.Reading
import LevelScript.Proofs.Parser.Steps

set_option autoImplicit false

namespace LevelScript

namespace Parser

def Sound (p : Parser Cursor Node) (category : Category) : Prop :=
  ∀ (c d : Cursor) (n m : Nat) (node : Node), p ⟨c, n⟩ = .ok (node, ⟨d, m⟩) →
    ∃ tokens, c.Passes tokens d ∧ Reads category n tokens [node] m

theorem chain_sound {l : Level} {operand : Parser Cursor Node}
    (ho : Sound operand (.level l.tighter))
    (bound : Nat) (left node : Node) (b c d : Cursor) (k n m : Nat) (u : List Token)
    (hb : b.Passes u c) (hu : Reads (.level l) k u [left] n)
    (h : chain l.op? operand bound left ⟨c, n⟩ = .ok (node, ⟨d, m⟩)) :
    ∃ tokens, b.Passes tokens d ∧ Reads (.level l) k tokens [node] m := by
  induction bound generalizing left c n u with
  | zero => exact absurd h (fail_ok _ _ _)
  | succ bound ih =>
    rw [chain, current_ok] at h
    cases hop : l.op? c.token with
    | none =>
      rw [hop] at h
      obtain ⟨rfl, rfl, rfl⟩ := (pure_ok ..).1 h
      exact ⟨u, hb, hu⟩
    | some op =>
      rw [hop] at h
      simp only [↓advance_ok, ↓fresh_ok, bind_ok] at h
      obtain ⟨e, he, right, f, j, hr, h⟩ := h
      obtain ⟨v, hv, hr⟩ := ho e f n j right hr
      exact ih _ f _ (u ++ c.token :: v) (hb.trans (.cons rfl he hv)) (.binary hop hu hr) h

theorem level_sound {l : Level} {operand : Parser Cursor Node} (hl : l ≠ .factor)
    (ho : Sound operand (.level l.tighter)) (bound : Nat) :
    Sound (level l.op? bound operand) (.level l) := by
  intro c d n m node h
  simp only [level, bind_ok] at h
  obtain ⟨left, e, k, hleft, h⟩ := h
  obtain ⟨u, hu, hr⟩ := ho c e n k left hleft
  exact chain_sound ho bound left node c e d n k m u hu (.operand hl hr) h

theorem expressionOver_sound {factor : Parser Cursor Node} (hf : Sound factor .factor)
    (bound : Nat) :
    Sound (expressionOver bound factor) .expression :=
  level_sound (l := .logical) (by decide) (level_sound (l := .relation) (by decide)
    (level_sound (l := .sum) (by decide) (level_sound (l := .term) (by decide) hf bound) bound)
      bound) bound

theorem commaTail_sound {i : Item} {item : Parser Cursor Node} (hi : Sound item i.category)
    (bound : Nat) (c d : Cursor) (n m : Nat) (nodes : List Node)
    (h : commaTail item bound ⟨c, n⟩ = .ok (nodes, ⟨d, m⟩)) :
    nodes = [] ∧ c = d ∧ n = m ∨
      ∃ tokens, c.Passes (.symbol .comma :: tokens) d ∧ Reads (.items i) n tokens nodes m := by
  induction bound generalizing c n nodes with
  | zero => exact absurd h (fail_ok _ _ _)
  | succ bound ih =>
    rw [commaTail, current_ok] at h
    simp only [ite_ok, ↓advance_ok, bind_ok, pure_ok] at h
    rcases h with ⟨hc, e, he, first, f, k, hf, others, g, j, ho, rfl, rfl, rfl⟩ | ⟨_, rfl, rfl, rfl⟩
    · obtain ⟨u, hu, hr⟩ := hi e f n k first hf
      right
      rcases ih f k others ho with ⟨rfl, rfl, rfl⟩ | ⟨v, hv, hs⟩
      · exact ⟨u, .cons hc he hu, .itemLast hr⟩
      · exact ⟨u ++ .symbol .comma :: v, .cons hc he (hu.trans hv), .itemNext hr hs⟩
    · exact .inl ⟨rfl, rfl, rfl⟩

theorem commaList_sound {i : Item} {item : Parser Cursor Node} (hi : Sound item i.category)
    (bound : Nat) (closing : Symbol) (c d : Cursor) (n m : Nat) (nodes : List Node)
    (h : commaList bound item closing ⟨c, n⟩ = .ok (nodes, ⟨d, m⟩)) :
    ∃ tokens, c.Passes (tokens ++ [.symbol closing]) d ∧
      Reads (.optionalItems i) n tokens nodes m := by
  rw [commaList, current_ok] at h
  simp only [ite_ok, ↓advance_ok, ↓symbol_ok, bind_ok, pure_ok] at h
  rcases h with ⟨hc, e, he, rfl, rfl, rfl⟩ |
    ⟨_, first, e, k, hf, others, f, j, ho, hc, g, hg, rfl, rfl, rfl⟩
  · exact ⟨[], .last hc he, .noItems⟩
  · obtain ⟨u, hu, hr⟩ := hi c e n k first hf
    have hlast : f.Passes [.symbol closing] g := .last hc hg
    rcases commaTail_sound hi bound e f k j others ho with ⟨rfl, rfl, rfl⟩ | ⟨v, hv, hs⟩
    · exact ⟨u, hu.trans hlast, .someItems (.itemLast hr)⟩
    · exact ⟨u ++ .symbol .comma :: v, (hu.trans hv).trans hlast,
        .someItems (.itemNext hr hs)⟩

theorem callOf_sound {expression : Parser Cursor Node} (hx : Sound expression .expression)
    (bound : Nat)
    (name : String) (c d : Cursor) (n m : Nat) (node : Node)
    (h : callOf bound expression name ⟨c, n⟩ = .ok (node, ⟨d, m⟩)) :
    ∃ a arguments k, c.Passes (.symbol .leftParen :: (a ++ [.symbol .rightParen])) d ∧
      Reads (.optionalItems .expression) n a arguments k ∧
      node = .call (k + 1) name arguments ∧ m = k + 1 := by
  rw [callOf, symbol_ok] at h
  simp only [↓fresh_ok, bind_ok, pure_ok] at h
  obtain ⟨hc, e, he, arguments, f, k, ha, rfl, rfl, rfl⟩ := h
  obtain ⟨a, hp, hr⟩ := commaList_sound (i := .expression) hx bound _ e f n k arguments ha
  exact ⟨a, arguments, k, .cons hc he hp, hr, rfl, rfl⟩

theorem accessOf_sound {expression : Parser Cursor Node} (hx : Sound expression .expression)
    (name : String) (c d : Cursor) (n m : Nat) (node : Node)
    (h : accessOf expression name ⟨c, n⟩ = .ok (node, ⟨d, m⟩)) :
    ∃ i index k, c.Passes (.symbol .leftBracket :: (i ++ [.symbol .rightBracket])) d ∧
      Reads .expression n i [index] k ∧
      node = .access (k + 2) (.identifier (k + 1) name) index ∧ m = k + 2 := by
  rw [accessOf, symbol_ok] at h
  simp only [↓symbol_ok, ↓fresh_ok, bind_ok, pure_ok] at h
  obtain ⟨hc, e, he, index, f, k, hi, hf, g, hg, rfl, rfl, rfl⟩ := h
  obtain ⟨i, hp, hr⟩ := hx e f n k index hi
  exact ⟨i, index, k, .cons hc he (hp.trans (.last hf hg)), hr, rfl, rfl⟩

theorem signed_sound {factor : Parser Cursor Node} (hf : Sound factor .factor) (op : UnaryOp)
    (c d : Cursor) (n m : Nat) (node : Node) (hs : c.token.sign? = some op)
    (h : signed op factor ⟨c, n⟩ = .ok (node, ⟨d, m⟩)) :
    ∃ tokens, c.Passes tokens d ∧ Reads .factor n tokens [node] m := by
  rw [signed, advance_ok] at h
  simp only [↓fresh_ok, bind_ok, pure_ok] at h
  obtain ⟨e, he, operand, f, k, ho, rfl, rfl, rfl⟩ := h
  obtain ⟨u, hu, hr⟩ := hf e f n k operand ho
  exact ⟨c.token :: u, .cons rfl he hu, .signed hs hr⟩

theorem factorOver_sound {factor : Parser Cursor Node} (hf : Sound factor .factor) (bound : Nat) :
    Sound (factorOver bound factor) .factor := by
  have hx := expressionOver_sound hf bound
  intro c d n m node h
  rw [factorOver, current_ok] at h
  generalize ht : c.token = t at h
  cases t with
  | identifier name =>
    simp only [↓advance_ok, ↓current_ok] at h
    obtain ⟨e, he, h⟩ := h
    by_cases hp : e.token = .symbol .leftParen
    · rw [hp] at h
      obtain ⟨a, arguments, k, hpass, hr, rfl, rfl⟩ := callOf_sound hx bound name e d n m node h
      exact ⟨_, .cons ht he hpass, .call hr⟩
    by_cases hb : e.token = .symbol .leftBracket
    · rw [hb] at h
      obtain ⟨i, index, k, hpass, hr, rfl, rfl⟩ := accessOf_sound hx name e d n m node h
      exact ⟨_, .cons ht he hpass, .access hr⟩
    · simp only [↓fresh_ok, pure_ok] at h
      obtain ⟨rfl, rfl, rfl⟩ := h
      exact ⟨_, .last ht he, .name⟩
  | number value =>
    obtain ⟨he, rfl, rfl⟩ := (leaf_ok (Node.number · value) ..).1 h
    exact ⟨_, .last ht he, .number⟩
  | text value =>
    obtain ⟨he, rfl, rfl⟩ := (leaf_ok (Node.text · value) ..).1 h
    exact ⟨_, .last ht he, .text⟩
  | keyword word =>
    cases word with
    | trueWord =>
      obtain ⟨he, rfl, rfl⟩ := (leaf_ok (Node.boolean · true) ..).1 h
      exact ⟨_, .last ht he, .trueFactor⟩
    | falseWord =>
      obtain ⟨he, rfl, rfl⟩ := (leaf_ok (Node.boolean · false) ..).1 h
      exact ⟨_, .last ht he, .falseFactor⟩
    | len =>
      change lengthCall ⟨c, n⟩ = _ at h
      rw [lengthCall, keyword_ok] at h
      simp only [↓symbol_ok, ↓name_ok, ↓fresh_ok, pure_ok] at h
      obtain ⟨_, e, he, h1, f, hf, name, h2, g, hg, h3, i, hi, rfl, rfl, rfl⟩ := h
      exact ⟨_, .cons ht he (.cons h1 hf (.cons h2 hg (.last h3 hi))), .length⟩
    | _ => exact absurd h (fail_ok _ _ _)
  | symbol mark =>
    cases mark with
    | plus => exact signed_sound hf .plus c d n m node (by rw [ht]; rfl) h
    | minus => exact signed_sound hf .minus c d n m node (by rw [ht]; rfl) h
    | leftParen =>
      simp only [↓advance_ok, bind_ok, ↓symbol_ok, pure_ok] at h
      obtain ⟨e, he, inner, f, k, hi, hc, g, hg, rfl, rfl, rfl⟩ := h
      obtain ⟨u, hu, hr⟩ := hx e f n k inner hi
      exact ⟨_, .cons ht he (hu.trans (.last hc hg)), .group hr⟩
    | leftBracket =>
      change arrayLiteral bound (expressionOver bound factor) ⟨c, n⟩ = _ at h
      rw [arrayLiteral, symbol_ok] at h
      simp only [↓fresh_ok, bind_ok, pure_ok] at h
      obtain ⟨_, e, he, elements, f, k, ha, rfl, rfl, rfl⟩ := h
      obtain ⟨a, hp, hr⟩ := commaList_sound (i := .expression) hx bound _ e f n k elements ha
      exact ⟨_, .cons ht he hp, .array hr⟩
    | _ => exact absurd h (fail_ok _ _ _)
  | endOfInput => exact absurd h (fail_ok _ _ _)

theorem factor_sound (bound : Nat) : Sound (factor bound) .factor := by
  induction bound with
  | zero =>
    intro c d n m node h
    exact absurd h (fail_ok _ _ _)
  | succ bound ih => exact factorOver_sound ih bound

theorem expression_sound (bound : Nat) : Sound (expression bound) .expression :=
  expressionOver_sound (factor_sound bound) bound

end Parser

namespace Level

def inner : Level → List Level
  | .logical => [.logical, .relation, .sum, .term, .factor]
  | .relation => [.relation, .sum, .term, .factor]
  | .sum => [.sum, .term, .factor]
  | .term => [.term, .factor]
  | .factor => [.factor]

/-- What was read at this level is not continued by the token. -/
def ends (l : Level) (token : Token) : Prop :=
  token ∉ [.symbol .leftParen, .symbol .leftBracket] ∧ ∀ k ∈ l.inner, k.op? token = none

theorem ends.op?_eq_none {l : Level} {token : Token} (h : l.ends token) : l.op? token = none :=
  h.2 l (by cases l <;> decide)

theorem ends.tighter {l : Level} {token : Token} (h : l.ends token) : l.tighter.ends token :=
  ⟨h.1, fun k hk => h.2 k (by revert hk; cases l <;> cases k <;> decide)⟩

theorem tighter_ends_of_op? {l : Level} {token : Token} {op : BinaryOp}
    (h : l.op? token = some op) : l.tighter.ends token := by
  obtain ⟨mark, hm, rfl⟩ := op?_some h
  have hall : ∀ mark ∈ l.operators, Token.symbol mark ∉ [.symbol .leftParen, .symbol .leftBracket] ∧
      ∀ k ∈ l.tighter.inner, k.op? (.symbol mark) = none := by
    cases l <;> decide
  exact hall mark hm

theorem ends_symbol (l : Level) {token : Token} {mark : Symbol} (ht : token = .symbol mark)
    (h : mark ∈ [Symbol.rightParen, .rightBracket, .comma, .semicolon]) : l.ends token := by
  subst ht
  refine ⟨?_, fun k _ => ?_⟩
  · revert h
    cases mark <;> decide
  · revert h
    cases k <;> cases mark <;> first | (intro; rfl) | decide

end Level

namespace Parser

/-- Where tokens of the category stand, up to `limit` of them, and a token after them that ends
what they say, `p` gives their reading. -/
def Complete (p : Parser Cursor Node) (category : Category) (ends : Token → Prop) (limit : Nat) :
    Prop :=
  ∀ (c d : Cursor) (n m : Nat) (tokens : List Token) (node : Node),
    Reads category n tokens [node] m → c.Passes tokens d → ends d.token →
    tokens.length ≤ limit → p ⟨c, n⟩ = .ok (node, ⟨d, m⟩)

theorem Complete.mono {p : Parser Cursor Node} {category : Category} {ends : Token → Prop}
    {small large : Nat} (h : Complete p category ends large) (hl : small ≤ large) :
    Complete p category ends small := by
  intro c d n m tokens node hr hp he ht
  exact h c d n m tokens node hr hp he (Nat.le_trans ht hl)

theorem level_run {l : Level} (hl : l ≠ .factor) {operand : Parser Cursor Node} {limit bound : Nat}
    (ho : Complete operand (.level l.tighter) l.tighter.ends limit) (hb : limit < bound)
    (c d : Cursor) (n m : Nat) (tokens : List Token) (node : Node)
    (h : Reads (.level l) n tokens [node] m) (hp : c.Passes tokens d)
    (he : l.tighter.ends d.token) (ht : tokens.length ≤ limit) :
    ∃ j ≤ tokens.length, ∀ r, chain l.op? operand (bound - j) node ⟨d, m⟩ = .ok r →
      level l.op? bound operand ⟨c, n⟩ = .ok r := by
  generalize hc : Category.level l = category at h
  generalize hn : [node] = nodes at h
  induction h generalizing node d with
  | operand _ hr =>
    cases hc
    cases hn
    refine ⟨0, Nat.zero_le _, fun r hchain => ?_⟩
    rw [level, bind_ok]
    exact ⟨_, d, _, ho c d _ _ _ _ hr hp he ht, hchain⟩
  | @binary _ n m k token op u v left right hop _ hr ih =>
    cases hc
    cases hn
    obtain ⟨e, hu, hv⟩ := (Cursor.passes_append ..).1 hp
    obtain ⟨htoken, f, hf, hv⟩ := (Cursor.passes_cons ..).1 hv
    have hlength : u.length + (v.length + 1) ≤ limit := by simpa using ht
    have hends : l.tighter.ends e.token := by
      rw [htoken]
      exact Level.tighter_ends_of_op? hop
    obtain ⟨j, hj, hrun⟩ := ih e left hu hends (by omega) rfl rfl
    refine ⟨j + 1, by simp; omega, fun r hchain => hrun r ?_⟩
    have hbound : bound - j = bound - (j + 1) + 1 := by omega
    rw [hbound, chain, current_ok, htoken, hop]
    simp only [↓advance_ok, ↓fresh_ok, bind_ok]
    exact ⟨f, hf, right, d, k, ho f d m k v right hr hv he (by omega), hchain⟩
  | _ => cases hc <;> exact absurd rfl hl

theorem level_complete {l : Level} (hl : l ≠ .factor) {operand : Parser Cursor Node}
    {limit bound : Nat} (ho : Complete operand (.level l.tighter) l.tighter.ends limit)
    (hb : limit < bound) :
    Complete (level l.op? bound operand) (.level l) l.ends limit := by
  intro c d n m tokens node hr hp he ht
  obtain ⟨j, hj, hrun⟩ := level_run hl ho hb c d n m tokens node hr hp he.tighter ht
  have hbound : bound - j = bound - (j + 1) + 1 := by omega
  apply hrun
  rw [hbound, chain, current_ok, he.op?_eq_none]
  exact (pure_ok ..).2 ⟨rfl, rfl, rfl⟩

theorem expressionOver_complete {factor : Parser Cursor Node} {limit bound : Nat}
    (hf : Complete factor .factor Level.factor.ends limit) (hb : limit < bound) :
    Complete (expressionOver bound factor) .expression Level.logical.ends limit :=
  level_complete (l := .logical) (by decide) (level_complete (l := .relation) (by decide)
    (level_complete (l := .sum) (by decide) (level_complete (l := .term) (by decide) hf hb) hb)
      hb) hb

theorem commaTail_complete {i : Item} {item : Parser Cursor Node} {limit : Nat}
    (hi : Complete item i.category Level.logical.ends limit) {closing : Symbol}
    (hclosing : closing ∈ [Symbol.rightParen, .rightBracket]) (bound : Nat) (c d : Cursor)
    (n m : Nat) (tokens : List Token) (nodes : List Node) (h : Reads (.items i) n tokens nodes m)
    (hp : c.Passes tokens d) (hd : d.token = .symbol closing) (hl : tokens.length ≤ limit)
    (hb : tokens.length < bound) :
    ∃ first others e k, nodes = first :: others ∧ item ⟨c, n⟩ = .ok (first, ⟨e, k⟩) ∧
      commaTail item bound ⟨e, k⟩ = .ok (others, ⟨d, m⟩) := by
  generalize hc : Category.items i = category at h
  induction h generalizing c bound with
  | @itemLast _ _ m _ node hr =>
    cases hc
    obtain ⟨bound, rfl⟩ := Nat.exists_eq_add_one_of_ne_zero (Nat.ne_zero_of_lt hb)
    have hends : Level.logical.ends d.token :=
      Level.ends_symbol _ hd (by revert hclosing; cases closing <;> decide)
    refine ⟨node, [], d, m, rfl, hi c d _ m _ node hr hp hends hl, ?_⟩
    rw [commaTail, current_ok, if_neg (by rw [hd]; revert hclosing; cases closing <;> decide)]
    exact (pure_ok ..).2 ⟨rfl, rfl, rfl⟩
  | @itemNext _ n m k u v node nodes hr _ _ ih =>
    cases hc
    obtain ⟨bound, rfl⟩ := Nat.exists_eq_add_one_of_ne_zero (Nat.ne_zero_of_lt hb)
    have hlength : (u ++ .symbol .comma :: v).length = u.length + (v.length + 1) := by simp
    obtain ⟨e, hu, hv⟩ := (Cursor.passes_append ..).1 hp
    obtain ⟨htoken, f, hf, hv⟩ := (Cursor.passes_cons ..).1 hv
    have hends : Level.logical.ends e.token := Level.ends_symbol _ htoken (by decide)
    obtain ⟨first, others, g, j, rfl, hfirst, hothers⟩ :=
      ih bound f hv (by omega) (by omega) rfl
    refine ⟨node, first :: others, e, m, rfl, hi c e n m u node hr hu hends (by omega), ?_⟩
    rw [commaTail, current_ok, if_pos htoken, advance_ok]
    simp only [bind_ok, pure_ok]
    exact ⟨f, hf, first, g, j, hfirst, others, d, _, hothers, rfl, rfl, rfl⟩
  | _ => cases hc

theorem commaList_complete {i : Item} {item : Parser Cursor Node} {limit bound : Nat}
    (hi : Complete item i.category Level.logical.ends limit) {closing : Symbol}
    (hclosing : closing ∈ [Symbol.rightParen, .rightBracket]) (c d : Cursor) (n m : Nat)
    (tokens : List Token) (nodes : List Node) (h : Reads (.optionalItems i) n tokens nodes m)
    (hp : c.Passes (tokens ++ [.symbol closing]) d) (hl : tokens.length ≤ limit)
    (hb : tokens.length < bound) :
    commaList bound item closing ⟨c, n⟩ = .ok (nodes, ⟨d, m⟩) := by
  rw [commaList, current_ok]
  obtain ⟨e, hitems, hlast⟩ := (Cursor.passes_append ..).1 hp
  obtain ⟨hclose, f, hf, rfl⟩ := (Cursor.passes_cons ..).1 hlast
  cases h with
  | noItems =>
    obtain rfl := (Cursor.passes_nil ..).1 hitems
    rw [if_pos hclose, advance_ok]
    exact ⟨f, hf, (pure_ok ..).2 ⟨rfl, rfl, rfl⟩⟩
  | someItems h =>
    obtain ⟨token, rest, rfl, hbegins⟩ := h.begins rfl
    have hopen : c.token ≠ .symbol closing := by
      rw [hitems.token_eq]
      rintro rfl
      revert hbegins hclosing
      cases i <;> cases closing <;> decide
    obtain ⟨first, others, g, j, rfl, hfirst, hothers⟩ :=
      commaTail_complete hi hclosing bound c e n m _ nodes h hitems hclose hl hb
    rw [if_neg hopen]
    simp only [↓symbol_ok, bind_ok, pure_ok]
    exact ⟨first, g, j, hfirst, others, e, m, hothers, hclose, f, hf, rfl, rfl, rfl⟩

theorem callOf_complete {expression : Parser Cursor Node} {limit bound : Nat}
    (hx : Complete expression .expression Level.logical.ends limit) (name : String)
    (c d : Cursor) (n m : Nat) (a : List Token) (arguments : List Node)
    (h : Reads (.optionalItems .expression) n a arguments m)
    (hp : c.Passes (.symbol .leftParen :: (a ++ [.symbol .rightParen])) d)
    (hl : a.length ≤ limit) (hb : a.length < bound) :
    callOf bound expression name ⟨c, n⟩ = .ok (.call (m + 1) name arguments, ⟨d, m + 1⟩) := by
  obtain ⟨hc, e, he, hp⟩ := (Cursor.passes_cons ..).1 hp
  rw [callOf, symbol_ok]
  simp only [↓fresh_ok, bind_ok, pure_ok]
  exact ⟨hc, e, he, arguments, d, m,
    commaList_complete (i := .expression) hx (by decide) e d n m a arguments h hp hl hb,
    rfl, rfl, rfl⟩

theorem accessOf_complete {expression : Parser Cursor Node} {limit : Nat}
    (hx : Complete expression .expression Level.logical.ends limit) (name : String)
    (c d : Cursor) (n m : Nat) (i : List Token) (index : Node)
    (h : Reads .expression n i [index] m)
    (hp : c.Passes (.symbol .leftBracket :: (i ++ [.symbol .rightBracket])) d)
    (hl : i.length ≤ limit) :
    accessOf expression name ⟨c, n⟩ =
      .ok (.access (m + 2) (.identifier (m + 1) name) index, ⟨d, m + 2⟩) := by
  obtain ⟨hc, e, he, hp⟩ := (Cursor.passes_cons ..).1 hp
  obtain ⟨f, hindex, hlast⟩ := (Cursor.passes_append ..).1 hp
  obtain ⟨hclose, g, hg, rfl⟩ := (Cursor.passes_cons ..).1 hlast
  have hends : Level.logical.ends f.token := Level.ends_symbol _ hclose (by decide)
  rw [accessOf, symbol_ok]
  simp only [↓symbol_ok, ↓fresh_ok, bind_ok, pure_ok]
  exact ⟨hc, e, he, index, f, m, hx e f n m i index h hindex hends hl, hclose, g, hg, rfl, rfl, rfl⟩

theorem signed_complete {factor : Parser Cursor Node} {limit : Nat}
    (hf : Complete factor .factor Level.factor.ends limit) (op : UnaryOp) (c d : Cursor)
    (n m : Nat) (token : Token) (u : List Token) (node : Node) (h : Reads .factor n u [node] m)
    (hp : c.Passes (token :: u) d) (he : Level.factor.ends d.token) (hl : u.length ≤ limit) :
    signed op factor ⟨c, n⟩ = .ok (.unary (m + 1) op node, ⟨d, m + 1⟩) := by
  obtain ⟨_, e, hn, hp⟩ := (Cursor.passes_cons ..).1 hp
  rw [signed, advance_ok]
  simp only [↓fresh_ok, bind_ok, pure_ok]
  exact ⟨e, hn, node, d, m, hf e d n m u node h hp he hl, rfl, rfl, rfl⟩

theorem factorOver_complete {factor : Parser Cursor Node} {bound : Nat}
    (hf : Complete factor .factor Level.factor.ends bound) :
    Complete (factorOver bound factor) .factor Level.factor.ends (bound + 1) := by
  intro c d n m tokens node h hp he hl
  -- Inside brackets there are at least two tokens less.
  have hx (limit : Nat) (hlimit : limit < bound) :
      Complete (expressionOver bound factor) .expression Level.logical.ends limit :=
    expressionOver_complete (hf.mono (Nat.le_of_lt hlimit)) hlimit
  rw [factorOver, current_ok]
  cases h with
  | operand hl => exact absurd rfl hl
  | binary hop => cases hop
  | @signed _ _ token op u node hs hr =>
    rw [hp.token_eq]
    have hrun := signed_complete hf op c d n _ token u node hr hp he (by simpa using hl)
    obtain ⟨mark, hm, rfl⟩ := Token.sign?_some hs
    cases mark <;> first | (cases hs; exact hrun) | cases hs
  | number =>
    obtain ⟨ht, e, hn, rfl⟩ := (Cursor.passes_cons ..).1 hp
    rw [ht]
    exact (leaf_ok (Node.number · _) ..).2 ⟨hn, rfl, rfl⟩
  | text =>
    obtain ⟨ht, e, hn, rfl⟩ := (Cursor.passes_cons ..).1 hp
    rw [ht]
    exact (leaf_ok (Node.text · _) ..).2 ⟨hn, rfl, rfl⟩
  | trueFactor =>
    obtain ⟨ht, e, hn, rfl⟩ := (Cursor.passes_cons ..).1 hp
    rw [ht]
    exact (leaf_ok (Node.boolean · true) ..).2 ⟨hn, rfl, rfl⟩
  | falseFactor =>
    obtain ⟨ht, e, hn, rfl⟩ := (Cursor.passes_cons ..).1 hp
    rw [ht]
    exact (leaf_ok (Node.boolean · false) ..).2 ⟨hn, rfl, rfl⟩
  | @group _ _ u _ hr =>
    obtain ⟨ht, e, hn, hp⟩ := (Cursor.passes_cons ..).1 hp
    obtain ⟨f, hinner, hlast⟩ := (Cursor.passes_append ..).1 hp
    obtain ⟨hclose, g, hg, rfl⟩ := (Cursor.passes_cons ..).1 hlast
    have hends : Level.logical.ends f.token := Level.ends_symbol _ hclose (by decide)
    have hu : u.length < bound := by simp at hl; omega
    rw [ht]
    simp only [↓advance_ok, ↓symbol_ok, bind_ok, pure_ok]
    exact ⟨e, hn, node, f, m, hx u.length hu e f n m u node hr hinner hends (Nat.le_refl _),
      hclose, g, hg, rfl, rfl, rfl⟩
  | @array _ k a elements hr =>
    obtain ⟨ht, e, hn, hp⟩ := (Cursor.passes_cons ..).1 hp
    have ha : a.length < bound := by simp at hl; omega
    rw [ht]
    change arrayLiteral bound (expressionOver bound factor) ⟨c, n⟩ = _
    rw [arrayLiteral, symbol_ok]
    simp only [↓fresh_ok, bind_ok, pure_ok]
    exact ⟨ht, e, hn, elements, d, k, commaList_complete (i := .expression) (hx a.length ha)
      (by decide) e d n k a elements hr hp (Nat.le_refl _) ha, rfl, rfl, rfl⟩
  | @name _ name =>
    obtain ⟨ht, e, hn, rfl⟩ := (Cursor.passes_cons ..).1 hp
    rw [ht]
    simp only [↓advance_ok, ↓current_ok]
    -- The token after a name alone opens neither a call nor an access.
    have hparen : e.token ≠ .symbol .leftParen := fun h => he.1 (by simp [h])
    have hbracket : e.token ≠ .symbol .leftBracket := fun h => he.1 (by simp [h])
    refine ⟨e, hn, ?_⟩
    simp only [↓fresh_ok, pure_ok, and_self]
  | @call _ k name a arguments hr =>
    obtain ⟨ht, e, hn, hp⟩ := (Cursor.passes_cons ..).1 hp
    have ha : a.length < bound := by simp at hl; omega
    rw [ht]
    simp only [↓advance_ok, ↓current_ok]
    refine ⟨e, hn, ?_⟩
    rw [hp.token_eq]
    exact callOf_complete (hx a.length ha) name e d n k a arguments hr hp (Nat.le_refl _) ha
  | @access _ k name i index hr =>
    obtain ⟨ht, e, hn, hp⟩ := (Cursor.passes_cons ..).1 hp
    have hi : i.length < bound := by simp at hl; omega
    rw [ht]
    simp only [↓advance_ok, ↓current_ok]
    refine ⟨e, hn, ?_⟩
    rw [hp.token_eq]
    exact accessOf_complete (hx i.length hi) name e d n k i index hr hp (Nat.le_refl _)
  | length =>
    obtain ⟨h1, e, hn, h2, f, hf, h3, g, hg, h4, i, hi, rfl⟩ := hp
    rw [h1]
    change lengthCall ⟨c, n⟩ = _
    rw [lengthCall, keyword_ok]
    simp only [↓symbol_ok, ↓name_ok, ↓fresh_ok, pure_ok]
    exact ⟨h1, e, hn, h2, f, hf, _, h3, g, hg, h4, i, hi, rfl, rfl, trivial⟩

theorem factor_complete (bound : Nat) :
    Complete (factor bound) .factor Level.factor.ends bound := by
  induction bound with
  | zero =>
    intro c d n m tokens node h _ _ hl
    obtain ⟨token, rest, rfl, _⟩ := h.begins rfl
    exact absurd hl (Nat.not_succ_le_zero _)
  | succ bound ih => exact factorOver_complete ih

theorem expression_complete {limit bound : Nat} (hb : limit < bound) :
    Complete (expression bound) .expression Level.logical.ends limit :=
  expressionOver_complete ((factor_complete bound).mono (Nat.le_of_lt hb)) hb

end Parser

end LevelScript
