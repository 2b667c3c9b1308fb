import LevelScript.Proofs.Parser.Grammar

set_option autoImplicit false

namespace LevelScript

namespace Cursor

def next? (cursor : Cursor) : Option Cursor :=
  match cursor.rest with
  | .finish position => some ⟨.endOfInput, position, .finish position⟩
  | .broken _ _ => none
  | .next token position rest => some ⟨token, position, rest⟩

def Passes : Cursor → List Token → Cursor → Prop
  | c, [], d => c = d
  | c, token :: tokens, d => c.token = token ∧ ∃ e, c.next? = some e ∧ e.Passes tokens d

theorem passes_nil (c d : Cursor) : c.Passes [] d ↔ c = d := Iff.rfl

theorem passes_cons (c d : Cursor) (token : Token) (tokens : List Token) :
    c.Passes (token :: tokens) d ↔
      c.token = token ∧ ∃ e, c.next? = some e ∧ e.Passes tokens d := Iff.rfl

theorem passes_append (c e : Cursor) (u v : List Token) :
    c.Passes (u ++ v) e ↔ ∃ d, c.Passes u d ∧ d.Passes v e := by
  induction u generalizing c with
  | nil => simp [Passes]
  | cons token u ih =>
    simp only [List.cons_append, Passes, ih]
    constructor
    · rintro ⟨ht, f, hf, d, hd, he⟩
      exact ⟨d, ⟨ht, f, hf, hd⟩, he⟩
    · rintro ⟨d, ⟨ht, f, hf, hd⟩, he⟩
      exact ⟨ht, f, hf, d, hd, he⟩

theorem Passes.trans {c d e : Cursor} {u v : List Token} (hu : c.Passes u d)
    (hv : d.Passes v e) : c.Passes (u ++ v) e :=
  (passes_append c e u v).2 ⟨d, hu, hv⟩

theorem Passes.cons {c d e : Cursor} {token : Token} {tokens : List Token} (ht : c.token = token)
    (hn : c.next? = some d) (h : d.Passes tokens e) : c.Passes (token :: tokens) e :=
  ⟨ht, d, hn, h⟩

theorem Passes.last {c d : Cursor} {token : Token} (ht : c.token = token)
    (hn : c.next? = some d) : c.Passes [token] d :=
  ⟨ht, d, hn, rfl⟩

theorem Passes.token_eq {c d : Cursor} {token : Token} {tokens : List Token}
    (h : c.Passes (token :: tokens) d) : c.token = token :=
  h.1

end Cursor

namespace Parser

variable {α β : Type}

theorem bind_ok (p : Parser Cursor α) (f : α → Parser Cursor β) (s : ParseState Cursor)
    (r : β × ParseState Cursor) :
    (p >>= f) s = .ok r ↔ ∃ a c n, p s = .ok (a, ⟨c, n⟩) ∧ f a ⟨c, n⟩ = .ok r := by
  change (p s >>= fun x => f x.1 x.2) = .ok r ↔ _
  cases h : p s with
  | error e => simp [bind, Except.bind]
  | ok x =>
    obtain ⟨a, c, n⟩ := x
    constructor
    · intro hr
      exact ⟨a, c, n, rfl, hr⟩
    · rintro ⟨a', c', n', he, hr⟩
      cases he
      exact hr

theorem pure_ok (a b : α) (c d : Cursor) (n m : Nat) :
    (pure a : Parser Cursor α) ⟨c, n⟩ = .ok (b, ⟨d, m⟩) ↔ a = b ∧ c = d ∧ n = m := by
  change Except.ok (a, (⟨c, n⟩ : ParseState Cursor)) = .ok (b, ⟨d, m⟩) ↔ _
  simp

theorem fail_ok (fault : ParseFault) (s : ParseState Cursor) (r : α × ParseState Cursor) :
    ¬ (fail fault : Parser Cursor α) s = .ok r := by
  intro h
  cases h

theorem ite_ok (P : Prop) [Decidable P] (p q : Parser Cursor α) (s : ParseState Cursor)
    (r : α × ParseState Cursor) :
    (if P then p else q) s = .ok r ↔ P ∧ p s = .ok r ∨ ¬ P ∧ q s = .ok r := by
  split <;> simp [*]

theorem current_ok (f : Token → Parser Cursor β) (c : Cursor) (n : Nat)
    (r : β × ParseState Cursor) :
    (current >>= f) ⟨c, n⟩ = .ok r ↔ f c.token ⟨c, n⟩ = .ok r := Iff.rfl

theorem fresh_ok (f : Nat → Parser Cursor β) (c : Cursor) (n : Nat) (r : β × ParseState Cursor) :
    (fresh >>= f) ⟨c, n⟩ = .ok r ↔ f (n + 1) ⟨c, n + 1⟩ = .ok r := Iff.rfl

theorem advance_ok (f : Unit → Parser Cursor β) (c : Cursor) (n : Nat)
    (r : β × ParseState Cursor) :
    (advance >>= f) ⟨c, n⟩ = .ok r ↔ ∃ d, c.next? = some d ∧ f () ⟨d, n⟩ = .ok r := by
  obtain ⟨token, position, rest⟩ := c
  cases rest with
  | finish p =>
    change f () ⟨⟨.endOfInput, p, .finish p⟩, n⟩ = .ok r ↔ _
    simp [Cursor.next?]
  | broken cause p =>
    change Except.error _ = Except.ok _ ↔ _
    simp [Cursor.next?]
  | next t p q =>
    change f () ⟨⟨t, p, q⟩, n⟩ = .ok r ↔ _
    simp [Cursor.next?]

theorem leaf_ok (build : Nat → α) (node : α) (c d : Cursor) (n m : Nat) :
    (advance >>= fun _ => fresh >>= fun id => pure (build id) : Parser Cursor α) ⟨c, n⟩ =
        .ok (node, ⟨d, m⟩) ↔
      c.next? = some d ∧ build (n + 1) = node ∧ n + 1 = m := by
  simp only [↓advance_ok, ↓fresh_ok, pure_ok]
  constructor
  · rintro ⟨e, he, rfl, rfl, rfl⟩
    exact ⟨he, rfl, rfl⟩
  · rintro ⟨he, rfl, rfl⟩
    exact ⟨d, he, rfl, rfl, rfl⟩

theorem upcoming_ok (f : Token → Parser Cursor β) (c : Cursor) (n : Nat)
    (r : β × ParseState Cursor) :
    (upcoming >>= f) ⟨c, n⟩ = .ok r ↔ ∃ d, c.next? = some d ∧ f d.token ⟨c, n⟩ = .ok r := by
  obtain ⟨token, position, rest⟩ := c
  cases rest with
  | finish p =>
    change f .endOfInput ⟨⟨token, position, .finish p⟩, n⟩ = .ok r ↔ _
    simp [Cursor.next?]
  | broken cause p =>
    change Except.error _ = Except.ok _ ↔ _
    simp [Cursor.next?]
  | next t p q =>
    change f t ⟨⟨token, position, .next t p q⟩, n⟩ = .ok r ↔ _
    simp [Cursor.next?]

theorem fail_bind_ok (fault : ParseFault) (f : α → Parser Cursor β) (s : ParseState Cursor)
    (r : β × ParseState Cursor) : ¬ (fail fault >>= f) s = .ok r := by
  intro h
  cases h

theorem symbol_ok (mark : Symbol) (f : Unit → Parser Cursor β) (c : Cursor) (n : Nat)
    (r : β × ParseState Cursor) :
    (symbol mark >>= f) ⟨c, n⟩ = .ok r ↔
      c.token = .symbol mark ∧ ∃ d, c.next? = some d ∧ f () ⟨d, n⟩ = .ok r := by
  unfold symbol
  rw [bind_assoc, current_ok, ← advance_ok]
  by_cases h : c.token = .symbol mark
  · simp only [h, if_true, true_and]
  · simp only [h, if_false, false_and, iff_false]
    exact fail_bind_ok _ _ _ _

theorem keyword_ok (word : Keyword) (f : Unit → Parser Cursor β) (c : Cursor) (n : Nat)
    (r : β × ParseState Cursor) :
    (keyword word >>= f) ⟨c, n⟩ = .ok r ↔
      c.token = .keyword word ∧ ∃ d, c.next? = some d ∧ f () ⟨d, n⟩ = .ok r := by
  unfold keyword
  rw [bind_assoc, current_ok, ← advance_ok]
  by_cases h : c.token = .keyword word
  · simp only [h, if_true, true_and]
  · simp only [h, if_false, false_and, iff_false]
    exact fail_bind_ok _ _ _ _

theorem name_ok (what : Expectation) (f : String → Parser Cursor β) (c : Cursor) (n : Nat)
    (r : β × ParseState Cursor) :
    (Parser.name what >>= f) ⟨c, n⟩ = .ok r ↔
      ∃ name, c.token = .identifier name ∧ ∃ d, c.next? = some d ∧ f name ⟨d, n⟩ = .ok r := by
  unfold Parser.name
  rw [bind_assoc, current_ok]
  cases c.token with
  | identifier name =>
    simp only [bind_assoc, pure_bind, advance_ok, Token.identifier.injEq, exists_eq_left']
  | _ =>
    simp only [reduceCtorEq, false_and, exists_false, iff_false]
    exact fail_bind_ok _ _ _ _

theorem typeName_ok (what : Expectation) (f : TypeName → Parser Cursor β) (c : Cursor) (n : Nat)
    (r : β × ParseState Cursor) :
    (Parser.typeName what >>= f) ⟨c, n⟩ = .ok r ↔
      ∃ word type, c.token = .keyword word ∧ word.typeName? = some type ∧
        ∃ d, c.next? = some d ∧ f type ⟨d, n⟩ = .ok r := by
  unfold Parser.typeName
  rw [bind_assoc, current_ok]
  cases c.token with
  | keyword word =>
    cases hw : word.typeName? with
    | none =>
      simp only [hw, Token.keyword.injEq]
      constructor
      · intro h
        exact absurd h (fail_bind_ok _ _ _ _)
      · rintro ⟨_, _, rfl, ht, _⟩
        simp [hw] at ht
    | some type =>
      simp only [hw, bind_assoc, pure_bind, advance_ok, Token.keyword.injEq]
      constructor
      · rintro ⟨d, hd, h⟩
        exact ⟨word, type, rfl, hw, d, hd, h⟩
      · rintro ⟨_, _, rfl, ht, h⟩
        rw [hw] at ht
        cases ht
        exact h
  | _ =>
    simp only [reduceCtorEq, false_and, exists_false, iff_false]
    exact fail_bind_ok _ _ _ _

end Parser

end LevelScript
