import LevelScript.Proofs.Parser.Layout

set_option autoImplicit false

namespace LevelScript

namespace Lexer

theorem text_eq_nil_of_ended {position : Nat} {text : List Char} {lexer : Lexer}
    (h : read position text = .ok lexer) (hend : lexer.token = .endOfInput) : lexer.text = [] := by
  induction text generalizing position with
  | nil =>
    cases h
    rfl
  | cons c rest ih =>
    rw [read] at h
    split at h
    · exact ih h
    · split at h
      · next token size hfirst =>
        cases h
        exact absurd (hend ▸ hfirst) (Lexeme.first_ne_end c rest size)
      · cases h

theorem read_of_reaches {source : String} {start lexer : Lexer}
    (hstart : ofSource source = .ok start) (h : Tape.Reaches start lexer) :
    ∃ position text, read position text = .ok lexer := by
  have hread : ∃ position text, read position text = .ok start := ⟨0, source.toList, hstart⟩
  clear hstart
  induction h with
  | here => exact hread
  | further hnext _ ih => exact ih ⟨_, _, hnext⟩

theorem selectNext_of_nil {lexer : Lexer} (h : lexer.text = []) :
    lexer.selectNext = .ok ⟨.endOfInput, lexer.position, []⟩ := by
  rw [selectNext, h, read]

end Lexer

/-- From each place of a lexer on a source every construct is parsed to an end: a bound that is
linear in the number of characters left is never used up, and the result does not depend on it. A
construct other than a program ends at a later token. At the end of the source a step comes to the
end of the input, and there it leaves the lexer where it is. -/
theorem parsing_ends (source : String) (start lexer : Lexer)
    (hstart : Lexer.ofSource source = .ok start) (hlexer : Tape.Reaches start lexer)
    (construct : Construct) (built bound : Nat)
    (hbound : source.length - lexer.position + 1 < bound) :
    construct.parser bound ⟨lexer, built⟩ = construct.parseAt built lexer ∧
      (∀ failure, construct.parseAt built lexer = .error failure → failure.fault ≠ .exhausted) ∧
      (∀ node state, construct.parseAt built lexer = .ok (node, state) →
        Tape.Reaches lexer state.tape ∧
          (construct ≠ .program → state.tape.cursor.left < lexer.cursor.left)) ∧
      (source.length ≤ lexer.position → Parser.advance ⟨lexer, built⟩ =
        .ok ((), ⟨⟨.endOfInput, lexer.position, []⟩, built⟩)) ∧
      (lexer.token = .endOfInput → source.length ≤ lexer.position ∧
        Parser.advance ⟨lexer, built⟩ = .ok ((), ⟨lexer, built⟩)) := by
  obtain ⟨_, _, hread⟩ := Lexer.read_of_reaches hstart hlexer
  have htext := Lexer.text_of_reaches hstart hlexer
  have hleft := lexer.left_cursor_le
  have hlength : lexer.text.length = source.length - lexer.position := by
    rw [htext, List.length_drop, String.length_toList]
  have hrelated : (Lexer.pairing.self lexer).Related lexer lexer :=
    ⟨rfl, .here lexer, lexer.cursor, rfl, Lexer.proper_of_read hread⟩
  have hends : Parser.Ends (Lexer.pairing.self lexer) (fun _ => True) construct.least
      lexer.cursor.left (construct.parser bound) (construct.parser (lexer.text.length + 3)) :=
    construct.ends_parser (by omega) (by omega)
  have hagreed := hends built hrelated (Nat.le_refl _) trivial
  change Parser.Agreed _ _ _ _ (construct.parseAt built lexer) at hagreed
  generalize construct.parser bound ⟨lexer, built⟩ = x at hagreed ⊢
  generalize construct.parseAt built lexer = y at hagreed ⊢
  refine ⟨?_, ?_, ?_, ?_, ?_⟩
  · cases hagreed with
    | parsed hsame _ => rw [hsame.1]
    | failed hsame _ => exact congrArg _ hsame
  · rintro _ rfl
    cases hagreed with
    | failed hsame hfault =>
      cases hsame
      exact hfault
  · rintro node state rfl
    cases hagreed with
    | parsed hsame hpassed =>
      obtain ⟨rfl, hreaches, _⟩ := hsame
      refine ⟨hreaches, fun hconstruct => ?_⟩
      rw [Construct.least_eq_one hconstruct] at hpassed
      exact hpassed
  · intro hposition
    refine Parser.advance_of_ok (Lexer.selectNext_of_nil ?_) built
    rw [← List.length_eq_zero_iff, hlength]
    omega
  · intro hend
    have hnil := Lexer.text_eq_nil_of_ended hread hend
    rw [hnil, List.length_nil] at hlength
    refine ⟨by omega, Parser.advance_of_ok ?_ built⟩
    change lexer.selectNext = .ok lexer
    rw [Lexer.selectNext_of_nil hnil, ← hend, ← hnil]

theorem eq_ok_of_toOption {ε α : Type} {x : Except ε α} {a : α} (h : x.toOption = some a) :
    x = .ok a := by
  cases x with
  | error e => cases h
  | ok b => exact congrArg _ (Option.some.inj h)

/-- The call that begins at the second token of `f(1)` is parsed with a bound of four and ends at a
later token, where the input ends. -/
theorem call_parsing_ends :
    ∃ start lexer node state, Lexer.ofSource "f(1)" = .ok start ∧
      Tape.Reaches start lexer ∧ lexer.token = .symbol .leftParen ∧
      "f(1)".length - lexer.position + 1 < 4 ∧
      (Construct.call "f").parser 4 ⟨lexer, 0⟩ = .ok (node, state) ∧
      state.tape.cursor.left < lexer.cursor.left ∧
      Parser.advance ⟨state.tape, 2⟩ = .ok ((), ⟨state.tape, 2⟩) := by
  have hstart : Lexer.ofSource "f(1)" = .ok ⟨.identifier "f", 1, ['(', '1', ')']⟩ :=
    eq_ok_of_toOption (by decide +kernel)
  have hnext : Tape.next (⟨.identifier "f", 1, ['(', '1', ')']⟩ : Lexer) =
      .ok ⟨.symbol .leftParen, 2, ['1', ')']⟩ :=
    eq_ok_of_toOption (by decide +kernel)
  have hbound : "f(1)".length - 2 + 1 < 4 := by decide
  obtain ⟨node, hparse⟩ : ∃ node, (Construct.call "f").parseAt 0
      (⟨.symbol .leftParen, 2, ['1', ')']⟩ : Lexer) = .ok (node, ⟨⟨.endOfInput, 4, []⟩, 2⟩) := by
    have hstate : (((Construct.call "f").parseAt 0
        (⟨.symbol .leftParen, 2, ['1', ')']⟩ : Lexer)).map Prod.snd).toOption =
          some ⟨⟨.endOfInput, 4, []⟩, 2⟩ := by
      decide +kernel
    generalize (Construct.call "f").parseAt 0 (⟨.symbol .leftParen, 2, ['1', ')']⟩ : Lexer) = x
      at hstate ⊢
    cases x with
    | error failure => cases hstate
    | ok parsed =>
      obtain ⟨node, state⟩ := parsed
      cases hstate
      exact ⟨node, rfl⟩
  have hreaches := Tape.Reaches.further hnext (.here _)
  obtain ⟨hsame, _, hok, _⟩ := parsing_ends _ _ _ hstart hreaches (.call "f") 0 4 hbound
  obtain ⟨hlater, hleft⟩ := hok _ _ hparse
  obtain ⟨_, _, _, _, hend⟩ := parsing_ends _ _ _ hstart (hreaches.trans hlater) (.call "f") 2 4
    (by decide)
  exact ⟨_, _, _, _, hstart, hreaches, rfl, hbound, hsame.trans hparse, hleft nofun, (hend rfl).2⟩

end LevelScript
