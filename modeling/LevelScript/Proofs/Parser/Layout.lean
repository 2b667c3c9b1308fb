import LevelScript.Proofs.Parser.Language

set_option autoImplicit false

namespace LevelScript

namespace TokenStream

def unplaced : TokenStream → TokenStream
  | .finish _ => .finish 0
  | .broken cause _ => .broken cause 0
  | .next token _ rest => .next token 0 rest.unplaced

theorem length_unplaced (stream : TokenStream) : stream.unplaced.length = stream.length := by
  induction stream with
  | finish | broken => rfl
  | next token position rest ih => exact congrArg (· + 1) ih

theorem unplaced_eq_ofTokens {stream : TokenStream} (h : stream.fault? = none) :
    stream.unplaced = ofTokens stream.words := by
  induction stream with
  | finish position => rfl
  | broken cause position => cases h
  | next token position rest ih => exact congrArg (TokenStream.next token 0) (ih h)

end TokenStream

namespace Cursor

def unplaced (cursor : Cursor) : Cursor :=
  ⟨cursor.token, 0, cursor.rest.unplaced⟩

theorem ofStream_alike {stream other : TokenStream} (h : stream.unplaced = other.unplaced) :
    (∃ c d, ofStream stream = .ok c ∧ ofStream other = .ok d ∧ c.unplaced = d.unplaced) ∨
      ∃ cause p q, ofStream stream = .error (cause, p) ∧ ofStream other = .error (cause, q) := by
  cases stream <;> cases other <;> simp_all [TokenStream.unplaced, ofStream, unplaced]

theorem fault?_rest {stream : TokenStream} {cursor : Cursor} (h : ofStream stream = .ok cursor) :
    cursor.rest.fault? = stream.fault? := by
  cases stream with
  | finish | next =>
    cases h
    rfl
  | broken => cases h

def layout : Pairing Cursor Cursor where
  Related c d := c.unplaced = d.unplaced ∧ c.Proper
  left := left
  Same f g := f.fault = g.fault ∧ f.token = g.token
  token_eq := fun ⟨h, _⟩ => (mk.inj h).1
  left_pos := fun _ => left_pos_iff
  same := fun _ ⟨h, _⟩ => ⟨rfl, (mk.inj h).1⟩
  next := by
    rintro c c' d ⟨h, hproper⟩ hnext
    obtain ⟨hproper', hleft⟩ := hproper.next hnext
    rcases ofStream_alike (mk.inj h).2.2 with ⟨_, d', hc, hd, hunplaced⟩ | ⟨_, _, _, hc, _⟩
    · cases hnext.symm.trans hc
      exact ⟨d', hd, ⟨hunplaced, hproper'⟩, hleft⟩
    · cases hnext.symm.trans hc
  next_error := by
    rintro c d cause position ⟨h, _⟩ hnext
    rcases ofStream_alike (mk.inj h).2.2 with ⟨_, _, hc, _⟩ | ⟨_, _, q, hc, hd⟩
    · cases hnext.symm.trans hc
    · cases hnext.symm.trans hc
      exact ⟨q, hd, rfl, (mk.inj h).1⟩

end Cursor

/-- The same tree with the same numbers and the same token after it, or the same fault at the same
token. -/
inductive ParsedAlike {σ τ : Type} [Tape σ] [Tape τ] :
    Except SourceFault (Node × ParseState σ) → Except SourceFault (Node × ParseState τ) → Prop where
  | parsed {node : Node} {s : σ} {t : τ} {built : Nat} : Tape.token s = Tape.token t →
      ParsedAlike (.ok (node, ⟨s, built⟩)) (.ok (node, ⟨t, built⟩))
  | failed {f g : ParseFailure} : f.fault = g.fault → f.token = g.token →
      ParsedAlike (.error (.parsing f)) (.error (.parsing g))

theorem Construct.parseStream_alike (construct : Construct) (built : Nat)
    {stream other : TokenStream} (hstream : stream.fault? = none)
    (hend : .endOfInput ∉ stream.words) (h : stream.unplaced = other.unplaced) :
    ParsedAlike (construct.parseStream built stream) (construct.parseStream built other) := by
  obtain ⟨c, _, hc, _⟩ := Cursor.passes_words stream hstream
  rcases Cursor.ofStream_alike h with ⟨_, d, hc', hd, hcursors⟩ | ⟨_, _, _, hc', _⟩
  · cases hc.symm.trans hc'
    have hrelated : Cursor.layout.Related c d :=
      ⟨hcursors, (Cursor.proper_ofStream hend hc).1⟩
    have hleft : Cursor.layout.left c ≤ c.rest.length + 1 := c.left_le
    have hroom : d.rest.length = c.rest.length := by
      rw [← TokenStream.length_unplaced, ← TokenStream.length_unplaced c.rest,
        (Cursor.mk.inj hcursors).2.2]
    have hagreed := construct.agreed_parseAt built hrelated
      (by change _ < c.rest.length + 3; omega) (by change _ < d.rest.length + 3; omega)
    rw [parseStream, parseStream, hc, hd, parseFrom.eq_def, parseFrom.eq_def]
    dsimp only
    generalize construct.parseAt built c = x at hagreed ⊢
    generalize construct.parseAt built d = y at hagreed ⊢
    cases hagreed with
    | parsed hrelated' _ => exact .parsed (Cursor.mk.inj hrelated'.1).1
    | failed hsame _ => exact .failed hsame.1 hsame.2
  · cases hc.symm.trans hc'

namespace ParsedAlike

variable {σ : Type} [Tape σ] {x : Except SourceFault (Node × ParseState Lexer)}
  {y : Except SourceFault (Node × ParseState σ)}

theorem of_cursor (h : ParsedAlike (x.map fun parsed => (parsed.1, parsed.2.cursor)) y) :
    ParsedAlike x y := by
  cases x with
  | error fault =>
    cases h with
    | failed hfault htoken => exact .failed hfault htoken
  | ok parsed =>
    cases h with
    | parsed htoken => exact .parsed htoken

theorem to_cursor (h : ParsedAlike y (x.map fun parsed => (parsed.1, parsed.2.cursor))) :
    ParsedAlike y x := by
  cases x with
  | error fault =>
    cases h with
    | failed hfault htoken => exact .failed hfault htoken
  | ok parsed =>
    cases h with
    | parsed htoken => exact .parsed htoken

end ParsedAlike

theorem Lexeme.first_size_pos {c : Char} {rest : List Char} {token : Token} {size : Nat}
    (h : Lexeme.first c rest = .token token size) : 0 < size := by
  unfold Lexeme.first at h
  split at h
  · cases h
    exact Nat.succ_pos _
  split at h
  · dsimp only at h
    split at h
    · cases h
      exact Nat.succ_pos _
    · cases h
  split at h
  · dsimp only at h
    split at h
    · cases h
      omega
    · cases h
  · split at h
    · next mark _ =>
      cases h
      cases mark <;> decide
    · cases h

namespace Lexer

theorem text_of_read {source text : List Char} {position : Nat} {lexer : Lexer}
    (htext : text = source.drop position) (h : read position text = .ok lexer) :
    lexer.text = source.drop lexer.position := by
  induction text generalizing position with
  | nil =>
    cases h
    exact htext
  | cons c rest ih =>
    have hrest : rest = source.drop (position + 1) := by
      rw [← List.drop_drop, ← htext, List.drop_one, List.tail_cons]
    rw [read] at h
    split at h
    · exact ih hrest h
    · split at h
      · next token size hfirst =>
        cases h
        obtain ⟨others, rfl⟩ := Nat.exists_eq_add_one.2 (Lexeme.first_size_pos hfirst)
        rw [← List.drop_drop, ← htext, List.drop_succ_cons, Nat.add_sub_cancel]
      · cases h

/-- Wherever a lexer comes to on a source, its position and its text belong together. -/
theorem text_of_reaches {source : String} {start lexer : Lexer}
    (hstart : ofSource source = .ok start) (h : Tape.Reaches start lexer) :
    lexer.text = source.toList.drop lexer.position := by
  have hfirst : start.text = source.toList.drop start.position := text_of_read rfl hstart
  clear hstart
  induction h with
  | here => exact hfirst
  | further hnext _ ih => exact ih (text_of_read hfirst hnext)

theorem exists_read {position : Nat} {text : List Char}
    (h : (TokenStream.scan position text).fault? = none) :
    ∃ lexer, read position text = .ok lexer ∧ lexer.cursor.rest.fault? = none := by
  obtain ⟨c, _, hc, _⟩ := Cursor.passes_words _ h
  have hcursor := map_cursor_read position text
  cases hread : read position text with
  | error fault =>
    rw [hread, hc] at hcursor
    cases hcursor
  | ok lexer =>
    rw [hread] at hcursor
    exact ⟨lexer, rfl, (Cursor.fault?_rest hcursor.symm).trans h⟩

theorem exists_selectNext {start lexer : Lexer} (h : Tape.Reaches start lexer)
    (hfault : start.cursor.rest.fault? = none) : ∃ next, lexer.selectNext = .ok next := by
  induction h with
  | here =>
    obtain ⟨next, hnext, _⟩ := exists_read hfault
    exact ⟨next, hnext⟩
  | further hnext _ ih =>
    obtain ⟨_, hnext', hfault'⟩ := exists_read hfault
    cases hnext'.symm.trans hnext
    exact ih hfault'

end Lexer

end LevelScript
