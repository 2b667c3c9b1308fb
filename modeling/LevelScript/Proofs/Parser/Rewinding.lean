import LevelScript.Proofs.Parser.Correspondence

set_option autoImplicit false

namespace LevelScript

namespace TokenStream

def words : TokenStream → List Token
  | .finish _ => []
  | .broken _ _ => []
  | .next token _ rest => token :: rest.words

theorem length_scan_le (position : Nat) (source : List Char) :
    (scan position source).length ≤ source.length := by
  fun_induction scan position source with
  | case1 => exact Nat.le_refl 0
  | case2 position c rest _ ih => exact Nat.le_succ_of_le ih
  | case3 position c rest _ token size hfirst ih =>
    rw [List.length_drop] at ih
    rw [length, List.length_cons]
    omega
  | case4 => exact Nat.zero_le _

end TokenStream

theorem Token.ofWord_ne_end (word : String) : Token.ofWord word ≠ .endOfInput := by
  unfold Token.ofWord
  split <;> nofun

theorem Lexeme.first_ne_end (c : Char) (rest : List Char) (size : Nat) :
    Lexeme.first c rest ≠ .token .endOfInput size := by
  unfold Lexeme.first
  split
  · simp [Token.ofWord_ne_end]
  split
  · dsimp only
    split <;> nofun
  split
  · dsimp only
    split <;> nofun
  · split <;> nofun

theorem TokenStream.end_notMem_scan (position : Nat) (source : List Char) :
    Token.endOfInput ∉ (scan position source).words := by
  fun_induction scan position source with
  | case1 => simp [words]
  | case2 _ _ _ _ ih => exact ih
  | case3 position c rest _ token size h ih =>
    simp only [words, List.mem_cons, not_or]
    refine ⟨?_, ih⟩
    rintro rfl
    exact Lexeme.first_ne_end c rest size h
  | case4 => simp [words]

namespace Cursor

def left (cursor : Cursor) : Nat :=
  if cursor.token = .endOfInput then 0 else cursor.rest.length + 1

/-- Nothing stands after the end of the input. -/
structure Proper (cursor : Cursor) : Prop where
  ended : cursor.token = .endOfInput → cursor.rest = .finish cursor.position
  rest : .endOfInput ∉ cursor.rest.words

theorem left_le (cursor : Cursor) : cursor.left ≤ cursor.rest.length + 1 := by
  unfold left
  split <;> omega

theorem left_of_ne {cursor : Cursor} (h : cursor.token ≠ .endOfInput) :
    cursor.left = cursor.rest.length + 1 :=
  if_neg h

theorem left_pos_iff {cursor : Cursor} : 0 < cursor.left ↔ cursor.token ≠ .endOfInput := by
  unfold left
  split <;> simp [*]

theorem Proper.ofStream_rest {cursor : Cursor} (h : cursor.Proper)
    (hend : cursor.token = .endOfInput) : ofStream cursor.rest = .ok cursor := by
  rw [h.ended hend, ofStream, ← hend, ← h.ended hend]

theorem proper_ofStream {stream : TokenStream} {cursor : Cursor}
    (hwords : .endOfInput ∉ stream.words) (h : ofStream stream = .ok cursor) :
    cursor.Proper ∧ cursor.left = stream.length := by
  cases stream with
  | finish position =>
    cases h
    exact ⟨⟨fun _ => rfl, hwords⟩, rfl⟩
  | broken cause position => cases h
  | next token position rest =>
    cases h
    rw [TokenStream.words, List.mem_cons, not_or] at hwords
    exact ⟨⟨fun hend => absurd hend.symm hwords.1, hwords.2⟩, left_of_ne (Ne.symm hwords.1)⟩

theorem Proper.next {first second : Cursor} (hfirst : first.Proper)
    (h : ofStream first.rest = .ok second) :
    second.Proper ∧ second.left = first.left - 1 := by
  obtain ⟨hsecond, hleft⟩ := proper_ofStream hfirst.rest h
  refine ⟨hsecond, ?_⟩
  by_cases hend : first.token = .endOfInput
  · cases (hfirst.ofStream_rest hend).symm.trans h
    rw [left, if_pos hend]
  · rw [hleft, left_of_ne hend, Nat.add_sub_cancel]

end Cursor

namespace Lexer

/-- The token of the lexer, with all the tokens that it will read. -/
def cursor (lexer : Lexer) : Cursor :=
  ⟨lexer.token, lexer.position, .scan lexer.position lexer.text⟩

theorem map_cursor_read (position : Nat) (text : List Char) :
    (read position text).map cursor = Cursor.ofStream (.scan position text) := by
  fun_induction TokenStream.scan position text with
  | case1 position => rw [read, Except.map, cursor, TokenStream.scan, Cursor.ofStream]
  | case2 position c rest hblank ih => rw [read, if_pos hblank, ih]
  | case3 position c rest hblank token size hfirst =>
    rw [read, if_neg hblank, hfirst]
    rfl
  | case4 position c rest hblank cause size hfirst =>
    rw [read, if_neg hblank, hfirst]
    rfl

theorem map_cursor_selectNext (lexer : Lexer) :
    lexer.selectNext.map cursor = Cursor.ofStream lexer.cursor.rest :=
  map_cursor_read lexer.position lexer.text

theorem proper_of_read {position : Nat} {text : List Char} {lexer : Lexer}
    (h : read position text = .ok lexer) : lexer.cursor.Proper := by
  have hcursor := map_cursor_read position text
  rw [h] at hcursor
  exact (Cursor.proper_ofStream (TokenStream.end_notMem_scan _ _) hcursor.symm).1

theorem left_cursor_le (lexer : Lexer) : lexer.cursor.left ≤ lexer.text.length + 1 :=
  Nat.le_trans lexer.cursor.left_le
    (Nat.succ_le_succ (TokenStream.length_scan_le lexer.position lexer.text))

def pairing : Pairing Lexer Cursor where
  Related lexer cursor := lexer.cursor = cursor ∧ cursor.Proper
  left lexer := lexer.cursor.left
  Same := Eq
  token_eq := fun ⟨h, _⟩ => h ▸ rfl
  left_pos := fun _ => Cursor.left_pos_iff
  same := fun _ ⟨h, _⟩ => h ▸ rfl
  next := by
    rintro lexer next _ ⟨rfl, hproper⟩ hnext
    have hcursor := map_cursor_selectNext lexer
    rw [show lexer.selectNext = .ok next from hnext] at hcursor
    obtain ⟨hproper', hleft⟩ := hproper.next hcursor.symm
    exact ⟨next.cursor, hcursor.symm, ⟨rfl, hproper'⟩, hleft⟩
  next_error := by
    rintro lexer _ cause position ⟨rfl, _⟩ hnext
    have hcursor := map_cursor_selectNext lexer
    rw [show lexer.selectNext = .error (cause, position) from hnext] at hcursor
    exact ⟨position, hcursor.symm, rfl⟩

end Lexer

def ParseState.cursor (state : ParseState Lexer) : ParseState Cursor :=
  ⟨state.tape.cursor, state.built⟩

namespace Construct

theorem map_cursor_parseAt (construct : Construct) (built : Nat) {lexer : Lexer}
    (hproper : lexer.cursor.Proper) :
    (construct.parseAt built lexer).map (fun parsed => (parsed.1, parsed.2.cursor)) =
      construct.parseAt built lexer.cursor := by
  have hs : Lexer.pairing.left lexer < Tape.room lexer + 3 :=
    Nat.lt_of_le_of_lt lexer.left_cursor_le (by change _ < lexer.text.length + 3; omega)
  have ht : Lexer.pairing.left lexer < Tape.room lexer.cursor + 3 :=
    Nat.lt_of_le_of_lt lexer.cursor.left_le (by change _ < lexer.cursor.rest.length + 3; omega)
  have hrelated : Lexer.pairing.Related lexer lexer.cursor := ⟨rfl, hproper⟩
  have hagreed := construct.agreed_parseAt built hrelated hs ht
  generalize construct.parseAt built lexer = x at hagreed ⊢
  generalize construct.parseAt built lexer.cursor = y at hagreed ⊢
  cases hagreed with
  | parsed hrelated _ =>
    obtain ⟨rfl, _⟩ := hrelated
    rfl
  | failed hsame _ =>
    cases hsame
    rfl

theorem map_cursor_parse (construct : Construct) (built : Nat) (source : String) :
    (construct.parse built source).map (fun parsed => (parsed.1, parsed.2.cursor)) =
      construct.parseStream built (.ofSource source) := by
  rw [parse, parseStream, TokenStream.ofSource, ← Lexer.map_cursor_read]
  cases hread : Lexer.ofSource source with
  | error fault =>
    rw [show Lexer.read 0 source.toList = .error fault from hread]
    rfl
  | ok lexer =>
    rw [show Lexer.read 0 source.toList = .ok lexer from hread]
    dsimp only [parseFrom, Except.map]
    rw [← construct.map_cursor_parseAt built (Lexer.proper_of_read hread)]
    cases construct.parseAt built lexer <;> rfl

end Construct

end LevelScript
