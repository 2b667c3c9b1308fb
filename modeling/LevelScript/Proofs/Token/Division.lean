import LevelScript.Proofs.Token.Agreement

set_option autoImplicit false

namespace LevelScript

/-- The texts that a token is read from. Only a number has more than one. -/
def Token.ReadFrom (token : Token) (lexeme : List Char) : Prop :=
  match token with
  | .number value =>
    -- what may begin a word is not tried as a digit
    (∀ c ∈ lexeme.head?, Text.isWordStart c = false) ∧
      (∀ c ∈ lexeme, Text.isDigit c = true) ∧ Numeral.read lexeme = .ok value
  | token => token.writable = true ∧ lexeme = token.chars

/-- A token, the text that it was read from and the blanks after it. -/
structure Piece where
  token : Token
  lexeme : List Char
  gap : List Char

namespace Piece

def chars (piece : Piece) : List Char :=
  piece.lexeme ++ piece.gap

/-- The piece may stand before `rest`: what comes after the lexeme does not go on with it. -/
structure Fits (piece : Piece) (rest : List Char) : Prop where
  nonempty : piece.lexeme ≠ []
  readFrom : piece.token.ReadFrom piece.lexeme
  blank : ∀ c ∈ piece.gap, isBlank c = true
  ended : ∀ c ∈ (piece.gap ++ rest).head?, piece.token.extendedBy c = false

inductive Fitting : List Piece → Prop where
  | nil : Fitting []
  | cons {piece : Piece} {pieces : List Piece} :
      piece.Fits (pieces.flatMap chars) → Fitting pieces → Fitting (piece :: pieces)

/-- The tokens with the ends of their lexemes in the whole text, and the end of the text. What
stands before the pieces is `passed`. -/
def ends (passed : List Char) : List Piece → List (Token × Nat)
  | [] => [(.endOfInput, passed.length)]
  | piece :: pieces =>
    (piece.token, (passed ++ piece.lexeme).length) :: ends (passed ++ piece.chars) pieces

end Piece

structure Division (source : List Char) where
  lead : List Char
  pieces : List Piece
  text : source = lead ++ pieces.flatMap Piece.chars
  blank : ∀ c ∈ lead, isBlank c = true
  fitting : Piece.Fitting pieces

def Division.tokens {source : List Char} (division : Division source) : List (Token × Nat) :=
  Piece.ends division.lead division.pieces

namespace Token

variable {token : Token}

theorem readFrom_ofWord {word : List Char} (h : Text.isWord word = true) :
    (ofWord (String.ofList word)).ReadFrom word := by
  unfold ofWord
  split
  · next k hk =>
    have hspelling := Keyword.spelling_of_ofSpelling? hk
    exact ⟨rfl, by rw [chars, hspelling, String.toList_ofList]⟩
  · next hnone =>
    refine ⟨?_, (String.toList_ofList).symm⟩
    simp [writable, h, hnone]

theorem extendedBy_ofWord (word : String) (c : Char) :
    (ofWord word).extendedBy c = Text.isWordChar c := by
  unfold ofWord
  split <;> rfl

theorem ReadFrom.not_blank {c : Char} {tail : List Char} (h : token.ReadFrom (c :: tail)) :
    isBlank c = false := by
  have hchars {token : Token} (hw : token.writable = true) (hc : c :: tail = token.chars) :
      isBlank c = false := by
    obtain ⟨d, tail, hd, hblank⟩ := chars_first hw
    rw [hd] at hc
    cases hc
    exact hblank
  cases token with
  | number value =>
    have hdigit := h.2.1 c List.mem_cons_self
    cases hblank : isBlank c with
    | false => rfl
    | true =>
      simp only [isBlank, Bool.or_eq_true, beq_iff_eq] at hblank
      rcases hblank with ((rfl | rfl) | rfl) | rfl <;>
        exact absurd hdigit (by rw [Text.isDigit_ascii (by decide)]; decide)
  | identifier | text | keyword | symbol | endOfInput => exact hchars h.1 h.2

end Token

/-- The sign of equality does not go on with a symbol that was read as the longest one. -/
theorem Symbol.first?_ended {source after : List Char} {mark : Symbol}
    (h : first? source = some mark) (hafter : mark.chars ++ after = source) :
    ∀ c ∈ after.head?, (Token.symbol mark).extendedBy c = false := by
  intro c hc
  obtain ⟨rest, rfl⟩ := List.head?_eq_some_iff.1 hc
  by_contra hextended
  simp only [Token.extendedBy, Bool.not_eq_false, Bool.and_eq_true, decide_eq_true_eq,
    beq_iff_eq] at hextended
  obtain ⟨hmark, rfl⟩ := hextended
  have hlonger : ∀ mark ∈ [less, greater, assign], ∃ s ∈ all, s.chars = mark.chars ++ ['='] := by
    decide
  obtain ⟨s, _, hs⟩ := hlonger mark hmark
  have hleads : s.chars <+: source := ⟨rest, by rw [hs, ← hafter]; simp⟩
  rcases first?_longest h hleads with hshort | rfl
  · rw [hs, List.length_append] at hshort
    exact absurd hshort (Nat.not_lt.2 (Nat.le_add_right _ _))
  · simp at hs

namespace Lexeme

variable {token : Token} {c : Char} {tail rest : List Char}

theorem first_of_readFrom (h : token.ReadFrom (c :: tail))
    (hr : ∀ d ∈ rest.head?, token.extendedBy d = false) :
    first c (tail ++ rest) = .token token (c :: tail).length := by
  cases token with
  | number value =>
    obtain ⟨hstart, hdigits, hread⟩ := h
    have hrun : (tail ++ rest).takeWhile Text.isDigit = tail :=
      takeWhile_append_stop (fun d hd => hdigits d (List.mem_cons_of_mem c hd)) hr
    simp [first, hstart c rfl, hdigits c List.mem_cons_self, hrun, hread]
  | identifier | text | keyword | symbol | endOfInput =>
    rw [first_chars h.1 h.2.symm hr, ← h.2]

theorem readFrom_of_first {size : Nat} (h : first c rest = .token token size) :
    ∃ lexeme after, c :: rest = lexeme ++ after ∧ lexeme.length = size ∧ lexeme ≠ [] ∧
      token.ReadFrom lexeme ∧ ∀ d ∈ after.head?, token.extendedBy d = false := by
  have hstop (p : Char → Bool) : ∀ d ∈ (rest.dropWhile p).head?, p d = false := by
    intro d hd
    simpa [Option.mem_def.1 hd] using List.head?_dropWhile_not p rest
  have hsplit (p : Char → Bool) : c :: rest = (c :: rest.takeWhile p) ++ rest.dropWhile p := by
    rw [List.cons_append, List.takeWhile_append_dropWhile]
  unfold first at h
  split at h
  · next hstart =>
    cases h
    refine ⟨_, _, hsplit Text.isWordChar, rfl, List.cons_ne_nil _ _, Token.readFrom_ofWord ?_, ?_⟩
    · simp [Text.isWord, hstart]
    · intro d hd
      rw [Token.extendedBy_ofWord]
      exact hstop _ d hd
  next hstart =>
  split at h
  · next hdigit =>
    dsimp only at h
    split at h
    · next value hread =>
      cases h
      refine ⟨_, _, hsplit Text.isDigit, rfl, List.cons_ne_nil _ _, ⟨?_, ?_, hread⟩, hstop _⟩
      · rintro d ⟨⟩
        simpa using hstart
      · exact List.forall_mem_cons.2 ⟨hdigit, fun d hd => List.mem_takeWhile_imp hd⟩
    · cases h
  split at h
  · next hquote =>
    dsimp only at h
    split at h
    · next hclosed =>
      cases h
      have hafter : rest.dropWhile (· ≠ Text.doubleQuote) ≠ [] := by
        intro hnil
        have hlength := congrArg List.length (List.takeWhile_append_dropWhile
          (p := (· ≠ Text.doubleQuote)) (l := rest))
        rw [hnil, List.append_nil] at hlength
        omega
      obtain ⟨d, after, hd⟩ := List.exists_cons_of_ne_nil hafter
      have hend : d = Text.doubleQuote := by
        simpa using hstop (· ≠ Text.doubleQuote) d (by rw [hd]; rfl)
      refine ⟨Text.doubleQuote :: (rest.takeWhile (· ≠ Text.doubleQuote) ++ [Text.doubleQuote]),
        after, ?_, by simp, List.cons_ne_nil _ _, ⟨?_, ?_⟩, fun _ _ => rfl⟩
      · rw [hsplit (· ≠ Text.doubleQuote), hd, hend, hquote]
        simp
      · refine decide_eq_true fun hmem => ?_
        rw [String.toList_ofList] at hmem
        simpa using List.mem_takeWhile_imp hmem
      · simp [Token.chars]
    · cases h
  · split at h
    · next mark hmark =>
      cases h
      obtain ⟨after, hafter⟩ := Symbol.first?_leads hmark
      refine ⟨mark.chars, after, hafter.symm, rfl, ?_, ⟨rfl, rfl⟩, Symbol.first?_ended hmark hafter⟩
      cases mark <;> exact List.cons_ne_nil _ _
    · cases h

end Lexeme

namespace TokenStream

theorem scan_blanks (position : Nat) {lead : List Char} (hlead : ∀ c ∈ lead, isBlank c = true)
    (rest : List Char) : scan position (lead ++ rest) = scan (position + lead.length) rest := by
  induction lead generalizing position with
  | nil => rfl
  | cons c lead ih =>
    rw [List.cons_append, scan_blank position (hlead c List.mem_cons_self),
      ih (position + 1) fun d hd => hlead d (List.mem_cons_of_mem c hd), List.length_cons,
      Nat.add_assoc, Nat.add_comm 1]

theorem scan_piece (position : Nat) {piece : Piece} {rest : List Char} (h : piece.Fits rest) :
    scan position (piece.chars ++ rest) = .next piece.token (position + piece.lexeme.length)
      (scan (position + piece.chars.length) rest) := by
  obtain ⟨c, tail, hlexeme⟩ := List.exists_cons_of_ne_nil h.nonempty
  have hread := h.readFrom
  rw [hlexeme] at hread
  have hfirst := Lexeme.first_of_readFrom hread h.ended
  rw [Piece.chars, List.append_assoc, hlexeme, List.cons_append,
    scan_token hread.not_blank hfirst, List.length_cons, Nat.add_sub_cancel, List.drop_left,
    scan_blanks _ h.blank, List.length_append, Nat.add_assoc]
  rfl

theorem scan_fitting {pieces : List Piece} (h : Piece.Fitting pieces) (passed : List Char) :
    (scan passed.length (pieces.flatMap Piece.chars)).fault? = none ∧
      (scan passed.length (pieces.flatMap Piece.chars)).tokens = Piece.ends passed pieces := by
  induction h generalizing passed with
  | nil =>
    rw [List.flatMap_nil, scan]
    exact ⟨rfl, rfl⟩
  | @cons piece pieces hfits _ ih =>
    obtain ⟨hfault, htokens⟩ := ih (passed ++ piece.chars)
    rw [List.flatMap_cons, scan_piece _ hfits, ← List.length_append, ← List.length_append]
    exact ⟨hfault, congrArg (_ :: ·) htokens⟩

theorem scan_division {source : List Char} (division : Division source) :
    (scan 0 source).fault? = none ∧ (scan 0 source).tokens = division.tokens := by
  obtain ⟨lead, pieces, rfl, hlead, hfitting⟩ := division
  rw [scan_blanks 0 hlead, Nat.zero_add]
  exact scan_fitting hfitting lead

theorem scan_divided (position : Nat) (source : List Char)
    (h : (scan position source).fault? = none) : Nonempty (Division source) := by
  fun_induction scan position source with
  | case1 position => exact ⟨⟨[], [], rfl, List.forall_mem_nil _, .nil⟩⟩
  | case2 position c rest hblank ih =>
    obtain ⟨d⟩ := ih h
    exact ⟨⟨c :: d.lead, d.pieces, congrArg (c :: ·) d.text,
      List.forall_mem_cons.2 ⟨hblank, d.blank⟩, d.fitting⟩⟩
  | case3 position c rest hblank token size hfirst ih =>
    obtain ⟨⟨lead, pieces, htext, hlead, hfitting⟩⟩ := ih h
    obtain ⟨lexeme, after, hsource, rfl, hne, hread, hended⟩ := Lexeme.readFrom_of_first hfirst
    have hafter : rest.drop (lexeme.length - 1) = after := by
      obtain ⟨b, tail, rfl⟩ := List.exists_cons_of_ne_nil hne
      cases hsource
      exact List.drop_left
    rw [hafter] at htext
    subst htext
    refine ⟨⟨[], ⟨token, lexeme, lead⟩ :: pieces, ?_, List.forall_mem_nil _,
      .cons ⟨hne, hread, hlead, hended⟩ hfitting⟩⟩
    rw [hsource, List.flatMap_cons, Piece.chars, List.append_assoc]
    rfl
  | case4 => cases h

end TokenStream

theorem Piece.getLast?_ends (passed : List Char) (pieces : List Piece) :
    (ends passed pieces).getLast? =
      some (.endOfInput, (passed ++ pieces.flatMap chars).length) := by
  induction pieces generalizing passed with
  | nil => simp [ends]
  | cons piece pieces ih =>
    rw [ends, List.getLast?_cons, ih, List.flatMap_cons, List.append_assoc]
    rfl

/-- A source can be read to its end exactly if it can be divided into lexemes and blanks. Its tokens
are those of the division, each with the end of its lexeme, and then the end of the source. -/
theorem source_divided (source : String) :
    ((TokenStream.ofSource source).fault? = none ↔ Nonempty (Division source.toList)) ∧
    ∀ division : Division source.toList,
      (TokenStream.ofSource source).tokens = division.tokens ∧
      division.tokens.getLast? = some (.endOfInput, source.length) := by
  have hscan (division : Division source.toList) := TokenStream.scan_division division
  refine ⟨⟨TokenStream.scan_divided 0 source.toList, fun ⟨division⟩ => (hscan division).1⟩, ?_⟩
  intro division
  refine ⟨(hscan division).2, ?_⟩
  rw [Division.tokens, Piece.getLast?_ends, ← division.text, String.length_toList]

/-- The zeros of a numeral count for its end, though its number does not show them. -/
theorem padded_numeral_divided : (TokenStream.ofSource " a<=07\n").tokens =
    [(.identifier "a", 2), (.symbol .atMost, 4), (.number 7, 6), (.endOfInput, 7)] := by
  have hnumber : Piece.Fits ⟨.number 7, ['0', '7'], ['\n']⟩ [] := by
    refine ⟨List.cons_ne_nil _ _, ⟨?_, ?_, rfl⟩, List.forall_mem_singleton.2 rfl, ?_⟩
    · rintro c ⟨⟩
      exact Text.isWordStart_ascii (by decide)
    · exact List.forall_mem_cons.2 ⟨by decide, List.forall_mem_singleton.2 (by decide)⟩
    · rintro c ⟨⟩
      exact Token.extendedBy_blank _ rfl
  have hsymbol : Piece.Fits ⟨.symbol .atMost, ['<', '='], []⟩ ['0', '7', '\n'] :=
    ⟨List.cons_ne_nil _ _, ⟨rfl, rfl⟩, List.forall_mem_nil _, fun _ _ => rfl⟩
  have hname : Piece.Fits ⟨.identifier "a", ['a'], []⟩ ['<', '=', '0', '7', '\n'] := by
    refine ⟨List.cons_ne_nil _ _, ⟨by decide, rfl⟩, List.forall_mem_nil _, ?_⟩
    rintro c ⟨⟩
    exact Text.isWordChar_ascii (by decide)
  exact ((source_divided " a<=07\n").2 ⟨[' '], _, rfl, List.forall_mem_singleton.2 rfl,
    .cons hname (.cons hsymbol (.cons hnumber .nil))⟩).1

end LevelScript
