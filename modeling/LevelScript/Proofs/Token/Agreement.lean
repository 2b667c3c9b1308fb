import LevelScript.Proofs.Checker.Feed
import LevelScript.Proofs.Checker.Numeral
import LevelScript.Proofs.Checker.Steps
import LevelScript.Proofs.Parser.Language
import LevelScript.Proofs.Text.Comment

set_option autoImplicit false

/-!
# Two readings of one text

The bytes of a text are read as a feed of lexemes with its comments in it, its characters as a
stream of tokens once the comments are removed. On texts that both readings are made for they agree:
lexeme by lexeme, in what is written, and in whether the text can be read to its end.
-/

namespace LevelScript

open Checker (Feed)
open Checker.Pattern (byte)

/-- A lexeme and a token are of one kind and have one name, text or number; of numbers only those of
31 bits are kept by lexemes. -/
def Checker.Lexeme.Writes (lexeme : Checker.Lexeme) (token : Token) : Prop :=
  lexeme.terminal = token.terminal ∧
    match token with
    | .identifier name => lexeme.text = Text.encodeUtf8 name
    | .text value => Checker.Lexeme.content lexeme.text = Text.encodeUtf8 value
    | .number value => value < Nat.pow 2 31 → Checker.Lexeme.number lexeme.text = value
    | _ => True

/-- A byte that begins no lexeme, if the reading ends at one. -/
def Checker.Feed.invalid? : Feed → Option UInt8
  | .finish => none
  | .invalid b => some b
  | .next _ rest => rest.invalid?

/-- A feed and a stream that go on together and end in the same way. -/
inductive Agrees : Feed → TokenStream → Prop where
  | finish (position : Nat) : Agrees .finish (.finish position)
  | broken (b : UInt8) (cause : LexFault) (position : Nat) :
      Agrees (.invalid b) (.broken cause position)
  | next {lexeme : Checker.Lexeme} {token : Token} {feed : Feed} {stream : TokenStream}
      (position : Nat) :
      lexeme.Writes token → Agrees feed stream →
      Agrees (.next lexeme feed) (.next token position stream)

namespace Agrees

variable {feed : Feed} {stream : TokenStream}

theorem invalid?_iff (h : Agrees feed stream) : feed.invalid? = none ↔ stream.fault? = none := by
  induction h with
  | finish position => exact ⟨fun _ => rfl, fun _ => rfl⟩
  | broken b cause position => exact ⟨nofun, nofun⟩
  | next position _ _ ih => exact ih

theorem writes (h : Agrees feed stream) :
    List.Forall₂ Checker.Lexeme.Writes feed.lexemes stream.words := by
  induction h with
  | finish position => exact .nil
  | broken b cause position => exact .nil
  | next position hwrites _ ih => exact .cons hwrites ih

end Agrees

theorem Checker.Lexeme.Writes.terminals {lexemes : List Checker.Lexeme} {tokens : List Token}
    (h : List.Forall₂ Checker.Lexeme.Writes lexemes tokens) :
    lexemes.map Checker.Lexeme.terminal = tokens.map Token.terminal := by
  induction h with
  | nil => rfl
  | cons hwrites _ ih => rw [List.map_cons, List.map_cons, hwrites.1, ih]

namespace Numeral

variable {digits : List Char}

theorem decimal_map_byte (h : ∀ c ∈ digits, c.isDigit = true) :
    Checker.Lexeme.decimal (digits.map byte) = value digits := by
  rw [Checker.Lexeme.decimal_eq_foldl, List.foldl_map, value]
  refine List.foldl_ext _ _ _ fun n c hc => ?_
  have hdigit := h c hc
  have hrange := (Text.isDigit_iff_toNat c).1 hdigit
  have hbyte : (byte c).toNat = c.toNat := by
    rw [byte, Nat.toUInt8, UInt8.toNat_ofNat']
    omega
  rw [Text.decimalValue?_ascii (by omega), if_pos hdigit, hbyte]
  rfl

theorem number_map_byte (h : ∀ c ∈ digits, c.isDigit = true)
    (hvalue : value digits < Nat.pow 2 31) :
    Checker.Lexeme.number (digits.map byte) = value digits := by
  have hdigits : ∀ b ∈ digits.map byte, Checker.Pattern.isDigit b = true := by
    refine List.forall_mem_map.2 fun c hc => ?_
    have hrange := (Text.isDigit_iff_toNat c).1 (h c hc)
    rw [Checker.Pattern.isDigit_byte (by omega), h c hc]
  rw [Checker.Lexeme.number_eq hdigits, decimal_map_byte h]
  exact (Checker.Lexeme.toInt_low_eq_iff _).2 hvalue

theorem read_digits (h : ∀ c ∈ digits, c.isDigit = true) (hlength : digits.length ≤ digitLimit) :
    read digits = .ok (value digits) := by
  have hdecimals : digits.takeWhile (fun c => (Text.decimalValue? c).isSome) = digits := by
    rw [List.takeWhile_eq_self_iff]
    intro c hc
    have hrange := (Text.isDigit_iff_toNat c).1 (h c hc)
    rw [Text.decimalValue?_ascii (by omega), if_pos (h c hc)]
    rfl
  simp only [read, hdecimals]
  rw [if_neg (by omega), if_neg (by omega)]

end Numeral

/-- Texts that both readings are made for: ASCII without null characters, backslashes and `/*`, and
with no more digits in a row than can be read. -/
structure Text.Common (source : List Char) : Prop where
  ascii : Text.Ascii source
  noNull : '\x00' ∉ source
  noBackslash : '\\' ∉ source
  noBlock : ¬ ['/', '*'] <:+: source
  digits : ∀ run, run <:+: source → (∀ c ∈ run, c.isDigit = true) → run.length ≤ Numeral.digitLimit

theorem Text.Common.suffix {source rest : List Char} (h : Text.Common source)
    (hrest : rest <:+ source) : Text.Common rest where
  ascii c hc := h.ascii c (hrest.subset hc)
  noNull hc := h.noNull (hrest.subset hc)
  noBackslash hc := h.noBackslash (hrest.subset hc)
  noBlock hinside := h.noBlock (hinside.trans hrest.isInfix)
  digits run hrun := h.digits run (hrun.trans hrest.isInfix)

theorem Text.Common.tail {c : Char} {rest : List Char} (h : Text.Common (c :: rest)) :
    Text.Common rest :=
  h.suffix (List.suffix_cons c rest)

namespace Symbol

theorem chars_cases (s : Symbol) :
    (∃ c, s.chars = [c]) ∨ ∃ c d, d ∈ ['&', '|', '='] ∧ s.chars = [c, d] := by
  cases s <;> first
    | exact .inl ⟨_, rfl⟩
    | exact .inr ⟨_, _, by decide, rfl⟩

theorem first?_congr {c : Char} {rest other : List Char}
    (h : ∀ d ∈ ['&', '|', '='], rest.head? = some d ↔ other.head? = some d) :
    first? (c :: rest) = first? (c :: other) := by
  have hsecond {d : Char} (source : List Char) :
      [d].isPrefixOf source = decide (source.head? = some d) := by
    cases source with
    | nil => rfl
    | cons e source =>
      by_cases he : e = d
      · simp [List.isPrefixOf, he]
      · simp [List.isPrefixOf, he, Ne.symm he]
  have hsame : (fun s : Symbol => s.chars.isPrefixOf (c :: rest)) =
      fun s => s.chars.isPrefixOf (c :: other) := by
    funext s
    rcases s.chars_cases with ⟨e, hs⟩ | ⟨e, d, hd, hs⟩
    · simp [hs, List.isPrefixOf]
    · have hiff := h d hd
      rw [hs, List.isPrefixOf_cons_cons, List.isPrefixOf_cons_cons, hsecond, hsecond]
      simp only [hiff]
  rw [first?, hsame, first?]

end Symbol

namespace TokenStream

variable {c : Char} {rest : List Char}

theorem scan_token {token : Token} {size : Nat} (hblank : isBlank c = false)
    (h : Lexeme.first c rest = .token token size) (position : Nat) :
    scan position (c :: rest) =
      .next token (position + size) (scan (position + size) (rest.drop (size - 1))) := by
  rw [scan]
  simp [hblank, h]

theorem scan_fault {cause : LexFault} {size : Nat} (hblank : isBlank c = false)
    (h : Lexeme.first c rest = .fault cause size) (position : Nat) :
    scan position (c :: rest) = .broken cause (position + size) := by
  rw [scan]
  simp [hblank, h]

end TokenStream

/-- What both readings do at the beginning of a text: they take the same lexeme and stand before the
same rest, or neither of them can go on. -/
inductive Text.Together (source : List Char) : Prop where
  | next {lexeme : Checker.Lexeme} {token : Token} {rest : List Char} {size : Nat} :
      lexeme.Writes token → rest <:+ source → rest.length < source.length →
      Feed.ofBytes (source.map byte) = .next lexeme (Feed.ofBytes (rest.map byte)) →
      (∀ position, TokenStream.scan position (Text.dropLineComments false source) =
        .next token (position + size)
          (TokenStream.scan (position + size) (Text.dropLineComments false rest))) →
      Text.Together source
  | broken {b : UInt8} {cause : LexFault} {size : Nat} :
      Feed.ofBytes (source.map byte) = .invalid b →
      (∀ position, TokenStream.scan position (Text.dropLineComments false source) =
        .broken cause (position + size)) →
      Text.Together source

namespace Text

variable {c : Char} {rest : List Char}

theorem together_of_token {lexeme : Checker.Lexeme} {token : Token} {after : List Char} {size : Nat}
    (hcomment : ¬ ['/', '/'] <+: c :: rest) (hblank : isBlank c = false)
    (hfirst : Lexeme.first c (dropLineComments false rest) = .token token size)
    (hwrites : lexeme.Writes token) (hafter : after <:+ rest)
    (hfeed : Feed.ofBytes ((c :: rest).map byte) = .next lexeme (Feed.ofBytes (after.map byte)))
    (hdrop : (dropLineComments false rest).drop (size - 1) = dropLineComments false after) :
    Together (c :: rest) := by
  have hlength : after.length < (c :: rest).length := Nat.lt_succ_of_le hafter.length_le
  have hscan (position : Nat) : TokenStream.scan position (dropLineComments false (c :: rest)) =
      .next token (position + size)
        (TokenStream.scan (position + size) (dropLineComments false after)) := by
    rw [dropLineComments_cons hcomment, TokenStream.scan_token hblank hfirst, hdrop]
  exact .next hwrites (hafter.trans (List.suffix_cons c rest)) hlength hfeed hscan

theorem together_of_fault {b : UInt8} {cause : LexFault} {size : Nat}
    (hcomment : ¬ ['/', '/'] <+: c :: rest) (hblank : isBlank c = false)
    (hfirst : Lexeme.first c (dropLineComments false rest) = .fault cause size)
    (hfeed : Feed.ofBytes ((c :: rest).map byte) = .invalid b) : Together (c :: rest) := by
  have hscan (position : Nat) : TokenStream.scan position (dropLineComments false (c :: rest)) =
      .broken cause (position + size) := by
    rw [dropLineComments_cons hcomment, TokenStream.scan_fault hblank hfirst]
  exact .broken hfeed hscan

theorem together_word (h : Common (c :: rest)) (hcomment : ¬ ['/', '/'] <+: c :: rest)
    (hblank : isBlank c = false) (hc : c.isAlpha = true) : Together (c :: rest) := by
  have hascii := h.ascii
  have hstart : isWordStart c = true := by rw [isWordStart_ascii hascii.head, hc]; rfl
  have hstop : isWordChar '/' = false ∧ isWordChar '\n' = false := by
    rw [isWordChar_ascii (by decide), isWordChar_ascii (by decide)]
    decide
  obtain ⟨htake, hdrop⟩ := takeWhile_dropLineComments hstop.1 hstop.2 rest
  have hfirst : Lexeme.first c (dropLineComments false rest) =
      .token (.ofWord (String.ofList (c :: rest.takeWhile isWordChar)))
        (((dropLineComments false rest).takeWhile isWordChar).length + 1) := by
    simp [Lexeme.first, hstart, htake]
  refine together_of_token hcomment hblank hfirst ⟨rfl, ?_⟩ (List.dropWhile_suffix _)
    (Feed.ofBytes_word hascii hc) ?_
  · have hword : Ascii (c :: rest.takeWhile isWordChar) := by
      intro d hd
      rcases List.mem_cons.1 hd with rfl | hd
      · exact hascii.head
      · exact hascii.tail d ((List.takeWhile_subset _) hd)
    unfold Token.ofWord
    cases Keyword.ofSpelling? (String.ofList (c :: rest.takeWhile isWordChar)) with
    | some k => trivial
    | none => exact (encodeUtf8_ofList hword).symm
  · rw [Nat.add_sub_cancel, Checker.drop_length_takeWhile, hdrop]

theorem together_number (h : Common (c :: rest)) (hcomment : ¬ ['/', '/'] <+: c :: rest)
    (hblank : isBlank c = false) (hc : c.isDigit = true) : Together (c :: rest) := by
  have hascii := h.ascii
  have hstart : isWordStart c = false := by
    have hunderscore : (c == '_') = false := by
      rw [beq_eq_false_iff_ne]
      rintro rfl
      cases hc
    rw [isWordStart_ascii hascii.head, digit_not_alpha hc, hunderscore]
    rfl
  have hdigit : isDigit c = true := by rw [isDigit_ascii hascii.head, hc]
  have hstop : isDigit '/' = false ∧ isDigit '\n' = false := by
    rw [isDigit_ascii (by decide), isDigit_ascii (by decide)]
    decide
  obtain ⟨htake, hdrop⟩ := takeWhile_dropLineComments hstop.1 hstop.2 rest
  have hdigits : ∀ d ∈ c :: rest.takeWhile isDigit, d.isDigit = true := by
    intro d hd
    rcases List.mem_cons.1 hd with rfl | hd
    · exact hc
    · have hmem : d ∈ rest := (List.takeWhile_subset _) hd
      rw [← isDigit_ascii (hascii.tail d hmem)]
      exact List.mem_takeWhile_imp hd
  have hrun : (c :: rest.takeWhile isDigit).length ≤ Numeral.digitLimit := by
    refine h.digits _ ?_ hdigits
    exact (List.prefix_cons_inj c |>.2 (List.takeWhile_prefix _)).isInfix
  have hfirst : Lexeme.first c (dropLineComments false rest) =
      .token (.number (Numeral.value (c :: rest.takeWhile isDigit)))
        (((dropLineComments false rest).takeWhile isDigit).length + 1) := by
    simp [Lexeme.first, hstart, hdigit, htake, Numeral.read_digits hdigits hrun]
  refine together_of_token hcomment hblank hfirst ⟨rfl, ?_⟩ (List.dropWhile_suffix _)
    (Feed.ofBytes_number hascii hc) ?_
  · exact Numeral.number_map_byte hdigits
  · rw [Nat.add_sub_cancel, Checker.drop_length_takeWhile, hdrop]

theorem content_quoted {content : List Char} (hascii : Ascii content) (hnull : '\x00' ∉ content) :
    Checker.Lexeme.content ((doubleQuote :: (content ++ [doubleQuote])).map byte) =
      content.map byte := by
  have hshown : Checker.Lexeme.shown ((content ++ [doubleQuote]).map byte) =
      (content ++ [doubleQuote]).map byte := by
    rw [Checker.Lexeme.shown, List.takeWhile_eq_self_iff]
    intro b hb
    obtain ⟨d, hd, rfl⟩ := List.mem_map.1 hb
    simp only [ne_eq, decide_eq_true_eq]
    intro hzero
    rcases List.mem_append.1 hd with hd | hd
    · have hd' : d = '\x00' := Checker.Pattern.byte_inj (hascii d hd) (by decide) hzero
      exact hnull (hd' ▸ hd)
    · rw [List.mem_singleton.1 hd] at hzero
      cases hzero
  rw [Checker.Lexeme.content, List.map_cons, List.drop_succ_cons, List.drop_zero, hshown,
    List.map_append, List.map_singleton, List.dropLast_concat]

theorem together_text {content after : List Char}
    (h : Common (doubleQuote :: (content ++ doubleQuote :: after)))
    (hquote : doubleQuote ∉ content) (hslashes : ¬ ['/', '/'] <:+: content) :
    Together (doubleQuote :: (content ++ doubleQuote :: after)) := by
  have hcontent : content ⊆ content ++ doubleQuote :: after := List.subset_append_left _ _
  have hascii : Ascii content := fun d hd => h.ascii.tail d (hcontent hd)
  have hbackslash : '\\' ∉ content := fun hd => h.tail.noBackslash (hcontent hd)
  have hnull : '\x00' ∉ content := fun hd => h.tail.noNull (hcontent hd)
  have hleft : dropLineComments false (content ++ doubleQuote :: after) =
      content ++ doubleQuote :: dropLineComments false after :=
    dropLineComments_append (by decide) hslashes
  have hfirst : Lexeme.first doubleQuote (dropLineComments false (content ++ doubleQuote :: after)) =
      .token (.text (String.ofList content)) (content.length + 2) := by
    have htext := Lexeme.first_text (String.ofList content) (dropLineComments false after)
    rw [String.toList_ofList] at htext
    rw [hleft]
    exact htext hquote
  have hcomment : ¬ ['/', '/'] <+: doubleQuote :: (content ++ doubleQuote :: after) := by
    intro hcomment
    obtain ⟨_, hslash, _⟩ := exists_of_slashes hcomment
    cases hslash
  refine together_of_token hcomment rfl hfirst ⟨rfl, ?_⟩ ?_
    (Feed.ofBytes_text hascii hquote hbackslash) ?_
  · exact (content_quoted hascii hnull).trans (encodeUtf8_ofList hascii).symm
  · exact (List.suffix_cons doubleQuote after).trans (List.suffix_append content _)
  · have hlength : content.length + 2 - 1 = (content ++ [doubleQuote]).length := by simp
    have hsplit : content ++ doubleQuote :: dropLineComments false after =
        (content ++ [doubleQuote]) ++ dropLineComments false after := by simp
    rw [hleft, hlength, hsplit, List.drop_left]

theorem together_unclosed (h : Common (doubleQuote :: rest)) (hquote : doubleQuote ∉ rest) :
    Together (doubleQuote :: rest) := by
  have hleft : doubleQuote ∉ dropLineComments false rest :=
    fun hd => hquote (dropLineComments_subset false rest _ hd)
  have hall : (dropLineComments false rest).takeWhile (· ≠ doubleQuote) =
      dropLineComments false rest := by
    rw [List.takeWhile_eq_self_iff]
    intro d hd
    simp only [ne_eq, decide_eq_true_eq]
    rintro rfl
    exact hleft hd
  have hstart : isWordStart doubleQuote = false ∧ isDigit doubleQuote = false := by
    rw [isWordStart_ascii (by decide), isDigit_ascii (by decide)]
    decide
  have hfirst : Lexeme.first doubleQuote (dropLineComments false rest) =
      .fault .unclosedText ((dropLineComments false rest).length + 1) := by
    simp only [Lexeme.first, hstart, hall]
    simp
  have hcomment : ¬ ['/', '/'] <+: doubleQuote :: rest := by
    intro hcomment
    obtain ⟨_, hslash, _⟩ := exists_of_slashes hcomment
    cases hslash
  exact together_of_fault hcomment rfl hfirst
    (Feed.ofBytes_unclosed h.ascii.tail hquote h.tail.noBackslash)

theorem symbol_first?_dropLineComments (c : Char) (rest : List Char) :
    Symbol.first? (c :: dropLineComments false rest) = Symbol.first? (c :: rest) := by
  apply Symbol.first?_congr
  intro d hd
  have hne : d ≠ '\n' ∧ d ≠ '/' := by
    simp only [List.mem_cons, List.not_mem_nil, or_false] at hd
    rcases hd with rfl | rfl | rfl <;> decide
  constructor
  · intro hhead
    rcases head?_dropLineComments hhead with hline | hsame
    · exact absurd hline hne.1
    · exact hsame
  · intro hhead
    cases rest with
    | nil => cases hhead
    | cons e rest =>
      cases hhead
      rw [dropLineComments_cons]
      · rfl
      · intro hslashes
        obtain ⟨_, hslash, _⟩ := exists_of_slashes hslashes
        exact hne.2 hslash

theorem drop_symbol_dropLineComments {mark : Symbol} (h : Symbol.first? (c :: rest) = some mark) :
    (dropLineComments false rest).drop (mark.chars.length - 1) =
      dropLineComments false (rest.drop (mark.chars.length - 1)) := by
  obtain ⟨after, hafter⟩ := Symbol.first?_leads h
  rcases mark.chars_cases with ⟨e, hchars⟩ | ⟨e, d, hd, hchars⟩
  · rw [hchars]
    rfl
  · have hrest : rest = d :: after := by
      rw [hchars, List.cons_append, List.singleton_append, List.cons.injEq] at hafter
      exact hafter.2.symm
    have hslashes : ¬ ['/', '/'] <+: d :: after := by
      intro hslashes
      obtain ⟨_, hslash, _⟩ := exists_of_slashes hslashes
      rw [hslash] at hd
      exact absurd hd (by decide)
    rw [hchars, hrest, dropLineComments_cons hslashes]
    rfl

theorem together_symbol (h : Common (c :: rest)) (hcomment : ¬ ['/', '/'] <+: c :: rest)
    (hopening : Checker.Pattern.Opening.of c = .other) (hunderscore : c ≠ '_') :
    Together (c :: rest) := by
  have hascii := h.ascii
  have hclass : isBlank c = false ∧ c.isAlpha = false ∧ c.isDigit = false ∧ c ≠ doubleQuote := by
    simpa [Checker.Pattern.Opening.of, ite_eq_iff] using hopening
  obtain ⟨hblank, halpha, hnondigit, hnonquote⟩ := hclass
  have hstart : isWordStart c = false := by
    rw [isWordStart_ascii hascii.head, halpha, beq_eq_false_iff_ne.2 hunderscore]
    rfl
  have hdigit : isDigit c = false := by rw [isDigit_ascii hascii.head, hnondigit]
  have hsame := symbol_first?_dropLineComments c rest
  cases hfirst? : Symbol.first? (c :: rest) with
  | some mark =>
    have hfirst : Lexeme.first c (dropLineComments false rest) =
        .token (.symbol mark) mark.chars.length := by
      simp [Lexeme.first, hstart, hdigit, hnonquote, hsame, hfirst?]
    have hlength : mark.chars.length = mark.chars.length - 1 + 1 := by cases mark <;> rfl
    have hfeed := Feed.ofBytes_symbol hascii h.tail.noBackslash hopening hcomment hfirst?
    rw [hlength, List.drop_succ_cons] at hfeed
    exact together_of_token hcomment hblank hfirst ⟨rfl, trivial⟩ (List.drop_suffix _ rest) hfeed
      (drop_symbol_dropLineComments hfirst?)
  | none =>
    have hfirst : Lexeme.first c (dropLineComments false rest) = .fault (.invalidCharacter c) 0 := by
      simp [Lexeme.first, hstart, hdigit, hnonquote, hsame, hfirst?]
    exact together_of_fault hcomment hblank hfirst
      (Feed.ofBytes_other hascii h.tail.noBackslash hopening hfirst?)

/-- Both readings take the same step where neither a comment nor a blank begins. -/
theorem together_of_common (h : Common (c :: rest)) (hcomment : ¬ ['/', '/'] <+: c :: rest)
    (hblank : isBlank c = false) (hunderscore : c ≠ '_')
    (htexts : ∀ content after, c = doubleQuote → rest = content ++ doubleQuote :: after →
      doubleQuote ∉ content → ¬ ['/', '/'] <:+: content) : Together (c :: rest) := by
  by_cases halpha : c.isAlpha = true
  · exact together_word h hcomment hblank halpha
  by_cases hdigit : c.isDigit = true
  · exact together_number h hcomment hblank hdigit
  by_cases hquote : c = doubleQuote
  · subst hquote
    by_cases hclosed : doubleQuote ∈ rest
    · obtain ⟨content, after, hrest, hcontent⟩ := List.eq_append_cons_of_mem hclosed
      have hslashes := htexts content after rfl hrest hcontent
      subst hrest
      exact together_text h hcontent hslashes
    · exact together_unclosed h hclosed
  · have hopening : Checker.Pattern.Opening.of c = .other := by
      simp [Checker.Pattern.Opening.of, hblank, halpha, hdigit, hquote]
    exact together_symbol h hcomment hopening hunderscore

end Text

theorem TokenStream.underscore_mem_words (position : Nat) (rest : List Char) :
    Token.identifier (String.ofList ('_' :: rest.takeWhile Text.isWordChar)) ∈
      (scan position ('_' :: rest)).words := by
  have hkeyword : Keyword.ofSpelling? (String.ofList ('_' :: rest.takeWhile Text.isWordChar)) =
      none := by
    cases hspelling : Keyword.ofSpelling? (String.ofList ('_' :: rest.takeWhile Text.isWordChar)) with
    | none => rfl
    | some k =>
      have hhead := congrArg (fun word => word.toList.head?)
        (Keyword.spelling_of_ofSpelling? hspelling)
      rw [String.toList_ofList] at hhead
      cases k <;> cases hhead
  have hfirst : Lexeme.first '_' rest = .token
      (.identifier (String.ofList ('_' :: rest.takeWhile Text.isWordChar)))
      ((rest.takeWhile Text.isWordChar).length + 1) := by
    have hstart : Text.isWordStart '_' = true := by
      rw [Text.isWordStart_ascii (by decide)]
      decide
    simp only [Lexeme.first, hstart, if_true, Token.ofWord, hkeyword, List.length_cons]
  rw [scan_token (by decide) hfirst]
  exact List.mem_cons_self

theorem agrees_of_common {source : List Char} (h : Text.Common source) (position : Nat)
    (htexts : ∀ lexeme ∈ (Feed.ofBytes (source.map byte)).lexemes, lexeme.terminal = .text →
      ¬ [byte '/', byte '/'] <:+: lexeme.text)
    (hnames : ∀ name,
      Token.identifier name ∈ (TokenStream.scan position (Text.dropLineComments false source)).words →
      name.toList.head? ≠ some '_') :
    Agrees (Feed.ofBytes (source.map byte))
      (TokenStream.scan position (Text.dropLineComments false source)) := by
  -- the rest after a step is shorter, but it is not the tail
  induction hlength : source.length using Nat.strongRecOn generalizing source position with
  | ind length ih =>
    subst hlength
    cases source with
    | nil =>
      have hstream : TokenStream.scan position (Text.dropLineComments false []) =
          .finish position := by simp [Text.dropLineComments, TokenStream.scan]
      have hfeed : Feed.ofBytes (([] : List Char).map byte) = .finish := by simp [Feed.ofBytes]
      rw [hstream, hfeed]
      exact .finish position
    | cons c rest =>
      by_cases hcomment : ['/', '/'] <+: c :: rest
      · obtain ⟨after, rfl, rfl⟩ := Text.exists_of_slashes hcomment
        have hafter := h.tail.tail
        rw [Feed.ofBytes_comment hafter.ascii hafter.noBackslash] at htexts ⊢
        rw [Text.dropLineComments_slashes] at hnames ⊢
        have hsuffix : after.dropWhile (· ≠ '\n') <:+ after := List.dropWhile_suffix _
        have hle := hsuffix.length_le
        refine ih _ ?_ (hafter.suffix hsuffix) position htexts hnames rfl
        simp only [List.length_cons]
        omega
      by_cases hblank : isBlank c = true
      · rw [Text.dropLineComments_cons hcomment, TokenStream.scan_blank position hblank] at hnames ⊢
        rw [Feed.ofBytes_blank h.ascii hblank] at htexts ⊢
        exact ih _ (by simp) h.tail (position + 1) htexts hnames rfl
      have hunderscore : c ≠ '_' := by
        rintro rfl
        rw [Text.dropLineComments_cons hcomment] at hnames
        have hmem := TokenStream.underscore_mem_words position (Text.dropLineComments false rest)
        exact hnames _ hmem (by rw [String.toList_ofList]; rfl)
      have hcontents (content after : List Char) (hc : c = Text.doubleQuote)
          (hrest : rest = content ++ Text.doubleQuote :: after)
          (hcontent : Text.doubleQuote ∉ content) : ¬ ['/', '/'] <:+: content := by
        subst hc hrest
        have hleft : content ⊆ content ++ Text.doubleQuote :: after := List.subset_append_left _ _
        rw [Feed.ofBytes_text (fun d hd => h.ascii.tail d (hleft hd)) hcontent
          fun hd => h.tail.noBackslash (hleft hd)] at htexts
        intro hslashes
        refine htexts _ List.mem_cons_self rfl ?_
        have hquoted : content <:+: Text.doubleQuote :: (content ++ [Text.doubleQuote]) :=
          ⟨[Text.doubleQuote], [Text.doubleQuote], rfl⟩
        exact (hslashes.trans hquoted).map byte
      have hstep := Text.together_of_common h hcomment (Bool.not_eq_true _ ▸ hblank) hunderscore
        hcontents
      cases hstep with
      | next hwrites hsuffix hless hfeed hscan =>
        rw [hfeed] at htexts ⊢
        rw [hscan] at hnames ⊢
        refine .next _ hwrites (ih _ hless (h.suffix hsuffix) _ ?_ ?_ rfl)
        · exact fun lexeme hlexeme => htexts lexeme (List.mem_cons_of_mem _ hlexeme)
        · exact fun name hname => hnames name (List.mem_cons_of_mem _ hname)
      | broken hfeed hscan =>
        rw [hfeed, hscan]
        exact .broken _ _ _

/-- On an ASCII text without null characters, backslashes and `/*`, with no `//` in a quoted text, no
more than 4300 digits in a row and no name that begins with an underscore, the reading of the bytes
and that of the characters without comments both come to the end of the text or both fail, and up
to there the lexemes and the tokens have the same kinds, names, texts and numbers of 31 bits. -/
theorem readings_agree (source : String) (h : Text.Common source.toList)
    (htexts : ∀ lexeme ∈ (Feed.ofBytes (Text.encodeUtf8 source)).lexemes, lexeme.terminal = .text →
      ¬ [byte '/', byte '/'] <:+: lexeme.text)
    (hnames : ∀ name,
      Token.identifier name ∈ (TokenStream.ofSource (Text.removeComments source)).words →
      name.toList.head? ≠ some '_') :
    let feed := Feed.ofBytes (Text.encodeUtf8 source)
    let stream := TokenStream.ofSource (Text.removeComments source)
    (feed.invalid? = none ↔ stream.fault? = none) ∧
      feed.lexemes.map Checker.Lexeme.terminal = stream.kinds ∧
      List.Forall₂ Checker.Lexeme.Writes feed.lexemes stream.words := by
  intro feed stream
  have hbytes : Text.encodeUtf8 source = source.toList.map byte := by
    rw [← Text.encodeUtf8_ofList h.ascii, String.ofList_toList]
  have hchars : TokenStream.ofSource (Text.removeComments source) =
      TokenStream.scan 0 (Text.dropLineComments false source.toList) := by
    rw [TokenStream.ofSource, Text.removeComments, String.toList_ofList,
      Text.uncommented_eq h.noBlock]
  rw [hbytes] at htexts
  rw [hchars] at hnames
  have hagrees : Agrees feed stream := by
    simp only [feed, stream, hbytes, hchars]
    exact agrees_of_common h 0 htexts hnames
  exact ⟨hagrees.invalid?_iff, Checker.Lexeme.Writes.terminals hagrees.writes, hagrees.writes⟩

/-- A comment with a quote in it, a text with a slash, and a character that begins nothing: both
readings take the same six lexemes and then fail. -/
theorem commented_readings_agree :
    let source := "say(\"a/b\"); // \"x\n7 & 8"
    let feed := Feed.ofBytes (Text.encodeUtf8 source)
    let stream := TokenStream.ofSource (Text.removeComments source)
    Text.Common source.toList ∧ feed.invalid? = some (byte '&') ∧ stream.fault? ≠ none ∧
      feed.lexemes.map Checker.Lexeme.terminal = stream.kinds ∧
      stream.words = [.keyword .say, .symbol .leftParen, .text "a/b", .symbol .rightParen,
        .symbol .semicolon, .number 7] := by
  intro source feed stream
  have hcommon : Text.Common source.toList := by
    constructor
    · decide +kernel
    · decide +kernel
    · decide +kernel
    · decide +kernel
    · intro run hrun _
      have hlength : source.toList.length ≤ Numeral.digitLimit := by decide +kernel
      exact hrun.length_le.trans hlength
  have htexts : ∀ lexeme ∈ feed.lexemes, lexeme.terminal = .text →
      ¬ [byte '/', byte '/'] <:+: lexeme.text := by decide +kernel
  have hwords : stream.words = [.keyword .say, .symbol .leftParen, .text "a/b", .symbol .rightParen,
      .symbol .semicolon, .number 7] := by decide +kernel
  have hnames : ∀ name, Token.identifier name ∈ stream.words → name.toList.head? ≠ some '_' := by
    intro name hname
    simp [hwords] at hname
  have hinvalid : feed.invalid? = some (byte '&') := by decide +kernel
  obtain ⟨hiff, hkinds, _⟩ := readings_agree source hcommon htexts hnames
  refine ⟨hcommon, hinvalid, ?_, hkinds, hwords⟩
  intro hnone
  rw [← hiff, hinvalid] at hnone
  cases hnone

end LevelScript
