import LevelScript.Token.Lexer
import Mathlib.Data.List.Basic
import Mathlib.Data.List.TakeWhile

set_option autoImplicit false

namespace LevelScript

namespace Text

theorem covers_eq_false {ranges : List CodeRange} {bound : Nat} {c : Char}
    (h : ∀ r ∈ ranges, bound ≤ r.first) (hc : c.toNat < bound) : covers ranges c = false := by
  simp only [covers, List.any_eq_false, CodeRange.contains, Bool.and_eq_true, decide_eq_true_eq,
    not_and]
  intro r hr hfirst
  have := h r hr
  omega

theorem first_beyond_ascii : ∀ r ∈ letterRanges ++ numericRanges, 128 ≤ r.first := by
  decide +kernel

theorem isWordStart_ascii {c : Char} (hc : c.toNat < 128) :
    isWordStart c = (c.isAlpha || c == '_') := by
  have h : covers letterRanges c = false :=
    covers_eq_false (fun r hr => first_beyond_ascii r (List.mem_append_left _ hr)) hc
  simp [isWordStart, isLetter, h]

theorem isWordChar_ascii {c : Char} (hc : c.toNat < 128) :
    isWordChar c = (c.isAlpha || c == '_' || c.isDigit) := by
  have h : covers numericRanges c = false :=
    covers_eq_false (fun r hr => first_beyond_ascii r (List.mem_append_right _ hr)) hc
  simp [isWordChar, isWordStart_ascii hc, h]

theorem isDigit_iff_toNat (c : Char) : c.isDigit = true ↔ 48 ≤ c.toNat ∧ c.toNat < 58 := by
  simp only [Char.isDigit, Bool.and_eq_true, decide_eq_true_eq, ge_iff_le, UInt32.le_iff_toNat_le]
  change 48 ≤ c.toNat ∧ c.toNat ≤ 57 ↔ _
  omega

theorem decimalValue?_ascii {c : Char} (hc : c.toNat < 128) :
    decimalValue? c = if c.isDigit then some (c.toNat - '0'.toNat) else none := by
  have hothers : zeros.tail.find? (fun z => z ≤ c.toNat && c.toNat < z + 10) = none := by
    rw [List.find?_eq_none]
    intro z hz
    have : 128 ≤ z := (by decide : ∀ z ∈ zeros.tail, 128 ≤ z) z hz
    simp only [Bool.and_eq_true, decide_eq_true_eq, not_and]
    omega
  have hzero : (decide (48 ≤ c.toNat) && decide (c.toNat < 48 + 10)) = c.isDigit := by
    rw [Bool.eq_iff_iff, isDigit_iff_toNat]
    simp
  unfold decimalValue?
  rw [show zeros = 48 :: zeros.tail from rfl, List.find?_cons, hothers, hzero]
  cases c.isDigit <;> rfl

theorem isDigit_ascii {c : Char} (hc : c.toNat < 128) : isDigit c = c.isDigit := by
  have h : covers looseDigitRanges c = false := covers_eq_false (by decide) hc
  rw [isDigit, decimalValue?_ascii hc, h]
  cases c.isDigit <;> rfl

def isWord : List Char → Bool
  | [] => false
  | c :: rest => isWordStart c && rest.all isWordChar

theorem isWordStart_not_blank {c : Char} (h : isWordStart c = true) : isBlank c = false := by
  cases hb : isBlank c with
  | false => rfl
  | true =>
    simp only [isBlank, Bool.or_eq_true, beq_iff_eq] at hb
    rcases hb with ((rfl | rfl) | rfl) | rfl <;>
      exact absurd h (by rw [isWordStart_ascii (by decide)]; decide)

theorem digit_not_alpha {c : Char} (h : c.isDigit = true) : c.isAlpha = false := by
  have hrange := (isDigit_iff_toNat c).1 h
  delta Char.isAlpha Char.isUpper Char.isLower
  simp only [Bool.or_eq_false_iff, decide_eq_false_iff_not, UInt32.le_iff_toNat_le,
    Bool.and_eq_false_iff]
  change ¬ (65 ≤ c.toNat ∧ c.toNat ≤ 90) ∧ (¬ 97 ≤ c.toNat ∨ ¬ c.toNat ≤ 122)
  omega

theorem digit_not_blank {c : Char} (h : c.isDigit = true) : isBlank c = false := by
  cases hb : isBlank c with
  | false => rfl
  | true =>
    simp only [isBlank, Bool.or_eq_true, beq_iff_eq] at hb
    rcases hb with ((rfl | rfl) | rfl) | rfl <;> exact absurd h (by decide)

end Text

namespace Numeral

theorem isDigit_of_mem_repr {value : Nat} {c : Char} (h : c ∈ (Nat.repr value).toList) :
    c.isDigit = true := by
  rw [Nat.repr_eq_ofList_toDigits, String.toList_ofList] at h
  exact Nat.isDigit_of_mem_toDigits (by decide) (by decide) h

theorem decimalValue?_of_mem_repr {value : Nat} {c : Char} (h : c ∈ (Nat.repr value).toList) :
    Text.decimalValue? c = some (c.toNat - '0'.toNat) := by
  have hd := isDigit_of_mem_repr h
  have hrange := (Text.isDigit_iff_toNat c).1 hd
  rw [Text.decimalValue?_ascii (by omega), if_pos hd]

theorem value_repr (value : Nat) : Numeral.value (Nat.repr value).toList = value := by
  have hfold : Numeral.value (Nat.repr value).toList =
      Nat.ofDigitChars 10 (Nat.repr value).toList 0 := by
    rw [Nat.ofDigitChars_eq_foldl]
    exact List.foldl_ext _ _ _ fun n c hc => by rw [decimalValue?_of_mem_repr hc]; rfl
  rw [hfold, Nat.repr_eq_ofList_toDigits, String.toList_ofList]
  exact Nat.ofDigitChars_toDigits (by decide) (by decide)

theorem read_repr {value : Nat} (h : (Nat.repr value).toList.length ≤ digitLimit) :
    read (Nat.repr value).toList = .ok value := by
  have hdecimals : (Nat.repr value).toList.takeWhile (fun c => (Text.decimalValue? c).isSome) =
      (Nat.repr value).toList := by
    rw [List.takeWhile_eq_self_iff]
    intro c hc
    rw [decimalValue?_of_mem_repr hc]
    rfl
  simp only [read, hdecimals, value_repr]
  rw [if_neg (by omega), if_neg (by omega)]

end Numeral

namespace Token

def chars : Token → List Char
  | .identifier name => name.toList
  | .number value => (Nat.repr value).toList
  | .text value => Text.doubleQuote :: (value.toList ++ [Text.doubleQuote])
  | .keyword word => word.spelling.toList
  | .symbol mark => mark.chars
  | .endOfInput => []

def writable : Token → Bool
  | .identifier name => Text.isWord name.toList && (Keyword.ofSpelling? name).isNone
  | .number value => (Nat.repr value).toList.length ≤ Numeral.digitLimit
  | .text value => Text.doubleQuote ∉ value.toList
  | .keyword _ | .symbol _ => true
  | .endOfInput => false

/-- A character that, written directly after the token, may be taken as a part of it. -/
def extendedBy : Token → Char → Bool
  | .identifier _, c | .keyword _, c => Text.isWordChar c
  | .number _, c => Text.isDigit c
  | .symbol mark, c => mark ∈ [.less, .greater, .assign] && c == '='
  | .text _, _ | .endOfInput, _ => false

theorem chars_first {token : Token} (h : token.writable = true) :
    ∃ c tail, token.chars = c :: tail ∧ isBlank c = false := by
  cases token with
  | identifier name =>
    simp only [writable, Bool.and_eq_true] at h
    cases hn : name.toList with
    | nil => simp [hn, Text.isWord] at h
    | cons c tail =>
      simp only [hn, Text.isWord, Bool.and_eq_true] at h
      exact ⟨c, tail, hn, Text.isWordStart_not_blank h.1.1⟩
  | number value =>
    cases hn : (Nat.repr value).toList with
    | nil => simp [Nat.repr_eq_ofList_toDigits, Nat.toDigits_ne_nil] at hn
    | cons c tail =>
      have hc : c ∈ (Nat.repr value).toList := by simp [hn]
      exact ⟨c, tail, hn, Text.digit_not_blank (Numeral.isDigit_of_mem_repr hc)⟩
  | text value => exact ⟨_, _, rfl, rfl⟩
  | keyword word => cases word <;> exact ⟨_, _, rfl, rfl⟩
  | symbol mark => cases mark <;> exact ⟨_, _, rfl, rfl⟩
  | endOfInput => cases h

end Token

theorem Symbol.first?_chars (mark : Symbol) (rest : List Char)
    (h : ∀ c ∈ rest.head?, (Token.symbol mark).extendedBy c = false) :
    Symbol.first? (mark.chars ++ rest) = some mark := by
  cases rest with
  | nil => cases mark <;> rfl
  | cons c rest =>
    have hc := h c rfl
    cases mark <;> first
      | rfl
      | (have hc : ('=' == c) = false := by simpa [Token.extendedBy, BEq.comm] using hc
         simp [first?, all, chars, List.isPrefixOf, hc])

theorem takeWhile_append_stop {p : Char → Bool} {word rest : List Char}
    (hw : ∀ c ∈ word, p c = true) (hr : ∀ c ∈ rest.head?, p c = false) :
    (word ++ rest).takeWhile p = word := by
  rw [List.takeWhile_append_of_pos hw]
  cases rest with
  | nil => simp
  | cons c rest => simp [hr c rfl]

namespace Lexeme

theorem first_word {word : String} {c : Char} {tail rest : List Char}
    (hword : word.toList = c :: tail) (hw : Text.isWord word.toList = true)
    (hr : ∀ c ∈ rest.head?, Text.isWordChar c = false) :
    first c (tail ++ rest) = .token (.ofWord word) word.toList.length := by
  simp only [hword, Text.isWord, Bool.and_eq_true, List.all_eq_true] at hw
  simp only [first, hw.1, if_true, takeWhile_append_stop hw.2 hr, ← hword, String.ofList_toList]

theorem first_symbol (mark : Symbol) {c : Char} {tail rest : List Char}
    (hmark : mark.chars = c :: tail)
    (hr : ∀ c ∈ rest.head?, (Token.symbol mark).extendedBy c = false) :
    first c (tail ++ rest) = .token (.symbol mark) mark.chars.length := by
  have hfirst : Symbol.first? (c :: (tail ++ rest)) = some mark := by
    rw [← List.cons_append, ← hmark]
    exact mark.first?_chars rest hr
  have hc : Text.isWordStart c = false ∧ Text.isDigit c = false ∧ c ≠ Text.doubleQuote := by
    have hascii : c.toNat < 128 := by
      cases mark <;> cases hmark <;> decide
    rw [Text.isWordStart_ascii hascii, Text.isDigit_ascii hascii]
    cases mark <;> cases hmark <;> decide
  simp [first, hc, hfirst]

theorem first_text (value : String) (rest : List Char)
    (hv : Text.doubleQuote ∉ value.toList) :
    first Text.doubleQuote (value.toList ++ Text.doubleQuote :: rest) =
      .token (.text value) (value.toList.length + 2) := by
  have hstart : Text.isWordStart Text.doubleQuote = false := by
    rw [Text.isWordStart_ascii (by decide)]
    decide
  have hdigit : Text.isDigit Text.doubleQuote = false := by
    rw [Text.isDigit_ascii (by decide)]
    decide
  have hcontent : (value.toList ++ Text.doubleQuote :: rest).takeWhile
      (fun c => decide (c ≠ Text.doubleQuote)) = value.toList := by
    refine takeWhile_append_stop (fun c hc => ?_) (by simp)
    simp only [ne_eq, decide_eq_true_eq]
    rintro rfl
    exact hv hc
  simp only [first, hstart, hdigit, hcontent]
  simp

theorem first_number {value : Nat} {c : Char} {tail rest : List Char}
    (hvalue : (Nat.repr value).toList = c :: tail)
    (hv : (Nat.repr value).toList.length ≤ Numeral.digitLimit)
    (hr : ∀ c ∈ rest.head?, Text.isDigit c = false) :
    first c (tail ++ rest) = .token (.number value) (Nat.repr value).toList.length := by
  have hdigit {d : Char} (hd : d ∈ c :: tail) : d.isDigit = true ∧ Text.isDigit d = true := by
    have hd := Numeral.isDigit_of_mem_repr (hvalue ▸ hd)
    have hrange := (Text.isDigit_iff_toNat d).1 hd
    exact ⟨hd, by rw [Text.isDigit_ascii (by omega), hd]⟩
  have hstart : Text.isWordStart c = false := by
    have hc := (hdigit List.mem_cons_self).1
    have hrange := (Text.isDigit_iff_toNat c).1 hc
    rw [Text.isWordStart_ascii (by omega), Text.digit_not_alpha hc]
    exact beq_eq_false_iff_ne.2 (by rintro rfl; cases hc)
  have hdigits : (tail ++ rest).takeWhile Text.isDigit = tail :=
    takeWhile_append_stop (fun d hd => (hdigit (List.mem_cons_of_mem c hd)).2) hr
  have hread : Numeral.read (c :: tail) = .ok value := hvalue ▸ Numeral.read_repr hv
  simp [first, hstart, (hdigit List.mem_cons_self).2, hdigits, hread, hvalue]

theorem first_chars {token : Token} (hw : token.writable = true) {c : Char} {tail rest : List Char}
    (hc : token.chars = c :: tail) (hr : ∀ c ∈ rest.head?, token.extendedBy c = false) :
    first c (tail ++ rest) = .token token token.chars.length := by
  cases token with
  | identifier name =>
    simp only [Token.writable, Bool.and_eq_true, Option.isNone_iff_eq_none] at hw
    rw [first_word hc hw.1 hr, Token.ofWord, hw.2]
    rfl
  | number value => exact first_number hc (of_decide_eq_true hw) hr
  | text value =>
    cases hc
    rw [List.append_assoc, List.singleton_append, first_text value rest (of_decide_eq_true hw)]
    simp [Token.chars]
  | keyword word =>
    rw [first_word hc (by cases word <;> decide) hr]
    cases word <;> rfl
  | symbol mark => exact first_symbol mark hc hr
  | endOfInput => cases hw

end Lexeme

theorem TokenStream.scan_chars (position : Nat) {token : Token} (hw : token.writable = true)
    {rest : List Char} (hr : ∀ c ∈ rest.head?, token.extendedBy c = false) :
    scan position (token.chars ++ rest) = .next token (position + token.chars.length)
      (scan (position + token.chars.length) rest) := by
  obtain ⟨c, tail, hc, hblank⟩ := Token.chars_first hw
  have hfirst := Lexeme.first_chars hw hc hr
  rw [hc] at hfirst ⊢
  rw [List.cons_append, scan]
  simp [hblank, hfirst]

theorem TokenStream.scan_blank (position : Nat) {c : Char} (hc : isBlank c = true)
    (rest : List Char) : scan position (c :: rest) = scan (position + 1) rest := by
  rw [scan, if_pos hc]

namespace Token

def wordy : Token → Bool
  | .identifier _ | .keyword _ | .number _ => true
  | _ => false

/-- Written directly one after the other, the two tokens might be read as something else. -/
def joins : Token → Token → Bool
  | .symbol mark, .symbol after => mark ∈ [.less, .greater, .assign] && after ∈ [.assign, .equal]
  | first, second => first.wordy && second.wordy

theorem extendedBy_eq_false {token : Token} {c : Char} (hc : c.toNat < 128)
    (hw : (c.isAlpha || c == '_' || c.isDigit) = false)
    (he : ∀ mark ∈ [Symbol.less, .greater, .assign], token = .symbol mark → c ≠ '=') :
    token.extendedBy c = false := by
  cases token with
  | identifier name => exact (Text.isWordChar_ascii hc).trans hw
  | keyword word => exact (Text.isWordChar_ascii hc).trans hw
  | number value => exact (Text.isDigit_ascii hc).trans (Bool.or_eq_false_iff.1 hw).2
  | symbol mark =>
    simp only [extendedBy, Bool.and_eq_false_imp, decide_eq_true_eq, beq_eq_false_iff_ne]
    exact fun hm => he mark hm rfl
  | text value => rfl
  | endOfInput => rfl

theorem extendedBy_blank (token : Token) {c : Char} (hc : isBlank c = true) :
    token.extendedBy c = false := by
  simp only [isBlank, Bool.or_eq_true, beq_iff_eq] at hc
  rcases hc with ((rfl | rfl) | rfl) | rfl <;>
    exact extendedBy_eq_false (by decide) (by decide) fun _ _ _ => by decide

/-- A wordy token extends a token before it only if that is wordy too. -/
theorem extendedBy_word {first : Token} {c : Char} (hw : first.wordy = false) (hc : c ≠ '=') :
    first.extendedBy c = false := by
  cases first with
  | symbol mark => simp [extendedBy, hc]
  | text value => rfl
  | endOfInput => rfl
  | _ => cases hw

theorem extendedBy_first {first second : Token} (hw : second.writable = true)
    (hj : first.joins second = false) {c : Char} {tail : List Char}
    (hc : second.chars = c :: tail) : first.extendedBy c = false := by
  cases second with
  | identifier name =>
    simp only [chars] at hc
    simp only [writable, hc, Text.isWord, Bool.and_eq_true] at hw
    refine extendedBy_word (by cases first <;> first | rfl | cases hj) ?_
    rintro rfl
    exact absurd hw.1.1 (by rw [Text.isWordStart_ascii (by decide)]; decide)
  | keyword word =>
    refine extendedBy_word (by cases first <;> first | rfl | cases hj) ?_
    cases word <;> cases hc <;> decide
  | number value =>
    refine extendedBy_word (by cases first <;> first | rfl | cases hj) ?_
    rintro rfl
    have hequals : '=' ∈ (Nat.repr value).toList := by simp_all [chars]
    cases Numeral.isDigit_of_mem_repr hequals
  | text value =>
    cases hc
    exact extendedBy_eq_false (by decide) (by decide) fun _ _ _ => by decide
  | symbol mark =>
    refine extendedBy_eq_false (by cases mark <;> cases hc <;> decide)
      (by cases mark <;> cases hc <;> decide) ?_
    rintro first hfirst rfl rfl
    simp only [joins, hfirst, Bool.and_eq_false_imp, decide_true, decide_eq_false_iff_not,
      forall_const] at hj
    cases mark <;> first | exact hj (by decide) | cases hc
  | endOfInput => cases hw

end Token

/-- The text is that of the tokens, one after the other, with any blanks before each of them and at
the end. -/
inductive Written : List Token → List Char → Prop where
  | nil : Written [] []
  | blank {tokens : List Token} {text : List Char} {c : Char} :
      isBlank c = true → Written tokens text → Written tokens (c :: text)
  | token {token : Token} {tokens : List Token} {text : List Char} :
      Written tokens text → Written (token :: tokens) (token.chars ++ text)

end LevelScript
