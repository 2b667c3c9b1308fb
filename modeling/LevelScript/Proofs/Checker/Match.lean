import LevelScript.Checker.Lexeme
import LevelScript.Proofs.Parser.Grammar
import LevelScript.Proofs.Token.Writing

set_option autoImplicit false

namespace LevelScript

open Checker.Pattern (byte)

namespace Text

def Ascii (source : List Char) : Prop :=
  ∀ c ∈ source, c.toNat < 128

-- the characters of the text are tried, not all characters
instance (source : List Char) : Decidable (Ascii source) :=
  List.decidableBAll _ source

theorem Ascii.head {c : Char} {source : List Char} (h : Ascii (c :: source)) : c.toNat < 128 :=
  h c List.mem_cons_self

theorem Ascii.tail {c : Char} {source : List Char} (h : Ascii (c :: source)) : Ascii source :=
  fun d hd => h d (List.mem_cons_of_mem c hd)

theorem ascii_induction {p : Char → Prop} (h : ∀ n : Fin 128, p (Char.ofNat n)) {c : Char}
    (hc : c.toNat < 128) : p c := by
  have hn := h ⟨c.toNat, hc⟩
  rwa [Char.ofNat_toNat] at hn

theorem encodeUtf8_ofList {chars : List Char} (h : Ascii chars) :
    encodeUtf8 (String.ofList chars) = chars.map byte := by
  have hchar {c : Char} (hc : c.toNat < 128) : String.utf8EncodeChar c = [byte c] := by
    have hle : c.val.toNat ≤ 127 := Nat.le_of_lt_succ hc
    rw [String.utf8EncodeChar, if_pos hle]
    rfl
  have hflat : chars.flatMap String.utf8EncodeChar = chars.map byte := by
    induction chars with
    | nil => rfl
    | cons c chars ih =>
      rw [List.flatMap_cons, hchar h.head, ih h.tail]
      rfl
  simp [encodeUtf8, String.toUTF8, List.utf8Encode, hflat]

end Text

namespace Symbol

theorem mem_all (s : Symbol) : s ∈ all := by
  cases s <;> decide

theorem chars_ascii (s : Symbol) : Text.Ascii s.chars := by
  cases s <;> decide

theorem first?_leads {source : List Char} {mark : Symbol} (h : first? source = some mark) :
    mark.chars <+: source := by
  have hleads := List.find?_some h
  exact List.isPrefixOf_iff_prefix.1 hleads

theorem first?_longest {source : List Char} {mark s : Symbol} (h : first? source = some mark)
    (hs : s.chars <+: source) : s.chars.length < mark.chars.length ∨ s = mark := by
  obtain ⟨_, before, after, hall, hbefore⟩ := List.find?_eq_some_iff_append.1 h
  have hsorted : all.Pairwise fun a b => b.chars.length ≤ a.chars.length := by decide
  have hmem : s ∈ before ++ mark :: after := hall ▸ mem_all s
  rcases List.mem_append.1 hmem with hs' | hs'
  · have hnot := hbefore s hs'
    rw [List.isPrefixOf_iff_prefix.2 hs] at hnot
    cases hnot
  rcases List.mem_cons.1 hs' with rfl | hafter
  · exact .inr rfl
  have hle : s.chars.length ≤ mark.chars.length := by
    rw [hall, List.pairwise_append] at hsorted
    exact (List.pairwise_cons.1 hsorted.2.1).1 s hafter
  by_cases hlength : s.chars.length = mark.chars.length
  · have hchars : s.chars = mark.chars := by
      rw [List.prefix_iff_eq_take.1 hs, List.prefix_iff_eq_take.1 (first?_leads h), hlength]
    have hinjective : ∀ a ∈ all, ∀ b ∈ all, a.chars = b.chars → a = b := by decide
    exact .inr (hinjective s (mem_all s) mark (mem_all mark) hchars)
  · exact .inl (by omega)

end Symbol

namespace Keyword

theorem mem_all (k : Keyword) : k ∈ all := by
  cases k <;> decide

theorem spelling_word (k : Keyword) : Text.Ascii k.spelling.toList ∧
    ∀ c ∈ k.spelling.toList, Text.isWordChar c = true := by
  have hascii : Text.Ascii k.spelling.toList := by
    cases k <;> decide +kernel
  have hword : k.spelling.toList.all Text.isWordChar = true := by
    cases k <;> decide +kernel
  exact ⟨hascii, List.all_eq_true.1 hword⟩

theorem ofSpelling?_spelling (k : Keyword) : ofSpelling? k.spelling = some k := by
  cases k <;> decide

theorem spelling_of_ofSpelling? {word : String} {k : Keyword} (h : ofSpelling? word = some k) :
    k.spelling = word := by
  simpa using List.find?_some h

end Keyword

namespace Checker

open Text (Ascii Bytes)

namespace Pattern

def marks : List Symbol :=
  [.and, .or, .equal, .notEqual, .less, .greater, .atMost, .atLeast, .assign, .plus, .minus,
   .times, .divide, .leftParen, .rightParen, .leftBrace, .rightBrace, .leftBracket, .rightBracket,
   .colon, .semicolon, .comma]

def all : List Pattern :=
  .blanks :: Keyword.all.map .word ++ marks.map .mark ++
    [.lineComment, .blockComment, .name, .digits, .quoted, .anyByte]

def lineStart : Bytes := [byte '/', byte '/']

def blockStart : Bytes := [byte '/', backslash, byte '*']

def blockEnd : Bytes := [backslash, byte '*', byte '/']

/-- How many bytes there are up to the last `blockEnd`, that included. -/
def throughLastEnd : Bytes → Option Nat
  | [] => none
  | b :: rest =>
    match throughLastEnd rest with
    | some n => some (n + 1)
    | none => if blockEnd.isPrefixOf (b :: rest) then some blockEnd.length else none

/-- How many bytes there are up to the closing quote, that included. A backslash takes the next
byte with it, which must not be a line end. -/
def throughQuote : Bytes → Option Nat
  | [] => none
  | b :: rest =>
    if b = quote then some 1
    else if b = backslash then
      match rest with
      | [] => none
      | c :: rest => if c = newline then none else (throughQuote rest).map (· + 2)
    else (throughQuote rest).map (· + 1)

def run? (isMember : UInt8 → Bool) (bytes : Bytes) : Option Nat :=
  match (bytes.takeWhile isMember).length with
  | 0 => none
  | n => some n

def literal? (text bytes : Bytes) : Option Nat :=
  if text.isPrefixOf bytes then some text.length else none

def longest? (pattern : Pattern) (bytes : Bytes) : Option Nat :=
  match pattern with
  | .blanks => run? isBlank bytes
  | .word keyword => literal? (Text.encodeUtf8 keyword.spelling) bytes
  | .mark symbol => literal? (symbol.chars.map byte) bytes
  | .lineComment =>
    (literal? lineStart bytes).map fun n => n + ((bytes.drop n).takeWhile (· ≠ newline)).length
  | .blockComment =>
    (literal? blockStart bytes).bind fun n =>
      (throughLastEnd ((bytes.drop n).takeWhile (· ≠ newline))).map (n + ·)
  | .name =>
    match bytes with
    | [] => none
    | b :: rest => if isLetter b then some ((rest.takeWhile isNameByte).length + 1) else none
  | .digits => run? isDigit bytes
  | .quoted =>
    match bytes with
    | [] => none
    | b :: rest => if b = quote then (throughQuote rest).map (· + 1) else none
  | .anyByte =>
    match bytes with
    | [] => none
    | b :: _ => if b = newline then none else some 1

def better (bytes : Bytes) (best : Option (Pattern × Nat)) (pattern : Pattern) :
    Option (Pattern × Nat) :=
  match best, pattern.longest? bytes with
  | best, none => best
  | none, some n => some (pattern, n)
  | some (first, m), some n => if m < n then some (pattern, n) else some (first, m)

def first? (bytes : Bytes) : Option (Pattern × Nat) :=
  all.foldl (better bytes) none

variable {c d : Char}

theorem isBlank_byte (hc : c.toNat < 128) : isBlank (byte c) = LevelScript.isBlank c := by
  apply Text.ascii_induction (p := fun c => isBlank (byte c) = LevelScript.isBlank c) _ hc
  decide +kernel

theorem isDigit_byte (hc : c.toNat < 128) : isDigit (byte c) = c.isDigit := by
  apply Text.ascii_induction (p := fun c => isDigit (byte c) = c.isDigit) _ hc
  decide +kernel

theorem isNameByte_byte (hc : c.toNat < 128) : isNameByte (byte c) = Text.isWordChar c := by
  rw [Text.isWordChar_ascii hc]
  apply Text.ascii_induction
    (p := fun c => isNameByte (byte c) = (c.isAlpha || c == '_' || c.isDigit)) _ hc
  decide +kernel

theorem byte_inj (hc : c.toNat < 128) (hd : d.toNat < 128) (h : byte c = byte d) : c = d := by
  have hbyte {e : Char} (he : e.toNat < 128) : (byte e).toNat = e.toNat := by
    rw [byte, Nat.toUInt8, UInt8.toNat_ofNat']
    omega
  have hnat : c.toNat = d.toNat := by rw [← hbyte hc, ← hbyte hd, h]
  exact Char.toNat_inj.1 hnat

theorem isPrefixOf_map_byte {text source : List Char} (ht : Ascii text) (hs : Ascii source) :
    (text.map byte).isPrefixOf (source.map byte) = text.isPrefixOf source := by
  induction text generalizing source with
  | nil => rfl
  | cons c text ih =>
    cases source with
    | nil => rfl
    | cons d source =>
      have hbeq : (byte c == byte d) = (c == d) := by
        rw [Bool.eq_iff_iff, beq_iff_eq, beq_iff_eq]
        exact ⟨byte_inj ht.head hs.head, congrArg byte⟩
      simp [List.isPrefixOf, hbeq, ih ht.tail hs.tail]

theorem takeWhile_map_byte {p : UInt8 → Bool} {q : Char → Bool} {source : List Char}
    (h : ∀ c ∈ source, p (byte c) = q c) :
    (source.map byte).takeWhile p = (source.takeWhile q).map byte := by
  rw [List.takeWhile_map]
  congr 1
  induction source with
  | nil => rfl
  | cons c source ih =>
    have hc : (p ∘ byte) c = q c := h c List.mem_cons_self
    rw [List.takeWhile_cons, List.takeWhile_cons, hc,
      ih fun d hd => h d (List.mem_cons_of_mem c hd)]

inductive Opening where
  | blank
  | letter
  | digit
  | quote
  | other
  deriving DecidableEq, Repr

def Opening.of (c : Char) : Opening :=
  if LevelScript.isBlank c then .blank
  else if c.isAlpha then .letter
  else if c.isDigit then .digit
  else if c = Text.doubleQuote then .quote
  else .other

def opening : Pattern → Opening
  | .blanks => .blank
  | .word _ | .name => .letter
  | .digits => .digit
  | .quoted => .quote
  | .mark _ | .lineComment | .blockComment | .anyByte => .other

def begins (pattern : Pattern) (b : UInt8) : Bool :=
  match pattern with
  | .blanks => isBlank b
  | .word _ | .name => isLetter b
  | .mark symbol => (symbol.chars.map byte).head? = some b
  | .lineComment | .blockComment => b = byte '/'
  | .digits => isDigit b
  | .quoted => b = quote
  | .anyByte => true

theorem literal?_eq_some {text bytes : Bytes} {m : Nat} (h : literal? text bytes = some m) :
    text <+: bytes ∧ m = text.length := by
  unfold literal? at h
  split at h
  · next hleads =>
    cases h
    exact ⟨List.isPrefixOf_iff_prefix.1 hleads, rfl⟩
  · cases h

theorem run?_eq_some {isMember : UInt8 → Bool} {b : UInt8} {rest : Bytes} {m : Nat}
    (h : run? isMember (b :: rest) = some m) :
    isMember b = true ∧ m = (rest.takeWhile isMember).length + 1 := by
  rw [run?, List.takeWhile_cons] at h
  cases hb : isMember b with
  | false => simp [hb] at h
  | true =>
    simp only [hb, if_true, List.length_cons] at h
    cases h
    exact ⟨rfl, rfl⟩

theorem begins_of_longest? {pattern : Pattern} {b : UInt8} {rest : Bytes} {m : Nat}
    (h : pattern.longest? (b :: rest) = some m) : pattern.begins b = true := by
  -- a text that is a prefix of the bytes begins with the first byte
  have head {text : Bytes} {first : UInt8} {tail : Bytes} (htext : text = first :: tail)
      (hleads : text <+: b :: rest) : first = b := by
    rw [htext] at hleads
    exact (List.cons_prefix_cons.1 hleads).1
  cases pattern with
  | blanks => exact (run?_eq_some h).1
  | digits => exact (run?_eq_some h).1
  | word keyword =>
    have hleads := (literal?_eq_some h).1
    have hletter : ∃ first tail, Text.encodeUtf8 keyword.spelling = first :: tail ∧
        isLetter first = true := by
      cases keyword <;> exact ⟨_, _, rfl, by decide⟩
    obtain ⟨first, tail, htext, hfirst⟩ := hletter
    rw [begins, ← head htext hleads]
    exact hfirst
  | mark symbol =>
    have hleads := (literal?_eq_some h).1
    have hnonempty : ∃ first tail, symbol.chars.map byte = first :: tail := by
      cases symbol <;> exact ⟨_, _, rfl⟩
    obtain ⟨first, tail, htext⟩ := hnonempty
    simp [begins, htext, head htext hleads]
  | lineComment =>
    obtain ⟨n, hn, _⟩ := Option.map_eq_some_iff.1 h
    simp [begins, ← head rfl (literal?_eq_some hn).1]
  | blockComment =>
    obtain ⟨n, hn, _⟩ := Option.bind_eq_some_iff.1 h
    simp [begins, ← head rfl (literal?_eq_some hn).1]
  | name =>
    simp only [longest?] at h
    split at h
    · assumption
    · cases h
  | quoted =>
    simp only [longest?] at h
    split at h
    · next hquote => simp [begins, hquote]
    · cases h
  | anyByte => rfl

theorem opening_of_begins : ∀ n : Fin 128, ∀ pattern ∈ all,
    pattern.begins (byte (Char.ofNat n)) = true →
      pattern = .anyByte ∨ pattern.opening = .of (Char.ofNat n) := by
  decide +kernel

theorem opening_of_longest? {pattern : Pattern} {rest : Bytes} {m : Nat} (hc : c.toNat < 128)
    (hpattern : pattern ∈ all) (h : pattern.longest? (byte c :: rest) = some m) :
    pattern = .anyByte ∧ m = 1 ∨ pattern.opening = .of c := by
  have hbegins := begins_of_longest? h
  have hopening := opening_of_begins ⟨c.toNat, hc⟩ pattern hpattern
  rw [Char.ofNat_toNat] at hopening
  rcases hopening hbegins with rfl | hopening
  · refine .inl ⟨rfl, ?_⟩
    simp only [longest?] at h
    split at h
    · cases h
    · cases h
      rfl
  · exact .inr hopening

theorem foldl_better_lt {bytes : Bytes} {n : Nat} {patterns : List Pattern}
    {best : Option (Pattern × Nat)} (hbest : ∀ p m, best = some (p, m) → m < n)
    (h : ∀ q ∈ patterns, ∀ m, q.longest? bytes = some m → m < n) :
    ∀ p m, patterns.foldl (better bytes) best = some (p, m) → m < n := by
  induction patterns generalizing best with
  | nil => exact hbest
  | cons q patterns ih =>
    rw [List.foldl_cons]
    refine ih ?_ fun q' hq' => h q' (List.mem_cons_of_mem q hq')
    intro p m hm
    have hq := h q List.mem_cons_self
    unfold better at hm
    split at hm
    · exact hbest p m hm
    · next k hk =>
      cases hm
      exact hq m hk
    · next first k l hl =>
      split at hm
      · cases hm
        exact hq m hl
      · cases hm
        exact hbest p m rfl

theorem foldl_better_eq {bytes : Bytes} {p : Pattern} {n : Nat} {patterns : List Pattern}
    (h : ∀ q ∈ patterns, ∀ m, q.longest? bytes = some m → m ≤ n) :
    patterns.foldl (better bytes) (some (p, n)) = some (p, n) := by
  induction patterns with
  | nil => rfl
  | cons q patterns ih =>
    have hbetter : better bytes (some (p, n)) q = some (p, n) := by
      cases hq : q.longest? bytes with
      | none => simp only [better, hq]
      | some m =>
        have hm : ¬ n < m := Nat.not_lt.2 (h q List.mem_cons_self m hq)
        simp only [better, hq, if_neg hm]
    rw [List.foldl_cons, hbetter]
    exact ih fun q' hq' => h q' (List.mem_cons_of_mem q hq')

theorem first?_eq {bytes : Bytes} {p : Pattern} {n : Nat} (hp : p ∈ all)
    (hlongest : p.longest? bytes = some n)
    (hbest : ∀ q ∈ all, ∀ m, q.longest? bytes = some m →
      m < n ∨ m = n ∧ all.idxOf p ≤ all.idxOf q) :
    first? bytes = some (p, n) := by
  obtain ⟨before, after, hall, hnot⟩ := List.eq_append_cons_of_mem hp
  have hindex : all.idxOf p = before.length := by
    rw [hall, List.idxOf_append_of_notMem hnot, List.idxOf_cons_self, Nat.add_zero]
  have hbefore : ∀ q ∈ before, ∀ m, q.longest? bytes = some m → m < n := by
    intro q hq m hm
    have hlt : all.idxOf q < all.idxOf p := by
      rw [hindex, hall, List.idxOf_append_of_mem hq]
      exact List.idxOf_lt_length_iff.2 hq
    have hmem : q ∈ all := by
      rw [hall]
      exact List.mem_append_left _ hq
    rcases hbest q hmem m hm with hless | ⟨_, hle⟩
    · exact hless
    · omega
  have hafter : ∀ q ∈ after, ∀ m, q.longest? bytes = some m → m ≤ n := by
    intro q hq m hm
    have hmem : q ∈ all := by
      rw [hall]
      exact List.mem_append_right _ (List.mem_cons_of_mem p hq)
    rcases hbest q hmem m hm with hless | ⟨heq, _⟩ <;> omega
  have hless : ∀ q m, before.foldl (better bytes) none = some (q, m) → m < n :=
    foldl_better_lt nofun hbefore
  rw [first?, hall, List.foldl_append, List.foldl_cons]
  have hwon : better bytes (before.foldl (better bytes) none) p = some (p, n) := by
    cases hmost : before.foldl (better bytes) none with
    | none => simp only [better, hlongest]
    | some best => simp only [better, hlongest, if_pos (hless best.1 best.2 hmost)]
  rw [hwon]
  exact foldl_better_eq hafter

theorem anyByte_last : ∀ p ∈ all, all.idxOf p ≤ all.idxOf anyByte := by
  decide

theorem mem_all (pattern : Pattern) : pattern ∈ all := by
  cases pattern with
  | word k =>
    refine List.mem_append_left _ (List.mem_append_left _ (List.mem_cons_of_mem _ ?_))
    exact List.mem_map_of_mem k.mem_all
  | mark s =>
    refine List.mem_append_left _ (List.mem_append_right _ (List.mem_map_of_mem ?_))
    cases s <;> decide
  | blanks | lineComment | blockComment | name | digits | quoted | anyByte => decide

theorem first?_of_opening {rest : Bytes} {p : Pattern} {n : Nat} (hc : c.toNat < 128)
    (hlongest : p.longest? (byte c :: rest) = some n) (hn : 1 ≤ n)
    (hbest : ∀ q m, q.opening = .of c → q.longest? (byte c :: rest) = some m →
      m < n ∨ m = n ∧ all.idxOf p ≤ all.idxOf q) :
    first? (byte c :: rest) = some (p, n) := by
  refine first?_eq (mem_all p) hlongest fun q hq m hm => ?_
  rcases opening_of_longest? hc hq hm with ⟨rfl, rfl⟩ | hopening
  · have hlast := anyByte_last p (mem_all p)
    by_cases hone : n = 1
    · exact .inr ⟨hone.symm, hlast⟩
    · exact .inl (by omega)
  · exact hbest q m hopening hm

theorem run?_of_head {isMember : UInt8 → Bool} {b : UInt8} (rest : Bytes)
    (h : isMember b = true) :
    run? isMember (b :: rest) = some ((rest.takeWhile isMember).length + 1) := by
  rw [run?, List.takeWhile_cons, if_pos h, List.length_cons]
  rfl

theorem first?_blank (hc : c.toNat < 128) (h : LevelScript.isBlank c = true) (rest : Bytes) :
    first? (byte c :: rest) = some (.blanks, (rest.takeWhile isBlank).length + 1) := by
  have hopening : Opening.of c = .blank := by simp [Opening.of, h]
  have hblank : isBlank (byte c) = true := (isBlank_byte hc).trans h
  refine first?_of_opening hc (run?_of_head rest hblank) (by omega) fun q m hq hm => ?_
  rw [hopening] at hq
  cases q with
  | blanks => exact .inr ⟨(run?_eq_some hm).2, Nat.le_refl _⟩
  | _ => cases hq

theorem first?_digit (hc : c.toNat < 128) (h : c.isDigit = true) (rest : Bytes) :
    first? (byte c :: rest) = some (.digits, (rest.takeWhile isDigit).length + 1) := by
  have hopening : Opening.of c = .digit := by
    simp [Opening.of, h, Text.digit_not_blank h, Text.digit_not_alpha h]
  have hdigit : isDigit (byte c) = true := (isDigit_byte hc).trans h
  refine first?_of_opening hc (run?_of_head rest hdigit) (by omega) fun q m hq hm => ?_
  rw [hopening] at hq
  cases q with
  | digits => exact .inr ⟨(run?_eq_some hm).2, Nat.le_refl _⟩
  | _ => cases hq

theorem letter_opening (hc : c.toNat < 128) (h : c.isAlpha = true) :
    Opening.of c = .letter ∧ isLetter (byte c) = true ∧ Text.isWordChar c = true := by
  rw [Text.isWordChar_ascii hc, h]
  have hall : c.isAlpha = true → Opening.of c = .letter ∧ isLetter (byte c) = true := by
    apply Text.ascii_induction
      (p := fun c => c.isAlpha = true → Opening.of c = .letter ∧ isLetter (byte c) = true) _ hc
    decide +kernel
  exact ⟨(hall h).1, (hall h).2, rfl⟩

theorem encodeUtf8_spelling (k : Keyword) :
    Text.encodeUtf8 k.spelling = k.spelling.toList.map byte := by
  have hencode := Text.encodeUtf8_ofList k.spelling_word.1
  rwa [String.ofList_toList] at hencode

theorem longest?_word {source : List Char} (hsource : Ascii source) {k : Keyword} {m : Nat}
    (h : (word k).longest? (source.map byte) = some m) :
    k.spelling.toList <+: source.takeWhile Text.isWordChar ∧ m = k.spelling.toList.length := by
  obtain ⟨hleads, hm⟩ := literal?_eq_some h
  rw [encodeUtf8_spelling] at hleads hm
  rw [← List.isPrefixOf_iff_prefix, isPrefixOf_map_byte k.spelling_word.1 hsource,
    List.isPrefixOf_iff_prefix] at hleads
  obtain ⟨after, rfl⟩ := hleads
  rw [List.takeWhile_append_of_pos k.spelling_word.2]
  exact ⟨List.prefix_append _ _, hm.trans (List.length_map _)⟩

def ofWord (word : String) : Pattern :=
  match Keyword.ofSpelling? word with
  | some k => .word k
  | none => .name

theorem ofWord_terminal? (word : String) :
    (ofWord word).terminal? = some (Token.ofWord word).terminal := by
  unfold ofWord Token.ofWord
  cases Keyword.ofSpelling? word <;> rfl

theorem first?_letter {rest : List Char} (hsource : Ascii (c :: rest)) (h : c.isAlpha = true) :
    first? ((c :: rest).map byte) =
      some (ofWord (String.ofList (c :: rest.takeWhile Text.isWordChar)),
        (rest.takeWhile Text.isWordChar).length + 1) := by
  have hc := hsource.head
  obtain ⟨hopening, hletter, hchar⟩ := letter_opening hc h
  have hword : (c :: rest).takeWhile Text.isWordChar = c :: rest.takeWhile Text.isWordChar := by
    rw [List.takeWhile_cons, if_pos hchar]
  have hname : Pattern.name.longest? ((c :: rest).map byte) =
      some ((rest.takeWhile Text.isWordChar).length + 1) := by
    have hrest : ∀ d ∈ rest, isNameByte (byte d) = Text.isWordChar d :=
      fun d hd => isNameByte_byte (hsource.tail d hd)
    rw [List.map_cons, longest?, if_pos hletter, takeWhile_map_byte hrest, List.length_map]
  -- a keyword of the length of the word is the word
  have hkeyword {k : Keyword} {m : Nat}
      (hk : (Pattern.word k).longest? ((c :: rest).map byte) = some m) :
      m < (rest.takeWhile Text.isWordChar).length + 1 ∨
        m = (rest.takeWhile Text.isWordChar).length + 1 ∧
          k.spelling = String.ofList (c :: rest.takeWhile Text.isWordChar) := by
    obtain ⟨hleads, hm⟩ := longest?_word hsource hk
    rw [hword] at hleads
    have hle := hleads.length_le
    rw [List.length_cons] at hle
    by_cases hlength : k.spelling.toList.length = (rest.takeWhile Text.isWordChar).length + 1
    · have heq := hleads.eq_of_length (by rw [List.length_cons]; exact hlength)
      exact .inr ⟨hm.trans hlength, by rw [← heq, String.ofList_toList]⟩
    · exact .inl (by omega)
  have hlisted : ∀ k ∈ Keyword.all, all.idxOf (.word k) ≤ all.idxOf .name := by decide
  rw [List.map_cons] at hname hkeyword ⊢
  cases hspelling :
      Keyword.ofSpelling? (String.ofList (c :: rest.takeWhile Text.isWordChar)) with
  | none =>
    have hpattern : ofWord (String.ofList (c :: rest.takeWhile Text.isWordChar)) = .name := by
      rw [ofWord, hspelling]
    rw [hpattern]
    refine first?_of_opening hc hname (by omega) fun q m hq hm => ?_
    rw [hopening] at hq
    cases q with
    | name => exact .inr ⟨Option.some.inj (hm.symm.trans hname), Nat.le_refl _⟩
    | word k =>
      rcases hkeyword hm with hless | ⟨_, heq⟩
      · exact .inl hless
      · rw [← heq, Keyword.ofSpelling?_spelling] at hspelling
        cases hspelling
    | _ => cases hq
  | some k =>
    have heq := Keyword.spelling_of_ofSpelling? hspelling
    have hpattern : ofWord (String.ofList (c :: rest.takeWhile Text.isWordChar)) = .word k := by
      rw [ofWord, hspelling]
    have hbytes : Text.encodeUtf8 k.spelling <+: (c :: rest).map byte := by
      rw [encodeUtf8_spelling, heq, String.toList_ofList, ← hword]
      exact (List.takeWhile_prefix _).map byte
    have hlongest : (Pattern.word k).longest? ((c :: rest).map byte) =
        some ((rest.takeWhile Text.isWordChar).length + 1) := by
      rw [longest?, literal?, if_pos (List.isPrefixOf_iff_prefix.2 hbytes), encodeUtf8_spelling,
        List.length_map, heq, String.toList_ofList, List.length_cons]
    rw [List.map_cons] at hlongest
    rw [hpattern]
    refine first?_of_opening hc hlongest (by omega) fun q m hq hm => ?_
    rw [hopening] at hq
    cases q with
    | name => exact .inr ⟨Option.some.inj (hm.symm.trans hname), hlisted k k.mem_all⟩
    | word k' =>
      rcases hkeyword hm with hless | ⟨hm', heq'⟩
      · exact .inl hless
      · rw [← heq', Keyword.ofSpelling?_spelling] at hspelling
        cases hspelling
        exact .inr ⟨hm', Nat.le_refl _⟩
    | _ => cases hq

theorem throughQuote_quote (rest : Bytes) : throughQuote (quote :: rest) = some 1 := by
  rw [throughQuote.eq_def]
  simp

theorem throughQuote_other {b : UInt8} (hquote : b ≠ quote) (hbackslash : b ≠ backslash)
    (rest : Bytes) : throughQuote (b :: rest) = (throughQuote rest).map (· + 1) := by
  rw [throughQuote.eq_def]
  simp [hquote, hbackslash]

theorem throughQuote_map_byte {content : List Char} (hcontent : Ascii content)
    (hquote : Text.doubleQuote ∉ content) (hbackslash : '\\' ∉ content) (rest : Bytes) :
    throughQuote (content.map byte) = none ∧
      throughQuote (content.map byte ++ quote :: rest) = some (content.length + 1) := by
  induction content with
  | nil => exact ⟨rfl, throughQuote_quote rest⟩
  | cons c content ih =>
    have hne : byte c ≠ quote := by
      intro h
      exact hquote (byte_inj hcontent.head (by decide) h ▸ List.mem_cons_self)
    have hne' : byte c ≠ backslash := by
      intro h
      exact hbackslash (byte_inj hcontent.head (by decide) h ▸ List.mem_cons_self)
    have hrest := ih hcontent.tail (fun h => hquote (List.mem_cons_of_mem c h))
      fun h => hbackslash (List.mem_cons_of_mem c h)
    rw [List.map_cons, List.cons_append, throughQuote_other hne hne', throughQuote_other hne hne',
      hrest.1, hrest.2]
    exact ⟨rfl, rfl⟩

theorem longest?_quoted (rest : Bytes) :
    Pattern.quoted.longest? (byte Text.doubleQuote :: rest) = (throughQuote rest).map (· + 1) := by
  rw [longest?]
  exact if_pos rfl

theorem first?_quoted {rest : Bytes} {n : Nat} (h : throughQuote rest = some n) :
    first? (byte Text.doubleQuote :: rest) = some (.quoted, n + 1) := by
  have hlongest := longest?_quoted rest
  rw [h, Option.map_some] at hlongest
  refine first?_of_opening (by decide) hlongest (by omega) fun q m hq hm => ?_
  cases q with
  | quoted => exact .inr ⟨Option.some.inj (hm.symm.trans hlongest), Nat.le_refl _⟩
  | _ => cases hq

theorem first?_unclosed {rest : Bytes} (h : throughQuote rest = none) :
    first? (byte Text.doubleQuote :: rest) = some (.anyByte, 1) := by
  refine first?_of_opening (by decide) rfl (by omega) fun q m hq hm => ?_
  cases q with
  | quoted =>
    rw [longest?_quoted, h] at hm
    cases hm
  | _ => cases hq

theorem longest?_other {rest : List Char} (hsource : Ascii (c :: rest)) (hbackslash : '\\' ∉ rest)
    {q : Pattern} {m : Nat} (hq : q.opening = .other)
    (h : q.longest? ((c :: rest).map byte) = some m) :
    (∃ s : Symbol, q = .mark s ∧ s.chars <+: c :: rest ∧ m = s.chars.length) ∨
      q = .lineComment ∧ ['/', '/'] <+: c :: rest ∨ q = .anyByte ∧ m = 1 := by
  have hleads {text : List Char} (htext : Ascii text)
      (hbytes : text.map byte <+: (c :: rest).map byte) : text <+: c :: rest := by
    rwa [← List.isPrefixOf_iff_prefix, isPrefixOf_map_byte htext hsource,
      List.isPrefixOf_iff_prefix] at hbytes
  cases q with
  | mark s =>
    obtain ⟨hbytes, hm⟩ := literal?_eq_some h
    exact .inl ⟨s, rfl, hleads s.chars_ascii hbytes, hm.trans (List.length_map _)⟩
  | lineComment =>
    obtain ⟨n, hn, _⟩ := Option.map_eq_some_iff.1 h
    have hslashes : Ascii ['/', '/'] := by decide
    exact .inr (.inl ⟨rfl, hleads hslashes (literal?_eq_some hn).1⟩)
  | blockComment =>
    obtain ⟨n, hn, _⟩ := Option.bind_eq_some_iff.1 h
    have hstart : Ascii ['/', '\\', '*'] := by decide
    have hblock := (List.cons_prefix_cons.1 (hleads hstart (literal?_eq_some hn).1)).2
    exact absurd (hblock.subset List.mem_cons_self) hbackslash
  | anyByte =>
    rw [List.map_cons, longest?] at h
    split at h
    · cases h
    · cases h
      exact .inr (.inr ⟨rfl, rfl⟩)
  | _ => cases hq

theorem first?_mark {rest : List Char} (hsource : Ascii (c :: rest)) (hbackslash : '\\' ∉ rest)
    (hopening : Opening.of c = .other) (hcomment : ¬ ['/', '/'] <+: c :: rest) {mark : Symbol}
    (h : Symbol.first? (c :: rest) = some mark) :
    first? ((c :: rest).map byte) = some (.mark mark, mark.chars.length) := by
  have hlongest : (Pattern.mark mark).longest? ((c :: rest).map byte) =
      some mark.chars.length := by
    have hbytes := (Symbol.first?_leads h).map byte
    rw [longest?, literal?, if_pos (List.isPrefixOf_iff_prefix.2 hbytes), List.length_map]
  have hlength : 1 ≤ mark.chars.length := by cases mark <;> decide
  refine first?_of_opening hsource.head hlongest hlength fun q m hq hm => ?_
  rcases longest?_other hsource hbackslash (hq.trans hopening) hm with
    ⟨s, rfl, hs, rfl⟩ | ⟨_, hslashes⟩ | ⟨rfl, rfl⟩
  · rcases Symbol.first?_longest h hs with hless | rfl
    · exact .inl hless
    · exact .inr ⟨rfl, Nat.le_refl _⟩
  · exact absurd hslashes hcomment
  · have hlast := anyByte_last (.mark mark) (mem_all _)
    by_cases hone : mark.chars.length = 1
    · exact .inr ⟨hone.symm, hlast⟩
    · exact .inl (by omega)

theorem first?_invalid {rest : List Char} (hsource : Ascii (c :: rest)) (hbackslash : '\\' ∉ rest)
    (hopening : Opening.of c = .other) (h : Symbol.first? (c :: rest) = none) :
    first? ((c :: rest).map byte) = some (.anyByte, 1) := by
  have hnone : ∀ s : Symbol, ¬ s.chars <+: c :: rest := by
    intro s hs
    have hnot := List.find?_eq_none.1 h s s.mem_all
    exact hnot (List.isPrefixOf_iff_prefix.2 hs)
  have hnewline : byte c ≠ newline := by
    intro hbyte
    have hc := byte_inj hsource.head (by decide) hbyte
    rw [hc] at hopening
    cases hopening
  have hlongest : Pattern.anyByte.longest? ((c :: rest).map byte) = some 1 := by
    rw [List.map_cons, longest?, if_neg hnewline]
  refine first?_of_opening hsource.head hlongest (by omega) fun q m hq hm => ?_
  rcases longest?_other hsource hbackslash (hq.trans hopening) hm with
    ⟨s, _, hs, _⟩ | ⟨_, hslashes⟩ | ⟨rfl, rfl⟩
  · exact absurd hs (hnone s)
  · have hslash : Symbol.divide.chars <+: c :: rest :=
      (List.prefix_append ['/'] ['/']).trans hslashes
    exact absurd hslash (hnone .divide)
  · exact .inr ⟨rfl, Nat.le_refl _⟩

theorem first?_comment {rest : List Char} (hrest : Ascii rest) (hbackslash : '\\' ∉ rest) :
    first? (('/' :: '/' :: rest).map byte) =
      some (.lineComment, (rest.takeWhile (· ≠ '\n')).length + 2) := by
  have hsource : Ascii ('/' :: '/' :: rest) := by
    intro d hd
    rcases List.mem_cons.1 hd with rfl | hd
    · decide
    rcases List.mem_cons.1 hd with rfl | hd
    · decide
    · exact hrest d hd
  have hline : ∀ d ∈ rest, decide (byte d ≠ newline) = decide (d ≠ '\n') := by
    intro d hd
    have hiff : byte d ≠ newline ↔ d ≠ '\n' := by
      refine not_congr ⟨fun h => byte_inj (hrest d hd) (by decide) h, ?_⟩
      rintro rfl
      rfl
    simp only [hiff]
  have hlongest : Pattern.lineComment.longest? (('/' :: '/' :: rest).map byte) =
      some ((rest.takeWhile (· ≠ '\n')).length + 2) := by
    have hliteral : literal? lineStart (('/' :: '/' :: rest).map byte) = some 2 := by
      rw [literal?, if_pos]
      · rfl
      · rw [List.isPrefixOf_iff_prefix]
        exact List.prefix_append _ (rest.map byte)
    have hdrop : (('/' :: '/' :: rest).map byte).drop 2 = rest.map byte := rfl
    rw [longest?, hliteral, Option.map_some, hdrop, takeWhile_map_byte hline, List.length_map,
      Nat.add_comm]
  refine first?_of_opening (by decide) hlongest (by omega) fun q m hq hm => ?_
  have hrest' : '\\' ∉ '/' :: rest := by simp [hbackslash]
  rcases longest?_other hsource hrest' hq hm with ⟨s, rfl, hs, rfl⟩ | ⟨rfl, _⟩ | ⟨rfl, rfl⟩
  · have hfirst : s.chars.head? = some '/' := by
      obtain ⟨after, hafter⟩ := hs
      cases hchars : s.chars with
      | nil => cases s <;> cases hchars
      | cons d tail =>
        rw [hchars, List.cons_append, List.cons.injEq] at hafter
        rw [hafter.1]
        rfl
    have hdivide : s.chars.length = 1 := by cases s <;> first | rfl | cases hfirst
    exact .inl (by omega)
  · exact .inr ⟨Option.some.inj (hm.symm.trans hlongest), Nat.le_refl _⟩
  · exact .inl (by omega)

end Pattern

end Checker

end LevelScript
