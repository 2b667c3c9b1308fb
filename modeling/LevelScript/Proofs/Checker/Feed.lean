import LevelScript.Proofs.Checker.Scanning

set_option autoImplicit false

namespace LevelScript

open Checker.Pattern (byte)

namespace Checker

open Text (Ascii Bytes)

theorem drop_length_takeWhile {α : Type} (p : α → Bool) (l : List α) :
    l.drop (l.takeWhile p).length = l.dropWhile p := by
  induction l with
  | nil => rfl
  | cons a l ih =>
    by_cases h : p a = true
    · rw [List.takeWhile_cons_of_pos h, List.dropWhile_cons_of_pos h, List.length_cons,
        List.drop_succ_cons, ih]
    · rw [List.takeWhile_cons_of_neg h, List.dropWhile_cons_of_neg h]
      rfl

theorem take_length_takeWhile {α : Type} (p : α → Bool) (l : List α) :
    l.take (l.takeWhile p).length = l.takeWhile p :=
  (List.prefix_iff_eq_take.1 (List.takeWhile_prefix p)).symm

theorem Pattern.exists_char_of_isBlank {b : UInt8} (h : isBlank b = true) :
    ∃ c : Char, c.toNat < 128 ∧ LevelScript.isBlank c = true ∧ byte c = b := by
  simp only [isBlank, newline, Bool.or_eq_true, beq_iff_eq] at h
  rcases h with ((rfl | rfl) | rfl) | rfl
  · exact ⟨' ', by decide, by decide, rfl⟩
  · exact ⟨'\t', by decide, by decide, rfl⟩
  · exact ⟨'\r', by decide, by decide, rfl⟩
  · exact ⟨'\n', by decide, by decide, rfl⟩

theorem Pattern.exists_char_of_isDigit {b : UInt8} (h : isDigit b = true) :
    ∃ c : Char, c.toNat < 128 ∧ c.isDigit = true ∧ byte c = b := by
  have hchars : ∀ n < 256, isDigit (.ofNat n) = true →
      (Char.ofNat n).toNat < 128 ∧ (Char.ofNat n).isDigit = true ∧ byte (Char.ofNat n) = .ofNat n := by
    decide +kernel
  have hchar := hchars b.toNat b.toNat_lt
  rw [UInt8.ofNat_toNat] at hchar
  exact ⟨_, hchar h⟩

/-- Cuts bytes into matches. Blanks and comments give nothing to the feed, and a byte that begins
nothing else ends it. -/
inductive Scans : Bytes → Feed → Prop where
  | finish : Scans [] .finish
  | skip {pattern : Pattern} {text rest : Bytes} {feed : Feed} :
      Pattern.Takes Pattern.language pattern text rest → text ≠ [] →
      pattern.terminal? = none → pattern ≠ .anyByte →
      Scans rest feed → Scans (text ++ rest) feed
  | next {pattern : Pattern} {terminal : Terminal} {text rest : Bytes} {feed : Feed} :
      Pattern.Takes Pattern.language pattern text rest → text ≠ [] →
      pattern.terminal? = some terminal →
      Scans rest feed → Scans (text ++ rest) (.next ⟨terminal, text⟩ feed)
  | invalid {b : UInt8} {rest : Bytes} :
      Pattern.Takes Pattern.language .anyByte [b] rest → Scans (b :: rest) (.invalid b)

namespace Feed

variable {b : UInt8} {bytes : Bytes} {p : Pattern} {n : Nat}

theorem ofBytes_skip (h : Pattern.first? (b :: bytes) = some (p, n)) (hp : p ≠ .anyByte)
    (ht : p.terminal? = none) : ofBytes (b :: bytes) = ofBytes (bytes.drop (n - 1)) := by
  rw [ofBytes, Scanner.take?_eq_first?, h]
  cases p <;> first | rfl | contradiction

theorem ofBytes_next {terminal : Terminal} (h : Pattern.first? (b :: bytes) = some (p, n))
    (ht : p.terminal? = some terminal) :
    ofBytes (b :: bytes) = .next ⟨terminal, (b :: bytes).take n⟩ (ofBytes (bytes.drop (n - 1))) := by
  rw [ofBytes, Scanner.take?_eq_first?, h]
  cases p <;> cases ht <;> rfl

theorem ofBytes_invalid (h : Pattern.first? (b :: bytes) = some (.anyByte, n)) :
    ofBytes (b :: bytes) = .invalid b := by
  rw [ofBytes, Scanner.take?_eq_first?, h]

theorem ofBytes_takes_skip {text rest : Bytes} (h : Pattern.Takes Pattern.language p text rest)
    (hne : text ≠ []) (ht : p.terminal? = none) (hp : p ≠ .anyByte) :
    ofBytes (text ++ rest) = ofBytes rest := by
  obtain ⟨b, tail, rfl⟩ := List.exists_cons_of_ne_nil hne
  have hfirst := h.first?
  rw [List.cons_append] at hfirst ⊢
  rw [ofBytes_skip hfirst hp ht, List.length_cons, Nat.add_sub_cancel, List.drop_left]

theorem ofBytes_takes_next {terminal : Terminal} {text rest : Bytes}
    (h : Pattern.Takes Pattern.language p text rest) (hne : text ≠ [])
    (ht : p.terminal? = some terminal) :
    ofBytes (text ++ rest) = .next ⟨terminal, text⟩ (ofBytes rest) := by
  obtain ⟨b, tail, rfl⟩ := List.exists_cons_of_ne_nil hne
  have hfirst := h.first?
  rw [List.cons_append] at hfirst ⊢
  rw [ofBytes_next hfirst ht, List.length_cons, Nat.add_sub_cancel, List.drop_left,
    List.take_succ_cons, List.take_left]

theorem ofBytes_of_scans {feed : Feed} (h : Scans bytes feed) : ofBytes bytes = feed := by
  induction h with
  | finish => rw [ofBytes]
  | skip htakes hne ht hp _ ih => rw [ofBytes_takes_skip htakes hne ht hp, ih]
  | next htakes hne ht _ ih => rw [ofBytes_takes_next htakes hne ht, ih]
  | invalid htakes => exact ofBytes_invalid htakes.first?

theorem exists_scans (bytes : Bytes) : ∃ feed, Scans bytes feed := by
  -- what is left after a match is shorter
  induction hlength : bytes.length using Nat.strongRecOn generalizing bytes with
  | ind n ih =>
    cases bytes with
    | nil => exact ⟨_, .finish⟩
    | cons b rest =>
      obtain ⟨pattern, text, after, hbytes, hne, htakes, _⟩ := Scanner.take?_cons b rest
      have hshorter : after.length < n := by
        rw [← hlength, hbytes, List.length_append]
        exact Nat.lt_add_of_pos_left (List.length_pos_iff.2 hne)
      obtain ⟨feed, hfeed⟩ := ih after.length hshorter after rfl
      rw [hbytes]
      cases ht : pattern.terminal? with
      | some terminal => exact ⟨_, .next htakes hne ht hfeed⟩
      | none =>
        by_cases hp : pattern = .anyByte
        · subst hp
          obtain ⟨c, _, rfl⟩ := htakes.mem
          exact ⟨_, .invalid htakes⟩
        · exact ⟨_, .skip htakes hne ht hp hfeed⟩

/-- A feed has at each place the longest match of the patterns, and of those that match as much the
one listed first. There is a match at each place with a byte, and it is not empty. -/
theorem scanner_longest_match :
    (∀ bytes feed, Scans bytes feed ↔ ofBytes bytes = feed) ∧
    ∀ b rest, ∃ pattern text after, b :: rest = text ++ after ∧ text ≠ [] ∧
      Pattern.Takes Pattern.language pattern text after ∧
      Scanner.take? (b :: rest) = some (pattern, text.length) := by
  refine ⟨fun bytes feed => ⟨ofBytes_of_scans, ?_⟩, Scanner.take?_cons⟩
  rintro rfl
  obtain ⟨feed, hfeed⟩ := exists_scans bytes
  rwa [ofBytes_of_scans hfeed]

theorem ofBytes_blank_cons (h : Pattern.isBlank b = true) (bytes : Bytes) :
    ofBytes (b :: bytes) = ofBytes bytes := by
  have hskip {d : UInt8} (hd : Pattern.isBlank d = true) (rest : Bytes) :
      ofBytes (d :: rest) = ofBytes (rest.dropWhile Pattern.isBlank) := by
    obtain ⟨c, hc, hblank, rfl⟩ := Pattern.exists_char_of_isBlank hd
    have hfirst := Pattern.first?_blank hc hblank rest
    rw [ofBytes_skip hfirst nofun rfl, Nat.add_sub_cancel, drop_length_takeWhile]
  rw [hskip h]
  cases bytes with
  | nil => rfl
  | cons d rest =>
    by_cases hd : Pattern.isBlank d = true
    · rw [hskip hd, List.dropWhile_cons_of_pos hd]
    · rw [List.dropWhile_cons_of_neg hd]

theorem ofBytes_digits {digits rest : Bytes} (hne : digits ≠ [])
    (hdigits : ∀ b ∈ digits, Pattern.isDigit b = true)
    (hrest : rest.takeWhile Pattern.isDigit = []) :
    ofBytes (digits ++ rest) = .next ⟨.number, digits⟩ (ofBytes rest) := by
  obtain ⟨b, more, rfl⟩ := List.exists_cons_of_ne_nil hne
  obtain ⟨hb, hmore⟩ := List.forall_mem_cons.1 hdigits
  obtain ⟨c, hc, hdigit, rfl⟩ := Pattern.exists_char_of_isDigit hb
  have hfirst := Pattern.first?_digit hc hdigit (more ++ rest)
  rw [List.takeWhile_append_of_pos hmore, hrest, List.append_nil] at hfirst
  rw [List.cons_append, ofBytes_next hfirst rfl, Nat.add_sub_cancel, List.take_succ_cons,
    List.take_left, List.drop_left]

variable {c : Char} {rest : List Char}

theorem ofBytes_blank (hsource : Ascii (c :: rest)) (h : LevelScript.isBlank c = true) :
    ofBytes ((c :: rest).map byte) = ofBytes (rest.map byte) :=
  ofBytes_blank_cons ((Pattern.isBlank_byte hsource.head).trans h) (rest.map byte)

theorem ofBytes_comment (hrest : Ascii rest) (hbackslash : '\\' ∉ rest) :
    ofBytes (('/' :: '/' :: rest).map byte) = ofBytes ((rest.dropWhile (· ≠ '\n')).map byte) := by
  have hfirst := Pattern.first?_comment hrest hbackslash
  have hdrop : (('/' :: rest).map byte).drop ((rest.takeWhile (· ≠ '\n')).length + 2 - 1) =
      (rest.dropWhile (· ≠ '\n')).map byte := by
    rw [Nat.add_sub_assoc (by decide), List.map_cons, List.drop_succ_cons, ← List.map_drop,
      drop_length_takeWhile]
  rw [List.map_cons, ofBytes_skip hfirst nofun rfl, hdrop]

theorem ofBytes_word (hsource : Ascii (c :: rest)) (h : c.isAlpha = true) :
    ofBytes ((c :: rest).map byte) =
      .next ⟨(Token.ofWord (String.ofList (c :: rest.takeWhile Text.isWordChar))).terminal,
        (c :: rest.takeWhile Text.isWordChar).map byte⟩
        (ofBytes ((rest.dropWhile Text.isWordChar).map byte)) := by
  have hfirst := Pattern.first?_letter hsource h
  rw [List.map_cons, ofBytes_next hfirst (Pattern.ofWord_terminal? _), Nat.add_sub_cancel,
    List.take_succ_cons, ← List.map_take, take_length_takeWhile, ← List.map_drop,
    drop_length_takeWhile, List.map_cons]

theorem ofBytes_number (hsource : Ascii (c :: rest)) (h : c.isDigit = true) :
    ofBytes ((c :: rest).map byte) =
      .next ⟨.number, (c :: rest.takeWhile Text.isDigit).map byte⟩
        (ofBytes ((rest.dropWhile Text.isDigit).map byte)) := by
  have hfirst := Pattern.first?_digit hsource.head h (rest.map byte)
  have hdigits : ∀ d ∈ rest, Pattern.isDigit (byte d) = Text.isDigit d := by
    intro d hd
    rw [Pattern.isDigit_byte (hsource.tail d hd), Text.isDigit_ascii (hsource.tail d hd)]
  rw [Pattern.takeWhile_map_byte hdigits, List.length_map] at hfirst
  rw [List.map_cons, ofBytes_next hfirst rfl, Nat.add_sub_cancel, List.take_succ_cons,
    ← List.map_take, take_length_takeWhile, ← List.map_drop, drop_length_takeWhile, List.map_cons]

theorem ofBytes_text {content : List Char} (hcontent : Ascii content)
    (hquote : Text.doubleQuote ∉ content) (hbackslash : '\\' ∉ content) :
    ofBytes ((Text.doubleQuote :: (content ++ Text.doubleQuote :: rest)).map byte) =
      .next ⟨.text, (Text.doubleQuote :: (content ++ [Text.doubleQuote])).map byte⟩
        (ofBytes (rest.map byte)) := by
  have hthrough := (Pattern.throughQuote_map_byte hcontent hquote hbackslash (rest.map byte)).2
  have hbytes : (Text.doubleQuote :: (content ++ Text.doubleQuote :: rest)).map byte =
      byte Text.doubleQuote :: (content.map byte ++ Pattern.quote :: rest.map byte) := by
    simp [Pattern.quote, Text.doubleQuote]
  have hlength : content.length + 1 = (content.map byte ++ [Pattern.quote]).length := by simp
  have hsplit : content.map byte ++ Pattern.quote :: rest.map byte =
      (content.map byte ++ [Pattern.quote]) ++ rest.map byte := by simp
  rw [hbytes, ofBytes_next (Pattern.first?_quoted hthrough) rfl, Nat.add_sub_cancel,
    List.take_succ_cons, hlength, hsplit, List.take_left, List.drop_left]
  simp [Pattern.quote, Text.doubleQuote]

theorem ofBytes_unclosed (hrest : Ascii rest) (hquote : Text.doubleQuote ∉ rest)
    (hbackslash : '\\' ∉ rest) :
    ofBytes ((Text.doubleQuote :: rest).map byte) = .invalid Pattern.quote := by
  have hthrough := (Pattern.throughQuote_map_byte hrest hquote hbackslash []).1
  rw [List.map_cons, ofBytes_invalid (Pattern.first?_unclosed hthrough)]
  rfl

theorem ofBytes_symbol (hsource : Ascii (c :: rest)) (hbackslash : '\\' ∉ rest)
    (hopening : Pattern.Opening.of c = .other) (hcomment : ¬ ['/', '/'] <+: c :: rest)
    {mark : Symbol} (h : Symbol.first? (c :: rest) = some mark) :
    ofBytes ((c :: rest).map byte) =
      .next ⟨.symbol mark, mark.chars.map byte⟩
        (ofBytes (((c :: rest).drop mark.chars.length).map byte)) := by
  have hfirst := Pattern.first?_mark hsource hbackslash hopening hcomment h
  have htake : ((c :: rest).map byte).take mark.chars.length = mark.chars.map byte := by
    rw [← List.map_take, ← List.prefix_iff_eq_take.1 (Symbol.first?_leads h)]
  have hlength : mark.chars.length = mark.chars.length - 1 + 1 := by cases mark <;> rfl
  have hdrop : (rest.map byte).drop (mark.chars.length - 1) =
      ((c :: rest).drop mark.chars.length).map byte := by
    rw [hlength, Nat.add_sub_cancel, List.drop_succ_cons, List.map_drop]
  rw [← hdrop, ← htake]
  exact ofBytes_next hfirst rfl

theorem ofBytes_other (hsource : Ascii (c :: rest)) (hbackslash : '\\' ∉ rest)
    (hopening : Pattern.Opening.of c = .other) (h : Symbol.first? (c :: rest) = none) :
    ofBytes ((c :: rest).map byte) = .invalid (byte c) :=
  ofBytes_invalid (Pattern.first?_invalid hsource hbackslash hopening h)

end Feed

end Checker

end LevelScript
