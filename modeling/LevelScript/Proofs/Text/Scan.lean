import LevelScript.Proofs.Text.Comment
import LevelScript.Text.Quoted

set_option autoImplicit false

/-!
# Removing comments in one scan

A scan that knows string literals copies them, whatever stands in them. The two passes that remove
comments do not know them, and the first one does not know block comments either. They leave what
the scan leaves if no comment opens in a literal and no `//` stands in a block comment. In a source
without `/*` this is the only case in which they do.
-/

namespace LevelScript.Text

inductive Region where
  | code
  | quoted
  | lineComment
  | blockComment
  deriving DecidableEq, Repr

/-- Outside of comments a double quote begins a string literal or ends it. -/
def Region.after (c : Char) : Region → Region
  | .code => if c = doubleQuote then .quoted else .code
  | .quoted => if c = doubleQuote then .code else .quoted
  | region => region

/-- What one scan leaves of a source: string literals are copied, a `//` outside of them and of
other comments is dropped with the rest of its line, and a `/*` there through the first `*/` after
it, if there is one. -/
def scanned : Region → List Char → List Char
  | _, [] => []
  | .code, '/' :: '/' :: rest => scanned .lineComment rest
  | .code, '/' :: '*' :: rest =>
    if closesBlock rest then scanned .blockComment rest else '/' :: '*' :: scanned .code rest
  | .code, c :: rest => c :: scanned (Region.code.after c) rest
  | .quoted, c :: rest => c :: scanned (Region.quoted.after c) rest
  | .lineComment, '\n' :: rest => '\n' :: scanned .code rest
  | .lineComment, _ :: rest => scanned .lineComment rest
  | .blockComment, '*' :: '/' :: rest => scanned .code rest
  | .blockComment, _ :: rest => scanned .blockComment rest

/-- No comment opens in a string literal, and no `//` stands in a block comment or begins with the
slash that ends it. -/
def apart : Region → List Char → Bool
  | _, [] => true
  | .code, '/' :: '/' :: rest => apart .lineComment rest
  | .code, '/' :: '*' :: rest => apart (if closesBlock rest then .blockComment else .code) rest
  | .code, c :: rest => apart (Region.code.after c) rest
  | .quoted, c :: rest =>
    !List.isPrefixOf ['/', '/'] (c :: rest) && !List.isPrefixOf ['/', '*'] (c :: rest) &&
      apart (Region.quoted.after c) rest
  | .lineComment, '\n' :: rest => apart .code rest
  | .lineComment, _ :: rest => apart .lineComment rest
  | .blockComment, '*' :: '/' :: rest => !List.isPrefixOf ['/'] rest && apart .code rest
  | .blockComment, c :: rest =>
    !List.isPrefixOf ['/', '/'] (c :: rest) && apart .blockComment rest

/-- What the two passes leave of the rest of a source, by what the scan is inside of there. -/
def passed : Region → List Char → List Char
  | .code, source | .quoted, source => uncommented source
  | .lineComment, source => dropBlockComments false (dropLineComments true source)
  | .blockComment, source => dropBlockComments true (dropLineComments false source)

section Pairs

variable {a b c : Char} {rest : List Char}

theorem pair_isPrefix : [a, b] <+: c :: rest ↔ c = a ∧ ∃ after, rest = b :: after := by
  constructor
  · rintro ⟨after, h⟩
    obtain ⟨rfl, rfl⟩ := List.cons.inj h
    exact ⟨rfl, after, rfl⟩
  · rintro ⟨rfl, after, rfl⟩
    exact ⟨after, rfl⟩

theorem not_pair (h : ∀ after, c = a → rest = b :: after → False) : ¬ [a, b] <+: c :: rest := by
  rw [pair_isPrefix]
  rintro ⟨hc, after, hrest⟩
  exact h after hc hrest

theorem not_pair_of_isPrefixOf (h : [a, b].isPrefixOf (c :: rest) = false) :
    ¬ [a, b] <+: c :: rest := by
  rw [← List.isPrefixOf_iff_prefix, h]
  exact Bool.false_ne_true

theorem pair_dropLineComments (hb : b ≠ '\n') (h : ¬ [a, b] <+: c :: rest) :
    ¬ [a, b] <+: c :: dropLineComments false rest := by
  rw [pair_isPrefix] at h ⊢
  rintro ⟨hc, after, hafter⟩
  have hhead : (dropLineComments false rest).head? = some b := by rw [hafter]; rfl
  rcases head?_dropLineComments hhead with hline | hsame
  · exact hb hline
  · obtain ⟨tail, hrest⟩ := List.head?_eq_some_iff.1 hsame
    exact h ⟨hc, tail, hrest⟩

theorem dropBlockComments_cons (h : ¬ ['/', '*'] <+: c :: rest) :
    dropBlockComments false (c :: rest) = c :: dropBlockComments false rest := by
  rw [dropBlockComments]
  rintro after rfl rfl
  exact h (pair_isPrefix.2 ⟨rfl, after, rfl⟩)

theorem dropBlockComments_open_cons (h : ¬ ['*', '/'] <+: c :: rest) :
    dropBlockComments true (c :: rest) = dropBlockComments true rest := by
  rw [dropBlockComments]
  rintro after rfl rfl
  exact h (pair_isPrefix.2 ⟨rfl, after, rfl⟩)

theorem closesBlock_cons (h : ¬ ['*', '/'] <+: c :: rest) :
    closesBlock (c :: rest) = closesBlock rest := by
  rw [closesBlock]
  rintro after rfl rfl
  exact h (pair_isPrefix.2 ⟨rfl, after, rfl⟩)

theorem uncommented_cons (hline : ¬ ['/', '/'] <+: c :: rest)
    (hblock : ¬ ['/', '*'] <+: c :: rest) :
    uncommented (c :: rest) = c :: uncommented rest := by
  rw [uncommented, dropLineComments_cons hline,
    dropBlockComments_cons (pair_dropLineComments (by decide) hblock), uncommented]

end Pairs

theorem closesBlock_of_tail {c : Char} {rest : List Char} (h : closesBlock rest = true) :
    closesBlock (c :: rest) = true := by
  by_cases hcloses : ['*', '/'] <+: c :: rest
  · obtain ⟨rfl, after, rfl⟩ := pair_isPrefix.1 hcloses
    rfl
  · rwa [closesBlock_cons hcloses]

theorem dropBlockComments_of_not_closes {text : List Char} (h : ¬ closesBlock text = true) :
    dropBlockComments false text = text := by
  induction text with
  | nil => rfl
  | cons c rest ih =>
    have hrest : ¬ closesBlock rest = true := fun hrest => h (closesBlock_of_tail hrest)
    by_cases hopens : ['/', '*'] <+: c :: rest
    · obtain ⟨rfl, after, rfl⟩ := pair_isPrefix.1 hopens
      rw [dropBlockComments, if_neg fun hafter => hrest (closesBlock_of_tail hafter)]
    · rw [dropBlockComments_cons hopens, ih hrest]

theorem closesBlock_of_dropLineComments (inside : Bool) {source : List Char}
    (h : closesBlock (dropLineComments inside source) = true) : closesBlock source = true := by
  fun_induction dropLineComments inside source with
  | case1 => exact h
  | case2 rest ih =>
    rw [closesBlock_cons (by simp)] at h
    exact closesBlock_of_tail (ih h)
  | case3 d rest _ ih => exact closesBlock_of_tail (ih h)
  | case4 rest ih => exact closesBlock_of_tail (closesBlock_of_tail (ih h))
  | case5 d rest _ ih =>
    by_cases hcloses : ['*', '/'] <+: d :: rest
    · obtain ⟨rfl, after, rfl⟩ := pair_isPrefix.1 hcloses
      rfl
    · rw [closesBlock_cons (pair_dropLineComments (by decide) hcloses)] at h
      exact closesBlock_of_tail (ih h)

theorem apart_block {c : Char} {rest : List Char} (h : apart .blockComment (c :: rest) = true)
    (hends : ¬ ['*', '/'] <+: c :: rest) :
    ¬ ['/', '/'] <+: c :: rest ∧ apart .blockComment rest = true := by
  rw [apart, Bool.and_eq_true, Bool.not_eq_true'] at h
  · exact ⟨not_pair_of_isPrefixOf h.1, h.2⟩
  · rintro after rfl rfl
    exact hends (pair_isPrefix.2 ⟨rfl, after, rfl⟩)

theorem dropLineComments_blockEnd {rest : List Char}
    (h : apart .blockComment ('*' :: '/' :: rest) = true) :
    dropLineComments false ('*' :: '/' :: rest) = '*' :: '/' :: dropLineComments false rest ∧
      apart .code rest = true := by
  simp only [apart, Bool.and_eq_true, Bool.not_eq_true'] at h
  have hslash : ¬ ['/', '/'] <+: '/' :: rest := by
    rw [pair_isPrefix]
    rintro ⟨_, after, rfl⟩
    cases h.1
  rw [dropLineComments_cons (by simp), dropLineComments_cons hslash]
  exact ⟨rfl, h.2⟩

theorem closesBlock_dropLineComments {source : List Char} (h : apart .blockComment source = true)
    (hcloses : closesBlock source = true) : closesBlock (dropLineComments false source) = true := by
  induction source with
  | nil => cases hcloses
  | cons c rest ih =>
    by_cases hends : ['*', '/'] <+: c :: rest
    · obtain ⟨rfl, after, rfl⟩ := pair_isPrefix.1 hends
      rw [(dropLineComments_blockEnd h).1]
      rfl
    · obtain ⟨hline, hrest⟩ := apart_block h hends
      rw [closesBlock_cons hends] at hcloses
      rw [dropLineComments_cons hline, closesBlock_cons (pair_dropLineComments (by decide) hends)]
      exact ih hrest hcloses

theorem Region.after_outside {region : Region} (h : region ∈ [.code, .quoted]) (c : Char) :
    region.after c ∈ [.code, .quoted] := by
  cases region with
  | code | quoted => rw [after]; split <;> decide
  | lineComment | blockComment => exact absurd h (by decide)

theorem Region.after_ne_block {region : Region} (h : region ∈ [.code, .quoted]) (c : Char) :
    region.after c ≠ .blockComment := by
  intro hsame
  have hafter := after_outside h c
  rw [hsame] at hafter
  exact absurd hafter (by decide)

theorem passed_cons {c : Char} {rest : List Char} {region : Region}
    (hregion : region ∈ [.code, .quoted]) (hline : ¬ ['/', '/'] <+: c :: rest)
    (hblock : ¬ ['/', '*'] <+: c :: rest) :
    passed region (c :: rest) = c :: passed (region.after c) rest := by
  have hpassed {region : Region} (h : region ∈ [.code, .quoted]) (source : List Char) :
      passed region source = uncommented source := by
    cases region <;> first | rfl | exact absurd h (by decide)
  rw [hpassed hregion, hpassed (Region.after_outside hregion c), uncommented_cons hline hblock]

/-- What the passes leave of a source is what the scan leaves. -/
theorem passed_eq_scanned {region : Region} {source : List Char} (h : apart region source = true)
    (hcloses : region = .blockComment → closesBlock source = true) :
    passed region source = scanned region source := by
  fun_induction scanned region source with
  | case1 region => cases region <;> rfl
  | case2 rest ih => exact ih h (Not.elim (by decide))
  | case3 rest hrest ih =>
    rw [apart, if_pos hrest] at h
    have hleft := closesBlock_dropLineComments h hrest
    rw [← ih h fun _ => hrest, passed, uncommented, dropLineComments_cons (by simp),
      dropLineComments_cons (by simp), dropBlockComments, if_pos hleft, passed]
  | case4 rest hrest ih =>
    rw [apart, if_neg hrest] at h
    have hleft : ¬ closesBlock (dropLineComments false rest) = true :=
      fun hleft => hrest (closesBlock_of_dropLineComments false hleft)
    rw [← ih h (Not.elim (by decide)), passed, passed, uncommented, uncommented,
      dropLineComments_cons (by simp), dropLineComments_cons (by simp), dropBlockComments,
      if_neg hleft, dropBlockComments_of_not_closes hleft]
  | case5 c rest hline hblock ih =>
    rw [apart] at h
    · rw [← ih h (Not.elim (Region.after_ne_block (by decide) c))]
      exact passed_cons (by decide) (not_pair hline) (not_pair hblock)
    · exact hline
    · exact hblock
  | case6 c rest ih =>
    rw [apart, Bool.and_eq_true, Bool.and_eq_true, Bool.not_eq_true', Bool.not_eq_true'] at h
    obtain ⟨⟨hline, hblock⟩, h⟩ := h
    rw [← ih h (Not.elim (Region.after_ne_block (by decide) c))]
    exact passed_cons (by decide) (not_pair_of_isPrefixOf hline) (not_pair_of_isPrefixOf hblock)
  | case7 rest ih => exact congrArg ('\n' :: ·) (ih h (Not.elim (by decide)))
  | case8 c rest hc ih =>
    rw [apart] at h
    · rw [← ih h (Not.elim (by decide)), passed, dropLineComments, passed]
      exact hc
    · exact hc
  | case9 rest ih =>
    obtain ⟨hleft, hrest⟩ := dropLineComments_blockEnd h
    rw [← ih hrest (Not.elim (by decide)), passed, passed, hleft, dropBlockComments, uncommented]
  | case10 c rest hends ih =>
    obtain ⟨hline, hrest⟩ := apart_block h (not_pair hends)
    have hlater := hcloses rfl
    rw [closesBlock_cons (not_pair hends)] at hlater
    rw [← ih hrest fun _ => hlater, passed, dropLineComments_cons hline,
      dropBlockComments_open_cons (pair_dropLineComments (by decide) (not_pair hends)), passed]

theorem dropLineComments_inside_cases (source : List Char) :
    dropLineComments true source = [] ∨ ∃ rest, dropLineComments true source = '\n' :: rest := by
  induction source with
  | nil => exact .inl rfl
  | cons c rest ih =>
    by_cases hc : c = '\n'
    · subst hc
      exact .inr ⟨_, rfl⟩
    · rw [dropLineComments]
      · exact ih
      · exact hc

/-- A `//` in a string literal is not copied. -/
theorem passed_slashes_ne (rest copied : List Char) :
    passed .quoted ('/' :: '/' :: rest) ≠ '/' :: copied := by
  change dropBlockComments false (dropLineComments true rest) ≠ '/' :: copied
  rcases dropLineComments_inside_cases rest with hleft | ⟨after, hleft⟩
  · rw [hleft]
    nofun
  · rw [hleft, dropBlockComments_cons (by simp)]
    simp

theorem apart_of_passed_eq {region : Region} {source : List Char}
    (hregion : region ≠ .blockComment) (hblock : ¬ ['/', '*'] <:+: source)
    (h : passed region source = scanned region source) : apart region source = true := by
  have hopens {c : Char} {rest : List Char} (hblock : ¬ ['/', '*'] <:+: c :: rest) :
      ¬ ['/', '*'] <+: c :: rest ∧ ¬ ['/', '*'] <:+: rest :=
    ⟨fun hprefix => hblock hprefix.isInfix,
      fun hinside => hblock (hinside.trans (List.suffix_cons c rest).isInfix)⟩
  fun_induction scanned region source with
  | case1 region => cases region <;> rfl
  | case2 rest ih => exact ih nofun (hopens (hopens hblock).2).2 h
  | case3 rest | case4 rest => exact absurd (pair_isPrefix.2 ⟨rfl, rest, rfl⟩) (hopens hblock).1
  | case5 c rest hline hstar ih =>
    rw [apart]
    · apply ih (Region.after_ne_block (by decide) c) (hopens hblock).2
      rw [passed_cons (by decide) (not_pair hline) (not_pair hstar)] at h
      exact (List.cons.inj h).2
    · exact hline
    · exact hstar
  | case6 c rest ih =>
    by_cases hline : ['/', '/'] <+: c :: rest
    · obtain ⟨rfl, after, rfl⟩ := pair_isPrefix.1 hline
      exact absurd h (passed_slashes_ne after _)
    · have hrest : apart (Region.quoted.after c) rest = true := by
        apply ih (Region.after_ne_block (by decide) c) (hopens hblock).2
        rw [passed_cons (by decide) hline (hopens hblock).1] at h
        exact (List.cons.inj h).2
      rw [← List.isPrefixOf_iff_prefix] at hline
      have hstar := (hopens hblock).1
      rw [← List.isPrefixOf_iff_prefix] at hstar
      simp only [apart, hline, hstar, hrest]
      rfl
  | case7 rest ih => exact ih nofun (hopens hblock).2 (List.cons.inj h).2
  | case8 c rest hc ih =>
    rw [apart]
    · apply ih nofun (hopens hblock).2
      rw [← h, passed, passed, dropLineComments]
      exact hc
    · exact hc
  | case9 | case10 => exact absurd rfl hregion

/-- Removing comments leaves what one scan leaves that copies string literals, if no comment opens
in a literal and no `//` stands in a block comment or begins with its last slash; and for a source
in which no `/*` stands, in no other case. -/
theorem removeComments_scanned (source : String) :
    (apart .code source.toList = true →
      removeComments source = String.ofList (scanned .code source.toList)) ∧
    (¬ ['/', '*'] <:+: source.toList →
      removeComments source = String.ofList (scanned .code source.toList) →
      apart .code source.toList = true) := by
  constructor
  · intro h
    exact congrArg String.ofList (passed_eq_scanned h nofun)
  · intro hblock h
    exact apart_of_passed_eq nofun hblock (String.ofList_injective h)

/-- A quote in a block comment and one in a line comment begin no literal, and a slash or a star in
a literal opens no comment. -/
theorem removeComments_scanned_mixed :
    apart .code "a = \"/ *\"; /* \" */ b = 1; // \"\nc;".toList = true ∧
      removeComments "a = \"/ *\"; /* \" */ b = 1; // \"\nc;" = "a = \"/ *\";  b = 1; \nc;" ∧
      ¬ ['/', '*'] <:+: "a = \"b\"; // \"".toList ∧
      apart .code "a = \"b\"; // \"".toList = true := by
  have happart : apart .code "a = \"/ *\"; /* \" */ b = 1; // \"\nc;".toList = true := by decide
  have hblock : ¬ ['/', '*'] <:+: "a = \"b\"; // \"".toList := by decide
  exact ⟨happart, ((removeComments_scanned _).1 happart).trans (by decide), hblock,
    (removeComments_scanned _).2 hblock (by decide)⟩

/-- The scan copies an address in a literal, but it is taken for a comment. -/
theorem address_not_copied :
    String.ofList (scanned .code "say(\"http://a\");".toList) = "say(\"http://a\");" ∧
      removeComments "say(\"http://a\");" = "say(\"http:" := by
  decide

end LevelScript.Text
