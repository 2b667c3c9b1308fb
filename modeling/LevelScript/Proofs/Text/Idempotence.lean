import LevelScript.Proofs.Text.Scan

set_option autoImplicit false

namespace LevelScript.Text

/-- No comment is in a text: no `//`, and no `/*` that is closed after its two characters. -/
structure CommentFree (text : List Char) : Prop where
  line : ¬ ['/', '/'] <:+: text
  block : ∀ after, '/' :: '*' :: after <:+ text → ¬ ['*', '/'] <:+: after

theorem closesBlock_iff {text : List Char} : closesBlock text = true ↔ ['*', '/'] <:+: text := by
  induction text with
  | nil => simp [closesBlock]
  | cons c rest ih =>
    rw [List.infix_cons_iff]
    by_cases hcloses : ['*', '/'] <+: c :: rest
    · obtain ⟨rfl, after, rfl⟩ := pair_isPrefix.1 hcloses
      simp [closesBlock, hcloses]
    · rw [closesBlock_cons hcloses, ih]
      simp [hcloses]

theorem not_infix_cons {a b c : Char} {rest : List Char} (hhead : ¬ [a, b] <+: c :: rest)
    (hrest : ¬ [a, b] <:+: rest) : ¬ [a, b] <:+: c :: rest := by
  rw [List.infix_cons_iff]
  exact not_or.2 ⟨hhead, hrest⟩

theorem not_infix_of_cons {a b c : Char} {rest : List Char} (h : ¬ [a, b] <:+: c :: rest) :
    ¬ [a, b] <+: c :: rest ∧ ¬ [a, b] <:+: rest := by
  rwa [List.infix_cons_iff, not_or] at h

theorem lineStart_notInfix_dropLineComments (inside : Bool) (source : List Char) :
    ¬ ['/', '/'] <:+: dropLineComments inside source := by
  fun_induction dropLineComments inside source with
  | case1 => simp
  | case2 rest ih => exact not_infix_cons (by simp) ih
  | case3 c rest hc ih => exact ih
  | case4 rest ih => exact ih
  | case5 c rest hc ih =>
    apply not_infix_cons _ ih
    apply pair_dropLineComments (by decide)
    exact not_pair hc

namespace CommentFree

theorem nil : CommentFree [] where
  line := by simp
  block := by simp

theorem cons {c : Char} {text : List Char} (h : CommentFree text)
    (hline : ¬ ['/', '/'] <+: c :: text) (hblock : ¬ ['/', '*'] <+: c :: text) :
    CommentFree (c :: text) where
  line := not_infix_cons hline h.line
  block := by
    intro after hafter
    rcases List.suffix_cons_iff.1 hafter with hhere | hlater
    · rw [← hhere] at hblock
      exact absurd (pair_isPrefix.2 ⟨rfl, after, rfl⟩) hblock
    · exact h.block after hlater

/-- A `/*` that nothing closes is no comment, and neither is another one after it. -/
theorem unclosed {text : List Char} (hline : ¬ ['/', '/'] <:+: '/' :: '*' :: text)
    (hcloses : ¬ closesBlock text = true) : CommentFree ('/' :: '*' :: text) where
  line := hline
  block := by
    intro after hafter hclosed
    apply hcloses
    have hsuffix : after <:+ text := by
      have hlength := hafter.length_le
      apply List.suffix_of_suffix_length_le ((List.suffix_append ['/', '*'] after).trans hafter)
      · exact List.suffix_append ['/', '*'] text
      · simpa using hlength
    exact closesBlock_iff.2 (hclosed.trans hsuffix.isInfix)

end CommentFree

theorem head?_dropBlockComments_of_slash {rest : List Char} (h : ¬ ['/', '/'] <:+: '/' :: rest) :
    (dropBlockComments false rest).head? = rest.head? := by
  cases rest with
  | nil => rfl
  | cons d after =>
    have hd : d ≠ '/' := by
      rintro rfl
      exact (not_infix_of_cons h).1 (pair_isPrefix.2 ⟨rfl, after, rfl⟩)
    rw [dropBlockComments_cons fun hopens => hd (pair_isPrefix.1 hopens).1]
    rfl

theorem pair_dropBlockComments {b c : Char} {rest : List Char}
    (hline : ¬ ['/', '/'] <:+: c :: rest) (h : ¬ ['/', b] <+: c :: rest) :
    ¬ ['/', b] <+: c :: dropBlockComments false rest := by
  rw [pair_isPrefix] at h ⊢
  rintro ⟨rfl, after, hafter⟩
  have hhead := head?_dropBlockComments_of_slash hline
  rw [hafter] at hhead
  obtain ⟨tail, hrest⟩ := List.head?_eq_some_iff.1 hhead.symm
  exact h ⟨rfl, tail, hrest⟩

theorem commentFree_dropBlockComments (inside : Bool) {text : List Char}
    (h : ¬ ['/', '/'] <:+: text) : CommentFree (dropBlockComments inside text) := by
  fun_induction dropBlockComments inside text with
  | case1 => exact .nil
  | case2 rest ih => exact ih (not_infix_of_cons (not_infix_of_cons h).2).2
  | case3 c rest hc ih => exact ih (not_infix_of_cons h).2
  | case4 rest hcloses ih => exact ih (not_infix_of_cons (not_infix_of_cons h).2).2
  | case5 rest hcloses => exact .unclosed h hcloses
  | case6 c rest hc ih =>
    have hrest := not_infix_of_cons h
    apply (ih hrest.2).cons
    · exact pair_dropBlockComments h hrest.1
    · exact pair_dropBlockComments h (not_pair hc)

theorem commentFree_uncommented (source : List Char) : CommentFree (uncommented source) :=
  commentFree_dropBlockComments false (lineStart_notInfix_dropLineComments false source)

theorem CommentFree.uncommented_eq {text : List Char} (h : CommentFree text) :
    uncommented text = text := by
  rw [uncommented, dropLineComments_eq_self h.line]
  have hblock := h.block
  clear h
  induction text with
  | nil => rfl
  | cons c rest ih =>
    have hrest := ih fun after hafter => hblock after (hafter.trans (List.suffix_cons c rest))
    by_cases hopens : ['/', '*'] <+: c :: rest
    · obtain ⟨rfl, after, rfl⟩ := pair_isPrefix.1 hopens
      have hunclosed : ¬ closesBlock after = true := by
        rw [closesBlock_iff]
        exact hblock after (List.suffix_refl _)
      rw [dropBlockComments, if_neg hunclosed]
    · rw [dropBlockComments_cons hopens, hrest]

/-- Removing comments from what is left of a source changes nothing more. What is left has no `//`
and no `/*` that is closed after its two characters, and every text of which this holds is left as
it is. -/
theorem removeComments_idempotent (source : String) :
    removeComments (removeComments source) = removeComments source ∧
      ¬ ['/', '/'] <:+: (removeComments source).toList ∧
      (∀ before after, (removeComments source).toList = before ++ '/' :: '*' :: after →
        ¬ ['*', '/'] <:+: after) ∧
      (removeComments source = source ↔ CommentFree source.toList) := by
  have hleft : CommentFree (removeComments source).toList := by
    rw [removeComments, String.toList_ofList]
    exact commentFree_uncommented source.toList
  have hkept {text : String} (h : CommentFree text.toList) : removeComments text = text := by
    rw [removeComments, h.uncommented_eq, String.ofList_toList]
  refine ⟨hkept hleft, hleft.line, ?_, ?_, hkept⟩
  · intro before after hafter
    exact hleft.block after ⟨before, hafter.symm⟩
  · intro hsame
    rwa [hsame] at hleft

/-- The end of a block comment is the beginning of another `/*` that stays open, a star comes to
stand where a comment was, and a line comment hides an end. -/
theorem removeComments_idempotent_joined :
    removeComments "x/*/*/*y//z*/\n/*/ *" = "x*y\n/*/ *" ∧
      removeComments "x*y\n/*/ *" = "x*y\n/*/ *" ∧
      ¬ ['/', '/'] <:+: "x*y\n/*/ *".toList ∧ ¬ ['*', '/'] <:+: "/ *".toList ∧
      CommentFree "x*y\n/*/ *".toList := by
  have hsource : removeComments "x/*/*/*y//z*/\n/*/ *" = "x*y\n/*/ *" := by decide
  obtain ⟨hagain, hline, hblock, _⟩ := removeComments_idempotent "x/*/*/*y//z*/\n/*/ *"
  rw [hsource] at hagain hline hblock
  have hkept := (removeComments_idempotent "x*y\n/*/ *").2.2.2
  exact ⟨hsource, hagain, hline, hblock "x*y\n".toList "/ *".toList (by decide), hkept.1 hagain⟩

end LevelScript.Text
