import LevelScript.Text.Comment
import Mathlib.Data.List.Infix
import Mathlib.Data.List.TakeWhile

set_option autoImplicit false

namespace LevelScript.Text

theorem dropLineComments_inside (source : List Char) :
    dropLineComments true source = dropLineComments false (source.dropWhile (· ≠ '\n')) := by
  induction source with
  | nil => rfl
  | cons c rest ih =>
    by_cases hc : c = '\n'
    · subst hc
      rfl
    · have hdrop : (c :: rest).dropWhile (· ≠ '\n') = rest.dropWhile (· ≠ '\n') :=
        List.dropWhile_cons_of_pos (by simpa using hc)
      rw [hdrop, ← ih, dropLineComments]
      exact hc

theorem dropLineComments_slashes (rest : List Char) :
    dropLineComments false ('/' :: '/' :: rest) =
      dropLineComments false (rest.dropWhile (· ≠ '\n')) :=
  dropLineComments_inside rest

theorem dropLineComments_cons {c : Char} {rest : List Char} (h : ¬ ['/', '/'] <+: c :: rest) :
    dropLineComments false (c :: rest) = c :: dropLineComments false rest := by
  rw [dropLineComments]
  rintro rest' rfl rfl
  exact h (List.prefix_append ['/', '/'] rest')

theorem exists_of_slashes {c : Char} {rest : List Char} (h : ['/', '/'] <+: c :: rest) :
    ∃ after, c = '/' ∧ rest = '/' :: after := by
  obtain ⟨after, hafter⟩ := h
  rw [List.cons_append, List.singleton_append, List.cons.injEq] at hafter
  exact ⟨after, hafter.1.symm, hafter.2.symm⟩

theorem head?_dropLineComments {source : List Char} {c : Char}
    (h : (dropLineComments false source).head? = some c) : c = '\n' ∨ source.head? = some c := by
  cases source with
  | nil => cases h
  | cons d rest =>
    by_cases hslashes : ['/', '/'] <+: d :: rest
    · obtain ⟨after, rfl, rfl⟩ := exists_of_slashes hslashes
      rw [dropLineComments_slashes] at h
      left
      cases hrest : after.dropWhile (· ≠ '\n') with
      | nil =>
        rw [hrest] at h
        cases h
      | cons e last =>
        have he : e = '\n' := by
          have hhead := List.head?_dropWhile_not (· ≠ '\n') after
          rw [hrest] at hhead
          simpa using hhead
        rw [hrest, he] at h
        simpa [dropLineComments] using h.symm
    · rw [dropLineComments_cons hslashes] at h
      exact .inr h

theorem takeWhile_dropLineComments {p : Char → Bool} (hslash : p '/' = false)
    (hline : p '\n' = false) (source : List Char) :
    (dropLineComments false source).takeWhile p = source.takeWhile p ∧
      (dropLineComments false source).dropWhile p =
        dropLineComments false (source.dropWhile p) := by
  induction source with
  | nil => exact ⟨rfl, rfl⟩
  | cons c rest ih =>
    by_cases hc : p c = true
    · have hslashes : ¬ ['/', '/'] <+: c :: rest := by
        intro h
        obtain ⟨after, rfl, _⟩ := exists_of_slashes h
        rw [hslash] at hc
        cases hc
      rw [dropLineComments_cons hslashes, List.takeWhile_cons_of_pos hc,
        List.dropWhile_cons_of_pos hc, List.takeWhile_cons_of_pos hc,
        List.dropWhile_cons_of_pos hc, ih.1, ih.2]
      exact ⟨rfl, rfl⟩
    · rw [List.takeWhile_cons_of_neg hc, List.dropWhile_cons_of_neg hc]
      cases hleft : dropLineComments false (c :: rest) with
      | nil => exact ⟨rfl, rfl⟩
      | cons d left =>
        have hd : ¬ p d = true := by
          have hhead : (dropLineComments false (c :: rest)).head? = some d := by rw [hleft]; rfl
          rcases head?_dropLineComments hhead with rfl | hsame
          · rw [hline]
            exact Bool.false_ne_true
          · cases hsame
            exact hc
        rw [List.takeWhile_cons_of_neg hd, List.dropWhile_cons_of_neg hd]
        exact ⟨rfl, rfl⟩

theorem dropLineComments_append {content rest : List Char} {c : Char} (hc : c ≠ '/')
    (h : ¬ ['/', '/'] <:+: content) :
    dropLineComments false (content ++ c :: rest) =
      content ++ c :: dropLineComments false rest := by
  induction content with
  | nil =>
    apply dropLineComments_cons
    intro hslashes
    obtain ⟨after, hslash, _⟩ := exists_of_slashes hslashes
    exact hc hslash
  | cons d content ih =>
    have hslashes : ¬ ['/', '/'] <+: d :: (content ++ c :: rest) := by
      intro hslashes
      obtain ⟨after, rfl, hafter⟩ := exists_of_slashes hslashes
      cases content with
      | nil => exact hc (List.cons.inj hafter).1
      | cons e content =>
        rw [List.cons_append, List.cons.injEq] at hafter
        rw [hafter.1] at h
        exact h (List.prefix_append ['/', '/'] content).isInfix
    have hcontent : ¬ ['/', '/'] <:+: content :=
      fun hinside => h (hinside.trans (List.suffix_cons d content).isInfix)
    rw [List.cons_append, dropLineComments_cons hslashes, ih hcontent, List.cons_append]

theorem dropLineComments_subset (inside : Bool) (source : List Char) :
    ∀ c ∈ dropLineComments inside source, c ∈ source := by
  fun_induction dropLineComments inside source with
  | case1 => exact fun _ h => h
  | case2 rest ih =>
    intro c hc
    rcases List.mem_cons.1 hc with rfl | hc
    · exact List.mem_cons_self
    · exact List.mem_cons_of_mem _ (ih c hc)
  | case3 d rest _ ih => exact fun c hc => List.mem_cons_of_mem _ (ih c hc)
  | case4 rest ih => exact fun c hc => List.mem_cons_of_mem _ (List.mem_cons_of_mem _ (ih c hc))
  | case5 d rest _ ih =>
    intro c hc
    rcases List.mem_cons.1 hc with rfl | hc
    · exact List.mem_cons_self
    · exact List.mem_cons_of_mem _ (ih c hc)

/-- No `/*` comes about when comments are removed. -/
theorem blockStart_notInfix_dropLineComments (inside : Bool) {source : List Char}
    (h : ¬ ['/', '*'] <:+: source) : ¬ ['/', '*'] <:+: dropLineComments inside source := by
  fun_induction dropLineComments inside source with
  | case1 => exact h
  | case2 rest ih =>
    have hrest := ih fun hinside => h (hinside.trans (List.suffix_cons _ rest).isInfix)
    intro hinside
    rcases List.infix_cons_iff.1 hinside with hleads | hinside
    · cases (List.cons_prefix_cons.1 hleads).1
    · exact hrest hinside
  | case3 d rest _ ih => exact ih fun hinside => h (hinside.trans (List.suffix_cons d rest).isInfix)
  | case4 rest ih =>
    refine ih fun hinside => h (hinside.trans ?_)
    exact (List.suffix_append ['/', '/'] rest).isInfix
  | case5 d rest _ ih =>
    have hrest := ih fun hinside => h (hinside.trans (List.suffix_cons d rest).isInfix)
    intro hinside
    rcases List.infix_cons_iff.1 hinside with hleads | hinside
    · obtain ⟨hslash, hstar⟩ := List.cons_prefix_cons.1 hleads
      -- a star that is left after the slash stood after it before
      have hhead : (dropLineComments false rest).head? = some '*' := by
        obtain ⟨after, hafter⟩ := hstar
        rw [← hafter]
        rfl
      rcases head?_dropLineComments hhead with hline | hsame
      · cases hline
      · cases rest with
        | nil => cases hsame
        | cons e rest =>
          cases hsame
          rw [← hslash] at h
          exact h (List.prefix_append ['/', '*'] rest).isInfix
    · exact hrest hinside

theorem dropBlockComments_eq_self {text : List Char} (h : ¬ ['/', '*'] <:+: text) :
    dropBlockComments false text = text := by
  induction text with
  | nil => rfl
  | cons c rest ih =>
    have hrest := ih fun hinside => h (hinside.trans (List.suffix_cons c rest).isInfix)
    rw [dropBlockComments, hrest]
    rintro after rfl rfl
    exact h (List.prefix_append ['/', '*'] after).isInfix

theorem dropLineComments_eq_self {text : List Char} (h : ¬ ['/', '/'] <:+: text) :
    dropLineComments false text = text := by
  induction text with
  | nil => rfl
  | cons c rest ih =>
    have hrest := ih fun hinside => h (hinside.trans (List.suffix_cons c rest).isInfix)
    rw [dropLineComments_cons fun hleads => h hleads.isInfix, hrest]

theorem uncommented_eq {source : List Char} (h : ¬ ['/', '*'] <:+: source) :
    uncommented source = dropLineComments false source :=
  dropBlockComments_eq_self (blockStart_notInfix_dropLineComments false h)

theorem removeComments_eq_self {source : String} (hline : ¬ ['/', '/'] <:+: source.toList)
    (hblock : ¬ ['/', '*'] <:+: source.toList) : removeComments source = source := by
  rw [removeComments, uncommented_eq hblock, dropLineComments_eq_self hline, String.ofList_toList]

end LevelScript.Text
