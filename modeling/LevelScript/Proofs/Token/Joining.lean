import LevelScript.Proofs.Token.Agreement

set_option autoImplicit false

namespace LevelScript

theorem Text.pair_infix_join {a b : Char} {u v : List Char} (ha : a ≠ '\n') (hb : b ≠ '\n')
    (h : [a, b] <:+: u ++ '\n' :: v) : [a, b] <:+: u ∨ [a, b] <:+: v := by
  induction u with
  | nil =>
    rcases List.infix_cons_iff.1 h with hleads | hinside
    · exact absurd (List.cons_prefix_cons.1 hleads).1 ha
    · exact .inr hinside
  | cons c u ih =>
    rcases List.infix_cons_iff.1 h with hleads | hinside
    · obtain ⟨rfl, hnext⟩ := List.cons_prefix_cons.1 hleads
      cases u with
      | nil => exact absurd (List.cons_prefix_cons.1 hnext).1 hb
      | cons d u =>
        obtain ⟨rfl, _⟩ := List.cons_prefix_cons.1 hnext
        exact .inl (List.prefix_append [a, b] u).isInfix
    · rcases ih hinside with hfirst | hsecond
      · exact .inl (hfirst.trans (List.suffix_cons c u).isInfix)
      · exact .inr hsecond

def Text.joined (first second : String) : String :=
  first ++ "\n" ++ second

theorem Text.toList_joined (first second : String) :
    (joined first second).toList = first.toList ++ '\n' :: second.toList := by
  simp [joined]

structure Text.Commentless (source : String) : Prop where
  line : ¬ ['/', '/'] <:+: source.toList
  block : ¬ ['/', '*'] <:+: source.toList

namespace Text.Commentless

theorem removeComments {source : String} (h : Commentless source) :
    Text.removeComments source = source :=
  removeComments_eq_self h.line h.block

theorem join {first second : String} (h : Commentless first) (h' : Commentless second) :
    Commentless (joined first second) := by
  constructor <;> rw [toList_joined] <;> intro hinside
  · exact (pair_infix_join (by decide) (by decide) hinside).elim h.line h'.line
  · exact (pair_infix_join (by decide) (by decide) hinside).elim h.block h'.block

end Text.Commentless

theorem takeWhile_append_ended {p : Char → Bool} {u v : List Char}
    (h : (u.takeWhile p).length < u.length ∨ v.takeWhile p = []) :
    (u ++ v).takeWhile p = u.takeWhile p := by
  rw [List.takeWhile_append]
  split
  · next hall =>
    rcases h with hshort | hnone
    · omega
    · rw [hnone, List.append_nil]
      exact ((List.takeWhile_prefix p).eq_of_length hall).symm
  · rfl

theorem Lexeme.first_join {c : Char} {rest : List Char} {token : Token} {size : Nat}
    (h : Lexeme.first c rest = .token token size) (v : List Char) :
    Lexeme.first c (rest ++ '\n' :: v) = .token token size ∧ size ≤ rest.length + 1 := by
  have hrun {p : Char → Bool} (hp : p '\n' = false) :
      (rest ++ '\n' :: v).takeWhile p = rest.takeWhile p :=
    takeWhile_append_ended (.inr (List.takeWhile_cons_of_neg (by rw [hp]; decide)))
  have hlength (p : Char → Bool) : (rest.takeWhile p).length ≤ rest.length :=
    (List.takeWhile_prefix p).length_le
  unfold Lexeme.first at h ⊢
  split at h
  · next hstart =>
    have hline : Text.isWordChar '\n' = false := (Text.isWordChar_ascii (by decide)).trans rfl
    rw [if_pos hstart, hrun hline]
    cases h
    exact ⟨rfl, Nat.succ_le_succ (hlength _)⟩
  next hstart =>
  rw [if_neg hstart]
  split at h
  · next hdigit =>
    have hline : Text.isDigit '\n' = false := (Text.isDigit_ascii (by decide)).trans rfl
    rw [if_pos hdigit, hrun hline]
    refine ⟨h, ?_⟩
    dsimp only at h
    split at h
    · cases h
      exact Nat.succ_le_succ (hlength _)
    · cases h
  next hdigit =>
  rw [if_neg hdigit]
  split at h
  · next hquote =>
    dsimp only at h
    split at h
    · next hclosed =>
      cases h
      rw [if_pos hquote, takeWhile_append_ended (.inl hclosed)]
      dsimp only
      rw [if_pos (by rw [List.length_append]; omega)]
      exact ⟨rfl, by omega⟩
    · cases h
  next hquote =>
  rw [if_neg hquote]
  have hsymbol : Symbol.first? (c :: (rest ++ '\n' :: v)) = Symbol.first? (c :: rest) := by
    refine Symbol.first?_congr fun d hd => ?_
    cases rest with
    | nil =>
      have hne : d ≠ '\n' := by
        rintro rfl
        exact absurd hd (by decide)
      simp [Ne.symm hne]
    | cons e rest => rfl
  rw [hsymbol]
  split at h
  · next mark hmark =>
    cases h
    exact ⟨rfl, (Symbol.first?_leads hmark).length_le⟩
  · cases h

namespace TokenStream

theorem scan_position (position other : Nat) (source : List Char) :
    (scan position source).words = (scan other source).words ∧
      (scan position source).fault? = (scan other source).fault? := by
  fun_induction scan position source generalizing other with
  | case1 position =>
    rw [scan]
    exact ⟨rfl, rfl⟩
  | case2 position c rest hblank ih =>
    rw [scan_blank other hblank]
    exact ih (other + 1)
  | case3 position c rest hblank token size hfirst ih =>
    rw [scan_token (by simpa using hblank) hfirst]
    obtain ⟨hwords, hfault⟩ := ih (other + size)
    exact ⟨congrArg (token :: ·) hwords, hfault⟩
  | case4 position c rest hblank cause size hfirst =>
    rw [scan_fault (by simpa using hblank) hfirst]
    exact ⟨rfl, rfl⟩

/-- The tokens of two lines are those of the first one and those of the second. -/
theorem scan_join (position : Nat) (u v : List Char) (h : (scan position u).fault? = none) :
    (scan position (u ++ '\n' :: v)).words = (scan position u).words ++ (scan 0 v).words ∧
      (scan position (u ++ '\n' :: v)).fault? = (scan 0 v).fault? := by
  fun_induction scan position u with
  | case1 position =>
    rw [List.nil_append, scan_blank position (by decide)]
    exact scan_position (position + 1) 0 v
  | case2 position c rest hblank ih =>
    rw [List.cons_append, scan_blank position hblank]
    exact ih h
  | case3 position c rest hblank token size hfirst ih =>
    obtain ⟨hjoined, hsize⟩ := Lexeme.first_join hfirst v
    rw [List.cons_append, scan_token (by simpa using hblank) hjoined,
      List.drop_append_of_le_length (by omega)]
    obtain ⟨hwords, hfault⟩ := ih h
    exact ⟨congrArg (token :: ·) hwords, hfault⟩
  | case4 => cases h

theorem ofSource_joined {first : String} (h : (ofSource first).fault? = none) (second : String) :
    (ofSource (Text.joined first second)).words =
        (ofSource first).words ++ (ofSource second).words ∧
      (ofSource (Text.joined first second)).fault? = (ofSource second).fault? := by
  rw [ofSource, Text.toList_joined]
  exact scan_join 0 first.toList second.toList h

end TokenStream

end LevelScript
