import LevelScript.Folder
import Mathlib.Data.List.TakeWhile

set_option autoImplicit false

namespace LevelScript

def lastName (path : List Char) : List Char :=
  (path.reverse.takeWhile (· ≠ '/')).reverse

theorem slash_notMem_lastName (path : List Char) : '/' ∉ lastName path := by
  intro hmem
  have hslash := List.mem_takeWhile_imp (List.mem_reverse.1 hmem)
  simp at hslash

theorem lastName_append {path name : List Char} (h : '/' ∉ name) :
    lastName (path ++ name) = lastName path ++ name := by
  have hname : ∀ c ∈ name.reverse, decide (c ≠ '/') = true := by
    intro c hc
    rw [decide_eq_true_eq]
    rintro rfl
    exact h (List.mem_reverse.1 hc)
  rw [lastName, List.reverse_append, List.takeWhile_append_of_pos hname, List.reverse_append,
    List.reverse_reverse, lastName]

def IsFolderPart (part : List Char) : Prop :=
  part = [] ∨ ∃ before, part = before ++ ['/']

theorem exists_folderPart (path : List Char) :
    ∃ part, IsFolderPart part ∧ path = part ++ lastName path := by
  refine ⟨(path.reverse.dropWhile (· ≠ '/')).reverse, ?_, ?_⟩
  · cases hrest : path.reverse.dropWhile (· ≠ '/') with
    | nil => exact .inl rfl
    | cons c rest =>
      have hc : c = '/' := by
        have hhead := List.head?_dropWhile_not (fun c => decide (c ≠ '/')) path.reverse
        rw [hrest] at hhead
        simpa using hhead
      exact .inr ⟨rest.reverse, by rw [hc, List.reverse_cons]⟩
  · rw [lastName, ← List.reverse_append, List.takeWhile_append_dropWhile, List.reverse_reverse]

/-- `Splits path root extension`: the extension is what the last name of the path has from its last
dot on, if another character than a dot stands before that in the name. -/
inductive Splits : (path root extension : List Char) → Prop where
  | dotted {root rest : List Char} :
      '.' ∉ rest → '/' ∉ rest → (∃ c ∈ lastName root, c ≠ '.') →
      Splits (root ++ '.' :: rest) root ('.' :: rest)
  | plain {path : List Char} :
      (∀ root rest, path = root ++ '.' :: rest → '/' ∉ rest → ∀ c ∈ lastName root, c = '.') →
      Splits path path []

namespace Splits

variable {path root extension : List Char}

theorem joined (h : Splits path root extension) : path = root ++ extension := by
  cases h with
  | dotted => rfl
  | plain => exact (List.append_nil _).symm

theorem slash_notMem (h : Splits path root extension) : '/' ∉ extension := by
  cases h with
  | dotted _ hslash _ =>
    rw [List.mem_cons, not_or]
    exact ⟨by decide, hslash⟩
  | plain => exact List.not_mem_nil

theorem append_dot_cases {root rest root' rest' : List Char} (hrest : '.' ∉ rest)
    (h : root ++ '.' :: rest = root' ++ '.' :: rest') :
    root = root' ∧ rest = rest' ∨ ∃ middle, root = root' ++ '.' :: middle ∧
      rest' = middle ++ '.' :: rest := by
  rcases List.append_eq_append_iff.1 h with ⟨more, hroot, hmore⟩ | ⟨more, hroot, hmore⟩
  · cases more with
    | nil =>
      rw [List.nil_append, List.cons.injEq] at hmore
      exact .inl ⟨by rw [hroot, List.append_nil], hmore.2⟩
    | cons c more =>
      rw [List.cons_append, List.cons.injEq] at hmore
      exact absurd (hmore.2 ▸ List.mem_append_right more List.mem_cons_self) hrest
  · cases more with
    | nil =>
      rw [List.nil_append, List.cons.injEq] at hmore
      exact .inl ⟨by rw [hroot, List.append_nil], hmore.2.symm⟩
    | cons c more =>
      rw [List.cons_append, List.cons.injEq] at hmore
      exact .inr ⟨more, by rw [hroot, hmore.1], hmore.2⟩

theorem unique {root' extension' : List Char} (h : Splits path root extension)
    (h' : Splits path root' extension') : root = root' ∧ extension = extension' := by
  have impossible {root rest path : List Char} (hslash : '/' ∉ rest)
      (hnamed : ∃ c ∈ lastName root, c ≠ '.') (hpath : path = root ++ '.' :: rest)
      (hplain : ∀ root rest, path = root ++ '.' :: rest → '/' ∉ rest →
        ∀ c ∈ lastName root, c = '.') : False := by
    obtain ⟨c, hc, hne⟩ := hnamed
    exact hne (hplain root rest hpath hslash c hc)
  cases h with
  | @dotted root rest hrest hslash hnamed =>
    generalize hpath : root ++ '.' :: rest = path at h'
    cases h' with
    | @dotted root' rest' hrest' _ _ =>
      rcases append_dot_cases hrest hpath with ⟨rfl, rfl⟩ | ⟨middle, _, hmiddle⟩
      · exact ⟨rfl, rfl⟩
      · exact absurd (hmiddle ▸ List.mem_append_right middle List.mem_cons_self) hrest'
    | plain hplain => exact (impossible hslash hnamed hpath.symm hplain).elim
  | plain hplain =>
    cases h' with
    | dotted _ hslash hnamed => exact (impossible hslash hnamed rfl hplain).elim
    | plain => exact ⟨rfl, rfl⟩

end Splits

theorem dropWhile_dot {before : List Char} (h : '/' ∉ before) (after : List Char) :
    ∃ rest, (before ++ '.' :: after).dropWhile (fun c => c ≠ '.' ∧ c ≠ '/') = '.' :: rest := by
  induction before with
  | nil => exact ⟨after, by simp⟩
  | cons c before ih =>
    rw [List.mem_cons, not_or] at h
    by_cases hdot : c = '.'
    · exact ⟨before ++ '.' :: after, by simp [hdot]⟩
    · obtain ⟨rest, hrest⟩ := ih h.2
      refine ⟨rest, ?_⟩
      rw [List.cons_append, List.dropWhile_cons_of_pos (by simp [hdot, Ne.symm h.1]), hrest]

theorem stemChars_splits (path : List Char) :
    ∃ extension, Splits path (stemChars path) extension := by
  let passed := path.reverse.takeWhile fun c => decide (c ≠ '.' ∧ c ≠ '/')
  have hpassed : ∀ c ∈ passed.reverse, c ≠ '.' ∧ c ≠ '/' := by
    intro c hc
    simpa using List.mem_takeWhile_imp (List.mem_reverse.1 hc)
  have hsplit := List.takeWhile_append_dropWhile (p := fun c => decide (c ≠ '.' ∧ c ≠ '/'))
    (l := path.reverse)
  rw [stemChars]
  split
  · next before hbefore =>
    rw [hbefore] at hsplit
    have hpath : path = before.reverse ++ '.' :: passed.reverse := by
      rw [← List.reverse_reverse path, ← hsplit]
      simp [passed]
    have hdot : '.' ∉ passed.reverse := fun hmem => (hpassed _ hmem).1 rfl
    have hslash : '/' ∉ passed.reverse := fun hmem => (hpassed _ hmem).2 rfl
    have hname : lastName before.reverse = (before.takeWhile (· ≠ '/')).reverse := by
      rw [lastName, List.reverse_reverse]
    split
    · next hany =>
      refine ⟨'.' :: passed.reverse, ?_⟩
      rw [hpath]
      refine .dotted hdot hslash ?_
      obtain ⟨c, hc, hne⟩ := List.any_eq_true.1 hany
      exact ⟨c, by rw [hname]; exact List.mem_reverse.2 hc, by simpa using hne⟩
    · next hall =>
      refine ⟨[], .plain fun root rest hjoined hrest c hc => ?_⟩
      -- the name before the last dot has dots only, and so has each beginning of it
      have hdots : ∀ c ∈ lastName before.reverse, c = '.' := by
        intro c hc
        rw [hname, List.mem_reverse] at hc
        by_contra hne
        exact hall (List.any_eq_true.2 ⟨c, hc, by simpa using hne⟩)
      rcases Splits.append_dot_cases hdot (hpath.symm.trans hjoined) with
        ⟨hroot, _⟩ | ⟨middle, hroot, hmiddle⟩
      · exact hdots c (hroot ▸ hc)
      · refine hdots c ?_
        have hslashes : '/' ∉ '.' :: middle := by
          rw [List.mem_cons, not_or]
          exact ⟨by decide, fun hmem => hrest (hmiddle ▸ List.mem_append_left _ hmem)⟩
        rw [hroot, lastName_append hslashes]
        exact List.mem_append_left _ hc
  · next hother =>
    refine ⟨[], .plain fun root rest hjoined hrest => ?_⟩
    have hslash : '/' ∉ rest.reverse := fun hmem => hrest (List.mem_reverse.1 hmem)
    obtain ⟨after, hafter⟩ := dropWhile_dot hslash root.reverse
    refine absurd ?_ (hother after)
    rw [hjoined, List.reverse_append, List.reverse_cons, List.append_assoc, List.singleton_append]
    exact hafter

theorem splits_iff {path root : List Char} :
    (∃ extension, Splits path root extension) ↔ root = stemChars path := by
  obtain ⟨extension, hstem⟩ := stemChars_splits path
  constructor
  · rintro ⟨_, h⟩
    exact (h.unique hstem).1
  · rintro rfl
    exact ⟨extension, hstem⟩

theorem Path.ofString_ofList {part : List Char} (h : IsFolderPart part) :
    ∃ parents, ∀ name, '/' ∉ name →
      Path.ofString (String.ofList (part ++ name)) = parents ++ [String.ofList name] := by
  rcases h with rfl | ⟨before, rfl⟩
  · refine ⟨[], fun name hname => ?_⟩
    rw [ofString, String.toList_ofList, List.nil_append, List.splitOn_eq_singleton hname]
    rfl
  · refine ⟨(before.splitOn '/').map String.ofList, fun name hname => ?_⟩
    rw [ofString, String.toList_ofList, List.append_assoc, List.singleton_append,
      List.splitOn_append_cons_self, List.splitOn_eq_singleton hname, List.map_append]
    rfl

def Place.path? : Place → Option Path
  | .file path | .vacant path => some path
  | .folder => none

namespace Folder

variable {folder : Folder}

theorem walk_concat (folder : Folder) (base : Path) (parents : List String) :
    ∃ reached : Except FileFault Path, ∀ name,
      folder.walk base (parents ++ [name]) =
        reached.bind fun base => folder.walk base [name] := by
  induction parents generalizing base with
  | nil => exact ⟨.ok base, fun name => rfl⟩
  | cons component parents ih =>
    -- the last name comes after this one, so no branch for a last component is taken
    have hmore (name : String) : (parents ++ [name]).isEmpty = false := by simp
    simp only [List.cons_append, walk.eq_def folder base (component :: _), hmore]
    split
    · exact ih base
    split
    · exact ih base.dropLast
    split
    · exact ⟨.error .nameTooLong, fun name => rfl⟩
    split
    · exact ⟨.error .notFolder, fun name => rfl⟩
    split
    · exact ih (base ++ [component])
    · exact ⟨.error .missing, fun name => rfl⟩

theorem walk_name {base : Path} {name : String} {found : Place} {place : Path}
    (h : folder.walk base [name] = .ok found) (hplace : found.path? = some place) :
    place = base ++ [name] := by
  have hfolder {base : Path} (h : folder.walk base [] = .ok found) : False := by
    rw [walk] at h
    cases h
    cases hplace
  rw [walk.eq_def] at h
  dsimp only at h
  split at h
  · exact (hfolder h).elim
  split at h
  · exact (hfolder h).elim
  split at h
  · cases h
  split at h
  · cases h
    cases hplace
    rfl
  split at h
  · exact (hfolder h).elim
  · cases h
    cases hplace
    rfl

def origin (folder : Folder) (path : List Char) : Path :=
  if path.head? = some '/' then [] else folder.working

theorem origin_append {part name name' : List Char} (hpart : IsFolderPart part) (hname : '/' ∉ name)
    (hname' : '/' ∉ name') : folder.origin (part ++ name) = folder.origin (part ++ name') := by
  have hrelative {name : List Char} (hname : '/' ∉ name) : folder.origin name = folder.working := by
    refine if_neg fun hhead => hname ?_
    exact List.mem_of_mem_head? hhead
  rcases hpart with rfl | ⟨before, rfl⟩
  · rw [List.nil_append, List.nil_append, hrelative hname, hrelative hname']
  · cases before <;> rfl

theorem locate_walk {path : List Char} {found : Place}
    (h : folder.locate (String.ofList path) = .ok found) :
    folder.walk (folder.origin path) (Path.ofString (String.ofList path)) = .ok found := by
  rw [locate, String.toList_ofList] at h
  rw [origin]
  split at h
  · cases h
  split at h
  · cases h
  split at h
  · cases h
  split at h
  · next hhead => rwa [if_pos hhead]
  · next hhead => rwa [if_neg hhead]

/-- `folder.Opens path place`: a file is written at the path by writing it to the place. -/
def Opens (folder : Folder) (path : String) (place : Path) : Prop :=
  ∃ found, folder.locate path = .ok found ∧ found.path? = some place

/-- Paths that differ in their last names lead to places in one folder. -/
theorem Opens.beside {part name name' : List Char} {place place' : Path}
    (h : folder.Opens (String.ofList (part ++ name)) place)
    (h' : folder.Opens (String.ofList (part ++ name')) place') (hpart : IsFolderPart part)
    (hname : '/' ∉ name) (hname' : '/' ∉ name') :
    ∃ above, place = above ++ [String.ofList name] ∧ place' = above ++ [String.ofList name'] := by
  obtain ⟨found, hlocate, hplace⟩ := h
  obtain ⟨found', hlocate', hplace'⟩ := h'
  obtain ⟨parents, hparents⟩ := Path.ofString_ofList hpart
  obtain ⟨reached, hreached⟩ := folder.walk_concat (folder.origin (part ++ name)) parents
  have hwalk := locate_walk hlocate
  have hwalk' := locate_walk hlocate'
  rw [hparents name hname, hreached] at hwalk
  rw [hparents name' hname', ← origin_append hpart hname hname', hreached] at hwalk'
  cases reached with
  | error cause => cases hwalk
  | ok base => exact ⟨base, walk_name hwalk hplace, walk_name hwalk' hplace'⟩

theorem Opens.unique {path : String} {place place' : Path} (h : folder.Opens path place)
    (h' : folder.Opens path place') : place = place' := by
  obtain ⟨found, hlocate, hplace⟩ := h
  obtain ⟨found', hlocate', hplace'⟩ := h'
  cases hlocate.symm.trans hlocate'
  exact Option.some.inj (hplace.symm.trans hplace')

theorem write_cases (folder : Folder) (path : String) (content : Text.Bytes) :
    (∃ place, folder.Opens path place ∧
      folder.write path content = .ok (folder.put place content)) ∨
    (∀ place, ¬ folder.Opens path place) ∧ ∃ cause, folder.write path content = .error cause := by
  cases hlocate : folder.locate path with
  | error cause =>
    refine .inr ⟨?_, cause, by rw [write, hlocate]; rfl⟩
    rintro place ⟨found, hfound, _⟩
    cases hlocate.symm.trans hfound
  | ok found =>
    cases found with
    | file place | vacant place =>
      exact .inl ⟨place, ⟨_, hlocate, rfl⟩, by rw [write, hlocate]; rfl⟩
    | folder =>
      refine .inr ⟨?_, .isFolder, by rw [write, hlocate]; rfl⟩
      rintro place ⟨found, hfound, hplace⟩
      cases hlocate.symm.trans hfound
      cases hplace

theorem file?_replaced (folder : Folder) (place other : Path) (content : Text.Bytes) :
    Folder.file? { folder with
        files := folder.files.map fun entry =>
          if entry.1 = place then (place, content) else entry } other =
      (folder.file? other).map fun old => if other = place then content else old := by
  have hplaces : (fun entry : Path × Text.Bytes => decide (entry.1 = other)) ∘
      (fun entry => if entry.1 = place then (place, content) else entry) =
      fun entry => decide (entry.1 = other) := by
    funext entry
    by_cases hentry : entry.1 = place <;> simp [hentry]
  rw [file?, List.find?_map, hplaces, file?]
  cases hfound : folder.files.find? fun entry => decide (entry.1 = other) with
  | none => rfl
  | some entry =>
    have hentry : entry.1 = other := by simpa using List.find?_some hfound
    by_cases hother : other = place <;> simp [hentry, hother]

theorem file?_put (folder : Folder) (place other : Path) (content : Text.Bytes) :
    (folder.put place content).file? other =
      if other = place then some content else folder.file? other := by
  rw [put]
  split
  · next hsome =>
    rw [file?_replaced]
    by_cases hother : other = place
    · obtain ⟨old, hold⟩ := Option.isSome_iff_exists.1 hsome
      simp [hother, hold]
    · simp [hother]
  · next hnone =>
    have hvacant : folder.file? place = none := by simpa using hnone
    rw [file?] at hvacant
    rw [file?, List.find?_append, Option.map_or]
    by_cases hother : other = place
    · simp [hother, hvacant]
    · simp [hother, Ne.symm hother, file?]

end Folder

end LevelScript
