import LevelScript.Proofs.Checker.Residue

set_option autoImplicit false

/-!
# What the scanner takes

A state of the scanner stands for the patterns that can still match when it is reached. The table
keeps this with every byte, which is tested at some bytes of each state that stand for all. So the
scanner knows at each state which pattern matches what has been read, and it stops only where no
pattern can match any more: what it takes is the longest match.
-/

namespace LevelScript.Checker

open Text (Bytes)
open Pattern (byte Takes)

namespace ByteSet

def byte? : ByteSet → Option UInt8
  | .byte c => some (Pattern.byte c)
  | _ => none

/-- Bytes that stand for all of their class. -/
def proxies : List UInt8 :=
  [' ', '0', 'A', '#'].map Pattern.byte

def proxy (b : UInt8) : UInt8 :=
  if b = Pattern.newline ∨ b = Pattern.quote ∨ b = Pattern.backslash ∨ b = Pattern.byte '_' then b
  else if Pattern.isBlank b then Pattern.byte ' '
  else if Pattern.isDigit b then Pattern.byte '0'
  else if Pattern.isLetter b then Pattern.byte 'A'
  else Pattern.byte '#'

theorem contains_proxy {set : ByteSet} (h : set.byte? = none) (b : UInt8) :
    set.contains (proxy b) = set.contains b := by
  have hbytes : ∀ n < 256, ∀ set ∈ [blank, digit, letter, nameByte, plain, inLine],
      set.contains (proxy (.ofNat n)) = set.contains (.ofNat n) := by
    decide +kernel
  rw [← UInt8.ofNat_toNat (x := b)]
  refine hbytes b.toNat b.toNat_lt set ?_
  cases set with
  | byte c => cases h
  | _ => decide

theorem proxy_eq_or_mem (b : UInt8) : proxy b = b ∨ proxy b ∈ proxies := by
  unfold proxy
  split_ifs
  · exact .inl rfl
  all_goals exact .inr (by decide)

def samples (sets : List ByteSet) : List UInt8 :=
  ['\n', ' ', '0', 'A', '_', '\x22', '\\', '#'].map Pattern.byte ++ sets.filterMap byte?

theorem proxy_mem_samples (sets : List ByteSet) (b : UInt8) : proxy b ∈ samples sets := by
  refine List.mem_append_left _ ?_
  unfold proxy
  split_ifs with hself
  · rcases hself with rfl | rfl | rfl | rfl <;> decide
  all_goals decide

theorem exists_sample {sets : List ByteSet} (hproxies : ∀ b ∈ sets.filterMap byte?, b ∉ proxies)
    (b : UInt8) : ∃ c ∈ samples sets, ∀ set ∈ sets, set.contains b = set.contains c := by
  by_cases hb : b ∈ sets.filterMap byte?
  · exact ⟨b, List.mem_append_right _ hb, fun _ _ => rfl⟩
  refine ⟨proxy b, proxy_mem_samples sets b, fun set hset => ?_⟩
  cases set with
  | byte c =>
    -- neither the byte nor its proxy is one of those that stand alone
    have hc : Pattern.byte c ∈ sets.filterMap byte? := List.mem_filterMap.2 ⟨_, hset, rfl⟩
    have hbyte : b ≠ Pattern.byte c := fun h => hb (h ▸ hc)
    have hproxy : proxy b ≠ Pattern.byte c := by
      rcases proxy_eq_or_mem b with hself | hmem
      · rwa [hself]
      · exact fun h => hproxies _ hc (h ▸ hmem)
    rw [Bool.eq_iff_iff, contains_byte, contains_byte]
    exact iff_of_false hbyte hproxy
  | _ => exact (contains_proxy rfl b).symm

end ByteSet

namespace Scanner

def entries : List (Nat × Char) :=
  [(0, '#'), (0, ' '), (0, '\n'), (0, '!'), (0, '\x22'), (0, '&'), (0, '('), (0, ')'), (0, '*'),
   (0, '+'), (0, ','), (0, '-'), (0, '/'), (0, '0'), (0, ':'), (0, ';'), (0, '<'), (0, '='),
   (0, '>'), (0, 'A'), (0, '['), (0, ']'), (0, 'a'), (0, 'b'), (0, 'd'), (0, 'e'), (0, 'f'),
   (0, 'g'), (0, 'i'), (0, 'l'), (0, 'm'), (0, 'n'), (0, 'r'), (0, 's'), (0, 't'), (0, 'u'),
   (0, 'w'), (0, '\x7b'), (0, '|'), (0, '\x7d'), (2, ' '), (4, '='), (5, '#'), (5, '\x22'),
   (5, '\\'), (6, '&'), (13, '/'), (13, '\\'), (14, '0'), (17, '='), (18, '='), (19, '='),
   (20, '0'), (23, 'r'), (23, 't'), (24, 'o'), (25, 'u'), (26, 'l'), (26, 'n'), (27, 'a'),
   (27, 'u'), (28, 'a'), (29, 'f'), (30, 'e'), (31, 'o'), (32, 'u'), (33, 'e'), (34, 'a'),
   (35, 'e'), (35, 'r'), (36, 'n'), (36, 's'), (37, 'a'), (39, '|'), (47, '#'), (48, '*'),
   (54, 'r'), (55, 't'), (56, 'o'), (57, 'r'), (58, 's'), (59, 't'), (60, 'l'), (61, 'n'),
   (62, 't'), (64, 'n'), (65, 'v'), (66, 'm'), (67, 't'), (68, 'y'), (69, 'x'), (70, 'u'),
   (71, 't'), (72, 'e'), (73, 'i'), (76, '#'), (76, '\\'), (77, 'a'), (78, 'a'), (79, 'l'),
   (80, 'i'), (81, 'e'), (82, 'i'), (83, 's'), (84, 'c'), (85, 'h'), (87, 'e'), (88, 'b'),
   (89, 'u'), (91, 't'), (92, 'e'), (93, 'i'), (95, 't'), (97, '*'), (97, 'n'), (98, 'y'),
   (99, 'c'), (100, 'e'), (101, 'n'), (103, 't'), (104, 'e'), (106, 'e'), (108, 'e'), (109, 'r'),
   (112, 'l'), (114, '/'), (117, 'k'), (118, 'a'), (119, 'g'), (120, 'y'), (122, 'r'), (123, 'r'),
   (124, 'n'), (128, 'n')]

@[irreducible] def labels : List Live :=
  entries.foldl
    (fun before entry => before ++ [Live.after (before[entry.1]?.getD []) (byte entry.2)])
    [Live.all]

def label (state : Nat) : Live :=
  labels[state]?.getD []

def moves (state : Nat) : List (ByteSet × Nat) :=
  (rows[state]?.map Row.moves).getD []

def sets (state : Nat) : List ByteSet :=
  (moves state).map Prod.fst ++ (label state).sets

/-- At the samples of a state the table goes where the residues go, and it accepts the first pattern
that matches what has been read. -/
def agrees (state : Nat) : Bool :=
  ((sets state).filterMap ByteSet.byte?).all (fun b => b ∉ ByteSet.proxies) &&
  ((ByteSet.samples (sets state)).all fun b =>
    (label state).after b = ((next? state b).map label).getD []) &&
  (accepts? state).all (fun p => p ∈ (label state).done) &&
  (label state).done.all fun q => (accepts? state).any fun p =>
    Pattern.all.idxOf p ≤ Pattern.all.idxOf q

theorem table_agrees : ∀ state < 135, agrees state = true := by
  decide +kernel

theorem length_labels : labels.length = 135 := by
  decide +kernel

theorem label_start : label start = Live.all := by
  decide +kernel

theorem length_rows : rows.length = 135 := by
  decide +kernel

variable {state : Nat} {b : UInt8}

theorem label_of_le (h : 135 ≤ state) : label state = [] := by
  rw [label, List.getElem?_eq_none (by rwa [length_labels])]
  rfl

theorem row_of_le (h : 135 ≤ state) : rows[state]? = none :=
  List.getElem?_eq_none (by rwa [length_rows])

theorem next?_eq (state : Nat) (b : UInt8) : next? state b = ByteSet.move? (moves state) b := by
  unfold next? moves
  cases rows[state]? <;> rfl

/-- The table leads from state to state as the bytes lead from residue to residue. -/
theorem after_label (state : Nat) (b : UInt8) :
    (label state).after b = ((next? state b).map label).getD [] := by
  by_cases hstate : state < 135
  · have hagrees := table_agrees state hstate
    simp only [agrees, Bool.and_eq_true, List.all_eq_true, decide_eq_true_eq] at hagrees
    obtain ⟨⟨⟨hproxies, hsamples⟩, _⟩, _⟩ := hagrees
    obtain ⟨c, hc, hsame⟩ := ByteSet.exists_sample hproxies b
    have hlive : (label state).after b = (label state).after c :=
      Live.after_congr fun set hset => hsame set (List.mem_append_right _ hset)
    have hnext : next? state b = next? state c := by
      rw [next?_eq, next?_eq]
      refine ByteSet.move?_congr fun move hmove => hsame _ ?_
      exact List.mem_append_left _ (List.mem_map_of_mem hmove)
    rw [hlive, hnext, hsamples c hc]
  · rw [label_of_le (Nat.le_of_not_lt hstate), next?, row_of_le (Nat.le_of_not_lt hstate)]
    rfl

theorem accepts?_label (state : Nat) : (∀ p, accepts? state = some p → p ∈ (label state).done) ∧
    ∀ q ∈ (label state).done, ∃ p, accepts? state = some p ∧
      Pattern.all.idxOf p ≤ Pattern.all.idxOf q := by
  by_cases hstate : state < 135
  · have hagrees := table_agrees state hstate
    simp only [agrees, Bool.and_eq_true, List.all_eq_true, Option.all_eq_true, Option.any_eq_true,
      decide_eq_true_eq] at hagrees
    exact ⟨hagrees.1.2, hagrees.2⟩
  · rw [label_of_le (Nat.le_of_not_lt hstate), accepts?, row_of_le (Nat.le_of_not_lt hstate)]
    exact ⟨nofun, nofun⟩

def Taken (languages : Pattern → Language UInt8) (bytes : Bytes) : Option (Pattern × Nat) → Prop
  | none => ∀ q v, v <+: bytes → v ∉ languages q
  | some (pattern, size) => ∃ text rest, bytes = text ++ rest ∧ size = text.length ∧
      Takes languages pattern text rest

theorem taken_nil (state : Nat) :
    Taken (label state).language [] ((accepts? state).map (·, 0)) := by
  obtain ⟨hdone, hfirst⟩ := accepts?_label state
  cases haccepts : accepts? state with
  | none =>
    intro q v hv hmem
    rw [List.prefix_nil.1 hv, Live.nil_mem_language] at hmem
    obtain ⟨p, hp, _⟩ := hfirst q hmem
    rw [haccepts] at hp
    cases hp
  | some pattern =>
    refine ⟨[], [], rfl, rfl, Live.nil_mem_language.2 (hdone _ haccepts), ?_, ?_⟩
    · intro q v hv _
      exact hv.length_le
    · intro q hq
      obtain ⟨p, hp, hle⟩ := hfirst q (Live.nil_mem_language.1 hq)
      rw [haccepts] at hp
      cases hp
      exact hle

theorem Taken.cons {languages later : Pattern → Language UInt8} {rest : Bytes}
    {found accepted : Option (Pattern × Nat)}
    (hlater : ∀ q v, b :: v ∈ languages q ↔ v ∈ later q)
    (h : Taken later rest found) (haccepted : Taken languages [] accepted) :
    Taken languages (b :: rest) ((found.map (Prod.map id (· + 1))).or accepted) := by
  cases found with
  | some entry =>
    obtain ⟨text, after, rfl, hsize, htakes⟩ := h
    refine ⟨b :: text, after, rfl, congrArg (· + 1) hsize, (hlater _ _).2 htakes.mem, ?_, ?_⟩
    · intro q v hv hmem
      rcases List.prefix_cons_iff.1 hv with rfl | ⟨u, rfl, hu⟩
      · exact Nat.zero_le _
      · exact Nat.succ_le_succ (htakes.longest q u hu ((hlater q u).1 hmem))
    · intro q hq
      exact htakes.first q ((hlater q text).1 hq)
  | none =>
    have hnil {q : Pattern} {v : Bytes} (hv : v <+: b :: rest) (hmem : v ∈ languages q) : v = [] := by
      rcases List.prefix_cons_iff.1 hv with rfl | ⟨u, rfl, hu⟩
      · rfl
      · exact absurd ((hlater q u).1 hmem) (h q u hu)
    cases accepted with
    | none =>
      intro q v hv hmem
      exact haccepted q v (hnil hv hmem ▸ List.prefix_rfl) hmem
    | some entry =>
      obtain ⟨text, after, hempty, hsize, htakes⟩ := haccepted
      obtain ⟨rfl, rfl⟩ := List.append_eq_nil_iff.1 hempty.symm
      refine ⟨[], b :: rest, rfl, hsize, htakes.mem, ?_, htakes.first⟩
      intro q v hv hmem
      rw [hnil hv hmem]

/-- From a state the scanner takes what its label allows, or else what it would have taken before. -/
theorem walk_taken (state read : Nat) (best : Option (Pattern × Nat)) (bytes : Bytes) :
    ∃ found, Taken (label state).language bytes found ∧
      walk state read best bytes = (found.map (Prod.map id (read + ·))).or best := by
  induction bytes generalizing state read best with
  | nil =>
    refine ⟨_, taken_nil state, ?_⟩
    rw [walk, Option.map_map]
    rfl
  | cons b rest ih =>
    have hlater (q : Pattern) (v : Bytes) : b :: v ∈ (label state).language q ↔
        v ∈ Live.language (((next? state b).map label).getD []) q := by
      rw [Live.cons_mem_language, after_label]
    rw [walk]
    cases hnext : next? state b with
    | none =>
      rw [hnext] at hlater
      have hnone : Taken (Live.language []) rest none := by
        rintro q v _ ⟨residue, hmem, _⟩
        cases hmem
      refine ⟨_, hnone.cons hlater (taken_nil state), ?_⟩
      cases accepts? state <;> rfl
    | some after =>
      rw [hnext] at hlater
      obtain ⟨found, htaken, hwalk⟩ := ih after (read + 1) (((accepts? state).map (·, read)).or best)
      refine ⟨_, htaken.cons hlater (taken_nil state), ?_⟩
      have hshift : Prod.map id (read + ·) ∘ Prod.map id (· + 1) =
          (Prod.map id (read + 1 + ·) : Pattern × Nat → Pattern × Nat) := by
        funext entry
        exact Prod.ext rfl (by simp; omega)
      rw [Option.map_or, Option.or_assoc, Option.map_map, Option.map_map, hshift]
      exact hwalk

theorem take?_taken (bytes : Bytes) : Taken Pattern.language bytes (take? bytes) := by
  obtain ⟨found, htaken, hwalk⟩ := walk_taken start 0 none bytes
  rw [label_start, Live.language_all] at htaken
  have hzero : (Prod.map id (0 + ·) : Pattern × Nat → Pattern × Nat) = id := by
    funext entry
    exact Prod.ext rfl (Nat.zero_add _)
  rwa [take?, hwalk, Option.or_none, hzero, Option.map_id_apply]

theorem exists_singleton_mem (b : UInt8) : ∃ pattern, [b] ∈ Pattern.language pattern := by
  by_cases hb : b = Pattern.newline
  · exact ⟨.blanks, Pattern.cons_mem_one_mul.2 ⟨by rw [hb]; decide, Language.nil_mem_kstar _⟩⟩
  · exact ⟨.anyByte, b, by simp [ByteSet.contains, hb], rfl⟩

theorem take?_cons (b : UInt8) (rest : Bytes) : ∃ pattern text after, b :: rest = text ++ after ∧
    text ≠ [] ∧ Takes Pattern.language pattern text after ∧
    take? (b :: rest) = some (pattern, text.length) := by
  have htaken := take?_taken (b :: rest)
  obtain ⟨least, hleast⟩ := exists_singleton_mem b
  have hleads : [b] <+: b :: rest := ⟨rest, rfl⟩
  cases htake : take? (b :: rest) with
  | none =>
    rw [htake] at htaken
    exact absurd hleast (htaken least [b] hleads)
  | some found =>
    rw [htake] at htaken
    obtain ⟨text, after, hbytes, hsize, htakes⟩ := htaken
    have hlength : 1 ≤ text.length := htakes.longest least [b] (hbytes ▸ hleads) hleast
    exact ⟨found.1, text, after, hbytes, List.ne_nil_of_length_pos hlength, htakes,
      congrArg some (Prod.ext rfl hsize)⟩

theorem take?_eq_first? (b : UInt8) (rest : Bytes) :
    take? (b :: rest) = Pattern.first? (b :: rest) := by
  obtain ⟨pattern, text, after, hbytes, _, htakes, htake⟩ := take?_cons b rest
  rw [htake, hbytes, htakes.first?]

end Scanner

end LevelScript.Checker
