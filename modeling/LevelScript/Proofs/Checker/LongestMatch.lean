import LevelScript.Checker.Scanner
import LevelScript.Proofs.Checker.Match
import Mathlib.Computability.Language

set_option autoImplicit false

namespace LevelScript.Checker

open Text (Bytes)
open scoped Computability

namespace Pattern

def one (set : ByteSet) : Language UInt8 :=
  {w | ∃ b, set.contains b = true ∧ w = [b]}

def commentRest : Language UInt8 :=
  (one .inLine + {[backslash, byte 'n']})∗ * {blockEnd}

def quotedRest : Language UInt8 :=
  (one .plain + {[backslash]} * one .inLine)∗ * {[quote]}

def language : Pattern → Language UInt8
  | .blanks => one .blank * (one .blank)∗
  | .word keyword => {Text.encodeUtf8 keyword.spelling}
  | .mark symbol => {symbol.chars.map byte}
  | .lineComment => {lineStart} * (one .inLine)∗
  | .blockComment => {blockStart} * commentRest
  | .name => one .letter * (one .letter + one .digit + {[byte '_']})∗
  | .digits => one .digit * (one .digit)∗
  | .quoted => {[quote]} * quotedRest
  | .anyByte => one .inLine

/-- How many bytes the longest beginning takes that is in the language. -/
def Measures (l : Language UInt8) (bytes : Bytes) : Option Nat → Prop
  | none => ∀ v, v <+: bytes → v ∉ l
  | some n => n ≤ bytes.length ∧ bytes.take n ∈ l ∧ ∀ v, v <+: bytes → v ∈ l → v.length ≤ n

section Languages

variable {isMember : UInt8 → Bool} {set : ByteSet} {l : Language UInt8} {text bytes v w : Bytes}

theorem mem_text : w ∈ ({text} : Language UInt8) ↔ w = text :=
  Iff.rfl

theorem mem_text_mul : w ∈ ({text} : Language UInt8) * l ↔ ∃ v ∈ l, text ++ v = w := by
  simp only [Language.mem_mul, mem_text, exists_eq_left]

theorem mem_kstar_of_class (hone : ∀ b, isMember b = true → [b] ∈ l)
    (hall : ∀ v ∈ l, ∀ b ∈ v, isMember b = true) :
    w ∈ l∗ ↔ ∀ b ∈ w, isMember b = true := by
  rw [Language.mem_kstar]
  constructor
  · rintro ⟨parts, rfl, hparts⟩ b hb
    obtain ⟨part, hpart, hmem⟩ := List.mem_flatten.1 hb
    exact hall part (hparts part hpart) b hmem
  · intro h
    refine ⟨w.map fun b => [b], by rw [← List.flatMap_def, List.flatMap_singleton'], ?_⟩
    intro part hpart
    obtain ⟨b, hb, rfl⟩ := List.mem_map.1 hpart
    exact hone b (h b hb)

theorem mem_kstar_one : w ∈ (one set)∗ ↔ ∀ b ∈ w, set.contains b = true := by
  refine mem_kstar_of_class (fun b hb => ⟨b, hb, rfl⟩) ?_
  rintro _ ⟨b, hb, rfl⟩ c hc
  rw [List.mem_singleton.1 hc]
  exact hb

theorem prefix_takeWhile_iff :
    v <+: bytes.takeWhile isMember ↔ v <+: bytes ∧ ∀ b ∈ v, isMember b = true := by
  constructor
  · intro h
    exact ⟨h.trans (List.takeWhile_prefix _), fun b hb => List.mem_takeWhile_imp (h.subset hb)⟩
  · rintro ⟨⟨rest, rfl⟩, hall⟩
    rw [List.takeWhile_append_of_pos hall]
    exact List.prefix_append _ _

theorem take_length_of_leading (h : v <+: bytes) : bytes.take v.length = v :=
  (List.prefix_iff_eq_take.1 h).symm

theorem Measures.of_leading (hleads : v <+: bytes) (hmem : v ∈ l)
    (hmost : ∀ w, w <+: bytes → w ∈ l → w.length ≤ v.length) :
    Measures l bytes (some v.length) :=
  ⟨hleads.length_le, by rwa [take_length_of_leading hleads], hmost⟩

theorem measures_text : Measures {text} bytes (literal? text bytes) := by
  unfold literal?
  split
  · next hleads =>
    refine .of_leading (List.isPrefixOf_iff_prefix.1 hleads) rfl ?_
    rintro w _ rfl
    exact Nat.le_refl _
  · next hleads =>
    rintro w hw rfl
    exact hleads (List.isPrefixOf_iff_prefix.2 hw)

theorem Measures.after_text {size : Nat → Option Nat}
    (h : Measures l (bytes.drop text.length) (size text.length)) :
    Measures ({text} * l) bytes ((literal? text bytes).bind fun n => (size n).map (n + ·)) := by
  unfold literal?
  split
  · next hleads =>
    obtain ⟨rest, rfl⟩ := List.isPrefixOf_iff_prefix.1 hleads
    rw [List.drop_left] at h
    rw [Option.bind_some]
    cases hsize : size text.length with
    | none =>
      rw [hsize] at h
      intro w hw hmem
      obtain ⟨v, hv, rfl⟩ := mem_text_mul.1 hmem
      exact h v ((List.prefix_append_right_inj text).1 hw) hv
    | some n =>
      rw [hsize] at h
      obtain ⟨hfits, htake, hmost⟩ := h
      refine ⟨by simpa using hfits, ?_, ?_⟩
      · rw [List.take_length_add_append]
        exact mem_text_mul.2 ⟨_, htake, rfl⟩
      · intro w hw hmem
        obtain ⟨v, hv, rfl⟩ := mem_text_mul.1 hmem
        have hlength := hmost v ((List.prefix_append_right_inj text).1 hw) hv
        rw [List.length_append]
        exact Nat.add_le_add_left hlength _
  · next hleads =>
    intro w hw hmem
    obtain ⟨v, _, rfl⟩ := mem_text_mul.1 hmem
    exact hleads (List.isPrefixOf_iff_prefix.2 ((List.prefix_append text v).trans hw))

theorem Measures.cons {m : Language UInt8} {size : Option Nat} {b : UInt8} (hnil : [] ∉ m)
    (hm : ∀ v, b :: v ∈ m ↔ v ∈ l) (h : Measures l bytes size) :
    Measures m (b :: bytes) (size.map (· + 1)) := by
  have hcases {v : Bytes} (hv : v <+: b :: bytes) (hmem : v ∈ m) :
      ∃ u ∈ l, u <+: bytes ∧ v = b :: u := by
    rcases List.prefix_cons_iff.1 hv with rfl | ⟨u, rfl, hu⟩
    · exact absurd hmem hnil
    · exact ⟨u, (hm u).1 hmem, hu, rfl⟩
  cases size with
  | none =>
    intro v hv hmem
    obtain ⟨u, hu, hrest, _⟩ := hcases hv hmem
    exact h u hrest hu
  | some n =>
    obtain ⟨hfits, htake, hmost⟩ := h
    refine ⟨Nat.succ_le_succ hfits, (hm _).2 htake, ?_⟩
    intro v hv hmem
    obtain ⟨u, hu, hrest, rfl⟩ := hcases hv hmem
    exact Nat.succ_le_succ (hmost u hrest hu)

theorem measures_one : Measures 1 bytes (some 0) :=
  ⟨Nat.zero_le _, rfl, fun _ _ hv => Nat.le_of_eq (congrArg List.length hv)⟩

theorem measures_nil (hnil : [] ∉ l) : Measures l [] none := by
  intro v hv
  rwa [List.prefix_nil.1 hv]

theorem measures_none {b : UInt8} (hnil : [] ∉ l) (hb : ∀ v, b :: v ∉ l) :
    Measures l (b :: bytes) none := by
  have hzero : Measures (0 : Language UInt8) bytes none := fun v _ => Language.notMem_zero v
  exact hzero.cons hnil fun v => iff_of_false (hb v) (Language.notMem_zero v)

theorem nil_notMem_one_mul : [] ∉ one set * l := by
  rintro ⟨_, ⟨b, _, rfl⟩, v, _, h⟩
  cases h

theorem cons_mem_one_mul {b : UInt8} :
    b :: v ∈ one set * l ↔ set.contains b = true ∧ v ∈ l := by
  rw [Language.mem_mul]
  constructor
  · rintro ⟨_, ⟨c, hc, rfl⟩, u, hu, h⟩
    cases h
    exact ⟨hc, hu⟩
  · rintro ⟨hb, hv⟩
    exact ⟨[b], ⟨b, hb, rfl⟩, v, hv, rfl⟩

theorem Measures.after_byte {size : Option Nat} {b : UInt8} (h : Measures l bytes size) :
    Measures (one set * l) (b :: bytes)
      (if set.contains b = true then size.map (· + 1) else none) := by
  split
  · next hb => exact .cons nil_notMem_one_mul (fun v => cons_mem_one_mul.trans (and_iff_right hb)) h
  · next hb => exact measures_none nil_notMem_one_mul fun v hv => hb (cons_mem_one_mul.1 hv).1

theorem measures_kstar (hl : ∀ w, w ∈ l ↔ ∀ b ∈ w, isMember b = true) :
    Measures l bytes (some (bytes.takeWhile isMember).length) := by
  refine .of_leading (List.takeWhile_prefix _) ?_ ?_
  · exact (hl _).2 fun b hb => List.mem_takeWhile_imp hb
  · intro w hw hmem
    exact (prefix_takeWhile_iff.2 ⟨hw, (hl w).1 hmem⟩).length_le

theorem measures_run : Measures (one set * (one set)∗) bytes (run? set.contains bytes) := by
  have hmem {v : Bytes} : v ∈ one set * (one set)∗ ↔
      v ≠ [] ∧ ∀ b ∈ v, set.contains b = true := by
    cases v with
    | nil => simp [nil_notMem_one_mul]
    | cons b v => simp [cons_mem_one_mul, mem_kstar_one]
  have hmost {w : Bytes} (hw : w <+: bytes) (hmatch : w ∈ one set * (one set)∗) :
      w ≠ [] ∧ w <+: bytes.takeWhile set.contains :=
    ⟨(hmem.1 hmatch).1, prefix_takeWhile_iff.2 ⟨hw, (hmem.1 hmatch).2⟩⟩
  unfold run?
  split
  · next hzero =>
    intro w hw hmatch
    obtain ⟨hne, hrun⟩ := hmost hw hmatch
    exact hne (List.prefix_nil.1 (List.length_eq_zero_iff.1 hzero ▸ hrun))
  · next n hpos =>
    refine .of_leading (List.takeWhile_prefix set.contains) (hmem.2 ⟨?_, ?_⟩) ?_
    · intro hnil
      exact hpos (congrArg List.length hnil)
    · exact fun b hb => List.mem_takeWhile_imp hb
    · exact fun w hw hmatch => (hmost hw hmatch).2.length_le

theorem Measures.within {m : Language UInt8} {size : Option Nat}
    (hm : ∀ v, v ∈ m ↔ (∀ b ∈ v, isMember b = true) ∧ v ∈ l)
    (h : Measures l (bytes.takeWhile isMember) size) : Measures m bytes size := by
  have hrun {v : Bytes} (hv : v <+: bytes) (hmem : v ∈ m) :
      v <+: bytes.takeWhile isMember ∧ v ∈ l :=
    ⟨prefix_takeWhile_iff.2 ⟨hv, ((hm v).1 hmem).1⟩, ((hm v).1 hmem).2⟩
  cases size with
  | none =>
    intro v hv hmem
    exact h v (hrun hv hmem).1 (hrun hv hmem).2
  | some n =>
    obtain ⟨hfits, htake, hmost⟩ := h
    have hleads : bytes.takeWhile isMember <+: bytes := List.takeWhile_prefix _
    have hsame : bytes.take n = (bytes.takeWhile isMember).take n := by
      obtain ⟨rest, hrest⟩ := hleads
      conv_lhs => rw [← hrest, List.take_append_of_le_length hfits]
    refine ⟨hfits.trans hleads.length_le, ?_, ?_⟩
    · rw [hsame]
      exact (hm _).2 ⟨fun b hb => List.mem_takeWhile_imp (List.mem_of_mem_take hb), htake⟩
    · intro v hv hmem
      exact hmost v (hrun hv hmem).1 (hrun hv hmem).2

end Languages

theorem measures_lineComment (bytes : Bytes) :
    Measures lineComment.language bytes (lineComment.longest? bytes) := by
  rw [longest?, Option.map_eq_bind]
  change Measures _ bytes ((literal? lineStart bytes).bind fun n =>
    (some ((bytes.drop n).takeWhile (ByteSet.contains .inLine)).length).map (n + ·))
  exact Measures.after_text (measures_kstar fun w => mem_kstar_one)

theorem mem_kstar_nameByte {w : Bytes} : w ∈ (one .letter + one .digit + {[byte '_']})∗ ↔
    ∀ b ∈ w, ByteSet.nameByte.contains b = true := by
  have hcases {b : UInt8} : ByteSet.nameByte.contains b = true ↔
      (ByteSet.letter.contains b = true ∨ ByteSet.digit.contains b = true) ∨ b = byte '_' := by
    simp only [ByteSet.contains, isNameByte, Bool.or_eq_true, beq_iff_eq]
  refine mem_kstar_of_class (fun b hb => ?_) ?_
  · rcases hcases.1 hb with (hletter | hdigit) | rfl
    · exact .inl (.inl ⟨b, hletter, rfl⟩)
    · exact .inl (.inr ⟨b, hdigit, rfl⟩)
    · exact .inr rfl
  · rintro _ ((⟨c, hc, rfl⟩ | ⟨c, hc, rfl⟩) | rfl) b hb <;>
      rw [List.mem_singleton.1 hb, hcases]
    · exact .inl (.inl hc)
    · exact .inl (.inr hc)
    · exact .inr rfl

theorem measures_name (bytes : Bytes) : Measures name.language bytes (name.longest? bytes) := by
  cases bytes with
  | nil => exact measures_nil nil_notMem_one_mul
  | cons b rest => exact Measures.after_byte (measures_kstar fun w => mem_kstar_nameByte)

theorem measures_throughLastEnd {l : Language UInt8} (hl : ∀ v, v ∈ l ↔ blockEnd <:+ v)
    (line : Bytes) : Measures l line (throughLastEnd line) := by
  induction line with
  | nil =>
    intro v hv hmem
    rw [List.prefix_nil.1 hv, hl] at hmem
    cases List.suffix_nil.1 hmem
  | cons b line ih =>
    -- an end is the whole of what begins here, or it lies in the rest of the line
    have hcases {v : Bytes} (hv : v <+: b :: line) (hmem : v ∈ l) :
        v = blockEnd ∨ ∃ u ∈ l, u <+: line ∧ v = b :: u := by
      rcases List.prefix_cons_iff.1 hv with rfl | ⟨u, rfl, hu⟩
      · cases List.suffix_nil.1 ((hl _).1 hmem)
      · rcases List.suffix_cons_iff.1 ((hl _).1 hmem) with hend | hend
        · exact .inl hend.symm
        · exact .inr ⟨u, (hl u).2 hend, hu, rfl⟩
    rw [throughLastEnd]
    split
    · next n hn =>
      rw [hn] at ih
      obtain ⟨hfits, htake, hmost⟩ := ih
      have hend : blockEnd <:+ line.take n := (hl _).1 htake
      refine ⟨Nat.succ_le_succ hfits, (hl _).2 (hend.trans (List.suffix_cons b _)), ?_⟩
      intro v hv hmem
      rcases hcases hv hmem with rfl | ⟨u, hu, hrest, rfl⟩
      · have hlength := hend.length_le
        rw [List.length_take] at hlength
        omega
      · exact Nat.succ_le_succ (hmost u hrest hu)
    · next hnone =>
      rw [hnone] at ih
      have honly {v : Bytes} (hv : v <+: b :: line) (hmem : v ∈ l) : v = blockEnd := by
        rcases hcases hv hmem with hend | ⟨u, hu, hrest, _⟩
        · exact hend
        · exact absurd hu (ih u hrest)
      split
      · next hleads =>
        refine .of_leading (List.isPrefixOf_iff_prefix.1 hleads) ((hl _).2 (List.suffix_refl _)) ?_
        intro v hv hmem
        exact Nat.le_of_eq (congrArg List.length (honly hv hmem))
      · next hleads =>
        intro v hv hmem
        exact hleads (List.isPrefixOf_iff_prefix.2 (honly hv hmem ▸ hv))

theorem mem_commentRest {v : Bytes} :
    v ∈ commentRest ↔ (∀ b ∈ v, ByteSet.inLine.contains b = true) ∧ blockEnd <:+ v := by
  have hstar {w : Bytes} : w ∈ (one .inLine + {[backslash, byte 'n']})∗ ↔
      ∀ b ∈ w, ByteSet.inLine.contains b = true := by
    refine mem_kstar_of_class (fun b hb => .inl ⟨b, hb, rfl⟩) ?_
    rintro _ (⟨c, hc, rfl⟩ | rfl) b hb
    · rw [List.mem_singleton.1 hb]
      exact hc
    · exact List.all_eq_true.1
        (by decide : [backslash, byte 'n'].all (ByteSet.contains .inLine) = true) b hb
  have hblockEnd : blockEnd.all (ByteSet.contains .inLine) = true := by decide
  rw [commentRest, Language.mem_mul]
  constructor
  · rintro ⟨u, hu, _, rfl, rfl⟩
    exact ⟨List.forall_mem_append.2 ⟨hstar.1 hu, List.all_eq_true.1 hblockEnd⟩,
      List.suffix_append u blockEnd⟩
  · rintro ⟨hall, u, rfl⟩
    exact ⟨u, hstar.2 (List.forall_mem_append.1 hall).1, blockEnd, rfl, rfl⟩

theorem measures_blockComment (bytes : Bytes) :
    Measures blockComment.language bytes (blockComment.longest? bytes) := by
  have hline := measures_throughLastEnd (l := {v | blockEnd <:+ v}) (fun v => Iff.rfl)
    ((bytes.drop blockStart.length).takeWhile (ByteSet.contains .inLine))
  exact Measures.after_text (hline.within fun v => mem_commentRest)

theorem mem_quotedRest {v : Bytes} :
    v ∈ quotedRest ↔ v = [quote] ∨ ∃ u ∈ quotedRest,
      (∃ b, ByteSet.plain.contains b = true ∧ v = b :: u) ∨
        ∃ c, ByteSet.inLine.contains c = true ∧ v = backslash :: c :: u := by
  have hunfold : quotedRest =
      {[quote]} + (one .plain + {[backslash]} * one .inLine) * quotedRest := by
    conv_lhs => rw [quotedRest, ← Language.one_add_self_mul_kstar_eq_kstar, add_mul, one_mul,
      mul_assoc]
    rfl
  conv_lhs => rw [hunfold]
  rw [Language.mem_add, mem_text, Language.mem_mul]
  refine or_congr_right ⟨?_, ?_⟩
  · rintro ⟨_, hfirst, u, hu, rfl⟩
    refine ⟨u, hu, ?_⟩
    rcases hfirst with ⟨b, hb, rfl⟩ | hfirst
    · exact .inl ⟨b, hb, rfl⟩
    · obtain ⟨_, ⟨c, hc, rfl⟩, rfl⟩ := mem_text_mul.1 hfirst
      exact .inr ⟨c, hc, rfl⟩
  · rintro ⟨u, hu, ⟨b, hb, rfl⟩ | ⟨c, hc, rfl⟩⟩
    · exact ⟨[b], .inl ⟨b, hb, rfl⟩, u, hu, rfl⟩
    · exact ⟨[backslash, c], .inr (mem_text_mul.2 ⟨[c], ⟨c, hc, rfl⟩, rfl⟩), u, hu, rfl⟩

theorem nil_notMem_quotedRest : [] ∉ quotedRest := by
  rw [mem_quotedRest]
  simp

theorem quote_cons_mem_quotedRest (v : Bytes) :
    quote :: v ∈ quotedRest ↔ v ∈ (1 : Language UInt8) := by
  rw [mem_quotedRest, Language.mem_one]
  constructor
  · rintro (h | ⟨u, _, ⟨b, hb, h⟩ | ⟨c, _, h⟩⟩)
    · cases h
      rfl
    · cases h
      cases hb
    · cases h
  · rintro rfl
    exact .inl rfl

theorem plain_cons_mem_quotedRest {b : UInt8} (hb : ByteSet.plain.contains b = true) (v : Bytes) :
    b :: v ∈ quotedRest ↔ v ∈ quotedRest := by
  conv_lhs => rw [mem_quotedRest]
  constructor
  · rintro (h | ⟨u, hu, ⟨c, _, h⟩ | ⟨c, _, h⟩⟩)
    · cases h
      cases hb
    · cases h
      exact hu
    · cases h
      cases hb
  · intro hv
    exact .inr ⟨v, hv, .inl ⟨b, hb, rfl⟩⟩

theorem backslash_cons_mem_quotedRest (v : Bytes) :
    backslash :: v ∈ quotedRest ↔ v ∈ one .inLine * quotedRest := by
  rw [mem_quotedRest, Language.mem_mul]
  constructor
  · rintro (h | ⟨u, hu, ⟨b, hb, h⟩ | ⟨c, hc, h⟩⟩)
    · cases h
    · cases h
      cases hb
    · cases h
      exact ⟨[c], ⟨c, hc, rfl⟩, u, hu, rfl⟩
  · rintro ⟨_, ⟨c, hc, rfl⟩, u, hu, rfl⟩
    exact .inr ⟨u, hu, .inr ⟨c, hc, rfl⟩⟩

theorem measures_throughQuote (bytes : Bytes) : Measures quotedRest bytes (throughQuote bytes) := by
  -- a backslash takes the byte after it with it
  have hescape {rest : Bytes} {s : Option Nat} (h : Measures (one .inLine * quotedRest) rest s) :
      Measures quotedRest (backslash :: rest) (s.map (· + 1)) :=
    h.cons nil_notMem_quotedRest backslash_cons_mem_quotedRest
  fun_induction throughQuote bytes with
  | case1 => exact measures_nil nil_notMem_quotedRest
  | case2 rest => exact measures_one.cons nil_notMem_quotedRest quote_cons_mem_quotedRest
  | case3 => exact hescape (measures_nil nil_notMem_one_mul)
  | case4 rest =>
    refine hescape (measures_none nil_notMem_one_mul fun v hv => ?_)
    exact absurd (cons_mem_one_mul.1 hv).1 (by decide)
  | case5 c rest hline _ ih =>
    have hpair := hescape (@Measures.after_byte .inLine _ _ _ c ih)
    rw [if_pos (by simp [ByteSet.contains, hline]), Option.map_map] at hpair
    exact hpair
  | case6 b rest hquote hbackslash ih =>
    refine ih.cons nil_notMem_quotedRest (plain_cons_mem_quotedRest ?_)
    simp [ByteSet.contains, hquote, hbackslash]

theorem measures_quoted (bytes : Bytes) :
    Measures quoted.language bytes (quoted.longest? bytes) := by
  have hnil : [] ∉ quoted.language := by
    rintro ⟨_, rfl, v, _, h⟩
    cases h
  have hcons {b : UInt8} (v : Bytes) : b :: v ∈ quoted.language ↔ b = quote ∧ v ∈ quotedRest := by
    rw [language, mem_text_mul]
    constructor
    · rintro ⟨u, hu, h⟩
      cases h
      exact ⟨rfl, hu⟩
    · rintro ⟨rfl, hv⟩
      exact ⟨v, hv, rfl⟩
  cases bytes with
  | nil => exact measures_nil hnil
  | cons b rest =>
    rw [longest?]
    split
    · next hb =>
      exact (measures_throughQuote rest).cons hnil fun v => (hcons v).trans (and_iff_right hb)
    · next hb => exact measures_none hnil fun v hv => hb ((hcons v).1 hv).1

theorem measures_anyByte (bytes : Bytes) :
    Measures anyByte.language bytes (anyByte.longest? bytes) := by
  have hlanguage : anyByte.language = one .inLine * 1 := (mul_one _).symm
  rw [hlanguage]
  cases bytes with
  | nil => exact measures_nil nil_notMem_one_mul
  | cons b rest =>
    have hbyte := @Measures.after_byte .inLine _ rest _ b measures_one
    rw [longest?]
    split
    · next hb => rwa [if_neg (by simp [ByteSet.contains, hb])] at hbyte
    · next hb => rwa [if_pos (by simp [ByteSet.contains, hb])] at hbyte

theorem measures_longest? (pattern : Pattern) (bytes : Bytes) :
    Measures pattern.language bytes (pattern.longest? bytes) := by
  cases pattern with
  | blanks => exact measures_run
  | word keyword => exact measures_text
  | mark symbol => exact measures_text
  | lineComment => exact measures_lineComment bytes
  | blockComment => exact measures_blockComment bytes
  | name => exact measures_name bytes
  | digits => exact measures_run
  | quoted => exact measures_quoted bytes
  | anyByte => exact measures_anyByte bytes

/-- A pattern takes a text that stands before a rest: no pattern matches more of the two, and none
that is listed before matches as much. -/
structure Takes (languages : Pattern → Language UInt8) (pattern : Pattern) (text rest : Bytes) :
    Prop where
  mem : text ∈ languages pattern
  longest : ∀ q v, v <+: text ++ rest → v ∈ languages q → v.length ≤ text.length
  first : ∀ q, text ∈ languages q → all.idxOf pattern ≤ all.idxOf q

theorem Takes.first? {pattern : Pattern} {text rest : Bytes}
    (h : Takes language pattern text rest) :
    first? (text ++ rest) = some (pattern, text.length) := by
  have hmatch {q : Pattern} {m : Nat} (hq : q.longest? (text ++ rest) = some m) :
      m ≤ text.length ∧ (m = text.length → text ∈ q.language) := by
    have hmeasures := q.measures_longest? (text ++ rest)
    rw [hq] at hmeasures
    obtain ⟨hfits, hmem, _⟩ := hmeasures
    have hmost := h.longest q _ (List.take_prefix m _) hmem
    rw [List.length_take_of_le hfits] at hmost
    refine ⟨hmost, ?_⟩
    rintro rfl
    rwa [List.take_left] at hmem
  have hlongest : pattern.longest? (text ++ rest) = some text.length := by
    have hmeasures := pattern.measures_longest? (text ++ rest)
    cases hsize : pattern.longest? (text ++ rest) with
    | none =>
      rw [hsize] at hmeasures
      exact absurd h.mem (hmeasures text (List.prefix_append _ _))
    | some m =>
      rw [hsize] at hmeasures
      have hleast := hmeasures.2.2 text (List.prefix_append _ _) h.mem
      rw [Nat.le_antisymm (hmatch hsize).1 hleast]
  refine first?_eq (mem_all pattern) hlongest fun q _ m hq => ?_
  obtain ⟨hmost, hsame⟩ := hmatch hq
  rcases Nat.lt_or_eq_of_le hmost with hless | heq
  · exact .inl hless
  · exact .inr ⟨heq, h.first q (hsame heq)⟩

end Pattern

end LevelScript.Checker
