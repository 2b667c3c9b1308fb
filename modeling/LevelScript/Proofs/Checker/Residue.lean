import LevelScript.Proofs.Checker.LongestMatch

set_option autoImplicit false

namespace LevelScript.Checker

open Text (Bytes)
open Pattern (byte)
open scoped Computability

namespace ByteSet

variable {α : Type} {set : ByteSet} {moves : List (ByteSet × α)} {b c : UInt8}

theorem move?_cons {next : α} : move? ((set, next) :: moves) b =
    if set.contains b = true then some next else move? moves b := by
  rw [move?, List.find?_cons]
  cases set.contains b <;> rfl

theorem exists_move?_of_pos {P : α → Prop} {next : α} (h : set.contains b = true) :
    (∃ a ∈ move? ((set, next) :: moves) b, P a) ↔ P next := by
  rw [move?_cons, if_pos h]
  simp

theorem exists_move?_of_neg {P : α → Prop} {next : α} (h : ¬ set.contains b = true) :
    (∃ a ∈ move? ((set, next) :: moves) b, P a) ↔ ∃ a ∈ move? moves b, P a := by
  rw [move?_cons, if_neg h]

theorem exists_move?_singleton {P : α → Prop} {next : α} :
    (∃ a ∈ move? [(set, next)] b, P a) ↔ set.contains b = true ∧ P next := by
  by_cases h : set.contains b = true
  · rw [exists_move?_of_pos h, and_iff_right h]
  · rw [exists_move?_of_neg h]
    simp [move?, h]

theorem contains_byte {c : Char} : (ByteSet.byte c).contains b = true ↔ b = Pattern.byte c :=
  beq_iff_eq

theorem move?_congr (h : ∀ move ∈ moves, move.1.contains b = move.1.contains c) :
    move? moves b = move? moves c := by
  induction moves with
  | nil => rfl
  | cons move moves ih =>
    rw [move?_cons, move?_cons, h move (List.mem_cons_self ..),
      ih fun other hother => h other (List.mem_cons_of_mem _ hother)]

end ByteSet

inductive Ending where
  | far
  | backslash
  | star
  | reached
  deriving DecidableEq

namespace Ending

def next? : Ending → Option (Char × Ending)
  | .backslash => some ('*', .star)
  | .star => some ('/', .reached)
  | .far | .reached => none

def left? : Ending → Option Bytes
  | .far => none
  | .backslash => some [byte '*', byte '/']
  | .star => some [byte '/']
  | .reached => some []

theorem left?_cons {ending : Ending} {b : UInt8} {v : Bytes} : ending.left? = some (b :: v) ↔
    ∃ next ∈ ending.next?, b = byte next.1 ∧ next.2.left? = some v := by
  cases ending <;> simp [left?, next?, eq_comm]

theorem next?_inLine {ending : Ending} {next : Char × Ending} (h : next ∈ ending.next?) :
    ByteSet.inLine.contains (byte next.1) = true := by
  cases ending <;> cases h <;> decide

end Ending

/-- What may follow: nothing, any bytes of a set, one of them and then a residue, or the rest of a
comment or of a quoted text. -/
inductive Residue where
  | done
  | many (set : ByteSet)
  | one (set : ByteSet) (rest : Residue)
  | comment (ending : Ending)
  | quoted
  deriving DecidableEq

namespace Residue

def text (chars : List Char) (rest : Residue) : Residue :=
  chars.foldr (fun c after => .one (.byte c) after) rest

def moves : Residue → List (ByteSet × Residue)
  | .done => []
  | .many set => [(set, .many set)]
  | .one set rest => [(set, rest)]
  | .comment ending =>
    (.byte '\\', .comment .backslash) ::
      ((ending.next?.map fun next => (.byte next.1, .comment next.2)).toList ++
        [(.inLine, .comment .far)])
  | .quoted => [(.byte '\x22', .done), (.byte '\\', .one .inLine .quoted), (.plain, .quoted)]

def isDone : Residue → Bool
  | .done | .many _ | .comment .reached => true
  | _ => false

def language : Residue → Language UInt8
  | .done => 1
  | .many set => (Pattern.one set)∗
  | .one set rest => Pattern.one set * rest.language
  | .comment ending => {v | ending.left? = some v ∨ v ∈ Pattern.commentRest}
  | .quoted => Pattern.quotedRest

variable {b : UInt8} {v : Bytes}

theorem mem_comment {ending : Ending} : v ∈ (comment ending).language ↔
    ending.left? = some v ∨ v ∈ Pattern.commentRest :=
  Iff.rfl

theorem cons_mem_commentRest : b :: v ∈ Pattern.commentRest ↔
    b = Pattern.backslash ∧ Ending.backslash.left? = some v ∨
      ByteSet.inLine.contains b = true ∧ v ∈ Pattern.commentRest := by
  rw [Pattern.mem_commentRest, Pattern.mem_commentRest, List.forall_mem_cons,
    List.suffix_cons_iff]
  constructor
  · rintro ⟨⟨hb, hv⟩, hend | hend⟩
    · cases hend
      exact .inl ⟨rfl, rfl⟩
    · exact .inr ⟨hb, hv, hend⟩
  · rintro (⟨rfl, h⟩ | ⟨hb, hv, hend⟩)
    · cases h
      exact ⟨⟨by decide, List.all_eq_true.1 (by decide)⟩, .inl rfl⟩
    · exact ⟨⟨hb, hv⟩, .inr hend⟩

theorem cons_mem_comment {ending : Ending} : b :: v ∈ (comment ending).language ↔
    ∃ rest ∈ ByteSet.move? (comment ending).moves b, v ∈ rest.language := by
  rw [mem_comment, cons_mem_commentRest, moves]
  by_cases hb : b = Pattern.backslash
  · subst hb
    rw [ByteSet.exists_move?_of_pos (by decide), mem_comment]
    have hleft : ending.left? ≠ some (Pattern.backslash :: v) := by
      cases ending <;> intro h <;> cases h
    have hline : ByteSet.inLine.contains Pattern.backslash = true := by decide
    simp [hleft, hline]
  rw [ByteSet.exists_move?_of_neg (mt ByteSet.contains_byte.1 hb), Ending.left?_cons]
  have hfar : (∃ rest ∈ ByteSet.move? [(.inLine, comment .far)] b, v ∈ rest.language) ↔
      ByteSet.inLine.contains b = true ∧ v ∈ Pattern.commentRest := by
    rw [ByteSet.exists_move?_singleton, mem_comment]
    simp [Ending.left?]
  cases hnext : ending.next? with
  | none =>
    change _ ↔ ∃ rest ∈ ByteSet.move? [(.inLine, comment .far)] b, _
    rw [hfar]
    simp [hb]
  | some next =>
    have hline := Ending.next?_inLine hnext
    change _ ↔ ∃ rest ∈ ByteSet.move? [(.byte next.1, comment next.2), (.inLine, comment .far)] b, _
    by_cases hgoes : b = byte next.1
    · subst hgoes
      rw [ByteSet.exists_move?_of_pos (ByteSet.contains_byte.2 rfl), mem_comment]
      simp [hb, hline]
    · rw [ByteSet.exists_move?_of_neg (mt ByteSet.contains_byte.1 hgoes), hfar]
      simp [hb, hgoes]

theorem cons_mem_quoted : b :: v ∈ quoted.language ↔
    ∃ rest ∈ ByteSet.move? quoted.moves b, v ∈ rest.language := by
  change b :: v ∈ Pattern.quotedRest ↔ _
  by_cases hquote : b = Pattern.quote
  · subst hquote
    rw [Pattern.quote_cons_mem_quotedRest, moves, ByteSet.exists_move?_of_pos (by decide)]
    rfl
  rw [moves, ByteSet.exists_move?_of_neg (mt ByteSet.contains_byte.1 hquote)]
  by_cases hbackslash : b = Pattern.backslash
  · subst hbackslash
    rw [Pattern.backslash_cons_mem_quotedRest, ByteSet.exists_move?_of_pos (by decide)]
    rfl
  have hplain : ByteSet.plain.contains b = true := by
    simp [ByteSet.contains, hquote, hbackslash]
  rw [ByteSet.exists_move?_of_neg (mt ByteSet.contains_byte.1 hbackslash),
    ByteSet.exists_move?_of_pos hplain, Pattern.plain_cons_mem_quotedRest hplain]
  rfl

theorem cons_mem_language {residue : Residue} : b :: v ∈ residue.language ↔
    ∃ rest ∈ ByteSet.move? residue.moves b, v ∈ rest.language := by
  cases residue with
  | done => exact iff_of_false (List.cons_ne_nil b v) (by simp [moves, ByteSet.move?])
  | many set =>
    rw [moves, ByteSet.exists_move?_singleton, language, Pattern.mem_kstar_one,
      Pattern.mem_kstar_one, List.forall_mem_cons]
  | one set rest => rw [moves, ByteSet.exists_move?_singleton, language, Pattern.cons_mem_one_mul]
  | comment ending => exact cons_mem_comment
  | quoted => exact cons_mem_quoted

theorem nil_mem_language {residue : Residue} : [] ∈ residue.language ↔ residue.isDone = true := by
  have hcomment : [] ∉ Pattern.commentRest := by
    rw [Pattern.mem_commentRest]
    simp [Pattern.blockEnd]
  cases residue with
  | done => exact iff_of_true rfl rfl
  | many set => exact iff_of_true (Language.nil_mem_kstar _) rfl
  | one set rest => exact iff_of_false Pattern.nil_notMem_one_mul nofun
  | comment ending => cases ending <;> simp [mem_comment, Ending.left?, isDone, hcomment]
  | quoted => exact iff_of_false Pattern.nil_notMem_quotedRest nofun

theorem language_text (chars : List Char) (rest : Residue) :
    (text chars rest).language = {chars.map byte} * rest.language := by
  induction chars with
  | nil => exact (one_mul rest.language).symm
  | cons c chars ih =>
    have hbyte : Pattern.one (.byte c) = {[byte c]} := by
      ext w
      constructor
      · rintro ⟨b, hb, rfl⟩
        rw [ByteSet.contains_byte.1 hb]
        rfl
      · rintro rfl
        exact ⟨byte c, ByteSet.contains_byte.2 rfl, rfl⟩
    have hjoin : ({[byte c]} * {chars.map byte} : Language UInt8) = {(c :: chars).map byte} := by
      ext w
      rw [Pattern.mem_text_mul]
      exact ⟨fun ⟨_, hv, hw⟩ => hw ▸ hv ▸ rfl, fun hw => ⟨_, rfl, hw.symm⟩⟩
    calc (text (c :: chars) rest).language
      _ = Pattern.one (.byte c) * (text chars rest).language := rfl
      _ = {[byte c]} * ({chars.map byte} * rest.language) := by rw [hbyte, ih]
      _ = {(c :: chars).map byte} * rest.language := by rw [← mul_assoc, hjoin]

end Residue

namespace Pattern

def residue : Pattern → Residue
  | .blanks => .one .blank (.many .blank)
  | .word keyword => .text keyword.spelling.toList .done
  | .mark symbol => .text symbol.chars .done
  | .lineComment => .text ['/', '/'] (.many .inLine)
  | .blockComment => .text ['/', '\\', '*'] (.comment .far)
  | .name => .one .letter (.many .nameByte)
  | .digits => .one .digit (.many .digit)
  | .quoted => .text ['\x22'] .quoted
  | .anyByte => .one .inLine .done

theorem language_residue (pattern : Pattern) : pattern.residue.language = pattern.language := by
  have hdone (chars : List Char) : (Residue.text chars .done).language = {chars.map byte} := by
    rw [Residue.language_text]
    exact mul_one _
  cases pattern with
  | blanks | digits => rfl
  | word keyword => rw [residue, hdone, language, encodeUtf8_spelling]
  | mark symbol => exact hdone _
  | lineComment | quoted => exact Residue.language_text _ _
  | blockComment =>
    have hfar : (Residue.comment .far).language = commentRest := by
      ext v
      simp [Residue.mem_comment, Ending.left?]
    rw [residue, Residue.language_text, hfar]
    rfl
  | name =>
    have hstar : (one .nameByte)∗ = (one .letter + one .digit + {[byte '_']})∗ := by
      ext v
      rw [mem_kstar_one, mem_kstar_nameByte]
    exact congrArg (one .letter * ·) hstar
  | anyByte => exact mul_one _

end Pattern

abbrev Live := List (Pattern × Residue)

namespace Live

def all : Live :=
  Pattern.all.map fun pattern => (pattern, pattern.residue)

def after (live : Live) (b : UInt8) : Live :=
  live.filterMap fun entry => (ByteSet.move? entry.2.moves b).map (entry.1, ·)

def language (live : Live) (pattern : Pattern) : Language UInt8 :=
  {v | ∃ residue, (pattern, residue) ∈ live ∧ v ∈ residue.language}

variable {live : Live} {pattern : Pattern} {b c : UInt8} {v : Bytes}

theorem mem_language : v ∈ live.language pattern ↔
    ∃ residue, (pattern, residue) ∈ live ∧ v ∈ residue.language :=
  Iff.rfl

theorem language_all : all.language = Pattern.language := by
  funext pattern
  ext v
  rw [mem_language, ← Pattern.language_residue]
  constructor
  · rintro ⟨residue, hmem, hv⟩
    obtain ⟨other, _, heq⟩ := List.mem_map.1 hmem
    cases heq
    exact hv
  · intro hv
    exact ⟨pattern.residue, List.mem_map.2 ⟨pattern, Pattern.mem_all pattern, rfl⟩, hv⟩

theorem mem_after {residue : Residue} : (pattern, residue) ∈ live.after b ↔
    ∃ before, (pattern, before) ∈ live ∧ residue ∈ ByteSet.move? before.moves b := by
  simp only [after, List.mem_filterMap, Option.map_eq_some_iff, Prod.mk.injEq]
  constructor
  · rintro ⟨⟨_, before⟩, hmem, _, hmove, rfl, rfl⟩
    exact ⟨before, hmem, hmove⟩
  · rintro ⟨before, hmem, hmove⟩
    exact ⟨(pattern, before), hmem, residue, hmove, rfl, rfl⟩

theorem cons_mem_language : b :: v ∈ live.language pattern ↔
    v ∈ (live.after b).language pattern := by
  simp only [mem_language, mem_after, Residue.cons_mem_language]
  constructor
  · rintro ⟨before, hmem, residue, hmove, hv⟩
    exact ⟨residue, ⟨before, hmem, hmove⟩, hv⟩
  · rintro ⟨residue, ⟨before, hmem, hmove⟩, hv⟩
    exact ⟨before, hmem, residue, hmove, hv⟩

def done (live : Live) : List Pattern :=
  (live.filter fun entry => entry.2.isDone).map Prod.fst

theorem nil_mem_language : [] ∈ live.language pattern ↔ pattern ∈ live.done := by
  simp only [mem_language, Residue.nil_mem_language, done, List.mem_map, List.mem_filter]
  constructor
  · rintro ⟨residue, hmem, hdone⟩
    exact ⟨(pattern, residue), ⟨hmem, hdone⟩, rfl⟩
  · rintro ⟨⟨_, residue⟩, ⟨hmem, hdone⟩, rfl⟩
    exact ⟨residue, hmem, hdone⟩

def sets (live : Live) : List ByteSet :=
  live.flatMap fun entry => entry.2.moves.map Prod.fst

theorem after_congr (h : ∀ set ∈ live.sets, set.contains b = set.contains c) :
    live.after b = live.after c := by
  refine List.filterMap_congr fun entry hentry => ?_
  rw [ByteSet.move?_congr fun move hmove => h _ ?_]
  exact List.mem_flatMap.2 ⟨entry, hentry, List.mem_map_of_mem hmove⟩

end Live

end LevelScript.Checker
