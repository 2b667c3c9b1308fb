import LevelScript.Checker.Lexeme
import Mathlib.Data.Nat.Digits.Defs

set_option autoImplicit false

namespace LevelScript.Checker.Lexeme

open Text (Bytes)

def decimal (digits : Bytes) : Nat :=
  Nat.ofDigits 10 (digits.reverse.map fun b => b.toNat - '0'.toNat)

theorem decimal_eq_foldl (digits : Bytes) :
    decimal digits = digits.foldl (fun n b => 10 * n + (b.toNat - '0'.toNat)) 0 := by
  rw [decimal, Nat.ofDigits_eq_foldr, List.foldr_map, List.foldr_reverse]
  simp [Nat.add_comm]

theorem toNat_digit {b : UInt8} (h : Pattern.isDigit b = true) :
    (b - Pattern.byte '0').toUInt64.toNat = b.toNat - '0'.toNat ∧ b.toNat - '0'.toNat ≤ 9 := by
  rw [Pattern.isDigit, Bool.and_eq_true, decide_eq_true_eq, decide_eq_true_eq] at h
  have hupper : b.toNat ≤ '9'.toNat := UInt8.le_iff_toNat_le.1 h.2
  refine ⟨?_, Nat.sub_le_sub_right hupper _⟩
  rw [UInt8.toNat_toUInt64, UInt8.toNat_sub_of_le _ _ h.1]
  rfl

theorem toNat_extend {n : UInt64} {b : UInt8} (hn : n.toNat ≤ 2 ^ 63 - 1)
    (hb : Pattern.isDigit b = true) :
    (extend n b).toNat = min (10 * n.toNat + (b.toNat - '0'.toNat)) (2 ^ 63 - 1) := by
  obtain ⟨hdigit, hnine⟩ := toNat_digit hb
  have hquotient : (largest / 10).toNat = 922337203685477580 := rfl
  have hremainder : (largest % 10).toNat = 7 := rfl
  simp only [extend, UInt64.lt_iff_toNat_lt, UInt64.le_iff_toNat_le, ← UInt64.toNat_inj, hquotient,
    hremainder, hdigit]
  split
  · next hroom =>
    have hten : (10 : UInt64).toNat = 10 := rfl
    rw [UInt64.toNat_add, UInt64.toNat_mul, hdigit, hten]
    omega
  · next hfull =>
    have hlargest : largest.toNat = 2 ^ 63 - 1 := rfl
    rw [hlargest]
    omega

theorem min_extend (m digit limit : Nat) :
    min (10 * min m limit + digit) limit = min (10 * m + digit) limit := by
  omega

theorem toNat_foldl_extend {digits : Bytes} (h : ∀ b ∈ digits, Pattern.isDigit b = true)
    {n : UInt64} {m : Nat} (hn : n.toNat = min m (2 ^ 63 - 1)) :
    (digits.foldl extend n).toNat =
      min (digits.foldl (fun n b => 10 * n + (b.toNat - '0'.toNat)) m) (2 ^ 63 - 1) := by
  induction digits generalizing n m with
  | nil => exact hn
  | cons b digits ih =>
    obtain ⟨hb, hdigits⟩ := List.forall_mem_cons.1 h
    refine ih hdigits ?_
    rw [toNat_extend (hn ▸ Nat.min_le_right _ _) hb, hn, min_extend]

/-- A numeral of any length has the low 32 bits, with a sign, of the number that it stands for, or
of the largest number of 64 bits if that is less. -/
theorem number_eq {digits : Bytes} (h : ∀ b ∈ digits, Pattern.isDigit b = true) :
    number digits = (BitVec.ofNat 32 (min (decimal digits) (2 ^ 63 - 1))).toInt := by
  rw [decimal_eq_foldl, ← toNat_foldl_extend h (rfl : (0 : UInt64).toNat = min 0 (2 ^ 63 - 1))]
  rfl

theorem toInt_low_eq_iff (n : Nat) :
    (BitVec.ofNat 32 (min n (2 ^ 63 - 1))).toInt = n ↔ n < 2 ^ 31 := by
  rw [BitVec.toInt_ofNat', Int.bmod_def]
  split <;> omega

theorem toInt_low_of_le {n : Nat} (h : 2 ^ 63 - 1 ≤ n) :
    (BitVec.ofNat 32 (min n (2 ^ 63 - 1))).toInt = -1 := by
  rw [Nat.min_eq_right h]
  rfl

end LevelScript.Checker.Lexeme
