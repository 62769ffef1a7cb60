import Mathlib.Algebra.Group.Nat.Defs
import Mathlib.Tactic.Common

/-!
# Rounding up to a power of two

A word is rounded up to a multiple of a power of two by adding all but one of
the power and clearing the bits below it.  The sum may wrap around, and then
the result is zero.
-/

namespace Kemu.Lib.Align

variable {w : Nat}

/-- The least multiple of `a` that is not below `x`, up to wrapping. -/
def align (x a : BitVec w) : BitVec w :=
  (x + (a - 1#w)) &&& ~~~(a - 1#w)

/-- Clearing the bits below a power of two. -/
theorem toNat_clear_low {y mask : BitVec w} {k : Nat}
    (low : mask.toNat = 2 ^ k - 1) :
    (y &&& ~~~mask).toNat = y.toNat / 2 ^ k * 2 ^ k := by
  apply Nat.eq_of_testBit_eq
  intro index
  have maskBit : mask.getLsbD index = decide (index < k) := by
    rw [← BitVec.testBit_toNat, low, Nat.testBit_two_pow_sub_one]
  rw [BitVec.testBit_toNat, BitVec.getLsbD_and, BitVec.getLsbD_not, maskBit,
    Nat.testBit_mul_two_pow, Nat.testBit_div_two_pow]
  by_cases above : k ≤ index
  · rw [Nat.sub_add_cancel above, BitVec.testBit_toNat]
    by_cases inside : index < w
    · simp [above, inside, Nat.not_lt.2 above]
    · simp [BitVec.getLsbD_of_ge _ _ (Nat.not_lt.1 inside)]
  · simp [above, Nat.not_le.1 above]

/-- A power of two less one, as a word. -/
theorem toNat_pred {a : BitVec w} {k : Nat} (power : a.toNat = 2 ^ k) :
    (a - 1#w).toNat = 2 ^ k - 1 := by
  have some : 1 ≤ 2 ^ k := Nat.one_le_two_pow
  have fits := a.isLt
  rcases Nat.eq_zero_or_pos w with rfl | positive
  · rw [BitVec.eq_nil a] at power
    change 0 = 2 ^ k at power
    omega
  · have one : (1#w).toNat = 1 := by
      rw [BitVec.toNat_ofNat]
      exact Nat.mod_eq_of_lt (Nat.one_lt_two_pow (Nat.ne_of_gt positive))
    rw [BitVec.toNat_sub_of_le, power, one]
    rw [BitVec.le_def, one, power]
    exact some

theorem align_zero (x : BitVec w) : align x 0#w = 0#w := by
  rw [align, BitVec.zero_sub, BitVec.neg_one_eq_allOnes,
    BitVec.not_allOnes, BitVec.and_zero]

theorem zero_align (a : BitVec w) : align 0#w a = 0#w := by
  rw [align, BitVec.zero_add]
  exact BitVec.and_not_self _

variable {x a : BitVec w} {k : Nat}

theorem toNat_align (power : a.toNat = 2 ^ k) :
    (align x a).toNat =
      (x.toNat + (2 ^ k - 1)) % 2 ^ w / 2 ^ k * 2 ^ k := by
  rw [align, toNat_clear_low (toNat_pred power), BitVec.toNat_add,
    toNat_pred power]

theorem dvd_align (power : a.toNat = 2 ^ k) : 2 ^ k ∣ (align x a).toNat := by
  rw [toNat_align power]
  exact Nat.dvd_mul_left _ _

/-- What is rounded to a power of two has room for it. -/
theorem align_room (power : a.toNat = 2 ^ k) :
    (align x a).toNat + 2 ^ k ≤ 2 ^ w := by
  have fits : 2 ^ k < 2 ^ w := power ▸ a.isLt
  have divides : 2 ^ k ∣ 2 ^ w :=
    Nat.pow_dvd_pow 2
      (Nat.le_of_lt ((Nat.pow_lt_pow_iff_right (by decide)).1 fits))
  obtain ⟨quotient, whole⟩ := divides
  have below := (align x a).isLt
  rw [toNat_align power] at below ⊢
  generalize (x.toNat + (2 ^ k - 1)) % 2 ^ w / 2 ^ k = multiple at below ⊢
  rw [whole, Nat.mul_comm] at below
  have next : multiple + 1 ≤ quotient := Nat.lt_of_mul_lt_mul_left below
  calc
    multiple * 2 ^ k + 2 ^ k = 2 ^ k * (multiple + 1) := by
      rw [Nat.mul_succ, Nat.mul_comm]
    _ ≤ 2 ^ k * quotient := Nat.mul_le_mul_left _ next
    _ = 2 ^ w := whole.symm

/-- Without wrapping, the result is not below what is rounded. -/
theorem le_align (power : a.toNat = 2 ^ k) (nonzero : align x a ≠ 0#w) :
    x.toNat ≤ (align x a).toNat := by
  have positive : 0 < 2 ^ k := Nat.two_pow_pos k
  have fits : 2 ^ k < 2 ^ w := power ▸ a.isLt
  have below := x.isLt
  rw [toNat_align power]
  rcases Nat.lt_or_ge (x.toNat + (2 ^ k - 1)) (2 ^ w) with plain | wraps
  · rw [Nat.mod_eq_of_lt plain]
    have parts := Nat.div_add_mod' (x.toNat + (2 ^ k - 1)) (2 ^ k)
    have small := Nat.mod_lt (x.toNat + (2 ^ k - 1)) positive
    omega
  · exfalso
    apply nonzero
    apply BitVec.eq_of_toNat_eq
    have less : x.toNat + (2 ^ k - 1) - 2 ^ w < 2 ^ k := by omega
    rw [toNat_align power, Nat.mod_eq_sub_mod wraps,
      Nat.mod_eq_of_lt (Nat.lt_trans less fits), Nat.div_eq_of_lt less,
      Nat.zero_mul]
    rfl

/-- A power of two is rounded to the larger of two powers. -/
theorem toNat_align_power {j : Nat} (left : x.toNat = 2 ^ j)
    (power : a.toNat = 2 ^ k) : (align x a).toNat = 2 ^ max j k := by
  have positive : 0 < 2 ^ k := Nat.two_pow_pos k
  have first : j + 1 ≤ w :=
    (Nat.pow_lt_pow_iff_right (by decide)).1 (left ▸ x.isLt)
  have second : k + 1 ≤ w :=
    (Nat.pow_lt_pow_iff_right (by decide)).1 (power ▸ a.isLt)
  have half (i : Nat) (small : i + 1 ≤ w) : 2 * 2 ^ i ≤ 2 ^ w := by
    rw [← Nat.pow_succ']
    exact Nat.pow_le_pow_right (by decide) small
  have plain : 2 ^ j + (2 ^ k - 1) < 2 ^ w := by
    have one := half j first
    have two := half k second
    omega
  rw [toNat_align power, left, Nat.mod_eq_of_lt plain]
  rcases Nat.lt_or_ge j k with less | more
  · have small : 2 ^ j < 2 ^ k := Nat.pow_lt_pow_right (by decide) less
    have some : 1 ≤ 2 ^ j := Nat.one_le_two_pow
    have once : (2 ^ j + (2 ^ k - 1)) / 2 ^ k = 1 :=
      Nat.div_eq_of_lt_le (by omega) (by omega)
    rw [once, Nat.one_mul, Nat.max_eq_right (Nat.le_of_lt less)]
  · obtain ⟨extra, rfl⟩ := Nat.exists_eq_add_of_le more
    have whole :
        (2 ^ (k + extra) + (2 ^ k - 1)) / 2 ^ k = 2 ^ extra := by
      rw [Nat.pow_add, Nat.add_comm, Nat.add_mul_div_left _ _ positive,
        Nat.div_eq_of_lt (by omega), Nat.zero_add]
    rw [whole, Nat.max_eq_left more, ← Nat.pow_add, Nat.add_comm]

end Kemu.Lib.Align
