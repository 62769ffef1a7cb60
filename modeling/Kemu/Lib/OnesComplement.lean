import Mathlib.Data.List.Basic
import Mathlib.Tactic.Ring

/-!
# Ones' complement sums

The checksum of the internet protocols: bytes are added as 16-bit words and
the carries are added to the result until there are none.  A byte counts once
or 256 times, depending on whether its position is even, so a sum can be
taken apart at any position and its parts can be moved by an even number of
bytes.

The sum is a number modulo 65535, where 256 is its own inverse.  That is why
the order of the bytes in a word does not matter to whoever verifies it.
-/

namespace Kemu.Lib.OnesComplement

/-! ## The sum of the words -/

/-- How often a byte counts at a position. -/
def weight (position : Nat) : Nat :=
  if position % 2 = 0 then 1 else 256

/--
The sum of the 16-bit words that bytes from a position on belong to.  From an
even position on the first byte of a word is the least significant one; from
an odd one on it is the most significant one.
-/
def sumAt : Nat → List UInt8 → Nat
  | _, [] => 0
  | position, byte :: rest =>
      weight position * byte.toNat + sumAt (position + 1) rest

@[simp]
theorem sumAt_nil (position : Nat) : sumAt position [] = 0 :=
  rfl

theorem sumAt_cons (position : Nat) (byte : UInt8) (rest : List UInt8) :
    sumAt position (byte :: rest) =
      weight position * byte.toNat + sumAt (position + 1) rest :=
  rfl

theorem sumAt_append (position : Nat) (first second : List UInt8) :
    sumAt position (first ++ second) =
      sumAt position first + sumAt (position + first.length) second := by
  induction first generalizing position with
  | nil => simp
  | cons byte rest induction =>
      rw [List.cons_append, sumAt_cons, sumAt_cons, induction,
        List.length_cons, Nat.add_assoc, Nat.add_assoc, Nat.add_comm 1]

theorem weight_congr {position other : Nat}
    (same : position % 2 = other % 2) : weight position = weight other := by
  unfold weight
  rw [same]

/-- Only the parity of the position matters. -/
theorem sumAt_congr {position other : Nat}
    (same : position % 2 = other % 2) (bytes : List UInt8) :
    sumAt position bytes = sumAt other bytes := by
  induction bytes generalizing position other with
  | nil => rfl
  | cons byte rest induction =>
      have next : (position + 1) % 2 = (other + 1) % 2 := by omega
      rw [sumAt_cons, sumAt_cons, weight_congr same, induction next]

/-- Behind an even number of bytes a sum starts again. -/
theorem sumAt_append_even (position : Nat) {first : List UInt8}
    (even : first.length % 2 = 0) (second : List UInt8) :
    sumAt position (first ++ second) =
      sumAt position first + sumAt position second := by
  have same : (position + first.length) % 2 = position % 2 := by omega
  rw [sumAt_append, sumAt_congr same]

@[simp]
theorem sumAt_replicate_zero (position count : Nat) :
    sumAt position (List.replicate count 0) = 0 := by
  induction count generalizing position with
  | zero => rfl
  | succ count induction =>
      rw [List.replicate_succ, sumAt_cons, induction]
      simp

/-- A word is added as one number. -/
theorem sumAt_word {position : Nat} (even : position % 2 = 0)
    (low high : UInt8) (rest : List UInt8) :
    sumAt position (low :: high :: rest) =
      low.toNat + 256 * high.toNat + sumAt position rest := by
  have odd : ¬ (position + 1) % 2 = 0 := by omega
  have same : (position + 1 + 1) % 2 = position % 2 := by omega
  rw [sumAt_cons, sumAt_cons, sumAt_congr same, weight, if_pos even, weight,
    if_neg odd, Nat.one_mul, Nat.add_assoc]

/-- A word in the place of zeros is added. -/
theorem sumAt_set_word {position : Nat} {before : List UInt8}
    (even : (position + before.length) % 2 = 0) (low high : UInt8)
    (after : List UInt8) :
    sumAt position (before ++ low :: high :: after) =
      sumAt position (before ++ 0 :: 0 :: after) +
        (low.toNat + 256 * high.toNat) := by
  rw [sumAt_append, sumAt_append, sumAt_word even, sumAt_word even,
    UInt8.toNat_zero]
  omega

/-- In the other byte order a sum is 256 times as large. -/
theorem sumAt_succ_mod (position : Nat) (bytes : List UInt8) :
    sumAt (position + 1) bytes % 65535 =
      256 * sumAt position bytes % 65535 := by
  induction bytes generalizing position with
  | nil => rfl
  | cons byte rest induction =>
      have next := induction (position + 1)
      rw [sumAt_cons, sumAt_cons]
      unfold weight
      split
      next odd =>
        have even : ¬ position % 2 = 0 := by omega
        rw [if_neg even]
        omega
      next even =>
        have odd : position % 2 = 0 := by omega
        rw [if_pos odd]
        omega

/-- Moved by any number of bytes, a sum grows by 256 times at most. -/
theorem sumAt_le (position other : Nat) (bytes : List UInt8) :
    sumAt position bytes ≤ 256 * sumAt other bytes := by
  induction bytes generalizing position other with
  | nil => exact Nat.le_refl 0
  | cons byte rest induction =>
      have tail := induction (position + 1) (other + 1)
      have heavy : weight position ≤ 256 := by
        unfold weight
        split <;> omega
      have light : 1 ≤ weight other := by
        unfold weight
        split <;> omega
      have head :
          weight position * byte.toNat ≤
            256 * (weight other * byte.toNat) :=
        calc
          weight position * byte.toNat ≤ 256 * byte.toNat :=
            Nat.mul_le_mul_right _ heavy
          _ ≤ 256 * (weight other * byte.toNat) :=
            Nat.mul_le_mul_left _ (Nat.le_mul_of_pos_left _ light)
      rw [sumAt_cons, sumAt_cons]
      omega

/-! ## Adding the carries -/

/-- Add the carries to the lowest 16 bits until there are none. -/
def fold (sum : Nat) : Nat :=
  if sum < 65536 then sum else fold (sum % 65536 + sum / 65536)
termination_by sum
decreasing_by omega

theorem fold_of_lt {sum : Nat} (small : sum < 65536) : fold sum = sum := by
  rw [fold, if_pos small]

theorem fold_lt (sum : Nat) : fold sum < 65536 := by
  fun_induction fold sum with
  | case1 sum small => exact small
  | case2 sum large induction => exact induction

theorem fold_mod (sum : Nat) : fold sum % 65535 = sum % 65535 := by
  fun_induction fold sum with
  | case1 sum small => rfl
  | case2 sum large induction =>
      rw [induction]
      omega

theorem fold_pos {sum : Nat} : 0 < fold sum ↔ 0 < sum := by
  fun_induction fold sum with
  | case1 sum small => exact Iff.rfl
  | case2 sum large induction =>
      rw [induction]
      omega

/-- All bits are set when the sum is none but a multiple of 65535. -/
theorem fold_eq_iff {sum : Nat} :
    fold sum = 0xffff ↔ 0 < sum ∧ sum % 65535 = 0 := by
  have small := fold_lt sum
  have same := fold_mod sum
  have positive := @fold_pos sum
  omega

/--
With its complement added, a sum has all bits set; with more added, exactly
if that is a multiple of 65535.
-/
theorem fold_complement_iff (sum more : Nat) :
    fold (sum + more + (0xffff - fold sum)) = 0xffff ↔ more % 65535 = 0 := by
  have small := fold_lt sum
  have same := fold_mod sum
  have positive := @fold_pos sum
  rw [fold_eq_iff]
  omega

theorem fold_complement (sum : Nat) :
    fold (sum + (0xffff - fold sum)) = 0xffff :=
  (fold_complement_iff sum 0).2 rfl

/-! ## Verifying -/

/-- The ones' complement sum has all bits set, in either byte order. -/
def Verifies (bytes : List UInt8) : Prop :=
  fold (sumAt 0 bytes) = 0xffff ∧ fold (sumAt 1 bytes) = 0xffff

/-- Whoever verifies may add the words in its own byte order. -/
theorem verifies_iff (bytes : List UInt8) :
    Verifies bytes ↔ fold (sumAt 0 bytes) = 0xffff := by
  refine and_iff_left_of_imp fun native => ?_
  have bound := sumAt_le 0 1 bytes
  have swapped : sumAt 1 bytes % 65535 = 256 * sumAt 0 bytes % 65535 :=
    sumAt_succ_mod 0 bytes
  rw [fold_eq_iff] at native ⊢
  omega

end Kemu.Lib.OnesComplement
