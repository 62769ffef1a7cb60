import Mathlib.Algebra.GroupWithZero.Nat
import Mathlib.Logic.Function.Basic
import Mathlib.Tactic.Common

/-!
# Bitmaps of words

An unbounded set of numbers is kept as bits in a sequence of words.  Number
`n` has bit `n % w` of word `n / w`; it is tested, set and cleared through a
mask with this one bit.  The masks are decided here once, so that users see
which numbers are in the map only.
-/

namespace Kemu.Lib

/-- The words of a bitmap. -/
abbrev Bitmap (w : Nat) := Nat → BitVec w

namespace Bitmap

variable {w : Nat}

/-- The mask of a number in its word. -/
def mask (w n : Nat) : BitVec w :=
  1#w <<< (n % w)

/-- Whether the bit of a number is set. -/
def test (map : Bitmap w) (n : Nat) : Bool :=
  map (n / w) &&& mask w n != 0#w

/-- Set the bit of a number. -/
def set (map : Bitmap w) (n : Nat) : Bitmap w :=
  Function.update map (n / w) (map (n / w) ||| mask w n)

/-- Clear the bit of a number. -/
def clear (map : Bitmap w) (n : Nat) : Bitmap w :=
  Function.update map (n / w) (map (n / w) &&& ~~~mask w n)

/-- The map with all bits clear. -/
def empty (w : Nat) : Bitmap w :=
  fun _ => 0#w

theorem mask_eq_twoPow (w n : Nat) : mask w n = BitVec.twoPow w (n % w) :=
  (BitVec.twoPow_eq w (n % w)).symm

theorem test_eq_getLsbD [NeZero w] (map : Bitmap w) (n : Nat) :
    test map n = (map (n / w)).getLsbD (n % w) := by
  have inside : n % w < w := Nat.mod_lt _ (Nat.pos_of_neZero w)
  rw [test, mask_eq_twoPow, BitVec.and_twoPow]
  cases (map (n / w)).getLsbD (n % w) with
  | false => simp
  | true =>
      have bit : (BitVec.twoPow w (n % w)).getLsbD (n % w) = true := by
        simp [inside]
      have nonzero : BitVec.twoPow w (n % w) ≠ 0#w := by
        intro zero
        simp [zero] at bit
      simpa using nonzero

/-- Two numbers have the same bit exactly when they are equal. -/
private theorem eq_iff_div_mod (n other : Nat) :
    other = n ↔ other / w = n / w ∧ other % w = n % w := by
  refine ⟨fun same => same ▸ ⟨rfl, rfl⟩, fun same => ?_⟩
  rw [← Nat.div_add_mod other w, ← Nat.div_add_mod n w, same.1, same.2]

theorem getLsbD_mask [NeZero w] (n bit : Nat) :
    (mask w n).getLsbD bit = decide (bit = n % w) := by
  have inside : n % w < w := Nat.mod_lt _ (Nat.pos_of_neZero w)
  rw [mask_eq_twoPow, BitVec.getLsbD_twoPow]
  simp [inside, eq_comm]

/-- The map after one word of it was replaced. -/
@[simp]
theorem test_update [NeZero w] (map : Bitmap w) (index : Nat)
    (word : BitVec w) (n : Nat) :
    test (Function.update map index word) n =
      if n / w = index then word.getLsbD (n % w) else test map n := by
  rw [test_eq_getLsbD, test_eq_getLsbD, Function.update_apply]
  split <;> rfl

@[simp]
theorem test_set [NeZero w] (map : Bitmap w) (n other : Nat) :
    test (set map n) other = (decide (other = n) || test map other) := by
  rw [set, test_update, BitVec.getLsbD_or, getLsbD_mask]
  by_cases here : other / w = n / w
  · rw [if_pos here, ← here, test_eq_getLsbD, Bool.or_comm]
    congr 1
    simp [eq_iff_div_mod (w := w) n other, here]
  · have apart : other ≠ n := fun same => here (same ▸ rfl)
    simp [here, apart]

@[simp]
theorem test_clear [NeZero w] (map : Bitmap w) (n other : Nat) :
    test (clear map n) other = (!decide (other = n) && test map other) := by
  have inside : other % w < w := Nat.mod_lt _ (Nat.pos_of_neZero w)
  rw [clear, test_update, BitVec.getLsbD_and, BitVec.getLsbD_not,
    getLsbD_mask]
  by_cases here : other / w = n / w
  · rw [if_pos here, ← here, test_eq_getLsbD, Bool.and_comm]
    congr 1
    simp [eq_iff_div_mod (w := w) n other, here, inside]
  · have apart : other ≠ n := fun same => here (same ▸ rfl)
    simp [here, apart]

@[simp]
theorem test_empty [NeZero w] (n : Nat) : test (empty w) n = false := by
  rw [test_eq_getLsbD]
  exact BitVec.getLsbD_zero

/-- No number of a zero word is in the map. -/
theorem test_of_word_zero [NeZero w] {map : Bitmap w} {n : Nat}
    (zero : map (n / w) = 0#w) : test map n = false := by
  rw [test_eq_getLsbD, zero]
  exact BitVec.getLsbD_zero

end Bitmap

end Kemu.Lib
