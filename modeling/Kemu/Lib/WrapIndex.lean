import Mathlib.Data.Nat.Basic
import Mathlib.Data.UInt

/-!
# Free-running sixteen-bit indices

A producer and a consumer of a ring count entries with free-running indices
which are stored modulo `2 ^ 16`.  The true count is a natural number that
only the reasoning sees; `stamp` is the stored index.  The lemmas below give
the stored distance between two indices in terms of the true counts, which
is exact only while the counts are less than a full turn apart.
-/

namespace Kemu.Lib.WrapIndex

/-- The number of distinct values of a sixteen-bit index. -/
abbrev turn : Nat := 65536

/-- The stored form of a true count. -/
def stamp (count : Nat) : UInt16 :=
  UInt16.ofNat count

@[simp]
theorem stamp_toNat (count : Nat) :
    (stamp count).toNat = count % turn := by
  simp [stamp, turn]

theorem stamp_succ (count : Nat) :
    stamp (count + 1) = stamp count + 1 := by
  simp [stamp, UInt16.ofNat_add]

theorem stamp_add (count amount : Nat) :
    stamp (count + amount) = stamp count + stamp amount := by
  simp [stamp, UInt16.ofNat_add]

/-- The stored distance is the true distance modulo a full turn. -/
theorem stamp_sub_toNat
    {older newer : Nat} (ordered : older ≤ newer) :
    (stamp newer - stamp older).toNat = (newer - older) % turn := by
  rw [UInt16.toNat_sub, stamp_toNat, stamp_toNat]
  simp only [turn]
  omega

/-- Less than a full turn apart, equal stored indices mean equal counts. -/
theorem stamp_inj_of_lt
    {older newer : Nat} (ordered : older ≤ newer)
    (close : newer - older < turn)
    (equal : stamp newer = stamp older) :
    newer = older := by
  have remainders := congrArg UInt16.toNat equal
  rw [stamp_toNat, stamp_toNat] at remainders
  simp only [turn] at remainders close
  omega

end Kemu.Lib.WrapIndex
