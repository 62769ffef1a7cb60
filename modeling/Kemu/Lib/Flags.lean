import Mathlib.Tactic.Common

/-!
# Flags of a register

A register of eight bits holds several flags, each under a mask.  Setting and
clearing the bits of one mask decides that mask and leaves every mask that
has no bit in common with it.
-/

namespace Kemu.Lib.Flags

variable (register : UInt8) {mask other : UInt8}

@[simp]
theorem set_self (mask : UInt8) :
    (register ||| mask) &&& mask = mask := by
  apply UInt8.toBitVec_inj.mp
  ext index inside
  simp only [UInt8.toBitVec_and, UInt8.toBitVec_or, BitVec.getElem_and,
    BitVec.getElem_or]
  cases register.toBitVec[index] <;> simp

@[simp]
theorem clear_self (mask : UInt8) :
    register &&& ~~~ mask &&& mask = 0 := by
  apply UInt8.toBitVec_inj.mp
  ext index inside
  simp

/-- Setting bits leaves what has none of them. -/
theorem set_other (apart : mask &&& other = 0) :
    (register ||| mask) &&& other = register &&& other := by
  have distributed :
      (register ||| mask) &&& other =
        (register &&& other) ||| (mask &&& other) := by
    apply UInt8.toBitVec_inj.mp
    ext index inside
    simp only [UInt8.toBitVec_and, UInt8.toBitVec_or, BitVec.getElem_and,
      BitVec.getElem_or]
    exact Bool.and_or_distrib_right _ _ _
  rw [distributed, apart, UInt8.or_zero]

/-- Clearing bits leaves what has none of them. -/
theorem clear_other (apart : mask &&& other = 0) :
    register &&& ~~~ mask &&& other = register &&& other := by
  apply UInt8.toBitVec_inj.mp
  ext index inside
  have bit := congrArg (fun value => value.toBitVec[index]) apart
  simp only [UInt8.toBitVec_and, UInt8.toBitVec_not, BitVec.getElem_and,
    BitVec.getElem_not] at bit ⊢
  cases hidden : other.toBitVec[index] <;> simp_all

/-- Bits that are clear are cleared without effect. -/
theorem clear_of_clear (clear : register &&& mask = 0) :
    register &&& ~~~ mask = register := by
  apply UInt8.toBitVec_inj.mp
  ext index inside
  have bit := congrArg (fun value => value.toBitVec[index]) clear
  simp only [UInt8.toBitVec_and, UInt8.toBitVec_not, BitVec.getElem_and,
    BitVec.getElem_not] at bit ⊢
  cases hidden : mask.toBitVec[index] <;> simp_all

theorem clear_eq_self_iff :
    register &&& ~~~ mask = register ↔ register &&& mask = 0 := by
  refine ⟨fun same => ?_, clear_of_clear register⟩
  rw [← same, clear_self]

/-- Bits of two masks are cleared together. -/
theorem clear_clear (mask other : UInt8) :
    register &&& ~~~ mask &&& ~~~ other = register &&& ~~~ (mask ||| other) := by
  have both : ~~~ (mask ||| other) = ~~~ mask &&& ~~~ other := by
    apply UInt8.toBitVec_inj.mp
    ext index inside
    simp
  rw [UInt8.and_assoc, both]

end Kemu.Lib.Flags
