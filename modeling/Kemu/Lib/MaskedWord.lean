import Mathlib.Tactic.Common

/-!
# Fields under a mask

A word of any width whose bits are shared by several fields, each with a mask
of its own.  A field is written by clearing the bits of its mask and setting
those of the new value; the fields of the other masks do not notice.
-/

namespace Kemu.Lib.MaskedWord

variable {w : Nat} (word value : BitVec w)
  {mask other : BitVec w}

/-- A word whose bits under a mask are replaced. -/
def put (mask word value : BitVec w) : BitVec w :=
  word &&& ~~~ mask ||| value

/-- The field is the new value, which fits the mask. -/
theorem put_and_mask (fits : value &&& mask = value) :
    put mask word value &&& mask = value := by
  apply BitVec.eq_of_getElem_eq
  intro index inside
  have fit := congrArg (fun word : BitVec w => word[index]) fits
  simp only [put, BitVec.getElem_and, BitVec.getElem_or,
    BitVec.getElem_not] at fit ⊢
  revert fit
  cases word[index] <;> cases mask[index] <;> cases value[index] <;> simp

/-- A field with another mask is what it was. -/
theorem put_and_other (fits : value &&& mask = value)
    (apart : mask &&& other = 0#w) :
    put mask word value &&& other = word &&& other := by
  apply BitVec.eq_of_getElem_eq
  intro index inside
  have fit := congrArg (fun word : BitVec w => word[index]) fits
  have bit := congrArg (fun word : BitVec w => word[index]) apart
  simp only [put, BitVec.getElem_and, BitVec.getElem_or,
    BitVec.getElem_not, BitVec.getElem_zero] at fit bit ⊢
  revert fit bit
  cases word[index] <;> cases mask[index] <;> cases value[index] <;>
    cases other[index] <;> simp

/-- What is under a mask fits it. -/
theorem and_mask_fits : value &&& mask &&& mask = value &&& mask := by
  rw [BitVec.and_assoc, BitVec.and_self]

end Kemu.Lib.MaskedWord
