import Mathlib.Order.MinMax

/-!
# Closed intervals of a linear order

An interval is given by its first and its last point.  Two intervals meet
when neither is entirely on one side of the other; growing one by another
that it meets adds exactly the points of the other, and it then meets no
interval that neither of them met.
-/

namespace Kemu.Lib.ClosedInterval

universe u

/-- An interval; it has no points if the last one is before the first. -/
structure IntervalOf (Point : Type u) where
  first : Point
  last : Point
deriving DecidableEq, Repr

namespace IntervalOf

variable {Point : Type u} [LinearOrder Point]

/-- A point of an interval. -/
def Holds (span : IntervalOf Point) (point : Point) : Prop :=
  span.first ≤ point ∧ point ≤ span.last

/-- An interval has a point. -/
def Nonempty (span : IntervalOf Point) : Prop :=
  span.first ≤ span.last

/-- Neither interval is entirely before the other. -/
def Meets (left right : IntervalOf Point) : Prop :=
  left.first ≤ right.last ∧ right.first ≤ left.last

instance (left right : IntervalOf Point) : Decidable (Meets left right) :=
  inferInstanceAs (Decidable (_ ∧ _))

instance (span : IntervalOf Point) : Decidable (Nonempty span) :=
  inferInstanceAs (Decidable (_ ≤ _))

/-- The least interval around two others. -/
def hull (left right : IntervalOf Point) : IntervalOf Point where
  first := min left.first right.first
  last := max left.last right.last

variable {left right other : IntervalOf Point}

theorem Meets.symm (meets : Meets left right) : Meets right left :=
  ⟨meets.2, meets.1⟩

/-- Intervals that do not meet have no point in common. -/
theorem not_holds_of_not_meets (apart : ¬ Meets left right)
    (point : Point) : ¬ (left.Holds point ∧ right.Holds point) := by
  rintro ⟨⟨leftFirst, leftLast⟩, rightFirst, rightLast⟩
  exact apart
    ⟨leftFirst.trans rightLast, rightFirst.trans leftLast⟩

theorem Nonempty.hull (nonempty : left.Nonempty) :
    (left.hull right).Nonempty :=
  (min_le_left _ _).trans (nonempty.trans (le_max_left _ _))

/-- The hull of intervals that meet has no points of its own. -/
theorem holds_hull_iff (meets : Meets left right) (point : Point) :
    (left.hull right).Holds point ↔
      left.Holds point ∨ right.Holds point := by
  obtain ⟨leftBefore, rightBefore⟩ := meets
  simp only [Holds, IntervalOf.hull, min_le_iff, le_max_iff]
  constructor
  · rintro ⟨first | first, last | last⟩
    · exact Or.inl ⟨first, last⟩
    · rcases le_total point left.last with early | late
      · exact Or.inl ⟨first, early⟩
      · exact Or.inr ⟨rightBefore.trans late, last⟩
    · rcases le_total point right.last with early | late
      · exact Or.inr ⟨first, early⟩
      · exact Or.inl ⟨leftBefore.trans late, last⟩
    · exact Or.inr ⟨first, last⟩
  · rintro (⟨first, last⟩ | ⟨first, last⟩)
    · exact ⟨Or.inl first, Or.inl last⟩
    · exact ⟨Or.inr first, Or.inr last⟩

/--
An interval apart from one of two that meet is apart from their hull if and
only if it is apart from the other one.
-/
theorem meets_hull_iff (nonempty : other.Nonempty)
    (apart : ¬ Meets other left) (meets : Meets left right) :
    Meets other (left.hull right) ↔ Meets other right := by
  obtain ⟨leftBefore, rightBefore⟩ := meets
  simp only [Meets, IntervalOf.hull, le_max_iff, min_le_iff]
  constructor
  · rintro ⟨first | first, last | last⟩
    · exact absurd ⟨first, last⟩ apart
    · refine ⟨?_, last⟩
      rcases le_total other.first right.last with early | late
      · exact early
      · exact absurd
          ⟨first, (leftBefore.trans late).trans nonempty⟩ apart
    · refine ⟨first, ?_⟩
      rcases le_total right.first other.last with early | late
      · exact early
      · exact absurd
          ⟨nonempty.trans (late.trans rightBefore), last⟩ apart
    · exact ⟨first, last⟩
  · rintro ⟨first, last⟩
    exact ⟨Or.inr first, Or.inr last⟩

end IntervalOf

end Kemu.Lib.ClosedInterval
