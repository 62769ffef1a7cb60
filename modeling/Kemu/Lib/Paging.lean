import Mathlib.Data.List.Infix

/-!
# Lists given in parts

A list that is asked for in parts is given from its front: each answer has
some of what is left, and an answer without any says that nothing is left
and is the last one.  Whoever keeps asking has the whole list then.
-/

namespace Kemu.Lib.Paging

universe u

variable {Item : Type u}

/-- The answers that some items may be given in. -/
inductive Paged : List Item → List (List Item) → Prop where
  | unasked (items : List Item) : Paged items []
  | finished : Paged [] [[]]
  | part {part rest : List Item} {answers : List (List Item)}
      (some : part ≠ []) (later : Paged rest answers) :
      Paged (part ++ rest) (part :: answers)

namespace Paged

variable {items : List Item} {answers : List (List Item)}

/-- Nothing is left out, put in or given twice. -/
theorem flatten_prefix (paged : Paged items answers) :
    answers.flatten <+: items := by
  induction paged with
  | unasked items => exact List.nil_prefix
  | finished => exact List.nil_prefix
  | part _ _ induction =>
      rw [List.flatten_cons]
      exact (List.prefix_append_right_inj _).mpr induction

/-- The empty answer comes when all has been given. -/
theorem flatten_eq (paged : Paged items answers) (empty : [] ∈ answers) :
    answers.flatten = items := by
  induction paged with
  | unasked items => cases empty
  | finished => rfl
  | part some _ induction =>
      have later := (List.mem_cons.mp empty).resolve_left some.symm
      rw [List.flatten_cons, induction later]

/-- It comes after no more answers than there are items. -/
theorem ends (paged : Paged items answers)
    (many : items.length < answers.length) : [] ∈ answers := by
  induction paged with
  | unasked items => exact absurd many (Nat.not_lt_zero _)
  | finished => exact List.mem_singleton_self []
  | part some _ induction =>
      have first := List.length_pos_iff.mpr some
      rw [List.length_append, List.length_cons] at many
      exact List.mem_cons_of_mem _ (induction (by omega))

end Paged

end Kemu.Lib.Paging
