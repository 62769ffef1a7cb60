import Mathlib.Algebra.Order.BigOperators.Group.Finset
import Mathlib.Data.Fintype.Basic
import Mathlib.Logic.Function.Basic

/-!
# Tallies over finitely many parties

A counter that several parties share is usually right up to what each of
them still has to add to it.  The tally of the parties is the sum of these
amounts; when one party changes, the tally changes by what that party does.
-/

namespace Kemu.Lib.Tally

universe u v

variable {Party : Type u} {State : Type v} [Fintype Party]

/-- What the parties weigh together. -/
def tally (weight : State → Nat) (states : Party → State) : Nat :=
  ∑ party, weight (states party)

/-- One party changes. -/
theorem tally_update [DecidableEq Party] (weight : State → Nat)
    (states : Party → State) (party : Party) (new : State) :
    tally weight (Function.update states party new) +
        weight (states party) =
      tally weight states + weight new := by
  have others :
      ∑ other ∈ Finset.univ.erase party,
          weight (Function.update states party new other) =
        ∑ other ∈ Finset.univ.erase party, weight (states other) := by
    apply Finset.sum_congr rfl
    intro other member
    rw [Function.update_of_ne (Finset.ne_of_mem_erase member)]
  have before :=
    Finset.add_sum_erase Finset.univ (fun other => weight (states other))
      (Finset.mem_univ party)
  have after :=
    Finset.add_sum_erase Finset.univ
      (fun other => weight (Function.update states party new other))
      (Finset.mem_univ party)
  simp only [Function.update_self] at after
  unfold tally
  omega

/-- No party weighs more than all together. -/
theorem weight_le_tally (weight : State → Nat) (states : Party → State)
    (party : Party) : weight (states party) ≤ tally weight states :=
  Finset.single_le_sum (f := fun other => weight (states other))
    (fun _ _ => Nat.zero_le _) (Finset.mem_univ party)

/-- In a tally of nothing every party weighs nothing. -/
theorem weight_of_tally_zero {weight : State → Nat}
    {states : Party → State} (nothing : tally weight states = 0)
    (party : Party) : weight (states party) = 0 :=
  Nat.le_zero.1 (nothing ▸ weight_le_tally weight states party)

/-- Some party is responsible for a tally of something. -/
theorem exists_of_tally_pos {weight : State → Nat}
    {states : Party → State} (something : 0 < tally weight states) :
    ∃ party, 0 < weight (states party) := by
  obtain ⟨party, _, positive⟩ := Finset.sum_pos_iff.1 something
  exact ⟨party, positive⟩

/-- Parties that all weigh nothing. -/
theorem tally_eq_zero {weight : State → Nat} {states : Party → State}
    (nothing : ∀ party, weight (states party) = 0) :
    tally weight states = 0 :=
  Finset.sum_eq_zero fun party _ => nothing party

end Kemu.Lib.Tally
