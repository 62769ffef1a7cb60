import Mathlib.Data.Nat.Init
import Mathlib.Order.Lattice
import Mathlib.Tactic.Common

/-!
# Selecting the best of a range

A scan looks at the numbers below a bound in increasing order and keeps the
best candidate so far.  A later candidate replaces the one that is kept only
if its key is strictly greater, so that the first one stays among equals.
What a scan has found is stated as an assertion about the bound, with one
rule for each thing that a round can do.
-/

namespace Kemu.Lib.Selection

universe u

variable
    {Key : Type u} [LinearOrder Key]
    {candidate other : Nat → Prop} {key rank : Nat → Key}
    {bound best : Nat}

/-- The first of two candidates goes before the second. -/
def Leads (key : Nat → Key) (first second : Nat) : Prop :=
  key second < key first ∨ key second = key first ∧ first ≤ second

/-- What a scan of all numbers below a bound has kept. -/
inductive Selected (candidate : Nat → Prop) (key : Nat → Key)
    (bound : Nat) : Option Nat → Prop where
  | nothing
      (without : ∀ n < bound, ¬ candidate n) :
      Selected candidate key bound none
  | found {best : Nat}
      (inside : best < bound)
      (suits : candidate best)
      (leads : ∀ n < bound, candidate n → Leads key best n) :
      Selected candidate key bound (some best)

theorem selected_zero : Selected candidate key 0 none :=
  .nothing (fun n inside => absurd inside (Nat.not_lt_zero n))

/-- A number which is no candidate is passed over. -/
theorem Selected.skip {kept : Option Nat}
    (selected : Selected candidate key bound kept)
    (unsuited : ¬ candidate bound) :
    Selected candidate key (bound + 1) kept := by
  cases selected with
  | nothing without =>
      refine .nothing (fun n inside => ?_)
      rcases Nat.lt_succ_iff_lt_or_eq.1 inside with below | rfl
      · exact without n below
      · exact unsuited
  | found inside suits leads =>
      refine .found (Nat.lt_succ_of_lt inside) suits ?_
      intro n below candidacy
      rcases Nat.lt_succ_iff_lt_or_eq.1 below with earlier | rfl
      · exact leads n earlier candidacy
      · exact absurd candidacy unsuited

/-- The first candidate is kept. -/
theorem Selected.first
    (selected : Selected candidate key bound none)
    (suits : candidate bound) :
    Selected candidate key (bound + 1) (some bound) := by
  cases selected with
  | nothing without =>
      refine .found (Nat.lt_succ_self bound) suits ?_
      intro n below candidacy
      rcases Nat.lt_succ_iff_lt_or_eq.1 below with earlier | rfl
      · exact absurd candidacy (without n earlier)
      · exact .inr ⟨rfl, Nat.le_refl _⟩

/-- A candidate with a greater key replaces the one that was kept. -/
theorem Selected.replace
    (selected : Selected candidate key bound (some best))
    (suits : candidate bound) (greater : key best < key bound) :
    Selected candidate key (bound + 1) (some bound) := by
  cases selected with
  | found inside _ leads =>
      refine .found (Nat.lt_succ_self bound) suits ?_
      intro n below candidacy
      rcases Nat.lt_succ_iff_lt_or_eq.1 below with earlier | rfl
      · left
        rcases leads n earlier candidacy with less | ⟨same, _⟩
        · exact lt_trans less greater
        · exact same ▸ greater
      · exact .inr ⟨rfl, Nat.le_refl _⟩

/-- A candidate without a greater key leaves the one that was kept. -/
theorem Selected.keep
    (selected : Selected candidate key bound (some best))
    (notGreater : ¬ key best < key bound) :
    Selected candidate key (bound + 1) (some best) := by
  cases selected with
  | found inside suits leads =>
      refine .found (Nat.lt_succ_of_lt inside) suits ?_
      intro n below candidacy
      rcases Nat.lt_succ_iff_lt_or_eq.1 below with earlier | rfl
      · exact leads n earlier candidacy
      · rcases lt_or_eq_of_le (not_lt.1 notGreater) with less | same
        · exact .inl less
        · exact .inr ⟨same, Nat.le_of_lt inside⟩

/-- A stretch of numbers without candidates is passed over. -/
theorem Selected.skip_to {kept : Option Nat} {later : Nat}
    (selected : Selected candidate key bound kept)
    (ordered : bound ≤ later)
    (unsuited : ∀ n, bound ≤ n → n < later → ¬ candidate n) :
    Selected candidate key later kept := by
  induction later, ordered using Nat.le_induction with
  | base => exact selected
  | succ later ordered induction =>
      exact
        (induction (fun n above below =>
          unsuited n above (Nat.lt_succ_of_lt below))).skip
          (unsuited later ordered (Nat.lt_succ_self later))

/-- The same candidates with the same keys give the same choice. -/
theorem Selected.congr {kept : Option Nat}
    (selected : Selected candidate key bound kept)
    (same : ∀ n < bound, candidate n ↔ other n)
    (keys : ∀ n, candidate n → key n = rank n) :
    Selected other rank bound kept := by
  cases selected with
  | nothing without =>
      exact .nothing (fun n inside suits =>
        without n inside ((same n inside).2 suits))
  | @found best inside suits leads =>
      refine .found inside ((same best inside).1 suits) ?_
      intro n below candidacy
      have earlier := (same n below).2 candidacy
      rw [Leads, ← keys n earlier, ← keys best suits]
      exact leads n below earlier

/-- Nothing is kept exactly when there is no candidate. -/
theorem Selected.isSome_iff {kept : Option Nat}
    (selected : Selected candidate key bound kept) :
    kept.isSome = true ↔ ∃ n, n < bound ∧ candidate n := by
  cases selected with
  | nothing without =>
      refine iff_of_false (fun impossible => Bool.noConfusion impossible) ?_
      rintro ⟨n, inside, suits⟩
      exact without n inside suits
  | @found best inside suits _ =>
      exact iff_of_true rfl ⟨best, inside, suits⟩

/--
An assertion about the number of rounds made, kept by each round of a loop
that counts, holds at its end.
-/
theorem foldl_range
    {State : Type u} (round : State → Nat → State)
    (assertion : Nat → State → Prop) {count : Nat} {start : State}
    (base : assertion 0 start)
    (kept : ∀ index < count, ∀ state, assertion index state →
      assertion (index + 1) (round state index)) :
    assertion count ((List.range count).foldl round start) := by
  induction count with
  | zero => exact base
  | succ count induction =>
      rw [List.range_succ, List.foldl_append]
      exact
        kept count (Nat.lt_succ_self count) _
          (induction (fun index below =>
            kept index (Nat.lt_succ_of_lt below)))

end Kemu.Lib.Selection
