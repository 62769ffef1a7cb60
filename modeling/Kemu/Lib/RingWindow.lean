import Mathlib.Data.List.Basic
import Mathlib.Logic.Function.Basic

/-!
# Queues in a ring of cells

A queue of at most `size` entries lies in as many cells.  Entries are counted
from the start, without end; the cell of an entry is its count modulo `size`.
-/

namespace Kemu.Lib.RingWindow

universe u

variable {Value : Type u} {size : Nat} {cells : Nat → Value}
  {first count : Nat}

/-- The entries from a first one on. -/
def window (size : Nat) (cells : Nat → Value) (first count : Nat) :
    List Value :=
  (List.range count).map fun index => cells ((first + index) % size)

@[simp]
theorem window_length : (window size cells first count).length = count := by
  rw [window, List.length_map, List.length_range]

@[simp]
theorem window_zero : window size cells first 0 = [] :=
  rfl

/-- Entries less than a turn apart have cells of their own. -/
theorem cell_ne {one other : Nat} (before : one < other)
    (close : other < one + size) : one % size ≠ other % size := by
  intro same
  have turns : size ∣ other - one :=
    Nat.dvd_of_mod_eq_zero (Nat.sub_mod_eq_zero_of_mod_eq same.symm)
  exact absurd (Nat.le_of_dvd (Nat.sub_pos_of_lt before) turns) (by omega)

/-- An entry put behind the others. -/
theorem window_push (room : count < size) (value : Value) :
    window size
        (Function.update cells ((first + count) % size) value) first
        (count + 1) =
      window size cells first count ++ [value] := by
  have others :
      ∀ index ∈ List.range count,
        Function.update cells ((first + count) % size) value
            ((first + index) % size) =
          cells ((first + index) % size) := by
    intro index member
    have less := List.mem_range.1 member
    exact Function.update_of_ne (cell_ne (by omega) (by omega)) ..
  rw [window, List.range_succ, List.map_append, List.map_congr_left others,
    List.map_singleton, Function.update_self]
  rfl

/-- The first entry and the others. -/
theorem window_pop :
    window size cells first (count + 1) =
      cells (first % size) :: window size cells (first + 1) count := by
  rw [window, List.range_succ_eq_map, List.map_cons, List.map_map]
  refine congrArg _ (List.map_congr_left fun index _ => ?_)
  simp [Nat.add_right_comm, Nat.add_assoc]

/-- The cell in front of the first entry is kept while there is room. -/
theorem push_behind (room : count + 1 < size) (some : 0 < first)
    (value : Value) :
    Function.update cells ((first + count) % size) value
        ((first - 1) % size) =
      cells ((first - 1) % size) :=
  Function.update_of_ne (cell_ne (by omega) (by omega)) ..

end Kemu.Lib.RingWindow
