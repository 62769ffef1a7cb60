import Mathlib.Data.List.Basic

/-!
# Records told apart by their first byte

Records lie one behind the other; the first byte of a record gives its
length.  Records put together are found again.
-/

namespace Kemu.Lib.TaggedRecords

variable (size : UInt8 → Option Nat)

/-- So many records at most, up to the end. -/
def splitLoop : Nat → List UInt8 → Option (List (List UInt8))
  | _, [] => some []
  | 0, _ :: _ => none
  | fuel + 1, tag :: rest =>
      (size tag).bind fun length =>
        if length = 0 ∨ rest.length + 1 < length then
          none
        else
          (splitLoop fuel ((tag :: rest).drop length)).map fun records =>
            (tag :: rest).take length :: records

/-- The records, if the last one ends with the bytes. -/
def split (bytes : List UInt8) : Option (List (List UInt8)) :=
  splitLoop size bytes.length bytes

/-- A record that has the length its first byte gives. -/
def IsRecord (record : List UInt8) : Prop :=
  ∃ tag ∈ record.head?, size tag = some record.length

variable {size}

theorem splitLoop_append {record rest : List UInt8} {fuel : Nat}
    (isRecord : IsRecord size record) :
    splitLoop size (fuel + 1) (record ++ rest) =
      (splitLoop size fuel rest).map (record :: ·) := by
  obtain ⟨tag, head, length⟩ := isRecord
  cases record with
  | nil => cases head
  | cons first others =>
      obtain rfl := Option.some.inj head
      have fits :
          ¬ ((first :: others).length = 0 ∨
            (others ++ rest).length + 1 < (first :: others).length) := by
        simp
      rw [List.cons_append, splitLoop, length, Option.bind_some, if_neg fits,
        ← List.cons_append, List.drop_left, List.take_left]

theorem splitLoop_flatten {records : List (List UInt8)} {fuel : Nat}
    (isRecord : ∀ record ∈ records, IsRecord size record)
    (enough : records.flatten.length ≤ fuel) :
    splitLoop size fuel records.flatten = some records := by
  induction records generalizing fuel with
  | nil => cases fuel <;> rfl
  | cons record rest induction =>
      obtain ⟨first, others⟩ := List.forall_mem_cons.1 isRecord
      have positive : 0 < record.length := by
        obtain ⟨tag, head, -⟩ := first
        cases record with
        | nil => cases head
        | cons _ _ => exact Nat.succ_pos _
      rw [List.flatten_cons, List.length_append] at enough
      obtain ⟨less, rfl⟩ : ∃ less, fuel = less + 1 :=
        ⟨fuel - 1, by omega⟩
      rw [List.flatten_cons, splitLoop_append first,
        induction others (by omega), Option.map_some]

/-- Records put together are found again. -/
theorem split_flatten {records : List (List UInt8)}
    (isRecord : ∀ record ∈ records, IsRecord size record) :
    split size records.flatten = some records :=
  splitLoop_flatten isRecord (Nat.le_refl _)

end Kemu.Lib.TaggedRecords
