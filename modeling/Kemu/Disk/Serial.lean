import Kemu.Disk.Image
import Kemu.Util.IovecCopy

/-!
# The serial number of a disk

`disk_image__get_serial` with the bytes it moves.  The text is printed into a
buffer of the size that is asked for, and what goes to the guest is as long
as the whole text: a long text takes with it what lies behind the buffer.
-/

namespace Kemu.Disk.Serial

open Kemu.Disk.Image hiding diskImageGetSerial
open Kemu.Util.IoVector hiding memcpyToiovec
open Kemu.Util.IovecCopy

/-! ## The code -/

/-- `VIRTIO_BLK_ID_BYTES`. -/
def virtioBlkIdBytes : Nat := 20

/-- The characters of the text. -/
def serialBytes (stat : Stat) : List UInt8 :=
  stat.serial.toList.map fun char => UInt8.ofNat char.toNat

/-- How many bytes `snprintf` stores, with the zero at the end. -/
def snprintfStored (size : Nat) (text : List UInt8) : Nat :=
  min (text.length + 1) size

/-- A buffer after `snprintf`. -/
def snprintf (buf : Nat → UInt8) (size : Nat) (text : List UInt8) :
    Nat → UInt8 :=
  fun offset =>
    if offset < snprintfStored size text then
      (text.take (size - 1) ++ [0]).getD offset 0
    else
      buf offset

/-- The result, the bytes of the buffer that are taken, and where they go. -/
structure SerialCopy where
  result : Int
  taken : List Nat
  stores : List Store
deriving DecidableEq, Repr

/-- `disk_image__get_serial`; `buf` has what `malloc` found. -/
def diskImageGetSerial (ops : DiskOps) (buf : Nat → UInt8)
    (iov : List Iovec) (len : Nat) : Option SerialCopy :=
  match ops.fstat with
  | .error result => some ⟨result, [], []⟩
  | .ok stat =>
      if !ops.malloc then
        some ⟨eNoMem, [], []⟩
      else
        let buf := snprintf buf len (serialBytes stat)
        let len := (serialBytes stat).length
        if len > iovSize iov iov.length then
          some ⟨eNoMem, [], []⟩
        else
          (memcpyToiovec iov ((List.range len).map buf)).map
            fun (stores, _) => ⟨len, List.range len, stores⟩

/-! ## What the guest gets -/

section Serial

variable (ops : DiskOps) (buf : Nat → UInt8) (iov : List Iovec)

/--
The guest gets no more than a serial number, byte for byte what `snprintf`
stored, and its length is returned; or it gets nothing and there is an error.
-/
structure OnlySerial (outcome : SerialCopy) : Prop where
  few : outcome.taken.length ≤ virtioBlkIdBytes
  formatted :
    ∀ offset ∈ outcome.taken,
      ∃ stat, ops.fstat = .ok stat ∧
        offset < snprintfStored virtioBlkIdBytes (serialBytes stat)
  copied :
    ∀ stat, ops.fstat = .ok stat →
      outcome.stores =
        List.zipWith Store.mk (places iov)
          (outcome.taken.map
            (snprintf buf virtioBlkIdBytes (serialBytes stat)))
  result :
    outcome.result = outcome.taken.length ∨
      outcome.stores = [] ∧
        (ops.fstat = .error outcome.result ∨ outcome.result = eNoMem)

theorem serialBytes_length (stat : Stat) :
    (serialBytes stat).length = stat.serial.length := by
  rw [serialBytes, List.length_map, String.length_toList]

/-- An error discloses nothing. -/
theorem onlySerial_error {result : Int}
    (error : ops.fstat = .error result ∨ result = eNoMem) :
    OnlySerial ops buf iov ⟨result, [], []⟩ where
  few := Nat.zero_le _
  formatted := fun _ none => nomatch none
  copied := fun _ _ => by rw [List.map_nil, List.zipWith_nil_right]
  result := Or.inr ⟨rfl, error⟩

/--
Nothing else is disclosed exactly if a text that the guest has room for is no
longer than a serial number.
-/
theorem diskImageGetSerial_only_iff :
    (∃ outcome,
      diskImageGetSerial ops buf iov virtioBlkIdBytes = some outcome ∧
        OnlySerial ops buf iov outcome) ↔
      ∀ stat, ops.fstat = .ok stat → ops.malloc = true →
        stat.serial.length ≤ iovSize iov iov.length →
          stat.serial.length ≤ virtioBlkIdBytes := by
  unfold diskImageGetSerial
  cases found : ops.fstat with
  | error result =>
      constructor
      · intro _ _ identity
        cases identity
      · intro _
        exact ⟨_, rfl, onlySerial_error ops buf iov (Or.inl found)⟩
  | ok stat =>
      cases memory : ops.malloc with
      | false =>
          constructor
          · intro _ _ _ granted
            cases granted
          · intro _
            exact ⟨_, rfl, onlySerial_error ops buf iov (Or.inr rfl)⟩
      | true =>
          have length := serialBytes_length stat
          dsimp only
          rw [if_neg (by decide)]
          by_cases room : (serialBytes stat).length ≤ iovSize iov iov.length
          · obtain ⟨left, stored, _⟩ :=
              memcpyToiovec_eq
                (show ((List.range (serialBytes stat).length).map
                    (snprintf buf virtioBlkIdBytes (serialBytes stat))).length
                    ≤ iovSize iov iov.length by
                  rwa [List.length_map, List.length_range])
            rw [if_neg (Nat.not_lt.mpr room), stored]
            constructor
            · rintro ⟨outcome, copied, only⟩ other identity _ _
              cases identity
              cases copied
              have few := only.few
              rwa [List.length_range, length] at few
            · intro fits
              have short := fits stat rfl rfl (length ▸ room)
              rw [← length] at short
              refine ⟨_, rfl, ?_, ?_, ?_, Or.inl ?_⟩
              · rwa [List.length_range]
              · intro offset taken
                have inside := List.mem_range.mp taken
                refine ⟨stat, found, ?_⟩
                unfold snprintfStored
                omega
              · intro other identity
                rw [found] at identity
                cases identity
                rfl
              · rw [List.length_range]
          · rw [if_pos (Nat.not_le.mp room)]
            constructor
            · intro _ other identity _ fits
              cases identity
              rw [length] at room
              exact absurd fits room
            · intro _
              exact ⟨_, rfl, onlySerial_error ops buf iov (Or.inr rfl)⟩

end Serial

/-- A file whose numbers have twenty-four digits. -/
def longIdentity : DiskOps where
  read := none
  write := none
  flush := none
  fsync := 0
  fstat := .ok ⟨2049, 0, 1234567890123456789⟩
  malloc := true

/-- The guest gets four bytes from behind the buffer. -/
theorem diskImageGetSerial_longIdentity :
    ((diskImageGetSerial longIdentity (fun _ => 170) [⟨0, 32⟩]
        virtioBlkIdBytes).map fun outcome => outcome.stores.drop 20) =
        some [⟨20, 170⟩, ⟨21, 170⟩, ⟨22, 170⟩, ⟨23, 170⟩] ∧
      ¬ ∃ outcome,
          diskImageGetSerial longIdentity (fun _ => 170) [⟨0, 32⟩]
              virtioBlkIdBytes =
            some outcome ∧
          OnlySerial longIdentity (fun _ => 170) [⟨0, 32⟩] outcome := by
  have run :
      (diskImageGetSerial longIdentity (fun _ => 170) [⟨0, 32⟩]
          virtioBlkIdBytes).map
          (fun outcome => (outcome.taken.length, outcome.stores.drop 20)) =
        some (24, [⟨20, 170⟩, ⟨21, 170⟩, ⟨22, 170⟩, ⟨23, 170⟩]) := by
    decide +kernel
  obtain ⟨outcome, copied, same⟩ := Option.map_eq_some_iff.mp run
  obtain ⟨long, stores⟩ := Prod.mk.inj same
  rw [copied, Option.map_some, stores]
  refine ⟨rfl, ?_⟩
  rintro ⟨other, again, only⟩
  cases again
  have few := only.few
  rw [long] at few
  exact absurd few (by decide)

end Kemu.Disk.Serial
