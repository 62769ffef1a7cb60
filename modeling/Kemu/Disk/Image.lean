import Kemu.Util.IoVector

/-!
# Disk images

The front of `disk/core.c`: what the block device calls, and how the outcome
of the image's own operations reaches the completion callback.  The host
calls behind an operation are an oracle; a missing operation is `none`.
-/

namespace Kemu.Disk.Image

open Kemu.Util.IoVector

/-- The identity `fstat` reports for the image file. -/
structure Stat where
  dev : Nat
  rdev : Nat
  ino : Nat
deriving DecidableEq, Repr

/-- What the host answers to the calls one request makes. -/
structure DiskOps where
  /-- `ops->read`, when there is one. -/
  read : Option Int
  /-- `ops->write`, when there is one. -/
  write : Option Int
  /-- `ops->flush`, when there is one. -/
  flush : Option Int
  fsync : Int
  /-- `fstat`: its nonzero result, or the identity. -/
  fstat : Except Int Stat
  /-- Whether `malloc` finds memory. -/
  malloc : Bool
deriving Repr

/-- The fields of `struct disk_image` that decide about completion. -/
structure DiskImage where
  async : Bool
  diskReqCb : Bool
deriving DecidableEq, Repr

/-- `-ENOMEM`. -/
def eNoMem : Int := -12

/--
The body `disk_image__read` and `disk_image__write` share: the value
returned, and the value handed to the callback if it is called.
-/
def diskImageTransfer (disk : DiskImage) (op : Option Int) :
    Int × Option Int :=
  let total := op.getD 0
  if op.isSome ∧ total < 0 then
    (total, none)
  else if !disk.async && disk.diskReqCb then
    (total, some total)
  else
    (total, none)

/-- `disk_image__read`. -/
def diskImageRead (disk : DiskImage) (ops : DiskOps) : Int × Option Int :=
  diskImageTransfer disk ops.read

/-- `disk_image__write`. -/
def diskImageWrite (disk : DiskImage) (ops : DiskOps) : Int × Option Int :=
  diskImageTransfer disk ops.write

/-- `disk_image__flush`. -/
def diskImageFlush (ops : DiskOps) : Int :=
  ops.flush.getD ops.fsync

/-- The text `disk_image__get_serial` prints. -/
def Stat.serial (stat : Stat) : String :=
  toString stat.dev ++ toString stat.rdev ++ toString stat.ino

/--
`disk_image__get_serial`.  `snprintf` returns the length of the whole text,
also when its buffer is shorter.  The answer is `none` when the copy into
the guest's buffers leaves mapped memory.
-/
def diskImageGetSerial
    (ops : DiskOps) (mem : HostMem) (iov : List Iovec) : Option Int :=
  match ops.fstat with
  | .error result => some result
  | .ok stat =>
      if !ops.malloc then
        some eNoMem
      else
        let len := stat.serial.length
        if len > iovSize iov iov.length then
          some eNoMem
        else if memcpyToiovec mem iov len then
          some len
        else
          none

/-! ## When the callback is called -/

/-- A synchronous image calls back exactly when the operation succeeds. -/
theorem diskImageTransfer_callback
    {disk : DiskImage} (sync : disk.async = false)
    (hooked : disk.diskReqCb = true) (op : Option Int) :
    (diskImageTransfer disk op).2 =
      if ∃ total ∈ op, total < 0 then none else some (op.getD 0) := by
  rcases op with _ | total
  · simp [diskImageTransfer, sync, hooked]
  · simp only [diskImageTransfer, sync, hooked, Option.getD_some,
      Option.isSome_some, true_and, Option.mem_def, Option.some.injEq,
      exists_eq_left', Bool.not_false, Bool.and_self]
    split <;> rfl

/-- The serial number comes back unless it is copied to unmapped cells. -/
theorem diskImageGetSerial_isSome_iff
    (ops : DiskOps) (mem : HostMem) (iov : List Iovec) :
    (diskImageGetSerial ops mem iov).isSome = true ↔
      ∀ stat, ops.fstat = .ok stat → ops.malloc = true →
        stat.serial.length ≤ (gather mem iov).length →
          ((gather mem iov).take stat.serial.length).all
            Option.isSome = true := by
  rw [diskImageGetSerial]
  cases ops.fstat with
  | error result => simp
  | ok stat =>
      simp only [Except.ok.injEq, forall_eq', gather_length]
      cases ops.malloc with
      | false => simp
      | true =>
          by_cases room : stat.serial.length ≤ iovSize iov iov.length
          · rw [memcpyToiovec_eq_all mem iov _ room]
            have noOverflow :
                ¬ stat.serial.length > iovSize iov iov.length := by
              omega
            simp only [Bool.not_true, Bool.false_eq_true, if_false,
              noOverflow, room, forall_const]
            split
            case isTrue mapped => simpa using mapped
            case isFalse unmapped => simpa using unmapped
          · simp [room, Nat.lt_of_not_le room]

end Kemu.Disk.Image
