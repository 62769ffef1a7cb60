import Kemu.Lib.Bytes
import Kemu.Lib.Transition
import Mathlib.Algebra.Group.Nat.Defs

/-!
# Writes to the CFI flash

The flash of `hw/cfi_flash.c` is programmed by a state machine: a command says
what the next write is, a word to be programmed, the first of several words of
a buffered program, or the confirmation of what was begun.

Beside the state stand the accesses a write makes: the ranges of the flash and
of the program buffer that are stored to, the range of the buffer that is
copied, and the bits of the lock bitmap that are looked at or changed.  Bytes
behind the end of the flash or of the buffer are kept apart from everything
else here; what the code overwrites there is not said.
-/

namespace Kemu.Hw.CfiFlash

open Kemu.Lib.Bytes

/-! ## The code -/

/-- `CFI_BUS_WIDTH`. -/
def cfiBusWidth : Nat := 4

/-- `FLASH_BLOCK_SIZE`. -/
def flashBlockSize : Nat := 0x10000

/-- `PROGRAM_BUFF_SIZE`. -/
def programBuffSize : Nat := 128

/-! The commands. -/

def cfiCmdLockBlock : UInt8 := 0x01
def cfiCmdAlternateWordProgram : UInt8 := 0x10
def cfiCmdEraseBlockSetup : UInt8 := 0x20
def cfiCmdWordProgram : UInt8 := 0x40
def cfiCmdClearStatusReg : UInt8 := 0x50
def cfiCmdLockBlockSetup : UInt8 := 0x60
def cfiCmdReadStatusReg : UInt8 := 0x70
def cfiCmdReadJedecDevid : UInt8 := 0x90
def cfiCmdReadCfiQuery : UInt8 := 0x98
def cfiCmdConfirm : UInt8 := 0xd0
def cfiCmdBufferedProgramSetup : UInt8 := 0xe8

/-! The status. -/

def cfiStatusProtectBit : UInt8 := 0x02
def cfiStatusProgramLockBit : UInt8 := 0x10
def cfiStatusEraseClearLockBit : UInt8 := 0x20
def cfiStatusReady : UInt8 := 0x80

def cfiStatusLockError : UInt8 :=
  cfiStatusProgramLockBit ||| cfiStatusProtectBit

def cfiStatusEraseError : UInt8 :=
  cfiStatusEraseClearLockBit ||| cfiStatusProgramLockBit

/-- `enum cfi_flash_state`. -/
inductive CfiFlashState where
  | ready
  | lockBlockSetup
  | wordProgram
  | bufferedProgramSetup
  | bufferWrite
  | eraseBlockSetup
deriving DecidableEq, Repr

/-- `enum cfi_read_mode`. -/
inductive CfiReadMode where
  | readArray
  | readStatusReg
  | readJedecDevid
  | readCfiQuery
deriving DecidableEq, Repr

/-- Where the flash is, and its size, which is a power of two. -/
structure Geometry where
  baseAddr : UInt64
  shift : Nat
  small : shift < 32

/-- `size`. -/
def Geometry.size (geometry : Geometry) : Nat :=
  2 ^ geometry.shift

/-- `nr_erase_blocks`. -/
def nrEraseBlocks (geometry : Geometry) : Nat :=
  geometry.size / flashBlockSize

/-- The other members of `struct cfi_flash_device`. -/
structure CfiFlashDevice where
  flashMemory : Nat → UInt8
  programBuffer : Nat → UInt8
  lockBm : Nat → Bool
  blockAddress : Nat
  buffWritten : Nat
  bufferLength : Nat
  state : CfiFlashState
  readMode : CfiReadMode
  sr : UInt8
  isMapped : Bool

/-- An access to memory, or to a bit of the bitmap. -/
inductive Access where
  | flashStore (offset size : Nat)
  | bufferStore (offset size : Nat)
  | bufferCopy (size : Nat)
  | lockBit (index : Nat)
deriving DecidableEq, Repr

/-- `~0ULL`. -/
def noAddress : Nat := 2 ^ 64 - 1

/-- The number of the block of an address. -/
def blockNr (faddr : Nat) : Nat :=
  faddr / flashBlockSize

section Code

variable (sfdev : CfiFlashDevice)

/-- `block_is_locked`. -/
def blockIsLocked (faddr : Nat) : Bool :=
  sfdev.lockBm (blockNr faddr)

/-- `lock_block`. -/
def lockBlock (faddr : Nat) (lock : Bool) : CfiFlashDevice × List Access :=
  ({ sfdev with lockBm := Function.update sfdev.lockBm (blockNr faddr) lock },
    [.lockBit (blockNr faddr)])

/-- A program or an erasure fails because of the lock. -/
def lockError : CfiFlashDevice :=
  { sfdev with sr := sfdev.sr ||| cfiStatusLockError }

/-- `word_program`. -/
def wordProgram (faddr : Nat) (data : List UInt8) :
    CfiFlashDevice × List Access :=
  if blockIsLocked sfdev faddr then
    (lockError sfdev, [.lockBit (blockNr faddr)])
  else
    ({ sfdev with flashMemory := poke sfdev.flashMemory faddr data },
      [.lockBit (blockNr faddr), .flashStore faddr data.length])

/-- `buffer_setup`. -/
def bufferSetup : CfiFlashDevice :=
  { sfdev with
    programBuffer i :=
      if i < programBuffSize then 0 else sfdev.programBuffer i
    blockAddress := noAddress
    buffWritten := 0 }

/-- The first word happens to be at the base address of the buffer. -/
def withBase (faddr : Nat) : CfiFlashDevice :=
  if sfdev.blockAddress = noAddress then
    { sfdev with blockAddress := faddr }
  else
    sfdev

/-- `buffer_write`. -/
def bufferWrite (faddr : Nat) (buffer : List UInt8) :
    Bool × CfiFlashDevice × List Access :=
  if sfdev.buffWritten ≥ sfdev.bufferLength then
    (false, sfdev, [])
  else
    let sfdev := withBase sfdev faddr
    if faddr < sfdev.blockAddress then
      (false, sfdev, [])
    else
      let buffAddr := (faddr - sfdev.blockAddress) % 2 ^ 32
      if buffAddr ≥ programBuffSize then
        (false, sfdev, [])
      else
        (true,
          { sfdev with
            programBuffer := poke sfdev.programBuffer buffAddr buffer
            buffWritten := sfdev.buffWritten + buffer.length },
          [.bufferStore buffAddr buffer.length])

/-- `buffer_confirm`. -/
def bufferConfirm : CfiFlashDevice × List Access :=
  let index := blockNr sfdev.blockAddress
  if blockIsLocked sfdev sfdev.blockAddress then
    (lockError sfdev, [.lockBit index])
  else
    ({ sfdev with
        flashMemory :=
          poke sfdev.flashMemory sfdev.blockAddress
            (peek sfdev.programBuffer 0 sfdev.buffWritten) },
      [.lockBit index, .bufferCopy sfdev.buffWritten,
        .flashStore sfdev.blockAddress sfdev.buffWritten])

/-- `block_erase_confirm`. -/
def blockEraseConfirm (faddr : Nat) : CfiFlashDevice × List Access :=
  if blockIsLocked sfdev faddr then
    (lockError sfdev, [.lockBit (blockNr faddr)])
  else
    ({ sfdev with
        flashMemory :=
          poke sfdev.flashMemory faddr (List.replicate flashBlockSize 0xff) },
      [.lockBit (blockNr faddr), .flashStore faddr flashBlockSize])

/-- `cfi_flash_write_ready`. -/
def cfiFlashWriteReady (command : UInt8) : CfiFlashDevice :=
  if command = cfiCmdReadJedecDevid then
    { sfdev with readMode := .readJedecDevid }
  else if command = cfiCmdReadStatusReg then
    { sfdev with readMode := .readStatusReg }
  else if command = cfiCmdReadCfiQuery then
    { sfdev with readMode := .readCfiQuery }
  else if command = cfiCmdClearStatusReg then
    { sfdev with sr := cfiStatusReady }
  else if command = cfiCmdWordProgram ∨
      command = cfiCmdAlternateWordProgram then
    { sfdev with state := .wordProgram, readMode := .readStatusReg }
  else if command = cfiCmdLockBlockSetup then
    { sfdev with state := .lockBlockSetup }
  else if command = cfiCmdEraseBlockSetup then
    { sfdev with state := .eraseBlockSetup, readMode := .readStatusReg }
  else if command = cfiCmdBufferedProgramSetup then
    { bufferSetup sfdev with
      state := .bufferedProgramSetup, readMode := .readStatusReg }
  else if command = cfiCmdConfirm then
    sfdev
  else
    -- an unknown command is one to read the array
    { sfdev with readMode := .readArray }

/-- A write in `LOCK_BLOCK_SETUP`. -/
def writeLockBlockSetup (command : UInt8) (faddr : Nat) :
    CfiFlashDevice × List Access :=
  if command = cfiCmdLockBlock then
    let (sfdev, accesses) := lockBlock sfdev faddr true
    ({ sfdev with readMode := .readStatusReg, state := .ready }, accesses)
  else if command = cfiCmdConfirm then
    let (sfdev, accesses) := lockBlock sfdev faddr false
    ({ sfdev with readMode := .readStatusReg, state := .ready }, accesses)
  else
    ({ sfdev with sr := sfdev.sr ||| cfiStatusEraseError, state := .ready },
      [])

/-- A write in `WORD_PROGRAM`. -/
def writeWordProgram (faddr : Nat) (data : List UInt8) :
    CfiFlashDevice × List Access :=
  let (sfdev, accesses) := wordProgram sfdev faddr data
  ({ sfdev with readMode := .readStatusReg, state := .ready }, accesses)

/-- A write in `BUFFER_WRITE`. -/
def writeBufferWrite (command : UInt8) (faddr : Nat) (data : List UInt8) :
    CfiFlashDevice × List Access :=
  let (accepted, sfdev, accesses) := bufferWrite sfdev faddr data
  if accepted then
    (sfdev, accesses)
  else if command = cfiCmdConfirm then
    let (sfdev, accesses) := bufferConfirm sfdev
    ({ sfdev with readMode := .readStatusReg, state := .ready }, accesses)
  else
    ({ sfdev with
        sr := sfdev.sr ||| cfiStatusProgramLockBit, state := .ready },
      accesses)

/-- A write in `BUFFERED_PROGRAM_SETUP`. -/
def writeBufferedProgramSetup (command : UInt16) : CfiFlashDevice :=
  { sfdev with
    bufferLength := min ((command.toNat + 1) * cfiBusWidth) programBuffSize
    state := .bufferWrite
    readMode := .readStatusReg }

/-- A write in `ERASE_BLOCK_SETUP`. -/
def writeEraseBlockSetup (command : UInt8) (faddr : Nat) :
    CfiFlashDevice × List Access :=
  let (sfdev, accesses) :=
    if command = cfiCmdConfirm then
      blockEraseConfirm sfdev faddr
    else
      ({ sfdev with sr := sfdev.sr ||| cfiStatusEraseError }, [])
  ({ sfdev with state := .ready, readMode := .readStatusReg }, accesses)

/-- `cfi_flash_write`. -/
def cfiFlashWrite (command : UInt16) (faddr : Nat) (data : List UInt8) :
    CfiFlashDevice × List Access :=
  match sfdev.state with
  | .ready =>
      (cfiFlashWriteReady sfdev command.toUInt8,
        -- the `memset` of `buffer_setup`
        if command.toUInt8 = cfiCmdBufferedProgramSetup then
          [.bufferStore 0 programBuffSize]
        else
          [])
  | .lockBlockSetup => writeLockBlockSetup sfdev command.toUInt8 faddr
  | .wordProgram => writeWordProgram sfdev faddr data
  | .bufferWrite => writeBufferWrite sfdev command.toUInt8 faddr data
  | .bufferedProgramSetup => (writeBufferedProgramSetup sfdev command, [])
  | .eraseBlockSetup => writeEraseBlockSetup sfdev command.toUInt8 faddr

/-- The mapping follows the mode; `kvmOk` if KVM does what it is asked for. -/
def adjustMapping (kvmOk : Bool) : CfiFlashDevice :=
  if !sfdev.isMapped && sfdev.readMode == .readArray then
    { sfdev with isMapped := kvmOk }
  else if sfdev.isMapped && sfdev.readMode != .readArray then
    { sfdev with isMapped := !kvmOk }
  else
    sfdev

end Code

/--
A write of the guest that begins inside the flash.  `stack` is what was in the
local variable that the data is copied to.
-/
structure Write (geometry : Geometry) where
  addr : UInt64
  data : List UInt8
  some : data ≠ []
  stack : Nat → UInt8
  kvmOk : Bool
  begins : (addr - geometry.baseAddr).toNat < geometry.size

namespace Write

variable {geometry : Geometry} (write : Write geometry)

/-- `faddr`. -/
def faddr : Nat :=
  (write.addr - geometry.baseAddr).toNat

/-- The two lower bytes of `value`. -/
def command : UInt16 :=
  .ofNat
    (ofLe
      ((List.range 2).map fun i => write.data.getD i (write.stack i)))

end Write

/-- `cfi_flash_mmio`, for a write. -/
def cfiFlashMmio {geometry : Geometry} (sfdev : CfiFlashDevice)
    (write : Write geometry) : CfiFlashDevice × List Access :=
  if write.data.length > 4 then
    (sfdev, [])
  else
    let (sfdev, accesses) :=
      cfiFlashWrite sfdev write.command write.faddr write.data
    (adjustMapping sfdev write.kvmOk, accesses)

/-! ## Buffered programs -/

/-- Where in the program buffer a write is accepted. -/
def acceptedAt (sfdev : CfiFlashDevice) (faddr : Nat) : Option Nat :=
  let base := (withBase sfdev faddr).blockAddress
  if sfdev.buffWritten ≥ sfdev.bufferLength then
    none
  else if faddr < base then
    none
  else if (faddr - base) % 2 ^ 32 ≥ programBuffSize then
    none
  else
    some ((faddr - base) % 2 ^ 32)

/-- The device, and the bytes that the current buffered program was given. -/
structure FlashRun where
  sfdev : CfiFlashDevice
  given : Nat → Option UInt8

section Run

variable {geometry : Geometry}

/-- The bytes that are given after a write. -/
def track (run : FlashRun) (write : Write geometry) : Nat → Option UInt8 :=
  if write.data.length > 4 then
    run.given
  else
    match run.sfdev.state with
    | .ready =>
        if write.command.toUInt8 = cfiCmdBufferedProgramSetup then
          fun _ => none
        else
          run.given
    | .bufferWrite =>
        match acceptedAt run.sfdev write.faddr with
        | some offset => poke run.given offset (write.data.map some)
        | none => run.given
    | _ => run.given

/-- One write. -/
def flashStep (run : FlashRun) (write : Write geometry) : FlashRun :=
  ⟨(cfiFlashMmio run.sfdev write).1, track run write⟩

/-- The run begins with nothing given. -/
def flashStart (sfdev : CfiFlashDevice) : FlashRun :=
  ⟨sfdev, fun _ => none⟩

end Run

section Accepted

variable {sfdev : CfiFlashDevice} {faddr : Nat} {data : List UInt8}

theorem withBase_first (first : sfdev.blockAddress = noAddress) :
    withBase sfdev faddr = { sfdev with blockAddress := faddr } :=
  if_pos first

theorem withBase_later (later : sfdev.blockAddress ≠ noAddress) :
    withBase sfdev faddr = sfdev :=
  if_neg later

/-- Only the base address may differ. -/
theorem withBase_eq (sfdev : CfiFlashDevice) (faddr : Nat) :
    withBase sfdev faddr =
      { sfdev with blockAddress := (withBase sfdev faddr).blockAddress } := by
  rw [withBase]
  split <;> rfl

/-- The first write is accepted at the start of the buffer. -/
theorem acceptedAt_first (room : sfdev.buffWritten < sfdev.bufferLength)
    (first : sfdev.blockAddress = noAddress) :
    acceptedAt sfdev faddr = some 0 := by
  rw [acceptedAt, withBase_first first, if_neg (Nat.not_le.2 room),
    if_neg (Nat.lt_irrefl faddr), Nat.sub_self]
  rfl

/-- Where the write was accepted. -/
theorem acceptedAt_elim {offset : Nat}
    (accepted : acceptedAt sfdev faddr = some offset) :
    sfdev.buffWritten < sfdev.bufferLength ∧
      offset < programBuffSize ∧
        (withBase sfdev faddr).blockAddress ≤ faddr ∧
          offset =
            (faddr - (withBase sfdev faddr).blockAddress) % 2 ^ 32 := by
  rw [acceptedAt] at accepted
  split at accepted
  case isTrue => cases accepted
  case isFalse room =>
    split at accepted
    case isTrue => cases accepted
    case isFalse behind =>
      split at accepted
      case isTrue => cases accepted
      case isFalse inside =>
        cases accepted
        exact
          ⟨Nat.not_le.1 room, Nat.not_le.1 inside, Nat.not_lt.1 behind, rfl⟩

/-- What an accepted write does. -/
theorem bufferWrite_some {offset : Nat}
    (accepted : acceptedAt sfdev faddr = some offset) :
    bufferWrite sfdev faddr data =
      (true,
        { sfdev with
          blockAddress := (withBase sfdev faddr).blockAddress
          programBuffer := poke sfdev.programBuffer offset data
          buffWritten := sfdev.buffWritten + data.length },
        [.bufferStore offset data.length]) := by
  obtain ⟨room, inside, behind, same⟩ := acceptedAt_elim accepted
  rw [bufferWrite, if_neg (Nat.not_le.2 room)]
  dsimp only
  rw [if_neg (Nat.not_lt.2 behind), ← same, if_neg (Nat.not_le.2 inside),
    withBase_eq sfdev faddr]

/-- A write that is not accepted does nothing to the buffer. -/
theorem bufferWrite_none (rejected : acceptedAt sfdev faddr = none) :
    bufferWrite sfdev faddr data = (false, sfdev, []) := by
  by_cases full : sfdev.buffWritten ≥ sfdev.bufferLength
  · exact if_pos full
  · have later : sfdev.blockAddress ≠ noAddress := by
      intro first
      rw [acceptedAt_first (Nat.not_le.1 full) first] at rejected
      cases rejected
    rw [acceptedAt, if_neg full] at rejected
    rw [bufferWrite, if_neg full]
    rw [withBase_later later] at rejected ⊢
    dsimp only
    split at rejected
    case isTrue below => exact if_pos below
    case isFalse behind =>
      split at rejected
      case isTrue outside => rw [if_neg behind, if_pos outside]
      case isFalse => cases rejected

end Accepted

end Kemu.Hw.CfiFlash
