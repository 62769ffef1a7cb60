import Kemu.Hw.CfiFlash

/-!
# What the flash stores to

A buffered program is spread over several writes, which share a base address,
a count and a limit.  A store is behind the end of the buffer when the last
word of it is not aligned, and behind the end of the device when a block is
erased from its middle or the program begins near the end.
-/

namespace Kemu.Hw.CfiFlash

open Kemu.Lib.Bytes
open Kemu.Lib.Transition

/-! ## What is expected -/

section Spec

variable (geometry : Geometry)

/-- The access is to memory that is there, and copies only what was given. -/
def AccessInside (given : Nat → Option UInt8) : Access → Prop
  | .flashStore offset size => offset + size ≤ geometry.size
  | .bufferStore offset size => offset + size ≤ programBuffSize
  | .bufferCopy size => ∀ offset < size, given offset ≠ none
  | .lockBit index => index < nrEraseBlocks geometry

variable {geometry}

/-- All accesses of a write are. -/
def StepInside (run : FlashRun) (write : Write geometry) : Prop :=
  ∀ access ∈ (cfiFlashMmio run.sfdev write).2,
    AccessInside geometry run.given access

end Spec

section Condition

variable {geometry : Geometry}

/-- The flash has a whole block, so that all its bits are in the bitmap. -/
def HasBlock (geometry : Geometry) : Prop :=
  flashBlockSize ≤ geometry.size

/-- A confirmed program ends in the flash, and leaves out no byte. -/
def ProgramFits (geometry : Geometry) (run : FlashRun) : Prop :=
  blockIsLocked run.sfdev run.sfdev.blockAddress = false →
    (∀ offset < run.sfdev.buffWritten, run.given offset ≠ none) ∧
      run.sfdev.blockAddress + run.sfdev.buffWritten ≤ geometry.size

/--
The condition on a write: what is given for the buffer ends in it, what is
confirmed ends in the flash, and an erasure begins a block before its end.
-/
def Contained (run : FlashRun) (write : Write geometry) : Prop :=
  write.data.length ≤ 4 →
    match run.sfdev.state with
    | .ready => True
    | .bufferedProgramSetup => True
    | .lockBlockSetup =>
        write.command.toUInt8 = cfiCmdLockBlock ∨
            write.command.toUInt8 = cfiCmdConfirm →
          HasBlock geometry
    | .wordProgram => HasBlock geometry
    | .bufferWrite =>
        match acceptedAt run.sfdev write.faddr with
        | some offset => offset + write.data.length ≤ programBuffSize
        | none =>
            write.command.toUInt8 = cfiCmdConfirm →
              HasBlock geometry ∧ ProgramFits geometry run
    | .eraseBlockSetup =>
        write.command.toUInt8 = cfiCmdConfirm →
          HasBlock geometry ∧
            (blockIsLocked run.sfdev write.faddr = false →
              write.faddr + flashBlockSize ≤ geometry.size)

end Condition

/-! ## One write -/

/-- What holds of a buffered program that has been begun. -/
structure Based (geometry : Geometry) (sfdev : CfiFlashDevice) : Prop where
  setup :
    sfdev.state = .bufferedProgramSetup →
      sfdev.blockAddress = noAddress ∧ sfdev.buffWritten = 0
  begun :
    sfdev.state = .bufferWrite →
      0 < sfdev.bufferLength ∧
        (sfdev.blockAddress = noAddress ∧ sfdev.buffWritten = 0 ∨
          sfdev.blockAddress < geometry.size)

section Step

variable {geometry : Geometry} {run : FlashRun} {write : Write geometry}

theorem blockNr_inside_iff {faddr : Nat} (inside : faddr < geometry.size) :
    blockNr faddr < nrEraseBlocks geometry ↔ HasBlock geometry := by
  rw [blockNr, nrEraseBlocks, HasBlock]
  have power : flashBlockSize = 2 ^ 16 := rfl
  constructor
  · intro below
    by_contra small
    rw [Nat.div_eq_of_lt (Nat.not_le.1 small)] at below
    exact Nat.not_lt_zero _ below
  · intro large
    have divides : flashBlockSize ∣ geometry.size := by
      rw [power, Geometry.size] at large ⊢
      exact Nat.pow_dvd_pow 2 ((Nat.pow_le_pow_iff_right (by decide)).1 large)
    exact Nat.div_lt_div_of_lt_of_dvd divides inside

/-- The base address of a program that has begun is in the flash. -/
theorem Based.blockAddress_lt (based : Based geometry run.sfdev)
    (state : run.sfdev.state = .bufferWrite)
    (rejected : acceptedAt run.sfdev write.faddr = none) :
    run.sfdev.blockAddress < geometry.size := by
  obtain ⟨positive, first | inside⟩ := based.begun state
  · have room : run.sfdev.buffWritten < run.sfdev.bufferLength := by
      rw [first.2]
      exact positive
    rw [acceptedAt_first room first.1] at rejected
    cases rejected
  · exact inside

/-- The accesses of a write that is not too long. -/
theorem cfiFlashMmio_accesses (sfdev : CfiFlashDevice)
    (short : write.data.length ≤ 4) :
    (cfiFlashMmio sfdev write).2 =
      (cfiFlashWrite sfdev write.command write.faddr write.data).2 := by
  rw [cfiFlashMmio, if_neg (Nat.not_lt.2 short)]

/-- All accesses of a list are inside. -/
def AllInside (geometry : Geometry) (given : Nat → Option UInt8)
    (accesses : List Access) : Prop :=
  ∀ access ∈ accesses, AccessInside geometry given access

variable {given : Nat → Option UInt8} {sfdev : CfiFlashDevice}
  {command : UInt8} {faddr : Nat} {data : List UInt8}

theorem allInside_nil : AllInside geometry given [] :=
  nofun

theorem allInside_cons {access : Access} {accesses : List Access} :
    AllInside geometry given (access :: accesses) ↔
      AccessInside geometry given access ∧
        AllInside geometry given accesses :=
  List.forall_mem_cons

/-- A single bit of the bitmap. -/
theorem lockBit_inside_iff (inside : faddr < geometry.size) :
    AllInside geometry given [.lockBit (blockNr faddr)] ↔
      HasBlock geometry := by
  rw [allInside_cons, and_iff_left allInside_nil]
  exact blockNr_inside_iff inside

theorem lockBlockSetup_inside_iff (inside : faddr < geometry.size) :
    AllInside geometry given (writeLockBlockSetup sfdev command faddr).2 ↔
      (command = cfiCmdLockBlock ∨ command = cfiCmdConfirm →
        HasBlock geometry) := by
  rw [writeLockBlockSetup]
  split
  case isTrue locks =>
    rw [imp_iff_right (Or.inl locks)]
    exact lockBit_inside_iff inside
  case isFalse notLock =>
    split
    case isTrue unlocks =>
      rw [imp_iff_right (Or.inr unlocks)]
      exact lockBit_inside_iff inside
    case isFalse notUnlock =>
      exact
        iff_of_true allInside_nil
          fun either => absurd either (not_or.2 ⟨notLock, notUnlock⟩)

theorem wordProgram_inside_iff (inside : faddr < geometry.size)
    (within : faddr + data.length ≤ geometry.size) :
    AllInside geometry given (writeWordProgram sfdev faddr data).2 ↔
      HasBlock geometry := by
  change AllInside geometry given (wordProgram sfdev faddr data).2 ↔ _
  rw [wordProgram]
  split
  case isTrue => exact lockBit_inside_iff inside
  case isFalse =>
    have store :
        AllInside geometry given [.flashStore faddr data.length] :=
      allInside_cons.2 ⟨within, allInside_nil⟩
    rw [allInside_cons, and_iff_left store]
    exact blockNr_inside_iff inside

/-- A word of a buffered program, or its confirmation. -/
theorem bufferWrite_inside_iff
    (begun :
      acceptedAt sfdev faddr = none → sfdev.blockAddress < geometry.size) :
    AllInside geometry given (writeBufferWrite sfdev command faddr data).2 ↔
      match acceptedAt sfdev faddr with
      | some offset => offset + data.length ≤ programBuffSize
      | none =>
          command = cfiCmdConfirm →
            HasBlock geometry ∧ ProgramFits geometry ⟨sfdev, given⟩ := by
  rw [writeBufferWrite]
  cases accepted : acceptedAt sfdev faddr with
  | some offset =>
      rw [bufferWrite_some accepted]
      exact allInside_cons.trans (and_iff_left allInside_nil)
  | none =>
      rw [bufferWrite_none accepted]
      dsimp only
      rw [if_neg Bool.false_ne_true]
      by_cases confirm : command = cfiCmdConfirm
      · rw [if_pos confirm, imp_iff_right confirm]
        change AllInside geometry given (bufferConfirm sfdev).2 ↔ _
        rw [bufferConfirm, ProgramFits]
        dsimp only
        cases locked : blockIsLocked sfdev sfdev.blockAddress with
        | true =>
            rw [if_pos rfl, and_iff_left nofun]
            exact lockBit_inside_iff (begun accepted)
        | false =>
            rw [if_neg Bool.false_ne_true, imp_iff_right rfl, allInside_cons,
              allInside_cons, allInside_cons, and_iff_left allInside_nil]
            exact and_congr_left' (blockNr_inside_iff (begun accepted))
      · rw [if_neg confirm]
        exact iff_of_true allInside_nil fun again => absurd again confirm

theorem eraseBlockSetup_inside_iff (inside : faddr < geometry.size) :
    AllInside geometry given (writeEraseBlockSetup sfdev command faddr).2 ↔
      (command = cfiCmdConfirm →
        HasBlock geometry ∧
          (blockIsLocked sfdev faddr = false →
            faddr + flashBlockSize ≤ geometry.size)) := by
  change
    AllInside geometry given
        (if command = cfiCmdConfirm then
          blockEraseConfirm sfdev faddr
        else
          ({ sfdev with sr := sfdev.sr ||| cfiStatusEraseError }, [])).2 ↔ _
  by_cases confirm : command = cfiCmdConfirm
  · rw [if_pos confirm, imp_iff_right confirm, blockEraseConfirm]
    cases locked : blockIsLocked sfdev faddr with
    | true =>
        rw [if_pos rfl, and_iff_left nofun]
        exact lockBit_inside_iff inside
    | false =>
        rw [if_neg Bool.false_ne_true, imp_iff_right rfl, allInside_cons,
          allInside_cons, and_iff_left allInside_nil]
        exact and_congr_left' (blockNr_inside_iff inside)
  · rw [if_neg confirm]
    exact iff_of_true allInside_nil fun again => absurd again confirm

/-- A write makes no access outside exactly when it is contained. -/
theorem stepInside_iff (based : Based geometry run.sfdev)
    (within : write.faddr + write.data.length ≤ geometry.size) :
    StepInside run write ↔ Contained run write := by
  rw [StepInside, Contained]
  rcases Nat.lt_or_ge 4 write.data.length with long | short
  · rw [cfiFlashMmio, if_pos long]
    exact iff_of_true nofun fun few => absurd long (Nat.not_lt.2 few)
  · rw [imp_iff_right short, cfiFlashMmio_accesses _ short, cfiFlashWrite]
    cases state : run.sfdev.state with
    | ready =>
        refine iff_of_true (fun access member => ?_) trivial
        dsimp only at member
        split at member
        · cases List.mem_singleton.1 member
          exact Nat.le_of_eq (Nat.zero_add programBuffSize)
        · cases member
    | bufferedProgramSetup => exact iff_of_true nofun trivial
    | lockBlockSetup => exact lockBlockSetup_inside_iff write.begins
    | wordProgram => exact wordProgram_inside_iff write.begins within
    | bufferWrite =>
        exact bufferWrite_inside_iff (based.blockAddress_lt state)
    | eraseBlockSetup => exact eraseBlockSetup_inside_iff write.begins

/-! ## Every sequence of writes -/

/-- Outside a buffered program nothing is to be shown. -/
theorem Based.of_ready (ready : sfdev.state = .ready) :
    Based geometry sfdev :=
  ⟨fun other => absurd (ready.symm.trans other) nofun,
    fun other => absurd (ready.symm.trans other) nofun⟩

theorem Based.adjustMapping (based : Based geometry sfdev) (kvmOk : Bool) :
    Based geometry (adjustMapping sfdev kvmOk) := by
  rw [CfiFlash.adjustMapping]
  split
  · exact ⟨based.setup, based.begun⟩
  · split
    · exact ⟨based.setup, based.begun⟩
    · exact based

theorem based_ready (based : Based geometry sfdev) :
    Based geometry (cfiFlashWriteReady sfdev command) := by
  rw [cfiFlashWriteReady]
  split
  · exact ⟨based.setup, based.begun⟩
  split
  · exact ⟨based.setup, based.begun⟩
  split
  · exact ⟨based.setup, based.begun⟩
  split
  · exact ⟨based.setup, based.begun⟩
  split
  · exact ⟨nofun, nofun⟩
  split
  · exact ⟨nofun, nofun⟩
  split
  · exact ⟨nofun, nofun⟩
  split
  · exact ⟨fun _ => ⟨rfl, rfl⟩, nofun⟩
  split
  · exact based
  · exact ⟨based.setup, based.begun⟩

/-- The base address is the address of a write. -/
theorem based_bufferWrite (based : Based geometry sfdev)
    (state : sfdev.state = .bufferWrite) (inside : faddr < geometry.size) :
    Based geometry (writeBufferWrite sfdev command faddr data).1 := by
  rw [writeBufferWrite]
  cases accepted : acceptedAt sfdev faddr with
  | some offset =>
      rw [bufferWrite_some accepted]
      refine
        ⟨fun other => absurd (state.symm.trans other) nofun,
          fun _ => ⟨(based.begun state).1, .inr ?_⟩⟩
      change (withBase sfdev faddr).blockAddress < geometry.size
      have below := (acceptedAt_elim accepted).2.2.1
      exact Nat.lt_of_le_of_lt below inside
  | none =>
      rw [bufferWrite_none accepted]
      dsimp only
      rw [if_neg Bool.false_ne_true]
      split
      · exact .of_ready rfl
      · exact .of_ready rfl

theorem Based.flashWrite (based : Based geometry sfdev) (command : UInt16)
    (data : List UInt8) (inside : faddr < geometry.size) :
    Based geometry (cfiFlashWrite sfdev command faddr data).1 := by
  rw [cfiFlashWrite]
  cases state : sfdev.state with
  | ready => exact based_ready based
  | bufferedProgramSetup =>
      refine ⟨nofun, fun _ => ⟨?_, .inl (based.setup state)⟩⟩
      exact
        Nat.lt_min.2
          ⟨Nat.mul_pos (Nat.succ_pos _) (by decide), by decide⟩
  | lockBlockSetup =>
      dsimp only
      rw [writeLockBlockSetup]
      split
      · exact .of_ready rfl
      · split
        · exact .of_ready rfl
        · exact .of_ready rfl
  | wordProgram => exact .of_ready rfl
  | bufferWrite => exact based_bufferWrite based state inside
  | eraseBlockSetup => exact .of_ready rfl

/-- Every write keeps the invariant. -/
theorem Based.step (based : Based geometry run.sfdev)
    (write : Write geometry) :
    Based geometry (flashStep run write).sfdev := by
  rw [flashStep, cfiFlashMmio]
  dsimp only
  split
  · exact based
  · have written :=
      based.flashWrite write.command write.data write.begins
    exact written.adjustMapping _

end Step

/--
All stores of a sequence of writes are inside the buffer and the flash, all
bits are in the bitmap and only given bytes are programmed, exactly when each
of the writes is contained.
-/
theorem cfiFlashMmio_inside_iff (geometry : Geometry) (sfdev : CfiFlashDevice)
    (ready : sfdev.state = .ready) (writes : List (Write geometry))
    (within :
      ∀ write ∈ writes, write.faddr + write.data.length ≤ geometry.size) :
    Along flashStep StepInside (flashStart sfdev) writes ↔
      Along flashStep Contained (flashStart sfdev) writes :=
  along_iff_along_of_granted
    (fun _ write (based : Based geometry _) _ => based.step write)
    (fun _ _ based within => stepInside_iff based within)
    (Based.of_ready ready) (along_of_mem within _)

/-- A flash of two blocks at the start of memory, erased and unlocked. -/
def twoBlocks : Geometry :=
  ⟨0, 17, Nat.le_of_ble_eq_true rfl⟩

def erased : CfiFlashDevice where
  flashMemory _ := 0xff
  programBuffer _ := 0
  lockBm _ := false
  blockAddress := 0
  buffWritten := 0
  bufferLength := 0
  state := .ready
  readMode := .readArray
  sr := cfiStatusReady
  isMapped := true

/-- A 32-bit write to a place of the first or the second block. -/
def wordAt (second : Bool) (place : UInt16) (byte : UInt8) :
    Write twoBlocks where
  addr := (if second then 0x10000 else 0) + place.toUInt64
  data := [byte, 0, 0, 0]
  some := List.cons_ne_nil _ _
  stack _ := 0
  kvmOk := true
  begins := by
    have small := place.toNat_lt
    have base : (if second then 0x10000 else 0 : UInt64).toNat ≤ 0x10000 := by
      cases second <;> decide
    have size : twoBlocks.size = 0x20000 := rfl
    rw [show twoBlocks.baseAddr = 0 from rfl, UInt64.sub_zero,
      UInt64.toNat_add, UInt16.toNat_toUInt64, size]
    exact Nat.lt_of_le_of_lt (Nat.mod_le _ _) (by omega)

/-- Two words are programmed through the buffer. -/
def twoWords : List (Write twoBlocks) :=
  [wordAt false 0 0xe8, wordAt false 0 1, wordAt false 0 0x11,
    wordAt false 4 0x22, wordAt false 0x100 0xd0]

/-- They stay inside the buffer and the memory. -/
theorem twoWords_inside :
    Along flashStep StepInside (flashStart erased) twoWords := by
  refine
    (cfiFlashMmio_inside_iff twoBlocks erased rfl twoWords (by decide)).2 ?_
  refine
    ⟨fun _ => trivial, fun _ => trivial, fun _ => ?_, fun _ => ?_,
      fun _ _ => ⟨?_, fun _ => ⟨?_, ?_⟩⟩, trivial⟩
  · change 0 + 4 ≤ programBuffSize
    decide
  · change 4 + 4 ≤ programBuffSize
    decide
  · change flashBlockSize ≤ 2 ^ 17
    decide
  · decide
  · decide

/-- The last word of a full buffer begins at its last byte. -/
def unalignedWords : List (Write twoBlocks) :=
  [wordAt false 0 0xe8, wordAt false 0 31, wordAt false 0 0x11,
    wordAt false 127 0x22]

/-- Three bytes are stored behind the buffer. -/
theorem unaligned_word_leaves_buffer :
    (∀ write ∈ unalignedWords,
        write.faddr + write.data.length ≤ twoBlocks.size) ∧
      Access.bufferStore 127 4 ∈
        (cfiFlashMmio
            (run flashStep (flashStart erased) (unalignedWords.take 3)).sfdev
            (wordAt false 127 0x22)).2 ∧
        ¬ Along flashStep StepInside (flashStart erased) unalignedWords := by
  have stored :
      Access.bufferStore 127 4 ∈
        (cfiFlashMmio
            (run flashStep (flashStart erased) (unalignedWords.take 3)).sfdev
            (wordAt false 127 0x22)).2 := by
    decide
  refine ⟨by decide, stored, fun inside => ?_⟩
  have last : 127 + 4 ≤ programBuffSize := inside.2.2.2.1 _ stored
  exact absurd last (by decide)

end Kemu.Hw.CfiFlash
