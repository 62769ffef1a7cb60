import Kemu.Hw.CfiFlashBounds

/-!
# What the flash protects

The lock of a block is looked at for one address, and then a word, a buffered
program or an erasure reaches as far as it is long.  It stays in the block
when it ends there, and a block is erased as a whole from its first address.
-/

namespace Kemu.Hw.CfiFlash

open Kemu.Lib.Bytes
open Kemu.Lib.Transition

/-! ## What is expected -/

section Spec

variable {geometry : Geometry}

/-- A byte of the flash is another one after a write. -/
def Changes (run : FlashRun) (write : Write geometry) (place : Nat) : Prop :=
  (flashStep run write).sfdev.flashMemory place ≠
    run.sfdev.flashMemory place

/--
A write leaves locked blocks alone, erases exactly one block, and programs
only what was given, inside one block.
-/
structure StepRight (run : FlashRun) (write : Write geometry) : Prop where
  locked :
    ∀ place, run.sfdev.lockBm (blockNr place) = true →
      ¬Changes run write place
  erases :
    run.sfdev.state = .eraseBlockSetup → write.data.length ≤ 4 →
      write.command.toUInt8 = cfiCmdConfirm →
        blockIsLocked run.sfdev write.faddr = false →
          ∀ place,
            (flashStep run write).sfdev.flashMemory place =
              if blockNr place = blockNr write.faddr then
                0xff
              else
                run.sfdev.flashMemory place
  word :
    run.sfdev.state = .wordProgram → ∀ place, Changes run write place →
      blockNr place = blockNr write.faddr ∧
        ∃ index,
          place = write.faddr + index ∧
            write.data[index]? =
              some ((flashStep run write).sfdev.flashMemory place)
  buffered :
    run.sfdev.state = .bufferWrite → ∀ place, Changes run write place →
      blockNr place = blockNr run.sfdev.blockAddress ∧
        ∃ offset,
          place = run.sfdev.blockAddress + offset ∧
            run.given offset =
              some ((flashStep run write).sfdev.flashMemory place)
  others :
    run.sfdev.state ≠ .eraseBlockSetup → run.sfdev.state ≠ .wordProgram →
      run.sfdev.state ≠ .bufferWrite → ∀ place, ¬Changes run write place

/-- So many bytes from an address on are in one block. -/
def EndsInBlock (faddr size : Nat) : Prop :=
  faddr % flashBlockSize + size ≤ flashBlockSize

/--
The condition on a write: what is programmed ends in the block in which it
begins and in the buffer, leaves out no byte, and a block is erased from its
first address.
-/
def StaysInBlock (run : FlashRun) (write : Write geometry) : Prop :=
  write.data.length ≤ 4 →
    match run.sfdev.state with
    | .wordProgram =>
        blockIsLocked run.sfdev write.faddr = false →
          EndsInBlock write.faddr write.data.length
    | .bufferWrite =>
        match acceptedAt run.sfdev write.faddr with
        | some offset => offset + write.data.length ≤ programBuffSize
        | none =>
            write.command.toUInt8 = cfiCmdConfirm →
              blockIsLocked run.sfdev run.sfdev.blockAddress = false →
                (∀ offset < run.sfdev.buffWritten,
                    run.given offset ≠ none) ∧
                  EndsInBlock run.sfdev.blockAddress run.sfdev.buffWritten
    | .eraseBlockSetup =>
        write.command.toUInt8 = cfiCmdConfirm →
          blockIsLocked run.sfdev write.faddr = false →
            write.faddr % flashBlockSize = 0
    | _ => True

end Spec

/-! ## Blocks -/

theorem blockNr_add {faddr size index : Nat} (ends : EndsInBlock faddr size)
    (within : index < size) : blockNr (faddr + index) = blockNr faddr := by
  rw [EndsInBlock, flashBlockSize] at ends
  rw [blockNr, blockNr, flashBlockSize]
  omega

/-- What a store changes is stored there. -/
theorem poke_changes {Byte : Type} {memory : Nat → Byte} {faddr place : Nat}
    {data : List Byte}
    (changes : poke memory faddr data place ≠ memory place) :
    ∃ index,
      place = faddr + index ∧ index < data.length ∧
        data[index]? = some (poke memory faddr data place) := by
  by_cases inside : faddr ≤ place ∧ place < faddr + data.length
  · obtain ⟨begins, ends⟩ := inside
    obtain ⟨index, rfl⟩ := Nat.exists_eq_add_of_le begins
    have within : index < data.length := Nat.lt_of_add_lt_add_left ends
    refine ⟨index, rfl, within, ?_⟩
    rw [poke_inside memory faddr within]
    exact List.getElem?_eq_getElem within
  · exact absurd (poke_outside memory (by omega)) changes

/-! ## One write -/

section Step

variable {geometry : Geometry} {run : FlashRun} {write : Write geometry}

/-- What is stored to the flash by a write, and where. -/
def stored (run : FlashRun) (write : Write geometry) :
    Option (Nat × List UInt8) :=
  if write.data.length > 4 then
    none
  else
    match run.sfdev.state with
    | .wordProgram =>
        if blockIsLocked run.sfdev write.faddr then
          none
        else
          some (write.faddr, write.data)
    | .bufferWrite =>
        if acceptedAt run.sfdev write.faddr = none ∧
            write.command.toUInt8 = cfiCmdConfirm ∧
              blockIsLocked run.sfdev run.sfdev.blockAddress = false then
          some
            (run.sfdev.blockAddress,
              peek run.sfdev.programBuffer 0 run.sfdev.buffWritten)
        else
          none
    | .eraseBlockSetup =>
        if write.command.toUInt8 = cfiCmdConfirm ∧
            blockIsLocked run.sfdev write.faddr = false then
          some (write.faddr, List.replicate flashBlockSize 0xff)
        else
          none
    | _ => none

theorem adjustMapping_fields (sfdev : CfiFlashDevice) (kvmOk : Bool) :
    (adjustMapping sfdev kvmOk).flashMemory = sfdev.flashMemory ∧
      (adjustMapping sfdev kvmOk).programBuffer = sfdev.programBuffer := by
  rw [adjustMapping]
  split
  · exact ⟨rfl, rfl⟩
  · split <;> exact ⟨rfl, rfl⟩

theorem ready_memory (sfdev : CfiFlashDevice) (command : UInt8) :
    (cfiFlashWriteReady sfdev command).flashMemory = sfdev.flashMemory := by
  rw [cfiFlashWriteReady]
  repeat' split
  all_goals rfl

theorem bufferWrite_memory (sfdev : CfiFlashDevice) (command : UInt8)
    (faddr : Nat) (data : List UInt8) :
    (writeBufferWrite sfdev command faddr data).1.flashMemory =
      if acceptedAt sfdev faddr = none ∧ command = cfiCmdConfirm ∧
          blockIsLocked sfdev sfdev.blockAddress = false then
        poke sfdev.flashMemory sfdev.blockAddress
          (peek sfdev.programBuffer 0 sfdev.buffWritten)
      else
        sfdev.flashMemory := by
  rw [writeBufferWrite]
  cases accepted : acceptedAt sfdev faddr with
  | some offset =>
      rw [bufferWrite_some accepted, if_neg fun all => Option.some_ne_none _ all.1]
      rfl
  | none =>
      rw [bufferWrite_none accepted]
      dsimp only
      rw [if_neg Bool.false_ne_true]
      by_cases confirm : command = cfiCmdConfirm
      · rw [if_pos confirm]
        change (bufferConfirm sfdev).1.flashMemory = _
        rw [bufferConfirm]
        cases locked : blockIsLocked sfdev sfdev.blockAddress with
        | true =>
            rw [if_pos rfl]
            exact (if_neg fun all => Bool.false_ne_true all.2.2.symm).symm
        | false =>
            rw [if_neg Bool.false_ne_true]
            exact (if_pos ⟨rfl, confirm, rfl⟩).symm
      · rw [if_neg confirm, if_neg fun all => confirm all.2.1]

theorem eraseBlockSetup_memory (sfdev : CfiFlashDevice) (command : UInt8)
    (faddr : Nat) :
    (writeEraseBlockSetup sfdev command faddr).1.flashMemory =
      match
        (if command = cfiCmdConfirm ∧ blockIsLocked sfdev faddr = false then
          some (faddr, List.replicate flashBlockSize (0xff : UInt8))
        else
          none) with
      | none => sfdev.flashMemory
      | some (start, bytes) => poke sfdev.flashMemory start bytes := by
  change
    (if command = cfiCmdConfirm then
      blockEraseConfirm sfdev faddr
    else
      ({ sfdev with
        sr := sfdev.sr ||| cfiStatusEraseError }, [])).1.flashMemory = _
  by_cases confirm : command = cfiCmdConfirm
  · rw [if_pos confirm, blockEraseConfirm]
    cases locked : blockIsLocked sfdev faddr with
    | true =>
        rw [if_pos rfl, if_neg fun both => Bool.false_ne_true both.2.symm]
        rfl
    | false => rw [if_neg Bool.false_ne_true, if_pos ⟨confirm, rfl⟩]
  · rw [if_neg confirm, if_neg fun both => confirm both.1]

/-- The flash after a write. -/
theorem flashStep_memory (run : FlashRun) (write : Write geometry) :
    (flashStep run write).sfdev.flashMemory =
      match stored run write with
      | none => run.sfdev.flashMemory
      | some (start, bytes) => poke run.sfdev.flashMemory start bytes := by
  rw [flashStep, cfiFlashMmio, stored]
  dsimp only
  split
  case isTrue => rfl
  case isFalse =>
    rw [(adjustMapping_fields _ _).1, cfiFlashWrite]
    cases run.sfdev.state with
    | ready => exact ready_memory _ _
    | bufferedProgramSetup => rfl
    | lockBlockSetup =>
        dsimp only
        rw [writeLockBlockSetup]
        split
        · rfl
        · split <;> rfl
    | wordProgram =>
        change (wordProgram _ _ _).1.flashMemory = _
        rw [wordProgram]
        dsimp only
        split <;> rfl
    | bufferWrite =>
        dsimp only
        rw [bufferWrite_memory]
        split <;> rfl
    | eraseBlockSetup => exact eraseBlockSetup_memory _ _ _

/-- The buffer holds what the program was given. -/
def Holds (given : Nat → Option UInt8) (sfdev : CfiFlashDevice) : Prop :=
  ∀ offset byte, given offset = some byte →
    sfdev.programBuffer offset = byte

variable {given : Nat → Option UInt8} {sfdev : CfiFlashDevice}
  {command : UInt8} {faddr : Nat} {data : List UInt8}

theorem holds_nothing : Holds (fun _ => none) sfdev := by
  intro offset byte known
  cases known

theorem holds_ready (holds : Holds given sfdev) :
    Holds
      (if command = cfiCmdBufferedProgramSetup then fun _ => none else given)
      (cfiFlashWriteReady sfdev command) := by
  by_cases setup : command = cfiCmdBufferedProgramSetup
  · rw [if_pos setup]
    exact holds_nothing
  · rw [if_neg setup, cfiFlashWriteReady, if_neg setup]
    repeat' split
    all_goals exact holds

/-- The same bytes are stored to both. -/
theorem holds_poke (holds : Holds given sfdev) {offset : Nat}
    {after : CfiFlashDevice}
    (buffer : after.programBuffer = poke sfdev.programBuffer offset data) :
    Holds (poke given offset (data.map some)) after := by
  intro place byte known
  rw [buffer]
  by_cases inside : offset ≤ place ∧ place < offset + data.length
  · obtain ⟨begins, ends⟩ := inside
    obtain ⟨index, rfl⟩ := Nat.exists_eq_add_of_le begins
    have within : index < data.length := Nat.lt_of_add_lt_add_left ends
    have mapped : index < (data.map some).length := by
      rwa [List.length_map]
    rw [poke_inside given offset mapped, List.getElem_map] at known
    rw [poke_inside _ offset within]
    exact Option.some.inj known
  · rw [poke_outside] at known
    · rw [poke_outside _ (by omega)]
      exact holds place byte known
    · rw [List.length_map]
      omega

theorem holds_bufferWrite (holds : Holds given sfdev) :
    Holds
      (match acceptedAt sfdev faddr with
        | some offset => poke given offset (data.map some)
        | none => given)
      (writeBufferWrite sfdev command faddr data).1 := by
  rw [writeBufferWrite]
  cases accepted : acceptedAt sfdev faddr with
  | some offset =>
      rw [bufferWrite_some accepted]
      exact holds_poke holds rfl
  | none =>
      rw [bufferWrite_none accepted]
      dsimp only
      rw [if_neg Bool.false_ne_true]
      split
      · change Holds given (bufferConfirm sfdev).1
        rw [bufferConfirm]
        split <;> exact holds
      · exact holds

/-- Every write keeps the invariant. -/
theorem Holds.step (holds : Holds run.given run.sfdev)
    (write : Write geometry) :
    Holds (flashStep run write).given (flashStep run write).sfdev := by
  rw [flashStep, cfiFlashMmio, track]
  dsimp only
  split
  case isTrue => exact holds
  case isFalse =>
    intro offset byte known
    rw [(adjustMapping_fields _ _).2]
    revert offset byte
    change Holds _ _
    rw [cfiFlashWrite]
    cases run.sfdev.state with
    | ready => exact holds_ready holds
    | bufferedProgramSetup => exact holds
    | lockBlockSetup =>
        dsimp only
        rw [writeLockBlockSetup]
        split
        · exact holds
        · split <;> exact holds
    | wordProgram =>
        change Holds run.given (wordProgram _ _ _).1
        rw [wordProgram]
        split <;> exact holds
    | bufferWrite => exact holds_bufferWrite holds
    | eraseBlockSetup =>
        change
          Holds run.given
            (if write.command.toUInt8 = cfiCmdConfirm then
              blockEraseConfirm run.sfdev write.faddr
            else _).1
        split
        · rw [blockEraseConfirm]
          split <;> exact holds
        · exact holds

/-- What changes a byte is a store. -/
theorem Changes.elim {place : Nat} (changes : Changes run write place) :
    ∃ start bytes index,
      stored run write = some (start, bytes) ∧
        place = start + index ∧ index < bytes.length ∧
          bytes[index]? =
            some ((flashStep run write).sfdev.flashMemory place) := by
  rw [Changes, flashStep_memory] at changes
  rw [flashStep_memory]
  cases what : stored run write with
  | none =>
      rw [what] at changes
      exact absurd rfl changes
  | some range =>
      obtain ⟨start, bytes⟩ := range
      rw [what] at changes
      obtain ⟨index, here, within, byte⟩ := poke_changes changes
      exact ⟨start, bytes, index, rfl, here, within, byte⟩

/-- The stores of writes that stay in their blocks. -/
inductive Stores (run : FlashRun) (write : Write geometry) :
    Nat → List UInt8 → Prop where
  | word (state : run.sfdev.state = .wordProgram)
      (opened : blockIsLocked run.sfdev write.faddr = false)
      (ends : EndsInBlock write.faddr write.data.length) :
      Stores run write write.faddr write.data
  | program (state : run.sfdev.state = .bufferWrite)
      (opened : blockIsLocked run.sfdev run.sfdev.blockAddress = false)
      (complete :
        ∀ offset < run.sfdev.buffWritten, run.given offset ≠ none)
      (ends : EndsInBlock run.sfdev.blockAddress run.sfdev.buffWritten) :
      Stores run write run.sfdev.blockAddress
        (peek run.sfdev.programBuffer 0 run.sfdev.buffWritten)
  | erase (state : run.sfdev.state = .eraseBlockSetup)
      (opened : blockIsLocked run.sfdev write.faddr = false)
      (aligned : write.faddr % flashBlockSize = 0) :
      Stores run write write.faddr (List.replicate flashBlockSize 0xff)

theorem StaysInBlock.stored (stays : StaysInBlock run write) {start : Nat}
    {bytes : List UInt8} (what : stored run write = some (start, bytes)) :
    Stores run write start bytes := by
  rw [StaysInBlock] at stays
  rw [CfiFlash.stored] at what
  split at what
  case isTrue => cases what
  case isFalse short =>
    replace stays := stays (Nat.not_lt.1 short)
    cases state : run.sfdev.state with
    | ready => rw [state] at what; cases what
    | bufferedProgramSetup => rw [state] at what; cases what
    | lockBlockSetup => rw [state] at what; cases what
    | wordProgram =>
        rw [state] at what stays
        dsimp only at what stays
        split at what
        case isTrue => cases what
        case isFalse opened =>
          cases what
          rw [Bool.not_eq_true] at opened
          exact .word state opened (stays opened)
    | bufferWrite =>
        rw [state] at what stays
        dsimp only at what stays
        split at what
        case isFalse => cases what
        case isTrue all =>
          cases what
          obtain ⟨rejected, confirm, opened⟩ := all
          rw [rejected] at stays
          obtain ⟨complete, ends⟩ := stays confirm opened
          exact .program state opened complete ends
    | eraseBlockSetup =>
        rw [state] at what stays
        dsimp only at what stays
        split at what
        case isFalse => cases what
        case isTrue both =>
          cases what
          obtain ⟨confirm, opened⟩ := both
          exact .erase state opened (stays confirm opened)

/-- Each store is to a block that is not locked, and ends in it. -/
theorem Stores.inBlock {start : Nat} {bytes : List UInt8}
    (stores : Stores run write start bytes) :
    blockIsLocked run.sfdev start = false ∧
      EndsInBlock start bytes.length := by
  cases stores with
  | word _ opened ends => exact ⟨opened, ends⟩
  | program _ opened _ ends => exact ⟨opened, by rwa [peek_length]⟩
  | erase _ opened aligned =>
      refine ⟨opened, ?_⟩
      rw [EndsInBlock, aligned, List.length_replicate, Nat.zero_add]

/-- The bytes of an aligned block. -/
theorem mem_block_iff {start place : Nat}
    (aligned : start % flashBlockSize = 0) :
    blockNr place = blockNr start ↔
      start ≤ place ∧ place < start + flashBlockSize := by
  rw [flashBlockSize] at aligned ⊢
  rw [blockNr, blockNr, flashBlockSize]
  omega

/-- Filling an aligned block changes this block and no other. -/
theorem poke_block (memory : Nat → UInt8) (value : UInt8) {start : Nat}
    (aligned : start % flashBlockSize = 0) (place : Nat) :
    poke memory start (List.replicate flashBlockSize value) place =
      if blockNr place = blockNr start then value else memory place := by
  split
  case isTrue same =>
    obtain ⟨begins, ends⟩ := (mem_block_iff aligned).1 same
    obtain ⟨index, rfl⟩ := Nat.exists_eq_add_of_le begins
    have within : index < (List.replicate flashBlockSize value).length := by
      rw [List.length_replicate]
      exact Nat.lt_of_add_lt_add_left ends
    rw [poke_inside _ _ within, List.getElem_replicate]
  case isFalse other =>
    have outside :
        ¬(start ≤ place ∧ place < start + flashBlockSize) :=
      mt (mem_block_iff aligned).2 other
    apply poke_outside
    rw [List.length_replicate]
    omega

theorem stepRight_of_stays (holds : Holds run.given run.sfdev)
    (stays : StaysInBlock run write) : StepRight run write := by
  constructor
  · intro place isLocked changes
    obtain ⟨start, bytes, index, what, rfl, within, -⟩ := changes.elim
    obtain ⟨opened, ends⟩ := (stays.stored what).inBlock
    rw [blockNr_add ends within] at isLocked
    exact Bool.false_ne_true (opened.symm.trans isLocked)
  · intro state short confirm open' place
    have what :
        stored run write =
          some (write.faddr, List.replicate flashBlockSize 0xff) := by
      rw [stored, if_neg (Nat.not_lt.2 short), state]
      exact if_pos ⟨confirm, open'⟩
    have aligned : write.faddr % flashBlockSize = 0 := by
      rw [StaysInBlock, state] at stays
      exact stays short confirm open'
    rw [flashStep_memory, what]
    exact poke_block _ _ aligned place
  · intro state place changes
    obtain ⟨start, bytes, index, what, rfl, within, byte⟩ := changes.elim
    cases stays.stored what with
    | word _ _ ends =>
        exact ⟨blockNr_add ends within, index, rfl, byte⟩
    | program other => cases state.symm.trans other
    | erase other => cases state.symm.trans other
  · intro state place changes
    obtain ⟨start, bytes, index, what, rfl, within, byte⟩ := changes.elim
    cases stays.stored what with
    | word other => cases state.symm.trans other
    | erase other => cases state.symm.trans other
    | program _ _ complete ends =>
        have few : index < run.sfdev.buffWritten := by
          rwa [peek_length] at within
        refine ⟨blockNr_add ends few, index, rfl, ?_⟩
        obtain ⟨value, known⟩ :=
          Option.ne_none_iff_exists'.1 (complete index few)
        rw [known, ← byte, ← holds index value known,
          List.getElem?_eq_getElem within]
        simp only [peek, List.getElem_map, List.getElem_range,
          Nat.zero_add]
  · intro notErase notWord notBuffer place changes
    obtain ⟨start, bytes, index, what, -⟩ := changes.elim
    cases stays.stored what with
    | word state => exact notWord state
    | program state => exact notBuffer state
    | erase state => exact notErase state

end Step

/--
If every write of a sequence stays in its block, then none of them changes a
locked block, and each erases or programs exactly what it should.
-/
theorem cfiFlashMmio_protects (geometry : Geometry) (sfdev : CfiFlashDevice)
    (writes : List (Write geometry))
    (stay : Along flashStep StaysInBlock (flashStart sfdev) writes) :
    Along flashStep StepRight (flashStart sfdev) writes :=
  along_of_along
    (fun _ write (holds : Holds _ _) _ => holds.step write)
    (fun _ _ holds stays => stepRight_of_stays holds stays) holds_nothing
    stay

/-- A word is programmed in the first block, and the second one is erased. -/
def wordAndErase : List (Write twoBlocks) :=
  [wordAt false 0 0x40, wordAt false 0x100 0x11, wordAt true 0 0x20,
    wordAt true 0 0xd0]

/-- Each of the two changes its own block only. -/
theorem wordAndErase_protects :
    Along flashStep StepRight (flashStart erased) wordAndErase := by
  refine cfiFlashMmio_protects twoBlocks erased wordAndErase ?_
  refine
    ⟨fun _ => trivial, fun _ _ => ?_, fun _ => trivial, fun _ _ _ => ?_,
      trivial⟩
  · change 0x100 % flashBlockSize + 4 ≤ flashBlockSize
    decide
  · decide

/-- The second block is locked, and a word begins at the end of the first. -/
def wordAcross : List (Write twoBlocks) :=
  [wordAt true 0 0x60, wordAt true 0 0x01, wordAt false 0 0x40,
    wordAt false 0xfffe 0x11]

/-- A byte of the locked block is another one after the word. -/
theorem word_changes_locked_block :
    (∀ write ∈ wordAcross,
        write.faddr + write.data.length ≤ twoBlocks.size) ∧
      (run flashStep (flashStart erased) (wordAcross.take 3)).sfdev.lockBm
          (blockNr 0x10000) = true ∧
        Changes (run flashStep (flashStart erased) (wordAcross.take 3))
          (wordAt false 0xfffe 0x11) 0x10000 ∧
          ¬ Along flashStep StepRight (flashStart erased) wordAcross := by
  have locked :
      (run flashStep (flashStart erased) (wordAcross.take 3)).sfdev.lockBm
        (blockNr 0x10000) = true := by
    decide
  have changes :
      Changes (run flashStep (flashStart erased) (wordAcross.take 3))
        (wordAt false 0xfffe 0x11) 0x10000 := by
    rw [Changes]
    decide
  refine ⟨by decide, locked, changes, fun right => ?_⟩
  exact right.2.2.2.1.locked 0x10000 locked changes

end Kemu.Hw.CfiFlash
