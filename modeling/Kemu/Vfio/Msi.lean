import Kemu.Vfio.Msix

/-!
# Writes to the MSI capability of a device that is passed through

The array of vectors is allocated for the number of them that the device is
capable of.  Which vectors are connected when the guest enables the
capability is decided by the number the guest writes, and which are masked
by a register of 32 bits that is put together from their states and the
bytes of the write.

Beside the state stand the indices at which the array was accessed, and the
amounts by which the bits of the mask were shifted.
-/

namespace Kemu.Vfio.Msi

open Kemu.Init.Irq
open Kemu.Lib.Bytes
open Kemu.Vfio.Msix

/-! ## The code -/

/-- `PCI_MSI_FLAGS`. -/
def pciMsiFlags : Nat := 2

/-- `PCI_MSI_FLAGS_ENABLE`. -/
def pciMsiFlagsEnable : UInt8 := 0x01

/-- `PCI_MSI_FLAGS_QMASK`. -/
def pciMsiFlagsQmask : UInt16 := 0x0e

/-- `PCI_MSI_FLAGS_QSIZE`. -/
def pciMsiFlagsQsize : UInt8 := 0x70

/-- `PCI_MSI_FLAGS_64BIT`. -/
def pciMsiFlags64bit : UInt16 := 0x80

/-- `PCI_MSI_FLAGS_MASKBIT`. -/
def pciMsiFlagsMaskbit : UInt16 := 0x100

/-- `PCI_MSI_MASK_32`. -/
def pciMsiMask32 : Nat := 0x0c

/-- `PCI_MSI_MASK_64`. -/
def pciMsiMask64 : Nat := 0x10

/-- The number of entries `vfio_pci_create_msi_cap` allocates. -/
def vfioPciCreateMsiCap (ctrl : UInt16) : Nat :=
  1 <<< ((ctrl &&& pciMsiFlagsQmask) >>> 1).toNat

theorem vfioPciCreateMsiCap_le (ctrl : UInt16) :
    vfioPciCreateMsiCap ctrl ≤ 128 := by
  have small : ((ctrl &&& pciMsiFlagsQmask) >>> 1).toNat ≤ 7 := by
    have field : (ctrl &&& pciMsiFlagsQmask).toNat ≤ 14 :=
      Nat.and_le_right
    have half :
        ((ctrl &&& pciMsiFlagsQmask) >>> 1).toNat =
          (ctrl &&& pciMsiFlagsQmask).toNat / 2 :=
      rfl
    omega
  rw [vfioPciCreateMsiCap, Nat.one_shiftLeft]
  exact Nat.pow_le_pow_right (by decide) small

/-- The device with the entries for the vectors of a capability. -/
def withMsi (device : VfioDevice) (ctrl : UInt16) : VfioDevice :=
  { device with
    nrEntries := vfioPciCreateMsiCap ctrl
    few := Nat.le_trans (vfioPciCreateMsiCap_le ctrl) (by decide) }

/-- Indices into `pdev->msi.entries`, and amounts of shifts. -/
structure Accesses where
  entries : List Nat
  shifts : List Nat

section Code

variable (device : VfioDevice) (answers : Nat → VfioAnswers)
  (hdr : Nat → UInt8)

/-- A field of the capability in the header, little-endian. -/
def capField (offset size : Nat) : Nat :=
  ofLe (peek hdr (device.pos.toNat + offset) size)

/-- `msi_cap_64->ctrl`. -/
def msiCtrl : UInt16 :=
  .ofNat (capField device hdr 2 2)

/-- `mask_pos`. -/
def maskPos : Nat :=
  if msiCtrl device hdr &&& pciMsiFlags64bit ≠ 0 then
    pciMsiMask64
  else
    pciMsiMask32

/-- `vfio_pci_update_msi_entry` for an entry that was changed. -/
def updateEntry (state : VfioState) (i : Nat) (entry : VfioPciMsiEntry) :
    VfioState :=
  let now :=
    (vfioPciUpdateMsiEntry device (answers i)
      ⟨state.irq, state.irqfds, entry⟩).2
  { state with
    irq := now.irq
    irqfds := now.irqfds
    entries := Function.update state.entries i now.entry }

/-- The masks of the vectors, bit by bit. -/
def currentMask (state : VfioState) : UInt32 :=
  (List.range device.nrEntries).foldl
    (fun mask i =>
      let masked := (state.entries i).guestState.masked
      mask ||| ((if masked then (1 : UInt32) else 0) <<< UInt32.ofNat i))
    0

/-- A vector after the mask was written, unless the process has died. -/
def maskVector (mask : UInt32) (state : VfioState) (i : Nat) : VfioState :=
  let masked := mask &&& ((1 : UInt32) <<< UInt32.ofNat i) != 0
  let entry := state.entries i
  if state.irq.dead then
    state
  else if masked ≠ entry.guestState.masked then
    updateEntry device answers state i
      { entry with guestState := { entry.guestState with masked := masked } }
  else
    state

/-- `vfio_pci_msi_vector_write`; `none` where it returns 0. -/
def vfioPciMsiVectorWrite (state : VfioState) (off : Nat)
    (data : List UInt8) : Option (VfioState × Accesses) :=
  let maskPos := maskPos device hdr
  if msiCtrl device hdr &&& pciMsiFlagsMaskbit = 0 then
    none
  else if off ≥ maskPos + 4 ∨ off + data.length ≤ maskPos then
    none
  else
    let start := max off maskPos
    let limit := min (off + data.length) (maskPos + 4)
    let bytes :=
      patch (toLe 4 (currentMask device state).toNat) (start - maskPos)
        ((data.drop (start - off)).take (limit - start))
    let mask := UInt32.ofNat (ofLe bytes)
    let vectors := List.range device.nrEntries
    -- one loop puts the mask together, the other one takes it apart, at
    -- most to its end
    some
      (vectors.foldl (maskVector device answers mask) state,
        ⟨vectors ++ vectors, vectors ++ vectors⟩)

/-- The message in the capability. -/
def capMessage : MsiMsg :=
  if msiCtrl device hdr &&& pciMsiFlags64bit ≠ 0 then
    ⟨.ofNat (capField device hdr 4 4), .ofNat (capField device hdr 8 4),
      .ofNat (capField device hdr 12 2)⟩
  else
    ⟨.ofNat (capField device hdr 4 4), 0, .ofNat (capField device hdr 8 2)⟩

/-- `struct msi_msg` in memory. -/
def msgBytes (msg : MsiMsg) : List UInt8 :=
  toLe 4 msg.addressLo.toNat ++
    (toLe 4 msg.addressHi.toNat ++ toLe 4 msg.data.toNat)

/-- A vector is given its message, unless the process has died. -/
def routeVector (nrVectors : Nat) (now : VfioState × MsiMsg) (i : Nat) :
    VfioState × MsiMsg :=
  let (state, msg) := now
  let msg :=
    { msg with data := msg.data &&& ~~~(.ofNat (nrVectors - 1)) ||| .ofNat i }
  let entry := state.entries i
  if state.irq.dead then
    now
  else
    (updateEntry device answers state i
        { entry with config := poke entry.config 0 (msgBytes msg) },
      msg)

variable (last : VfioAnswers)

/-- `vfio_pci_msi_cap_write`; `last` answers the calls after the loop. -/
def vfioPciMsiCapWrite (state : VfioState) (write : CapWrite) :
    VfioState × Accesses :=
  let off := (write.offset - device.pos).toNat
  match vfioPciMsiVectorWrite device answers hdr state off write.data with
  | some done => done
  | none =>
      if off > pciMsiFlags ∨ off + write.data.length ≤ pciMsiFlags then
        (state, ⟨[], []⟩)
      else
        let ctrl := write.data.getD (pciMsiFlags - off) 0
        let enable := ctrl &&& pciMsiFlagsEnable != 0
        let state :=
          { state with
            guestState := { state.guestState with enabled := enable } }
        if !enable then
          ((vfioPciDisableMsis device last state).2, ⟨[], []⟩)
        else
          let nrVectors := 1 <<< ((ctrl &&& pciMsiFlagsQsize) >>> 4).toNat
          let state :=
            ((List.range nrVectors).foldl
                (routeVector device answers nrVectors)
                (state, capMessage device hdr)).1
          -- the loops of `vfio_pci_enable_msis` go over all entries at most
          (if state.irq.dead then state
            else (vfioPciEnableMsis device last state).2,
            ⟨List.range nrVectors ++ List.range device.nrEntries, []⟩)

end Code

/-! ## Which accesses a write makes -/

/-- The write has bytes of the mask, and the capability has one. -/
def ReachesMask (device : VfioDevice) (hdr : Nat → UInt8)
    (write : CapWrite) : Prop :=
  let off := (write.offset - device.pos).toNat
  msiCtrl device hdr &&& pciMsiFlagsMaskbit ≠ 0 ∧
    off < maskPos device hdr + 4 ∧
      maskPos device hdr < off + write.data.length

instance (device : VfioDevice) (hdr : Nat → UInt8) (write : CapWrite) :
    Decidable (ReachesMask device hdr write) :=
  inferInstanceAs (Decidable (_ ∧ _ ∧ _))

/-- The byte with the enable bit, where the write has it. -/
def writtenCtrl (device : VfioDevice) (write : CapWrite) : Option UInt8 :=
  let off := (write.offset - device.pos).toNat
  if off ≤ pciMsiFlags then write.data[pciMsiFlags - off]? else none

/-- The number of vectors the guest asks for. -/
def requestedVectors (ctrl : UInt8) : Nat :=
  2 ^ ((ctrl &&& pciMsiFlagsQsize) >>> 4).toNat

/--
A mask is written to vectors that it has bits for, and no more vectors are
enabled than the device is capable of.
-/
def Modest (device : VfioDevice) (hdr : Nat → UInt8) (write : CapWrite) :
    Prop :=
  if ReachesMask device hdr write then
    device.nrEntries ≤ 32
  else
    ∀ ctrl, writtenCtrl device write = some ctrl →
      ctrl &&& pciMsiFlagsEnable ≠ 0 →
        requestedVectors ctrl ≤ device.nrEntries

/-- All accesses are to entries that exist, and all shifts are defined. -/
structure AccessesInside (device : VfioDevice) (accesses : Accesses) :
    Prop where
  entries : ∀ i ∈ accesses.entries, i < device.nrEntries
  shifts : ∀ amount ∈ accesses.shifts, amount < 32

/-! ## Every write -/

section Accesses

variable {device : VfioDevice}

theorem range_inside_iff {count : Nat} {limit : Nat} :
    (∀ i ∈ List.range count, i < limit) ↔ count ≤ limit := by
  constructor
  · intro every
    rcases Nat.eq_zero_or_pos count with rfl | positive
    · exact Nat.zero_le limit
    · have last := every (count - 1) (List.mem_range.2 (by omega))
      omega
  · intro fits i member
    exact Nat.lt_of_lt_of_le (List.mem_range.1 member) fits

theorem none_inside : AccessesInside device ⟨[], []⟩ :=
  ⟨nofun, nofun⟩

/-- The accesses of the mask. -/
theorem mask_inside_iff :
    AccessesInside device
        ⟨List.range device.nrEntries ++ List.range device.nrEntries,
          List.range device.nrEntries ++ List.range device.nrEntries⟩ ↔
      device.nrEntries ≤ 32 := by
  have split (limit : Nat) :
      (∀ i ∈ List.range device.nrEntries ++ List.range device.nrEntries,
          i < limit) ↔
        device.nrEntries ≤ limit := by
    rw [List.forall_mem_append, range_inside_iff, and_self_iff]
  constructor
  · intro inside
    exact (split 32).1 inside.shifts
  · intro few
    exact ⟨(split _).2 (Nat.le_refl _), (split 32).2 few⟩

/-- The accesses of vectors that are enabled. -/
theorem enable_inside_iff {nrVectors : Nat} :
    AccessesInside device
        ⟨List.range nrVectors ++ List.range device.nrEntries, []⟩ ↔
      nrVectors ≤ device.nrEntries := by
  have split :
      (∀ i ∈ List.range nrVectors ++ List.range device.nrEntries,
          i < device.nrEntries) ↔
        nrVectors ≤ device.nrEntries := by
    rw [List.forall_mem_append, range_inside_iff, range_inside_iff,
      and_iff_left (Nat.le_refl _)]
  constructor
  · intro inside
    exact split.1 inside.entries
  · intro fits
    exact ⟨split.2 fits, nofun⟩

variable (device) (answers : Nat → VfioAnswers) (hdr : Nat → UInt8)
  (last : VfioAnswers) (state : VfioState) (write : CapWrite)

/-- The mask is handled exactly for the writes that reach it. -/
theorem vfioPciMsiVectorWrite_accesses (off : Nat)
    (place : off = (write.offset - device.pos).toNat) :
    (vfioPciMsiVectorWrite device answers hdr state off write.data).map
        Prod.snd =
      if ReachesMask device hdr write then
        some
          ⟨List.range device.nrEntries ++ List.range device.nrEntries,
            List.range device.nrEntries ++ List.range device.nrEntries⟩
      else
        none := by
  subst place
  rw [vfioPciMsiVectorWrite]
  dsimp only
  split
  case isTrue plain =>
    rw [if_neg (fun reaches => reaches.1 plain)]
    rfl
  case isFalse masks =>
    split
    case isTrue beside =>
      rw [if_neg]
      · rfl
      · rintro ⟨-, below, above⟩
        omega
    case isFalse meets =>
      rw [if_pos]
      · rfl
      · exact ⟨masks, by omega⟩

/-- What a write accesses. -/
def expectedAccesses : Accesses :=
  let entries := List.range device.nrEntries
  if ReachesMask device hdr write then
    ⟨entries ++ entries, entries ++ entries⟩
  else
    match writtenCtrl device write with
    | none => ⟨[], []⟩
    | some ctrl =>
        if ctrl &&& pciMsiFlagsEnable = 0 then
          ⟨[], []⟩
        else
          ⟨List.range (requestedVectors ctrl) ++ entries, []⟩

theorem vfioPciMsiCapWrite_accesses :
    (vfioPciMsiCapWrite device answers hdr last state write).2 =
      expectedAccesses device hdr write := by
  have masks :=
    vfioPciMsiVectorWrite_accesses device answers hdr state write _ rfl
  rw [vfioPciMsiCapWrite, expectedAccesses]
  dsimp only
  split
  case h_1 done returned =>
    rw [returned] at masks
    split at masks
    case isTrue reaches =>
      rw [if_pos reaches]
      exact Option.some.inj masks
    case isFalse => cases masks
  case h_2 returned =>
    rw [returned] at masks
    split at masks
    case isTrue => cases masks
    case isFalse beside =>
      rw [if_neg beside, writtenCtrl]
      generalize (write.offset - device.pos).toNat = off
      by_cases near : off ≤ pciMsiFlags
      · rw [if_pos near]
        by_cases before : off + write.data.length ≤ pciMsiFlags
        · rw [if_pos (Or.inr before), List.getElem?_eq_none (by omega)]
        · have within : pciMsiFlags - off < write.data.length := by omega
          rw [if_neg (not_or.2 ⟨Nat.not_lt.2 near, before⟩),
            List.getD_eq_getElem _ _ within,
            List.getElem?_eq_getElem within]
          dsimp only
          generalize write.data[pciMsiFlags - off] = ctrl
          by_cases off : ctrl &&& pciMsiFlagsEnable = 0
          · rw [off]
            rfl
          · rw [if_neg off, if_neg (by simpa using off), requestedVectors,
              Nat.one_shiftLeft]
      · rw [if_neg near, if_pos (Or.inl (Nat.not_le.1 near))]

/-- A write accesses what exists exactly when it is modest. -/
theorem vfioPciMsiCapWrite_inside_iff (physical : UInt16) :
    AccessesInside (withMsi device physical)
        (vfioPciMsiCapWrite (withMsi device physical) answers hdr last state
            write).2 ↔
      Modest (withMsi device physical) hdr write := by
  rw [vfioPciMsiCapWrite_accesses, expectedAccesses, Modest]
  split
  case isTrue => exact mask_inside_iff
  case isFalse =>
    cases writtenCtrl (withMsi device physical) write with
    | none => exact iff_of_true none_inside nofun
    | some ctrl =>
        dsimp only
        split
        case isTrue off =>
          refine iff_of_true none_inside ?_
          rintro _ ⟨⟩ enables
          exact absurd off enables
        case isFalse enables =>
          rw [enable_inside_iff]
          constructor
          · rintro fits _ ⟨⟩ -
            exact fits
          · intro every
            exact every ctrl rfl enables

end Accesses

/-! ## A device with one vector -/

def oneVector : VfioDevice where
  irqHost := ⟨true, false⟩
  nrEntries := 0
  few := by decide
  pos := 0x50
  inHeader := by decide
  modeIntx := false
  devNum := 1

def allSucceed : VfioAnswers :=
  ⟨5, true, 0, 0, 0, fun _ => 0, 0, 0, 0⟩

/-- The enable bit with 32 vectors, as one byte. -/
def enableMany : CapWrite :=
  ⟨0x52, [0x51], by decide⟩

/-- The entry of the last of 32 vectors is used, and there is one entry. -/
theorem enabling_many_leaves_entries :
    vfioPciCreateMsiCap 0 = 1 ∧
      31 ∈
        (vfioPciMsiCapWrite (withMsi oneVector 0) (fun _ => allSucceed)
            (fun _ => 0) allSucceed
            (vfioStart ⟨none, 0, 0, false, false⟩ (-1)) enableMany).2.entries ∧
        ¬ AccessesInside (withMsi oneVector 0)
            (vfioPciMsiCapWrite (withMsi oneVector 0) (fun _ => allSucceed)
              (fun _ => 0) allSucceed
              (vfioStart ⟨none, 0, 0, false, false⟩ (-1)) enableMany).2 := by
  rw [vfioPciMsiCapWrite_accesses]
  have used :
      31 ∈
        (expectedAccesses (withMsi oneVector 0) (fun _ => 0)
          enableMany).entries := by
    decide
  refine ⟨by decide, used, fun inside => ?_⟩
  exact absurd (inside.entries 31 used) (by decide)

end Kemu.Vfio.Msi
