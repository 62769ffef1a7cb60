import Kemu.Init.Irq
import Kemu.Lib.Bytes
import Kemu.Lib.Transition
import Kemu.Virtio.Msix

/-!
# Message interrupts of a device that is passed through

The guest writes to the table of messages and to the control word of the
capability; VFIO knows an array of event descriptors, one for each vector,
and the host an irqfd for each vector that is connected to its route.
Whether a vector is masked is kept for the guest and for the host; whether
the capability is enabled likewise, with a flag that says that VFIO has no
descriptor yet.  The array that VFIO was given last is kept as well, so that
single descriptors can be replaced.

Beside the code stands what the guest wrote: the bytes of the table and the
upper byte of the control word.
-/

namespace Kemu.Vfio.Msix

open Kemu.Init.Irq
open Kemu.Lib.Bytes
open Kemu.Lib.Transition
open Kemu.Virtio.Msix

/-! ## State -/

/-- The bits `VFIO_PCI_MSI_STATE_*`, of the capability or of a vector. -/
structure MsiState where
  enabled : Bool
  masked : Bool
  empty : Bool
deriving DecidableEq, Repr

/-- `struct vfio_pci_msi_entry`; `config` is a `struct msix_table`. -/
structure VfioPciMsiEntry where
  config : Nat → UInt8
  gsi : Int
  eventfd : Int
  guestState : MsiState
  hostState : MsiState

/--
The device and what the host holds for it.  `eventfds` is the array behind
`irq_set`, `registered` the one VFIO uses while the capability is enabled
there, and `irqfds` are the irqfds of the vectors, by GSI and descriptor.
-/
structure VfioState where
  guestState : MsiState
  hostState : MsiState
  entries : Nat → VfioPciMsiEntry
  eventfds : Nat → Int
  intxFd : Int
  irq : IrqState
  registered : Option (Nat → Int)
  irqfds : List (Int × Int)

/-- What stays as it is: the table has at most 2048 entries. -/
structure VfioDevice where
  irqHost : IrqHost
  nrEntries : Nat
  few : nrEntries ≤ 2048
  pos : UInt16
  inHeader : pos.toNat ≤ 252
  modeIntx : Bool
  devNum : UInt32

/--
The outcomes of the calls an access makes.  A call to `eventfd` that fails
is given by `-errno`, enabling the line interrupt by its event descriptor or
an error.
-/
structure VfioAnswers where
  eventfd : Int
  realloc : Bool
  addRoute : Int
  updateRoute : Int
  irqfd : Int
  setIrqs : Nat → Int
  setIrqsAll : Int
  setIrqsNone : Int
  intx : Int

section Code

variable (device : VfioDevice) (answers : VfioAnswers)

/-! ## The line interrupt -/

/-- `vfio_pci_disable_intx`. -/
def vfioPciDisableIntx (state : VfioState) : VfioState :=
  { state with intxFd := -1 }

/-- `vfio_pci_enable_intx`. -/
def vfioPciEnableIntx (state : VfioState) : Int × VfioState :=
  if state.intxFd ≠ -1 then
    (0, state)
  else if answers.intx < 0 then
    (answers.intx, state)
  else
    (0, { state with intxFd := answers.intx })

/-! ## Registering descriptors -/

/-- The descriptor VFIO is to have for a vector. -/
def wantedFd (entry : VfioPciMsiEntry) : Int :=
  if entry.gsi ≥ 0 then entry.eventfd else -1

/-- `VFIO_DEVICE_SET_IRQS` for one vector, as VFIO handles it. -/
def setIrqsSingle (registered : Option (Nat → Int)) (i : Nat) (fd : Int) :
    Nat → Int :=
  Function.update (registered.getD fun _ => -1) i fd

/-- The loop of `vfio_pci_enable_msis` over single vectors. -/
def updateVectors : List Nat → Int → VfioState → Int × VfioState
  | [], ret, state => (ret, state)
  | i :: rest, ret, state =>
      let fd := wantedFd (state.entries i)
      if fd = state.eventfds i then
        updateVectors rest ret state
      else if answers.setIrqs i < 0 then
        (answers.setIrqs i, state)
      else
        updateVectors rest (answers.setIrqs i)
          { state with
            registered := some (setIrqsSingle state.registered i fd)
            eventfds := Function.update state.eventfds i fd
            hostState :=
              { state.hostState with
                empty := state.hostState.empty && decide (fd < 0) } }

/-- The array with the descriptors of all vectors. -/
def allEventfds (state : VfioState) : Nat → Int :=
  fun i =>
    if i < device.nrEntries then
      wantedFd (state.entries i)
    else
      state.eventfds i

/-- `vfio_pci_enable_msis`, for MSI-X. -/
def vfioPciEnableMsis (state : VfioState) : Int × VfioState :=
  if !state.guestState.enabled then
    (0, state)
  else
    let state := if device.modeIntx then vfioPciDisableIntx state else state
    if !state.hostState.enabled ||
        (!state.guestState.masked && state.hostState.empty) then
      let eventfds := allEventfds device state
      if answers.setIrqsAll < 0 then
        (answers.setIrqsAll, { state with eventfds := eventfds })
      else
        (0,
          { state with
            eventfds := eventfds
            registered := some eventfds
            hostState :=
              { state.hostState with
                enabled := true
                empty :=
                  (List.range device.nrEntries).all
                    fun i => decide (eventfds i < 0) } })
    else if state.guestState.masked then
      (0, state)
    else
      updateVectors answers (List.range device.nrEntries) 0 state

/-- `vfio_pci_disable_msis`, for MSI-X. -/
def vfioPciDisableMsis (state : VfioState) : Int × VfioState :=
  if !state.hostState.enabled then
    (0, state)
  else if answers.setIrqsNone < 0 then
    (answers.setIrqsNone, state)
  else
    let state :=
      { state with
        registered := none
        hostState :=
          { state.hostState with enabled := false, empty := true } }
    if device.modeIntx then
      let (ret, state) := vfioPciEnableIntx answers state
      (if ret ≥ 0 then 0 else ret, state)
    else
      (0, state)

/-! ## Connecting a vector -/

/-- A vector with the tables of the host that it is connected through. -/
structure MsiUpdate where
  irq : IrqState
  irqfds : List (Int × Int)
  entry : VfioPciMsiEntry

/-- The mask of the guest becomes the one of the host. -/
def updateMask (now : MsiUpdate) : Int × MsiUpdate :=
  let entry := now.entry
  let wire := (entry.gsi, entry.eventfd)
  let done : VfioPciMsiEntry :=
    { entry with
      hostState :=
        { entry.hostState with masked := entry.guestState.masked } }
  if entry.guestState.masked = entry.hostState.masked then
    (0, now)
  else if entry.hostState.masked then
    if answers.irqfd < 0 then
      (answers.irqfd, now)
    else
      (0, { now with irqfds := now.irqfds ++ [wire], entry := done })
  else
    (0,
      { now with
        irqfds := now.irqfds.filter (· ≠ wire)
        entry := done })

/-- The route of a vector is added, or updated if there is one. -/
def updateRoute (now : MsiUpdate) : Int × MsiUpdate :=
  let msg := messageAt now.entry.config 0
  if now.entry.gsi < 0 then
    let (ret, irq) :=
      irqAddMsixRoute device.irqHost answers.realloc answers.addRoute
        now.irq msg (device.devNum <<< 3)
    if ret < 0 then
      (ret, { now with irq := irq })
    else
      updateMask answers
        { now with irq := irq, entry := { now.entry with gsi := ret } }
  else
    updateMask answers
      { now with
        irq :=
          irqUpdateMsixRoute answers.updateRoute now.irq
            (.ofInt now.entry.gsi) msg }

/-- `vfio_pci_update_msi_entry`. -/
def vfioPciUpdateMsiEntry (now : MsiUpdate) : Int × MsiUpdate :=
  if now.entry.eventfd < 0 then
    if answers.eventfd < 0 then
      (answers.eventfd,
        { now with entry := { now.entry with eventfd := -1 } })
    else
      updateRoute device answers
        { now with entry := { now.entry with eventfd := answers.eventfd } }
  else
    updateRoute device answers now

/-! ## Accesses of the guest -/

/-- `PCI_MSIX_ENTRY_SIZE`. -/
def pciMsixEntrySize : Nat := 16

/-- `PCI_MSIX_ENTRY_VECTOR_CTRL`. -/
def pciMsixEntryVectorCtrl : Nat := 12

/--
A write to the table while it is at `guest_phys_addr`: the address of a BAR
in memory, without its lowest four bits.
-/
structure TableAccess where
  guestPhysAddr : UInt32
  aligned : guestPhysAddr.toNat % 16 = 0
  addr : UInt64
  data : List UInt8

/-- `vfio_pci_msix_table_access`, for a write. -/
def vfioPciMsixTableAccess (state : VfioState) (access : TableAccess) :
    VfioState :=
  let offset := (access.addr - access.guestPhysAddr.toUInt64).toNat
  let len := access.data.length
  if offset ≥ device.nrEntries * pciMsixEntrySize then
    state
  else
    let vector := offset / pciMsixEntrySize
    let field := offset % pciMsixEntrySize
    if (len ≠ 4 ∧ len ≠ 8) ∨ access.addr &&& (.ofNat len - 1) ≠ 0 then
      state
    else
      let entry := state.entries vector
      let entry := { entry with config := poke entry.config field access.data }
      if field + len ≤ pciMsixEntryVectorCtrl then
        { state with entries := Function.update state.entries vector entry }
      else
        let entry :=
          { entry with
            guestState :=
              { entry.guestState with masked := entryMasked entry.config 0 } }
        let now :=
          (vfioPciUpdateMsiEntry device answers
            ⟨state.irq, state.irqfds, entry⟩).2
        (vfioPciEnableMsis device answers
          { state with
            irq := now.irq
            irqfds := now.irqfds
            entries := Function.update state.entries vector now.entry }).2

/-- A write to the configuration space, of at most four bytes. -/
structure CapWrite where
  offset : UInt16
  data : List UInt8
  short : data.length ≤ 4

/-- The place of the byte with the enable bit in the capability. -/
def enablePos : Nat := 3

/-- `vfio_pci_msix_cap_write`. -/
def vfioPciMsixCapWrite (state : VfioState) (write : CapWrite) :
    VfioState :=
  let off := (write.offset - device.pos).toNat
  if off > enablePos ∨ off + write.data.length ≤ enablePos then
    state
  else
    let flags := (write.data.getD (enablePos - off) 0).toUInt16 <<< 8
    let enable := flags &&& pciMsixFlagsEnable != 0
    let state :=
      { state with
        guestState :=
          { state.guestState with
            masked := flags &&& pciMsixFlagsMaskall != 0
            enabled := enable } }
    if enable then
      (vfioPciEnableMsis device answers state).2
    else
      (vfioPciDisableMsis device answers state).2

end Code

/--
The device after `vfio_pci_init_msis`: all vectors are masked in the table
and on the host, but the guest's state says unmasked.
-/
def vfioStart (irq : IrqState) (intxFd : Int) : VfioState where
  guestState := ⟨false, false, false⟩
  hostState := ⟨false, false, false⟩
  entries _ :=
    { config := fun byte => if byte = pciMsixEntryVectorCtrl then 1 else 0
      gsi := -1
      eventfd := -1
      guestState := ⟨false, false, false⟩
      hostState := ⟨false, true, false⟩ }
  eventfds _ := -1
  intxFd := intxFd
  irq := irq
  registered := none
  irqfds := []

/-! ## What the guest wrote -/

/--
The bytes of the table, for which vectors the control word has been written,
and the upper byte of the control word of the capability.
-/
structure GuestView where
  table : Nat → UInt8
  controlWritten : Nat → Bool
  ctrl : UInt8

/-- The guest has message interrupts enabled. -/
def GuestView.enabled (view : GuestView) : Bool :=
  view.ctrl.toUInt16 <<< 8 &&& pciMsixFlagsEnable != 0

/-- The guest has all vectors masked. -/
def GuestView.maskall (view : GuestView) : Bool :=
  view.ctrl.toUInt16 <<< 8 &&& pciMsixFlagsMaskall != 0

/-- A write of four or eight bytes at a multiple of its length, inside. -/
structure TableAccess.Valid (device : VfioDevice) (access : TableAccess) :
    Prop where
  size : access.data.length = 4 ∨ access.data.length = 8
  natural : access.addr.toNat % access.data.length = 0
  behind : access.guestPhysAddr.toNat ≤ access.addr.toNat
  inside :
    access.addr.toNat <
      access.guestPhysAddr.toNat + device.nrEntries * pciMsixEntrySize

instance (device : VfioDevice) (access : TableAccess) :
    Decidable (access.Valid device) :=
  decidable_of_iff
    ((access.data.length = 4 ∨ access.data.length = 8) ∧
      access.addr.toNat % access.data.length = 0 ∧
      access.guestPhysAddr.toNat ≤ access.addr.toNat ∧
      access.addr.toNat <
        access.guestPhysAddr.toNat + device.nrEntries * pciMsixEntrySize)
    ⟨fun ⟨size, natural, behind, inside⟩ => ⟨size, natural, behind, inside⟩,
      fun valid => ⟨valid.size, valid.natural, valid.behind, valid.inside⟩⟩

/-- The place in the table that is written. -/
def TableAccess.place (access : TableAccess) : Nat :=
  access.addr.toNat - access.guestPhysAddr.toNat

/-- The write reaches the control word of a vector. -/
def TableAccess.reachesControl (access : TableAccess) (vector : Nat) :
    Bool :=
  decide
    (access.place ≤ 16 * vector + pciMsixEntryVectorCtrl ∧
      16 * vector + pciMsixEntryVectorCtrl <
        access.place + access.data.length)

/-- What the guest sees of a write to the table. -/
def GuestView.writeTable (device : VfioDevice) (view : GuestView)
    (access : TableAccess) : GuestView :=
  if access.Valid device then
    { view with
      table := poke view.table access.place access.data
      controlWritten := fun vector =>
        view.controlWritten vector || access.reachesControl vector }
  else
    view

/-- What the guest sees of a write to the configuration space. -/
def GuestView.writeCap (device : VfioDevice) (view : GuestView)
    (write : CapWrite) : GuestView :=
  let place := device.pos.toNat + enablePos
  if write.offset.toNat ≤ place ∧
      place < write.offset.toNat + write.data.length then
    { view with ctrl := write.data.getD (place - write.offset.toNat) 0 }
  else
    view

/-- The table and the control word before the first write. -/
def guestStart : GuestView where
  table byte := if byte % 16 = pciMsixEntryVectorCtrl then 1 else 0
  controlWritten _ := false
  ctrl := 0

/-! ## Runs -/

/-- A write of the guest. -/
inductive MsixWrite where
  | table (access : TableAccess)
  | cap (write : CapWrite)

/-- The device beside what the guest wrote. -/
structure MsixSystem where
  vfio : VfioState
  view : GuestView

/-- One write, with the outcomes of the calls it leads to. -/
def msixStep (device : VfioDevice) (system : MsixSystem)
    (input : MsixWrite × VfioAnswers) : MsixSystem :=
  if system.vfio.irq.dead then
    system
  else
    match input.1 with
    | .table access =>
        { vfio := vfioPciMsixTableAccess device input.2 system.vfio access
          view := system.view.writeTable device access }
    | .cap write =>
        { vfio := vfioPciMsixCapWrite device input.2 system.vfio write
          view := system.view.writeCap device write }

/-- The system before the first write. -/
def msixStart (irq : IrqState) (intxFd : Int) : MsixSystem where
  vfio := vfioStart irq intxFd
  view := guestStart

/--
All calls to the host succeed.  The host takes no table of routes with more
entries than an `int` can count.
-/
structure Succeeds (device : VfioDevice) (system : MsixSystem)
    (input : MsixWrite × VfioAnswers) : Prop where
  eventfd : 0 ≤ input.2.eventfd
  routing : device.irqHost.hasIrqRouting = true
  realloc : input.2.realloc = true
  countable :
    system.vfio.irq.allocatedGsis ≤ nrEntries system.vfio.irq →
      nrEntries system.vfio.irq + 32 < 2 ^ 31
  addRoute : input.2.addRoute = 0
  updateRoute : input.2.updateRoute = 0
  irqfd : 0 ≤ input.2.irqfd
  setIrqs : ∀ i, 0 ≤ input.2.setIrqs i
  setIrqsAll : 0 ≤ input.2.setIrqsAll
  setIrqsNone : 0 ≤ input.2.setIrqsNone
  intx : 0 ≤ input.2.intx

/--
A vector whose control word was written has an irqfd exactly when it is not
masked in the table; and while the guest has the capability enabled and the
function unmasked, VFIO has the event descriptor of every vector with a GSI,
and none of the others.
-/
structure MsixCoherent (device : VfioDevice) (system : MsixSystem) :
    Prop where
  connected :
    ∀ vector < device.nrEntries,
      system.view.controlWritten vector = true →
        ((((system.vfio.entries vector).gsi,
            (system.vfio.entries vector).eventfd) ∈ system.vfio.irqfds) ↔
          entryMasked system.view.table vector = false)
  registered :
    system.view.enabled = true → system.view.maskall = false →
      ∃ eventfds, system.vfio.registered = some eventfds ∧
        ∀ vector < device.nrEntries,
          eventfds vector =
            if (system.vfio.entries vector).gsi ≥ 0 then
              (system.vfio.entries vector).eventfd
            else
              -1

end Kemu.Vfio.Msix
