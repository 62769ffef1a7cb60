import Kemu.Init.Irq
import Kemu.Lib.Bytes
import Kemu.Virtio.Transport

/-!
# Message interrupts of the devices on the PCI bus

A device has a table of messages and a bit for each that is pending, both in
memory that the guest reaches through a BAR.  A vector is an index into the
table.  The guest assigns one to the configuration and to every queue; each
assignment adds a route to the host's table, which all devices share, and a
write to the table of messages updates the route of the vector.
-/

namespace Kemu.Virtio.Msix

open Kemu.Init.Irq
open Kemu.Lib.Bytes
open Kemu.Virtio.Core
open Kemu.Virtio.Ring
open Kemu.Virtio.Transport

/-! ## Vectors and messages -/

/-- `VIRTIO_NR_MSIX`. -/
def virtioNrMsix : Nat := virtioMaxVq + 1

/-- `VIRTIO_MSIX_TABLE_SIZE`. -/
def virtioMsixTableSize : Nat := virtioNrMsix * 16

/-- What a vector is assigned to. -/
inductive VectorUser where
  | config
  | queue (vq : Nat)
deriving DecidableEq, Repr

/-- The assigned vector. -/
def vectorOf (vpci : VirtioPci) : VectorUser → UInt16
  | .config => vpci.configVector
  | .queue vq => vpci.vqVector vq

/-- The GSI of the route. -/
def gsiOf (vpci : VirtioPci) : VectorUser → UInt32
  | .config => vpci.configGsi
  | .queue vq => vpci.gsis vq

/-- A little-endian word in the table. -/
def tableWord (msixTable : Nat → UInt8) (offset : Nat) : UInt32 :=
  .ofNat (ofLe (peek msixTable offset 4))

/-- `msix_table[vec].msg`. -/
def messageAt (msixTable : Nat → UInt8) (vec : Nat) : MsiMsg where
  addressLo := tableWord msixTable (16 * vec)
  addressHi := tableWord msixTable (16 * vec + 4)
  data := tableWord msixTable (16 * vec + 8)

/-- `msix_table[vec].ctrl & PCI_MSIX_ENTRY_CTRL_MASKBIT`. -/
def entryMasked (msixTable : Nat → UInt8) (vec : Nat) : Bool :=
  tableWord msixTable (16 * vec + 12) &&& 1 != 0

/-- `PCI_MSIX_FLAGS_ENABLE`. -/
def pciMsixFlagsEnable : UInt16 := 0x8000

/-- `PCI_MSIX_FLAGS_MASKALL`. -/
def pciMsixFlagsMaskall : UInt16 := 0x4000

/--
`struct virtio_pci` with the fields for message interrupts: the control word
of the capability, the bytes from the start of the table on, and the pending
bits.
-/
structure MsixDevice where
  device : PciDevice
  ctrl : UInt16
  msixTable : Nat → UInt8
  msixPba : UInt64
  isr : UInt8

/-! ## Which routes a register write changes -/

/-- What becomes of the vectors and their routes. -/
inductive RouteChange where
  | keep
  | assign (user : VectorUser) (vec : UInt16)
  | exit (vq : Nat)
  | reset
deriving DecidableEq, Repr

/-- `virtio_pci__common_write`. -/
def commonWriteChange (device : PciDevice) (write : RegisterWrite) :
    RouteChange :=
  let sel := device.virtio.queueSelector.toNat
  match write.offset with
  | virtioPciCommonMsix => .assign .config write.read16
  | virtioPciCommonStatus =>
      if write.read8 = 0 ∧ Started device then .reset else .keep
  | virtioPciCommonQMsix => .assign (.queue sel) write.read16
  | virtioPciCommonQEnable =>
      if write.read16 ≠ 0 then .keep else .exit sel
  | _ => .keep

/-- `virtio_pci__specific_data_out`. -/
def specificDataOutChange (device : PciDevice) (write : RegisterWrite) :
    RouteChange :=
  match virtioGetDevSpecificField
      (write.offset - 20) device.virtio.msixEnabled with
  | .config => .keep
  | .msix =>
      match write.offset with
      | virtioMsiConfigVector => .assign .config write.read16
      | virtioMsiQueueVector =>
          .assign (.queue device.virtio.queueSelector.toNat) write.read16
      | _ => .keep

/-- `virtio_pci__data_out`. -/
def dataOutChange (device : PciDevice) (write : RegisterWrite) :
    RouteChange :=
  match write.offset with
  | virtioPciQueuePfn =>
      if write.data ≠ 0 then
        .keep
      else
        .exit device.virtio.queueSelector.toNat
  | virtioPciStatus =>
      if write.read8 = 0 ∧ Started device then .reset else .keep
  | _ => specificDataOutChange device write

/-- The registers of the device's layout. -/
def routeChange (device : PciDevice) (write : RegisterWrite) :
    RouteChange :=
  if device.legacy then
    dataOutChange device write
  else
    commonWriteChange device write

/-- `virtio_pci__bar_activate` chooses the callback by the layout. -/
def registerCallback (ops : VirtioOps) (device : PciDevice)
    (write : RegisterWrite) : PciDevice :=
  if device.legacy then
    virtioPciDataOut ops device write
  else
    virtioPciCommonWrite ops device write

/-! ## The devices and the routing table -/

/--
What stays as it is: the host, and the devices with their numbers on the
bus.  `signalMsi` says that messages can be sent without a route.
-/
structure PciHost where
  irq : IrqHost
  signalMsi : Bool
  count : Nat
  ops : Fin count → VirtioOps
  devNum : Fin count → UInt32

/-- The routing table and the devices. -/
structure MsixState (host : PciHost) where
  irq : IrqState
  devices : Fin host.count → MsixDevice

/--
The outcomes of the calls an access makes: `realloc`, the update of the
host's table for a new route, and the one for the route of a GSI.
-/
structure IrqAnswers where
  realloc : Bool
  added : Bool
  updated : UInt32 → Bool

/-- `ioctl` returns zero, or minus one for an error. -/
def ioctlResult (granted : Bool) : Int :=
  if granted then 0 else -1

section Host

variable {host : PciHost}

/-- A state with one of the devices replaced. -/
def MsixState.put (state : MsixState host) (dev : Fin host.count)
    (this : MsixDevice) : MsixState host :=
  { state with devices := Function.update state.devices dev this }

/-- `virtio_pci__add_msix_route`; `die` ends the process. -/
def virtioPciAddRoute (irq : IrqState) (dev : Fin host.count)
    (this : MsixDevice) (vec : UInt16) (answers : IrqAnswers) :
    Int × IrqState :=
  if vec = virtioMsiNoVector then
    (-22, irq)
  else
    let (gsi, irq) :=
      irqAddMsixRoute host.irq answers.realloc (ioctlResult answers.added)
        irq (messageAt this.msixTable vec.toNat) (host.devNum dev <<< 3)
    if gsi = -eNxio ∧ host.signalMsi then
      (gsi, irq)
    else if gsi < 0 then
      (gsi, { irq with dead := true })
    else
      (gsi, irq)

/-- `virtio_pci__del_msix_route`: the message of the GSI becomes zero. -/
def virtioPciDelMsixRoute (answers : IrqAnswers) (irq : IrqState)
    (gsi : UInt32) : IrqState :=
  if irq.dead then
    irq
  else
    irqUpdateMsixRoute (ioctlResult (answers.updated gsi)) irq gsi ⟨0, 0, 0⟩

/-- The GSIs whose routes are taken away by a reset, in this order. -/
def resetGsis (ops : VirtioOps) (vpci : VirtioPci) : List UInt32 :=
  vpci.configGsi :: (List.range ops.vqCount).map vpci.gsis

/-- A write to a register, with what it does to the routes. -/
def registerWrite (state : MsixState host) (dev : Fin host.count)
    (write : RegisterWrite) (answers : IrqAnswers) : MsixState host :=
  let this := state.devices dev
  let vpci := this.device.virtio
  let written (route : Option UInt32) : MsixDevice :=
    { this with
      device :=
        registerCallback (host.ops dev) this.device
          { write with route := route } }
  match routeChange this.device write with
  | .keep => state.put dev (written none)
  | .assign _ vec =>
      let (gsi, irq) := virtioPciAddRoute state.irq dev this vec answers
      { state with irq := irq }.put dev
        (written (if gsi < 0 then none else some (.ofInt gsi)))
  | .exit vq =>
      { state with
        irq := virtioPciDelMsixRoute answers state.irq (vpci.gsis vq) }.put
          dev (written none)
  | .reset =>
      { state with
        irq :=
          (resetGsis (host.ops dev) vpci).foldl
            (virtioPciDelMsixRoute answers) state.irq }.put
          dev (written none)

/-- What `update_msix_map` finds for a vector. -/
def firstUser (vpci : VirtioPci) (vecnum : Nat) : Option VectorUser :=
  if vecnum = vpci.configVector.toNat then
    some .config
  else
    ((List.range virtioMaxVq).find? fun vq =>
      (vpci.vqVector vq).toNat = vecnum).map .queue

/-- `update_msix_map`. -/
def updateMsixMap (irq : IrqState) (vpci : VirtioPci)
    (msixTable : Nat → UInt8) (vecnum : Nat) (answers : IrqAnswers) :
    IrqState :=
  match firstUser vpci vecnum with
  | none => irq
  | some user =>
      if gsiOf vpci user = 0 then
        irq
      else
        irqUpdateMsixRoute
          (ioctlResult (answers.updated (gsiOf vpci user))) irq
          (gsiOf vpci user) (messageAt msixTable vecnum)

/--
Bytes for the table, within the table: nothing else stops a write that begins
inside and ends behind it, in `queue_selector`, and such a one is left out.
-/
structure TableWrite where
  offset : Nat
  data : List UInt8
  inside : offset + data.length ≤ virtioMsixTableSize

/-- The vector whose entry the write starts in. -/
def TableWrite.vecnum (write : TableWrite) : Nat :=
  write.offset / 16

/-- The write starts in the message of the entry. -/
def TableWrite.InMessage (write : TableWrite) : Prop :=
  write.offset % 16 < 12

instance (write : TableWrite) : Decidable write.InMessage :=
  inferInstanceAs (Decidable (_ < _))

/-- The table with the bytes of the write. -/
def TableWrite.apply (write : TableWrite) (msixTable : Nat → UInt8) :
    Nat → UInt8 :=
  poke msixTable write.offset write.data

/-- `virtio_pci__msix_mmio_callback`, for a write to the table. -/
def tableWrite (state : MsixState host) (dev : Fin host.count)
    (write : TableWrite) (answers : IrqAnswers) : MsixState host :=
  let this := state.devices dev
  let table := write.apply this.msixTable
  { state with
    irq :=
      if write.InMessage then
        updateMsixMap state.irq this.device.virtio table write.vecnum
          answers
      else
        state.irq }.put dev { this with msixTable := table }

/-- A write to the control word in the configuration space. -/
def MsixDevice.setCtrl (this : MsixDevice) (ctrl : UInt16) : MsixDevice :=
  { this with
    ctrl := ctrl
    device :=
      this.device.modify fun vpci =>
        { vpci with msixEnabled := ctrl &&& pciMsixFlagsEnable != 0 } }

/-! ## Signals -/

/-- What a signal leads to. -/
inductive Signal where
  | pending
  | msi (msg : MsiMsg)
  | gsi (gsi : UInt32)
  | line
deriving DecidableEq, Repr

/--
`1 << tbl` as it is added to the pending bits: a shift of an `int`, by the
lower five bits of the count, widened with its sign.
-/
def pbaBit (tbl : Nat) : UInt64 :=
  ((1 : UInt32) <<< .ofNat (tbl % 32)).toInt32.toInt64.toUInt64

/-- A signal for the user of a vector, or on the line of the device. -/
def virtioPciSignal (signalMsi : Bool) (this : MsixDevice)
    (user : VectorUser) (isrBit : UInt8) : Signal × MsixDevice :=
  let vpci := this.device.virtio
  let tbl := vectorOf vpci user
  if vpci.msixEnabled ∧ tbl ≠ virtioMsiNoVector then
    if this.ctrl &&& pciMsixFlagsMaskall ≠ 0 ∨
        entryMasked this.msixTable tbl.toNat then
      (.pending,
        { this with msixPba := this.msixPba ||| pbaBit tbl.toNat })
    else if signalMsi then
      (.msi (messageAt this.msixTable tbl.toNat), this)
    else
      (.gsi (gsiOf vpci user), this)
  else
    (.line, { this with isr := this.isr ||| isrBit })

/-- `virtio_pci__signal_vq`. -/
def virtioPciSignalVq (signalMsi : Bool) (this : MsixDevice) (vq : Nat) :
    Signal × MsixDevice :=
  virtioPciSignal signalMsi this (.queue vq) 1

/-- `virtio_pci__signal_config`. -/
def virtioPciSignalConfig (signalMsi : Bool) (this : MsixDevice) :
    Signal × MsixDevice :=
  virtioPciSignal signalMsi this .config 2

/-! ## Runs -/

/-- What happens to a device. -/
inductive MsixEvent where
  | register (write : RegisterWrite) (answers : IrqAnswers)
  | table (write : TableWrite) (answers : IrqAnswers)
  | control (ctrl : UInt16)
  | signalVq (vq : Nat)
  | signalConfig

/-- One event, unless the process has ended. -/
def msixStep (state : MsixState host) :
    Fin host.count × MsixEvent → MsixState host
  | (dev, event) =>
      if state.irq.dead then
        state
      else
        match event with
        | .register write answers => registerWrite state dev write answers
        | .table write answers => tableWrite state dev write answers
        | .control ctrl => state.put dev ((state.devices dev).setCtrl ctrl)
        | .signalVq vq =>
            state.put dev
              (virtioPciSignalVq host.signalMsi (state.devices dev) vq).2
        | .signalConfig =>
            state.put dev
              (virtioPciSignalConfig host.signalMsi (state.devices dev)).2

/-- `virtio_pci__init`, on memory that `calloc` returned. -/
def msixDeviceInit (legacy : Bool) (beyond : Nat → UInt8) : MsixDevice where
  device :=
    { legacy := legacy
      endian := if legacy then 0 else 1
      features := 0
      status := 0
      queues := fun _ => zeroQueue
      strayed := false
      virtio := virtioPciInit }
  ctrl := .ofNat (virtioNrMsix - 1)
  msixTable :=
    fun offset => if offset < virtioMsixTableSize then 0 else beyond offset
  msixPba := 0
  isr := 0

/-- The devices as they are registered, over the table of the chips. -/
structure MsixStart (state : MsixState host) : Prop where
  irq : ∃ realloc ioctl, irqInit realloc ioctl = some state.irq
  devices :
    ∀ dev, ∃ legacy beyond, state.devices dev = msixDeviceInit legacy beyond

end Host

end Kemu.Virtio.Msix
