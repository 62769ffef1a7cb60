import Kemu.Init.PciMechanism
import Kemu.Init.Traps

/-!
# BARs of virtio devices

A virtio device on the PCI bus has an I/O BAR and two memory BARs, and
emulating a BAR is having a trap at its region.  The system is started by
registering devices, and then the guest writes to their configuration
spaces; other code registers traps of its own.
-/

namespace Kemu.Virtio.PciBar

open Kemu.Init.Mmio
open Kemu.Init.Pci
open Kemu.Lib.SearchTree
open Kemu.Util.RbtreeInterval

/-! ## The code -/

/-- `VIRTIO_MSIX_TABLE_SIZE`. -/
def virtioMsixTableSize : Nat := (32 + 1) * 16

/-- `VIRTIO_MSIX_PBA_SIZE`, with the `ALIGN_UP` that rounds up twice. -/
def virtioMsixPbaSize : Nat := (virtioMsixTableSize + 63 + 63) / 64 * 64 / 8

/-- `VIRTIO_MSIX_BAR_SIZE`. -/
def virtioMsixBarSize : UInt32 :=
  .ofNat (2 ^ (Nat.log2 (virtioMsixTableSize + virtioMsixPbaSize) + 1))

/-- `-EINVAL`. -/
def eInval : Int := -22

/-- `-ENOENT`. -/
def eNoEnt : Int := -2

/--
The address of `virtio_pci_legacy__io_mmio_callback` or of
`virtio_pci_modern__io_mmio_callback`.
-/
def ioMmioCallback (legacy : Bool) : Nat :=
  if legacy then 0 else 1

/-- The address of `virtio_pci__msix_mmio_callback`. -/
def msixMmioCallback : Nat := 2

/--
What the devices act on: the traps, the answers of `malloc` (to the request
with the number `asked` and to later ones), whether a `struct virtio_device`
is a legacy one, the number of these, the first addresses that are not
taken, and whether an assertion failed.
-/
structure BarWorld (vcpus : Vcpus) where
  traps : TrapState vcpus
  mallocs : Nat → Bool
  asked : Nat
  legacy : Nat → Bool
  vdevs : Nat
  mmioBlocks : UInt32
  ioPortBlocks : UInt16
  aborted : Bool

section Code

variable (lib : Rebalancer RbIntNode) {vcpus : Vcpus}

/-- `kvm_register_iotrap`, without coalescing. -/
def registerIotrap (world : BarWorld vcpus) (bus : Bus)
    (physAddr physAddrLen : UInt64) (mmioFn ptr : Nat) :
    Int × BarWorld vcpus :=
  let (r, traps) :=
    kvmRegisterIotrap lib world.traps physAddr physAddrLen mmioFn ptr
      bus.flags (world.mallocs world.asked) 0
  (r, { world with traps := traps, asked := world.asked + 1 })

/-- `kvm_deregister_iotrap`. -/
def deregisterIotrap (world : BarWorld vcpus) (bus : Bus)
    (physAddr : UInt64) : Bool × BarWorld vcpus :=
  let (success, traps) :=
    kvmDeregisterIotrap lib world.traps physAddr bus.flags
  (success, { world with traps := traps })

/-- `kvm_register_pio`, whose parameters are 16-bit numbers. -/
def kvmRegisterPio (world : BarWorld vcpus) (port len : UInt16)
    (mmioFn ptr : Nat) : Int × BarWorld vcpus :=
  registerIotrap lib world .pio port.toUInt64 len.toUInt64 mmioFn ptr

/-- `kvm_register_mmio`. -/
def kvmRegisterMmio (world : BarWorld vcpus)
    (physAddr physAddrLen : UInt64) (mmioFn ptr : Nat) :
    Int × BarWorld vcpus :=
  registerIotrap lib world .mmio physAddr physAddrLen mmioFn ptr

/-- `kvm_deregister_pio`. -/
def kvmDeregisterPio (world : BarWorld vcpus) (port : UInt16) :
    Bool × BarWorld vcpus :=
  deregisterIotrap lib world .pio port.toUInt64

/-- `kvm_deregister_mmio`. -/
def kvmDeregisterMmio (world : BarWorld vcpus) (physAddr : UInt64) :
    Bool × BarWorld vcpus :=
  deregisterIotrap lib world .mmio physAddr

/-- `virtio_pci__bar_activate`. -/
def virtioPciBarActivate (world : BarWorld vcpus) (hdr : PciHeader)
    (barNum vdev : Nat) : Int × BarWorld vcpus :=
  let mmioFn := ioMmioCallback (world.legacy vdev)
  let barAddr := barAddress (hdr.bar barNum)
  let barSize := hdr.barSize barNum
  match barNum with
  | 0 =>
      kvmRegisterPio lib world barAddr.toUInt16 barSize.toUInt16 mmioFn vdev
  | 1 =>
      kvmRegisterMmio lib world barAddr.toUInt64 barSize.toUInt64 mmioFn
        vdev
  | 2 =>
      kvmRegisterMmio lib world barAddr.toUInt64 barSize.toUInt64
        msixMmioCallback vdev
  | _ => (eInval, { world with aborted := true })

/-- `virtio_pci__bar_deactivate`: the result for the ports is a `bool`. -/
def virtioPciBarDeactivate (world : BarWorld vcpus) (hdr : PciHeader)
    (barNum _vdev : Nat) : Int × BarWorld vcpus :=
  let barAddr := barAddress (hdr.bar barNum)
  match barNum with
  | 0 =>
      let (success, world) := kvmDeregisterPio lib world barAddr.toUInt16
      (if success then 1 else 0, world)
  | 1 | 2 =>
      let (success, world) := kvmDeregisterMmio lib world barAddr.toUInt64
      (if success then 0 else eNoEnt, world)
  | _ => (eInval, { world with aborted := true })

/-- The `bar_size` of a virtio device. -/
def virtioBarSize : Nat → UInt32
  | 0 => pciIoSize
  | 1 => pciIoSize
  | 2 => virtioMsixBarSize
  | _ => 0

/--
The header that `virtio_pci__init` sets up.  `config` has the members that
are about neither decoding nor BARs.
-/
def virtioHeader (config : Nat → UInt8) (portAddr : UInt16)
    (mmioAddr msixIoBlock : UInt32) : PciHeader :=
  let hdr : PciHeader :=
    { config := config, barSize := virtioBarSize,
      barActive := fun _ => false }
  let hdr := hdr.setCommand (pciCommandIo ||| pciCommandMemory)
  let hdr := hdr.setBar 0 (portAddr.toUInt32 ||| pciBaseAddressSpaceIo)
  let hdr := hdr.setBar 1 mmioAddr
  let hdr := hdr.setBar 2 msixIoBlock
  ((hdr.setBar 3 0).setBar 4 0).setBar 5 0

/-- The loop of `pci__register_bar_regions`. -/
def registerLoop (devNum : Nat) :
    List Nat → PciState (BarWorld vcpus) →
      Int × PciState (BarWorld vcpus)
  | [], state => (0, state)
  | barNum :: rest, state =>
      match state.devices devNum with
      | none => (0, state)
      | some device =>
          if device.hdr.barIsImplemented barNum &&
              device.hdr.spaceEnabled barNum then
            let (r, state) := pciActivateBar state devNum barNum
            if r < 0 then (r, state) else registerLoop devNum rest state
          else
            registerLoop devNum rest state

/-- The header and the addresses of a new device. -/
def addDevice (state : PciState (BarWorld vcpus)) (legacy : Bool)
    (config : Nat → UInt8) : PciState (BarWorld vcpus) :=
  let vdev := state.world.vdevs
  let (portAddr, ioPortBlocks) :=
    pciGetIoPortBlock state.world.ioPortBlocks pciIoSize
  let (mmioAddr, mmioBlocks) :=
    pciGetMmioBlock state.world.mmioBlocks pciIoSize
  let (msixIoBlock, mmioBlocks) := pciGetMmioBlock mmioBlocks virtioMsixBarSize
  let world :=
    { state.world with
      vdevs := vdev + 1
      legacy := Function.update state.world.legacy vdev legacy
      ioPortBlocks
      mmioBlocks }
  let device : PciDevice (BarWorld vcpus) :=
    { hdr := virtioHeader config portAddr mmioAddr msixIoBlock
      barActivate := virtioPciBarActivate lib
      barDeactivate := virtioPciBarDeactivate lib
      data := vdev }
  { state with
    devices := Function.update state.devices state.devNum (some device)
    devNum := state.devNum + 1
    world := world }

/--
`virtio_pci__init`.  The device has its number from the start, when nothing
looks for it, and gives it up if a BAR cannot be activated.
-/
def virtioPciInit (state : PciState (BarWorld vcpus)) (legacy : Bool)
    (config : Nat → UInt8) : PciState (BarWorld vcpus) :=
  let (r, after) :=
    registerLoop state.devNum (List.range 6)
      (addDevice lib state legacy config)
  if r < 0 then
    { after with
      devices := Function.update after.devices state.devNum none
      devNum := state.devNum }
  else
    after

/--
A device is registered, other code registers a trap, or the guest accesses
the configuration ports or the window.
-/
inductive PciAction where
  | init (legacy : Bool) (config : Nat → UInt8)
  | trap (bus : Bus) (physAddr physAddrLen : UInt64)
      (proper : physAddr < physAddr + physAddrLen) (callback ptr : Nat)
  | addressPort (addr : UInt64) (access : Access)
  | dataPort (addr : UInt64) (access : Access)
  | window (addr : UInt64) (access : Access)

/-- One action.  Handlers of other code are not those of virtio devices. -/
def pciStep (arch : PciArch) (state : PciState (BarWorld vcpus)) :
    PciAction → PciState (BarWorld vcpus)
  | .init legacy config => virtioPciInit lib state legacy config
  | .trap bus physAddr physAddrLen _ callback ptr =>
      { state with
        world :=
          (registerIotrap lib state.world bus physAddr physAddrLen
            (callback + 3) ptr).2 }
  | .addressPort addr access => (pciConfigAddressMmio state addr access).2
  | .dataPort addr access => (pciConfigDataMmio arch state addr access).2
  | .window addr access => (pciConfigMmioAccess arch state addr access).2

/--
Nothing is registered, `malloc` will give some answers, and addresses are
given out from `KVM_PCI_MMIO_AREA` and `PCI_IOPORT_START` on.
-/
def pciStart (mmioArea : UInt32) (mallocs : Nat → Bool) :
    PciState (BarWorld vcpus) where
  configAddressBits := 0
  devices _ := none
  devNum := 0
  world :=
    { traps := .initial
      mallocs := mallocs
      asked := 0
      legacy := fun _ => false
      vdevs := 0
      mmioBlocks := mmioArea
      ioPortBlocks := 0x6200
      aborted := false }

end Code

/-! ## The trap of a BAR -/

/-- The bus of a BAR of a virtio device. -/
def barBus (barNum : Nat) : Bus :=
  if barNum = 0 then .pio else .mmio

/-- The callback of a BAR of a virtio device. -/
def barCallback (legacy : Bool) (barNum : Nat) : Nat :=
  if barNum = 2 then msixMmioCallback else ioMmioCallback legacy

/-- Where the trap of a BAR is looked for: a port has 16 bits. -/
def trapLow (hdr : PciHeader) (barNum : Nat) : UInt64 :=
  if barNum = 0 then
    (barAddress (hdr.bar barNum)).toUInt16.toUInt64
  else
    (barAddress (hdr.bar barNum)).toUInt64

section Specs

variable (lib : Rebalancer RbIntNode) {vcpus : Vcpus}

/-- The trap that the activation of a BAR registers. -/
def barTrap (world : BarWorld vcpus) (hdr : PciHeader)
    (barNum vdev : Nat) : Trap where
  bus := barBus barNum
  low := trapLow hdr barNum
  high := trapLow hdr barNum + (hdr.barSize barNum).toUInt64
  mmioFn := barCallback (world.legacy vdev) barNum
  ptr := vdev

theorem registerIotrap_eq (world : BarWorld vcpus) (bus : Bus)
    (physAddr physAddrLen : UInt64) (mmioFn ptr : Nat) :
    registerIotrap lib world bus physAddr physAddrLen mmioFn ptr =
      ((kvmRegisterIotrap lib world.traps physAddr physAddrLen mmioFn ptr
          bus.flags (world.mallocs world.asked) 0).1,
        { world with
          traps :=
            (kvmRegisterIotrap lib world.traps physAddr physAddrLen mmioFn
              ptr bus.flags (world.mallocs world.asked) 0).2
          asked := world.asked + 1 }) :=
  rfl

theorem virtioBarSize_narrow :
    (virtioBarSize 0).toUInt16.toUInt64 = (virtioBarSize 0).toUInt64 := by
  decide

theorem barActivate_eq (world : BarWorld vcpus) {hdr : PciHeader}
    (sizes : hdr.barSize = virtioBarSize) {barNum : Nat} (bar : barNum < 3)
    (vdev : Nat) :
    virtioPciBarActivate lib world hdr barNum vdev =
      registerIotrap lib world (barBus barNum) (trapLow hdr barNum)
        (hdr.barSize barNum).toUInt64
        (barCallback (world.legacy vdev) barNum) vdev := by
  rw [sizes]
  match barNum, bar with
  | 0, _ =>
      rw [← virtioBarSize_narrow, ← sizes]
      rfl
  | 1, _ =>
      rw [← sizes]
      rfl
  | 2, _ =>
      rw [← sizes]
      rfl

/-- The result of the deactivation of a BAR. -/
def deactivated (barNum : Nat) (success : Bool) : Int :=
  if barNum = 0 then
    if success then 1 else 0
  else
    if success then 0 else eNoEnt

theorem barDeactivate_eq (world : BarWorld vcpus) (hdr : PciHeader)
    {barNum : Nat} (bar : barNum < 3) (vdev : Nat) :
    virtioPciBarDeactivate lib world hdr barNum vdev =
      (deactivated barNum
          (deregisterIotrap lib world (barBus barNum)
            (trapLow hdr barNum)).1,
        (deregisterIotrap lib world (barBus barNum)
          (trapLow hdr barNum)).2) := by
  match barNum, bar with
  | 0, _ => rfl
  | 1, _ => rfl
  | 2, _ => rfl

/-- The region of a trap is not empty. -/
theorem trapLow_lt (hdr : PciHeader) (sizes : hdr.barSize = virtioBarSize)
    {barNum : Nat} (bar : barNum < 3) :
    trapLow hdr barNum <
      trapLow hdr barNum + (hdr.barSize barNum).toUInt64 := by
  have low : (trapLow hdr barNum).toNat < 2 ^ 32 := by
    rw [trapLow]
    split
    · have bound := (barAddress (hdr.bar barNum)).toUInt16.toNat_lt
      rw [UInt16.toNat_toUInt64]
      omega
    · exact (barAddress (hdr.bar barNum)).toNat_lt
  have size :
      0 < (hdr.barSize barNum).toUInt64.toNat ∧
        (hdr.barSize barNum).toUInt64.toNat < 2 ^ 32 := by
    rw [sizes]
    match barNum, bar with
    | 0, _ => decide
    | 1, _ => decide
    | 2, _ => decide
  rw [UInt64.lt_iff_toNat_lt, UInt64.toNat_add]
  omega

/-! ## Devices -/

/--
A virtio device: its functions, the sizes and types of its BARs, and that no
BAR without a region is active.
-/
structure IsVirtio (device : PciDevice (BarWorld vcpus)) : Prop where
  activates : device.barActivate = virtioPciBarActivate lib
  deactivates : device.barDeactivate = virtioPciBarDeactivate lib
  sizes : device.hdr.barSize = virtioBarSize
  ioBar : device.hdr.bar 0 &&& 0x3 = 0x1
  memoryBars :
    ∀ barNum, 0 < barNum → barNum < 6 → device.hdr.bar barNum &&& 0xf = 0
  inactive : ∀ barNum, 3 ≤ barNum → device.hdr.barActive barNum = false

/--
All devices are virtio devices with their own `struct virtio_device`, and no
handler runs.
-/
structure Wired (state : PciState (BarWorld vcpus)) : Prop where
  calm : Calm state.world.traps
  virtio :
    ∀ {devNum device}, state.devices devNum = some device →
      IsVirtio lib device
  numbered :
    ∀ {devNum device}, state.devices devNum = some device →
      devNum < state.devNum ∧ device.data < state.world.vdevs
  apart :
    ∀ {devNum other device second}, state.devices devNum = some device →
      state.devices other = some second → device.data = second.data →
      devNum = other

/-- Other traps, and the number of the next answer of `malloc`. -/
def withTraps (state : PciState (BarWorld vcpus)) (traps : TrapState vcpus)
    (asked : Nat) : PciState (BarWorld vcpus) :=
  { state with
    world := { state.world with traps := traps, asked := asked } }

/-- What `pci_activate_bar` does. -/
inductive Activation (state : PciState (BarWorld vcpus)) (devNum : Nat)
    (device : PciDevice (BarWorld vcpus)) (barNum : Nat) :
    Int × PciState (BarWorld vcpus) → Prop where
  | already (active : device.hdr.barActive barNum = true) :
      Activation state devNum device barNum (0, state)
  | registered {traps : TrapState vcpus}
      (inactive : device.hdr.barActive barNum = false)
      (calm : Calm traps)
      (granted : state.world.mallocs state.world.asked = true)
      (free :
        state.world.traps.Free
          (barTrap state.world device.hdr barNum device.data))
      (added :
        traps.traps =
          insert (barTrap state.world device.hdr barNum device.data)
            state.world.traps.traps) :
      Activation state devNum device barNum
        (0, (withTraps state traps (state.world.asked + 1)).modify devNum
          fun hdr => hdr.setActive barNum true)
  | refused {traps : TrapState vcpus} {r : Int} (negative : r < 0)
      (inactive : device.hdr.barActive barNum = false)
      (calm : Calm traps)
      (refusal :
        ¬ (state.world.mallocs state.world.asked = true ∧
          state.world.traps.Free
            (barTrap state.world device.hdr barNum device.data)))
      (kept : traps.traps = state.world.traps.traps) :
      Activation state devNum device barNum
        (r, withTraps state traps (state.world.asked + 1))

/-- What `pci_deactivate_bar` does. -/
inductive Deactivation (state : PciState (BarWorld vcpus)) (devNum : Nat)
    (device : PciDevice (BarWorld vcpus)) (barNum : Nat) :
    Int × PciState (BarWorld vcpus) → Prop where
  | already (inactive : device.hdr.barActive barNum = false) :
      Deactivation state devNum device barNum (0, state)
  | removed {traps : TrapState vcpus} {trap : Trap} {r : Int}
      (success : 0 ≤ r)
      (active : device.hdr.barActive barNum = true)
      (calm : Calm traps)
      (member : trap ∈ state.world.traps.traps)
      (covers : trap.Covers (barBus barNum) (trapLow device.hdr barNum))
      (rest : traps.traps = state.world.traps.traps \ {trap}) :
      Deactivation state devNum device barNum
        (r, (withTraps state traps state.world.asked).modify devNum
          fun hdr => hdr.setActive barNum false)
  | missed (ports : barNum = 0)
      (active : device.hdr.barActive barNum = true)
      (missing : ∀ trap ∈ state.world.traps.traps,
        ¬ trap.Covers (barBus barNum) (trapLow device.hdr barNum)) :
      Deactivation state devNum device barNum
        (0, state.modify devNum fun hdr => hdr.setActive barNum false)
  | failed (memory : barNum ≠ 0)
      (active : device.hdr.barActive barNum = true)
      (missing : ∀ trap ∈ state.world.traps.traps,
        ¬ trap.Covers (barBus barNum) (trapLow device.hdr barNum)) :
      Deactivation state devNum device barNum (eNoEnt, state)

variable {lib}

section Present

variable {state : PciState (BarWorld vcpus)} (wired : Wired lib state)
  {devNum : Nat} {device : PciDevice (BarWorld vcpus)}
  (found : state.devices devNum = some device) {barNum : Nat}
  (bar : barNum < 3)

include wired found bar

theorem activation :
    Activation state devNum device barNum
      (pciActivateBar state devNum barNum) := by
  have virtio := wired.virtio found
  cases active : device.hdr.barActive barNum with
  | true =>
      have run : pciActivateBar state devNum barNum = (0, state) := by
        simp only [pciActivateBar, found, active, if_true]
      rw [run]
      exact .already active
  | false =>
      have call := barActivate_eq lib state.world virtio.sizes bar
        device.data
      rw [← virtio.activates, registerIotrap_eq] at call
      rw [pciActivateBar_of_inactive found active call]
      have proper := trapLow_lt device.hdr virtio.sizes bar
      obtain ⟨calm, added | kept⟩ :=
        wired.calm.register lib (barBus barNum) proper
          (barCallback (state.world.legacy device.data) barNum) device.data
          (state.world.mallocs state.world.asked) 0
      · obtain ⟨granted, free, success, traps⟩ := added
        rw [success, if_neg (by decide)]
        exact .registered active calm granted free traps
      · obtain ⟨refusal, failure, traps⟩ := kept
        rw [if_pos failure]
        exact .refused failure active calm refusal traps

/-- What it takes to activate a BAR: memory and free room. -/
theorem activation_refused_iff
    (idle : device.hdr.barActive barNum = false) :
    (pciActivateBar state devNum barNum).1 < 0 ↔
      ¬ (state.world.mallocs state.world.asked = true ∧
        state.world.traps.Free
          (barTrap state.world device.hdr barNum device.data)) := by
  cases result : pciActivateBar state devNum barNum with
  | mk r after =>
      have spec := activation wired found bar
      rw [result] at spec
      cases spec with
      | already active =>
          rw [idle] at active
          cases active
      | registered _ _ granted free _ =>
          exact
            iff_of_false (lt_irrefl (0 : Int)) (not_not.mpr ⟨granted, free⟩)
      | refused negative _ _ refusal _ => exact iff_of_true negative refusal

theorem deactivation :
    Deactivation state devNum device barNum
      (pciDeactivateBar state devNum barNum) := by
  have virtio := wired.virtio found
  cases active : device.hdr.barActive barNum with
  | false =>
      have run : pciDeactivateBar state devNum barNum = (0, state) := by
        simp only [pciDeactivateBar, found, active, Bool.not_false, if_true]
      rw [run]
      exact .already active
  | true =>
      have call := barDeactivate_eq lib state.world device.hdr bar
        device.data
      rw [← virtio.deactivates] at call
      rw [pciDeactivateBar_of_active found active call]
      obtain ⟨calm, ⟨trap, member, covers, success, rest⟩ | missing⟩ :=
        wired.calm.deregister lib (barBus barNum)
          (trapLow device.hdr barNum)
      · have positive : 0 ≤ deactivated barNum true := by
          rw [deactivated]
          split <;> decide
        have answer :
            (deregisterIotrap lib state.world (barBus barNum)
              (trapLow device.hdr barNum)).1 = true :=
          success
        rw [answer, if_neg (not_lt.mpr positive)]
        exact .removed positive active calm member covers rest
      · obtain ⟨missing, unchanged⟩ := missing
        have answer :
            deregisterIotrap lib state.world (barBus barNum)
                (trapLow device.hdr barNum) =
              (false, state.world) := by
          rw [deregisterIotrap, unchanged]
        rw [answer]
        by_cases ports : barNum = 0
        · subst ports
          exact .missed rfl active missing
        · have negative : deactivated barNum false = eNoEnt :=
            if_neg ports
          rw [negative, if_pos (by decide)]
          exact .failed ports active missing

end Present

end Specs

end Kemu.Virtio.PciBar
