import Kemu.Lib.Bytes
import Mathlib.Logic.Function.Basic

/-!
# PCI configuration

The configuration space of `init/pci.c`, reached through the ports `0xcf8`
and `0xcfc` or through a window in memory.  A write to the command register
or to a BAR turns the emulation of BARs on and off; how a device does that
is its own matter, and what it does it to is a parameter, `World`.
-/

namespace Kemu.Init.Pci

open Kemu.Lib.Bytes

/-! ## Addresses -/

/--
What depends on the architecture: whether configuration spaces have the
extended size, and `KVM_PCI_CFG_AREA`.
-/
structure PciArch where
  hasPciExp : Bool
  cfgArea : UInt64
deriving DecidableEq, Repr

namespace PciArch

variable (arch : PciArch)

/-- The bits of an offset into a configuration space. -/
def offsetBits : Nat :=
  if arch.hasPciExp then 12 else 8

/-- `PCI_DEV_CFG_SIZE`. -/
def devCfgSize : Nat :=
  2 ^ arch.offsetBits

/-! The members of `union pci_config_address`. -/

def functionNumber (address : UInt32) : Nat :=
  address.toNat / 2 ^ arch.offsetBits % 8

def deviceNumber (address : UInt32) : Nat :=
  address.toNat / 2 ^ (arch.offsetBits + 3) % 32

def busNumber (address : UInt32) : Nat :=
  address.toNat / 2 ^ (arch.offsetBits + 8) % 256

/-- `addr.w & PCI_DEV_CFG_MASK`. -/
def configOffset (address : UInt32) : Nat :=
  address.toNat % arch.devCfgSize

end PciArch

/-! ## Blocks of addresses -/

/-- `PCI_IO_SIZE`. -/
def pciIoSize : UInt32 := 0x100

/-- `pci_get_io_port_block`, with `io_port_blocks` before and after. -/
def pciGetIoPortBlock (ioPortBlocks : UInt16) (size : UInt32) :
    UInt16 × UInt16 :=
  let port := (ioPortBlocks + 0xff) &&& ~~~0xff
  (port, port + size.toUInt16)

/-- `pci_get_mmio_block`, with `mmio_blocks` before and after. -/
def pciGetMmioBlock (mmioBlocks size : UInt32) : UInt32 × UInt32 :=
  let block := (mmioBlocks + (size - 1)) &&& ~~~(size - 1)
  (block, block + size)

/-! ## Headers -/

/-- `struct pci_device_header`: the bytes the guest sees, and its BARs. -/
structure PciHeader where
  config : Nat → UInt8
  barSize : Nat → UInt32
  barActive : Nat → Bool

/-- `PCI_COMMAND`. -/
def pciCommand : Nat := 0x04

/-- `PCI_BAR_OFFSET(0)`. -/
def pciBarOffset : Nat := 0x10

/-- `PCI_STD_HEADER_SIZEOF`. -/
def pciStdHeaderSizeof : Nat := 64

/-- `PCI_COMMAND_IO`. -/
def pciCommandIo : UInt16 := 0x1

/-- `PCI_COMMAND_MEMORY`. -/
def pciCommandMemory : UInt16 := 0x2

/-- `PCI_BASE_ADDRESS_SPACE_IO`. -/
def pciBaseAddressSpaceIo : UInt32 := 0x1

/-- `PCI_BASE_ADDRESS_IO_MASK`. -/
def pciBaseAddressIoMask : UInt32 := 0xfffffffc

/-- `PCI_BASE_ADDRESS_MEM_MASK`. -/
def pciBaseAddressMemMask : UInt32 := 0xfffffff0

/-- `__pci__bar_is_io`. -/
def barIsIo (bar : UInt32) : Bool :=
  bar &&& pciBaseAddressSpaceIo != 0

/-- The address bits of a BAR. -/
def barMask (bar : UInt32) : UInt32 :=
  if barIsIo bar then pciBaseAddressIoMask else pciBaseAddressMemMask

/-- `__pci__bar_address`. -/
def barAddress (bar : UInt32) : UInt32 :=
  bar &&& barMask bar

namespace PciHeader

variable (hdr : PciHeader)

/-- `pci_hdr->command`. -/
def command : UInt16 :=
  .ofNat (ofLe (peek hdr.config pciCommand 2))

/-- `pci_hdr->command = …`. -/
def setCommand (value : UInt16) : PciHeader :=
  { hdr with config := poke hdr.config pciCommand (toLe 2 value.toNat) }

/-- `pci_hdr->bar[bar_num]`. -/
def bar (barNum : Nat) : UInt32 :=
  .ofNat (ofLe (peek hdr.config (pciBarOffset + 4 * barNum) 4))

/-- `pci_hdr->bar[bar_num] = …`. -/
def setBar (barNum : Nat) (value : UInt32) : PciHeader :=
  { hdr with
    config :=
      poke hdr.config (pciBarOffset + 4 * barNum) (toLe 4 value.toNat) }

/-- `pci_hdr->bar_active[bar_num] = …`. -/
def setActive (barNum : Nat) (value : Bool) : PciHeader :=
  { hdr with barActive := Function.update hdr.barActive barNum value }

/-- `pci_bar_is_implemented`. -/
def barIsImplemented (barNum : Nat) : Bool :=
  hdr.barSize barNum != 0

/-- `pci__io_space_enabled`. -/
def ioSpaceEnabled : Bool :=
  hdr.command &&& pciCommandIo != 0

/-- `pci__memory_space_enabled`. -/
def memorySpaceEnabled : Bool :=
  hdr.command &&& pciCommandMemory != 0

/-- The space of a BAR is enabled. -/
def spaceEnabled (barNum : Nat) : Bool :=
  if barIsIo (hdr.bar barNum) then
    hdr.ioSpaceEnabled
  else
    hdr.memorySpaceEnabled

@[simp]
theorem bar_setBar_self (barNum : Nat) (value : UInt32) :
    (hdr.setBar barNum value).bar barNum = value := by
  have bytes :
      peek (hdr.setBar barNum value).config (pciBarOffset + 4 * barNum) 4 =
        toLe 4 value.toNat :=
    peek_poke_self hdr.config (pciBarOffset + 4 * barNum)
      (toLe 4 value.toNat)
  have small : value.toNat < 256 ^ 4 := value.toNat_lt
  rw [bar, bytes, ofLe_toLe, Nat.mod_eq_of_lt small, UInt32.ofNat_toNat]

theorem bar_setBar_of_ne {barNum other : Nat} (different : other ≠ barNum)
    (value : UInt32) : (hdr.setBar barNum value).bar other = hdr.bar other := by
  rw [bar, setBar, peek_poke_disjoint, bar]
  rw [toLe_length]
  omega

@[simp]
theorem command_setBar (barNum : Nat) (value : UInt32) :
    (hdr.setBar barNum value).command = hdr.command := by
  rw [command, setBar, peek_poke_disjoint, command]
  rw [pciCommand, pciBarOffset]
  omega

@[simp]
theorem command_setCommand (value : UInt16) :
    (hdr.setCommand value).command = value := by
  have bytes :
      peek (hdr.setCommand value).config pciCommand 2 =
        toLe 2 value.toNat :=
    peek_poke_self hdr.config pciCommand (toLe 2 value.toNat)
  have small : value.toNat < 256 ^ 2 := value.toNat_lt
  rw [command, bytes, ofLe_toLe, Nat.mod_eq_of_lt small,
    UInt16.ofNat_toNat]

@[simp]
theorem bar_setCommand (value : UInt16) (barNum : Nat) :
    (hdr.setCommand value).bar barNum = hdr.bar barNum := by
  rw [bar, setCommand, peek_poke_disjoint, bar]
  rw [toLe_length, pciCommand, pciBarOffset]
  omega

end PciHeader

/--
A device with its `bar_activate_fn` and `bar_deactivate_fn`, and the pointer
`data` that is passed on to them.
-/
structure PciDevice (World : Type) where
  hdr : PciHeader
  barActivate : World → PciHeader → Nat → Nat → Int × World
  barDeactivate : World → PciHeader → Nat → Nat → Int × World
  data : Nat

/--
`pci_config_address_bits`, the devices by their number, the first number
that is not taken, and what the devices act on.
-/
structure PciState (World : Type) where
  configAddressBits : UInt32
  devices : Nat → Option (PciDevice World)
  devNum : Nat
  world : World

section Code

variable {World : Type}

/-- Write to the header of a device. -/
def PciState.modify (state : PciState World) (devNum : Nat)
    (change : PciHeader → PciHeader) : PciState World :=
  { state with
    devices :=
      Function.update state.devices devNum
        ((state.devices devNum).map fun device =>
          { device with hdr := change device.hdr }) }

theorem modify_devices_self (state : PciState World) {devNum : Nat}
    {device : PciDevice World} (found : state.devices devNum = some device)
    (change : PciHeader → PciHeader) :
    (state.modify devNum change).devices devNum =
      some { device with hdr := change device.hdr } := by
  refine (Function.update_self ..).trans ?_
  rw [found]
  rfl

theorem modify_devices_none (state : PciState World) {devNum : Nat}
    (absent : state.devices devNum = none)
    (change : PciHeader → PciHeader) :
    (state.modify devNum change).devices devNum = none := by
  refine (Function.update_self ..).trans ?_
  rw [absent]
  rfl

theorem modify_devices_of_ne (state : PciState World) {devNum other : Nat}
    (different : other ≠ devNum) (change : PciHeader → PciHeader) :
    (state.modify devNum change).devices other = state.devices other :=
  Function.update_of_ne different ..

/-- The devices after a write to a header. -/
theorem modify_devices_cases {state : PciState World} {devNum other : Nat}
    {change : PciHeader → PciHeader} {now : PciDevice World}
    (found : (state.modify devNum change).devices other = some now) :
    (other = devNum ∧ ∃ device, state.devices devNum = some device ∧
        now = { device with hdr := change device.hdr }) ∨
      other ≠ devNum ∧ state.devices other = some now := by
  by_cases same : other = devNum
  · subst same
    cases before : state.devices other with
    | none =>
        rw [modify_devices_none state before] at found
        cases found
    | some device =>
        rw [modify_devices_self state before] at found
        cases found
        exact Or.inl ⟨rfl, device, rfl, rfl⟩
  · rw [modify_devices_of_ne state same] at found
    exact Or.inr ⟨same, found⟩

/-! ## Turning BARs on and off -/

/-- `pci_activate_bar`. -/
def pciActivateBar (state : PciState World) (devNum barNum : Nat) :
    Int × PciState World :=
  match state.devices devNum with
  | none => (0, state)
  | some device =>
      if device.hdr.barActive barNum then
        (0, state)
      else
        let (r, world) :=
          device.barActivate state.world device.hdr barNum device.data
        let state := { state with world := world }
        if r < 0 then
          (r, state)
        else
          (r, state.modify devNum fun hdr => hdr.setActive barNum true)

/-- `pci_deactivate_bar`. -/
def pciDeactivateBar (state : PciState World) (devNum barNum : Nat) :
    Int × PciState World :=
  match state.devices devNum with
  | none => (0, state)
  | some device =>
      if !device.hdr.barActive barNum then
        (0, state)
      else
        let (r, world) :=
          device.barDeactivate state.world device.hdr barNum device.data
        let state := { state with world := world }
        if r < 0 then
          (r, state)
        else
          (r, state.modify devNum fun hdr => hdr.setActive barNum false)

theorem activate_devNum (state : PciState World) (devNum barNum : Nat) :
    (pciActivateBar state devNum barNum).2.devNum = state.devNum := by
  rw [pciActivateBar]
  split
  · rfl
  · split
    · rfl
    · dsimp only
      split <;> rfl

section Calls

variable {state : PciState World} {devNum barNum : Nat}
  {device : PciDevice World} (found : state.devices devNum = some device)
  {r : Int} {world : World}

include found

theorem pciActivateBar_of_inactive
    (inactive : device.hdr.barActive barNum = false)
    (call :
      device.barActivate state.world device.hdr barNum device.data =
        (r, world)) :
    pciActivateBar state devNum barNum =
      if r < 0 then
        (r, { state with world := world })
      else
        (r, PciState.modify { state with world := world } devNum
          fun hdr => hdr.setActive barNum true) := by
  simp only [pciActivateBar, found, inactive, call, Bool.false_eq_true,
    if_false]

theorem pciDeactivateBar_of_active
    (active : device.hdr.barActive barNum = true)
    (call :
      device.barDeactivate state.world device.hdr barNum device.data =
        (r, world)) :
    pciDeactivateBar state devNum barNum =
      if r < 0 then
        (r, { state with world := world })
      else
        (r, PciState.modify { state with world := world } devNum
          fun hdr => hdr.setActive barNum false) := by
  simp only [pciDeactivateBar, found, active, call, Bool.not_true,
    Bool.false_eq_true, if_false]

end Calls

/-- `pci_activate_bar` or `pci_deactivate_bar`. -/
def toggleBar (activate : Bool) (state : PciState World)
    (devNum barNum : Nat) : Int × PciState World :=
  if activate then
    pciActivateBar state devNum barNum
  else
    pciDeactivateBar state devNum barNum

/-- The loop of `pci_config_command_wr`. -/
def commandLoop (devNum : Nat) (toggleIo toggleMem : Bool)
    (newCommand : UInt16) :
    List Nat → PciState World → PciState World
  | [], state => state
  | barNum :: rest, state =>
      match state.devices devNum with
      | none => state
      | some device =>
          if !device.hdr.barIsImplemented barNum then
            commandLoop devNum toggleIo toggleMem newCommand rest state
          else if barIsIo (device.hdr.bar barNum) then
            if toggleIo then
              commandLoop devNum toggleIo toggleMem newCommand rest
                (toggleBar (newCommand &&& pciCommandIo != 0) state devNum
                  barNum).2
            else
              commandLoop devNum toggleIo toggleMem newCommand rest state
          else if toggleMem then
            commandLoop devNum toggleIo toggleMem newCommand rest
              (toggleBar (newCommand &&& pciCommandMemory != 0) state
                devNum barNum).2
          else
            commandLoop devNum toggleIo toggleMem newCommand rest state

/-- `pci_config_command_wr`. -/
def pciConfigCommandWr (state : PciState World) (devNum : Nat)
    (newCommand : UInt16) : PciState World :=
  match state.devices devNum with
  | none => state
  | some device =>
      let changed := device.hdr.command ^^^ newCommand
      let state :=
        commandLoop devNum (changed &&& pciCommandIo != 0)
          (changed &&& pciCommandMemory != 0) newCommand (List.range 6)
          state
      state.modify devNum fun hdr => hdr.setCommand newCommand

/-- The region of a BAR, as 32-bit sums, meets another one. -/
def regionsMeet (tmpStart tmpSize start size : UInt32) : Bool :=
  !(decide (tmpStart + tmpSize ≤ start) || decide (tmpStart ≥ start + size))

/-- The loops of `pci_toggle_bar_regions`. -/
def toggleLoop (activate : Bool) (start size : UInt32) :
    List (Nat × Nat) → PciState World → Int × PciState World
  | [], state => (0, state)
  | (devNum, barNum) :: rest, state =>
      match state.devices devNum with
      | none => toggleLoop activate start size rest state
      | some device =>
          if device.hdr.barIsImplemented barNum &&
              regionsMeet (barAddress (device.hdr.bar barNum))
                (device.hdr.barSize barNum) start size then
            let (r, state) := toggleBar activate state devNum barNum
            if r < 0 then
              (r, state)
            else
              toggleLoop activate start size rest state
          else
            toggleLoop activate start size rest state

/-- The BARs of all devices, in the order of the device tree. -/
def PciState.allBars (state : PciState World) : List (Nat × Nat) :=
  (List.range state.devNum).flatMap fun devNum =>
    (List.range 6).map fun barNum => (devNum, barNum)

theorem mem_allBars {state : PciState World} {devNum barNum : Nat}
    (number : devNum < state.devNum) (bar : barNum < 6) :
    (devNum, barNum) ∈ state.allBars := by
  rw [PciState.allBars, List.mem_flatMap]
  refine ⟨devNum, List.mem_range.mpr number, ?_⟩
  exact List.mem_map.mpr ⟨barNum, List.mem_range.mpr bar, rfl⟩

/-- `pci_toggle_bar_regions`. -/
def pciToggleBarRegions (activate : Bool) (state : PciState World)
    (start size : UInt32) : Int × PciState World :=
  toggleLoop activate start size state.allBars state

/--
The last part of `pci_config_bar_wr`: give up the old region, move those
that overlap with the new one out of the way, and take it.
-/
def moveBar (state : PciState World) (devNum barNum : Nat)
    (oldAddr newAddr barSize value : UInt32) : PciState World :=
  let (r, state) := pciDeactivateBar state devNum barNum
  if r < 0 then
    state
  else
    let (r, state) := pciToggleBarRegions false state newAddr barSize
    if r < 0 then
      (pciActivateBar state devNum barNum).2
    else
      let state := state.modify devNum fun hdr => hdr.setBar barNum value
      let (r, state) := pciActivateBar state devNum barNum
      if r < 0 then
        (pciToggleBarRegions true state newAddr barSize).2
      else
        (pciToggleBarRegions true state oldAddr barSize).2

/-- What a BAR becomes by writing all ones to it. -/
def sizingValue (hdr : PciHeader) (barNum : Nat) : UInt32 :=
  let mask := barMask (hdr.bar barNum)
  (~~~(hdr.barSize barNum - 1) &&& mask) ||| (hdr.bar barNum &&& ~~~mask)

/-- A value with the special bits of the BAR it is written to. -/
def writtenValue (hdr : PciHeader) (barNum : Nat) (value : UInt32) :
    UInt32 :=
  let mask := barMask (hdr.bar barNum)
  (value &&& mask) ||| (hdr.bar barNum &&& ~~~mask)

/-- `pci_config_bar_wr`. -/
def pciConfigBarWr (state : PciState World) (devNum barNum : Nat)
    (value : UInt32) : PciState World :=
  match state.devices devNum with
  | none => state
  | some device =>
      let hdr := device.hdr
      if value = 0xffffffff then
        state.modify devNum fun header =>
          header.setBar barNum (sizingValue hdr barNum)
      else
        let value := writtenValue hdr barNum value
        if !hdr.spaceEnabled barNum then
          state.modify devNum fun header => header.setBar barNum value
        else
          moveBar state devNum barNum (barAddress (hdr.bar barNum))
            (barAddress value) (hdr.barSize barNum) value

section Rules

variable (kept : PciState World → Prop)

/-- What every toggling keeps, the loop over a device's BARs keeps. -/
theorem commandLoop_keeps {devNum : Nat} {toggleIo toggleMem : Bool}
    {newCommand : UInt16}
    (toggle : ∀ activate state barNum, kept state →
      kept (toggleBar activate state devNum barNum).2)
    (bars : List Nat) {state : PciState World} (holds : kept state) :
    kept
      (commandLoop devNum toggleIo toggleMem newCommand bars state) := by
  induction bars generalizing state with
  | nil => exact holds
  | cons barNum rest induction =>
      rw [commandLoop]
      split
      · exact holds
      · split
        · exact induction holds
        · split
          · split
            · exact induction (toggle _ _ _ holds)
            · exact induction holds
          · split
            · exact induction (toggle _ _ _ holds)
            · exact induction holds

/-- What every toggling keeps, the loop over all BARs keeps. -/
theorem toggleLoop_keeps {activate : Bool} {start size : UInt32}
    (toggle : ∀ state devNum barNum, kept state →
      kept (toggleBar activate state devNum barNum).2)
    (bars : List (Nat × Nat)) {state : PciState World}
    (holds : kept state) :
    kept (toggleLoop activate start size bars state).2 := by
  induction bars generalizing state with
  | nil => exact holds
  | cons entry rest induction =>
      rw [toggleLoop]
      split
      · exact induction holds
      · split
        · dsimp only
          split
          · exact toggle _ _ _ holds
          · exact induction (toggle _ _ _ holds)
        · exact induction holds

/-- What every toggling and the write of the BAR keep, a move keeps. -/
theorem moveBar_keeps {devNum barNum : Nat}
    {oldAddr newAddr barSize value : UInt32}
    (toggle : ∀ activate state devNum barNum, kept state →
      kept (toggleBar activate state devNum barNum).2)
    (write : ∀ state, kept state →
      kept (state.modify devNum fun hdr => hdr.setBar barNum value))
    {state : PciState World} (holds : kept state) :
    kept
      (moveBar state devNum barNum oldAddr newAddr barSize value) := by
  have off : ∀ {state}, kept state →
      kept (pciDeactivateBar state devNum barNum).2 :=
    fun holds => toggle false _ devNum barNum holds
  have on : ∀ {state}, kept state →
      kept (pciActivateBar state devNum barNum).2 :=
    fun holds => toggle true _ devNum barNum holds
  have regions : ∀ {activate start size state}, kept state →
      kept (pciToggleBarRegions activate state start size).2 :=
    fun holds => toggleLoop_keeps kept (toggle _) _ holds
  rw [moveBar]
  dsimp only
  split
  · exact off holds
  · split
    · exact on (regions (off holds))
    · split
      · exact regions (on (write _ (regions (off holds))))
      · exact regions (on (write _ (regions (off holds))))

end Rules

/-! ## Access -/

/-- `pci_config_writable`. -/
def pciConfigWritable (index : Nat) : UInt8 :=
  if index = pciCommand then
    0x47
  else if index = pciCommand + 1 then
    0x05
  else if index = 0x3c then
    0xff
  else if pciBarOffset ≤ index ∧ index < pciBarOffset + 24 then
    0xff
  else if index = 0x0c then
    0xff
  else
    0

/-- The BAR index of an offset, as the 8-bit number it is kept in. -/
def barIndex (offset : Nat) : Nat :=
  ((UInt64.ofNat offset - UInt64.ofNat pciBarOffset) / 4).toUInt8.toNat

variable (arch : PciArch)

/-- `pci_device_exists`, which looks at the port's address, not its own. -/
def pciDeviceExists (state : PciState World)
    (busNumber deviceNumber functionNumber : Nat) : Bool :=
  arch.busNumber state.configAddressBits == busNumber &&
    arch.functionNumber state.configAddressBits == functionNumber &&
    (state.devices deviceNumber).isSome

/-- The part of `pci__config_wr` for a device that exists. -/
def deviceConfigWr (state : PciState World) (devNum offset : Nat)
    (data : List UInt8) : PciState World :=
  let mask := ofLe (peek pciConfigWritable offset data.length)
  if offset < pciStdHeaderSizeof ∧ mask = 0 then
    state
  else if offset = pciCommand then
    pciConfigCommandWr state devNum
      (UInt16.ofNat (ofLe data) &&& UInt16.ofNat mask)
  else if barIndex offset < 6 then
    pciConfigBarWr state devNum (barIndex offset) (UInt32.ofNat (ofLe data))
  else
    state.modify devNum fun hdr =>
      { hdr with config := poke hdr.config offset data }

/-- `pci__config_wr`. -/
def pciConfigWr (state : PciState World) (address : UInt32)
    (data : List UInt8) : PciState World :=
  if pciDeviceExists arch state (arch.busNumber address)
      (arch.deviceNumber address) 0 then
    deviceConfigWr state (arch.deviceNumber address)
      (arch.configOffset address) data
  else
    state

/-- `pci__config_rd`. -/
def pciConfigRd (state : PciState World) (address : UInt32) (size : Nat) :
    List UInt8 :=
  match state.devices (arch.deviceNumber address) with
  | none => List.replicate size 0xff
  | some device =>
      if pciDeviceExists arch state (arch.busNumber address)
          (arch.deviceNumber address) 0 then
        peek device.hdr.config (arch.configOffset address) size
      else
        List.replicate size 0xff

/-- A read into a buffer, or a write. -/
inductive Access where
  | read (buffer : List UInt8)
  | write (data : List UInt8)
deriving DecidableEq, Repr

/-- The bytes of an access. -/
def Access.data : Access → List UInt8
  | .read buffer => buffer
  | .write data => data

/-- The first bytes of an access at an address. -/
def configAccess (state : PciState World) (address : UInt32) (len : Nat) :
    Access → List UInt8 × PciState World
  | .read buffer =>
      (pciConfigRd arch state address len ++ buffer.drop len, state)
  | .write data =>
      (data, pciConfigWr arch state address (data.take len))

/-- `pci_config_address_mmio`, for a port from `0xcf8` on. -/
def pciConfigAddressMmio (state : PciState World) (addr : UInt64) :
    Access → List UInt8 × PciState World
  | .read buffer =>
      ((toLe 4 state.configAddressBits.toNat).drop (addr.toNat - 0xcf8) |>.take
          buffer.length, state)
  | .write data =>
      (data,
        { state with
          configAddressBits :=
            .ofNat
              (ofLe
                (patch (toLe 4 state.configAddressBits.toNat)
                  (addr.toNat - 0xcf8) data)) })

/-- `pci_config_data_mmio`, for a port from `0xcfc` on. -/
def pciConfigDataMmio (state : PciState World) (addr : UInt64)
    (access : Access) : List UInt8 × PciState World :=
  let regOffset := (addr.toNat - 0xcfc) % 4
  let address :=
    UInt32.ofNat (state.configAddressBits.toNat / 4 * 4 + regOffset)
  configAccess arch state address (min access.data.length (4 - regOffset))
    access

/-- `pci_config_mmio_access`. -/
def pciConfigMmioAccess (state : PciState World) (addr : UInt64)
    (access : Access) : List UInt8 × PciState World :=
  let addr := addr - arch.cfgArea
  let address := addr.toUInt32 ||| 0x80000000
  if addr.toNat % 4 + access.data.length > 4 then
    (access.data, state)
  else
    configAccess arch state address access.data.length access

end Code

end Kemu.Init.Pci
