import Kemu.Lib.Transition
import Kemu.Virtio.PciBar

/-!
# What every run of the PCI bus keeps

Whatever the guest writes, the devices stay virtio devices with BARs of
their types and sizes, and the traps stay disjoint.
-/

namespace Kemu.Virtio.PciBar

open Kemu.Init.Mmio
open Kemu.Init.Pci
open Kemu.Lib.Bytes
open Kemu.Lib.SearchTree
open Kemu.Lib.Transition
open Kemu.Util.RbtreeInterval

/-! ## Types of BARs -/

/-- Bits outside a mask are taken from the second operand. -/
theorem merged_low (first second mask : UInt32) :
    ((first &&& mask) ||| (second &&& ~~~mask)) &&& ~~~mask =
      second &&& ~~~mask := by
  apply UInt32.eq_of_toBitVec_eq
  ext index
  simp
  grind

/-- Bits inside a mask are taken from the first operand. -/
theorem merged_high (first second mask : UInt32) :
    ((first &&& mask) ||| (second &&& ~~~mask)) &&& mask =
      first &&& mask := by
  apply UInt32.eq_of_toBitVec_eq
  ext index
  simp
  grind

theorem merged_self (value mask : UInt32) :
    (value &&& mask) ||| (value &&& ~~~mask) = value := by
  apply UInt32.eq_of_toBitVec_eq
  ext index
  simp
  grind

/-- The type bits of a BAR of a virtio device. -/
structure Typed (barNum : Nat) (value : UInt32) : Prop where
  ports : barNum = 0 → value &&& 0x3 = 0x1
  memory : barNum ≠ 0 → value &&& 0xf = 0

namespace Typed

variable {barNum : Nat} {value : UInt32} (typed : Typed barNum value)

include typed

theorem isIo : barIsIo value = decide (barNum = 0) := by
  by_cases ports : barNum = 0
  · have low : value &&& 0x1 = (value &&& 0x3) &&& 0x1 := by
      rw [UInt32.and_assoc]
      rfl
    rw [barIsIo, pciBaseAddressSpaceIo, low, typed.ports ports,
      decide_eq_true ports]
    rfl
  · have low : value &&& 0x1 = (value &&& 0xf) &&& 0x1 := by
      rw [UInt32.and_assoc]
      rfl
    rw [barIsIo, pciBaseAddressSpaceIo, low, typed.memory ports,
      decide_eq_false ports]
    rfl

theorem mask_eq :
    barMask value =
      if barNum = 0 then pciBaseAddressIoMask
      else pciBaseAddressMemMask := by
  rw [barMask, typed.isIo]
  by_cases ports : barNum = 0
  · simp [ports]
  · simp [ports]

/-- A value with the type bits of the BAR. -/
theorem merged (first : UInt32) :
    Typed barNum
      ((first &&& barMask value) ||| (value &&& ~~~ barMask value)) := by
  have low := merged_low first value (barMask value)
  constructor
  · intro ports
    have mask : ~~~ barMask value = 0x3 := by
      rw [typed.mask_eq, if_pos ports]
      rfl
    rw [mask] at low ⊢
    rw [low]
    exact typed.ports ports
  · intro memory
    have mask : ~~~ barMask value = 0xf := by
      rw [typed.mask_eq, if_neg memory]
      rfl
    rw [mask] at low ⊢
    rw [low]
    exact typed.memory memory

/-- No BAR of a virtio device reads as all ones. -/
theorem ne_all_ones : value ≠ 0xffffffff := by
  rintro rfl
  by_cases ports : barNum = 0
  · exact absurd (typed.ports ports) (by decide)
  · exact absurd (typed.memory ports) (by decide)

end Typed

section Wired

variable {lib : Rebalancer RbIntNode} {vcpus : Vcpus}

theorem IsVirtio.typed {device : PciDevice (BarWorld vcpus)}
    (virtio : IsVirtio lib device) {barNum : Nat} (bar : barNum < 6) :
    Typed barNum (device.hdr.bar barNum) := by
  constructor
  · rintro rfl
    exact virtio.ioBar
  · intro memory
    exact virtio.memoryBars barNum (Nat.pos_of_ne_zero memory) bar

theorem IsVirtio.implemented_iff {device : PciDevice (BarWorld vcpus)}
    (virtio : IsVirtio lib device) (barNum : Nat) :
    device.hdr.barIsImplemented barNum = true ↔ barNum < 3 := by
  rw [PciHeader.barIsImplemented, virtio.sizes]
  match barNum with
  | 0 => decide
  | 1 => decide
  | 2 => decide
  | rest + 3 =>
      have none : virtioBarSize (rest + 3) = 0 := rfl
      rw [none]
      simp

/-! ## Headers -/

section Headers

variable {device : PciDevice (BarWorld vcpus)}
  (virtio : IsVirtio lib device)

include virtio

theorem IsVirtio.setActive {barNum : Nat} (bar : barNum < 3)
    (value : Bool) :
    IsVirtio lib
      { device with hdr := device.hdr.setActive barNum value } :=
  { virtio with
    inactive := by
      intro other behind
      exact
        (Function.update_of_ne (by omega) ..).trans
          (virtio.inactive other behind) }

theorem IsVirtio.setCommand (value : UInt16) :
    IsVirtio lib { device with hdr := device.hdr.setCommand value } :=
  { virtio with
    ioBar := by
      rw [PciHeader.bar_setCommand]
      exact virtio.ioBar
    memoryBars := by
      intro barNum memory bar
      rw [PciHeader.bar_setCommand]
      exact virtio.memoryBars barNum memory bar }

theorem IsVirtio.setBar {barNum : Nat} {value : UInt32}
    (typed : Typed barNum value) :
    IsVirtio lib { device with hdr := device.hdr.setBar barNum value } := by
  have bars : ∀ other, other < 6 →
      Typed other ((device.hdr.setBar barNum value).bar other) := by
    intro other bar
    by_cases same : other = barNum
    · rw [same, PciHeader.bar_setBar_self]
      exact typed
    · rw [PciHeader.bar_setBar_of_ne _ same]
      exact virtio.typed bar
  exact
    { virtio with
      ioBar := (bars 0 (by decide)).ports rfl
      memoryBars := fun other memory bar =>
        (bars other bar).memory (Nat.ne_of_gt memory) }

/-- A write to other bytes of the header. -/
theorem IsVirtio.poke {offset : Nat} {data : List UInt8}
    (outside :
      offset + data.length ≤ pciBarOffset ∨ pciBarOffset + 24 ≤ offset) :
    IsVirtio lib
      { device with
        hdr :=
          { device.hdr with
            config := Kemu.Lib.Bytes.poke device.hdr.config offset data } } := by
  have bars : ∀ barNum, barNum < 6 →
      PciHeader.bar
          { device.hdr with
            config :=
              Kemu.Lib.Bytes.poke device.hdr.config offset data } barNum =
        device.hdr.bar barNum := by
    intro barNum bar
    rw [PciHeader.bar, peek_poke_disjoint, PciHeader.bar]
    omega
  exact
    { virtio with
      ioBar := by
        rw [bars 0 (by decide)]
        exact virtio.ioBar
      memoryBars := by
        intro barNum memory bar
        rw [bars barNum bar]
        exact virtio.memoryBars barNum memory bar }

end Headers

/-! ## States -/

section States

variable {state : PciState (BarWorld vcpus)} (wired : Wired lib state)

include wired

theorem Wired.withTraps {traps : TrapState vcpus} (calm : Calm traps)
    (asked : Nat) : Wired lib (withTraps state traps asked) :=
  { wired with calm := calm }

/-- A change of one header that keeps it one of a virtio device. -/
theorem Wired.modify {devNum : Nat} {change : PciHeader → PciHeader}
    (keeps : ∀ device, state.devices devNum = some device →
      IsVirtio lib { device with hdr := change device.hdr }) :
    Wired lib (state.modify devNum change) := by
  have source : ∀ {other device},
      (state.modify devNum change).devices other = some device →
        ∃ former, state.devices other = some former ∧
          former.data = device.data ∧ IsVirtio lib device := by
    intro other device found
    by_cases same : other = devNum
    · subst same
      cases before : state.devices other with
      | none =>
          rw [modify_devices_none state before] at found
          cases found
      | some former =>
          rw [modify_devices_self state before] at found
          cases found
          exact ⟨former, rfl, rfl, keeps former before⟩
    · rw [modify_devices_of_ne state same] at found
      exact ⟨device, found, rfl, wired.virtio found⟩
  refine
    { calm := wired.calm
      virtio := ?_
      numbered := ?_
      apart := ?_ }
  · intro other device found
    obtain ⟨-, -, -, virtio⟩ := source found
    exact virtio
  · intro other device found
    obtain ⟨former, before, data, -⟩ := source found
    rw [← data]
    exact wired.numbered before
  · intro first second device partner found partnerFound same
    obtain ⟨former, before, data, -⟩ := source found
    obtain ⟨earlier, earlierFound, partnerData, -⟩ := source partnerFound
    refine wired.apart before earlierFound ?_
    rw [data, partnerData]
    exact same

theorem Wired.setActive (devNum : Nat) {barNum : Nat} (bar : barNum < 3)
    (value : Bool) :
    Wired lib
      (state.modify devNum fun hdr => hdr.setActive barNum value) :=
  wired.modify fun _ found => (wired.virtio found).setActive bar value

theorem Wired.setBar {devNum barNum : Nat} {value : UInt32}
    (typed : Typed barNum value) :
    Wired lib (state.modify devNum fun hdr => hdr.setBar barNum value) :=
  wired.modify fun _ found => (wired.virtio found).setBar typed

theorem Wired.setCommand (devNum : Nat) (value : UInt16) :
    Wired lib (state.modify devNum fun hdr => hdr.setCommand value) :=
  wired.modify fun _ found => (wired.virtio found).setCommand value

/-- Activating a BAR without a region fails an assertion. -/
theorem Wired.activate_unimplemented {devNum : Nat}
    {device : PciDevice (BarWorld vcpus)}
    (found : state.devices devNum = some device) {barNum : Nat}
    (bar : 3 ≤ barNum) :
    pciActivateBar state devNum barNum =
      (eInval,
        { state with world := { state.world with aborted := true } }) := by
  have virtio := wired.virtio found
  have call :
      device.barActivate state.world device.hdr barNum device.data =
        (eInval, { state.world with aborted := true }) := by
    rw [virtio.activates]
    obtain ⟨rest, rfl⟩ := Nat.exists_eq_add_of_le' bar
    rfl
  rw [pciActivateBar_of_inactive found (virtio.inactive barNum bar) call,
    if_pos (by decide)]

theorem Wired.activate (devNum barNum : Nat) :
    Wired lib (pciActivateBar state devNum barNum).2 := by
  cases found : state.devices devNum with
  | none =>
      rw [pciActivateBar, found]
      exact wired
  | some device =>
      by_cases bar : barNum < 3
      · cases result : pciActivateBar state devNum barNum with
        | mk r after =>
            have spec := activation wired found bar
            rw [result] at spec
            cases spec with
            | already => exact wired
            | registered _ calm =>
                exact (wired.withTraps calm _).setActive devNum bar true
            | refused _ _ calm => exact wired.withTraps calm _
      · rw [wired.activate_unimplemented found (Nat.le_of_not_lt bar)]
        exact
          { wired with }

theorem Wired.deactivate (devNum barNum : Nat) :
    Wired lib (pciDeactivateBar state devNum barNum).2 := by
  cases found : state.devices devNum with
  | none =>
      rw [pciDeactivateBar, found]
      exact wired
  | some device =>
      by_cases bar : barNum < 3
      · cases result : pciDeactivateBar state devNum barNum with
        | mk r after =>
            have spec := deactivation wired found bar
            rw [result] at spec
            cases spec with
            | already => exact wired
            | removed _ _ calm =>
                exact (wired.withTraps calm _).setActive devNum bar false
            | missed => exact wired.setActive devNum bar false
            | failed => exact wired
      · have inactive :=
          (wired.virtio found).inactive barNum (Nat.le_of_not_lt bar)
        simp only [pciDeactivateBar, found, inactive, Bool.not_false,
          if_true]
        exact wired

theorem Wired.toggleBar (activate : Bool) (devNum barNum : Nat) :
    Wired lib (toggleBar activate state devNum barNum).2 := by
  cases activate with
  | true => exact wired.activate devNum barNum
  | false => exact wired.deactivate devNum barNum

theorem Wired.commandWr (devNum : Nat) (newCommand : UInt16) :
    Wired lib (pciConfigCommandWr state devNum newCommand) := by
  rw [pciConfigCommandWr]
  split
  · exact wired
  · refine Wired.setCommand (commandLoop_keeps (Wired lib) ?_ _ wired) ..
    intro activate state barNum wired
    exact wired.toggleBar activate devNum barNum

theorem Wired.barWr (devNum : Nat) {barNum : Nat} (bar : barNum < 6)
    (value : UInt32) :
    Wired lib (pciConfigBarWr state devNum barNum value) := by
  rw [pciConfigBarWr]
  split
  · exact wired
  case h_2 device found =>
    have typed := (wired.virtio found).typed bar
    dsimp only
    split
    · exact wired.setBar (typed.merged _)
    · split
      · exact wired.setBar (typed.merged value)
      · exact
          moveBar_keeps (Wired lib)
            (fun activate _ devNum barNum wired =>
              wired.toggleBar activate devNum barNum)
            (fun _ wired => wired.setBar (typed.merged value)) wired

end States

/-! ## Writes of the guest -/

section Guest

variable {World : Type}

/-- What a write to a configuration space amounts to. -/
inductive ConfigWrite (state : PciState World) (devNum : Nat) :
    PciState World → Prop where
  | dropped : ConfigWrite state devNum state
  | command (newCommand : UInt16) :
      ConfigWrite state devNum (pciConfigCommandWr state devNum newCommand)
  | bar (barNum : Nat) (value : UInt32) (bound : barNum < 6) :
      ConfigWrite state devNum (pciConfigBarWr state devNum barNum value)
  | plain (offset : Nat) (data : List UInt8)
      (outsideBars :
        offset + data.length ≤ pciBarOffset ∨ pciBarOffset + 24 ≤ offset)
      (outsideCommand :
        offset + data.length ≤ pciCommand ∨ pciCommand + 1 ≤ offset) :
      ConfigWrite state devNum
        (state.modify devNum fun hdr =>
          { hdr with config := poke hdr.config offset data })

theorem configWrite (state : PciState World) (devNum : Nat) {offset : Nat}
    {data : List UInt8} (dword : offset % 4 + data.length ≤ 4) :
    ConfigWrite state devNum
      (deviceConfigWr state devNum offset data) := by
  rw [deviceConfigWr]
  split
  · exact .dropped
  · split
    · exact .command _
    case isFalse notCommand =>
      split
      case isTrue bar => exact .bar _ _ bar
      case isFalse notBar =>
        have outside : ¬ inBars offset := fun inside =>
          notBar (barIndex_inBars inside).1
        rw [inBars, pciBarOffset] at outside
        rw [pciCommand] at notCommand
        refine .plain offset data ?_ ?_
        · rw [pciBarOffset]
          omega
        · rw [pciCommand]
          omega

end Guest

section Writes

variable (arch : PciArch)

/-- The address that an access to the data port has. -/
def portAddress (state : PciState (BarWorld vcpus)) (addr : UInt64) :
    UInt32 :=
  .ofNat
    (state.configAddressBits.toNat / 4 * 4 + (addr.toNat - 0xcfc) % 4)

/-- The address that an access to the window has. -/
def windowAddress (addr : UInt64) : UInt32 :=
  (addr - arch.cfgArea).toUInt32 ||| 0x80000000

/-- The device, offset and bytes of the write that an action makes. -/
def guestWrite (state : PciState (BarWorld vcpus)) :
    PciAction → Option (Nat × Nat × List UInt8)
  | .dataPort addr (.write data) =>
      let address := portAddress state addr
      if pciDeviceExists arch state (arch.busNumber address)
          (arch.deviceNumber address) 0 then
        some
          (arch.deviceNumber address, arch.configOffset address,
            data.take
              (min data.length (4 - (addr.toNat - 0xcfc) % 4)))
      else
        none
  | .window addr (.write data) =>
      let address := windowAddress arch addr
      if (addr - arch.cfgArea).toNat % 4 + data.length ≤ 4 ∧
          pciDeviceExists arch state (arch.busNumber address)
            (arch.deviceNumber address) 0 = true then
        some
          (arch.deviceNumber address, arch.configOffset address, data)
      else
        none
  | _ => none

/-- An action of the guest, not of the system. -/
def PciAction.isGuest : PciAction → Bool
  | .init _ _ => false
  | .trap _ _ _ _ _ _ => false
  | _ => true

theorem configOffset_mod_four (address : UInt32) :
    arch.configOffset address % 4 = address.toNat % 4 := by
  rw [PciArch.configOffset, PciArch.devCfgSize, PciArch.offsetBits]
  split <;> omega

theorem exists_of_present {state : PciState (BarWorld vcpus)}
    {busNumber devNum : Nat}
    (present : pciDeviceExists arch state busNumber devNum 0 = true) :
    ∃ device, state.devices devNum = some device := by
  rw [pciDeviceExists, Bool.and_eq_true, Option.isSome_iff_exists]
    at present
  exact present.2

theorem portAddress_mod_four (state : PciState (BarWorld vcpus))
    (addr : UInt64) :
    (portAddress state addr).toNat % 4 = (addr.toNat - 0xcfc) % 4 := by
  rw [portAddress, UInt32.toNat_ofNat']
  omega

theorem windowAddress_mod_four (addr : UInt64) :
    (windowAddress arch addr).toNat % 4 =
      (addr - arch.cfgArea).toNat % 4 := by
  have low : ∀ value : Nat, (value ||| 0x80000000) % 2 ^ 2 = value % 2 ^ 2 := by
    intro value
    rw [Nat.or_mod_two_pow]
    exact Nat.or_zero _
  have top : UInt32.toNat 0x80000000 = 0x80000000 := rfl
  rw [windowAddress, UInt32.toNat_or, UInt64.toNat_toUInt32, top]
  have whole := low ((addr - arch.cfgArea).toNat % 2 ^ 32)
  omega

theorem dataPort_write (state : PciState (BarWorld vcpus)) (addr : UInt64)
    (data : List UInt8) :
    pciStep lib arch state (.dataPort addr (.write data)) =
      pciConfigWr arch state (portAddress state addr)
        (data.take (min data.length (4 - (addr.toNat - 0xcfc) % 4))) :=
  rfl

theorem window_write (state : PciState (BarWorld vcpus)) (addr : UInt64)
    (data : List UInt8) :
    pciStep lib arch state (.window addr (.write data)) =
      if (addr - arch.cfgArea).toNat % 4 + data.length > 4 then
        state
      else
        pciConfigWr arch state (windowAddress arch addr) data := by
  rw [pciStep, pciConfigMmioAccess]
  by_cases crossing : (addr - arch.cfgArea).toNat % 4 + data.length > 4
  · rw [if_pos crossing]
    exact congrArg Prod.snd (if_pos crossing)
  · rw [if_neg crossing]
    refine (congrArg Prod.snd (if_neg crossing)).trans ?_
    show pciConfigWr arch state _ (data.take data.length) = _
    rw [List.take_length]
    rfl

theorem guestWrite_spec {state : PciState (BarWorld vcpus)}
    {action : PciAction} {devNum offset : Nat} {data : List UInt8}
    (write : guestWrite arch state action = some (devNum, offset, data)) :
    pciStep lib arch state action = deviceConfigWr state devNum offset data ∧
      offset % 4 + data.length ≤ 4 ∧
      ∃ device, state.devices devNum = some device := by
  cases action with
  | init => cases write
  | trap => cases write
  | addressPort => cases write
  | dataPort addr access =>
      cases access with
      | read => cases write
      | write bytes =>
          rw [guestWrite] at write
          split at write
          case isFalse => cases write
          case isTrue present =>
            rw [Option.some.injEq, Prod.mk.injEq, Prod.mk.injEq] at write
            obtain ⟨rfl, rfl, rfl⟩ := write
            refine ⟨?_, ?_, exists_of_present arch present⟩
            · rw [dataPort_write, pciConfigWr, if_pos present]
            · rw [configOffset_mod_four, portAddress_mod_four,
                List.length_take]
              omega
  | window addr access =>
      cases access with
      | read => cases write
      | write bytes =>
          rw [guestWrite] at write
          split at write
          case isFalse => cases write
          case isTrue both =>
            obtain ⟨inside, present⟩ := both
            rw [Option.some.injEq, Prod.mk.injEq, Prod.mk.injEq] at write
            obtain ⟨rfl, rfl, rfl⟩ := write
            refine ⟨?_, ?_, exists_of_present arch present⟩
            · rw [window_write, if_neg (by omega), pciConfigWr,
                if_pos present]
            · rw [configOffset_mod_four, windowAddress_mod_four]
              exact inside

theorem pciStep_of_no_write {state : PciState (BarWorld vcpus)}
    {action : PciAction} (guest : action.isGuest = true)
    (write : guestWrite arch state action = none) :
    ∃ bits, pciStep lib arch state action = state.withBits bits := by
  cases action with
  | init => cases guest
  | trap => cases guest
  | addressPort addr access =>
      cases access with
      | read => exact ⟨state.configAddressBits, rfl⟩
      | write bytes => exact ⟨_, rfl⟩
  | dataPort addr access =>
      refine ⟨state.configAddressBits, ?_⟩
      cases access with
      | read => rfl
      | write bytes =>
          rw [guestWrite] at write
          split at write
          case isTrue => cases write
          case isFalse absent =>
            rw [dataPort_write, pciConfigWr, if_neg absent]
            rfl
  | window addr access =>
      refine ⟨state.configAddressBits, ?_⟩
      cases access with
      | read =>
          rw [pciStep, pciConfigMmioAccess]
          split <;> rfl
      | write bytes =>
          rw [guestWrite] at write
          split at write
          case isTrue => cases write
          case isFalse absent =>
            rw [window_write]
            split
            · rfl
            case isFalse inside =>
              have missing :
                  ¬ pciDeviceExists arch state
                      (arch.busNumber (windowAddress arch addr))
                      (arch.deviceNumber (windowAddress arch addr)) 0 =
                    true :=
                fun present => absent ⟨by omega, present⟩
              rw [pciConfigWr, if_neg missing]
              rfl

end Writes

/-! ## New devices -/

/-- The BARs of a new device. -/
def virtioBar (portAddr : UInt16) (mmioAddr msixIoBlock : UInt32) :
    Nat → UInt32
  | 0 => portAddr.toUInt32 ||| pciBaseAddressSpaceIo
  | 1 => mmioAddr
  | 2 => msixIoBlock
  | _ => 0

theorem virtioHeader_bar (config : Nat → UInt8) (portAddr : UInt16)
    (mmioAddr msixIoBlock : UInt32) {barNum : Nat} (bar : barNum < 6) :
    (virtioHeader config portAddr mmioAddr msixIoBlock).bar barNum =
      virtioBar portAddr mmioAddr msixIoBlock barNum := by
  match barNum, bar with
  | 0, _ => simp [virtioHeader, PciHeader.bar_setBar_of_ne, virtioBar]
  | 1, _ => simp [virtioHeader, PciHeader.bar_setBar_of_ne, virtioBar]
  | 2, _ => simp [virtioHeader, PciHeader.bar_setBar_of_ne, virtioBar]
  | 3, _ => simp [virtioHeader, PciHeader.bar_setBar_of_ne, virtioBar]
  | 4, _ => simp [virtioHeader, PciHeader.bar_setBar_of_ne, virtioBar]
  | 5, _ => simp [virtioHeader, virtioBar]

theorem or_and (first second mask : UInt32) :
    (first ||| second) &&& mask =
      (first &&& mask) ||| (second &&& mask) := by
  apply UInt32.eq_of_toBitVec_eq
  ext index
  simp
  grind

/-- Aligned addresses leave the type bits to the type. -/
theorem virtioBar_typed (portBase : UInt16) (mmioBase msixBase : UInt32)
    (barNum : Nat) :
    Typed barNum
      (virtioBar (portBase &&& ~~~0xff) (mmioBase &&& ~~~(pciIoSize - 1))
        (msixBase &&& ~~~(virtioMsixBarSize - 1)) barNum) := by
  match barNum with
  | 0 =>
      refine ⟨fun _ => ?_, fun memory => absurd rfl memory⟩
      have low : (~~~(0xff : UInt16)).toUInt32 &&& 0x3 = 0 := by decide
      rw [virtioBar, or_and, UInt16.toUInt32_and, UInt32.and_assoc, low,
        UInt32.and_zero]
      rfl
  | 1 =>
      refine ⟨fun ports => absurd ports (by decide), fun _ => ?_⟩
      have low : ~~~(pciIoSize - 1) &&& 0xf = 0 := by decide
      rw [virtioBar, UInt32.and_assoc, low, UInt32.and_zero]
  | 2 =>
      refine ⟨fun ports => absurd ports (by decide), fun _ => ?_⟩
      have low : ~~~(virtioMsixBarSize - 1) &&& 0xf = 0 := by decide
      rw [virtioBar, UInt32.and_assoc, low, UInt32.and_zero]
  | rest + 3 =>
      exact
        ⟨fun ports => absurd ports (Nat.succ_ne_zero _),
          fun _ => UInt32.zero_and⟩

/-- A header with BARs of the right types. -/
theorem IsVirtio.new (config : Nat → UInt8) {portAddr : UInt16}
    {mmioAddr msixIoBlock : UInt32}
    (typed : ∀ barNum,
      Typed barNum (virtioBar portAddr mmioAddr msixIoBlock barNum))
    (data : Nat) :
    IsVirtio lib
      ({ hdr := virtioHeader config portAddr mmioAddr msixIoBlock
         barActivate := virtioPciBarActivate lib
         barDeactivate := virtioPciBarDeactivate lib
         data := data } : PciDevice (BarWorld vcpus)) := by
  refine
    { activates := rfl
      deactivates := rfl
      sizes := rfl
      ioBar := ?_
      memoryBars := ?_
      inactive := fun _ _ => rfl }
  · rw [virtioHeader_bar _ _ _ _ (by decide)]
    exact (typed 0).ports rfl
  · intro barNum memory bar
    rw [virtioHeader_bar _ _ _ _ bar]
    exact (typed barNum).memory (Nat.ne_of_gt memory)

/-! ## Runs -/

section Steps

variable {state : PciState (BarWorld vcpus)} (wired : Wired lib state)

include wired

theorem Wired.configWrite {devNum : Nat}
    {after : PciState (BarWorld vcpus)}
    (write : ConfigWrite state devNum after) : Wired lib after := by
  cases write with
  | dropped => exact wired
  | command newCommand => exact wired.commandWr devNum newCommand
  | bar barNum value bound => exact wired.barWr devNum bound value
  | plain offset data outside _ =>
      exact wired.modify fun _ found => (wired.virtio found).poke outside

theorem Wired.registerLoop (devNum : Nat) (bars : List Nat) :
    Wired lib (registerLoop devNum bars state).2 := by
  induction bars generalizing state with
  | nil => exact wired
  | cons barNum rest induction =>
      rw [PciBar.registerLoop]
      split
      · exact wired
      · split
        · dsimp only
          split
          · exact wired.activate devNum barNum
          · exact induction (wired.activate devNum barNum)
        · exact induction wired

theorem Wired.addDevice (legacy : Bool) (config : Nat → UInt8) :
    Wired lib (addDevice lib state legacy config) := by
  have source : ∀ {devNum device},
      (PciBar.addDevice lib state legacy config).devices devNum =
          some device →
        devNum = state.devNum ∧ device.data = state.world.vdevs ∧
            IsVirtio lib device ∨
          state.devices devNum = some device := by
    intro devNum device found
    by_cases new : devNum = state.devNum
    · left
      subst new
      cases (Function.update_self ..).symm.trans found
      refine ⟨rfl, rfl, ?_⟩
      exact IsVirtio.new config (virtioBar_typed _ _ _) _
    · right
      exact (Function.update_of_ne new ..).symm.trans found
  refine
    { calm := wired.calm
      virtio := ?_
      numbered := ?_
      apart := ?_ }
  · intro devNum device found
    rcases source found with ⟨-, -, virtio⟩ | former
    · exact virtio
    · exact wired.virtio former
  · intro devNum device found
    rcases source found with ⟨rfl, data, -⟩ | former
    · rw [data]
      exact ⟨Nat.lt_succ_self _, Nat.lt_succ_self _⟩
    · obtain ⟨number, data⟩ := wired.numbered former
      exact ⟨Nat.lt_succ_of_lt number, Nat.lt_succ_of_lt data⟩
  · intro first second device partner found partnerFound same
    rcases source found with ⟨rfl, data, -⟩ | former
    · rcases source partnerFound with ⟨rfl, -, -⟩ | earlier
      · rfl
      · have older := (wired.numbered earlier).2
        omega
    · rcases source partnerFound with ⟨rfl, data, -⟩ | earlier
      · have older := (wired.numbered former).2
        omega
      · exact wired.apart former earlier same

omit wired in
theorem registerLoop_devNum (devNum : Nat) (bars : List Nat) :
    (PciBar.registerLoop devNum bars state).2.devNum = state.devNum := by
  induction bars generalizing state with
  | nil => rfl
  | cons barNum rest induction =>
      rw [PciBar.registerLoop]
      split
      · rfl
      · split
        · dsimp only
          split
          · exact activate_devNum state devNum barNum
          · rw [induction]
            exact activate_devNum state devNum barNum
        · exact induction

theorem Wired.init (legacy : Bool) (config : Nat → UInt8) :
    Wired lib (virtioPciInit lib state legacy config) := by
  have added :=
    (wired.addDevice legacy config).registerLoop state.devNum
      (List.range 6)
  rw [virtioPciInit]
  dsimp only
  split
  · have source : ∀ {devNum device},
        Function.update
            (PciBar.registerLoop state.devNum (List.range 6)
              (PciBar.addDevice lib state legacy config)).2.devices
            state.devNum none devNum =
          some device →
        devNum ≠ state.devNum ∧
          (PciBar.registerLoop state.devNum (List.range 6)
              (PciBar.addDevice lib state legacy config)).2.devices devNum =
            some device := by
      intro devNum device found
      by_cases new : devNum = state.devNum
      · subst new
        rw [Function.update_self] at found
        cases found
      · rw [Function.update_of_ne new] at found
        exact ⟨new, found⟩
    have last :
        (PciBar.registerLoop state.devNum (List.range 6)
          (PciBar.addDevice lib state legacy config)).2.devNum =
            state.devNum + 1 :=
      registerLoop_devNum ..
    refine
      { calm := added.calm
        virtio := fun found => added.virtio (source found).2
        numbered := ?_
        apart := fun first second =>
          added.apart (source first).2 (source second).2 }
    intro devNum device found
    obtain ⟨other, former⟩ := source found
    obtain ⟨number, data⟩ := added.numbered former
    refine ⟨?_, data⟩
    dsimp only
    omega
  · exact added

theorem Wired.step (arch : PciArch) (action : PciAction) :
    Wired lib (pciStep lib arch state action) := by
  by_cases guest : action.isGuest = true
  · cases write : guestWrite arch state action with
    | none =>
        obtain ⟨bits, run⟩ := pciStep_of_no_write arch guest write
        rw [run]
        exact
          { wired with }
    | some entry =>
        obtain ⟨run, dword, -⟩ := guestWrite_spec arch write
        rw [run]
        exact wired.configWrite (PciBar.configWrite state _ dword)
  · cases action with
    | init legacy config => exact wired.init legacy config
    | trap bus physAddr physAddrLen proper callback ptr =>
        have registered :=
          (wired.calm.register lib bus proper (callback + 3) ptr
            (state.world.mallocs state.world.asked) 0).1
        exact wired.withTraps registered _
    | addressPort => exact absurd rfl guest
    | dataPort => exact absurd rfl guest
    | window => exact absurd rfl guest

end Steps

theorem Wired.start (mmioArea : UInt32) (mallocs : Nat → Bool) :
    Wired lib
      (pciStart mmioArea mallocs : PciState (BarWorld vcpus)) where
  calm := Calm.initial
  virtio found := nomatch found
  numbered found := nomatch found
  apart found := nomatch found

/-- The state of the system after a run. -/
theorem Wired.run (arch : PciArch) (mmioArea : UInt32)
    (mallocs : Nat → Bool) (actions : List PciAction) :
    Wired lib
      (run (pciStep lib arch)
        (pciStart mmioArea mallocs : PciState (BarWorld vcpus))
        actions) := by
  have kept : ∀ (state : PciState (BarWorld vcpus)) (action : PciAction),
      Wired lib state → Wired lib (pciStep lib arch state action) :=
    fun _ action wired => wired.step arch action
  exact run_invariant_of_step kept (.start mmioArea mallocs) actions

end Wired

end Kemu.Virtio.PciBar
