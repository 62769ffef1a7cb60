import Kemu.Virtio.PciEmulation
import Kemu.Virtio.PciSizing

/-!
# The invariant of BAR emulation over runs

Devices are registered, other code registers its traps, and the guest writes
to configuration spaces.  While all of these writes fit, every implemented
BAR is active exactly if its trap is registered, at its address and with its
size, and only if its space is enabled.
-/

namespace Kemu.Virtio.PciBar

open Kemu.Init.Mmio
open Kemu.Init.Pci
open Kemu.Lib.Bytes
open Kemu.Lib.SearchTree
open Kemu.Lib.Transition
open Kemu.Util.RbtreeInterval

section Invariant

variable {vcpus : Vcpus} {lib : Rebalancer RbIntNode}

/-! ## Plain writes -/

/-- The bits that enable spaces are in the low byte. -/
theorem command_and_of_low {first second : PciHeader}
    (low : first.config pciCommand = second.config pciCommand)
    {mask : UInt16} (narrow : mask.toNat < 256) :
    first.command &&& mask = second.command &&& mask := by
  have split : ∀ hdr : PciHeader,
      (hdr.command &&& mask).toNat =
        (hdr.config pciCommand).toNat &&& mask.toNat := by
    intro hdr
    have bytes :
        ofLe (peek hdr.config pciCommand 2) =
          (hdr.config pciCommand).toNat +
            256 * ((hdr.config (pciCommand + 1)).toNat + 256 * 0) :=
      rfl
    have small := (hdr.config pciCommand).toNat_lt
    have large := (hdr.config (pciCommand + 1)).toNat_lt
    rw [UInt16.toNat_and, PciHeader.command, UInt16.toNat_ofNat', bytes,
      Nat.mod_eq_of_lt (by omega)]
    have whole := Nat.and_lt_two_pow
      ((hdr.config pciCommand).toNat +
        256 * ((hdr.config (pciCommand + 1)).toNat + 256 * 0))
      (show mask.toNat < 2 ^ 8 from narrow)
    rw [← Nat.mod_eq_of_lt whole, Nat.and_mod_two_pow,
      Nat.mod_eq_of_lt (show mask.toNat < 2 ^ 8 from narrow)]
    congr 1
    omega
  apply UInt16.toNat_inj.mp
  rw [split, split, low]

/-- A write to other bytes of a header. -/
theorem Good.plain {state : PciState (BarWorld vcpus)}
    (good : Good lib state) (devNum : Nat) {offset : Nat}
    {data : List UInt8}
    (outsideBars :
      offset + data.length ≤ pciBarOffset ∨ pciBarOffset + 24 ≤ offset)
    (outsideCommand :
      offset + data.length ≤ pciCommand ∨ pciCommand + 1 ≤ offset) :
    Good lib
      (state.modify devNum fun hdr =>
        { hdr with config := poke hdr.config offset data }) := by
  have bars : ∀ (hdr : PciHeader) (barNum : Nat), barNum < 6 →
      PciHeader.bar
          { hdr with config := poke hdr.config offset data } barNum =
        hdr.bar barNum := by
    intro hdr barNum bar
    rw [PciHeader.bar, peek_poke_disjoint, PciHeader.bar]
    omega
  have bits : ∀ (hdr : PciHeader) {mask : UInt16}, mask.toNat < 256 →
      PciHeader.command
            { hdr with config := poke hdr.config offset data } &&& mask =
        hdr.command &&& mask := by
    intro hdr mask narrow
    refine command_and_of_low ?_ narrow
    exact poke_outside hdr.config (by omega)
  refine ⟨good.matched.rewrite ?_ (fun _ => rfl) ?_, ?_⟩
  · intro device found
    exact (good.matched.wired.virtio found).poke outsideBars
  · intro device found barNum bar active
    rw [bars device.hdr barNum (by omega)]
  · intro other now barNum there bar active
    rcases modify_devices_cases there with
      ⟨rfl, device, found, rfl⟩ | ⟨-, before⟩
    · have on : device.hdr.barActive barNum = true := active
      have enabled := good.enabled found bar on
      rw [PciHeader.spaceEnabled, PciHeader.ioSpaceEnabled,
        PciHeader.memorySpaceEnabled] at enabled ⊢
      rw [bars device.hdr barNum (by omega), bits device.hdr (by decide),
        bits device.hdr (by decide)]
      exact enabled
    · exact good.enabled before bar active

/-! ## Steps of the system -/

/-- A trap that is not one of virtio is added. -/
theorem Matched.foreign {state : PciState (BarWorld vcpus)}
    (matched : Matched lib state) {traps : TrapState vcpus}
    (calm : Calm traps) {trap : Trap} (handler : 3 ≤ trap.mmioFn)
    (added : traps.traps = insert trap state.world.traps.traps)
    (asked : Nat) : Matched lib (PciBar.withTraps state traps asked) := by
  have former : ∀ {other}, other ∈ traps.traps → other.mmioFn < 3 →
      other ∈ state.world.traps.traps := by
    intro other member virtio
    rw [added, Set.mem_insert_iff] at member
    rcases member with rfl | before
    · exact absurd virtio (Nat.not_lt.mpr handler)
    · exact before
  refine
    { wired := matched.wired.withTraps calm asked
      alive := matched.alive
      backed := ?_
      owned := ?_
      known := fun member virtio =>
        matched.known (former member virtio) virtio }
  · intro devNum device barNum found bar active
    obtain ⟨member, ports⟩ := matched.backed found bar active
    refine ⟨?_, ports⟩
    show _ ∈ traps.traps
    rw [added]
    exact Set.mem_insert_of_mem _ member
  · intro devNum device barNum other found bar member owner
    have virtio : other.mmioFn < 3 := by
      rw [owner.2.1]
      exact barCallback_lt _ _
    exact matched.owned found bar (former member virtio) owner

/-- Other code registers a trap. -/
theorem Good.trap {state : PciState (BarWorld vcpus)}
    (good : Good lib state) (bus : Bus) {physAddr physAddrLen : UInt64}
    (proper : physAddr < physAddr + physAddrLen) (callback ptr : Nat) :
    Good lib
      { state with
        world :=
          (registerIotrap lib state.world bus physAddr physAddrLen
            (callback + 3) ptr).2 } := by
  obtain ⟨calm, ⟨-, -, -, added⟩ | ⟨-, -, kept⟩⟩ :=
    good.matched.wired.calm.register lib bus proper (callback + 3) ptr
      (state.world.mallocs state.world.asked) 0
  · exact
      ⟨good.matched.foreign calm (Nat.le_add_left 3 callback) added _,
        good.enabled⟩
  · exact good.withTraps calm kept _

/-- A new device has no active BAR, and no trap is its own. -/
theorem Good.addDevice {state : PciState (BarWorld vcpus)}
    (good : Good lib state) (legacy : Bool) (config : Nat → UInt8) :
    Good lib (addDevice lib state legacy config) := by
  have wired := good.matched.wired
  have source : ∀ {devNum device},
      (PciBar.addDevice lib state legacy config).devices devNum =
          some device →
        device.data = state.world.vdevs ∧
            (∀ barNum, device.hdr.barActive barNum = false) ∨
          state.devices devNum = some device := by
    intro devNum device found
    by_cases new : devNum = state.devNum
    · left
      subst new
      cases (Function.update_self ..).symm.trans found
      exact ⟨rfl, fun _ => rfl⟩
    · right
      exact (Function.update_of_ne new ..).symm.trans found
  have older : ∀ {devNum device},
      state.devices devNum = some device →
        (PciBar.addDevice lib state legacy config).world.legacy
            device.data =
          state.world.legacy device.data := by
    intro devNum device found
    have earlier := (wired.numbered found).2
    exact Function.update_of_ne (Nat.ne_of_lt earlier) ..
  have same : ∀ {devNum device}, state.devices devNum = some device →
      ∀ barNum,
        exactTrap (PciBar.addDevice lib state legacy config).world
            device.hdr barNum device.data =
          exactTrap state.world device.hdr barNum device.data := by
    intro devNum device found barNum
    rw [exactTrap, exactTrap, older found]
  have set := wired.addDevice legacy config
  refine ⟨⟨set, good.matched.alive, ?_, ?_, ?_⟩, ?_⟩
  · intro devNum device barNum found bar active
    rcases source found with ⟨-, off⟩ | former
    · rw [off barNum] at active
      cases active
    · rw [same former]
      exact good.matched.backed former bar active
  · intro devNum device barNum trap found bar member owner
    rcases source found with ⟨data, -⟩ | former
    · have virtio : trap.mmioFn < 3 := by
        rw [owner.2.1]
        exact barCallback_lt _ _
      have known := good.matched.known member virtio
      rw [owner.2.2, data] at known
      exact absurd known (Nat.lt_irrefl _)
    · rw [Owns, older former] at owner
      rw [same former]
      exact good.matched.owned former bar member owner
  · intro trap member virtio
    exact Nat.lt_succ_of_lt (good.matched.known member virtio)
  · intro devNum device barNum found bar active
    rcases source found with ⟨-, off⟩ | former
    · rw [off barNum] at active
      cases active
    · exact good.enabled former bar active

/-- The ports of a new device. -/
theorem inPorts_new (config : Nat → UInt8) (portAddr : UInt16)
    (mmioAddr msixIoBlock : UInt32) :
    InPorts (virtioHeader config portAddr mmioAddr msixIoBlock) 0 := by
  intro _
  have bound :
      (portAddr.toUInt32 ||| pciBaseAddressSpaceIo).toNat < 2 ^ 16 := by
    rw [UInt32.toNat_or, UInt16.toNat_toUInt32]
    exact Nat.or_lt_two_pow portAddr.toNat_lt (by decide)
  rw [virtioHeader_bar _ _ _ _ (by decide), virtioBar, barAddress,
    UInt32.lt_iff_toNat_lt, UInt32.toNat_and]
  exact lt_of_le_of_lt Nat.and_le_left bound

/-- The BARs of a device at its ports are turned on one after the other. -/
theorem Good.registerLoop {devNum : Nat} (bars : List Nat)
    {state : PciState (BarWorld vcpus)} (good : Good lib state)
    (ports : ∀ {device}, state.devices devNum = some device →
      InPorts device.hdr 0) :
    Good lib (registerLoop devNum bars state).2 := by
  induction bars generalizing state with
  | nil => exact good
  | cons barNum rest induction =>
      rw [PciBar.registerLoop]
      split
      · exact good
      case h_2 device found =>
        split
        case isFalse => exact induction good ports
        case isTrue both =>
          rw [Bool.and_eq_true] at both
          obtain ⟨implemented, enabled⟩ := both
          have bar :=
            ((good.matched.wired.virtio found).implemented_iff _).mp
              implemented
          have inPorts : InPorts device.hdr barNum := by
            intro zero
            rw [zero]
            exact ports found rfl
          have next := good.activate found bar enabled inPorts
          dsimp only
          split
          · exact next
          · refine induction next ?_
            intro now there
            obtain ⟨former, before, same⟩ :=
              exists_of_same_config
                (configOf_activate state devNum barNum devNum) there
            exact inPorts_congr same.symm (ports before)

/-- A device that could not be set up is given up, with its traps left. -/
theorem Good.forget {state after : PciState (BarWorld vcpus)}
    (good : Good lib state) (wired : Wired lib after)
    (source : ∀ {devNum device}, after.devices devNum = some device →
      state.devices devNum = some device)
    (world : after.world = state.world) : Good lib after := by
  refine ⟨⟨wired, ?_, ?_, ?_, ?_⟩, ?_⟩
  · rw [world]
    exact good.matched.alive
  · intro devNum device barNum found
    rw [world]
    exact good.matched.backed (source found)
  · intro devNum device barNum trap found
    rw [world]
    exact good.matched.owned (source found)
  · intro trap
    rw [world]
    exact good.matched.known
  · intro devNum device barNum found
    exact good.enabled (source found)

/-- A device is registered. -/
theorem Good.init {state : PciState (BarWorld vcpus)}
    (good : Good lib state) (legacy : Bool) (config : Nat → UInt8) :
    Good lib (virtioPciInit lib state legacy config) := by
  have ports : ∀ {device},
      (PciBar.addDevice lib state legacy config).devices state.devNum =
          some device →
        InPorts device.hdr 0 := by
    intro device found
    cases (Function.update_self ..).symm.trans found
    exact inPorts_new _ _ _ _
  have added :=
    (good.addDevice legacy config).registerLoop (List.range 6) ports
  have wired := good.matched.wired.init legacy config
  rw [virtioPciInit] at wired ⊢
  dsimp only at wired ⊢
  split
  case isTrue failure =>
    rw [if_pos failure] at wired
    refine added.forget wired ?_ rfl
    intro devNum device found
    by_cases new : devNum = state.devNum
    · subst new
      cases (Function.update_self ..).symm.trans found
    · exact (Function.update_of_ne new ..).symm.trans found
  · exact added

theorem Good.start (mmioArea : UInt32) (mallocs : Nat → Bool) :
    Good lib (pciStart mmioArea mallocs : PciState (BarWorld vcpus)) := by
  have empty : ∀ {trap : Trap},
      trap ∉ (@TrapState.initial vcpus).traps := by
    rintro trap ⟨obj, mmio, live, -⟩
    cases live
  refine ⟨⟨.start mmioArea mallocs, rfl, ?_, ?_, ?_⟩, ?_⟩
  · intro devNum device barNum found
    cases found
  · intro devNum device barNum trap found
    cases found
  · intro trap member
    exact absurd member empty
  · intro devNum device barNum found
    cases found

/-! ## Writes that fit -/

/-- What a write to a configuration space may be. -/
def WriteFits (state : PciState (BarWorld vcpus)) (devNum : Nat)
    (device : PciDevice (BarWorld vcpus)) (offset : Nat)
    (data : List UInt8) : Prop :=
  let mask := ofLe (peek pciConfigWritable offset data.length)
  if offset < pciStdHeaderSizeof ∧ mask = 0 then
    True
  else if offset = pciCommand then
    CommandFits device.hdr (UInt16.ofNat (ofLe data) &&& UInt16.ofNat mask)
  else if barIndex offset < 6 then
    BarWriteFits state devNum device (barIndex offset)
      (UInt32.ofNat (ofLe data))
  else
    True

/-- The write that an action makes, if it makes one, fits. -/
def ActionFits (arch : PciArch) (state : PciState (BarWorld vcpus))
    (action : PciAction) : Prop :=
  ∀ devNum offset data,
    guestWrite arch state action = some (devNum, offset, data) →
    ∀ device, state.devices devNum = some device →
      WriteFits state devNum device offset data

theorem Good.configWr {state : PciState (BarWorld vcpus)}
    (good : Good lib state) {devNum offset : Nat} {data : List UInt8}
    (dword : offset % 4 + data.length ≤ 4)
    {device : PciDevice (BarWorld vcpus)}
    (found : state.devices devNum = some device)
    (fits : WriteFits state devNum device offset data) :
    Good lib (deviceConfigWr state devNum offset data) := by
  rw [WriteFits] at fits
  rw [deviceConfigWr]
  split
  · exact good
  case isFalse writable =>
    rw [if_neg writable] at fits
    split
    case isTrue command =>
      rw [if_pos command] at fits
      exact good.commandWr found fits
    case isFalse notCommand =>
      rw [if_neg notCommand] at fits
      split
      case isTrue bar =>
        rw [if_pos bar] at fits
        exact good.barWr found bar fits
      case isFalse notBar =>
        have outside : ¬ inBars offset := fun inside =>
          notBar (barIndex_inBars inside).1
        rw [inBars, pciBarOffset] at outside
        rw [pciCommand] at notCommand
        refine good.plain devNum ?_ ?_
        · rw [pciBarOffset]
          omega
        · rw [pciCommand]
          omega

theorem Good.step {arch : PciArch} {state : PciState (BarWorld vcpus)}
    (good : Good lib state) {action : PciAction}
    (fits : ActionFits arch state action) :
    Good lib (pciStep lib arch state action) := by
  by_cases guest : action.isGuest = true
  · cases write : guestWrite arch state action with
    | none =>
        obtain ⟨bits, run⟩ := pciStep_of_no_write arch guest write
        have wired := good.matched.wired.step arch action
        rw [run] at wired ⊢
        exact good.forget wired (fun found => found) rfl
    | some entry =>
        obtain ⟨devNum, offset, data⟩ := entry
        obtain ⟨run, dword, device, found⟩ := guestWrite_spec arch write
        rw [run]
        exact
          good.configWr dword found
            (fits devNum offset data write device found)
  · cases action with
    | init legacy config => exact good.init legacy config
    | trap bus physAddr physAddrLen proper callback ptr =>
        exact good.trap bus proper callback ptr
    | addressPort => exact absurd rfl guest
    | dataPort => exact absurd rfl guest
    | window => exact absurd rfl guest

/-! ## Runs -/

/--
No assertion failed, and each implemented BAR of each device is active only
if its space is enabled, has a trap exactly if it is active, and no other
one than at its address and with its size.
-/
structure BarsSound (state : PciState (BarWorld vcpus)) : Prop where
  alive : state.world.aborted = false
  enabled :
    ∀ {devNum device barNum}, state.devices devNum = some device →
      device.hdr.barIsImplemented barNum = true →
      device.hdr.barActive barNum = true →
      device.hdr.spaceEnabled barNum = true
  trapped :
    ∀ {devNum device barNum}, state.devices devNum = some device →
      device.hdr.barIsImplemented barNum = true →
      ((∃ trap ∈ state.world.traps.traps,
          Owns state.world device barNum trap) ↔
        device.hdr.barActive barNum = true)
  exact :
    ∀ {devNum device barNum trap}, state.devices devNum = some device →
      device.hdr.barIsImplemented barNum = true →
      trap ∈ state.world.traps.traps →
      Owns state.world device barNum trap →
      trap = exactTrap state.world device.hdr barNum device.data

theorem Good.sound {state : PciState (BarWorld vcpus)}
    (good : Good lib state) : BarsSound state := by
  have implemented : ∀ {devNum device barNum},
      state.devices devNum = some device →
      device.hdr.barIsImplemented barNum = true → barNum < 3 := by
    intro devNum device barNum found
    exact ((good.matched.wired.virtio found).implemented_iff barNum).mp
  refine ⟨good.matched.alive, ?_, ?_, ?_⟩
  · intro devNum device barNum found present
    exact good.enabled found (implemented found present)
  · intro devNum device barNum found present
    have bar := implemented found present
    constructor
    · rintro ⟨trap, member, owner⟩
      exact (good.matched.owned found bar member owner).1
    · intro active
      exact
        ⟨_, (good.matched.backed found bar active).1,
          owns_exactTrap state.world device barNum⟩
  · intro devNum device barNum trap found present member owner
    have bar := implemented found present
    exact (good.matched.owned found bar member owner).2

/--
In every run whose writes fit, the BARs are sound in every state.
-/
theorem bars_sound_throughout (lib : Rebalancer RbIntNode)
    (arch : PciArch) (mmioArea : UInt32) (mallocs : Nat → Bool)
    (actions : List PciAction)
    (fits :
      Along (pciStep lib arch) (ActionFits arch)
        (pciStart mmioArea mallocs : PciState (BarWorld vcpus)) actions) :
    Throughout (pciStep lib arch) BarsSound
      (pciStart mmioArea mallocs : PciState (BarWorld vcpus)) actions := by
  have visible : ∀ state : PciState (BarWorld vcpus),
      Good lib state → BarsSound state :=
    fun _ good => good.sound
  have kept : ∀ (state : PciState (BarWorld vcpus)) (action : PciAction),
      Good lib state → ActionFits arch state action →
        Good lib (pciStep lib arch state action) :=
    fun _ _ good fit => good.step fit
  exact throughout_of_along visible kept (.start mmioArea mallocs) fits

end Invariant

/-! ## A machine with one device -/

theorem actionFits_of_write {vcpus : Vcpus} {arch : PciArch}
    {state : PciState (BarWorld vcpus)} {action : PciAction}
    {devNum offset : Nat} {data : List UInt8}
    (write : guestWrite arch state action = some (devNum, offset, data))
    (fits : ∀ device, state.devices devNum = some device →
      WriteFits state devNum device offset data) :
    ActionFits arch state action := by
  intro number place bytes same
  cases write.symm.trans same
  exact fits

/--
Decoding is disabled, the memory BAR moved, and decoding enabled again.
-/
def relocation : List PciAction :=
  [.window 0xd1000004 (.write [0, 0]),
    .window 0xd1000014 (.write [0, 0, 0, 0xd3]),
    .window 0xd1000004 (.write [3, 0])]

/-- A BAR is moved while the device is disabled. -/
theorem bars_sound_on_relocation :
    Throughout (pciStep (.plain _) ⟨false, 0xd1000000⟩) BarsSound
      (pciStart 0xd2000000 (fun _ => true) : PciState (BarWorld oneVcpu))
      (.init false (fun _ => 0) :: relocation) := by
  apply bars_sound_throughout
  have first :
      guestWrite ⟨false, 0xd1000000⟩ (oneDevice (relocation.take 0))
          (.window 0xd1000004 (.write [0, 0])) =
        some (0, 4, [0, 0]) := by
    decide +kernel
  have second :
      guestWrite ⟨false, 0xd1000000⟩ (oneDevice (relocation.take 1))
          (.window 0xd1000014 (.write [0, 0, 0, 0xd3])) =
        some (0, 0x14, [0, 0, 0, 0xd3]) := by
    decide +kernel
  have third :
      guestWrite ⟨false, 0xd1000000⟩ (oneDevice (relocation.take 2))
          (.window 0xd1000004 (.write [3, 0])) =
        some (0, 4, [3, 0]) := by
    decide +kernel
  refine
    ⟨fun _ _ _ write => (nomatch write), actionFits_of_write first ?_,
      actionFits_of_write second ?_, actionFits_of_write third ?_, trivial⟩
  · intro device _
    rw [WriteFits, if_neg (by decide), if_pos (by decide)]
    intro _ set
    exact absurd rfl set
  · intro device found
    rw [WriteFits, if_neg (by decide), if_neg (by decide),
      if_pos (by decide), BarWriteFits, if_neg (by decide)]
    intro enabled
    have disabled :
        ((oneDevice (relocation.take 1)).devices 0).map
            (fun device => device.hdr.spaceEnabled (barIndex 0x14)) =
          some false := by
      decide +kernel
    have there :
        (oneDevice (relocation.take 1)).devices 0 = some device :=
      found
    rw [there, Option.map_some, enabled] at disabled
    cases disabled
  · intro device found
    rw [WriteFits, if_neg (by decide), if_pos (by decide)]
    intro _ _ _
    have ports :
        ((oneDevice (relocation.take 2)).devices 0).map
            (fun device =>
              decide (barAddress (device.hdr.bar 0) < 0x10000)) =
          some true := by
      decide +kernel
    have there :
        (oneDevice (relocation.take 2)).devices 0 = some device :=
      found
    rw [there, Option.map_some, Option.some.injEq, decide_eq_true_eq]
      at ports
    exact ports

/--
Sizing the active memory BAR leaves its trap at the address it had, where it
no longer is.
-/
theorem sizing_leaves_trap_behind :
    ¬ ∀ actions : List PciAction,
      Throughout (pciStep (.plain _) ⟨false, 0xd1000000⟩) BarsSound
        (pciStart 0xd2000000 (fun _ => true) :
          PciState (BarWorld oneVcpu))
        actions := by
  intro always
  have sound : BarsSound
      (oneDevice [.window 0xd1000014 (.write [0xff, 0xff, 0xff, 0xff])]) :=
    (always
      [.init false (fun _ => 0),
        .window 0xd1000014 (.write [0xff, 0xff, 0xff, 0xff])]).2.2
  generalize sized :
    oneDevice [.window 0xd1000014 (.write [0xff, 0xff, 0xff, 0xff])] =
      state at sound
  have header :
      (state.devices 0).map
          (fun device =>
            (device.hdr.barIsImplemented 1, device.hdr.barActive 1,
              barAddress (device.hdr.bar 1))) =
        some (true, true, 0xffffff00) := by
    rw [← sized]
    decide +kernel
  have lows :
      0xffffff00 ∉
        (state.world.traps.root .mmio).inorder.map (fun node => node.low) := by
    rw [← sized]
    decide +kernel
  rw [Option.map_eq_some_iff] at header
  obtain ⟨device, found, facts⟩ := header
  rw [Prod.mk.injEq, Prod.mk.injEq] at facts
  obtain ⟨implemented, active, address⟩ := facts
  obtain ⟨trap, member, owner⟩ :=
    (sound.trapped found implemented).mpr active
  have place := sound.exact found implemented member owner
  obtain ⟨obj, mmio, -, node, equal⟩ := member
  have bus : trap.bus = .mmio := owner.1
  rw [bus] at node equal
  have low : mmio.node.low = 0xffffff00 := by
    have whole := congrArg Trap.low (equal.trans place)
    rw [exactTrap, address] at whole
    exact whole
  exact lows (List.mem_map.mpr ⟨mmio.node, node, low⟩)

end Kemu.Virtio.PciBar
