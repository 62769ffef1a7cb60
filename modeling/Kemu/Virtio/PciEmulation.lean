import Kemu.Virtio.PciWired

/-!
# Active BARs and their traps

A BAR is active exactly if its trap is registered, at its address and with
its size, and only while its space is enabled.  This holds as long as the
guest sizes no active BAR, no write turns on a BAR whose space is disabled,
and no I/O BAR is turned on beyond the ports.
-/

namespace Kemu.Virtio.PciBar

open Kemu.Init.Mmio
open Kemu.Init.Pci
open Kemu.Lib.Bytes
open Kemu.Lib.SearchTree
open Kemu.Lib.Transition
open Kemu.Util.RbtreeInterval

section Emulation

variable {vcpus : Vcpus}

/-! ## Owners -/

/-- The trap of a BAR at its address and with its size. -/
def exactTrap (world : BarWorld vcpus) (hdr : PciHeader)
    (barNum vdev : Nat) : Trap where
  bus := barBus barNum
  low := (barAddress (hdr.bar barNum)).toUInt64
  high :=
    (barAddress (hdr.bar barNum)).toUInt64 +
      (hdr.barSize barNum).toUInt64
  mmioFn := barCallback (world.legacy vdev) barNum
  ptr := vdev

/-- A trap has the bus, the callback and the argument of a BAR. -/
def Owns (world : BarWorld vcpus) (device : PciDevice (BarWorld vcpus))
    (barNum : Nat) (trap : Trap) : Prop :=
  trap.bus = barBus barNum ∧
    trap.mmioFn = barCallback (world.legacy device.data) barNum ∧
    trap.ptr = device.data

/-- An I/O BAR is at ports that there are. -/
def InPorts (hdr : PciHeader) (barNum : Nat) : Prop :=
  barNum = 0 → barAddress (hdr.bar barNum) < 0x10000

theorem owns_exactTrap (world : BarWorld vcpus)
    (device : PciDevice (BarWorld vcpus)) (barNum : Nat) :
    Owns world device barNum
      (exactTrap world device.hdr barNum device.data) :=
  ⟨rfl, rfl, rfl⟩

theorem trapLow_of_inPorts {hdr : PciHeader} {barNum : Nat}
    (ports : InPorts hdr barNum) :
    trapLow hdr barNum = (barAddress (hdr.bar barNum)).toUInt64 := by
  rw [trapLow]
  split
  case isTrue zero =>
    have small := UInt32.lt_iff_toNat_lt.mp (ports zero)
    apply UInt64.toNat_inj.mp
    rw [UInt16.toNat_toUInt64, UInt32.toNat_toUInt16,
      UInt32.toNat_toUInt64]
    exact Nat.mod_eq_of_lt small
  · rfl

theorem barTrap_of_inPorts (world : BarWorld vcpus) {hdr : PciHeader}
    {barNum : Nat} (ports : InPorts hdr barNum) (vdev : Nat) :
    barTrap world hdr barNum vdev = exactTrap world hdr barNum vdev := by
  rw [barTrap, exactTrap, trapLow_of_inPorts ports]

/-- The trap of a BAR comes from its register, its size and the device. -/
theorem exactTrap_congr {world other : BarWorld vcpus}
    {hdr header : PciHeader} {barNum : Nat}
    (legacy : other.legacy = world.legacy)
    (register : header.bar barNum = hdr.bar barNum)
    (sizes : header.barSize = hdr.barSize) (vdev : Nat) :
    exactTrap other header barNum vdev = exactTrap world hdr barNum vdev := by
  rw [exactTrap, exactTrap, legacy, register, sizes]

theorem barNum_unique (legacy : Bool) :
    ∀ barNum < 3, ∀ other < 3, barBus barNum = barBus other →
      barCallback legacy barNum = barCallback legacy other →
        barNum = other := by
  cases legacy <;> decide

/-- BARs with a common trap are the same BAR. -/
theorem Owns.unique {world : BarWorld vcpus}
    {device second : PciDevice (BarWorld vcpus)} {barNum other : Nat}
    (bar : barNum < 3) (otherBar : other < 3) {trap : Trap}
    (owner : Owns world device barNum trap)
    (rival : Owns world second other trap) :
    device.data = second.data ∧ barNum = other := by
  obtain ⟨bus, callback, ptr⟩ := owner
  obtain ⟨otherBus, otherCallback, otherPtr⟩ := rival
  have data : device.data = second.data := ptr.symm.trans otherPtr
  refine ⟨data, ?_⟩
  have buses : barBus barNum = barBus other := bus.symm.trans otherBus
  have callbacks := callback.symm.trans otherCallback
  rw [data] at callbacks
  exact barNum_unique _ barNum bar other otherBar buses callbacks

theorem barCallback_lt (legacy : Bool) (barNum : Nat) :
    barCallback legacy barNum < 3 := by
  rw [barCallback]
  split
  · decide
  · cases legacy <;> decide

/-! ## Turning BARs off -/

/--
BARs were turned off: the bytes of the headers are the same, no BAR was
turned on, those that are `gone` are off, and only their traps are missing.
-/
structure Quieter (state after : PciState (BarWorld vcpus))
    (gone : Nat → Nat → Prop) : Prop where
  config : ∀ devNum, after.configOf devNum = state.configOf devNum
  source :
    ∀ {devNum now}, after.devices devNum = some now →
      ∃ device, state.devices devNum = some device ∧
        now.data = device.data ∧
        (∀ barNum, now.hdr.barActive barNum = true →
          device.hdr.barActive barNum = true) ∧
        ∀ barNum, gone devNum barNum → now.hdr.barActive barNum = false
  mallocs : after.world.mallocs = state.world.mallocs
  asked : after.world.asked = state.world.asked
  legacy : after.world.legacy = state.world.legacy
  devNum : after.devNum = state.devNum
  fewer : after.world.traps.traps ⊆ state.world.traps.traps
  missing :
    ∀ {trap}, trap ∈ state.world.traps.traps →
      trap ∉ after.world.traps.traps →
      ∃ devNum device barNum, gone devNum barNum ∧ barNum < 3 ∧
        state.devices devNum = some device ∧
        Owns state.world device barNum trap

/-- Nothing has to be turned off. -/
theorem Quieter.still {state : PciState (BarWorld vcpus)}
    {gone : Nat → Nat → Prop}
    (off : ∀ {devNum device}, state.devices devNum = some device →
      ∀ barNum, gone devNum barNum →
        device.hdr.barActive barNum = false) :
    Quieter state state gone where
  config _ := rfl
  source found := ⟨_, found, rfl, fun _ active => active, off found⟩
  mallocs := rfl
  asked := rfl
  legacy := rfl
  devNum := rfl
  fewer := subset_rfl
  missing member absent := absurd member absent

/-- One BAR is turned off. -/
theorem Quieter.one {state : PciState (BarWorld vcpus)} {devNum : Nat}
    {device : PciDevice (BarWorld vcpus)}
    (found : state.devices devNum = some device) {barNum : Nat}
    (bar : barNum < 3) {traps : TrapState vcpus} {trap : Trap}
    (owner : Owns state.world device barNum trap)
    (rest : traps.traps = state.world.traps.traps \ {trap}) :
    Quieter state
      ((withTraps state traps state.world.asked).modify devNum fun hdr =>
        hdr.setActive barNum false)
      fun other otherBar => other = devNum ∧ otherBar = barNum := by
  refine
    { config := ?_
      source := ?_
      mallocs := rfl
      asked := rfl
      legacy := rfl
      devNum := rfl
      fewer := ?_
      missing := ?_ }
  · intro other
    exact configOf_modify_private _ devNum other fun _ => rfl
  · intro other now there
    rcases modify_devices_cases there with
      ⟨rfl, former, before, rfl⟩ | ⟨different, before⟩
    · refine ⟨former, before, rfl, ?_, ?_⟩
      · intro otherBar active
        by_cases same : otherBar = barNum
        · subst same
          have off : Function.update former.hdr.barActive otherBar false
              otherBar = true := active
          rw [Function.update_self] at off
          cases off
        · exact (Function.update_of_ne same ..).symm.trans active
      · rintro otherBar ⟨-, rfl⟩
        exact Function.update_self ..
    · refine ⟨now, before, rfl, fun _ active => active, ?_⟩
      rintro otherBar ⟨same, -⟩
      exact absurd same different
  · intro other member
    have inside : other ∈ traps.traps := member
    rw [rest] at inside
    exact inside.1
  · intro other member absent
    have outside : other ∉ traps.traps := absent
    rw [rest, Set.mem_sdiff, Set.mem_singleton_iff, not_and, not_not]
      at outside
    refine ⟨devNum, device, barNum, ⟨rfl, rfl⟩, bar, found, ?_⟩
    rw [outside member]
    exact owner

theorem Quieter.trans {state middle after : PciState (BarWorld vcpus)}
    {first second : Nat → Nat → Prop} (before : Quieter state middle first)
    (behind : Quieter middle after second) :
    Quieter state after
      fun devNum barNum => first devNum barNum ∨ second devNum barNum := by
  refine
    { config := fun devNum => (behind.config devNum).trans
        (before.config devNum)
      source := ?_
      mallocs := behind.mallocs.trans before.mallocs
      asked := behind.asked.trans before.asked
      legacy := behind.legacy.trans before.legacy
      devNum := behind.devNum.trans before.devNum
      fewer := behind.fewer.trans before.fewer
      missing := ?_ }
  · intro devNum now found
    obtain ⟨between, there, data, active, off⟩ := behind.source found
    obtain ⟨device, earlier, formerData, formerActive, formerOff⟩ :=
      before.source there
    refine
      ⟨device, earlier, data.trans formerData,
        fun barNum on => formerActive barNum (active barNum on), ?_⟩
    rintro barNum (gone | gone)
    · by_contra on
      rw [Bool.not_eq_false] at on
      have off := formerOff barNum gone
      rw [active barNum on] at off
      cases off
    · exact off barNum gone
  · intro trap member absent
    by_cases between : trap ∈ middle.world.traps.traps
    · obtain ⟨devNum, device, barNum, gone, bar, found, owner⟩ :=
        behind.missing between absent
      obtain ⟨former, there, data, -⟩ := before.source found
      refine
        ⟨devNum, former, barNum, Or.inr gone, bar, there, ?_⟩
      rw [Owns, before.legacy, data] at owner
      exact owner
    · obtain ⟨devNum, device, barNum, gone, bar, found, owner⟩ :=
        before.missing member between
      exact ⟨devNum, device, barNum, Or.inl gone, bar, found, owner⟩

variable (lib : Rebalancer RbIntNode)

/--
No assertion failed, an active BAR has its trap at its ports or memory, and
a trap that a BAR owns is this one, of an active BAR.  Virtio's own traps
are those of devices that were set up.
-/
structure Matched (state : PciState (BarWorld vcpus)) : Prop where
  wired : Wired lib state
  alive : state.world.aborted = false
  backed :
    ∀ {devNum device barNum}, state.devices devNum = some device →
      barNum < 3 → device.hdr.barActive barNum = true →
      exactTrap state.world device.hdr barNum device.data ∈
          state.world.traps.traps ∧
        InPorts device.hdr barNum
  owned :
    ∀ {devNum device barNum trap}, state.devices devNum = some device →
      barNum < 3 → trap ∈ state.world.traps.traps →
      Owns state.world device barNum trap →
      device.hdr.barActive barNum = true ∧
        trap = exactTrap state.world device.hdr barNum device.data
  known :
    ∀ {trap}, trap ∈ state.world.traps.traps → trap.mmioFn < 3 →
      trap.ptr < state.world.vdevs

variable {lib}

section Steps

variable {state : PciState (BarWorld vcpus)} (matched : Matched lib state)

include matched

/-- The same traps in another order of allocation. -/
theorem Matched.withTraps {traps : TrapState vcpus} (calm : Calm traps)
    (same : traps.traps = state.world.traps.traps) (asked : Nat) :
    Matched lib (withTraps state traps asked) := by
  refine
    { wired := matched.wired.withTraps calm asked
      alive := matched.alive
      backed := ?_
      owned := ?_
      known := ?_ }
  · intro devNum device barNum found bar active
    obtain ⟨member, ports⟩ := matched.backed found bar active
    exact ⟨same.symm ▸ member, ports⟩
  · intro devNum device barNum trap found bar member owner
    exact matched.owned found bar (same ▸ member) owner
  · intro trap member virtio
    exact matched.known (same ▸ member) virtio

/-- A trap has one owner. -/
theorem Matched.owner_unique {devNum other : Nat}
    {device second : PciDevice (BarWorld vcpus)}
    (found : state.devices devNum = some device)
    (there : state.devices other = some second) {barNum otherBar : Nat}
    (bar : barNum < 3) (bound : otherBar < 3) {trap : Trap}
    (owner : Owns state.world device barNum trap)
    (rival : Owns state.world second otherBar trap) :
    devNum = other ∧ barNum = otherBar := by
  obtain ⟨data, same⟩ := owner.unique bar bound rival
  exact ⟨matched.wired.apart found there data, same⟩

/-- A BAR is turned off and its trap removed. -/
theorem Matched.turnOff {devNum : Nat}
    {device : PciDevice (BarWorld vcpus)}
    (found : state.devices devNum = some device) {barNum : Nat}
    (bar : barNum < 3) {traps : TrapState vcpus} (calm : Calm traps)
    (rest :
      traps.traps =
        state.world.traps.traps \
          {exactTrap state.world device.hdr barNum device.data})
    (asked : Nat) :
    Matched lib
      ((PciBar.withTraps state traps asked).modify devNum fun hdr =>
        hdr.setActive barNum false) := by
  have wired := matched.wired
  have own := owns_exactTrap state.world device barNum
  have kept : ∀ {other second otherBar},
      state.devices other = some second → otherBar < 3 →
      ¬ (other = devNum ∧ otherBar = barNum) →
      exactTrap state.world second.hdr otherBar second.data ∈
          state.world.traps.traps →
      exactTrap state.world second.hdr otherBar second.data ∈
        traps.traps := by
    intro other second otherBar there bound different member
    rw [rest]
    refine ⟨member, ?_⟩
    intro same
    have rival := owns_exactTrap state.world second otherBar
    rw [Set.mem_singleton_iff.mp same] at rival
    exact different (matched.owner_unique there found bound bar rival own)
  refine
    { wired := (wired.withTraps calm asked).setActive devNum bar false
      alive := matched.alive
      backed := ?_
      owned := ?_
      known := ?_ }
  · intro other now otherBar there bound active
    rcases modify_devices_cases there with
      ⟨rfl, former, before, rfl⟩ | ⟨different, before⟩
    · cases found.symm.trans before
      by_cases same : otherBar = barNum
      · subst same
        have off : Function.update device.hdr.barActive otherBar false
            otherBar = true := active
        rw [Function.update_self] at off
        cases off
      · have on : device.hdr.barActive otherBar = true :=
          (Function.update_of_ne same ..).symm.trans active
        obtain ⟨member, ports⟩ := matched.backed found bound on
        have stays := kept found bound (fun both => same both.2) member
        exact ⟨stays, ports⟩
    · obtain ⟨member, ports⟩ := matched.backed before bound active
      exact
        ⟨kept before bound (fun both => different both.1) member, ports⟩
  · intro other now otherBar trap there bound member owner
    have inside : trap ∈ traps.traps := member
    rw [rest] at inside
    obtain ⟨former, notOwn⟩ := inside
    rcases modify_devices_cases there with
      ⟨rfl, _, before, rfl⟩ | ⟨different, before⟩
    · cases found.symm.trans before
      obtain ⟨active, exact'⟩ := matched.owned found bound former owner
      have different : otherBar ≠ barNum := by
        rintro rfl
        exact notOwn exact'
      exact ⟨(Function.update_of_ne different ..).trans active, exact'⟩
    · exact matched.owned before bound former owner
  · intro trap member virtio
    have inside : trap ∈ traps.traps := member
    rw [rest] at inside
    exact matched.known inside.1 virtio

/-- A BAR is turned on and its trap added. -/
theorem Matched.turnOn {devNum : Nat}
    {device : PciDevice (BarWorld vcpus)}
    (found : state.devices devNum = some device) {barNum : Nat}
    (bar : barNum < 3) (ports : InPorts device.hdr barNum)
    {traps : TrapState vcpus} (calm : Calm traps)
    (added :
      traps.traps =
        insert (exactTrap state.world device.hdr barNum device.data)
          state.world.traps.traps)
    (asked : Nat) :
    Matched lib
      ((PciBar.withTraps state traps asked).modify devNum fun hdr =>
        hdr.setActive barNum true) := by
  have wired := matched.wired
  have own := owns_exactTrap state.world device barNum
  refine
    { wired := (wired.withTraps calm asked).setActive devNum bar true
      alive := matched.alive
      backed := ?_
      owned := ?_
      known := ?_ }
  · intro other now otherBar there bound active
    show exactTrap state.world now.hdr otherBar now.data ∈ traps.traps ∧ _
    rw [added]
    rcases modify_devices_cases there with
      ⟨rfl, former, before, rfl⟩ | ⟨different, before⟩
    · cases found.symm.trans before
      by_cases same : otherBar = barNum
      · subst same
        exact ⟨Set.mem_insert _ _, ports⟩
      · have on : device.hdr.barActive otherBar = true :=
          (Function.update_of_ne same ..).symm.trans active
        obtain ⟨member, inPorts⟩ := matched.backed found bound on
        exact ⟨Set.mem_insert_of_mem _ member, inPorts⟩
    · obtain ⟨member, inPorts⟩ := matched.backed before bound active
      exact ⟨Set.mem_insert_of_mem _ member, inPorts⟩
  · intro other now otherBar trap there bound member owner
    have inside : trap ∈ traps.traps := member
    rw [added, Set.mem_insert_iff] at inside
    rcases modify_devices_cases there with
      ⟨rfl, _, before, rfl⟩ | ⟨different, before⟩
    · cases found.symm.trans before
      rcases inside with rfl | former
      · obtain ⟨-, rfl⟩ :=
          matched.owner_unique found found bar bound own owner
        exact ⟨Function.update_self .., rfl⟩
      · obtain ⟨active, exact'⟩ := matched.owned found bound former owner
        refine ⟨?_, exact'⟩
        show Function.update device.hdr.barActive barNum true otherBar = _
        by_cases same : otherBar = barNum
        · rw [same, Function.update_self]
        · rw [Function.update_of_ne same]
          exact active
    · rcases inside with rfl | former
      · have same :=
          matched.owner_unique before found bound bar owner own
        exact absurd same.1 different
      · exact matched.owned before bound former owner
  · intro trap member virtio
    have inside : trap ∈ traps.traps := member
    rw [added, Set.mem_insert_iff] at inside
    rcases inside with rfl | former
    · exact (wired.numbered found).2
    · exact matched.known former virtio

/-- A write to a header that moves no active BAR. -/
theorem Matched.rewrite {devNum : Nat} {change : PciHeader → PciHeader}
    (virtio : ∀ device, state.devices devNum = some device →
      IsVirtio lib { device with hdr := change device.hdr })
    (activity : ∀ hdr, (change hdr).barActive = hdr.barActive)
    (addresses : ∀ device, state.devices devNum = some device →
      ∀ barNum < 3, device.hdr.barActive barNum = true →
        barAddress ((change device.hdr).bar barNum) =
          barAddress (device.hdr.bar barNum)) :
    Matched lib (state.modify devNum change) := by
  have same : ∀ device, state.devices devNum = some device →
      ∀ barNum < 3, device.hdr.barActive barNum = true →
        exactTrap state.world (change device.hdr) barNum device.data =
          exactTrap state.world device.hdr barNum device.data := by
    intro device found barNum bar active
    have sizes : (change device.hdr).barSize = device.hdr.barSize :=
      (virtio device found).sizes.trans
        (matched.wired.virtio found).sizes.symm
    rw [exactTrap, exactTrap, addresses device found barNum bar active,
      sizes]
  refine
    { wired := matched.wired.modify virtio
      alive := matched.alive
      backed := ?_
      owned := ?_
      known := matched.known }
  · intro other now barNum there bar active
    rcases modify_devices_cases there with
      ⟨rfl, device, found, rfl⟩ | ⟨-, before⟩
    · have on : device.hdr.barActive barNum = true := by
        rw [← activity device.hdr]
        exact active
      obtain ⟨member, ports⟩ := matched.backed found bar on
      refine ⟨?_, ?_⟩
      · exact (same device found barNum bar on).symm ▸ member
      · intro zero
        exact (addresses device found barNum bar on).symm ▸ ports zero
    · exact matched.backed before bar active
  · intro other now barNum trap there bar member owner
    rcases modify_devices_cases there with
      ⟨rfl, device, found, rfl⟩ | ⟨-, before⟩
    · obtain ⟨active, exact'⟩ := matched.owned found bar member owner
      refine ⟨?_, ?_⟩
      · exact (congrFun (activity device.hdr) barNum).trans active
      · exact exact'.trans (same device found barNum bar active).symm
    · exact matched.owned before bar member owner

/-- The trap of an active BAR is found. -/
theorem Matched.covers {devNum : Nat}
    {device : PciDevice (BarWorld vcpus)}
    (found : state.devices devNum = some device) {barNum : Nat}
    (bar : barNum < 3) (active : device.hdr.barActive barNum = true) :
    exactTrap state.world device.hdr barNum device.data ∈
        state.world.traps.traps ∧
      (exactTrap state.world device.hdr barNum device.data).Covers
        (barBus barNum) (trapLow device.hdr barNum) := by
  obtain ⟨member, ports⟩ := matched.backed found bar active
  refine ⟨member, rfl, ?_, ?_⟩
  · rw [trapLow_of_inPorts ports]
    exact UInt64.le_refl _
  · rw [trapLow_of_inPorts ports]
    exact matched.wired.calm.low_lt_high member

/-- A BAR is turned off, and the answer is not an error. -/
theorem Matched.deactivate {devNum : Nat}
    {device : PciDevice (BarWorld vcpus)}
    (found : state.devices devNum = some device) {barNum : Nat}
    (bar : barNum < 3) :
    0 ≤ (pciDeactivateBar state devNum barNum).1 ∧
      Matched lib (pciDeactivateBar state devNum barNum).2 ∧
      Quieter state (pciDeactivateBar state devNum barNum).2
        fun other otherBar => other = devNum ∧ otherBar = barNum := by
  cases result : pciDeactivateBar state devNum barNum with
  | mk r after =>
      have spec := deactivation matched.wired found bar
      rw [result] at spec
      cases spec with
      | already inactive =>
          refine ⟨le_refl 0, matched, Quieter.still ?_⟩
          rintro other second there otherBar ⟨rfl, rfl⟩
          cases found.symm.trans there
          exact inactive
      | removed success active calm member covers rest =>
          obtain ⟨own, ownCovers⟩ := matched.covers found bar active
          cases matched.wired.calm.unique member own covers ownCovers
          refine ⟨success, matched.turnOff found bar calm rest _, ?_⟩
          exact Quieter.one found bar (owns_exactTrap ..) rest
      | missed _ active missing =>
          obtain ⟨own, covers⟩ := matched.covers found bar active
          exact absurd covers (missing _ own)
      | failed _ active missing =>
          obtain ⟨own, covers⟩ := matched.covers found bar active
          exact absurd covers (missing _ own)

end Steps

/-- A device has a BAR that meets a region. -/
def MeetsAt (state : PciState (BarWorld vcpus)) (start size : UInt32)
    (devNum barNum : Nat) : Prop :=
  ∃ device, state.devices devNum = some device ∧
    regionsMeet (barAddress (device.hdr.bar barNum))
      (device.hdr.barSize barNum) start size = true

/-- The bytes of the headers tell which BARs meet a region. -/
theorem MeetsAt.of_config {state after : PciState (BarWorld vcpus)}
    (wired : Wired lib state) (wiredAfter : Wired lib after)
    {start size : UInt32} {devNum barNum : Nat}
    (config : after.configOf devNum = state.configOf devNum)
    (meets : MeetsAt state start size devNum barNum) :
    MeetsAt after start size devNum barNum := by
  obtain ⟨device, found, met⟩ := meets
  rw [PciState.configOf, PciState.configOf, found, Option.map_some,
    Option.map_eq_some_iff] at config
  obtain ⟨now, there, same⟩ := config
  refine ⟨now, there, ?_⟩
  rw [PciHeader.bar, same, (wiredAfter.virtio there).sizes,
    ← (wired.virtio found).sizes]
  exact met

theorem Quieter.congr {state after : PciState (BarWorld vcpus)}
    {first second : Nat → Nat → Prop} (quieter : Quieter state after first)
    (same : ∀ devNum barNum, first devNum barNum ↔ second devNum barNum) :
    Quieter state after second := by
  have equal : first = second := by
    funext devNum barNum
    exact propext (same devNum barNum)
  rw [← equal]
  exact quieter

/-- Turning off all BARs that meet a region. -/
theorem Matched.toggleOff {start size : UInt32} (bars : List (Nat × Nat))
    {state : PciState (BarWorld vcpus)} (matched : Matched lib state) :
    (toggleLoop false start size bars state).1 = 0 ∧
      Matched lib (toggleLoop false start size bars state).2 ∧
      Quieter state (toggleLoop false start size bars state).2
        fun devNum barNum =>
          (devNum, barNum) ∈ bars ∧ barNum < 3 ∧
            MeetsAt state start size devNum barNum := by
  induction bars generalizing state with
  | nil =>
      refine ⟨rfl, matched, Quieter.still ?_⟩
      rintro devNum device found barNum ⟨impossible, -⟩
      cases impossible
  | cons entry rest induction =>
      obtain ⟨devNum, barNum⟩ := entry
      by_cases toggled :
          barNum < 3 ∧ MeetsAt state start size devNum barNum
      · obtain ⟨bar, device, found, meets⟩ := toggled
        have implemented :=
          ((matched.wired.virtio found).implemented_iff barNum).mpr bar
        obtain ⟨success, off, quieter⟩ := matched.deactivate found bar
        have run :
            toggleLoop false start size ((devNum, barNum) :: rest) state =
              toggleLoop false start size rest
                (pciDeactivateBar state devNum barNum).2 := by
          simp only [toggleLoop, found, implemented, meets, Bool.and_self,
            if_true, toggleBar, Bool.false_eq_true, if_false]
          exact if_neg (not_lt.mpr success)
        obtain ⟨answer, after, later⟩ := induction off
        rw [run]
        refine ⟨answer, after, (quieter.trans later).congr ?_⟩
        intro other otherBar
        have sameMeets :
            MeetsAt (pciDeactivateBar state devNum barNum).2 start size
                other otherBar ↔
              MeetsAt state start size other otherBar :=
          ⟨.of_config off.wired matched.wired (quieter.config other).symm,
            .of_config matched.wired off.wired (quieter.config other)⟩
        rw [sameMeets, List.mem_cons, Prod.mk.injEq]
        constructor
        · rintro (⟨rfl, rfl⟩ | ⟨member, small, met⟩)
          · exact ⟨Or.inl ⟨rfl, rfl⟩, bar, device, found, meets⟩
          · exact ⟨Or.inr member, small, met⟩
        · rintro ⟨⟨rfl, rfl⟩ | member, small, met⟩
          · exact Or.inl ⟨rfl, rfl⟩
          · exact Or.inr ⟨member, small, met⟩
      · have run :
            toggleLoop false start size ((devNum, barNum) :: rest) state =
              toggleLoop false start size rest state := by
          rw [toggleLoop]
          split
          · rfl
          case h_2 device found =>
            rw [if_neg]
            rw [Bool.and_eq_true,
              (matched.wired.virtio found).implemented_iff]
            rintro ⟨bar, meets⟩
            exact toggled ⟨bar, device, found, meets⟩
        obtain ⟨answer, after, later⟩ := induction matched
        rw [run]
        refine ⟨answer, after, later.congr ?_⟩
        intro other otherBar
        rw [List.mem_cons, Prod.mk.injEq]
        constructor
        · rintro ⟨member, small, met⟩
          exact ⟨Or.inr member, small, met⟩
        · rintro ⟨⟨rfl, rfl⟩ | member, small, met⟩
          · exact absurd ⟨small, met⟩ toggled
          · exact ⟨member, small, met⟩

/-! ## Turning BARs on -/

/-- At most one BAR was turned on, and the bytes of the headers are same. -/
def Louder (state after : PciState (BarWorld vcpus)) (devNum barNum : Nat) :
    Prop :=
  ∀ other now, after.devices other = some now →
    ∃ device, state.devices other = some device ∧
      now.hdr.config = device.hdr.config ∧
      ∀ otherBar, now.hdr.barActive otherBar = true →
        device.hdr.barActive otherBar = true ∨
          other = devNum ∧ otherBar = barNum

theorem Louder.of_devices {state after : PciState (BarWorld vcpus)}
    (same : after.devices = state.devices) (devNum barNum : Nat) :
    Louder state after devNum barNum := by
  intro other now there
  rw [same] at there
  exact ⟨now, there, rfl, fun _ active => Or.inl active⟩

/-- An attempt to turn on a BAR. -/
theorem Matched.activate {state : PciState (BarWorld vcpus)}
    (matched : Matched lib state) {devNum : Nat}
    {device : PciDevice (BarWorld vcpus)}
    (found : state.devices devNum = some device) {barNum : Nat}
    (bar : barNum < 3) (ports : InPorts device.hdr barNum) :
    Matched lib (pciActivateBar state devNum barNum).2 ∧
      Louder state (pciActivateBar state devNum barNum).2 devNum
        barNum := by
  cases result : pciActivateBar state devNum barNum with
  | mk r after =>
      have spec := activation matched.wired found bar
      rw [result] at spec
      cases spec with
      | already => exact ⟨matched, .of_devices rfl _ _⟩
      | refused _ _ calm _ kept =>
          exact ⟨matched.withTraps calm kept _, .of_devices rfl _ _⟩
      | registered _ calm _ _ added =>
          rw [barTrap_of_inPorts _ ports] at added
          refine ⟨matched.turnOn found bar ports calm added _, ?_⟩
          intro other now there
          dsimp only at there
          rcases modify_devices_cases there with
            ⟨rfl, former, before, rfl⟩ | ⟨different, before⟩
          · refine ⟨former, before, rfl, ?_⟩
            intro otherBar active
            by_cases same : otherBar = barNum
            · exact Or.inr ⟨rfl, same⟩
            · left
              exact (Function.update_of_ne same ..).symm.trans active
          · exact ⟨now, before, rfl, fun _ active => Or.inl active⟩

variable (lib) in
/-- Traps and active BARs match, and active BARs are in enabled spaces. -/
structure Good (state : PciState (BarWorld vcpus)) : Prop where
  matched : Matched lib state
  enabled :
    ∀ {devNum device barNum}, state.devices devNum = some device →
      barNum < 3 → device.hdr.barActive barNum = true →
      device.hdr.spaceEnabled barNum = true

theorem spaceEnabled_congr {first second : PciHeader}
    (same : first.config = second.config) (barNum : Nat) :
    first.spaceEnabled barNum = second.spaceEnabled barNum := by
  obtain ⟨config, firstSize, firstActive⟩ := first
  obtain ⟨_, secondSize, secondActive⟩ := second
  cases same
  rfl

theorem inPorts_congr {first second : PciHeader}
    (same : first.config = second.config) {barNum : Nat}
    (ports : InPorts second barNum) : InPorts first barNum := by
  rw [InPorts, PciHeader.bar] at *
  rw [same]
  exact ports

/-- The headers of states with the same bytes. -/
theorem exists_of_same_config {state after : PciState (BarWorld vcpus)}
    {devNum : Nat} (config : after.configOf devNum = state.configOf devNum)
    {now : PciDevice (BarWorld vcpus)}
    (there : after.devices devNum = some now) :
    ∃ device, state.devices devNum = some device ∧
      device.hdr.config = now.hdr.config := by
  rw [PciState.configOf, PciState.configOf, there, Option.map_some] at config
  exact Option.map_eq_some_iff.mp config.symm

/-- BARs that meet a region may be turned on. -/
def Welcome (state : PciState (BarWorld vcpus)) (start size : UInt32) :
    Prop :=
  ∀ devNum device barNum, state.devices devNum = some device →
    barNum < 3 →
    regionsMeet (barAddress (device.hdr.bar barNum))
      (device.hdr.barSize barNum) start size = true →
    device.hdr.spaceEnabled barNum = true ∧ InPorts device.hdr barNum

theorem Welcome.of_config {state after : PciState (BarWorld vcpus)}
    (wired : Wired lib state) (wiredAfter : Wired lib after)
    {start size : UInt32} (welcome : Welcome state start size)
    (config : ∀ devNum, after.configOf devNum = state.configOf devNum) :
    Welcome after start size := by
  intro devNum now barNum there bar meets
  obtain ⟨device, found, same⟩ :=
    exists_of_same_config (config devNum) there
  rw [PciHeader.bar, ← same, (wiredAfter.virtio there).sizes,
    ← (wired.virtio found).sizes] at meets
  obtain ⟨enabled, ports⟩ :=
    welcome devNum device barNum found bar meets
  exact
    ⟨(spaceEnabled_congr same.symm barNum).trans enabled,
      inPorts_congr same.symm ports⟩

section Good

variable {state : PciState (BarWorld vcpus)} (good : Good lib state)

include good

theorem Good.quieter {after : PciState (BarWorld vcpus)}
    {gone : Nat → Nat → Prop} (quieter : Quieter state after gone)
    (matched : Matched lib after) : Good lib after := by
  refine ⟨matched, ?_⟩
  intro devNum now barNum there bar active
  obtain ⟨device, found, -, on, -⟩ := quieter.source there
  have config := quieter.config devNum
  rw [PciState.configOf, PciState.configOf, there, found, Option.map_some,
    Option.map_some, Option.some.injEq] at config
  rw [spaceEnabled_congr config]
  exact good.enabled found bar (on barNum active)

theorem Good.withTraps {traps : TrapState vcpus} (calm : Calm traps)
    (same : traps.traps = state.world.traps.traps) (asked : Nat) :
    Good lib (withTraps state traps asked) :=
  ⟨good.matched.withTraps calm same asked, good.enabled⟩

/-- An attempt to turn on a BAR that may be turned on. -/
theorem Good.activate {devNum : Nat}
    {device : PciDevice (BarWorld vcpus)}
    (found : state.devices devNum = some device) {barNum : Nat}
    (bar : barNum < 3)
    (enabled : device.hdr.spaceEnabled barNum = true)
    (ports : InPorts device.hdr barNum) :
    Good lib (pciActivateBar state devNum barNum).2 := by
  obtain ⟨matched, louder⟩ := good.matched.activate found bar ports
  refine ⟨matched, ?_⟩
  intro other now otherBar there bound active
  obtain ⟨former, before, config, on⟩ := louder other now there
  rw [spaceEnabled_congr config]
  rcases on otherBar active with former | ⟨rfl, rfl⟩
  · exact good.enabled before bound former
  · cases found.symm.trans before
    exact enabled

end Good

/-- Turning on the BARs that meet a region. -/
theorem Good.toggleOn {start size : UInt32} (bars : List (Nat × Nat))
    {state : PciState (BarWorld vcpus)} (good : Good lib state)
    (welcome : Welcome state start size) :
    Good lib (toggleLoop true start size bars state).2 := by
  induction bars generalizing state with
  | nil => exact good
  | cons entry rest induction =>
      rw [toggleLoop]
      split
      · exact induction good welcome
      case h_2 device found =>
        split
        case isTrue toggled =>
          rw [Bool.and_eq_true] at toggled
          obtain ⟨implemented, meets⟩ := toggled
          have bar :=
            ((good.matched.wired.virtio found).implemented_iff _).mp
              implemented
          obtain ⟨enabled, ports⟩ := welcome _ _ _ found bar meets
          have next := good.activate found bar enabled ports
          have again :
              Welcome (pciActivateBar state entry.1 entry.2).2 start
                size :=
            welcome.of_config good.matched.wired next.matched.wired
              fun other => configOf_activate state entry.1 entry.2 other
          dsimp only
          split
          · exact next
          · exact induction next again
        · exact induction good welcome

/-! ## Writes to BARs -/

/-- The other BARs that meet a region may be turned on. -/
def Harmless (state : PciState (BarWorld vcpus)) (devNum barNum : Nat)
    (start size : UInt32) : Prop :=
  ∀ other second otherBar, state.devices other = some second →
    otherBar < 3 → (other, otherBar) ≠ (devNum, barNum) →
    regionsMeet (barAddress (second.hdr.bar otherBar))
      (second.hdr.barSize otherBar) start size = true →
    second.hdr.spaceEnabled otherBar = true ∧ InPorts second.hdr otherBar

/--
The trap of a moved BAR can be registered: there is memory, and the traps in
its way belong to the BAR or to BARs that are turned off first.
-/
def Takes (state : PciState (BarWorld vcpus))
    (device : PciDevice (BarWorld vcpus)) (barNum : Nat)
    (moved : PciHeader) : Prop :=
  state.world.mallocs state.world.asked = true ∧
    ∀ trap ∈ state.world.traps.traps,
      trap.Meets (exactTrap state.world moved barNum device.data) →
      Owns state.world device barNum trap ∨
        ∃ other second otherBar, state.devices other = some second ∧
          otherBar < 3 ∧
          regionsMeet (barAddress (second.hdr.bar otherBar))
            (second.hdr.barSize otherBar)
            (barAddress (moved.bar barNum)) (moved.barSize barNum) =
              true ∧
          Owns state.world second otherBar trap

/-- What a write to a BAR may be. -/
def BarWriteFits (state : PciState (BarWorld vcpus)) (devNum : Nat)
    (device : PciDevice (BarWorld vcpus)) (barNum : Nat)
    (value : UInt32) : Prop :=
  let hdr := device.hdr
  let written := writtenValue hdr barNum value
  if value = 0xffffffff then
    hdr.barActive barNum = false ∨
      barAddress (sizingValue hdr barNum) = barAddress (hdr.bar barNum)
  else
    hdr.spaceEnabled barNum = true →
      barNum < 3 ∧ InPorts (hdr.setBar barNum written) barNum ∧
        (Takes state device barNum (hdr.setBar barNum written) →
          Harmless state devNum barNum (barAddress (hdr.bar barNum))
            (hdr.barSize barNum)) ∧
        (¬ Takes state device barNum (hdr.setBar barNum written) →
          Harmless state devNum barNum (barAddress written)
            (hdr.barSize barNum))

theorem spaceEnabled_setBar {hdr : PciHeader} {barNum : Nat}
    {value : UInt32} (typed : Typed barNum (hdr.bar barNum))
    (written : Typed barNum value) (other : Nat) :
    (hdr.setBar barNum value).spaceEnabled other =
      hdr.spaceEnabled other := by
  have types :
      barIsIo ((hdr.setBar barNum value).bar other) =
        barIsIo (hdr.bar other) := by
    by_cases same : other = barNum
    · rw [same, PciHeader.bar_setBar_self, written.isIo, typed.isIo]
    · rw [PciHeader.bar_setBar_of_ne _ same]
  rw [PciHeader.spaceEnabled, PciHeader.spaceEnabled, types,
    PciHeader.ioSpaceEnabled, PciHeader.ioSpaceEnabled,
    PciHeader.memorySpaceEnabled, PciHeader.memorySpaceEnabled,
    PciHeader.command_setBar]

/-- A BAR that is not active is written. -/
theorem Good.setBar {state : PciState (BarWorld vcpus)}
    (good : Good lib state) {devNum barNum : Nat} (bar : barNum < 6)
    {value : UInt32} (written : Typed barNum value)
    (addresses : ∀ device, state.devices devNum = some device →
      device.hdr.barActive barNum = true →
      barAddress value = barAddress (device.hdr.bar barNum)) :
    Good lib
      (state.modify devNum fun hdr => hdr.setBar barNum value) := by
  have wired := good.matched.wired
  refine ⟨good.matched.rewrite ?_ (fun _ => rfl) ?_, ?_⟩
  · intro device found
    exact (wired.virtio found).setBar written
  · intro device found otherBar bound active
    by_cases same : otherBar = barNum
    · subst same
      rw [PciHeader.bar_setBar_self]
      exact addresses device found active
    · rw [PciHeader.bar_setBar_of_ne _ same]
  · intro other now otherBar there bound active
    rcases modify_devices_cases there with
      ⟨rfl, device, found, rfl⟩ | ⟨-, before⟩
    · have on : device.hdr.barActive otherBar = true := active
      have space := good.enabled found bound on
      rw [← spaceEnabled_setBar ((wired.virtio found).typed bar) written]
        at space
      exact space
    · exact good.enabled before bound active

section Move

variable {state : PciState (BarWorld vcpus)} (good : Good lib state)
  {devNum : Nat} {device : PciDevice (BarWorld vcpus)}
  (found : state.devices devNum = some device) {barNum : Nat}
  (bar : barNum < 3)

include good found bar

/-- The old region is given up and the new one cleared. -/
theorem Good.clear (start size : UInt32) :
    0 ≤ (pciDeactivateBar state devNum barNum).1 ∧
      (pciToggleBarRegions false
        (pciDeactivateBar state devNum barNum).2 start size).1 = 0 ∧
      Good lib
        (pciToggleBarRegions false
          (pciDeactivateBar state devNum barNum).2 start size).2 ∧
      Quieter state
        (pciToggleBarRegions false
          (pciDeactivateBar state devNum barNum).2 start size).2
        fun other otherBar =>
          other = devNum ∧ otherBar = barNum ∨
            otherBar < 3 ∧ MeetsAt state start size other otherBar := by
  have wired := good.matched.wired
  obtain ⟨success, off, quieter⟩ := good.matched.deactivate found bar
  obtain ⟨answer, cleared, later⟩ :=
    off.toggleOff (pciDeactivateBar state devNum barNum).2.allBars
  have both := quieter.trans later
  refine ⟨success, answer, good.quieter both cleared, both.congr ?_⟩
  intro other otherBar
  have sameMeets :
      MeetsAt (pciDeactivateBar state devNum barNum).2 start size other
          otherBar ↔
        MeetsAt state start size other otherBar :=
    ⟨.of_config off.wired wired (quieter.config other).symm,
      .of_config wired off.wired (quieter.config other)⟩
  rw [sameMeets]
  refine or_congr Iff.rfl ⟨fun gone => gone.2, fun gone => ⟨?_, gone⟩⟩
  obtain ⟨small, second, there, -⟩ := gone
  refine mem_allBars ?_ (by omega)
  rw [quieter.devNum]
  exact (wired.numbered there).1

omit good bar in
/-- The BAR and the others with it after the BAR is written. -/
theorem Harmless.welcome {value : UInt32} {start size : UInt32}
    (harmless : Harmless state devNum barNum start size)
    (typed : Typed barNum (device.hdr.bar barNum))
    (written : Typed barNum value)
    (enabled : device.hdr.spaceEnabled barNum = true)
    (ports : InPorts (device.hdr.setBar barNum value) barNum) :
    Welcome (state.modify devNum fun hdr => hdr.setBar barNum value) start
      size := by
  intro other now otherBar there bound meets
  rcases modify_devices_cases there with
    ⟨rfl, former, before, rfl⟩ | ⟨different, before⟩
  · cases found.symm.trans before
    have space := spaceEnabled_setBar typed written otherBar
    by_cases same : otherBar = barNum
    · subst same
      exact ⟨space.trans enabled, ports⟩
    · have kept :
          (device.hdr.setBar barNum value).bar otherBar =
            device.hdr.bar otherBar :=
        device.hdr.bar_setBar_of_ne same value
      have meetsBefore :
          regionsMeet (barAddress (device.hdr.bar otherBar))
            (device.hdr.barSize otherBar) start size = true := by
        rw [← kept]
        exact meets
      obtain ⟨on, inPorts⟩ :=
        harmless other device otherBar found bound
          (fun equal => same (Prod.mk.inj equal).2) meetsBefore
      refine ⟨space.trans on, ?_⟩
      intro zero
      show barAddress ((device.hdr.setBar barNum value).bar otherBar) < _
      rw [kept]
      exact inPorts zero
  · exact
      harmless other now otherBar before bound
        (fun equal => different (Prod.mk.inj equal).1) meets

omit good in
/-- The BARs that were turned off no longer have traps. -/
theorem free_iff_takes {after : PciState (BarWorld vcpus)}
    (goodAfter : Good lib after) (moved : PciHeader)
    (quieter :
      Quieter state after fun other otherBar =>
        other = devNum ∧ otherBar = barNum ∨
          otherBar < 3 ∧
            MeetsAt state (barAddress (moved.bar barNum))
              (moved.barSize barNum) other otherBar) :
    state.world.mallocs state.world.asked = true ∧
        after.world.traps.Free
          (exactTrap state.world moved barNum device.data) ↔
      Takes state device barNum moved := by
  refine and_congr Iff.rfl ⟨?_, ?_⟩
  · intro free trap member meets
    by_cases kept : trap ∈ after.world.traps.traps
    · exact absurd meets (free trap kept)
    · obtain ⟨other, second, otherBar, gone, bound, there, owner⟩ :=
        quieter.missing member kept
      rcases gone with ⟨rfl, rfl⟩ | ⟨-, third, again, met⟩
      · cases found.symm.trans there
        exact Or.inl owner
      · cases there.symm.trans again
        exact Or.inr ⟨other, second, otherBar, there, bound, met, owner⟩
  · intro way trap member meets
    have former := quieter.fewer member
    have active : ∀ {other second otherBar},
        state.devices other = some second → otherBar < 3 →
        Owns state.world second otherBar trap →
        (other = devNum ∧ otherBar = barNum ∨
          otherBar < 3 ∧
            MeetsAt state (barAddress (moved.bar barNum))
              (moved.barSize barNum) other otherBar) → False := by
      intro other second otherBar there bound owner gone
      have config := quieter.config other
      rw [PciState.configOf, PciState.configOf, there, Option.map_some,
        Option.map_eq_some_iff] at config
      obtain ⟨now, present, -⟩ := config
      obtain ⟨same, again, data, -, off⟩ := quieter.source present
      cases there.symm.trans again
      have rival : Owns after.world now otherBar trap := by
        rw [Owns, quieter.legacy, data]
        exact owner
      have on := (goodAfter.matched.owned present bound member rival).1
      rw [off otherBar gone] at on
      cases on
    rcases way trap former meets with
      owner | ⟨other, second, otherBar, there, bound, met, owner⟩
    · exact active found bar owner (Or.inl ⟨rfl, rfl⟩)
    · exact active there bound owner (Or.inr ⟨bound, second, there, met⟩)

/-- A BAR is moved to a region that it may be turned on in. -/
theorem Good.move {value : UInt32} (written : Typed barNum value)
    (enabled : device.hdr.spaceEnabled barNum = true)
    (ports : InPorts (device.hdr.setBar barNum value) barNum)
    (back :
      Takes state device barNum (device.hdr.setBar barNum value) →
        Harmless state devNum barNum (barAddress (device.hdr.bar barNum))
          (device.hdr.barSize barNum))
    (refused :
      ¬ Takes state device barNum (device.hdr.setBar barNum value) →
        Harmless state devNum barNum (barAddress value)
          (device.hdr.barSize barNum)) :
    Good lib
      (moveBar state devNum barNum (barAddress (device.hdr.bar barNum))
        (barAddress value) (device.hdr.barSize barNum) value) := by
  have wired := good.matched.wired
  have typed := (wired.virtio found).typed (show barNum < 6 by omega)
  obtain ⟨success, answer, clear, quieter⟩ :=
    good.clear found bar (barAddress value) (device.hdr.barSize barNum)
  generalize cleared :
    (pciToggleBarRegions false (pciDeactivateBar state devNum barNum).2
      (barAddress value) (device.hdr.barSize barNum)).2 = after at *
  have config := quieter.config devNum
  rw [PciState.configOf, PciState.configOf, found, Option.map_some,
    Option.map_eq_some_iff] at config
  obtain ⟨now, there, same⟩ := config
  obtain ⟨former, before, data, -, off⟩ := quieter.source there
  cases found.symm.trans before
  have idle : now.hdr.barActive barNum = false :=
    off barNum (Or.inl ⟨rfl, rfl⟩)
  have placed :
      Good lib (after.modify devNum fun hdr => hdr.setBar barNum value) := by
    refine clear.setBar (show barNum < 6 by omega) written ?_
    intro second again active
    cases there.symm.trans again
    rw [idle] at active
    cases active
  have header :
      (now.hdr.setBar barNum value).config =
        (device.hdr.setBar barNum value).config := by
    rw [PciHeader.setBar, PciHeader.setBar, same]
  have here := modify_devices_self after there fun hdr =>
    hdr.setBar barNum value
  have bytes : ∀ other,
      (after.modify devNum fun hdr => hdr.setBar barNum value).configOf
          other =
        (state.modify devNum fun hdr => hdr.setBar barNum value).configOf
          other := by
    intro other
    by_cases different : other = devNum
    · rw [different, configOf_modify_self after there,
        configOf_modify_self state found, header]
    · rw [configOf_modify_of_ne after different,
        configOf_modify_of_ne state different]
      exact quieter.config other
  have welcome : ∀ {start size},
      Harmless state devNum barNum start size →
        Welcome (after.modify devNum fun hdr => hdr.setBar barNum value)
          start size := by
    intro start size harmless
    exact
      (harmless.welcome found typed written enabled ports).of_config
        (wired.setBar written) placed.matched.wired bytes
  have spaceNow :
      (now.hdr.setBar barNum value).spaceEnabled barNum = true := by
    rw [spaceEnabled_congr header, spaceEnabled_setBar typed written]
    exact enabled
  have portsNow : InPorts (now.hdr.setBar barNum value) barNum :=
    inPorts_congr header ports
  have next := placed.activate here bar spaceNow portsNow
  have outcome :
      (pciActivateBar
          (after.modify devNum fun hdr => hdr.setBar barNum value) devNum
          barNum).1 < 0 ↔
        ¬ Takes state device barNum (device.hdr.setBar barNum value) := by
    have sizes : now.hdr.barSize = device.hdr.barSize :=
      (clear.matched.wired.virtio there).sizes.trans
        (wired.virtio found).sizes.symm
    have trap :
        barTrap
            (after.modify devNum fun hdr => hdr.setBar barNum value).world
            (now.hdr.setBar barNum value) barNum now.data =
          exactTrap state.world (device.hdr.setBar barNum value) barNum
            device.data := by
      have register :
          (now.hdr.setBar barNum value).bar barNum =
            (device.hdr.setBar barNum value).bar barNum := by
        rw [PciHeader.bar_setBar_self, PciHeader.bar_setBar_self]
      rw [barTrap_of_inPorts _ portsNow, data]
      exact exactTrap_congr quieter.legacy register sizes _
    have memory : after.world.mallocs after.world.asked =
        state.world.mallocs state.world.asked := by
      rw [quieter.mallocs, quieter.asked]
    have takes :=
      free_iff_takes found bar clear (device.hdr.setBar barNum value)
        (by rw [PciHeader.bar_setBar_self]; exact quieter)
    have refusal :=
      activation_refused_iff placed.matched.wired here bar idle
    rw [trap] at refusal
    rw [← takes, ← memory]
    exact refusal
  have regions : ∀ {start size},
      Harmless state devNum barNum start size →
        Good lib
          (pciToggleBarRegions true
            (pciActivateBar
              (after.modify devNum fun hdr => hdr.setBar barNum value)
              devNum barNum).2 start size).2 := by
    intro start size harmless
    refine next.toggleOn _ ?_
    exact
      (welcome harmless).of_config placed.matched.wired
        next.matched.wired fun other => configOf_activate _ _ _ other
  rw [moveBar]
  dsimp only
  rw [if_neg (not_lt.mpr success), answer, if_neg (by decide), cleared]
  split
  case isTrue failure => exact regions (refused (outcome.mp failure))
  case isFalse taken =>
    exact regions (back (not_not.mp (mt outcome.mpr taken)))

end Move

/-- A write to a BAR that is fit. -/
theorem Good.barWr {state : PciState (BarWorld vcpus)}
    (good : Good lib state) {devNum : Nat}
    {device : PciDevice (BarWorld vcpus)}
    (found : state.devices devNum = some device) {barNum : Nat}
    (bar : barNum < 6) {value : UInt32}
    (fits : BarWriteFits state devNum device barNum value) :
    Good lib (pciConfigBarWr state devNum barNum value) := by
  have virtio := good.matched.wired.virtio found
  have typed := virtio.typed bar
  rw [BarWriteFits] at fits
  rw [pciConfigBarWr, found]
  dsimp only at fits ⊢
  by_cases ones : value = 0xffffffff
  · rw [if_pos ones] at fits ⊢
    refine good.setBar bar (typed.merged _) ?_
    intro second there active
    cases found.symm.trans there
    rcases fits with idle | same
    · rw [idle] at active
      cases active
    · exact same
  · rw [if_neg ones] at fits ⊢
    cases enabled : device.hdr.spaceEnabled barNum with
    | true =>
        obtain ⟨small, ports, back, refused⟩ := fits enabled
        exact
          good.move found small (typed.merged value) enabled ports back
            refused
    | false =>
        refine good.setBar bar (typed.merged value) ?_
        intro second there active
        cases found.symm.trans there
        by_cases small : barNum < 3
        · rw [good.enabled found small active] at enabled
          cases enabled
        · rw [virtio.inactive barNum (Nat.le_of_not_lt small)] at active
          cases active

/-! ## Writes to the command register -/

/-- The space of a BAR of a virtio device is enabled by a command. -/
def spaceBy (command : UInt16) (barNum : Nat) : Bool :=
  if barNum = 0 then
    command &&& pciCommandIo != 0
  else
    command &&& pciCommandMemory != 0

theorem spaceEnabled_eq {hdr : PciHeader} {barNum : Nat}
    (typed : Typed barNum (hdr.bar barNum)) :
    hdr.spaceEnabled barNum = spaceBy hdr.command barNum := by
  rw [PciHeader.spaceEnabled, typed.isIo, spaceBy]
  by_cases ports : barNum = 0
  · rw [if_pos (decide_eq_true ports), if_pos ports]
    rfl
  · rw [if_neg (by simp [ports]), if_neg ports]
    rfl

theorem xor_and (first second mask : UInt16) :
    (first ^^^ second) &&& mask = (first &&& mask) ^^^ (second &&& mask) := by
  apply UInt16.eq_of_toBitVec_eq
  ext index
  simp
  grind

/-- A bit that is not toggled is the same. -/
theorem bit_of_not_toggled {before after mask : UInt16}
    (same : ((before ^^^ after) &&& mask != 0) = false) :
    (before &&& mask != 0) = (after &&& mask != 0) := by
  have zero : (before ^^^ after) &&& mask = 0 := by
    simpa using same
  rw [xor_and] at zero
  rw [UInt16.xor_eq_zero_iff.mp zero]

/-- A bit that is toggled to one was zero. -/
theorem bit_of_toggled {before after : UInt16}
    (toggled : ((before ^^^ after) &&& pciCommandIo != 0) = true)
    (one : (after &&& pciCommandIo != 0) = true) :
    before &&& pciCommandIo = 0 ∧ after &&& pciCommandIo ≠ 0 := by
  have bit : ∀ value : UInt16,
      value &&& pciCommandIo = 0 ∨ value &&& pciCommandIo = 1 := by
    intro value
    have low : (value &&& pciCommandIo).toNat = value.toNat % 2 :=
      (UInt16.toNat_and value 1).trans (Nat.and_one_is_mod value.toNat)
    rcases Nat.mod_two_eq_zero_or_one value.toNat with even | odd
    · exact Or.inl (UInt16.toNat_inj.mp (low.trans even))
    · exact Or.inr (UInt16.toNat_inj.mp (low.trans odd))
  have set : after &&& pciCommandIo ≠ 0 := by
    simpa using one
  refine ⟨?_, set⟩
  rcases bit before with clear | both
  · exact clear
  · have same := (bit after).resolve_left set
    rw [xor_and, both, same] at toggled
    cases toggled

/-- What a write to the command register may be. -/
def CommandFits (hdr : PciHeader) (newCommand : UInt16) : Prop :=
  hdr.command &&& pciCommandIo = 0 → newCommand &&& pciCommandIo ≠ 0 →
    InPorts hdr 0

variable (lib) in
/--
The loop is on its way: the BARs ahead were turned on under the old command,
and the others under the new one.
-/
structure OnTheWay (devNum : Nat) (old new : UInt16) (ahead : List Nat)
    (state : PciState (BarWorld vcpus)) : Prop where
  matched : Matched lib state
  others :
    ∀ {other device barNum}, state.devices other = some device →
      other ≠ devNum → barNum < 3 →
      device.hdr.barActive barNum = true →
      device.hdr.spaceEnabled barNum = true
  here :
    ∀ {device barNum}, state.devices devNum = some device → barNum < 3 →
      device.hdr.barActive barNum = true →
      barNum ∈ ahead ∧ spaceBy old barNum = true ∨
        spaceBy new barNum = true
  ports :
    ∀ {device}, state.devices devNum = some device →
      old &&& pciCommandIo = 0 → new &&& pciCommandIo ≠ 0 →
      InPorts device.hdr 0

/-- The space of a BAR is toggled. -/
def toggledBy (old new : UInt16) (barNum : Nat) : Bool :=
  if barNum = 0 then
    (old ^^^ new) &&& pciCommandIo != 0
  else
    (old ^^^ new) &&& pciCommandMemory != 0

theorem spaceBy_of_not_toggled {old new : UInt16} {barNum : Nat}
    (same : toggledBy old new barNum = false) :
    spaceBy old barNum = spaceBy new barNum := by
  rw [toggledBy] at same
  rw [spaceBy, spaceBy]
  by_cases ports : barNum = 0
  · rw [if_pos ports] at same
    rw [if_pos ports, if_pos ports]
    exact bit_of_not_toggled same
  · rw [if_neg ports] at same
    rw [if_neg ports, if_neg ports]
    exact bit_of_not_toggled same

section Loop

variable {devNum : Nat} {old new : UInt16} {barNum : Nat}
  {rest : List Nat} {state : PciState (BarWorld vcpus)}
  (way : OnTheWay lib devNum old new (barNum :: rest) state)

include way

theorem OnTheWay.skip
    (keep : barNum < 3 → toggledBy old new barNum = false) :
    OnTheWay lib devNum old new rest state := by
  refine ⟨way.matched, way.others, ?_, way.ports⟩
  intro device otherBar found bound active
  rcases way.here found bound active with ⟨member, enabled⟩ | enabled
  · rcases List.mem_cons.mp member with rfl | later
    · right
      rw [← spaceBy_of_not_toggled (keep bound)]
      exact enabled
    · exact Or.inl ⟨later, enabled⟩
  · exact Or.inr enabled

theorem OnTheWay.turnOff {device : PciDevice (BarWorld vcpus)}
    (found : state.devices devNum = some device) (bar : barNum < 3) :
    OnTheWay lib devNum old new rest
      (pciDeactivateBar state devNum barNum).2 := by
  obtain ⟨-, matched, quieter⟩ := way.matched.deactivate found bar
  refine ⟨matched, ?_, ?_, ?_⟩
  · intro other now otherBar there different bound active
    obtain ⟨former, before, -, on, -⟩ := quieter.source there
    obtain ⟨_, again, config⟩ :=
      exists_of_same_config (quieter.config other) there
    cases before.symm.trans again
    rw [spaceEnabled_congr config.symm]
    exact way.others before different bound (on otherBar active)
  · intro now otherBar there bound active
    obtain ⟨former, before, -, on, off⟩ := quieter.source there
    rcases way.here before bound (on otherBar active) with
      ⟨member, enabled⟩ | enabled
    · rcases List.mem_cons.mp member with rfl | later
      · rw [off otherBar ⟨rfl, rfl⟩] at active
        cases active
      · exact Or.inl ⟨later, enabled⟩
    · exact Or.inr enabled
  · intro now there zero one
    obtain ⟨former, before, config⟩ :=
      exists_of_same_config (quieter.config devNum) there
    exact inPorts_congr config.symm (way.ports before zero one)

theorem OnTheWay.turnOn {device : PciDevice (BarWorld vcpus)}
    (found : state.devices devNum = some device) (bar : barNum < 3)
    (toggled : toggledBy old new barNum = true)
    (enabled : spaceBy new barNum = true) :
    OnTheWay lib devNum old new rest
      (pciActivateBar state devNum barNum).2 := by
  have ports : InPorts device.hdr barNum := by
    intro zero
    rw [toggledBy, if_pos zero] at toggled
    rw [spaceBy, if_pos zero] at enabled
    obtain ⟨clear, set⟩ := bit_of_toggled toggled enabled
    rw [zero]
    exact way.ports found clear set rfl
  obtain ⟨matched, louder⟩ := way.matched.activate found bar ports
  refine ⟨matched, ?_, ?_, ?_⟩
  · intro other now otherBar there different bound active
    obtain ⟨former, before, config, on⟩ := louder other now there
    rw [spaceEnabled_congr config]
    rcases on otherBar active with former | ⟨same, -⟩
    · exact way.others before different bound former
    · exact absurd same different
  · intro now otherBar there bound active
    obtain ⟨former, before, config, on⟩ := louder devNum now there
    rcases on otherBar active with former | ⟨-, rfl⟩
    · rcases way.here before bound former with ⟨member, space⟩ | space
      · rcases List.mem_cons.mp member with rfl | later
        · exact Or.inr enabled
        · exact Or.inl ⟨later, space⟩
      · exact Or.inr space
    · exact Or.inr enabled
  · intro now there zero one
    obtain ⟨former, before, config, -⟩ := louder devNum now there
    exact inPorts_congr config (way.ports before zero one)

end Loop

theorem OnTheWay.loop {devNum : Nat} {old new : UInt16}
    (bars : List Nat) {state : PciState (BarWorld vcpus)}
    (way : OnTheWay lib devNum old new bars state) :
    OnTheWay lib devNum old new []
      (commandLoop devNum ((old ^^^ new) &&& pciCommandIo != 0)
        ((old ^^^ new) &&& pciCommandMemory != 0) new bars state) := by
  induction bars generalizing state with
  | nil => exact way
  | cons barNum rest induction =>
      rw [commandLoop]
      split
      case h_1 absent =>
        refine ⟨way.matched, way.others, ?_, way.ports⟩
        intro device otherBar found
        rw [absent] at found
        cases found
      case h_2 device found =>
        have virtio := way.matched.wired.virtio found
        have implemented := virtio.implemented_iff barNum
        split
        case isTrue missing =>
          refine induction (way.skip ?_)
          intro bar
          rw [implemented.mpr bar] at missing
          cases missing
        case isFalse present =>
          rw [Bool.not_eq_true', Bool.not_eq_false] at present
          have bar := implemented.mp present
          have step :
              (toggledBy old new barNum = true →
                OnTheWay lib devNum old new rest
                  (toggleBar (spaceBy new barNum) state devNum barNum).2) ∧
                (toggledBy old new barNum ≠ true →
                  OnTheWay lib devNum old new rest state) := by
            refine ⟨fun toggled => ?_, fun keep => ?_⟩
            · cases enabled : spaceBy new barNum with
              | true => exact way.turnOn found bar toggled enabled
              | false => exact way.turnOff found bar
            · exact way.skip fun _ => Bool.not_eq_true _ ▸ keep
          rw [toggledBy, spaceBy] at step
          rw [(virtio.typed (show barNum < 6 by omega)).isIo]
          split
          case isTrue ports =>
            rw [if_pos (of_decide_eq_true ports),
              if_pos (of_decide_eq_true ports)] at step
            split
            case isTrue toggled => exact induction (step.1 toggled)
            case isFalse keep => exact induction (step.2 keep)
          case isFalse memory =>
            rw [if_neg (mt decide_eq_true memory),
              if_neg (mt decide_eq_true memory)] at step
            split
            case isTrue toggled => exact induction (step.1 toggled)
            case isFalse keep => exact induction (step.2 keep)

/-- A write to the command register that is fit. -/
theorem Good.commandWr {state : PciState (BarWorld vcpus)}
    (good : Good lib state) {devNum : Nat}
    {device : PciDevice (BarWorld vcpus)}
    (found : state.devices devNum = some device) {newCommand : UInt16}
    (fits : CommandFits device.hdr newCommand) :
    Good lib (pciConfigCommandWr state devNum newCommand) := by
  have start :
      OnTheWay lib devNum device.hdr.command newCommand (List.range 6)
        state := by
    refine ⟨good.matched, ?_, ?_, ?_⟩
    · intro other second barNum there _ bar active
      exact good.enabled there bar active
    · intro second barNum there bar active
      cases found.symm.trans there
      have typed :=
        (good.matched.wired.virtio found).typed (show barNum < 6 by omega)
      refine Or.inl ⟨List.mem_range.mpr (by omega), ?_⟩
      rw [← spaceEnabled_eq typed]
      exact good.enabled found bar active
    · intro second there
      cases found.symm.trans there
      exact fits
  have done := start.loop
  rw [pciConfigCommandWr, found]
  dsimp only
  refine ⟨done.matched.rewrite ?_ (fun _ => rfl) ?_, ?_⟩
  · intro second there
    exact (done.matched.wired.virtio there).setCommand newCommand
  · intro second there barNum bar active
    rw [PciHeader.bar_setCommand]
  · intro other now barNum there bar active
    rcases modify_devices_cases there with
      ⟨rfl, second, before, rfl⟩ | ⟨different, before⟩
    · have typed :=
        (done.matched.wired.virtio before).typed
          (show barNum < 6 by omega)
      have on : second.hdr.barActive barNum = true := active
      rcases done.here before bar on with ⟨impossible, -⟩ | enabled
      · cases impossible
      · show (second.hdr.setCommand newCommand).spaceEnabled barNum = true
        rw [spaceEnabled_eq (by rw [PciHeader.bar_setCommand]; exact typed),
          PciHeader.command_setCommand]
        exact enabled
    · exact done.others before different bar active

end Emulation

end Kemu.Virtio.PciBar
