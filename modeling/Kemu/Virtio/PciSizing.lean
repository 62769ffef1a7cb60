import Kemu.Virtio.PciWired

/-!
# Sizing a BAR

A guest finds the size of a BAR by writing all ones to it, reading it, and
writing back what it read first.  The all-ones write leaves the trap of the
BAR where it is, and the write back looks for it at the address in between.
-/

namespace Kemu.Virtio.PciBar

open Kemu.Init.Mmio
open Kemu.Init.Pci
open Kemu.Lib.Bytes
open Kemu.Lib.SearchTree
open Kemu.Lib.Transition
open Kemu.Util.RbtreeInterval

/-! ## Regions -/

/-- Regions that do not overlap are not taken to meet. -/
theorem regionsMeet_of_apart {first firstSize second secondSize : UInt32}
    (apart :
      first.toNat + firstSize.toNat ≤ second.toNat ∨
        second.toNat + secondSize.toNat ≤ first.toNat) :
    regionsMeet first firstSize second secondSize = false := by
  have firstBound := first.toNat_lt
  have secondBound := second.toNat_lt
  have firstSum := UInt32.toNat_add first firstSize
  have secondSum := UInt32.toNat_add second secondSize
  have firstSmall := firstSize.toNat_lt
  have secondSmall := secondSize.toNat_lt
  rw [regionsMeet, Bool.not_eq_false', Bool.or_eq_true, decide_eq_true_eq,
    decide_eq_true_eq, UInt32.le_iff_toNat_le, ge_iff_le,
    UInt32.le_iff_toNat_le]
  omega

/-- A region that ends with the address space meets none. -/
theorem regionsMeet_last (first firstSize : UInt32)
    {second secondSize : UInt32} (last : second + secondSize = 0) :
    regionsMeet first firstSize second secondSize = false := by
  rw [regionsMeet, last, Bool.not_eq_false', Bool.or_eq_true,
    decide_eq_true_eq, decide_eq_true_eq]
  exact Or.inr UInt32.zero_le

/-- A region that ends with the address space is met by none. -/
theorem last_regionsMeet {first firstSize : UInt32}
    (last : first + firstSize = 0) (second secondSize : UInt32) :
    regionsMeet first firstSize second secondSize = false := by
  rw [regionsMeet, last, Bool.not_eq_false', Bool.or_eq_true,
    decide_eq_true_eq, decide_eq_true_eq]
  exact Or.inl UInt32.zero_le

section Loops

variable {World : Type}

/-- No BAR in the list meets the region. -/
def NoneMeets (state : PciState World) (bars : List (Nat × Nat))
    (start size : UInt32) : Prop :=
  ∀ entry ∈ bars, ∀ device, state.devices entry.1 = some device →
    device.hdr.barIsImplemented entry.2 = true →
    regionsMeet (barAddress (device.hdr.bar entry.2))
      (device.hdr.barSize entry.2) start size = false

theorem toggleLoop_append (activate : Bool) {state : PciState World}
    {first : List (Nat × Nat)} (second : List (Nat × Nat))
    {start size : UInt32} (none : NoneMeets state first start size) :
    toggleLoop activate start size (first ++ second) state =
      toggleLoop activate start size second state := by
  induction first with
  | nil => rfl
  | cons entry rest induction =>
      have later := induction (List.forall_mem_cons.mp none).2
      rw [List.cons_append, toggleLoop]
      split
      · exact later
      case h_2 device found =>
        rw [if_neg]
        · exact later
        · rw [Bool.and_eq_true]
          rintro ⟨implemented, meets⟩
          rw [none entry List.mem_cons_self device found implemented]
            at meets
          cases meets

theorem toggleLoop_of_noneMeets (activate : Bool)
    {state : PciState World} {bars : List (Nat × Nat)}
    {start size : UInt32} (none : NoneMeets state bars start size) :
    toggleLoop activate start size bars state = (0, state) := by
  have run := toggleLoop_append activate [] none
  rw [List.append_nil] at run
  rw [run, toggleLoop]

/-- If one BAR may meet the region, at most that one is toggled. -/
theorem toggleLoop_single (activate : Bool) {state : PciState World}
    {bars : List (Nat × Nat)} (distinct : bars.Nodup)
    {start size : UInt32} {devNum barNum : Nat}
    (member : (devNum, barNum) ∈ bars)
    (before : NoneMeets state (bars.erase (devNum, barNum)) start size)
    (after :
      NoneMeets (toggleBar activate state devNum barNum).2
        (bars.erase (devNum, barNum)) start size)
    {device : PciDevice World}
    (found : state.devices devNum = some device)
    (implemented : device.hdr.barIsImplemented barNum = true) :
    (toggleLoop activate start size bars state).2 =
      if regionsMeet (barAddress (device.hdr.bar barNum))
          (device.hdr.barSize barNum) start size then
        (toggleBar activate state devNum barNum).2
      else
        state := by
  obtain ⟨first, second, rfl⟩ := List.append_of_mem member
  have outside : (devNum, barNum) ∉ first := by
    intro inside
    have apart := (List.nodup_append.mp distinct).2.2
    exact apart _ inside _ List.mem_cons_self rfl
  rw [List.erase_append_right _ outside, List.erase_cons_head]
    at before after
  have firstBefore : NoneMeets state first start size :=
    fun entry inside => before entry (List.mem_append_left _ inside)
  have secondBefore : NoneMeets state second start size :=
    fun entry inside => before entry (List.mem_append_right _ inside)
  have secondAfter :
      NoneMeets (toggleBar activate state devNum barNum).2 second start
        size :=
    fun entry inside => after entry (List.mem_append_right _ inside)
  rw [toggleLoop_append activate _ firstBefore]
  simp only [toggleLoop, found, implemented, Bool.true_and]
  split
  · split
    · rfl
    · rw [toggleLoop_of_noneMeets activate secondAfter]
  · rw [toggleLoop_of_noneMeets activate secondBefore]

theorem allBars_nodup (state : PciState World) : state.allBars.Nodup := by
  rw [PciState.allBars, List.nodup_flatMap]
  constructor
  · intro devNum _
    refine List.Nodup.map ?_ List.nodup_range
    intro first second same
    exact (Prod.mk.inj same).2
  · refine List.Pairwise.imp ?_ List.nodup_range
    intro first second different entry inFirst inSecond
    rw [List.mem_map] at inFirst inSecond
    obtain ⟨barNum, -, rfl⟩ := inFirst
    obtain ⟨other, -, same⟩ := inSecond
    exact different (Prod.mk.inj same).1.symm

end Loops

/-! ## Changes of one BAR -/

section Left

variable {lib : Rebalancer RbIntNode} {vcpus : Vcpus}

/--
A state that differs from an earlier one in the value and activity of one
BAR, in the traps, and in how often memory was asked for.
-/
structure Left (state : PciState (BarWorld vcpus)) (devNum : Nat)
    (device : PciDevice (BarWorld vcpus)) (barNum : Nat)
    (after : PciState (BarWorld vcpus)) (value : UInt32) (active : Bool)
    (traps : Set Trap) (asked : Nat) : Prop where
  here :
    ∃ now, after.devices devNum = some now ∧ now.data = device.data ∧
      now.hdr.barSize = device.hdr.barSize ∧
      now.hdr.command = device.hdr.command ∧
      now.hdr.bar = Function.update device.hdr.bar barNum value ∧
      now.hdr.barActive = Function.update device.hdr.barActive barNum active
  elsewhere :
    ∀ other, other ≠ devNum → after.devices other = state.devices other
  devNum : after.devNum = state.devNum
  mallocs : after.world.mallocs = state.world.mallocs
  legacy : after.world.legacy = state.world.legacy
  asked : after.world.asked = asked
  traps : after.world.traps.traps = traps

theorem bar_setBar (hdr : PciHeader) (barNum : Nat) (value : UInt32) :
    (hdr.setBar barNum value).bar =
      Function.update hdr.bar barNum value := by
  funext other
  by_cases same : other = barNum
  · rw [same, PciHeader.bar_setBar_self, Function.update_self]
  · rw [PciHeader.bar_setBar_of_ne _ same, Function.update_of_ne same]

theorem Left.refl {state : PciState (BarWorld vcpus)} {devNum : Nat}
    {device : PciDevice (BarWorld vcpus)}
    (found : state.devices devNum = some device) (barNum : Nat) :
    Left state devNum device barNum state (device.hdr.bar barNum)
      (device.hdr.barActive barNum) state.world.traps.traps
      state.world.asked where
  here :=
    ⟨device, found, rfl, rfl, rfl, (Function.update_eq_self ..).symm,
      (Function.update_eq_self ..).symm⟩
  elsewhere _ _ := rfl
  devNum := rfl
  mallocs := rfl
  legacy := rfl
  asked := rfl
  traps := rfl

section Changes

variable {state after : PciState (BarWorld vcpus)} {devNum : Nat}
  {device : PciDevice (BarWorld vcpus)} {barNum : Nat} {value : UInt32}
  {active : Bool} {traps : Set Trap} {asked : Nat}
  (left : Left state devNum device barNum after value active traps asked)

include left

theorem Left.setBar (written : UInt32) :
    Left state devNum device barNum
      (after.modify devNum fun hdr => hdr.setBar barNum written) written
      active traps asked := by
  obtain ⟨now, found, data, sizes, command, bars, activity⟩ := left.here
  refine { left with here := ?_, elsewhere := ?_ }
  · refine
      ⟨_, modify_devices_self after found _, data, sizes, ?_, ?_, activity⟩
    · exact (now.hdr.command_setBar barNum written).trans command
    · refine (bar_setBar now.hdr barNum written).trans ?_
      rw [bars, Function.update_idem]
  · intro other different
    rw [modify_devices_of_ne after different]
    exact left.elsewhere other different

theorem Left.setActive (toggled : Bool) :
    Left state devNum device barNum
      (after.modify devNum fun hdr => hdr.setActive barNum toggled) value
      toggled traps asked := by
  obtain ⟨now, found, data, sizes, command, bars, activity⟩ := left.here
  refine { left with here := ?_, elsewhere := ?_ }
  · refine
      ⟨_, modify_devices_self after found _, data, sizes, command, bars, ?_⟩
    show Function.update now.hdr.barActive barNum toggled = _
    rw [activity, Function.update_idem]
  · intro other different
    rw [modify_devices_of_ne after different]
    exact left.elsewhere other different

theorem Left.withTraps {changed : TrapState vcpus} {others : Set Trap}
    (same : changed.traps = others) (count : Nat) :
    Left state devNum device barNum (withTraps after changed count) value
      active others count :=
  { left with asked := rfl, traps := same }

end Changes

/-- No two BARs that are implemented overlap. -/
def BarsApart (state : PciState (BarWorld vcpus)) : Prop :=
  ∀ devNum device barNum other second otherBar,
    state.devices devNum = some device →
    device.hdr.barIsImplemented barNum = true →
    state.devices other = some second →
    second.hdr.barIsImplemented otherBar = true →
    (devNum, barNum) ≠ (other, otherBar) →
    (barAddress (device.hdr.bar barNum)).toNat +
          (device.hdr.barSize barNum).toNat ≤
        (barAddress (second.hdr.bar otherBar)).toNat ∨
      (barAddress (second.hdr.bar otherBar)).toNat +
          (second.hdr.barSize otherBar).toNat ≤
        (barAddress (device.hdr.bar barNum)).toNat

theorem Left.noneMeets {state after : PciState (BarWorld vcpus)}
    (apart : BarsApart state) {devNum : Nat}
    {device : PciDevice (BarWorld vcpus)}
    (found : state.devices devNum = some device) {barNum : Nat}
    (implemented : device.hdr.barIsImplemented barNum = true)
    {value : UInt32} {active : Bool} {traps : Set Trap} {asked : Nat}
    (left :
      Left state devNum device barNum after value active traps asked) :
    NoneMeets after (after.allBars.erase (devNum, barNum))
      (barAddress (device.hdr.bar barNum)) (device.hdr.barSize barNum) := by
  rintro ⟨other, otherBar⟩ member second there exists'
  have different : (other, otherBar) ≠ (devNum, barNum) :=
    ((allBars_nodup after).mem_erase_iff.mp member).1
  by_cases same : other = devNum
  · subst same
    obtain ⟨now, foundNow, -, sizes, -, bars, -⟩ := left.here
    cases foundNow.symm.trans there
    have otherNe : otherBar ≠ barNum := by
      rintro rfl
      exact different rfl
    have sameBar : second.hdr.bar otherBar = device.hdr.bar otherBar := by
      rw [bars, Function.update_of_ne otherNe]
    have there' : device.hdr.barIsImplemented otherBar = true := by
      rw [PciHeader.barIsImplemented, ← sizes]
      exact exists'
    rw [sameBar, sizes]
    exact
      regionsMeet_of_apart
        (apart other device otherBar other device barNum found there' found
          implemented different)
  · rw [left.elsewhere other same] at there
    exact
      regionsMeet_of_apart
        (apart other second otherBar devNum device barNum there exists'
          found implemented different)

/-! ## Taking a region -/

/-- The interval of a trap is not taken by any of the traps in a set. -/
def FreeIn (traps : Set Trap) (trap : Trap) : Prop :=
  ∀ stored ∈ traps, ¬ stored.Meets trap

/--
There is memory for a trap at the first attempt, or at the second one, which
is made unless the region wraps around.
-/
def Granted (world : BarWorld vcpus) (hdr : PciHeader) (barNum : Nat) :
    Prop :=
  world.mallocs world.asked = true ∨
    barAddress (hdr.bar barNum) <
        barAddress (hdr.bar barNum) + hdr.barSize barNum ∧
      world.mallocs (world.asked + 1) = true

/-- The last part of `pci_config_bar_wr`, from the activation on. -/
def takeRegion (state : PciState (BarWorld vcpus)) (devNum barNum : Nat)
    (oldAddr newAddr barSize : UInt32) : PciState (BarWorld vcpus) :=
  let (r, state) := pciActivateBar state devNum barNum
  if r < 0 then
    (pciToggleBarRegions true state newAddr barSize).2
  else
    (pciToggleBarRegions true state oldAddr barSize).2

theorem regionsMeet_self (start size : UInt32) :
    regionsMeet start size start size = true ↔ start < start + size := by
  rw [regionsMeet, Bool.not_eq_true', Bool.or_eq_false_iff,
    decide_eq_false_iff_not, UInt32.not_le]
  exact and_self_iff

section Take

variable {state after : PciState (BarWorld vcpus)} {devNum : Nat}
  {device : PciDevice (BarWorld vcpus)}
  (found : state.devices devNum = some device) {barNum : Nat}
  (bar : barNum < 3) {traps : Set Trap} {asked : Nat}
  (left :
    Left state devNum device barNum after (device.hdr.bar barNum) false
      traps asked)

include left

/-- The BAR as it is now has the trap of the BAR as it was. -/
theorem Left.barTrap_eq {now : PciDevice (BarWorld vcpus)}
    (foundNow : after.devices devNum = some now) :
    barTrap after.world now.hdr barNum now.data =
      barTrap state.world device.hdr barNum device.data := by
  obtain ⟨other, foundOther, data, sizes, -, bars, -⟩ := left.here
  cases foundNow.symm.trans foundOther
  rw [Function.update_eq_self] at bars
  rw [barTrap, barTrap, trapLow, trapLow, bars, sizes, data, left.legacy]

include bar

/-- One attempt to activate the BAR. -/
theorem Left.activate (wired : Wired lib after) :
    let trap := barTrap state.world device.hdr barNum device.data
    (state.world.mallocs asked = true ∧ FreeIn traps trap ∧
        (pciActivateBar after devNum barNum).1 = 0 ∧
        Left state devNum device barNum
          (pciActivateBar after devNum barNum).2 (device.hdr.bar barNum)
          true (insert trap traps) (asked + 1)) ∨
      ¬ (state.world.mallocs asked = true ∧ FreeIn traps trap) ∧
        (pciActivateBar after devNum barNum).1 < 0 ∧
        Left state devNum device barNum
          (pciActivateBar after devNum barNum).2 (device.hdr.bar barNum)
          false traps (asked + 1) := by
  intro trap
  obtain ⟨now, foundNow, -, -, -, -, activity⟩ := left.here
  have same : barTrap after.world now.hdr barNum now.data = trap :=
    left.barTrap_eq foundNow
  have idle : now.hdr.barActive barNum = false := by
    rw [activity, Function.update_self]
  have memory : after.world.mallocs after.world.asked =
      state.world.mallocs asked := by
    rw [left.mallocs, left.asked]
  have space : after.world.traps.Free trap ↔ FreeIn traps trap := by
    rw [TrapState.Free, left.traps]
    rfl
  cases result : pciActivateBar after devNum barNum with
  | mk r next =>
      have spec := activation wired foundNow bar
      rw [result] at spec
      cases spec with
      | already active => exact absurd (idle.symm.trans active) (by simp)
      | registered _ calm granted free added =>
          rw [memory] at granted
          rw [same, space] at free
          rw [same, left.traps] at added
          rw [left.asked]
          exact
            Or.inl ⟨granted, free, rfl,
              (left.withTraps added _).setActive true⟩
      | refused negative _ calm refusal kept =>
          rw [memory, same, space] at refusal
          rw [left.traps] at kept
          rw [left.asked]
          exact Or.inr ⟨refusal, negative, left.withTraps kept _⟩

include found

/-- Activating the BARs of the region is a second attempt at this one. -/
theorem Left.retry (apart : BarsApart state) (wired : Wired lib after) :
    (pciToggleBarRegions true after (barAddress (device.hdr.bar barNum))
        (device.hdr.barSize barNum)).2 =
      if barAddress (device.hdr.bar barNum) <
          barAddress (device.hdr.bar barNum) +
            device.hdr.barSize barNum then
        (pciActivateBar after devNum barNum).2
      else
        after := by
  obtain ⟨now, foundNow, -, sizes, -, bars, -⟩ := left.here
  rw [Function.update_eq_self] at bars
  have implementedNow : now.hdr.barIsImplemented barNum = true :=
    ((wired.virtio foundNow).implemented_iff barNum).mpr bar
  have implemented : device.hdr.barIsImplemented barNum = true := by
    rw [PciHeader.barIsImplemented, ← sizes]
    exact implementedNow
  have toggled :
      NoneMeets (toggleBar true after devNum barNum).2
        (after.allBars.erase (devNum, barNum))
        (barAddress (device.hdr.bar barNum))
        (device.hdr.barSize barNum) := by
    have sameBars :
        (pciActivateBar after devNum barNum).2.allBars = after.allBars := by
      rw [PciState.allBars, activate_devNum, PciState.allBars]
    rw [← sameBars]
    rcases left.activate bar wired with ⟨-, -, -, next⟩ | ⟨-, -, next⟩
    · exact next.noneMeets apart found implemented
    · exact next.noneMeets apart found implemented
  have member : (devNum, barNum) ∈ after.allBars :=
    mem_allBars (wired.numbered foundNow).1 (by omega)
  rw [pciToggleBarRegions,
    toggleLoop_single true (allBars_nodup after) member
      (left.noneMeets apart found implemented) toggled foundNow
      implementedNow,
    bars, sizes]
  exact if_congr (regionsMeet_self _ _) rfl rfl

/--
After the attempts the BAR is active, with its trap, if there was memory and
its region is free, and inactive otherwise.
-/
theorem Left.take (apart : BarsApart state)
    (first : asked = state.world.asked) (wired : Wired lib after)
    {oldAddr : UInt32}
    (last : oldAddr + device.hdr.barSize barNum = 0) :
    let trap := barTrap state.world device.hdr barNum device.data
    let final :=
      takeRegion after devNum barNum oldAddr
        (barAddress (device.hdr.bar barNum)) (device.hdr.barSize barNum)
    (Granted state.world device.hdr barNum ∧ FreeIn traps trap ∧
        ∃ count, Left state devNum device barNum final
          (device.hdr.bar barNum) true (insert trap traps) count) ∨
      ¬ (Granted state.world device.hdr barNum ∧ FreeIn traps trap) ∧
        ∃ count, Left state devNum device barNum final
          (device.hdr.bar barNum) false traps count := by
  intro trap final
  subst first
  rcases left.activate bar wired with
    ⟨granted, free, success, next⟩ | ⟨refusal, failure, next⟩
  · have run : final = (pciActivateBar after devNum barNum).2 := by
      have none :
          NoneMeets (pciActivateBar after devNum barNum).2
            (pciActivateBar after devNum barNum).2.allBars oldAddr
            (device.hdr.barSize barNum) :=
        fun _ _ _ _ _ => regionsMeet_last _ _ last
      simp only [final, takeRegion, success, pciToggleBarRegions,
        toggleLoop_of_noneMeets true none]
      rw [if_neg (by decide)]
    rw [run]
    exact Or.inl ⟨Or.inl granted, free, _, next⟩
  · have run :
        final =
          if barAddress (device.hdr.bar barNum) <
              barAddress (device.hdr.bar barNum) +
                device.hdr.barSize barNum then
            (pciActivateBar (pciActivateBar after devNum barNum).2 devNum
              barNum).2
          else
            (pciActivateBar after devNum barNum).2 := by
      rw [← next.retry found bar apart (wired.activate devNum barNum)]
      simp only [final, takeRegion, if_pos failure]
    rw [run]
    split
    case isTrue proper =>
      rcases next.activate bar (wired.activate devNum barNum) with
        ⟨granted, free, -, final⟩ | ⟨again, -, final⟩
      · exact Or.inl ⟨Or.inr ⟨proper, granted⟩, free, _, final⟩
      · refine Or.inr ⟨?_, _, final⟩
        rintro ⟨granted | ⟨-, granted⟩, free⟩
        · exact refusal ⟨granted, free⟩
        · exact again ⟨granted, free⟩
    case isFalse wraps =>
      refine Or.inr ⟨?_, _, next⟩
      rintro ⟨granted | ⟨proper, -⟩, free⟩
      · exact refusal ⟨granted, free⟩
      · exact wraps proper

end Take

/-! ## The write back -/

/-- The BAR reads its size mask, and the region there is the last one. -/
theorem sizingValue_spec {device : PciDevice (BarWorld vcpus)}
    (virtio : IsVirtio lib device) {barNum : Nat} (bar : barNum < 3) :
    Typed barNum (sizingValue device.hdr barNum) ∧
      barAddress (sizingValue device.hdr barNum) +
          device.hdr.barSize barNum =
        0 ∧
      sizingValue device.hdr barNum =
        ~~~(device.hdr.barSize barNum - 1) |||
          (device.hdr.bar barNum &&&
            if barNum = 0 then 0x3 else 0xf) := by
  have typed := virtio.typed (show barNum < 6 by omega)
  have sized := typed.merged (~~~(device.hdr.barSize barNum - 1))
  have address :
      barAddress (sizingValue device.hdr barNum) =
        ~~~(virtioBarSize barNum - 1) &&&
          barMask (device.hdr.bar barNum) := by
    have masks :
        barMask (sizingValue device.hdr barNum) =
          barMask (device.hdr.bar barNum) := by
      rw [typed.mask_eq]
      exact sized.mask_eq
    rw [barAddress, masks, ← virtio.sizes]
    exact merged_high ..
  refine ⟨sized, ?_, ?_⟩
  · rw [address, virtio.sizes, typed.mask_eq]
    match barNum, bar with
    | 0, _ => decide
    | 1, _ => decide
    | 2, _ => decide
  · rw [sizingValue, virtio.sizes, typed.mask_eq]
    match barNum, bar with
    | 0, _ => rfl
    | 1, _ => rfl
    | 2, _ => rfl

section Move

variable {state sized : PciState (BarWorld vcpus)} {devNum : Nat}
  {device : PciDevice (BarWorld vcpus)}
  (found : state.devices devNum = some device) {barNum : Nat}
  (bar : barNum < 3) (apart : BarsApart state) (wired : Wired lib state)

include found bar apart wired

/-- With the old region given up, none is in the way of the new one. -/
theorem moveBar_released {r : Int} {after : PciState (BarWorld vcpus)}
    (released : pciDeactivateBar sized devNum barNum = (r, after))
    (success : 0 ≤ r) {traps : Set Trap} {asked : Nat}
    (left :
      Left state devNum device barNum after
        (sizingValue device.hdr barNum) false traps asked) :
    moveBar sized devNum barNum
        (barAddress (sizingValue device.hdr barNum))
        (barAddress (device.hdr.bar barNum)) (device.hdr.barSize barNum)
        (device.hdr.bar barNum) =
      takeRegion
        (after.modify devNum fun hdr =>
          hdr.setBar barNum (device.hdr.bar barNum))
        devNum barNum (barAddress (sizingValue device.hdr barNum))
        (barAddress (device.hdr.bar barNum))
        (device.hdr.barSize barNum) := by
  have virtio := wired.virtio found
  have implemented := (virtio.implemented_iff barNum).mpr bar
  have last := (sizingValue_spec virtio bar).2.1
  have none :
      NoneMeets after after.allBars (barAddress (device.hdr.bar barNum))
        (device.hdr.barSize barNum) := by
    intro entry member second there exists'
    by_cases same : entry = (devNum, barNum)
    · subst same
      obtain ⟨now, foundNow, -, sizes, -, bars, -⟩ := left.here
      cases foundNow.symm.trans there
      rw [bars, sizes, Function.update_self]
      exact last_regionsMeet last _ _
    · exact
        left.noneMeets apart found implemented entry
          (List.mem_erase_of_ne same |>.mpr member) second there exists'
  simp only [moveBar, released, pciToggleBarRegions,
    toggleLoop_of_noneMeets false none, takeRegion]
  rw [if_neg (not_lt.mpr success), if_neg (by decide)]

omit apart in
/-- The write back, with what it computes from the BAR in between. -/
theorem barWr_back :
    pciConfigBarWr
        (state.modify devNum fun hdr =>
          hdr.setBar barNum (sizingValue device.hdr barNum))
        devNum barNum (device.hdr.bar barNum) =
      if device.hdr.spaceEnabled barNum then
        moveBar
          (state.modify devNum fun hdr =>
            hdr.setBar barNum (sizingValue device.hdr barNum))
          devNum barNum (barAddress (sizingValue device.hdr barNum))
          (barAddress (device.hdr.bar barNum)) (device.hdr.barSize barNum)
          (device.hdr.bar barNum)
      else
        (state.modify devNum fun hdr =>
            hdr.setBar barNum (sizingValue device.hdr barNum)).modify
          devNum fun hdr => hdr.setBar barNum (device.hdr.bar barNum) := by
  have virtio := wired.virtio found
  have typed := virtio.typed (show barNum < 6 by omega)
  have sized := (sizingValue_spec virtio bar).1
  have masks :
      barMask (sizingValue device.hdr barNum) =
        barMask (device.hdr.bar barNum) := by
    rw [typed.mask_eq]
    exact sized.mask_eq
  have written :
      writtenValue
          (device.hdr.setBar barNum (sizingValue device.hdr barNum)) barNum
          (device.hdr.bar barNum) =
        device.hdr.bar barNum := by
    have low :
        sizingValue device.hdr barNum &&&
            ~~~ barMask (device.hdr.bar barNum) =
          device.hdr.bar barNum &&& ~~~ barMask (device.hdr.bar barNum) :=
      merged_low ..
    rw [writtenValue, PciHeader.bar_setBar_self, masks, low]
    exact merged_self ..
  have space :
      (device.hdr.setBar barNum
          (sizingValue device.hdr barNum)).spaceEnabled barNum =
        device.hdr.spaceEnabled barNum := by
    rw [PciHeader.spaceEnabled, PciHeader.bar_setBar_self, sized.isIo,
      PciHeader.spaceEnabled, typed.isIo, PciHeader.ioSpaceEnabled,
      PciHeader.command_setBar, PciHeader.memorySpaceEnabled,
      PciHeader.command_setBar, PciHeader.ioSpaceEnabled,
      PciHeader.memorySpaceEnabled]
  have sizes :
      (device.hdr.setBar barNum
        (sizingValue device.hdr barNum)).barSize = device.hdr.barSize :=
    rfl
  rw [pciConfigBarWr, modify_devices_self state found]
  dsimp only
  rw [if_neg typed.ne_all_ones, written, space,
    PciHeader.bar_setBar_self, sizes]
  cases device.hdr.spaceEnabled barNum <;> rfl

end Move

/-- The write back finds the trap of the BAR, or has nothing to find. -/
def ProbeFits (state : PciState (BarWorld vcpus))
    (device : PciDevice (BarWorld vcpus)) (barNum : Nat) : Prop :=
  let trap := barTrap state.world device.hdr barNum device.data
  let sized := sizingValue device.hdr barNum
  let probed := trapLow (device.hdr.setBar barNum sized) barNum
  device.hdr.spaceEnabled barNum = false ∨
    if device.hdr.barActive barNum then
      (trap ∈ state.world.traps.traps ∧ trap.Covers (barBus barNum) probed ∧
          Granted state.world device.hdr barNum) ∨
        barNum ≠ 0 ∧ device.hdr.bar barNum = sized ∧
          ∀ stored ∈ state.world.traps.traps,
            ¬ stored.Covers (barBus barNum) probed
    else
      ¬ (Granted state.world device.hdr barNum ∧
        state.world.traps.Free trap)

/-- The BARs of a device and which of them are active. -/
def viewOf (state : PciState (BarWorld vcpus)) (devNum : Nat) :
    Option ((Nat → UInt32) × (Nat → Bool)) :=
  (state.devices devNum).map fun device =>
    (device.hdr.bar, device.hdr.barActive)

/-- The same BARs, of which the same are active, and the same traps. -/
structure SameBars (state after : PciState (BarWorld vcpus)) : Prop where
  views : ∀ devNum, viewOf after devNum = viewOf state devNum
  traps : after.world.traps.traps = state.world.traps.traps

theorem Left.sameBars_iff {state after : PciState (BarWorld vcpus)}
    {devNum : Nat} {device : PciDevice (BarWorld vcpus)}
    (found : state.devices devNum = some device) {barNum : Nat}
    {value : UInt32} {active : Bool} {traps : Set Trap} {asked : Nat}
    (left :
      Left state devNum device barNum after value active traps asked) :
    SameBars state after ↔
      value = device.hdr.bar barNum ∧
        active = device.hdr.barActive barNum ∧
        traps = state.world.traps.traps := by
  obtain ⟨now, foundNow, -, -, -, bars, activity⟩ := left.here
  constructor
  · rintro ⟨views, sameTraps⟩
    have view := views devNum
    rw [viewOf, viewOf, found, foundNow, Option.map_some, Option.map_some,
      Option.some.injEq, Prod.mk.injEq, bars, activity] at view
    obtain ⟨sameBars, sameActive⟩ := view
    refine ⟨?_, ?_, left.traps.symm.trans sameTraps⟩
    · rw [← sameBars, Function.update_self]
    · rw [← sameActive, Function.update_self]
  · rintro ⟨rfl, rfl, rfl⟩
    refine ⟨?_, left.traps⟩
    intro other
    by_cases same : other = devNum
    · rw [same, viewOf, viewOf, found, foundNow, Option.map_some,
        Option.map_some, bars, activity, Function.update_eq_self,
        Function.update_eq_self]
    · rw [viewOf, viewOf, left.elsewhere other same]

/-- What is removed at an address is put back exactly if it is the same. -/
theorem reinserted_iff {state : TrapState vcpus} (calm : Calm state)
    {found : Trap} (member : found ∈ state.traps) {bus : Bus}
    {addr : UInt64} (covers : found.Covers bus addr) (trap : Trap) :
    FreeIn (state.traps \ {found}) trap ∧
        insert trap (state.traps \ {found}) = state.traps ↔
      trap ∈ state.traps ∧ trap.Covers bus addr := by
  constructor
  · rintro ⟨-, same⟩
    have inside : found ∈ insert trap (state.traps \ {found}) := by
      rw [same]
      exact member
    rcases Set.mem_insert_iff.mp inside with rfl | ⟨-, other⟩
    · exact ⟨member, covers⟩
    · exact absurd rfl other
  · rintro ⟨inside, covering⟩
    cases calm.unique member inside covers covering
    refine ⟨?_, Set.insert_sdiff_self_of_mem member⟩
    rintro stored ⟨former, other⟩ meets
    exact other (calm.eq_of_meets former member meets)

section Back

variable {state : PciState (BarWorld vcpus)} {devNum : Nat}
  {device : PciDevice (BarWorld vcpus)}
  (found : state.devices devNum = some device) {barNum : Nat}
  (bar : barNum < 3) (apart : BarsApart state) (wired : Wired lib state)

include found bar apart wired

/-- From where the old region is given up, with some traps left. -/
theorem sameBars_released {r : Int} {sized after : PciState (BarWorld vcpus)}
    (wiredAfter : Wired lib after)
    (released : pciDeactivateBar sized devNum barNum = (r, after))
    (success : 0 ≤ r) {traps : Set Trap}
    (left :
      Left state devNum device barNum after
        (sizingValue device.hdr barNum) false traps state.world.asked)
    {trap : Trap}
    (own : barTrap state.world device.hdr barNum device.data = trap) :
    SameBars state
        (moveBar sized devNum barNum
          (barAddress (sizingValue device.hdr barNum))
          (barAddress (device.hdr.bar barNum)) (device.hdr.barSize barNum)
          (device.hdr.bar barNum)) ↔
      if device.hdr.barActive barNum then
        Granted state.world device.hdr barNum ∧ FreeIn traps trap ∧
          insert trap traps = state.world.traps.traps
      else
        ¬ (Granted state.world device.hdr barNum ∧ FreeIn traps trap) ∧
          traps = state.world.traps.traps := by
  subst own
  have virtio := wired.virtio found
  have typed := virtio.typed (show barNum < 6 by omega)
  have last := (sizingValue_spec virtio bar).2.1
  rw [moveBar_released found bar apart wired released success left]
  rcases (left.setBar (device.hdr.bar barNum)).take found bar apart rfl
      (wiredAfter.setBar typed) last with
    ⟨granted, free, count, final⟩ | ⟨refusal, count, final⟩
  · rw [final.sameBars_iff found]
    cases device.hdr.barActive barNum with
    | true => simp [granted, free]
    | false => simp [granted, free]
  · rw [final.sameBars_iff found]
    cases device.hdr.barActive barNum with
    | true =>
        simp only [Bool.false_eq_true, false_and, and_false, if_true,
          false_iff]
        exact fun both => refusal ⟨both.1, both.2.1⟩
    | false =>
        simp only [true_and, Bool.false_eq_true, if_false]
        exact (and_iff_right refusal).symm

theorem sameBars_moved (enabled : device.hdr.spaceEnabled barNum = true) :
    SameBars state
        (moveBar
          (state.modify devNum fun hdr =>
            hdr.setBar barNum (sizingValue device.hdr barNum))
          devNum barNum (barAddress (sizingValue device.hdr barNum))
          (barAddress (device.hdr.bar barNum)) (device.hdr.barSize barNum)
          (device.hdr.bar barNum)) ↔
      ProbeFits state device barNum := by
  have virtio := wired.virtio found
  have left :=
    (Left.refl found barNum).setBar (sizingValue device.hdr barNum)
  have wiredSized : Wired lib
      (state.modify devNum fun hdr =>
        hdr.setBar barNum (sizingValue device.hdr barNum)) :=
    wired.setBar (sizingValue_spec virtio bar).1
  have foundSized := modify_devices_self state found fun hdr =>
    hdr.setBar barNum (sizingValue device.hdr barNum)
  rw [ProbeFits, enabled]
  cases result :
      pciDeactivateBar
        (state.modify devNum fun hdr =>
          hdr.setBar barNum (sizingValue device.hdr barNum))
        devNum barNum with
  | mk r after =>
      have spec := deactivation wiredSized foundSized bar
      have wiredAfter := wiredSized.deactivate devNum barNum
      rw [result] at spec wiredAfter
      cases spec with
      | already inactive =>
          have idle : device.hdr.barActive barNum = false := inactive
          rw [idle] at left ⊢
          rw [sameBars_released found bar apart wired wiredAfter result
            (le_refl 0) left rfl, idle]
          simp only [Bool.false_eq_true, if_false, and_true, false_or,
            Bool.true_eq_false]
          rfl
      | removed success active calm member covers rest =>
          have running : device.hdr.barActive barNum = true := active
          have next :=
            (left.withTraps rest state.world.asked).setActive false
          rw [sameBars_released found bar apart wired wiredAfter result
            success next rfl, running]
          simp only [if_true, Bool.true_eq_false, false_or]
          have missing :
              ¬ (barNum ≠ 0 ∧
                device.hdr.bar barNum = sizingValue device.hdr barNum ∧
                ∀ stored ∈ state.world.traps.traps,
                  ¬ stored.Covers (barBus barNum)
                    (trapLow
                      (device.hdr.setBar barNum
                        (sizingValue device.hdr barNum)) barNum)) :=
            fun none => none.2.2 _ member covers
          have again := reinserted_iff wired.calm member covers
            (barTrap state.world device.hdr barNum device.data)
          rw [or_iff_left missing]
          constructor
          · rintro ⟨granted, back⟩
            obtain ⟨inside, covering⟩ := again.mp back
            exact ⟨inside, covering, granted⟩
          · rintro ⟨inside, covering, granted⟩
            exact ⟨granted, again.mpr ⟨inside, covering⟩⟩
      | missed ports active missing =>
          have running : device.hdr.barActive barNum = true := active
          have next := left.setActive false
          rw [sameBars_released found bar apart wired wiredAfter result
            (le_refl 0) next rfl, running]
          simp only [if_true, Bool.true_eq_false, false_or]
          refine iff_of_false ?_ ?_
          · rintro ⟨-, free, same⟩
            have inside := same ▸ Set.mem_insert _ _
            exact free _ inside (wired.calm.meets_self inside)
          · rintro (⟨inside, covers, -⟩ | ⟨memory, -⟩)
            · exact missing _ inside covers
            · exact memory ports
      | failed memory active missing =>
          have running : device.hdr.barActive barNum = true := active
          have run :
              moveBar
                  (state.modify devNum fun hdr =>
                    hdr.setBar barNum (sizingValue device.hdr barNum))
                  devNum barNum
                  (barAddress (sizingValue device.hdr barNum))
                  (barAddress (device.hdr.bar barNum))
                  (device.hdr.barSize barNum) (device.hdr.bar barNum) =
                state.modify devNum fun hdr =>
                  hdr.setBar barNum (sizingValue device.hdr barNum) := by
            simp only [moveBar, result]
            exact if_pos (by decide)
          rw [run, left.sameBars_iff found, running]
          simp only [if_true, Bool.true_eq_false, false_or, and_true]
          constructor
          · intro same
            exact Or.inr ⟨memory, same.symm, missing⟩
          · rintro (⟨inside, covers, -⟩ | ⟨-, same, -⟩)
            · exact absurd covers (missing _ inside)
            · exact same.symm

end Back

/-! ## The probe -/

section Probe

variable (arch : PciArch)

theorem barRegister_lt {barNum : Nat} (bar : barNum < 6) :
    pciBarOffset + 4 * barNum < arch.devCfgSize := by
  rw [PciArch.devCfgSize, PciArch.offsetBits, pciBarOffset]
  split <;> omega

/-- A BAR as a register of a function. -/
def barTarget (place : ConfigFunction) (barNum : Nat) (bar : barNum < 6) :
    ConfigTarget arch where
  toConfigFunction := place
  register := pciBarOffset + 4 * barNum
  registerBound := barRegister_lt arch bar

/--
Read a register, write all ones to it, read it, and write back what was read
first.  The results are both readings and the state after that.
-/
def sizingProbe (state : PciState (BarWorld vcpus))
    (target : ConfigTarget arch) :
    List UInt8 × List UInt8 × PciState (BarWorld vcpus) :=
  let (first, state) := portAccess arch state target (.read [0, 0, 0, 0])
  let (_, state) :=
    portAccess arch state target (.write [0xff, 0xff, 0xff, 0xff])
  let (size, state) := portAccess arch state target (.read [0, 0, 0, 0])
  let (_, state) := portAccess arch state target (.write first)
  (first, size, state)

/-- The content of the address register that selects a BAR. -/
def selected (target : ConfigTarget arch) : UInt32 :=
  .ofNat (target.address.toNat / 4 * 4)

variable {arch} {state : PciState (BarWorld vcpus)}
  {place : ConfigFunction} (zero : place.function = 0) {barNum : Nat}
  (bar : barNum < 6) {device : PciDevice (BarWorld vcpus)}
  (found : state.devices place.device = some device)

theorem barTarget_dword {access : Access} (four : access.data.length = 4) :
    (barTarget arch place barNum bar).register % 4 +
        access.data.length ≤ 4 := by
  show (pciBarOffset + 4 * barNum) % 4 + access.data.length ≤ 4
  rw [pciBarOffset, four]
  omega

/-- The bytes of a BAR. -/
theorem bar_bytes (hdr : PciHeader) (barNum : Nat) :
    peek hdr.config (pciBarOffset + 4 * barNum) 4 =
      toLe 4 (hdr.bar barNum).toNat := by
  have bytes :=
    toLe_ofLe (peek hdr.config (pciBarOffset + 4 * barNum) 4)
  have bound :
      ofLe (peek hdr.config (pciBarOffset + 4 * barNum) 4) < 2 ^ 32 := by
    have small :=
      ofLe_lt (peek hdr.config (pciBarOffset + 4 * barNum) 4)
    rw [peek_length] at small
    exact small
  rw [peek_length] at bytes
  rw [PciHeader.bar, UInt32.toNat_ofNat', Nat.mod_eq_of_lt bound, bytes]

theorem deviceConfigWr_bar (state : PciState (BarWorld vcpus))
    (devNum : Nat) {barNum : Nat} (bar : barNum < 6) (value : UInt32) :
    deviceConfigWr state devNum (pciBarOffset + 4 * barNum)
        (toLe 4 value.toNat) =
      pciConfigBarWr state devNum barNum value := by
  have small : value.toNat < 256 ^ 4 := value.toNat_lt
  have inside : inBars (pciBarOffset + 4 * barNum) := by
    rw [inBars, pciBarOffset]
    omega
  obtain ⟨index, same⟩ := barIndex_inBars inside
  have number : barIndex (pciBarOffset + 4 * barNum) = barNum := by
    rw [pciBarOffset] at same ⊢
    omega
  have writable :
      ofLe (peek pciConfigWritable (pciBarOffset + 4 * barNum)
        (toLe 4 value.toNat).length) ≠ 0 := by
    have all : ∀ index < 6,
        ofLe (peek pciConfigWritable (pciBarOffset + 4 * index) 4) ≠ 0 := by
      decide
    rw [toLe_length]
    exact all barNum bar
  rw [deviceConfigWr, if_neg (fun both => writable both.2), if_neg,
    if_pos index, number, ofLe_toLe, Nat.mod_eq_of_lt small,
    UInt32.ofNat_toNat]
  rw [pciBarOffset, pciCommand]
  omega

include zero found

omit found in
/-- An access to the BAR reaches the device. -/
theorem portAccess_bar (bits : UInt32) (access : Access)
    (four : access.data.length = 4) :
    portAccess arch (state.withBits bits) (barTarget arch place barNum bar)
        access =
      ((answered state (barTarget arch place barNum bar) true access).1,
        (answered state (barTarget arch place barNum bar) true
          access).2.withBits
            (selected arch (barTarget arch place barNum bar))) := by
  have visible :=
    (visible_programmed (barTarget arch place barNum bar)).mpr zero
  have again :
      (state.withBits bits).withBits
          (selected arch (barTarget arch place barNum bar)) =
        state.withBits (selected arch (barTarget arch place barNum bar)) :=
    rfl
  rw [selected] at again
  rw [portAccess_eq _ _ (barTarget_dword bar four), again,
    configAccess_eq, decide_eq_true visible]
  rfl

theorem port_read (bits : UInt32) :
    portAccess arch (state.withBits bits) (barTarget arch place barNum bar)
        (.read [0, 0, 0, 0]) =
      (toLe 4 (device.hdr.bar barNum).toNat,
        state.withBits
          (selected arch (barTarget arch place barNum bar))) := by
  have reached :
      answered state (barTarget arch place barNum bar) true
          (.read [0, 0, 0, 0]) =
        (toLe 4 (device.hdr.bar barNum).toNat, state) := by
    have there :
        state.devices (barTarget arch place barNum bar).device =
          some device :=
      found
    rw [answered, there]
    dsimp only
    rw [if_pos rfl, ← bar_bytes]
    rfl
  rw [portAccess_bar zero bar bits _ rfl, reached]

theorem port_write (bits value : UInt32) :
    portAccess arch (state.withBits bits) (barTarget arch place barNum bar)
        (.write (toLe 4 value.toNat)) =
      (toLe 4 value.toNat,
        (pciConfigBarWr state place.device barNum value).withBits
          (selected arch (barTarget arch place barNum bar))) := by
  have reached :
      answered state (barTarget arch place barNum bar) true
          (.write (toLe 4 value.toNat)) =
        (toLe 4 value.toNat,
          pciConfigBarWr state place.device barNum value) := by
    rw [← deviceConfigWr_bar state place.device bar value]
    refine if_pos ?_
    rw [Bool.true_and, Option.isSome_iff_exists]
    exact ⟨device, found⟩
  rw [portAccess_bar zero bar bits (.write (toLe 4 value.toNat))
    (toLe_length 4 value.toNat), reached]

/-- The probe in terms of the two writes it makes. -/
theorem sizingProbe_eq :
    sizingProbe arch state (barTarget arch place barNum bar) =
      (toLe 4 (device.hdr.bar barNum).toNat,
        toLe 4 (sizingValue device.hdr barNum).toNat,
        (pciConfigBarWr
          (state.modify place.device fun hdr =>
            hdr.setBar barNum (sizingValue device.hdr barNum))
          place.device barNum (device.hdr.bar barNum)).withBits
            (selected arch (barTarget arch place barNum bar))) := by
  have ones : [0xff, 0xff, 0xff, 0xff] =
      toLe 4 (0xffffffff : UInt32).toNat := by
    decide
  have sized :
      pciConfigBarWr state place.device barNum 0xffffffff =
        state.modify place.device fun hdr =>
          hdr.setBar barNum (sizingValue device.hdr barNum) := by
    rw [pciConfigBarWr, found]
    exact if_pos rfl
  have foundSized := modify_devices_self state found fun hdr =>
    hdr.setBar barNum (sizingValue device.hdr barNum)
  have first :
      portAccess arch state (barTarget arch place barNum bar)
          (.read [0, 0, 0, 0]) =
        _ :=
    port_read zero bar found state.configAddressBits
  simp only [sizingProbe]
  rw [first]
  dsimp only
  rw [ones, port_write zero bar found, sized]
  dsimp only
  rw [port_read zero bar foundSized, PciHeader.bar_setBar_self]
  dsimp only
  rw [port_write zero bar foundSized]

end Probe

section Transparency

variable (lib) (arch : PciArch)

/--
The probe reads the size mask with the type bits in between, and all BARs,
their activity and the traps are as before.
-/
structure Transparent (state : PciState (BarWorld vcpus))
    (device : PciDevice (BarWorld vcpus)) (barNum : Nat)
    (probe : List UInt8 × List UInt8 × PciState (BarWorld vcpus)) :
    Prop where
  size :
    probe.2.1 =
      toLe 4
        (~~~(device.hdr.barSize barNum - 1) |||
          (device.hdr.bar barNum &&&
            if barIsIo (device.hdr.bar barNum) then 0x3 else 0xf)).toNat
  same : SameBars state probe.2.2

/--
In every reachable state without overlapping BARs, a probe of a BAR is
transparent if and only if decoding is disabled, or the BAR is active and
the trap at the address of its size mask is its own one and can be
registered again, or is at the size mask with no trap there, or is inactive
and its trap cannot be registered.
-/
theorem sizing_probe_transparent_iff (mmioArea : UInt32)
    (mallocs : Nat → Bool) (actions : List PciAction)
    {state : PciState (BarWorld vcpus)}
    (reached :
      run (pciStep lib arch) (pciStart mmioArea mallocs) actions = state)
    (apart : BarsApart state) (place : ConfigFunction)
    (zero : place.function = 0) {device : PciDevice (BarWorld vcpus)}
    (found : state.devices place.device = some device) {barNum : Nat}
    (bar : barNum < 6)
    (implemented : device.hdr.barIsImplemented barNum = true) :
    Transparent state device barNum
        (sizingProbe arch state (barTarget arch place barNum bar)) ↔
      ProbeFits state device barNum := by
  have wired : Wired lib state := by
    rw [← reached]
    exact Wired.run arch mmioArea mallocs actions
  have virtio := wired.virtio found
  have low : barNum < 3 := (virtio.implemented_iff barNum).mp implemented
  have typed := virtio.typed bar
  have size :
      sizingValue device.hdr barNum =
        ~~~(device.hdr.barSize barNum - 1) |||
          (device.hdr.bar barNum &&&
            if barIsIo (device.hdr.bar barNum) then 0x3 else 0xf) := by
    rw [(sizingValue_spec virtio low).2.2, typed.isIo]
    simp only [decide_eq_true_eq]
  have back : Transparent state device barNum
        (sizingProbe arch state (barTarget arch place barNum bar)) ↔
      SameBars state
        (pciConfigBarWr
          (state.modify place.device fun hdr =>
            hdr.setBar barNum (sizingValue device.hdr barNum))
          place.device barNum (device.hdr.bar barNum)) := by
    rw [sizingProbe_eq zero bar found]
    constructor
    · rintro ⟨-, views, traps⟩
      exact ⟨views, traps⟩
    · rintro ⟨views, traps⟩
      exact ⟨by rw [size], views, traps⟩
  rw [back, barWr_back found low wired]
  cases enabled : device.hdr.spaceEnabled barNum with
  | true =>
      rw [if_pos rfl]
      exact sameBars_moved found low apart wired enabled
  | false =>
      rw [if_neg Bool.false_ne_true]
      have left :=
        ((Left.refl found barNum).setBar
          (sizingValue device.hdr barNum)).setBar (device.hdr.bar barNum)
      rw [left.sameBars_iff found]
      exact iff_of_true ⟨rfl, rfl, rfl⟩ (Or.inl enabled)

/-- The regions of two BARs do not overlap, if there are such BARs. -/
def regionsApart (state : PciState (BarWorld vcpus))
    (first second : Nat × Nat) : Bool :=
  match state.devices first.1, state.devices second.1 with
  | some device, some other =>
      decide
          ((barAddress (device.hdr.bar first.2)).toNat +
              (device.hdr.barSize first.2).toNat ≤
            (barAddress (other.hdr.bar second.2)).toNat) ||
        decide
          ((barAddress (other.hdr.bar second.2)).toNat +
              (other.hdr.barSize second.2).toNat ≤
            (barAddress (device.hdr.bar first.2)).toNat)
  | _, _ => true

variable {lib}

theorem barsApart_of_all {state : PciState (BarWorld vcpus)}
    (wired : Wired lib state)
    (check :
      (state.allBars.all fun first =>
        state.allBars.all fun second =>
          first == second || regionsApart state first second) = true) :
    BarsApart state := by
  intro devNum device barNum other second otherBar found implemented there
    implementedOther different
  have bar := ((wired.virtio found).implemented_iff barNum).mp implemented
  have barOther :=
    ((wired.virtio there).implemented_iff otherBar).mp implementedOther
  rw [List.all_eq_true] at check
  have checked :=
    check (devNum, barNum)
      (mem_allBars (wired.numbered found).1 (by omega))
  rw [List.all_eq_true] at checked
  have apart :=
    checked (other, otherBar)
      (mem_allBars (wired.numbered there).1 (by omega))
  rw [Bool.or_eq_true, beq_iff_eq, or_iff_right different, regionsApart,
    found, there, Bool.or_eq_true, decide_eq_true_eq, decide_eq_true_eq]
    at apart
  exact apart

end Transparency

/-- A machine with one processor. -/
def oneVcpu : Vcpus where
  nrcpus := 1
  isInt := by decide

/-- The state of a machine with one device, after some writes. -/
def oneDevice (writes : List PciAction) : PciState (BarWorld oneVcpu) :=
  run (pciStep (.plain _) ⟨false, 0xd1000000⟩)
    (pciStart 0xd2000000 fun _ => true)
    (.init false (fun _ => 0) :: writes)

theorem oneDevice_wired (writes : List PciAction) :
    Wired (.plain _) (oneDevice writes) :=
  Wired.run _ _ _ _

/-- Function 0 of the first device. -/
def firstDevice : ConfigFunction where
  bus := 0
  device := 0
  function := 0
  busBound := by decide
  deviceBound := by decide
  functionBound := by decide

/-- With decoding disabled, the probe of a memory BAR is transparent. -/
theorem sizing_probe_transparent_on_disabled :
    ∃ device,
      (oneDevice [.window 0xd1000004 (.write [0, 0])]).devices 0 =
          some device ∧
        Transparent (oneDevice [.window 0xd1000004 (.write [0, 0])]) device
          1
          (sizingProbe ⟨false, 0xd1000000⟩
            (oneDevice [.window 0xd1000004 (.write [0, 0])])
            (barTarget _ firstDevice 1 (by decide))) := by
  have there :
      ((oneDevice [.window 0xd1000004 (.write [0, 0])]).devices 0).map
          (fun device =>
            (device.hdr.spaceEnabled 1, device.hdr.barIsImplemented 1)) =
        some (false, true) := by
    decide +kernel
  rw [Option.map_eq_some_iff] at there
  obtain ⟨device, found, facts⟩ := there
  rw [Prod.mk.injEq] at facts
  refine ⟨device, found, ?_⟩
  refine
    (sizing_probe_transparent_iff (.plain _) _ _ _ _ rfl
      (barsApart_of_all (oneDevice_wired _) (by decide +kernel))
      firstDevice rfl found (by decide) facts.2).mpr ?_
  exact Or.inl facts.1

/--
With decoding enabled, the memory BAR is left with its size mask: the write
back looks for the trap there and gives up.
-/
theorem sizing_probe_leaves_mask :
    BarsApart (oneDevice []) ∧
      ∀ device, (oneDevice []).devices 0 = some device →
        device.hdr.barIsImplemented 1 = true ∧
          ¬ Transparent (oneDevice []) device 1
            (sizingProbe ⟨false, 0xd1000000⟩ (oneDevice [])
              (barTarget _ firstDevice 1 (by decide))) := by
  refine
    ⟨barsApart_of_all (oneDevice_wired _) (by decide +kernel), ?_⟩
  intro device found
  refine
    ⟨(((oneDevice_wired []).virtio found).implemented_iff 1).mpr (by decide),
      ?_⟩
  intro transparent
  have kept :=
    congrArg (Option.map fun view => view.1 1) (transparent.same.views 0)
  revert kept
  decide +kernel

end Left

end Kemu.Virtio.PciBar
