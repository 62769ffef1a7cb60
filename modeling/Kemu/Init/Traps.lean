import Kemu.Init.Mmio
import Mathlib.Data.Set.Insert

/-!
# The set of traps

What the trees and the mappings amount to while no handler runs: a set of
traps, each an interval of a bus with a handler and its argument.
Registering adds a trap unless its interval is taken, and deregistering an
address removes the trap that has it.
-/

namespace Kemu.Init.Mmio

open Kemu.Lib.SearchTree
open Kemu.Util.RbtreeInterval

/-- A trap: the addresses from `low` up to `high`, and who handles them. -/
structure Trap where
  bus : Bus
  low : UInt64
  high : UInt64
  mmioFn : Nat
  ptr : Nat
deriving DecidableEq, Repr

namespace Trap

/-- An address of a bus belongs to a trap. -/
def Covers (trap : Trap) (bus : Bus) (addr : UInt64) : Prop :=
  trap.bus = bus ∧ trap.low ≤ addr ∧ addr < trap.high

/-- Two traps of one bus have an address in common. -/
def Meets (first second : Trap) : Prop :=
  first.bus = second.bus ∧ first.low < second.high ∧
    second.low < first.high

end Trap

/-- A mapping in a tree as a trap. -/
def MmioMapping.trap (mmio : MmioMapping) (bus : Bus) : Trap where
  bus := bus
  low := mmio.node.low
  high := mmio.node.high
  mmioFn := mmio.mmioFn
  ptr := mmio.ptr

/-- The flags of a trap that is not coalesced. -/
def Bus.flags : Bus → UInt32
  | .mmio => deviceBusMmio
  | .pio => deviceBusIoport

theorem busOf_flags (bus : Bus) : busOf bus.flags = bus := by
  cases bus <;> rfl

section Traps

variable {vcpus : Vcpus}

/-- The traps that are registered. -/
def TrapState.traps (state : TrapState vcpus) : Set Trap :=
  {trap | ∃ obj mmio, state.heap obj = some mmio ∧
    mmio.node ∈ (state.root trap.bus).inorder ∧ mmio.trap trap.bus = trap}

/-- The interval of a trap is not taken. -/
def TrapState.Free (state : TrapState vcpus) (trap : Trap) : Prop :=
  ∀ stored ∈ state.traps, ¬ stored.Meets trap

/-- No handler runs, and no two traps of a bus have a common address. -/
structure Calm (state : TrapState vcpus) : Prop where
  counts : Counted state
  disjoint : ∀ bus, Disjoint (state.root bus)
  idle : ∀ thread, state.holds thread = none

theorem Calm.initial : Calm (@TrapState.initial vcpus) :=
  ⟨Invariant.initial.1, fun _ => .leaf, fun _ => rfl⟩

theorem mem_traps {state : TrapState vcpus} {obj : Nat}
    {mmio : MmioMapping} (live : state.heap obj = some mmio) {bus : Bus}
    (member : mmio.node ∈ (state.root bus).inorder) :
    mmio.trap bus ∈ state.traps :=
  ⟨obj, mmio, live, member, rfl⟩

section Calm

variable {state : TrapState vcpus} (calm : Calm state)

include calm

/-- Every node of a tree stands for a trap. -/
theorem Calm.exists_trap {bus : Bus} {node : RbIntNode}
    (member : node ∈ (state.root bus).inorder) :
    ∃ trap ∈ state.traps,
      trap.bus = bus ∧ trap.low = node.low ∧ trap.high = node.high := by
  obtain ⟨mmio, live, rfl⟩ := calm.counts.stored member
  exact ⟨_, mem_traps live member, rfl, rfl, rfl⟩

theorem Calm.low_lt_high {trap : Trap} (member : trap ∈ state.traps) :
    trap.low < trap.high := by
  obtain ⟨obj, mmio, -, inside, equal⟩ := member
  have proper := (calm.disjoint trap.bus).nonempty _ inside
  rw [← equal]
  exact proper

theorem Calm.meets_self {trap : Trap} (member : trap ∈ state.traps) :
    trap.Meets trap :=
  ⟨rfl, calm.low_lt_high member, calm.low_lt_high member⟩

/-- At most one trap has an address. -/
theorem Calm.unique {first second : Trap} (inFirst : first ∈ state.traps)
    (inSecond : second ∈ state.traps) {bus : Bus} {addr : UInt64}
    (firstCovers : first.Covers bus addr)
    (secondCovers : second.Covers bus addr) : first = second := by
  obtain ⟨obj, mmio, live, inside, equal⟩ := inFirst
  obtain ⟨other, mapping, alive, within, same⟩ := inSecond
  obtain ⟨rfl, firstLow, firstHigh⟩ := firstCovers
  obtain ⟨sameBus, secondLow, secondHigh⟩ := secondCovers
  rw [← equal] at firstLow firstHigh
  rw [← same] at secondLow secondHigh
  rw [sameBus] at within same
  have node : mmio.node = mapping.node :=
    (calm.disjoint first.bus).unique inside within
      ⟨firstLow, firstHigh⟩ ⟨secondLow, secondHigh⟩
  have objects : obj = other := by
    rw [← (calm.counts.allocated live).1, node]
    exact (calm.counts.allocated alive).1
  subst objects
  cases live.symm.trans alive
  exact equal.symm.trans same

/-- Traps that meet are the same trap. -/
theorem Calm.eq_of_meets {first second : Trap}
    (inFirst : first ∈ state.traps) (inSecond : second ∈ state.traps)
    (meets : first.Meets second) : first = second := by
  obtain ⟨bus, below, above⟩ := meets
  have firstProper := calm.low_lt_high inFirst
  have secondProper := calm.low_lt_high inSecond
  rcases UInt64.le_total first.low second.low with order | order
  · exact calm.unique inFirst inSecond ⟨bus, order, above⟩
      ⟨rfl, UInt64.le_refl _, secondProper⟩
  · exact calm.unique inFirst inSecond ⟨rfl, UInt64.le_refl _, firstProper⟩
      ⟨bus.symm, order, below⟩

end Calm

theorem Counted.mem_traps_iff {state : TrapState vcpus}
    (counts : Counted state) {trap : Trap} :
    trap ∈ state.traps ↔
      ∃ node ∈ (state.root trap.bus).inorder, ∃ mmio,
        state.heap node.obj = some mmio ∧ mmio.trap trap.bus = trap := by
  constructor
  · rintro ⟨obj, mmio, live, member, equal⟩
    refine ⟨mmio.node, member, mmio, ?_, equal⟩
    rw [(counts.allocated live).1]
    exact live
  · rintro ⟨node, member, mmio, live, equal⟩
    obtain ⟨stored, lookup, rfl⟩ := counts.stored member
    cases live.symm.trans lookup
    exact ⟨_, mmio, live, member, equal⟩

/-- The same nodes with the same mappings are the same traps. -/
theorem traps_eq {state after : TrapState vcpus}
    (counts : Counted state) (counted : Counted after)
    (members : ∀ bus node,
      node ∈ (after.root bus).inorder ↔ node ∈ (state.root bus).inorder)
    (heap : ∀ bus node, node ∈ (state.root bus).inorder →
      after.heap node.obj = state.heap node.obj) :
    after.traps = state.traps := by
  ext trap
  rw [counts.mem_traps_iff, counted.mem_traps_iff]
  constructor
  · rintro ⟨node, member, mmio, live, equal⟩
    rw [members] at member
    exact ⟨node, member, mmio, (heap _ _ member).symm.trans live, equal⟩
  · rintro ⟨node, member, mmio, live, equal⟩
    exact
      ⟨node, (members _ _).mpr member, mmio, (heap _ _ member).trans live,
        equal⟩

/-- One more node in a tree is one more trap. -/
theorem traps_insert {state after : TrapState vcpus}
    (counts : Counted state) (counted : Counted after) {bus : Bus}
    {mmio : MmioMapping} (live : after.heap mmio.node.obj = some mmio)
    (members : ∀ other node,
      node ∈ (after.root other).inorder ↔
        other = bus ∧ node = mmio.node ∨ node ∈ (state.root other).inorder)
    (heap : ∀ bus node, node ∈ (state.root bus).inorder →
      after.heap node.obj = state.heap node.obj) :
    after.traps = insert (mmio.trap bus) state.traps := by
  ext trap
  rw [Set.mem_insert_iff, counts.mem_traps_iff, counted.mem_traps_iff]
  constructor
  · rintro ⟨node, member, found, lookup, equal⟩
    rcases (members _ _).mp member with ⟨rfl, rfl⟩ | former
    · cases live.symm.trans lookup
      exact Or.inl equal.symm
    · refine Or.inr ⟨node, former, found, ?_, equal⟩
      exact (heap _ _ former).symm.trans lookup
  · rintro (rfl | ⟨node, member, found, lookup, equal⟩)
    · exact
        ⟨mmio.node, (members _ _).mpr (Or.inl ⟨rfl, rfl⟩), mmio, live, rfl⟩
    · exact
        ⟨node, (members _ _).mpr (Or.inr member), found,
          (heap _ _ member).trans lookup, equal⟩

/-- One node less in a tree is one trap less. -/
theorem traps_erase {state after : TrapState vcpus}
    (calm : Calm state) (counted : Counted after) {bus : Bus}
    {mmio : MmioMapping} (live : state.heap mmio.node.obj = some mmio)
    (inside : mmio.node ∈ (state.root bus).inorder)
    (members : ∀ other node,
      node ∈ (after.root other).inorder ↔
        node ∈ (state.root other).inorder ∧
          ¬ (other = bus ∧ node = mmio.node))
    (heap : ∀ other, other ≠ mmio.node.obj →
      after.heap other = state.heap other) :
    after.traps = state.traps \ {mmio.trap bus} := by
  have counts := calm.counts
  have other :
      ∀ {place : Bus} {node : RbIntNode},
        node ∈ (state.root place).inorder →
          ¬ (place = bus ∧ node = mmio.node) → node.obj ≠ mmio.node.obj := by
    intro place node member different same
    obtain ⟨found, lookup, rfl⟩ := counts.stored member
    rw [same, live] at lookup
    cases lookup
    exact different ⟨counts.apart member inside, rfl⟩
  ext trap
  rw [Set.mem_sdiff, Set.mem_singleton_iff, counts.mem_traps_iff,
    counted.mem_traps_iff]
  constructor
  · rintro ⟨node, member, found, lookup, equal⟩
    obtain ⟨former, different⟩ := (members _ _).mp member
    rw [heap _ (other former different)] at lookup
    refine ⟨⟨node, former, found, lookup, equal⟩, ?_⟩
    rintro rfl
    obtain ⟨stored, storedLive, rfl⟩ := counts.stored former
    cases storedLive.symm.trans lookup
    have proper := (calm.disjoint bus).nonempty _ inside
    have low := congrArg Trap.low equal
    have high := congrArg Trap.high equal
    have shared :
        found.node.low ≤ mmio.node.low ∧
          mmio.node.low < found.node.high := by
      rw [show found.node.low = mmio.node.low from low,
        show found.node.high = mmio.node.high from high]
      exact ⟨UInt64.le_refl _, proper⟩
    exact different ⟨rfl, (calm.disjoint bus).unique former inside shared
      ⟨UInt64.le_refl _, proper⟩⟩
  · rintro ⟨⟨node, member, found, lookup, equal⟩, different⟩
    have kept : ¬ (trap.bus = bus ∧ node = mmio.node) := by
      rintro ⟨rfl, rfl⟩
      cases live.symm.trans lookup
      exact different equal.symm
    refine
      ⟨node, (members _ _).mpr ⟨member, kept⟩, found, ?_, equal⟩
    rw [heap _ (other member kept)]
    exact lookup

section Changes

variable {state : TrapState vcpus} (calm : Calm state)
  (lib : Rebalancer RbIntNode)

include calm

/-- A node that is free in its tree is free as a trap. -/
theorem Calm.free_iff (new : RbIntNode) (bus : Bus) (mmioFn ptr : Nat) :
    state.Free ⟨bus, new.low, new.high, mmioFn, ptr⟩ ↔
      ∀ stored ∈ (state.root bus).inorder, ¬ Overlaps stored new := by
  constructor
  · intro free stored member overlaps
    obtain ⟨trap, inside, sameBus, low, high⟩ := calm.exists_trap member
    apply free trap inside
    refine ⟨sameBus, ?_, ?_⟩
    · rw [low]
      exact overlaps.1
    · rw [high]
      exact overlaps.2
  · rintro free trap ⟨obj, mmio, live, member, equal⟩ ⟨sameBus, meets⟩
    rw [← equal] at meets
    rw [sameBus] at member
    exact free mmio.node member meets

/--
`kvm_register_iotrap` adds a trap if there is memory for it and its interval
is free, and fails and changes no trap otherwise.
-/
theorem Calm.register (bus : Bus) {low len : UInt64}
    (proper : low < low + len) (mmioFn ptr : Nat) (allocated : Bool)
    (ioctl : Int) :
    let new : Trap := ⟨bus, low, low + len, mmioFn, ptr⟩
    let result :=
      kvmRegisterIotrap lib state low len mmioFn ptr bus.flags allocated
        ioctl
    Calm result.2 ∧
      ((allocated = true ∧ state.Free new ∧ result.1 = 0 ∧
          result.2.traps = insert new state.traps) ∨
        ¬ (allocated = true ∧ state.Free new) ∧ result.1 < 0 ∧
          result.2.traps = state.traps) := by
  intro new result
  have counts : Counted result.2 := calm.counts.registerIotrap lib ..
  cases allocated with
  | false =>
      have run : result = (eNoMem, state) := rfl
      rw [run]
      refine ⟨calm, Or.inr ⟨?_, (by decide : eNoMem < 0), rfl⟩⟩
      rintro ⟨impossible, -⟩
      cases impossible
  | true =>
      let node : RbIntNode := ⟨low, low + len, state.next⟩
      let mmio : MmioMapping := ⟨node, mmioFn, ptr, 0, false⟩
      let grown :=
        TrapState.store { state with next := state.next + 1 } state.next
          mmio
      have run :
          result =
            ((rbIntInsert lib (state.root bus) node).1,
              grown.setRoot bus
                (rbIntInsert lib (state.root bus) node).2) := by
        cases bus <;> rfl
      have old : ∀ {bus : Bus} {stored : RbIntNode},
          stored ∈ (state.root bus).inorder →
            grown.heap stored.obj = state.heap stored.obj := by
        intro bus stored member
        refine Function.update_of_ne ?_ ..
        obtain ⟨found, live, -⟩ := calm.counts.stored member
        exact (calm.counts.allocated live).2.ne
      have free := calm.free_iff node bus mmioFn ptr
      have placed : ∀ tree : TreeOf RbIntNode, ∀ other,
          ((grown.setRoot bus tree).root other).inorder =
            if other = bus then tree.inorder
            else (state.root other).inorder := by
        intro tree other
        split
        case isTrue same =>
          rw [same, TrapState.setRoot_root_self]
        case isFalse different =>
          rw [TrapState.setRoot_root_of_ne _ different]
          rfl
      rw [run] at counts ⊢
      by_cases unoccupied :
          ∀ stored ∈ (state.root bus).inorder, ¬ Overlaps stored node
      · have interval : node.low < node.high := proper
        obtain ⟨accepted, disjoint, members⟩ :=
          (calm.disjoint bus).insert lib interval unoccupied
        refine ⟨⟨counts, ?_, calm.idle⟩, Or.inl ⟨rfl, free.mpr unoccupied,
          accepted, ?_⟩⟩
        · intro other
          by_cases same : other = bus
          · rw [same, TrapState.setRoot_root_self]
            exact disjoint
          · rw [TrapState.setRoot_root_of_ne _ same]
            exact calm.disjoint other
        · have live :
              (grown.setRoot bus
                (rbIntInsert lib (state.root bus) node).2).heap
                  mmio.node.obj =
                some mmio :=
            Function.update_self ..
          refine
            traps_insert calm.counts counts live ?_ (fun _ _ => old)
          intro other stored
          rw [placed]
          split
          case isTrue same =>
            rw [members, same, and_iff_right rfl]
          case isFalse different =>
            simp [different]
      · have refused := mt free.mp unoccupied
        push Not at unoccupied
        obtain ⟨stored, member, overlaps⟩ := unoccupied
        rw [(calm.disjoint bus).insert_refused lib member overlaps]
          at counts ⊢
        refine ⟨⟨counts, ?_, calm.idle⟩,
          Or.inr ⟨fun both => refused both.2, ?_, ?_⟩⟩
        · intro other
          by_cases same : other = bus
          · rw [same, TrapState.setRoot_root_self]
            exact calm.disjoint bus
          · rw [TrapState.setRoot_root_of_ne _ same]
            exact calm.disjoint other
        · exact (by decide : eExist < 0)
        · refine traps_eq calm.counts counts ?_ (fun _ _ => old)
          intro other stored
          rw [placed]
          split
          case isTrue same => rw [same]
          · exact Iff.rfl

/--
`kvm_deregister_iotrap` removes the trap with the address, and reports
whether there is one.
-/
theorem Calm.deregister (bus : Bus) (addr : UInt64) :
    let result := kvmDeregisterIotrap lib state addr bus.flags
    Calm result.2 ∧
      ((∃ trap ∈ state.traps, trap.Covers bus addr ∧ result.1 = true ∧
          result.2.traps = state.traps \ {trap}) ∨
        (∀ trap ∈ state.traps, ¬ trap.Covers bus addr) ∧
          result = (false, state)) := by
  intro result
  have counts : Counted result.2 := calm.counts.deregisterIotrap lib ..
  cases search : mmioSearchSingle (state.root bus) addr with
  | none =>
      have run : result = (false, state) := by
        simp only [result, kvmDeregisterIotrap, busOf_flags, search]
      rw [run]
      refine ⟨calm, Or.inr ⟨?_, rfl⟩⟩
      rintro trap ⟨obj, mmio, live, member, equal⟩ ⟨rfl, covers⟩
      rw [← equal] at covers
      have found :=
        ((calm.disjoint trap.bus).searchSingle_iff addr mmio.node).mpr
          ⟨member, covers⟩
      exact absurd (search.symm.trans found) (by simp)
  | some node =>
      obtain ⟨member, covers⟩ :=
        ((calm.disjoint bus).searchSingle_iff addr node).mp search
      obtain ⟨mmio, live, rfl⟩ := calm.counts.stored member
      have unheld : holders state.holds mmio.node.obj = ∅ := by
        rw [Finset.eq_empty_iff_forall_notMem]
        intro thread
        exact not_mem_holders_of_idle (calm.idle thread) _
      have zero :=
        (calm.counts.refcount_eq_zero_iff live).mpr unheld
      have run :
          result =
            (true, mmioDeregister lib state bus mmio.node.obj mmio) := by
        simp only [result, kvmDeregisterIotrap, busOf_flags, search, live]
        rw [if_pos (beq_iff_eq.mpr zero)]
      let erased := rbIntErase lib (state.root bus) mmio.node
      have here :
          (mmioDeregister lib state bus mmio.node.obj mmio).root bus =
            erased :=
        TrapState.setRoot_root_self ..
      have elsewhere : ∀ other, other ≠ bus →
          (mmioDeregister lib state bus mmio.node.obj mmio).root other =
            state.root other :=
        fun _ different => TrapState.setRoot_root_of_ne _ different _
      have members : ∀ other node,
          node ∈
              ((mmioDeregister lib state bus mmio.node.obj
                mmio).root other).inorder ↔
            node ∈ (state.root other).inorder ∧
              ¬ (other = bus ∧ node = mmio.node) := by
        intro other node
        by_cases same : other = bus
        · rw [same, here, and_iff_right rfl, and_comm]
          simp only [erased, rbIntErase, lib.erase_inorder _ _ member]
          exact (calm.counts.once bus).mem_erase_iff
        · rw [elsewhere other same]
          exact (and_iff_left (fun both => same both.1)).symm
      rw [run] at counts ⊢
      refine ⟨⟨counts, ?_, calm.idle⟩, Or.inl ⟨mmio.trap bus,
        mem_traps live member, ⟨rfl, covers⟩, rfl, ?_⟩⟩
      · intro other
        by_cases same : other = bus
        · rw [same, here]
          exact (calm.disjoint bus).erase lib member
        · rw [elsewhere other same]
          exact calm.disjoint other
      · refine traps_erase calm counts live member members ?_
        intro other different
        exact Function.update_of_ne different ..

end Changes

end Traps

end Kemu.Init.Mmio
