import Kemu.Util.RbtreeInterval
import Mathlib.Algebra.Group.Nat.Defs
import Mathlib.Data.Fintype.Card

/-!
# I/O traps

The traps of `init/mmio.c`: a mapping from an interval of addresses to a
handler, in one tree for memory and one for ports.  A vCPU thread takes a
reference to a mapping for as long as its handler runs; a mapping that is
deregistered meanwhile is marked, and the last thread to put its reference
back removes it.

Every section under `mmio_lock` is one step, and any thread may take the
next one.
-/

namespace Kemu.Init.Mmio

open Kemu.Lib.SearchTree
open Kemu.Lib.Transition
open Kemu.Util.RbtreeInterval

/-! ## Lookup -/

/-- `mmio_search`. -/
def mmioSearch (root : TreeOf RbIntNode) (addr len : UInt64) :
    Option RbIntNode :=
  if addr + len ≤ addr then
    none
  else
    rbIntSearchRange root addr (addr + len)

/-- `mmio_search_single`. -/
def mmioSearchSingle (root : TreeOf RbIntNode) (addr : UInt64) :
    Option RbIntNode :=
  rbIntSearchSingle root addr

/-- All of `[addr, addr + len)` is in an interval. -/
def Contains (node : RbIntNode) (addr len : UInt64) : Prop :=
  node.low.toNat ≤ addr.toNat ∧
    addr.toNat + len.toNat ≤ node.high.toNat

/-- The length is positive and the range ends before the address space. -/
theorem lt_add_iff (addr len : UInt64) :
    ¬ addr + len ≤ addr ↔
      0 < len ∧ addr.toNat + len.toNat < 2 ^ 64 := by
  have sum := UInt64.toNat_add addr len
  have addrBound := addr.toNat_lt
  have lenBound := len.toNat_lt
  rw [UInt64.le_iff_toNat_le, UInt64.lt_iff_toNat_lt, sum,
    UInt64.toNat_zero]
  omega

theorem mmioSearch_iff {tree : TreeOf RbIntNode} (disjoint : Disjoint tree)
    (addr len : UInt64) (found : RbIntNode) :
    mmioSearch tree addr len = some found ↔
      0 < len ∧ addr.toNat + len.toNat < 2 ^ 64 ∧
        found ∈ tree.inorder ∧ Contains found addr len := by
  have valid := lt_add_iff addr len
  unfold mmioSearch
  by_cases invalid : addr + len ≤ addr
  · rw [if_pos invalid]
    constructor
    · intro impossible
      cases impossible
    · rintro ⟨positive, small, -⟩
      exact absurd invalid (valid.mpr ⟨positive, small⟩)
  · obtain ⟨positive, small⟩ := valid.mp invalid
    have sum : (addr + len).toNat = addr.toNat + len.toNat := by
      rw [UInt64.toNat_add]
      exact Nat.mod_eq_of_lt small
    have positiveNat : 0 < len.toNat := UInt64.lt_iff_toNat_lt.mp positive
    rw [if_neg invalid, disjoint.searchRange_iff]
    simp only [positive, small, true_and, Contains,
      UInt64.lt_iff_toNat_lt, UInt64.le_iff_toNat_le, sum]
    constructor
    · rintro ⟨member, starts, -, ends⟩
      exact ⟨member, starts, ends⟩
    · rintro ⟨member, starts, ends⟩
      exact ⟨member, starts, by omega, ends⟩

theorem mmioSearch_mem {tree : TreeOf RbIntNode} {addr len : UInt64}
    {found : RbIntNode} (search : mmioSearch tree addr len = some found) :
    found ∈ tree.inorder := by
  unfold mmioSearch rbIntSearchRange at search
  split at search
  · cases search
  · split at search
    · cases search
    case h_2 range single =>
      split at search
      · cases search
      · cases search
        exact (TreeOf.search_sound single).1

section IntervalTree

variable (lib : Rebalancer RbIntNode)

/--
After every run of insertions and removals: the intervals are disjoint and
increasing; an insertion is refused, and changes nothing, exactly when the
new interval overlaps a stored one, and else stores the interval; a removal
takes its interval out; and a lookup finds a mapping exactly when its range
is proper and inside one interval.
-/
theorem interval_tree_sound {ops : List TreeOp}
    (proper :
      Along (treeStep lib) (fun tree op => op.Proper tree) .leaf ops) :
    let tree := run (treeStep lib) .leaf ops
    (tree.inorder.Pairwise fun first second => first.high ≤ second.low) ∧
      (∀ node ∈ tree.inorder, node.low < node.high) ∧
      (∀ node : RbIntNode, node.low < node.high →
        ((rbIntInsert lib tree node).1 = eExist ↔
          ∃ stored ∈ tree.inorder, Overlaps stored node) ∧
        ((rbIntInsert lib tree node).2 = tree ↔
          ∃ stored ∈ tree.inorder, Overlaps stored node) ∧
        ((¬ ∃ stored ∈ tree.inorder, Overlaps stored node) →
          (rbIntInsert lib tree node).1 = 0 ∧
            (rbIntInsert lib tree node).2.inorder.Perm
              (node :: tree.inorder))) ∧
      (∀ node ∈ tree.inorder,
        (rbIntErase lib tree node).inorder = tree.inorder.erase node) ∧
      ∀ addr len found,
        mmioSearch tree addr len = some found ↔
          0 < len ∧ addr.toNat + len.toNat < 2 ^ 64 ∧
            found ∈ tree.inorder ∧ Contains found addr len := by
  intro tree
  have disjoint : Disjoint tree := disjoint_run lib proper
  refine
    ⟨disjoint.increasing, disjoint.nonempty, ?_, lib.erase_inorder tree,
      mmioSearch_iff disjoint⟩
  intro node interval
  by_cases taken : ∃ stored ∈ tree.inorder, Overlaps stored node
  · obtain ⟨stored, member, overlaps⟩ := taken
    have taken : ∃ stored ∈ tree.inorder, Overlaps stored node :=
      ⟨stored, member, overlaps⟩
    rw [disjoint.insert_refused lib member overlaps]
    exact
      ⟨iff_of_true rfl taken, iff_of_true rfl taken,
        fun free => absurd taken free⟩
  · have free : ∀ stored ∈ tree.inorder, ¬ Overlaps stored node := by
      simpa using taken
    have accepted := (disjoint.insert lib interval free).1
    rcases rbIntInsert_perm lib tree node with refused | ⟨-, stored⟩
    · rw [refused] at accepted
      cases accepted
    · refine
        ⟨iff_of_false ?_ taken, iff_of_false ?_ taken,
          fun _ => ⟨accepted, stored⟩⟩
      · rw [accepted]
        decide
      · intro unchanged
        have longer := stored.length_eq
        rw [unchanged, List.length_cons] at longer
        exact absurd longer (Nat.succ_ne_self _).symm

/-- Two adjacent traps, a refused one, and the removal of the first. -/
theorem interval_tree_sound_on_adjacent_traps :
    let ops : List TreeOp :=
      [.insert ⟨0x100, 0x200, 0⟩, .insert ⟨0x200, 0x300, 1⟩,
        .insert ⟨0x1ff, 0x201, 2⟩, .erase ⟨0x100, 0x200, 0⟩]
    let tree := run (treeStep (.plain _)) .leaf ops
    mmioSearch tree 0x280 0x80 = some ⟨0x200, 0x300, 1⟩ ↔
      (0 : UInt64) < 0x80 ∧ (0x280 : UInt64).toNat + 0x80 < 2 ^ 64 ∧
        ⟨0x200, 0x300, 1⟩ ∈ tree.inorder ∧
        Contains ⟨0x200, 0x300, 1⟩ 0x280 0x80 := by
  intro ops tree
  have proper :
      Along (treeStep (.plain _)) (fun tree op => op.Proper tree) .leaf
        ops := by
    refine ⟨?_, ?_, ?_, ?_, trivial⟩
    · show (0x100 : UInt64) < 0x200
      decide
    · show (0x200 : UInt64) < 0x300
      decide
    · show (0x1ff : UInt64) < 0x201
      decide
    · show (⟨0x100, 0x200, 0⟩ : RbIntNode) ∈ _
      decide
  exact (interval_tree_sound (.plain _) proper).2.2.2.2 0x280 0x80
    ⟨0x200, 0x300, 1⟩

end IntervalTree

/-! ## The code -/

/-- The bus of a trap. -/
inductive Bus where
  | mmio
  | pio
deriving DecidableEq, Repr

/-- `IOTRAP_BUS_MASK`. -/
def iotrapBusMask : UInt32 := 0xf

/-- `IOTRAP_COALESCE`. -/
def iotrapCoalesce : UInt32 := 0x10

/-- `DEVICE_BUS_MMIO`. -/
def deviceBusMmio : UInt32 := 1

/-- `DEVICE_BUS_IOPORT`. -/
def deviceBusIoport : UInt32 := 2

/-- `trap_is_mmio`. -/
def trapIsMmio (flags : UInt32) : Bool :=
  flags &&& iotrapBusMask == deviceBusMmio

/-- The tree a trap with some flags belongs to. -/
def busOf (flags : UInt32) : Bus :=
  if trapIsMmio flags then .mmio else .pio

/-- `struct mmio_mapping`. -/
structure MmioMapping where
  node : RbIntNode
  mmioFn : Nat
  ptr : Nat
  refcount : UInt32
  remove : Bool
deriving DecidableEq, Repr

/-- `kvm->nrcpus` is an `int`, and there is one thread for each vCPU. -/
structure Vcpus where
  nrcpus : Nat
  isInt : nrcpus < 2 ^ 31

/-- A vCPU thread. -/
abbrev Vcpus.Thread (vcpus : Vcpus) : Type := Fin vcpus.nrcpus

/--
The trees, the mappings allocated so far, and the pointer each thread has
from `mmio_get` and has not put back.  `freed` and `marked` record the
calls of `free` and the assignments to `remove`; `fault` is set when code
uses a mapping that is not allocated.
-/
structure TrapState (vcpus : Vcpus) where
  root : Bus → TreeOf RbIntNode
  heap : Nat → Option MmioMapping
  next : Nat
  holds : vcpus.Thread → Option (Bus × Nat)
  freed : List Nat
  marked : List Nat
  fault : Bool

/-- `-ENOMEM`. -/
def eNoMem : Int := -12

namespace TrapState

variable {vcpus : Vcpus}

/-- No trap and no mapping. -/
def initial : TrapState vcpus where
  root _ := .leaf
  heap _ := none
  next := 0
  holds _ := none
  freed := []
  marked := []
  fault := false

/-- Write to a mapping. -/
def store (state : TrapState vcpus) (obj : Nat) (mapping : MmioMapping) :
    TrapState vcpus :=
  { state with heap := Function.update state.heap obj (some mapping) }

/-- `free`. -/
def free (state : TrapState vcpus) (obj : Nat) : TrapState vcpus :=
  { state with
    heap := Function.update state.heap obj none
    freed := obj :: state.freed
    fault := state.fault || (state.heap obj).isNone }

/-- Write to a tree. -/
def setRoot (state : TrapState vcpus) (bus : Bus) (tree : TreeOf RbIntNode) :
    TrapState vcpus :=
  { state with root := Function.update state.root bus tree }

/-- Use of a mapping that is not allocated. -/
def faulted (state : TrapState vcpus) : TrapState vcpus :=
  { state with fault := true }

/-- The pointer of a thread. -/
def hold (state : TrapState vcpus) (thread : vcpus.Thread)
    (pointer : Option (Bus × Nat)) : TrapState vcpus :=
  { state with holds := Function.update state.holds thread pointer }

@[simp]
theorem store_holds (state : TrapState vcpus) (obj : Nat)
    (mapping : MmioMapping) :
    (state.store obj mapping).holds = state.holds :=
  rfl

@[simp]
theorem setRoot_root_self (state : TrapState vcpus) (bus : Bus)
    (tree : TreeOf RbIntNode) : (state.setRoot bus tree).root bus = tree :=
  Function.update_self ..

@[simp]
theorem setRoot_root_of_ne (state : TrapState vcpus) {bus other : Bus}
    (different : other ≠ bus) (tree : TreeOf RbIntNode) :
    (state.setRoot bus tree).root other = state.root other :=
  Function.update_of_ne different ..

end TrapState

section Code

variable (lib : Rebalancer RbIntNode) {vcpus : Vcpus}

/-- `mmio_get`, which answers with a pointer or null. -/
def mmioGet (state : TrapState vcpus) (bus : Bus) (physAddr : UInt64)
    (len : UInt32) : Option Nat × TrapState vcpus :=
  match mmioSearch (state.root bus) physAddr len.toUInt64 with
  | none => (none, state)
  | some node =>
      match state.heap node.obj with
      | none => (none, state.faulted)
      | some mmio =>
          (some node.obj,
            state.store node.obj { mmio with refcount := mmio.refcount + 1 })

/-- `mmio_deregister`. -/
def mmioDeregister (state : TrapState vcpus) (bus : Bus) (obj : Nat)
    (mmio : MmioMapping) : TrapState vcpus :=
  (state.setRoot bus (rbIntErase lib (state.root bus) mmio.node)).free obj

/-- `mmio_put`. -/
def mmioPut (state : TrapState vcpus) (bus : Bus) (obj : Nat) :
    TrapState vcpus :=
  match state.heap obj with
  | none => state.faulted
  | some mmio =>
      let mmio := { mmio with refcount := mmio.refcount - 1 }
      let state := state.store obj mmio
      if mmio.remove && mmio.refcount == 0 then
        mmioDeregister lib state bus obj mmio
      else
        state

/--
`kvm_register_iotrap`.  `allocated` tells whether `malloc` succeeds, and
`ioctl` is the result of `KVM_REGISTER_COALESCED_MMIO`, with the error
number if it is negative.
-/
def kvmRegisterIotrap (state : TrapState vcpus)
    (physAddr physAddrLen : UInt64) (mmioFn ptr : Nat) (flags : UInt32)
    (allocated : Bool) (ioctl : Int) : Int × TrapState vcpus :=
  if allocated then
    let obj := state.next
    let node : RbIntNode := ⟨physAddr, physAddr + physAddrLen, obj⟩
    let state :=
      TrapState.store { state with next := obj + 1 } obj
        ⟨node, mmioFn, ptr, 0, false⟩
    if trapIsMmio flags && flags &&& iotrapCoalesce != 0 && ioctl < 0 then
      (ioctl, state.free obj)
    else
      let bus := busOf flags
      let (ret, tree) := rbIntInsert lib (state.root bus) node
      (ret, state.setRoot bus tree)
  else
    (eNoMem, state)

/-- `kvm_deregister_iotrap`. -/
def kvmDeregisterIotrap (state : TrapState vcpus) (physAddr : UInt64)
    (flags : UInt32) : Bool × TrapState vcpus :=
  let bus := busOf flags
  match mmioSearchSingle (state.root bus) physAddr with
  | none => (false, state)
  | some node =>
      match state.heap node.obj with
      | none => (true, state.faulted)
      | some mmio =>
          if mmio.refcount == 0 then
            (true, mmioDeregister lib state bus node.obj mmio)
          else
            (true,
              { state.store node.obj { mmio with remove := true } with
                marked := node.obj :: state.marked })

/-- A section under the lock, or a run of a handler. -/
inductive Action (vcpus : Vcpus) where
  | get (thread : vcpus.Thread) (bus : Bus) (physAddr : UInt64)
      (len : UInt32)
  | handler (thread : vcpus.Thread)
  | put (thread : vcpus.Thread)
  | register (physAddr physAddrLen : UInt64) (mmioFn ptr : Nat)
      (flags : UInt32) (allocated : Bool) (ioctl : Int)
  | deregister (physAddr : UInt64) (flags : UInt32)

/--
One action.  A thread takes a reference in `kvm_emulate_mmio` and
`kvm_emulate_io` only, into a local variable, and there it puts it back
before the next one; the handler is called through the mapping.
-/
def trapStep (state : TrapState vcpus) : Action vcpus → TrapState vcpus
  | .get thread bus physAddr len =>
      match state.holds thread with
      | none =>
          match mmioGet state bus physAddr len with
          | (none, after) => after
          | (some obj, after) => after.hold thread (some (bus, obj))
      | some _ => state
  | .handler thread =>
      match state.holds thread with
      | none => state
      | some (_, obj) =>
          if (state.heap obj).isSome then state else state.faulted
  | .put thread =>
      match state.holds thread with
      | none => state
      | some (bus, obj) => (mmioPut lib state bus obj).hold thread none
  | .register physAddr physAddrLen mmioFn ptr flags allocated ioctl =>
      (kvmRegisterIotrap lib state physAddr physAddrLen mmioFn ptr flags
        allocated ioctl).2
  | .deregister physAddr flags =>
      (kvmDeregisterIotrap lib state physAddr flags).2

end Code

/-! ## Holders -/

section Holders

variable {vcpus : Vcpus}

/-- The threads that have a pointer to a mapping. -/
def holders (holds : vcpus.Thread → Option (Bus × Nat)) (obj : Nat) :
    Finset vcpus.Thread :=
  Finset.univ.filter fun thread =>
    (holds thread).map Prod.snd = some obj

variable {holds : vcpus.Thread → Option (Bus × Nat)}
  {thread : vcpus.Thread}

theorem mem_holders_iff {obj : Nat} :
    thread ∈ holders holds obj ↔ ∃ bus, holds thread = some (bus, obj) := by
  simp [holders]

theorem card_holders_lt (holds : vcpus.Thread → Option (Bus × Nat))
    (obj : Nat) : (holders holds obj).card < 2 ^ 31 := by
  have most := (holders holds obj).card_le_univ
  rw [Fintype.card_fin] at most
  exact most.trans_lt vcpus.isInt

theorem holders_take (bus : Bus) (obj : Nat) :
    holders (Function.update holds thread (some (bus, obj))) obj =
      insert thread (holders holds obj) := by
  ext other
  rw [Finset.mem_insert, mem_holders_iff, mem_holders_iff]
  by_cases same : other = thread
  · subst same
    simp
  · simp [same]

theorem not_mem_holders_of_idle (idle : holds thread = none) (obj : Nat) :
    thread ∉ holders holds obj := by
  simp [mem_holders_iff, idle]

theorem holders_put {obj : Nat} :
    holders (Function.update holds thread none) obj =
      (holders holds obj).erase thread := by
  ext other
  rw [Finset.mem_erase, mem_holders_iff, mem_holders_iff]
  by_cases same : other = thread
  · subst same
    simp
  · simp [same]

/-- Moving a thread's pointer leaves the other mappings' holders alone. -/
theorem holders_update_of_ne {pointer : Option (Bus × Nat)} {other : Nat}
    (before : ∀ bus, holds thread ≠ some (bus, other))
    (after : ∀ bus, pointer ≠ some (bus, other)) :
    holders (Function.update holds thread pointer) other =
      holders holds other := by
  ext candidate
  rw [mem_holders_iff, mem_holders_iff]
  by_cases same : candidate = thread
  · subst same
    simp [before, after]
  · simp [same]

end Holders

/-! ## The invariant -/

/--
A mapping in a tree is allocated and in one tree only, a held mapping is in
its tree, and the reference count is the number of holders.
-/
structure Counted {vcpus : Vcpus} (state : TrapState vcpus) : Prop where
  allocated :
    ∀ {obj mmio}, state.heap obj = some mmio →
      mmio.node.obj = obj ∧ obj < state.next
  stored :
    ∀ {bus node}, node ∈ (state.root bus).inorder →
      ∃ mmio, state.heap node.obj = some mmio ∧ mmio.node = node
  apart :
    ∀ {bus other node}, node ∈ (state.root bus).inorder →
      node ∈ (state.root other).inorder → bus = other
  once : ∀ bus, (state.root bus).inorder.Nodup
  held :
    ∀ {thread bus obj}, state.holds thread = some (bus, obj) →
      ∃ mmio, state.heap obj = some mmio ∧
        mmio.node ∈ (state.root bus).inorder
  counted :
    ∀ {obj mmio}, state.heap obj = some mmio →
      mmio.refcount.toNat = (holders state.holds obj).card
  gone :
    ∀ {obj}, obj ∈ state.freed →
      state.heap obj = none ∧ obj < state.next
  freedOnce : state.freed.Nodup
  marked :
    ∀ {obj}, obj ∈ state.marked →
      obj ∈ state.freed ∨
        ∃ mmio, state.heap obj = some mmio ∧ mmio.remove = true
  sound : state.fault = false

/-- A mapping marked for removal has a holder. -/
def Deferred {vcpus : Vcpus} (state : TrapState vcpus) (obj : Nat) : Prop :=
  ∀ mmio, state.heap obj = some mmio → mmio.remove = true →
    mmio.refcount ≠ 0

section Steps

variable {vcpus : Vcpus} {state : TrapState vcpus} (counts : Counted state)

include counts

/-- Writing to an allocated mapping and moving pointers to it. -/
theorem Counted.write {obj : Nat} {mmio : MmioMapping}
    (live : state.heap obj = some mmio) (written : MmioMapping)
    (node : written.node = mmio.node)
    (kept : mmio.remove = true → written.remove = true)
    {holds : vcpus.Thread → Option (Bus × Nat)}
    (pointers :
      ∀ {thread bus other}, holds thread = some (bus, other) →
        state.holds thread = some (bus, other) ∨
          other = obj ∧ mmio.node ∈ (state.root bus).inorder)
    (count : written.refcount.toNat = (holders holds obj).card)
    (others :
      ∀ other, other ≠ obj → holders holds other = holders state.holds other)
    {marked : List Nat}
    (marks :
      ∀ {other}, other ∈ marked →
        other ∈ state.marked ∨ other = obj ∧ written.remove = true) :
    Counted
      { state.store obj written with holds := holds, marked := marked } := by
  have heap :
      ∀ other, other ≠ obj →
        (state.store obj written).heap other = state.heap other :=
    fun other different => Function.update_of_ne different ..
  have here : (state.store obj written).heap obj = some written :=
    Function.update_self ..
  refine
    { counts with
      allocated := ?_
      stored := ?_
      held := ?_
      counted := ?_
      gone := ?_
      marked := ?_ }
  · intro other found lookup
    by_cases same : other = obj
    · subst same
      cases here.symm.trans lookup
      rw [node]
      exact counts.allocated live
    · exact counts.allocated ((heap other same).symm.trans lookup)
  · intro bus stored member
    obtain ⟨found, lookup, equal⟩ := counts.stored member
    by_cases same : stored.obj = obj
    · rw [same] at lookup
      cases live.symm.trans lookup
      exact ⟨written, by rw [same]; exact here, node.trans equal⟩
    · exact ⟨found, (heap _ same).trans lookup, equal⟩
  · intro thread bus other pointer
    rcases pointers pointer with former | ⟨rfl, member⟩
    · obtain ⟨found, lookup, member⟩ := counts.held former
      by_cases same : other = obj
      · subst same
        cases live.symm.trans lookup
        exact ⟨written, here, by rw [node]; exact member⟩
      · exact ⟨found, (heap other same).trans lookup, member⟩
    · exact ⟨written, here, by rw [node]; exact member⟩
  · intro other found lookup
    by_cases same : other = obj
    · subst same
      cases here.symm.trans lookup
      exact count
    · rw [others other same]
      exact counts.counted ((heap other same).symm.trans lookup)
  · intro other member
    obtain ⟨absent, bound⟩ := counts.gone member
    have different : other ≠ obj := by
      rintro rfl
      rw [live] at absent
      cases absent
    exact ⟨(heap other different).trans absent, bound⟩
  · intro other member
    by_cases same : other = obj
    · subst same
      refine Or.inr ⟨written, here, ?_⟩
      rcases marks member with former | ⟨-, removed⟩
      · rcases counts.marked former with freed | ⟨found, lookup, removed⟩
        · have absent := (counts.gone freed).1
          rw [live] at absent
          cases absent
        · cases live.symm.trans lookup
          exact kept removed
      · exact removed
    · rcases marks member with former | ⟨equal, -⟩
      · rcases counts.marked former with freed | ⟨found, lookup, removed⟩
        · exact Or.inl freed
        · exact Or.inr ⟨found, (heap other same).trans lookup, removed⟩
      · exact absurd equal same

theorem Counted.get (thread : vcpus.Thread)
    (idle : state.holds thread = none) (bus : Bus) (physAddr : UInt64)
    (len : UInt32) (lib : Rebalancer RbIntNode) :
    Counted (trapStep lib state (.get thread bus physAddr len)) := by
  cases search : mmioSearch (state.root bus) physAddr len.toUInt64 with
  | none =>
      simp only [trapStep, mmioGet, search, idle]
      exact counts
  | some node =>
      have member := mmioSearch_mem search
      obtain ⟨mmio, live, same⟩ := counts.stored member
      simp only [trapStep, mmioGet, search, idle, live]
      refine
        counts.write live { mmio with refcount := mmio.refcount + 1 } rfl id
          ?_ ?_ ?_ Or.inl
      · intro other place obj pointer
        by_cases here : other = thread
        · subst here
          rw [Function.update_self] at pointer
          cases pointer
          exact Or.inr ⟨rfl, by rw [same]; exact member⟩
        · rw [Function.update_of_ne here] at pointer
          exact Or.inl pointer
      · have small := card_holders_lt state.holds node.obj
        rw [TrapState.store_holds, holders_take,
          Finset.card_insert_of_notMem (not_mem_holders_of_idle idle _),
          UInt32.toNat_add,
          counts.counted live, UInt32.toNat_one, Nat.mod_eq_of_lt]
        omega
      · intro other different
        apply holders_update_of_ne
        · intro place
          rw [TrapState.store_holds, idle]
          simp
        · intro place equal
          cases equal
          exact different rfl

/-- Changing a tree, with all that is held still in it. -/
theorem Counted.plant {bus : Bus} {tree : TreeOf RbIntNode}
    (once : tree.inorder.Nodup)
    (stored :
      ∀ {node}, node ∈ tree.inorder →
        ∃ mmio, state.heap node.obj = some mmio ∧ mmio.node = node)
    (apart :
      ∀ {other node}, node ∈ tree.inorder →
        node ∈ (state.root other).inorder → other = bus)
    (kept :
      ∀ {thread obj mmio}, state.holds thread = some (bus, obj) →
        state.heap obj = some mmio →
        mmio.node ∈ (state.root bus).inorder → mmio.node ∈ tree.inorder) :
    Counted (state.setRoot bus tree) := by
  refine
    { counts with
      stored := ?_
      apart := ?_
      once := ?_
      held := ?_ }
  · intro other node member
    by_cases same : other = bus
    · subst same
      rw [TrapState.setRoot_root_self] at member
      exact stored member
    · rw [TrapState.setRoot_root_of_ne _ same] at member
      exact counts.stored member
  · intro first second node inFirst inSecond
    by_cases firstHere : first = bus
    · by_cases secondHere : second = bus
      · exact firstHere.trans secondHere.symm
      · rw [firstHere, TrapState.setRoot_root_self] at inFirst
        rw [TrapState.setRoot_root_of_ne _ secondHere] at inSecond
        exact absurd (apart inFirst inSecond) secondHere
    · rw [TrapState.setRoot_root_of_ne _ firstHere] at inFirst
      by_cases secondHere : second = bus
      · rw [secondHere, TrapState.setRoot_root_self] at inSecond
        exact absurd (apart inSecond inFirst) firstHere
      · rw [TrapState.setRoot_root_of_ne _ secondHere] at inSecond
        exact counts.apart inFirst inSecond
  · intro other
    by_cases same : other = bus
    · subst same
      rw [TrapState.setRoot_root_self]
      exact once
    · rw [TrapState.setRoot_root_of_ne _ same]
      exact counts.once other
  · intro thread other obj pointer
    obtain ⟨mmio, lookup, member⟩ := counts.held pointer
    refine ⟨mmio, lookup, ?_⟩
    by_cases same : other = bus
    · subst same
      rw [TrapState.setRoot_root_self]
      exact kept pointer lookup member
    · rw [TrapState.setRoot_root_of_ne _ same]
      exact member

/-- Freeing a mapping that is in no tree. -/
theorem Counted.free {obj : Nat} {mmio : MmioMapping}
    (live : state.heap obj = some mmio)
    (out : ∀ bus, mmio.node ∉ (state.root bus).inorder) :
    Counted (state.free obj) := by
  have heap :
      ∀ other, other ≠ obj →
        (state.free obj).heap other = state.heap other :=
    fun other different => Function.update_of_ne different ..
  have absent : (state.free obj).heap obj = none :=
    Function.update_self ..
  have survives :
      ∀ {other found}, (state.free obj).heap other = some found →
        state.heap other = some found := by
    intro other found lookup
    have different : other ≠ obj := by
      rintro rfl
      rw [absent] at lookup
      cases lookup
    exact (heap other different).symm.trans lookup
  have keeps :
      ∀ {bus other found}, state.heap other = some found →
        found.node ∈ (state.root bus).inorder → other ≠ obj := by
    rintro bus other found lookup inside rfl
    cases live.symm.trans lookup
    exact out bus inside
  refine
    { allocated := fun lookup => counts.allocated (survives lookup)
      stored := ?_
      apart := counts.apart
      once := counts.once
      held := ?_
      counted := fun lookup => counts.counted (survives lookup)
      gone := ?_
      freedOnce := ?_
      marked := ?_
      sound := ?_ }
  · intro bus node inside
    obtain ⟨found, lookup, equal⟩ := counts.stored inside
    have different : node.obj ≠ obj :=
      keeps lookup (equal.symm ▸ inside)
    exact ⟨found, (heap _ different).trans lookup, equal⟩
  · intro thread bus other pointer
    obtain ⟨found, lookup, inside⟩ := counts.held pointer
    exact ⟨found, (heap other (keeps lookup inside)).trans lookup, inside⟩
  · intro other freed
    rcases List.mem_cons.mp freed with rfl | former
    · exact ⟨absent, (counts.allocated live).2⟩
    · obtain ⟨missing, small⟩ := counts.gone former
      refine ⟨(heap other ?_).trans missing, small⟩
      rintro rfl
      rw [live] at missing
      cases missing
  · refine List.nodup_cons.mpr ⟨?_, counts.freedOnce⟩
    intro former
    have missing := (counts.gone former).1
    rw [live] at missing
    cases missing
  · intro other member
    by_cases same : other = obj
    · exact Or.inl (List.mem_cons.mpr (Or.inl same))
    · rcases counts.marked member with freed | ⟨found, lookup, removed⟩
      · exact Or.inl (List.mem_cons_of_mem _ freed)
      · exact Or.inr ⟨found, (heap other same).trans lookup, removed⟩
  · rw [TrapState.free]
    simp [counts.sound, live]

theorem Counted.deregister (lib : Rebalancer RbIntNode) {bus : Bus}
    {obj : Nat} {mmio : MmioMapping} (live : state.heap obj = some mmio)
    (member : mmio.node ∈ (state.root bus).inorder)
    (unheld : holders state.holds obj = ∅) :
    Counted (mmioDeregister lib state bus obj mmio) := by
  have inside :
      ∀ {node},
        node ∈ (rbIntErase lib (state.root bus) mmio.node).inorder ↔
          node ≠ mmio.node ∧ node ∈ (state.root bus).inorder := by
    intro node
    rw [rbIntErase, lib.erase_inorder _ _ member]
    exact (counts.once bus).mem_erase_iff
  have erased :
      Counted
        (state.setRoot bus
          (rbIntErase lib (state.root bus) mmio.node)) := by
    refine counts.plant ?_ ?_ ?_ ?_
    · rw [rbIntErase, lib.erase_inorder _ _ member]
      exact (counts.once bus).erase _
    · intro node within
      exact counts.stored (inside.mp within).2
    · intro other node within there
      exact counts.apart there (inside.mp within).2
    · intro thread other found pointer lookup within
      refine inside.mpr ⟨?_, within⟩
      intro equal
      have same : other = obj := by
        rw [← (counts.allocated lookup).1, equal]
        exact (counts.allocated live).1
      have holder := mem_holders_iff.mpr ⟨bus, pointer⟩
      rw [same, unheld] at holder
      simp at holder
  refine erased.free live ?_
  intro other within
  by_cases same : other = bus
  · subst same
    rw [TrapState.setRoot_root_self] at within
    exact (inside.mp within).1 rfl
  · rw [TrapState.setRoot_root_of_ne _ same] at within
    exact same (counts.apart within member)

/-- A count of zero means no holder. -/
theorem Counted.refcount_eq_zero_iff {obj : Nat} {mmio : MmioMapping}
    (live : state.heap obj = some mmio) :
    mmio.refcount = 0 ↔ holders state.holds obj = ∅ := by
  rw [← Finset.card_eq_zero, ← counts.counted live, ← UInt32.toNat_inj,
    UInt32.toNat_zero]

/-- A thread puts its pointer back. -/
theorem Counted.release {thread : vcpus.Thread} {bus : Bus} {obj : Nat}
    (pointer : state.holds thread = some (bus, obj)) {mmio : MmioMapping}
    (live : state.heap obj = some mmio) :
    Counted
      ((state.store obj { mmio with refcount := mmio.refcount - 1 }).hold
        thread none) := by
  refine
    counts.write live { mmio with refcount := mmio.refcount - 1 } rfl id
      ?_ ?_ ?_ Or.inl
  · intro other place held kept
    by_cases here : other = thread
    · subst here
      rw [Function.update_self] at kept
      cases kept
    · rw [Function.update_of_ne here] at kept
      exact Or.inl kept
  · have holder : thread ∈ holders state.holds obj :=
      mem_holders_iff.mpr ⟨bus, pointer⟩
    have positive := Finset.card_pos.mpr ⟨thread, holder⟩
    have count := counts.counted live
    have one : (1 : UInt32) ≤ mmio.refcount := by
      rw [UInt32.le_iff_toNat_le, UInt32.toNat_one, count]
      exact positive
    rw [TrapState.store_holds, holders_put, Finset.card_erase_of_mem holder,
      UInt32.toNat_sub_of_le _ _ one, count, UInt32.toNat_one]
  · intro other different
    apply holders_update_of_ne
    · intro place
      rw [TrapState.store_holds, pointer]
      intro equal
      cases equal
      exact different rfl
    · intro place equal
      cases equal

theorem Counted.put (lib : Rebalancer RbIntNode) {thread : vcpus.Thread}
    {bus : Bus} {obj : Nat}
    (pointer : state.holds thread = some (bus, obj)) :
    Counted ((mmioPut lib state bus obj).hold thread none) := by
  obtain ⟨mmio, live, member⟩ := counts.held pointer
  have released := counts.release pointer live
  simp only [mmioPut, live]
  split
  case isTrue last =>
    have here :
        ((state.store obj { mmio with refcount := mmio.refcount - 1 }).hold
            thread none).heap obj =
          some { mmio with refcount := mmio.refcount - 1 } :=
      Function.update_self ..
    have zero : mmio.refcount - 1 = 0 := by
      rw [Bool.and_eq_true, beq_iff_eq] at last
      exact last.2
    exact released.deregister lib here member
      ((released.refcount_eq_zero_iff here).mp zero)
  · exact released

/-- A held mapping is marked for removal. -/
theorem Counted.mark {obj : Nat} {mmio : MmioMapping}
    (live : state.heap obj = some mmio) :
    Counted
      { state.store obj { mmio with remove := true } with
        marked := obj :: state.marked } := by
  have count : mmio.refcount.toNat = (holders state.holds obj).card :=
    counts.counted live
  refine
    counts.write live { mmio with remove := true } rfl (fun _ => rfl)
      Or.inl count (fun _ _ => rfl) ?_
  intro other member
  rcases List.mem_cons.mp member with rfl | former
  · exact Or.inr ⟨rfl, rfl⟩
  · exact Or.inl former

theorem Counted.deregisterIotrap (lib : Rebalancer RbIntNode)
    (physAddr : UInt64) (flags : UInt32) :
    Counted (kvmDeregisterIotrap lib state physAddr flags).2 := by
  cases search :
      mmioSearchSingle (state.root (busOf flags)) physAddr with
  | none =>
      simp only [kvmDeregisterIotrap, search]
      exact counts
  | some node =>
      have member := (TreeOf.search_sound search).1
      obtain ⟨mmio, live, same⟩ := counts.stored member
      simp only [kvmDeregisterIotrap, search, live]
      split
      case isTrue zero =>
        exact counts.deregister lib live (by rw [same]; exact member)
          ((counts.refcount_eq_zero_iff live).mp (beq_iff_eq.mp zero))
      · exact counts.mark live

/-- A new mapping that is in no tree. -/
theorem Counted.allocate (mmio : MmioMapping)
    (name : mmio.node.obj = state.next) (unused : mmio.refcount = 0) :
    Counted
      (TrapState.store { state with next := state.next + 1 } state.next
        mmio) := by
  have fresh : state.heap state.next = none := by
    cases lookup : state.heap state.next with
    | none => rfl
    | some found => exact absurd (counts.allocated lookup).2 (lt_irrefl _)
  have heap :
      ∀ {other found}, state.heap other = some found →
        Function.update state.heap state.next (some mmio) other =
          some found := by
    intro other found lookup
    rw [Function.update_of_ne ?_]
    · exact lookup
    · rintro rfl
      rw [fresh] at lookup
      cases lookup
  have unheld : holders state.holds state.next = ∅ := by
    rw [Finset.eq_empty_iff_forall_notMem]
    intro thread holder
    obtain ⟨bus, pointer⟩ := mem_holders_iff.mp holder
    obtain ⟨found, lookup, -⟩ := counts.held pointer
    rw [fresh] at lookup
    cases lookup
  refine
    { counts with
      allocated := ?_
      stored := ?_
      held := ?_
      counted := ?_
      gone := ?_
      marked := ?_ }
  · intro obj found lookup
    by_cases same : obj = state.next
    · subst same
      cases (Function.update_self ..).symm.trans lookup
      exact ⟨name, Nat.lt_succ_self _⟩
    · obtain ⟨equal, bound⟩ :=
        counts.allocated
          ((Function.update_of_ne same ..).symm.trans lookup)
      exact ⟨equal, Nat.lt_succ_of_lt bound⟩
  · intro bus node member
    obtain ⟨found, lookup, equal⟩ := counts.stored member
    exact ⟨found, heap lookup, equal⟩
  · intro thread bus obj pointer
    obtain ⟨found, lookup, member⟩ := counts.held pointer
    exact ⟨found, heap lookup, member⟩
  · intro obj found lookup
    by_cases same : obj = state.next
    · subst same
      cases (Function.update_self ..).symm.trans lookup
      rw [TrapState.store_holds, unheld, unused]
      rfl
    · exact counts.counted
        ((Function.update_of_ne same ..).symm.trans lookup)
  · intro obj freed
    obtain ⟨missing, bound⟩ := counts.gone freed
    exact
      ⟨(Function.update_of_ne bound.ne ..).trans missing,
        Nat.lt_succ_of_lt bound⟩
  · intro obj member
    rcases counts.marked member with freed | ⟨found, lookup, removed⟩
    · exact Or.inl freed
    · exact Or.inr ⟨found, heap lookup, removed⟩

theorem Counted.insert (lib : Rebalancer RbIntNode) (bus : Bus)
    {mmio : MmioMapping}
    (live : state.heap mmio.node.obj = some mmio)
    (out : ∀ other, mmio.node ∉ (state.root other).inorder) :
    Counted
      (state.setRoot bus
        (rbIntInsert lib (state.root bus) mmio.node).2) := by
  rcases rbIntInsert_perm lib (state.root bus) mmio.node with
    refused | ⟨-, inserted⟩
  · rw [refused]
    exact counts.plant (counts.once bus) counts.stored
      (fun here there => counts.apart there here)
      (fun _ _ member => member)
  · have members :
        ∀ {node},
          node ∈ (rbIntInsert lib (state.root bus) mmio.node).2.inorder →
            node = mmio.node ∨ node ∈ (state.root bus).inorder :=
      fun member => List.mem_cons.mp (inserted.mem_iff.mp member)
    refine counts.plant ?_ ?_ ?_ ?_
    · rw [inserted.nodup_iff]
      exact List.nodup_cons.mpr ⟨out bus, counts.once bus⟩
    · intro node member
      rcases members member with rfl | former
      · exact ⟨mmio, live, rfl⟩
      · exact counts.stored former
    · intro other node member there
      rcases members member with rfl | former
      · exact absurd there (out other)
      · exact counts.apart there former
    · intro thread obj found _ _ former
      exact inserted.mem_iff.mpr (List.mem_cons_of_mem _ former)

theorem Counted.registerIotrap (lib : Rebalancer RbIntNode)
    (physAddr physAddrLen : UInt64) (mmioFn ptr : Nat) (flags : UInt32)
    (allocated : Bool) (ioctl : Int) :
    Counted
      (kvmRegisterIotrap lib state physAddr physAddrLen mmioFn ptr flags
        allocated ioctl).2 := by
  unfold kvmRegisterIotrap
  split
  · let mmio : MmioMapping :=
      ⟨⟨physAddr, physAddr + physAddrLen, state.next⟩, mmioFn, ptr, 0, false⟩
    have grown := counts.allocate mmio rfl rfl
    have live :
        (TrapState.store { state with next := state.next + 1 } state.next
          mmio).heap state.next = some mmio :=
      Function.update_self ..
    have out : ∀ bus, mmio.node ∉ (state.root bus).inorder := by
      intro bus member
      obtain ⟨found, lookup, -⟩ := counts.stored member
      exact absurd (counts.allocated lookup).2 (lt_irrefl _)
    dsimp only
    split
    · exact grown.free live out
    · exact grown.insert lib (busOf flags) live out
  · exact counts

end Steps

/-! ## Lifetimes -/

/--
A mapping is freed at most once, a held mapping is allocated and in its
tree, the reference count is the number of holders, and a mapping marked
for removal has a holder or is freed and out of the trees.
-/
structure Sound {vcpus : Vcpus} (state : TrapState vcpus) : Prop where
  freedOnce : state.freed.Nodup
  noFault : state.fault = false
  held :
    ∀ thread bus obj, state.holds thread = some (bus, obj) →
      obj ∉ state.freed ∧
        ∃ mmio, state.heap obj = some mmio ∧
          mmio.node ∈ (state.root bus).inorder
  refcount :
    ∀ obj mmio, state.heap obj = some mmio →
      mmio.refcount.toNat = (holders state.holds obj).card
  removed :
    ∀ obj ∈ state.marked,
      (holders state.holds obj).Nonempty ∨
        obj ∈ state.freed ∧ state.heap obj = none ∧
          ∀ bus, ∀ node ∈ (state.root bus).inorder, node.obj ≠ obj

section Runs

variable (lib : Rebalancer RbIntNode) {vcpus : Vcpus}

/-- What holds between two steps. -/
def Invariant (state : TrapState vcpus) : Prop :=
  Counted state ∧ ∀ obj, Deferred state obj

theorem Invariant.sound {state : TrapState vcpus}
    (invariant : Invariant state) : Sound state := by
  obtain ⟨counts, deferred⟩ := invariant
  refine
    { freedOnce := counts.freedOnce
      noFault := counts.sound
      held := ?_
      refcount := fun _ _ live => counts.counted live
      removed := ?_ }
  · intro thread bus obj pointer
    obtain ⟨mmio, live, member⟩ := counts.held pointer
    refine ⟨?_, mmio, live, member⟩
    intro freed
    rw [(counts.gone freed).1] at live
    cases live
  · intro obj member
    rcases counts.marked member with freed | ⟨mmio, live, removed⟩
    · refine Or.inr ⟨freed, (counts.gone freed).1, ?_⟩
      rintro bus node inside rfl
      obtain ⟨mmio, live, -⟩ := counts.stored inside
      rw [(counts.gone freed).1] at live
      cases live
    · left
      rw [Finset.nonempty_iff_ne_empty]
      intro unheld
      exact deferred obj mmio live removed
        ((counts.refcount_eq_zero_iff live).mpr unheld)

theorem Invariant.initial : Invariant (@TrapState.initial vcpus) := by
  refine ⟨?_, ?_⟩
  · constructor <;> simp [TrapState.initial]
  · intro obj mmio live
    cases live

/-- A step that touches one mapping has to look at that one only. -/
theorem deferred_of_update {state after : TrapState vcpus}
    (deferred : ∀ obj, Deferred state obj) {obj : Nat}
    {value : Option MmioMapping}
    (heap : after.heap = Function.update state.heap obj value)
    (here : ∀ mmio, value = some mmio → mmio.remove = true →
      mmio.refcount ≠ 0) :
    ∀ other, Deferred after other := by
  intro other mmio lookup removed
  rw [heap] at lookup
  by_cases same : other = obj
  · subst same
    rw [Function.update_self] at lookup
    exact here mmio lookup removed
  · rw [Function.update_of_ne same] at lookup
    exact deferred other mmio lookup removed

section Step

variable {state : TrapState vcpus} (invariant : Invariant state)

include invariant

theorem Invariant.get (thread : vcpus.Thread)
    (idle : state.holds thread = none) (bus : Bus) (physAddr : UInt64)
    (len : UInt32) :
    Invariant (trapStep lib state (.get thread bus physAddr len)) := by
  obtain ⟨counts, deferred⟩ := invariant
  have after := counts.get thread idle bus physAddr len lib
  refine ⟨after, ?_⟩
  cases search : mmioSearch (state.root bus) physAddr len.toUInt64 with
  | none =>
      simp only [trapStep, mmioGet, search, idle]
      exact deferred
  | some node =>
      obtain ⟨mmio, live, -⟩ := counts.stored (mmioSearch_mem search)
      simp only [trapStep, mmioGet, search, live, idle] at after ⊢
      refine deferred_of_update deferred rfl ?_
      rintro _ ⟨⟩ _ zero
      have unheld :=
        (after.refcount_eq_zero_iff (Function.update_self ..)).mp zero
      have holder :
          thread ∈
            holders
              (Function.update state.holds thread (some (bus, node.obj)))
              node.obj :=
        mem_holders_iff.mpr ⟨bus, Function.update_self ..⟩
      exact absurd (unheld ▸ holder) (Finset.notMem_empty thread)

theorem Invariant.put {thread : vcpus.Thread} {bus : Bus} {obj : Nat}
    (pointer : state.holds thread = some (bus, obj)) :
    Invariant ((mmioPut lib state bus obj).hold thread none) := by
  obtain ⟨counts, deferred⟩ := invariant
  refine ⟨counts.put lib pointer, ?_⟩
  obtain ⟨mmio, live, -⟩ := counts.held pointer
  simp only [mmioPut, live]
  split
  case isTrue last =>
    refine deferred_of_update deferred (Function.update_idem ..) ?_
    rintro _ ⟨⟩
  case isFalse kept =>
    refine deferred_of_update deferred rfl ?_
    rintro _ ⟨⟩ removed zero
    exact kept (by simp_all)

theorem Invariant.register (physAddr physAddrLen : UInt64)
    (mmioFn ptr : Nat) (flags : UInt32) (allocated : Bool) (ioctl : Int) :
    Invariant
      (kvmRegisterIotrap lib state physAddr physAddrLen mmioFn ptr flags
        allocated ioctl).2 := by
  obtain ⟨counts, deferred⟩ := invariant
  refine ⟨counts.registerIotrap lib .., ?_⟩
  unfold kvmRegisterIotrap
  split
  · dsimp only
    split
    · refine deferred_of_update deferred (Function.update_idem ..) ?_
      rintro _ ⟨⟩
    · refine deferred_of_update deferred rfl ?_
      rintro _ ⟨⟩ ⟨⟩
  · exact deferred

theorem Invariant.deregister (physAddr : UInt64) (flags : UInt32) :
    Invariant (kvmDeregisterIotrap lib state physAddr flags).2 := by
  obtain ⟨counts, deferred⟩ := invariant
  refine ⟨counts.deregisterIotrap lib .., ?_⟩
  cases search :
      mmioSearchSingle (state.root (busOf flags)) physAddr with
  | none =>
      simp only [kvmDeregisterIotrap, search]
      exact deferred
  | some node =>
      obtain ⟨mmio, live, -⟩ := counts.stored (TreeOf.search_sound search).1
      simp only [kvmDeregisterIotrap, search, live]
      split
      · refine deferred_of_update deferred rfl ?_
        rintro _ ⟨⟩
      case isFalse held =>
        refine deferred_of_update deferred rfl ?_
        rintro _ ⟨⟩ _ zero
        exact held (beq_iff_eq.mpr zero)

theorem Invariant.step (action : Action vcpus) :
    Invariant (trapStep lib state action) := by
  cases action with
  | get thread bus physAddr len =>
      cases idle : state.holds thread with
      | none => exact invariant.get lib thread idle bus physAddr len
      | some pointer =>
          simp only [trapStep, idle]
          exact invariant
  | handler thread =>
      simp only [trapStep]
      split
      · exact invariant
      case h_2 bus obj pointer =>
        obtain ⟨mmio, live, -⟩ := invariant.1.held pointer
        rw [live]
        exact invariant
  | put thread =>
      simp only [trapStep]
      split
      · exact invariant
      case h_2 bus obj pointer => exact invariant.put lib pointer
  | register physAddr physAddrLen mmioFn ptr flags allocated ioctl =>
      exact invariant.register lib ..
  | deregister physAddr flags => exact invariant.deregister lib ..

end Step

/--
A put leaves its thread without a mapping; if the mapping was marked and
nobody else holds it, it is freed and out of the trees.
-/
def PutRight (state : TrapState vcpus) (action : Action vcpus) : Prop :=
  ∀ thread bus obj, action = .put thread →
    state.holds thread = some (bus, obj) →
      let after := trapStep lib state action
      after.holds = Function.update state.holds thread none ∧
        (obj ∈ state.marked → holders after.holds obj = ∅ →
          obj ∈ after.freed ∧ after.heap obj = none ∧
            ∀ bus, ∀ node ∈ (after.root bus).inorder, node.obj ≠ obj)

/-- A put changes the holder's pointer only, and no mark. -/
theorem put_frame (state : TrapState vcpus) (bus : Bus) (obj : Nat) :
    (mmioPut lib state bus obj).holds = state.holds ∧
      (mmioPut lib state bus obj).marked = state.marked := by
  unfold mmioPut
  cases state.heap obj with
  | none => exact ⟨rfl, rfl⟩
  | some mmio =>
      dsimp only
      split <;> exact ⟨rfl, rfl⟩

theorem Invariant.putRight {state : TrapState vcpus}
    (invariant : Invariant state) (action : Action vcpus) :
    PutRight lib state action := by
  rintro thread bus obj rfl pointer
  have sound := (invariant.step lib (.put thread)).sound
  simp only [trapStep, pointer] at sound ⊢
  obtain ⟨holds, marks⟩ := put_frame lib state bus obj
  refine ⟨by rw [TrapState.hold, holds], fun marked unheld => ?_⟩
  refine (sound.removed obj ?_).resolve_left ?_
  · rw [TrapState.hold, marks]
    exact marked
  · rw [unheld]
    exact Finset.not_nonempty_empty

/--
In every interleaving of the threads: a mapping is freed at most once and
never while a thread holds it, its reference count is the number of its
holders, and once it is marked for removal it is held, or freed and in no
tree, to which the last put leads.
-/
theorem trap_lifetime (actions : List (Action vcpus)) :
    Throughout (trapStep lib) Sound (@TrapState.initial vcpus) actions ∧
      Along (trapStep lib) (PutRight lib) (@TrapState.initial vcpus)
        actions := by
  have kept :
      ∀ (state : TrapState vcpus) (action : Action vcpus),
        Invariant state → Invariant (trapStep lib state action) :=
    fun _ action invariant => invariant.step lib action
  refine
    ⟨throughout_of_step (fun _ invariant => invariant.sound) kept
      Invariant.initial actions, ?_⟩
  exact
    along_of_along (fun state action holds _ => kept state action holds)
      (fun _ action holds _ => holds.putRight lib action)
      Invariant.initial
      (along_of_forall (fun _ _ => trivial) TrapState.initial actions)

end Runs

end Kemu.Init.Mmio
