import Kemu.Lib.Walk
import Kemu.Util.IoVector
import Kemu.Virtio.Ring

/-!
# Descriptor chains

A buffer in a virtqueue is a chain of descriptors linked by guest-written
`next` fields, either in the queue's own table or in an indirect table the
head descriptor points to.  `virt_queue__get_head_iov` and
`virt_queue__get_inout_iov` turn such a chain into scatter-gather lists.

Both are loops over guest data without a bound of their own.  They are
modelled with fuel, `none` meaning that the loop is still running, and they
record every descriptor they read together with the size of the table it is
read from.
-/

namespace Kemu.Virtio.DescChain

open Kemu.Lib.Walk
open Kemu.Util.IoVector
open Kemu.Virtio.Ring

/-! ## The code -/

/-- Guest memory as the chain walkers see it. -/
structure GuestView where
  /-- `guest_flat_to_host`. -/
  guestFlatToHost : UInt64 → HostPtr
  /-- The descriptor at a position of a table that starts at an address. -/
  descAt : HostPtr → Nat → VringDesc

/-- A read of one descriptor out of a table of `size` entries. -/
structure DescRead where
  size : Nat
  index : Nat
deriving DecidableEq, Repr

/-- `virt_desc__test_flag`. -/
def virtDescTestFlag (desc : VringDesc) (flag : UInt16) : Bool :=
  desc.flags &&& flag != 0

/-- `next_desc`: the next descriptor in the chain, or `max` at its end. -/
def nextDesc (desc : Nat → VringDesc) (index max : Nat) : Nat :=
  if virtDescTestFlag (desc index) vringDescFNext then
    min (desc index).next.toNat max
  else
    max

/-- The output of `virt_queue__get_head_iov`. -/
structure HeadIov where
  iov : List Iovec
  out : UInt16
  «in» : UInt16
  reads : List DescRead
deriving Repr

/-- The loop body: grab one descriptor and count it by direction. -/
def HeadIov.grab
    (view : GuestView) (desc : Nat → VringDesc) (size : Nat)
    (grabbed : HeadIov) (index : Nat) : HeadIov :=
  let entry := desc index
  let writable := virtDescTestFlag entry vringDescFWrite
  { iov :=
      grabbed.iov ++
        [⟨view.guestFlatToHost entry.addr, entry.len.toNat⟩]
    out := if writable then grabbed.out else grabbed.out + 1
    «in» := if writable then grabbed.in + 1 else grabbed.in
    reads := grabbed.reads ++ [⟨size, index⟩] }

/-- The `do … while` loop of `virt_queue__get_head_iov`. -/
def headIovLoop
    (view : GuestView) (desc : Nat → VringDesc) (size max : Nat) :
    Nat → Nat → HeadIov → Option HeadIov
  | 0, _, _ => none
  | fuel + 1, index, grabbed =>
      let grabbed := grabbed.grab view desc size index
      let following := nextDesc desc index max
      if following = max then
        some grabbed
      else
        headIovLoop view desc size max fuel following grabbed

/-- The number of descriptors an indirect table of this byte length holds. -/
def indirectSize (len : UInt32) : Nat :=
  len.toNat / 16

/--
`virt_queue__get_head_iov`.  The loop bound `max` is a sixteen-bit variable,
so the size of an indirect table is truncated when it is assigned.
-/
def virtQueueGetHeadIov
    (fuel : Nat) (view : GuestView) (queue : VirtQueue) (mem : RingMem)
    (head : UInt16) : Option HeadIov :=
  let first := mem.desc head.toNat
  let start : HeadIov :=
    { iov := [], out := 0, «in» := 0
      reads := [⟨queue.vring.num, head.toNat⟩] }
  if virtDescTestFlag first vringDescFIndirect then
    let size := indirectSize first.len
    headIovLoop view (view.descAt (view.guestFlatToHost first.addr))
      size (size % 65536) fuel 0 start
  else
    headIovLoop view mem.desc queue.vring.num (queue.vring.num % 65536)
      fuel head.toNat start

/-- The output of `virt_queue__get_inout_iov`. -/
structure InoutIov where
  inIov : List Iovec
  outIov : List Iovec
  reads : List DescRead
deriving Repr

/-- The loop body: file one descriptor under its direction. -/
def InoutIov.grab
    (view : GuestView) (desc : Nat → VringDesc) (size : Nat)
    (grabbed : InoutIov) (index : Nat) : InoutIov :=
  let entry := desc index
  let buffer : Iovec :=
    ⟨view.guestFlatToHost entry.addr, entry.len.toNat⟩
  let reads := grabbed.reads ++ [⟨size, index⟩]
  if virtDescTestFlag entry vringDescFWrite then
    { grabbed with inIov := grabbed.inIov ++ [buffer], reads := reads }
  else
    { grabbed with outIov := grabbed.outIov ++ [buffer], reads := reads }

/-- The loop of `virt_queue__get_inout_iov`; `next` is taken as it is. -/
def inoutIovLoop
    (view : GuestView) (desc : Nat → VringDesc) (size : Nat) :
    Nat → Nat → InoutIov → Option InoutIov
  | 0, _, _ => none
  | fuel + 1, index, grabbed =>
      let grabbed := grabbed.grab view desc size index
      if virtDescTestFlag (desc index) vringDescFNext then
        inoutIovLoop view desc size fuel (desc index).next.toNat grabbed
      else
        some grabbed

/-- `virt_queue__get_inout_iov`, which pops the head itself. -/
def virtQueueGetInoutIov
    (fuel : Nat) (view : GuestView) (queue : VirtQueue) (mem : RingMem) :
    Option (UInt16 × InoutIov × VirtQueue) :=
  let popped := virtQueuePop queue mem
  (inoutIovLoop view mem.desc queue.vring.num fuel popped.1.toNat
      { inIov := [], outIov := [], reads := [] }).map
    fun grabbed => (popped.1, grabbed, popped.2)

/-! ## The loops as walks -/

/-- The link `virt_queue__get_head_iov` follows, cut at the loop bound. -/
def clampedLink (desc : Nat → VringDesc) (max index : Nat) : Option Nat :=
  if nextDesc desc index max = max then
    none
  else
    some (nextDesc desc index max)

/-- The link `virt_queue__get_inout_iov` follows. -/
def plainLink (desc : Nat → VringDesc) (index : Nat) : Option Nat :=
  if virtDescTestFlag (desc index) vringDescFNext then
    some (desc index).next.toNat
  else
    none

theorem clampedLink_lt {desc : Nat → VringDesc} {max index target : Nat}
    (link : clampedLink desc max index = some target) :
    target < max := by
  rw [clampedLink] at link
  split at link
  case isTrue _ => cases link
  case isFalse inside =>
    cases link
    have bounded : nextDesc desc index max ≤ max := by
      rw [nextDesc]
      split
      · exact Nat.min_le_right _ _
      · exact le_rfl
    exact lt_of_le_of_ne bounded inside

theorem headIovLoop_eq_walk
    (view : GuestView) (desc : Nat → VringDesc) (size max fuel index : Nat)
    (grabbed : HeadIov) :
    headIovLoop view desc size max fuel index grabbed =
      (walk (clampedLink desc max) fuel index).map
        (List.foldl (HeadIov.grab view desc size) grabbed) := by
  induction fuel generalizing index grabbed with
  | zero => rfl
  | succ fuel induction =>
      rw [headIovLoop, walk, clampedLink]
      split
      case isTrue _ => rfl
      case isFalse _ =>
        rw [induction, Option.map_map]
        rfl

theorem inoutIovLoop_eq_walk
    (view : GuestView) (desc : Nat → VringDesc) (size fuel index : Nat)
    (grabbed : InoutIov) :
    inoutIovLoop view desc size fuel index grabbed =
      (walk (plainLink desc) fuel index).map
        (List.foldl (InoutIov.grab view desc size) grabbed) := by
  induction fuel generalizing index grabbed with
  | zero => rfl
  | succ fuel induction =>
      rw [inoutIovLoop, walk, plainLink]
      split
      case isTrue _ =>
        rw [induction, Option.map_map]
        rfl
      case isFalse _ => rfl

section Folds

variable (view : GuestView) (desc : Nat → VringDesc) (size : Nat)

@[simp]
theorem foldl_grab_iov_length (grabbed : HeadIov) (nodes : List Nat) :
    (nodes.foldl (HeadIov.grab view desc size) grabbed).iov.length =
      grabbed.iov.length + nodes.length := by
  induction nodes generalizing grabbed with
  | nil => rfl
  | cons node rest induction =>
      rw [List.foldl_cons, induction]
      simp only [HeadIov.grab, List.length_append, List.length_cons,
        List.length_nil]
      omega

@[simp]
theorem foldl_grab_reads (grabbed : HeadIov) (nodes : List Nat) :
    (nodes.foldl (HeadIov.grab view desc size) grabbed).reads =
      grabbed.reads ++ nodes.map (DescRead.mk size) := by
  induction nodes generalizing grabbed with
  | nil => simp
  | cons node rest induction =>
      rw [List.foldl_cons, induction]
      simp [HeadIov.grab]

@[simp]
theorem foldl_inoutGrab_lengths (grabbed : InoutIov) (nodes : List Nat) :
    (nodes.foldl (InoutIov.grab view desc size) grabbed).inIov.length +
        (nodes.foldl (InoutIov.grab view desc size) grabbed).outIov.length =
      grabbed.inIov.length + grabbed.outIov.length + nodes.length := by
  induction nodes generalizing grabbed with
  | nil => rfl
  | cons node rest induction =>
      rw [List.foldl_cons, induction, InoutIov.grab]
      split <;>
        simp only [List.length_append, List.length_cons, List.length_nil] <;>
        omega

@[simp]
theorem foldl_inoutGrab_reads (grabbed : InoutIov) (nodes : List Nat) :
    (nodes.foldl (InoutIov.grab view desc size) grabbed).reads =
      grabbed.reads ++ nodes.map (DescRead.mk size) := by
  induction nodes generalizing grabbed with
  | nil => simp
  | cons node rest induction =>
      rw [List.foldl_cons, induction, InoutIov.grab]
      split <;> simp

end Folds

/-! ## Safety of one walk -/

/-- A read stays inside the table it reads from. -/
def DescRead.InTable (access : DescRead) : Prop :=
  access.index < access.size

/--
`virt_queue__get_head_iov` returns, every descriptor it read lies in its
table, and the buffers fit an array of queue size.
-/
def HeadIovSafe
    (view : GuestView) (queue : VirtQueue) (mem : RingMem)
    (head : UInt16) : Prop :=
  ∃ fuel result,
    virtQueueGetHeadIov fuel view queue mem head = some result ∧
      (∀ access ∈ result.reads, access.InTable) ∧
      result.iov.length ≤ queue.vring.num

/-- The same for `virt_queue__get_inout_iov` and its two arrays. -/
def InoutIovSafe
    (view : GuestView) (queue : VirtQueue) (mem : RingMem) : Prop :=
  ∃ fuel head result popped,
    virtQueueGetInoutIov fuel view queue mem =
        some (head, result, popped) ∧
      (∀ access ∈ result.reads, access.InTable) ∧
      result.inIov.length ≤ queue.vring.num ∧
      result.outIov.length ≤ queue.vring.num

/-- A table entry count below which no index can fall outside. -/
theorem finite_of_subset_Iio {nodes : Set Nat} {bound : Nat}
    (inside : nodes ⊆ Set.Iio bound) :
    nodes.Finite ∧ nodes.ncard ≤ bound := by
  rw [← Finset.coe_range] at inside
  have finite := (Finset.range bound).finite_toSet
  refine ⟨finite.subset inside, ?_⟩
  calc
    nodes.ncard ≤ (Finset.range bound : Set Nat).ncard :=
      Set.ncard_le_ncard inside finite
    _ = bound := by
      rw [Set.ncard_coe_finset, Finset.card_range]

/--
The loop of `virt_queue__get_head_iov` is safe on a table exactly when the
start lies in the table, no cycle is reachable from it and no more
descriptors than the array holds.
-/
theorem headIovLoop_safe_iff
    (view : GuestView) (desc : Nat → VringDesc)
    {size max : Nat} (truncated : max ≤ size)
    (start capacity : Nat) (grabbed : HeadIov)
    (empty : grabbed.iov = []) :
    (∃ fuel result,
        headIovLoop view desc size max fuel start grabbed = some result ∧
          (∀ access ∈ result.reads, access.InTable) ∧
          result.iov.length ≤ capacity) ↔
      (∀ access ∈ grabbed.reads, access.InTable) ∧
        start < size ∧
        Acyclic (clampedLink desc max) start ∧
        (visited (clampedLink desc max) start).ncard ≤ capacity := by
  have inside (startIn : start < size) :
      visited (clampedLink desc max) start ⊆ Set.Iio size := by
    refine visited_subset (Set.mem_Iio.2 startIn) ?_
    intro source target link
    exact (clampedLink_lt link).trans_le truncated
  constructor
  · rintro ⟨fuel, result, finished, inTable, fits⟩
    rw [headIovLoop_eq_walk, Option.map_eq_some_iff] at finished
    rcases finished with ⟨nodes, ended, rfl⟩
    rw [foldl_grab_reads] at inTable
    rw [foldl_grab_iov_length, empty, List.length_nil, Nat.zero_add] at fits
    have startRead : start ∈ nodes :=
      (mem_walk_iff ended start).2 (mem_visited_self _ _)
    refine ⟨?_, ?_, acyclic_of_walk ended, ?_⟩
    · intro access member
      exact inTable access (List.mem_append_left _ member)
    · exact inTable ⟨size, start⟩
        (List.mem_append_right _ (List.mem_map_of_mem startRead))
    · rwa [walk_length_eq_ncard ended]
  · rintro ⟨earlier, startIn, acyclic, fits⟩
    have bound := finite_of_subset_Iio (inside startIn)
    rcases exists_walk_of_acyclic acyclic bound.1 bound.2 with
      ⟨nodes, ended⟩
    refine
      ⟨size, nodes.foldl (HeadIov.grab view desc size) grabbed, ?_, ?_, ?_⟩
    · rw [headIovLoop_eq_walk, ended]
      rfl
    · rw [foldl_grab_reads]
      intro access member
      rcases List.mem_append.1 member with old | new
      · exact earlier access old
      · rcases List.mem_map.1 new with ⟨node, walked, rfl⟩
        exact inside startIn ((mem_walk_iff ended node).1 walked)
    · rw [foldl_grab_iov_length, empty, List.length_nil, Nat.zero_add,
        ← walk_length_eq_ncard ended]
      exact fits

/--
What a chain must be for `virt_queue__get_head_iov`: the head lies in the
queue's table and the chain has no cycle; an indirect table has an entry,
and no more of its entries are chained than the queue has.
-/
def HeadChainOk
    (view : GuestView) (queue : VirtQueue) (mem : RingMem)
    (head : UInt16) : Prop :=
  head.toNat < queue.vring.num ∧
    if virtDescTestFlag (mem.desc head.toNat) vringDescFIndirect then
      let size := indirectSize (mem.desc head.toNat).len
      let link :=
        clampedLink
          (view.descAt
            (view.guestFlatToHost (mem.desc head.toNat).addr))
          (size % 65536)
      0 < size ∧ Acyclic link 0 ∧
        (visited link 0).ncard ≤ queue.vring.num
    else
      Acyclic (clampedLink mem.desc (queue.vring.num % 65536)) head.toNat

theorem headIovSafe_iff
    (view : GuestView) (queue : VirtQueue) (mem : RingMem)
    (head : UInt16) :
    HeadIovSafe view queue mem head ↔
      HeadChainOk view queue mem head := by
  rw [HeadIovSafe, HeadChainOk]
  simp only [virtQueueGetHeadIov]
  split
  case isTrue _ =>
    rw [headIovLoop_safe_iff _ _ (Nat.mod_le _ _) _ _ _ rfl]
    simp [DescRead.InTable]
  case isFalse _ =>
    rw [headIovLoop_safe_iff _ _ (Nat.mod_le _ _) _ _ _ rfl]
    simp only [List.mem_singleton, forall_eq, DescRead.InTable]
    constructor
    · rintro ⟨inTable, _, acyclic, _⟩
      exact ⟨inTable, acyclic⟩
    · rintro ⟨inTable, acyclic⟩
      refine ⟨inTable, inTable, acyclic, ?_⟩
      refine
        (finite_of_subset_Iio
          (visited_subset (Set.mem_Iio.2 inTable) ?_)).2
      intro source target link
      exact (clampedLink_lt link).trans_le (Nat.mod_le _ _)

/--
What a chain must be for `virt_queue__get_inout_iov`: every descriptor it
reaches, the head included, lies in the queue's table, and it has no cycle.
-/
def InoutChainOk (queue : VirtQueue) (mem : RingMem) (head : UInt16) : Prop :=
  visited (plainLink mem.desc) head.toNat ⊆ Set.Iio queue.vring.num ∧
    Acyclic (plainLink mem.desc) head.toNat

theorem inoutIovSafe_iff
    (view : GuestView) (queue : VirtQueue) (mem : RingMem) :
    InoutIovSafe view queue mem ↔
      InoutChainOk queue mem (virtQueuePop queue mem).1 := by
  rw [InoutIovSafe, InoutChainOk]
  simp only [virtQueueGetInoutIov, inoutIovLoop_eq_walk, Option.map_map,
    Option.map_eq_some_iff, Function.comp_apply, Prod.mk.injEq]
  constructor
  · rintro ⟨fuel, _, _, _, ⟨nodes, ended, rfl, rfl, rfl⟩, inTable, _, _⟩
    refine ⟨?_, acyclic_of_walk ended⟩
    intro node reached
    have walked := (mem_walk_iff ended node).2 reached
    apply inTable ⟨queue.vring.num, node⟩
    simpa using walked
  · rintro ⟨inside, acyclic⟩
    have bound := finite_of_subset_Iio inside
    rcases exists_walk_of_acyclic acyclic bound.1 bound.2 with
      ⟨nodes, ended⟩
    have lengths :=
      foldl_inoutGrab_lengths view mem.desc queue.vring.num
        { inIov := [], outIov := [], reads := [] } nodes
    have short := walk_length_le ended
    simp only [List.length_nil, Nat.zero_add] at lengths
    refine
      ⟨_, _, _, _, ⟨nodes, ended, rfl, rfl, rfl⟩, ?_, by omega, by omega⟩
    rw [foldl_inoutGrab_reads]
    intro access member
    simp only [List.nil_append, List.mem_map] at member
    rcases member with ⟨node, walked, rfl⟩
    exact inside ((mem_walk_iff ended node).1 walked)

/-! ## Safety of a popped chain -/

/--
Taking a request off a queue is safe: the popped head lies in the queue's
table and both walkers return within their tables and arrays.
-/
def ChainWalksSafe
    (view : GuestView) (queue : VirtQueue) (mem : RingMem) : Prop :=
  let head := (virtQueuePop queue mem).1
  head.toNat < queue.vring.num ∧
    HeadIovSafe view queue mem head ∧
    InoutIovSafe view queue mem

/--
For every content of the descriptor tables and the available ring, taking a
request is safe exactly when the ring entry names a descriptor of the queue
from which, for either walker, only descriptors inside the walked table and
no cycle can be reached, with no more chained than the queue has entries.
-/
theorem chainWalksSafe_iff
    (view : GuestView) (queue : VirtQueue) (mem : RingMem) :
    ChainWalksSafe view queue mem ↔
      let head :=
        mem.avail.ring (queue.lastAvailIdx.toNat % queue.vring.num)
      HeadChainOk view queue mem head ∧ InoutChainOk queue mem head := by
  rw [ChainWalksSafe, headIovSafe_iff, inoutIovSafe_iff]
  constructor
  · rintro ⟨_, headOk, inoutOk⟩
    exact ⟨headOk, inoutOk⟩
  · rintro ⟨headOk, inoutOk⟩
    exact ⟨headOk.1, headOk, inoutOk⟩

/-- A queue of 256 entries whose first descriptor is chained to itself. -/
def selfChained : VirtQueue × RingMem :=
  ({ vring := { num := 256, desc := 1, avail := 1, used := 1 }
     vringAddr := default
     lastAvailIdx := 0
     lastUsedSignalled := 0
     endian := 0
     useEventIdx := false
     enabled := true },
   { desc := fun _ => { addr := 0, len := 16, flags := 1, next := 0 }
     avail := { flags := 0, idx := 1, ring := fun _ => 0 }
     used :=
       { flags := 0, idx := 0, ring := fun _ => default, availEvent := 0 } })

/-- A guest with nothing mapped. -/
def unmapped : GuestView where
  guestFlatToHost _ := 0
  descAt _ _ := default

/-- On the self-chained descriptor `virt_queue__get_head_iov` never returns. -/
theorem selfChained_unsafe :
    ¬ ChainWalksSafe unmapped selfChained.1 selfChained.2 := by
  rintro ⟨_, headSafe, _⟩
  rw [headIovSafe_iff] at headSafe
  have acyclic :
      Acyclic (clampedLink selfChained.2.desc 256) 0 := headSafe.2
  have loop :
      Linked (clampedLink selfChained.2.desc 256) 0 0 := by
    rw [Linked]
    decide
  exact acyclic 0 (mem_visited_self _ _) (Relation.TransGen.single loop)

end Kemu.Virtio.DescChain
