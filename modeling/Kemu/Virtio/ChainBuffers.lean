import Kemu.Virtio.DescChain

/-!
# The buffers of a chain

A well-formed chain is a finite path through a table of descriptors, in the
queue or in an indirect table, with the readable descriptors in front.  Both
walkers follow this path to its end: `virt_queue__get_head_iov` lists the
buffers in the order of the chain and counts the two kinds, and
`virt_queue__get_inout_iov` files the same buffers in two lists.
-/

namespace Kemu.Virtio.ChainBuffers

open Kemu.Lib.Walk
open Kemu.Util.IoVector
open Kemu.Virtio.Ring
open Kemu.Virtio.DescChain

/-! ## Chains -/

/-- The descriptors of a direct chain, from a start to its end. -/
inductive IsChain (desc : Nat → VringDesc) (size : Nat) :
    Nat → List Nat → Prop where
  | last {index : Nat}
      (inside : index < size)
      (direct : virtDescTestFlag (desc index) vringDescFIndirect = false)
      (ends : virtDescTestFlag (desc index) vringDescFNext = false) :
      IsChain desc size index [index]
  | link {index : Nat} {rest : List Nat}
      (inside : index < size)
      (direct : virtDescTestFlag (desc index) vringDescFIndirect = false)
      (continues : virtDescTestFlag (desc index) vringDescFNext = true)
      (tail : IsChain desc size (desc index).next.toNat rest) :
      IsChain desc size index (index :: rest)

section Paths

variable {desc : Nat → VringDesc} {size start : Nat} {nodes : List Nat}

theorem plainLink_of_ends {index : Nat}
    (ends : virtDescTestFlag (desc index) vringDescFNext = false) :
    plainLink desc index = none := by
  rw [plainLink, ends]
  rfl

theorem plainLink_of_continues {index : Nat}
    (continues : virtDescTestFlag (desc index) vringDescFNext = true) :
    plainLink desc index = some (desc index).next.toNat := by
  rw [plainLink, if_pos continues]

theorem clampedLink_of_ends {index : Nat}
    (ends : virtDescTestFlag (desc index) vringDescFNext = false) :
    clampedLink desc size index = none := by
  rw [clampedLink, nextDesc, ends]
  exact if_pos rfl

/-- A link to a descriptor of the table is not cut. -/
theorem clampedLink_of_continues {index : Nat}
    (continues : virtDescTestFlag (desc index) vringDescFNext = true)
    (inside : (desc index).next.toNat < size) :
    clampedLink desc size index = some (desc index).next.toNat := by
  rw [clampedLink, nextDesc, if_pos continues,
    Nat.min_eq_left (Nat.le_of_lt inside), if_neg (Nat.ne_of_lt inside)]

theorem IsChain.start_lt (chain : IsChain desc size start nodes) :
    start < size := by
  cases chain with
  | last inside direct ends => exact inside
  | link inside direct continues tail => exact inside

theorem IsChain.walk_plain (chain : IsChain desc size start nodes)
    {fuel : Nat} (enough : nodes.length ≤ fuel) :
    walk (plainLink desc) fuel start = some nodes := by
  induction chain generalizing fuel with
  | last inside direct ends =>
      obtain ⟨less, rfl⟩ := Nat.exists_eq_succ_of_ne_zero (Nat.ne_zero_of_lt enough)
      exact walk_succ_of_none less (plainLink_of_ends ends)
  | link inside direct continues tail induction =>
      obtain ⟨less, rfl⟩ := Nat.exists_eq_succ_of_ne_zero (Nat.ne_zero_of_lt enough)
      rw [walk_succ_of_some less (plainLink_of_continues continues),
        induction (Nat.le_of_succ_le_succ enough)]
      rfl

/-- The clamp does not show on a chain inside the table. -/
theorem IsChain.walk_clamped (chain : IsChain desc size start nodes)
    {fuel : Nat} (enough : nodes.length ≤ fuel) :
    walk (clampedLink desc size) fuel start = some nodes := by
  induction chain generalizing fuel with
  | last inside direct ends =>
      obtain ⟨less, rfl⟩ := Nat.exists_eq_succ_of_ne_zero (Nat.ne_zero_of_lt enough)
      exact walk_succ_of_none less (clampedLink_of_ends ends)
  | link inside direct continues tail induction =>
      obtain ⟨less, rfl⟩ := Nat.exists_eq_succ_of_ne_zero (Nat.ne_zero_of_lt enough)
      rw [walk_succ_of_some less
          (clampedLink_of_continues continues tail.start_lt),
        induction (Nat.le_of_succ_le_succ enough)]
      rfl

/-- A chain has no more descriptors than its table. -/
theorem IsChain.length_le (chain : IsChain desc size start nodes) :
    nodes.length ≤ size := by
  have ended := chain.walk_clamped (Nat.le_refl _)
  rw [← walk_length_eq_ncard ended]
  refine (finite_of_subset_Iio (visited_subset
    (Set.mem_Iio.2 chain.start_lt) ?_)).2
  intro source target link
  exact clampedLink_lt link

end Paths

/-! ## What the walkers collect -/

/-- The buffer of a descriptor. -/
def bufferAt (view : GuestView) (desc : Nat → VringDesc) (index : Nat) :
    Iovec :=
  ⟨view.guestFlatToHost (desc index).addr, (desc index).len.toNat⟩

/-- The descriptor is for the device to write. -/
def Writable (desc : Nat → VringDesc) (index : Nat) : Prop :=
  virtDescTestFlag (desc index) vringDescFWrite = true

instance (desc : Nat → VringDesc) (index : Nat) :
    Decidable (Writable desc index) :=
  inferInstanceAs (Decidable (_ = true))

section Folds

variable (view : GuestView) {desc : Nat → VringDesc} (size : Nat)

theorem foldl_grab_iov (grabbed : HeadIov) (nodes : List Nat) :
    (nodes.foldl (HeadIov.grab view desc size) grabbed).iov =
      grabbed.iov ++ nodes.map (bufferAt view desc) := by
  induction nodes generalizing grabbed with
  | nil => rw [List.map_nil, List.append_nil, List.foldl_nil]
  | cons node rest induction =>
      rw [List.foldl_cons, induction, List.map_cons, HeadIov.grab,
        List.append_assoc]
      rfl

theorem foldl_grab_counts (grabbed : HeadIov) (nodes : List Nat) :
    let after := nodes.foldl (HeadIov.grab view desc size) grabbed
    after.out =
        grabbed.out + UInt16.ofNat (nodes.countP (¬ Writable desc ·)) ∧
      after.in =
        grabbed.in + UInt16.ofNat (nodes.countP (Writable desc ·)) := by
  induction nodes generalizing grabbed with
  | nil => simp
  | cons node rest induction =>
      obtain ⟨out, counted⟩ := induction (grabbed.grab view desc size node)
      rw [List.foldl_cons]
      dsimp only
      rw [out, counted, HeadIov.grab]
      by_cases writable : Writable desc node
      · have flag : virtDescTestFlag (desc node) vringDescFWrite = true :=
          writable
        simp [writable, flag, UInt16.ofNat_add, UInt16.add_assoc,
          UInt16.add_comm 1]
      · have flag : ¬ virtDescTestFlag (desc node) vringDescFWrite = true :=
          writable
        simp [writable, flag, UInt16.ofNat_add, UInt16.add_assoc,
          UInt16.add_comm 1]

theorem foldl_inoutGrab (grabbed : InoutIov) (nodes : List Nat) :
    let after := nodes.foldl (InoutIov.grab view desc size) grabbed
    after.inIov =
        grabbed.inIov ++
          (nodes.filter (Writable desc ·)).map (bufferAt view desc) ∧
      after.outIov =
        grabbed.outIov ++
          (nodes.filter (¬ Writable desc ·)).map (bufferAt view desc) := by
  induction nodes generalizing grabbed with
  | nil => simp
  | cons node rest induction =>
      obtain ⟨read, written⟩ :=
        induction (grabbed.grab view desc size node)
      rw [List.foldl_cons]
      dsimp only
      rw [read, written, InoutIov.grab]
      by_cases writable : Writable desc node
      · have flag : virtDescTestFlag (desc node) vringDescFWrite = true :=
          writable
        simp [writable, flag, bufferAt]
      · have flag : ¬ virtDescTestFlag (desc node) vringDescFWrite = true :=
          writable
        simp [writable, flag, bufferAt]

end Folds

/-! ## Well-formed requests -/

/-- A table of descriptors, its size, and where a chain starts in it. -/
structure ChainTable where
  desc : Nat → VringDesc
  size : Nat
  start : Nat

/-- The table of the chain behind a head: the queue's, or an indirect one. -/
def chainTable (view : GuestView) (queue : VirtQueue) (mem : RingMem)
    (head : UInt16) : ChainTable :=
  let first := mem.desc head.toNat
  if virtDescTestFlag first vringDescFIndirect then
    { desc := view.descAt (view.guestFlatToHost first.addr)
      size := indirectSize first.len
      start := 0 }
  else
    { desc := mem.desc
      size := queue.vring.num
      start := head.toNat }

/--
The head of a well-formed chain: a direct chain in its table, which has no
more entries than the queue, with the readable descriptors in front.
-/
structure WellFormed (view : GuestView) (queue : VirtQueue)
    (mem : RingMem) (head : UInt16) (readable writable : List Nat) :
    Prop where
  chained :
    IsChain (chainTable view queue mem head).desc
      (chainTable view queue mem head).size
      (chainTable view queue mem head).start (readable ++ writable)
  small : (chainTable view queue mem head).size ≤ queue.vring.num
  readableFirst :
    ∀ node ∈ readable,
      ¬ Writable (chainTable view queue mem head).desc node
  writableLast :
    ∀ node ∈ writable,
      Writable (chainTable view queue mem head).desc node

/-- What `virt_queue__get_head_iov` is to return for a chain. -/
structure ListsChain (view : GuestView) (desc : Nat → VringDesc)
    (readable writable : List Nat) (result : HeadIov) : Prop where
  iov : result.iov = (readable ++ writable).map (bufferAt view desc)
  out : result.out.toNat = readable.length
  «in» : result.in.toNat = writable.length

/-- What `virt_queue__get_inout_iov` is to return for a chain. -/
structure FilesChain (view : GuestView) (desc : Nat → VringDesc)
    (readable writable : List Nat) (result : InoutIov) : Prop where
  outIov : result.outIov = readable.map (bufferAt view desc)
  inIov : result.inIov = writable.map (bufferAt view desc)

section Results

variable {view : GuestView} {queue : VirtQueue} {mem : RingMem}
  {head : UInt16} {readable writable : List Nat}

/-- The walk over a table whose size has sixteen bits, along its chain. -/
theorem headIovLoop_lists {desc : Nat → VringDesc} {size start : Nat}
    (chain : IsChain desc size start (readable ++ writable))
    (bits : size < 65536)
    (readableFirst : ∀ node ∈ readable, ¬ Writable desc node)
    (writableLast : ∀ node ∈ writable, Writable desc node)
    {fuel : Nat} (enough : (readable ++ writable).length ≤ fuel)
    (reads : List DescRead) :
    ∃ result,
      headIovLoop view desc size (size % 65536) fuel start
          { iov := [], out := 0, «in» := 0, reads } =
        some result ∧
        ListsChain view desc readable writable result := by
  have short := chain.length_le
  rw [List.length_append] at short
  rw [Nat.mod_eq_of_lt bits, headIovLoop_eq_walk, chain.walk_clamped enough]
  refine ⟨_, rfl, ?_⟩
  obtain ⟨out, counted⟩ :=
    foldl_grab_counts view size { iov := [], out := 0, «in» := 0, reads }
      (readable ++ writable)
  constructor
  · rw [foldl_grab_iov, List.nil_append]
  · rw [out, List.countP_append, List.countP_eq_length.mpr (by simpa),
      List.countP_eq_zero.mpr (by simpa), UInt16.zero_add,
      UInt16.toNat_ofNat', Nat.mod_eq_of_lt (by omega), Nat.add_zero]
  · rw [counted, List.countP_append, List.countP_eq_zero.mpr (by simpa),
      List.countP_eq_length.mpr (by simpa), UInt16.zero_add,
      UInt16.toNat_ofNat', Nat.mod_eq_of_lt (by omega), Nat.zero_add]

/-- Both kinds of chain are walked by the same loop. -/
theorem virtQueueGetHeadIov_eq_loop (fuel : Nat) :
    virtQueueGetHeadIov fuel view queue mem head =
      headIovLoop view (chainTable view queue mem head).desc
        (chainTable view queue mem head).size
        ((chainTable view queue mem head).size % 65536) fuel
        (chainTable view queue mem head).start
        { iov := [], out := 0, «in» := 0
          reads := [⟨queue.vring.num, head.toNat⟩] } := by
  rw [virtQueueGetHeadIov, chainTable]
  dsimp only
  split
  · rfl
  · rfl

theorem virtQueueGetHeadIov_lists
    (wellFormed : WellFormed view queue mem head readable writable)
    (bits : queue.vring.num < 65536)
    {fuel : Nat} (enough : (readable ++ writable).length ≤ fuel) :
    ∃ result,
      virtQueueGetHeadIov fuel view queue mem head = some result ∧
        ListsChain view (chainTable view queue mem head).desc readable
          writable result := by
  rw [virtQueueGetHeadIov_eq_loop]
  exact headIovLoop_lists wellFormed.chained
    (Nat.lt_of_le_of_lt wellFormed.small bits) wellFormed.readableFirst
    wellFormed.writableLast enough _

theorem chainTable_direct
    (direct :
      virtDescTestFlag (mem.desc head.toNat) vringDescFIndirect = false) :
    chainTable view queue mem head =
      ⟨mem.desc, queue.vring.num, head.toNat⟩ := by
  rw [chainTable, direct]
  rfl

theorem virtQueueGetInoutIov_files
    (wellFormed : WellFormed view queue mem head readable writable)
    (direct :
      virtDescTestFlag (mem.desc head.toNat) vringDescFIndirect = false)
    (popped : (virtQueuePop queue mem).1 = head)
    {fuel : Nat} (enough : (readable ++ writable).length ≤ fuel) :
    ∃ result,
      virtQueueGetInoutIov fuel view queue mem =
          some (head, result, (virtQueuePop queue mem).2) ∧
        FilesChain view (chainTable view queue mem head).desc readable
          writable result := by
  obtain ⟨chained, -, readableFirst, writableLast⟩ := wellFormed
  rw [chainTable_direct direct] at chained readableFirst writableLast ⊢
  dsimp only at chained readableFirst writableLast ⊢
  rw [virtQueueGetInoutIov, popped, inoutIovLoop_eq_walk,
    chained.walk_plain enough]
  refine ⟨_, rfl, ?_⟩
  obtain ⟨filed, listed⟩ :=
    foldl_inoutGrab view queue.vring.num
      { inIov := [], outIov := [], reads := [] } (readable ++ writable)
  constructor
  · rw [listed, List.filter_append, List.filter_eq_self.mpr (by simpa),
      List.filter_eq_nil_iff.mpr (by simpa), List.append_nil,
      List.nil_append]
  · rw [filed, List.filter_append, List.filter_eq_nil_iff.mpr (by simpa),
      List.filter_eq_self.mpr (by simpa), List.nil_append, List.nil_append]

/-! ## Main result -/

/--
On a well-formed chain, `virt_queue__get_head_iov` returns the buffers in the
order of the chain and the numbers of the two kinds; and if the chain is
direct, `virt_queue__get_inout_iov` returns the same buffers in two lists.
As many turns as the chain has descriptors suffice for both.
-/
theorem walkers_collect_chain
    (wellFormed : WellFormed view queue mem head readable writable)
    (bits : queue.vring.num < 65536)
    {fuel : Nat} (enough : (readable ++ writable).length ≤ fuel) :
    (∃ result,
        virtQueueGetHeadIov fuel view queue mem head = some result ∧
          ListsChain view (chainTable view queue mem head).desc readable
            writable result) ∧
      (virtDescTestFlag (mem.desc head.toNat) vringDescFIndirect = false →
        (virtQueuePop queue mem).1 = head →
          ∃ result,
            virtQueueGetInoutIov fuel view queue mem =
                some (head, result, (virtQueuePop queue mem).2) ∧
              FilesChain view (chainTable view queue mem head).desc readable
                writable result) :=
  ⟨virtQueueGetHeadIov_lists wellFormed bits enough,
    fun direct popped =>
      virtQueueGetInoutIov_files wellFormed direct popped enough⟩

end Results

/-- A queue of eight entries that offers the chain of entries 3, 0 and 5. -/
def threeChained : VirtQueue × RingMem :=
  ({ vring := { num := 8, desc := 1, avail := 1, used := 1 }
     vringAddr := default
     lastAvailIdx := 0
     lastUsedSignalled := 0
     endian := 0
     useEventIdx := false
     enabled := true },
   { desc := fun index =>
       if index = 3 then
         { addr := 4096, len := 16, flags := 1, next := 0 }
       else if index = 0 then
         { addr := 8192, len := 512, flags := 3, next := 5 }
       else
         { addr := 6000, len := 1, flags := 2, next := 0 }
     avail := { flags := 0, idx := 1, ring := fun _ => 3 }
     used :=
       { flags := 0, idx := 0, ring := fun _ => default, availEvent := 0 } })

theorem threeChained_wellFormed :
    WellFormed unmapped threeChained.1 threeChained.2 3 [3] [0, 5] where
  chained :=
    .link (by decide) (by decide) (by decide)
      (.link (by decide) (by decide) (by decide)
        (.last (by decide) (by decide) (by decide)))
  small := by decide
  readableFirst := by decide
  writableLast := by decide

/-- The chain of one readable and two writable buffers, by both walkers. -/
theorem walkers_collect_threeChained :
    (∃ result,
        virtQueueGetHeadIov 8 unmapped threeChained.1 threeChained.2 3 =
            some result ∧
          ListsChain unmapped
            (chainTable unmapped threeChained.1 threeChained.2 3).desc [3]
            [0, 5] result) ∧
      ∃ result,
        virtQueueGetInoutIov 8 unmapped threeChained.1 threeChained.2 =
            some (3, result,
              (virtQueuePop threeChained.1 threeChained.2).2) ∧
          FilesChain unmapped
            (chainTable unmapped threeChained.1 threeChained.2 3).desc [3]
            [0, 5] result :=
  have both := walkers_collect_chain threeChained_wellFormed (by decide)
    (show ([3] ++ [0, 5] : List Nat).length ≤ 8 by decide)
  ⟨both.1, both.2 (by decide) (by decide)⟩

end Kemu.Virtio.ChainBuffers
