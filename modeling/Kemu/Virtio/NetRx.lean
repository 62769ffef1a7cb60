import Kemu.Util.IovecCopy
import Kemu.Virtio.ChainBuffers

/-!
# Frames for the guest

The loop of `virtio_net_rx_thread` that hands a frame to the guest.  The
frame is spread over as many chains as it needs.  Their used elements are
written behind the used index, and one step of the index shows them all.

The guest goes on changing its side of the queue while a frame is handed
over, so the model takes its descriptors and its available ring anew for each
chain.
-/

namespace Kemu.Virtio.NetRx

open Kemu.Util.IoVector hiding memcpyToiovec
open Kemu.Util.IovecCopy
open Kemu.Virtio.Ring
open Kemu.Virtio.DescChain
open Kemu.Virtio.ChainBuffers

/-! ## The code -/

/-- `VIRTIO_NET_QUEUE_SIZE`. -/
def virtioNetQueueSize : Nat := 256

/-- `MAX_PACKET_SIZE`. -/
def maxPacketSize : Nat := 65550

/-- `sizeof(struct virtio_net_hdr)`, where `num_buffers` stands. -/
def virtioNetHdrSize : Nat := 10

/-- `sizeof(struct virtio_net_hdr_mrg_rxbuf)`. -/
def virtioNetHdrMrgRxbufSize : Nat := 12

/-- `VIRTIO_NET_F_MRG_RXBUF`. -/
def virtioNetFMrgRxbuf : UInt64 := 15

/-- The fields of `struct net_dev` that receiving depends on. -/
structure NetDev where
  features : UInt64
  legacy : Bool
deriving Repr

/-- `has_virtio_feature`. -/
def hasVirtioFeature (ndev : NetDev) (feature : UInt64) : Bool :=
  ndev.features &&& (1 <<< feature) != 0

/-- The guest knows the field `num_buffers`. -/
def NetDev.hasNumBuffers (ndev : NetDev) : Bool :=
  hasVirtioFeature ndev virtioNetFMrgRxbuf || !ndev.legacy

/-- What `rx` puts into `buffer`: a packet, with its virtio header first. -/
structure Frame where
  bytes : List UInt8
  nonempty : 0 < bytes.length
  fits : bytes.length ≤ maxPacketSize + virtioNetHdrMrgRxbufSize

/-- The guest's side of a queue. -/
structure GuestRings where
  desc : Nat → VringDesc
  avail : VringAvail

/-- The memory that the device writes: the buffers and the used ring. -/
structure RxMem where
  bytes : Nat → UInt8
  used : VringUsed

def GuestRings.mem (rings : GuestRings) (used : VringUsed) : RingMem :=
  ⟨rings.desc, rings.avail, used⟩

/-- `virt_queue__get_iov`. -/
def virtQueueGetIov
    (fuel : Nat) (view : GuestView) (queue : VirtQueue) (mem : RingMem) :
    Option (UInt16 × HeadIov × VirtQueue) :=
  let (head, popped) := virtQueuePop queue mem
  (virtQueueGetHeadIov fuel view popped mem head).map fun grabbed =>
    (head, grabbed, popped)

/-- The variables of the loop and what the guest could see so far. -/
structure RxState where
  mem : RxMem
  vq : VirtQueue
  copied : Nat
  numBuffers : UInt16
  /-- The memory before each write, the last one first. -/
  seen : List RxMem

/-- A write to guest memory. -/
def RxState.write (state : RxState) (mem : RxMem) : RxState :=
  { state with mem := mem, seen := state.mem :: state.seen }

/-- `memcpy_toiovec` for a chain, then its used element. -/
def RxState.fill (state : RxState) (rings : GuestRings)
    (head : UInt16) (iovsize : Nat) (stores : List Store) : RxState :=
  let copied :=
    state.write { state.mem with bytes := storeAll state.mem.bytes stores }
  let used :=
    (virtQueueSetUsedElemNoUpdate copied.vq (rings.mem copied.mem.used)
      head.toUInt32 (UInt32.ofNat iovsize) copied.numBuffers).used
  { copied.write { copied.mem with used := used } with
    copied := copied.copied + iovsize
    numBuffers := copied.numBuffers + 1 }

/-- `virt_queue__available`, until the guest has made a chain available. -/
def RxState.await (state : RxState) (rings : GuestRings) : RxState :=
  let (_, mem) := virtQueueAvailable state.vq (rings.mem state.mem.used)
  state.write { state.mem with used := mem.used }

section Thread

variable (view : GuestView) (guest : Nat → GuestRings)
  (buffer : List UInt8) (fuel : Nat)

/--
`while (copied < len)`.  The chain in hand is the one popped with the given
number, and `guest` has the rings as they are for each pop.
-/
def rxLoop : Nat → Nat → UInt16 → HeadIov → RxState → Option RxState
  | 0, _, _, _, _ => none
  | turns + 1, pop, head, grabbed, state =>
      if state.copied < buffer.length then
        let iovsize :=
          min (buffer.length - state.copied)
            (iovSize grabbed.iov grabbed.in.toNat)
        match memcpyToiovec grabbed.iov
            ((buffer.drop state.copied).take iovsize) with
        | none => none
        | some (stores, _) =>
            let state := state.fill (guest pop) head iovsize stores
            if state.copied = buffer.length then
              some state
            else
              let state := state.await (guest (pop + 1))
              match virtQueueGetIov fuel view state.vq
                  ((guest (pop + 1)).mem state.mem.used) with
              | none => none
              | some (head, grabbed, vq) =>
                  rxLoop turns (pop + 1) head grabbed
                    { state with vq := vq }
      else
        some state

/-- The two bytes of `hdr->num_buffers`. -/
def numBuffersStores (hdr : Nat) (numBuffers : UInt16) : List Store :=
  [⟨hdr + virtioNetHdrSize, numBuffers.toUInt8⟩,
    ⟨hdr + virtioNetHdrSize + 1, (numBuffers >>> 8).toUInt8⟩]

/-- How a frame ends: before and after the step of the used index. -/
structure RxOutcome where
  filled : RxState
  after : RxMem
  vq : VirtQueue
  signal : Bool

/-- `num_buffers`, the step of the used index, and the signal. -/
def rxFinish (ndev : NetDev) (hdr : Nat) (state : RxState) : RxOutcome :=
  let state :=
    if ndev.hasNumBuffers then
      state.write
        { state.mem with
          bytes :=
            storeAll state.mem.bytes
              (numBuffersStores hdr state.numBuffers) }
    else
      state
  let rings := guest (state.numBuffers.toNat - 1)
  let used :=
    (virtQueueUsedIdxAdvance (rings.mem state.mem.used)
      state.numBuffers).used
  let (signal, vq) := virtioQueueShouldSignal state.vq (rings.mem used)
  { filled := state
    after := { state.mem with used := used }
    vq, signal }

/-- `virtio_net_rx_thread`, for one frame. -/
def virtioNetRx (ndev : NetDev) (vq : VirtQueue) (mem : RxMem)
    (turns : Nat) : Option RxOutcome :=
  let start : RxState := ⟨mem, vq, 0, 0, []⟩
  let start := start.await (guest 0)
  match virtQueueGetIov fuel view vq ((guest 0).mem start.mem.used) with
  | none => none
  | some (head, grabbed, vq) =>
      let hdr := (grabbed.iov.getD 0 default).base
      (rxLoop view guest buffer fuel turns 0 head grabbed
          { start with vq := vq }).map (rxFinish guest ndev hdr)

end Thread

/-! ## The chains of a guest -/

/-- `virtio_net_hdr_len`. -/
def virtioNetHdrLen (ndev : NetDev) : Nat :=
  if ndev.hasNumBuffers then virtioNetHdrMrgRxbufSize else virtioNetHdrSize

/-- The head that is popped with some number. -/
def rxHead (vq : VirtQueue) (guest : Nat → GuestRings) (pop : Nat) : UInt16 :=
  (guest pop).avail.ring
    ((vq.lastAvailIdx + UInt16.ofNat pop).toNat % vq.vring.num)

/-- The chains, all for the device to write, that a guest has in its queue. -/
structure Supply (ndev : NetDev) (view : GuestView)
    (guest : Nat → GuestRings) (vq : VirtQueue) (used : VringUsed) where
  count : Nat
  few : count ≤ vq.vring.num
  nodes : Nat → List Nat
  wellFormed :
    ∀ pop < count,
      WellFormed view vq ((guest pop).mem used) (rxHead vq guest pop) []
        (nodes pop)
  header :
    ∃ first ∈ (nodes 0).head?,
      virtioNetHdrLen ndev ≤
        (bufferAt view
          (chainTable view vq ((guest 0).mem used) (rxHead vq guest 0)).desc
          first).len

section Supply

variable {ndev : NetDev} {view : GuestView} {guest : Nat → GuestRings}
  {vq : VirtQueue} {used : VringUsed}
  (supply : Supply ndev view guest vq used)

/-- The buffers of the chain that is popped with some number. -/
def Supply.buffers (pop : Nat) : List Iovec :=
  (supply.nodes pop).map
    (bufferAt view
      (chainTable view vq ((guest pop).mem used) (rxHead vq guest pop)).desc)

/-- The size of a chain. -/
def Supply.capacity (pop : Nat) : Nat :=
  iovSize (supply.buffers pop) (supply.buffers pop).length

/-- The size of the first chains together. -/
def Supply.room (count : Nat) : Nat :=
  ((List.range count).map supply.capacity).sum

/-- The places of the first chains together. -/
def Supply.chained (count : Nat) : List Nat :=
  (List.range count).flatMap fun pop => places (supply.buffers pop)

/-- The first places of each chain from one on, as many as are wanted. -/
def Supply.landing : Nat → List Nat → List Nat
  | _, [] => []
  | pop, len :: lens =>
      (places (supply.buffers pop)).take len ++ landing (pop + 1) lens

theorem Supply.landing_append (pop : Nat) (lens : List Nat) (len : Nat) :
    supply.landing pop (lens ++ [len]) =
      supply.landing pop lens ++
        (places (supply.buffers (pop + lens.length))).take len := by
  induction lens generalizing pop with
  | nil => exact List.append_nil _
  | cons first lens induction =>
      rw [List.cons_append, landing, landing, induction, List.append_assoc,
        List.length_cons, Nat.add_right_comm, Nat.add_assoc]

theorem Supply.landing_length (pop : Nat) {lens : List Nat}
    (fits :
      ∀ index len, lens[index]? = some len →
        len ≤ supply.capacity (pop + index)) :
    (supply.landing pop lens).length = lens.sum := by
  induction lens generalizing pop with
  | nil => rfl
  | cons first lens induction =>
      have firstFits := fits 0 first rfl
      have later := induction (pop + 1) (by
        intro index len found
        rw [Nat.add_right_comm, Nat.add_assoc]
        exact fits (index + 1) len found)
      rw [Nat.add_zero, capacity, ← places_length] at firstFits
      rw [landing, List.length_append, List.length_take,
        Nat.min_eq_left firstFits, later, List.sum_cons]

theorem Supply.room_succ (count : Nat) :
    supply.room (count + 1) = supply.room count + supply.capacity count := by
  rw [room, room, List.range_succ, List.map_append, List.sum_append,
    List.map_singleton, List.sum_singleton]

theorem Supply.chained_succ (count : Nat) :
    supply.chained (count + 1) =
      supply.chained count ++ places (supply.buffers count) := by
  rw [chained, chained, List.range_succ, List.flatMap_append,
    List.flatMap_singleton]

theorem Supply.chained_length (count : Nat) :
    (supply.chained count).length = supply.room count := by
  induction count with
  | zero => rfl
  | succ count induction =>
      rw [supply.chained_succ, List.length_append, induction,
        places_length, supply.room_succ, capacity]

theorem Supply.room_le {count more : Nat} (le : count ≤ more) :
    supply.room count ≤ supply.room more := by
  induction le with
  | refl => exact le_rfl
  | step le induction =>
      rw [supply.room_succ]
      omega

/-- A chain does not depend on the rest of a queue. -/
theorem wellFormed_of_table {queue other : VirtQueue}
    {mem otherMem : RingMem} {head : UInt16} {readable writable : List Nat}
    (wellFormed : WellFormed view queue mem head readable writable)
    (table :
      chainTable view other otherMem head = chainTable view queue mem head)
    (ring : other.vring = queue.vring) :
    WellFormed view other otherMem head readable writable := by
  constructor
  · rw [table]
    exact wellFormed.chained
  · rw [table, ring]
    exact wellFormed.small
  · rw [table]
    exact wellFormed.readableFirst
  · rw [table]
    exact wellFormed.writableLast

/-- What popping the head of a chain gives. -/
theorem virtQueueGetIov_lists {queue : VirtQueue} {ring : RingMem}
    {readable writable : List Nat}
    (wellFormed :
      WellFormed view queue ring (virtQueuePop queue ring).1 readable
        writable)
    (size : queue.vring.num = virtioNetQueueSize) {fuel : Nat}
    (enough : virtioNetQueueSize ≤ fuel) :
    ∃ grabbed,
      virtQueueGetIov fuel view queue ring =
          some ((virtQueuePop queue ring).1, grabbed,
            (virtQueuePop queue ring).2) ∧
        ListsChain view
          (chainTable view queue ring (virtQueuePop queue ring).1).desc
          readable writable grabbed := by
  have table :
      chainTable view (virtQueuePop queue ring).2 ring
          (virtQueuePop queue ring).1 =
        chainTable view queue ring (virtQueuePop queue ring).1 :=
    rfl
  have popped := wellFormed_of_table wellFormed table rfl
  have bits : queue.vring.num < 65536 := by
    rw [size]
    decide
  have short : (readable ++ writable).length ≤ virtioNetQueueSize :=
    (popped.chained.length_le.trans popped.small).trans (Nat.le_of_eq size)
  obtain ⟨grabbed, got, lists⟩ :=
    virtQueueGetHeadIov_lists popped bits (short.trans enough)
  refine ⟨grabbed, ?_, lists⟩
  rw [virtQueueGetIov]
  dsimp only
  rw [got]
  rfl

/-- What popping a chain gives. -/
theorem Supply.getIov {pop : Nat} (inside : pop < supply.count)
    (size : vq.vring.num = virtioNetQueueSize) {fuel : Nat}
    (enough : virtioNetQueueSize ≤ fuel) {now : VirtQueue}
    (sameRing : now.vring = vq.vring)
    (next : now.lastAvailIdx = vq.lastAvailIdx + UInt16.ofNat pop)
    (usedNow : VringUsed) :
    ∃ grabbed,
      virtQueueGetIov fuel view now ((guest pop).mem usedNow) =
          some (rxHead vq guest pop, grabbed,
            { now with lastAvailIdx := now.lastAvailIdx + 1 }) ∧
        grabbed.iov = supply.buffers pop ∧
          grabbed.in.toNat = (supply.buffers pop).length := by
  have popped :
      virtQueuePop now ((guest pop).mem usedNow) =
        (rxHead vq guest pop,
          { now with lastAvailIdx := now.lastAvailIdx + 1 }) := by
    rw [virtQueuePop, next, sameRing]
    rfl
  have table :
      chainTable view now ((guest pop).mem usedNow) (rxHead vq guest pop) =
        chainTable view vq ((guest pop).mem used) (rxHead vq guest pop) := by
    rw [chainTable, chainTable, sameRing]
    rfl
  have wellFormed :=
    wellFormed_of_table (supply.wellFormed pop inside) table sameRing
  rw [show rxHead vq guest pop = _ from
    (congrArg Prod.fst popped).symm] at wellFormed
  obtain ⟨grabbed, got, lists⟩ :=
    virtQueueGetIov_lists wellFormed (by rw [sameRing, size]) enough
  rw [popped] at got lists
  refine ⟨grabbed, got, ?_, ?_⟩
  · rw [lists.iov, table]
    rfl
  · rw [lists.in, Supply.buffers, List.length_map]

end Supply

/-! ## What a frame leaves behind -/

section Filled

variable {ndev : NetDev} {view : GuestView} {guest : Nat → GuestRings}
  {vq : VirtQueue} {mem : RxMem}
  {supply : Supply ndev view guest vq mem.used} {buffer : List UInt8}

/-- The slot of the used ring so far behind the used index. -/
def usedSlot (vq : VirtQueue) (used : VringUsed) (index : Nat) : Nat :=
  (used.idx + UInt16.ofNat index).toNat % vq.vring.num

/-- Chains that are filled with so many bytes each, and not yet shown. -/
structure Filled (supply : Supply ndev view guest vq mem.used)
    (buffer : List UInt8) (lens : List Nat) (state : RxState) : Prop where
  copied : state.copied = lens.sum
  numBuffers : state.numBuffers = UInt16.ofNat lens.length
  vring : state.vq.vring = vq.vring
  within : lens.length ≤ supply.count
  elements :
    ∀ index len, lens[index]? = some len →
      len ≤ supply.capacity index ∧
        state.mem.used.ring (usedSlot vq mem.used index) =
          ⟨(rxHead vq guest index).toUInt32, UInt32.ofNat len⟩
  bytes :
    state.mem.bytes =
      storeAll mem.bytes
        (List.zipWith Store.mk (supply.landing 0 lens)
          (buffer.take state.copied))
  idx : state.mem.used.idx = mem.used.idx
  hidden : ∀ seen ∈ state.seen, seen.used.idx = mem.used.idx

theorem Filled.landing_length {lens : List Nat} {state : RxState}
    (filled : Filled supply buffer lens state) :
    (supply.landing 0 lens).length = lens.sum := by
  apply supply.landing_length
  intro index len found
  rw [Nat.zero_add]
  exact (filled.elements index len found).1

theorem virtQueueAvailable_used (queue : VirtQueue) (ring : RingMem) :
    (virtQueueAvailable queue ring).2.used.ring = ring.used.ring ∧
      (virtQueueAvailable queue ring).2.used.idx = ring.used.idx := by
  unfold virtQueueAvailable virtQueuePublishAvailEvent
  split
  · exact ⟨rfl, rfl⟩
  · dsimp only
    split
    · exact ⟨rfl, rfl⟩
    · exact ⟨rfl, rfl⟩

/-- Waiting for a chain changes nothing of this. -/
theorem Filled.await {lens : List Nat} {state : RxState}
    (filled : Filled supply buffer lens state) (rings : GuestRings) :
    Filled supply buffer lens (state.await rings) := by
  obtain ⟨ring, idx⟩ :=
    virtQueueAvailable_used state.vq (rings.mem state.mem.used)
  constructor
  · exact filled.copied
  · exact filled.numBuffers
  · exact filled.vring
  · exact filled.within
  · intro index len found
    obtain ⟨fits, element⟩ := filled.elements index len found
    refine ⟨fits, ?_⟩
    rw [← element]
    exact congrFun ring _
  · exact filled.bytes
  · exact idx.trans filled.idx
  · intro seen member
    rcases List.mem_cons.mp member with rfl | earlier
    · exact filled.idx
    · exact filled.hidden seen earlier

/-- Nor does popping one. -/
theorem Filled.pop {lens : List Nat} {state : RxState}
    (filled : Filled supply buffer lens state) {now : VirtQueue}
    (ring : now.vring = vq.vring) :
    Filled supply buffer lens { state with vq := now } :=
  ⟨filled.copied, filled.numBuffers, ring, filled.within, filled.elements,
    filled.bytes, filled.idx, filled.hidden⟩

/-- The slots of as many elements as the ring has are different. -/
theorem usedSlot_ne (size : vq.vring.num = virtioNetQueueSize)
    {index other : Nat} (before : index < other)
    (few : other < virtioNetQueueSize) (used : VringUsed) :
    usedSlot vq used index ≠ usedSlot vq used other := by
  unfold virtioNetQueueSize at size few
  rw [usedSlot, usedSlot, size, UInt16.toNat_add, UInt16.toNat_add,
    UInt16.toNat_ofNat', UInt16.toNat_ofNat']
  omega

/-- A chain is filled. -/
theorem Filled.fill {lens : List Nat} {state : RxState}
    (filled : Filled supply buffer lens state)
    (size : vq.vring.num = virtioNetQueueSize)
    (inside : lens.length < supply.count) {len : Nat}
    (fits : len ≤ supply.capacity lens.length)
    (more : state.copied + len ≤ buffer.length) (rings : GuestRings) :
    Filled supply buffer (lens ++ [len])
      (state.fill rings (rxHead vq guest lens.length) len
        (List.zipWith Store.mk (places (supply.buffers lens.length))
          ((buffer.drop state.copied).take len))) := by
  have few := supply.few
  have taken : ((buffer.drop state.copied).take len).length = len := by
    rw [List.length_take, List.length_drop]
    omega
  constructor
  · rw [List.sum_append, List.sum_singleton, ← filled.copied]
    rfl
  · rw [List.length_append, List.length_singleton, UInt16.ofNat_add,
      ← filled.numBuffers]
    rfl
  · exact filled.vring
  · rw [List.length_append, List.length_singleton]
    exact inside
  · have slot :
        (state.mem.used.idx + state.numBuffers).toNat % state.vq.vring.num =
          usedSlot vq mem.used lens.length := by
      rw [filled.idx, filled.numBuffers, filled.vring, usedSlot]
    intro index other found
    show _ ∧ Function.update state.mem.used.ring
      ((state.mem.used.idx + state.numBuffers).toNat % state.vq.vring.num) _ _
        = _
    rw [slot]
    rcases Nat.lt_or_ge index lens.length with earlier | last
    · rw [List.getElem?_append_left earlier] at found
      obtain ⟨small, element⟩ := filled.elements index other found
      refine ⟨small, ?_⟩
      rw [Function.update_of_ne, element]
      exact usedSlot_ne size earlier (by omega) mem.used
    · have same : index = lens.length := by
        have bound := (List.getElem?_eq_some_iff.mp found).1
        rw [List.length_append, List.length_singleton] at bound
        omega
      rw [same, List.getElem?_concat_length, Option.some.injEq] at found
      rw [same, Function.update_self, ← found]
      exact ⟨fits, rfl⟩
  · show storeAll state.mem.bytes _ = storeAll mem.bytes
      (List.zipWith Store.mk (supply.landing 0 (lens ++ [len]))
        (buffer.take (state.copied + len)))
    have reached :
        (supply.landing 0 lens).length = (buffer.take state.copied).length := by
      rw [filled.landing_length, List.length_take, filled.copied]
      have copied := filled.copied
      omega
    have part :=
      zipWith_take_length (places (supply.buffers lens.length))
        ((buffer.drop state.copied).take len)
    rw [taken] at part
    rw [filled.bytes, ← storeAll_append, supply.landing_append, Nat.zero_add,
      List.take_add, List.zipWith_append reached, part]
  · exact filled.idx
  · intro seen member
    rcases List.mem_cons.mp member with rfl | member
    · exact filled.idx
    · rcases List.mem_cons.mp member with rfl | earlier
      · exact filled.idx
      · exact filled.hidden seen earlier

/-- The loop fills chains until the frame is copied. -/
theorem rxLoop_filled (size : vq.vring.num = virtioNetQueueSize)
    (room : buffer.length ≤ supply.room supply.count) {fuel : Nat}
    (enough : virtioNetQueueSize ≤ fuel) {turns : Nat} {lens : List Nat}
    {state : RxState} {grabbed : HeadIov}
    (filled : Filled supply buffer lens state)
    (whole : supply.landing 0 lens = supply.chained lens.length)
    (more : state.copied < buffer.length)
    (next :
      state.vq.lastAvailIdx =
        vq.lastAvailIdx + UInt16.ofNat (lens.length + 1))
    (iov : grabbed.iov = supply.buffers lens.length)
    (writable : grabbed.in.toNat = (supply.buffers lens.length).length)
    (steps : supply.count ≤ turns + lens.length) :
    ∃ all final,
      rxLoop view guest buffer fuel turns lens.length
          (rxHead vq guest lens.length) grabbed state =
        some final ∧
        Filled supply buffer all final ∧
          final.copied = buffer.length ∧
            supply.landing 0 all =
              (supply.chained all.length).take buffer.length := by
  have full : state.copied = supply.room lens.length := by
    rw [filled.copied, ← filled.landing_length, whole, supply.chained_length]
  have inside : lens.length < supply.count := by
    by_contra beyond
    have reached := supply.room_le (Nat.not_lt.mp beyond)
    omega
  induction turns generalizing lens state grabbed with
  | zero => omega
  | succ turns induction =>
      rw [rxLoop, if_pos more, iov, writable]
      dsimp only
      let len :=
        min (buffer.length - state.copied) (supply.capacity lens.length)
      have fits :
          ((buffer.drop state.copied).take len).length ≤
            iovSize (supply.buffers lens.length)
              (supply.buffers lens.length).length :=
        Nat.le_trans (List.length_take_le _ _) (Nat.min_le_right _ _)
      obtain ⟨left, copied, _⟩ := memcpyToiovec_eq fits
      rw [← Supply.capacity, copied]
      dsimp only
      have after :=
        filled.fill size inside (Nat.min_le_right _ _ : len ≤ _)
          (by omega) (guest lens.length)
      have amount :
          (state.fill (guest lens.length) (rxHead vq guest lens.length) len
              (List.zipWith Store.mk (places (supply.buffers lens.length))
                ((buffer.drop state.copied).take len))).copied =
            state.copied + len :=
        rfl
      have longer : (lens ++ [len]).length = lens.length + 1 := by
        rw [List.length_append, List.length_singleton]
      have landed :
          supply.landing 0 (lens ++ [len]) =
            (supply.chained (lens ++ [len]).length).take
              (state.copied + len) := by
        rw [longer, supply.chained_succ, full, ← supply.chained_length,
          List.take_length_add_append, supply.landing_append, whole,
          Nat.zero_add]
      split
      case isTrue done =>
        refine ⟨_, _, rfl, after, done, ?_⟩
        exact landed.trans (congrArg (List.take · _) done)
      case isFalse part =>
        rw [amount] at part
        -- The chain is used up, and the next one is popped.
        have usedUp : len = supply.capacity lens.length := by omega
        have reached :
            state.copied + len = supply.room (lens ++ [len]).length := by
          rw [longer, supply.room_succ, full, usedUp]
        have left : state.copied + len < buffer.length := by omega
        have insideNext : (lens ++ [len]).length < supply.count := by
          by_contra beyond
          have bound := supply.room_le (Nat.not_lt.mp beyond)
          omega
        have waited := after.await (guest (lens ++ [len]).length)
        obtain ⟨nextGrabbed, got, nextIov, nextWritable⟩ :=
          supply.getIov insideNext size enough waited.vring
            (next.trans (by rw [longer])) _
        rw [← longer, got]
        apply induction
        · apply waited.pop
          exact waited.vring
        · rw [landed, reached, ← supply.chained_length, List.take_length]
        · exact left
        · show state.vq.lastAvailIdx + 1 = _
          rw [next, longer, UInt16.ofNat_add (lens.length + 1),
            ← UInt16.add_assoc]
          rfl
        · exact nextIov
        · exact nextWritable
        · omega
        · exact reached
        · exact insideNext

theorem Filled.start (supply : Supply ndev view guest vq mem.used)
    (buffer : List UInt8) :
    Filled supply buffer [] ⟨mem, vq, 0, 0, []⟩ where
  copied := rfl
  numBuffers := rfl
  vring := rfl
  within := Nat.zero_le _
  elements := fun _ _ found => nomatch found
  bytes := rfl
  idx := rfl
  hidden := fun _ member => nomatch member

end Filled

/-! ## Frames are published whole -/

section Published

variable {ndev : NetDev} {view : GuestView} {guest : Nat → GuestRings}
  {vq : VirtQueue} {mem : RxMem}

/-- The place of the virtio header: the first place of the first chain. -/
def Supply.hdr (supply : Supply ndev view guest vq mem.used) : Nat :=
  ((supply.buffers 0).getD 0 default).base

/-- A frame with the number of its chains in its header. -/
def Frame.counted (frame : Frame) (ndev : NetDev) (count : Nat) :
    List UInt8 :=
  if ndev.hasNumBuffers then
    (frame.bytes.set virtioNetHdrSize (UInt16.ofNat count).toUInt8).set
      (virtioNetHdrSize + 1) ((UInt16.ofNat count) >>> 8).toUInt8
  else
    frame.bytes

/--
A frame in the chains of a guest, with so many bytes in each of them, and the
used index that shows it.
-/
structure Published (supply : Supply ndev view guest vq mem.used)
    (frame : Frame) (lens : List Nat) (outcome : RxOutcome) : Prop where
  nonempty : 0 < lens.length
  within : lens.length ≤ supply.count
  /-- Consecutive used elements, the heads in the order they are popped. -/
  elements :
    ∀ index len, lens[index]? = some len →
      len ≤ supply.capacity index ∧
        outcome.after.used.ring (usedSlot vq mem.used index) =
          ⟨(rxHead vq guest index).toUInt32, UInt32.ofNat len⟩
  sum : lens.sum = frame.bytes.length
  /-- The frame is written in order, and the number of chains after it. -/
  stored :
    outcome.after.bytes =
      storeAll mem.bytes
        (List.zipWith Store.mk (supply.landing 0 lens) frame.bytes ++
          if ndev.hasNumBuffers then
            numBuffersStores supply.hdr (UInt16.ofNat lens.length)
          else [])
  /-- Buffers that do not overlap hold the frame. -/
  contents :
    (supply.chained lens.length).Nodup →
      (supply.landing 0 lens).map outcome.after.bytes =
        frame.counted ndev lens.length
  numBuffers :
    ndev.hasNumBuffers = true →
      outcome.after.bytes (supply.hdr + virtioNetHdrSize) =
          (UInt16.ofNat lens.length).toUInt8 ∧
        outcome.after.bytes (supply.hdr + virtioNetHdrSize + 1) =
          (UInt16.ofNat lens.length >>> 8).toUInt8
  /-- Nothing is shown before everything is written. -/
  hidden :
    ∀ seen ∈ outcome.filled.mem :: outcome.filled.seen,
      seen.used.idx = mem.used.idx
  shown :
    outcome.after =
      { outcome.filled.mem with
        used :=
          { outcome.filled.mem.used with
            idx := mem.used.idx + UInt16.ofNat lens.length } }

/-- A write among different places changes one byte. -/
theorem map_take_update {places : List Nat} (distinct : places.Nodup)
    {position place : Nat} (there : places[position]? = some place)
    (bytes : Nat → UInt8) (byte : UInt8) (count : Nat) :
    (places.take count).map (Function.update bytes place byte) =
      ((places.take count).map bytes).set position byte := by
  apply List.ext_getElem
  · rw [List.length_set, List.length_map, List.length_map]
  · intro index inMap _
    rw [List.length_map, List.length_take] at inMap
    have inPlaces : index < places.length := by omega
    obtain ⟨bound, found⟩ := List.getElem?_eq_some_iff.mp there
    rw [List.getElem_map, List.getElem_set, List.getElem_map,
      List.getElem_take]
    split
    case isTrue same =>
      subst same
      rw [found, Function.update_self]
    case isFalse other =>
      rw [Function.update_of_ne]
      intro same
      exact other
        (distinct.getElem_inj_iff.mp (same.trans found.symm)).symm

/-- The header stands at the first places. -/
theorem Supply.hdr_places (supply : Supply ndev view guest vq mem.used)
    {count : Nat} (inside : 0 < count) {offset : Nat}
    (within : offset < virtioNetHdrLen ndev) :
    (supply.chained count)[offset]? = some (supply.hdr + offset) := by
  obtain ⟨first, isFirst, long⟩ := supply.header
  obtain ⟨rest, nodes⟩ : ∃ rest, supply.nodes 0 = first :: rest := by
    cases nodes : supply.nodes 0 with
    | nil =>
        rw [nodes] at isFirst
        cases isFirst
    | cons head rest =>
        rw [nodes] at isFirst
        cases isFirst
        exact ⟨rest, rfl⟩
  obtain ⟨less, rfl⟩ := Nat.exists_eq_add_of_le' inside
  have inFirst :
      offset <
        (bufferAt view
          (chainTable view vq ((guest 0).mem mem.used)
            (rxHead vq guest 0)).desc
          first).len :=
    Nat.lt_of_lt_of_le within long
  rw [Supply.chained, List.range_succ_eq_map, List.flatMap_cons,
    Supply.hdr, Supply.buffers, nodes, List.map_cons, places_cons,
    List.append_assoc, List.getElem?_append_left]
  · rw [List.getElem?_map, List.getElem?_range inFirst]
    rfl
  · rwa [List.length_map, List.length_range]

section Finish

variable {supply : Supply ndev view guest vq mem.used} {frame : Frame}
  {lens : List Nat} {state : RxState}

/-- What the end of a frame writes, apart from the used index. -/
structure Finished (guest : Nat → GuestRings) (ndev : NetDev) (hdr : Nat)
    (state : RxState) : Prop where
  bytes :
    (rxFinish guest ndev hdr state).filled.mem.bytes =
      storeAll state.mem.bytes
        (if ndev.hasNumBuffers then numBuffersStores hdr state.numBuffers
        else [])
  used : (rxFinish guest ndev hdr state).filled.mem.used = state.mem.used
  shown :
    (rxFinish guest ndev hdr state).after =
      { (rxFinish guest ndev hdr state).filled.mem with
        used :=
          { state.mem.used with
            idx := state.mem.used.idx + state.numBuffers } }
  seen :
    ∀ seen ∈ (rxFinish guest ndev hdr state).filled.seen,
      seen = state.mem ∨ seen ∈ state.seen

theorem rxFinish_finished (hdr : Nat) :
    Finished guest ndev hdr state := by
  constructor
  case bytes =>
    unfold rxFinish
    dsimp only
    split
    · rfl
    · rfl
  case used =>
    unfold rxFinish
    dsimp only
    split
    · rfl
    · rfl
  case shown =>
    unfold rxFinish
    dsimp only
    split
    · rfl
    · rfl
  case seen =>
    intro seen member
    unfold rxFinish at member
    dsimp only at member
    split at member
    · exact List.mem_cons.mp member
    · exact Or.inr member

theorem Filled.publishes (filled : Filled supply frame.bytes lens state)
    (copied : state.copied = frame.bytes.length)
    (landed :
      supply.landing 0 lens =
        (supply.chained lens.length).take frame.bytes.length) :
    Published supply frame lens (rxFinish guest ndev supply.hdr state) := by
  have nonempty : 0 < lens.length := by
    by_contra none
    have total := filled.copied
    rw [List.length_eq_zero_iff.mp (Nat.eq_zero_of_not_pos none),
      copied] at total
    exact absurd frame.nonempty (Nat.not_lt.mpr (Nat.le_of_eq total))
  have bytes := filled.bytes
  rw [copied, List.take_length] at bytes
  have finished : Finished guest ndev supply.hdr state :=
    rxFinish_finished supply.hdr
  have stored :
      (rxFinish guest ndev supply.hdr state).after.bytes =
        storeAll mem.bytes
          (List.zipWith Store.mk (supply.landing 0 lens) frame.bytes ++
            if ndev.hasNumBuffers then
              numBuffersStores supply.hdr (UInt16.ofNat lens.length)
            else []) := by
    rw [finished.shown, storeAll_append, ← bytes, ← filled.numBuffers]
    exact finished.bytes
  constructor
  case nonempty => exact nonempty
  case within => exact filled.within
  case sum => rw [← filled.copied, copied]
  case stored => exact stored
  case elements =>
    rw [finished.shown]
    exact filled.elements
  case contents =>
    intro distinct
    have length :
        ((supply.chained lens.length).take frame.bytes.length).length =
          frame.bytes.length := by
      rw [← landed, filled.landing_length, ← filled.copied, copied]
    have written :=
      map_storeAll_zipWith mem.bytes
        (distinct.sublist (List.take_sublist frame.bytes.length _))
        (Nat.le_of_eq length.symm)
    rw [List.take_take, Nat.min_self] at written
    rw [stored, storeAll_append, landed, Frame.counted]
    split
    case isFalse => exact written
    case isTrue known =>
      have place {offset : Nat} (inHeader : offset < 12) :
          (supply.chained lens.length)[offset]? =
            some (supply.hdr + offset) :=
        supply.hdr_places nonempty (by
          rw [virtioNetHdrLen, if_pos known]
          exact inHeader)
      have low :
          (supply.chained lens.length)[virtioNetHdrSize]? =
            some (supply.hdr + virtioNetHdrSize) :=
        place (by decide)
      have high :
          (supply.chained lens.length)[virtioNetHdrSize + 1]? =
            some (supply.hdr + virtioNetHdrSize + 1) :=
        place (by decide)
      show List.map
        (Function.update
          (Function.update _ (supply.hdr + virtioNetHdrSize) _)
          (supply.hdr + virtioNetHdrSize + 1) _) _ = _
      rw [map_take_update distinct high, map_take_update distinct low,
        written]
  case numBuffers =>
    intro known
    rw [stored, storeAll_append, if_pos known]
    constructor
    · show Function.update (Function.update _ _ _) _ _ _ = _
      rw [Function.update_of_ne (Nat.ne_of_lt (Nat.lt_succ_self _)),
        Function.update_self]
    · exact Function.update_self _ _ _
  case hidden =>
    intro seen member
    rcases List.mem_cons.mp member with rfl | earlier
    · rw [finished.used]
      exact filled.idx
    · rcases finished.seen seen earlier with rfl | before
      · exact filled.idx
      · exact filled.hidden seen before
  case shown =>
    rw [finished.shown, finished.used, filled.idx, filled.numBuffers]

end Finish

/-- A frame is published in the chains that the guest has for it. -/
theorem virtioNetRx_publishes
    (supply : Supply ndev view guest vq mem.used)
    (size : vq.vring.num = virtioNetQueueSize) (frame : Frame)
    (room : frame.bytes.length ≤ supply.room supply.count)
    {fuel turns : Nat} (enoughFuel : virtioNetQueueSize ≤ fuel)
    (enough : virtioNetQueueSize ≤ turns) :
    ∃ lens outcome,
      virtioNetRx view guest frame.bytes fuel ndev vq mem turns =
          some outcome ∧
        Published supply frame lens outcome := by
  have few := supply.few
  have nonempty := frame.nonempty
  have inside : 0 < supply.count := by
    by_contra none
    rw [Nat.eq_zero_of_not_pos none] at room
    exact absurd nonempty (Nat.not_lt.mpr room)
  have waited := (Filled.start supply frame.bytes).await (guest 0)
  have first :
      vq.lastAvailIdx = vq.lastAvailIdx + UInt16.ofNat 0 :=
    (UInt16.add_zero _).symm
  obtain ⟨grabbed, got, iov, writable⟩ :=
    supply.getIov inside size enoughFuel rfl first
      (RxState.await ⟨mem, vq, 0, 0, []⟩ (guest 0)).mem.used
  have popped :
      Filled supply frame.bytes []
        { RxState.await ⟨mem, vq, 0, 0, []⟩ (guest 0) with
          vq := { vq with lastAvailIdx := vq.lastAvailIdx + 1 } } :=
    waited.pop rfl
  have steps : supply.count ≤ turns + ([] : List Nat).length := by
    rw [List.length_nil]
    omega
  obtain ⟨lens, final, loop, filled, copied, landed⟩ :=
    rxLoop_filled size room enoughFuel popped rfl nonempty rfl iov writable
      steps
  rw [List.length_nil] at loop
  refine ⟨lens, _, ?_, filled.publishes copied landed⟩
  rw [virtioNetRx]
  dsimp only
  rw [got]
  dsimp only
  rw [loop, iov]
  rfl

end Published

/-! ## A frame over two chains -/

/-- A modern device. -/
def modernNet : NetDev := ⟨0, false⟩

/-- A queue whose chains are single buffers of sixteen bytes. -/
def smallBuffers : VirtQueue :=
  { (default : VirtQueue) with vring := ⟨virtioNetQueueSize, 1, 2, 3⟩ }

def smallRings (_ : Nat) : GuestRings where
  desc := fun index => ⟨UInt64.ofNat (16 * index), 16, vringDescFWrite, 0⟩
  avail := ⟨0, 2, UInt16.ofNat⟩

def flatView : GuestView := ⟨UInt64.toNat, fun _ _ => default⟩

def zeroMem : RxMem := ⟨fun _ => 0, ⟨0, 0, fun _ => default, 0⟩⟩

def twentyBytes : Frame :=
  ⟨List.replicate 20 7, by decide, by decide⟩

/-- The first two buffers. -/
def twoBuffers :
    Supply modernNet flatView smallRings smallBuffers zeroMem.used where
  count := 2
  few := by decide
  nodes := fun pop => [pop]
  wellFormed := by
    intro pop inside
    obtain rfl | rfl : pop = 0 ∨ pop = 1 := by omega
    all_goals
      constructor
      · exact .last (by decide) (by decide) (by decide)
      · decide
      · exact fun _ none => nomatch none
      · decide
  header := ⟨0, rfl, by decide⟩

/-- A frame of twenty bytes that needs two chains. -/
theorem virtioNetRx_publishes_twoBuffers :
    ∃ lens outcome,
      virtioNetRx flatView smallRings twentyBytes.bytes 256 modernNet
          smallBuffers zeroMem 256 =
        some outcome ∧
      Published twoBuffers twentyBytes lens outcome :=
  virtioNetRx_publishes twoBuffers rfl twentyBytes (by decide) le_rfl le_rfl

end Kemu.Virtio.NetRx
