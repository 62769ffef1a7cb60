import Kemu.Virtio.NetRx

/-!
# Control requests of the network device

`virtio_net_ctrl_thread`.  A request is a chain: a header and data for the
device to read, and then a byte for the answer.  The thread counts the
readable buffers with the number of writable ones, so that the answer lands
where the two numbers happen to lead.
-/

namespace Kemu.Virtio.NetCtrl

open Kemu.Util.IoVector hiding memcpyToiovec
open Kemu.Util.IovecCopy
open Kemu.Virtio.Ring
open Kemu.Virtio.DescChain
open Kemu.Virtio.ChainBuffers
open Kemu.Virtio.NetRx

/-! ## The code -/

/-- `struct virtio_net_ctrl_hdr`. -/
structure VirtioNetCtrlHdr where
  «class» : UInt8
  cmd : UInt8
deriving DecidableEq, Repr

/-- `sizeof(ctrl)`. -/
def virtioNetCtrlHdrSize : Nat := 2

/-- `VIRTIO_NET_OK`. -/
def virtioNetOk : UInt8 := 0

/-- `VIRTIO_NET_ERR`. -/
def virtioNetErr : UInt8 := 1

/-- `VIRTIO_NET_CTRL_MQ`. -/
def virtioNetCtrlMq : UInt8 := 4

/-- `virtio_net_handle_mq`. -/
def virtioNetHandleMq (_ : VirtioNetCtrlHdr) : UInt8 :=
  virtioNetOk

/-- The answer to a header. -/
def ctrlAck (ctrl : VirtioNetCtrlHdr) : UInt8 :=
  if ctrl.class = virtioNetCtrlMq then
    virtioNetHandleMq ctrl
  else
    virtioNetErr

/-- A header whose first bytes are copied over an older one. -/
def VirtioNetCtrlHdr.overwrite (ctrl : VirtioNetCtrlHdr)
    (kdata : List UInt8) : VirtioNetCtrlHdr :=
  ⟨kdata.getD 0 ctrl.class, kdata.getD 1 ctrl.cmd⟩

/-- What a request leaves behind. -/
structure CtrlOutcome where
  ctrl : VirtioNetCtrlHdr
  stores : List Store
  ring : RingMem
  vq : VirtQueue

/--
`virtio_net_ctrl_thread`, for one request.  The variable `ctrl` keeps what it
has from the request before; `none` where a copy runs behind the chain.
-/
def virtioNetCtrl (view : GuestView) (vq : VirtQueue) (ring : RingMem)
    (ctrl : VirtioNetCtrlHdr) (mem : Nat → UInt8) : Option CtrlOutcome :=
  match virtQueueGetIov virtioNetQueueSize view vq ring with
  | none => none
  | some (head, grabbed, vq) =>
      let len :=
        min (iovSize grabbed.iov grabbed.in.toNat) virtioNetCtrlHdrSize
      match memcpyFromiovec mem grabbed.iov len with
      | none => none
      | some (kdata, left) =>
          let ctrl := ctrl.overwrite kdata
          let ack := ctrlAck ctrl
          (memcpyToiovec (left.drop grabbed.in.toNat) [ack]).map
            fun (stores, _) =>
              { ctrl, stores, vq
                ring := virtQueueSetUsedElem vq ring head.toUInt32 1 }

/-! ## Requests -/

/-- The buffers at some descriptors of the chain that is popped next. -/
def chainIov (view : GuestView) (vq : VirtQueue) (ring : RingMem)
    (nodes : List Nat) : List Iovec :=
  nodes.map
    (bufferAt view
      (chainTable view vq ring (virtQueuePop vq ring).1).desc)

/--
A control request at the front of a queue: a class and a command in front,
room for the answer behind, and each buffer memory of its own.
-/
structure CtrlRequest (view : GuestView) (vq : VirtQueue) (ring : RingMem)
    where
  size : vq.vring.num = virtioNetQueueSize
  readable : List Nat
  writable : List Nat
  wellFormed :
    WellFormed view vq ring (virtQueuePop vq ring).1 readable writable
  distinct :
    (places (chainIov view vq ring (readable ++ writable))).Nodup
  header :
    virtioNetCtrlHdrSize ≤
      (places (chainIov view vq ring readable)).length
  answer : 0 < (places (chainIov view vq ring writable)).length

section Request

variable {view : GuestView} {vq : VirtQueue} {ring : RingMem}
  (request : CtrlRequest view vq ring)

/-- The buffers of a request, as the thread has them. -/
def CtrlRequest.iov : List Iovec :=
  chainIov view vq ring (request.readable ++ request.writable)

/-- The places for the device to read. -/
def CtrlRequest.outPlaces : List Nat :=
  places (chainIov view vq ring request.readable)

/-- The places for the device to write. -/
def CtrlRequest.inPlaces : List Nat :=
  places (chainIov view vq ring request.writable)

/--
A request is handled: class and command come from the readable part, the
answer is the first byte of the writable part, and no readable byte changes.
-/
structure Handled (mem : Nat → UInt8) (outcome : CtrlOutcome) : Prop where
  header :
    [outcome.ctrl.class, outcome.ctrl.cmd] =
      (request.outPlaces.take virtioNetCtrlHdrSize).map mem
  answer :
    ∃ place,
      request.inPlaces.head? = some place ∧
        outcome.stores = [⟨place, ctrlAck outcome.ctrl⟩]
  kept : ∀ store ∈ outcome.stores, store.place ∉ request.outPlaces

theorem CtrlRequest.places_iov :
    places request.iov = request.outPlaces ++ request.inPlaces := by
  rw [iov, chainIov, List.map_append, places, List.flatMap_append]
  rfl

theorem CtrlRequest.size_out :
    iovSize request.iov request.readable.length =
      request.outPlaces.length := by
  have front :
      request.iov.take request.readable.length =
        chainIov view vq ring request.readable := by
    rw [iov, chainIov, List.map_append, List.take_left']
    · rfl
    · exact List.length_map _
  rw [outPlaces, places_length, iovSize, front, iovSize, List.take_length]

/-- What the thread does with a request. -/
theorem virtioNetCtrl_eq (ctrl : VirtioNetCtrlHdr) (mem : Nat → UInt8) :
    let reached := iovSize request.iov request.writable.length
    let read :=
      ctrl.overwrite
        (((places request.iov).take
          (min reached virtioNetCtrlHdrSize)).map mem)
    virtioNetCtrl view vq ring ctrl mem =
      (places request.iov)[reached]?.map fun place =>
        { ctrl := read
          stores := [⟨place, ctrlAck read⟩]
          vq := (virtQueuePop vq ring).2
          ring :=
            virtQueueSetUsedElem (virtQueuePop vq ring).2 ring
              (virtQueuePop vq ring).1.toUInt32 1 } := by
  intro reached read
  obtain ⟨grabbed, got, lists⟩ :=
    virtQueueGetIov_lists request.wellFormed request.size le_rfl
  have iov : grabbed.iov = request.iov := lists.iov
  have count : reached ≤ iovSize request.iov request.iov.length := by
    apply iovSize_le_of_le
    rw [CtrlRequest.iov, chainIov, List.length_map, List.length_append]
    exact Nat.le_add_left _ _
  obtain ⟨left, copied, used⟩ :=
    memcpyFromiovec_eq mem
      ((Nat.min_le_left reached virtioNetCtrlHdrSize).trans count)
  -- The header is read from the buffers in front of the ones used here.
  have rest :
      places (left.drop request.writable.length) =
        (places request.iov).drop reached := by
    rw [used.places, places_drop,
      Nat.sub_eq_zero_of_le (Nat.min_le_left _ _), List.drop_zero]
  have written :=
    memcpyToiovec_singleton (left.drop request.writable.length)
      (ctrlAck read)
  rw [rest, List.head?_drop] at written
  rw [virtioNetCtrl, got]
  dsimp only
  rw [iov, lists.in, copied]
  dsimp only
  cases stored :
      memcpyToiovec (left.drop request.writable.length) [ctrlAck read] with
  | none =>
      rw [stored] at written
      rw [Option.map_none, Option.map_eq_none_iff.mp written.symm]
      rfl
  | some copy =>
      rw [stored] at written
      obtain ⟨place, found, same⟩ := Option.map_eq_some_iff.mp written.symm
      rw [found, Option.map_some, Option.map_some, ← same]

/--
A request is handled exactly if its first buffers, as many as it has writable
ones, have as many bytes as its readable buffers.
-/
theorem virtioNetCtrl_handles_iff (ctrl : VirtioNetCtrlHdr)
    (mem : Nat → UInt8) :
    (∃ outcome,
      virtioNetCtrl view vq ring ctrl mem = some outcome ∧
        Handled request mem outcome) ↔
      iovSize request.iov request.writable.length =
        iovSize request.iov request.readable.length := by
  have parts := request.places_iov
  have front := request.size_out
  have distinct : (places request.iov).Nodup := request.distinct
  -- The writable part has a first place, behind the readable part.
  obtain ⟨first, inTail, isIn⟩ :
      ∃ place rest, request.inPlaces = place :: rest :=
    List.exists_cons_of_length_pos request.answer
  have firstIn :
      (places request.iov)[iovSize request.iov request.readable.length]? =
        some first := by
    rw [parts, front, List.getElem?_append_right le_rfl, Nat.sub_self, isIn]
    rfl
  have inside :
      iovSize request.iov request.readable.length <
        (places request.iov).length :=
    (List.getElem?_eq_some_iff.mp firstIn).1
  rw [virtioNetCtrl_eq request ctrl mem]
  constructor
  · rintro ⟨outcome, handled, right⟩
    obtain ⟨place, reached, rfl⟩ := Option.map_eq_some_iff.mp handled
    obtain ⟨answered, isFirst, stores⟩ := right.answer
    rw [isIn] at isFirst
    cases isFirst
    have same : place = first :=
      congrArg Store.place (List.singleton_inj.mp stores)
    rw [same, ← firstIn] at reached
    exact ((List.getElem?_inj inside distinct).mp reached.symm).symm
  · intro same
    rw [same, firstIn]
    refine ⟨_, rfl, ?_, ⟨first, ?_, rfl⟩, ?_⟩
    · have long : 2 ≤ request.outPlaces.length := request.header
      obtain ⟨byte, cmd, rest, isOut⟩ :
          ∃ byte cmd rest, request.outPlaces = byte :: cmd :: rest := by
        match found : request.outPlaces with
        | [] =>
            rw [found] at long
            exact absurd long (by decide)
        | [_] =>
            rw [found] at long
            exact absurd long (Nat.not_le.mpr (Nat.lt_succ_self 1))
        | byte :: cmd :: rest => exact ⟨byte, cmd, rest, rfl⟩
      have bytes :
          min (iovSize request.iov request.readable.length)
              virtioNetCtrlHdrSize =
            virtioNetCtrlHdrSize := by
        rw [front]
        exact Nat.min_eq_right long
      dsimp only
      rw [bytes, parts, isOut]
      rfl
    · rw [isIn]
      rfl
    · intro store member inOut
      rw [List.mem_singleton.mp member] at inOut
      rw [parts, isIn] at distinct
      exact (List.nodup_append.mp distinct).2.2 first inOut first
        List.mem_cons_self rfl

end Request

/-! ## A header, data and an answer -/

/-- Two buffers to read and one to write, as for a change of the queues. -/
def threeBuffers : RingMem where
  desc := fun index =>
    match index with
    | 0 => ⟨0, 2, vringDescFNext, 1⟩
    | 1 => ⟨16, 2, vringDescFNext, 2⟩
    | _ => ⟨32, 1, vringDescFWrite, 0⟩
  avail := ⟨0, 1, fun _ => 0⟩
  used := zeroMem.used

def mqRequest : CtrlRequest flatView smallBuffers threeBuffers where
  size := rfl
  readable := [0, 1]
  writable := [2]
  wellFormed :=
    { chained :=
        .link (by decide) (by decide) (by decide)
          (.link (by decide) (by decide) (by decide)
            (.last (by decide) (by decide) (by decide)))
      small := by decide
      readableFirst := by decide
      writableLast := by decide }
  distinct := by decide
  header := by decide
  answer := by decide

/-- The answer is written over the data, and not where it belongs. -/
theorem virtioNetCtrl_mqRequest :
    ((virtioNetCtrl flatView smallBuffers threeBuffers ⟨0, 0⟩
          (fun _ => virtioNetCtrlMq)).map CtrlOutcome.stores =
        some [⟨16, virtioNetOk⟩] ∧
      16 ∈ mqRequest.outPlaces ∧ mqRequest.inPlaces = [32]) ∧
    ¬ ∃ outcome,
        virtioNetCtrl flatView smallBuffers threeBuffers ⟨0, 0⟩
            (fun _ => virtioNetCtrlMq) =
          some outcome ∧
        Handled mqRequest (fun _ => virtioNetCtrlMq) outcome := by
  have stored :
      (virtioNetCtrl flatView smallBuffers threeBuffers ⟨0, 0⟩
          (fun _ => virtioNetCtrlMq)).map CtrlOutcome.stores =
        some [⟨16, virtioNetOk⟩] := by
    decide
  refine ⟨⟨stored, by decide, by decide⟩, ?_⟩
  rintro ⟨outcome, handled, right⟩
  rw [handled] at stored
  refine right.kept ⟨16, virtioNetOk⟩ ?_ (by decide)
  rw [Option.some.inj stored]
  exact List.mem_singleton_self _

end Kemu.Virtio.NetCtrl
