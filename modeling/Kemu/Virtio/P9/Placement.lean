import Kemu.Virtio.P9.ReadWrite

/-!
# Where the data of a file go

A reply to `Tread` has the file's bytes at offset 11, and `Twrite` has its
bytes at offset 23.  What the handlers do with the buffers is right as long
as the first one holds what is in front of the data and the data do not end
inside a later one; and a read that fails is answered like one that filled
the whole count.
-/

namespace Kemu.Virtio.P9.Placement

open Kemu.Lib.Bytes
open Kemu.Lib.Contract
open Kemu.Lib.SearchTree
open Kemu.Util.IovecCopy hiding Iovec.shorten places_cons
open Kemu.Virtio.P9.Fid
open Kemu.Virtio.P9.Path
open Kemu.Virtio.P9.Server hiding virtioP9Read virtioP9Write
  virtioP9ErrorReply
open Kemu.Virtio.P9.Pdu hiding P9Pdu virtioP9PduWrite
open Kemu.Virtio.P9.Walk hiding onServer readf writef seekRead seekWrite
  virtioP9SetReplyHeader virtioP9ErrorReply
open Kemu.Virtio.P9.ReadWrite
open Kemu.Virtio.P9.Atomicity (answering)

/-! ## Requests -/

/-- The bytes of the message. -/
def messageBytes (pdu : P9Pdu) : List UInt8 :=
  (places pdu.outIov.used).map pdu.memory

/-- A request to read or to write a file whose fid is there. -/
structure Transfer (lib : Rebalancer FidNode) (root : CString)
    (env : P9Env) (cmd : UInt8) (state : IoState) where
  size : UInt32
  tag : UInt16
  fid : UInt32
  offset : UInt64
  count : UInt32
  /-- What follows in the message; for a write, the data. -/
  rest : List UInt8
  message :
    messageBytes state.pdu =
      wire [.d size, .b cmd, .w tag] ++
        (wire [.d fid, .q offset, .d count] ++ rest)
  outFilled : Filled state.pdu.outIov
  inFilled : Filled state.pdu.inIov
  apart :
    (places state.pdu.outIov.used ++ places state.pdu.inIov.used).Nodup
  readOffset : state.pdu.readOffset = virtio9pHdrLen
  writeOffset : state.pdu.writeOffset = virtio9pHdrLen
  asked : state.server.asked = 0
  looked : state.server.looked = 0
  node : FidNode
  table : FidTable
  object : P9Fid
  found :
    findOrCreateFid lib root (env.calloc 0) state.server.table fid =
      (table, some node)
  there : table.heap node.obj = some object

/-- The bytes of the reply, in the buffers of the request. -/
def replyBytes (before after : IoState) : List UInt8 :=
  (places before.pdu.inIov.used).map after.pdu.memory

section Placed

variable {lib : Rebalancer FidNode} {root : CString} {env : P9Env}
  {state : IoState}

/-- The bytes that `preadv` has for the request. -/
def fileBytes (contents : Int → UInt64 → List UInt8)
    (request : Transfer lib root env p9Tread state) : List UInt8 :=
  transferred contents (env.host 0) request.object.fd request.offset
    (min request.count.toNat
      ((places state.pdu.inIov.used).length - readSkip.toNat))

/-- An array is handed on without a length that wraps around. -/
structure Handed (array : IovArray) (size : UInt64) (count : UInt32) :
    Prop where
  skipped :
    (array.skip size).first.iovLen.toNat + size.toNat =
      array.first.iovLen.toNat
  cut :
    List.Forall₂
      (fun cut entry : Iovec => cut.iovLen.toNat ≤ entry.iovLen.toNat)
      ((array.skip size).trim count).slots (array.skip size).slots

/-- What a read is to do. -/
structure ReadPlaced (contents : Int → UInt64 → List UInt8)
    (request : Transfer lib root env p9Tread state) (after : IoState) :
    Prop where
  handed : Handed state.pdu.inIov readSkip request.count
  restored : after.pdu.inIov = state.pdu.inIov
  data :
    0 ≤ (env.host 0).ret →
      ((replyBytes state after).drop 11).take
            (fileBytes contents request).length =
          fileBytes contents request ∧
        ((replyBytes state after).drop virtio9pHdrLen).take 4 =
          toLe 4 (fileBytes contents request).length
  error :
    (env.host 0).ret < 0 →
      (replyBytes state after).take 11 =
        wire
          [.d 11, .b p9Rlerror, .w request.tag,
            .d (.ofInt (Server.virtioP9ErrorReply (env.host 0).errno))]

/-- What a write is to do. -/
structure WritePlaced (request : Transfer lib root env p9Twrite state)
    (after : IoState) : Prop where
  handed : Handed state.pdu.outIov writeSkip request.count
  restored : after.pdu.outIov = state.pdu.outIov
  data :
    after.written =
      state.written ++
        [(request.object.fd, request.offset,
          ((messageBytes state.pdu).drop writeSkip.toNat).take
            request.count.toNat)]

end Placed

/-! ## Steps -/

section Steps

variable {Value Result : Type} {state : IoState}

theorem onServer_ok {action : P9M Value} {value : Value}
    {server : P9State} (ok : action state.server = .ok value server) :
    onServer action state = .ok value { state with server := server } := by
  rw [onServer, ok]

/-- Bytes that are there are read. -/
theorem readf_ok {decode : DecodeM Value} {bytes rest : List UInt8}
    {value : Value} (parses : Parses decode bytes value)
    (starts :
      (messageBytes state.pdu).drop state.pdu.readOffset = bytes ++ rest) :
    readf decode state =
      .ok value
        { state with
          pdu :=
            { state.pdu with
              readOffset := state.pdu.readOffset + bytes.length } } := by
  have remaining : state.pdu.view.remaining = bytes ++ rest := by
    rw [P9Pdu.remaining, P9Pdu.view, flatten_bytes]
    exact starts
  have read := parses ⟨state.pdu.view, 0, false⟩ rest rfl remaining
  rw [readf, read]
  rfl

theorem parses_transfer (fid : UInt32) (offset : UInt64)
    (count : UInt32) :
    Parses decodeTransfer (wire [.d fid, .q offset, .d count])
      (fid, offset, count) := by
  simp only [wire_cons, wire_nil, List.append_nil]
  refine (parses_d fid).bind ?_
  refine (parses_q offset).bind ?_
  have last :=
    (parses_d count).map fun count =>
      (UInt32.ofNat fid.toNat, UInt64.ofNat offset.toNat,
        UInt32.ofNat count)
  simp only [UInt32.ofNat_toNat, UInt64.ofNat_toNat] at last ⊢
  exact last

theorem parses_cmdTag (cmd : UInt8) (tag : UInt16) :
    Parses decodeCmdTag (wire [.b cmd, .w tag]) (cmd, tag) := by
  simp only [wire_cons, wire_nil, List.append_nil]
  refine (parses_b cmd).bind ?_
  have last :=
    (parses_w tag).map fun tag =>
      (UInt8.ofNat cmd.toNat, UInt16.ofNat tag)
  simp only [UInt8.ofNat_toNat, UInt16.ofNat_toNat] at last ⊢
  exact last

/-- The header of the reply is made from that of the message. -/
theorem virtioP9SetReplyHeader_ok {size : UInt32} {cmd : UInt8}
    {tag : UInt16} {rest : List UInt8}
    (message :
      messageBytes state.pdu = wire [.d size, .b cmd, .w tag] ++ rest)
    (outlen : UInt32) :
    virtioP9SetReplyHeader outlen state =
      .ok ⟨⟩
        { state with
          pdu :=
            virtioP9PduWritef
              { state.pdu with readOffset := 7, writeOffset := 0 }
              [.d outlen, .b (cmd + 1), .w tag] } := by
  have starts :
      (messageBytes state.pdu).drop 4 = wire [.b cmd, .w tag] ++ rest := by
    rw [message, wire_cons, List.append_assoc]
    exact List.drop_left' (toLe_length 4 _)
  have header :
      readf decodeCmdTag
          { state with pdu := { state.pdu with readOffset := 4 } } = _ :=
    readf_ok (parses_cmdTag cmd tag) starts
  rw [virtioP9SetReplyHeader, seekRead, onPdu_bind, bind_of_ok header]
  rfl

/-- Bytes that are written elsewhere. -/
theorem map_storeAll_apart {kept target : List Nat}
    (apart : ∀ place ∈ kept, place ∉ target) (memory : Nat → UInt8)
    (data : List UInt8) :
    kept.map (storeAll memory (List.zipWith Store.mk target data)) =
      kept.map memory := by
  refine List.map_congr_left fun place member => ?_
  refine storeAll_of_not_mem fun store stored same => ?_
  exact apart place member (same ▸ place_mem_of_zipWith stored)

/-- What fits into the first buffer does not depend on the others. -/
theorem zipWith_first {entry : Iovec} {offset : Nat} {data : List UInt8}
    (room : offset + data.length ≤ entry.iovLen.toNat)
    (rest other : List Iovec) :
    List.zipWith Store.mk ((places (entry :: rest)).drop offset) data =
      List.zipWith Store.mk ((places (entry :: other)).drop offset)
        data := by
  have inside (rest : List Iovec) :
      ((places (entry :: rest)).drop offset).take data.length =
        (((List.range entry.iovLen.toNat).map
          (entry.iovBase + ·)).drop offset).take data.length := by
    rw [places_cons, List.drop_append_of_le_length,
      List.take_append_of_le_length]
    · rw [List.length_drop, List.length_map, List.length_range]
      omega
    · rw [List.length_map, List.length_range]
      omega
  rw [← zipWith_take_length, inside, ← inside other, zipWith_take_length]

end Steps

/-! ## Reading -/

section Read

variable {lib : Rebalancer FidNode} {root : CString} {env : P9Env}
  {state : IoState} {cmd : UInt8}

/-- The state once the message is read and its fid looked up. -/
def Transfer.opened (request : Transfer lib root env cmd state) :
    IoState :=
  { state with
    server := { state.server with table := request.table, looked := 1 }
    pdu := { state.pdu with readOffset := 23 } }

/-- Both handlers begin with the message and its fid. -/
theorem Transfer.opens (request : Transfer lib root env cmd state) :
    readf decodeTransfer state =
        .ok (request.fid, request.offset, request.count)
          { state with pdu := { state.pdu with readOffset := 23 } } ∧
      onServer (getFid lib root env request.fid)
          { state with pdu := { state.pdu with readOffset := 23 } } =
        .ok request.node request.opened := by
  constructor
  · have starts :
        (messageBytes state.pdu).drop state.pdu.readOffset =
          wire [.d request.fid, .q request.offset, .d request.count] ++
            request.rest := by
      rw [request.message, request.readOffset]
      exact List.drop_left' (by simp [wire, Field.wire, virtio9pHdrLen])
    rw [readf_ok (parses_transfer _ _ _) starts, request.readOffset]
    simp [wire, Field.wire, virtio9pHdrLen]
  · refine onServer_ok ?_
    rw [getFid]
    dsimp only
    rw [request.looked, request.found]

theorem Transfer.derefs (request : Transfer lib root env cmd state)
    (pdu : P9Pdu) :
    onServer (deref request.node) { request.opened with pdu := pdu } =
      .ok request.object { request.opened with pdu := pdu } := by
  refine onServer_ok ?_
  have present :
      request.opened.server.table.heap request.node.obj =
        some request.object :=
    request.there
  rw [deref, present]

/-- The server after the one host call of a handler. -/
def Transfer.called (request : Transfer lib root env cmd state)
    (op : HostOp) : P9State :=
  { request.opened.server with
    calls := state.server.calls ++ [⟨op, []⟩]
    asked := 1 }

theorem Transfer.calls (request : Transfer lib root env cmd state)
    (op : HostOp) (pdu : P9Pdu) :
    onServer (hostCall env op []) { request.opened with pdu := pdu } =
      .ok (env.host 0)
        { request.opened with server := request.called op, pdu := pdu } := by
  refine onServer_ok ?_
  show
    EStateM.Result.ok (env.host state.server.asked)
        { request.opened.server with
          calls := state.server.calls ++ [HostCall.mk op []]
          asked := state.server.asked + 1 } =
      _
  rw [request.asked]
  rfl

variable (contents : Int → UInt64 → List UInt8)

/-- What `preadv` puts into some places. -/
def scattered (env : P9Env) (contents : Int → UInt64 → List UInt8)
    (fd : Int) (offset : UInt64) (size : Nat) : List UInt8 :=
  if (env.host 0).ret < 0 then
    []
  else
    transferred contents (env.host 0) fd offset size

/-- The result of `preadv`. -/
def preadvResult (env : P9Env) (data : List UInt8) : Int :=
  if (env.host 0).ret < 0 then -1 else data.length

theorem Transfer.preads (request : Transfer lib root env cmd state)
    (pdu : P9Pdu) (fd : Int) (offset : UInt64) :
    preadv env contents fd offset { request.opened with pdu := pdu } =
      .ok
        (preadvResult env
          (scattered env contents fd offset
            (places pdu.inIov.used).length))
        { request.opened with
          server := request.called .preadv
          pdu :=
            { pdu with
              memory :=
                storeAll pdu.memory
                  (List.zipWith Store.mk (places pdu.inIov.used)
                    (scattered env contents fd offset
                      (places pdu.inIov.used).length)) } } := by
  rw [preadv, bind_of_ok (request.calls .preadv pdu), preadvResult,
    scattered]
  by_cases failed : (env.host 0).ret < 0
  · rw [if_pos failed, if_pos failed, if_pos failed, List.zipWith_nil_right]
    rfl
  · rw [if_neg failed, if_neg failed, if_neg failed]
    rfl

/-- The number of bytes in a reply: the whole count for a failed read. -/
def replyCount (env : P9Env) (count : UInt32) (data : List UInt8) :
    UInt32 :=
  if (env.host 0).ret < 0 then count else .ofNat data.length

theorem ofInt_natCast (number : Nat) :
    UInt32.ofInt number = UInt32.ofNat number := by
  apply UInt32.toNat_inj.mp
  rw [UInt32.ofInt, UInt32.toNat_ofNat', UInt32.toNat_ofNat']
  omega

theorem replyCount_eq {count : UInt32} {data : List UInt8}
    (fits : data.length ≤ count.toNat) :
    (if UInt32.ofInt (preadvResult env data) > count then count
      else UInt32.ofInt (preadvResult env data)) =
      replyCount env count data := by
  have bound := count.toNat_lt
  rw [preadvResult, replyCount]
  split
  case isTrue failed =>
    have large : UInt32.ofInt (-1) = 4294967295 := rfl
    rw [large]
    split
    · rfl
    case isFalse most =>
      rw [gt_iff_lt, UInt32.lt_iff_toNat_lt] at most
      apply UInt32.toNat_inj.mp
      have top : (4294967295 : UInt32).toNat = 4294967295 := rfl
      omega
  case isFalse read =>
    rw [ofInt_natCast, if_neg]
    rw [gt_iff_lt, UInt32.lt_iff_toNat_lt, UInt32.toNat_ofNat',
      Nat.mod_eq_of_lt (by omega)]
    omega

/-- Bytes go to the first of some places. -/
theorem zipWith_take_of_le {data : List UInt8} {count : Nat}
    (fits : data.length ≤ count) (target : List Nat) :
    List.zipWith Store.mk (target.take count) data =
      List.zipWith Store.mk target data := by
  rw [← zipWith_take_length, List.take_take, Nat.min_eq_left fits,
    zipWith_take_length]

theorem putBack_used {array before : IovArray} {more : Nat}
    (cnt : before.cnt.toNat = more + 1) :
    ∃ other, (array.putBack before).used = before.first :: other := by
  refine ⟨array.slots.tail.take more, ?_⟩
  show (array.slots.set 0 before.first).take before.cnt.toNat = _
  rw [cnt, array.slots_eq]
  rfl

/-- The buffers that `preadv` is given. -/
def handedIn (state : IoState) (count : UInt32) : IovArray :=
  (state.pdu.inIov.skip readSkip).trim count

variable (request : Transfer lib root env p9Tread state)

/-- The bytes that a read puts into the reply. -/
def Transfer.readData : List UInt8 :=
  scattered env contents request.object.fd request.offset
    (places (handedIn state request.count).used).length

theorem Transfer.readData_length
    (room : readSkip.toNat ≤ state.pdu.inIov.first.iovLen.toNat) :
    (request.readData contents).length ≤ request.count.toNat := by
  have size :
      (places (handedIn state request.count).used).length ≤
        request.count.toNat := by
    rw [handedIn, trim_places _ request.inFilled room (by decide),
      List.length_take]
    exact Nat.min_le_left ..
  rw [Transfer.readData, scattered]
  split
  · exact Nat.zero_le _
  · rw [transferred, List.length_take]
    omega

/-- The state when the buffers are put back after `preadv`. -/
def Transfer.filled : IoState :=
  { request.opened with
    server := request.called .preadv
    pdu :=
      { request.opened.pdu with
        memory :=
          storeAll state.pdu.memory
            (List.zipWith Store.mk
              (places (handedIn state request.count).used)
              (request.readData contents))
        inIov :=
          (handedIn state request.count).putBack state.pdu.inIov } }

theorem virtioP9Read_eq
    (room : readSkip.toNat ≤ state.pdu.inIov.first.iovLen.toNat) :
    virtioP9Read lib root env contents state =
      finishRead
        (replyCount env request.count (request.readData contents))
        (request.filled contents) := by
  have opened := request.opens
  rw [virtioP9Read, bind_of_ok opened.1]
  dsimp only
  rw [bind_of_ok opened.2, ofPdu_bind, onPdu_bind, onPdu_bind,
    bind_of_ok (request.derefs _),
    bind_of_ok (request.preads contents _ _ _), onPdu_bind]
  exact congrArg (fun rcount => finishRead rcount (request.filled contents))
    (replyCount_eq (request.readData_length contents room))

/-- The first eleven bytes of the reply. -/
def replyHead (request : Transfer lib root env p9Tread state)
    (rcount : UInt32) : List UInt8 :=
  wire [.d (11 + rcount), .b (p9Tread + 1), .w request.tag]

theorem replyHead_length (rcount : UInt32) :
    (replyHead request rcount).length = 7 := by
  simp [replyHead, wire, Field.wire]

/-- The count and the header go in front of the data. -/
theorem finishRead_ok {now : IoState} {rest : List UInt8}
    {entry : Iovec} {other : List Iovec}
    (message :
      messageBytes now.pdu =
        wire [.d request.size, .b p9Tread, .w request.tag] ++ rest)
    (apart : ∀ place ∈ places now.pdu.outIov.used, place ∉ places [entry])
    (used : now.pdu.inIov.used = entry :: other)
    (room : 11 ≤ entry.iovLen.toNat) (rcount : UInt32) :
    ∃ after,
      finishRead rcount now = .ok (11 + rcount) after ∧
        after.pdu.inIov = now.pdu.inIov ∧
        after.pdu.memory =
          storeAll
            (storeAll now.pdu.memory
              (List.zipWith Store.mk
                ((places now.pdu.inIov.used).drop virtio9pHdrLen)
                (toLe 4 rcount.toNat)))
            (List.zipWith Store.mk (places now.pdu.inIov.used)
              (replyHead request rcount)) := by
  have large : 11 ≤ (places now.pdu.inIov.used).length := by
    rw [used, places_cons, List.length_append, List.length_map,
      List.length_range]
    omega
  have four : (wire [.d rcount]).length = 4 := by
    simp [wire, Field.wire]
  have count : wire [.d rcount] = toLe 4 rcount.toNat := by
    rw [wire_cons, wire_nil, List.append_nil, Field.wire]
  let counted : IoState :=
    { now with
      pdu :=
        virtioP9PduWritef
          { now.pdu with writeOffset := virtio9pHdrLen } [.d rcount] }
  have written :
      counted.pdu =
        { now.pdu with
          memory :=
            storeAll now.pdu.memory
              (List.zipWith Store.mk
                ((places now.pdu.inIov.used).drop virtio9pHdrLen)
                (toLe 4 rcount.toNat))
          writeOffset := 11 } := by
    refine (virtioP9PduWritef_eq ..).trans ?_
    rw [four, count]
    dsimp only
    have header : virtio9pHdrLen = 7 := rfl
    rw [Nat.min_eq_left (by omega), header]
  have kept : messageBytes counted.pdu = messageBytes now.pdu := by
    have within :
        virtio9pHdrLen + (toLe 4 rcount.toNat).length ≤
          entry.iovLen.toNat := by
      rw [toLe_length]
      exact room
    rw [written, used, zipWith_first within other []]
    exact map_storeAll_apart
      (fun place member inside =>
        apart place member (List.mem_of_mem_drop inside)) _ _
  have outlen : UInt32.ofNat counted.pdu.writeOffset + rcount =
      11 + rcount := by
    rw [written]
    rfl
  have header := virtioP9SetReplyHeader_ok (kept.trans message) (11 + rcount)
  have ran :
      finishRead rcount now =
        (virtioP9SetReplyHeader
            (UInt32.ofNat counted.pdu.writeOffset + rcount) >>=
          fun _ => pure (UInt32.ofNat counted.pdu.writeOffset + rcount))
          counted :=
    rfl
  rw [outlen] at ran
  refine ⟨_, ran.trans (bind_of_ok header), ?_, ?_⟩
  · rw [virtioP9PduWritef_eq, written]
  · rw [virtioP9PduWritef_eq, written]
    rfl

/--
What a read does to the buffers and to the reply, when the first buffer
holds what is in front of the data.
-/
theorem virtioP9Read_runs
    (room : readSkip.toNat ≤ state.pdu.inIov.first.iovLen.toNat)
    {rcount : UInt32}
    (counted :
      replyCount env request.count (request.readData contents) = rcount) :
    ∃ after,
      virtioP9Read lib root env contents state = .ok (11 + rcount) after ∧
        after.pdu.inIov =
          (handedIn state request.count).putBack state.pdu.inIov ∧
        replyBytes state after =
          patch
            (patch
              (patch (replyBytes state state) 11
                (request.readData contents))
              7 (toLe 4 rcount.toNat))
            0 (replyHead request rcount) := by
  have eleven : readSkip.toNat = 11 := rfl
  obtain ⟨-, distinct, apart⟩ := List.nodup_append.mp request.apart
  obtain ⟨more, cnt⟩ := request.inFilled.cnt_succ (by omega)
  obtain ⟨other, restored⟩ :=
    @putBack_used (handedIn state request.count) _ _ cnt
  have whole := IovArray.used_eq cnt
  have fits := request.readData_length contents room
  -- the places of the three writes, among those of the whole reply
  have target :
      List.zipWith Store.mk (places (handedIn state request.count).used)
          (request.readData contents) =
        List.zipWith Store.mk ((places state.pdu.inIov.used).drop 11)
          (request.readData contents) := by
    rw [handedIn, trim_places _ request.inFilled room (by decide),
      zipWith_take_of_le fits, eleven]
  have front (offset : Nat) (data : List UInt8)
      (within : offset + data.length ≤ 11) :
      List.zipWith Store.mk
          ((places (request.filled contents).pdu.inIov.used).drop offset)
          data =
        List.zipWith Store.mk
          ((places state.pdu.inIov.used).drop offset) data := by
    show
      List.zipWith Store.mk
          ((places
            ((handedIn state request.count).putBack
              state.pdu.inIov).used).drop offset) data = _
    rw [restored, whole]
    exact zipWith_first (by omega) _ _
  have message :
      messageBytes (request.filled contents).pdu =
        messageBytes state.pdu := by
    show (places state.pdu.outIov.used).map (storeAll _ _) = _
    rw [target]
    exact map_storeAll_apart
      (fun place member inside =>
        apart place member place (List.mem_of_mem_drop inside) rfl) _ _
  obtain ⟨after, ran, same, memory⟩ :=
    finishRead_ok request (message.trans request.message)
      (fun place member inside => by
        refine apart place member place ?_ rfl
        rw [places_cons, places_nil, List.append_nil] at inside
        rw [whole, places_cons]
        exact List.mem_append_left _ inside)
      restored room rcount
  have seven : virtio9pHdrLen = 7 := rfl
  have head := replyHead_length request rcount
  refine ⟨after, ?_, same, ?_⟩
  · rw [virtioP9Read_eq contents request room, counted, ran]
  · have last :=
      front 0 (replyHead request rcount) (by omega)
    rw [List.drop_zero] at last
    rw [replyBytes, memory,
      front virtio9pHdrLen _ (by rw [toLe_length, seven]), last,
      map_storeAll_drop _ distinct, map_storeAll_drop _ distinct]
    show patch (patch ((places state.pdu.inIov.used).map
      (storeAll _ _)) _ _) _ _ = _
    rw [target, map_storeAll_drop _ distinct]
    rfl

end Read

/-! ## Writing -/

section Write

variable {lib : Rebalancer FidNode} {root : CString} {env : P9Env}
  {state : IoState}

/-- The buffers that `pwritev` is given. -/
def handedOut (state : IoState) (count : UInt32) : IovArray :=
  (state.pdu.outIov.skip writeSkip).trim count

/-- What a write does to the buffers, and what it writes. -/
theorem virtioP9Write_runs
    (request : Transfer lib root env p9Twrite state) :
    ∃ outlen after,
      virtioP9Write lib root env state = .ok outlen after ∧
        after.pdu.outIov =
          (handedOut state request.count).putBack state.pdu.outIov ∧
        after.written =
          state.written ++
            [(request.object.fd, request.offset,
              (places (handedOut state request.count).used).map
                state.pdu.memory)] := by
  have opened := request.opens
  rw [virtioP9Write, bind_of_ok opened.1]
  dsimp only
  rw [bind_of_ok opened.2, ofPdu_bind, onPdu_bind, onPdu_bind,
    bind_of_ok (request.derefs _)]
  have wrote :
      pwritev env request.object.fd request.offset
          { request.opened with
            pdu :=
              { request.opened.pdu with
                outIov := handedOut state request.count } } = _ :=
    bind_of_ok (request.calls .pwritev _)
  let data : List UInt8 :=
    (places (handedOut state request.count).used).map state.pdu.memory
  let written : IoState :=
    { request.opened with
      server := request.called .pwritev
      pdu :=
        { request.opened.pdu with
          outIov :=
            (handedOut state request.count).putBack state.pdu.outIov }
      written :=
        state.written ++ [(request.object.fd, request.offset, data)] }
  obtain ⟨outlen, after, ran, kept⟩ :=
    quiet_finishWrite
      { env.host 0 with ret := min (env.host 0).ret data.length } written
  exact
    ⟨outlen, after, (bind_of_ok wrote).trans ran, kept.outIov,
      kept.written⟩

end Write

/-! ## Placement -/

section Iff

variable {lib : Rebalancer FidNode} {root : CString} {env : P9Env}
  {stateRead stateWrite : IoState}

/-- The array is handed on as it should be if the first buffer is large. -/
theorem handed_iff {array : IovArray} {size : UInt64} (count : UInt32)
    (filled : Filled array) :
    Handed array size count ↔ size.toNat ≤ array.first.iovLen.toNat := by
  constructor
  · intro handed
    exact skip_toNat_iff.mp handed.skipped
  · intro room
    exact
      ⟨skip_toNat_iff.mpr room,
        virtioP9UpdateIovCnt_shrinks ((filled.skip room).take _)⟩

/-- A reply that is not an error has another type. -/
theorem replyHead_ne_error
    (request : Transfer lib root env p9Tread stateRead) (rcount : UInt32)
    (code : UInt32) :
    (wire [.d 11, .b p9Rlerror, .w request.tag, .d code]).take 7 ≠
      replyHead request rcount := by
  intro same
  have types := congrArg (fun bytes => bytes[4]?) same
  simp [wire, Field.wire, toLe, replyHead, p9Rlerror, p9Tread] at types

/-- The three pieces of a reply do not lie in each other's way. -/
theorem reply_parts {bytes data count head : List UInt8}
    (counted : count.length = 4) (headed : head.length = 7)
    (room : 11 + data.length ≤ bytes.length) :
    (patch (patch (patch bytes 11 data) 7 count) 0 head).take 7 = head ∧
      ((patch (patch (patch bytes 11 data) 7 count) 0 head).drop 7).take
          4 = count ∧
      ((patch (patch (patch bytes 11 data) 7 count) 0 head).drop 11).take
          data.length = data := by
  refine ⟨?_, ?_, ?_⟩
  · have first :=
      @patch_drop_take _ (patch (patch bytes 11 data) 7 count) head 0 7
        (by omega) (by simp only [patch_length]; omega)
    rw [List.drop_zero] at first
    exact first.trans (List.take_of_length_le (by omega))
  · rw [patch_drop (by omega),
      patch_drop_take (by omega) (by rw [patch_length]; omega)]
    exact List.take_of_length_le (by omega)
  · rw [patch_drop (by omega), patch_drop (by omega),
      patch_drop_take (Nat.le_refl _) room, List.take_length]

variable (contents : Int → UInt64 → List UInt8)

/-- The data of a read fit behind the count. -/
theorem readData_room (request : Transfer lib root env p9Tread stateRead)
    (room : readSkip.toNat ≤ stateRead.pdu.inIov.first.iovLen.toNat) :
    11 + (request.readData contents).length ≤
      (replyBytes stateRead stateRead).length := by
  obtain ⟨more, cnt⟩ :=
    request.inFilled.cnt_succ (Nat.ne_of_gt (Nat.lt_of_lt_of_le
      (by decide : 0 < readSkip.toNat) room))
  have eleven : readSkip.toNat = 11 := rfl
  have large : 11 ≤ (places stateRead.pdu.inIov.used).length := by
    rw [IovArray.used_eq cnt, places_cons, List.length_append,
      List.length_map, List.length_range]
    omega
  have size :
      (places (handedIn stateRead request.count).used).length ≤
        (places stateRead.pdu.inIov.used).length - 11 := by
    rw [handedIn, trim_places _ request.inFilled room (by decide),
      List.length_take, List.length_drop]
    exact Nat.min_le_right ..
  rw [replyBytes, List.length_map, Transfer.readData, scattered]
  split
  · rw [List.length_nil]
    exact large
  · rw [transferred, List.length_take]
    omega

/-- A read that does not fail puts the bytes of the file into the reply. -/
theorem readData_eq (request : Transfer lib root env p9Tread stateRead)
    (room : readSkip.toNat ≤ stateRead.pdu.inIov.first.iovLen.toNat)
    (success : 0 ≤ (env.host 0).ret) :
    request.readData contents = fileBytes contents request := by
  rw [Transfer.readData, scattered, if_neg (Int.not_lt.mpr success),
    handedIn, trim_places _ request.inFilled room (by decide),
    List.length_take, List.length_drop, fileBytes]

/-- A read does what it is to do in exactly these cases. -/
theorem virtioP9Read_placed_iff
    (request : Transfer lib root env p9Tread stateRead) :
    (∃ outlen after,
        virtioP9Read lib root env contents stateRead =
            .ok outlen after ∧
          ReadPlaced contents request after) ↔
      11 ≤ stateRead.pdu.inIov.first.iovLen.toNat ∧
        0 ≤ (env.host 0).ret ∧
        ¬ EndsInside stateRead.pdu.inIov.used
          (11 + request.count.toNat) := by
  have eleven : readSkip.toNat = 11 := rfl
  obtain ⟨rcount, counted⟩ :
      ∃ rcount,
        replyCount env request.count (request.readData contents) =
          rcount :=
    ⟨_, rfl⟩
  have parts
      (room : readSkip.toNat ≤ stateRead.pdu.inIov.first.iovLen.toNat) :=
    reply_parts (toLe_length 4 rcount.toNat)
      (replyHead_length request rcount)
      (readData_room contents request room)
  constructor
  · rintro ⟨outlen, after, ran, placed⟩
    have room := (handed_iff _ request.inFilled).mp placed.handed
    obtain ⟨now, same, array, reply⟩ :=
      virtioP9Read_runs contents request room counted
    rw [ran] at same
    cases same
    refine ⟨room, ?_, ?_⟩
    · by_contra failed
      have error := placed.error (Int.not_le.mp failed)
      have head := (parts room).1
      have errorHead := congrArg (List.take 7) error
      rw [← reply] at head
      rw [List.take_take] at errorHead
      exact
        replyHead_ne_error request rcount _ (errorHead.symm.trans head)
    · have restored := array.symm.trans placed.restored
      rw [← eleven]
      exact (putBack_eq_iff _ request.inFilled room (by decide)).mp restored
  · rintro ⟨room, success, whole⟩
    rw [← eleven] at room whole
    obtain ⟨after, ran, array, reply⟩ :=
      virtioP9Read_runs contents request room counted
    refine ⟨_, after, ran, (handed_iff _ request.inFilled).mpr room, ?_, ?_,
      fun failed => absurd success (Int.not_le.mpr failed)⟩
    · rw [array]
      exact
        (putBack_eq_iff _ request.inFilled room (by decide)).mpr whole
    · intro _
      obtain ⟨-, number, data⟩ := parts room
      have bytes := readData_eq contents request room success
      have fits := request.readData_length contents room
      have bound := request.count.toNat_lt
      rw [← reply] at number data
      rw [← bytes]
      refine ⟨data, number.trans ?_⟩
      rw [← counted, replyCount, if_neg (Int.not_lt.mpr success),
        UInt32.toNat_ofNat', Nat.mod_eq_of_lt (by omega)]

/-- A write does what it is to do in exactly these cases. -/
theorem virtioP9Write_placed_iff
    (request : Transfer lib root env p9Twrite stateWrite) :
    (∃ outlen after,
        virtioP9Write lib root env stateWrite = .ok outlen after ∧
          WritePlaced request after) ↔
      23 ≤ stateWrite.pdu.outIov.first.iovLen.toNat ∧
        ¬ EndsInside stateWrite.pdu.outIov.used
          (23 + request.count.toNat) := by
  have size : writeSkip.toNat = 23 := rfl
  obtain ⟨outlen, after, ran, array, written⟩ := virtioP9Write_runs request
  constructor
  · rintro ⟨_, now, same, placed⟩
    rw [ran] at same
    cases same
    have room := (handed_iff _ request.outFilled).mp placed.handed
    refine ⟨room, ?_⟩
    rw [← size]
    exact
      (putBack_eq_iff _ request.outFilled room (by decide)).mp
        (array.symm.trans placed.restored)
  · rintro ⟨room, whole⟩
    rw [← size] at room whole
    refine ⟨outlen, after, ran, (handed_iff _ request.outFilled).mpr room,
      ?_, ?_⟩
    · rw [array]
      exact
        (putBack_eq_iff _ request.outFilled room (by decide)).mpr whole
    · rw [written, handedOut,
        trim_places _ request.outFilled room (by decide), List.map_take,
        List.map_drop]
      rfl

/--
Reads and writes place their data as they should if and only if the first
buffer holds all that is in front of the data, the data do not end inside a
later buffer, and, for a read, `preadv` does not fail.
-/
theorem virtioP9Read_virtioP9Write_placed_iff
    (reading : Transfer lib root env p9Tread stateRead)
    (writing : Transfer lib root env p9Twrite stateWrite) :
    ((∃ outlen after,
          virtioP9Read lib root env contents stateRead =
              .ok outlen after ∧
            ReadPlaced contents reading after) ↔
        11 ≤ stateRead.pdu.inIov.first.iovLen.toNat ∧
          0 ≤ (env.host 0).ret ∧
          ¬ EndsInside stateRead.pdu.inIov.used
            (11 + reading.count.toNat)) ∧
      ((∃ outlen after,
          virtioP9Write lib root env stateWrite = .ok outlen after ∧
            WritePlaced writing after) ↔
        23 ≤ stateWrite.pdu.outIov.first.iovLen.toNat ∧
          ¬ EndsInside stateWrite.pdu.outIov.used
            (23 + writing.count.toNat)) :=
  ⟨virtioP9Read_placed_iff contents reading,
    virtioP9Write_placed_iff writing⟩

end Iff

/-- An array with some buffers in its first entries. -/
def arrayOf (buffers : List Iovec) (few : buffers.length ≤ virtqueueNum) :
    IovArray where
  slots :=
    buffers ++ List.replicate (virtqueueNum - buffers.length) ⟨0, 0⟩
  cnt := .ofNat buffers.length
  size := by
    rw [List.length_append, List.length_replicate]
    omega
  within := by
    rw [UInt16.toNat_ofNat']
    exact Nat.le_trans (Nat.mod_le ..) few

theorem arrayOf_filled {buffers : List Iovec}
    (few : buffers.length ≤ virtqueueNum) (small : Small buffers) :
    Filled (arrayOf buffers few) := by
  have cnt : (arrayOf buffers few).cnt.toNat = buffers.length := by
    have bound : virtqueueNum = 128 := rfl
    show (UInt16.ofNat buffers.length).toNat = _
    rw [UInt16.toNat_ofNat', Nat.mod_eq_of_lt (by omega)]
  constructor
  · intro entry member
    rcases List.mem_append.mp member with used | blank
    · exact small entry used
    · rw [(List.mem_replicate.mp blank).2]
      decide
  · intro entry member
    rw [cnt, arrayOf, List.drop_left] at member
    exact (List.mem_replicate.mp member).2

/-- One buffer. -/
def oneBuffer (base : Nat) (size : UInt64) : IovArray :=
  arrayOf [⟨base, size⟩] (Nat.le_add_left 1 127)

theorem oneBuffer_filled {base : Nat} {size : UInt64}
    (small : size.toNat < 2 ^ 32) : Filled (oneBuffer base size) := by
  refine arrayOf_filled _ fun entry member => ?_
  rw [List.mem_singleton.mp member]
  exact small

/-- The message of a request for four bytes of fid 0, up to its data. -/
def fourBytes (cmd : UInt8) : List UInt8 :=
  [23, 0, 0, 0, cmd, 1, 0] ++ [0, 0, 0, 0] ++
    [0, 0, 0, 0, 0, 0, 0, 0] ++ [4, 0, 0, 0]

/-- A message at 1000, and a reply in some buffers. -/
def fourState (cmd : UInt8) (data : List UInt8) (inIov : IovArray) :
    IoState where
  server := p9Start
  pdu :=
    { memory := poke (fun _ => 0xff) 1000 (fourBytes cmd ++ data)
      outIov := oneBuffer 1000 (.ofNat (23 + data.length))
      inIov := inIov
      readOffset := virtio9pHdrLen
      writeOffset := virtio9pHdrLen
      stack := fun _ => 0 }
  written := []

def fourTransfer (env : P9Env) (allocated : env.calloc 0 = true)
    {cmd : UInt8} {data : List UInt8} {inIov : IovArray}
    (message :
      messageBytes (fourState cmd data inIov).pdu = fourBytes cmd ++ data)
    (short : data.length < 1000) (inFilled : Filled inIov)
    (apart :
      (places (fourState cmd data inIov).pdu.outIov.used ++
        places inIov.used).Nodup) :
    Transfer (.plain _) [47] env cmd (fourState cmd data inIov) where
  size := 23
  tag := 1
  fid := 0
  offset := 0
  count := 4
  rest := data
  message := message
  outFilled := by
    refine oneBuffer_filled ?_
    rw [UInt64.toNat_ofNat']
    omega
  inFilled := inFilled
  apart := apart
  readOffset := rfl
  writeOffset := rfl
  asked := rfl
  looked := rfl
  node := ⟨0, 0⟩
  table := (findOrCreateFid (.plain _) [47] true .empty 0).1
  object := Fid.newFid [47] 0
  found := by
    rw [allocated]
    rfl
  there := rfl

/-- A reply at 2000 with room for four bytes. -/
def roomForFour : IovArray :=
  oneBuffer 2000 15

def readFour (env : P9Env) (allocated : env.calloc 0 = true) :
    Transfer (.plain _) [47] env p9Tread
      (fourState p9Tread [] roomForFour) :=
  fourTransfer env allocated (by decide +kernel) (by decide)
    (oneBuffer_filled (by decide)) (by decide +kernel)

def writeFour (env : P9Env) (allocated : env.calloc 0 = true) :
    Transfer (.plain _) [47] env p9Twrite
      (fourState p9Twrite [1, 2, 3, 4] roomForFour) :=
  fourTransfer env allocated (by decide +kernel) (by decide)
    (oneBuffer_filled (by decide)) (by decide +kernel)

/-- A file of five bytes. -/
def fiveBytes : Int → UInt64 → List UInt8 :=
  fun _ _ => [5, 6, 7, 8, 9]

/-- All the bytes of some buffers end inside none of them. -/
theorem not_endsInside_whole (iov : List Iovec) :
    ¬ EndsInside iov (iovSize iov iov.length) := by
  rintro ⟨index, -, before, behind⟩
  by_cases inside : index < iov.length
  · have least :=
      Util.IoVector.iovSize_le_of_le (iov.map Iovec.plain)
        (Nat.succ_le_of_lt inside)
    exact absurd behind (Nat.not_lt.2 least)
  · rw [iovSize, iovSize, Util.IoVector.iovSize, Util.IoVector.iovSize,
      List.take_of_length_le (by simp; omega),
      List.take_of_length_le (by simp)] at before
    exact Nat.lt_irrefl _ before

/-- A reply with room for two of the bytes behind its first buffer. -/
def splitReply : IovArray :=
  arrayOf [⟨2000, 13⟩, ⟨2100, 2⟩] (by decide)

def readSplit (env : P9Env) (allocated : env.calloc 0 = true) :
    Transfer (.plain _) [47] env p9Tread
      (fourState p9Tread [] splitReply) :=
  fourTransfer env allocated (by decide +kernel) (by decide)
    (arrayOf_filled (by decide) (by unfold ReadWrite.Small; decide))
    (by decide +kernel)

/-- Four bytes are read into two buffers, and four are written. -/
theorem virtioP9Read_virtioP9Write_placed_four :
    (∃ outlen after,
        virtioP9Read (.plain _) [47] (answering 4 0) fiveBytes
            (fourState p9Tread [] splitReply) = .ok outlen after ∧
          ReadPlaced fiveBytes (readSplit (answering 4 0) rfl) after) ∧
      ∃ outlen after,
        virtioP9Write (.plain _) [47] (answering 4 0)
            (fourState p9Twrite [1, 2, 3, 4] roomForFour) =
              .ok outlen after ∧
          WritePlaced (writeFour (answering 4 0) rfl) after := by
  obtain ⟨reads, writes⟩ :=
    virtioP9Read_virtioP9Write_placed_iff fiveBytes
      (readSplit (answering 4 0) rfl) (writeFour (answering 4 0) rfl)
  exact
    ⟨reads.mpr ⟨by decide, by decide, not_endsInside_whole _⟩,
      writes.mpr ⟨by decide, not_endsInside_whole _⟩⟩

/-- The reply of a handler, and its buffers afterwards. -/
def outcome (before : IoState) :
    EStateM.Result Stop IoState UInt32 → Option (List UInt8 × List Iovec)
  | .ok _ after =>
      some (replyBytes before after, after.pdu.inIov.used)
  | .error _ _ => none

/-- A reply of 21 bytes in two buffers. -/
def twoBuffers : IovArray :=
  arrayOf [⟨2000, 13⟩, ⟨2100, 8⟩] (by decide)

/--
A read that fails with `EBADF` is answered with four bytes of whatever was
in the buffers, and one whose data end in a second buffer leaves that one
shorter.
-/
theorem virtioP9Read_misplaces :
    outcome (fourState p9Tread [] roomForFour)
          (virtioP9Read (.plain _) [47] (answering (-1) 9) fiveBytes
            (fourState p9Tread [] roomForFour)) =
        some
          ([15, 0, 0, 0, 117, 1, 0] ++ [4, 0, 0, 0] ++
            [0xff, 0xff, 0xff, 0xff], [⟨2000, 15⟩]) ∧
      outcome (fourState p9Tread [] twoBuffers)
          (virtioP9Read (.plain _) [47] (answering 4 0) fiveBytes
            (fourState p9Tread [] twoBuffers)) =
        some
          ([15, 0, 0, 0, 117, 1, 0] ++ [4, 0, 0, 0] ++ [5, 6, 7, 8] ++
            List.replicate 6 0xff, [⟨2000, 13⟩, ⟨2100, 2⟩]) ∧
      ¬ ∃ outlen after,
        virtioP9Read (.plain _) [47] (answering (-1) 9) fiveBytes
            (fourState p9Tread [] roomForFour) = .ok outlen after ∧
          ReadPlaced fiveBytes (readFour (answering (-1) 9) rfl)
            after := by
  have failed :
      outcome (fourState p9Tread [] roomForFour)
          (virtioP9Read (.plain _) [47] (answering (-1) 9) fiveBytes
            (fourState p9Tread [] roomForFour)) =
        some
          ([15, 0, 0, 0, 117, 1, 0] ++ [4, 0, 0, 0] ++
            [0xff, 0xff, 0xff, 0xff], [⟨2000, 15⟩]) := by
    decide +kernel
  refine ⟨failed, by decide +kernel, ?_⟩
  rintro ⟨outlen, after, ran, placed⟩
  rw [ran] at failed
  have reply := (Prod.mk.inj (Option.some.inj failed)).1
  have error := placed.error (by decide)
  rw [reply] at error
  exact absurd error (by decide)

end Kemu.Virtio.P9.Placement
