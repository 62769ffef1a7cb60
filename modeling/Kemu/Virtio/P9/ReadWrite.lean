import Kemu.Util.IovecCopy
import Kemu.Virtio.P9.Walk

/-!
# Reading and writing files

`virtio_p9_read` and `virtio_p9_write` hand the buffers of the request to
`preadv` and `pwritev`.  For that the first buffer is moved behind the
header in place, the list is cut down to the count, and the first buffer and
the number of buffers are put back.

Here the buffers have addresses and lengths, as in the code: moving a buffer
that is too short makes its length wrap around.
-/

namespace Kemu.Virtio.P9.ReadWrite

open Kemu.Lib.Bytes
open Kemu.Lib.Contract
open Kemu.Lib.SearchTree
open Kemu.Util.IovecCopy hiding Iovec.shorten
open Kemu.Virtio.P9.Fid
open Kemu.Virtio.P9.Path
open Kemu.Virtio.P9.Server hiding virtioP9Read virtioP9Write
  virtioP9ErrorReply
open Kemu.Virtio.P9.Pdu hiding P9Pdu virtioP9PduWrite
open Kemu.Virtio.P9.Walk hiding onServer readf writef
  virtioP9SetReplyHeader virtioP9ErrorReply

/-! ## Buffers -/

/-- `VIRTQUEUE_NUM`. -/
def virtqueueNum : Nat := 128

/-- `struct iovec`. -/
structure Iovec where
  iovBase : Nat
  iovLen : UInt64
deriving DecidableEq, Repr

/-- A buffer with a length that is just a number. -/
def Iovec.plain (entry : Iovec) : Util.IoVector.Iovec :=
  ⟨entry.iovBase, entry.iovLen.toNat⟩

/-- The places of some buffers, one after the other. -/
def places (iov : List Iovec) : List Nat :=
  Util.IoVector.places (iov.map Iovec.plain)

/-- `iov_size`. -/
def iovSize (iov : List Iovec) (count : Nat) : Nat :=
  Util.IoVector.iovSize (iov.map Iovec.plain) count

/-- One of the two arrays of a `struct p9_pdu` and its counter. -/
structure IovArray where
  slots : List Iovec
  cnt : UInt16
  size : slots.length = virtqueueNum
  within : cnt.toNat ≤ virtqueueNum

/-- The buffers of a request. -/
def IovArray.used (array : IovArray) : List Iovec :=
  array.slots.take array.cnt.toNat

/-- `iov[0]`. -/
def IovArray.first (array : IovArray) : Iovec :=
  array.slots.headD ⟨0, 0⟩

/-- Writing `iov[0]`. -/
def IovArray.setFirst (array : IovArray) (entry : Iovec) : IovArray where
  slots := array.slots.set 0 entry
  cnt := array.cnt
  size := by rw [List.length_set, array.size]
  within := array.within

/-- Moving `iov[0]` behind what is in front of the data. -/
def IovArray.skip (array : IovArray) (size : UInt64) : IovArray :=
  array.setFirst
    ⟨array.first.iovBase + size.toNat, array.first.iovLen - size⟩

/-- Putting `iov[0]` and the counter back as they were. -/
def IovArray.putBack (array before : IovArray) : IovArray where
  slots := array.slots.set 0 before.first
  cnt := before.cnt
  size := by rw [List.length_set, array.size]
  within := before.within

/-- `virtio_p9_update_iov_cnt`: the entries, and how many are needed. -/
def virtioP9UpdateIovCnt (count : UInt32) :
    List Iovec → Nat → UInt32 → List Iovec × Nat
  | entry :: rest, iovCnt + 1, total =>
      if total < count then
        let reach := total.toUInt64 + entry.iovLen
        if reach > count.toUInt64 then
          ({ entry with
              iovLen := entry.iovLen - (reach - count.toUInt64) } :: rest, 1)
        else
          let updated :=
            virtioP9UpdateIovCnt count rest iovCnt
              (total + entry.iovLen.toUInt32)
          (entry :: updated.1, updated.2 + 1)
      else
        (entry :: rest, 0)
  | iov, _, _ => (iov, 0)

theorem virtioP9UpdateIovCnt_length (count : UInt32) (iov : List Iovec)
    (iovCnt : Nat) (total : UInt32) :
    (virtioP9UpdateIovCnt count iov iovCnt total).1.length =
      iov.length := by
  induction iov generalizing iovCnt total with
  | nil => rfl
  | cons entry rest induction =>
      cases iovCnt with
      | zero => rfl
      | succ iovCnt =>
          rw [virtioP9UpdateIovCnt]
          split
          · dsimp only
            split
            · rfl
            · rw [List.length_cons, List.length_cons, induction]
          · rfl

theorem virtioP9UpdateIovCnt_le (count : UInt32) (iov : List Iovec)
    (iovCnt : Nat) (total : UInt32) :
    (virtioP9UpdateIovCnt count iov iovCnt total).2 ≤ iovCnt := by
  induction iov generalizing iovCnt total with
  | nil => exact Nat.zero_le iovCnt
  | cons entry rest induction =>
      cases iovCnt with
      | zero => exact Nat.le_refl 0
      | succ iovCnt =>
          rw [virtioP9UpdateIovCnt]
          split
          · dsimp only
            split
            · exact Nat.le_add_left ..
            · exact Nat.succ_le_succ (induction _ _)
          · exact Nat.zero_le _

/-- An array that is cut down to a count. -/
def IovArray.trim (array : IovArray) (count : UInt32) : IovArray where
  slots :=
    (virtioP9UpdateIovCnt count array.slots array.cnt.toNat 0).1
  cnt :=
    .ofNat (virtioP9UpdateIovCnt count array.slots array.cnt.toNat 0).2
  size := by rw [virtioP9UpdateIovCnt_length, array.size]
  within := by
    rw [UInt16.toNat_ofNat']
    refine Nat.le_trans (Nat.mod_le ..) ?_
    exact Nat.le_trans (virtioP9UpdateIovCnt_le ..) array.within

/-! ## The code -/

/-- `P9_TREAD`. -/
def p9Tread : UInt8 := 116

/-- `P9_TWRITE`. -/
def p9Twrite : UInt8 := 118

/-- `VIRTIO_9P_HDR_LEN + sizeof(u32)`. -/
def readSkip : UInt64 := 11

/-- `sizeof(struct p9_msg) + twrite_size`. -/
def writeSkip : UInt64 := 23

/-- `struct p9_pdu` and the memory its buffers are in. -/
structure P9Pdu where
  memory : Nat → UInt8
  outIov : IovArray
  inIov : IovArray
  readOffset : Nat
  writeOffset : Nat
  stack : Nat → UInt8

/-- The bytes of a buffer. -/
def Iovec.bytes (memory : Nat → UInt8) (entry : Iovec) : List UInt8 :=
  peek memory entry.iovBase entry.iovLen.toNat

/-- The buffers with their bytes, without their addresses. -/
def P9Pdu.view (pdu : P9Pdu) : Pdu.P9Pdu where
  outIov := pdu.outIov.used.map (Iovec.bytes pdu.memory)
  inIov := pdu.inIov.used.map (Iovec.bytes pdu.memory)
  readOffset := pdu.readOffset
  writeOffset := pdu.writeOffset
  stack := pdu.stack

/-- The loop of `virtio_p9_pdu_write`: the bytes it stores. -/
def copyIn : List Iovec → Nat → List UInt8 → List Store
  | [], _, _ => []
  | entry :: rest, offset, data =>
      if data.isEmpty then
        []
      else if entry.iovLen.toNat ≤ offset then
        copyIn rest (offset - entry.iovLen.toNat) data
      else
        let len := min (entry.iovLen.toNat - offset) data.length
        storesAt (entry.iovBase + offset) (data.take len) ++
          copyIn rest 0 (data.drop len)

/-- `virtio_p9_pdu_write`. -/
def virtioP9PduWrite (pdu : P9Pdu) (data : List UInt8) : P9Pdu :=
  let stores := copyIn pdu.inIov.used pdu.writeOffset data
  { pdu with
    memory := storeAll pdu.memory stores
    writeOffset := pdu.writeOffset + stores.length }

/-- What one code of a format writes. -/
def fieldWrites : Field → List (List UInt8)
  | .s text =>
      [toLe 2 (stringLen text), (text.getD []).take (stringLen text)]
  | field => [field.wire]

/-- `virtio_p9_pdu_writef`. -/
def virtioP9PduWritef (pdu : P9Pdu) (fields : List Field) : P9Pdu :=
  (fields.flatMap fieldWrites).foldl virtioP9PduWrite pdu

/-- The server with a request, and what was given to `pwritev`. -/
structure IoState where
  server : P9State
  pdu : P9Pdu
  written : List (Int × UInt64 × List UInt8)

abbrev IoM := EStateM Stop IoState

section Code

variable {Value : Type}

/-- A part of the server's handler. -/
def onServer (action : P9M Value) : IoM Value :=
  fun state =>
    match action state.server with
    | .ok value server => .ok value { state with server := server }
    | .error stop server => .error stop { state with server := server }

/-- `virtio_p9_pdu_readf`; no format here has a string. -/
def readf (decode : DecodeM Value) : IoM Value :=
  fun state =>
    let read := decode ⟨state.pdu.view, 0, false⟩
    .ok read.1
      { state with
        pdu :=
          { state.pdu with
            readOffset := read.2.pdu.readOffset
            stack := read.2.pdu.stack } }

/-- A change of the request. -/
def onPdu (change : P9Pdu → P9Pdu) : IoM PUnit :=
  fun state => .ok ⟨⟩ { state with pdu := change state.pdu }

/-- Something of the request. -/
def ofPdu (value : P9Pdu → Value) : IoM Value :=
  fun state => .ok (value state.pdu) state

/-- `virtio_p9_pdu_writef` at the cursor. -/
def writef (fields : List Field) : IoM PUnit :=
  onPdu fun pdu => virtioP9PduWritef pdu fields

/-- Moving the cursors. -/
def seekWrite (writeOffset : Nat) : IoM PUnit :=
  onPdu fun pdu => { pdu with writeOffset := writeOffset }

def seekRead (readOffset : Nat) : IoM PUnit :=
  onPdu fun pdu => { pdu with readOffset := readOffset }

/-- `virtio_p9_set_reply_header`. -/
def virtioP9SetReplyHeader (size : UInt32) : IoM PUnit := do
  seekRead 4
  let (cmd, tag) ← readf decodeCmdTag
  seekWrite 0
  writef [.d size, .b (cmd + 1), .w tag]

/-- `virtio_p9_error_reply`. -/
def virtioP9ErrorReply (err : Int) : IoM UInt32 := do
  let err := Server.virtioP9ErrorReply err
  seekWrite virtio9pHdrLen
  writef [.d (.ofInt err)]
  let outlen ← ofPdu fun pdu => UInt32.ofNat pdu.writeOffset
  seekRead 5
  let tag ← readf decodeTag
  seekWrite 0
  writef [.d outlen, .b p9Rlerror, .w tag]
  pure outlen

/-- The format `"dqd"`: the fid, the offset and the count. -/
def decodeTransfer : DecodeM (UInt32 × UInt64 × UInt32) := do
  let fid ← decodeNumber 4
  let offset ← decodeNumber 8
  let count ← decodeNumber 4
  pure (.ofNat fid, .ofNat offset, .ofNat count)

variable (lib : Rebalancer FidNode) (root : CString) (env : P9Env)
  (contents : Int → UInt64 → List UInt8)

/-- The file's bytes that `preadv` transfers: some first ones. -/
def transferred (answer : HostAnswer) (fd : Int) (offset : UInt64)
    (size : Nat) : List UInt8 :=
  (contents fd offset).take (min answer.ret.toNat size)

/-- Bytes of the file go to the buffers of the reply, in order. -/
def scatter (answer : HostAnswer) (fd : Int) (offset : UInt64) :
    IoM Int :=
  fun state =>
    let target := places state.pdu.inIov.used
    let data := transferred contents answer fd offset target.length
    .ok data.length
      { state with
        pdu :=
          { state.pdu with
            memory :=
              storeAll state.pdu.memory
                (List.zipWith Store.mk target data) } }

/--
`preadv` into the reply; `contents` is what the host's files hold from an
offset on.
-/
def preadv (fd : Int) (offset : UInt64) : IoM Int := do
  let answer ← onServer (hostCall env .preadv [])
  if answer.ret < 0 then
    pure (-1)
  else
    scatter contents answer fd offset

/-- Bytes of the message go to the file. -/
def gather (answer : HostAnswer) (fd : Int) (offset : UInt64) :
    IoM HostAnswer :=
  fun state =>
    let data :=
      (places state.pdu.outIov.used).map state.pdu.memory
    .ok { answer with ret := min answer.ret data.length }
      { state with
        written := state.written ++ [(fd, offset, data)] }

/-- `pwritev` from the request, and what it leaves in `errno`. -/
def pwritev (fd : Int) (offset : UInt64) : IoM HostAnswer := do
  let answer ← onServer (hostCall env .pwritev [])
  gather answer fd offset

/-- The end of `virtio_p9_read`, when the buffers are put back. -/
def finishRead (rcount : UInt32) : IoM UInt32 := do
  seekWrite virtio9pHdrLen
  writef [.d rcount]
  let outlen ← ofPdu fun pdu => UInt32.ofNat pdu.writeOffset + rcount
  virtioP9SetReplyHeader outlen
  pure outlen

/-- `virtio_p9_read`; the value is `outlen`. -/
def virtioP9Read : IoM UInt32 := do
  let (fidVal, offset, count) ← readf decodeTransfer
  let pfid ← onServer (getFid lib root env fidVal)
  let before ← ofPdu P9Pdu.inIov
  onPdu fun pdu => { pdu with inIov := pdu.inIov.skip readSkip }
  onPdu fun pdu => { pdu with inIov := pdu.inIov.trim count }
  let fid ← onServer (deref pfid)
  let res ← preadv env contents fid.fd offset
  let rcount := UInt32.ofInt res
  let rcount := if rcount > count then count else rcount
  onPdu fun pdu => { pdu with inIov := pdu.inIov.putBack before }
  finishRead rcount

/-- The end of `virtio_p9_write`, when the buffers are put back. -/
def finishWrite (res : HostAnswer) : IoM UInt32 :=
  if res.ret < 0 then
    virtioP9ErrorReply res.errno
  else do
    writef [.d (.ofInt res.ret)]
    let outlen ← ofPdu fun pdu => UInt32.ofNat pdu.writeOffset
    virtioP9SetReplyHeader outlen
    pure outlen

/-- `virtio_p9_write`; the value is `outlen`. -/
def virtioP9Write : IoM UInt32 := do
  let (fidVal, offset, count) ← readf decodeTransfer
  let pfid ← onServer (getFid lib root env fidVal)
  let before ← ofPdu P9Pdu.outIov
  onPdu fun pdu => { pdu with outIov := pdu.outIov.skip writeSkip }
  onPdu fun pdu => { pdu with outIov := pdu.outIov.trim count }
  let fid ← onServer (deref pfid)
  let res ← pwritev env fid.fd offset
  onPdu fun pdu => { pdu with outIov := pdu.outIov.putBack before }
  finishWrite res

end Code

/-! ## Places -/

section Places

variable {memory : Nat → UInt8}

theorem places_cons (entry : Iovec) (rest : List Iovec) :
    places (entry :: rest) =
      (List.range entry.iovLen.toNat).map (entry.iovBase + ·) ++
        places rest :=
  rfl

theorem places_nil : places [] = [] :=
  rfl

theorem iovSize_zero (iov : List Iovec) : iovSize iov 0 = 0 :=
  Util.IoVector.iovSize_zero _

theorem iovSize_cons_succ (entry : Iovec) (rest : List Iovec)
    (count : Nat) :
    iovSize (entry :: rest) (count + 1) =
      entry.iovLen.toNat + iovSize rest count :=
  Util.IoVector.iovSize_cons_succ _ _ _

/-- The bytes of some buffers are those at their places. -/
theorem flatten_bytes (memory : Nat → UInt8) (iov : List Iovec) :
    (iov.map (Iovec.bytes memory)).flatten = (places iov).map memory := by
  induction iov with
  | nil => rfl
  | cons entry rest induction =>
      rw [List.map_cons, List.flatten_cons, induction, places_cons,
        List.map_append, List.map_map]
      rfl

/-- The bytes go to the places behind the cursor. -/
theorem copyIn_eq (iov : List Iovec) (offset : Nat) (data : List UInt8) :
    copyIn iov offset data =
      List.zipWith Store.mk ((places iov).drop offset) data := by
  induction iov generalizing offset data with
  | nil =>
      rw [places_nil, List.drop_nil]
      rfl
  | cons entry rest induction =>
      have length :
          ((List.range entry.iovLen.toNat).map
            (entry.iovBase + ·)).length = entry.iovLen.toNat := by
        simp
      rw [copyIn, places_cons, List.drop_append, length]
      split
      case isTrue empty =>
        rw [List.isEmpty_iff.mp empty, List.zipWith_nil_right]
      case isFalse some =>
        split
        case isTrue beyond =>
          have nothing :
              ((List.range entry.iovLen.toNat).map
                (entry.iovBase + ·)).drop offset = [] :=
            List.drop_eq_nil_of_le (length.trans_le beyond)
          rw [induction, nothing, List.nil_append]
        case isFalse within =>
          have start : offset - entry.iovLen.toNat = 0 := by omega
          have rest :=
            @zipWith_places_cons
              ⟨entry.iovBase + offset, entry.iovLen.toNat - offset⟩
              (rest.map Iovec.plain) data
          dsimp only
          rw [range_map_add_drop, start, List.drop_zero, induction,
            List.drop_zero]
          exact rest.symm

theorem fieldWrites_flatten (field : Field) :
    (fieldWrites field).flatten = field.wire := by
  cases field with
  | s text => simp [fieldWrites, Field.wire]
  | _ => simp [fieldWrites]

/-- Writes one behind the other are one write. -/
theorem foldl_write (chunks : List (List UInt8)) (pdu : P9Pdu) :
    chunks.foldl virtioP9PduWrite pdu =
      { pdu with
        memory :=
          storeAll pdu.memory
            (List.zipWith Store.mk
              ((places pdu.inIov.used).drop pdu.writeOffset)
              chunks.flatten)
        writeOffset :=
          pdu.writeOffset +
            min chunks.flatten.length
              ((places pdu.inIov.used).length - pdu.writeOffset) } := by
  induction chunks generalizing pdu with
  | nil =>
      rw [List.flatten_nil, List.zipWith_nil_right, List.length_nil,
        Nat.zero_min]
      rfl
  | cons data chunks induction =>
      rw [List.foldl_cons, induction, virtioP9PduWrite, copyIn_eq]
      dsimp only
      rw [List.flatten_cons, zipWith_append_bytes, storeAll_append,
        List.drop_drop, List.length_zipWith, List.length_drop,
        List.length_append]
      have moved :
          (places pdu.inIov.used).drop
              (pdu.writeOffset +
                min ((places pdu.inIov.used).length - pdu.writeOffset)
                  data.length) =
            (places pdu.inIov.used).drop
              (pdu.writeOffset + data.length) := by
        by_cases fits :
            data.length ≤
              (places pdu.inIov.used).length - pdu.writeOffset
        · rw [Nat.min_eq_right fits]
        · rw [List.drop_eq_nil_of_le (by omega),
            List.drop_eq_nil_of_le (by omega)]
      rw [moved]
      congr 1
      omega

/-- What `virtio_p9_pdu_writef` does, whether or not there is room. -/
theorem virtioP9PduWritef_eq (pdu : P9Pdu) (fields : List Field) :
    virtioP9PduWritef pdu fields =
      { pdu with
        memory :=
          storeAll pdu.memory
            (List.zipWith Store.mk
              ((places pdu.inIov.used).drop pdu.writeOffset)
              (wire fields))
        writeOffset :=
          pdu.writeOffset +
            min (wire fields).length
              ((places pdu.inIov.used).length - pdu.writeOffset) } := by
  have bytes :
      (fields.flatMap fieldWrites).flatten = wire fields := by
    induction fields with
    | nil => rfl
    | cons field rest induction =>
        rw [List.flatMap_cons, List.flatten_append, fieldWrites_flatten,
          induction, wire_cons]
  rw [virtioP9PduWritef, foldl_write, bytes]

end Places

/-! ## Cutting a list down -/

section Trim

variable {count total : UInt32} {iov : List Iovec} {iovCnt : Nat}

/-- The lengths of buffers come from descriptors, where they are a `u32`. -/
def Small (iov : List Iovec) : Prop :=
  ∀ entry ∈ iov, entry.iovLen.toNat < 2 ^ 32

theorem Small.tail {entry : Iovec} {rest : List Iovec}
    (small : Small ((entry :: rest).take (iovCnt + 1))) :
    Small (rest.take iovCnt) := by
  rw [List.take_succ_cons] at small
  exact (List.forall_mem_cons.mp small).2

theorem Small.head {entry : Iovec} {rest : List Iovec}
    (small : Small ((entry :: rest).take (iovCnt + 1))) :
    entry.iovLen.toNat < 2 ^ 32 := by
  rw [List.take_succ_cons] at small
  exact small entry List.mem_cons_self

variable (total) in
theorem reach_toNat {entry : Iovec} (small : entry.iovLen.toNat < 2 ^ 32) :
    (total.toUInt64 + entry.iovLen).toNat =
      total.toNat + entry.iovLen.toNat := by
  have bound := total.toNat_lt
  rw [UInt64.toNat_add, UInt32.toNat_toUInt64]
  omega

/-- A buffer that is only needed in part is cut to what is missing. -/
theorem cut_toNat {entry : Iovec} (small : entry.iovLen.toNat < 2 ^ 32)
    (less : total < count)
    (beyond : total.toUInt64 + entry.iovLen > count.toUInt64) :
    count.toNat < total.toNat + entry.iovLen.toNat ∧
      (entry.iovLen -
          (total.toUInt64 + entry.iovLen - count.toUInt64)).toNat =
        count.toNat - total.toNat := by
  have reach := reach_toNat total small
  have bound := count.toNat_lt
  rw [gt_iff_lt, UInt64.lt_iff_toNat_lt, reach,
    UInt32.toNat_toUInt64] at beyond
  rw [UInt32.lt_iff_toNat_lt] at less
  refine ⟨beyond, ?_⟩
  rw [UInt64.toNat_sub, UInt64.toNat_sub, reach, UInt32.toNat_toUInt64]
  omega

/-- What a buffer that is needed as a whole adds to the total. -/
theorem total_toNat {entry : Iovec} (small : entry.iovLen.toNat < 2 ^ 32)
    (fits : ¬ total.toUInt64 + entry.iovLen > count.toUInt64) :
    (total + entry.iovLen.toUInt32).toNat =
        total.toNat + entry.iovLen.toNat ∧
      total.toNat + entry.iovLen.toNat ≤ count.toNat := by
  have reach := reach_toNat total small
  have bound := count.toNat_lt
  rw [gt_iff_lt, UInt64.lt_iff_toNat_lt, reach,
    UInt32.toNat_toUInt64] at fits
  rw [UInt32.toNat_add, UInt64.toNat_toUInt32]
  omega

variable (count total) in
/-- The list that is left has the first `count` bytes. -/
theorem virtioP9UpdateIovCnt_places (small : Small (iov.take iovCnt))
    (within : total ≤ count) :
    places
        ((virtioP9UpdateIovCnt count iov iovCnt total).1.take
          (virtioP9UpdateIovCnt count iov iovCnt total).2) =
      (places (iov.take iovCnt)).take (count.toNat - total.toNat) := by
  induction iov generalizing iovCnt total with
  | nil =>
      rw [List.take_nil, places_nil, List.take_nil]
      rfl
  | cons entry rest induction =>
      cases iovCnt with
      | zero =>
          rw [List.take_zero, places_nil, List.take_nil]
          rfl
      | succ iovCnt =>
          have short := small.head
          rw [virtioP9UpdateIovCnt, List.take_succ_cons, places_cons,
            List.take_append, List.length_map, List.length_range]
          split
          case isTrue less =>
            dsimp only
            split
            case isTrue beyond =>
              obtain ⟨beyond, cut⟩ := cut_toNat short less beyond
              have none :
                  count.toNat - total.toNat - entry.iovLen.toNat = 0 := by
                omega
              rw [List.take_succ_cons, List.take_zero, places_cons, cut,
                none, List.take_zero, range_map_add_take (by omega)]
              rfl
            case isFalse fits =>
              obtain ⟨sum, fits⟩ := total_toNat short fits
              rw [List.take_succ_cons, places_cons,
                induction _ small.tail (UInt32.le_iff_toNat_le.mpr
                  (sum.trans_le fits)), sum]
              congr 1
              · rw [List.take_of_length_le]
                rw [List.length_map, List.length_range]
                omega
              · congr 1
                omega
          case isFalse full =>
            rw [UInt32.lt_iff_toNat_lt] at full
            rw [UInt32.le_iff_toNat_le] at within
            have none : count.toNat - total.toNat = 0 := by omega
            rw [none, Nat.zero_sub, List.take_zero, List.take_zero]
            rfl

/-- No length grows. -/
theorem virtioP9UpdateIovCnt_shrinks (small : Small (iov.take iovCnt)) :
    List.Forall₂
      (fun cut entry : Iovec => cut.iovLen.toNat ≤ entry.iovLen.toNat)
      (virtioP9UpdateIovCnt count iov iovCnt total).1 iov := by
  have same (iov : List Iovec) :
      List.Forall₂
        (fun cut entry : Iovec =>
          cut.iovLen.toNat ≤ entry.iovLen.toNat) iov iov :=
    List.forall₂_same.mpr fun _ _ => Nat.le_refl _
  induction iov generalizing iovCnt total with
  | nil => exact List.Forall₂.nil
  | cons entry rest induction =>
      cases iovCnt with
      | zero => exact same _
      | succ iovCnt =>
          have short := small.head
          rw [virtioP9UpdateIovCnt]
          split
          case isTrue less =>
            dsimp only
            split
            case isTrue beyond =>
              obtain ⟨beyond, cut⟩ := cut_toNat short less beyond
              refine List.Forall₂.cons ?_ (same rest)
              dsimp only
              omega
            case isFalse =>
              exact List.Forall₂.cons (Nat.le_refl _)
                (induction small.tail)
          case isFalse => exact same _

/-- A number of bytes ends inside a buffer. -/
def Cuts (iov : List Iovec) (room : Nat) : Prop :=
  ∃ index, iovSize iov index < room ∧ room < iovSize iov (index + 1)

/-- A number of bytes ends inside a buffer that is not the first one. -/
def EndsInside (iov : List Iovec) (room : Nat) : Prop :=
  ∃ index, 0 < index ∧ iovSize iov index < room ∧
    room < iovSize iov (index + 1)

theorem not_cuts_zero (iov : List Iovec) : ¬ Cuts iov 0 :=
  fun ⟨_, before, _⟩ => Nat.not_lt_zero _ before

theorem endsInside_cons (entry : Iovec) (rest : List Iovec) (room : Nat) :
    EndsInside (entry :: rest) room ↔
      Cuts rest (room - entry.iovLen.toNat) := by
  constructor
  · rintro ⟨index, later, before, behind⟩
    cases index with
    | zero => exact absurd later (Nat.lt_irrefl 0)
    | succ index =>
        rw [iovSize_cons_succ] at before behind
        exact ⟨index, by omega, by omega⟩
  · rintro ⟨index, before, behind⟩
    refine ⟨index + 1, Nat.succ_pos index, ?_, ?_⟩
    · rw [iovSize_cons_succ]
      omega
    · rw [iovSize_cons_succ]
      omega

theorem cuts_cons {entry : Iovec} {room : Nat} (rest : List Iovec)
    (whole : entry.iovLen.toNat ≤ room) :
    Cuts (entry :: rest) room ↔ Cuts rest (room - entry.iovLen.toNat) := by
  rw [← endsInside_cons]
  constructor
  · rintro ⟨index, before, behind⟩
    cases index with
    | zero =>
        rw [iovSize_cons_succ, iovSize_zero] at behind
        omega
    | succ index => exact ⟨index + 1, Nat.succ_pos index, before, behind⟩
  · rintro ⟨index, _, before, behind⟩
    exact ⟨index, before, behind⟩

/-- The entries stay as they are unless the count ends inside one. -/
theorem virtioP9UpdateIovCnt_eq_iff (small : Small (iov.take iovCnt))
    (within : total ≤ count) :
    (virtioP9UpdateIovCnt count iov iovCnt total).1 = iov ↔
      ¬ Cuts (iov.take iovCnt) (count.toNat - total.toNat) := by
  have empty (room : Nat) : ¬ Cuts [] room := by
    rintro ⟨index, before, behind⟩
    have nothing : iovSize [] (index + 1) = 0 := by
      rw [iovSize]
      exact Util.IoVector.iovSize_nil _
    omega
  induction iov generalizing iovCnt total with
  | nil =>
      rw [List.take_nil]
      exact iff_of_true rfl (empty _)
  | cons entry rest induction =>
      cases iovCnt with
      | zero => exact iff_of_true rfl (empty _)
      | succ iovCnt =>
          have short := small.head
          rw [virtioP9UpdateIovCnt, List.take_succ_cons]
          split
          case isTrue less =>
            dsimp only
            split
            case isTrue beyond =>
              obtain ⟨beyond, cut⟩ := cut_toNat short less beyond
              rw [UInt32.lt_iff_toNat_lt] at less
              refine iff_of_false ?_ (not_not.mpr ⟨0, ?_, ?_⟩)
              · intro same
                have lengths :=
                  congrArg Iovec.iovLen (List.cons.inj same).1
                rw [← lengths] at beyond
                dsimp only at beyond
                omega
              · rw [iovSize_zero]
                omega
              · rw [iovSize_cons_succ, iovSize_zero]
                omega
            case isFalse fits =>
              obtain ⟨sum, fits⟩ := total_toNat short fits
              have same :=
                induction small.tail
                  (UInt32.le_iff_toNat_le.mpr (sum.trans_le fits))
              rw [sum, ← Nat.sub_sub] at same
              rw [cuts_cons _ (by omega)]
              exact (List.cons_inj_right entry).trans same
          case isFalse full =>
            rw [UInt32.lt_iff_toNat_lt] at full
            rw [UInt32.le_iff_toNat_le] at within
            have none : count.toNat - total.toNat = 0 := by omega
            rw [none]
            exact iff_of_true rfl (not_cuts_zero _)

variable (count) in
/-- The entries behind the first one. -/
theorem virtioP9UpdateIovCnt_tail_iff {entry : Iovec} {rest : List Iovec}
    (small : Small ((entry :: rest).take (iovCnt + 1))) :
    (virtioP9UpdateIovCnt count (entry :: rest) (iovCnt + 1) 0).1.tail =
        rest ↔
      ¬ Cuts (rest.take iovCnt) (count.toNat - entry.iovLen.toNat) := by
  have short := small.head
  rw [virtioP9UpdateIovCnt]
  split
  case isTrue less =>
    dsimp only
    split
    case isTrue beyond =>
      have reach := reach_toNat 0 short
      rw [gt_iff_lt, UInt64.lt_iff_toNat_lt, reach,
        UInt32.toNat_toUInt64] at beyond
      have none : count.toNat - entry.iovLen.toNat = 0 := by
        have zero : (0 : UInt32).toNat = 0 := rfl
        omega
      rw [none]
      exact iff_of_true rfl (not_cuts_zero _)
    case isFalse fits =>
      obtain ⟨sum, fits⟩ := total_toNat short fits
      have zero : (0 : UInt32).toNat = 0 := rfl
      rw [List.tail_cons,
        virtioP9UpdateIovCnt_eq_iff small.tail
          (UInt32.le_iff_toNat_le.mpr (sum.trans_le fits)),
        sum, zero, Nat.zero_add]
  case isFalse full =>
    rw [UInt32.lt_iff_toNat_lt] at full
    have zero : (0 : UInt32).toNat = 0 := rfl
    have none : count.toNat - entry.iovLen.toNat = 0 := by omega
    rw [none]
    exact iff_of_true rfl (not_cuts_zero _)

end Trim

/-! ## Arrays -/

section Arrays

variable {array : IovArray} {size : UInt64} {count : UInt32}

/--
What `virt_queue__get_inout_iov` makes of the buffers of a request: an array
from `calloc`, with the descriptors' lengths in its first entries.
-/
structure Filled (array : IovArray) : Prop where
  small : Small array.slots
  blank : ∀ entry ∈ array.slots.drop array.cnt.toNat, entry = ⟨0, 0⟩

theorem IovArray.slots_eq (array : IovArray) :
    array.slots = array.first :: array.slots.tail := by
  have size := array.size
  rw [IovArray.first]
  cases slots : array.slots with
  | nil =>
      rw [slots] at size
      cases size
  | cons entry rest => rfl

/-- An array whose first entry has a length is in use. -/
theorem Filled.cnt_succ (filled : Filled array)
    (some : array.first.iovLen.toNat ≠ 0) :
    ∃ more, array.cnt.toNat = more + 1 := by
  refine Nat.exists_eq_succ_of_ne_zero fun none => some ?_
  have blank := filled.blank array.first
  rw [none, List.drop_zero, array.slots_eq] at blank
  rw [blank List.mem_cons_self]
  rfl

theorem IovArray.used_eq {more : Nat} (cnt : array.cnt.toNat = more + 1) :
    array.used = array.first :: array.slots.tail.take more := by
  rw [IovArray.used, cnt, array.slots_eq]
  rfl

theorem skip_slots :
    (array.skip size).slots =
      ⟨array.first.iovBase + size.toNat, array.first.iovLen - size⟩ ::
        array.slots.tail := by
  show array.slots.set 0 _ = _
  rw [array.slots_eq]
  rfl

/-- The first buffer behind what is in front of the data. -/
theorem skip_first :
    (array.skip size).first =
      ⟨array.first.iovBase + size.toNat, array.first.iovLen - size⟩ := by
  rw [IovArray.first, skip_slots]
  rfl

theorem skip_tail :
    (array.skip size).slots.tail = array.slots.tail := by
  rw [skip_slots]
  rfl

theorem skip_toNat (room : size.toNat ≤ array.first.iovLen.toNat) :
    (array.skip size).first.iovLen.toNat =
      array.first.iovLen.toNat - size.toNat := by
  rw [skip_first]
  exact UInt64.toNat_sub_of_le _ _ (UInt64.le_iff_toNat_le.mpr room)

/-- The length of a first buffer that is too short wraps around. -/
theorem skip_toNat_iff :
    (array.skip size).first.iovLen.toNat + size.toNat =
        array.first.iovLen.toNat ↔
      size.toNat ≤ array.first.iovLen.toNat := by
  constructor
  · intro moved
    omega
  · intro room
    rw [skip_toNat room]
    omega

theorem Filled.skip (filled : Filled array)
    (room : size.toNat ≤ array.first.iovLen.toNat) :
    Small (array.skip size).slots := by
  intro entry member
  rw [(array.skip size).slots_eq, skip_tail] at member
  have small := filled.small
  rw [array.slots_eq] at small
  rcases List.mem_cons.mp member with rfl | later
  · have bound := small array.first List.mem_cons_self
    rw [skip_toNat room]
    omega
  · exact small entry (List.mem_cons_of_mem _ later)

theorem Small.take {iov : List Iovec} (small : Small iov) (number : Nat) :
    Small (iov.take number) :=
  fun entry member => small entry (List.mem_of_mem_take member)

variable (count) in
/-- The buffers of a transfer have the places behind the skipped bytes. -/
theorem trim_places (filled : Filled array)
    (room : size.toNat ≤ array.first.iovLen.toNat)
    (some : 0 < size.toNat) :
    places ((array.skip size).trim count).used =
      ((places array.used).drop size.toNat).take count.toNat := by
  obtain ⟨more, cnt⟩ := filled.cnt_succ (by omega)
  have zero : (0 : UInt32).toNat = 0 := rfl
  have counter :
      ((array.skip size).trim count).cnt.toNat =
        (virtioP9UpdateIovCnt count (array.skip size).slots
          array.cnt.toNat 0).2 := by
    have bound :=
      virtioP9UpdateIovCnt_le count (array.skip size).slots
        array.cnt.toNat 0
    have top := array.cnt.toNat_lt
    show (UInt16.ofNat _).toNat = _
    rw [UInt16.toNat_ofNat']
    exact Nat.mod_eq_of_lt (Nat.lt_of_le_of_lt bound top)
  have shifted :
      (array.skip size).slots.take array.cnt.toNat =
        (array.skip size).first :: array.slots.tail.take more := by
    rw [(array.skip size).slots_eq, skip_tail, cnt]
    rfl
  have kept :=
    virtioP9UpdateIovCnt_places count 0
      ((filled.skip room).take array.cnt.toNat) (UInt32.zero_le)
  rw [IovArray.used, counter]
  refine kept.trans ?_
  rw [shifted, IovArray.used_eq cnt, places_cons, places_cons, zero,
    Nat.sub_zero, List.drop_append_of_le_length, range_map_add_drop,
    skip_toNat room, skip_first]
  rw [List.length_map, List.length_range]
  exact room

variable (count) in
/-- The array is as before unless the data end inside a later buffer. -/
theorem putBack_eq_iff (filled : Filled array)
    (room : size.toNat ≤ array.first.iovLen.toNat)
    (some : 0 < size.toNat) :
    ((array.skip size).trim count).putBack array = array ↔
      ¬ EndsInside array.used (size.toNat + count.toNat) := by
  obtain ⟨more, cnt⟩ := filled.cnt_succ (by omega)
  have small := (filled.skip room).take array.cnt.toNat
  rw [(array.skip size).slots_eq, skip_tail, cnt] at small
  have tail :=
    virtioP9UpdateIovCnt_tail_iff count small
  have missing :
      count.toNat - (array.skip size).first.iovLen.toNat =
        size.toNat + count.toNat - array.first.iovLen.toNat := by
    rw [skip_toNat room]
    omega
  rw [IovArray.used_eq cnt, endsInside_cons, ← missing, ← tail]
  have slots :
      (((array.skip size).trim count).putBack array).slots =
        array.first ::
          (virtioP9UpdateIovCnt count
            ((array.skip size).first :: array.slots.tail) (more + 1)
              0).1.tail := by
    show (virtioP9UpdateIovCnt count (array.skip size).slots
      array.cnt.toNat 0).1.set 0 array.first = _
    rw [(array.skip size).slots_eq, skip_tail, cnt]
    have length :=
      virtioP9UpdateIovCnt_length count
        ((array.skip size).first :: array.slots.tail) (more + 1) 0
    cases updated :
        (virtioP9UpdateIovCnt count
          ((array.skip size).first :: array.slots.tail) (more + 1) 0).1 with
    | nil =>
        rw [updated] at length
        cases length
    | cons entry rest => rfl
  constructor
  · intro same
    have lists := congrArg IovArray.slots same
    rw [slots, array.slots_eq] at lists
    exact (List.cons.inj lists).2
  · intro same
    have lists :
        (((array.skip size).trim count).putBack array).slots =
          array.slots := by
      rw [slots, same, ← array.slots_eq]
    cases array
    simp only [IovArray.putBack, IovArray.mk.injEq] at lists ⊢
    exact ⟨lists, trivial⟩

end Arrays

/-! ## The handlers without the reply -/

section Server

variable {Value Result Other : Type} {state : IoState}

theorem onPdu_bind (change : P9Pdu → P9Pdu) (next : PUnit → IoM Result) :
    (onPdu change >>= next) state =
      next ⟨⟩ { state with pdu := change state.pdu } :=
  rfl

theorem ofPdu_bind (value : P9Pdu → Value) (next : Value → IoM Result) :
    (ofPdu value >>= next) state = next (value state.pdu) state :=
  rfl

/-- What a part of a reply leaves as it was. -/
structure Undisturbed (before after : IoState) : Prop where
  server : after.server = before.server
  outIov : after.pdu.outIov = before.pdu.outIov
  written : after.written = before.written

/-- A part of a handler that is about the reply only. -/
def Quiet (action : IoM Value) : Prop :=
  ∀ state, ∃ value after,
    action state = .ok value after ∧ Undisturbed state after

theorem Quiet.bind {first : IoM Value} {next : Value → IoM Result}
    (quiet : Quiet first) (later : ∀ value, Quiet (next value)) :
    Quiet (first >>= next) := by
  intro state
  obtain ⟨value, now, ran, kept⟩ := quiet state
  obtain ⟨result, after, rest, still⟩ := later value now
  refine ⟨result, after, (bind_of_ok ran).trans rest, ?_, ?_, ?_⟩
  · rw [still.server, kept.server]
  · rw [still.outIov, kept.outIov]
  · rw [still.written, kept.written]

theorem quiet_pure (value : Value) : Quiet (pure value) :=
  fun state => ⟨value, state, rfl, rfl, rfl, rfl⟩

theorem quiet_readf (decode : DecodeM Value) : Quiet (readf decode) :=
  fun _ => ⟨_, _, rfl, rfl, rfl, rfl⟩

theorem quiet_ofPdu (value : P9Pdu → Value) : Quiet (ofPdu value) :=
  fun state => ⟨_, state, rfl, rfl, rfl, rfl⟩

theorem quiet_onPdu {change : P9Pdu → P9Pdu}
    (kept : ∀ pdu, (change pdu).outIov = pdu.outIov) :
    Quiet (onPdu change) :=
  fun state => ⟨_, _, rfl, rfl, kept state.pdu, rfl⟩

theorem quiet_seekRead (readOffset : Nat) : Quiet (seekRead readOffset) :=
  quiet_onPdu fun _ => rfl

theorem quiet_seekWrite (writeOffset : Nat) :
    Quiet (seekWrite writeOffset) :=
  quiet_onPdu fun _ => rfl

theorem quiet_writef (fields : List Field) : Quiet (writef fields) :=
  quiet_onPdu fun pdu => by rw [virtioP9PduWritef_eq]

theorem quiet_setReplyHeader (size : UInt32) :
    Quiet (virtioP9SetReplyHeader size) := by
  refine (quiet_seekRead 4).bind fun _ => ?_
  refine (quiet_readf decodeCmdTag).bind fun header => ?_
  exact (quiet_seekWrite 0).bind fun _ => quiet_writef _

theorem quiet_errorReply (err : Int) : Quiet (virtioP9ErrorReply err) := by
  refine (quiet_seekWrite virtio9pHdrLen).bind fun _ => ?_
  refine (quiet_writef _).bind fun _ => ?_
  refine (quiet_ofPdu _).bind fun outlen => ?_
  refine (quiet_seekRead 5).bind fun _ => ?_
  refine (quiet_readf decodeTag).bind fun tag => ?_
  refine (quiet_seekWrite 0).bind fun _ => ?_
  exact (quiet_writef _).bind fun _ => quiet_pure outlen

theorem quiet_finishWrite (res : HostAnswer) : Quiet (finishWrite res) := by
  rw [finishWrite]
  split
  · exact quiet_errorReply res.errno
  · refine (quiet_writef _).bind fun _ => ?_
    refine (quiet_ofPdu _).bind fun outlen => ?_
    exact (quiet_setReplyHeader outlen).bind fun _ => quiet_pure outlen

end Server

end Kemu.Virtio.P9.ReadWrite
