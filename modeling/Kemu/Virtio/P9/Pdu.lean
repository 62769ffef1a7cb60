import Kemu.Lib.Bytes
import Kemu.Virtio.P9.Fid

/-!
# The 9p codec

`virtio_p9_pdu_writef` and `virtio_p9_pdu_readf` interpret a format over the
buffers of a request.  A code for a number stands for its little-endian
bytes, a string is its length and its bytes, and the codes for structures
stand for the formats of their members.

An argument of the encoder carries its code, so that a format and its
arguments are one list.  The decoder is given the codes.
-/

namespace Kemu.Virtio.P9.Pdu

open Kemu.Lib.Bytes
open Kemu.Virtio.P9.Fid

/-! ## Buffers -/

/--
`struct p9_pdu`: the bytes of its buffers and its cursors.  `stack` holds
the bytes that are found in variables nobody has written to.
-/
structure P9Pdu where
  outIov : List (List UInt8)
  inIov : List (List UInt8)
  readOffset : Nat
  writeOffset : Nat
  stack : Nat → UInt8

/--
`virtio_p9_pdu_read` into a variable of some size; what the buffers do not
have stays as it was.
-/
def virtioP9PduRead (pdu : P9Pdu) (size : Nat) : List UInt8 × P9Pdu :=
  let data := fetch pdu.outIov pdu.readOffset size
  let missing := size - data.length
  (data ++ (List.range missing).map pdu.stack,
    { pdu with
      readOffset := pdu.readOffset + data.length
      stack := fun index => pdu.stack (missing + index) })

/-- `virtio_p9_pdu_write`. -/
def virtioP9PduWrite (pdu : P9Pdu) (data : List UInt8) : P9Pdu :=
  let stored := store pdu.inIov pdu.writeOffset data
  { pdu with
    inIov := stored.1
    writeOffset := pdu.writeOffset + stored.2 }

/-! ## Values -/

/-- An argument for one of the codes `b`, `w`, `d`, `q` and `s`. -/
inductive Field where
  | b (value : UInt8)
  | w (value : UInt16)
  | d (value : UInt32)
  | q (value : UInt64)
  | s (text : Option CString)
deriving DecidableEq, Repr

/-- The codes `b`, `w`, `d`, `q` and `s`. -/
inductive FieldCode where
  | b
  | w
  | d
  | q
  | s
deriving DecidableEq, Repr

def Field.code : Field → FieldCode
  | .b _ => .b
  | .w _ => .w
  | .d _ => .d
  | .q _ => .q
  | .s _ => .s

/-- `struct p9_qid`. -/
structure P9Qid where
  type : UInt8
  version : UInt32
  path : UInt64
deriving DecidableEq, Repr

/-- `struct p9_wstat`, as far as it is on the wire. -/
structure P9Wstat where
  size : UInt16
  type : UInt16
  dev : UInt32
  qid : P9Qid
  mode : UInt32
  atime : UInt32
  mtime : UInt32
  length : UInt64
  name : Option CString
  uid : Option CString
  gid : Option CString
  muid : Option CString
deriving DecidableEq, Repr

/-- `struct p9_stat_dotl`. -/
structure P9StatDotl where
  stResultMask : UInt64
  qid : P9Qid
  stMode : UInt32
  stUid : UInt32
  stGid : UInt32
  stNlink : UInt64
  stRdev : UInt64
  stSize : UInt64
  stBlksize : UInt64
  stBlocks : UInt64
  stAtimeSec : UInt64
  stAtimeNsec : UInt64
  stMtimeSec : UInt64
  stMtimeNsec : UInt64
  stCtimeSec : UInt64
  stCtimeNsec : UInt64
  stBtimeSec : UInt64
  stBtimeNsec : UInt64
  stGen : UInt64
  stDataVersion : UInt64
deriving DecidableEq, Repr

/-- `struct p9_iattr_dotl`. -/
structure P9IattrDotl where
  valid : UInt32
  mode : UInt32
  uid : UInt32
  gid : UInt32
  size : UInt64
  atimeSec : UInt64
  atimeNsec : UInt64
  mtimeSec : UInt64
  mtimeNsec : UInt64
deriving DecidableEq, Repr

/-- An argument with its code. -/
inductive PduValue where
  | field (value : Field)
  | Q (qid : P9Qid)
  | S (stbuf : P9Wstat)
  | A (stbuf : P9StatDotl)
  | I (attr : P9IattrDotl)
deriving DecidableEq, Repr

/-- The codes of a format. -/
inductive PduCode where
  | field (code : FieldCode)
  | Q
  | S
  | A
  | I
deriving DecidableEq, Repr

def PduValue.code : PduValue → PduCode
  | .field value => .field value.code
  | .Q _ => .Q
  | .S _ => .S
  | .A _ => .A
  | .I _ => .I

/-! ## The encoder -/

/-- `USHRT_MAX`. -/
def ushrtMax : Nat := 65535

/-- `EINVAL`. -/
def eInval : Int := 22

/-- `ENOMEM`. -/
def eNoMem : Int := 12

/-- The length the encoder writes for a string that may be null. -/
def stringLen : Option CString → Nat
  | none => 0
  | some text => min text.length ushrtMax

/-- The cases `b`, `w`, `d`, `q` and `s` of `virtio_p9_pdu_encode`. -/
def encodeField (pdu : P9Pdu) : Field → P9Pdu
  | .b value => virtioP9PduWrite pdu [value]
  | .w value => virtioP9PduWrite pdu (toLe 2 value.toNat)
  | .d value => virtioP9PduWrite pdu (toLe 4 value.toNat)
  | .q value => virtioP9PduWrite pdu (toLe 8 value.toNat)
  | .s text =>
      let len := stringLen text
      virtioP9PduWrite (virtioP9PduWrite pdu (toLe 2 len))
        ((text.getD []).take len)

/-- The format `"bdq"` of a `struct p9_qid`. -/
def P9Qid.fields (qid : P9Qid) : List Field :=
  [.b qid.type, .d qid.version, .q qid.path]

/-- The format `"wwdQdddqssss"` of a `struct p9_wstat`. -/
def P9Wstat.fields (stbuf : P9Wstat) : List Field :=
  [.w stbuf.size, .w stbuf.type, .d stbuf.dev] ++ stbuf.qid.fields ++
    [.d stbuf.mode, .d stbuf.atime, .d stbuf.mtime, .q stbuf.length,
      .s stbuf.name, .s stbuf.uid, .s stbuf.gid, .s stbuf.muid]

/-- The format `"qQdddqqqqqqqqqqqqqqq"` of a `struct p9_stat_dotl`. -/
def P9StatDotl.fields (stbuf : P9StatDotl) : List Field :=
  [.q stbuf.stResultMask] ++ stbuf.qid.fields ++
    [.d stbuf.stMode, .d stbuf.stUid, .d stbuf.stGid, .q stbuf.stNlink,
      .q stbuf.stRdev, .q stbuf.stSize, .q stbuf.stBlksize,
      .q stbuf.stBlocks, .q stbuf.stAtimeSec, .q stbuf.stAtimeNsec,
      .q stbuf.stMtimeSec, .q stbuf.stMtimeNsec, .q stbuf.stCtimeSec,
      .q stbuf.stCtimeNsec, .q stbuf.stBtimeSec, .q stbuf.stBtimeNsec,
      .q stbuf.stGen, .q stbuf.stDataVersion]

/-- A nested `virtio_p9_pdu_writef`. -/
def encodeFields (pdu : P9Pdu) (fields : List Field) : P9Pdu :=
  fields.foldl encodeField pdu

/-- `virtio_p9_pdu_encode`; the code `I` is unknown to it. -/
def virtioP9PduEncode :
    List PduValue → Int → P9Pdu → Int × P9Pdu
  | [], retval, pdu => (retval, pdu)
  | .field value :: rest, retval, pdu =>
      virtioP9PduEncode rest retval (encodeField pdu value)
  | .Q qid :: rest, _, pdu =>
      virtioP9PduEncode rest 0 (encodeFields pdu qid.fields)
  | .S stbuf :: rest, _, pdu =>
      virtioP9PduEncode rest 0 (encodeFields pdu stbuf.fields)
  | .A stbuf :: rest, _, pdu =>
      virtioP9PduEncode rest 0 (encodeFields pdu stbuf.fields)
  | .I _ :: rest, _, pdu => virtioP9PduEncode rest eInval pdu

/-- `virtio_p9_pdu_writef`. -/
def virtioP9PduWritef (pdu : P9Pdu) (values : List PduValue) :
    Int × P9Pdu :=
  virtioP9PduEncode values 0 pdu

/-! ## The decoder -/

/--
`malloc` by the size asked for: a string always fits, and no object is
larger than `PTRDIFF_MAX`.
-/
structure Malloc where
  succeeds : UInt64 → Bool
  small : ∀ size, size.toNat ≤ 32768 → succeeds size = true
  huge : ∀ size, 2 ^ 63 ≤ size.toNat → succeeds size = false

/--
Where a decoder has come to.  `overrun` is set when bytes were written
outside a heap buffer.
-/
structure DecodeState where
  pdu : P9Pdu
  retval : Int
  overrun : Bool

/-- A decoder of something. -/
abbrev DecodeM := StateM DecodeState

section Decoder

variable (malloc : Malloc)

/-- A number of some bytes. -/
def decodeNumber (size : Nat) : DecodeM Nat :=
  fun state =>
    let read := virtioP9PduRead state.pdu size
    (ofLe read.1, { state with pdu := read.2 })

/-- The buffer of a string and its bytes, after its length. -/
def decodeText (len : Int16) : DecodeM (Option CString) :=
  fun state =>
    if malloc.succeeds (len.toInt64 + 1).toUInt64 then
      if len < 0 then
        let rest :=
          fetch state.pdu.outIov state.pdu.readOffset
            state.pdu.outIov.flatten.length
        (none,
          { state with
            pdu :=
              { state.pdu with
                readOffset := state.pdu.readOffset + rest.length }
            overrun := true })
      else
        let read := virtioP9PduRead state.pdu len.toInt.toNat
        (some read.1, { state with pdu := read.2 })
    else
      (none, { state with retval := eNoMem })

/--
The case `s` of `virtio_p9_decode`.  The length is an `int16_t`: the length
`-1` makes a buffer of no bytes and a copy of all there is.
-/
def decodeString : DecodeM (Option CString) := do
  let raw ← decodeNumber 2
  decodeText malloc (UInt16.ofNat raw).toInt16

/-- The cases `b`, `w`, `d`, `q` and `s` of `virtio_p9_decode`. -/
def decodeField : FieldCode → DecodeM Field
  | .b => do
      let value ← decodeNumber 1
      pure (.b (.ofNat value))
  | .w => do
      let value ← decodeNumber 2
      pure (.w (.ofNat value))
  | .d => do
      let value ← decodeNumber 4
      pure (.d (.ofNat value))
  | .q => do
      let value ← decodeNumber 8
      pure (.q (.ofNat value))
  | .s => do
      let text ← decodeString malloc
      pure (.s text)

/-- A nested `virtio_p9_pdu_readf`, whose result becomes the result. -/
def nested {Value : Type} (decode : DecodeM Value) : DecodeM Value :=
  fun state => decode { state with retval := 0 }

/-- The format `"bdq"` of a `struct p9_qid`. -/
def decodeQid : DecodeM P9Qid := do
  let type ← decodeNumber 1
  let version ← decodeNumber 4
  let path ← decodeNumber 8
  pure ⟨.ofNat type, .ofNat version, .ofNat path⟩

/-- `virtio_p9_wstat_free`, after a failure. -/
def virtioP9WstatFree (stbuf : P9Wstat) : DecodeM P9Wstat :=
  fun state =>
    if state.retval = 0 then
      (stbuf, state)
    else
      ({ stbuf with name := none, uid := none, gid := none, muid := none },
        state)

/-- The format `"wwdQdddqssss"` of a `struct p9_wstat`. -/
def decodeWstat : DecodeM P9Wstat := do
  let size ← decodeNumber 2
  let type ← decodeNumber 2
  let dev ← decodeNumber 4
  let qid ← nested decodeQid
  let mode ← decodeNumber 4
  let atime ← decodeNumber 4
  let mtime ← decodeNumber 4
  let length ← decodeNumber 8
  let name ← decodeString malloc
  let uid ← decodeString malloc
  let gid ← decodeString malloc
  let muid ← decodeString malloc
  virtioP9WstatFree
    ⟨.ofNat size, .ofNat type, .ofNat dev, qid, .ofNat mode, .ofNat atime,
      .ofNat mtime, .ofNat length, name, uid, gid, muid⟩

/-- The format `"ddddqqqqq"` of a `struct p9_iattr_dotl`. -/
def decodeIattr : DecodeM P9IattrDotl := do
  let valid ← decodeNumber 4
  let mode ← decodeNumber 4
  let uid ← decodeNumber 4
  let gid ← decodeNumber 4
  let size ← decodeNumber 8
  let atimeSec ← decodeNumber 8
  let atimeNsec ← decodeNumber 8
  let mtimeSec ← decodeNumber 8
  let mtimeNsec ← decodeNumber 8
  pure
    ⟨.ofNat valid, .ofNat mode, .ofNat uid, .ofNat gid, .ofNat size,
      .ofNat atimeSec, .ofNat atimeNsec, .ofNat mtimeSec, .ofNat mtimeNsec⟩

/-- One code; `A` is unknown to the decoder and takes no argument. -/
def decodeValue : PduCode → DecodeM (Option PduValue)
  | .field code => do
      let value ← decodeField malloc code
      pure (some (.field value))
  | .Q => do
      let qid ← nested decodeQid
      pure (some (.Q qid))
  | .S => do
      let stbuf ← nested (decodeWstat malloc)
      pure (some (.S stbuf))
  | .I => do
      let attr ← nested decodeIattr
      pure (some (.I attr))
  | .A => fun state => (none, { state with retval := eInval })

/-- `virtio_p9_decode`. -/
def virtioP9Decode : List PduCode → DecodeM (List PduValue)
  | [] => pure []
  | code :: rest => do
      let value ← decodeValue malloc code
      let others ← virtioP9Decode rest
      pure (value.toList ++ others)

/-- `virtio_p9_pdu_readf`. -/
def virtioP9PduReadf (pdu : P9Pdu) (format : List PduCode) :
    List PduValue × DecodeState :=
  virtioP9Decode malloc format ⟨pdu, 0, false⟩

end Decoder

/-! ## What is written -/

/-- The bytes of an argument on the wire. -/
def Field.wire : Field → List UInt8
  | .b value => [value]
  | .w value => toLe 2 value.toNat
  | .d value => toLe 4 value.toNat
  | .q value => toLe 8 value.toNat
  | .s text =>
      toLe 2 (stringLen text) ++ (text.getD []).take (stringLen text)

/-- The members of an argument. -/
def PduValue.fields : PduValue → List Field
  | .field value => [value]
  | .Q qid => qid.fields
  | .S stbuf => stbuf.fields
  | .A stbuf => stbuf.fields
  | .I _ => []

/-- The bytes of a list of arguments. -/
def wire (fields : List Field) : List UInt8 :=
  fields.flatMap Field.wire

/-- What a write does to the bytes of the buffers, if they have room. -/
def Wrote (before after : P9Pdu) (data : List UInt8) : Prop :=
  after.inIov.flatten =
      patch before.inIov.flatten before.writeOffset data ∧
    after.writeOffset = before.writeOffset + data.length

/-- What a write does to the bytes of the buffers, which may end before. -/
def Filled (before after : P9Pdu) (data : List UInt8) : Prop :=
  after.inIov.flatten =
      patch before.inIov.flatten before.writeOffset data ∧
    after.writeOffset =
      before.writeOffset +
        min data.length (before.inIov.flatten.length - before.writeOffset)

theorem Filled.wrote {before after : P9Pdu} {data : List UInt8}
    (filled : Filled before after data)
    (room :
      before.writeOffset + data.length ≤ before.inIov.flatten.length) :
    Wrote before after data := by
  refine ⟨filled.1, ?_⟩
  rw [filled.2, Nat.min_eq_left (by omega)]

theorem Filled.nil (pdu : P9Pdu) : Filled pdu pdu [] := by
  simp [Filled]

theorem Filled.room {before after : P9Pdu} {data : List UInt8}
    (filled : Filled before after data) :
    after.inIov.flatten.length = before.inIov.flatten.length := by
  rw [filled.1, patch_length]

theorem Filled.append {first second third : P9Pdu}
    {front back : List UInt8} (filledFront : Filled first second front)
    (filledBack : Filled second third back) :
    Filled first third (front ++ back) := by
  obtain ⟨backBytes, backOffset⟩ := filledBack
  constructor
  · rw [backBytes, filledFront.1, filledFront.2, patch_patch_min]
  · rw [backOffset, filledFront.room, filledFront.2, List.length_append]
    omega

theorem virtioP9PduWrite_filled (pdu : P9Pdu) (data : List UInt8) :
    Filled pdu (virtioP9PduWrite pdu data) data := by
  obtain ⟨bytes, -, count⟩ := store_spec pdu.inIov pdu.writeOffset data
  refine ⟨bytes, ?_⟩
  rw [virtioP9PduWrite, count]

theorem encodeField_filled (pdu : P9Pdu) (field : Field) :
    Filled pdu (encodeField pdu field) field.wire := by
  cases field with
  | b value => exact virtioP9PduWrite_filled pdu [value]
  | w value => exact virtioP9PduWrite_filled pdu (toLe 2 value.toNat)
  | d value => exact virtioP9PduWrite_filled pdu (toLe 4 value.toNat)
  | q value => exact virtioP9PduWrite_filled pdu (toLe 8 value.toNat)
  | s text =>
      have length := virtioP9PduWrite_filled pdu (toLe 2 (stringLen text))
      exact length.append (virtioP9PduWrite_filled ..)

theorem encodeFields_filled (fields : List Field) (pdu : P9Pdu) :
    Filled pdu (encodeFields pdu fields) (wire fields) := by
  induction fields generalizing pdu with
  | nil => exact Filled.nil pdu
  | cons field rest induction =>
      exact (encodeField_filled pdu field).append (induction _)

/-- An argument is encoded by its members. -/
theorem virtioP9PduEncode_cons (value : PduValue) (rest : List PduValue)
    (retval : Int) (pdu : P9Pdu) :
    ∃ next,
      virtioP9PduEncode (value :: rest) retval pdu =
        virtioP9PduEncode rest next (encodeFields pdu value.fields) := by
  cases value with
  | field value => exact ⟨retval, rfl⟩
  | Q qid => exact ⟨0, by rw [virtioP9PduEncode, PduValue.fields]⟩
  | S stbuf => exact ⟨0, by rw [virtioP9PduEncode, PduValue.fields]⟩
  | A stbuf => exact ⟨0, by rw [virtioP9PduEncode, PduValue.fields]⟩
  | I attr => exact ⟨eInval, rfl⟩

theorem wire_append (front back : List Field) :
    wire (front ++ back) = wire front ++ wire back :=
  List.flatMap_append

/-- The bytes of the arguments go to the buffers, as far as these go. -/
theorem virtioP9PduEncode_filled (values : List PduValue) (retval : Int)
    (pdu : P9Pdu) :
    Filled pdu (virtioP9PduEncode values retval pdu).2
      (wire (values.flatMap PduValue.fields)) := by
  induction values generalizing pdu retval with
  | nil => exact Filled.nil pdu
  | cons value rest induction =>
      obtain ⟨next, same⟩ :=
        virtioP9PduEncode_cons value rest retval pdu
      rw [List.flatMap_cons, wire_append, same]
      exact (encodeFields_filled value.fields pdu).append (induction next _)

/-- The bytes of the arguments go to the buffers. -/
theorem virtioP9PduEncode_wrote {values : List PduValue} {pdu : P9Pdu}
    (room :
      pdu.writeOffset + (wire (values.flatMap PduValue.fields)).length ≤
        pdu.inIov.flatten.length) (retval : Int) :
    Wrote pdu (virtioP9PduEncode values retval pdu).2
      (wire (values.flatMap PduValue.fields)) :=
  (virtioP9PduEncode_filled values retval pdu).wrote room

/-! ## What is read -/

/-- The bytes behind the cursor. -/
def P9Pdu.remaining (pdu : P9Pdu) : List UInt8 :=
  pdu.outIov.flatten.drop pdu.readOffset

/-- The cursor moved over some bytes. -/
def DecodeState.advance (state : DecodeState) (count : Nat) :
    DecodeState :=
  { state with
    pdu := { state.pdu with readOffset := state.pdu.readOffset + count } }

theorem remaining_advance {state : DecodeState} {bytes rest : List UInt8}
    (starts : state.pdu.remaining = bytes ++ rest) :
    (state.advance bytes.length).pdu.remaining = rest := by
  have moved :
      (state.advance bytes.length).pdu.remaining =
        state.pdu.remaining.drop bytes.length := by
    rw [P9Pdu.remaining, P9Pdu.remaining, List.drop_drop]
    rfl
  rw [moved, starts, List.drop_left]

/-- The decoder takes some bytes for a value and moves over them. -/
def Parses {Value : Type} (decode : DecodeM Value) (bytes : List UInt8)
    (value : Value) : Prop :=
  ∀ (state : DecodeState) (rest : List UInt8), state.retval = 0 →
    state.pdu.remaining = bytes ++ rest →
    decode state = (value, state.advance bytes.length)

namespace Parses

variable {Value Result : Type}

theorem pure (value : Value) : Parses (Pure.pure value) [] value :=
  fun _ _ _ _ => rfl

theorem bind {decode : DecodeM Value} {next : Value → DecodeM Result}
    {front back : List UInt8} {value : Value} {result : Result}
    (first : Parses decode front value)
    (second : Parses (next value) back result) :
    Parses (decode >>= next) (front ++ back) result := by
  intro state rest success starts
  rw [List.append_assoc] at starts
  have run : decode state = (value, state.advance front.length) :=
    first state (back ++ rest) success starts
  have following :=
    second (state.advance front.length) rest success
      (remaining_advance starts)
  calc
    (decode >>= next) state = next value (state.advance front.length) := by
      change (let result := decode state; next result.1 result.2) = _
      rw [run]
    _ = (result, state.advance (front ++ back).length) := by
      rw [following, List.length_append]
      simp only [DecodeState.advance, Nat.add_assoc]

/-- A last step that reads nothing. -/
theorem map {decode : DecodeM Value} {bytes : List UInt8} {value : Value}
    (first : Parses decode bytes value) (next : Value → Result) :
    Parses (decode >>= fun value => Pure.pure (next value)) bytes
      (next value) := by
  have both :
      Parses (decode >>= fun value => Pure.pure (next value)) (bytes ++ [])
        (next value) :=
    first.bind (pure (next value))
  rw [List.append_nil] at both
  exact both

theorem nested {decode : DecodeM Value} {bytes : List UInt8}
    {value : Value} (inner : Parses decode bytes value) :
    Parses (Pdu.nested decode) bytes value := by
  intro state rest success starts
  have same : { state with retval := 0 } = state := by
    rw [← success]
  rw [Pdu.nested, same]
  exact inner state rest success starts

end Parses

/-- Bytes that are there are read. -/
theorem virtioP9PduRead_eq {pdu : P9Pdu} {bytes rest : List UInt8}
    (starts : pdu.remaining = bytes ++ rest) :
    virtioP9PduRead pdu bytes.length =
      (bytes, { pdu with readOffset := pdu.readOffset + bytes.length }) := by
  have data :
      fetch pdu.outIov pdu.readOffset bytes.length = bytes := by
    rw [fetch_eq]
    exact (congrArg (List.take bytes.length) starts).trans List.take_left
  rw [virtioP9PduRead, data, Nat.sub_self]
  simp

theorem parses_number (bytes : List UInt8) :
    Parses (decodeNumber bytes.length) bytes (ofLe bytes) := by
  intro state rest _ starts
  rw [decodeNumber, virtioP9PduRead_eq starts]
  rfl

/-- The bytes of a number give the number. -/
theorem parses_toLe (width : Nat) {value : Nat}
    (small : value < 256 ^ width) :
    Parses (decodeNumber width) (toLe width value) value := by
  have parses := parses_number (toLe width value)
  rw [toLe_length, ofLe_toLe, Nat.mod_eq_of_lt small] at parses
  exact parses

/-! ## Strings -/

theorem toInt16_ofNat {len : Nat} (short : len < 32768) :
    (UInt16.ofNat len).toInt16.toInt = len := by
  change (UInt16.ofNat len).toBitVec.toInt = len
  rw [BitVec.toInt_eq_toNat_of_lt]
  · simp
    omega
  · simp
    omega

/-- The size asked for a string of a length that is not negative. -/
theorem mallocSize_le {len : Int16} (nonneg : 0 ≤ len.toInt) :
    (len.toInt64 + 1).toUInt64.toNat ≤ 32768 := by
  have bound := len.toInt_lt
  have sum : (len.toInt64 + 1).toInt = len.toInt + 1 := by
    have one : (1 : Int64).toInt = 1 := rfl
    rw [Int64.toInt_add, Int16.toInt_toInt64, one]
    rw [Int.bmod_eq_of_le] <;> omega
  have positive : 0 ≤ len.toInt64 + 1 := by
    rw [Int64.le_iff_toInt_le, sum, Int64.toInt_zero]
    omega
  rw [Int64.toNat_toUInt64_of_le positive, Int64.toNatClampNeg, sum]
  omega

section Strings

variable (malloc : Malloc)

theorem parses_text {text : CString} (short : text.length < 32768) :
    Parses (decodeText malloc (UInt16.ofNat text.length).toInt16) text
      (some text) := by
  intro state rest _ starts
  have len := toInt16_ofNat short
  have nonneg : ¬ (UInt16.ofNat text.length).toInt16 < 0 := by
    rw [Int16.lt_iff_toInt_lt, len, Int16.toInt_zero]
    omega
  have fits :=
    malloc.small _
      (mallocSize_le (by omega :
        0 ≤ (UInt16.ofNat text.length).toInt16.toInt))
  have read :
      virtioP9PduRead state.pdu
          (UInt16.ofNat text.length).toInt16.toInt.toNat =
        (text,
          { state.pdu with
            readOffset := state.pdu.readOffset + text.length }) := by
    rw [len, Int.toNat_natCast]
    exact virtioP9PduRead_eq starts
  rw [decodeText, if_pos fits, if_neg nonneg, read]
  rfl

theorem parses_string {text : CString} (short : text.length < 32768) :
    Parses (decodeString malloc) (Field.wire (.s (some text)))
      (some text) := by
  have len : stringLen (some text) = text.length := by
    rw [stringLen, ushrtMax]
    omega
  have wire :
      Field.wire (.s (some text)) = toLe 2 text.length ++ text := by
    rw [Field.wire, len, Option.getD_some, List.take_length]
  rw [wire]
  exact (parses_toLe 2 (by omega)).bind (parses_text malloc short)

/-- Strings up to the largest length the decoder has no trouble with. -/
def Short (text : Option CString) : Prop :=
  ∃ bytes, text = some bytes ∧ bytes.length < 32768

variable {malloc} in
theorem Short.parses {text : Option CString} (short : Short text) :
    Parses (decodeString malloc) (Field.wire (.s text)) text := by
  obtain ⟨bytes, rfl, bound⟩ := short
  exact parses_string malloc bound

theorem parses_b (value : UInt8) :
    Parses (decodeNumber 1) (Field.wire (.b value)) value.toNat := by
  have wire : Field.wire (.b value) = toLe 1 value.toNat := by
    simp [Field.wire, toLe]
  rw [wire]
  exact parses_toLe 1 value.toNat_lt

theorem parses_w (value : UInt16) :
    Parses (decodeNumber 2) (Field.wire (.w value)) value.toNat :=
  parses_toLe 2 value.toNat_lt

theorem parses_d (value : UInt32) :
    Parses (decodeNumber 4) (Field.wire (.d value)) value.toNat :=
  parses_toLe 4 value.toNat_lt

theorem parses_q (value : UInt64) :
    Parses (decodeNumber 8) (Field.wire (.q value)) value.toNat :=
  parses_toLe 8 value.toNat_lt

theorem wire_cons (field : Field) (rest : List Field) :
    wire (field :: rest) = field.wire ++ wire rest :=
  rfl

theorem wire_nil : wire [] = [] :=
  rfl

theorem parses_field {field : Field}
    (short : ∀ text, field = .s text → Short text) :
    Parses (decodeField malloc field.code) field.wire field := by
  cases field with
  | b value =>
      have parses := (parses_b value).map fun raw => Field.b (.ofNat raw)
      rw [UInt8.ofNat_toNat] at parses
      exact parses
  | w value =>
      have parses := (parses_w value).map fun raw => Field.w (.ofNat raw)
      rw [UInt16.ofNat_toNat] at parses
      exact parses
  | d value =>
      have parses := (parses_d value).map fun raw => Field.d (.ofNat raw)
      rw [UInt32.ofNat_toNat] at parses
      exact parses
  | q value =>
      have parses := (parses_q value).map fun raw => Field.q (.ofNat raw)
      rw [UInt64.ofNat_toNat] at parses
      exact parses
  | s text => exact (short text rfl).parses.map Field.s

theorem parses_qid (qid : P9Qid) :
    Parses decodeQid (wire qid.fields) qid := by
  rw [P9Qid.fields, wire_cons, wire_cons, wire_cons, wire_nil,
    List.append_nil]
  refine (parses_b qid.type).bind ?_
  refine (parses_d qid.version).bind ?_
  have last :=
    (parses_q qid.path).map fun path =>
      (⟨.ofNat qid.type.toNat, .ofNat qid.version.toNat, .ofNat path⟩ :
        P9Qid)
  simp only [UInt8.ofNat_toNat, UInt32.ofNat_toNat,
    UInt64.ofNat_toNat] at last ⊢
  exact last

theorem parses_wstatFree (stbuf : P9Wstat) :
    Parses (virtioP9WstatFree stbuf) [] stbuf := by
  intro state rest success _
  rw [virtioP9WstatFree, if_pos success]
  rfl

theorem parses_wstat {stbuf : P9Wstat} (name : Short stbuf.name)
    (uid : Short stbuf.uid) (gid : Short stbuf.gid)
    (muid : Short stbuf.muid) :
    Parses (decodeWstat malloc) (wire stbuf.fields) stbuf := by
  rw [P9Wstat.fields, wire_append, wire_append]
  simp only [wire_cons, wire_nil, List.append_assoc, List.nil_append]
  refine (parses_w stbuf.size).bind ?_
  refine (parses_w stbuf.type).bind ?_
  refine (parses_d stbuf.dev).bind ?_
  refine (parses_qid stbuf.qid).nested.bind ?_
  refine (parses_d stbuf.mode).bind ?_
  refine (parses_d stbuf.atime).bind ?_
  refine (parses_d stbuf.mtime).bind ?_
  refine (parses_q stbuf.length).bind ?_
  refine name.parses.bind ?_
  refine uid.parses.bind ?_
  refine gid.parses.bind ?_
  refine muid.parses.bind ?_
  simp only [UInt16.ofNat_toNat, UInt32.ofNat_toNat, UInt64.ofNat_toNat]
  exact parses_wstatFree stbuf

/-! ## Formats -/

/-- The strings of an argument. -/
def PduValue.strings : PduValue → List (Option CString)
  | .field (.s text) => [text]
  | .S stbuf => [stbuf.name, stbuf.uid, stbuf.gid, stbuf.muid]
  | _ => []

/-- The codes that the encoder and the decoder have in common. -/
def PduValue.Shared : PduValue → Prop
  | .A _ => False
  | .I _ => False
  | _ => True

theorem parses_value {value : PduValue} (shared : value.Shared)
    (short : ∀ text ∈ value.strings, Short text) :
    Parses (decodeValue malloc value.code) (wire value.fields)
      (some value) := by
  cases value with
  | field field =>
      have bytes : wire (PduValue.field field).fields = field.wire := by
        rw [PduValue.fields, wire_cons, wire_nil, List.append_nil]
      rw [bytes]
      have parses : Parses (decodeField malloc field.code) field.wire field := by
        refine parses_field malloc ?_
        rintro text rfl
        exact short text (List.mem_singleton.mpr rfl)
      exact parses.map fun value => some (PduValue.field value)
  | Q qid =>
      exact (parses_qid qid).nested.map fun qid => some (PduValue.Q qid)
  | S stbuf =>
      have strings : ∀ text ∈ [stbuf.name, stbuf.uid, stbuf.gid, stbuf.muid],
          Short text :=
        short
      have parses :=
        parses_wstat malloc (strings stbuf.name (by simp))
          (strings stbuf.uid (by simp)) (strings stbuf.gid (by simp))
          (strings stbuf.muid (by simp))
      exact parses.nested.map fun stbuf => some (PduValue.S stbuf)
  | A stbuf => exact shared.elim
  | I attr => exact shared.elim

theorem parses_values {values : List PduValue}
    (shared : ∀ value ∈ values, value.Shared)
    (short : ∀ value ∈ values, ∀ text ∈ value.strings, Short text) :
    Parses (virtioP9Decode malloc (values.map PduValue.code))
      (wire (values.flatMap PduValue.fields)) values := by
  induction values with
  | nil => exact Parses.pure []
  | cons value rest induction =>
      rw [List.flatMap_cons, wire_append]
      refine
        (parses_value malloc (shared value List.mem_cons_self)
          (short value List.mem_cons_self)).bind ?_
      have others :=
        induction (List.forall_mem_cons.mp shared).2
          (List.forall_mem_cons.mp short).2
      exact others.map fun others => (some value).toList ++ others

/-! ## What a decoder can return -/

/-- Whatever is read, the result has a property. -/
def Yields {Value : Type} (decode : DecodeM Value) (post : Value → Prop) :
    Prop :=
  ∀ state, post (decode state).1

theorem Yields.bind {Value Result : Type} {decode : DecodeM Value}
    {next : Value → DecodeM Result} {middle : Value → Prop}
    {post : Result → Prop} (first : Yields decode middle)
    (second : ∀ value, middle value → Yields (next value) post) :
    Yields (decode >>= next) post :=
  fun state => second (decode state).1 (first state) (decode state).2

theorem Yields.trivial {Value : Type} (decode : DecodeM Value) :
    Yields decode fun _ => True :=
  fun _ => True.intro

theorem Yields.nested {Value : Type} {decode : DecodeM Value}
    {post : Value → Prop} (inner : Yields decode post) :
    Yields (Pdu.nested decode) post :=
  fun state => inner { state with retval := 0 }

/-- A string is null or below the sign bit of its length. -/
def Decodable (text : Option CString) : Prop :=
  ∀ bytes, text = some bytes → bytes.length < 32768

theorem virtioP9PduRead_length (pdu : P9Pdu) (size : Nat) :
    (virtioP9PduRead pdu size).1.length = size := by
  have most : (fetch pdu.outIov pdu.readOffset size).length ≤ size := by
    rw [fetch_eq]
    exact List.length_take_le _ _
  rw [virtioP9PduRead]
  simp only [List.length_append, List.length_map, List.length_range]
  omega

theorem decodeString_yields :
    Yields (decodeString malloc) Decodable := by
  refine (Yields.trivial (decodeNumber 2)).bind ?_
  intro raw _ state bytes result
  rw [decodeText] at result
  split at result
  · split at result
    · cases result
    · cases result
      rw [virtioP9PduRead_length]
      have bound := (UInt16.ofNat raw).toInt16.toInt_lt
      omega
  · cases result

theorem decodeWstat_yields :
    Yields (decodeWstat malloc) fun stbuf =>
      ∀ text ∈ (PduValue.S stbuf).strings, Decodable text := by
  refine (Yields.trivial _).bind fun size _ => ?_
  refine (Yields.trivial _).bind fun type _ => ?_
  refine (Yields.trivial _).bind fun dev _ => ?_
  refine (Yields.trivial _).bind fun qid _ => ?_
  refine (Yields.trivial _).bind fun mode _ => ?_
  refine (Yields.trivial _).bind fun atime _ => ?_
  refine (Yields.trivial _).bind fun mtime _ => ?_
  refine (Yields.trivial _).bind fun length _ => ?_
  refine (decodeString_yields malloc).bind fun name nameShort => ?_
  refine (decodeString_yields malloc).bind fun uid uidShort => ?_
  refine (decodeString_yields malloc).bind fun gid gidShort => ?_
  refine (decodeString_yields malloc).bind fun muid muidShort => ?_
  intro state
  have null : Decodable none := by
    rintro bytes ⟨⟩
  rw [virtioP9WstatFree]
  split
  · simp [PduValue.strings, nameShort, uidShort, gidShort, muidShort]
  · simp [PduValue.strings, null]

theorem decodeField_yields (code : FieldCode) :
    Yields (decodeField malloc code) fun field =>
      ∀ text ∈ (PduValue.field field).strings, Decodable text := by
  cases code with
  | b =>
      refine (Yields.trivial _).bind fun value _ state => ?_
      exact List.forall_mem_nil _
  | w =>
      refine (Yields.trivial _).bind fun value _ state => ?_
      exact List.forall_mem_nil _
  | d =>
      refine (Yields.trivial _).bind fun value _ state => ?_
      exact List.forall_mem_nil _
  | q =>
      refine (Yields.trivial _).bind fun value _ state => ?_
      exact List.forall_mem_nil _
  | s =>
      refine (decodeString_yields malloc).bind fun text short state => ?_
      exact List.forall_mem_singleton.mpr short

theorem decodeValue_yields (code : PduCode) :
    Yields (decodeValue malloc code) fun result =>
      ∀ value ∈ result.toList, ∀ text ∈ value.strings,
        Decodable text := by
  cases code with
  | field code =>
      refine (decodeField_yields malloc code).bind fun field short state => ?_
      exact List.forall_mem_singleton.mpr short
  | Q =>
      refine (Yields.trivial _).bind fun qid _ state => ?_
      exact List.forall_mem_singleton.mpr (List.forall_mem_nil _)
  | S =>
      refine
        (decodeWstat_yields malloc).nested.bind fun stbuf short state => ?_
      exact List.forall_mem_singleton.mpr short
  | I =>
      refine (Yields.trivial _).bind fun attr _ state => ?_
      exact List.forall_mem_singleton.mpr (List.forall_mem_nil _)
  | A =>
      intro state
      exact List.forall_mem_nil _

theorem virtioP9Decode_yields (format : List PduCode) :
    Yields (virtioP9Decode malloc format) fun values =>
      ∀ value ∈ values, ∀ text ∈ value.strings, Decodable text := by
  induction format with
  | nil =>
      intro state
      exact List.forall_mem_nil _
  | cons code rest induction =>
      refine (decodeValue_yields malloc code).bind fun first short => ?_
      refine induction.bind fun others shorts state => ?_
      exact List.forall_mem_append.mpr ⟨short, shorts⟩

/-! ## The round trip -/

/--
What is written is read back, both cursors move over the same number of
bytes, and nothing is reported.
-/
structure RoundTrip (values : List PduValue) (pdu reader : P9Pdu) :
    Prop where
  written : (virtioP9PduWritef pdu values).1 = 0
  result :
    (virtioP9PduReadf malloc reader (values.map PduValue.code)).1 = values
  retval :
    (virtioP9PduReadf malloc reader (values.map PduValue.code)).2.retval = 0
  inside :
    (virtioP9PduReadf malloc reader
      (values.map PduValue.code)).2.overrun = false
  advance :
    ∃ count,
      (virtioP9PduWritef pdu values).2.writeOffset =
          pdu.writeOffset + count ∧
        (virtioP9PduReadf malloc reader
            (values.map PduValue.code)).2.pdu.readOffset =
          reader.readOffset + count

/-- Other segments of the same bytes give the same results. -/
structure Seamless (values : List PduValue) (pdu reader : P9Pdu) :
    Prop where
  writing :
    ∀ other : P9Pdu, other.inIov.flatten = pdu.inIov.flatten →
      other.writeOffset = pdu.writeOffset →
      (virtioP9PduWritef other values).1 =
          (virtioP9PduWritef pdu values).1 ∧
        (virtioP9PduWritef other values).2.inIov.flatten =
          (virtioP9PduWritef pdu values).2.inIov.flatten ∧
        (virtioP9PduWritef other values).2.writeOffset =
          (virtioP9PduWritef pdu values).2.writeOffset
  reading :
    ∀ other : P9Pdu, other.outIov.flatten = reader.outIov.flatten →
      other.readOffset = reader.readOffset →
      (virtioP9PduReadf malloc other (values.map PduValue.code)).1 =
          (virtioP9PduReadf malloc reader (values.map PduValue.code)).1 ∧
        (virtioP9PduReadf malloc other
            (values.map PduValue.code)).2.retval =
          (virtioP9PduReadf malloc reader
            (values.map PduValue.code)).2.retval ∧
        (virtioP9PduReadf malloc other
            (values.map PduValue.code)).2.pdu.readOffset =
          (virtioP9PduReadf malloc reader
            (values.map PduValue.code)).2.pdu.readOffset

theorem virtioP9PduEncode_retval {values : List PduValue}
    (shared : ∀ value ∈ values, value.Shared) (pdu : P9Pdu) :
    (virtioP9PduEncode values 0 pdu).1 = 0 := by
  induction values generalizing pdu with
  | nil => rfl
  | cons value rest induction =>
      have others :=
        induction (List.forall_mem_cons.mp shared).2
      have this := shared value List.mem_cons_self
      cases value with
      | field field => exact others _
      | Q qid => exact others _
      | S stbuf => exact others _
      | A stbuf => exact this.elim
      | I attr => exact this.elim

section Pair

variable {values : List PduValue} {pdu reader : P9Pdu}
  (room :
    pdu.writeOffset + (wire (values.flatMap PduValue.fields)).length ≤
      pdu.inIov.flatten.length)
  (same :
    reader.outIov.flatten =
      (virtioP9PduWritef pdu values).2.inIov.flatten)
  (start : reader.readOffset = pdu.writeOffset)

include room same start

/-- The reader finds the bytes of the arguments. -/
theorem remaining_written :
    ∃ rest,
      reader.remaining = wire (values.flatMap PduValue.fields) ++ rest := by
  have wrote := virtioP9PduEncode_wrote room 0
  rw [P9Pdu.remaining, same, start, virtioP9PduWritef, wrote.1,
    patch_drop_self room]
  exact ⟨_, rfl⟩

theorem readf_written (shared : ∀ value ∈ values, value.Shared)
    (short : ∀ value ∈ values, ∀ text ∈ value.strings, Short text) :
    virtioP9PduReadf malloc reader (values.map PduValue.code) =
      (values,
        DecodeState.advance ⟨reader, 0, false⟩
          (wire (values.flatMap PduValue.fields)).length) := by
  obtain ⟨rest, starts⟩ := remaining_written room same start
  exact parses_values malloc shared short _ rest rfl starts

end Pair

variable {malloc} in
/-- Only a short string comes back. -/
theorem RoundTrip.decodable {values : List PduValue} {pdu reader : P9Pdu}
    (trip : RoundTrip malloc values pdu reader) :
    ∀ value ∈ values, ∀ text ∈ value.strings, Decodable text := by
  have decodable :=
    virtioP9Decode_yields malloc (values.map PduValue.code)
      ⟨reader, 0, false⟩
  have returned := trip.result
  rw [virtioP9PduReadf] at returned
  rw [returned] at decodable
  exact decodable

/--
The round trip succeeds, over any segments of the same bytes, exactly when
every string is shorter than `2^15` bytes: the encoder writes the length of
a string as an unsigned number and the decoder reads it as a signed one.
-/
theorem pdu_round_trip_iff {values : List PduValue}
    (shared : ∀ value ∈ values, value.Shared)
    (texts :
      ∀ value ∈ values, ∀ text ∈ value.strings,
        ∃ bytes : CString, text = some bytes ∧ 0 ∉ bytes ∧
          bytes.length ≤ ushrtMax)
    {pdu reader : P9Pdu}
    (room :
      pdu.writeOffset + (wire (values.flatMap PduValue.fields)).length ≤
        pdu.inIov.flatten.length)
    (same :
      reader.outIov.flatten =
        (virtioP9PduWritef pdu values).2.inIov.flatten)
    (start : reader.readOffset = pdu.writeOffset) :
    RoundTrip malloc values pdu reader ∧
        Seamless malloc values pdu reader ↔
      ∀ value ∈ values, ∀ text ∈ value.strings, Short text := by
  constructor
  · rintro ⟨trip, -⟩ value member text inside
    obtain ⟨bytes, rfl, -⟩ := texts value member text inside
    exact ⟨bytes, rfl, trip.decodable value member _ inside bytes rfl⟩
  · intro short
    have wrote := virtioP9PduEncode_wrote room 0
    have read := readf_written malloc room same start shared short
    refine ⟨⟨?_, ?_, ?_, ?_, ?_⟩, ⟨?_, ?_⟩⟩
    · exact virtioP9PduEncode_retval shared pdu
    · rw [read]
    · rw [read]
      rfl
    · rw [read]
      rfl
    · refine
        ⟨(wire (values.flatMap PduValue.fields)).length, wrote.2, ?_⟩
      rw [read]
      rfl
    · intro other bytes offset
      have otherRoom :
          other.writeOffset +
              (wire (values.flatMap PduValue.fields)).length ≤
            other.inIov.flatten.length := by
        rw [bytes, offset]
        exact room
      have otherWrote := virtioP9PduEncode_wrote otherRoom 0
      refine ⟨?_, ?_, ?_⟩
      · rw [virtioP9PduWritef, virtioP9PduWritef,
          virtioP9PduEncode_retval shared, virtioP9PduEncode_retval shared]
      · rw [virtioP9PduWritef, virtioP9PduWritef, otherWrote.1, wrote.1,
          bytes, offset]
      · rw [virtioP9PduWritef, virtioP9PduWritef, otherWrote.2, wrote.2,
          offset]
    · intro other bytes offset
      have otherRead :=
        readf_written malloc room (bytes.trans same) (offset.trans start)
          shared short
      rw [otherRead, read]
      refine ⟨rfl, rfl, ?_⟩
      simp only [DecodeState.advance, offset]

end Strings

/-- A `malloc` that fails only for objects that are too large. -/
def plainMalloc : Malloc where
  succeeds size := decide (size.toNat < 2 ^ 63)
  small size fits := by
    rw [decide_eq_true_eq]
    omega
  huge size large := by
    rw [decide_eq_false_iff_not]
    omega

/-- Buffers of zeros, to write to from the start. -/
def blankPdu (segments : List Nat) : P9Pdu where
  outIov := []
  inIov := segments.map fun size => List.replicate size 0
  readOffset := 0
  writeOffset := 0
  stack _ := 0

/-- The bytes that were written, in one buffer to read from. -/
def readerOf (written : P9Pdu) : P9Pdu :=
  { written with outIov := [written.inIov.flatten], readOffset := 0 }

/-- A number, a qid and a string over four segments. -/
theorem pdu_round_trip_on_qid :
    let values : List PduValue :=
      [.field (.w 0x1234), .Q ⟨0x80, 7, 2⟩, .field (.s (some [97, 98]))]
    let pdu := blankPdu [1, 4, 2, 20]
    let reader := readerOf (virtioP9PduWritef pdu values).2
    RoundTrip plainMalloc values pdu reader ∧
      Seamless plainMalloc values pdu reader := by
  intro values pdu reader
  refine
    (pdu_round_trip_iff plainMalloc ?_ ?_ ?_ (List.append_nil _) rfl).mpr ?_
  · simp [values, PduValue.Shared]
  · simp [values, PduValue.strings, ushrtMax]
  · decide
  · simp [values, PduValue.strings, Short]

theorem string_room {len : Nat} (fits : len ≤ ushrtMax) :
    (wire [.s (some (List.replicate len 97))]).length =
      (blankPdu [len + 2]).inIov.flatten.length := by
  simp [wire, Field.wire, stringLen, blankPdu, Nat.min_eq_left fits,
    Nat.add_comm]

/-- A string of `2^15` bytes, in a buffer with room for it. -/
theorem long_string_not_read_back :
    let values : List PduValue :=
      [.field (.s (some (List.replicate 32768 97)))]
    let pdu := blankPdu [32770]
    let reader := readerOf (virtioP9PduWritef pdu values).2
    pdu.writeOffset + (wire (values.flatMap PduValue.fields)).length ≤
        pdu.inIov.flatten.length ∧
      ¬ RoundTrip plainMalloc values pdu reader := by
  intro values pdu reader
  refine ⟨?_, ?_⟩
  · have fits : 32768 ≤ ushrtMax := by decide
    exact ((Nat.zero_add _).trans (string_room fits)).le
  · intro trip
    have short :=
      trip.decodable (.field (.s (some (List.replicate 32768 97))))
        List.mem_cons_self _ List.mem_cons_self _ rfl
    rw [List.length_replicate] at short
    exact lt_irrefl _ short

end Kemu.Virtio.P9.Pdu
