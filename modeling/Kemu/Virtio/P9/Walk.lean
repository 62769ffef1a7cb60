import Kemu.Virtio.P9.Atomicity
import Kemu.Virtio.P9.Pdu

/-!
# Walks

`virtio_p9_walk` reads its names from the message one after the other, looks
each of them up and appends its qid to the reply.  The number of the qids
goes in front of them at the end, in four bytes where the reply has two.

The work on the fids is that of the server's handler; here the message, the
reply and what the host stores in a `struct stat` are there as well.
-/

namespace Kemu.Virtio.P9.Walk

open Kemu.Lib.Bytes
open Kemu.Lib.Contract
open Kemu.Lib.SearchTree
open Kemu.Virtio.P9.Fid
open Kemu.Virtio.P9.Path
open Kemu.Virtio.P9.Server
open Kemu.Virtio.P9.Pdu
open Kemu.Virtio.P9.TableRules
open Kemu.Virtio.P9.Atomicity

/-! ## The code -/

/-- `VIRTIO_9P_HDR_LEN`. -/
def virtio9pHdrLen : Nat := 7

/-- `P9_QTDIR`. -/
def p9QtDir : UInt8 := 0x80

/-- `P9_RLERROR`. -/
def p9Rlerror : UInt8 := 7

/-- `struct stat`, as far as a qid depends on it. -/
structure Stat where
  stIno : UInt64
  stMtime : Int64
  stMode : UInt32
deriving DecidableEq, Repr

/-- `S_ISDIR`. -/
def sIsDir (mode : UInt32) : Bool :=
  mode &&& 0o170000 == 0o040000

/-- `stat2qid`. -/
def stat2qid (st : Stat) : P9Qid where
  path := st.stIno
  version := st.stMtime.toUInt64.toUInt32
  type := if sIsDir st.stMode then p9QtDir else 0

/-- Why a walk has no result of its own. -/
inductive WalkStop where
  | early (stop : Stop)
  | endless
deriving DecidableEq, Repr

/-- The server with a request, and how many strings were read from it. -/
structure WalkState where
  server : P9State
  pdu : P9Pdu
  strings : Nat

abbrev WalkM := EStateM WalkStop WalkState

section Code

variable {Value : Type}

/-- A part of the server's handler. -/
def onServer (action : P9M Value) : WalkM Value :=
  fun state =>
    match action state.server with
    | .ok value server => .ok value { state with server := server }
    | .error stop server =>
        .error (.early stop) { state with server := server }

/-- `virtio_p9_pdu_readf`. -/
def readf (decode : DecodeM Value) : WalkM Value :=
  fun state =>
    let read := decode ⟨state.pdu, 0, false⟩
    let state := { state with pdu := read.2.pdu }
    if read.2.overrun then
      .error (.early .corrupt) state
    else
      .ok read.1 state

/-- `virtio_p9_pdu_writef`. -/
def writef (values : List PduValue) : WalkM PUnit :=
  fun state =>
    .ok ⟨⟩
      { state with pdu := (virtioP9PduWritef state.pdu values).2 }

/-- Moving the cursor of the reply. -/
def seekWrite (place : Nat → Nat) : WalkM PUnit :=
  fun state =>
    .ok ⟨⟩
      { state with
        pdu :=
          { state.pdu with writeOffset := place state.pdu.writeOffset } }

/-- Moving the cursor of the message. -/
def seekRead (readOffset : Nat) : WalkM PUnit :=
  fun state =>
    .ok ⟨⟩
      { state with pdu := { state.pdu with readOffset := readOffset } }

/-- `pdu->write_offset` as the length of a reply. -/
def replyLength : WalkM UInt32 :=
  fun state => .ok (.ofNat state.pdu.writeOffset) state

/-- The formats `"bw"`, `"w"` and `"ddw"` of the headers and of a walk. -/
def decodeCmdTag : DecodeM (UInt8 × UInt16) := do
  let cmd ← decodeNumber 1
  let tag ← decodeNumber 2
  pure (.ofNat cmd, .ofNat tag)

def decodeTag : DecodeM UInt16 := do
  let tag ← decodeNumber 2
  pure (.ofNat tag)

def decodeTwalk : DecodeM (UInt32 × UInt32 × UInt16) := do
  let fid ← decodeNumber 4
  let newfid ← decodeNumber 4
  let nwname ← decodeNumber 2
  pure (.ofNat fid, .ofNat newfid, .ofNat nwname)

/-- `virtio_p9_set_reply_header`. -/
def virtioP9SetReplyHeader (size : UInt32) : WalkM PUnit := do
  seekRead 4
  let (cmd, tag) ← readf decodeCmdTag
  seekWrite fun _ => 0
  writef [.field (.d size), .field (.b (cmd + 1)), .field (.w tag)]

/-- `virtio_p9_error_reply`. -/
def virtioP9ErrorReply (err : Int) : WalkM UInt32 := do
  let err := Server.virtioP9ErrorReply err
  seekWrite fun _ => virtio9pHdrLen
  writef [.field (.d (.ofInt err))]
  let outlen ← replyLength
  seekRead 5
  let tag ← readf decodeTag
  seekWrite fun _ => 0
  writef [.field (.d outlen), .field (.b p9Rlerror), .field (.w tag)]
  pure outlen

variable (malloc : Malloc) (lib : Rebalancer FidNode) (root : CString)
  (env : P9Env) (stats : Nat → Stat)

/-- Reading a name, which ends at its first zero byte. -/
def readName : WalkM (Option CString) := do
  let str ← readf (decodeString malloc)
  fun state =>
    .ok (str.map (List.takeWhile (· ≠ 0)))
      { state with strings := state.strings + 1 }

/-- `stat_rel` with what the host stored. -/
def statRel (path : CString) : WalkM Stat :=
  fun state =>
    let st := stats state.server.asked
    match onServer (Server.statRel root env path) state with
    | .ok _ after => .ok st after
    | .error stop after => .error stop after

/--
The loop of `virtio_p9_walk`, whose counter has eight bits, up to a number
of turns.
-/
def walkLoop (fid newFid : FidNode) (nwname : UInt16) :
    Nat → UInt8 → UInt16 → WalkM UInt16
  | 0, _, _ => throw .endless
  | turns + 1, i, nwqid =>
      if i.toNat < nwname.toNat then do
        let str ← readName malloc
        let object ← onServer (deref newFid)
        let tmp := object.path ++ slash :: printed str
        if tmp.length ≥ pathMax then
          throw (.early (.errno eNameTooLong))
        else
          let st ← statRel root env stats tmp
          let wqid := stat2qid st
          onServer (join newFid tmp)
          let from_ ← onServer (deref fid)
          let joined ← onServer (deref newFid)
          onServer (assign newFid { joined with uid := from_.uid })
          writef [.Q wqid]
          walkLoop fid newFid nwname turns (i + 1) (nwqid + 1)
      else
        pure nwqid

/-- The end of `virtio_p9_walk`; the count is written as a `d`. -/
def finishWalk (nwqid : UInt16) : WalkM UInt32 := do
  let outlen ← replyLength
  seekWrite fun _ => virtio9pHdrLen
  writef [.field (.d nwqid.toUInt32)]
  virtioP9SetReplyHeader outlen
  pure outlen

/-- `virtio_p9_walk` up to its label `err_out`. -/
def walkBody (turns : Nat) : WalkM UInt32 := do
  let (fidVal, newfidVal, nwname) ← readf decodeTwalk
  let newFid ← onServer (getFid lib root env newfidVal)
  if nwname ≠ 0 then
    let fid ← onServer (getFid lib root env fidVal)
    let old ← onServer (deref fid)
    onServer (join newFid old.path)
    seekWrite (· + 2)
    let nwqid ← walkLoop malloc root env stats fid newFid nwname turns 0 0
    finishWalk nwqid
  else
    seekWrite (· + 2)
    let oldFid ← onServer (getFid lib root env fidVal)
    let old ← onServer (deref oldFid)
    onServer (join newFid old.path)
    let joined ← onServer (deref newFid)
    let old ← onServer (deref oldFid)
    onServer (assign newFid { joined with uid := old.uid })
    finishWalk 0

/-- `virtio_p9_walk`; the value is `outlen`. -/
def virtioP9Walk (turns : Nat) : WalkM UInt32 :=
  fun state =>
    match walkBody malloc lib root env stats turns state with
    | .error (.early (.errno number)) after =>
        virtioP9ErrorReply number after
    | outcome => outcome

end Code
/-! ## Steps -/

section Steps

variable {Value Result : Type} {state : WalkState}

theorem onServer_ok {action : P9M Value} {value : Value}
    {server : P9State} (ok : action state.server = .ok value server) :
    onServer action state = .ok value { state with server := server } := by
  rw [onServer, ok]

end Steps

/-! ## Walks that do not end by themselves -/

section Endless

variable {malloc : Malloc} {lib : Rebalancer FidNode} {root : CString}
  {env : P9Env} {stats : Nat → Stat} {Value Result : Type}

/-- The counter is always less than 256. -/
theorem walkLoop_endless {fid newFid : FidNode} {nwname : UInt16}
    (many : 256 ≤ nwname.toNat) (turns : Nat) (i : UInt8) (nwqid : UInt16)
    (state : WalkState) (value : UInt16) (after : WalkState) :
    walkLoop malloc root env stats fid newFid nwname turns i nwqid state ≠
      .ok value after := by
  induction turns generalizing i nwqid state with
  | zero => nofun
  | succ turns induction =>
      have small : i.toNat < 256 := i.toNat_lt
      intro ok
      rw [walkLoop, if_pos (by omega)] at ok
      obtain ⟨str, _, -, ok⟩ := of_bind_ok ok
      obtain ⟨object, _, -, ok⟩ := of_bind_ok ok
      dsimp only at ok
      split at ok
      · cases ok
      · obtain ⟨st, _, -, ok⟩ := of_bind_ok ok
        obtain ⟨_, _, -, ok⟩ := of_bind_ok ok
        obtain ⟨from_, _, -, ok⟩ := of_bind_ok ok
        obtain ⟨joined, _, -, ok⟩ := of_bind_ok ok
        obtain ⟨_, _, -, ok⟩ := of_bind_ok ok
        obtain ⟨_, _, -, ok⟩ := of_bind_ok ok
        exact induction _ _ _ ok

/-- An error reply has a length of at most eleven bytes. -/
theorem virtioP9ErrorReply_short {number : Int} {state after : WalkState}
    {outlen : UInt32}
    (ok : virtioP9ErrorReply number state = .ok outlen after) :
    outlen.toNat ≤ 11 := by
  rw [virtioP9ErrorReply] at ok
  obtain ⟨_, _, seeked, ok⟩ := of_bind_ok ok
  cases seeked
  obtain ⟨_, _, wrote, ok⟩ := of_bind_ok ok
  cases wrote
  obtain ⟨length, _, measured, ok⟩ := of_bind_ok ok
  cases measured
  obtain ⟨_, _, -, ok⟩ := of_bind_ok ok
  obtain ⟨_, _, -, ok⟩ := of_bind_ok ok
  obtain ⟨_, _, -, ok⟩ := of_bind_ok ok
  obtain ⟨_, _, -, ok⟩ := of_bind_ok ok
  cases ok
  have stored :
      ∀ value,
        (store state.pdu.inIov virtio9pHdrLen (toLe 4 value)).2 ≤ 4 := by
    intro value
    rw [(store_spec ..).2.2, toLe_length]
    exact Nat.min_le_left ..
  refine Nat.le_trans (UInt32.toNat_ofNat' .. ▸ Nat.mod_le ..) ?_
  exact Nat.add_le_add_left (stored _) virtio9pHdrLen

theorem walkBody_endless {state told : WalkState} {fid newfid : UInt32}
    {nwname : UInt16} (many : 256 ≤ nwname.toNat)
    (header : readf decodeTwalk state = .ok (fid, newfid, nwname) told)
    (turns : Nat) (value : UInt32) (after : WalkState) :
    walkBody malloc lib root env stats turns state ≠ .ok value after := by
  intro ok
  rw [walkBody, bind_of_ok header] at ok
  obtain ⟨newNode, _, -, ok⟩ := of_bind_ok ok
  have some : nwname ≠ 0 := by
    rintro rfl
    exact absurd many (by decide)
  rw [if_pos some] at ok
  obtain ⟨node, _, -, ok⟩ := of_bind_ok ok
  obtain ⟨old, _, -, ok⟩ := of_bind_ok ok
  obtain ⟨_, _, -, ok⟩ := of_bind_ok ok
  obtain ⟨_, _, -, ok⟩ := of_bind_ok ok
  obtain ⟨nwqid, _, ran, ok⟩ := of_bind_ok ok
  exact walkLoop_endless many turns 0 0 _ nwqid _ ran

end Endless

/-! ## The handler without the reply -/

section Server

variable {malloc : Malloc} {lib : Rebalancer FidNode} {root : CString}
  {env : P9Env} {stats : Nat → Stat} {Value Result Other : Type}

/-- A request without its reply. -/
def messageOf (pdu : P9Pdu) : P9Pdu :=
  { pdu with inIov := [], writeOffset := 0 }

theorem encodeFields_message (pdu : P9Pdu) (fields : List Field) :
    messageOf (encodeFields pdu fields) = messageOf pdu := by
  induction fields generalizing pdu with
  | nil => rfl
  | cons field rest induction =>
      refine (induction (encodeField pdu field)).trans ?_
      cases field <;> rfl

theorem encodeFields_remaining (pdu : P9Pdu) (fields : List Field) :
    (encodeFields pdu fields).remaining = pdu.remaining := by
  have same :
      (messageOf (encodeFields pdu fields)).remaining =
        (messageOf pdu).remaining :=
    congrArg P9Pdu.remaining (encodeFields_message pdu fields)
  exact same

end Server

/-! ## The room of the reply -/

section Room

variable {malloc : Malloc} {lib : Rebalancer FidNode} {root : CString}
  {env : P9Env} {stats : Nat → Stat} {Value : Type}

/-- A part of a walk that leaves the size of the reply as it is. -/
def SameRoom (action : WalkM Value) : Prop :=
  ∀ length,
    Keeps (fun state => state.pdu.inIov.flatten.length = length)
      (fun _ => True) action (fun _ => True)

theorem onServer_room (action : P9M Value) : SameRoom (onServer action) := by
  intro length state start
  rw [onServer]
  split
  · exact ⟨start, trivial⟩
  · exact ⟨start, trivial⟩

theorem readf_room {decode : DecodeM Value}
    (keeps : ∀ state, (decode state).2.pdu.inIov = state.pdu.inIov) :
    SameRoom (readf decode) := by
  intro length state start
  have same :
      (decode ⟨state.pdu, 0, false⟩).2.pdu.inIov.flatten.length =
        length := by
    rw [keeps]
    exact start
  rw [readf]
  split
  · exact ⟨same, trivial⟩
  · exact ⟨same, trivial⟩

theorem writef_room (values : List PduValue) : SameRoom (writef values) :=
  fun _ state start =>
    ⟨(virtioP9PduEncode_filled values 0 state.pdu).room.trans start, trivial⟩

theorem seekWrite_room (place : Nat → Nat) : SameRoom (seekWrite place) :=
  fun _ _ start => ⟨start, trivial⟩

theorem seekRead_room (readOffset : Nat) : SameRoom (seekRead readOffset) :=
  fun _ _ start => ⟨start, trivial⟩

theorem replyLength_room : SameRoom replyLength :=
  fun _ _ start => ⟨start, trivial⟩

theorem decodeString_inIov (state : DecodeState) :
    (decodeString malloc state).2.pdu.inIov = state.pdu.inIov := by
  show (decodeText malloc _ _).2.pdu.inIov = _
  rw [decodeText]
  split
  · split
    · rfl
    · rfl
  · rfl

theorem readName_room : SameRoom (readName malloc) :=
  fun length =>
    (readf_room decodeString_inIov length).bind
      fun _ _ _ start => ⟨start, trivial⟩

theorem statRel_room (path : CString) :
    SameRoom (statRel root env stats path) := by
  intro length state start
  have keeps := onServer_room (Server.statRel root env path) length state start
  rw [statRel]
  split
  case h_1 outcome =>
    rw [outcome] at keeps
    exact keeps
  case h_2 outcome =>
    rw [outcome] at keeps
    exact keeps

theorem walkLoop_room (fid newFid : FidNode) (nwname : UInt16)
    (turns : Nat) (i : UInt8) (nwqid : UInt16) :
    SameRoom
      (walkLoop malloc root env stats fid newFid nwname turns i nwqid) := by
  intro length
  induction turns generalizing i nwqid with
  | zero => exact .throw trivial _
  | succ turns induction =>
      rw [walkLoop]
      refine .ite (fun _ => ?_) fun _ => .pure trivial
      refine (readName_room length).bind fun str _ => ?_
      refine (onServer_room _ length).bind fun object _ => ?_
      refine .ite (fun _ => .throw trivial _) fun _ => ?_
      refine (statRel_room _ length).bind fun st _ => ?_
      refine (onServer_room _ length).bind fun _ _ => ?_
      refine (onServer_room _ length).bind fun from_ _ => ?_
      refine (onServer_room _ length).bind fun joined _ => ?_
      refine (onServer_room _ length).bind fun _ _ => ?_
      refine (writef_room _ length).bind fun _ _ => ?_
      exact induction _ _

theorem virtioP9SetReplyHeader_room (size : UInt32) :
    SameRoom (virtioP9SetReplyHeader size) := by
  intro length
  refine (seekRead_room _ length).bind fun _ _ => ?_
  refine (readf_room (fun _ => rfl) length).bind fun header _ => ?_
  refine (seekWrite_room _ length).bind fun _ _ => ?_
  exact writef_room _ length

theorem virtioP9ErrorReply_room (number : Int) :
    SameRoom (virtioP9ErrorReply number) := by
  intro length
  refine (seekWrite_room _ length).bind fun _ _ => ?_
  refine (writef_room _ length).bind fun _ _ => ?_
  refine (replyLength_room length).bind fun _ _ => ?_
  refine (seekRead_room _ length).bind fun _ _ => ?_
  refine (readf_room (fun _ => rfl) length).bind fun tag _ => ?_
  refine (seekWrite_room _ length).bind fun _ _ => ?_
  exact (writef_room _ length).bind fun _ _ => .pure trivial

theorem finishWalk_room (nwqid : UInt16) : SameRoom (finishWalk nwqid) := by
  intro length
  refine (replyLength_room length).bind fun _ _ => ?_
  refine (seekWrite_room _ length).bind fun _ _ => ?_
  refine (writef_room _ length).bind fun _ _ => ?_
  exact (virtioP9SetReplyHeader_room _ length).bind fun _ _ =>
    .pure trivial

theorem walkBody_room (turns : Nat) :
    SameRoom (walkBody malloc lib root env stats turns) := by
  intro length
  refine (readf_room (fun _ => rfl) length).bind fun header _ => ?_
  refine (onServer_room _ length).bind fun newNode _ => ?_
  refine .ite (fun _ => ?_) fun _ => ?_
  · refine (onServer_room _ length).bind fun node _ => ?_
    refine (onServer_room _ length).bind fun old _ => ?_
    refine (onServer_room _ length).bind fun _ _ => ?_
    refine (seekWrite_room _ length).bind fun _ _ => ?_
    refine (walkLoop_room _ _ _ _ _ _ length).bind fun nwqid _ => ?_
    exact finishWalk_room nwqid length
  · refine (seekWrite_room _ length).bind fun _ _ => ?_
    refine (onServer_room _ length).bind fun node _ => ?_
    refine (onServer_room _ length).bind fun old _ => ?_
    refine (onServer_room _ length).bind fun _ _ => ?_
    refine (onServer_room _ length).bind fun joined _ => ?_
    refine (onServer_room _ length).bind fun source _ => ?_
    refine (onServer_room _ length).bind fun _ _ => ?_
    exact finishWalk_room 0 length

theorem virtioP9Walk_room (turns : Nat) :
    SameRoom (virtioP9Walk malloc lib root env stats turns) := by
  intro length state start
  have room : SameRoom (walkBody malloc lib root env stats turns) :=
    walkBody_room turns
  have keeps := room length state start
  rw [virtioP9Walk]
  split
  case h_1 number after outcome =>
    rw [outcome] at keeps
    exact virtioP9ErrorReply_room number length after keeps.1
  case h_2 => exact keeps

end Room
end Kemu.Virtio.P9.Walk
