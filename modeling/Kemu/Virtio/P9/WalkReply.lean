import Kemu.Virtio.P9.Walk
import Mathlib.Data.List.TakeWhile

/-!
# The reply to a walk

A reply has the number of its qids in two bytes, and the qids behind them.
The four bytes that are written for the number reach into the first qid.
-/

namespace Kemu.Virtio.P9.WalkReply

open Kemu.Lib.Bytes
open Kemu.Lib.Contract
open Kemu.Lib.SearchTree
open Kemu.Virtio.P9.Fid
open Kemu.Virtio.P9.Path
open Kemu.Virtio.P9.Server hiding statRel walkLoop virtioP9Walk
  virtioP9ErrorReply
open Kemu.Virtio.P9.Pdu
open Kemu.Virtio.P9.TableRules
open Kemu.Virtio.P9.Atomicity
open Kemu.Virtio.P9.Walk

/-! ## Requests and their replies -/

/-- The names of a message, as successive reads of it give them. -/
def nameAt (names : List CString) (turn : Nat) : PduString :=
  .text (names.getD turn [])

/-- The qids of some turns on the wire. -/
def qids (stats : Nat → Stat) (turns : Nat) : List UInt8 :=
  (List.range turns).flatMap fun turn => wire (stat2qid (stats turn)).fields

/-- The lookups of some turns. -/
def lookups (root start : CString) (names : List CString) (turns : Nat) :
    List HostCall :=
  (List.range turns).map fun turn =>
    ⟨.lstat, [root ++ slash :: walkedPath start (nameAt names) (turn + 1)]⟩

/-- The names on the wire. -/
def nameFields (names : List CString) : List Field :=
  names.map fun name => .s (some name)

/--
A request to walk some names, whose fids are there and whose lookups all
succeed.
-/
structure Twalk (lib : Rebalancer FidNode) (root : CString) (env : P9Env)
    (state : WalkState) where
  fid : UInt32
  newfid : UInt32
  names : List CString
  /-- What follows the names in the message. -/
  rest : List UInt8
  newNode : FidNode
  node : FidNode
  /-- The table once the new fid is looked up, and then the old one. -/
  between : FidTable
  table : FidTable
  target : P9Fid
  source : P9Fid
  tidy : Tidy root state.server.table
  asked : state.server.asked = 0
  looked : state.server.looked = 0
  strings : state.strings = 0
  writeOffset : state.pdu.writeOffset = virtio9pHdrLen
  counted : names.length < 65536
  message :
    state.pdu.remaining =
      toLe 4 fid.toNat ++
        (toLe 4 newfid.toNat ++
          (toLe 2 names.length ++ (wire (nameFields names) ++ rest)))
  clean : ∀ name ∈ names, (0 : UInt8) ∉ name
  newFid :
    findOrCreateFid lib root (env.calloc 0) state.server.table newfid =
      (between, some newNode)
  oldFid :
    findOrCreateFid lib root (env.calloc 1) between fid =
      (table, some node)
  there : table.heap newNode.obj = some target
  origin : table.heap node.obj = some source
  passes :
    ∀ turn < names.length,
      WalkPasses root env source.path (nameAt names) turn

/-- What the request asks for. -/
structure Walked {lib : Rebalancer FidNode} {root : CString} {env : P9Env}
    (stats : Nat → Stat) {state : WalkState}
    (request : Twalk lib root env state) (outlen : UInt32)
    (after : WalkState) : Prop where
  strings : after.strings = request.names.length
  lookups :
    after.server.calls =
      state.server.calls ++
        lookups root request.source.path request.names
          request.names.length
  body :
    (after.pdu.inIov.flatten.drop virtio9pHdrLen).take
        (2 + 13 * request.names.length) =
      toLe 2 request.names.length ++ qids stats request.names.length
  outlen : outlen.toNat = virtio9pHdrLen + 2 + 13 * request.names.length
  path :
    ∃ object,
      after.server.table.heap request.newNode.obj = some object ∧
        object.path =
          walkedPath request.source.path (nameAt request.names)
            request.names.length
/-! ## Steps -/

section Steps

variable {Value Result : Type} {state : WalkState}

/-- Bytes that are there are read. -/
theorem readf_ok {decode : DecodeM Value} {bytes rest : List UInt8}
    {value : Value} (parses : Parses decode bytes value)
    (starts : state.pdu.remaining = bytes ++ rest) :
    readf decode state =
      .ok value
        { state with
          pdu :=
            { state.pdu with
              readOffset := state.pdu.readOffset + bytes.length } } := by
  have read := parses ⟨state.pdu, 0, false⟩ rest rfl starts
  rw [readf, read]
  rfl

theorem parses_twalk (fid newfid : UInt32) {nwname : Nat}
    (counted : nwname < 65536) :
    Parses decodeTwalk
      (toLe 4 fid.toNat ++ (toLe 4 newfid.toNat ++ toLe 2 nwname))
      (fid, newfid, .ofNat nwname) := by
  refine (parses_d fid).bind ?_
  refine (parses_d newfid).bind ?_
  rw [UInt32.ofNat_toNat, UInt32.ofNat_toNat]
  exact (parses_toLe 2 counted).map _

variable {malloc : Malloc} {lib : Rebalancer FidNode} {root : CString}
  {env : P9Env} {stats : Nat → Stat}

variable (malloc) in
theorem readName_ok {name : CString} {rest : List UInt8}
    (short : name.length < 32768)
    (starts :
      state.pdu.remaining = Field.wire (.s (some name)) ++ rest) :
    ∃ pdu,
      readName malloc state =
          .ok (text (.text name))
            { state with pdu := pdu, strings := state.strings + 1 } ∧
        pdu.remaining = rest ∧ pdu.inIov = state.pdu.inIov ∧
        pdu.writeOffset = state.pdu.writeOffset := by
  refine ⟨_, bind_of_ok (readf_ok (parses_string malloc short) starts),
    ?_, rfl, rfl⟩
  have behind :
      (DecodeState.advance ⟨state.pdu, 0, false⟩ _).pdu.remaining = rest :=
    remaining_advance starts
  exact behind

theorem deref_there {server : P9State} {node : FidNode} {object : P9Fid}
    (there : server.table.heap node.obj = some object) :
    deref node server = .ok object server := by
  rw [deref, there]

variable (state) in
theorem deref_ok {node : FidNode} {object : P9Fid}
    (there : state.server.table.heap node.obj = some object) :
    onServer (deref node) state = .ok object state :=
  onServer_ok (deref_there there)

variable (state) in
theorem join_ok {node : FidNode} {object : P9Fid} {name : CString}
    (there : state.server.table.heap node.obj = some object)
    (room : name.length < pathRoom object) :
    onServer (join node name) state =
      .ok ⟨⟩
        { state with
          server :=
            { state.server with
              table :=
                written state.server.table node (setPath object name) } } := by
  refine onServer_ok ?_
  have joined : joinPath object name = some (setPath object name) :=
    if_neg (Nat.not_le.mpr room)
  rw [join, bind_of_ok (deref_there there), joined]
  rfl

variable (state) in
theorem statRel_ok {path fullPath : CString}
    (formed : getFullPathHelper root path = .ok fullPath)
    (seen : 0 ≤ (env.host state.server.asked).ret) :
    statRel root env stats path state =
      .ok (stats state.server.asked)
        { state with
          server :=
            { state.server with
              calls := state.server.calls ++ [⟨.lstat, [fullPath]⟩]
              asked := state.server.asked + 1 } } := by
  have tried :
      hostTry env .lstat [fullPath] state.server =
        .ok (env.host state.server.asked)
          { state.server with
            calls := state.server.calls ++ [⟨.lstat, [fullPath]⟩]
            asked := state.server.asked + 1 } := by
    show
      (if (env.host state.server.asked).ret < 0 then
          throw (.errno (env.host state.server.asked).errno)
        else
          pure (env.host state.server.asked) : P9M HostAnswer) _ = _
    rw [if_neg (Int.not_lt.mpr seen)]
    rfl
  have ran :
      onServer (Server.statRel root env path) state = _ :=
    onServer_ok (by rw [Server.statRel, formed]; exact tried)
  rw [statRel, ran]

theorem wire_qid_length (qid : P9Qid) : (wire qid.fields).length = 13 := by
  simp [wire, P9Qid.fields, Field.wire]

theorem qids_succ (stats : Nat → Stat) (turns : Nat) :
    qids stats (turns + 1) =
      qids stats turns ++ wire (stat2qid (stats turns)).fields := by
  rw [qids, List.range_succ, List.flatMap_append, List.flatMap_singleton,
    qids]

theorem qids_length (stats : Nat → Stat) (turns : Nat) :
    (qids stats turns).length = 13 * turns := by
  induction turns with
  | zero => rfl
  | succ turns induction =>
      rw [qids_succ, List.length_append, induction, wire_qid_length]
      omega

end Steps
/-! ## Turns -/

section Turns

variable {malloc : Malloc} {lib : Rebalancer FidNode} {root : CString}
  {env : P9Env} {stats : Nat → Stat} {state : WalkState}
  (request : Twalk lib root env state)

/-- The state after some turns of the loop. -/
structure Reached (stats : Nat → Stat) (turn : Nat) (now : WalkState) :
    Prop where
  object :
    ∃ cur,
      now.server.table.heap request.newNode.obj = some cur ∧
        Shaped root cur ∧
        cur.path =
          walkedPath request.source.path (nameAt request.names) turn
  origin : ∃ cur, now.server.table.heap request.node.obj = some cur
  asked : now.server.asked = turn
  lookups :
    now.server.calls =
      state.server.calls ++
        lookups root request.source.path request.names turn
  message :
    now.pdu.remaining =
      wire (nameFields (request.names.drop turn)) ++ request.rest
  reply :
    now.pdu.inIov.flatten =
      patch state.pdu.inIov.flatten (virtio9pHdrLen + 2)
        (qids stats turn)
  offset : now.pdu.writeOffset = virtio9pHdrLen + 2 + 13 * turn
  strings : now.strings = turn

/-- A name is looked up as it is in the message. -/
theorem Twalk.printed_name {turn : Nat}
    (within : turn < request.names.length) :
    printed (text (nameAt request.names turn)) = request.names[turn] := by
  have all :
      request.names[turn].takeWhile (· ≠ 0) = request.names[turn] := by
    refine List.takeWhile_eq_self_iff.mpr fun byte member => ?_
    have clean := request.clean _ (List.getElem_mem within)
    exact decide_eq_true fun zero => clean (zero ▸ member)
  rw [nameAt, List.getD_eq_getElem _ _ within, text, printed, all]

/-- A name whose lookup succeeds is not too long to be read. -/
theorem Twalk.short {turn : Nat} (within : turn < request.names.length) :
    request.names[turn].length < 32768 := by
  obtain ⟨fullPath, formed⟩ := (request.passes turn within).fits
  have bound := length_of_getFullPathHelper formed
  rw [walkedPath, request.printed_name within, List.length_append,
    List.length_cons] at bound
  have small : pathMax = 4096 := rfl
  omega

/-- Writing the qid of a turn. -/
theorem writef_qid {turn : Nat} (now : WalkState)
    (room :
      virtio9pHdrLen + 2 + 13 * (turn + 1) ≤
        state.pdu.inIov.flatten.length)
    (reply :
      now.pdu.inIov.flatten =
        patch state.pdu.inIov.flatten (virtio9pHdrLen + 2)
          (qids stats turn))
    (offset : now.pdu.writeOffset = virtio9pHdrLen + 2 + 13 * turn) :
    ∃ pdu,
      writef [.Q (stat2qid (stats turn))] now =
          .ok ⟨⟩ { now with pdu := pdu } ∧
        pdu.remaining = now.pdu.remaining ∧
        pdu.inIov.flatten =
          patch state.pdu.inIov.flatten (virtio9pHdrLen + 2)
            (qids stats (turn + 1)) ∧
        pdu.writeOffset = virtio9pHdrLen + 2 + 13 * (turn + 1) := by
  have length := wire_qid_length (stat2qid (stats turn))
  have fits :
      now.pdu.writeOffset +
          (wire
            ([PduValue.Q (stat2qid (stats turn))].flatMap
              PduValue.fields)).length ≤
        now.pdu.inIov.flatten.length := by
    rw [List.flatMap_singleton, PduValue.fields, length, offset, reply,
      patch_length]
    omega
  obtain ⟨bytes, moved⟩ := virtioP9PduEncode_wrote fits 0
  rw [List.flatMap_singleton, PduValue.fields] at bytes moved
  refine ⟨_, rfl, ?_, bytes.trans ?_, moved.trans ?_⟩
  · exact encodeFields_remaining now.pdu (stat2qid (stats turn)).fields
  · rw [reply, offset, qids_succ]
    have behind :
        virtio9pHdrLen + 2 + 13 * turn =
          virtio9pHdrLen + 2 + (qids stats turn).length := by
      rw [qids_length]
    rw [behind, patch_patch]
    rw [qids_length]
    omega
  · rw [offset, length]
    omega

/-- An object stays there when another one is written. -/
theorem written_there {table : FidTable} {other : FidNode}
    (node : FidNode) (new : P9Fid)
    (there : ∃ cur, table.heap other.obj = some cur) :
    ∃ cur, (written table node new).heap other.obj = some cur := by
  obtain ⟨cur, present⟩ := there
  by_cases same : other.obj = node.obj
  · refine ⟨new, ?_⟩
    rw [same]
    exact Function.update_self ..
  · exact ⟨cur, (Function.update_of_ne same ..).trans present⟩

variable (malloc) in
/-- One turn looks the next name up and appends its qid. -/
theorem walkLoop_turn
    (room :
      virtio9pHdrLen + 2 + 13 * request.names.length ≤
        state.pdu.inIov.flatten.length)
    (few : request.names.length < 256) {turn : Nat}
    (within : turn < request.names.length) {now : WalkState}
    (reached : Reached request stats turn now) (turns : Nat) :
    ∃ next,
      walkLoop malloc root env stats request.node request.newNode
            (.ofNat request.names.length) (turns + 1) (.ofNat turn)
            (.ofNat turn) now =
          walkLoop malloc root env stats request.node request.newNode
            (.ofNat request.names.length) turns (.ofNat (turn + 1))
            (.ofNat (turn + 1)) next ∧
        Reached request stats (turn + 1) next := by
  have passes := request.passes turn within
  obtain ⟨fullPath, formed⟩ := passes.fits
  have bound := length_of_getFullPathHelper formed
  obtain ⟨cur, there, shaped, path⟩ := reached.object
  have counter :
      (UInt8.ofNat turn).toNat <
        (UInt16.ofNat request.names.length).toNat := by
    rw [UInt8.toNat_ofNat', UInt16.toNat_ofNat']
    omega
  have first :
      now.pdu.remaining =
        Field.wire (.s (some request.names[turn])) ++
          (wire (nameFields (request.names.drop (turn + 1))) ++
            request.rest) := by
    rw [reached.message, List.drop_eq_getElem_cons within, nameFields,
      List.map_cons, wire_cons, List.append_assoc]
    rfl
  obtain ⟨read, named, remaining, inIov, offset⟩ :=
    readName_ok malloc (request.short within) first
  have tmp :
      cur.path ++ slash :: printed (text (.text request.names[turn])) =
        walkedPath request.source.path (nameAt request.names)
          (turn + 1) := by
    rw [walkedPath, path, nameAt, List.getD_eq_getElem _ _ within]
  have fits :
      (walkedPath request.source.path (nameAt request.names)
        (turn + 1)).length < pathRoom cur := by
    rw [pathRoom, shaped.offset]
    omega
  have seen : 0 ≤ (env.host now.server.asked).ret := by
    rw [reached.asked]
    exact passes.seen
  let extended : P9Fid :=
    setPath cur
      (walkedPath request.source.path (nameAt request.names) (turn + 1))
  have joined : Shaped root extended := shaped.setPath fits
  obtain ⟨from_, origin⟩ :=
    written_there request.newNode extended reached.origin
  have readReply :
      read.inIov.flatten =
        patch state.pdu.inIov.flatten (virtio9pHdrLen + 2)
          (qids stats turn) := by
    rw [inIov, reached.reply]
  -- the state after the name, the lookup, `join_path` and the user
  let told : WalkState :=
    { now with pdu := read, strings := now.strings + 1 }
  let looked : WalkState :=
    { told with
      server :=
        { now.server with
          calls := now.server.calls ++ [⟨.lstat, [fullPath]⟩]
          asked := now.server.asked + 1 } }
  let walked : WalkState :=
    { looked with
      server :=
        { looked.server with
          table := written now.server.table request.newNode extended } }
  let owned : WalkState :=
    { walked with
      server :=
        { walked.server with
          table :=
            written walked.server.table request.newNode
              { extended with uid := from_.uid } } }
  obtain ⟨pdu, wrote, rest, reply, moved⟩ :=
    writef_qid owned (by omega) readReply (offset.trans reached.offset)
  refine ⟨{ owned with pdu := pdu }, ?_, ?_⟩
  · rw [walkLoop, if_pos counter]
    refine (bind_of_ok named).trans ?_
    refine (bind_of_ok (deref_ok told there)).trans ?_
    rw [tmp, if_neg (by omega)]
    refine (bind_of_ok (statRel_ok told formed seen)).trans ?_
    refine (bind_of_ok (join_ok looked there fits)).trans ?_
    refine (bind_of_ok (deref_ok walked origin)).trans ?_
    refine
      (bind_of_ok (deref_ok walked (Function.update_self ..))).trans ?_
    have assigned :
        onServer (assign request.newNode { extended with uid := from_.uid })
          walked = .ok ⟨⟩ owned :=
      rfl
    refine (bind_of_ok assigned).trans ?_
    have index : stats now.server.asked = stats turn := by
      rw [reached.asked]
    rw [index]
    refine (bind_of_ok wrote).trans ?_
    rw [UInt8.ofNat_add, UInt16.ofNat_add]
    rfl
  · have root_path := (getFullPathHelper_eq_ok formed).1
    constructor
    · exact ⟨_, Function.update_self .., joined.congr from_.uid _ _,
        shaped.path_setPath _⟩
    · exact written_there _ _ ⟨from_, origin⟩
    · exact congrArg (· + 1) reached.asked
    · show now.server.calls ++ _ = _
      rw [reached.lookups, List.append_assoc, lookups, lookups,
        List.range_succ, List.map_append, List.map_singleton, root_path]
    · exact rest.trans remaining
    · exact reply
    · exact moved
    · exact congrArg (· + 1) reached.strings

variable (malloc) in
/-- The loop reads all the names and ends. -/
theorem walkLoop_runs
    (room :
      virtio9pHdrLen + 2 + 13 * request.names.length ≤
        state.pdu.inIov.flatten.length)
    (few : request.names.length < 256) (turns : Nat) {turn : Nat}
    (within : turn ≤ request.names.length)
    (many : request.names.length < turn + turns) {now : WalkState}
    (reached : Reached request stats turn now) :
    ∃ after,
      walkLoop malloc root env stats request.node request.newNode
            (.ofNat request.names.length) turns (.ofNat turn)
            (.ofNat turn) now =
          .ok (.ofNat request.names.length) after ∧
        Reached request stats request.names.length after := by
  induction turns generalizing turn now with
  | zero => omega
  | succ turns induction =>
      by_cases more : turn < request.names.length
      · obtain ⟨next, same, reachedNext⟩ :=
          walkLoop_turn malloc request room few more reached turns
        obtain ⟨after, ran, ends⟩ :=
          induction (Nat.succ_le_of_lt more) (by omega) reachedNext
        exact ⟨after, same.trans ran, ends⟩
      · have all : turn = request.names.length := by omega
        subst all
        refine ⟨now, ?_, reached⟩
        have done :
            ¬ (UInt8.ofNat request.names.length).toNat <
              (UInt16.ofNat request.names.length).toNat := by
          rw [UInt8.toNat_ofNat', UInt16.toNat_ofNat']
          omega
        rw [walkLoop, if_neg done]
        rfl

/-- The header is all that its writing changes. -/
theorem virtioP9SetReplyHeader_ok (size : UInt32) (now : WalkState)
    (room : virtio9pHdrLen ≤ now.pdu.inIov.flatten.length) :
    ∃ pdu,
      virtioP9SetReplyHeader size now = .ok ⟨⟩ { now with pdu := pdu } ∧
        pdu.inIov.flatten.drop virtio9pHdrLen =
          now.pdu.inIov.flatten.drop virtio9pHdrLen := by
  obtain ⟨read, told, inIov⟩ :
      ∃ read, readf decodeCmdTag
            { now with pdu := { now.pdu with readOffset := 4 } } =
          .ok read.1 { now with pdu := read.2 } ∧
        read.2.inIov = now.pdu.inIov :=
    ⟨(_, _), rfl, rfl⟩
  let header : List PduValue :=
    [.field (.d size), .field (.b (read.1.1 + 1)), .field (.w read.1.2)]
  have length :
      (wire (header.flatMap PduValue.fields)).length = virtio9pHdrLen := by
    simp [header, wire, PduValue.fields, Field.wire, virtio9pHdrLen]
  let start : P9Pdu := { read.2 with writeOffset := 0 }
  have fits :
      start.writeOffset + (wire (header.flatMap PduValue.fields)).length ≤
        start.inIov.flatten.length := by
    show 0 + _ ≤ read.2.inIov.flatten.length
    rw [length, inIov, Nat.zero_add]
    exact room
  obtain ⟨bytes, -⟩ := virtioP9PduEncode_wrote fits 0
  refine ⟨(virtioP9PduWritef start header).2, ?_, ?_⟩
  · show
      (readf decodeCmdTag >>= fun header => do
          seekWrite fun _ => 0
          writef
            [.field (.d size), .field (.b (header.1 + 1)),
              .field (.w header.2)])
        { now with pdu := { now.pdu with readOffset := 4 } } = _
    exact bind_of_ok told
  · rw [virtioP9PduWritef, bytes, patch_drop]
    · show read.2.inIov.flatten.drop _ = _
      rw [inIov]
    · show 0 + _ ≤ virtio9pHdrLen
      rw [length, Nat.zero_add]

/-- The count goes over the place for it and the two bytes behind. -/
theorem finishWalk_ok (nwqid : UInt16) (now : WalkState)
    (room : virtio9pHdrLen ≤ now.pdu.inIov.flatten.length) :
    ∃ pdu,
      finishWalk nwqid now =
          .ok (.ofNat now.pdu.writeOffset) { now with pdu := pdu } ∧
        pdu.inIov.flatten.drop virtio9pHdrLen =
          (patch now.pdu.inIov.flatten virtio9pHdrLen
              (toLe 4 nwqid.toNat)).drop virtio9pHdrLen := by
  let counted : P9Pdu :=
    virtioP9PduWrite { now.pdu with writeOffset := virtio9pHdrLen }
      (toLe 4 nwqid.toUInt32.toNat)
  have stored :
      counted.inIov.flatten =
        patch now.pdu.inIov.flatten virtio9pHdrLen (toLe 4 nwqid.toNat) := by
    rw [← UInt16.toNat_toUInt32]
    exact (store_spec ..).1
  obtain ⟨pdu, ran, same⟩ :=
    virtioP9SetReplyHeader_ok (.ofNat now.pdu.writeOffset)
      { now with pdu := counted } (by
        show _ ≤ counted.inIov.flatten.length
        rw [stored, patch_length]
        exact room)
  refine ⟨pdu, ?_, ?_⟩
  · show
      (virtioP9SetReplyHeader (.ofNat now.pdu.writeOffset) >>=
          fun _ => pure (UInt32.ofNat now.pdu.writeOffset))
        { now with pdu := counted } = _
    exact bind_of_ok ran
  · rw [same, stored]

/-- The table stays tidy while the fids are looked up. -/
theorem Twalk.tidy_table : Tidy root request.table := by
  have reading : Reading lib root (Tidy root) := tidy_reading
  have first :=
    reading (env.calloc 0) state.server.table request.newfid request.tidy
  rw [request.newFid] at first
  have second := reading (env.calloc 1) request.between request.fid first
  rw [request.oldFid] at second
  exact second

/-- The numbers of a walk, which take ten bytes, and what is behind. -/
theorem Twalk.starts :
    state.pdu.remaining =
      (toLe 4 request.fid.toNat ++
          (toLe 4 request.newfid.toNat ++ toLe 2 request.names.length)) ++
        (wire (nameFields request.names) ++ request.rest) := by
  rw [request.message, List.append_assoc, List.append_assoc]

/-- The state in which the turns start. -/
def Twalk.started : WalkState where
  server :=
    { state.server with
      table :=
        written request.table request.newNode
          (setPath request.target request.source.path)
      looked := state.server.looked + 1 + 1 }
  pdu :=
    { state.pdu with
      readOffset := state.pdu.readOffset + 10
      writeOffset := state.pdu.writeOffset + 2 }
  strings := state.strings

theorem Twalk.room_target :
    request.source.path.length < pathRoom request.target := by
  have tidy := request.tidy_table
  have source := (tidy.shaped _ _ request.origin).path_length
  rw [pathRoom, (tidy.shaped _ _ request.there).offset]
  exact source

theorem Twalk.reached : Reached request stats 0 request.started where
  object := by
    have shaped := request.tidy_table.shaped _ _ request.there
    exact ⟨_, Function.update_self .., shaped.setPath request.room_target,
      shaped.path_setPath _⟩
  origin := written_there _ _ ⟨_, request.origin⟩
  asked := request.asked
  lookups := (List.append_nil _).symm
  message := by
    have behind :
        (DecodeState.advance ⟨state.pdu, 0, false⟩ _).pdu.remaining = _ :=
      remaining_advance request.starts
    simp only [List.length_append, toLe_length] at behind
    exact behind
  reply := (patch_nil _ _).symm
  offset := congrArg (· + 2) request.writeOffset
  strings := request.strings

variable (malloc stats) in
/-- The walk up to its end, when its loop ends by itself. -/
theorem walkBody_runs
    (room :
      virtio9pHdrLen + 2 + 13 * request.names.length ≤
        state.pdu.inIov.flatten.length)
    (few : request.names.length < 256) {turns : Nat}
    (many : request.names.length < turns) :
    ∃ now,
      Reached request stats request.names.length now ∧
        walkBody malloc lib root env stats turns state =
          finishWalk (.ofNat request.names.length) now := by
  have header :
      readf decodeTwalk state =
        .ok (request.fid, request.newfid, .ofNat request.names.length)
          { state with
            pdu :=
              { state.pdu with
                readOffset := state.pdu.readOffset + 10 } } := by
    have read :=
      readf_ok (parses_twalk request.fid request.newfid request.counted)
        request.starts
    simpa only [List.length_append, toLe_length] using read
  let told : WalkState :=
    { state with
      pdu := { state.pdu with readOffset := state.pdu.readOffset + 10 } }
  let found : WalkState :=
    { told with
      server :=
        { state.server with
          table := request.between
          looked := state.server.looked + 1 } }
  let both : WalkState :=
    { found with
      server :=
        { found.server with
          table := request.table
          looked := state.server.looked + 1 + 1 } }
  have newFid :
      onServer (getFid lib root env request.newfid) told =
        .ok request.newNode found := by
    refine onServer_ok (getFid_of_some ?_)
    show findOrCreateFid lib root (env.calloc state.server.looked) _ _ = _
    rw [request.looked]
    exact request.newFid
  have oldFid (pdu : P9Pdu) :
      onServer (getFid lib root env request.fid) { found with pdu := pdu } =
        .ok request.node { both with pdu := pdu } := by
    refine onServer_ok (getFid_of_some ?_)
    show
      findOrCreateFid lib root (env.calloc (state.server.looked + 1)) _ _ =
        _
    rw [request.looked]
    exact request.oldFid
  rw [walkBody, bind_of_ok header]
  by_cases none : request.names.length = 0
  · let skipped (now : WalkState) : WalkState :=
      { now with
        pdu := { now.pdu with writeOffset := now.pdu.writeOffset + 2 } }
    have start : Reached request stats 0 request.started := request.reached
    obtain ⟨from_, origin⟩ := start.origin
    obtain ⟨cur, there, shaped, path⟩ := start.object
    let owned : WalkState :=
      { request.started with
        server :=
          { request.started.server with
            table :=
              written request.started.server.table request.newNode
                { cur with uid := from_.uid } } }
    have reached : Reached request stats 0 owned :=
      { start with
        object :=
          ⟨_, Function.update_self .., shaped.congr from_.uid _ _, path⟩
        origin := written_there _ _ ⟨from_, origin⟩ }
    rw [none]
    refine ⟨owned, reached, ?_⟩
    refine (bind_of_ok newFid).trans ?_
    have zero : ¬ UInt16.ofNat 0 ≠ 0 := by decide
    rw [if_neg zero]
    refine (bind_of_ok (oldFid (skipped told).pdu)).trans ?_
    refine (bind_of_ok (deref_ok (skipped both) request.origin)).trans ?_
    refine
      (bind_of_ok
        (join_ok (skipped both) request.there request.room_target)).trans ?_
    refine (bind_of_ok (deref_ok request.started there)).trans ?_
    exact bind_of_ok (deref_ok request.started origin)
  · have some : UInt16.ofNat request.names.length ≠ 0 := by
      intro zero
      have same := congrArg UInt16.toNat zero
      rw [UInt16.toNat_ofNat', UInt16.toNat_zero] at same
      have counted := request.counted
      omega
    obtain ⟨now, ran, reached⟩ :=
      walkLoop_runs malloc request room few turns (Nat.zero_le _)
        (by omega) request.reached
    refine ⟨now, reached, ?_⟩
    refine (bind_of_ok newFid).trans ?_
    rw [if_pos some]
    refine (bind_of_ok (oldFid told.pdu)).trans ?_
    refine (bind_of_ok (deref_ok both request.origin)).trans ?_
    refine
      (bind_of_ok (join_ok both request.there request.room_target)).trans
        ?_
    exact bind_of_ok ran

end Turns
/-! ## When the reply is right -/

section Reply

variable {lib : Rebalancer FidNode} {root : CString} {env : P9Env}
  {stats : Nat → Stat} {state : WalkState}

/-- The first two bytes of a qid are its type and a part of its version. -/
theorem take_two_qid (qid : P9Qid) (rest : List UInt8) :
    (wire qid.fields ++ rest).take 2 =
      [qid.type, .ofNat qid.version.toNat] :=
  rfl

theorem toLe_four_small {value : Nat} (small : value < 65536) :
    toLe 4 value = toLe 2 value ++ [0, 0] := by
  have third : value / 256 / 256 = 0 := by omega
  simp [toLe, third]

theorem qid_zero_iff (st : Stat) :
    [(stat2qid st).type, .ofNat (stat2qid st).version.toNat] =
        ([0, 0] : List UInt8) ↔
      sIsDir st.stMode = false ∧
        (stat2qid st).version.toNat % 256 = 0 := by
  have byte (value : Nat) :
      UInt8.ofNat value = 0 ↔ value % 256 = 0 := by
    rw [← UInt8.toNat_inj, UInt8.toNat_ofNat']
    rfl
  have directory :
      (stat2qid st).type = 0 ↔ sIsDir st.stMode = false := by
    have type :
        (stat2qid st).type = if sIsDir st.stMode then p9QtDir else 0 :=
      rfl
    rw [type]
    cases sIsDir st.stMode with
    | false => decide
    | true => decide
  rw [List.cons_eq_cons, List.cons_eq_cons, directory, byte]
  exact and_congr_right fun _ => and_iff_left rfl

/-- Two zeros instead of the first two bytes. -/
theorem overwritten_iff {bytes : List UInt8} :
    [0, 0] ++ bytes.drop 2 = bytes ↔ bytes.take 2 = [0, 0] := by
  constructor
  · intro same
    rw [← same]
    rfl
  · intro zero
    have whole := List.take_append_drop 2 bytes
    rw [zero] at whole
    exact whole

theorem qids_head (stats : Nat → Stat) (turns : Nat) :
    (qids stats (turns + 1)).take 2 =
      [(stat2qid (stats 0)).type,
        .ofNat (stat2qid (stats 0)).version.toNat] := by
  rw [qids, List.range_succ_eq_map, List.flatMap_cons]
  exact take_two_qid _ _

/-- Behind the count its last two bytes, and what they leave of the qids. -/
theorem counted_qids {bytes : List UInt8} {turns : Nat}
    (room : virtio9pHdrLen + 2 + 13 * (turns + 1) ≤ bytes.length)
    (counted : turns + 1 < 65536) :
    ((patch
            (patch bytes (virtio9pHdrLen + 2) (qids stats (turns + 1)))
            virtio9pHdrLen (toLe 4 (turns + 1))).drop virtio9pHdrLen).take
          (2 + 13 * (turns + 1)) =
      toLe 2 (turns + 1) ++ ([0, 0] ++ (qids stats (turns + 1)).drop 2) := by
  have few : 2 ≤ (qids stats (turns + 1)).length := by
    rw [qids_length]
    omega
  have behind :
      (patch bytes (virtio9pHdrLen + 2) (qids stats (turns + 1))).drop
          (virtio9pHdrLen + 4) =
        (qids stats (turns + 1)).drop 2 ++
          bytes.drop (virtio9pHdrLen + 2 + 13 * (turns + 1)) := by
    have start :=
      patch_drop_self
        (by
          rw [qids_length]
          omega :
          virtio9pHdrLen + 2 + (qids stats (turns + 1)).length ≤
            bytes.length)
    rw [qids_length] at start
    have split : virtio9pHdrLen + 4 = virtio9pHdrLen + 2 + 2 := rfl
    rw [split, ← List.drop_drop, start, List.drop_append_of_le_length few]
  rw [patch_drop_self (by rw [patch_length, toLe_length]; omega),
    toLe_length, behind, toLe_four_small counted]
  have regroup :
      toLe 2 (turns + 1) ++ [0, 0] ++
          ((qids stats (turns + 1)).drop 2 ++
            bytes.drop (virtio9pHdrLen + 2 + 13 * (turns + 1))) =
        (toLe 2 (turns + 1) ++
            ([0, 0] ++ (qids stats (turns + 1)).drop 2)) ++
          bytes.drop (virtio9pHdrLen + 2 + 13 * (turns + 1)) := by
    simp only [List.append_assoc]
  have length :
      (toLe 2 (turns + 1) ++
          ([0, 0] ++ (qids stats (turns + 1)).drop 2)).length =
        2 + 13 * (turns + 1) := by
    simp only [List.length_append, List.length_drop, toLe_length,
      qids_length, List.length_cons, List.length_nil]
    omega
  rw [regroup, List.take_left' length]

/--
The count spares the first qid if and only if the bytes it writes there are
what they were.
-/
theorem body_iff {bytes : List UInt8} {turns : Nat}
    (room : virtio9pHdrLen + 2 + 13 * turns ≤ bytes.length)
    (counted : turns < 65536) :
    ((patch (patch bytes (virtio9pHdrLen + 2) (qids stats turns))
            virtio9pHdrLen (toLe 4 turns)).drop virtio9pHdrLen).take
          (2 + 13 * turns) =
        toLe 2 turns ++ qids stats turns ↔
      (turns ≠ 0 →
        sIsDir (stats 0).stMode = false ∧
          (stat2qid (stats 0)).version.toNat % 256 = 0) := by
  cases turns with
  | zero =>
      refine iff_of_true ?_ fun some => absurd rfl some
      have none : qids stats 0 = [] := rfl
      have fits : 2 ≤ (toLe 4 0).length := by decide
      rw [none, patch_nil, patch_drop_take fits (by omega)]
      rfl
  | succ turns =>
      rw [counted_qids room counted, List.append_right_inj, overwritten_iff,
        qids_head, qid_zero_iff]
      exact ⟨fun zero _ => zero, fun zero => zero (Nat.succ_ne_zero _)⟩

variable (malloc : Malloc)

/-- A reply that is right has room for itself. -/
theorem Walked.room {request : Twalk lib root env state} {turns : Nat}
    {outlen : UInt32} {after : WalkState}
    (ran :
      virtioP9Walk malloc lib root env stats turns state =
        .ok outlen after)
    (walked : Walked stats request outlen after) :
    virtio9pHdrLen + 2 + 13 * request.names.length ≤
      state.pdu.inIov.flatten.length := by
  have same : SameRoom (virtioP9Walk malloc lib root env stats turns) :=
    virtioP9Walk_room turns
  have keeps := same _ state rfl
  rw [ran] at keeps
  have lengths := congrArg List.length walked.body
  rw [List.length_take, List.length_drop, List.length_append, toLe_length,
    qids_length, keeps.1] at lengths
  omega

/-- A walk of 256 names or more has no reply but that to an error. -/
theorem Walked.few {request : Twalk lib root env state} {turns : Nat}
    {outlen : UInt32} {after : WalkState}
    (ran :
      virtioP9Walk malloc lib root env stats turns state =
        .ok outlen after)
    (walked : Walked stats request outlen after) :
    request.names.length < 256 := by
  by_contra many
  have counted : (UInt16.ofNat request.names.length).toNat =
      request.names.length := by
    rw [UInt16.toNat_ofNat', Nat.mod_eq_of_lt request.counted]
  have header :=
    readf_ok (parses_twalk request.fid request.newfid request.counted)
      request.starts
  rw [virtioP9Walk] at ran
  split at ran
  case h_1 number _ _ =>
    have short := virtioP9ErrorReply_short ran
    rw [walked.outlen] at short
    omega
  case h_2 =>
    exact walkBody_endless (by omega) header turns outlen after ran

variable (stats) in
/-- The whole walk, when it has room and ends by itself. -/
theorem virtioP9Walk_runs (request : Twalk lib root env state)
    {turns : Nat} (many : pathMax < turns)
    (room :
      virtio9pHdrLen + 2 + 13 * request.names.length ≤
        state.pdu.inIov.flatten.length)
    (few : request.names.length < 256) :
    ∃ now pdu,
      Reached request stats request.names.length now ∧
        virtioP9Walk malloc lib root env stats turns state =
          .ok (.ofNat now.pdu.writeOffset) { now with pdu := pdu } ∧
        pdu.inIov.flatten.drop virtio9pHdrLen =
          (patch
              (patch state.pdu.inIov.flatten (virtio9pHdrLen + 2)
                (qids stats request.names.length))
              virtio9pHdrLen
              (toLe 4 request.names.length)).drop virtio9pHdrLen := by
  have small : pathMax = 4096 := rfl
  obtain ⟨now, reached, ran⟩ :=
    walkBody_runs malloc stats request room few (by omega : _ < turns)
  obtain ⟨pdu, finished, bytes⟩ :=
    finishWalk_ok (.ofNat request.names.length) now (by
      rw [reached.reply, patch_length]
      omega)
  refine ⟨now, pdu, reached, ?_, ?_⟩
  · rw [virtioP9Walk, ran, finished]
  · rw [bytes, reached.reply, UInt16.toNat_ofNat',
      Nat.mod_eq_of_lt request.counted]

/--
The reply to a walk is as asked for if and only if it fits into the buffers,
there are fewer than 256 names, and the first qid has zeros where the count
is written over it: it is not that of a directory, and the lowest byte of
its version is zero.
-/
theorem virtioP9Walk_replies_iff (request : Twalk lib root env state)
    {turns : Nat} (many : pathMax < turns) :
    (∃ outlen after,
        virtioP9Walk malloc lib root env stats turns state =
            .ok outlen after ∧
          Walked stats request outlen after) ↔
      virtio9pHdrLen + 2 + 13 * request.names.length ≤
          state.pdu.inIov.flatten.length ∧
        request.names.length < 256 ∧
        (request.names.length ≠ 0 →
          sIsDir (stats 0).stMode = false ∧
            (stat2qid (stats 0)).version.toNat % 256 = 0) := by
  constructor
  · rintro ⟨outlen, after, ran, walked⟩
    have room := walked.room malloc ran
    have few := walked.few malloc ran
    obtain ⟨now, pdu, -, same, bytes⟩ :=
      virtioP9Walk_runs stats malloc request many room few
    rw [ran] at same
    cases same
    have body := walked.body
    rw [bytes, body_iff room request.counted] at body
    exact ⟨room, few, body⟩
  · rintro ⟨room, few, zero⟩
    obtain ⟨now, pdu, reached, ran, bytes⟩ :=
      virtioP9Walk_runs stats malloc request many room few
    refine ⟨_, _, ran, reached.strings, reached.lookups, ?_, ?_, ?_⟩
    · rw [bytes, body_iff room request.counted]
      exact zero
    · have header : virtio9pHdrLen = 7 := rfl
      rw [reached.offset, UInt32.toNat_ofNat']
      exact Nat.mod_eq_of_lt (by omega)
    · obtain ⟨cur, there, -, path⟩ := reached.object
      exact ⟨cur, there, path⟩

end Reply

/-- A request to walk the name `a` from fid 0 to fid 1, and 22 bytes. -/
def walkToA : WalkState where
  server := p9Start
  pdu :=
    { outIov :=
        [[20, 0, 0, 0, 110, 1, 0] ++ [0, 0, 0, 0] ++ [1, 0, 0, 0] ++
          [1, 0] ++ [1, 0, 97]]
      inIov := [List.replicate 22 0xff]
      readOffset := virtio9pHdrLen
      writeOffset := virtio9pHdrLen
      stack := fun _ => 0 }
  strings := 0

/-- A host on which everything has the same mode and time. -/
def statOf (stMode : UInt32) (stMtime : Int64) : Nat → Stat :=
  fun _ => ⟨5, stMtime, stMode⟩

/-- The root directory is walked from. -/
def requestToA : Twalk (.plain _) [47] (answering 0 0) walkToA where
  fid := 0
  newfid := 1
  names := [[97]]
  rest := []
  newNode := ⟨1, 0⟩
  node := ⟨0, 1⟩
  between := (findOrCreateFid (.plain _) [47] true .empty 1).1
  table :=
    (findOrCreateFid (.plain _) [47] true
      (findOrCreateFid (.plain _) [47] true .empty 1).1 0).1
  target := Fid.newFid [47] 1
  source := Fid.newFid [47] 0
  tidy := ⟨fun _ _ => rfl, nofun⟩
  asked := rfl
  looked := rfl
  strings := rfl
  writeOffset := rfl
  counted := by decide
  message := rfl
  clean := by decide
  newFid := rfl
  oldFid := rfl
  there := rfl
  origin := rfl
  passes := by
    intro turn within
    obtain rfl : turn = 0 := Nat.lt_one_iff.mp within
    exact ⟨⟨[47, 47, 47, 97], rfl⟩, by decide⟩

/-- A file whose time ends in a byte of zero is walked to. -/
theorem virtioP9Walk_replies_on_file :
    ∃ outlen after,
      virtioP9Walk plainMalloc (.plain _) [47] (answering 0 0)
          (statOf 0o100644 0x10200) 4097 walkToA = .ok outlen after ∧
        Walked (statOf 0o100644 0x10200) requestToA outlen after :=
  (virtioP9Walk_replies_iff plainMalloc requestToA (by decide)).mpr
    ⟨by decide, by decide, fun _ => by decide⟩

/-- The length and the bytes of a reply. -/
def replyOf : EStateM.Result WalkStop WalkState UInt32 →
    Option (UInt32 × List UInt8)
  | .ok outlen after => some (outlen, after.pdu.inIov.flatten)
  | .error _ _ => none

/--
The qid of a directory has the type 0x80, and its version ends in the byte
3: in the reply there are zeros.
-/
theorem virtioP9Walk_directory :
    (stat2qid (statOf 0o40755 0x10203 0)).type = 0x80 ∧
      replyOf
          (virtioP9Walk plainMalloc (.plain _) [47] (answering 0 0)
            (statOf 0o40755 0x10203) 4097 walkToA) =
        some
          (22,
            [22, 0, 0, 0, 111, 1, 0] ++ [1, 0] ++
              [0, 0, 2, 1, 0, 5, 0, 0, 0, 0, 0, 0, 0]) ∧
      ¬ ∃ outlen after,
        virtioP9Walk plainMalloc (.plain _) [47] (answering 0 0)
            (statOf 0o40755 0x10203) 4097 walkToA = .ok outlen after ∧
          Walked (statOf 0o40755 0x10203) requestToA outlen after := by
  have reply :
      replyOf
          (virtioP9Walk plainMalloc (.plain _) [47] (answering 0 0)
            (statOf 0o40755 0x10203) 4097 walkToA) =
        some
          (22,
            [22, 0, 0, 0, 111, 1, 0] ++ [1, 0] ++
              [0, 0, 2, 1, 0, 5, 0, 0, 0, 0, 0, 0, 0]) := by
    decide +kernel
  refine ⟨rfl, reply, ?_⟩
  rintro ⟨outlen, after, ran, walked⟩
  rw [ran] at reply
  obtain ⟨-, bytes⟩ := Prod.mk.inj (Option.some.inj reply)
  have body := walked.body
  rw [bytes] at body
  exact absurd body (by decide)

end Kemu.Virtio.P9.WalkReply
