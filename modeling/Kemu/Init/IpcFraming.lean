import Kemu.Lib.Bytes
import Kemu.Lib.Transition
import Mathlib.Algebra.Group.Nat.Defs

/-!
# Messages between processes

A message on a stream socket is a header with the type and the length,
followed by the payload.  The payload is read until it is complete, the
header with one call to `read`: a header that comes in pieces is lost, and
what comes after it is taken for a header.
-/

namespace Kemu.Init.IpcFraming

open Kemu.Lib.Bytes
open Kemu.Lib.Transition

/-! ## Messages -/

/-- `struct kvm_ipc_head`. -/
structure KvmIpcHead where
  type : UInt32
  len : UInt32
deriving DecidableEq, Repr

/-- `sizeof(struct kvm_ipc_head)`. -/
def headSize : Nat :=
  8

/-- The header in memory. -/
def KvmIpcHead.bytes (head : KvmIpcHead) : List UInt8 :=
  toLe 4 head.type.toNat ++ toLe 4 head.len.toNat

/-- The header that some bytes are read into. -/
def headOf (bytes : List UInt8) : KvmIpcHead where
  type := UInt32.ofNat (ofLe (bytes.take 4))
  len := UInt32.ofNat (ofLe (bytes.drop 4))

/-- A message: its type, and a payload whose length is a `u32`. -/
structure Message where
  type : UInt32
  data : List UInt8
  short : data.length < 2 ^ 32

namespace Message

/-- The header of a message. -/
def head (message : Message) : KvmIpcHead where
  type := message.type
  len := UInt32.ofNat message.data.length

/-- A message on the socket. -/
def encode (message : Message) : List UInt8 :=
  message.head.bytes ++ message.data

end Message

/-- A call of `kvm_ipc__handle`. -/
structure Handled where
  type : UInt32
  len : UInt32
  data : List UInt8
deriving DecidableEq, Repr

/-- The call that a message is for. -/
def Message.handled (message : Message) : Handled where
  type := message.head.type
  len := message.head.len
  data := message.data

/-! ## Sending -/

/-- What was written, whether that was all, and the answers to come. -/
structure Written where
  bytes : List UInt8
  done : Bool
  answers : List Nat
deriving DecidableEq, Repr

/--
`write_in_full`; an answer says how many bytes `write` takes.  Behind the
last answer, and behind a zero, the socket is broken and every `write` fails.
-/
def writeInFull : List Nat → List UInt8 → Written
  | answers, [] => ⟨[], true, answers⟩
  | [], _ :: _ => ⟨[], false, []⟩
  | 0 :: _, _ :: _ => ⟨[], false, []⟩
  | (size + 1) :: rest, byte :: buf =>
      let after := writeInFull rest (buf.drop size)
      { after with bytes := byte :: (buf.take size ++ after.bytes) }

/-- Go on with writing, unless the socket is broken. -/
def Written.andThen (first : Written) (next : List Nat → Written) :
    Written :=
  if first.done then
    { next first.answers with
      bytes := first.bytes ++ (next first.answers).bytes }
  else
    first

/-- `kvm_ipc__send`. -/
def kvmIpcSend (answers : List Nat) (type : UInt32) : Written :=
  writeInFull answers (KvmIpcHead.bytes ⟨type, 0⟩)

/-- `kvm_ipc__send_msg`. -/
def kvmIpcSendMsg (answers : List Nat) (type len : UInt32)
    (msg : List UInt8) : Written :=
  (writeInFull answers (KvmIpcHead.bytes ⟨type, len⟩)).andThen
    fun left => writeInFull left msg

/-- A call to one of the two. -/
inductive SendCall where
  | send (type : UInt32)
  | sendMsg (message : Message)

/-- What a call writes. -/
def SendCall.write (answers : List Nat) : SendCall → Written
  | .send type => kvmIpcSend answers type
  | .sendMsg message =>
      kvmIpcSendMsg answers message.type
        (UInt32.ofNat message.data.length) message.data

/-- The message of a call. -/
def SendCall.message : SendCall → Message
  | .send type => ⟨type, [], Nat.two_pow_pos 32⟩
  | .sendMsg message => message

/-- What a sequence of calls writes. -/
def sendAll : List Nat → List SendCall → List UInt8
  | _, [] => []
  | answers, call :: rest =>
      let sent := call.write answers
      sent.bytes ++ sendAll sent.answers rest

/-! ## Receiving -/

/--
An answer to `read`: an interruption, or as many bytes as the call takes and
the socket has, up to a number above zero.  Where the stream has ended, `read`
gives zero or fails, which comes to the same.
-/
inductive Answer where
  | interrupted
  | answered (size : Nat)
deriving DecidableEq, Repr

/--
Where the thread is: in `kvm_ipc__receive` in front of the header or in
`read_in_full` with what it has got so far, each in the loop for a new client
or not; or waiting for an event; or done with the connection.
-/
inductive Phase where
  | receive (looping : Bool)
  | payload (looping : Bool) (head : KvmIpcHead) (got : List UInt8)
  | waiting
  | closed
deriving DecidableEq, Repr

/-- What is still to be read, where the thread is, and what was handled. -/
structure Connection where
  stream : List UInt8
  phase : Phase
  handled : List Handled
deriving DecidableEq, Repr

/-- `kvm_ipc__new_conn`, with all bytes that will ever arrive. -/
def newConn (arrived : List UInt8) : Connection where
  stream := arrived
  phase := .receive true
  handled := []

/-- `kvm_ipc__handle`, and the return of `kvm_ipc__receive`. -/
def Connection.handle (conn : Connection) (looping : Bool)
    (head : KvmIpcHead) (data : List UInt8) : Connection :=
  { conn with
    phase := if looping then .receive true else .waiting
    handled := conn.handled ++ [⟨head.type, head.len, data⟩] }

/-- The header is read, and memory is allocated for the payload. -/
def Connection.readHead (conn : Connection) (looping allocates : Bool) :
    Answer → Connection
  | .interrupted => { conn with phase := .waiting }
  | .answered size =>
      let nr := min headSize (size + 1)
      let bytes := conn.stream.take nr
      let after := { conn with stream := conn.stream.drop nr }
      if bytes.length = headSize ∧ allocates then
        let head := headOf bytes
        -- `read_in_full` does not read for a length of zero
        if head.len = 0 then
          after.handle looping head []
        else
          { after with phase := .payload looping head [] }
      else
        { after with phase := .waiting }

/-- One turn of the loop in `read_in_full`. -/
def Connection.readPayload (conn : Connection) (looping : Bool)
    (head : KvmIpcHead) (got : List UInt8) : Answer → Connection
  | .interrupted => conn
  | .answered size =>
      let nr := min (head.len.toNat - got.length) (size + 1)
      let bytes := conn.stream.take nr
      if bytes = [] then
        -- the result, which is -1 where nothing was read, is kept in a `u32`
        let n := if got = [] then 0xffffffff else UInt32.ofNat got.length
        if n = head.len then
          conn.handle looping head got
        else
          { conn with phase := .waiting }
      else
        let after := { conn with stream := conn.stream.drop nr }
        if (got ++ bytes).length = head.len.toNat then
          after.handle looping head (got ++ bytes)
        else
          { after with phase := .payload looping head (got ++ bytes) }

/-- An answer to the thread, or an event for `kvm_ipc__handle_event`. -/
inductive Move where
  | read (answer : Answer) (allocates : Bool)
  | event (hangup : Bool)
deriving DecidableEq, Repr

/-- What comes next. -/
def ipcStep (conn : Connection) : Move → Connection
  | .read answer allocates =>
      match conn.phase with
      | .receive looping => conn.readHead looping allocates answer
      | .payload looping head got =>
          conn.readPayload looping head got answer
      | .waiting | .closed => conn
  | .event hangup =>
      if conn.phase = .waiting then
        { conn with phase := if hangup then .closed else .receive false }
      else
        conn

/-! ## What is expected -/

/-- The messages that are complete in the first bytes. -/
def completeIn : Nat → List Message → List Message
  | _, [] => []
  | bytes, message :: rest =>
      if message.encode.length ≤ bytes then
        message :: completeIn (bytes - message.encode.length) rest
      else
        []

/--
The messages that were handled are those that have been read to the end, and
when the connection is closed those that have arrived.
-/
structure Framed (sent : List Message) (arrived : List UInt8)
    (conn : Connection) : Prop where
  handled :
    conn.handled =
      (completeIn (arrived.length - conn.stream.length) sent).map
        Message.handled
  closed :
    conn.phase = .closed →
      completeIn (arrived.length - conn.stream.length) sent =
        completeIn arrived.length sent

/--
A header comes in one piece and there is memory for the payload, a payload of
the greatest length does not break off in front of its first byte, and the
connection does not hang up on a complete message.
-/
def Whole (conn : Connection) : Move → Prop
  | .read answer allocates =>
      match conn.phase with
      | .receive _ =>
          headSize ≤ conn.stream.length →
            answer = .interrupted ∨
              (∃ size, headSize ≤ size + 1 ∧ answer = .answered size) ∧
                allocates
      | .payload _ head got =>
          head.len = 0xffffffff → got = [] → conn.stream = [] →
            answer = .interrupted
      | .waiting | .closed => True
  | .event hangup =>
      conn.phase = .waiting → hangup →
        ∀ message : Message, ¬ message.encode <+: conn.stream

/-! ## Headers -/

section Messages

@[simp]
theorem bytes_length (head : KvmIpcHead) : head.bytes.length = headSize := by
  simp [KvmIpcHead.bytes, headSize]

theorem headOf_bytes (head : KvmIpcHead) : headOf head.bytes = head := by
  have type : head.type.toNat < 256 ^ 4 := head.type.toNat_lt
  have len : head.len.toNat < 256 ^ 4 := head.len.toNat_lt
  unfold headOf KvmIpcHead.bytes
  rw [List.take_left' (toLe_length 4 _), List.drop_left' (toLe_length 4 _),
    ofLe_toLe, ofLe_toLe, Nat.mod_eq_of_lt type, Nat.mod_eq_of_lt len,
    UInt32.ofNat_toNat, UInt32.ofNat_toNat]

theorem head_len (message : Message) :
    message.head.len.toNat = message.data.length := by
  show (UInt32.ofNat message.data.length).toNat = _
  rw [UInt32.toNat_ofNat', Nat.mod_eq_of_lt message.short]

theorem encode_length (message : Message) :
    message.encode.length = headSize + message.data.length := by
  rw [Message.encode, List.length_append, bytes_length]

end Messages

/-! ## What is sent -/

/-- The messages on the socket. -/
def encodeAll (messages : List Message) : List UInt8 :=
  messages.flatMap Message.encode

section Sending

/-- All of a buffer is written, or a first part of it by a broken socket. -/
def Written.Sends (written : Written) (buf : List UInt8) : Prop :=
  (written.bytes = buf ∧ written.done = true) ∨
    written.bytes <+: buf ∧ written.done = false ∧ written.answers = []

theorem writeInFull_sends (answers : List Nat) (buf : List UInt8) :
    (writeInFull answers buf).Sends buf := by
  induction answers generalizing buf with
  | nil =>
      cases buf with
      | nil => exact Or.inl ⟨rfl, rfl⟩
      | cons byte rest => exact Or.inr ⟨List.nil_prefix, rfl, rfl⟩
  | cons size answers induction =>
      cases buf with
      | nil => exact Or.inl ⟨rfl, rfl⟩
      | cons byte rest =>
          cases size with
          | zero => exact Or.inr ⟨List.nil_prefix, rfl, rfl⟩
          | succ size =>
              have whole := List.take_append_drop size rest
              rcases induction (rest.drop size) with
                ⟨all, done⟩ | ⟨part, done, left⟩
              · refine Or.inl ⟨?_, done⟩
                show byte :: (rest.take size ++ _) = _
                rw [all, whole]
              · refine Or.inr ⟨?_, done, left⟩
                show byte :: (rest.take size ++ _) <+: _
                conv_rhs => rw [← whole]
                rw [List.prefix_cons_inj, List.prefix_append_right_inj]
                exact part

theorem andThen_sends {first : Written} {next : List Nat → Written}
    {one two : List UInt8} (sends : first.Sends one)
    (goesOn : (next first.answers).Sends two) :
    (first.andThen next).Sends (one ++ two) := by
  unfold Written.andThen
  rcases sends with ⟨all, done⟩ | ⟨part, broken, left⟩
  · rw [if_pos done]
    rcases goesOn with ⟨all', done'⟩ | ⟨part', broken', left'⟩
    · refine Or.inl ⟨?_, done'⟩
      dsimp only
      rw [all, all']
    · refine Or.inr ⟨?_, broken', left'⟩
      dsimp only
      rw [all, List.prefix_append_right_inj]
      exact part'
  · have fails : ¬ first.done = true := by
      rw [broken]
      exact Bool.false_ne_true
    rw [if_neg fails]
    exact Or.inr ⟨part.trans (List.prefix_append _ _), broken, left⟩

/-- A call writes its message, or a first part of it to a broken socket. -/
theorem write_sends (answers : List Nat) (call : SendCall) :
    (call.write answers).Sends call.message.encode := by
  cases call with
  | send type =>
      have sends := writeInFull_sends answers (KvmIpcHead.bytes ⟨type, 0⟩)
      rw [← List.append_nil (KvmIpcHead.bytes ⟨type, 0⟩)] at sends
      exact sends
  | sendMsg message =>
      exact andThen_sends (writeInFull_sends answers message.head.bytes)
        (writeInFull_sends _ message.data)

/-- A broken socket takes nothing. -/
theorem sendAll_broken (calls : List SendCall) : sendAll [] calls = [] := by
  induction calls with
  | nil => rfl
  | cons call rest induction =>
      cases call with
      | send type => exact induction
      | sendMsg message => exact induction

/-- What the calls write is a first part of their messages. -/
theorem sendAll_begins (answers : List Nat) (calls : List SendCall) :
    sendAll answers calls <+: encodeAll (calls.map SendCall.message) := by
  induction calls generalizing answers with
  | nil => exact List.nil_prefix
  | cons call rest induction =>
      show (call.write answers).bytes ++ sendAll _ rest <+: _ ++ encodeAll _
      rcases write_sends answers call with ⟨all, -⟩ | ⟨part, -, left⟩
      · rw [all, List.prefix_append_right_inj]
        exact induction _
      · rw [left, sendAll_broken, List.append_nil]
        exact part.trans (List.prefix_append _ _)

end Sending

/-! ## Where the connection is in the stream -/

section Stream

variable {before after : List Message} {message : Message}

theorem encodeAll_cons :
    encodeAll (message :: after) = message.encode ++ encodeAll after :=
  List.flatMap_cons

theorem encodeAll_concat :
    encodeAll (before ++ [message]) = encodeAll before ++ message.encode := by
  rw [encodeAll, List.flatMap_append, List.flatMap_singleton]
  rfl

/-- The messages in front are complete. -/
theorem completeIn_append (bytes : Nat) :
    completeIn ((encodeAll before).length + bytes) (before ++ after) =
      before ++ completeIn bytes after := by
  induction before with
  | nil => rw [encodeAll, List.flatMap_nil, List.length_nil, Nat.zero_add]; rfl
  | cons message rest induction =>
      rw [encodeAll_cons, List.length_append, Nat.add_assoc,
        List.cons_append, completeIn, if_pos (Nat.le_add_right _ _),
        Nat.add_sub_cancel_left, induction]
      rfl

theorem completeIn_short {bytes : Nat}
    (short : bytes < message.encode.length) :
    completeIn bytes (message :: after) = [] :=
  if_neg (Nat.not_le.2 short)

/-- Their bytes complete no other message. -/
theorem completeIn_before (before after : List Message) :
    completeIn (encodeAll before).length (before ++ after) = before := by
  have complete := @completeIn_append before after 0
  have none : completeIn 0 after = [] := by
    cases after with
    | nil => rfl
    | cons message rest =>
        apply completeIn_short
        rw [encode_length]
        exact Nat.add_pos_left (Nat.succ_pos 7) _
  rw [none, List.append_nil] at complete
  exact complete

/-- More bytes complete more messages. -/
theorem completeIn_mono {fewer more : Nat} (le : fewer ≤ more) :
    completeIn fewer after <+: completeIn more after := by
  induction after generalizing fewer more with
  | nil => exact List.prefix_refl []
  | cons message rest induction =>
      unfold completeIn
      split
      next fits =>
        rw [if_pos (Nat.le_trans fits le), List.prefix_cons_inj]
        exact induction (Nat.sub_le_sub_right le _)
      next => exact List.nil_prefix

/-- A first part that reaches behind a piece has that piece in front. -/
theorem split_prefix {stream front back : List UInt8}
    (part : stream <+: front ++ back)
    (reaches : front.length ≤ stream.length) :
    ∃ rest, stream = front ++ rest ∧ rest <+: back := by
  obtain ⟨rest, rfl⟩ :=
    List.prefix_of_prefix_length_le (List.prefix_append front back) part
      reaches
  exact ⟨rest, rfl, (List.prefix_append_right_inj front).1 part⟩

end Stream

section Tracking

variable (sent : List Message) (arrived : List UInt8)

/-- What is still to be read begins with a message that is not handled. -/
def Between (conn : Connection) : Prop :=
  ∃ before after,
    sent = before ++ after ∧
      arrived = encodeAll before ++ conn.stream ∧
      conn.stream <+: encodeAll after ∧
      conn.handled = before.map Message.handled

/-- A part of the payload of a message has been read. -/
def Inside (conn : Connection) (head : KvmIpcHead) (got : List UInt8) :
    Prop :=
  ∃ before message after,
    sent = before ++ message :: after ∧
      arrived =
        encodeAll before ++ (message.head.bytes ++ (got ++ conn.stream)) ∧
      got ++ conn.stream <+: message.data ++ encodeAll after ∧
      got.length < message.data.length ∧ head = message.head ∧
      conn.handled = before.map Message.handled

/-- Every message that arrived has been handled. -/
def Settled (conn : Connection) : Prop :=
  conn.handled = (completeIn arrived.length sent).map Message.handled ∧
    completeIn (arrived.length - conn.stream.length) sent =
      completeIn arrived.length sent

/-- What is true of a connection in each phase. -/
def Tracks (conn : Connection) : Prop :=
  match conn.phase with
  | .receive _ | .waiting =>
      Between sent arrived conn ∨
        Settled sent arrived conn ∧ conn.stream.length < headSize
  | .payload _ head got => Inside sent arrived conn head got
  | .closed => Settled sent arrived conn

variable {sent : List Message} {arrived : List UInt8} {conn : Connection}

theorem Between.framed (between : Between sent arrived conn) :
    conn.handled =
      (completeIn (arrived.length - conn.stream.length) sent).map
        Message.handled := by
  obtain ⟨before, after, rfl, rfl, -, handled⟩ := between
  rw [List.length_append, Nat.add_sub_cancel, completeIn_before, handled]

/-- The message that is being read is not complete. -/
theorem inside_complete {before after : List Message} {message : Message}
    {bytes : Nat} (part : bytes < message.data.length) :
    completeIn
        ((encodeAll before).length + (headSize + bytes))
        (before ++ message :: after) =
      before := by
  rw [completeIn_append, completeIn_short, List.append_nil]
  rw [encode_length]
  exact Nat.add_lt_add_left part headSize

theorem Inside.framed {head : KvmIpcHead} {got : List UInt8}
    (inside : Inside sent arrived conn head got) :
    conn.handled =
      (completeIn (arrived.length - conn.stream.length) sent).map
        Message.handled := by
  obtain ⟨before, message, after, rfl, rfl, -, part, -, handled⟩ := inside
  simp only [List.length_append, bytes_length]
  rw [← Nat.add_assoc, ← Nat.add_assoc, Nat.add_sub_cancel, Nat.add_assoc,
    inside_complete part, handled]

theorem Tracks.framed (tracks : Tracks sent arrived conn) :
    Framed sent arrived conn := by
  unfold Tracks at tracks
  cases phase : conn.phase with
  | receive looping =>
      rw [phase] at tracks
      refine ⟨?_, fun closed => nomatch phase.symm.trans closed⟩
      rcases tracks with between | ⟨⟨handled, same⟩, -⟩
      · exact between.framed
      · rw [same, handled]
  | waiting =>
      rw [phase] at tracks
      refine ⟨?_, fun closed => nomatch phase.symm.trans closed⟩
      rcases tracks with between | ⟨⟨handled, same⟩, -⟩
      · exact between.framed
      · rw [same, handled]
  | payload looping head got =>
      rw [phase] at tracks
      exact ⟨tracks.framed, fun closed => nomatch phase.symm.trans closed⟩
  | closed =>
      rw [phase] at tracks
      obtain ⟨handled, same⟩ := tracks
      rw [← same] at handled
      exact ⟨handled, fun _ => same⟩

theorem tracks_start (reaches : arrived <+: encodeAll sent) :
    Tracks sent arrived (newConn arrived) :=
  Or.inl ⟨[], sent, rfl, rfl, reaches, rfl⟩

/-! ## What a step keeps -/

/-- Where no message is complete, everything that arrived is handled. -/
theorem Between.settled (between : Between sent arrived conn)
    (none : ∀ message : Message, ¬ message.encode <+: conn.stream)
    (phase : Phase) :
    Settled sent arrived { conn with phase := phase } := by
  obtain ⟨before, after, rfl, rfl, follows, handled⟩ := between
  have rest : completeIn conn.stream.length after = [] := by
    cases after with
    | nil => rfl
    | cons message after =>
        apply completeIn_short
        by_contra long
        apply none message
        rw [encodeAll_cons] at follows
        exact
          List.prefix_of_prefix_length_le (List.prefix_append _ _) follows
            (Nat.not_lt.1 long)
  have all :
      completeIn (encodeAll before ++ conn.stream).length
          (before ++ after) =
        before := by
    rw [List.length_append, completeIn_append, rest, List.append_nil]
  have taken := completeIn_before before after
  refine ⟨by rw [all, ← handled], ?_⟩
  rw [all]
  show completeIn (_ - conn.stream.length) _ = _
  rw [List.length_append, Nat.add_sub_cancel, taken]

/-- Fewer than eight bytes have no message. -/
theorem few_none {stream : List UInt8} (few : stream.length < headSize)
    (message : Message) : ¬ message.encode <+: stream := by
  intro part
  have long := part.length_le
  rw [encode_length] at long
  omega

/-- Nothing is lost when some of the last bytes are read. -/
theorem Settled.drop (settled : Settled sent arrived conn) (count : Nat)
    (phase : Phase) :
    Settled sent arrived
      { conn with stream := conn.stream.drop count, phase := phase } := by
  refine ⟨settled.1, ?_⟩
  have less :
      completeIn (arrived.length - conn.stream.length) sent <+:
        completeIn (arrived.length - (conn.stream.drop count).length)
          sent := by
    apply completeIn_mono
    rw [List.length_drop]
    omega
  have more :
      completeIn (arrived.length - (conn.stream.drop count).length) sent <+:
        completeIn arrived.length sent :=
    completeIn_mono (Nat.sub_le _ _)
  rw [settled.2] at less
  exact more.eq_of_length_le less.length_le

/-- The message in front is handled. -/
theorem handle_tracks {before after : List Message} {message : Message}
    (looping : Bool) (messages : sent = before ++ message :: after)
    (bytes :
      arrived = encodeAll before ++ (message.encode ++ conn.stream))
    (follows : conn.stream <+: encodeAll after)
    (handled : conn.handled = before.map Message.handled) :
    Tracks sent arrived (conn.handle looping message.head message.data) := by
  have between (phase : Phase) :
      Between sent arrived
        { conn with
          phase := phase
          handled :=
            conn.handled ++
              [⟨message.head.type, message.head.len, message.data⟩] } := by
    refine ⟨before ++ [message], after, ?_, ?_, follows, ?_⟩
    · rw [messages, List.append_assoc]
      rfl
    · rw [bytes, encodeAll_concat, List.append_assoc]
    · rw [handled, List.map_append]
      rfl
  cases looping with
  | true => exact Or.inl (between _)
  | false => exact Or.inl (between _)

/-- A header that has not arrived is not read. -/
theorem Settled.readHead (settled : Settled sent arrived conn)
    (few : conn.stream.length < headSize) (looping allocates : Bool)
    (answer : Answer) :
    Tracks sent arrived (conn.readHead looping allocates answer) := by
  cases answer with
  | interrupted => exact Or.inr ⟨settled, few⟩
  | answered size =>
      unfold Connection.readHead
      dsimp only
      have short :
          ¬ ((conn.stream.take (min headSize (size + 1))).length =
              headSize ∧ allocates = true) := by
        rw [List.length_take]
        omega
      rw [if_neg short]
      refine Or.inr ⟨settled.drop _ _, ?_⟩
      dsimp only
      rw [List.length_drop]
      omega

theorem Between.readHead (between : Between sent arrived conn)
    {looping allocates : Bool} {answer : Answer}
    (whole :
      headSize ≤ conn.stream.length →
        answer = .interrupted ∨
          (∃ size, headSize ≤ size + 1 ∧ answer = .answered size) ∧
            allocates) :
    Tracks sent arrived (conn.readHead looping allocates answer) := by
  cases answer with
  | interrupted => exact Or.inl between
  | answered size =>
      by_cases enough : headSize ≤ conn.stream.length
      · obtain ⟨before, after, messages, bytes, follows, handled⟩ := between
        unfold Connection.readHead
        dsimp only
        rcases whole enough with none | ⟨⟨_, large, same⟩, memory⟩
        · cases none
        · cases same
          rw [Nat.min_eq_left large]
          cases after with
          | nil =>
              have empty : conn.stream = [] := List.prefix_nil.1 follows
              rw [empty] at enough
              cases enough
          | cons message after =>
              rw [encodeAll_cons, Message.encode,
                List.append_assoc] at follows
              have reaches :
                  message.head.bytes.length ≤ conn.stream.length := by
                rw [bytes_length]
                exact enough
              obtain ⟨rest, stream, tail⟩ := split_prefix follows reaches
              have size := bytes_length message.head
              rw [stream, List.take_left' size, List.drop_left' size,
                headOf_bytes, if_pos ⟨size, memory⟩]
              rw [stream] at bytes
              split
              next none =>
                have data : message.data = [] := by
                  apply List.eq_nil_of_length_eq_zero
                  rw [← head_len, none]
                  rfl
                have encode : message.encode = message.head.bytes := by
                  rw [Message.encode, data, List.append_nil]
                rw [data] at tail
                rw [← encode] at bytes
                rw [← data]
                exact
                  @handle_tracks _ _ { conn with stream := rest } _ _ _
                    looping messages bytes tail handled
              next some' =>
                refine
                  ⟨before, message, after, messages, bytes, tail, ?_, rfl,
                    handled⟩
                apply Nat.pos_of_ne_zero
                intro none
                apply some'
                rw [← UInt32.toNat_inj, head_len, none]
                rfl
      · have few : conn.stream.length < headSize := Nat.not_le.1 enough
        exact
          (between.settled (few_none few) conn.phase).readHead few looping
            allocates (.answered size)

/-- At the end of the stream, nothing of the message is handled. -/
theorem Inside.ended {head : KvmIpcHead}
    {got : List UInt8} (inside : Inside sent arrived conn head got)
    (ended : conn.stream = []) (phase : Phase) :
    Settled sent arrived { conn with phase := phase } := by
  have framed := inside.framed
  rw [ended] at framed
  refine ⟨framed, ?_⟩
  rw [ended]
  rfl

theorem Inside.readPayload {looping : Bool} {head : KvmIpcHead}
    {got : List UInt8} (inside : Inside sent arrived conn head got)
    (phase : conn.phase = .payload looping head got) {answer : Answer}
    (whole :
      head.len = 0xffffffff → got = [] → conn.stream = [] →
        answer = .interrupted) :
    Tracks sent arrived (conn.readPayload looping head got answer) := by
  cases answer with
  | interrupted =>
      show Tracks sent arrived conn
      unfold Tracks
      rw [phase]
      exact inside
  | answered size =>
      have atEnd := inside.ended
      obtain ⟨before, message, after, messages, bytes, follows, part, rfl,
        handled⟩ := inside
      have length := head_len message
      unfold Connection.readPayload
      dsimp only
      split
      next empty =>
        have ended : conn.stream = [] := by
          rcases List.take_eq_nil_iff.1 empty with none | none
          · omega
          · exact none
        have differs :
            (if got = [] then 0xffffffff else UInt32.ofNat got.length) ≠
              message.head.len := by
          split
          next none =>
            intro same
            cases whole same.symm none ended
          next =>
            intro same
            have short := message.short
            rw [← UInt32.toNat_inj, length, UInt32.toNat_ofNat',
              Nat.mod_eq_of_lt (by omega)] at same
            omega
        rw [if_neg differs]
        refine Or.inr ⟨atEnd ended .waiting, ?_⟩
        rw [ended]
        exact Nat.succ_pos 7
      next =>
        have whole :=
          List.take_append_drop
            (min (message.head.len.toNat - got.length) (size + 1))
            conn.stream
        have count :
            (conn.stream.take
                (min (message.head.len.toNat - got.length)
                  (size + 1))).length ≤
              message.head.len.toNat - got.length := by
          rw [List.length_take]
          omega
        revert whole count
        generalize
          conn.stream.take
              (min (message.head.len.toNat - got.length) (size + 1)) =
            read
        generalize
          conn.stream.drop
              (min (message.head.len.toNat - got.length) (size + 1)) =
            rest
        intro whole count
        rw [← whole, ← List.append_assoc got] at bytes follows
        split
        next all =>
          rw [length] at all
          have reaches :
              message.data.length ≤ (got ++ read ++ rest).length := by
            rw [List.length_append, all]
            exact Nat.le_add_right _ _
          obtain ⟨tail, same, behind⟩ := split_prefix follows reaches
          obtain ⟨data, tails⟩ := List.append_inj same all
          rw [data, ← List.append_assoc message.head.bytes] at bytes
          rw [data]
          rw [← tails] at behind
          exact
            @handle_tracks _ _ { conn with stream := rest } _ _ _ looping
              messages bytes behind handled
        next unfinished =>
          refine
            ⟨before, message, after, messages, bytes, follows, ?_, rfl,
              handled⟩
          rw [length] at unfinished count
          rw [List.length_append] at unfinished ⊢
          omega

theorem Tracks.step (tracks : Tracks sent arrived conn) {move : Move}
    (whole : Whole conn move) :
    Tracks sent arrived (ipcStep conn move) := by
  unfold Tracks at tracks
  cases move with
  | read answer allocates =>
      unfold ipcStep
      unfold Whole at whole
      dsimp only at whole ⊢
      cases phase : conn.phase with
      | receive looping =>
          rw [phase] at tracks whole
          rcases tracks with between | ⟨settled, few⟩
          · exact between.readHead whole
          · exact settled.readHead few looping allocates answer
      | payload looping head got =>
          rw [phase] at tracks whole
          exact tracks.readPayload phase whole
      | waiting =>
          show Tracks sent arrived conn
          unfold Tracks
          rw [phase] at tracks ⊢
          exact tracks
      | closed =>
          show Tracks sent arrived conn
          unfold Tracks
          rw [phase] at tracks ⊢
          exact tracks
  | event hangup =>
      unfold ipcStep
      dsimp only
      split
      next waits =>
        rw [waits] at tracks
        cases hangup with
        | false => exact tracks
        | true =>
            rcases tracks with between | ⟨settled, -⟩
            · exact between.settled (whole waits rfl) .closed
            · exact settled
      next => exact tracks

end Tracking

/--
If headers come in one piece, there is memory for the payloads, no payload of
the greatest length is missing altogether and no hangup is reported in front
of a complete message, then in every state exactly the messages have been
handled that have been read to the end.
-/
theorem dispatched_in_full (calls : List SendCall) (writes : List Nat)
    (arrived : List UInt8) (moves : List Move)
    (reaches : arrived <+: sendAll writes calls)
    (whole : Along ipcStep Whole (newConn arrived) moves) :
    Throughout ipcStep (Framed (calls.map SendCall.message) arrived)
      (newConn arrived) moves := by
  have kept (conn : Connection) (move : Move)
      (tracks : Tracks (calls.map SendCall.message) arrived conn)
      (whole : Whole conn move) :
      Tracks (calls.map SendCall.message) arrived (ipcStep conn move) :=
    tracks.step whole
  exact
    throughout_of_along (fun _ => Tracks.framed) kept
      (tracks_start (reaches.trans (sendAll_begins writes calls))) whole

/-- A message without a payload, and one with three bytes. -/
def twoCalls : List SendCall :=
  [.send 7, .sendMsg ⟨2, [1, 2, 3], by simp⟩]

/-- The payload comes in two pieces, and then the client hangs up. -/
def twoReads : List Move :=
  [.read (.answered 7) true, .read (.answered 63) true,
    .read (.answered 0) true, .read .interrupted true,
    .read (.answered 63) true, .read (.answered 7) true, .event true]

/-- Two messages, read in parts and interrupted once. -/
theorem dispatched_in_full_two :
    Throughout ipcStep
        (Framed (twoCalls.map SendCall.message) (sendAll [3, 63, 63, 1, 63]
          twoCalls))
        (newConn (sendAll [3, 63, 63, 1, 63] twoCalls)) twoReads ∧
      (run ipcStep (newConn (sendAll [3, 63, 63, 1, 63] twoCalls))
          twoReads).handled =
        [⟨7, 0, []⟩, ⟨2, 3, [1, 2, 3]⟩] := by
  refine ⟨?_, by decide +kernel⟩
  apply dispatched_in_full twoCalls [3, 63, 63, 1, 63] _ twoReads
    (List.prefix_refl _)
  refine ⟨fun _ => ?_, fun _ => ?_, nofun, nofun, nofun, ?_, ?_, trivial⟩
  · exact Or.inr ⟨⟨7, by decide, rfl⟩, rfl⟩
  · exact Or.inr ⟨⟨63, by decide, rfl⟩, rfl⟩
  · intro long
    exact absurd long (by decide +kernel)
  · intro _ _
    apply few_none
    decide +kernel

/--
The first header comes in two pieces: its message has arrived and is never
handled.
-/
theorem not_always_dispatched :
    ¬ ∀ (calls : List SendCall) (writes : List Nat) (arrived : List UInt8)
        (moves : List Move),
        arrived <+: sendAll writes calls →
          Throughout ipcStep (Framed (calls.map SendCall.message) arrived)
            (newConn arrived) moves := by
  intro always
  have framed :=
    (always [.send 7] [8] (sendAll [8] [.send 7])
      [.read (.answered 2) true, .event false, .read (.answered 7) true]
      (List.prefix_refl _)).2.2.2.handled
  exact absurd framed (by decide +kernel)

end Kemu.Init.IpcFraming
