import Kemu.Lib.Transition
import Kemu.Net.Tcp

/-!
# From the guest to the host

The guest sends a byte stream in segments and sends parts of it again when it
gets no acknowledgment.  The host's socket should get the stream as it is, and
the acknowledgment number should count the bytes that it got.

`uip_tx_do_ipv4_tcp` never looks at the sequence number of a segment with
data.  What the socket gets is the stream exactly as long as every segment of
which it takes a byte starts at the first byte that it has not got yet.
-/

namespace Kemu.Net.TcpReceive

open Kemu.Lib.Transition
open Kemu.Net.Packet (uipMaxTcpPayload uipTcpHdrLen uipTcpWinSize)
open Kemu.Net.Tcp

/-! ## What one segment does -/

section Segment

/-- The bytes of a segment that the host's socket takes. -/
def takenOf
    (conn : Connection) (tcp : UipTcp) (wrote : Option Nat) : List UInt8 :=
  if uipTcpIsSyn tcp || uipTcpIsFin tcp || conn.sk.writeDone then
    []
  else
    (uipTcpPayload tcp).take (wrote.getD 0)

/-- The segment is the one that closes the guest's side. -/
def closes (conn : Connection) (tcp : UipTcp) : Bool :=
  !uipTcpIsSyn tcp && uipTcpIsFin tcp && !conn.sk.writeDone

/-- What a segment does to the stream and its acknowledgment. -/
structure Received (conn : Connection) (taken : List UInt8) (closed : Bool)
    (after : Connection) : Prop where
  written : after.written = conn.written ++ taken
  writeDone : after.sk.writeDone = (conn.sk.writeDone || closed)
  ackServer :
    after.sk.ackServer =
      conn.sk.ackServer + UInt32.ofNat (taken.length + closed.toNat)

variable (conn : Connection) (tcp : UipTcp) (wrote : Option Nat)

/-- A call that only stores the window, if anything, takes no byte. -/
theorem Received.quiet {conn after : Connection}
    (written : after.written = conn.written)
    (writeDone : after.sk.writeDone = conn.sk.writeDone)
    (ackServer : after.sk.ackServer = conn.sk.ackServer) :
    Received conn [] false after := by
  refine ⟨?_, ?_, ?_⟩
  · rw [written, List.append_nil]
  · rw [writeDone, Bool.or_false]
  · rw [ackServer]
    exact (UInt32.add_zero _).symm

theorem received :
    Received conn (takenOf conn tcp wrote) (closes conn tcp)
      (uipTxDoIpv4Tcp conn tcp wrote) := by
  have outcome := txOutcome conn tcp wrote
  generalize uipTxDoIpv4Tcp conn tcp wrote = after at outcome
  unfold takenOf closes
  cases outcome with
  | opens syn =>
      rw [syn]
      exact .quiet rfl rfl rfl
  | closesAgain syn fin done =>
      rw [syn, fin, done]
      exact .quiet rfl rfl rfl
  | closes syn fin done =>
      rw [syn, fin, done]
      refine ⟨(List.append_nil _).symm, ?_, rfl⟩
      rw [done]
      rfl
  | empty syn fin nothing =>
      rw [syn, fin, nothing, List.take_nil, ite_self]
      exact .quiet rfl rfl rfl
  | ignored syn fin done =>
      rw [syn, fin, done]
      exact .quiet rfl rfl (UInt32.add_zero _)
  | failed syn fin done =>
      rw [syn, fin, done]
      exact .quiet rfl rfl rfl
  | taken count syn fin done =>
      rw [syn, fin, done]
      refine ⟨rfl, (Bool.or_false _).symm, ?_⟩
      show conn.sk.ackServer + UInt32.ofNat (min _ _) = _
      rw [← List.length_take]
      rfl

/-- The guest's side is closed once. -/
theorem writeDone_or_closes :
    (conn.sk.writeDone || closes conn tcp).toNat =
      conn.sk.writeDone.toNat + (closes conn tcp).toNat := by
  unfold closes
  cases uipTcpIsSyn tcp <;> cases uipTcpIsFin tcp <;>
    cases conn.sk.writeDone <;> rfl

/-- What is taken of a segment is a part of its payload. -/
theorem takenOf_prefix :
    takenOf conn tcp wrote <+: uipTcpPayload tcp := by
  unfold takenOf
  split
  · exact List.nil_prefix
  · exact List.take_prefix _ _

theorem not_syn_of_takenOf (taken : takenOf conn tcp wrote ≠ []) :
    uipTcpIsSyn tcp = false := by
  cases syn : uipTcpIsSyn tcp with
  | false => rfl
  | true =>
      rw [takenOf, syn] at taken
      exact absurd rfl taken

end Segment

/-! ## Streams -/

/--
A segment carries the part of a stream from a place on; its sequence number
counts from the initial one, and the last segment ends where the stream does.
-/
structure Carries (stream : List UInt8) (isn : UInt32) (offset : Nat)
    (tcp : UipTcp) : Prop where
  seq : tcp.seq = isn + 1 + UInt32.ofNat offset
  payload : uipTcpPayload tcp <+: stream.drop offset
  fin :
    uipTcpIsFin tcp = true →
      offset + (uipTcpPayload tcp).length = stream.length

/--
A segment of the guest arrives: one that opens the connection again, or one
with a part of the stream.  `wrote` is the answer of the host's socket.
-/
structure Arrival (stream : List UInt8) (isn : UInt32) where
  tcp : UipTcp
  offset : Nat
  wrote : Option Nat
  carries : uipTcpIsSyn tcp = false → Carries stream isn offset tcp

/--
A connection and, for each byte that the socket took, its place in the
guest's stream.
-/
structure Intake where
  conn : Connection
  places : List Nat

/-- One segment. -/
def intakeStep {stream : List UInt8} {isn : UInt32}
    (intake : Intake) (arrival : Arrival stream isn) : Intake where
  conn := uipTxDoIpv4Tcp intake.conn arrival.tcp arrival.wrote
  places :=
    intake.places ++
      List.range' arrival.offset
        (takenOf intake.conn arrival.tcp arrival.wrote).length

/-- The connection right after it was opened. -/
def intakeStart (syn : UipTcp) : Intake :=
  ⟨uipTcpOpen syn, []⟩

/--
The socket got the stream up to some byte, each byte once and in order, and
the acknowledgment number says so.
-/
structure AsSent (stream : List UInt8) (isn : UInt32) (intake : Intake) :
    Prop where
  places : intake.places = List.range intake.conn.written.length
  written : intake.conn.written <+: stream
  ackServer :
    intake.conn.sk.ackServer =
      isn + 1 + UInt32.ofNat intake.conn.written.length +
        UInt32.ofNat intake.conn.sk.writeDone.toNat

/--
A segment of which the socket takes a byte starts with the first byte that
it has not got.
-/
def StartsNext {stream : List UInt8} {isn : UInt32} (intake : Intake)
    (arrival : Arrival stream isn) : Prop :=
  takenOf intake.conn arrival.tcp arrival.wrote ≠ [] →
    arrival.offset = intake.conn.written.length

section Streams

variable {stream : List UInt8} {isn : UInt32}

theorem asSent_start (syn : UipTcp) :
    AsSent stream (uipTcpIsn syn) (intakeStart syn) where
  places := rfl
  written := List.nil_prefix
  ackServer := by
    show uipTcpIsn syn + 1 = _ + 0 + 0
    rw [UInt32.add_zero, UInt32.add_zero]

/-- The bytes taken are those of the stream at the segment's place. -/
theorem Arrival.takenOf_prefix (arrival : Arrival stream isn)
    (conn : Connection) :
    takenOf conn arrival.tcp arrival.wrote <+:
      stream.drop arrival.offset := by
  by_cases taken : takenOf conn arrival.tcp arrival.wrote = []
  · rw [taken]
    exact List.nil_prefix
  · have carries :=
      arrival.carries (not_syn_of_takenOf conn _ _ taken)
    exact (TcpReceive.takenOf_prefix conn _ _).trans carries.payload

/-- A stretch that follows the first bytes of a stream extends them. -/
theorem append_prefix {first next : List UInt8}
    (before : first <+: stream) (behind : next <+: stream.drop first.length) :
    first ++ next <+: stream := by
  obtain ⟨rest, rfl⟩ := before
  rw [List.drop_left] at behind
  exact (List.prefix_append_right_inj first).2 behind

theorem AsSent.step {intake : Intake} (asSent : AsSent stream isn intake)
    (arrival : Arrival stream isn) (next : StartsNext intake arrival) :
    AsSent stream isn (intakeStep intake arrival) := by
  have step := received intake.conn arrival.tcp arrival.wrote
  have inside := arrival.takenOf_prefix intake.conn
  unfold StartsNext at next
  unfold intakeStep
  generalize takenOf intake.conn arrival.tcp arrival.wrote = taken
    at step inside next ⊢
  have offset : taken = [] ∨ arrival.offset = intake.conn.written.length :=
    or_iff_not_imp_left.2 next
  constructor
  · show intake.places ++ _ = _
    rw [step.written, List.length_append, asSent.places]
    rcases offset with rfl | offset
    · simp
    · rw [offset, List.range_eq_range', List.range_eq_range',
        ← List.range'_append_1, Nat.zero_add]
  · show Connection.written _ <+: _
    rw [step.written]
    rcases offset with rfl | offset
    · rw [List.append_nil]
      exact asSent.written
    · rw [offset] at inside
      exact append_prefix asSent.written inside
  · show UipTcpSocket.ackServer _ = _
    dsimp only
    rw [step.ackServer, step.written, step.writeDone, writeDone_or_closes,
      asSent.ackServer, List.length_append]
    simp only [UInt32.ofNat_add]
    ac_rfl

theorem AsSent.not_step {intake : Intake}
    (asSent : AsSent stream isn intake) (arrival : Arrival stream isn)
    (other : ¬ StartsNext intake arrival) :
    ¬ AsSent stream isn (intakeStep intake arrival) := by
  intro after
  apply other
  intro taken
  have step := received intake.conn arrival.tcp arrival.wrote
  have places := after.places
  unfold intakeStep at places
  dsimp only at places
  rw [step.written, asSent.places, List.length_append,
    List.range_eq_range', List.range_eq_range', ← List.range'_append_1,
    Nat.zero_add] at places
  have same := List.append_cancel_left places
  generalize takenOf intake.conn arrival.tcp arrival.wrote = bytes
    at taken same
  cases bytes with
  | nil => exact absurd rfl taken
  | cons byte rest =>
      rw [List.length_cons, List.range'_succ, List.range'_succ] at same
      exact (List.cons.inj same).1

end Streams

/--
For every connection and every sequence of segments of the guest, the socket
gets the stream as it was sent if and only if every segment of which it takes
a byte starts with the first byte that it has not got.
-/
theorem stream_as_sent_iff (syn : UipTcp) (stream : List UInt8)
    (arrivals : List (Arrival stream (uipTcpIsn syn))) :
    Throughout intakeStep (AsSent stream (uipTcpIsn syn))
        (intakeStart syn) arrivals ↔
      Along intakeStep StartsNext (intakeStart syn) arrivals :=
  throughout_iff_along (fun _ asSent => asSent)
    (fun _ arrival asSent next => asSent.step arrival next)
    (fun _ arrival asSent other => asSent.not_step arrival other)
    (asSent_start syn) arrivals

/-- A guest opens a connection with the initial sequence number 0. -/
def openingSegment : UipTcp where
  vhl := uipIpVhl
  len := 40
  seq := 0
  ack := 0
  off := uipTcpHdrLen
  flg := uipTcpFlagSyn
  win := 64240
  bytes := fun _ => 0

/-- The first two bytes of its stream. -/
def firstSegment : UipTcp where
  vhl := uipIpVhl
  len := 42
  seq := 1
  ack := 10000001
  off := uipTcpHdrLen
  flg := uipTcpFlagAck
  win := 64240
  bytes := fun index => if index = 20 then 104 else 105

theorem firstSegment_carries : Carries [104, 105] 0 0 firstSegment where
  seq := by decide
  payload := by decide
  fin := fun fin => absurd fin (by decide)

/-- The segment arrives, and the socket takes it. -/
def firstArrival : Arrival [104, 105] (uipTcpIsn openingSegment) where
  tcp := firstSegment
  offset := 0
  wrote := some 2
  carries := fun _ => firstSegment_carries

/-- A segment that is sent again reaches the host's socket again. -/
theorem retransmission_written_twice :
    ¬ Throughout intakeStep
        (AsSent [104, 105] (uipTcpIsn openingSegment))
        (intakeStart openingSegment) [firstArrival, firstArrival] := by
  intro holds
  have short := holds.2.2.written.length_le
  exact absurd short (by decide)

end Kemu.Net.TcpReceive
