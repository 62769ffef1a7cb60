import Kemu.Lib.Transition
import Kemu.Net.Tcp

/-!
# From the host to the guest

A thread reads chunks from the host's socket and hands them to the guest in
segments.  Before each segment it looks at the guest's window under the lock;
until the segment is made the guest may have sent others, which change the
window and are acknowledged by segments without data.

Whatever the guest sends, the segments with data carry the chunks in order at
consecutive sequence numbers, FIN takes the next number, and no segment goes
beyond the window that its check saw.
-/

namespace Kemu.Net.TcpSend

open Kemu.Lib.Transition
open Kemu.Net.Packet (uipMaxTcpPayload uipTcpHdrLen uipTcpWinSize)
open Kemu.Net.Tcp

/-! ## The receive thread -/

/--
Where `uip_tcp_socket_thread` is.  `left` are the bytes of the chunk that are
still to be sent; with a check that was passed come its result `len` and the
window it saw.
-/
inductive Receiver where
  | reading
  | waiting (left : List UInt8)
  | passed (left : List UInt8) (len : Nat) (guestAcked : UInt32)
      (windowSize : UInt16)
  | closing
  | finSent
  | done
deriving DecidableEq, Repr

/-- The bytes of the chunk that are still to be sent. -/
def Receiver.left : Receiver → List UInt8
  | .waiting left | .passed left _ _ _ => left
  | .reading | .closing | .finSent | .done => []

/-- The thread has sent FIN. -/
def Receiver.Closed : Receiver → Prop
  | .finSent | .done => True
  | .reading | .waiting _ | .passed _ _ _ _ | .closing => False

/-- What the loop over the chunk does next. -/
def Receiver.next (left : List UInt8) : Receiver :=
  if left = [] then .reading else .waiting left

/-- The room in the guest's window, a signed number: `len` of the check. -/
def windowRoom (sk : UipTcpSocket) : Int :=
  (sk.guestAcked + sk.windowSize.toUInt32 - sk.seqServer).toBitVec.toInt

/-- A segment with data, and the window that its check saw. -/
structure Checked where
  tcp : UipTcp
  guestAcked : UInt32
  windowSize : UInt16

/-- The sequence number at which the window ends. -/
def Checked.limit (checked : Checked) : UInt32 :=
  checked.guestAcked + checked.windowSize.toUInt32

/--
A connection with its receive thread, the chunks that were read and the
segments with data that the thread made of them.
-/
structure Sender where
  conn : Connection
  receiver : Receiver
  chunks : List (List UInt8)
  data : List Checked

/--
What happens next: a segment of the guest arrives, `read` returns some bytes
(none at the end of the stream or on an error), the thread looks at the
window, sends a segment, sends FIN, or counts it.
-/
inductive SendEvent where
  | segment (tcp : UipTcp) (wrote : Option Nat)
  | read (chunk : List UInt8)
  | check
  | send
  | fin
  | count

/-- The thread counts FIN and says that it is done. -/
def countFin (conn : Connection) : Connection :=
  { conn with
    sk :=
      { conn.sk with
        seqServer := conn.sk.seqServer + 1
        readDone := true } }

/-- The next step of `uip_tcp_socket_thread`, or a call for a segment. -/
def senderStep (sender : Sender) (event : SendEvent) : Sender :=
  match event, sender.receiver with
  | .segment tcp wrote, _ =>
      { sender with conn := uipTxDoIpv4Tcp sender.conn tcp wrote }
  | .read chunk, .reading =>
      if chunk.length = 0 ∨ uipMaxTcpPayload < chunk.length then
        { sender with receiver := .closing }
      else
        { sender with
          receiver := .waiting chunk
          chunks := sender.chunks ++ [chunk] }
  | .check, .waiting left =>
      if windowRoom sender.conn.sk ≤ 0 then
        sender
      else
        { sender with
          receiver :=
            .passed left (windowRoom sender.conn.sk).toNat
              sender.conn.sk.guestAcked sender.conn.sk.windowSize }
  | .send, .passed left len guestAcked windowSize =>
      let count := min (min len left.length) uipMaxTcpPayload
      { sender with
        conn := uipTcpPayloadSend sender.conn uipTcpFlagAck (left.take count)
        receiver := .next (left.drop count)
        data :=
          sender.data ++
            [⟨uipTcpSegment sender.conn.sk uipTcpFlagAck (left.take count),
              guestAcked, windowSize⟩] }
  | .fin, .closing =>
      { sender with
        conn :=
          uipTcpPayloadSend sender.conn (uipTcpFlagFin ||| uipTcpFlagAck) []
        receiver := .finSent }
  | .count, .finSent =>
      { sender with conn := countFin sender.conn, receiver := .done }
  | _, _ => sender

/-- The connection right after it was opened, and its thread. -/
def senderStart (syn : UipTcp) : Sender :=
  ⟨uipTcpOpen syn, .reading, [], []⟩

/-! ## What the guest gets -/

/-- The bytes that some segments carry. -/
def payloads (data : List Checked) : List UInt8 :=
  (data.map fun checked => uipTcpPayload checked.tcp).flatten

/-- The place of the first byte behind some segments, not reduced. -/
def position (isn : UInt32) (before : List Checked) : Nat :=
  isn.toNat + 1 + (payloads before).length

/--
A segment comes right after some others and within the window of its check:
going on from its sequence number, the end of the segment comes before the
end of the window, and that within half the number space.  Seen without
wrapping, the segment ends within the window of every number that the guest
may have acknowledged, unless that is more than half the number space behind.
-/
structure Placed (isn : UInt32) (before : List Checked) (checked : Checked) :
    Prop where
  seq : checked.tcp.seq = isn + 1 + UInt32.ofNat (payloads before).length
  ahead :
    (uipTcpPayload checked.tcp).length ≤
      (checked.limit - checked.tcp.seq).toNat
  near : (checked.limit - checked.tcp.seq).toNat < 2 ^ 31
  within :
    ∀ acked : Nat, checked.guestAcked = UInt32.ofNat acked →
      acked ≤ position isn before → position isn before ≤ acked + 2 ^ 31 →
        position isn before + (uipTcpPayload checked.tcp).length ≤
          acked + checked.windowSize.toNat

/-- What the guest was handed so far. -/
structure Delivered (isn : UInt32) (sender : Sender) : Prop where
  handed :
    (sender.conn.handed.filter fun tcp => uipTcpPayload tcp ≠ []) =
      sender.data.map Checked.tcp
  bytes :
    payloads sender.data ++ sender.receiver.left = sender.chunks.flatten
  placed :
    ∀ index checked, sender.data[index]? = some checked →
      Placed isn (sender.data.take index) checked
  fin :
    ∀ tcp ∈ sender.conn.handed, uipTcpIsFin tcp = true →
      sender.receiver.Closed ∧
        tcp.seq = isn + 1 + UInt32.ofNat (payloads sender.data).length

/-! ## The window -/

section Window

/-- A positive room is the distance to the end of the window. -/
theorem windowRoom_toNat {sk : UipTcpSocket} (room : ¬ windowRoom sk ≤ 0) :
    (windowRoom sk).toNat =
        (sk.guestAcked + sk.windowSize.toUInt32 - sk.seqServer).toNat ∧
      (windowRoom sk).toNat < 2 ^ 31 := by
  unfold windowRoom at room ⊢
  rw [BitVec.toInt_eq_toNat_cond] at room ⊢
  rw [UInt32.toNat_toBitVec] at room ⊢
  have bound :=
    UInt32.toNat_lt (sk.guestAcked + sk.windowSize.toUInt32 - sk.seqServer)
  generalize
    (sk.guestAcked + sk.windowSize.toUInt32 - sk.seqServer).toNat = distance
    at room bound ⊢
  split at room
  · split
    · omega
    · omega
  · split
    · omega
    · omega

/-- The sequence number of a place. -/
theorem ofNat_position (isn : UInt32) (before : List Checked) :
    UInt32.ofNat (position isn before) =
      isn + 1 + UInt32.ofNat (payloads before).length := by
  rw [position, UInt32.ofNat_add, UInt32.ofNat_add, UInt32.ofNat_toNat]
  rfl

/-- Without wrapping, the end of a window that is ahead and near. -/
theorem window_end {acked place window : Nat}
    (short : window < 2 ^ 16) (behind : acked ≤ place)
    (close : place ≤ acked + 2 ^ 31)
    (near :
      (UInt32.ofNat acked + UInt32.ofNat window - UInt32.ofNat place).toNat <
        2 ^ 31)
    (ahead :
      0 <
        (UInt32.ofNat acked + UInt32.ofNat window -
          UInt32.ofNat place).toNat) :
    place +
        (UInt32.ofNat acked + UInt32.ofNat window -
          UInt32.ofNat place).toNat =
      acked + window := by
  rw [UInt32.toNat_sub, UInt32.toNat_add] at near ahead ⊢
  simp only [UInt32.toNat_ofNat'] at near ahead ⊢
  omega

end Window

/-! ## Segments of the guest -/

/-- Only segments without data and FIN were handed to the guest. -/
structure Quiet (conn after : Connection) : Prop where
  seqServer : after.sk.seqServer = conn.sk.seqServer
  handed :
    ∃ acks, after.handed = conn.handed ++ acks ∧
      ∀ tcp ∈ acks, uipTcpPayload tcp = [] ∧ uipTcpIsFin tcp = false

theorem Quiet.of_eq {conn after : Connection}
    (seqServer : after.sk.seqServer = conn.sk.seqServer)
    (handed : after.handed = conn.handed) : Quiet conn after :=
  ⟨seqServer, [], handed.trans (List.append_nil _).symm, nofun⟩

/-- A segment without data carries none. -/
theorem uipTcpPayload_ack (sk : UipTcpSocket) (flag : UInt8) :
    uipTcpPayload (uipTcpSegment sk flag []) = [] :=
  uipTcpPayload_segment sk flag (Nat.zero_le _)

theorem quiet_acknowledge {conn found : Connection}
    (seqServer : found.sk.seqServer = conn.sk.seqServer)
    (handed : found.handed = conn.handed) (count : Nat) :
    Quiet conn (acknowledge found count) := by
  refine ⟨?_, _, congrArg (· ++ _) handed, ?_⟩
  · show found.sk.seqServer + 0 = conn.sk.seqServer
    rw [seqServer, UInt32.add_zero]
  · intro tcp inside
    rw [List.mem_singleton.1 inside]
    exact ⟨uipTcpPayload_ack _ _, uipTcpIsFin_ack _ _⟩

/-- The answers to the guest carry no data. -/
theorem quiet_uipTxDoIpv4Tcp (conn : Connection) (tcp : UipTcp)
    (wrote : Option Nat) :
    Quiet conn (uipTxDoIpv4Tcp conn tcp wrote) := by
  have outcome := txOutcome conn tcp wrote
  generalize uipTxDoIpv4Tcp conn tcp wrote = after at outcome
  cases outcome with
  | opens => exact .of_eq rfl rfl
  | closesAgain => exact .of_eq rfl rfl
  | closes =>
      apply quiet_acknowledge
      · rfl
      · rfl
  | empty => exact .of_eq rfl rfl
  | ignored =>
      apply quiet_acknowledge
      · rfl
      · rfl
  | failed => exact .of_eq rfl rfl
  | taken =>
      apply quiet_acknowledge
      · rfl
      · rfl

/-! ## Every step -/

/-- What the counter and the thread keep, besides what was handed. -/
structure Sound (isn : UInt32) (sender : Sender) : Prop where
  delivered : Delivered isn sender
  seqServer :
    sender.receiver ≠ .done →
      sender.conn.sk.seqServer =
        isn + 1 + UInt32.ofNat (payloads sender.data).length
  waiting : ∀ left, sender.receiver = .waiting left → left ≠ []
  passed :
    ∀ left len guestAcked windowSize,
      sender.receiver = .passed left len guestAcked windowSize →
        left ≠ [] ∧ 0 < len ∧ len < 2 ^ 31 ∧
          len =
            (guestAcked + windowSize.toUInt32 -
              sender.conn.sk.seqServer).toNat

section Steps

variable {isn : UInt32} {sender : Sender}

/-- The answers to the guest change nothing of this. -/
theorem Sound.segment (sound : Sound isn sender) {after : Connection}
    (quiet : Quiet sender.conn after) :
    Sound isn { sender with conn := after } := by
  obtain ⟨acks, handed, empty⟩ := quiet.handed
  have delivered := sound.delivered
  refine ⟨⟨?_, delivered.bytes, delivered.placed, ?_⟩, ?_, sound.waiting, ?_⟩
  · show after.handed.filter _ = _
    have none : (acks.filter fun tcp => uipTcpPayload tcp ≠ []) = [] := by
      rw [List.filter_eq_nil_iff]
      intro tcp inside
      simpa using (empty tcp inside).1
    rw [handed, List.filter_append, none, List.append_nil, delivered.handed]
  · intro tcp inside fin
    rw [handed] at inside
    rcases List.mem_append.1 inside with earlier | ack
    · exact delivered.fin tcp earlier fin
    · rw [(empty tcp ack).2] at fin
      exact absurd fin Bool.false_ne_true
  · intro running
    exact quiet.seqServer.trans (sound.seqServer running)
  · intro left len guestAcked windowSize passed
    have facts := sound.passed left len guestAcked windowSize passed
    rw [← quiet.seqServer] at facts
    exact facts

/-- The thread goes on, with the same bytes to send. -/
theorem Delivered.move (delivered : Delivered isn sender)
    {receiver : Receiver} {chunks : List (List UInt8)}
    (bytes : payloads sender.data ++ receiver.left = chunks.flatten)
    (closed : sender.receiver.Closed → receiver.Closed) :
    Delivered isn
      { sender with receiver := receiver, chunks := chunks } where
  handed := delivered.handed
  bytes := bytes
  placed := delivered.placed
  fin := by
    intro tcp inside fin
    have earlier := delivered.fin tcp inside fin
    exact ⟨closed earlier.1, earlier.2⟩

theorem Sound.read (sound : Sound isn sender)
    (reading : sender.receiver = .reading) (chunk : List UInt8) :
    Sound isn (senderStep sender (.read chunk)) := by
  have bytes := sound.delivered.bytes
  have counter := sound.seqServer (by rw [reading]; exact nofun)
  have open' : ¬ sender.receiver.Closed := by
    rw [reading]
    exact id
  rw [reading, Receiver.left, List.append_nil] at bytes
  unfold senderStep
  simp only [reading]
  split
  next =>
    refine ⟨sound.delivered.move ?_ fun closed => absurd closed open',
      fun _ => counter, nofun, nofun⟩
    rw [Receiver.left, List.append_nil, bytes]
  next taken =>
    have nonempty : chunk ≠ [] := by
      rintro rfl
      exact taken (Or.inl rfl)
    refine ⟨sound.delivered.move ?_ fun closed => absurd closed open',
      fun _ => counter, ?_, nofun⟩
    · rw [Receiver.left, bytes, List.flatten_append, List.flatten_singleton]
    · rintro left ⟨⟩
      exact nonempty

theorem Sound.check (sound : Sound isn sender) {left : List UInt8}
    (waiting : sender.receiver = .waiting left) :
    Sound isn (senderStep sender .check) := by
  have counter := sound.seqServer (by rw [waiting]; exact nofun)
  have open' : ¬ sender.receiver.Closed := by
    rw [waiting]
    exact id
  have bytes := sound.delivered.bytes
  rw [waiting] at bytes
  unfold senderStep
  simp only [waiting]
  split
  next => exact sound
  next room =>
    obtain ⟨distance, near⟩ := windowRoom_toNat room
    refine ⟨sound.delivered.move bytes fun closed => absurd closed open',
      fun _ => counter, nofun, ?_⟩
    rintro _ _ _ _ ⟨⟩
    refine ⟨sound.waiting left waiting, ?_, near, distance⟩
    exact Int.lt_toNat.2 (Int.not_le.1 room)

theorem left_next (left : List UInt8) :
    (Receiver.next left).left = left := by
  unfold Receiver.next
  split
  next empty => exact empty.symm
  next => rfl

theorem payloads_append (first second : List Checked) :
    payloads (first ++ second) = payloads first ++ payloads second := by
  rw [payloads, payloads, payloads, List.map_append, List.flatten_append]

theorem payloads_singleton (checked : Checked) :
    payloads [checked] = uipTcpPayload checked.tcp := by
  simp [payloads]

/-- A segment that the check allowed follows the others in its window. -/
theorem placed_segment {data : List Checked} {sk : UipTcpSocket}
    {payload : List UInt8} {len : Nat} {guestAcked : UInt32}
    {windowSize : UInt16}
    (counter :
      sk.seqServer = isn + 1 + UInt32.ofNat (payloads data).length)
    (fits : payload.length ≤ uipMaxTcpPayload) (short : payload.length ≤ len)
    (positive : 0 < len) (near : len < 2 ^ 31)
    (distance :
      len = (guestAcked + windowSize.toUInt32 - sk.seqServer).toNat) :
    Placed isn data
      ⟨uipTcpSegment sk uipTcpFlagAck payload, guestAcked, windowSize⟩ := by
  constructor
  · exact counter
  · rw [uipTcpPayload_segment _ _ fits]
    exact Nat.le_trans short (Nat.le_of_eq distance)
  · exact distance ▸ near
  · intro acked same behind close
    rw [uipTcpPayload_segment _ _ fits]
    have window :
        windowSize.toUInt32 = UInt32.ofNat windowSize.toNat := by
      rw [← UInt16.toNat_toUInt32, UInt32.ofNat_toNat]
    dsimp only at same ⊢
    rw [counter, ← ofNat_position, same, window] at distance
    have reaches :=
      window_end windowSize.toNat_lt behind close
        (distance ▸ near) (distance ▸ positive)
    rw [← distance] at reaches
    rw [← reaches]
    exact Nat.add_le_add_left short _

/-- The entries of a list with one more at the end. -/
theorem placed_append {data : List Checked} {checked : Checked}
    (placed :
      ∀ index earlier, data[index]? = some earlier →
        Placed isn (data.take index) earlier)
    (last : Placed isn data checked) :
    ∀ index other, (data ++ [checked])[index]? = some other →
      Placed isn ((data ++ [checked]).take index) other := by
  intro index other found
  rcases Nat.lt_or_ge index data.length with small | large
  · rw [List.getElem?_append_left small] at found
    rw [List.take_append_of_le_length (Nat.le_of_lt small)]
    exact placed index other found
  · rw [List.getElem?_append_right large] at found
    rw [List.getElem?_singleton] at found
    split at found
    next first =>
      cases found
      have end' : index = data.length :=
        Nat.le_antisymm (Nat.sub_eq_zero_iff_le.1 first) large
      rw [end', List.take_left]
      exact last
    next => cases found

/-- The thread sends the first bytes of the chunk. -/
theorem Sound.handOver (sound : Sound isn sender) {left : List UInt8}
    {len : Nat} {guestAcked : UInt32} {windowSize : UInt16}
    (passed : sender.receiver = .passed left len guestAcked windowSize)
    {payload rest : List UInt8} (parts : payload ++ rest = left)
    (some : payload ≠ []) (fits : payload.length ≤ uipMaxTcpPayload)
    (allowed : payload.length ≤ len) :
    Sound isn
      { sender with
        conn := uipTcpPayloadSend sender.conn uipTcpFlagAck payload
        receiver := .next rest
        data :=
          sender.data ++
            [⟨uipTcpSegment sender.conn.sk uipTcpFlagAck payload,
              guestAcked, windowSize⟩] } := by
  obtain ⟨nonempty, positive, near, distance⟩ :=
    sound.passed left len guestAcked windowSize passed
  have counter := sound.seqServer (by rw [passed]; exact nofun)
  have delivered := sound.delivered
  have bytes := delivered.bytes
  rw [passed, Receiver.left] at bytes
  have carried :=
    uipTcpPayload_segment sender.conn.sk uipTcpFlagAck fits
  refine ⟨⟨?_, ?_, ?_, ?_⟩, ?_, ?_, ?_⟩
  · show List.filter _ (sender.conn.handed ++ [_]) = _
    rw [List.filter_append, delivered.handed, List.map_append]
    congr 1
    refine List.filter_eq_self.2 ?_
    intro tcp inside
    rw [List.mem_singleton.1 inside, carried]
    exact decide_eq_true some
  · show payloads (_ ++ [_]) ++ (Receiver.next rest).left = _
    rw [payloads_append, payloads_singleton, carried, left_next,
      List.append_assoc, parts, bytes]
  · refine placed_append delivered.placed ?_
    exact placed_segment counter fits allowed positive near distance
  · intro tcp inside fin
    rcases List.mem_append.1 inside with earlier | new
    · have closed := (delivered.fin tcp earlier fin).1
      rw [passed] at closed
      exact absurd closed id
    · rw [List.mem_singleton.1 new, uipTcpIsFin_ack] at fin
      exact absurd fin Bool.false_ne_true
  · intro _
    show sender.conn.sk.seqServer + _ = _
    rw [counter, payloads_append, payloads_singleton, carried,
      List.length_append, UInt32.ofNat_add, UInt32.add_assoc]
  · intro left waits
    unfold Receiver.next at waits
    split at waits
    next => cases waits
    next more =>
      cases waits
      exact more
  · intro left len acked window waits
    unfold Receiver.next at waits
    split at waits
    · cases waits
    · cases waits

theorem Sound.send (sound : Sound isn sender) {left : List UInt8}
    {len : Nat} {guestAcked : UInt32} {windowSize : UInt16}
    (passed : sender.receiver = .passed left len guestAcked windowSize) :
    Sound isn (senderStep sender .send) := by
  obtain ⟨nonempty, positive, -, -⟩ :=
    sound.passed left len guestAcked windowSize passed
  have length := List.length_pos_iff.2 nonempty
  have room : 0 < uipMaxTcpPayload := by decide
  unfold senderStep
  simp only [passed]
  apply sound.handOver passed (List.take_append_drop _ left)
  · rw [← List.length_pos_iff, List.length_take]
    omega
  · rw [List.length_take]
    omega
  · rw [List.length_take]
    omega

/-- FIN takes the number behind the last byte. -/
theorem Sound.fin (sound : Sound isn sender)
    (closing : sender.receiver = .closing) :
    Sound isn (senderStep sender .fin) := by
  have counter := sound.seqServer (by rw [closing]; exact nofun)
  have delivered := sound.delivered
  have bytes := delivered.bytes
  rw [closing] at bytes
  unfold senderStep
  simp only [closing]
  refine ⟨⟨?_, bytes, delivered.placed, ?_⟩, ?_, nofun, nofun⟩
  · show List.filter _ (sender.conn.handed ++ [_]) = _
    rw [List.filter_append, delivered.handed, List.append_right_eq_self,
      List.filter_eq_nil_iff]
    intro tcp inside
    rw [List.mem_singleton.1 inside, uipTcpPayload_ack]
    exact of_decide_eq_false rfl
  · intro tcp inside fin
    refine ⟨trivial, ?_⟩
    rcases List.mem_append.1 inside with earlier | new
    · exact (delivered.fin tcp earlier fin).2
    · rw [List.mem_singleton.1 new]
      exact counter
  · intro _
    show sender.conn.sk.seqServer + 0 = _
    rw [UInt32.add_zero, counter]

theorem Sound.count (sound : Sound isn sender)
    (finSent : sender.receiver = .finSent) :
    Sound isn (senderStep sender .count) := by
  have delivered := sound.delivered
  have bytes := delivered.bytes
  rw [finSent] at bytes
  unfold senderStep
  simp only [finSent]
  refine ⟨⟨delivered.handed, bytes, delivered.placed, ?_⟩, ?_, nofun, nofun⟩
  · intro tcp inside fin
    exact ⟨trivial, (delivered.fin tcp inside fin).2⟩
  · intro running
    exact absurd rfl running

theorem Sound.step (sound : Sound isn sender) (event : SendEvent) :
    Sound isn (senderStep sender event) := by
  cases event with
  | segment tcp wrote =>
      have quiet := quiet_uipTxDoIpv4Tcp sender.conn tcp wrote
      unfold senderStep
      exact sound.segment quiet
  | read chunk =>
      cases place : sender.receiver with
      | reading => exact sound.read place chunk
      | _ =>
          unfold senderStep
          simpa only [place] using sound
  | check =>
      cases place : sender.receiver with
      | waiting left => exact sound.check place
      | _ =>
          unfold senderStep
          simpa only [place] using sound
  | send =>
      cases place : sender.receiver with
      | passed left len guestAcked windowSize => exact sound.send place
      | _ =>
          unfold senderStep
          simpa only [place] using sound
  | fin =>
      cases place : sender.receiver with
      | closing => exact sound.fin place
      | _ =>
          unfold senderStep
          simpa only [place] using sound
  | count =>
      cases place : sender.receiver with
      | finSent => exact sound.count place
      | _ =>
          unfold senderStep
          simpa only [place] using sound

end Steps

theorem sound_start (syn : UipTcp) :
    Sound (uipTcpOpen syn).sk.isnServer (senderStart syn) := by
  refine ⟨⟨?_, rfl, ?_, ?_⟩, fun _ => rfl, nofun, nofun⟩
  · show List.filter _ [_] = []
    rw [List.filter_eq_nil_iff]
    intro tcp inside
    rw [List.mem_singleton.1 inside, uipTcpPayload_ack]
    exact of_decide_eq_false rfl
  · intro index checked found
    cases found
  · intro tcp inside fin
    have other : uipTcpIsFin tcp = false := by
      rw [List.mem_singleton.1 inside]
      show ((uipTcpFlagSyn ||| uipTcpFlagAck) &&& uipTcpFlagFin != 0) = false
      decide
    rw [other] at fin
    exact absurd fin Bool.false_ne_true

/--
For every connection, whatever its thread reads and the guest sends in
between, the guest is handed the chunks in order, at consecutive sequence
numbers and within its window, and FIN behind them.
-/
theorem delivered_throughout (syn : UipTcp) (events : List SendEvent) :
    Throughout senderStep (Delivered (uipTcpOpen syn).sk.isnServer)
      (senderStart syn) events := by
  have visible :
      ∀ sender, Sound (uipTcpOpen syn).sk.isnServer sender →
        Delivered (uipTcpOpen syn).sk.isnServer sender :=
    fun _ sound => sound.delivered
  exact throughout_of_step visible (fun _ event sound => sound.step event)
    (sound_start syn) events

end Kemu.Net.TcpSend
