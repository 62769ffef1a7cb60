import Kemu.Net.Packet
import Mathlib.Algebra.Group.Nat.Defs
import Mathlib.Data.List.Basic

/-!
# User-mode TCP

A TCP connection that the guest opens is taken over by a socket of the host.
What the guest sends is written to that socket and acknowledged at once; a
thread reads the socket and hands segments to the guest as far as the guest's
window reaches.

The frames, the addresses and the checksums around a segment are left out.
-/

namespace Kemu.Net.Tcp

open Kemu.Net.Packet (uipMaxTcpPayload uipTcpHdrLen uipTcpWinSize)

/-! ## Segments -/

/--
`struct uip_tcp` with the IP header it starts with, numbers in the byte order
of the host.  `bytes` is the memory from the source port on; its first bytes
are the header again and are never looked at.
-/
structure UipTcp where
  vhl : UInt8
  len : UInt16
  seq : UInt32
  ack : UInt32
  off : UInt8
  flg : UInt8
  win : UInt16
  bytes : Nat → UInt8

/-- `UIP_TCP_FLAG_FIN`. -/
def uipTcpFlagFin : UInt8 := 1

/-- `UIP_TCP_FLAG_SYN`. -/
def uipTcpFlagSyn : UInt8 := 2

/-- `UIP_TCP_FLAG_ACK`. -/
def uipTcpFlagAck : UInt8 := 16

/-- `UIP_IP_VER_4 | UIP_IP_HDR_LEN`. -/
def uipIpVhl : UInt8 := 0x45

/-- `uip_ip_hdrlen`. -/
def uipIpHdrlen (tcp : UipTcp) : UInt16 :=
  (tcp.vhl &&& 0x0f).toUInt16 * 4

/-- `uip_tcp_hdrlen`. -/
def uipTcpHdrlen (tcp : UipTcp) : UInt16 :=
  (tcp.off >>> 4).toUInt16 * 4

/-- `uip_tcp_len`. -/
def uipTcpLen (tcp : UipTcp) : UInt16 :=
  tcp.len - uipIpHdrlen tcp

/-- `uip_tcp_payloadlen`. -/
def uipTcpPayloadlen (tcp : UipTcp) : UInt16 :=
  uipTcpLen tcp - uipTcpHdrlen tcp

/-- The bytes that `uip_tcp_payload` points to, as many as there are. -/
def uipTcpPayload (tcp : UipTcp) : List UInt8 :=
  (List.range (uipTcpPayloadlen tcp).toNat).map fun index =>
    tcp.bytes ((uipTcpHdrlen tcp).toNat + index)

/-- `uip_tcp_is_syn`. -/
def uipTcpIsSyn (tcp : UipTcp) : Bool :=
  tcp.flg &&& uipTcpFlagSyn != 0

/-- `uip_tcp_is_fin`. -/
def uipTcpIsFin (tcp : UipTcp) : Bool :=
  tcp.flg &&& uipTcpFlagFin != 0

/-- `uip_tcp_isn`. -/
def uipTcpIsn (tcp : UipTcp) : UInt32 :=
  tcp.seq

/-- `uip_tcp_isn_alloc`. -/
def uipTcpIsnAlloc : UInt32 := 10000000

/-! ## Connections -/

/-- The fields of `struct uip_tcp_socket` that change with the segments. -/
structure UipTcpSocket where
  guestAcked : UInt32
  windowSize : UInt16
  isnServer : UInt32
  isnGuest : UInt32
  ackServer : UInt32
  seqServer : UInt32
  writeDone : Bool
  readDone : Bool
deriving DecidableEq, Repr

/--
A connection: its socket object, the bytes that the host's socket took, and
the segments that were handed to the guest.
-/
structure Connection where
  sk : UipTcpSocket
  written : List UInt8
  handed : List UipTcp

/-- The segment that `uip_tcp_payload_send` makes. -/
def uipTcpSegment
    (sk : UipTcpSocket) (flag : UInt8) (payload : List UInt8) : UipTcp where
  vhl := uipIpVhl
  len := 20 + UInt16.ofNat payload.length + 20
  seq := sk.seqServer
  ack := sk.ackServer
  off := uipTcpHdrLen
  flg := flag
  win := uipTcpWinSize
  bytes := fun index => if index < 20 then 0 else payload.getD (index - 20) 0

/-- `uip_tcp_payload_send`. -/
def uipTcpPayloadSend
    (conn : Connection) (flag : UInt8) (payload : List UInt8) :
    Connection :=
  { conn with
    handed := conn.handed ++ [uipTcpSegment conn.sk flag payload]
    sk :=
      { conn.sk with
        seqServer := conn.sk.seqServer + UInt32.ofNat payload.length } }

/--
`uip_tcp_socket_send`.  `wrote` is what `write` returns, absent when it
fails; it takes no more bytes than there are.
-/
def uipTcpSocketSend
    (conn : Connection) (tcp : UipTcp) (wrote : Option Nat) :
    Option Nat × Connection :=
  if conn.sk.writeDone then
    (some 0, conn)
  else
    let payload := uipTcpPayload tcp
    match wrote with
    | none => (none, conn)
    | some count =>
        (some (min count payload.length),
          { conn with written := conn.written ++ payload.take count })

/--
`uip_tx_do_ipv4_tcp` for the first segment, after `uip_tcp_socket_alloc` has
connected a socket and filled its object with zeros.
-/
def uipTcpOpen (tcp : UipTcp) : Connection :=
  let opened : Connection :=
    { sk :=
        { guestAcked := 0
          windowSize := tcp.win
          isnServer := uipTcpIsnAlloc
          isnGuest := uipTcpIsn tcp
          ackServer := uipTcpIsn tcp + 1
          seqServer := uipTcpIsnAlloc
          writeDone := false
          readDone := false }
      written := []
      handed := [] }
  let sent := uipTcpPayloadSend opened (uipTcpFlagSyn ||| uipTcpFlagAck) []
  { sent with sk := { sent.sk with seqServer := sent.sk.seqServer + 1 } }

/-- The window and the acknowledgment of a segment are stored. -/
def storeWindow (conn : Connection) (tcp : UipTcp) : Connection :=
  { conn with
    sk := { conn.sk with windowSize := tcp.win, guestAcked := tcp.ack } }

/-- Bytes of the guest are acknowledged at once. -/
def acknowledge (conn : Connection) (count : Nat) : Connection :=
  uipTcpPayloadSend
    { conn with
      sk :=
        { conn.sk with
          ackServer := conn.sk.ackServer + UInt32.ofNat count } }
    uipTcpFlagAck []

/--
`uip_tx_do_ipv4_tcp` for a connection that there is.  A segment that opens a
connection makes a new socket object and leaves this one alone; the object of
a connection that is closed on both sides is left as it is.
-/
def uipTxDoIpv4Tcp
    (conn : Connection) (tcp : UipTcp) (wrote : Option Nat) : Connection :=
  if uipTcpIsSyn tcp then
    conn
  else
    let found := storeWindow conn tcp
    if uipTcpIsFin tcp then
      if found.sk.writeDone then
        found
      else
        acknowledge
          { found with sk := { found.sk with writeDone := true } } 1
    else if uipTcpPayloadlen tcp = 0 then
      found
    else
      match uipTcpSocketSend found tcp wrote with
      | (none, sent) => sent
      | (some ret, sent) => acknowledge sent ret

/-! ## What a segment carries -/

@[simp]
theorem length_uipTcpPayload (tcp : UipTcp) :
    (uipTcpPayload tcp).length = (uipTcpPayloadlen tcp).toNat := by
  simp [uipTcpPayload]

theorem uipTcpPayload_eq_nil (tcp : UipTcp) :
    uipTcpPayload tcp = [] ↔ uipTcpPayloadlen tcp = 0 := by
  rw [← List.length_eq_zero_iff, length_uipTcpPayload, ← UInt16.toNat_inj]
  exact Iff.rfl

section Segment

variable (sk : UipTcpSocket) (flag : UInt8) (payload : List UInt8)

theorem uipTcpHdrlen_segment :
    uipTcpHdrlen (uipTcpSegment sk flag payload) = 20 := by
  show (uipTcpHdrLen >>> 4).toUInt16 * 4 = 20
  decide

theorem uipTcpPayloadlen_segment :
    uipTcpPayloadlen (uipTcpSegment sk flag payload) =
      UInt16.ofNat payload.length := by
  have header : uipIpHdrlen (uipTcpSegment sk flag payload) = 20 := by
    show (uipIpVhl &&& 0x0f).toUInt16 * 4 = 20
    decide
  rw [uipTcpPayloadlen, uipTcpLen, header, uipTcpHdrlen_segment]
  show 20 + UInt16.ofNat payload.length + 20 - 20 - 20 = _
  rw [UInt16.add_sub_cancel, UInt16.add_comm, UInt16.add_sub_cancel]

/-- An acknowledgment is no FIN. -/
theorem uipTcpIsFin_ack :
    uipTcpIsFin (uipTcpSegment sk uipTcpFlagAck payload) = false := by
  show (uipTcpFlagAck &&& uipTcpFlagFin != 0) = false
  decide

variable {payload}

/-- A segment made here carries the bytes it was made of. -/
theorem uipTcpPayload_segment (fits : payload.length ≤ uipMaxTcpPayload) :
    uipTcpPayload (uipTcpSegment sk flag payload) = payload := by
  have small : payload.length < 2 ^ 16 :=
    Nat.lt_of_le_of_lt fits (by decide)
  have length : (UInt16.ofNat payload.length).toNat = payload.length :=
    UInt16.toNat_ofNat_of_lt small
  rw [uipTcpPayload, uipTcpPayloadlen_segment, uipTcpHdrlen_segment, length]
  apply List.ext_getElem
  · simp
  · intro index inside bound
    have header : UInt16.toNat 20 = 20 := rfl
    simp only [uipTcpSegment, List.getElem_map, List.getElem_range]
    rw [header, if_neg (by omega), Nat.add_sub_cancel_left,
      List.getD_eq_getElem?_getD, List.getElem?_eq_getElem bound,
      Option.getD_some]

end Segment

/-! ## What one segment of the guest does -/

section Segments

/-- The ways through `uip_tx_do_ipv4_tcp`, with what each of them leaves. -/
inductive TxOutcome (conn : Connection) (tcp : UipTcp) :
    Option Nat → Connection → Prop
  | opens {wrote} (syn : uipTcpIsSyn tcp = true) :
      TxOutcome conn tcp wrote conn
  | closesAgain {wrote} (syn : uipTcpIsSyn tcp = false)
      (fin : uipTcpIsFin tcp = true) (done : conn.sk.writeDone = true) :
      TxOutcome conn tcp wrote (storeWindow conn tcp)
  | closes {wrote} (syn : uipTcpIsSyn tcp = false)
      (fin : uipTcpIsFin tcp = true) (done : conn.sk.writeDone = false) :
      TxOutcome conn tcp wrote
        (acknowledge
          { storeWindow conn tcp with
            sk := { (storeWindow conn tcp).sk with writeDone := true } }
          1)
  | empty {wrote} (syn : uipTcpIsSyn tcp = false)
      (fin : uipTcpIsFin tcp = false) (nothing : uipTcpPayload tcp = []) :
      TxOutcome conn tcp wrote (storeWindow conn tcp)
  | ignored {wrote} (syn : uipTcpIsSyn tcp = false)
      (fin : uipTcpIsFin tcp = false) (done : conn.sk.writeDone = true) :
      TxOutcome conn tcp wrote (acknowledge (storeWindow conn tcp) 0)
  | failed (syn : uipTcpIsSyn tcp = false)
      (fin : uipTcpIsFin tcp = false) (done : conn.sk.writeDone = false) :
      TxOutcome conn tcp none (storeWindow conn tcp)
  | taken (count : Nat) (syn : uipTcpIsSyn tcp = false)
      (fin : uipTcpIsFin tcp = false) (done : conn.sk.writeDone = false) :
      TxOutcome conn tcp (some count)
        (acknowledge
          { storeWindow conn tcp with
            written := conn.written ++ (uipTcpPayload tcp).take count }
          (min count (uipTcpPayload tcp).length))

theorem txOutcome (conn : Connection) (tcp : UipTcp) (wrote : Option Nat) :
    TxOutcome conn tcp wrote (uipTxDoIpv4Tcp conn tcp wrote) := by
  unfold uipTxDoIpv4Tcp
  split
  next syn => exact .opens syn
  next syn =>
    have later : uipTcpIsSyn tcp = false := Bool.eq_false_iff.2 syn
    dsimp only
    split
    next fin =>
      split
      next done => exact .closesAgain later fin done
      next done => exact .closes later fin (Bool.eq_false_iff.2 done)
    next fin =>
      have more : uipTcpIsFin tcp = false := Bool.eq_false_iff.2 fin
      split
      next nothing =>
        exact .empty later more ((uipTcpPayload_eq_nil tcp).2 nothing)
      next =>
        cases done : conn.sk.writeDone with
        | true =>
            have sends :
                uipTcpSocketSend (storeWindow conn tcp) tcp wrote =
                  (some 0, storeWindow conn tcp) :=
              if_pos done
            rw [sends]
            exact .ignored later more done
        | false =>
            have sends :
                uipTcpSocketSend (storeWindow conn tcp) tcp wrote = _ :=
              if_neg (Bool.eq_false_iff.1 done)
            rw [sends]
            cases wrote with
            | none => exact .failed later more done
            | some count => exact .taken count later more done

end Segments

end Kemu.Net.Tcp
