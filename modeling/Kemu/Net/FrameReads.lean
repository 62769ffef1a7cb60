import Kemu.Net.Dhcp
import Kemu.Net.TcpDemux
import Kemu.Util.IoVector

/-!
# What is read of a frame

`uip_tx` takes a frame out of the guest's buffers, and its handlers read the
frame at the places of the headers and as far as the lengths in the headers
say.  None of them looks at the length of the frame.
-/

namespace Kemu.Net.FrameReads

open Kemu.Net.Packet hiding UipTcpSocket uipTxDoArp uipTxDoIpv4Icmp
open Kemu.Net.Dhcp hiding uipTxDoIpv4UdpDhcp
open Kemu.Util.IoVector
open Kemu.Net.TcpDemux (Endpoints UipTcpSocket uipTcpSocketFind)

/-! ## Frames -/

/-- A frame of the guest: what is in memory from `eth` on, and its length. -/
structure Frame where
  eth : Nat → UInt8
  ethLen : Nat

/--
A transmit chain: the buffers and how many there are, the memory they are in,
what is behind a block from `malloc`, and whether `malloc` succeeds.
-/
structure Chain where
  iov : List Iovec
  out : Nat
  mem : Nat → UInt8
  heap : Nat → UInt8
  allocates : Bool
  within : out ≤ iov.length

/-- The memory in which the buffers of a chain are, all of it mapped. -/
def Chain.hostMem (chain : Chain) : HostMem :=
  fun place => some (chain.mem place)

/-- `EINVAL`. -/
def einval : Int := 22

/-- `ENOMEM`. -/
def enomem : Int := 12

/-- What `uip_tx` takes out of a chain: the header in front, and the frame. -/
structure TxFrame extends Frame where
  vnet : Nat → UInt8
  vnetLen : Nat

/-- A block from `malloc` after a copy to its front. -/
def mallocked (chain : Chain) (copy : IovCopy) : Nat → UInt8 :=
  fun place => (copy.buf.getD place none).getD (chain.heap place)

/-- `uip_tx` up to the frame, or the error it returns. -/
def txFrame (chain : Chain) (vnetLen : Nat) : Except Int TxFrame :=
  let first := chain.iov.getD 0 default
  if iovSize chain.iov chain.out ≤ vnetLen then
    .error (-einval)
  else if first.len = vnetLen ∧ chain.out = 2 then
    -- Legacy layout: first descriptor for vnet header
    let second := chain.iov.getD 1 default
    .ok
      { vnet := fun place => chain.mem (first.base + place)
        eth := fun place => chain.mem (second.base + place)
        vnetLen
        ethLen := second.len }
  else if chain.out = 1 then
    -- Single descriptor
    .ok
      { vnet := fun place => chain.mem (first.base + place)
        eth := fun place => chain.mem (first.base + vnetLen + place)
        vnetLen
        ethLen := first.len - vnetLen }
  else if chain.allocates then
    -- Any layout
    let vnet :=
      memcpyFromiovecSafe chain.hostMem chain.iov vnetLen chain.out
    let ethLen := iovSize vnet.iov vnet.count
    let eth := memcpyFromiovecSafe chain.hostMem vnet.iov ethLen vnet.count
    if vnet.remaining ≠ 0 ∨ eth.remaining ≠ 0 then
      .error (-einval)
    else
      .ok
        { vnet := mallocked chain vnet
          eth := mallocked chain eth
          vnetLen
          ethLen }
  else
    .error (-enomem)

/-- The frame that `uip_tx` takes out of a chain, if it does. -/
def Chain.frame (chain : Chain) (vnetLen : Nat) : Option Frame :=
  (txFrame chain vnetLen).toOption.map TxFrame.toFrame

/--
What the handlers depend on besides the frame: the address of the host, the
connections, and whether `connect`, a socket for datagrams and `write`
succeed.
-/
structure Host where
  hostIp : UInt32
  sockets : List UipTcpSocket
  connects : Bool
  datagrams : Bool
  writes : Bool

/-! ## Events -/

/--
What a handler does: it reads bytes of the frame, hands bytes of the frame to
a socket of the host, takes a free buffer, or puts it in the queue.
-/
inductive FrameEvent where
  | read (offset length : Nat)
  | hand (offset length : Nat)
  | getFree
  | setUsed
deriving DecidableEq, Repr

/-- Every byte that is read or handed on is in the frame. -/
def FrameEvent.Inside (ethLen : Nat) : FrameEvent → Prop
  | .read offset length | .hand offset length =>
      ∀ index < length, offset + index < ethLen
  | .getFree | .setUsed => True

/-- `uip_buf_clone`: the frame is copied, and its source address once more. -/
def cloneEvents (frame : Frame) : List FrameEvent :=
  [.getFree, .read 0 (sizeT (toInt frame.ethLen)), .read 6 6]

/-- A frame is built and queued. -/
def sendEvents : List FrameEvent :=
  [.getFree, .setUsed]

/-- The addresses and the ports of a frame are read. -/
def endsEvents : List FrameEvent :=
  [.read 26 4, .read 30 4, .read 34 2, .read 36 2]

/-- The addresses and the ports of a frame. -/
def endsOf (eth : Nat → UInt8) : Endpoints where
  sip := load32 eth 26
  dip := load32 eth 30
  sport := load16 eth 34
  dport := load16 eth 36

/-! ## The handlers -/

/-- `uip_tx_do_arp`. -/
def uipTxDoArp (host : Host) (frame : Frame) : List FrameEvent :=
  cloneEvents frame ++ [.read 22 6, .read 28 4, .read 38 4] ++
    if load32 frame.eth 38 = htonl host.hostIp then [.setUsed] else []

/-- `uip_tx_do_ipv4_icmp`. -/
def uipTxDoIpv4Icmp (frame : Frame) : List FrameEvent :=
  cloneEvents frame ++ [.read 30 4, .read 26 4, .setUsed]

/-- `uip_dhcp_is_discovery` and `uip_dhcp_is_request`. -/
def dhcpIsEvents (msgType : UInt8) (eth : Nat → UInt8) : List FrameEvent :=
  .read 284 1 ::
    if eth 284 = msgType then
      .read 283 1 :: if eth 283 = 1 then [.read 282 1] else []
    else
      []

/-- `uip_tx_do_ipv4_udp_dhcp`. -/
def uipTxDoIpv4UdpDhcp (frame : Frame) : List FrameEvent :=
  dhcpIsEvents uipDhcpDiscover frame.eth ++
    if uipDhcpIsDiscovery frame.eth then
      cloneEvents frame ++ [.setUsed]
    else
      dhcpIsEvents uipDhcpRequest frame.eth ++
        if uipDhcpIsRequest frame.eth then
          cloneEvents frame ++ [.setUsed]
        else
          []

/-- `uip_udp_is_dhcp`. -/
def udpIsDhcpEvents (eth : Nat → UInt8) : List FrameEvent :=
  .read 34 2 ::
    if htons (load16 eth 34) = uipDhcpPortClient then
      .read 36 2 ::
        if htons (load16 eth 36) = uipDhcpPortServer then
          [.read 278 4]
        else
          []
    else
      []

/-- `uip_udp_socket_send`: the length of the data as `size_t`. -/
def udpDataLen (eth : Nat → UInt8) : Nat :=
  sizeT ((htons (load16 eth 38)).toNat - uipUdpHdrlen.toNat)

/-- `uip_tx_do_ipv4_udp`. -/
def uipTxDoIpv4Udp (host : Host) (frame : Frame) : List FrameEvent :=
  udpIsDhcpEvents frame.eth ++
    if uipUdpIsDhcp frame.eth then
      uipTxDoIpv4UdpDhcp frame
    else
      endsEvents ++
        if host.datagrams then
          [.read 38 2, .hand 42 (udpDataLen frame.eth)]
        else
          []

/-- `uip_tcp_payloadlen`. -/
def uipTcpPayloadlen (eth : Nat → UInt8) : UInt16 :=
  htons (load16 eth 16) - uipIpHdrlen eth - uipTcpHdrlen eth

/-- `uip_tcp_payloadlen` reads three fields. -/
def payloadlenEvents : List FrameEvent :=
  [.read 16 2, .read 14 1, .read 46 1]

/-- `uip_tcp_is_syn`. -/
def uipTcpIsSyn (eth : Nat → UInt8) : Bool :=
  eth 47 &&& 2 != 0

/-- `uip_tcp_is_fin`. -/
def uipTcpIsFin (eth : Nat → UInt8) : Bool :=
  eth 47 &&& 1 != 0

/-- The data of a segment are written to the socket. -/
def uipTcpSocketSend
    (host : Host) (frame : Frame) (sk : UipTcpSocket) : List FrameEvent :=
  if sk.writeDone then
    sendEvents
  else
    .read 46 1 :: payloadlenEvents ++
      [.hand (34 + (uipTcpHdrlen frame.eth).toNat)
        (uipTcpPayloadlen frame.eth).toNat] ++
      if host.writes then sendEvents else []

/-- `uip_tx_do_ipv4_tcp` for a segment of a connection. -/
def connectionEvents
    (host : Host) (frame : Frame) (sk : UipTcpSocket) : List FrameEvent :=
  [.read 48 2, .read 42 4, .read 47 1] ++
    if uipTcpIsFin frame.eth then
      if sk.writeDone then [] else sendEvents
    else
      payloadlenEvents ++
        if uipTcpPayloadlen frame.eth = 0 then
          []
        else
          uipTcpSocketSend host frame sk

/-- `uip_tx_do_ipv4_tcp`. -/
def uipTxDoIpv4Tcp (host : Host) (frame : Frame) : List FrameEvent :=
  .read 47 1 :: endsEvents ++
    if uipTcpIsSyn frame.eth then
      if host.connects then
        endsEvents ++ [.read 48 2, .read 38 4] ++ sendEvents
      else
        []
    else
      (uipTcpSocketFind host.sockets (endsOf frame.eth)).elim []
        (connectionEvents host frame)

/-- `uip_tx_do_ipv4`. -/
def uipTxDoIpv4 (host : Host) (frame : Frame) : List FrameEvent :=
  .read 14 1 ::
    if uipIpHdrlen frame.eth = 20 then
      .read 23 1 ::
        if frame.eth 23 = uipIpPIcmp then
          uipTxDoIpv4Icmp frame
        else if frame.eth 23 = uipIpPTcp then
          uipTxDoIpv4Tcp host frame
        else if frame.eth 23 = uipIpPUdp then
          uipTxDoIpv4Udp host frame
        else
          []
    else
      []

/-- `uip_tx` from the frame on. -/
def uipTx (host : Host) (frame : Frame) : List FrameEvent :=
  .read 12 2 ::
    if htons (load16 frame.eth 12) = uipEthPArp then
      uipTxDoArp host frame
    else if htons (load16 frame.eth 12) = uipEthPIp then
      uipTxDoIpv4 host frame
    else
      []

/-! ## What a frame must hold -/

section Fits

variable (host : Host) (frame : Frame)

/-- The length survives the conversion to `int` and back. -/
def CopyFits (frame : Frame) : Prop :=
  sizeT (toInt frame.ethLen) ≤ frame.ethLen

/-- A message of DHCP reaches to its first option. -/
def DhcpFits (frame : Frame) : Prop :=
  285 ≤ frame.ethLen ∧
    ((replyMsgType frame.eth).isSome = true → CopyFits frame)

/--
A datagram reaches to its ports, with the ports of DHCP to the magic cookie;
and what its length says is in the frame.
-/
def UdpFits (host : Host) (frame : Frame) : Prop :=
  38 ≤ frame.ethLen ∧
    (htons (load16 frame.eth 34) = uipDhcpPortClient →
      htons (load16 frame.eth 36) = uipDhcpPortServer →
        282 ≤ frame.ethLen) ∧
    if uipUdpIsDhcp frame.eth then
      DhcpFits frame
    else
      host.datagrams = true →
        40 ≤ frame.ethLen ∧
          (udpDataLen frame.eth = 0 ∨
            42 + udpDataLen frame.eth ≤ frame.ethLen)

/--
A segment reaches to its flags, and to its window if it opens or belongs to a
connection; and data that are written are in the frame.
-/
def TcpFits (host : Host) (frame : Frame) : Prop :=
  48 ≤ frame.ethLen ∧
    if uipTcpIsSyn frame.eth then
      host.connects = true → 50 ≤ frame.ethLen
    else
      ∀ sk ∈ uipTcpSocketFind host.sockets (endsOf frame.eth),
        50 ≤ frame.ethLen ∧
          (uipTcpIsFin frame.eth = false →
            uipTcpPayloadlen frame.eth ≠ 0 →
              sk.writeDone = false →
                34 + (uipTcpHdrlen frame.eth).toNat +
                    (uipTcpPayloadlen frame.eth).toNat ≤
                  frame.ethLen)

/-- A packet reaches as far as the handler of its protocol needs. -/
def Ipv4Fits (host : Host) (frame : Frame) : Prop :=
  15 ≤ frame.ethLen ∧
    (uipIpHdrlen frame.eth = 20 →
      24 ≤ frame.ethLen ∧
        if frame.eth 23 = uipIpPIcmp then
          34 ≤ frame.ethLen ∧ CopyFits frame
        else if frame.eth 23 = uipIpPTcp then
          TcpFits host frame
        else
          frame.eth 23 = uipIpPUdp → UdpFits host frame)

/-- A frame reaches as far as the handler of its type needs. -/
def FrameFits (host : Host) (frame : Frame) : Prop :=
  14 ≤ frame.ethLen ∧
    if htons (load16 frame.eth 12) = uipEthPArp then
      42 ≤ frame.ethLen ∧ CopyFits frame
    else
      htons (load16 frame.eth 12) = uipEthPIp → Ipv4Fits host frame

end Fits

/-! ## What each handler reads -/

section Handlers

variable (host : Host) (frame : Frame)

/-- Everything that is read or handed on is in a frame of a length. -/
def AllInside (ethLen : Nat) (events : List FrameEvent) : Prop :=
  ∀ event ∈ events, event.Inside ethLen

variable {ethLen : Nat}

@[simp]
theorem allInside_nil : AllInside ethLen [] :=
  nofun

@[simp]
theorem allInside_cons {event : FrameEvent} {rest : List FrameEvent} :
    AllInside ethLen (event :: rest) ↔
      event.Inside ethLen ∧ AllInside ethLen rest :=
  List.forall_mem_cons

@[simp]
theorem allInside_append {first second : List FrameEvent} :
    AllInside ethLen (first ++ second) ↔
      AllInside ethLen first ∧ AllInside ethLen second :=
  List.forall_mem_append

/-- Some bytes are inside exactly if the last one is. -/
@[simp]
theorem inside_read {offset length : Nat} :
    (FrameEvent.read offset (length + 1)).Inside ethLen ↔
      offset + (length + 1) ≤ ethLen := by
  constructor
  · intro inside
    exact inside length (Nat.lt_succ_self length)
  · intro fits index before
    omega

@[simp]
theorem inside_hand {offset length : Nat} :
    (FrameEvent.hand offset length).Inside ethLen ↔
      length = 0 ∨ offset + length ≤ ethLen := by
  constructor
  · intro inside
    cases length with
    | zero => exact Or.inl rfl
    | succ length => exact Or.inr (inside length (Nat.lt_succ_self length))
  · rintro (rfl | fits) index before
    · exact absurd before (Nat.not_lt_zero index)
    · omega

@[simp]
theorem inside_getFree : FrameEvent.getFree.Inside ethLen :=
  trivial

@[simp]
theorem inside_setUsed : FrameEvent.setUsed.Inside ethLen :=
  trivial

theorem sendEvents_inside : AllInside ethLen sendEvents := by
  simp [sendEvents]

theorem endsEvents_inside : AllInside ethLen endsEvents ↔ 38 ≤ ethLen := by
  simp [endsEvents]
  omega

theorem payloadlenEvents_inside :
    AllInside ethLen payloadlenEvents ↔ 47 ≤ ethLen := by
  simp [payloadlenEvents]
  omega

/-- The copy reads as many bytes as the length is after its conversions. -/
theorem cloneEvents_inside :
    AllInside frame.ethLen (cloneEvents frame) ↔
      12 ≤ frame.ethLen ∧ CopyFits frame := by
  have copy :
      (FrameEvent.read 0 (sizeT (toInt frame.ethLen))).Inside frame.ethLen ↔
        CopyFits frame := by
    unfold CopyFits
    cases sizeT (toInt frame.ethLen) with
    | zero => exact iff_of_true nofun (Nat.zero_le _)
    | succ size => rw [inside_read, Nat.zero_add]
  simp [cloneEvents, copy, and_comm]

theorem arp_inside :
    AllInside frame.ethLen (uipTxDoArp host frame) ↔
      42 ≤ frame.ethLen ∧ CopyFits frame := by
  have answer {condition : Prop} [Decidable condition] :
      AllInside frame.ethLen
        (if condition then [FrameEvent.setUsed] else []) := by
    split <;> simp
  simp only [uipTxDoArp, allInside_append, allInside_cons, inside_read,
    allInside_nil, cloneEvents_inside, answer, and_true]
  constructor
  · rintro ⟨⟨-, copy⟩, -, -, last⟩
    exact ⟨last, copy⟩
  · rintro ⟨long, copy⟩
    exact ⟨⟨by omega, copy⟩, by omega, by omega, long⟩

theorem icmp_inside :
    AllInside frame.ethLen (uipTxDoIpv4Icmp frame) ↔
      34 ≤ frame.ethLen ∧ CopyFits frame := by
  simp only [uipTxDoIpv4Icmp, allInside_append, allInside_cons, inside_read,
    allInside_nil, cloneEvents_inside, inside_setUsed, and_true]
  constructor
  · rintro ⟨⟨-, copy⟩, last, -⟩
    exact ⟨last, copy⟩
  · rintro ⟨long, copy⟩
    exact ⟨⟨by omega, copy⟩, long, by omega⟩

theorem dhcpIsEvents_inside (msgType : UInt8) (eth : Nat → UInt8) :
    AllInside ethLen (dhcpIsEvents msgType eth) ↔ 285 ≤ ethLen := by
  unfold dhcpIsEvents
  rw [allInside_cons, inside_read, and_iff_left_of_imp]
  intro long
  split
  · rw [allInside_cons, inside_read]
    refine ⟨by omega, ?_⟩
    split
    · rw [allInside_cons, inside_read]
      exact ⟨by omega, allInside_nil⟩
    · exact allInside_nil
  · exact allInside_nil

theorem dhcp_inside :
    AllInside frame.ethLen (uipTxDoIpv4UdpDhcp frame) ↔ DhcpFits frame := by
  have answer :
      AllInside frame.ethLen (cloneEvents frame ++ [.setUsed]) ↔
        12 ≤ frame.ethLen ∧ CopyFits frame := by
    rw [allInside_append, cloneEvents_inside, and_iff_left]
    simp
  unfold uipTxDoIpv4UdpDhcp DhcpFits replyMsgType
  rw [allInside_append, dhcpIsEvents_inside]
  apply and_congr_right
  intro long
  split
  next =>
    rw [answer, and_iff_right (by omega)]
    simp
  next =>
    rw [allInside_append, dhcpIsEvents_inside, and_iff_right long]
    split
    next =>
      rw [answer, and_iff_right (by omega)]
      simp
    next => simp

theorem udpIsDhcpEvents_inside (eth : Nat → UInt8) :
    AllInside ethLen (udpIsDhcpEvents eth) ↔
      36 ≤ ethLen ∧
        (htons (load16 eth 34) = uipDhcpPortClient →
          38 ≤ ethLen ∧
            (htons (load16 eth 36) = uipDhcpPortServer → 282 ≤ ethLen)) := by
  unfold udpIsDhcpEvents
  rw [allInside_cons, inside_read]
  apply and_congr_right
  intro _
  split
  next client =>
    rw [allInside_cons, inside_read, forall_prop_of_true client]
    apply and_congr_right
    intro _
    split
    next server =>
      rw [allInside_cons, inside_read, and_iff_left allInside_nil,
        forall_prop_of_true server]
    next other =>
      exact iff_of_true allInside_nil fun server => absurd server other
  next other =>
    exact iff_of_true allInside_nil fun client => absurd client other

theorem udp_inside :
    AllInside frame.ethLen (uipTxDoIpv4Udp host frame) ↔
      UdpFits host frame := by
  unfold uipTxDoIpv4Udp UdpFits
  rw [allInside_append, udpIsDhcpEvents_inside]
  split
  next =>
    rw [dhcp_inside]
    constructor
    · rintro ⟨-, dhcp⟩
      have long := dhcp.1
      exact ⟨by omega, fun _ _ => by omega, dhcp⟩
    · rintro ⟨ports, -, dhcp⟩
      have long := dhcp.1
      exact ⟨⟨by omega, fun _ => ⟨ports, fun _ => by omega⟩⟩, dhcp⟩
  next =>
    have data :
        AllInside frame.ethLen
            (if host.datagrams = true then
              [.read 38 2, .hand 42 (udpDataLen frame.eth)]
            else
              []) ↔
          (host.datagrams = true →
            40 ≤ frame.ethLen ∧
              (udpDataLen frame.eth = 0 ∨
                42 + udpDataLen frame.eth ≤ frame.ethLen)) := by
      split
      next made =>
        rw [allInside_cons, inside_read, allInside_cons, inside_hand,
          and_iff_left allInside_nil, forall_prop_of_true made]
      next none =>
        exact iff_of_true allInside_nil fun made => absurd made none
    rw [allInside_append, endsEvents_inside, data]
    constructor
    · rintro ⟨⟨-, cookie⟩, ports, payload⟩
      exact ⟨ports, fun client => (cookie client).2, payload⟩
    · rintro ⟨ports, cookie, payload⟩
      exact ⟨⟨by omega, fun client => ⟨ports, cookie client⟩⟩, ports, payload⟩

/-- The data of a segment, as far as they are written. -/
theorem tcpSocketSend_inside (sk : UipTcpSocket) (long : 50 ≤ frame.ethLen)
    (some : uipTcpPayloadlen frame.eth ≠ 0) :
    AllInside frame.ethLen (uipTcpSocketSend host frame sk) ↔
      (sk.writeDone = false →
        34 + (uipTcpHdrlen frame.eth).toNat +
            (uipTcpPayloadlen frame.eth).toNat ≤
          frame.ethLen) := by
  have positive : (uipTcpPayloadlen frame.eth).toNat ≠ 0 := by
    intro zero
    exact some (UInt16.toNat_inj.1 zero)
  have answer :
      AllInside frame.ethLen (if host.writes then sendEvents else []) := by
    split
    · exact sendEvents_inside
    · exact allInside_nil
  unfold uipTcpSocketSend
  split
  next done =>
    refine iff_of_true sendEvents_inside fun goes => ?_
    rw [done] at goes
    cases goes
  next goes =>
    rw [allInside_append, allInside_append, allInside_cons, inside_read,
      payloadlenEvents_inside, allInside_cons, inside_hand,
      and_iff_left answer, and_iff_left allInside_nil,
      or_iff_right positive, forall_prop_of_true (Bool.eq_false_iff.2 goes),
      and_iff_right ⟨by omega, by omega⟩]

theorem connection_inside (sk : UipTcpSocket) :
    AllInside frame.ethLen (connectionEvents host frame sk) ↔
      50 ≤ frame.ethLen ∧
        (uipTcpIsFin frame.eth = false →
          uipTcpPayloadlen frame.eth ≠ 0 →
            sk.writeDone = false →
              34 + (uipTcpHdrlen frame.eth).toNat +
                  (uipTcpPayloadlen frame.eth).toNat ≤
                frame.ethLen) := by
  have fields :
      AllInside frame.ethLen [.read 48 2, .read 42 4, .read 47 1] ↔
        50 ≤ frame.ethLen := by
    simp
    omega
  unfold connectionEvents
  rw [allInside_append, fields]
  apply and_congr_right
  intro long
  split
  next fin =>
    refine iff_of_true ?_ fun more => ?_
    · split
      · exact allInside_nil
      · exact sendEvents_inside
    · rw [fin] at more
      cases more
  next more =>
    rw [allInside_append, payloadlenEvents_inside,
      and_iff_right (by omega), forall_prop_of_true (Bool.eq_false_iff.2 more)]
    split
    next empty =>
      exact iff_of_true allInside_nil fun some => absurd empty some
    next some =>
      rw [forall_prop_of_true some]
      exact tcpSocketSend_inside host frame sk long some

theorem tcp_inside :
    AllInside frame.ethLen (uipTxDoIpv4Tcp host frame) ↔
      TcpFits host frame := by
  have front :
      AllInside frame.ethLen (.read 47 1 :: endsEvents) ↔
        48 ≤ frame.ethLen := by
    rw [allInside_cons, inside_read, endsEvents_inside]
    omega
  unfold uipTxDoIpv4Tcp TcpFits
  rw [allInside_append, front]
  apply and_congr_right
  intro long
  split
  next =>
    split
    next connected =>
      rw [forall_prop_of_true connected, allInside_append, allInside_append,
        endsEvents_inside, and_iff_left sendEvents_inside,
        and_iff_right (by omega)]
      simp
      omega
    next refused =>
      exact iff_of_true allInside_nil fun connected =>
        absurd connected refused
  next =>
    cases uipTcpSocketFind host.sockets (endsOf frame.eth) with
    | none => exact iff_of_true allInside_nil nofun
    | some sk =>
        refine (connection_inside host frame sk).trans ?_
        simp only [Option.mem_some_iff, forall_eq']

theorem ipv4_inside :
    AllInside frame.ethLen (uipTxDoIpv4 host frame) ↔
      Ipv4Fits host frame := by
  unfold uipTxDoIpv4 Ipv4Fits
  rw [allInside_cons, inside_read]
  apply and_congr_right
  intro _
  split
  next plain =>
    rw [allInside_cons, inside_read, forall_prop_of_true plain]
    apply and_congr_right
    intro _
    split
    next => exact icmp_inside frame
    next =>
      split
      next => exact tcp_inside host frame
      next =>
        split
        next datagram =>
          rw [forall_prop_of_true datagram]
          exact udp_inside host frame
        next other =>
          exact iff_of_true allInside_nil fun datagram =>
            absurd datagram other
  next options =>
    exact iff_of_true allInside_nil fun plain => absurd plain options

theorem frame_inside :
    AllInside frame.ethLen (uipTx host frame) ↔ FrameFits host frame := by
  unfold uipTx FrameFits
  rw [allInside_cons, inside_read]
  apply and_congr_right
  intro _
  split
  next => exact arp_inside host frame
  next =>
    split
    next packet =>
      rw [forall_prop_of_true packet]
      exact ipv4_inside host frame
    next other =>
      exact iff_of_true allInside_nil fun packet => absurd packet other

end Handlers

/-! ## What a frame is -/

section Chains

variable (chain : Chain) (vnetLen : Nat)

/--
In every accepted chain, what is read and handed on lies in the frame exactly
if the frame reaches as far as its headers say.
-/
theorem reads_inside_iff (host : Host) :
    (∀ frame ∈ chain.frame vnetLen,
        ∀ event ∈ uipTx host frame, event.Inside frame.ethLen) ↔
      ∀ frame ∈ chain.frame vnetLen, FrameFits host frame :=
  forall₂_congr fun frame _ => frame_inside host frame

end Chains

/-- A datagram without data whose length says that there are 992 bytes. -/
def overlongDatagram : Chain where
  iov := [⟨0, 12⟩, ⟨12, 42⟩]
  out := 2
  mem := fun place =>
    (List.replicate 24 0 ++
      [8, 0, 0x45, 0, 0, 28, 0, 0, 0, 0, 64, uipIpPUdp, 0, 0, 10, 0, 0, 2, 10,
        0, 0, 1, 0x30, 0x39, 0, 53, 3, 0xe8, 0, 0]).getD
      place 0
  heap := fun _ => 0
  allocates := true
  within := Nat.le_refl 2

/-- The bytes behind the datagram are sent to the network. -/
theorem reads_outside :
    ¬ ∀ (chain : Chain) (vnetLen : Nat) (host : Host),
        ∀ frame ∈ chain.frame vnetLen,
          ∀ event ∈ uipTx host frame, event.Inside frame.ethLen := by
  intro inside
  have sent :=
    inside overlongDatagram 12 ⟨0, [], true, true, true⟩ _ rfl
      (.hand 42 992) (by decide +kernel)
  have last : 42 + 991 < 42 := sent 991 (by decide)
  exact absurd last (by decide)

end Kemu.Net.FrameReads
