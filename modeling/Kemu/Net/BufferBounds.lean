import Kemu.Net.Checksums
import Kemu.Net.Dhcp
import Kemu.Net.IcmpReply

/-!
# What is written to a buffer

`uip_init` allocates as many bytes for a frame as an IP packet can have, and
the pseudo header.  The Ethernet header and the padding were forgotten: the
pseudo header of the largest payloads ends behind the buffer.  A frame of the
guest is copied whatever its length is.
-/

namespace Kemu.Net.BufferBounds

open Kemu.Lib.Bytes Kemu.Net.Packet Kemu.Net.Checksums Kemu.Net.Dhcp
open Kemu.Net.IcmpReply

/-! ## Sound buffers -/

/--
Everything that was written is inside what was allocated, and every length
and count fitted into its 16 bits.
-/
structure Sound (buf : UipBuf) : Prop where
  inside : buf.extent ≤ ethSize
  exact : buf.wrapped = false

section Steps

variable (buf : UipBuf)

/-- A write keeps a buffer sound exactly if it ends inside. -/
theorem sound_write (offset : Nat) (data : List UInt8) :
    Sound (buf.write offset data) ↔
      Sound buf ∧ offset + data.length ≤ 65548 := by
  constructor
  · intro sound
    obtain ⟨before, here⟩ := Nat.max_le.1 sound.inside
    exact ⟨⟨before, sound.exact⟩, here⟩
  · rintro ⟨sound, here⟩
    exact ⟨Nat.max_le.2 ⟨sound.inside, here⟩, sound.exact⟩

theorem sound_narrow (value : Int) :
    Sound (buf.narrow value) ↔ Sound buf ∧ 0 ≤ value ∧ value < 65536 := by
  constructor
  · intro sound
    have both := Bool.or_eq_false_iff.1 sound.exact
    have fits : decide (0 ≤ value ∧ value < 65536) = true := by
      simpa using both.2
    exact ⟨⟨sound.inside, both.1⟩, of_decide_eq_true fits⟩
  · rintro ⟨sound, fits⟩
    refine ⟨sound.inside, Bool.or_eq_false_iff.2 ⟨sound.exact, ?_⟩⟩
    rw [decide_eq_true fits]
    rfl

theorem sound_finish (info : UipInfo) :
    Sound (finish info buf) ↔ Sound buf :=
  ⟨fun sound => ⟨sound.inside, sound.exact⟩,
    fun sound => ⟨sound.inside, sound.exact⟩⟩

theorem sound_sealIp (len : UInt16) :
    Sound (sealIp len buf) ↔ Sound buf := by
  simp [sealIp, sound_write]

/-- The pseudo header is what ends last. -/
theorem sound_csumBehind (len : Nat) {hdr : List UInt8}
    (length : hdr.length = 12) :
    Sound (csumBehind buf len hdr).2 ↔
      Sound buf ∧ 34 + len + len % 2 + 12 ≤ 65548 := by
  unfold csumBehind sizeofPseudoHdr
  split
  next odd =>
    simp only [sound_narrow, sound_write, List.length_singleton, length]
    constructor
    · rintro ⟨⟨⟨sound, -⟩, last⟩, -⟩
      exact ⟨sound, by omega⟩
    · rintro ⟨sound, last⟩
      exact ⟨⟨⟨sound, by omega⟩, by omega⟩, by omega, by omega⟩
  next even =>
    simp only [sound_narrow, sound_write, length]
    constructor
    · rintro ⟨⟨sound, last⟩, -⟩
      exact ⟨sound, by omega⟩
    · rintro ⟨sound, last⟩
      exact ⟨⟨sound, by omega⟩, by omega, by omega⟩

theorem sound_cookHeaders (info : UipInfo) (proto : UInt8)
    (dip sip : UInt32) :
    Sound (cookHeaders info proto dip sip buf) ↔ Sound buf := by
  simp [cookHeaders, sound_write, info.hostMac.2, info.guestMac.2]

theorem sound_cookTcpHeader (info : UipInfo) (sk : UipTcpSocket)
    (flag : UInt8) :
    Sound (cookTcpHeader info sk buf flag) ↔ Sound buf := by
  simp [cookTcpHeader, sound_cookHeaders, sound_write]

end Steps

/-! ## Payloads of the host -/

section Payloads

variable (info : UipInfo) (buf : UipBuf)

theorem sound_sumSegment (len : Nat) {place : Nat} (early : place ≤ 50) :
    Sound (sumSegment buf len place) ↔
      Sound buf ∧ 34 + len + len % 2 + 12 ≤ 65548 := by
  have inside : place + 2 ≤ 65548 := by omega
  rw [sumSegment, sound_write, le16_length, and_iff_left inside,
    sound_csumBehind _ _ (pseudoHeader_length _ _)]

theorem sound_cookUdp (sk : UipUdpSocket) (payload : Option (Nat → UInt8))
    {payloadLen : Nat} (short : payloadLen + 8 < 65536) :
    Sound (cookUdp info sk buf payload payloadLen) ↔
      Sound buf ∧ (payload.isSome = true → 42 + payloadLen ≤ 65548) := by
  have length : ((payloadLen : Int) + 8 < 65536) := by omega
  have positive : (0 : Int) ≤ payloadLen + 8 := by omega
  cases payload with
  | none =>
      simp [cookUdp, sound_write, sound_narrow, sound_cookHeaders,
        uipUdpHdrlen, length, positive]
  | some source =>
      simp [cookUdp, sound_write, sound_narrow, sound_cookHeaders,
        uipUdpHdrlen, length, positive]

/-- A datagram fits if its length is added right and it ends early. -/
theorem udp_sound_iff (sk : UipUdpSocket)
    (payload : Option (Nat → UInt8)) {payloadLen : Nat}
    (fits : payloadLen ≤ uipMaxUdpPayload) :
    Sound (uipUdpMakePkg info sk buf payload payloadLen) ↔
      Sound buf ∧ (payloadLen + 8) % 256 < 236 ∧
        payloadLen + payloadLen % 2 ≤ 65494 := by
  have total := udpTotal_eq payloadLen fits
  rw [uipUdpMakePkg_eq info buf sk payload fits, sound_finish,
    sound_sumSegment _ _ (by decide), udpPacket, sound_sealIp, sound_narrow]
  unfold uipMaxUdpPayload at fits
  rw [sound_cookUdp info buf sk payload (by omega), total]
  constructor
  · rintro ⟨⟨⟨sound, -⟩, -, carryless⟩, last⟩
    exact ⟨sound, by omega, by omega⟩
  · rintro ⟨sound, carryless, last⟩
    exact ⟨⟨⟨sound, fun _ => by omega⟩, by omega, by omega⟩, by omega⟩

theorem tcp_sound_iff (sk : UipTcpSocket) (flag : UInt8)
    {payloadLen : UInt16} (fits : payloadLen.toNat ≤ uipMaxTcpPayload) :
    Sound (uipTcpPayloadSend info sk buf flag payloadLen) ↔
      Sound buf ∧ payloadLen.toNat + payloadLen.toNat % 2 ≤ 65482 := by
  have cook :
      Sound (cookTcp info sk buf flag payloadLen) ↔
        Sound buf ∧ (0 < payloadLen → 54 + payloadLen.toNat ≤ 65548) := by
    rw [cookTcp_eq]
    split
    next some =>
      rw [sound_write, sound_cookTcpHeader, peek_length,
        forall_prop_of_true some]
    next none =>
      rw [sound_cookTcpHeader, and_iff_left fun some => absurd some none]
  rw [uipTcpPayloadSend_eq info buf sk flag fits, sound_finish,
    sound_sumSegment _ _ (by decide), tcpPacket, sound_narrow, sound_sealIp,
    sound_narrow, cook]
  unfold uipMaxTcpPayload at fits
  constructor
  · rintro ⟨⟨⟨⟨sound, -⟩, -⟩, -⟩, last⟩
    exact ⟨sound, by omega⟩
  · rintro ⟨sound, last⟩
    exact ⟨⟨⟨⟨sound, fun _ => by omega⟩, by omega, by omega⟩, by omega,
      by omega⟩, by omega⟩

end Payloads

/-! ## Frames of the guest -/

section Frames

variable (info : UipInfo) (arg : UipTxArg) (buf : UipBuf)

theorem sound_uipBufClone :
    Sound (uipBufClone info arg buf) ↔
      Sound buf ∧ sizeT arg.ethLen ≤ 65548 := by
  have copied :
      Sound
          { buf.write 0 (peek arg.eth 0 (sizeT arg.ethLen)) with
            vnet := poke buf.vnet 0 (peek arg.vnet 0 arg.vnetLen)
            vnetLen := arg.vnetLen
            ethLen := arg.ethLen } ↔
        Sound (buf.write 0 (peek arg.eth 0 (sizeT arg.ethLen))) :=
    ⟨fun sound => ⟨sound.inside, sound.exact⟩,
      fun sound => ⟨sound.inside, sound.exact⟩⟩
  simp [uipBufClone, sound_write, copied, info.hostMac.2]

theorem arp_sound_iff :
    Sound (uipTxDoArp info arg buf).1 ↔
      Sound buf ∧ sizeT arg.ethLen ≤ 65548 := by
  unfold uipTxDoArp
  dsimp only
  split
  · simp [sound_write, sound_uipBufClone, info.hostMac.2]
  · simp [sound_write, sound_uipBufClone]

/-- The packet of an answer, with the header of the copy. -/
theorem icmpPacket_header :
    (Sound (icmpPacket info arg buf) ↔
        Sound buf ∧ sizeT arg.ethLen ≤ 65548) ∧
      uipIpHdrlen (icmpPacket info arg buf).eth =
        uipIpHdrlen (uipBufClone info arg buf).eth ∧
      load16 (icmpPacket info arg buf).eth 16 =
        load16 (uipBufClone info arg buf).eth 16 := by
  refine ⟨?_, ?_, ?_⟩
  · simp [icmpPacket, icmpFields, sound_write, sound_uipBufClone]
  · simp [icmpPacket, icmpFields, uipIpHdrlen_write]
  · simp [icmpPacket, icmpFields]

/-- The count of the ICMP checksum must not be negative. -/
theorem icmp_sound_iff :
    Sound (uipTxDoIpv4Icmp info arg buf) ↔
      (Sound buf ∧ sizeT arg.ethLen ≤ 65548) ∧
        (uipIpHdrlen (uipBufClone info arg buf).eth).toNat + 8 ≤
          (htons (load16 (uipBufClone info arg buf).eth 16)).toNat := by
  obtain ⟨sound, header, len⟩ := icmpPacket_header info arg buf
  have bound :=
    (htons (load16 (uipBufClone info arg buf).eth 16)).toNat_lt
  show Sound ((uipCsumIcmp (icmpPacket info arg buf)).2.write 36 (le16 _)) ↔ _
  simp only [uipCsumIcmp, sound_write, sound_narrow, le16_length, header, len,
    sound]
  constructor
  · rintro ⟨⟨⟨inside, positive, -⟩, -⟩, -⟩
    exact ⟨inside, by omega⟩
  · rintro ⟨inside, long⟩
    exact ⟨⟨⟨inside, by omega, by omega⟩, by decide⟩, by decide⟩

theorem dhcp_sound_iff (replyMsgType : UInt8) :
    Sound (uipTxDoIpv4UdpDhcp info arg buf replyMsgType) ↔
      Sound buf ∧ sizeT arg.ethLen ≤ 65548 := by
  have options :
      282 + (uipDhcpFillOption info replyMsgType).length ≤ 65548 := by
    have short := uipDhcpFillOption_length info replyMsgType
    omega
  unfold uipTxDoIpv4UdpDhcp
  dsimp only
  rw [udp_sound_iff info _ _ none (by decide), and_iff_left (by decide)]
  simp [uipDhcpMakePkg, sound_write, sound_uipBufClone, options]

end Frames

/-! ## Every frame that is built -/

/--
What a frame is built for: a frame of the guest that is copied, or bytes of
the host up to the largest payload.
-/
inductive Occasion where
  | arp (arg : UipTxArg)
  | icmp (arg : UipTxArg)
  | dhcp (arg : UipTxArg) (replyMsgType : UInt8)
  | datagram (sk : UipUdpSocket) (payload : Nat → UInt8) (payloadLen : Nat)
      (fits : payloadLen ≤ uipMaxUdpPayload)
  | segment (sk : UipTcpSocket) (flag : UInt8) (payloadLen : UInt16)
      (fits : payloadLen.toNat ≤ uipMaxTcpPayload)

/-- A buffer to which nothing was written yet. -/
def untouched (buf : UipBuf) : UipBuf :=
  { buf with extent := 0, wrapped := false }

namespace Occasion

/-- The frame that is built in a buffer. -/
def build (info : UipInfo) (buf : UipBuf) : Occasion → UipBuf
  | .arp arg => (uipTxDoArp info arg buf).1
  | .icmp arg => uipTxDoIpv4Icmp info arg buf
  | .dhcp arg replyMsgType => uipTxDoIpv4UdpDhcp info arg buf replyMsgType
  | .datagram sk payload payloadLen _ =>
      uipUdpMakePkg info sk buf (some payload) payloadLen
  | .segment sk flag payloadLen _ =>
      uipTcpPayloadSend info sk buf flag payloadLen

/--
A frame of the guest is not longer than the buffer, and an ICMP packet has
room for its header.  A payload, filled up to an even number of bytes, is 13
bytes shorter than the largest one; and the length of a datagram is added to
that of the IP header without a carry.
-/
def Fits (info : UipInfo) (buf : UipBuf) : Occasion → Prop
  | .arp arg => sizeT arg.ethLen ≤ ethSize
  | .icmp arg =>
      sizeT arg.ethLen ≤ ethSize ∧
        (uipIpHdrlen (uipBufClone info arg buf).eth).toNat + 8 ≤
          (htons (load16 (uipBufClone info arg buf).eth 16)).toNat
  | .dhcp arg _ => sizeT arg.ethLen ≤ ethSize
  | .datagram _ _ payloadLen _ =>
      (payloadLen + 8) % 256 < 236 ∧ payloadLen + payloadLen % 2 ≤ 65494
  | .segment _ _ payloadLen _ =>
      payloadLen.toNat + payloadLen.toNat % 2 ≤ 65482

end Occasion

theorem untouched_sound (buf : UipBuf) : Sound (untouched buf) :=
  ⟨Nat.zero_le _, rfl⟩

/--
A frame is built inside its buffer, and no length or count wraps, exactly if
what it is built for fits.
-/
theorem build_sound_iff (info : UipInfo) (buf : UipBuf)
    (occasion : Occasion) :
    Sound (occasion.build info (untouched buf)) ↔
      occasion.Fits info (untouched buf) := by
  have start := untouched_sound buf
  cases occasion with
  | arp arg =>
      exact (arp_sound_iff info arg _).trans (and_iff_right start)
  | icmp arg =>
      rw [Occasion.build, icmp_sound_iff, and_iff_right start]
      exact Iff.rfl
  | dhcp arg replyMsgType =>
      exact (dhcp_sound_iff info arg _ replyMsgType).trans
        (and_iff_right start)
  | datagram sk payload payloadLen fits =>
      exact (udp_sound_iff info _ sk (some payload) fits).trans
        (and_iff_right start)
  | segment sk flag payloadLen fits =>
      exact (tcp_sound_iff info _ sk flag fits).trans (and_iff_right start)

/-- The largest payload of TCP ends behind the buffer. -/
theorem largest_segment_unsound :
    ¬ ∀ (info : UipInfo) (buf : UipBuf) (occasion : Occasion),
        Sound (occasion.build info (untouched buf)) := by
  intro sound
  have fits : (65495 : UInt16).toNat ≤ uipMaxTcpPayload := by decide
  have last := sound default default (.segment default 16 65495 fits)
  have inside := (tcp_sound_iff default _ default 16 fits).1 last
  exact absurd inside.2 (by decide)

end Kemu.Net.BufferBounds
