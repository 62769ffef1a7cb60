import Kemu.Net.Packet

/-!
# Lengths and checksums of built frames

A UDP packet gets its total length by an addition in the byte order of the
network, where the carry between the two bytes is lost.  The checksums are
computed over whatever the headers say, and verify.
-/

namespace Kemu.Net.Checksums

open Kemu.Lib.Bytes Kemu.Lib.OnesComplement Kemu.Net.Packet

/-! ## Before the lengths are set -/

/-- The version and header length are set, and the checksum is zero. -/
structure Cooked (buf : UipBuf) : Prop where
  vhl : buf.eth 14 = 0x45
  csum : load16 buf.eth 24 = 0

namespace Cooked

variable {buf : UipBuf}

theorem hdrlen (cooked : Cooked buf) : uipIpHdrlen buf.eth = 20 := by
  rw [uipIpHdrlen, cooked.vhl]
  decide

theorem write (cooked : Cooked buf) {offset : Nat} (behind : 34 ≤ offset)
    (data : List UInt8) : Cooked (buf.write offset data) where
  vhl := by
    rw [UipBuf.write_before _ (by omega)]
    exact cooked.vhl
  csum := by
    rw [UipBuf.load16_write_before _ (by omega)]
    exact cooked.csum

theorem narrow (cooked : Cooked buf) (value : Int) :
    Cooked (buf.narrow value) :=
  ⟨cooked.vhl, cooked.csum⟩

theorem headers (info : UipInfo) (proto : UInt8) (dip sip : UInt32)
    (buf : UipBuf) : Cooked (cookHeaders info proto dip sip buf) :=
  ⟨cookHeaders_vhl info proto dip sip buf,
    cookHeaders_csum info proto dip sip buf⟩

end Cooked

section Udp

variable (info : UipInfo) (sk : UipUdpSocket) (buf : UipBuf)
  (payload : Option (Nat → UInt8)) (payloadLen : Nat)

theorem cooked_udp : Cooked (cookUdp info sk buf payload payloadLen) := by
  have headers := Cooked.headers info uipIpPUdp sk.dip sk.sip buf
  cases payload with
  | none =>
      exact ((((headers.write (by decide) _).write (by decide) _).narrow
        _).write (by decide) _).write (by decide) _
  | some source =>
      exact (((((headers.write (by decide) _).write (by decide) _).narrow
        _).write (by decide) _).write (by decide) _).write (by decide) _

theorem cookUdp_len :
    load16 (cookUdp info sk buf payload payloadLen).eth 38 =
      htons (UInt16.ofNat (payloadLen + 8)) := by
  cases payload with
  | none => simp [cookUdp, uipUdpHdrlen]
  | some source => simp [cookUdp, uipUdpHdrlen]

theorem cookUdp_csum :
    load16 (cookUdp info sk buf payload payloadLen).eth 40 = 0 := by
  cases payload with
  | none => simp [cookUdp]
  | some source => simp [cookUdp]

end Udp

section Tcp

variable (info : UipInfo) (sk : UipTcpSocket) (buf : UipBuf) (flag : UInt8)
  (payloadLen : UInt16)

theorem cookTcpHeader_off :
    uipTcpHdrlen (cookTcpHeader info sk buf flag).eth = 20 := by
  have off : (cookTcpHeader info sk buf flag).eth 46 = uipTcpHdrLen := by
    simp [cookTcpHeader]
  rw [uipTcpHdrlen, off]
  decide

/-- The payload is behind a header without options. -/
theorem cookTcp_eq :
    cookTcp info sk buf flag payloadLen =
      if 0 < payloadLen then
        (cookTcpHeader info sk buf flag).write 54
          (peek sk.payload 0 payloadLen.toNat)
      else
        cookTcpHeader info sk buf flag := by
  have place :
      34 + (uipTcpHdrlen (cookTcpHeader info sk buf flag).eth).toNat = 54 :=
    by rw [cookTcpHeader_off]; rfl
  rw [cookTcp, place]

theorem cooked_tcpHeader : Cooked (cookTcpHeader info sk buf flag) where
  vhl := by
    have headers := Cooked.headers info uipIpPTcp sk.dip sk.sip buf
    simpa [cookTcpHeader] using headers.vhl
  csum := by
    have headers := Cooked.headers info uipIpPTcp sk.dip sk.sip buf
    simpa [cookTcpHeader] using headers.csum

theorem cooked_tcp : Cooked (cookTcp info sk buf flag payloadLen) := by
  have header := cooked_tcpHeader info sk buf flag
  rw [cookTcp_eq]
  split
  · exact header.write (by decide) _
  · exact header

theorem cookTcp_off :
    uipTcpHdrlen (cookTcp info sk buf flag payloadLen).eth = 20 := by
  have header := cookTcpHeader_off info sk buf flag
  rw [cookTcp_eq]
  split
  · rw [uipTcpHdrlen_write _ (by decide), header]
  · exact header

theorem cookTcp_csum :
    load16 (cookTcp info sk buf flag payloadLen).eth 50 = 0 := by
  rw [cookTcp_eq]
  split
  · simp [cookTcpHeader]
  · simp [cookTcpHeader]

end Tcp

/-! ## The length and the checksum of the IP header -/

section Seal

variable {buf : UipBuf} (len : UInt16)

theorem sealIp_len : load16 (sealIp len buf).eth 16 = len := by
  simp [sealIp]

theorem sealIp_hdrlen :
    uipIpHdrlen (sealIp len buf).eth = uipIpHdrlen buf.eth := by
  rw [sealIp, uipIpHdrlen_write _ (by decide),
    uipIpHdrlen_write _ (by decide)]

/-- What is behind the IP header stays. -/
theorem sealIp_behind {index : Nat} (behind : 34 ≤ index) :
    (sealIp len buf).eth index = buf.eth index := by
  have sum : 24 + 2 ≤ index := by omega
  have length : 16 + 2 ≤ index := by omega
  simp [sealIp, sum, length]

theorem sealIp_load16 {index : Nat} (behind : 34 ≤ index) :
    load16 (sealIp len buf).eth index = load16 buf.eth index :=
  load16_congr (sealIp_behind len behind)
    (sealIp_behind len (by omega))

theorem sealIp_verifies (cooked : Cooked buf) :
    Verifies (peek (sealIp len buf).eth 14 20) := by
  let sized := buf.write 16 (le16 len)
  have zero : load16 sized.eth (14 + 10) = 0 := by
    rw [UipBuf.load16_write_behind _ (by simp)]
    exact cooked.csum
  have header : uipIpHdrlen sized.eth = 20 := by
    rw [uipIpHdrlen_write _ (by decide), cooked.hdrlen]
  have csum :
      (uipCsumIp sized.eth).toNat =
        0xffff - fold (sumAt 0 (peek sized.eth 14 20)) := by
    rw [uipCsumIp, header]
    exact uipCsum_toNat sized.eth 14 20
  have sum :
      sumAt 0 (peek (sealIp len buf).eth 14 (10 + 2 + 8)) =
        sumAt 0 (peek sized.eth 14 (10 + 2 + 8)) +
          (uipCsumIp sized.eth).toNat :=
    sumAt_checksum rfl zero (UipBuf.load16_write sized _)
      (fun index _ before => UipBuf.write_before sized before)
      (fun index behind _ => UipBuf.write_behind sized behind)
  rw [verifies_iff]
  rw [csum] at sum
  exact (congrArg fold sum).trans (fold_complement _)

end Seal

/-! ## The checksum of the segment -/

/--
What a receiver puts in front of a segment: the addresses, the protocol and
the length of the segment, all in the byte order of the network.
-/
def pseudoHeader (frame : Nat → UInt8) (len : Nat) : List UInt8 :=
  peek frame 26 8 ++
    [0, frame 23, UInt8.ofNat (len / 256), UInt8.ofNat len]

/--
Both checksums of a frame verify: that of the IP header, and that of a
segment of a length, with the pseudo header in front and padded with a zero.
-/
structure ChecksumsVerify (frame : Nat → UInt8) (len : Nat) : Prop where
  ip : Verifies (peek frame 14 20)
  segment :
    Verifies
      (pseudoHeader frame len ++ peek frame 34 len ++
        List.replicate (len % 2) 0)

/-- The checksum of a segment is put in its place, behind the IP header. -/
def sumSegment (ip : UipBuf) (len place : Nat) : UipBuf :=
  let summed := csumBehind ip len (pseudoHeader ip.eth len)
  summed.2.write place (le16 summed.1)

section Segment

variable {buf : UipBuf}

/-- The pseudo header of the code is that of the receiver. -/
theorem pseudoHdr_eq (frame : Nat → UInt8) {len : Nat} (fits : len < 65536) :
    pseudoHdr frame (htons (UInt16.ofNat len)) = pseudoHeader frame len := by
  have addresses : peek frame 26 8 = peek frame 26 4 ++ peek frame 30 4 :=
    peek_add frame 26 4 4
  have value : (UInt16.ofNat len).toNat = len :=
    UInt16.toNat_ofNat_of_lt fits
  have first :
      UInt8.ofNat (len % 256 * 256 + len / 256) =
        UInt8.ofNat (len / 256) := by
    rw [← UInt8.toNat_inj, UInt8.toNat_ofNat', UInt8.toNat_ofNat']
    omega
  have second :
      UInt8.ofNat ((len % 256 * 256 + len / 256) / 256) =
        UInt8.ofNat len := by
    have quotient : len / 256 < 256 := by omega
    have high : (len % 256 * 256 + len / 256) / 256 = len % 256 := by omega
    rw [high, ← UInt8.toNat_inj, UInt8.toNat_ofNat', UInt8.toNat_ofNat']
    omega
  rw [pseudoHdr, pseudoHeader, addresses, le16, htons_toNat, value, toLe,
    toLe, toLe, first, second]
  simp

theorem pseudoHeader_length (frame : Nat → UInt8) (len : Nat) :
    (pseudoHeader frame len).length = 12 := by
  simp [pseudoHeader]

/-- In front of the checksum nothing is changed. -/
theorem sumSegment_before {len place index : Nat} (before : index < place)
    (inside : index < 34 + len) :
    (sumSegment buf len place).eth index = buf.eth index := by
  rw [sumSegment, UipBuf.write_before _ before,
    csumBehind_before _ _ inside]

/-- A segment whose checksum was zero verifies with what the code put in. -/
theorem segment_verifies {place rest : Nat} (even : place % 2 = 0)
    (short : place + 2 + rest + 13 < 65536)
    (zero : load16 buf.eth (34 + place) = 0) :
    Verifies
      (pseudoHeader buf.eth (place + 2 + rest) ++
        peek (sumSegment buf (place + 2 + rest) (34 + place)).eth 34
          (place + 2 + rest) ++
        List.replicate ((place + 2 + rest) % 2) 0) := by
  have length := pseudoHeader_length buf.eth (place + 2 + rest)
  have csum := csumBehind_toNat buf short length
  have sum :
      sumAt 0
          (peek (sumSegment buf (place + 2 + rest) (34 + place)).eth 34
            (place + 2 + rest)) =
        sumAt 0 (peek buf.eth 34 (place + 2 + rest)) +
          (csumBehind buf (place + 2 + rest)
            (pseudoHeader buf.eth (place + 2 + rest))).1.toNat := by
    refine sumAt_checksum even zero (UipBuf.load16_write _ _) ?_ ?_
    · intro index _ before
      exact sumSegment_before before (by omega)
    · intro index behind before
      rw [sumSegment,
        UipBuf.write_behind _ (by rw [le16_length]; exact behind),
        csumBehind_before _ _ (by omega)]
  have whole :
      (pseudoHeader buf.eth (place + 2 + rest)).length % 2 = 0 := by
    rw [length]
  rw [verifies_iff, sumAt_append, sumAt_append_even 0 whole,
    sumAt_replicate_zero, sum, csum, Nat.add_zero, ← Nat.add_assoc,
    Nat.add_comm (sumAt 0 (pseudoHeader _ _))]
  exact fold_complement _

/-- What the end of both functions makes of the fields of a frame. -/
theorem checksums_of_cooked {filled ip : UipBuf} {len : UInt16}
    {place rest : Nat} (packed : ip.eth = (sealIp len filled).eth)
    (cooked : Cooked filled) (zero : load16 filled.eth (34 + place) = 0)
    (even : place % 2 = 0) (short : place + 2 + rest + 13 < 65536) :
    ChecksumsVerify (sumSegment ip (place + 2 + rest) (34 + place)).eth
      (place + 2 + rest) := by
  have header (start count : Nat) (inside : start + count ≤ 34) :
      peek (sumSegment ip (place + 2 + rest) (34 + place)).eth start count =
        peek ip.eth start count :=
    peek_congr fun index _ before =>
      sumSegment_before (by omega) (by omega)
  have proto :
      (sumSegment ip (place + 2 + rest) (34 + place)).eth 23 = ip.eth 23 :=
    sumSegment_before (by omega) (by omega)
  constructor
  · rw [header 14 20 (by decide), packed]
    exact sealIp_verifies len cooked
  · have same :
        pseudoHeader (sumSegment ip (place + 2 + rest) (34 + place)).eth
            (place + 2 + rest) =
          pseudoHeader ip.eth (place + 2 + rest) := by
      rw [pseudoHeader, pseudoHeader, header 26 8 (by decide), proto]
    rw [same]
    apply segment_verifies even short
    rw [packed, sealIp_load16 len (by omega), zero]

end Segment

/-! ## Every built frame -/

section Built

variable (info : UipInfo) (buf : UipBuf)

/-! ### Datagrams -/

/-- `uip_csum_udp` sums up what its length field says. -/
theorem uipCsumUdp_eq {ip : UipBuf} {len : Nat} (fits : len < 65536)
    (field : load16 ip.eth 38 = htons (UInt16.ofNat len)) :
    uipCsumUdp ip = csumBehind ip len (pseudoHeader ip.eth len) := by
  have value : (UInt16.ofNat len).toNat = len :=
    UInt16.toNat_ofNat_of_lt fits
  rw [uipCsumUdp, field, htons_htons, value, pseudoHdr_eq ip.eth fits]

/-- The sum that is stored as the length of the packet. -/
def udpTotal (payloadLen : Nat) : Nat :=
  (htons (UInt16.ofNat (payloadLen + 8))).toNat + (htons 20).toNat

/-- `uip_udp_make_pkg` up to the checksum of the datagram. -/
def udpPacket (sk : UipUdpSocket) (payload : Option (Nat → UInt8))
    (payloadLen : Nat) : UipBuf :=
  sealIp (UInt16.ofNat (udpTotal payloadLen))
    ((cookUdp info sk buf payload payloadLen).narrow (udpTotal payloadLen))

theorem uipUdpMakePkg_eq (sk : UipUdpSocket)
    (payload : Option (Nat → UInt8)) {payloadLen : Nat}
    (fits : payloadLen ≤ uipMaxUdpPayload) :
    uipUdpMakePkg info sk buf payload payloadLen =
      finish info
        (sumSegment (udpPacket info buf sk payload payloadLen)
          (payloadLen + 8) 40) := by
  have short : payloadLen + 8 < 65536 := by
    unfold uipMaxUdpPayload at fits
    omega
  have cooked := cooked_udp info sk buf payload payloadLen
  have length := cookUdp_len info sk buf payload payloadLen
  have field :
      load16 (udpPacket info buf sk payload payloadLen).eth 38 =
        htons (UInt16.ofNat (payloadLen + 8)) := by
    rw [udpPacket, sealIp_load16 _ (by decide), UipBuf.narrow_eth, length]
  unfold uipUdpMakePkg
  dsimp only
  rw [length, cooked.hdrlen]
  show
    finish info
        ((uipCsumUdp (udpPacket info buf sk payload payloadLen)).2.write 40
          (le16 (uipCsumUdp (udpPacket info buf sk payload payloadLen)).1)) =
      _
  rw [uipCsumUdp_eq short field]
  rfl

theorem udp_checksums (sk : UipUdpSocket)
    (payload : Option (Nat → UInt8)) {payloadLen : Nat}
    (fits : payloadLen ≤ uipMaxUdpPayload) :
    ChecksumsVerify (uipUdpMakePkg info sk buf payload payloadLen).eth
      (8 + payloadLen) := by
  have cooked := cooked_udp info sk buf payload payloadLen
  have zero := cookUdp_csum info sk buf payload payloadLen
  have length : payloadLen + 8 = 6 + 2 + payloadLen := by omega
  rw [uipUdpMakePkg_eq info buf sk payload fits, finish_eth, length,
    Nat.add_comm 8, length]
  unfold uipMaxUdpPayload at fits
  exact @checksums_of_cooked _ _ _ 6 payloadLen rfl (cooked.narrow _) zero rfl
    (by omega)

/-! ### Segments of TCP -/

/-- `uip_csum_tcp` sums up what the packet holds behind the IP header. -/
theorem uipCsumTcp_eq {ip : UipBuf} {len : Nat} (fits : len + 20 < 65536)
    (header : uipIpHdrlen ip.eth = 20)
    (field : load16 ip.eth 16 = htons (UInt16.ofNat (len + 20))) :
    uipCsumTcp ip =
      csumBehind (ip.narrow len) len (pseudoHeader ip.eth len) := by
  have total : (UInt16.ofNat (len + 20)).toNat = len + 20 :=
    UInt16.toNat_ofNat_of_lt fits
  have rest : ((len + 20 : Nat) : Int) - ((20 : UInt16).toNat : Nat) = len := by
    have twenty : (20 : UInt16).toNat = 20 := rfl
    rw [twenty]
    omega
  have short : UInt16.ofInt (len : Int) = UInt16.ofNat len := by
    rw [← UInt16.toNat_inj, ofInt_toNat, UInt16.toNat_ofNat']
    omega
  have value : (UInt16.ofNat len).toNat = len :=
    UInt16.toNat_ofNat_of_lt (Nat.lt_of_le_of_lt (Nat.le_add_right _ 20) fits)
  unfold uipCsumTcp
  dsimp only
  rw [field, htons_htons, total, header, rest, short, value,
    pseudoHdr_eq ip.eth (by omega)]

/-- `uip_tcp_payload_send` up to the checksum of the segment. -/
def tcpPacket (sk : UipTcpSocket) (flag : UInt8) (payloadLen : UInt16) :
    UipBuf :=
  let total := payloadLen.toNat + 20 + 20
  (sealIp (htons (UInt16.ofNat total))
    ((cookTcp info sk buf flag payloadLen).narrow total)).narrow
      (payloadLen.toNat + 20 : Nat)

theorem uipTcpPayloadSend_eq (sk : UipTcpSocket) (flag : UInt8)
    {payloadLen : UInt16} (fits : payloadLen.toNat ≤ uipMaxTcpPayload) :
    uipTcpPayloadSend info sk buf flag payloadLen =
      finish info
        (sumSegment (tcpPacket info buf sk flag payloadLen)
          (payloadLen.toNat + 20) 50) := by
  have short : payloadLen.toNat + 20 + 20 < 65536 := by
    unfold uipMaxTcpPayload at fits
    omega
  have cooked := cooked_tcp info sk buf flag payloadLen
  have off := cookTcp_off info sk buf flag payloadLen
  have total :
      (uipTcpHdrlen (cookTcp info sk buf flag payloadLen).eth).toNat +
            payloadLen.toNat +
          (uipIpHdrlen (cookTcp info sk buf flag payloadLen).eth).toNat =
        payloadLen.toNat + 20 + 20 := by
    have twenty : (20 : UInt16).toNat = 20 := rfl
    rw [off, cooked.hdrlen, twenty]
    omega
  unfold uipTcpPayloadSend
  dsimp only
  rw [total, uipCsumTcp_eq short]
  · rfl
  · rw [sealIp_hdrlen, UipBuf.narrow_eth, cooked.hdrlen]
  · exact sealIp_len _

theorem tcp_checksums (sk : UipTcpSocket) (flag : UInt8)
    {payloadLen : UInt16}
    (fits : payloadLen.toNat ≤ uipMaxTcpPayload) :
    ChecksumsVerify (uipTcpPayloadSend info sk buf flag payloadLen).eth
      (20 + payloadLen.toNat) := by
  have cooked := cooked_tcp info sk buf flag payloadLen
  have zero := cookTcp_csum info sk buf flag payloadLen
  have length :
      payloadLen.toNat + 20 = 16 + 2 + (2 + payloadLen.toNat) := by
    omega
  rw [uipTcpPayloadSend_eq info buf sk flag fits, finish_eth, length,
    Nat.add_comm 20, length]
  unfold uipMaxTcpPayload at fits
  exact @checksums_of_cooked _ _ _ 16 _ rfl (cooked.narrow _) zero rfl
    (by omega)

/--
Both checksums of every frame that is built verify, over the payload of any
length up to the largest one.
-/
theorem checksums_verify :
    (∀ (sk : UipUdpSocket) (payload : Option (Nat → UInt8))
        (payloadLen : Nat), payloadLen ≤ uipMaxUdpPayload →
        ChecksumsVerify (uipUdpMakePkg info sk buf payload payloadLen).eth
          (8 + payloadLen)) ∧
      ∀ (sk : UipTcpSocket) (flag : UInt8) (payloadLen : UInt16),
        payloadLen.toNat ≤ uipMaxTcpPayload →
          ChecksumsVerify (uipTcpPayloadSend info sk buf flag payloadLen).eth
            (20 + payloadLen.toNat) := by
  constructor
  · intro sk payload payloadLen fits
    exact udp_checksums info buf sk payload fits
  · intro sk flag payloadLen fits
    exact tcp_checksums info buf sk flag fits

end Built

/-- A connection with bytes to send. -/
def talkative : UipTcpSocket :=
  { (default : UipTcpSocket) with payload := fun index => .ofNat index }

/-- A UDP packet of five bytes, and a TCP segment of three. -/
theorem checksums_verify_short :
    ChecksumsVerify
        (uipUdpMakePkg default default default (some talkative.payload)
          5).eth 13 ∧
      ChecksumsVerify
        (uipTcpPayloadSend default talkative default 24 3).eth 23 :=
  ⟨(checksums_verify default default).1 default _ 5 (by decide),
    (checksums_verify default default).2 talkative 24 3 (by decide)⟩

/-! ## The lengths of a UDP packet -/

/--
The lengths of the datagram and of the packet, in the byte order of the
network, and the length of the frame.
-/
structure UdpLengths (buf : UipBuf) (payloadLen : Nat) : Prop where
  datagram : (htons (load16 buf.eth 38)).toNat = payloadLen + 8
  packet : (htons (load16 buf.eth 16)).toNat = payloadLen + 8 + 20
  frame : buf.ethLen = (htons (load16 buf.eth 16)).toNat + 14

section Lengths

variable (info : UipInfo) (sk : UipUdpSocket) (buf : UipBuf)
  (payload : Option (Nat → UInt8)) (payloadLen : Nat)

/-- The two length fields of the frame as they are stored. -/
theorem udp_fields (fits : payloadLen ≤ uipMaxUdpPayload) :
    load16 (uipUdpMakePkg info sk buf payload payloadLen).eth 38 =
        htons (UInt16.ofNat (payloadLen + 8)) ∧
      load16 (uipUdpMakePkg info sk buf payload payloadLen).eth 16 =
        UInt16.ofNat (udpTotal payloadLen) := by
  rw [uipUdpMakePkg_eq info buf sk payload fits, finish_eth]
  have kept {index : Nat} (before : index + 1 < 40) :
      load16
          (sumSegment (udpPacket info buf sk payload payloadLen)
            (payloadLen + 8) 40).eth index =
        load16 (udpPacket info buf sk payload payloadLen).eth index :=
    load16_congr (sumSegment_before (by omega) (by omega))
      (sumSegment_before before (by omega))
  constructor
  · rw [kept (by decide), udpPacket, sealIp_load16 _ (by decide),
      UipBuf.narrow_eth, cookUdp_len]
  · rw [kept (by decide), udpPacket, sealIp_len]

/-- The bytes of the length change places, and 20 is added to the low one. -/
theorem udpTotal_eq (fits : payloadLen ≤ uipMaxUdpPayload) :
    udpTotal payloadLen =
      (payloadLen + 8) % 256 * 256 + (payloadLen + 8) / 256 + 5120 := by
  have short : payloadLen + 8 < UInt16.size := by
    unfold uipMaxUdpPayload at fits
    show payloadLen + 8 < 65536
    omega
  have value : (UInt16.ofNat (payloadLen + 8)).toNat = payloadLen + 8 :=
    UInt16.toNat_ofNat_of_lt short
  have header : (htons 20).toNat = 5120 := rfl
  rw [udpTotal, htons_toNat, value, header]

/-- The carry out of the low byte is lost. -/
theorem udpTotal_swapped (fits : payloadLen ≤ uipMaxUdpPayload) :
    (htons (UInt16.ofNat (udpTotal payloadLen))).toNat =
      if (payloadLen + 8) % 256 < 236 then
        payloadLen + 28
      else
        payloadLen + 28 - 256 := by
  have total := udpTotal_eq payloadLen fits
  unfold uipMaxUdpPayload at fits
  have high : (payloadLen + 8) / 256 < 256 := by omega
  have low : (payloadLen + 8) % 256 < 256 := Nat.mod_lt _ (by decide)
  have parts :
      payloadLen + 8 =
        256 * ((payloadLen + 8) / 256) + (payloadLen + 8) % 256 := by
    omega
  rw [htons_toNat, UInt16.toNat_ofNat', total]
  generalize (payloadLen + 8) / 256 = top at *
  generalize (payloadLen + 8) % 256 = bottom at *
  split
  next carryless =>
    have sum :
        (bottom * 256 + top + 5120) % 2 ^ 16 = 256 * (bottom + 20) + top := by
      omega
    rw [sum]
    omega
  next carry =>
    have sum :
        (bottom * 256 + top + 5120) % 2 ^ 16 = 256 * (bottom - 236) + top := by
      omega
    rw [sum]
    omega

/--
The lengths are right exactly if adding 20 to the low byte of the length of
the datagram makes no carry.
-/
theorem udp_lengths_iff (fits : payloadLen ≤ uipMaxUdpPayload) :
    UdpLengths (uipUdpMakePkg info sk buf payload payloadLen) payloadLen ↔
      (payloadLen + 8) % 256 < 236 := by
  obtain ⟨datagram, packet⟩ :=
    udp_fields info sk buf payload payloadLen fits
  have total := udpTotal_swapped payloadLen fits
  rw [← packet] at total
  have value : (UInt16.ofNat (payloadLen + 8)).toNat = payloadLen + 8 := by
    unfold uipMaxUdpPayload at fits
    rw [UInt16.toNat_ofNat']
    omega
  constructor
  · intro right
    by_contra carry
    have wrong := right.packet
    rw [total, if_neg carry] at wrong
    omega
  · intro fine
    refine ⟨?_, ?_, rfl⟩
    · rw [datagram, htons_htons, value]
    · rw [total, if_pos fine]

/-- An empty datagram, and one with 228 bytes. -/
theorem udp_lengths_iff_short :
    (UdpLengths (uipUdpMakePkg default default default none 0) 0 ↔
        (0 + 8) % 256 < 236) ∧
      (UdpLengths (uipUdpMakePkg default default default none 228) 228 ↔
        (228 + 8) % 256 < 236) :=
  ⟨udp_lengths_iff default default default none 0 (by decide),
    udp_lengths_iff default default default none 228 (by decide)⟩

/-- A payload of 228 bytes makes a packet that is too short by 256. -/
theorem udp_lengths_wrong :
    ¬ ∀ (info : UipInfo) (sk : UipUdpSocket) (buf : UipBuf)
        (payload : Option (Nat → UInt8)) (payloadLen : Nat),
        payloadLen ≤ uipMaxUdpPayload →
          UdpLengths (uipUdpMakePkg info sk buf payload payloadLen)
            payloadLen := by
  intro right
  have packet := (right default default default none 228 (by decide)).packet
  have fields := udp_fields default default default none 228 (by decide)
  rw [fields.2, udpTotal_swapped 228 (by decide)] at packet
  exact absurd packet (by decide)

end Lengths

end Kemu.Net.Checksums
