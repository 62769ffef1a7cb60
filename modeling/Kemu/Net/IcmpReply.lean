import Kemu.Net.Packet

/-!
# Answering an echo request

The answer is a copy of the request with a new type and new checksums.  The
ICMP checksum is computed over as many bytes as there are data, from the
start of the ICMP message on: the length of the ICMP header is subtracted
though the header is summed up, and the last eight bytes of the message are
left out.
-/

namespace Kemu.Net.IcmpReply

open Kemu.Lib.Bytes Kemu.Lib.OnesComplement Kemu.Net.Packet

/-! ## Requests -/

/--
An echo request with a number of data bytes: an IP header without options,
and a frame that holds the packet.
-/
structure EchoRequest (arg : UipTxArg) (dataLen : Nat) : Prop where
  vhl : arg.eth 14 = 0x45
  proto : arg.eth 23 = uipIpPIcmp
  type : arg.eth 34 = 8
  code : arg.eth 35 = 0
  len : (htons (load16 arg.eth 16)).toNat = 20 + 8 + dataLen
  holds : 14 + (20 + 8 + dataLen) ≤ arg.ethLen
  short : arg.ethLen < 2 ^ 31

/-- The ICMP message of a request, its type and its checksum zero. -/
def blankMessage (eth : Nat → UInt8) (dataLen : Nat) : List UInt8 :=
  [0, eth 35, 0, 0] ++ peek eth 38 (4 + dataLen)

/-- The checksum verifies over the whole message, and the data are returned. -/
structure GoodReply (request reply : Nat → UInt8) (dataLen : Nat) : Prop where
  checksum : Verifies (peek reply 34 (8 + dataLen))
  data : peek reply 42 dataLen = peek request 42 dataLen

/-! ## The copy -/

section Clone

variable (info : UipInfo) (arg : UipTxArg) (buf : UipBuf)

/-- Behind the addresses of the frame the copy is the request. -/
theorem uipBufClone_eth {index : Nat} (behind : 12 ≤ index)
    (inside : index < sizeT arg.ethLen) :
    (uipBufClone info arg buf).eth index = arg.eth index := by
  have addresses :
      (uipBufClone info arg buf).eth index =
        (buf.write 0 (peek arg.eth 0 (sizeT arg.ethLen))).eth index := by
    unfold uipBufClone
    rw [UipBuf.write_behind _ (by rw [peek_length]; omega),
      UipBuf.write_behind _ (by rw [info.hostMac.2]; exact behind)]
  have copied :=
    @poke_inside _ buf.eth 0 index (peek arg.eth 0 (sizeT arg.ethLen))
      (by rw [peek_length]; exact inside)
  rw [Nat.zero_add] at copied
  rw [addresses]
  refine copied.trans ?_
  simp [peek]

/-- `uip_tx_do_ipv4_icmp` before the checksums. -/
def icmpFields : UipBuf :=
  uipBufClone info arg buf
    |>.write 26 (peek arg.eth 30 4)
    |>.write 30 (peek arg.eth 26 4)
    |>.write 24 (le16 0)
    |>.write 34 [0]
    |>.write 36 (le16 0)

theorem icmpFields_csum :
    load16 (icmpFields info arg buf).eth 24 = 0 ∧
      load16 (icmpFields info arg buf).eth 36 = 0 := by
  constructor
  · simp [icmpFields]
  · simp [icmpFields]

variable {arg} {dataLen : Nat}

theorem EchoRequest.size (request : EchoRequest arg dataLen) :
    14 + (20 + 8 + dataLen) ≤ sizeT arg.ethLen := by
  have holds := request.holds
  have short := request.short
  unfold sizeT
  omega

/-- What is not set is copied. -/
theorem icmpFields_eth (request : EchoRequest arg dataLen) {index : Nat}
    (behind : 14 ≤ index) (inside : index < 42 + dataLen)
    (apart : index < 24 ∨ index = 35 ∨ 38 ≤ index) :
    (icmpFields info arg buf).eth index = arg.eth index := by
  have size := request.size
  have copied :=
    uipBufClone_eth info arg buf (by omega : 12 ≤ index) (by omega)
  unfold icmpFields
  rcases apart with before | rfl | data
  · rw [UipBuf.write_before _ (by omega), UipBuf.write_before _ (by omega),
      UipBuf.write_before _ before, UipBuf.write_before _ (by omega),
      UipBuf.write_before _ (by omega), copied]
  · rw [UipBuf.write_before _ (by decide), UipBuf.write_behind _ (by simp),
      UipBuf.write_behind _ (by simp), UipBuf.write_behind _ (by simp),
      UipBuf.write_behind _ (by simp), copied]
  · rw [UipBuf.write_behind _ (by simp; omega),
      UipBuf.write_behind _ (by simp; omega),
      UipBuf.write_behind _ (by simp; omega),
      UipBuf.write_behind _ (by simp; omega),
      UipBuf.write_behind _ (by simp; omega), copied]

/-- The message that is summed up. -/
theorem icmpFields_message (request : EchoRequest arg dataLen) :
    peek (icmpFields info arg buf).eth 34 (8 + dataLen) =
      blankMessage arg.eth dataLen := by
  have split :
      peek (icmpFields info arg buf).eth 34 (8 + dataLen) =
        peek (icmpFields info arg buf).eth 34 4 ++
          peek (icmpFields info arg buf).eth 38 (4 + dataLen) := by
    rw [← peek_add, ← Nat.add_assoc]
  have type : (icmpFields info arg buf).eth 34 = 0 := by
    simp [icmpFields]
  have code : (icmpFields info arg buf).eth 35 = arg.eth 35 :=
    icmpFields_eth info buf request (by decide) (by omega)
      (Or.inr (Or.inl rfl))
  obtain ⟨low, high⟩ := load16_eq_zero (icmpFields_csum info arg buf).2
  have header :
      peek (icmpFields info arg buf).eth 34 4 = [0, arg.eth 35, 0, 0] := by
    have bytes (memory : Nat → UInt8) :
        peek memory 34 4 =
          [memory 34, memory 35, memory 36, memory (36 + 1)] :=
      rfl
    rw [bytes, type, code, low, high]
  have rest :
      peek (icmpFields info arg buf).eth 38 (4 + dataLen) =
        peek arg.eth 38 (4 + dataLen) :=
    peek_congr fun index behind before =>
      icmpFields_eth info buf request (by omega) (by omega)
        (Or.inr (Or.inr behind))
  rw [split, header, rest, blankMessage]

end Clone

/-! ## The answer -/

section Reply

variable (info : UipInfo) {arg : UipTxArg} (buf : UipBuf) {dataLen : Nat}

/-- With the checksum of its IP header. -/
def icmpPacket (info : UipInfo) (arg : UipTxArg) (buf : UipBuf) : UipBuf :=
  (icmpFields info arg buf).write 24
    (le16 (uipCsumIp (icmpFields info arg buf).eth))

theorem icmpPacket_eth {index : Nat} (behind : 26 ≤ index) :
    (icmpPacket info arg buf).eth index =
      (icmpFields info arg buf).eth index :=
  UipBuf.write_behind _ (by rw [le16_length]; exact behind)

/-- The checksum is computed over as many bytes as there are data. -/
theorem uipCsumIcmp_toNat (request : EchoRequest arg dataLen) :
    (uipCsumIcmp (icmpPacket info arg buf)).1.toNat =
      0xffff -
        fold (sumAt 0 (peek (icmpPacket info arg buf).eth 34 dataLen)) := by
  have front (index : Nat) (behind : 14 ≤ index) (before : index < 24) :
      (icmpPacket info arg buf).eth index = arg.eth index := by
    rw [icmpPacket, UipBuf.write_before _ before]
    exact icmpFields_eth info buf request behind (by omega) (Or.inl before)
  have len :
      load16 (icmpPacket info arg buf).eth 16 = load16 arg.eth 16 :=
    load16_congr (front 16 (by decide) (by decide))
      (front 17 (by decide) (by decide))
  have header : (uipIpHdrlen (icmpPacket info arg buf).eth).toNat = 20 := by
    rw [uipIpHdrlen, front 14 (by decide) (by decide), request.vhl]
    rfl
  have bound := (htons (load16 arg.eth 16)).toNat_lt
  have count :
      (UInt16.ofInt
          (((htons (load16 (icmpPacket info arg buf).eth 16)).toNat : Int) -
            (uipIpHdrlen (icmpPacket info arg buf).eth).toNat - 8)).toNat =
        dataLen := by
    rw [ofInt_toNat, len, header]
    have length := request.len
    omega
  rw [uipCsumIcmp, uipCsum_toNat, count]

/-- The answer differs from the packet in its checksum. -/
theorem reply_eth {index : Nat} (apart : index < 36 ∨ 38 ≤ index) :
    (uipTxDoIpv4Icmp info arg buf).eth index =
      (icmpPacket info arg buf).eth index := by
  show
    ((((icmpPacket info arg buf).narrow _).write 36 _).write 36 _).eth index =
      _
  rcases apart with before | behind
  · rw [UipBuf.write_before _ before, UipBuf.write_before _ before,
      UipBuf.narrow_eth]
  · rw [UipBuf.write_behind _ (by rw [le16_length]; exact behind),
      UipBuf.write_behind _ (by rw [le16_length]; exact behind),
      UipBuf.narrow_eth]

/-- The data come back. -/
theorem reply_data (request : EchoRequest arg dataLen) :
    peek (uipTxDoIpv4Icmp info arg buf).eth 42 dataLen =
      peek arg.eth 42 dataLen := by
  apply peek_congr
  intro index behind before
  rw [reply_eth info buf (by omega), icmpPacket_eth info buf (by omega)]
  exact icmpFields_eth info buf request (by omega) before
    (Or.inr (Or.inr (by omega)))

/-- The message that is summed up, cut where the sum ends. -/
theorem packet_message (request : EchoRequest arg dataLen) :
    peek (icmpPacket info arg buf).eth 34 dataLen ++
        peek (icmpPacket info arg buf).eth (34 + dataLen) 8 =
      blankMessage arg.eth dataLen := by
  rw [← peek_add, Nat.add_comm dataLen,
    ← icmpFields_message info buf request]
  exact peek_congr fun index behind _ =>
    icmpPacket_eth info buf (by omega)

/-- The sum over the answer is that over the message and its checksum. -/
theorem reply_sum (request : EchoRequest arg dataLen) :
    sumAt 0 (peek (uipTxDoIpv4Icmp info arg buf).eth 34 (8 + dataLen)) =
      sumAt 0 (blankMessage arg.eth dataLen) +
        (uipCsumIcmp (icmpPacket info arg buf)).1.toNat := by
  have zero : load16 (icmpPacket info arg buf).eth (34 + 2) = 0 := by
    rw [← (icmpFields_csum info arg buf).2]
    exact load16_congr (icmpPacket_eth info buf (by decide))
      (icmpPacket_eth info buf (by decide))
  have length : 8 + dataLen = 2 + 2 + (4 + dataLen) := by omega
  have message :
      peek (icmpPacket info arg buf).eth 34 (2 + 2 + (4 + dataLen)) =
        blankMessage arg.eth dataLen := by
    rw [← packet_message info buf request, ← peek_add]
    congr 1
    omega
  rw [length, ← message]
  refine sumAt_checksum rfl zero (UipBuf.load16_write _ _) ?_ ?_
  · intro index _ before
    exact reply_eth info buf (Or.inl before)
  · intro index behind _
    exact reply_eth info buf (Or.inr behind)

/--
The answer to an echo request is right exactly if the last eight bytes of the
message add nothing to its checksum.
-/
theorem echo_reply_iff (request : EchoRequest arg dataLen) :
    GoodReply arg.eth (uipTxDoIpv4Icmp info arg buf).eth dataLen ↔
      sumAt dataLen ((blankMessage arg.eth dataLen).drop dataLen) % 65535 =
        0 := by
  have sum := reply_sum info buf request
  rw [uipCsumIcmp_toNat info buf request,
    ← packet_message info buf request, sumAt_append, peek_length,
    Nat.zero_add] at sum
  have tail :
      (blankMessage arg.eth dataLen).drop dataLen =
        peek (icmpPacket info arg buf).eth (34 + dataLen) 8 := by
    rw [← packet_message info buf request]
    exact List.drop_left' (peek_length _ _ _)
  rw [tail, ← fold_complement_iff, ← sum, ← verifies_iff]
  exact ⟨fun good => good.checksum,
    fun verifies => ⟨verifies, reply_data info buf request⟩⟩

end Reply

/-! ## Requests with a wrong answer -/

/-- An echo request with identifier 1 and sequence number 1, without data. -/
def ping : UipTxArg where
  vnet := fun _ => 0
  eth := fun index =>
    [2, 0, 0, 0, 0, 1, 2, 0, 0, 0, 0, 2, 8, 0, 0x45, 0, 0, 28, 0, 0, 0, 0, 64,
        uipIpPIcmp, 0, 0, 10, 0, 0, 2, 10, 0, 0, 1, 8, 0, 0xf7, 0xfd, 0, 1, 0,
        1].getD
      index 0
  vnetLen := 10
  ethLen := 42

theorem ping_request : EchoRequest ping 0 where
  vhl := rfl
  proto := rfl
  type := rfl
  code := rfl
  len := rfl
  holds := by decide
  short := by decide

/-- The answer to a request without data has the checksum of no bytes. -/
theorem echo_reply_ping :
    GoodReply ping.eth (uipTxDoIpv4Icmp default ping default).eth 0 ↔
      sumAt 0 ((blankMessage ping.eth 0).drop 0) % 65535 = 0 :=
  echo_reply_iff default default ping_request

/-- A ping without data is answered with a wrong checksum. -/
theorem echo_reply_wrong :
    ¬ ∀ (info : UipInfo) (arg : UipTxArg) (buf : UipBuf) (dataLen : Nat),
        EchoRequest arg dataLen →
          GoodReply arg.eth (uipTxDoIpv4Icmp info arg buf).eth dataLen := by
  intro right
  have verifies := (right default ping default 0 ping_request).checksum
  have nothing :
      fold (sumAt 0 (peek (icmpPacket default ping default).eth 34 0)) = 0 :=
    fold_of_lt (Nat.zero_lt_succ _)
  have message : sumAt 0 (blankMessage ping.eth 0) = 512 := rfl
  rw [verifies_iff, fold_eq_iff, reply_sum default default ping_request,
    uipCsumIcmp_toNat default default ping_request, nothing, message]
    at verifies
  exact absurd verifies.2 (by decide)

end Kemu.Net.IcmpReply
