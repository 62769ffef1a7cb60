import Kemu.Lib.Bytes
import Kemu.Lib.OnesComplement

/-!
# Frames of the user-mode network

The buffers in which frames for the guest are built, the checksums, and the
functions that build a frame.  The memory behind `buf->eth` is a function
from positions to bytes; with it a buffer keeps how far it was written and
whether a length of 16 bits did not fit.

The fields of a frame are at these positions of the packed structures:

* `uip_eth`: `dst` 0, `src` 6, `type` 12;
* `uip_arp`: `op` 20, `smac` 22, `sip` 28, `dmac` 32, `dip` 38;
* `uip_ip`: `vhl` 14, `tos` 15, `len` 16, `id` 18, `flgfrag` 20, `ttl` 22,
  `proto` 23, `csum` 24, `sip` 26, `dip` 30;
* `uip_icmp`: `type` 34, `code` 35, `csum` 36, `id` 38, `seq` 40;
* `uip_udp`: `sport` 34, `dport` 36, `len` 38, `csum` 40, `payload` 42;
* `uip_tcp`: `sport` 34, `dport` 36, `seq` 38, `ack` 42, `off` 46, `flg` 47,
  `win` 48, `csum` 50, `urgent` 52;
* `uip_dhcp`: `msg_type` 42, `client_ip` 54, `your_ip` 58, `server_ip` 62,
  `agent_ip` 66, `magic_cookie` 278, `option` 282.
-/

namespace Kemu.Net.Packet

open Kemu.Lib.Bytes Kemu.Lib.OnesComplement

/-! ## Constants -/

/-- `UIP_ETH_P_IP`. -/
def uipEthPIp : UInt16 := 0x0800

/-- `UIP_ETH_P_ARP`. -/
def uipEthPArp : UInt16 := 0x0806

/-- `UIP_IP_VER_4`. -/
def uipIpVer4 : UInt8 := 0x40

/-- `UIP_IP_HDR_LEN`. -/
def uipIpHdrLen : UInt8 := 0x05

/-- `UIP_IP_TTL`. -/
def uipIpTtl : UInt8 := 0x40

/-- `UIP_IP_P_UDP`. -/
def uipIpPUdp : UInt8 := 0x11

/-- `UIP_IP_P_TCP`. -/
def uipIpPTcp : UInt8 := 0x06

/-- `UIP_IP_P_ICMP`. -/
def uipIpPIcmp : UInt8 := 0x01

/-- `UIP_TCP_HDR_LEN`. -/
def uipTcpHdrLen : UInt8 := 0x50

/-- `UIP_TCP_WIN_SIZE`. -/
def uipTcpWinSize : UInt16 := 14600

/-- `UIP_MAX_TCP_PAYLOAD`. -/
def uipMaxTcpPayload : Nat := 64 * 1024 - 20 - 20 - 1

/-- `UIP_MAX_UDP_PAYLOAD`. -/
def uipMaxUdpPayload : Nat := 64 * 1024 - 20 - 8 - 1

/-- `sizeof(struct uip_pseudo_hdr)`. -/
def sizeofPseudoHdr : Nat := 12

/-- What `uip_init` allocates for `buf->eth`. -/
def ethSize : Nat := 1024 * 64 + sizeofPseudoHdr

/-! ## Numbers in memory -/

/-- `htons` and `ntohs` of a host with the least significant byte first. -/
def htons (value : UInt16) : UInt16 :=
  UInt16.ofNat (value.toNat % 256 * 256 + value.toNat / 256)

/-- `htonl` and `ntohl`. -/
def htonl (value : UInt32) : UInt32 :=
  UInt32.ofNat (ofLe (toLe 4 value.toNat).reverse)

/-- A number of 16 bits as it is stored. -/
def le16 (value : UInt16) : List UInt8 :=
  toLe 2 value.toNat

/-- A number of 32 bits as it is stored. -/
def le32 (value : UInt32) : List UInt8 :=
  toLe 4 value.toNat

/-- A load of 16 bits. -/
def load16 (memory : Nat → UInt8) (offset : Nat) : UInt16 :=
  UInt16.ofNat (ofLe (peek memory offset 2))

/-- A load of 32 bits. -/
def load32 (memory : Nat → UInt8) (offset : Nat) : UInt32 :=
  UInt32.ofNat (ofLe (peek memory offset 4))

/-- The conversion of an `int` to `size_t`. -/
def sizeT (value : Int) : Nat :=
  (value % 2 ^ 64).toNat

/-- The conversion of a `size_t` to `int`. -/
def toInt (size : Nat) : Int :=
  Int.bmod size (2 ^ 32)

/-! ## Buffers -/

/-- `struct uip_eth_addr`. -/
abbrev UipEthAddr := { addr : List UInt8 // addr.length = 6 }

instance : Inhabited UipEthAddr :=
  ⟨⟨List.replicate 6 0, rfl⟩⟩

/-- The fields of `struct uip_info` that frames are built from. -/
structure UipInfo where
  guestMac : UipEthAddr
  hostMac : UipEthAddr
  guestIp : UInt32
  guestNetmask : UInt32
  hostIp : UInt32
  dnsIp : Fin 3 → UInt32
  domainName : Option (List UInt8)
  vnetHdrLen : Nat
deriving Inhabited

/--
`struct uip_buf`: `extent` is the end of what was written to `eth`, and
`wrapped` says whether a length or count did not fit into 16 bits.
-/
structure UipBuf where
  vnetLen : Nat
  ethLen : Int
  vnet : Nat → UInt8
  eth : Nat → UInt8
  extent : Nat
  wrapped : Bool
deriving Inhabited

/-- `struct uip_tx_arg`, without the pointer to `info`. -/
structure UipTxArg where
  vnet : Nat → UInt8
  eth : Nat → UInt8
  vnetLen : Nat
  ethLen : Int
deriving Inhabited

namespace UipBuf

/-- Write to `buf->eth`. -/
def write (buf : UipBuf) (offset : Nat) (data : List UInt8) : UipBuf :=
  { buf with
    eth := poke buf.eth offset data
    extent := max buf.extent (offset + data.length) }

/-- A length or count is converted to `u16`. -/
def narrow (buf : UipBuf) (value : Int) : UipBuf :=
  { buf with wrapped := buf.wrapped || !decide (0 ≤ value ∧ value < 65536) }

end UipBuf

/-! ## Checksums -/

/-- `uip_ip_hdrlen`. -/
def uipIpHdrlen (eth : Nat → UInt8) : UInt16 :=
  (eth 14 &&& 0x0f).toUInt16 * 4

/-- `uip_tcp_hdrlen`. -/
def uipTcpHdrlen (eth : Nat → UInt8) : UInt16 :=
  (eth 46 >>> 4).toUInt16 * 4

/-- `uip_udp_hdrlen`. -/
def uipUdpHdrlen : UInt16 := 8

/-- `uip_eth_hdrlen`. -/
def uipEthHdrlen : UInt16 := 14

/-- The loop of `uip_csum` and the odd byte behind it. -/
def uipCsumLoop (memory : Nat → UInt8) : Nat → Nat → Nat → Nat
  | addr, count + 2, sum =>
      uipCsumLoop memory (addr + 2) count
        (sum + (load16 memory addr).toNat)
  | addr, 1, sum => sum + (memory addr).toNat
  | _, 0, sum => sum

/-- `uip_csum`. -/
def uipCsum
    (csum : UInt16) (memory : Nat → UInt8) (addr : Nat) (count : UInt16) :
    UInt16 :=
  UInt16.ofNat
    (0xffff - fold (uipCsumLoop memory addr count.toNat csum.toNat))

/-- `uip_csum_ip`. -/
def uipCsumIp (eth : Nat → UInt8) : UInt16 :=
  uipCsum 0 eth 14 (uipIpHdrlen eth)

/-- `uip_csum_icmp`, with what it does to the buffer. -/
def uipCsumIcmp (buf : UipBuf) : UInt16 × UipBuf :=
  let count : Int :=
    (htons (load16 buf.eth 16)).toNat - (uipIpHdrlen buf.eth).toNat - 8
  let csum := uipCsum 0 buf.eth 34 (UInt16.ofInt count)
  (csum, (buf.narrow count).write 36 (le16 csum))

/--
The end of `uip_csum_udp` and `uip_csum_tcp`: the pseudo header is put behind
the padded segment and summed up with it.
-/
def csumBehind (buf : UipBuf) (len : Nat) (hdr : List UInt8) :
    UInt16 × UipBuf :=
  if len % 2 ≠ 0 then
    let padded := buf.write (34 + len) [0]
    let scratch := padded.write (34 + len + 1) hdr
    let count : Int := len + 1 + sizeofPseudoHdr
    (uipCsum 0 scratch.eth 34 (UInt16.ofInt count), scratch.narrow count)
  else
    let scratch := buf.write (34 + len) hdr
    let count : Int := len + sizeofPseudoHdr
    (uipCsum 0 scratch.eth 34 (UInt16.ofInt count), scratch.narrow count)

/-- `struct uip_pseudo_hdr` for the addresses and the protocol of a frame. -/
def pseudoHdr (eth : Nat → UInt8) (len : UInt16) : List UInt8 :=
  peek eth 26 4 ++ peek eth 30 4 ++ [0, eth 23] ++ le16 len

/-- `uip_csum_udp`. -/
def uipCsumUdp (buf : UipBuf) : UInt16 × UipBuf :=
  let len := load16 buf.eth 38
  csumBehind buf (htons len).toNat (pseudoHdr buf.eth len)

/-- `uip_csum_tcp`. -/
def uipCsumTcp (buf : UipBuf) : UInt16 × UipBuf :=
  let len : Int :=
    (htons (load16 buf.eth 16)).toNat - (uipIpHdrlen buf.eth).toNat
  let tcpLen := UInt16.ofInt len
  csumBehind (buf.narrow len) tcpLen.toNat
    (pseudoHdr buf.eth (htons tcpLen))

/-! ## Building frames -/

/-- `struct uip_udp_socket`, as far as frames are built from it. -/
structure UipUdpSocket where
  dport : UInt32
  sport : UInt32
  dip : UInt32
  sip : UInt32
deriving Inhabited

/-- `struct uip_tcp_socket`, as far as frames are built from it. -/
structure UipTcpSocket where
  dport : UInt32
  sport : UInt32
  seqServer : UInt32
  ackServer : UInt32
  dip : UInt32
  sip : UInt32
  payload : Nat → UInt8
deriving Inhabited

/-- The Ethernet header and the IP header, as both functions write them. -/
def cookHeaders
    (info : UipInfo) (proto : UInt8) (dip sip : UInt32) (buf : UipBuf) :
    UipBuf :=
  buf
    |>.write 6 info.hostMac.1
    |>.write 0 info.guestMac.1
    |>.write 12 (le16 (htons uipEthPIp))
    |>.write 14 [uipIpVer4 ||| uipIpHdrLen]
    |>.write 15 [0]
    |>.write 18 (le16 0)
    |>.write 20 (le16 0)
    |>.write 22 [uipIpTtl]
    |>.write 23 [proto]
    |>.write 24 (le16 0)
    |>.write 26 (le32 dip)
    |>.write 30 (le32 sip)

/-- The `virtio_net_hdr` is cleared and the length of the frame is set. -/
def finish (info : UipInfo) (buf : UipBuf) : UipBuf :=
  { buf with
    vnetLen := info.vnetHdrLen
    vnet := poke buf.vnet 0 (List.replicate info.vnetHdrLen 0)
    ethLen := (htons (load16 buf.eth 16)).toNat + uipEthHdrlen.toNat }

/-- The length of the packet is set, and the checksum of its IP header. -/
def sealIp (len : UInt16) (buf : UipBuf) : UipBuf :=
  let sized := buf.write 16 (le16 len)
  sized.write 24 (le16 (uipCsumIp sized.eth))

/--
`uip_udp_make_pkg` up to the payload.  A null `payload` is already in its
place.
-/
def cookUdp
    (info : UipInfo) (sk : UipUdpSocket) (buf : UipBuf)
    (payload : Option (Nat → UInt8)) (payloadLen : Nat) : UipBuf :=
  let udpLen := payloadLen + uipUdpHdrlen.toNat
  let header :=
    cookHeaders info uipIpPUdp sk.dip sk.sip buf
      |>.write 34 (le16 sk.dport.toUInt16)
      |>.write 36 (le16 sk.sport.toUInt16)
      |>.narrow udpLen
      |>.write 38 (le16 (htons (UInt16.ofNat udpLen)))
      |>.write 40 (le16 0)
  payload.elim header fun source =>
    header.write 42 (peek source 0 payloadLen)

/--
`uip_udp_make_pkg`.  The two lengths are added in the byte order of the
network.
-/
def uipUdpMakePkg
    (info : UipInfo) (sk : UipUdpSocket) (buf : UipBuf)
    (payload : Option (Nat → UInt8)) (payloadLen : Nat) : UipBuf :=
  let filled := cookUdp info sk buf payload payloadLen
  let ipLen :=
    (load16 filled.eth 38).toNat + (htons (uipIpHdrlen filled.eth)).toNat
  let ip := sealIp (UInt16.ofNat ipLen) (filled.narrow ipLen)
  let summed := uipCsumUdp ip
  finish info (summed.2.write 40 (le16 summed.1))

/-- The headers that `uip_tcp_payload_send` writes. -/
def cookTcpHeader
    (info : UipInfo) (sk : UipTcpSocket) (buf : UipBuf) (flag : UInt8) :
    UipBuf :=
  cookHeaders info uipIpPTcp sk.dip sk.sip buf
    |>.write 34 (le16 sk.dport.toUInt16)
    |>.write 36 (le16 sk.sport.toUInt16)
    |>.write 38 (le32 (htonl sk.seqServer))
    |>.write 42 (le32 (htonl sk.ackServer))
    |>.write 46 [uipTcpHdrLen]
    |>.write 47 [flag]
    |>.write 48 (le16 (htons uipTcpWinSize))
    |>.write 50 (le16 0)
    |>.write 52 (le16 0)

/-- `uip_tcp_payload_send` up to the payload. -/
def cookTcp
    (info : UipInfo) (sk : UipTcpSocket) (buf : UipBuf) (flag : UInt8)
    (payloadLen : UInt16) : UipBuf :=
  let header := cookTcpHeader info sk buf flag
  if 0 < payloadLen then
    header.write (34 + (uipTcpHdrlen header.eth).toNat)
      (peek sk.payload 0 payloadLen.toNat)
  else
    header

/-- `uip_tcp_payload_send`, from the free buffer to the one that is used. -/
def uipTcpPayloadSend
    (info : UipInfo) (sk : UipTcpSocket) (buf : UipBuf) (flag : UInt8)
    (payloadLen : UInt16) : UipBuf :=
  let filled := cookTcp info sk buf flag payloadLen
  let ipLen :=
    (uipTcpHdrlen filled.eth).toNat + payloadLen.toNat +
      (uipIpHdrlen filled.eth).toNat
  let ip := sealIp (htons (UInt16.ofNat ipLen)) (filled.narrow ipLen)
  let summed := uipCsumTcp ip
  finish info (summed.2.write 50 (le16 summed.1))

/-! ## Answering a frame -/

/-- `uip_buf_clone`, with the buffer that was free. -/
def uipBufClone (info : UipInfo) (arg : UipTxArg) (buf : UipBuf) : UipBuf :=
  let copied : UipBuf :=
    { buf.write 0 (peek arg.eth 0 (sizeT arg.ethLen)) with
      vnet := poke buf.vnet 0 (peek arg.vnet 0 arg.vnetLen)
      vnetLen := arg.vnetLen
      ethLen := arg.ethLen }
  copied
    |>.write 6 info.hostMac.1
    |>.write 0 (peek arg.eth 6 6)

/-- `uip_tx_do_arp`: the answer, and whether it is handed to the guest. -/
def uipTxDoArp
    (info : UipInfo) (arg : UipTxArg) (buf : UipBuf) : UipBuf × Bool :=
  let arp :=
    uipBufClone info arg buf
      |>.write 20 (le16 (htons 2))
      |>.write 32 (peek arg.eth 22 6)
      |>.write 38 (peek arg.eth 28 4)
  if load32 arg.eth 38 = htonl info.hostIp then
    (arp
      |>.write 22 info.hostMac.1
      |>.write 28 (le32 (htonl info.hostIp)), true)
  else
    (arp, false)

/-- `uip_tx_do_ipv4_icmp`. -/
def uipTxDoIpv4Icmp
    (info : UipInfo) (arg : UipTxArg) (buf : UipBuf) : UipBuf :=
  let fields :=
    uipBufClone info arg buf
      |>.write 26 (peek arg.eth 30 4)
      |>.write 30 (peek arg.eth 26 4)
      |>.write 24 (le16 0)
      |>.write 34 [0]
      |>.write 36 (le16 0)
  let ip := fields.write 24 (le16 (uipCsumIp fields.eth))
  let (csum, summed) := uipCsumIcmp ip
  summed.write 36 (le16 csum)

/-! ## Reading what was written -/

section Fields

@[simp]
theorem le16_length (value : UInt16) : (le16 value).length = 2 :=
  toLe_length 2 value.toNat

@[simp]
theorem le32_length (value : UInt32) : (le32 value).length = 4 :=
  toLe_length 4 value.toNat

theorem htons_toNat (value : UInt16) :
    (htons value).toNat = value.toNat % 256 * 256 + value.toNat / 256 := by
  have small : value.toNat < 65536 := value.toNat_lt
  rw [htons, UInt16.toNat_ofNat']
  omega

@[simp]
theorem htons_htons (value : UInt16) : htons (htons value) = value := by
  have small : value.toNat < 65536 := value.toNat_lt
  rw [← UInt16.toNat_inj, htons_toNat, htons_toNat]
  omega

theorem load16_toNat (memory : Nat → UInt8) (offset : Nat) :
    (load16 memory offset).toNat =
      (memory offset).toNat + 256 * (memory (offset + 1)).toNat := by
  have low : (memory offset).toNat < 256 := UInt8.toNat_lt _
  have high : (memory (offset + 1)).toNat < 256 := UInt8.toNat_lt _
  have bytes :
      ofLe (peek memory offset 2) =
        (memory offset).toNat + 256 * ((memory (offset + 1)).toNat + 256 * 0) :=
    rfl
  rw [load16, UInt16.toNat_ofNat', bytes]
  omega

theorem load16_congr {memory other : Nat → UInt8} {offset : Nat}
    (low : memory offset = other offset)
    (high : memory (offset + 1) = other (offset + 1)) :
    load16 memory offset = load16 other offset := by
  rw [← UInt16.toNat_inj, load16_toNat, load16_toNat, low, high]

theorem load16_eq_zero {memory : Nat → UInt8} {offset : Nat}
    (zero : load16 memory offset = 0) :
    memory offset = 0 ∧ memory (offset + 1) = 0 := by
  have sum := load16_toNat memory offset
  rw [zero, UInt16.toNat_zero] at sum
  constructor
  · rw [← UInt8.toNat_inj, UInt8.toNat_zero]
    omega
  · rw [← UInt8.toNat_inj, UInt8.toNat_zero]
    omega

theorem load16_poke_self (memory : Nat → UInt8) (offset : Nat)
    (value : UInt16) :
    load16 (poke memory offset (le16 value)) offset = value := by
  have stored := peek_poke_self memory offset (le16 value)
  rw [le16_length] at stored
  have small : value.toNat % 256 ^ 2 = value.toNat :=
    Nat.mod_eq_of_lt value.toNat_lt
  rw [load16, stored, le16, ofLe_toLe, small, UInt16.ofNat_toNat]

namespace UipBuf

variable (buf : UipBuf) {offset index : Nat} {data : List UInt8}

@[simp]
theorem write_before (before : index < offset) :
    (buf.write offset data).eth index = buf.eth index :=
  poke_outside _ (Or.inl before)

@[simp]
theorem write_behind (behind : offset + data.length ≤ index) :
    (buf.write offset data).eth index = buf.eth index :=
  poke_outside _ (Or.inr behind)

@[simp]
theorem write_byte (byte : UInt8) :
    (buf.write offset [byte]).eth offset = byte := by
  have inside : 0 < [byte].length := Nat.one_pos
  exact poke_inside buf.eth offset inside

@[simp]
theorem load16_write (value : UInt16) :
    load16 (buf.write offset (le16 value)).eth offset = value :=
  load16_poke_self _ _ _

@[simp]
theorem load16_write_before (before : index + 1 < offset) :
    load16 (buf.write offset data).eth index = load16 buf.eth index :=
  load16_congr (buf.write_before (by omega)) (buf.write_before before)

@[simp]
theorem load16_write_behind (behind : offset + data.length ≤ index) :
    load16 (buf.write offset data).eth index = load16 buf.eth index :=
  load16_congr (buf.write_behind behind) (buf.write_behind (by omega))

@[simp]
theorem narrow_eth (value : Int) : (buf.narrow value).eth = buf.eth :=
  rfl

end UipBuf

end Fields

/-! ## The parts of a frame -/

section Parts

variable (info : UipInfo) (proto : UInt8) (dip sip : UInt32) (buf : UipBuf)

theorem cookHeaders_vhl :
    (cookHeaders info proto dip sip buf).eth 14 = 0x45 := by
  simp [cookHeaders]
  decide

theorem cookHeaders_csum :
    load16 (cookHeaders info proto dip sip buf).eth 24 = 0 := by
  simp [cookHeaders]

@[simp]
theorem finish_eth : (finish info buf).eth = buf.eth :=
  rfl

theorem uipIpHdrlen_write {offset : Nat} (behind : 14 < offset)
    (data : List UInt8) :
    uipIpHdrlen (buf.write offset data).eth = uipIpHdrlen buf.eth := by
  rw [uipIpHdrlen, buf.write_before behind, uipIpHdrlen]

theorem uipTcpHdrlen_write {offset : Nat} (behind : 46 < offset)
    (data : List UInt8) :
    uipTcpHdrlen (buf.write offset data).eth = uipTcpHdrlen buf.eth := by
  rw [uipTcpHdrlen, buf.write_before behind, uipTcpHdrlen]

/-- The pseudo header and the padding are behind the segment. -/
theorem csumBehind_before {len index : Nat} (hdr : List UInt8)
    (before : index < 34 + len) :
    (csumBehind buf len hdr).2.eth index = buf.eth index := by
  have padding : index < 34 + len + 1 := by omega
  unfold csumBehind
  split
  · simp [before, padding]
  · simp [before]

end Parts

/-! ## The checksum of a range -/

section Checksum

theorem uipCsumLoop_eq (memory : Nat → UInt8) (addr count sum : Nat) :
    uipCsumLoop memory addr count sum =
      sum + sumAt 0 (peek memory addr count) := by
  fun_induction uipCsumLoop memory addr count sum with
  | case1 addr count sum induction =>
      have word :
          peek memory addr (count + 2) =
            memory addr :: memory (addr + 1) ::
              peek memory (addr + 2) count := by
        rw [Nat.add_comm, peek_add]
        rfl
      rw [induction, word, sumAt_word rfl, load16_toNat]
      omega
  | case2 addr sum => simp [peek, sumAt_cons, weight]
  | case3 addr sum => rfl

/-- A checksum is the complement of the ones' complement sum. -/
theorem uipCsum_toNat (memory : Nat → UInt8) (addr : Nat) (count : UInt16) :
    (uipCsum 0 memory addr count).toNat =
      0xffff - fold (sumAt 0 (peek memory addr count.toNat)) := by
  have small := fold_lt (sumAt 0 (peek memory addr count.toNat))
  rw [uipCsum, uipCsumLoop_eq, UInt16.toNat_zero, Nat.zero_add,
    UInt16.toNat_ofNat']
  omega

theorem ofInt_toNat (value : Int) :
    (UInt16.ofInt value).toNat = (value % 65536).toNat := by
  have positive : 0 ≤ value % 65536 := Int.emod_nonneg _ (by decide)
  have small : value % 65536 < 65536 := Int.emod_lt_of_pos _ (by decide)
  have same :
      (UInt16.ofInt value).toNat = (value % 65536).toNat % 2 ^ 16 :=
    UInt16.toNat_ofNat'
  rw [same]
  omega

/-- The padding and the pseudo header are summed up with the segment. -/
theorem csumBehind_toNat (buf : UipBuf) {len : Nat} {hdr : List UInt8}
    (short : len + 13 < 65536) (length : hdr.length = 12) :
    (csumBehind buf len hdr).1.toNat =
      0xffff -
        fold (sumAt 0 (peek buf.eth 34 len) + sumAt 0 hdr) := by
  unfold csumBehind
  split
  next odd =>
    have count :
        (UInt16.ofInt (len + 1 + sizeofPseudoHdr)).toNat =
          len + (1 + hdr.length) := by
      rw [ofInt_toNat, length, sizeofPseudoHdr]
      omega
    have bytes :
        peek ((buf.write (34 + len) [0]).write (34 + len + 1) hdr).eth 34
            (len + (1 + hdr.length)) =
          (peek buf.eth 34 len ++ [0]) ++ hdr := by
      have segment :
          peek ((buf.write (34 + len) [0]).write (34 + len + 1) hdr).eth 34
              len =
            peek buf.eth 34 len :=
        peek_congr fun index _ before => by
          simp [before, Nat.lt_succ_of_lt before]
      have padding :
          peek ((buf.write (34 + len) [0]).write (34 + len + 1) hdr).eth
              (34 + len) 1 =
            [0] := by
        show [_] = _
        simp
      have header :
          peek ((buf.write (34 + len) [0]).write (34 + len + 1) hdr).eth
              (34 + len + 1) hdr.length =
            hdr :=
        peek_poke_self _ _ _
      rw [peek_add, peek_add, segment, padding, header, List.append_assoc]
    have even : (peek buf.eth 34 len ++ [0]).length % 2 = 0 := by
      rw [List.length_append, peek_length, List.length_singleton]
      omega
    rw [uipCsum_toNat, count, bytes, sumAt_append_even 0 even, sumAt_append]
    rfl
  next even =>
    have count :
        (UInt16.ofInt (len + sizeofPseudoHdr)).toNat = len + hdr.length := by
      rw [ofInt_toNat, length, sizeofPseudoHdr]
      omega
    have segment :
        peek (buf.write (34 + len) hdr).eth 34 len = peek buf.eth 34 len :=
      peek_congr fun index _ before => by simp [before]
    have header :
        peek (buf.write (34 + len) hdr).eth (34 + len) hdr.length = hdr :=
      peek_poke_self _ _ _
    have whole : (peek buf.eth 34 len).length % 2 = 0 := by
      rw [peek_length]
      omega
    rw [uipCsum_toNat, count, peek_add, segment, header,
      sumAt_append_even 0 whole]

/-- A range around one of its words. -/
theorem peek_around (memory : Nat → UInt8) (start place rest : Nat) :
    peek memory start (place + 2 + rest) =
      peek memory start place ++
        memory (start + place) :: memory (start + place + 1) ::
          peek memory (start + place + 2) rest := by
  have word :
      peek memory (start + place) 2 =
        [memory (start + place), memory (start + place + 1)] :=
    rfl
  rw [peek_add, peek_add, word, List.append_assoc, ← Nat.add_assoc]
  rfl

/-- A checksum in the place of zeros is added to the sum of a range. -/
theorem sumAt_checksum {memory after : Nat → UInt8} {start place rest : Nat}
    {csum : UInt16} (even : place % 2 = 0)
    (zero : load16 memory (start + place) = 0)
    (stored : load16 after (start + place) = csum)
    (front :
      ∀ index, start ≤ index → index < start + place →
        after index = memory index)
    (back :
      ∀ index, start + place + 2 ≤ index →
        index < start + place + 2 + rest → after index = memory index) :
    sumAt 0 (peek after start (place + 2 + rest)) =
      sumAt 0 (peek memory start (place + 2 + rest)) + csum.toNat := by
  obtain ⟨low, high⟩ := load16_eq_zero zero
  have behind : (0 + (peek memory start place).length) % 2 = 0 := by
    rw [peek_length]
    omega
  rw [peek_around, peek_around, peek_congr front, peek_congr back, low, high,
    sumAt_set_word behind, ← stored, load16_toNat]

end Checksum

end Kemu.Net.Packet
