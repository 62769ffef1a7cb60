import Kemu.Net.Packet

/-!
# Answering DHCP

Discoveries and requests of the guest are answered with a copy of the frame
in which the addresses and the options are replaced.  The options are written
one behind the other from position 282 on; the zero that `strcpy` leaves is
overwritten by the option behind it.
-/

namespace Kemu.Net.Dhcp

open Kemu.Lib.Bytes Kemu.Net.Packet

/-! ## Requests -/

/-- `UIP_DHCP_PORT_SERVER`. -/
def uipDhcpPortServer : UInt16 := 67

/-- `UIP_DHCP_PORT_CLIENT`. -/
def uipDhcpPortClient : UInt16 := 68

/-- `UIP_DHCP_MAGIC_COOKIE`. -/
def uipDhcpMagicCookie : UInt32 := 0x63825363

/-- `UIP_DHCP_DISCOVER`. -/
def uipDhcpDiscover : UInt8 := 1

/-- `UIP_DHCP_OFFER`. -/
def uipDhcpOffer : UInt8 := 2

/-- `UIP_DHCP_REQUEST`. -/
def uipDhcpRequest : UInt8 := 3

/-- `UIP_DHCP_ACK`. -/
def uipDhcpAck : UInt8 := 5

/-- `UIP_DHCP_LEASE_TIME`. -/
def uipDhcpLeaseTime : UInt32 := 0x00003840

/-- `UIP_DHCP_MAX_PAYLOAD_LEN`. -/
def uipDhcpMaxPayloadLen : Nat := 300 - 64 + 312

/-- `uip_udp_is_dhcp`. -/
def uipUdpIsDhcp (eth : Nat → UInt8) : Bool :=
  if htons (load16 eth 34) ≠ uipDhcpPortClient ∨
      htons (load16 eth 36) ≠ uipDhcpPortServer then
    false
  else
    htonl (load32 eth 278) == uipDhcpMagicCookie

/-- `uip_dhcp_is_discovery` and `uip_dhcp_is_request`. -/
def uipDhcpIs (msgType : UInt8) (eth : Nat → UInt8) : Bool :=
  eth 284 == msgType && eth 283 == 1 && eth 282 == 53

/-- `uip_dhcp_is_discovery`. -/
def uipDhcpIsDiscovery : (Nat → UInt8) → Bool :=
  uipDhcpIs uipDhcpDiscover

/-- `uip_dhcp_is_request`. -/
def uipDhcpIsRequest : (Nat → UInt8) → Bool :=
  uipDhcpIs uipDhcpRequest

/-- The type of the answer, if there is one. -/
def replyMsgType (eth : Nat → UInt8) : Option UInt8 :=
  if uipDhcpIsDiscovery eth then
    some uipDhcpOffer
  else if uipDhcpIsRequest eth then
    some uipDhcpAck
  else
    none

/-! ## Options -/

/-- An option that holds an address or a number. -/
def wordOption (tag : UInt8) (value : UInt32) : List UInt8 :=
  [tag, 4] ++ le32 (htonl value)

/-- The option for the name of the domain; its length is cut to 8 bits. -/
def domainOption (name : List UInt8) : List UInt8 :=
  [15, UInt8.ofNat name.length] ++ name.take (name.length % 256)

/-- `uip_dhcp_fill_option_name_and_server`. -/
def uipDhcpFillOptionNameAndServer (info : UipInfo) : List UInt8 :=
  info.domainName.elim [] domainOption ++
    (List.ofFn info.dnsIp).flatMap fun ip =>
      if ip = 0 then [] else wordOption 6 ip

/-- `EMPTY_ADDR`, without its zero. -/
def emptyAddr : List UInt8 :=
  [0x30, 0x2e, 0x30, 0x2e, 0x30, 0x2e, 0x30]

/-- `uip_dhcp_fill_option`. -/
def uipDhcpFillOption (info : UipInfo) (replyMsgType : UInt8) : List UInt8 :=
  [53, 1, replyMsgType] ++
    wordOption 54 info.hostIp ++
    wordOption 51 uipDhcpLeaseTime ++
    wordOption 1 info.guestNetmask ++
    wordOption 3 info.hostIp ++
    ([17, 7] ++ emptyAddr) ++
    uipDhcpFillOptionNameAndServer info ++
    [255]

/-- `uip_dhcp_make_pkg`, as far as the buffer is concerned. -/
def uipDhcpMakePkg
    (info : UipInfo) (buf : UipBuf) (replyMsgType : UInt8) : UipBuf :=
  buf
    |>.write 42 [2]
    |>.write 54 (le32 0)
    |>.write 58 (le32 (htonl info.guestIp))
    |>.write 62 (le32 (htonl info.hostIp))
    |>.write 66 (le32 0)
    |>.write 282 (uipDhcpFillOption info replyMsgType)

/-- The addresses and ports that `uip_dhcp_make_pkg` sets. -/
def dhcpSocket (info : UipInfo) : UipUdpSocket where
  sip := htonl info.guestIp
  dip := htonl info.hostIp
  sport := (htons uipDhcpPortClient).toUInt32
  dport := (htons uipDhcpPortServer).toUInt32

/-- `uip_tx_do_ipv4_udp_dhcp`, for a frame that is answered. -/
def uipTxDoIpv4UdpDhcp
    (info : UipInfo) (arg : UipTxArg) (buf : UipBuf) (replyMsgType : UInt8) :
    UipBuf :=
  let reply := uipDhcpMakePkg info (uipBufClone info arg buf) replyMsgType
  uipUdpMakePkg info (dhcpSocket info) reply none uipDhcpMaxPayloadLen

/-! ## The length of the options -/

theorem wordOption_length (tag : UInt8) (value : UInt32) :
    (wordOption tag value).length = 6 := by
  simp [wordOption]

theorem domainOption_length (name : List UInt8) :
    (domainOption name).length ≤ 257 := by
  simp only [domainOption, List.length_append, List.length_take,
    List.length_cons, List.length_nil]
  omega

/-- The options end early in a buffer, whatever the name of the domain is. -/
theorem uipDhcpFillOption_length (info : UipInfo) (replyMsgType : UInt8) :
    (uipDhcpFillOption info replyMsgType).length ≤ 312 := by
  have name : (info.domainName.elim [] domainOption).length ≤ 257 := by
    cases info.domainName with
    | none => exact Nat.zero_le _
    | some name => exact domainOption_length name
  have server (ip : UInt32) :
      (if ip = 0 then [] else wordOption 6 ip).length ≤ 6 := by
    split
    · exact Nat.zero_le _
    · exact Nat.le_of_eq (wordOption_length 6 ip)
  have first := server (info.dnsIp 0)
  have second := server (info.dnsIp 1)
  have third := server (info.dnsIp 2)
  have servers :
      ((List.ofFn info.dnsIp).flatMap fun ip =>
          if ip = 0 then [] else wordOption 6 ip).length ≤ 18 := by
    have list :
        List.ofFn info.dnsIp = [info.dnsIp 0, info.dnsIp 1, info.dnsIp 2] :=
      rfl
    rw [list, List.flatMap_cons, List.flatMap_cons, List.flatMap_cons,
      List.flatMap_nil, List.length_append, List.length_append,
      List.length_append, List.length_nil]
    omega
  simp only [uipDhcpFillOption, uipDhcpFillOptionNameAndServer,
    List.length_append, wordOption_length, emptyAddr, List.length_cons,
    List.length_nil]
  omega

end Kemu.Net.Dhcp
