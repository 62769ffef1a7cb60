import Kemu.Lib.Tlv
import Kemu.Net.Dhcp

/-!
# The options of a DHCP answer

The options are to be a list of fields that a client reads back: the fixed
ones, the name of the domain, and each server that is configured.  The name
comes from `/etc/resolv.conf`, where it may be longer than a length byte or
the room for the options allows, and nothing is checked when it is written.
-/

namespace Kemu.Net.DhcpOptions

open Kemu.Lib.Tlv Kemu.Net.Packet Kemu.Net.Dhcp

/-! ## Names and servers -/

/-- `UIP_DHCP_MAX_DOMAIN_NAME_LEN`. -/
def uipDhcpMaxDomainNameLen : Nat := 256

/-- `UIP_DHCP_OPTION_LEN`. -/
def uipDhcpOptionLen : Nat := 312 - 4

/-- `"domain"`. -/
def domainKey : List UInt8 :=
  [0x64, 0x6f, 0x6d, 0x61, 0x69, 0x6e]

/-- `"nameserver"`. -/
def nameserverKey : List UInt8 :=
  [0x6e, 0x61, 0x6d, 0x65, 0x73, 0x65, 0x72, 0x76, 0x65, 0x72]

/-- `info` during the scan, with the number of servers found. -/
structure DnsScan where
  info : UipInfo
  found : Nat

/--
One turn of the loop of `uip_dhcp_get_dns`, for a key and a value; `inetAton`
gives the address in the order of the host.
-/
def DnsScan.turn (inetAton : List UInt8 → Option UInt32)
    (scan : DnsScan) (line : List UInt8 × List UInt8) : DnsScan :=
  if line.1.take 6 = domainKey then
    { scan with
      info :=
        { scan.info with
          domainName := some (line.2.take uipDhcpMaxDomainNameLen) } }
  else if line.1.take 10 = nameserverKey then
    match inetAton line.2 with
    | none => scan
    | some ip =>
        if inside : scan.found < 3 then
          { info :=
              { scan.info with
                dnsIp := Function.update scan.info.dnsIp
                  ⟨scan.found, inside⟩ ip }
            found := scan.found + 1 }
        else
          scan
  else
    scan

/-- `uip_dhcp_get_dns`, for the keys and values in `/etc/resolv.conf`. -/
def uipDhcpGetDns (inetAton : List UInt8 → Option UInt32)
    (info : UipInfo) (lines : List (List UInt8 × List UInt8)) : UipInfo :=
  (lines.foldl (DnsScan.turn inetAton) ⟨info, 0⟩).info

/-- A name that `uip_dhcp_get_dns` can store. -/
def Storable (info : UipInfo) : Prop :=
  ∀ name ∈ info.domainName, name.length ≤ uipDhcpMaxDomainNameLen

theorem storable_turn (inetAton : List UInt8 → Option UInt32)
    {scan : DnsScan} (storable : Storable scan.info)
    (line : List UInt8 × List UInt8) :
    Storable (scan.turn inetAton line).info := by
  rw [DnsScan.turn]
  split
  · rintro name ⟨⟩
    exact List.length_take_le _ _
  · split
    · split
      · exact storable
      · split
        · exact storable
        · exact storable
    · exact storable

/-- Whatever the file holds, the name is cut to what can be stored. -/
theorem storable_uipDhcpGetDns (inetAton : List UInt8 → Option UInt32)
    {info : UipInfo} (storable : Storable info)
    (lines : List (List UInt8 × List UInt8)) :
    Storable (uipDhcpGetDns inetAton info lines) := by
  rw [uipDhcpGetDns]
  suffices
      ∀ scan : DnsScan, Storable scan.info →
        Storable (lines.foldl (DnsScan.turn inetAton) scan).info from
    this ⟨info, 0⟩ storable
  induction lines with
  | nil => exact fun scan storable => storable
  | cons line rest induction =>
      intro scan storable
      exact induction _ (storable_turn inetAton storable line)

/-! ## What is to be written -/

/-- The servers that are configured; an entry of zero is not in use. -/
def configured (info : UipInfo) : List UInt32 :=
  (List.ofFn info.dnsIp).filter (· ≠ 0)

/-- The fields of an answer before the name. -/
def fixedFields (info : UipInfo) (replyMsgType : UInt8) : List TagValue :=
  [⟨53, [replyMsgType]⟩,
    ⟨54, le32 (htonl info.hostIp)⟩,
    ⟨51, le32 (htonl uipDhcpLeaseTime)⟩,
    ⟨1, le32 (htonl info.guestNetmask)⟩,
    ⟨3, le32 (htonl info.hostIp)⟩,
    ⟨17, emptyAddr⟩]

/-- The name of the domain, whole. -/
def domainFields (info : UipInfo) : List TagValue :=
  info.domainName.toList.map (TagValue.mk 15)

/-- The servers, each once. -/
def serverFields (info : UipInfo) : List TagValue :=
  (configured info).map fun ip => ⟨6, le32 (htonl ip)⟩

/-- The fields of an answer. -/
def replyFields (info : UipInfo) (replyMsgType : UInt8) : List TagValue :=
  fixedFields info replyMsgType ++ domainFields info ++ serverFields info

/--
The options are read back as the fields of the answer, nothing is behind
their end, and they fit into `dhcp->option`.
-/
structure WellWritten (info : UipInfo) (replyMsgType : UInt8) : Prop where
  readBack :
    parse 255 (uipDhcpFillOption info replyMsgType) =
      some (replyFields info replyMsgType, [])
  fits : (uipDhcpFillOption info replyMsgType).length ≤ uipDhcpOptionLen

/-! ## What is written -/

section Options

variable (info : UipInfo) (replyMsgType : UInt8)

theorem wordOption_encode (tag : UInt8) (value : UInt32) :
    wordOption tag value = (TagValue.mk tag (le32 (htonl value))).encode := by
  simp [wordOption, TagValue.encode]

theorem serverFields_encode :
    ((List.ofFn info.dnsIp).flatMap fun ip =>
        if ip = 0 then [] else wordOption 6 ip) =
      encode (serverFields info) := by
  rw [serverFields, configured]
  induction List.ofFn info.dnsIp with
  | nil => rfl
  | cons ip rest induction =>
      rw [List.flatMap_cons, List.filter_cons, induction]
      by_cases unused : ip = 0
      · simp [unused]
      · simp [unused, encode_cons, wordOption_encode]

theorem fixedFields_encode :
    [53, 1, replyMsgType] ++
          wordOption 54 info.hostIp ++
          wordOption 51 uipDhcpLeaseTime ++
          wordOption 1 info.guestNetmask ++
          wordOption 3 info.hostIp ++
          ([17, 7] ++ emptyAddr) =
      encode (fixedFields info replyMsgType) := by
  simp [wordOption_encode, fixedFields, encode, TagValue.encode, emptyAddr]

/-- A name of up to 255 bytes is written as its field. -/
theorem domainFields_encode
    (short : ∀ name ∈ info.domainName, name.length < 256) :
    info.domainName.elim [] domainOption = encode (domainFields info) := by
  rw [domainFields]
  cases named : info.domainName with
  | none => rfl
  | some name =>
      have small := short name named
      simp [domainOption, encode, TagValue.encode, Nat.mod_eq_of_lt small]

theorem uipDhcpFillOption_encode
    (short : ∀ name ∈ info.domainName, name.length < 256) :
    uipDhcpFillOption info replyMsgType =
      encode (replyFields info replyMsgType) ++ [255] := by
  rw [uipDhcpFillOption, uipDhcpFillOptionNameAndServer,
    fixedFields_encode, serverFields_encode, domainFields_encode info short,
    replyFields, encode_append, encode_append, List.append_assoc _ _
      (encode (serverFields info))]

/-- Fields whose name is short enough can be read back. -/
theorem replyFields_readable
    (short : ∀ name ∈ info.domainName, name.length < 256) :
    ∀ field ∈ replyFields info replyMsgType, field.Readable 255 := by
  intro field member
  rw [replyFields, List.mem_append, List.mem_append] at member
  rcases member with (fixed | domain) | server
  · simp only [fixedFields, List.mem_cons, List.not_mem_nil, or_false] at fixed
    rcases fixed with rfl | rfl | rfl | rfl | rfl | rfl
    all_goals exact ⟨by simp [emptyAddr], by dsimp only; decide⟩
  · rw [domainFields, List.mem_map] at domain
    obtain ⟨name, named, rfl⟩ := domain
    exact ⟨short name (Option.mem_toList.1 named), by dsimp only; decide⟩
  · rw [serverFields, List.mem_map] at server
    obtain ⟨ip, -, rfl⟩ := server
    exact ⟨by simp, by dsimp only; decide⟩

theorem encode_length (fields : List TagValue) :
    (encode fields).length =
      (fields.map fun field => 2 + field.value.length).sum := by
  rw [encode, List.length_flatMap]
  congr 1
  apply List.map_congr_left
  intro field _
  simp only [TagValue.encode, List.length_cons]
  omega

theorem serverFields_length :
    (encode (serverFields info)).length = 6 * (configured info).length := by
  rw [encode_length, serverFields, List.map_map]
  have each :
      ((fun field : TagValue => 2 + field.value.length) ∘ fun ip =>
          TagValue.mk 6 (le32 (htonl ip))) =
        fun _ => 6 := by
    funext ip
    simp
  rw [each, List.map_const', List.sum_replicate_nat, Nat.mul_comm]

theorem configured_length : (configured info).length ≤ 3 := by
  have bound := List.length_filter_le (fun ip => decide (ip ≠ 0))
    (List.ofFn info.dnsIp)
  rwa [List.length_ofFn] at bound

/-- The number of bytes that are written, for a name of up to 255 bytes. -/
theorem uipDhcpFillOption_size
    (short : ∀ name ∈ info.domainName, name.length < 256) :
    (uipDhcpFillOption info replyMsgType).length =
      37 + (info.domainName.elim 0 fun name => 2 + name.length) +
        6 * (configured info).length := by
  rw [uipDhcpFillOption_encode info replyMsgType short, replyFields,
    encode_append, encode_append, List.length_append, List.length_append,
    List.length_append, serverFields_length, encode_length, encode_length]
  cases named : info.domainName <;>
    simp [fixedFields, domainFields, named, emptyAddr] <;> omega

end Options

/-! ## Main result -/

/--
The options are well written exactly if the name has at most 255 bytes, and
at most 251 next to three servers.
-/
theorem wellWritten_iff (info : UipInfo) (replyMsgType : UInt8) :
    WellWritten info replyMsgType ↔
      ∀ name ∈ info.domainName,
        name.length ≤ 255 ∧
          ((configured info).length = 3 → name.length ≤ 251) := by
  have few := configured_length info
  constructor
  · rintro ⟨readBack, fits⟩
    have readable := (parse_eq_some_iff.1 readBack).2
    have short : ∀ name ∈ info.domainName, name.length < 256 := by
      intro name named
      apply (readable ⟨15, name⟩ _).short
      rw [replyFields, domainFields, named]
      simp
    rw [uipDhcpFillOption_size info replyMsgType short,
      uipDhcpOptionLen] at fits
    intro name named
    have small := short name named
    rw [named, Option.elim_some] at fits
    exact ⟨by omega, fun three => by omega⟩
  · intro bounds
    have short : ∀ name ∈ info.domainName, name.length < 256 :=
      fun name named => Nat.lt_succ_of_le (bounds name named).1
    constructor
    · exact parse_eq_some_iff.2
        ⟨uipDhcpFillOption_encode info replyMsgType short,
          replyFields_readable info replyMsgType short⟩
    · rw [uipDhcpFillOption_size info replyMsgType short, uipDhcpOptionLen]
      cases named : info.domainName with
      | none => rw [Option.elim_none]; omega
      | some name =>
          have bound := bounds name named
          rw [Option.elim_some]
          omega

/-- A file with a name of 252 bytes and three servers. -/
def longNameFile : List (List UInt8 × List UInt8) :=
  (domainKey, List.replicate 252 0x61) ::
    List.replicate 3 (nameserverKey, [0x31, 0x2e, 0x31])

/-- An `info` without name and servers. -/
def bareInfo : UipInfo :=
  { (default : UipInfo) with dnsIp := fun _ => 0, domainName := none }

/-- What `longNameFile` leaves in it. -/
def longNameInfo : UipInfo :=
  uipDhcpGetDns (fun _ => some 0x01000001) bareInfo longNameFile

/-- The options for this file end one byte behind `dhcp->option`. -/
theorem not_always_wellWritten :
    ¬ ∀ info, Storable info → WellWritten info uipDhcpOffer := by
  intro always
  have bare : Storable bareInfo := by
    rintro name ⟨⟩
  have storable : Storable longNameInfo :=
    storable_uipDhcpGetDns _ bare longNameFile
  have named : longNameInfo.domainName = some (List.replicate 252 0x61) := by
    have cut :
        longNameInfo.domainName =
          some ((List.replicate 252 0x61).take uipDhcpMaxDomainNameLen) :=
      rfl
    rw [cut, List.take_of_length_le]
    rw [List.length_replicate, uipDhcpMaxDomainNameLen]
    omega
  have short : ∀ name ∈ longNameInfo.domainName, name.length < 256 := by
    rw [named]
    rintro name ⟨⟩
    rw [List.length_replicate]
    omega
  have three : (configured longNameInfo).length = 3 := rfl
  have fits := (always longNameInfo storable).fits
  rw [uipDhcpFillOption_size _ _ short, named, Option.elim_some, three,
    List.length_replicate, uipDhcpOptionLen] at fits
  omega

end Kemu.Net.DhcpOptions
