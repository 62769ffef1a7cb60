import Kemu.Lib.Bytes

/-!
# The MP table

`mptable__init` lays out a header, an entry for each processor, the two
buses, the I/O APIC, an interrupt source for each PCI device and the two local
interrupt sources, and behind them, at a multiple of 16, the structure that
the guest looks for.
-/

namespace Kemu.Arch.Mptable

open Kemu.Lib.Bytes

/-! ## Entries -/

def mpProcessor : UInt8 := 0
def mpBus : UInt8 := 1
def mpIoapic : UInt8 := 2
def mpIntsrc : UInt8 := 3
def mpLintsrc : UInt8 := 4

def cpuEnabled : UInt8 := 1
def cpuBootprocessor : UInt8 := 2
def mpcApicUsable : UInt8 := 1
def mpInt : UInt8 := 0
def mpNmi : UInt8 := 1
def mpIrqdirDefault : UInt16 := 0

/-- `KVM_APIC_VERSION`. -/
def kvmApicVersion : UInt8 := 0x14

/-- `APIC_ADDR(0)`. -/
def apicAddr : UInt32 := 0xfee00000

/-- `IOAPIC_ADDR(0)`. -/
def ioapicAddr : UInt32 := 0xfec00000

/-- `struct mpc_cpu`. -/
structure MpcCpu where
  type : UInt8
  apicid : UInt8
  apicver : UInt8
  cpuflag : UInt8
  cpufeature : UInt32
  featureflag : UInt32
  reserved : UInt64
deriving DecidableEq, Repr

/-- `struct mpc_bus`. -/
structure MpcBus where
  type : UInt8
  busid : UInt8
  bustype : List UInt8
deriving DecidableEq, Repr

/-- `struct mpc_ioapic`. -/
structure MpcIoapic where
  type : UInt8
  apicid : UInt8
  apicver : UInt8
  flags : UInt8
  apicaddr : UInt32
deriving DecidableEq, Repr

/-- `struct mpc_intsrc`, which local sources share. -/
structure MpcIntsrc where
  type : UInt8
  irqtype : UInt8
  irqflag : UInt16
  srcbus : UInt8
  srcbusirq : UInt8
  dstapic : UInt8
  dstirq : UInt8
deriving DecidableEq, Repr

/-- The bytes of a processor. -/
def MpcCpu.bytes (entry : MpcCpu) : List UInt8 :=
  [entry.type, entry.apicid, entry.apicver, entry.cpuflag] ++
    toLe 4 entry.cpufeature.toNat ++ toLe 4 entry.featureflag.toNat ++
    toLe 8 entry.reserved.toNat

/-- The bytes of a bus. -/
def MpcBus.bytes (entry : MpcBus) : List UInt8 :=
  [entry.type, entry.busid] ++ entry.bustype

/-- The bytes of an I/O APIC. -/
def MpcIoapic.bytes (entry : MpcIoapic) : List UInt8 :=
  [entry.type, entry.apicid, entry.apicver, entry.flags] ++
    toLe 4 entry.apicaddr.toNat

/-- The bytes of an interrupt source. -/
def MpcIntsrc.bytes (entry : MpcIntsrc) : List UInt8 :=
  [entry.type, entry.irqtype] ++ toLe 2 entry.irqflag.toNat ++
    [entry.srcbus, entry.srcbusirq, entry.dstapic, entry.dstirq]

/-! ## Devices -/

/-- What the table takes from a PCI device. -/
structure PciDevice where
  devNum : Nat
  subsysId : UInt16
  irqLine : UInt8
  irqPin : UInt8
deriving DecidableEq, Repr

/-- The registered devices, in the order of their slot numbers. -/
structure PciDevices where
  list : List PciDevice
  ascending :
    list.Pairwise fun first second => first.devNum < second.devNum

/-! ## The table -/

/-- `MPTABLE_MAX_CPUS`. -/
def mptableMaxCpus : UInt32 := 255

/-- `MPTABLE_MAX_SIZE`. -/
def mptableMaxSize : UInt64 := 0x2000000

/-- `MB_BIOS_BEGIN`. -/
def mbBiosBegin : UInt64 := 0xf0000

/-- `MB_BIOS_END`. -/
def mbBiosEnd : UInt64 := 0xfffff

def pcibusid : UInt8 := 0
def isabusid : UInt8 := 1

/-- `mpf_checksum`. -/
def mpfChecksum (mp : List UInt8) : UInt32 :=
  mp.foldl (fun sum byte => sum + byte.toUInt32) 0 &&& 0xff

/-- The checksum that is stored. -/
def negated (checksum : UInt32) : UInt8 :=
  (0 - checksum).toUInt8

/-- `ALIGN` to 16. -/
def align16 (size : Nat) : Nat :=
  (size + 15) / 16 * 16

/-- `gen_cpu_flag`. -/
def genCpuFlag (cpu ncpu : Nat) : UInt8 :=
  (if cpu < ncpu then cpuEnabled else 0) |||
    if cpu = 0 then cpuBootprocessor else 0

/-- An entry of the loop over the processors. -/
def mpcCpu (ncpus index : Nat) : MpcCpu where
  type := mpProcessor
  apicid := UInt8.ofNat index
  apicver := kvmApicVersion
  cpuflag := genCpuFlag index ncpus
  cpufeature := 0x600
  featureflag := 0x201
  reserved := 0

/-- `MPTABLE_PCIBUSTYPE`. -/
def pciBus : MpcBus where
  type := mpBus
  busid := pcibusid
  bustype := [0x50, 0x43, 0x49, 0x20, 0x20, 0x20]

/-- `MPTABLE_ISABUSTYPE`. -/
def isaBus : MpcBus where
  type := mpBus
  busid := isabusid
  bustype := [0x49, 0x53, 0x41, 0x20, 0x20, 0x20]

/-- The chip. -/
def mpcIoapic (ioapicid : UInt32) : MpcIoapic where
  type := mpIoapic
  apicid := ioapicid.toUInt8
  apicver := kvmApicVersion
  flags := mpcApicUsable
  apicaddr := ioapicAddr

/-- `mptable_add_irq_src`. -/
def mptableAddIrqSrc (srcbusid srcbusirq dstapic dstirq : UInt16) :
    MpcIntsrc where
  type := mpIntsrc
  irqtype := mpInt
  irqflag := mpIrqdirDefault
  srcbus := srcbusid.toUInt8
  srcbusirq := srcbusirq.toUInt8
  dstapic := dstapic.toUInt8
  dstirq := dstirq.toUInt8

/-- `srcbusirq`, of type `unsigned char`. -/
def srcbusirq (device : PciDevice) : UInt8 :=
  (device.subsysId.toUInt8 <<< 2) ||| (device.irqPin - 1)

/-- An entry of the loop over the devices. -/
def irqSource (ioapicid : UInt32) (device : PciDevice) : MpcIntsrc :=
  mptableAddIrqSrc pcibusid.toUInt16 (srcbusirq device).toUInt16
    ioapicid.toUInt16 device.irqLine.toUInt16

/-- `LINT0` and `LINT1`. -/
def localSource (irqtype dstirq : UInt8) : MpcIntsrc where
  type := mpLintsrc
  irqtype := irqtype
  irqflag := mpIrqdirDefault
  srcbus := isabusid
  srcbusirq := 0
  dstapic := 0
  dstirq := dstirq

/-- The entries, behind the header. -/
def mpcEntries (ncpus : UInt32) (devices : List PciDevice) :
    List (List UInt8) :=
  let ioapicid := ncpus + 1
  (List.range ncpus.toNat).map (fun index => (mpcCpu ncpus.toNat index).bytes) ++
    [pciBus.bytes, isaBus.bytes, (mpcIoapic ioapicid).bytes] ++
    devices.map (fun device => (irqSource ioapicid device).bytes) ++
    [(localSource mpInt 0).bytes, (localSource mpNmi 1).bytes]

/-- `struct mpc_table`, without entries. -/
def mpcTable (length : UInt16) (checksum : UInt8) (oemcount : UInt16) :
    List UInt8 :=
  [0x50, 0x43, 0x4d, 0x50] ++ toLe 2 length.toNat ++ [4, checksum] ++
    [0x4b, 0x56, 0x4d, 0x43, 0x50, 0x55, 0x30, 0x30] ++
    [0x30, 0x2e, 0x31, 0x20, 0x20, 0x20, 0x20, 0x20, 0x20, 0x20, 0x20,
      0x20] ++
    toLe 4 0 ++ toLe 2 0 ++ toLe 2 oemcount.toNat ++
    toLe 4 apicAddr.toNat ++ toLe 4 0

/-- `struct mpf_intel`. -/
def mpfIntel (physptr : UInt32) (checksum : UInt8) : List UInt8 :=
  [0x5f, 0x4d, 0x50, 0x5f] ++ toLe 4 physptr.toNat ++
    [1, 4, checksum, 0, 0, 0, 0, 0]

/-- The floating structure with its checksum. -/
def mpfSummed (physptr : UInt32) : List UInt8 :=
  mpfIntel physptr (negated (mpfChecksum (mpfIntel physptr 0)))

/-- `E2BIG`, and `ENOMEM`. -/
inductive MptableError where
  | tooBig
  | noMemory
deriving DecidableEq, Repr

/--
`mptable__init`: what is copied to the guest.  The checksum of the header is
taken over as many bytes of the memory as its field for the length says.
-/
def mptableInit (nrcpus : UInt32) (devices : PciDevices)
    (biosRomSize : UInt64) (calloc : Bool) :
    Except MptableError (List UInt8) :=
  let realMpcTable :=
    UInt64.ofNat (align16 (mbBiosBegin + biosRomSize).toNat)
  let ncpus := if nrcpus > mptableMaxCpus then mptableMaxCpus else nrcpus
  if !calloc then
    .error .noMemory
  else
    let entries := mpcEntries ncpus devices.list
    let lastAddr := 44 + entries.flatten.length
    let length := UInt16.ofNat lastAddr
    let oemcount := UInt16.ofNat entries.length
    let padding := List.replicate (align16 lastAddr - lastAddr) (0 : UInt8)
    let behind := entries.flatten ++ padding ++ mpfSummed realMpcTable.toUInt32
    let checksum :=
      negated
        (mpfChecksum
          ((mpcTable length 0 oemcount ++ behind).take length.toNat))
    let size := align16 lastAddr + 16
    if (mbBiosEnd - biosRomSize).toNat < size ∨
        mptableMaxSize.toNat < size then
      .error .tooBig
    else
      .ok (mpcTable length checksum oemcount ++ behind)

end Kemu.Arch.Mptable
