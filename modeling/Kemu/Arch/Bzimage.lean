import Kemu.Init.FlatTranslation

/-!
# Loading a kernel and its initial ramdisk

Guest memory is one mapping of the host; from `KVM_32BIT_GAP_START` on it
goes on at 4 GiB, and the gap cannot be accessed.  The initial ramdisk is
placed at a multiple of 1 MiB: the highest one that is not beyond the greatest
address the kernel allows and lies below the size of the memory less that of
the ramdisk.
-/

namespace Kemu.Arch.Bzimage

open Kemu.Init.FlatTranslation
open Kemu.Init.MemBanks

/-! ## Memory -/

/-- `KVM_32BIT_MAX_MEM_SIZE`. -/
def kvm32bitMaxMemSize : UInt64 := 0x100000000

/-- `KVM_32BIT_GAP_SIZE`. -/
def kvm32bitGapSize : UInt64 := 0x30000000

/-- `KVM_32BIT_GAP_START`. -/
def kvm32bitGapStart : UInt64 := kvm32bitMaxMemSize - kvm32bitGapSize

/--
The memory of the host: what `mmap` returns, and how many bytes behind a
pointer can be accessed.  A mapping can, but for the gap, which is protected.
-/
structure Host where
  mmap : UInt64 → Option UInt64
  mapped : UInt64 → Nat
  empty : mmap 0 = none
  null : mapped 0 = 0
  memory :
    ∀ size start, mmap size = some start →
      ∀ offset < size,
        offset < kvm32bitGapStart ∨ kvm32bitMaxMemSize ≤ offset →
          0 < mapped (start + offset)

/-- `ram_size` and `ram_start` of `struct kvm`. -/
structure KvmRam where
  ramSize : UInt64
  ramStart : UInt64
deriving DecidableEq, Repr

/-- `kvm_arch_init`, which dies if there is no memory. -/
def kvmArchInit (host : Host) (ramSize : UInt64) : Option KvmRam :=
  if ramSize < kvm32bitGapStart then
    (host.mmap ramSize).map fun ramStart => ⟨ramSize, ramStart⟩
  else
    (host.mmap (ramSize + kvm32bitGapSize)).map fun ramStart =>
      ⟨ramSize + kvm32bitGapSize, ramStart⟩

/-- `KVM_MEM_TYPE_RAM`. -/
def kvmMemTypeRam : UInt32 := 1

/-- `kvm_register_ram`, for a host that accepts it. -/
def kvmRegisterRam (kvm : KvmMem) (guestPhys size userspaceAddr : UInt64) :
    KvmMem :=
  (kvmRegisterMem kvm ⟨guestPhys, size, userspaceAddr, kvmMemTypeRam⟩ true
    fun _ => none).2

/-- `kvm_init_ram`. -/
def kvmInitRam (kvm : KvmRam) : KvmMem :=
  if kvm.ramSize < kvm32bitGapStart then
    kvmRegisterRam ⟨[], 0⟩ 0 kvm.ramSize kvm.ramStart
  else
    kvmRegisterRam
      (kvmRegisterRam ⟨[], 0⟩ 0 kvm32bitGapStart kvm.ramStart)
      kvm32bitMaxMemSize (kvm.ramSize - kvm32bitMaxMemSize)
      (kvm.ramStart + kvm32bitMaxMemSize)

/-! ## Files -/

/--
`read_in_full` from a file with some bytes left to a pointer with some bytes
that can be accessed.
-/
def readInFull (file mapped count : Nat) : Int :=
  let total := min count (min file mapped)
  if count = 0 then
    0
  else if total = 0 then
    -1
  else
    total

/-- `read_file`, which fails when the file goes on. -/
def readFile (file mapped maxSize : Nat) : Int :=
  if file ≤ min maxSize mapped then readInFull file mapped maxSize else -1

/-- A kernel image: its size and what is read of its header. -/
structure KernelFile where
  size : Nat
  magic : Bool
  version : UInt16
  setupSects : UInt8
  initrdAddrMax : UInt32
deriving DecidableEq, Repr

/-- An initial ramdisk of `st_size` bytes. -/
structure InitrdFile where
  size : UInt64
  bound : size.toNat < 2 ^ 63

/-! ## Loading -/

/-- `BZ_KERNEL_START`. -/
def bzKernelStart : UInt64 := 0x100000

/-- `BZ_DEFAULT_SETUP_SECTS`. -/
def bzDefaultSetupSects : UInt8 := 4

/-- `BOOT_PROTOCOL_REQUIRED`. -/
def bootProtocolRequired : UInt16 := 0x206

/-- `sizeof(struct boot_params)`. -/
def bootParamsSize : Nat := 4096

/-- `BOOT_LOADER_SELECTOR` and `BOOT_LOADER_IP` as an address. -/
def bootLoader : UInt64 := 0x10000

/-- Not an image of this kind, or the end of the program. -/
inductive Refusal where
  | notBzimage
  | died
deriving DecidableEq, Repr

/-- Where the initial ramdisk is. -/
structure Place where
  addr : UInt64
  size : UInt64
deriving DecidableEq, Repr

/-- What was loaded: the bytes at `BZ_KERNEL_START` and the ramdisk. -/
structure Loaded where
  kernelSize : Nat
  ramdisk : Option Place
deriving DecidableEq, Repr

section Load

variable (host : Host) (kvm : KvmRam) (banks : List KvmMemBank)

/-- Reading the kernel, from the start of `load_bzimage`. -/
def readKernel (cfgRamSize : UInt64) (kernel : KernelFile) :
    Except Refusal Nat :=
  if kernel.size < bootParamsSize then
    .error .notBzimage
  else if !kernel.magic then
    .error .notBzimage
  else if kernel.version < bootProtocolRequired then
    .error .died
  else
    let setupSects :=
      if kernel.setupSects = 0 then bzDefaultSetupSects
      else kernel.setupSects
    let setupSize := (setupSects.toNat + 1) * 512
    let p := guestFlatToHost banks bootLoader
    if readInFull kernel.size (host.mapped p) setupSize ≠ setupSize then
      .error .died
    else
      let p := guestFlatToHost banks bzKernelStart
      let fileSize :=
        readFile (kernel.size - setupSize) (host.mapped p)
          (cfgRamSize - bzKernelStart).toNat
      if fileSize < 0 then .error .died else .ok fileSize.toNat

/-- The loop of `load_bzimage` that looks for an address. -/
def findInitrdAddr (ramSize size addr : UInt64) : Option UInt64 :=
  if addr < bzKernelStart then
    none
  else if addr < ramSize - size then
    some addr
  else
    findInitrdAddr ramSize size (addr - 0x100000)
termination_by addr.toNat
decreasing_by
  rename_i above _
  rw [UInt64.not_lt, UInt64.le_iff_toNat_le] at above
  have one : bzKernelStart.toNat = 0x100000 := rfl
  have step : (0x100000 : UInt64).toNat = 0x100000 := rfl
  rw [UInt64.toNat_sub, step]
  omega

/-- Reading the initial ramdisk. -/
def loadInitrd (initrdAddrMax : UInt32) (initrd : InitrdFile) :
    Except Refusal Place :=
  match
    findInitrdAddr kvm.ramSize initrd.size
      (initrdAddrMax &&& 0xfff00000).toUInt64 with
  | none => .error .died
  | some addr =>
      let p := guestFlatToHost banks addr
      if readInFull initrd.size.toNat (host.mapped p) initrd.size.toNat <
          0 then
        .error .died
      else
        .ok ⟨addr, initrd.size⟩

/-- `load_bzimage`. -/
def loadBzimage (cfgRamSize : UInt64) (kernel : KernelFile)
    (initrd : Option InitrdFile) : Except Refusal Loaded :=
  match readKernel host banks cfgRamSize kernel with
  | .error refusal => .error refusal
  | .ok kernelSize =>
      match initrd with
      | none => .ok ⟨kernelSize, none⟩
      | some initrd =>
          match loadInitrd host kvm banks kernel.initrdAddrMax initrd with
          | .error refusal => .error refusal
          | .ok place => .ok ⟨kernelSize, some place⟩

end Load

end Kemu.Arch.Bzimage
