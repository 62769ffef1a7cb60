import Kemu.Init.Pci
import Kemu.Lib.Align

/-!
# Where the table and the pending bits of MSI-X are emulated

`vfio_pci_create_msix_table` decides how large the table and the array of
pending bits (the PBA) are and takes addresses for them.
`vfio_pci_configure_bar` and `vfio_pci_fixup_cfg_space` put those into the
BARs and the capability that the guest sees, and `vfio_pci_bar_activate`
registers the two regions where the guest has placed the BARs by then.
-/

namespace Kemu.Vfio.MsixLayout

open Kemu.Init.Pci
open Kemu.Lib.Align

/-! ## The code -/

/-- `PCI_MSIX_TABLE_BIR` and `PCI_MSIX_PBA_BIR`. -/
def pciMsixBir : UInt32 := 0x00000007

/-- `PCI_MSIX_PBA_OFFSET`. -/
def pciMsixPbaOffset : UInt32 := 0xfffffff8

/-- `PCI_MSIX_FLAGS_QSIZE`. -/
def pciMsixFlagsQsize : UInt16 := 0x07ff

/-- `PCI_MSIX_ENTRY_SIZE`. -/
def pciMsixEntrySize : UInt64 := 16

/-- `PCI_BASE_ADDRESS_MEM_TYPE_64`. -/
def pciBaseAddressMemType64 : UInt32 := 0x04

/-- `ALIGN` of a `u32`. -/
def align32 (x a : UInt32) : UInt32 :=
  .ofBitVec (align x.toBitVec a.toBitVec)

/-- `ALIGN` of a `u64`. -/
def align64 (x a : UInt64) : UInt64 :=
  .ofBitVec (align x.toBitVec a.toBitVec)

/-- `DIV_ROUND_UP`. -/
def divRoundUp (n d : UInt64) : UInt64 :=
  (n + d - 1) / d

/-- `is_power_of_two`. -/
def isPowerOfTwo (x : UInt64) : Bool :=
  x > 0 && x &&& (x - 1) == 0

/-- The members of `struct msix_cap` that matter here. -/
structure MsixCap where
  ctrl : UInt16
  tableOffset : UInt32
  pbaOffset : UInt32

/-- `size` and `offset` of `struct vfio_region_info`. -/
structure RegionInfo where
  size : UInt64
  offset : UInt64

/-- `struct vfio_region`. -/
structure VfioRegion where
  info : RegionInfo
  guestPhysAddr : UInt64
  portBase : UInt32
  isIoport : Bool

/-- `struct vfio_pci_msix_table`. -/
structure MsixTable where
  size : UInt64
  bar : Nat
  guestPhysAddr : UInt32

/-- `struct vfio_pci_msix_pba`. -/
structure MsixPba where
  size : UInt64
  fdOffset : UInt64
  bar : Nat
  barOffset : UInt32
  guestPhysAddr : UInt32

/--
What a device with the capability is set up from: the capability and the BARs
of the physical device, what VFIO says of its regions, and the blocks that
are still free.
-/
structure Setup where
  cap : MsixCap
  hdrBar : Nat → UInt32
  numRegions : Nat
  /-- `vfio_pci_parse_cfg_space` has checked this. -/
  hasConfig : 7 ≤ numRegions
  regionInfo : Nat → Except Int RegionInfo
  allocates : Bool
  pwriteOk : Bool
  mmioBlocks : UInt32
  ioPortBlocks : UInt16
  /-- The logarithm of `MAX_PAGE_SIZE`. -/
  maxPageShift : Nat
  pages : 12 ≤ maxPageShift ∧ maxPageShift < 32
  pageSize : UInt64

/-- The device as it is being set up, and after that. -/
structure MsixDevice where
  cap : MsixCap
  bar : Nat → UInt32
  barSize : Nat → UInt32
  table : MsixTable
  pba : MsixPba
  nrEntries : UInt64
  regions : Nat → VfioRegion
  mmioBlocks : UInt32
  ioPortBlocks : UInt16

/-- A system call fails, or the program ends. -/
inductive SetupError where
  | errno (code : Int)
  | die (message : String)
deriving DecidableEq, Repr

def eInval : Int := -22

def eNoMem : Int := -12

def eIo : Int := -5

/-- `MAX_PAGE_SIZE`. -/
def Setup.maxPageSize (setup : Setup) : UInt64 :=
  .ofNat (2 ^ setup.maxPageShift)

/-- A device of which nothing is known but its header. -/
def Setup.blank (setup : Setup) : MsixDevice where
  cap := setup.cap
  bar := setup.hdrBar
  barSize _ := 0
  table := ⟨0, 0, 0⟩
  pba := ⟨0, 0, 0, 0, 0⟩
  nrEntries := 0
  regions _ := ⟨⟨0, 0⟩, 0, 0, false⟩
  mmioBlocks := setup.mmioBlocks
  ioPortBlocks := setup.ioPortBlocks

section Code

variable (setup : Setup)

/-- `vfio_pci_get_region_info`. -/
def vfioPciGetRegionInfo (index : Nat) : Except SetupError RegionInfo :=
  match setup.regionInfo index with
  | .error code => .error (.errno code)
  | .ok info =>
      if info.size ≠ 0 ∧ !isPowerOfTwo info.size then
        .error (.errno eInval)
      else
        .ok info

/--
The part of `vfio_pci_create_msix_table` that takes a block for a region, with
the size of the region, the block and the blocks that are free after it.
-/
def takeBlock (mmioBlocks : UInt32) (barNum : Nat) :
    Except SetupError (UInt64 × UInt32 × UInt32) :=
  (vfioPciGetRegionInfo setup barNum).bind fun info =>
    if info.size = 0 then
      .error (.errno eInval)
    else
      let mapSize := align64 info.size setup.maxPageSize
      let (addr, blocks) := pciGetMmioBlock mmioBlocks mapSize.toUInt32
      if addr = 0 then
        .error (.errno eNoMem)
      else
        .ok (info.size, addr, blocks)

/-- `nr_entries`. -/
def entryCount (msix : MsixCap) : UInt64 :=
  (msix.ctrl &&& pciMsixFlagsQsize).toUInt64 + 1

/-- The device with the sizes and the BARs of its capability. -/
def withMsix (dev : MsixDevice) (tableAddr pbaAddr blocks : UInt32) :
    MsixDevice :=
  let nrEntries := entryCount dev.cap
  { dev with
    table :=
      { size := align64 (nrEntries * pciMsixEntrySize) 8
        bar := (dev.cap.tableOffset &&& pciMsixBir).toNat
        guestPhysAddr := tableAddr }
    pba :=
      { dev.pba with
        size := align64 (divRoundUp nrEntries 64) 8
        bar := (dev.cap.pbaOffset &&& pciMsixBir).toNat
        guestPhysAddr := pbaAddr }
    nrEntries := nrEntries
    mmioBlocks := blocks }

/-- `vfio_pci_create_msix_table`. -/
def vfioPciCreateMsixTable (dev : MsixDevice) :
    Except SetupError MsixDevice :=
  if !setup.allocates then
    .error (.errno eNoMem)
  else
    let tableBar := (dev.cap.tableOffset &&& pciMsixBir).toNat
    let pbaBar := (dev.cap.pbaOffset &&& pciMsixBir).toNat
    (takeBlock setup dev.mmioBlocks tableBar).bind
      fun (size, tableAddr, blocks) =>
        if tableBar = pbaBar then
          let pbaBarOffset := dev.cap.pbaOffset &&& pciMsixPbaOffset
          let dev := withMsix dev tableAddr (tableAddr + pbaBarOffset) blocks
          -- sanity checks
          if dev.table.size > pbaBarOffset.toUInt64 then
            .error (.die "MSIX table overlaps with PBA")
          else if pbaBarOffset.toUInt64 + dev.pba.size > size then
            .error (.die "PBA exceeds the size of the region")
          else
            .ok dev
        else
          (takeBlock setup blocks pbaBar).map fun (_, pbaAddr, blocks) =>
            withMsix dev tableAddr pbaAddr blocks

/-- `vfio_pci_configure_bar`. -/
def vfioPciConfigureBar (nr : Nat) (dev : MsixDevice) :
    Except SetupError MsixDevice :=
  if nr ≥ setup.numRegions then
    .ok dev
  else
    (vfioPciGetRegionInfo setup nr).map fun info =>
      let region :=
        { dev.regions nr with isIoport := barIsIo (dev.bar nr), info := info }
      let keep (region : VfioRegion) : MsixDevice :=
        { dev with regions := Function.update dev.regions nr region }
      -- ignore invalid or unimplemented regions
      if info.size = 0 then
        keep region
      -- trap and emulate the table and the PBA
      else if nr = dev.table.bar then
        keep { region with guestPhysAddr := dev.table.guestPhysAddr.toUInt64 }
      else if nr = dev.pba.bar then
        keep { region with guestPhysAddr := dev.pba.guestPhysAddr.toUInt64 }
      else if region.isIoport then
        let (port, blocks) :=
          pciGetIoPortBlock dev.ioPortBlocks info.size.toUInt32
        { keep { region with portBase := port.toUInt32 } with
          ioPortBlocks := blocks }
      else
        let mapSize := align64 info.size setup.pageSize
        let (addr, blocks) :=
          pciGetMmioBlock dev.mmioBlocks mapSize.toUInt32
        { keep { region with guestPhysAddr := addr.toUInt64 } with
          mmioBlocks := blocks }

/-- A BAR has a top half. -/
def is64bit (bar : UInt32) : Bool :=
  !barIsIo bar && bar &&& pciBaseAddressMemType64 != 0

/-- The loop of `vfio_pci_configure_dev_regions`. -/
def configureLoop : List Nat → Bool → MsixDevice →
    Except SetupError MsixDevice
  | [], _, dev => .ok dev
  -- ignore the top half of a 64-bit BAR
  | _ :: rest, true, dev => configureLoop rest false dev
  | nr :: rest, false, dev =>
      (vfioPciConfigureBar setup nr dev).bind fun dev =>
        configureLoop rest (is64bit (dev.bar nr)) dev

/-- The fake register for a region. -/
def fakeBar (region : VfioRegion) : UInt64 :=
  if region.isIoport then
    (region.portBase &&& pciBaseAddressIoMask |||
      pciBaseAddressSpaceIo).toUInt64
  else
    region.guestPhysAddr &&& ~~~(0xf : UInt64)

/-- `vfio_pci_fixup_cfg_space`. -/
def vfioPciFixupCfgSpace (dev : MsixDevice) :
    Except SetupError MsixDevice :=
  let pbaBarOffset := dev.cap.pbaOffset &&& pciMsixPbaOffset
  let fdOffset :=
    (dev.regions dev.pba.bar).info.offset + pbaBarOffset.toUInt64
  let shared := dev.table.bar = dev.pba.bar
  let dev :=
    { dev with
      bar i :=
        if i < 6 then (fakeBar (dev.regions i)).toUInt32 else dev.bar i
      barSize i :=
        if i < 6 ∧ fakeBar (dev.regions i) ≠ 0 then
          (dev.regions i).info.size.toUInt32
        else
          dev.barSize i
      pba :=
        { dev.pba with
          fdOffset := fdOffset
          -- the PBA of another BAR is at its start
          barOffset := if shared then pbaBarOffset else 0 }
      cap :=
        { dev.cap with
          tableOffset := dev.cap.tableOffset &&& pciMsixBir
          pbaOffset :=
            if shared then
              dev.cap.pbaOffset
            else
              dev.cap.pbaOffset &&& pciMsixBir } }
  if setup.pwriteOk then .ok dev else .error (.errno eIo)

/-- `vfio_pci_configure_dev_regions`, from the table on. -/
def vfioPciConfigureDevRegions : Except SetupError MsixDevice :=
  (vfioPciCreateMsixTable setup setup.blank).bind fun dev =>
    (configureLoop setup (List.range 6) false dev).bind fun dev =>
      vfioPciFixupCfgSpace setup dev

end Code

/-- Which of the two regions is trapped. -/
inductive TrapKind where
  | table
  | pba
deriving DecidableEq, Repr

/-- The arguments of `kvm_register_mmio`. -/
structure Trap where
  kind : TrapKind
  physAddr : UInt64
  len : UInt64
deriving DecidableEq, Repr

/-- What `vfio_pci_bar_activate` returns, and what it has registered. -/
structure Activated where
  ret : Int
  dev : MsixDevice
  traps : List Trap

/-- The region is where its BAR is. -/
def placeRegion (dev : MsixDevice) (barNum : Nat) : MsixDevice :=
  let barAddr := barAddress (dev.bar barNum)
  let region : VfioRegion :=
    if barIsIo (dev.bar barNum) then
      { dev.regions barNum with portBase := barAddr }
    else
      { dev.regions barNum with guestPhysAddr := barAddr.toUInt64 }
  { dev with regions := Function.update dev.regions barNum region }

section Activate

-- what `kvm_register_mmio` and `vfio_map_region` return
variable (register : Trap → Int) (mapRegion : Int)

/-- A call of `kvm_register_mmio`. -/
def registered (trap : Trap) : List Trap :=
  if register trap < 0 then [] else [trap]

/-- The second half of `vfio_pci_bar_activate`. -/
def activatePba (dev : MsixDevice) (barNum : Nat) : Activated :=
  if barNum = dev.pba.bar then
    let addr :=
      if dev.pba.bar = dev.table.bar then
        dev.table.guestPhysAddr + dev.pba.barOffset
      else
        (dev.regions barNum).guestPhysAddr.toUInt32
    let trap : Trap := ⟨.pba, addr.toUInt64, dev.pba.size⟩
    ⟨register trap,
      { dev with pba := { dev.pba with guestPhysAddr := addr } },
      registered register trap⟩
  else
    ⟨mapRegion, dev, []⟩

/-- `vfio_pci_bar_activate`. -/
def vfioPciBarActivate (dev : MsixDevice) (barNum : Nat) : Activated :=
  let dev := placeRegion dev barNum
  if barNum = dev.table.bar then
    let addr := (dev.regions barNum).guestPhysAddr.toUInt32
    let trap : Trap := ⟨.table, addr.toUInt64, dev.table.size⟩
    let dev : MsixDevice :=
      { dev with table := { dev.table with guestPhysAddr := addr } }
    if register trap < 0 ∨ dev.table.bar ≠ dev.pba.bar then
      ⟨register trap, dev, registered register trap⟩
    else
      -- both of them are in this BAR
      let second := activatePba register mapRegion dev barNum
      { second with traps := trap :: second.traps }
  else
    activatePba register mapRegion dev barNum

end Activate

/-! ## What is expected -/

/-- The guest moves BARs, and turns them on. -/
inductive Reached (start : MsixDevice) : MsixDevice → Prop
  | start : Reached start start
  | move {dev : MsixDevice} (barNum : Nat) (value : UInt32)
      (kind : barIsIo value = barIsIo (dev.bar barNum)) :
      Reached start dev →
        Reached start
          { dev with bar := Function.update dev.bar barNum value }
  | activate {dev : MsixDevice} (register : Trap → Int) (mapRegion : Int)
      (barNum : Nat) :
      Reached start dev →
        Reached start (vfioPciBarActivate register mapRegion dev barNum).dev

section Spec

variable (dev : MsixDevice)

/-- Where a BAR starts. -/
def barStart (barNum : Nat) : Nat :=
  (barAddress (dev.bar barNum)).toNat

/-- Where it ends. -/
def barEnd (barNum : Nat) : Nat :=
  barStart dev barNum + (dev.barSize barNum).toNat

/-- The address that an offset in the capability stands for. -/
def pointsTo (offset : UInt32) : Nat :=
  barStart dev (offset &&& pciMsixBir).toNat +
    (offset &&& pciMsixPbaOffset).toNat

/-- The BAR is implemented, and in memory. -/
def InMemory (barNum : Nat) : Prop :=
  dev.barSize barNum ≠ 0 ∧ barIsIo (dev.bar barNum) = false

/-- The BARs of the two regions are below 4 GiB, and apart from each other. -/
structure Placement : Prop where
  fits :
    ∀ barNum, barNum = dev.table.bar ∨ barNum = dev.pba.bar →
      barEnd dev barNum ≤ 2 ^ 32
  apart :
    dev.table.bar ≠ dev.pba.bar →
      InMemory dev dev.table.bar → InMemory dev dev.pba.bar →
        barEnd dev dev.table.bar ≤ barStart dev dev.pba.bar ∨
          barEnd dev dev.pba.bar ≤ barStart dev dev.table.bar

/-- What the implemented BARs register. -/
def Registers (register : Trap → Int) (mapRegion : Int) (trap : Trap) :
    Prop :=
  ∃ barNum < 6,
    dev.barSize barNum ≠ 0 ∧
      trap ∈ (vfioPciBarActivate register mapRegion dev barNum).traps

/-- A region is where the offset points to, and inside that BAR. -/
structure RightTrap (offset : UInt32) (trap : Trap) : Prop where
  pointed : trap.physAddr.toNat = pointsTo dev offset
  begins :
    barStart dev (offset &&& pciMsixBir).toNat ≤ trap.physAddr.toNat
  ends :
    trap.physAddr.toNat + trap.len.toNat ≤
      barEnd dev (offset &&& pciMsixBir).toNat

/-- The regions that are registered, wherever the BARs are. -/
structure RightTraps : Prop where
  table :
    ∀ register mapRegion trap,
      Registers dev register mapRegion trap → trap.kind = .table →
        RightTrap dev dev.cap.tableOffset trap
  pba :
    ∀ register mapRegion trap,
      Registers dev register mapRegion trap → trap.kind = .pba →
        RightTrap dev dev.cap.pbaOffset trap
  apart :
    ∀ register mapRegion first second,
      Registers dev register mapRegion first → first.kind = .table →
        Registers dev register mapRegion second → second.kind = .pba →
          first.physAddr.toNat + first.len.toNat ≤ second.physAddr.toNat ∨
            second.physAddr.toNat + second.len.toNat ≤
              first.physAddr.toNat
  both :
    ∀ register mapRegion, (∀ trap, 0 ≤ register trap) → ∀ kind,
      ∃ trap, Registers dev register mapRegion trap ∧ trap.kind = kind

/--
All entries are in the table and all pending bits in the PBA, and the two are
trapped where the guest is told to look for them.
-/
structure RightLayout : Prop where
  entries :
    ∀ vector < dev.nrEntries.toNat,
      (vector + 1) * pciMsixEntrySize.toNat ≤ dev.table.size.toNat
  pending :
    ∀ vector < dev.nrEntries.toNat, vector / 8 < dev.pba.size.toNat
  traps :
    ∀ after, Reached dev after → Placement after → RightTraps after

end Spec

section Condition

variable (setup : Setup)

/-- The BARs `configureLoop` does not ignore. -/
def configured : List Nat → Bool → List Nat
  | [], _ => []
  | _ :: rest, true => configured rest false
  | nr :: rest, false => nr :: configured rest (is64bit (setup.hdrBar nr))

/-- A BAR of the device in memory, and not the top half of another one. -/
def MemoryBar (barNum : Nat) : Prop :=
  barNum ∈ configured setup (List.range 6) false ∧
    barIsIo (setup.hdrBar barNum) = false

/-- What VFIO says of the size of a region. -/
def regionSize (barNum : Nat) : Nat :=
  match setup.regionInfo barNum with
  | .error _ => 0
  | .ok info => info.size.toNat

/-- The number of vectors of the capability. -/
def nrVectors : Nat :=
  (setup.cap.ctrl &&& pciMsixFlagsQsize).toNat + 1

/--
No more vectors than one quadword has bits; the BIRs name BARs in memory; and
two different BARs are large enough for the table and for the quadword.
-/
structure Fitting : Prop where
  few : nrVectors setup ≤ 64
  tableBar : MemoryBar setup (setup.cap.tableOffset &&& pciMsixBir).toNat
  pbaBar : MemoryBar setup (setup.cap.pbaOffset &&& pciMsixBir).toNat
  large :
    setup.cap.tableOffset &&& pciMsixBir ≠
        setup.cap.pbaOffset &&& pciMsixBir →
      nrVectors setup * 16 ≤
          regionSize setup (setup.cap.tableOffset &&& pciMsixBir).toNat ∧
        8 ≤ regionSize setup (setup.cap.pbaOffset &&& pciMsixBir).toNat

end Condition

/-! ## Sizes -/

section Sizes

theorem toNat_align64 {x a : UInt64} {k : Nat} (power : a.toNat = 2 ^ k) :
    (align64 x a).toNat =
      (x.toNat + (2 ^ k - 1)) % 2 ^ 64 / 2 ^ k * 2 ^ k :=
  toNat_align power

theorem few_vectors (setup : Setup) : nrVectors setup ≤ 2048 := by
  have field :
      (setup.cap.ctrl &&& pciMsixFlagsQsize).toNat ≤
        pciMsixFlagsQsize.toNat := by
    rw [UInt16.toNat_and]
    exact Nat.and_le_right
  exact Nat.succ_le_succ field

theorem toNat_entryCount (setup : Setup) :
    (entryCount setup.cap).toNat = nrVectors setup := by
  have few := few_vectors setup
  rw [nrVectors] at few
  rw [entryCount, UInt64.toNat_add, UInt16.toNat_toUInt64]
  exact Nat.mod_eq_of_lt (by change _ + 1 < _; omega)

/-- The table has 16 bytes for each vector. -/
theorem toNat_tableSize (setup : Setup) :
    (align64 (entryCount setup.cap * pciMsixEntrySize) 8).toNat =
      nrVectors setup * 16 := by
  have few := few_vectors setup
  have product :
      (entryCount setup.cap * pciMsixEntrySize).toNat =
        nrVectors setup * 16 := by
    rw [UInt64.toNat_mul, toNat_entryCount]
    exact Nat.mod_eq_of_lt (by change _ * 16 < _; omega)
  rw [toNat_align64 (show (8 : UInt64).toNat = 2 ^ 3 from rfl), product]
  omega

/-- The PBA has as many bytes as there are quadwords, rounded up to eight. -/
theorem toNat_pbaSize (setup : Setup) :
    (align64 (divRoundUp (entryCount setup.cap) 64) 8).toNat =
      ((nrVectors setup + 63) / 64 + 7) / 8 * 8 := by
  have few := few_vectors setup
  have some : 1 ≤ nrVectors setup := Nat.succ_le_succ (Nat.zero_le _)
  have quadwords :
      (divRoundUp (entryCount setup.cap) 64).toNat =
        (nrVectors setup + 63) / 64 := by
    have sum : (entryCount setup.cap + 64).toNat = nrVectors setup + 64 := by
      rw [UInt64.toNat_add, toNat_entryCount]
      exact Nat.mod_eq_of_lt (by change _ + 64 < _; omega)
    have less :
        (entryCount setup.cap + 64 - 1).toNat = nrVectors setup + 63 := by
      rw [UInt64.toNat_sub_of_le, sum]
      · rfl
      · rw [UInt64.le_iff_toNat_le, sum]
        exact Nat.le_add_left_of_le (by decide)
    rw [divRoundUp, UInt64.toNat_div, less]
    rfl
  rw [toNat_align64 (show (8 : UInt64).toNat = 2 ^ 3 from rfl), quadwords]
  omega

/-- There are bits enough for one quadword of vectors. -/
theorem pending_iff (setup : Setup) :
    (∀ vector < nrVectors setup,
        vector / 8 < ((nrVectors setup + 63) / 64 + 7) / 8 * 8) ↔
      nrVectors setup ≤ 64 := by
  have some : 1 ≤ nrVectors setup := Nat.succ_le_succ (Nat.zero_le _)
  generalize nrVectors setup = count at some ⊢
  constructor
  · intro every
    have last := every (count - 1) (by omega)
    omega
  · intro few vector within
    omega

end Sizes

/-! ## Blocks -/

section Blocks

variable {mmioBlocks : UInt32} {size : UInt64} {shift : Nat}

theorem isPowerOfTwo_elim {x : UInt64} (power : isPowerOfTwo x = true) :
    ∃ j, x.toNat = 2 ^ j := by
  rw [isPowerOfTwo, Bool.and_eq_true, decide_eq_true_eq, beq_iff_eq] at power
  obtain ⟨positive, single⟩ := power
  have some : 0 < x.toNat := UInt64.lt_iff_toNat_lt.1 positive
  have pred : (x - 1).toNat = x.toNat - 1 :=
    UInt64.toNat_sub_of_le x 1 (UInt64.le_iff_toNat_le.2 some)
  have bits := congrArg UInt64.toNat single
  rw [UInt64.toNat_and, pred] at bits
  exact
    (Nat.and_sub_one_eq_zero_iff_isPowerOfTwo (Nat.ne_of_gt some)).1 bits

section Align

variable {x a : UInt32} {k : Nat}

theorem dvd_align32 (power : a.toNat = 2 ^ k) :
    2 ^ k ∣ (align32 x a).toNat :=
  dvd_align power

theorem align32_room (power : a.toNat = 2 ^ k) :
    (align32 x a).toNat + 2 ^ k ≤ 2 ^ 32 :=
  align_room power

theorem le_align32 (power : a.toNat = 2 ^ k) (nonzero : align32 x a ≠ 0) :
    x.toNat ≤ (align32 x a).toNat :=
  le_align power fun zero => nonzero (congrArg UInt32.ofBitVec zero)

theorem zero_align32 (a : UInt32) : align32 0 a = 0 :=
  congrArg UInt32.ofBitVec (zero_align _)

theorem align32_zero (x : UInt32) : align32 x 0 = 0 :=
  congrArg UInt32.ofBitVec (align_zero _)

end Align

/-- A block that was taken for a region. -/
structure Block (before : UInt32) (size : UInt64) (block after : UInt32) :
    Prop where
  above : before.toNat ≤ block.toNat
  aligned : 2 ^ 12 ∣ block.toNat
  room : block.toNat + size.toNat ≤ 2 ^ 32
  next : after = 0 ∨ block.toNat + size.toNat ≤ after.toNat

/-- No block begins at zero, and none is taken for 4 GiB or more. -/
theorem pciGetMmioBlock_block (pages : 12 ≤ shift ∧ shift < 32)
    (power : isPowerOfTwo size = true)
    (taken :
      (pciGetMmioBlock mmioBlocks
          (align64 size (.ofNat (2 ^ shift))).toUInt32).1 ≠ 0) :
    mmioBlocks ≠ 0 ∧
      Block mmioBlocks size
        (pciGetMmioBlock mmioBlocks
          (align64 size (.ofNat (2 ^ shift))).toUInt32).1
        (pciGetMmioBlock mmioBlocks
          (align64 size (.ofNat (2 ^ shift))).toUInt32).2 := by
  obtain ⟨j, whole⟩ := isPowerOfTwo_elim power
  have page : (UInt64.ofNat (2 ^ shift)).toNat = 2 ^ shift :=
    UInt64.toNat_ofNat_of_lt'
      (Nat.pow_lt_pow_right (by decide : 1 < 2)
        (Nat.lt_trans pages.2 (by decide : 32 < 64)))
  have mapSize :
      (align64 size (.ofNat (2 ^ shift))).toNat = 2 ^ max j shift :=
    toNat_align_power whole page
  generalize align64 size (.ofNat (2 ^ shift)) = rounded at mapSize taken ⊢
  have large : size.toNat ≤ 2 ^ max j shift :=
    whole ▸ Nat.pow_le_pow_right (by decide) (Nat.le_max_left j shift)
  have whole : 2 ^ 12 ∣ 2 ^ max j shift :=
    Nat.pow_dvd_pow 2 (Nat.le_trans pages.1 (Nat.le_max_right j shift))
  generalize max j shift = k at mapSize large whole
  have short : rounded.toUInt32.toNat = rounded.toNat % 2 ^ 32 := rfl
  rcases Nat.lt_or_ge k 32 with fits | huge
  · have exact : rounded.toUInt32.toNat = 2 ^ k := by
      rw [short, mapSize]
      exact Nat.mod_eq_of_lt (Nat.pow_lt_pow_right (by decide) fits)
    generalize rounded.toUInt32 = size32 at exact taken ⊢
    have aligned :
        pciGetMmioBlock mmioBlocks size32 =
          (align32 mmioBlocks size32, align32 mmioBlocks size32 + size32) :=
      rfl
    rw [aligned] at taken ⊢
    dsimp only at taken ⊢
    have room : (align32 mmioBlocks size32).toNat + 2 ^ k ≤ 2 ^ 32 :=
      align32_room exact
    have above := le_align32 exact taken
    have sum :
        (align32 mmioBlocks size32 + size32).toNat =
          ((align32 mmioBlocks size32).toNat + 2 ^ k) % 2 ^ 32 := by
      rw [UInt32.toNat_add, exact]
    refine
      ⟨?_, above, Nat.dvd_trans whole (dvd_align32 exact), by omega, ?_⟩
    · rintro rfl
      exact taken (zero_align32 size32)
    · rw [← UInt32.toNat_inj, sum]
      rcases Nat.lt_or_eq_of_le room with plain | ends
      · rw [Nat.mod_eq_of_lt plain]
        exact .inr (Nat.add_le_add_left large _)
      · exact .inl (by rw [ends]; rfl)
  · have none : rounded.toUInt32 = 0 := by
      apply UInt32.toNat_inj.1
      rw [short, mapSize]
      exact Nat.mod_eq_zero_of_dvd (Nat.pow_dvd_pow 2 huge)
    rw [none] at taken
    exact absurd (align32_zero mmioBlocks) taken

end Blocks

/-! ## The table is created -/

section Create

variable {setup : Setup} {α β : Type}

theorem ok_of_bind {first : Except SetupError α}
    {next : α → Except SetupError β} {result : β}
    (done : first.bind next = .ok result) :
    ∃ value, first = .ok value ∧ next value = .ok result := by
  cases first with
  | error => cases done
  | ok value => exact ⟨value, rfl, done⟩

theorem ok_of_map {first : Except SetupError α} {next : α → β} {result : β}
    (done : first.map next = .ok result) :
    ∃ value, first = .ok value ∧ next value = result := by
  cases first with
  | error => cases done
  | ok value => exact ⟨value, rfl, Except.ok.inj done⟩

theorem ok_of_guard {bad : Prop} [Decidable bad] {error : SetupError}
    {next : Except SetupError α} {result : α}
    (done : (if bad then .error error else next) = .ok result) :
    ¬bad ∧ next = .ok result := by
  by_cases holds : bad
  · rw [if_pos holds] at done
    cases done
  · rw [if_neg holds] at done
    exact ⟨holds, done⟩

theorem vfioPciGetRegionInfo_elim {index : Nat} {info : RegionInfo}
    (done : vfioPciGetRegionInfo setup index = .ok info) :
    regionSize setup index = info.size.toNat ∧
      (info.size ≠ 0 → isPowerOfTwo info.size = true) := by
  rw [vfioPciGetRegionInfo] at done
  rw [regionSize]
  split at done
  case h_1 => cases done
  case h_2 found known =>
    obtain ⟨sound, ⟨⟩⟩ := ok_of_guard done
    refine ⟨rfl, fun some => ?_⟩
    by_contra bad
    exact sound ⟨some, by rw [Bool.not_eq_true] at bad; rw [bad]; rfl⟩

/-- The region can be asked for, and is not empty. -/
def Exists (setup : Setup) (barNum : Nat) : Prop :=
  ∃ info, vfioPciGetRegionInfo setup barNum = .ok info ∧ info.size ≠ 0

theorem takeBlock_elim {mmioBlocks addr blocks : UInt32} {barNum : Nat}
    {size : UInt64}
    (done : takeBlock setup mmioBlocks barNum = .ok (size, addr, blocks)) :
    Exists setup barNum ∧
      regionSize setup barNum = size.toNat ∧
        addr ≠ 0 ∧ mmioBlocks ≠ 0 ∧ Block mmioBlocks size addr blocks := by
  rw [takeBlock] at done
  obtain ⟨info, known, done⟩ := ok_of_bind done
  obtain ⟨some, done⟩ := ok_of_guard done
  obtain ⟨taken, ⟨⟩⟩ := ok_of_guard done
  obtain ⟨large, power⟩ := vfioPciGetRegionInfo_elim known
  exact
    ⟨⟨info, known, some⟩, large, taken,
      pciGetMmioBlock_block setup.pages (power some) taken⟩

/-- What `vfio_pci_create_msix_table` has decided. -/
structure Created (setup : Setup) (dev : MsixDevice) : Prop where
  tableBar : dev.table.bar = (setup.cap.tableOffset &&& pciMsixBir).toNat
  pbaBar : dev.pba.bar = (setup.cap.pbaOffset &&& pciMsixBir).toNat
  nrEntries : dev.nrEntries.toNat = nrVectors setup
  tableSize : dev.table.size.toNat = nrVectors setup * 16
  pbaSize :
    dev.pba.size.toNat = ((nrVectors setup + 63) / 64 + 7) / 8 * 8

/-- A block for a region. -/
structure Taken (setup : Setup) (barNum : Nat) (addr : UInt32) : Prop where
  some : addr ≠ 0
  aligned : 2 ^ 12 ∣ addr.toNat
  room : addr.toNat + regionSize setup barNum ≤ 2 ^ 32

/-- The blocks it has taken. -/
structure Blocks (setup : Setup) (dev : MsixDevice) : Prop where
  tableExists : Exists setup dev.table.bar
  pbaExists : Exists setup dev.pba.bar
  table : Taken setup dev.table.bar dev.table.guestPhysAddr
  pba :
    dev.table.bar ≠ dev.pba.bar →
      Taken setup dev.pba.bar dev.pba.guestPhysAddr ∧
        dev.table.guestPhysAddr.toNat + regionSize setup dev.table.bar ≤
          dev.pba.guestPhysAddr.toNat
  shared :
    dev.table.bar = dev.pba.bar →
      dev.table.size.toNat ≤
          (setup.cap.pbaOffset &&& pciMsixPbaOffset).toNat ∧
        (setup.cap.pbaOffset &&& pciMsixPbaOffset).toNat +
            dev.pba.size.toNat ≤
          regionSize setup dev.table.bar

theorem withMsix_created (setup : Setup) (tableAddr pbaAddr blocks : UInt32) :
    Created setup (withMsix setup.blank tableAddr pbaAddr blocks) where
  tableBar := rfl
  pbaBar := rfl
  nrEntries := toNat_entryCount setup
  tableSize := toNat_tableSize setup
  pbaSize := toNat_pbaSize setup

theorem vfioPciCreateMsixTable_elim {dev : MsixDevice}
    (done : vfioPciCreateMsixTable setup setup.blank = .ok dev) :
    Blocks setup dev ∧
      ∃ tableAddr pbaAddr blocks,
        dev = withMsix setup.blank tableAddr pbaAddr blocks := by
  rw [vfioPciCreateMsixTable] at done
  obtain ⟨-, done⟩ := ok_of_guard done
  obtain ⟨⟨size, tableAddr, blocks⟩, tableTaken, done⟩ := ok_of_bind done
  obtain ⟨tableExists, tableSize, tableSome, -, tableBlock⟩ :=
    takeBlock_elim tableTaken
  have table : Taken setup _ tableAddr :=
    ⟨tableSome, tableBlock.aligned, tableSize ▸ tableBlock.room⟩
  dsimp only at done
  split at done
  case isTrue together =>
    obtain ⟨before, done⟩ := ok_of_guard done
    obtain ⟨within, ⟨⟩⟩ := ok_of_guard done
    have created :=
      withMsix_created setup tableAddr
        (tableAddr + (setup.blank.cap.pbaOffset &&& pciMsixPbaOffset)) blocks
    have pbaExists := tableExists
    rw [together] at pbaExists
    refine
      ⟨⟨tableExists, pbaExists, table,
          fun apart => absurd together apart, fun _ => ⟨?_, ?_⟩⟩,
        _, _, _, rfl⟩
    · exact UInt64.le_iff_toNat_le.1 (UInt64.not_lt.1 before)
    · have few := few_vectors setup
      have below := (setup.blank.cap.pbaOffset &&& pciMsixPbaOffset).toNat_lt
      have sum := UInt64.le_iff_toNat_le.1 (UInt64.not_lt.1 within)
      rw [UInt64.toNat_add, UInt32.toNat_toUInt64, created.pbaSize,
        Nat.mod_eq_of_lt (by omega), ← tableSize] at sum
      rw [created.pbaSize]
      exact sum
  case isFalse apart =>
    obtain ⟨⟨pbaRegion, pbaAddr, free⟩, pbaTaken, rfl⟩ := ok_of_map done
    obtain ⟨pbaExists, pbaSize, pbaSome, begun, pbaBlock⟩ :=
      takeBlock_elim pbaTaken
    have pba : Taken setup _ pbaAddr :=
      ⟨pbaSome, pbaBlock.aligned, pbaSize ▸ pbaBlock.room⟩
    have behind := tableBlock.next.resolve_left begun
    rw [← tableSize] at behind
    exact
      ⟨⟨tableExists, pbaExists, table,
          fun _ => ⟨pba, Nat.le_trans behind pbaBlock.above⟩,
          fun together => absurd together apart⟩,
        _, _, _, rfl⟩

end Create

/-! ## The BARs are configured -/

section Configure

variable {setup : Setup}

/-- The region of a BAR in which something is trapped. -/
structure Emulated (setup : Setup) (dev : MsixDevice) (barNum : Nat)
    (region : VfioRegion) : Prop where
  size : region.info.size.toNat = regionSize setup barNum
  kind : region.isIoport = barIsIo (dev.bar barNum)
  portBase : region.portBase = (dev.regions barNum).portBase
  guestPhysAddr :
    region.guestPhysAddr =
      (if barNum = dev.table.bar then
          dev.table.guestPhysAddr
        else
          dev.pba.guestPhysAddr).toUInt64

/-- A device of which only the regions and the free blocks are other ones. -/
def withRegions (dev : MsixDevice) (regions : Nat → VfioRegion)
    (mmioBlocks : UInt32) (ioPortBlocks : UInt16) : MsixDevice :=
  { dev with
    regions := regions, mmioBlocks := mmioBlocks,
    ioPortBlocks := ioPortBlocks }

/-- One BAR. -/
theorem vfioPciConfigureBar_elim {nr : Nat} {dev after : MsixDevice}
    (done : vfioPciConfigureBar setup nr dev = .ok after) :
    ∃ regions mmioBlocks ioPortBlocks,
      after = withRegions dev regions mmioBlocks ioPortBlocks ∧
        (∀ other, other ≠ nr → regions other = dev.regions other) ∧
          (nr < setup.numRegions → nr = dev.table.bar ∨ nr = dev.pba.bar →
            Exists setup nr → Emulated setup dev nr (regions nr)) := by
  rw [vfioPciConfigureBar] at done
  split at done
  case isTrue beyond =>
    cases done
    exact
      ⟨_, _, _, rfl, fun _ _ => rfl,
        fun within => absurd beyond (Nat.not_le.2 within)⟩
  case isFalse =>
    obtain ⟨info, known, rfl⟩ := ok_of_map done
    have size := (vfioPciGetRegionInfo_elim known).1
    dsimp only
    split
    case isTrue none =>
      refine
        ⟨_, _, _, rfl, fun _ other => Function.update_of_ne other _ _,
          fun _ _ exists' => ?_⟩
      obtain ⟨same, again, some⟩ := exists'
      rw [known] at again
      cases again
      exact absurd none some
    case isFalse =>
      split
      case isTrue ofTable =>
        refine
          ⟨_, _, _, rfl, fun _ other => Function.update_of_ne other _ _,
            fun _ _ _ => ?_⟩
        rw [Function.update_self]
        exact ⟨size.symm, rfl, rfl, by rw [if_pos ofTable]⟩
      case isFalse notTable =>
        split
        case isTrue ofPba =>
          refine
            ⟨_, _, _, rfl, fun _ other => Function.update_of_ne other _ _,
              fun _ _ _ => ?_⟩
          rw [Function.update_self]
          exact ⟨size.symm, rfl, rfl, by rw [if_neg notTable]⟩
        case isFalse notPba =>
          split
          case isTrue =>
            exact
              ⟨_, _, _, rfl, fun _ other => Function.update_of_ne other _ _,
                fun _ either => absurd either (not_or.2 ⟨notTable, notPba⟩)⟩
          case isFalse =>
            exact
              ⟨_, _, _, rfl, fun _ other => Function.update_of_ne other _ _,
                fun _ either => absurd either (not_or.2 ⟨notTable, notPba⟩)⟩

theorem configured_subset {barNum : Nat} {numbers : List Nat} {top : Bool}
    (member : barNum ∈ configured setup numbers top) : barNum ∈ numbers := by
  induction numbers generalizing top with
  | nil => cases member
  | cons nr rest induction =>
      cases top with
      | true => exact List.mem_cons_of_mem _ (induction member)
      | false =>
          rcases List.mem_cons.1 member with rfl | later
          · exact List.mem_cons_self
          · exact List.mem_cons_of_mem _ (induction later)

/-- All BARs. -/
theorem configureLoop_elim {numbers : List Nat} {top : Bool}
    {dev after : MsixDevice} (bars : dev.bar = setup.hdrBar)
    (distinct : numbers.Nodup)
    (inside : ∀ nr ∈ numbers, nr < setup.numRegions)
    (done : configureLoop setup numbers top dev = .ok after) :
    ∃ regions mmioBlocks ioPortBlocks,
      after = withRegions dev regions mmioBlocks ioPortBlocks ∧
        (∀ nr, nr ∉ configured setup numbers top →
          regions nr = dev.regions nr) ∧
          ∀ nr ∈ configured setup numbers top,
            nr = dev.table.bar ∨ nr = dev.pba.bar → Exists setup nr →
              Emulated setup dev nr (regions nr) := by
  induction numbers generalizing top dev with
  | nil =>
      cases done
      exact ⟨_, _, _, rfl, fun _ _ => rfl, nofun⟩
  | cons nr rest induction =>
      obtain ⟨fresh, distinct⟩ := List.nodup_cons.1 distinct
      have later : ∀ nr ∈ rest, nr < setup.numRegions :=
        (List.forall_mem_cons.mp inside).2
      cases top with
      | true => exact induction bars distinct later done
      | false =>
          obtain ⟨between, first, done⟩ := ok_of_bind done
          obtain ⟨regions, mmioBlocks, ioPortBlocks, rfl, others, here⟩ :=
            vfioPciConfigureBar_elim first
          have barsBetween :
              (withRegions dev regions mmioBlocks ioPortBlocks).bar =
                setup.hdrBar :=
            bars
          rw [barsBetween] at done
          obtain ⟨finished, mmioAfter, ioAfter, rfl, left, made⟩ :=
            induction barsBetween distinct later done
          refine ⟨finished, mmioAfter, ioAfter, rfl, ?_, ?_⟩
          · intro other notMember
            rw [configured, List.mem_cons, not_or] at notMember
            rw [left other notMember.2]
            exact others other notMember.1
          · intro other member either exists'
            rcases List.mem_cons.1 member with rfl | member
            · rw [left other fun again => fresh (configured_subset again)]
              exact here (inside other List.mem_cons_self) either exists'
            · have different : other ≠ nr := by
                rintro rfl
                exact fresh (configured_subset member)
              have made := made other member either exists'
              exact
                ⟨made.size, made.kind,
                  made.portBase.trans
                    (congrArg VfioRegion.portBase (others other different)),
                  made.guestPhysAddr⟩

end Configure

/-! ## The header is fixed up -/

section Fixup

variable {setup : Setup}

/-- An address of a block is that of a BAR in memory. -/
theorem memory_address {addr : UInt32} (aligned : 2 ^ 12 ∣ addr.toNat) :
    barIsIo addr = false ∧ barAddress addr = addr := by
  have sixteen : addr.toNat % 2 ^ 4 = 0 :=
    Nat.mod_eq_zero_of_dvd
      (Nat.dvd_trans (Nat.pow_dvd_pow 2 (by decide)) aligned)
  have even : addr &&& pciBaseAddressSpaceIo = 0 := by
    rw [← UInt32.toNat_inj, UInt32.toNat_and]
    change addr.toNat &&& 1 = 0
    rw [Nat.and_one_is_mod]
    omega
  have memory : barIsIo addr = false := by
    rw [barIsIo, even]
    rfl
  refine ⟨memory, ?_⟩
  rw [barAddress, barMask, memory]
  apply UInt32.toNat_inj.1
  have cleared :
      (addr &&& pciBaseAddressMemMask).toNat = addr.toNat / 2 ^ 4 * 2 ^ 4 :=
    toNat_clear_low (show (0xf#32).toNat = 2 ^ 4 - 1 from rfl)
  exact cleared.trans (Nat.div_mul_cancel (Nat.dvd_of_mod_eq_zero sixteen))

/-- The fake register of a block is its address. -/
theorem fakeBar_memory {addr : UInt32} (aligned : 2 ^ 12 ∣ addr.toNat) :
    addr.toUInt64 &&& ~~~(0xf : UInt64) = addr.toUInt64 := by
  have sixteen : 2 ^ 4 ∣ addr.toNat :=
    Nat.dvd_trans (Nat.pow_dvd_pow 2 (by decide)) aligned
  apply UInt64.toNat_inj.1
  have cleared :
      (addr.toUInt64 &&& ~~~(0xf : UInt64)).toNat =
        addr.toUInt64.toNat / 2 ^ 4 * 2 ^ 4 :=
    toNat_clear_low (show (0xf#64).toNat = 2 ^ 4 - 1 from rfl)
  rw [cleared, UInt32.toNat_toUInt64]
  exact Nat.div_mul_cancel sixteen

/-- The block for a BAR. -/
def blockOf (dev : MsixDevice) (barNum : Nat) : UInt32 :=
  if barNum = dev.table.bar then
    dev.table.guestPhysAddr
  else
    dev.pba.guestPhysAddr

/-- A BAR in which something is trapped, as it is set up. -/
structure SetBar (setup : Setup) (dev : MsixDevice) (barNum : Nat) : Prop
    where
  size : (dev.barSize barNum).toNat = regionSize setup barNum
  some : dev.barSize barNum ≠ 0
  kind : barIsIo (dev.bar barNum) = barIsIo (setup.hdrBar barNum)
  io :
    barIsIo (setup.hdrBar barNum) = true →
      barStart dev barNum = 0 ∧
        (dev.regions barNum).guestPhysAddr = (blockOf dev barNum).toUInt64
  memory :
    barIsIo (setup.hdrBar barNum) = false →
      barStart dev barNum = (blockOf dev barNum).toNat

/-- The device when all is set up. -/
structure SetUp (setup : Setup) (dev : MsixDevice) : Prop
    extends Created setup dev, Blocks setup dev where
  tableOffset : dev.cap.tableOffset = setup.cap.tableOffset &&& pciMsixBir
  pbaOffset :
    dev.cap.pbaOffset =
      if dev.table.bar = dev.pba.bar then
        setup.cap.pbaOffset
      else
        setup.cap.pbaOffset &&& pciMsixBir
  barOffset :
    dev.pba.barOffset =
      if dev.table.bar = dev.pba.bar then
        setup.cap.pbaOffset &&& pciMsixPbaOffset
      else
        0
  bars :
    ∀ barNum ∈ configured setup (List.range 6) false,
      barNum = dev.table.bar ∨ barNum = dev.pba.bar →
        SetBar setup dev barNum
  others :
    ∀ barNum, barNum ∉ configured setup (List.range 6) false →
      dev.barSize barNum = 0

theorem Blocks.exists (blocks : Blocks setup dev) {barNum : Nat}
    (either : barNum = dev.table.bar ∨ barNum = dev.pba.bar) :
    Exists setup barNum := by
  rcases either with rfl | rfl
  · exact blocks.tableExists
  · exact blocks.pbaExists

theorem Blocks.taken (blocks : Blocks setup dev) {barNum : Nat}
    (either : barNum = dev.table.bar ∨ barNum = dev.pba.bar) :
    Taken setup barNum (blockOf dev barNum) := by
  rw [blockOf]
  split
  case isTrue same =>
    rw [same]
    exact blocks.table
  case isFalse different =>
    obtain rfl := either.resolve_left different
    exact (blocks.pba (Ne.symm different)).1

/-- The fake register of a region in which something is trapped. -/
theorem Emulated.fakeBar_eq {dev : MsixDevice} {barNum : Nat}
    {region : VfioRegion} (emulated : Emulated setup dev barNum region)
    (unused : (dev.regions barNum).portBase = 0)
    (taken : Taken setup barNum (blockOf dev barNum)) :
    fakeBar region =
      if barIsIo (dev.bar barNum) then
        1
      else
        (blockOf dev barNum).toUInt64 := by
  rw [fakeBar, emulated.kind]
  split
  · rw [emulated.portBase, unused]
    rfl
  · rw [emulated.guestPhysAddr]
    exact fakeBar_memory taken.aligned

/-- A BAR that is filled in from such a region. -/
theorem Emulated.setBar {dev after : MsixDevice} {barNum : Nat}
    (emulated : Emulated setup dev barNum (after.regions barNum))
    (bars : dev.bar = setup.hdrBar)
    (unused : (dev.regions barNum).portBase = 0)
    (exists' : Exists setup barNum)
    (taken : Taken setup barNum (blockOf dev barNum))
    (blocks : blockOf after barNum = blockOf dev barNum)
    (bar : after.bar barNum = (fakeBar (after.regions barNum)).toUInt32)
    (size :
      fakeBar (after.regions barNum) ≠ 0 →
        after.barSize barNum = (after.regions barNum).info.size.toUInt32) :
    SetBar setup after barNum := by
  have fake := emulated.fakeBar_eq unused taken
  rw [bars] at fake
  have positive : 0 < (blockOf dev barNum).toNat := by
    rw [Nat.pos_iff_ne_zero]
    exact fun zero => taken.some (UInt32.toNat_inj.1 zero)
  have room := taken.room
  have filled : fakeBar (after.regions barNum) ≠ 0 := by
    rw [fake]
    split
    · decide
    · intro zero
      have none := congrArg UInt64.toNat zero
      rw [UInt32.toNat_toUInt64] at none
      exact absurd none (Nat.ne_of_gt positive)
  have exact : (after.barSize barNum).toNat = regionSize setup barNum := by
    have short :
        (after.regions barNum).info.size.toUInt32.toNat =
          (after.regions barNum).info.size.toNat % 2 ^ 32 :=
      rfl
    rw [size filled, short, emulated.size]
    exact Nat.mod_eq_of_lt (by omega)
  obtain ⟨info, known, some⟩ := exists'
  rw [fake] at bar
  refine ⟨exact, ?_, ?_, ?_, ?_⟩
  · intro none
    rw [none, (vfioPciGetRegionInfo_elim known).1] at exact
    exact some (UInt64.toNat_inj.1 exact.symm)
  · rw [bar]
    split
    case isTrue io =>
      rw [io]
      rfl
    case isFalse memory =>
      rw [Bool.not_eq_true] at memory
      rw [memory, UInt32.toUInt32_toUInt64]
      exact (memory_address taken.aligned).1
  · intro io
    rw [if_pos io] at bar
    refine ⟨?_, ?_⟩
    · rw [barStart, bar]
      rfl
    · rw [emulated.guestPhysAddr, blocks]
      rfl
  · intro memory
    rw [memory, if_neg Bool.false_ne_true, UInt32.toUInt32_toUInt64] at bar
    rw [barStart, bar, (memory_address taken.aligned).2, blocks]

theorem vfioPciConfigureDevRegions_setUp {dev : MsixDevice}
    (done : vfioPciConfigureDevRegions setup = .ok dev) :
    SetUp setup dev := by
  obtain ⟨made, creates, done⟩ := ok_of_bind done
  obtain ⟨between, configures, done⟩ := ok_of_bind done
  obtain ⟨blocks, tableAddr, pbaAddr, free, rfl⟩ :=
    vfioPciCreateMsixTable_elim creates
  obtain ⟨regions, mmioBlocks, ioPortBlocks, rfl, others, bars⟩ :=
    configureLoop_elim rfl List.nodup_range
      (fun nr member =>
        Nat.lt_of_lt_of_le (List.mem_range.1 member)
          (Nat.le_trans (by decide) setup.hasConfig))
      configures
  have created := withMsix_created setup tableAddr pbaAddr free
  rw [vfioPciFixupCfgSpace] at done
  dsimp only at done
  split at done
  case isFalse => cases done
  case isTrue =>
    cases done
    refine
      { created, blocks with
        tableOffset := rfl
        pbaOffset := rfl
        barOffset := rfl
        bars := ?_
        others := ?_ }
    · intro barNum member either
      have small : barNum < 6 := List.mem_range.1 (configured_subset member)
      exact
        (bars barNum member either (blocks.exists either)).setBar rfl rfl
          (blocks.exists either) (blocks.taken either) rfl (if_pos small)
          fun filled => if_pos ⟨small, filled⟩
    · intro barNum notMember
      refine if_neg fun filled => filled.2 ?_
      change fakeBar (regions barNum) = 0
      rw [others barNum notMember]
      exact (by decide : fakeBar ⟨⟨0, 0⟩, 0, 0, false⟩ = 0)

end Fixup

end Kemu.Vfio.MsixLayout
