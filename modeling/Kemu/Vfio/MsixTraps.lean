import Kemu.Vfio.MsixLayout

/-!
# The regions of MSI-X are where the guest looks for them

A device that was set up has its BARs moved and activated by the guest, in any
order.  The two regions that are registered then are followed from the
addresses of the setup to the offsets in the capability, and the sizes of the
BARs decide whether they are inside.
-/

namespace Kemu.Vfio.MsixLayout

open Kemu.Init.Pci

/-! ## What is registered -/

section Traps

variable {dev : MsixDevice} {register : Trap → Int} {mapRegion : Int}

/-- The address of the region of a BAR after it is activated. -/
def regionAddr (dev : MsixDevice) (barNum : Nat) : UInt32 :=
  if barIsIo (dev.bar barNum) then
    (dev.regions barNum).guestPhysAddr.toUInt32
  else
    barAddress (dev.bar barNum)

/-- The region of the table. -/
def tableTrap (dev : MsixDevice) : Trap :=
  ⟨.table, (regionAddr dev dev.table.bar).toUInt64, dev.table.size⟩

/-- The region of the PBA. -/
def pbaTrap (dev : MsixDevice) : Trap where
  kind := .pba
  physAddr :=
    (if dev.pba.bar = dev.table.bar then
        regionAddr dev dev.table.bar + dev.pba.barOffset
      else
        regionAddr dev dev.pba.bar).toUInt64
  len := dev.pba.size

theorem placeRegion_address (dev : MsixDevice) (barNum : Nat) :
    ((placeRegion dev barNum).regions barNum).guestPhysAddr.toUInt32 =
      regionAddr dev barNum := by
  rw [placeRegion, regionAddr]
  dsimp only
  rw [Function.update_self]
  split
  · rfl
  · exact UInt32.toUInt32_toUInt64 _

theorem activatePba_traps (dev : MsixDevice) (barNum : Nat) :
    (activatePba register mapRegion dev barNum).traps =
      if barNum = dev.pba.bar then
        registered register
          ⟨.pba,
            (if dev.pba.bar = dev.table.bar then
                dev.table.guestPhysAddr + dev.pba.barOffset
              else
                (dev.regions barNum).guestPhysAddr.toUInt32).toUInt64,
            dev.pba.size⟩
      else
        [] := by
  rw [activatePba]
  split <;> rfl

/-- The BAR of the table registers it, and the PBA if that is there too. -/
theorem vfioPciBarActivate_table :
    (vfioPciBarActivate register mapRegion dev dev.table.bar).traps =
      if register (tableTrap dev) < 0 then
        []
      else if dev.table.bar = dev.pba.bar then
        tableTrap dev :: registered register (pbaTrap dev)
      else
        [tableTrap dev] := by
  have addr := placeRegion_address dev dev.table.bar
  have here : dev.table.bar = (placeRegion dev dev.table.bar).table.bar := rfl
  rw [vfioPciBarActivate]
  dsimp only
  rw [if_pos here, addr]
  change
    (ite (register (tableTrap dev) < 0 ∨ dev.table.bar ≠ dev.pba.bar)
      (Activated.mk _ _ (registered register (tableTrap dev)))
      (Activated.mk _ _ (tableTrap dev :: _))).traps = _
  by_cases fails : register (tableTrap dev) < 0
  · rw [if_pos (Or.inl fails), if_pos fails]
    exact if_pos fails
  · rw [if_neg fails]
    by_cases together : dev.table.bar = dev.pba.bar
    · rw [if_neg (not_or.2 ⟨fails, not_not.2 together⟩), if_pos together,
        activatePba_traps, pbaTrap, if_pos together.symm]
      refine congrArg (List.cons _) ((if_pos together).trans ?_)
      refine congrArg (registered register) ?_
      rw [Trap.mk.injEq]
      exact ⟨rfl, congrArg UInt32.toUInt64 (if_pos together.symm), rfl⟩
    · rw [if_pos (Or.inr together), if_neg together]
      exact if_neg fails

/-- Another BAR registers the PBA if it is there. -/
theorem vfioPciBarActivate_other {barNum : Nat}
    (other : barNum ≠ dev.table.bar) :
    (vfioPciBarActivate register mapRegion dev barNum).traps =
      if barNum = dev.pba.bar then
        registered register (pbaTrap dev)
      else
        [] := by
  have elsewhere : barNum ≠ (placeRegion dev barNum).table.bar := other
  rw [vfioPciBarActivate]
  dsimp only
  rw [if_neg elsewhere, activatePba_traps, placeRegion_address]
  change ite (barNum = dev.pba.bar) _ _ = _
  by_cases ofPba : barNum = dev.pba.bar
  · have apart : dev.pba.bar ≠ dev.table.bar := ofPba ▸ other
    rw [if_pos ofPba, if_pos ofPba, pbaTrap, if_neg apart, ofPba]
    refine congrArg (registered register) ?_
    rw [Trap.mk.injEq]
    exact ⟨rfl, congrArg UInt32.toUInt64 (if_neg apart), rfl⟩
  · rw [if_neg ofPba, if_neg ofPba]

theorem mem_registered {trap other : Trap}
    (member : trap ∈ registered register other) : trap = other := by
  rw [registered] at member
  split at member
  · cases member
  · exact List.mem_singleton.1 member

/-- What is registered is one of the two, with an implemented BAR. -/
theorem Registers.elim {trap : Trap}
    (registers : Registers dev register mapRegion trap) :
    trap = tableTrap dev ∧
        dev.table.bar < 6 ∧ dev.barSize dev.table.bar ≠ 0 ∨
      trap = pbaTrap dev ∧
        dev.pba.bar < 6 ∧ dev.barSize dev.pba.bar ≠ 0 := by
  obtain ⟨barNum, small, some, member⟩ := registers
  by_cases ofTable : barNum = dev.table.bar
  · subst ofTable
    rw [vfioPciBarActivate_table] at member
    split at member
    case isTrue => cases member
    case isFalse =>
      split at member
      case isTrue together =>
        rcases List.mem_cons.1 member with first | second
        · exact .inl ⟨first, small, some⟩
        · rw [together] at small some
          exact .inr ⟨mem_registered second, small, some⟩
      case isFalse =>
        exact .inl ⟨List.mem_singleton.1 member, small, some⟩
  · rw [vfioPciBarActivate_other ofTable] at member
    split at member
    case isTrue ofPba =>
      subst ofPba
      exact .inr ⟨mem_registered member, small, some⟩
    case isFalse => cases member

theorem Registers.table {trap : Trap}
    (registers : Registers dev register mapRegion trap)
    (kind : trap.kind = .table) :
    trap = tableTrap dev ∧
      dev.table.bar < 6 ∧ dev.barSize dev.table.bar ≠ 0 := by
  refine registers.elim.resolve_right ?_
  rintro ⟨rfl, -⟩
  cases kind

theorem Registers.pba {trap : Trap}
    (registers : Registers dev register mapRegion trap)
    (kind : trap.kind = .pba) :
    trap = pbaTrap dev ∧
      dev.pba.bar < 6 ∧ dev.barSize dev.pba.bar ≠ 0 := by
  refine registers.elim.resolve_left ?_
  rintro ⟨rfl, -⟩
  cases kind

/-- Both of them are registered when that does not fail. -/
theorem registers_both (succeeds : ∀ trap, 0 ≤ register trap)
    (table : dev.table.bar < 6 ∧ dev.barSize dev.table.bar ≠ 0)
    (pba : dev.pba.bar < 6 ∧ dev.barSize dev.pba.bar ≠ 0) :
    Registers dev register mapRegion (tableTrap dev) ∧
      Registers dev register mapRegion (pbaTrap dev) := by
  have all (trap : Trap) : registered register trap = [trap] :=
    if_neg (Int.not_lt.2 (succeeds trap))
  have first :
      (vfioPciBarActivate register mapRegion dev dev.table.bar).traps =
        if dev.table.bar = dev.pba.bar then
          [tableTrap dev, pbaTrap dev]
        else
          [tableTrap dev] := by
    rw [vfioPciBarActivate_table, if_neg (Int.not_lt.2 (succeeds _)), all]
  by_cases together : dev.table.bar = dev.pba.bar
  · rw [if_pos together] at first
    exact
      ⟨⟨_, table.1, table.2, first ▸ List.mem_cons_self⟩,
        ⟨_, table.1, table.2,
          first ▸ List.mem_cons_of_mem _ List.mem_cons_self⟩⟩
  · rw [if_neg together] at first
    refine
      ⟨⟨_, table.1, table.2, first ▸ List.mem_cons_self⟩,
        ⟨_, pba.1, pba.2, ?_⟩⟩
    rw [vfioPciBarActivate_other (Ne.symm together), if_pos rfl, all]
    exact List.mem_cons_self

end Traps

/-! ## Whatever the guest does -/

section Runs

/-- What neither moving BARs nor activating them changes. -/
structure Kept (start dev : MsixDevice) : Prop where
  cap : dev.cap = start.cap
  barSize : dev.barSize = start.barSize
  tableSize : dev.table.size = start.table.size
  tableBar : dev.table.bar = start.table.bar
  pbaSize : dev.pba.size = start.pba.size
  pbaBar : dev.pba.bar = start.pba.bar
  barOffset : dev.pba.barOffset = start.pba.barOffset
  kinds : ∀ barNum, barIsIo (dev.bar barNum) = barIsIo (start.bar barNum)

theorem Kept.rfl {dev : MsixDevice} : Kept dev dev :=
  ⟨.refl _, .refl _, .refl _, .refl _, .refl _, .refl _, .refl _,
    fun _ => .refl _⟩

theorem Kept.trans {first second third : MsixDevice}
    (left : Kept first second) (right : Kept second third) :
    Kept first third :=
  ⟨right.cap.trans left.cap, right.barSize.trans left.barSize,
    right.tableSize.trans left.tableSize, right.tableBar.trans left.tableBar,
    right.pbaSize.trans left.pbaSize, right.pbaBar.trans left.pbaBar,
    right.barOffset.trans left.barOffset,
    fun barNum => (right.kinds barNum).trans (left.kinds barNum)⟩

variable {start dev : MsixDevice}

theorem activatePba_kept (register : Trap → Int) (mapRegion : Int)
    (dev : MsixDevice) (barNum : Nat) :
    Kept dev (activatePba register mapRegion dev barNum).dev := by
  rw [activatePba]
  split
  · exact ⟨rfl, rfl, rfl, rfl, rfl, rfl, rfl, fun _ => rfl⟩
  · exact .rfl

theorem vfioPciBarActivate_kept (register : Trap → Int) (mapRegion : Int)
    (dev : MsixDevice) (barNum : Nat) :
    Kept dev (vfioPciBarActivate register mapRegion dev barNum).dev := by
  have placed : Kept dev (placeRegion dev barNum) :=
    ⟨rfl, rfl, rfl, rfl, rfl, rfl, rfl, fun _ => rfl⟩
  refine placed.trans ?_
  rw [vfioPciBarActivate]
  dsimp only
  split
  · split
    · exact ⟨rfl, rfl, rfl, rfl, rfl, rfl, rfl, fun _ => rfl⟩
    · refine Kept.trans ?_ (activatePba_kept register mapRegion _ barNum)
      exact ⟨rfl, rfl, rfl, rfl, rfl, rfl, rfl, fun _ => rfl⟩
  · exact activatePba_kept register mapRegion _ barNum

theorem Reached.kept (reached : Reached start dev) : Kept start dev := by
  induction reached with
  | start => exact .rfl
  | @move before barNum value kind _ induction =>
      refine induction.trans ⟨rfl, rfl, rfl, rfl, rfl, rfl, rfl, ?_⟩
      intro other
      by_cases same : other = barNum
      · subst same
        dsimp only
        rw [Function.update_self, kind]
      · dsimp only
        rw [Function.update_of_ne same]
  | activate register mapRegion barNum _ induction =>
      exact
        induction.trans
          (vfioPciBarActivate_kept register mapRegion _ barNum)

end Runs

/-! ## Where the regions are -/

section Layout

variable {setup : Setup} {start dev : MsixDevice}

theorem offset_parts (offset : UInt32) :
    (offset &&& pciMsixBir) &&& pciMsixBir = offset &&& pciMsixBir ∧
      (offset &&& pciMsixBir) &&& pciMsixPbaOffset = 0 := by
  refine ⟨?_, ?_⟩
  · rw [UInt32.and_assoc, UInt32.and_self]
  · rw [UInt32.and_assoc]
    exact UInt32.and_zero

/-- A BIR alone points to the start of its BAR. -/
theorem pointsTo_bir (dev : MsixDevice) (offset : UInt32) :
    pointsTo dev (offset &&& pciMsixBir) =
      barStart dev (offset &&& pciMsixBir).toNat := by
  rw [pointsTo, (offset_parts offset).1, (offset_parts offset).2]
  rfl

theorem SetUp.tablePointed (setUp : SetUp setup start)
    (kept : Kept start dev) :
    (dev.cap.tableOffset &&& pciMsixBir).toNat = dev.table.bar ∧
      pointsTo dev dev.cap.tableOffset = barStart dev dev.table.bar := by
  rw [kept.cap, setUp.tableOffset, pointsTo_bir, (offset_parts _).1,
    kept.tableBar, setUp.tableBar]
  exact ⟨rfl, rfl⟩

theorem SetUp.pbaPointed (setUp : SetUp setup start)
    (kept : Kept start dev) :
    (dev.cap.pbaOffset &&& pciMsixBir).toNat = dev.pba.bar ∧
      pointsTo dev dev.cap.pbaOffset =
        barStart dev dev.pba.bar + dev.pba.barOffset.toNat := by
  rw [kept.cap, setUp.pbaOffset, kept.barOffset, setUp.barOffset,
    kept.pbaBar]
  split
  · rw [pointsTo, setUp.pbaBar]
    exact ⟨rfl, rfl⟩
  · rw [pointsTo_bir, (offset_parts _).1, setUp.pbaBar]
    exact ⟨rfl, rfl⟩

/-- In memory, the region of a BAR is where the BAR is. -/
theorem regionAddr_memory {barNum : Nat}
    (memory : barIsIo (dev.bar barNum) = false) :
    (regionAddr dev barNum).toNat = barStart dev barNum := by
  rw [regionAddr, memory, barStart]
  rfl

theorem tableTrap_memory
    (memory : barIsIo (dev.bar dev.table.bar) = false) :
    (tableTrap dev).physAddr.toNat = barStart dev dev.table.bar := by
  rw [tableTrap, UInt32.toNat_toUInt64, regionAddr_memory memory]

/-- The PBA is where its offset says, if there is room for it. -/
theorem pbaTrap_memory (memory : barIsIo (dev.bar dev.pba.bar) = false)
    (room : barStart dev dev.pba.bar + dev.pba.barOffset.toNat < 2 ^ 32)
    (alone : dev.pba.bar ≠ dev.table.bar → dev.pba.barOffset = 0) :
    (pbaTrap dev).physAddr.toNat =
      barStart dev dev.pba.bar + dev.pba.barOffset.toNat := by
  rw [pbaTrap, UInt32.toNat_toUInt64]
  split
  case isTrue together =>
    rw [together] at memory room ⊢
    rw [UInt32.toNat_add, regionAddr_memory memory, Nat.mod_eq_of_lt room]
  case isFalse apart =>
    rw [regionAddr_memory memory, alone apart]
    rfl

/-- The two BARs are configured, and in memory. -/
structure Ready (setup : Setup) (dev : MsixDevice) : Prop where
  size :
    ∀ barNum, barNum = dev.table.bar ∨ barNum = dev.pba.bar →
      barNum < 6 ∧ dev.barSize barNum ≠ 0 ∧
        (dev.barSize barNum).toNat = regionSize setup barNum ∧
          barIsIo (dev.bar barNum) = false

section Reached

variable (setUp : SetUp setup start) (fitting : Fitting setup)
  (kept : Kept start dev)

include setUp fitting kept

theorem SetUp.ready : Ready setup dev := by
  constructor
  intro barNum either
  rw [kept.tableBar, kept.pbaBar] at either
  obtain ⟨member, memory⟩ : MemoryBar setup barNum := by
    rcases either with rfl | rfl
    · rw [setUp.tableBar]
      exact fitting.tableBar
    · rw [setUp.pbaBar]
      exact fitting.pbaBar
  have set := setUp.bars barNum member either
  rw [kept.barSize, kept.kinds]
  exact
    ⟨List.mem_range.1 (configured_subset member), set.some, set.size,
      set.kind.trans memory⟩

/-- Both regions are inside their BARs. -/
structure Inside (dev : MsixDevice) : Prop where
  table :
    barStart dev dev.table.bar + dev.table.size.toNat ≤
      barEnd dev dev.table.bar
  pba :
    barStart dev dev.pba.bar + dev.pba.barOffset.toNat + dev.pba.size.toNat ≤
      barEnd dev dev.pba.bar
  pbaSome : 0 < dev.pba.size.toNat
  apart :
    dev.table.bar = dev.pba.bar →
      dev.table.size.toNat ≤ dev.pba.barOffset.toNat
  alone : dev.table.bar ≠ dev.pba.bar → dev.pba.barOffset = 0

theorem SetUp.inside : Inside dev := by
  have ready := setUp.ready fitting kept
  have tableSize := (ready.size _ (.inl rfl)).2.2.1
  have pbaSize := (ready.size _ (.inr rfl)).2.2.1
  have some : 1 ≤ nrVectors setup := Nat.succ_le_succ (Nat.zero_le _)
  have eight : dev.pba.size.toNat = 8 := by
    have few := fitting.few
    rw [kept.pbaSize, setUp.pbaSize]
    omega
  have sixteen : dev.table.size.toNat = nrVectors setup * 16 := by
    rw [kept.tableSize, setUp.tableSize]
  by_cases together : dev.table.bar = dev.pba.bar
  · have startTogether : start.table.bar = start.pba.bar := by
      rw [← kept.tableBar, ← kept.pbaBar]
      exact together
    obtain ⟨before, within⟩ := setUp.shared startTogether
    have offset :
        dev.pba.barOffset = setup.cap.pbaOffset &&& pciMsixPbaOffset := by
      rw [kept.barOffset, setUp.barOffset, if_pos startTogether]
    rw [← offset, ← kept.pbaSize, ← kept.tableBar] at within
    rw [← offset, ← kept.tableSize] at before
    rw [← together] at pbaSize
    refine
      ⟨?_, ?_, by omega, fun _ => before,
        fun apart => absurd together apart⟩
    · rw [barEnd, tableSize]
      omega
    · rw [barEnd, ← together, tableSize]
      omega
  · have startApart : start.table.bar ≠ start.pba.bar := by
      rw [← kept.tableBar, ← kept.pbaBar]
      exact together
    have offset : dev.pba.barOffset = 0 := by
      rw [kept.barOffset, setUp.barOffset, if_neg startApart]
    have different :
        setup.cap.tableOffset &&& pciMsixBir ≠
          setup.cap.pbaOffset &&& pciMsixBir := by
      intro same
      apply startApart
      rw [setUp.tableBar, setUp.pbaBar, same]
    obtain ⟨tableLarge, pbaLarge⟩ := fitting.large different
    rw [← setUp.tableBar, ← kept.tableBar] at tableLarge
    rw [← setUp.pbaBar, ← kept.pbaBar] at pbaLarge
    refine
      ⟨?_, ?_, by omega, fun same => absurd same together, fun _ => offset⟩
    · rw [barEnd, tableSize]
      omega
    · rw [barEnd, pbaSize, offset, eight]
      exact Nat.add_le_add_left pbaLarge _

/-- Where the trap of the table begins. -/
theorem SetUp.tableTrap_starts :
    (tableTrap dev).physAddr.toNat = barStart dev dev.table.bar := by
  obtain ⟨-, -, -, tableMemory⟩ :=
    (setUp.ready fitting kept).size _ (.inl rfl)
  exact tableTrap_memory tableMemory

/-- Where the trap of the PBA begins. -/
theorem SetUp.pbaTrap_starts (placement : Placement dev) :
    (pbaTrap dev).physAddr.toNat =
      barStart dev dev.pba.bar + dev.pba.barOffset.toNat := by
  have inside := setUp.inside fitting kept
  obtain ⟨-, -, -, pbaMemory⟩ := (setUp.ready fitting kept).size _ (.inr rfl)
  have fits := placement.fits _ (.inr rfl)
  have ends := inside.pba
  have some := inside.pbaSome
  exact
    pbaTrap_memory pbaMemory (by omega) fun apart =>
      inside.alone (Ne.symm apart)

theorem SetUp.tableTrap_right :
    RightTrap dev dev.cap.tableOffset (tableTrap dev) := by
  obtain ⟨tableBar, tablePoint⟩ := setUp.tablePointed kept
  have tableAt := setUp.tableTrap_starts fitting kept
  constructor
  · rw [tablePoint, tableAt]
  · rw [tableBar, tableAt]
  · rw [tableBar, tableAt]
    exact (setUp.inside fitting kept).table

theorem SetUp.pbaTrap_right (placement : Placement dev) :
    RightTrap dev dev.cap.pbaOffset (pbaTrap dev) := by
  obtain ⟨pbaBar, pbaPoint⟩ := setUp.pbaPointed kept
  have pbaAt := setUp.pbaTrap_starts fitting kept placement
  constructor
  · rw [pbaPoint, pbaAt]
  · rw [pbaBar, pbaAt]
    exact Nat.le_add_right _ _
  · rw [pbaBar, pbaAt]
    exact (setUp.inside fitting kept).pba

/-- All is right where the BARs fit. -/
theorem SetUp.rightTraps (placement : Placement dev) : RightTraps dev := by
  have ready := setUp.ready fitting kept
  have inside := setUp.inside fitting kept
  obtain ⟨tableSmall, tableSome, -, tableMemory⟩ :=
    ready.size _ (.inl rfl)
  obtain ⟨pbaSmall, pbaSome, -, pbaMemory⟩ := ready.size _ (.inr rfl)
  have tableIn := inside.table
  have pbaIn := inside.pba
  constructor
  · intro register mapRegion trap registers kind
    obtain ⟨rfl, -⟩ := registers.table kind
    exact setUp.tableTrap_right fitting kept
  · intro register mapRegion trap registers kind
    obtain ⟨rfl, -⟩ := registers.pba kind
    exact setUp.pbaTrap_right fitting kept placement
  · intro register mapRegion first second left leftKind right rightKind
    obtain ⟨rfl, -⟩ := left.table leftKind
    obtain ⟨rfl, -⟩ := right.pba rightKind
    rw [setUp.tableTrap_starts fitting kept,
      setUp.pbaTrap_starts fitting kept placement]
    change
      barStart dev dev.table.bar + dev.table.size.toNat ≤ _ ∨
        _ + dev.pba.size.toNat ≤ _
    by_cases together : dev.table.bar = dev.pba.bar
    · have before := inside.apart together
      rw [together]
      exact .inl (Nat.add_le_add_left before _)
    · rcases placement.apart together ⟨tableSome, tableMemory⟩
        ⟨pbaSome, pbaMemory⟩ with before | after
      · exact .inl (by omega)
      · exact .inr (Nat.le_trans pbaIn after)
  · intro register mapRegion succeeds kind
    obtain ⟨table, pba⟩ :
        Registers dev register mapRegion (tableTrap dev) ∧
          Registers dev register mapRegion (pbaTrap dev) :=
      registers_both succeeds ⟨tableSmall, tableSome⟩ ⟨pbaSmall, pbaSome⟩
    cases kind with
    | table => exact ⟨_, table, rfl⟩
    | pba => exact ⟨_, pba, rfl⟩

/-! ## Where they are at first -/

end Reached

/-- The BARs are placed by the setup itself. -/
theorem SetUp.placement (setUp : SetUp setup dev) : Placement dev := by
  have set (barNum : Nat) (some : dev.barSize barNum ≠ 0)
      (either : barNum = dev.table.bar ∨ barNum = dev.pba.bar) :
      SetBar setup dev barNum := by
    by_cases member : barNum ∈ configured setup (List.range 6) false
    · exact setUp.bars barNum member either
    · exact absurd (setUp.others barNum member) some
  constructor
  · intro barNum either
    have taken := setUp.toBlocks.taken either
    rw [barEnd]
    by_cases none : dev.barSize barNum = 0
    · rw [none]
      exact Nat.le_of_lt (UInt32.toNat_lt _)
    · have bar := set barNum none either
      rw [bar.size]
      have room := taken.room
      cases io : barIsIo (setup.hdrBar barNum) with
      | true =>
          rw [(bar.io io).1]
          omega
      | false =>
          rw [bar.memory io]
          exact room
  · rintro apart ⟨tableSome, tableMemory⟩ ⟨pbaSome, pbaMemory⟩
    have table := set _ tableSome (.inl rfl)
    have pba := set _ pbaSome (.inr rfl)
    rw [table.kind] at tableMemory
    rw [pba.kind] at pbaMemory
    rw [barEnd, table.memory tableMemory, pba.memory pbaMemory, table.size,
      blockOf, if_pos rfl, blockOf, if_neg (Ne.symm apart)]
    exact .inl (setUp.toBlocks.pba apart).2

/-- A BAR of which the region is where it points to is in memory. -/
theorem SetBar.in_memory {barNum : Nat} (set : SetBar setup dev barNum)
    (taken : Taken setup barNum (blockOf dev barNum))
    (pointed : (regionAddr dev barNum).toNat = barStart dev barNum) :
    barIsIo (setup.hdrBar barNum) = false := by
  cases io : barIsIo (setup.hdrBar barNum) with
  | false => rfl
  | true =>
      obtain ⟨zero, block⟩ := set.io io
      rw [regionAddr, set.kind, io, if_pos rfl, block, zero,
        UInt32.toUInt32_toUInt64] at pointed
      exact absurd (UInt32.toNat_inj.1 pointed) taken.some

theorem SetUp.memoryBar (setUp : SetUp setup dev) {barNum : Nat}
    (either : barNum = dev.table.bar ∨ barNum = dev.pba.bar)
    (some : dev.barSize barNum ≠ 0)
    (pointed : (regionAddr dev barNum).toNat = barStart dev barNum) :
    MemoryBar setup barNum := by
  by_cases member : barNum ∈ configured setup (List.range 6) false
  · exact
      ⟨member,
        (setUp.bars barNum member either).in_memory
          (setUp.toBlocks.taken either) pointed⟩
  · exact absurd (setUp.others barNum member) some

theorem SetUp.fitting_of_right (setUp : SetUp setup dev)
    (right : RightLayout dev) : Fitting setup := by
  have few : nrVectors setup ≤ 64 := by
    have pending := right.pending
    rw [setUp.nrEntries, setUp.pbaSize] at pending
    exact (pending_iff setup).1 pending
  have traps := right.traps dev .start setUp.placement
  obtain ⟨tableBar, tablePoint⟩ := setUp.tablePointed .rfl
  obtain ⟨pbaBar, pbaPoint⟩ := setUp.pbaPointed .rfl
  obtain ⟨first, firstRegisters, firstKind⟩ :=
    traps.both (fun _ => 0) 0 (fun _ => Int.le_refl 0) .table
  obtain ⟨second, secondRegisters, secondKind⟩ :=
    traps.both (fun _ => 0) 0 (fun _ => Int.le_refl 0) .pba
  have tableRight := traps.table _ _ _ firstRegisters firstKind
  have pbaRight := traps.pba _ _ _ secondRegisters secondKind
  obtain ⟨rfl, -, tableSome⟩ := firstRegisters.table firstKind
  obtain ⟨rfl, -, pbaSome⟩ := secondRegisters.pba secondKind
  have tableAt :
      (regionAddr dev dev.table.bar).toNat = barStart dev dev.table.bar := by
    have pointed := tableRight.pointed
    rwa [tablePoint, tableTrap, UInt32.toNat_toUInt64] at pointed
  have tableMemory := setUp.memoryBar (.inl rfl) tableSome tableAt
  have tableEnds := tableRight.ends
  rw [tableBar, tableRight.pointed, tablePoint] at tableEnds
  by_cases together : dev.table.bar = dev.pba.bar
  · refine ⟨few, setUp.tableBar ▸ tableMemory, ?_, fun apart => ?_⟩
    · rw [← setUp.pbaBar, ← together]
      exact tableMemory
    · refine absurd (UInt32.toNat_inj.1 ?_) apart
      rw [← setUp.tableBar, ← setUp.pbaBar, together]
  · have offset : dev.pba.barOffset = 0 := by
      rw [setUp.barOffset, if_neg together]
    have pbaStarts :
        pointsTo dev dev.cap.pbaOffset = barStart dev dev.pba.bar := by
      rw [pbaPoint, offset]
      rfl
    have pbaAt :
        (regionAddr dev dev.pba.bar).toNat = barStart dev dev.pba.bar := by
      have pointed := pbaRight.pointed
      rwa [pbaStarts, pbaTrap, UInt32.toNat_toUInt64,
        if_neg (Ne.symm together)] at pointed
    have pbaMemory := setUp.memoryBar (.inr rfl) pbaSome pbaAt
    have pbaEnds := pbaRight.ends
    rw [pbaBar, pbaRight.pointed, pbaStarts] at pbaEnds
    refine
      ⟨few, setUp.tableBar ▸ tableMemory, setUp.pbaBar ▸ pbaMemory,
        fun _ => ⟨?_, ?_⟩⟩
    · have fits : dev.table.size.toNat ≤ (dev.barSize dev.table.bar).toNat :=
        Nat.le_of_add_le_add_left tableEnds
      rwa [setUp.tableSize, (setUp.bars _ tableMemory.1 (.inl rfl)).size,
        setUp.tableBar] at fits
    · have fits : dev.pba.size.toNat ≤ (dev.barSize dev.pba.bar).toNat :=
        Nat.le_of_add_le_add_left pbaEnds
      have some : 1 ≤ nrVectors setup := Nat.succ_le_succ (Nat.zero_le _)
      rw [setUp.pbaSize, (setUp.bars _ pbaMemory.1 (.inr rfl)).size,
        setUp.pbaBar] at fits
      omega

end Layout

/-! ## Every capability -/

/-- The layout is right for exactly the capabilities that fit. -/
theorem vfioPciConfigureDevRegions_right_iff (setup : Setup)
    (dev : MsixDevice) (done : vfioPciConfigureDevRegions setup = .ok dev) :
    RightLayout dev ↔ Fitting setup := by
  have setUp := vfioPciConfigureDevRegions_setUp done
  constructor
  · exact setUp.fitting_of_right
  · intro fitting
    refine ⟨?_, ?_, ?_⟩
    · intro vector within
      rw [setUp.nrEntries] at within
      rw [setUp.tableSize]
      exact Nat.mul_le_mul_right _ within
    · rw [setUp.nrEntries, setUp.pbaSize]
      exact (pending_iff setup).2 fitting.few
    · intro after reached placement
      exact setUp.rightTraps fitting reached.kept placement

/-- So many vectors in a BAR of 4 KiB, with the PBA in its upper half. -/
def vectorsInPage (ctrl : UInt16) : Setup where
  cap := ⟨ctrl, 0, 0x800⟩
  hdrBar _ := 0
  numRegions := 9
  hasConfig := Nat.le_of_ble_eq_true rfl
  regionInfo _ := .ok ⟨0x1000, 0⟩
  allocates := true
  pwriteOk := true
  mmioBlocks := 0xd2000000
  ioPortBlocks := 0x6200
  maxPageShift := 12
  pages := ⟨Nat.le_refl 12, Nat.le_of_ble_eq_true rfl⟩
  pageSize := 0x1000

theorem exists_of_isOk {α : Type} {result : Except SetupError α}
    (succeeds : result.isOk = true) : ∃ value, result = .ok value := by
  cases result with
  | error => cases succeeds
  | ok value => exact ⟨value, rfl⟩

/-- Fifteen vectors fit a BAR of one page. -/
theorem few_vectors_right :
    ∃ dev,
      vfioPciConfigureDevRegions (vectorsInPage 15) = .ok dev ∧
        (RightLayout dev ↔ Fitting (vectorsInPage 15)) ∧
          Fitting (vectorsInPage 15) := by
  obtain ⟨dev, done⟩ :=
    exists_of_isOk
      (by decide :
        (vfioPciConfigureDevRegions (vectorsInPage 15)).isOk = true)
  have memory : MemoryBar (vectorsInPage 15) 0 := ⟨by decide, by decide⟩
  exact
    ⟨dev, done, vfioPciConfigureDevRegions_right_iff _ dev done,
      by decide, memory, memory, fun apart => absurd rfl apart⟩

/-- The bit of the last of 65 vectors is not in the eight bytes of the PBA. -/
theorem many_vectors_leave_pba :
    ∃ dev,
      vfioPciConfigureDevRegions (vectorsInPage 64) = .ok dev ∧
        dev.nrEntries.toNat = 65 ∧
          dev.pba.size.toNat = 8 ∧ ¬RightLayout dev := by
  obtain ⟨dev, done⟩ :=
    exists_of_isOk
      (by decide :
        (vfioPciConfigureDevRegions (vectorsInPage 64)).isOk = true)
  have setUp := vfioPciConfigureDevRegions_setUp done
  have entries : dev.nrEntries.toNat = 65 := setUp.nrEntries
  have size : dev.pba.size.toNat = 8 := setUp.pbaSize
  refine ⟨dev, done, entries, size, fun right => ?_⟩
  have last := right.pending 64 (by omega)
  omega

end Kemu.Vfio.MsixLayout
