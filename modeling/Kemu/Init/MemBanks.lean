import Kemu.Lib.ClosedInterval
import Mathlib.Algebra.Group.Nat.Defs
import Mathlib.Data.List.Basic

/-!
# Guest memory banks

`kvm_register_mem` walks over the list of banks once: it looks for banks in
the way, grows and removes reserved banks that the new range overlaps, and
looks for a free slot and the place of a new bank.  `kvm_destroy_mem` takes
a bank out.

A bank reaches from its address to `guest_phys_addr + size - 1`, computed
modulo `2^64`; a bank of the whole address space has the size zero.
-/

namespace Kemu.Init.MemBanks

open Kemu.Lib.ClosedInterval

/-! ## Banks -/

/-- `KVM_MEM_TYPE_RESERVED`. -/
def kvmMemTypeReserved : UInt32 := 4

/-- `KVM_MEM_TYPE_READONLY`. -/
def kvmMemTypeReadonly : UInt32 := 8

/-- `struct kvm_mem_bank`. -/
structure KvmMemBank where
  guestPhysAddr : UInt64
  hostAddr : UInt64
  size : UInt64
  type : UInt32
  slot : UInt32
deriving DecidableEq, Repr

/-- The addresses from a start on, up to the end the code computes. -/
def spanOf (start size : UInt64) : IntervalOf Nat where
  first := start.toNat
  last := (start + size - 1).toNat

/-- The addresses of a bank. -/
def KvmMemBank.span (bank : KvmMemBank) : IntervalOf Nat :=
  spanOf bank.guestPhysAddr bank.size

/-- The fields of `struct kvm` that banks are kept in. -/
structure KvmMem where
  memBanks : List KvmMemBank
  memSlots : UInt32
deriving DecidableEq, Repr

/-- A positive `errno`. -/
abbrev Errno := { number : Int // 0 < number }

/-- `struct kvm_userspace_memory_region`. -/
structure KvmUserspaceMemoryRegion where
  slot : UInt32
  flags : UInt32
  guestPhysAddr : UInt64
  memorySize : UInt64
  userspaceAddr : UInt64
deriving DecidableEq, Repr

/-- `KVM_SET_USER_MEMORY_REGION`, which fails with an `errno`. -/
abbrev SetRegion := KvmUserspaceMemoryRegion → Option Errno

/-- The arguments of `kvm_register_mem`. -/
structure RegisterRequest where
  guestPhys : UInt64
  size : UInt64
  userspaceAddr : UInt64
  type : UInt32
deriving DecidableEq, Repr

/-- The addresses that are asked for. -/
def RegisterRequest.span (request : RegisterRequest) : IntervalOf Nat :=
  spanOf request.guestPhys request.size

/-- A range that is not empty and does not wrap. -/
def RegisterRequest.WellFormed (request : RegisterRequest) : Prop :=
  0 < request.size ∧
    request.guestPhys.toNat + request.size.toNat ≤ 2 ^ 64

/-! ## Registration -/

/--
The variables of the loop of `kvm_register_mem`.  The banks visited so far
are those before the bank merged last, that bank, and those after it; as
long as none is merged they are all in `after`.  `prevEntry` counts the banks
up to the entry a new one would follow.
-/
structure Scan where
  before : List KvmMemBank
  merged : Option KvmMemBank
  after : List KvmMemBank
  guestPhys : UInt64
  size : UInt64
  slot : UInt32
  prevEntry : Nat

/-- The list up to the current bank. -/
def Scan.visited (scan : Scan) : List KvmMemBank :=
  scan.before ++ scan.merged.toList ++ scan.after

/-- The range that is being registered, as far as it has grown. -/
def Scan.span (scan : Scan) : IntervalOf Nat :=
  spanOf scan.guestPhys scan.size

/-- The loop variables at the start. -/
def RegisterRequest.scan (request : RegisterRequest) : Scan where
  before := []
  merged := none
  after := []
  guestPhys := request.guestPhys
  size := request.size
  slot := 0
  prevEntry := 0

/-- The slot of a bank in its place is not free, and the next one may be. -/
def Scan.noteSlot (scan : Scan) (bank : KvmMemBank) : Scan :=
  if bank.slot = scan.slot then
    { scan with
      slot := scan.slot + 1
      prevEntry := scan.visited.length + 1 }
  else
    scan

/-- A bank that the range does not overlap. -/
def Scan.pass (scan : Scan) (bank : KvmMemBank) : Scan :=
  { scan.noteSlot bank with after := scan.after ++ [bank] }

/-- A reserved bank that has taken in the range. -/
def Scan.grow (scan : Scan) (bank : KvmMemBank) : KvmMemBank :=
  let bankEnd := bank.guestPhysAddr + bank.size - 1
  let «end» := scan.guestPhys + scan.size - 1
  let start := min bank.guestPhysAddr scan.guestPhys
  { bank with
    guestPhysAddr := start
    size := max bankEnd «end» - start + 1 }

/-- A reserved bank is grown; the one merged before is removed. -/
def Scan.merge (scan : Scan) (bank : KvmMemBank) : Scan :=
  { scan with
    before := scan.before ++ scan.after
    merged := some (scan.grow bank)
    after := []
    guestPhys := (scan.grow bank).guestPhysAddr
    size := (scan.grow bank).size }

/-- The loop; an overlap that is an error ends it with the list as it is. -/
def scanBanks (type : UInt32) :
    Scan → List KvmMemBank → Except (List KvmMemBank) Scan
  | scan, [] => .ok scan
  | scan, bank :: rest =>
      let bankEnd := bank.guestPhysAddr + bank.size - 1
      let «end» := scan.guestPhys + scan.size - 1
      if scan.guestPhys > bankEnd ∨ «end» < bank.guestPhysAddr then
        scanBanks type (scan.pass bank) rest
      else if bank.type = kvmMemTypeReserved ∧
          type = kvmMemTypeReserved then
        scanBanks type (scan.merge bank) rest
      else
        .error (scan.visited ++ bank :: rest)

/-- `EINVAL`. -/
def eInval : Int := 22

/-- `ENOMEM`. -/
def eNoMem : Int := 12

/-- `kvm_register_mem`, with the outcomes of `malloc` and of the `ioctl`. -/
def kvmRegisterMem (kvm : KvmMem) (request : RegisterRequest)
    (malloc : Bool) (ioctl : SetRegion) : Int × KvmMem :=
  match scanBanks request.type request.scan kvm.memBanks with
  | .error memBanks => (-eInval, { kvm with memBanks := memBanks })
  | .ok scan =>
      if scan.merged.isSome then
        (0, { kvm with memBanks := scan.visited })
      else if !malloc then
        (-eNoMem, { kvm with memBanks := scan.visited })
      else
        let bank : KvmMemBank :=
          { guestPhysAddr := scan.guestPhys
            hostAddr := request.userspaceAddr
            size := scan.size
            type := request.type
            slot := scan.slot }
        let added : KvmMem :=
          { memBanks :=
              scan.visited.take scan.prevEntry ++
                bank :: scan.visited.drop scan.prevEntry
            memSlots := kvm.memSlots + 1 }
        if request.type ≠ kvmMemTypeReserved then
          let region : KvmUserspaceMemoryRegion :=
            { slot := scan.slot
              flags :=
                if request.type &&& kvmMemTypeReadonly ≠ 0 then 2 else 0
              guestPhysAddr := scan.guestPhys
              memorySize := scan.size
              userspaceAddr := request.userspaceAddr }
          match ioctl region with
          | some errno => (-errno, { kvm with memBanks := scan.visited })
          | none => (0, added)
        else
          (0, added)

/-- The bank that `kvm_destroy_mem` looks for. -/
def isBank (guestPhys size userspaceAddr : UInt64)
    (bank : KvmMemBank) : Bool :=
  bank.guestPhysAddr = guestPhys && bank.size = size &&
    bank.hostAddr = userspaceAddr

/-- `kvm_destroy_mem`. -/
def kvmDestroyMem (kvm : KvmMem) (guestPhys size userspaceAddr : UInt64)
    (ioctl : SetRegion) : Int × KvmMem :=
  match kvm.memBanks.find? (isBank guestPhys size userspaceAddr) with
  | none => (-eInval, kvm)
  | some bank =>
      if bank.type = kvmMemTypeReserved then
        (-eInval, kvm)
      else
        let region : KvmUserspaceMemoryRegion :=
          { slot := bank.slot
            flags := 0
            guestPhysAddr := guestPhys
            memorySize := 0
            userspaceAddr := userspaceAddr }
        match ioctl region with
        | some errno => (-errno, kvm)
        | none =>
            (0,
              { memBanks :=
                  kvm.memBanks.eraseP (isBank guestPhys size userspaceAddr)
                memSlots := kvm.memSlots - 1 })

/-! ## Ranges as intervals -/

theorem toNat_min (left right : UInt64) :
    (min left right).toNat = min left.toNat right.toNat := by
  change (if left ≤ right then left else right).toNat = _
  simp only [UInt64.le_iff_toNat_le]
  split <;> omega

theorem toNat_max (left right : UInt64) :
    (max left right).toNat = max left.toNat right.toNat := by
  change (if left ≤ right then right else left).toNat = _
  simp only [UInt64.le_iff_toNat_le]
  split <;> omega

/-- The size of a range gives its end back, also modulo `2^64`. -/
theorem spanOf_between (start last : UInt64) :
    spanOf start (last - start + 1) = ⟨start.toNat, last.toNat⟩ := by
  have back : start + (last - start + 1) - 1 = last := by grind
  rw [spanOf, back]

/-- The test of the loop. -/
theorem apart_iff (bank : KvmMemBank) (scan : Scan) :
    (scan.guestPhys > bank.guestPhysAddr + bank.size - 1 ∨
        scan.guestPhys + scan.size - 1 < bank.guestPhysAddr) ↔
      ¬ bank.span.Meets scan.span := by
  simp only [gt_iff_lt, UInt64.lt_iff_toNat_lt, IntervalOf.Meets,
    KvmMemBank.span, Scan.span, spanOf]
  omega

theorem grow_span (scan : Scan) (bank : KvmMemBank) :
    (scan.grow bank).span = bank.span.hull scan.span := by
  simp only [Scan.grow, KvmMemBank.span, spanOf_between, toNat_min,
    toNat_max]
  rfl

theorem merge_span (scan : Scan) (bank : KvmMemBank) :
    (scan.merge bank).span = bank.span.hull scan.span :=
  grow_span scan bank

/-- A range that does not wrap has its first address. -/
theorem spanOf_nonempty {start size : UInt64} (positive : 0 < size)
    (fits : start.toNat + size.toNat ≤ 2 ^ 64) :
    (spanOf start size).Nonempty := by
  have one : (1 : UInt64).toNat = 1 := rfl
  rw [UInt64.lt_iff_toNat_lt, UInt64.toNat_zero] at positive
  rw [IntervalOf.Nonempty, spanOf, UInt64.toNat_sub, UInt64.toNat_add, one]
  dsimp only
  omega

/-! ## One bank of the loop -/

section Scan

variable {type : UInt32} {scan : Scan} {bank : KvmMemBank}
  {rest : List KvmMemBank}

theorem scanBanks_pass (apart : ¬ bank.span.Meets scan.span) :
    scanBanks type scan (bank :: rest) =
      scanBanks type (scan.pass bank) rest := by
  rw [scanBanks, if_pos ((apart_iff bank scan).2 apart)]

theorem scanBanks_merge (meets : bank.span.Meets scan.span)
    (reserved :
      bank.type = kvmMemTypeReserved ∧ type = kvmMemTypeReserved) :
    scanBanks type scan (bank :: rest) =
      scanBanks type (scan.merge bank) rest := by
  rw [scanBanks, if_neg (fun apart => (apart_iff bank scan).1 apart meets),
    if_pos reserved]

theorem scanBanks_block (meets : bank.span.Meets scan.span)
    (conflict :
      ¬ (bank.type = kvmMemTypeReserved ∧ type = kvmMemTypeReserved)) :
    scanBanks type scan (bank :: rest) =
      .error (scan.visited ++ bank :: rest) := by
  rw [scanBanks, if_neg (fun apart => (apart_iff bank scan).1 apart meets),
    if_neg conflict]

@[simp]
theorem noteSlot_span : (scan.noteSlot bank).span = scan.span := by
  unfold Scan.noteSlot
  split <;> rfl

@[simp]
theorem noteSlot_merged : (scan.noteSlot bank).merged = scan.merged := by
  unfold Scan.noteSlot
  split <;> rfl

@[simp]
theorem noteSlot_before : (scan.noteSlot bank).before = scan.before := by
  unfold Scan.noteSlot
  split <;> rfl

@[simp]
theorem pass_span : (scan.pass bank).span = scan.span :=
  noteSlot_span

@[simp]
theorem pass_merged : (scan.pass bank).merged = scan.merged :=
  noteSlot_merged

@[simp]
theorem pass_before : (scan.pass bank).before = scan.before :=
  noteSlot_before

@[simp]
theorem pass_after : (scan.pass bank).after = scan.after ++ [bank] :=
  rfl

@[simp]
theorem pass_guestPhys : (scan.pass bank).guestPhys = scan.guestPhys := by
  unfold Scan.pass Scan.noteSlot
  split <;> rfl

@[simp]
theorem pass_size : (scan.pass bank).size = scan.size := by
  unfold Scan.pass Scan.noteSlot
  split <;> rfl

theorem visited_pass :
    (scan.pass bank).visited = scan.visited ++ [bank] := by
  simp [Scan.visited]

end Scan

/-! ## When registration fails -/

/-- No bank is empty and no two overlap. -/
structure Separate (banks : List KvmMemBank) : Prop where
  nonempty : ∀ bank ∈ banks, bank.span.Nonempty
  apart :
    banks.Pairwise fun first second => ¬ first.span.Meets second.span

theorem separate_cons_iff {bank : KvmMemBank} {rest : List KvmMemBank} :
    Separate (bank :: rest) ↔
      bank.span.Nonempty ∧
        (∀ other ∈ rest, ¬ bank.span.Meets other.span) ∧
        Separate rest := by
  constructor
  · rintro ⟨nonempty, apart⟩
    rw [List.pairwise_cons] at apart
    rw [List.forall_mem_cons] at nonempty
    exact ⟨nonempty.1, apart.1, nonempty.2, apart.2⟩
  · rintro ⟨nonempty, apart, others⟩
    exact
      ⟨List.forall_mem_cons.2 ⟨nonempty, others.nonempty⟩,
        List.pairwise_cons.2 ⟨apart, others.apart⟩⟩

/-- The range overlaps a bank and cannot be merged with it. -/
def Blocks (type : UInt32) (span : IntervalOf Nat) (bank : KvmMemBank) :
    Prop :=
  bank.span.Meets span ∧
    ¬ (bank.type = kvmMemTypeReserved ∧ type = kvmMemTypeReserved)

/-- After a merge the same banks are in the way. -/
theorem blocks_merge_iff {type : UInt32} {scan : Scan}
    {bank other : KvmMemBank} (nonempty : other.span.Nonempty)
    (apart : ¬ bank.span.Meets other.span)
    (meets : bank.span.Meets scan.span) :
    Blocks type (scan.merge bank).span other ↔
      Blocks type scan.span other := by
  rw [Blocks, Blocks, merge_span,
    IntervalOf.meets_hull_iff nonempty (fun other => apart other.symm) meets]

/-- The loop fails if and only if some bank is in the way. -/
theorem scanBanks_error_iff {type : UInt32} {scan : Scan}
    {rest : List KvmMemBank} (separate : Separate rest) :
    (∃ banks, scanBanks type scan rest = .error banks) ↔
      ∃ bank ∈ rest, Blocks type scan.span bank := by
  induction rest generalizing scan with
  | nil => simp [scanBanks]
  | cons bank rest induction =>
      obtain ⟨nonempty, apart, others⟩ := separate_cons_iff.1 separate
      rw [List.exists_mem_cons_iff]
      by_cases meets : bank.span.Meets scan.span
      · by_cases reserved :
            bank.type = kvmMemTypeReserved ∧ type = kvmMemTypeReserved
        · have passes : ¬ Blocks type scan.span bank :=
            fun blocks => blocks.2 reserved
          rw [scanBanks_merge meets reserved, induction others,
            or_iff_right passes]
          refine exists_congr fun other => and_congr_right fun member => ?_
          exact
            blocks_merge_iff (others.nonempty other member)
              (apart other member) meets
        · rw [scanBanks_block meets reserved]
          exact iff_of_true ⟨_, rfl⟩ (Or.inl ⟨meets, reserved⟩)
      · have passes : ¬ Blocks type scan.span bank :=
          fun blocks => meets blocks.1
        rw [scanBanks_pass meets, induction others, pass_span,
          or_iff_right passes]

/--
After a merge a failing loop has removed a bank, or grown one up to another
one.
-/
theorem scanBanks_merged_error {type : UInt32} {scan : Scan}
    {merged : KvmMemBank} {rest banks : List KvmMemBank}
    (last : scan.merged = some merged) (grown : merged.span = scan.span)
    (failure : scanBanks type scan rest = .error banks) :
    banks.length < scan.visited.length + rest.length ∨
      banks = scan.visited ++ rest ∧
        ∃ bank ∈ rest, bank.span.Meets merged.span := by
  induction rest generalizing scan merged with
  | nil => cases failure
  | cons bank rest induction =>
      by_cases meets : bank.span.Meets scan.span
      · by_cases reserved :
            bank.type = kvmMemTypeReserved ∧ type = kvmMemTypeReserved
        · rw [scanBanks_merge meets reserved] at failure
          have removed :
              (scan.merge bank).visited.length + rest.length <
                scan.visited.length + (bank :: rest).length := by
            simp only [Scan.visited, Scan.merge, last, List.length_append,
              Option.toList_some, List.length_cons, List.length_nil]
            omega
          left
          rcases induction rfl rfl failure with shorter | ⟨same, -⟩
          · exact shorter.trans removed
          · rw [same, List.length_append]
            exact removed
        · rw [scanBanks_block meets reserved] at failure
          cases failure
          refine Or.inr ⟨rfl, bank, List.mem_cons_self, ?_⟩
          rw [grown]
          exact meets
      · rw [scanBanks_pass meets] at failure
        have ends :=
          induction (pass_merged.trans last) (grown.trans pass_span.symm)
            failure
        rw [visited_pass, List.append_assoc, List.length_append] at ends
        simp only [List.singleton_append, List.length_cons,
          List.length_nil] at ends ⊢
        rcases ends with shorter | ⟨same, other, member, reaches⟩
        · left
          omega
        · exact Or.inr
            ⟨same, other, List.mem_cons_of_mem _ member, reaches⟩

/-- So a loop that fails after its first merge has changed the list. -/
theorem scanBanks_merge_changes {type : UInt32} {scan : Scan}
    {bank : KvmMemBank} {rest banks : List KvmMemBank}
    (fresh : scan.merged = none) (separate : Separate (bank :: rest))
    (failure : scanBanks type (scan.merge bank) rest = .error banks) :
    banks ≠ scan.visited ++ bank :: rest := by
  rintro rfl
  have visited :
      (scan.merge bank).visited = scan.visited ++ [scan.grow bank] := by
    simp [Scan.visited, Scan.merge, fresh]
  rcases scanBanks_merged_error rfl rfl failure with
    shorter | ⟨same, other, member, reaches⟩
  · rw [visited] at shorter
    simp only [List.length_append, List.length_cons,
      List.length_nil] at shorter
    omega
  · obtain ⟨-, apart, -⟩ := separate_cons_iff.1 separate
    rw [visited, List.append_assoc] at same
    have kept : scan.grow bank = bank :=
      (List.cons.inj (List.append_cancel_left same)).1.symm
    rw [kept] at reaches
    exact apart other member reaches.symm

/--
No reserved bank is grown before a bank that is in the way is found: the
range is not reserved, or overlaps no other kind of bank, or the first bank
that it overlaps is of another kind.
-/
def MergesNothingFirst (banks : List KvmMemBank) (type : UInt32)
    (span : IntervalOf Nat) : Prop :=
  type ≠ kvmMemTypeReserved ∨
    (∀ bank ∈ banks, bank.span.Meets span →
      bank.type = kvmMemTypeReserved) ∨
    ∃ first ∈ banks.find? fun bank => bank.span.Meets span,
      first.type ≠ kvmMemTypeReserved

theorem scanBanks_unchanged_iff {type : UInt32} {scan : Scan}
    {rest : List KvmMemBank} (fresh : scan.merged = none)
    (separate : Separate rest) :
    (∀ banks, scanBanks type scan rest = .error banks →
        banks = scan.visited ++ rest) ↔
      MergesNothingFirst rest type scan.span := by
  induction rest generalizing scan with
  | nil =>
      refine iff_of_true ?_ (Or.inr (Or.inl nofun))
      intro banks failure
      cases failure
  | cons bank rest induction =>
      obtain ⟨nonempty, apart, others⟩ := separate_cons_iff.1 separate
      rw [MergesNothingFirst]
      by_cases meets : bank.span.Meets scan.span
      · rw [List.find?_cons_of_pos (by simpa using meets)]
        by_cases reserved :
            bank.type = kvmMemTypeReserved ∧ type = kvmMemTypeReserved
        · rw [scanBanks_merge meets reserved]
          have clear :
              (∀ banks, scanBanks type (scan.merge bank) rest =
                  .error banks → banks = scan.visited ++ bank :: rest) ↔
                ∀ other ∈ rest, ¬ Blocks type scan.span other := by
            have blocked := @scanBanks_error_iff type scan _ separate
            rw [scanBanks_merge meets reserved] at blocked
            constructor
            · intro unchanged other member blocks
              obtain ⟨banks, failure⟩ :=
                blocked.2 ⟨other, List.mem_cons_of_mem _ member, blocks⟩
              exact scanBanks_merge_changes fresh separate failure
                (unchanged banks failure)
            · intro clear banks failure
              obtain ⟨other, member, blocks⟩ :=
                blocked.1 ⟨banks, failure⟩
              rcases List.mem_cons.1 member with rfl | later
              · exact absurd reserved blocks.2
              · exact absurd blocks (clear other later)
          refine Iff.trans clear ?_
          simp only [reserved, Blocks, List.forall_mem_cons,
            Option.mem_def, Option.some.injEq, exists_eq_left', ne_eq,
            not_true, false_or, or_false, and_true, not_and, not_not,
            implies_true, true_and]
        · rw [scanBanks_block meets reserved]
          refine iff_of_true ?_ ?_
          · rintro banks ⟨⟩
            rfl
          · by_cases kind : type = kvmMemTypeReserved
            · refine Or.inr (Or.inr ⟨bank, rfl, ?_⟩)
              exact fun same => reserved ⟨same, kind⟩
            · exact Or.inl kind
      · rw [scanBanks_pass meets,
          List.find?_cons_of_neg (by simpa using meets)]
        have tail :=
          @induction (scan.pass bank) (pass_merged.trans fresh) others
        rw [pass_span, visited_pass, List.append_assoc] at tail
        refine Iff.trans tail ?_
        rw [MergesNothingFirst, List.forall_mem_cons,
          forall_prop_of_false meets, true_and]

/-- A loop that merges nothing keeps the list and the range. -/
theorem scanBanks_ok_unmerged {type : UInt32} {scan done : Scan}
    {rest : List KvmMemBank}
    (success : scanBanks type scan rest = .ok done)
    (unmerged : done.merged = none) :
    done.visited = scan.visited ++ rest ∧
      done.guestPhys = scan.guestPhys ∧ done.size = scan.size ∧
      scan.merged = none ∧
      ∀ bank ∈ rest, ¬ bank.span.Meets scan.span := by
  induction rest generalizing scan with
  | nil =>
      cases success
      exact ⟨(List.append_nil _).symm, rfl, rfl, unmerged, nofun⟩
  | cons bank rest induction =>
      by_cases meets : bank.span.Meets scan.span
      · by_cases reserved :
            bank.type = kvmMemTypeReserved ∧ type = kvmMemTypeReserved
        · rw [scanBanks_merge meets reserved] at success
          cases (induction success).2.2.2.1
        · rw [scanBanks_block meets reserved] at success
          cases success
      · rw [scanBanks_pass meets] at success
        obtain ⟨visited, start, size, fresh, apart⟩ := induction success
        rw [visited_pass, List.append_assoc] at visited
        rw [pass_merged] at fresh
        rw [pass_span] at apart
        exact
          ⟨visited, start.trans pass_guestPhys, size.trans pass_size, fresh,
            List.forall_mem_cons.2 ⟨meets, apart⟩⟩

/--
For every list of banks that do not overlap, a registration that fails
leaves the banks and their number as they were if and only if it merges
nothing before it finds a bank in the way.
-/
theorem register_failure_atomic_iff (kvm : KvmMem)
    (request : RegisterRequest) (malloc : Bool) (ioctl : SetRegion)
    (separate : Separate kvm.memBanks) :
    ((kvmRegisterMem kvm request malloc ioctl).1 ≠ 0 →
        (kvmRegisterMem kvm request malloc ioctl).2 = kvm) ↔
      MergesNothingFirst kvm.memBanks request.type request.span := by
  have unchanged :=
    @scanBanks_unchanged_iff request.type request.scan _ rfl separate
  refine Iff.trans ?_ unchanged
  rw [kvmRegisterMem]
  cases outcome :
      scanBanks request.type request.scan kvm.memBanks with
  | error banks =>
      have fails : -eInval ≠ 0 := by decide
      dsimp only
      rw [forall_prop_of_true fails]
      constructor
      · rintro same _ ⟨⟩
        exact congrArg KvmMem.memBanks same
      · intro same
        rw [same banks rfl]
        rfl
  | ok scan =>
      refine iff_of_true ?_ nofun
      dsimp only
      split
      case isTrue => exact fun fails => absurd rfl fails
      case isFalse unmerged =>
        have visited : scan.visited = kvm.memBanks :=
          (scanBanks_ok_unmerged outcome
            (Option.not_isSome_iff_eq_none.1 unmerged)).1
        rw [visited]
        split
        · exact fun _ => rfl
        · split
          · split
            · exact fun _ => rfl
            · exact fun fails => absurd rfl fails
          · exact fun fails => absurd rfl fails

/-- A reserved bank and a bank of memory, one page each. -/
def twoBanks : KvmMem where
  memBanks :=
    [⟨0x1000, 0, 0x1000, kvmMemTypeReserved, 0⟩,
      ⟨0x3000, 0x7000, 0x1000, 1, 1⟩]
  memSlots := 2

theorem twoBanks_separate : Separate twoBanks.memBanks :=
  ⟨by decide, by decide⟩

/-- Device memory on both of them fails at the reserved bank. -/
theorem register_failure_atomic_on_device :
    ((kvmRegisterMem twoBanks ⟨0x1800, 0x2000, 0, 2⟩ true
            fun _ => none).1 ≠ 0 →
        (kvmRegisterMem twoBanks ⟨0x1800, 0x2000, 0, 2⟩ true
            fun _ => none).2 = twoBanks) ↔
      MergesNothingFirst twoBanks.memBanks 2 (spanOf 0x1800 0x2000) :=
  register_failure_atomic_iff twoBanks ⟨0x1800, 0x2000, 0, 2⟩ true
    (fun _ => none) twoBanks_separate

/--
A reserved range that overlaps both is refused, and the reserved bank has
grown into the other one.
-/
theorem refused_range_stays :
    ¬ ∀ (kvm : KvmMem) (request : RegisterRequest) (malloc : Bool)
        (ioctl : SetRegion), Separate kvm.memBanks →
        (kvmRegisterMem kvm request malloc ioctl).1 ≠ 0 →
        (kvmRegisterMem kvm request malloc ioctl).2 = kvm := by
  intro atomic
  have same :=
    atomic twoBanks ⟨0x1800, 0x2000, 0, kvmMemTypeReserved⟩ true
      (fun _ => none) twoBanks_separate (by decide)
  exact absurd same (by decide)

end Kemu.Init.MemBanks
