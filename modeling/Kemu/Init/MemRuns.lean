import Kemu.Init.MemBanks
import Kemu.Lib.Transition
import Mathlib.Data.Fintype.EquivFin

/-!
# What registrations leave

As long as calls succeed, the banks share no address, their slots ascend, and
the reserved ones have the addresses of the reserved ranges asked for.  A new
bank gets the smallest free slot.  Slots have 32 bits: the bank after `2^32`
others gets one that is taken.
-/

namespace Kemu.Init.MemRuns

open Kemu.Init.MemBanks
open Kemu.Lib.ClosedInterval
open Kemu.Lib.Transition

/-! ## Calls in sequence -/

/--
The banks with a record of the reserved ranges that were registered.
-/
structure MemState where
  kvm : KvmMem
  requested : List RegisterRequest

/-- A call, with the outcomes of what it calls. -/
inductive MemCall where
  | register (request : RegisterRequest) (malloc : Bool)
      (ioctl : SetRegion)
  | destroy (guestPhys size userspaceAddr : UInt64) (ioctl : SetRegion)

/-- What a call returns and leaves. -/
def MemCall.result (kvm : KvmMem) : MemCall → Int × KvmMem
  | .register request malloc ioctl =>
      kvmRegisterMem kvm request malloc ioctl
  | .destroy guestPhys size userspaceAddr ioctl =>
      kvmDestroyMem kvm guestPhys size userspaceAddr ioctl

/-- The reserved ranges a call asks for. -/
def MemCall.reserved : MemCall → List RegisterRequest
  | .register request _ _ =>
      if request.type = kvmMemTypeReserved then [request] else []
  | .destroy _ _ _ _ => []

/-- One call. -/
def memStep (state : MemState) (call : MemCall) : MemState where
  kvm := (call.result state.kvm).2
  requested := state.requested ++ call.reserved

/-- No banks. -/
def memStart : MemState where
  kvm := ⟨[], 0⟩
  requested := []

/-- A call with a well-formed range that succeeds. -/
def Succeeds (state : MemState) (call : MemCall) : Prop :=
  (∀ request malloc ioctl, call = .register request malloc ioctl →
      request.WellFormed) ∧
    (call.result state.kvm).1 = 0

/-- A reserved bank has the address. -/
def ReservedAt (banks : List KvmMemBank) (addr : Nat) : Prop :=
  ∃ bank ∈ banks, bank.type = kvmMemTypeReserved ∧ bank.span.Holds addr

/--
No two banks share an address, slots ascend, and the reserved banks have the
addresses of the reserved ranges that were asked for.
-/
structure BanksSound (state : MemState) : Prop where
  disjoint :
    state.kvm.memBanks.Pairwise fun first second =>
      ∀ addr, ¬ (first.span.Holds addr ∧ second.span.Holds addr)
  ascending :
    state.kvm.memBanks.Pairwise fun first second =>
      first.slot < second.slot
  covered :
    ∀ addr, ReservedAt state.kvm.memBanks addr ↔
      ∃ request ∈ state.requested, request.span.Holds addr

/-- A bank that a call adds has the smallest slot that is free. -/
def AddsSmallestSlot (state : MemState) (call : MemCall) : Prop :=
  ∀ new : KvmMemBank,
    (memStep state call).kvm.memBanks.Perm (new :: state.kvm.memBanks) →
    (∀ bank ∈ state.kvm.memBanks, bank.slot ≠ new.slot) ∧
      ∀ slot < new.slot, ∃ bank ∈ state.kvm.memBanks, bank.slot = slot

/-- There is a slot left for a bank that a call adds. -/
def HasSlot (state : MemState) : MemCall → Prop
  | .register request _ _ =>
      state.kvm.memBanks.length < 2 ^ 32 ∨
        ∃ bank ∈ state.kvm.memBanks, bank.span.Meets request.span
  | .destroy _ _ _ _ => True

/-! ## The loop for a reserved range -/

theorem reservedAt_append {front back : List KvmMemBank} {addr : Nat} :
    ReservedAt (front ++ back) addr ↔
      ReservedAt front addr ∨ ReservedAt back addr := by
  simp only [ReservedAt, List.mem_append, or_and_right, exists_or]

theorem reservedAt_nil {addr : Nat} : ¬ ReservedAt [] addr :=
  nofun

theorem reservedAt_cons {bank : KvmMemBank} {rest : List KvmMemBank}
    {addr : Nat} :
    ReservedAt (bank :: rest) addr ↔
      (bank.type = kvmMemTypeReserved ∧ bank.span.Holds addr) ∨
        ReservedAt rest addr := by
  simp only [ReservedAt, List.exists_mem_cons_iff]

/--
What holds in the loop: only banks that are still to come may overlap the
range, and the reserved banks together with it have the same addresses as at
the start.
-/
structure Scanning (banks : List KvmMemBank) (span : IntervalOf Nat)
    (scan : Scan) (rest : List KvmMemBank) : Prop where
  separate : Separate (scan.before ++ scan.after ++ rest)
  passed :
    ∀ bank ∈ scan.before ++ scan.after, ¬ bank.span.Meets scan.span
  nonempty : scan.span.Nonempty
  merged :
    ∀ bank ∈ scan.merged,
      bank.span = scan.span ∧ bank.type = kvmMemTypeReserved
  slots :
    ((scan.visited ++ rest).map KvmMemBank.slot).Sublist
      (banks.map KvmMemBank.slot)
  covered :
    ∀ addr, ReservedAt (scan.visited ++ rest) addr ∨
        scan.span.Holds addr ↔
      ReservedAt banks addr ∨ span.Holds addr

section Scanning

variable {banks : List KvmMemBank} {span : IntervalOf Nat} {scan : Scan}
  {bank : KvmMemBank} {rest : List KvmMemBank}

theorem Scanning.pass (scanning : Scanning banks span scan (bank :: rest))
    (apart : ¬ bank.span.Meets scan.span) :
    Scanning banks span (scan.pass bank) rest where
  separate := by
    rw [pass_before, pass_after, ← List.append_assoc, List.append_assoc _ [_]]
    exact scanning.separate
  passed := by
    rw [pass_before, pass_after, pass_span, ← List.append_assoc]
    intro other member
    rcases List.mem_append.1 member with earlier | same
    · exact scanning.passed other earlier
    · rw [List.mem_singleton.1 same]
      exact apart
  nonempty := by
    rw [pass_span]
    exact scanning.nonempty
  merged := by
    rw [pass_merged, pass_span]
    exact scanning.merged
  slots := by
    rw [visited_pass, List.append_assoc]
    exact scanning.slots
  covered := by
    rw [visited_pass, List.append_assoc, pass_span]
    exact scanning.covered

/-- The bank merged before adds nothing to the range. -/
theorem Scanning.covered_merge
    (scanning : Scanning banks span scan (bank :: rest))
    (meets : bank.span.Meets scan.span)
    (reserved : bank.type = kvmMemTypeReserved) (addr : Nat) :
    ReservedAt ((scan.merge bank).visited ++ rest) addr ∨
        (scan.merge bank).span.Holds addr ↔
      ReservedAt (scan.visited ++ bank :: rest) addr ∨
        scan.span.Holds addr := by
  have last :
      ReservedAt scan.merged.toList addr → scan.span.Holds addr := by
    rintro ⟨merged, member, -, holds⟩
    rw [Option.mem_toList] at member
    rw [← (scanning.merged merged member).1]
    exact holds
  have grown :
      (scan.grow bank).span.Holds addr ↔
        bank.span.Holds addr ∨ scan.span.Holds addr := by
    rw [grow_span]
    exact IntervalOf.holds_hull_iff meets addr
  have range : (scan.merge bank).span = (scan.grow bank).span := rfl
  have kind : (scan.grow bank).type = kvmMemTypeReserved := reserved
  simp only [Scan.visited, Scan.merge, Option.toList_some,
    List.append_nil, reservedAt_append, reservedAt_cons] at last ⊢
  rw [← Scan.merge, range, grown, kind, reserved]
  have absent : ¬ ReservedAt [] addr := reservedAt_nil
  tauto

theorem Scanning.merge
    (scanning : Scanning banks span scan (bank :: rest))
    (meets : bank.span.Meets scan.span)
    (reserved : bank.type = kvmMemTypeReserved) :
    Scanning banks span (scan.merge bank) rest where
  separate := by
    have others :
        (scan.before ++ scan.after ++ rest).Sublist
          (scan.before ++ scan.after ++ bank :: rest) :=
      (List.sublist_cons_self bank rest).append_left _
    rw [Scan.merge, List.append_nil]
    exact
      ⟨fun other member =>
          scanning.separate.nonempty other (others.subset member),
        scanning.separate.apart.sublist others⟩
  passed := by
    rw [Scan.merge, List.append_nil]
    intro other member
    rw [← Scan.merge, merge_span,
      IntervalOf.meets_hull_iff
        (scanning.separate.nonempty other (List.mem_append_left _ member))
        ?_ meets]
    · exact scanning.passed other member
    · exact
        (List.pairwise_append.1 scanning.separate.apart).2.2 other member
          bank List.mem_cons_self
  nonempty := by
    have member : bank ∈ scan.before ++ scan.after ++ bank :: rest :=
      List.mem_append_right _ List.mem_cons_self
    rw [merge_span]
    exact (scanning.separate.nonempty bank member).hull
  merged := by
    rintro merged ⟨⟩
    exact ⟨rfl, reserved⟩
  slots := by
    refine List.Sublist.trans ?_ scanning.slots
    have slot : (scan.grow bank).slot = bank.slot := rfl
    simp only [Scan.visited, Scan.merge, Option.toList_some,
      List.append_nil, List.map_append, List.map_cons, slot,
      List.append_assoc, List.singleton_append]
    refine List.Sublist.append_left ?_ _
    exact List.sublist_append_right _ _
  covered := by
    intro addr
    rw [scanning.covered_merge meets reserved]
    exact scanning.covered addr

/-- The loop for a reserved range that finds none in the way. -/
theorem Scanning.done {done : Scan}
    (scanning : Scanning banks span scan rest)
    (success : scanBanks kvmMemTypeReserved scan rest = .ok done) :
    Scanning banks span done [] := by
  induction rest generalizing scan with
  | nil =>
      cases success
      exact scanning
  | cons bank rest induction =>
      by_cases meets : bank.span.Meets scan.span
      · by_cases reserved :
            bank.type = kvmMemTypeReserved ∧
              kvmMemTypeReserved = kvmMemTypeReserved
        · rw [scanBanks_merge meets reserved] at success
          exact induction (scanning.merge meets reserved.1) success
        · rw [scanBanks_block meets reserved] at success
          cases success
      · rw [scanBanks_pass meets] at success
        exact induction (scanning.pass meets) success

end Scanning

/-! ## The loop for a new bank -/

/--
The banks before the entry a new one would follow have exactly the slots
below the free one, and the others have slots beyond it.
-/
structure Counted (banks : List KvmMemBank) (slot : UInt32)
    (prevEntry : Nat) : Prop where
  within : prevEntry ≤ banks.length
  slot : slot = UInt32.ofNat prevEntry
  used :
    ∀ number < prevEntry,
      ∃ bank ∈ banks.take prevEntry, bank.slot.toNat = number
  below : ∀ bank ∈ banks.take prevEntry, bank.slot.toNat < prevEntry
  beyond : ∀ bank ∈ banks.drop prevEntry, prevEntry < bank.slot.toNat

/-- The slots of a list of banks ascend. -/
def Ascending (banks : List KvmMemBank) : Prop :=
  banks.Pairwise fun first second => first.slot < second.slot

theorem Ascending.length_le {banks : List KvmMemBank}
    (ascending : Ascending banks) : banks.length ≤ 2 ^ 32 := by
  have different : (banks.map fun bank => bank.slot.toFin).Nodup := by
    rw [List.Nodup, List.pairwise_map]
    refine ascending.imp fun {first second} less same => ?_
    rw [UInt32.lt_iff_toNat_lt] at less
    have equal : first.slot.toNat = second.slot.toNat :=
      congrArg Fin.val same
    omega
  have bound := different.length_le_card
  rw [List.length_map, Fintype.card_fin] at bound
  exact bound

section Counted

variable {banks : List KvmMemBank} {bank : KvmMemBank} {slot : UInt32}
  {prevEntry : Nat}

theorem Counted.toNat_slot (counted : Counted banks slot prevEntry)
    (room : banks.length < 2 ^ 32) : slot.toNat = prevEntry := by
  have within := counted.within
  rw [counted.slot, UInt32.toNat_ofNat']
  omega

/-- A bank that has the slot which seemed free comes right after its entry. -/
theorem Counted.fill (counted : Counted banks slot prevEntry)
    (room : banks.length < 2 ^ 32)
    (last : ∀ other ∈ banks, other.slot < bank.slot)
    (same : bank.slot = slot) :
    Counted (banks ++ [bank]) (slot + 1) (banks.length + 1) := by
  have number : bank.slot.toNat = prevEntry := by
    rw [same, counted.toNat_slot room]
  have whole : banks.length = prevEntry := by
    have within := counted.within
    by_contra short
    have there : prevEntry < banks.length := by omega
    have member : banks[prevEntry] ∈ banks.drop prevEntry := by
      rw [List.drop_eq_getElem_cons there]
      exact List.mem_cons_self
    have above := counted.beyond _ member
    have under := last _ (List.getElem_mem there)
    rw [UInt32.lt_iff_toNat_lt] at under
    omega
  have all : (banks ++ [bank]).take (banks.length + 1) = banks ++ [bank] :=
    List.take_of_length_le (by simp)
  have before : banks.take prevEntry = banks :=
    List.take_of_length_le whole.le
  refine ⟨by simp, ?_, ?_, ?_, ?_⟩
  · rw [whole, counted.slot, UInt32.ofNat_add]
    rfl
  · intro other less
    rw [all]
    by_cases earlier : other < prevEntry
    · obtain ⟨found, member, equal⟩ := counted.used other earlier
      rw [before] at member
      exact ⟨found, List.mem_append_left _ member, equal⟩
    · refine ⟨bank, List.mem_append_right _ List.mem_cons_self, ?_⟩
      omega
  · intro other member
    rw [all] at member
    rcases List.mem_append.1 member with earlier | here
    · rw [← before] at earlier
      have under := counted.below other earlier
      omega
    · rw [List.mem_singleton.1 here]
      omega
  · intro other member
    rw [List.drop_of_length_le (by simp)] at member
    cases member

theorem Counted.skip (counted : Counted banks slot prevEntry)
    (room : banks.length < 2 ^ 32)
    (last : ∀ other ∈ banks, other.slot < bank.slot)
    (different : bank.slot ≠ slot) :
    Counted (banks ++ [bank]) slot prevEntry := by
  have within := counted.within
  have front : (banks ++ [bank]).take prevEntry = banks.take prevEntry :=
    List.take_append_of_le_length within
  have number : bank.slot.toNat ≠ prevEntry := by
    intro same
    refine different (UInt32.toNat_inj.1 ?_)
    rw [same, counted.toNat_slot room]
  refine ⟨?_, counted.slot, ?_, ?_, ?_⟩
  · rw [List.length_append]
    omega
  · rw [front]
    exact counted.used
  · rw [front]
    exact counted.below
  · intro other member
    rw [List.drop_append_of_le_length within] at member
    rcases List.mem_append.1 member with earlier | here
    · exact counted.beyond other earlier
    · rw [List.mem_singleton.1 here]
      by_contra low
      obtain ⟨found, there, same⟩ :=
        counted.used bank.slot.toNat (by omega)
      have under := last found (List.take_subset _ _ there)
      rw [UInt32.lt_iff_toNat_lt] at under
      omega

theorem scanBanks_counted {type : UInt32} {scan done : Scan}
    {rest : List KvmMemBank}
    (success : scanBanks type scan rest = .ok done)
    (unmerged : done.merged = none)
    (ascending : Ascending (scan.visited ++ rest))
    (counted : Counted scan.visited scan.slot scan.prevEntry) :
    Counted done.visited done.slot done.prevEntry := by
  induction rest generalizing scan with
  | nil =>
      cases success
      exact counted
  | cons bank rest induction =>
      have apart := (scanBanks_ok_unmerged success unmerged).2.2.2.2
      rw [scanBanks_pass (apart bank List.mem_cons_self)] at success
      refine induction success ?_ ?_
      · rw [visited_pass, List.append_assoc]
        exact ascending
      · have room := ascending.length_le
        have last : ∀ other ∈ scan.visited, other.slot < bank.slot :=
          fun other member =>
            (List.pairwise_append.1 ascending).2.2 other member bank
              List.mem_cons_self
        rw [List.length_append, List.length_cons] at room
        rw [visited_pass, Scan.pass, Scan.noteSlot]
        split
        case isTrue same =>
          exact counted.fill (by omega) last same
        case isFalse different =>
          exact counted.skip (by omega) last different

end Counted

/-! ## What a registration does -/

/-- A loop that merges is for a reserved range that overlaps a bank. -/
theorem scanBanks_ok_merged {type : UInt32} {scan done : Scan}
    {rest : List KvmMemBank}
    (success : scanBanks type scan rest = .ok done)
    (fresh : scan.merged = none) (merged : done.merged ≠ none) :
    type = kvmMemTypeReserved ∧
      ∃ bank ∈ rest, bank.span.Meets scan.span := by
  induction rest generalizing scan with
  | nil =>
      cases success
      exact absurd fresh merged
  | cons bank rest induction =>
      by_cases meets : bank.span.Meets scan.span
      · by_cases reserved :
            bank.type = kvmMemTypeReserved ∧ type = kvmMemTypeReserved
        · exact ⟨reserved.2, bank, List.mem_cons_self, meets⟩
        · rw [scanBanks_block meets reserved] at success
          cases success
      · rw [scanBanks_pass meets] at success
        obtain ⟨kind, other, member, reaches⟩ :=
          induction success (pass_merged.trans fresh)
        rw [pass_span] at reaches
        exact ⟨kind, other, List.mem_cons_of_mem _ member, reaches⟩

/-- The two ways in which a registration succeeds. -/
inductive Registered (banks : List KvmMemBank)
    (request : RegisterRequest) : List KvmMemBank → Prop where
  | merged {scan : Scan} {bank : KvmMemBank}
      (kind : request.type = kvmMemTypeReserved)
      (overlaps : ∃ old ∈ banks, old.span.Meets request.span)
      (last : scan.merged = some bank)
      (scanning : Scanning banks request.span scan []) :
      Registered banks request scan.visited
  | added {new : KvmMemBank} {prevEntry : Nat}
      (apart : ∀ bank ∈ banks, ¬ bank.span.Meets request.span)
      (span : new.span = request.span)
      (type : new.type = request.type)
      (counted : Counted banks new.slot prevEntry) :
      Registered banks request
        (banks.take prevEntry ++ new :: banks.drop prevEntry)

section Register

variable {kvm : KvmMem} {request : RegisterRequest} {malloc : Bool}
  {ioctl : SetRegion}

theorem scanning_start (separate : Separate kvm.memBanks)
    (wellFormed : request.WellFormed) :
    Scanning kvm.memBanks request.span request.scan kvm.memBanks where
  separate := separate
  passed := nofun
  nonempty := spanOf_nonempty wellFormed.1 wellFormed.2
  merged := nofun
  slots := List.Sublist.refl _
  covered _ := Iff.rfl

theorem counted_start : Counted [] 0 0 where
  within := Nat.le_refl 0
  slot := rfl
  used := nofun
  below := nofun
  beyond := nofun

/-- A registration that succeeds leaves what the loop did, or adds a bank. -/
theorem register_success
    (success : (kvmRegisterMem kvm request malloc ioctl).1 = 0) :
    ∃ scan, scanBanks request.type request.scan kvm.memBanks = .ok scan ∧
      (scan.merged ≠ none ∧
          (kvmRegisterMem kvm request malloc ioctl).2.memBanks =
            scan.visited ∨
        scan.merged = none ∧
          (kvmRegisterMem kvm request malloc ioctl).2.memBanks =
            scan.visited.take scan.prevEntry ++
              ⟨scan.guestPhys, request.userspaceAddr, scan.size,
                  request.type, scan.slot⟩ ::
                scan.visited.drop scan.prevEntry) := by
  rw [kvmRegisterMem] at success ⊢
  cases outcome :
      scanBanks request.type request.scan kvm.memBanks with
  | error banks =>
      rw [outcome] at success
      cases success
  | ok scan =>
      rw [outcome] at success
      dsimp only at success ⊢
      refine ⟨scan, rfl, ?_⟩
      cases last : scan.merged with
      | some bank => exact Or.inl ⟨Option.some_ne_none bank, rfl⟩
      | none =>
          refine Or.inr ⟨rfl, ?_⟩
          rw [last] at success
          split at success
          case isTrue merged => cases merged
          case isFalse =>
            split at success
            case isTrue => cases success
            case isFalse allocated =>
              rw [if_neg (by simp), if_neg allocated]
              split at success
              case isTrue other =>
                rw [if_pos other]
                split at success
                case h_1 number failure =>
                  have positive := number.2
                  omega
                case h_2 accepted => rfl
              case isFalse kind => rw [if_neg kind]

theorem registered_of_success (separate : Separate kvm.memBanks)
    (ascending : Ascending kvm.memBanks)
    (wellFormed : request.WellFormed)
    (success : (kvmRegisterMem kvm request malloc ioctl).1 = 0) :
    Registered kvm.memBanks request
      (kvmRegisterMem kvm request malloc ioctl).2.memBanks := by
  obtain ⟨scan, outcome, ⟨merged, banks⟩ | ⟨last, banks⟩⟩ :=
    register_success success
  · obtain ⟨bank, last⟩ := Option.ne_none_iff_exists'.1 merged
    obtain ⟨kind, overlaps⟩ := scanBanks_ok_merged outcome rfl merged
    rw [kind] at outcome
    rw [banks]
    exact
      .merged kind overlaps last
        ((scanning_start separate wellFormed).done outcome)
  · obtain ⟨visited, start, size, -, apart⟩ :=
      scanBanks_ok_unmerged outcome last
    have counted :=
      scanBanks_counted outcome last ascending counted_start
    have whole : scan.visited = kvm.memBanks := visited
    rw [banks]
    rw [whole] at counted ⊢
    refine .added apart ?_ rfl counted
    rw [KvmMemBank.span, start, size]
    rfl

end Register

/-! ## Every run -/

theorem separate_middle {front back : List KvmMemBank}
    {bank : KvmMemBank} :
    Separate (front ++ bank :: back) ↔
      Separate (bank :: (front ++ back)) := by
  have same : (front ++ bank :: back).Perm (bank :: (front ++ back)) :=
    List.perm_middle
  have apart :
      (front ++ bank :: back).Pairwise
          (fun first second => ¬ first.span.Meets second.span) ↔
        (bank :: (front ++ back)).Pairwise
          (fun first second => ¬ first.span.Meets second.span) :=
    same.pairwise_iff fun apart meets => apart meets.symm
  constructor
  · rintro ⟨nonempty, pairs⟩
    exact
      ⟨fun other member => nonempty other (same.mem_iff.2 member),
        apart.1 pairs⟩
  · rintro ⟨nonempty, pairs⟩
    exact
      ⟨fun other member => nonempty other (same.mem_iff.1 member),
        apart.2 pairs⟩

/-- The banks are separate once the loop has merged one. -/
theorem Scanning.separate_visited {banks : List KvmMemBank}
    {span : IntervalOf Nat} {scan : Scan} {bank : KvmMemBank}
    (scanning : Scanning banks span scan [])
    (last : scan.merged = some bank) : Separate scan.visited := by
  have others := scanning.separate
  rw [List.append_nil] at others
  rw [Scan.visited, last, Option.toList_some, List.append_assoc,
    List.singleton_append, separate_middle, separate_cons_iff]
  have range := (scanning.merged bank last).1
  refine ⟨?_, ?_, others⟩
  · rw [range]
    exact scanning.nonempty
  · intro other member meets
    rw [range] at meets
    exact scanning.passed other member meets.symm

/-- The banks as calls that succeed leave them. -/
structure MemInvariant (state : MemState) : Prop where
  separate : Separate state.kvm.memBanks
  ascending : Ascending state.kvm.memBanks
  covered :
    ∀ addr, ReservedAt state.kvm.memBanks addr ↔
      ∃ request ∈ state.requested, request.span.Holds addr

theorem MemInvariant.sound {state : MemState}
    (holds : MemInvariant state) : BanksSound state where
  disjoint :=
    holds.separate.apart.imp fun apart =>
      IntervalOf.not_holds_of_not_meets apart
  ascending := holds.ascending
  covered := holds.covered

/-- The record after a registration. -/
theorem requested_append_iff {requested : List RegisterRequest}
    {request : RegisterRequest} {addr : Nat} :
    (∃ other ∈ requested ++
          if request.type = kvmMemTypeReserved then [request] else [],
        other.span.Holds addr) ↔
      (∃ other ∈ requested, other.span.Holds addr) ∨
        request.type = kvmMemTypeReserved ∧ request.span.Holds addr := by
  split
  case isTrue kind =>
    simp [or_and_right, exists_or, kind]
  case isFalse kind => simp [kind]

section Steps

variable {state : MemState} {request : RegisterRequest}
  {after : List KvmMemBank}

theorem Registered.separate
    (registered : Registered state.kvm.memBanks request after)
    (holds : MemInvariant state) (wellFormed : request.WellFormed) :
    Separate after := by
  cases registered with
  | @merged scan bank kind overlaps last scanning =>
      exact scanning.separate_visited last
  | @added new prevEntry apart span type counted =>
      rw [separate_middle, List.take_append_drop, separate_cons_iff, span]
      exact
        ⟨spanOf_nonempty wellFormed.1 wellFormed.2,
          fun other member meets => apart other member meets.symm,
          holds.separate⟩

theorem Registered.covered
    (registered : Registered state.kvm.memBanks request after)
    (addr : Nat) :
    ReservedAt after addr ↔
      ReservedAt state.kvm.memBanks addr ∨
        request.type = kvmMemTypeReserved ∧ request.span.Holds addr := by
  cases registered with
  | @merged scan bank kind overlaps last scanning =>
      have total := scanning.covered addr
      rw [List.append_nil] at total
      rw [and_iff_right kind, ← total, or_iff_left_of_imp]
      intro inside
      have fits := scanning.merged bank last
      refine ⟨bank, ?_, fits.2, ?_⟩
      · simp [Scan.visited, last]
      · rw [fits.1]
        exact inside
  | @added new prevEntry apart span type counted =>
      rw [reservedAt_append, reservedAt_cons, span, type, or_left_comm,
        ← reservedAt_append, List.take_append_drop, or_comm]

/-- A registration that does not run out of slots keeps them in order. -/
theorem Registered.ascending
    (registered : Registered state.kvm.memBanks request after)
    (holds : MemInvariant state)
    (room :
      state.kvm.memBanks.length < 2 ^ 32 ∨
        ∃ bank ∈ state.kvm.memBanks, bank.span.Meets request.span) :
    Ascending after := by
  cases registered with
  | @merged scan bank kind overlaps last scanning =>
      have slots := scanning.slots
      rw [List.append_nil] at slots
      exact
        List.pairwise_map.1 ((List.pairwise_map.2 holds.ascending).sublist
          slots)
  | @added new prevEntry apart span type counted =>
      have short : state.kvm.memBanks.length < 2 ^ 32 := by
        refine room.resolve_right ?_
        rintro ⟨bank, member, meets⟩
        exact apart bank member meets
      have number := counted.toNat_slot short
      have ordered := holds.ascending
      rw [← List.take_append_drop prevEntry state.kvm.memBanks, Ascending,
        List.pairwise_append] at ordered
      obtain ⟨front, back, across⟩ := ordered
      have beforeNew :
          ∀ bank ∈ state.kvm.memBanks.take prevEntry,
            bank.slot < new.slot := by
        intro bank member
        rw [UInt32.lt_iff_toNat_lt, number]
        exact counted.below bank member
      have afterNew :
          ∀ bank ∈ state.kvm.memBanks.drop prevEntry,
            new.slot < bank.slot := by
        intro bank member
        rw [UInt32.lt_iff_toNat_lt, number]
        exact counted.beyond bank member
      refine List.pairwise_append.2
        ⟨front, List.pairwise_cons.2 ⟨afterNew, back⟩, ?_⟩
      intro bank member
      exact List.forall_mem_cons.2
        ⟨beforeNew bank member, across bank member⟩

/-- Without a slot for it the list gets too long to be in order. -/
theorem Registered.not_ascending
    (registered : Registered state.kvm.memBanks request after)
    (full :
      ¬ (state.kvm.memBanks.length < 2 ^ 32 ∨
        ∃ bank ∈ state.kvm.memBanks, bank.span.Meets request.span)) :
    ¬ Ascending after := by
  rw [not_or] at full
  cases registered with
  | merged kind overlaps last scanning => exact absurd overlaps full.2
  | @added new prevEntry apart span type counted =>
      intro ascending
      have bound := ascending.length_le
      have longer := full.1
      rw [List.length_append, List.length_cons, ← Nat.add_assoc,
        ← List.length_append, List.take_append_drop] at bound
      omega

/-- A bank is added with the smallest slot that is free. -/
theorem Registered.smallest
    (registered : Registered state.kvm.memBanks request after)
    (room :
      state.kvm.memBanks.length < 2 ^ 32 ∨
        ∃ bank ∈ state.kvm.memBanks, bank.span.Meets request.span)
    {new : KvmMemBank} (adds : after.Perm (new :: state.kvm.memBanks)) :
    (∀ bank ∈ state.kvm.memBanks, bank.slot ≠ new.slot) ∧
      ∀ slot < new.slot, ∃ bank ∈ state.kvm.memBanks,
        bank.slot = slot := by
  cases registered with
  | @merged scan bank kind overlaps last scanning =>
      have fewer := scanning.slots.length_le
      have more := adds.length_eq
      rw [List.append_nil, List.length_map, List.length_map] at fewer
      rw [List.length_cons] at more
      omega
  | @added other prevEntry apart span type counted =>
      have short : state.kvm.memBanks.length < 2 ^ 32 := by
        refine room.resolve_right ?_
        rintro ⟨bank, member, meets⟩
        exact apart bank member meets
      have number := counted.toNat_slot short
      have middle := List.perm_middle.symm.trans adds
      rw [List.take_append_drop] at middle
      have counts := Multiset.coe_eq_coe.2 middle
      rw [← Multiset.cons_coe, ← Multiset.cons_coe,
        Multiset.cons_inj_left] at counts
      subst counts
      constructor
      · intro bank member same
        rw [← List.take_append_drop prevEntry state.kvm.memBanks]
          at member
        rcases List.mem_append.1 member with early | late
        · have below := counted.below bank early
          rw [same] at below
          omega
        · have beyond := counted.beyond bank late
          rw [same] at beyond
          omega
      · intro slot less
        rw [UInt32.lt_iff_toNat_lt, number] at less
        obtain ⟨bank, member, same⟩ := counted.used slot.toNat less
        exact
          ⟨bank, List.take_subset _ _ member, UInt32.toNat_inj.1 same⟩

/-- A range that overlaps no bank makes a new one. -/
theorem Registered.adds
    (registered : Registered state.kvm.memBanks request after)
    (apart :
      ∀ bank ∈ state.kvm.memBanks, ¬ bank.span.Meets request.span) :
    ∃ new, new.type = request.type ∧
      after.Perm (new :: state.kvm.memBanks) := by
  cases registered with
  | merged kind overlaps last scanning =>
      obtain ⟨bank, member, meets⟩ := overlaps
      exact absurd meets (apart bank member)
  | @added new prevEntry clear span type counted =>
      refine ⟨new, type, List.perm_middle.trans ?_⟩
      rw [List.take_append_drop]

/-- A bank is taken out, which is not a reserved one. -/
theorem kvmDestroyMem_success {kvm : KvmMem}
    {guestPhys size userspaceAddr : UInt64} {ioctl : SetRegion}
    (success :
      (kvmDestroyMem kvm guestPhys size userspaceAddr ioctl).1 = 0) :
    ∃ front bank back, kvm.memBanks = front ++ bank :: back ∧
      bank.type ≠ kvmMemTypeReserved ∧
      (kvmDestroyMem kvm guestPhys size userspaceAddr ioctl).2.memBanks =
        front ++ back := by
  rw [kvmDestroyMem] at success ⊢
  dsimp only at success ⊢
  split at success
  case h_1 => cases success
  case h_2 bank found =>
    split at success
    case isTrue => cases success
    case isFalse kind =>
      split at success
      case h_1 number failure =>
        have positive := number.2
        omega
      case h_2 =>
        obtain ⟨matched, front, back, list, before⟩ :=
          List.find?_eq_some_iff_append.1 found
        refine ⟨front, bank, back, list, kind, ?_⟩
        rw [if_neg kind, list, List.eraseP_append_right]
        · rw [List.eraseP_cons_of_pos matched]
        · intro other member
          simpa using before other member

end Steps

section Runs

variable {state : MemState} {call : MemCall}

theorem MemInvariant.step (holds : MemInvariant state)
    (succeeds : Succeeds state call) (room : HasSlot state call) :
    MemInvariant (memStep state call) := by
  cases call with
  | register request malloc ioctl =>
      have wellFormed := succeeds.1 request malloc ioctl rfl
      have registered :=
        registered_of_success holds.separate holds.ascending wellFormed
          succeeds.2
      refine
        ⟨registered.separate holds wellFormed,
          registered.ascending holds room, fun addr => ?_⟩
      rw [memStep, MemCall.reserved, requested_append_iff,
        ← holds.covered addr]
      exact registered.covered addr
  | destroy guestPhys size userspaceAddr ioctl =>
      obtain ⟨front, bank, back, before, kind, after⟩ :=
        kvmDestroyMem_success succeeds.2
      have separate := holds.separate
      have ascending := holds.ascending
      have others : (front ++ back).Sublist (front ++ bank :: back) :=
        (List.sublist_cons_self bank back).append_left front
      have left :
          (memStep state
            (.destroy guestPhys size userspaceAddr ioctl)).kvm.memBanks =
              front ++ back :=
        after
      rw [before] at separate ascending
      refine ⟨?_, ?_, fun addr => ?_⟩
      · rw [left]
        rw [separate_middle, separate_cons_iff] at separate
        exact separate.2.2
      · rw [left]
        exact ascending.sublist others
      · have covered := holds.covered addr
        rw [left, memStep, MemCall.reserved, List.append_nil]
        rw [before, reservedAt_append, reservedAt_cons] at covered
        rw [reservedAt_append, ← covered]
        simp [kind]

theorem MemInvariant.step_unsound (holds : MemInvariant state)
    (succeeds : Succeeds state call) (full : ¬ HasSlot state call) :
    ¬ BanksSound (memStep state call) := by
  cases call with
  | register request malloc ioctl =>
      have registered :=
        registered_of_success holds.separate holds.ascending
          (succeeds.1 request malloc ioctl rfl) succeeds.2
      exact fun sound => registered.not_ascending full sound.ascending
  | destroy guestPhys size userspaceAddr ioctl =>
      exact absurd trivial full

theorem MemInvariant.addsSmallestSlot (holds : MemInvariant state)
    (succeeds : Succeeds state call) (room : HasSlot state call) :
    AddsSmallestSlot state call := by
  intro new adds
  cases call with
  | register request malloc ioctl =>
      have registered :=
        registered_of_success holds.separate holds.ascending
          (succeeds.1 request malloc ioctl rfl) succeeds.2
      exact registered.smallest room adds
  | destroy guestPhys size userspaceAddr ioctl =>
      obtain ⟨front, bank, back, before, kind, after⟩ :=
        kvmDestroyMem_success succeeds.2
      have left :
          (memStep state
            (.destroy guestPhys size userspaceAddr ioctl)).kvm.memBanks =
              front ++ back :=
        after
      have more := adds.length_eq
      rw [left, before] at more
      simp only [List.length_append, List.length_cons] at more
      omega

theorem memStart_invariant : MemInvariant memStart where
  separate := ⟨nofun, List.Pairwise.nil⟩
  ascending := List.Pairwise.nil
  covered addr := by simp [memStart, ReservedAt]

end Runs

/--
In every run of calls that succeed, the banks are as they should be in every
state and new banks get the smallest free slot, if and only if no bank is
added when `2^32` banks are there.
-/
theorem banks_sound_iff (calls : List MemCall)
    (successful : Along memStep Succeeds memStart calls) :
    (Throughout memStep BanksSound memStart calls ∧
        Along memStep AddsSmallestSlot memStart calls) ↔
      Along memStep HasSlot memStart calls := by
  have kept : ∀ state call, MemInvariant state → Succeeds state call →
      HasSlot state call → MemInvariant (memStep state call) :=
    fun _ _ holds => holds.step
  have broken : ∀ state call, MemInvariant state → Succeeds state call →
      ¬ HasSlot state call → ¬ BanksSound (memStep state call) :=
    fun _ _ holds => holds.step_unsound
  have throughout :
      Throughout memStep BanksSound memStart calls ↔
        Along memStep HasSlot memStart calls :=
    throughout_iff_along_of_granted (fun _ holds => holds.sound) kept
      broken memStart_invariant successful
  rw [throughout]
  refine ⟨fun both => both.1, fun along => ⟨along, ?_⟩⟩
  have allowed := successful.and along
  refine along_of_along ?_ ?_ memStart_invariant allowed
  · exact fun state call holds both => kept state call holds both.1 both.2
  · exact fun state call holds both =>
      holds.addsSmallestSlot both.1 both.2

/-- Memory, a reserved range, and a reserved range that overlaps it. -/
def mergingCalls : List MemCall :=
  [.register ⟨0x1000, 0x1000, 0x7000, 1⟩ true fun _ => none,
    .register ⟨0x4000, 0x1000, 0, kvmMemTypeReserved⟩ true fun _ => none,
    .register ⟨0x4800, 0x1000, 0, kvmMemTypeReserved⟩ true fun _ => none]

theorem mergingCalls_succeed :
    Along memStep Succeeds memStart mergingCalls := by
  refine ⟨⟨?_, rfl⟩, ⟨?_, rfl⟩, ⟨?_, rfl⟩, trivial⟩
  · rintro request malloc ioctl ⟨⟩
    exact ⟨by decide, by decide⟩
  · rintro request malloc ioctl ⟨⟩
    exact ⟨by decide, by decide⟩
  · rintro request malloc ioctl ⟨⟩
    exact ⟨by decide, by decide⟩

/-- The calls that merge banks leave them sound. -/
theorem banks_sound_on_merging :
    (Throughout memStep BanksSound memStart mergingCalls ∧
        Along memStep AddsSmallestSlot memStart mergingCalls) ↔
      Along memStep HasSlot memStart mergingCalls :=
  banks_sound_iff mergingCalls mergingCalls_succeed

/-! ## A run without a slot -/

/-- A reserved byte at every other address. -/
def farRequest (index : Nat) : RegisterRequest where
  guestPhys := UInt64.ofNat (2 * index)
  size := 1
  userspaceAddr := 0
  type := kvmMemTypeReserved

/-- The host accepts every region. -/
def accepted : SetRegion :=
  fun _ => none

def farCall (index : Nat) : MemCall :=
  .register (farRequest index) true accepted

theorem farRequest_span {index : Nat} (bound : index ≤ 2 ^ 32) :
    (farRequest index).span = ⟨2 * index, 2 * index⟩ := by
  have back : ∀ start : UInt64, start + 1 - 1 = start := by grind
  have small : 2 * index < 2 ^ 64 := by omega
  rw [RegisterRequest.span, farRequest, spanOf, back,
    UInt64.toNat_ofNat_of_lt' small]

theorem farRequest_wellFormed {index : Nat} (bound : index ≤ 2 ^ 32) :
    (farRequest index).WellFormed := by
  have small : 2 * index < 2 ^ 64 := by omega
  have one : (1 : UInt64).toNat = 1 := rfl
  have positive : (0 : UInt64) < 1 := by decide
  refine ⟨positive, ?_⟩
  rw [farRequest, UInt64.toNat_ofNat_of_lt' small, one]
  omega

/-- Reserved ranges among reserved banks are never refused. -/
theorem reserved_register_success {kvm : KvmMem}
    {request : RegisterRequest} {ioctl : SetRegion}
    (separate : Separate kvm.memBanks)
    (banks : ∀ bank ∈ kvm.memBanks, bank.type = kvmMemTypeReserved)
    (kind : request.type = kvmMemTypeReserved) :
    (kvmRegisterMem kvm request true ioctl).1 = 0 := by
  rw [kvmRegisterMem]
  cases outcome :
      scanBanks request.type request.scan kvm.memBanks with
  | error left =>
      obtain ⟨bank, member, blocks⟩ :=
        (scanBanks_error_iff separate).1 ⟨left, outcome⟩
      exact absurd ⟨banks bank member, kind⟩ blocks.2
  | ok scan =>
      dsimp only
      split
      · rfl
      · rw [if_neg (by decide), if_neg (fun other => other kind)]

/-- After some of these calls there are as many banks, all reserved. -/
structure FarBanks (count : Nat) (state : MemState) : Prop where
  invariant : MemInvariant state
  length : state.kvm.memBanks.length = count
  banks :
    ∀ bank ∈ state.kvm.memBanks, bank.type = kvmMemTypeReserved
  requested :
    ∀ request ∈ state.requested, ∃ index < count,
      request = farRequest index

section Far

variable {count : Nat} {state : MemState}

/-- The next range is clear of all banks. -/
theorem FarBanks.apart (far : FarBanks count state)
    (bound : count ≤ 2 ^ 32) :
    ∀ bank ∈ state.kvm.memBanks,
      ¬ bank.span.Meets (farRequest count).span := by
  intro bank member meets
  rw [farRequest_span bound] at meets
  have reserved : ReservedAt state.kvm.memBanks (2 * count) :=
    ⟨bank, member, far.banks bank member, meets.1, meets.2⟩
  obtain ⟨request, requested, holds⟩ :=
    (far.invariant.covered _).1 reserved
  obtain ⟨index, less, rfl⟩ := far.requested request requested
  rw [farRequest_span (by omega)] at holds
  have first : 2 * index ≤ 2 * count := holds.1
  have last : 2 * count ≤ 2 * index := holds.2
  omega

theorem FarBanks.succeeds (far : FarBanks count state)
    (bound : count ≤ 2 ^ 32) : Succeeds state (farCall count) := by
  refine ⟨?_, ?_⟩
  · rintro request malloc ioctl ⟨⟩
    exact farRequest_wellFormed bound
  · exact
      @reserved_register_success _ _ accepted far.invariant.separate
        far.banks rfl

theorem FarBanks.step (far : FarBanks count state)
    (bound : count < 2 ^ 32) :
    FarBanks (count + 1) (memStep state (farCall count)) := by
  have succeeds := far.succeeds (Nat.le_of_lt bound)
  have apart := far.apart (Nat.le_of_lt bound)
  have room : HasSlot state (farCall count) := by
    left
    rw [far.length]
    exact bound
  have registered :
      Registered state.kvm.memBanks (farRequest count)
        (memStep state (farCall count)).kvm.memBanks :=
    registered_of_success far.invariant.separate far.invariant.ascending
      (succeeds.1 _ _ _ rfl) succeeds.2
  obtain ⟨new, kind, adds⟩ := registered.adds apart
  refine ⟨far.invariant.step succeeds room, ?_, ?_, ?_⟩
  · rw [adds.length_eq, List.length_cons, far.length]
  · intro bank member
    rcases List.mem_cons.1 (adds.mem_iff.1 member) with rfl | earlier
    · exact kind
    · exact far.banks bank earlier
  · intro request member
    rcases List.mem_append.1 member with earlier | new
    · obtain ⟨index, less, same⟩ := far.requested request earlier
      exact ⟨index, by omega, same⟩
    · exact ⟨count, by omega, List.mem_singleton.1 new⟩

end Far

/-- The first of these calls. -/
def farCalls (count : Nat) : List MemCall :=
  (List.range count).map farCall

theorem farBanks_run {count : Nat} (bound : count ≤ 2 ^ 32) :
    Along memStep Succeeds memStart (farCalls count) ∧
      FarBanks count (run memStep memStart (farCalls count)) := by
  induction count with
  | zero => exact ⟨trivial, memStart_invariant, rfl, nofun, nofun⟩
  | succ count induction =>
      obtain ⟨succeed, far⟩ := induction (by omega)
      have calls :
          farCalls (count + 1) = farCalls count ++ [farCall count] := by
        rw [farCalls, List.range_succ, List.map_append]
        rfl
      rw [calls, along_append, run_append]
      exact
        ⟨⟨succeed, far.succeeds (by omega), trivial⟩,
          far.step (by omega)⟩

/-- One more bank when all slots are taken. -/
theorem farCalls_unsound {count : Nat} (all : count = 2 ^ 32) :
    Along memStep Succeeds memStart (farCalls count ++ [farCall count]) ∧
      ¬ Throughout memStep BanksSound memStart
        (farCalls count ++ [farCall count]) := by
  obtain ⟨succeed, far⟩ := farBanks_run all.le
  have succeeds := far.succeeds all.le
  rw [along_append, throughout_append]
  refine ⟨⟨succeed, succeeds, trivial⟩, fun sound => ?_⟩
  refine far.invariant.step_unsound succeeds ?_ sound.2.2
  rintro (short | ⟨bank, member, meets⟩)
  · rw [far.length, all] at short
    exact Nat.lt_irrefl _ short
  · exact far.apart all.le bank member meets

/-- The bank after `2^32` others gets the slot zero once more. -/
theorem slots_run_out :
    ¬ ∀ calls : List MemCall, Along memStep Succeeds memStart calls →
        Throughout memStep BanksSound memStart calls := by
  intro sound
  have run : ∃ calls, Along memStep Succeeds memStart calls ∧
      ¬ Throughout memStep BanksSound memStart calls :=
    ⟨_, farCalls_unsound rfl⟩
  obtain ⟨calls, succeed, unsound⟩ := run
  exact unsound (sound calls succeed)

end Kemu.Init.MemRuns
