import Kemu.Init.MemRuns
import Mathlib.Data.List.Pairwise

/-!
# Translation between guest and host addresses

`guest_flat_to_host` and `host_to_guest_flat` look for the first bank that an
address lies in.  Reserved banks are in the same list with a null pointer as
host address, so that the search takes them for banks at the start of the
host's address space.
-/

namespace Kemu.Init.FlatTranslation

open Kemu.Init.MemBanks
open Kemu.Init.MemRuns
open Kemu.Lib.ClosedInterval
open Kemu.Lib.Transition

/-! ## The functions -/

/-- The test of `guest_flat_to_host`. -/
def coversGuest (offset : UInt64) (bank : KvmMemBank) : Bool :=
  let bankStart := bank.guestPhysAddr
  let bankEnd := bankStart + bank.size
  offset ≥ bankStart && offset < bankEnd

/-- `guest_flat_to_host`. -/
def guestFlatToHost (banks : List KvmMemBank) (offset : UInt64) : UInt64 :=
  match banks.find? (coversGuest offset) with
  | some bank => bank.hostAddr + (offset - bank.guestPhysAddr)
  | none => 0

/-- The test of `host_to_guest_flat`. -/
def coversHost (ptr : UInt64) (bank : KvmMemBank) : Bool :=
  let bankStart := bank.hostAddr
  let bankEnd := bankStart + bank.size
  ptr ≥ bankStart && ptr < bankEnd

/-- `host_to_guest_flat`. -/
def hostToGuestFlat (banks : List KvmMemBank) (ptr : UInt64) : UInt64 :=
  match banks.find? (coversHost ptr) with
  | some bank => bank.guestPhysAddr + (ptr - bank.hostAddr)
  | none => 0

/-! ## What is expected -/

/-- A bank with memory of the host behind it. -/
def HasMemory (bank : KvmMemBank) : Prop :=
  bank.type ≠ kvmMemTypeReserved

/-- The host addresses of a bank. -/
def hostSpan (bank : KvmMemBank) : IntervalOf Nat :=
  spanOf bank.hostAddr bank.size

/-- A guest address in a bank with memory. -/
def Backed (banks : List KvmMemBank) (addr : UInt64) : Prop :=
  ∃ bank ∈ banks, HasMemory bank ∧ bank.span.Holds addr.toNat

/-- A host address in a bank with memory. -/
def HostBacked (banks : List KvmMemBank) (ptr : UInt64) : Prop :=
  ∃ bank ∈ banks, HasMemory bank ∧
    (hostSpan bank).Holds ptr.toNat

/--
Exactly the addresses with memory have a host address, and the functions are
inverses of each other on memory.
-/
structure Translates (banks : List KvmMemBank) : Prop where
  nonNull : ∀ addr, guestFlatToHost banks addr ≠ 0 ↔ Backed banks addr
  guestBack :
    ∀ addr, Backed banks addr →
      hostToGuestFlat banks (guestFlatToHost banks addr) = addr
  hostBack :
    ∀ ptr, HostBacked banks ptr →
      guestFlatToHost banks (hostToGuestFlat banks ptr) = ptr
  distinct :
    ∀ addr other, Backed banks addr → Backed banks other →
      addr ≠ other →
        guestFlatToHost banks addr ≠ guestFlatToHost banks other

/--
No bank with memory ends with the address space, every reserved bank has one
byte or ends there, and the memory of a bank behind a reserved one does not
begin at a host address below the size of that one.
-/
structure Clear (banks : List KvmMemBank) : Prop where
  memory :
    ∀ bank ∈ banks, HasMemory bank →
      bank.guestPhysAddr + bank.size ≠ 0
  reserved :
    ∀ bank ∈ banks, bank.type = kvmMemTypeReserved →
      bank.size = 1 ∨ bank.guestPhysAddr + bank.size = 0
  behind :
    banks.Pairwise fun first second =>
      first.type = kvmMemTypeReserved → HasMemory second →
        first.size ≤ second.hostAddr

/-- A range of host addresses: not null, and with an end. -/
def HostRange (start size : UInt64) : Prop :=
  0 < start ∧ start.toNat + size.toNat < 2 ^ 64

/--
What callers promise of a registration: the range is not empty and does not
wrap, a reserved one has no host address, and memory is a range of host
addresses that shares none with other memory.
-/
def Granted (state : MemState) : MemCall → Prop
  | .register request _ _ =>
      request.WellFormed ∧
        (request.type = kvmMemTypeReserved → request.userspaceAddr = 0) ∧
        (request.type ≠ kvmMemTypeReserved →
          HostRange request.userspaceAddr request.size ∧
            ∀ bank ∈ state.kvm.memBanks, HasMemory bank →
              ¬ (hostSpan bank).Meets
                (spanOf request.userspaceAddr request.size))
  | .destroy _ _ _ _ => True

/-- No reserved bank is grown before a bank in the way is found. -/
def Whole (state : MemState) : MemCall → Prop
  | .register request _ _ =>
      MergesNothingFirst state.kvm.memBanks request.type request.span
  | .destroy _ _ _ _ => True

/-! ## The tests as intervals -/

/-- A range that ends with the address space seems to have no address. -/
theorem covers_iff {start size value : UInt64} :
    (value ≥ start ∧ value < start + size) ↔
      (spanOf start size).Holds value.toNat ∧ start + size ≠ 0 := by
  have one : (1 : UInt64).toNat = 1 := rfl
  rw [IntervalOf.Holds, spanOf, UInt64.toNat_sub, one, ge_iff_le,
    UInt64.le_iff_toNat_le, UInt64.lt_iff_toNat_lt, ne_eq,
    ← UInt64.toNat_inj, UInt64.toNat_zero]
  have bound := UInt64.toNat_lt (start + size)
  dsimp only
  omega

/-- A place in one range, moved to a range of the same size. -/
theorem holds_moved {start size other value : UInt64}
    (holds : (spanOf start size).Holds value.toNat)
    (nonempty : (spanOf other size).Nonempty) :
    (spanOf other size).Holds (other + (value - start)).toNat ∧
      (other + (value - start)).toNat =
        other.toNat + (value.toNat - start.toNat) := by
  have one : (1 : UInt64).toNat = 1 := rfl
  rw [IntervalOf.Nonempty, spanOf, UInt64.toNat_sub, UInt64.toNat_add,
    one] at nonempty
  rw [IntervalOf.Holds, spanOf, UInt64.toNat_sub, UInt64.toNat_add,
    one] at holds
  rw [IntervalOf.Holds, spanOf, UInt64.toNat_sub, UInt64.toNat_add,
    UInt64.toNat_add, UInt64.toNat_sub, one]
  have left := UInt64.toNat_lt start
  have right := UInt64.toNat_lt other
  have width := UInt64.toNat_lt size
  have bound := UInt64.toNat_lt value
  dsimp only at nonempty holds ⊢
  omega

theorem moved_back (start other value : UInt64) :
    start + (other + (value - start) - other) = value := by
  grind

theorem HostRange.nonempty {start size : UInt64} (range : HostRange start size)
    (positive : 0 < size) : (spanOf start size).Nonempty :=
  spanOf_nonempty positive (Nat.le_of_lt range.2)

section Banks

variable {banks : List KvmMemBank} {bank other : KvmMemBank}
  {addr ptr : UInt64}

theorem coversGuest_iff :
    coversGuest addr bank = true ↔
      bank.span.Holds addr.toNat ∧ bank.guestPhysAddr + bank.size ≠ 0 := by
  rw [coversGuest, Bool.and_eq_true, decide_eq_true_iff,
    decide_eq_true_iff]
  exact covers_iff

theorem coversHost_iff :
    coversHost ptr bank = true ↔
      (hostSpan bank).Holds ptr.toNat ∧ bank.hostAddr + bank.size ≠ 0 := by
  rw [coversHost, Bool.and_eq_true, decide_eq_true_iff,
    decide_eq_true_iff]
  exact covers_iff

/-- The host address of a reserved bank is null. -/
theorem coversHost_null (null : bank.hostAddr = 0) :
    coversHost ptr bank = true ↔ ptr < bank.size := by
  rw [coversHost, Bool.and_eq_true, decide_eq_true_iff,
    decide_eq_true_iff, null, UInt64.zero_add]
  exact and_iff_right UInt64.zero_le

/-- The banks as registrations leave them. -/
structure Mapped (banks : List KvmMemBank) : Prop where
  separate : Separate banks
  null :
    ∀ bank ∈ banks, bank.type = kvmMemTypeReserved → bank.hostAddr = 0
  host :
    ∀ bank ∈ banks, HasMemory bank →
      0 < bank.size ∧ HostRange bank.hostAddr bank.size
  apart :
    banks.Pairwise fun first second =>
      HasMemory first → HasMemory second →
        ¬ (hostSpan first).Meets (hostSpan second)

/-- Banks of a separate list with an address in common are the same. -/
theorem same_bank (separate : Separate banks) {point : Nat}
    (member : bank ∈ banks) (holds : bank.span.Holds point)
    (others : other ∈ banks) (shared : other.span.Holds point) :
    other = bank := by
  by_contra different
  have symmetric :
      Std.Symm fun first second : KvmMemBank =>
        ¬ first.span.Meets second.span :=
    ⟨fun _ _ apart meets => apart meets.symm⟩
  have apart := separate.apart.forall others member different
  exact IntervalOf.not_holds_of_not_meets apart point ⟨shared, holds⟩

/-- A bank that does not end with the address space is found. -/
theorem guestFlatToHost_eq (separate : Separate banks)
    (member : bank ∈ banks) (holds : bank.span.Holds addr.toNat)
    (ends : bank.guestPhysAddr + bank.size ≠ 0) :
    guestFlatToHost banks addr =
      bank.hostAddr + (addr - bank.guestPhysAddr) := by
  cases found : banks.find? (coversGuest addr) with
  | none =>
      have missed := List.find?_eq_none.1 found bank member
      exact absurd (coversGuest_iff.2 ⟨holds, ends⟩) missed
  | some first =>
      have covered := coversGuest_iff.1 (List.find?_some found)
      have same :=
        same_bank separate member holds (List.mem_of_find?_eq_some found)
          covered.1
      rw [guestFlatToHost, found, same]

/-- No other bank is found. -/
theorem exists_of_guestFlatToHost (translated : guestFlatToHost banks addr ≠ 0) :
    ∃ bank ∈ banks, bank.span.Holds addr.toNat ∧
      bank.guestPhysAddr + bank.size ≠ 0 := by
  cases found : banks.find? (coversGuest addr) with
  | none =>
      rw [guestFlatToHost, found] at translated
      exact absurd rfl translated
  | some bank =>
      exact
        ⟨bank, List.mem_of_find?_eq_some found,
          coversGuest_iff.1 (List.find?_some found)⟩

/-- The pointer of a bank with memory is found behind banks without it. -/
theorem hostToGuestFlat_eq (mapped : Mapped banks) (clear : Clear banks)
    (member : bank ∈ banks) (memory : HasMemory bank)
    (holds : (hostSpan bank).Holds ptr.toNat) :
    hostToGuestFlat banks ptr =
      bank.guestPhysAddr + (ptr - bank.hostAddr) := by
  obtain ⟨-, -, fits⟩ := mapped.host bank member memory
  have first : bank.hostAddr.toNat ≤ ptr.toNat := holds.1
  have ends : bank.hostAddr + bank.size ≠ 0 := by
    intro zero
    have positive := (mapped.host bank member memory).1
    rw [← UInt64.toNat_inj, UInt64.toNat_add, Nat.mod_eq_of_lt fits,
      UInt64.toNat_zero] at zero
    rw [UInt64.lt_iff_toNat_lt, UInt64.toNat_zero] at positive
    omega
  obtain ⟨front, back, rfl⟩ := List.append_of_mem member
  have missed : ∀ other ∈ front, (!coversHost ptr other) = true := by
    intro other earlier
    have others : other ∈ front ++ bank :: back :=
      List.mem_append_left _ earlier
    rw [Bool.not_eq_true', ← Bool.not_eq_true]
    by_cases reserved : other.type = kvmMemTypeReserved
    · have small :=
        (List.pairwise_append.1 clear.behind).2.2 other earlier bank
          List.mem_cons_self reserved memory
      rw [coversHost_null (mapped.null other others reserved),
        UInt64.lt_iff_toNat_lt]
      rw [UInt64.le_iff_toNat_le] at small
      omega
    · have apart :=
        (List.pairwise_append.1 mapped.apart).2.2 other earlier bank
          List.mem_cons_self reserved memory
      rw [coversHost_iff]
      exact fun covered =>
        IntervalOf.not_holds_of_not_meets apart _ ⟨covered.1, holds⟩
  have found : (front ++ bank :: back).find? (coversHost ptr) = some bank :=
    List.find?_eq_some_iff_append.2
      ⟨coversHost_iff.2 ⟨holds, ends⟩, front, back, rfl, missed⟩
  rw [hostToGuestFlat, found]

/-! ## Clear banks -/

theorem Mapped.guestNonempty (mapped : Mapped banks) (member : bank ∈ banks) :
    bank.span.Nonempty :=
  mapped.separate.nonempty bank member

theorem Mapped.hostNonempty (mapped : Mapped banks) (member : bank ∈ banks)
    (memory : HasMemory bank) : (hostSpan bank).Nonempty :=
  (mapped.host bank member memory).2.nonempty
    (mapped.host bank member memory).1

/-- What a backed address is translated to. -/
theorem translate_backed (mapped : Mapped banks) (clear : Clear banks)
    (backed : Backed banks addr) :
    ∃ bank ∈ banks, HasMemory bank ∧
      guestFlatToHost banks addr =
        bank.hostAddr + (addr - bank.guestPhysAddr) ∧
      (hostSpan bank).Holds (guestFlatToHost banks addr).toNat ∧
      bank.hostAddr.toNat ≤ (guestFlatToHost banks addr).toNat := by
  obtain ⟨bank, member, memory, holds⟩ := backed
  have image :=
    guestFlatToHost_eq mapped.separate member holds
      (clear.memory bank member memory)
  obtain ⟨inside, value⟩ :=
    holds_moved holds (mapped.hostNonempty member memory)
  refine ⟨bank, member, memory, image, ?_, ?_⟩
  · rw [image]
    exact inside
  · rw [image, value]
    exact Nat.le_add_right _ _

/-- An address without memory is not translated, or to the null pointer. -/
theorem translate_unbacked (mapped : Mapped banks) (clear : Clear banks)
    (translated : guestFlatToHost banks addr ≠ 0) : Backed banks addr := by
  obtain ⟨bank, member, holds, ends⟩ :=
    exists_of_guestFlatToHost translated
  refine ⟨bank, member, fun reserved => translated ?_, holds⟩
  have one := (clear.reserved bank member reserved).resolve_right ends
  have first : addr = bank.guestPhysAddr := by
    have only : bank.guestPhysAddr + 1 - 1 = bank.guestPhysAddr := by
      grind
    rw [KvmMemBank.span, spanOf, one, only] at holds
    exact UInt64.toNat_inj.1 (Nat.le_antisymm holds.2 holds.1)
  rw [guestFlatToHost_eq mapped.separate member holds ends, first,
    mapped.null bank member reserved, UInt64.sub_self]
  rfl

theorem Clear.translates (clear : Clear banks) (mapped : Mapped banks) :
    Translates banks := by
  have back : ∀ addr, Backed banks addr →
      hostToGuestFlat banks (guestFlatToHost banks addr) = addr := by
    intro addr backed
    obtain ⟨bank, member, memory, image, inside, -⟩ :=
      translate_backed mapped clear backed
    rw [hostToGuestFlat_eq mapped clear member memory inside, image,
      moved_back]
  refine ⟨?_, back, ?_, ?_⟩
  · intro addr
    refine ⟨translate_unbacked mapped clear, fun backed null => ?_⟩
    obtain ⟨bank, member, memory, -, -, least⟩ :=
      translate_backed mapped clear backed
    have positive := (mapped.host bank member memory).2.1
    rw [null, UInt64.toNat_zero] at least
    rw [UInt64.lt_iff_toNat_lt, UInt64.toNat_zero] at positive
    omega
  · rintro ptr ⟨bank, member, memory, holds⟩
    have image := hostToGuestFlat_eq mapped clear member memory holds
    have inside := (holds_moved holds (mapped.guestNonempty member)).1
    rw [← image] at inside
    rw [guestFlatToHost_eq mapped.separate member inside
      (clear.memory bank member memory), image, moved_back]
  · intro addr other backed otherBacked different same
    have returned := back addr backed
    rw [same, back other otherBacked] at returned
    exact different returned.symm

/-! ## Banks that are not clear -/

theorem Translates.memory (translates : Translates banks)
    (mapped : Mapped banks) (member : bank ∈ banks)
    (memory : HasMemory bank) : bank.guestPhysAddr + bank.size ≠ 0 := by
  have holds : bank.span.Holds bank.guestPhysAddr.toNat :=
    ⟨Nat.le_refl _, mapped.guestNonempty member⟩
  have translated :=
    (translates.nonNull bank.guestPhysAddr).2 ⟨bank, member, memory, holds⟩
  obtain ⟨other, others, shared, ends⟩ :=
    exists_of_guestFlatToHost translated
  rwa [same_bank mapped.separate member holds others shared] at ends

/-- The second address of a reserved bank has the host address one. -/
theorem Translates.reserved (translates : Translates banks)
    (mapped : Mapped banks) (member : bank ∈ banks)
    (reserved : bank.type = kvmMemTypeReserved) :
    bank.size = 1 ∨ bank.guestPhysAddr + bank.size = 0 := by
  by_contra more
  obtain ⟨size, ends⟩ := not_or.1 more
  have one : (1 : UInt64).toNat = 1 := rfl
  have holds : bank.span.Holds (bank.guestPhysAddr + 1).toNat := by
    have nonempty := mapped.guestNonempty member
    have width := UInt64.toNat_lt bank.size
    have bound := UInt64.toNat_lt bank.guestPhysAddr
    rw [IntervalOf.Nonempty, KvmMemBank.span, spanOf, UInt64.toNat_sub,
      UInt64.toNat_add, one] at nonempty
    rw [← UInt64.toNat_inj, UInt64.toNat_add, UInt64.toNat_zero] at ends
    rw [← UInt64.toNat_inj, one] at size
    rw [IntervalOf.Holds, KvmMemBank.span, spanOf, UInt64.toNat_sub,
      UInt64.toNat_add, UInt64.toNat_add, one]
    dsimp only at nonempty ⊢
    omega
  have image : guestFlatToHost banks (bank.guestPhysAddr + 1) = 1 := by
    rw [guestFlatToHost_eq mapped.separate member holds ends,
      mapped.null bank member reserved]
    grind
  have translated : guestFlatToHost banks (bank.guestPhysAddr + 1) ≠ 0 := by
    rw [image]
    decide
  obtain ⟨other, others, memory, shared⟩ :=
    (translates.nonNull _).1 translated
  rw [same_bank mapped.separate member holds others shared] at memory
  exact memory reserved

/-- An address in a reserved bank from a small pointer. -/
theorem holds_small {start size small : UInt64}
    (nonempty : (spanOf start size).Nonempty) (less : small < size) :
    (spanOf start size).Holds (start + small).toNat := by
  have one : (1 : UInt64).toNat = 1 := rfl
  have left := UInt64.toNat_lt start
  have width := UInt64.toNat_lt size
  rw [UInt64.lt_iff_toNat_lt] at less
  rw [IntervalOf.Nonempty, spanOf, UInt64.toNat_sub, UInt64.toNat_add,
    one] at nonempty
  rw [IntervalOf.Holds, spanOf, UInt64.toNat_sub, UInt64.toNat_add,
    UInt64.toNat_add, one]
  dsimp only at nonempty ⊢
  omega

/-- The first bank that a pointer to memory lies in has memory. -/
theorem Translates.found_memory (translates : Translates banks)
    (mapped : Mapped banks) (member : bank ∈ banks)
    (memory : HasMemory bank) (others : other ∈ banks)
    (found : banks.find? (coversHost bank.hostAddr) = some other) :
    HasMemory other := by
  intro reserved
  have null := mapped.null other others reserved
  have holds : bank.span.Holds bank.guestPhysAddr.toNat :=
    ⟨Nat.le_refl _, mapped.guestNonempty member⟩
  have image : guestFlatToHost banks bank.guestPhysAddr = bank.hostAddr := by
    rw [guestFlatToHost_eq mapped.separate member holds
      (translates.memory mapped member memory), UInt64.sub_self,
      UInt64.add_zero]
  have returned :=
    translates.guestBack bank.guestPhysAddr ⟨bank, member, memory, holds⟩
  rw [image, hostToGuestFlat, found] at returned
  dsimp only at returned
  rw [null, UInt64.sub_zero] at returned
  have small := (coversHost_null null).1 (List.find?_some found)
  have shared := holds_small (mapped.guestNonempty others) small
  rw [returned] at shared
  have same := same_bank mapped.separate member holds others shared
  rw [same] at reserved
  exact memory reserved

/-- A pointer is not mistaken for one into a reserved bank. -/
theorem Translates.behind (translates : Translates banks)
    (mapped : Mapped banks) :
    banks.Pairwise fun first second =>
      first.type = kvmMemTypeReserved → HasMemory second →
        first.size ≤ second.hostAddr := by
  refine List.pairwise_iff_getElem.2 ?_
  intro early late inFront inBack before reserved memory
  by_contra large
  have null := mapped.null _ (List.getElem_mem inFront) reserved
  have covered : coversHost banks[late].hostAddr banks[early] = true :=
    (coversHost_null null).2 (UInt64.not_le.1 large)
  obtain ⟨first, found⟩ :
      ∃ first, banks.find? (coversHost banks[late].hostAddr) =
        some first :=
    Option.isSome_iff_exists.1
      (List.find?_isSome.2 ⟨_, List.getElem_mem inFront, covered⟩)
  have firstMemory :=
    translates.found_memory mapped (List.getElem_mem inBack) memory
      (List.mem_of_find?_eq_some found) found
  obtain ⟨covers, place, inside, rfl, missed⟩ :=
    List.find?_eq_some_iff_getElem.1 found
  have placed : place < late := by
    refine Nat.lt_of_le_of_lt (Nat.not_lt.1 fun later => ?_) before
    have miss := missed early later
    rw [covered] at miss
    cases miss
  have apart :=
    List.pairwise_iff_getElem.1 mapped.apart place late inside inBack placed
      firstMemory memory
  have holds :
      (hostSpan banks[late]).Holds banks[late].hostAddr.toNat :=
    ⟨Nat.le_refl _, mapped.hostNonempty (List.getElem_mem inBack) memory⟩
  exact
    IntervalOf.not_holds_of_not_meets apart _
      ⟨(coversHost_iff.1 covers).1, holds⟩

theorem translates_iff_clear (mapped : Mapped banks) :
    Translates banks ↔ Clear banks :=
  ⟨fun translates =>
      ⟨fun _ member => translates.memory mapped member,
        fun _ member => translates.reserved mapped member,
        translates.behind mapped⟩,
    fun clear => clear.translates mapped⟩

end Banks

/-! ## What registrations keep -/

instance (bank : KvmMemBank) : Decidable (HasMemory bank) :=
  inferInstanceAs (Decidable (_ ≠ _))

/-- The banks with memory. -/
def memories (banks : List KvmMemBank) : List KvmMemBank :=
  banks.filter fun bank => HasMemory bank

/-- The host address of every reserved bank is null. -/
def Nulls (banks : List KvmMemBank) : Prop :=
  ∀ bank ∈ banks, bank.type = kvmMemTypeReserved → bank.hostAddr = 0

section Kept

variable {old new banks rest : List KvmMemBank} {bank : KvmMemBank}
  {scan done : Scan} {type : UInt32}

theorem memories_append (front back : List KvmMemBank) :
    memories (front ++ back) = memories front ++ memories back :=
  List.filter_append ..

theorem memories_reserved (reserved : bank.type = kvmMemTypeReserved) :
    memories [bank] = [] :=
  List.filter_eq_nil_iff.2 (by simp [HasMemory, reserved])

theorem memories_cons_reserved (reserved : bank.type = kvmMemTypeReserved) :
    memories (bank :: rest) = memories rest := by
  rw [← List.singleton_append, memories_append, memories_reserved reserved,
    List.nil_append]

theorem memories_toList {merged : Option KvmMemBank}
    (reserved : ∀ bank ∈ merged, bank.type = kvmMemTypeReserved) :
    memories merged.toList = [] := by
  cases merged with
  | none => rfl
  | some bank => exact memories_reserved (reserved bank rfl)

/-- Growing a reserved bank leaves the banks with memory. -/
theorem memories_merge
    (merged : ∀ bank ∈ scan.merged, bank.type = kvmMemTypeReserved)
    (reserved : bank.type = kvmMemTypeReserved) :
    memories ((scan.merge bank).visited ++ rest) =
      memories (scan.visited ++ bank :: rest) := by
  have grown : (scan.grow bank).type = kvmMemTypeReserved := reserved
  have visited :
      (scan.merge bank).visited =
        scan.before ++ scan.after ++ [scan.grow bank] :=
    List.append_nil _
  rw [visited, Scan.visited, memories_append, memories_append,
    memories_append, memories_reserved grown, memories_append,
    memories_append, memories_append, memories_toList merged,
    memories_cons_reserved reserved, List.append_nil, List.append_nil]

theorem memories_scan (success : scanBanks type scan rest = .ok done)
    (merged : ∀ bank ∈ scan.merged, bank.type = kvmMemTypeReserved) :
    memories done.visited = memories (scan.visited ++ rest) := by
  induction rest generalizing scan with
  | nil =>
      cases success
      rw [List.append_nil]
  | cons bank rest induction =>
      by_cases meets : bank.span.Meets scan.span
      · by_cases reserved :
            bank.type = kvmMemTypeReserved ∧ type = kvmMemTypeReserved
        · rw [scanBanks_merge meets reserved] at success
          rw [← memories_merge merged reserved.1]
          refine induction success ?_
          rintro grown ⟨⟩
          exact reserved.1
        · rw [scanBanks_block meets reserved] at success
          cases success
      · rw [scanBanks_pass meets] at success
        rw [← pass_merged] at merged
        rw [induction success merged, visited_pass, List.append_assoc]
        rfl

/-- The grown bank has the host address it had. -/
theorem nulls_merge (nulls : Nulls (scan.visited ++ bank :: rest)) :
    Nulls ((scan.merge bank).visited ++ rest) := by
  have visited :
      (scan.merge bank).visited =
        scan.before ++ scan.after ++ [scan.grow bank] :=
    List.append_nil _
  intro other member reserved
  rw [visited, List.mem_append, List.mem_append, List.mem_append,
    List.mem_singleton] at member
  rw [Nulls, Scan.visited] at nulls
  rcases member with ((before | after) | rfl) | later
  · exact nulls other (by simp [before]) reserved
  · exact nulls other (by simp [after]) reserved
  · exact nulls bank (by simp) reserved
  · exact nulls other (by simp [later]) reserved

theorem nulls_scan (success : scanBanks type scan rest = .ok done)
    (nulls : Nulls (scan.visited ++ rest)) : Nulls done.visited := by
  induction rest generalizing scan with
  | nil =>
      cases success
      rwa [List.append_nil] at nulls
  | cons bank rest induction =>
      by_cases meets : bank.span.Meets scan.span
      · by_cases reserved :
            bank.type = kvmMemTypeReserved ∧ type = kvmMemTypeReserved
        · rw [scanBanks_merge meets reserved] at success
          exact induction success (nulls_merge nulls)
        · rw [scanBanks_block meets reserved] at success
          cases success
      · rw [scanBanks_pass meets] at success
        refine induction success ?_
        rwa [visited_pass, List.append_assoc]

/-- The conditions on the host addresses of the banks with memory. -/
theorem mapped_iff :
    Mapped banks ↔
      Separate banks ∧ Nulls banks ∧
        (∀ bank ∈ memories banks,
          0 < bank.size ∧ HostRange bank.hostAddr bank.size) ∧
        (memories banks).Pairwise fun first second =>
          ¬ (hostSpan first).Meets (hostSpan second) := by
  have pairs :
      (memories banks).Pairwise
          (fun first second =>
            ¬ (hostSpan first).Meets (hostSpan second)) ↔
        banks.Pairwise fun first second =>
          HasMemory first → HasMemory second →
            ¬ (hostSpan first).Meets (hostSpan second) := by
    rw [memories, List.pairwise_filter]
    simp only [decide_eq_true_iff]
  have each :
      (∀ bank ∈ memories banks,
          0 < bank.size ∧ HostRange bank.hostAddr bank.size) ↔
        ∀ bank ∈ banks, HasMemory bank →
          0 < bank.size ∧ HostRange bank.hostAddr bank.size := by
    simp only [memories, List.mem_filter, decide_eq_true_iff, and_imp]
  rw [pairs, each]
  exact
    ⟨fun mapped =>
        ⟨mapped.separate, mapped.null, mapped.host, mapped.apart⟩,
      fun ⟨separate, null, host, apart⟩ => ⟨separate, null, host, apart⟩⟩

end Kept

/-! ## Every run -/

section Runs

variable {state : MemState} {call : MemCall}

theorem mapped_sublist {few banks : List KvmMemBank}
    (mapped : Mapped banks) (part : few.Sublist banks) : Mapped few where
  separate :=
    ⟨fun bank member => mapped.separate.nonempty bank (part.subset member),
      mapped.separate.apart.sublist part⟩
  null bank member := mapped.null bank (part.subset member)
  host bank member := mapped.host bank (part.subset member)
  apart := mapped.apart.sublist part

/-- A bank put between others. -/
theorem Mapped.insert {front back : List KvmMemBank} {bank : KvmMemBank}
    (mapped : Mapped (front ++ back))
    (separate : Separate (front ++ bank :: back))
    (null : bank.type = kvmMemTypeReserved → bank.hostAddr = 0)
    (host :
      HasMemory bank →
        (0 < bank.size ∧ HostRange bank.hostAddr bank.size) ∧
          ∀ other ∈ front ++ back, HasMemory other →
            ¬ (hostSpan other).Meets (hostSpan bank)) :
    Mapped (front ++ bank :: back) := by
  have cases {other : KvmMemBank} (member : other ∈ front ++ bank :: back) :
      other = bank ∨ other ∈ front ++ back := by
    rwa [List.perm_middle.mem_iff, List.mem_cons] at member
  obtain ⟨before, after, across⟩ := List.pairwise_append.1 mapped.apart
  refine ⟨separate, ?_, ?_, ?_⟩
  · intro other member
    rcases cases member with rfl | old
    · exact null
    · exact mapped.null other old
  · intro other member memory
    rcases cases member with rfl | old
    · exact (host memory).1
    · exact mapped.host other old memory
  · refine List.pairwise_append.2
      ⟨before, List.pairwise_cons.2 ⟨?_, after⟩, ?_⟩
    · intro other later memory otherMemory meets
      exact
        (host memory).2 other (List.mem_append_right _ later) otherMemory
          meets.symm
    · intro other earlier second member otherMemory memory
      rcases List.mem_cons.1 member with rfl | old
      · exact
          (host memory).2 other (List.mem_append_left _ earlier) otherMemory
      · exact across other earlier second old otherMemory memory

/-- A registration that succeeds. -/
theorem Mapped.register {kvm : KvmMem} {request : RegisterRequest}
    {malloc : Bool} {ioctl : SetRegion} (mapped : Mapped kvm.memBanks)
    (granted :
      request.WellFormed ∧
        (request.type = kvmMemTypeReserved → request.userspaceAddr = 0) ∧
        (request.type ≠ kvmMemTypeReserved →
          HostRange request.userspaceAddr request.size ∧
            ∀ bank ∈ kvm.memBanks, HasMemory bank →
              ¬ (hostSpan bank).Meets
                (spanOf request.userspaceAddr request.size)))
    (success : (kvmRegisterMem kvm request malloc ioctl).1 = 0) :
    Mapped (kvmRegisterMem kvm request malloc ioctl).2.memBanks := by
  obtain ⟨wellFormed, null, host⟩ := granted
  obtain ⟨scan, outcome, ⟨merged, banks⟩ | ⟨unmerged, banks⟩⟩ :=
    register_success success
  · obtain ⟨bank, last⟩ := Option.ne_none_iff_exists'.1 merged
    obtain ⟨kind, -⟩ := scanBanks_ok_merged outcome rfl merged
    have nulls := nulls_scan outcome mapped.null
    have kept : memories scan.visited = memories kvm.memBanks :=
      memories_scan outcome nofun
    obtain ⟨-, -, hosts, apart⟩ := mapped_iff.1 mapped
    rw [kind] at outcome
    have separate :=
      ((scanning_start mapped.separate wellFormed).done
        outcome).separate_visited last
    rw [banks, mapped_iff, kept]
    exact ⟨separate, nulls, hosts, apart⟩
  · obtain ⟨visited, start, size, -, apart⟩ :=
      scanBanks_ok_unmerged outcome unmerged
    have whole : scan.visited = kvm.memBanks := visited
    have sized : scan.size = request.size := size
    have started : scan.guestPhys = request.guestPhys := start
    rw [banks, whole, sized, started]
    have old := mapped
    rw [← List.take_append_drop scan.prevEntry kvm.memBanks] at old
    refine old.insert ?_ null ?_
    · rw [separate_middle, List.take_append_drop, separate_cons_iff]
      exact
        ⟨spanOf_nonempty wellFormed.1 wellFormed.2,
          fun other member meets => apart other member meets.symm,
          mapped.separate⟩
    · intro memory
      rw [List.take_append_drop]
      exact ⟨⟨wellFormed.1, (host memory).1⟩, (host memory).2⟩

/-- A bank that is not taken out leaves the list alone. -/
theorem kvmDestroyMem_failure {kvm : KvmMem}
    {guestPhys size userspaceAddr : UInt64} {ioctl : SetRegion}
    (failure :
      (kvmDestroyMem kvm guestPhys size userspaceAddr ioctl).1 ≠ 0) :
    (kvmDestroyMem kvm guestPhys size userspaceAddr ioctl).2 = kvm := by
  rw [kvmDestroyMem] at failure ⊢
  dsimp only at failure ⊢
  split at failure
  case h_1 => rfl
  case h_2 bank found =>
    split
    case isTrue => rfl
    case isFalse kind =>
      rw [if_neg kind] at failure
      split at failure
      case h_1 => rfl
      case h_2 => exact absurd rfl failure

theorem Mapped.step (mapped : Mapped state.kvm.memBanks)
    (granted : Granted state call) (whole : Whole state call) :
    Mapped (memStep state call).kvm.memBanks := by
  cases call with
  | register request malloc ioctl =>
      by_cases success :
          (kvmRegisterMem state.kvm request malloc ioctl).1 = 0
      · exact mapped.register granted success
      · have same :=
          (register_failure_atomic_iff state.kvm request malloc ioctl
            mapped.separate).2 whole success
        show Mapped (kvmRegisterMem state.kvm request malloc ioctl).2.memBanks
        rwa [same]
  | destroy guestPhys size userspaceAddr ioctl =>
      show
        Mapped
          (kvmDestroyMem state.kvm guestPhys size userspaceAddr
            ioctl).2.memBanks
      by_cases success :
          (kvmDestroyMem state.kvm guestPhys size userspaceAddr ioctl).1 = 0
      · obtain ⟨front, bank, back, before, -, after⟩ :=
          kvmDestroyMem_success success
        rw [before] at mapped
        rw [after]
        exact
          mapped_sublist mapped
            ((List.sublist_cons_self bank back).append_left front)
      · rwa [kvmDestroyMem_failure success]

theorem memStart_mapped : Mapped memStart.kvm.memBanks where
  separate := ⟨nofun, List.Pairwise.nil⟩
  null := nofun
  host := nofun
  apart := List.Pairwise.nil

end Runs

/-! ## The result -/

/--
In every run of calls as callers make them that grow no reserved bank before
they find a bank in the way, guest and host addresses are translated as they
should be exactly when the banks are clear.
-/
theorem flat_translation_iff (calls : List MemCall)
    (granted : Along memStep Granted memStart calls)
    (whole : Along memStep Whole memStart calls) :
    Translates (run memStep memStart calls).kvm.memBanks ↔
      Clear (run memStep memStart calls).kvm.memBanks := by
  have kept :
      ∀ state call, Mapped state.kvm.memBanks →
        Granted state call ∧ Whole state call →
          Mapped (memStep state call).kvm.memBanks :=
    fun _ _ mapped both => mapped.step both.1 both.2
  have mapped : Mapped (run memStep memStart calls).kvm.memBanks :=
    run_invariant kept memStart_mapped (granted.and whole)
  exact translates_iff_clear mapped

/-- A page of memory, and a reserved byte behind it. -/
def smallCalls : List MemCall :=
  [.register ⟨0x1000, 0x1000, 0x700000000000, 1⟩ true fun _ => none,
    .register ⟨0x4000, 1, 0, kvmMemTypeReserved⟩ true fun _ => none]

theorem smallCalls_granted : Along memStep Granted memStart smallCalls :=
  ⟨⟨⟨by decide, by decide⟩, nofun, fun _ => ⟨⟨by decide, by decide⟩, nofun⟩⟩,
    ⟨⟨by decide, by decide⟩, fun _ => rfl, fun other => absurd rfl other⟩,
    trivial⟩

theorem smallCalls_whole : Along memStep Whole memStart smallCalls :=
  ⟨Or.inl (by decide), Or.inr (Or.inl (by decide)), trivial⟩

/-- A page of memory and a reserved byte. -/
theorem flat_translation_on_small :
    Translates (run memStep memStart smallCalls).kvm.memBanks ↔
      Clear (run memStep memStart smallCalls).kvm.memBanks :=
  flat_translation_iff smallCalls smallCalls_granted smallCalls_whole

/-- The second byte of a reserved page has the host address one. -/
theorem reserved_page_translated :
    ¬ ∀ calls, Along memStep Granted memStart calls →
        Along memStep Whole memStart calls →
        Translates (run memStep memStart calls).kvm.memBanks := by
  intro always
  let page : List MemCall :=
    [.register ⟨0xfee00000, 0x1000, 0, kvmMemTypeReserved⟩ true
      fun _ => none]
  have granted : Along memStep Granted memStart page :=
    ⟨⟨⟨by decide, by decide⟩, fun _ => rfl, fun other => absurd rfl other⟩,
      trivial⟩
  have whole : Along memStep Whole memStart page :=
    ⟨Or.inr (Or.inl nofun), trivial⟩
  have translates := always page granted whole
  have banks :
      (run memStep memStart page).kvm.memBanks =
        [⟨0xfee00000, 0, 0x1000, kvmMemTypeReserved, 0⟩] := by
    decide
  rw [banks] at translates
  obtain ⟨bank, member, memory, -⟩ :=
    (translates.nonNull 0xfee00001).1 (by decide)
  rw [List.mem_singleton.1 member] at memory
  exact memory rfl

end Kemu.Init.FlatTranslation
