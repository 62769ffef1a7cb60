import Kemu.Arch.Bzimage
import Mathlib.Data.Nat.Bitwise

/-!
# Where the initial ramdisk is placed

The search takes an address from which the ramdisk would end before the end
of the memory.  It knows neither of the gap nor of the kernel, takes the
greatest address allowed for one to start at, and finds that a ramdisk that
is larger than the memory fits anywhere.
-/

namespace Kemu.Arch.InitrdPlace

open Kemu.Arch.Bzimage
open Kemu.Init.FlatTranslation
open Kemu.Init.MemBanks

/-! ## What is expected -/

/-- The addresses of the ramdisk. -/
def Holds (place : Place) (addr : Nat) : Prop :=
  place.addr.toNat ≤ addr ∧ addr < place.addr.toNat + place.size.toNat

/--
A ramdisk that is placed lies inside of one bank of memory, ends at or below
the greatest address allowed, and shares no address with the kernel.
-/
structure WellPlaced (banks : List KvmMemBank) (initrdAddrMax : UInt32)
    (kernelSize : Nat) (place : Place) : Prop where
  inside :
    ∃ bank ∈ banks, HasMemory bank ∧
      ∀ addr, Holds place addr →
        bank.guestPhysAddr.toNat ≤ addr ∧
          addr < bank.guestPhysAddr.toNat + bank.size.toNat
  below : place.addr.toNat + place.size.toNat ≤ initrdAddrMax.toNat
  apart :
    ∀ addr, Holds place addr →
      ¬ (bzKernelStart.toNat ≤ addr ∧
        addr < bzKernelStart.toNat + kernelSize)

/-- What is loaded, if anything is. -/
def Placed (banks : List KvmMemBank) (initrdAddrMax : UInt32) :
    Except Refusal Loaded → Prop
  | .ok ⟨kernelSize, some place⟩ =>
      WellPlaced banks initrdAddrMax kernelSize place
  | _ => True

/-- The end of the memory below the gap. -/
def lowRam (ramSize : Nat) : Nat :=
  min ramSize kvm32bitGapStart.toNat

/--
The highest multiple of 1 MiB that is not beyond the greatest address allowed
and, if the ramdisk is not larger than the memory, lets it end before the end
of the memory.
-/
def highestStart (ramSize size initrdAddrMax : Nat) : Nat :=
  0x100000 *
    if size ≤ ramSize then
      min (initrdAddrMax / 0x100000) ((ramSize - size - 1) / 0x100000)
    else
      initrdAddrMax / 0x100000

/--
The ramdisk is empty; or there is no such address, or none with memory; or
from there on it ends at or below the greatest address allowed and before the
gap, and begins behind the kernel.
-/
def Harmless (ramSize kernelSize size initrdAddrMax : Nat) : Prop :=
  let start := highestStart ramSize size initrdAddrMax
  size = 0 ∨ start = 0 ∨ lowRam ramSize ≤ start ∨
    start + size ≤ initrdAddrMax ∧ start + size ≤ lowRam ramSize ∧
      0x100000 + kernelSize ≤ start

instance (ramSize kernelSize size initrdAddrMax : Nat) :
    Decidable (Harmless ramSize kernelSize size initrdAddrMax) :=
  inferInstanceAs (Decidable (_ ∨ _))

/-! ## The search -/

theorem toNat_bzKernelStart : bzKernelStart.toNat = 0x100000 :=
  rfl

theorem toNat_blocks {blocks : Nat} (bound : blocks < 0x1001) :
    (UInt64.ofNat (0x100000 * blocks)).toNat = 0x100000 * blocks := by
  apply UInt64.toNat_ofNat_of_lt'
  have size : UInt64.size = 2 ^ 64 := rfl
  omega

/-- The search from a multiple of 1 MiB on. -/
theorem findInitrdAddr_eq (ramSize size : UInt64) {blocks : Nat}
    (bound : blocks < 0x1000) :
    findInitrdAddr ramSize size (UInt64.ofNat (0x100000 * blocks)) =
      if min blocks (((ramSize - size).toNat - 1) / 0x100000) = 0 then
        none
      else
        some
          (UInt64.ofNat
            (0x100000 *
              min blocks (((ramSize - size).toNat - 1) / 0x100000))) := by
  induction blocks with
  | zero =>
      rw [findInitrdAddr, if_pos (by decide), Nat.zero_min, if_pos rfl]
  | succ blocks induction =>
      have value :
          (UInt64.ofNat (0x100000 * (blocks + 1))).toNat =
            0x100000 * (blocks + 1) :=
        toNat_blocks (by omega)
      have above :
          ¬ UInt64.ofNat (0x100000 * (blocks + 1)) < bzKernelStart := by
        rw [UInt64.lt_iff_toNat_lt, value, toNat_bzKernelStart]
        omega
      rw [findInitrdAddr, if_neg above]
      split
      case isTrue less =>
        rw [UInt64.lt_iff_toNat_lt, value] at less
        have all :
            min (blocks + 1) (((ramSize - size).toNat - 1) / 0x100000) =
              blocks + 1 := by
          omega
        rw [all, if_neg (Nat.succ_ne_zero blocks)]
      case isFalse more =>
        rw [UInt64.lt_iff_toNat_lt, value] at more
        have fewer :
            min (blocks + 1) (((ramSize - size).toNat - 1) / 0x100000) =
              min blocks (((ramSize - size).toNat - 1) / 0x100000) := by
          omega
        have next :
            UInt64.ofNat (0x100000 * (blocks + 1)) - 0x100000 =
              UInt64.ofNat (0x100000 * blocks) := by
          rw [Nat.mul_succ, UInt64.ofNat_add]
          exact UInt64.add_sub_cancel ..
        rw [fewer, next]
        exact induction (by omega)

theorem and_mask_eq {value : Nat} (bound : value < 2 ^ 32) :
    value &&& 0xfff00000 = 0x100000 * (value / 0x100000) := by
  have mask : (0xfff00000 : Nat) = 2 ^ 20 * (2 ^ 12 - 1) := rfl
  have block : (0x100000 : Nat) = 2 ^ 20 := rfl
  rw [mask, block]
  apply Nat.eq_of_testBit_eq
  intro place
  rw [Nat.testBit_and, Nat.testBit_two_pow_mul, Nat.testBit_two_pow_mul,
    Nat.testBit_two_pow_sub_one, Nat.testBit_div_two_pow]
  by_cases high : 20 ≤ place
  · have back : place - 20 + 20 = place := by omega
    by_cases low : place < 32
    · have few : place - 20 < 12 := by omega
      simp [high, few, back]
    · have power : 2 ^ 32 ≤ 2 ^ place :=
        Nat.pow_le_pow_right (by decide) (by omega)
      have zero : value.testBit place = false :=
        Nat.testBit_lt_two_pow (Nat.lt_of_lt_of_le bound power)
      simp [zero, back]
  · simp [high]

/-- The first address that is tried. -/
theorem masked_eq (initrdAddrMax : UInt32) :
    (initrdAddrMax &&& 0xfff00000).toUInt64 =
      UInt64.ofNat (0x100000 * (initrdAddrMax.toNat / 0x100000)) := by
  have bound := UInt32.toNat_lt initrdAddrMax
  have mask : (0xfff00000 : UInt32).toNat = 0xfff00000 := rfl
  apply UInt64.toNat_inj.1
  rw [toNat_blocks (by omega), UInt32.toNat_toUInt64, UInt32.toNat_and,
    mask, and_mask_eq bound]

theorem find_eq (ramSize : UInt64) (initrd : InitrdFile)
    (initrdAddrMax : UInt32) :
    findInitrdAddr ramSize initrd.size
        (initrdAddrMax &&& 0xfff00000).toUInt64 =
      if
        highestStart ramSize.toNat initrd.size.toNat initrdAddrMax.toNat =
          0 then
        none
      else
        some
          (UInt64.ofNat
            (highestStart ramSize.toNat initrd.size.toNat
              initrdAddrMax.toNat)) := by
  have bound := UInt32.toNat_lt initrdAddrMax
  have small := initrd.bound
  have ram := UInt64.toNat_lt ramSize
  have blocks :
      0x100000 *
          min (initrdAddrMax.toNat / 0x100000)
            (((ramSize - initrd.size).toNat - 1) / 0x100000) =
        highestStart ramSize.toNat initrd.size.toNat
          initrdAddrMax.toNat := by
    rw [highestStart, UInt64.toNat_sub]
    split <;> omega
  rw [masked_eq, findInitrdAddr_eq _ _ (by omega), blocks]
  refine if_congr ?_ rfl rfl
  rw [← blocks]
  omega

/-! ## Memory -/

/-- What `kvm_arch_init` leaves: memory to the gap, or beyond it. -/
structure Accepted (host : Host) (kvm : KvmRam) : Prop where
  positive : kvm.ramSize ≠ 0
  gap :
    kvm.ramSize < kvm32bitGapStart ∨ kvm32bitMaxMemSize ≤ kvm.ramSize
  mapped :
    ∀ addr : UInt64, addr.toNat < lowRam kvm.ramSize.toNat →
      0 < host.mapped (kvm.ramStart + addr)

theorem accepted_of_mmap {host : Host} {kvm : KvmRam}
    (mapping : host.mmap kvm.ramSize = some kvm.ramStart)
    (gap :
      kvm.ramSize < kvm32bitGapStart ∨ kvm32bitMaxMemSize ≤ kvm.ramSize) :
    Accepted host kvm := by
  refine ⟨?_, gap, ?_⟩
  · intro zero
    rw [zero, host.empty] at mapping
    cases mapping
  · intro addr low
    rw [lowRam, Nat.lt_min] at low
    exact
      host.memory kvm.ramSize kvm.ramStart mapping addr
        (UInt64.lt_iff_toNat_lt.2 low.1)
        (Or.inl (UInt64.lt_iff_toNat_lt.2 low.2))

theorem accepted_of_arch_init {host : Host} {cfgRamSize : UInt64}
    {kvm : KvmRam} (init : kvmArchInit host cfgRamSize = some kvm) :
    Accepted host kvm := by
  rw [kvmArchInit] at init
  split at init
  case isTrue small =>
    obtain ⟨ramStart, mapping, rfl⟩ := Option.map_eq_some_iff.1 init
    exact accepted_of_mmap mapping (Or.inl small)
  case isFalse large =>
    obtain ⟨ramStart, mapping, rfl⟩ := Option.map_eq_some_iff.1 init
    refine accepted_of_mmap mapping ?_
    have start : kvm32bitGapStart.toNat = 0xd0000000 := rfl
    have size : kvm32bitGapSize.toNat = 0x30000000 := rfl
    have whole : kvm32bitMaxMemSize.toNat = 0x100000000 := rfl
    have bound := UInt64.toNat_lt cfgRamSize
    rw [UInt64.lt_iff_toNat_lt, start] at large
    rw [UInt64.lt_iff_toNat_lt, UInt64.le_iff_toNat_le, UInt64.toNat_add,
      start, size, whole]
    omega

/-- The first bank. -/
theorem registerRam_first (size ramStart : UInt64) :
    kvmRegisterRam ⟨[], 0⟩ 0 size ramStart =
      ⟨[⟨0, ramStart, size, kvmMemTypeRam, 0⟩], 1⟩ :=
  rfl

/-- The bank behind the gap. -/
theorem registerRam_second (ramStart size userspaceAddr : UInt64) :
    (kvmRegisterRam
        ⟨[⟨0, ramStart, kvm32bitGapStart, kvmMemTypeRam, 0⟩], 1⟩
        kvm32bitMaxMemSize size userspaceAddr).memBanks =
      [⟨0, ramStart, kvm32bitGapStart, kvmMemTypeRam, 0⟩,
        ⟨kvm32bitMaxMemSize, userspaceAddr, size, kvmMemTypeRam, 1⟩] := by
  let first : KvmMemBank :=
    ⟨0, ramStart, kvm32bitGapStart, kvmMemTypeRam, 0⟩
  let request : RegisterRequest :=
    ⟨kvm32bitMaxMemSize, size, userspaceAddr, kvmMemTypeRam⟩
  have behind :
      request.scan.guestPhys > first.guestPhysAddr + first.size - 1 := by
    show kvm32bitMaxMemSize > 0 + kvm32bitGapStart - 1
    decide
  have apart := (apart_iff first request.scan).1 (Or.inl behind)
  rw [kvmRegisterRam, kvmRegisterMem]
  dsimp only
  rw [scanBanks_pass apart]
  rfl

/-- The banks of the memory. -/
theorem kvmInitRam_banks (kvm : KvmRam) :
    (kvmInitRam kvm).memBanks =
      if kvm.ramSize < kvm32bitGapStart then
        [⟨0, kvm.ramStart, kvm.ramSize, kvmMemTypeRam, 0⟩]
      else
        [⟨0, kvm.ramStart, kvm32bitGapStart, kvmMemTypeRam, 0⟩,
          ⟨kvm32bitMaxMemSize, kvm.ramStart + kvm32bitMaxMemSize,
            kvm.ramSize - kvm32bitMaxMemSize, kvmMemTypeRam, 1⟩] := by
  rw [kvmInitRam]
  split
  · rw [registerRam_first]
  · rw [registerRam_first, registerRam_second]

/-- The first bank ends where the memory below the gap does. -/
theorem exists_banks (kvm : KvmRam) :
    ∃ low high,
      (kvmInitRam kvm).memBanks =
          ⟨0, kvm.ramStart, low, kvmMemTypeRam, 0⟩ :: high ∧
        low.toNat = lowRam kvm.ramSize.toNat ∧
        ∀ bank ∈ high, bank.guestPhysAddr = kvm32bitMaxMemSize := by
  rw [kvmInitRam_banks]
  split
  case isTrue small =>
    refine ⟨kvm.ramSize, [], rfl, ?_, nofun⟩
    rw [UInt64.lt_iff_toNat_lt] at small
    rw [lowRam, Nat.min_eq_left (Nat.le_of_lt small)]
  case isFalse large =>
    refine ⟨kvm32bitGapStart, _, rfl, ?_, ?_⟩
    · rw [UInt64.lt_iff_toNat_lt, Nat.not_lt] at large
      rw [lowRam, Nat.min_eq_right large]
    · intro bank member
      rw [List.mem_singleton.1 member]

/-- An address that the header of a kernel can hold is below 4 GiB. -/
theorem guestFlatToHost_low {kvm : KvmRam} {addr : UInt64}
    (low : addr.toNat < 2 ^ 32) :
    guestFlatToHost (kvmInitRam kvm).memBanks addr =
      if addr.toNat < lowRam kvm.ramSize.toNat then
        kvm.ramStart + addr
      else
        0 := by
  obtain ⟨size, high, banks, ends, far⟩ := exists_banks kvm
  rw [banks, guestFlatToHost, List.find?_cons]
  have first :
      coversGuest addr ⟨0, kvm.ramStart, size, kvmMemTypeRam, 0⟩ =
        decide (addr.toNat < lowRam kvm.ramSize.toNat) := by
    rw [coversGuest, ← ends]
    simp [UInt64.lt_iff_toNat_lt]
  have others : high.find? (coversGuest addr) = none := by
    apply List.find?_eq_none.2
    intro bank member
    have whole : kvm32bitMaxMemSize.toNat = 2 ^ 32 := rfl
    rw [coversGuest, far bank member, Bool.and_eq_true, decide_eq_true_iff,
      ge_iff_le, UInt64.le_iff_toNat_le, whole]
    exact fun covered => absurd covered.1 (Nat.not_le.2 low)
  rw [first]
  by_cases inside : addr.toNat < lowRam kvm.ramSize.toNat
  · rw [if_pos inside, decide_eq_true inside]
    dsimp only
    rw [UInt64.sub_zero]
  · rw [if_neg inside, decide_eq_false inside]
    dsimp only
    rw [others]

/-- Whether something can be read there. -/
theorem mapped_low {host : Host} {kvm : KvmRam}
    (accepted : Accepted host kvm) {addr : UInt64}
    (low : addr.toNat < 2 ^ 32) :
    0 < host.mapped (guestFlatToHost (kvmInitRam kvm).memBanks addr) ↔
      addr.toNat < lowRam kvm.ramSize.toNat := by
  rw [guestFlatToHost_low low]
  split
  case isTrue inside => exact iff_of_true (accepted.mapped addr inside) inside
  case isFalse outside =>
    rw [host.null]
    exact iff_of_false (Nat.lt_irrefl 0) outside

/-! ## The ramdisk -/

section Start

variable {ramSize size initrdAddrMax : Nat}

theorem highestStart_le :
    highestStart ramSize size initrdAddrMax ≤ initrdAddrMax := by
  rw [highestStart]
  split <;> omega

theorem highestStart_pos
    (some : highestStart ramSize size initrdAddrMax ≠ 0) :
    0x100000 ≤ highestStart ramSize size initrdAddrMax := by
  rw [highestStart] at some ⊢
  omega

end Start

section Initrd

variable {host : Host} {kvm : KvmRam} {initrdAddrMax : UInt32}
  {initrd : InitrdFile} {kernelSize : Nat}

theorem readInFull_neg_iff (count mapped : Nat) :
    readInFull count mapped count < 0 ↔ count ≠ 0 ∧ mapped = 0 := by
  rw [readInFull]
  split
  · omega
  · split <;> omega

/-- The start of a ramdisk of a kernel and a memory. -/
def startOf (kvm : KvmRam) (initrd : InitrdFile) (initrdAddrMax : UInt32) :
    Nat :=
  highestStart kvm.ramSize.toNat initrd.size.toNat initrdAddrMax.toNat

theorem startOf_lt : startOf kvm initrd initrdAddrMax < 2 ^ 32 :=
  Nat.lt_of_le_of_lt highestStart_le (UInt32.toNat_lt initrdAddrMax)

theorem toNat_startOf :
    (UInt64.ofNat (startOf kvm initrd initrdAddrMax)).toNat =
      startOf kvm initrd initrdAddrMax := by
  have small := @startOf_lt kvm initrdAddrMax initrd
  apply UInt64.toNat_ofNat_of_lt'
  have size : UInt64.size = 2 ^ 64 := rfl
  omega

/-- Without an address, or one with memory, the program ends. -/
theorem loadInitrd_eq (accepted : Accepted host kvm) :
    loadInitrd host kvm (kvmInitRam kvm).memBanks initrdAddrMax initrd =
      if
        startOf kvm initrd initrdAddrMax = 0 ∨
          initrd.size.toNat ≠ 0 ∧
            lowRam kvm.ramSize.toNat ≤ startOf kvm initrd initrdAddrMax then
        .error .died
      else
        .ok
          ⟨UInt64.ofNat (startOf kvm initrd initrdAddrMax),
            initrd.size⟩ := by
  have mapped :=
    @mapped_low host kvm accepted
      (UInt64.ofNat (startOf kvm initrd initrdAddrMax))
      (by rw [toNat_startOf]; exact startOf_lt)
  rw [toNat_startOf] at mapped
  rw [loadInitrd, find_eq, ← startOf]
  by_cases none : startOf kvm initrd initrdAddrMax = 0
  · rw [if_pos none, if_pos (Or.inl none)]
  · rw [if_neg none]
    dsimp only
    refine if_congr ?_ rfl rfl
    rw [readInFull_neg_iff, or_iff_right none]
    refine and_congr_right fun _ => ?_
    rw [← Nat.not_lt, ← mapped]
    omega

/-- A ramdisk that starts in memory. -/
theorem wellPlaced_iff (some : startOf kvm initrd initrdAddrMax ≠ 0) :
    WellPlaced (kvmInitRam kvm).memBanks initrdAddrMax kernelSize
        ⟨UInt64.ofNat (startOf kvm initrd initrdAddrMax), initrd.size⟩ ↔
      initrd.size.toNat = 0 ∨
        startOf kvm initrd initrdAddrMax + initrd.size.toNat ≤
            initrdAddrMax.toNat ∧
          startOf kvm initrd initrdAddrMax + initrd.size.toNat ≤
            lowRam kvm.ramSize.toNat ∧
          0x100000 + kernelSize ≤ startOf kvm initrd initrdAddrMax := by
  obtain ⟨size, high, banks, ends, far⟩ := exists_banks kvm
  have small := @startOf_lt kvm initrdAddrMax initrd
  have least : 0x100000 ≤ startOf kvm initrd initrdAddrMax :=
    highestStart_pos some
  have most : startOf kvm initrd initrdAddrMax ≤ initrdAddrMax.toNat :=
    highestStart_le
  have memory :
      HasMemory ⟨0, kvm.ramStart, size, kvmMemTypeRam, 0⟩ := by
    show kvmMemTypeRam ≠ kvmMemTypeReserved
    decide
  have holds (addr : Nat) :
      Holds
          ⟨UInt64.ofNat (startOf kvm initrd initrdAddrMax), initrd.size⟩
          addr ↔
        startOf kvm initrd initrdAddrMax ≤ addr ∧
          addr < startOf kvm initrd initrdAddrMax + initrd.size.toNat := by
    rw [Holds, toNat_startOf]
  rw [banks]
  constructor
  · rintro ⟨⟨bank, member, -, inside⟩, below, apart⟩
    rw [toNat_startOf] at below
    dsimp only at below
    refine or_iff_not_imp_left.2 fun nonempty => ?_
    have first := inside (startOf kvm initrd initrdAddrMax)
    have last :=
      inside (startOf kvm initrd initrdAddrMax + initrd.size.toNat - 1)
    have kernel := apart (startOf kvm initrd initrdAddrMax)
    rw [holds] at first last kernel
    rw [toNat_bzKernelStart] at kernel
    rcases List.mem_cons.1 member with rfl | late
    · have zero : (0 : UInt64).toNat = 0 := rfl
      dsimp only at first last
      rw [zero, ends] at last
      omega
    · have whole : kvm32bitMaxMemSize.toNat = 2 ^ 32 := rfl
      rw [far bank late, whole] at first
      omega
  · rintro (zero | ⟨below, inside, apart⟩)
    · refine
        ⟨⟨_, List.mem_cons_self, memory, fun addr member => ?_⟩, ?_,
          fun addr member => ?_⟩
      · rw [holds] at member
        omega
      · rw [toNat_startOf]
        dsimp only
        omega
      · rw [holds] at member
        omega
    · refine
        ⟨⟨_, List.mem_cons_self, memory, fun addr member => ?_⟩, ?_,
          fun addr member => ?_⟩
      · have zero : (0 : UInt64).toNat = 0 := rfl
        rw [holds] at member
        dsimp only
        rw [zero, ends]
        omega
      · rw [toNat_startOf]
        exact below
      · rw [holds] at member
        rw [toNat_bzKernelStart]
        omega

end Initrd

/-! ## The result -/

/--
For a memory that is accepted, a kernel that is read and an initial ramdisk,
either the program ends or the ramdisk is placed as it should be, exactly
when that is harmless.
-/
theorem initrd_placed_iff (host : Host) (cfgRamSize : UInt64)
    (kvm : KvmRam) (init : kvmArchInit host cfgRamSize = some kvm)
    (kernel : KernelFile) (initrd : Option InitrdFile) :
    Placed (kvmInitRam kvm).memBanks kernel.initrdAddrMax
        (loadBzimage host kvm (kvmInitRam kvm).memBanks cfgRamSize kernel
          initrd) ↔
      ∀ kernelSize,
        readKernel host (kvmInitRam kvm).memBanks cfgRamSize kernel =
            .ok kernelSize →
          ∀ file ∈ initrd,
            Harmless kvm.ramSize.toNat kernelSize file.size.toNat
              kernel.initrdAddrMax.toNat := by
  have accepted := accepted_of_arch_init init
  rw [loadBzimage]
  cases read :
      readKernel host (kvmInitRam kvm).memBanks cfgRamSize kernel with
  | error refusal => exact iff_of_true trivial nofun
  | ok kernelSize =>
      cases initrd with
      | none => exact iff_of_true trivial nofun
      | some file =>
          have harmless :
              (∀ other, Except.ok (ε := Refusal) kernelSize = .ok other →
                  ∀ same ∈ some file,
                    Harmless kvm.ramSize.toNat other same.size.toNat
                      kernel.initrdAddrMax.toNat) ↔
                Harmless kvm.ramSize.toNat kernelSize file.size.toNat
                  kernel.initrdAddrMax.toNat := by
            simp
          rw [harmless]
          dsimp only
          rw [loadInitrd_eq accepted, Harmless]
          change _ ↔ _ ∨ startOf kvm file kernel.initrdAddrMax = 0 ∨
            lowRam kvm.ramSize.toNat ≤
              startOf kvm file kernel.initrdAddrMax ∨ _
          by_cases dies :
              startOf kvm file kernel.initrdAddrMax = 0 ∨
                file.size.toNat ≠ 0 ∧
                  lowRam kvm.ramSize.toNat ≤
                    startOf kvm file kernel.initrdAddrMax
          · rw [if_pos dies]
            refine iff_of_true trivial ?_
            rcases dies with none | ⟨-, outside⟩
            · exact Or.inr (Or.inl none)
            · exact Or.inr (Or.inr (Or.inl outside))
          · rw [if_neg dies]
            obtain ⟨some, outside⟩ := not_or.1 dies
            rw [or_iff_right some]
            refine (wellPlaced_iff some).trans ?_
            refine or_congr_right' fun nonempty => ?_
            rw [or_iff_right fun beyond => outside ⟨nonempty, beyond⟩]
            rfl

/-- A host with a terabyte for each mapping. -/
def plainHost : Host where
  mmap size :=
    if size = 0 ∨ 0x10000000000 ≤ size then none else some 0x7f0000000000
  mapped ptr := if ptr = 0 then 0 else 0x10000000000
  empty := rfl
  null := rfl
  memory := by
    intro size start mapping offset less _
    obtain ⟨fits, ⟨⟩⟩ := Option.ite_none_left_eq_some.1 mapping
    have bound : (0x10000000000 : UInt64).toNat = 0x10000000000 := rfl
    have first : (0x7f0000000000 : UInt64).toNat = 0x7f0000000000 := rfl
    rw [not_or, UInt64.le_iff_toNat_le, bound] at fits
    rw [UInt64.lt_iff_toNat_lt] at less
    have some : (0x7f0000000000 : UInt64) + offset ≠ 0 := by
      rw [ne_eq, ← UInt64.toNat_inj, UInt64.toNat_add, first,
        UInt64.toNat_zero]
      omega
    rw [if_neg some]
    decide

/-- 3 GiB of it. -/
def plainRam : KvmRam :=
  ⟨0xc0000000, 0x7f0000000000⟩

/-- A kernel of 8 MiB that allows initial ramdisks below 2 GiB. -/
def plainKernel : KernelFile where
  size := 0x800000
  magic := true
  version := 0x20f
  setupSects := 31
  initrdAddrMax := 0x7fffffff

/-- An initial ramdisk of 10 MiB. -/
def plainInitrd : InitrdFile where
  size := 0xa00000
  bound := by decide

theorem plainRam_accepted :
    kvmArchInit plainHost 0xc0000000 = some plainRam :=
  rfl

/-- The ramdisk of a machine with three gigabytes. -/
theorem initrd_placed_on_plain :
    Placed (kvmInitRam plainRam).memBanks plainKernel.initrdAddrMax
        (loadBzimage plainHost plainRam (kvmInitRam plainRam).memBanks
          0xc0000000 plainKernel (some plainInitrd)) ↔
      ∀ kernelSize,
        readKernel plainHost (kvmInitRam plainRam).memBanks 0xc0000000
            plainKernel =
            .ok kernelSize →
          ∀ file ∈ some plainInitrd,
            Harmless plainRam.ramSize.toNat kernelSize file.size.toNat
              plainKernel.initrdAddrMax.toNat :=
  initrd_placed_iff plainHost 0xc0000000 plainRam plainRam_accepted
    plainKernel (some plainInitrd)

/-- The ramdisk starts below 2 GiB, and ends above. -/
theorem initrd_ends_too_high :
    loadBzimage plainHost plainRam (kvmInitRam plainRam).memBanks 0xc0000000
          plainKernel (some plainInitrd) =
        .ok ⟨0x7fc000, some ⟨0x7ff00000, 0xa00000⟩⟩ ∧
      ¬ Placed (kvmInitRam plainRam).memBanks plainKernel.initrdAddrMax
        (loadBzimage plainHost plainRam (kvmInitRam plainRam).memBanks
          0xc0000000 plainKernel (some plainInitrd)) := by
  have accepted := accepted_of_arch_init plainRam_accepted
  have read :
      readKernel plainHost (kvmInitRam plainRam).memBanks 0xc0000000
          plainKernel =
        .ok 0x7fc000 := by
    decide +kernel
  have initrd :
      loadInitrd plainHost plainRam (kvmInitRam plainRam).memBanks
          plainKernel.initrdAddrMax plainInitrd =
        .ok ⟨0x7ff00000, 0xa00000⟩ := by
    rw [loadInitrd_eq accepted, if_neg (by decide)]
    rfl
  have loaded :
      loadBzimage plainHost plainRam (kvmInitRam plainRam).memBanks
          0xc0000000 plainKernel (some plainInitrd) =
        .ok ⟨0x7fc000, some ⟨0x7ff00000, 0xa00000⟩⟩ := by
    rw [loadBzimage, read]
    dsimp only
    rw [initrd]
  refine ⟨loaded, ?_⟩
  rw [loaded]
  exact fun placed => absurd placed.below (by decide)

end Kemu.Arch.InitrdPlace
