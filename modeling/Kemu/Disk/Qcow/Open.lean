import Kemu.Disk.Qcow.Refinement
import Mathlib.Algebra.Order.Ring.Int

/-!
# Opening an image of version 1

`is_qcow1` and `qcow1_probe`: the header is decoded from the file, and the
length of the L1 table is computed from the size of the disk, since version 1
does not store it.  The question is whether the table covers the disk.
-/

namespace Kemu.Disk.Qcow

open Kemu.Util.ReadWrite

/-! ## The header -/

/-- `QCOW_MAGIC`. -/
def qcowMagic : Nat := 0x514649fb

/-- `QCOW1_VERSION`. -/
def qcow1Version : Nat := 1

/-- `sizeof(struct qcow1_header_disk)`. -/
def qcow1HeaderDiskSize : Nat := 48

/--
`is_qcow1`.  `stack` is what the memory of the header holds before the read,
which may be a short one.
-/
def isQcow1 (stack : Buffer) (file : HostFile) : Bool × HostFile :=
  match preadInFull file stack 0 qcow1HeaderDiskSize 0 with
  | (none, _, file) => (false, file)
  | (some _, disk, file) =>
      (beNumber 4 disk 0 == qcowMagic && beNumber 4 disk 4 == qcow1Version,
        file)

/-- `1 << bits` as an `int`; `none` for a count that `int` does not have. -/
def intShift (bits : Nat) : Option Int :=
  if bits < 32 then some (asInt (1 <<< bits)) else none

/--
The number of entries of the L1 table, in 32 bits.  The product is an `int`
and the quotient a `u64`; `none` when the divisor is zero.
-/
def l1SizeFor (size clusterBits l2Bits : Nat) : Option Nat :=
  match intShift l2Bits, intShift clusterBits with
  | some l2Size, some clusterSize =>
      let covered := asOffT (Int.bmod (l2Size * clusterSize) (2 ^ 32))
      if covered = 0 then none else some (size / covered % 2 ^ 32)
  | _, _ => none

/--
`qcow1_read_header`; `none` also where the computation of the size of the
table has no result.
-/
def qcow1ReadHeader (stack : Buffer) (file : HostFile) :
    Option (QcowHeader × HostFile) :=
  if file.answer = 0 then
    none
  else
    match preadInFull (file.skip 1) stack 0 qcow1HeaderDiskSize 0 with
    | (none, _, _) => none
    | (some _, disk, file) =>
        let size := be64 disk 24
        let clusterBits := (disk 32).toNat
        let l2Bits := (disk 33).toNat
        match l1SizeFor size clusterBits l2Bits with
        | none => none
        | some l1Size =>
            some
              ({ size := size
                 l1TableOffset := be64 disk 40
                 l1Size := l1Size
                 clusterBits := clusterBits
                 l2Bits := l2Bits
                 refcountTableOffset := 0
                 refcountTableSize := 0 },
                file)

/-- `malloc`, which never has more than `PTRDIFF_MAX` bytes. -/
def malloc (file : HostFile) (bytes : Nat) : Option HostFile :=
  if file.answer = 0 ∨ offT ≤ bytes then none else some (file.skip 1)

/-- `qcow1_probe`. -/
def qcow1Probe (stack fresh : Buffer) (file : HostFile) :
    Option QcowState := do
  let file ← malloc file 0
  let (header, file) ← qcow1ReadHeader stack file
  let clusterSize ← intShift header.clusterBits
  -- `q->cluster_data` and `q->cluster_cache`
  let file ← malloc file (asOffT clusterSize)
  let file ← malloc file (asOffT clusterSize)
  qcowProbe .qcow1 header fresh file

/--
The part of `qcow_probe` for version 1.  Every function that reads the header
has a variable of its own for it.
-/
def openQcow1 (stack : Nat → Buffer) (fresh : Buffer) (file : HostFile) :
    Option QcowState :=
  match isQcow1 (stack 0) file with
  | (true, file) => qcow1Probe (stack 2) fresh file
  | (false, _) => none

/-! ## The size of the table -/

theorem intShift_eq_some {bits : Nat} {value : Int}
    (shifted : intShift bits = some value) :
    value = asInt (2 ^ bits) := by
  rw [intShift] at shifted
  split at shifted
  · rw [← Option.some.inj shifted, Nat.one_shiftLeft]
  · cases shifted

/-- The product of two `int`s that were converted is converted. -/
theorem bmod_asInt_mul_asInt (first second : Nat) :
    Int.bmod (asInt first * asInt second) (2 ^ 32) =
      asInt (first * second) := by
  have product (modulus : Nat) :
      Int.bmod (Int.bmod first modulus * Int.bmod second modulus) modulus =
        Int.bmod (first * second : Nat) modulus := by
    rw [Int.bmod_mul_bmod, Int.mul_bmod_bmod, Int.natCast_mul]
  unfold asInt
  exact product (2 ^ 32)

/--
The divisor is the number of bytes that an L2 table covers, below 2 GiB; at
2 GiB the `int` is negative, and beyond it is zero.
-/
theorem l1SizeFor_eq_some {size clusterBits l2Bits l1Size : Nat}
    (computed : l1SizeFor size clusterBits l2Bits = some l1Size) :
    l2Bits + clusterBits ≤ 30 ∧
        l1Size = size / 2 ^ (l2Bits + clusterBits) % 2 ^ 32 ∨
      l2Bits + clusterBits = 31 ∧
        l1Size = size / (2 ^ 64 - 2 ^ 31) % 2 ^ 32 := by
  rw [l1SizeFor] at computed
  split at computed
  next l2Size clusterSize first second =>
    rw [intShift_eq_some first, intShift_eq_some second,
      bmod_asInt_mul_asInt, ← Nat.pow_add] at computed
    dsimp only at computed
    generalize l2Bits + clusterBits = bits at computed ⊢
    split at computed
    next => cases computed
    next covered =>
      have entries := (Option.some.inj computed).symm
      rcases Nat.lt_or_ge bits 32 with small | large
      · rcases Nat.lt_or_ge bits 31 with low | high
        · left
          have below : 2 ^ bits < 2 ^ 31 :=
            Nat.pow_lt_pow_right (by decide) low
          have divisor : asOffT (asInt (2 ^ bits)) = 2 ^ bits :=
            (asOffT_asInt_eq_iff (by omega)).mpr below
          rw [divisor] at entries
          exact ⟨by omega, entries⟩
        · right
          obtain rfl : bits = 31 := by omega
          have divisor : asOffT (asInt (2 ^ 31)) = 2 ^ 64 - 2 ^ 31 := by
            decide
          rw [divisor] at entries
          exact ⟨rfl, entries⟩
      · have zero : asInt (2 ^ bits) = 0 := by
          unfold asInt
          exact Int.bmod_eq_zero_of_dvd
            (Int.natCast_dvd_natCast.mpr (Nat.pow_dvd_pow 2 large))
        rw [zero] at covered
        exact absurd rfl covered
  next => cases computed

theorem qcow1ReadHeader_spec {stack : Buffer} {file after : HostFile}
    {header : QcowHeader}
    (read : qcow1ReadHeader stack file = some (header, after)) :
    header.size < 2 ^ 64 ∧
      l1SizeFor header.size header.clusterBits header.l2Bits =
        some header.l1Size := by
  rw [qcow1ReadHeader] at read
  split at read
  next => cases read
  next =>
    split at read
    next => cases read
    next disk _ _ =>
      dsimp only at read
      split at read
      next => cases read
      next l1Size computed =>
        cases read
        exact ⟨be64_lt _ _, computed⟩

/-- The header of an opened image gives the size of its table. -/
theorem openQcow1_spec {stack : Nat → Buffer} {fresh : Buffer}
    {file : HostFile}
    {q : QcowState} (opened : openQcow1 stack fresh file = some q) :
    q.header.size < 2 ^ 64 ∧
      l1SizeFor q.header.size q.header.clusterBits q.header.l2Bits =
        some q.header.l1Size := by
  rw [openQcow1] at opened
  split at opened
  next =>
    rw [qcow1Probe] at opened
    simp only [Option.bind_eq_bind, Option.bind_eq_some_iff] at opened
    obtain ⟨_, -, ⟨header, _⟩, read, _, -, _, -, _, -, probed⟩ := opened
    rw [(probed_of_qcowProbe probed).sameHeader]
    exact qcow1ReadHeader_spec read
  next => cases opened

/-! ## Main result -/

/-- Every offset of the disk has an entry in the L1 table. -/
def Covered (header : QcowHeader) : Prop :=
  ∀ offset < header.size, getL1Index header offset < header.l1Size

/-- Whole regions cover a disk exactly if it consists of them. -/
theorem forall_div_lt_iff {size region modulus : Nat}
    (positive : 0 < region) :
    (∀ offset < size, offset / region < size / region % modulus) ↔
      size = 0 ∨
        region ∣ size ∧ size / region % modulus = size / region := by
  constructor
  · intro covered
    cases size with
    | zero => exact Or.inl rfl
    | succ last =>
        right
        have reached := covered last last.lt_succ_self
        have entries := Nat.mod_le ((last + 1) / region) modulus
        rw [Nat.succ_div] at reached entries ⊢
        split at reached
        next whole =>
          rw [if_pos whole] at entries ⊢
          exact ⟨whole, by omega⟩
        next =>
          rw [if_neg ‹_›] at entries
          omega
  · rintro (rfl | ⟨⟨regions, rfl⟩, small⟩) offset below
    · exact absurd below (Nat.not_lt_zero offset)
    · rw [small, Nat.mul_div_cancel_left _ positive]
      exact Nat.div_lt_of_lt_mul below

/--
The table of an image of version 1 covers the disk exactly if the disk is
empty, or if the regions of the L2 tables are smaller than 2 GiB, the disk
consists of whole ones, and their number has 32 bits.
-/
theorem covered_iff {stack : Nat → Buffer} {fresh : Buffer}
    {file : HostFile}
    {q : QcowState} (opened : openQcow1 stack fresh file = some q) :
    Covered q.header ↔
      q.header.size = 0 ∨
        q.header.l2Bits + q.header.clusterBits ≤ 30 ∧
          2 ^ (q.header.l2Bits + q.header.clusterBits) ∣ q.header.size ∧
          q.header.size / 2 ^ (q.header.l2Bits + q.header.clusterBits) <
            2 ^ 32 := by
  obtain ⟨bounded, computed⟩ := openQcow1_spec opened
  unfold Covered getL1Index
  simp only [Nat.shiftRight_eq_div_pow]
  rcases l1SizeFor_eq_some computed with ⟨small, entries⟩ | ⟨all, entries⟩
  · rw [entries, forall_div_lt_iff (Nat.two_pow_pos _),
      Nat.mod_eq_iff_lt (by decide), and_iff_right small]
  · rw [all, entries]
    constructor
    · intro covered
      by_contra nonempty
      have last := covered (q.header.size - 1) (by omega)
      omega
    · rintro (empty | ⟨small, -, -⟩) offset below
      · omega
      · omega

/-! ## A disk of two regions -/

/-- A header of version 1, for clusters of 4 KiB, and a disk of some size. -/
def qcow1Content (size : List (Nat × UInt8)) : List (Nat × UInt8) :=
  [(0, 0x51), (1, 0x46), (2, 0x49), (3, 0xfb), (7, 1), (32, 12), (33, 9)] ++
    size

/-- A file with such a header. -/
def qcow1File (size : List (Nat × UInt8)) : HostFile where
  size := 64
  bytes position :=
    if position < 64 then
      ((qcow1Content size).lookup position).getD 0
    else
      0
  answers _ := 4096
  trimmed _ behind := if_neg (Nat.not_lt.mpr behind)

/-- A disk of 4 MiB. -/
def regionsFile : HostFile := qcow1File [(29, 0x40)]

/-- A disk of one sector. -/
def sectorFile : HostFile := qcow1File [(30, 2)]

theorem regionsFile_opens :
    (openQcow1 (fun _ _ => 0) (fun _ => 0) regionsFile).isSome := by
  decide +kernel

theorem sectorFile_opens :
    (openQcow1 (fun _ _ => 0) (fun _ => 0) sectorFile).isSome := by
  decide +kernel

/-- Two entries cover two regions of 2 MiB. -/
theorem covered_regionsFile :
    Covered
      ((openQcow1 (fun _ _ => 0) (fun _ => 0) regionsFile).get
        regionsFile_opens).header := by
  have opened := (Option.some_get regionsFile_opens).symm
  rw [covered_iff opened]
  decide +kernel

/-- A disk of one sector has no entry. -/
theorem not_covered_sectorFile :
    ¬ Covered
      ((openQcow1 (fun _ _ => 0) (fun _ => 0) sectorFile).get
        sectorFile_opens).header := by
  intro covered
  have first := covered 0 (by decide +kernel)
  revert first
  decide +kernel

end Kemu.Disk.Qcow
