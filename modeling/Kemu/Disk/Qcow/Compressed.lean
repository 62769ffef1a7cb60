import Kemu.Disk.Qcow.Refinement

/-!
# Where a compressed cluster is read

The L2 entry of a compressed cluster packs the offset of its data in the file
and their length in sectors, with a split that depends on the size of a
cluster.  `qcow1_read_cluster` and `qcow2_read_cluster` keep the offset in an
`int`, and read the data into a buffer for one cluster.
-/

namespace Kemu.Disk.Qcow

open Kemu.Util.ReadWrite

/-! ## Entries -/

/-- The number of bits that hold the offset in a compressed entry. -/
def offsetBits (version : Version) (header : QcowHeader) : Nat :=
  match version with
  | .qcow1 => 63 - header.clusterBits
  | .qcow2 => 62 - (header.clusterBits - 8)

/-- The offset in the file that a compressed entry encodes. -/
def encodedOffset (version : Version) (header : QcowHeader) (entry : Nat) :
    Nat :=
  entry % 2 ^ offsetBits version header

/-- The number of sectors that a compressed entry of version 2 encodes. -/
def encodedSectors (header : QcowHeader) (entry : Nat) : Nat :=
  entry / 2 ^ offsetBits .qcow2 header % 2 ^ (header.clusterBits - 8) + 1

/-- A call of `pread_in_full`, and the bytes in front that are not used. -/
structure HostRead where
  offset : Nat
  count : Nat
  skip : Nat
deriving DecidableEq, Repr

/-- The call for a compressed cluster. -/
def compressedRead (version : Version) (header : QcowHeader)
    (entry : Nat) : HostRead :=
  let (offset, count, skip, _) := version.format.extent header entry
  ⟨offset, count, skip⟩

/--
The data are taken from the offset that is encoded, and the read has room in
`q->cluster_data`.
-/
structure ReadsEncoded (version : Version) (header : QcowHeader)
    (entry : Nat) : Prop where
  place :
    (compressedRead version header entry).offset +
        (compressedRead version header entry).skip =
      encodedOffset version header entry
  room : (compressedRead version header entry).count ≤ header.clusterSize

/-- The read of a compressed cluster makes this call and no other. -/
theorem readCompressed_file (inflate : Inflate) (version : Version)
    (q : QcowState) (entry clustOffset length : Nat) (mem : Buffer)
    (dst : Nat) :
    (readCompressed inflate version.format q entry clustOffset length mem
        dst).2.2.file =
      (preadInFull q.file q.clusterData 0
        (compressedRead version q.header entry).count
        (compressedRead version q.header entry).offset).2.2 := by
  dsimp only [readCompressed, compressedRead]
  split
  next failed => rw [failed]
  next read =>
    rw [read]
    split
    · rfl
    · rfl

/-! ## Offsets in an `int` -/

/-- Rounding down to a sector and skipping leads to the same place. -/
theorem asOffT_add_skip (value : Nat) :
    asOffT (asInt value - asInt value % 512) + (asInt value % 512).toNat =
      asOffT (asInt value) := by
  have bounds := asInt_bounds value
  unfold asOffT
  omega

theorem encodedOffset_lt (version : Version) (header : QcowHeader)
    (entry : Nat) : encodedOffset version header entry < 2 ^ 63 := by
  have bits : offsetBits version header ≤ 63 := by
    cases version <;> simp only [offsetBits] <;> omega
  exact lt_of_lt_of_le (Nat.mod_lt _ (Nat.two_pow_pos _))
    (Nat.pow_le_pow_right (by decide) bits)

theorem compressedRead_qcow1 (header : QcowHeader) (entry : Nat) :
    compressedRead .qcow1 header entry =
      { offset := asOffT (asInt (encodedOffset .qcow1 header entry))
        count :=
          (entry >>> (63 - header.clusterBits)) % header.clusterSize
        skip := 0 } := by
  have size := clusterSize_eq header
  rw [compressedRead, Version.format, qcow1Format]
  dsimp only
  rw [maskBelow, Nat.and_two_pow_sub_one_eq_mod, size,
    Nat.and_two_pow_sub_one_eq_mod]
  rfl

theorem compressedRead_qcow2 (header : QcowHeader) (entry : Nat) :
    compressedRead .qcow2 header entry =
      let coffset := asInt (encodedOffset .qcow2 header entry)
      { offset := asOffT (coffset - coffset % 512)
        count := encodedSectors header entry * 512
        skip := (coffset % 512).toNat } := by
  rw [compressedRead, Version.format, qcow2Format]
  dsimp only
  rw [maskBelow, maskBelow, Nat.and_two_pow_sub_one_eq_mod,
    Nat.and_two_pow_sub_one_eq_mod, Nat.shiftRight_eq_div_pow]
  rfl

/-- The place a compressed cluster is read from is its offset as an `int`. -/
theorem compressedRead_place (version : Version) (header : QcowHeader)
    (entry : Nat) :
    (compressedRead version header entry).offset +
        (compressedRead version header entry).skip =
      asOffT (asInt (encodedOffset version header entry)) := by
  cases version with
  | qcow1 => rw [compressedRead_qcow1, Nat.add_zero]
  | qcow2 => rw [compressedRead_qcow2, asOffT_add_skip]

theorem compressedRead_room (version : Version) (header : QcowHeader)
    (entry : Nat) :
    (compressedRead version header entry).count ≤ header.clusterSize ↔
      (version = .qcow2 →
        encodedSectors header entry * 512 ≤ header.clusterSize) := by
  cases version with
  | qcow1 =>
      rw [compressedRead_qcow1]
      have inside :=
        Nat.mod_lt (entry >>> (63 - header.clusterBits))
          (clusterSize_pos header)
      exact iff_of_true (Nat.le_of_lt inside) (by rintro ⟨⟩)
  | qcow2 =>
      rw [compressedRead_qcow2]
      simp only [true_imp_iff]

/-! ## Main result -/

/--
A compressed cluster is read from where its entry says, into the room there
is, exactly if its offset is below 2 GiB and, for version 2, its sectors fit
into a cluster.
-/
theorem readsEncoded_iff (version : Version) (header : QcowHeader)
    (entry : Nat) :
    ReadsEncoded version header entry ↔
      encodedOffset version header entry < 2 ^ 31 ∧
        (version = .qcow2 →
          encodedSectors header entry * 512 ≤ header.clusterSize) := by
  rw [← asOffT_asInt_eq_iff (encodedOffset_lt version header entry),
    ← compressedRead_place, ← compressedRead_room]
  constructor
  · intro reads
    exact ⟨reads.place, reads.room⟩
  · rintro ⟨same, fits⟩
    exact ⟨same, fits⟩

/-- A header with clusters of 64 KiB. -/
def wideHeader : QcowHeader where
  size := 2 ^ 40
  l1TableOffset := 2 ^ 16
  l1Size := 2 ^ 11
  clusterBits := 16
  l2Bits := 13
  refcountTableOffset := 2 ^ 17
  refcountTableSize := 1

/--
An offset of 2 GiB becomes negative, and the greatest count of sectors
takes two clusters.
-/
theorem not_readsEncoded :
    (qcow2Format.compressed (2 ^ 62 + 2 ^ 31) = true ∧
      ¬ ReadsEncoded .qcow2 wideHeader (2 ^ 62 + 2 ^ 31)) ∧
    (qcow2Format.compressed (2 ^ 62 + 255 * 2 ^ 54 + 2 ^ 20) = true ∧
      ¬ ReadsEncoded .qcow2 wideHeader
        (2 ^ 62 + 255 * 2 ^ 54 + 2 ^ 20)) := by
  refine ⟨⟨by decide, fun reads => ?_⟩, ⟨by decide, fun reads => ?_⟩⟩
  · have place := reads.place
    revert place
    decide
  · have room := reads.room
    revert room
    decide

end Kemu.Disk.Qcow
