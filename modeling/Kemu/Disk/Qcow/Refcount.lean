import Kemu.Disk.Qcow.Refinement
import Mathlib.Data.List.ProdSigma

/-!
# Consistent images

The refcount of a host cluster, as the refcount table and its blocks have
it, and the number of references to the cluster from the header and the
tables of the image.  In a consistent image the two agree, and an entry that
is marked as copied is the only reference to its cluster.

The cluster of a copied entry therefore shares no byte with the tables of
the image or with another cluster, so that a change inside it leaves the
image consistent and shows at no other position of the virtual disk.
-/

namespace Kemu.Disk.Qcow

open Kemu.Lib.LruCache
open Kemu.Util.ReadWrite

/-! ## Refcounts and references -/

namespace QcowHeader

variable (header : QcowHeader)

/-- A host cluster has a byte of a part of the file. -/
def Overlaps (clustIdx start length : Nat) : Prop :=
  max start (clustIdx * header.clusterSize) <
    min (start + length) ((clustIdx + 1) * header.clusterSize)

instance (clustIdx start length : Nat) :
    Decidable (header.Overlaps clustIdx start length) :=
  inferInstanceAs (Decidable (_ < _))

/-- An offset that is not zero is in a host cluster. -/
def RefersTo (offset clustIdx : Nat) : Prop :=
  offset ≠ 0 ∧ offset / header.clusterSize = clustIdx

instance (offset clustIdx : Nat) :
    Decidable (header.RefersTo offset clustIdx) :=
  inferInstanceAs (Decidable (_ ∧ _))

/-- The references that the header makes: its own place and two tables. -/
def references (clustIdx : Nat) : Nat :=
  (if clustIdx = 0 then 1 else 0) +
    (if header.Overlaps clustIdx header.l1TableOffset
        (header.l1Size * 8) then 1 else 0) +
    (if header.Overlaps clustIdx header.refcountTableOffset
        (header.refcountTableSize * header.clusterSize) then 1 else 0)

end QcowHeader

namespace Image

section References

variable (image : Image)

/-- An entry of the refcount table. -/
def rfEntry (rftIdx : Nat) : Nat :=
  be64 image.bytes (image.header.refcountTableOffset + rftIdx * 8)

/-- The number of entries of a refcount block. -/
def blockSize : Nat :=
  image.header.clusterSize / 2

/-- The refcount of a host cluster. -/
def refcount (clustIdx : Nat) : Nat :=
  let rftIdx := clustIdx / image.blockSize
  if image.header.rfSize ≤ rftIdx then
    0
  else if image.rfEntry rftIdx = 0 then
    0
  else
    be16 image.bytes
      (image.rfEntry rftIdx + clustIdx % image.blockSize * 2)

/-- The indices of all L2 entries. -/
def entries : List (Nat × Nat) :=
  (List.range image.header.l1Size).product
    (List.range image.header.l2Size)

/-- The references from the refcount table. -/
def blockReferences (clustIdx : Nat) : Nat :=
  (List.range image.header.rfSize).countP fun rftIdx =>
    decide (image.header.RefersTo (image.rfEntry rftIdx) clustIdx)

/-- The references from the L1 table. -/
def tableReferences (clustIdx : Nat) : Nat :=
  (List.range image.header.l1Size).countP fun l1Idx =>
    decide (image.header.RefersTo (image.tableOffset l1Idx) clustIdx)

/-- The references from the L2 tables. -/
def dataReferences (clustIdx : Nat) : Nat :=
  image.entries.countP fun entry =>
    decide
      (image.tableOffset entry.1 ≠ 0 ∧
        image.header.RefersTo (image.clusterOffset entry.1 entry.2) clustIdx)

/-- The number of references to a host cluster. -/
def references (clustIdx : Nat) : Nat :=
  image.header.references clustIdx + image.blockReferences clustIdx +
    image.tableReferences clustIdx + image.dataReferences clustIdx

/-- Every refcount is the number of references. -/
def RefcountsExact : Prop :=
  ∀ clustIdx, image.refcount clustIdx = image.references clustIdx

/-- The L1 entry is marked as copied. -/
def TableCopied (l1Idx : Nat) : Prop :=
  oflagTop ≤ image.l1Entry l1Idx

/-- The L2 entry is marked as copied. -/
def ClusterCopied (l1Idx l2Idx : Nat) : Prop :=
  oflagTop ≤ image.l2Entry l1Idx l2Idx

/-- A position whose entries are marked as copied in both tables. -/
def Copied (position : Nat) : Prop :=
  image.TableCopied (image.l1Index position) ∧
    image.ClusterCopied (image.l1Index position) (image.l2Index position)

instance (l1Idx : Nat) : Decidable (image.TableCopied l1Idx) :=
  inferInstanceAs (Decidable (_ ≤ _))

instance (l1Idx l2Idx : Nat) :
    Decidable (image.ClusterCopied l1Idx l2Idx) :=
  inferInstanceAs (Decidable (_ ≤ _))

instance (position : Nat) : Decidable (image.Copied position) :=
  inferInstanceAs (Decidable (_ ∧ _))

/--
A consistent image of version 2: refcounts are exact, offsets are those of
clusters, and a copied entry is the only reference to what it refers to.
-/
structure Consistent : Prop where
  wellFormed : image.WellFormed
  version : image.version = .qcow2
  exact : image.RefcountsExact
  blocksAligned :
    ∀ rftIdx < image.header.rfSize,
      image.header.clusterSize ∣ image.rfEntry rftIdx
  tablesAligned :
    ∀ l1Idx < image.header.l1Size,
      image.header.clusterSize ∣ image.tableOffset l1Idx
  clustersAligned :
    ∀ l1Idx < image.header.l1Size, image.tableOffset l1Idx ≠ 0 →
      ∀ l2Idx < image.header.l2Size,
        image.header.clusterSize ∣ image.clusterOffset l1Idx l2Idx
  tableCopied :
    ∀ l1Idx < image.header.l1Size, image.TableCopied l1Idx →
      image.tableOffset l1Idx ≠ 0 ∧
        image.refcount
          (image.tableOffset l1Idx / image.header.clusterSize) = 1
  clusterCopied :
    ∀ l1Idx < image.header.l1Size, image.tableOffset l1Idx ≠ 0 →
      ∀ l2Idx < image.header.l2Size, image.ClusterCopied l1Idx l2Idx →
        image.clusterOffset l1Idx l2Idx ≠ 0 ∧
          image.refcount
            (image.clusterOffset l1Idx l2Idx /
              image.header.clusterSize) = 1

end References

/-! ## Unshared clusters -/

/-- What counts one has no two members that count. -/
theorem eq_of_countP_le_one {α : Type} {list : List α} {counts : α → Bool}
    (once : list.countP counts ≤ 1) {first second : α}
    (inFirst : first ∈ list) (first_counts : counts first = true)
    (inSecond : second ∈ list) (second_counts : counts second = true) :
    first = second := by
  rw [List.countP_eq_length_filter] at once
  have memFirst : first ∈ list.filter counts :=
    List.mem_filter.mpr ⟨inFirst, first_counts⟩
  have memSecond : second ∈ list.filter counts :=
    List.mem_filter.mpr ⟨inSecond, second_counts⟩
  cases filtered : list.filter counts with
  | nil =>
      rw [filtered] at memFirst
      cases memFirst
  | cons only rest =>
      rw [filtered] at once memFirst memSecond
      have empty : rest = [] := List.eq_nil_of_length_eq_zero (by
        rw [List.length_cons] at once
        omega)
      rw [empty, List.mem_singleton] at memFirst memSecond
      rw [memFirst, memSecond]

variable {image : Image}

theorem mem_entries {l1Idx l2Idx : Nat} :
    (l1Idx, l2Idx) ∈ image.entries ↔
      l1Idx < image.header.l1Size ∧ l2Idx < image.header.l2Size := by
  rw [entries, List.pair_mem_product, List.mem_range, List.mem_range]

/-- The only reference to a host cluster is an L2 entry. -/
structure OnlyReference (image : Image) (l1Idx l2Idx : Nat) : Prop where
  notL1 :
    ¬ image.header.Overlaps
      (image.clusterOffset l1Idx l2Idx / image.header.clusterSize)
      image.header.l1TableOffset (image.header.l1Size * 8)
  notRefcountTable :
    ¬ image.header.Overlaps
      (image.clusterOffset l1Idx l2Idx / image.header.clusterSize)
      image.header.refcountTableOffset
      (image.header.refcountTableSize * image.header.clusterSize)
  notBlock :
    ∀ rftIdx < image.header.rfSize, image.rfEntry rftIdx ≠ 0 →
      image.rfEntry rftIdx / image.header.clusterSize ≠
        image.clusterOffset l1Idx l2Idx / image.header.clusterSize
  notTable :
    ∀ other < image.header.l1Size, image.tableOffset other ≠ 0 →
      image.tableOffset other / image.header.clusterSize ≠
        image.clusterOffset l1Idx l2Idx / image.header.clusterSize
  notCluster :
    ∀ other < image.header.l1Size, image.tableOffset other ≠ 0 →
      ∀ index < image.header.l2Size,
        image.clusterOffset other index ≠ 0 →
          image.clusterOffset other index / image.header.clusterSize =
              image.clusterOffset l1Idx l2Idx / image.header.clusterSize →
            other = l1Idx ∧ index = l2Idx

theorem Consistent.onlyReference
    (consistent : image.Consistent) {l1Idx l2Idx : Nat}
    (inTable : l1Idx < image.header.l1Size)
    (present : image.tableOffset l1Idx ≠ 0)
    (inL2 : l2Idx < image.header.l2Size)
    (copied : image.ClusterCopied l1Idx l2Idx) :
    image.OnlyReference l1Idx l2Idx := by
  obtain ⟨nonzero, single⟩ :=
    consistent.clusterCopied l1Idx inTable present l2Idx inL2 copied
  rw [consistent.exact, references] at single
  generalize own :
    image.clusterOffset l1Idx l2Idx / image.header.clusterSize =
      clustIdx at single
  have member : (l1Idx, l2Idx) ∈ image.entries :=
    mem_entries.mpr ⟨inTable, inL2⟩
  have itself : 0 < image.dataReferences clustIdx :=
    List.countP_pos_iff.mpr
      ⟨(l1Idx, l2Idx), member, by
        simp [QcowHeader.RefersTo, present, nonzero, own]⟩
  have fixed : image.header.references clustIdx = 0 := by omega
  have blocks : image.blockReferences clustIdx = 0 := by omega
  have tables : image.tableReferences clustIdx = 0 := by omega
  have once : image.dataReferences clustIdx ≤ 1 := by omega
  rw [QcowHeader.references] at fixed
  rw [blockReferences, List.countP_eq_zero] at blocks
  rw [tableReferences, List.countP_eq_zero] at tables
  constructor
  · rw [own]
    intro overlaps
    rw [if_pos overlaps] at fixed
    omega
  · rw [own]
    intro overlaps
    rw [if_pos overlaps] at fixed
    omega
  · rw [own]
    intro rftIdx inside entry same
    apply blocks rftIdx (List.mem_range.mpr inside)
    simp [QcowHeader.RefersTo, entry, same]
  · rw [own]
    intro other inside entry same
    apply tables other (List.mem_range.mpr inside)
    simp [QcowHeader.RefersTo, entry, same]
  · rw [own]
    intro other inside otherPresent index indexInside otherNonzero same
    have equal : (other, index) = (l1Idx, l2Idx) :=
      eq_of_countP_le_one once
        (mem_entries.mpr ⟨inside, indexInside⟩)
        (by simp [QcowHeader.RefersTo, otherPresent, otherNonzero, same]) member
        (by simp [QcowHeader.RefersTo, present, nonzero, own])
    exact Prod.mk.inj equal

/-! ## Images with the same tables -/

/-- Two images whose headers and tables have the same bytes. -/
structure SameTables (image other : Image) : Prop where
  version : other.version = image.version
  header : other.header = image.header
  size : other.size = image.size
  l1 :
    ∀ position < image.header.l1Size * 8,
      other.bytes (image.header.l1TableOffset + position) =
        image.bytes (image.header.l1TableOffset + position)
  refcountTable :
    ∀ position < image.header.rfSize * 8,
      other.bytes (image.header.refcountTableOffset + position) =
        image.bytes (image.header.refcountTableOffset + position)
  tables :
    ∀ l1Idx < image.header.l1Size, image.tableOffset l1Idx ≠ 0 →
      ∀ position < image.header.l2Size * 8,
        other.bytes (image.tableOffset l1Idx + position) =
          image.bytes (image.tableOffset l1Idx + position)
  blocks :
    ∀ rftIdx < image.header.rfSize, image.rfEntry rftIdx ≠ 0 →
      ∀ position < image.header.clusterSize,
        other.bytes (image.rfEntry rftIdx + position) =
          image.bytes (image.rfEntry rftIdx + position)

namespace SameTables

variable {other : Image}

theorem l1Entry (same : SameTables image other) {l1Idx : Nat}
    (inTable : l1Idx < image.header.l1Size) :
    other.l1Entry l1Idx = image.l1Entry l1Idx := by
  unfold Image.l1Entry
  rw [same.header]
  apply be64_congr
  intro index small
  rw [Nat.add_assoc]
  exact same.l1 (l1Idx * 8 + index) (by omega)

theorem tableOffset (same : SameTables image other) {l1Idx : Nat}
    (inTable : l1Idx < image.header.l1Size) :
    other.tableOffset l1Idx = image.tableOffset l1Idx := by
  unfold Image.tableOffset
  rw [same.version, same.l1Entry inTable]

theorem l2Entry (same : SameTables image other) {l1Idx l2Idx : Nat}
    (inTable : l1Idx < image.header.l1Size)
    (present : image.tableOffset l1Idx ≠ 0)
    (inL2 : l2Idx < image.header.l2Size) :
    other.l2Entry l1Idx l2Idx = image.l2Entry l1Idx l2Idx := by
  unfold Image.l2Entry
  rw [same.tableOffset inTable]
  apply be64_congr
  intro index small
  rw [Nat.add_assoc]
  exact same.tables l1Idx inTable present (l2Idx * 8 + index) (by omega)

theorem clusterOffset (same : SameTables image other)
    {l1Idx l2Idx : Nat}
    (inTable : l1Idx < image.header.l1Size)
    (present : image.tableOffset l1Idx ≠ 0)
    (inL2 : l2Idx < image.header.l2Size) :
    other.clusterOffset l1Idx l2Idx = image.clusterOffset l1Idx l2Idx := by
  unfold Image.clusterOffset
  rw [same.version, same.l2Entry inTable present inL2]

theorem rfEntry (same : SameTables image other) {rftIdx : Nat}
    (inTable : rftIdx < image.header.rfSize) :
    other.rfEntry rftIdx = image.rfEntry rftIdx := by
  unfold Image.rfEntry
  rw [same.header]
  apply be64_congr
  intro index small
  rw [Nat.add_assoc]
  exact same.refcountTable (rftIdx * 8 + index) (by omega)

theorem refcount (same : SameTables image other)
    (wellFormed : image.WellFormed) (clustIdx : Nat) :
    other.refcount clustIdx = image.refcount clustIdx := by
  unfold Image.refcount
  dsimp only
  rw [Image.blockSize, same.header, ← Image.blockSize]
  by_cases beyond :
      image.header.rfSize ≤ clustIdx / image.blockSize
  · rw [if_pos beyond, if_pos beyond]
  · have inTable := Nat.not_le.mp beyond
    rw [if_neg beyond, if_neg beyond, same.rfEntry inTable]
    by_cases absent : image.rfEntry (clustIdx / image.blockSize) = 0
    · rw [if_pos absent, if_pos absent]
    · rw [if_neg absent, if_neg absent]
      apply beNumber_congr
      intro index small
      have whole := sector_dvd_clusterSize wellFormed
      have positive := clusterSize_pos image.header
      have inBlock : clustIdx % image.blockSize < image.blockSize := by
        apply Nat.mod_lt
        unfold Image.blockSize
        omega
      rw [Nat.add_assoc]
      apply same.blocks _ inTable absent
      unfold Image.blockSize at inBlock ⊢
      omega

theorem references (same : SameTables image other) (clustIdx : Nat) :
    other.references clustIdx = image.references clustIdx := by
  have blocks :
      other.blockReferences clustIdx = image.blockReferences clustIdx := by
    unfold Image.blockReferences
    rw [same.header]
    apply List.countP_congr
    intro rftIdx member
    rw [same.rfEntry (List.mem_range.mp member)]
  have tables :
      other.tableReferences clustIdx = image.tableReferences clustIdx := by
    unfold Image.tableReferences
    rw [same.header]
    apply List.countP_congr
    intro l1Idx member
    rw [same.tableOffset (List.mem_range.mp member)]
  have data :
      other.dataReferences clustIdx = image.dataReferences clustIdx := by
    unfold Image.dataReferences Image.entries
    rw [same.header]
    apply List.countP_congr
    rintro ⟨l1Idx, l2Idx⟩ member
    obtain ⟨inTable, inL2⟩ := mem_entries.mp member
    rw [same.tableOffset inTable]
    by_cases absent : image.tableOffset l1Idx = 0
    · simp [absent]
    · rw [same.clusterOffset inTable absent inL2]
  rw [Image.references, Image.references, same.header, blocks, tables,
    data]

theorem wellFormed (same : SameTables image other)
    (wellFormed : image.WellFormed) : other.WellFormed := by
  constructor
  · rw [same.header]
    exact wellFormed.clusterBits_ge
  · rw [same.header]
    exact wellFormed.clusterBits_le
  · rw [same.header]
    exact wellFormed.l2Bits_le
  · rw [same.header, same.version]
    exact wellFormed.l2Bits_eq
  · rw [same.header]
    exact wellFormed.size_lt
  · rw [same.header]
    exact wellFormed.covers
  · rw [same.size]
    exact wellFormed.addressable
  · rw [same.header, same.size]
    exact wellFormed.l1Inside
  · rw [same.header, same.size]
    intro l1Idx inTable
    rw [same.tableOffset inTable]
    exact wellFormed.tablesInside l1Idx inTable
  · rw [same.header, same.size]
    intro l1Idx inTable
    rw [same.tableOffset inTable]
    intro present l2Idx inL2
    rw [same.clusterOffset inTable present inL2]
    exact wellFormed.clustersInside l1Idx inTable present l2Idx inL2
  · rw [same.header, same.version]
    intro l1Idx inTable
    rw [same.tableOffset inTable]
    intro present l2Idx inL2
    rw [same.l2Entry inTable present inL2]
    exact wellFormed.uncompressed l1Idx inTable present l2Idx inL2

/-- Consistency is a matter of the tables. -/
theorem consistent (same : SameTables image other)
    (consistent : image.Consistent) : other.Consistent := by
  have wellFormed := consistent.wellFormed
  constructor
  · exact same.wellFormed wellFormed
  · rw [same.version]
    exact consistent.version
  · intro clustIdx
    rw [same.refcount wellFormed, same.references]
    exact consistent.exact clustIdx
  · rw [same.header]
    intro rftIdx inTable
    rw [same.rfEntry inTable]
    exact consistent.blocksAligned rftIdx inTable
  · rw [same.header]
    intro l1Idx inTable
    rw [same.tableOffset inTable]
    exact consistent.tablesAligned l1Idx inTable
  · rw [same.header]
    intro l1Idx inTable
    rw [same.tableOffset inTable]
    intro present l2Idx inL2
    rw [same.clusterOffset inTable present inL2]
    exact consistent.clustersAligned l1Idx inTable present l2Idx inL2
  · rw [same.header]
    intro l1Idx inTable
    rw [TableCopied, same.l1Entry inTable, same.tableOffset inTable,
      same.refcount wellFormed]
    exact consistent.tableCopied l1Idx inTable
  · rw [same.header]
    intro l1Idx inTable
    rw [same.tableOffset inTable]
    intro present l2Idx inL2
    rw [ClusterCopied, same.l2Entry inTable present inL2,
      same.clusterOffset inTable present inL2, same.refcount wellFormed]
    exact consistent.clusterCopied l1Idx inTable present l2Idx inL2

theorem l1Index (same : SameTables image other) (position : Nat) :
    other.l1Index position = image.l1Index position := by
  rw [Image.l1Index, Image.l1Index, same.header]

theorem l2Index (same : SameTables image other) (position : Nat) :
    other.l2Index position = image.l2Index position := by
  rw [Image.l2Index, Image.l2Index, same.header]

theorem refl (image : Image) : SameTables image image := by
  constructor <;> intros <;> rfl

theorem trans {third : Image} (first : SameTables image other)
    (second : SameTables other third) : SameTables image third := by
  have header := first.header
  constructor
  · rw [second.version, first.version]
  · rw [second.header, header]
  · rw [second.size, first.size]
  · intro position small
    have step := second.l1 position (header.symm ▸ small)
    rw [header] at step
    exact step.trans (first.l1 position small)
  · intro position small
    have step := second.refcountTable position (header.symm ▸ small)
    rw [header] at step
    exact step.trans (first.refcountTable position small)
  · intro l1Idx inTable present position small
    have offset := first.tableOffset inTable
    have step :=
      second.tables l1Idx (header.symm ▸ inTable) (offset.symm ▸ present)
        position (header.symm ▸ small)
    rw [offset] at step
    exact step.trans (first.tables l1Idx inTable present position small)
  · intro rftIdx inTable present position small
    have entry := first.rfEntry inTable
    have step :=
      second.blocks rftIdx (header.symm ▸ inTable) (entry.symm ▸ present)
        position (header.symm ▸ small)
    rw [entry] at step
    exact step.trans (first.blocks rftIdx inTable present position small)

/-- So is whether a position of the disk is copied. -/
theorem copied_iff (same : SameTables image other)
    (consistent : image.Consistent) {position : Nat}
    (inDisk : position < image.header.size) :
    other.Copied position ↔ image.Copied position := by
  have inTable := l1Index_lt consistent.wellFormed inDisk
  unfold Copied TableCopied ClusterCopied
  rw [same.l1Index, same.l2Index, same.l1Entry inTable]
  constructor
  all_goals
    rintro ⟨tableCopied, clusterCopied⟩
    have present :=
      (consistent.tableCopied _ inTable tableCopied).1
    have entry := same.l2Entry inTable present (l2Index_lt image position)
    refine ⟨tableCopied, ?_⟩
  · rw [← entry]
    exact clusterCopied
  · rw [entry]
    exact clusterCopied

end SameTables

/-! ## Changes inside a copied cluster -/

/-- Where the byte of a position is in the file. -/
def home (image : Image) (position : Nat) : Nat :=
  image.clusterOffset (image.l1Index position) (image.l2Index position) +
    position % image.header.clusterSize

/-- The image after a change of some bytes. -/
def patch (image : Image) (start count : Nat) (source : Buffer)
    (src : Nat) : Image :=
  { image with bytes := store image.bytes start count source src }

theorem div_of_aligned {unit start further : Nat} (aligned : unit ∣ start)
    (small : further < unit) : (start + further) / unit = start / unit := by
  obtain ⟨count, rfl⟩ := aligned
  have positive : 0 < unit := by omega
  rw [Nat.mul_add_div positive, Nat.div_eq_of_lt small, Nat.add_zero,
    Nat.mul_div_cancel_left _ positive]

theorem overlaps_of_mem (header : QcowHeader) {start length place : Nat}
    (after : start ≤ place) (before : place < start + length) :
    header.Overlaps (place / header.clusterSize) start length := by
  have positive := clusterSize_pos header
  have below : place / header.clusterSize * header.clusterSize ≤ place :=
    Nat.div_mul_le_self _ _
  have above :
      place < (place / header.clusterSize + 1) * header.clusterSize := by
    rw [Nat.mul_comm]
    exact Nat.lt_mul_div_succ place positive
  exact lt_of_le_of_lt (max_le after below) (lt_min before above)

/-- An L2 table fills a cluster. -/
theorem Consistent.tableSize (consistent : image.Consistent) :
    image.header.l2Size * 8 = image.header.clusterSize := by
  have bits := consistent.wellFormed.l2Bits_eq consistent.version
  have large := consistent.wellFormed.clusterBits_ge
  have split :
      image.header.clusterBits = (image.header.clusterBits - 3) + 3 := by
    omega
  rw [l2Size_eq, clusterSize_eq, bits]
  conv_rhs => rw [split, Nat.pow_add]

section Change

variable (consistent : image.Consistent) {position : Nat}
  (inDisk : position < image.header.size)
  (copied : image.Copied position)

include consistent inDisk copied

theorem Consistent.present :
    image.tableOffset (image.l1Index position) ≠ 0 :=
  (consistent.tableCopied _ (l1Index_lt consistent.wellFormed inDisk)
    copied.1).1

theorem Consistent.allocated :
    image.clusterOffset (image.l1Index position)
      (image.l2Index position) ≠ 0 :=
  (consistent.clusterCopied _ (l1Index_lt consistent.wellFormed inDisk)
    (consistent.present inDisk copied) _ (l2Index_lt image position)
    copied.2).1

theorem Consistent.unshared :
    image.OnlyReference (image.l1Index position)
      (image.l2Index position) :=
  consistent.onlyReference (l1Index_lt consistent.wellFormed inDisk)
    (consistent.present inDisk copied) (l2Index_lt image position) copied.2

variable {count : Nat}
  (within :
    count ≤ image.header.clusterSize - position % image.header.clusterSize)

include within

/-- A byte that is changed is in the cluster of the position. -/
theorem Consistent.div_of_changed {place : Nat}
    (changed :
      image.home position ≤ place ∧ place < image.home position + count) :
    place / image.header.clusterSize =
      image.clusterOffset (image.l1Index position)
          (image.l2Index position) / image.header.clusterSize := by
  have aligned :=
    consistent.clustersAligned _ (l1Index_lt consistent.wellFormed inDisk)
      (consistent.present inDisk copied) _ (l2Index_lt image position)
  unfold home at changed
  generalize image.clusterOffset (image.l1Index position)
    (image.l2Index position) = cluster at changed aligned ⊢
  have split : place = cluster + (place - cluster) := by omega
  rw [split]
  exact div_of_aligned aligned (by omega)

/-- A change inside a copied cluster leaves the tables as they are. -/
theorem Consistent.sameTables_patch
    (source : Buffer) (src : Nat) :
    SameTables image
      (image.patch (image.home position) count source src) := by
  have unshared := consistent.unshared inDisk copied
  have tableSize := consistent.tableSize
  have unchanged :
      ∀ place,
        place / image.header.clusterSize ≠
            image.clusterOffset (image.l1Index position)
                (image.l2Index position) / image.header.clusterSize →
          (image.patch (image.home position) count source src).bytes
              place =
            image.bytes place := by
    intro place elsewhere
    apply store_of_not_mem
    intro changed
    exact elsewhere
      (consistent.div_of_changed inDisk copied within changed)
  constructor
  · rfl
  · rfl
  · rfl
  · intro offset small
    apply unchanged
    intro same
    apply unshared.notL1
    rw [← same]
    exact overlaps_of_mem image.header (Nat.le_add_right _ _) (by omega)
  · intro offset small
    apply unchanged
    intro same
    apply unshared.notRefcountTable
    rw [← same]
    have entries :
        image.header.rfSize * 8 ≤
          image.header.refcountTableSize * image.header.clusterSize := by
      have truncated := Nat.mod_le
        (image.header.refcountTableSize * image.header.clusterSize / 8)
        (2 ^ 32)
      have whole := Nat.div_mul_le_self
        (image.header.refcountTableSize * image.header.clusterSize) 8
      unfold QcowHeader.rfSize
      omega
    exact overlaps_of_mem image.header (Nat.le_add_right _ _) (by omega)
  · intro l1Idx inTable present offset small
    apply unchanged
    rw [div_of_aligned (consistent.tablesAligned l1Idx inTable) (by omega)]
    exact unshared.notTable l1Idx inTable present
  · intro rftIdx inTable present offset small
    apply unchanged
    rw [div_of_aligned (consistent.blocksAligned rftIdx inTable) small]
    exact unshared.notBlock rftIdx inTable present

/-- Within the cluster of the position, the change shows where it is made. -/
theorem Consistent.byteAt_patch_same_cluster
    (source : Buffer) (src : Nat) {other : Nat}
    (sameCluster :
      other / image.header.clusterSize =
        position / image.header.clusterSize) :
    (image.patch (image.home position) count source src).byteAt other =
      store image.byteAt position count source src other := by
  have same := consistent.sameTables_patch inDisk copied within source src
  have inTable := l1Index_lt consistent.wellFormed inDisk
  have inL2 := l2Index_lt image position
  have present := consistent.present inDisk copied
  have allocated := consistent.allocated inDisk copied
  have l1Eq := l1Index_eq_of_div_eq image sameCluster
  have l2Eq := l2Index_eq_of_div_eq image sameCluster
  have splitOther := Nat.div_add_mod other image.header.clusterSize
  have splitPosition := Nat.div_add_mod position image.header.clusterSize
  have smallOther := Nat.mod_lt other (clusterSize_pos image.header)
  have smallPosition := Nat.mod_lt position (clusterSize_pos image.header)
  rw [sameCluster] at splitOther
  have byte :
      image.byteAt other =
        image.bytes
          (image.clusterOffset (image.l1Index position)
              (image.l2Index position) +
            other % image.header.clusterSize) := by
    rw [Image.byteAt, l1Eq, l2Eq, if_neg present]
    exact if_neg allocated
  rw [Image.byteAt, same.l1Index, same.l2Index, l1Eq, l2Eq,
    same.tableOffset inTable, same.clusterOffset inTable present inL2,
    if_neg present]
  dsimp only
  rw [if_neg allocated, same.header]
  unfold patch store home
  dsimp only
  generalize image.clusterOffset (image.l1Index position)
    (image.l2Index position) = cluster at byte ⊢
  by_cases changed : position ≤ other ∧ other < position + count
  · rw [if_pos changed, if_pos (by omega)]
    congr 1
    omega
  · rw [if_neg changed, if_neg (by omega), byte]

/-- Every other cluster is left as it is: it is stored elsewhere. -/
theorem Consistent.byteAt_patch_other_cluster
    (source : Buffer) (src : Nat) {other : Nat}
    (otherInDisk : other < image.header.size)
    (otherCluster :
      other / image.header.clusterSize ≠
        position / image.header.clusterSize) :
    (image.patch (image.home position) count source src).byteAt other =
      image.byteAt other := by
  have same := consistent.sameTables_patch inDisk copied within source src
  have inTable := l1Index_lt consistent.wellFormed otherInDisk
  have inL2 := l2Index_lt image other
  have smallOther := Nat.mod_lt other (clusterSize_pos image.header)
  rw [Image.byteAt, Image.byteAt, same.l1Index, same.l2Index,
    same.tableOffset inTable, same.header]
  by_cases absent : image.tableOffset (image.l1Index other) = 0
  · rw [if_pos absent, if_pos absent]
  · rw [if_neg absent, if_neg absent,
      same.clusterOffset inTable absent inL2]
    dsimp only
    by_cases unallocated :
        image.clusterOffset (image.l1Index other)
          (image.l2Index other) = 0
    · rw [if_pos unallocated, if_pos unallocated]
    · rw [if_neg unallocated, if_neg unallocated]
      apply store_of_not_mem
      intro changed
      have shared :=
        consistent.div_of_changed inDisk copied within changed
      have aligned :=
        consistent.clustersAligned _ inTable absent _ inL2
      rw [div_of_aligned aligned smallOther] at shared
      obtain ⟨l1Eq, l2Eq⟩ :=
        (consistent.unshared inDisk copied).notCluster _ inTable absent
          _ inL2 unallocated shared
      exact otherCluster (div_eq_of_indices_eq image l1Eq l2Eq)

/-- The change shows at the positions it is for, and at no other. -/
theorem Consistent.byteAt_patch
    (source : Buffer) (src : Nat) {other : Nat}
    (otherInDisk : other < image.header.size) :
    (image.patch (image.home position) count source src).byteAt other =
      store image.byteAt position count source src other := by
  by_cases sameCluster :
      other / image.header.clusterSize =
        position / image.header.clusterSize
  · exact consistent.byteAt_patch_same_cluster inDisk copied within source
      src sameCluster
  · have splitPosition := Nat.div_add_mod position image.header.clusterSize
    have outside : ¬ (position ≤ other ∧ other < position + count) := by
      rintro ⟨after, before⟩
      apply sameCluster
      apply Nat.div_eq_of_lt_le
      · rw [Nat.mul_comm]
        omega
      · rw [Nat.add_one_mul, Nat.mul_comm]
        omega
    rw [store_of_not_mem outside]
    exact consistent.byteAt_patch_other_cluster inDisk copied within source
      src otherInDisk sameCluster

end Change

end Image

/-! ## The small image -/

/-- Nothing in the small image refers to a cluster behind the sixth. -/
theorem smallImage_references {clustIdx : Nat} (behind : 6 ≤ clustIdx) :
    smallImage.references clustIdx = 0 := by
  have size : smallImage.header.clusterSize = 512 := rfl
  have header : smallImage.header.references clustIdx = 0 := by
    have notL1 :
        ¬ smallImage.header.Overlaps clustIdx
          smallImage.header.l1TableOffset
          (smallImage.header.l1Size * 8) := by
      show ¬ max 1536 (clustIdx * 512) < min (1536 + 8) _
      omega
    have notTable :
        ¬ smallImage.header.Overlaps clustIdx
          smallImage.header.refcountTableOffset
          (smallImage.header.refcountTableSize *
            smallImage.header.clusterSize) := by
      show ¬ max 512 (clustIdx * 512) < min (512 + 512) _
      omega
    rw [QcowHeader.references, if_neg (by omega), if_neg notL1,
      if_neg notTable]
  have blocks : smallImage.blockReferences clustIdx = 0 := by
    have bounded :
        ∀ rftIdx ∈ List.range smallImage.header.rfSize,
          smallImage.rfEntry rftIdx < 3072 := by
      decide +kernel
    apply List.countP_eq_zero.mpr
    intro rftIdx member
    have small := bounded rftIdx member
    simp only [QcowHeader.RefersTo, size, decide_eq_true_eq]
    omega
  have tables : smallImage.tableReferences clustIdx = 0 := by
    have bounded :
        ∀ l1Idx ∈ List.range smallImage.header.l1Size,
          smallImage.tableOffset l1Idx < 3072 := by
      decide +kernel
    apply List.countP_eq_zero.mpr
    intro l1Idx member
    have small := bounded l1Idx member
    simp only [QcowHeader.RefersTo, size, decide_eq_true_eq]
    omega
  have data : smallImage.dataReferences clustIdx = 0 := by
    have bounded :
        ∀ entry ∈ smallImage.entries,
          smallImage.clusterOffset entry.1 entry.2 < 3072 := by
      decide +kernel
    apply List.countP_eq_zero.mpr
    intro entry member
    have small := bounded entry member
    simp only [QcowHeader.RefersTo, size, decide_eq_true_eq]
    omega
  rw [Image.references, header, blocks, tables, data]

theorem smallImage_refcount {clustIdx : Nat} (behind : 6 ≤ clustIdx) :
    smallImage.refcount clustIdx = 0 := by
  have first :
      ∀ index < 256, 6 ≤ index → smallImage.refcount index = 0 := by
    decide +kernel
  have others :
      ∀ rftIdx < 64, 0 < rftIdx → smallImage.rfEntry rftIdx = 0 := by
    decide +kernel
  by_cases inFirst : clustIdx < 256
  · exact first clustIdx inFirst behind
  · have block : smallImage.blockSize = 256 := rfl
    have tableSize : smallImage.header.rfSize = 64 := rfl
    rw [Image.refcount, block, tableSize]
    by_cases beyond : 64 ≤ clustIdx / 256
    · rw [if_pos beyond]
    · rw [if_neg beyond, if_pos (others _ (by omega) (by omega))]

theorem smallImage_consistent : smallImage.Consistent := by
  constructor
  · exact smallImage_wellFormed
  · rfl
  · intro clustIdx
    have first :
        ∀ index < 6,
          smallImage.refcount index = smallImage.references index := by
      decide +kernel
    by_cases inside : clustIdx < 6
    · exact first clustIdx inside
    · rw [smallImage_refcount (Nat.not_lt.mp inside),
        smallImage_references (Nat.not_lt.mp inside)]
  all_goals decide +kernel

end Kemu.Disk.Qcow
