import Kemu.Disk.Qcow.Exactness

/-!
# Refcount blocks

What the refcount table in memory and the blocks of the file say about each
cluster, and what the functions on single blocks do to it.  A state is
coherent when its blocks lie apart in the file and each cached block is the
one on disk; reading, counting and linking a block keep it so.
-/

namespace Kemu.Disk.Qcow

open Kemu.Lib.LruCache
open Kemu.Lib.SearchTree
open Kemu.Util.ReadWrite

/-! ## Numbers in buffers -/

theorem beNumber_succ (width : Nat) (buffer : Buffer) (start : Nat) :
    beNumber (width + 1) buffer start =
      beNumber width buffer start * 256 +
        (buffer (start + width)).toNat := by
  rw [beNumber, List.range_succ, List.foldl_append]
  rfl

/-- The first bytes of a number that was stored are its highest ones. -/
theorem beNumber_putNumber_take {width count : Nat}
    (few : count ≤ width) (buffer : Buffer) (start : Nat) {value : Nat}
    (small : value < 256 ^ width) :
    beNumber count (putNumber width buffer start value) start =
      value >>> (8 * (width - count)) := by
  induction count with
  | zero =>
      rw [Nat.sub_zero, Nat.shiftRight_eq_div_pow, Nat.pow_mul]
      exact (Nat.div_eq_of_lt small).symm
  | succ count induction =>
      have byte :
          putNumber width buffer start value (start + count) =
            UInt8.ofNat (value >>> (8 * (width - 1 - count))) := by
        unfold putNumber
        rw [store_of_mem (by omega), Nat.zero_add, Nat.add_sub_cancel_left]
      have next : 8 * (width - count) = 8 * (width - 1 - count) + 8 := by
        omega
      have same : width - (count + 1) = width - 1 - count := by omega
      rw [beNumber_succ, induction (by omega), byte, same, next,
        Nat.shiftRight_add]
      generalize value >>> (8 * (width - 1 - count)) = rest
      rw [Nat.shiftRight_eq_div_pow, UInt8.toNat_ofNat']
      exact Nat.div_add_mod' rest 256

theorem beNumber_putNumber (width : Nat) (buffer : Buffer) (start : Nat)
    {value : Nat} (small : value < 256 ^ width) :
    beNumber width (putNumber width buffer start value) start = value := by
  rw [beNumber_putNumber_take le_rfl buffer start small, Nat.sub_self]
  rfl

/-- A number elsewhere is not changed. -/
theorem beNumber_putNumber_apart {width other start place : Nat}
    (apart : place + other ≤ start ∨ start + width ≤ place)
    (buffer : Buffer) (value : Nat) :
    beNumber other (putNumber width buffer start value) place =
      beNumber other buffer place := by
  apply beNumber_congr
  intro index small
  exact store_of_not_mem (by omega) _ _ _

/-! ## Refcounts -/

/-- The number of entries of a refcount block. -/
def QcowHeader.blockSize (header : QcowHeader) : Nat :=
  header.clusterSize / 2

/-- The number of clusters that the refcount table has entries for. -/
def QcowHeader.counted (header : QcowHeader) : Nat :=
  header.rfSize * header.blockSize

namespace QcowState

/-- An entry of the refcount table in memory. -/
def rfEntry (q : QcowState) (rftIdx : Nat) : Nat :=
  be64 q.rfTable (rftIdx * 8)

/-- The refcount of a cluster, in the block the table in memory has for it. -/
def refcount (q : QcowState) (clustIdx : Nat) : Nat :=
  let rftIdx := clustIdx / q.header.blockSize
  if q.header.rfSize ≤ rftIdx then
    0
  else if q.rfEntry rftIdx = 0 then
    0
  else
    be16 q.file.bytes
      (q.rfEntry rftIdx + clustIdx % q.header.blockSize * 2)

/-- A cached block is one of the table's and as it is on disk. -/
structure ShowsBlock (q : QcowState) (offset : Nat)
    (block : QcowRefcountBlock) : Prop where
  listed : ∃ rftIdx < q.header.rfSize, q.rfEntry rftIdx = offset
  nonzero : offset ≠ 0
  size : block.size = q.header.blockSize
  entries :
    ∀ position < q.header.clusterSize,
      block.entries position = q.file.bytes (offset + position)

/-- Where a block may lie: apart from the refcount table. -/
structure Room (q : QcowState) (offset : Nat) : Prop where
  aligned : q.header.clusterSize ∣ offset
  addressable : offset + q.header.clusterSize ≤ offT
  apart :
    offset + q.header.clusterSize ≤ q.header.refcountTableOffset ∨
      q.header.refcountTableOffset + q.header.rfSize * 8 ≤ offset

instance (q : QcowState) (offset : Nat) : Decidable (q.Room offset) :=
  decidable_of_iff
    (q.header.clusterSize ∣ offset ∧ offset + q.header.clusterSize ≤ offT ∧
      (offset + q.header.clusterSize ≤ q.header.refcountTableOffset ∨
        q.header.refcountTableOffset + q.header.rfSize * 8 ≤ offset))
    ⟨fun room => ⟨room.1, room.2.1, room.2.2⟩,
      fun room => ⟨room.aligned, room.addressable, room.apart⟩⟩

/-- The blocks of the table lie apart in the file. -/
structure Laid (q : QcowState) : Prop where
  clusterBits : 2 ≤ q.header.clusterBits
  clusterBits_le : q.header.clusterBits ≤ 31
  table : q.header.refcountTableOffset + q.header.rfSize * 8 ≤ offT
  room :
    ∀ rftIdx < q.header.rfSize, q.rfEntry rftIdx ≠ 0 →
      q.Room (q.rfEntry rftIdx)
  inside :
    ∀ rftIdx < q.header.rfSize, q.rfEntry rftIdx ≠ 0 →
      q.rfEntry rftIdx + q.header.clusterSize ≤ q.file.size
  distinct :
    ∀ first < q.header.rfSize, ∀ second < q.header.rfSize,
      q.rfEntry first ≠ 0 → q.rfEntry first = q.rfEntry second →
        first = second

/-- The table on disk is the one in memory. -/
def TableShown (q : QcowState) : Prop :=
  ∀ position < q.header.rfSize * 8,
    q.rfTable position =
      q.file.bytes (q.header.refcountTableOffset + position)

/-- The cached blocks are as on disk, and the host answers every call. -/
structure Coherent (q : QcowState) : Prop extends q.Laid where
  answered : q.file.NonFailing
  cacheSound : q.rfCache.Sound maxCacheNodes
  cacheHolds : q.rfCache.Holds q.ShowsBlock

end QcowState

section Indices

variable {header : QcowHeader} (bits : 2 ≤ header.clusterBits)

include bits

theorem blockSize_eq : header.blockSize = 2 ^ (header.clusterBits - 1) := by
  have split : header.clusterBits = (header.clusterBits - 1) + 1 := by
    omega
  rw [QcowHeader.blockSize, clusterSize_eq]
  conv_lhs => rw [split, Nat.pow_succ]
  exact Nat.mul_div_cancel _ (by decide)

theorem blockSize_double : header.blockSize * 2 = header.clusterSize := by
  have split : header.clusterBits = (header.clusterBits - 1) + 1 := by
    omega
  rw [blockSize_eq bits, clusterSize_eq]
  conv_rhs => rw [split, Nat.pow_succ]

theorem blockSize_ge : 2 ≤ header.blockSize := by
  have large : 2 ^ 1 ≤ 2 ^ (header.clusterBits - 1) :=
    Nat.pow_le_pow_right (by decide) (by omega)
  rw [blockSize_eq bits]
  exact large

theorem getRftIndex_eq (clustIdx : Nat) :
    getRftIndex header clustIdx = clustIdx / header.blockSize := by
  rw [getRftIndex, Nat.shiftRight_eq_div_pow, blockSize_eq bits]

theorem getRfbIndex_eq (clustIdx : Nat) :
    getRfbIndex header clustIdx = clustIdx % header.blockSize := by
  rw [getRfbIndex, Nat.one_shiftLeft, Nat.and_two_pow_sub_one_eq_mod,
    blockSize_eq bits]

theorem rfbIndex_lt (clustIdx : Nat) :
    clustIdx % header.blockSize < header.blockSize :=
  Nat.mod_lt _ (lt_of_lt_of_le (by decide) (blockSize_ge bits))

end Indices

section Counts

variable {q : QcowState} {clustIdx : Nat}

theorem refcount_of_absent
    (absent :
      q.header.rfSize ≤ clustIdx / q.header.blockSize ∨
        q.rfEntry (clustIdx / q.header.blockSize) = 0) :
    q.refcount clustIdx = 0 := by
  unfold QcowState.refcount
  dsimp only
  split
  · rfl
  · exact if_pos (absent.resolve_left ‹_›)

theorem refcount_of_present
    (inTable : clustIdx / q.header.blockSize < q.header.rfSize)
    (present : q.rfEntry (clustIdx / q.header.blockSize) ≠ 0) :
    q.refcount clustIdx =
      be16 q.file.bytes
        (q.rfEntry (clustIdx / q.header.blockSize) +
          clustIdx % q.header.blockSize * 2) := by
  unfold QcowState.refcount
  dsimp only
  rw [if_neg (Nat.not_le.mpr inTable), if_neg present]

/-- Behind the clusters that the table has entries for, none is counted. -/
theorem refcount_of_beyond (bits : 2 ≤ q.header.clusterBits)
    (beyond : q.header.counted ≤ clustIdx) : q.refcount clustIdx = 0 := by
  have positive : 0 < q.header.blockSize :=
    lt_of_lt_of_le (by decide) (blockSize_ge bits)
  exact
    refcount_of_absent
      (Or.inl ((Nat.le_div_iff_mul_le positive).mpr beyond))

end Counts

/-! ## Reading -/

theorem rfEntry_congr {q after : QcowState}
    (rfTable : after.rfTable = q.rfTable) (rftIdx : Nat) :
    after.rfEntry rftIdx = q.rfEntry rftIdx := by
  rw [QcowState.rfEntry, rfTable, QcowState.rfEntry]

theorem QcowState.Room.congr {q after : QcowState}
    (header : after.header = q.header) {offset : Nat}
    (room : q.Room offset) : after.Room offset := by
  obtain ⟨aligned, addressable, apart⟩ := room
  exact ⟨by rwa [header], by rwa [header], by rwa [header]⟩

theorem QcowState.Laid.congr {q after : QcowState} (laid : q.Laid)
    (header : after.header = q.header) (rfTable : after.rfTable = q.rfTable)
    (size : q.file.size ≤ after.file.size) : after.Laid := by
  have entry := rfEntry_congr rfTable
  constructor
  · rw [header]
    exact laid.clusterBits
  · rw [header]
    exact laid.clusterBits_le
  · rw [header]
    exact laid.table
  · intro rftIdx inTable present
    rw [header] at inTable
    rw [entry] at present ⊢
    exact (laid.room rftIdx inTable present).congr header
  · intro rftIdx inTable present
    rw [header] at inTable ⊢
    rw [entry] at present ⊢
    exact (laid.inside rftIdx inTable present).trans size
  · simpa only [header, entry] using laid.distinct

/-- The blocks of the table have the same bytes. -/
def BlocksKept (q after : QcowState) : Prop :=
  ∀ rftIdx < q.header.rfSize, q.rfEntry rftIdx ≠ 0 →
    ∀ position < q.header.clusterSize,
      after.file.bytes (q.rfEntry rftIdx + position) =
        q.file.bytes (q.rfEntry rftIdx + position)

theorem QcowState.Coherent.congr {q after : QcowState}
    (coherent : q.Coherent) (header : after.header = q.header)
    (rfTable : after.rfTable = q.rfTable)
    (size : q.file.size ≤ after.file.size) (kept : BlocksKept q after)
    (answered : after.file.NonFailing)
    (sound : after.rfCache.Sound maxCacheNodes)
    (holds : after.rfCache.Holds q.ShowsBlock) : after.Coherent := by
  refine ⟨coherent.toLaid.congr header rfTable size, answered, sound, ?_⟩
  have entry := rfEntry_congr rfTable
  intro node member
  obtain ⟨block, stored, ⟨rftIdx, inTable, key⟩, nonzero, length,
      shows⟩ :=
    holds node member
  refine ⟨block, stored, ⟨rftIdx, by rwa [header], by rwa [entry]⟩,
    nonzero, by rwa [header], ?_⟩
  intro position small
  rw [header] at small
  rw [shows position small, ← key]
  rw [← key] at nonzero
  exact (kept rftIdx inTable nonzero position small).symm

/-- The table and the blocks on disk are the same. -/
structure SameBlocks (q after : QcowState) : Prop where
  header : after.header = q.header
  rfTable : after.rfTable = q.rfTable
  size : after.file.size = q.file.size
  bytes : after.file.bytes = q.file.bytes

namespace SameBlocks

variable {q middle after : QcowState}

theorem refl (q : QcowState) : SameBlocks q q :=
  ⟨rfl, rfl, rfl, rfl⟩

theorem trans (first : SameBlocks q middle)
    (second : SameBlocks middle after) : SameBlocks q after :=
  ⟨second.header.trans first.header, second.rfTable.trans first.rfTable,
    second.size.trans first.size, second.bytes.trans first.bytes⟩

theorem rfEntry (same : SameBlocks q after) (rftIdx : Nat) :
    after.rfEntry rftIdx = q.rfEntry rftIdx :=
  rfEntry_congr same.rfTable rftIdx

theorem refcount (same : SameBlocks q after) (clustIdx : Nat) :
    after.refcount clustIdx = q.refcount clustIdx := by
  unfold QcowState.refcount
  simp only [same.header, same.rfEntry, same.bytes]

theorem coherent (same : SameBlocks q after) (coherent : q.Coherent)
    (answered : after.file.NonFailing)
    (sound : after.rfCache.Sound maxCacheNodes)
    (holds : after.rfCache.Holds q.ShowsBlock) : after.Coherent :=
  coherent.congr same.header same.rfTable same.size.ge
    (fun _ _ _ _ _ => congrFun same.bytes _) answered sound holds

end SameBlocks

section Reading

variable (lib : Rebalancer (Node Nat)) {q : QcowState}

/-- A cluster whose block is not there has no block to read. -/
theorem qcowReadRefcountBlock_absent (coherent : q.Coherent)
    {clustIdx : Nat}
    (absent :
      q.header.rfSize ≤ clustIdx / q.header.blockSize ∨
        q.rfEntry (clustIdx / q.header.blockSize) = 0) :
    qcowReadRefcountBlock lib q clustIdx = (.noSpace, q) := by
  unfold qcowReadRefcountBlock
  dsimp only
  rw [getRftIndex_eq coherent.clusterBits]
  split
  · rfl
  · exact if_pos (absent.resolve_left ‹_›)

/-- A block that was read: it is in the cache, and few others were used. -/
structure Fetched (q : QcowState) (rftIdx : Nat) (rfb : Node Nat)
    (after : QcowState) : Prop where
  same : SameBlocks q after
  coherent : after.Coherent
  freeClustIdx : after.freeClustIdx = q.freeClustIdx
  member : rfb ∈ after.rfCache.tree.inorder
  key : rfb.key = q.rfEntry rftIdx
  followed :
    ∀ node later, q.rfCache.Followed node later →
      later + 1 < maxCacheNodes → after.rfCache.Followed node (later + 1)

/-- A block of the table is found, in the cache or in the file. -/
theorem qcowReadRefcountBlock_present (coherent : q.Coherent)
    {clustIdx : Nat}
    (inTable : clustIdx / q.header.blockSize < q.header.rfSize)
    (present : q.rfEntry (clustIdx / q.header.blockSize) ≠ 0) :
    ∃ rfb after,
      qcowReadRefcountBlock lib q clustIdx = (.found rfb, after) ∧
        Fetched q (clustIdx / q.header.blockSize) rfb after := by
  have room := coherent.room _ inTable present
  have inside := coherent.inside _ inTable present
  unfold qcowReadRefcountBlock
  dsimp only
  rw [getRftIndex_eq coherent.clusterBits,
    if_neg (Nat.not_le.mpr inTable), ← QcowState.rfEntry,
    if_neg present]
  generalize entry :
    q.rfEntry (clustIdx / q.header.blockSize) = offset at *
  cases found : q.rfCache.lookup offset with
  | some rfb =>
      obtain ⟨member, key⟩ := coherent.cacheSound.lookup_some found
      refine ⟨rfb, _, rfl, ?_⟩
      have same :
          SameBlocks q { q with rfCache := q.rfCache.touch rfb } :=
        ⟨rfl, rfl, rfl, rfl⟩
      exact
        { same := same
          coherent :=
            same.coherent coherent coherent.answered
              (coherent.cacheSound.touch member)
              (coherent.cacheHolds.touch rfb)
          freeClustIdx := rfl
          member := member
          key := key.trans entry.symm
          followed := fun node later followed _ => followed.touch rfb }
  | none =>
      have missing := coherent.cacheSound.lookup_none found
      have granted : (q.file.answer != 0) = true := by
        simpa using coherent.answered.answer_ne
      have length :
          ({ q with file := q.file.skip 1 } :
              QcowState).newRefcountBlock.size * 2 =
            q.header.clusterSize :=
        blockSize_double coherent.clusterBits
      obtain ⟨calls, read⟩ :=
        preadInFull_full
          ({ q with file := q.file.skip 1 } :
            QcowState).newRefcountBlock.entries 0
          (coherent.answered.skip 1)
          (show offset + _ ≤ (q.file.skip 1).size from length ▸ inside)
          (length ▸ room.addressable)
      dsimp only [QcowState.callocs]
      rw [granted]
      dsimp only
      rw [read]
      rw [length]
      dsimp only
      generalize made : (QcowRefcountBlock.mk _ _ _) = block
      have shows : q.ShowsBlock offset block := by
        subst made
        refine ⟨⟨_, inTable, entry⟩, present, rfl, ?_⟩
        intro position small
        have within :
            0 ≤ position ∧ position < 0 + q.header.clusterSize := by
          omega
        exact store_of_mem within _ _ _
      obtain ⟨sound, key, -, holds⟩ :=
        coherent.cacheSound.add lib (by decide) missing block
      have same :
          SameBlocks q
            { q with
              rfCache := (q.rfCache.add lib maxCacheNodes offset block).2
              file := (q.file.skip 1).skip calls } :=
        ⟨rfl, rfl, rfl, rfl⟩
      refine ⟨_, _, rfl, ?_⟩
      exact
        { same := same
          coherent :=
            same.coherent coherent ((coherent.answered.skip 1).skip calls)
              sound (holds _ coherent.cacheHolds shows)
          freeClustIdx := rfl
          member := sound.listed.mem_iff.mp (Cache.add_mem lib _ _ _)
          key := key.trans entry.symm
          followed := fun node later followed few =>
            followed.add lib coherent.cacheSound few offset block }

/-- A linked block is the one on disk. -/
theorem QcowState.Coherent.blockOf (coherent : q.Coherent) {rfb : Node Nat}
    (member : rfb ∈ q.rfCache.tree.inorder) :
    q.rfCache.heap rfb.obj = some (q.blockOf rfb) ∧
      q.ShowsBlock rfb.key (q.blockOf rfb) := by
  obtain ⟨block, stored, shows⟩ := coherent.cacheHolds rfb member
  have same : q.blockOf rfb = block := by
    rw [QcowState.blockOf, stored]
    rfl
  rw [same]
  exact ⟨stored, shows⟩

/-- The refcount that is read is the one on disk. -/
theorem qcowGetRefcount_spec (coherent : q.Coherent) (clustIdx : Nat) :
    ∃ after,
      qcowGetRefcount lib q clustIdx = (q.refcount clustIdx, after) ∧
        SameBlocks q after ∧ after.Coherent ∧
        after.freeClustIdx = q.freeClustIdx := by
  unfold qcowGetRefcount
  by_cases absent :
      q.header.rfSize ≤ clustIdx / q.header.blockSize ∨
        q.rfEntry (clustIdx / q.header.blockSize) = 0
  · rw [qcowReadRefcountBlock_absent lib coherent absent,
      refcount_of_absent absent]
    exact ⟨q, rfl, SameBlocks.refl q, coherent, rfl⟩
  · obtain ⟨inTable, present⟩ := not_or.mp absent
    rw [Nat.not_le] at inTable
    obtain ⟨rfb, after, read, fetched⟩ :=
      qcowReadRefcountBlock_present lib coherent inTable present
    obtain ⟨-, shows⟩ := fetched.coherent.blockOf fetched.member
    have header := fetched.same.header
    have inBlock := rfbIndex_lt coherent.clusterBits clustIdx
    have double := blockSize_double coherent.clusterBits
    refine ⟨after, ?_, fetched.same, fetched.coherent,
      fetched.freeClustIdx⟩
    rw [read]
    dsimp only
    rw [header, getRfbIndex_eq coherent.clusterBits, shows.size, header,
      if_neg (Nat.not_le.mpr inBlock),
      refcount_of_present inTable present]
    have entry :
        be16 (after.blockOf rfb).entries
            (clustIdx % q.header.blockSize * 2) =
          be16 q.file.bytes
            (q.rfEntry (clustIdx / q.header.blockSize) +
              clustIdx % q.header.blockSize * 2) := by
      apply beNumber_congr
      intro index small
      rw [shows.entries _ (by rw [header]; omega), fetched.key,
        fetched.same.bytes, Nat.add_assoc]
    rw [entry]

end Reading

/-! ## Writing -/

theorem apart_of_aligned {unit first second : Nat}
    (alignedFirst : unit ∣ first) (alignedSecond : unit ∣ second)
    (different : first ≠ second) :
    first + unit ≤ second ∨ second + unit ≤ first := by
  obtain ⟨low, rfl⟩ := alignedFirst
  obtain ⟨high, rfl⟩ := alignedSecond
  rcases Nat.lt_trichotomy low high with less | rfl | less
  · exact Or.inl (Nat.mul_le_mul_left unit less)
  · exact absurd rfl different
  · exact Or.inr (Nat.mul_le_mul_left unit less)

section Writing

variable {q : QcowState}

theorem qcowPwriteSync_full {file : HostFile} (buf : Buffer)
    {count offset : Nat} (answered : file.NonFailing)
    (addressable : offset + count ≤ offT) (some : count ≠ 0) :
    ∃ calls,
      qcowPwriteSync file buf count offset =
        (true, (file.write offset count buf 0).skip calls) := by
  obtain ⟨calls, written⟩ :=
    pwriteInFull_full buf 0 answered addressable some
  have synced :
      fdatasync ((file.write offset count buf 0).skip calls) =
        (true, (file.write offset count buf 0).skip (1 + calls)) := by
    rw [fdatasync, HostFile.skip_skip]
    have granted : file.answers (0 + calls) ≠ 0 := (answered _).ne'
    simpa [HostFile.answer, HostFile.skip, HostFile.write] using granted
  refine ⟨1 + calls, ?_⟩
  rw [qcowPwriteSync, written]
  exact synced

/-- A block that was changed is written whole. -/
theorem writeRefcountBlock_dirty {rfb : Node Nat}
    {block : QcowRefcountBlock}
    (stored : q.rfCache.heap rfb.obj = some block)
    (dirty : block.dirty = true) (answered : q.file.NonFailing)
    (addressable : rfb.key + block.size * 2 ≤ offT)
    (some : block.size * 2 ≠ 0) :
    ∃ calls,
      writeRefcountBlock q rfb =
        (true,
          { q with
            file :=
              (q.file.write rfb.key (block.size * 2) block.entries 0).skip
                calls
            rfCache :=
              q.rfCache.modify rfb ({ · with dirty := false }) }) := by
  have same : q.blockOf rfb = block := by
    rw [QcowState.blockOf, stored]
    rfl
  obtain ⟨calls, written⟩ :=
    qcowPwriteSync_full block.entries answered addressable some
  refine ⟨calls, ?_⟩
  rw [writeRefcountBlock, same, if_pos dirty, written]

/-- What counting a cluster leaves. -/
structure Counted (q : QcowState) (clustIdx : Nat) (after : QcowState) :
    Prop where
  header : after.header = q.header
  rfTable : after.rfTable = q.rfTable
  coherent : after.Coherent
  refcount :
    after.refcount =
      Function.update q.refcount clustIdx (q.refcount clustIdx + 1)
  freeClustIdx : after.freeClustIdx = q.freeClustIdx
  lru : after.rfCache.lru = q.rfCache.lru
  table :
    ∀ position < q.header.rfSize * 8,
      after.file.bytes (q.header.refcountTableOffset + position) =
        q.file.bytes (q.header.refcountTableOffset + position)

/-- Two blocks of the table share no byte. -/
theorem QcowState.Laid.apart (laid : q.Laid)
    {first second : Nat} (inFirst : first < q.header.rfSize)
    (inSecond : second < q.header.rfSize)
    (presentFirst : q.rfEntry first ≠ 0)
    (presentSecond : q.rfEntry second ≠ 0) (different : first ≠ second) :
    q.rfEntry first + q.header.clusterSize ≤ q.rfEntry second ∨
      q.rfEntry second + q.header.clusterSize ≤ q.rfEntry first :=
  apart_of_aligned (laid.room first inFirst presentFirst).aligned
    (laid.room second inSecond presentSecond).aligned
    (fun same =>
      different
        (laid.distinct first inFirst second inSecond presentFirst same))

/-- A number that is written into a block is the refcount of its cluster. -/
theorem refcount_of_written (laid : q.Laid) {after : QcowState}
    (header : after.header = q.header) (rfTable : after.rfTable = q.rfTable)
    {clustIdx value : Nat} {block : QcowRefcountBlock}
    (inTable : clustIdx / q.header.blockSize < q.header.rfSize)
    (shows :
      q.ShowsBlock (q.rfEntry (clustIdx / q.header.blockSize)) block)
    (bytes :
      after.file.bytes =
        store q.file.bytes (q.rfEntry (clustIdx / q.header.blockSize))
          q.header.clusterSize
          (putNumber 2 block.entries
            (clustIdx % q.header.blockSize * 2) value) 0)
    (small : value < 2 ^ 16) :
    after.refcount = Function.update q.refcount clustIdx value := by
  have double := blockSize_double laid.clusterBits
  have inBlock := rfbIndex_lt laid.clusterBits clustIdx
  have entry := rfEntry_congr rfTable
  funext other
  by_cases absent :
      q.header.rfSize ≤ other / q.header.blockSize ∨
        q.rfEntry (other / q.header.blockSize) = 0
  · have different : other ≠ clustIdx := by
      rintro rfl
      exact absent.elim (Nat.not_le.mpr inTable) shows.nonzero
    rw [Function.update_of_ne different, refcount_of_absent absent]
    apply refcount_of_absent
    rwa [header, entry]
  · obtain ⟨otherIn, otherPresent⟩ := not_or.mp absent
    rw [Nat.not_le] at otherIn
    have otherInBlock := rfbIndex_lt laid.clusterBits other
    rw [refcount_of_present (by rwa [header]) (by rwa [header, entry]),
      header, entry, bytes]
    by_cases sameBlock :
        other / q.header.blockSize = clustIdx / q.header.blockSize
    · have written :
          be16
              (store q.file.bytes
                (q.rfEntry (clustIdx / q.header.blockSize))
                q.header.clusterSize
                (putNumber 2 block.entries
                  (clustIdx % q.header.blockSize * 2) value) 0)
              (q.rfEntry (clustIdx / q.header.blockSize) +
                other % q.header.blockSize * 2) =
            be16
              (putNumber 2 block.entries
                (clustIdx % q.header.blockSize * 2) value)
              (other % q.header.blockSize * 2) := by
        apply beNumber_congr
        intro index few
        rw [store_of_mem (by omega)]
        congr 1
        omega
      rw [sameBlock, written]
      by_cases same : other = clustIdx
      · rw [same, Function.update_self]
        exact beNumber_putNumber 2 _ _ small
      · have differ :
            other % q.header.blockSize ≠ clustIdx % q.header.blockSize := by
          intro sameIdx
          apply same
          rw [← Nat.div_add_mod other q.header.blockSize,
            ← Nat.div_add_mod clustIdx q.header.blockSize, sameBlock,
            sameIdx]
        rw [Function.update_of_ne same,
          refcount_of_present otherIn otherPresent, sameBlock]
        have elsewhere :
            be16
                (putNumber 2 block.entries
                  (clustIdx % q.header.blockSize * 2) value)
                (other % q.header.blockSize * 2) =
              be16 block.entries (other % q.header.blockSize * 2) :=
          beNumber_putNumber_apart (by omega) _ _
        rw [elsewhere]
        apply beNumber_congr
        intro index few
        rw [shows.entries _ (by omega), Nat.add_assoc]
    · have different : other ≠ clustIdx := by
        rintro rfl
        exact sameBlock rfl
      have apart :=
        laid.apart otherIn inTable otherPresent shows.nonzero sameBlock
      rw [Function.update_of_ne different,
        refcount_of_present otherIn otherPresent]
      apply beNumber_congr
      intro index few
      exact store_of_not_mem (by omega) _ _ _

/-- Writing a linked block keeps the cache as the disk is. -/
theorem coherent_of_written (coherent : q.Coherent) {rfb : Node Nat}
    (member : rfb ∈ q.rfCache.tree.inorder) {after : QcowState}
    (header : after.header = q.header) (rfTable : after.rfTable = q.rfTable)
    (size : q.file.size ≤ after.file.size)
    {block : QcowRefcountBlock} (length : block.size = q.header.blockSize)
    (bytes :
      after.file.bytes =
        store q.file.bytes rfb.key q.header.clusterSize block.entries 0)
    (answered : after.file.NonFailing)
    (sound : after.rfCache.Sound maxCacheNodes)
    (tree : after.rfCache.tree = q.rfCache.tree)
    (heap :
      after.rfCache.heap =
        Function.update q.rfCache.heap rfb.obj (some block)) :
    after.Coherent := by
  refine ⟨coherent.toLaid.congr header rfTable size, answered, sound, ?_⟩
  have entry := rfEntry_congr rfTable
  obtain ⟨-, -, ⟨rftIdx, inTable, key⟩, nonzero, -, -⟩ :=
    coherent.cacheHolds rfb member
  intro node inTree
  rw [tree] at inTree
  obtain ⟨content, stored, ⟨other, otherIn, otherKey⟩, otherNonzero,
      otherLength, otherShows⟩ :=
    coherent.cacheHolds node inTree
  rw [heap]
  by_cases itself : node = rfb
  · subst itself
    refine ⟨block, Function.update_self _ _ _, ?_⟩
    constructor
    · exact ⟨rftIdx, by rwa [header], by rwa [entry]⟩
    · exact nonzero
    · rw [header]
      exact length
    · intro position small
      rw [header] at small
      rw [bytes, store_of_mem (by omega)]
      congr 1
      omega
  · have elsewhere : node.obj ≠ rfb.obj := fun same =>
      itself (coherent.cacheSound.distinct node inTree rfb member same)
    refine ⟨content, ?_, ?_⟩
    · rw [Function.update_of_ne elsewhere]
      exact stored
    · constructor
      · exact ⟨other, by rwa [header], by rwa [entry]⟩
      · exact otherNonzero
      · rw [header]
        exact otherLength
      · intro position small
        rw [header] at small
        have differ : other ≠ rftIdx := by
          rintro rfl
          apply itself
          apply coherent.cacheSound.key_inj
            (coherent.cacheSound.listed.mem_iff.mpr inTree)
            (coherent.cacheSound.listed.mem_iff.mpr member)
          rw [← otherKey, key]
        have apart :=
          coherent.apart otherIn inTable (otherKey ▸ otherNonzero)
            (key ▸ nonzero) differ
        rw [otherKey, key] at apart
        rw [otherShows position small, bytes,
          store_of_not_mem (by omega)]

/-- A block after a refcount in it was written. -/
def QcowRefcountBlock.put (block : QcowRefcountBlock)
    (rfbIdx value : Nat) : QcowRefcountBlock :=
  { block with
    entries := putNumber 2 block.entries (rfbIdx * 2) value
    dirty := false }

/-- A linked block is changed and written. -/
theorem updateBlock_writes (coherent : q.Coherent) {rfb : Node Nat}
    (member : rfb ∈ q.rfCache.tree.inorder) {clustIdx : Nat}
    (inTable : clustIdx / q.header.blockSize < q.header.rfSize)
    (key : rfb.key = q.rfEntry (clustIdx / q.header.blockSize))
    (few : q.refcount clustIdx + 1 < 2 ^ 16) :
    ∃ calls strayed,
      updateBlock q rfb clustIdx 1 =
        (true,
          { q with
            strayed := strayed
            file :=
              (q.file.write rfb.key q.header.clusterSize
                ((q.blockOf rfb).put (clustIdx % q.header.blockSize)
                  (q.refcount clustIdx + 1)).entries 0).skip calls
            rfCache :=
              q.rfCache.modify rfb fun block =>
                block.put (clustIdx % q.header.blockSize)
                  (q.refcount clustIdx + 1) }) := by
  obtain ⟨stored, shows⟩ := coherent.blockOf member
  have bits := coherent.clusterBits
  have double := blockSize_double bits
  have positive := blockSize_ge bits
  have inBlock := rfbIndex_lt bits clustIdx
  have present : q.rfEntry (clustIdx / q.header.blockSize) ≠ 0 :=
    key ▸ shows.nonzero
  have room := coherent.room _ inTable present
  rw [← key] at room
  have old :
      be16 (q.blockOf rfb).entries
          (clustIdx % q.header.blockSize * 2) =
        q.refcount clustIdx := by
    rw [refcount_of_present inTable present]
    apply beNumber_congr
    intro index small
    rw [shows.entries _ (by omega), key, Nat.add_assoc]
  generalize blockEq : q.blockOf rfb = block at stored shows old ⊢
  generalize count : q.refcount clustIdx + 1 = value at few ⊢
  let counting : QcowState :=
    { q with
      strayed := q.strayed || (q.rfCache.heap rfb.obj).isNone
      rfCache :=
        q.rfCache.modify rfb fun block =>
          { block with
            entries :=
              putNumber 2 block.entries
                (clustIdx % q.header.blockSize * 2) value
            dirty := true } }
  have changed :
      counting.rfCache.heap rfb.obj =
        some
          { block with
            entries :=
              putNumber 2 block.entries
                (clustIdx % q.header.blockSize * 2) value
            dirty := true } := by
    simp [counting, Cache.modify, stored]
  have length : block.size * 2 = q.header.clusterSize := by
    rw [← double, shows.size]
  obtain ⟨calls, written⟩ :=
    writeRefcountBlock_dirty changed rfl coherent.answered
      (show rfb.key + block.size * 2 ≤ offT from
        length ▸ room.addressable)
      (show block.size * 2 ≠ 0 by omega)
  have straight :
      ({ q with
          strayed := q.strayed || (q.rfCache.heap rfb.obj).isNone } :
        QcowState).blockOf rfb = block :=
    blockEq
  refine ⟨calls, counting.strayed, ?_⟩
  unfold updateBlock
  dsimp only
  rw [getRfbIndex_eq bits, straight, shows.size,
    if_neg (Nat.not_le.mpr inBlock), old, count,
    Nat.mod_eq_of_lt few]
  unfold counting at written
  rw [written]
  dsimp only
  rw [if_neg (by omega), Cache.modify_modify, length]
  rfl

/-- A linked block counts a cluster. -/
theorem updateBlock_counted (coherent : q.Coherent) {rfb : Node Nat}
    (member : rfb ∈ q.rfCache.tree.inorder) (clustIdx : Nat)
    (inTable : clustIdx / q.header.blockSize < q.header.rfSize)
    (key : rfb.key = q.rfEntry (clustIdx / q.header.blockSize))
    (few : q.refcount clustIdx + 1 < 2 ^ 16) :
    ∃ after,
      updateBlock q rfb clustIdx 1 = (true, after) ∧
        Counted q clustIdx after := by
  obtain ⟨stored, shows⟩ := coherent.blockOf member
  obtain ⟨calls, strayed, written⟩ :=
    updateBlock_writes coherent member inTable key few
  have room :=
    coherent.room _ inTable (key ▸ shows.nonzero)
  have inside :=
    coherent.inside _ inTable (key ▸ shows.nonzero)
  rw [← key] at room inside
  have length :
      ((q.blockOf rfb).put (clustIdx % q.header.blockSize)
          (q.refcount clustIdx + 1)).size =
        q.header.blockSize :=
    shows.size
  have bytes :
      ((q.file.write rfb.key q.header.clusterSize
          ((q.blockOf rfb).put (clustIdx % q.header.blockSize)
            (q.refcount clustIdx + 1)).entries 0).skip calls).bytes =
        store q.file.bytes (q.rfEntry (clustIdx / q.header.blockSize))
          q.header.clusterSize
          (putNumber 2 (q.blockOf rfb).entries
            (clustIdx % q.header.blockSize * 2)
            (q.refcount clustIdx + 1)) 0 := by
    rw [← key]
    rfl
  refine ⟨_, written, ?_⟩
  constructor
  · rfl
  · rfl
  · exact
      coherent_of_written coherent member rfl rfl (Nat.le_max_left _ _)
        length rfl (coherent.answered.skip calls)
        { coherent.cacheSound with } rfl (Cache.modify_heap stored _)
  · rw [key] at shows
    apply refcount_of_written coherent.toLaid _ _ inTable shows _ few
    · rfl
    · rfl
    · exact bytes
  · rfl
  · rfl
  · intro position small
    have apart := room.apart
    exact store_of_not_mem (by omega) _ _ _

end Writing

/-! ## New blocks -/

/-- The block of zeros for `qcow_grow_refcount_block`. -/
def QcowState.zeroBlock (q : QcowState) (dirty : Bool) :
    QcowRefcountBlock :=
  { q.newRefcountBlock with
    entries := fun _ => 0
    dirty := dirty }

section Linking

variable (lib : Rebalancer (Node Nat)) {q : QcowState}

/-- The state once a block of zeros was written and linked. -/
def QcowState.withBlock (q : QcowState) (rftIdx offset calls : Nat) :
    QcowState :=
  { q with
    file :=
      (q.file.write offset q.header.clusterSize (fun _ => 0) 0).skip calls
    rfCache :=
      Cache.insert lib maxCacheNodes
        (q.rfCache.allocate offset (q.zeroBlock false)).2
        (q.rfCache.allocate offset (q.zeroBlock false)).1
    rfTable := putNumber 8 q.rfTable (rftIdx * 8) offset }

/-- A block of zeros is written and linked. -/
theorem writeRefcountBlock_zero (coherent : q.Coherent) {offset : Nat}
    (room : q.Room offset) :
    ∃ calls,
      writeRefcountBlock
          { q with
            rfCache :=
              (q.rfCache.allocate offset (q.zeroBlock true)).2 }
          (q.rfCache.allocate offset (q.zeroBlock true)).1 =
        (true,
          { q with
            file :=
              (q.file.write offset q.header.clusterSize
                (fun _ => 0) 0).skip calls
            rfCache :=
              (q.rfCache.allocate offset (q.zeroBlock false)).2 }) := by
  have double := blockSize_double coherent.clusterBits
  have positive := blockSize_ge coherent.clusterBits
  have length : (q.zeroBlock true).size * 2 = q.header.clusterSize :=
    double
  have stored :
      (q.rfCache.allocate offset (q.zeroBlock true)).2.heap
          (q.rfCache.allocate offset (q.zeroBlock true)).1.obj =
        some (q.zeroBlock true) :=
    Function.update_self _ _ _
  obtain ⟨calls, written⟩ :=
    writeRefcountBlock_dirty
      (show
        ({ q with
            rfCache :=
              (q.rfCache.allocate offset (q.zeroBlock true)).2 } :
          QcowState).rfCache.heap _ = _ from stored)
      rfl coherent.answered
      (show offset + (q.zeroBlock true).size * 2 ≤ offT from
        length ▸ room.addressable)
      (by omega)
  refine ⟨calls, ?_⟩
  rw [written, length]
  have cleaned :
      (q.rfCache.allocate offset (q.zeroBlock true)).2.modify
          (q.rfCache.allocate offset (q.zeroBlock true)).1
          (fun block => { block with dirty := false }) =
        (q.rfCache.allocate offset (q.zeroBlock false)).2 := by
    simp [Cache.modify, Cache.allocate, QcowState.zeroBlock]
  rw [← cleaned]
  rfl

theorem withBlock_rfEntry (rftIdx : Nat) {offset : Nat}
    (room : q.Room offset) (calls : Nat) :
    (q.withBlock lib rftIdx offset calls).rfEntry =
      Function.update q.rfEntry rftIdx offset := by
  have small : offset < 256 ^ 8 := by
    have addressable := room.addressable
    rw [offT] at addressable
    omega
  funext other
  unfold QcowState.rfEntry QcowState.withBlock
  dsimp only
  by_cases same : other = rftIdx
  · rw [same, Function.update_self]
    exact beNumber_putNumber 8 _ _ small
  · rw [Function.update_of_ne same]
    exact beNumber_putNumber_apart (by omega) _ _

/-- A block that is kept has the same refcounts. -/
theorem refcount_of_block (bits : 2 ≤ q.header.clusterBits)
    {after : QcowState} (header : after.header = q.header)
    (kept : BlocksKept q after) {clustIdx : Nat}
    (inside : clustIdx / q.header.blockSize < q.header.rfSize)
    (present : q.rfEntry (clustIdx / q.header.blockSize) ≠ 0)
    (same :
      after.rfEntry (clustIdx / q.header.blockSize) =
        q.rfEntry (clustIdx / q.header.blockSize)) :
    after.refcount clustIdx = q.refcount clustIdx := by
  have double := blockSize_double bits
  have inBlock := rfbIndex_lt bits clustIdx
  rw [refcount_of_present inside present,
    refcount_of_present (by rwa [header]) (by rwa [header, same]), header,
    same]
  apply beNumber_congr
  intro index few
  rw [Nat.add_assoc]
  exact kept _ inside present _ (by omega)

theorem refcount_of_kept (bits : 2 ≤ q.header.clusterBits)
    {after : QcowState} (header : after.header = q.header)
    (rfTable : after.rfTable = q.rfTable) (kept : BlocksKept q after) :
    after.refcount = q.refcount := by
  have entry := rfEntry_congr rfTable
  funext clustIdx
  by_cases missing :
      q.header.rfSize ≤ clustIdx / q.header.blockSize ∨
        q.rfEntry (clustIdx / q.header.blockSize) = 0
  · rw [refcount_of_absent missing]
    apply refcount_of_absent
    rwa [header, entry]
  · obtain ⟨inside, present⟩ := not_or.mp missing
    exact
      refcount_of_block bits header kept (Nat.not_le.mp inside) present
        (entry _)

/-- A block of zeros in place of none counts no cluster. -/
theorem refcount_of_linked (bits : 2 ≤ q.header.clusterBits)
    {after : QcowState} (header : after.header = q.header)
    {rftIdx offset : Nat}
    (entry : after.rfEntry = Function.update q.rfEntry rftIdx offset)
    (absent : q.rfEntry rftIdx = 0) (others : BlocksKept q after)
    (zeros :
      ∀ position < q.header.clusterSize,
        after.file.bytes (offset + position) = 0) :
    after.refcount = q.refcount := by
  have double := blockSize_double bits
  funext clustIdx
  have inBlock := rfbIndex_lt bits clustIdx
  by_cases missing :
      q.header.rfSize ≤ clustIdx / q.header.blockSize ∨
        q.rfEntry (clustIdx / q.header.blockSize) = 0
  · rw [refcount_of_absent missing]
    unfold QcowState.refcount
    dsimp only
    rw [header]
    by_cases new : clustIdx / q.header.blockSize = rftIdx
    · have zero :
          be16 after.file.bytes
              (offset + clustIdx % q.header.blockSize * 2) =
            0 := by
        have same :
            be16 after.file.bytes
                (offset + clustIdx % q.header.blockSize * 2) =
              be16 (fun _ => 0) 0 := by
          apply beNumber_congr
          intro index few
          rw [Nat.add_assoc]
          exact zeros _ (by omega)
        rw [same]
        rfl
      rw [entry, new, Function.update_self, zero, ite_self, ite_self]
    · rw [entry, Function.update_of_ne new]
      rcases missing with beyond | none
      · rw [if_pos beyond]
      · rw [if_pos none, ite_self]
  · obtain ⟨inside, present⟩ := not_or.mp missing
    rw [Nat.not_le] at inside
    have old : clustIdx / q.header.blockSize ≠ rftIdx := by
      rintro rfl
      exact present absent
    have same :
        after.rfEntry (clustIdx / q.header.blockSize) =
          q.rfEntry (clustIdx / q.header.blockSize) := by
      rw [entry, Function.update_of_ne old]
    exact refcount_of_block bits header others inside present same

/-- What linking a new block leaves. -/
structure Linked (q : QcowState) (rftIdx offset : Nat) (rfb : Node Nat)
    (after : QcowState) : Prop where
  header : after.header = q.header
  coherent : after.Coherent
  rfEntry : after.rfEntry = Function.update q.rfEntry rftIdx offset
  refcount : after.refcount = q.refcount
  freeClustIdx : after.freeClustIdx = q.freeClustIdx
  key : rfb.key = offset
  newest : after.rfCache.Followed rfb 0
  followed :
    ∀ node later, q.rfCache.Followed node later →
      later + 1 < maxCacheNodes → after.rfCache.Followed node (later + 1)

section Link

variable {rftIdx offset : Nat} (coherent : q.Coherent)
  (room : q.Room offset)
  (fresh : ∀ other < q.header.rfSize, q.rfEntry other ≠ offset)
  (calls : Nat)

include coherent room fresh

/-- The other blocks are not written. -/
theorem withBlock_kept :
    BlocksKept q (q.withBlock lib rftIdx offset calls) := by
  intro other inside present position small
  have apart :=
    apart_of_aligned (coherent.room other inside present).aligned
      room.aligned (fresh other inside)
  have elsewhere :
      ¬ (offset ≤ q.rfEntry other + position ∧
        q.rfEntry other + position < offset + q.header.clusterSize) := by
    omega
  exact store_of_not_mem elsewhere q.file.bytes (fun _ => 0) 0

theorem withBlock_laid :
    (q.withBlock lib rftIdx offset calls).Laid := by
  have entry := withBlock_rfEntry lib rftIdx room calls
  have header : (q.withBlock lib rftIdx offset calls).header = q.header :=
    rfl
  constructor
  · exact coherent.clusterBits
  · exact coherent.clusterBits_le
  · exact coherent.table
  · intro other inside present
    rw [entry] at present ⊢
    by_cases new : other = rftIdx
    · rw [new, Function.update_self]
      exact room.congr header
    · rw [Function.update_of_ne new] at present ⊢
      exact (coherent.room other inside present).congr header
  · intro other inside present
    rw [entry] at present ⊢
    by_cases new : other = rftIdx
    · rw [new, Function.update_self]
      exact Nat.le_max_right _ _
    · rw [Function.update_of_ne new] at present ⊢
      exact (coherent.inside other inside present).trans (Nat.le_max_left _ _)
  · intro first inFirst second inSecond present same
    rw [entry] at present same
    by_cases newFirst : first = rftIdx
    · by_cases newSecond : second = rftIdx
      · rw [newFirst, newSecond]
      · rw [newFirst, Function.update_self,
          Function.update_of_ne newSecond] at same
        exact absurd same.symm (fresh second inSecond)
    · by_cases newSecond : second = rftIdx
      · rw [newSecond, Function.update_self,
          Function.update_of_ne newFirst] at same
        exact absurd same (fresh first inFirst)
      · rw [Function.update_of_ne newFirst] at present same
        rw [Function.update_of_ne newSecond] at same
        exact coherent.distinct first inFirst second inSecond present same

variable (inTable : rftIdx < q.header.rfSize)
  (absent : q.rfEntry rftIdx = 0) (nonzero : offset ≠ 0)

include inTable absent nonzero

/-- A new block that is written and linked. -/
theorem withBlock_linked :
    Linked q rftIdx offset ⟨offset, q.rfCache.next⟩
      (q.withBlock lib rftIdx offset calls) := by
  have entry := withBlock_rfEntry lib rftIdx room calls
  have others : BlocksKept q (q.withBlock lib rftIdx offset calls) :=
    withBlock_kept lib coherent room fresh calls
  have zeros :
      ∀ position < q.header.clusterSize,
        (q.withBlock lib rftIdx offset calls).file.bytes
            (offset + position) = 0 := by
    intro position small
    exact store_of_mem (by omega) q.file.bytes (fun _ => 0) 0
  have unshared :
      ∀ node ∈ q.rfCache.tree.inorder, node.obj ≠ q.rfCache.next :=
    fun node member => (coherent.cacheSound.allocated node member).ne
  have newKey :
      ∀ node ∈ q.rfCache.tree.inorder, node.key ≠ offset := by
    intro node member
    obtain ⟨-, -, ⟨other, inside, key⟩, -, -, -⟩ :=
      coherent.cacheHolds node member
    rw [← key]
    exact fresh other inside
  have linked :
      Cache.Linked maxCacheNodes
        (q.rfCache.allocate offset (q.zeroBlock false)).2
        (q.rfCache.allocate offset (q.zeroBlock false)).1
        (q.withBlock lib rftIdx offset calls).rfCache :=
    (coherent.cacheSound.allocate offset (q.zeroBlock false)).insert lib
      (by decide) (Nat.lt_succ_self _) unshared newKey
  have shows :
      (q.withBlock lib rftIdx offset calls).ShowsBlock offset
        (q.zeroBlock false) := by
    refine ⟨⟨rftIdx, inTable, ?_⟩, nonzero, rfl, ?_⟩
    · rw [entry, Function.update_self]
    · intro position small
      exact (zeros position small).symm
  have holds :
      q.rfCache.Holds
        (q.withBlock lib rftIdx offset calls).ShowsBlock := by
    intro node member
    obtain ⟨block, stored, ⟨other, inside, key⟩, present, size, bytes⟩ :=
      coherent.cacheHolds node member
    have old : other ≠ rftIdx := by
      rintro rfl
      rw [← key] at present
      exact present absent
    refine ⟨block, stored, ⟨other, inside, ?_⟩, present, size, ?_⟩
    · rw [entry, Function.update_of_ne old, key]
    · intro position small
      rw [bytes position small, ← key]
      rw [← key] at present
      exact (others other inside present position small).symm
  constructor
  · rfl
  · refine ⟨withBlock_laid lib coherent room fresh calls,
      coherent.answered.skip calls, linked.sound, ?_⟩
    apply linked.holds _ (holds.allocate coherent.cacheSound _ _)
    exact ⟨q.zeroBlock false, Function.update_self _ _ _, shows⟩
  · exact entry
  · exact
      refcount_of_linked coherent.clusterBits rfl entry absent others zeros
  · rfl
  · rfl
  · exact Cache.insert_followed lib _ _ _
  · intro node later followed few
    have kept :
        (q.rfCache.allocate offset (q.zeroBlock false)).2.Followed node
          later :=
      followed
    exact
      kept.insert lib
        (coherent.cacheSound.allocate offset (q.zeroBlock false)) few _

end Link

/-- What writing the refcount table leaves. -/
structure TableWritten (q after : QcowState) : Prop where
  header : after.header = q.header
  rfTable : after.rfTable = q.rfTable
  coherent : after.Coherent
  refcount : after.refcount = q.refcount
  freeClustIdx : after.freeClustIdx = q.freeClustIdx
  rfCache : after.rfCache = q.rfCache
  shown : after.TableShown

/-- The table is written, apart from the blocks. -/
theorem qcowWriteRefcountTable_written (coherent : q.Coherent)
    (some : q.header.rfSize ≠ 0) :
    ∃ after,
      qcowWriteRefcountTable q = (true, after) ∧ TableWritten q after := by
  obtain ⟨calls, written⟩ :=
    qcowPwriteSync_full q.rfTable coherent.answered coherent.table
      (by omega)
  let after : QcowState :=
    { q with
      file :=
        (q.file.write q.header.refcountTableOffset (q.header.rfSize * 8)
          q.rfTable 0).skip calls }
  have kept : BlocksKept q after := by
    intro other inside present position small
    have apart := (coherent.room other inside present).apart
    exact store_of_not_mem (by omega) q.file.bytes q.rfTable 0
  have coherentAfter : after.Coherent :=
    coherent.congr rfl rfl (Nat.le_max_left _ _) kept
      (coherent.answered.skip calls) coherent.cacheSound
      coherent.cacheHolds
  refine ⟨after, ?_, ?_⟩
  · rw [qcowWriteRefcountTable, written]
  · constructor
    · rfl
    · rfl
    · exact coherentAfter
    · exact refcount_of_kept coherent.clusterBits rfl rfl kept
    · rfl
    · rfl
    · intro position small
      have small : position < q.header.rfSize * 8 := small
      have inside :
          q.header.refcountTableOffset ≤
              q.header.refcountTableOffset + position ∧
            q.header.refcountTableOffset + position <
              q.header.refcountTableOffset + q.header.rfSize * 8 := by
        omega
      have byte :
          after.file.bytes (q.header.refcountTableOffset + position) =
            q.rfTable position := by
        show store q.file.bytes q.header.refcountTableOffset
          (q.header.rfSize * 8) q.rfTable 0
          (q.header.refcountTableOffset + position) = _
        rw [store_of_mem inside]
        congr 1
        omega
      exact byte.symm

end Linking

end Kemu.Disk.Qcow
