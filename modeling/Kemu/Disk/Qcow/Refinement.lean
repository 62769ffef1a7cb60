import Kemu.Disk.Qcow.Read
import Kemu.Lib.Transition
import Mathlib.Data.Nat.Bitwise

/-!
# Reading refines the lookup in the image

An `Image` is the content of an image file together with its header.  The
byte at a position of the virtual disk is defined by following the L1 table,
the L2 table and the cluster, with a zero where an entry is missing.

`qcow_read_sector` is shown to fill its buffers with these bytes, from every
state of the cache that reads can lead to.
-/

namespace Kemu.Disk.Qcow

open Kemu.Lib.LruCache
open Kemu.Lib.SearchTree
open Kemu.Lib.Transition
open Kemu.Util.IoVector
open Kemu.Util.ReadWrite

/-! ## What an image holds -/

/-- The header and the bytes of an image file. -/
structure Image where
  version : Version
  header : QcowHeader
  size : Nat
  bytes : Buffer

namespace Image

variable (image : Image)

/-- An entry of the L1 table. -/
def l1Entry (l1Idx : Nat) : Nat :=
  be64 image.bytes (image.header.l1TableOffset + l1Idx * 8)

/-- The L2 table an L1 entry refers to; zero for none. -/
def tableOffset (l1Idx : Nat) : Nat :=
  match image.version with
  | .qcow1 => image.l1Entry l1Idx
  | .qcow2 => image.l1Entry l1Idx % 2 ^ 63

/-- An entry of an L2 table. -/
def l2Entry (l1Idx l2Idx : Nat) : Nat :=
  be64 image.bytes (image.tableOffset l1Idx + l2Idx * 8)

/-- The cluster an L2 entry refers to; zero for none. -/
def clusterOffset (l1Idx l2Idx : Nat) : Nat :=
  match image.version with
  | .qcow1 => image.l2Entry l1Idx l2Idx
  | .qcow2 => image.l2Entry l1Idx l2Idx % 2 ^ 62

/-- The L1 entry for a position. -/
def l1Index (position : Nat) : Nat :=
  position / (image.header.l2Size * image.header.clusterSize)

/-- The L2 entry for a position. -/
def l2Index (position : Nat) : Nat :=
  position / image.header.clusterSize % image.header.l2Size

/-- The byte at a position of the virtual disk. -/
def byteAt (position : Nat) : UInt8 :=
  if image.tableOffset (image.l1Index position) = 0 then
    0
  else
    let cluster :=
      image.clusterOffset (image.l1Index position) (image.l2Index position)
    if cluster = 0 then
      0
    else
      image.bytes (cluster + position % image.header.clusterSize)

/--
A well-formed image without compressed clusters: tables and clusters lie in
the file, and the L1 table covers the virtual disk.
-/
structure WellFormed : Prop where
  clusterBits_ge : 9 ≤ image.header.clusterBits
  clusterBits_le : image.header.clusterBits ≤ 30
  l2Bits_le : image.header.l2Bits ≤ 30
  l2Bits_eq :
    image.version = .qcow2 →
      image.header.l2Bits = image.header.clusterBits - 3
  size_lt : image.header.size < 2 ^ 64
  covers :
    image.header.size ≤
      image.header.l1Size *
        (image.header.l2Size * image.header.clusterSize)
  addressable : image.size ≤ offT
  l1Inside :
    image.header.l1TableOffset + image.header.l1Size * 8 ≤ image.size
  tablesInside :
    ∀ l1Idx < image.header.l1Size, image.tableOffset l1Idx ≠ 0 →
      image.tableOffset l1Idx + image.header.l2Size * 8 ≤ image.size
  clustersInside :
    ∀ l1Idx < image.header.l1Size, image.tableOffset l1Idx ≠ 0 →
      ∀ l2Idx < image.header.l2Size, image.clusterOffset l1Idx l2Idx ≠ 0 →
        image.clusterOffset l1Idx l2Idx + image.header.clusterSize ≤
          image.size
  uncompressed :
    ∀ l1Idx < image.header.l1Size, image.tableOffset l1Idx ≠ 0 →
      ∀ l2Idx < image.header.l2Size,
        image.version.format.compressed (image.l2Entry l1Idx l2Idx) = false

end Image

/-! ## Numbers -/

theorem beNumber_congr
    {width : Nat} {first second : Buffer} {start other : Nat}
    (same :
      ∀ index < width, first (start + index) = second (other + index)) :
    beNumber width first start = beNumber width second other := by
  unfold beNumber
  apply List.foldl_ext
  intro value index member
  rw [same index (List.mem_range.mp member)]

theorem be64_congr
    {first second : Buffer} {start other : Nat}
    (same : ∀ index < 8, first (start + index) = second (other + index)) :
    be64 first start = be64 second other :=
  beNumber_congr same

theorem beNumber_lt (width : Nat) (buffer : Buffer) (start : Nat) :
    beNumber width buffer start < 256 ^ width := by
  unfold beNumber
  induction width with
  | zero => simp
  | succ width induction =>
      rw [List.range_succ, List.foldl_append, Nat.pow_succ]
      have byte := (buffer (start + width)).toNat_lt
      simp only [List.foldl_cons, List.foldl_nil]
      omega

theorem be64_lt (buffer : Buffer) (start : Nat) :
    be64 buffer start < 2 ^ 64 :=
  beNumber_lt 8 buffer start

section Indices

variable (image : Image)

theorem clusterSize_eq (header : QcowHeader) :
    header.clusterSize = 2 ^ header.clusterBits :=
  Nat.one_shiftLeft _

theorem l2Size_eq (header : QcowHeader) :
    header.l2Size = 2 ^ header.l2Bits :=
  Nat.one_shiftLeft _

theorem clusterSize_pos (header : QcowHeader) : 0 < header.clusterSize := by
  rw [clusterSize_eq]
  exact Nat.two_pow_pos _

theorem l2Size_pos (header : QcowHeader) : 0 < header.l2Size := by
  rw [l2Size_eq]
  exact Nat.two_pow_pos _

theorem getL1Index_eq (offset : Nat) :
    getL1Index image.header offset = image.l1Index offset := by
  rw [getL1Index, Image.l1Index, Nat.shiftRight_eq_div_pow, l2Size_eq,
    clusterSize_eq, Nat.pow_add]

theorem getL2Index_eq (offset : Nat) :
    getL2Index image.header offset = image.l2Index offset := by
  rw [getL2Index, Image.l2Index, Nat.shiftRight_eq_div_pow,
    Nat.one_shiftLeft, Nat.and_two_pow_sub_one_eq_mod, l2Size_eq,
    clusterSize_eq]

theorem getClusterOffset_eq (header : QcowHeader) (offset : Nat) :
    getClusterOffset header offset = offset % header.clusterSize := by
  rw [getClusterOffset, Nat.one_shiftLeft, Nat.and_two_pow_sub_one_eq_mod,
    clusterSize_eq]

theorem l2tOffset_eq (l1Idx : Nat) :
    image.version.format.l2tOffset (image.l1Entry l1Idx) =
      image.tableOffset l1Idx := by
  unfold Image.tableOffset
  cases image.version with
  | qcow1 => rfl
  | qcow2 => exact Nat.and_two_pow_sub_one_eq_mod _ _

theorem clustStart_eq (l1Idx l2Idx : Nat) :
    image.version.format.clustStart (image.l2Entry l1Idx l2Idx) =
      image.clusterOffset l1Idx l2Idx := by
  unfold Image.clusterOffset
  cases image.version with
  | qcow1 => rfl
  | qcow2 => exact Nat.and_two_pow_sub_one_eq_mod _ _

theorem l2Index_lt (offset : Nat) :
    image.l2Index offset < image.header.l2Size :=
  Nat.mod_lt _ (l2Size_pos _)

theorem l1Index_eq_div (offset : Nat) :
    image.l1Index offset =
      offset / image.header.clusterSize / image.header.l2Size := by
  rw [Image.l1Index, Nat.mul_comm, Nat.div_div_eq_div_mul]

theorem l1Index_eq_of_div_eq {offset other : Nat}
    (sameCluster :
      other / image.header.clusterSize =
        offset / image.header.clusterSize) :
    image.l1Index other = image.l1Index offset := by
  rw [l1Index_eq_div, l1Index_eq_div, sameCluster]

theorem l2Index_eq_of_div_eq {offset other : Nat}
    (sameCluster :
      other / image.header.clusterSize =
        offset / image.header.clusterSize) :
    image.l2Index other = image.l2Index offset := by
  unfold Image.l2Index
  rw [sameCluster]

/-- Positions with the same indices are in one cluster. -/
theorem div_eq_of_indices_eq {offset other : Nat}
    (sameL1 : image.l1Index other = image.l1Index offset)
    (sameL2 : image.l2Index other = image.l2Index offset) :
    other / image.header.clusterSize =
      offset / image.header.clusterSize := by
  have splitOther := Nat.div_add_mod
    (other / image.header.clusterSize) image.header.l2Size
  have splitOffset := Nat.div_add_mod
    (offset / image.header.clusterSize) image.header.l2Size
  rw [l1Index_eq_div, l1Index_eq_div] at sameL1
  unfold Image.l2Index at sameL2
  rw [← splitOther, ← splitOffset, sameL1, sameL2]

/-- Positions of one cluster have the same entries. -/
theorem byteAt_add
    {offset further : Nat}
    (within :
      further <
        image.header.clusterSize - offset % image.header.clusterSize) :
    image.byteAt (offset + further) =
      if image.tableOffset (image.l1Index offset) = 0 then
        0
      else
        let cluster :=
          image.clusterOffset (image.l1Index offset) (image.l2Index offset)
        if cluster = 0 then
          0
        else
          image.bytes
            (cluster + (offset % image.header.clusterSize + further)) := by
  have positive := clusterSize_pos image.header
  have split := Nat.div_add_mod offset image.header.clusterSize
  have sameCluster :
      (offset + further) / image.header.clusterSize =
        offset / image.header.clusterSize := by
    apply Nat.div_eq_of_lt_le
    · rw [Nat.mul_comm]
      omega
    · rw [Nat.add_one_mul, Nat.mul_comm]
      omega
  have sameOffset :
      (offset + further) % image.header.clusterSize =
        offset % image.header.clusterSize + further := by
    have splitFurther :=
      Nat.div_add_mod (offset + further) image.header.clusterSize
    rw [sameCluster] at splitFurther
    omega
  rw [Image.byteAt, l1Index_eq_of_div_eq image sameCluster,
    l2Index_eq_of_div_eq image sameCluster, sameOffset]

variable {image}

theorem l1Index_lt (wellFormed : image.WellFormed) {offset : Nat}
    (inDisk : offset < image.header.size) :
    image.l1Index offset < image.header.l1Size := by
  apply Nat.div_lt_of_lt_mul
  rw [Nat.mul_comm]
  exact inDisk.trans_le wellFormed.covers

end Indices

/-! ## States that show an image -/

/-- An L1 entry refers to the table at an offset. -/
def Image.HasTable (image : Image) (offset : Nat) : Prop :=
  ∃ l1Idx < image.header.l1Size,
    image.tableOffset l1Idx ≠ 0 ∧ image.tableOffset l1Idx = offset

/-- A table in memory is the one at an offset of the image. -/
def ShowsTable (image : Image) (offset : Nat) (l2t : QcowL2Table) : Prop :=
  image.HasTable offset ∧
    ∀ position < image.header.l2Size * 8,
      l2t.table position = image.bytes (offset + position)

/-- The state has the image open, and its caches agree with the file. -/
structure Shows (image : Image) (q : QcowState) : Prop where
  version : q.version = image.version
  header : q.header = image.header
  size : q.file.size = image.size
  bytes : q.file.bytes = image.bytes
  l1Table :
    ∀ position < image.header.l1Size * 8,
      q.l1Table position =
        image.bytes (image.header.l1TableOffset + position)
  cacheSound : q.l2Cache.Sound maxCacheNodes
  cacheHolds : q.l2Cache.Holds (ShowsTable image)
  contained : q.strayed = false

namespace Shows

variable {image : Image} {q : QcowState}

/-- Calls that change no content keep the image on show. -/
theorem skip (shows : Shows image q) (calls : Nat) :
    Shows image { q with file := q.file.skip calls } :=
  { shows with size := shows.size, bytes := shows.bytes }

theorem l1Entry (shows : Shows image q) {l1Idx : Nat}
    (inTable : l1Idx < image.header.l1Size) :
    be64 q.l1Table (l1Idx * 8) = image.l1Entry l1Idx := by
  apply be64_congr
  intro index small
  rw [shows.l1Table (l1Idx * 8 + index) (by omega), Nat.add_assoc]

end Shows

/-! ## L2 tables -/

section Reading

variable (lib : Rebalancer (Node Nat)) {image : Image} {q : QcowState}

/-- Adding a table that was read keeps the image on show. -/
theorem Shows.addTable
    (shows : Shows image q) {offset : Nat}
    (missing : q.l2Cache.lookup offset = none) {l2t : QcowL2Table}
    (read : ShowsTable image offset l2t) :
    let added := q.l2Cache.add lib maxCacheNodes offset l2t
    Shows image { q with l2Cache := added.2 } ∧
      added.2.heap added.1.obj = some l2t := by
  obtain ⟨sound, -, stored, holds⟩ :=
    shows.cacheSound.add lib (by decide)
      (shows.cacheSound.lookup_none missing) l2t
  refine ⟨?_, stored⟩
  exact
    { shows with
      cacheSound := sound
      cacheHolds := holds (ShowsTable image) shows.cacheHolds read }

/--
A table that the cache does not have is read whole or not at all:
`pread_in_full` does not tell a read that was cut short from a full one.
-/
def TableArrives (q : QcowState) (offset : Nat) : Prop :=
  q.l2Cache.lookup offset = none →
    ∀ moved,
      (preadInFull (q.file.skip 1) (fun _ => 0) 0 (q.header.l2Size * 8)
          offset).1 = some moved →
        moved = q.header.l2Size * 8

/-- A table that is read whole is shown; the file only gave its answers. -/
theorem qcowReadL2Table_shows
    (shows : Shows image q) {offset : Nat}
    (hasTable : image.HasTable offset) (arrives : TableArrives q offset) :
    ∃ found after calls,
      qcowReadL2Table lib q offset = (found, after) ∧
        Shows image after ∧ after.file = q.file.skip calls ∧
        ∀ l2t, found = some l2t →
          ∀ position < image.header.l2Size * 8,
            after.tableOf l2t position =
              image.bytes (offset + position) := by
  unfold qcowReadL2Table l2TableSearch
  cases found : q.l2Cache.lookup offset with
  | some l2t =>
      obtain ⟨member, sameKey⟩ := shows.cacheSound.lookup_some found
      obtain ⟨payload, stored, -, shown⟩ := shows.cacheHolds l2t member
      refine ⟨some l2t, { q with l2Cache := q.l2Cache.touch l2t }, 0, rfl,
        ?_, rfl, ?_⟩
      · exact
          { shows with
            cacheSound := shows.cacheSound.touch member
            cacheHolds := shows.cacheHolds.touch l2t }
      · rintro _ ⟨⟩ position small
        have table :
            ({ q with l2Cache := q.l2Cache.touch l2t } :
              QcowState).tableOf l2t = payload.table := by
          simp [QcowState.tableOf, Cache.touch, stored]
        rw [table, shown position small, sameKey]
  | none =>
      dsimp only [QcowState.callocs]
      cases granted : q.file.answer != 0 with
      | false =>
          exact ⟨none, _, 1, rfl, shows.skip 1, rfl, by simp⟩
      | true =>
          obtain ⟨moved, calls, read, -⟩ :=
            preadInFull_spec (q.file.skip 1) (fun _ => 0) 0
              (q.header.l2Size * 8) offset
          have fileEq :
              (q.file.skip 1).skip calls = q.file.skip (calls + 1) :=
            HostFile.skip_skip _ _ _
          by_cases failed : moved = 0 ∧ q.header.l2Size * 8 ≠ 0
          · rw [if_pos failed, fileEq] at read
            dsimp only
            rw [read]
            exact ⟨none, _, calls + 1, rfl, shows.skip _, rfl, by simp⟩
          · have whole : moved = q.header.l2Size * 8 := by
              apply arrives found
              rw [read, if_neg failed]
            rw [if_neg failed, fileEq, HostFile.skip_bytes, whole,
              shows.bytes] at read
            let table : Buffer :=
              store (fun _ => 0) 0 (q.header.l2Size * 8) image.bytes offset
            have shown : ShowsTable image offset ⟨false, table⟩ := by
              refine ⟨hasTable, ?_⟩
              intro position small
              have within :
                  0 ≤ position ∧ position < 0 + q.header.l2Size * 8 := by
                rw [shows.header]
                omega
              exact store_of_mem within (fun _ => 0) image.bytes offset
            obtain ⟨showsAfter, stored⟩ := shows.addTable lib found shown
            dsimp only
            rw [read]
            refine ⟨_, _, calls + 1, rfl, showsAfter.skip _, rfl, ?_⟩
            rintro _ ⟨⟩ position small
            simp only [QcowState.tableOf, table] at stored ⊢
            rw [stored]
            exact shown.2 position small

/-- Inside a file that does not fail, a table arrives. -/
theorem tableArrives_of_nonFailing
    (shows : Shows image q) (nonFailing : q.file.NonFailing)
    (addressable : image.size ≤ offT) {offset : Nat}
    (inside : offset + image.header.l2Size * 8 ≤ image.size) :
    TableArrives q offset := by
  intro _ moved read
  have sizeNow : (q.file.skip 1).size = image.size := shows.size
  obtain ⟨calls, full⟩ :=
    preadInFull_full (fun _ => 0) 0 (nonFailing.skip 1)
      (sizeNow.symm ▸ inside) (inside.trans addressable)
  rw [shows.header, full] at read
  rw [shows.header]
  exact (Option.some.inj read).symm

/-- On a file that does not fail, a table of the image is found. -/
theorem qcowReadL2Table_succeeds
    (shows : Shows image q) (nonFailing : q.file.NonFailing)
    (addressable : image.size ≤ offT) {offset : Nat}
    (inside : offset + image.header.l2Size * 8 ≤ image.size) :
    (qcowReadL2Table lib q offset).1 ≠ none := by
  unfold qcowReadL2Table l2TableSearch
  cases found : q.l2Cache.lookup offset with
  | some l2t => simp
  | none =>
      have granted : (q.file.answer != 0) = true := by
        simpa using nonFailing.answer_ne
      have sizeNow : (q.file.skip 1).size = image.size := shows.size
      obtain ⟨calls, read⟩ :=
        preadInFull_full (fun _ => 0) 0 (nonFailing.skip 1)
          (sizeNow.symm ▸ inside) (inside.trans addressable)
      simp [QcowState.callocs, granted, shows.header, read]

/-- A table of the image is found, in the cache or in the file. -/
theorem qcowReadL2Table_spec
    (wellFormed : image.WellFormed)
    (shows : Shows image q) (nonFailing : q.file.NonFailing)
    {l1Idx : Nat} (inTable : l1Idx < image.header.l1Size)
    (present : image.tableOffset l1Idx ≠ 0) :
    ∃ l2t after,
      qcowReadL2Table lib q (image.tableOffset l1Idx) =
          (some l2t, after) ∧
        Shows image after ∧ after.file.NonFailing ∧
        ∀ position < image.header.l2Size * 8,
          after.tableOf l2t position =
            image.bytes (image.tableOffset l1Idx + position) := by
  have inside := wellFormed.tablesInside l1Idx inTable present
  obtain ⟨found, after, calls, read, showsAfter, skipped, shown⟩ :=
    qcowReadL2Table_shows lib shows ⟨l1Idx, inTable, present, rfl⟩
      (tableArrives_of_nonFailing shows nonFailing wellFormed.addressable
        inside)
  have success :=
    qcowReadL2Table_succeeds lib shows nonFailing wellFormed.addressable
      inside
  rw [read] at success
  obtain ⟨l2t, rfl⟩ := Option.ne_none_iff_exists'.mp success
  refine ⟨l2t, after, read, showsAfter, ?_, shown l2t rfl⟩
  rw [skipped]
  exact nonFailing.skip calls

variable (inflate : Inflate)

/-- The bytes a read cluster is expected to move. -/
def clusterRest (header : QcowHeader) (offset dstLen : Nat) : Nat :=
  min (header.clusterSize - offset % header.clusterSize) dstLen

/-- A cluster read inside the virtual disk moves the bytes of the image. -/
theorem readCluster_spec
    (wellFormed : image.WellFormed)
    (shows : Shows image q) (nonFailing : q.file.NonFailing)
    {offset : Nat} (inDisk : offset < image.header.size)
    (mem : Buffer) (dst dstLen : Nat) :
    ∃ after,
      readCluster lib inflate image.version.format q offset mem dst
          dstLen =
        (some (clusterRest image.header offset dstLen),
          store mem dst (clusterRest image.header offset dstLen)
            image.byteAt offset,
          after) ∧
        Shows image after ∧ after.file.NonFailing := by
  have positive := clusterSize_pos image.header
  have inTable := l1Index_lt wellFormed inDisk
  have inCluster :
      offset % image.header.clusterSize < image.header.clusterSize :=
    Nat.mod_lt _ positive
  have bound :
      clusterRest image.header offset dstLen ≤
        image.header.clusterSize - offset % image.header.clusterSize :=
    Nat.min_le_left _ _
  unfold readCluster
  dsimp only
  rw [shows.header, getL1Index_eq, getClusterOffset_eq,
    if_neg (Nat.not_le.mpr inTable), if_neg (Nat.not_le.mpr inCluster),
    shows.l1Entry inTable, l2tOffset_eq, ← clusterRest]
  generalize clusterRest image.header offset dstLen = length at bound
  by_cases noTable : image.tableOffset (image.l1Index offset) = 0
  · have zeros :
        store mem dst length (fun _ => 0) 0 =
          store mem dst length image.byteAt offset := by
      apply store_congr
      intro index small
      rw [byteAt_add image (by omega), if_pos noTable]
    refine ⟨q, ?_, shows, nonFailing⟩
    rw [if_pos noTable, zeros]
  · obtain ⟨l2t, found, readTable, showsFound, nonFailingFound, shown⟩ :=
      qcowReadL2Table_spec lib wellFormed shows nonFailing inTable noTable
    have inL2 := l2Index_lt image offset
    have entry :
        be64 (found.tableOf l2t) (image.l2Index offset * 8) =
          image.l2Entry (image.l1Index offset) (image.l2Index offset) := by
      apply be64_congr
      intro index small
      rw [shown _ (by omega), Nat.add_assoc]
    rw [if_neg noTable, readTable]
    dsimp only
    rw [showsFound.header, getL2Index_eq, if_neg (Nat.not_le.mpr inL2),
      entry, wellFormed.uncompressed _ inTable noTable _ inL2,
      if_neg Bool.false_ne_true, clustStart_eq]
    by_cases noCluster :
        image.clusterOffset (image.l1Index offset)
          (image.l2Index offset) = 0
    · have zeros :
          store mem dst length (fun _ => 0) 0 =
            store mem dst length image.byteAt offset := by
        apply store_congr
        intro index small
        rw [byteAt_add image (by omega), if_neg noTable]
        exact (if_pos noCluster).symm
      refine ⟨found, ?_, showsFound, nonFailingFound⟩
      rw [if_pos noCluster, zeros]
    · have inside :=
        wellFormed.clustersInside _ inTable noTable _ inL2 noCluster
      have moved :
          store mem dst length image.bytes
              (image.clusterOffset (image.l1Index offset)
                  (image.l2Index offset) +
                offset % image.header.clusterSize) =
            store mem dst length image.byteAt offset := by
        apply store_congr
        intro index small
        rw [byteAt_add image (by omega), if_neg noTable, Nat.add_assoc]
        exact (if_neg noCluster).symm
      obtain ⟨calls, read⟩ :=
        preadInFull_full mem dst nonFailingFound
          (show image.clusterOffset (image.l1Index offset)
                (image.l2Index offset) +
              offset % image.header.clusterSize + length ≤
                found.file.size by
            rw [showsFound.size]
            omega)
          (le_trans (by omega) wellFormed.addressable)
      refine ⟨{ found with file := found.file.skip calls }, ?_,
        showsFound.skip calls, nonFailingFound.skip calls⟩
      rw [if_neg noCluster, read, showsFound.bytes, moved]
      dsimp only
      rw [showsFound.header]

/-! ## Sectors -/

theorem readVersionCluster_eq (shows : Shows image q) :
    readVersionCluster lib inflate q =
      readCluster lib inflate image.version.format q := by
  rw [readVersionCluster, shows.version]
  cases image.version <;> rfl

theorem sector_dvd_clusterSize (wellFormed : image.WellFormed) :
    512 ∣ image.header.clusterSize := by
  rw [clusterSize_eq]
  exact pow_dvd_pow 2 wellFormed.clusterBits_ge

theorem clusterSize_le (wellFormed : image.WellFormed) :
    image.header.clusterSize ≤ 2 ^ 30 := by
  rw [clusterSize_eq]
  exact Nat.pow_le_pow_right (by decide) wellFormed.clusterBits_le

/-- A read of whole sectors goes on at a sector. -/
theorem clusterRest_sectors
    (wellFormed : image.WellFormed) (sector : Nat) {dstLen : Nat}
    (sectors : 512 ∣ dstLen) (more : 0 < dstLen) :
    512 ∣ clusterRest image.header (sector * 512) dstLen ∧
      0 < clusterRest image.header (sector * 512) dstLen ∧
      clusterRest image.header (sector * 512) dstLen ≤ dstLen ∧
      clusterRest image.header (sector * 512) dstLen < 2 ^ 32 := by
  have whole := sector_dvd_clusterSize wellFormed
  have positive := clusterSize_pos image.header
  have small := clusterSize_le wellFormed
  have inCluster :
      sector * 512 % image.header.clusterSize < image.header.clusterSize :=
    Nat.mod_lt _ positive
  have offsetWhole : 512 ∣ sector * 512 % image.header.clusterSize :=
    (Nat.dvd_mod_iff whole).mpr (Nat.dvd_mul_left 512 sector)
  unfold clusterRest
  omega

/-- Behind a buffer of whole sectors the next one starts at a sector. -/
theorem sector_step
    {sector length : Nat} (whole : 512 ∣ length)
    (small : sector * 512 + length < 2 ^ 64) :
    (sector + length / 512) * 512 = sector * 512 + length ∧
      (sector + length >>> sectorShift) % 2 ^ 64 =
        sector + length / 512 := by
  refine ⟨by omega, ?_⟩
  rw [Nat.shiftRight_eq_div_pow, sectorShift]
  exact Nat.mod_eq_of_lt (by omega)

/-- Whole sectors inside the virtual disk are read to the end. -/
theorem readSectorLoop_spec
    (wellFormed : image.WellFormed)
    (turns sector dstLen nrRead : Nat) (mem : Buffer) (buf : Nat)
    (shows : Shows image q) (nonFailing : q.file.NonFailing)
    (begun : nrRead ≤ dstLen) (enough : dstLen - nrRead < turns)
    (sectors : 512 ∣ dstLen - nrRead) (short : dstLen < 2 ^ 32)
    (inDisk :
      sector * 512 + (dstLen - nrRead) ≤ image.header.size) :
    ∃ after,
      readSectorLoop lib inflate turns q sector mem buf dstLen nrRead =
        some
          ((dstLen : Int),
            store mem buf (dstLen - nrRead) image.byteAt (sector * 512),
            after) ∧
        Shows image after ∧ after.file.NonFailing := by
  induction turns generalizing q sector mem buf nrRead with
  | zero => cases enough
  | succ turns induction =>
      rw [readSectorLoop]
      by_cases more : nrRead < dstLen
      · have sizeBound := wellFormed.size_lt
        have offset : sector <<< sectorShift % 2 ^ 64 = sector * 512 := by
          rw [Nat.shiftLeft_eq, sectorShift]
          exact Nat.mod_eq_of_lt (by omega)
        have here : sector * 512 < image.header.size := by omega
        obtain ⟨whole, positive, bounded, small⟩ :=
          clusterRest_sectors wellFormed sector sectors (by omega)
        obtain ⟨found, read, showsFound, nonFailingFound⟩ :=
          readCluster_spec lib inflate wellFormed shows nonFailing here mem
            buf (dstLen - nrRead)
        rw [if_pos more]
        dsimp only
        rw [offset, shows.header, if_neg (Nat.not_le.mpr here),
          readVersionCluster_eq lib inflate shows, read]
        dsimp only
        generalize clusterRest image.header (sector * 512)
          (dstLen - nrRead) = nr at *
        have kept : nr % 2 ^ 32 = nr := Nat.mod_eq_of_lt small
        have keptTotal : (nrRead + nr) % 2 ^ 32 = nrRead + nr :=
          Nat.mod_eq_of_lt (by omega)
        obtain ⟨nextOffset, nextSector⟩ :=
          sector_step whole
            (((Nat.add_le_add_left bounded _).trans inDisk).trans_lt
              sizeBound)
        have remaining : nr + (dstLen - (nrRead + nr)) = dstLen - nrRead := by
          omega
        have nextInDisk :
            (sector + nr / 512) * 512 + (dstLen - (nrRead + nr)) ≤
              image.header.size := by
          rw [nextOffset, Nat.add_assoc, remaining]
          exact inDisk
        have nextBegun : nrRead + nr ≤ dstLen := by omega
        rw [Option.getD_some, kept, if_neg positive.ne', keptTotal,
          nextSector]
        obtain ⟨after, rest, showsAfter, nonFailingAfter⟩ :=
          induction (sector + nr / 512) (nrRead + nr)
            (store mem buf nr image.byteAt (sector * 512)) (buf + nr)
            showsFound nonFailingFound nextBegun (by omega) (by omega)
            nextInDisk
        refine ⟨after, ?_, showsAfter, nonFailingAfter⟩
        rw [rest, nextOffset, store_store, remaining]
      · have done : dstLen - nrRead = 0 := by omega
        refine ⟨q, ?_, shows, nonFailing⟩
        rw [if_neg more, done, store_zero]

/-- The memory after buffers were filled with the bytes of a disk. -/
def fillIovecs (content : Nat → UInt8) :
    Buffer → Nat → List Iovec → Buffer
  | mem, _, [] => mem
  | mem, position, iov :: rest =>
      fillIovecs content (store mem iov.base iov.len content position)
        (position + iov.len) rest

/-- The length of a list of buffers. -/
def iovLength (iov : List Iovec) : Nat :=
  iov.foldr (fun entry total => entry.len + total) 0

/-- Buffers of whole sectors, each shorter than 4 GiB. -/
def WholeSectors (iov : List Iovec) : Prop :=
  ∀ entry ∈ iov, 512 ∣ entry.len ∧ entry.len < 2 ^ 32

instance (iov : List Iovec) : Decidable (WholeSectors iov) :=
  inferInstanceAs (Decidable (∀ entry ∈ iov, _))

theorem readIovecs_spec
    (wellFormed : image.WellFormed) (sector : Nat) (mem : Buffer)
    {iov : List Iovec} (total : Int)
    (shows : Shows image q) (nonFailing : q.file.NonFailing)
    (sectors : WholeSectors iov)
    (inDisk : sector * 512 + iovLength iov ≤ image.header.size) :
    ∃ after,
      readIovecs lib inflate q sector mem iov total =
        some
          (total + iovLength iov,
            fillIovecs image.byteAt mem (sector * 512) iov, after) ∧
        Shows image after ∧ after.file.NonFailing := by
  induction iov generalizing q sector mem total with
  | nil =>
      refine ⟨q, ?_, shows, nonFailing⟩
      simp [readIovecs, fillIovecs, iovLength]
  | cons entry rest induction =>
      obtain ⟨whole, short⟩ := sectors entry List.mem_cons_self
      have restSectors : WholeSectors rest := fun other member =>
        sectors other (List.mem_cons_of_mem entry member)
      have lengthEq : iovLength (entry :: rest) =
          entry.len + iovLength rest := rfl
      have sizeBound := wellFormed.size_lt
      have thisInDisk :
          sector * 512 + (entry.len - 0) ≤ image.header.size := by
        omega
      obtain ⟨found, read, showsFound, nonFailingFound⟩ :=
        readSectorLoop_spec lib inflate wellFormed (entry.len + 1) sector
          entry.len 0 mem entry.base shows nonFailing
          (Nat.zero_le entry.len) (Nat.lt_succ_self _) whole short
          thisInDisk
      obtain ⟨nextOffset, nextSector⟩ :=
        sector_step whole
          (show sector * 512 + entry.len < 2 ^ 64 by omega)
      have nextInDisk :
          (sector + entry.len / 512) * 512 + iovLength rest ≤
            image.header.size := by
        rw [nextOffset, Nat.add_assoc]
        exact inDisk
      obtain ⟨after, later, showsAfter, nonFailingAfter⟩ :=
        induction (sector + entry.len / 512)
          (store mem entry.base entry.len image.byteAt (sector * 512))
          (total + entry.len) showsFound nonFailingFound restSectors
          nextInDisk
      refine ⟨after, ?_, showsAfter, nonFailingAfter⟩
      rw [readIovecs, Nat.mod_eq_of_lt short, qcowReadSectorSingle, read]
      simp only [ne_eq, not_true_eq_false, if_false, Nat.sub_zero]
      rw [nextSector, later, nextOffset, lengthEq, fillIovecs]
      simp [Int.add_assoc]

/-! ## Any read -/

/-- Every read ends, and in a state that shows the image. -/
theorem readSectorLoop_ends
    (wellFormed : image.WellFormed)
    (turns sector dstLen nrRead : Nat) (mem : Buffer) (buf : Nat)
    (shows : Shows image q) (nonFailing : q.file.NonFailing)
    (begun : nrRead ≤ dstLen) (enough : dstLen - nrRead < turns)
    (short : dstLen < 2 ^ 32) :
    ∃ result memAfter after,
      readSectorLoop lib inflate turns q sector mem buf dstLen nrRead =
          some (result, memAfter, after) ∧
        Shows image after ∧ after.file.NonFailing := by
  induction turns generalizing q sector mem buf nrRead with
  | zero => cases enough
  | succ turns induction =>
      rw [readSectorLoop]
      by_cases more : nrRead < dstLen
      · rw [if_pos more]
        dsimp only
        generalize sector <<< sectorShift % 2 ^ 64 = offset
        rw [shows.header]
        by_cases beyond : image.header.size ≤ offset
        · rw [if_pos beyond]
          exact ⟨_, _, _, rfl, shows, nonFailing⟩
        · obtain ⟨found, read, showsFound, nonFailingFound⟩ :=
            readCluster_spec lib inflate wellFormed shows nonFailing
              (Nat.not_le.mp beyond) mem buf (dstLen - nrRead)
          have positive :
              0 < clusterRest image.header offset (dstLen - nrRead) := by
            have inCluster :=
              Nat.mod_lt offset (clusterSize_pos image.header)
            unfold clusterRest
            omega
          have bounded :
              clusterRest image.header offset (dstLen - nrRead) ≤
                dstLen - nrRead :=
            Nat.min_le_right _ _
          rw [if_neg beyond, readVersionCluster_eq lib inflate shows, read]
          dsimp only
          generalize clusterRest image.header offset (dstLen - nrRead) =
            nr at *
          have kept : nr % 2 ^ 32 = nr := Nat.mod_eq_of_lt (by omega)
          have keptTotal : (nrRead + nr) % 2 ^ 32 = nrRead + nr :=
            Nat.mod_eq_of_lt (by omega)
          rw [Option.getD_some, kept, if_neg positive.ne', keptTotal]
          exact induction _ _ _ _ showsFound nonFailingFound (by omega)
            (by omega)
      · rw [if_neg more]
        exact ⟨_, _, _, rfl, shows, nonFailing⟩

theorem readIovecs_ends
    (wellFormed : image.WellFormed) (sector : Nat) (mem : Buffer)
    (iov : List Iovec) (total : Int)
    (shows : Shows image q) (nonFailing : q.file.NonFailing) :
    ∃ result memAfter after,
      readIovecs lib inflate q sector mem iov total =
          some (result, memAfter, after) ∧
        Shows image after ∧ after.file.NonFailing := by
  induction iov generalizing q sector mem total with
  | nil => exact ⟨_, _, _, rfl, shows, nonFailing⟩
  | cons entry rest induction =>
      obtain ⟨result, memFound, found, read, showsFound, nonFailingFound⟩ :=
        readSectorLoop_ends lib inflate wellFormed
          (entry.len % 2 ^ 32 + 1) sector (entry.len % 2 ^ 32) 0 mem
          entry.base shows nonFailing (Nat.zero_le _) (Nat.lt_succ_self _)
          (Nat.mod_lt _ (by decide))
      rw [readIovecs, qcowReadSectorSingle, read]
      dsimp only
      split
      · exact ⟨_, _, _, rfl, showsFound, nonFailingFound⟩
      · exact induction _ _ _ showsFound nonFailingFound

/-- The arguments of a read or a write, with the memory at that time. -/
structure Request where
  sector : Nat
  mem : Buffer
  iov : List Iovec

/-- The state after a read. -/
def readStep (q : QcowState) (request : Request) : QcowState :=
  ((qcowReadSector lib inflate q request.sector request.mem
    request.iov).map fun result => result.2.2).getD q

theorem shows_readStep
    (wellFormed : image.WellFormed) (request : Request)
    (shows : Shows image q) (nonFailing : q.file.NonFailing) :
    Shows image (readStep lib inflate q request) ∧
      (readStep lib inflate q request).file.NonFailing := by
  obtain ⟨result, mem, after, read, showsAfter, nonFailingAfter⟩ :=
    readIovecs_ends lib inflate wellFormed request.sector request.mem
      request.iov 0 shows nonFailing
  rw [readStep, qcowReadSector, read]
  exact ⟨showsAfter, nonFailingAfter⟩

theorem shows_reads
    (wellFormed : image.WellFormed) (requests : List Request)
    (shows : Shows image q) (nonFailing : q.file.NonFailing) :
    Shows image (run (readStep lib inflate) q requests) ∧
      (run (readStep lib inflate) q requests).file.NonFailing := by
  have kept :
      ∀ (state : QcowState) (request : Request),
        Shows image state ∧ state.file.NonFailing →
          Shows image (readStep lib inflate state request) ∧
            (readStep lib inflate state request).file.NonFailing :=
    fun _ request holds =>
      shows_readStep lib inflate wellFormed request holds.1 holds.2
  exact run_invariant_of_step kept ⟨shows, nonFailing⟩ requests

end Reading

/-! ## Opening -/

/-- The image in a file. -/
def imageOf (version : Version) (header : QcowHeader) (file : HostFile) :
    Image :=
  ⟨version, header, file.size, file.bytes⟩

theorem readTable_spec
    {file after : HostFile} {entries offset : Nat} {table : Buffer}
    (read : readTable file entries offset = some (table, after)) :
    ∃ calls, after = file.skip calls := by
  rw [readTable] at read
  split at read
  · cases read
  · obtain ⟨moved, calls, result, -⟩ :=
      preadInFull_spec (file.skip 1) (fun _ => 0) 0 (entries * 8) offset
    rw [result, HostFile.skip_skip] at read
    by_cases failed : moved = 0 ∧ entries * 8 ≠ 0
    · rw [if_pos failed] at read
      cases read
    · rw [if_neg failed] at read
      cases read
      exact ⟨calls + 1, rfl⟩

theorem readTable_full
    {file after : HostFile} {entries offset : Nat} {table : Buffer}
    (nonFailing : file.NonFailing) (addressable : file.size ≤ offT)
    (inside : offset + entries * 8 ≤ file.size)
    (read : readTable file entries offset = some (table, after)) :
    ∀ position < entries * 8,
      table position = file.bytes (offset + position) := by
  obtain ⟨calls, result⟩ :=
    preadInFull_full (fun _ => 0) 0 (nonFailing.skip 1)
      (show offset + entries * 8 ≤ (file.skip 1).size from inside)
      (inside.trans addressable)
  rw [readTable, if_neg nonFailing.answer_ne, result] at read
  cases read
  intro position small
  have within : 0 ≤ position ∧ position < 0 + entries * 8 :=
    ⟨Nat.zero_le _, by omega⟩
  exact store_of_mem within _ _ _

/-- What `qcow_probe` has set up and read. -/
structure Probed (version : Version) (header : QcowHeader) (file : HostFile)
    (q : QcowState) : Prop where
  sameVersion : q.version = version
  sameHeader : q.header = header
  l2Cache : q.l2Cache = Cache.empty
  rfCache : q.rfCache = Cache.empty
  contained : q.strayed = false
  skipped : ∃ calls, q.file = file.skip calls
  l1Table :
    ∃ after,
      readTable file header.l1Size header.l1TableOffset =
        some (q.l1Table, after)
  rfTable :
    version = .qcow2 →
      ∃ calls after,
        readTable (file.skip calls) header.rfSize
            header.refcountTableOffset =
          some (q.rfTable, after)

theorem probed_of_qcowProbe
    {version : Version} {header : QcowHeader} {fresh : Buffer}
    {file : HostFile} {q : QcowState}
    (opened : qcowProbe version header fresh file = some q) :
    Probed version header file q := by
  rw [qcowProbe] at opened
  cases readL1 : readTable file header.l1Size header.l1TableOffset with
  | none =>
      rw [readL1] at opened
      cases opened
  | some result =>
      obtain ⟨l1Table, afterL1⟩ := result
      obtain ⟨calls, rfl⟩ := readTable_spec readL1
      rw [readL1] at opened
      dsimp only at opened
      cases version with
      | qcow1 =>
          cases opened
          exact
            ⟨rfl, rfl, rfl, rfl, rfl, ⟨calls, rfl⟩, ⟨_, readL1⟩, nofun⟩
      | qcow2 =>
          cases readRf :
              readTable (file.skip calls) header.rfSize
                header.refcountTableOffset with
          | none =>
              rw [readRf] at opened
              cases opened
          | some result =>
              obtain ⟨rfTable, afterRf⟩ := result
              obtain ⟨more, rfl⟩ := readTable_spec readRf
              rw [readRf] at opened
              cases opened
              exact
                ⟨rfl, rfl, rfl, rfl, rfl, ⟨_, file.skip_skip calls more⟩,
                  ⟨_, readL1⟩, fun _ => ⟨calls, _, readRf⟩⟩

/-- A freshly opened image is on show. -/
theorem shows_of_qcowProbe
    {version : Version} {header : QcowHeader} {fresh : Buffer}
    {file : HostFile} {q : QcowState}
    (wellFormed : (imageOf version header file).WellFormed)
    (nonFailing : file.NonFailing)
    (opened : qcowProbe version header fresh file = some q) :
    Shows (imageOf version header file) q ∧ q.file.NonFailing := by
  have probed := probed_of_qcowProbe opened
  obtain ⟨calls, skipped⟩ := probed.skipped
  obtain ⟨after, readL1⟩ := probed.l1Table
  refine ⟨?_, skipped ▸ nonFailing.skip calls⟩
  exact
    { version := probed.sameVersion
      header := probed.sameHeader
      size := by rw [skipped]; rfl
      bytes := by rw [skipped]; rfl
      l1Table :=
        readTable_full nonFailing wellFormed.addressable
          wellFormed.l1Inside readL1
      cacheSound := probed.l2Cache ▸ Cache.empty_sound _
      cacheHolds := probed.l2Cache ▸ Cache.empty_holds _
      contained := probed.contained }

/-! ## Main result -/

/--
On a file that does not fail, a read of whole sectors inside the virtual
disk fills its buffers with the bytes of the image, whatever was read since
the image was opened.
-/
theorem qcowReadSector_refines
    (lib : Rebalancer (Node Nat)) (inflate : Inflate)
    {version : Version} {header : QcowHeader} {fresh : Buffer}
    {file : HostFile} {q : QcowState}
    (wellFormed : (imageOf version header file).WellFormed)
    (nonFailing : file.NonFailing)
    (opened : qcowProbe version header fresh file = some q)
    (earlier : List Request) (request : Request)
    (sectors : WholeSectors request.iov)
    (inDisk :
      request.sector * 512 + iovLength request.iov ≤ header.size) :
    ∃ after,
      qcowReadSector lib inflate
          (run (readStep lib inflate) q earlier)
          request.sector request.mem request.iov =
        some
          ((iovLength request.iov : Int),
            fillIovecs (imageOf version header file).byteAt request.mem
              (request.sector * 512) request.iov,
            after) := by
  obtain ⟨shows, nonFailingOpen⟩ :=
    shows_of_qcowProbe wellFormed nonFailing opened
  obtain ⟨showsNow, nonFailingNow⟩ :=
    shows_reads lib inflate wellFormed earlier shows nonFailingOpen
  obtain ⟨after, read, -, -⟩ :=
    readIovecs_spec lib inflate wellFormed request.sector request.mem 0
      showsNow nonFailingNow sectors inDisk
  refine ⟨after, ?_⟩
  rw [qcowReadSector, read, Int.zero_add]

/-! ## A small image -/

/--
Six clusters of 512 bytes: the header, the refcount table, a refcount block,
the L1 table, an L2 table and the first cluster of a disk of two.
-/
def smallHeader : QcowHeader where
  size := 1024
  l1TableOffset := 1536
  l1Size := 1
  clusterBits := 9
  l2Bits := 6
  refcountTableOffset := 512
  refcountTableSize := 1

/-- The bytes of its tables, and one byte of the disk. -/
def smallContent : List (Nat × UInt8) :=
  [(518, 4), (1025, 1), (1027, 1), (1029, 1), (1031, 1), (1033, 1),
    (1035, 1), (1536, 128), (1542, 8), (2048, 128), (2054, 10), (2560, 7)]

/-- A file with the small image, on a host with given answers. -/
def smallFile (answers : Nat → Nat) : HostFile where
  size := 3072
  bytes position := (smallContent.lookup position).getD 0
  answers := answers
  trimmed position behind := by
    have inside : ∀ word ∈ smallContent, word.1 < 3072 := by decide
    have missing : smallContent.lookup position = none := by
      rw [List.lookup_eq_none_iff]
      intro word member
      have below := inside word member
      simp only [bne_iff_ne]
      omega
    rw [missing]
    rfl

/-- The small image. -/
def smallImage : Image :=
  imageOf .qcow2 smallHeader (smallFile fun _ => 4096)

theorem smallImage_wellFormed : smallImage.WellFormed := by
  constructor <;> decide +kernel

theorem smallFile_opens :
    (qcowProbe .qcow2 smallHeader (fun _ => 0)
      (smallFile fun _ => 4096)).isSome := by
  decide +kernel

/-- The small image, opened. -/
def smallState : QcowState :=
  (qcowProbe .qcow2 smallHeader (fun _ => 0)
    (smallFile fun _ => 4096)).get smallFile_opens

theorem smallState_opened :
    qcowProbe .qcow2 smallHeader (fun _ => 0)
      (smallFile fun _ => 4096) = some smallState :=
  (Option.some_get smallFile_opens).symm

theorem smallFile_nonFailing : (smallFile fun _ => 4096).NonFailing := by
  intro call
  exact Nat.zero_lt_succ 4095

/-- A read of the small disk into two buffers, after one of its end. -/
theorem qcowReadSector_refines_on_smallImage :
    smallImage.byteAt 0 = 7 ∧
      ∃ after,
        qcowReadSector (.plain _) (fun _ _ _ => none)
            (run (readStep (.plain _) fun _ _ _ => none) smallState
              [⟨1, fun _ => 0, [⟨0, 512⟩]⟩])
            0 (fun _ => 0) [⟨0, 512⟩, ⟨4096, 512⟩] =
          some
            (1024,
              fillIovecs smallImage.byteAt (fun _ => 0) 0
                [⟨0, 512⟩, ⟨4096, 512⟩],
              after) :=
  ⟨by decide +kernel,
    qcowReadSector_refines (.plain _) (fun _ _ _ => none)
      smallImage_wellFormed smallFile_nonFailing smallState_opened
      [⟨1, fun _ => 0, [⟨0, 512⟩]⟩]
      ⟨0, fun _ => 0, [⟨0, 512⟩, ⟨4096, 512⟩]⟩ (by decide)
      (by decide)⟩

end Kemu.Disk.Qcow
