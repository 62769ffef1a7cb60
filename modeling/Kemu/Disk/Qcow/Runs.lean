import Kemu.Disk.Qcow.Allocation

/-!
# Runs of clusters

The clusters that `qcow_alloc_clusters` found are counted one after the
other.  In between, the table may grow; the blocks that it grows by lie
behind the run, as the search goes on from there.  An allocation therefore
counts the clusters of its run and of the new blocks, and no others.
-/

namespace Kemu.Disk.Qcow

open Kemu.Lib.LruCache
open Kemu.Lib.PagedLedger
open Kemu.Lib.SearchTree
open Kemu.Util.ReadWrite

/-- The state of an image that clusters can be allocated in. -/
structure QcowState.Usable (q : QcowState) : Prop where
  coherent : q.Coherent
  accounted : q.Accounted
  shown : q.TableShown

/-- What is accounted stays so when clusters are counted. -/
theorem QcowState.Accounted.progress {q after : QcowState}
    (accounted : q.Accounted) (header : after.header = q.header)
    {low first last : Nat}
    (progress :
      Ledger.Progress q.header.rfSize q.header.clusterSize low first last
        q.ledger after.ledger) :
    after.Accounted := by
  have positive := clusterSize_pos q.header
  have used :
      ∀ clustIdx, q.refcount clustIdx ≠ 0 → after.refcount clustIdx ≠ 0 := by
    intro clustIdx counted
    have kept : after.refcount clustIdx = q.refcount clustIdx :=
      progress.used positive counted
    rwa [kept]
  constructor
  · exact used 0 accounted.header
  · intro clustIdx overlaps
    rw [header] at overlaps
    exact used clustIdx (accounted.table clustIdx overlaps)
  · rw [header]
    exact progress.accounted positive accounted.blocks

section Taking

variable (lib : Rebalancer (Node Nat))

/-- The clusters from `first` on are counted, up to `clustIdx`. -/
structure Taking (start : QcowState) (low first clustIdx : Nat)
    (q : QcowState) : Prop where
  header : q.header = start.header
  usable : q.Usable
  progress :
    Ledger.Progress start.header.rfSize start.header.clusterSize low first
      clustIdx start.ledger q.ledger
  scanned : Scanned q low

variable {start q : QcowState} {low first clustIdx : Nat}

/-- The clusters that are still to be counted are not in use. -/
theorem Taking.unused (taking : Taking start low first clustIdx q)
    {other : Nat} (behind : clustIdx ≤ other) (front : other < low)
    (unused : start.refcount other = 0) : q.refcount other = 0 := by
  have left : q.refcount other = start.refcount other :=
    taking.progress.left (clusterSize_pos _) behind front
  rw [left, unused]

/-- A growth in between. -/
theorem Taking.grow (taking : Taking start low first clustIdx q)
    (ordered : first ≤ clustIdx) (before : clustIdx ≤ low) {rftIdx : Nat}
    {rfb : Node Nat} {after : QcowState}
    (grown : Grown q low rftIdx rfb after) :
    Taking start low first clustIdx after := by
  have header := grown.header.trans taking.header
  have more := grown.progress
  refine ⟨header, ⟨grown.coherent, ?_, grown.shown⟩, ?_, grown.scanned⟩
  · exact taking.usable.accounted.progress grown.header more
  · rw [taking.header] at more
    exact
      taking.progress.trans (clusterSize_pos _) (more.nowhere clustIdx)
        ordered le_rfl before

/-- A cluster is counted. -/
theorem Taking.count (taking : Taking start low first clustIdx q)
    (ordered : first ≤ clustIdx) (before : clustIdx < low)
    (unused : q.refcount clustIdx = 0) {after : QcowState}
    (header : after.header = q.header) (coherent : after.Coherent)
    (rfTable : after.rfTable = q.rfTable)
    (refcount :
      after.refcount =
        Function.update q.refcount clustIdx (q.refcount clustIdx + 1))
    (free : after.freeClustIdx = q.freeClustIdx)
    (shown : after.TableShown) :
    Taking start low first (clustIdx + 1) after := by
  rw [unused] at refcount
  have ledger :
      after.ledger =
        ⟨q.ledger.page, Function.update q.ledger.count clustIdx 1⟩ := by
    unfold QcowState.ledger
    rw [funext (rfEntry_congr rfTable), refcount]
  have more :
      Ledger.Progress q.header.rfSize q.header.clusterSize low clustIdx
        (clustIdx + 1) q.ledger after.ledger := by
    rw [ledger]
    exact Ledger.Progress.count unused
  have next : after.next = q.next := by
    rw [QcowState.next, free, ← QcowState.next]
  have scanned := taking.scanned
  refine ⟨header.trans taking.header, ⟨coherent, ?_, shown⟩, ?_, ?_⟩
  · exact taking.usable.accounted.progress header more
  · rw [taking.header] at more
    exact
      taking.progress.trans (clusterSize_pos _) more ordered
        (Nat.le_succ _) before
  · refine ⟨?_, ?_, ?_⟩
    · rw [next]
      exact scanned.reached
    · rw [next, header]
      exact scanned.limit
    · intro other reached searched
      rw [next] at searched
      rw [refcount, Function.update_of_ne (by omega)]
      exact scanned.used other reached searched

section Steps

variable (turns depth : Nat)
  (fits : start.header.counted + start.header.blockSize < 2 ^ 32)
  (small : low + 2 < 2 ^ 32) (enough : 2 ^ 32 ≤ turns)
  (deep : start.header.rfSize < depth)
  (near : low < first + start.header.blockSize)
  (free : ∀ other, first ≤ other → other < low → start.refcount other = 0)

include fits small enough deep near free

/-- The next cluster of a run is counted, or the update fails. -/
theorem updateClusterRefcount_taking
    (taking : Taking start low first clustIdx q)
    (ordered : first ≤ clustIdx) (before : clustIdx < low) :
    ∃ updated after,
      updateClusterRefcount lib turns depth q clustIdx 1 =
          some (updated, after) ∧
        (updated = true → Taking start low first (clustIdx + 1) after) := by
  obtain ⟨shallower, rfl⟩ : ∃ shallower, depth = shallower + 1 :=
    Nat.exists_eq_add_of_le' (Nat.zero_lt_of_lt deep)
  have coherent := taking.usable.coherent
  have same := taking.header
  have unused : q.refcount clustIdx = 0 :=
    taking.unused le_rfl before (free clustIdx ordered before)
  have few : q.refcount clustIdx + 1 < 2 ^ 16 := by
    rw [unused]
    decide
  by_cases inTable : clustIdx / q.header.blockSize < q.header.rfSize
  · by_cases absent : q.rfEntry (clustIdx / q.header.blockSize) = 0
    · have room := blockSize_ge coherent.clusterBits
      obtain ⟨result, grown, grows, growth⟩ :=
        qcowGrowRefcountBlock_grown lib turns shallower coherent
          taking.usable.accounted inTable absent before
          (by
            rw [same]
            omega)
          taking.scanned small
          (by
            rw [same] at room ⊢
            omega)
          enough
          (by
            rw [same]
            omega)
      rw [updateClusterRefcount,
        qcowReadRefcountBlock_absent lib coherent (Or.inr absent)]
      dsimp only
      rw [grows]
      cases result with
      | none => exact ⟨false, grown, rfl, by rintro ⟨⟩⟩
      | some rfb =>
          have made := growth rfb rfl
          have takingGrown := taking.grow ordered before.le made
          have unusedGrown : grown.refcount clustIdx = 0 :=
            takingGrown.unused le_rfl before
              (free clustIdx ordered before)
          obtain ⟨after, updated, counted⟩ :=
            updateBlock_counted made.coherent made.member clustIdx
              (by rwa [made.header])
              (by rw [made.key, made.header])
              (by
                rw [unusedGrown]
                decide)
          refine ⟨true, after, ?_, ?_⟩
          · dsimp only
            rw [updated]
          · intro _
            exact
              takingGrown.count ordered before unusedGrown counted.header
                counted.coherent counted.rfTable counted.refcount
                counted.freeClustIdx (counted.shown made.shown)
    · obtain ⟨after, updated, counts⟩ :=
        updateClusterRefcount_present lib turns shallower coherent inTable
          absent few
      refine ⟨true, after, updated, ?_⟩
      intro _
      exact
        taking.count ordered before unused counts.header counts.coherent
          counts.rfTable counts.refcount counts.freeClustIdx
          (counts.shown taking.usable.shown)
  · refine ⟨false, q, ?_, by rintro ⟨⟩⟩
    exact
      updateClusterRefcount_beyond lib turns shallower coherent
        (Nat.not_lt.mp inTable)

/-- A run is counted, or an update fails. -/
theorem takeClusters_taking (remaining : Nat)
    (taking : Taking start low first clustIdx q)
    (ordered : first ≤ clustIdx) (fills : clustIdx + remaining = low) :
    ∃ taken after,
      takeClusters (updateClusterRefcount lib turns depth) remaining q
          clustIdx =
        some (taken, after) ∧
        (taken = true → Taking start low first low after) := by
  induction remaining generalizing q clustIdx with
  | zero =>
      obtain rfl : clustIdx = low := fills
      exact ⟨true, q, rfl, fun _ => taking⟩
  | succ remaining induction =>
      obtain ⟨updated, middle, step, more⟩ :=
        updateClusterRefcount_taking lib turns depth fits small enough deep
          near free taking ordered (by omega)
      rw [takeClusters, step]
      cases updated with
      | false => exact ⟨false, middle, rfl, by rintro ⟨⟩⟩
      | true =>
          dsimp only
          rw [Nat.mod_eq_of_lt (show clustIdx + 1 < 2 ^ 64 by omega)]
          exact
            induction (more rfl) (Nat.le_succ_of_le ordered) (by omega)

end Steps

end Taking

/-! ## Allocations -/

/-- The refcount table in the file as a ledger of clusters. -/
def Image.ledger (image : Image) : Ledger :=
  ⟨image.rfEntry, image.refcount⟩

section Image

variable {q : QcowState}

theorem image_rfEntry (shown : q.TableShown) {rftIdx : Nat}
    (inTable : rftIdx < q.header.rfSize) :
    q.image.rfEntry rftIdx = q.rfEntry rftIdx := by
  apply be64_congr
  intro index small
  rw [shown (rftIdx * 8 + index) (by omega), Nat.add_assoc]
  rfl

theorem image_refcount (shown : q.TableShown) :
    q.image.refcount = q.refcount := by
  funext clustIdx
  unfold Image.refcount QcowState.refcount
  by_cases beyond : q.header.rfSize ≤ clustIdx / q.header.blockSize
  · exact (if_pos beyond).trans (if_pos beyond).symm
  · have entry := image_rfEntry shown (Nat.not_le.mp beyond)
    show
      (if q.header.rfSize ≤ clustIdx / q.header.blockSize then 0
        else if q.image.rfEntry (clustIdx / q.header.blockSize) = 0 then 0
        else
          be16 q.file.bytes
            (q.image.rfEntry (clustIdx / q.header.blockSize) +
              clustIdx % q.header.blockSize * 2)) =
        _
    rw [entry]

end Image

/-- A cluster of a run. -/
def InRun (first clustNum clustIdx : Nat) : Prop :=
  first ≤ clustIdx ∧ clustIdx < first + clustNum

/-- A cluster that a block of the table in the file was created in. -/
def NewBlock (q after : QcowState) (clustIdx : Nat) : Prop :=
  Ledger.NewPage q.header.rfSize q.header.clusterSize q.image.ledger
    after.image.ledger clustIdx

/-- What an allocation leaves in the file. -/
structure Allocated (q : QcowState) (clustNum first : Nat)
    (after : QcowState) : Prop where
  header : after.header = q.header
  taken :
    ∀ clustIdx, InRun first clustNum clustIdx →
      q.image.refcount clustIdx = 0 ∧ after.image.refcount clustIdx = 1
  created :
    ∀ clustIdx, NewBlock q after clustIdx →
      ¬ InRun first clustNum clustIdx ∧
        q.image.refcount clustIdx = 0 ∧ after.image.refcount clustIdx = 1
  others :
    ∀ clustIdx, ¬ InRun first clustNum clustIdx →
      ¬ NewBlock q after clustIdx →
        after.image.refcount clustIdx = q.image.refcount clustIdx
  usable : after.Usable

/-- A run that was taken is allocated. -/
theorem Taking.allocated {q after : QcowState} {low first clustNum : Nat}
    (usable : q.Usable) (fills : first + clustNum = low)
    (taking : Taking q low first low after) :
    Allocated q clustNum first after := by
  have positive := clusterSize_pos q.header
  have progress :
      Ledger.Progress q.header.rfSize q.header.clusterSize low first low
        q.image.ledger after.image.ledger := by
    apply taking.progress.congr
    · intro rftIdx inTable
      exact image_rfEntry usable.shown inTable
    · exact image_refcount usable.shown
    · intro rftIdx inTable
      exact image_rfEntry taking.usable.shown (by rwa [taking.header])
    · exact image_refcount taking.usable.shown
  constructor
  · exact taking.header
  · intro clustIdx inRun
    exact progress.taken clustIdx inRun.1 (fills ▸ inRun.2)
  · intro clustIdx new
    obtain ⟨behind, unused, counted⟩ := progress.new_item positive new
    refine ⟨?_, unused, counted⟩
    rintro ⟨-, within⟩
    omega
  · intro clustIdx outside old
    apply progress.others clustIdx _ old
    rintro ⟨reached, within⟩
    exact outside ⟨reached, fills ▸ within⟩
  · exact taking.usable

section Allocate

variable (lib : Rebalancer (Node Nat))

theorem size_lt_of_few {header : QcowHeader}
    (bits : 2 ≤ header.clusterBits) (bits_le : header.clusterBits ≤ 31)
    {size : Nat}
    (few :
      (size + (header.clusterSize - 1)) / header.clusterSize <
        header.blockSize) :
    size ≤ 2 ^ 63 := by
  have positive := clusterSize_pos header
  have bound := clusterSize_le_two_pow bits_le
  have double := blockSize_double bits
  have product :
      size + (header.clusterSize - 1) <
        header.blockSize * header.clusterSize :=
    (Nat.div_lt_iff_lt_mul positive).mp few
  have limit :
      header.blockSize * header.clusterSize ≤ 2 ^ 31 * 2 ^ 31 :=
    Nat.mul_le_mul (by omega) bound
  omega

/-- The clusters before the end of the search are those it counted. -/
theorem run_of_unused {counts : Nat → Nat}
    {origin clustNum behind first : Nat}
    (isBehind : behind = (origin + clustNum) % 2 ^ 32)
    (isFirst : (behind + 2 ^ 64 - clustNum) % 2 ^ 64 = first)
    (small : first < 2 ^ 32) (few : clustNum < 2 ^ 32)
    (unused : Unused counts origin clustNum) :
    first + clustNum = behind ∧
      ∀ other, first ≤ other → other < behind → counts other = 0 := by
  have fills : first + clustNum = behind := by omega
  refine ⟨fills, ?_⟩
  intro other reached before
  have zero := unused (other - first) (by omega)
  have position : (origin + (other - first)) % 2 ^ 32 = other := by omega
  rwa [position] at zero

/-- No cluster of a run is counted when the search has ended. -/
theorem Taking.begin {q middle : QcowState} (usable : q.Usable)
    (same : SameBlocks q middle) (coherent : middle.Coherent)
    (first : Nat) : Taking q middle.next first first middle := by
  refine ⟨same.header,
    ⟨coherent, same.accounted usable.accounted, same.shown usable.shown⟩,
    ?_, ?_⟩
  · rw [same.ledger]
    exact Ledger.Progress.refl q.ledger first
  · refine ⟨le_rfl, Nat.le_max_left _ _, ?_⟩
    intro other reached before
    omega

/-- A run behind the table is not taken. -/
theorem takeClusters_beyond (turns : Nat) {q : QcowState}
    {depth clustNum first : Nat} (deep : 0 < depth)
    (coherent : q.Coherent)
    (beyond : q.header.rfSize ≤ first / q.header.blockSize)
    (one : 0 < clustNum) :
    takeClusters (updateClusterRefcount lib turns depth) clustNum q first =
      some (false, q) := by
  obtain ⟨shallower, rfl⟩ : ∃ shallower, depth = shallower + 1 :=
    Nat.exists_eq_add_of_le' deep
  obtain ⟨fewer, rfl⟩ : ∃ fewer, clustNum = fewer + 1 :=
    Nat.exists_eq_add_of_le' one
  rw [takeClusters,
    updateClusterRefcount_beyond lib turns shallower coherent beyond]

/--
An allocation of fewer clusters than a block counts ends.  It fails, or the
clusters from its offset on were not in use and are counted once; beside
them, only the clusters of new blocks change, which lie elsewhere.
-/
theorem qcowAllocClusters_allocated (turns depth : Nat) {q : QcowState}
    (usable : q.Usable) {size : Nat} (nonempty : 0 < size)
    (few :
      (size + (q.header.clusterSize - 1)) / q.header.clusterSize <
        q.header.blockSize)
    (fits : q.header.counted + q.header.blockSize < 2 ^ 32)
    (enough : 2 ^ 33 ≤ turns) (deep : q.header.rfSize < depth) :
    ∃ offset after,
      qcowAllocClusters lib turns (updateClusterRefcount lib turns depth) q
          size true =
        some (offset, after) ∧
        (offset = allocError ∨
          ∃ first, offset = first * q.header.clusterSize ∧
            Allocated q
              ((size + (q.header.clusterSize - 1)) / q.header.clusterSize)
              first after) := by
  have coherent := usable.coherent
  have bits_le := coherent.clusterBits_le
  have positive := clusterSize_pos q.header
  have num :=
    clustNum_eq bits_le (size_lt_of_few coherent.clusterBits bits_le few)
  have one :
      0 < (size + (q.header.clusterSize - 1)) / q.header.clusterSize :=
    Nat.div_pos (by omega) positive
  unfold qcowAllocClusters
  dsimp only
  rw [num]
  generalize
    (size + (q.header.clusterSize - 1)) / q.header.clusterSize =
      clustNum at few one ⊢
  have below : q.next < 2 ^ 32 := Nat.mod_lt _ (by decide)
  have ends :
      ∃ result, findClusters lib turns q clustNum 0 0 = some result :=
    findClusters_ends lib
      ((q.header.counted + 2 ^ 32 - q.next) % 2 ^ 32) turns coherent
      (by omega) (by omega) (by omega) (by omega)
  obtain ⟨⟨result, middle⟩, found⟩ := ends
  obtain ⟨same, coherentMiddle, foundRun⟩ :=
    findClusters_found lib turns coherent rfl (by omega) one
      (Nat.zero_le _) (by intro index none; cases none)
      (Nat.mod_eq_of_lt below).symm (by intro none; cases none) found
  rw [found]
  cases result with
  | none => exact ⟨allocError, middle, rfl, Or.inl rfl⟩
  | some behind =>
      obtain ⟨nextMiddle, origin, isBehind, unused⟩ := foundRun behind rfl
      dsimp only
      rw [if_pos rfl]
      generalize isFirst :
        (behind + 2 ^ 64 - clustNum) % 2 ^ 64 = first
      by_cases inTable :
          first / q.header.blockSize < q.header.rfSize
      · have inside : first < q.header.counted :=
          (lt_counted_of_group coherent.clusterBits).mp inTable
        obtain ⟨fills, free⟩ :=
          run_of_unused isBehind isFirst (by omega) (by omega) unused
        have begun := Taking.begin usable same coherentMiddle first
        rw [nextMiddle] at begun
        obtain ⟨taken, after, took, taking⟩ :=
          takeClusters_taking lib turns depth fits (by omega) (by omega)
            deep (by omega) free clustNum begun le_rfl fills
        rw [took]
        cases taken with
        | false => exact ⟨allocError, after, rfl, Or.inl rfl⟩
        | true =>
            refine ⟨_, after, rfl, Or.inr ⟨first, ?_, ?_⟩⟩
            · rw [same.header]
              exact start_eq bits_le (by omega)
            · exact (taking rfl).allocated usable fills
      · have beyond :
            middle.header.rfSize ≤ first / middle.header.blockSize := by
          rw [same.header]
          exact Nat.not_lt.mp inTable
        rw [takeClusters_beyond lib turns (Nat.zero_lt_of_lt deep)
          coherentMiddle beyond one]
        exact ⟨allocError, middle, rfl, Or.inl rfl⟩

end Allocate

/-! ## Opened images -/

/-- An image that was opened is usable, when its table accounts for itself. -/
theorem usable_of_qcowProbe {header : QcowHeader} {fresh : Buffer}
    {file : HostFile} {q : QcowState} (nonFailing : file.NonFailing)
    (addressable : file.size ≤ offT)
    (inside :
      header.refcountTableOffset + header.rfSize * 8 ≤ file.size)
    (opened : qcowProbe .qcow2 header fresh file = some q)
    (laid : q.Laid) (accounted : q.Accounted) : q.Usable := by
  have probed := probed_of_qcowProbe opened
  obtain ⟨calls, skipped⟩ := probed.skipped
  obtain ⟨before, after, readRf⟩ := probed.rfTable rfl
  have shown :=
    readTable_full (nonFailing.skip before) addressable inside readRf
  refine ⟨⟨laid, ?_, ?_, ?_⟩, accounted, ?_⟩
  · exact skipped ▸ nonFailing.skip calls
  · exact probed.rfCache ▸ Cache.empty_sound _
  · exact probed.rfCache ▸ Cache.empty_holds _
  · intro position small
    rw [probed.sameHeader] at small ⊢
    rw [skipped]
    exact shown position small

theorem smallState_table :
    (∀ rftIdx < 64,
      smallState.rfEntry rftIdx = if rftIdx = 0 then 1024 else 0) ∧
      1024 + 512 ≤ smallState.file.size ∧
      ∀ clustIdx < 6, smallState.refcount clustIdx ≠ 0 := by
  decide +kernel

theorem smallState_onlyBlock {rftIdx : Nat} (inTable : rftIdx < 64)
    (present : smallState.rfEntry rftIdx ≠ 0) :
    rftIdx = 0 ∧ smallState.rfEntry rftIdx = 1024 := by
  rw [smallState_table.1 rftIdx inTable] at present ⊢
  by_cases first : rftIdx = 0
  · exact ⟨first, if_pos first⟩
  · rw [if_neg first] at present
    exact absurd rfl present

theorem smallState_laid : smallState.Laid := by
  constructor
  · decide
  · decide
  · decide
  · intro rftIdx inTable present
    rw [(smallState_onlyBlock inTable present).2]
    exact ⟨by decide, by decide, Or.inr (by decide)⟩
  · intro rftIdx inTable present
    rw [(smallState_onlyBlock inTable present).2]
    exact smallState_table.2.1
  · intro first inFirst second inSecond present same
    have presentSecond : smallState.rfEntry second ≠ 0 := by rwa [← same]
    rw [(smallState_onlyBlock inFirst present).1,
      (smallState_onlyBlock inSecond presentSecond).1]

theorem smallState_accounted : smallState.Accounted := by
  have counted := smallState_table.2.2
  refine ⟨counted 0 (by decide), ?_, ⟨?_⟩⟩
  · intro clustIdx overlaps
    have inTable : max 512 (clustIdx * 512) < min 1024 ((clustIdx + 1) * 512) :=
      overlaps
    exact counted clustIdx (by omega)
  · intro rftIdx inTable present
    have place : smallState.rfEntry rftIdx = 1024 :=
      (smallState_onlyBlock inTable present).2
    show smallState.refcount (smallState.rfEntry rftIdx / 512) ≠ 0
    rw [place]
    exact counted 2 (by decide)

theorem smallState_usable : smallState.Usable :=
  usable_of_qcowProbe smallFile_nonFailing (by decide) (by decide)
    smallState_opened smallState_laid smallState_accounted

/-- An allocation of one cluster in the small image. -/
theorem qcowAllocClusters_on_smallState :
    ∃ after,
      qcowAllocClusters (.plain _) (2 ^ 33)
          (updateClusterRefcount (.plain _) (2 ^ 33) 65) smallState 512
          true =
        some (3072, after) ∧
        Allocated smallState 1 6 after := by
  obtain ⟨offset, after, allocates, outcome⟩ :=
    qcowAllocClusters_allocated (.plain _) (2 ^ 33) 65 smallState_usable
      (show 0 < 512 by decide) (by decide) (by decide) le_rfl (by decide)
  have run :
      (qcowAllocClusters (.plain _) (2 ^ 33)
          (updateClusterRefcount (.plain _) (2 ^ 33) 65) smallState 512
          true).map Prod.fst =
        some 3072 := by
    decide +kernel
  rw [allocates] at run
  obtain rfl : offset = 3072 := Option.some.inj run
  refine ⟨after, allocates, ?_⟩
  rcases outcome with failed | ⟨first, place, allocated⟩
  · exact absurd failed (by decide)
  · have inSix : 3072 = first * 512 := place
    obtain rfl : first = 6 := by omega
    exact allocated

/-! ## Tables that miscount -/

/-- A file of a size with a content, on a host that does all it is asked. -/
def contentFile (size : Nat) (content : Nat → UInt8) : HostFile where
  size := size
  bytes position := if position < size then content position else 0
  answers _ := 4096
  trimmed _ behind := if_neg (Nat.not_lt.mpr behind)

/-- The small image with one block for two groups of clusters. -/
def aliasedFile : HostFile :=
  contentFile 3072 fun position =>
    (((526, 4) :: smallContent).lookup position).getD 0

theorem aliasedFile_opens :
    (qcowProbe .qcow2 smallHeader (fun _ => 0) aliasedFile).isSome := by
  decide +kernel

def aliasedState : QcowState :=
  (qcowProbe .qcow2 smallHeader (fun _ => 0) aliasedFile).get
    aliasedFile_opens

/-- Clusters of eight bytes; the table has an entry for each of 64 blocks. -/
def crowdedHeader : QcowHeader where
  size := 1024
  l1TableOffset := 0
  l1Size := 0
  clusterBits := 3
  l2Bits := 0
  refcountTableOffset := 128
  refcountTableSize := 64

/-- All clusters are in use before the groups 20 and 21, and far behind. -/
def crowdedEntry (rftIdx : Nat) : Nat :=
  if rftIdx < 20 then
    (88 + rftIdx) * 8
  else if 22 ≤ rftIdx ∧ rftIdx < 54 then
    (86 + rftIdx) * 8
  else
    0

/-- A file where the cache cannot hold the blocks behind a gap. -/
def crowdedFile : HostFile :=
  contentFile 1728 fun position =>
    if 128 ≤ position ∧ position < 640 then
      UInt8.ofNat
        (crowdedEntry ((position - 128) / 8) / 256 ^ (7 - position % 8))
    else if 704 ≤ position ∧ position < 1120 then
      UInt8.ofNat (position % 2)
    else
      0

theorem crowdedFile_opens :
    (qcowProbe .qcow2 crowdedHeader (fun _ => 1) crowdedFile).isSome := by
  decide +kernel

def crowdedState : QcowState :=
  (qcowProbe .qcow2 crowdedHeader (fun _ => 1) crowdedFile).get
    crowdedFile_opens

theorem crowdedEntry_distinct {first second : Nat}
    (present : crowdedEntry first ≠ 0)
    (same : crowdedEntry first = crowdedEntry second) : first = second := by
  unfold crowdedEntry at present same
  split_ifs at present same <;> omega

theorem crowdedEntry_inside {rftIdx : Nat}
    (present : crowdedEntry rftIdx ≠ 0) :
    8 ∣ crowdedEntry rftIdx ∧ 704 ≤ crowdedEntry rftIdx ∧
      crowdedEntry rftIdx + 8 ≤ 1120 := by
  unfold crowdedEntry at present ⊢
  split_ifs at present ⊢ <;> omega

theorem crowdedState_table :
    (∀ rftIdx < 64, crowdedState.rfEntry rftIdx = crowdedEntry rftIdx) ∧
      1120 ≤ crowdedState.file.size ∧
      ∀ clustIdx < 140, clustIdx < 80 ∨ 88 ≤ clustIdx →
        crowdedState.refcount clustIdx ≠ 0 := by
  decide +kernel

theorem crowdedState_laid : crowdedState.Laid := by
  have entry := crowdedState_table.1
  constructor
  · decide
  · decide
  · decide
  · intro rftIdx inTable present
    rw [entry rftIdx inTable] at present ⊢
    obtain ⟨aligned, behind, inside⟩ := crowdedEntry_inside present
    refine ⟨aligned, inside.trans (by decide), Or.inr ?_⟩
    exact le_trans (by decide) behind
  · intro rftIdx inTable present
    rw [entry rftIdx inTable] at present ⊢
    exact (crowdedEntry_inside present).2.2.trans crowdedState_table.2.1
  · intro first inFirst second inSecond
    rw [entry first inFirst, entry second inSecond]
    exact crowdedEntry_distinct

theorem crowdedState_accounted : crowdedState.Accounted := by
  have counted := crowdedState_table.2.2
  refine ⟨counted 0 (by decide) (by decide), ?_, ⟨?_⟩⟩
  · intro clustIdx overlaps
    have inTable : max 128 (clustIdx * 8) < min 640 ((clustIdx + 1) * 8) :=
      overlaps
    exact counted clustIdx (by omega) (by omega)
  · intro rftIdx inTable present
    have present : crowdedState.rfEntry rftIdx ≠ 0 := present
    show crowdedState.refcount (crowdedState.rfEntry rftIdx / 8) ≠ 0
    rw [crowdedState_table.1 rftIdx inTable] at present ⊢
    obtain ⟨-, behind, inside⟩ := crowdedEntry_inside present
    exact counted _ (by omega) (by omega)

theorem crowdedState_usable : crowdedState.Usable :=
  usable_of_qcowProbe (fun _ => Nat.zero_lt_succ 4095) (by decide)
    (by decide) (Option.some_get crowdedFile_opens).symm crowdedState_laid
    crowdedState_accounted

/--
Counting a cluster in a block for two groups counts another cluster; and a
run over two groups may lose its new block to the cache before it counts.
-/
theorem qcowAllocClusters_miscounts :
    (aliasedState.image.refcount 262 = 0 ∧
      (qcowAllocClusters (.plain _) 16
          (updateClusterRefcount (.plain _) 16 65) aliasedState 512
          true).map
        (fun result =>
          (result.1, result.2.image.refcount 6,
            result.2.image.refcount 262,
            (List.range 64).map result.2.image.rfEntry)) =
        some
          (3072, 1, 1,
            (List.range 64).map aliasedState.image.rfEntry)) ∧
      crowdedState.Usable ∧
      (qcowAllocClusters (.plain _) 256
          (updateClusterRefcount (.plain _) 256 65) crowdedState 56
          true).map
        (fun result => (result.1, result.2.image.refcount 81)) =
        some (640, 258) :=
  ⟨by decide +kernel, crowdedState_usable, by decide +kernel⟩

end Kemu.Disk.Qcow
