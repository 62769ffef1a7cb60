import Kemu.Disk.Qcow.Blocks
import Kemu.Lib.PagedLedger

/-!
# Allocating clusters

`qcow_alloc_clusters` looks for clusters that follow each other and are not
in use, and counts them.  Counting may need a new refcount block, whose own
cluster is found by the same search and counted in turn.  On a table whose
blocks are counted and lie apart, the recursion ends, the clusters found are
counted once, and only the new blocks are counted besides.
-/

namespace Kemu.Disk.Qcow

open Kemu.Lib.LruCache
open Kemu.Lib.PagedLedger
open Kemu.Lib.SearchTree
open Kemu.Util.ReadWrite

section Search

variable (lib : Rebalancer (Node Nat)) {q : QcowState}

/-! ## The search -/

/-- The state in a turn of the search. -/
def QcowState.advanced (q : QcowState) : QcowState :=
  { q with freeClustIdx := (q.freeClustIdx + 1) % 2 ^ 64 }

/-- The cluster that the search looks at next. -/
def QcowState.next (q : QcowState) : Nat :=
  q.freeClustIdx % 2 ^ 32

theorem advanced_same (q : QcowState) : SameBlocks q q.advanced :=
  ⟨rfl, rfl, rfl, rfl⟩

theorem advanced_coherent (coherent : q.Coherent) : q.advanced.Coherent :=
  (advanced_same q).coherent coherent coherent.answered
    coherent.cacheSound coherent.cacheHolds

theorem advanced_next (q : QcowState) :
    q.advanced.next = (q.next + 1) % 2 ^ 32 := by
  unfold QcowState.next QcowState.advanced
  dsimp only
  omega

/-- A turn of the search looks at one cluster. -/
theorem findClusters_turn (coherent : q.Coherent) (turns : Nat)
    {clustNum i : Nat} (more : i < clustNum) (clustIdx : Nat) :
    ∃ after,
      findClusters lib (turns + 1) q clustNum i clustIdx =
          (if q.refcount q.next = refcountError then
            some (none, after)
          else if 0 < q.refcount q.next then
            findClusters lib turns after clustNum 0 q.next
          else
            findClusters lib turns after clustNum ((i + 1) % 2 ^ 32)
              q.next) ∧
        SameBlocks q after ∧ after.Coherent ∧
        after.next = (q.next + 1) % 2 ^ 32 := by
  obtain ⟨after, read, same, coherentAfter, free⟩ :=
    qcowGetRefcount_spec lib (advanced_coherent coherent) q.next
  have whole := (advanced_same q).trans same
  refine ⟨after, ?_, whole, coherentAfter, ?_⟩
  · rw [findClusters, if_pos more]
    dsimp only
    rw [← QcowState.advanced, ← QcowState.next, read,
      (advanced_same q).refcount]
  · rw [QcowState.next, free]
    exact advanced_next q

/-- Behind the clusters that are counted, the search ends. -/
theorem findClusters_ends_behind (turns : Nat) {clustNum i clustIdx : Nat}
    (coherent : q.Coherent) (few : clustNum < 2 ^ 32)
    (enough : clustNum - i < turns)
    (behind :
      i < clustNum →
        q.header.counted ≤ q.next ∧ q.next + (clustNum - i) ≤ 2 ^ 32) :
    ∃ result, findClusters lib turns q clustNum i clustIdx = some result := by
  induction turns generalizing q i clustIdx with
  | zero => cases enough
  | succ turns induction =>
      by_cases more : i < clustNum
      · obtain ⟨after, turn, same, coherentAfter, next⟩ :=
          findClusters_turn lib coherent turns more clustIdx
        obtain ⟨beyond, room⟩ := behind more
        have unused : q.refcount q.next = 0 :=
          refcount_of_beyond coherent.clusterBits beyond
        rw [turn, unused, if_neg (by decide), if_neg (by decide),
          Nat.mod_eq_of_lt (by omega)]
        apply induction coherentAfter (by omega)
        intro still
        rw [next, same.header, Nat.mod_eq_of_lt (by omega)]
        omega
      · rw [findClusters, if_neg more]
        exact ⟨_, rfl⟩

/-- The search comes to the end of the clusters that are counted. -/
theorem findClusters_ends (ahead turns : Nat) {clustNum i clustIdx : Nat}
    (coherent : q.Coherent) (few : clustNum < 2 ^ 32)
    (room : q.header.counted + clustNum ≤ 2 ^ 32)
    (reaches : (q.next + ahead) % 2 ^ 32 = q.header.counted)
    (enough : ahead + clustNum < turns) :
    ∃ result, findClusters lib turns q clustNum i clustIdx = some result := by
  induction ahead generalizing q i clustIdx turns with
  | zero =>
      have arrived : q.next = q.header.counted := by
        rw [← reaches, Nat.add_zero]
        exact (Nat.mod_mod _ _).symm
      apply findClusters_ends_behind lib _ coherent few (by omega)
      intro more
      omega
  | succ ahead induction =>
      cases turns with
      | zero => cases enough
      | succ turns =>
          by_cases more : i < clustNum
          · obtain ⟨after, turn, same, coherentAfter, next⟩ :=
              findClusters_turn lib coherent turns more clustIdx
            have reachesAfter :
                (after.next + ahead) % 2 ^ 32 = after.header.counted := by
              rw [next, same.header, Nat.mod_add_mod, Nat.add_assoc,
                Nat.add_comm 1, reaches]
            have roomAfter :
                after.header.counted + clustNum ≤ 2 ^ 32 := by
              rwa [same.header]
            have fewer : ahead + clustNum < turns := by omega
            rw [turn]
            split
            · exact ⟨_, rfl⟩
            split
            · exact induction turns coherentAfter roomAfter reachesAfter fewer
            · exact induction turns coherentAfter roomAfter reachesAfter fewer
          · rw [findClusters, if_neg more]
            exact ⟨_, rfl⟩

/-- Clusters that follow each other and are not in use. -/
def Unused (counts : Nat → Nat) (first count : Nat) : Prop :=
  ∀ index < count, counts ((first + index) % 2 ^ 32) = 0

/-- The search ends behind as many unused clusters as it looks for. -/
theorem findClusters_found (turns : Nat)
    {clustNum i clustIdx first : Nat} {counts : Nat → Nat}
    {result : Option Nat} {after : QcowState} (coherent : q.Coherent)
    (counting : q.refcount = counts) (few : clustNum < 2 ^ 32)
    (nonempty : 0 < clustNum) (begun : i ≤ clustNum)
    (unused : Unused counts first i)
    (next : q.next = (first + i) % 2 ^ 32)
    (last : 0 < i → (clustIdx + 1) % 2 ^ 32 = (first + i) % 2 ^ 32)
    (found :
      findClusters lib turns q clustNum i clustIdx = some (result, after)) :
    SameBlocks q after ∧ after.Coherent ∧
      ∀ behind, result = some behind →
        after.next = behind ∧
          ∃ first, behind = (first + clustNum) % 2 ^ 32 ∧
            Unused counts first clustNum := by
  induction turns generalizing q i clustIdx first with
  | zero => cases found
  | succ turns induction =>
      by_cases more : i < clustNum
      · obtain ⟨middle, turn, same, coherentMiddle, nextMiddle⟩ :=
          findClusters_turn lib coherent turns more clustIdx
        have countingMiddle : middle.refcount = counts :=
          (funext same.refcount).trans counting
        rw [turn, counting] at found
        refine And.imp_left same.trans ?_
        split at found
        · cases found
          exact ⟨SameBlocks.refl _, coherentMiddle, by rintro _ ⟨⟩⟩
        split at found
        · -- A cluster in use: the count begins again behind it.
          apply induction coherentMiddle countingMiddle (Nat.zero_le _) _ _ _
            found
          · exact middle.next
          · intro index none
            cases none
          · rw [Nat.add_zero]
            exact (Nat.mod_mod _ _).symm
          · intro none
            cases none
        next notUsed =>
          have zero : counts q.next = 0 := Nat.eq_zero_of_not_pos notUsed
          rw [Nat.mod_eq_of_lt (lt_of_le_of_lt more few)] at found
          apply induction coherentMiddle countingMiddle more _ _ _ found
          · exact first
          · intro index inRun
            rcases Nat.lt_succ_iff_lt_or_eq.mp inRun with earlier | rfl
            · exact unused index earlier
            · rw [← next]
              exact zero
          · rw [nextMiddle, next, Nat.mod_add_mod, Nat.add_assoc]
          · intro _
            rw [next, Nat.mod_add_mod, Nat.add_assoc]
      · rw [findClusters, if_neg more] at found
        cases found
        refine ⟨SameBlocks.refl _, coherent, ?_⟩
        rintro _ ⟨⟩
        have all : i = clustNum := by omega
        rw [all] at next last unused
        rw [last nonempty]
        exact ⟨next, first, rfl, unused⟩

/-- The first cluster that is not in use, from the free index on. -/
structure Found (q : QcowState) (limit clustIdx : Nat)
    (after : QcowState) : Prop where
  same : SameBlocks q after
  coherent : after.Coherent
  next : after.next = clustIdx + 1
  reached : q.next ≤ clustIdx
  inLimit : clustIdx ≤ limit
  unused : q.refcount clustIdx = 0
  first :
    ∀ earlier, q.next ≤ earlier → earlier < clustIdx →
      q.refcount earlier ≠ 0

theorem findClusters_one (turns : Nat) {clustIdx : Nat}
    (coherent : q.Coherent) (small : q.next + 1 < 2 ^ 32)
    (unused : q.refcount q.next = 0) :
    ∃ after,
      findClusters lib (turns + 2) q 1 0 clustIdx =
          some (some (q.next + 1), after) ∧
        SameBlocks q after ∧ after.Coherent ∧ after.next = q.next + 1 := by
  obtain ⟨after, turn, same, coherentAfter, next⟩ :=
    findClusters_turn lib coherent (turns + 1) Nat.zero_lt_one clustIdx
  refine ⟨after, ?_, same, coherentAfter, ?_⟩
  · rw [turn, unused, if_neg (by decide), if_neg (by decide), findClusters,
      if_neg (by decide), Nat.mod_eq_of_lt small]
  · rw [next, Nat.mod_eq_of_lt small]

theorem found_here (turns limit : Nat) {clustIdx : Nat}
    (coherent : q.Coherent) (small : q.next + 1 < 2 ^ 32)
    (inLimit : q.next ≤ limit) (unused : q.refcount q.next = 0) :
    ∃ after,
      findClusters lib (turns + 2) q 1 0 clustIdx =
          some (some (q.next + 1), after) ∧
        Found q limit q.next after := by
  obtain ⟨after, found, same, coherentAfter, next⟩ :=
    findClusters_one lib turns coherent small unused
  refine ⟨after, found, same, coherentAfter, next, le_rfl, inLimit, unused,
    ?_⟩
  intro earlier reached before
  exact absurd before (Nat.not_lt.mpr reached)

/-- The search for one cluster finds the first that is not in use. -/
theorem findClusters_next (ahead turns clustIdx : Nat)
    (coherent : q.Coherent)
    (reaches : q.header.counted ≤ q.next + ahead)
    (small : q.next + ahead + 1 < 2 ^ 32) (enough : ahead + 1 < turns) :
    ∃ result after,
      findClusters lib turns q 1 0 clustIdx = some (result, after) ∧
        (result = none ∨
          ∃ place, result = some (place + 1) ∧
            Found q (q.next + ahead) place after) := by
  induction ahead generalizing q turns clustIdx with
  | zero =>
      obtain ⟨fewer, rfl⟩ := Nat.exists_eq_add_of_le' enough
      obtain ⟨after, found, here⟩ :=
        found_here lib fewer _ coherent small le_rfl
          (refcount_of_beyond coherent.clusterBits reaches)
      exact ⟨_, after, found, Or.inr ⟨_, rfl, here⟩⟩
  | succ ahead induction =>
      obtain ⟨fewer, rfl⟩ := Nat.exists_eq_add_of_le' enough
      by_cases unused : q.refcount q.next = 0
      · obtain ⟨after, found, here⟩ :=
          found_here lib (fewer + (ahead + 1)) _ coherent (by omega)
            (Nat.le_add_right _ _) unused
        exact ⟨_, after, found, Or.inr ⟨_, rfl, here⟩⟩
      · obtain ⟨middle, turn, same, coherentMiddle, next⟩ :=
          findClusters_turn lib coherent (fewer + (ahead + 2))
            Nat.zero_lt_one clustIdx
        rw [Nat.mod_eq_of_lt (by omega)] at next
        have reachesMiddle :
            middle.header.counted ≤ middle.next + ahead := by
          rw [same.header, next]
          omega
        have used : 0 < q.refcount q.next := Nat.pos_of_ne_zero unused
        have oneMore :
            fewer + (ahead + 1 + 1 + 1) = fewer + (ahead + 2) + 1 := by
          omega
        rw [oneMore, turn, if_pos used]
        split
        · exact ⟨none, middle, rfl, Or.inl rfl⟩
        · obtain ⟨result, after, found, outcome⟩ :=
            induction (fewer + (ahead + 2)) q.next coherentMiddle
              reachesMiddle (by omega) (by omega)
          refine ⟨result, after, found, ?_⟩
          rcases outcome with failed | ⟨place, isPlace, here⟩
          · exact Or.inl failed
          · refine Or.inr ⟨place, isPlace, same.trans here.same,
              here.coherent, here.next, ?_, ?_, ?_, ?_⟩
            · have reached := here.reached
              omega
            · have inLimit := here.inLimit
              omega
            · rw [← same.refcount]
              exact here.unused
            · intro earlier reached before
              by_cases itself : earlier = q.next
              · rw [itself]
                exact unused
              · rw [← same.refcount]
                exact here.first earlier (by omega) before

/-! ## Accounted tables -/

/-- The refcount table as a ledger of clusters. -/
def QcowState.ledger (q : QcowState) : Ledger :=
  ⟨q.rfEntry, q.refcount⟩

/-- The clusters of the header, the table and the blocks are counted. -/
structure QcowState.Accounted (q : QcowState) : Prop where
  header : q.refcount 0 ≠ 0
  table :
    ∀ clustIdx,
      q.header.Overlaps clustIdx q.header.refcountTableOffset
          (q.header.rfSize * 8) →
        q.refcount clustIdx ≠ 0
  blocks : q.ledger.Accounted q.header.rfSize q.header.clusterSize

theorem clusterSize_le_two_pow {header : QcowHeader}
    (bits : header.clusterBits ≤ 31) : header.clusterSize ≤ 2 ^ 31 := by
  rw [clusterSize_eq]
  exact Nat.pow_le_pow_right (by decide) bits

/-- A cluster that may take a new block. -/
structure Vacant (q : QcowState) (clustIdx : Nat) : Prop where
  room : q.Room (clustIdx * q.header.clusterSize)
  nonzero : clustIdx * q.header.clusterSize ≠ 0
  fresh :
    ∀ rftIdx < q.header.rfSize,
      q.rfEntry rftIdx ≠ clustIdx * q.header.clusterSize

/-- A cluster that is not in use may take a new block. -/
theorem vacant_of_unused (coherent : q.Coherent)
    (accounted : q.Accounted) (some : 0 < q.header.rfSize)
    {clustIdx : Nat} (unused : q.refcount clustIdx = 0)
    (small : clustIdx < 2 ^ 32) : Vacant q clustIdx := by
  have positive := clusterSize_pos q.header
  have next :
      clustIdx * q.header.clusterSize + q.header.clusterSize =
        (clustIdx + 1) * q.header.clusterSize :=
    (Nat.succ_mul _ _).symm
  have nonzero : clustIdx * q.header.clusterSize ≠ 0 := by
    intro zero
    rcases Nat.mul_eq_zero.mp zero with first | none
    · rw [first] at unused
      exact accounted.header unused
    · omega
  refine ⟨⟨Nat.dvd_mul_left _ _, ?_, ?_⟩, nonzero, ?_⟩
  · have size := clusterSize_le_two_pow coherent.clusterBits_le
    have whole : offT = 2 ^ 32 * 2 ^ 31 := rfl
    rw [next, whole]
    exact Nat.mul_le_mul small size
  · by_contra overlaps
    apply accounted.table clustIdx _ unused
    unfold QcowHeader.Overlaps
    rw [max_lt_iff, lt_min_iff, lt_min_iff, ← next]
    omega
  · intro rftIdx inTable same
    have present : q.rfEntry rftIdx ≠ 0 := by
      rw [same]
      exact nonzero
    have counted : q.refcount (q.rfEntry rftIdx / _) ≠ 0 :=
      accounted.blocks.counted rftIdx inTable present
    rw [same, Nat.mul_div_cancel _ positive] at counted
    exact counted unused

/-! ## A cluster for a block -/

/-- The number of clusters for a size. -/
theorem clustNum_eq {header : QcowHeader} (bits : header.clusterBits ≤ 31)
    {size : Nat} (small : size ≤ 2 ^ 63) :
    ((size + (header.clusterSize - 1)) % 2 ^ 64) >>> header.clusterBits =
      (size + (header.clusterSize - 1)) / header.clusterSize := by
  have bound := clusterSize_le_two_pow bits
  rw [Nat.mod_eq_of_lt (by omega), Nat.shiftRight_eq_div_pow,
    ← clusterSize_eq]

theorem clustNum_one {header : QcowHeader} (bits : header.clusterBits ≤ 31) :
    ((header.clusterSize + (header.clusterSize - 1)) % 2 ^ 64) >>>
        header.clusterBits =
      1 := by
  have bound := clusterSize_le_two_pow bits
  have positive := clusterSize_pos header
  rw [clustNum_eq bits (by omega)]
  exact Nat.div_eq_of_lt_le (by omega) (by omega)

/-- The offset of a cluster. -/
theorem start_eq {header : QcowHeader} (bits : header.clusterBits ≤ 31)
    {clustIdx : Nat} (small : clustIdx < 2 ^ 32) :
    clustIdx <<< header.clusterBits % 2 ^ 64 =
      clustIdx * header.clusterSize := by
  have bound := clusterSize_le_two_pow bits
  have inRange : clustIdx * header.clusterSize ≤ 2 ^ 32 * 2 ^ 31 :=
    Nat.mul_le_mul small.le bound
  rw [Nat.shiftLeft_eq, ← clusterSize_eq]
  exact Nat.mod_eq_of_lt (lt_of_le_of_lt inRange (by decide))

/-- The search for the cluster of a new block. -/
theorem qcowAllocClusters_one (update : Updater) (ahead turns : Nat)
    (coherent : q.Coherent)
    (reaches : q.header.counted ≤ q.next + ahead)
    (small : q.next + ahead + 1 < 2 ^ 32) (enough : ahead + 1 < turns) :
    ∃ offset after,
      qcowAllocClusters lib turns update q q.header.clusterSize false =
          some (offset, after) ∧
        (offset = allocError ∨
          ∃ place, offset = place * q.header.clusterSize ∧
            Found q (q.next + ahead) place after) := by
  obtain ⟨result, after, found, outcome⟩ :=
    findClusters_next lib ahead turns 0 coherent reaches small enough
  unfold qcowAllocClusters
  dsimp only
  rw [clustNum_one coherent.clusterBits_le, found]
  rcases outcome with rfl | ⟨place, rfl, here⟩
  · exact ⟨allocError, after, rfl, Or.inl rfl⟩
  · have inLimit := here.inLimit
    have first : (place + 1 + 2 ^ 64 - 1) % 2 ^ 64 = place := by omega
    refine ⟨_, after, rfl, Or.inr ⟨place, ?_, here⟩⟩
    rw [first, here.same.header]
    exact start_eq coherent.clusterBits_le (by omega)

/-! ## New blocks -/

/-- The state once memory for a block was granted. -/
def QcowState.granted (q : QcowState) : QcowState :=
  { q with file := q.file.skip 1 }

theorem granted_same (q : QcowState) : SameBlocks q q.granted :=
  ⟨rfl, rfl, rfl, rfl⟩

theorem granted_coherent (coherent : q.Coherent) : q.granted.Coherent :=
  (granted_same q).coherent coherent (coherent.answered.skip 1)
    coherent.cacheSound coherent.cacheHolds

/-- What remains of a growth once the new block is linked. -/
def finishGrowth (update : Updater) (linked : QcowState)
    (rftIdx place : Nat) (rfb : Node Nat) :
    Option (Option (Node Nat) × QcowState) :=
  let recover (q : QcowState) : QcowState :=
    { q with
      rfTable := putNumber 8 q.rfTable (rftIdx * 8) 0
      rfCache := q.rfCache.discard rfb }
  match update linked place 1 with
  | none => none
  | some (false, q) => some (none, recover q)
  | some (true, q) =>
      match qcowWriteRefcountTable q with
      | (false, q) => some (none, recover q)
      | (true, q) => some (some rfb, q)

/-- A growth whose search found a cluster links a block there. -/
theorem qcowGrowRefcountBlock_eq (update : Updater) (turns : Nat)
    (coherent : q.Coherent) {clustIdx place : Nat} {found : QcowState}
    (inTable : clustIdx / q.header.blockSize < q.header.rfSize)
    (alloc :
      qcowAllocClusters lib turns update q q.header.clusterSize false =
        some (place * q.header.clusterSize, found))
    (same : SameBlocks q found) (coherentFound : found.Coherent)
    (vacant : Vacant q place) :
    ∃ calls,
      qcowGrowRefcountBlock lib turns update q clustIdx =
        finishGrowth update
          (found.granted.withBlock lib (clustIdx / q.header.blockSize)
            (place * q.header.clusterSize) calls)
          (clustIdx / q.header.blockSize) place
          ⟨place * q.header.clusterSize, found.rfCache.next⟩ := by
  have answered : (found.file.answer != 0) = true := by
    simpa using coherentFound.answered.answer_ne
  have room : found.granted.Room (place * q.header.clusterSize) :=
    vacant.room.congr (same.trans (granted_same found)).header
  have noError : place * q.header.clusterSize ≠ allocError := by
    have addressable := vacant.room.addressable
    rw [offT] at addressable
    rw [allocError]
    omega
  have back :
      (place * q.header.clusterSize) >>> found.header.clusterBits =
        place := by
    rw [same.header, Nat.shiftRight_eq_div_pow, ← clusterSize_eq]
    exact Nat.mul_div_cancel _ (clusterSize_pos _)
  obtain ⟨calls, written⟩ :=
    writeRefcountBlock_zero (granted_coherent coherentFound) room
  refine ⟨calls, ?_⟩
  unfold qcowGrowRefcountBlock
  dsimp only
  rw [getRftIndex_eq coherent.clusterBits,
    if_neg (Nat.not_le.mpr inTable), alloc]
  dsimp only [QcowState.callocs]
  rw [if_neg noError, answered]
  dsimp only
  have written' :
      writeRefcountBlock
          { found with
            file := found.file.skip 1
            rfCache :=
              (found.rfCache.allocate (place * q.header.clusterSize)
                (found.granted.zeroBlock true)).2 }
          (found.rfCache.allocate (place * q.header.clusterSize)
                (found.granted.zeroBlock true)).1 = _ := written
  unfold QcowState.zeroBlock QcowState.granted at written'
  rw [written']
  dsimp only
  rw [back]
  rfl

/-! ## Counting a cluster -/

/-- What counting a cluster whose block is there leaves. -/
structure Counts (q : QcowState) (clustIdx : Nat) (after : QcowState) :
    Prop where
  header : after.header = q.header
  rfTable : after.rfTable = q.rfTable
  coherent : after.Coherent
  refcount :
    after.refcount =
      Function.update q.refcount clustIdx (q.refcount clustIdx + 1)
  freeClustIdx : after.freeClustIdx = q.freeClustIdx
  followed :
    ∀ node later, q.rfCache.Followed node later →
      later + 1 < maxCacheNodes → after.rfCache.Followed node (later + 1)
  shown : q.TableShown → after.TableShown

theorem SameBlocks.shown {after : QcowState} (same : SameBlocks q after)
    (shown : q.TableShown) : after.TableShown := by
  intro position small
  rw [same.header] at small ⊢
  rw [same.rfTable, same.bytes]
  exact shown position small

/-- Counting a cluster leaves the table as it is, in memory and on disk. -/
theorem Counted.shown {clustIdx : Nat} {after : QcowState}
    (counted : Counted q clustIdx after) (shown : q.TableShown) :
    after.TableShown := by
  intro position small
  rw [counted.header] at small ⊢
  rw [counted.rfTable, counted.table position small]
  exact shown position small

/-- A block of the table counts a cluster. -/
theorem updateClusterRefcount_present (turns depth : Nat)
    (coherent : q.Coherent) {clustIdx : Nat}
    (inTable : clustIdx / q.header.blockSize < q.header.rfSize)
    (present : q.rfEntry (clustIdx / q.header.blockSize) ≠ 0)
    (few : q.refcount clustIdx + 1 < 2 ^ 16) :
    ∃ after,
      updateClusterRefcount lib turns (depth + 1) q clustIdx 1 =
          some (true, after) ∧
        Counts q clustIdx after := by
  obtain ⟨rfb, middle, read, fetched⟩ :=
    qcowReadRefcountBlock_present lib coherent inTable present
  have same := fetched.same
  obtain ⟨after, updated, counted⟩ :=
    updateBlock_counted fetched.coherent fetched.member clustIdx
      (by rwa [same.header])
      (by rw [fetched.key, same.header, same.rfEntry])
      (by rwa [same.refcount])
  refine ⟨after, ?_, ?_⟩
  · rw [updateClusterRefcount, read]
    dsimp only
    rw [updated]
  · constructor
    · exact counted.header.trans same.header
    · exact counted.rfTable.trans same.rfTable
    · exact counted.coherent
    · rw [counted.refcount, funext same.refcount]
    · exact counted.freeClustIdx.trans fetched.freeClustIdx
    · intro node later followed few
      obtain ⟨earlier, behind, listed, bound⟩ :=
        fetched.followed node later followed few
      exact ⟨earlier, behind, counted.lru.trans listed, bound⟩
    · intro shown
      exact counted.shown (same.shown shown)

/-- Behind the table, there is no block to make. -/
theorem updateClusterRefcount_beyond (turns depth : Nat)
    (coherent : q.Coherent) {clustIdx : Nat}
    (beyond : q.header.rfSize ≤ clustIdx / q.header.blockSize) :
    updateClusterRefcount lib turns (depth + 1) q clustIdx 1 =
      some (false, q) := by
  rw [updateClusterRefcount,
    qcowReadRefcountBlock_absent lib coherent (Or.inl beyond)]
  dsimp only
  rw [qcowGrowRefcountBlock, getRftIndex_eq coherent.clusterBits]
  dsimp only
  rw [if_pos beyond]

/-! ## Growing the table -/

/-- What a growth leaves: a block at a cluster, counted. -/
structure Growth (q : QcowState) (rftIdx place : Nat) (rfb : Node Nat)
    (after : QcowState) : Prop where
  header : after.header = q.header
  coherent : after.Coherent
  rfEntry :
    after.rfEntry =
      Function.update q.rfEntry rftIdx (place * q.header.clusterSize)
  refcount : after.refcount = Function.update q.refcount place 1
  freeClustIdx : after.freeClustIdx = q.freeClustIdx
  key : rfb.key = place * q.header.clusterSize
  newest : after.rfCache.Followed rfb 1
  followed :
    ∀ node later, q.rfCache.Followed node later →
      later + 2 < maxCacheNodes → after.rfCache.Followed node (later + 2)
  shown : after.TableShown

/-- A new block is in the cache. -/
theorem Growth.member {rftIdx place : Nat} {rfb : Node Nat}
    {after : QcowState} (growth : Growth q rftIdx place rfb after) :
    rfb ∈ after.rfCache.tree.inorder :=
  growth.coherent.cacheSound.listed.mem_iff.mp growth.newest.mem

/-- A block whose own cluster has a block, perhaps itself. -/
theorem finishGrowth_present (turns depth calls : Nat)
    (coherent : q.Coherent) {rftIdx place : Nat}
    (inTable : rftIdx < q.header.rfSize) (absent : q.rfEntry rftIdx = 0)
    (vacant : Vacant q place) (unused : q.refcount place = 0)
    (home : place / q.header.blockSize < q.header.rfSize)
    (present :
      place / q.header.blockSize = rftIdx ∨
        q.rfEntry (place / q.header.blockSize) ≠ 0) :
    ∃ after,
      finishGrowth (updateClusterRefcount lib turns (depth + 1))
          (q.withBlock lib rftIdx (place * q.header.clusterSize) calls)
          rftIdx place ⟨place * q.header.clusterSize, q.rfCache.next⟩ =
        some
          (some ⟨place * q.header.clusterSize, q.rfCache.next⟩, after) ∧
        Growth q rftIdx place
          ⟨place * q.header.clusterSize, q.rfCache.next⟩ after := by
  have linked :=
    withBlock_linked lib coherent vacant.room vacant.fresh calls inTable
      absent vacant.nonzero
  generalize q.withBlock lib rftIdx (place * q.header.clusterSize) calls =
    middle at linked ⊢
  generalize block :
    (⟨place * q.header.clusterSize, q.rfCache.next⟩ : Node Nat) = rfb at *
  have homeNow :
      place / middle.header.blockSize < middle.header.rfSize := by
    rwa [linked.header]
  have presentNow :
      middle.rfEntry (place / middle.header.blockSize) ≠ 0 := by
    rw [linked.header, linked.rfEntry]
    by_cases own : place / q.header.blockSize = rftIdx
    · rw [own, Function.update_self]
      exact vacant.nonzero
    · rw [Function.update_of_ne own]
      exact present.resolve_left own
  obtain ⟨counted, updated, counts⟩ :=
    updateClusterRefcount_present lib turns depth linked.coherent homeNow
      presentNow
      (by
        rw [linked.refcount, unused]
        decide)
  obtain ⟨after, written, wrote⟩ :=
    qcowWriteRefcountTable_written counts.coherent
      (by
        rw [counts.header, linked.header]
        omega)
  refine ⟨after, ?_, ?_⟩
  · rw [finishGrowth, updated]
    dsimp only
    rw [written]
  · have header := wrote.header.trans (counts.header.trans linked.header)
    constructor
    · exact header
    · exact wrote.coherent
    · rw [← linked.rfEntry]
      funext other
      rw [rfEntry_congr wrote.rfTable, rfEntry_congr counts.rfTable]
    · rw [wrote.refcount, counts.refcount, linked.refcount, unused]
    · rw [wrote.freeClustIdx, counts.freeClustIdx, linked.freeClustIdx]
    · exact linked.key
    · rw [wrote.rfCache]
      exact counts.followed _ _ linked.newest (by decide)
    · intro node later followed few
      rw [wrote.rfCache]
      exact
        counts.followed _ _
          (linked.followed node later followed (by omega)) few
    · exact wrote.shown

theorem Vacant.congr {after : QcowState} (same : SameBlocks q after)
    {clustIdx : Nat} (vacant : Vacant q clustIdx) :
    Vacant after clustIdx := by
  obtain ⟨room, nonzero, fresh⟩ := vacant
  refine ⟨?_, by rwa [same.header], ?_⟩
  · rw [same.header]
    exact room.congr same.header
  · intro rftIdx inTable
    rw [same.header] at inTable ⊢
    rw [same.rfEntry]
    exact fresh rftIdx inTable

/-- A growth for whose new cluster there is a block. -/
theorem qcowGrowRefcountBlock_present (turns depth : Nat)
    (coherent : q.Coherent) {clustIdx place : Nat} {found : QcowState}
    (inTable : clustIdx / q.header.blockSize < q.header.rfSize)
    (absent : q.rfEntry (clustIdx / q.header.blockSize) = 0)
    (alloc :
      qcowAllocClusters lib turns
          (updateClusterRefcount lib turns (depth + 1)) q
          q.header.clusterSize false =
        some (place * q.header.clusterSize, found))
    (same : SameBlocks q found) (coherentFound : found.Coherent)
    (vacant : Vacant q place) (unused : q.refcount place = 0)
    (home : place / q.header.blockSize < q.header.rfSize)
    (present :
      place / q.header.blockSize = clustIdx / q.header.blockSize ∨
        q.rfEntry (place / q.header.blockSize) ≠ 0) :
    ∃ rfb after,
      qcowGrowRefcountBlock lib turns
          (updateClusterRefcount lib turns (depth + 1)) q clustIdx =
        some (some rfb, after) ∧
        Growth found.granted (clustIdx / q.header.blockSize) place rfb
          after := by
  obtain ⟨calls, grows⟩ :=
    qcowGrowRefcountBlock_eq lib
      (updateClusterRefcount lib turns (depth + 1)) turns coherent inTable
      alloc same coherentFound vacant
  have sameNow := same.trans (granted_same found)
  obtain ⟨after, finished, growth⟩ :=
    finishGrowth_present lib turns depth calls
      (granted_coherent coherentFound)
      (show clustIdx / q.header.blockSize < found.granted.header.rfSize by
        rwa [sameNow.header])
      (by rwa [sameNow.rfEntry]) (vacant.congr sameNow)
      (by rwa [sameNow.refcount]) (by rwa [sameNow.header])
      (by rwa [sameNow.header, sameNow.rfEntry])
  rw [sameNow.header] at finished growth
  exact ⟨_, after, grows.trans finished, growth⟩

/-- Without a block, the search finds the next cluster unread. -/
theorem qcowAllocClusters_absent (update : Updater) (turns : Nat)
    (coherent : q.Coherent) (small : q.next + 1 < 2 ^ 32)
    (absent :
      q.header.rfSize ≤ q.next / q.header.blockSize ∨
        q.rfEntry (q.next / q.header.blockSize) = 0) :
    qcowAllocClusters lib (turns + 2) update q q.header.clusterSize false =
      some (q.next * q.header.clusterSize, q.advanced) := by
  have unread :
      qcowGetRefcount lib q.advanced q.next = (0, q.advanced) := by
    unfold qcowGetRefcount
    rw [qcowReadRefcountBlock_absent lib (advanced_coherent coherent)
      absent]
  have found :
      findClusters lib (turns + 2) q 1 0 0 =
        some (some (q.next + 1), q.advanced) := by
    rw [findClusters, if_pos Nat.zero_lt_one]
    dsimp only
    rw [← QcowState.advanced, ← QcowState.next, unread]
    dsimp only
    rw [if_neg (by decide), if_neg (by decide), findClusters,
      if_neg (by decide), Nat.mod_eq_of_lt small]
  unfold qcowAllocClusters
  dsimp only
  rw [clustNum_one coherent.clusterBits_le, found]
  have first : (q.next + 1 + 2 ^ 64 - 1) % 2 ^ 64 = q.next := by omega
  dsimp only
  rw [first, if_neg (by decide)]
  have start := start_eq coherent.clusterBits_le (show q.next < 2 ^ 32 by omega)
  rw [← start]
  rfl

/-- What counting a cluster leaves whose block has to be made next to it. -/
structure Nested (q : QcowState) (place : Nat) (after : QcowState) :
    Prop where
  header : after.header = q.header
  coherent : after.Coherent
  rfEntry :
    after.rfEntry =
      Function.update q.rfEntry (place / q.header.blockSize)
        ((place + 1) * q.header.clusterSize)
  refcount :
    after.refcount =
      Function.update (Function.update q.refcount (place + 1) 1) place 1
  next : after.next = place + 2
  followed :
    ∀ node later, q.rfCache.Followed node later →
      later + 2 < maxCacheNodes → after.rfCache.Followed node (later + 2)

/-- A cluster without a block, whose block goes to the cluster behind it. -/
theorem updateClusterRefcount_nested (turns depth : Nat)
    (coherent : q.Coherent) {place : Nat}
    (inTable : place / q.header.blockSize < q.header.rfSize)
    (absent : q.rfEntry (place / q.header.blockSize) = 0)
    (next : q.next = place + 1) (small : place + 2 < 2 ^ 32)
    (sameBlock :
      (place + 1) / q.header.blockSize = place / q.header.blockSize)
    (vacant : Vacant q (place + 1)) :
    ∃ after,
      updateClusterRefcount lib (turns + 2) (depth + 2) q place 1 =
          some (true, after) ∧
        Nested q place after := by
  have alloc :=
    qcowAllocClusters_absent lib
      (updateClusterRefcount lib (turns + 2) (depth + 1)) turns coherent
      (by omega)
      (by
        rw [next, sameBlock]
        exact Or.inr absent)
  rw [next] at alloc
  have unused : q.refcount (place + 1) = 0 :=
    refcount_of_absent (by
      rw [sameBlock]
      exact Or.inr absent)
  obtain ⟨rfb, grown, grows, growth⟩ :=
    qcowGrowRefcountBlock_present lib (turns + 2) depth coherent inTable
      absent alloc (advanced_same q) (advanced_coherent coherent) vacant
      unused (by rwa [sameBlock]) (Or.inl sameBlock)
  have sameNow := (advanced_same q).trans (granted_same q.advanced)
  have header := growth.header.trans sameNow.header
  have rfEntry :
      grown.rfEntry =
        Function.update q.rfEntry (place / q.header.blockSize)
          ((place + 1) * q.header.clusterSize) := by
    rw [growth.rfEntry, sameNow.header, funext sameNow.rfEntry]
  have refcount :
      grown.refcount = Function.update q.refcount (place + 1) 1 := by
    rw [growth.refcount, funext sameNow.refcount]
  have notCounted : grown.refcount place = 0 := by
    rw [refcount, Function.update_of_ne (by omega)]
    exact refcount_of_absent (Or.inr absent)
  obtain ⟨after, updated, counted⟩ :=
    updateBlock_counted growth.coherent growth.member place
      (by rwa [header])
      (by
        rw [growth.key, header, rfEntry, Function.update_self,
          sameNow.header])
      (by
        rw [notCounted]
        decide)
  refine ⟨after, ?_, ?_⟩
  · rw [updateClusterRefcount,
      qcowReadRefcountBlock_absent lib coherent (Or.inr absent)]
    dsimp only
    rw [grows]
    dsimp only
    rw [updated]
  · constructor
    · exact counted.header.trans header
    · exact counted.coherent
    · rw [← rfEntry]
      exact funext (rfEntry_congr counted.rfTable)
    · rw [counted.refcount, notCounted, refcount]
    · have free : grown.next = q.advanced.next := by
        rw [QcowState.next, growth.freeClustIdx]
        rfl
      rw [QcowState.next, counted.freeClustIdx]
      rw [QcowState.next] at free
      rw [free, advanced_next, next, Nat.mod_eq_of_lt (by omega)]
    · intro node later followed few
      obtain ⟨earlier, behind, listed, bound⟩ :=
        growth.followed node later followed few
      exact ⟨earlier, behind, counted.lru.trans listed, bound⟩

/-! ## Growing any table -/

/-- The search has come from `low` through clusters that are in use. -/
structure Scanned (q : QcowState) (low : Nat) : Prop where
  reached : low ≤ q.next
  limit : q.next ≤ max low q.header.counted
  used :
    ∀ clustIdx, low ≤ clustIdx → clustIdx < q.next →
      q.refcount clustIdx ≠ 0

/-- What a growth leaves, wherever it put the blocks from `low` on. -/
structure Grown (q : QcowState) (low rftIdx : Nat) (rfb : Node Nat)
    (after : QcowState) : Prop where
  header : after.header = q.header
  coherent : after.Coherent
  progress :
    Ledger.Progress q.header.rfSize q.header.clusterSize low low low
      q.ledger after.ledger
  key : rfb.key = after.rfEntry rftIdx
  member : rfb ∈ after.rfCache.tree.inorder
  scanned : Scanned after low
  shown : after.TableShown

theorem SameBlocks.ledger {after : QcowState} (same : SameBlocks q after) :
    after.ledger = q.ledger := by
  unfold QcowState.ledger
  rw [funext same.rfEntry, funext same.refcount]

theorem Grown.congr {middle after : QcowState} (same : SameBlocks q middle)
    {low rftIdx : Nat} {rfb : Node Nat}
    (grown : Grown middle low rftIdx rfb after) :
    Grown q low rftIdx rfb after := by
  obtain ⟨header, coherent, progress, key, member, scanned, shown⟩ := grown
  rw [same.header, same.ledger] at progress
  exact ⟨header.trans same.header, coherent, progress, key, member, scanned,
    shown⟩

/-- The clusters of a group of the table. -/
theorem lt_counted_of_group {header : QcowHeader}
    (bits : 2 ≤ header.clusterBits) {clustIdx : Nat} :
    clustIdx / header.blockSize < header.rfSize ↔
      clustIdx < header.counted := by
  have positive : 0 < header.blockSize :=
    lt_of_lt_of_le (by decide) (blockSize_ge bits)
  exact Nat.div_lt_iff_lt_mul positive

section Grown

variable {low rftIdx place : Nat} (inTable : rftIdx < q.header.rfSize)
  (absent : q.rfEntry rftIdx = 0) (vacant : Vacant q place)
  (unused : q.refcount place = 0)
  (home : place / q.header.blockSize < q.header.rfSize)
  (behind : low ≤ place) (next : q.next = place + 1)
  (used :
    ∀ earlier, low ≤ earlier → earlier < place → q.refcount earlier ≠ 0)

include inTable absent vacant unused home behind next used

/-- A growth by one block. -/
theorem Growth.grown {rfb : Node Nat} {after : QcowState}
    (growth : Growth q rftIdx place rfb after) :
    Grown q low rftIdx rfb after := by
  have nextAfter : after.next = place + 1 := by
    rw [QcowState.next, growth.freeClustIdx]
    exact next
  have bits : 2 ≤ q.header.clusterBits := by
    rw [← growth.header]
    exact growth.coherent.clusterBits
  have inside := (lt_counted_of_group bits).mp home
  have ledger :
      after.ledger =
        ⟨Function.update q.ledger.page rftIdx
            (place * q.header.clusterSize),
          Function.update q.ledger.count place 1⟩ := by
    unfold QcowState.ledger
    rw [growth.rfEntry, growth.refcount]
  constructor
  · exact growth.header
  · exact growth.coherent
  · rw [ledger]
    exact Ledger.Progress.page inTable absent vacant.nonzero behind unused
  · rw [growth.key, growth.rfEntry, Function.update_self]
  · exact growth.member
  · constructor
    · omega
    · rw [growth.header, nextAfter]
      omega
    · intro clustIdx reached before
      rw [growth.refcount]
      by_cases itself : clustIdx = place
      · rw [itself, Function.update_self]
        decide
      · rw [Function.update_of_ne itself]
        exact used clustIdx reached (by omega)
  · exact growth.shown

/--
A growth by two blocks: the new block's own cluster had none, and the next
cluster takes it.
-/
theorem finishGrowth_nested (turns depth calls : Nat)
    (coherent : q.Coherent)
    (elsewhere : place / q.header.blockSize ≠ rftIdx)
    (homeAbsent : q.rfEntry (place / q.header.blockSize) = 0)
    (sameBlock :
      (place + 1) / q.header.blockSize = place / q.header.blockSize)
    (small : place + 2 < 2 ^ 32) (vacantNext : Vacant q (place + 1)) :
    ∃ rfb after,
      finishGrowth (updateClusterRefcount lib (turns + 2) (depth + 2))
          (q.withBlock lib rftIdx (place * q.header.clusterSize) calls)
          rftIdx place ⟨place * q.header.clusterSize, q.rfCache.next⟩ =
        some (some rfb, after) ∧
        Grown q low rftIdx rfb after := by
  have positive := clusterSize_pos q.header
  have linked :=
    withBlock_linked lib coherent vacant.room vacant.fresh calls inTable
      absent vacant.nonzero
  generalize q.withBlock lib rftIdx (place * q.header.clusterSize) calls =
    middle at linked ⊢
  generalize block :
    (⟨place * q.header.clusterSize, q.rfCache.next⟩ : Node Nat) = rfb at *
  have nextMiddle : middle.next = place + 1 := by
    rw [QcowState.next, linked.freeClustIdx]
    exact next
  have vacantMiddle : Vacant middle (place + 1) := by
    obtain ⟨room, nonzero, fresh⟩ := vacantNext
    refine ⟨?_, by rwa [linked.header], ?_⟩
    · rw [linked.header]
      exact room.congr linked.header
    · intro other inside
      rw [linked.header] at inside ⊢
      rw [linked.rfEntry]
      by_cases own : other = rftIdx
      · rw [own, Function.update_self]
        intro same
        have equal : place = place + 1 :=
          Nat.eq_of_mul_eq_mul_right positive same
        omega
      · rw [Function.update_of_ne own]
        exact fresh other inside
  obtain ⟨counted, updated, nested⟩ :=
    updateClusterRefcount_nested lib turns depth linked.coherent
      (by rwa [linked.header])
      (by rwa [linked.header, linked.rfEntry, Function.update_of_ne elsewhere])
      nextMiddle small (by rwa [linked.header]) vacantMiddle
  obtain ⟨after, written, wrote⟩ :=
    qcowWriteRefcountTable_written nested.coherent
      (by
        rw [nested.header, linked.header]
        omega)
  have header := wrote.header.trans (nested.header.trans linked.header)
  have rfEntry :
      after.rfEntry =
        Function.update
          (Function.update q.rfEntry rftIdx (place * q.header.clusterSize))
          (place / q.header.blockSize)
          ((place + 1) * q.header.clusterSize) := by
    rw [funext (rfEntry_congr wrote.rfTable), nested.rfEntry, linked.header,
      linked.rfEntry]
  have refcount :
      after.refcount =
        Function.update (Function.update q.refcount place 1) (place + 1)
          1 := by
    rw [wrote.refcount, nested.refcount, linked.refcount]
    exact Function.update_comm (by omega) _ _ _
  have nextAfter : after.next = place + 2 := by
    rw [QcowState.next, wrote.freeClustIdx]
    exact nested.next
  have bits : 2 ≤ q.header.clusterBits := coherent.clusterBits
  have inside : place + 1 < q.header.counted :=
    (lt_counted_of_group bits).mp (by rwa [sameBlock])
  refine ⟨rfb, after, ?_, ?_⟩
  · rw [finishGrowth, updated]
    dsimp only
    rw [written]
  · constructor
    · exact header
    · exact wrote.coherent
    · -- The new block, and then the block that its own cluster needs.
      have first :
          Ledger.Progress q.header.rfSize q.header.clusterSize low low low
            q.ledger
            ⟨Function.update q.rfEntry rftIdx
                (place * q.header.clusterSize),
              Function.update q.refcount place 1⟩ :=
        Ledger.Progress.page inTable absent vacant.nonzero behind unused
      have stillAbsent :
          Function.update q.rfEntry rftIdx (place * q.header.clusterSize)
              (place / q.header.blockSize) =
            0 := by
        rw [Function.update_of_ne elsewhere]
        exact homeAbsent
      have stillUnused :
          Function.update q.refcount place 1 (place + 1) = 0 := by
        rw [Function.update_of_ne (by omega)]
        exact refcount_of_absent (Or.inr (by rwa [sameBlock]))
      have second :
          Ledger.Progress q.header.rfSize q.header.clusterSize low low low
            ⟨Function.update q.rfEntry rftIdx
                (place * q.header.clusterSize),
              Function.update q.refcount place 1⟩
            after.ledger := by
        unfold QcowState.ledger
        rw [rfEntry, refcount]
        exact
          Ledger.Progress.page home stillAbsent vacantNext.nonzero
            (Nat.le_succ_of_le behind) stillUnused
      exact first.trans positive second le_rfl le_rfl le_rfl
    · rw [linked.key, rfEntry, Function.update_of_ne elsewhere.symm,
        Function.update_self]
    · have followed := nested.followed rfb 0 linked.newest (by decide)
      rw [← wrote.rfCache] at followed
      exact wrote.coherent.cacheSound.listed.mem_iff.mp followed.mem
    · constructor
      · omega
      · rw [header, nextAfter]
        omega
      · intro clustIdx reached before
        rw [refcount]
        by_cases second : clustIdx = place + 1
        · rw [second, Function.update_self]
          decide
        rw [Function.update_of_ne second]
        by_cases first : clustIdx = place
        · rw [first, Function.update_self]
          decide
        rw [Function.update_of_ne first]
        exact used clustIdx reached (by omega)
    · exact wrote.shown

end Grown

theorem SameBlocks.accounted {after : QcowState} (same : SameBlocks q after)
    (accounted : q.Accounted) : after.Accounted := by
  obtain ⟨header, table, blocks⟩ := accounted
  refine ⟨?_, ?_, ?_⟩
  · rw [same.refcount]
    exact header
  · intro clustIdx overlaps
    rw [same.header] at overlaps
    rw [same.refcount]
    exact table clustIdx overlaps
  · rw [same.ledger, same.header]
    exact blocks

/-- A cluster near behind another, in a group of its own. -/
theorem next_in_group {size clustIdx low place : Nat} (large : 2 ≤ size)
    (before : clustIdx < low) (near : low < clustIdx + size)
    (elsewhere : place / size ≠ clustIdx / size)
    (first : place = low ∨ size ∣ place) :
    (place + 1) / size = place / size := by
  apply Nat.succ_div_of_not_dvd
  rintro ⟨group, next⟩
  rcases first with rfl | aligned
  · -- The last of its group is not that far behind.
    apply elsewhere
    have positive : 0 < group := by
      rw [Nat.pos_iff_ne_zero]
      rintro rfl
      cases next
    obtain ⟨fewer, rfl⟩ : ∃ fewer, group = fewer + 1 :=
      Nat.exists_eq_add_of_le' positive
    have split : size * (fewer + 1) = fewer * size + size := by
      rw [Nat.mul_comm, Nat.succ_mul]
    have split' : (fewer + 1) * size = fewer * size + size :=
      Nat.succ_mul _ _
    have own : place / size = fewer :=
      Nat.div_eq_of_lt_le (by omega) (by omega)
    have other : clustIdx / size = fewer :=
      Nat.div_eq_of_lt_le (by omega) (by omega)
    rw [own, other]
  · have one : size ∣ 1 :=
      (Nat.dvd_add_right aligned).mp (Dvd.intro group next.symm)
    have small := Nat.le_of_dvd Nat.one_pos one
    omega

/-- A cluster found without a block is the first that could be. -/
theorem first_of_absent {low place : Nat} (behind : low ≤ place)
    (used :
      ∀ earlier, low ≤ earlier → earlier < place →
        q.refcount earlier ≠ 0)
    (absent : q.rfEntry (place / q.header.blockSize) = 0) :
    place = low ∨ q.header.blockSize ∣ place := by
  by_contra neither
  obtain ⟨later, inside⟩ := not_or.mp neither
  obtain ⟨previous, rfl⟩ :=
    Nat.exists_eq_add_of_le' (show 1 ≤ place by omega)
  apply used previous (by omega) (by omega)
  apply refcount_of_absent
  rw [← Nat.succ_div_of_not_dvd inside]
  exact Or.inr absent

/-- A growth that found a cluster, wherever it is. -/
theorem finishGrowth_grown (turns depth calls : Nat)
    (coherent : q.Coherent) (accounted : q.Accounted)
    (clustIdx : Nat) {low place : Nat}
    (inTable : clustIdx / q.header.blockSize < q.header.rfSize)
    (absent : q.rfEntry (clustIdx / q.header.blockSize) = 0)
    (unused : q.refcount place = 0) (before : clustIdx < low)
    (near : low < clustIdx + q.header.blockSize) (behind : low ≤ place)
    (next : q.next = place + 1) (small : place + 2 < 2 ^ 32)
    (used :
      ∀ earlier, low ≤ earlier → earlier < place →
        q.refcount earlier ≠ 0)
    (deep : q.header.rfSize ≤ depth) :
    ∃ result after,
      finishGrowth (updateClusterRefcount lib (turns + 2) depth)
          (q.withBlock lib (clustIdx / q.header.blockSize)
            (place * q.header.clusterSize) calls)
          (clustIdx / q.header.blockSize) place
          ⟨place * q.header.clusterSize, q.rfCache.next⟩ =
        some (result, after) ∧
        ∀ rfb, result = some rfb →
          Grown q low (clustIdx / q.header.blockSize) rfb after := by
  have some : 0 < q.header.rfSize := Nat.zero_lt_of_lt inTable
  have vacant : Vacant q place :=
    vacant_of_unused coherent accounted some unused (by omega)
  obtain ⟨shallower, rfl⟩ : ∃ shallower, depth = shallower + 1 :=
    Nat.exists_eq_add_of_le' (Nat.le_trans some deep)
  by_cases home : place / q.header.blockSize < q.header.rfSize
  · by_cases present :
        place / q.header.blockSize = clustIdx / q.header.blockSize ∨
          q.rfEntry (place / q.header.blockSize) ≠ 0
    · obtain ⟨after, finished, growth⟩ :=
        finishGrowth_present lib (turns + 2) shallower calls coherent
          inTable absent vacant unused home present
      refine ⟨_, after, finished, ?_⟩
      rintro _ ⟨⟩
      exact
        growth.grown inTable absent vacant unused home behind next used
    · obtain ⟨elsewhere, homeAbsent⟩ := not_or.mp present
      have homeAbsent : q.rfEntry (place / q.header.blockSize) = 0 :=
        not_not.mp homeAbsent
      have sameBlock :
          (place + 1) / q.header.blockSize = place / q.header.blockSize :=
        next_in_group (blockSize_ge coherent.clusterBits) before near
          elsewhere (first_of_absent behind used homeAbsent)
      have nextUnused : q.refcount (place + 1) = 0 :=
        refcount_of_absent (Or.inr (by rwa [sameBlock]))
      have two : 1 < q.header.rfSize := by
        rcases Nat.lt_or_gt_of_ne elsewhere with less | less
        · exact lt_of_le_of_lt (Nat.zero_lt_of_lt less) inTable
        · exact lt_of_le_of_lt (Nat.zero_lt_of_lt less) home
      obtain ⟨fewer, rfl⟩ : ∃ fewer, shallower = fewer + 1 :=
        Nat.exists_eq_add_of_le' (by omega)
      obtain ⟨rfb, after, finished, grown⟩ :=
        finishGrowth_nested lib inTable absent vacant unused home behind
          next used turns fewer calls coherent elsewhere homeAbsent
          sameBlock small
          (vacant_of_unused coherent accounted some nextUnused (by omega))
      refine ⟨_, after, finished, ?_⟩
      rintro _ ⟨⟩
      exact grown
  · have linked :=
      withBlock_linked lib coherent vacant.room vacant.fresh calls inTable
        absent vacant.nonzero
    rw [finishGrowth,
      updateClusterRefcount_beyond lib (turns + 2) shallower
        linked.coherent
        (by
          rw [linked.header]
          exact Nat.not_lt.mp home)]
    refine ⟨none, _, rfl, ?_⟩
    rintro _ ⟨⟩

/-- A growth either fails or leaves the new blocks accounted. -/
theorem qcowGrowRefcountBlock_grown (turns depth : Nat)
    (coherent : q.Coherent) (accounted : q.Accounted) {clustIdx low : Nat}
    (inTable : clustIdx / q.header.blockSize < q.header.rfSize)
    (absent : q.rfEntry (clustIdx / q.header.blockSize) = 0)
    (before : clustIdx < low)
    (near : low < clustIdx + q.header.blockSize)
    (scanned : Scanned q low) (small : low + 2 < 2 ^ 32)
    (fits : q.header.counted + 2 < 2 ^ 32) (enough : 2 ^ 32 ≤ turns)
    (deep : q.header.rfSize ≤ depth) :
    ∃ result after,
      qcowGrowRefcountBlock lib turns (updateClusterRefcount lib turns depth)
          q clustIdx =
        some (result, after) ∧
        ∀ rfb, result = some rfb →
          Grown q low (clustIdx / q.header.blockSize) rfb after := by
  have limit := scanned.limit
  obtain ⟨offset, found, alloc, outcome⟩ :=
    qcowAllocClusters_one lib (updateClusterRefcount lib turns depth)
      (q.header.counted - q.next) turns coherent (by omega) (by omega)
      (by omega)
  rcases outcome with rfl | ⟨place, rfl, here⟩
  · refine ⟨none, found, ?_, by rintro _ ⟨⟩⟩
    unfold qcowGrowRefcountBlock
    dsimp only
    rw [getRftIndex_eq coherent.clusterBits,
      if_neg (Nat.not_le.mpr inTable), alloc]
    rfl
  · have reached := here.reached
    have inLimit := here.inLimit
    have low_le := scanned.reached
    have some : 0 < q.header.rfSize := Nat.zero_lt_of_lt inTable
    have vacant : Vacant q place :=
      vacant_of_unused coherent accounted some here.unused (by omega)
    obtain ⟨calls, grows⟩ :=
      qcowGrowRefcountBlock_eq lib (updateClusterRefcount lib turns depth)
        turns coherent inTable alloc here.same here.coherent vacant
    have same := here.same.trans (granted_same found)
    obtain ⟨fewer, rfl⟩ :=
      Nat.exists_eq_add_of_le' (show 2 ≤ turns by omega)
    have used :
        ∀ earlier, low ≤ earlier → earlier < place →
          found.granted.refcount earlier ≠ 0 := by
      intro earlier reachedEarlier beforePlace
      rw [same.refcount]
      by_cases scannedBefore : earlier < q.next
      · exact scanned.used earlier reachedEarlier scannedBefore
      · exact here.first earlier (Nat.not_lt.mp scannedBefore) beforePlace
    obtain ⟨result, after, finished, grown⟩ :=
      finishGrowth_grown lib fewer depth calls
        (granted_coherent here.coherent) (same.accounted accounted) clustIdx
        (by rwa [same.header]) (by rwa [same.header, same.rfEntry])
        (by
          rw [same.refcount]
          exact here.unused)
        before (by rwa [same.header]) (by omega) here.next (by omega) used
        (by rwa [same.header])
    rw [same.header] at finished grown
    refine ⟨result, after, grows.trans finished, ?_⟩
    intro rfb success
    exact (grown rfb success).congr same

end Search

end Kemu.Disk.Qcow
