import Kemu.Disk.Qcow.Refinement
import Kemu.Disk.Qcow.Write

/-!
# What the operations leave alone

No operation on an image changes its version or its header, whatever the
host answers; and a transfer of a cluster moves the bytes up to the end of
the cluster, or it fails.
-/

namespace Kemu.Disk.Qcow

open Kemu.Lib.LruCache
open Kemu.Lib.SearchTree
open Kemu.Util.ReadWrite

/-! ## The header -/

/-- The version and the header of an image do not change. -/
def SameHeader (q after : QcowState) : Prop :=
  after.version = q.version ∧ after.header = q.header

theorem SameHeader.refl (q : QcowState) : SameHeader q q :=
  ⟨rfl, rfl⟩

theorem SameHeader.trans {q middle after : QcowState}
    (first : SameHeader q middle) (second : SameHeader middle after) :
    SameHeader q after :=
  ⟨second.1.trans first.1, second.2.trans first.2⟩

theorem SameHeader.of_eq {Result : Type} {q after : QcowState}
    {outcome : Result × QcowState} {result : Result}
    (same : SameHeader q outcome.2) (ended : outcome = (result, after)) :
    SameHeader q after := by
  rw [ended] at same
  exact same

/-- An operation that may have no result keeps the header. -/
def Keeps {Result : Type} (q : QcowState)
    (outcome : Option (Result × QcowState)) : Prop :=
  ∀ result after, outcome = some (result, after) → SameHeader q after

section Outcomes

variable {Result Other : Type} {q : QcowState}

theorem keeps_none : Keeps q (none : Option (Result × QcowState)) := by
  rintro _ _ ⟨⟩

theorem keeps_some {after : QcowState} (same : SameHeader q after)
    (result : Result) : Keeps q (some (result, after)) := by
  rintro _ _ ⟨⟩
  exact same

theorem Keeps.from {middle : QcowState}
    {outcome : Option (Result × QcowState)} (keeps : Keeps middle outcome)
    (same : SameHeader q middle) : Keeps q outcome :=
  fun result after ended => same.trans (keeps result after ended)

end Outcomes

section Operations

variable (lib : Rebalancer (Node Nat))

theorem callocs_header (q : QcowState) : SameHeader q q.callocs.2 :=
  ⟨rfl, rfl⟩

theorem qcowReadL2Table_header (q : QcowState) (offset : Nat) :
    SameHeader q (qcowReadL2Table lib q offset).2 := by
  unfold qcowReadL2Table l2TableSearch
  cases q.l2Cache.lookup offset with
  | some l2t => exact ⟨rfl, rfl⟩
  | none =>
      dsimp only [QcowState.callocs]
      cases q.file.answer != 0 with
      | false => exact ⟨rfl, rfl⟩
      | true =>
          dsimp only
          split <;> exact ⟨rfl, rfl⟩

theorem qcowL2CacheWrite_header (q : QcowState) (c : Node Nat) :
    SameHeader q (qcowL2CacheWrite q c).2 := by
  unfold qcowL2CacheWrite
  split
  · split <;> exact ⟨rfl, rfl⟩
  · exact ⟨rfl, rfl⟩

theorem writeRefcountBlock_header (q : QcowState) (rfb : Node Nat) :
    SameHeader q (writeRefcountBlock q rfb).2 := by
  unfold writeRefcountBlock
  dsimp only
  split
  · split <;> exact ⟨rfl, rfl⟩
  · exact ⟨rfl, rfl⟩

theorem qcowReadRefcountBlock_header (q : QcowState) (clustIdx : Nat) :
    SameHeader q (qcowReadRefcountBlock lib q clustIdx).2 := by
  unfold qcowReadRefcountBlock
  dsimp only [QcowState.callocs]
  split
  · exact ⟨rfl, rfl⟩
  split
  · exact ⟨rfl, rfl⟩
  split
  · exact ⟨rfl, rfl⟩
  cases q.file.answer != 0 with
  | false => exact ⟨rfl, rfl⟩
  | true =>
      dsimp only
      split <;> exact ⟨rfl, rfl⟩

theorem qcowGetRefcount_header (q : QcowState) (clustIdx : Nat) :
    SameHeader q (qcowGetRefcount lib q clustIdx).2 := by
  have same := qcowReadRefcountBlock_header lib q clustIdx
  unfold qcowGetRefcount
  generalize qcowReadRefcountBlock lib q clustIdx = read at same ⊢
  obtain ⟨result, after⟩ := read
  cases result with
  | noSpace => exact same
  | failed => exact same
  | found rfb =>
      dsimp only
      split <;> exact same

theorem updateBlock_header (q : QcowState) (rfb : Node Nat)
    (clustIdx append : Nat) :
    SameHeader q (updateBlock q rfb clustIdx append).2 := by
  unfold updateBlock
  dsimp only
  split
  · exact ⟨rfl, rfl⟩
  · split
    next after written =>
      have same := (writeRefcountBlock_header _ rfb).of_eq written
      exact ⟨same.1, same.2⟩
    next after written =>
      have same := (writeRefcountBlock_header _ rfb).of_eq written
      split <;> exact ⟨same.1, same.2⟩

/-! ## Allocation -/

theorem findClusters_keeps (turns : Nat) (q : QcowState)
    (clustNum i clustIdx : Nat) :
    Keeps q (findClusters lib turns q clustNum i clustIdx) := by
  induction turns generalizing q i clustIdx with
  | zero => exact keeps_none
  | succ turns induction =>
      rw [findClusters]
      split
      · dsimp only
        have same :=
          qcowGetRefcount_header lib
            { q with freeClustIdx := (q.freeClustIdx + 1) % 2 ^ 64 }
            (q.freeClustIdx % 2 ^ 32)
        split
        · exact keeps_some ⟨same.1, same.2⟩ _
        split
        · exact (induction _ _ _).from ⟨same.1, same.2⟩
        · exact (induction _ _ _).from ⟨same.1, same.2⟩
      · exact keeps_some (SameHeader.refl q) _

/-- A function that adds to a refcount keeps the header. -/
def Updater.Keeps (update : Updater) : Prop :=
  ∀ q clustIdx append, Qcow.Keeps q (update q clustIdx append)

variable {update : Updater}

theorem takeClusters_keeps (keeps : update.Keeps) (remaining : Nat)
    (q : QcowState) (clustIdx : Nat) :
    Keeps q (takeClusters update remaining q clustIdx) := by
  induction remaining generalizing q clustIdx with
  | zero => exact keeps_some (SameHeader.refl q) _
  | succ remaining induction =>
      have updated := keeps q clustIdx 1
      rw [takeClusters]
      split
      · exact keeps_none
      next after update => exact keeps_some (updated _ _ update) _
      next after update => exact (induction _ _).from (updated _ _ update)

theorem qcowAllocClusters_keeps (keeps : update.Keeps) (turns : Nat)
    (q : QcowState) (size : Nat) (updateRef : Bool) :
    Keeps q (qcowAllocClusters lib turns update q size updateRef) := by
  unfold qcowAllocClusters
  dsimp only
  have found := findClusters_keeps lib turns q
  split
  · exact keeps_none
  next after search => exact keeps_some (found _ _ _ _ _ search) _
  next clustIdx after search =>
    have same := found _ _ _ _ _ search
    split
    · have taken := takeClusters_keeps keeps
      split
      · exact keeps_none
      next last take => exact keeps_some (same.trans (taken _ _ _ _ _ take)) _
      next last take => exact keeps_some (same.trans (taken _ _ _ _ _ take)) _
    · exact keeps_some same _

theorem qcowWriteRefcountTable_header (q : QcowState) :
    SameHeader q (qcowWriteRefcountTable q).2 :=
  ⟨rfl, rfl⟩

theorem qcowWriteL1Table_header (q : QcowState) :
    SameHeader q (qcowWriteL1Table q).2 :=
  ⟨rfl, rfl⟩

theorem qcowGrowRefcountBlock_keeps (keeps : update.Keeps) (turns : Nat)
    (q : QcowState) (clustIdx : Nat) :
    Keeps q (qcowGrowRefcountBlock lib turns update q clustIdx) := by
  unfold qcowGrowRefcountBlock
  dsimp only
  split
  · exact keeps_some (SameHeader.refl q) _
  split
  · exact keeps_none
  next newBlockOffset found alloc =>
    have same := qcowAllocClusters_keeps lib keeps turns q _ _ _ _ alloc
    split
    · exact keeps_some same _
    split
    next after memory =>
      exact keeps_some
        (same.trans ((callocs_header found).of_eq memory)) _
    next granted memory =>
      have sameMemory := same.trans ((callocs_header found).of_eq memory)
      split
      next after written =>
        have sameWritten :=
          (writeRefcountBlock_header _ _).of_eq written
        have sameAfter : SameHeader q after :=
          sameMemory.trans ⟨sameWritten.1, sameWritten.2⟩
        refine keeps_some ?_ _
        exact ⟨sameAfter.1, sameAfter.2⟩
      next linked written =>
        have sameWritten :=
          (writeRefcountBlock_header _ _).of_eq written
        have sameLinked : SameHeader q linked :=
          sameMemory.trans ⟨sameWritten.1, sameWritten.2⟩
        split
        · exact keeps_none
        next after counted =>
          have sameCounted := keeps _ _ _ _ _ counted
          have sameAfter : SameHeader q after :=
            sameLinked.trans ⟨sameCounted.1, sameCounted.2⟩
          refine keeps_some ?_ _
          exact ⟨sameAfter.1, sameAfter.2⟩
        next after counted =>
          have sameCounted := keeps _ _ _ _ _ counted
          have sameAfter : SameHeader q after :=
            sameLinked.trans ⟨sameCounted.1, sameCounted.2⟩
          split
          next last table =>
            have sameLast :=
              sameAfter.trans
                ((qcowWriteRefcountTable_header after).of_eq table)
            refine keeps_some ?_ _
            exact ⟨sameLast.1, sameLast.2⟩
          next last table =>
            exact keeps_some
              (sameAfter.trans
                ((qcowWriteRefcountTable_header after).of_eq table)) _

theorem updateClusterRefcount_keeps (turns depth : Nat) :
    Updater.Keeps (updateClusterRefcount lib turns depth) := by
  induction depth with
  | zero => exact fun _ _ _ => keeps_none
  | succ depth induction =>
      intro q clustIdx append
      rw [updateClusterRefcount]
      split
      next after read =>
        exact keeps_some
          ((qcowReadRefcountBlock_header lib q clustIdx).of_eq read) _
      next rfb after read =>
        have same :=
          (qcowReadRefcountBlock_header lib q clustIdx).of_eq read
        exact keeps_some
          (same.trans (updateBlock_header after rfb clustIdx append)) _
      next after read =>
        have same :=
          (qcowReadRefcountBlock_header lib q clustIdx).of_eq read
        split
        · exact keeps_none
        next grown grow =>
          exact keeps_some
            (same.trans
              (qcowGrowRefcountBlock_keeps lib induction turns _ _ _ _
                grow)) _
        next rfb grown grow =>
          have sameGrown :=
            same.trans
              (qcowGrowRefcountBlock_keeps lib induction turns _ _ _ _ grow)
          exact keeps_some
            (sameGrown.trans (updateBlock_header grown rfb clustIdx append))
            _

variable (turns : Nat)

theorem freeLoop_header (rest : Nat) {q after : QcowState}
    {offset last : Nat}
    (freed : freeLoop lib turns rest q offset last = some after) :
    SameHeader q after := by
  induction rest generalizing q offset with
  | zero => cases freed
  | succ rest induction =>
      rw [freeLoop] at freed
      split at freed
      · split at freed
        next => cases freed
        next result middle updated =>
          have same :=
            updateClusterRefcount_keeps lib turns _ _ _ _ _ _ updated
          exact same.trans (induction freed)
      · cases freed
        exact SameHeader.refl _

theorem qcowFreeClusters_header {q after : QcowState}
    {clustStart size : Nat}
    (freed : qcowFreeClusters lib turns q clustStart size = some after) :
    SameHeader q after :=
  freeLoop_header lib turns _ freed

theorem failFreeing_keeps {Result : Type} (q : QcowState)
    (clustNewStart : Nat) :
    Keeps q
      (failFreeing lib turns q clustNewStart :
        Option (Option Result × QcowState)) := by
  unfold failFreeing
  split
  · exact keeps_none
  next after freed =>
    exact keeps_some (qcowFreeClusters_header lib turns freed) _

/-! ## Tables and clusters -/

theorem getClusterTable_keeps (q : QcowState) (offset : Nat) :
    Keeps q (getClusterTable lib turns q offset) := by
  unfold getClusterTable
  dsimp only
  split
  · exact keeps_some (SameHeader.refl q) _
  split
  · exact keeps_some (SameHeader.refl q) _
  split
  · split
    next after read =>
      exact keeps_some
        ((qcowReadL2Table_header lib q _).of_eq read) _
    next l2t after read =>
      exact keeps_some
        ((qcowReadL2Table_header lib q _).of_eq read) _
  split
  · exact keeps_none
  next l2tNewOffset found alloc =>
    have same :=
      qcowAllocClusters_keeps lib
        (updateClusterRefcount_keeps lib turns _) turns q _ _ _ _ alloc
    split
    · exact keeps_some same _
    split
    next after memory =>
      exact (failFreeing_keeps lib turns _ _).from
        (same.trans ((callocs_header found).of_eq memory))
    next granted memory =>
      have sameMemory := same.trans ((callocs_header found).of_eq memory)
      generalize chosen :
        (if be64 q.l1Table (getL1Index q.header offset * 8) ≠ 0 then _
          else _ : Option (Node Nat) × QcowState) = table
      have sameTable : SameHeader q table.2 := by
        rw [← chosen]
        split
        · refine SameHeader.trans ?_ (qcowReadL2Table_header lib _ _)
          exact ⟨sameMemory.1, sameMemory.2⟩
        · exact ⟨sameMemory.1, sameMemory.2⟩
      clear chosen
      obtain ⟨l2t, tabled⟩ := table
      cases l2t with
      | none => exact (failFreeing_keeps lib turns _ _).from sameTable
      | some l2t =>
          dsimp only
          split
          next after written =>
            refine Keeps.from (failFreeing_keeps lib turns _ _) ?_
            have sameWritten := (qcowL2CacheWrite_header _ _).of_eq written
            have sameAfter : SameHeader q after :=
              sameTable.trans ⟨sameWritten.1, sameWritten.2⟩
            exact ⟨sameAfter.1, sameAfter.2⟩
          next cached written =>
            have sameWritten := (qcowL2CacheWrite_header _ _).of_eq written
            have sameCached : SameHeader q cached :=
              sameTable.trans ⟨sameWritten.1, sameWritten.2⟩
            split
            next after linked =>
              refine Keeps.from (failFreeing_keeps lib turns _ _) ?_
              have sameLinked := (qcowWriteL1Table_header _).of_eq linked
              have sameAfter : SameHeader q after :=
                sameCached.trans ⟨sameLinked.1, sameLinked.2⟩
              exact ⟨sameAfter.1, sameAfter.2⟩
            next after linked =>
              have sameLinked := (qcowWriteL1Table_header _).of_eq linked
              have sameAfter : SameHeader q after :=
                sameCached.trans ⟨sameLinked.1, sameLinked.2⟩
              split
              · exact keeps_none
              next last freed =>
                exact keeps_some
                  (sameAfter.trans
                    (qcowFreeClusters_header lib turns freed)) _

/-- The table of an offset is in reach of the L1 table. -/
theorem getClusterTable_inTable {q after : QcowState} {offset : Nat}
    {found : Node Nat × Nat}
    (read : getClusterTable lib turns q offset = some (some found, after)) :
    getL1Index q.header offset < q.header.l1Size := by
  by_contra outside
  rw [getClusterTable, if_pos (Nat.not_lt.mp outside)] at read
  cases read

end Operations

/-! ## Transfers of a cluster -/

/-- A cluster read moves a number of bytes, or it fails. -/
structure Moves (q : QcowState) (length : Nat)
    (outcome : Option Nat × Buffer × QcowState) : Prop where
  header : SameHeader q outcome.2.2
  result : outcome.1 = none ∨ outcome.1 = some length

section Transfers

variable (lib : Rebalancer (Node Nat)) (inflate : Inflate)

theorem Moves.from {q middle : QcowState} {length : Nat}
    {outcome : Option Nat × Buffer × QcowState}
    (moves : Moves middle length outcome) (same : SameHeader q middle) :
    Moves q length outcome :=
  ⟨same.trans moves.header, moves.result⟩

theorem readCompressed_moves (format : ClusterFormat) (q : QcowState)
    (entry clustOffset length : Nat) (mem : Buffer) (dst : Nat) :
    Moves q length
      (readCompressed inflate format q entry clustOffset length mem dst) := by
  rw [readCompressed]
  generalize format.extent q.header entry = extent
  obtain ⟨offset, count, skip, csize⟩ := extent
  dsimp only
  split
  next => exact ⟨⟨rfl, rfl⟩, Or.inl rfl⟩
  next =>
    split
    next => exact ⟨⟨rfl, rfl⟩, Or.inl rfl⟩
    next => exact ⟨⟨rfl, rfl⟩, Or.inr rfl⟩

theorem readCluster_moves (format : ClusterFormat) (q : QcowState)
    (offset : Nat) (mem : Buffer) (dst dstLen : Nat) :
    Moves q (clusterRest q.header offset dstLen)
      (readCluster lib inflate format q offset mem dst dstLen) := by
  have rest :
      min (q.header.clusterSize - getClusterOffset q.header offset) dstLen =
        clusterRest q.header offset dstLen := by
    rw [getClusterOffset_eq, clusterRest]
  have failed (mem : Buffer) {after : QcowState}
      (same : SameHeader q after) (length : Nat) :
      Moves q length (none, mem, after) :=
    ⟨same, Or.inl rfl⟩
  have moved (mem : Buffer) {after : QcowState}
      (same : SameHeader q after) (length : Nat) :
      Moves q length (some length, mem, after) :=
    ⟨same, Or.inr rfl⟩
  unfold readCluster
  dsimp only
  rw [rest]
  generalize clusterRest q.header offset dstLen = length
  -- The index and the offset in the cluster are checked first.
  split
  next => exact failed _ ⟨rfl, rfl⟩ _
  split
  next => exact failed _ ⟨rfl, rfl⟩ _
  split
  next => exact moved _ ⟨rfl, rfl⟩ _
  have sameTable :=
    qcowReadL2Table_header lib q
      (format.l2tOffset (be64 q.l1Table (getL1Index q.header offset * 8)))
  split
  next found after read =>
    rw [read] at sameTable
    exact failed _ sameTable _
  next l2t after read =>
    rw [read] at sameTable
    split
    next => exact failed _ sameTable _
    split
    next => exact (readCompressed_moves inflate _ _ _ _ _ _ _).from sameTable
    split
    next => exact moved _ sameTable _
    split
    next => exact ⟨⟨sameTable.1, sameTable.2⟩, Or.inl rfl⟩
    next => exact ⟨⟨sameTable.1, sameTable.2⟩, Or.inr rfl⟩

theorem readVersionCluster_moves (q : QcowState) (offset : Nat)
    (mem : Buffer) (dst dstLen : Nat) :
    Moves q (clusterRest q.header offset dstLen)
      (readVersionCluster lib inflate q offset mem dst dstLen) := by
  rw [readVersionCluster]
  cases q.version <;> exact readCluster_moves lib inflate _ q offset mem dst _

/-- A cluster is read only in reach of the L1 table. -/
theorem readVersionCluster_inTable {q after : QcowState}
    {offset dst dstLen nr : Nat} {mem memAfter : Buffer}
    (read :
      readVersionCluster lib inflate q offset mem dst dstLen =
        (some nr, memAfter, after)) :
    getL1Index q.header offset < q.header.l1Size := by
  by_contra outside
  rw [readVersionCluster] at read
  cases version : q.version <;> rw [version] at read <;>
    simp only [qcow1ReadCluster, qcow2ReadCluster, readCluster,
      if_pos (Nat.not_lt.mp outside)] at read <;>
    cases read

variable (turns : Nat)

/-- Nothing is written at the offset for an allocation error. -/
theorem pwriteInFull_allocError (file : HostFile) (source : Buffer)
    (src : Nat) {count : Nat} (some : count ≠ 0) :
    (pwriteInFull file source src count allocError).1 = false := by
  obtain ⟨fewer, rfl⟩ := Nat.exists_eq_succ_of_ne_zero some
  have nowhere : xpwrite file (fewer + 1) allocError = 0 :=
    if_pos (by decide)
  rw [pwriteInFull, pwriteLoop, if_neg some]
  dsimp only
  rw [nowhere, if_pos rfl]

theorem failFreeing_fails {Result : Type} {q after : QcowState}
    {clustNewStart : Nat} (result : Result) :
    failFreeing lib turns q clustNewStart ≠ some (some result, after) := by
  unfold failFreeing
  split <;> rintro ⟨⟩

/--
A cluster that is not copied is not written: the branch for a new cluster
is only taken when there is none.
-/
theorem writeNewCluster_fails {q after : QcowState} {l2t : Node Nat}
    {l2tIdx entry offset buf len nr : Nat} {mem : Buffer} :
    writeNewCluster lib turns inflate q l2t l2tIdx entry offset mem buf
        len ≠
      some (some nr, after) := by
  unfold writeNewCluster
  dsimp only
  split
  next => rintro ⟨⟩
  next clustNewStart found alloc =>
    split
    next => rintro ⟨⟩
    next noCluster =>
      split
      next => exact failFreeing_fails lib turns nr
      next filled _ =>
        have nothing :=
          pwriteInFull_allocError filled.file
            (store filled.copyBuff (getClusterOffset filled.header offset)
              len mem buf) 0 (clusterSize_pos filled.header).ne'
        rw [not_not.mp noCluster]
        split
        next => exact failFreeing_fails lib turns nr
        next written =>
          rw [written] at nothing
          cases nothing

/-- A cluster write that succeeds moves the bytes up to its end. -/
theorem qcowWriteCluster_moves {q after : QcowState}
    {offset buf srcLen nr : Nat} {mem : Buffer}
    (wrote :
      qcowWriteCluster lib turns inflate q offset mem buf srcLen =
        some (some nr, after)) :
    SameHeader q after ∧ nr = clusterRest q.header offset srcLen ∧
      getL1Index q.header offset < q.header.l1Size := by
  rw [qcowWriteCluster, getClusterOffset_eq] at wrote
  dsimp only at wrote
  rw [← clusterRest] at wrote
  split at wrote
  next => cases wrote
  next =>
    split at wrote
    next => cases wrote
    next => cases wrote
    next found table =>
      have same := getClusterTable_keeps lib turns q offset _ _ table
      have inTable := getClusterTable_inTable lib turns table
      split at wrote
      next => exact absurd wrote (writeNewCluster_fails lib inflate turns)
      next =>
        split at wrote
        next => cases wrote
        next =>
          cases wrote
          exact ⟨⟨same.1, same.2⟩, rfl, inTable⟩

end Transfers

end Kemu.Disk.Qcow
