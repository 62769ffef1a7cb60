import Kemu.Disk.Qcow.Exactness

/-!
# The cache of L2 tables

Sequences of `qcow_read_l2_table` on an image that is only read.  The tree,
the list and the counter stay in step whatever the host does.  Whether the
tables are those of the file depends on the host: `pread_in_full` reports a
read that was cut short as a success.
-/

namespace Kemu.Disk.Qcow

open Kemu.Lib.LruCache
open Kemu.Lib.LruCache.Cache
open Kemu.Lib.SearchTree
open Kemu.Lib.Transition
open Kemu.Util.ReadWrite

/-! ## One call -/

/-- The bytes that the host delivers from an offset on until it fails. -/
def delivered (file : HostFile) (count offset : Nat) : Nat :=
  (preadLoop count file count offset 0).1

theorem preadInFull_delivered (file : HostFile) (buffer : Buffer)
    (dst count offset : Nat) :
    ∃ calls,
      preadInFull file buffer dst count offset =
        (if delivered file count offset = 0 ∧ count ≠ 0 then none
          else some (delivered file count offset),
          store buffer dst (delivered file count offset) file.bytes offset,
          file.skip calls) := by
  obtain ⟨moved, calls, same, -⟩ :=
    preadLoop_spec count file count offset 0
  refine ⟨calls, ?_⟩
  rw [preadInFull, delivered, same]

/-- The length of an L2 table in bytes. -/
def tableBytes (q : QcowState) : Nat :=
  q.header.l2Size * 8

/-- What a table that is not cached would be read as. -/
def arriving (q : QcowState) (offset : Nat) : Nat :=
  delivered (q.file.skip 1) (tableBytes q) offset

/-- The table that a read of some bytes leaves in fresh memory. -/
def readTableOf (q : QcowState) (offset moved : Nat) : QcowL2Table :=
  ⟨false, store (fun _ => 0) 0 moved q.file.bytes offset⟩

section Calls

variable (lib : Rebalancer (Node Nat))

/-- A table is found, or missing and not to be had, or read and added. -/
inductive L2Outcome (q : QcowState) (offset : Nat) :
    Option (Node Nat) × QcowState → Prop where
  | hit {l2t : Node Nat}
      (found : q.l2Cache.lookup offset = some l2t) :
      L2Outcome q offset
        (some l2t, { q with l2Cache := q.l2Cache.touch l2t })
  | failed (calls : Nat)
      (missing : q.l2Cache.lookup offset = none)
      (nothing : q.file.answer = 0 ∨ arriving q offset = 0) :
      L2Outcome q offset (none, { q with file := q.file.skip calls })
  | added (calls : Nat)
      (missing : q.l2Cache.lookup offset = none)
      (granted : q.file.answer ≠ 0)
      (some : arriving q offset ≠ 0) :
      L2Outcome q offset
        (.some
            (q.l2Cache.add lib maxCacheNodes offset
              (readTableOf q offset (arriving q offset))).1,
          { q with
            l2Cache :=
              (q.l2Cache.add lib maxCacheNodes offset
                (readTableOf q offset (arriving q offset))).2
            file := q.file.skip calls })

theorem qcowReadL2Table_outcome (q : QcowState) (offset : Nat) :
    L2Outcome lib q offset (qcowReadL2Table lib q offset) := by
  unfold qcowReadL2Table l2TableSearch
  cases found : q.l2Cache.lookup offset with
  | some l2t => exact L2Outcome.hit found
  | none =>
      dsimp only [QcowState.callocs]
      cases granted : q.file.answer != 0 with
      | false =>
          exact L2Outcome.failed 1 found (Or.inl (by simpa using granted))
      | true =>
          obtain ⟨calls, read⟩ :=
            preadInFull_delivered (q.file.skip 1) (fun _ => 0) 0
              (q.header.l2Size * 8) offset
          have positive : q.header.l2Size * 8 ≠ 0 := by
            have entries := l2Size_pos q.header
            omega
          dsimp only
          rw [read, HostFile.skip_skip]
          by_cases nothing : arriving q offset = 0
          · rw [if_pos ⟨nothing, positive⟩]
            exact L2Outcome.failed (calls + 1) found (Or.inr nothing)
          · rw [if_neg fun both => nothing both.1]
            exact
              L2Outcome.added (calls + 1) found (by simpa using granted)
                nothing

/-! ## Sequences of calls -/

/-- An image, and the offsets of the tables handed out since it was opened. -/
structure CacheHistory where
  q : QcowState
  used : List Nat

/-- The state after a call of `qcow_read_l2_table`. -/
def l2Step (state : CacheHistory) (offset : Nat) : CacheHistory :=
  let (l2t, q) := qcowReadL2Table lib state.q offset
  ⟨q, if l2t.isSome then state.used ++ [offset] else state.used⟩

/--
The tree, the list and the counter are in step: not too many tables, with
different offsets, in the order of their last use.
-/
structure CacheInStep (state : CacheHistory) : Prop where
  bounded : state.q.l2Cache.nrCached ≤ maxCacheNodes
  counted : state.q.l2Cache.nrCached = state.q.l2Cache.lru.length
  listed : state.q.l2Cache.lru.Perm state.q.l2Cache.tree.inorder
  distinct : (state.q.l2Cache.lru.map Node.key).Nodup
  intact : state.q.l2Cache.damaged = false
  recent : Recent state.used state.q.l2Cache

/-- A table in memory is the one of the file. -/
def IsOnDisk (q : QcowState) (l2t : Node Nat) (offset : Nat) : Prop :=
  ∀ position < tableBytes q,
    q.tableOf l2t position = q.file.bytes (offset + position)

/-- Every cached table is the one of the file at its offset. -/
def CacheOnDisk (state : CacheHistory) : Prop :=
  ∀ l2t ∈ state.q.l2Cache.lru, IsOnDisk state.q l2t l2t.key

/--
The call returns the table of the file, if it returns one, and the node that
it evicts, if it evicts one, is the least recently used.
-/
structure CallTransparent (state : CacheHistory) (offset : Nat) : Prop where
  returned : ∀ l2t, (qcowReadL2Table lib state.q offset).1 = some l2t →
    IsOnDisk (qcowReadL2Table lib state.q offset).2 l2t offset
  evicted : ∀ old ∈ state.q.l2Cache.lru,
    old ∉ (qcowReadL2Table lib state.q offset).2.l2Cache.lru →
      LeastRecent state.used state.q.l2Cache old

/--
What the host leaves out of a table that it begins to deliver is zero, as
behind the end of the file.
-/
def TableComplete (state : CacheHistory) (offset : Nat) : Prop :=
  state.q.l2Cache.lookup offset = none →
    state.q.file.answer ≠ 0 →
      arriving state.q offset ≠ 0 →
        ∀ position < tableBytes state.q,
          arriving state.q offset ≤ position →
            state.q.file.bytes (offset + position) = 0

/-! ## The invariant -/

/-- The invariant: the links are sound, and each node has a table. -/
structure CacheLinked (state : CacheHistory) : Prop where
  sound : Sound maxCacheNodes state.q.l2Cache
  stored : Holds (fun _ _ => True) state.q.l2Cache
  recent : Recent state.used state.q.l2Cache

theorem CacheLinked.inStep {state : CacheHistory}
    (linked : CacheLinked state) : CacheInStep state where
  bounded := linked.sound.bounded
  counted := linked.sound.counted
  listed := linked.sound.listed
  distinct := linked.sound.keys_nodup
  intact := linked.sound.intact
  recent := linked.recent

/-- A table with the bytes of the file. -/
def ShowsBytes (q : QcowState) (offset : Nat) (l2t : QcowL2Table) : Prop :=
  ∀ position < tableBytes q,
    l2t.table position = q.file.bytes (offset + position)

theorem isOnDisk_iff {q : QcowState} {l2t : Node Nat} {payload : QcowL2Table}
    (stored : q.l2Cache.heap l2t.obj = some payload) (offset : Nat) :
    IsOnDisk q l2t offset ↔ ShowsBytes q offset payload := by
  unfold IsOnDisk QcowState.tableOf
  rw [stored]
  rfl

theorem CacheLinked.cacheOnDisk_iff {state : CacheHistory}
    (linked : CacheLinked state) :
    CacheOnDisk state ↔ Holds (ShowsBytes state.q) state.q.l2Cache := by
  constructor
  · intro onDisk node member
    obtain ⟨payload, stored, -⟩ := linked.stored node member
    refine ⟨payload, stored, (isOnDisk_iff stored _).mp ?_⟩
    exact onDisk node (linked.sound.listed.mem_iff.mpr member)
  · intro holds node member
    obtain ⟨payload, stored, shown⟩ :=
      holds node (linked.sound.listed.mem_iff.mp member)
    exact (isOnDisk_iff stored _).mpr shown

/-- What an opened image starts with. -/
theorem cacheLinked_empty {q : QcowState}
    (fresh : q.l2Cache = Cache.empty) : CacheLinked ⟨q, []⟩ := by
  constructor <;> dsimp only <;> rw [fresh]
  · exact empty_sound _
  · exact empty_holds _
  · exact empty_recent

/-! ## One step -/

/-- A table that was read is that of the file, but for what is missing. -/
theorem showsBytes_readTableOf_iff (q : QcowState) (offset moved : Nat) :
    ShowsBytes q offset (readTableOf q offset moved) ↔
      ∀ position < tableBytes q, moved ≤ position →
        q.file.bytes (offset + position) = 0 := by
  unfold ShowsBytes readTableOf
  dsimp only
  constructor
  · intro shown position inside behind
    rw [← shown position inside, store_of_not_mem (by omega)]
  · intro zeros position inside
    by_cases arrived : position < moved
    · rw [store_of_mem (by omega), Nat.sub_zero]
    · rw [store_of_not_mem (by omega),
        zeros position inside (Nat.not_lt.mp arrived)]

section Outcome

variable {state : CacheHistory} {offset : Nat}
  {result : Option (Node Nat) × QcowState}

/-- The history after a call with a result. -/
def CacheHistory.after (state : CacheHistory) (offset : Nat)
    (result : Option (Node Nat) × QcowState) : CacheHistory :=
  ⟨result.2, if result.1.isSome then state.used ++ [offset] else state.used⟩

theorem CacheLinked.lookup_lru (linked : CacheLinked state)
    {l2t : Node Nat} (found : state.q.l2Cache.lookup offset = some l2t) :
    l2t ∈ state.q.l2Cache.lru ∧ l2t.key = offset := by
  obtain ⟨member, key⟩ := linked.sound.lookup_some found
  exact ⟨linked.sound.listed.mem_iff.mpr member, key⟩

theorem CacheLinked.newKey (linked : CacheLinked state)
    (missing : state.q.l2Cache.lookup offset = none) :
    ∀ other ∈ state.q.l2Cache.lru, other.key ≠ offset :=
  fun other member =>
    linked.sound.lookup_none missing other
      (linked.sound.listed.mem_iff.mp member)

/-- The links stay sound, whatever the host does. -/
theorem L2Outcome.linked (outcome : L2Outcome lib state.q offset result)
    (linked : CacheLinked state) :
    CacheLinked (state.after offset result) := by
  cases outcome with
  | hit found =>
      obtain ⟨inList, key⟩ := linked.lookup_lru found
      have member := linked.sound.listed.mem_iff.mp inList
      refine ⟨linked.sound.touch member, linked.stored.touch _, ?_⟩
      have recent := linked.recent.touch linked.sound inList
      rw [key] at recent
      exact recent
  | failed calls missing nothing =>
      exact ⟨linked.sound, linked.stored, linked.recent⟩
  | added calls missing granted some =>
      obtain ⟨sound, -, -, holds⟩ :=
        linked.sound.add lib (by decide)
          (linked.sound.lookup_none missing)
          (readTableOf state.q offset (arriving state.q offset))
      refine ⟨sound, holds _ linked.stored trivial, ?_⟩
      exact linked.recent.add lib (linked.newKey missing) _

/-- The tables stay those of the file if a table that is added is one. -/
theorem L2Outcome.onDisk_iff
    (outcome : L2Outcome lib state.q offset result)
    (linked : CacheLinked state) (onDisk : CacheOnDisk state) :
    CacheOnDisk (state.after offset result) ↔
      TableComplete state offset := by
  have linkedAfter := outcome.linked lib linked
  rw [linkedAfter.cacheOnDisk_iff]
  rw [linked.cacheOnDisk_iff] at onDisk
  cases outcome with
  | hit found =>
      refine iff_of_true onDisk fun missing => ?_
      rw [found] at missing
      cases missing
  | failed calls missing nothing =>
      refine iff_of_true onDisk fun _ granted some => ?_
      exact absurd nothing (not_or.mpr ⟨granted, some⟩)
  | added calls missing granted some =>
      obtain ⟨sound, -, stored, holds⟩ :=
        linked.sound.add lib (by decide)
          (linked.sound.lookup_none missing)
          (readTableOf state.q offset (arriving state.q offset))
      have complete :
          TableComplete state offset ↔
            ShowsBytes state.q offset
              (readTableOf state.q offset (arriving state.q offset)) := by
        rw [showsBytes_readTableOf_iff, TableComplete,
          imp_iff_right missing, imp_iff_right granted,
          imp_iff_right some]
      rw [complete]
      constructor
      · intro after
        obtain ⟨payload, atNode, shown⟩ :=
          after _ (sound.listed.mem_iff.mp (add_mem lib _ _ _))
        have same := Option.some.inj (atNode.symm.trans stored)
        rw [same] at shown
        exact shown
      · exact fun shown => holds _ onDisk shown

/-- A table that is returned is cached under its offset. -/
theorem L2Outcome.returned (outcome : L2Outcome lib state.q offset result)
    (linked : CacheLinked state) {l2t : Node Nat}
    (found : result.1 = some l2t) :
    l2t ∈ result.2.l2Cache.lru ∧ l2t.key = offset := by
  cases outcome with
  | hit present =>
      cases found
      refine ⟨List.mem_append_right _ List.mem_cons_self, ?_⟩
      exact (linked.lookup_lru present).2
  | failed calls missing nothing => cases found
  | added calls missing granted some =>
      cases found
      exact ⟨add_mem lib _ _ _, rfl⟩

/-- What leaves the cache was not used longest. -/
theorem L2Outcome.evicted (outcome : L2Outcome lib state.q offset result)
    (linked : CacheLinked state) {old : Node Nat}
    (member : old ∈ state.q.l2Cache.lru)
    (gone : old ∉ result.2.l2Cache.lru) :
    LeastRecent state.used state.q.l2Cache old := by
  cases outcome with
  | hit found =>
      refine absurd ?_ gone
      have moved :=
        List.perm_cons_erase (linked.lookup_lru found).1
      exact
        ((List.perm_append_singleton _ _).trans moved.symm).mem_iff.mpr
          member
  | failed calls missing nothing => exact absurd member gone
  | added calls missing granted some =>
      exact linked.recent.evicted_add lib member gone

end Outcome

/-! ## Main result -/

/-- The cache is as it should be, and so is a call. -/
def CallRight (state : CacheHistory) (offset : Nat) : Prop :=
  CallTransparent lib state offset ∧
    CacheInStep (l2Step lib state offset) ∧
    CacheOnDisk (l2Step lib state offset)

/-- A call goes right exactly if the table that it adds is complete. -/
theorem callRight_iff {state : CacheHistory} (linked : CacheLinked state)
    (onDisk : CacheOnDisk state) (offset : Nat) :
    CallRight lib state offset ↔ TableComplete state offset := by
  have outcome := qcowReadL2Table_outcome lib state.q offset
  have linkedAfter : CacheLinked (l2Step lib state offset) :=
    outcome.linked lib linked
  have complete :
      CacheOnDisk (l2Step lib state offset) ↔ TableComplete state offset :=
    outcome.onDisk_iff lib linked onDisk
  rw [← complete]
  constructor
  · exact fun right => right.2.2
  · intro after
    refine ⟨⟨?_, ?_⟩, linkedAfter.inStep, after⟩
    · intro l2t found
      obtain ⟨inList, key⟩ := outcome.returned lib linked found
      have shown := after l2t inList
      rw [key] at shown
      exact shown
    · intro old member gone
      exact outcome.evicted lib linked member gone

/--
After an image was opened, the cache stays right through a sequence of calls
exactly if each table that the host delivers is complete.
-/
theorem l2Cache_transparent_iff {version : Version} {header : QcowHeader}
    {fresh : Buffer} {file : HostFile} {q : QcowState}
    (opened : qcowProbe version header fresh file = some q)
    (offsets : List Nat) :
    Along (l2Step lib) (CallRight lib) ⟨q, []⟩ offsets ↔
      Along (l2Step lib) TableComplete ⟨q, []⟩ offsets := by
  have linked := cacheLinked_empty (probed_of_qcowProbe opened).l2Cache
  have onDisk : CacheOnDisk ⟨q, []⟩ := by
    rw [linked.cacheOnDisk_iff]
    dsimp only
    rw [(probed_of_qcowProbe opened).l2Cache]
    exact empty_holds _
  clear opened
  generalize (⟨q, []⟩ : CacheHistory) = state at linked onDisk
  induction offsets generalizing state with
  | nil => rfl
  | cons offset rest induction =>
      rw [along_cons, along_cons, callRight_iff lib linked onDisk]
      refine and_congr_right fun complete => ?_
      have outcome := qcowReadL2Table_outcome lib state.q offset
      exact induction _ (outcome.linked lib linked)
        ((outcome.onDisk_iff lib linked onDisk).mpr complete)

end Calls

/-- The L2 table of the small image, read and then found. -/
theorem l2Cache_transparent_on_smallState :
    Along (l2Step (.plain _)) (CallRight (.plain _)) ⟨smallState, []⟩
      [2048, 2048] := by
  refine (l2Cache_transparent_iff (.plain _) smallState_opened _).mpr
    ⟨?_, ?_, trivial⟩
  · intro _ _ _ position inside behind
    have whole : arriving smallState 2048 = tableBytes smallState := by
      decide +kernel
    dsimp only at inside behind
    omega
  · intro missing
    have present :
        (l2Step (.plain _) ⟨smallState, []⟩ 2048).q.l2Cache.lookup 2048 ≠
          none := by
      decide +kernel
    exact absurd missing present

/-- The small image, on a host that delivers one byte and fails. -/
def cutState : QcowState :=
  { smallState with file := smallFile fun call => if call < 2 then 1 else 0 }

/-- The table that is then returned lacks the offset of its cluster. -/
theorem cut_table_is_cached :
    (qcowReadL2Table (.plain _) cutState 2048).1 = some ⟨2048, 0⟩ ∧
      ¬ IsOnDisk (qcowReadL2Table (.plain _) cutState 2048).2 ⟨2048, 0⟩
        2048 := by
  refine ⟨by decide +kernel, fun onDisk => ?_⟩
  have low := onDisk 6 (by decide +kernel)
  revert low
  decide +kernel

end Kemu.Disk.Qcow
