import Kemu.Virtio.P9.Server
import Mathlib.Data.List.TakeWhile

/-!
# What requests do to the fid table

Rules for handlers that see the state as a fid table: a handler finishes,
reports an error or dies, and the first two leave a table with a property.
Handlers that write to no fid keep everything that looking up fids keeps.
All of them leave tables whose objects are where new ones are not, with
paths that begin behind the root.
-/

namespace Kemu.Virtio.P9.TableRules

open Kemu.Lib.SearchTree
open Kemu.Lib.Transition
open Kemu.Virtio.P9.Fid
open Kemu.Virtio.P9.Path
open Kemu.Virtio.P9.Server

/-! ## Handlers and the table -/

section Rules

variable {Value Result : Type}

/-- A handler leaves the record of the replies and of the heap alone. -/
structure Untouched (state now : P9State) : Prop where
  replies : now.replies = state.replies
  corrupted : now.corrupted = state.corrupted

theorem Untouched.refl (state : P9State) : Untouched state state :=
  ⟨rfl, rfl⟩

theorem Untouched.trans {state between now : P9State}
    (first : Untouched state between) (second : Untouched between now) :
    Untouched state now :=
  ⟨second.replies.trans first.replies, second.corrupted.trans first.corrupted⟩

/--
A handler finishes or reports an error in the given ways, or dies; it
overruns a heap buffer only if there is what makes it do so.
-/
def Outcome (bursts : Prop) (state : P9State) (after : Value → FidTable → Prop)
    (failed : FidTable → Prop) :
    EStateM.Result Stop P9State Value → Prop
  | .ok value now => Untouched state now ∧ after value now.table
  | .error (.errno _) now => Untouched state now ∧ failed now.table
  | .error .crash now => Untouched state now
  | .error .corrupt now => Untouched state now ∧ bursts

/--
From a table with the first property a handler finishes with the second one,
or reports an error with the third one, or the process dies.
-/
def Handles (bursts : Prop) (before : FidTable → Prop) (handler : P9M Value)
    (after : Value → FidTable → Prop) (failed : FidTable → Prop) : Prop :=
  ∀ state : P9State, before state.table →
    Outcome bursts state after failed (handler state)

variable {bursts : Prop} {before failed : FidTable → Prop}

theorem Outcome.after_untouched {state between : P9State}
    {after : Value → FidTable → Prop}
    (untouched : Untouched state between)
    {result : EStateM.Result Stop P9State Value}
    (outcome : Outcome bursts between after failed result) :
    Outcome bursts state after failed result := by
  cases result with
  | ok value now => exact ⟨untouched.trans outcome.1, outcome.2⟩
  | error stop now =>
      cases stop with
      | errno number => exact ⟨untouched.trans outcome.1, outcome.2⟩
      | crash => exact untouched.trans outcome
      | corrupt => exact ⟨untouched.trans outcome.1, outcome.2⟩

theorem Handles.bind {handler : P9M Value} {next : Value → P9M Result}
    {between : Value → FidTable → Prop} {after : Result → FidTable → Prop}
    (first : Handles bursts before handler between failed)
    (second : ∀ value, Handles bursts (between value) (next value) after failed) :
    Handles bursts before (handler >>= next) after failed := by
  intro state start
  have ends := first state start
  show Outcome bursts state after failed (EStateM.bind handler next state)
  rw [EStateM.bind]
  cases outcome : handler state with
  | ok value now =>
      rw [outcome] at ends
      exact (second value now ends.2).after_untouched ends.1
  | error stop now =>
      rw [outcome] at ends
      cases stop with
      | errno number => exact ends
      | crash => exact ends
      | corrupt => exact ends

theorem Handles.weaken {handler : P9M Value}
    {strong weak : Value → FidTable → Prop} {strongly : FidTable → Prop}
    (handles : Handles bursts before handler strong strongly)
    (finished : ∀ value table, strong value table → weak value table)
    (reported : ∀ table, strongly table → failed table) :
    Handles bursts before handler weak failed := by
  intro state start
  have ends := handles state start
  cases outcome : handler state with
  | ok value now =>
      rw [outcome] at ends
      exact ⟨ends.1, finished value now.table ends.2⟩
  | error stop now =>
      rw [outcome] at ends
      cases stop with
      | errno number => exact ⟨ends.1, reported now.table ends.2⟩
      | crash => exact ends
      | corrupt => exact ends

theorem Handles.pure {after : Value → FidTable → Prop} {value : Value}
    (holds : ∀ table, before table → after value table) :
    Handles bursts before (Pure.pure value) after failed :=
  fun state start => ⟨.refl state, holds state.table start⟩

theorem Handles.errno {after : Value → FidTable → Prop} {number : Int}
    (holds : ∀ table, before table → failed table) :
    Handles bursts before (MonadExcept.throw (.errno number)) after failed :=
  fun state start => ⟨.refl state, holds state.table start⟩

/-- A fact that does not depend on the table is used as a fact. -/
theorem Handles.given {fact : Prop} {handler : P9M Value}
    {after : Value → FidTable → Prop}
    (known : ∀ table, before table → fact)
    (handles : fact → Handles bursts before handler after failed) :
    Handles bursts before handler after failed :=
  fun state start => handles (known state.table start) state start

/-- A property that says more is enough to start with. -/
theorem Handles.strengthen {stronger : FidTable → Prop}
    {handler : P9M Value} {after : Value → FidTable → Prop}
    (handles : Handles bursts before handler after failed)
    (implies : ∀ table, stronger table → before table) :
    Handles bursts stronger handler after failed :=
  fun state start => handles state (implies state.table start)

theorem Handles.crash {after : Value → FidTable → Prop} :
    Handles bursts before (MonadExcept.throw .crash) after failed :=
  fun state _ => .refl state

theorem Handles.corrupt {after : Value → FidTable → Prop}
    (holds : bursts) :
    Handles bursts before (MonadExcept.throw .corrupt) after failed :=
  fun state _ => ⟨.refl state, holds⟩

theorem Handles.ite {condition : Prop} [Decidable condition]
    {first second : P9M Value} {after : Value → FidTable → Prop}
    (whenTrue : condition → Handles bursts before first after failed)
    (whenFalse : ¬ condition → Handles bursts before second after failed) :
    Handles bursts before (if condition then first else second) after failed := by
  split
  case isTrue holds => exact whenTrue holds
  case isFalse fails => exact whenFalse fails

end Rules

section Effects

variable {lib : Rebalancer FidNode} {root : CString} {env : P9Env}
  {bursts : Prop} {before failed : FidTable → Prop}
  (fails : ∀ table, before table → failed table)

theorem handles_readString {str : PduString}
    (fits : str = .overrun → bursts) :
    Handles bursts before (readString str) (fun _ => before) failed := by
  cases str with
  | null => exact .pure fun _ holds => holds
  | text raw => exact .pure fun _ holds => holds
  | overrun => exact .corrupt (fits rfl)

/-- A string that was read has no zero byte, and neither has `(null)`. -/
theorem handles_readText {str : PduString}
    (fits : str = .overrun → bursts) :
    Handles bursts before (readString str)
      (fun name table => before table ∧ 0 ∉ printed name) failed := by
  cases str with
  | null => exact .pure fun _ holds => ⟨holds, by decide⟩
  | text raw =>
      refine .pure fun _ holds => ⟨holds, fun member => ?_⟩
      have nonzero := List.mem_takeWhile_imp member
      simp at nonzero
  | overrun => exact .corrupt (fits rfl)

theorem handles_treeNodes :
    Handles bursts before treeNodes (fun _ => before) failed :=
  fun state holds => ⟨.refl state, holds⟩

theorem handles_hostCall (op : HostOp) (paths : List CString) :
    Handles bursts before (hostCall env op paths) (fun _ => before) failed :=
  fun _ holds => ⟨⟨rfl, rfl⟩, holds⟩

include fails

theorem handles_hostTry (op : HostOp) (paths : List CString) :
    Handles bursts before (hostTry env op paths) (fun _ => before) failed := by
  refine .bind (handles_hostCall op paths) fun answer => ?_
  exact .ite (fun _ => .errno fails) fun _ => .pure fun _ holds => holds

/-- A path that was formed has passed the checks. -/
theorem handles_formed (object : P9Fid) (name : Option CString) :
    Handles bursts before (getFullPath object name)
      (fun fullPath table =>
        before table ∧
          getFullPathHelper object.absPath (printed name) = .ok fullPath)
      failed := by
  rw [getFullPath]
  split
  · exact .errno fails
  case h_2 formed => exact .pure fun _ holds => ⟨holds, formed⟩

theorem handles_getFullPath (object : P9Fid) (name : Option CString) :
    Handles bursts before (getFullPath object name) (fun _ => before)
      failed :=
  (handles_formed fails object name).weaken (fun _ _ ends => ends.1)
    fun _ holds => holds

theorem handles_statRel (path : CString) :
    Handles bursts before (statRel root env path) (fun _ => before) failed := by
  rw [statRel]
  split
  · exact .errno fails
  · exact handles_hostTry fails _ _

omit fails

/-- After reading an object it is known to be there. -/
theorem handles_deref (node : FidNode) :
    Handles bursts before (deref node)
      (fun object table =>
        before table ∧ table.heap node.obj = some object) failed := by
  intro state holds
  rw [deref]
  cases there : state.table.heap node.obj with
  | none => exact .refl state
  | some object => exact ⟨.refl state, holds, there⟩

/-- The object that was read is forgotten. -/
theorem reading_deref (node : FidNode) :
    Handles bursts before (deref node) (fun _ => before) failed :=
  (handles_deref node).weaken (fun _ _ holds => holds.1)
    fun _ holds => holds

/-- A table with one object written. -/
def written (table : FidTable) (node : FidNode) (object : P9Fid) :
    FidTable :=
  { table with
    heap := Function.update table.heap node.obj (some object) }

theorem handles_assign {after : FidTable → Prop} (node : FidNode)
    {object : P9Fid}
    (step : ∀ table, before table → after (written table node object)) :
    Handles bursts before (assign node object) (fun _ => after) failed :=
  fun state holds => ⟨⟨rfl, rfl⟩, step state.table holds⟩

theorem handles_getFid {after : FidNode → FidTable → Prop} (fid : UInt32)
    (step : ∀ calloc table now node, before table →
      findOrCreateFid lib root calloc table fid = (now, some node) →
      after node now) :
    Handles bursts before (getFid lib root env fid) after failed := by
  intro state holds
  rw [getFid]
  cases outcome :
      findOrCreateFid lib root (env.calloc state.looked) state.table
        fid with
  | mk now result =>
      cases result with
      | none => exact ⟨rfl, rfl⟩
      | some node => exact ⟨⟨rfl, rfl⟩, step _ _ _ _ holds outcome⟩

end Effects

/-! ## Handlers that write to no fid -/

section Reading

variable (lib : Rebalancer FidNode) (root : CString) (env : P9Env)
  {bursts : Prop} {kept : FidTable → Prop}

/-- A property of the table that looking up a fid keeps. -/
def Reading (kept : FidTable → Prop) : Prop :=
  ∀ calloc table fid, kept table →
    kept (findOrCreateFid lib root calloc table fid).1

variable {lib root} (reading : Reading lib root kept)

include reading

theorem reading_getFid (fid : UInt32) :
    Handles bursts kept (getFid lib root env fid) (fun _ => kept) kept := by
  refine handles_getFid fid ?_
  intro calloc table now node holds found
  have kept := reading calloc table fid holds
  rw [found] at kept
  exact kept

/-- The object of a fid, with what is kept. -/
theorem reading_object {Result : Type} {after : Result → FidTable → Prop}
    (fid : UInt32) {rest : FidNode → P9Fid → P9M Result}
    (continues : ∀ node object, Handles bursts kept (rest node object) after kept) :
    Handles bursts kept
      (do
        let node ← getFid lib root env fid
        let object ← deref node
        rest node object)
      after kept := by
  refine .bind (reading_getFid env reading fid) fun node => ?_
  exact .bind (reading_deref node) fun object => continues node object

omit reading in
theorem reading_hostTry (op : HostOp) (paths : List CString) :
    Handles bursts kept
      (do
        let _ ← hostTry env op paths
        pure PUnit.unit)
      (fun _ => kept) kept :=
  .bind (handles_hostTry (fun _ holds => holds) op paths) fun _ =>
    .pure fun _ holds => holds

theorem reading_onPath (op : HostOp) (fid : UInt32) :
    Handles bursts kept (onPath lib root env op fid) (fun _ => kept) kept :=
  reading_object env reading fid fun _ _ => reading_hostTry env op _

theorem reading_onDescriptor (op : HostOp) (fid : UInt32) :
    Handles bursts kept (onDescriptor lib root env op fid) (fun _ => kept)
      kept :=
  reading_object env reading fid fun _ _ => reading_hostTry env op _

theorem reading_makeEntry (op : HostOp) (mode : Bool) (dfid : UInt32)
    (name : Option CString) :
    Handles bursts kept (makeEntry lib root env op mode dfid name)
      (fun _ => kept) kept := by
  refine reading_object env reading dfid fun _ object => ?_
  refine .bind (handles_getFullPath (fun _ holds => holds) object name)
    fun fullPath => ?_
  refine .bind (handles_hostTry (fun _ holds => holds) _ _) fun _ => ?_
  refine .bind (handles_hostTry (fun _ holds => holds) _ _) fun _ => ?_
  exact .ite (fun _ => reading_hostTry env _ _) fun _ =>
    .pure fun _ holds => holds

omit reading in
theorem reading_hostTryWhen (condition : Bool) (op : HostOp)
    (path : CString) :
    Handles bursts kept (hostTryWhen env condition op path) (fun _ => kept)
      kept :=
  .ite (fun _ => reading_hostTry env _ _) fun _ => .pure fun _ holds => holds

theorem reading_setattr (fid valid : UInt32) :
    Handles bursts kept (virtioP9Setattr lib root env fid valid) (fun _ => kept)
      kept := by
  refine reading_object env reading fid fun _ object => ?_
  refine .bind (reading_hostTryWhen env _ _ _) fun _ => ?_
  refine .bind (reading_hostTryWhen env _ _ _) fun _ => ?_
  refine .bind (reading_hostTryWhen env _ _ _) fun _ => ?_
  exact reading_hostTryWhen env _ _ _

theorem reading_rename (fid newFid : UInt32) {name : PduString}
    (fits : name = .overrun → bursts) :
    Handles bursts kept (virtioP9Rename lib root env fid newFid name)
      (fun _ => kept) kept := by
  refine .bind (handles_readString fits) fun text => ?_
  refine .bind (reading_getFid env reading fid) fun node => ?_
  refine reading_object env reading newFid fun _ newObject => ?_
  refine .bind (handles_getFullPath (fun _ holds => holds) newObject text)
    fun fullPath => ?_
  refine .bind (reading_deref node) fun object => ?_
  exact reading_hostTry env _ _

theorem reading_link (dfid fid : UInt32) {name : PduString}
    (fits : name = .overrun → bursts) :
    Handles bursts kept (virtioP9Link lib root env dfid fid name)
      (fun _ => kept) kept := by
  refine .bind (handles_readString fits) fun text => ?_
  refine .bind (reading_getFid env reading dfid) fun directory => ?_
  refine .bind (reading_getFid env reading fid) fun node => ?_
  refine .bind (reading_deref directory) fun object => ?_
  refine .bind (handles_getFullPath (fun _ holds => holds) object text)
    fun fullPath => ?_
  refine .bind (reading_deref node) fun object => ?_
  exact reading_hostTry env _ _

theorem reading_unlinkat (fid : UInt32) {name : PduString}
    (fits : name = .overrun → bursts) :
    Handles bursts kept (virtioP9Unlinkat lib root env fid name) (fun _ => kept)
      kept := by
  refine .bind (handles_readString fits) fun text => ?_
  refine reading_object env reading fid fun _ object => ?_
  refine .bind (handles_getFullPath (fun _ holds => holds) object text)
    fun fullPath => ?_
  exact reading_hostTry env _ _

theorem reading_read (fid : UInt32) :
    Handles bursts kept (virtioP9Read lib root env fid) (fun _ => kept) kept := by
  refine reading_object env reading fid fun _ _ => ?_
  refine .bind (handles_hostCall _ _) fun _ => ?_
  exact .pure fun _ holds => holds

omit reading in
theorem reading_readdirLoop (count : UInt32) (dirents : List Dirent)
    (rcount : UInt32) :
    Handles bursts kept (readdirLoop root env count dirents rcount)
      (fun _ => kept) kept := by
  induction dirents generalizing rcount with
  | nil => exact .pure fun _ holds => holds
  | cons dent rest induction =>
      rw [readdirLoop]
      refine .ite (fun _ => ?_) fun _ => ?_
      · exact .bind (handles_hostCall _ _) fun _ =>
          .pure fun _ holds => holds
      · split
        · refine .bind (handles_hostCall _ _) fun _ => ?_
          exact induction _
        · refine .bind (handles_hostCall _ _) fun _ => ?_
          refine .bind (handles_hostCall _ _) fun _ => ?_
          exact induction _

theorem reading_readdir (fid count : UInt32) :
    Handles bursts kept (virtioP9Readdir lib root env fid count) (fun _ => kept)
      kept := by
  refine reading_object env reading fid fun _ object => ?_
  refine .bind (handles_hostCall _ _) fun answer => ?_
  refine .ite (fun _ => .errno fun _ holds => holds) fun _ => ?_
  refine .ite (fun _ => .crash) fun _ => ?_
  refine .bind (handles_hostCall _ _) fun _ => ?_
  refine .bind (handles_hostCall _ _) fun _ => ?_
  exact reading_readdirLoop env count _ _

theorem reading_renameatHost (oldDfid newDfid : UInt32)
    {oldName newName : PduString} (oldFits : oldName = .overrun → bursts)
    (newFits : newName = .overrun → bursts) :
    Handles bursts kept
      (renameatHost lib root env oldDfid newDfid oldName newName)
      (fun names table => kept table ∧ 0 ∉ printed names.2) kept := by
  refine .bind (handles_readString oldFits) fun old => ?_
  refine .bind (handles_readText newFits) fun new => ?_
  refine .given (fun _ read => read.2) fun clean => ?_
  refine (Handles.bind (reading_getFid env reading oldDfid)
    fun oldNode => ?_).strengthen fun _ read => read.1
  refine .bind (reading_getFid env reading newDfid) fun newNode => ?_
  refine .bind (reading_deref oldNode) fun oldObject => ?_
  refine .bind (handles_getFullPath (fun _ holds => holds) oldObject old)
    fun oldFullPath => ?_
  refine .bind (reading_deref newNode) fun newObject => ?_
  refine .bind (handles_getFullPath (fun _ holds => holds) newObject new)
    fun newFullPath => ?_
  refine .bind (handles_hostTry (fun _ holds => holds) _ _) fun _ => ?_
  exact .pure fun _ holds => ⟨holds, clean⟩

omit reading in
theorem reading_version {version : PduString}
    (fits : version = .overrun → bursts) :
    Handles bursts kept (virtioP9Version version) (fun _ => kept) kept := by
  refine .bind (handles_readString fits) fun text => ?_
  cases text with
  | none => exact .crash
  | some _ => exact .pure fun _ holds => holds

omit reading in
theorem reading_lock {clientId : PduString}
    (fits : clientId = .overrun → bursts) :
    Handles bursts kept (virtioP9Lock clientId) (fun _ => kept) kept :=
  .bind (handles_readString fits) fun _ => .pure fun _ holds => holds

omit reading

/-- The requests that write to a fid or remove one. -/
def writesFids : P9Request → Bool
  | .attach _ _ _ _ => true
  | .walk _ _ _ _ => true
  | .clunk _ => true
  | .open _ => true
  | .create _ _ => true
  | .renameat _ _ _ _ => true
  | _ => false

include reading

/--
All other requests keep what looking up fids keeps, and overrun no buffer
unless a string of theirs does.
-/
theorem reading_handler {request : P9Request}
    (reads : writesFids request = false)
    (fits : ¬ StringsFit request → bursts) :
    Handles bursts kept (virtio9pDotlHandler lib root env request)
      (fun _ => kept) kept := by
  cases request with
  | version version => exact reading_version fun long => fits (· long)
  | attach fid uid uname aname => cases reads
  | walk fid newfid nwname names => cases reads
  | clunk fid => cases reads
  | «open» fid => cases reads
  | create dfid name => cases reads
  | mkdir dfid name =>
      exact .bind (handles_readString fun long => fits (· long)) fun text =>
        reading_makeEntry env reading _ _ dfid text
  | mknod dfid name =>
      exact .bind (handles_readString fun long => fits (· long)) fun text =>
        reading_makeEntry env reading _ _ dfid text
  | symlink dfid name oldPath =>
      exact .bind (handles_readString fun long => fits (·.1 long)) fun text =>
        .bind (handles_readString fun long => fits (·.2 long)) fun _ =>
          reading_makeEntry env reading _ _ dfid text
  | link dfid fid name => 
      exact reading_link env reading dfid fid fun long => fits (· long)
  | read fid => exact reading_read env reading fid
  | readdir fid count => exact reading_readdir env reading fid count
  | write fid => exact reading_onDescriptor env reading _ fid
  | fsync fid => exact reading_onDescriptor env reading _ fid
  | getattr fid => exact reading_onPath env reading _ fid
  | setattr fid valid => exact reading_setattr env reading fid valid
  | readlink fid => exact reading_onPath env reading _ fid
  | statfs fid => exact reading_onPath env reading _ fid
  | remove fid => exact reading_onPath env reading _ fid
  | rename fid newFid newName =>
      exact reading_rename env reading fid newFid fun long =>
        fits (· long)
  | renameat oldDfid newDfid oldName newName => cases reads
  | unlinkat fid name => 
      exact reading_unlinkat env reading fid fun long => fits (· long)
  | lock clientId => exact reading_lock fun long => fits (· long)
  | getlock clientId => exact reading_lock fun long => fits (· long)
  | flush => exact .pure fun _ holds => holds
  | unsupported => exact .errno fun _ holds => holds

end Reading

/-! ## Tables that requests leave -/

/-- The path of a fid begins behind the root and leaves room for its end. -/
structure Shaped (root : CString) (object : P9Fid) : Prop where
  offset : object.pathOff = root.length
  behind : root.length ≤ object.absPath.length
  short : object.absPath.length < pathMax

theorem Shaped.path_length {root : CString} {object : P9Fid}
    (shaped : Shaped root object) :
    object.path.length < pathMax - root.length := by
  have short := shaped.short
  have behind := shaped.behind
  rw [P9Fid.path, List.length_drop, shaped.offset]
  omega

theorem Shaped.setPath {root : CString} {object : P9Fid}
    (shaped : Shaped root object) {name : CString}
    (short : name.length < pathRoom object) :
    Shaped root (setPath object name) := by
  have behind := shaped.behind
  rw [pathRoom, shaped.offset] at short
  refine ⟨shaped.offset, ?_, ?_⟩
  · rw [Path.setPath, shaped.offset, List.length_append, List.length_take]
    omega
  · rw [Path.setPath, shaped.offset, List.length_append, List.length_take]
    omega

theorem Shaped.path_setPath {root : CString} {object : P9Fid}
    (shaped : Shaped root object) (name : CString) :
    (Path.setPath object name).path = name := by
  have behind := shaped.behind
  rw [P9Fid.path, Path.setPath, shaped.offset]
  have whole : (object.absPath.take root.length).length = root.length := by
    rw [List.length_take]
    omega
  exact List.drop_left' whole

/-- Fields that are not about the path do not matter. -/
theorem Shaped.congr {root : CString} {object : P9Fid}
    (shaped : Shaped root object) (uid : UInt32) (dir : Option Nat)
    (fd : Int) :
    Shaped root { object with uid := uid, dir := dir, fd := fd } :=
  ⟨shaped.offset, shaped.behind, shaped.short⟩

/-- No object lies beyond the next one, and every object is shaped. -/
structure Tidy (root : CString) (table : FidTable) : Prop where
  unused : ∀ obj, table.next ≤ obj → table.heap obj = none
  shaped :
    ∀ obj object, table.heap obj = some object → Shaped root object

section Tidy

variable {lib : Rebalancer FidNode} {root : CString} {env : P9Env}

/-- How a lookup ends: the fid is found, none is allocated, or one is. -/
inductive Found (root : CString) (calloc : Bool) (table : FidTable)
    (fid : UInt32) : FidTable × Option FidNode → Prop where
  | found {node : FidNode}
      (search : table.tree.search (lookupOrder fid) = some node) :
      Found root calloc table fid (table, some node)
  | refused (search : table.tree.search (lookupOrder fid) = none)
      (refusal : ¬ (calloc = true ∧ root.length < pathMax)) :
      Found root calloc table fid (table, none)
  | created {now : FidTable}
      (search : table.tree.search (lookupOrder fid) = none)
      (allocated : calloc = true) (room : root.length < pathMax)
      (nodes : ∀ node ∈ table.tree.inorder, node ∈ now.tree.inorder)
      (heap :
        now.heap =
          Function.update table.heap table.next (some (newFid root fid)))
      (next : now.next = table.next + 1) :
      Found root calloc table fid (now, some ⟨fid, table.next⟩)

theorem found_findOrCreateFid (lib : Rebalancer FidNode) (root : CString)
    (calloc : Bool) (table : FidTable) (fid : UInt32) :
    Found root calloc table fid
      (findOrCreateFid lib root calloc table fid) := by
  rw [findOrCreateFid]
  cases search : table.tree.search (lookupOrder fid) with
  | some node => exact .found search
  | none =>
      cases calloc with
      | false => exact .refused search (by simp)
      | true =>
          dsimp only
          rw [if_neg (by simp)]
          split
          case isTrue long => exact .refused search (by omega)
          case isFalse room =>
            refine .created search rfl (Nat.lt_of_not_le room) ?_ ?_ ?_
            · intro node member
              rw [insertNewFid]
              split
              · exact member
              case h_2 tree attached =>
                dsimp only
                rw [lib.insertColor_inorder,
                  (TreeOf.attach_perm attached).mem_iff]
                exact List.mem_cons_of_mem _ member
            · rw [insertNewFid]
              split <;> rfl
            · rw [insertNewFid]
              split <;> rfl

end Tidy

/-! ## What the stores of the handlers keep -/

/--
A property of strings that the strings of requests have, and those put
together from such strings or cut out of them.
-/
structure TextRule (text : CString → Prop) : Prop where
  plain : ∀ name, 0 ∉ name → text name
  append :
    ∀ first second, text first → text second → text (first ++ second)
  part : ∀ whole piece, piece <:+: whole → text whole → text piece

/--
A property of the object of a fid that new objects have and that outlives
what the handlers store: other fields, and paths with the property of
strings that fit.
-/
structure StoreRule (root : CString) (text : CString → Prop)
    (kept : P9Fid → Prop) : Prop where
  texts : TextRule text
  created : root.length < pathMax → ∀ fid, kept (newFid root fid)
  path : ∀ object, kept object → text object.path
  behind : ∀ object, kept object → object.pathOff ≤ object.absPath.length
  other :
    ∀ (object : P9Fid) (uid : UInt32) (dir : Option Nat) (fd : Int),
      kept object →
        kept { object with uid := uid, dir := dir, fd := fd }
  stored :
    ∀ (object : P9Fid) (name : CString), kept object → text name →
      name.length < pathRoom object → kept (setPath object name)

/-- No object lies beyond the next one, and every object has a property. -/
structure Stored (kept : P9Fid → Prop) (table : FidTable) : Prop where
  unused : ∀ obj, table.next ≤ obj → table.heap obj = none
  objects : ∀ obj object, table.heap obj = some object → kept object

section Stored

variable {lib : Rebalancer FidNode} {root : CString} {env : P9Env}
  {bursts : Prop} {text : CString → Prop} {kept : P9Fid → Prop}

/-- Writing an object that is there. -/
theorem Stored.write {table : FidTable} (stored : Stored kept table)
    {node : FidNode} {old object : P9Fid}
    (there : table.heap node.obj = some old) (new : kept object) :
    Stored kept (written table node object) := by
  refine ⟨?_, ?_⟩
  · intro obj beyond
    have different : obj ≠ node.obj := by
      rintro rfl
      rw [stored.unused node.obj beyond] at there
      cases there
    exact (Function.update_of_ne different ..).trans
      (stored.unused obj beyond)
  · intro obj other found
    by_cases same : obj = node.obj
    · subst same
      cases (Function.update_self ..).symm.trans found
      exact new
    · exact stored.objects obj other
        ((Function.update_of_ne same ..).symm.trans found)

/-- A table of kept objects that has a certain one. -/
def Holding (kept : P9Fid → Prop) (node : FidNode) (object : P9Fid)
    (table : FidTable) : Prop :=
  Stored kept table ∧ table.heap node.obj = some object

theorem Holding.known {node : FidNode} {object : P9Fid} {table : FidTable}
    (holding : Holding kept node object table) : kept object :=
  holding.1.objects _ _ holding.2

theorem handles_write {node : FidNode} {object new : P9Fid}
    {failed : FidTable → Prop} (keeps : kept object → kept new) :
    Handles bursts (Holding kept node object) (assign node new)
      (fun _ => Holding kept node new) failed :=
  handles_assign node fun _ holding =>
    ⟨holding.1.write holding.2 (keeps holding.known),
      Function.update_self ..⟩

variable (rule : StoreRule root text kept)

include rule

theorem stored_reading : Reading lib root (Stored kept) := by
  intro calloc table fid stored
  have found := found_findOrCreateFid lib root calloc table fid
  generalize findOrCreateFid lib root calloc table fid = result at found
  cases found with
  | found search => exact stored
  | refused search refusal => exact stored
  | created search allocated room nodes heap next =>
      refine ⟨?_, ?_⟩
      · intro obj beyond
        rw [next] at beyond
        rw [heap, Function.update_of_ne (by omega)]
        exact stored.unused obj (by omega)
      · intro obj object there
        rw [heap] at there
        by_cases same : obj = table.next
        · subst same
          rw [Function.update_self] at there
          cases there
          exact rule.created room fid
        · rw [Function.update_of_ne same] at there
          exact stored.objects obj object there

theorem stored_join (node : FidNode) {name : CString} (named : text name) :
    Handles bursts (Stored kept) (join node name) (fun _ => Stored kept)
      (Stored kept) := by
  refine .bind (handles_deref node) fun object => ?_
  cases joined : joinPath object name with
  | none => exact .errno fun _ holding => holding.1
  | some result =>
      rw [joinPath] at joined
      split at joined
      case isTrue => cases joined
      case isFalse short =>
        cases joined
        refine (handles_write fun old => ?_).weaken
          (fun _ _ holding => holding.1) fun _ stored => stored
        exact rule.stored object name old named (Nat.lt_of_not_le short)

theorem stored_clunk (fid : UInt32) :
    Handles bursts (Stored kept) (virtioP9Clunk lib root env fid)
      (fun _ => Stored kept) (Stored kept) := by
  refine reading_object env (stored_reading rule) fid
    fun node object => ?_
  intro state stored
  refine ⟨⟨rfl, rfl⟩, ?_, ?_⟩
  · intro obj beyond
    show Function.update state.table.heap node.obj none obj = none
    by_cases same : obj = node.obj
    · rw [same, Function.update_self]
    · rw [Function.update_of_ne same]
      exact stored.unused obj beyond
  · intro obj other found
    have there : Function.update state.table.heap node.obj none obj =
      some other := found
    by_cases same : obj = node.obj
    · rw [same, Function.update_self] at there
      cases there
    · rw [Function.update_of_ne same] at there
      exact stored.objects obj other there

theorem stored_open (fid : UInt32) :
    Handles bursts (Stored kept) (virtioP9Open lib root env fid)
      (fun _ => Stored kept) (Stored kept) := by
  refine .bind (reading_getFid env (stored_reading rule) fid)
    fun node => ?_
  refine .bind (handles_deref node) fun object => ?_
  refine .bind (handles_hostTry (fun _ holding => holding.1) _ _)
    fun _ => ?_
  refine .bind (handles_hostCall _ _) fun asDir => ?_
  refine .ite (fun _ => ?_) fun _ => ?_
  · refine .bind (handles_hostCall _ _) fun opened => ?_
    refine .bind (handles_write (rule.other object _ _ _)) fun _ => ?_
    exact .ite (fun _ => .errno fun _ holding => holding.1) fun _ =>
      .pure fun _ holding => holding.1
  · refine .bind (handles_hostCall _ _) fun asReg => ?_
    refine .ite (fun _ => ?_) fun _ => .errno fun _ holding => holding.1
    refine .bind (handles_hostCall _ _) fun opened => ?_
    refine .bind (handles_write (rule.other object _ _ _)) fun _ => ?_
    exact .ite (fun _ => .errno fun _ holding => holding.1) fun _ =>
      .pure fun _ holding => holding.1

/-- A path made longer by a name from a request. -/
theorem StoreRule.longer {object : P9Fid} (old : kept object)
    {name : CString} (clean : 0 ∉ name) :
    text (object.path ++ slash :: name) := by
  refine rule.texts.append _ _ (rule.path object old)
    (rule.texts.plain _ ?_)
  rw [List.mem_cons, not_or]
  exact ⟨by decide, clean⟩

/--
`virtio_p9_create` does not take the branch that writes behind `abs_path`:
`get_full_path` has let the name pass.
-/
theorem stored_create (dfid : UInt32) {name : PduString}
    (fits : name = .overrun → bursts) :
    Handles bursts (Stored kept) (virtioP9Create lib root env dfid name)
      (fun _ => Stored kept) (Stored kept) := by
  refine .bind (handles_readText fits) fun text => ?_
  refine .given (fun _ read => read.2) fun clean => ?_
  refine (Handles.bind (reading_getFid env (stored_reading rule) dfid)
    fun node => ?_).strengthen fun _ read => read.1
  refine .bind (handles_deref node) fun object => ?_
  refine .given (fun _ holding => Holding.known holding) fun old => ?_
  refine .bind (handles_formed (fun _ holding => holding.1) object text)
    fun fullPath => ?_
  refine .given (fun _ ends => ends.2) fun formed => ?_
  have room := extended_fits (rule.behind object old) formed
  refine Handles.strengthen ?_ fun _ ends => ends.1
  refine .ite (fun _ => .errno fun _ holding => holding.1) fun _ => ?_
  refine .bind (handles_write fun old => ?_) fun _ => ?_
  · refine rule.stored object _ old ?_ ?_
    · exact rule.texts.part _ _ (List.take_prefix _ _).isInfix
        (rule.longer old clean)
    · rw [List.length_take]
      omega
  -- a path that is too long was refused above
  refine .ite (fun long => absurd room (Nat.not_lt.2 long)) fun _ => ?_
  refine .bind (handles_hostTry (fun _ holding => holding.1) _ _)
    fun opened => ?_
  refine .bind (handles_write (rule.other _ _ _ _)) fun _ => ?_
  refine .bind (handles_hostTry (fun _ holding => holding.1) _ _)
    fun _ => ?_
  refine .bind (handles_hostTry (fun _ holding => holding.1) _ _)
    fun _ => ?_
  exact .pure fun _ holding => holding.1

theorem stored_copyUid (node : FidNode) (uid : UInt32) (object : P9Fid) :
    Handles bursts (Holding kept node object)
      (assign node { object with uid := uid }) (fun _ => Stored kept)
      (Stored kept) :=
  (handles_write (rule.other object _ _ _)).weaken
    (fun _ _ holding => holding.1) fun _ stored => stored

theorem stored_walkLoop (fid newFid : FidNode) (nwname : UInt16)
    {names : Nat → PduString} (fits : ∀ turn, names turn = .overrun → bursts)
    (fuel turn : Nat) (i : UInt8) :
    Handles bursts (Stored kept)
      (walkLoop root env fid newFid nwname names fuel turn i)
      (fun _ => Stored kept) (Stored kept) := by
  induction fuel generalizing turn i with
  | zero => exact .pure fun _ stored => stored
  | succ fuel induction =>
      rw [walkLoop]
      refine .ite (fun _ => ?_) fun _ => .pure fun _ stored => stored
      refine .bind (handles_readText (fits turn)) fun str => ?_
      refine .given (fun _ read => read.2) fun clean => ?_
      refine (Handles.bind (handles_deref newFid) fun object => ?_).strengthen
        fun _ read => read.1
      refine .given (fun _ holding => Holding.known holding) fun old => ?_
      refine .ite (fun _ => .errno fun _ holding => holding.1) fun _ => ?_
      refine (Handles.bind (handles_statRel (fun _ stored => stored) _)
        fun _ => ?_).strengthen fun _ holding => holding.1
      refine .bind (stored_join rule newFid (rule.longer old clean))
        fun _ => ?_
      refine .bind (reading_deref fid) fun source => ?_
      refine .bind (handles_deref newFid) fun joined => ?_
      refine .bind (stored_copyUid rule newFid source.uid joined)
        fun _ => ?_
      exact induction (turn + 1) (i + 1)

theorem stored_walk (fid newfid : UInt32) (nwname : UInt16)
    {names : Nat → PduString}
    (fits : ∀ turn, names turn = .overrun → bursts) :
    Handles bursts (Stored kept)
      (virtioP9Walk lib root env fid newfid nwname names)
      (fun _ => Stored kept) (Stored kept) := by
  refine .bind (reading_getFid env (stored_reading rule) newfid)
    fun newNode => ?_
  refine .bind (reading_getFid env (stored_reading rule) fid)
    fun node => ?_
  refine .bind (handles_deref node) fun old => ?_
  refine .given (fun _ holding => Holding.known holding) fun known => ?_
  refine (Handles.bind
    (stored_join rule newNode (rule.path old known)) fun _ => ?_).strengthen
      fun _ holding => holding.1
  refine .ite (fun _ => stored_walkLoop rule _ _ _ fits _ _ _) fun _ => ?_
  refine .bind (handles_deref newNode) fun joined => ?_
  refine .bind (reading_deref node) fun source => ?_
  exact stored_copyUid rule newNode source.uid joined

theorem stored_attach (fid uid : UInt32) {uname aname : PduString}
    (unameFits : uname = .overrun → bursts)
    (anameFits : aname = .overrun → bursts) :
    Handles bursts (Stored kept)
      (virtioP9Attach lib root env fid uid uname aname)
      (fun _ => Stored kept) (Stored kept) := by
  refine .bind (handles_readString unameFits) fun _ => ?_
  refine .bind (handles_readString anameFits) fun _ => ?_
  refine .bind (handles_hostTry (fun _ stored => stored) _ _) fun _ => ?_
  refine .bind (reading_getFid env (stored_reading rule) fid)
    fun node => ?_
  refine .bind (handles_deref node) fun object => ?_
  refine .bind (stored_copyUid rule node uid object) fun _ => ?_
  exact stored_join rule node (rule.texts.plain _ (by decide))

theorem StoreRule.fixPath {object fixed : P9Fid} {oldName : CString}
    {newName : Option CString} (old : kept object)
    (clean : 0 ∉ printed newName)
    (result : fixPath object oldName newName = some fixed) :
    kept fixed := by
  have joins : ∀ name, text name →
      kept ((joinPath object name).getD object) := by
    intro name named
    rw [joinPath]
    split
    · exact old
    case isFalse short =>
      exact rule.stored object name old named (Nat.lt_of_not_le short)
  have new := rule.texts.plain _ clean
  rw [Server.fixPath] at result
  split at result
  · cases result
  · cases result
    rw [virtioP9FixPath]
    split
    · exact joins _ new
    · dsimp only
      split
      · exact old
      · refine joins _ (rule.texts.append _ _ new ?_)
        exact rule.texts.part _ _ (List.drop_suffix _ _).isInfix
          (rule.path object old)

theorem stored_renameFids (oldName : Option CString)
    {newName : Option CString} (clean : 0 ∉ printed newName)
    (nodes : List FidNode) :
    Handles bursts (Stored kept) (renameFids oldName newName nodes)
      (fun _ => Stored kept) (Stored kept) := by
  induction nodes with
  | nil => exact .pure fun _ stored => stored
  | cons node rest induction =>
      have continues (object : P9Fid) :
          Handles bursts (Holding kept node object)
            (renameFids oldName newName rest) (fun _ => Stored kept)
            (Stored kept) :=
        induction.strengthen fun _ holding => holding.1
      rw [renameFids]
      refine .bind (handles_deref node) fun object => ?_
      refine .ite (fun _ => continues object) fun _ => ?_
      split
      · exact .crash
      · refine .ite (fun _ => ?_) fun _ => continues object
        split
        · exact .crash
        case h_2 fixed result =>
          refine .bind
            (handles_write fun old => rule.fixPath old clean result)
            fun _ => continues fixed

theorem stored_renameat (oldDfid newDfid : UInt32)
    {oldName newName : PduString} (oldFits : oldName = .overrun → bursts)
    (newFits : newName = .overrun → bursts) :
    Handles bursts (Stored kept)
      (virtioP9Renameat lib root env oldDfid newDfid oldName newName)
      (fun _ => Stored kept) (Stored kept) := by
  refine .bind (reading_renameatHost env (stored_reading rule) _ _
    oldFits newFits) fun names => ?_
  refine .given (fun _ ends => ends.2) fun clean => ?_
  refine (Handles.bind handles_treeNodes fun nodes => ?_).strengthen
    fun _ ends => ends.1
  exact stored_renameFids rule names.1 clean nodes

/--
Every request keeps what the stores keep, if the process lives on, and
overruns a buffer only when one of its strings does.
-/
theorem stored_handler (lib : Rebalancer FidNode) (env : P9Env)
    (request : P9Request) :
    Handles (¬ StringsFit request) (Stored kept)
      (virtio9pDotlHandler lib root env request)
      (fun _ => Stored kept) (Stored kept) := by
  by_cases reads : writesFids request = false
  · exact reading_handler env (stored_reading rule) reads id
  · cases request with
    | attach fid uid uname aname =>
        exact stored_attach rule fid uid (fun long fits => fits.1 long)
          fun long fits => fits.2 long
    | walk fid newfid nwname names =>
        exact stored_walk rule fid newfid nwname fun turn long fits =>
          fits turn long
    | clunk fid => exact stored_clunk rule fid
    | «open» fid => exact stored_open rule fid
    | create dfid name =>
        exact stored_create rule dfid fun long fits => fits long
    | renameat oldDfid newDfid oldName newName =>
        exact stored_renameat rule oldDfid newDfid
          (fun long fits => fits.1 long) fun long fits => fits.2 long
    | _ => exact absurd rfl reads

omit rule

/-- The objects have the property while the server runs. -/
def StoredAlive (kept : P9Fid → Prop) (state : P9State) : Prop :=
  state.dead = true ∨ Stored kept state.table

include rule

theorem StoredAlive.step {state : P9State} (alive : StoredAlive kept state)
    (input : P9Env × P9Request) :
    StoredAlive kept (virtioP9DoIoRequest lib root state input) := by
  rw [virtioP9DoIoRequest]
  split
  · exact alive
  case isFalse living =>
    have stored := alive.resolve_left living
    have ends :=
      stored_handler rule lib input.1 input.2
        { state with asked := 0, looked := 0 } stored
    split
    case h_1 outcome =>
      rw [outcome] at ends
      exact Or.inr ends.2
    case h_2 outcome =>
      rw [outcome] at ends
      exact Or.inr ends.2
    case h_3 => exact Or.inl rfl
    case h_4 => exact Or.inl rfl

/-- Requests whose strings fit overrun no buffer of the heap. -/
theorem StoredAlive.intact {state : P9State}
    (alive : StoredAlive kept state) (intact : state.corrupted = false)
    {input : P9Env × P9Request} (fits : StringsFit input.2) :
    (virtioP9DoIoRequest lib root state input).corrupted = false := by
  rw [virtioP9DoIoRequest]
  split
  · exact intact
  case isFalse living =>
    have ends :=
      stored_handler rule lib input.1 input.2
        { state with asked := 0, looked := 0 } (alive.resolve_left living)
    split
    case h_1 outcome =>
      rw [outcome] at ends
      exact ends.1.corrupted.trans intact
    case h_2 outcome =>
      rw [outcome] at ends
      exact ends.1.corrupted.trans intact
    case h_3 outcome =>
      rw [outcome] at ends
      exact ends.corrupted.trans intact
    case h_4 outcome =>
      rw [outcome] at ends
      exact absurd fits ends.2

omit rule in
theorem storedAlive_start : StoredAlive kept p9Start := by
  refine Or.inr ⟨?_, ?_⟩
  · intro obj _
    rfl
  · intro obj object there
    cases there

end Stored

/-! ## Tidy tables -/

section Tidy

variable {lib : Rebalancer FidNode} {root : CString}

theorem shaped_rule (root : CString) :
    StoreRule root (fun _ => True) (Shaped root) where
  texts := ⟨fun _ _ => trivial, fun _ _ _ _ => trivial,
    fun _ _ _ _ => trivial⟩
  created room _ := ⟨rfl, Nat.le_refl _, room⟩
  path _ _ := trivial
  behind _ shaped := shaped.offset.trans_le shaped.behind
  other _ uid dir fd shaped := shaped.congr uid dir fd
  stored _ _ shaped _ short := shaped.setPath short

theorem tidy_iff_stored {table : FidTable} :
    Tidy root table ↔ Stored (Shaped root) table :=
  ⟨fun tidy => ⟨tidy.unused, tidy.shaped⟩,
    fun stored => ⟨stored.unused, stored.objects⟩⟩

theorem tidy_reading : Reading lib root (Tidy root) := by
  intro calloc table fid tidy
  exact tidy_iff_stored.2
    (stored_reading (shaped_rule root) calloc table fid
      (tidy_iff_stored.1 tidy))

/-- Every request leaves a tidy table, if the process lives on. -/
theorem tidy_handler (lib : Rebalancer FidNode) (env : P9Env)
    (request : P9Request) :
    Handles (¬ StringsFit request) (Tidy root)
      (virtio9pDotlHandler lib root env request)
      (fun _ => Tidy root) (Tidy root) :=
  ((stored_handler (shaped_rule root) lib env request).strengthen
    fun _ tidy => tidy_iff_stored.1 tidy).weaken
      (fun _ _ stored => tidy_iff_stored.2 stored)
      fun _ stored => tidy_iff_stored.2 stored

/-- The table is tidy while the server runs. -/
def Alive (root : CString) (state : P9State) : Prop :=
  state.dead = true ∨ Tidy root state.table

theorem alive_run (lib : Rebalancer FidNode) (root : CString)
    (inputs : List (P9Env × P9Request)) :
    Alive root (run (virtioP9DoIoRequest lib root) p9Start inputs) := by
  have kept : ∀ (state : P9State) (input : P9Env × P9Request),
      StoredAlive (Shaped root) state →
        StoredAlive (Shaped root)
          (virtioP9DoIoRequest lib root state input) :=
    fun _ input alive => alive.step (shaped_rule root) input
  exact (run_invariant_of_step kept storedAlive_start inputs).imp id
    tidy_iff_stored.2

end Tidy

end Kemu.Virtio.P9.TableRules
