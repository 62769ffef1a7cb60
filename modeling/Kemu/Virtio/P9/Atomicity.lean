import Kemu.Virtio.P9.TableRules

/-!
# Failed 9p requests and the fids there were

A request that is answered with an error should leave every fid that was in
the table as it was.  Opening, creating, walking and attaching write to a fid
before they know whether they succeed; all other requests that fail have
written to none.
-/

namespace Kemu.Virtio.P9.Atomicity

open Kemu.Lib.Contract
open Kemu.Lib.SearchTree
open Kemu.Lib.Transition
open Kemu.Virtio.P9.Fid
open Kemu.Virtio.P9.Path
open Kemu.Virtio.P9.Server
open Kemu.Virtio.P9.TableRules

/-! ## The property -/

/-- Two objects have the same path, user, descriptor and stream. -/
structure SameFid (object now : P9Fid) : Prop where
  path : now.path = object.path
  uid : now.uid = object.uid
  fd : now.fd = object.fd
  dir : now.dir = object.dir

/-- Every fid of a table is in another one, and is the same there. -/
def FidsKept (before after : FidTable) : Prop :=
  ∀ node ∈ before.tree.inorder, ∀ object,
    before.heap node.obj = some object →
    node ∈ after.tree.inorder ∧
      ∃ now, after.heap node.obj = some now ∧ SameFid object now

/-- A request whose reply is an error keeps the fids. -/
def Atomic (before after : P9State) : Prop :=
  (∃ number, after.replies = before.replies ++ [some number]) →
    FidsKept before.table after.table

/-! ## The condition -/

section Condition

variable (root : CString) (env : P9Env)

/-- The object of a fid that is in the table. -/
def fidBefore (table : FidTable) (fid : UInt32) : Option P9Fid :=
  (table.tree.search (lookupOrder fid)).bind fun node =>
    table.heap node.obj

/-- The object that a walk starts at. -/
def walkSource (table : FidTable) (fid : UInt32) : Option P9Fid :=
  match table.tree.search (lookupOrder fid) with
  | some node => table.heap node.obj
  | none => if env.calloc 1 then some (newFid root fid) else none

/-- The string that a handler has read. -/
def text : PduString → Option CString
  | .null => none
  | .text raw => some (raw.takeWhile (· ≠ 0))
  | .overrun => none

/--
A failing `opendir` leaves a null stream, and a failing `open` its result.
-/
def OpenKeeps (object : P9Fid) : Prop :=
  0 ≤ (env.host 0).ret →
    if (env.host 1).isDir then
      (env.host 2).ret < 0 → object.dir = none
    else
      (env.host 2).isReg = true → (env.host 3).ret < 0 →
        object.fd = (env.host 3).ret

/-- Once the path is extended, all the host calls have to succeed. -/
def CreateKeeps (object : P9Fid) (name : PduString) : Prop :=
  env.strdup = true →
    (∃ fullPath,
      getFullPathHelper object.absPath (printed (text name)) =
        .ok fullPath) →
      0 ≤ (env.host 0).ret ∧ 0 ≤ (env.host 1).ret ∧ 0 ≤ (env.host 2).ret

/-- The user is stored before there is found to be no room for a slash. -/
def AttachKeeps (object : P9Fid) (uid : UInt32) : Prop :=
  0 ≤ (env.host 0).ret → root.length + 1 < pathMax ∨ object.uid = uid

/-- The path after some turns of a walk. -/
def walkedPath (start : CString) (names : Nat → PduString) :
    Nat → CString
  | 0 => start
  | turn + 1 =>
      walkedPath start names turn ++ slash :: printed (text (names turn))

/-- A turn of a walk that goes on. -/
structure WalkPasses (start : CString) (names : Nat → PduString)
    (turn : Nat) : Prop where
  fits :
    ∃ fullPath,
      getFullPathHelper root (walkedPath start names (turn + 1)) =
        .ok fullPath
  seen : 0 ≤ (env.host turn).ret

/-- A turn of a walk, whose counter has eight bits, that is reached. -/
structure WalkReaches (start : CString) (nwname : UInt16)
    (names : Nat → PduString) (turn : Nat) : Prop where
  counted : ∀ earlier < turn, earlier % 256 < nwname.toNat
  passed : ∀ earlier < turn, WalkPasses root env start names earlier

/-- The turn at which a walk reports an error. -/
structure WalkFails (start : CString) (nwname : UInt16)
    (names : Nat → PduString) (turn : Nat) : Prop where
  reached : WalkReaches root env start nwname names turn
  counted : turn % 256 < nwname.toNat
  stopped : ¬ WalkPasses root env start names turn

/--
A walk that fails has come to where the fid already was, and the user is
copied at the first turn that goes on.
-/
def WalkKeeps (object source : P9Fid) (nwname : UInt16)
    (names : Nat → PduString) : Prop :=
  ∀ turn, WalkFails root env source.path nwname names turn →
    object.path = walkedPath source.path names turn ∧
      (turn = 0 ∨ object.uid = source.uid)

/-- When a request that fails keeps the fids. -/
def RequestKeeps (table : FidTable) : P9Request → Prop
  | .open fid => ∀ object ∈ fidBefore table fid, OpenKeeps env object
  | .create dfid name =>
      ∀ object ∈ fidBefore table dfid, CreateKeeps env object name
  | .attach fid uid _ _ =>
      ∀ object ∈ fidBefore table fid, AttachKeeps root env object uid
  | .walk fid newfid nwname names =>
      ∀ object ∈ fidBefore table newfid,
        ∀ source ∈ walkSource root env table fid,
          WalkKeeps root env object source nwname names
  | _ => True

end Condition

/-! ## Fids that survive -/

/-- All objects and nodes of a table are in a later one. -/
structure Survives (before after : FidTable) : Prop where
  nodes : ∀ node ∈ before.tree.inorder, node ∈ after.tree.inorder
  objects :
    ∀ obj object, before.heap obj = some object →
      after.heap obj = some object
  later : before.next ≤ after.next

theorem Survives.refl (table : FidTable) : Survives table table :=
  ⟨fun _ member => member, fun _ _ there => there, Nat.le_refl _⟩

theorem Survives.fidsKept {before after : FidTable}
    (survives : Survives before after) : FidsKept before after := by
  intro node member object there
  refine ⟨survives.nodes node member, object,
    survives.objects node.obj object there, ?_⟩
  exact ⟨rfl, rfl, rfl, rfl⟩

section Surviving

variable {lib : Rebalancer FidNode} {root : CString} {env : P9Env}
  {table : FidTable}

/-- An object is written that was not there. -/
theorem Survives.write {now : FidTable} (survives : Survives table now)
    {node : FidNode} (new : table.heap node.obj = none) (object : P9Fid) :
    Survives table (written now node object) := by
  refine ⟨survives.nodes, ?_, survives.later⟩
  intro obj stored there
  have different : obj ≠ node.obj := by
    rintro rfl
    rw [new] at there
    cases there
  exact (Function.update_of_ne different ..).trans
    (survives.objects obj stored there)

theorem survives_reading (lib : Rebalancer FidNode)
    (tidy : Tidy root table) : Reading lib root (Survives table) := by
  intro calloc now fid survives
  have found := found_findOrCreateFid lib root calloc now fid
  generalize findOrCreateFid lib root calloc now fid = result at found
  cases found with
  | found search => exact survives
  | refused search refusal => exact survives
  | created search allocated room nodes heap next =>
      refine ⟨?_, ?_, ?_⟩
      · exact fun node member => nodes node (survives.nodes node member)
      · intro obj object there
        have different : obj ≠ now.next := by
          rintro rfl
          rw [tidy.unused _ survives.later] at there
          cases there
        dsimp only
        rw [heap, Function.update_of_ne different]
        exact survives.objects obj object there
      · dsimp only
        rw [next]
        exact Nat.le_succ_of_le survives.later

/-- Tables with all that was there, beside an object that was not. -/
def Beside (table : FidTable) (node : FidNode) (now : FidTable) : Prop :=
  table.heap node.obj = none ∧ Survives table now

/-- A fid that was not in the table has an object that was not there. -/
theorem beside_getFid (tidy : Tidy root table) {fid : UInt32}
    (absent : fidBefore table fid = none) {failed : FidTable → Prop} :
    Handles True (· = table) (getFid lib root env fid) (Beside table)
      failed := by
  refine handles_getFid fid ?_
  intro calloc first now node same outcome
  rw [same] at outcome
  have kept := survives_reading lib tidy calloc table fid (.refl table)
  have found := found_findOrCreateFid lib root calloc table fid
  rw [outcome] at kept found
  refine ⟨?_, kept⟩
  rw [fidBefore] at absent
  cases found with
  | found search =>
      rw [search] at absent
      exact absent
  | created search allocated room nodes heap next =>
      exact tidy.unused _ (Nat.le_refl _)

theorem beside_reading (tidy : Tidy root table) (node : FidNode) :
    Reading lib root (Beside table node) :=
  fun calloc now fid beside =>
    ⟨beside.1, survives_reading lib tidy calloc now fid beside.2⟩

theorem beside_assign (node : FidNode) (object : P9Fid)
    {failed : FidTable → Prop} :
    Handles True (Beside table node) (assign node object)
      (fun _ => Beside table node) failed :=
  handles_assign node fun _ beside =>
    ⟨beside.1, beside.2.write beside.1 object⟩

theorem beside_join (node : FidNode) (name : CString) :
    Handles True (Beside table node) (join node name)
      (fun _ => Beside table node) (Survives table) := by
  refine .bind (reading_deref node) fun object => ?_
  cases joinPath object name with
  | none => exact .errno fun _ beside => beside.2
  | some joined => exact beside_assign node joined

theorem beside_open (tidy : Tidy root table) {fid : UInt32}
    (absent : fidBefore table fid = none) :
    Handles True (· = table) (virtioP9Open lib root env fid)
      (fun _ _ => True) (Survives table) := by
  refine .bind (beside_getFid tidy absent) fun node => ?_
  refine .bind (reading_deref node) fun object => ?_
  refine .bind (handles_hostTry (fun _ beside => beside.2) _ _)
    fun _ => ?_
  refine .bind (handles_hostCall _ _) fun asDir => ?_
  refine .ite (fun _ => ?_) fun _ => ?_
  · refine .bind (handles_hostCall _ _) fun opened => ?_
    refine .bind (beside_assign node _) fun _ => ?_
    exact .ite (fun _ => .errno fun _ beside => beside.2) fun _ =>
      .pure fun _ _ => trivial
  · refine .bind (handles_hostCall _ _) fun asReg => ?_
    refine .ite (fun _ => ?_) fun _ => .errno fun _ beside => beside.2
    refine .bind (handles_hostCall _ _) fun opened => ?_
    refine .bind (beside_assign node _) fun _ => ?_
    exact .ite (fun _ => .errno fun _ beside => beside.2) fun _ =>
      .pure fun _ _ => trivial

theorem beside_create (tidy : Tidy root table) {dfid : UInt32}
    (absent : fidBefore table dfid = none) (name : PduString) :
    Handles True (· = table) (virtioP9Create lib root env dfid name)
      (fun _ _ => True) (Survives table) := by
  refine .bind (handles_readString fun _ => trivial) fun str => ?_
  refine .bind (beside_getFid tidy absent) fun node => ?_
  refine .bind (reading_deref node) fun object => ?_
  refine .bind (handles_getFullPath (fun _ beside => beside.2) object str)
    fun fullPath => ?_
  refine .ite (fun _ => .errno fun _ beside => beside.2) fun _ => ?_
  refine .bind (beside_assign node _) fun _ => ?_
  refine .ite (fun _ => .corrupt trivial) fun _ => ?_
  refine .bind (handles_hostTry (fun _ beside => beside.2) _ _)
    fun opened => ?_
  refine .bind (beside_assign node _) fun _ => ?_
  refine .bind (handles_hostTry (fun _ beside => beside.2) _ _)
    fun _ => ?_
  refine .bind (handles_hostTry (fun _ beside => beside.2) _ _)
    fun _ => ?_
  exact .pure fun _ _ => trivial

theorem beside_attach (tidy : Tidy root table) {fid : UInt32}
    (absent : fidBefore table fid = none) (uid : UInt32)
    (uname aname : PduString) :
    Handles True (· = table) (virtioP9Attach lib root env fid uid uname aname)
      (fun _ _ => True) (Survives table) := by
  refine .bind (handles_readString fun _ => trivial) fun _ => ?_
  refine .bind (handles_readString fun _ => trivial) fun _ => ?_
  refine .bind (handles_hostTry ?_ _ _) fun _ => ?_
  · rintro _ rfl
    exact .refl _
  · refine .bind (beside_getFid tidy absent) fun node => ?_
    refine .bind (reading_deref node) fun object => ?_
    refine .bind (beside_assign node _) fun _ => ?_
    exact (beside_join node [slash]).weaken (fun _ _ _ => trivial)
      fun _ survives => survives

theorem beside_walkLoop (fid newFid : FidNode) (nwname : UInt16)
    (names : Nat → PduString) (fuel turn : Nat) (i : UInt8) :
    Handles True (Beside table newFid)
      (walkLoop root env fid newFid nwname names fuel turn i)
      (fun _ _ => True) (Survives table) := by
  induction fuel generalizing turn i with
  | zero => exact .pure fun _ _ => trivial
  | succ fuel induction =>
      rw [walkLoop]
      refine .ite (fun _ => ?_) fun _ => .pure fun _ _ => trivial
      refine .bind (handles_readString fun _ => trivial) fun str => ?_
      refine .bind (reading_deref newFid) fun object => ?_
      refine .ite (fun _ => .errno fun _ beside => beside.2) fun _ => ?_
      refine .bind (handles_statRel (fun _ beside => beside.2) _)
        fun _ => ?_
      refine .bind (beside_join newFid _) fun _ => ?_
      refine .bind (reading_deref fid) fun source => ?_
      refine .bind (reading_deref newFid) fun joined => ?_
      refine .bind (beside_assign newFid _) fun _ => ?_
      exact induction (turn + 1) (i + 1)

theorem beside_walk (tidy : Tidy root table) {newfid : UInt32}
    (absent : fidBefore table newfid = none) (fid : UInt32)
    (nwname : UInt16) (names : Nat → PduString) :
    Handles True (· = table)
      (virtioP9Walk lib root env fid newfid nwname names)
      (fun _ _ => True) (Survives table) := by
  refine .bind (beside_getFid tidy absent) fun newNode => ?_
  refine .bind ((reading_getFid env (beside_reading tidy newNode) fid).weaken
    (fun _ _ beside => beside) fun _ beside => beside.2) fun node => ?_
  refine .bind (reading_deref node) fun old => ?_
  refine .bind (beside_join newNode old.path) fun _ => ?_
  refine .ite (fun _ => beside_walkLoop _ _ _ _ _ _ _) fun _ => ?_
  refine .bind (reading_deref newNode) fun joined => ?_
  refine .bind (reading_deref node) fun source => ?_
  exact (beside_assign newNode _).weaken (fun _ _ _ => trivial)
    fun _ survives => survives

/-- A removal reports no error. -/
theorem survives_clunk (tidy : Tidy root table) (fid : UInt32) :
    Handles True (Survives table) (virtioP9Clunk lib root env fid)
      (fun _ _ => True) (Survives table) :=
  reading_object env (survives_reading lib tidy) fid fun _ _ =>
    fun _ _ => ⟨⟨rfl, rfl⟩, trivial⟩

/-- Rewriting the paths reports no error. -/
theorem survives_renameFids (oldName newName : Option CString)
    (nodes : List FidNode) {before : FidTable → Prop} :
    Handles True before (renameFids oldName newName nodes) (fun _ _ => True)
      (Survives table) := by
  induction nodes generalizing before with
  | nil => exact .pure fun _ _ => trivial
  | cons node rest induction =>
      rw [renameFids]
      refine .bind (reading_deref node) fun object => ?_
      refine .ite (fun _ => induction) fun _ => ?_
      split
      · exact .crash
      · refine .ite (fun _ => ?_) fun _ => induction
        split
        · exact .crash
        case h_2 fixed _ =>
          have assigned :
              Handles True before (assign node fixed) (fun _ _ => True)
                (Survives table) :=
            handles_assign node fun _ _ => trivial
          exact .bind assigned fun _ => induction

theorem survives_renameat (tidy : Tidy root table)
    (oldDfid newDfid : UInt32) (oldName newName : PduString) :
    Handles True (Survives table)
      (virtioP9Renameat lib root env oldDfid newDfid oldName newName)
      (fun _ _ => True) (Survives table) := by
  refine .bind ((reading_renameatHost env (survives_reading lib tidy)
    oldDfid newDfid (fun _ => trivial) fun _ => trivial).weaken
      (fun _ _ ends => ends.1) fun _ survives => survives) fun names => ?_
  refine .bind handles_treeNodes fun nodes => ?_
  exact survives_renameFids names.1 names.2 nodes

end Surviving

/-! ## Reports -/

/-- If the result is an error that is reported, it leaves such a table. -/
def Reports (kept : FidTable → Prop) :
    EStateM.Result Stop P9State PUnit → Prop
  | .error (.errno _) now => kept now.table
  | _ => True

theorem reports_of_outcome {state : P9State}
    {after : PUnit → FidTable → Prop} {failed kept : FidTable → Prop}
    {result : EStateM.Result Stop P9State PUnit}
    {bursts : Prop} (outcome : Outcome bursts state after failed result)
    (implies : ∀ table, failed table → kept table) :
    Reports kept result := by
  cases result with
  | ok value now => trivial
  | error stop now =>
      cases stop with
      | errno number => exact implies now.table outcome.2
      | crash => trivial
      | corrupt => trivial

/-- A request of a server that runs. -/
def begun (state : P9State) : P9State :=
  { state with asked := 0, looked := 0 }

theorem atomic_iff_reports {lib : Rebalancer FidNode} {root : CString}
    {state : P9State} (tidy : Tidy root state.table)
    (living : state.dead = false) (input : P9Env × P9Request) :
    Atomic state (virtioP9DoIoRequest lib root state input) ↔
      Reports (FidsKept state.table)
        (virtio9pDotlHandler lib root input.1 input.2 (begun state)) := by
  have ends := tidy_handler lib input.1 input.2 (begun state) tidy
  have runs : ¬ state.dead = true := by
    rw [living]
    exact Bool.false_ne_true
  unfold begun at ends ⊢
  rw [Atomic, virtioP9DoIoRequest, if_neg runs]
  cases outcome :
      virtio9pDotlHandler lib root input.1 input.2
        { state with asked := 0, looked := 0 } with
  | ok value after =>
      refine iff_of_true ?_ trivial
      rintro ⟨number, same⟩
      cases (List.append_inj' same rfl).2
  | error stop after =>
      rw [outcome] at ends
      cases stop with
      | errno number =>
          refine
            ⟨fun atomic => atomic ⟨virtioP9ErrorReply number, ?_⟩,
              fun kept _ => kept⟩
          have replies : after.replies = state.replies := ends.1.replies
          dsimp only
          rw [replies]
      | crash =>
          refine iff_of_true ?_ trivial
          rintro ⟨number, same⟩
          have replies : after.replies = state.replies := ends.replies
          have longer := congrArg List.length same
          simp [replies] at longer
      | corrupt =>
          refine iff_of_true ?_ trivial
          rintro ⟨number, same⟩
          have replies : after.replies = state.replies := ends.1.replies
          have longer := congrArg List.length same
          simp [replies] at longer

/-! ## Fids that were there -/

/-- Writing a fid that was there keeps it if nothing of it changes. -/
theorem fidsKept_written_iff {table now : FidTable}
    (survives : Survives table now) {node : FidNode}
    (member : node ∈ table.tree.inorder) {object new : P9Fid}
    (there : table.heap node.obj = some object) :
    FidsKept table (written now node new) ↔ SameFid object new := by
  constructor
  · intro kept
    obtain ⟨-, stored, found, same⟩ := kept node member object there
    cases (Function.update_self ..).symm.trans found
    exact same
  · intro same other otherMember second found
    refine ⟨survives.nodes other otherMember, ?_⟩
    by_cases shared : other.obj = node.obj
    · rw [shared, there] at found
      cases found
      refine ⟨new, ?_, same⟩
      rw [shared]
      exact Function.update_self ..
    · refine ⟨second, ?_, ⟨rfl, rfl, rfl, rfl⟩⟩
      exact (Function.update_of_ne shared ..).trans
        (survives.objects other.obj second found)

section Answers

variable {lib : Rebalancer FidNode} {root : CString} {env : P9Env}
  {kept : FidTable → Prop} {Value : Type}

/-- The error that a handler may report leaves such a table. -/
def Answers (kept : FidTable → Prop) (handler : P9M PUnit)
    (state : P9State) : Prop :=
  Reports kept (handler state)

theorem answers_bind_ok {first : P9M Value} {next : Value → P9M PUnit}
    {state now : P9State} {value : Value}
    (ok : first state = .ok value now) :
    Answers kept (first >>= next) state ↔ Answers kept (next value) now := by
  rw [Answers, bind_of_ok ok, Answers]

theorem answers_bind_errno {first : P9M Value} {next : Value → P9M PUnit}
    {state now : P9State} {number : Int}
    (failure : first state = .error (.errno number) now) :
    Answers kept (first >>= next) state ↔ kept now.table := by
  show Reports kept (EStateM.bind first next state) ↔ _
  rw [EStateM.bind, failure]
  rfl

theorem answers_bind_crash {first : P9M Value} {next : Value → P9M PUnit}
    {state now : P9State} (failure : first state = .error .crash now) :
    Answers kept (first >>= next) state := by
  show Reports kept (EStateM.bind first next state)
  rw [EStateM.bind, failure]
  trivial

theorem getFid_of_some {fid : UInt32} {state : P9State} {now : FidTable}
    {node : FidNode}
    (outcome :
      findOrCreateFid lib root (env.calloc state.looked) state.table fid =
        (now, some node)) :
    getFid lib root env fid state =
      .ok node
        { state with table := now, looked := state.looked + 1 } := by
  rw [getFid, outcome]

theorem getFid_of_none {fid : UInt32} {state : P9State} {now : FidTable}
    (outcome :
      findOrCreateFid lib root (env.calloc state.looked) state.table fid =
        (now, none)) :
    getFid lib root env fid state =
      .error .crash
        { state with table := now, looked := state.looked + 1 } := by
  rw [getFid, outcome]

theorem answers_getFid {fid : UInt32} {next : FidNode → P9M PUnit}
    {state : P9State} {node : FidNode}
    (found : state.table.tree.search (lookupOrder fid) = some node) :
    Answers kept (getFid lib root env fid >>= next) state ↔
      Answers kept (next node)
        { state with looked := state.looked + 1 } := by
  refine answers_bind_ok ?_
  rw [getFid, findOrCreateFid, found]

theorem answers_deref {node : FidNode} {next : P9Fid → P9M PUnit}
    {state : P9State} {object : P9Fid}
    (there : state.table.heap node.obj = some object) :
    Answers kept (deref node >>= next) state ↔
      Answers kept (next object) state := by
  refine answers_bind_ok ?_
  rw [deref, there]

theorem answers_deref_none {node : FidNode} {next : P9Fid → P9M PUnit}
    {state : P9State} (absent : state.table.heap node.obj = none) :
    Answers kept (deref node >>= next) state := by
  have failure : deref node state = .error .crash state := by
    rw [deref, absent]
  exact answers_bind_crash failure

theorem answers_hostCall {op : HostOp} {paths : List CString}
    {next : HostAnswer → P9M PUnit} {state : P9State} :
    Answers kept (hostCall env op paths >>= next) state ↔
      Answers kept (next (env.host state.asked))
        { state with
          calls := state.calls ++ [⟨op, paths⟩]
          asked := state.asked + 1 } :=
  answers_bind_ok rfl

theorem answers_hostTry {op : HostOp} {paths : List CString}
    {next : HostAnswer → P9M PUnit} {state : P9State} :
    Answers kept (hostTry env op paths >>= next) state ↔
      if (env.host state.asked).ret < 0 then
        kept state.table
      else
        Answers kept (next (env.host state.asked))
          { state with
            calls := state.calls ++ [⟨op, paths⟩]
            asked := state.asked + 1 } := by
  split
  case isTrue negative =>
    have failure :
        hostTry env op paths state =
          .error (.errno (env.host state.asked).errno)
            { state with
              calls := state.calls ++ [⟨op, paths⟩]
              asked := state.asked + 1 } := by
      show
        (if (env.host state.asked).ret < 0 then
            throw (.errno (env.host state.asked).errno)
          else
            pure (env.host state.asked) : P9M HostAnswer) _ = _
      rw [if_pos negative]
      rfl
    exact Iff.trans (answers_bind_errno failure) Iff.rfl
  case isFalse fine =>
    refine answers_bind_ok ?_
    show
      (if (env.host state.asked).ret < 0 then
          throw (.errno (env.host state.asked).errno)
        else
          pure (env.host state.asked) : P9M HostAnswer) _ = _
    rw [if_neg fine]
    rfl

theorem answers_assign {node : FidNode} {object : P9Fid}
    {next : PUnit → P9M PUnit} {state : P9State} :
    Answers kept (assign node object >>= next) state ↔
      Answers kept (next ⟨⟩)
        { state with table := written state.table node object } :=
  answers_bind_ok rfl

theorem answers_errno {number : Int} {state : P9State} :
    Answers kept (throw (.errno number)) state ↔ kept state.table :=
  Iff.rfl

theorem answers_pure {state : P9State} :
    Answers kept (pure ⟨⟩) state ↔ True :=
  Iff.rfl

theorem answers_ite {condition : Prop} [Decidable condition]
    {first second : P9M PUnit} {state : P9State} :
    Answers kept (if condition then first else second) state ↔
      if condition then Answers kept first state
      else Answers kept second state := by
  split <;> rfl

theorem answers_corrupt {state : P9State} :
    Answers kept (throw .corrupt) state ↔ True :=
  Iff.rfl

theorem answers_readString {str : PduString} (fits : str ≠ .overrun)
    {next : Option CString → P9M PUnit} {state : P9State} :
    Answers kept (readString str >>= next) state ↔
      Answers kept (next (text str)) state := by
  cases str with
  | overrun => exact absurd rfl fits
  | _ => exact Iff.rfl

theorem answers_getFullPath {object : P9Fid} {name : Option CString}
    {next : CString → P9M PUnit} {state : P9State} :
    Answers kept (getFullPath object name >>= next) state ↔
      match getFullPathHelper object.absPath (printed name) with
      | .error _ => kept state.table
      | .ok fullPath => Answers kept (next fullPath) state := by
  rw [getFullPath]
  cases getFullPathHelper object.absPath (printed name) with
  | error number => exact Iff.rfl
  | ok fullPath => exact Iff.rfl

theorem answers_statRel {path : CString}
    {next : HostAnswer → P9M PUnit} {state : P9State} :
    Answers kept (statRel root env path >>= next) state ↔
      match getFullPathHelper root path with
      | .error _ => kept state.table
      | .ok fullPath =>
          if (env.host state.asked).ret < 0 then
            kept state.table
          else
            Answers kept (next (env.host state.asked))
              { state with
                calls := state.calls ++ [⟨.lstat, [fullPath]⟩]
                asked := state.asked + 1 } := by
  rw [statRel]
  cases getFullPathHelper root path with
  | error number => exact Iff.rfl
  | ok fullPath => exact answers_hostTry

theorem answers_join {node : FidNode} {name : CString}
    {next : PUnit → P9M PUnit} {state : P9State} {object : P9Fid}
    (there : state.table.heap node.obj = some object) :
    Answers kept (join node name >>= next) state ↔
      if name.length ≥ pathRoom object then
        kept state.table
      else
        Answers kept (next ⟨⟩)
          { state with
            table := written state.table node (setPath object name) } := by
  have read : deref node state = .ok object state := by
    unfold deref
    simp only [there]
  split
  case isTrue long =>
    have joined : joinPath object name = none := if_pos long
    have run : join node name state = .error (.errno eNameTooLong) state := by
      unfold join
      rw [bind_of_ok read, joined]
      rfl
    exact answers_bind_errno run
  case isFalse short =>
    have joined : joinPath object name = some (setPath object name) :=
      if_neg short
    have run :
        join node name state =
          assign node (setPath object name) state := by
      unfold join
      rw [bind_of_ok read, joined]
    exact answers_bind_ok run

end Answers

section Existing

variable {lib : Rebalancer FidNode} {root : CString} {env : P9Env}

theorem sameFid_dir (object : P9Fid) (dir : Option Nat) :
    SameFid object { object with dir := dir } ↔ object.dir = dir :=
  ⟨fun same => same.dir.symm, fun equal => ⟨rfl, rfl, rfl, equal.symm⟩⟩

theorem sameFid_fd (object : P9Fid) (fd : Int) :
    SameFid object { object with fd := fd } ↔ object.fd = fd :=
  ⟨fun same => same.fd.symm, fun equal => ⟨rfl, rfl, equal.symm, rfl⟩⟩

theorem sameFid_uid (object : P9Fid) (uid : UInt32) :
    SameFid object { object with uid := uid } ↔ object.uid = uid :=
  ⟨fun same => same.uid.symm, fun equal => ⟨rfl, equal.symm, rfl, rfl⟩⟩

theorem written_written (table : FidTable) (node : FidNode)
    (first second : P9Fid) :
    written (written table node first) node second =
      written table node second := by
  rw [written, written, written, Function.update_idem]

section Found

variable {state : P9State} (first : state.asked = 0) {fid : UInt32}
  {node : FidNode}
  (found : state.table.tree.search (lookupOrder fid) = some node)
  {object : P9Fid} (there : state.table.heap node.obj = some object)

include found there

theorem fidsKept_found_iff (new : P9Fid) :
    FidsKept state.table (written state.table node new) ↔
      SameFid object new :=
  fidsKept_written_iff (.refl _) (TreeOf.search_sound found).1 there

include first

theorem open_answers_iff :
    Answers (FidsKept state.table) (virtioP9Open lib root env fid)
        state ↔
      OpenKeeps env object := by
  have same : FidsKept state.table state.table :=
    (Survives.refl _).fidsKept
  have write := fidsKept_found_iff found there
  refine Iff.trans (answers_getFid found) ?_
  refine Iff.trans (answers_deref there) ?_
  simp only [answers_hostTry, answers_hostCall, answers_ite,
    answers_assign, answers_errno, answers_pure, write, first,
    sameFid_dir, sameFid_fd]
  rw [OpenKeeps]
  by_cases seen : (env.host 0).ret < 0
  · rw [if_pos seen]
    exact iff_of_true same fun fine => absurd seen (Int.not_lt.mpr fine)
  · rw [if_neg seen, forall_prop_of_true (Int.not_lt.mp seen)]
    by_cases directory : (env.host 1).isDir = true
    · rw [if_pos directory, if_pos directory]
      by_cases negative : (env.host 2).ret < 0
      · rw [if_pos negative, if_pos negative,
          forall_prop_of_true negative]
      · rw [if_neg negative]
        exact iff_of_true trivial fun failure => absurd failure negative
    · rw [if_neg directory, if_neg directory]
      by_cases regular : (env.host 2).isReg = true
      · rw [if_pos regular, forall_prop_of_true regular]
        by_cases negative : (env.host 3).ret < 0
        · rw [if_pos negative, forall_prop_of_true negative]
        · rw [if_neg negative]
          exact iff_of_true trivial fun failure => absurd failure negative
      · rw [if_neg regular]
        exact iff_of_true same fun yes => absurd yes regular

theorem create_answers_iff (shaped : Shaped root object)
    {name : PduString} (fits : name ≠ .overrun) :
    Answers (FidsKept state.table) (virtioP9Create lib root env fid name)
        state ↔
      CreateKeeps env object name := by
  have same : FidsKept state.table state.table :=
    (Survives.refl _).fidsKept
  have write := fidsKept_found_iff found there
  rw [CreateKeeps]
  refine Iff.trans (answers_readString fits) ?_
  refine Iff.trans (answers_getFid found) ?_
  refine Iff.trans (answers_deref there) ?_
  refine Iff.trans answers_getFullPath ?_
  split
  case h_1 number refusal =>
    refine iff_of_true same ?_
    rintro - ⟨fullPath, formed⟩
    rw [refusal] at formed
    cases formed
  case h_2 fullPath formed =>
    simp only [answers_hostTry, answers_ite, answers_assign, answers_errno,
      answers_pure, answers_corrupt, written_written, write, first]
    have room := extended_fits (shaped.offset.trans_le shaped.behind) formed
    have whole := List.take_of_length_le (Nat.le_sub_one_of_lt room)
    rw [if_neg (Nat.not_le.mpr room), whole]
    have longer : ∀ now : P9Fid,
        now.path = (setPath object
          (object.path ++ slash :: printed (text name))).path →
        ¬ SameFid object now := by
      intro now path same
      have equal := congrArg List.length (path.symm.trans same.path)
      rw [shaped.path_setPath, List.length_append, List.length_cons]
        at equal
      omega
    by_cases copied : env.strdup = true
    · rw [if_neg (by rw [copied]; decide), forall_prop_of_true copied,
        forall_prop_of_true ⟨fullPath, formed⟩]
      split
      case isTrue negative =>
        refine iff_of_false (longer _ rfl) fun fine => ?_
        exact absurd negative (Int.not_lt.mpr fine.1)
      case isFalse opened =>
        split
        case isTrue negative =>
          refine iff_of_false (longer _ rfl) fun fine => ?_
          exact absurd negative (Int.not_lt.mpr fine.2.1)
        case isFalse looked =>
          split
          case isTrue negative =>
            refine iff_of_false (longer _ rfl) fun fine => ?_
            exact absurd negative (Int.not_lt.mpr fine.2.2)
          case isFalse set =>
            refine iff_of_true trivial ⟨?_, ?_, ?_⟩
            · exact Int.not_lt.mp opened
            · exact Int.not_lt.mp looked
            · exact Int.not_lt.mp set
    · rw [if_pos (by simpa using copied)]
      exact iff_of_true same fun yes => absurd yes copied

theorem attach_answers_iff (shaped : Shaped root object) (uid : UInt32)
    {uname aname : PduString} (unameFits : uname ≠ .overrun)
    (anameFits : aname ≠ .overrun) :
    Answers (FidsKept state.table)
        (virtioP9Attach lib root env fid uid uname aname) state ↔
      AttachKeeps root env object uid := by
  have same : FidsKept state.table state.table :=
    (Survives.refl _).fidsKept
  have write := fidsKept_found_iff found there
  rw [AttachKeeps]
  refine Iff.trans (answers_readString unameFits) ?_
  refine Iff.trans (answers_readString anameFits) ?_
  refine Iff.trans answers_hostTry ?_
  rw [first]
  split
  case isTrue negative =>
    exact iff_of_true same fun fine =>
      absurd negative (Int.not_lt.mpr fine)
  case isFalse fine =>
    rw [forall_prop_of_true (Int.not_lt.mp fine)]
    refine Iff.trans (answers_getFid found) ?_
    refine Iff.trans (answers_deref there) ?_
    refine Iff.trans answers_assign ?_
    refine Iff.trans (answers_deref (Function.update_self ..)) ?_
    have bound := shaped.behind
    have short := shaped.short
    rw [joinPath]
    by_cases room : root.length + 1 < pathMax
    · rw [if_neg]
      · exact iff_of_true trivial (Or.inl room)
      · rw [pathRoom, shaped.offset, List.length_singleton]
        omega
    · rw [if_pos, or_iff_right room]
      · exact (write _).trans (sameFid_uid object uid)
      · rw [pathRoom, shaped.offset, List.length_singleton]
        omega

end Found

/-! ## Walks -/

section Walk

/-- At most one turn fails. -/
theorem WalkFails.unique {start : CString} {nwname : UInt16}
    {names : Nat → PduString} {first second : Nat}
    (fails : WalkFails root env start nwname names first)
    (other : WalkFails root env start nwname names second) :
    first = second := by
  rcases Nat.lt_trichotomy first second with before | same | behind
  · exact absurd (other.reached.passed first before) fails.stopped
  · exact same
  · exact absurd (fails.reached.passed second behind) other.stopped

theorem WalkReaches.start {start : CString} {nwname : UInt16}
    {names : Nat → PduString} :
    WalkReaches root env start nwname names 0 :=
  ⟨fun turn before => absurd before (Nat.not_lt_zero turn),
    fun turn before => absurd before (Nat.not_lt_zero turn)⟩

theorem WalkReaches.succ {start : CString} {nwname : UInt16}
    {names : Nat → PduString} {turn : Nat}
    (reaches : WalkReaches root env start nwname names turn)
    (counted : turn % 256 < nwname.toNat)
    (passes : WalkPasses root env start names turn) :
    WalkReaches root env start nwname names (turn + 1) := by
  refine ⟨?_, ?_⟩
  · intro earlier before
    rcases Nat.lt_succ_iff_lt_or_eq.mp before with former | rfl
    · exact reaches.counted earlier former
    · exact counted
  · intro earlier before
    rcases Nat.lt_succ_iff_lt_or_eq.mp before with former | rfl
    · exact reaches.passed earlier former
    · exact passes

/-- A walk that does not fail where it has come to does not fail there. -/
theorem WalkReaches.no_failure {start : CString} {nwname : UInt16}
    {names : Nat → PduString} {turn : Nat}
    (reaches : WalkReaches root env start nwname names turn)
    (ends : ¬ turn % 256 < nwname.toNat) (other : Nat) :
    ¬ WalkFails root env start nwname names other := by
  intro fails
  rcases Nat.lt_trichotomy other turn with before | rfl | behind
  · exact fails.stopped (reaches.passed other before)
  · exact ends fails.counted
  · exact ends (fails.reached.counted turn behind)

/-- A path grows with every turn. -/
theorem turn_le_walkedPath_length (start : CString)
    (names : Nat → PduString) (turn : Nat) :
    turn ≤ (walkedPath start names turn).length := by
  induction turn with
  | zero => exact Nat.zero_le _
  | succ turn induction =>
      rw [walkedPath, List.length_append, List.length_cons]
      omega

/-- There is room for all the turns that are reached. -/
theorem WalkReaches.turn_le {start : CString} {nwname : UInt16}
    {names : Nat → PduString} {turn : Nat}
    (reaches : WalkReaches root env start nwname names turn) :
    turn ≤ pathMax := by
  cases turn with
  | zero => exact Nat.zero_le _
  | succ turn =>
      obtain ⟨fullPath, formed⟩ :=
        (reaches.passed turn (Nat.lt_succ_self turn)).fits
      have short := length_of_getFullPathHelper formed
      have long := turn_le_walkedPath_length start names (turn + 1)
      omega

theorem walk_iff_of_fails {object source : P9Fid} {nwname : UInt16}
    {names : Nat → PduString} {turn : Nat}
    (fails : WalkFails root env source.path nwname names turn) :
    WalkKeeps root env object source nwname names ↔
      object.path = walkedPath source.path names turn ∧
        (turn = 0 ∨ object.uid = source.uid) := by
  constructor
  · intro keeps
    exact keeps turn fails
  · intro here other otherFails
    rw [otherFails.unique fails]
    exact here

section Loop

variable {table now : FidTable} (survives : Survives table now)
  {newNode node : FidNode} (member : newNode ∈ table.tree.inorder)
  {object source : P9Fid}
  (there : table.heap newNode.obj = some object)
  (origin : now.heap node.obj = some source)

include survives member there

/-- A walk that fails has written what it has come to. -/
theorem walk_written_iff {nwname : UInt16} {names : Nat → PduString}
    {turn : Nat}
    (fails : WalkFails root env source.path nwname names turn)
    {cur : P9Fid}
    (path : cur.path = walkedPath source.path names turn)
    (uid : cur.uid = if turn = 0 then object.uid else source.uid)
    (fd : cur.fd = object.fd) (dir : cur.dir = object.dir) :
    FidsKept table (written now newNode cur) ↔
      WalkKeeps root env object source nwname names := by
  rw [fidsKept_written_iff survives member there, walk_iff_of_fails fails]
  constructor
  · intro same
    refine ⟨same.path.symm.trans path, ?_⟩
    by_cases zero : turn = 0
    · exact Or.inl zero
    · rw [if_neg zero] at uid
      exact Or.inr (same.uid.symm.trans uid)
  · rintro ⟨place, user⟩
    refine ⟨path.trans place.symm, ?_, fd, dir⟩
    by_cases zero : turn = 0
    · rw [uid, if_pos zero]
    · rw [uid, if_neg zero]
      exact (user.resolve_left zero).symm

include origin

omit member in
/-- The user of the fid that a walk starts at stays the same. -/
theorem walk_source_uid {turn : Nat} {joined : P9Fid}
    (uid : joined.uid = if turn = 0 then object.uid else source.uid) :
    ∃ current, (written now newNode joined).heap node.obj = some current ∧
      current.uid = source.uid := by
  by_cases shared : node.obj = newNode.obj
  · have same : object = source := by
      have kept := survives.objects newNode.obj object there
      rw [← shared, origin] at kept
      exact (Option.some.inj kept).symm
    refine ⟨joined, ?_, ?_⟩
    · rw [shared]
      exact Function.update_self ..
    · rw [uid, same, ite_self]
  · refine ⟨source, ?_, rfl⟩
    exact (Function.update_of_ne shared ..).trans origin

theorem walkLoop_answers_iff {nwname : UInt16} {names : Nat → PduString}
    (fit : ∀ turn, names turn ≠ .overrun) (fuel : Nat) {turn : Nat} (enough : turn + fuel = pathMax + 1)
    (reaches : WalkReaches root env source.path nwname names turn)
    {cur : P9Fid} (shaped : Shaped root cur)
    (path : cur.path = walkedPath source.path names turn)
    (uid : cur.uid = if turn = 0 then object.uid else source.uid)
    (fd : cur.fd = object.fd) (dir : cur.dir = object.dir)
    {state : P9State} (asked : state.asked = turn)
    (written' : state.table = written now newNode cur) :
    Answers (FidsKept table)
        (walkLoop root env node newNode nwname names fuel turn
          (UInt8.ofNat turn)) state ↔
      WalkKeeps root env object source nwname names := by
  induction fuel generalizing turn cur state with
  | zero =>
      have bound := reaches.turn_le
      omega
  | succ fuel induction =>
      have failure : ∀ (fails :
          WalkFails root env source.path nwname names turn),
          FidsKept table state.table ↔
            WalkKeeps root env object source nwname names := by
        intro fails
        rw [written']
        exact walk_written_iff survives member there fails path uid fd dir
      have counter : (UInt8.ofNat turn).toNat = turn % 256 :=
        UInt8.toNat_ofNat'
      rw [walkLoop, counter]
      by_cases counted : turn % 256 < nwname.toNat
      · rw [if_pos counted]
        refine Iff.trans (answers_readString (fit turn)) ?_
        have here : state.table.heap newNode.obj = some cur := by
          rw [written']
          exact Function.update_self ..
        refine Iff.trans (answers_deref here) ?_
        have next :
            cur.path ++ slash :: printed (text (names turn)) =
              walkedPath source.path names (turn + 1) := by
          rw [path, walkedPath]
        rw [next]
        refine Iff.trans answers_ite ?_
        have stops : ¬ WalkPasses root env source.path names turn →
            WalkFails root env source.path nwname names turn :=
          fun stopped => ⟨reaches, counted, stopped⟩
        split
        case isTrue long =>
          refine failure (stops fun passes => ?_)
          obtain ⟨fullPath, formed⟩ := passes.fits
          have short := length_of_getFullPathHelper formed
          omega
        case isFalse =>
          refine Iff.trans answers_statRel ?_
          split
          case h_1 number refusal =>
            refine failure (stops fun passes => ?_)
            obtain ⟨fullPath, formed⟩ := passes.fits
            rw [refusal] at formed
            cases formed
          case h_2 fullPath formed =>
            rw [asked]
            split
            case isTrue negative =>
              refine failure (stops fun passes => ?_)
              exact absurd negative (Int.not_lt.mpr passes.seen)
            case isFalse seen =>
              have passes : WalkPasses root env source.path names turn :=
                ⟨⟨fullPath, formed⟩, Int.not_lt.mp seen⟩
              have short := length_of_getFullPathHelper formed
              have room :
                  (walkedPath source.path names (turn + 1)).length <
                    pathRoom cur := by
                rw [pathRoom, shaped.offset]
                omega
              refine Iff.trans (answers_join here) ?_
              rw [if_neg (Nat.not_le.mpr room)]
              have joinedShaped := shaped.setPath room
              have tables : ∀ new,
                  written state.table newNode new =
                    written now newNode new := by
                intro new
                rw [written', written_written]
              obtain ⟨current, present, user⟩ :=
                walk_source_uid survives there origin
                  (show (setPath cur
                      (walkedPath source.path names (turn + 1))).uid = _
                    from uid)
              rw [← tables] at present
              refine Iff.trans (answers_deref present) ?_
              refine Iff.trans
                (answers_deref (Function.update_self ..)) ?_
              refine Iff.trans answers_assign ?_
              rw [← UInt8.ofNat_one, ← UInt8.ofNat_add]
              refine induction (by omega) (reaches.succ counted passes)
                (joinedShaped.congr current.uid _ _) ?_ ?_ fd dir rfl ?_
              · exact shaped.path_setPath _
              · rw [if_neg (Nat.succ_ne_zero turn)]
                exact user
              · show written (written state.table newNode _) newNode _ = _
                rw [tables, written_written]
                rfl
      · rw [if_neg counted]
        refine iff_of_true trivial ?_
        intro other fails
        exact absurd fails
          (reaches.no_failure counted other)

end Loop

section Whole

/-- A walk once both fids are looked up. -/
theorem walkFrom_answers_iff {table now : FidTable}
    (survives : Survives table now) {newNode node : FidNode}
    (member : newNode ∈ table.tree.inorder) {object source : P9Fid}
    (there : table.heap newNode.obj = some object)
    (origin : now.heap node.obj = some source)
    (objectShaped : Shaped root object) (sourceShaped : Shaped root source)
    {nwname : UInt16} {names : Nat → PduString}
    (fit : ∀ turn, names turn ≠ .overrun) {state : P9State}
    (asked : state.asked = 0) (current : state.table = now) :
    Answers (FidsKept table)
        (do
          let old ← deref node
          join newNode old.path
          if nwname ≠ 0 then
            walkLoop root env node newNode nwname names (pathMax + 1) 0 0
          else
            let joined ← deref newNode
            let old ← deref node
            assign newNode { joined with uid := old.uid })
        state ↔
      WalkKeeps root env object source nwname names := by
  subst current
  refine Iff.trans (answers_deref origin) ?_
  refine Iff.trans
    (answers_join (survives.objects newNode.obj object there)) ?_
  have room : source.path.length < pathRoom object := by
    rw [pathRoom, objectShaped.offset]
    exact sourceShaped.path_length
  rw [if_neg (Nat.not_le.mpr room)]
  refine Iff.trans answers_ite ?_
  split
  case isTrue some =>
    refine walkLoop_answers_iff survives member there origin fit
      (pathMax + 1) (Nat.zero_add _) WalkReaches.start (objectShaped.setPath room)
      (objectShaped.path_setPath source.path) ?_ rfl rfl asked rfl
    rfl
  case isFalse none =>
    rw [not_not] at none
    obtain ⟨old, present, -⟩ :=
      walk_source_uid survives there origin
        (show (setPath object source.path).uid = if 0 = 0 then _ else _
          from rfl)
    refine Iff.trans (answers_deref (Function.update_self ..)) ?_
    refine Iff.trans (answers_deref present) ?_
    refine iff_of_true trivial ?_
    intro turn fails
    have counted := fails.counted
    rw [none] at counted
    exact absurd counted (Nat.not_lt_zero _)

theorem walk_answers_iff {state : P9State}
    (tidy : Tidy root state.table) (asked : state.asked = 0)
    (looked : state.looked = 0) {newfid : UInt32} {newNode : FidNode}
    (found : state.table.tree.search (lookupOrder newfid) = some newNode)
    {object : P9Fid}
    (there : state.table.heap newNode.obj = some object) (fid : UInt32)
    (nwname : UInt16) {names : Nat → PduString}
    (fit : ∀ turn, names turn ≠ .overrun) :
    Answers (FidsKept state.table)
        (virtioP9Walk lib root env fid newfid nwname names) state ↔
      ∀ source ∈ walkSource root env state.table fid,
        WalkKeeps root env object source nwname names := by
  have member := (TreeOf.search_sound found).1
  have shaped := tidy.shaped _ _ there
  have room : root.length < pathMax :=
    Nat.lt_of_le_of_lt shaped.behind shaped.short
  refine Iff.trans (answers_getFid found) ?_
  have survives :=
    survives_reading lib tidy (env.calloc (state.looked + 1)) state.table
      fid (.refl _)
  have tidyNow : Tidy root
      (findOrCreateFid lib root (env.calloc (state.looked + 1)) state.table
        fid).1 :=
    tidy_reading _ state.table fid tidy
  have second :=
    found_findOrCreateFid lib root (env.calloc (state.looked + 1))
      state.table fid
  cases outcome :
      findOrCreateFid lib root (env.calloc (state.looked + 1)) state.table
        fid with
  | mk now result =>
      rw [outcome] at survives tidyNow second
      have goesOn : ∀ node, result = some node →
          now.heap node.obj = walkSource root env state.table fid →
          (Answers (FidsKept state.table)
              (getFid lib root env fid >>= fun node => do
                let old ← deref node
                join newNode old.path
                if nwname ≠ 0 then
                  walkLoop root env node newNode nwname names (pathMax + 1)
                    0 0
                else
                  let joined ← deref newNode
                  let old ← deref node
                  assign newNode { joined with uid := old.uid })
              { state with looked := state.looked + 1 } ↔
            ∀ source ∈ walkSource root env state.table fid,
              WalkKeeps root env object source nwname names) := by
        rintro node rfl heap
        refine Iff.trans (answers_bind_ok (getFid_of_some outcome)) ?_
        rw [← heap]
        cases origin : now.heap node.obj with
        | none => exact iff_of_true (answers_deref_none origin) nofun
        | some source =>
            refine Iff.trans
              (walkFrom_answers_iff survives member there origin shaped
                (tidyNow.shaped _ _ origin) fit asked rfl) ?_
            simp
      cases second with
      | found search =>
          refine goesOn _ rfl ?_
          rw [walkSource, search]
      | refused search refusal =>
          have none : walkSource root env state.table fid = none := by
            rw [walkSource, search]
            rw [looked] at refusal
            exact if_neg fun allocated => refusal ⟨allocated, room⟩
          rw [none]
          refine iff_of_true ?_ nofun
          exact answers_bind_crash (getFid_of_none outcome)
      | created search allocated _ nodes heap next =>
          refine goesOn _ rfl ?_
          rw [looked] at allocated
          rw [walkSource, search, heap]
          exact (Function.update_self ..).trans (if_pos allocated).symm

end Whole

end Walk

end Existing

/-! ## Every request -/

section Requests

variable {lib : Rebalancer FidNode} {root : CString}

/-- A fid is in the table with an object, or it has none there. -/
theorem fidBefore_cases (table : FidTable) (fid : UInt32) :
    fidBefore table fid = none ∨
      ∃ node object, fidBefore table fid = some object ∧
        table.tree.search (lookupOrder fid) = some node ∧
        table.heap node.obj = some object := by
  rw [fidBefore]
  cases search : table.tree.search (lookupOrder fid) with
  | none => exact Or.inl rfl
  | some node =>
      cases there : table.heap node.obj with
      | none => exact Or.inl there
      | some object => exact Or.inr ⟨node, object, there, rfl, there⟩

/-- A request on a fid that is not in the table keeps all that are. -/
theorem keeps_of_absent {table : FidTable} {fid : UInt32}
    (absent : fidBefore table fid = none) (condition : P9Fid → Prop) :
    (∀ object ∈ fidBefore table fid, condition object) ↔ True := by
  rw [absent]
  exact iff_of_true nofun trivial

theorem keeps_of_present {table : FidTable} {fid : UInt32}
    {object : P9Fid} (present : fidBefore table fid = some object)
    (condition : P9Fid → Prop) :
    (∀ other ∈ fidBefore table fid, condition other) ↔
      condition object := by
  rw [present]
  simp

theorem handler_keeps_iff {env : P9Env} {state : P9State}
    (tidy : Tidy root state.table) (asked : state.asked = 0)
    (looked : state.looked = 0) {request : P9Request}
    (fits : StringsFit request) :
    Reports (FidsKept state.table)
        (virtio9pDotlHandler lib root env request state) ↔
      RequestKeeps root env state.table request := by
  have survivors : ∀ {before : FidTable → Prop} {handler : P9M PUnit}
      {after : PUnit → FidTable → Prop},
      Handles True before handler after (Survives state.table) →
      before state.table →
      Reports (FidsKept state.table) (handler state) :=
    fun handles start =>
      reports_of_outcome (handles state start) fun _ survives =>
        survives.fidsKept
  have reading := survives_reading lib tidy
  by_cases reads : writesFids request = false
  · refine iff_of_true
      (survivors (reading_handler env reading reads fun _ => trivial)
        (.refl _)) ?_
    cases request <;> trivial
  · cases request with
    | «open» fid =>
        rcases fidBefore_cases state.table fid with
          absent | ⟨node, object, present, found, there⟩
        · rw [RequestKeeps, keeps_of_absent absent, iff_true]
          exact survivors (beside_open tidy absent) rfl
        · rw [RequestKeeps, keeps_of_present present]
          exact open_answers_iff asked found there
    | create dfid name =>
        rcases fidBefore_cases state.table dfid with
          absent | ⟨node, object, present, found, there⟩
        · rw [RequestKeeps, keeps_of_absent absent, iff_true]
          exact survivors (beside_create tidy absent name) rfl
        · rw [RequestKeeps, keeps_of_present present]
          exact
            create_answers_iff asked found there
              (tidy.shaped _ _ there) fits
    | attach fid uid uname aname =>
        rcases fidBefore_cases state.table fid with
          absent | ⟨node, object, present, found, there⟩
        · rw [RequestKeeps, keeps_of_absent absent, iff_true]
          exact survivors (beside_attach tidy absent uid uname aname) rfl
        · rw [RequestKeeps, keeps_of_present present]
          exact
            attach_answers_iff asked found there
              (tidy.shaped _ _ there) uid fits.1 fits.2
    | walk fid newfid nwname names =>
        rcases fidBefore_cases state.table newfid with
          absent | ⟨node, object, present, found, there⟩
        · rw [RequestKeeps, keeps_of_absent absent, iff_true]
          exact survivors (beside_walk tidy absent fid nwname names) rfl
        · rw [RequestKeeps, keeps_of_present present]
          exact
            walk_answers_iff tidy asked looked found there fid nwname fits
    | clunk fid =>
        exact
          iff_of_true (survivors (survives_clunk tidy fid) (.refl _))
            trivial
    | renameat oldDfid newDfid oldName newName =>
        exact
          iff_of_true
            (survivors (survives_renameat tidy _ _ oldName newName)
              (.refl _))
            trivial
    | _ => exact absurd rfl reads

end Requests

/--
In every state that requests lead to, a further request that fails keeps all
fids there are if and only if the server has died, or the request is not one
of the four that write before they fail, or writes what there was.  No string
may have the length that overruns its buffer, now or earlier: nothing is
known of the fids after that.
-/
theorem failed_request_atomic_iff (lib : Rebalancer FidNode)
    (root : CString) (inputs : List (P9Env × P9Request))
    (input : P9Env × P9Request)
    (fit : ∀ request ∈ inputs ++ [input], StringsFit request.2) :
    let state := run (virtioP9DoIoRequest lib root) p9Start inputs
    Atomic state (virtioP9DoIoRequest lib root state input) ↔
      state.dead = true ∨
        RequestKeeps root input.1 state.table input.2 := by
  intro state
  have alive : Alive root state := alive_run lib root inputs
  cases dead : state.dead with
  | true =>
      refine iff_of_true ?_ (Or.inl rfl)
      rintro ⟨number, same⟩
      rw [virtioP9DoIoRequest, if_pos dead] at same
      have longer := congrArg List.length same
      simp at longer
  | false =>
      rw [Alive, dead] at alive
      have tidy := alive.resolve_left Bool.false_ne_true
      rw [atomic_iff_reports tidy dead, or_iff_right Bool.false_ne_true]
      have begins : Tidy root (begun state).table := tidy
      exact handler_keeps_iff begins rfl rfl (fit input (by simp))

/-- An answer of the host, and an environment that gives it each time. -/
def answering (ret errno : Int) : P9Env where
  host _ := ⟨ret, errno, false, false⟩
  calloc _ := true
  strdup := true
  dirents := []

/-- Opening a directory whose `lstat` fails leaves its fid alone. -/
theorem failed_request_atomic_on_open :
    let state :=
      run (virtioP9DoIoRequest (.plain _) [47]) p9Start
        [(answering 0 0, .attach 1 0 (.text []) (.text []))]
    Atomic state
        (virtioP9DoIoRequest (.plain _) [47] state
          (answering (-1) 13, .open 1)) ∧
      state.table.tree.inorder = [⟨1, 0⟩] := by
  refine ⟨(failed_request_atomic_iff (.plain _) [47] _ _ ?_).mpr
    (Or.inr ?_), rfl⟩
  · simp [StringsFit]
  · intro object _ fine
    exact absurd fine (by decide)

/--
A directory is attached; creating a file in it fails, and the path of the
directory's fid is now that of the file.
-/
theorem create_fails_with_path_changed :
    ¬ ∀ (inputs : List (P9Env × P9Request)) (input : P9Env × P9Request),
      let state := run (virtioP9DoIoRequest (.plain _) [47]) p9Start inputs
      Atomic state (virtioP9DoIoRequest (.plain _) [47] state input) := by
  intro always
  have atomic :=
    always [(answering 0 0, .attach 1 0 (.text []) (.text []))]
      (answering (-1) 13, .create 1 (.text [97])) ⟨13, rfl⟩
  obtain ⟨-, now, there, same⟩ :=
    atomic ⟨1, 0⟩ (by decide) ⟨1, 0, [47, 47], 1, none, 0⟩ rfl
  cases there
  exact absurd same.path (by decide)

end Kemu.Virtio.P9.Atomicity
