import Kemu.Virtio.P9.Server

/-!
# The export is confined

Every handler keeps the paths of all fids, and the paths it hands to the
host, under the exported directory.  The exception is `virtio_p9_renameat`:
`rename_fids` splices the new name as it came from the guest into the paths
of other fids, where it has to bring its own slash.
-/

namespace Kemu.Virtio.P9.Confinement

open Kemu.Lib.SearchTree
open Kemu.Lib.Contract
open Kemu.Lib.Transition
open Kemu.Virtio.P9.Fid
open Kemu.Virtio.P9.Path
open Kemu.Virtio.P9.Server

/--
Every fid's path and every path given to the host lies under the root, and
no buffer was overrun.
-/
structure ExportConfined (root : CString) (state : P9State) : Prop where
  fids :
    ∀ obj pfid, state.table.heap obj = some pfid →
      Confined root pfid.absPath
  calls :
    ∀ call ∈ state.calls, ∀ path ∈ call.paths, Confined root path
  intact : state.corrupted = false

/-- What the handlers keep: each fid's path also begins where it should. -/
structure P9Confined (root : CString) (state : P9State) : Prop where
  fids :
    ∀ obj pfid, state.table.heap obj = some pfid → FidConfined root pfid
  calls :
    ∀ call ∈ state.calls, ∀ path ∈ call.paths, Confined root path
  intact : state.corrupted = false

theorem P9Confined.exportConfined {root : CString} {state : P9State}
    (holds : P9Confined root state) : ExportConfined root state where
  fids obj pfid object := (holds.fids obj pfid object).confined
  calls := holds.calls
  intact := holds.intact

/-- The contract of a handler that cannot escape. -/
def Safe (root : CString) {Value : Type} (handler : P9M Value)
    (post : Value → Prop) : Prop :=
  Keeps (P9Confined root) (· ≠ Stop.corrupt) handler post

/-! ## Effects -/

section Effects

variable (lib : Rebalancer FidNode) {root : CString} (env : P9Env)

theorem readString_safe {str : PduString} (fits : str ≠ .overrun) :
    Safe root (readString str) fun _ => True := by
  cases str with
  | null => exact .pure trivial
  | text raw => exact .pure trivial
  | overrun => exact absurd rfl fits

theorem hostCall_safe (op : HostOp) {paths : List CString}
    (confined : ∀ path ∈ paths, Confined root path) :
    Safe root (hostCall env op paths) fun _ => True := by
  intro state holds
  refine ⟨⟨holds.fids, ?_, holds.intact⟩, trivial⟩
  intro call member
  rcases List.mem_append.1 member with old | new
  · exact holds.calls call old
  · rw [List.mem_singleton.1 new]
    exact confined

theorem hostTry_safe (op : HostOp) {paths : List CString}
    (confined : ∀ path ∈ paths, Confined root path) :
    Safe root (hostTry env op paths) fun _ => True := by
  refine .bind (hostCall_safe env op confined) fun answer _ => ?_
  refine .ite (fun _ => ?_) fun _ => .pure trivial
  exact .throw Stop.noConfusion _

theorem hostTry_one_safe (op : HostOp) {path : CString}
    (confined : Confined root path) :
    Safe root (hostTry env op [path]) fun _ => True :=
  hostTry_safe env op (by simpa using confined)

theorem hostCall_one_safe (op : HostOp) {path : CString}
    (confined : Confined root path) :
    Safe root (hostCall env op [path]) fun _ => True :=
  hostCall_safe env op (by simpa using confined)

theorem insertNewFid_heap (table : FidTable) (new : FidNode) :
    (insertNewFid lib table new).2.heap = table.heap := by
  unfold insertNewFid
  split <;> rfl

/-- Looking a number up leaves the objects there are as they are. -/
theorem findOrCreateFid_heap (calloc : Bool) (table : FidTable)
    (fid : UInt32) {obj : Nat} {pfid : P9Fid}
    (object :
      (findOrCreateFid lib root calloc table fid).1.heap obj = some pfid) :
    table.heap obj = some pfid ∨ pfid = newFid root fid := by
  rw [findOrCreateFid] at object
  split at object
  · exact Or.inl object
  · split at object
    · exact Or.inl object
    · split at object
      · exact Or.inl object
      · have updated :
            Function.update table.heap table.next (some (newFid root fid))
              obj = some pfid := by
          simpa only [insertNewFid_heap] using object
        by_cases same : obj = table.next
        · rw [same, Function.update_self] at updated
          cases updated
          exact Or.inr rfl
        · rw [Function.update_of_ne same] at updated
          exact Or.inl updated

theorem getFid_safe (fid : UInt32) :
    Safe root (getFid lib root env fid) fun _ => True := by
  intro state holds
  have kept :
      P9Confined root
        { state with
          table :=
            (findOrCreateFid lib root (env.calloc state.looked)
              state.table fid).1
          looked := state.looked + 1 } := by
    refine ⟨?_, holds.calls, holds.intact⟩
    intro obj pfid object
    rcases findOrCreateFid_heap lib _ _ _ object with old | rfl
    · exact holds.fids obj pfid old
    · exact FidConfined.newFid fid
  rw [getFid]
  cases (findOrCreateFid lib root (env.calloc state.looked) state.table
      fid).2 with
  | none => exact ⟨kept, Stop.noConfusion⟩
  | some _ => exact ⟨kept, trivial⟩

theorem deref_safe (pfid : FidNode) :
    Safe root (deref pfid) (FidConfined root) := by
  intro state holds
  rw [deref]
  cases object : state.table.heap pfid.obj with
  | none => exact ⟨holds, Stop.noConfusion⟩
  | some pfid => exact ⟨holds, holds.fids _ _ object⟩

theorem assign_safe (pfid : FidNode) {object : P9Fid}
    (confined : FidConfined root object) :
    Safe root (assign pfid object) fun _ => True := by
  intro state holds
  refine ⟨⟨?_, holds.calls, holds.intact⟩, trivial⟩
  intro obj stored found
  change Function.update state.table.heap pfid.obj _ obj = _ at found
  by_cases same : obj = pfid.obj
  · rw [same, Function.update_self] at found
    cases found
    exact confined
  · rw [Function.update_of_ne same] at found
    exact holds.fids obj stored found

theorem join_safe (pfid : FidNode) {name : CString}
    (below : Below root name) :
    Safe root (join pfid name) fun _ => True := by
  refine .bind (deref_safe pfid) fun object confined => ?_
  cases joined : joinPath object name with
  | none => exact .throw Stop.noConfusion _
  | some result =>
      exact assign_safe pfid (confined.joinPath below joined)

theorem getFullPath_safe {object : P9Fid}
    (confined : FidConfined root object) (name : Option CString) :
    Safe root (getFullPath object name) fun fullPath =>
      Confined root fullPath ∧
        dotDot ∉ components (printed name) ∧
        getFullPathHelper object.absPath (printed name) = .ok fullPath := by
  rw [getFullPath]
  cases outcome : getFullPathHelper object.absPath (printed name) with
  | error number => exact .throw Stop.noConfusion _
  | ok fullPath =>
      exact .pure
        ⟨confined.confined.fullPath outcome,
          (getFullPathHelper_eq_ok outcome).2, rfl⟩

theorem statRel_safe (path : CString) :
    Safe root (statRel root env path) fun _ =>
      dotDot ∉ components path := by
  rw [statRel]
  cases outcome : getFullPathHelper root path with
  | error number => exact .throw Stop.noConfusion _
  | ok fullPath =>
      refine (hostTry_one_safe env .lstat ?_).weaken fun _ _ => ?_
      · exact Confined.self.fullPath outcome
      · exact (getFullPathHelper_eq_ok outcome).2

/-! ## Handlers -/

/-- Changes outside `abs_path` and `path` do not matter. -/
theorem fidConfined_congr {pfid other : P9Fid}
    (confined : FidConfined root pfid)
    (absPath : other.absPath = pfid.absPath)
    (pathOff : other.pathOff = pfid.pathOff) :
    FidConfined root other := by
  have path : other.path = pfid.path := by
    rw [P9Fid.path, P9Fid.path, absPath, pathOff]
  refine ⟨pathOff.trans confined.pathOff, ?_, ?_⟩
  · rw [absPath, path, confined.absPath]
  · rw [path]
    exact confined.below

theorem virtioP9Version_safe {version : PduString}
    (fits : version ≠ .overrun) :
    Safe root (virtioP9Version version) fun _ => True := by
  refine .bind (readString_safe fits) fun text _ => ?_
  cases text with
  | none => exact .throw Stop.noConfusion _
  | some _ => exact .pure trivial

theorem virtioP9Clunk_safe (fid : UInt32) :
    Safe root (virtioP9Clunk lib root env fid) fun _ => True := by
  refine .bind (getFid_safe lib env fid) fun pfid _ => ?_
  refine .bind (deref_safe pfid) fun _ _ => ?_
  intro state holds
  refine ⟨⟨?_, holds.calls, holds.intact⟩, trivial⟩
  intro obj object found
  change Function.update state.table.heap pfid.obj none obj = _ at found
  by_cases same : obj = pfid.obj
  · rw [same, Function.update_self] at found
    cases found
  · rw [Function.update_of_ne same] at found
    exact holds.fids obj object found

theorem virtioP9Open_safe (fid : UInt32) :
    Safe root (virtioP9Open lib root env fid) fun _ => True := by
  refine .bind (getFid_safe lib env fid) fun pfid _ => ?_
  refine .bind (deref_safe pfid) fun object confined => ?_
  have here := confined.confined
  refine .bind (hostTry_one_safe env _ here) fun _ _ => ?_
  refine .bind (hostCall_one_safe env _ here) fun asDir _ => ?_
  refine .ite (fun _ => ?_) fun _ => ?_
  · refine .bind (hostCall_one_safe env _ here) fun opened _ => ?_
    refine
      .bind (assign_safe pfid (fidConfined_congr confined rfl rfl))
        fun _ _ => ?_
    exact .ite (fun _ => .throw Stop.noConfusion _) fun _ => .pure trivial
  · refine .bind (hostCall_one_safe env _ here) fun asReg _ => ?_
    refine .ite (fun _ => ?_) fun _ => .throw Stop.noConfusion _
    refine .bind (hostCall_one_safe env _ here) fun opened _ => ?_
    refine
      .bind (assign_safe pfid (fidConfined_congr confined rfl rfl))
        fun _ _ => ?_
    exact .ite (fun _ => .throw Stop.noConfusion _) fun _ => .pure trivial

theorem virtioP9Create_safe (dfid : UInt32) {name : PduString}
    (fits : name ≠ .overrun) :
    Safe root (virtioP9Create lib root env dfid name) fun _ => True := by
  refine .bind (readString_safe fits) fun text _ => ?_
  refine .bind (getFid_safe lib env dfid) fun pfid _ => ?_
  refine .bind (deref_safe pfid) fun object confined => ?_
  refine .bind (getFullPath_safe confined text) fun fullPath formed => ?_
  rcases formed with ⟨here, clean, formed⟩
  have room := extended_fits confined.behind formed
  have whole :
      (object.path ++ slash :: printed text).take (pathRoom object - 1) =
        object.path ++ slash :: printed text :=
    List.take_of_length_le (by omega)
  have created :
      FidConfined root
        (setPath object (object.path ++ slash :: printed text)) :=
    confined.setPath (confined.below.append clean)
  refine .ite (fun _ => .throw Stop.noConfusion _) fun _ => ?_
  simp only [whole]
  refine .bind (assign_safe pfid created) fun _ _ => ?_
  refine .ite (fun long => absurd room (Nat.not_lt.2 long)) fun _ => ?_
  refine .bind (hostTry_one_safe env _ here) fun opened _ => ?_
  refine
    .bind (assign_safe pfid (fidConfined_congr created rfl rfl))
      fun _ _ => ?_
  refine .bind (hostTry_one_safe env _ here) fun _ _ => ?_
  refine .bind (hostTry_one_safe env _ here) fun _ _ => ?_
  exact .pure trivial

theorem makeEntry_safe (op : HostOp) (mode : Bool) (dfid : UInt32)
    (name : Option CString) :
    Safe root (makeEntry lib root env op mode dfid name)
      fun _ => True := by
  refine .bind (getFid_safe lib env dfid) fun pfid _ => ?_
  refine .bind (deref_safe pfid) fun object confined => ?_
  refine .bind (getFullPath_safe confined name) fun fullPath formed => ?_
  refine .bind (hostTry_one_safe env _ formed.1) fun _ _ => ?_
  refine .bind (hostTry_one_safe env _ formed.1) fun _ _ => ?_
  refine .ite (fun _ => ?_) fun _ => .pure trivial
  refine .bind (hostTry_one_safe env _ formed.1) fun _ _ => ?_
  exact .pure trivial

theorem walkLoop_safe (fid newFid : FidNode) (nwname : UInt16)
    {names : Nat → PduString} (fit : ∀ turn, names turn ≠ .overrun)
    (fuel turn : Nat) (i : UInt8) :
    Safe root (walkLoop root env fid newFid nwname names fuel turn i)
      fun _ => True := by
  induction fuel generalizing turn i with
  | zero => exact .pure trivial
  | succ fuel induction =>
      refine .ite (fun _ => ?_) fun _ => .pure trivial
      refine .bind (readString_safe (fit turn)) fun str _ => ?_
      refine .bind (deref_safe newFid) fun object confined => ?_
      refine .ite (fun _ => .throw Stop.noConfusion _) fun _ => ?_
      refine .bind (statRel_safe env _) fun _ clean => ?_
      have below : Below root (object.path ++ slash :: printed str) := by
        refine confined.below.append ?_
        rw [components_append_slash, List.mem_append, not_or] at clean
        exact clean.2
      refine .bind (join_safe newFid below) fun _ _ => ?_
      refine .bind (deref_safe fid) fun _ _ => ?_
      refine .bind (deref_safe newFid) fun joined joinedConfined => ?_
      refine
        .bind (assign_safe newFid (fidConfined_congr joinedConfined rfl rfl))
          fun _ _ => ?_
      exact induction (turn + 1) (i + 1)

theorem virtioP9Walk_safe (fid newfid : UInt32) (nwname : UInt16)
    {names : Nat → PduString} (fit : ∀ turn, names turn ≠ .overrun) :
    Safe root (virtioP9Walk lib root env fid newfid nwname names)
      fun _ => True := by
  refine .bind (getFid_safe lib env newfid) fun newNode _ => ?_
  refine .bind (getFid_safe lib env fid) fun oldNode _ => ?_
  refine .bind (deref_safe oldNode) fun old confined => ?_
  refine .bind (join_safe newNode confined.below) fun _ _ => ?_
  refine .ite (fun _ => ?_) fun _ => ?_
  · exact walkLoop_safe env _ _ _ fit _ _ _
  · refine .bind (deref_safe newNode) fun joined joinedConfined => ?_
    refine .bind (deref_safe oldNode) fun _ _ => ?_
    exact assign_safe newNode (fidConfined_congr joinedConfined rfl rfl)

theorem below_slash : Below root [slash] where
  setOff := Or.inr (Or.inl rfl)
  noDotDot := by
    have split := components_append_slash [] []
    rw [List.nil_append, components_nil] at split
    rw [split]
    simp [dotDot]

theorem virtioP9Attach_safe (fid uid : UInt32) {uname aname : PduString}
    (unameFits : uname ≠ .overrun) (anameFits : aname ≠ .overrun) :
    Safe root (virtioP9Attach lib root env fid uid uname aname)
      fun _ => True := by
  refine .bind (readString_safe unameFits) fun _ _ => ?_
  refine .bind (readString_safe anameFits) fun _ _ => ?_
  refine .bind (hostTry_one_safe env _ Confined.self) fun _ _ => ?_
  refine .bind (getFid_safe lib env fid) fun pfid _ => ?_
  refine .bind (deref_safe pfid) fun object confined => ?_
  refine
    .bind (assign_safe pfid (fidConfined_congr confined rfl rfl))
      fun _ _ => ?_
  exact join_safe pfid below_slash

theorem virtioP9Read_safe (fid : UInt32) :
    Safe root (virtioP9Read lib root env fid) fun _ => True := by
  refine .bind (getFid_safe lib env fid) fun pfid _ => ?_
  refine .bind (deref_safe pfid) fun _ _ => ?_
  refine .bind (hostCall_safe env _ (by simp)) fun _ _ => ?_
  exact .pure trivial

theorem readdirLoop_safe (count : UInt32) (dirents : List Dirent)
    (rcount : UInt32) :
    Safe root (readdirLoop root env count dirents rcount)
      fun _ => True := by
  induction dirents generalizing rcount with
  | nil => exact .pure trivial
  | cons dent rest induction =>
      rw [readdirLoop]
      refine .ite (fun _ => ?_) fun _ => ?_
      · refine .bind (hostCall_safe env _ (by simp)) fun _ _ => ?_
        exact .pure trivial
      · cases outcome : getFullPathHelper root dent.name with
        | error number =>
            refine .bind (hostCall_safe env _ (by simp)) fun _ _ => ?_
            exact induction _
        | ok fullPath =>
            refine
              .bind
                (hostCall_one_safe env _ (Confined.self.fullPath outcome))
                fun _ _ => ?_
            refine .bind (hostCall_safe env _ (by simp)) fun _ _ => ?_
            exact induction _

theorem virtioP9Readdir_safe (fid count : UInt32) :
    Safe root (virtioP9Readdir lib root env fid count) fun _ => True := by
  refine .bind (getFid_safe lib env fid) fun pfid _ => ?_
  refine .bind (deref_safe pfid) fun object confined => ?_
  refine .bind (hostCall_one_safe env _ confined.confined) fun _ _ => ?_
  refine .ite (fun _ => .throw Stop.noConfusion _) fun _ => ?_
  refine .ite (fun _ => .throw Stop.noConfusion _) fun _ => ?_
  refine .bind (hostCall_safe env _ (by simp)) fun _ _ => ?_
  refine .bind (hostCall_safe env _ (by simp)) fun _ _ => ?_
  exact readdirLoop_safe env _ _ _

theorem onPath_safe (op : HostOp) (fid : UInt32) :
    Safe root (onPath lib root env op fid) fun _ => True := by
  refine .bind (getFid_safe lib env fid) fun pfid _ => ?_
  refine .bind (deref_safe pfid) fun object confined => ?_
  refine .bind (hostTry_one_safe env _ confined.confined) fun _ _ => ?_
  exact .pure trivial

theorem onDescriptor_safe (op : HostOp) (fid : UInt32) :
    Safe root (onDescriptor lib root env op fid) fun _ => True := by
  refine .bind (getFid_safe lib env fid) fun pfid _ => ?_
  refine .bind (deref_safe pfid) fun object confined => ?_
  refine .bind (hostTry_safe env _ (by simp)) fun _ _ => ?_
  exact .pure trivial

theorem hostTryWhen_safe (condition : Bool) (op : HostOp) {path : CString}
    (confined : Confined root path) :
    Safe root (hostTryWhen env condition op path) fun _ => True := by
  refine .ite (fun _ => ?_) fun _ => .pure trivial
  refine .bind (hostTry_one_safe env _ confined) fun _ _ => ?_
  exact .pure trivial

theorem virtioP9Setattr_safe (fid valid : UInt32) :
    Safe root (virtioP9Setattr lib root env fid valid) fun _ => True := by
  refine .bind (getFid_safe lib env fid) fun pfid _ => ?_
  refine .bind (deref_safe pfid) fun object confined => ?_
  refine .bind (hostTryWhen_safe env _ _ confined.confined) fun _ _ => ?_
  refine .bind (hostTryWhen_safe env _ _ confined.confined) fun _ _ => ?_
  refine .bind (hostTryWhen_safe env _ _ confined.confined) fun _ _ => ?_
  exact hostTryWhen_safe env _ _ confined.confined

theorem virtioP9Rename_safe (fid newFid : UInt32) {name : PduString}
    (fits : name ≠ .overrun) :
    Safe root (virtioP9Rename lib root env fid newFid name)
      fun _ => True := by
  refine .bind (readString_safe fits) fun text _ => ?_
  refine .bind (getFid_safe lib env fid) fun node _ => ?_
  refine .bind (getFid_safe lib env newFid) fun newNode _ => ?_
  refine .bind (deref_safe newNode) fun newObject newConfined => ?_
  refine .bind (getFullPath_safe newConfined text) fun fullPath formed => ?_
  refine .bind (deref_safe node) fun object confined => ?_
  refine
    .bind
      (hostTry_safe env _ (by simp [confined.confined, formed.1]))
      fun _ _ => ?_
  exact .pure trivial

theorem virtioP9Link_safe (dfid fid : UInt32) {name : PduString}
    (fits : name ≠ .overrun) :
    Safe root (virtioP9Link lib root env dfid fid name)
      fun _ => True := by
  refine .bind (readString_safe fits) fun text _ => ?_
  refine .bind (getFid_safe lib env dfid) fun directory _ => ?_
  refine .bind (getFid_safe lib env fid) fun node _ => ?_
  refine .bind (deref_safe directory) fun parent parentConfined => ?_
  refine
    .bind (getFullPath_safe parentConfined text) fun fullPath formed => ?_
  refine .bind (deref_safe node) fun object confined => ?_
  refine
    .bind
      (hostTry_safe env _ (by simp [confined.confined, formed.1]))
      fun _ _ => ?_
  exact .pure trivial

theorem virtioP9Unlinkat_safe (fid : UInt32) {name : PduString}
    (fits : name ≠ .overrun) :
    Safe root (virtioP9Unlinkat lib root env fid name) fun _ => True := by
  refine .bind (readString_safe fits) fun text _ => ?_
  refine .bind (getFid_safe lib env fid) fun node _ => ?_
  refine .bind (deref_safe node) fun object confined => ?_
  refine .bind (getFullPath_safe confined text) fun fullPath formed => ?_
  refine .bind (hostTry_one_safe env _ formed.1) fun _ _ => ?_
  exact .pure trivial

/-! ## `renameat` -/

theorem renameatHost_safe (oldDfid newDfid : UInt32)
    {oldName newName : PduString}
    (oldFits : oldName ≠ .overrun) (newFits : newName ≠ .overrun) :
    Safe root (renameatHost lib root env oldDfid newDfid oldName newName)
      fun names => dotDot ∉ components (printed names.2) := by
  refine .bind (readString_safe oldFits) fun old _ => ?_
  refine .bind (readString_safe newFits) fun new _ => ?_
  refine .bind (getFid_safe lib env oldDfid) fun oldNode _ => ?_
  refine .bind (getFid_safe lib env newDfid) fun newNode _ => ?_
  refine .bind (deref_safe oldNode) fun oldObject oldConfined => ?_
  refine .bind (getFullPath_safe oldConfined old) fun oldPath oldFormed => ?_
  refine .bind (deref_safe newNode) fun newObject newConfined => ?_
  refine .bind (getFullPath_safe newConfined new) fun newPath newFormed => ?_
  refine
    .bind (hostTry_safe env _ (by simp [oldFormed.1, newFormed.1]))
      fun _ _ => ?_
  exact .pure newFormed.2.1

theorem eq_of_fixPath {object result : P9Fid} {oldName : CString}
    {newName : Option CString}
    (fixed : fixPath object oldName newName = some result) :
    result = virtioP9FixPath object oldName (printed newName) := by
  rw [fixPath] at fixed
  split at fixed
  · cases fixed
  · cases fixed
    rfl

/-- A new name that is set off keeps every rewritten path confined. -/
theorem renameFids_safe_of_setOff
    (oldName : Option CString) {newName : Option CString}
    (setOff : NameSetOff root (printed newName))
    (clean : dotDot ∉ components (printed newName))
    (nodes : List FidNode) :
    Safe root (renameFids oldName newName nodes) fun _ => True := by
  induction nodes with
  | nil => exact .pure trivial
  | cons node rest induction =>
      refine .bind (deref_safe node) fun object confined => ?_
      refine .ite (fun _ => induction) fun _ => ?_
      cases oldName with
      | none => exact .throw Stop.noConfusion _
      | some old =>
          refine .ite (fun matching => ?_) fun _ => induction
          cases fixed : fixPath object old newName with
          | none => exact .throw Stop.noConfusion _
          | some result =>
              refine .bind (assign_safe node ?_) fun _ _ => induction
              rw [eq_of_fixPath fixed]
              exact confined.fixPath matching setOff clean

/-- The rewritten path is too long for the fid. -/
def Overlong (object : P9Fid) (oldName newName : CString) : Prop :=
  pathRoom object ≤ (newName ++ object.path.drop oldName.length).length

theorem virtioP9FixPath_overlong {object : P9Fid}
    {oldName newName : CString} (long : Overlong object oldName newName) :
    virtioP9FixPath object oldName newName = object := by
  rw [Overlong] at long
  rw [virtioP9FixPath]
  split
  case isTrue whole =>
    rw [whole, List.drop_length, List.append_nil] at long
    rw [joinPath, if_pos long, Option.getD_none]
  case isFalse part =>
    simp only
    split
    · rfl
    · rw [joinPath, if_pos long, Option.getD_none]

/-- Fids none of whose paths can be rewritten. -/
def NothingRenamed (heap : Nat → Option P9Fid) (nodes : List FidNode)
    (oldName : Option CString) (newName : CString) : Prop :=
  ∀ node ∈ nodes, ∀ object, heap node.obj = some object →
    object.fid ≠ p9NoFid →
      ∀ old ∈ oldName, virtioP9Ancestor object.path old = true →
        Overlong object old newName

/-- If no path can be rewritten the objects stay as they are. -/
theorem renameFids_keeps_heap {heap : Nat → Option P9Fid}
    {oldName newName : Option CString} {nodes : List FidNode}
    (nothing : NothingRenamed heap nodes oldName (printed newName)) :
    Keeps (fun state => P9Confined root state ∧ state.table.heap = heap)
      (· ≠ Stop.corrupt) (renameFids oldName newName nodes)
      fun _ => True := by
  induction nodes with
  | nil => exact .pure trivial
  | cons node rest induction =>
      have onRest := induction fun other member =>
        nothing other (List.mem_cons_of_mem node member)
      have read :
          Keeps (fun state => P9Confined root state ∧ state.table.heap = heap)
            (· ≠ Stop.corrupt) (deref node)
            fun object => heap node.obj = some object := by
        rintro state ⟨holds, rfl⟩
        rw [deref]
        cases state.table.heap node.obj with
        | none => exact ⟨⟨holds, rfl⟩, Stop.noConfusion⟩
        | some _ => exact ⟨⟨holds, rfl⟩, rfl⟩
      refine .bind read fun object found => ?_
      refine .ite (fun _ => onRest) fun numbered => ?_
      cases oldName with
      | none => exact .throw Stop.noConfusion _
      | some old =>
          refine .ite (fun matching => ?_) fun _ => onRest
          cases fixed : fixPath object old newName with
          | none => exact .throw Stop.noConfusion _
          | some result =>
              have long :=
                nothing node List.mem_cons_self object found numbered old
                  rfl matching
              have same : result = object :=
                (eq_of_fixPath fixed).trans (virtioP9FixPath_overlong long)
              have wrote :
                  Keeps
                    (fun state =>
                      P9Confined root state ∧ state.table.heap = heap)
                    (· ≠ Stop.corrupt) (assign node result)
                    fun _ => True := by
                rintro state ⟨holds, rfl⟩
                have unchanged :
                    Function.update state.table.heap node.obj (some result) =
                      state.table.heap := by
                  rw [same, ← found, Function.update_eq_self]
                refine
                  ⟨⟨⟨?_, holds.calls, holds.intact⟩, unchanged⟩, trivial⟩
                simp only [unchanged]
                exact holds.fids
              exact .bind wrote fun _ _ => onRest

/-- The new name that comes back is the one that was read. -/
theorem renameatHost_newName (root : CString) (oldDfid newDfid : UInt32)
    (oldName : PduString) (raw : List UInt8)
    {names : Option CString × Option CString} {state after : P9State}
    (outcome :
      renameatHost lib root env oldDfid newDfid oldName (.text raw) state =
        .ok names after) :
    names.2 = some (raw.takeWhile (· ≠ 0)) := by
  have always {Value : Type} (computation : P9M Value) :
      Keeps (fun _ => True) (fun _ => True) computation fun _ => True := by
    intro state _
    cases computation state with
    | ok _ _ => exact ⟨trivial, trivial⟩
    | error _ _ => exact ⟨trivial, trivial⟩
  have named :
      Keeps (fun _ => True) (fun _ => True)
        (renameatHost lib root env oldDfid newDfid oldName (.text raw))
        fun names => names.2 = some (raw.takeWhile (· ≠ 0)) := by
    refine .bind (always _) fun old _ => ?_
    refine .bind (Keeps.pure rfl) fun new same => ?_
    refine .bind (always _) fun _ _ => ?_
    refine .bind (always _) fun _ _ => ?_
    refine .bind (always _) fun _ _ => ?_
    refine .bind (always _) fun _ _ => ?_
    refine .bind (always _) fun _ _ => ?_
    refine .bind (always _) fun _ _ => ?_
    refine .bind (always _) fun _ _ => ?_
    exact .pure same.symm
  have ends := named state trivial
  rw [outcome] at ends
  exact ends.2

end Effects

/-! ## Whole runs -/

section Runs

variable (lib : Rebalancer FidNode) (root : CString)

/--
A rename the host carries out does not glue a fid's path to the root: the
new name is empty or begins with a slash, or the root ends with one, or no
fid has a path that is rewritten.
-/
def RenameSetOff (env : P9Env) (state : P9State) : P9Request → Prop
  | .renameat oldDfid newDfid oldName newName =>
      ∀ names after,
        renameatHost lib root env oldDfid newDfid oldName newName
            { state with asked := 0, looked := 0 } = .ok names after →
          NameSetOff root (printed names.2) ∨
            NothingRenamed after.table.heap after.table.tree.inorder
              names.1 (printed names.2)
  | _ => True

/-- The condition on one request in the state it arrives in. -/
def RequestConfined (state : P9State) (input : P9Env × P9Request) : Prop :=
  state.dead = true ∨
    StringsFit input.2 ∧ RenameSetOff lib root input.1 state input.2

variable {lib root}

theorem virtioP9Renameat_ends {env : P9Env} {state : P9State}
    (start : P9Confined root state) {oldDfid newDfid : UInt32}
    {oldName newName : PduString}
    (oldFits : oldName ≠ .overrun) (newFits : newName ≠ .overrun)
    (setOff :
      ∀ names after,
        renameatHost lib root env oldDfid newDfid oldName newName state =
            .ok names after →
          NameSetOff root (printed names.2) ∨
            NothingRenamed after.table.heap after.table.tree.inorder
              names.1 (printed names.2)) :
    Ends (P9Confined root) (· ≠ Stop.corrupt) (fun _ => True)
      (virtioP9Renameat lib root env oldDfid newDfid oldName newName
        state) := by
  have host :=
    renameatHost_safe lib env oldDfid newDfid oldFits newFits state start
  change Ends _ _ _
    (EStateM.bind
      (renameatHost lib root env oldDfid newDfid oldName newName) _ state)
  rw [EStateM.bind]
  cases outcome :
      renameatHost lib root env oldDfid newDfid oldName newName state with
  | error stop after =>
      rw [outcome] at host
      exact host
  | ok names after =>
      rw [outcome] at host
      rcases setOff names after outcome with named | nothing
      · exact
          renameFids_safe_of_setOff names.1 named host.2
            after.table.tree.inorder after host.1
      · have kept := renameFids_keeps_heap nothing after ⟨host.1, rfl⟩
        change Ends _ _ _
          (renameFids names.1 names.2 after.table.tree.inorder after)
        cases ended :
            renameFids names.1 names.2 after.table.tree.inorder after with
        | ok value final =>
            rw [ended] at kept
            exact ⟨kept.1.1, trivial⟩
        | error stop final =>
            rw [ended] at kept
            exact ⟨kept.1.1, kept.2⟩

/-- A handler under its condition keeps the invariant and no buffer bursts. -/
theorem handler_keeps {env : P9Env} {request : P9Request}
    {state : P9State} (holds : P9Confined root state)
    (fits : StringsFit request)
    (setOff : RenameSetOff lib root env state request) :
    Ends (P9Confined root) (· ≠ Stop.corrupt) (fun _ => True)
      (virtio9pDotlHandler lib root env request
        { state with asked := 0, looked := 0 }) := by
  have start : P9Confined root { state with asked := 0, looked := 0 } :=
    ⟨holds.fids, holds.calls, holds.intact⟩
  cases request with
  | version version => exact virtioP9Version_safe fits _ start
  | attach fid uid uname aname =>
      exact virtioP9Attach_safe lib env fid uid fits.1 fits.2 _ start
  | walk fid newfid nwname names =>
      exact virtioP9Walk_safe lib env fid newfid nwname fits _ start
  | clunk fid => exact virtioP9Clunk_safe lib env fid _ start
  | «open» fid => exact virtioP9Open_safe lib env fid _ start
  | create dfid name => exact virtioP9Create_safe lib env dfid fits _ start
  | mkdir dfid name =>
      exact Keeps.bind (readString_safe fits)
        (fun _ _ => makeEntry_safe lib env _ _ _ _) _ start
  | mknod dfid name =>
      exact Keeps.bind (readString_safe fits)
        (fun _ _ => makeEntry_safe lib env _ _ _ _) _ start
  | symlink dfid name oldPath =>
      exact Keeps.bind (readString_safe fits.1)
        (fun _ _ => Keeps.bind (readString_safe fits.2)
          fun _ _ => makeEntry_safe lib env _ _ _ _) _ start
  | link dfid fid name => exact virtioP9Link_safe lib env dfid fid fits _ start
  | read fid => exact virtioP9Read_safe lib env fid _ start
  | readdir fid count => exact virtioP9Readdir_safe lib env fid count _ start
  | write fid => exact onDescriptor_safe lib env _ fid _ start
  | fsync fid => exact onDescriptor_safe lib env _ fid _ start
  | getattr fid => exact onPath_safe lib env _ fid _ start
  | setattr fid valid => exact virtioP9Setattr_safe lib env fid valid _ start
  | readlink fid => exact onPath_safe lib env _ fid _ start
  | statfs fid => exact onPath_safe lib env _ fid _ start
  | remove fid => exact onPath_safe lib env _ fid _ start
  | rename fid newFid newName =>
      exact virtioP9Rename_safe lib env fid newFid fits _ start
  | renameat oldDfid newDfid oldName newName =>
      exact virtioP9Renameat_ends start fits.1 fits.2 setOff
  | unlinkat fid name => exact virtioP9Unlinkat_safe lib env fid fits _ start
  | lock clientId =>
      exact Keeps.bind (readString_safe fits)
        (fun _ _ => Keeps.pure trivial) _ start
  | getlock clientId =>
      exact Keeps.bind (readString_safe fits)
        (fun _ _ => Keeps.pure trivial) _ start
  | flush => exact ⟨start, trivial⟩
  | unsupported => exact ⟨start, Stop.noConfusion⟩

theorem P9Confined.step {state : P9State} (holds : P9Confined root state)
    {input : P9Env × P9Request}
    (confined : RequestConfined lib root state input) :
    P9Confined root (virtioP9DoIoRequest lib root state input) := by
  rw [virtioP9DoIoRequest]
  split
  case isTrue _ => exact holds
  case isFalse running =>
    rcases confined with dead | ⟨fits, setOff⟩
    · exact absurd dead running
    · have ends := handler_keeps holds fits setOff
      cases outcome :
          virtio9pDotlHandler lib root input.1 input.2
            { state with asked := 0, looked := 0 } with
      | ok value after =>
          rw [outcome] at ends
          exact ⟨ends.1.fids, ends.1.calls, ends.1.intact⟩
      | error stop after =>
          rw [outcome] at ends
          cases stop with
          | errno number =>
              exact ⟨ends.1.fids, ends.1.calls, ends.1.intact⟩
          | crash => exact ⟨ends.1.fids, ends.1.calls, ends.1.intact⟩
          | corrupt => exact absurd rfl ends.2

theorem p9Start_confined : P9Confined root p9Start where
  fids obj pfid object := by cases object
  calls call member := by cases member
  intact := rfl

end Runs

/--
For every exported directory, every tree library and every run of requests,
well formed or not, with any outcome of the host calls: if no string has the
length `0xffff` and every rename the host carries out is set off, then the
export is confined after every request.
-/
theorem export_confined
    (lib : Rebalancer FidNode) (root : CString)
    (inputs : List (P9Env × P9Request))
    (confined :
      Along (virtioP9DoIoRequest lib root) (RequestConfined lib root)
        p9Start inputs) :
    Throughout (virtioP9DoIoRequest lib root) (ExportConfined root)
      p9Start inputs :=
  throughout_of_along (fun _ holds => holds.exportConfined)
    (fun _ _ holds confined => holds.step confined)
    p9Start_confined confined

/-- `"/export"`. -/
def exportRoot : CString := [47, 101, 120, 112, 111, 114, 116]

/-- A host on which everything succeeds. -/
def willing : P9Env where
  host _ := { ret := 0, errno := 0, isDir := true, isReg := false }
  calloc _ := true
  strdup := true
  dirents := []

/--
Attach fid 0 to the export, walk fid 1 to `a` in it, which gives it the path
`//a`, and rename that file.
-/
def renamed (newName : List UInt8) : List (P9Env × P9Request) :=
  [(willing, .attach 0 0 (.text []) (.text [])),
    (willing, .walk 0 1 1 fun _ => .text [97]),
    (willing, .renameat 0 0 (.text [47, 47, 97]) (.text newName))]

/-- Renamed to `/b`, fid 1 follows and the export stays confined. -/
theorem export_confined_on_rename :
    let lib := Rebalancer.plain FidNode
    let final := run (virtioP9DoIoRequest lib exportRoot) p9Start
      (renamed [47, 98])
    (final.table.heap 1).map P9Fid.absPath = some (exportRoot ++ [47, 98]) ∧
      Throughout (virtioP9DoIoRequest lib exportRoot)
        (ExportConfined exportRoot) p9Start (renamed [47, 98]) := by
  intro lib final
  refine ⟨by decide +kernel, export_confined lib exportRoot _ ?_⟩
  refine ⟨Or.inr ⟨?_, trivial⟩, Or.inr ⟨?_, trivial⟩, Or.inr ⟨?_, ?_⟩, trivial⟩
  · exact ⟨PduString.noConfusion, PduString.noConfusion⟩
  · exact fun _ => PduString.noConfusion
  · exact ⟨PduString.noConfusion, PduString.noConfusion⟩
  · intro names after outcome
    have newName :=
      renameatHost_newName lib willing exportRoot 0 0 _ [47, 98] outcome
    rw [newName]
    exact Or.inl (Or.inr (Or.inl rfl))

/-- Renamed to `b`, fid 1 becomes `/exportb`, which is not in the export. -/
theorem export_left_by_rename :
    let lib := Rebalancer.plain FidNode
    ¬ Throughout (virtioP9DoIoRequest lib exportRoot)
        (ExportConfined exportRoot) p9Start (renamed [98]) := by
  rintro lib ⟨_, _, _, confined⟩
  have outside :
      ((run (virtioP9DoIoRequest lib exportRoot) p9Start
        (renamed [98])).table.heap 1).map P9Fid.absPath =
        some (exportRoot ++ [98]) := by
    decide +kernel
  obtain ⟨pfid, object, path⟩ := Option.map_eq_some_iff.1 outside
  rcases confined.fids 1 pfid object with ⟨rest, split, below⟩
  rw [path] at split
  obtain rfl := List.append_cancel_left split
  exact absurd below.setOff (by decide)

end Kemu.Virtio.P9.Confinement
