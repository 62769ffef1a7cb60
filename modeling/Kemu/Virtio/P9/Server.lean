import Kemu.Lib.Contract
import Kemu.Virtio.P9.Path

/-!
# The 9p server

One function for each request the server handles, over the fid table and a
log of the host calls made.  A handler is a computation that may stop early:
with an `errno` for the error reply, by dereferencing a null pointer, or by
overrunning a heap buffer.

`virtio_p9_pdu_readf` never fails: bytes the message does not have leave the
variable as it was.  Every value of a field can therefore arrive at a
handler, from a well-formed message or not, and requests are given by their
decoded fields.
-/

namespace Kemu.Virtio.P9.Server

open Kemu.Lib.SearchTree
open Kemu.Lib.Contract
open Kemu.Lib.Transition
open Kemu.Virtio.P9.Fid
open Kemu.Virtio.P9.Path

/-! ## State and effects -/

/-- The host calls of the handlers. -/
inductive HostOp where
  | lstat | stat | opendir | open | mkdir | chmod | utimensat | lchown
  | truncate | remove | rename | readlink | statfs | mknod | symlink | link
  | seekdir | readdir | preadv | pwritev | fsync
deriving DecidableEq, Repr

/--
A host call with the paths it is to resolve.  The text stored by `symlink`
is not among them.
-/
structure HostCall where
  op : HostOp
  paths : List CString
deriving DecidableEq, Repr

/-- What the host answers; a null pointer is a negative result. -/
structure HostAnswer where
  ret : Int
  errno : Int
  isDir : Bool
  isReg : Bool
deriving DecidableEq, Repr

/-- A directory entry and the room it took in the reply. -/
structure Dirent where
  name : CString
  written : UInt32
deriving DecidableEq, Repr

/-- The outcomes of what one request asks from outside. -/
structure P9Env where
  host : Nat → HostAnswer
  calloc : Nat → Bool
  strdup : Bool
  dirents : List Dirent

/-- `EINVAL`. -/
def eInval : Int := 22

/-- `ENOMEM`. -/
def eNoMem : Int := 12

/-- Why a handler stops early. -/
inductive Stop where
  | errno (number : Int)
  | crash
  | corrupt
deriving DecidableEq, Repr

/-- `struct p9_dev` with a record of its calls and replies. -/
structure P9State where
  table : FidTable
  calls : List HostCall
  /-- Host calls made by the current request. -/
  asked : Nat
  /-- Fid lookups made by the current request. -/
  looked : Nat
  /-- For each request answered, its `errno` if it failed. -/
  replies : List (Option Int)
  dead : Bool
  corrupted : Bool

/-- A handler. -/
abbrev P9M := EStateM Stop P9State

/--
A string field.  Its length is read into an `int16_t`: a length of `0xffff`
makes `malloc(0)` and an unbounded copy, other negative ones make `malloc`
fail.
-/
inductive PduString where
  | null
  | text (raw : List UInt8)
  | overrun
deriving DecidableEq, Repr

/-- The string up to its first zero byte. -/
def readString : PduString → P9M (Option CString)
  | .null => pure none
  | .text raw => pure (some (raw.takeWhile (· ≠ 0)))
  | .overrun => throw .corrupt

/-- What `%s` prints for a string. -/
def printed : Option CString → CString
  | some text => text
  | none => [40, 110, 117, 108, 108, 41]

section Effects

variable (lib : Rebalancer FidNode) (root : CString) (env : P9Env)

/-- A host call. -/
def hostCall (op : HostOp) (paths : List CString) : P9M HostAnswer :=
  fun state =>
    .ok (env.host state.asked)
      { state with
        calls := state.calls ++ [⟨op, paths⟩]
        asked := state.asked + 1 }

/-- A host call whose failure is the request's failure. -/
def hostTry (op : HostOp) (paths : List CString) : P9M HostAnswer := do
  let answer ← hostCall env op paths
  if answer.ret < 0 then
    throw (.errno answer.errno)
  else
    pure answer

/-- `get_fid`; every caller dereferences the result. -/
def getFid (fid : UInt32) : P9M FidNode :=
  fun state =>
    let found :=
      findOrCreateFid lib root (env.calloc state.looked) state.table fid
    let state := { state with table := found.1, looked := state.looked + 1 }
    match found.2 with
    | none => .error .crash state
    | some pfid => .ok pfid state

/-- Reading the object behind a fid pointer. -/
def deref (pfid : FidNode) : P9M P9Fid :=
  fun state =>
    match state.table.heap pfid.obj with
    | none => .error .crash state
    | some object => .ok object state

/-- Writing the object behind a fid pointer. -/
def assign (pfid : FidNode) (object : P9Fid) : P9M PUnit :=
  fun state =>
    .ok ⟨⟩
      { state with
        table :=
          { state.table with
            heap :=
              Function.update state.table.heap pfid.obj (some object) } }

/-- `join_path` and the error its callers report. -/
def join (pfid : FidNode) (name : CString) : P9M PUnit := do
  let object ← deref pfid
  match joinPath object name with
  | none => throw (.errno eNameTooLong)
  | some joined => assign pfid joined

/-- `get_full_path`. -/
def getFullPath (object : P9Fid) (name : Option CString) : P9M CString :=
  match getFullPathHelper object.absPath (printed name) with
  | .error number => throw (.errno number)
  | .ok fullPath => pure fullPath

/-- `stat_rel`. -/
def statRel (path : CString) : P9M HostAnswer :=
  match getFullPathHelper root path with
  | .error number => throw (.errno number)
  | .ok fullPath => hostTry env .lstat [fullPath]

/-! ## The handlers -/

/-- `virtio_p9_version`, which compares the string it read. -/
def virtioP9Version (version : PduString) : P9M PUnit := do
  match ← readString version with
  | none => throw .crash
  | some _ => pure ⟨⟩

/-- `virtio_p9_clunk`. -/
def virtioP9Clunk (fid : UInt32) : P9M PUnit := do
  let pfid ← getFid lib root env fid
  let _ ← deref pfid
  fun state =>
    .ok ⟨⟩
      { state with
        table :=
          { state.table with
            tree := lib.erase state.table.tree pfid
            heap := Function.update state.table.heap pfid.obj none } }

/-- `virtio_p9_open`. -/
def virtioP9Open (fid : UInt32) : P9M PUnit := do
  let newFid ← getFid lib root env fid
  let object ← deref newFid
  let _ ← hostTry env .lstat [object.absPath]
  let asDir ← hostCall env .stat [object.absPath]
  if asDir.isDir then
    let opened ← hostCall env .opendir [object.absPath]
    assign newFid
      { object with
        dir := if opened.ret < 0 then none else some opened.ret.toNat }
    if opened.ret < 0 then throw (.errno opened.errno) else pure ⟨⟩
  else
    let asReg ← hostCall env .stat [object.absPath]
    if asReg.isReg then
      let opened ← hostCall env .open [object.absPath]
      assign newFid { object with fd := opened.ret }
      if opened.ret < 0 then throw (.errno opened.errno) else pure ⟨⟩
    else
      throw (.errno asReg.errno)

/--
`virtio_p9_create`.  The fid's own path is extended before the file is
opened, and stays so when opening fails.  If the extended path did not fit,
a zero would be written to the byte behind `abs_path`.
-/
def virtioP9Create (dfidVal : UInt32) (pduName : PduString) :
    P9M PUnit := do
  let name ← readString pduName
  let dfid ← getFid lib root env dfidVal
  let object ← deref dfid
  let fullPath ← getFullPath object name
  if !env.strdup then
    throw (.errno eNoMem)
  else
    let extended := object.path ++ slash :: printed name
    let created := setPath object (extended.take (pathRoom object - 1))
    assign dfid created
    if extended.length ≥ pathRoom object then
      throw .corrupt
    else
      let opened ← hostTry env .open [fullPath]
      assign dfid { created with fd := opened.ret }
      let _ ← hostTry env .lstat [fullPath]
      let _ ← hostTry env .chmod [fullPath]
      pure ⟨⟩

/--
What `virtio_p9_mkdir`, `virtio_p9_mknod` and `virtio_p9_symlink` do: make
an entry, look at it and, but for a link, set its mode.
-/
def makeEntry (op : HostOp) (mode : Bool) (dfidVal : UInt32)
    (name : Option CString) : P9M PUnit := do
  let dfid ← getFid lib root env dfidVal
  let object ← deref dfid
  let fullPath ← getFullPath object name
  let _ ← hostTry env op [fullPath]
  let _ ← hostTry env .lstat [fullPath]
  if mode then
    let _ ← hostTry env .chmod [fullPath]
    pure ⟨⟩
  else
    pure ⟨⟩

/-- `virtio_p9_mkdir`. -/
def virtioP9Mkdir (dfidVal : UInt32) (pduName : PduString) :
    P9M PUnit := do
  let name ← readString pduName
  makeEntry lib root env .mkdir true dfidVal name

/-- `virtio_p9_mknod`. -/
def virtioP9Mknod (dfidVal : UInt32) (pduName : PduString) :
    P9M PUnit := do
  let name ← readString pduName
  makeEntry lib root env .mknod true dfidVal name

/-- `virtio_p9_symlink`. -/
def virtioP9Symlink (dfidVal : UInt32) (pduName pduOldPath : PduString) :
    P9M PUnit := do
  let name ← readString pduName
  let _ ← readString pduOldPath
  makeEntry lib root env .symlink false dfidVal name

/--
The loop of `virtio_p9_walk`.  Its counter has eight bits, so with 256 names
or more it does not end by itself; the path grows with every turn, and the
fuel given below outlasts the room for it.
-/
def walkLoop (fid newFid : FidNode) (nwname : UInt16)
    (names : Nat → PduString) : Nat → Nat → UInt8 → P9M PUnit
  | 0, _, _ => pure ⟨⟩
  | fuel + 1, turn, i =>
      if i.toNat < nwname.toNat then do
        let str ← readString (names turn)
        let object ← deref newFid
        let tmp := object.path ++ slash :: printed str
        if tmp.length ≥ pathMax then
          throw (.errno eNameTooLong)
        else
          let _ ← statRel root env tmp
          join newFid tmp
          let from_ ← deref fid
          let joined ← deref newFid
          assign newFid { joined with uid := from_.uid }
          walkLoop fid newFid nwname names fuel (turn + 1) (i + 1)
      else
        pure ⟨⟩

/-- `virtio_p9_walk`. -/
def virtioP9Walk (fidVal newfidVal : UInt32) (nwname : UInt16)
    (names : Nat → PduString) : P9M PUnit := do
  let newFid ← getFid lib root env newfidVal
  let fid ← getFid lib root env fidVal
  let old ← deref fid
  join newFid old.path
  if nwname ≠ 0 then
    walkLoop root env fid newFid nwname names (pathMax + 1) 0 0
  else
    let joined ← deref newFid
    let old ← deref fid
    assign newFid { joined with uid := old.uid }

/-- `virtio_p9_attach`. -/
def virtioP9Attach (fidVal uid : UInt32) (uname aname : PduString) :
    P9M PUnit := do
  let _ ← readString uname
  let _ ← readString aname
  let _ ← hostTry env .lstat [root]
  let fid ← getFid lib root env fidVal
  let object ← deref fid
  assign fid { object with uid := uid }
  join fid [slash]

/-- `virtio_p9_read`, whose reply carries a failed count. -/
def virtioP9Read (fidVal : UInt32) : P9M PUnit := do
  let fid ← getFid lib root env fidVal
  let _ ← deref fid
  let _ ← hostCall env .preadv []
  pure ⟨⟩

/-- The loop of `virtio_p9_readdir`; entries that cannot be seen stay in. -/
def readdirLoop (count : UInt32) : List Dirent → UInt32 → P9M PUnit
  | [], _ => pure ⟨⟩
  | dent :: rest, rcount =>
      if rcount + .ofNat (24 + dent.name.length) > count then do
        let _ ← hostCall env .seekdir []
        pure ⟨⟩
      else
        match getFullPathHelper root dent.name with
        | .error _ => do
            let _ ← hostCall env .readdir []
            readdirLoop count rest (rcount + dent.written)
        | .ok fullPath => do
            let _ ← hostCall env .lstat [fullPath]
            let _ ← hostCall env .readdir []
            readdirLoop count rest (rcount + dent.written)

/-- `virtio_p9_readdir`. -/
def virtioP9Readdir (fidVal count : UInt32) : P9M PUnit := do
  let fid ← getFid lib root env fidVal
  let object ← deref fid
  let answer ← hostCall env .stat [object.absPath]
  if !answer.isDir then
    throw (.errno eInval)
  else if object.dir.isNone then
    throw .crash
  else
    let _ ← hostCall env .seekdir []
    let _ ← hostCall env .readdir []
    readdirLoop root env count env.dirents 0

/-- The handlers that make one host call on the fid's own path. -/
def onPath (op : HostOp) (fidVal : UInt32) : P9M PUnit := do
  let fid ← getFid lib root env fidVal
  let object ← deref fid
  let _ ← hostTry env op [object.absPath]
  pure ⟨⟩

/-- `virtio_p9_getattr`. -/
def virtioP9Getattr (fidVal : UInt32) : P9M PUnit :=
  onPath lib root env .lstat fidVal

/-- `virtio_p9_remove`. -/
def virtioP9Remove (fidVal : UInt32) : P9M PUnit :=
  onPath lib root env .remove fidVal

/-- `virtio_p9_readlink`. -/
def virtioP9Readlink (fidVal : UInt32) : P9M PUnit :=
  onPath lib root env .readlink fidVal

/-- `virtio_p9_statfs`. -/
def virtioP9Statfs (fidVal : UInt32) : P9M PUnit :=
  onPath lib root env .statfs fidVal

/-- The attribute bits `virtio_p9_setattr` looks at. -/
def attrMode : UInt32 := 1
def attrUid : UInt32 := 2
def attrGid : UInt32 := 4
def attrSize : UInt32 := 8
def attrAtime : UInt32 := 16
def attrMtime : UInt32 := 32
def attrCtime : UInt32 := 64
def attrMask : UInt32 := 127

/-- A host call made only under a condition. -/
def hostTryWhen (condition : Bool) (op : HostOp) (path : CString) :
    P9M PUnit :=
  if condition then do
    let _ ← hostTry env op [path]
    pure ⟨⟩
  else
    pure ⟨⟩

/-- `virtio_p9_setattr`. -/
def virtioP9Setattr (fidVal valid : UInt32) : P9M PUnit := do
  let fid ← getFid lib root env fidVal
  let object ← deref fid
  let path := object.absPath
  hostTryWhen env (valid &&& attrMode != 0) .chmod path
  hostTryWhen env (valid &&& (attrAtime ||| attrMtime) != 0) .utimensat path
  hostTryWhen env
    (valid &&& (attrUid ||| attrGid) != 0 ||
      (valid &&& attrCtime != 0 &&
        valid &&& attrMask &&& ~~~ attrCtime == 0)) .lchown path
  hostTryWhen env (valid &&& attrSize != 0) .truncate path

/-- The handlers that make one host call on the fid's descriptor. -/
def onDescriptor (op : HostOp) (fidVal : UInt32) : P9M PUnit := do
  let fid ← getFid lib root env fidVal
  let _ ← deref fid
  let _ ← hostTry env op []
  pure ⟨⟩

/-- `virtio_p9_write`. -/
def virtioP9Write (fidVal : UInt32) : P9M PUnit :=
  onDescriptor lib root env .pwritev fidVal

/-- `virtio_p9_fsync`. -/
def virtioP9Fsync (fidVal : UInt32) : P9M PUnit :=
  onDescriptor lib root env .fsync fidVal

/-- `virtio_p9_rename`. -/
def virtioP9Rename (fidVal newFidVal : UInt32) (pduName : PduString) :
    P9M PUnit := do
  let newName ← readString pduName
  let fid ← getFid lib root env fidVal
  let newFid ← getFid lib root env newFidVal
  let newObject ← deref newFid
  let fullPath ← getFullPath newObject newName
  let object ← deref fid
  let _ ← hostTry env .rename [object.absPath, fullPath]
  pure ⟨⟩

/-- `virtio_p9_link`. -/
def virtioP9Link (dfidVal fidVal : UInt32) (pduName : PduString) :
    P9M PUnit := do
  let name ← readString pduName
  let dfid ← getFid lib root env dfidVal
  let fid ← getFid lib root env fidVal
  let directory ← deref dfid
  let fullPath ← getFullPath directory name
  let object ← deref fid
  let _ ← hostTry env .link [object.absPath, fullPath]
  pure ⟨⟩

/-- `virtio_p9_unlinkat`. -/
def virtioP9Unlinkat (fidVal : UInt32) (pduName : PduString) :
    P9M PUnit := do
  let name ← readString pduName
  let fid ← getFid lib root env fidVal
  let object ← deref fid
  let fullPath ← getFullPath object name
  let _ ← hostTry env .remove [fullPath]
  pure ⟨⟩

/-- `virtio_p9_lock` and `virtio_p9_getlock`, which answer success. -/
def virtioP9Lock (clientId : PduString) : P9M PUnit := do
  let _ ← readString clientId
  pure ⟨⟩

/-- `P9_NOFID`. -/
def p9NoFid : UInt32 := 0xffffffff

/-- `virtio_p9_fix_path` on names that may be null. -/
def fixPath (object : P9Fid) (oldName : CString)
    (newName : Option CString) : Option P9Fid :=
  if newName.isNone ∧ oldName.length = object.path.length then
    none
  else
    some (virtioP9FixPath object oldName (printed newName))

/-- `rename_fids`, over the nodes in order. -/
def renameFids (oldName newName : Option CString) :
    List FidNode → P9M PUnit
  | [] => pure ⟨⟩
  | node :: rest => do
      let object ← deref node
      if object.fid = p9NoFid then
        renameFids oldName newName rest
      else
        match oldName with
        | none => throw .crash
        | some old =>
            if virtioP9Ancestor object.path old then
              match fixPath object old newName with
              | none => throw .crash
              | some fixed => do
                  assign node fixed
                  renameFids oldName newName rest
            else
              renameFids oldName newName rest

/-- `virtio_p9_renameat` up to the host's `rename`; returns the names. -/
def renameatHost (oldDfidVal newDfidVal : UInt32)
    (pduOldName pduNewName : PduString) :
    P9M (Option CString × Option CString) := do
  let oldName ← readString pduOldName
  let newName ← readString pduNewName
  let oldDfid ← getFid lib root env oldDfidVal
  let newDfid ← getFid lib root env newDfidVal
  let oldObject ← deref oldDfid
  let oldFullPath ← getFullPath oldObject oldName
  let newObject ← deref newDfid
  let newFullPath ← getFullPath newObject newName
  let _ ← hostTry env .rename [oldFullPath, newFullPath]
  pure (oldName, newName)

/-- The nodes of the tree, from `rb_first` on. -/
def treeNodes : P9M (List FidNode) :=
  fun state => .ok state.table.tree.inorder state

/-- `virtio_p9_renameat`. -/
def virtioP9Renameat (oldDfidVal newDfidVal : UInt32)
    (pduOldName pduNewName : PduString) : P9M PUnit := do
  let names ←
    renameatHost lib root env oldDfidVal newDfidVal pduOldName pduNewName
  let nodes ← treeNodes
  renameFids names.1 names.2 nodes

/-! ## Requests -/

/-- A request by its decoded fields, as far as its handler uses them. -/
inductive P9Request where
  | version (version : PduString)
  | attach (fid uid : UInt32) (uname aname : PduString)
  | walk (fid newfid : UInt32) (nwname : UInt16) (names : Nat → PduString)
  | clunk (fid : UInt32)
  | open (fid : UInt32)
  | create (dfid : UInt32) (name : PduString)
  | mkdir (dfid : UInt32) (name : PduString)
  | mknod (dfid : UInt32) (name : PduString)
  | symlink (dfid : UInt32) (name oldPath : PduString)
  | link (dfid fid : UInt32) (name : PduString)
  | read (fid : UInt32)
  | readdir (fid count : UInt32)
  | write (fid : UInt32)
  | fsync (fid : UInt32)
  | getattr (fid : UInt32)
  | setattr (fid valid : UInt32)
  | readlink (fid : UInt32)
  | statfs (fid : UInt32)
  | remove (fid : UInt32)
  | rename (fid newFid : UInt32) (newName : PduString)
  | renameat (oldDfid newDfid : UInt32) (oldName newName : PduString)
  | unlinkat (fid : UInt32) (name : PduString)
  | lock (clientId : PduString)
  | getlock (clientId : PduString)
  | flush
  | unsupported

/-- No string of the request has the length that overruns its buffer. -/
def StringsFit : P9Request → Prop
  | .version version => version ≠ .overrun
  | .attach _ _ uname aname => uname ≠ .overrun ∧ aname ≠ .overrun
  | .walk _ _ _ names => ∀ turn, names turn ≠ .overrun
  | .create _ name => name ≠ .overrun
  | .mkdir _ name => name ≠ .overrun
  | .mknod _ name => name ≠ .overrun
  | .symlink _ name oldPath => name ≠ .overrun ∧ oldPath ≠ .overrun
  | .link _ _ name => name ≠ .overrun
  | .rename _ _ newName => newName ≠ .overrun
  | .renameat _ _ oldName newName =>
      oldName ≠ .overrun ∧ newName ≠ .overrun
  | .unlinkat _ name => name ≠ .overrun
  | .lock clientId => clientId ≠ .overrun
  | .getlock clientId => clientId ≠ .overrun
  | _ => True

/-- `EOPNOTSUPP`. -/
def eOpNotSupp : Int := 95

/-- The table `virtio_9p_dotl_handler`. -/
def virtio9pDotlHandler : P9Request → P9M PUnit
  | .version version => virtioP9Version version
  | .attach fid uid uname aname =>
      virtioP9Attach lib root env fid uid uname aname
  | .walk fid newfid nwname names =>
      virtioP9Walk lib root env fid newfid nwname names
  | .clunk fid => virtioP9Clunk lib root env fid
  | .open fid => virtioP9Open lib root env fid
  | .create dfid name => virtioP9Create lib root env dfid name
  | .mkdir dfid name => virtioP9Mkdir lib root env dfid name
  | .mknod dfid name => virtioP9Mknod lib root env dfid name
  | .symlink dfid name oldPath =>
      virtioP9Symlink lib root env dfid name oldPath
  | .link dfid fid name => virtioP9Link lib root env dfid fid name
  | .read fid => virtioP9Read lib root env fid
  | .readdir fid count => virtioP9Readdir lib root env fid count
  | .write fid => virtioP9Write lib root env fid
  | .fsync fid => virtioP9Fsync lib root env fid
  | .getattr fid => virtioP9Getattr lib root env fid
  | .setattr fid valid => virtioP9Setattr lib root env fid valid
  | .readlink fid => virtioP9Readlink lib root env fid
  | .statfs fid => virtioP9Statfs lib root env fid
  | .remove fid => virtioP9Remove lib root env fid
  | .rename fid newFid newName =>
      virtioP9Rename lib root env fid newFid newName
  | .renameat oldDfid newDfid oldName newName =>
      virtioP9Renameat lib root env oldDfid newDfid oldName newName
  | .unlinkat fid name => virtioP9Unlinkat lib root env fid name
  | .lock clientId => virtioP9Lock clientId
  | .getlock clientId => virtioP9Lock clientId
  | .flush => pure ⟨⟩
  | .unsupported => throw (.errno eOpNotSupp)

/-- `virtio_p9_error_reply`: `EMFILE` here means `ENFILE` to the guest. -/
def virtioP9ErrorReply (number : Int) : Int :=
  if number = 24 then 23 else number

/-- `virtio_p9_do_io_request` on one request and its outcomes. -/
def virtioP9DoIoRequest (state : P9State)
    (input : P9Env × P9Request) : P9State :=
  if state.dead then
    state
  else
    match virtio9pDotlHandler lib root input.1 input.2
        { state with asked := 0, looked := 0 } with
    | .ok _ after => { after with replies := after.replies ++ [none] }
    | .error (.errno number) after =>
        { after with
          replies := after.replies ++ [some (virtioP9ErrorReply number)] }
    | .error .crash after => { after with dead := true }
    | .error .corrupt after =>
        { after with dead := true, corrupted := true }

end Effects

/-- The server before the first request. -/
def p9Start : P9State where
  table := .empty
  calls := []
  asked := 0
  looked := 0
  replies := []
  dead := false
  corrupted := false

end Kemu.Virtio.P9.Server
