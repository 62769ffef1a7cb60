import Kemu.Virtio.P9.Atomicity
import Kemu.Virtio.P9.Confinement

/-!
# Renaming and the fids

A file that is renamed takes its fids along: a fid at or below the old path
is to be at or below the new one.  `virtio_p9_renameat` hands the names of
the request to `rename_fids`, which compares them with the paths of the
fids; these begin at the root of the export.  `virtio_p9_rename` does not
look at the fids.
-/

namespace Kemu.Virtio.P9.Rename

open Kemu.Lib.Contract
open Kemu.Lib.SearchTree
open Kemu.Lib.Transition
open Kemu.Virtio.P9.Fid
open Kemu.Virtio.P9.Path
open Kemu.Virtio.P9.Server
open Kemu.Virtio.P9.TableRules
open Kemu.Virtio.P9.Atomicity
open Kemu.Virtio.P9.Confinement

/-! ## Paths -/

/-- A path is another one or lies below it. -/
def AtOrBelow (path ancestor : CString) : Prop :=
  ∃ rest,
    path = ancestor ++ rest ∧ (rest = [] ∨ rest.head? = some slash)

theorem virtioP9Ancestor_iff (path ancestor : CString) :
    virtioP9Ancestor path ancestor = true ↔ AtOrBelow path ancestor := by
  constructor
  · intro matching
    rcases virtioP9Ancestor_split matching with rfl | ⟨more, rfl⟩
    · exact ⟨[], (List.append_nil path).symm, Or.inl rfl⟩
    · exact ⟨slash :: more, rfl, Or.inr rfl⟩
  · rintro ⟨rest, rfl, ends⟩
    rw [virtioP9Ancestor, List.drop_left, Bool.and_eq_true]
    refine ⟨List.isPrefixOf_iff_prefix.mpr (List.prefix_append _ _), ?_⟩
    cases rest with
    | nil => rfl
    | cons next more =>
        have isSlash : next = slash := by simpa using ends
        exact beq_iff_eq.mpr isSlash

instance (path ancestor : CString) : Decidable (AtOrBelow path ancestor) :=
  decidable_of_iff _ (virtioP9Ancestor_iff path ancestor)

/-! ## Requests to rename -/

/-- The two messages by their decoded fields, with strings for names. -/
inductive RenameMessage where
  | rename (fid newFid : UInt32) (newName : List UInt8)
  | renameat (oldDfid newDfid : UInt32) (oldName newName : List UInt8)

/-- The bytes of a name up to its first zero. -/
def nameOf (raw : List UInt8) : CString :=
  raw.takeWhile (· ≠ 0)

namespace RenameMessage

def request : RenameMessage → P9Request
  | .rename fid newFid newName => .rename fid newFid (.text newName)
  | .renameat oldDfid newDfid oldName newName =>
      .renameat oldDfid newDfid (.text oldName) (.text newName)

/-- The fids of a message, in the order in which they are looked up. -/
def fids : RenameMessage → UInt32 × UInt32
  | .rename fid newFid _ => (fid, newFid)
  | .renameat oldDfid newDfid _ _ => (oldDfid, newDfid)

/-- The path that is renamed. -/
def oldPath (source : P9Fid) : RenameMessage → CString
  | .rename _ _ _ => source.path
  | .renameat _ _ oldName _ => source.path ++ slash :: nameOf oldName

/-- What it is renamed to. -/
def newPath (dest : P9Fid) : RenameMessage → CString
  | .rename _ _ newName => dest.path ++ slash :: nameOf newName
  | .renameat _ _ _ newName => dest.path ++ slash :: nameOf newName

end RenameMessage

/-- Every node of the tree has an object of its own. -/
structure Owned (table : FidTable) : Prop where
  distinct : (table.tree.inorder.map FidNode.obj).Nodup
  placed : ∀ node ∈ table.tree.inorder, node.obj < table.next

/-- A request to rename that is successful. -/
structure Renamed (lib : Rebalancer FidNode) (root : CString) (env : P9Env)
    (message : RenameMessage) (state after : P9State) where
  first : FidNode
  second : FidNode
  /-- The table once the first fid is looked up, and then the second. -/
  between : FidTable
  table : FidTable
  source : P9Fid
  dest : P9Fid
  tidy : Tidy root state.table
  owned : Owned state.table
  firstFound :
    findOrCreateFid lib root (env.calloc state.looked) state.table
      message.fids.1 = (between, some first)
  secondFound :
    findOrCreateFid lib root (env.calloc (state.looked + 1)) between
      message.fids.2 = (table, some second)
  origin : table.heap first.obj = some source
  there : table.heap second.obj = some dest
  succeeded :
    virtio9pDotlHandler lib root env message.request state = .ok ⟨⟩ after

/--
The fids of a table follow a file: those at or below the old path get the
new path in place of it, and all others stay where they are.
-/
structure Follows (oldPath newPath : CString) (before after : FidTable) :
    Prop where
  moved :
    ∀ node ∈ before.tree.inorder, ∀ object,
      before.heap node.obj = some object →
        ∀ rest, object.path = oldPath ++ rest →
          (rest = [] ∨ rest.head? = some slash) →
            (after.heap node.obj).map P9Fid.path = some (newPath ++ rest)
  kept :
    ∀ node ∈ before.tree.inorder, ∀ object,
      before.heap node.obj = some object →
        ¬ AtOrBelow object.path oldPath →
          (after.heap node.obj).map P9Fid.path = some object.path

/-! ## What a request does to a path -/

/--
The fids that `rename_fids` changes: the old name, as it is in the request,
is a part of their path from its beginning, and the new path has room.
-/
def Touched (object : P9Fid) : RenameMessage → Prop
  | .rename _ _ _ => False
  | .renameat _ _ oldName newName =>
      object.fid ≠ p9NoFid ∧ AtOrBelow object.path (nameOf oldName) ∧
        (nameOf newName ++
            object.path.drop (nameOf oldName).length).length <
          pathRoom object

instance (object : P9Fid) (message : RenameMessage) :
    Decidable (Touched object message) := by
  cases message with
  | rename => exact instDecidableFalse
  | renameat => exact instDecidableAnd

/-- What is put in place of which beginning of a path. -/
def RenameMessage.splice : RenameMessage → CString × CString
  | .rename _ _ newName => ([], nameOf newName)
  | .renameat _ _ oldName newName => (nameOf oldName, nameOf newName)

/-- The path of a fid after a request. -/
def pathAfter (message : RenameMessage) (object : P9Fid) : CString :=
  if Touched object message then
    message.splice.2 ++ object.path.drop message.splice.1.length
  else
    object.path

/--
When what a request does to a path is right.  A fid that is changed is at or
below the old path, which becomes the new one by the splice, or the splice
changes nothing; a fid that is not changed is not at or below the old path,
or that is the new path too.
-/
structure Placed (message : RenameMessage) (oldPath newPath : CString)
    (object : P9Fid) : Prop where
  below :
    Touched object message → AtOrBelow object.path oldPath →
      message.splice.2 ++ oldPath.drop message.splice.1.length = newPath
  beside :
    Touched object message → ¬ AtOrBelow object.path oldPath →
      message.splice.1 = message.splice.2
  untouched :
    ¬ Touched object message → AtOrBelow object.path oldPath →
      oldPath = newPath

theorem Touched.below {message : RenameMessage} {object : P9Fid}
    (touched : Touched object message) :
    AtOrBelow object.path message.splice.1 := by
  cases message with
  | rename fid newFid newName => exact touched.elim
  | renameat oldDfid newDfid oldName newName => exact touched.2.1

theorem pathAfter_below_iff {message : RenameMessage}
    {oldPath newPath rest : CString} {object : P9Fid}
    (shorter : message.splice.1.length ≤ oldPath.length)
    (path : object.path = oldPath ++ rest) :
    pathAfter message object = newPath ++ rest ↔
      if Touched object message then
        message.splice.2 ++ oldPath.drop message.splice.1.length = newPath
      else
        oldPath = newPath := by
  rw [pathAfter]
  split
  · rw [path, List.drop_append_of_le_length shorter, ← List.append_assoc,
      List.append_left_inj]
  · rw [path, List.append_left_inj]

theorem pathAfter_self_iff {message : RenameMessage} {object : P9Fid} :
    pathAfter message object = object.path ↔
      (Touched object message → message.splice.1 = message.splice.2) := by
  rw [pathAfter]
  split
  case isTrue touched =>
    obtain ⟨rest, path, -⟩ := touched.below
    rw [path, List.drop_left, List.append_left_inj, eq_comm]
    exact ⟨fun same _ => same, fun all => all touched⟩
  case isFalse untouched =>
    exact iff_of_true rfl fun touched => absurd touched untouched

/-- A path is what it is to be after a request if and only if it is placed. -/
theorem placed_iff {message : RenameMessage} {oldPath newPath : CString}
    {object : P9Fid}
    (shorter : message.splice.1.length ≤ oldPath.length) :
    ((∀ rest, object.path = oldPath ++ rest →
          (rest = [] ∨ rest.head? = some slash) →
            pathAfter message object = newPath ++ rest) ∧
        (¬ AtOrBelow object.path oldPath →
          pathAfter message object = object.path)) ↔
      Placed message oldPath newPath object := by
  constructor
  · rintro ⟨moved, kept⟩
    refine ⟨?_, ?_, ?_⟩
    · rintro touched ⟨rest, path, ends⟩
      have same := (pathAfter_below_iff shorter path).mp (moved rest path ends)
      rw [if_pos touched] at same
      exact same
    · intro touched beside
      exact pathAfter_self_iff.mp (kept beside) touched
    · rintro untouched ⟨rest, path, ends⟩
      have same := (pathAfter_below_iff shorter path).mp (moved rest path ends)
      rw [if_neg untouched] at same
      exact same
  · intro placed
    refine ⟨?_, ?_⟩
    · intro rest path ends
      rw [pathAfter_below_iff shorter path]
      split
      case isTrue touched => exact placed.below touched ⟨rest, path, ends⟩
      case isFalse untouched =>
        exact placed.untouched untouched ⟨rest, path, ends⟩
    · intro beside
      exact pathAfter_self_iff.mpr fun touched =>
        placed.beside touched beside

/-! ## The fix-up -/

section FixUp

variable {root : CString}

/-- What `rename_fids` makes of an object. -/
def fixed (oldName newName : CString) (object : P9Fid) : P9Fid :=
  if object.fid = p9NoFid then
    object
  else if virtioP9Ancestor object.path oldName then
    virtioP9FixPath object oldName newName
  else
    object

/-- Every object is fixed once. -/
theorem renameFids_ok {oldName newName : CString} {nodes : List FidNode}
    {state after : P9State}
    (ok :
      renameFids (some oldName) (some newName) nodes state = .ok ⟨⟩ after)
    (distinct : (nodes.map FidNode.obj).Nodup) :
    (∀ obj, obj ∉ nodes.map FidNode.obj →
        after.table.heap obj = state.table.heap obj) ∧
      ∀ node ∈ nodes, ∀ object,
        state.table.heap node.obj = some object →
          after.table.heap node.obj =
            some (fixed oldName newName object) := by
  induction nodes generalizing state with
  | nil =>
      cases ok
      exact ⟨fun _ _ => rfl, fun _ member => absurd member List.not_mem_nil⟩
  | cons first rest induction =>
      rw [List.map_cons, List.nodup_cons] at distinct
      rw [renameFids] at ok
      obtain ⟨object, now, read, opened⟩ := of_bind_ok ok
      have there : state.table.heap first.obj = some object ∧ now = state := by
        rw [deref] at read
        split at read
        · cases read
        case h_2 found present =>
          cases read
          exact ⟨present, rfl⟩
      obtain ⟨there, rfl⟩ := there
      -- the rest of the loop runs where the first object is fixed
      have goesOn :
          ∃ next,
            renameFids (some oldName) (some newName) rest next =
                .ok ⟨⟩ after ∧
              next.table.heap =
                Function.update now.table.heap first.obj
                  (some (fixed oldName newName object)) := by
        have same :
            Function.update now.table.heap first.obj (some object) =
              now.table.heap := by
          rw [← there, Function.update_eq_self]
        rw [fixed]
        by_cases none : object.fid = p9NoFid
        · rw [if_pos none] at opened ⊢
          exact ⟨now, opened, same.symm⟩
        · rw [if_neg none] at opened ⊢
          dsimp only at opened
          by_cases matching : virtioP9Ancestor object.path oldName = true
          · rw [if_pos matching] at opened ⊢
            have fix :
                fixPath object oldName (some newName) =
                  some (virtioP9FixPath object oldName newName) :=
              if_neg fun null => Bool.false_ne_true null.1
            rw [fix] at opened
            obtain ⟨_, next, assigned, last⟩ := of_bind_ok opened
            cases assigned
            exact ⟨_, last, rfl⟩
          · rw [if_neg matching] at opened ⊢
            exact ⟨now, opened, same.symm⟩
      obtain ⟨next, ran, heap⟩ := goesOn
      obtain ⟨others, fixes⟩ := induction ran distinct.2
      refine ⟨?_, ?_⟩
      · intro obj absent
        rw [List.map_cons, List.mem_cons, not_or] at absent
        rw [others obj absent.2, heap, Function.update_of_ne absent.1]
      · intro node member old present
        rcases List.mem_cons.mp member with rfl | behind
        · rw [present] at there
          cases there
          rw [others node.obj distinct.1, heap, Function.update_self]
        · have apart : node.obj ≠ first.obj := by
            rintro same
            exact distinct.1 (same ▸ List.mem_map_of_mem behind)
          refine fixes node behind old ?_
          rw [heap, Function.update_of_ne apart]
          exact present

/-- A fixed path is the spliced one where that has room. -/
theorem path_fixed {object : P9Fid} (shaped : Shaped root object)
    (oldDfid newDfid : UInt32) (oldName newName : List UInt8) :
    (fixed (nameOf oldName) (nameOf newName) object).path =
      pathAfter (.renameat oldDfid newDfid oldName newName) object := by
  have joins (name : CString) :
      ((joinPath object name).getD object).path =
        if name.length < pathRoom object then name else object.path := by
    rw [joinPath]
    by_cases room : name.length < pathRoom object
    · rw [if_neg (Nat.not_le.mpr room), if_pos room]
      exact shaped.path_setPath name
    · rw [if_pos (Nat.not_lt.mp room), if_neg room]
      rfl
  have small : pathRoom object ≤ pathMax := Nat.sub_le ..
  rw [fixed, pathAfter]
  by_cases none : object.fid = p9NoFid
  · rw [if_pos none, if_neg fun touched => touched.1 none]
  · rw [if_neg none]
    by_cases matching : AtOrBelow object.path (nameOf oldName)
    · rw [if_pos ((virtioP9Ancestor_iff ..).mpr matching)]
      have touched :
          Touched object (.renameat oldDfid newDfid oldName newName) ↔
            (nameOf newName ++
                object.path.drop (nameOf oldName).length).length <
              pathRoom object :=
        ⟨fun all => all.2.2, fun room => ⟨none, matching, room⟩⟩
      simp only [touched]
      rw [virtioP9FixPath]
      by_cases whole : (nameOf oldName).length = object.path.length
      · have all :
            nameOf newName ++ object.path.drop (nameOf oldName).length =
              nameOf newName := by
          rw [whole, List.drop_length, List.append_nil]
        rw [if_pos whole, joins]
        simp only [RenameMessage.splice, all]
      · rw [if_neg whole]
        dsimp only
        split
        case isTrue long =>
          rw [if_neg (by omega)]
        case isFalse =>
          rw [joins]
          rfl
    · rw [if_neg fun matches' =>
          matching ((virtioP9Ancestor_iff ..).mp matches'),
        if_neg fun touched => matching touched.2.1]

end FixUp

/-! ## Tables -/

section Tables

variable {lib : Rebalancer FidNode} {root : CString}

/-- A fid that is created has an object that no other has. -/
theorem owned_reading : Reading lib root Owned := by
  intro calloc table fid owned
  rw [findOrCreateFid]
  split
  · exact owned
  · split
    · exact owned
    · split
      · exact owned
      · show Owned (insertNewFid lib _ ⟨fid, table.next⟩).2
        rw [insertNewFid]
        have placed (node : FidNode) (member : node ∈ table.tree.inorder) :
            node.obj < table.next + 1 :=
          Nat.lt_succ_of_lt (owned.placed node member)
        split
        · exact ⟨owned.distinct, placed⟩
        case h_2 tree attached =>
          have perm := TreeOf.attach_perm attached
          have fresh :
              table.next ∉ table.tree.inorder.map FidNode.obj := by
            intro taken
            obtain ⟨node, member, same⟩ := List.mem_map.mp taken
            have before := owned.placed node member
            omega
          refine ⟨?_, ?_⟩
          · show ((lib.insertColor tree _).inorder.map _).Nodup
            rw [lib.insertColor_inorder,
              (perm.map FidNode.obj).nodup_iff, List.map_cons,
              List.nodup_cons]
            exact ⟨fresh, owned.distinct⟩
          · intro node member
            have inserted :
                node ∈ (lib.insertColor tree ⟨fid, table.next⟩).inorder :=
              member
            rw [lib.insertColor_inorder, perm.mem_iff,
              List.mem_cons] at inserted
            rcases inserted with rfl | old
            · exact Nat.lt_succ_self _
            · exact placed node old

end Tables

/-! ## Successful requests -/

section Requests

variable {lib : Rebalancer FidNode} {root : CString} {env : P9Env}
  {message : RenameMessage} {state after : P9State}

theorem of_outcome_ok {Value : Type} {start now : P9State}
    {post : Value → FidTable → Prop} {failed : FidTable → Prop}
    {result : EStateM.Result Stop P9State Value} {value : Value}
    {bursts : Prop} (outcome : Outcome bursts start post failed result)
    (ok : result = .ok value now) : post value now.table := by
  rw [ok] at outcome
  exact outcome.2

namespace Renamed

/-- The state once both fids are looked up. -/
def looked (renamed : Renamed lib root env message state after) : P9State :=
  { state with
    table := renamed.table
    looked := state.looked + 1 + 1 }

theorem tidy_table (renamed : Renamed lib root env message state after) :
    Tidy root renamed.table ∧ Owned renamed.table := by
  have keeps {kept : FidTable → Prop} (reading : Reading lib root kept)
      (start : kept state.table) : kept renamed.table := by
    have first := reading (env.calloc state.looked) _ message.fids.1 start
    rw [renamed.firstFound] at first
    have second :=
      reading (env.calloc (state.looked + 1)) _ message.fids.2 first
    rw [renamed.secondFound] at second
    exact second
  exact ⟨keeps tidy_reading renamed.tidy, keeps owned_reading renamed.owned⟩

/-- `virtio_p9_rename` leaves the fids alone. -/
theorem table_rename {fid newFid : UInt32} {newName : List UInt8}
    (renamed :
      Renamed lib root env (.rename fid newFid newName) state after) :
    after.table = renamed.table := by
  have rest :
      Handles True (· = renamed.table)
        (do
          let newObject ← deref renamed.second
          let fullPath ← getFullPath newObject (some (nameOf newName))
          let object ← deref renamed.first
          let _ ← hostTry env .rename [object.absPath, fullPath]
          pure PUnit.unit)
        (fun _ => (· = renamed.table)) fun _ => True := by
    have fails (table : FidTable) (_ : table = renamed.table) : True :=
      trivial
    refine .bind (reading_deref _) fun newObject => ?_
    refine .bind (handles_getFullPath fails _ _) fun fullPath => ?_
    refine .bind (reading_deref _) fun object => ?_
    refine .bind (handles_hostTry fails _ _) fun _ => ?_
    exact .pure fun _ holds => holds
  have ends := rest renamed.looked rfl
  have run :
      virtioP9Rename lib root env fid newFid (.text newName) state =
        _ :=
    (bind_of_ok rfl).trans
      ((bind_of_ok (getFid_of_some renamed.firstFound)).trans
        (bind_of_ok (getFid_of_some renamed.secondFound)))
  exact of_outcome_ok ends (run.symm.trans renamed.succeeded)

/-- `virtio_p9_renameat` fixes the objects of all nodes. -/
theorem heap_renameat {oldDfid newDfid : UInt32}
    {oldName newName : List UInt8}
    (renamed :
      Renamed lib root env (.renameat oldDfid newDfid oldName newName) state
        after)
    {node : FidNode} (member : node ∈ renamed.table.tree.inorder)
    {object : P9Fid} (there : renamed.table.heap node.obj = some object) :
    after.table.heap node.obj =
      some (fixed (nameOf oldName) (nameOf newName) object) := by
  have rest :
      Handles True (· = renamed.table)
        (do
          let oldObject ← deref renamed.first
          let oldFullPath ← getFullPath oldObject (some (nameOf oldName))
          let newObject ← deref renamed.second
          let newFullPath ← getFullPath newObject (some (nameOf newName))
          let _ ← hostTry env .rename [oldFullPath, newFullPath]
          pure (some (nameOf oldName), some (nameOf newName)))
        (fun names table =>
          table = renamed.table ∧
            names = (some (nameOf oldName), some (nameOf newName)))
        fun _ => True := by
    have fails (table : FidTable) (_ : table = renamed.table) : True :=
      trivial
    refine .bind (reading_deref _) fun oldObject => ?_
    refine .bind (handles_getFullPath fails _ _) fun oldFullPath => ?_
    refine .bind (reading_deref _) fun newObject => ?_
    refine .bind (handles_getFullPath fails _ _) fun newFullPath => ?_
    refine .bind (handles_hostTry fails _ _) fun _ => ?_
    exact .pure fun _ holds => ⟨holds, rfl⟩
  have ends := rest renamed.looked rfl
  obtain ⟨names, now, host, fixing⟩ :=
    of_bind_ok
      (show
        (renameatHost lib root env oldDfid newDfid (.text oldName)
              (.text newName) >>= fun names => do
            let nodes ← treeNodes
            renameFids names.1 names.2 nodes)
          state = .ok ⟨⟩ after from renamed.succeeded)
  have run :
      renameatHost lib root env oldDfid newDfid (.text oldName)
          (.text newName) state = _ :=
    (bind_of_ok rfl).trans
      ((bind_of_ok rfl).trans
        ((bind_of_ok (getFid_of_some renamed.firstFound)).trans
          (bind_of_ok (getFid_of_some renamed.secondFound))))
  obtain ⟨table, rfl⟩ := of_outcome_ok ends (run.symm.trans host)
  obtain ⟨nodes, _, walked, last⟩ := of_bind_ok fixing
  cases walked
  rw [← table] at member there
  have owned := renamed.tidy_table.2
  rw [← table] at owned
  exact (renameFids_ok last owned.distinct).2 node member object there

/-- Where the fids are after a request. -/
theorem path_after (renamed : Renamed lib root env message state after)
    {node : FidNode} (member : node ∈ renamed.table.tree.inorder)
    {object : P9Fid} (there : renamed.table.heap node.obj = some object) :
    (after.table.heap node.obj).map P9Fid.path =
      some (pathAfter message object) := by
  cases message with
  | rename fid newFid newName =>
      have untouched : ¬ Touched object (.rename fid newFid newName) := id
      rw [renamed.table_rename, there, pathAfter, if_neg untouched]
      rfl
  | renameat oldDfid newDfid oldName newName =>
      have shaped := renamed.tidy_table.1.shaped _ _ there
      rw [renamed.heap_renameat member there, Option.map_some,
        path_fixed shaped]

end Renamed

theorem RenameMessage.splice_shorter (message : RenameMessage)
    (source : P9Fid) :
    message.splice.1.length ≤ (message.oldPath source).length := by
  cases message with
  | rename fid newFid newName => exact Nat.zero_le _
  | renameat oldDfid newDfid oldName newName =>
      show (nameOf oldName).length ≤
        (source.path ++ slash :: nameOf oldName).length
      rw [List.length_append, List.length_cons]
      omega

/--
The fids follow the file that is renamed if and only if each of them is
placed.
-/
theorem renamed_follows_iff
    (renamed : Renamed lib root env message state after) :
    Follows (message.oldPath renamed.source)
        (message.newPath renamed.dest) renamed.table after.table ↔
      ∀ node ∈ renamed.table.tree.inorder, ∀ object,
        renamed.table.heap node.obj = some object →
          Placed message (message.oldPath renamed.source)
            (message.newPath renamed.dest) object := by
  have shorter := message.splice_shorter renamed.source
  constructor
  · intro follows node member object there
    have path := renamed.path_after member there
    refine (placed_iff shorter).mp ⟨?_, ?_⟩
    · intro rest split ends
      have moved := follows.moved node member object there rest split ends
      rw [path] at moved
      exact Option.some.inj moved
    · intro beside
      have kept := follows.kept node member object there beside
      rw [path] at kept
      exact Option.some.inj kept
  · intro placed
    refine ⟨?_, ?_⟩
    · intro node member object there rest split ends
      have right := (placed_iff shorter).mpr (placed node member object there)
      rw [renamed.path_after member there, right.1 rest split ends]
    · intro node member object there beside
      have right := (placed_iff shorter).mpr (placed node member object there)
      rw [renamed.path_after member there, right.2 beside]

end Requests

/-- Fid 0 is attached, and fid 1 walked to the file `a` in the export. -/
def walkedState : P9State :=
  run (virtioP9DoIoRequest (.plain _) exportRoot) p9Start
    [(willing, .attach 0 0 (.text []) (.text [])),
      (willing, .walk 0 1 1 fun _ => .text [97])]

theorem walkedState_fids :
    walkedState.table.tree.inorder = [⟨0, 0⟩, ⟨1, 1⟩] ∧
      walkedState.table.heap 0 =
        some ⟨0, 0, exportRoot ++ [47], 7, none, 0⟩ ∧
      walkedState.table.heap 1 =
        some ⟨1, 0, exportRoot ++ [47, 47, 97], 7, none, 0⟩ := by
  decide +kernel

/-- The state after a request to rename. -/
def stateAfter (message : RenameMessage) : P9State :=
  match
    virtio9pDotlHandler (.plain _) exportRoot willing message.request
      walkedState with
  | .ok _ after => after
  | .error _ after => after

/-- The file `b` is renamed to `c`. -/
def renamedBeside :
    Renamed (.plain _) exportRoot willing (.renameat 0 0 [98] [99])
      walkedState (stateAfter (.renameat 0 0 [98] [99])) where
  first := ⟨0, 0⟩
  second := ⟨0, 0⟩
  between := walkedState.table
  table := walkedState.table
  source := ⟨0, 0, exportRoot ++ [47], 7, none, 0⟩
  dest := ⟨0, 0, exportRoot ++ [47], 7, none, 0⟩
  tidy := (alive_run (.plain _) exportRoot _).resolve_left (by decide +kernel)
  owned := ⟨by decide +kernel, by decide +kernel⟩
  firstFound := rfl
  secondFound := rfl
  origin := rfl
  there := rfl
  succeeded := rfl

/-- No fid is at or below the file `b`, and none is changed. -/
theorem renamed_follows_on_beside :
    let message : RenameMessage := .renameat 0 0 [98] [99]
    Follows (message.oldPath renamedBeside.source)
      (message.newPath renamedBeside.dest) renamedBeside.table
      (stateAfter message).table := by
  intro message
  refine (renamed_follows_iff renamedBeside).mpr ?_
  have nodes :
      renamedBeside.table.tree.inorder = [⟨0, 0⟩, ⟨1, 1⟩] := by
    decide +kernel
  have first :
      renamedBeside.table.heap (⟨0, 0⟩ : FidNode).obj =
        some ⟨0, 0, exportRoot ++ [47], 7, none, 0⟩ := by
    decide +kernel
  have second :
      renamedBeside.table.heap (⟨1, 1⟩ : FidNode).obj =
        some ⟨1, 0, exportRoot ++ [47, 47, 97], 7, none, 0⟩ := by
    decide +kernel
  intro node member object there
  have oldPath : message.oldPath renamedBeside.source = [47, 47, 98] := rfl
  have placed (object : P9Fid) (untouched : ¬ Touched object message)
      (beside : ¬ AtOrBelow object.path [47, 47, 98]) :
      Placed message (message.oldPath renamedBeside.source)
        (message.newPath renamedBeside.dest) object := by
    rw [oldPath]
    exact ⟨fun touched => absurd touched untouched,
      fun touched => absurd touched untouched,
      fun _ below => absurd below beside⟩
  rw [nodes, List.mem_cons, List.mem_singleton] at member
  rcases member with rfl | rfl
  · obtain rfl := Option.some.inj (first.symm.trans there)
    exact placed _ (by decide) (by decide)
  · obtain rfl := Option.some.inj (second.symm.trans there)
    exact placed _ (by decide) (by decide)

/--
The file `a` is renamed to `c`, by either message, and its fid stays at
`//a`.
-/
theorem renamed_left_behind :
    virtio9pDotlHandler (.plain _) exportRoot willing
          (.renameat 0 0 (.text [97]) (.text [99])) walkedState =
        .ok ⟨⟩ (stateAfter (.renameat 0 0 [97] [99])) ∧
      ¬ Follows [47, 47, 97] [47, 47, 99] walkedState.table
          (stateAfter (.renameat 0 0 [97] [99])).table ∧
      virtio9pDotlHandler (.plain _) exportRoot willing
          (.rename 1 0 (.text [99])) walkedState =
        .ok ⟨⟩ (stateAfter (.rename 1 0 [99])) ∧
      ¬ Follows [47, 47, 97] [47, 47, 99] walkedState.table
          (stateAfter (.rename 1 0 [99])).table := by
  have stays (message : RenameMessage)
      (path :
        ((stateAfter message).table.heap 1).map P9Fid.path =
          some [47, 47, 97]) :
      ¬ Follows [47, 47, 97] [47, 47, 99] walkedState.table
          (stateAfter message).table := by
    intro follows
    obtain ⟨nodes, -, there⟩ := walkedState_fids
    have member : (⟨1, 1⟩ : FidNode) ∈ walkedState.table.tree.inorder := by
      rw [nodes]
      decide
    have moves := follows.moved ⟨1, 1⟩ member
    dsimp only at moves
    have moved := moves _ there [] (by decide) (Or.inl rfl)
    rw [path] at moved
    exact absurd moved (by decide)
  refine ⟨rfl, stays _ ?_, rfl, stays _ ?_⟩
  · decide +kernel
  · decide +kernel

end Kemu.Virtio.P9.Rename
