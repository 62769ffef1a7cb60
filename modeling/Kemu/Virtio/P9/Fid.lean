import Kemu.Lib.SearchTree
import Kemu.Lib.Transition
import Mathlib.Algebra.Group.Int.Defs
import Mathlib.Algebra.Group.Nat.Defs
import Mathlib.Logic.Function.Basic

/-!
# The fid table of the 9p server

Fids are kept in a red-black tree.  `find_or_create_fid` searches it with the
unsigned comparison of two fid numbers; `insert_new_fid` descends by the sign
of their difference as an `int`.  The two agree as long as the numbers are
less than `2^31` apart.

The tree library is a parameter; what is assumed of it is its effect on the
in-order sequence.
-/

namespace Kemu.Virtio.P9.Fid

open Kemu.Lib.SearchTree
open Kemu.Lib.Transition

/-! ## The code -/

/-- The bytes of a C string before its terminating zero. -/
abbrev CString := List UInt8

/-- `PATH_MAX`, the size of `abs_path`. -/
def pathMax : Nat := 4096

/-- `struct p9_fid`; `path` is kept as its offset into `abs_path`. -/
structure P9Fid where
  fid : UInt32
  uid : UInt32
  absPath : CString
  pathOff : Nat
  dir : Option Nat
  fd : Int
deriving DecidableEq, Repr

/-- The string `fid->path` points to. -/
def P9Fid.path (pfid : P9Fid) : CString :=
  pfid.absPath.drop pfid.pathOff

/-- A fid object as the tree sees it: its number and its address. -/
structure FidNode where
  fid : UInt32
  obj : Nat
deriving DecidableEq, Repr

/-- The tree, the allocated objects and the next unused address. -/
structure FidTable where
  tree : TreeOf FidNode
  heap : Nat → Option P9Fid
  next : Nat

/-- The comparison of `find_or_create_fid`. -/
def lookupOrder (fid : UInt32) (cur : FidNode) : Ordering :=
  if fid < cur.fid then
    .lt
  else if fid > cur.fid then
    .gt
  else
    .eq

/-- The comparison of `insert_new_fid`: `int result = fid - cur`. -/
def insertOrder (fid : UInt32) (cur : FidNode) : Ordering :=
  let result := (fid - cur.fid).toInt32
  if result < 0 then
    .lt
  else if result > 0 then
    .gt
  else
    .eq

section Code

variable (lib : Rebalancer FidNode) (rootDir : CString)

/-- `-EEXIST`. -/
def eExist : Int := -17

/-- `insert_new_fid`. -/
def insertNewFid (table : FidTable) (new : FidNode) : Int × FidTable :=
  match table.tree.attach (insertOrder new.fid) new with
  | none => (eExist, table)
  | some tree => (0, { table with tree := lib.insertColor tree new })

/-- The object `find_or_create_fid` allocates. -/
def newFid (fid : UInt32) : P9Fid where
  fid := fid
  uid := 0
  absPath := rootDir
  pathOff := rootDir.length
  dir := none
  fd := 0

/--
`find_or_create_fid`.  The result of `insert_new_fid` is not looked at; the
answer is `none` for a null pointer.
-/
def findOrCreateFid (calloc : Bool) (table : FidTable) (fid : UInt32) :
    FidTable × Option FidNode :=
  match table.tree.search (lookupOrder fid) with
  | some cur => (table, some cur)
  | none =>
      if !calloc then
        (table, none)
      else if rootDir.length ≥ pathMax then
        (table, none)
      else
        let pfid : FidNode := ⟨fid, table.next⟩
        let table :=
          { table with
            heap :=
              Function.update table.heap pfid.obj (some (newFid rootDir fid))
            next := table.next + 1 }
        ((insertNewFid lib table pfid).2, some pfid)

/-- `close_fid`; `none` when it dereferences a null pointer. -/
def closeFid (calloc : Bool) (table : FidTable) (fid : UInt32) :
    Option FidTable :=
  match findOrCreateFid lib rootDir calloc table fid with
  | (_, none) => none
  | (table, some pfid) =>
      some
        { table with
          tree := lib.erase table.tree pfid
          heap := Function.update table.heap pfid.obj none }

/-- An empty table. -/
def FidTable.empty : FidTable where
  tree := .leaf
  heap _ := none
  next := 0

/-! ## Runs of the table -/

/-- What a handler stores in a fid it holds. -/
structure FidData where
  uid : UInt32
  absPath : CString
  dir : Option Nat
  fd : Int
deriving DecidableEq, Repr

/-- The fields a handler may set. -/
def FidData.store (data : FidData) (pfid : P9Fid) : P9Fid :=
  { pfid with
    uid := data.uid
    absPath := data.absPath
    dir := data.dir
    fd := data.fd }

/-- The calls the handlers make, with the outcome of `calloc`. -/
inductive FidCall where
  | find (fid : UInt32) (calloc : Bool)
  | assign (fid : UInt32) (calloc : Bool) (data : FidData)
  | close (fid : UInt32) (calloc : Bool)
deriving DecidableEq, Repr

/--
The table with a record of its intended content: for every number that was
created and not closed, the object and what was last stored in it.
-/
structure FidState where
  table : FidTable
  held : UInt32 → Option (Nat × P9Fid)
  crashed : Bool

/-- The record after a number was asked for. -/
def FidState.hold (state : FidState) (fid : UInt32) :
    Option (Nat × P9Fid) :=
  some ((state.held fid).getD (state.table.next, newFid rootDir fid))

/-- One call. -/
def fidStep (state : FidState) (call : FidCall) : FidState :=
  if state.crashed then
    state
  else
    match call with
    | .find fid calloc =>
        match findOrCreateFid lib rootDir calloc state.table fid with
        | (_, none) => state
        | (table, some _) =>
            { state with
              table := table
              held := Function.update state.held fid (state.hold rootDir fid) }
    | .assign fid calloc data =>
        match findOrCreateFid lib rootDir calloc state.table fid with
        | (_, none) => { state with crashed := true }
        | (table, some pfid) =>
            { state with
              table :=
                { table with
                  heap :=
                    Function.update table.heap pfid.obj
                      ((table.heap pfid.obj).map data.store) }
              held :=
                Function.update state.held fid
                  ((state.hold rootDir fid).map fun entry =>
                    (entry.1, data.store entry.2)) }
    | .close fid calloc =>
        match closeFid lib rootDir calloc state.table fid with
        | none => { state with crashed := true }
        | some table =>
            { state with
              table := table
              held := Function.update state.held fid none }

/-- The server before the first request. -/
def fidStart : FidState where
  table := .empty
  held _ := none
  crashed := false

end Code

/-! ## The two comparisons -/

/-- The number of a node, as the lookup compares it. -/
def fidKey (node : FidNode) : Nat :=
  node.fid.toNat

/-- Numbers close enough for the sign of their difference to be right. -/
def Near (fid cur : UInt32) : Prop :=
  (fid < cur → cur.toNat - fid.toNat ≤ 2 ^ 31) ∧
    (cur < fid → fid.toNat - cur.toNat < 2 ^ 31)

theorem lookupOrder_eq_towards (fid : UInt32) :
    lookupOrder fid = TreeOf.towards fidKey fid.toNat := by
  funext cur
  rw [lookupOrder, TreeOf.towards, fidKey]
  simp only [UInt32.lt_iff_toNat_lt, gt_iff_lt]
  split
  · exact (compare_lt_iff_lt.2 ‹_›).symm
  · split
    · exact (compare_gt_iff_gt.2 ‹_›).symm
    · exact (compare_eq_iff_eq.2 (by omega)).symm

theorem toInt_difference (fid cur : UInt32) :
    (fid - cur).toInt32.toInt =
      if (fid - cur).toNat < 2 ^ 31 then
        ((fid - cur).toNat : Int)
      else
        ((fid - cur).toNat : Int) - 2 ^ 32 := by
  rw [← Int32.toInt_toBitVec, UInt32.toBitVec_toInt32,
    BitVec.toInt_eq_toNat_cond]
  simp only [UInt32.toNat_toBitVec]
  split <;> split <;> omega

/-- The comparisons agree on exactly the numbers that are near. -/
theorem insertOrder_eq_lookupOrder_iff (fid : UInt32) (cur : FidNode) :
    insertOrder fid cur = lookupOrder fid cur ↔ Near fid cur.fid := by
  have difference := toInt_difference fid cur.fid
  have wrapped := UInt32.toNat_sub fid cur.fid
  have fidBound := fid.toNat_lt
  have curBound := cur.fid.toNat_lt
  rw [insertOrder, lookupOrder, Near]
  simp only [Int32.lt_iff_toInt_lt, gt_iff_lt, UInt32.lt_iff_toNat_lt,
    Int32.toInt_zero]
  split at difference <;> rw [difference] <;> (repeat' split) <;>
    simp <;> omega

/-- The difference of two numbers is zero for equal ones only. -/
theorem fid_eq_of_insertOrder_eq {fid : UInt32} {cur : FidNode}
    (equal : insertOrder fid cur = .eq) : cur.fid = fid := by
  have difference := toInt_difference fid cur.fid
  have wrapped := UInt32.toNat_sub fid cur.fid
  have fidBound := fid.toNat_lt
  have curBound := cur.fid.toNat_lt
  rw [insertOrder] at equal
  simp only [Int32.lt_iff_toInt_lt, gt_iff_lt, Int32.toInt_zero] at equal
  apply UInt32.toNat_inj.1
  split at equal
  · cases equal
  · split at equal
    · cases equal
    · split at difference <;> omega

/-! ## The table is what it should be -/

section Table

variable (lib : Rebalancer FidNode) (rootDir : CString)

/--
At most one node a number, in unsigned order; every number created and not
closed is in the tree, and looking it up returns its object with what was
last stored there.
-/
structure Sound (state : FidState) : Prop where
  ordered : state.table.tree.Ordered fidKey
  linked :
    ∀ fid obj pfid, state.held fid = some (obj, pfid) →
      ⟨fid, obj⟩ ∈ state.table.tree.inorder
  found :
    ∀ fid obj pfid calloc, state.held fid = some (obj, pfid) →
      findOrCreateFid lib rootDir calloc state.table fid =
          (state.table, some ⟨fid, obj⟩) ∧
        state.table.heap obj = some pfid

/-- The call allocates an object. -/
def Allocates (calloc : Bool) : Prop :=
  calloc = true ∧ rootDir.length < pathMax

/--
The call does not put a new number on the wrong side of one that is not
near: the number is in the table already, or nothing is allocated, or every
number the lookup passes is near.
-/
def Placed (state : FidState) (fid : UInt32) (calloc : Bool) : Prop :=
  state.crashed = true ∨
    (∃ cur ∈ state.table.tree.inorder, cur.fid = fid) ∨
    ¬ Allocates rootDir calloc ∨
    ∀ cur ∈ state.table.tree.path (lookupOrder fid), Near fid cur.fid

/-- Closing a number that is not there takes its node out again. -/
def CallPlaced (state : FidState) : FidCall → Prop
  | .find fid calloc => Placed rootDir state fid calloc
  | .assign fid calloc _ => Placed rootDir state fid calloc
  | .close _ _ => True

/-- The tree, the heap and the record describe one another. -/
structure FidInvariant (state : FidState) : Prop where
  ordered : state.table.tree.Ordered fidKey
  held :
    ∀ fid obj pfid,
      state.held fid = some (obj, pfid) ↔
        ⟨fid, obj⟩ ∈ state.table.tree.inorder ∧
          state.table.heap obj = some pfid
  backed :
    ∀ node ∈ state.table.tree.inorder,
      ∃ pfid, state.table.heap node.obj = some pfid
  distinct :
    ∀ first ∈ state.table.tree.inorder,
      ∀ second ∈ state.table.tree.inorder,
        first.obj = second.obj → first = second
  unused : ∀ obj, state.table.next ≤ obj → state.table.heap obj = none

/-- The table after an object was allocated and attached somewhere. -/
def FidTable.created (table : FidTable) (fid : UInt32)
    (tree : TreeOf FidNode) : FidTable where
  tree := lib.insertColor tree ⟨fid, table.next⟩
  heap :=
    Function.update table.heap table.next (some (newFid rootDir fid))
  next := table.next + 1

/-- The three ways a lookup goes. -/
inductive Lookup (state : FidState) (fid : UInt32) (calloc : Bool) :
    FidTable × Option FidNode → Prop where
  | hit (obj : Nat) (pfid : P9Fid)
      (entry : state.held fid = some (obj, pfid)) :
      Lookup state fid calloc (state.table, some ⟨fid, obj⟩)
  | null
      (entry : state.held fid = none)
      (refused : ¬ Allocates rootDir calloc) :
      Lookup state fid calloc (state.table, none)
  | miss (tree : TreeOf FidNode)
      (entry : state.held fid = none)
      (allocates : Allocates rootDir calloc)
      (attached :
        state.table.tree.attach (insertOrder fid)
          ⟨fid, state.table.next⟩ = some tree) :
      Lookup state fid calloc
        (state.table.created lib rootDir fid tree,
          some ⟨fid, state.table.next⟩)

variable {lib rootDir} {state : FidState}

theorem FidInvariant.held_eq_none_iff (holds : FidInvariant state)
    (fid : UInt32) :
    state.held fid = none ↔
      ∀ node ∈ state.table.tree.inorder, node.fid ≠ fid := by
  constructor
  · rintro entry node member rfl
    rcases holds.backed node member with ⟨pfid, object⟩
    have listed := (holds.held node.fid node.obj pfid).2 ⟨member, object⟩
    rw [entry] at listed
    cases listed
  · intro absent
    rcases entry : state.held fid with _ | ⟨obj, pfid⟩
    · rfl
    · exact absurd rfl (absent _ ((holds.held fid obj pfid).1 entry).1)

theorem FidInvariant.search_eq_some_iff (holds : FidInvariant state)
    (fid : UInt32) (node : FidNode) :
    state.table.tree.search (lookupOrder fid) = some node ↔
      node ∈ state.table.tree.inorder ∧ node.fid = fid := by
  rw [lookupOrder_eq_towards, TreeOf.search_towards_iff holds.ordered, fidKey,
    UInt32.toNat_inj]

theorem FidInvariant.lookup (holds : FidInvariant state)
    (lib : Rebalancer FidNode) (rootDir : CString)
    (fid : UInt32) (calloc : Bool) :
    Lookup lib rootDir state fid calloc
      (findOrCreateFid lib rootDir calloc state.table fid) := by
  rw [findOrCreateFid]
  split
  case h_1 cur found =>
    rcases (holds.search_eq_some_iff fid cur).1 found with ⟨member, rfl⟩
    rcases holds.backed cur member with ⟨pfid, object⟩
    exact .hit cur.obj pfid ((holds.held _ _ _).2 ⟨member, object⟩)
  case h_2 missing =>
    have absent : ∀ node ∈ state.table.tree.inorder, node.fid ≠ fid := by
      intro node member same
      have found := (holds.search_eq_some_iff fid node).2 ⟨member, same⟩
      rw [missing] at found
      cases found
    have entry := (holds.held_eq_none_iff fid).2 absent
    split
    case isTrue failed =>
      refine .null entry ?_
      rintro ⟨succeeded, _⟩
      simp [succeeded] at failed
    case isFalse succeeded =>
      split
      case isTrue long =>
        exact .null entry fun allocates => absurd allocates.2 (by omega)
      case isFalse short =>
        cases attached :
            state.table.tree.attach (insertOrder fid)
              ⟨fid, state.table.next⟩ with
        | none =>
            rcases TreeOf.exists_eq_of_attach_none attached with
              ⟨node, member, equal⟩
            exact absurd (fid_eq_of_insertOrder_eq equal)
              (absent node member)
        | some tree =>
            simp only [insertNewFid, attached]
            refine .miss tree entry ⟨?_, by omega⟩ attached
            simpa using succeeded

theorem FidInvariant.sound (holds : FidInvariant state) :
    Sound lib rootDir state where
  ordered := holds.ordered
  linked fid obj pfid entry := ((holds.held fid obj pfid).1 entry).1
  found fid obj pfid calloc entry := by
    refine ⟨?_, ((holds.held fid obj pfid).1 entry).2⟩
    have found :=
      (holds.search_eq_some_iff fid ⟨fid, obj⟩).2
        ⟨((holds.held fid obj pfid).1 entry).1, rfl⟩
    rw [findOrCreateFid, found]

/-- The state after a number was created. -/
def FidState.create (state : FidState) (lib : Rebalancer FidNode)
    (rootDir : CString) (fid : UInt32) (tree : TreeOf FidNode) : FidState :=
  { state with
    table := state.table.created lib rootDir fid tree
    held :=
      Function.update state.held fid
        (some (state.table.next, newFid rootDir fid)) }

theorem created_perm {fid : UInt32} {tree : TreeOf FidNode}
    (attached :
      state.table.tree.attach (insertOrder fid) ⟨fid, state.table.next⟩ =
        some tree) :
    (state.table.created lib rootDir fid tree).tree.inorder.Perm
      (⟨fid, state.table.next⟩ :: state.table.tree.inorder) := by
  rw [FidTable.created, lib.insertColor_inorder]
  exact TreeOf.attach_perm attached

/-- Every object in the tree was allocated before the next one. -/
theorem FidInvariant.obj_lt (holds : FidInvariant state)
    {node : FidNode} (member : node ∈ state.table.tree.inorder) :
    node.obj < state.table.next := by
  by_contra beyond
  rcases holds.backed node member with ⟨pfid, object⟩
  rw [holds.unused node.obj (by omega)] at object
  cases object

theorem FidInvariant.create (holds : FidInvariant state)
    {fid : UInt32} (entry : state.held fid = none) {tree : TreeOf FidNode}
    (attached :
      state.table.tree.attach (insertOrder fid) ⟨fid, state.table.next⟩ =
        some tree)
    (near :
      ∀ cur ∈ state.table.tree.path (lookupOrder fid), Near fid cur.fid) :
    FidInvariant (state.create lib rootDir fid tree) := by
  have members (node : FidNode) :
      node ∈ (state.table.created lib rootDir fid tree).tree.inorder ↔
        node = ⟨fid, state.table.next⟩ ∨
          node ∈ state.table.tree.inorder := by
    rw [(created_perm attached).mem_iff, List.mem_cons]
  have older {node : FidNode} (member : node ∈ state.table.tree.inorder) :
      (state.table.created lib rootDir fid tree).heap node.obj =
        state.table.heap node.obj :=
    Function.update_of_ne (holds.obj_lt member).ne _ _
  have absent := (holds.held_eq_none_iff fid).1 entry
  refine
    { ordered := ?_
      held := ?_
      backed := ?_
      distinct := ?_
      unused := ?_ }
  · have agree :
        ∀ cur ∈ state.table.tree.path (lookupOrder fid),
          insertOrder fid cur = lookupOrder fid cur := by
      intro cur member
      exact (insertOrder_eq_lookupOrder_iff fid cur).2 (near cur member)
    rw [TreeOf.attach_congr _ agree, lookupOrder_eq_towards] at attached
    have fresh :
        ∀ node ∈ state.table.tree.inorder,
          fidKey node ≠ fidKey ⟨fid, state.table.next⟩ := by
      intro node member same
      exact absent node member (UInt32.toNat_inj.1 same)
    rcases TreeOf.attach_towards holds.ordered fresh with
      ⟨after, same, ordered⟩
    cases attached.symm.trans same
    change List.Pairwise _
      (lib.insertColor tree ⟨fid, state.table.next⟩).inorder
    rw [lib.insertColor_inorder]
    exact ordered
  · intro other obj pfid
    change
      Function.update state.held fid _ other = _ ↔
        _ ∈ (state.table.created lib rootDir fid tree).tree.inorder ∧ _
    rw [members]
    by_cases same : other = fid
    · subst same
      rw [Function.update_self]
      constructor
      · intro equal
        cases equal
        exact ⟨Or.inl rfl, Function.update_self ..⟩
      · rintro ⟨new | old, object⟩
        · cases new
          change Function.update state.table.heap state.table.next _ _ = _
            at object
          rw [Function.update_self] at object
          cases object
          rfl
        · exact absurd rfl (absent _ old)
    · rw [Function.update_of_ne same, holds.held]
      constructor
      · rintro ⟨member, object⟩
        exact ⟨Or.inr member, (older member).trans object⟩
      · rintro ⟨new | old, object⟩
        · cases new
          exact absurd rfl same
        · exact ⟨old, (older old).symm.trans object⟩
  · intro node member
    rcases (members node).1 member with rfl | old
    · exact ⟨newFid rootDir fid, Function.update_self ..⟩
    · rcases holds.backed node old with ⟨pfid, object⟩
      exact ⟨pfid, (older old).trans object⟩
  · intro first firstIn second secondIn same
    rcases (members first).1 firstIn with rfl | firstOld
    · rcases (members second).1 secondIn with rfl | secondOld
      · rfl
      · exact absurd same.symm (holds.obj_lt secondOld).ne
    · rcases (members second).1 secondIn with rfl | secondOld
      · exact absurd same (holds.obj_lt firstOld).ne
      · exact holds.distinct first firstOld second secondOld same
  · intro obj beyond
    change state.table.next + 1 ≤ obj at beyond
    change Function.update state.table.heap state.table.next _ obj = none
    rw [Function.update_of_ne (by omega)]
    exact holds.unused obj (by omega)

/-- A handler stores into an object it holds. -/
theorem FidInvariant.store (holds : FidInvariant state)
    {fid : UInt32} {obj : Nat} {pfid : P9Fid}
    (entry : state.held fid = some (obj, pfid)) (data : FidData) :
    FidInvariant
      { state with
        table :=
          { state.table with
            heap :=
              Function.update state.table.heap obj
                ((state.table.heap obj).map data.store) }
        held :=
          Function.update state.held fid (some (obj, data.store pfid)) } := by
  rcases (holds.held fid obj pfid).1 entry with ⟨member, object⟩
  rw [object, Option.map_some]
  refine
    { ordered := holds.ordered
      held := ?_
      backed := ?_
      distinct := holds.distinct
      unused := ?_ }
  · intro other otherObj otherFid
    simp only
    by_cases same : other = fid
    · subst same
      rw [Function.update_self]
      constructor
      · intro equal
        cases equal
        exact ⟨member, Function.update_self ..⟩
      · rintro ⟨otherMember, stored⟩
        have sameNode : (⟨other, otherObj⟩ : FidNode) = ⟨other, obj⟩ := by
          rcases holds.backed _ otherMember with ⟨old, oldObject⟩
          have listed :=
            (holds.held other otherObj old).2 ⟨otherMember, oldObject⟩
          rw [entry] at listed
          cases listed
          rfl
        cases sameNode
        rw [Function.update_self] at stored
        cases stored
        rfl
    · rw [Function.update_of_ne same, holds.held]
      refine and_congr_right fun otherMember => ?_
      rw [Function.update_of_ne]
      intro sameObj
      cases holds.distinct _ otherMember _ member sameObj
      exact same rfl
  · intro node nodeIn
    rcases holds.backed node nodeIn with ⟨old, oldObject⟩
    simp only
    by_cases same : node.obj = obj
    · exact ⟨data.store pfid, by rw [same, Function.update_self]⟩
    · exact ⟨old, by rw [Function.update_of_ne same, oldObject]⟩
  · intro other beyond
    simp only
    rw [Function.update_of_ne]
    · exact holds.unused other beyond
    · have below := holds.obj_lt member
      change state.table.next ≤ other at beyond
      simp only at below
      omega

/-- A held object is taken out and freed. -/
theorem FidInvariant.erase (holds : FidInvariant state)
    {fid : UInt32} {obj : Nat} {pfid : P9Fid}
    (entry : state.held fid = some (obj, pfid)) :
    FidInvariant
      { state with
        table :=
          { state.table with
            tree := lib.erase state.table.tree ⟨fid, obj⟩
            heap := Function.update state.table.heap obj none }
        held := Function.update state.held fid none } := by
  rcases (holds.held fid obj pfid).1 entry with ⟨member, _⟩
  have nodup : state.table.tree.inorder.Nodup :=
    holds.ordered.imp fun less same => absurd (congrArg fidKey same) less.ne
  have members (node : FidNode) :
      node ∈ (lib.erase state.table.tree ⟨fid, obj⟩).inorder ↔
        node ≠ ⟨fid, obj⟩ ∧ node ∈ state.table.tree.inorder := by
    rw [lib.erase_inorder _ _ member, nodup.mem_erase_iff]
  have other {node : FidNode} (differs : node ≠ ⟨fid, obj⟩)
      (nodeIn : node ∈ state.table.tree.inorder) :
      Function.update state.table.heap obj none node.obj =
        state.table.heap node.obj := by
    rw [Function.update_of_ne]
    intro same
    exact differs (holds.distinct node nodeIn _ member same)
  refine
    { ordered := ?_
      held := ?_
      backed := ?_
      distinct := ?_
      unused := ?_ }
  · change List.Pairwise _
      (lib.erase state.table.tree ⟨fid, obj⟩).inorder
    rw [lib.erase_inorder _ _ member]
    exact List.Pairwise.sublist List.erase_sublist holds.ordered
  · intro number numberObj numberFid
    simp only
    rw [members]
    by_cases same : number = fid
    · subst same
      rw [Function.update_self]
      refine iff_of_false (by simp) ?_
      rintro ⟨⟨differs, numberIn⟩, _⟩
      rcases holds.backed _ numberIn with ⟨old, oldObject⟩
      have listed :=
        (holds.held number numberObj old).2 ⟨numberIn, oldObject⟩
      rw [entry] at listed
      cases listed
      exact differs rfl
    · have differs : (⟨number, numberObj⟩ : FidNode) ≠ ⟨fid, obj⟩ := by
        intro equal
        cases equal
        exact same rfl
      rw [Function.update_of_ne same, holds.held, and_iff_right differs]
      refine and_congr_right fun numberIn => ?_
      rw [other differs numberIn]
  · intro node nodeIn
    rcases (members node).1 nodeIn with ⟨differs, old⟩
    rcases holds.backed node old with ⟨pfid, object⟩
    exact ⟨pfid, (other differs old).trans object⟩
  · intro first firstIn second secondIn
    exact holds.distinct first ((members first).1 firstIn).2 second
      ((members second).1 secondIn).2
  · intro number beyond
    simp only
    by_cases same : number = obj
    · rw [same, Function.update_self]
    · rw [Function.update_of_ne same]
      exact holds.unused number beyond

/-- A new object is attached anywhere, taken out again and freed. -/
theorem FidInvariant.eraseCreated (holds : FidInvariant state)
    {fid : UInt32} {tree : TreeOf FidNode}
    (attached :
      state.table.tree.attach (insertOrder fid) ⟨fid, state.table.next⟩ =
        some tree) :
    FidInvariant
      { state with
        table :=
          { tree :=
              lib.erase (state.table.created lib rootDir fid tree).tree
                ⟨fid, state.table.next⟩
            heap :=
              Function.update
                (state.table.created lib rootDir fid tree).heap
                state.table.next none
            next := state.table.next + 1 } } := by
  rcases TreeOf.attach_inorder attached with ⟨before, behind, old, new⟩
  have absent : (⟨fid, state.table.next⟩ : FidNode) ∉ before := by
    intro member
    have inTree : ⟨fid, state.table.next⟩ ∈ state.table.tree.inorder := by
      rw [old]
      exact List.mem_append_left _ member
    exact absurd (holds.obj_lt inTree) (Nat.lt_irrefl _)
  have same :
      (lib.erase (state.table.created lib rootDir fid tree).tree
        ⟨fid, state.table.next⟩).inorder = state.table.tree.inorder := by
    have inserted :
        (state.table.created lib rootDir fid tree).tree.inorder =
          before ++ ⟨fid, state.table.next⟩ :: behind := by
      rw [FidTable.created, lib.insertColor_inorder, new]
    rw [lib.erase_inorder _ _ (by simp [inserted]), inserted,
      List.erase_append_right _ absent, List.erase_cons_head, old]
  have heap :
      Function.update (state.table.created lib rootDir fid tree).heap
        state.table.next none = state.table.heap := by
    rw [FidTable.created, Function.update_idem, Function.update_eq_self_iff,
      holds.unused _ (Nat.le_refl _)]
  rw [heap]
  refine
    { ordered := ?_
      held := ?_
      backed := ?_
      distinct := ?_
      unused := ?_ }
  · change List.Pairwise _
      (lib.erase (state.table.created lib rootDir fid tree).tree
        ⟨fid, state.table.next⟩).inorder
    rw [same]
    exact holds.ordered
  · simpa only [same] using holds.held
  · simpa only [same] using holds.backed
  · simpa only [same] using holds.distinct
  · intro obj beyond
    exact holds.unused obj (Nat.le_of_succ_le beyond)

/-! ## One call -/

theorem FidInvariant.near (holds : FidInvariant state)
    (running : state.crashed = false) {fid : UInt32} {calloc : Bool}
    (placed : Placed rootDir state fid calloc)
    (entry : state.held fid = none)
    (allocates : Allocates rootDir calloc) :
    ∀ cur ∈ state.table.tree.path (lookupOrder fid), Near fid cur.fid := by
  rcases placed with crashed | ⟨cur, member, same⟩ | refused | near
  · rw [running] at crashed
    cases crashed
  · exact absurd same ((holds.held_eq_none_iff fid).1 entry cur member)
  · exact absurd allocates refused
  · exact near

theorem FidInvariant.crash (holds : FidInvariant state) :
    FidInvariant { state with crashed := true } :=
  ⟨holds.ordered, holds.held, holds.backed, holds.distinct, holds.unused⟩

theorem FidInvariant.step (holds : FidInvariant state)
    {call : FidCall} (placed : CallPlaced rootDir state call) :
    FidInvariant (fidStep lib rootDir state call) := by
  unfold fidStep
  split
  case isTrue crashed => exact holds
  case isFalse notCrashed =>
    have running : state.crashed = false := by simpa using notCrashed
    cases call with
    | find fid calloc =>
        have looked := holds.lookup lib rootDir fid calloc
        simp only
        generalize
          findOrCreateFid lib rootDir calloc state.table fid = result
          at looked ⊢
        cases looked with
        | hit obj pfid entry =>
            have same :
                Function.update state.held fid (state.hold rootDir fid) =
                  state.held := by
              rw [FidState.hold, entry, Option.getD_some, ← entry,
                Function.update_eq_self]
            rw [same]
            exact holds
        | null entry refused => exact holds
        | miss tree entry allocates attached =>
            simp only [FidState.hold, entry, Option.getD_none]
            exact
              holds.create entry attached
                (holds.near running placed entry allocates)
    | assign fid calloc data =>
        have looked := holds.lookup lib rootDir fid calloc
        simp only
        generalize
          findOrCreateFid lib rootDir calloc state.table fid = result
          at looked ⊢
        cases looked with
        | hit obj pfid entry =>
            simp only [FidState.hold, entry, Option.getD_some,
              Option.map_some]
            exact holds.store entry data
        | null entry refused => exact holds.crash
        | miss tree entry allocates attached =>
            simp only [FidState.hold, entry, Option.getD_none,
              Option.map_some]
            have created :
                FidInvariant (state.create lib rootDir fid tree) :=
              holds.create entry attached
                (holds.near running placed entry allocates)
            have stored := created.store (Function.update_self ..) data
            simp only [FidState.create, Function.update_idem] at stored
            exact stored
    | close fid calloc =>
        have looked := holds.lookup lib rootDir fid calloc
        simp only [closeFid]
        generalize
          findOrCreateFid lib rootDir calloc state.table fid = result
          at looked ⊢
        cases looked with
        | hit obj pfid entry => exact holds.erase entry
        | null entry refused => exact holds.crash
        | miss tree entry allocates attached =>
            have same : Function.update state.held fid none = state.held := by
              rw [← entry, Function.update_eq_self]
            simp only [same]
            exact holds.eraseCreated attached

/-- A number put on the wrong side of another shows in the tree. -/
theorem FidInvariant.not_ordered_of_misplaced (holds : FidInvariant state)
    (lib : Rebalancer FidNode) {fid : UInt32} {calloc : Bool}
    (misplaced : ¬ Placed rootDir state fid calloc) :
    ∃ tree,
      findOrCreateFid lib rootDir calloc state.table fid =
          (state.table.created lib rootDir fid tree,
            some ⟨fid, state.table.next⟩) ∧
        ¬ (state.table.created lib rootDir fid tree).tree.Ordered fidKey := by
  simp only [Placed, not_or, not_not] at misplaced
  rcases misplaced with ⟨running, absent, allocates, far⟩
  have looked := holds.lookup lib rootDir fid calloc
  generalize
    findOrCreateFid lib rootDir calloc state.table fid = result at looked ⊢
  cases looked with
  | hit obj pfid entry =>
      exact absurd ⟨_, ((holds.held fid obj pfid).1 entry).1, rfl⟩ absent
  | null entry refused => exact absurd allocates refused
  | miss tree entry allocates attached =>
      refine ⟨tree, rfl, ?_⟩
      intro ordered
      apply far
      intro cur member
      rw [FidTable.created, TreeOf.Ordered, lib.insertColor_inorder] at ordered
      rw [← insertOrder_eq_lookupOrder_iff]
      rw [lookupOrder_eq_towards] at member ⊢
      exact TreeOf.agree_of_attach_ordered attached ordered cur member

theorem FidInvariant.not_sound_of_misplaced (holds : FidInvariant state)
    {call : FidCall} (misplaced : ¬ CallPlaced rootDir state call) :
    ¬ Sound lib rootDir (fidStep lib rootDir state call) := by
  intro sound
  have ordered := sound.ordered
  unfold fidStep at ordered
  cases call with
  | find fid calloc =>
      have running : ¬ state.crashed = true := fun crashed =>
        misplaced (Or.inl crashed)
      rcases holds.not_ordered_of_misplaced lib misplaced with
        ⟨tree, result, disordered⟩
      rw [if_neg running] at ordered
      simp only [result] at ordered
      exact disordered ordered
  | assign fid calloc data =>
      have running : ¬ state.crashed = true := fun crashed =>
        misplaced (Or.inl crashed)
      rcases holds.not_ordered_of_misplaced lib misplaced with
        ⟨tree, result, disordered⟩
      rw [if_neg running] at ordered
      simp only [result] at ordered
      exact disordered ordered
  | close fid calloc => exact misplaced trivial

end Table

/-! ## Whole runs -/

theorem fidStart_invariant : FidInvariant fidStart where
  ordered := List.Pairwise.nil
  held fid obj pfid := by simp [fidStart, FidTable.empty]
  backed node member := by cases member
  distinct first member := by cases member
  unused obj _ := rfl

/--
For every tree library and every sequence of calls, the table is sound after
each call exactly when no call puts a new number next to one it is not near:
every number the lookup of a new one passes is less than `2^31` away from it
(or exactly so far above).
-/
theorem fid_table_sound_iff
    (lib : Rebalancer FidNode) (rootDir : CString) (calls : List FidCall) :
    Throughout (fidStep lib rootDir) (Sound lib rootDir) fidStart calls ↔
      Along (fidStep lib rootDir) (CallPlaced rootDir) fidStart calls :=
  throughout_iff_along (fun _ holds => holds.sound)
    (fun _ _ holds placed => holds.step placed)
    (fun _ _ holds misplaced => holds.not_sound_of_misplaced misplaced)
    fidStart_invariant calls

/--
Fid `2^31 + 1` is created to the left of fid `0`, where the lookup does not
find it: asking for it again creates a second object.
-/
theorem far_fid_created_twice :
    let lib := Rebalancer.plain FidNode
    let root : CString := [47]
    let calls := [FidCall.find 0 true, FidCall.find 0x80000001 true]
    let state := run (fidStep lib root) fidStart calls
    state.held 0x80000001 = some (1, newFid root 0x80000001) ∧
      (findOrCreateFid lib root true state.table 0x80000001).2 =
        some ⟨0x80000001, 2⟩ ∧
      ¬ Throughout (fidStep lib root) (Sound lib root) fidStart calls := by
  intro lib root calls state
  have entry : state.held 0x80000001 = some (1, newFid root 0x80000001) := by
    decide
  have again :
      (findOrCreateFid lib root true state.table 0x80000001).2 =
        some ⟨0x80000001, 2⟩ := by
    decide
  refine ⟨entry, again, ?_⟩
  rintro ⟨_, _, sound⟩
  have found := congrArg Prod.snd (sound.found _ _ _ true entry).1
  cases again.symm.trans found

end Kemu.Virtio.P9.Fid
