import Kemu.Lib.Transition
import Kemu.Util.RbtreePostorder
import Kemu.Virtio.Core
import Kemu.Virtio.P9.Fid

/-!
# Stopping the 9p device

`notify_status` closes all fids when the device is stopped: it walks over the
tree in postorder, and `close_fid` looks every fid up by its number and
erases it with `rb_erase`.  Here the tree is the red-black tree it is, with
its colours.

The walk empties the tree exactly if the numbers ascend along it, so that
every fid is found, and no node with one child is off the path to the
smallest.
-/

namespace Kemu.Virtio.P9.Stop

open Kemu.Lib.SearchTree
open Kemu.Lib.Transition
open Kemu.Util.Rbtree
open Kemu.Virtio.Core
open Kemu.Virtio.P9.Fid

/-! ## The code -/

/-- The tree with its colours, the allocated objects, the next address. -/
structure FidTree where
  tree : RbTree FidNode
  heap : Nat → Option P9Fid
  next : Nat

/-- The calls that give back what a fid holds. -/
inductive HostClose where
  | close (fd : Int)
  | closedir (dir : Nat)
deriving DecidableEq, Repr

/-- What a call of `close_fid` does. -/
structure FidClosed where
  table : FidTree
  released : FidNode
  linked : Bool
  closes : List HostClose

section Code

variable (rootDir : CString)

/-- `insert_new_fid`; `none` when a null pointer is dereferenced. -/
def insertNewFid (table : FidTree) (new : FidNode) :
    Option (Int × FidTree) :=
  match emptyPlace (insertOrder new.fid) table.tree [] with
  | none => some (eExist, table)
  | some up =>
      (rbInsertColor new up).map fun tree => (0, { table with tree := tree })

/-- `find_or_create_fid`, with the answer of `calloc`. -/
def findOrCreateFid (calloc : Bool) (table : FidTree) (fid : UInt32) :
    Option (FidTree × Option FidNode) :=
  match table.tree.shape.search (lookupOrder fid) with
  | some cur => some (table, some cur)
  | none =>
      if !calloc then
        some (table, none)
      else if rootDir.length ≥ pathMax then
        some (table, none)
      else
        let pfid : FidNode := ⟨fid, table.next⟩
        let table :=
          { table with
            heap :=
              Function.update table.heap pfid.obj (some (newFid rootDir fid))
            next := table.next + 1 }
        (insertNewFid table pfid).map fun result => (result.2, some pfid)

/-- The calls for the descriptor and the directory of a fid. -/
def closing (pfid : P9Fid) : List HostClose :=
  (if pfid.fd > 0 then [.close pfid.fd] else []) ++
    match pfid.dir with
    | some dir => [.closedir dir]
    | none => []

/--
`close_fid`.  A new object that `insert_new_fid` did not link still has the
zeros of `calloc` in its node, and is erased as a red root.
-/
def closeFid (calloc : Bool) (table : FidTree) (fid : UInt32) :
    Option FidClosed :=
  match findOrCreateFid rootDir calloc table fid with
  | none => none
  | some (_, none) => none
  | some (table, some pfid) =>
      match table.heap pfid.obj with
      | none => none
      | some object =>
          let ref := locate pfid table.tree []
          (rbErase (ref.getD ⟨.red, .null, pfid, .null, []⟩)).map fun tree =>
            { table :=
                { table with
                  tree := tree
                  heap := Function.update table.heap pfid.obj none }
              released := pfid
              linked := ref.isSome
              closes := closing object }

/-! ### The walk -/

/--
The loop of `notify_status`.  `pos` is the node to come; `walked` is the tree
it is in once that is not the tree of the fids any more.
-/
structure StopLoop where
  table : FidTree
  walked : Option (RbTree FidNode)
  pos : Option FidNode
  visits : List (FidNode × FidNode)
  closes : List HostClose
  crashed : Bool

/--
A turn of the loop.  It records the node it is at with the object that
`close_fid` releases, and reads freed memory next if that is the node to
come.
-/
def stopTurn (loop : StopLoop) (calloc : Bool) : StopLoop :=
  if loop.crashed then
    loop
  else
    match loop.pos with
    | none => loop
    | some pos =>
        let tree := loop.walked.getD loop.table.tree
        let next := nextEntry pos tree
        match closeFid rootDir calloc loop.table pos.fid with
        | none => { loop with crashed := true }
        | some closed =>
            { table := closed.table
              walked :=
                if closed.linked then
                  loop.walked
                else
                  some tree
              pos := next
              visits := loop.visits ++ [(pos, closed.released)]
              closes := loop.closes ++ closed.closes
              crashed := next = some closed.released }

/-- `struct p9_dev`, as far as `notify_status` uses it. -/
structure P9Dev where
  fids : FidTree
  configTagLen : UInt16
  tagLen : UInt16

/-- `notify_status` up to its loop. -/
def notifyStatusStart (dev : P9Dev) (status : UInt32) : P9Dev × StopLoop :=
  let dev :=
    if status &&& virtioStatusConfig ≠ 0 then
      { dev with configTagLen := dev.tagLen }
    else
      dev
  (dev,
    { table := dev.fids
      walked := none
      pos :=
        if status &&& virtioStatusStop = 0 then
          none
        else
          rbFirstPostorder dev.fids.tree
      visits := []
      closes := []
      crashed := false })

/-- `notify_status`, with the answers of `calloc` and a bound on the turns. -/
def notifyStatus (dev : P9Dev) (status : UInt32) (calloc : Nat → Bool)
    (turns : Nat) : P9Dev × StopLoop :=
  let started := notifyStatusStart dev status
  let loop :=
    run (stopTurn rootDir) started.2 ((List.range turns).map calloc)
  ({ started.1 with fids := loop.table }, loop)

/-! ### Runs of the server -/

/-- A table without fids. -/
def FidTree.empty : FidTree where
  tree := .null
  heap _ := none
  next := 0

/-- What the requests do to the table; `none` when the process dies. -/
def fidTreeCall (table : FidTree) : FidCall → Option FidTree
  | .find fid calloc =>
      (findOrCreateFid rootDir calloc table fid).map Prod.fst
  | .assign fid calloc data =>
      match findOrCreateFid rootDir calloc table fid with
      | some (table, some pfid) =>
          some
            { table with
              heap :=
                Function.update table.heap pfid.obj
                  ((table.heap pfid.obj).map data.store) }
      | _ => none
  | .close fid calloc =>
      (closeFid rootDir calloc table fid).map FidClosed.table

/-- The tables that requests lead to. -/
def fidTrees : System FidTree where
  initial table := table = .empty
  step table after := ∃ call, fidTreeCall rootDir table call = some after

/-! ### What stopping should do -/

/--
The walk ends with an empty tree; it called `close_fid` once for every fid
there was, and each call released the fid it was for.
-/
structure Emptied (table : FidTree) (loop : StopLoop) : Prop where
  ended : loop.pos = none
  alive : loop.crashed = false
  empty : loop.table.tree = .null
  once :
    ∃ fids : List FidNode,
      fids.Perm table.tree.inorder ∧
        loop.visits = fids.map (fun pfid => (pfid, pfid)) ∧
          loop.closes =
            fids.flatMap fun pfid =>
              ((table.heap pfid.obj).map closing).getD []

/-- `notify_status` gets to its end and has released everything. -/
def Releases (dev : P9Dev) (status : UInt32) (calloc : Nat → Bool) : Prop :=
  ∃ turns,
    Emptied dev.fids (notifyStatus rootDir dev status calloc turns).2

/-- The numbers ascend from left to right. -/
def Ascending (tree : RbTree FidNode) : Prop :=
  tree.inorder.Pairwise fun first second => first.fid < second.fid

end Code

/-! ## Tables whose tree is one -/

section Linked

variable {rootDir : CString}

/-- The tree is a red-black tree of different objects that are allocated. -/
structure Linked (table : FidTree) : Prop where
  redBlack : IsRedBlack table.tree
  below : ∀ pfid ∈ table.tree.inorder, pfid.obj < table.next
  nodup : (table.tree.inorder.map FidNode.obj).Nodup
  alive :
    ∀ pfid ∈ table.tree.inorder, ∃ object, table.heap pfid.obj = some object

variable {table : FidTree}

theorem Linked.inorder_nodup (linked : Linked table) :
    table.tree.inorder.Nodup :=
  linked.nodup.of_map _

theorem Linked.fresh (linked : Linked table) :
    ∀ pfid ∈ table.tree.inorder, pfid.obj ≠ table.next :=
  fun pfid member => (linked.below pfid member).ne

/-- An object is allocated. -/
theorem Linked.allocate (linked : Linked table) (object : P9Fid) :
    Linked
      { table with
        heap := Function.update table.heap table.next (some object)
        next := table.next + 1 } where
  redBlack := linked.redBlack
  below pfid member := (linked.below pfid member).trans (Nat.lt_succ_self _)
  nodup := linked.nodup
  alive pfid member := by
    dsimp only
    rw [Function.update_of_ne (linked.fresh pfid member)]
    exact linked.alive pfid member

/-- An object is allocated and linked into the tree. -/
theorem Linked.link (linked : Linked table) {tree : RbTree FidNode}
    {fid : UInt32} (redBlack : IsRedBlack tree)
    (entries :
      tree.inorder.Perm (⟨fid, table.next⟩ :: table.tree.inorder))
    (object : P9Fid) :
    Linked
      { tree := tree
        heap := Function.update table.heap table.next (some object)
        next := table.next + 1 } where
  redBlack := redBlack
  below pfid member := by
    rcases List.mem_cons.mp (entries.mem_iff.mp member) with rfl | old
    · exact Nat.lt_succ_self _
    · exact (linked.below pfid old).trans (Nat.lt_succ_self _)
  nodup := by
    rw [(entries.map FidNode.obj).nodup_iff, List.map_cons, List.nodup_cons]
    refine ⟨?_, linked.nodup⟩
    intro old
    obtain ⟨pfid, member, same⟩ := List.mem_map.mp old
    exact linked.fresh pfid member same
  alive pfid member := by
    dsimp only
    rcases List.mem_cons.mp (entries.mem_iff.mp member) with rfl | old
    · exact ⟨object, Function.update_self _ _ _⟩
    · rw [Function.update_of_ne (linked.fresh pfid old)]
      exact linked.alive pfid old

/-- Erasing a node of the tree and freeing its object. -/
theorem Linked.erase (linked : Linked table) {pfid : FidNode}
    (member : pfid ∈ table.tree.inorder) :
    ∃ after,
      eraseEntry pfid table.tree = some after ∧
        after.inorder = table.tree.inorder.erase pfid ∧
          Linked
            { table with
              tree := after
              heap := Function.update table.heap pfid.obj none } := by
  obtain ⟨after, run, redBlack, entries⟩ :=
    linked.redBlack.eraseEntry linked.inorder_nodup member
  refine ⟨after, run, entries, redBlack, ?_, ?_, ?_⟩
  · intro other inside
    rw [entries] at inside
    exact linked.below other (List.mem_of_mem_erase inside)
  · rw [entries]
    exact linked.nodup.sublist (List.erase_sublist.map _)
  · intro other inside
    rw [entries] at inside
    have different : other.obj ≠ pfid.obj := by
      intro same
      obtain ⟨apart, old⟩ := linked.inorder_nodup.mem_erase_iff.mp inside
      exact apart (List.inj_on_of_nodup_map linked.nodup old member same)
    dsimp only
    rw [Function.update_of_ne different]
    exact linked.alive other (List.mem_of_mem_erase inside)

/-- The ways through `find_or_create_fid`. -/
inductive Looked (rootDir : CString) (table : FidTree) (fid : UInt32) :
    Option (FidTree × Option FidNode) → Prop where
  | found {cur : FidNode}
      (search : table.tree.shape.search (lookupOrder fid) = some cur) :
      Looked rootDir table fid (some (table, some cur))
  | refused : Looked rootDir table fid (some (table, none))
  | created {tree : RbTree FidNode}
      (absent : table.tree.shape.search (lookupOrder fid) = none)
      (either : ⟨fid, table.next⟩ ∈ tree.inorder ∨ tree = table.tree)
      (linked :
        Linked
          { tree := tree
            heap :=
              Function.update table.heap table.next
                (some (newFid rootDir fid))
            next := table.next + 1 }) :
      Looked rootDir table fid
        (some
          ({ tree := tree
             heap :=
              Function.update table.heap table.next
                (some (newFid rootDir fid))
             next := table.next + 1 }, some ⟨fid, table.next⟩))

theorem Linked.looked (linked : Linked table) (calloc : Bool)
    (fid : UInt32) :
    Looked rootDir table fid (findOrCreateFid rootDir calloc table fid) := by
  rw [findOrCreateFid]
  split
  next cur found => exact .found found
  next absent =>
    split
    · exact .refused
    split
    · exact .refused
    unfold insertNewFid
    dsimp only
    cases ends : emptyPlace (insertOrder fid) table.tree [] with
    | none =>
        exact .created absent (Or.inr rfl) (linked.allocate (newFid rootDir fid))
    | some up =>
        have root : zip .null up = table.tree := zip_emptyPlace ends
        have redBlack := linked.redBlack
        rw [← root] at redBlack
        obtain ⟨tree, inserts, kept, entries⟩ :=
          redBlack.insertColor (⟨fid, table.next⟩ : FidNode)
        have same :
            tree.inorder.Perm (⟨fid, table.next⟩ :: table.tree.inorder) := by
          rw [entries, ← root, inorder_zip, RbTree.inorder, List.append_nil]
          exact List.perm_middle
        dsimp only
        rw [inserts]
        exact
          .created absent
            (Or.inl (same.mem_iff.mpr List.mem_cons_self))
            (linked.link kept same (newFid rootDir fid))

/-- A node of the tree, erased and freed. -/
def FidTree.without (table : FidTree) (pfid : FidNode)
    (after : RbTree FidNode) : FidTree :=
  { table with
    tree := after
    heap := Function.update table.heap pfid.obj none }

/-- The ways through `close_fid`. -/
inductive Closes (table : FidTree) (fid : UInt32) :
    Option FidClosed → Prop where
  | crash : Closes table fid none
  | found {cur : FidNode} {after : RbTree FidNode} {object : P9Fid}
      (search : table.tree.shape.search (lookupOrder fid) = some cur)
      (alive : table.heap cur.obj = some object)
      (erases : eraseEntry cur table.tree = some after)
      (entries : after.inorder = table.tree.inorder.erase cur)
      (linked : Linked (table.without cur after)) :
      Closes table fid
        (some
          { table := table.without cur after
            released := cur
            linked := true
            closes := closing object })
  | created {closed : FidClosed}
      (new : closed.released.obj = table.next)
      (later : closed.table.next = table.next + 1)
      (linked : Linked closed.table) : Closes table fid (some closed)

/-- `close_fid` behind `get_fid`, for a node of the tree. -/
theorem rbErase_located {pfid : FidNode} {tree after : RbTree FidNode}
    {other : NodeRef FidNode} (run : eraseEntry pfid tree = some after) :
    rbErase ((locate pfid tree []).getD other) = some after ∧
      (locate pfid tree []).isSome = true := by
  rw [eraseEntry] at run
  cases found : locate pfid tree [] with
  | none =>
      rw [found] at run
      cases run
  | some ref =>
      rw [found] at run
      exact ⟨run, rfl⟩

/-- `close_fid` for a number that is found. -/
theorem Linked.closeFid_found (linked : Linked table) (calloc : Bool)
    {fid : UInt32} {cur : FidNode}
    (search : table.tree.shape.search (lookupOrder fid) = some cur) :
    ∃ object after,
      table.heap cur.obj = some object ∧
        eraseEntry cur table.tree = some after ∧
          after.inorder = table.tree.inorder.erase cur ∧
            Linked (table.without cur after) ∧
              closeFid rootDir calloc table fid =
                some
                  { table := table.without cur after
                    released := cur
                    linked := true
                    closes := closing object } := by
  obtain ⟨member, _⟩ := TreeOf.search_sound search
  rw [inorder_shape] at member
  obtain ⟨object, alive⟩ := linked.alive cur member
  obtain ⟨after, erases, entries, kept⟩ := linked.erase member
  refine ⟨object, after, alive, erases, entries, kept, ?_⟩
  obtain ⟨run, located⟩ :=
    @rbErase_located _ _ _ ⟨.red, .null, cur, .null, []⟩ erases
  unfold closeFid
  rw [findOrCreateFid, search]
  dsimp only
  rw [alive]
  dsimp only
  rw [run, located]
  rfl

theorem Linked.closes (linked : Linked table) (calloc : Bool)
    (fid : UInt32) :
    Closes table fid (closeFid rootDir calloc table fid) := by
  have looked := @Linked.looked rootDir table linked calloc fid
  cases found : table.tree.shape.search (lookupOrder fid) with
  | some cur =>
      obtain ⟨object, after, alive, erases, entries, kept, run⟩ :=
        @Linked.closeFid_found rootDir _ linked calloc _ _ found
      rw [run]
      exact .found found alive erases entries kept
  | none =>
      unfold closeFid
      generalize findOrCreateFid rootDir calloc table fid = result at looked
      cases looked with
      | refused => exact .crash
      | found search => cases found.symm.trans search
      | @created tree _ either linked =>
          have alive :
              Function.update table.heap table.next (some (newFid rootDir fid))
                  table.next =
                some (newFid rootDir fid) :=
            Function.update_self _ _ _
          dsimp only
          rw [alive]
          dsimp only
          by_cases member : ⟨fid, table.next⟩ ∈ tree.inorder
          · obtain ⟨after, erases, _, kept⟩ := linked.erase member
            obtain ⟨run, located⟩ :=
              @rbErase_located _ _ _
                ⟨.red, .null, ⟨fid, table.next⟩, .null, []⟩ erases
            rw [run, located]
            exact .created rfl rfl kept
          · rw [locate_eq_none member]
            exact
              .created rfl rfl
                ⟨⟨0, .null⟩, nofun, List.nodup_nil, nofun⟩

/-- A request stores in an object. -/
theorem Linked.assign (linked : Linked table) (data : FidData)
    (obj : Nat) :
    Linked
      { table with
        heap :=
          Function.update table.heap obj
            ((table.heap obj).map data.store) } where
  redBlack := linked.redBlack
  below := linked.below
  nodup := linked.nodup
  alive pfid member := by
    obtain ⟨object, alive⟩ := linked.alive pfid member
    dsimp only
    by_cases same : pfid.obj = obj
    · rw [same] at alive
      rw [same, Function.update_self, alive]
      exact ⟨_, rfl⟩
    · rw [Function.update_of_ne same]
      exact ⟨object, alive⟩

/-- What the requests lead to is linked. -/
theorem Linked.of_reachable
    (reached : Reachable (fidTrees rootDir) table) : Linked table := by
  refine reached.invariant ?_ ?_
  · rintro _ rfl
    exact ⟨⟨0, .null⟩, nofun, List.nodup_nil, nofun⟩
  · rintro source target linked ⟨call, run⟩
    cases call with
    | find fid calloc =>
        have looked := @Linked.looked rootDir _ linked calloc fid
        rw [fidTreeCall] at run
        generalize findOrCreateFid rootDir calloc source fid = result
          at looked run
        cases looked with
        | found _ =>
            cases run
            exact linked
        | refused =>
            cases run
            exact linked
        | created _ _ kept =>
            cases run
            exact kept
    | assign fid calloc data =>
        have looked := @Linked.looked rootDir _ linked calloc fid
        rw [fidTreeCall] at run
        generalize findOrCreateFid rootDir calloc source fid = result
          at looked run
        cases looked with
        | found _ =>
            cases run
            exact linked.assign _ _
        | refused => cases run
        | created _ _ kept =>
            cases run
            exact kept.assign _ _
    | close fid calloc =>
        have closes := @Linked.closes rootDir _ linked calloc fid
        rw [fidTreeCall] at run
        generalize closeFid rootDir calloc source fid = result at closes run
        cases closes with
        | crash => cases run
        | found _ _ _ _ kept =>
            cases run
            exact kept
        | created _ _ kept =>
            cases run
            exact kept

end Linked

/-! ## A turn of the walk -/

section Turn

variable {rootDir : CString} {table : FidTree} {loop : StopLoop}

theorem ascending_iff_ordered {tree : RbTree FidNode} :
    Ascending tree ↔ tree.shape.Ordered fidKey := by
  rw [Ascending, TreeOf.Ordered, inorder_shape]
  simp only [UInt32.lt_iff_toNat_lt, fidKey]

/-- Where the numbers ascend every fid is found by its number. -/
theorem Ascending.search {tree : RbTree FidNode} (ascending : Ascending tree)
    {pfid : FidNode} (member : pfid ∈ tree.inorder) :
    tree.shape.search (lookupOrder pfid.fid) = some pfid := by
  rw [lookupOrder_eq_towards]
  refine
    (TreeOf.search_towards_iff (ascending_iff_ordered.mp ascending) _
      _).mpr ⟨?_, rfl⟩
  rw [inorder_shape]
  exact member

/-- A turn at a node that is found. -/
theorem stopTurn_found (linked : Linked loop.table)
    (alive : loop.crashed = false) (walked : loop.walked = none)
    {pfid : FidNode} (here : loop.pos = some pfid)
    (search :
      loop.table.tree.shape.search (lookupOrder pfid.fid) = some pfid)
    (calloc : Bool) :
    ∃ object after,
      loop.table.heap pfid.obj = some object ∧
        eraseEntry pfid loop.table.tree = some after ∧
          after.inorder = loop.table.tree.inorder.erase pfid ∧
            Linked (loop.table.without pfid after) ∧
              stopTurn rootDir loop calloc =
                { table := loop.table.without pfid after
                  walked := none
                  pos := nextEntry pfid loop.table.tree
                  visits := loop.visits ++ [(pfid, pfid)]
                  closes := loop.closes ++ closing object
                  crashed :=
                    nextEntry pfid loop.table.tree = some pfid } := by
  obtain ⟨object, after, found, erases, entries, kept, run⟩ :=
    @Linked.closeFid_found rootDir _ linked calloc _ _ search
  refine ⟨object, after, found, erases, entries, kept, ?_⟩
  unfold stopTurn
  rw [alive, here, if_neg Bool.noConfusion]
  dsimp only
  rw [run, walked]
  rfl

theorem stopTurn_crashed (crashed : loop.crashed = true) (calloc : Bool) :
    stopTurn rootDir loop calloc = loop := by
  rw [stopTurn, if_pos crashed]

theorem run_crashed (crashed : loop.crashed = true) (inputs : List Bool) :
    run (stopTurn rootDir) loop inputs = loop := by
  induction inputs with
  | nil => rfl
  | cons calloc rest further =>
      rw [run_cons, stopTurn_crashed crashed]
      exact further

/-- What is recorded stays recorded. -/
theorem visits_run (inputs : List Bool) {visit : FidNode × FidNode}
    (member : visit ∈ loop.visits) :
    visit ∈ (run (stopTurn rootDir) loop inputs).visits := by
  induction inputs generalizing loop with
  | nil => exact member
  | cons calloc rest further =>
      rw [run_cons]
      apply further
      unfold stopTurn
      split
      · exact member
      split
      · exact member
      dsimp only
      split
      · exact member
      · exact List.mem_append_left _ member

end Turn

/-! ## Walks that empty the tree -/

section Walk

variable {rootDir : CString} {table : FidTree} {loop : StopLoop}

/-- The walk so far: the fids behind it, and where it is. -/
structure Walking (table : FidTree) (loop : StopLoop)
    (passed : List FidNode) : Prop where
  linked : Linked loop.table
  alive : loop.crashed = false
  walked : loop.walked = none
  visits : loop.visits = passed.map fun pfid => (pfid, pfid)
  closes :
    loop.closes =
      passed.flatMap fun pfid =>
        ((table.heap pfid.obj).map closing).getD []
  perm : (passed ++ loop.table.tree.inorder).Perm table.tree.inorder
  heap :
    ∀ pfid ∈ loop.table.tree.inorder,
      loop.table.heap pfid.obj = table.heap pfid.obj
  pos : loop.pos = rbFirstPostorder loop.table.tree
  ascending : Ascending loop.table.tree
  singles : loop.table.tree.SinglesOnSpine

/-- A turn passes one fid. -/
theorem Walking.turn {passed : List FidNode}
    (walking : Walking table loop passed) {pfid : FidNode}
    (first : rbFirstPostorder loop.table.tree = some pfid) (calloc : Bool) :
    Walking table (stopTurn rootDir loop calloc) (passed ++ [pfid]) ∧
      (stopTurn rootDir loop calloc).table.tree.inorder.length + 1 =
        loop.table.tree.inorder.length := by
  have linked := walking.linked
  have member := rbFirstPostorder_mem first
  obtain ⟨object, after, found, erases, entries, kept, turn⟩ :=
    @stopTurn_found rootDir _ linked walking.alive walking.walked _
      (walking.pos.trans first) (walking.ascending.search member) calloc
  obtain ⟨next, singles⟩ :
      rbFirstPostorder after = nextEntry pfid loop.table.tree ∧
        after.SinglesOnSpine := by
    obtain ⟨again, run, outcome⟩ :=
      linked.redBlack.afterFirst linked.inorder_nodup first
    cases erases.symm.trans run
    cases outcome with
    | next same singles => exact ⟨same, singles.mpr walking.singles⟩
    | overtaken singles _ => exact absurd walking.singles singles
  have gone : pfid ∉ after.inorder := by
    rw [entries]
    exact linked.inorder_nodup.not_mem_erase
  have stillOther : ∀ other ∈ after.inorder, other.obj ≠ pfid.obj := by
    intro other inside same
    rw [entries] at inside
    obtain ⟨apart, old⟩ := linked.inorder_nodup.mem_erase_iff.mp inside
    exact apart (List.inj_on_of_nodup_map linked.nodup old member same)
  rw [turn]
  refine ⟨⟨kept, ?_, rfl, ?_, ?_, ?_, ?_, next.symm, ?_, singles⟩, ?_⟩
  · refine decide_eq_false ?_
    intro same
    exact gone (rbFirstPostorder_mem (next.trans same))
  · rw [walking.visits, List.map_append]
    rfl
  · rw [walking.closes, List.flatMap_append, List.flatMap_singleton,
      ← walking.heap pfid member, found]
    rfl
  · have rest := List.perm_cons_erase member
    rw [← entries] at rest
    refine List.Perm.trans ?_ walking.perm
    rw [List.append_assoc]
    exact rest.symm.append_left passed
  · intro other inside
    have old := inside
    rw [FidTree.without] at old ⊢
    dsimp only at old ⊢
    rw [Function.update_of_ne (stillOther other old)]
    rw [entries] at old
    exact walking.heap other (List.mem_of_mem_erase old)
  · have ascending := walking.ascending
    rw [Ascending] at ascending ⊢
    exact ascending.sublist (entries ▸ List.erase_sublist)
  · show after.inorder.length + 1 = _
    rw [entries, List.length_erase_of_mem member]
    have positive := List.length_pos_of_mem member
    omega

/-- With a turn for every fid the walk gets to its end. -/
theorem Walking.emptied {inputs : List Bool} {passed : List FidNode}
    (walking : Walking table loop passed)
    (enough : loop.table.tree.inorder.length = inputs.length) :
    Emptied table (run (stopTurn rootDir) loop inputs) := by
  induction inputs generalizing loop passed with
  | nil =>
      have nothing : loop.table.tree = .null :=
        inorder_eq_nil.mp (List.eq_nil_of_length_eq_zero enough)
      have perm := walking.perm
      rw [nothing, RbTree.inorder, List.append_nil] at perm
      refine ⟨?_, walking.alive, nothing, passed, perm, walking.visits,
        walking.closes⟩
      rw [run_nil, walking.pos, nothing]
      rfl
  | cons calloc rest further =>
      cases first : rbFirstPostorder loop.table.tree with
      | none =>
          rw [rbFirstPostorder_eq_none.mp first] at enough
          cases enough
      | some pfid =>
          obtain ⟨turned, shorter⟩ :=
            @Walking.turn rootDir _ _ _ walking _ first calloc
          rw [run_cons]
          refine further turned ?_
          rw [List.length_cons] at enough
          omega

end Walk

/-! ## Walks that do not -/

section Back

variable {rootDir : CString} {loop : StopLoop}

/-- A search that ends at the end of the spine has gone left all the way. -/
theorem search_spine {order : FidNode → Ordering} {tree : RbTree FidNode}
    {up : List (Parent FidNode)} {pfid : FidNode} (spine : AllLeft up)
    (apart : pfid ∉ behind up)
    (search : (zip tree up).shape.search order = some pfid) :
    tree.shape.search order = some pfid ∧
      ∀ parent ∈ up, order parent.entry = .lt := by
  induction up generalizing tree with
  | nil => exact ⟨search, nofun⟩
  | cons parent up further =>
      obtain ⟨side, colour, entry, sibling⟩ := parent
      obtain ⟨rfl, above⟩ := allLeft_cons.mp spine
      rw [behind] at apart
      dsimp only at apart
      rw [List.mem_cons, List.mem_append, not_or, not_or] at apart
      obtain ⟨notEntry, notBeside, notBehind⟩ := apart
      obtain ⟨search, lefts⟩ := further above notBehind search
      rw [Parent.plug, RbTree.branch, RbTree.shape, TreeOf.search] at search
      cases direction : order entry with
      | lt =>
          rw [direction] at search
          exact ⟨search, List.forall_mem_cons.mpr ⟨direction, lefts⟩⟩
      | gt =>
          rw [direction] at search
          have member := (TreeOf.search_sound search).1
          rw [inorder_shape] at member
          exact absurd member notBeside
      | eq =>
          rw [direction] at search
          cases search
          exact absurd rfl notEntry

theorem lt_of_lookupOrder_lt {fid : UInt32} {cur : FidNode}
    (lt : lookupOrder fid cur = .lt) : fid < cur.fid := by
  rw [lookupOrder] at lt
  split at lt
  · assumption
  · split at lt <;> cases lt

theorem lt_of_lookupOrder_gt {fid : UInt32} {cur : FidNode}
    (gt : lookupOrder fid cur = .gt) : cur.fid < fid := by
  rw [lookupOrder] at gt
  split at gt
  · cases gt
  · split at gt
    · assumption
    · cases gt

/-- Below the parents of the spine, a number is below all behind them. -/
theorem lt_of_mem_behind {up : List (Parent FidNode)} {fid : UInt32}
    (spine : AllLeft up)
    (ascending :
      (behind up).Pairwise fun first second => first.fid < second.fid)
    (lefts : ∀ parent ∈ up, fid < parent.entry.fid) :
    ∀ pfid ∈ behind up, fid < pfid.fid := by
  cases up with
  | nil => exact nofun
  | cons parent up =>
      obtain ⟨side, colour, entry, sibling⟩ := parent
      obtain ⟨rfl, _⟩ := allLeft_cons.mp spine
      obtain ⟨below, _⟩ := List.forall_mem_cons.mp lefts
      obtain ⟨above, _⟩ := List.pairwise_cons.mp ascending
      intro pfid member
      rcases List.mem_cons.mp member with rfl | further
      · exact below
      · exact UInt32.lt_trans below (above pfid further)

/--
If the first node is found by its number, and the numbers behind it ascend,
then all do.
-/
theorem ascending_of_firstPlace {tree : RbTree FidNode} {pfid : FidNode}
    (place : FirstPlace pfid tree) (nodup : tree.inorder.Nodup)
    (search :
      tree.shape.search (lookupOrder pfid.fid) = some pfid)
    (rest :
      (tree.inorder.erase pfid).Pairwise fun first second =>
        first.fid < second.fid) :
    Ascending tree := by
  cases place with
  | @least colour up spine =>
      have entries :
          (zip (.node colour .null pfid .null) up).inorder =
            pfid :: behind up := by
        rw [inorder_zip, before_eq_nil.mpr spine]
        rfl
      rw [Ascending]
      rw [entries] at nodup rest ⊢
      rw [List.erase_cons_head] at rest
      obtain ⟨_, lefts⟩ :=
        search_spine spine (List.nodup_cons.mp nodup).1 search
      refine List.pairwise_cons.mpr ⟨?_, rest⟩
      exact
        lt_of_mem_behind spine rest fun parent member =>
          lt_of_lookupOrder_lt (lefts parent member)
  | @second least up spine =>
      have entries :
          (zip (.node .black .null least (.node .red .null pfid .null))
              up).inorder =
            least :: pfid :: behind up := by
        rw [inorder_zip, before_eq_nil.mpr spine]
        rfl
      rw [Ascending]
      rw [entries] at nodup rest ⊢
      obtain ⟨notLeast, nodup⟩ := List.nodup_cons.mp nodup
      have different : least ≠ pfid := by
        rintro rfl
        exact notLeast List.mem_cons_self
      rw [List.erase_cons_tail (by simpa using different),
        List.erase_cons_head] at rest
      obtain ⟨above, rest⟩ := List.pairwise_cons.mp rest
      obtain ⟨search, lefts⟩ :=
        search_spine spine (List.nodup_cons.mp nodup).1 search
      have below : least.fid < pfid.fid := by
        rw [RbTree.shape, TreeOf.search] at search
        cases direction : lookupOrder pfid.fid least with
        | lt =>
            rw [direction] at search
            cases search
        | gt => exact lt_of_lookupOrder_gt direction
        | eq =>
            rw [direction] at search
            cases search
            exact absurd rfl different
      refine
        List.pairwise_cons.mpr
          ⟨List.forall_mem_cons.mpr ⟨below, above⟩,
            List.pairwise_cons.mpr ⟨?_, rest⟩⟩
      exact
        lt_of_mem_behind spine rest fun parent member =>
          lt_of_lookupOrder_lt (lefts parent member)

/-- Where the walk is when it will empty the tree. -/
structure Ready (loop : StopLoop) : Prop where
  pos : loop.pos = rbFirstPostorder loop.table.tree
  ascending : Ascending loop.table.tree
  singles : loop.table.tree.SinglesOnSpine

/-- Before a turn that leaves the walk ready, it was ready. -/
theorem Ready.before (linked : Linked loop.table) {pfid : FidNode}
    {after : RbTree FidNode} (here : loop.pos = some pfid)
    (search :
      loop.table.tree.shape.search (lookupOrder pfid.fid) = some pfid)
    (erases : eraseEntry pfid loop.table.tree = some after)
    (entries : after.inorder = loop.table.tree.inorder.erase pfid)
    (next : nextEntry pfid loop.table.tree = rbFirstPostorder after)
    (ascending : Ascending after) (singles : after.SinglesOnSpine) :
    Ready loop := by
  have nodup := linked.inorder_nodup
  have member := (TreeOf.search_sound search).1
  rw [inorder_shape] at member
  have first : rbFirstPostorder loop.table.tree = some pfid := by
    by_contra other
    exact
      linked.redBlack.afterOther nodup member other erases next.symm
  refine ⟨here.trans first.symm, ?_, ?_⟩
  · rw [Ascending, entries] at ascending
    exact
      ascending_of_firstPlace (linked.redBlack.firstPlace first) nodup search
        ascending
  · obtain ⟨again, run, outcome⟩ :=
      linked.redBlack.afterFirst nodup first
    cases erases.symm.trans run
    cases outcome with
    | next _ same => exact same.mp singles
    | overtaken _ other => exact absurd next.symm other

/-- A walk that empties the tree was ready. -/
theorem ready_of_run {bound : Nat} {inputs : List Bool}
    (linked : Linked loop.table) (alive : loop.crashed = false)
    (walked : loop.walked = none) (later : bound ≤ loop.table.next)
    (ended : (run (stopTurn rootDir) loop inputs).pos = none)
    (fine : (run (stopTurn rootDir) loop inputs).crashed = false)
    (empty : (run (stopTurn rootDir) loop inputs).table.tree = .null)
    (same :
      ∀ visit ∈ (run (stopTurn rootDir) loop inputs).visits,
        visit.1 = visit.2 ∧ visit.1.obj < bound) :
    Ready loop := by
  induction inputs generalizing loop with
  | nil =>
      rw [run_nil] at ended empty
      refine ⟨?_, ?_, ?_⟩
      · rw [ended, empty]
        rfl
      · rw [empty]
        exact List.Pairwise.nil
      · rw [empty]
        trivial
  | cons calloc rest further =>
      rw [run_cons] at ended fine empty same
      cases here : loop.pos with
      | none =>
          have stays : stopTurn rootDir loop calloc = loop := by
            unfold stopTurn
            rw [alive, here]
            rfl
          rw [stays] at ended fine empty same
          exact further linked alive walked later ended fine empty same
      | some pfid =>
          have closes := @Linked.closes rootDir _ linked calloc pfid.fid
          have turn :
              stopTurn rootDir loop calloc =
                match closeFid rootDir calloc loop.table pfid.fid with
                | none => { loop with crashed := true }
                | some closed =>
                    { table := closed.table
                      walked :=
                        if closed.linked then
                          none
                        else
                          some loop.table.tree
                      pos := nextEntry pfid loop.table.tree
                      visits := loop.visits ++ [(pfid, closed.released)]
                      closes := loop.closes ++ closed.closes
                      crashed :=
                        nextEntry pfid loop.table.tree =
                          some closed.released } := by
            unfold stopTurn
            rw [alive, here, walked]
            rfl
          generalize closeFid rootDir calloc loop.table pfid.fid = result
            at closes turn
          cases closes with
          | crash =>
              rw [turn, run_crashed rfl] at fine
              cases fine
          | @found cur after object search _ erases entries kept =>
              have visit :
                  (pfid, cur) ∈ (stopTurn rootDir loop calloc).visits := by
                rw [turn]
                exact List.mem_append_right _ List.mem_cons_self
              have own : pfid = cur := (same _ (visits_run rest visit)).1
              obtain rfl := own
              have goesOn : (stopTurn rootDir loop calloc).crashed = false := by
                by_contra crashed
                rw [Bool.not_eq_false] at crashed
                rw [run_crashed crashed, crashed] at fine
                cases fine
              have ready :=
                further (by rw [turn]; exact kept) goesOn (by rw [turn]; rfl)
                  (by rw [turn]; exact later) ended fine empty same
              rw [turn] at ready
              exact
                Ready.before linked here search erases entries ready.pos
                  ready.ascending ready.singles
          | @created closed new _ _ =>
              have visit :
                  (pfid, closed.released) ∈
                    (stopTurn rootDir loop calloc).visits := by
                rw [turn]
                exact List.mem_append_right _ List.mem_cons_self
              obtain ⟨own, old⟩ := same _ (visits_run rest visit)
              dsimp only at own old
              rw [own, new] at old
              omega

end Back

/-! ## Stopping -/

section Stopping

variable {rootDir : CString} {dev : P9Dev} {status : UInt32}

theorem notifyStatus_loop (stop : status &&& virtioStatusStop ≠ 0)
    (calloc : Nat → Bool) (turns : Nat) :
    (notifyStatus rootDir dev status calloc turns).2 =
      run (stopTurn rootDir)
        { table := dev.fids
          walked := none
          pos := rbFirstPostorder dev.fids.tree
          visits := []
          closes := []
          crashed := false }
        ((List.range turns).map calloc) := by
  have fids :
      (if status &&& virtioStatusConfig ≠ 0 then
          { dev with configTagLen := dev.tagLen }
        else
          dev).fids =
        dev.fids := by
    split <;> rfl
  rw [notifyStatus, notifyStatusStart]
  dsimp only
  rw [if_neg stop, fids]

/-- A walk that releases everything was ready before its first turn. -/
theorem ready_of_releases
    (reached : Reachable (fidTrees rootDir) dev.fids)
    (stop : status &&& virtioStatusStop ≠ 0) {calloc : Nat → Bool}
    (releases : Releases rootDir dev status calloc) :
    Ascending dev.fids.tree ∧ dev.fids.tree.SinglesOnSpine := by
  have linked := Linked.of_reachable reached
  obtain ⟨turns, emptied⟩ := releases
  rw [notifyStatus_loop stop] at emptied
  obtain ⟨fids, perm, visits, _⟩ := emptied.once
  have same :
      ∀ visit ∈ fids.map fun pfid => (pfid, pfid),
        visit.1 = visit.2 ∧ visit.1.obj < dev.fids.next := by
    intro visit member
    obtain ⟨pfid, inside, rfl⟩ := List.mem_map.mp member
    exact ⟨rfl, linked.below pfid (perm.mem_iff.mp inside)⟩
  rw [← visits] at same
  have ready :=
    ready_of_run linked rfl rfl (Nat.le_refl dev.fids.next) emptied.ended
      emptied.alive emptied.empty same
  exact ⟨ready.ascending, ready.singles⟩

theorem releases_of_ready
    (reached : Reachable (fidTrees rootDir) dev.fids)
    (stop : status &&& virtioStatusStop ≠ 0) (calloc : Nat → Bool)
    (ascending : Ascending dev.fids.tree)
    (singles : dev.fids.tree.SinglesOnSpine) :
    Releases rootDir dev status calloc := by
  refine ⟨dev.fids.tree.inorder.length, ?_⟩
  rw [notifyStatus_loop stop]
  refine
    @Walking.emptied rootDir dev.fids _ _ []
      ⟨Linked.of_reachable reached, rfl, rfl, rfl, rfl, .refl _,
        fun _ _ => rfl, rfl, ascending, singles⟩ ?_
  rw [List.length_map, List.length_range]

/--
Stopping the device closes every fid once and leaves an empty tree exactly if
the numbers ascend along the tree and every node with one child is on the
path to the smallest.
-/
theorem stop_releases_iff
    (reached : Reachable (fidTrees rootDir) dev.fids)
    (stop : status &&& virtioStatusStop ≠ 0) (calloc : Nat → Bool) :
    Releases rootDir dev status calloc ↔
      Ascending dev.fids.tree ∧ dev.fids.tree.SinglesOnSpine := by
  constructor
  · exact ready_of_releases reached stop
  · rintro ⟨ascending, singles⟩
    exact releases_of_ready reached stop calloc ascending singles

variable (rootDir) in
/-- The table after some numbers were asked for. -/
def askedFor (fids : List UInt32) : Option FidTree :=
  fids.foldlM (fun table fid => fidTreeCall rootDir table (.find fid true))
    .empty

theorem reachable_askedFor {fids : List UInt32} {table : FidTree}
    (asked : askedFor rootDir fids = some table) :
    Reachable (fidTrees rootDir) table := by
  have further :
      ∀ (fids : List UInt32) (before after : FidTree),
        Reachable (fidTrees rootDir) before →
          fids.foldlM
              (fun table fid => fidTreeCall rootDir table (.find fid true))
              before =
            some after →
          Reachable (fidTrees rootDir) after := by
    intro fids
    induction fids with
    | nil =>
        rintro before after reached same
        cases same
        exact reached
    | cons fid rest further =>
        intro before after reached asked
        rw [List.foldlM_cons] at asked
        obtain ⟨next, called, asked⟩ := Option.bind_eq_some_iff.mp asked
        exact further next after (.next reached ⟨_, called⟩) asked
  exact further fids .empty table (.start rfl) asked

/-- The device after the numbers were asked for. -/
def deviceWith (fids : List UInt32) : P9Dev where
  fids := (askedFor [] fids).getD .empty
  configTagLen := 0
  tagLen := 0

theorem reachable_deviceWith {fids : List UInt32}
    (asked : (askedFor [] fids).isSome = true) :
    Reachable (fidTrees []) (deviceWith fids).fids := by
  obtain ⟨table, found⟩ := Option.isSome_iff_exists.mp asked
  rw [deviceWith, found]
  exact reachable_askedFor found

/-- Three fids are released. -/
theorem stop_releases_three :
    Releases [] (deviceWith [1, 2, 3]) virtioStatusStop fun _ => true :=
  (stop_releases_iff (reachable_deviceWith (by decide)) (by decide) _).mpr
    ⟨by unfold Ascending; decide, by decide⟩

/-- Of the fids 1 to 4, the walk leaves 2 in the tree. -/
theorem not_always_released :
    let dev := deviceWith [1, 2, 3, 4]
    let loop := (notifyStatus [] dev virtioStatusStop (fun _ => true) 3).2
    Reachable (fidTrees []) dev.fids ∧
      (loop.pos = none ∧
        loop.table.tree.inorder.map FidNode.fid = [2]) ∧
        ¬ Releases [] dev virtioStatusStop fun _ => true := by
  have reached := @reachable_deviceWith [1, 2, 3, 4] (by decide)
  refine ⟨reached, ⟨by decide, by decide⟩, ?_⟩
  intro releases
  have singles := (ready_of_releases reached (by decide) releases).2
  exact absurd singles (by decide)

end Stopping

end Kemu.Virtio.P9.Stop
