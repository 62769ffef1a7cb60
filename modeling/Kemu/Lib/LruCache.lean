import Kemu.Lib.SearchTree
import Mathlib.Data.List.Nodup

/-!
# Bounded caches with a recency list

A cache keeps its nodes twice: in a search tree by key, and in a list by the
time of their last use.  The nodes themselves live on a heap, and a node is
known by its key and its address.  When the cache is full, the node at the
head of the list makes room for a new one.

`damaged` records that a node was linked twice or freed while it was linked;
a sound cache is not damaged, and the operations keep it sound.
-/

namespace Kemu.Lib.LruCache

open Kemu.Lib.SearchTree

universe u v

/-- A node: its key and the address of its payload. -/
structure Node (Key : Type u) where
  key : Key
  obj : Nat
deriving DecidableEq, Repr

/-- The tree, the list from least to most recently used, and the heap. -/
structure Cache (Key : Type u) (Payload : Type v) where
  tree : TreeOf (Node Key)
  lru : List (Node Key)
  nrCached : Nat
  heap : Nat → Option Payload
  next : Nat
  damaged : Bool

namespace Cache

section Operations

variable {Key : Type u} {Payload : Type v}

/-- A cache without nodes. -/
def empty : Cache Key Payload where
  tree := .leaf
  lru := []
  nrCached := 0
  heap _ := none
  next := 0
  damaged := false

/-- A new node, in neither the tree nor the list. -/
def allocate (cache : Cache Key Payload) (key : Key) (payload : Payload) :
    Node Key × Cache Key Payload :=
  (⟨key, cache.next⟩,
    { cache with
      heap := Function.update cache.heap cache.next (some payload)
      next := cache.next + 1 })

/-- Give the memory of a node back. -/
def release (cache : Cache Key Payload) (node : Node Key) :
    Cache Key Payload :=
  { cache with heap := Function.update cache.heap node.obj none }

/-- Change the payload of a node in place. -/
def modify (cache : Cache Key Payload) (node : Node Key)
    (change : Payload → Payload) : Cache Key Payload :=
  { cache with
    heap :=
      Function.update cache.heap node.obj
        ((cache.heap node.obj).map change) }

theorem modify_modify (cache : Cache Key Payload) (node : Node Key)
    (first second : Payload → Payload) :
    (cache.modify node first).modify node second =
      cache.modify node (second ∘ first) := by
  simp [modify]

theorem modify_heap {cache : Cache Key Payload} {node : Node Key}
    {payload : Payload} (stored : cache.heap node.obj = some payload)
    (change : Payload → Payload) :
    (cache.modify node change).heap =
      Function.update cache.heap node.obj (some (change payload)) := by
  rw [modify, stored]
  rfl

variable [LinearOrder Key]

/-- The node with a key. -/
def lookup (cache : Cache Key Payload) (key : Key) : Option (Node Key) :=
  cache.tree.search (TreeOf.towards Node.key key)

/-- Make a node the most recently used one. -/
def touch (cache : Cache Key Payload) (node : Node Key) :
    Cache Key Payload :=
  { cache with lru := cache.lru.erase node ++ [node] }

/-- Free a node, which should not be linked. -/
def discard (cache : Cache Key Payload) (node : Node Key) :
    Cache Key Payload :=
  { cache.release node with
    damaged := cache.damaged || cache.tree.inorder.contains node }

variable (lib : Rebalancer (Node Key))

/-- Drop the least recently used node. -/
def evict (cache : Cache Key Payload) : Cache Key Payload :=
  match cache.lru with
  | [] => { cache with damaged := true }
  | first :: rest =>
      release
        { cache with
          tree := lib.erase cache.tree first
          lru := rest
          nrCached := cache.nrCached - 1 }
        first

/--
Link a node, after making room for it.  If its key is in the tree already,
it goes to the list only.
-/
def insert (capacity : Nat) (cache : Cache Key Payload)
    (node : Node Key) : Cache Key Payload :=
  let room := if cache.nrCached = capacity then evict lib cache else cache
  match room.tree.attach (TreeOf.towards Node.key node.key) node with
  | none =>
      { room with
        lru := room.lru ++ [node]
        nrCached := room.nrCached + 1
        damaged := true }
  | some tree =>
      { room with
        tree := lib.insertColor tree node
        lru := room.lru ++ [node]
        nrCached := room.nrCached + 1 }

/-- Allocate a node and link it. -/
def add (capacity : Nat) (cache : Cache Key Payload)
    (key : Key) (payload : Payload) : Node Key × Cache Key Payload :=
  let (node, cache) := cache.allocate key payload
  (node, cache.insert lib capacity node)

end Operations

/-! ## Sound caches -/

section Soundness

variable {Key : Type u} {Payload : Type v} [LinearOrder Key]

/-- The tree and the list hold the same nodes, and not too many. -/
structure Sound (capacity : Nat) (cache : Cache Key Payload) : Prop where
  ordered : cache.tree.Ordered Node.key
  listed : cache.lru.Perm cache.tree.inorder
  counted : cache.nrCached = cache.lru.length
  bounded : cache.nrCached ≤ capacity
  allocated : ∀ node ∈ cache.tree.inorder, node.obj < cache.next
  distinct :
    ∀ first ∈ cache.tree.inorder, ∀ second ∈ cache.tree.inorder,
      first.obj = second.obj → first = second
  intact : cache.damaged = false

/-- Every node of the tree has a payload with a property. -/
def Holds (property : Key → Payload → Prop)
    (cache : Cache Key Payload) : Prop :=
  ∀ node ∈ cache.tree.inorder,
    ∃ payload, cache.heap node.obj = some payload ∧
      property node.key payload

theorem empty_sound (capacity : Nat) :
    Sound capacity (empty : Cache Key Payload) := by
  constructor <;> simp [empty, TreeOf.Ordered]

omit [LinearOrder Key] in
theorem empty_holds (property : Key → Payload → Prop) :
    Holds property (empty : Cache Key Payload) := by
  simp [Holds, empty]

variable {capacity : Nat} {cache : Cache Key Payload}

theorem Sound.lookup_some
    (sound : Sound capacity cache) {key : Key} {node : Node Key}
    (found : cache.lookup key = some node) :
    node ∈ cache.tree.inorder ∧ node.key = key :=
  (TreeOf.search_towards_iff sound.ordered key node).mp found

theorem Sound.lookup_none
    (sound : Sound capacity cache) {key : Key}
    (missing : cache.lookup key = none) :
    ∀ node ∈ cache.tree.inorder, node.key ≠ key := by
  intro node member same
  have found :=
    (TreeOf.search_towards_iff sound.ordered key node).mpr ⟨member, same⟩
  rw [lookup] at missing
  rw [missing] at found
  cases found

theorem Sound.touch
    (sound : Sound capacity cache) {node : Node Key}
    (member : node ∈ cache.tree.inorder) :
    Sound capacity (cache.touch node) := by
  have inList : node ∈ cache.lru := sound.listed.mem_iff.mpr member
  have moved : (cache.lru.erase node ++ [node]).Perm cache.lru :=
    (List.perm_append_singleton node _).trans
      (List.perm_cons_erase inList).symm
  refine
    { sound with
      listed := moved.trans sound.listed
      counted := ?_ }
  exact sound.counted.trans moved.length_eq.symm

theorem Holds.touch
    {property : Key → Payload → Prop} (holds : Holds property cache)
    (node : Node Key) : Holds property (cache.touch node) :=
  holds

section Insertion

variable (lib : Rebalancer (Node Key))

theorem evict_eq {first : Node Key} {rest : List (Node Key)}
    (listed : cache.lru = first :: rest) :
    evict lib cache =
      release
        { cache with
          tree := lib.erase cache.tree first
          lru := rest
          nrCached := cache.nrCached - 1 }
        first := by
  rw [evict, listed]

theorem evict_inorder
    (sound : Sound capacity cache)
    {first : Node Key} {rest : List (Node Key)}
    (listed : cache.lru = first :: rest) :
    (evict lib cache).tree.inorder = cache.tree.inorder.erase first := by
  have member : first ∈ cache.tree.inorder := by
    apply sound.listed.mem_iff.mp
    rw [listed]
    exact List.mem_cons_self
  rw [evict_eq lib listed]
  exact lib.erase_inorder cache.tree first member

theorem Sound.evict
    (sound : Sound capacity cache) (nonempty : 0 < cache.nrCached) :
    Sound capacity (evict lib cache) ∧
      (Cache.evict lib cache).nrCached = cache.nrCached - 1 := by
  cases listed : cache.lru with
  | nil =>
      rw [sound.counted, listed] at nonempty
      cases nonempty
  | cons first rest =>
      have inorder := evict_inorder lib sound listed
      have subset :
          (Cache.evict lib cache).tree.inorder.Sublist
            cache.tree.inorder := by
        rw [inorder]
        exact List.erase_sublist
      have shrunk :
          (Cache.evict lib cache).nrCached = cache.nrCached - 1 := by
        rw [evict_eq lib listed, release]
      have restListed : (Cache.evict lib cache).lru = rest := by
        rw [evict_eq lib listed, release]
      refine ⟨?_, shrunk⟩
      constructor
      · exact List.Pairwise.sublist subset sound.ordered
      · rw [restListed, inorder]
        have same := sound.listed
        rw [listed] at same
        exact List.cons_perm_iff_perm_erase.mp same |>.2
      · rw [shrunk, restListed, sound.counted, listed]
        simp
      · rw [shrunk]
        exact (Nat.sub_le _ _).trans sound.bounded
      · intro node member
        rw [evict_eq lib listed, release]
        exact sound.allocated node (subset.subset member)
      · intro left inLeft right inRight
        exact sound.distinct left (subset.subset inLeft)
          right (subset.subset inRight)
      · rw [evict_eq lib listed, release]
        exact sound.intact

theorem Holds.evict
    {property : Key → Payload → Prop}
    (sound : Sound capacity cache) (holds : Holds property cache) :
    Holds property (evict lib cache) := by
  cases listed : cache.lru with
  | nil =>
      rw [Cache.evict, listed]
      exact holds
  | cons first rest =>
      have inorder := evict_inorder lib sound listed
      have inList : first ∈ cache.lru := by
        rw [listed]
        exact List.mem_cons_self
      have firstMember : first ∈ cache.tree.inorder :=
        sound.listed.mem_iff.mp inList
      have noDuplicates : cache.tree.inorder.Nodup :=
        List.Pairwise.imp (fun less same => less.ne (congrArg _ same))
          sound.ordered
      intro node member
      rw [inorder] at member
      have old : node ∈ cache.tree.inorder := List.mem_of_mem_erase member
      have other : node ≠ first := by
        rintro rfl
        exact noDuplicates.not_mem_erase member
      have elsewhere : node.obj ≠ first.obj := fun same =>
        other (sound.distinct node old first firstMember same)
      obtain ⟨payload, stored, proven⟩ := holds node old
      refine ⟨payload, ?_, proven⟩
      rw [evict_eq lib listed, release]
      simpa [elsewhere] using stored

/-- What linking a new node leaves. -/
structure Linked (capacity : Nat) (cache : Cache Key Payload)
    (node : Node Key) (after : Cache Key Payload) : Prop where
  sound : Sound capacity after
  member : node ∈ after.tree.inorder
  stored : after.heap node.obj = cache.heap node.obj
  holds :
    ∀ property : Key → Payload → Prop, Holds property cache →
      (∃ payload, cache.heap node.obj = some payload ∧
        property node.key payload) →
      Holds property after

/-- Linking a node with a new key where there is room. -/
theorem attach_linked
    (sound : Sound capacity cache) (room : cache.nrCached < capacity)
    {node : Node Key} (allocated : node.obj < cache.next)
    (newObj : ∀ other ∈ cache.tree.inorder, other.obj ≠ node.obj)
    (newKey : ∀ other ∈ cache.tree.inorder, other.key ≠ node.key) :
    ∃ tree,
      cache.tree.attach (TreeOf.towards Node.key node.key) node = some tree ∧
        Linked capacity cache node
          { cache with
            tree := lib.insertColor tree node
            lru := cache.lru ++ [node]
            nrCached := cache.nrCached + 1 } := by
  obtain ⟨tree, attached, ordered⟩ :=
    TreeOf.attach_towards sound.ordered newKey
  have inorder : (lib.insertColor tree node).inorder = tree.inorder :=
    lib.insertColor_inorder tree node
  have members :
      ∀ other, other ∈ (lib.insertColor tree node).inorder ↔
        other = node ∨ other ∈ cache.tree.inorder := by
    intro other
    rw [inorder, (TreeOf.attach_perm attached).mem_iff, List.mem_cons]
  refine ⟨tree, attached, ?_⟩
  constructor
  · constructor
    · rw [TreeOf.Ordered, inorder]
      exact ordered
    · rw [inorder]
      exact (List.perm_append_singleton node _).trans
        ((sound.listed.cons node).trans (TreeOf.attach_perm attached).symm)
    · simp [sound.counted]
    · exact room
    · intro other member
      rcases (members other).mp member with rfl | old
      · exact allocated
      · exact sound.allocated other old
    · intro first inFirst second inSecond same
      rcases (members first).mp inFirst with rfl | oldFirst
      · rcases (members second).mp inSecond with rfl | oldSecond
        · rfl
        · exact absurd same.symm (newObj second oldSecond)
      · rcases (members second).mp inSecond with rfl | oldSecond
        · exact absurd same (newObj first oldFirst)
        · exact sound.distinct first oldFirst second oldSecond same
    · exact sound.intact
  · exact (members node).mpr (Or.inl rfl)
  · rfl
  · intro property holds new other member
    rcases (members other).mp member with rfl | old
    · exact new
    · exact holds other old

/-- Linking a new node with a new key keeps a cache sound. -/
theorem Sound.insert
    (sound : Sound capacity cache) (positive : 0 < capacity)
    {node : Node Key} (allocated : node.obj < cache.next)
    (newObj : ∀ other ∈ cache.tree.inorder, other.obj ≠ node.obj)
    (newKey : ∀ other ∈ cache.tree.inorder, other.key ≠ node.key) :
    Linked capacity cache node (cache.insert lib capacity node) := by
  by_cases full : cache.nrCached = capacity
  · have nonempty : 0 < cache.nrCached := by omega
    obtain ⟨evicted, shrunk⟩ := sound.evict lib nonempty
    have room : (Cache.evict lib cache).nrCached < capacity := by omega
    cases listed : cache.lru with
    | nil =>
        rw [sound.counted, listed] at nonempty
        cases nonempty
    | cons first rest =>
        have subset :
            ∀ other ∈ (Cache.evict lib cache).tree.inorder,
              other ∈ cache.tree.inorder := by
          intro other member
          rw [evict_inorder lib sound listed] at member
          exact List.mem_of_mem_erase member
        have firstMember : first ∈ cache.tree.inorder := by
          apply sound.listed.mem_iff.mp
          rw [listed]
          exact List.mem_cons_self
        have sameNext :
            (Cache.evict lib cache).next = cache.next := by
          rw [evict_eq lib listed, release]
        have sameStored :
            (Cache.evict lib cache).heap node.obj =
              cache.heap node.obj := by
          rw [evict_eq lib listed, release]
          simp [(newObj first firstMember).symm]
        obtain ⟨tree, attached, linked⟩ :=
          attach_linked lib evicted room (by rw [sameNext]; exact allocated)
            (fun other member => newObj other (subset other member))
            (fun other member => newKey other (subset other member))
        rw [Cache.insert, if_pos full]
        rw [attached]
        refine ⟨linked.sound, linked.member,
          linked.stored.trans sameStored, ?_⟩
        intro property holds new
        refine linked.holds property (Holds.evict lib sound holds) ?_
        rw [sameStored]
        exact new
  · have room : cache.nrCached < capacity :=
      lt_of_le_of_ne sound.bounded full
    obtain ⟨tree, attached, linked⟩ :=
      attach_linked lib sound room allocated newObj newKey
    rw [Cache.insert, if_neg full]
    rw [attached]
    exact linked

omit lib in
/-- A node that is not linked yet is none of those that are. -/
theorem Sound.allocate (sound : Sound capacity cache) (key : Key)
    (payload : Payload) :
    Sound capacity (cache.allocate key payload).2 :=
  { sound with
    allocated := fun node member =>
      (sound.allocated node member).trans (Nat.lt_succ_self _) }

omit lib in
theorem Holds.allocate {property : Key → Payload → Prop}
    (holds : Holds property cache) (sound : Sound capacity cache)
    (key : Key) (payload : Payload) :
    Holds property (cache.allocate key payload).2 := by
  intro node member
  obtain ⟨content, stored, proven⟩ := holds node member
  refine ⟨content, ?_, proven⟩
  have other : node.obj ≠ cache.next := (sound.allocated node member).ne
  simpa [Cache.allocate, other] using stored

/-- Adding a payload under a new key. -/
theorem Sound.add
    (sound : Sound capacity cache) (positive : 0 < capacity)
    {key : Key}
    (newKey : ∀ other ∈ cache.tree.inorder, other.key ≠ key)
    (payload : Payload) :
    let (node, after) := cache.add lib capacity key payload
    Sound capacity after ∧ node.key = key ∧
      after.heap node.obj = some payload ∧
      ∀ property : Key → Payload → Prop, Holds property cache →
        property key payload → Holds property after := by
  have unshared :
      ∀ other ∈ cache.tree.inorder, other.obj ≠ cache.next :=
    fun other member => (sound.allocated other member).ne
  have heapNew :
      (cache.allocate key payload).2.heap cache.next = some payload := by
    simp [Cache.allocate]
  have linked :
      Linked capacity (cache.allocate key payload).2
        (cache.allocate key payload).1
        (cache.add lib capacity key payload).2 :=
    (sound.allocate key payload).insert lib positive (Nat.lt_succ_self _)
      unshared newKey
  refine ⟨linked.sound, rfl, linked.stored.trans heapNew, ?_⟩
  intro property holds proven
  exact linked.holds property (holds.allocate sound key payload)
    ⟨payload, heapNew, proven⟩

end Insertion

end Soundness

/-! ## Recency -/

section Recency

variable {Key : Type u} {Payload : Type v}

/-- In a history of uses, one key was used since the last use of another. -/
def Staler (history : List Key) (first second : Key) : Prop :=
  ∃ early late, history = early ++ late ∧ first ∉ late ∧ second ∈ late

theorem Staler.used {history : List Key} {first second key : Key}
    (staler : Staler history first second) (other : first ≠ key) :
    Staler (history ++ [key]) first second := by
  obtain ⟨early, late, rfl, unused, used⟩ := staler
  refine ⟨early, late ++ [key], List.append_assoc _ _ _, ?_, ?_⟩
  · simp [unused, other]
  · exact List.mem_append_left _ used

theorem staler_used {first key : Key} (other : first ≠ key)
    (history : List Key) : Staler (history ++ [key]) first key :=
  ⟨history, [key], rfl, by simpa using other, List.mem_cons_self⟩

/-- The list of a cache is in the order of the last uses. -/
def Recent (history : List Key) (cache : Cache Key Payload) : Prop :=
  cache.lru.Pairwise fun first second =>
    Staler history first.key second.key

/-- Every other node of the cache was used since the last use of a node. -/
def LeastRecent (history : List Key) (cache : Cache Key Payload)
    (node : Node Key) : Prop :=
  ∀ other ∈ cache.lru, other ≠ node → Staler history node.key other.key

theorem empty_recent : Recent [] (empty : Cache Key Payload) :=
  List.Pairwise.nil

variable [LinearOrder Key] {capacity : Nat} {cache : Cache Key Payload}
  {history : List Key}

theorem Sound.keys_nodup (sound : Sound capacity cache) :
    (cache.lru.map Node.key).Nodup := by
  rw [(sound.listed.map Node.key).nodup_iff]
  exact List.Pairwise.map Node.key
    (fun _ _ less => less.ne) sound.ordered

theorem Sound.key_inj (sound : Sound capacity cache)
    {first second : Node Key} (inFirst : first ∈ cache.lru)
    (inSecond : second ∈ cache.lru) (same : first.key = second.key) :
    first = second :=
  List.inj_on_of_nodup_map sound.keys_nodup inFirst inSecond same

omit [LinearOrder Key] in
/-- A node behind nodes with other keys that keep their order. -/
theorem recent_append {kept : List (Node Key)} {node : Node Key}
    (ordered : kept.Pairwise fun first second =>
      Staler history first.key second.key)
    (others : ∀ other ∈ kept, other.key ≠ node.key) :
    (kept ++ [node]).Pairwise fun first second =>
      Staler (history ++ [node.key]) first.key second.key := by
  rw [List.pairwise_append]
  refine ⟨?_, List.pairwise_singleton _ _, ?_⟩
  · exact ordered.imp_of_mem fun inKept _ staler =>
      staler.used (others _ inKept)
  · intro other inKept last isLast
    rw [List.mem_singleton.mp isLast]
    exact staler_used (others other inKept) history

theorem Recent.touch (recent : Recent history cache)
    (sound : Sound capacity cache) {node : Node Key}
    (member : node ∈ cache.lru) :
    Recent (history ++ [node.key]) (cache.touch node) := by
  have nodup : cache.lru.Nodup := sound.keys_nodup.of_map
  apply recent_append (recent.sublist List.erase_sublist)
  intro other inRest sameKey
  have old : other ∈ cache.lru := List.mem_of_mem_erase inRest
  rw [sound.key_inj old member sameKey] at inRest
  exact nodup.not_mem_erase inRest

variable (lib : Rebalancer (Node Key))

theorem evict_lru (cache : Cache Key Payload) :
    (evict lib cache).lru = cache.lru.tail := by
  cases listed : cache.lru with
  | nil => simp [evict, listed]
  | cons first rest =>
      rw [evict_eq lib listed, release, List.tail_cons]

theorem insert_lru (capacity : Nat) (cache : Cache Key Payload)
    (node : Node Key) :
    (cache.insert lib capacity node).lru =
      (if cache.nrCached = capacity then cache.lru.tail else cache.lru) ++
        [node] := by
  have room :
      (if cache.nrCached = capacity then evict lib cache else cache).lru =
        if cache.nrCached = capacity then cache.lru.tail else cache.lru := by
    split
    · exact evict_lru lib cache
    · rfl
  rw [← room]
  unfold insert
  dsimp only
  split <;> rfl

theorem insert_lru_sublist (capacity : Nat) (cache : Cache Key Payload)
    (node : Node Key) :
    ∃ kept, (cache.insert lib capacity node).lru = kept ++ [node] ∧
      kept.Sublist cache.lru ∧ cache.lru.tail.Sublist kept := by
  refine ⟨_, insert_lru lib capacity cache node, ?_⟩
  split
  · exact ⟨List.tail_sublist _, List.Sublist.refl _⟩
  · exact ⟨List.Sublist.refl _, List.tail_sublist _⟩

theorem Recent.insert (recent : Recent history cache) {node : Node Key}
    (newKey : ∀ other ∈ cache.lru, other.key ≠ node.key) :
    Recent (history ++ [node.key]) (cache.insert lib capacity node) := by
  obtain ⟨kept, listed, subset, -⟩ :=
    insert_lru_sublist lib capacity cache node
  rw [Recent, listed]
  exact recent_append (recent.sublist subset) fun other inKept =>
    newKey other (subset.subset inKept)

/-- What makes room for a new node is the node that was not used longest. -/
theorem Recent.evicted (recent : Recent history cache)
    {node old : Node Key} (member : old ∈ cache.lru)
    (gone : old ∉ (cache.insert lib capacity node).lru) :
    LeastRecent history cache old := by
  obtain ⟨kept, listed, -, tailKept⟩ :=
    insert_lru_sublist lib capacity cache node
  rw [listed] at gone
  rw [Recent] at recent
  unfold LeastRecent
  cases nodes : cache.lru with
  | nil =>
      rw [nodes] at member
      cases member
  | cons first rest =>
      rw [nodes] at member recent tailKept
      have isFirst : old = first := by
        rcases List.mem_cons.mp member with same | later
        · exact same
        · exact absurd
            (List.mem_append_left _ (tailKept.subset later)) gone
      intro other inCache notOld
      rw [isFirst] at notOld ⊢
      exact (List.pairwise_cons.mp recent).1 other
        ((List.mem_cons.mp inCache).resolve_left notOld)

theorem add_mem (cache : Cache Key Payload) (key : Key)
    (payload : Payload) :
    (cache.add lib capacity key payload).1 ∈
      (cache.add lib capacity key payload).2.lru := by
  obtain ⟨kept, listed, -, -⟩ :=
    insert_lru_sublist lib capacity
      (cache.allocate key payload).2 (cache.allocate key payload).1
  unfold add
  dsimp only
  rw [listed]
  exact List.mem_append_right _ List.mem_cons_self

theorem Recent.add (recent : Recent history cache) {key : Key}
    (newKey : ∀ other ∈ cache.lru, other.key ≠ key) (payload : Payload) :
    Recent (history ++ [key]) (cache.add lib capacity key payload).2 := by
  have allocated : Recent history (cache.allocate key payload).2 := recent
  show Recent (history ++ [(cache.allocate key payload).1.key])
    ((cache.allocate key payload).2.insert lib capacity
      (cache.allocate key payload).1)
  exact allocated.insert lib newKey

theorem Recent.evicted_add (recent : Recent history cache)
    {old : Node Key} (member : old ∈ cache.lru) {key : Key}
    {payload : Payload}
    (gone : old ∉ (cache.add lib capacity key payload).2.lru) :
    LeastRecent history cache old := by
  have allocated : Recent history (cache.allocate key payload).2 := recent
  exact allocated.evicted lib member gone

/-! ### Nodes in use -/

/-- At most so many nodes were used after a node. -/
def Followed (cache : Cache Key Payload) (node : Node Key)
    (later : Nat) : Prop :=
  ∃ before after,
    cache.lru = before ++ node :: after ∧ after.length ≤ later

omit [LinearOrder Key] in
theorem Followed.mem {node : Node Key} {later : Nat}
    (followed : Followed cache node later) : node ∈ cache.lru := by
  obtain ⟨before, after, listed, -⟩ := followed
  rw [listed]
  exact List.mem_append_right _ List.mem_cons_self

theorem Followed.touch {node : Node Key} {later : Nat}
    (followed : Followed cache node later) (other : Node Key) :
    Followed (cache.touch other) node (later + 1) := by
  obtain ⟨before, after, listed, bound⟩ := followed
  unfold Followed Cache.touch
  dsimp only
  rw [listed]
  by_cases earlier : other ∈ before
  · refine ⟨before.erase other, after ++ [other], ?_, ?_⟩
    · rw [List.erase_append_left _ earlier]
      simp
    · simpa using bound
  · rw [List.erase_append_right _ earlier]
    by_cases itself : other = node
    · refine ⟨before ++ after, [], ?_, Nat.zero_le _⟩
      rw [itself, List.erase_cons_head]
    · have shorter := List.length_erase_le (a := other) (l := after)
      refine ⟨before, after.erase other ++ [other], ?_, ?_⟩
      · rw [List.erase_cons_tail (by simpa using Ne.symm itself)]
        simp
      · rw [List.length_append, List.length_singleton]
        omega

theorem Followed.insert (sound : Sound capacity cache)
    {node : Node Key} {later : Nat}
    (followed : Followed cache node later) (room : later + 1 < capacity)
    (other : Node Key) :
    Followed (cache.insert lib capacity other) node (later + 1) := by
  obtain ⟨before, after, listed, bound⟩ := followed
  unfold Followed
  rw [insert_lru]
  by_cases full : cache.nrCached = capacity
  · rw [if_pos full]
    -- A node with few nodes behind it is not the first of a full cache.
    cases before with
    | nil =>
        have counted := sound.counted
        rw [listed, List.nil_append, List.length_cons] at counted
        omega
    | cons first rest =>
        refine ⟨rest, after ++ [other], ?_, ?_⟩
        · rw [listed]
          simp
        · simpa using bound
  · rw [if_neg full]
    refine ⟨before, after ++ [other], ?_, ?_⟩
    · rw [listed]
      simp
    · simpa using bound

theorem Followed.add (sound : Sound capacity cache)
    {node : Node Key} {later : Nat}
    (followed : Followed cache node later) (room : later + 1 < capacity)
    (key : Key) (payload : Payload) :
    Followed (cache.add lib capacity key payload).2 node (later + 1) := by
  have allocated : Followed (cache.allocate key payload).2 node later :=
    followed
  exact allocated.insert lib (sound.allocate key payload) room _

theorem insert_followed (capacity : Nat) (cache : Cache Key Payload)
    (node : Node Key) :
    Followed (cache.insert lib capacity node) node 0 := by
  unfold Followed
  rw [insert_lru]
  exact ⟨_, [], rfl, le_rfl⟩

end Recency

end Cache

end Kemu.Lib.LruCache
