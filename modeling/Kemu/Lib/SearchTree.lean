import Mathlib.Data.List.Perm.Basic
import Mathlib.Data.Nat.Basic
import Mathlib.Order.Basic
import Mathlib.Order.Compare
import Mathlib.Order.Lattice

/-!
# Search trees behind a rebalancing library

Intrusive trees are used in two halves: the client descends by a comparison
of its own and attaches a new node at the empty place it arrives at, and a
library recolours and rotates afterwards, or removes a node it is given.

The descent is `search` and `attach`, each for an arbitrary comparison, so
that clients which look up and insert by different comparisons can be
expressed.  The library is a `Rebalancer`: all that is known about it is what
it does to the in-order sequence.
-/

namespace Kemu.Lib.SearchTree

universe u v

/-- Binary trees with values at the inner nodes. -/
inductive TreeOf (Value : Type u) where
  | leaf : TreeOf Value
  | node (left : TreeOf Value) (value : Value) (right : TreeOf Value) :
      TreeOf Value
deriving DecidableEq, Repr

namespace TreeOf

variable {Value : Type u}

/-- The values from left to right. -/
def inorder : TreeOf Value → List Value
  | .leaf => []
  | .node left value right => left.inorder ++ value :: right.inorder

/-- The values met on the descent by a comparison, down to the found one. -/
def path (order : Value → Ordering) : TreeOf Value → List Value
  | .leaf => []
  | .node left value right =>
      match order value with
      | .lt => value :: left.path order
      | .gt => value :: right.path order
      | .eq => [value]

/-- The value the comparison singles out, if the descent meets it. -/
def search (order : Value → Ordering) : TreeOf Value → Option Value
  | .leaf => none
  | .node left value right =>
      match order value with
      | .lt => left.search order
      | .gt => right.search order
      | .eq => some value

/-- Attach a value at the end of the descent; `none` if it is occupied. -/
def attach (order : Value → Ordering) (new : Value) :
    TreeOf Value → Option (TreeOf Value)
  | .leaf => some (.node .leaf new .leaf)
  | .node left value right =>
      match order value with
      | .lt => (left.attach order new).map fun left => .node left value right
      | .gt => (right.attach order new).map fun right => .node left value right
      | .eq => none

@[simp]
theorem inorder_leaf : (leaf : TreeOf Value).inorder = [] :=
  rfl

@[simp]
theorem inorder_node (left right : TreeOf Value) (value : Value) :
    (node left value right).inorder =
      left.inorder ++ value :: right.inorder :=
  rfl

/-- Attaching puts the value somewhere into the sequence, whatever the order. -/
theorem attach_inorder {order : Value → Ordering} {new : Value}
    {tree after : TreeOf Value}
    (attached : tree.attach order new = some after) :
    ∃ before behind,
      tree.inorder = before ++ behind ∧
        after.inorder = before ++ new :: behind := by
  induction tree generalizing after with
  | leaf =>
      cases attached
      exact ⟨[], [], rfl, rfl⟩
  | node left value right inLeft inRight =>
      rw [attach] at attached
      split at attached
      · obtain ⟨_, below, rfl⟩ := Option.map_eq_some_iff.1 attached
        rcases inLeft below with ⟨before, behind, old, new⟩
        refine ⟨before, behind ++ value :: right.inorder, ?_, ?_⟩
        · simp [old]
        · simp [new]
      · obtain ⟨_, below, rfl⟩ := Option.map_eq_some_iff.1 attached
        rcases inRight below with ⟨before, behind, old, new⟩
        refine ⟨left.inorder ++ value :: before, behind, ?_, ?_⟩
        · simp [old]
        · simp [new]
      · cases attached

theorem attach_perm {order : Value → Ordering} {new : Value}
    {tree after : TreeOf Value}
    (attached : tree.attach order new = some after) :
    after.inorder.Perm (new :: tree.inorder) := by
  rcases attach_inorder attached with ⟨before, behind, old, inserted⟩
  rw [old, inserted]
  exact List.perm_middle

/-- Attaching fails only at a value the comparison calls equal. -/
theorem exists_eq_of_attach_none {order : Value → Ordering} {new : Value}
    {tree : TreeOf Value} (occupied : tree.attach order new = none) :
    ∃ value ∈ tree.inorder, order value = .eq := by
  induction tree with
  | leaf => cases occupied
  | node left value right inLeft inRight =>
      rw [attach] at occupied
      split at occupied
      · rcases inLeft (Option.map_eq_none_iff.1 occupied) with
          ⟨found, member, equal⟩
        exact ⟨found, by simp [member], equal⟩
      · rcases inRight (Option.map_eq_none_iff.1 occupied) with
          ⟨found, member, equal⟩
        exact ⟨found, by simp [member], equal⟩
      case h_3 equal => exact ⟨value, by simp, equal⟩

/-- Comparisons that agree along the descent attach at the same place. -/
theorem attach_congr {order other : Value → Ordering} (new : Value)
    {tree : TreeOf Value}
    (agree : ∀ value ∈ tree.path order, other value = order value) :
    tree.attach other new = tree.attach order new := by
  induction tree with
  | leaf => rfl
  | node left value right inLeft inRight =>
      rw [path] at agree
      rw [attach, attach]
      cases direction : order value with
      | lt =>
          simp only [direction, List.mem_cons, forall_eq_or_imp] at agree
          simp only [agree.1, inLeft agree.2]
      | gt =>
          simp only [direction, List.mem_cons, forall_eq_or_imp] at agree
          simp only [agree.1, inRight agree.2]
      | eq =>
          simp only [direction, List.mem_singleton, forall_eq] at agree
          simp only [agree]

/-! ## Directed comparisons -/

section Directed

/--
Along the sequence, the comparison first points to the right, then may hold,
and then points to the left.
-/
def Directed (order : Value → Ordering) (tree : TreeOf Value) : Prop :=
  tree.inorder.Pairwise fun first second =>
    (order first = .lt → order second = .lt) ∧
      (order second = .gt → order first = .gt)

theorem directed_node {order : Value → Ordering}
    {left right : TreeOf Value} {value : Value}
    (directed : (node left value right).Directed order) :
    left.Directed order ∧ right.Directed order ∧
      (order value = .gt → ∀ lower ∈ left.inorder, order lower = .gt) ∧
      (order value = .lt → ∀ upper ∈ right.inorder, order upper = .lt) := by
  rw [Directed, inorder_node, List.pairwise_append,
    List.pairwise_cons] at directed
  obtain ⟨inLeft, ⟨above, inRight⟩, across⟩ := directed
  refine ⟨inLeft, inRight, ?_, ?_⟩
  · intro points lower member
    exact (across lower member value List.mem_cons_self).2 points
  · intro points upper member
    exact (above upper member).1 points

/-- What a descent finds is in the tree and satisfies the comparison. -/
theorem search_sound {order : Value → Ordering} {tree : TreeOf Value}
    {found : Value} (search : tree.search order = some found) :
    found ∈ tree.inorder ∧ order found = .eq := by
  induction tree with
  | leaf => cases search
  | node left value right inLeft inRight =>
      rw [TreeOf.search] at search
      split at search
      · obtain ⟨member, holds⟩ := inLeft search
        exact ⟨by simp [member], holds⟩
      · obtain ⟨member, holds⟩ := inRight search
        exact ⟨by simp [member], holds⟩
      case h_3 holds =>
        cases search
        exact ⟨by simp, holds⟩

/-- A value that a directed comparison finds is where it points to. -/
theorem Directed.towards {order : Value → Ordering}
    {left right : TreeOf Value} {root value : Value}
    (directed : (node left root right).Directed order)
    (member : value ∈ (node left root right).inorder)
    (holds : order value = .eq) :
    (order root = .lt ∧ value ∈ left.inorder) ∨ order root = .eq ∨
      (order root = .gt ∧ value ∈ right.inorder) := by
  obtain ⟨-, -, below, above⟩ := directed_node directed
  rw [inorder_node, List.mem_append, List.mem_cons] at member
  rcases member with lower | rfl | upper
  · cases direction : order root with
    | lt => exact Or.inl ⟨rfl, lower⟩
    | eq => exact Or.inr (Or.inl rfl)
    | gt => cases holds.symm.trans (below direction value lower)
  · exact Or.inr (Or.inl holds)
  · cases direction : order root with
    | lt => cases holds.symm.trans (above direction value upper)
    | eq => exact Or.inr (Or.inl rfl)
    | gt => exact Or.inr (Or.inr ⟨rfl, upper⟩)

/-- A descent by a directed comparison misses nothing. -/
theorem search_complete {order : Value → Ordering} {tree : TreeOf Value}
    (directed : tree.Directed order) {value : Value}
    (member : value ∈ tree.inorder) (holds : order value = .eq) :
    ∃ found, tree.search order = some found := by
  induction tree with
  | leaf => cases member
  | node left root right inLeft inRight =>
      have below := directed_node directed
      rw [TreeOf.search]
      rcases directed.towards member holds with
        ⟨less, lower⟩ | equal | ⟨greater, upper⟩
      · simpa only [less] using inLeft below.1 lower
      · exact ⟨root, by rw [equal]⟩
      · simpa only [greater] using inRight below.2.1 upper

/-- Attaching by a directed comparison fails at an occupied place only. -/
theorem attach_none_of_eq {order : Value → Ordering} {tree : TreeOf Value}
    (directed : tree.Directed order) (new : Value) {value : Value}
    (member : value ∈ tree.inorder) (holds : order value = .eq) :
    tree.attach order new = none := by
  induction tree with
  | leaf => cases member
  | node left root right inLeft inRight =>
      have below := directed_node directed
      rw [attach]
      rcases directed.towards member holds with
        ⟨less, lower⟩ | equal | ⟨greater, upper⟩
      · simp [less, inLeft below.1 lower]
      · rw [equal]
      · simp [greater, inRight below.2.1 upper]

/-- A value attached by a directed comparison lands where it points to. -/
theorem attach_between {order : Value → Ordering} {new : Value}
    {tree after : TreeOf Value} (directed : tree.Directed order)
    (attached : tree.attach order new = some after) :
    ∃ before behind,
      tree.inorder = before ++ behind ∧
        after.inorder = before ++ new :: behind ∧
        (∀ lower ∈ before, order lower = .gt) ∧
        ∀ upper ∈ behind, order upper = .lt := by
  induction tree generalizing after with
  | leaf =>
      cases attached
      exact ⟨[], [], rfl, rfl, by simp, by simp⟩
  | node left value right inLeft inRight =>
      obtain ⟨leftDirected, rightDirected, below, above⟩ :=
        directed_node directed
      rw [attach] at attached
      split at attached
      case h_1 points =>
        obtain ⟨_, under, rfl⟩ := Option.map_eq_some_iff.1 attached
        obtain ⟨before, behind, old, inserted, lowers, uppers⟩ :=
          inLeft leftDirected under
        refine ⟨before, behind ++ value :: right.inorder, by simp [old],
          by simp [inserted], lowers, ?_⟩
        intro upper member
        rw [List.mem_append, List.mem_cons] at member
        rcases member with inBehind | rfl | inRightTree
        · exact uppers upper inBehind
        · exact points
        · exact above points upper inRightTree
      case h_2 points =>
        obtain ⟨_, under, rfl⟩ := Option.map_eq_some_iff.1 attached
        obtain ⟨before, behind, old, inserted, lowers, uppers⟩ :=
          inRight rightDirected under
        refine ⟨left.inorder ++ value :: before, behind, by simp [old],
          by simp [inserted], ?_, uppers⟩
        intro lower member
        rw [List.mem_append, List.mem_cons] at member
        rcases member with inLeftTree | rfl | inBefore
        · exact below points lower inLeftTree
        · exact points
        · exact lowers lower inBefore
      case h_3 points => cases attached

end Directed

/-! ## Trees ordered by a key -/

section Ordered

variable {Key : Type v} [LinearOrder Key] (key : Value → Key)

/-- Keys grow strictly from left to right. -/
def Ordered (tree : TreeOf Value) : Prop :=
  tree.inorder.Pairwise fun first second => key first < key second

/-- The descent towards a key. -/
def towards (target : Key) (value : Value) : Ordering :=
  compare target (key value)

variable {key}

theorem ordered_node_iff
    {left right : TreeOf Value} {value : Value} :
    (node left value right).Ordered key ↔
      left.Ordered key ∧ right.Ordered key ∧
        (∀ lower ∈ left.inorder, key lower < key value) ∧
        ∀ upper ∈ right.inorder, key value < key upper := by
  rw [Ordered, inorder_node, List.pairwise_append, List.pairwise_cons]
  constructor
  · rintro ⟨leftOrdered, ⟨above, rightOrdered⟩, across⟩
    exact
      ⟨leftOrdered, rightOrdered,
        fun lower member => across lower member value List.mem_cons_self,
        above⟩
  · rintro ⟨leftOrdered, rightOrdered, below, above⟩
    refine ⟨leftOrdered, ⟨above, rightOrdered⟩, ?_⟩
    intro lower inLeft upper member
    rcases List.mem_cons.1 member with rfl | inRight
    · exact below lower inLeft
    · exact (below lower inLeft).trans (above upper inRight)

/-- In an ordered tree the descent finds exactly the values with the key. -/
theorem search_towards_iff
    {tree : TreeOf Value} (ordered : tree.Ordered key)
    (target : Key) (found : Value) :
    tree.search (towards key target) = some found ↔
      found ∈ tree.inorder ∧ key found = target := by
  induction tree with
  | leaf => simp [search]
  | node left value right inLeft inRight =>
      rcases ordered_node_iff.1 ordered with
        ⟨leftOrdered, rightOrdered, below, above⟩
      rw [search, inorder_node, List.mem_append, List.mem_cons]
      split
      case h_1 direction =>
        have less : target < key value := compare_lt_iff_lt.1 direction
        rw [inLeft leftOrdered]
        constructor
        · rintro ⟨member, same⟩
          exact ⟨Or.inl member, same⟩
        · rintro ⟨member | rfl | member, same⟩
          · exact ⟨member, same⟩
          · exact absurd same less.ne'
          · exact absurd same (less.trans (above found member)).ne'
      case h_2 direction =>
        have greater : key value < target := compare_gt_iff_gt.1 direction
        rw [inRight rightOrdered]
        constructor
        · rintro ⟨member, same⟩
          exact ⟨Or.inr (Or.inr member), same⟩
        · rintro ⟨member | rfl | member, same⟩
          · exact absurd same ((below found member).trans greater).ne
          · exact absurd same greater.ne
          · exact ⟨member, same⟩
      case h_3 direction =>
        have here : target = key value := compare_eq_iff_eq.1 direction
        constructor
        · intro same
          cases same
          exact ⟨Or.inr (Or.inl rfl), here.symm⟩
        · rintro ⟨member | rfl | member, same⟩
          · exact absurd (same.trans here) (below found member).ne
          · rfl
          · exact absurd (same.trans here) (above found member).ne'

/-- A new key is attached where it keeps the order. -/
theorem attach_towards
    {tree : TreeOf Value} (ordered : tree.Ordered key) {new : Value}
    (fresh : ∀ value ∈ tree.inorder, key value ≠ key new) :
    ∃ after,
      tree.attach (towards key (key new)) new = some after ∧
        after.Ordered key := by
  induction tree with
  | leaf => exact ⟨_, rfl, by simp [Ordered]⟩
  | node left value right inLeft inRight =>
      rcases ordered_node_iff.1 ordered with
        ⟨leftOrdered, rightOrdered, below, above⟩
      rw [attach]
      split
      case h_1 direction =>
        have less : key new < key value := compare_lt_iff_lt.1 direction
        rcases inLeft leftOrdered
            (fun other member => fresh other (by simp [member])) with
          ⟨after, attached, afterOrdered⟩
        refine ⟨_, by rw [attached]; rfl, ordered_node_iff.2 ?_⟩
        refine ⟨afterOrdered, rightOrdered, ?_, above⟩
        intro lower member
        rcases List.mem_cons.1 ((attach_perm attached).mem_iff.1 member) with
          rfl | old
        · exact less
        · exact below lower old
      case h_2 direction =>
        have greater : key value < key new := compare_gt_iff_gt.1 direction
        rcases inRight rightOrdered
            (fun other member => fresh other (by simp [member])) with
          ⟨after, attached, afterOrdered⟩
        refine ⟨_, by rw [attached]; rfl, ordered_node_iff.2 ?_⟩
        refine ⟨leftOrdered, afterOrdered, below, ?_⟩
        intro upper member
        rcases List.mem_cons.1 ((attach_perm attached).mem_iff.1 member) with
          rfl | old
        · exact greater
        · exact above upper old
      case h_3 direction =>
        have here : key new = key value := compare_eq_iff_eq.1 direction
        exact absurd here.symm (fresh value (by simp))

/--
A value attached by any comparison keeps the order only if the comparison
agrees with the key all along the descent towards the key.
-/
theorem agree_of_attach_ordered
    {order : Value → Ordering} {new : Value} {tree after : TreeOf Value}
    (attached : tree.attach order new = some after)
    (ordered : after.Ordered key) :
    ∀ value ∈ tree.path (towards key (key new)),
      order value = towards key (key new) value := by
  induction tree generalizing after with
  | leaf => simp [path]
  | node left value right inLeft inRight =>
      rw [attach] at attached
      split at attached
      case h_1 direction =>
        obtain ⟨leftAfter, below, rfl⟩ := Option.map_eq_some_iff.1 attached
        rcases ordered_node_iff.1 ordered with ⟨leftOrdered, _, under, _⟩
        have less : towards key (key new) value = .lt :=
          compare_lt_iff_lt.2
            (under new
              ((attach_perm below).mem_iff.2 List.mem_cons_self))
        simp only [path, less, List.mem_cons, forall_eq_or_imp]
        exact ⟨direction, inLeft below leftOrdered⟩
      case h_2 direction =>
        obtain ⟨rightAfter, below, rfl⟩ := Option.map_eq_some_iff.1 attached
        rcases ordered_node_iff.1 ordered with ⟨_, rightOrdered, _, above⟩
        have greater : towards key (key new) value = .gt :=
          compare_gt_iff_gt.2
            (above new
              ((attach_perm below).mem_iff.2 List.mem_cons_self))
        simp only [path, greater, List.mem_cons, forall_eq_or_imp]
        exact ⟨direction, inRight below rightOrdered⟩
      case h_3 direction => cases attached

end Ordered

end TreeOf

/-! ## The library -/

/-- What a rebalancing library promises about the in-order sequence. -/
structure Rebalancer (Value : Type u) [DecidableEq Value] where
  insertColor : TreeOf Value → Value → TreeOf Value
  erase : TreeOf Value → Value → TreeOf Value
  insertColor_inorder :
    ∀ tree new, (insertColor tree new).inorder = tree.inorder
  erase_inorder :
    ∀ tree old, old ∈ tree.inorder →
      (erase tree old).inorder = tree.inorder.erase old

namespace Rebalancer

variable {Value : Type u}

/-- Put a tree to the right of another. -/
def join : TreeOf Value → TreeOf Value → TreeOf Value
  | .leaf, right => right
  | .node left value rest, right => .node left value (join rest right)

theorem join_inorder (left right : TreeOf Value) :
    (join left right).inorder = left.inorder ++ right.inorder := by
  induction left with
  | leaf => rfl
  | node left value rest _ induction => simp [join, induction]

variable [DecidableEq Value]

/-- Remove the leftmost node with a value. -/
def remove (old : Value) : TreeOf Value → TreeOf Value
  | .leaf => .leaf
  | .node left value right =>
      if old ∈ left.inorder then
        .node (remove old left) value right
      else if value = old then
        join left right
      else
        .node left value (remove old right)

theorem remove_inorder (old : Value) (tree : TreeOf Value) :
    (remove old tree).inorder = tree.inorder.erase old := by
  induction tree with
  | leaf => rfl
  | node left value right inLeft inRight =>
      rw [remove]
      split
      case isTrue member =>
        simp [inLeft, List.erase_append_left _ member]
      case isFalse absent =>
        rw [TreeOf.inorder_node, List.erase_append_right _ absent]
        split
        case isTrue here => simp [here, join_inorder]
        case isFalse elsewhere =>
          rw [List.erase_cons_tail (by simpa using elsewhere),
            TreeOf.inorder_node, inRight]

variable (Value) in
/-- The library that never rotates. -/
def plain : Rebalancer Value where
  insertColor tree _ := tree
  erase tree old := remove old tree
  insertColor_inorder _ _ := rfl
  erase_inorder tree old _ := remove_inorder old tree

end Rebalancer

end Kemu.Lib.SearchTree
