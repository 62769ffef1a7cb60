import Kemu.Lib.SearchTree
import Kemu.Lib.Transition

/-!
# The interval tree

Half-open intervals in a red-black tree.  A lookup descends by a point, an
insertion by a whole interval; both stop at the first interval that is not
entirely on one side.  With disjoint intervals in increasing order neither
of them can miss one.
-/

namespace Kemu.Util.RbtreeInterval

open Kemu.Lib.SearchTree
open Kemu.Lib.Transition

/-! ## The code -/

/-- `struct rb_int_node`, with the address of the object it is part of. -/
structure RbIntNode where
  low : UInt64
  high : UInt64
  obj : Nat
deriving DecidableEq, Repr

/-- The comparison of `rb_int_search_single`. -/
def pointOrder (point : UInt64) (cur : RbIntNode) : Ordering :=
  if point < cur.low then
    .lt
  else if cur.high ≤ point then
    .gt
  else
    .eq

/-- The comparison of `rb_int_insert`. -/
def intervalOrder (new cur : RbIntNode) : Ordering :=
  if new.high ≤ cur.low then
    .lt
  else if cur.high ≤ new.low then
    .gt
  else
    .eq

/-- `rb_int_search_single`. -/
def rbIntSearchSingle (tree : TreeOf RbIntNode) (point : UInt64) :
    Option RbIntNode :=
  tree.search (pointOrder point)

/-- `rb_int_search_range`. -/
def rbIntSearchRange (tree : TreeOf RbIntNode) (low high : UInt64) :
    Option RbIntNode :=
  match rbIntSearchSingle tree low with
  | none => none
  | some range => if range.high < high then none else some range

/-- `-EEXIST`. -/
def eExist : Int := -17

section Library

variable (lib : Rebalancer RbIntNode)

/-- `rb_int_insert`. -/
def rbIntInsert (tree : TreeOf RbIntNode) (node : RbIntNode) :
    Int × TreeOf RbIntNode :=
  match tree.attach (intervalOrder node) node with
  | none => (eExist, tree)
  | some attached => (0, lib.insertColor attached node)

/-- `rb_int_erase`. -/
def rbIntErase (tree : TreeOf RbIntNode) (node : RbIntNode) :
    TreeOf RbIntNode :=
  lib.erase tree node

end Library

/-- An insertion is refused, or adds its node somewhere. -/
theorem rbIntInsert_perm (lib : Rebalancer RbIntNode)
    (tree : TreeOf RbIntNode) (node : RbIntNode) :
    rbIntInsert lib tree node = (eExist, tree) ∨
      (rbIntInsert lib tree node).1 = 0 ∧
        (rbIntInsert lib tree node).2.inorder.Perm
          (node :: tree.inorder) := by
  unfold rbIntInsert
  cases attached : tree.attach (intervalOrder node) node with
  | none => exact Or.inl rfl
  | some after =>
      refine Or.inr ⟨rfl, ?_⟩
      simp only [lib.insertColor_inorder]
      exact TreeOf.attach_perm attached

/-! ## Disjoint intervals -/

/-- The intervals are not empty, disjoint, and in increasing order. -/
structure Disjoint (tree : TreeOf RbIntNode) : Prop where
  nonempty : ∀ node ∈ tree.inorder, node.low < node.high
  increasing :
    tree.inorder.Pairwise fun first second => first.high ≤ second.low

/-- Two intervals have a point in common. -/
def Overlaps (first second : RbIntNode) : Prop :=
  first.low < second.high ∧ second.low < first.high

theorem pointOrder_eq_iff (point : UInt64) (cur : RbIntNode) :
    pointOrder point cur = .eq ↔ cur.low ≤ point ∧ point < cur.high := by
  unfold pointOrder
  simp only [UInt64.lt_iff_toNat_lt, UInt64.le_iff_toNat_le]
  split
  · simp
    omega
  · split
    · simp
      omega
    · simp
      omega

theorem intervalOrder_eq_iff (new cur : RbIntNode) :
    intervalOrder new cur = .eq ↔ Overlaps cur new := by
  unfold intervalOrder Overlaps
  simp only [UInt64.lt_iff_toNat_lt, UInt64.le_iff_toNat_le]
  split
  · simp
    omega
  · split
    · simp
      omega
    · simp
      omega

theorem Disjoint.leaf : Disjoint (.leaf : TreeOf RbIntNode) :=
  ⟨by simp, by simp⟩

section Searching

variable {tree : TreeOf RbIntNode} (disjoint : Disjoint tree)

include disjoint

/-- A property of all pairs in order may use that both are intervals. -/
theorem Disjoint.pairwise {property : RbIntNode → RbIntNode → Prop}
    (pairs :
      ∀ first second, first.low < first.high → second.low < second.high →
        first.high ≤ second.low → property first second) :
    tree.inorder.Pairwise property := by
  refine disjoint.increasing.imp_of_mem ?_
  intro first second inFirst inSecond apart
  exact pairs first second (disjoint.nonempty first inFirst)
    (disjoint.nonempty second inSecond) apart

theorem Disjoint.directed_point (point : UInt64) :
    tree.Directed (pointOrder point) := by
  apply disjoint.pairwise
  intro first second firstInterval secondInterval apart
  unfold pointOrder
  simp only [UInt64.lt_iff_toNat_lt, UInt64.le_iff_toNat_le] at *
  constructor
  · split
    · intro _
      rw [if_pos (by omega)]
    · split <;> simp
  · split
    · simp
    · split
      · intro _
        rw [if_neg (by omega), if_pos (by omega)]
      · simp

theorem Disjoint.directed_interval (new : RbIntNode) :
    tree.Directed (intervalOrder new) := by
  apply disjoint.pairwise
  intro first second firstInterval secondInterval apart
  unfold intervalOrder
  simp only [UInt64.lt_iff_toNat_lt, UInt64.le_iff_toNat_le] at *
  constructor
  · split
    · intro _
      rw [if_pos (by omega)]
    · split <;> simp
  · split
    · simp
    · split
      · intro _
        rw [if_neg (by omega), if_pos (by omega)]
      · simp

/-- At most one interval has a point. -/
theorem Disjoint.unique {point : UInt64} {first second : RbIntNode}
    (inFirst : first ∈ tree.inorder) (inSecond : second ∈ tree.inorder)
    (firstHas : first.low ≤ point ∧ point < first.high)
    (secondHas : second.low ≤ point ∧ point < second.high) :
    first = second := by
  have impossible :
      ∀ {left right : RbIntNode}, left.high ≤ right.low →
        ¬ (point < left.high ∧ right.low ≤ point) := by
    intro left right apart
    simp only [UInt64.lt_iff_toNat_lt, UInt64.le_iff_toNat_le] at *
    omega
  exact
    List.Pairwise.forall_of_forall_of_flip
      (R := fun left right : RbIntNode =>
        left.low ≤ point ∧ point < left.high →
          right.low ≤ point ∧ point < right.high → left = right)
      (fun _ _ _ _ => rfl)
      (disjoint.increasing.imp fun apart leftHas rightHas =>
        absurd ⟨leftHas.2, rightHas.1⟩ (impossible apart))
      (disjoint.increasing.imp fun apart rightHas leftHas =>
        absurd ⟨leftHas.2, rightHas.1⟩ (impossible apart))
      inFirst inSecond firstHas secondHas

/-- The lookup of a point finds the interval that has it. -/
theorem Disjoint.searchSingle_iff (point : UInt64) (found : RbIntNode) :
    rbIntSearchSingle tree point = some found ↔
      found ∈ tree.inorder ∧ found.low ≤ point ∧ point < found.high := by
  constructor
  · intro search
    obtain ⟨member, holds⟩ := TreeOf.search_sound search
    exact ⟨member, (pointOrder_eq_iff point found).mp holds⟩
  · rintro ⟨member, has⟩
    obtain ⟨other, search⟩ :=
      TreeOf.search_complete (disjoint.directed_point point) member
        ((pointOrder_eq_iff point found).mpr has)
    obtain ⟨otherMember, holds⟩ := TreeOf.search_sound search
    have same : other = found :=
      disjoint.unique otherMember member
        ((pointOrder_eq_iff point other).mp holds) has
    rw [rbIntSearchSingle, search, same]

/-- The lookup of a range finds the interval that has all of it. -/
theorem Disjoint.searchRange_iff (low high : UInt64) (found : RbIntNode) :
    rbIntSearchRange tree low high = some found ↔
      found ∈ tree.inorder ∧ found.low ≤ low ∧ low < found.high ∧
        high ≤ found.high := by
  unfold rbIntSearchRange
  cases search : rbIntSearchSingle tree low with
  | none =>
      constructor
      · intro impossible
        cases impossible
      · rintro ⟨member, starts, inside, -⟩
        have present :=
          (disjoint.searchSingle_iff low found).mpr
            ⟨member, starts, inside⟩
        rw [search] at present
        cases present
  | some range =>
      obtain ⟨member, starts, inside⟩ :=
        (disjoint.searchSingle_iff low range).mp search
      dsimp only
      by_cases short : range.high < high
      · rw [if_pos short]
        constructor
        · intro impossible
          cases impossible
        · rintro ⟨otherMember, otherStarts, otherInside, enough⟩
          have same :=
            disjoint.unique otherMember member
              ⟨otherStarts, otherInside⟩ ⟨starts, inside⟩
          rw [same] at enough
          simp only [UInt64.lt_iff_toNat_lt, UInt64.le_iff_toNat_le] at *
          omega
      · rw [if_neg short, Option.some.injEq]
        constructor
        · rintro rfl
          refine ⟨member, starts, inside, ?_⟩
          simp only [UInt64.lt_iff_toNat_lt, UInt64.le_iff_toNat_le] at *
          omega
        · rintro ⟨otherMember, otherStarts, otherInside, -⟩
          exact disjoint.unique member otherMember ⟨starts, inside⟩
            ⟨otherStarts, otherInside⟩

end Searching

/-! ## Insertion and removal -/

section Changing

variable (lib : Rebalancer RbIntNode) {tree : TreeOf RbIntNode}
  (disjoint : Disjoint tree)

include disjoint

/-- An interval that overlaps none goes in. -/
theorem Disjoint.insert {node : RbIntNode} (interval : node.low < node.high)
    (free : ∀ stored ∈ tree.inorder, ¬ Overlaps stored node) :
    (rbIntInsert lib tree node).1 = 0 ∧
      Disjoint (rbIntInsert lib tree node).2 ∧
      ∀ stored,
        stored ∈ (rbIntInsert lib tree node).2.inorder ↔
          stored = node ∨ stored ∈ tree.inorder := by
  have directed := disjoint.directed_interval node
  cases attached : tree.attach (intervalOrder node) node with
  | none =>
      obtain ⟨stored, member, holds⟩ :=
        TreeOf.exists_eq_of_attach_none attached
      exact absurd ((intervalOrder_eq_iff node stored).mp holds)
        (free stored member)
  | some after =>
      obtain ⟨before, behind, old, inserted, lowers, uppers⟩ :=
        TreeOf.attach_between directed attached
      have inorder :
          (rbIntInsert lib tree node).2.inorder =
            before ++ node :: behind := by
        rw [rbIntInsert, attached]
        exact (lib.insertColor_inorder after node).trans inserted
      have members :
          ∀ stored,
            stored ∈ (rbIntInsert lib tree node).2.inorder ↔
              stored = node ∨ stored ∈ tree.inorder := by
        intro stored
        rw [inorder, old]
        simp only [List.mem_append, List.mem_cons]
        tauto
      refine ⟨by rw [rbIntInsert, attached], ⟨?_, ?_⟩, members⟩
      · intro stored member
        rcases (members stored).mp member with rfl | former
        · exact interval
        · exact disjoint.nonempty stored former
      · have increasing := disjoint.increasing
        rw [old, List.pairwise_append] at increasing
        obtain ⟨inBefore, inBehind, across⟩ := increasing
        rw [inorder, List.pairwise_append, List.pairwise_cons]
        refine ⟨inBefore, ⟨?_, inBehind⟩, ?_⟩
        · intro upper member
          have points := uppers upper member
          unfold intervalOrder at points
          split at points
          · assumption
          · split at points <;> cases points
        · intro lower inLower upper member
          rcases List.mem_cons.mp member with rfl | inUpper
          · have points := lowers lower inLower
            unfold intervalOrder at points
            split at points
            · cases points
            · split at points
              · assumption
              · cases points
          · exact across lower inLower upper inUpper

/-- An interval that overlaps a stored one is refused. -/
theorem Disjoint.insert_refused {node stored : RbIntNode}
    (member : stored ∈ tree.inorder) (overlaps : Overlaps stored node) :
    rbIntInsert lib tree node = (eExist, tree) := by
  have occupied :=
    TreeOf.attach_none_of_eq (disjoint.directed_interval node) node
      member ((intervalOrder_eq_iff node stored).mpr overlaps)
  rw [rbIntInsert, occupied]

/-- Removing a stored interval. -/
theorem Disjoint.erase {node : RbIntNode} (member : node ∈ tree.inorder) :
    Disjoint (rbIntErase lib tree node) := by
  have inorder := lib.erase_inorder tree node member
  have fewer :
      (rbIntErase lib tree node).inorder.Sublist tree.inorder := by
    rw [rbIntErase, inorder]
    exact List.erase_sublist
  exact
    ⟨fun stored inside => disjoint.nonempty stored (fewer.subset inside),
      disjoint.increasing.sublist fewer⟩

end Changing

/-! ## Runs -/

/-- A call that changes the tree. -/
inductive TreeOp where
  | insert (node : RbIntNode)
  | erase (node : RbIntNode)
deriving DecidableEq, Repr

/--
What the calls are for: an interval that is not empty goes in, and a node
that is in the tree comes out.
-/
def TreeOp.Proper (tree : TreeOf RbIntNode) : TreeOp → Prop
  | .insert node => node.low < node.high
  | .erase node => node ∈ tree.inorder

variable (lib : Rebalancer RbIntNode)

/-- The tree after a call. -/
def treeStep (tree : TreeOf RbIntNode) : TreeOp → TreeOf RbIntNode
  | .insert node => (rbIntInsert lib tree node).2
  | .erase node => rbIntErase lib tree node

theorem Disjoint.treeStep {tree : TreeOf RbIntNode}
    (disjoint : Disjoint tree) {op : TreeOp} (proper : op.Proper tree) :
    Disjoint (treeStep lib tree op) := by
  cases op with
  | insert node =>
      by_cases free : ∀ stored ∈ tree.inorder, ¬ Overlaps stored node
      · exact (disjoint.insert lib proper free).2.1
      · push Not at free
        obtain ⟨stored, member, overlaps⟩ := free
        have refused :=
          disjoint.insert_refused lib member overlaps
        rw [RbtreeInterval.treeStep, refused]
        exact disjoint
  | erase node => exact disjoint.erase lib proper

/-- Every run of proper calls keeps the intervals disjoint and ordered. -/
theorem disjoint_run {ops : List TreeOp}
    (proper :
      Along (treeStep lib) (fun tree op => op.Proper tree) .leaf ops) :
    Disjoint (run (treeStep lib) .leaf ops) :=
  run_invariant
    (fun _ _ disjoint allowed => disjoint.treeStep lib allowed)
    Disjoint.leaf proper

end Kemu.Util.RbtreeInterval
