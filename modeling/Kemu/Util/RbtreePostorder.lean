import Kemu.Util.Rbtree

/-!
# Emptying a tree in postorder

`rb_next_postorder` is asked for the node to come before the current one is
removed.  Removing may rotate the tree, and the node to come is then the
first of what is left exactly as long as every node with one child lies on
the path to the smallest entry.  Once another node comes first, one always
will, and the tree does not get empty.
-/

namespace Kemu.Util.Rbtree

open RbTree

universe u

variable {α : Type u}

/-! ## Nodes with one child -/

namespace RbTree

/-- The null pointer. -/
def isNull : RbTree α → Bool
  | .null => true
  | .node .. => false

/-- Every node has two children or none. -/
def Full : RbTree α → Prop
  | .null => True
  | .node _ left _ right =>
      left.isNull = right.isNull ∧ left.Full ∧ right.Full

/-- Every node with one child lies on the path of the left children. -/
def SinglesOnSpine : RbTree α → Prop
  | .null => True
  | .node _ left _ right => left.SinglesOnSpine ∧ right.Full

instance Full.decidable : (tree : RbTree α) → Decidable tree.Full
  | .null => isTrue trivial
  | .node _ left _ right =>
      have := Full.decidable left
      have := Full.decidable right
      inferInstanceAs
        (Decidable (left.isNull = right.isNull ∧ left.Full ∧ right.Full))

instance SinglesOnSpine.decidable :
    (tree : RbTree α) → Decidable tree.SinglesOnSpine
  | .null => isTrue trivial
  | .node _ left _ right =>
      have := SinglesOnSpine.decidable left
      inferInstanceAs (Decidable (left.SinglesOnSpine ∧ right.Full))

theorem node_ne_null {colour : Colour} {left right : RbTree α}
    {entry : α} : node colour left entry right ≠ .null := by
  simp

theorem isNull_eq_false {tree : RbTree α} (present : tree ≠ .null) :
    tree.isNull = false := by
  cases tree with
  | null => exact absurd rfl present
  | node => rfl

theorem full_paint (colour : Colour) (tree : RbTree α) :
    (tree.paint colour).Full ↔ tree.Full := by
  cases tree <;> rfl

/-- Between subtrees that are there, only these matter. -/
theorem full_branch {side : Child} {colour : Colour} {near far : RbTree α}
    {entry : α} (inNear : near ≠ .null) (inFar : far ≠ .null) :
    (branch side colour near entry far).Full ↔ near.Full ∧ far.Full := by
  cases side with
  | left =>
      rw [branch, Full, isNull_eq_false inNear, isNull_eq_false inFar]
      exact and_iff_right rfl
  | right =>
      rw [branch, Full, isNull_eq_false inNear, isNull_eq_false inFar,
        and_comm (a := near.Full)]
      exact and_iff_right rfl

end RbTree

/-! ## The first node -/

section First

variable {tree left right : RbTree α} {colour : Colour} {entry : α}
  {up : List (Parent α)}

@[simp]
theorem rbFirstPostorder_leaf :
    rbFirstPostorder (.node colour .null entry .null) = some entry :=
  rfl

theorem rbFirstPostorder_left (present : left ≠ .null) :
    rbFirstPostorder (.node colour left entry right) =
      rbFirstPostorder left := by
  cases left with
  | null => exact absurd rfl present
  | node => cases right <;> rfl

theorem rbFirstPostorder_right (present : right ≠ .null) :
    rbFirstPostorder (.node colour .null entry right) =
      rbFirstPostorder right := by
  cases right with
  | null => exact absurd rfl present
  | node => rfl

theorem rbFirstPostorder_eq_none :
    rbFirstPostorder tree = none ↔ tree = .null := by
  constructor
  · intro nothing
    induction tree with
    | null => rfl
    | node colour left entry right inLeft inRight =>
        by_cases noLeft : left = .null
        · rw [noLeft] at nothing
          by_cases noRight : right = .null
          · rw [noRight] at nothing
            cases nothing
          · rw [rbFirstPostorder_right noRight] at nothing
            exact absurd (inRight nothing) noRight
        · rw [rbFirstPostorder_left noLeft] at nothing
          exact absurd (inLeft nothing) noLeft
  · rintro rfl
    rfl

theorem rbFirstPostorder_mem (first : rbFirstPostorder tree = some entry) :
    entry ∈ tree.inorder := by
  induction tree with
  | null => cases first
  | node colour left here right inLeft inRight =>
      rw [inorder, List.mem_append, List.mem_cons]
      by_cases noLeft : left = .null
      · rw [noLeft] at first
        by_cases noRight : right = .null
        · rw [noRight] at first
          cases first
          exact Or.inr (Or.inl rfl)
        · rw [rbFirstPostorder_right noRight] at first
          exact Or.inr (Or.inr (inRight first))
      · rw [rbFirstPostorder_left noLeft] at first
        exact Or.inl (inLeft first)

theorem rbNextPostorder_left {parent : Parent α}
    (left : parent.side = .left) (present : parent.sibling ≠ .null) :
    rbNextPostorder (parent :: up) = rbFirstPostorder parent.sibling := by
  obtain ⟨side, colour, entry, sibling⟩ := parent
  obtain rfl : side = .left := left
  cases sibling with
  | null => exact absurd rfl present
  | node => rfl

theorem rbNextPostorder_alone {parent : Parent α}
    (alone : parent.sibling = .null) :
    rbNextPostorder (parent :: up) = some parent.entry := by
  obtain ⟨side, colour, entry, sibling⟩ := parent
  obtain rfl : sibling = .null := alone
  cases side <;> rfl

/-- Every parent has the place on its left. -/
def AllLeft (up : List (Parent α)) : Prop :=
  ∀ parent ∈ up, parent.side = .left

/-- Beside the place, every node has two children or none. -/
def FullSiblings (up : List (Parent α)) : Prop :=
  ∀ parent ∈ up, parent.sibling.Full

theorem rbFirstPostorder_zip (spine : AllLeft up) (present : tree ≠ .null) :
    rbFirstPostorder (zip tree up) = rbFirstPostorder tree := by
  induction up generalizing tree with
  | nil => rfl
  | cons parent up further =>
      obtain ⟨side, colour, entry, sibling⟩ := parent
      obtain ⟨rfl, above⟩ := List.forall_mem_cons.mp spine
      have here :
          Parent.plug ⟨.left, colour, entry, sibling⟩ tree =
            .node colour tree entry sibling :=
        rfl
      have there : RbTree.node colour tree entry sibling ≠ .null := node_ne_null
      rw [zip, here, further above there]
      exact rbFirstPostorder_left present

/-- `rbFirstPostorder_zip` for a node. -/
theorem rbFirstPostorder_node_zip (spine : AllLeft up) :
    rbFirstPostorder (zip (.node colour left entry right) up) =
      rbFirstPostorder (.node colour left entry right) :=
  rbFirstPostorder_zip spine node_ne_null

theorem singlesOnSpine_zip (spine : AllLeft up) :
    (zip tree up).SinglesOnSpine ↔
      tree.SinglesOnSpine ∧ FullSiblings up := by
  induction up generalizing tree with
  | nil => simp [zip, FullSiblings]
  | cons parent up further =>
      obtain ⟨side, colour, entry, sibling⟩ := parent
      obtain ⟨rfl, above⟩ := List.forall_mem_cons.mp spine
      rw [zip, further above, Parent.plug, branch, SinglesOnSpine,
        FullSiblings, FullSiblings, List.forall_mem_cons, and_assoc]

/-- The smallest entry is at the end of the path of the left children. -/
theorem exists_spine (present : tree ≠ .null) :
    ∃ colour entry right up,
      AllLeft up ∧ tree = zip (.node colour .null entry right) up := by
  induction tree with
  | null => exact absurd rfl present
  | node colour left entry right inLeft _ =>
      by_cases noLeft : left = .null
      · rw [noLeft]
        exact ⟨colour, entry, right, [], nofun, rfl⟩
      · obtain ⟨lower, least, beside, up, spine, rfl⟩ := inLeft noLeft
        refine
          ⟨lower, least, beside, up ++ [⟨.left, colour, entry, right⟩], ?_,
            ?_⟩
        · intro parent member
          rcases List.mem_append.mp member with inside | top
          · exact spine parent inside
          · rw [List.mem_singleton.mp top]
        · rw [zip_append]
          rfl

end First

/-! ## Rebalancing along the path of the left children -/

section Spine

variable {node sibling : RbTree α} {height total : Nat}
  {colour outer : Colour} {entry : α} {parent : Parent α}
  {turn : EraseTurn α} {up : List (Parent α)}

theorem allLeft_cons :
    AllLeft (parent :: up) ↔ parent.side = .left ∧ AllLeft up :=
  List.forall_mem_cons

theorem allLeft_append {inner : List (Parent α)} :
    AllLeft (inner ++ up) ↔ AllLeft inner ∧ AllLeft up :=
  List.forall_mem_append

theorem fullSiblings_cons :
    FullSiblings (parent :: up) ↔
      parent.sibling.Full ∧ FullSiblings up :=
  List.forall_mem_cons

theorem fullSiblings_append {inner : List (Parent α)} :
    FullSiblings (inner ++ up) ↔ FullSiblings inner ∧ FullSiblings up :=
  List.forall_mem_append

theorem fullSiblings_singleton :
    FullSiblings [parent] ↔ parent.sibling.Full :=
  List.forall_mem_singleton

/--
Above the leaves, cases 2 to 4 leave the node at the end of a path of left
children, and beside it what there was.
-/
theorem Settled.spine
    (settled :
      Settled .left node (height + 1) colour entry sibling turn) :
    ∃ up,
      AllLeft up ∧ turn.tree = zip node up ∧
        (FullSiblings up ↔ sibling.Full) := by
  cases settled with
  | @flip near far next inNear inFar =>
      refine
        ⟨[⟨.left, .black, entry, branch .left .red near next far⟩], ?_, rfl,
          ?_⟩
      · simp [AllLeft]
      · rw [fullSiblings_singleton, full_branch inNear.ne_null inFar.ne_null,
          full_branch inNear.ne_null inFar.ne_null]
  | @single near far next _ inNear inFar =>
      refine
        ⟨[⟨.left, .black, entry, near⟩,
          ⟨.left, colour, next, far.paint .black⟩], ?_, rfl, ?_⟩
      · simp [AllLeft]
      · rw [fullSiblings_cons, fullSiblings_singleton, full_paint,
          full_branch inNear.ne_null inFar.ne_null]
  | @double inner outer far tmp next inInner inOuter inFar =>
      have inNear := @Balanced.branch_red _ .left _ _ tmp _ inInner inOuter
      refine
        ⟨[⟨.left, .black, entry, inner⟩,
          ⟨.left, colour, tmp, branch .left .black outer next far⟩], ?_, rfl,
          ?_⟩
      · simp [AllLeft]
      · rw [fullSiblings_cons, fullSiblings_singleton,
          full_branch inOuter.ne_null inFar.ne_null,
          full_branch inNear.ne_null inFar.ne_null,
          full_branch inInner.ne_null inOuter.ne_null, and_assoc]

theorem Turned.spine (turned : Turned node (height + 1) parent turn)
    (left : parent.side = .left) :
    ∃ up,
      AllLeft up ∧ turn.tree = zip node up ∧
        (FullSiblings up ↔ parent.sibling.Full) := by
  cases turned with
  | black settled =>
      obtain rfl := left
      exact settled.spine
  | @red side _ next near far turn inNear inFar settled =>
      obtain rfl : side = .left := left
      obtain ⟨up, spine, tree, full⟩ := settled.spine
      refine ⟨up ++ [⟨.left, .black, next, far⟩], ?_, ?_, ?_⟩
      · exact allLeft_append.mpr ⟨spine, by simp [AllLeft]⟩
      · rw [zip_append, ← tree]
        rfl
      · rw [fullSiblings_append, fullSiblings_singleton, full,
          full_branch inNear.ne_null inFar.ne_null]

/--
The loop keeps a node above the leaves on the path of the left children, and
all that is beside this path.
-/
theorem eraseColor_spine
    (balanced : Balanced node .black (height + 1))
    (fits : Fits outer total up .black (height + 2)) (spine : AllLeft up) :
    ∃ after,
      AllLeft after ∧ eraseColor node up = some (zip node after) ∧
        (FullSiblings after ↔ FullSiblings up) := by
  induction up generalizing node height with
  | nil => exact ⟨[], spine, rfl, Iff.rfl⟩
  | cons parent up further =>
      obtain ⟨left, above⟩ := allLeft_cons.mp spine
      obtain ⟨turn, turns, turned, mended, place⟩ := fits.turn balanced
      obtain ⟨inner, innerSpine, tree, full⟩ := turned.spine left
      cases mended with
      | done inside _ =>
          refine ⟨inner ++ up, allLeft_append.mpr ⟨innerSpine, above⟩, ?_, ?_⟩
          · rw [eraseColor, turns, zip_append, ← tree]
            rfl
          · rw [fullSiblings_append, fullSiblings_cons, full]
      | short black inside =>
          rw [black] at place
          obtain ⟨after, afterSpine, run, same⟩ :=
            further inside place above
          refine
            ⟨inner ++ after, allLeft_append.mpr ⟨innerSpine, afterSpine⟩, ?_,
              ?_⟩
          · rw [eraseColor, turns, zip_append, ← tree]
            exact run
          · rw [fullSiblings_append, fullSiblings_cons, full, same]

/-- The turn at the parent of a leaf that was removed. -/
inductive BottomTurn (parent : Parent α) (after : RbTree α) : Prop where
  | first
      (next : rbFirstPostorder after = rbFirstPostorder parent.sibling)
      (full : after.SinglesOnSpine ↔ parent.sibling.Full)
  | overtaken (single : ¬ parent.sibling.Full)
      (first : rbFirstPostorder after = some parent.entry)

/-- A red sibling's child with one child of its own comes too late. -/
theorem Settled.bottom
    (settled : Settled .left .null 0 colour entry sibling turn) :
    turn.tree ≠ .null ∧
      BottomTurn ⟨.left, colour, entry, sibling⟩ turn.tree := by
  cases settled with
  | flip inNear inFar =>
      cases inNear
      cases inFar
      exact
        ⟨node_ne_null, .first rfl (by simp [branch, SinglesOnSpine, Full, isNull])⟩
  | single inNear inFar =>
      cases inFar with
      | red inLeft inRight =>
          cases inLeft
          cases inRight
          refine ⟨node_ne_null, ?_⟩
          cases inNear with
          | null =>
              exact .overtaken (by simp [branch, Full, isNull]) rfl
          | red inLeft inRight =>
              cases inLeft
              cases inRight
              exact
                .first rfl
                  (by simp [branch, paint, SinglesOnSpine, Full, isNull])
  | double inInner inOuter inFar =>
      cases inInner
      cases inOuter
      cases inFar
      exact ⟨node_ne_null, .overtaken (by simp [branch, Full, isNull]) rfl⟩

theorem Turned.bottom (turned : Turned .null 0 parent turn)
    (left : parent.side = .left) :
    turn.tree ≠ .null ∧ BottomTurn parent turn.tree := by
  cases turned with
  | black settled =>
      obtain rfl := left
      exact settled.bottom
  | @red side entry next near far turn inNear inFar settled =>
      obtain rfl : side = .left := left
      obtain ⟨present, bottom⟩ := settled.bottom
      refine ⟨node_ne_null, ?_⟩
      have firstAfter :
          rbFirstPostorder (branch .left .black turn.tree next far) =
            rbFirstPostorder turn.tree :=
        rbFirstPostorder_left present
      have firstSibling :
          rbFirstPostorder (branch .left .red near next far) =
            rbFirstPostorder near :=
        rbFirstPostorder_left inNear.ne_null
      have full :=
        @full_branch _ .left .red _ _ next inNear.ne_null inFar.ne_null
      cases bottom with
      | first same spine =>
          refine .first ?_ ?_
          · exact firstAfter.trans (same.trans firstSibling.symm)
          · exact (and_congr_left' spine).trans full.symm
      | overtaken single first =>
          exact
            .overtaken (fun all => single (full.mp all).1)
              (firstAfter.trans first)

end Spine

/-! ## Removing the first node -/

section RemoveFirst

variable [DecidableEq α] {root after : RbTree α} {entry : α}

/-- Where the first node is: a smallest leaf, or the child of the smallest. -/
inductive FirstPlace (entry : α) : RbTree α → Prop where
  | least (colour : Colour) {up : List (Parent α)} (spine : AllLeft up) :
      FirstPlace entry (zip (.node colour .null entry .null) up)
  | second {least : α} {up : List (Parent α)} (spine : AllLeft up) :
      FirstPlace entry
        (zip
          (.node .black .null least (.node .red .null entry .null)) up)

omit [DecidableEq α] in
theorem IsRedBlack.firstPlace (redBlack : IsRedBlack root)
    (first : rbFirstPostorder root = some entry) :
    FirstPlace entry root := by
  have present : root ≠ .null := by
    rintro rfl
    cases first
  obtain ⟨colour, least, right, up, spine, rfl⟩ := exists_spine present
  obtain ⟨total, balanced⟩ := redBlack
  obtain ⟨_, _, inPlace, _⟩ := balanced.fits
  rw [rbFirstPostorder_node_zip spine] at first
  by_cases childless : right = .null
  · rw [childless] at first ⊢
    cases first
    exact .least colour spine
  · obtain rfl := inPlace.node_colour
    obtain ⟨rfl, rfl, painted⟩ := inPlace.only_right childless
    cases inPlace with
    | black inLeft inRight =>
        cases inRight with
        | null => exact absurd rfl childless
        | red below beside =>
            cases below
            cases beside
            cases first
            exact .second spine

/-- What becomes of the node to come when the first one is removed. -/
inductive AfterFirst (entry : α) (root after : RbTree α) : Prop where
  | next (first : rbFirstPostorder after = nextEntry entry root)
      (singles : after.SinglesOnSpine ↔ root.SinglesOnSpine)
  | overtaken (singles : ¬ root.SinglesOnSpine)
      (other : rbFirstPostorder after ≠ nextEntry entry root)

omit [DecidableEq α] in
/-- The loop for a black leaf keeps what its first turn makes on the spine. -/
theorem eraseColor_null_spine {parent : Parent α} {up : List (Parent α)}
    {total : Nat} (spine : AllLeft up)
    (fits : Fits .black total (parent :: up) .black 1) :
    ∃ turn after,
      Turned .null 0 parent turn ∧ AllLeft after ∧
        eraseColor .null (parent :: up) = some (zip turn.tree after) ∧
          (FullSiblings after ↔ FullSiblings up) := by
  obtain ⟨turn, turns, turned, mended, place⟩ := fits.turn .null
  rw [eraseColor, turns]
  cases mended with
  | done _ _ => exact ⟨_, up, turned, spine, rfl, Iff.rfl⟩
  | short black inside =>
      rw [black] at place
      obtain ⟨after, afterSpine, run, full⟩ :=
        eraseColor_spine inside place spine
      exact ⟨_, after, turned, afterSpine, run, full⟩

/-- A black leaf is removed from the left of its parent. -/
theorem afterFirst_black {parent : Parent α} {up : List (Parent α)}
    {total : Nat} (spine : AllLeft (parent :: up))
    (fits : Fits .black total (parent :: up) .black 1)
    (nodup :
      (zip (.node .black .null entry .null)
        (parent :: up)).inorder.Nodup) :
    ∃ after,
      eraseColor .null (parent :: up) = some after ∧
        AfterFirst entry
          (zip (.node .black .null entry .null) (parent :: up)) after := by
  obtain ⟨left, above⟩ := allLeft_cons.mp spine
  obtain ⟨turn, after, turned, afterSpine, run, full⟩ :=
    eraseColor_null_spine above fits
  obtain ⟨present, bottom⟩ := turned.bottom left
  refine ⟨_, run, ?_⟩
  have sibling : parent.sibling ≠ .null := by
    cases fits with
    | red beside _ => exact beside.ne_null
    | black _ beside _ => exact beside.ne_null
  have next :
      rbNextPostorder (parent :: up) = rbFirstPostorder parent.sibling :=
    rbNextPostorder_left left sibling
  cases bottom with
  | first same singles =>
      refine .next ?_ ?_
      · rw [nextEntry_zip nodup, next, rbFirstPostorder_zip afterSpine present]
        exact same
      · rw [singlesOnSpine_zip spine, singlesOnSpine_zip afterSpine, full,
          fullSiblings_cons, singles]
        simp [SinglesOnSpine, Full]
  | overtaken single first =>
      refine .overtaken ?_ ?_
      · rw [singlesOnSpine_zip spine, fullSiblings_cons]
        exact fun all => single all.2.1
      · rw [nextEntry_zip nodup, next, rbFirstPostorder_zip afterSpine present,
          first]
        intro same
        have beside := rbFirstPostorder_mem same.symm
        have here := @nodup_of_zip _ (parent.plug _) up nodup
        rw [Parent.plug, left, branch, inorder, List.nodup_append,
          List.nodup_cons] at here
        exact here.2.1.1 beside

/-- A red leaf is removed from the left of its parent. -/
theorem afterFirst_red {parent : Parent α} {up : List (Parent α)}
    (spine : AllLeft (parent :: up))
    (nodup :
      (zip (.node .red .null entry .null) (parent :: up)).inorder.Nodup) :
    AfterFirst entry (zip (.node .red .null entry .null) (parent :: up))
      (zip .null (parent :: up)) := by
  obtain ⟨left, above⟩ := allLeft_cons.mp spine
  refine .next ?_ ?_
  · have there : parent.plug .null ≠ .null := by
      rw [Parent.plug, left, branch]
      exact node_ne_null
    have here : parent.plug .null =
        .node parent.colour .null parent.entry parent.sibling := by
      rw [Parent.plug, left, branch]
    rw [nextEntry_zip nodup, zip, rbFirstPostorder_zip above there, here]
    by_cases alone : parent.sibling = .null
    · rw [rbNextPostorder_alone alone, alone]
      rfl
    · rw [rbNextPostorder_left left alone, rbFirstPostorder_right alone]
  · rw [singlesOnSpine_zip spine, singlesOnSpine_zip spine]
    simp [SinglesOnSpine, Full]

/--
When the first node of a red-black tree is removed, the node to come is the
first of what is left, unless a node with one child is off the spine.
-/
theorem IsRedBlack.afterFirst (redBlack : IsRedBlack root)
    (nodup : root.inorder.Nodup)
    (first : rbFirstPostorder root = some entry) :
    ∃ after,
      Rbtree.eraseEntry entry root = some after ∧
        AfterFirst entry root after := by
  cases redBlack.firstPlace first with
  | @second least up spine =>
      have place :
          zip (.node .black .null least (.node .red .null entry .null)) up =
            zip (.node .red .null entry .null)
              (⟨.right, .black, least, .null⟩ :: up) :=
        rfl
      rw [place] at nodup ⊢
      refine ⟨_, eraseEntry_zip nodup, .next ?_ ?_⟩
      · rw [nextEntry_zip nodup]
        exact rbFirstPostorder_node_zip spine
      · rw [← place, singlesOnSpine_zip spine]
        show (zip (.node .black .null least .null) up).SinglesOnSpine ↔ _
        rw [singlesOnSpine_zip spine]
        simp [SinglesOnSpine, Full, isNull]
  | @least colour up spine =>
      obtain ⟨total, balanced⟩ := redBlack
      obtain ⟨_, _, inPlace, fits⟩ := balanced.fits
      obtain rfl := inPlace.node_colour
      cases up with
      | nil =>
          cases fits with
          | root =>
              refine ⟨.null, eraseEntry_zip nodup, .next ?_ ?_⟩
              · rw [nextEntry_zip nodup]
                rfl
              · simp [zip, SinglesOnSpine, Full]
      | cons parent up =>
          cases inPlace with
          | red =>
              exact
                ⟨_, eraseEntry_zip nodup, afterFirst_red spine nodup⟩
          | black inLeft inRight =>
              cases inLeft
              obtain ⟨after, run, outcome⟩ :=
                afterFirst_black spine fits nodup
              exact ⟨after, (eraseEntry_zip nodup).trans run, outcome⟩

end RemoveFirst

/-! ## Removing another node -/

section RemoveOther

variable {tree root after : RbTree α} {entry least : α}
  {up : List (Parent α)}

theorem inorder_eq_nil : tree.inorder = [] ↔ tree = .null := by
  cases tree <;> simp [inorder]

theorem inorder_eq_singleton (one : tree.inorder = [entry]) :
    ∃ colour, tree = .node colour .null entry .null := by
  cases tree with
  | null => cases one
  | node colour left here right =>
      rw [inorder, List.append_eq_singleton_iff] at one
      rcases one with ⟨noLeft, one⟩ | ⟨_, none⟩
      · obtain ⟨rfl, noRight⟩ := List.cons_eq_cons.mp one
        rw [inorder_eq_nil.mp noLeft, inorder_eq_nil.mp noRight]
        exact ⟨colour, rfl⟩
      · cases none

theorem before_eq_nil : before up = [] ↔ AllLeft up := by
  induction up with
  | nil => simp [before, AllLeft]
  | cons parent up further =>
      obtain ⟨side, colour, entry, sibling⟩ := parent
      rw [allLeft_cons, before]
      cases side with
      | left => simpa using further
      | right => simp

theorem sibling_of_before {colour : Colour} {sibling : RbTree α}
    (one : before (⟨.right, colour, entry, sibling⟩ :: up) = [least]) :
    sibling = .null := by
  have length : (before up ++ (sibling.inorder ++ [entry])).length = 1 :=
    congrArg List.length one
  rw [List.length_append, List.length_append, List.length_singleton] at length
  rw [← inorder_eq_nil, ← List.length_eq_zero_iff]
  omega

/-- Below an entry without smaller ones there are no black nodes. -/
theorem Fits.height_eq_zero {outer colour : Colour} {total height : Nat}
    (fits : Fits outer total up colour height) (one : before up = [least]) :
    height = 0 := by
  induction fits with
  | root => cases one
  | @red side entry sibling height up beside _ further =>
      cases side with
      | left => exact further one
      | right =>
          rw [sibling_of_before one] at beside
          cases beside
          rfl
  | @black side entry sibling height up _ colour beside _ further =>
      cases side with
      | left => cases further one
      | right =>
          rw [sibling_of_before one] at beside
          cases beside
          rfl

/-- The first node has the smallest entry or the one behind it. -/
theorem FirstPlace.inorder (place : FirstPlace entry root) :
    (∃ rest, root.inorder = entry :: rest) ∨
      ∃ least rest, root.inorder = least :: entry :: rest := by
  cases place with
  | least colour spine =>
      left
      rw [inorder_zip, before_eq_nil.mpr spine]
      exact ⟨_, rfl⟩
  | second spine =>
      right
      rw [inorder_zip, before_eq_nil.mpr spine]
      exact ⟨_, _, rfl⟩

/-- The entry is first or second, and the pivot or behind it. -/
theorem front_of_early {front rest : List α} {pivot : α}
    (nodup : (front ++ pivot :: rest).Nodup)
    (member : entry ∈ pivot :: rest)
    (early :
      (∃ others, front ++ pivot :: rest = entry :: others) ∨
        ∃ least others, front ++ pivot :: rest = least :: entry :: others) :
    front = [] ∨ (∃ least, front = [least]) ∧ pivot = entry := by
  have apart := (List.nodup_append.mp nodup).2.2
  rcases front with _ | ⟨first, _ | ⟨second, front⟩⟩
  · exact Or.inl rfl
  · rcases early with ⟨others, same⟩ | ⟨least, others, same⟩
    · cases same
      cases apart entry List.mem_cons_self entry member rfl
    · cases same
      exact Or.inr ⟨⟨_, rfl⟩, rfl⟩
  · exfalso
    rcases early with ⟨others, same⟩ | ⟨least, others, same⟩
    · cases same
      exact apart entry List.mem_cons_self entry member rfl
    · cases same
      exact
        apart entry (List.mem_cons_of_mem _ List.mem_cons_self) entry member
          rfl

variable {colour : Colour} {left right : RbTree α} {parent : Parent α}

/-- A black leaf is removed from the right of a leaf's parent. -/
theorem Turned.leaf_right {turn : EraseTurn α}
    (turned : Turned .null 0 parent turn) (right : parent.side = .right)
    (leaf : parent.sibling = .node .black .null least .null) :
    turn.tree =
      .node .black (.node .red .null least .null) parent.entry .null := by
  cases turned with
  | black settled =>
      obtain rfl := right
      cases settled with
      | flip =>
          simp only [branch, node.injEq] at leaf
          obtain ⟨_, rfl, rfl, rfl⟩ := leaf
          rfl
      | single _ inFar =>
          simp only [branch, node.injEq] at leaf
          rw [leaf.2.1] at inFar
          cases inFar
      | double =>
          simp only [branch, node.injEq, reduceCtorEq, and_false] at leaf
  | red _ _ _ =>
      obtain rfl := right
      simp only [branch, node.injEq, reduceCtorEq, false_and] at leaf

/-- In front of what is in front of an early entry there is nothing. -/
theorem front_of_early_behind {front rest : List α} {pivot : α}
    (nodup : (front ++ pivot :: rest).Nodup) (member : entry ∈ rest)
    (early :
      (∃ others, front ++ pivot :: rest = entry :: others) ∨
        ∃ least others, front ++ pivot :: rest = least :: entry :: others) :
    front = [] := by
  rcases front_of_early nodup (List.mem_cons_of_mem _ member) early with
    nothing | ⟨-, rfl⟩
  · exact nothing
  · have behind := (List.nodup_append.mp nodup).2.1
    exact absurd member (List.nodup_cons.mp behind).1

theorem rbFirstPostorder_leaf_zip (spine : AllLeft up) :
    rbFirstPostorder (zip (.node colour .null entry .null) up) =
      some entry :=
  (rbFirstPostorder_node_zip spine).trans rfl

/-- Beside the smallest leaf, removing a node leaves that leaf first. -/
theorem rbFirstPostorder_beside_leaf {total height : Nat} {pivot : α}
    {here leafColour : Colour} (spine : AllLeft up)
    (inPlace : Balanced (.node colour left entry right) colour height)
    (fits :
      Fits .black total
        (⟨.right, here, pivot, .node leafColour .null least .null⟩ :: up)
        colour height)
    (run :
      rbErase
          ⟨colour, left, entry, right,
            ⟨.right, here, pivot, .node leafColour .null least .null⟩ :: up⟩ =
        some after) :
    rbFirstPostorder after = some least := by
  obtain ⟨tree, _, replaced⟩ := rbErase_replaced inPlace
  cases replaced with
  | whole _ _ ends =>
      cases run.symm.trans (ends _)
      exact
        (rbFirstPostorder_node_zip spine).trans
          (rbFirstPostorder_left node_ne_null)
  | @short lower black tall balanced goesOn =>
      rw [black, tall] at fits
      obtain ⟨rfl, rfl⟩ : leafColour = .black ∧ lower = 0 := by
        cases fits with
        | red beside _ =>
            cases beside with
            | black inLeft _ =>
                cases inLeft
                exact ⟨rfl, rfl⟩
        | black _ beside _ =>
            cases beside with
            | red inLeft _ => cases inLeft
            | black inLeft _ =>
                cases inLeft
                exact ⟨rfl, rfl⟩
      cases balanced
      obtain ⟨turn, above, turned, aboveSpine, loop, _⟩ :=
        eraseColor_null_spine spine fits
      cases run.symm.trans ((goesOn _).trans loop)
      have tree := turned.leaf_right rfl rfl
      rw [tree, rbFirstPostorder_node_zip aboveSpine]
      exact rbFirstPostorder_left node_ne_null

section Next

variable (redBlack : IsRedBlack after)
  (entries :
    after.inorder =
      before (parent :: up) ++ (left.inorder ++ right.inorder) ++
        behind (parent :: up))
  (nodup : after.inorder.Nodup)

include redBlack entries nodup

/-- The node to come is beside the place: the place is a leaf, and first. -/
theorem first_of_next_sibling {next : α}
    (onLeft : parent.side = .left)
    (member : next ∈ parent.sibling.inorder)
    (first : rbFirstPostorder after = some next) :
    rbFirstPostorder
        (zip (.node colour left entry right) (parent :: up)) =
      some entry := by
  have early := (redBlack.firstPlace first).inorder
  obtain ⟨side, here, pivot, sibling⟩ := parent
  obtain rfl : side = .left := onLeft
  have split :
      before (⟨.left, here, pivot, sibling⟩ :: up) ++
            (left.inorder ++ right.inorder) ++
          behind (⟨.left, here, pivot, sibling⟩ :: up) =
        (before up ++ (left.inorder ++ right.inorder)) ++
          pivot :: (sibling.inorder ++ behind up) :=
    rfl
  rw [entries, split] at early nodup
  have nothing :=
    front_of_early_behind nodup (List.mem_append_left _ member) early
  rw [List.append_eq_nil_iff, List.append_eq_nil_iff] at nothing
  obtain ⟨inFront, noLeft, noRight⟩ := nothing
  rw [inorder_eq_nil.mp noLeft, inorder_eq_nil.mp noRight]
  exact
    rbFirstPostorder_leaf_zip
      (allLeft_cons.mpr ⟨rfl, before_eq_nil.mp inFront⟩)

/-- The node to come is the parent of a left child without a sibling. -/
theorem first_of_next_parent_left {total height : Nat}
    (onLeft : parent.side = .left)
    (alone : parent.sibling = .null)
    (inPlace : Balanced (.node colour left entry right) colour height)
    (fits : Fits .black total (parent :: up) colour height)
    (first : rbFirstPostorder after = some parent.entry) :
    rbFirstPostorder
        (zip (.node colour left entry right) (parent :: up)) =
      some entry := by
  have early := (redBlack.firstPlace first).inorder
  obtain ⟨side, here, pivot, sibling⟩ := parent
  obtain rfl : side = .left := onLeft
  obtain rfl : sibling = .null := alone
  obtain ⟨rfl, rfl, above⟩ :
      here = .black ∧ height = 0 ∧ Fits .black total up .black 1 := by
    cases fits with
    | red beside _ =>
        cases beside
        cases inPlace
    | black _ beside above =>
        cases beside
        exact ⟨rfl, rfl, above⟩
  cases inPlace with
  | red inLeft inRight =>
      cases inLeft
      cases inRight
      have split :
          before (⟨.left, .black, pivot, .null⟩ :: up) ++
                (inorder .null ++ inorder .null) ++
              behind (⟨.left, .black, pivot, .null⟩ :: up) =
            before up ++ pivot :: behind up := by
        simp [before, behind, inorder]
      rw [entries, split] at early nodup
      rcases front_of_early nodup List.mem_cons_self early with
        nothing | ⟨⟨least, one⟩, -⟩
      · exact
          rbFirstPostorder_leaf_zip
            (allLeft_cons.mpr ⟨rfl, before_eq_nil.mp nothing⟩)
      · cases above.height_eq_zero one

/-- The node to come is the parent of a right child. -/
theorem first_of_next_parent_right {total height : Nat}
    (onRight : parent.side = .right)
    (inPlace : Balanced (.node colour left entry right) colour height)
    (fits : Fits .black total (parent :: up) colour height)
    (run :
      rbErase ⟨colour, left, entry, right, parent :: up⟩ = some after)
    (first : rbFirstPostorder after = some parent.entry) :
    rbFirstPostorder
        (zip (.node colour left entry right) (parent :: up)) =
      some entry := by
  have early := (redBlack.firstPlace first).inorder
  obtain ⟨side, here, pivot, sibling⟩ := parent
  obtain rfl : side = .right := onRight
  have split :
      before (⟨.right, here, pivot, sibling⟩ :: up) ++
            (left.inorder ++ right.inorder) ++
          behind (⟨.right, here, pivot, sibling⟩ :: up) =
        (before up ++ sibling.inorder) ++
          pivot :: (left.inorder ++ right.inorder ++ behind up) := by
    simp [before, behind]
  rw [entries, split] at early nodup
  -- Without a sibling the place is a red leaf below a black node.
  have child :
      sibling = .null →
        here = .black ∧ height = 0 ∧ left = .null ∧ right = .null ∧
          Fits .black total up .black 1 := by
    rintro rfl
    cases fits with
    | red beside _ =>
        cases beside
        cases inPlace
    | black _ beside above =>
        cases beside
        cases inPlace with
        | red inLeft inRight =>
            cases inLeft
            cases inRight
            exact ⟨rfl, rfl, rfl, rfl, above⟩
  rcases front_of_early nodup List.mem_cons_self early with
        nothing | ⟨⟨least, one⟩, -⟩
  · obtain ⟨inFront, alone⟩ := List.append_eq_nil_iff.mp nothing
    obtain rfl := inorder_eq_nil.mp alone
    obtain ⟨rfl, rfl, rfl, rfl, above⟩ := child rfl
    exact
      (rbFirstPostorder_node_zip (before_eq_nil.mp inFront)).trans rfl
  · rcases List.append_eq_singleton_iff.mp one with
      ⟨inFront, beside⟩ | ⟨inFront, alone⟩
    · obtain ⟨_, rfl⟩ := inorder_eq_singleton beside
      have smallest :=
        rbFirstPostorder_beside_leaf (before_eq_nil.mp inFront) inPlace fits
          run
      have same : pivot = least :=
        Option.some.inj (first.symm.trans smallest)
      rw [one, same] at nodup
      exact absurd List.mem_cons_self (List.nodup_cons.mp nodup).1
    · obtain ⟨_, _, _, _, above⟩ := child (inorder_eq_nil.mp alone)
      cases above.height_eq_zero inFront

end Next

/--
When a node that is not the first is removed, the node to come is not the
first of what is left either.
-/
theorem IsRedBlack.afterOther [DecidableEq α] (redBlack : IsRedBlack root)
    (nodup : root.inorder.Nodup) (member : entry ∈ root.inorder)
    (other : rbFirstPostorder root ≠ some entry)
    (run : Rbtree.eraseEntry entry root = some after) :
    rbFirstPostorder after ≠ nextEntry entry root := by
  intro same
  obtain ⟨colour, left, right, up, rfl⟩ := exists_zip member
  obtain ⟨erased, erases, kept, entries⟩ := redBlack.erase
  rw [eraseEntry_zip nodup] at run
  cases run.symm.trans erases
  rw [nextEntry_zip nodup] at same
  apply other
  cases up with
  | nil =>
      have nothing := rbFirstPostorder_eq_none.mp same
      rw [nothing] at entries
      obtain ⟨noLeft, noRight⟩ :=
        List.append_eq_nil_iff.mp
          (List.append_eq_nil_iff.mp
            (List.append_eq_nil_iff.mp entries.symm).1).2
      rw [inorder_eq_nil.mp noLeft, inorder_eq_nil.mp noRight]
      rfl
  | cons parent up =>
      have afterNodup : after.inorder.Nodup := by
        rw [entries]
        rw [inorder_zip, inorder] at nodup
        refine nodup.sublist ?_
        refine List.Sublist.append (List.Sublist.append_left ?_ _) (.refl _)
        exact List.Sublist.append_left (List.sublist_cons_self _ _) _
      obtain ⟨total, balanced⟩ := redBlack
      obtain ⟨_, _, inPlace, fits⟩ := balanced.fits
      obtain rfl := inPlace.node_colour
      cases onSide : parent.side with
      | left =>
          by_cases alone : parent.sibling = .null
          · rw [rbNextPostorder_alone alone] at same
            exact
              first_of_next_parent_left kept entries afterNodup onSide alone
                inPlace fits same
          · rw [rbNextPostorder_left onSide alone] at same
            cases next : rbFirstPostorder parent.sibling with
            | none => exact absurd (rbFirstPostorder_eq_none.mp next) alone
            | some next' =>
                exact
                  first_of_next_sibling kept entries afterNodup onSide
                    (rbFirstPostorder_mem next) (same.trans next)
      | right =>
          have parentNext :
              rbNextPostorder (parent :: up) = some parent.entry := by
            obtain ⟨side, here, pivot, sibling⟩ := parent
            obtain rfl : side = .right := onSide
            rfl
          rw [parentNext] at same
          exact
            first_of_next_parent_right kept entries afterNodup onSide inPlace
              fits run same

end RemoveOther

end Kemu.Util.Rbtree
