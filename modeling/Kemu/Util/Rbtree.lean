import Kemu.Lib.SearchTree
import Mathlib.Data.List.Nodup
import Mathlib.Data.Nat.Basic

/-!
# Red-black trees

The routines of `util/rbtree.c`.  A pointer to a node leads down to its
children and, through the parent that is packed with the colour, up to the
root; it is a subtree together with the parents above it, each with its other
child.  Assigning to the links of a few nodes is putting another subtree in
the same place.

The two halves of the loops are mirror images: `side` is the side the node
is on.  A routine answers `none` where the source goes through a null
pointer.
-/

namespace Kemu.Util.Rbtree

open Kemu.Lib.SearchTree

universe u

/-! ## The code -/

/-- `RB_RED` and `RB_BLACK`. -/
inductive Colour where
  | red
  | black
deriving DecidableEq, Repr

/-- `struct rb_node` with the nodes below it; `entry` contains it. -/
inductive RbTree (α : Type u) where
  | null : RbTree α
  | node (colour : Colour) (left : RbTree α) (entry : α)
      (right : RbTree α) : RbTree α
deriving DecidableEq, Repr

/-- Which child of its parent a node is. -/
inductive Child where
  | left
  | right
deriving DecidableEq, Repr

/-- A parent as one of its children sees it. -/
structure Parent (α : Type u) where
  side : Child
  colour : Colour
  entry : α
  sibling : RbTree α
deriving DecidableEq, Repr

/-- A pointer to a node: its fields, and its parents from below. -/
structure NodeRef (α : Type u) where
  colour : Colour
  left : RbTree α
  entry : α
  right : RbTree α
  up : List (Parent α)
deriving DecidableEq, Repr

namespace RbTree

variable {α : Type u}

/-- The entries from left to right. -/
def inorder : RbTree α → List α
  | .null => []
  | .node _ left entry right => left.inorder ++ entry :: right.inorder

/-- The tree that a search sees. -/
def shape : RbTree α → TreeOf α
  | .null => .leaf
  | .node _ left entry right => .node left.shape entry right.shape

/-- A node with one child on the given side and the other opposite. -/
def branch (side : Child) (colour : Colour) (near : RbTree α) (entry : α)
    (far : RbTree α) : RbTree α :=
  match side with
  | .left => .node colour near entry far
  | .right => .node colour far entry near

/-- The fields of a node, with the child on the given side first. -/
def split (side : Child) :
    RbTree α → Option (Colour × RbTree α × α × RbTree α)
  | .null => none
  | .node colour left entry right =>
      match side with
      | .left => some (colour, left, entry, right)
      | .right => some (colour, right, entry, left)

/-- `rb_set_parent_color`, where a null pointer was checked for. -/
def paint (colour : Colour) : RbTree α → RbTree α
  | .null => .null
  | .node _ left entry right => .node colour left entry right

/-- `tmp && rb_is_red(tmp)`. -/
def isRed : RbTree α → Bool
  | .node .red _ _ _ => true
  | _ => false

end RbTree

open RbTree

section Code

variable {α : Type u}

/-- The subtree at a parent. -/
def Parent.plug (parent : Parent α) (child : RbTree α) : RbTree α :=
  branch parent.side parent.colour child parent.entry parent.sibling

/-- The tree with a subtree at its place. -/
def zip (tree : RbTree α) : List (Parent α) → RbTree α
  | [] => tree
  | parent :: up => zip (parent.plug tree) up

/-- The whole tree a node is in. -/
def NodeRef.root (ref : NodeRef α) : RbTree α :=
  zip (.node ref.colour ref.left ref.entry ref.right) ref.up

/-! ### Insertion -/

/--
`__rb_insert`, at a red node.  The red parent is no root, so that there is a
grandparent.
-/
def rbInsert (node : RbTree α) : List (Parent α) → Option (RbTree α)
  | [] => some (node.paint .black)
  | [parent] =>
      match parent.colour with
      | .black => some (parent.plug node)
      | .red => none
  | parent :: gparent :: up =>
      match parent.colour with
      | .black => some (zip node (parent :: gparent :: up))
      | .red =>
          if gparent.sibling.isRed then
            -- case 1: color flips
            rbInsert
              (branch gparent.side .red
                (branch parent.side .black node parent.entry parent.sibling)
                gparent.entry (gparent.sibling.paint .black)) up
          else if parent.side = gparent.side then
            -- case 3: rotate at gparent
            some
              (zip
                (branch gparent.side gparent.colour node parent.entry
                  (branch gparent.side .red (parent.sibling.paint .black)
                    gparent.entry gparent.sibling)) up)
          else
            -- case 2: rotate at parent, then case 3
            match node.split gparent.side with
            | none => none
            | some (_, near, entry, far) =>
                some
                  (zip
                    (branch gparent.side gparent.colour
                      (branch gparent.side .red parent.sibling parent.entry
                        (near.paint .black)) entry
                      (branch gparent.side .red (far.paint .black)
                        gparent.entry gparent.sibling)) up)

/-- `rb_link_node` and `rb_insert_color`, at an empty place. -/
def rbInsertColor (new : α) (up : List (Parent α)) : Option (RbTree α) :=
  rbInsert (.node .red .null new .null) up

/-! ### Removal -/

/-- A turn of the loop: the subtree at the parent, and whether it goes on. -/
structure EraseTurn (α : Type u) where
  tree : RbTree α
  continues : Bool

/-- Cases 2 to 4 of `____rb_erase_color`: the sibling is black. -/
def eraseBlackSibling (side : Child) (node : RbTree α) (colour : Colour)
    (parent : α) (sibling : RbTree α) : Option (EraseTurn α) :=
  match sibling.split side with
  | none => none
  | some (_, near, entry, far) =>
      if far.isRed then
        -- case 4: rotate at parent
        some
          ⟨branch side colour (branch side .black node parent near) entry
            (far.paint .black), false⟩
      else
        match near.isRed, near.split side with
        | true, some (_, inner, tmp, outer) =>
            -- case 3: rotate at sibling, then case 4
            some
              ⟨branch side colour (branch side .black node parent inner) tmp
                (branch side .black (outer.paint .black) entry far), false⟩
        | _, _ =>
            -- case 2: sibling color flip
            some
              ⟨branch side .black node parent (branch side .red near entry far),
                colour = .black⟩

/--
A turn of `____rb_erase_color` at a parent.  Behind case 1 the parent is red,
so that the loop ends with this turn.
-/
def eraseTurn (node : RbTree α) (parent : Parent α) :
    Option (EraseTurn α) :=
  match parent.sibling.split parent.side with
  | some (.red, .node _ left entry right, sibling, far) =>
      -- case 1: rotate at parent
      (eraseBlackSibling parent.side node .red parent.entry
          (.node .black left entry right)).map fun turn =>
        ⟨branch parent.side parent.colour turn.tree sibling far, false⟩
  | some (.red, .null, _, _) => none
  | _ =>
      eraseBlackSibling parent.side node parent.colour parent.entry
        parent.sibling

/-- `____rb_erase_color`. -/
def eraseColor (node : RbTree α) : List (Parent α) → Option (RbTree α)
  | [] => some node
  | parent :: up =>
      match eraseTurn node parent with
      | none => none
      | some turn =>
          if turn.continues then
            eraseColor turn.tree up
          else
            some (zip turn.tree up)

/-- Down the left children. -/
def leftmost (colour : Colour) (left : RbTree α) (entry : α)
    (right : RbTree α) (up : List (Parent α)) : NodeRef α :=
  match left with
  | .null => ⟨colour, .null, entry, right, up⟩
  | .node lower below next beside =>
      leftmost lower below next beside (⟨.left, colour, entry, right⟩ :: up)

/-- What is left of a node of the given colour without its only child. -/
def eraseLeaf (colour : Colour) (up : List (Parent α)) :
    Option (RbTree α) :=
  match colour with
  | .red => some (zip .null up)
  | .black => eraseColor .null up

/-- `rb_erase`: `__rb_erase_augmented`, and the loop for what it returns. -/
def rbErase (ref : NodeRef α) : Option (RbTree α) :=
  match ref.left, ref.right with
  | .null, .null => eraseLeaf ref.colour ref.up
  | .null, child => some (zip (child.paint ref.colour) ref.up)
  | tmp, .null => some (zip (tmp.paint ref.colour) ref.up)
  | tmp, .node colour left entry right =>
      let successor := leftmost colour left entry right []
      let up :=
        successor.up ++
          ⟨.right, ref.colour, successor.entry, tmp⟩ :: ref.up
      match successor.right with
      | .null => eraseLeaf successor.colour up
      | child2 => some (zip (child2.paint .black) up)

/-! ### Iteration -/

/-- `rb_left_deepest_node`. -/
def rbLeftDeepestNode : RbTree α → Option α
  | .null => none
  | .node _ .null entry .null => some entry
  | .node _ .null _ right => rbLeftDeepestNode right
  | .node _ left _ _ => rbLeftDeepestNode left

/-- `rb_first_postorder`. -/
def rbFirstPostorder (root : RbTree α) : Option α :=
  rbLeftDeepestNode root

/-- `rb_next_postorder`, of a node with these parents. -/
def rbNextPostorder : List (Parent α) → Option α
  | [] => none
  | parent :: _ =>
      match parent.side, parent.sibling with
      | .left, .node colour left entry right =>
          rbLeftDeepestNode (.node colour left entry right)
      | _, _ => some parent.entry

/-- The node with an entry. -/
def locate [DecidableEq α] (entry : α) :
    RbTree α → List (Parent α) → Option (NodeRef α)
  | .null, _ => none
  | .node colour left here right, up =>
      if here = entry then
        some ⟨colour, left, here, right, up⟩
      else
        (locate entry left (⟨.left, colour, here, right⟩ :: up)).orElse
          fun _ => locate entry right (⟨.right, colour, here, left⟩ :: up)

/-- The parents of the empty place where a descent ends; `none` at a node. -/
def emptyPlace (order : α → Ordering) :
    RbTree α → List (Parent α) → Option (List (Parent α))
  | .null, up => some up
  | .node colour left entry right, up =>
      match order entry with
      | .lt => emptyPlace order left (⟨.left, colour, entry, right⟩ :: up)
      | .gt => emptyPlace order right (⟨.right, colour, entry, left⟩ :: up)
      | .eq => none

/-- `rb_erase` at the node with an entry. -/
def eraseEntry [DecidableEq α] (entry : α) (root : RbTree α) :
    Option (RbTree α) :=
  (locate entry root []).bind rbErase

/-- `rb_next_postorder` at the node with an entry. -/
def nextEntry [DecidableEq α] (entry : α) (root : RbTree α) : Option α :=
  (locate entry root []).bind fun ref => rbNextPostorder ref.up

end Code

/-! ## Entries from left to right -/

section Inorder

variable {α : Type u}

/-- The entries in front of a place. -/
def before : List (Parent α) → List α
  | [] => []
  | parent :: up =>
      match parent.side with
      | .left => before up
      | .right => before up ++ (parent.sibling.inorder ++ [parent.entry])

/-- The entries behind a place. -/
def behind : List (Parent α) → List α
  | [] => []
  | parent :: up =>
      match parent.side with
      | .left => parent.entry :: (parent.sibling.inorder ++ behind up)
      | .right => behind up

@[simp]
theorem inorder_shape (tree : RbTree α) :
    tree.shape.inorder = tree.inorder := by
  induction tree with
  | null => rfl
  | node colour left entry right inLeft inRight =>
      rw [shape, TreeOf.inorder_node, inLeft, inRight, inorder]

@[simp]
theorem inorder_paint (colour : Colour) (tree : RbTree α) :
    (tree.paint colour).inorder = tree.inorder := by
  cases tree <;> rfl

theorem zip_append (tree : RbTree α) (inner outer : List (Parent α)) :
    zip tree (inner ++ outer) = zip (zip tree inner) outer := by
  induction inner generalizing tree with
  | nil => rfl
  | cons parent up further => exact further (parent.plug tree)

theorem inorder_zip (tree : RbTree α) (up : List (Parent α)) :
    (zip tree up).inorder = before up ++ tree.inorder ++ behind up := by
  induction up generalizing tree with
  | nil => simp [zip, before, behind]
  | cons parent up further =>
      obtain ⟨side, colour, entry, sibling⟩ := parent
      rw [zip, further]
      cases side <;> simp [before, behind, Parent.plug, branch, inorder]

theorem inorder_zip_congr {tree other : RbTree α}
    (same : tree.inorder = other.inorder) (up : List (Parent α)) :
    (zip tree up).inorder = (zip other up).inorder := by
  rw [inorder_zip, inorder_zip, same]

theorem nodup_of_zip {tree : RbTree α} {up : List (Parent α)}
    (nodup : (zip tree up).inorder.Nodup) : tree.inorder.Nodup := by
  rw [inorder_zip, List.append_assoc] at nodup
  exact nodup.of_append_right.of_append_left

theorem split_eq_some {side : Child} {tree near far : RbTree α}
    {colour : Colour} {entry : α} :
    tree.split side = some (colour, near, entry, far) ↔
      tree = branch side colour near entry far := by
  cases tree with
  | null => cases side <;> simp [split, branch]
  | node colour left entry right =>
      cases side with
      | left =>
          simp only [split, branch, Option.some.injEq, Prod.mk.injEq,
            node.injEq]
      | right =>
          simp only [split, branch, Option.some.injEq, Prod.mk.injEq,
            node.injEq]
          tauto

@[simp]
theorem split_branch (side : Child) (colour : Colour)
    (near far : RbTree α) (entry : α) :
    (branch side colour near entry far).split side =
      some (colour, near, entry, far) :=
  split_eq_some.mpr rfl

end Inorder

/-! ## Red-black trees -/

section Balance

variable {α : Type u}

/--
Both children of a red node are black, and all paths down have the same
number of black nodes.
-/
inductive Balanced : RbTree α → Colour → Nat → Prop where
  | null : Balanced .null .black 0
  | red {left right : RbTree α} {entry : α} {height : Nat}
      (inLeft : Balanced left .black height)
      (inRight : Balanced right .black height) :
      Balanced (.node .red left entry right) .red height
  | black {left right : RbTree α} {entry : α} {height : Nat}
      {leftColour rightColour : Colour}
      (inLeft : Balanced left leftColour height)
      (inRight : Balanced right rightColour height) :
      Balanced (.node .black left entry right) .black (height + 1)

/-- A red-black tree: the root is black. -/
def IsRedBlack (root : RbTree α) : Prop :=
  ∃ height, Balanced root .black height

variable {side : Child} {near far tree : RbTree α} {entry : α}
  {colour : Colour} {height : Nat}

theorem Balanced.branch_red (inNear : Balanced near .black height)
    (inFar : Balanced far .black height) :
    Balanced (branch side .red near entry far) .red height := by
  cases side with
  | left => exact .red inNear inFar
  | right => exact .red inFar inNear

theorem Balanced.branch_black {nearColour farColour : Colour}
    (inNear : Balanced near nearColour height)
    (inFar : Balanced far farColour height) :
    Balanced (branch side .black near entry far) .black (height + 1) := by
  cases side with
  | left => exact .black inNear inFar
  | right => exact .black inFar inNear

theorem Balanced.of_branch_red
    (balanced : Balanced (branch side .red near entry far) colour height) :
    colour = .red ∧ Balanced near .black height ∧
      Balanced far .black height := by
  cases side with
  | left =>
      cases balanced with
      | red inLeft inRight => exact ⟨rfl, inLeft, inRight⟩
  | right =>
      cases balanced with
      | red inLeft inRight => exact ⟨rfl, inRight, inLeft⟩

theorem Balanced.of_branch_black
    (balanced : Balanced (branch side .black near entry far) colour height) :
    ∃ lower nearColour farColour,
      colour = .black ∧ height = lower + 1 ∧
        Balanced near nearColour lower ∧ Balanced far farColour lower := by
  cases side with
  | left =>
      cases balanced with
      | black inLeft inRight => exact ⟨_, _, _, rfl, rfl, inLeft, inRight⟩
  | right =>
      cases balanced with
      | black inLeft inRight => exact ⟨_, _, _, rfl, rfl, inRight, inLeft⟩

theorem Balanced.isRed_eq (balanced : Balanced tree colour height) :
    tree.isRed = decide (colour = .red) := by
  cases balanced <;> rfl

theorem Balanced.paint_black (balanced : Balanced tree .black height) :
    tree.paint .black = tree := by
  cases balanced <;> rfl

theorem Balanced.paint_red (balanced : Balanced tree .red height) :
    Balanced (tree.paint .black) .black (height + 1) := by
  cases balanced with
  | red inLeft inRight => exact .black inLeft inRight

theorem Balanced.ne_null (balanced : Balanced tree colour (height + 1)) :
    tree ≠ .null := by
  rintro rfl
  cases balanced

/-- A red node seen from a side. -/
theorem Balanced.exists_red (side : Child)
    (balanced : Balanced tree .red height) :
    ∃ near entry far,
      tree = branch side .red near entry far ∧
        Balanced near .black height ∧ Balanced far .black height := by
  cases balanced with
  | red inLeft inRight =>
      cases side with
      | left => exact ⟨_, _, _, rfl, inLeft, inRight⟩
      | right => exact ⟨_, _, _, rfl, inRight, inLeft⟩

/-- A black node seen from a side. -/
theorem Balanced.exists_black (side : Child)
    (balanced : Balanced tree .black (height + 1)) :
    ∃ near entry far nearColour farColour,
      tree = branch side .black near entry far ∧
        Balanced near nearColour height ∧
          Balanced far farColour height := by
  cases balanced with
  | black inLeft inRight =>
      cases side with
      | left => exact ⟨_, _, _, _, _, rfl, inLeft, inRight⟩
      | right => exact ⟨_, _, _, _, _, rfl, inRight, inLeft⟩

/-! ### Places in a balanced tree -/

variable (outer : Colour) (total : Nat) in
/--
A subtree of the given colour and height fits at the place, and the whole is
a tree of the outer colour and the total height.
-/
inductive Fits : List (Parent α) → Colour → Nat → Prop where
  | root : Fits [] outer total
  | red {side : Child} {entry : α} {sibling : RbTree α} {height : Nat}
      {up : List (Parent α)} (beside : Balanced sibling .black height)
      (above : Fits up .red height) :
      Fits (⟨side, .red, entry, sibling⟩ :: up) .black height
  | black {side : Child} {entry : α} {sibling : RbTree α} {height : Nat}
      {up : List (Parent α)} {siblingColour : Colour} (colour : Colour)
      (beside : Balanced sibling siblingColour height)
      (above : Fits up .black (height + 1)) :
      Fits (⟨side, .black, entry, sibling⟩ :: up) colour height

variable {outer : Colour} {total : Nat} {up : List (Parent α)}

/-- A tree of the height fits; in place of a red one also a black one. -/
theorem Fits.zip {actual : Colour} (fits : Fits outer total up colour height)
    (balanced : Balanced tree actual height)
    (redder : actual = .red → colour = .red) :
    ∃ whole, (whole = .red → outer = .red) ∧
      Balanced (zip tree up) whole total := by
  induction fits generalizing tree actual with
  | root => exact ⟨actual, redder, balanced⟩
  | red beside _ further =>
      have black : actual = .black := by
        cases actual with
        | black => rfl
        | red => cases redder rfl
      rw [black] at balanced
      exact further (balanced.branch_red beside) fun _ => rfl
  | black _ beside _ further =>
      exact further (balanced.branch_black beside) nofun

/-- A place in a balanced tree. -/
theorem Balanced.fits (balanced : Balanced (zip tree up) outer total) :
    ∃ colour height,
      Balanced tree colour height ∧ Fits outer total up colour height := by
  induction up generalizing tree with
  | nil => exact ⟨_, _, balanced, .root⟩
  | cons parent up further =>
      obtain ⟨side, here, entry, sibling⟩ := parent
      obtain ⟨colour, height, inside, above⟩ := further balanced
      cases here with
      | red =>
          obtain ⟨rfl, below, beside⟩ := inside.of_branch_red
          exact ⟨_, _, below, .red beside above⟩
      | black =>
          obtain ⟨lower, colour, _, rfl, rfl, below, beside⟩ :=
            inside.of_branch_black
          exact ⟨colour, lower, below, .black colour beside above⟩

theorem Fits.isRedBlack {actual : Colour}
    (fits : Fits .black total up colour height)
    (balanced : Balanced tree actual height)
    (redder : actual = .red → colour = .red) :
    IsRedBlack (Rbtree.zip tree up) := by
  obtain ⟨whole, black, inside⟩ := fits.zip balanced redder
  cases whole with
  | black => exact ⟨_, inside⟩
  | red => cases black rfl

end Balance

/-! ## A turn of `____rb_erase_color` -/

section Turns

variable {α : Type u}

/-- What cases 2 to 4 make of a node that is one black node short. -/
inductive Settled (side : Child) (node : RbTree α) (height : Nat)
    (colour : Colour) (parent : α) : RbTree α → EraseTurn α → Prop where
  | flip {near far : RbTree α} {entry : α}
      (inNear : Balanced near .black height)
      (inFar : Balanced far .black height) :
      Settled side node height colour parent
        (branch side .black near entry far)
        ⟨branch side .black node parent (branch side .red near entry far),
          colour = .black⟩
  | single {near far : RbTree α} {entry : α} {nearColour : Colour}
      (inNear : Balanced near nearColour height)
      (inFar : Balanced far .red height) :
      Settled side node height colour parent
        (branch side .black near entry far)
        ⟨branch side colour (branch side .black node parent near) entry
          (far.paint .black), false⟩
  | double {inner outer far : RbTree α} {tmp entry : α}
      (inInner : Balanced inner .black height)
      (inOuter : Balanced outer .black height)
      (inFar : Balanced far .black height) :
      Settled side node height colour parent
        (branch side .black (branch side .red inner tmp outer) entry far)
        ⟨branch side colour (branch side .black node parent inner) tmp
          (branch side .black outer entry far), false⟩

/-- What a turn makes of a node that is one black node short. -/
inductive Turned (node : RbTree α) (height : Nat) :
    Parent α → EraseTurn α → Prop where
  | black {side : Child} {colour : Colour} {entry : α}
      {sibling : RbTree α} {turn : EraseTurn α}
      (settled : Settled side node height colour entry sibling turn) :
      Turned node height ⟨side, colour, entry, sibling⟩ turn
  | red {side : Child} {entry next : α} {near far : RbTree α}
      {turn : EraseTurn α}
      (inNear : Balanced near .black (height + 1))
      (inFar : Balanced far .black (height + 1))
      (settled : Settled side node height .red entry near turn) :
      Turned node height ⟨side, .black, entry, branch side .red near next far⟩
        ⟨branch side .black turn.tree next far, false⟩

variable {node : RbTree α} {side : Child} {height : Nat}
  {colour siblingColour : Colour} {entry : α} {sibling : RbTree α}
  {parent : Parent α} {turn : EraseTurn α}

/-- Beside a node that is short, the sibling has the nodes that are needed. -/
theorem eraseBlackSibling_settled
    (beside : Balanced sibling .black (height + 1)) :
    ∃ turn,
      eraseBlackSibling side node colour entry sibling = some turn ∧
        Settled side node height colour entry sibling turn := by
  obtain ⟨near, next, far, nearColour, farColour, rfl, inNear, inFar⟩ :=
    beside.exists_black side
  rw [eraseBlackSibling, split_branch]
  dsimp only
  rw [inFar.isRed_eq, inNear.isRed_eq]
  cases farColour with
  | red => exact ⟨_, rfl, .single inNear inFar⟩
  | black =>
      cases nearColour with
      | black =>
          refine ⟨_, ?_, .flip inNear inFar⟩
          cases near.split side <;> rfl
      | red =>
          obtain ⟨inner, tmp, outer, rfl, inInner, inOuter⟩ :=
            inNear.exists_red side
          rw [split_branch]
          refine ⟨_, rfl, ?_⟩
          rw [inOuter.paint_black]
          exact .double inInner inOuter inFar

/-- No turn goes through a null pointer. -/
theorem eraseTurn_turned (fits : siblingColour = .red → colour = .black)
    (beside : Balanced sibling siblingColour (height + 1)) :
    ∃ turn,
      eraseTurn node ⟨side, colour, entry, sibling⟩ = some turn ∧
        Turned node height ⟨side, colour, entry, sibling⟩ turn := by
  cases siblingColour with
  | black =>
      obtain ⟨turn, settles, settled⟩ :=
        @eraseBlackSibling_settled _ node side _ colour entry _ beside
      refine ⟨turn, ?_, .black settled⟩
      obtain ⟨near, next, far, _, _, rfl, _, _⟩ := beside.exists_black side
      rw [eraseTurn, split_branch]
      exact settles
  | red =>
      obtain ⟨near, next, far, rfl, inNear, inFar⟩ := beside.exists_red side
      obtain ⟨turn, settles, settled⟩ :=
        @eraseBlackSibling_settled _ node side _ .red entry _ inNear
      rw [fits rfl]
      refine ⟨_, ?_, .red inNear inFar settled⟩
      rw [eraseTurn, split_branch]
      cases inNear with
      | black inLeft inRight =>
          dsimp only
          rw [settles]
          rfl

theorem Settled.inorder
    (settled : Settled side node height colour entry sibling turn) :
    turn.tree.inorder = (branch side colour node entry sibling).inorder := by
  cases settled <;> cases side <;> simp [branch, RbTree.inorder]

theorem Turned.inorder (turned : Turned node height parent turn) :
    turn.tree.inorder = (parent.plug node).inorder := by
  cases turned with
  | black settled => exact settled.inorder
  | @red side _ _ _ _ _ _ _ settled =>
      have inside := settled.inorder
      cases side with
      | left =>
          simp only [branch, Parent.plug, RbTree.inorder] at inside ⊢
          rw [inside, List.append_assoc, List.cons_append]
      | right =>
          simp only [branch, Parent.plug, RbTree.inorder] at inside ⊢
          rw [inside, List.append_assoc, List.cons_append]

/-- The height of a subtree with a root of the colour, above its children. -/
def Colour.above (colour : Colour) (height : Nat) : Nat :=
  match colour with
  | .red => height
  | .black => height + 1

theorem Balanced.branch_above {near far : RbTree α} {colour : Colour}
    (inNear : Balanced near .black height)
    (inFar : Balanced far .black height) :
    Balanced (branch side colour near entry far) colour
      (colour.above height) := by
  cases colour with
  | red => exact inNear.branch_red inFar
  | black => exact inNear.branch_black inFar

/--
A turn ends with the height there was, or the whole subtree is one black node
short.
-/
inductive Mended (colour : Colour) (height : Nat) : EraseTurn α → Prop where
  | done {tree : RbTree α} {actual : Colour}
      (balanced : Balanced tree actual (colour.above (height + 1)))
      (redder : actual = .red → colour = .red) :
      Mended colour height ⟨tree, false⟩
  | short {tree : RbTree α} (black : colour = .black)
      (balanced : Balanced tree .black (height + 1)) :
      Mended colour height ⟨tree, true⟩

theorem Settled.mended
    (settled : Settled side node height colour entry sibling turn)
    (balanced : Balanced node .black height) : Mended colour height turn := by
  cases settled with
  | flip inNear inFar =>
      cases colour with
      | red =>
          exact .done (balanced.branch_black (inNear.branch_red inFar)) nofun
      | black =>
          exact .short rfl (balanced.branch_black (inNear.branch_red inFar))
  | single inNear inFar =>
      exact
        .done ((balanced.branch_black inNear).branch_above inFar.paint_red)
          id
  | double inInner inOuter inFar =>
      exact
        .done
          ((balanced.branch_black inInner).branch_above
            (inOuter.branch_black inFar))
          id

theorem Turned.mended (turned : Turned node height parent turn)
    (balanced : Balanced node .black height) :
    Mended parent.colour height turn := by
  cases turned with
  | black settled => exact settled.mended balanced
  | red inNear inFar settled =>
      cases settled.mended balanced with
      | done inside _ =>
          exact
            @Mended.done _ _ _ _ .black (inside.branch_black inFar) nofun
      | short black _ => cases black

end Turns

/-! ## Removing a node -/

section Erase

variable {α : Type u}

/--
How a routine ends that works in a subtree of a colour and a height, with
`result` as a function of the parents above: the subtree is replaced, or the
loop of `____rb_erase_color` leaves it and goes on above.
-/
inductive Replaced (colour : Colour) (height : Nat)
    (result : List (Parent α) → Option (RbTree α)) (tree : RbTree α) :
    Prop where
  | whole {actual : Colour} (balanced : Balanced tree actual height)
      (redder : actual = .red → colour = .red)
      (ends : ∀ up, result up = some (zip tree up))
  | short {lower : Nat} (black : colour = .black)
      (tall : height = lower + 1) (balanced : Balanced tree .black lower)
      (goesOn : ∀ up, result up = eraseColor tree up)

variable {node left right : RbTree α} {colour outer : Colour} {entry : α}
  {height total : Nat} {inner : List (Parent α)}

theorem Replaced.congr {result other : List (Parent α) → Option (RbTree α)}
    (replaced : Replaced colour height result node)
    (same : ∀ up, other up = result up) :
    Replaced colour height other node := by
  cases replaced with
  | whole balanced redder ends =>
      exact .whole balanced redder fun up => (same up).trans (ends up)
  | short black tall balanced goesOn =>
      exact .short black tall balanced fun up => (same up).trans (goesOn up)

/-- The turn at the parent of a place, and the place of what it makes. -/
theorem Fits.turn {parent : Parent α} {up : List (Parent α)}
    (fits : Fits outer total (parent :: up) .black (height + 1))
    (balanced : Balanced node .black height) :
    ∃ turn,
      eraseTurn node parent = some turn ∧ Turned node height parent turn ∧
        Mended parent.colour height turn ∧
          Fits outer total up parent.colour
            (parent.colour.above (height + 1)) := by
  cases fits with
  | @red side entry sibling _ _ beside above =>
      obtain ⟨turn, turns, turned⟩ :=
        @eraseTurn_turned _ node side _ .red .black entry _ nofun beside
      exact ⟨turn, turns, turned, turned.mended balanced, above⟩
  | @black side entry sibling _ _ siblingColour _ beside above =>
      obtain ⟨turn, turns, turned⟩ :=
        @eraseTurn_turned _ node side _ .black siblingColour entry _
          (fun _ => rfl) beside
      exact ⟨turn, turns, turned, turned.mended balanced, above⟩

theorem eraseColor_replaced (balanced : Balanced node .black height)
    (fits : Fits outer total inner .black (height + 1)) :
    ∃ tree,
      tree.inorder = (zip node inner).inorder ∧
        Replaced outer total (fun up => eraseColor node (inner ++ up))
          tree := by
  induction inner generalizing node height with
  | nil =>
      cases fits with
      | root =>
          exact ⟨node, rfl, .short rfl rfl balanced fun up => rfl⟩
  | cons parent up further =>
      obtain ⟨turn, turns, turned, mended, above⟩ := fits.turn balanced
      have sameEntries := inorder_zip_congr turned.inorder up
      cases mended with
      | done inside redder =>
          obtain ⟨whole, outerRed, balanced⟩ := above.zip inside redder
          refine ⟨_, sameEntries, .whole balanced outerRed ?_⟩
          intro above
          rw [List.cons_append, eraseColor, turns]
          exact congrArg some (zip_append _ _ _)
      | short black inside =>
          rw [black] at above
          obtain ⟨tree, entries, replaced⟩ := further inside above
          refine ⟨tree, entries.trans sameEntries, replaced.congr ?_⟩
          intro above
          rw [List.cons_append, eraseColor, turns]
          rfl

theorem Fits.append {place : Colour} {low : Nat}
    {rest : List (Parent α)} (fits : Fits colour height inner place low)
    (above : Fits outer total rest colour height) :
    Fits outer total (inner ++ rest) place low := by
  induction fits with
  | root => exact above
  | red beside _ further => exact .red beside further
  | black colour beside _ further => exact .black colour beside further

/-- A node without children. -/
theorem eraseLeaf_replaced
    (leaf : Balanced (.node colour .null entry .null) colour height)
    (fits : Fits outer total inner colour height) :
    ∃ tree,
      tree.inorder = (zip .null inner).inorder ∧
        Replaced outer total (fun up => eraseLeaf colour (inner ++ up))
          tree := by
  cases leaf with
  | red inLeft _ =>
      cases inLeft with
      | null =>
          obtain ⟨whole, redder, balanced⟩ := fits.zip .null nofun
          refine ⟨_, rfl, .whole balanced redder ?_⟩
          intro up
          rw [eraseLeaf, zip_append]
  | black inLeft _ =>
      cases inLeft with
      | null => exact eraseColor_replaced .null fits

/-- An only child is a red leaf, below a black node. -/
theorem Balanced.only_right
    (balanced : Balanced (.node colour .null entry right) colour height)
    (present : right ≠ .null) :
    colour = .black ∧ height = 1 ∧
      Balanced (right.paint .black) .black 1 := by
  cases balanced with
  | red inLeft inRight =>
      cases inLeft with
      | null =>
          cases inRight with
          | null => exact absurd rfl present
  | @black _ _ _ _ _ rightColour inLeft inRight =>
      cases inLeft with
      | null =>
          cases rightColour with
          | red => exact ⟨rfl, rfl, inRight.paint_red⟩
          | black =>
              cases inRight with
              | null => exact absurd rfl present

theorem Balanced.only_left
    (balanced : Balanced (.node colour left entry .null) colour height)
    (present : left ≠ .null) :
    colour = .black ∧ height = 1 ∧
      Balanced (left.paint .black) .black 1 := by
  cases balanced with
  | red inLeft inRight =>
      cases inRight with
      | null =>
          cases inLeft with
          | null => exact absurd rfl present
  | @black _ _ _ _ leftColour _ inLeft inRight =>
      cases inRight with
      | null =>
          cases leftColour with
          | red => exact ⟨rfl, rfl, inLeft.paint_red⟩
          | black =>
              cases inLeft with
              | null => exact absurd rfl present

/-- The leftmost node is where it was, and has no left child. -/
theorem leftmost_spec (colour : Colour) (left : RbTree α) (entry : α)
    (right : RbTree α) (up : List (Parent α)) :
    (leftmost colour left entry right up).left = .null ∧
      (leftmost colour left entry right up).root =
        zip (.node colour left entry right) up ∧
      before (leftmost colour left entry right up).up = before up := by
  induction left generalizing colour entry right up with
  | null => exact ⟨rfl, rfl, rfl⟩
  | node lower below next beside further _ =>
      exact further lower next beside (⟨.left, colour, entry, right⟩ :: up)

theorem Balanced.node_colour {here : Colour}
    (balanced : Balanced (.node here left entry right) colour height) :
    here = colour := by
  cases balanced <;> rfl

theorem Balanced.rename (other : α)
    (balanced : Balanced (.node colour left entry right) colour height) :
    Balanced (.node colour left other right) colour height := by
  cases balanced with
  | red inLeft inRight => exact .red inLeft inRight
  | black inLeft inRight => exact .black inLeft inRight

/-- With its successor moved to its place, a node leaves its other entries. -/
theorem inorder_successor {here : Colour} {successor : α}
    {child tree : RbTree α} {up : List (Parent α)}
    (first : before up = []) (same : tree.inorder = child.inorder) :
    (zip tree (up ++ [⟨.right, colour, successor, left⟩])).inorder =
      left.inorder ++ (zip (.node here .null successor child) up).inorder := by
  rw [zip_append, zip, zip, Parent.plug, branch, inorder, inorder_zip,
    inorder_zip, first, same]
  simp [inorder]

/-- Removing a node leaves the entries of its children. -/
theorem rbErase_replaced
    (balanced : Balanced (.node colour left entry right) colour height) :
    ∃ tree,
      tree.inorder = left.inorder ++ right.inorder ∧
        Replaced colour height
          (fun up => rbErase ⟨colour, left, entry, right, up⟩) tree := by
  by_cases noLeft : left = .null
  · rw [noLeft] at balanced ⊢
    by_cases noRight : right = .null
    · rw [noRight] at balanced ⊢
      exact eraseLeaf_replaced balanced .root
    · obtain ⟨rfl, rfl, painted⟩ := balanced.only_right noRight
      refine ⟨right.paint .black, by simp [inorder], .whole painted nofun ?_⟩
      intro up
      cases right with
      | null => exact absurd rfl noRight
      | node => rfl
  · by_cases noRight : right = .null
    · rw [noRight] at balanced ⊢
      obtain ⟨rfl, rfl, painted⟩ := balanced.only_left noLeft
      refine ⟨left.paint .black, by simp [inorder], .whole painted nofun ?_⟩
      intro up
      cases left with
      | null => exact absurd rfl noLeft
      | node => rfl
    · cases right with
      | null => exact absurd rfl noRight
      | node below lower next beside =>
          obtain ⟨noSmaller, sameRoot, first⟩ :=
            leftmost_spec below lower next beside []
          have run :
              ∀ up,
                rbErase
                    ⟨colour, left, entry, .node below lower next beside,
                      up⟩ =
                  let successor := leftmost below lower next beside []
                  let above :=
                    successor.up ++
                      ⟨.right, colour, successor.entry, left⟩ :: up
                  match successor.right with
                  | .null => eraseLeaf successor.colour above
                  | child2 => some (zip (child2.paint .black) above) := by
            intro up
            cases left with
            | null => exact absurd rfl noLeft
            | node => rfl
          generalize leftmost below lower next beside [] = successor
            at noSmaller sameRoot first run
          obtain ⟨place, small, least, child, up⟩ := successor
          dsimp only at noSmaller run first
          rw [noSmaller] at sameRoot
          have sameRight :
              zip (.node place .null least child) up =
                .node below lower next beside :=
            sameRoot
          obtain ⟨_, _, inRight, frame⟩ :=
            @Balanced.fits _ (.node below lower next beside) _ _
              [⟨.right, colour, least, left⟩] (balanced.rename least)
          rw [← sameRight] at inRight run ⊢
          obtain ⟨_, _, inPlace, path⟩ := inRight.fits
          obtain rfl := inPlace.node_colour
          have fits := path.append frame
          have arrange :
              ∀ rest : List (Parent α),
                up ++ ⟨.right, colour, least, left⟩ :: rest =
                  (up ++ [⟨.right, colour, least, left⟩]) ++ rest := by
            intro rest
            rw [List.append_assoc, List.singleton_append]
          by_cases childless : child = .null
          · rw [childless] at inPlace run ⊢
            obtain ⟨tree, entries, replaced⟩ :=
              eraseLeaf_replaced inPlace fits
            refine ⟨tree, ?_, replaced.congr ?_⟩
            · rw [entries]
              exact inorder_successor first rfl
            · intro rest
              rw [← arrange]
              exact run rest
          · obtain ⟨rfl, rfl, painted⟩ := inPlace.only_right childless
            obtain ⟨whole, redder, balanced⟩ := fits.zip painted nofun
            refine ⟨_, ?_, .whole balanced redder ?_⟩
            · exact inorder_successor first (inorder_paint _ _)
            · intro rest
              rw [← zip_append, ← arrange]
              cases child with
              | null => exact absurd rfl childless
              | node => exact run rest

theorem eraseColor_isRedBlack {up : List (Parent α)}
    (balanced : Balanced node .black height)
    (fits : Fits .black total up .black (height + 1)) :
    ∃ root,
      eraseColor node up = some root ∧ IsRedBlack root ∧
        root.inorder = (zip node up).inorder := by
  obtain ⟨root, entries, replaced⟩ := eraseColor_replaced balanced fits
  refine ⟨root, ?_⟩
  cases replaced with
  | @whole actual balanced redder ends =>
      have run := ends []
      rw [List.append_nil] at run
      cases actual with
      | black => exact ⟨run, ⟨_, balanced⟩, entries⟩
      | red => cases redder rfl
  | short _ _ balanced goesOn =>
      have run := goesOn []
      rw [List.append_nil] at run
      exact ⟨run, ⟨_, balanced⟩, entries⟩

/-- `rb_erase` removes one entry of a red-black tree. -/
theorem IsRedBlack.erase {up : List (Parent α)}
    (redBlack : IsRedBlack (zip (.node colour left entry right) up)) :
    ∃ root,
      rbErase ⟨colour, left, entry, right, up⟩ = some root ∧
        IsRedBlack root ∧
          root.inorder =
            before up ++ (left.inorder ++ right.inorder) ++ behind up := by
  obtain ⟨total, balanced⟩ := redBlack
  obtain ⟨_, height, inPlace, fits⟩ := balanced.fits
  obtain rfl := inPlace.node_colour
  obtain ⟨tree, entries, replaced⟩ := rbErase_replaced inPlace
  have whole :
      (zip tree up).inorder =
        before up ++ (left.inorder ++ right.inorder) ++ behind up := by
    rw [inorder_zip, entries]
  cases replaced with
  | whole balanced redder ends =>
      exact ⟨_, ends up, fits.isRedBlack balanced redder, whole⟩
  | short black tall balanced goesOn =>
      rw [black, tall] at fits
      obtain ⟨root, run, redBlack, same⟩ :=
        eraseColor_isRedBlack balanced fits
      exact ⟨root, (goesOn up).trans run, redBlack, same.trans whole⟩

end Erase

/-! ## Inserting a node -/

section Insert

variable {α : Type u}

theorem rbInsert_isRedBlack {total : Nat} :
    ∀ (up : List (Parent α)) {tree : RbTree α} {place : Colour}
      {height : Nat},
      Balanced tree .red height → Fits .black total up place height →
        ∃ root,
          rbInsert tree up = some root ∧ IsRedBlack root ∧
            root.inorder = (zip tree up).inorder
  | [], tree, _, _, balanced, _ =>
      ⟨_, rfl, ⟨_, balanced.paint_red⟩, inorder_paint _ tree⟩
  | [⟨side, .black, entry, sibling⟩], tree, _, _, balanced, fits => by
      cases fits with
      | black _ beside above =>
          exact
            ⟨_, rfl, ⟨_, balanced.branch_black beside⟩, rfl⟩
  | [⟨side, .red, entry, sibling⟩], tree, _, _, balanced, fits => by
      cases fits with
      | red _ above => cases above
  | ⟨side, .black, entry, sibling⟩ :: gparent :: up, tree, _, _, balanced,
      fits => by
      refine ⟨_, rfl, ?_, rfl⟩
      cases fits with
      | black _ beside above =>
          exact (Fits.black .red beside above).isRedBlack balanced id
  | ⟨side, .red, entry, sibling⟩ :: ⟨gside, gcolour, gentry, uncle⟩ :: up,
      tree, _, height, balanced, fits => by
      obtain ⟨rfl, uncleColour, beside, besideParent, above⟩ :
          gcolour = .black ∧ ∃ uncleColour,
            Balanced sibling .black height ∧
              Balanced uncle uncleColour height ∧
                Fits .black total up .black (height + 1) := by
        cases fits with
        | red beside fits =>
            cases fits with
            | black _ besideParent above =>
                exact ⟨rfl, _, beside, besideParent, above⟩
      rw [rbInsert]
      dsimp only
      rw [besideParent.isRed_eq]
      cases uncleColour with
      | red =>
          obtain ⟨root, run, redBlack, entries⟩ :=
            rbInsert_isRedBlack up
              ((balanced.branch_black beside).branch_red
                besideParent.paint_red) above
          refine ⟨root, run, redBlack, entries.trans ?_⟩
          refine inorder_zip_congr ?_ up
          cases side <;> cases gside <;>
            simp [Parent.plug, branch, inorder]
      | black =>
          rw [beside.paint_black, if_neg (by decide)]
          by_cases sameSide : side = gside
          · rw [if_pos sameSide]
            refine
              ⟨_, rfl,
                above.isRedBlack
                  (balanced.branch_black (beside.branch_red besideParent))
                  nofun, inorder_zip_congr ?_ up⟩
            rw [sameSide]
            cases gside <;> simp [Parent.plug, branch, inorder]
          · obtain ⟨near, next, far, rfl, inNear, inFar⟩ :=
              balanced.exists_red gside
            rw [if_neg sameSide, split_branch]
            dsimp only
            rw [inNear.paint_black, inFar.paint_black]
            refine
              ⟨_, rfl,
                above.isRedBlack
                  ((beside.branch_red inNear).branch_black
                    (inFar.branch_red besideParent))
                  nofun, inorder_zip_congr ?_ up⟩
            cases side <;> cases gside <;>
              simp_all [Parent.plug, branch, inorder]

/-- `rb_link_node` and `rb_insert_color` add one entry. -/
theorem IsRedBlack.insertColor {up : List (Parent α)}
    (redBlack : IsRedBlack (zip .null up)) (new : α) :
    ∃ root,
      rbInsertColor new up = some root ∧ IsRedBlack root ∧
        root.inorder = before up ++ new :: behind up := by
  obtain ⟨total, balanced⟩ := redBlack
  obtain ⟨_, _, inside, fits⟩ := balanced.fits
  cases inside with
  | null =>
      obtain ⟨root, run, redBlack, entries⟩ :=
        rbInsert_isRedBlack up
          (@Balanced.red _ _ _ new _ Balanced.null Balanced.null) fits
      refine ⟨root, run, redBlack, ?_⟩
      rw [entries, inorder_zip]
      simp [inorder]

theorem zip_emptyPlace {order : α → Ordering} {tree : RbTree α}
    {up place : List (Parent α)}
    (ends : emptyPlace order tree up = some place) :
    zip .null place = zip tree up := by
  induction tree generalizing up with
  | null =>
      cases ends
      rfl
  | node colour left entry right inLeft inRight =>
      rw [emptyPlace] at ends
      split at ends
      · exact inLeft ends
      · exact inRight ends
      · cases ends

end Insert

/-! ## Finding a node -/

section Locate

variable {α : Type u} [DecidableEq α] {tree : RbTree α}
  {up : List (Parent α)} {entry : α}

theorem locate_eq_none (absent : entry ∉ tree.inorder) :
    locate entry tree up = none := by
  induction tree generalizing up with
  | null => rfl
  | node colour left here right inLeft inRight =>
      rw [inorder, List.mem_append, List.mem_cons, not_or, not_or] at absent
      rw [locate, if_neg (Ne.symm absent.2.1), inLeft absent.1,
        inRight absent.2.2]
      rfl

theorem locate_of_mem (member : entry ∈ tree.inorder) :
    ∃ ref,
      locate entry tree up = some ref ∧ ref.entry = entry ∧
        ref.root = zip tree up := by
  induction tree generalizing up with
  | null => cases member
  | node colour left here right inLeft inRight =>
      rw [locate]
      by_cases found : here = entry
      · rw [if_pos found]
        exact ⟨_, rfl, found, rfl⟩
      · rw [if_neg found]
        by_cases below : entry ∈ left.inorder
        · obtain ⟨ref, run, same, root⟩ :=
            @inLeft (⟨.left, colour, here, right⟩ :: up) below
          exact ⟨ref, by rw [run]; rfl, same, root⟩
        · rw [inorder, List.mem_append, List.mem_cons] at member
          have beside : entry ∈ right.inorder := by
            rcases member with inLeft | same | inRight
            · exact absurd inLeft below
            · exact absurd same.symm found
            · exact inRight
          obtain ⟨ref, run, same, root⟩ :=
            @inRight (⟨.right, colour, here, left⟩ :: up) beside
          exact
            ⟨ref, by rw [locate_eq_none below, run]; rfl, same, root⟩

theorem locate_plug {parent : Parent α}
    (nodup : (parent.plug tree).inorder.Nodup)
    (member : entry ∈ tree.inorder) :
    locate entry (parent.plug tree) up = locate entry tree (parent :: up) := by
  obtain ⟨side, colour, here, sibling⟩ := parent
  cases side with
  | left =>
      rw [Parent.plug, branch, inorder, List.nodup_append] at nodup
      have different : here ≠ entry :=
        (nodup.2.2 entry member here List.mem_cons_self).symm
      obtain ⟨ref, run, _⟩ :=
        @locate_of_mem _ _ _ (⟨.left, colour, here, sibling⟩ :: up) _ member
      rw [Parent.plug, branch, locate, if_neg different, run]
      rfl
  | right =>
      rw [Parent.plug, branch, inorder, List.nodup_append,
        List.nodup_cons] at nodup
      have different : here ≠ entry := by
        rintro rfl
        exact nodup.2.1.1 member
      have absent : entry ∉ sibling.inorder := by
        intro beside
        exact nodup.2.2 entry beside entry (List.mem_cons_of_mem _ member) rfl
      rw [Parent.plug, branch, locate, if_neg different,
        locate_eq_none absent]
      rfl

theorem locate_zip_append {outer : List (Parent α)}
    (nodup : (zip tree up).inorder.Nodup) (member : entry ∈ tree.inorder) :
    locate entry (zip tree up) outer = locate entry tree (up ++ outer) := by
  induction up generalizing tree with
  | nil => rfl
  | cons parent up further =>
      have inside : entry ∈ (parent.plug tree).inorder := by
        have entries := inorder_zip tree [parent]
        rw [zip, zip] at entries
        rw [entries]
        simp [member]
      have here := @nodup_of_zip _ (parent.plug tree) up nodup
      rw [zip, further nodup inside, locate_plug here member]
      rfl

/-- An entry that is in a tree once is located where it is. -/
theorem locate_zip {colour : Colour} {left right : RbTree α}
    (nodup : (zip (.node colour left entry right) up).inorder.Nodup) :
    locate entry (zip (.node colour left entry right) up) [] =
      some ⟨colour, left, entry, right, up⟩ := by
  rw [locate_zip_append nodup (by simp [inorder]), List.append_nil, locate,
    if_pos rfl]

theorem eraseEntry_zip {colour : Colour} {left right : RbTree α}
    (nodup : (zip (.node colour left entry right) up).inorder.Nodup) :
    eraseEntry entry (zip (.node colour left entry right) up) =
      rbErase ⟨colour, left, entry, right, up⟩ := by
  rw [eraseEntry, locate_zip nodup]
  rfl

theorem nextEntry_zip {colour : Colour} {left right : RbTree α}
    (nodup : (zip (.node colour left entry right) up).inorder.Nodup) :
    nextEntry entry (zip (.node colour left entry right) up) =
      rbNextPostorder up := by
  rw [nextEntry, locate_zip nodup]
  rfl

/-- An entry of a tree is at some place of it. -/
theorem exists_zip (member : entry ∈ tree.inorder) :
    ∃ colour left right up,
      tree = zip (.node colour left entry right) up := by
  obtain ⟨ref, _, rfl, root⟩ := @locate_of_mem _ _ tree [] entry member
  exact ⟨ref.colour, ref.left, ref.right, ref.up, root.symm⟩

/-- `rb_erase` succeeds on a red-black tree and removes the entry from it. -/
theorem IsRedBlack.eraseEntry (redBlack : IsRedBlack tree)
    (nodup : tree.inorder.Nodup) (member : entry ∈ tree.inorder) :
    ∃ after,
      Rbtree.eraseEntry entry tree = some after ∧ IsRedBlack after ∧
        after.inorder = tree.inorder.erase entry := by
  obtain ⟨colour, left, right, up, rfl⟩ := exists_zip member
  obtain ⟨after, run, kept, entries⟩ := redBlack.erase
  refine ⟨after, (eraseEntry_zip nodup).trans run, kept, ?_⟩
  rw [inorder_zip, inorder] at nodup ⊢
  rw [entries]
  have split :
      before up ++ (left.inorder ++ entry :: right.inorder) ++ behind up =
        (before up ++ left.inorder) ++
          entry :: (right.inorder ++ behind up) := by
    simp
  rw [split] at nodup ⊢
  have absent : entry ∉ before up ++ left.inorder := by
    intro inFront
    exact
      (List.nodup_append.mp nodup).2.2 entry inFront entry
        List.mem_cons_self rfl
  rw [List.erase_append_right _ absent, List.erase_cons_head]
  simp

/-! ## The library -/

section Library

/-- The entries that are promised, or the tree that has them without turns. -/
def ofEntries (entries : List α) (plain : TreeOf α) :
    Option (RbTree α) → TreeOf α
  | some root => if root.inorder = entries then root.shape else plain
  | none => plain

theorem inorder_ofEntries {entries : List α} {plain : TreeOf α}
    (promised : plain.inorder = entries) (root : Option (RbTree α)) :
    (ofEntries entries plain root).inorder = entries := by
  cases root with
  | none => exact promised
  | some root =>
      rw [ofEntries]
      split
      case isTrue same => exact (inorder_shape root).trans same
      case isFalse => exact promised

/--
`rb_insert_color` and `rb_erase` as the library that the models of their
callers ask for.  Its trees have no colours: `colours` gives them.
-/
def rbtree (colours : TreeOf α → RbTree α) : Rebalancer α where
  insertColor tree new :=
    ofEntries tree.inorder tree
      ((locate new (colours tree) []).bind fun ref =>
        rbInsertColor new ref.up)
  erase tree old :=
    ofEntries (tree.inorder.erase old) (Rebalancer.remove old tree)
      (eraseEntry old (colours tree))
  insertColor_inorder _ _ := inorder_ofEntries rfl _
  erase_inorder tree old _ :=
    inorder_ofEntries (Rebalancer.remove_inorder old tree) _

variable {colours : TreeOf α → RbTree α}

/-- With the colours of a red-black tree it erases as `rb_erase` does. -/
theorem IsRedBlack.rbtree_erase (redBlack : IsRedBlack tree)
    (coloured : colours tree.shape = tree) (nodup : tree.inorder.Nodup)
    (member : entry ∈ tree.inorder) :
    (Rbtree.eraseEntry entry tree).map shape =
      some ((rbtree colours).erase tree.shape entry) := by
  obtain ⟨after, run, -, entries⟩ := redBlack.eraseEntry nodup member
  simp only [rbtree, coloured, run, inorder_shape, ofEntries, entries,
    if_true, Option.map_some]

/-- And with those of one with a new red leaf it inserts. -/
theorem IsRedBlack.rbtree_insertColor {linked : RbTree α}
    (root : linked = zip (.node .red .null entry .null) up)
    (redBlack : IsRedBlack (zip .null up))
    (coloured : colours linked.shape = linked)
    (nodup : linked.inorder.Nodup) :
    (rbInsertColor entry up).map shape =
      some ((rbtree colours).insertColor linked.shape entry) := by
  obtain ⟨after, run, -, entries⟩ := redBlack.insertColor entry
  subst root
  simp only [rbtree, coloured, locate_zip nodup, Option.bind_some, run,
    inorder_shape, ofEntries, entries, inorder_zip, inorder, List.nil_append,
    List.singleton_append, List.append_assoc, if_true, Option.map_some]

end Library

end Locate

end Kemu.Util.Rbtree
