import Kemu.Virtio.P9.Fid
import Mathlib.Data.List.Infix

/-!
# Paths of the 9p server

How the server builds the paths it hands to the host, and what it means for
such a path to stay under the exported directory: it is the directory's own
path, or goes on from it with components none of which is `..`.
-/

namespace Kemu.Virtio.P9.Path

open Kemu.Virtio.P9.Fid

/-! ## The code -/

/-- `'/'`. -/
def slash : UInt8 := 47

/-- `".."`. -/
def dotDot : CString := [46, 46]

/-- `path_is_illegal`. -/
def pathIsIllegal (path : CString) : Bool :=
  decide (slash :: dotDot ++ [slash] <:+: path) ||
    (decide (path.length ≥ 3) &&
      path.drop (path.length - 3) == slash :: dotDot)

/-- `errno` values the path helpers set. -/
def eAcces : Int := 13

def eNameTooLong : Int := 36

/-- `get_full_path_helper` with a buffer of `PATH_MAX` bytes. -/
def getFullPathHelper (dirname name : CString) : Except Int CString :=
  let fullPath := dirname ++ slash :: name
  if fullPath.length ≥ pathMax then
    .error eNameTooLong
  else if pathIsIllegal fullPath then
    .error eAcces
  else
    .ok fullPath

/-- The room behind `fid->path`. -/
def pathRoom (pfid : P9Fid) : Nat :=
  pathMax - pfid.pathOff

/-- Overwriting the string at `fid->path`. -/
def setPath (pfid : P9Fid) (name : CString) : P9Fid :=
  { pfid with absPath := pfid.absPath.take pfid.pathOff ++ name }

/-- `join_path`; `none` when the name does not fit. -/
def joinPath (pfid : P9Fid) (name : CString) : Option P9Fid :=
  if name.length ≥ pathRoom pfid then
    none
  else
    some (setPath pfid name)

/-- `virtio_p9_ancestor`. -/
def virtioP9Ancestor (path ancestor : CString) : Bool :=
  ancestor.isPrefixOf path &&
    match path.drop ancestor.length with
    | [] => true
    | next :: _ => next == slash

/-- `virtio_p9_fix_path`; a path that would not fit is left alone. -/
def virtioP9FixPath (pfid : P9Fid) (oldName newName : CString) : P9Fid :=
  if oldName.length = pfid.path.length then
    (joinPath pfid newName).getD pfid
  else
    let tmpName := newName ++ pfid.path.drop oldName.length
    if tmpName.length ≥ pathMax then
      pfid
    else
      (joinPath pfid tmpName).getD pfid

/-! ## Staying under the root -/

/-- The `/`-separated components of a path. -/
def components (path : CString) : List CString :=
  path.splitOn slash

/--
What may follow the root: nothing, or something set off by a slash, without
a `..` component.
-/
structure Below (root rest : CString) : Prop where
  setOff :
    rest = [] ∨ rest.head? = some slash ∨ root.getLast? = some slash
  noDotDot : dotDot ∉ components rest

/-- The path is the root or goes on below it. -/
def Confined (root path : CString) : Prop :=
  ∃ rest, path = root ++ rest ∧ Below root rest

theorem components_append_slash (first second : CString) :
    components (first ++ slash :: second) =
      components first ++ components second :=
  List.splitOn_append_cons_self first second

theorem components_nil : components [] = [[]] :=
  List.splitOn_nil slash

/-- Each component stands between two slashes of the enclosed path. -/
theorem component_infix {path component : CString}
    (member : component ∈ components path) :
    slash :: component ++ [slash] <:+: slash :: path ++ [slash] := by
  have joined : [slash].intercalate (components path) = path :=
    List.intercalate_splitOn slash
  rw [← joined]
  generalize components path = parts at member
  induction parts with
  | nil => cases member
  | cons part rest induction =>
      cases rest with
      | nil =>
          obtain rfl := List.mem_singleton.1 member
          simp [List.intercalate]
      | cons next others =>
          have unfolded :
              slash :: [slash].intercalate (part :: next :: others) ++
                  [slash] =
                slash :: part ++
                  (slash :: [slash].intercalate (next :: others) ++
                    [slash]) := by
            simp [List.intercalate]
          rw [unfolded]
          rcases List.mem_cons.1 member with rfl | later
          · refine ⟨[], [slash].intercalate (next :: others) ++ [slash], ?_⟩
            simp
          · exact (induction later).trans (List.suffix_append _ _).isInfix

theorem not_illegal_components {dirname name : CString}
    (legal : pathIsIllegal (dirname ++ slash :: name) = false) :
    dotDot ∉ components name := by
  intro member
  rw [pathIsIllegal, Bool.or_eq_false_iff, decide_eq_false_iff_not] at legal
  rcases component_infix member with ⟨before, behind, split⟩
  rcases List.eq_nil_or_concat behind with rfl | ⟨front, last, rfl⟩
  · have ends : before ++ slash :: dotDot = slash :: name := by
      rw [List.append_nil, ← List.append_assoc] at split
      exact List.append_cancel_right split
    have suffix :
        (dirname ++ slash :: name).drop
          ((dirname ++ slash :: name).length - 3) = slash :: dotDot := by
      have length : (slash :: dotDot).length = 3 := rfl
      rw [← ends, ← List.append_assoc, List.length_append, length,
        Nat.add_sub_cancel, List.drop_left]
    have long : (dirname ++ slash :: name).length ≥ 3 := by
      rw [← ends]
      simp only [List.length_append, List.length_cons, dotDot]
      omega
    rw [suffix, decide_eq_true long] at legal
    simp at legal
  · have inner :
        before ++ (slash :: dotDot ++ [slash]) ++ front = slash :: name := by
      rw [List.concat_eq_append, ← List.append_assoc] at split
      exact (List.append_inj' split rfl).1
    apply legal.1
    exact ⟨dirname ++ before, front, by rw [← inner]; simp⟩

theorem getFullPathHelper_eq_ok {dirname name fullPath : CString}
    (ok : getFullPathHelper dirname name = .ok fullPath) :
    fullPath = dirname ++ slash :: name ∧ dotDot ∉ components name := by
  rw [getFullPathHelper] at ok
  split at ok
  · cases ok
  · split at ok
    · cases ok
    · case isFalse legal =>
        cases ok
        exact ⟨rfl, not_illegal_components (by simpa using legal)⟩

theorem length_of_getFullPathHelper {dirname name fullPath : CString}
    (formed : getFullPathHelper dirname name = .ok fullPath) :
    dirname.length + name.length + 1 < pathMax := by
  rw [getFullPathHelper] at formed
  split at formed
  case isTrue => cases formed
  case isFalse short =>
    rw [List.length_append, List.length_cons] at short
    omega

/--
The two checks of `virtio_p9_create`: what fits behind the path in a buffer
of its own fits at `path`.
-/
theorem extended_fits {object : P9Fid}
    (behind : object.pathOff ≤ object.absPath.length)
    {name fullPath : CString}
    (formed : getFullPathHelper object.absPath name = .ok fullPath) :
    (object.path ++ slash :: name).length < pathRoom object := by
  have short := length_of_getFullPathHelper formed
  rw [P9Fid.path, pathRoom, List.length_append, List.length_drop,
    List.length_cons]
  omega

section Confined

variable {root : CString}

theorem Below.nil : Below root [] where
  setOff := Or.inl rfl
  noDotDot := by simp [components_nil, dotDot]

theorem Confined.self : Confined root root :=
  ⟨[], (List.append_nil root).symm, .nil⟩

theorem Below.append {rest name : CString} (below : Below root rest)
    (clean : dotDot ∉ components name) :
    Below root (rest ++ slash :: name) where
  setOff := by
    rcases below.setOff with rfl | starts | ends
    · exact Or.inr (Or.inl rfl)
    · refine Or.inr (Or.inl ?_)
      cases rest with
      | nil => cases starts
      | cons first others => exact starts
    · exact Or.inr (Or.inr ends)
  noDotDot := by
    rw [components_append_slash, List.mem_append, not_or]
    exact ⟨below.noDotDot, clean⟩

/-- A full path formed in a confined directory is confined. -/
theorem Confined.fullPath {dirname name fullPath : CString}
    (confined : Confined root dirname)
    (ok : getFullPathHelper dirname name = .ok fullPath) :
    Confined root fullPath := by
  rcases confined with ⟨rest, rfl, below⟩
  rcases getFullPathHelper_eq_ok ok with ⟨rfl, clean⟩
  exact ⟨rest ++ slash :: name, by simp, below.append clean⟩

/-- A fid whose path lies under the root, with `path` behind the root. -/
structure FidConfined (root : CString) (pfid : P9Fid) : Prop where
  pathOff : pfid.pathOff = root.length
  absPath : pfid.absPath = root ++ pfid.path
  below : Below root pfid.path

theorem FidConfined.confined {pfid : P9Fid}
    (confined : FidConfined root pfid) : Confined root pfid.absPath :=
  ⟨pfid.path, confined.absPath, confined.below⟩

theorem FidConfined.behind {pfid : P9Fid}
    (confined : FidConfined root pfid) :
    pfid.pathOff ≤ pfid.absPath.length := by
  rw [confined.absPath, confined.pathOff, List.length_append]
  exact Nat.le_add_right _ _

theorem FidConfined.newFid (fid : UInt32) :
    FidConfined root (newFid root fid) where
  pathOff := rfl
  absPath := by simp [Fid.newFid, P9Fid.path]
  below := by simpa [Fid.newFid, P9Fid.path] using Below.nil

@[simp]
theorem FidConfined.path_setPath {pfid : P9Fid}
    (confined : FidConfined root pfid) (name : CString) :
    (setPath pfid name).path = name := by
  have long : pfid.pathOff ≤ pfid.absPath.length := by
    rw [confined.absPath, confined.pathOff, List.length_append]
    exact Nat.le_add_right _ _
  simp [setPath, P9Fid.path, Nat.min_eq_left long]

theorem FidConfined.setPath {pfid : P9Fid}
    (confined : FidConfined root pfid) {name : CString}
    (below : Below root name) :
    FidConfined root (setPath pfid name) where
  pathOff := confined.pathOff
  absPath := by
    rw [confined.path_setPath, Path.setPath, confined.absPath,
      confined.pathOff, List.take_left]
  below := by
    rw [confined.path_setPath]
    exact below

theorem FidConfined.joinPath {pfid joined : P9Fid}
    (confined : FidConfined root pfid) {name : CString}
    (below : Below root name) (ok : joinPath pfid name = some joined) :
    FidConfined root joined := by
  rw [Path.joinPath] at ok
  split at ok
  · cases ok
  · cases ok
    exact confined.setPath below

/-! ## Renaming -/

/-- A matching path is the old name, or goes on with a slash. -/
theorem virtioP9Ancestor_split {path ancestor : CString}
    (matching : virtioP9Ancestor path ancestor = true) :
    path = ancestor ∨ ∃ more, path = ancestor ++ slash :: more := by
  rw [virtioP9Ancestor, Bool.and_eq_true] at matching
  rcases List.isPrefixOf_iff_prefix.1 matching.1 with ⟨rest, rfl⟩
  rw [List.drop_left] at matching
  cases rest with
  | nil => exact Or.inl (List.append_nil _)
  | cons next more =>
      have isSlash : next = slash := by simpa using matching.2
      exact Or.inr ⟨more, by rw [isSlash]⟩

/-- The new name leaves the path below the root. -/
def NameSetOff (root newName : CString) : Prop :=
  newName = [] ∨ newName.head? = some slash ∨ root.getLast? = some slash

/-- Rewriting a matching path with a name that is set off keeps it confined. -/
theorem FidConfined.fixPath {pfid : P9Fid}
    (confined : FidConfined root pfid) {oldName newName : CString}
    (matching : virtioP9Ancestor pfid.path oldName = true)
    (setOff : NameSetOff root newName)
    (clean : dotDot ∉ components newName) :
    FidConfined root (virtioP9FixPath pfid oldName newName) := by
  have joined {name : CString} (below : Below root name) :
      FidConfined root ((Path.joinPath pfid name).getD pfid) := by
    cases outcome : Path.joinPath pfid name with
    | none => exact confined
    | some fixed => exact confined.joinPath below outcome
  rw [virtioP9FixPath]
  rcases virtioP9Ancestor_split matching with same | ⟨more, longer⟩
  · rw [if_pos (by rw [same])]
    exact joined ⟨setOff, clean⟩
  · rw [if_neg (by simp [longer])]
    simp only
    split
    · exact confined
    · apply joined
      rw [longer, List.drop_left]
      have rest : dotDot ∉ components more := by
        have all := confined.below.noDotDot
        rw [longer, components_append_slash, List.mem_append, not_or] at all
        exact all.2
      exact Below.append ⟨setOff, clean⟩ rest

end Confined

end Kemu.Virtio.P9.Path
