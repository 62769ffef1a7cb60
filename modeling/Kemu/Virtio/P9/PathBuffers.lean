import Kemu.Virtio.P9.TableRules

/-!
# The path buffers of the fids

Four functions write into `abs_path` of a fid, each with a size computation
of its own: `find_or_create_fid`, `join_path`, the `snprintf` of
`virtio_p9_create` and, through `join_path`, `virtio_p9_fix_path`.  They all
leave the root in front, `path` behind it and a zero byte inside the buffer.

`virtio_p9_create` has a branch for a path that became too long, which stores
a zero one byte behind the buffer.  It is dead: `get_full_path` has formed
the same path before, with the root in front, in a buffer of the same size.
-/

namespace Kemu.Virtio.P9.PathBuffers

open Kemu.Lib.SearchTree
open Kemu.Lib.Transition
open Kemu.Virtio.P9.Fid
open Kemu.Virtio.P9.Path
open Kemu.Virtio.P9.Server
open Kemu.Virtio.P9.TableRules

/-! ## What the buffers hold -/

/--
`abs_path` starts with the root and `path` points behind it.  The first zero
byte of the buffer is the one that ends the string, and it is inside.
-/
structure Buffered (root : CString) (object : P9Fid) : Prop where
  rooted : root <+: object.absPath
  offset : object.pathOff = root.length
  text : 0 ∉ object.absPath
  terminated : object.absPath.length < pathMax

section Buffered

variable {root : CString} {object : P9Fid}

theorem Buffered.absPath (buffered : Buffered root object) :
    object.absPath = root ++ object.path := by
  rcases buffered.rooted with ⟨path, rooted⟩
  rw [P9Fid.path, buffered.offset, ← rooted, List.drop_left]

/-- Overwriting the string at `path` with one that fits. -/
theorem Buffered.setPath (buffered : Buffered root object) {name : CString}
    (clean : 0 ∉ name) (short : name.length < pathRoom object) :
    Buffered root (setPath object name) := by
  have written : (Path.setPath object name).absPath = root ++ name := by
    rw [Path.setPath, buffered.offset, buffered.absPath, List.take_left]
  rw [pathRoom, buffered.offset] at short
  have rootClean : 0 ∉ root := fun member =>
    buffered.text (buffered.rooted.subset member)
  refine ⟨?_, buffered.offset, ?_, ?_⟩
  · rw [written]
    exact List.prefix_append root name
  · rw [written, List.mem_append, not_or]
    exact ⟨rootClean, clean⟩
  · rw [written, List.length_append]
    omega

/-- The handlers' stores keep the buffers. -/
theorem buffered_rule (rootClean : 0 ∉ root) :
    StoreRule root (0 ∉ ·) (Buffered root) where
  texts :=
    { plain := fun _ clean => clean
      append := by
        intro first second firstClean secondClean
        rw [List.mem_append, not_or]
        exact ⟨firstClean, secondClean⟩
      part := fun _ _ within clean member =>
        clean (within.subset member) }
  created room _ := ⟨List.prefix_refl root, rfl, rootClean, room⟩
  path _ buffered member := buffered.text (List.mem_of_mem_drop member)
  behind object buffered :=
    buffered.offset.trans_le buffered.rooted.length_le
  other _ _ _ _ buffered :=
    ⟨buffered.rooted, buffered.offset, buffered.text,
      buffered.terminated⟩
  stored _ _ buffered clean short := buffered.setPath clean short

end Buffered

/-! ## Whole runs -/

/--
No buffer of the heap has been overrun, so that the objects of the fids are
what the handlers stored.  While the server runs, the buffer of every fid is
as it should be, and no `virtio_p9_create` would write behind the one of its
fid: it stops with an overrun only when reading the name has overrun the
name's own buffer.
-/
structure PathsInside (lib : Rebalancer FidNode) (root : CString)
    (state : P9State) : Prop where
  intact : state.corrupted = false
  fids :
    state.dead = false → ∀ obj object,
      state.table.heap obj = some object → Buffered root object
  create :
    state.dead = false → ∀ env dfid name after,
      virtioP9Create lib root env dfid name
          { state with asked := 0, looked := 0 } = .error .corrupt after →
        name = .overrun

/-- The objects are as stored, and the heap is. -/
structure Intact (root : CString) (state : P9State) : Prop where
  alive : StoredAlive (Buffered root) state
  intact : state.corrupted = false

section Runs

variable {lib : Rebalancer FidNode} {root : CString} {state : P9State}
  (rootClean : 0 ∉ root)

include rootClean

theorem Intact.inside (holds : Intact root state) :
    PathsInside lib root state := by
  have stored (living : state.dead = false) :
      Stored (Buffered root) state.table :=
    holds.alive.resolve_left (by simp [living])
  refine ⟨holds.intact, fun living => (stored living).objects, ?_⟩
  intro living env dfid name after stopped
  have handles :
      Handles (name = .overrun) (Stored (Buffered root))
        (virtioP9Create lib root env dfid name)
        (fun _ => Stored (Buffered root)) (Stored (Buffered root)) :=
    stored_create (buffered_rule rootClean) dfid id
  have ends :=
    handles { state with asked := 0, looked := 0 } (stored living)
  rw [stopped] at ends
  exact ends.2

theorem Intact.step (holds : Intact root state)
    {input : P9Env × P9Request} (fits : StringsFit input.2) :
    Intact root (virtioP9DoIoRequest lib root state input) :=
  ⟨holds.alive.step (buffered_rule rootClean) input,
    holds.alive.intact (buffered_rule rootClean) holds.intact fits⟩

end Runs

/--
For every root, every tree library and every run of requests with any
outcome of the host calls: if no string of a request has the length
`0xffff`, the path buffers are in order after every request.
-/
theorem paths_inside_throughout (lib : Rebalancer FidNode) {root : CString}
    (rootClean : 0 ∉ root) (inputs : List (P9Env × P9Request))
    (fit : ∀ input ∈ inputs, StringsFit input.2) :
    Throughout (virtioP9DoIoRequest lib root) (PathsInside lib root)
      p9Start inputs := by
  have start : Intact root p9Start := ⟨storedAlive_start, rfl⟩
  exact
    throughout_of_along (fun _ holds => holds.inside rootClean)
      (fun _ _ holds fits => holds.step rootClean fits)
      start (along_of_mem fit p9Start)

/-- `"/export"`. -/
def exportDir : CString := [47, 101, 120, 112, 111, 114, 116]

/-- A host that grants everything. -/
def granting : P9Env where
  host _ := { ret := 0, errno := 0, isDir := true, isReg := false }
  calloc _ := true
  strdup := true
  dirents := []

/-- Fid 0 is attached and then used to create `a`. -/
def attachCreate : List (P9Env × P9Request) :=
  [(granting, .attach 0 0 (.text []) (.text [])),
    (granting, .create 0 (.text [97]))]

/-- The created path is `/export//a`, and the buffers are in order. -/
theorem paths_inside_on_create :
    let lib := Rebalancer.plain FidNode
    ((run (virtioP9DoIoRequest lib exportDir) p9Start
          attachCreate).table.heap 0).map P9Fid.absPath =
        some (exportDir ++ [47, 47, 97]) ∧
      Throughout (virtioP9DoIoRequest lib exportDir)
        (PathsInside lib exportDir) p9Start attachCreate :=
  ⟨by decide +kernel,
    paths_inside_throughout _ (by decide) attachCreate
      (by simp [attachCreate, StringsFit])⟩

/-- Fid 0 is attached; then comes a version of length `0xffff`. -/
def attachVersion : List (P9Env × P9Request) :=
  [(granting, .attach 0 0 (.text []) (.text [])),
    (granting, .version .overrun)]

/--
What follows the version in its message is copied over what lies behind a
chunk of `malloc(0)`, where the object of fid 0 may be.
-/
theorem paths_overrun_by_version :
    ¬ Throughout (virtioP9DoIoRequest (Rebalancer.plain FidNode) exportDir)
      (PathsInside (Rebalancer.plain FidNode) exportDir) p9Start
      attachVersion := by
  intro inside
  have last := inside.2.2.intact
  revert last
  decide +kernel

end Kemu.Virtio.P9.PathBuffers
