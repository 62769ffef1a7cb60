import Kemu.Virtio.P9.ReaddirPages

/-!
# The qids of directory entries

An entry comes with a qid, and walking to it gives one.  The handler for
directories looks the bare name up in the exported directory, that for walks
the name behind the path of the fid.  The reply to a walk has zeros for the
first two bytes of its qid besides.
-/

namespace Kemu.Virtio.P9.ReaddirQids

open Kemu.Lib.Bytes
open Kemu.Lib.SearchTree
open Kemu.Virtio.P9.Fid
open Kemu.Virtio.P9.Path
open Kemu.Virtio.P9.TableRules
open Kemu.Virtio.P9.Server hiding statRel walkLoop virtioP9Walk
  virtioP9ErrorReply readdirLoop virtioP9Readdir eInval
open Kemu.Virtio.P9.Pdu
open Kemu.Virtio.P9.Atomicity
open Kemu.Virtio.P9.Walk
open Kemu.Virtio.P9.WalkReply
open Kemu.Virtio.P9.Readdir
open Kemu.Virtio.P9.ReaddirPages

/-! ## Qids in replies -/

/-- The bytes of a qid at a place of a reply. -/
def qidAt (reply : List UInt8) (place : Nat) : List UInt8 :=
  (reply.drop place).take 13

/-- Where a reply to a walk has its first qid. -/
def wqidPlace : Nat :=
  virtio9pHdrLen + 2

/--
The name of an entry exists in the exported directory; it is not that of a
directory, and its qid starts with zeros and goes on like that of what is
behind the path.
-/
def Coincide (root : CString) (host : Host) (path name : CString) : Prop :=
  ∃ fullPath file below,
    getFullPathHelper root name = .ok fullPath ∧
      host.lstat fullPath = some file ∧
      host.lstat (root ++ slash :: (path ++ slash :: name)) =
        some below ∧
      sIsDir file.stMode = false ∧
      (stat2qid file).version.toNat % 256 = 0 ∧
      (stat2qid file).version.toNat / 256 =
        (stat2qid below).version.toNat / 256 ∧
      file.stIno = below.stIno

section Wire

theorem wire_qid_eq (qid : P9Qid) :
    wire qid.fields =
      [qid.type, .ofNat qid.version.toNat] ++
        (toLe 3 (qid.version.toNat / 256) ++ toLe 8 qid.path.toNat) := by
  simp [wire, P9Qid.fields, Field.wire, toLe]

/-- When a qid is another one with two zeros in front. -/
theorem wire_qid_zeros_iff (file below : Stat) :
    wire (stat2qid file).fields =
        [0, 0] ++ (wire (stat2qid below).fields).drop 2 ↔
      sIsDir file.stMode = false ∧
        (stat2qid file).version.toNat % 256 = 0 ∧
        (stat2qid file).version.toNat / 256 =
          (stat2qid below).version.toNat / 256 ∧
        file.stIno = below.stIno := by
  have high (st : Stat) : (stat2qid st).version.toNat / 256 < 256 ^ 3 := by
    have word := (stat2qid st).version.toNat_lt
    omega
  have ino (st : Stat) : (stat2qid st).path.toNat < 256 ^ 8 :=
    (stat2qid st).path.toNat_lt
  have paths :
      (stat2qid file).path.toNat = (stat2qid below).path.toNat ↔
        file.stIno = below.stIno :=
    UInt64.toNat_inj
  have two (front : List UInt8) (length : front.length = 2) (back) :
      (front ++ back : List UInt8).drop 2 = back :=
    List.drop_left' length
  have heads :
      [(stat2qid file).type, .ofNat (stat2qid file).version.toNat].length =
        ([0, 0] : List UInt8).length :=
    rfl
  have highs :
      (toLe 3 ((stat2qid file).version.toNat / 256)).length =
        (toLe 3 ((stat2qid below).version.toNat / 256)).length := by
    rw [toLe_length, toLe_length]
  rw [wire_qid_eq, wire_qid_eq, two _ rfl,
    List.append_eq_append_iff_of_size_eq_left heads, qid_zero_iff,
    List.append_eq_append_iff_of_size_eq_left highs, toLe_inj (high _) (high _), toLe_inj (ino _) (ino _), paths, and_assoc]

variable {root : CString} {host : Host}

/-- An entry that is not found has a version that ends in other than zero. -/
theorem coincide_iff {path name : CString} {below : Stat}
    (stored :
      host.lstat (root ++ slash :: (path ++ slash :: name)) =
        some below) :
    wire (stat2qid (direntStat root host name)).fields =
        [0, 0] ++ (wire (stat2qid below).fields).drop 2 ↔
      Coincide root host path name := by
  have missing : (stat2qid statUnknown).version.toNat % 256 ≠ 0 := by
    decide
  rw [wire_qid_zeros_iff]
  constructor
  · rintro ⟨regular, zero, high, ino⟩
    rw [direntStat] at regular zero high ino
    cases formed : getFullPathHelper root name with
    | error number =>
        rw [formed] at zero
        exact absurd zero missing
    | ok fullPath =>
        rw [formed] at regular zero high ino
        dsimp only at regular zero high ino
        cases seen : host.lstat fullPath with
        | none =>
            rw [seen] at zero
            exact absurd zero missing
        | some file =>
            rw [seen] at regular zero high ino
            exact ⟨fullPath, file, below, formed, seen, stored, regular, zero,
              high, ino⟩
  · rintro ⟨fullPath, file, other, formed, seen, same, goes⟩
    rw [stored] at same
    cases same
    have found : direntStat root host name = file := by
      rw [direntStat, formed]
      dsimp only
      rw [seen]
      rfl
    rw [found]
    exact goes

end Wire

/-! ## The two requests -/

section Requests

variable {malloc : Malloc} {lib : Rebalancer FidNode} {root : CString}
  {env other : P9Env} {host : Host} {stats : Nat → Stat}
  {listing walking : WalkState}

/-- The qid that comes with an entry for which there is room. -/
theorem readdir_qid (list : Treaddir lib root env listing)
    {front back : List DirEntry} {dent : DirEntry}
    (entries : list.behind host = front ++ dent :: back)
    (counted :
      direntsSize (front ++ [dent]) ≤ list.count.toNat)
    (room :
      direntPlace + direntsSize (front ++ [dent]) ≤ list.room) :
    ∃ value after,
      virtioP9Readdir lib root env host listing = .ok value after ∧
        qidAt after.pdu.inIov.flatten (direntPlace + direntsSize front) =
          wire (stat2qid (direntStat root host dent.dName)).fields := by
  obtain ⟨after, ran, -, bytes⟩ :=
    virtioP9Readdir_runs list host (by omega)
  refine ⟨_, after, ran, ?_⟩
  have covers : front ++ [dent] <+: list.dents host := by
    rw [Treaddir.dents, entries, List.append_cons front dent back]
    refine taken_covers list.count.toNat_lt ?_ ?_
    · rw [Nat.zero_add]
      exact counted
    · omega
  obtain ⟨rest, split⟩ := covers
  have short := list.short (list.dents_prefix host)
  rw [← split] at short bytes
  let qid : List UInt8 :=
    wire (stat2qid (direntStat root host dent.dName)).fields
  have length : qid.length = 13 := wire_qid_length _
  have before : (direntsWire root host front).length = direntsSize front :=
    direntsWire_length root host fun earlier member =>
      short earlier
        (List.mem_append_left _ (List.mem_append_left _ member))
  have layout :
      direntsWire root host (front ++ [dent] ++ rest) =
        direntsWire root host front ++
          (qid ++
            (wire [.q dent.dOff, .b dent.dType, .s (some dent.dName)] ++
              direntsWire root host rest)) := by
    rw [direntsWire_append, direntsWire_append, direntsWire_singleton,
      direntWire_eq, List.append_assoc, List.append_assoc]
  rw [direntsSize_append, direntsSize_singleton, virtioP9DentrySize] at room
  rw [qidAt, ← List.drop_drop, bytes, layout, patch_slice,
    List.drop_left' before, List.take_left' length]
  · rw [List.length_append, List.length_append, before, length]
    omega
  · show _ ≤ list.room
    omega

variable (malloc stats) in
/-- The first qid of a reply to a walk of one name. -/
theorem walk_qid (walk : Twalk lib root other walking) {name : CString}
    (named : walk.names = [name]) {turns : Nat} (many : pathMax < turns)
    (room : wqidPlace + 13 ≤ walking.pdu.inIov.flatten.length) :
    ∃ value after,
      virtioP9Walk malloc lib root other stats turns walking =
          .ok value after ∧
        qidAt after.pdu.inIov.flatten wqidPlace =
          [0, 0] ++ (wire (stat2qid (stats 0)).fields).drop 2 := by
  have one : walk.names.length = 1 := by
    rw [named, List.length_singleton]
  obtain ⟨now, pdu, -, ran, bytes⟩ :=
    virtioP9Walk_runs stats malloc walk many (one ▸ room) (by omega)
  have first :
      qids stats 1 = wire (stat2qid (stats 0)).fields := by
    rw [qids_succ]
    rfl
  rw [one] at bytes
  have body :
      (pdu.inIov.flatten.drop virtio9pHdrLen).take (2 + 13 * (0 + 1)) =
        toLe 2 (0 + 1) ++ ([0, 0] ++ (qids stats (0 + 1)).drop 2) := by
    rw [bytes]
    exact counted_qids room (by decide)
  rw [Nat.zero_add, first] at body
  have behind := congrArg (List.drop 2) body
  rw [List.drop_take, List.drop_drop, List.drop_left' (toLe_length ..)]
    at behind
  exact ⟨_, _, ran, behind⟩

/-- A qid has room where it is. -/
theorem room_of_qidAt {reply : List UInt8} {place : Nat}
    (whole : (qidAt reply place).length = 13) :
    place + 13 ≤ reply.length := by
  rw [qidAt, List.length_take, List.length_drop] at whole
  omega

variable (malloc) in
/--
An entry and a walk to it have the same qid if and only if the reply to the
walk has room for one, and the name of the entry, without the path of its
directory, is in the exported directory that of a file with this qid.
-/
theorem qids_agree_iff (list : Treaddir lib root env listing)
    (walk : Twalk lib root other walking) {front back : List DirEntry}
    {dent : DirEntry} (entries : list.behind host = front ++ dent :: back)
    (counted :
      direntsSize (front ++ [dent]) ≤ list.count.toNat)
    (room :
      direntPlace + direntsSize (front ++ [dent]) ≤ list.room)
    (named : walk.names = [dent.dName])
    (path : walk.source.path = list.object.path)
    (stored :
      host.lstat
          (root ++
            slash :: walkedPath walk.source.path (nameAt walk.names) 1) =
        some (stats 0))
    {turns : Nat} (many : pathMax < turns) :
    (∃ value listed outlen walked,
        virtioP9Readdir lib root env host listing = .ok value listed ∧
          virtioP9Walk malloc lib root other stats turns walking =
              .ok outlen walked ∧
            qidAt listed.pdu.inIov.flatten
                (direntPlace + direntsSize front) =
              qidAt walked.pdu.inIov.flatten wqidPlace) ↔
      wqidPlace + 13 ≤ walking.pdu.inIov.flatten.length ∧
        Coincide root host list.object.path dent.dName := by
  have one : walk.names.length = 1 := by
    rw [named, List.length_singleton]
  have name :
      printed (text (nameAt walk.names 0)) = dent.dName := by
    rw [walk.printed_name (by omega)]
    simp [named]
  rw [walkedPath, walkedPath, name, path] at stored
  obtain ⟨value, listed, ran, reported⟩ :=
    readdir_qid list entries counted room
  constructor
  · rintro ⟨_, _, outlen, walked, same, went, agree⟩
    rw [ran] at same
    cases same
    rw [reported] at agree
    have roomy : wqidPlace + 13 ≤ walking.pdu.inIov.flatten.length := by
      have keeps : SameRoom (virtioP9Walk malloc lib root other stats turns) :=
        virtioP9Walk_room turns
      have kept := keeps _ walking rfl
      rw [went] at kept
      rw [← kept.1]
      exact room_of_qidAt (agree ▸ wire_qid_length _)
    obtain ⟨_, _, again, gave⟩ :=
      walk_qid malloc stats walk named many roomy
    rw [went] at again
    cases again
    rw [gave, coincide_iff stored] at agree
    exact ⟨roomy, agree⟩
  · rintro ⟨roomy, coincide⟩
    obtain ⟨outlen, walked, went, gave⟩ :=
      walk_qid malloc stats walk named many roomy
    refine ⟨value, listed, outlen, walked, ran, went, ?_⟩
    rw [reported, gave]
    exact (coincide_iff stored).mpr coincide

end Requests

/-! ## A file in two directories -/

/-- The file `a`. -/
def fileStat : Stat :=
  ⟨5, 0x10200, 0o100644⟩

/-- The stream of a directory with the file `a`. -/
def oneFile : DirStream where
  entries := [⟨5, 8, [97]⟩]
  stray _ := 0
  distinct := by decide
  short := by decide

/-- A host that knows the file by some paths. -/
def hostOf (paths : List CString) : Host where
  lstat path := if path ∈ paths then some fileStat else none
  dirs _ := oneFile

/-- A request to walk from the directory to `a`, with 22 bytes to reply. -/
def askWalk (path : CString) : WalkState where
  server := directoryOpen path
  pdu :=
    { outIov :=
        [[20, 0, 0, 0, 110, 1, 0] ++ [0, 0, 0, 0] ++ [1, 0, 0, 0] ++
          [1, 0] ++ [1, 0, 97]]
      inIov := [List.replicate 22 0xff]
      readOffset := virtio9pHdrLen
      writeOffset := virtio9pHdrLen
      stack := fun _ => 0 }
  strings := 0

theorem openedAt_shaped {path : CString} (short : path.length < 4000) :
    Shaped exported (openedAt path) := by
  have fresh : Shaped exported (Fid.newFid exported 0) :=
    ⟨rfl, Nat.le_refl _, by decide⟩
  have joined : Shaped exported (setPath (Fid.newFid exported 0) path) :=
    fresh.setPath (Nat.lt_trans short (by decide))
  exact joined.congr 0 (some 0) 0

theorem directoryOpen_heap (path : CString) (obj : Nat) :
    (directoryOpen path).table.heap obj =
      if obj = 0 then some (openedAt path) else none := by
  show
    Function.update
        (Function.update (fun _ => none) 0
          (some (Fid.newFid exported 0))) 0 (some (openedAt path)) obj = _
  rw [Function.update_idem, Function.update_apply]

theorem directoryOpen_tidy {path : CString} (short : path.length < 4000) :
    Tidy exported (directoryOpen path).table := by
  constructor
  · intro obj beyond
    have other : obj ≠ 0 := Nat.ne_of_gt beyond
    rw [directoryOpen_heap, if_neg other]
  · intro obj object there
    rw [directoryOpen_heap] at there
    split at there
    · cases there
      exact openedAt_shaped short
    · cases there

/-- The table with a second fid. -/
def directoryAnd (path : CString) : FidTable where
  tree := .node .leaf ⟨0, 0⟩ (.node .leaf ⟨1, 1⟩ .leaf)
  heap :=
    Function.update (directoryOpen path).table.heap 1
      (some (Fid.newFid exported 1))
  next := 2

theorem directoryAnd_heap (path : CString) (obj : Nat) :
    (directoryAnd path).heap obj =
      if obj = 1 then
        some (Fid.newFid exported 1)
      else
        (directoryOpen path).table.heap obj :=
  Function.update_apply ..

theorem directoryAnd_found (path : CString) :
    findOrCreateFid (.plain _) exported true (directoryOpen path).table 1 =
      (directoryAnd path, some ⟨1, 1⟩) := by
  have tree : (directoryOpen path).table.tree = .node .leaf ⟨0, 0⟩ .leaf :=
    rfl
  have next : (directoryOpen path).table.next = 1 := rfl
  have missing :
      (directoryOpen path).table.tree.search (lookupOrder 1) = none :=
    rfl
  have small : ¬ exported.length ≥ pathMax := by decide
  have order : insertOrder 1 ⟨0, 0⟩ = .gt := by decide
  rw [findOrCreateFid, missing]
  simp only [Bool.not_true, Bool.false_eq_true, if_false, if_neg small,
    insertNewFid, tree, TreeOf.attach, order, next]
  rfl

theorem fileNames_counted : [([97] : CString)].length < 65536 := by
  decide

theorem fileNames_clean : ∀ name ∈ [([97] : CString)], (0 : UInt8) ∉ name := by
  decide

/-- The request, when the path of the file is none to be refused. -/
def walkToFile (path : CString) (short : path.length < 4000)
    (legal :
      ∃ fullPath,
        getFullPathHelper exported (path ++ slash :: [97]) =
          .ok fullPath) :
    Twalk (.plain _) exported (answering 0 0) (askWalk path) where
  fid := 0
  newfid := 1
  names := [[97]]
  rest := []
  newNode := ⟨1, 1⟩
  node := ⟨0, 0⟩
  between := directoryAnd path
  table := directoryAnd path
  target := Fid.newFid exported 1
  source := openedAt path
  tidy := directoryOpen_tidy short
  asked := rfl
  looked := rfl
  strings := rfl
  writeOffset := rfl
  counted := fileNames_counted
  message := rfl
  clean := fileNames_clean
  newFid := directoryAnd_found path
  oldFid := rfl
  there := directoryAnd_heap path 1
  origin := directoryAnd_heap path 0
  passes := by
    intro turn within
    obtain rfl : turn = 0 := Nat.lt_one_iff.mp within
    exact ⟨legal, by decide⟩

/-- The file is in the exported directory, by the paths it is looked up with. -/
def hostOfRoot : Host :=
  hostOf [[47, 114, 47, 97], [47, 114, 47, 47, 47, 97]]

/-- The exported directory is read, and walked from. -/
theorem qids_agree_in_root :
    ∃ value listed outlen walked,
      virtioP9Readdir (.plain _) exported directories hostOfRoot
            (askDirectory [47] 0 100 111) =
          .ok value listed ∧
        virtioP9Walk plainMalloc (.plain _) exported (answering 0 0)
              (fun _ => fileStat) 4097 (askWalk [47]) =
            .ok outlen walked ∧
          qidAt listed.pdu.inIov.flatten (direntPlace + direntsSize []) =
            qidAt walked.pdu.inIov.flatten wqidPlace := by
  let walk := walkToFile [47] (by decide) ⟨_, rfl⟩
  have entries :
      (readDirectory [47] 0 100 111).behind hostOfRoot =
        [] ++ ⟨5, 8, [97]⟩ :: [] :=
    rfl
  have coincide : Coincide exported hostOfRoot [47] [97] :=
    ⟨_, fileStat, fileStat, rfl, by decide, by decide, by decide⟩
  have stored :
      hostOfRoot.lstat
          (exported ++
            slash :: walkedPath walk.source.path (nameAt walk.names) 1) =
        some fileStat := by
    show hostOfRoot.lstat [47, 114, 47, 47, 47, 97] = some fileStat
    decide
  exact
    (qids_agree_iff plainMalloc (readDirectory [47] 0 100 111) walk entries
      (by decide) (by decide) rfl rfl stored (by decide)).mpr
      ⟨by decide, coincide⟩

/-- The file is in the directory `d`, and not in the exported one. -/
def hostOfNested : Host :=
  hostOf [[47, 114, 47, 47, 100, 47, 97]]

/-- The walk finds the file; the entry has a qid of ones. -/
theorem nested_qids_differ :
    ∃ value listed outlen walked,
      virtioP9Readdir (.plain _) exported directories hostOfNested
            (askDirectory [47, 100] 0 100 111) =
          .ok value listed ∧
        virtioP9Walk plainMalloc (.plain _) exported (answering 0 0)
              (fun _ => fileStat) 4097 (askWalk [47, 100]) =
            .ok outlen walked ∧
          hostOfNested.lstat
                (exported ++ slash :: ([47, 100] ++ slash :: [97])) =
              some fileStat ∧
            qidAt listed.pdu.inIov.flatten (direntPlace + direntsSize []) =
              0 :: List.replicate 12 0xff ∧
            qidAt walked.pdu.inIov.flatten wqidPlace =
              [0, 0, 2, 1, 0, 5, 0, 0, 0, 0, 0, 0, 0] := by
  let walk := walkToFile [47, 100] (by decide) ⟨_, rfl⟩
  have entries :
      (readDirectory [47, 100] 0 100 111).behind hostOfNested =
        [] ++ ⟨5, 8, [97]⟩ :: [] :=
    rfl
  obtain ⟨value, listed, ran, reported⟩ :=
    readdir_qid (readDirectory [47, 100] 0 100 111) entries (by decide)
      (by decide)
  obtain ⟨outlen, walked, went, gave⟩ :=
    walk_qid plainMalloc (fun _ => fileStat) walk
      (rfl : walk.names = [[97]]) (by decide : pathMax < 4097) (by decide)
  refine ⟨value, listed, outlen, walked, ran, went, by decide,
    reported.trans ?_, gave.trans ?_⟩
  · decide
  · decide

end Kemu.Virtio.P9.ReaddirQids
