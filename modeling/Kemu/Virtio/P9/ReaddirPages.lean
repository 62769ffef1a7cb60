import Kemu.Lib.Paging
import Kemu.Virtio.P9.Readdir

/-!
# Directories in pages

A client reads a directory by one request after the other.  It starts with
the place 0 and goes on with the place of the last entry it was given, until
a reply has no entry.

What does not fit into the buffers of a reply is left out without notice, so
an entry may be cut off.
-/

namespace Kemu.Virtio.P9.ReaddirPages

open Kemu.Lib.Bytes
open Kemu.Lib.Paging
open Kemu.Lib.SearchTree
open Kemu.Virtio.P9.Fid
open Kemu.Virtio.P9.Path
open Kemu.Virtio.P9.TableRules
open Kemu.Virtio.P9.Server hiding statRel walkLoop virtioP9Walk
  virtioP9ErrorReply readdirLoop virtioP9Readdir eInval
open Kemu.Virtio.P9.Pdu
open Kemu.Virtio.P9.Walk
open Kemu.Virtio.P9.WalkReply
open Kemu.Virtio.P9.Readdir

/-! ## The client -/

/-- The number of bytes that a reply says it has. -/
def rcountOf (reply : List UInt8) : Nat :=
  ofLe ((reply.drop virtio9pHdrLen).take 4)

/-- These bytes. -/
def payloadOf (reply : List UInt8) : List UInt8 :=
  (reply.drop direntPlace).take (rcountOf reply)

/-- The places of the entries, up to a number of entries. -/
def offsetsIn : Nat → List UInt8 → List UInt64
  | 0, _ => []
  | turns + 1, payload =>
      if payload.length < 24 then
        []
      else
        .ofNat (ofLe ((payload.drop 13).take 8)) ::
          offsetsIn turns
            (payload.drop (24 + ofLe ((payload.drop 22).take 2)))

/-- The place to go on from. -/
def lastOffset (payload : List UInt8) : Option UInt64 :=
  (offsetsIn payload.length payload).getLast?

/-- There is no entry in so few bytes. -/
theorem lastOffset_few {payload : List UInt8} (few : payload.length < 24) :
    lastOffset payload = none := by
  rw [lastOffset]
  cases payload.length with
  | zero => rfl
  | succ turns => rw [offsetsIn, if_pos few, List.getLast?_nil]

section Client

variable {root : CString} {host : Host}

variable (root host) in
/-- What a client needs of an entry. -/
theorem direntWire_layout {dent : DirEntry}
    (short : dent.dName.length ≤ nameMax) :
    ∃ qid : List UInt8,
      qid.length = 13 ∧
        direntWire root host dent =
          qid ++ (toLe 8 dent.dOff.toNat ++
            ([dent.dType] ++
              (toLe 2 dent.dName.length ++ dent.dName))) := by
  have len : stringLen (some dent.dName) = dent.dName.length :=
    Nat.min_eq_left (Nat.le_trans short (by decide))
  refine ⟨_, wire_qid_length (stat2qid (direntStat root host dent.dName)), ?_⟩
  rw [direntWire_eq, List.append_right_inj]
  simp only [wire_cons, wire_nil, Field.wire, len, Option.getD_some,
    List.take_length, List.append_nil]

theorem offsetsIn_cons {dent : DirEntry}
    (short : dent.dName.length ≤ nameMax) (rest : List UInt8)
    (turns : Nat) :
    offsetsIn (turns + 1) (direntWire root host dent ++ rest) =
      dent.dOff :: offsetsIn turns rest := by
  have size : (direntWire root host dent).length = 24 + dent.dName.length :=
    direntWire_length root host short
  have many : ¬ (direntWire root host dent ++ rest).length < 24 := by
    rw [List.length_append, size]
    omega
  obtain ⟨qid, length, layout⟩ := direntWire_layout root host short
  have place :
      ((direntWire root host dent ++ rest).drop 13).take 8 =
        toLe 8 dent.dOff.toNat := by
    rw [layout, List.append_assoc, List.drop_left' length,
      List.append_assoc, List.take_left' (toLe_length ..)]
  have name :
      ((direntWire root host dent ++ rest).drop 22).take 2 =
        toLe 2 dent.dName.length := by
    have split : direntWire root host dent ++ rest =
        (qid ++ toLe 8 dent.dOff.toNat ++ [dent.dType]) ++
          (toLe 2 dent.dName.length ++ (dent.dName ++ rest)) := by
      rw [layout]
      simp only [List.append_assoc]
    have front :
        (qid ++ toLe 8 dent.dOff.toNat ++ [dent.dType]).length = 22 := by
      rw [List.length_append, List.length_append, length, toLe_length,
        List.length_singleton]
    rw [split, List.drop_left' front, List.take_left' (toLe_length ..)]
  have small : dent.dName.length < 256 ^ 2 :=
    Nat.lt_of_le_of_lt short (by decide)
  have word : dent.dOff.toNat < 256 ^ 8 := dent.dOff.toNat_lt
  rw [offsetsIn, if_neg many, place, name, ofLe_toLe, ofLe_toLe,
    Nat.mod_eq_of_lt small, Nat.mod_eq_of_lt word, UInt64.ofNat_toNat,
    List.drop_left' size]

/-- A client finds the places of the entries. -/
theorem offsetsIn_direntsWire {dents : List DirEntry}
    (short : ∀ dent ∈ dents, dent.dName.length ≤ nameMax) {turns : Nat}
    (many : dents.length ≤ turns) :
    offsetsIn turns (direntsWire root host dents) =
      dents.map DirEntry.dOff := by
  induction dents generalizing turns with
  | nil =>
      cases turns with
      | zero => rfl
      | succ turns => rfl
  | cons dent rest induction =>
      cases turns with
      | zero => exact absurd many (Nat.not_succ_le_zero _)
      | succ turns =>
          have others :=
            induction (List.forall_mem_cons.mp short).2
              (Nat.le_of_succ_le_succ many)
          rw [List.map_cons, ← others]
          exact offsetsIn_cons (short dent List.mem_cons_self) _ turns

theorem lastOffset_direntsWire {dents : List DirEntry}
    (short : ∀ dent ∈ dents, dent.dName.length ≤ nameMax) :
    lastOffset (direntsWire root host dents) =
      (dents.map DirEntry.dOff).getLast? := by
  rw [lastOffset, direntsWire_length root host short,
    offsetsIn_direntsWire short (length_le_direntsSize dents)]

end Client

/-! ## Pages -/

/-- A request about an open directory, and what the host answers. -/
structure Page (lib : Rebalancer FidNode) (root : CString) (dir : Nat)
    where
  env : P9Env
  state : WalkState
  request : Treaddir lib root env state
  same : request.dir = dir

section Pages

variable {lib : Rebalancer FidNode} {root : CString} {dir : Nat}
  (host : Host)

/-- The bytes of the reply to a page. -/
def Page.reply (page : Page lib root dir) : List UInt8 :=
  match virtioP9Readdir lib root page.env host page.state with
  | .ok _ after => after.pdu.inIov.flatten
  | .error _ after => after.pdu.inIov.flatten

/-- The entries in the reply to a page, as bytes. -/
def Page.payload (page : Page lib root dir) : List UInt8 :=
  payloadOf (page.reply host)

/-- A reply that has some entries, and no more than it was asked for. -/
structure Page.Lists (page : Page lib root dir) (part : List DirEntry) :
    Prop where
  replies :
    ∃ cursor after,
      virtioP9Readdir lib root page.env host page.state =
        .ok
          (.ofNat direntPlace + .ofNat (rcountOf (page.reply host)),
            cursor)
          after
  counted : rcountOf (page.reply host) ≤ page.request.count.toNat
  length : (page.payload host).length = rcountOf (page.reply host)
  payload : page.payload host = direntsWire root host part

/-- Requests one after the other, from a place on. -/
def Session : UInt64 → List (Page lib root dir) → Prop
  | _, [] => True
  | offset, page :: rest =>
      page.request.offset = offset ∧
        match lastOffset (page.payload host) with
        | some next => Session next rest
        | none => rest = []

/-- The count is at least the size of every entry. -/
def Page.Large (page : Page lib root dir) : Prop :=
  ∀ dent ∈ (host.dirs dir).entries,
    virtioP9DentrySize dent ≤ page.request.count.toNat

/--
The buffers of a reply hold all entries that the count allows, and the sum
with the next one is a number of 32 bits; or they end where such an entry
does.
-/
def Page.Fits (page : Page lib root dir) : Prop :=
  direntPlace ≤ page.request.room ∧
    ((∀ front, front <+: page.request.behind host →
          direntsSize front ≤ page.request.count.toNat →
          direntPlace + direntsSize front ≤ page.request.room ∧
            ∀ dent, front ++ [dent] <+: page.request.behind host →
              direntsSize (front ++ [dent]) < 2 ^ 32) ∨
      ∃ front, front ≠ [] ∧ front <+: page.request.behind host ∧
        direntsSize front ≤ page.request.count.toNat ∧
          direntPlace + direntsSize front = page.request.room)

variable {host}

/-- Buffers for as many bytes as asked for are enough. -/
theorem Page.fits_of_room {page : Page lib root dir}
    (room :
      direntPlace + page.request.count.toNat ≤ page.request.room)
    (small : page.request.count.toNat + 24 + nameMax < 2 ^ 32) :
    page.Fits host := by
  refine ⟨by omega, Or.inl fun front _ counted => ⟨by omega, ?_⟩⟩
  intro dent starts
  have member : dent ∈ (host.dirs page.request.dir).entries := by
    refine List.mem_of_mem_drop (starts.subset ?_)
    exact List.mem_append_right _ List.mem_cons_self
  have short := (host.dirs page.request.dir).short dent member
  rw [direntsSize_append, direntsSize_singleton, virtioP9DentrySize]
  omega

variable (host) in
/-- The reply says how much was filled, and has that much. -/
theorem Page.reply_spec (page : Page lib root dir)
    (room : direntPlace ≤ page.request.room) :
    (∃ cursor after,
        virtioP9Readdir lib root page.env host page.state =
          .ok
            (.ofNat direntPlace + .ofNat (rcountOf (page.reply host)),
              cursor)
            after) ∧
      rcountOf (page.reply host) =
          filled page.request.room (page.request.dents host) % 2 ^ 32 ∧
        page.payload host =
          (direntsWire root host (page.request.dents host)).take
            (rcountOf (page.reply host)) := by
  obtain ⟨after, ran, count, bytes⟩ :=
    virtioP9Readdir_runs page.request host room
  let most : Nat := filled page.request.room (page.request.dents host)
  have reply : page.reply host = after.pdu.inIov.flatten := by
    rw [Page.reply, ran]
  have word : (UInt32.ofNat most).toNat = most % 2 ^ 32 :=
    UInt32.toNat_ofNat'
  have rcount : rcountOf (page.reply host) = most % 2 ^ 32 := by
    have small : (UInt32.ofNat most).toNat < 256 ^ 4 :=
      (UInt32.ofNat most).toNat_lt
    rw [rcountOf, reply, count, ofLe_toLe, Nat.mod_eq_of_lt small, word]
  refine ⟨?_, rcount, ?_⟩
  · rw [rcount, ← word, UInt32.ofNat_toNat]
    exact ⟨_, after, ran⟩
  · have length :=
      direntsWire_length root host
        (page.request.short (page.request.dents_prefix host))
    have less : most % 2 ^ 32 ≤ most := Nat.mod_le ..
    have inside : most ≤ direntsSize (page.request.dents host) :=
      Nat.min_le_left ..
    have within : most ≤ page.request.room - direntPlace :=
      Nat.min_le_right ..
    rw [Page.payload, payloadOf, rcount, reply, bytes, patch_drop_take]
    · omega
    · show _ ≤ page.request.room
      omega

/-- A page whose reply ends where an entry does lists the entries. -/
theorem Page.lists_of_filled {page : Page lib root dir}
    {part : List DirEntry} (room : direntPlace ≤ page.request.room)
    (counted : direntsSize part ≤ page.request.count.toNat)
    (starts : part <+: page.request.dents host)
    (most :
      filled page.request.room (page.request.dents host) =
        direntsSize part) :
    page.Lists host part := by
  obtain ⟨replies, rcount, payload⟩ := page.reply_spec host room
  have small := page.request.count.toNat_lt
  rw [most, Nat.mod_eq_of_lt (by omega)] at rcount
  have length :=
    direntsWire_length root host
      (page.request.short
        (starts.trans (page.request.dents_prefix host)))
  have whole : page.payload host = direntsWire root host part := by
    obtain ⟨rest, same⟩ := starts
    rw [payload, ← same, direntsWire_append, rcount,
      List.take_left' length]
  refine ⟨replies, ?_, ?_, whole⟩
  · rw [rcount]
    exact counted
  · rw [whole, length, rcount]

/-- Every page that fits lists some of the entries that are left. -/
theorem Page.lists_part {page : Page lib root dir} (fits : page.Fits host)
    (large : page.Large host) :
    ∃ part back,
      page.request.behind host = part ++ back ∧
        page.Lists host part ∧ (part = [] → back = []) := by
  obtain ⟨room, allowed | ⟨front, some, starts, counted, ends⟩⟩ := fits
  · have start := page.request.dents_prefix host
    have within (front : List DirEntry)
        (starts : front <+: page.request.behind host)
        (counted : direntsSize front ≤ page.request.count.toNat) :
        direntsSize front ≤ page.request.room - direntPlace := by
      have inside := (allowed front starts counted).1
      omega
    have counted :
        direntsSize (page.request.dents host) ≤
          page.request.count.toNat := by
      refine (Nat.zero_add _).ge.trans (taken_fits (Nat.zero_le _) ?_ ?_)
      · intro front starts counted
        rw [Nat.zero_add] at counted ⊢
        exact within front starts counted
      · intro front dent starts counted
        rw [Nat.zero_add] at counted ⊢
        exact (allowed front ((List.prefix_append ..).trans starts)
          counted).2 dent starts
    obtain ⟨back, same⟩ := start
    refine ⟨page.request.dents host, back, same.symm, ?_, ?_⟩
    · exact Page.lists_of_filled room counted (List.prefix_refl _)
        (Nat.min_eq_left (within _ ⟨back, same⟩ counted))
    · intro none
      rw [none, List.nil_append] at same
      cases back with
      | nil => rfl
      | cons dent rest =>
          have member : dent ∈ (host.dirs dir).entries := by
            rw [← page.same]
            exact List.mem_of_mem_drop (same ▸ List.mem_cons_self)
          have counted := large dent member
          rw [← direntsSize_singleton] at counted
          have one : [dent] <+: page.request.behind host := by
            rw [← same]
            exact List.prefix_append [dent] rest
          have covers : [dent] <+: page.request.dents host := by
            rw [Treaddir.dents, ← same]
            refine taken_covers page.request.count.toNat_lt ?_ ?_
            · rw [Nat.zero_add]
              exact counted
            · rw [Nat.zero_add]
              exact within [dent] one counted
          rw [none] at covers
          exact absurd covers.length_le (Nat.not_succ_le_zero _)
  · obtain ⟨back, same⟩ := starts
    refine ⟨front, back, same.symm, ?_, fun none => absurd none some⟩
    have covers : front <+: page.request.dents host := by
      rw [Treaddir.dents, ← same]
      refine taken_covers page.request.count.toNat_lt ?_ ?_
      · rw [Nat.zero_add]
        exact counted
      · omega
    refine Page.lists_of_filled room counted covers ?_
    obtain ⟨rest, more⟩ := covers
    rw [filled, ← more, direntsSize_append]
    omega

/-! ## Sessions -/

/-- Each answer of a session is a part of what is left. -/
theorem session_paged {pages : List (Page lib root dir)}
    {offset : UInt64} {earlier later : List DirEntry}
    (session : Session host offset pages)
    (entries : (host.dirs dir).entries = earlier ++ later)
    (place : (host.dirs dir).seekdir offset = earlier.length)
    (large : ∀ page ∈ pages, page.Large host)
    (fits : ∀ page ∈ pages, page.Fits host) :
    ∃ parts,
      List.Forall₂ (fun page part => page.Lists host part) pages parts ∧
        Paged later parts := by
  induction pages generalizing offset earlier later with
  | nil => exact ⟨[], .nil, .unasked later⟩
  | cons page rest induction =>
      obtain ⟨rfl, continued⟩ := session
      have behind : page.request.behind host = later := by
        rw [Treaddir.behind, page.same, place, entries, List.drop_left]
      obtain ⟨part, back, split, lists, none⟩ :=
        Page.lists_part (fits page List.mem_cons_self)
          (large page List.mem_cons_self)
      have short := page.request.short ⟨back, split.symm⟩
      rw [lists.payload, lastOffset_direntsWire short] at continued
      rw [behind] at split
      subst split
      rcases List.eq_nil_or_concat' part with rfl | ⟨init, last, rfl⟩
      · obtain rfl := none rfl
        obtain rfl : rest = [] := continued
        exact ⟨[[]], .cons lists .nil, .finished⟩
      · rw [List.map_append, List.map_singleton,
          List.getLast?_concat] at continued
        have further :
            (host.dirs dir).entries =
              (earlier ++ init) ++ last :: back := by
          rw [entries]
          simp
        have behind :
            (host.dirs dir).seekdir last.dOff =
              ((earlier ++ init) ++ [last]).length := by
          rw [seekdir_behind further]
          simp [Nat.add_assoc]
        obtain ⟨parts, listed, paged⟩ :=
          induction continued (further.trans (List.append_cons ..)) behind
            (List.forall_mem_cons.mp large).2 (List.forall_mem_cons.mp fits).2
        exact ⟨_ :: parts, .cons lists listed,
          .part
            (List.append_ne_nil_of_right_ne_nil _ (List.cons_ne_nil _ _))
            paged⟩

/--
Every reply of a session is well formed, and the replies have the entries of
the directory in order, each of them once.  The empty reply comes when there
are no more, after as many others as there are entries or fewer.

Bytes for which the buffers of a reply have no room are not written, so each
reply has to fit into them, or to be cut behind an entry.
-/
theorem session_lists {pages : List (Page lib root dir)}
    (session : Session host 0 pages)
    (large : ∀ page ∈ pages, page.Large host)
    (fits : ∀ page ∈ pages, page.Fits host) :
    ∃ parts,
      List.Forall₂ (fun page part => page.Lists host part) pages parts ∧
        parts.flatten <+: (host.dirs dir).entries ∧
        ([] ∈ parts → parts.flatten = (host.dirs dir).entries) ∧
        ((host.dirs dir).entries.length < pages.length → [] ∈ parts) := by
  obtain ⟨parts, listed, paged⟩ :=
    session_paged session (List.nil_append _).symm
      (seekdir_start (host.dirs dir)) large fits
  refine ⟨parts, listed, paged.flatten_prefix, paged.flatten_eq, ?_⟩
  intro many
  rw [listed.length_eq] at many
  exact paged.ends many

theorem Session.cons {page : Page lib root dir}
    {rest : List (Page lib root dir)} {offset next : UInt64}
    (start : page.request.offset = offset)
    (last : lastOffset (page.payload host) = some next)
    (later : Session host next rest) : Session host offset (page :: rest) := by
  refine ⟨start, ?_⟩
  rw [last]
  exact later

theorem Session.last {page : Page lib root dir} {offset : UInt64}
    (start : page.request.offset = offset)
    (last : lastOffset (page.payload host) = none) :
    Session host offset [page] := by
  refine ⟨start, ?_⟩
  rw [last]

end Pages

/-! ## Two entries -/

/-- The directory `/r`. -/
def exported : CString :=
  [47, 114]

/-- A directory that was opened, by its path in the exported one. -/
def openedAt (path : CString) : P9Fid :=
  { setPath (Fid.newFid exported 0) path with dir := some 0 }

/-- A server whose fid 0 is such a directory. -/
def directoryOpen (path : CString) : P9State :=
  { p9Start with
    table :=
      written (findOrCreateFid (.plain _) exported true .empty 0).1 ⟨0, 0⟩
        (openedAt path) }

/-- A request about that directory, and the room for a reply. -/
def askDirectory (path : CString) (offset : UInt64) (count : UInt32)
    (room : Nat) : WalkState where
  server := directoryOpen path
  pdu :=
    { outIov :=
        [[23, 0, 0, 0, 40, 1, 0] ++
          (toLe 4 0 ++ (toLe 8 offset.toNat ++ toLe 4 count.toNat))]
      inIov := [List.replicate room 0xff]
      readOffset := virtio9pHdrLen
      writeOffset := virtio9pHdrLen
      stack := fun _ => 0 }
  strings := 0

/-- A host on which everything is a directory. -/
def directories : P9Env where
  host _ := ⟨0, 0, true, false⟩
  calloc _ := true
  strdup := true
  dirents := []

def readDirectory (path : CString) (offset : UInt64) (count : UInt32)
    (room : Nat) :
    Treaddir (.plain _) exported directories
      (askDirectory path offset count room) where
  fid := 0
  offset := offset
  count := count
  rest := []
  node := ⟨0, 0⟩
  table := (directoryOpen path).table
  object := openedAt path
  dir := 0
  writeOffset := rfl
  message := by
    rw [List.append_nil]
    exact List.append_nil _
  found := rfl
  there := rfl
  isDir := rfl
  opened := rfl

/-- The files `a` and `b`. -/
def twoFiles : DirStream where
  entries := [⟨5, 8, [97]⟩, ⟨9, 8, [98]⟩]
  stray _ := 0
  distinct := by decide
  short := by decide

def hostOfTwo : Host where
  lstat _ := none
  dirs _ := twoFiles

def pageOfTwo (offset : UInt64) (count : UInt32) (room : Nat) :
    Page (.plain _) exported 0 where
  env := directories
  state := askDirectory [] offset count room
  request := readDirectory [] offset count room
  same := rfl

theorem pageOfTwo_large (offset : UInt64) (room : Nat) :
    (pageOfTwo offset 30 room).Large hostOfTwo := by
  show ∀ dent ∈ twoFiles.entries, virtioP9DentrySize dent ≤ 30
  decide

/-- A request for one entry, and the place to go on from. -/
theorem pageOfTwo_last {offset : UInt64} (part : List DirEntry)
    (dents : (pageOfTwo offset 30 41).request.dents hostOfTwo = part)
    (counted : direntsSize part ≤ 30) :
    lastOffset ((pageOfTwo offset 30 41).payload hostOfTwo) =
      (part.map DirEntry.dOff).getLast? := by
  have room : (pageOfTwo offset 30 41).request.room = 41 := rfl
  have within : direntPlace ≤ 41 := by decide
  have starts := (pageOfTwo offset 30 41).request.dents_prefix hostOfTwo
  have most : filled 41 part = direntsSize part := Nat.min_eq_left counted
  have lists : (pageOfTwo offset 30 41).Lists hostOfTwo part := by
    refine Page.lists_of_filled (room ▸ within) counted ?_ ?_
    · rw [dents]
    · rw [dents, room, most]
  rw [lists.payload]
  exact lastOffset_direntsWire
    ((pageOfTwo offset 30 41).request.short (dents ▸ starts))

/-- Three requests, each for one entry. -/
theorem session_lists_two_files :
    let pages := [0, 5, 9].map fun offset => pageOfTwo offset 30 41
    ∃ parts,
      List.Forall₂ (fun page part => page.Lists hostOfTwo part) pages
          parts ∧
        parts.flatten <+: twoFiles.entries ∧
        ([] ∈ parts → parts.flatten = twoFiles.entries) ∧
        (twoFiles.entries.length < pages.length → [] ∈ parts) := by
  intro pages
  have first :
      lastOffset ((pageOfTwo 0 30 41).payload hostOfTwo) = some 5 :=
    pageOfTwo_last [⟨5, 8, [97]⟩] rfl (by decide)
  have second :
      lastOffset ((pageOfTwo 5 30 41).payload hostOfTwo) = some 9 :=
    pageOfTwo_last [⟨9, 8, [98]⟩] rfl (by decide)
  have third : lastOffset ((pageOfTwo 9 30 41).payload hostOfTwo) = none :=
    pageOfTwo_last [] rfl (by decide)
  have session : Session hostOfTwo 0 pages :=
    .cons rfl first (.cons rfl second (.last rfl third))
  refine session_lists session ?_ ?_
  · exact List.forall_mem_map.mpr fun offset _ => pageOfTwo_large offset 41
  · refine List.forall_mem_map.mpr fun offset _ => ?_
    refine Page.fits_of_room ?_ ?_
    · show direntPlace + 30 ≤ [List.replicate 41 (0xff : UInt8)].flatten.length
      decide
    · show 30 + 24 + nameMax < 2 ^ 32
      decide

/--
The first entry needs 25 bytes.  A reply of 30 bytes has room for 19 behind
its count, and that is what it says and has.
-/
theorem short_reply_cuts_entry :
    ¬ ∀ pages : List (Page (.plain _) exported 0),
      Session hostOfTwo 0 pages →
      (∀ page ∈ pages, page.Large hostOfTwo) →
      ∃ parts,
        List.Forall₂ (fun page part => page.Lists hostOfTwo part) pages
            parts ∧
          parts.flatten <+: twoFiles.entries := by
  intro always
  let page : Page (.plain _) exported 0 := pageOfTwo 0 30 30
  have room : direntPlace ≤ page.request.room :=
    (by decide : direntPlace ≤ [List.replicate 30 (0xff : UInt8)].flatten.length)
  have dents : page.request.dents hostOfTwo = [⟨5, 8, [97]⟩] := rfl
  obtain ⟨-, rcount, payload⟩ := page.reply_spec hostOfTwo room
  have most : filled page.request.room [⟨5, 8, [97]⟩] = 19 := rfl
  rw [dents, most] at rcount
  rw [rcount] at payload
  have few : (page.payload hostOfTwo).length ≤ 19 := by
    rw [payload]
    exact List.length_take_le ..
  have last : lastOffset (page.payload hostOfTwo) = none :=
    lastOffset_few (Nat.lt_of_le_of_lt few (by decide))
  obtain ⟨parts, listed, starts⟩ :=
    always [page] (.last rfl last)
      (List.forall_mem_singleton.mpr (pageOfTwo_large 0 30))
  obtain ⟨part, rest, lists, none, rfl⟩ := List.forall₂_cons_left_iff.mp listed
  obtain rfl := List.forall₂_nil_left_iff.mp none
  rw [List.flatten_singleton] at starts
  have short : ∀ dent ∈ part, dent.dName.length ≤ nameMax :=
    fun dent member => twoFiles.short dent (starts.subset member)
  have size : direntsSize part = 19 := by
    rw [← direntsWire_length exported hostOfTwo short, ← lists.payload,
      lists.length]
    exact rcount
  cases part with
  | nil => cases size
  | cons dent rest =>
      rw [direntsSize_cons, virtioP9DentrySize] at size
      omega

end Kemu.Virtio.P9.ReaddirPages
