import Kemu.Virtio.P9.WalkReply

/-!
# Reading directories

`virtio_p9_readdir` appends one entry after the other to the reply, until the
directory ends or the next entry would go beyond the count of the request;
then it moves the host's cursor back to where that entry was read.  The size
of the next entry comes from a formula, that of the last one from the cursor
of the reply.

An open directory is a sequence of entries with a cursor.  Each entry comes
with the place that `seekdir` knows for what is behind it.
-/

namespace Kemu.Virtio.P9.Readdir

open Kemu.Lib.Bytes
open Kemu.Lib.Contract
open Kemu.Lib.SearchTree
open Kemu.Virtio.P9.Fid
open Kemu.Virtio.P9.Path
open Kemu.Virtio.P9.Server hiding statRel walkLoop virtioP9Walk
  virtioP9ErrorReply readdirLoop virtioP9Readdir eInval
open Kemu.Virtio.P9.Pdu
open Kemu.Virtio.P9.Atomicity
open Kemu.Virtio.P9.Walk
open Kemu.Virtio.P9.WalkReply

/-! ## Directories -/

/-- `struct dirent`, as far as it is in a reply. -/
structure DirEntry where
  dOff : UInt64
  dType : UInt8
  dName : CString
deriving DecidableEq, Repr

/-- The array `d_name` without its last byte. -/
def nameMax : Nat := 255

/--
A `DIR`: its entries as `readdir` gives them.  The places are distinct and
not that of the start; `stray` has the number of entries before any other
place.
-/
structure DirStream where
  entries : List DirEntry
  stray : UInt64 → Nat
  distinct : (0 :: entries.map DirEntry.dOff).Nodup
  short : ∀ dent ∈ entries, dent.dName.length ≤ nameMax

/-- `seekdir`, as the number of the entries before the cursor. -/
def DirStream.seekdir (stream : DirStream) (offset : UInt64) : Nat :=
  if offset = 0 then
    0
  else
    match stream.entries.findIdx? (·.dOff = offset) with
    | some index => index + 1
    | none => stream.stray offset

/--
The file tree of the host and its open directories.  What an entry is comes
from the tree and not from the answers that a request is given.
-/
structure Host where
  lstat : CString → Option Stat
  dirs : Nat → DirStream

/-! ## The code -/

/-- `virtio_p9_dentry_size`. -/
def virtioP9DentrySize (dent : DirEntry) : Nat :=
  24 + dent.dName.length

/-- A `struct stat` whose bytes are all `-1`. -/
def statUnknown : Stat :=
  ⟨0xffffffffffffffff, -1, 0xffffffff⟩

/-- The format `"dqd"`. -/
def decodeTreaddir : DecodeM (UInt32 × UInt64 × UInt32) := do
  let fid ← decodeNumber 4
  let offset ← decodeNumber 8
  let count ← decodeNumber 4
  pure (.ofNat fid, .ofNat offset, .ofNat count)

section Code

variable (lib : Rebalancer FidNode) (root : CString) (env : P9Env)
  (host : Host)

/-- `stat_rel` on the name of an entry, and the `memset` if it fails. -/
def statDirent (name : CString) : WalkM Stat :=
  match getFullPathHelper root name with
  | .error _ => pure statUnknown
  | .ok fullPath => do
      let _ ← onServer (hostCall env .lstat [fullPath])
      pure ((host.lstat fullPath).getD statUnknown)

/-- The arguments for the format `"Qqbs"`. -/
def direntValues (st : Stat) (dent : DirEntry) : List PduValue :=
  [.Q (stat2qid st), .field (.q dent.dOff), .field (.b dent.dType),
    .field (.s (some dent.dName))]

/--
The loop of `virtio_p9_readdir` over the entries behind the cursor.  The
value is `rcount` and where the cursor is left.
-/
def readdirLoop (stream : DirStream) (count : UInt32) :
    List DirEntry → UInt64 → UInt32 → WalkM (UInt32 × Nat)
  | [], _, rcount => pure (rcount, stream.entries.length)
  | dent :: rest, oldOffset, rcount =>
      if rcount + .ofNat (virtioP9DentrySize dent) > count then do
        let _ ← onServer (hostCall env .seekdir [])
        pure (rcount, stream.seekdir oldOffset)
      else do
        let st ← statDirent root env host dent.dName
        let read ← replyLength
        writef (direntValues st dent)
        let writeOffset ← replyLength
        let _ ← onServer (hostCall env .readdir [])
        readdirLoop stream count rest dent.dOff
          (rcount + (writeOffset - read))

/-- The end of `virtio_p9_readdir`. -/
def finishReaddir (rcount : UInt32) : WalkM UInt32 := do
  seekWrite fun _ => virtio9pHdrLen
  writef [.field (.d rcount)]
  let writeOffset ← replyLength
  let outlen := writeOffset + rcount
  virtioP9SetReplyHeader outlen
  pure outlen

/-- `virtio_p9_readdir` up to its label `err_out`. -/
def readdirBody : WalkM (UInt32 × Nat) := do
  let (fidVal, offset, count) ← readf decodeTreaddir
  let fid ← onServer (getFid lib root env fidVal)
  let object ← onServer (deref fid)
  let answer ← onServer (hostCall env .stat [object.absPath])
  if !answer.isDir then
    throw (.early (.errno eInval))
  else
    match object.dir with
    | none => throw (.early .crash)
    | some dir => do
        let stream := host.dirs dir
        let _ ← onServer (hostCall env .seekdir [])
        let _ ← onServer (hostCall env .readdir [])
        seekWrite (· + 4)
        let (rcount, cursor) ←
          readdirLoop root env host stream count
            (stream.entries.drop (stream.seekdir offset)) offset 0
        let outlen ← finishReaddir rcount
        pure (outlen, cursor)

/--
`virtio_p9_readdir`; the value is `outlen` and where the cursor is left, if
it was moved.
-/
def virtioP9Readdir : WalkM (UInt32 × Option Nat) :=
  fun state =>
    match readdirBody lib root env host state with
    | .ok (outlen, cursor) after => .ok (outlen, some cursor) after
    | .error (.early (.errno number)) after =>
        match virtioP9ErrorReply number after with
        | .ok outlen after => .ok (outlen, none) after
        | .error stop after => .error stop after
    | .error stop after => .error stop after

end Code

/-! ## Cursors -/

section Cursor

variable (stream : DirStream)

theorem seekdir_start : stream.seekdir 0 = 0 :=
  if_pos rfl

variable {stream}

/-- The place of an entry is behind it. -/
theorem seekdir_behind {front back : List DirEntry} {dent : DirEntry}
    (entries : stream.entries = front ++ dent :: back) :
    stream.seekdir dent.dOff = front.length + 1 := by
  have distinct := stream.distinct
  rw [entries, List.map_append, List.map_cons] at distinct
  obtain ⟨other, places⟩ := List.nodup_cons.mp distinct
  have some : dent.dOff ≠ 0 := by
    intro zero
    exact other (zero ▸ List.mem_append_right _ List.mem_cons_self)
  have first :
      stream.entries.findIdx? (·.dOff = dent.dOff) =
        Option.some front.length := by
    have before : front.findIdx? (·.dOff = dent.dOff) = none := by
      refine List.findIdx?_eq_none_iff.mpr fun earlier member => ?_
      refine decide_eq_false fun same => ?_
      have apart := (List.nodup_append.mp places).2.2
      exact apart _ (List.mem_map_of_mem member) _ List.mem_cons_self same
    rw [entries, List.findIdx?_append, before, List.findIdx?_cons,
      decide_eq_true rfl]
    simp
  rw [DirStream.seekdir, if_neg some, first]

end Cursor

/-! ## Entries on the wire -/

/-- The bytes in front of the entries of a reply. -/
def direntPlace : Nat :=
  virtio9pHdrLen + 4

/-- The room some entries need. -/
def direntsSize (dents : List DirEntry) : Nat :=
  (dents.map virtioP9DentrySize).sum

theorem direntsSize_append (front back : List DirEntry) :
    direntsSize (front ++ back) = direntsSize front + direntsSize back := by
  rw [direntsSize, List.map_append, List.sum_append, direntsSize,
    direntsSize]

theorem direntsSize_cons (dent : DirEntry) (rest : List DirEntry) :
    direntsSize (dent :: rest) =
      virtioP9DentrySize dent + direntsSize rest := by
  rw [direntsSize, List.map_cons, List.sum_cons, direntsSize]

theorem direntsSize_singleton (dent : DirEntry) :
    direntsSize [dent] = virtioP9DentrySize dent :=
  direntsSize_cons dent []

theorem length_le_direntsSize (dents : List DirEntry) :
    dents.length ≤ direntsSize dents := by
  induction dents with
  | nil => exact Nat.le_refl 0
  | cons dent rest induction =>
      rw [direntsSize_cons, List.length_cons, virtioP9DentrySize]
      omega

section Wire

variable (root : CString) (host : Host)

/-- What is in `st` for an entry. -/
def direntStat (name : CString) : Stat :=
  match getFullPathHelper root name with
  | .error _ => statUnknown
  | .ok fullPath => (host.lstat fullPath).getD statUnknown

/-- An entry in a reply. -/
def direntWire (dent : DirEntry) : List UInt8 :=
  wire
    ((direntValues (direntStat root host dent.dName) dent).flatMap
      PduValue.fields)

/-- Some entries in a reply. -/
def direntsWire (dents : List DirEntry) : List UInt8 :=
  dents.flatMap (direntWire root host)

theorem direntsWire_append (front back : List DirEntry) :
    direntsWire root host (front ++ back) =
      direntsWire root host front ++ direntsWire root host back :=
  List.flatMap_append

theorem direntsWire_singleton (dent : DirEntry) :
    direntsWire root host [dent] = direntWire root host dent :=
  List.flatMap_singleton ..

/-- An entry starts with its qid. -/
theorem direntWire_eq (dent : DirEntry) :
    direntWire root host dent =
      wire (stat2qid (direntStat root host dent.dName)).fields ++
        wire [.q dent.dOff, .b dent.dType, .s (some dent.dName)] :=
  wire_append _ _

/-- The formula has the size of what is written. -/
theorem direntWire_length {dent : DirEntry}
    (short : dent.dName.length ≤ nameMax) :
    (direntWire root host dent).length = virtioP9DentrySize dent := by
  have len : stringLen (some dent.dName) = dent.dName.length :=
    Nat.min_eq_left (Nat.le_trans short (by decide))
  rw [direntWire_eq, List.length_append, wire_qid_length]
  simp only [wire_cons, wire_nil, Field.wire, len, toLe_length,
    List.length_append, List.length_singleton, List.length_nil,
    Option.getD_some, List.take_length]
  rw [virtioP9DentrySize]
  omega

theorem direntsWire_length {dents : List DirEntry}
    (short : ∀ dent ∈ dents, dent.dName.length ≤ nameMax) :
    (direntsWire root host dents).length = direntsSize dents := by
  induction dents with
  | nil => rfl
  | cons dent rest induction =>
      have others := induction (List.forall_mem_cons.mp short).2
      rw [direntsSize_cons, ← others,
        ← direntWire_length root host (short dent List.mem_cons_self)]
      exact List.length_append

end Wire

/-! ## Turns -/

/-- The bytes of some entries for which there is room. -/
def filled (room : Nat) (dents : List DirEntry) : Nat :=
  min (direntsSize dents) (room - direntPlace)

theorem filled_nil (room : Nat) : filled room [] = 0 :=
  Nat.zero_min _

theorem filled_snoc (room : Nat) (dents : List DirEntry) (dent : DirEntry) :
    filled room (dents ++ [dent]) =
      min (filled room dents + virtioP9DentrySize dent)
        (room - direntPlace) := by
  rw [filled, filled, direntsSize_append, direntsSize_cons]
  have nothing : direntsSize [] = 0 := rfl
  omega

/--
The entries that the loop takes from those it is given, after it has filled
some bytes.
-/
def taken (room count : Nat) : Nat → List DirEntry → List DirEntry
  | _, [] => []
  | before, dent :: rest =>
      if (before + virtioP9DentrySize dent) % 2 ^ 32 ≤ count then
        dent ::
          taken room count
            (min (before + virtioP9DentrySize dent) (room - direntPlace))
            rest
      else
        []

section Turns

variable {root : CString} {env : P9Env} {host : Host} {stream : DirStream}
  {count : UInt32} {reply : List UInt8}

/-- A reply with some entries in it. -/
structure Listed (root : CString) (host : Host) (reply : List UInt8)
    (dents : List DirEntry) (now : WalkState) : Prop where
  bytes :
    now.pdu.inIov.flatten =
      patch reply direntPlace (direntsWire root host dents)
  offset : now.pdu.writeOffset = direntPlace + filled reply.length dents

/-- The record of a host call. -/
def called (op : HostOp) (paths : List CString) (server : P9State) :
    P9State :=
  { server with
    calls := server.calls ++ [⟨op, paths⟩]
    asked := server.asked + 1 }

/-- The server after an entry is looked up. -/
def lookedUp (root name : CString) (server : P9State) : P9State :=
  match getFullPathHelper root name with
  | .error _ => server
  | .ok fullPath => called .lstat [fullPath] server

/-- What a lookup gives does not depend on the server. -/
theorem statDirent_ok (root : CString) (env : P9Env) (host : Host)
    (name : CString) (now : WalkState) :
    statDirent root env host name now =
      .ok (direntStat root host name)
        { now with server := lookedUp root name now.server } := by
  rw [statDirent, direntStat, lookedUp]
  cases getFullPathHelper root name with
  | error number => rfl
  | ok fullPath => rfl

/-- The state after an entry is appended. -/
def appended (root : CString) (host : Host) (dent : DirEntry)
    (now : WalkState) : WalkState :=
  { now with
    server := called .readdir [] (lookedUp root dent.dName now.server)
    pdu :=
      (virtioP9PduWritef now.pdu
        (direntValues (direntStat root host dent.dName) dent)).2 }

/-- One turn for an entry that does not go beyond the count. -/
theorem readdirLoop_goes {rcount : UInt32} {dent : DirEntry}
    (goes : ¬ rcount + .ofNat (virtioP9DentrySize dent) > count)
    (rest : List DirEntry) (oldOffset : UInt64) (now : WalkState) :
    readdirLoop root env host stream count (dent :: rest) oldOffset rcount
        now =
      readdirLoop root env host stream count rest dent.dOff
        (rcount +
          (.ofNat (appended root host dent now).pdu.writeOffset -
            .ofNat now.pdu.writeOffset))
        (appended root host dent now) := by
  rw [readdirLoop, if_neg goes]
  exact bind_of_ok (statDirent_ok root env host dent.dName now)

/-- The entry is appended, as far as there is room for it. -/
theorem Listed.snoc {dents : List DirEntry} {dent : DirEntry}
    {now : WalkState} (listed : Listed root host reply dents now)
    (short : ∀ other ∈ dents ++ [dent], other.dName.length ≤ nameMax) :
    Listed root host reply (dents ++ [dent])
      (appended root host dent now) := by
  obtain ⟨bytes, offset⟩ :=
    virtioP9PduEncode_filled
      (direntValues (direntStat root host dent.dName) dent) 0 now.pdu
  have length :=
    direntsWire_length root host fun other member =>
      short other (List.mem_append_left [dent] member)
  constructor
  · refine bytes.trans ?_
    rw [listed.bytes, listed.offset, filled, ← length, patch_patch_min,
      direntsWire_append, direntsWire_singleton]
    rfl
  · refine offset.trans ?_
    have size :=
      direntWire_length root host
        (short dent (List.mem_append_right _ List.mem_cons_self))
    rw [direntWire] at size
    rw [size, listed.offset, listed.bytes, patch_length, filled_snoc,
      filled]
    omega

theorem rcount_add (base before now : Nat) :
    UInt32.ofNat before +
        (UInt32.ofNat (base + now) - UInt32.ofNat (base + before)) =
      UInt32.ofNat now := by
  rw [UInt32.ofNat_add, UInt32.ofNat_add]
  grind

/-- The check of the size, as one of numbers. -/
theorem beyond_iff (before size : Nat) :
    UInt32.ofNat before + UInt32.ofNat size > count ↔
      ¬ (before + size) % 2 ^ 32 ≤ count.toNat := by
  rw [← UInt32.ofNat_add, gt_iff_lt, UInt32.lt_iff_toNat_lt,
    UInt32.toNat_ofNat', Nat.not_le]

variable (env) in
/-- One turn appends the next entry. -/
theorem readdirLoop_turn {dents : List DirEntry} {dent : DirEntry}
    {now : WalkState} (listed : Listed root host reply dents now)
    (short : ∀ other ∈ dents ++ [dent], other.dName.length ≤ nameMax)
    (fits :
      (filled reply.length dents + virtioP9DentrySize dent) % 2 ^ 32 ≤
        count.toNat)
    (rest : List DirEntry) (oldOffset : UInt64) :
    readdirLoop root env host stream count (dent :: rest) oldOffset
        (.ofNat (filled reply.length dents)) now =
      readdirLoop root env host stream count rest dent.dOff
        (.ofNat (filled reply.length (dents ++ [dent])))
        (appended root host dent now) := by
  have goes :
      ¬ UInt32.ofNat (filled reply.length dents) +
          .ofNat (virtioP9DentrySize dent) > count :=
    fun beyond => (beyond_iff _ _).mp beyond fits
  rw [readdirLoop_goes goes, (listed.snoc short).offset, listed.offset,
    rcount_add]

variable (env count) in
/-- The loop takes its entries, and the cursor is left behind them. -/
theorem readdirLoop_runs {rest : List DirEntry}
    {earlier dents : List DirEntry} {oldOffset : UInt64} {now : WalkState}
    (entries : stream.entries = earlier ++ rest)
    (place : rest ≠ [] → stream.seekdir oldOffset = earlier.length)
    (listed : Listed root host reply dents now)
    (short : ∀ other ∈ dents, other.dName.length ≤ nameMax) :
    ∃ after,
      readdirLoop root env host stream count rest oldOffset
            (.ofNat (filled reply.length dents)) now =
          .ok
            (.ofNat
                (filled reply.length
                  (dents ++
                    taken reply.length count.toNat
                      (filled reply.length dents) rest)),
              earlier.length +
                (taken reply.length count.toNat
                  (filled reply.length dents) rest).length)
            after ∧
        Listed root host reply
          (dents ++
            taken reply.length count.toNat (filled reply.length dents) rest)
          after := by
  induction rest generalizing earlier dents oldOffset now with
  | nil =>
      rw [taken, List.append_nil, List.length_nil, Nat.add_zero]
      refine ⟨now, ?_, listed⟩
      rw [readdirLoop, entries, List.append_nil]
      rfl
  | cons dent rest induction =>
      rw [taken]
      by_cases fits :
          (filled reply.length dents + virtioP9DentrySize dent) % 2 ^ 32 ≤
            count.toNat
      · have shortDent : dent.dName.length ≤ nameMax := by
          refine stream.short dent ?_
          rw [entries]
          exact List.mem_append_right _ List.mem_cons_self
        have shorts :
            ∀ other ∈ dents ++ [dent], other.dName.length ≤ nameMax :=
          List.forall_mem_append.mpr
            ⟨short, List.forall_mem_singleton.mpr shortDent⟩
        have longer := listed.snoc shorts
        have place : rest ≠ [] → stream.seekdir dent.dOff =
            (earlier ++ [dent]).length := by
          intro _
          rw [seekdir_behind entries, List.length_append,
            List.length_singleton]
        obtain ⟨after, ran, ends⟩ :=
          induction (List.append_cons .. ▸ entries) place longer shorts
        rw [if_pos fits, ← filled_snoc, List.append_cons,
          readdirLoop_turn env listed shorts fits]
        refine ⟨after, ?_, ends⟩
        rw [List.length_cons, ran, List.length_append,
          List.length_singleton, Nat.add_assoc, Nat.add_comm 1]
      · rw [if_neg fits, List.append_nil, List.length_nil, Nat.add_zero,
          ← place (List.cons_ne_nil _ _)]
        let sought : WalkState :=
          { now with server := called .seekdir [] now.server }
        refine ⟨sought, ?_, ⟨listed.bytes, listed.offset⟩⟩
        rw [readdirLoop, if_pos ((beyond_iff _ _).mpr fits)]
        rfl

end Turns

/-! ## What a loop takes -/

section Taken

variable {room count before : Nat} {rest : List DirEntry}

theorem taken_prefix (room count before : Nat) (rest : List DirEntry) :
    taken room count before rest <+: rest := by
  induction rest generalizing before with
  | nil => exact List.nil_prefix
  | cons dent rest induction =>
      rw [taken]
      split
      · exact List.prefix_cons_inj dent |>.mpr (induction _)
      · exact List.nil_prefix

/-- What fits the count and the reply is taken. -/
theorem taken_covers {front back : List DirEntry}
    (small : count < 2 ^ 32) (fits : before + direntsSize front ≤ count)
    (within : before + direntsSize front ≤ room - direntPlace) :
    front <+: taken room count before (front ++ back) := by
  induction front generalizing before with
  | nil => exact List.nil_prefix
  | cons dent front induction =>
      rw [direntsSize_cons] at fits within
      have next :
          (before + virtioP9DentrySize dent) % 2 ^ 32 =
            before + virtioP9DentrySize dent :=
        Nat.mod_eq_of_lt (by omega)
      rw [List.cons_append, taken, next, if_pos (by omega),
        Nat.min_eq_left (by omega)]
      refine List.prefix_cons_inj dent |>.mpr (induction ?_ ?_)
      · omega
      · omega

/--
If whatever fits the count fits the reply as well, and the next size does
not wrap around, then what is taken fits both.
-/
theorem taken_fits (start : before ≤ count)
    (fits :
      ∀ front, front <+: rest → before + direntsSize front ≤ count →
        before + direntsSize front ≤ room - direntPlace)
    (small :
      ∀ front dent, front ++ [dent] <+: rest →
        before + direntsSize front ≤ count →
        before + direntsSize (front ++ [dent]) < 2 ^ 32) :
    before + direntsSize (taken room count before rest) ≤ count := by
  induction rest generalizing before with
  | nil => exact start
  | cons dent rest induction =>
      rw [taken]
      split
      case isFalse => exact start
      case isTrue next =>
        have one : [dent] <+: dent :: rest :=
          List.prefix_cons_inj dent |>.mpr List.nil_prefix
        have wraps := small [] dent one start
        rw [List.nil_append, direntsSize_singleton] at wraps
        rw [Nat.mod_eq_of_lt wraps] at next
        have inside :=
          fits [dent] one (by rw [direntsSize_singleton]; exact next)
        rw [direntsSize_singleton] at inside
        rw [Nat.min_eq_left inside, direntsSize_cons, ← Nat.add_assoc]
        refine induction next ?_ ?_
        · intro front starts
          have longer := fits (dent :: front)
            (List.prefix_cons_inj dent |>.mpr starts)
          rw [direntsSize_cons, ← Nat.add_assoc] at longer
          exact longer
        · intro front other starts
          have longer := small (dent :: front) other
            (List.prefix_cons_inj dent |>.mpr starts)
          rw [List.cons_append, direntsSize_cons, direntsSize_cons,
            ← Nat.add_assoc, ← Nat.add_assoc] at longer
          exact longer

end Taken

/-! ## Requests and their replies -/

/-- A request to read a directory whose fid is there and open. -/
structure Treaddir (lib : Rebalancer FidNode) (root : CString)
    (env : P9Env) (state : WalkState) where
  fid : UInt32
  offset : UInt64
  count : UInt32
  /-- What follows the numbers in the message. -/
  rest : List UInt8
  node : FidNode
  /-- The table once the fid is looked up. -/
  table : FidTable
  object : P9Fid
  dir : Nat
  writeOffset : state.pdu.writeOffset = virtio9pHdrLen
  message :
    state.pdu.remaining =
      toLe 4 fid.toNat ++
        (toLe 8 offset.toNat ++ (toLe 4 count.toNat ++ rest))
  found :
    findOrCreateFid lib root (env.calloc state.server.looked)
        state.server.table fid =
      (table, some node)
  there : table.heap node.obj = some object
  isDir : (env.host state.server.asked).isDir = true
  opened : object.dir = some dir

section Requests

variable {lib : Rebalancer FidNode} {root : CString} {env : P9Env}
  {state : WalkState}

/-- The entries before the place a request names. -/
def Treaddir.before (request : Treaddir lib root env state) (host : Host) :
    List DirEntry :=
  (host.dirs request.dir).entries.take
    ((host.dirs request.dir).seekdir request.offset)

/-- The entries behind it. -/
def Treaddir.behind (request : Treaddir lib root env state) (host : Host) :
    List DirEntry :=
  (host.dirs request.dir).entries.drop
    ((host.dirs request.dir).seekdir request.offset)

/-- The room for a reply. -/
def Treaddir.room (_ : Treaddir lib root env state) : Nat :=
  state.pdu.inIov.flatten.length

/-- The entries that the reply has, or starts to have. -/
def Treaddir.dents (request : Treaddir lib root env state) (host : Host) :
    List DirEntry :=
  taken request.room request.count.toNat 0 (request.behind host)

theorem Treaddir.dents_prefix (request : Treaddir lib root env state)
    (host : Host) : request.dents host <+: request.behind host :=
  taken_prefix ..

theorem Treaddir.short {host : Host}
    (request : Treaddir lib root env state) {dents : List DirEntry}
    (part : dents <+: request.behind host) :
    ∀ dent ∈ dents, dent.dName.length ≤ nameMax := by
  intro dent member
  exact (host.dirs request.dir).short dent
    (List.mem_of_mem_drop (part.subset member))

theorem parses_treaddir (fid : UInt32) (offset : UInt64) (count : UInt32) :
    Parses decodeTreaddir
      (toLe 4 fid.toNat ++ (toLe 8 offset.toNat ++ toLe 4 count.toNat))
      (fid, offset, count) := by
  refine (parses_d fid).bind ?_
  refine (parses_q offset).bind ?_
  have last :=
    (parses_d count).map fun raw =>
      (UInt32.ofNat fid.toNat, UInt64.ofNat offset.toNat,
        UInt32.ofNat raw)
  simp only [UInt32.ofNat_toNat, UInt64.ofNat_toNat] at last ⊢
  exact last

/-- The count goes in front of the entries, and the header before it. -/
theorem finishReaddir_ok (rcount : UInt32) (now : WalkState)
    (room : direntPlace ≤ now.pdu.inIov.flatten.length) :
    ∃ pdu,
      finishReaddir rcount now =
          .ok (.ofNat direntPlace + rcount) { now with pdu := pdu } ∧
        (pdu.inIov.flatten.drop virtio9pHdrLen).take 4 =
          toLe 4 rcount.toNat ∧
        pdu.inIov.flatten.drop direntPlace =
          now.pdu.inIov.flatten.drop direntPlace := by
  let start : P9Pdu := { now.pdu with writeOffset := virtio9pHdrLen }
  let counted : P9Pdu := virtioP9PduWrite start (toLe 4 rcount.toNat)
  have fits :
      start.writeOffset + (toLe 4 rcount.toNat).length ≤
        start.inIov.flatten.length := by
    rw [toLe_length]
    exact room
  obtain ⟨bytes, offset⟩ := (virtioP9PduWrite_filled start _).wrote fits
  rw [toLe_length] at offset
  obtain ⟨pdu, ran, same⟩ :=
    virtioP9SetReplyHeader_ok (.ofNat direntPlace + rcount)
      { now with pdu := counted } (by
        show _ ≤ counted.inIov.flatten.length
        rw [bytes, patch_length]
        exact Nat.le_trans (by decide) room)
  have behind :
      pdu.inIov.flatten.drop virtio9pHdrLen =
        toLe 4 rcount.toNat ++ now.pdu.inIov.flatten.drop direntPlace := by
    refine same.trans ?_
    show counted.inIov.flatten.drop _ = _
    rw [bytes, patch_drop_self fits, toLe_length]
    rfl
  refine ⟨pdu, ?_, ?_, ?_⟩
  · show
      (virtioP9SetReplyHeader (.ofNat counted.writeOffset + rcount) >>=
          fun _ => pure (.ofNat counted.writeOffset + rcount))
        { now with pdu := counted } = _
    rw [offset]
    exact bind_of_ok ran
  · rw [behind, List.take_left' (toLe_length ..)]
  · have entries := congrArg (List.drop 4) behind
    rw [List.drop_drop, List.drop_left' (toLe_length ..)] at entries
    exact entries

/-- The server when the loop starts. -/
def Treaddir.serving (request : Treaddir lib root env state) : P9State :=
  called .readdir []
    (called .seekdir []
      (called .stat [request.object.absPath]
        { state.server with
          table := request.table
          looked := state.server.looked + 1 }))

/-- The state in which the loop starts. -/
def Treaddir.started (request : Treaddir lib root env state) :
    WalkState where
  server := request.serving
  pdu :=
    { state.pdu with
      readOffset := state.pdu.readOffset + 16
      writeOffset := state.pdu.writeOffset + 4 }
  strings := state.strings

/-- The request up to its loop. -/
theorem readdirBody_starts (request : Treaddir lib root env state)
    (host : Host) :
    readdirBody lib root env host state =
      (readdirLoop root env host (host.dirs request.dir) request.count
          (request.behind host) request.offset 0 >>=
        fun (rcount, cursor) => do
          let outlen ← finishReaddir rcount
          pure (outlen, cursor)) request.started := by
  have header :
      readf decodeTreaddir state =
        .ok (request.fid, request.offset, request.count)
          { state with
            pdu :=
              { state.pdu with
                readOffset := state.pdu.readOffset + 16 } } := by
    have starts :
        state.pdu.remaining =
          (toLe 4 request.fid.toNat ++
              (toLe 8 request.offset.toNat ++
                toLe 4 request.count.toNat)) ++ request.rest := by
      rw [request.message]
      simp only [List.append_assoc]
    have read :=
      readf_ok (parses_treaddir request.fid request.offset request.count)
        starts
    simpa only [List.length_append, toLe_length] using read
  let told : WalkState :=
    { state with
      pdu := { state.pdu with readOffset := state.pdu.readOffset + 16 } }
  let found : WalkState :=
    { told with
      server :=
        { state.server with
          table := request.table
          looked := state.server.looked + 1 } }
  have fid :
      onServer (getFid lib root env request.fid) told =
        .ok request.node found :=
    onServer_ok (getFid_of_some request.found)
  rw [readdirBody, bind_of_ok header]
  refine (bind_of_ok fid).trans ?_
  refine (bind_of_ok (deref_ok found request.there)).trans ?_
  have answered :
      onServer (hostCall env .stat [request.object.absPath]) found =
        .ok (env.host state.server.asked)
          { found with
            server := called .stat [request.object.absPath] found.server } :=
    rfl
  refine (bind_of_ok answered).trans ?_
  rw [request.isDir, request.opened]
  rfl

/-- The whole request, when there is room for the count of the reply. -/
theorem virtioP9Readdir_runs (request : Treaddir lib root env state)
    (host : Host) (room : direntPlace ≤ request.room) :
    ∃ after,
      virtioP9Readdir lib root env host state =
          .ok
            (.ofNat direntPlace +
                .ofNat (filled request.room (request.dents host)),
              some
                ((request.before host).length +
                  (request.dents host).length))
            after ∧
        (after.pdu.inIov.flatten.drop virtio9pHdrLen).take 4 =
          toLe 4
            (UInt32.ofNat
              (filled request.room (request.dents host))).toNat ∧
        after.pdu.inIov.flatten.drop direntPlace =
          (patch state.pdu.inIov.flatten direntPlace
            (direntsWire root host (request.dents host))).drop
              direntPlace := by
  let stream : DirStream := host.dirs request.dir
  have entries :
      stream.entries = request.before host ++ request.behind host :=
    (List.take_append_drop _ _).symm
  have place : request.behind host ≠ [] →
      stream.seekdir request.offset = (request.before host).length := by
    intro some
    have behind := List.length_pos_iff.mpr some
    rw [Treaddir.behind, List.length_drop] at behind
    rw [Treaddir.before, List.length_take]
    exact (Nat.min_eq_left (Nat.lt_of_sub_pos behind).le).symm
  have listed :
      Listed root host state.pdu.inIov.flatten [] request.started := by
    refine ⟨(patch_nil _ _).symm, ?_⟩
    show state.pdu.writeOffset + 4 = _
    rw [request.writeOffset, filled_nil]
    rfl
  obtain ⟨now, ran, ends⟩ :=
    readdirLoop_runs env request.count entries place listed
      (List.forall_mem_nil _)
  rw [List.nil_append, filled_nil] at ran ends
  obtain ⟨pdu, finished, rcount, bytes⟩ :=
    finishReaddir_ok
      (.ofNat (filled request.room (request.dents host))) now (by
        rw [ends.bytes, patch_length]
        exact room)
  have body :
      readdirBody lib root env host state =
        .ok
          (.ofNat direntPlace +
              .ofNat (filled request.room (request.dents host)),
            (request.before host).length + (request.dents host).length)
          { now with pdu := pdu } := by
    rw [readdirBody_starts]
    refine (bind_of_ok ran).trans ?_
    exact bind_of_ok finished
  refine ⟨{ now with pdu := pdu }, ?_, rcount, ?_⟩
  · rw [virtioP9Readdir, body]
  · refine bytes.trans ?_
    rw [ends.bytes]
    rfl

end Requests

end Kemu.Virtio.P9.Readdir
