import Kemu.Disk.Qcow.Coherence
import Kemu.Disk.Qcow.Open

/-!
# Closing an image and opening it again

`qcow_probe` decodes the header from the file, and `qcow_disk_close` throws
the caches away.  What reads and writes in place leave behind is shown to be
an image that opens again with the same header and the same tables, and with
the content that was written; so the disk keeps its content over any number
of sessions.

The header lies in the first cluster, which no write reaches since an L2
entry refers to a cluster behind it.
-/

namespace Kemu.Disk.Qcow

open Kemu.Lib.LruCache
open Kemu.Lib.SearchTree
open Kemu.Lib.Transition
open Kemu.Util.IoVector
open Kemu.Util.ReadWrite

/-! ## The header of version 2 -/

/-- `QCOW2_VERSION`. -/
def qcow2Version : Nat := 2

/-- `sizeof(struct qcow2_header_disk)`. -/
def qcow2HeaderDiskSize : Nat := 72

/-- `is_qcow2`, with what the memory of the header holds before the read. -/
def isQcow2 (stack : Buffer) (file : HostFile) : Bool × HostFile :=
  match preadInFull file stack 0 qcow2HeaderDiskSize 0 with
  | (none, _, file) => (false, file)
  | (some _, disk, file) =>
      (beNumber 4 disk 0 == qcowMagic && beNumber 4 disk 4 == qcow2Version,
        file)

/-- The fields that are kept; the two numbers of bits become eight bits. -/
def qcow2Header (disk : Buffer) : QcowHeader where
  size := be64 disk 24
  l1TableOffset := be64 disk 40
  l1Size := beNumber 4 disk 36
  clusterBits := beNumber 4 disk 20 % 2 ^ 8
  l2Bits := (beNumber 4 disk 20 + 2 ^ 32 - 3) % 2 ^ 32 % 2 ^ 8
  refcountTableOffset := be64 disk 48
  refcountTableSize := beNumber 4 disk 56

/-- `qcow2_read_header`. -/
def qcow2ReadHeader (stack : Buffer) (file : HostFile) :
    Option (QcowHeader × HostFile) := do
  let file ← malloc file 0
  match preadInFull file stack 0 qcow2HeaderDiskSize 0 with
  | (none, _, _) => none
  | (some _, disk, file) => some (qcow2Header disk, file)

/-- `qcow2_probe`. -/
def qcow2Probe (stack fresh : Buffer) (file : HostFile) :
    Option QcowState := do
  let file ← malloc file 0
  let (header, file) ← qcow2ReadHeader stack file
  let clusterSize ← intShift header.clusterBits
  -- `q->copy_buff`, `q->cluster_data` and `q->cluster_cache`
  let file ← malloc file (asOffT clusterSize)
  let file ← malloc file (asOffT clusterSize)
  let file ← malloc file (asOffT clusterSize)
  qcowProbe .qcow2 header fresh file

/-- `qcow_probe`. -/
def openQcow (stack : Nat → Buffer) (fresh : Buffer) (file : HostFile) :
    Option QcowState :=
  match isQcow1 (stack 0) file with
  | (true, file) => qcow1Probe (stack 2) fresh file
  | (false, file) =>
      match isQcow2 (stack 1) file with
      | (true, file) => qcow2Probe (stack 2) fresh file
      | (false, _) => none

/-! ## Sessions -/

section Sessions

variable (lib : Rebalancer (Node Nat)) (turns : Nat) (inflate : Inflate)

/-- The image is opened, used and closed. -/
structure Session where
  stack : Nat → Buffer
  fresh : Buffer
  accesses : List Access

/-- The file after a session; `none` if it does not open. -/
def sessionFile (file : HostFile) (session : Session) : Option HostFile :=
  (openQcow session.stack session.fresh file).map fun q =>
    (run (accessStep lib turns inflate) q session.accesses).file

/-- The file after some sessions, each of which opens it. -/
def sessionsFile : HostFile → List Session → Option HostFile
  | file, [] => some file
  | file, session :: rest =>
      (sessionFile lib turns inflate file session).bind fun file =>
        sessionsFile file rest

/-- The content that a disk should have after some sessions. -/
def sessionsContent : Buffer → List Session → Buffer
  | content, [] => content
  | content, session :: rest =>
      sessionsContent (run contentStep content session.accesses) rest

end Sessions

/-! ## Opening -/

section Opening

variable {header : QcowHeader} {file : HostFile}

theorem beNumber_zero (width : Nat) :
    beNumber width (fun _ => 0) 0 = 0 := by
  unfold beNumber
  induction width with
  | zero => rfl
  | succ width induction =>
      rw [List.range_succ, List.foldl_append, induction]
      rfl

/-- Numbers in a part where two buffers hold the same. -/
theorem number_congr {first second : Buffer} {count width start : Nat}
    (same : ∀ place < count, first place = second place)
    (inside : start + width ≤ count) :
    beNumber width first start = beNumber width second start :=
  beNumber_congr fun index small => same (start + index) (by omega)

/-- A number that is not zero has a byte that is not. -/
theorem exists_byte {width start : Nat} {buffer : Buffer}
    (nonzero : beNumber width buffer start ≠ 0) :
    ∃ index < width, buffer (start + index) ≠ 0 := by
  by_contra none
  push Not at none
  exact
    nonzero
      ((beNumber_congr fun index small => none index small).trans
        (beNumber_zero width))

/-- The refcount of the first cluster is in the file. -/
theorem Image.Consistent.counted
    (consistent : (imageOf .qcow2 header file).Consistent) :
    header.rfSize ≠ 0 ∧ header.refcountTableOffset < file.size ∧
      512 ≤ file.size := by
  have wellFormed := consistent.wellFormed
  have once : (imageOf .qcow2 header file).refcount 0 ≠ 0 := by
    rw [consistent.exact, Image.references, QcowHeader.references,
      if_pos rfl]
    omega
  unfold Image.refcount at once
  simp only [Nat.zero_div, Nat.zero_mod, Nat.zero_mul, Nat.add_zero] at once
  split at once
  next => exact absurd rfl once
  next some =>
    split at once
    next => exact absurd rfl once
    next present =>
      have inside {place : Nat} (byte : file.bytes place ≠ 0) :
          place < file.size :=
        Nat.lt_of_not_le fun behind => byte (file.trimmed place behind)
      obtain ⟨first, -, tableByte⟩ := exists_byte present
      obtain ⟨second, -, blockByte⟩ := exists_byte once
      have aligned := consistent.blocksAligned 0 (by omega)
      have whole := Nat.le_of_dvd (Nat.pos_of_ne_zero present) aligned
      have large : 2 ^ 9 ≤ 2 ^ header.clusterBits :=
        Nat.pow_le_pow_right (by decide) wellFormed.clusterBits_ge
      rw [clusterSize_eq] at whole
      have tableInside := inside tableByte
      have blockInside := inside blockByte
      refine ⟨?_, ?_, ?_⟩
      · intro zero
        exact some (Nat.le_of_eq zero)
      · change header.refcountTableOffset + 0 * 8 + first < _ at tableInside
        omega
      · change 2 ^ header.clusterBits ≤ _ at whole
        omega

/-- The header is read whole, whatever the memory held. -/
theorem preadHeader {count : Nat} (nonFailing : file.NonFailing)
    (large : 512 ≤ file.size) (small : count ≤ 512) (stack : Buffer) :
    ∃ disk calls,
      preadInFull file stack 0 count 0 =
          (some count, disk, file.skip calls) ∧
        ∀ place < count, disk place = file.bytes place := by
  have addressable : 0 + count ≤ offT := by
    unfold offT
    omega
  obtain ⟨calls, read⟩ :=
    preadInFull_full stack 0 nonFailing
      (show 0 + count ≤ file.size by omega) addressable
  refine ⟨_, calls, read, fun place inside => ?_⟩
  rw [store_of_mem ⟨Nat.zero_le _, by omega⟩, Nat.zero_add, Nat.sub_zero]

/-- The file begins with a header of version 2. -/
structure Headed (file : HostFile) (header : QcowHeader) : Prop where
  magic : beNumber 4 file.bytes 0 = qcowMagic
  version : beNumber 4 file.bytes 4 = qcow2Version
  fields : qcow2Header file.bytes = header

/-- The header is a matter of its bytes. -/
theorem Headed.congr {first second : Buffer}
    (same : ∀ place < qcow2HeaderDiskSize, first place = second place) :
    qcow2Header first = qcow2Header second := by
  have number {width start : Nat} (inside : start + width ≤ 72) :=
    number_congr same inside
  unfold qcow2Header be64
  rw [number (by decide), number (by decide), number (by decide),
    number (by decide), number (by decide), number (by decide)]

theorem Headed.keep {after : HostFile} (headed : Headed file header)
    (front : ∀ place < 512, after.bytes place = file.bytes place) :
    Headed after header where
  magic := (number_congr front (by decide)).trans headed.magic
  version := (number_congr front (by decide)).trans headed.version
  fields :=
    (Headed.congr fun place small =>
      front place (small.trans (by decide))).trans headed.fields

theorem malloc_granted (nonFailing : file.NonFailing) {bytes : Nat}
    (small : bytes < offT) : malloc file bytes = some (file.skip 1) := by
  unfold malloc
  rw [if_neg]
  rw [not_or]
  exact ⟨nonFailing.answer_ne, Nat.not_le_of_lt small⟩

/-- A table that begins inside the file is read, if only in part. -/
theorem readTable_opens (nonFailing : file.NonFailing)
    (addressable : file.size ≤ offT) {entries offset : Nat}
    (begins : entries ≠ 0 → offset < file.size) :
    ∃ table calls,
      readTable file entries offset = some (table, file.skip calls) := by
  obtain ⟨moved, calls, read, -⟩ :=
    preadInFull_spec (file.skip 1) (fun _ => 0) 0 (entries * 8) offset
  rw [readTable, if_neg nonFailing.answer_ne, read, HostFile.skip_skip]
  by_cases none : entries = 0
  · rw [none, if_neg fun both => both.2 rfl]
    exact ⟨_, _, rfl⟩
  · have here := begins none
    have positive : ∃ more, entries * 8 = more + 1 :=
      ⟨entries * 8 - 1, by omega⟩
    obtain ⟨more, count⟩ := positive
    have granted : 0 < (file.skip 1).answer := nonFailing.skip 1 0
    have some : moved ≠ 0 := by
      intro zero
      rw [zero, count, preadInFull, preadLoop, if_neg (by omega)] at read
      have step : xpread (file.skip 1) (more + 1) offset ≠ 0 := by
        rw [xpread, if_neg (by omega), HostFile.skip_size]
        omega
      dsimp only at read
      rw [if_neg step] at read
      obtain ⟨rest, others, later, -⟩ :=
        preadLoop_spec more ((file.skip 1).skip 1)
          (more + 1 - xpread (file.skip 1) (more + 1) offset)
          (offset + xpread (file.skip 1) (more + 1) offset)
          (0 + xpread (file.skip 1) (more + 1) offset)
      rw [later] at read
      have first := congrArg Prod.fst read
      dsimp only at first
      rw [if_neg (by omega), if_pos ⟨rfl, by omega⟩] at first
      cases first
    rw [if_neg fun both => some both.1]
    exact ⟨_, _, rfl⟩

theorem qcowProbe_opens
    (consistent : (imageOf .qcow2 header file).Consistent)
    (nonFailing : file.NonFailing) (fresh : Buffer) :
    ∃ q, qcowProbe .qcow2 header fresh file = some q := by
  have wellFormed := consistent.wellFormed
  obtain ⟨-, begins, -⟩ := consistent.counted
  have l1Inside : header.l1TableOffset + header.l1Size * 8 ≤ file.size :=
    wellFormed.l1Inside
  obtain ⟨l1Table, calls, readL1⟩ :=
    readTable_opens nonFailing wellFormed.addressable
      (fun some : header.l1Size ≠ 0 =>
        show header.l1TableOffset < file.size by omega)
  obtain ⟨rfTable, more, readRf⟩ :=
    readTable_opens (nonFailing.skip calls) wellFormed.addressable
      (fun _ : header.rfSize ≠ 0 => begins)
  unfold qcowProbe
  rw [readL1]
  dsimp only
  rw [readRf]
  exact ⟨_, rfl⟩

/-- Such a file is not taken for one of version 1. -/
theorem Headed.isQcow1 (headed : Headed file header)
    (nonFailing : file.NonFailing) (large : 512 ≤ file.size)
    (stack : Buffer) :
    ∃ calls, isQcow1 stack file = (false, file.skip calls) := by
  obtain ⟨disk, calls, read, same⟩ :=
    preadHeader nonFailing large (by decide : qcow1HeaderDiskSize ≤ 512)
      stack
  have version := (number_congr same (by decide)).trans headed.version
  have apart : (qcow2Version == qcow1Version) = false := by decide
  refine ⟨calls, ?_⟩
  rw [Kemu.Disk.Qcow.isQcow1, read]
  dsimp only
  rw [version, apart, Bool.and_false]

theorem Headed.isQcow2 (headed : Headed file header)
    (nonFailing : file.NonFailing) (large : 512 ≤ file.size)
    (stack : Buffer) :
    ∃ calls, isQcow2 stack file = (true, file.skip calls) := by
  obtain ⟨disk, calls, read, same⟩ :=
    preadHeader nonFailing large (by decide : qcow2HeaderDiskSize ≤ 512)
      stack
  have magic := (number_congr same (by decide)).trans headed.magic
  have version := (number_congr same (by decide)).trans headed.version
  refine ⟨calls, ?_⟩
  rw [Kemu.Disk.Qcow.isQcow2, read]
  dsimp only
  rw [magic, version, beq_self_eq_true, beq_self_eq_true, Bool.and_self]

theorem Headed.qcow2ReadHeader (headed : Headed file header)
    (nonFailing : file.NonFailing) (large : 512 ≤ file.size)
    (stack : Buffer) :
    ∃ calls, qcow2ReadHeader stack file = some (header, file.skip calls) := by
  obtain ⟨disk, calls, read, same⟩ :=
    preadHeader (nonFailing.skip 1) large
      (by decide : qcow2HeaderDiskSize ≤ 512) stack
  have fields := (Headed.congr same).trans headed.fields
  refine ⟨calls + 1, ?_⟩
  unfold Kemu.Disk.Qcow.qcow2ReadHeader
  rw [malloc_granted nonFailing (by decide)]
  simp only [Option.bind_eq_bind, Option.bind_some, read, fields,
    HostFile.skip_skip]

/-- With a header of version 2 the image opens. -/
theorem Headed.opens (headed : Headed file header)
    (consistent : (imageOf .qcow2 header file).Consistent)
    (nonFailing : file.NonFailing) (stack : Nat → Buffer) (fresh : Buffer) :
    ∃ q calls,
      openQcow stack fresh file = some q ∧
        qcowProbe .qcow2 header fresh (file.skip calls) = some q := by
  obtain ⟨-, -, large⟩ := consistent.counted
  obtain ⟨one, notFirst⟩ := headed.isQcow1 nonFailing large (stack 0)
  have headedOne : Headed (file.skip one) header :=
    ⟨headed.magic, headed.version, headed.fields⟩
  obtain ⟨two, second⟩ :=
    headedOne.isQcow2 (nonFailing.skip one) large (stack 1)
  have headedTwo : Headed (((file.skip one).skip two).skip 1) header :=
    ⟨headed.magic, headed.version, headed.fields⟩
  have nonFailingTwo := ((nonFailing.skip one).skip two).skip 1
  obtain ⟨three, read⟩ :=
    headedTwo.qcow2ReadHeader nonFailingTwo large (stack 2)
  have bits : header.clusterBits ≤ 30 := consistent.wellFormed.clusterBits_le
  have shifted :
      intShift header.clusterBits = some (asInt (2 ^ header.clusterBits)) := by
    rw [intShift, if_pos (by omega), Nat.one_shiftLeft]
  have below : 2 ^ header.clusterBits < 2 ^ 31 :=
    Nat.pow_lt_pow_right (by decide) (by omega)
  have room : asOffT (asInt (2 ^ header.clusterBits)) < offT := by
    rw [(asOffT_asInt_eq_iff (by omega)).2 below]
    unfold offT
    omega
  have nonFailingThree := nonFailingTwo.skip three
  obtain ⟨q, opened⟩ :=
    qcowProbe_opens
      (show (imageOf .qcow2 header
        ((((((file.skip one).skip two).skip 1).skip three).skip 1).skip
          1 |>.skip 1)).Consistent from consistent)
      (((nonFailingThree.skip 1).skip 1).skip 1) fresh
  refine ⟨q, 1 + (1 + (1 + (three + (1 + (two + one))))), ?_, ?_⟩
  · unfold openQcow
    rw [notFirst]
    dsimp only
    rw [second]
    dsimp only
    unfold qcow2Probe
    rw [malloc_granted ((nonFailing.skip one).skip two) (by decide)]
    simp only [Option.bind_eq_bind, Option.bind_some, read, shifted]
    rw [malloc_granted nonFailingThree room]
    simp only [Option.bind_some]
    rw [malloc_granted (nonFailingThree.skip 1) room]
    simp only [Option.bind_some]
    rw [malloc_granted ((nonFailingThree.skip 1).skip 1) room]
    simp only [Option.bind_some]
    exact opened
  · simp only [HostFile.skip_skip] at opened
    exact opened

theorem malloc_skip {after : HostFile} {bytes : Nat}
    (granted : malloc file bytes = some after) : after = file.skip 1 := by
  unfold malloc at granted
  split at granted
  next => cases granted
  next => exact (Option.some.inj granted).symm

theorem isQcow1_skip (stack : Buffer) (file : HostFile) :
    ∃ calls, (isQcow1 stack file).2 = file.skip calls := by
  obtain ⟨moved, calls, read, -⟩ :=
    preadInFull_spec file stack 0 qcow1HeaderDiskSize 0
  refine ⟨calls, ?_⟩
  rw [isQcow1, read]
  by_cases none : moved = 0 ∧ qcow1HeaderDiskSize ≠ 0
  · rw [if_pos none]
  · rw [if_neg none]

/-- An image of version 2 that opens has such a header. -/
theorem headed_of_openQcow {stack : Nat → Buffer} {fresh : Buffer}
    {q : QcowState}
    (opened : openQcow stack fresh file = some q)
    (version : q.version = .qcow2) (nonFailing : file.NonFailing)
    (large : 512 ≤ file.size) :
    Headed file q.header ∧
      ∃ calls,
        qcowProbe .qcow2 q.header fresh (file.skip calls) = some q := by
  obtain ⟨one, skipped⟩ := isQcow1_skip (stack 0) file
  unfold openQcow at opened
  split at opened
  next =>
    unfold qcow1Probe at opened
    simp only [Option.bind_eq_bind, Option.bind_eq_some_iff] at opened
    obtain ⟨_, -, ⟨header, _⟩, -, _, -, _, -, _, -, probed⟩ := opened
    rw [(probed_of_qcowProbe probed).sameVersion] at version
    cases version
  next after notFirst =>
    rw [notFirst] at skipped
    dsimp only at skipped
    rw [skipped] at opened
    obtain ⟨disk, two, read, same⟩ :=
      preadHeader (nonFailing.skip one) large
        (by decide : qcow2HeaderDiskSize ≤ 512) (stack 1)
    unfold isQcow2 at opened
    rw [read] at opened
    dsimp only at opened
    split at opened
    next after second =>
      obtain ⟨fits, rfl⟩ := Prod.mk.inj second
      rw [Bool.and_eq_true, beq_iff_eq, beq_iff_eq] at fits
      unfold qcow2Probe qcow2ReadHeader at opened
      simp only [Option.bind_eq_bind, Option.bind_eq_some_iff] at opened
      obtain ⟨_, first, ⟨header, _⟩, ⟨_, next, fields⟩, _, -, _, third, _,
        fourth, _, fifth, probed⟩ := opened
      rw [malloc_skip first] at next
      rw [malloc_skip next] at fields
      obtain ⟨again, three, read, sameAgain⟩ :=
        preadHeader ((((nonFailing.skip one).skip two).skip 1).skip 1) large
          (by decide : qcow2HeaderDiskSize ≤ 512) (stack 2)
      rw [read] at fields
      obtain ⟨rfl, rfl⟩ := Prod.mk.inj (Option.some.inj fields)
      rw [malloc_skip third] at fourth
      rw [malloc_skip fourth] at fifth
      rw [malloc_skip fifth] at probed
      rw [(probed_of_qcowProbe probed).sameHeader]
      refine ⟨⟨?_, ?_, ?_⟩, ?_⟩
      · exact (number_congr same (by decide)).symm.trans fits.1
      · exact (number_congr same (by decide)).symm.trans fits.2
      · exact Headed.congr fun place small => (sameAgain place small).symm
      · simp only [HostFile.skip_skip] at probed
        exact ⟨_, probed⟩
    next => cases opened

end Opening

/-! ## The content over sessions -/

section Sessions

variable (lib : Rebalancer (Node Nat)) (turns : Nat) (inflate : Inflate)

/--
The file is an image with the header and the tables of a given one, and with
a given content of the virtual disk.
-/
structure Stored (image : Image) (content : Buffer) (file : HostFile) :
    Prop where
  nonFailing : file.NonFailing
  headed : Headed file image.header
  front : ∀ place < 512, file.bytes place = image.bytes place
  same : image.SameTables (imageOf .qcow2 image.header file)
  agree :
    ∀ position < image.header.size,
      (imageOf .qcow2 image.header file).byteAt position = content position

/-- The accesses of a session are made in place. -/
def Session.InPlace (image : Image) (session : Session) : Prop :=
  ∀ request, Access.write request ∈ session.accesses →
    request.InRange image.header ∧ request.Copied image

variable {image : Image} (consistent : image.Consistent)
  {content : Buffer} {file : HostFile}

include consistent

/-- What is stored is on show when the file is opened. -/
theorem Stored.opens (stored : Stored image content file)
    (stack : Nat → Buffer) (fresh : Buffer) :
    ∃ q,
      openQcow stack fresh file = some q ∧ q.header = image.header ∧
        Tracks image content q ∧ q.file.NonFailing := by
  have consistentNow := stored.same.consistent consistent
  obtain ⟨q, calls, opened, probed⟩ :=
    stored.headed.opens consistentNow stored.nonFailing stack fresh
  obtain ⟨shows, nonFailing⟩ :=
    shows_of_qcowProbe
      (show (imageOf .qcow2 image.header (file.skip calls)).WellFormed
        from consistentNow.wellFormed)
      (stored.nonFailing.skip calls) probed
  exact
    ⟨q, opened, (probed_of_qcowProbe probed).sameHeader,
      ⟨_, shows, stored.same, stored.agree, stored.front⟩, nonFailing⟩

/-- A session leaves what it has written. -/
theorem Stored.session (stored : Stored image content file)
    {session : Session} (inPlace : session.InPlace image) :
    ∃ after,
      sessionFile lib turns inflate file session = some after ∧
        Stored image (run contentStep content session.accesses) after := by
  obtain ⟨q, opened, -, tracks, nonFailing⟩ :=
    stored.opens consistent session.stack session.fresh
  obtain ⟨⟨current, shows, same, agree, front⟩, nonFailingAfter⟩ :=
    run_tracks lib turns inflate consistent tracks nonFailing inPlace
  refine ⟨_, by rw [sessionFile, opened, Option.map_some], ?_⟩
  generalize run (accessStep lib turns inflate) q session.accesses = last
    at shows nonFailingAfter
  have whole : imageOf .qcow2 image.header last.file = current := by
    have version := same.version.trans consistent.version
    have header := same.header
    have size := shows.size
    have bytes := shows.bytes
    cases current
    dsimp only at version header size bytes
    rw [imageOf, version, header, size, bytes]
  have frontAfter :
      ∀ place < 512, last.file.bytes place = image.bytes place := by
    rw [shows.bytes]
    exact front
  refine ⟨nonFailingAfter, ?_, frontAfter, whole ▸ same, whole ▸ agree⟩
  exact
    stored.headed.keep fun place small =>
      (frontAfter place small).trans (stored.front place small).symm

theorem Stored.sessions (stored : Stored image content file)
    {sessions : List Session}
    (inPlace : ∀ session ∈ sessions, session.InPlace image) :
    ∃ last,
      sessionsFile lib turns inflate file sessions = some last ∧
        Stored image (sessionsContent content sessions) last := by
  induction sessions generalizing file content with
  | nil => exact ⟨file, rfl, stored⟩
  | cons session rest induction =>
      obtain ⟨after, first, storedAfter⟩ :=
        stored.session lib turns inflate consistent
          (inPlace session List.mem_cons_self)
      obtain ⟨last, later, storedLast⟩ :=
        induction storedAfter fun other member =>
          inPlace other (List.mem_cons_of_mem session member)
      refine ⟨last, ?_, storedLast⟩
      rw [sessionsFile, first, Option.bind_some, later]

omit consistent in
/--
A consistent image of version 2 that opens, on a file that does not fail:
after any number of sessions, each of which opens the file, reads and writes
in place and closes it, the file opens again with the same header, whatever
is in uninitialized memory, and in every further session a read returns the
bytes written last in any session, or those that the image had.
-/
theorem content_kept_over_sessions {stack : Nat → Buffer} {fresh : Buffer}
    {q : QcowState}
    (opened : openQcow stack fresh file = some q)
    (version : q.version = .qcow2) (nonFailing : file.NonFailing)
    (consistent : (imageOf .qcow2 q.header file).Consistent)
    (sessions : List Session)
    (inPlace :
      ∀ session ∈ sessions, session.InPlace (imageOf .qcow2 q.header file)) :
    ∃ last,
      sessionsFile lib turns inflate file sessions = some last ∧
        ∀ session : Session,
          session.InPlace (imageOf .qcow2 q.header file) →
            ∃ again,
              openQcow session.stack session.fresh last = some again ∧
                again.header = q.header ∧
                  ∀ request : Request, request.InRange q.header →
                    ∃ after,
                      qcowReadSector lib inflate
                          (run (accessStep lib turns inflate) again
                            session.accesses)
                          request.sector request.mem request.iov =
                        some
                          ((iovLength request.iov : Int),
                            fillIovecs
                              (run contentStep
                                (sessionsContent
                                  (imageOf .qcow2 q.header file).byteAt
                                  sessions)
                                session.accesses)
                              request.mem (request.sector * 512)
                              request.iov,
                            after) := by
  obtain ⟨-, -, large⟩ := consistent.counted
  obtain ⟨headed, -, -⟩ :=
    headed_of_openQcow opened version nonFailing large
  have stored :
      Stored (imageOf .qcow2 q.header file)
        (imageOf .qcow2 q.header file).byteAt file :=
    ⟨nonFailing, headed, fun _ _ => rfl, .refl _, fun _ _ => rfl⟩
  obtain ⟨last, reached, storedLast⟩ :=
    stored.sessions lib turns inflate consistent inPlace
  refine ⟨last, reached, fun session sessionInPlace => ?_⟩
  obtain ⟨again, openedAgain, header, tracks, nonFailing⟩ :=
    storedLast.opens consistent session.stack session.fresh
  refine ⟨again, openedAgain, header, fun request inRange => ?_⟩
  obtain ⟨tracksNow, nonFailingNow⟩ :=
    run_tracks lib turns inflate consistent tracks nonFailing sessionInPlace
  exact tracksNow.reads lib inflate consistent nonFailingNow inRange

end Sessions

/-! ## A small image with a header -/

/-- The bytes of the header of the small image. -/
def headerContent : List (Nat × UInt8) :=
  [(0, 0x51), (1, 0x46), (2, 0x49), (3, 0xfb), (7, 2), (23, 9), (30, 4),
    (39, 1), (46, 6), (54, 2), (59, 1)]

/-- The small image, in a file that begins with its header. -/
def headedFile : HostFile where
  size := 3072
  bytes position :=
    if position < 512 then
      (headerContent.lookup position).getD 0
    else
      (smallFile fun _ => 4096).bytes position
  answers _ := 4096
  trimmed position behind := by
    rw [if_neg (by omega)]
    exact (smallFile fun _ => 4096).trimmed position behind

theorem headedFile_opens :
    (openQcow (fun _ _ => 0) (fun _ => 0) headedFile).isSome := by
  decide +kernel

/-- The state of the opened image. -/
def headedState : QcowState :=
  (openQcow (fun _ _ => 0) (fun _ => 0) headedFile).get headedFile_opens

theorem headedState_header : headedState.header = smallHeader := by
  decide +kernel

theorem headedFile_consistent :
    (imageOf .qcow2 smallHeader headedFile).Consistent := by
  have behind {place : Nat} (far : 512 ≤ place) :
      headedFile.bytes place = smallImage.bytes place :=
    if_neg (Nat.not_lt.2 far)
  have clusters {offset : Nat} (aligned : 512 ∣ offset)
      (present : offset ≠ 0) : 512 ≤ offset :=
    Nat.le_of_dvd (Nat.pos_of_ne_zero present) aligned
  refine Image.SameTables.consistent ?_ smallImage_consistent
  refine ⟨rfl, rfl, rfl, ?_, ?_, ?_, ?_⟩
  · intro position _
    have start : smallImage.header.l1TableOffset = 1536 := rfl
    exact behind (by omega)
  · intro position _
    have start : smallImage.header.refcountTableOffset = 512 := rfl
    exact behind (by omega)
  · intro l1Idx inTable present position _
    have far :=
      clusters (smallImage_consistent.tablesAligned l1Idx inTable) present
    exact behind (by omega)
  · intro rftIdx inTable present position _
    have far :=
      clusters (smallImage_consistent.blocksAligned rftIdx inTable) present
    exact behind (by omega)

/-- The first sector is written in one session and read in another. -/
theorem content_kept_over_two_sessions :
    let written : Session :=
      ⟨fun _ _ => 0, fun _ => 0, [.write ⟨0, fun _ => 1, [⟨0, 512⟩]⟩]⟩
    ∃ last,
      sessionsFile (.plain _) 0 (fun _ _ _ => none) headedFile [written] =
          some last ∧
        ∀ session : Session,
          session.InPlace (imageOf .qcow2 headedState.header headedFile) →
            ∃ again,
              openQcow session.stack session.fresh last = some again ∧
                again.header = headedState.header ∧
                  ∀ request : Request,
                    request.InRange headedState.header →
                      ∃ after,
                        qcowReadSector (.plain _) (fun _ _ _ => none)
                            (run (accessStep (.plain _) 0 fun _ _ _ => none)
                              again session.accesses)
                            request.sector request.mem request.iov =
                          some
                            ((iovLength request.iov : Int),
                              fillIovecs
                                (run contentStep
                                  (sessionsContent
                                    (imageOf .qcow2 headedState.header
                                      headedFile).byteAt
                                    [written])
                                  session.accesses)
                                request.mem (request.sector * 512)
                                request.iov,
                              after) := by
  refine
    content_kept_over_sessions (.plain _) 0 (fun _ _ _ => none)
      (Option.some_get headedFile_opens).symm (by decide +kernel)
      (fun _ => Nat.zero_lt_succ 4095)
      (headedState_header.symm ▸ headedFile_consistent)
      [⟨fun _ _ => 0, fun _ => 0, [.write ⟨0, fun _ => 1, [⟨0, 512⟩]⟩]⟩] ?_
  intro session member
  rw [List.mem_singleton] at member
  rw [member]
  intro request written
  rw [List.mem_singleton, Access.write.injEq] at written
  have header : (headedState.header) = smallHeader := headedState_header
  change request.InRange headedState.header ∧
    request.Copied (imageOf .qcow2 headedState.header headedFile)
  rw [header, written]
  refine ⟨⟨by decide, by decide⟩, fun position _ last => ?_⟩
  have small : position < 512 := last
  have l1Index :
      (imageOf .qcow2 smallHeader headedFile).l1Index position = 0 :=
    Nat.div_eq_of_lt (small.trans (by decide))
  have l2Index :
      (imageOf .qcow2 smallHeader headedFile).l2Index position = 0 := by
    show position / 512 % 64 = 0
    rw [Nat.div_eq_of_lt small]
  rw [Image.Copied, l1Index, l2Index]
  decide +kernel

end Kemu.Disk.Qcow
