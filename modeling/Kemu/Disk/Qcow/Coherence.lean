import Kemu.Disk.Qcow.Refcount
import Kemu.Disk.Qcow.Write

/-!
# Writing in place

A write to clusters that both tables mark as copied goes straight to the
file.  On a consistent image such writes keep the tables, the caches and the
refcounts as they are, and change the virtual disk in their own range only;
what is read afterwards is what was written last.

Every other write has to allocate a cluster, and fails after the allocator
has counted it.
-/

namespace Kemu.Disk.Qcow

open Kemu.Lib.LruCache
open Kemu.Lib.SearchTree
open Kemu.Lib.Transition
open Kemu.Util.IoVector
open Kemu.Util.ReadWrite

/-! ## One cluster -/

theorem and_oflagTop_eq_zero {entry : Nat} (small : entry < 2 ^ 64) :
    entry &&& oflagTop = 0 ↔ entry < oflagTop := by
  rw [oflagTop, Nat.and_two_pow, Nat.testBit_eq_decide_div_mod_eq]
  simp
  omega

theorem Shows.patch
    {image : Image} {q : QcowState} (shows : Shows image q)
    {start count : Nat} {source : Buffer} {src : Nat}
    (same : image.SameTables (image.patch start count source src))
    (inside : start + count ≤ image.size) (calls : Nat) :
    Shows (image.patch start count source src)
      { q with
        file := (q.file.write start count source src).skip calls } := by
  constructor
  · exact shows.version
  · exact shows.header
  · have sizeNow := shows.size
    rw [← sizeNow] at inside
    exact (HostFile.write_size_inside inside source src).trans sizeNow
  · show store q.file.bytes start count source src = _
    rw [shows.bytes]
    rfl
  · intro position small
    exact (shows.l1Table position small).trans
      (same.l1 position small).symm
  · exact shows.cacheSound
  · intro node member
    obtain ⟨payload, stored, ⟨l1Idx, inTable, present, key⟩, shown⟩ :=
      shows.cacheHolds node member
    have offset := same.tableOffset inTable
    refine ⟨payload, stored, ⟨l1Idx, inTable, ?_, offset.trans key⟩, ?_⟩
    · rw [offset]
      exact present
    · intro position small
      rw [shown position small, ← key]
      exact (same.tables l1Idx inTable present position small).symm
  · exact shows.contained

section Writing

variable (lib : Rebalancer (Node Nat)) (turns : Nat) (inflate : Inflate)

section InPlace

variable {image : Image} {q : QcowState}
  (consistent : image.Consistent) (shows : Shows image q)
  {offset : Nat} (inDisk : offset < image.header.size)
  (copied : image.Copied offset)

include consistent shows inDisk copied

/-- A table that is marked as copied is used as it is. -/
theorem getClusterTable_copied
    (arrives :
      TableArrives q (image.tableOffset (image.l1Index offset))) :
    ∃ found after calls,
      getClusterTable lib turns q offset =
          some (found.map fun l2t => (l2t, image.l2Index offset), after) ∧
        Shows image after ∧ after.file = q.file.skip calls ∧
        (q.file.NonFailing → found ≠ none) ∧
        ∀ l2t, found = some l2t →
          be64 (after.tableOf l2t) (image.l2Index offset * 8) =
            image.l2Entry (image.l1Index offset)
              (image.l2Index offset) := by
  have wellFormed := consistent.wellFormed
  have inTable := l1Index_lt wellFormed inDisk
  have inL2 := l2Index_lt image offset
  have present := consistent.present inDisk copied
  have inside := wellFormed.tablesInside _ inTable present
  obtain ⟨found, after, calls, read, showsAfter, skipped, shown⟩ :=
    qcowReadL2Table_shows lib shows ⟨_, inTable, present, rfl⟩ arrives
  have marked :
      (image.l1Entry (image.l1Index offset) &&& oflagTop != 0) = true := by
    rw [bne_iff_ne]
    exact mt (and_oflagTop_eq_zero (be64_lt _ _)).mp
      (Nat.not_lt.mpr copied.1)
  have masked :
      image.l1Entry (image.l1Index offset) &&& maskBelow 63 =
        image.tableOffset (image.l1Index offset) := by
    have same := l2tOffset_eq image (image.l1Index offset)
    rw [consistent.version] at same
    exact same
  refine ⟨found, after, calls, ?_, showsAfter, skipped, ?_, ?_⟩
  · unfold getClusterTable
    dsimp only
    rw [shows.header, getL1Index_eq, getL2Index_eq,
      if_neg (Nat.not_le.mpr inTable), if_neg (Nat.not_le.mpr inL2),
      shows.l1Entry inTable, if_pos marked, masked, read]
    cases found <;> rfl
  · intro nonFailing
    have success :=
      qcowReadL2Table_succeeds lib shows nonFailing wellFormed.addressable
        inside
    rw [read] at success
    exact success
  · intro l2t isFound
    apply be64_congr
    intro index small
    rw [shown l2t isFound _ (by omega), Nat.add_assoc]

/--
A write to a copied cluster changes a prefix of its own range, and the whole
of it when it succeeds.
-/
theorem qcowWriteCluster_copied
    (arrives : TableArrives q (image.tableOffset (image.l1Index offset)))
    (mem : Buffer) (buf srcLen : Nat) :
    ∃ result written after,
      qcowWriteCluster lib turns inflate q offset mem buf srcLen =
          some (result, after) ∧
        written ≤ clusterRest image.header offset srcLen ∧
        Shows (image.patch (image.home offset) written mem buf) after ∧
        (result = none ∨
          result = some (clusterRest image.header offset srcLen) ∧
            written = clusterRest image.header offset srcLen) ∧
        (q.file.NonFailing → result ≠ none ∧ after.file.NonFailing) := by
  have wellFormed := consistent.wellFormed
  have inTable := l1Index_lt wellFormed inDisk
  have inL2 := l2Index_lt image offset
  have present := consistent.present inDisk copied
  have allocated := consistent.allocated inDisk copied
  have inside :=
    wellFormed.clustersInside _ inTable present _ inL2 allocated
  have inCluster :
      offset % image.header.clusterSize < image.header.clusterSize :=
    Nat.mod_lt _ (clusterSize_pos _)
  have bound :
      clusterRest image.header offset srcLen ≤
        image.header.clusterSize - offset % image.header.clusterSize :=
    Nat.min_le_left _ _
  obtain ⟨found, before, calls, gotten, showsBefore, skipped, success,
      entry⟩ :=
    getClusterTable_copied lib turns consistent shows inDisk copied arrives
  have nonFailingBefore :
      q.file.NonFailing → before.file.NonFailing := by
    intro nonFailing
    rw [skipped]
    exact nonFailing.skip calls
  unfold qcowWriteCluster
  dsimp only
  rw [shows.header, getClusterOffset_eq,
    if_neg (Nat.not_le.mpr inCluster), ← clusterRest, gotten]
  generalize clusterRest image.header offset srcLen = length at bound ⊢
  cases found with
  | none =>
      refine ⟨none, 0, before, rfl, Nat.zero_le _, ?_, Or.inl rfl, ?_⟩
      · have unchanged : image.patch (image.home offset) 0 mem buf = image := by
          rw [Image.patch, store_zero]
        rw [unchanged]
        exact showsBefore
      · intro nonFailing
        exact absurd rfl (success nonFailing)
  | some l2t =>
      have marked :
          ¬ image.l2Entry (image.l1Index offset) (image.l2Index offset) &&&
            oflagTop = 0 :=
        mt (and_oflagTop_eq_zero (be64_lt _ _)).mp
          (Nat.not_lt.mpr copied.2)
      have masked :
          (image.l2Entry (image.l1Index offset) (image.l2Index offset) &&&
              maskBelow 62) + offset % image.header.clusterSize =
            image.home offset := by
        have same :=
          clustStart_eq image (image.l1Index offset) (image.l2Index offset)
        rw [consistent.version] at same
        rw [Image.home, ← same]
        rfl
      have homeInside : image.home offset + length ≤ image.size := by
        unfold Image.home
        omega
      obtain ⟨written, more, fileAfter, partly, wholly⟩ :=
        pwriteInFull_spec mem buf
          (show image.home offset + length ≤ before.file.size by
            rw [showsBefore.size]
            exact homeInside)
      have same :=
        consistent.sameTables_patch inDisk copied (partly.trans bound) mem
          buf
      have showsAfter := showsBefore.patch same (by omega) more
      rw [← fileAfter] at showsAfter
      have answered :
          q.file.NonFailing →
            (pwriteInFull before.file mem buf length
                (image.home offset)).1 = true ∧
              (pwriteInFull before.file mem buf length
                (image.home offset)).2.NonFailing := by
        intro nonFailing
        refine ⟨pwriteInFull_success mem buf (nonFailingBefore nonFailing)
          (homeInside.trans wellFormed.addressable), ?_⟩
        rw [fileAfter]
        exact (nonFailingBefore nonFailing).skip more
      simp only [Option.map_some]
      rw [entry l2t rfl, if_neg marked, masked]
      cases outcome :
          pwriteInFull before.file mem buf length (image.home offset) with
      | mk complete file =>
          rw [outcome] at showsAfter wholly answered
          cases complete with
          | false =>
              refine ⟨none, written, _, rfl, partly, showsAfter,
                Or.inl rfl, ?_⟩
              intro nonFailing
              cases (answered nonFailing).1
          | true =>
              refine ⟨some length, written, _, rfl, partly, showsAfter,
                Or.inr ⟨rfl, wholly rfl⟩, ?_⟩
              intro nonFailing
              exact ⟨Option.some_ne_none _, (answered nonFailing).2⟩

end InPlace

/-! ## The content of the disk -/

/--
The state shows an image with the tables and the first bytes of a given one,
and with a given content of the virtual disk.
-/
def Tracks (image : Image) (content : Buffer) (q : QcowState) : Prop :=
  ∃ current,
    Shows current q ∧ image.SameTables current ∧
      (∀ position < image.header.size,
        current.byteAt position = content position) ∧
      ∀ place < 512, current.bytes place = image.bytes place

/-- The content of the disk after buffers were written to it. -/
def applyIovecs (mem : Buffer) : Buffer → Nat → List Iovec → Buffer
  | content, _, [] => content
  | content, position, iov :: rest =>
      applyIovecs mem (store content position iov.len mem iov.base)
        (position + iov.len) rest

section Tracking

variable {image : Image} (consistent : image.Consistent)

include consistent

/-- A copied cluster lies behind the first one. -/
theorem Image.Consistent.le_home {offset : Nat}
    (inDisk : offset < image.header.size)
    (copied : image.Copied offset) : 512 ≤ image.home offset := by
  have wellFormed := consistent.wellFormed
  have inTable := l1Index_lt wellFormed inDisk
  have aligned :=
    consistent.clustersAligned _ inTable
      (consistent.present inDisk copied) _ (l2Index_lt image offset)
  have whole :=
    Nat.le_of_dvd
      (Nat.pos_of_ne_zero (consistent.allocated inDisk copied)) aligned
  have large : 2 ^ 9 ≤ 2 ^ image.header.clusterBits :=
    Nat.pow_le_pow_right (by decide) wellFormed.clusterBits_ge
  rw [clusterSize_eq] at whole
  unfold Image.home
  omega

/-- A copied cluster takes what is written to it. -/
theorem qcowWriteCluster_tracks
    {q : QcowState} {content : Buffer} (tracks : Tracks image content q)
    (nonFailing : q.file.NonFailing)
    {offset : Nat} (inDisk : offset < image.header.size)
    (copied : image.Copied offset) (mem : Buffer) (buf srcLen : Nat) :
    ∃ after,
      qcowWriteCluster lib turns inflate q offset mem buf srcLen =
          some (some (clusterRest image.header offset srcLen), after) ∧
        Tracks image
          (store content offset (clusterRest image.header offset srcLen)
            mem buf) after ∧
        after.file.NonFailing := by
  obtain ⟨current, shows, same, agree, front⟩ := tracks
  have consistentNow := same.consistent consistent
  have copiedNow := (same.copied_iff consistent inDisk).mpr copied
  have inDiskNow : offset < current.header.size := by
    rw [same.header]
    exact inDisk
  have inTable := l1Index_lt consistentNow.wellFormed inDiskNow
  have present := consistentNow.present inDiskNow copiedNow
  have arrives :=
    tableArrives_of_nonFailing shows nonFailing
      consistentNow.wellFormed.addressable
      (consistentNow.wellFormed.tablesInside _ inTable present)
  obtain ⟨result, written, after, wrote, -, showsAfter, outcome, success⟩ :=
    qcowWriteCluster_copied lib turns inflate consistentNow shows inDiskNow
      copiedNow arrives mem buf srcLen
  obtain ⟨returned, nonFailingAfter⟩ := success nonFailing
  obtain ⟨full, wholly⟩ := outcome.resolve_left returned
  have within :
      clusterRest current.header offset srcLen ≤
        current.header.clusterSize - offset % current.header.clusterSize :=
    Nat.min_le_left _ _
  have samePatch :=
    consistentNow.sameTables_patch inDiskNow copiedNow within mem buf
  rw [wholly] at showsAfter
  rw [full] at wrote
  rw [same.header] at wrote
  refine ⟨after, wrote, ?_, nonFailingAfter⟩
  refine ⟨_, showsAfter, same.trans samePatch, ?_, ?_⟩
  · intro position small
    rw [consistentNow.byteAt_patch inDiskNow copiedNow within mem buf
      (same.header.symm ▸ small), same.header]
    unfold store
    split
    · rfl
    · exact agree position small
  · intro place small
    have behind := consistentNow.le_home inDiskNow copiedNow
    have apart (count : Nat) :
        ¬ (current.home offset ≤ place ∧
          place < current.home offset + count) := by
      omega
    exact
      (store_of_not_mem (apart _) current.bytes mem buf).trans
        (front place small)

/-- Copied clusters inside the disk are written to the end. -/
theorem writeSectorLoop_tracks
    (rest offset srcLen nrWritten : Nat) (mem : Buffer) (buf : Nat)
    {q : QcowState} {content : Buffer} (tracks : Tracks image content q)
    (nonFailing : q.file.NonFailing)
    (begun : nrWritten ≤ srcLen) (enough : srcLen - nrWritten < rest)
    (short : srcLen < 2 ^ 32)
    (inDisk : offset + (srcLen - nrWritten) ≤ image.header.size)
    (copied :
      ∀ position, offset ≤ position →
        position < offset + (srcLen - nrWritten) →
          image.Copied position) :
    ∃ after,
      writeSectorLoop lib turns inflate rest q offset mem buf srcLen
          nrWritten =
        some ((srcLen : Int), after) ∧
        Tracks image (store content offset (srcLen - nrWritten) mem buf)
          after ∧
        after.file.NonFailing := by
  induction rest generalizing q offset content buf nrWritten with
  | zero => cases enough
  | succ rest induction =>
      rw [writeSectorLoop]
      by_cases more : nrWritten < srcLen
      · have here : offset < image.header.size := by omega
        have header : q.header = image.header := by
          obtain ⟨current, shows, same, -⟩ := tracks
          rw [shows.header, same.header]
        have inCluster :=
          Nat.mod_lt offset (clusterSize_pos image.header)
        have positive :
            0 < clusterRest image.header offset (srcLen - nrWritten) := by
          unfold clusterRest
          omega
        have bounded :
            clusterRest image.header offset (srcLen - nrWritten) ≤
              srcLen - nrWritten :=
          Nat.min_le_right _ _
        have sizeBound := consistent.wellFormed.size_lt
        obtain ⟨found, wrote, tracksFound, nonFailingFound⟩ :=
          qcowWriteCluster_tracks lib turns inflate consistent tracks
            nonFailing here (copied offset le_rfl (by omega)) mem buf
            (srcLen - nrWritten)
        rw [if_pos more, header, if_neg (Nat.not_le.mpr here), wrote]
        dsimp only
        generalize clusterRest image.header offset (srcLen - nrWritten) =
          nr at *
        have keptOffset : (offset + nr) % 2 ^ 64 = offset + nr :=
          Nat.mod_eq_of_lt (by omega)
        have keptTotal : (nrWritten + nr) % 2 ^ 32 = nrWritten + nr :=
          Nat.mod_eq_of_lt (by omega)
        have remaining :
            nr + (srcLen - (nrWritten + nr)) = srcLen - nrWritten := by
          omega
        rw [keptOffset, keptTotal]
        obtain ⟨after, later, tracksAfter, nonFailingAfter⟩ :=
          induction (offset + nr) (nrWritten + nr) (buf + nr) tracksFound
            nonFailingFound (by omega) (by omega) (by omega)
            (fun position first last =>
              copied position (by omega) (by omega))
        refine ⟨after, later, ?_, nonFailingAfter⟩
        rw [store_store, remaining] at tracksAfter
        exact tracksAfter
      · have done : nrWritten = srcLen := by omega
        refine ⟨q, ?_, ?_, nonFailing⟩
        · rw [if_neg more, done]
        · rw [done, Nat.sub_self, store_zero]
          exact tracks

theorem writeIovecs_tracks
    (sector : Nat) (mem : Buffer) {iov : List Iovec} (total : Int)
    {q : QcowState} {content : Buffer} (tracks : Tracks image content q)
    (nonFailing : q.file.NonFailing)
    (sectors : WholeSectors iov)
    (inDisk : sector * 512 + iovLength iov ≤ image.header.size)
    (copied :
      ∀ position, sector * 512 ≤ position →
        position < sector * 512 + iovLength iov →
          image.Copied position) :
    ∃ after,
      writeIovecs lib turns inflate q sector mem iov total =
        some (total + iovLength iov, after) ∧
        Tracks image (applyIovecs mem content (sector * 512) iov) after ∧
        after.file.NonFailing := by
  induction iov generalizing q sector content total with
  | nil =>
      refine ⟨q, ?_, tracks, nonFailing⟩
      simp [writeIovecs, iovLength]
  | cons entry rest induction =>
      obtain ⟨whole, short⟩ := sectors entry List.mem_cons_self
      have restSectors : WholeSectors rest := fun other member =>
        sectors other (List.mem_cons_of_mem entry member)
      have lengthEq :
          iovLength (entry :: rest) = entry.len + iovLength rest := rfl
      have thisInDisk :
          sector * 512 + (entry.len - 0) ≤ image.header.size := by
        omega
      have thisCopied :
          ∀ position, sector * 512 ≤ position →
            position < sector * 512 + (entry.len - 0) →
              image.Copied position := by
        intro position first last
        exact copied position first (by omega)
      obtain ⟨nextOffset, nextSector⟩ :=
        sector_step whole
          (thisInDisk.trans_lt consistent.wellFormed.size_lt)
      have nextInDisk :
          (sector + entry.len / 512) * 512 + iovLength rest ≤
            image.header.size := by
        rw [nextOffset, Nat.add_assoc]
        exact inDisk
      have nextCopied :
          ∀ position, (sector + entry.len / 512) * 512 ≤ position →
            position <
                (sector + entry.len / 512) * 512 + iovLength rest →
              image.Copied position := by
        rw [nextOffset, Nat.add_assoc]
        intro position first last
        exact copied position ((Nat.le_add_right _ _).trans first) last
      have start : sector <<< sectorShift % 2 ^ 64 = sector * 512 := by
        rw [Nat.shiftLeft_eq, sectorShift]
        exact Nat.mod_eq_of_lt
          (((Nat.le_add_right _ _).trans thisInDisk).trans_lt
            consistent.wellFormed.size_lt)
      obtain ⟨found, wrote, tracksFound, nonFailingFound⟩ :=
        writeSectorLoop_tracks lib turns inflate consistent
          (entry.len + 1) (sector * 512) entry.len 0 mem entry.base tracks
          nonFailing (Nat.zero_le _) (Nat.lt_succ_self _) short thisInDisk
          thisCopied
      obtain ⟨after, later, tracksAfter, nonFailingAfter⟩ :=
        induction (sector + entry.len / 512) (total + entry.len)
          tracksFound nonFailingFound restSectors nextInDisk nextCopied
      refine ⟨after, ?_, ?_, nonFailingAfter⟩
      · rw [writeIovecs, Nat.mod_eq_of_lt short, qcowWriteSectorSingle,
          start, wrote]
        simp only [ne_eq, not_true_eq_false, if_false]
        rw [nextSector, later, lengthEq]
        simp [Int.add_assoc]
      · rw [nextOffset] at tracksAfter
        exact tracksAfter

end Tracking

/-! ## Runs of reads and writes -/

/-- A call of the disk's operations. -/
inductive Access where
  | read (request : Request)
  | write (request : Request)

/-- The state after a write. -/
def writeStep (q : QcowState) (request : Request) : QcowState :=
  ((qcowWriteSector lib turns inflate q request.sector request.mem
    request.iov).map Prod.snd).getD q

/-- The state after a call. -/
def accessStep (q : QcowState) : Access → QcowState
  | .read request => readStep lib inflate q request
  | .write request => writeStep lib turns inflate q request

/-- The content that a disk should have after a call. -/
def contentStep (content : Buffer) : Access → Buffer
  | .read _ => content
  | .write request =>
      applyIovecs request.mem content (request.sector * 512) request.iov

/-- Whole sectors inside the virtual disk. -/
def Request.InRange (header : QcowHeader) (request : Request) : Prop :=
  WholeSectors request.iov ∧
    request.sector * 512 + iovLength request.iov ≤ header.size

/-- Every cluster of the request is marked as copied in both tables. -/
def Request.Copied (image : Image) (request : Request) : Prop :=
  ∀ position, request.sector * 512 ≤ position →
    position < request.sector * 512 + iovLength request.iov →
      image.Copied position

section Runs

variable {image : Image} (consistent : image.Consistent)

include consistent

theorem qcowWriteSector_tracks
    {q : QcowState} {content : Buffer} (tracks : Tracks image content q)
    (nonFailing : q.file.NonFailing) {request : Request}
    (inRange : request.InRange image.header)
    (copied : request.Copied image) :
    ∃ after,
      qcowWriteSector lib turns inflate q request.sector request.mem
          request.iov =
        some ((iovLength request.iov : Int), after) ∧
        Tracks image (contentStep content (.write request)) after ∧
        after.file.NonFailing := by
  obtain ⟨after, wrote, tracksAfter, nonFailingAfter⟩ :=
    writeIovecs_tracks lib turns inflate consistent request.sector
      request.mem 0 tracks nonFailing inRange.1 inRange.2 copied
  rw [Int.zero_add] at wrote
  exact ⟨after, wrote, tracksAfter, nonFailingAfter⟩

/-- A call keeps the state in step with the content. -/
theorem accessStep_tracks
    {q : QcowState} {content : Buffer} (tracks : Tracks image content q)
    (nonFailing : q.file.NonFailing) {access : Access}
    (inPlace :
      ∀ request, access = .write request →
        request.InRange image.header ∧ request.Copied image) :
    Tracks image (contentStep content access)
        (accessStep lib turns inflate q access) ∧
      (accessStep lib turns inflate q access).file.NonFailing := by
  cases access with
  | read request =>
      obtain ⟨current, shows, same, content⟩ := tracks
      obtain ⟨showsAfter, nonFailingAfter⟩ :=
        shows_readStep lib inflate
          (same.wellFormed consistent.wellFormed) request shows nonFailing
      exact ⟨⟨current, showsAfter, same, content⟩, nonFailingAfter⟩
  | write request =>
      obtain ⟨inRange, copied⟩ := inPlace request rfl
      obtain ⟨after, wrote, tracksAfter, nonFailingAfter⟩ :=
        qcowWriteSector_tracks lib turns inflate consistent tracks
          nonFailing inRange copied
      have reached :
          accessStep lib turns inflate q (.write request) = after := by
        rw [accessStep, writeStep, wrote]
        rfl
      rw [reached]
      exact ⟨tracksAfter, nonFailingAfter⟩

theorem run_tracks
    {q : QcowState} {content : Buffer} (tracks : Tracks image content q)
    (nonFailing : q.file.NonFailing) {accesses : List Access}
    (inPlace :
      ∀ request, Access.write request ∈ accesses →
        request.InRange image.header ∧ request.Copied image) :
    Tracks image (run contentStep content accesses)
        (run (accessStep lib turns inflate) q accesses) ∧
      (run (accessStep lib turns inflate) q accesses).file.NonFailing := by
  induction accesses generalizing q content with
  | nil => exact ⟨tracks, nonFailing⟩
  | cons access rest induction =>
      obtain ⟨tracksNext, nonFailingNext⟩ :=
        accessStep_tracks lib turns inflate consistent tracks nonFailing
          (fun request same =>
            inPlace request (same ▸ List.mem_cons_self))
      exact induction tracksNext nonFailingNext
        (fun request member =>
          inPlace request (List.mem_cons_of_mem access member))

end Runs

/-! ## Reading back -/

theorem fillIovecs_congr
    {first second : Buffer} (mem : Buffer) (position : Nat)
    {iov : List Iovec} {size : Nat}
    (inDisk : position + iovLength iov ≤ size)
    (same : ∀ place < size, first place = second place) :
    fillIovecs first mem position iov =
      fillIovecs second mem position iov := by
  induction iov generalizing mem position with
  | nil => rfl
  | cons entry rest induction =>
      have lengthEq :
          iovLength (entry :: rest) = entry.len + iovLength rest := rfl
      have stored :
          store mem entry.base entry.len first position =
            store mem entry.base entry.len second position :=
        store_congr (fun index small => same _ (by omega)) mem entry.base
      rw [fillIovecs, fillIovecs, stored]
      exact induction _ _ (by omega)

/-- A read returns the content. -/
theorem Tracks.reads {image : Image} (consistent : image.Consistent)
    {content : Buffer} {q : QcowState} (tracks : Tracks image content q)
    (nonFailing : q.file.NonFailing) {request : Request}
    (inRange : request.InRange image.header) :
    ∃ after,
      qcowReadSector lib inflate q request.sector request.mem request.iov =
        some
          ((iovLength request.iov : Int),
            fillIovecs content request.mem (request.sector * 512)
              request.iov,
            after) := by
  obtain ⟨current, shows, same, agree, -⟩ := tracks
  have inDisk :
      request.sector * 512 + iovLength request.iov ≤
        current.header.size := by
    rw [same.header]
    exact inRange.2
  obtain ⟨after, read, -, -⟩ :=
    readIovecs_spec lib inflate (same.wellFormed consistent.wellFormed)
      request.sector request.mem 0 shows nonFailing inRange.1 inDisk
  refine ⟨after, ?_⟩
  rw [qcowReadSector, read, Int.zero_add,
    fillIovecs_congr request.mem (request.sector * 512) inRange.2 agree]

/--
From an opened consistent image on a file that does not fail: in every run
of reads and of writes to copied clusters, each write returns its length,
and a read then returns the bytes last written, or those the image had.
-/
theorem write_read_coherent
    {header : QcowHeader} {fresh : Buffer} {file : HostFile}
    {q : QcowState}
    (consistent : (imageOf .qcow2 header file).Consistent)
    (nonFailing : file.NonFailing)
    (opened : qcowProbe .qcow2 header fresh file = some q)
    (accesses : List Access)
    (inRange :
      ∀ request, Access.write request ∈ accesses →
        request.InRange header)
    (copied :
      ∀ request, Access.write request ∈ accesses →
        request.Copied (imageOf .qcow2 header file)) :
    (∀ earlier request later,
      accesses = earlier ++ .write request :: later →
        (qcowWriteSector lib turns inflate
            (run (accessStep lib turns inflate) q earlier)
            request.sector request.mem request.iov).map Prod.fst =
          some (iovLength request.iov : Int)) ∧
      ∀ request : Request, request.InRange header →
        ∃ after,
          qcowReadSector lib inflate
              (run (accessStep lib turns inflate) q accesses)
              request.sector request.mem request.iov =
            some
              ((iovLength request.iov : Int),
                fillIovecs
                  (run contentStep (imageOf .qcow2 header file).byteAt
                    accesses)
                  request.mem (request.sector * 512) request.iov,
                after) := by
  obtain ⟨shows, nonFailingOpen⟩ :=
    shows_of_qcowProbe consistent.wellFormed nonFailing opened
  have tracks :
      Tracks (imageOf .qcow2 header file)
        (imageOf .qcow2 header file).byteAt q :=
    ⟨_, shows, Image.SameTables.refl _, fun _ _ => rfl, fun _ _ => rfl⟩
  constructor
  · rintro earlier request later rfl
    obtain ⟨tracksNow, nonFailingNow⟩ :=
      run_tracks lib turns inflate consistent tracks nonFailingOpen
        (fun other member =>
          ⟨inRange other (List.mem_append_left _ member),
            copied other (List.mem_append_left _ member)⟩)
    have member :
        Access.write request ∈ earlier ++ .write request :: later :=
      List.mem_append_right _ List.mem_cons_self
    obtain ⟨after, wrote, -, -⟩ :=
      qcowWriteSector_tracks lib turns inflate consistent tracksNow
        nonFailingNow (inRange request member) (copied request member)
    rw [wrote]
    rfl
  · intro request requestInRange
    obtain ⟨tracksNow, nonFailingNow⟩ :=
      run_tracks lib turns inflate consistent tracks nonFailingOpen
        (fun other member =>
          ⟨inRange other member, copied other member⟩)
    exact
      tracksNow.reads lib inflate consistent nonFailingNow requestInRange

end Writing

/-- A write to the first cluster of the small disk, a read, and a write. -/
theorem write_read_coherent_on_smallImage :
    ∃ after,
      qcowReadSector (.plain _) (fun _ _ _ => none)
          (run (accessStep (.plain _) 0 fun _ _ _ => none) smallState
            [.write ⟨0, fun _ => 1, [⟨0, 512⟩]⟩,
              .read ⟨1, fun _ => 0, [⟨0, 512⟩]⟩,
              .write ⟨0, fun _ => 2, [⟨0, 512⟩]⟩])
          0 (fun _ => 0) [⟨0, 1024⟩] =
        some
          (1024,
            fillIovecs
              (run contentStep smallImage.byteAt
                [.write ⟨0, fun _ => 1, [⟨0, 512⟩]⟩,
                  .read ⟨1, fun _ => 0, [⟨0, 512⟩]⟩,
                  .write ⟨0, fun _ => 2, [⟨0, 512⟩]⟩])
              (fun _ => 0) 0 [⟨0, 1024⟩],
            after) := by
  have inPlace :
      ∀ request,
        Access.write request ∈
            [Access.write ⟨0, fun _ => 1, [⟨0, 512⟩]⟩,
              .read ⟨1, fun _ => 0, [⟨0, 512⟩]⟩,
              .write ⟨0, fun _ => 2, [⟨0, 512⟩]⟩] →
          request.sector = 0 ∧ request.iov = [⟨0, 512⟩] := by
    intro request member
    simp only [List.mem_cons, List.not_mem_nil, or_false,
      Access.write.injEq, reduceCtorEq, false_or] at member
    rcases member with rfl | rfl
    all_goals exact ⟨rfl, rfl⟩
  have firstCluster :
      ∀ position < 512, smallImage.Copied position := by
    intro position small
    have l1Index : smallImage.l1Index position = 0 :=
      Nat.div_eq_of_lt (small.trans (by decide))
    have l2Index : smallImage.l2Index position = 0 := by
      show position / 512 % 64 = 0
      rw [Nat.div_eq_of_lt small]
    rw [Image.Copied, l1Index, l2Index]
    decide +kernel
  refine
    (write_read_coherent (.plain _) 0 (fun _ _ _ => none)
      smallImage_consistent smallFile_nonFailing smallState_opened
      [.write ⟨0, fun _ => 1, [⟨0, 512⟩]⟩,
        .read ⟨1, fun _ => 0, [⟨0, 512⟩]⟩,
        .write ⟨0, fun _ => 2, [⟨0, 512⟩]⟩] ?_ ?_).2
      ⟨0, fun _ => 0, [⟨0, 1024⟩]⟩ ⟨by decide, by decide⟩
  · intro request member
    obtain ⟨sector, iov⟩ := inPlace request member
    rw [Request.InRange, sector, iov]
    exact ⟨by decide, by decide⟩
  · intro request member
    obtain ⟨sector, iov⟩ := inPlace request member
    rw [Request.Copied, sector, iov]
    intro position _ last
    exact firstCluster position last

/-! ## A write that has to allocate -/

/--
A write to the second cluster of the small disk, which has none in the file
yet: the image is consistent, the host does not fail and there are free
clusters, but the write returns -1.
-/
theorem allocating_write_fails :
    smallImage.Consistent ∧ (smallFile fun _ => 4096).NonFailing ∧
      qcowProbe .qcow2 smallHeader (fun _ => 0)
          (smallFile fun _ => 4096) = some smallState ∧
      smallImage.refcount 6 = 0 ∧
      Request.InRange smallHeader ⟨1, fun _ => 1, [⟨0, 512⟩]⟩ ∧
      (qcowWriteSector (.plain _) 16 (fun _ _ _ => none) smallState 1
          (fun _ => 1) [⟨0, 512⟩]).map Prod.fst =
        some (-1) :=
  ⟨smallImage_consistent, smallFile_nonFailing, smallState_opened,
    smallImage_refcount le_rfl, ⟨by decide, by decide⟩, by decide +kernel⟩

end Kemu.Disk.Qcow
