import Kemu.Disk.Qcow.Coherence

/-!
# Exact refcounts, whatever the host answers

The turns of `qcow_write_sector` are its calls of `qcow_write_cluster`, each
with the state before it.  When every turn is at a cluster that both tables
mark as copied, and no L2 table is cut short while it is read, a write keeps
every refcount equal to the number of references, also when the host fails
in the middle of it.

A turn at any other cluster runs into the error branch behind the allocator:
the cluster it was given stays counted, and nothing refers to it.
-/

namespace Kemu.Disk.Qcow

open Kemu.Lib.LruCache
open Kemu.Lib.SearchTree
open Kemu.Lib.Transition
open Kemu.Util.IoVector
open Kemu.Util.ReadWrite

/-! ## States with a consistent image -/

/-- The image in the file of a state. -/
def QcowState.image (q : QcowState) : Image :=
  imageOf q.version q.header q.file

theorem Shows.image_eq {image : Image} {q : QcowState}
    (shows : Shows image q) : q.image = image := by
  rw [QcowState.image, imageOf, shows.version, shows.header, shows.size,
    shows.bytes]

/-- The image is consistent, and the tables in memory agree with it. -/
structure Intact (q : QcowState) : Prop where
  consistent : q.image.Consistent
  shows : Shows q.image q

theorem Intact.of_shows {image : Image} {q : QcowState}
    (consistent : image.Consistent) (shows : Shows image q) :
    Intact q := by
  have same := shows.image_eq
  refine ⟨?_, ?_⟩
  · rw [same]
    exact consistent
  · rw [same]
    exact shows

/--
A turn that writes in place: its cluster is marked as copied in both tables
of the image, and the L2 table is not cut short if it has to be read.
-/
structure InPlace (turn : QcowState × Nat) : Prop where
  copied : turn.1.image.Copied turn.2
  arrives :
    TableArrives turn.1
      (turn.1.image.tableOffset (turn.1.image.l1Index turn.2))

section Turns

variable (lib : Rebalancer (Node Nat)) (turns : Nat) (inflate : Inflate)

/-- The turns of `qcow_write_sector_single`. -/
def sectorTurns :
    Nat → QcowState → Nat → Buffer → Nat → Nat → Nat →
      List (QcowState × Nat)
  | 0, _, _, _, _, _, _ => []
  | rest + 1, q, offset, mem, buf, srcLen, nrWritten =>
      if nrWritten < srcLen ∧ offset < q.header.size then
        (q, offset) ::
          match qcowWriteCluster lib turns inflate q offset mem buf
              (srcLen - nrWritten) with
          | some (some nr, q) =>
              sectorTurns rest q ((offset + nr) % 2 ^ 64) mem (buf + nr)
                srcLen ((nrWritten + nr) % 2 ^ 32)
          | _ => []
      else
        []

/-- The turns for the buffers of `qcow_write_sector`. -/
def iovecTurns :
    QcowState → Nat → Buffer → List Iovec → List (QcowState × Nat)
  | _, _, _, [] => []
  | q, sector, mem, iov :: rest =>
      sectorTurns lib turns inflate (iov.len % 2 ^ 32 + 1) q
          (sector <<< sectorShift % 2 ^ 64) mem iov.base
          (iov.len % 2 ^ 32) 0 ++
        match qcowWriteSectorSingle lib turns inflate q sector mem iov.base
            (iov.len % 2 ^ 32) with
        | none => []
        | some (nr, q) =>
            if nr ≠ iov.len then
              []
            else
              iovecTurns q ((sector + iov.len >>> sectorShift) % 2 ^ 64)
                mem rest

/-- The turns of a write. -/
def writeTurns (q : QcowState) (request : Request) :
    List (QcowState × Nat) :=
  iovecTurns lib turns inflate q request.sector request.mem request.iov

/-! ## Writes -/

/-- A turn in place keeps the image consistent. -/
theorem qcowWriteCluster_intact
    {q : QcowState} (intact : Intact q) {offset : Nat}
    (inDisk : offset < q.header.size) (inPlace : InPlace (q, offset))
    (mem : Buffer) (buf srcLen : Nat) :
    ∃ result after,
      qcowWriteCluster lib turns inflate q offset mem buf srcLen =
          some (result, after) ∧
        Intact after ∧
        (result = none ∨
          result = some (clusterRest q.header offset srcLen)) := by
  obtain ⟨result, written, after, wrote, partly, showsAfter, outcome, -⟩ :=
    qcowWriteCluster_copied lib turns inflate intact.consistent
      intact.shows inDisk inPlace.copied inPlace.arrives mem buf srcLen
  have same :=
    intact.consistent.sameTables_patch inDisk inPlace.copied
      (partly.trans (Nat.min_le_left _ _)) mem buf
  refine ⟨result, after, wrote, ?_, outcome.imp id And.left⟩
  exact Intact.of_shows (same.consistent intact.consistent) showsAfter

theorem writeSectorLoop_intact
    (rest : Nat) {q : QcowState} (intact : Intact q) (offset : Nat)
    (mem : Buffer) (buf srcLen nrWritten : Nat)
    (begun : nrWritten ≤ srcLen) (enough : srcLen - nrWritten < rest)
    (short : srcLen < 2 ^ 32)
    (inPlace :
      ∀ turn ∈
        sectorTurns lib turns inflate rest q offset mem buf srcLen
          nrWritten,
        InPlace turn) :
    ∃ result after,
      writeSectorLoop lib turns inflate rest q offset mem buf srcLen
          nrWritten =
        some (result, after) ∧ Intact after := by
  induction rest generalizing q offset buf nrWritten with
  | zero => cases enough
  | succ rest induction =>
      rw [writeSectorLoop]
      by_cases more : nrWritten < srcLen
      · rw [if_pos more]
        by_cases inDisk : offset < q.header.size
        · rw [sectorTurns, if_pos ⟨more, inDisk⟩] at inPlace
          obtain ⟨result, after, wrote, intactAfter, outcome⟩ :=
            qcowWriteCluster_intact lib turns inflate intact inDisk
              (inPlace _ List.mem_cons_self) mem buf (srcLen - nrWritten)
          rw [wrote] at inPlace
          rw [if_neg (Nat.not_le.mpr inDisk), wrote]
          rcases outcome with rfl | rfl
          · exact ⟨_, _, rfl, intactAfter⟩
          · dsimp only at inPlace ⊢
            have inCluster :=
              Nat.mod_lt offset (clusterSize_pos q.header)
            have positive :
                0 < clusterRest q.header offset (srcLen - nrWritten) := by
              unfold clusterRest
              omega
            have bounded :
                clusterRest q.header offset (srcLen - nrWritten) ≤
                  srcLen - nrWritten :=
              Nat.min_le_right _ _
            generalize clusterRest q.header offset (srcLen - nrWritten) =
              nr at *
            have kept : (nrWritten + nr) % 2 ^ 32 = nrWritten + nr :=
              Nat.mod_eq_of_lt (by omega)
            rw [kept] at inPlace ⊢
            exact induction intactAfter _ _ _ (by omega) (by omega)
              (List.forall_mem_cons.mp inPlace).2
        · rw [if_pos (Nat.not_lt.mp inDisk)]
          exact ⟨_, _, rfl, intact⟩
      · rw [if_neg more]
        exact ⟨_, _, rfl, intact⟩

theorem writeIovecs_intact
    {q : QcowState} (intact : Intact q) (sector : Nat) (mem : Buffer)
    (iov : List Iovec) (total : Int)
    (inPlace :
      ∀ turn ∈ iovecTurns lib turns inflate q sector mem iov,
        InPlace turn) :
    ∃ result after,
      writeIovecs lib turns inflate q sector mem iov total =
        some (result, after) ∧ Intact after := by
  induction iov generalizing q sector total with
  | nil => exact ⟨_, _, rfl, intact⟩
  | cons entry rest induction =>
      rw [iovecTurns] at inPlace
      obtain ⟨result, after, wrote, intactAfter⟩ :=
        writeSectorLoop_intact lib turns inflate (entry.len % 2 ^ 32 + 1)
          intact (sector <<< sectorShift % 2 ^ 64) mem entry.base
          (entry.len % 2 ^ 32) 0 (Nat.zero_le _) (Nat.lt_succ_self _)
          (Nat.mod_lt _ (by decide))
          (List.forall_mem_append.mp inPlace).1
      rw [writeIovecs]
      rw [qcowWriteSectorSingle, wrote] at inPlace ⊢
      dsimp only at inPlace ⊢
      by_cases cut : result ≠ entry.len
      · rw [if_pos cut]
        exact ⟨_, _, rfl, intactAfter⟩
      · rw [if_neg cut] at inPlace ⊢
        exact induction intactAfter _ _ (List.forall_mem_append.mp inPlace).2

/-- A write whose turns are all in place keeps the image consistent. -/
theorem writeStep_intact
    {q : QcowState} (intact : Intact q) {request : Request}
    (inPlace :
      ∀ turn ∈ writeTurns lib turns inflate q request, InPlace turn) :
    Intact (writeStep lib turns inflate q request) := by
  obtain ⟨result, after, wrote, intactAfter⟩ :=
    writeIovecs_intact lib turns inflate intact request.sector request.mem
      request.iov 0 inPlace
  have reached : writeStep lib turns inflate q request = after := by
    rw [writeStep, qcowWriteSector, wrote]
    rfl
  rw [reached]
  exact intactAfter

/-! ## Main result -/

/--
In every run of writes whose turns are all in place, whatever the host
answers, the refcounts are exact in every state.
-/
theorem refcounts_exact_throughout
    {q : QcowState} (intact : Intact q) {requests : List Request}
    (inPlace :
      Along (writeStep lib turns inflate)
        (fun state request =>
          ∀ turn ∈ writeTurns lib turns inflate state request,
            InPlace turn)
        q requests) :
    Throughout (writeStep lib turns inflate)
      (fun state => state.image.RefcountsExact) q requests := by
  have visible :
      ∀ state, Intact state → state.image.RefcountsExact :=
    fun _ holds => holds.consistent.exact
  have kept :
      ∀ state request, Intact state →
        (∀ turn ∈ writeTurns lib turns inflate state request,
          InPlace turn) →
        Intact (writeStep lib turns inflate state request) :=
    fun _ _ holds allowed =>
      writeStep_intact lib turns inflate holds allowed
  exact throughout_of_along visible kept intact inPlace

end Turns

theorem smallState_shows : Shows smallImage smallState :=
  (shows_of_qcowProbe smallImage_wellFormed smallFile_nonFailing
    smallState_opened).1

theorem smallState_intact : Intact smallState :=
  Intact.of_shows smallImage_consistent smallState_shows

/-- The small image on a host that fails at the third call from now on. -/
def failingState : QcowState :=
  { smallState with
    file := smallFile fun call => if call < 2 then 4096 else 0 }

theorem failingState_shows : Shows smallImage failingState :=
  { smallState_shows with size := rfl, bytes := rfl }

theorem failingState_inPlace : InPlace (failingState, 0) := by
  constructor
  · rw [failingState_shows.image_eq]
    decide +kernel
  · rw [failingState_shows.image_eq]
    intro _ moved read
    have whole :
        (preadInFull (failingState.file.skip 1) (fun _ => 0) 0
            (failingState.header.l2Size * 8)
            (smallImage.tableOffset (smallImage.l1Index 0))).1 =
          some 512 := by
      decide +kernel
    rw [whole] at read
    exact (Option.some.inj read).symm

/-- A write to the first cluster of the small disk, which the host fails. -/
theorem refcounts_exact_on_failingState :
    Throughout (writeStep (.plain _) 0 fun _ _ _ => none)
      (fun state => state.image.RefcountsExact) failingState
      [⟨0, fun _ => 1, [⟨0, 512⟩]⟩] := by
  have intact : Intact failingState :=
    Intact.of_shows smallImage_consistent failingState_shows
  refine refcounts_exact_throughout (.plain _) 0 (fun _ _ _ => none) intact
    ⟨?_, trivial⟩
  obtain ⟨result, after, wrote, -, outcome⟩ :=
    qcowWriteCluster_intact (.plain _) 0 (fun _ _ _ => none) intact
      (by decide) failingState_inPlace (fun _ => 1) 0 512
  have length : clusterRest failingState.header 0 512 = 512 := rfl
  have single :
      sectorTurns (.plain _) 0 (fun _ _ _ => none) 513 failingState 0
          (fun _ => 1) 0 512 0 =
        [(failingState, 0)] := by
    rw [sectorTurns, if_pos (by decide), Nat.sub_zero, wrote]
    rcases outcome with rfl | rfl
    · rfl
    · rw [length]
      rfl
  intro turn member
  have listed : turn ∈ [(failingState, 0)] := by
    simp only [writeTurns, iovecTurns] at member
    rw [List.mem_append] at member
    rcases member with first | later
    · rw [← single]
      exact first
    · split at later
      · cases later
      · split at later <;> cases later
  rw [List.mem_singleton] at listed
  rw [listed]
  exact failingState_inPlace

/--
A write to the second cluster of the small disk: it fails, and leaves the
cluster that it allocated counted without a reference.
-/
theorem allocating_write_leaks :
    Intact smallState ∧
      (writeStep (.plain _) 16 (fun _ _ _ => none) smallState
          ⟨1, fun _ => 1, [⟨0, 512⟩]⟩).image.refcount 6 = 1 ∧
      (writeStep (.plain _) 16 (fun _ _ _ => none) smallState
          ⟨1, fun _ => 1, [⟨0, 512⟩]⟩).image.references 6 = 0 :=
  ⟨smallState_intact, by decide +kernel, by decide +kernel⟩

end Kemu.Disk.Qcow
