import Kemu.Disk.Qcow.Frame

/-!
# Which read errors are reported

`qcow_read_sector_single` keeps the count of a cluster read in 32 bits
without a sign.  A failed read is then the largest count there is: it ends
the loop at the first cluster of a buffer, and moves the position by almost
4 GiB at a later one.
-/

namespace Kemu.Disk.Qcow

open Kemu.Lib.LruCache
open Kemu.Lib.SearchTree
open Kemu.Util.IoVector
open Kemu.Util.ReadWrite

section Reads

variable (lib : Rebalancer (Node Nat)) (inflate : Inflate)

/-! ## The cluster reads of a request -/

/--
A transfer of a cluster: the place in memory, the position on the disk, the
bytes of the buffer moved before, and the result.
-/
structure ClusterTransfer where
  place : Nat
  offset : Nat
  moved : Nat
  result : Option Nat
deriving DecidableEq, Repr

/-- The cluster reads of `qcow_read_sector_single`. -/
def sectorReads :
    Nat → QcowState → Nat → Buffer → Nat → Nat → Nat → List ClusterTransfer
  | 0, _, _, _, _, _, _ => []
  | turns + 1, q, sector, mem, buf, dstLen, nrRead =>
      if nrRead < dstLen then
        let offset := sector <<< sectorShift % 2 ^ 64
        if q.header.size ≤ offset then
          []
        else
          let (result, mem, q) :=
            readVersionCluster lib inflate q offset mem buf
              (dstLen - nrRead)
          let nr := (result.getD (2 ^ 64 - 1)) % 2 ^ 32
          ⟨buf, offset, nrRead, result⟩ ::
            sectorReads turns q ((sector + nr >>> sectorShift) % 2 ^ 64) mem
              (buf + nr) dstLen ((nrRead + nr) % 2 ^ 32)
      else
        []

/--
`qcow_read_sector`, where the loop of each buffer gets a number of turns.
After a failed read the loop can need more turns than there are bytes.
-/
def readIovecsIn (turns : Nat) :
    QcowState → Nat → Buffer → List Iovec → Int →
      Option (Int × Buffer × QcowState)
  | q, _, mem, [], total => some (total, mem, q)
  | q, sector, mem, iov :: rest, total =>
      match readSectorLoop lib inflate turns q sector mem iov.base
          (iov.len % 2 ^ 32) 0 with
      | none => none
      | some (nr, mem, q) =>
          if nr ≠ iov.len then
            some (-1, mem, q)
          else
            readIovecsIn turns q
              ((sector + iov.len >>> sectorShift) % 2 ^ 64) mem rest
              (total + nr)

/-- The cluster reads of `qcow_read_sector`. -/
def iovecReads (turns : Nat) :
    QcowState → Nat → Buffer → List Iovec → List ClusterTransfer
  | _, _, _, [] => []
  | q, sector, mem, iov :: rest =>
      sectorReads lib inflate turns q sector mem iov.base
          (iov.len % 2 ^ 32) 0 ++
        match readSectorLoop lib inflate turns q sector mem iov.base
            (iov.len % 2 ^ 32) 0 with
        | none => []
        | some (nr, mem, q) =>
            if nr ≠ iov.len then
              []
            else
              iovecReads turns q
                ((sector + iov.len >>> sectorShift) % 2 ^ 64) mem rest

/-- A call of `qcow_read_sector` returns a value. -/
def Returns (q : QcowState) (request : Request) (value : Int) : Prop :=
  ∃ turns mem after,
    readIovecsIn lib inflate turns q request.sector request.mem request.iov
        0 =
      some (value, mem, after)

/-- A cluster read of the call. -/
def Performs (q : QcowState) (request : Request) (read : ClusterTransfer) :
    Prop :=
  ∃ turns,
    read ∈ iovecReads lib inflate turns q request.sector request.mem
      request.iov

/-! ## More turns change nothing -/

theorem readSectorLoop_mono {turns more : Nat} (enough : turns ≤ more)
    {q : QcowState} {sector : Nat} {mem : Buffer} {buf dstLen nrRead : Nat}
    {result : Int × Buffer × QcowState}
    (ended :
      readSectorLoop lib inflate turns q sector mem buf dstLen nrRead =
        some result) :
    readSectorLoop lib inflate more q sector mem buf dstLen nrRead =
      some result := by
  induction turns generalizing more q sector mem buf nrRead with
  | zero => cases ended
  | succ turns induction =>
      obtain ⟨more, rfl⟩ : ∃ fewer, more = fewer + 1 :=
        Nat.exists_eq_succ_of_ne_zero (by omega)
      rw [readSectorLoop] at ended ⊢
      split at ended
      next unread =>
        rw [if_pos unread]
        dsimp only at ended ⊢
        split at ended
        next beyond =>
          rw [if_pos beyond]
          exact ended
        next inside =>
          rw [if_neg inside]
          split at ended
          next nothing =>
            rw [if_pos nothing]
            exact ended
          next some =>
            rw [if_neg some]
            exact induction (Nat.le_of_succ_le_succ enough) ended
      next done =>
        rw [if_neg done]
        exact ended

theorem readIovecsIn_mono {turns more : Nat} (enough : turns ≤ more)
    {q : QcowState} {sector : Nat} {mem : Buffer} {iov : List Iovec}
    {total : Int} {result : Int × Buffer × QcowState}
    (ended :
      readIovecsIn lib inflate turns q sector mem iov total =
        some result) :
    readIovecsIn lib inflate more q sector mem iov total = some result := by
  induction iov generalizing q sector mem total with
  | nil => exact ended
  | cons entry rest induction =>
      rw [readIovecsIn] at ended ⊢
      split at ended
      next => cases ended
      next nr mem after single =>
        rw [readSectorLoop_mono lib inflate enough single]
        dsimp only
        split at ended
        next short =>
          rw [if_pos short]
          exact ended
        next whole =>
          rw [if_neg whole]
          exact induction ended

/-! ## One turn of the loop -/

/-- The count of a cluster read as the loop keeps it. -/
def countOf (result : Option Nat) : Nat :=
  result.getD (2 ^ 32 - 1)

/-- The position of the next turn. -/
theorem next_offset (sector nr : Nat) :
    ((sector + nr >>> sectorShift) % 2 ^ 64) <<< sectorShift % 2 ^ 64 =
      (sector <<< sectorShift % 2 ^ 64 + nr / 512 * 512) % 2 ^ 64 := by
  simp only [Nat.shiftLeft_eq, Nat.shiftRight_eq_div_pow, sectorShift]
  omega

/-- What a turn with a cluster read does. -/
structure Turn (q : QcowState) (sector : Nat) (mem : Buffer)
    (buf dstLen nrRead : Nat) (result : Option Nat) (memAfter : Buffer)
    (after : QcowState) : Prop where
  header : SameHeader q after
  moved : ∀ nr, result = some nr → 0 < nr ∧ nr ≤ dstLen - nrRead
  served : ∀ nr, result = some nr →
    nr =
        clusterRest q.header (sector <<< sectorShift % 2 ^ 64)
          (dstLen - nrRead) ∧
      getL1Index q.header (sector <<< sectorShift % 2 ^ 64) <
        q.header.l1Size
  loop : ∀ turns,
    readSectorLoop lib inflate (turns + 1) q sector mem buf dstLen nrRead =
      readSectorLoop lib inflate turns after
        ((sector + countOf result >>> sectorShift) % 2 ^ 64) memAfter
        (buf + countOf result) dstLen
        ((nrRead + countOf result) % 2 ^ 32)
  reads : ∀ turns,
    sectorReads lib inflate (turns + 1) q sector mem buf dstLen nrRead =
      ⟨buf, sector <<< sectorShift % 2 ^ 64, nrRead, result⟩ ::
        sectorReads lib inflate turns after
          ((sector + countOf result >>> sectorShift) % 2 ^ 64) memAfter
          (buf + countOf result) dstLen
          ((nrRead + countOf result) % 2 ^ 32)

variable (q : QcowState) (sector : Nat) (mem : Buffer) (buf : Nat)
  {dstLen nrRead : Nat}

theorem readSectorLoop_turn (short : dstLen < 2 ^ 32)
    (unread : nrRead < dstLen)
    (inside : sector <<< sectorShift % 2 ^ 64 < q.header.size) :
    ∃ result memAfter after,
      Turn lib inflate q sector mem buf dstLen nrRead result memAfter
        after := by
  have moves :=
    readVersionCluster_moves lib inflate q (sector <<< sectorShift % 2 ^ 64)
      mem buf (dstLen - nrRead)
  cases read :
    readVersionCluster lib inflate q (sector <<< sectorShift % 2 ^ 64) mem
      buf (dstLen - nrRead) with
  | mk result rest =>
      obtain ⟨memAfter, after⟩ := rest
      rw [read] at moves
      have positive :
          0 < clusterRest q.header (sector <<< sectorShift % 2 ^ 64)
            (dstLen - nrRead) := by
        have inCluster :=
          Nat.mod_lt (sector <<< sectorShift % 2 ^ 64)
            (clusterSize_pos q.header)
        unfold clusterRest
        omega
      have bounded :
          clusterRest q.header (sector <<< sectorShift % 2 ^ 64)
              (dstLen - nrRead) ≤
            dstLen - nrRead :=
        Nat.min_le_right _ _
      have moved :
          ∀ nr, result = some nr → 0 < nr ∧ nr ≤ dstLen - nrRead := by
        rintro nr rfl
        obtain failed | rest := moves.result
        · cases failed
        · cases rest
          exact ⟨positive, bounded⟩
      have count :
          result.getD (2 ^ 64 - 1) % 2 ^ 32 = countOf result ∧
            countOf result ≠ 0 := by
        cases result with
        | none => decide
        | some nr =>
            obtain ⟨some, fits⟩ := moved nr rfl
            exact ⟨Nat.mod_eq_of_lt (show nr < 2 ^ 32 by omega), some.ne'⟩
      refine ⟨result, memAfter, after, moves.header, moved, ?_, ?_, ?_⟩
      · rintro nr rfl
        refine ⟨?_, readVersionCluster_inTable lib inflate read⟩
        obtain failed | rest := moves.result
        · cases failed
        · exact Option.some.inj rest
      · intro turns
        rw [readSectorLoop, if_pos unread]
        dsimp only
        rw [if_neg (Nat.not_le.mpr inside), read]
        dsimp only
        rw [count.1, if_neg count.2]
      · intro turns
        rw [sectorReads, if_pos unread]
        dsimp only
        rw [if_neg (Nat.not_le.mpr inside), read]
        dsimp only
        rw [count.1]

theorem readSectorLoop_done (turns : Nat) (done : ¬ nrRead < dstLen) :
    readSectorLoop lib inflate (turns + 1) q sector mem buf dstLen nrRead =
        some ((dstLen : Int), mem, q) ∧
      sectorReads lib inflate (turns + 1) q sector mem buf dstLen nrRead =
        [] := by
  rw [readSectorLoop, if_neg done, sectorReads, if_neg done]
  exact ⟨rfl, rfl⟩

theorem readSectorLoop_beyond (turns : Nat) (unread : nrRead < dstLen)
    (beyond : q.header.size ≤ sector <<< sectorShift % 2 ^ 64) :
    readSectorLoop lib inflate (turns + 1) q sector mem buf dstLen nrRead =
        some (-1, mem, q) ∧
      sectorReads lib inflate (turns + 1) q sector mem buf dstLen nrRead =
        [] := by
  rw [readSectorLoop, if_pos unread, sectorReads, if_pos unread]
  dsimp only
  rw [if_pos beyond, if_pos beyond]
  exact ⟨rfl, rfl⟩

variable {q sector mem buf}

/-- The loop returns the length it was given, or -1. -/
theorem readSectorLoop_result {turns : Nat} {value : Int}
    {memAfter : Buffer} {after : QcowState} (short : dstLen < 2 ^ 32)
    (ended :
      readSectorLoop lib inflate turns q sector mem buf dstLen nrRead =
        some (value, memAfter, after)) :
    (value = -1 ∨ value = dstLen) ∧ SameHeader q after := by
  induction turns generalizing q sector mem buf nrRead with
  | zero => cases ended
  | succ turns induction =>
      by_cases unread : nrRead < dstLen
      · by_cases beyond :
            q.header.size ≤ sector <<< sectorShift % 2 ^ 64
        · rw [(readSectorLoop_beyond lib inflate _ _ _ _ turns unread beyond).1]
            at ended
          cases ended
          exact ⟨Or.inl rfl, rfl, rfl⟩
        · obtain ⟨result, memTurn, middle, turn⟩ :=
            readSectorLoop_turn lib inflate q sector mem buf short unread
              (Nat.not_le.mp beyond)
          rw [turn.loop turns] at ended
          obtain ⟨returned, same⟩ := induction ended
          exact ⟨returned, turn.header.trans same⟩
      · rw [(readSectorLoop_done lib inflate _ _ _ _ turns unread).1] at ended
        cases ended
        exact ⟨Or.inr rfl, rfl, rfl⟩

/-! ## Calls that are refused whatever is read -/

/--
A buffer has 4 GiB or more, so that its length does not survive; or it
begins behind the end of the disk.
-/
def Refused (size : Nat) : Nat → List Iovec → Prop
  | _, [] => False
  | sector, iov :: rest =>
      2 ^ 32 ≤ iov.len ∨
        (iov.len ≠ 0 ∧ size ≤ sector <<< sectorShift % 2 ^ 64) ∨
        Refused size ((sector + iov.len >>> sectorShift) % 2 ^ 64) rest

theorem readIovecsIn_refused {turns : Nat} {iov : List Iovec} {total : Int}
    {value : Int} {memAfter : Buffer} {after : QcowState}
    (refused : Refused q.header.size sector iov)
    (ended :
      readIovecsIn lib inflate turns q sector mem iov total =
        some (value, memAfter, after)) :
    value = -1 := by
  induction iov generalizing q sector mem total with
  | nil => exact refused.elim
  | cons entry rest induction =>
      rw [readIovecsIn] at ended
      split at ended
      next => cases ended
      next nr memSingle middle single =>
        have low : entry.len % 2 ^ 32 < 2 ^ 32 := Nat.mod_lt _ (by decide)
        obtain ⟨returned, same⟩ :=
          readSectorLoop_result lib inflate low single
        split at ended
        next =>
          cases ended
          rfl
        next whole =>
          have short : entry.len < 2 ^ 32 := by omega
          rcases refused with long | ⟨some, beyond⟩ | later
          · omega
          · cases turns with
            | zero => cases single
            | succ turns =>
                rw [(readSectorLoop_beyond lib inflate _ _ _ _ turns (by omega)
                  beyond).1] at single
                cases single
                omega
          · rw [← same.2] at later
            exact induction later ended

/-- Without bytes to read there are no cluster reads. -/
theorem iovecReads_of_empty {turns : Nat} {iov : List Iovec}
    (empty : ∀ entry ∈ iov, entry.len = 0) :
    iovecReads lib inflate turns q sector mem iov = [] := by
  induction iov generalizing q sector mem with
  | nil => rfl
  | cons entry rest induction =>
      have none : ¬ 0 < entry.len % 2 ^ 32 := by
        rw [empty entry List.mem_cons_self]
        decide
      have restEmpty : ∀ other ∈ rest, other.len = 0 := fun other member =>
        empty other (List.mem_cons_of_mem entry member)
      rw [iovecReads]
      cases turns with
      | zero => rfl
      | succ turns =>
          obtain ⟨loop, reads⟩ :=
            readSectorLoop_done lib inflate q sector mem entry.base turns
              none
          rw [loop, reads]
          dsimp only
          split
          · rfl
          · exact induction restEmpty

/-! ## A host that answers nothing -/

variable (version : Version) (header : QcowHeader)

/-- An image all of whose tables are to be read, on a host that fails. -/
def silentState : QcowState where
  version := version
  header := header
  l1Table _ := 255
  l2Cache := Cache.empty
  rfTable _ := 0
  rfCache := Cache.empty
  freeClustIdx := 0
  clusterData _ := 0
  copyBuff _ := 0
  fresh _ := 0
  file := ⟨0, fun _ => 0, fun _ => 0, fun _ _ => rfl⟩
  strayed := false

theorem qcowReadL2Table_silent (offset : Nat) :
    qcowReadL2Table lib (silentState version header) offset =
      (none, silentState version header) :=
  rfl

theorem readVersionCluster_silent (offset : Nat) (mem : Buffer)
    (dst dstLen : Nat) :
    readVersionCluster lib inflate (silentState version header) offset mem
        dst dstLen =
      (none, mem, silentState version header) := by
  have entry (l1Idx : Nat) :
      be64 (silentState version header).l1Table (l1Idx * 8) =
        2 ^ 64 - 1 := by
    simp [be64, beNumber, List.range_succ, silentState]
  have present (format : ClusterFormat)
      (table : format.l2tOffset (2 ^ 64 - 1) ≠ 0) :
      readCluster lib inflate format (silentState version header) offset mem
          dst dstLen =
        (none, mem, silentState version header) := by
    unfold readCluster
    dsimp only
    rw [entry, if_neg table, qcowReadL2Table_silent]
    simp only [ite_self]
  cases version with
  | qcow1 => exact present qcow1Format (by decide)
  | qcow2 => exact present qcow2Format (by decide)

/-- The loop takes its failed read for the rest of the buffer. -/
theorem readSectorLoop_silent (mem : Buffer) (buf turns : Nat)
    (short : dstLen < 2 ^ 32)
    (inside :
      dstLen ≠ 0 → sector <<< sectorShift % 2 ^ 64 < header.size) :
    readSectorLoop lib inflate (turns + 2) (silentState version header)
        sector mem buf dstLen 0 =
      some ((dstLen : Int), mem, silentState version header) ∧
    sectorReads lib inflate (turns + 2) (silentState version header) sector
        mem buf dstLen 0 =
      if dstLen = 0 then [] else
        [⟨buf, sector <<< sectorShift % 2 ^ 64, 0, none⟩] := by
  by_cases empty : dstLen = 0
  · have done : ¬ 0 < dstLen := by omega
    rw [if_pos empty]
    exact readSectorLoop_done lib inflate _ _ _ _ (turns + 1) done
  · have unread : 0 < dstLen := by omega
    have done :
        ¬ (0 + (none : Option Nat).getD (2 ^ 64 - 1) % 2 ^ 32) % 2 ^ 32 <
          dstLen := by
      rw [Option.getD_none]
      omega
    have more : (none : Option Nat).getD (2 ^ 64 - 1) % 2 ^ 32 ≠ 0 := by
      decide
    have here : ¬ (silentState version header).header.size ≤
        sector <<< sectorShift % 2 ^ 64 :=
      Nat.not_le.mpr (inside empty)
    constructor
    · rw [readSectorLoop, if_pos unread]
      dsimp only
      rw [if_neg here, readVersionCluster_silent]
      dsimp only
      rw [if_neg more]
      exact (readSectorLoop_done lib inflate _ _ _ _ turns done).1
    · rw [sectorReads, if_pos unread, if_neg empty]
      dsimp only
      rw [if_neg here, readVersionCluster_silent]
      dsimp only
      rw [(readSectorLoop_done lib inflate _ _ _ _ turns done).2]

/-- A request that is not refused is reported as done, nothing being read. -/
theorem readIovecsIn_silent (mem : Buffer) {iov : List Iovec} (total : Int)
    (allowed : ¬ Refused header.size sector iov) :
    readIovecsIn lib inflate 2 (silentState version header) sector mem iov
        total =
      some (total + iovLength iov, mem, silentState version header) ∧
    ((∃ entry ∈ iov, entry.len ≠ 0) →
      ∃ read ∈ iovecReads lib inflate 2 (silentState version header) sector
          mem iov, read.result = none) := by
  induction iov generalizing sector total with
  | nil =>
      refine ⟨?_, ?_⟩
      · rw [readIovecsIn, iovLength, List.foldr_nil, Int.natCast_zero,
          Int.add_zero]
      · rintro ⟨entry, member, -⟩
        cases member
  | cons entry rest induction =>
      obtain ⟨notLong, rest'⟩ := not_or.mp allowed
      obtain ⟨notBeyond, restAllowed⟩ := not_or.mp rest'
      have short : entry.len < 2 ^ 32 := Nat.not_le.mp notLong
      have inside :
          entry.len ≠ 0 →
            sector <<< sectorShift % 2 ^ 64 < header.size :=
        fun some => Nat.not_le.mp fun beyond => notBeyond ⟨some, beyond⟩
      obtain ⟨single, reads⟩ :=
        readSectorLoop_silent lib inflate version header mem entry.base 0
          short inside
      obtain ⟨later, failed⟩ := induction (total + entry.len) restAllowed
      have whole : ¬ (entry.len : Int) ≠ entry.len := not_not.mpr rfl
      rw [readIovecsIn, iovecReads, Nat.mod_eq_of_lt short, single, reads]
      dsimp only
      rw [if_neg whole, if_neg whole]
      constructor
      · rw [later]
        simp only [iovLength, List.foldr_cons, Int.natCast_add,
          Int.add_assoc]
      · rintro ⟨other, member, some⟩
        by_cases empty : entry.len = 0
        · rcases List.mem_cons.mp member with rfl | inRest
          · exact absurd empty some
          · obtain ⟨read, performed, failure⟩ := failed ⟨other, inRest, some⟩
            exact ⟨read, List.mem_append_right _ performed, failure⟩
        · rw [if_neg empty]
          exact ⟨_, List.mem_append_left _ List.mem_cons_self, rfl⟩

/-! ## Termination -/

/--
While the disk ends 4 GiB before the last offset, a failed read leads on by
less than that, and a count leads on or at least ends the buffer.
-/
theorem readSectorLoop_terminates (q : QcowState) (sector : Nat)
    (mem : Buffer) (buf nrRead ahead left : Nat)
    (short : dstLen < 2 ^ 32)
    (small : q.header.size + 2 ^ 32 ≤ 2 ^ 64)
    (aheadBound :
      q.header.size - sector <<< sectorShift % 2 ^ 64 ≤ ahead)
    (leftBound : dstLen - nrRead ≤ left) :
    ∃ turns result,
      readSectorLoop lib inflate turns q sector mem buf dstLen nrRead =
        some result := by
  induction ahead generalizing left q sector mem buf nrRead with
  | zero =>
      refine ⟨1, ?_⟩
      by_cases unread : nrRead < dstLen
      · exact ⟨_, (readSectorLoop_beyond lib inflate _ _ _ _ 0 unread
          (by omega)).1⟩
      · exact ⟨_, (readSectorLoop_done lib inflate _ _ _ _ 0 unread).1⟩
  | succ ahead further =>
      induction left generalizing q sector mem buf nrRead with
      | zero =>
          exact ⟨1, _, (readSectorLoop_done lib inflate _ _ _ _ 0 (by omega)).1⟩
      | succ left later =>
          by_cases unread : nrRead < dstLen
          · by_cases beyond :
                q.header.size ≤ sector <<< sectorShift % 2 ^ 64
            · exact ⟨1, _,
                (readSectorLoop_beyond lib inflate _ _ _ _ 0 unread beyond).1⟩
            · obtain ⟨result, memTurn, after, turn⟩ :=
                readSectorLoop_turn lib inflate q sector mem buf short unread
                  (Nat.not_le.mp beyond)
              have next := next_offset sector (countOf result)
              have sameSize : after.header.size = q.header.size := by
                rw [turn.header.2]
              have fits : after.header.size + 2 ^ 32 ≤ 2 ^ 64 := by
                rw [sameSize]
                exact small
              cases result with
              | none =>
                  have count : countOf none = 2 ^ 32 - 1 := rfl
                  have nearer :
                      after.header.size -
                          ((sector + countOf none >>> sectorShift) %
                            2 ^ 64) <<< sectorShift % 2 ^ 64 ≤
                        ahead := by
                    rw [next, sameSize, count]
                    omega
                  obtain ⟨turns, value, ended⟩ :=
                    further after _ memTurn (buf + countOf none)
                      ((nrRead + countOf none) % 2 ^ 32) dstLen fits nearer
                      (Nat.sub_le dstLen _)
                  exact ⟨turns + 1, value, (turn.loop turns).trans ended⟩
              | some nr =>
                  have count : countOf (some nr) = nr := rfl
                  obtain ⟨positive, bounded⟩ := turn.moved nr rfl
                  have notFarther :
                      after.header.size -
                          ((sector + countOf (some nr) >>> sectorShift) %
                            2 ^ 64) <<< sectorShift % 2 ^ 64 ≤
                        ahead + 1 := by
                    rw [next, sameSize, count]
                    omega
                  have less :
                      dstLen - (nrRead + countOf (some nr)) % 2 ^ 32 ≤
                        left := by
                    rw [count]
                    omega
                  obtain ⟨turns, value, ended⟩ :=
                    later after _ memTurn (buf + countOf (some nr)) _ fits
                      notFarther less
                  exact ⟨turns + 1, value, (turn.loop turns).trans ended⟩
          · exact ⟨1, _, (readSectorLoop_done lib inflate _ _ _ _ 0 unread).1⟩

theorem readIovecsIn_terminates (q : QcowState) (sector : Nat)
    (mem : Buffer) (iov : List Iovec) (total : Int)
    (small : q.header.size + 2 ^ 32 ≤ 2 ^ 64) :
    ∃ turns result,
      readIovecsIn lib inflate turns q sector mem iov total =
        some result := by
  induction iov generalizing q sector mem total with
  | nil => exact ⟨0, _, rfl⟩
  | cons entry rest induction =>
      have short : entry.len % 2 ^ 32 < 2 ^ 32 := Nat.mod_lt _ (by decide)
      obtain ⟨turns, ⟨nr, memSingle, after⟩, single⟩ :=
        readSectorLoop_terminates lib inflate q sector mem entry.base 0 _ _
          short small le_rfl le_rfl
      by_cases whole : nr ≠ entry.len
      · refine ⟨turns, (-1, memSingle, after), ?_⟩
        rw [readIovecsIn, single]
        exact if_pos whole
      · have same := (readSectorLoop_result lib inflate short single).2
        obtain ⟨more, result, later⟩ :=
          induction after ((sector + entry.len >>> sectorShift) % 2 ^ 64)
            memSingle (total + nr) (by rw [same.2]; exact small)
        refine ⟨max turns more, result, ?_⟩
        rw [readIovecsIn,
          readSectorLoop_mono lib inflate (Nat.le_max_left _ _) single]
        dsimp only
        rw [if_neg whole]
        exact readIovecsIn_mono lib inflate (Nat.le_max_right _ _) later

/-! ## Failures that lead behind the end -/

/--
The read is not the first of its buffer, and the position after the largest
count there is lies behind the end of the disk.
-/
def ClusterTransfer.Leaves (read : ClusterTransfer) (size : Nat) : Prop :=
  0 < read.moved ∧ size ≤ (read.offset + (2 ^ 32 - 512)) % 2 ^ 64

/-- Reads whose failures lead behind the end end with -1 if one fails. -/
theorem readSectorLoop_leaves (q : QcowState) (sector : Nat)
    (mem : Buffer) (buf nrRead turns : Nat) (short : dstLen < 2 ^ 32)
    (enough : dstLen - nrRead < turns)
    (leaves : ∀ read ∈
      sectorReads lib inflate turns q sector mem buf dstLen nrRead,
      read.result = none → read.Leaves q.header.size) :
    ∃ value memAfter after,
      readSectorLoop lib inflate turns q sector mem buf dstLen nrRead =
          some (value, memAfter, after) ∧
        (value = -1 ∨
          ∀ read ∈
            sectorReads lib inflate turns q sector mem buf dstLen nrRead,
            read.result ≠ none) := by
  induction turns generalizing q sector mem buf nrRead with
  | zero => cases enough
  | succ turns induction =>
      by_cases unread : nrRead < dstLen
      · by_cases beyond :
            q.header.size ≤ sector <<< sectorShift % 2 ^ 64
        · exact ⟨-1, mem, q,
            (readSectorLoop_beyond lib inflate _ _ _ _ turns unread beyond).1,
            Or.inl rfl⟩
        · obtain ⟨result, memTurn, after, turn⟩ :=
            readSectorLoop_turn lib inflate q sector mem buf short unread
              (Nat.not_le.mp beyond)
          have next := next_offset sector (countOf result)
          rw [turn.reads] at leaves
          rw [turn.loop, turn.reads]
          cases result with
          | none =>
              obtain ⟨later, outside⟩ := leaves _ List.mem_cons_self rfl
              have count : countOf none = 2 ^ 32 - 1 := rfl
              rw [count] at next ⊢
              obtain ⟨fewer, rfl⟩ : ∃ fewer, turns = fewer + 1 :=
                Nat.exists_eq_succ_of_ne_zero (by omega)
              have unreadNext :
                  (nrRead + (2 ^ 32 - 1)) % 2 ^ 32 < dstLen := by
                dsimp only at later
                omega
              have beyondNext :
                  after.header.size ≤
                    ((sector + (2 ^ 32 - 1) >>> sectorShift) % 2 ^ 64) <<<
                        sectorShift % 2 ^ 64 := by
                rw [next, turn.header.2]
                exact outside
              exact ⟨-1, _, _,
                (readSectorLoop_beyond lib inflate _ _ _ _ fewer unreadNext
                  beyondNext).1,
                Or.inl rfl⟩
          | some nr =>
              obtain ⟨positive, bounded⟩ := turn.moved nr rfl
              have count : countOf (some nr) = nr := rfl
              rw [count] at leaves ⊢
              have kept : (nrRead + nr) % 2 ^ 32 = nrRead + nr :=
                Nat.mod_eq_of_lt (by omega)
              rw [kept] at leaves ⊢
              obtain ⟨value, memAfter, last, ended, outcome⟩ :=
                induction after _ memTurn (buf + nr) (nrRead + nr) (by omega)
                  (by
                    intro read member failed
                    rw [turn.header.2]
                    exact leaves read (List.mem_cons_of_mem _ member) failed)
              refine ⟨value, memAfter, last, ended, outcome.imp_right ?_⟩
              intro others read member
              rcases List.mem_cons.mp member with rfl | later
              · simp
              · exact others read later
      · exact ⟨_, _, _, (readSectorLoop_done lib inflate _ _ _ _ turns unread).1, by
          rw [(readSectorLoop_done lib inflate _ _ _ _ turns unread).2]
          exact Or.inr fun _ none => absurd none List.not_mem_nil⟩

theorem readIovecsIn_leaves (q : QcowState) (sector : Nat)
    (mem : Buffer) (iov : List Iovec) (total : Int)
    (leaves : ∀ read ∈ iovecReads lib inflate (2 ^ 32) q sector mem iov,
      read.result = none → read.Leaves q.header.size) :
    ∃ value memAfter after,
      readIovecsIn lib inflate (2 ^ 32) q sector mem iov total =
          some (value, memAfter, after) ∧
        (value = -1 ∨
          ∀ read ∈ iovecReads lib inflate (2 ^ 32) q sector mem iov,
            read.result ≠ none) := by
  induction iov generalizing q sector mem total with
  | nil =>
      exact ⟨total, mem, q, rfl,
        Or.inr fun _ none => absurd none List.not_mem_nil⟩
  | cons entry rest induction =>
      have short : entry.len % 2 ^ 32 < 2 ^ 32 := Nat.mod_lt _ (by decide)
      rw [iovecReads] at leaves ⊢
      rw [readIovecsIn]
      obtain ⟨nr, memSingle, after, single, outcome⟩ :=
        readSectorLoop_leaves lib inflate q sector mem entry.base 0 (2 ^ 32)
          short short (List.forall_mem_append.mp leaves).1
      rw [single] at leaves ⊢
      dsimp only at leaves ⊢
      obtain ⟨returned, same⟩ :=
        readSectorLoop_result lib inflate short single
      by_cases whole : nr ≠ entry.len
      · rw [if_pos whole]
        exact ⟨-1, memSingle, after, rfl, Or.inl rfl⟩
      · rw [if_neg whole] at leaves ⊢
        have noError : nr ≠ -1 := by omega
        have allRead := outcome.resolve_left noError
        obtain ⟨value, memAfter, last, ended, others⟩ :=
          induction _ _ _ (total + nr) fun read member failed => by
            rw [same.2]
            exact leaves read (List.mem_append_right _ member) failed
        rw [if_neg whole]
        refine ⟨value, memAfter, last, ended, others.imp_right ?_⟩
        intro restRead read member
        rcases List.mem_append.mp member with first | later
        · exact allRead read first
        · exact restRead read later

/-! ## The reads of a call that has ended -/

theorem sectorReads_subset {turns more : Nat} (enough : turns ≤ more) :
    sectorReads lib inflate turns q sector mem buf dstLen nrRead ⊆
      sectorReads lib inflate more q sector mem buf dstLen nrRead := by
  induction turns generalizing more q sector mem buf nrRead with
  | zero => exact List.nil_subset _
  | succ turns induction =>
      obtain ⟨more, rfl⟩ : ∃ fewer, more = fewer + 1 :=
        Nat.exists_eq_succ_of_ne_zero (by omega)
      rw [sectorReads, sectorReads]
      split
      next =>
        dsimp only
        split
        next => exact List.nil_subset _
        next =>
          exact List.cons_subset_cons _
            (induction (Nat.le_of_succ_le_succ enough))
      next => exact List.nil_subset _

theorem sectorReads_ended {turns more : Nat} (enough : turns ≤ more)
    (short : dstLen < 2 ^ 32) {result : Int × Buffer × QcowState}
    (ended :
      readSectorLoop lib inflate turns q sector mem buf dstLen nrRead =
        some result) :
    sectorReads lib inflate more q sector mem buf dstLen nrRead =
      sectorReads lib inflate turns q sector mem buf dstLen nrRead := by
  induction turns generalizing more q sector mem buf nrRead with
  | zero => cases ended
  | succ turns induction =>
      obtain ⟨more, rfl⟩ : ∃ fewer, more = fewer + 1 :=
        Nat.exists_eq_succ_of_ne_zero (by omega)
      by_cases unread : nrRead < dstLen
      · by_cases beyond :
            q.header.size ≤ sector <<< sectorShift % 2 ^ 64
        · rw [(readSectorLoop_beyond lib inflate _ _ _ _ more unread beyond).2,
            (readSectorLoop_beyond lib inflate _ _ _ _ turns unread beyond).2]
        · obtain ⟨read, memTurn, after, turn⟩ :=
            readSectorLoop_turn lib inflate q sector mem buf short unread
              (Nat.not_le.mp beyond)
          rw [turn.loop] at ended
          rw [turn.reads, turn.reads,
            induction (Nat.le_of_succ_le_succ enough) ended]
      · rw [(readSectorLoop_done lib inflate _ _ _ _ more unread).2,
          (readSectorLoop_done lib inflate _ _ _ _ turns unread).2]

theorem iovecReads_subset {turns more : Nat} (enough : turns ≤ more)
    {iov : List Iovec} :
    iovecReads lib inflate turns q sector mem iov ⊆
      iovecReads lib inflate more q sector mem iov := by
  induction iov generalizing q sector mem with
  | nil => exact List.nil_subset _
  | cons entry rest induction =>
      rw [iovecReads, iovecReads]
      refine List.append_subset.mpr ⟨?_, ?_⟩
      · exact List.Subset.trans (sectorReads_subset lib inflate enough)
          (List.subset_append_left _ _)
      · refine List.Subset.trans ?_ (List.subset_append_right _ _)
        split
        next => exact List.nil_subset _
        next nr memSingle after single =>
          rw [readSectorLoop_mono lib inflate enough single]
          dsimp only
          split
          next => exact List.nil_subset _
          next => exact induction

theorem iovecReads_ended {turns more : Nat} (enough : turns ≤ more)
    {iov : List Iovec} {total : Int} {result : Int × Buffer × QcowState}
    (ended :
      readIovecsIn lib inflate turns q sector mem iov total =
        some result) :
    iovecReads lib inflate more q sector mem iov =
      iovecReads lib inflate turns q sector mem iov := by
  induction iov generalizing q sector mem total with
  | nil => rfl
  | cons entry rest induction =>
      rw [readIovecsIn] at ended
      rw [iovecReads, iovecReads]
      split at ended
      next => cases ended
      next nr memSingle after single =>
        rw [readSectorLoop_mono lib inflate enough single,
          sectorReads_ended lib inflate enough
            (Nat.mod_lt _ (by decide)) single]
        dsimp only
        split at ended
        next short => rw [if_pos short, if_pos short]
        next whole =>
          rw [if_neg whole, if_neg whole, induction ended]

/-! ## Main result -/

/-- The call performs a cluster read that fails. -/
def Fails (q : QcowState) (request : Request) : Prop :=
  ∃ read, Performs lib inflate q request read ∧ read.result = none

/--
Whatever the image, a call one of whose cluster reads fails returns nothing
but -1.
-/
def Reported (sector : Nat) (iov : List Iovec) : Prop :=
  ∀ (q : QcowState) (mem : Buffer),
    q.version = version → q.header = header →
      Fails lib inflate q ⟨sector, mem, iov⟩ →
        ∀ value, Returns lib inflate q ⟨sector, mem, iov⟩ value →
          value = -1

/--
Errors are reported for the requests without bytes, and those that are
refused whatever is read.  Calls return, at least while the disk ends 4 GiB
before the last offset; and errors are reported when each failed read leads
behind the end of the disk.
-/
theorem reported_iff (sector : Nat) (iov : List Iovec) :
    (Reported lib inflate version header sector iov ↔
      (∀ entry ∈ iov, entry.len = 0) ∨ Refused header.size sector iov) ∧
    ∀ (q : QcowState) (mem : Buffer), q.header = header →
      (header.size + 2 ^ 32 ≤ 2 ^ 64 →
        ∃ value, Returns lib inflate q ⟨sector, mem, iov⟩ value) ∧
      ((∀ read, Performs lib inflate q ⟨sector, mem, iov⟩ read →
          read.result = none → read.Leaves header.size) →
        Fails lib inflate q ⟨sector, mem, iov⟩ →
          Returns lib inflate q ⟨sector, mem, iov⟩ (-1)) := by
  refine ⟨⟨?_, ?_⟩, ?_⟩
  · intro reported
    by_contra neither
    obtain ⟨nonempty, allowed⟩ := not_or.mp neither
    push Not at nonempty
    obtain ⟨returned, failed⟩ :=
      readIovecsIn_silent lib inflate version header (fun _ => 0) 0
        allowed
    obtain ⟨read, performed, failure⟩ := failed nonempty
    have value :=
      reported (silentState version header) (fun _ => 0) rfl rfl
        ⟨read, ⟨2, performed⟩, failure⟩ _ ⟨2, _, _, returned⟩
    omega
  · rintro (empty | refused) q mem - rfl ⟨read, ⟨turns, performed⟩, -⟩ value
    · rw [iovecReads_of_empty lib inflate empty] at performed
      cases performed
    · rintro ⟨more, memAfter, after, returned⟩
      exact readIovecsIn_refused lib inflate refused returned
  · rintro q mem rfl
    constructor
    · intro small
      obtain ⟨turns, ⟨value, memAfter, after⟩, returned⟩ :=
        readIovecsIn_terminates lib inflate q sector mem iov 0 small
      exact ⟨value, turns, memAfter, after, returned⟩
    · rintro leaves ⟨read, ⟨turns, performed⟩, failure⟩
      obtain ⟨value, memAfter, after, returned, outcome⟩ :=
        readIovecsIn_leaves lib inflate q sector mem iov 0
          fun read member => leaves read ⟨2 ^ 32, member⟩
      have member :
          read ∈ iovecReads lib inflate (2 ^ 32) q sector mem iov := by
        rw [← iovecReads_ended lib inflate (Nat.le_max_right turns _)
          returned]
        exact iovecReads_subset lib inflate (Nat.le_max_left turns _)
          performed
      rcases outcome with rfl | succeeded
      · exact ⟨2 ^ 32, memAfter, after, returned⟩
      · exact absurd failure (succeeded read member)

end Reads

/-- The small image, opened on a host that fails from now on. -/
def deafState : QcowState :=
  { smallState with file := smallFile fun _ => 0 }

/-- A read whose only cluster fails is reported as a sector that was read. -/
theorem failed_read_succeeds :
    (⟨0, 0, 0, none⟩ : ClusterTransfer) ∈
        iovecReads (.plain _) (fun _ _ _ => none) 2 deafState 0
          (fun _ => 0) [⟨0, 512⟩] ∧
      (qcowReadSector (.plain _) (fun _ _ _ => none) deafState 0
          (fun _ => 0) [⟨0, 512⟩]).map Prod.fst =
        some 512 := by
  constructor <;> decide +kernel

end Kemu.Disk.Qcow
