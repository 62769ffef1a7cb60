import Kemu.Disk.Qcow.ReadErrors

/-!
# How a request is split into buffers

`qcow_read_sector` and `qcow_write_sector` find the position of a buffer by
adding up the whole sectors of the buffers before it.  Two lists of buffers
for the same memory then meet the same bytes of the disk only if their
lengths lose the same parts of sectors.
-/

namespace Kemu.Disk.Qcow

open Kemu.Lib.LruCache
open Kemu.Lib.SearchTree
open Kemu.Util.IoVector
open Kemu.Util.ReadWrite

/-! ## Bytes in memory and on the disk -/

/-- The bytes of a buffer, with their positions on the disk. -/
def bufferPlan (place position length : Nat) : List (Nat × Nat) :=
  (List.range length).map fun index => (place + index, position + index)

/--
The bytes of a list of buffers, with the positions that their lengths lead
to.  The loop of a buffer gets its length in 32 bits, and a longer buffer
ends the request.
-/
def listPlan : Nat → List Iovec → List (Nat × Nat)
  | _, [] => []
  | position, iov :: rest =>
      bufferPlan iov.base position (iov.len % 2 ^ 32) ++
        if iov.len < 2 ^ 32 then
          listPlan (position + iov.len / 512 * 512) rest
        else
          []

/-- The bytes that transfers move. -/
def bytesOf (transfers : List ClusterTransfer) : List (Nat × Nat) :=
  transfers.flatMap fun transfer =>
    bufferPlan transfer.place transfer.offset (transfer.result.getD 0)

/-- Each byte has the same place and position, if it is on the disk. -/
def SameOnDisk (size : Nat) (first second : List (Nat × Nat)) : Prop :=
  ∀ (index : Nat) (entry : Nat × Nat), entry.2 < size →
    (first[index]? = some entry ↔ second[index]? = some entry)

theorem SameOnDisk.symm {size : Nat} {first second : List (Nat × Nat)}
    (same : SameOnDisk size first second) : SameOnDisk size second first :=
  fun index entry inside => (same index entry inside).symm

theorem SameOnDisk.trans {size : Nat}
    {first second third : List (Nat × Nat)}
    (left : SameOnDisk size first second)
    (right : SameOnDisk size second third) : SameOnDisk size first third :=
  fun index entry inside =>
    (left index entry inside).trans (right index entry inside)

/-- What lies behind the end of the disk does not matter. -/
theorem sameOnDisk_append {size : Nat} (moved : List (Nat × Nat))
    {rest : List (Nat × Nat)} (beyond : ∀ entry ∈ rest, size ≤ entry.2) :
    SameOnDisk size moved (moved ++ rest) := by
  intro index entry inside
  constructor
  · intro found
    exact (List.getElem?_append_left
      (List.getElem?_eq_some_iff.mp found).1).trans found
  · intro found
    by_cases early : index < moved.length
    · rwa [List.getElem?_append_left early] at found
    · rw [List.getElem?_append_right (Nat.not_lt.mp early)] at found
      have behind := beyond entry (List.mem_of_getElem? found)
      omega

theorem bufferPlan_add (place position first second : Nat) :
    bufferPlan place position (first + second) =
      bufferPlan place position first ++
        bufferPlan (place + first) (position + first) second := by
  rw [bufferPlan, List.range_add, List.map_append, List.map_map]
  congr 1
  apply List.map_congr_left
  intro index _
  simp only [Function.comp_apply, Nat.add_assoc]

theorem mem_bufferPlan {place position length : Nat} {entry : Nat × Nat} :
    entry ∈ bufferPlan place position length ↔
      ∃ index < length, entry = (place + index, position + index) := by
  simp only [bufferPlan, List.mem_map, List.mem_range, eq_comm]

theorem bufferPlan_eq_zipIdx (place position length : Nat) :
    bufferPlan place position length =
      ((List.range length).map (place + ·)).zipIdx position := by
  apply List.ext_getElem
  · simp [bufferPlan]
  · intro index inPlan inZip
    simp [bufferPlan]

/-- Whole sectors lead each byte to its position. -/
theorem listPlan_wholeSectors (position : Nat) {iov : List Iovec}
    (whole : WholeSectors iov) :
    listPlan position iov = (places iov).zipIdx position := by
  induction iov generalizing position with
  | nil => rfl
  | cons entry rest induction =>
      obtain ⟨sectors, short⟩ := whole entry List.mem_cons_self
      have restWhole : WholeSectors rest := fun other member =>
        whole other (List.mem_cons_of_mem entry member)
      have parts :
          places (entry :: rest) =
            (List.range entry.len).map (entry.base + ·) ++ places rest :=
        List.flatMap_cons
      rw [listPlan, Nat.mod_eq_of_lt short, if_pos short,
        Nat.div_mul_cancel sectors, induction _ restWhole,
        bufferPlan_eq_zipIdx, parts, List.zipIdx_append, List.length_map,
        List.length_range]

theorem wholeSectors_sameOnDisk {first second : List Iovec}
    (wholeFirst : WholeSectors first) (wholeSecond : WholeSectors second)
    (order : places first = places second) (size position : Nat) :
    SameOnDisk size (listPlan position first)
      (listPlan position second) := by
  rw [listPlan_wholeSectors position wholeFirst,
    listPlan_wholeSectors position wholeSecond, order]
  exact fun _ _ _ => Iff.rfl

/-! ## A buffer that is served -/

section Serving

variable (header : QcowHeader)

/--
The transfers of a buffer none of which fails: they follow the clusters, up
to the end of the buffer or of the disk.
-/
inductive Serves : Nat → Nat → Nat → List ClusterTransfer → Bool → Prop where
  | done (place position : Nat) : Serves place position 0 [] true
  | beyond {place position length : Nat}
      (more : 0 < length) (outside : header.size ≤ position) :
      Serves place position length [] false
  | cluster {place position length moved : Nat}
      {transfers : List ClusterTransfer} {whole : Bool}
      (more : 0 < length) (inside : position < header.size)
      (inTable : getL1Index header position < header.l1Size)
      (rest :
        Serves (place + clusterRest header position length)
          (position + clusterRest header position length)
          (length - clusterRest header position length) transfers whole) :
      Serves place position length
        (⟨place, position, moved,
            some (clusterRest header position length)⟩ :: transfers)
        whole

variable {header} {place position length : Nat}
  {transfers : List ClusterTransfer} {whole : Bool}

theorem clusterRest_le (header : QcowHeader) (position length : Nat) :
    clusterRest header position length ≤ length :=
  Nat.min_le_right _ _

/-- A cluster that ends before its buffer is left at a sector. -/
theorem clusterRest_whole (sectors : 512 ∣ header.clusterSize)
    (aligned : 512 ∣ position)
    (more : clusterRest header position length < length) :
    512 ∣ clusterRest header position length := by
  have atSector : 512 ∣ position % header.clusterSize :=
    (Nat.dvd_mod_iff sectors).mpr aligned
  unfold clusterRest at more ⊢
  omega

/-- A cluster of the disk ends in the address space. -/
theorem clusterRest_end
    (addressable : header.size + header.clusterSize ≤ 2 ^ 64)
    (inside : position < header.size) (length : Nat) :
    position + clusterRest header position length < 2 ^ 64 := by
  have bound :
      clusterRest header position length ≤
        header.clusterSize - position % header.clusterSize :=
    Nat.min_le_left _ _
  have inCluster := Nat.mod_lt position (clusterSize_pos header)
  omega

/-- The position does not matter where nothing is left. -/
theorem Serves.move
    (serves : Serves header place position length transfers whole)
    {other : Nat} (same : 0 < length → other = position) :
    Serves header place other length transfers whole := by
  cases length with
  | zero =>
      cases serves with
      | done => exact .done place other
      | beyond none => cases none
      | cluster none => cases none
  | succ length =>
      rw [same (Nat.zero_lt_succ length)]
      exact serves

/-- The bytes of a cluster have one entry of the L1 table. -/
theorem getL1Index_add {index : Nat}
    (inside : index < clusterRest header position length) :
    getL1Index header (position + index) = getL1Index header position := by
  have bound :
      clusterRest header position length ≤
        header.clusterSize - position % header.clusterSize :=
    Nat.min_le_left _ _
  have positive := clusterSize_pos header
  have sameCluster :
      (position + index) / header.clusterSize =
        position / header.clusterSize := by
    have inCluster := Nat.mod_lt position positive
    have parts := Nat.div_add_mod position header.clusterSize
    have low :
        position % header.clusterSize + index < header.clusterSize := by
      omega
    calc (position + index) / header.clusterSize
      _ = (header.clusterSize * (position / header.clusterSize) +
            (position % header.clusterSize + index)) /
          header.clusterSize := by rw [← Nat.add_assoc, parts]
      _ = position / header.clusterSize +
            (position % header.clusterSize + index) /
              header.clusterSize := Nat.mul_add_div positive _ _
      _ = position / header.clusterSize := by
        rw [Nat.div_eq_of_lt low, Nat.add_zero]
  rw [getL1Index, getL1Index, Nat.add_comm header.l2Bits,
    Nat.shiftRight_add, Nat.shiftRight_add,
    Nat.shiftRight_eq_div_pow _ header.clusterBits,
    Nat.shiftRight_eq_div_pow _ header.clusterBits, ← clusterSize_eq,
    sameCluster]

theorem Serves.inTable
    (serves : Serves header place position length transfers whole) :
    ∀ entry ∈ bytesOf transfers,
      getL1Index header entry.2 < header.l1Size := by
  induction serves with
  | done => exact fun _ none => absurd none List.not_mem_nil
  | beyond => exact fun _ none => absurd none List.not_mem_nil
  | cluster more inside inTable rest induction =>
      intro entry member
      rw [bytesOf, List.flatMap_cons] at member
      rcases List.mem_append.mp member with first | later
      · obtain ⟨index, small, rfl⟩ := mem_bufferPlan.mp first
        rw [getL1Index_add small]
        exact inTable
      · exact induction entry later

/-- A buffer that is served whole ends in the address space. -/
theorem Serves.bounded
    (serves : Serves header place position length transfers true)
    (addressable : header.size + header.clusterSize ≤ 2 ^ 64)
    (start : position < 2 ^ 64) : position + length < 2 ^ 64 := by
  generalize complete : true = whole at serves
  induction serves with
  | done => simpa using start
  | beyond => cases complete
  | @cluster _ position length _ _ _ more inside inTable rest induction =>
      have fits := clusterRest_le header position length
      have last :=
        induction (clusterRest_end addressable inside length) complete
      omega

/-- The transfers move the bytes of the buffer that are on the disk. -/
theorem Serves.bytes
    (serves : Serves header place position length transfers whole) :
    ∃ rest,
      bufferPlan place position length = bytesOf transfers ++ rest ∧
        (whole = true → rest = []) ∧
        ∀ entry ∈ rest, header.size ≤ entry.2 := by
  induction serves with
  | done => exact ⟨[], rfl, fun _ => rfl, by simp⟩
  | @beyond place position length more outside =>
      refine ⟨bufferPlan place position length, rfl, by simp, ?_⟩
      intro entry member
      obtain ⟨index, -, rfl⟩ := mem_bufferPlan.mp member
      exact outside.trans (Nat.le_add_right position index)
  | @cluster place position length _ _ _ more inside inTable rest induction =>
      obtain ⟨behind, plan, none, outside⟩ := induction
      refine ⟨behind, ?_, none, outside⟩
      have fits := clusterRest_le header position length
      have parts :
          length =
            clusterRest header position length +
              (length - clusterRest header position length) := by
        omega
      rw [parts, bufferPlan_add, ← parts, plan, ← List.append_assoc]
      rfl

/-- A buffer that is not served whole leads behind the end of the disk. -/
theorem Serves.stopped
    (serves : Serves header place position length transfers false)
    (sectors : 512 ∣ header.clusterSize) (aligned : 512 ∣ position) :
    header.size ≤ position + length / 512 * 512 := by
  generalize incomplete : false = whole at serves
  induction serves with
  | done => cases incomplete
  | beyond more outside => omega
  | @cluster _ position length _ _ _ more inside inTable rest induction =>
      have fits := clusterRest_le header position length
      by_cases last : clusterRest header position length = length
      · rw [last, Nat.sub_self] at rest
        cases rest with
        | done => cases incomplete
        | beyond none => cases none
        | cluster none => cases none
      · have whole :=
          clusterRest_whole sectors aligned (lt_of_le_of_ne fits last)
        have later :=
          induction ((Nat.dvd_add_right aligned).mpr whole) incomplete
        omega

/-! ## Lists of buffers that are served -/

variable (header)

/-- The transfers of a list of buffers none of which fails. -/
inductive ServesList :
    Nat → List Iovec → List ClusterTransfer → Prop where
  | nil (position : Nat) : ServesList position [] []
  | stopped {position : Nat} {entry : Iovec} {rest : List Iovec}
      {transfers : List ClusterTransfer} {whole : Bool}
      (serves :
        Serves header entry.base position (entry.len % 2 ^ 32) transfers
          whole)
      (ended : whole = true → 2 ^ 32 ≤ entry.len) :
      ServesList position (entry :: rest) transfers
  | next {position : Nat} {entry : Iovec} {rest : List Iovec}
      {transfers others : List ClusterTransfer}
      (serves : Serves header entry.base position entry.len transfers true)
      (short : entry.len < 2 ^ 32)
      (later :
        ServesList (position + entry.len / 512 * 512) rest others) :
      ServesList position (entry :: rest) (transfers ++ others)

variable {header} {iov : List Iovec}

theorem bytesOf_append (first second : List ClusterTransfer) :
    bytesOf (first ++ second) = bytesOf first ++ bytesOf second :=
  List.flatMap_append

/-- The plan of a list does not go back before its start. -/
theorem listPlan_start (position : Nat) (iov : List Iovec) :
    ∀ entry ∈ listPlan position iov, position ≤ entry.2 := by
  induction iov generalizing position with
  | nil => exact fun _ none => absurd none List.not_mem_nil
  | cons first rest induction =>
      intro entry member
      rw [listPlan, List.mem_append] at member
      rcases member with inFirst | later
      · obtain ⟨index, -, rfl⟩ := mem_bufferPlan.mp inFirst
        exact Nat.le_add_right position index
      · split at later
        · exact (Nat.le_add_right _ _).trans (induction _ entry later)
        · cases later

theorem ServesList.inTable
    (serves : ServesList header position iov transfers) :
    ∀ entry ∈ bytesOf transfers,
      getL1Index header entry.2 < header.l1Size := by
  induction serves with
  | nil => exact fun _ none => absurd none List.not_mem_nil
  | stopped serves => exact serves.inTable
  | next serves short later induction =>
      intro entry member
      rw [bytesOf_append] at member
      rcases List.mem_append.mp member with first | second
      · exact serves.inTable entry first
      · exact induction entry second

/-- The transfers move the bytes of the plan that are on the disk. -/
theorem ServesList.bytes
    (serves : ServesList header position iov transfers)
    (sectors : 512 ∣ header.clusterSize) (aligned : 512 ∣ position) :
    ∃ rest,
      listPlan position iov = bytesOf transfers ++ rest ∧
        ∀ entry ∈ rest, header.size ≤ entry.2 := by
  induction serves with
  | nil => exact ⟨[], rfl, by simp⟩
  | @stopped position entry rest transfers whole serves ended =>
      obtain ⟨behind, plan, none, outside⟩ := serves.bytes
      rw [listPlan, plan, List.append_assoc]
      refine ⟨_, rfl, ?_⟩
      intro other member
      rcases List.mem_append.mp member with inBuffer | later
      · exact outside other inBuffer
      · cases whole with
        | true =>
            rw [if_neg (Nat.not_lt.mpr (ended rfl))] at later
            cases later
        | false =>
            split at later
            next short =>
              have stopped := serves.stopped sectors aligned
              have start := listPlan_start _ _ other later
              rw [Nat.mod_eq_of_lt short] at stopped
              exact stopped.trans start
            next => cases later
  | @next position entry rest transfers others serves short later
      induction =>
      obtain ⟨none, plan, empty, -⟩ := serves.bytes
      obtain ⟨behind, planRest, outside⟩ :=
        induction ((Nat.dvd_add_right aligned).mpr (Nat.dvd_mul_left _ _))
      rw [empty rfl, List.append_nil] at plan
      rw [listPlan, Nat.mod_eq_of_lt short, plan, if_pos short, planRest,
        bytesOf_append, ← List.append_assoc]
      exact ⟨behind, rfl, outside⟩

theorem ServesList.sameOnDisk
    (serves : ServesList header position iov transfers)
    (sectors : 512 ∣ header.clusterSize) (aligned : 512 ∣ position) :
    SameOnDisk header.size (bytesOf transfers) (listPlan position iov) := by
  obtain ⟨rest, plan, outside⟩ := serves.bytes sectors aligned
  rw [plan]
  exact sameOnDisk_append _ outside

end Serving

/-! ## Reads -/

/-- None of the transfers fails. -/
def AllSucceed (transfers : List ClusterTransfer) : Prop :=
  ∀ transfer ∈ transfers, transfer.result ≠ none

section Transfers

variable (lib : Rebalancer (Node Nat)) (turns : Nat) (inflate : Inflate)
  {header : QcowHeader}

/-- A loop that does not fail serves its buffer. -/
theorem readSectorLoop_serves (rest : Nat) (q : QcowState) (sector : Nat)
    (mem : Buffer) (buf nrRead : Nat) {dstLen : Nat}
    (sectors : 512 ∣ header.clusterSize)
    (addressable : header.size + header.clusterSize ≤ 2 ^ 64)
    (same : q.header = header) (short : dstLen < 2 ^ 32)
    (begun : nrRead ≤ dstLen) (enough : dstLen - nrRead < rest)
    (succeed :
      AllSucceed
        (sectorReads lib inflate rest q sector mem buf dstLen nrRead)) :
    ∃ (whole : Bool) (memAfter : Buffer) (after : QcowState),
      Serves header buf (sector <<< sectorShift % 2 ^ 64)
          (dstLen - nrRead)
          (sectorReads lib inflate rest q sector mem buf dstLen nrRead)
          whole ∧
        readSectorLoop lib inflate rest q sector mem buf dstLen nrRead =
          some (if whole then (dstLen : Int) else -1, memAfter, after) := by
  induction rest generalizing q sector mem buf nrRead with
  | zero => cases enough
  | succ rest induction =>
      by_cases unread : nrRead < dstLen
      · by_cases beyond :
            q.header.size ≤ sector <<< sectorShift % 2 ^ 64
        · obtain ⟨loop, reads⟩ :=
            readSectorLoop_beyond lib inflate q sector mem buf rest unread
              beyond
          rw [loop, reads]
          rw [same] at beyond
          exact ⟨false, mem, q, .beyond (by omega) beyond, rfl⟩
        · have inside := Nat.not_le.mp beyond
          obtain ⟨result, memTurn, after, turn⟩ :=
            readSectorLoop_turn lib inflate q sector mem buf short unread
              inside
          rw [turn.reads] at succeed ⊢
          rw [turn.loop]
          cases result with
          | none => exact absurd rfl (succeed _ List.mem_cons_self)
          | some nr =>
              obtain ⟨positive, bounded⟩ := turn.moved nr rfl
              obtain ⟨isRest, inTable⟩ := turn.served nr rfl
              have count : countOf (some nr) = nr := rfl
              have next := next_offset sector nr
              rw [count] at succeed ⊢
              rw [same] at isRest inTable inside
              have aligned : 512 ∣ sector <<< sectorShift % 2 ^ 64 := by
                rw [Nat.shiftLeft_eq, sectorShift]
                omega
              have ends :=
                clusterRest_end addressable inside (dstLen - nrRead)
              rw [← isRest] at ends
              have kept : (nrRead + nr) % 2 ^ 32 = nrRead + nr :=
                Nat.mod_eq_of_lt (by omega)
              rw [kept] at succeed ⊢
              obtain ⟨whole, memAfter, last, serves, loop⟩ :=
                induction after _ memTurn (buf + nr) (nrRead + nr)
                  (turn.header.2.trans same) (by omega) (by omega)
                  (List.forall_mem_cons.mp succeed).2
              refine ⟨whole, memAfter, last, ?_, loop⟩
              rw [next, ← Nat.sub_sub] at serves
              rw [isRest]
              refine .cluster (by omega) inside inTable ?_
              rw [← isRest]
              refine serves.move fun more => ?_
              have whole :=
                clusterRest_whole sectors aligned (by rw [← isRest]; omega)
              rw [← isRest] at whole
              omega
      · obtain ⟨loop, reads⟩ :=
          readSectorLoop_done lib inflate q sector mem buf rest unread
        have done : dstLen - nrRead = 0 := by omega
        rw [loop, reads, done]
        exact ⟨true, mem, q, .done _ _, rfl⟩

/-- The next buffer begins behind the whole sectors of this one. -/
theorem next_buffer {position length : Nat} (sector : Nat)
    (start : position = sector <<< sectorShift % 2 ^ 64)
    (ends : position + length < 2 ^ 64) :
    ((sector + length >>> sectorShift) % 2 ^ 64) <<< sectorShift % 2 ^ 64 =
      position + length / 512 * 512 := by
  rw [next_offset, ← start]
  omega

theorem sector_dvd (sector : Nat) :
    512 ∣ sector <<< sectorShift % 2 ^ 64 := by
  rw [Nat.shiftLeft_eq, sectorShift]
  omega

theorem sector_lt (sector : Nat) :
    sector <<< sectorShift % 2 ^ 64 < 2 ^ 64 :=
  Nat.mod_lt _ (by decide)

/-- What a buffer that is not served whole returns ends the request. -/
theorem returned_ne {length : Nat} {whole : Bool}
    (ended : whole = true → 2 ^ 32 ≤ length) :
    (if whole then ((length % 2 ^ 32 : Nat) : Int) else -1) ≠ length := by
  cases whole with
  | false =>
      rw [if_neg Bool.false_ne_true]
      omega
  | true =>
      have long := ended rfl
      rw [if_pos rfl]
      omega

/-- One buffer of a request, and the buffers behind it if it is served. -/
theorem Serves.entry {entry : Iovec} {rest : List Iovec} {sector : Nat}
    {whole : Bool} {transfers later : List ClusterTransfer}
    (serves :
      Serves header entry.base (sector <<< sectorShift % 2 ^ 64)
        (entry.len % 2 ^ 32) transfers whole)
    (addressable : header.size + header.clusterSize ≤ 2 ^ 64)
    (continues :
      (if whole then ((entry.len % 2 ^ 32 : Nat) : Int) else -1) =
          entry.len →
        ServesList header
          (((sector + entry.len >>> sectorShift) % 2 ^ 64) <<<
            sectorShift % 2 ^ 64) rest later) :
    ServesList header (sector <<< sectorShift % 2 ^ 64) (entry :: rest)
      (transfers ++
        if (if whole then ((entry.len % 2 ^ 32 : Nat) : Int) else -1) ≠
            entry.len then
          []
        else
          later) := by
  by_cases complete : whole = true ∧ entry.len < 2 ^ 32
  · obtain ⟨rfl, short⟩ := complete
    rw [if_pos rfl, Nat.mod_eq_of_lt short] at continues ⊢
    rw [if_neg (not_not.mpr rfl)]
    rw [Nat.mod_eq_of_lt short] at serves
    have ends := serves.bounded addressable (sector_lt sector)
    have behind := continues rfl
    rw [next_buffer sector rfl ends] at behind
    exact .next serves short behind
  · have ended : whole = true → 2 ^ 32 ≤ entry.len := fun all =>
      Nat.not_lt.mp fun short => complete ⟨all, short⟩
    rw [if_pos (returned_ne ended), List.append_nil]
    exact .stopped serves ended

theorem iovecReads_serves (iov : List Iovec) (q : QcowState) (sector : Nat)
    (mem : Buffer) (sectors : 512 ∣ header.clusterSize)
    (addressable : header.size + header.clusterSize ≤ 2 ^ 64)
    (same : q.header = header)
    (succeed :
      AllSucceed (iovecReads lib inflate (2 ^ 32) q sector mem iov)) :
    ServesList header (sector <<< sectorShift % 2 ^ 64) iov
      (iovecReads lib inflate (2 ^ 32) q sector mem iov) := by
  induction iov generalizing q sector mem with
  | nil => exact .nil _
  | cons entry rest induction =>
      have low : entry.len % 2 ^ 32 < 2 ^ 32 := Nat.mod_lt _ (by decide)
      rw [iovecReads] at succeed ⊢
      obtain ⟨whole, memAfter, after, serves, loop⟩ :=
        readSectorLoop_serves lib inflate (2 ^ 32) q sector mem entry.base 0
          sectors addressable same low (Nat.zero_le _) low
          (List.forall_mem_append.mp succeed).1
      have header := (readSectorLoop_result lib inflate low loop).2
      rw [Nat.sub_zero] at serves
      rw [loop] at succeed ⊢
      dsimp only at succeed ⊢
      refine serves.entry addressable fun complete => ?_
      rw [if_neg (not_not.mpr complete)] at succeed
      exact induction after _ memAfter (header.2.trans same)
        (List.forall_mem_append.mp succeed).2

/-! ## Writes -/

/-- The cluster writes of `qcow_write_sector_single`. -/
def sectorWrites :
    Nat → QcowState → Nat → Buffer → Nat → Nat → Nat →
      List ClusterTransfer
  | 0, _, _, _, _, _, _ => []
  | rest + 1, q, offset, mem, buf, srcLen, nrWritten =>
      if nrWritten < srcLen then
        if q.header.size ≤ offset then
          []
        else
          match qcowWriteCluster lib turns inflate q offset mem buf
              (srcLen - nrWritten) with
          | some (some nr, q) =>
              ⟨buf, offset, nrWritten, some nr⟩ ::
                sectorWrites rest q ((offset + nr) % 2 ^ 64) mem (buf + nr)
                  srcLen ((nrWritten + nr) % 2 ^ 32)
          | _ => [⟨buf, offset, nrWritten, none⟩]
      else
        []

/-- The cluster writes of `qcow_write_sector`. -/
def iovecWrites :
    QcowState → Nat → Buffer → List Iovec → List ClusterTransfer
  | _, _, _, [] => []
  | q, sector, mem, iov :: rest =>
      sectorWrites lib turns inflate (iov.len % 2 ^ 32 + 1) q
          (sector <<< sectorShift % 2 ^ 64) mem iov.base
          (iov.len % 2 ^ 32) 0 ++
        match qcowWriteSectorSingle lib turns inflate q sector mem iov.base
            (iov.len % 2 ^ 32) with
        | none => []
        | some (nr, q) =>
            if nr ≠ iov.len then
              []
            else
              iovecWrites q ((sector + iov.len >>> sectorShift) % 2 ^ 64)
                mem rest

theorem writeSectorLoop_serves (rest : Nat) (q : QcowState) (offset : Nat)
    (mem : Buffer) (buf nrWritten : Nat) {srcLen : Nat}
    (addressable : header.size + header.clusterSize ≤ 2 ^ 64)
    (same : q.header = header) (short : srcLen < 2 ^ 32)
    (begun : nrWritten ≤ srcLen) (enough : srcLen - nrWritten < rest)
    (succeed :
      AllSucceed
        (sectorWrites lib turns inflate rest q offset mem buf srcLen
          nrWritten)) :
    ∃ (whole : Bool) (after : QcowState),
      Serves header buf offset (srcLen - nrWritten)
          (sectorWrites lib turns inflate rest q offset mem buf srcLen
            nrWritten)
          whole ∧
        writeSectorLoop lib turns inflate rest q offset mem buf srcLen
            nrWritten =
          some (if whole then (srcLen : Int) else -1, after) ∧
        after.header = header := by
  induction rest generalizing q offset buf nrWritten with
  | zero => cases enough
  | succ rest induction =>
      rw [sectorWrites] at succeed ⊢
      rw [writeSectorLoop]
      by_cases unread : nrWritten < srcLen
      · rw [if_pos unread] at succeed ⊢
        rw [if_pos unread]
        by_cases beyond : q.header.size ≤ offset
        · rw [if_pos beyond, if_pos beyond]
          rw [same] at beyond
          exact ⟨false, q, .beyond (by omega) beyond, rfl, same⟩
        · rw [if_neg beyond] at succeed ⊢
          rw [if_neg beyond]
          cases wrote :
            qcowWriteCluster lib turns inflate q offset mem buf
              (srcLen - nrWritten) with
          | none =>
              rw [wrote] at succeed
              exact absurd rfl (succeed _ List.mem_cons_self)
          | some outcome =>
              obtain ⟨result, after⟩ := outcome
              rw [wrote] at succeed
              cases result with
              | none => exact absurd rfl (succeed _ List.mem_cons_self)
              | some nr =>
                  dsimp only at succeed ⊢
                  obtain ⟨kept, isRest, inTable⟩ :=
                    qcowWriteCluster_moves lib inflate turns wrote
                  have inside := Nat.not_le.mp beyond
                  rw [same] at isRest inTable inside
                  have bounded :=
                    clusterRest_le header offset (srcLen - nrWritten)
                  have ends :=
                    clusterRest_end addressable inside (srcLen - nrWritten)
                  rw [← isRest] at bounded ends
                  have keptTotal :
                      (nrWritten + nr) % 2 ^ 32 = nrWritten + nr :=
                    Nat.mod_eq_of_lt (by omega)
                  have positive : 0 < nr := by
                    have inCluster :=
                      Nat.mod_lt offset (clusterSize_pos header)
                    rw [isRest, clusterRest]
                    omega
                  rw [keptTotal, Nat.mod_eq_of_lt ends] at succeed ⊢
                  obtain ⟨whole, last, serves, loop, lastSame⟩ :=
                    induction after (offset + nr) (buf + nr) (nrWritten + nr)
                      (kept.2.trans same) (by omega) (by omega)
                      (List.forall_mem_cons.mp succeed).2
                  refine ⟨whole, last, ?_, loop, lastSame⟩
                  rw [← Nat.sub_sub] at serves
                  rw [isRest] at serves ⊢
                  exact .cluster (by omega) inside inTable serves
      · have done : srcLen - nrWritten = 0 := by omega
        have all : nrWritten = srcLen := by omega
        rw [if_neg unread, if_neg unread, done, all]
        exact ⟨true, q, .done _ _, rfl, same⟩

theorem iovecWrites_serves (iov : List Iovec) (q : QcowState)
    (sector : Nat) (mem : Buffer)
    (addressable : header.size + header.clusterSize ≤ 2 ^ 64)
    (same : q.header = header)
    (succeed :
      AllSucceed (iovecWrites lib turns inflate q sector mem iov)) :
    ServesList header (sector <<< sectorShift % 2 ^ 64) iov
      (iovecWrites lib turns inflate q sector mem iov) := by
  induction iov generalizing q sector with
  | nil => exact .nil _
  | cons entry rest induction =>
      have low : entry.len % 2 ^ 32 < 2 ^ 32 := Nat.mod_lt _ (by decide)
      rw [iovecWrites] at succeed ⊢
      obtain ⟨whole, after, serves, loop, header⟩ :=
        writeSectorLoop_serves lib turns inflate (entry.len % 2 ^ 32 + 1) q
          (sector <<< sectorShift % 2 ^ 64) mem entry.base 0 addressable
          same low (Nat.zero_le _) (Nat.lt_succ_self _)
          (List.forall_mem_append.mp succeed).1
      rw [Nat.sub_zero] at serves
      rw [qcowWriteSectorSingle, loop] at succeed ⊢
      dsimp only at succeed ⊢
      refine serves.entry addressable fun complete => ?_
      rw [if_neg (not_not.mpr complete)] at succeed
      exact induction after _ header (List.forall_mem_append.mp succeed).2

/-! ## An image without data -/

/-- An image all of whose L1 entries are empty, with a header. -/
def blankState (header : QcowHeader) : QcowState :=
  { silentState .qcow2 header with l1Table := fun _ => 0 }

variable (header)

theorem readVersionCluster_blank {offset : Nat}
    (inTable : getL1Index header offset < header.l1Size) (mem : Buffer)
    (dst dstLen : Nat) :
    ∃ memAfter,
      readVersionCluster lib inflate (blankState header) offset mem dst
          dstLen =
        (some (clusterRest header offset dstLen), memAfter,
          blankState header) := by
  have entry :
      be64 (blankState header).l1Table (getL1Index header offset * 8) =
        0 := by
    simp [be64, beNumber, List.range_succ, blankState]
  have inCluster :
      getClusterOffset header offset < header.clusterSize := by
    rw [getClusterOffset_eq]
    exact Nat.mod_lt _ (clusterSize_pos header)
  have version : (blankState header).version = .qcow2 := rfl
  have sameHeader : (blankState header).header = header := rfl
  rw [readVersionCluster, version]
  dsimp only
  rw [qcow2ReadCluster, readCluster, sameHeader, entry,
    if_neg (Nat.not_le.mpr inTable), if_neg (Nat.not_le.mpr inCluster),
    getClusterOffset_eq, ← clusterRest]
  exact ⟨_, rfl⟩

variable {header}

/-- No read of the blank image fails that is in reach of the L1 table. -/
theorem readSectorLoop_blank (rest sector : Nat) (mem : Buffer)
    (buf nrRead : Nat) {dstLen : Nat} (sectors : 512 ∣ header.clusterSize)
    (addressable : header.size + header.clusterSize ≤ 2 ^ 64)
    (short : dstLen < 2 ^ 32) (begun : nrRead ≤ dstLen)
    (enough : dstLen - nrRead < rest)
    (covered : ∀ index < dstLen - nrRead,
      sector <<< sectorShift % 2 ^ 64 + index < header.size →
        getL1Index header (sector <<< sectorShift % 2 ^ 64 + index) <
          header.l1Size) :
    AllSucceed
        (sectorReads lib inflate rest (blankState header) sector mem buf
          dstLen nrRead) ∧
      ∃ value memAfter,
        readSectorLoop lib inflate rest (blankState header) sector mem buf
            dstLen nrRead =
          some (value, memAfter, blankState header) := by
  induction rest generalizing sector mem buf nrRead with
  | zero => cases enough
  | succ rest induction =>
      by_cases unread : nrRead < dstLen
      · by_cases beyond :
            header.size ≤ sector <<< sectorShift % 2 ^ 64
        · obtain ⟨loop, reads⟩ :=
            readSectorLoop_beyond lib inflate (blankState header) sector mem
              buf rest unread beyond
          rw [loop, reads]
          exact ⟨fun _ none => absurd none List.not_mem_nil, _, _, rfl⟩
        · have inside := Nat.not_le.mp beyond
          have inTable := covered 0 (by omega) inside
          obtain ⟨memTurn, read⟩ :=
            readVersionCluster_blank lib inflate header inTable mem buf
              (dstLen - nrRead)
          rw [Nat.add_zero] at read
          have bounded :=
            clusterRest_le header (sector <<< sectorShift % 2 ^ 64)
              (dstLen - nrRead)
          have ends :=
            clusterRest_end addressable inside (dstLen - nrRead)
          have whole :
              clusterRest header (sector <<< sectorShift % 2 ^ 64)
                    (dstLen - nrRead) <
                  dstLen - nrRead →
                512 ∣ clusterRest header (sector <<< sectorShift % 2 ^ 64)
                    (dstLen - nrRead) :=
            clusterRest_whole sectors (sector_dvd sector)
          have positive :
              0 < clusterRest header (sector <<< sectorShift % 2 ^ 64)
                (dstLen - nrRead) := by
            have inCluster :=
              Nat.mod_lt (sector <<< sectorShift % 2 ^ 64)
                (clusterSize_pos header)
            unfold clusterRest
            omega
          generalize clusterRest header (sector <<< sectorShift % 2 ^ 64)
            (dstLen - nrRead) = nr at *
          have kept : nr % 2 ^ 32 = nr := Nat.mod_eq_of_lt (by omega)
          have keptTotal : (nrRead + nr) % 2 ^ 32 = nrRead + nr :=
            Nat.mod_eq_of_lt (by omega)
          have sameHeader : (blankState header).header = header := rfl
          have next := next_offset sector nr
          have later :=
            induction ((sector + nr >>> sectorShift) % 2 ^ 64) memTurn
              (buf + nr) (nrRead + nr) (by omega) (by omega) (by
                intro index small insideNext
                have aligned := whole (by omega)
                have moved :
                    ((sector + nr >>> sectorShift) % 2 ^ 64) <<<
                          sectorShift % 2 ^ 64 =
                      sector <<< sectorShift % 2 ^ 64 + nr := by
                  omega
                rw [moved, Nat.add_assoc] at insideNext ⊢
                exact covered (nr + index) (by omega) insideNext)
          rw [sectorReads, readSectorLoop, if_pos unread, if_pos unread]
          dsimp only
          rw [sameHeader, if_neg beyond, if_neg beyond, read]
          dsimp only
          rw [Option.getD_some, kept, if_neg positive.ne', keptTotal]
          refine ⟨?_, later.2⟩
          intro transfer member
          rcases List.mem_cons.mp member with rfl | others
          · simp
          · exact later.1 transfer others
      · obtain ⟨loop, reads⟩ :=
          readSectorLoop_done lib inflate (blankState header) sector mem buf
            rest unread
        rw [loop, reads]
        exact ⟨fun _ none => absurd none List.not_mem_nil, _, _, rfl⟩

/-- A byte on the disk that no entry of the L1 table is for. -/
def Unserved (header : QcowHeader) (plan : List (Nat × Nat)) : Prop :=
  ∃ entry ∈ plan, entry.2 < header.size ∧
    header.l1Size ≤ getL1Index header entry.2

theorem iovecReads_blank (iov : List Iovec) (sector : Nat) (mem : Buffer)
    (sectors : 512 ∣ header.clusterSize)
    (addressable : header.size + header.clusterSize ≤ 2 ^ 64)
    (served :
      ¬ Unserved header
        (listPlan (sector <<< sectorShift % 2 ^ 64) iov)) :
    AllSucceed
      (iovecReads lib inflate (2 ^ 32) (blankState header) sector mem
        iov) := by
  induction iov generalizing sector mem with
  | nil => exact fun _ none => absurd none List.not_mem_nil
  | cons entry rest induction =>
      have low : entry.len % 2 ^ 32 < 2 ^ 32 := Nat.mod_lt _ (by decide)
      rw [listPlan] at served
      obtain ⟨succeed, value, memAfter, loop⟩ :=
        readSectorLoop_blank lib inflate (2 ^ 32) sector mem entry.base 0
          sectors addressable low (Nat.zero_le _) low (by
            intro index small inside
            by_contra outside
            refine served ⟨_, List.mem_append_left _
              (mem_bufferPlan.mpr ⟨index, small, rfl⟩), inside,
              Nat.not_lt.mp outside⟩)
      obtain ⟨whole, _, _, serves, sameLoop⟩ :=
        readSectorLoop_serves lib inflate (2 ^ 32) (blankState header)
          sector mem entry.base 0 sectors addressable rfl low
          (Nat.zero_le _) low succeed
      have isValue := loop.symm.trans sameLoop
      rw [iovecReads, loop]
      dsimp only
      intro transfer member
      rcases List.mem_append.mp member with first | later
      · exact succeed transfer first
      · split at later
        next => cases later
        next returned =>
          have complete : whole = true ∧ entry.len < 2 ^ 32 := by
            by_contra stopped
            refine returned ?_
            cases isValue
            exact returned_ne fun all =>
              Nat.not_lt.mp fun short => stopped ⟨all, short⟩
          obtain ⟨rfl, short⟩ := complete
          rw [Nat.sub_zero, Nat.mod_eq_of_lt short] at serves
          have ends := serves.bounded addressable (sector_lt sector)
          refine induction _ memAfter ?_ transfer later
          rw [next_buffer sector rfl ends]
          rintro ⟨other, inPlan, outside⟩
          refine served ⟨other, List.mem_append_right _ ?_, outside⟩
          rw [if_pos short]
          exact inPlan

/-! ## Main result -/

/--
Whatever the image with a header: where no cluster fails, reads and writes
of two lists move the bytes of the disk between the same places.
-/
def SplitIndependent (header : QcowHeader) (sector : Nat)
    (first second : List Iovec) : Prop :=
  ∀ (q : QcowState) (mem : Buffer), q.header = header →
    (AllSucceed (iovecReads lib inflate (2 ^ 32) q sector mem first) →
      AllSucceed (iovecReads lib inflate (2 ^ 32) q sector mem second) →
        SameOnDisk header.size
          (bytesOf (iovecReads lib inflate (2 ^ 32) q sector mem first))
          (bytesOf
            (iovecReads lib inflate (2 ^ 32) q sector mem second))) ∧
    (AllSucceed (iovecWrites lib turns inflate q sector mem first) →
      AllSucceed (iovecWrites lib turns inflate q sector mem second) →
        SameOnDisk header.size
          (bytesOf (iovecWrites lib turns inflate q sector mem first))
          (bytesOf (iovecWrites lib turns inflate q sector mem second)))

/-- A list that is served has an entry of the L1 table for each byte. -/
theorem ServesList.served {position : Nat} {iov : List Iovec}
    {transfers : List ClusterTransfer}
    (serves : ServesList header position iov transfers)
    (sectors : 512 ∣ header.clusterSize) (aligned : 512 ∣ position) :
    ¬ Unserved header (listPlan position iov) := by
  obtain ⟨rest, plan, outside⟩ := serves.bytes sectors aligned
  rintro ⟨entry, member, inside, notInTable⟩
  rw [plan] at member
  rcases List.mem_append.mp member with moved | behind
  · have inTable := serves.inTable entry moved
    omega
  · have beyond := outside entry behind
    omega

/--
Two lists of buffers are served alike exactly if their lengths lead each
byte to the same position, as far as the positions are on the disk, or if
the L1 table leaves one of them out.
-/
theorem splitIndependent_iff (sectors : 9 ≤ header.clusterBits)
    (addressable : header.size + header.clusterSize ≤ 2 ^ 64)
    (sector : Nat) (first second : List Iovec) :
    SplitIndependent lib turns inflate header sector first second ↔
      Unserved header (listPlan (sector <<< sectorShift % 2 ^ 64) first) ∨
        Unserved header
          (listPlan (sector <<< sectorShift % 2 ^ 64) second) ∨
        SameOnDisk header.size
          (listPlan (sector <<< sectorShift % 2 ^ 64) first)
          (listPlan (sector <<< sectorShift % 2 ^ 64) second) := by
  have whole : 512 ∣ header.clusterSize := by
    rw [clusterSize_eq]
    exact pow_dvd_pow 2 sectors
  have aligned := sector_dvd sector
  constructor
  · intro independent
    by_contra neither
    obtain ⟨servedFirst, other⟩ := not_or.mp neither
    obtain ⟨servedSecond, different⟩ := not_or.mp other
    have blank (iov : List Iovec) :=
      iovecReads_blank lib inflate iov sector (fun _ => 0) whole addressable
    have succeedFirst := blank first servedFirst
    have succeedSecond := blank second servedSecond
    have same :=
      (independent (blankState header) (fun _ => 0) rfl).1 succeedFirst
        succeedSecond
    have serves (iov : List Iovec) :=
      iovecReads_serves lib inflate iov (blankState header) sector
        (fun _ => 0) whole addressable rfl
    exact different
      ((((serves first succeedFirst).sameOnDisk whole aligned).symm.trans
          same).trans
        ((serves second succeedSecond).sameOnDisk whole aligned))
  · intro alike q mem same
    have transfer {reads others : List ClusterTransfer}
        (serves :
          ServesList header (sector <<< sectorShift % 2 ^ 64) first reads)
        (servesOther :
          ServesList header (sector <<< sectorShift % 2 ^ 64) second
            others) :
        SameOnDisk header.size (bytesOf reads) (bytesOf others) := by
      have plans :=
        (alike.resolve_left (serves.served whole aligned)).resolve_left
          (servesOther.served whole aligned)
      exact
        ((serves.sameOnDisk whole aligned).trans plans).trans
          (servesOther.sameOnDisk whole aligned).symm
    constructor
    · intro succeed succeedOther
      exact transfer
        (iovecReads_serves lib inflate first q sector mem whole addressable
          same succeed)
        (iovecReads_serves lib inflate second q sector mem whole addressable
          same succeedOther)
    · intro succeed succeedOther
      exact transfer
        (iovecWrites_serves lib turns inflate first q sector mem addressable
          same succeed)
        (iovecWrites_serves lib turns inflate second q sector mem
          addressable same succeedOther)

end Transfers

/-- Two clusters in one buffer, or in two. -/
theorem splitIndependent_on_smallHeader :
    SplitIndependent (.plain _) 16 (fun _ _ _ => none) smallHeader 0
      [⟨0, 1024⟩] [⟨0, 512⟩, ⟨512, 512⟩] :=
  (splitIndependent_iff (.plain _) 16 (fun _ _ _ => none) (by decide)
      (by decide) 0 _ _).mpr
    (Or.inr (Or.inr (wholeSectors_sameOnDisk (by decide) (by decide)
      (by decide +kernel) _ _)))

/-- A buffer of 100 bytes makes the next one begin at the same sector. -/
theorem split_sector_is_repeated :
    places [⟨0, 100⟩, ⟨100, 412⟩] = places [⟨0, 512⟩] ∧
      (qcowReadSector (.plain _) (fun _ _ _ => none) smallState 0
            (fun _ => 0) [⟨0, 512⟩]).map
          (fun result => (result.1, result.2.1 100)) =
        some (512, 0) ∧
      (qcowReadSector (.plain _) (fun _ _ _ => none) smallState 0
            (fun _ => 0) [⟨0, 100⟩, ⟨100, 412⟩]).map
          (fun result => (result.1, result.2.1 100)) =
        some (512, 7) := by
  refine ⟨by decide +kernel, by decide +kernel, by decide +kernel⟩

end Kemu.Disk.Qcow
