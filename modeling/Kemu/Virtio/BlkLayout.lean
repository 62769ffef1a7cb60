import Kemu.Virtio.Blk

/-!
# Any layout of a block request

A request is a header of 16 bytes, data and a status byte, and a driver may
split these over buffers as it likes.  `virtio_blk_do_io_request` takes the
header off the front with a cursor that shortens buffers in place, and the
status byte off the last buffer that holds one.  What remains for the disk
are the places in between, in their order, for every split.
-/

namespace Kemu.Virtio.BlkLayout

open Kemu.Disk.Image
open Kemu.Util.IoVector
open Kemu.Virtio.Blk
open Kemu.Virtio.Ring

/-! ## Requests -/

/-- The places between the header and the last byte. -/
def dataPlaces (iov : List Iovec) : List Nat :=
  ((places iov).drop 16).dropLast

/-- The place of the last byte. -/
def statusPlace (iov : List Iovec) : HostPtr :=
  (places iov).getLastD 0

/--
A request whose readable buffers hold the header, and whose last buffer that
is not empty is writable: the buffers behind it are empty.
-/
structure WellFormed (env : BlkEnv) (req : BlkDevReq)
    (header : List UInt8) : Prop where
  counted : req.iov.length = req.out.toNat + req.in.toNat
  readable : 16 ≤ iovSize req.iov req.out.toNat
  lastWritable :
    ∃ last, req.out.toNat ≤ last ∧ last < req.iov.length ∧
      (req.iov.getD last default).len ≠ 0 ∧
      ∀ entry ∈ req.iov.drop (last + 1), entry.len = 0
  mapped : (gather env.hostMem req.iov).take 16 = header.map some

/-- The call of the disk image that a request of some type makes. -/
def diskCalls (hdr : VirtioBlkOuthdr) (iov : List Iovec) : List DiskCall :=
  if hdr.type = virtioBlkTIn then
    [⟨false, hdr.sector, iov⟩]
  else if hdr.type = virtioBlkTOut then
    [⟨true, hdr.sector, iov⟩]
  else
    []

/-- The place of the status byte is mapped and the request is answered. -/
def Completed (env : BlkEnv) (req : BlkDevReq) (hdr : VirtioBlkOuthdr) :
    Prop :=
  (env.hostMem (statusPlace req.iov)).isSome = true ∧
    Answered env.ops ((dataPlaces req.iov).map env.hostMem) hdr.type

/--
What a request with some header does: the disk image is called for its type
and sector with the places of its data, and a status byte that is written
goes to its last place.  With an image that calls back it is written once
for a request that is completed, and otherwise not at all.
-/
structure Served (env : BlkEnv) (dev after : BlkDev) (req : BlkDevReq)
    (hdr : VirtioBlkOuthdr) : Prop where
  disk :
    ∃ iov, places iov = dataPlaces req.iov ∧
      after.diskCalls = dev.diskCalls ++ diskCalls hdr iov
  status :
    ∃ written, after.completed = dev.completed ++ written ∧
      (∀ completion ∈ written,
        completion.statusAt = statusPlace req.iov ∧
          completion.elem.id = req.head.toUInt32) ∧
      (dev.disk = ⟨false, true⟩ →
        (Completed env req hdr → written.length = 1) ∧
          (¬ Completed env req hdr → written.length = 0))

/-! ## The types of requests -/

section Dispatch

variable (env : BlkEnv) (dev : BlkDev) (req : BlkDevReq)

/-- At most one status byte is written, to the place of the request. -/
structure Finishes (after : BlkDev) : Prop where
  calls : after.diskCalls = dev.diskCalls
  written :
    ∃ written, after.completed = dev.completed ++ written ∧
      ∀ completion ∈ written,
        completion.statusAt = req.status ∧
          completion.elem.id = req.head.toUInt32

theorem finishes_self : Finishes dev req dev :=
  ⟨rfl, [], (List.append_nil _).symm, List.forall_mem_nil _⟩

theorem virtioBlkComplete_finishes (len : Int) :
    Finishes dev req (virtioBlkComplete env dev req len) := by
  rw [virtioBlkComplete]
  split
  · exact ⟨rfl, [], (List.append_nil _).symm, List.forall_mem_nil _⟩
  · refine ⟨rfl, [_], rfl, ?_⟩
    rintro _ member
    rw [List.mem_singleton.1 member]
    exact ⟨rfl, rfl⟩

theorem callback_finishes (total : Option Int) :
    Finishes dev req (dev.callback env req total) := by
  cases total with
  | none => exact finishes_self dev req
  | some total => exact virtioBlkComplete_finishes env dev req total

/-- The disk image is called for the type, and then the request finishes. -/
theorem virtioBlkDispatch_finishes (hdr : VirtioBlkOuthdr)
    (iov : List Iovec) :
    Finishes
      { dev with diskCalls := dev.diskCalls ++ diskCalls hdr iov } req
      (virtioBlkDispatch env dev req hdr iov) := by
  have none (absent : diskCalls hdr iov = []) :
      { dev with diskCalls := dev.diskCalls ++ diskCalls hdr iov } =
        dev := by
    rw [absent, List.append_nil]
  rw [virtioBlkDispatch]
  split
  case isTrue isIn =>
    rw [diskCalls, if_pos isIn]
    exact callback_finishes env _ req _
  case isFalse notIn =>
  split
  case isTrue isOut =>
    rw [diskCalls, if_neg notIn, if_pos isOut]
    exact callback_finishes env _ req _
  case isFalse notOut =>
  rw [none (by rw [diskCalls, if_neg notIn, if_neg notOut])]
  split
  · exact virtioBlkComplete_finishes env dev req _
  split
  · cases diskImageGetSerial env.ops env.hostMem iov with
    | none => exact ⟨rfl, [], (List.append_nil _).symm, List.forall_mem_nil _⟩
    | some len => exact virtioBlkComplete_finishes env dev req len
  · exact finishes_self dev req

/-- What is done with the data and the status byte of a request. -/
theorem virtioBlkDispatch_served {iov : List Iovec}
    (data : places iov = dataPlaces req.iov) (hdr : VirtioBlkOuthdr) :
    Served env dev
      (virtioBlkDispatch env dev
        { req with status := statusPlace req.iov } hdr iov)
      req hdr := by
  obtain ⟨calls, written, recorded, each⟩ :=
    virtioBlkDispatch_finishes env dev
      { req with status := statusPlace req.iov } hdr iov
  refine ⟨⟨iov, data, calls⟩, written, recorded, each, fun image => ?_⟩
  have handled :=
    virtioBlkDispatch_handled env dev
      { req with status := statusPlace req.iov } (by rw [image])
      (by rw [image]) hdr iov
  rw [Completed, ← data, ← gather_eq_map]
  have heads (list : List UInt32)
      (same :
        (virtioBlkDispatch env dev
            { req with status := statusPlace req.iov } hdr
            iov).completedHeads = dev.completedHeads ++ list) :
      written.length = list.length := by
    rw [BlkDev.completedHeads, recorded, List.map_append] at same
    rw [← List.append_cancel_left same, List.length_map]
  exact
    ⟨fun served => heads _ (handled.finished served).2, fun idle =>
      heads [] ((handled.dropped idle).trans (List.append_nil _).symm)⟩

end Dispatch

/-! ## The status byte -/

section Status

variable {iov : List Iovec} {last : Nat}

theorem extractStatus_places (within : last < iov.length)
    (bytes : places (iov.take (last + 1)) ≠ []) :
    places (extractStatus iov (last + 1)).1 =
        (places (iov.take (last + 1))).dropLast ∧
      (extractStatus iov (last + 1)).2 =
        (places (iov.take (last + 1))).getLastD 0 := by
  have spec (mem : HostMem) := extractStatus_spec mem iov last within (by
    rw [gather_eq_map]
    exact fun empty => bytes (List.map_eq_nil_iff.1 empty))
  constructor
  · apply eq_of_map_mem
    intro mem
    rw [List.map_dropLast, ← gather_eq_map, ← gather_eq_map]
    exact (spec mem).1
  · have found := List.getLast?_eq_some_getLast bytes
    generalize (places (iov.take (last + 1))).getLast bytes = place at found
    have single : [(extractStatus iov (last + 1)).2] = [place] := by
      apply eq_of_map_mem
      intro mem
      have cell := (spec mem).2
      rw [gather_eq_map, List.getLast?_map, found, Option.map_some,
        Option.some.injEq] at cell
      rw [List.map_singleton, List.map_singleton, cell]
    rw [List.getLastD_eq_getLast?, found, Option.getD_some]
    exact List.singleton_inj.1 single

end Status

/-! ## One request -/

section Request

variable {env : BlkEnv} {req : BlkDevReq} {header : List UInt8}

/-- A byte is left behind the header. -/
theorem WellFormed.room (wellFormed : WellFormed env req header) :
    16 < iovSize req.iov req.iov.length := by
  obtain ⟨last, behind, inside, holds, -⟩ := wellFormed.lastWritable
  have readable := wellFormed.readable
  have front := iovSize_le_of_le req.iov behind
  have whole := iovSize_le_of_le req.iov (show last + 1 ≤ _ from inside)
  have step := iovSize_succ inside
  omega

/-- What is handed on is the same places for every split. -/
theorem WellFormed.served (wellFormed : WellFormed env req header)
    (dev : BlkDev) :
    Served env dev (virtioBlkDoIoRequest env dev req) req
      (.ofBytes header) := by
  have room := wellFormed.room
  obtain ⟨counted, readable, -, mapped⟩ := wellFormed
  have within : req.out.toNat ≤ req.iov.length := by omega
  have copied :
      (memcpyFromiovecSafe env.hostMem req.iov 16 req.out.toNat).buf.mapM
        id = some header := by
    rw [memcpyFromiovecSafe_buf, header_cells readable]
    exact mapM_id_eq_some_iff.2 mapped
  have nothing :=
    memcpyFromiovecSafe_remaining env.hostMem req.iov 16 req.out.toNat within
  have left := memcpyFromiovecSafe_places env.hostMem req.iov 16
    req.out.toNat req.in.toNat within
  have lengths :=
    memcpyFromiovecSafe_length env.hostMem req.iov 16 req.out.toNat
  rw [Nat.min_eq_left readable, ← counted, List.take_length] at left
  rw [virtioBlkDoIoRequest]
  dsimp only
  generalize
    memcpyFromiovecSafe env.hostMem req.iov 16 req.out.toNat = copy at *
  rw [copied]
  dsimp only
  have size :
      iovSize copy.iov (copy.count + req.in.toNat) =
        iovSize req.iov req.iov.length - 16 := by
    rw [← places_length, ← List.length_drop, ← left,
      ← gather_take_length env.hostMem, gather_eq_map, List.length_map]
  rw [if_neg (by omega), if_neg (by omega)]
  obtain ⟨last, count⟩ : ∃ last, copy.count + req.in.toNat = last + 1 := by
    apply Nat.exists_eq_succ_of_ne_zero
    intro zero
    rw [zero, iovSize_zero] at size
    omega
  rw [count] at left ⊢
  have bytes : places (copy.iov.take (last + 1)) ≠ [] := by
    rw [left, ← List.length_pos_iff, List.length_drop, places_length]
    omega
  have status := extractStatus_places (by omega) bytes
  rw [left] at status
  have place :
      (extractStatus copy.iov (last + 1)).2 = statusPlace req.iov := by
    rw [status.2, statusPlace, List.getLastD_eq_getLast?,
      List.getLastD_eq_getLast?, List.getLast?_drop,
      if_neg (by rw [places_length]; omega)]
  rw [place]
  exact virtioBlkDispatch_served env dev req status.1 _

end Request

/-! ## Main result -/

/--
Two requests with the same bytes, split over buffers in any way, are served
with the same header: the disk image gets the places between the header and
the last byte, which hold the same data, and the status byte is the last one.
-/
theorem virtioBlkDoIoRequest_layout {env : BlkEnv}
    {first second : BlkDevReq} {header otherHeader : List UInt8}
    (firstFormed : WellFormed env first header)
    (secondFormed : WellFormed env second otherHeader)
    (sameBytes :
      gather env.hostMem first.iov = gather env.hostMem second.iov)
    (dev : BlkDev) :
    Served env dev (virtioBlkDoIoRequest env dev first) first
        (.ofBytes header) ∧
      Served env dev (virtioBlkDoIoRequest env dev second) second
        (.ofBytes header) ∧
      (dataPlaces first.iov).map env.hostMem =
        (dataPlaces second.iov).map env.hostMem ∧
      (dataPlaces first.iov).length = (dataPlaces second.iov).length := by
  have sameHeader : header = otherHeader := by
    have cells := firstFormed.mapped
    rw [sameBytes, secondFormed.mapped] at cells
    exact (List.map_injective_iff.2 (Option.some_injective _) cells).symm
  have sameData :
      (dataPlaces first.iov).map env.hostMem =
        (dataPlaces second.iov).map env.hostMem := by
    rw [dataPlaces, dataPlaces, List.map_dropLast, List.map_dropLast,
      List.map_drop, List.map_drop, ← gather_eq_map, ← gather_eq_map,
      sameBytes]
  refine ⟨firstFormed.served dev, ?_, sameData, ?_⟩
  · rw [sameHeader]
    exact secondFormed.served dev
  · have lengths := congrArg List.length sameData
    rwa [List.length_map, List.length_map] at lengths

/-- A request over some buffers, the first ones readable. -/
def exampleRequest (iov : List Iovec) (out «in» : UInt16) : BlkDevReq where
  iov
  out
  «in»
  head := 0
  status := 0

/-- Two bytes of data, in one buffer with the status byte. -/
theorem exampleRequest_wellFormed :
    WellFormed failedRead (exampleRequest [⟨0, 16⟩, ⟨32, 3⟩] 1 1)
      (List.replicate 16 0) where
  counted := by decide
  readable := by decide
  lastWritable := ⟨1, by decide⟩
  mapped := by decide

/-- The same request with the header in two buffers, and empty buffers. -/
theorem exampleRequest_split_wellFormed :
    WellFormed failedRead
      (exampleRequest [⟨0, 10⟩, ⟨7, 0⟩, ⟨10, 6⟩, ⟨32, 2⟩, ⟨34, 1⟩, ⟨7, 0⟩] 3
        3)
      (List.replicate 16 0) where
  counted := by decide
  readable := by decide
  lastWritable := ⟨4, by decide⟩
  mapped := by decide

/-- The same read in two buffers and in six. -/
theorem virtioBlkDoIoRequest_layout_on_example :
    let dev := virtioBlkInitOne freshQueue freshUsed
    let whole := exampleRequest [⟨0, 16⟩, ⟨32, 3⟩] 1 1
    let split :=
      exampleRequest
        [⟨0, 10⟩, ⟨7, 0⟩, ⟨10, 6⟩, ⟨32, 2⟩, ⟨34, 1⟩, ⟨7, 0⟩] 3 3
    Served failedRead dev (virtioBlkDoIoRequest failedRead dev whole)
        whole (.ofBytes (List.replicate 16 0)) ∧
      Served failedRead dev (virtioBlkDoIoRequest failedRead dev split)
        split (.ofBytes (List.replicate 16 0)) :=
  have both := virtioBlkDoIoRequest_layout exampleRequest_wellFormed
    exampleRequest_split_wellFormed (by decide)
    (virtioBlkInitOne freshQueue freshUsed)
  ⟨both.1, both.2.1⟩

end Kemu.Virtio.BlkLayout
