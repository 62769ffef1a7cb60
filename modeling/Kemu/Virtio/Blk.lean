import Kemu.Disk.Image
import Kemu.Lib.Transition
import Kemu.Virtio.DescChain

/-!
# The block device

`virtio_blk_do_io` takes requests off the available ring until it is empty;
`virtio_blk_do_io_request` parses one and hands it to the disk image, whose
callback `virtio_blk_complete` puts the used element on the ring.

Each turn of the loop is one step of a machine.  Its input is everything the
turn reads from outside: the descriptor tables, the available ring, guest
memory and the outcome of the host calls.  A turn that never returns, or that
leaves the memory it may touch, leaves the device stuck.
-/

namespace Kemu.Virtio.Blk

open Kemu.Disk.Image
open Kemu.Lib.Transition
open Kemu.Lib.Walk
open Kemu.Util.IoVector
open Kemu.Virtio.DescChain
open Kemu.Virtio.Ring

/-! ## The code -/

/-- `VIRTIO_BLK_QUEUE_SIZE`. -/
def virtioBlkQueueSize : Nat := 256

/-- `VIRTIO_BLK_T_IN`. -/
def virtioBlkTIn : UInt32 := 0

/-- `VIRTIO_BLK_T_OUT`. -/
def virtioBlkTOut : UInt32 := 1

/-- `VIRTIO_BLK_T_FLUSH`. -/
def virtioBlkTFlush : UInt32 := 4

/-- `VIRTIO_BLK_T_GET_ID`. -/
def virtioBlkTGetId : UInt32 := 8

/-- `VIRTIO_BLK_S_OK`. -/
def virtioBlkSOk : UInt8 := 0

/-- `VIRTIO_BLK_S_IOERR`. -/
def virtioBlkSIoErr : UInt8 := 1

/-- `struct virtio_blk_outhdr`. -/
structure VirtioBlkOuthdr where
  type : UInt32
  ioprio : UInt32
  sector : UInt64
deriving DecidableEq, Repr

/-- Bytes as a little-endian number. -/
def littleEndian (bytes : List UInt8) : Nat :=
  bytes.foldr (fun byte rest => byte.toNat + 256 * rest) 0

/-- The header in the sixteen bytes copied out of the chain. -/
def VirtioBlkOuthdr.ofBytes (bytes : List UInt8) : VirtioBlkOuthdr where
  type := .ofNat (littleEndian (bytes.take 4))
  ioprio := .ofNat (littleEndian ((bytes.drop 4).take 4))
  sector := .ofNat (littleEndian ((bytes.drop 8).take 8))

/-- A queue of the size `init_vq` gives the block device. -/
structure BlkQueue where
  queue : VirtQueue
  sized : queue.vring.num = virtioBlkQueueSize

/-- The same queue with other running indices. -/
def BlkQueue.move
    (blkQueue : BlkQueue) (queue : VirtQueue)
    (sameRing : queue.vring = blkQueue.queue.vring) : BlkQueue where
  queue := queue
  sized := by
    rw [sameRing]
    exact blkQueue.sized

/-- A used element together with the status byte written before it. -/
structure Completion where
  elem : VringUsedElem
  status : UInt8
  statusAt : HostPtr
deriving DecidableEq, Repr

/-- A call of `disk_image__read` or `disk_image__write`. -/
structure DiskCall where
  write : Bool
  sector : UInt64
  iov : List Iovec
deriving DecidableEq, Repr

/-- `struct blk_dev`, with a record of what went in and out. -/
structure BlkDev where
  vq : BlkQueue
  used : VringUsed
  disk : DiskImage
  popped : List UInt16
  completed : List Completion
  diskCalls : List DiskCall
  signals : Nat
  stuck : Bool

/-- What one turn of the loop reads from outside the device. -/
structure BlkEnv where
  desc : Nat → VringDesc
  avail : VringAvail
  view : GuestView
  hostMem : HostMem
  ops : DiskOps

/-- The shared rings during a turn. -/
def BlkEnv.ringMem (env : BlkEnv) (used : VringUsed) : RingMem where
  desc := env.desc
  avail := env.avail
  used := used

/-- `struct blk_dev_req`, without its back pointers. -/
structure BlkDevReq where
  iov : List Iovec
  out : UInt16
  «in» : UInt16
  head : UInt16
  status : HostPtr
deriving Repr

theorem virtioQueueShouldSignal_vring (queue : VirtQueue) (mem : RingMem) :
    (virtioQueueShouldSignal queue mem).2.vring = queue.vring := by
  rw [virtioQueueShouldSignal]
  split
  · rfl
  · simp only
    split <;> rfl

/-- `virtio_blk_complete`. -/
def virtioBlkComplete
    (env : BlkEnv) (dev : BlkDev) (req : BlkDevReq) (len : Int) : BlkDev :=
  if (env.hostMem req.status).isNone then
    { dev with stuck := true }
  else
    let elem : VringUsedElem := ⟨req.head.toUInt32, .ofInt len⟩
    let mem :=
      virtQueueSetUsedElem dev.vq.queue (env.ringMem dev.used)
        elem.id elem.len
    let signal := virtioQueueShouldSignal dev.vq.queue mem
    { dev with
      vq :=
        dev.vq.move signal.2
          (virtioQueueShouldSignal_vring dev.vq.queue mem)
      used := mem.used
      completed :=
        dev.completed ++
          [{ elem := elem
             status := if len < 0 then virtioBlkSIoErr else virtioBlkSOk
             statusAt := req.status }]
      signals := dev.signals + signal.1.toNat }

/--
Cutting the status byte off the end: the buffers that stay for the data and
the address of the byte.
-/
def extractStatus (iov : List Iovec) (iovcount : Nat) :
    List Iovec × HostPtr :=
  let last := lastIov iov (iovcount - 1)
  let entry := iov.getD last default
  let shorter : Iovec := { entry with len := entry.len - 1 }
  let iovcount := if shorter.len = 0 then iovcount - 1 else iovcount
  ((iov.set last shorter).take iovcount, entry.base + shorter.len)

/-- A call into the disk image, on record. -/
def BlkDev.logCall (dev : BlkDev) (call : DiskCall) : BlkDev :=
  { dev with diskCalls := dev.diskCalls ++ [call] }

/-- The completion, if the disk image calls back. -/
def BlkDev.callback
    (dev : BlkDev) (env : BlkEnv) (req : BlkDevReq) :
    Option Int → BlkDev
  | none => dev
  | some total => virtioBlkComplete env dev req total

/-- The `switch` over the request type. -/
def virtioBlkDispatch
    (env : BlkEnv) (dev : BlkDev) (req : BlkDevReq)
    (hdr : VirtioBlkOuthdr) (iov : List Iovec) : BlkDev :=
  if hdr.type = virtioBlkTIn then
    let dev := dev.logCall ⟨false, hdr.sector, iov⟩
    dev.callback env req (diskImageRead dev.disk env.ops).2
  else if hdr.type = virtioBlkTOut then
    let dev := dev.logCall ⟨true, hdr.sector, iov⟩
    dev.callback env req (diskImageWrite dev.disk env.ops).2
  else if hdr.type = virtioBlkTFlush then
    virtioBlkComplete env dev req (diskImageFlush env.ops)
  else if hdr.type = virtioBlkTGetId then
    match diskImageGetSerial env.ops env.hostMem iov with
    | none => { dev with stuck := true }
    | some len => virtioBlkComplete env dev req len
  else
    dev

/-- `virtio_blk_do_io_request`. -/
def virtioBlkDoIoRequest
    (env : BlkEnv) (dev : BlkDev) (req : BlkDevReq) : BlkDev :=
  let copy := memcpyFromiovecSafe env.hostMem req.iov 16 req.out.toNat
  match copy.buf.mapM id with
  | none => { dev with stuck := true }
  | some bytes =>
      if copy.remaining ≠ 0 then
        dev
      else
        let iovcount := copy.count + req.in.toNat
        if iovSize copy.iov iovcount = 0 then
          dev
        else
          let split := extractStatus copy.iov iovcount
          virtioBlkDispatch env dev { req with status := split.2 }
            (.ofBytes bytes) split.1

/--
One turn of the loop of `virtio_blk_do_io`.  A head beyond the queue has no
slot in `reqs`, and a chain longer than the queue overruns the slot's `iov`
array, so the walk is given just that many turns.
-/
def virtioBlkDoIo (dev : BlkDev) (env : BlkEnv) : BlkDev :=
  if dev.stuck then
    dev
  else
    let available :=
      virtQueueAvailable dev.vq.queue (env.ringMem dev.used)
    let dev := { dev with used := available.2.used }
    if !available.1 then
      dev
    else
      let taken := virtQueuePop dev.vq.queue (env.ringMem dev.used)
      let dev :=
        { dev with
          vq := dev.vq.move taken.2 rfl
          popped := dev.popped ++ [taken.1] }
      if taken.1.toNat ≥ virtioBlkQueueSize then
        { dev with stuck := true }
      else
        match
          virtQueueGetHeadIov virtioBlkQueueSize env.view dev.vq.queue
            (env.ringMem dev.used) taken.1 with
        | none => { dev with stuck := true }
        | some chain =>
            virtioBlkDoIoRequest env dev
              { iov := chain.iov
                out := chain.out
                «in» := chain.in
                head := taken.1
                status := 0 }

/--
The device after `virtio_blk__init_one` and `init_vq`: the disk record was
cleared when it was allocated and has the completion callback set.
-/
def virtioBlkInitOne (vq : BlkQueue) (used : VringUsed) : BlkDev where
  vq := vq
  used := used
  disk := { async := false, diskReqCb := true }
  popped := []
  completed := []
  diskCalls := []
  signals := 0
  stuck := false

/-! ## What a request must be -/

/-- The heads completed so far, as the used ring names them. -/
def BlkDev.completedHeads (dev : BlkDev) : List UInt32 :=
  dev.completed.map fun completion => completion.elem.id

/-- The heads taken so far. -/
def BlkDev.poppedHeads (dev : BlkDev) : List UInt32 :=
  dev.popped.map UInt16.toUInt32

/--
The request types that are answered: a transfer the disk does not fail, a
flush, and a serial number that fits only into mapped cells.
-/
inductive Answered
    (ops : DiskOps) (data : List (Option UInt8)) : UInt32 → Prop where
  | «in»
      (succeeds : ∀ total ∈ ops.read, 0 ≤ total) :
      Answered ops data virtioBlkTIn
  | out
      (succeeds : ∀ total ∈ ops.write, 0 ≤ total) :
      Answered ops data virtioBlkTOut
  | flush : Answered ops data virtioBlkTFlush
  | getId
      (mapped :
        ∀ stat, ops.fstat = .ok stat → ops.malloc = true →
          stat.serial.length ≤ data.length →
            (data.take stat.serial.length).all Option.isSome = true) :
      Answered ops data virtioBlkTGetId

/--
A well-formed request: the readable buffers hold a header, at least one more
byte follows, header and last byte are mapped, and the type is answered.
-/
structure Servable (env : BlkEnv) (chain : HeadIov) : Prop where
  readable : 16 ≤ iovSize chain.iov chain.out.toNat
  room : 16 < (gather env.hostMem chain.iov).length
  answered :
    ∃ header status,
      (gather env.hostMem chain.iov).take 16 = header.map some ∧
        (gather env.hostMem chain.iov).getLast? = some (some status) ∧
        Answered env.ops
          ((gather env.hostMem chain.iov).drop 16).dropLast
          (VirtioBlkOuthdr.ofBytes header).type

/-- The start and the links of the walk behind a head. -/
def chainWalk
    (view : GuestView) (queue : VirtQueue) (mem : RingMem)
    (head : UInt16) : Nat × (Nat → Option Nat) :=
  let first := mem.desc head.toNat
  if virtDescTestFlag first vringDescFIndirect then
    (0,
      clampedLink (view.descAt (view.guestFlatToHost first.addr))
        (indirectSize first.len % 65536))
  else
    (head.toNat, clampedLink mem.desc (queue.vring.num % 65536))

/-- No cycle behind the head, and no more descriptors than `iov` holds. -/
def ChainFits
    (view : GuestView) (queue : VirtQueue) (mem : RingMem)
    (head : UInt16) : Prop :=
  let (start, link) := chainWalk view queue mem head
  Acyclic link start ∧ (visited link start).ncard ≤ virtioBlkQueueSize

/--
The turn leaves nothing behind: the ring is empty, or the head taken lies in
the queue, its chain fits and it holds a well-formed request.
-/
def Completes (dev : BlkDev) (env : BlkEnv) : Prop :=
  let mem := env.ringMem dev.used
  (virtQueueAvailable dev.vq.queue mem).1 = true →
    let head := (virtQueuePop dev.vq.queue mem).1
    head.toNat < virtioBlkQueueSize ∧
      ChainFits env.view dev.vq.queue mem head ∧
      ∀ chain,
        virtQueueGetHeadIov virtioBlkQueueSize env.view dev.vq.queue mem
            head = some chain →
          Servable env chain

/-! ## The walk -/

theorem virtQueueGetHeadIov_eq_walk
    (fuel : Nat) (view : GuestView) (queue : VirtQueue) (mem : RingMem)
    (head : UInt16) :
    ∃ desc size reads,
      virtQueueGetHeadIov fuel view queue mem head =
        (walk (chainWalk view queue mem head).2 fuel
            (chainWalk view queue mem head).1).map
          (List.foldl (HeadIov.grab view desc size)
            { iov := [], out := 0, «in» := 0, reads := reads }) := by
  rw [virtQueueGetHeadIov, chainWalk]
  split
  all_goals
    simp only [headIovLoop_eq_walk]
    exact ⟨_, _, _, rfl⟩

theorem chainWalk_visited_finite
    (view : GuestView) (queue : VirtQueue) (mem : RingMem)
    (head : UInt16) :
    (visited (chainWalk view queue mem head).2
      (chainWalk view queue mem head).1).Finite := by
  have bounded (desc : Nat → VringDesc) (max start : Nat) :
      (visited (clampedLink desc max) start).Finite := by
    have inside :
        visited (clampedLink desc max) start ⊆
          Set.Iio (start + max + 1) := by
      refine visited_subset (Set.mem_Iio.2 (by omega)) ?_
      intro source target link
      have below := clampedLink_lt link
      exact Set.mem_Iio.2 (by omega)
    exact (finite_of_subset_Iio inside).1
  rw [chainWalk]
  split
  all_goals exact bounded _ _ _

/-- The walk comes back with a filled array exactly when the chain fits. -/
theorem exists_chain_iff
    (view : GuestView) (queue : VirtQueue) (mem : RingMem)
    (head : UInt16) :
    (∃ chain,
        virtQueueGetHeadIov virtioBlkQueueSize view queue mem head =
          some chain) ↔
      ChainFits view queue mem head := by
  rcases virtQueueGetHeadIov_eq_walk virtioBlkQueueSize view queue mem head
    with ⟨desc, size, reads, walked⟩
  rw [walked, ChainFits]
  simp only [Option.map_eq_some_iff]
  constructor
  · rintro ⟨_, nodes, ended, _⟩
    refine ⟨acyclic_of_walk ended, ?_⟩
    rw [walk_length_eq_ncard ended]
    exact walk_length_le ended
  · rintro ⟨acyclic, fits⟩
    rcases exists_walk_of_acyclic acyclic
        (chainWalk_visited_finite view queue mem head) fits with
      ⟨nodes, ended⟩
    exact ⟨_, nodes, ended, rfl⟩

/-- Every descriptor of a chain that fits is counted once. -/
theorem chain_counts
    {view : GuestView} {queue : VirtQueue} {mem : RingMem}
    {head : UInt16} {chain : HeadIov}
    (walked :
      virtQueueGetHeadIov virtioBlkQueueSize view queue mem head =
        some chain) :
    chain.iov.length = chain.out.toNat + chain.in.toNat := by
  have counts (desc : Nat → VringDesc) (size : Nat)
      (nodes : List Nat) (grabbed : HeadIov)
      (small :
        grabbed.out.toNat + grabbed.in.toNat + nodes.length < 65536)
      (counted :
        grabbed.iov.length = grabbed.out.toNat + grabbed.in.toNat) :
      let after := nodes.foldl (HeadIov.grab view desc size) grabbed
      after.iov.length = after.out.toNat + after.in.toNat := by
    induction nodes generalizing grabbed with
    | nil => exact counted
    | cons node rest induction =>
        rw [List.length_cons] at small
        have one :
            (grabbed.grab view desc size node).out.toNat +
                (grabbed.grab view desc size node).in.toNat =
              grabbed.out.toNat + grabbed.in.toNat + 1 := by
          simp only [HeadIov.grab]
          split <;>
            simp only [UInt16.toNat_add, UInt16.toNat_one] <;> omega
        apply induction
        · omega
        · rw [one, ← counted]
          simp [HeadIov.grab]
  rcases virtQueueGetHeadIov_eq_walk virtioBlkQueueSize view queue mem head
    with ⟨desc, size, reads, eqWalk⟩
  rw [eqWalk, Option.map_eq_some_iff] at walked
  rcases walked with ⟨nodes, ended, rfl⟩
  have short := walk_length_le ended
  rw [virtioBlkQueueSize] at short
  refine counts desc size nodes _ ?_ rfl
  simp only [UInt16.toNat_zero]
  omega

/-! ## One request -/

/--
What handling a request does to the record: it completes the head once if
`served` holds, and not at all otherwise.
-/
structure Handled
    (dev after : BlkDev) (head : UInt16) (served : Prop) : Prop where
  popped : after.popped = dev.popped
  disk : after.disk = dev.disk
  finished :
    served →
      after.stuck = dev.stuck ∧
        after.completedHeads = dev.completedHeads ++ [head.toUInt32]
  dropped : ¬ served → after.completedHeads = dev.completedHeads

namespace Handled

variable {env : BlkEnv} {dev after : BlkDev} {head : UInt16}

theorem congr {served other : Prop} (same : served ↔ other)
    (handled : Handled dev after head served) :
    Handled dev after head other := by
  rwa [← propext same]

theorem unchanged {served : Prop} (never : ¬ served) :
    Handled dev dev head served where
  popped := rfl
  disk := rfl
  finished holds := absurd holds never
  dropped _ := rfl

theorem getsStuck {served : Prop} (never : ¬ served) :
    Handled dev { dev with stuck := true } head served where
  popped := rfl
  disk := rfl
  finished holds := absurd holds never
  dropped _ := rfl

end Handled

section Request

variable (env : BlkEnv) (dev : BlkDev) (req : BlkDevReq)

theorem virtioBlkComplete_handled (len : Int) :
    Handled dev (virtioBlkComplete env dev req len) req.head
      ((env.hostMem req.status).isSome = true) := by
  rw [virtioBlkComplete]
  split
  case isTrue unmapped =>
    apply Handled.getsStuck
    simpa using unmapped
  case isFalse mapped =>
    refine { popped := rfl, disk := rfl, finished := ?_, dropped := ?_ }
    · intro _
      refine ⟨rfl, ?_⟩
      simp [BlkDev.completedHeads]
    · intro unmapped
      simp at mapped
      simp [mapped] at unmapped

theorem callback_handled
    (sync : dev.disk.async = false) (hooked : dev.disk.diskReqCb = true)
    (call : DiskCall) (op : Option Int) :
    Handled dev
      ((dev.logCall call).callback env req
        (diskImageTransfer dev.disk op).2)
      req.head
      ((env.hostMem req.status).isSome = true ∧
        ∀ total ∈ op, 0 ≤ total) := by
  rw [diskImageTransfer_callback sync hooked]
  split
  case isTrue failed =>
    refine { popped := rfl, disk := rfl, finished := ?_, dropped := ?_ }
    · rintro ⟨_, succeeds⟩
      rcases failed with ⟨total, result, negative⟩
      have nonnegative := succeeds total result
      omega
    · intro _
      rfl
  case isFalse succeeded =>
    have done :=
      virtioBlkComplete_handled env (dev.logCall call) req (op.getD 0)
    refine
      { popped := done.popped
        disk := done.disk
        finished := fun served => done.finished served.1
        dropped := fun notServed => done.dropped ?_ }
    intro mapped
    apply notServed
    refine ⟨mapped, ?_⟩
    intro total result
    by_contra negative
    exact succeeded ⟨total, result, by omega⟩

/-- The status byte is the last one, and the data the ones before it. -/
theorem extractStatus_spec (mem : HostMem) (iov : List Iovec) (last : Nat)
    (within : last < iov.length)
    (bytes : gather mem (iov.take (last + 1)) ≠ []) :
    gather mem (extractStatus iov (last + 1)).1 =
        (gather mem (iov.take (last + 1))).dropLast ∧
      (gather mem (iov.take (last + 1))).getLast? =
        some (mem (extractStatus iov (last + 1)).2) := by
  rcases lastIov_split mem iov last within bytes with
    ⟨tail, split, emptyTail, holds, bound⟩
  rw [extractStatus]
  simp only [Nat.add_sub_cancel]
  generalize index : lastIov iov last = stop at *
  generalize iov.getD stop default = entry at *
  obtain ⟨short, long⟩ : ∃ short, entry.len = short + 1 :=
    Nat.exists_eq_succ_of_ne_zero holds
  have front : (iov.take stop).length = stop := by
    rw [List.length_take]
    omega
  have cut :
      (iov.set stop ⟨entry.base, short⟩).take (last + 1) =
        iov.take stop ++ ⟨entry.base, short⟩ :: tail := by
    rw [List.take_set, split, List.set_append_right _ _ (by omega), front,
      Nat.sub_self, List.set_cons_zero]
  have whole :
      gather mem (iov.take (last + 1)) =
        gather mem (iov.take stop) ++
          (readMem mem entry.base short ++ [mem (entry.base + short)]) := by
    rw [split, gather_append, gather_cons, gather_of_empty mem emptyTail,
      long, List.append_nil]
    simp [readMem, List.range_succ]
  rw [whole, ← List.append_assoc, List.dropLast_concat, List.getLast?_concat]
  simp only [long, Nat.add_sub_cancel]
  refine ⟨?_, trivial⟩
  split
  case isTrue none =>
    subst none
    let empty : List Iovec := ⟨entry.base, 0⟩ :: tail
    have remaining :
        (iov.set stop ⟨entry.base, 0⟩).take last =
          iov.take stop ++ empty.dropLast := by
      rw [← List.dropLast_append_of_ne_nil (List.cons_ne_nil _ _), ← cut,
        List.dropLast_eq_take, List.length_take, List.take_take,
        List.length_set]
      congr 1
      omega
    have nothing : gather mem empty.dropLast = [] := by
      apply gather_of_empty
      intro kept member
      rcases List.mem_cons.1 (List.mem_of_mem_dropLast member) with
        rfl | inTail
      · rfl
      · exact emptyTail kept inTail
    rw [remaining, gather_append, nothing]
    rfl
  case isFalse some =>
    rw [cut, gather_append, gather_cons, gather_of_empty mem emptyTail,
      List.append_nil]

theorem virtioBlkDispatch_handled
    (sync : dev.disk.async = false) (hooked : dev.disk.diskReqCb = true)
    (hdr : VirtioBlkOuthdr) (iov : List Iovec) :
    Handled dev (virtioBlkDispatch env dev req hdr iov) req.head
      ((env.hostMem req.status).isSome = true ∧
        Answered env.ops (gather env.hostMem iov) hdr.type) := by
  rw [virtioBlkDispatch]
  split
  case isTrue isIn =>
    refine (callback_handled env dev req sync hooked _ env.ops.read).congr ?_
    rw [isIn]
    refine and_congr_right fun _ => ⟨.in, ?_⟩
    rintro (⟨succeeds⟩ | _ | _ | _)
    exact succeeds
  split
  case isTrue isOut =>
    refine
      (callback_handled env dev req sync hooked _ env.ops.write).congr ?_
    rw [isOut]
    refine and_congr_right fun _ => ⟨.out, ?_⟩
    rintro (_ | ⟨succeeds⟩ | _ | _)
    exact succeeds
  split
  case isTrue isFlush =>
    refine (virtioBlkComplete_handled env dev req _).congr ?_
    rw [isFlush]
    exact ⟨fun mapped => ⟨mapped, .flush⟩, And.left⟩
  split
  case isTrue isGetId =>
    have serial :=
      diskImageGetSerial_isSome_iff env.ops env.hostMem iov
    rw [isGetId]
    cases copied : diskImageGetSerial env.ops env.hostMem iov with
    | none =>
        apply Handled.getsStuck
        rintro ⟨_, _ | _ | _ | ⟨mapped⟩⟩
        rw [copied] at serial
        simpa using serial.2 mapped
    | some len =>
        refine (virtioBlkComplete_handled env dev req len).congr ?_
        rw [copied] at serial
        exact ⟨fun mapped => ⟨mapped, .getId (serial.1 rfl)⟩, And.left⟩
  case isFalse notIn notOut notFlush notGetId =>
    apply Handled.unchanged
    rintro ⟨_, answered⟩
    generalize hdr.type = type at *
    cases answered with
    | «in» _ => exact notIn rfl
    | out _ => exact notOut rfl
    | flush => exact notFlush rfl
    | getId _ => exact notGetId rfl

theorem mapM_id_eq_some_iff {cells : List (Option UInt8)}
    {bytes : List UInt8} :
    cells.mapM id = some bytes ↔ cells = bytes.map some := by
  induction cells generalizing bytes with
  | nil => cases bytes <;> simp
  | cons cell rest induction =>
      rw [List.mapM_cons]
      cases cell with
      | none => cases bytes <;> simp
      | some byte =>
          cases bytes with
          | nil =>
              cases rest.mapM id <;> simp
          | cons first others =>
              rw [List.map_cons, List.cons.injEq, ← induction]
              cases rest.mapM id <;> simp

/-- The header is read off the front of the whole chain. -/
theorem header_cells {mem : HostMem} {iov : List Iovec} {out : Nat}
    (readable : 16 ≤ iovSize iov out) :
    (gather mem (iov.take out)).take 16 = (gather mem iov).take 16 := by
  have long : 16 ≤ (gather mem (iov.take out)).length := by
    rwa [gather_take_length]
  conv_rhs => rw [← List.take_append_drop out iov, gather_append]
  rw [List.take_append_of_le_length long]

theorem virtioBlkDoIoRequest_handled
    (sync : dev.disk.async = false) (hooked : dev.disk.diskReqCb = true)
    (chain : HeadIov) (head : UInt16)
    (counted : chain.iov.length = chain.out.toNat + chain.in.toNat) :
    Handled dev
      (virtioBlkDoIoRequest env dev
        { iov := chain.iov
          out := chain.out
          «in» := chain.in
          head := head
          status := 0 })
      head (Servable env chain) := by
  have within : chain.out.toNat ≤ chain.iov.length := by omega
  rw [virtioBlkDoIoRequest]
  simp only [memcpyFromiovecSafe_buf,
    memcpyFromiovecSafe_remaining env.hostMem chain.iov 16 _ within]
  have kept :=
    memcpyFromiovecSafe_gather env.hostMem chain.iov 16 chain.out.toNat
      chain.in.toNat within
  have lengths :=
    memcpyFromiovecSafe_length env.hostMem chain.iov 16 chain.out.toNat
  generalize
    memcpyFromiovecSafe env.hostMem chain.iov 16 chain.out.toNat = copy at *
  cases copied :
      ((gather env.hostMem (chain.iov.take chain.out.toNat)).take 16).mapM
        id with
  | none =>
      apply Handled.getsStuck
      rintro ⟨readable, _, header, _, mapped, _⟩
      rw [header_cells readable, mapM_id_eq_some_iff.2 mapped]
        at copied
      cases copied
  | some front =>
      simp only
      split
      case isTrue short =>
        apply Handled.unchanged
        rintro ⟨readable, _, _⟩
        omega
      case isFalse enough =>
        have readable : 16 ≤ iovSize chain.iov chain.out.toNat := by omega
        rw [mapM_id_eq_some_iff, header_cells readable] at copied
        rw [Nat.min_eq_left readable, ← counted, List.take_length] at kept
        have size :
            iovSize copy.iov (copy.count + chain.in.toNat) =
              (gather env.hostMem chain.iov).length - 16 := by
          rw [← List.length_drop, ← kept, gather_take_length]
        rw [size]
        split
        case isTrue empty =>
          apply Handled.unchanged
          rintro ⟨_, room, _⟩
          omega
        case isFalse some =>
          have room : 16 < (gather env.hostMem chain.iov).length := by omega
          obtain ⟨last, count⟩ :
              ∃ last, copy.count + chain.in.toNat = last + 1 := by
            apply Nat.exists_eq_succ_of_ne_zero
            intro zero
            rw [zero, iovSize_zero] at size
            omega
          rw [count] at kept ⊢
          have bytes :
              gather env.hostMem (copy.iov.take (last + 1)) ≠ [] := by
            rw [kept, ← List.length_pos_iff, List.length_drop]
            omega
          have status :=
            extractStatus_spec env.hostMem copy.iov last (by omega) bytes
          rw [kept, List.getLast?_drop, if_neg (by omega)] at status
          refine
            (virtioBlkDispatch_handled env dev _ sync hooked _ _).congr ?_
          simp only
          rw [status.1]
          constructor
          · rintro ⟨mapped, answered⟩
            rcases Option.isSome_iff_exists.1 mapped with ⟨byte, cell⟩
            refine ⟨readable, room, front, byte, copied, ?_, answered⟩
            rw [status.2, cell]
          · rintro ⟨_, _, header, byte, mapped, cell, answered⟩
            rw [status.2, Option.some.injEq] at cell
            have same : header = front := by
              rw [copied] at mapped
              exact (List.map_injective_iff.2 (Option.some_injective _)
                mapped).symm
            rw [cell, ← same]
            exact ⟨rfl, answered⟩

end Request

/-! ## One turn -/

/-- The image calls back by itself, and `virtio_blk_complete` is its hook. -/
structure Wired (dev : BlkDev) : Prop where
  sync : dev.disk.async = false
  hooked : dev.disk.diskReqCb = true

/--
What a turn adds to the record: the same heads on both sides if it
completes, and one popped head too many otherwise.
-/
inductive Turn (dev after : BlkDev) : Prop → Prop where
  | balanced {completes : Prop} (heads : List UInt32)
      (holds : completes)
      (running : after.stuck = false)
      (popped : after.poppedHeads = dev.poppedHeads ++ heads)
      (completed : after.completedHeads = dev.completedHeads ++ heads) :
      Turn dev after completes
  | lost {completes : Prop} (head : UInt32)
      (fails : ¬ completes)
      (popped : after.poppedHeads = dev.poppedHeads ++ [head])
      (completed : after.completedHeads = dev.completedHeads) :
      Turn dev after completes

theorem virtioBlkDoIo_turn
    {dev : BlkDev} (running : dev.stuck = false) (wired : Wired dev)
    (env : BlkEnv) :
    Turn dev (virtioBlkDoIo dev env) (Completes dev env) ∧
      Wired (virtioBlkDoIo dev env) := by
  rw [virtioBlkDoIo, if_neg (by simp [running]), Completes]
  simp only
  split
  case isTrue idle =>
    have nothing :
        (virtQueueAvailable dev.vq.queue (env.ringMem dev.used)).1 = false :=
      by simpa using idle
    refine ⟨.balanced [] ?_ running ?_ ?_, wired.sync, wired.hooked⟩
    · simp [nothing]
    · exact (List.append_nil _).symm
    · exact (List.append_nil _).symm
  case isFalse busy =>
    have available :
        (virtQueueAvailable dev.vq.queue (env.ringMem dev.used)).1 = true :=
      by simpa using busy
    rw [forall_prop_of_true available]
    let head := (virtQueuePop dev.vq.queue (env.ringMem dev.used)).1
    have onePopped :
        (dev.popped ++ [head]).map UInt16.toUInt32 =
          dev.poppedHeads ++ [head.toUInt32] := by
      simp [BlkDev.poppedHeads]
    split
    case isTrue beyond =>
      refine ⟨.lost head.toUInt32 ?_ onePopped rfl, wired.sync, wired.hooked⟩
      intro completes
      exact absurd completes.1 (Nat.not_lt.2 beyond)
    case isFalse inside =>
      have below : head.toNat < virtioBlkQueueSize := Nat.not_le.1 inside
      have fits :=
        exists_chain_iff env.view dev.vq.queue (env.ringMem dev.used) head
      split
      case h_1 walked =>
        refine
          ⟨.lost head.toUInt32 ?_ onePopped rfl, wired.sync, wired.hooked⟩
        rintro ⟨_, chainFits, _⟩
        rcases fits.2 chainFits with ⟨chain, found⟩
        cases walked.symm.trans found
      case h_2 chain walked =>
        have chainFits := fits.1 ⟨chain, walked⟩
        have handled :=
          virtioBlkDoIoRequest_handled env
            { dev with
              vq :=
                dev.vq.move
                  (virtQueuePop dev.vq.queue (env.ringMem dev.used)).2 rfl
              used :=
                (virtQueueAvailable dev.vq.queue
                  (env.ringMem dev.used)).2.used
              popped := dev.popped ++ [head] }
            wired.sync wired.hooked chain head (chain_counts walked)
        have popped :=
          (congrArg (List.map UInt16.toUInt32) handled.popped).trans
            onePopped
        refine
          ⟨?_, (congrArg DiskImage.async handled.disk).trans wired.sync,
            (congrArg DiskImage.diskReqCb handled.disk).trans wired.hooked⟩
        by_cases servable : Servable env chain
        · have finished := handled.finished servable
          refine
            .balanced [head.toUInt32] ⟨below, chainFits, ?_⟩
              (finished.1.trans running) popped finished.2
          intro other found
          cases walked.symm.trans found
          exact servable
        · refine .lost head.toUInt32 ?_ popped (handled.dropped servable)
          rintro ⟨_, _, all⟩
          exact servable (all chain walked)

/-! ## Whole runs -/

/-- A head was left behind. -/
structure Deficit (dev : BlkDev) : Prop where
  wired : Wired dev
  short : dev.completedHeads.length < dev.poppedHeads.length

/-- A head that was left behind is never made up for. -/
theorem Deficit.run {dev : BlkDev} (deficit : Deficit dev)
    (envs : List BlkEnv) :
    Deficit (run virtioBlkDoIo dev envs) := by
  refine run_invariant_of_step ?_ deficit envs
  rintro dev env ⟨wired, short⟩
  by_cases running : dev.stuck = false
  · rcases virtioBlkDoIo_turn running wired env with
      ⟨⟨heads, _, _, popped, completed⟩ | ⟨head, _, popped, completed⟩,
        wiredAfter⟩
    · refine ⟨wiredAfter, ?_⟩
      rw [popped, completed, List.length_append, List.length_append]
      omega
    · refine ⟨wiredAfter, ?_⟩
      rw [popped, completed, List.length_append]
      omega
  · rw [virtioBlkDoIo, if_pos (by simpa using running)]
    exact ⟨wired, short⟩

theorem balanced_run_iff
    {dev : BlkDev} (running : dev.stuck = false) (wired : Wired dev)
    (balanced : dev.completedHeads = dev.poppedHeads)
    (envs : List BlkEnv) :
    let after := run virtioBlkDoIo dev envs
    after.completedHeads.Perm after.poppedHeads ↔
      Along virtioBlkDoIo Completes dev envs := by
  induction envs generalizing dev with
  | nil => simp [balanced]
  | cons env rest induction =>
      rw [along_cons]
      simp only [run_cons]
      rcases virtioBlkDoIo_turn running wired env with
        ⟨⟨heads, holds, running, popped, completed⟩ |
            ⟨head, fails, popped, completed⟩,
          wiredAfter⟩
      · rw [and_iff_right holds]
        refine induction running wiredAfter ?_
        rw [popped, completed, balanced]
      · have short :
            (virtioBlkDoIo dev env).completedHeads.length <
              (virtioBlkDoIo dev env).poppedHeads.length := by
          rw [popped, completed, balanced, List.length_append]
          exact Nat.lt_succ_self _
        have missing := (Deficit.mk wiredAfter short).run rest
        constructor
        · intro perm
          exact absurd perm.length_eq (Nat.ne_of_lt missing.short)
        · rintro ⟨holds, _⟩
          exact absurd holds fails

/--
Every popped head has exactly one used element, for every sequence of
requests and host outcomes, exactly when every turn completes: its chain
fits the request slot, it holds a header and a status byte in mapped memory,
and its type is one the device answers with a transfer the disk did not fail.
-/
theorem completed_exactly_once_iff
    (vq : BlkQueue) (used : VringUsed) (envs : List BlkEnv) :
    let after := run virtioBlkDoIo (virtioBlkInitOne vq used) envs
    after.completedHeads.Perm after.poppedHeads ↔
      Along virtioBlkDoIo Completes (virtioBlkInitOne vq used) envs :=
  balanced_run_iff rfl ⟨rfl, rfl⟩ rfl envs

/-- A queue of the device with all running indices at zero. -/
def freshQueue : BlkQueue where
  queue :=
    { vring := { num := 256, desc := 1, avail := 1, used := 1 }
      vringAddr := default
      lastAvailIdx := 0
      lastUsedSignalled := 0
      endian := 0
      useEventIdx := false
      enabled := true }
  sized := rfl

/-- A used ring nothing has been put on. -/
def freshUsed : VringUsed where
  flags := 0
  idx := 0
  ring _ := default
  availEvent := 0

/-- A well-formed read of sector zero that the disk fails. -/
def failedRead : BlkEnv where
  desc index :=
    if index = 0 then
      { addr := 4096, len := 16, flags := 1, next := 1 }
    else
      { addr := 8192, len := 513, flags := 2, next := 0 }
  avail := { flags := 0, idx := 1, ring := fun _ => 0 }
  view :=
    { guestFlatToHost := UInt64.toNat, descAt := fun _ _ => default }
  hostMem _ := some 0
  ops :=
    { read := some (-1)
      write := none
      flush := none
      fsync := 0
      fstat := .error (-1)
      malloc := true }

/-- The head of a read the disk fails is popped and never completed. -/
theorem failedRead_not_completed :
    let after :=
      run virtioBlkDoIo (virtioBlkInitOne freshQueue freshUsed) [failedRead]
    ¬ after.completedHeads.Perm after.poppedHeads := by
  intro after perm
  have popped : after.poppedHeads = [0] := by rfl
  have completed : after.completedHeads = [] := by rfl
  rw [popped, completed] at perm
  exact absurd perm.length_eq (by decide)

end Kemu.Virtio.Blk
