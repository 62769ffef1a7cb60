import Kemu.Lib.WrapIndex
import Mathlib.Logic.Function.Basic

/-!
# Virtqueues and their shared rings

`VirtQueue` is the device's private record of one queue; `RingMem` is the
content of the three ring areas it shares with the guest.  The two are kept
apart because the guest writes the second at any time, while the first
changes only by the functions of this module.

The conversions between guest and host byte order are the identity on the
hosts this is built for (`VIRTIO_RING_ENDIAN` is the host's own order), so
shared fields are read and written directly.
-/

namespace Kemu.Virtio.Ring

open Kemu.Lib.WrapIndex

/-! ## Shared memory -/

/-- `struct vring_desc`. -/
structure VringDesc where
  addr : UInt64
  len : UInt32
  flags : UInt16
  next : UInt16
deriving DecidableEq, Repr, Inhabited

/-- `VRING_DESC_F_NEXT`: the buffer continues via the `next` field. -/
def vringDescFNext : UInt16 := 1

/-- `VRING_DESC_F_WRITE`: the buffer is device-writable. -/
def vringDescFWrite : UInt16 := 2

/-- `VRING_DESC_F_INDIRECT`: the buffer holds a list of descriptors. -/
def vringDescFIndirect : UInt16 := 4

/-- `VRING_AVAIL_F_NO_INTERRUPT`. -/
def vringAvailFNoInterrupt : UInt16 := 1

/-- `struct vring_avail`; the entry behind the last one is `used_event`. -/
structure VringAvail where
  flags : UInt16
  idx : UInt16
  ring : Nat → UInt16

/-- `struct vring_used_elem`. -/
structure VringUsedElem where
  id : UInt32
  len : UInt32
deriving DecidableEq, Repr, Inhabited

/-- `struct vring_used`, with the `avail_event` word that ends the ring. -/
structure VringUsed where
  flags : UInt16
  idx : UInt16
  ring : Nat → VringUsedElem
  availEvent : UInt16

/-- The three areas of a split virtqueue as the guest laid them out. -/
structure RingMem where
  desc : Nat → VringDesc
  avail : VringAvail
  used : VringUsed

/-! ## The device's side -/

/-- A host address; zero is the null pointer. -/
abbrev HostPtr := Nat

/-- `struct vring`. -/
structure Vring where
  num : Nat
  desc : HostPtr
  avail : HostPtr
  used : HostPtr
deriving DecidableEq, Repr, Inhabited

/--
`struct vring_addr`.  The legacy fields share storage with the first three
words of the modern ones.
-/
structure VringAddr where
  legacy : Bool
  descLo : UInt32
  descHi : UInt32
  availLo : UInt32
  availHi : UInt32
  usedLo : UInt32
  usedHi : UInt32
deriving DecidableEq, Repr, Inhabited

namespace VringAddr

/-- The legacy page frame number overlays `desc_lo`. -/
def pfn (address : VringAddr) : UInt32 := address.descLo

/-- The legacy alignment overlays `desc_hi`. -/
def align (address : VringAddr) : UInt32 := address.descHi

/-- The legacy page size overlays `avail_lo`. -/
def pgsize (address : VringAddr) : UInt32 := address.availLo

/-- The legacy initialiser; the words it does not name are zero. -/
def ofLegacy (pfn align pgsize : UInt32) : VringAddr :=
  { legacy := true
    descLo := pfn
    descHi := align
    availLo := pgsize
    availHi := 0
    usedLo := 0
    usedHi := 0 }

end VringAddr

/-- `struct virt_queue`, without its back pointer and vhost bookkeeping. -/
structure VirtQueue where
  vring : Vring
  vringAddr : VringAddr
  lastAvailIdx : UInt16
  lastUsedSignalled : UInt16
  endian : UInt16
  useEventIdx : Bool
  enabled : Bool
deriving DecidableEq, Repr, Inhabited

/-- `vring_used_event`: the used index the guest wants an interrupt for. -/
def vringUsedEvent (queue : VirtQueue) (mem : RingMem) : UInt16 :=
  mem.avail.ring queue.vring.num

/-- `vring_need_event`, all in sixteen-bit arithmetic. -/
def vringNeedEvent (eventIdx newIdx old : UInt16) : Bool :=
  newIdx - eventIdx - 1 < newIdx - old

/-- `virt_queue__pop`. -/
def virtQueuePop (queue : VirtQueue) (mem : RingMem) :
    UInt16 × VirtQueue :=
  (mem.avail.ring (queue.lastAvailIdx.toNat % queue.vring.num),
    { queue with lastAvailIdx := queue.lastAvailIdx + 1 })

/--
The first half of `virt_queue__available`: with event indices negotiated,
announce the index up to which the device has taken entries.
-/
def virtQueuePublishAvailEvent (queue : VirtQueue) (mem : RingMem) :
    RingMem :=
  if queue.useEventIdx then
    { mem with used := { mem.used with availEvent := queue.lastAvailIdx } }
  else
    mem

/-- The second half of `virt_queue__available`: the comparison. -/
def virtQueueHasEntries (queue : VirtQueue) (mem : RingMem) : Bool :=
  mem.avail.idx != queue.lastAvailIdx

/-- `virt_queue__available`. -/
def virtQueueAvailable (queue : VirtQueue) (mem : RingMem) :
    Bool × RingMem :=
  if queue.vring.avail = 0 then
    (false, mem)
  else
    let published := virtQueuePublishAvailEvent queue mem
    (virtQueueHasEntries queue published, published)

/-- `virt_queue__used_idx_advance`. -/
def virtQueueUsedIdxAdvance (mem : RingMem) (jump : UInt16) : RingMem :=
  { mem with used := { mem.used with idx := mem.used.idx + jump } }

/-- `virt_queue__set_used_elem_no_update`. -/
def virtQueueSetUsedElemNoUpdate
    (queue : VirtQueue) (mem : RingMem)
    (head len : UInt32) (offset : UInt16) : RingMem :=
  let slot := (mem.used.idx + offset).toNat % queue.vring.num
  { mem with
    used :=
      { mem.used with
        ring := Function.update mem.used.ring slot ⟨head, len⟩ } }

/-- `virt_queue__set_used_elem`. -/
def virtQueueSetUsedElem
    (queue : VirtQueue) (mem : RingMem) (head len : UInt32) : RingMem :=
  virtQueueUsedIdxAdvance
    (virtQueueSetUsedElemNoUpdate queue mem head len 0) 1

/-- `virtio_queue__should_signal`. -/
def virtioQueueShouldSignal (queue : VirtQueue) (mem : RingMem) :
    Bool × VirtQueue :=
  if !queue.useEventIdx then
    (mem.avail.flags &&& vringAvailFNoInterrupt == 0, queue)
  else
    let oldIdx := queue.lastUsedSignalled
    let newIdx := mem.used.idx
    let eventIdx := vringUsedEvent queue mem
    if vringNeedEvent eventIdx newIdx oldIdx then
      (true, { queue with lastUsedSignalled := newIdx })
    else
      (false, queue)

/-! ## What the operations do to the shared indices -/

@[simp]
theorem virtQueueSetUsedElem_idx
    (queue : VirtQueue) (mem : RingMem) (head len : UInt32) :
    (virtQueueSetUsedElem queue mem head len).used.idx =
      mem.used.idx + 1 :=
  rfl

@[simp]
theorem virtQueueSetUsedElem_avail
    (queue : VirtQueue) (mem : RingMem) (head len : UInt32) :
    (virtQueueSetUsedElem queue mem head len).avail = mem.avail :=
  rfl

@[simp]
theorem virtQueueUsedIdxAdvance_idx (mem : RingMem) (jump : UInt16) :
    (virtQueueUsedIdxAdvance mem jump).used.idx = mem.used.idx + jump :=
  rfl

@[simp]
theorem virtQueueUsedIdxAdvance_avail (mem : RingMem) (jump : UInt16) :
    (virtQueueUsedIdxAdvance mem jump).avail = mem.avail :=
  rfl

@[simp]
theorem virtQueuePublishAvailEvent_avail
    (queue : VirtQueue) (mem : RingMem) :
    (virtQueuePublishAvailEvent queue mem).avail = mem.avail := by
  unfold virtQueuePublishAvailEvent
  split <;> rfl

/-- With event indices negotiated, only the event test decides. -/
theorem virtioQueueShouldSignal_of_eventIdx
    {queue : VirtQueue} (negotiated : queue.useEventIdx = true)
    (mem : RingMem) :
    virtioQueueShouldSignal queue mem =
      if vringNeedEvent (vringUsedEvent queue mem) mem.used.idx
          queue.lastUsedSignalled then
        (true, { queue with lastUsedSignalled := mem.used.idx })
      else
        (false, queue) := by
  simp [virtioQueueShouldSignal, negotiated]

/-! ## The event test in true counts -/

/--
The event test on stored indices is a comparison of two true distances, each
reduced modulo a full turn of the index.
-/
theorem vringNeedEvent_stamp
    {event old new : Nat} (eventBefore : event < new) (oldBefore : old ≤ new) :
    vringNeedEvent (stamp event) (stamp new) (stamp old) = true ↔
      (new - event - 1) % turn < (new - old) % turn := by
  have eventDistance :
      stamp new - stamp event - 1 = stamp (new - event - 1) := by
    apply UInt16.toNat_inj.mp
    rw [UInt16.toNat_sub, stamp_sub_toNat eventBefore.le, stamp_toNat]
    simp only [turn, UInt16.toNat_one]
    omega
  rw [vringNeedEvent, eventDistance]
  simp only [decide_eq_true_eq, UInt16.lt_iff_toNat_lt, stamp_toNat,
    stamp_sub_toNat oldBefore]

end Kemu.Virtio.Ring
