import Kemu.Virtio.Ring

/-!
# The device behind every transport

`struct virtio_device` with the life cycle of its queues: a queue record is
written by the transport, set up by `virtio_init_device_vq` and wiped by
`virtio_exit_vq`.  The feature word and the status word are kept here too,
and the transports reach them through `virtio_set_guest_features` and
`virtio_notify_status` only.

What a transport adds is the type parameter `Virtio`, the target of the
`virtio` pointer.
-/

namespace Kemu.Virtio.Core

open Kemu.Virtio.Ring

/-! ## Records -/

/--
`struct virtio_device` and the queue records of the device it belongs to.
`strayed` says that a record outside the device's array was accessed; from
then on the memory of the process is not known.
-/
structure VirtioDevice (Virtio : Type) where
  legacy : Bool
  endian : UInt16
  features : UInt64
  status : UInt32
  queues : Nat → VirtQueue
  strayed : Bool
  virtio : Virtio

/-- `VIRTIO_PCI_MAX_VQ` and `VIRTIO_MMIO_MAX_VQ`. -/
def virtioMaxVq : Nat := 32

/--
What a device type answers through `struct virtio_ops`, with the guest's
memory map (`guest_flat_to_host`).  Every device type has a queue, and none
has more than a transport's arrays have room for.
-/
structure VirtioOps where
  vqCount : Nat
  queueSize : Nat
  guestFlatToHost : UInt64 → HostPtr
  vqCount_pos : 0 < vqCount
  vqCount_le : vqCount ≤ virtioMaxVq

/-- The content of a queue record after `calloc` or `memset`. -/
def zeroQueue : VirtQueue :=
  { vring := ⟨0, 0, 0, 0⟩
    vringAddr := ⟨false, 0, 0, 0, 0, 0, 0⟩
    lastAvailIdx := 0
    lastUsedSignalled := 0
    endian := 0
    useEventIdx := false
    enabled := false }

/-- `VIRTIO_RING_F_EVENT_IDX`. -/
def virtioRingFEventIdx : UInt64 := 29

/-- `VIRTIO_CONFIG_S_DRIVER_OK`. -/
def virtioConfigSDriverOk : UInt8 := 4

/-- `VIRTIO_CONFIG_S_MASK`: the status bits the driver owns. -/
def virtioConfigSMask : UInt32 := 1 ||| 2 ||| 4 ||| 8 ||| 0x40 ||| 0x80

/-- `VIRTIO__STATUS_START`: the device is running. -/
def virtioStatusStart : UInt32 := (1 : UInt32) <<< 8

/-- `VIRTIO__STATUS_STOP`: a hint for the device to stop. -/
def virtioStatusStop : UInt32 := (1 : UInt32) <<< 9

/-- `VIRTIO__STATUS_CONFIG`: a hint to initialise the configuration. -/
def virtioStatusConfig : UInt32 := (1 : UInt32) <<< 10

variable {Virtio : Type}

/-! ## Queues -/

/-- An assignment through the pointer returned by `get_vq`. -/
def modifyVq
    (ops : VirtioOps) (device : VirtioDevice Virtio) (vq : Nat)
    (change : VirtQueue → VirtQueue) : VirtioDevice Virtio :=
  if vq < ops.vqCount then
    { device with
      queues :=
        Function.update device.queues vq (change (device.queues vq)) }
  else
    { device with strayed := true }

/--
`vring_init`: the available ring follows the descriptors, the used ring the
next multiple of the alignment behind the available ring.
-/
def vringInit (num : Nat) (start : HostPtr) (align : UInt64) : Vring :=
  let avail := start + 16 * num
  let ringEnd := UInt64.ofNat (avail + 4 + 2 * num)
  { num := num
    desc := start
    avail := avail
    used := ((ringEnd + 2 + align - 1) &&& ~~~(align - 1)).toNat }

/-- Two words of a queue address. -/
def wideAddr (high low : UInt32) : UInt64 :=
  high.toUInt64 <<< 32 ||| low.toUInt64

/-- The rings that `virtio_init_device_vq` computes from an address. -/
def vringAt (ops : VirtioOps) (address : VringAddr) : Vring :=
  if address.legacy then
    vringInit ops.queueSize
      (ops.guestFlatToHost
        (address.pfn.toUInt64 * address.pgsize.toUInt64))
      address.align.toUInt64
  else
    { num := ops.queueSize
      desc :=
        ops.guestFlatToHost (wideAddr address.descHi address.descLo)
      avail :=
        ops.guestFlatToHost (wideAddr address.availHi address.availLo)
      used :=
        ops.guestFlatToHost (wideAddr address.usedHi address.usedLo) }

/-- `virtio_init_device_vq`, the part common to every `init_vq`. -/
def virtioInitDeviceVq
    (ops : VirtioOps) (device : VirtioDevice Virtio) (vq : Nat) :
    VirtioDevice Virtio :=
  modifyVq ops device vq fun queue =>
    { queue with
      endian := device.endian
      useEventIdx :=
        device.features &&& (1 <<< virtioRingFEventIdx) != 0
      enabled := true
      vring := vringAt ops queue.vringAddr }

/-- `virtio_exit_vq`. -/
def virtioExitVq
    (ops : VirtioOps) (device : VirtioDevice Virtio) (vq : Nat) :
    VirtioDevice Virtio :=
  modifyVq ops device vq fun _ => zeroQueue

/-! ## Features and status -/

/-- `virtio_set_guest_features`. -/
def virtioSetGuestFeatures
    (device : VirtioDevice Virtio) (features : UInt64) :
    VirtioDevice Virtio :=
  { device with features := device.features ||| features }

/--
`virtio_notify_status`, with the transport's `reset` operation.  The second
component is the extended status for the device's own `notify_status`.
-/
def virtioNotifyStatus
    (reset : VirtioDevice Virtio → VirtioDevice Virtio)
    (device : VirtioDevice Virtio) (status : UInt8) :
    VirtioDevice Virtio × UInt32 :=
  let written :=
    { device with
      status :=
        device.status &&& ~~~virtioConfigSMask ||| status.toUInt32 }
  let started := written.status &&& virtioStatusStart != 0
  let (changed, extStatus) :=
    if status &&& virtioConfigSDriverOk != 0 && !started then
      ({ written with status := written.status ||| virtioStatusStart },
        status.toUInt32 ||| virtioStatusStart)
    else if status == 0 && started then
      (reset
          { written with
            status := written.status &&& ~~~virtioStatusStart },
        status.toUInt32 ||| virtioStatusStop)
    else
      (written, status.toUInt32)
  (changed,
    if status == 0 then extStatus ||| virtioStatusConfig else extStatus)

/-! ## Effect of an assignment to a queue -/

section Queues

variable (ops : VirtioOps) (device : VirtioDevice Virtio) (vq : Nat)
  (change : VirtQueue → VirtQueue)

theorem modifyVq_of_lt {vq : Nat} (inRange : vq < ops.vqCount) :
    modifyVq ops device vq change =
      { device with
        queues :=
          Function.update device.queues vq
            (change (device.queues vq)) } := by
  rw [modifyVq, if_pos inRange]

@[simp]
theorem modifyVq_features :
    (modifyVq ops device vq change).features = device.features := by
  unfold modifyVq
  split <;> rfl

@[simp]
theorem modifyVq_virtio :
    (modifyVq ops device vq change).virtio = device.virtio := by
  unfold modifyVq
  split <;> rfl

@[simp]
theorem modifyVq_strayed :
    (modifyVq ops device vq change).strayed =
      (device.strayed || decide (ops.vqCount ≤ vq)) := by
  unfold modifyVq
  split
  · rename_i inRange
    simp [Nat.not_le.mpr inRange]
  · rename_i outside
    simp [Nat.not_lt.mp outside]

@[simp]
theorem virtioInitDeviceVq_features :
    (virtioInitDeviceVq ops device vq).features = device.features :=
  modifyVq_features ops device vq _

@[simp]
theorem virtioInitDeviceVq_virtio :
    (virtioInitDeviceVq ops device vq).virtio = device.virtio :=
  modifyVq_virtio ops device vq _

@[simp]
theorem virtioInitDeviceVq_strayed :
    (virtioInitDeviceVq ops device vq).strayed =
      (device.strayed || decide (ops.vqCount ≤ vq)) :=
  modifyVq_strayed ops device vq _

@[simp]
theorem virtioExitVq_features :
    (virtioExitVq ops device vq).features = device.features :=
  modifyVq_features ops device vq _

@[simp]
theorem virtioExitVq_virtio :
    (virtioExitVq ops device vq).virtio = device.virtio :=
  modifyVq_virtio ops device vq _

@[simp]
theorem virtioExitVq_strayed :
    (virtioExitVq ops device vq).strayed =
      (device.strayed || decide (ops.vqCount ≤ vq)) :=
  modifyVq_strayed ops device vq _

end Queues

/-! ## Effect of a status write -/

/--
A status write changes nothing but the status word, unless it calls the
transport's reset.
-/
theorem virtioNotifyStatus_cases
    (reset : VirtioDevice Virtio → VirtioDevice Virtio)
    (device : VirtioDevice Virtio) (status : UInt8) :
    ∃ word,
      (virtioNotifyStatus reset device status).1 =
          { device with status := word } ∨
        (virtioNotifyStatus reset device status).1 =
          reset { device with status := word } := by
  unfold virtioNotifyStatus
  dsimp only
  split
  · exact ⟨_, Or.inl rfl⟩
  · split
    · exact ⟨_, Or.inr rfl⟩
    · exact ⟨_, Or.inl rfl⟩

/-- The device is running. -/
def Started (device : VirtioDevice Virtio) : Prop :=
  device.status &&& virtioStatusStart ≠ 0

instance (device : VirtioDevice Virtio) : Decidable (Started device) :=
  inferInstanceAs (Decidable (_ ≠ _))

/-- The device after the status bits of the driver are cleared. -/
def clearStatus (device : VirtioDevice Virtio) : VirtioDevice Virtio :=
  { device with status := device.status &&& ~~~virtioConfigSMask }

theorem masked_start (status : UInt32) :
    status &&& ~~~virtioConfigSMask &&& virtioStatusStart =
      status &&& virtioStatusStart := by
  have apart :
      ~~~virtioConfigSMask &&& virtioStatusStart = virtioStatusStart := by
    decide
  rw [UInt32.and_assoc, apart]

/--
Status zero resets a running device through the transport and leaves
everything but the driver's status bits of any other device as it was.
-/
theorem virtioNotifyStatus_zero
    (reset : VirtioDevice Virtio → VirtioDevice Virtio)
    (device : VirtioDevice Virtio) :
    (virtioNotifyStatus reset device 0).1 =
      if Started device then
        reset
          { device with
            status :=
              device.status &&& ~~~virtioConfigSMask &&&
                ~~~virtioStatusStart }
      else
        clearStatus device := by
  have cleared :
      device.status &&& ~~~virtioConfigSMask ||| (0 : UInt8).toUInt32 =
        device.status &&& ~~~virtioConfigSMask := by
    simp
  have noDriver : ((0 : UInt8) &&& virtioConfigSDriverOk != 0) = false := rfl
  unfold virtioNotifyStatus
  dsimp only
  rw [cleared, masked_start, noDriver]
  by_cases started : Started device
  · have running : (device.status &&& virtioStatusStart != 0) = true := by
      simpa [Started] using started
    simp [running, started]
  · have halted : (device.status &&& virtioStatusStart != 0) = false := by
      simpa [Started] using started
    simp [halted, started, clearStatus]

end Kemu.Virtio.Core
