import Kemu.Virtio.Negotiation

/-!
# Queue indices

A register access passes queue indices to the device's operations and uses
them as indices into the arrays of the transport.  Most of them come from the
queue selector, some from the value of the access itself, some from an event
descriptor that was set up before.

Both legacy register files and the modern one of PCI compare the selector
with the number of queues when it is written, and the legacy ones compare the
value of a notification too.  Modern PCI passes on what a notification
carries, and modern MMIO compares nothing.
-/

namespace Kemu.Virtio.QueueIndex

open Kemu.Lib.Transition
open Kemu.Virtio.Ring
open Kemu.Virtio.Core
open Kemu.Virtio.Transport
open Kemu.Virtio.Negotiation

/-! ## Uses of an index -/

/--
A call of one of the device's operations with a queue index, or an access to
an array of the transport.
-/
inductive Use where
  | getVq (vq : Nat)
  | initVq (vq : Nat)
  | exitVq (vq : Nat)
  | setSizeVq (vq : Nat)
  | getSizeVq (vq : Nat)
  | notifyVq (vq : Nat)
  | vqVector (vq : Nat)
  | gsis (vq : Nat)
  | ioeventfds (vq : Nat)
deriving DecidableEq, Repr

/-- The device has the queue, or the array has the entry. -/
def Use.Safe (ops : VirtioOps) : Use → Prop
  | .getVq vq | .initVq vq | .exitVq vq => vq < ops.vqCount
  | .setSizeVq vq | .getSizeVq vq | .notifyVq vq => vq < ops.vqCount
  | .vqVector vq | .gsis vq | .ioeventfds vq => vq < virtioMaxVq

instance (ops : VirtioOps) : (use : Use) → Decidable (use.Safe ops)
  | .getVq vq | .initVq vq | .exitVq vq =>
      inferInstanceAs (Decidable (vq < ops.vqCount))
  | .setSizeVq vq | .getSizeVq vq | .notifyVq vq =>
      inferInstanceAs (Decidable (vq < ops.vqCount))
  | .vqVector vq | .gsis vq | .ioeventfds vq =>
      inferInstanceAs (Decidable (vq < virtioMaxVq))

/-- All of these indices are in range. -/
def AllSafe (ops : VirtioOps) (uses : List Use) : Prop :=
  ∀ use ∈ uses, use.Safe ops

section Uses

variable {Virtio : Type} (ops : VirtioOps)

/--
The uses in `virtio_exit_vq`.  A device type may leave its own `exit_vq` out.
-/
def virtioExitVqUses
    (hasExitVq : Bool) (device : VirtioDevice Virtio) (vq : Nat) :
    List Use :=
  .getVq vq ::
    if (device.queues vq).enabled && hasExitVq then [.exitVq vq] else []

/-- The uses in `virtio_notify_status`: those of the reset, if it is called. -/
def virtioNotifyStatusUses
    (reset : List Use) (device : VirtioDevice Virtio) (status : UInt8) :
    List Use :=
  if status = 0 ∧ Started device then reset else []

/-! ### PCI -/

/-- The uses in `virtio_pci_init_vq`. -/
def virtioPciInitVqUses (write : RegisterWrite) (vq : Nat) : List Use :=
  .ioeventfds vq :: if write.eventfdAdded then [.initVq vq] else []

/-- The uses in `virtio_pci_exit_vq`. -/
def virtioPciExitVqUses
    (hasExitVq : Bool) (device : PciDevice) (vq : Nat) : List Use :=
  [.gsis vq, .gsis vq, .vqVector vq] ++
    virtioExitVqUses hasExitVq device vq

/-- The uses in `virtio_pci__reset`. -/
def virtioPciResetUses
    (hasExitVq : Bool) (device : PciDevice) : List Use :=
  (List.range ops.vqCount).flatMap (virtioPciExitVqUses hasExitVq device)

/-- The uses in `virtio_pci__specific_data_in`. -/
def virtioPciSpecificDataInUses
    (device : PciDevice) (offset : Nat) : List Use :=
  match virtioGetDevSpecificField
      (offset - 20) device.virtio.msixEnabled with
  | .config => []
  | .msix =>
      match offset with
      | virtioMsiQueueVector =>
          [.vqVector device.virtio.queueSelector.toNat]
      | _ => []

/-- `VIRTIO_PCI_QUEUE_NUM`. -/
@[match_pattern] def virtioPciQueueNum : Nat := 12

/-- `VIRTIO_PCI_QUEUE_NOTIFY`. -/
@[match_pattern] def virtioPciQueueNotify : Nat := 16

/-- The uses in `virtio_pci__data_in`. -/
def virtioPciDataInUses (device : PciDevice) (offset : Nat) : List Use :=
  let sel := device.virtio.queueSelector.toNat
  match offset with
  | virtioPciQueuePfn => [.getVq sel]
  | virtioPciQueueNum => [.getSizeVq sel]
  | _ => virtioPciSpecificDataInUses device offset

/-- The uses in `virtio_pci__specific_data_out`. -/
def virtioPciSpecificDataOutUses
    (device : PciDevice) (write : RegisterWrite) : List Use :=
  let sel := device.virtio.queueSelector.toNat
  match virtioGetDevSpecificField
      (write.offset - 20) device.virtio.msixEnabled with
  | .config => []
  | .msix =>
      match write.offset with
      | virtioMsiQueueVector =>
          .vqVector sel ::
            if virtioPciAddMsixRoute write write.read16 < 0 then []
            else [.gsis sel]
      | _ => []

/-- The uses in `virtio_pci__data_out`. -/
def virtioPciDataOutUses
    (hasExitVq : Bool) (device : PciDevice) (write : RegisterWrite) :
    List Use :=
  let sel := device.virtio.queueSelector.toNat
  match write.offset with
  | virtioPciQueuePfn =>
      if write.data ≠ 0 then
        .getVq sel :: virtioPciInitVqUses write sel
      else
        virtioPciExitVqUses hasExitVq device sel
  | virtioPciQueueNotify =>
      if ops.vqCount ≤ write.read16.toNat then []
      else [.notifyVq write.read16.toNat]
  | virtioPciStatus =>
      virtioNotifyStatusUses (virtioPciResetUses ops hasExitVq device)
        device write.read8
  | _ => virtioPciSpecificDataOutUses device write

/-- `VIRTIO_PCI_COMMON_Q_SIZE`. -/
@[match_pattern] def virtioPciCommonQSize : Nat := 24

/-- `VPCI_CFG_COMMON_SIZE`. -/
def vpciCfgCommonSize : Nat := 56

/-- `VPCI_CFG_NOTIFY_END`. -/
def vpciCfgNotifyEnd : Nat := 59

/-- The uses in `virtio_pci__common_write`. -/
def virtioPciCommonWriteUses
    (hasExitVq : Bool) (device : PciDevice) (write : RegisterWrite) :
    List Use :=
  let sel := device.virtio.queueSelector.toNat
  match write.offset with
  | virtioPciCommonStatus =>
      virtioNotifyStatusUses (virtioPciResetUses ops hasExitVq device)
        device write.read8
  | virtioPciCommonQSize => [.setSizeVq sel]
  | virtioPciCommonQMsix => [.vqVector sel, .gsis sel]
  | virtioPciCommonQEnable =>
      if write.read16 ≠ 0 then
        virtioPciInitVqUses write sel
      else
        virtioPciExitVqUses hasExitVq device sel
  | virtioPciCommonQDesclo => [.getVq sel]
  | virtioPciCommonQDeschi => [.getVq sel]
  | virtioPciCommonQAvaillo => [.getVq sel]
  | virtioPciCommonQAvailhi => [.getVq sel]
  | virtioPciCommonQUsedlo => [.getVq sel]
  | virtioPciCommonQUsedhi => [.getVq sel]
  | _ => []

/-- The uses in `virtio_pci__notify_write`. -/
def virtioPciNotifyWriteUses (write : RegisterWrite) : List Use :=
  [.notifyVq write.read16.toNat]

/-- The uses in `virtio_pci__common_read`. -/
def virtioPciCommonReadUses
    (device : PciDevice) (offset : Nat) : List Use :=
  let sel := device.virtio.queueSelector.toNat
  match offset with
  | virtioPciCommonQSize => [.getSizeVq sel]
  | virtioPciCommonQMsix => [.vqVector sel]
  | virtioPciCommonQEnable => [.getVq sel]
  | virtioPciCommonQDesclo => [.getVq sel]
  | virtioPciCommonQDeschi => [.getVq sel]
  | virtioPciCommonQAvaillo => [.getVq sel]
  | virtioPciCommonQAvailhi => [.getVq sel]
  | virtioPciCommonQUsedlo => [.getVq sel]
  | virtioPciCommonQUsedhi => [.getVq sel]
  | _ => []

/-- The uses in `virtio_pci_access` for a write. -/
def virtioPciAccessWriteUses
    (hasExitVq : Bool) (device : PciDevice) (write : RegisterWrite) :
    List Use :=
  if write.offset < vpciCfgCommonSize then
    virtioPciCommonWriteUses ops hasExitVq device write
  else if write.offset ≤ vpciCfgNotifyEnd then
    virtioPciNotifyWriteUses write
  else
    []

/-! ### MMIO -/

/-- The uses in `virtio_mmio_init_vq`. -/
def virtioMmioInitVqUses (write : RegisterWrite) (vq : Nat) : List Use :=
  .ioeventfds vq :: if write.eventfdAdded then [.initVq vq] else []

/-- The uses in `virtio_mmio_exit_vq`. -/
def virtioMmioExitVqUses
    (hasExitVq : Bool) (device : MmioDevice) (vq : Nat) : List Use :=
  virtioExitVqUses hasExitVq device vq

/-- The uses in `virtio_mmio_reset`. -/
def virtioMmioResetUses
    (hasExitVq : Bool) (device : MmioDevice) : List Use :=
  (List.range ops.vqCount).flatMap (virtioMmioExitVqUses hasExitVq device)

/-- `VIRTIO_MMIO_QUEUE_NUM_MAX`. -/
@[match_pattern] def virtioMmioQueueNumMax : Nat := 0x34

/-- `VIRTIO_MMIO_QUEUE_NOTIFY`. -/
@[match_pattern] def virtioMmioQueueNotify : Nat := 0x50

/-- The uses in `virtio_mmio_config_in` of the legacy layout. -/
def virtioMmioLegacyConfigInUses
    (device : MmioDevice) (offset : Nat) : List Use :=
  let sel := device.virtio.queueSel.toNat
  match offset with
  | virtioMmioQueuePfn => [.getVq sel]
  | virtioMmioQueueNumMax => [.getSizeVq sel]
  | _ => []

/-- The uses in `virtio_mmio_config_out` of the legacy layout. -/
def virtioMmioLegacyConfigOutUses
    (hasExitVq : Bool) (device : MmioDevice) (write : RegisterWrite) :
    List Use :=
  let sel := device.virtio.queueSel.toNat
  match write.offset with
  | virtioMmioStatus =>
      virtioNotifyStatusUses (virtioMmioResetUses ops hasExitVq device)
        device write.read8
  | virtioMmioQueueNum => [.setSizeVq sel]
  | virtioMmioQueuePfn =>
      if write.data ≠ 0 then
        .getVq sel :: virtioMmioInitVqUses write sel
      else
        virtioMmioExitVqUses hasExitVq device sel
  | virtioMmioQueueNotify =>
      if ops.vqCount ≤ write.data.toNat then []
      else [.notifyVq write.data.toNat]
  | _ => []

/-- The uses in `virtio_mmio_config_in` of the modern layout. -/
def virtioMmioModernConfigInUses
    (device : MmioDevice) (offset : Nat) : List Use :=
  let sel := device.virtio.queueSel.toNat
  match offset with
  | virtioMmioQueueNumMax => [.getSizeVq sel]
  | virtioMmioQueueReady => [.getVq sel]
  | virtioMmioQueueDescLow => [.getVq sel]
  | virtioMmioQueueDescHigh => [.getVq sel]
  | virtioMmioQueueUsedLow => [.getVq sel]
  | virtioMmioQueueUsedHigh => [.getVq sel]
  | virtioMmioQueueAvailLow => [.getVq sel]
  | virtioMmioQueueAvailHigh => [.getVq sel]
  | _ => []

/-- The uses in `virtio_mmio_config_out` of the modern layout. -/
def virtioMmioModernConfigOutUses
    (hasExitVq : Bool) (device : MmioDevice) (write : RegisterWrite) :
    List Use :=
  let sel := device.virtio.queueSel.toNat
  match write.offset with
  | virtioMmioStatus =>
      virtioNotifyStatusUses (virtioMmioResetUses ops hasExitVq device)
        device write.read8
  | virtioMmioQueueNum => [.setSizeVq sel]
  | virtioMmioQueueReady =>
      if write.data ≠ 0 then
        virtioMmioInitVqUses write sel
      else
        virtioMmioExitVqUses hasExitVq device sel
  | virtioMmioQueueNotify => [.notifyVq write.data.toNat]
  | virtioMmioQueueDescLow => [.getVq sel]
  | virtioMmioQueueDescHigh => [.getVq sel]
  | virtioMmioQueueUsedLow => [.getVq sel]
  | virtioMmioQueueUsedHigh => [.getVq sel]
  | virtioMmioQueueAvailLow => [.getVq sel]
  | virtioMmioQueueAvailHigh => [.getVq sel]
  | _ => []

end Uses

/-! ## Runs -/

/--
What reaches a transport: a write or a read of a register, an event
descriptor that fires, and the guest turning message interrupts on or off.
-/
inductive Access where
  | write (write : RegisterWrite)
  | read (offset len : Nat)
  | ioevent (vq : Nat)
  | msixControl (enabled : Bool)
deriving DecidableEq, Repr

/-- A device on a transport and all uses of queue indices so far. -/
structure Port (trans : VirtioTrans) where
  device : VirtioDevice (Record trans)
  uses : List Use

/-- The device is registered. -/
def Port.start (trans : VirtioTrans) : Port trans :=
  ⟨virtioInit trans, []⟩

section Port

variable (ops : VirtioOps) (hasExitVq : Bool)

/-- The uses of a register write on each transport. -/
def writeUses :
    (trans : VirtioTrans) → VirtioDevice (Record trans) →
      RegisterWrite → List Use
  | .pci => virtioPciAccessWriteUses ops hasExitVq
  | .pciLegacy => virtioPciDataOutUses ops hasExitVq
  | .mmio => fun device write =>
      if write.len ≠ 4 then []
      else virtioMmioModernConfigOutUses ops hasExitVq device write
  | .mmioLegacy => virtioMmioLegacyConfigOutUses ops hasExitVq

/-- The uses of a register read on each transport. -/
def readUses :
    (trans : VirtioTrans) → VirtioDevice (Record trans) →
      Nat → Nat → List Use
  | .pci => fun device offset _ => virtioPciCommonReadUses device offset
  | .pciLegacy => fun device offset _ => virtioPciDataInUses device offset
  | .mmio => fun device offset len =>
      if len ≠ 4 then [] else virtioMmioModernConfigInUses device offset
  | .mmioLegacy => fun device offset _ =>
      virtioMmioLegacyConfigInUses device offset

variable {trans : VirtioTrans}

/--
The uses of an access.  An event descriptor is added for a queue right before
its `init_vq`; it may fire from then on and notifies that queue.
-/
def Port.usesOf (port : Port trans) : Access → List Use
  | .write write => writeUses ops hasExitVq trans port.device write
  | .read offset len => readUses trans port.device offset len
  | .ioevent vq => if .initVq vq ∈ port.uses then [.notifyVq vq] else []
  | .msixControl _ => []

/-- One access. -/
def Port.step (port : Port trans) (access : Access) : Port trans where
  device :=
    match access with
    | .write write => callback ops trans port.device write
    | .msixControl enabled => setMsixEnabled trans port.device enabled
    | .read _ _ | .ioevent _ => port.device
  uses := port.uses ++ port.usesOf ops hasExitVq access

/-- All indices so far were in range. -/
def Port.Safe (port : Port trans) : Prop :=
  AllSafe ops port.uses

end Port

/-! ## Which uses are in range -/

section Safe

variable {ops : VirtioOps} {Virtio : Type}

@[simp]
theorem allSafe_nil : AllSafe ops [] :=
  nofun

@[simp]
theorem allSafe_cons {use : Use} {uses : List Use} :
    AllSafe ops (use :: uses) ↔ use.Safe ops ∧ AllSafe ops uses :=
  List.forall_mem_cons

@[simp]
theorem allSafe_append {first second : List Use} :
    AllSafe ops (first ++ second) ↔
      AllSafe ops first ∧ AllSafe ops second :=
  List.forall_mem_append

/-- The arrays have an entry for every queue. -/
theorem lt_virtioMaxVq {vq : Nat} (inRange : vq < ops.vqCount) :
    vq < virtioMaxVq :=
  Nat.lt_of_lt_of_le inRange ops.vqCount_le

@[simp]
theorem allSafe_virtioExitVqUses
    {hasExitVq : Bool} {device : VirtioDevice Virtio} {vq : Nat} :
    AllSafe ops (virtioExitVqUses hasExitVq device vq) ↔
      vq < ops.vqCount := by
  unfold virtioExitVqUses
  split
  · simp [Use.Safe]
  · simp [Use.Safe]

theorem allSafe_virtioPciInitVqUses
    {write : RegisterWrite} {vq : Nat} (inRange : vq < ops.vqCount) :
    AllSafe ops (virtioPciInitVqUses write vq) := by
  unfold virtioPciInitVqUses
  split
  · simp [Use.Safe, inRange, lt_virtioMaxVq inRange]
  · simp [Use.Safe, lt_virtioMaxVq inRange]

theorem allSafe_virtioPciExitVqUses
    {hasExitVq : Bool} {device : PciDevice} {vq : Nat}
    (inRange : vq < ops.vqCount) :
    AllSafe ops (virtioPciExitVqUses hasExitVq device vq) := by
  unfold virtioPciExitVqUses
  simp [Use.Safe, inRange, lt_virtioMaxVq inRange]

/-- A reset goes through the queues that there are. -/
theorem allSafe_reset {usesOf : Nat → List Use}
    (safe : ∀ vq < ops.vqCount, AllSafe ops (usesOf vq)) :
    AllSafe ops ((List.range ops.vqCount).flatMap usesOf) := by
  intro use inside
  obtain ⟨vq, listed, inside⟩ := List.mem_flatMap.1 inside
  exact safe vq (List.mem_range.1 listed) use inside

theorem allSafe_virtioNotifyStatusUses
    {reset : List Use} {device : VirtioDevice Virtio} {status : UInt8}
    (safe : AllSafe ops reset) :
    AllSafe ops (virtioNotifyStatusUses reset device status) := by
  unfold virtioNotifyStatusUses
  split
  · exact safe
  · exact allSafe_nil

theorem allSafe_virtioPciResetUses
    {hasExitVq : Bool} {device : PciDevice} :
    AllSafe ops (virtioPciResetUses ops hasExitVq device) :=
  allSafe_reset fun _ inRange => allSafe_virtioPciExitVqUses inRange

theorem allSafe_virtioMmioResetUses
    {hasExitVq : Bool} {device : MmioDevice} :
    AllSafe ops (virtioMmioResetUses ops hasExitVq device) :=
  allSafe_reset fun _ inRange => allSafe_virtioExitVqUses.2 inRange

/-! ### PCI -/

section Pci

variable {hasExitVq : Bool} {device : PciDevice} {write : RegisterWrite}
  (selected : device.virtio.queueSelector.toNat < ops.vqCount)

include selected

theorem allSafe_virtioPciSpecificDataInUses (offset : Nat) :
    AllSafe ops (virtioPciSpecificDataInUses device offset) := by
  unfold virtioPciSpecificDataInUses
  split
  · exact allSafe_nil
  · split
    · simp [Use.Safe, lt_virtioMaxVq selected]
    · exact allSafe_nil

theorem allSafe_virtioPciDataInUses (offset : Nat) :
    AllSafe ops (virtioPciDataInUses device offset) := by
  unfold virtioPciDataInUses
  dsimp only
  split
  · simp [Use.Safe, selected]
  · simp [Use.Safe, selected]
  · exact allSafe_virtioPciSpecificDataInUses selected offset

theorem allSafe_virtioPciSpecificDataOutUses :
    AllSafe ops (virtioPciSpecificDataOutUses device write) := by
  unfold virtioPciSpecificDataOutUses
  dsimp only
  split
  · exact allSafe_nil
  · split
    · split
      · simp [Use.Safe, lt_virtioMaxVq selected]
      · simp [Use.Safe, lt_virtioMaxVq selected]
    · exact allSafe_nil

theorem allSafe_virtioPciDataOutUses :
    AllSafe ops (virtioPciDataOutUses ops hasExitVq device write) := by
  unfold virtioPciDataOutUses
  dsimp only
  split
  · split
    · exact allSafe_cons.2
        ⟨selected, allSafe_virtioPciInitVqUses selected⟩
    · exact allSafe_virtioPciExitVqUses selected
  · split
    next => exact allSafe_nil
    next small => simpa [Use.Safe] using small
  · exact allSafe_virtioNotifyStatusUses allSafe_virtioPciResetUses
  · exact allSafe_virtioPciSpecificDataOutUses selected

theorem allSafe_virtioPciCommonReadUses (offset : Nat) :
    AllSafe ops (virtioPciCommonReadUses device offset) := by
  unfold virtioPciCommonReadUses
  dsimp only
  split <;> simp [Use.Safe, selected, lt_virtioMaxVq selected]

theorem allSafe_virtioPciCommonWriteUses :
    AllSafe ops (virtioPciCommonWriteUses ops hasExitVq device write) := by
  unfold virtioPciCommonWriteUses
  dsimp only
  split
  case h_1 =>
    exact allSafe_virtioNotifyStatusUses allSafe_virtioPciResetUses
  case h_4 =>
    split
    · exact allSafe_virtioPciInitVqUses selected
    · exact allSafe_virtioPciExitVqUses selected
  all_goals simp [Use.Safe, selected, lt_virtioMaxVq selected]

/-- On modern PCI only the value of a notification is unchecked. -/
theorem allSafe_virtioPciAccessWriteUses_iff :
    AllSafe ops (virtioPciAccessWriteUses ops hasExitVq device write) ↔
      (vpciCfgCommonSize ≤ write.offset →
        write.offset ≤ vpciCfgNotifyEnd →
          write.read16.toNat < ops.vqCount) := by
  unfold virtioPciAccessWriteUses
  split
  next common =>
    refine iff_of_true (allSafe_virtioPciCommonWriteUses selected) ?_
    intro behind
    exact absurd common (Nat.not_lt.2 behind)
  next behind =>
    have starts := Nat.not_lt.1 behind
    split
    next doorbell =>
      simp [virtioPciNotifyWriteUses, Use.Safe, starts, doorbell]
    next other =>
      refine iff_of_true allSafe_nil ?_
      intro _ doorbell
      exact absurd doorbell other

end Pci

/-! ### MMIO -/

section Mmio

variable {hasExitVq : Bool} {device : MmioDevice} {write : RegisterWrite}

theorem allSafe_virtioMmioInitVqUses_iff {vq : Nat} :
    AllSafe ops (virtioMmioInitVqUses write vq) ↔
      (write.eventfdAdded = true ∨ virtioMaxVq ≤ vq →
        vq < ops.vqCount) := by
  unfold virtioMmioInitVqUses
  have fits := @lt_virtioMaxVq ops vq
  split
  next added => simpa [Use.Safe, added] using fits
  next refused =>
    rw [allSafe_cons, and_iff_left allSafe_nil, or_iff_right refused]
    constructor
    · intro small outside
      exact absurd small (Nat.not_lt.2 outside)
    · intro bounded
      rcases Nat.lt_or_ge vq virtioMaxVq with small | outside
      · exact small
      · exact fits (bounded outside)

theorem allSafe_virtioMmioLegacyConfigInUses
    (selected : device.virtio.queueSel.toNat < ops.vqCount)
    (offset : Nat) :
    AllSafe ops (virtioMmioLegacyConfigInUses device offset) := by
  unfold virtioMmioLegacyConfigInUses
  dsimp only
  split <;> simp [Use.Safe, selected]

theorem allSafe_virtioMmioLegacyConfigOutUses
    (selected : device.virtio.queueSel.toNat < ops.vqCount) :
    AllSafe ops
      (virtioMmioLegacyConfigOutUses ops hasExitVq device write) := by
  unfold virtioMmioLegacyConfigOutUses
  dsimp only
  split
  · exact allSafe_virtioNotifyStatusUses allSafe_virtioMmioResetUses
  · simp [Use.Safe, selected]
  · split
    · exact allSafe_cons.2
        ⟨selected, allSafe_virtioMmioInitVqUses_iff.2 fun _ => selected⟩
    · exact allSafe_virtioExitVqUses.2 selected
  · split
    next => exact allSafe_nil
    next small => simpa [Use.Safe] using small
  · exact allSafe_nil

/-- The modern registers that are read from the selected queue. -/
def readsQueue (offset : Nat) : Bool :=
  match offset with
  | virtioMmioQueueNumMax => true
  | virtioMmioQueueReady => true
  | virtioMmioQueueDescLow => true
  | virtioMmioQueueDescHigh => true
  | virtioMmioQueueUsedLow => true
  | virtioMmioQueueUsedHigh => true
  | virtioMmioQueueAvailLow => true
  | virtioMmioQueueAvailHigh => true
  | _ => false

theorem allSafe_virtioMmioModernConfigInUses_iff (offset : Nat) :
    AllSafe ops (virtioMmioModernConfigInUses device offset) ↔
      (readsQueue offset = true →
        device.virtio.queueSel.toNat < ops.vqCount) := by
  unfold virtioMmioModernConfigInUses
  dsimp only
  split
  case h_9 =>
    refine iff_of_true allSafe_nil fun reads => ?_
    unfold readsQueue at reads
    split at reads
    case h_9 => exact absurd reads Bool.false_ne_true
    all_goals contradiction
  all_goals simp [Use.Safe, readsQueue]

/-- A modern write goes through the selector, or carries an index itself. -/
theorem allSafe_virtioMmioModernConfigOutUses_iff :
    AllSafe ops
        (virtioMmioModernConfigOutUses ops hasExitVq device write) ↔
      (write.offset = virtioMmioQueueNotify →
          write.data.toNat < ops.vqCount) ∧
        (looksUpQueue device.virtio.queueSel.toNat write = true ∨
            write.offset = virtioMmioQueueNum →
          device.virtio.queueSel.toNat < ops.vqCount) := by
  unfold virtioMmioModernConfigOutUses
  dsimp only
  split
  case h_1 spot =>
    refine iff_of_true
      (allSafe_virtioNotifyStatusUses allSafe_virtioMmioResetUses) ?_
    simp [looksUpQueue, spot, virtioMmioQueueNotify, virtioMmioQueueNum]
  case h_3 spot =>
    split
    next enables =>
      rw [allSafe_virtioMmioInitVqUses_iff]
      simp [looksUpQueue, spot, virtioMmioQueueNotify, virtioMmioQueueNum,
        enables]
    next disables =>
      rw [ne_eq, not_not] at disables
      simp [looksUpQueue, spot, virtioMmioQueueNotify, virtioMmioQueueNum,
        virtioMmioExitVqUses, disables]
  case h_11 =>
    refine iff_of_true allSafe_nil ⟨fun spot => ?_, ?_⟩
    · contradiction
    · rintro (looks | spot)
      · unfold looksUpQueue at looks
        split at looks
        case h_8 => exact absurd looks Bool.false_ne_true
        all_goals contradiction
      · contradiction
  all_goals
    rename_i spot
    simp [Use.Safe, looksUpQueue, spot, virtioMmioQueueNotify,
      virtioMmioQueueNum]

end Mmio

end Safe

/-! ## Main result -/

/--
What an access must respect.  A notification on modern PCI names one of the
device's queues; so does one on modern MMIO, and there no register of the
selected queue is accessed while the selector is out of range.
-/
def Granted (ops : VirtioOps) :
    (trans : VirtioTrans) → VirtioDevice (Record trans) → Access → Prop
  | .pci, _, .write write =>
      vpciCfgCommonSize ≤ write.offset →
        write.offset ≤ vpciCfgNotifyEnd →
          write.read16.toNat < ops.vqCount
  | .mmio, device, .write write =>
      let sel := (VirtioMmioHdr.queueSel device.virtio).toNat
      write.len = 4 →
        (write.offset = virtioMmioQueueNotify →
            write.data.toNat < ops.vqCount) ∧
          (looksUpQueue sel write = true ∨
              write.offset = virtioMmioQueueNum →
            sel < ops.vqCount)
  | .mmio, device, .read offset len =>
      let sel := (VirtioMmioHdr.queueSel device.virtio).toNat
      len = 4 → readsQueue offset = true → sel < ops.vqCount
  | _, _, _ => True

section Main

variable {ops : VirtioOps} {hasExitVq : Bool} {trans : VirtioTrans}

/-- The indices so far and the selector, where it is checked, are in range. -/
structure Sound (ops : VirtioOps) (port : Port trans) : Prop where
  safe : port.Safe ops
  selected : SelectorInRange ops trans port.device.virtio

theorem sound_start : Sound ops (Port.start trans) := by
  refine ⟨allSafe_nil, ?_⟩
  cases trans with
  | pci => exact ops.vqCount_pos
  | pciLegacy => exact ops.vqCount_pos
  | mmio => trivial
  | mmioLegacy => exact ops.vqCount_pos

theorem allSafe_writeUses_iff {device : VirtioDevice (Record trans)}
    (selected : SelectorInRange ops trans device.virtio)
    (write : RegisterWrite) :
    AllSafe ops (writeUses ops hasExitVq trans device write) ↔
      Granted ops trans device (.write write) := by
  cases trans with
  | pci => exact allSafe_virtioPciAccessWriteUses_iff selected
  | pciLegacy =>
      exact iff_of_true (allSafe_virtioPciDataOutUses selected) trivial
  | mmio =>
      simp only [writeUses, Granted]
      by_cases wide : write.len = 4
      · rw [if_neg (not_not.2 wide),
          allSafe_virtioMmioModernConfigOutUses_iff, forall_prop_of_true wide]
      · exact iff_of_true (by rw [if_pos wide]; exact allSafe_nil)
          fun narrow => absurd narrow wide
  | mmioLegacy =>
      exact iff_of_true
        (allSafe_virtioMmioLegacyConfigOutUses selected) trivial

theorem allSafe_readUses_iff {device : VirtioDevice (Record trans)}
    (selected : SelectorInRange ops trans device.virtio)
    (offset len : Nat) :
    AllSafe ops (readUses trans device offset len) ↔
      Granted ops trans device (.read offset len) := by
  cases trans with
  | pci =>
      exact iff_of_true
        (allSafe_virtioPciCommonReadUses selected offset) trivial
  | pciLegacy =>
      exact iff_of_true (allSafe_virtioPciDataInUses selected offset) trivial
  | mmio =>
      simp only [readUses, Granted]
      by_cases wide : len = 4
      · rw [if_neg (not_not.2 wide),
          allSafe_virtioMmioModernConfigInUses_iff, forall_prop_of_true wide]
      · exact iff_of_true (by rw [if_pos wide]; exact allSafe_nil)
          fun narrow => absurd narrow wide
  | mmioLegacy =>
      exact iff_of_true
        (allSafe_virtioMmioLegacyConfigInUses selected offset) trivial

/-- A sound transport uses indices in range for every granted access only. -/
theorem allSafe_usesOf_iff {port : Port trans} (sound : Sound ops port)
    (access : Access) :
    AllSafe ops (port.usesOf ops hasExitVq access) ↔
      Granted ops trans port.device access := by
  cases access with
  | write write => exact allSafe_writeUses_iff sound.selected write
  | read offset len => exact allSafe_readUses_iff sound.selected offset len
  | ioevent vq =>
      refine iff_of_true ?_ (by cases trans <;> trivial)
      simp only [Port.usesOf]
      split
      next added =>
        have inRange : vq < ops.vqCount := sound.safe _ added
        exact allSafe_cons.2 ⟨inRange, allSafe_nil⟩
      next => exact allSafe_nil
  | msixControl enabled =>
      exact iff_of_true allSafe_nil (by cases trans <;> trivial)

theorem Sound.selected_step {port : Port trans} (sound : Sound ops port)
    (access : Access) :
    SelectorInRange ops trans
      (port.step ops hasExitVq access).device.virtio := by
  cases access with
  | write write =>
      exact (act_effect trans port.device (.write write)).selector
        sound.selected
  | read offset len => exact sound.selected
  | ioevent vq => exact sound.selected
  | msixControl enabled =>
      exact (act_effect trans port.device (.msixControl enabled)).selector
        sound.selected

/--
On every transport, all queue indices used by any sequence of accesses are
in range if and only if each access is granted; on both legacy transports
each one is.
-/
theorem queue_indices_safe_iff (ops : VirtioOps) (hasExitVq : Bool)
    (trans : VirtioTrans) (accesses : List Access) :
    Throughout (Port.step ops hasExitVq) (Port.Safe ops)
        (Port.start trans) accesses ↔
      Along (Port.step ops hasExitVq)
        (fun port => Granted ops trans port.device)
        (Port.start trans) accesses := by
  have visible : ∀ port : Port trans, Sound ops port → port.Safe ops :=
    fun _ sound => sound.safe
  refine throughout_iff_along visible ?_ ?_ sound_start accesses
  · intro port access sound granted
    have uses : AllSafe ops (port.usesOf ops hasExitVq access) :=
      (allSafe_usesOf_iff sound access).2 granted
    exact
      ⟨allSafe_append.2 ⟨sound.safe, uses⟩, sound.selected_step access⟩
  · intro port access sound refused safe
    have uses := (allSafe_append.1 safe).2
    exact refused ((allSafe_usesOf_iff sound access).1 uses)

end Main

/-- A write of four bytes to a register. -/
def registerWrite (offset : Nat) (data : UInt32) : Access :=
  .write
    { offset := offset
      data := data
      len := 4
      endianness := virtioEndianLe
      eventfdAdded := true
      route := none }

/--
A disk has one queue.  Modern PCI passes the number of a notification to it
as it is, and modern MMIO stores any selector and then uses it.
-/
theorem unchecked_queue_indices :
    ¬ Throughout (Port.step blkOps true) (Port.Safe blkOps)
        (Port.start .pci) [registerWrite vpciCfgCommonSize 0xffff] ∧
      ¬ Throughout (Port.step blkOps true) (Port.Safe blkOps)
        (Port.start .mmio)
        [registerWrite virtioMmioQueueSel 1,
          registerWrite virtioMmioQueueNum 16] := by
  constructor
  · intro safe
    have inRange : (Use.notifyVq 0xffff).Safe blkOps :=
      safe.2 _ (by decide)
    exact absurd inRange (by decide)
  · intro safe
    have inRange : (Use.setSizeVq 1).Safe blkOps :=
      safe.2.2 _ (by decide)
    exact absurd inRange (by decide)

end Kemu.Virtio.QueueIndex
