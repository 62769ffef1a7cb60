import Kemu.Virtio.Core

/-!
# The register files of the four transports

What a guest's write to a register does, for PCI and MMIO and for the legacy
and the modern layout of each.  A write carries the answers of the calls the
handler makes: the byte order of the calling processor, whether the event
descriptors could be added, and the interrupt route that was set up.

Writes to the device's own configuration space and notifications of a queue
change nothing here.
-/

namespace Kemu.Virtio.Transport

open Kemu.Virtio.Ring
open Kemu.Virtio.Core

/-- `enum virtio_trans`. -/
inductive VirtioTrans where
  | pci
  | pciLegacy
  | mmio
  | mmioLegacy
deriving DecidableEq, Repr

/--
A write to a register.  `data` is the first four bytes of the buffer;
`route` is the result of `irq__add_msix_route`, absent when routes are not
needed because messages are injected directly.  If no route can be set up
otherwise, the process ends and no state follows.
-/
structure RegisterWrite where
  offset : Nat
  data : UInt32
  len : Nat
  endianness : UInt16
  eventfdAdded : Bool
  route : Option UInt32
deriving DecidableEq, Repr

namespace RegisterWrite

/-- `ioport__read16`. -/
def read16 (write : RegisterWrite) : UInt16 := write.data.toUInt16

/-- `ioport__read8`. -/
def read8 (write : RegisterWrite) : UInt8 := write.data.toUInt8

end RegisterWrite

/-- Shift a feature word to its place: `(u64)val << (32 * sel)`. -/
def featureWord (word sel : UInt32) : UInt64 :=
  word.toUInt64 <<< (32 * sel).toUInt64

/-! ## PCI -/

/-- `VIRTIO_MSI_NO_VECTOR`. -/
def virtioMsiNoVector : UInt16 := 0xffff

/-- The fields of `struct virtio_pci` that register writes reach. -/
structure VirtioPci where
  status : UInt8
  deviceFeaturesSel : UInt32
  driverFeaturesSel : UInt32
  msixEnabled : Bool
  configVector : UInt16
  configGsi : UInt32
  vqVector : Nat → UInt16
  gsis : Nat → UInt32
  queueSelector : UInt16

/-- `virtio_pci__init`, on memory that `calloc` returned. -/
def virtioPciInit : VirtioPci :=
  { status := 0
    deviceFeaturesSel := 0
    driverFeaturesSel := 0
    msixEnabled := false
    configVector := virtioMsiNoVector
    configGsi := 0
    vqVector := fun _ => virtioMsiNoVector
    gsis := fun _ => 0
    queueSelector := 0 }

/-- A device on the PCI bus. -/
abbrev PciDevice := VirtioDevice VirtioPci

/-- Write a field of the transport's record. -/
def PciDevice.modify
    (device : PciDevice) (change : VirtioPci → VirtioPci) : PciDevice :=
  { device with virtio := change device.virtio }

/-- `virtio_pci__add_msix_route`, with `EINVAL` and `ENXIO` written out. -/
def virtioPciAddMsixRoute (write : RegisterWrite) (vec : UInt16) : Int :=
  if vec = virtioMsiNoVector then
    -22
  else
    match write.route with
    | some gsi => gsi.toNat
    | none => -6

/-- `virtio_pci_init_vq`. -/
def virtioPciInitVq
    (ops : VirtioOps) (write : RegisterWrite)
    (device : PciDevice) (vq : Nat) : PciDevice :=
  if write.eventfdAdded then virtioInitDeviceVq ops device vq else device

/-- `virtio_pci_exit_vq`. -/
def virtioPciExitVq
    (ops : VirtioOps) (device : PciDevice) (vq : Nat) : PciDevice :=
  virtioExitVq ops
    (device.modify fun vpci =>
      { vpci with
        gsis := Function.update vpci.gsis vq 0
        vqVector := Function.update vpci.vqVector vq virtioMsiNoVector })
    vq

/-- `virtio_pci__reset`. -/
def virtioPciReset (ops : VirtioOps) (device : PciDevice) : PciDevice :=
  (List.range ops.vqCount).foldl (virtioPciExitVq ops)
    (device.modify fun vpci =>
      { vpci with
        configGsi := 0
        configVector := virtioMsiNoVector })

/-- What the offsets behind the fixed legacy registers stand for. -/
inductive DevSpecificField where
  | msix
  | config
deriving DecidableEq, Repr

/-- `virtio__get_dev_specific_field`. -/
def virtioGetDevSpecificField (offset : Int) (msix : Bool) :
    DevSpecificField :=
  if msix && offset < 4 then .msix else .config

/-- `VIRTIO_PCI_GUEST_FEATURES`. -/
@[match_pattern] def virtioPciGuestFeatures : Nat := 4

/-- `VIRTIO_PCI_QUEUE_PFN`. -/
@[match_pattern] def virtioPciQueuePfn : Nat := 8

/-- `VIRTIO_PCI_QUEUE_SEL`. -/
@[match_pattern] def virtioPciQueueSel : Nat := 14

/-- `VIRTIO_PCI_STATUS`. -/
@[match_pattern] def virtioPciStatus : Nat := 18

/-- `VIRTIO_MSI_CONFIG_VECTOR`. -/
@[match_pattern] def virtioMsiConfigVector : Nat := 20

/-- `VIRTIO_MSI_QUEUE_VECTOR`. -/
@[match_pattern] def virtioMsiQueueVector : Nat := 22

/-- `virtio_pci__specific_data_out`. -/
def virtioPciSpecificDataOut
    (device : PciDevice) (write : RegisterWrite) : PciDevice :=
  match virtioGetDevSpecificField
      (write.offset - 20) device.virtio.msixEnabled with
  | .config => device
  | .msix =>
      let vec := write.read16
      let gsi := virtioPciAddMsixRoute write vec
      match write.offset with
      | virtioMsiConfigVector =>
          device.modify fun vpci =>
            { vpci with
              configVector := vec
              configGsi :=
                if gsi < 0 then vpci.configGsi else UInt32.ofInt gsi }
      | virtioMsiQueueVector =>
          device.modify fun vpci =>
            let sel := vpci.queueSelector.toNat
            { vpci with
              vqVector := Function.update vpci.vqVector sel vec
              gsis :=
                if gsi < 0 then
                  vpci.gsis
                else
                  Function.update vpci.gsis sel (UInt32.ofInt gsi) }
      | _ => device

/-- `virtio_pci__data_out`. -/
def virtioPciDataOut
    (ops : VirtioOps) (device : PciDevice) (write : RegisterWrite) :
    PciDevice :=
  let sel := device.virtio.queueSelector.toNat
  match write.offset with
  | virtioPciGuestFeatures =>
      virtioSetGuestFeatures device write.data.toUInt64
  | virtioPciQueuePfn =>
      if write.data ≠ 0 then
        virtioPciInitVq ops write
          (modifyVq ops device sel fun queue =>
            { queue with
              vringAddr := VringAddr.ofLegacy write.data 4096 4096 })
          sel
      else
        virtioPciExitVq ops device sel
  | virtioPciQueueSel =>
      if ops.vqCount ≤ write.read16.toNat then
        device
      else
        device.modify fun vpci =>
          { vpci with queueSelector := write.read16 }
  | virtioPciStatus =>
      let stored :=
        device.modify fun vpci => { vpci with status := write.read8 }
      let sampled :=
        if write.read8 = 0 then
          { stored with endian := write.endianness }
        else
          stored
      (virtioNotifyStatus (virtioPciReset ops) sampled write.read8).1
  | _ => virtioPciSpecificDataOut device write

/-- `VIRTIO_PCI_COMMON_DFSELECT`. -/
@[match_pattern] def virtioPciCommonDfselect : Nat := 0

/-- `VIRTIO_PCI_COMMON_GFSELECT`. -/
@[match_pattern] def virtioPciCommonGfselect : Nat := 8

/-- `VIRTIO_PCI_COMMON_GF`. -/
@[match_pattern] def virtioPciCommonGf : Nat := 12

/-- `VIRTIO_PCI_COMMON_MSIX`. -/
@[match_pattern] def virtioPciCommonMsix : Nat := 16

/-- `VIRTIO_PCI_COMMON_STATUS`. -/
@[match_pattern] def virtioPciCommonStatus : Nat := 20

/-- `VIRTIO_PCI_COMMON_Q_SELECT`. -/
@[match_pattern] def virtioPciCommonQSelect : Nat := 22

/-- `VIRTIO_PCI_COMMON_Q_MSIX`. -/
@[match_pattern] def virtioPciCommonQMsix : Nat := 26

/-- `VIRTIO_PCI_COMMON_Q_ENABLE`. -/
@[match_pattern] def virtioPciCommonQEnable : Nat := 28

/-- `VIRTIO_PCI_COMMON_Q_DESCLO`. -/
@[match_pattern] def virtioPciCommonQDesclo : Nat := 32

/-- `VIRTIO_PCI_COMMON_Q_DESCHI`. -/
@[match_pattern] def virtioPciCommonQDeschi : Nat := 36

/-- `VIRTIO_PCI_COMMON_Q_AVAILLO`. -/
@[match_pattern] def virtioPciCommonQAvaillo : Nat := 40

/-- `VIRTIO_PCI_COMMON_Q_AVAILHI`. -/
@[match_pattern] def virtioPciCommonQAvailhi : Nat := 44

/-- `VIRTIO_PCI_COMMON_Q_USEDLO`. -/
@[match_pattern] def virtioPciCommonQUsedlo : Nat := 48

/-- `VIRTIO_PCI_COMMON_Q_USEDHI`. -/
@[match_pattern] def virtioPciCommonQUsedhi : Nat := 52

/-- Store one word of a queue's address. -/
def setAddr {Virtio : Type}
    (ops : VirtioOps) (device : VirtioDevice Virtio) (vq : Nat)
    (change : VringAddr → VringAddr) : VirtioDevice Virtio :=
  modifyVq ops device vq fun queue =>
    { queue with vringAddr := change queue.vringAddr }

/--
`virtio_pci__common_write`.  The result of `virtio_pci__add_msix_route` is
kept in an unsigned variable here, so that its error codes are stored as
interrupt numbers.
-/
def virtioPciCommonWrite
    (ops : VirtioOps) (device : PciDevice) (write : RegisterWrite) :
    PciDevice :=
  let sel := device.virtio.queueSelector.toNat
  let gsi := UInt32.ofInt (virtioPciAddMsixRoute write write.read16)
  match write.offset with
  | virtioPciCommonDfselect =>
      device.modify fun vpci => { vpci with deviceFeaturesSel := write.data }
  | virtioPciCommonGfselect =>
      device.modify fun vpci => { vpci with driverFeaturesSel := write.data }
  | virtioPciCommonGf =>
      if 1 < device.virtio.driverFeaturesSel then
        device
      else
        virtioSetGuestFeatures device
          (featureWord write.data device.virtio.driverFeaturesSel)
  | virtioPciCommonMsix =>
      device.modify fun vpci =>
        { vpci with
          configVector := write.read16
          configGsi := gsi }
  | virtioPciCommonStatus =>
      (virtioNotifyStatus (virtioPciReset ops)
        (device.modify fun vpci => { vpci with status := write.read8 })
        write.read8).1
  | virtioPciCommonQSelect =>
      if ops.vqCount ≤ write.read16.toNat then
        device
      else
        device.modify fun vpci =>
          { vpci with queueSelector := write.read16 }
  | virtioPciCommonQMsix =>
      device.modify fun vpci =>
        { vpci with
          vqVector := Function.update vpci.vqVector sel write.read16
          gsis := Function.update vpci.gsis sel gsi }
  | virtioPciCommonQEnable =>
      if write.read16 ≠ 0 then
        virtioPciInitVq ops write device sel
      else
        virtioPciExitVq ops device sel
  | virtioPciCommonQDesclo =>
      setAddr ops device sel fun addr => { addr with descLo := write.data }
  | virtioPciCommonQDeschi =>
      setAddr ops device sel fun addr => { addr with descHi := write.data }
  | virtioPciCommonQAvaillo =>
      setAddr ops device sel fun addr => { addr with availLo := write.data }
  | virtioPciCommonQAvailhi =>
      setAddr ops device sel fun addr => { addr with availHi := write.data }
  | virtioPciCommonQUsedlo =>
      setAddr ops device sel fun addr => { addr with usedLo := write.data }
  | virtioPciCommonQUsedhi =>
      setAddr ops device sel fun addr => { addr with usedHi := write.data }
  | _ => device

/-! ## MMIO -/

/-- The fields of `struct virtio_mmio_hdr` that writes reach. -/
structure VirtioMmioHdr where
  hostFeaturesSel : UInt32
  guestFeaturesSel : UInt32
  guestPageSize : UInt32
  queueSel : UInt32
  queueNum : UInt32
  queueAlign : UInt32
  interruptState : UInt32
  status : UInt32
deriving DecidableEq, Repr

/-- `virtio_mmio_init`, on memory that `calloc` returned. -/
def virtioMmioInit : VirtioMmioHdr :=
  ⟨0, 0, 0, 0, 0, 0, 0, 0⟩

/-- A device with memory mapped registers. -/
abbrev MmioDevice := VirtioDevice VirtioMmioHdr

/-- Write a field of the register header. -/
def MmioDevice.modify
    (device : MmioDevice) (change : VirtioMmioHdr → VirtioMmioHdr) :
    MmioDevice :=
  { device with virtio := change device.virtio }

/--
`virtio_mmio_init_vq`.  The event descriptor is recorded in an array before
the queue itself is looked up.
-/
def virtioMmioInitVq
    (ops : VirtioOps) (write : RegisterWrite)
    (device : MmioDevice) (vq : Nat) : MmioDevice :=
  if virtioMaxVq ≤ vq then
    { device with strayed := true }
  else if write.eventfdAdded then
    virtioInitDeviceVq ops device vq
  else
    device

/-- `virtio_mmio_exit_vq`. -/
def virtioMmioExitVq
    (ops : VirtioOps) (device : MmioDevice) (vq : Nat) : MmioDevice :=
  virtioExitVq ops device vq

/-- `virtio_mmio_reset`. -/
def virtioMmioReset (ops : VirtioOps) (device : MmioDevice) : MmioDevice :=
  (List.range ops.vqCount).foldl (virtioMmioExitVq ops) device

/-- `VIRTIO_MMIO_DEVICE_FEATURES_SEL`. -/
@[match_pattern] def virtioMmioDeviceFeaturesSel : Nat := 0x14

/-- `VIRTIO_MMIO_DRIVER_FEATURES`. -/
@[match_pattern] def virtioMmioDriverFeatures : Nat := 0x20

/-- `VIRTIO_MMIO_DRIVER_FEATURES_SEL`. -/
@[match_pattern] def virtioMmioDriverFeaturesSel : Nat := 0x24

/-- `VIRTIO_MMIO_GUEST_PAGE_SIZE`. -/
@[match_pattern] def virtioMmioGuestPageSize : Nat := 0x28

/-- `VIRTIO_MMIO_QUEUE_SEL`. -/
@[match_pattern] def virtioMmioQueueSel : Nat := 0x30

/-- `VIRTIO_MMIO_QUEUE_NUM`. -/
@[match_pattern] def virtioMmioQueueNum : Nat := 0x38

/-- `VIRTIO_MMIO_QUEUE_ALIGN`. -/
@[match_pattern] def virtioMmioQueueAlign : Nat := 0x3c

/-- `VIRTIO_MMIO_QUEUE_PFN`. -/
@[match_pattern] def virtioMmioQueuePfn : Nat := 0x40

/-- `VIRTIO_MMIO_QUEUE_READY`. -/
@[match_pattern] def virtioMmioQueueReady : Nat := 0x44

/-- `VIRTIO_MMIO_INTERRUPT_ACK`. -/
@[match_pattern] def virtioMmioInterruptAck : Nat := 0x64

/-- `VIRTIO_MMIO_STATUS`. -/
@[match_pattern] def virtioMmioStatus : Nat := 0x70

/-- `VIRTIO_MMIO_QUEUE_DESC_LOW`. -/
@[match_pattern] def virtioMmioQueueDescLow : Nat := 0x80

/-- `VIRTIO_MMIO_QUEUE_DESC_HIGH`. -/
@[match_pattern] def virtioMmioQueueDescHigh : Nat := 0x84

/-- `VIRTIO_MMIO_QUEUE_AVAIL_LOW`. -/
@[match_pattern] def virtioMmioQueueAvailLow : Nat := 0x90

/-- `VIRTIO_MMIO_QUEUE_AVAIL_HIGH`. -/
@[match_pattern] def virtioMmioQueueAvailHigh : Nat := 0x94

/-- `VIRTIO_MMIO_QUEUE_USED_LOW`. -/
@[match_pattern] def virtioMmioQueueUsedLow : Nat := 0xa0

/-- `VIRTIO_MMIO_QUEUE_USED_HIGH`. -/
@[match_pattern] def virtioMmioQueueUsedHigh : Nat := 0xa4

/-- `virtio_mmio_config_out` of the legacy layout. -/
def virtioMmioLegacyConfigOut
    (ops : VirtioOps) (device : MmioDevice) (write : RegisterWrite) :
    MmioDevice :=
  let sel := device.virtio.queueSel.toNat
  match write.offset with
  | virtioMmioDeviceFeaturesSel =>
      device.modify fun hdr => { hdr with hostFeaturesSel := write.data }
  | virtioMmioDriverFeaturesSel =>
      device.modify fun hdr => { hdr with guestFeaturesSel := write.data }
  | virtioMmioQueueSel =>
      if ops.vqCount ≤ write.data.toNat then
        device
      else
        device.modify fun hdr => { hdr with queueSel := write.data }
  | virtioMmioStatus =>
      let stored :=
        device.modify fun hdr => { hdr with status := write.data }
      let sampled :=
        if write.data = 0 then
          { stored with endian := write.endianness }
        else
          stored
      (virtioNotifyStatus (virtioMmioReset ops) sampled write.read8).1
  | virtioMmioDriverFeatures =>
      if device.virtio.guestFeaturesSel = 0 then
        virtioSetGuestFeatures device write.data.toUInt64
      else
        device
  | virtioMmioGuestPageSize =>
      device.modify fun hdr => { hdr with guestPageSize := write.data }
  | virtioMmioQueueNum =>
      device.modify fun hdr => { hdr with queueNum := write.data }
  | virtioMmioQueueAlign =>
      device.modify fun hdr => { hdr with queueAlign := write.data }
  | virtioMmioQueuePfn =>
      if write.data ≠ 0 then
        virtioMmioInitVq ops write
          (modifyVq ops device sel fun queue =>
            { queue with
              vringAddr :=
                VringAddr.ofLegacy write.data
                  device.virtio.queueAlign device.virtio.guestPageSize })
          sel
      else
        virtioMmioExitVq ops device sel
  | virtioMmioInterruptAck =>
      device.modify fun hdr =>
        { hdr with interruptState := hdr.interruptState &&& ~~~write.data }
  | _ => device

/--
`virtio_mmio_config_out` of the modern layout.  The queue selector is stored
without a comparison with the number of queues.
-/
def virtioMmioModernConfigOut
    (ops : VirtioOps) (device : MmioDevice) (write : RegisterWrite) :
    MmioDevice :=
  let sel := device.virtio.queueSel.toNat
  match write.offset with
  | virtioMmioDeviceFeaturesSel =>
      device.modify fun hdr => { hdr with hostFeaturesSel := write.data }
  | virtioMmioDriverFeaturesSel =>
      device.modify fun hdr => { hdr with guestFeaturesSel := write.data }
  | virtioMmioQueueSel =>
      device.modify fun hdr => { hdr with queueSel := write.data }
  | virtioMmioStatus =>
      (virtioNotifyStatus (virtioMmioReset ops)
        (device.modify fun hdr => { hdr with status := write.data })
        write.read8).1
  | virtioMmioDriverFeatures =>
      if 1 < device.virtio.guestFeaturesSel then
        device
      else
        virtioSetGuestFeatures device
          (featureWord write.data device.virtio.guestFeaturesSel)
  | virtioMmioQueueNum =>
      device.modify fun hdr => { hdr with queueNum := write.data }
  | virtioMmioQueueReady =>
      if write.data ≠ 0 then
        virtioMmioInitVq ops write device sel
      else
        virtioMmioExitVq ops device sel
  | virtioMmioInterruptAck =>
      device.modify fun hdr =>
        { hdr with interruptState := hdr.interruptState &&& ~~~write.data }
  | virtioMmioQueueDescLow =>
      setAddr ops device sel fun addr => { addr with descLo := write.data }
  | virtioMmioQueueDescHigh =>
      setAddr ops device sel fun addr => { addr with descHi := write.data }
  | virtioMmioQueueUsedLow =>
      setAddr ops device sel fun addr => { addr with usedLo := write.data }
  | virtioMmioQueueUsedHigh =>
      setAddr ops device sel fun addr => { addr with usedHi := write.data }
  | virtioMmioQueueAvailLow =>
      setAddr ops device sel fun addr => { addr with availLo := write.data }
  | virtioMmioQueueAvailHigh =>
      setAddr ops device sel fun addr => { addr with availHi := write.data }
  | _ => device

/-- A modern register takes accesses of four bytes only. -/
def virtioMmioModernCallback
    (ops : VirtioOps) (device : MmioDevice) (write : RegisterWrite) :
    MmioDevice :=
  if write.len ≠ 4 then
    device
  else
    virtioMmioModernConfigOut ops device write

/-! ## What a reset leaves -/

/-- A table with the entries of a list replaced by one value. -/
def wipe {Entry : Type}
    (table : Nat → Entry) (vqs : List Nat) (entry : Entry) : Nat → Entry :=
  fun vq => if vq ∈ vqs then entry else table vq

@[simp]
theorem wipe_nil {Entry : Type} (table : Nat → Entry) (entry : Entry) :
    wipe table [] entry = table := by
  funext vq
  simp [wipe]

theorem wipe_update {Entry : Type}
    (table : Nat → Entry) (first : Nat) (rest : List Nat)
    (entry : Entry) :
    wipe (Function.update table first entry) rest entry =
      wipe table (first :: rest) entry := by
  funext vq
  by_cases isFirst : vq = first <;> simp [wipe, isFirst]

theorem wipe_range {Entry : Type} {count vq : Nat}
    (inRange : vq < count) (table : Nat → Entry) (entry : Entry) :
    wipe table (List.range count) entry vq = entry := by
  simp [wipe, inRange]

/-- The queues of a list are taken down one after the other. -/
theorem foldl_virtioPciExitVq
    {ops : VirtioOps} {vqs : List Nat}
    (inRange : ∀ vq ∈ vqs, vq < ops.vqCount) (device : PciDevice) :
    vqs.foldl (virtioPciExitVq ops) device =
      { device with
        queues := wipe device.queues vqs zeroQueue
        virtio :=
          { device.virtio with
            gsis := wipe device.virtio.gsis vqs 0
            vqVector :=
              wipe device.virtio.vqVector vqs virtioMsiNoVector } } := by
  induction vqs generalizing device with
  | nil => simp
  | cons first rest induction =>
      obtain ⟨here, others⟩ := List.forall_mem_cons.mp inRange
      rw [List.foldl_cons, induction others, virtioPciExitVq,
        virtioExitVq, modifyVq_of_lt ops _ _ here]
      simp only [PciDevice.modify, wipe_update]

theorem virtioPciReset_eq (ops : VirtioOps) (device : PciDevice) :
    virtioPciReset ops device =
      { device with
        queues := wipe device.queues (List.range ops.vqCount) zeroQueue
        virtio :=
          { device.virtio with
            configGsi := 0
            configVector := virtioMsiNoVector
            gsis := wipe device.virtio.gsis (List.range ops.vqCount) 0
            vqVector :=
              wipe device.virtio.vqVector (List.range ops.vqCount)
                virtioMsiNoVector } } :=
  foldl_virtioPciExitVq (fun _ member => List.mem_range.mp member) _

/-- The queues of a list are taken down one after the other. -/
theorem foldl_virtioMmioExitVq
    {ops : VirtioOps} {vqs : List Nat}
    (inRange : ∀ vq ∈ vqs, vq < ops.vqCount) (device : MmioDevice) :
    vqs.foldl (virtioMmioExitVq ops) device =
      { device with queues := wipe device.queues vqs zeroQueue } := by
  induction vqs generalizing device with
  | nil => simp
  | cons first rest induction =>
      obtain ⟨here, others⟩ := List.forall_mem_cons.mp inRange
      rw [List.foldl_cons, induction others, virtioMmioExitVq,
        virtioExitVq, modifyVq_of_lt ops _ _ here]
      simp only [wipe_update]

theorem virtioMmioReset_eq (ops : VirtioOps) (device : MmioDevice) :
    virtioMmioReset ops device =
      { device with
        queues := wipe device.queues (List.range ops.vqCount) zeroQueue } :=
  foldl_virtioMmioExitVq (fun _ member => List.mem_range.mp member) _

end Kemu.Virtio.Transport
