import Kemu.Lib.Transition
import Kemu.Virtio.Transport

/-!
# Reset and feature negotiation

A session is a device on one of the four transports together with the
requests the guest has made of it so far: the feature words it wrote and the
resets it asked for.  Two things are expected in every state of a session.
Writing a zero status brings the device back to the state it started in, and
its feature word is what the guest wrote last, word by word, since it last
asked for a reset.

`virtio_set_guest_features` only adds bits and nothing takes them away, and
the queues and vectors are wiped only when the device was running.  The main
theorem says exactly which sessions are still as expected.
-/

namespace Kemu.Virtio.Negotiation

open Kemu.Lib.Transition
open Kemu.Virtio.Ring
open Kemu.Virtio.Core
open Kemu.Virtio.Transport

/-! ## One device on any transport -/

/-- What a transport's `virtio` pointer points to. -/
abbrev Record : VirtioTrans → Type
  | .pci | .pciLegacy => VirtioPci
  | .mmio | .mmioLegacy => VirtioMmioHdr

/-- `VIRTIO_ENDIAN_LE`. -/
def virtioEndianLe : UInt16 := 1

/-- `virtio_init`, on a device record that is zero. -/
def virtioInit : (trans : VirtioTrans) → VirtioDevice (Record trans)
  | .pci =>
      ⟨false, virtioEndianLe, 0, 0, fun _ => zeroQueue, false,
        virtioPciInit⟩
  | .pciLegacy =>
      ⟨true, 0, 0, 0, fun _ => zeroQueue, false, virtioPciInit⟩
  | .mmio =>
      ⟨false, virtioEndianLe, 0, 0, fun _ => zeroQueue, false,
        virtioMmioInit⟩
  | .mmioLegacy =>
      ⟨true, 0, 0, 0, fun _ => zeroQueue, false, virtioMmioInit⟩

/-- The callback a transport registers for writes to its registers. -/
def callback (ops : VirtioOps) :
    (trans : VirtioTrans) → VirtioDevice (Record trans) →
      RegisterWrite → VirtioDevice (Record trans)
  | .pci => virtioPciCommonWrite ops
  | .pciLegacy => virtioPciDataOut ops
  | .mmio => virtioMmioModernCallback ops
  | .mmioLegacy => virtioMmioLegacyConfigOut ops

/-- The offset of the status register. -/
def statusOffset : VirtioTrans → Nat
  | .pci => virtioPciCommonStatus
  | .pciLegacy => virtioPciStatus
  | .mmio | .mmioLegacy => virtioMmioStatus

/-- A write of zero to the status register. -/
def zeroStatus (trans : VirtioTrans) (endianness : UInt16) :
    RegisterWrite :=
  { offset := statusOffset trans
    data := 0
    len := 4
    endianness := endianness
    eventfdAdded := true
    route := none }

/-- Enabling message interrupts in the PCI configuration space. -/
def setMsixEnabled :
    (trans : VirtioTrans) → VirtioDevice (Record trans) → Bool →
      VirtioDevice (Record trans)
  | .pci, device, enabled =>
      PciDevice.modify device fun vpci => { vpci with msixEnabled := enabled }
  | .pciLegacy, device, enabled =>
      PciDevice.modify device fun vpci => { vpci with msixEnabled := enabled }
  | .mmio, device, _ => device
  | .mmioLegacy, device, _ => device

/-- What happens to a device between two states. -/
inductive Action where
  | write (write : RegisterWrite)
  | msixControl (enabled : Bool)
  | traffic (vq : Nat) (lastAvailIdx lastUsedSignalled : UInt16)
deriving DecidableEq, Repr

/-- The device's threads move the private indices of a running queue. -/
def moveIndices {Virtio : Type}
    (device : VirtioDevice Virtio) (vq : Nat)
    (lastAvailIdx lastUsedSignalled : UInt16) : VirtioDevice Virtio :=
  if (device.queues vq).enabled then
    { device with
      queues :=
        Function.update device.queues vq
          { device.queues vq with
            lastAvailIdx := lastAvailIdx
            lastUsedSignalled := lastUsedSignalled } }
  else
    device

/-- One action on a device. -/
def act (ops : VirtioOps) (trans : VirtioTrans)
    (device : VirtioDevice (Record trans)) :
    Action → VirtioDevice (Record trans)
  | .write write => callback ops trans device write
  | .msixControl enabled => setMsixEnabled trans device enabled
  | .traffic vq lastAvailIdx lastUsedSignalled =>
      moveIndices device vq lastAvailIdx lastUsedSignalled

/-! ## What the guest asks for -/

/-- A feature word, low or high, or a reset. -/
inductive Request where
  | features (sel word : UInt32)
  | reset
deriving DecidableEq, Repr

/-- The offset of the register that takes feature words. -/
def featuresOffset : VirtioTrans → Nat
  | .pci => virtioPciCommonGf
  | .pciLegacy => virtioPciGuestFeatures
  | .mmio | .mmioLegacy => virtioMmioDriverFeatures

/-- The feature word selected for writing. -/
def featuresSel :
    (trans : VirtioTrans) → VirtioDevice (Record trans) → UInt32
  | .pci, device => VirtioPci.driverFeaturesSel device.virtio
  | .pciLegacy, _ => 0
  | .mmio, device => VirtioMmioHdr.guestFeaturesSel device.virtio
  | .mmioLegacy, device => VirtioMmioHdr.guestFeaturesSel device.virtio

/-- The number of feature words a transport has room for. -/
def featureWords : VirtioTrans → UInt32
  | .pci | .mmio => 2
  | .pciLegacy | .mmioLegacy => 1

/-- The size of an access is one the transport takes. -/
def sizeTaken : VirtioTrans → RegisterWrite → Bool
  | .mmio, write => write.len == 4
  | .pci, _ | .pciLegacy, _ | .mmioLegacy, _ => true

/-- The request a register write stands for, if any. -/
def requestOfWrite (trans : VirtioTrans)
    (device : VirtioDevice (Record trans)) (write : RegisterWrite) :
    Option Request :=
  if sizeTaken trans write then
    if write.offset = featuresOffset trans then
      if featuresSel trans device < featureWords trans then
        some (.features (featuresSel trans device) write.data)
      else
        none
    else if write.offset = statusOffset trans ∧ write.read8 = 0 then
      some .reset
    else
      none
  else
    none

/-- The request an action stands for, if any. -/
def requestOf (trans : VirtioTrans)
    (device : VirtioDevice (Record trans)) : Action → Option Request
  | .write write => requestOfWrite trans device write
  | .msixControl _ => none
  | .traffic _ _ _ => none

/-- The feature bits a request names, each at its place. -/
def Request.bits : Request → UInt64
  | .features sel word => featureWord word sel
  | .reset => 0

/-- A low and a high feature word, each at its place. -/
structure Words where
  low : UInt64
  high : UInt64
deriving DecidableEq, Repr

/-- The feature word that two halves make up. -/
def Words.union (words : Words) : UInt64 :=
  words.low ||| words.high

/-- A feature word replaces the half it is for, a reset both. -/
def Words.update (words : Words) : Request → Words
  | .features sel word =>
      if sel = 0 then
        { words with low := featureWord word sel }
      else
        { words with high := featureWord word sel }
  | .reset => ⟨0, 0⟩

/-- The words the guest wrote last since it last asked for a reset. -/
def writtenLast (history : List Request) : UInt64 :=
  (history.foldl Words.update ⟨0, 0⟩).union

/-! ## Sessions -/

/-- A device with the requests made of it, oldest first. -/
structure Session (trans : VirtioTrans) where
  device : VirtioDevice (Record trans)
  history : List Request

/-- A device that no register of has been written. -/
def Session.start (trans : VirtioTrans) : Session trans :=
  ⟨virtioInit trans, []⟩

/-- One action in a session. -/
def Session.step (ops : VirtioOps) (trans : VirtioTrans)
    (session : Session trans) (action : Action) : Session trans :=
  { device := act ops trans session.device action
    history :=
      session.history ++ (requestOf trans session.device action).toList }

/-- No interrupt vector is assigned to a queue or to the configuration. -/
def VectorsUnassigned (ops : VirtioOps) :
    (trans : VirtioTrans) → Record trans → Prop
  | .pci, vpci | .pciLegacy, vpci =>
      VirtioPci.configVector vpci = virtioMsiNoVector ∧
        ∀ vq < ops.vqCount,
          VirtioPci.vqVector vpci vq = virtioMsiNoVector
  | .mmio, _ | .mmioLegacy, _ => True

/-- Every queue is as it was created, and no vector is assigned. -/
def Unconfigured (ops : VirtioOps) (trans : VirtioTrans)
    (device : VirtioDevice (Record trans)) : Prop :=
  (∀ vq < ops.vqCount, device.queues vq = zeroQueue) ∧
    VectorsUnassigned ops trans device.virtio

/-- The state a device starts in, as far as a driver relies on it. -/
structure AtStart (ops : VirtioOps) (trans : VirtioTrans)
    (device : VirtioDevice (Record trans)) : Prop where
  intact : device.strayed = false
  stopped : ¬ Started device
  noFeatures : device.features = 0
  unconfigured : Unconfigured ops trans device

/-- A zero status brings the device back to its start. -/
def ResetsToStart (ops : VirtioOps) (trans : VirtioTrans)
    (device : VirtioDevice (Record trans)) : Prop :=
  ∀ endianness,
    AtStart ops trans
      (callback ops trans device (zeroStatus trans endianness))

/-- The feature word is what the guest wrote last. -/
def FeaturesAsWritten {trans : VirtioTrans} (session : Session trans) :
    Prop :=
  session.device.strayed = false ∧
    session.device.features = writtenLast session.history


/-! ## What one action does -/

/-- The selected queue is one of the device's; not checked on modern MMIO. -/
def SelectorInRange (ops : VirtioOps) :
    (trans : VirtioTrans) → Record trans → Prop
  | .pci, vpci | .pciLegacy, vpci =>
      (VirtioPci.queueSelector vpci).toNat < ops.vqCount
  | .mmio, _ => True
  | .mmioLegacy, hdr =>
      (VirtioMmioHdr.queueSel hdr).toNat < ops.vqCount

/-- The write looks up the record of the selected queue. -/
def looksUpQueue (sel : Nat) (write : RegisterWrite) : Bool :=
  match write.offset with
  | virtioMmioQueueReady =>
      write.data == 0 || write.eventfdAdded || decide (virtioMaxVq ≤ sel)
  | virtioMmioQueueDescLow => true
  | virtioMmioQueueDescHigh => true
  | virtioMmioQueueAvailLow => true
  | virtioMmioQueueAvailHigh => true
  | virtioMmioQueueUsedLow => true
  | virtioMmioQueueUsedHigh => true
  | _ => false

/-- The action accesses a queue that the device does not have. -/
def strays (ops : VirtioOps) :
    (trans : VirtioTrans) → VirtioDevice (Record trans) → Action → Bool
  | .mmio, device, .write write =>
      let sel := (VirtioMmioHdr.queueSel device.virtio).toNat
      write.len == 4 && looksUpQueue sel write &&
        decide (ops.vqCount ≤ sel)
  | _, _, _ => false

/-- The bits of an optional request. -/
def bitsOf (request : Option Request) : UInt64 :=
  request.elim 0 Request.bits

/-- What one action does to the words every transport shares. -/
structure Effect (ops : VirtioOps) (trans : VirtioTrans)
    (before : VirtioDevice (Record trans)) (action : Action)
    (after : VirtioDevice (Record trans)) : Prop where
  features :
    after.features =
      before.features ||| bitsOf (requestOf trans before action)
  strayed :
    SelectorInRange ops trans before.virtio →
      after.strayed = (before.strayed || strays ops trans before action)
  selector :
    SelectorInRange ops trans before.virtio →
      SelectorInRange ops trans after.virtio

@[simp]
theorem bitsOf_none : bitsOf none = 0 :=
  rfl

@[simp]
theorem bitsOf_reset : bitsOf (some .reset) = 0 :=
  rfl

@[simp]
theorem bitsOf_features (sel word : UInt32) :
    bitsOf (some (.features sel word)) = featureWord word sel :=
  rfl

/-! ### Writes that are no feature words -/

section Kept

variable {Virtio : Type} {ops : VirtioOps} {selector : Virtio → Nat}

/--
The feature word is as before; and as long as the selected queue is one of
the device's, it remains so and no other is accessed.
-/
structure Kept (ops : VirtioOps) (selector : Virtio → Nat)
    (before after : VirtioDevice Virtio) : Prop where
  features : after.features = before.features
  strayed :
    selector before.virtio < ops.vqCount →
      after.strayed = before.strayed
  selected :
    selector before.virtio < ops.vqCount →
      selector after.virtio < ops.vqCount

theorem Kept.trans {first second third : VirtioDevice Virtio}
    (earlier : Kept ops selector first second)
    (later : Kept ops selector second third) :
    Kept ops selector first third := by
  refine ⟨later.features.trans earlier.features, fun inRange => ?_,
    fun inRange => later.selected (earlier.selected inRange)⟩
  rw [later.strayed (earlier.selected inRange), earlier.strayed inRange]

theorem Kept.modifyVq
    {device : VirtioDevice Virtio} {vq : Nat}
    (isSelected : vq = selector device.virtio)
    (change : VirtQueue → VirtQueue) :
    Kept ops selector device (modifyVq ops device vq change) := by
  refine ⟨modifyVq_features .., fun inRange => ?_, fun inRange => ?_⟩
  · simp [isSelected, inRange]
  · simpa using inRange

theorem Kept.notifyStatus
    {reset : VirtioDevice Virtio → VirtioDevice Virtio}
    (keptByReset : ∀ device, Kept ops selector device (reset device))
    (device : VirtioDevice Virtio) (status : UInt8) :
    Kept ops selector device (virtioNotifyStatus reset device status).1 := by
  obtain ⟨word, same | wiped⟩ :=
    virtioNotifyStatus_cases reset device status
  · rw [same]
    exact ⟨rfl, fun _ => rfl, id⟩
  · have relabelled :
        Kept ops selector device { device with status := word } :=
      ⟨rfl, fun _ => rfl, id⟩
    rw [wiped]
    exact relabelled.trans (keptByReset _)

end Kept

section Pci

variable {ops : VirtioOps} {device : PciDevice} {write : RegisterWrite}

/-- The selected queue on PCI. -/
def pciSelector (vpci : VirtioPci) : Nat :=
  vpci.queueSelector.toNat

theorem pciModify_kept
    {change : VirtioPci → VirtioPci}
    (same : pciSelector (change device.virtio) = pciSelector device.virtio) :
    Kept ops pciSelector device (device.modify change) := by
  refine ⟨rfl, fun _ => rfl, fun inRange => ?_⟩
  simpa [PciDevice.modify, same] using inRange

theorem virtioPciInitVq_kept
    {vq : Nat} (isSelected : vq = pciSelector device.virtio) :
    Kept ops pciSelector device (virtioPciInitVq ops write device vq) := by
  unfold virtioPciInitVq
  split
  · exact Kept.modifyVq isSelected _
  · exact ⟨rfl, fun _ => rfl, id⟩

theorem virtioPciExitVq_kept
    {vq : Nat} (isSelected : vq = pciSelector device.virtio) :
    Kept ops pciSelector device (virtioPciExitVq ops device vq) := by
  unfold virtioPciExitVq virtioExitVq
  refine Kept.trans ?_ (Kept.modifyVq ?_ _)
  · exact pciModify_kept rfl
  · exact isSelected

theorem virtioPciReset_kept (device : PciDevice) :
    Kept ops pciSelector device (virtioPciReset ops device) := by
  rw [virtioPciReset_eq]
  exact ⟨rfl, fun _ => rfl, id⟩

theorem pciSelect_kept (sel : UInt16) :
    Kept ops pciSelector device
      (if ops.vqCount ≤ sel.toNat then
        device
      else
        device.modify fun vpci => { vpci with queueSelector := sel }) := by
  split
  · exact ⟨rfl, fun _ => rfl, id⟩
  · rename_i inRange
    exact ⟨rfl, fun _ => rfl, fun _ => Nat.not_le.mp inRange⟩

theorem virtioPciCommonWrite_kept
    (notFeatures : write.offset ≠ virtioPciCommonGf) :
    Kept ops pciSelector device (virtioPciCommonWrite ops device write) := by
  unfold virtioPciCommonWrite
  dsimp only
  split
  · exact pciModify_kept rfl
  · exact pciModify_kept rfl
  · contradiction
  · exact pciModify_kept rfl
  · exact Kept.trans (pciModify_kept rfl)
      (Kept.notifyStatus virtioPciReset_kept _ _)
  · exact pciSelect_kept _
  · exact pciModify_kept rfl
  · split
    · exact virtioPciInitVq_kept rfl
    · exact virtioPciExitVq_kept rfl
  · exact Kept.modifyVq rfl _
  · exact Kept.modifyVq rfl _
  · exact Kept.modifyVq rfl _
  · exact Kept.modifyVq rfl _
  · exact Kept.modifyVq rfl _
  · exact Kept.modifyVq rfl _
  · exact ⟨rfl, fun _ => rfl, id⟩

theorem virtioPciSpecificDataOut_kept :
    Kept ops pciSelector device (virtioPciSpecificDataOut device write) := by
  unfold virtioPciSpecificDataOut
  split
  · exact ⟨rfl, fun _ => rfl, id⟩
  · dsimp only
    split
    · exact pciModify_kept rfl
    · exact pciModify_kept rfl
    · exact ⟨rfl, fun _ => rfl, id⟩

theorem virtioPciDataOut_kept
    (notFeatures : write.offset ≠ virtioPciGuestFeatures) :
    Kept ops pciSelector device (virtioPciDataOut ops device write) := by
  unfold virtioPciDataOut
  dsimp only
  split
  · contradiction
  · split
    · refine Kept.trans (Kept.modifyVq rfl _) (virtioPciInitVq_kept ?_)
      rw [modifyVq_virtio]
      rfl
    · exact virtioPciExitVq_kept rfl
  · exact pciSelect_kept _
  · refine Kept.trans ?_ (Kept.notifyStatus virtioPciReset_kept _ _)
    split
    · exact ⟨rfl, fun _ => rfl, id⟩
    · exact pciModify_kept rfl
  · exact virtioPciSpecificDataOut_kept

end Pci

section Mmio

variable {ops : VirtioOps} {device : MmioDevice} {write : RegisterWrite}

/-- The selected queue on MMIO. -/
def mmioSelector (hdr : VirtioMmioHdr) : Nat :=
  hdr.queueSel.toNat

theorem mmioModify_kept
    {change : VirtioMmioHdr → VirtioMmioHdr}
    (same :
      mmioSelector (change device.virtio) = mmioSelector device.virtio) :
    Kept ops mmioSelector device (device.modify change) := by
  refine ⟨rfl, fun _ => rfl, fun inRange => ?_⟩
  simpa [MmioDevice.modify, same] using inRange

theorem virtioMmioInitVq_kept
    {vq : Nat} (isSelected : vq = mmioSelector device.virtio) :
    Kept ops mmioSelector device (virtioMmioInitVq ops write device vq) := by
  unfold virtioMmioInitVq
  split
  · rename_i beyond
    refine ⟨rfl, fun inRange => ?_, id⟩
    have fits := ops.vqCount_le
    omega
  · split
    · exact Kept.modifyVq isSelected _
    · exact ⟨rfl, fun _ => rfl, id⟩

theorem virtioMmioReset_kept (device : MmioDevice) :
    Kept ops mmioSelector device (virtioMmioReset ops device) := by
  rw [virtioMmioReset_eq]
  exact ⟨rfl, fun _ => rfl, id⟩

theorem virtioMmioLegacyConfigOut_kept
    (notFeatures : write.offset ≠ virtioMmioDriverFeatures) :
    Kept ops mmioSelector device
      (virtioMmioLegacyConfigOut ops device write) := by
  unfold virtioMmioLegacyConfigOut
  dsimp only
  split
  · exact mmioModify_kept rfl
  · exact mmioModify_kept rfl
  · split
    · exact ⟨rfl, fun _ => rfl, id⟩
    · rename_i inRange
      exact ⟨rfl, fun _ => rfl, fun _ => Nat.not_le.mp inRange⟩
  · refine Kept.trans ?_ (Kept.notifyStatus virtioMmioReset_kept _ _)
    split
    · exact ⟨rfl, fun _ => rfl, id⟩
    · exact mmioModify_kept rfl
  · contradiction
  · exact mmioModify_kept rfl
  · exact mmioModify_kept rfl
  · exact mmioModify_kept rfl
  · split
    · refine Kept.trans (Kept.modifyVq rfl _) (virtioMmioInitVq_kept ?_)
      rw [modifyVq_virtio]
      rfl
    · unfold virtioMmioExitVq virtioExitVq
      exact Kept.modifyVq rfl _
  · exact mmioModify_kept rfl
  · exact ⟨rfl, fun _ => rfl, id⟩

theorem virtioMmioNotifyStatus_frame
    (device : MmioDevice) (status : UInt8) :
    let after := (virtioNotifyStatus (virtioMmioReset ops) device status).1
    after.features = device.features ∧ after.strayed = device.strayed := by
  obtain ⟨word, same | wiped⟩ :=
    virtioNotifyStatus_cases (virtioMmioReset ops) device status
  · simp [same]
  · simp [wiped, virtioMmioReset_eq]

theorem virtioMmioInitVq_frame (vq : Nat) :
    (virtioMmioInitVq ops write device vq).features = device.features ∧
      (virtioMmioInitVq ops write device vq).strayed =
        (device.strayed ||
          ((write.eventfdAdded || decide (virtioMaxVq ≤ vq)) &&
            decide (ops.vqCount ≤ vq))) := by
  unfold virtioMmioInitVq
  split
  · rename_i beyond
    have outside : ops.vqCount ≤ vq := ops.vqCount_le.trans beyond
    simp [beyond, outside]
  · rename_i within
    split
    · rename_i added
      simp [added]
    · rename_i refused
      simp [within, Bool.not_eq_true _ ▸ refused]

/-- On modern MMIO only a lookup beyond the device's queues strays. -/
theorem virtioMmioModernConfigOut_frame
    (ops : VirtioOps) (device : MmioDevice)
    (notFeatures : write.offset ≠ virtioMmioDriverFeatures) :
    (virtioMmioModernConfigOut ops device write).features =
        device.features ∧
      (virtioMmioModernConfigOut ops device write).strayed =
        (device.strayed ||
          (looksUpQueue device.virtio.queueSel.toNat write &&
            decide (ops.vqCount ≤ device.virtio.queueSel.toNat))) := by
  unfold virtioMmioModernConfigOut looksUpQueue
  dsimp only
  split
  case h_4 atStatus =>
      obtain ⟨sameFeatures, sameStrayed⟩ :=
        virtioMmioNotifyStatus_frame 
          (device.modify fun hdr => { hdr with status := write.data })
          write.read8
      refine ⟨sameFeatures, sameStrayed.trans ?_⟩
      simp [atStatus, MmioDevice.modify]
  case h_5 atFeatures =>
      contradiction
  case h_7 atReady =>
      split
      · rename_i enable
        have nonzero : (write.data == 0) = false := by
          simpa using enable
        simpa [atReady, nonzero] using
          virtioMmioInitVq_frame device.virtio.queueSel.toNat
      · rename_i disable
        have zero : write.data = 0 := not_not.mp disable
        simp [atReady, zero, virtioMmioExitVq]
  case h_15 =>
      simp [*]
  all_goals
    rename_i atOffset
    simp [atOffset, MmioDevice.modify, setAddr]

end Mmio

/-! ### Every action -/

section Effects

variable {ops : VirtioOps} {write : RegisterWrite}

theorem lt_two_iff (sel : UInt32) : sel < 2 ↔ ¬ 1 < sel := by
  simp only [UInt32.lt_iff_toNat_lt, UInt32.reduceToNat]
  omega

theorem lt_one_iff (sel : UInt32) : sel < 1 ↔ sel = 0 := by
  simp only [UInt32.lt_iff_toNat_lt, ← UInt32.toNat_inj,
    UInt32.reduceToNat]
  omega

/-- A selected word the transport has room for is added to the features. -/
theorem callback_features_word
    {trans : VirtioTrans} {device : VirtioDevice (Record trans)}
    (taken : sizeTaken trans write = true)
    (atFeatures : write.offset = featuresOffset trans)
    (room : featuresSel trans device < featureWords trans) :
    callback ops trans device write =
      virtioSetGuestFeatures device
        (featureWord write.data (featuresSel trans device)) := by
  cases trans with
  | pci =>
      have low : ¬ 1 < VirtioPci.driverFeaturesSel device.virtio :=
        (lt_two_iff _).mp room
      simp [callback, virtioPciCommonWrite, atFeatures, featuresOffset,
        featuresSel, low, virtioPciCommonGf]
  | pciLegacy =>
      simp [callback, virtioPciDataOut, atFeatures, featuresOffset,
        featuresSel, featureWord, virtioPciGuestFeatures]
  | mmio =>
      have low : ¬ 1 < VirtioMmioHdr.guestFeaturesSel device.virtio :=
        (lt_two_iff _).mp room
      have size : write.len = 4 := by simpa [sizeTaken] using taken
      simp [callback, virtioMmioModernCallback, virtioMmioModernConfigOut,
        size, atFeatures, featuresOffset, featuresSel, low,
        virtioMmioDriverFeatures]
  | mmioLegacy =>
      have zero : VirtioMmioHdr.guestFeaturesSel device.virtio = 0 :=
        (lt_one_iff _).mp room
      simp [callback, virtioMmioLegacyConfigOut, atFeatures, featuresOffset,
        featuresSel, zero, featureWord, virtioMmioDriverFeatures]

/-- A word it has no room for is ignored. -/
theorem callback_features_ignored
    {trans : VirtioTrans} {device : VirtioDevice (Record trans)}
    (atFeatures : write.offset = featuresOffset trans)
    (noRoom : ¬ featuresSel trans device < featureWords trans) :
    callback ops trans device write = device := by
  cases trans with
  | pci =>
      have high : 1 < VirtioPci.driverFeaturesSel device.virtio :=
        not_not.mp (mt (lt_two_iff _).mpr noRoom)
      simp [callback, virtioPciCommonWrite, atFeatures, featuresOffset,
        high, virtioPciCommonGf]
  | pciLegacy => exact absurd ((lt_one_iff 0).mpr rfl) noRoom
  | mmio =>
      have high : 1 < VirtioMmioHdr.guestFeaturesSel device.virtio :=
        not_not.mp (mt (lt_two_iff _).mpr noRoom)
      simp [callback, virtioMmioModernCallback, virtioMmioModernConfigOut,
        atFeatures, featuresOffset, high, virtioMmioDriverFeatures]
  | mmioLegacy =>
      have nonzero : VirtioMmioHdr.guestFeaturesSel device.virtio ≠ 0 :=
        mt (lt_one_iff _).mpr noRoom
      simp [callback, virtioMmioLegacyConfigOut, atFeatures, featuresOffset,
        nonzero, virtioMmioDriverFeatures]

/-- At the feature register no queue is accessed. -/
theorem not_strays_at_features
    (ops : VirtioOps) {trans : VirtioTrans}
    (device : VirtioDevice (Record trans))
    (atFeatures : write.offset = featuresOffset trans) :
    strays ops trans device (.write write) = false := by
  cases trans with
  | mmio =>
      simp [strays, looksUpQueue, atFeatures, featuresOffset,
        virtioMmioDriverFeatures]
  | pci | pciLegacy | mmioLegacy => rfl

/-- An access of another size has no effect. -/
theorem callback_not_taken
    {trans : VirtioTrans} {device : VirtioDevice (Record trans)}
    (refused : sizeTaken trans write = false) :
    callback ops trans device write = device := by
  cases trans with
  | mmio =>
      have size : write.len ≠ 4 := by simpa [sizeTaken] using refused
      simp [callback, virtioMmioModernCallback, size]
  | pci | pciLegacy | mmioLegacy => cases refused

theorem not_strays_not_taken
    (ops : VirtioOps) {trans : VirtioTrans}
    (device : VirtioDevice (Record trans))
    (refused : sizeTaken trans write = false) :
    strays ops trans device (.write write) = false := by
  cases trans with
  | mmio =>
      have size : (write.len == 4) = false := refused
      simp [strays, size]
  | pci | pciLegacy | mmioLegacy => rfl

/-- A write that leaves the features as they were. -/
theorem Effect.ofSame
    {trans : VirtioTrans} {before after : VirtioDevice (Record trans)}
    {action : Action}
    (noBits : bitsOf (requestOf trans before action) = 0)
    (features : after.features = before.features)
    (strayed :
      SelectorInRange ops trans before.virtio →
        after.strayed = (before.strayed || strays ops trans before action))
    (selector :
      SelectorInRange ops trans before.virtio →
        SelectorInRange ops trans after.virtio) :
    Effect ops trans before action after :=
  ⟨by rw [features, noBits, UInt64.or_zero], strayed, selector⟩

theorem bitsOf_elsewhere
    {trans : VirtioTrans} (device : VirtioDevice (Record trans))
    (elsewhere : write.offset ≠ featuresOffset trans) :
    bitsOf (requestOf trans device (.write write)) = 0 := by
  simp only [requestOf, requestOfWrite, elsewhere, if_false]
  split
  · split <;> rfl
  · rfl

theorem callback_effect_elsewhere
    {trans : VirtioTrans} {device : VirtioDevice (Record trans)}
    (elsewhere : write.offset ≠ featuresOffset trans) :
    Effect ops trans device (.write write)
      (callback ops trans device write) := by
  have noBits := bitsOf_elsewhere device elsewhere
  cases trans with
  | pci =>
      have kept : Kept ops pciSelector device _ :=
        virtioPciCommonWrite_kept elsewhere
      refine Effect.ofSame noBits kept.features (fun inRange => ?_)
        kept.selected
      exact (kept.strayed inRange).trans (Bool.or_false _).symm
  | pciLegacy =>
      have kept : Kept ops pciSelector device _ :=
        virtioPciDataOut_kept elsewhere
      refine Effect.ofSame noBits kept.features (fun inRange => ?_)
        kept.selected
      exact (kept.strayed inRange).trans (Bool.or_false _).symm
  | mmio =>
      have frame := virtioMmioModernConfigOut_frame ops device elsewhere
      by_cases size : write.len = 4
      · refine Effect.ofSame noBits ?_ (fun _ => ?_) (fun _ => trivial)
        · simpa [callback, virtioMmioModernCallback, size] using frame.1
        · simpa [callback, virtioMmioModernCallback, strays, size] using
            frame.2
      · refine Effect.ofSame noBits ?_ (fun _ => ?_) (fun _ => trivial)
        · simp [callback, virtioMmioModernCallback, size]
        · simp [callback, virtioMmioModernCallback, strays, size]
  | mmioLegacy =>
      have kept : Kept ops mmioSelector device _ :=
        virtioMmioLegacyConfigOut_kept elsewhere
      refine Effect.ofSame noBits kept.features (fun inRange => ?_)
        kept.selected
      exact (kept.strayed inRange).trans (Bool.or_false _).symm

theorem callback_effect
    (trans : VirtioTrans) (device : VirtioDevice (Record trans)) :
    Effect ops trans device (.write write)
      (callback ops trans device write) := by
  by_cases taken : sizeTaken trans write = true
  · by_cases atFeatures : write.offset = featuresOffset trans
    · have noStray := not_strays_at_features ops device atFeatures
      by_cases room : featuresSel trans device < featureWords trans
      · rw [callback_features_word taken atFeatures room]
        refine ⟨?_, fun _ => ?_, id⟩
        · simp [requestOf, requestOfWrite, taken, atFeatures, room,
            virtioSetGuestFeatures]
        · simp [noStray, virtioSetGuestFeatures]
      · rw [callback_features_ignored atFeatures room]
        refine Effect.ofSame ?_ rfl (fun _ => ?_) id
        · simp [requestOf, requestOfWrite, atFeatures, room]
        · simp [noStray]
    · exact callback_effect_elsewhere atFeatures
  · have refused : sizeTaken trans write = false := by simpa using taken
    rw [callback_not_taken refused]
    refine Effect.ofSame ?_ rfl (fun _ => ?_) id
    · simp [requestOf, requestOfWrite, refused]
    · simp [not_strays_not_taken ops device refused]

/-- What every action does to the words the transports share. -/
theorem act_effect
    (trans : VirtioTrans) (device : VirtioDevice (Record trans))
    (action : Action) :
    Effect ops trans device action (act ops trans device action) := by
  cases action with
  | write write => exact callback_effect trans device
  | msixControl enabled =>
      cases trans <;>
        exact Effect.ofSame rfl rfl (fun _ => (Bool.or_false _).symm) id
  | traffic vq lastAvailIdx lastUsedSignalled =>
      have unstrayed :
          strays ops trans device
            (.traffic vq lastAvailIdx lastUsedSignalled) = false := by
        cases trans <;> rfl
      simp only [act]
      unfold moveIndices
      split
      · refine Effect.ofSame rfl rfl (fun _ => ?_) id
        simp [unstrayed]
      · refine Effect.ofSame rfl rfl (fun _ => ?_) id
        simp [unstrayed]

end Effects

/-! ## What a session keeps -/

section Sessions

variable {ops : VirtioOps} {trans : VirtioTrans}

/-- All the bits that were ever asked for. -/
def everWritten (history : List Request) : UInt64 :=
  history.foldr (fun request bits => request.bits ||| bits) 0

theorem everWritten_append (first second : List Request) :
    everWritten (first ++ second) =
      everWritten first ||| everWritten second := by
  induction first with
  | nil => simp [everWritten]
  | cons request rest induction =>
      calc
        everWritten (request :: rest ++ second) =
            request.bits ||| everWritten (rest ++ second) := rfl
        _ = request.bits ||| (everWritten rest ||| everWritten second) := by
            rw [induction]
        _ = everWritten (request :: rest) ||| everWritten second :=
            (UInt64.or_assoc _ _ _).symm

theorem everWritten_toList (request : Option Request) :
    everWritten request.toList = bitsOf request := by
  cases request <;> simp [everWritten, bitsOf]

/-- What holds in every state of a session. -/
structure Accumulated (ops : VirtioOps) (session : Session trans) :
    Prop where
  selector : SelectorInRange ops trans session.device.virtio
  features : session.device.features = everWritten session.history

theorem accumulated_start (ops : VirtioOps) (trans : VirtioTrans) :
    Accumulated ops (Session.start trans) := by
  refine ⟨?_, ?_⟩
  · cases trans with
    | pci | pciLegacy | mmioLegacy => exact ops.vqCount_pos
    | mmio => trivial
  · cases trans <;> rfl

theorem accumulated_step
    (session : Session trans) (action : Action)
    (holds : Accumulated ops session) :
    Accumulated ops (session.step ops trans action) := by
  have effect : Effect ops trans session.device action _ :=
    act_effect trans session.device action
  refine ⟨effect.selector holds.selector, ?_⟩
  calc
    (act ops trans session.device action).features =
        session.device.features |||
          bitsOf (requestOf trans session.device action) :=
      effect.features
    _ = everWritten (session.step ops trans action).history := by
        rw [holds.features, Session.step, everWritten_append,
          everWritten_toList]

theorem accumulated_run
    (ops : VirtioOps) (trans : VirtioTrans) (actions : List Action) :
    Accumulated ops
      (run (Session.step ops trans) (Session.start trans) actions) :=
  run_invariant_of_step accumulated_step (accumulated_start ops trans)
    actions

/-- A session has not strayed if none of its actions does. -/
theorem strayed_run
    {session : Session trans} (holds : Accumulated ops session)
    (actions : List Action) :
    (run (Session.step ops trans) session actions).device.strayed =
        false ↔
      session.device.strayed = false ∧
        Along (Session.step ops trans)
          (fun before action =>
            strays ops trans before.device action = false)
          session actions := by
  induction actions generalizing session with
  | nil => simp
  | cons action rest induction =>
      have effect : Effect ops trans session.device action _ :=
        act_effect trans session.device action
      have strayedNow :
          (session.step ops trans action).device.strayed =
            (session.device.strayed ||
              strays ops trans session.device action) :=
        effect.strayed holds.selector
      rw [run_cons, induction (accumulated_step session action holds),
        strayedNow, Bool.or_eq_false_iff, along_cons, and_assoc]

end Sessions

/-! ## Which words are as written -/

/-- A bit of a feature word. -/
def HasBit (word : UInt64) (index : Nat) : Prop :=
  word.toBitVec.getLsbD index = true

@[simp]
theorem hasBit_or (left right : UInt64) (index : Nat) :
    HasBit (left ||| right) index ↔
      HasBit left index ∨ HasBit right index := by
  simp [HasBit]

@[simp]
theorem not_hasBit_zero (index : Nat) : ¬ HasBit 0 index := by
  simp [HasBit]

theorem eq_of_hasBit_iff
    {left right : UInt64}
    (same : ∀ index, HasBit left index ↔ HasBit right index) :
    left = right := by
  apply UInt64.toBitVec_inj.mp
  apply BitVec.eq_of_getLsbD_eq
  intro index _
  exact Bool.eq_iff_iff.mpr (same index)

theorem hasBit_everWritten (history : List Request) (index : Nat) :
    HasBit (everWritten history) index ↔
      ∃ request ∈ history, HasBit request.bits index := by
  induction history with
  | nil => simp [everWritten]
  | cons request rest induction =>
      have unfolded :
          everWritten (request :: rest) =
            request.bits ||| everWritten rest := rfl
      rw [unfolded, hasBit_or, induction]
      simp

theorem hasBit_update
    {words : Words} {request : Request} {index : Nat}
    (has : HasBit (words.update request).union index) :
    HasBit words.union index ∨ HasBit request.bits index := by
  cases request with
  | features sel word =>
      simp only [Words.update] at has
      split at has
      all_goals
        simp only [Words.union, hasBit_or, Request.bits] at has ⊢
        tauto
  | reset =>
      exact absurd has (by simp [Words.update, Words.union])

theorem hasBit_foldl_update
    {history : List Request} {words : Words} {index : Nat}
    (has : HasBit (history.foldl Words.update words).union index) :
    HasBit words.union index ∨
      ∃ request ∈ history, HasBit request.bits index := by
  induction history generalizing words with
  | nil => exact Or.inl has
  | cons request rest induction =>
      rcases induction has with before | ⟨later, member, bit⟩
      · rcases hasBit_update before with earlier | bit
        · exact Or.inl earlier
        · exact Or.inr ⟨request, List.mem_cons_self, bit⟩
      · exact Or.inr ⟨later, List.mem_cons_of_mem request member, bit⟩

theorem hasBit_writtenLast
    {history : List Request} {index : Nat}
    (has : HasBit (writtenLast history) index) :
    ∃ request ∈ history, HasBit request.bits index := by
  rcases hasBit_foldl_update has with initial | found
  · exact absurd initial (by simp [Words.union])
  · exact found

/-- All bits ever written are among those written last. -/
theorem everWritten_eq_writtenLast_iff (history : List Request) :
    everWritten history = writtenLast history ↔
      ∀ request ∈ history, ∀ index,
        HasBit request.bits index →
          HasBit (writtenLast history) index := by
  constructor
  · intro same request member index bit
    rw [← same, hasBit_everWritten]
    exact ⟨request, member, bit⟩
  · intro covered
    apply eq_of_hasBit_iff
    intro index
    rw [hasBit_everWritten]
    constructor
    · rintro ⟨request, member, bit⟩
      exact covered request member index bit
    · exact hasBit_writtenLast

theorem everWritten_eq_zero_iff (history : List Request) :
    everWritten history = 0 ↔
      ∀ request ∈ history, request.bits = 0 := by
  constructor
  · intro none request member
    apply eq_of_hasBit_iff
    intro index
    refine iff_of_false (fun bit => ?_) (not_hasBit_zero index)
    have found :=
      (hasBit_everWritten history index).mpr ⟨request, member, bit⟩
    rw [none] at found
    exact not_hasBit_zero index found
  · intro none
    apply eq_of_hasBit_iff
    intro index
    refine iff_of_false (fun bit => ?_) (not_hasBit_zero index)
    obtain ⟨request, member, found⟩ :=
      (hasBit_everWritten history index).mp bit
    rw [none request member] at found
    exact not_hasBit_zero index found

/-! ## Which devices a zero status resets -/

section Reset

/-- A transport's reset wipes the queues and keeps the shared words. -/
structure ResetSpec {Virtio : Type} (ops : VirtioOps)
    (unassigned : Virtio → Prop)
    (reset : VirtioDevice Virtio → VirtioDevice Virtio) : Prop where
  strayed : ∀ device, (reset device).strayed = device.strayed
  features : ∀ device, (reset device).features = device.features
  status : ∀ device, (reset device).status = device.status
  queues :
    ∀ device, ∀ vq < ops.vqCount, (reset device).queues vq = zeroQueue
  vectors : ∀ device, unassigned (reset device).virtio

theorem virtioPciReset_spec (ops : VirtioOps) :
    ResetSpec ops (VectorsUnassigned ops .pci) (virtioPciReset ops) := by
  refine ⟨?_, ?_, ?_, ?_, ?_⟩
  · intro device
    rw [virtioPciReset_eq]
  · intro device
    rw [virtioPciReset_eq]
  · intro device
    rw [virtioPciReset_eq]
  · intro device vq inRange
    rw [virtioPciReset_eq]
    exact wipe_range inRange _ _
  · intro device
    rw [virtioPciReset_eq]
    exact ⟨rfl, fun vq inRange => wipe_range inRange _ _⟩

theorem virtioMmioReset_spec (ops : VirtioOps) :
    ResetSpec ops (VectorsUnassigned ops .mmio) (virtioMmioReset ops) := by
  refine ⟨?_, ?_, ?_, ?_, ?_⟩
  · intro device
    rw [virtioMmioReset_eq]
  · intro device
    rw [virtioMmioReset_eq]
  · intro device
    rw [virtioMmioReset_eq]
  · intro device vq inRange
    rw [virtioMmioReset_eq]
    exact wipe_range inRange _ _
  · intro device
    trivial

/--
A zero status wipes a running device and clears the status of any other, so
the result is as at the start exactly if the features were empty and the
device was running or not configured yet.
-/
theorem notifyStatus_zero_iff {Virtio : Type}
    {ops : VirtioOps} {unassigned : Virtio → Prop}
    {reset : VirtioDevice Virtio → VirtioDevice Virtio}
    (spec : ResetSpec ops unassigned reset)
    (device : VirtioDevice Virtio) :
    let after := (virtioNotifyStatus reset device 0).1
    (after.strayed = false ∧ ¬ Started after ∧ after.features = 0 ∧
        (∀ vq < ops.vqCount, after.queues vq = zeroQueue) ∧
        unassigned after.virtio) ↔
      device.strayed = false ∧ device.features = 0 ∧
        (Started device ∨
          (∀ vq < ops.vqCount, device.queues vq = zeroQueue) ∧
            unassigned device.virtio) := by
  intro after
  have afterEq : after = _ := virtioNotifyStatus_zero reset device
  by_cases started : Started device
  · rw [if_pos started] at afterEq
    have stopped : ¬ Started after := by
      rw [afterEq, Started, spec.status]
      simp [UInt32.and_assoc]
    rw [afterEq, spec.strayed, spec.features] at *
    simp only [started, true_or, and_true]
    constructor
    · rintro ⟨intact, -, noFeatures, -, -⟩
      exact ⟨intact, noFeatures⟩
    · rintro ⟨intact, noFeatures⟩
      exact ⟨intact, stopped, noFeatures, spec.queues _, spec.vectors _⟩
  · rw [if_neg started] at afterEq
    have stopped : ¬ Started after := by
      rw [afterEq, Started, clearStatus, masked_start]
      exact started
    rw [afterEq] at stopped ⊢
    simp only [clearStatus] at stopped ⊢
    simp only [started, false_or]
    constructor
    · rintro ⟨intact, -, noFeatures, unconfigured⟩
      exact ⟨intact, noFeatures, unconfigured⟩
    · rintro ⟨intact, noFeatures, unconfigured⟩
      exact ⟨intact, stopped, noFeatures, unconfigured⟩

theorem atStart_iff
    {ops : VirtioOps} {trans : VirtioTrans}
    {device : VirtioDevice (Record trans)} :
    AtStart ops trans device ↔
      device.strayed = false ∧ ¬ Started device ∧ device.features = 0 ∧
        Unconfigured ops trans device :=
  ⟨fun start =>
      ⟨start.intact, start.stopped, start.noFeatures, start.unconfigured⟩,
    fun ⟨intact, stopped, noFeatures, unconfigured⟩ =>
      ⟨intact, stopped, noFeatures, unconfigured⟩⟩

/-- The devices that a zero status brings back to their start. -/
theorem atStart_callback_zero
    (ops : VirtioOps) (trans : VirtioTrans)
    (device : VirtioDevice (Record trans)) (endianness : UInt16) :
    AtStart ops trans
        (callback ops trans device (zeroStatus trans endianness)) ↔
      device.strayed = false ∧ device.features = 0 ∧
        (Started device ∨ Unconfigured ops trans device) := by
  rw [atStart_iff]
  cases trans with
  | pci =>
      let stored : PciDevice :=
        PciDevice.modify device fun vpci => { vpci with status := 0 }
      have notified :
          callback ops .pci device (zeroStatus .pci endianness) =
            (virtioNotifyStatus (virtioPciReset ops) stored 0).1 := rfl
      rw [notified]
      exact notifyStatus_zero_iff (virtioPciReset_spec ops) stored
  | pciLegacy =>
      let sampled : PciDevice :=
        { PciDevice.modify device fun vpci => { vpci with status := 0 } with
          endian := endianness }
      have notified :
          callback ops .pciLegacy device
              (zeroStatus .pciLegacy endianness) =
            (virtioNotifyStatus (virtioPciReset ops) sampled 0).1 := rfl
      rw [notified]
      exact notifyStatus_zero_iff (virtioPciReset_spec ops) sampled
  | mmio =>
      let stored : MmioDevice :=
        MmioDevice.modify device fun hdr => { hdr with status := 0 }
      have notified :
          callback ops .mmio device (zeroStatus .mmio endianness) =
            (virtioNotifyStatus (virtioMmioReset ops) stored 0).1 := rfl
      rw [notified]
      exact notifyStatus_zero_iff (virtioMmioReset_spec ops) stored
  | mmioLegacy =>
      let sampled : MmioDevice :=
        { MmioDevice.modify device fun hdr => { hdr with status := 0 } with
          endian := endianness }
      have notified :
          callback ops .mmioLegacy device
              (zeroStatus .mmioLegacy endianness) =
            (virtioNotifyStatus (virtioMmioReset ops) sampled 0).1 := rfl
      rw [notified]
      exact notifyStatus_zero_iff (virtioMmioReset_spec ops) sampled

theorem resetsToStart_iff
    (ops : VirtioOps) (trans : VirtioTrans)
    (device : VirtioDevice (Record trans)) :
    ResetsToStart ops trans device ↔
      device.strayed = false ∧ device.features = 0 ∧
        (Started device ∨ Unconfigured ops trans device) := by
  constructor
  · intro resets
    exact (atStart_callback_zero ops trans device 0).mp (resets 0)
  · intro condition endianness
    exact (atStart_callback_zero ops trans device endianness).mpr condition

end Reset

/-! ## Main result -/

/--
After every run of register writes on every transport, two equivalences: a
zero status brings the device back to its start exactly if no register of a
queue beyond the device's was used, no feature word written so far had a bit
set, and the device is running or has no queue or vector set up; and the
feature word is what the guest wrote last exactly if no such register was
used and every bit written so far is among the bits written last.
-/
theorem renegotiation_iff
    (ops : VirtioOps) (trans : VirtioTrans) (actions : List Action) :
    let session :=
      run (Session.step ops trans) (Session.start trans) actions
    let withinQueues :=
      Along (Session.step ops trans)
        (fun before action =>
          strays ops trans before.device action = false)
        (Session.start trans) actions
    (ResetsToStart ops trans session.device ↔
        withinQueues ∧
          (∀ request ∈ session.history, request.bits = 0) ∧
          (Started session.device ∨
            Unconfigured ops trans session.device)) ∧
      (FeaturesAsWritten session ↔
        withinQueues ∧
          ∀ request ∈ session.history, ∀ index,
            HasBit request.bits index →
              HasBit (writtenLast session.history) index) := by
  intro session withinQueues
  have accumulated : Accumulated ops session :=
    accumulated_run ops trans actions
  have intact : session.device.strayed = false ↔ withinQueues := by
    have started : (Session.start trans).device.strayed = false := by
      cases trans <;> rfl
    rw [strayed_run (accumulated_start ops trans) actions,
      and_iff_right started]
  constructor
  · rw [resetsToStart_iff, intact, accumulated.features,
      everWritten_eq_zero_iff]
  · rw [FeaturesAsWritten, intact, accumulated.features,
      everWritten_eq_writtenLast_iff]

/-- A device type with one queue of 256 entries. -/
def blkOps : VirtioOps :=
  { vqCount := 1
    queueSize := 256
    guestFlatToHost := fun address => address.toNat
    vqCount_pos := by decide
    vqCount_le := by decide }

/-- A write with the given offset and value. -/
def pciWrite (offset : Nat) (data : UInt32) : Action :=
  .write
    { offset := offset
      data := data
      len := 4
      endianness := virtioEndianLe
      eventfdAdded := true
      route := none }

/--
A driver that negotiates event indices and starts the device, and after a
reset negotiates nothing.
-/
def twoDrivers : List Action :=
  [pciWrite virtioPciCommonGf 0x20000000,
    pciWrite virtioPciCommonStatus 0xf,
    pciWrite virtioPciCommonStatus 0,
    pciWrite virtioPciCommonGf 0]

/-- The second driver gets the event indices of the first. -/
theorem event_indices_survive_reset :
    let session :=
      run (Session.step blkOps .pci) (Session.start .pci) twoDrivers
    ¬ ResetsToStart blkOps .pci session.device ∧
      session.device.features = 0x20000000 ∧
      writtenLast session.history = 0 ∧
      ¬ FeaturesAsWritten session := by
  intro session
  have kept : session.device.features = 0x20000000 := by decide
  have asked : writtenLast session.history = 0 := by decide
  refine ⟨?_, kept, asked, ?_⟩
  · rw [resetsToStart_iff, kept]
    exact fun condition => absurd condition.2.1 (by decide)
  · rw [FeaturesAsWritten, kept, asked]
    exact fun condition => absurd condition.2 (by decide)

end Kemu.Virtio.Negotiation
