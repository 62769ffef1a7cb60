import Kemu.Virtio.Msix
import Kemu.Virtio.Negotiation

/-!
# What a register write does to the vectors

The assigned vectors and the GSIs are changed by the writes that
`routeChange` names, and by no other; and the selected queue stays one of the
device's.
-/

namespace Kemu.Virtio.Msix

open Kemu.Init.Irq
open Kemu.Virtio.Core
open Kemu.Virtio.Negotiation
open Kemu.Virtio.Ring
open Kemu.Virtio.Transport

/-- The queue of a user is one of the device's. -/
def VectorUser.Of (ops : VirtioOps) : VectorUser → Prop
  | .config => True
  | .queue vq => vq < ops.vqCount

instance (ops : VirtioOps) (user : VectorUser) : Decidable (user.Of ops) :=
  match user with
  | .config => isTrue trivial
  | .queue vq => inferInstanceAs (Decidable (vq < ops.vqCount))

/-- The vectors after a change. -/
def vectorsAfter (ops : VirtioOps) (vectors : VectorUser → UInt16) :
    RouteChange → VectorUser → UInt16
  | .keep => vectors
  | .assign user vec => Function.update vectors user vec
  | .exit vq => Function.update vectors (.queue vq) virtioMsiNoVector
  | .reset => fun user =>
      if user.Of ops then virtioMsiNoVector else vectors user

/--
The GSIs after a change.  `gsi` is what `virtio_pci__add_msix_route`
returned; the legacy layout stores a valid one only.
-/
def gsisAfter (ops : VirtioOps) (legacy : Bool) (gsi : Int)
    (gsis : VectorUser → UInt32) : RouteChange → VectorUser → UInt32
  | .keep => gsis
  | .assign user _ =>
      if legacy ∧ gsi < 0 then gsis
      else Function.update gsis user (.ofInt gsi)
  | .exit vq => Function.update gsis (.queue vq) 0
  | .reset => fun user => if user.Of ops then 0 else gsis user

/-- The vectors and GSIs of a device change as a route change says. -/
structure Changed (ops : VirtioOps) (legacy : Bool) (gsi : Int)
    (before after : VirtioPci) (change : RouteChange) : Prop where
  vectors : vectorOf after = vectorsAfter ops (vectorOf before) change
  gsis : gsiOf after = gsisAfter ops legacy gsi (gsiOf before) change

section Fields

variable {ops : VirtioOps} {device : PciDevice} {write : RegisterWrite}
  {legacy : Bool} {gsi : Int}

theorem Changed.keep (vpci : VirtioPci) :
    Changed ops legacy gsi vpci vpci .keep :=
  ⟨rfl, rfl⟩

theorem Changed.of_eq {before after : VirtioPci} (same : after = before) :
    Changed ops legacy gsi before after .keep := by
  rw [same]
  exact .keep before

/-- `virtio_pci_exit_vq`. -/
theorem Changed.exitVq (vq : Nat) :
    Changed ops legacy gsi device.virtio
      (virtioPciExitVq ops device vq).virtio (.exit vq) := by
  rw [virtioPciExitVq, virtioExitVq_virtio]
  constructor
  · funext user
    cases user with
    | config => rfl
    | queue other =>
        by_cases same : other = vq
        · simp [same, vectorOf, vectorsAfter, PciDevice.modify]
        · simp [same, vectorOf, vectorsAfter, PciDevice.modify]
  · funext user
    cases user with
    | config => rfl
    | queue other =>
        by_cases same : other = vq
        · simp [same, gsiOf, gsisAfter, PciDevice.modify]
        · simp [same, gsiOf, gsisAfter, PciDevice.modify]

/-- `virtio_pci__reset`. -/
theorem Changed.reset (device : PciDevice) :
    Changed ops legacy gsi device.virtio
      (virtioPciReset ops device).virtio .reset := by
  rw [virtioPciReset_eq]
  constructor
  · funext user
    cases user with
    | config => rfl
    | queue vq =>
        by_cases inside : vq < ops.vqCount
        · simp [vectorOf, vectorsAfter, VectorUser.Of, wipe, inside]
        · simp [vectorOf, vectorsAfter, VectorUser.Of, wipe, inside]
  · funext user
    cases user with
    | config => rfl
    | queue vq =>
        by_cases inside : vq < ops.vqCount
        · simp [gsiOf, gsisAfter, VectorUser.Of, wipe, inside]
        · simp [gsiOf, gsisAfter, VectorUser.Of, wipe, inside]

/-- A status write resets a running device when it writes zero. -/
theorem Changed.notifyStatus {before : PciDevice}
    (same : Changed ops legacy gsi before.virtio device.virtio .keep)
    (word : device.status = before.status) (status : UInt8) :
    Changed ops legacy gsi before.virtio
      (virtioNotifyStatus (virtioPciReset ops) device status).1.virtio
      (if status = 0 ∧ Started before then .reset else .keep) := by
  have sameStarted : Started before ↔ Started device := by
    rw [Started, Started, word]
  by_cases zero : status = 0
  · subst zero
    rw [virtioNotifyStatus_zero]
    by_cases started : Started device
    · rw [if_pos started, if_pos ⟨rfl, sameStarted.mpr started⟩]
      have reset :=
        @Changed.reset ops legacy gsi
          { device with
            status :=
              device.status &&& ~~~virtioConfigSMask &&&
                ~~~virtioStatusStart }
      refine ⟨?_, ?_⟩
      · rw [reset.vectors, same.vectors]
        rfl
      · rw [reset.gsis, same.gsis]
        rfl
    · rw [if_neg started,
        if_neg (fun both => started (sameStarted.mp both.2))]
      exact same
  · have noReset :
        (virtioNotifyStatus (virtioPciReset ops) device status).1.virtio =
          device.virtio := by
      have nonzero : (status == 0) = false := by simpa using zero
      unfold virtioNotifyStatus
      dsimp only
      rw [nonzero]
      split
      · rfl
      · rfl
    rw [noReset, if_neg (fun both => zero both.1)]
    exact same

theorem Changed.initVq {before : VirtioPci}
    (same : Changed ops legacy gsi before device.virtio .keep) (vq : Nat) :
    Changed ops legacy gsi before
      (virtioPciInitVq ops write device vq).virtio .keep := by
  unfold virtioPciInitVq
  split
  · rw [virtioInitDeviceVq_virtio]
    exact same
  · exact same

theorem Changed.setAddr (vq : Nat) (change : VringAddr → VringAddr) :
    Changed ops legacy gsi device.virtio
      (setAddr ops device vq change).virtio .keep :=
  .of_eq (modifyVq_virtio _ _ _ _)

theorem Changed.select (sel : UInt16) :
    Changed ops legacy gsi device.virtio
      (if ops.vqCount ≤ sel.toNat then
        device
      else
        device.modify fun vpci =>
          { vpci with queueSelector := sel }).virtio .keep := by
  split
  · exact .keep _
  · exact ⟨rfl, rfl⟩

/-- A new vector for the configuration. -/
theorem Changed.assignConfig {before after : VirtioPci} {vec : UInt16}
    (vector : after.configVector = vec)
    (route :
      after.configGsi =
        if legacy ∧ gsi < 0 then before.configGsi else .ofInt gsi)
    (vqVector : after.vqVector = before.vqVector)
    (gsis : after.gsis = before.gsis) :
    Changed ops legacy gsi before after (.assign .config vec) := by
  constructor
  · funext user
    cases user with
    | config => exact vector
    | queue vq => exact congrFun vqVector vq
  · funext user
    cases user with
    | config =>
        rw [gsisAfter]
        split_ifs at route ⊢ with kept
        · exact route
        · exact route
    | queue vq =>
        rw [gsisAfter]
        split_ifs
        · exact congrFun gsis vq
        · exact congrFun gsis vq

/-- A new vector for a queue. -/
theorem Changed.assignQueue {before after : VirtioPci} {vq : Nat}
    {vec : UInt16}
    (vector :
      after.vqVector = Function.update before.vqVector vq vec)
    (route :
      after.gsis =
        if legacy ∧ gsi < 0 then before.gsis
        else Function.update before.gsis vq (.ofInt gsi))
    (configVector : after.configVector = before.configVector)
    (configGsi : after.configGsi = before.configGsi) :
    Changed ops legacy gsi before after (.assign (.queue vq) vec) := by
  constructor
  · funext user
    cases user with
    | config => exact configVector
    | queue other =>
        rw [vectorOf, vector]
        by_cases same : other = vq
        · simp [same, vectorsAfter]
        · simp [same, vectorsAfter, vectorOf]
  · funext user
    cases user with
    | config =>
        rw [gsisAfter]
        split_ifs
        · exact configGsi
        · exact configGsi
    | queue other =>
        rw [gsisAfter, gsiOf, route]
        split_ifs
        · rfl
        · by_cases same : other = vq
          · simp [same]
          · simp [same, gsiOf]

theorem Changed.commonWrite :
    Changed ops false (virtioPciAddMsixRoute write write.read16)
      device.virtio (virtioPciCommonWrite ops device write).virtio
      (commonWriteChange device write) := by
  unfold virtioPciCommonWrite commonWriteChange
  dsimp only
  split
  next spot => rw [spot]; exact ⟨rfl, rfl⟩
  next spot => rw [spot]; exact ⟨rfl, rfl⟩
  next spot =>
    rw [spot]
    split
    · exact ⟨rfl, rfl⟩
    · exact ⟨rfl, rfl⟩
  next spot => rw [spot]; exact .assignConfig rfl rfl rfl rfl
  next spot =>
    rw [spot]
    have same :
        Changed ops false (virtioPciAddMsixRoute write write.read16)
          device.virtio
          (device.modify fun vpci =>
            { vpci with status := write.read8 }).virtio .keep :=
      ⟨rfl, rfl⟩
    exact same.notifyStatus rfl write.read8
  next spot => rw [spot]; exact .select _
  next spot => rw [spot]; exact .assignQueue rfl rfl rfl rfl
  next spot =>
    rw [spot]
    split
    · exact (Changed.keep _).initVq _
    · exact .exitVq _
  next spot => rw [spot]; exact .setAddr _ _
  next spot => rw [spot]; exact .setAddr _ _
  next spot => rw [spot]; exact .setAddr _ _
  next spot => rw [spot]; exact .setAddr _ _
  next spot => rw [spot]; exact .setAddr _ _
  next spot => rw [spot]; exact .setAddr _ _
  next =>
    split
    · contradiction
    · contradiction
    · contradiction
    · contradiction
    · exact .keep _

theorem Changed.specificDataOut :
    Changed ops true (virtioPciAddMsixRoute write write.read16)
      device.virtio (virtioPciSpecificDataOut device write).virtio
      (specificDataOutChange device write) := by
  unfold virtioPciSpecificDataOut
  split
  next spot =>
    have nothing : specificDataOutChange device write = .keep := by
      unfold specificDataOutChange
      simp only [spot]
    rw [nothing]
    exact .keep _
  next spot =>
    dsimp only
    split
    next place =>
      have change :
          specificDataOutChange device write =
            .assign .config write.read16 := by
        unfold specificDataOutChange
        rw [spot]
        simp only [place]
      rw [change]
      refine .assignConfig rfl ?_ rfl rfl
      simp [PciDevice.modify]
    next place =>
      have change :
          specificDataOutChange device write =
            .assign (.queue device.virtio.queueSelector.toNat)
              write.read16 := by
        unfold specificDataOutChange
        rw [spot]
        simp only [place]
      rw [change]
      refine .assignQueue rfl ?_ rfl rfl
      simp [PciDevice.modify]
    next =>
      have nothing : specificDataOutChange device write = .keep := by
        unfold specificDataOutChange
        rw [spot]
        dsimp only
        split
        · contradiction
        · contradiction
        · rfl
      rw [nothing]
      exact .keep _

theorem Changed.dataOut :
    Changed ops true (virtioPciAddMsixRoute write write.read16)
      device.virtio (virtioPciDataOut ops device write).virtio
      (dataOutChange device write) := by
  unfold virtioPciDataOut dataOutChange
  dsimp only
  split
  next spot =>
    rw [spot]
    have nothing : specificDataOutChange device write = .keep := by
      unfold specificDataOutChange
      rw [spot]
      split
      · rfl
      · rfl
    rw [nothing]
    exact ⟨rfl, rfl⟩
  next spot =>
    rw [spot]
    split
    · refine Changed.initVq ?_ _
      exact .of_eq (modifyVq_virtio _ _ _ _)
    · exact .exitVq _
  next spot =>
    rw [spot]
    have nothing : specificDataOutChange device write = .keep := by
      unfold specificDataOutChange
      rw [spot]
      split
      · rfl
      · rfl
    rw [nothing]
    exact .select _
  next spot =>
    rw [spot]
    have same :
        Changed ops true (virtioPciAddMsixRoute write write.read16)
          device.virtio
          (if write.read8 = 0 then
            { device.modify fun vpci =>
                { vpci with status := write.read8 } with
              endian := write.endianness }
          else
            device.modify fun vpci =>
              { vpci with status := write.read8 }).virtio .keep := by
      split
      · exact ⟨rfl, rfl⟩
      · exact ⟨rfl, rfl⟩
    refine same.notifyStatus ?_ write.read8
    split
    · rfl
    · rfl
  next =>
    split
    · contradiction
    · contradiction
    · exact .specificDataOut

/-- The vectors and GSIs after a write to a register. -/
theorem registerCallback_changed :
    Changed ops device.legacy (virtioPciAddMsixRoute write write.read16)
      device.virtio (registerCallback ops device write).virtio
      (routeChange device write) := by
  unfold registerCallback routeChange
  split
  next legacy => rw [legacy]; exact .dataOut
  next modern => rw [Bool.eq_false_iff.mpr modern]; exact .commonWrite

variable (ops device write) in
/-- What a write would change does not depend on the route it gets. -/
theorem registerCallback_changed_of_route (route : Option UInt32) :
    Changed ops device.legacy
      (virtioPciAddMsixRoute { write with route := route } write.read16)
      device.virtio
      (registerCallback ops device { write with route := route }).virtio
      (routeChange device write) :=
  registerCallback_changed

section Selected

variable (selected : device.virtio.queueSelector.toNat < ops.vqCount)
  {user : VectorUser} {vec : UInt16}

include selected

/-- The selected queue stays one of the device's. -/
theorem registerCallback_selector :
    (registerCallback ops device write).virtio.queueSelector.toNat <
      ops.vqCount := by
  unfold registerCallback
  split
  · exact
      (@callback_effect ops write .pciLegacy device).selector selected
  · exact (@callback_effect ops write .pci device).selector selected

theorem user_of_specificDataOut
    (change : specificDataOutChange device write = .assign user vec) :
    user.Of ops ∧ vec = write.read16 := by
  unfold specificDataOutChange at change
  split at change
  · cases change
  · split at change
    · cases change
      exact ⟨trivial, rfl⟩
    · cases change
      exact ⟨selected, rfl⟩
    · cases change

theorem user_of_dataOut
    (change : dataOutChange device write = .assign user vec) :
    user.Of ops ∧ vec = write.read16 := by
  unfold dataOutChange at change
  split at change
  · split at change <;> cases change
  · split at change <;> cases change
  · exact user_of_specificDataOut selected change

theorem user_of_commonWrite
    (change : commonWriteChange device write = .assign user vec) :
    user.Of ops ∧ vec = write.read16 := by
  unfold commonWriteChange at change
  dsimp only at change
  split at change
  · cases change
    exact ⟨trivial, rfl⟩
  · split at change <;> cases change
  · cases change
    exact ⟨selected, rfl⟩
  · split at change <;> cases change
  · cases change

/-- The user of a new vector is one of the device. -/
theorem user_of_assign
    (change : routeChange device write = .assign user vec) :
    user.Of ops ∧ vec = write.read16 := by
  unfold routeChange at change
  split at change
  · exact user_of_dataOut selected change
  · exact user_of_commonWrite selected change

end Selected

end Fields

end Kemu.Virtio.Msix
