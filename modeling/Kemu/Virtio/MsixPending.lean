import Kemu.Virtio.MsixRoutes

/-!
# Signals while a vector is masked

A signal for a masked vector sets a pending bit, and that is the last that
is heard of it: no write to the table or to the control word looks at the
bits, and none is ever cleared.
-/

namespace Kemu.Virtio.Msix

open Kemu.Init.Irq
open Kemu.Lib.Transition
open Kemu.Virtio.Core
open Kemu.Virtio.Transport

/-! ## Pending and masked -/

/-- The pending bit of a vector. -/
def pbaSet (msixPba : UInt64) (vec : Nat) : Bool :=
  msixPba.toBitVec.getLsbD vec

/-- Message interrupts are enabled and not masked for the function. -/
def FunctionOpen (ctrl : UInt16) : Prop :=
  ctrl &&& pciMsixFlagsEnable ≠ 0 ∧ ctrl &&& pciMsixFlagsMaskall = 0

instance (ctrl : UInt16) : Decidable (FunctionOpen ctrl) :=
  inferInstanceAs (Decidable (_ ∧ _))

/-- Every pending vector of the table is masked in its entry. -/
def PendingMasked (msixTable : Nat → UInt8) (msixPba : UInt64) : Prop :=
  ∀ vec < virtioNrMsix, pbaSet msixPba vec →
    entryMasked msixTable vec

instance (msixTable : Nat → UInt8) (msixPba : UInt64) :
    Decidable (PendingMasked msixTable msixPba) :=
  Nat.decidableBallLT _ _

/-- A signal for the user sets a pending bit. -/
def Pends (this : MsixDevice) (user : VectorUser) : Prop :=
  (this.device.virtio.msixEnabled ∧
      vectorOf this.device.virtio user ≠ virtioMsiNoVector) ∧
    (this.ctrl &&& pciMsixFlagsMaskall ≠ 0 ∨
      entryMasked this.msixTable
        (vectorOf this.device.virtio user).toNat)

instance (this : MsixDevice) (user : VectorUser) :
    Decidable (Pends this user) :=
  inferInstanceAs (Decidable (_ ∧ _))

/-- The pending bits that an event sets. -/
def signalBits (this : MsixDevice) : MsixEvent → UInt64
  | .signalVq vq =>
      if Pends this (.queue vq) then
        pbaBit (vectorOf this.device.virtio (.queue vq)).toNat
      else
        0
  | .signalConfig =>
      if Pends this .config then
        pbaBit (vectorOf this.device.virtio .config).toNat
      else
        0
  | _ => 0

section Host

variable {host : PciHost}

/-- The vectors of some bits are masked in their entries or altogether. -/
def Masked (dev : Fin host.count) (bits : UInt64)
    (state : MsixState host) : Prop :=
  FunctionOpen (state.devices dev).ctrl →
    PendingMasked (state.devices dev).msixTable bits

instance (dev : Fin host.count) (bits : UInt64)
    (state : MsixState host) : Decidable (Masked dev bits state) :=
  inferInstanceAs (Decidable (_ → _))

/-- No vector is pending that nothing masks. -/
def NoneLost (state : MsixState host) : Prop :=
  ∀ dev, Masked dev (state.devices dev).msixPba state

/--
Where a signal finds its vector masked, the guest does not take the last mask
away in the rest of the run.
-/
def StaysMasked :
    MsixState host → List (Fin host.count × MsixEvent) → Prop
  | _, [] => True
  | state, (dev, event) :: rest =>
      Throughout msixStep
          (Masked dev (signalBits (state.devices dev) event))
          (msixStep state (dev, event)) rest ∧
        StaysMasked (msixStep state (dev, event)) rest

/-! ## The pending bits of a signal -/

theorem pbaSet_or (first second : UInt64) (vec : Nat) :
    pbaSet (first ||| second) vec =
      (pbaSet first vec || pbaSet second vec) := by
  rw [pbaSet, UInt64.toBitVec_or, BitVec.getLsbD_or]
  rfl

theorem pendingMasked_or {msixTable : Nat → UInt8}
    {first second : UInt64} :
    PendingMasked msixTable (first ||| second) ↔
      PendingMasked msixTable first ∧ PendingMasked msixTable second := by
  constructor
  · intro both
    constructor
    · intro vec inside pending
      exact both vec inside (by rw [pbaSet_or, pending]; rfl)
    · intro vec inside pending
      exact both vec inside (by rw [pbaSet_or, pending, Bool.or_true])
  · rintro ⟨left, right⟩ vec inside pending
    rw [pbaSet_or, Bool.or_eq_true] at pending
    rcases pending with pending | pending
    · exact left vec inside pending
    · exact right vec inside pending

theorem pendingMasked_zero (msixTable : Nat → UInt8) :
    PendingMasked msixTable 0 := by
  intro vec _ pending
  cases (BitVec.getLsbD_zero : pbaSet 0 vec = false).symm.trans pending

/-- Vector 32 sets the bit of vector 0. -/
example : pbaBit 32 = pbaBit 0 :=
  rfl

theorem virtioPciSignal_eq (signalMsi : Bool) (this : MsixDevice)
    (user : VectorUser) (isrBit : UInt8) :
    ∃ isr,
      (virtioPciSignal signalMsi this user isrBit).2 =
        { this with
          isr := isr
          msixPba :=
            if Pends this user then
              this.msixPba |||
                pbaBit (vectorOf this.device.virtio user).toNat
            else
              this.msixPba } := by
  by_cases enabled :
      this.device.virtio.msixEnabled ∧
        vectorOf this.device.virtio user ≠ virtioMsiNoVector
  · by_cases masked :
        this.ctrl &&& pciMsixFlagsMaskall ≠ 0 ∨
          entryMasked this.msixTable
            (vectorOf this.device.virtio user).toNat
    · have pends : Pends this user := ⟨enabled, masked⟩
      unfold virtioPciSignal
      dsimp only
      rw [if_pos enabled, if_pos masked, if_pos pends]
      exact ⟨this.isr, rfl⟩
    · have idle : ¬ Pends this user := fun pends => masked pends.2
      unfold virtioPciSignal
      dsimp only
      rw [if_pos enabled, if_neg masked, if_neg idle]
      split
      · exact ⟨this.isr, rfl⟩
      · exact ⟨this.isr, rfl⟩
  · have idle : ¬ Pends this user := fun pends => enabled pends.1
    unfold virtioPciSignal
    dsimp only
    rw [if_neg enabled, if_neg idle]
    exact ⟨_, rfl⟩

/-! ## One event -/

section Step

/-- A register write leaves the pending bits alone. -/
theorem registerWrite_pba (state : MsixState host) (dev : Fin host.count)
    (write : RegisterWrite) (answers : IrqAnswers)
    (other : Fin host.count) :
    ((registerWrite state dev write answers).devices other).msixPba =
      (state.devices other).msixPba := by
  unfold registerWrite
  dsimp only
  by_cases same : other = dev
  · subst same
    split <;> simp [MsixState.put]
  · split <;> simp [MsixState.put, same]

theorem put_pba (state : MsixState host) (dev other : Fin host.count)
    (this : MsixDevice) (bits : UInt64)
    (set : this.msixPba = (state.devices dev).msixPba ||| bits) :
    ((state.put dev this).devices other).msixPba =
      (state.devices other).msixPba ||| if other = dev then bits else 0 := by
  by_cases same : other = dev
  · subst same
    simp [MsixState.put, set]
  · simp [MsixState.put, same]

theorem virtioPciSignal_pba (signalMsi : Bool) (this : MsixDevice)
    (user : VectorUser) (isrBit : UInt8) :
    (virtioPciSignal signalMsi this user isrBit).2.msixPba =
      this.msixPba |||
        if Pends this user then
          pbaBit (vectorOf this.device.virtio user).toNat
        else
          0 := by
  obtain ⟨isr, equal⟩ := virtioPciSignal_eq signalMsi this user isrBit
  rw [equal]
  dsimp only
  split
  · rfl
  · rw [UInt64.or_zero]

/-- A bit that is set stays so, and only signals set any. -/
theorem msixStep_pba {state : MsixState host}
    {event : Fin host.count × MsixEvent} (goesOn : GoesOn state event)
    (other : Fin host.count) :
    ((msixStep state event).devices other).msixPba =
      (state.devices other).msixPba |||
        if other = event.1 then
          signalBits (state.devices event.1) event.2
        else
          0 := by
  have alive := msixStep_alive goesOn
  obtain ⟨dev, event⟩ := event
  unfold msixStep
  dsimp only
  rw [alive, if_neg Bool.noConfusion]
  cases event with
  | register write answers =>
      refine (registerWrite_pba state dev write answers other).trans ?_
      exact (congrArg _ (ite_self 0)).trans UInt64.or_zero |>.symm
  | table write answers => exact put_pba _ _ _ _ _ (UInt64.or_zero).symm
  | control ctrl => exact put_pba _ _ _ _ _ (UInt64.or_zero).symm
  | signalVq vq =>
      exact put_pba _ _ _ _ _ (virtioPciSignal_pba _ _ (.queue vq) 1)
  | signalConfig =>
      exact put_pba _ _ _ _ _ (virtioPciSignal_pba _ _ .config 2)

end Step

/-! ## Runs -/

/-- The bits set so far stay masked, and those that are set from here on. -/
theorem noneLost_iff {state : MsixState host}
    {events : List (Fin host.count × MsixEvent)}
    (alive : Along msixStep GoesOn state events) :
    Throughout msixStep NoneLost state events ↔
      Throughout msixStep
          (fun now => ∀ dev, Masked dev (state.devices dev).msixPba now)
          state events ∧
        StaysMasked state events := by
  induction events generalizing state with
  | nil => exact (and_iff_left trivial).symm
  | cons event rest induction =>
      have bits (now : MsixState host) :
          (∀ dev,
              Masked dev ((msixStep state event).devices dev).msixPba now) ↔
            (∀ dev, Masked dev (state.devices dev).msixPba now) ∧
              Masked event.1 (signalBits (state.devices event.1) event.2)
                now := by
        simp only [msixStep_pba alive.1, Masked, pendingMasked_or,
          forall_and]
        refine and_congr_right fun _ => ⟨fun each => ?_, fun here dev => ?_⟩
        · simpa using each event.1
        · split
          case isTrue same => exact same ▸ here
          case isFalse => exact fun _ => pendingMasked_zero _
      rw [Throughout, Throughout, StaysMasked, induction alive.2,
        funext fun now => propext (bits now), throughout_and]
      exact
        ⟨fun all => ⟨⟨all.1, all.2.1.1⟩, all.2.1.2, all.2.2⟩,
          fun all => ⟨all.1.1, ⟨all.1.2, all.2.1⟩, all.2.2⟩⟩

/--
In a run of a process that goes on, no vector is ever pending that nothing
masks, exactly when no vector is unmasked after a signal has found it masked.
-/
theorem pending_delivered_iff {start : MsixState host}
    (fresh : MsixStart start) {events : List (Fin host.count × MsixEvent)}
    (alive : Along msixStep GoesOn start events) :
    Throughout msixStep NoneLost start events ↔
      StaysMasked start events := by
  have none (dev : Fin host.count) : (start.devices dev).msixPba = 0 := by
    obtain ⟨legacy, beyond, device⟩ := fresh.devices dev
    rw [device]
    rfl
  rw [noneLost_iff alive]
  refine and_iff_right (throughout_of_step (fun now (_ : True) dev _ => ?_)
    (fun _ _ _ => trivial) trivial events)
  rw [none]
  exact pendingMasked_zero _

end Host

/-! ## A device with one queue -/

/-- Message interrupts are enabled, the first vector is the configuration's. -/
def enabledEvents : List (Fin oneDevice.count × MsixEvent) :=
  [(onlyDevice, .control 0x8020), writeRegister virtioPciCommonMsix 0]

/-- A write of the control word of the first entry. -/
def writeMask (byte : UInt8) : Fin oneDevice.count × MsixEvent :=
  (onlyDevice, .table ⟨12, [byte, 0, 0, 0], (by decide : 16 ≤ 528)⟩
    granted)

/-- The vector is masked, and there is a signal. -/
def maskedEvents : List (Fin oneDevice.count × MsixEvent) :=
  enabledEvents ++ [writeMask 1, (onlyDevice, .signalConfig)]

/-- The vector is masked for the signal, and then not any more. -/
def unmaskedEvents : List (Fin oneDevice.count × MsixEvent) :=
  maskedEvents ++ [writeMask 0]

/-- A vector that stays masked. -/
theorem pending_delivered_masked :
    Throughout msixStep NoneLost oneDeviceStart maskedEvents := by
  have alive : Along msixStep GoesOn oneDeviceStart maskedEvents :=
    ⟨by decide +kernel, by decide +kernel, by decide +kernel,
      by decide +kernel, trivial⟩
  refine (pending_delivered_iff oneDeviceStart_fresh alive).mpr ?_
  have idle (state : MsixState oneDevice)
      (rest : List (Fin oneDevice.count × MsixEvent)) :
      Throughout msixStep (Masked onlyDevice 0) state rest :=
    throughout_of_step (fun _ (_ : True) _ => pendingMasked_zero _)
      (fun _ _ _ => trivial) trivial rest
  refine ⟨idle _ _, idle _ _, idle _ _, ?_, trivial⟩
  rw [Throughout]
  decide +kernel

/-- A signal that is lost: the vector is unmasked and still pending. -/
theorem unmasking_loses_signal :
    MsixStart oneDeviceStart ∧
      Along msixStep GoesOn oneDeviceStart unmaskedEvents ∧
        ¬ Throughout msixStep NoneLost oneDeviceStart unmaskedEvents := by
  refine
    ⟨oneDeviceStart_fresh,
      ⟨by decide +kernel, by decide +kernel, by decide +kernel,
        by decide +kernel, by decide +kernel, trivial⟩, ?_⟩
  intro throughout
  have last : NoneLost (run msixStep oneDeviceStart unmaskedEvents) :=
    throughout.2.2.2.2.2
  have isOpen :
      FunctionOpen
        ((run msixStep oneDeviceStart unmaskedEvents).devices
          onlyDevice).ctrl := by
    decide +kernel
  have lost :
      ¬ PendingMasked
        ((run msixStep oneDeviceStart unmaskedEvents).devices
          onlyDevice).msixTable
        ((run msixStep oneDeviceStart unmaskedEvents).devices
          onlyDevice).msixPba := by
    decide +kernel
  exact lost (last onlyDevice isOpen)

end Kemu.Virtio.Msix
