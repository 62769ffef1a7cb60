import Kemu.Arch.Xics
import Mathlib.Logic.Relation

/-!
# The servers over whole runs

The line of a vCPU is raised exactly while an interrupt is presented to it,
and no array is left except where an IPI is rejected, which writes in front
of the sources.  All that the operations do without a signal are shifts of
what is presented; each shift keeps this, and so does every sequence of
calls.
-/

namespace Kemu.Arch.Xics

open Kemu.Lib.MaskedWord Kemu.Lib.Transition

variable {nrcpus : Nat} {xics : Controller}

/-! ## Rejected interrupts -/

theorem irqs_reject {srcno : Nat} (small : srcno < xicsNumIrqs)
    (other : Nat) :
    (icsReject xics (srcno + 16)).irqs other =
      if other = srcno then
        { xics.irqs srcno with rejected := true }
      else
        xics.irqs other := by
  rw [icsReject_source xics small, irqs_setIrq]

/-- Only the flag of a source changes when something is rejected. -/
theorem irqs_icsReject (xics : Controller) {nr : Nat}
    (valid : nr = xicsIpi ∨ icsValidIrq nr = true) (srcno : Nat) :
    (icsReject xics nr).irqs srcno =
      { xics.irqs srcno with
        rejected :=
          (xics.irqs srcno).rejected || decide (nr = srcno + 16) } := by
  rcases valid with rfl | source
  · rw [icsReject_ipi]
    have apart : ¬ xicsIpi = srcno + 16 := by
      unfold xicsIpi
      omega
    simp [apart]
  · obtain ⟨other, small, rfl⟩ := validIrq_iff.1 source
    rw [irqs_reject small]
    by_cases here : srcno = other
    · rw [if_pos here, here]
      simp
    · rw [if_neg here]
      have apart : ¬ other = srcno := fun same => here same.symm
      simp [apart]

theorem irqs_displace (server srcno : Nat)
    (valid :
      (xics.ss server).xisr = 0 ∨ (xics.ss server).xisr = xicsIpi ∨
        icsValidIrq (xics.ss server).xisr = true) :
    (displace xics server).irqs srcno =
      { xics.irqs srcno with
        rejected :=
          (xics.irqs srcno).rejected ||
            decide ((xics.ss server).xisr = srcno + 16) } := by
  unfold displace
  split
  next something =>
    exact irqs_icsReject _ (valid.resolve_left something) srcno
  next zero =>
    rw [not_not] at zero
    rw [zero]
    simp

theorem irqs_offer (server srcno nr : Nat) {priority : UInt8}
    (valid :
      (xics.ss server).xisr = 0 ∨ (xics.ss server).xisr = xicsIpi ∨
        icsValidIrq (xics.ss server).xisr = true) :
    (offer xics server nr priority).irqs srcno =
      { xics.irqs srcno with
        rejected :=
          (xics.irqs srcno).rejected ||
            decide ((xics.ss server).xisr = srcno + 16) } :=
  irqs_displace server srcno valid

theorem valid_small {nr : Nat} (valid : nr = xicsIpi ∨ icsValidIrq nr = true) :
    nr < 2 ^ 24 ∧ nr ≠ 0 := by
  rcases valid with rfl | source
  · decide
  · obtain ⟨srcno, small, rfl⟩ := validIrq_iff.1 source
    unfold xicsNumIrqs at small
    omega

/-- What a server is given is what it presents. -/
theorem IcpServerState.xisr_given (ss : IcpServerState) {nr : Nat}
    (small : nr < 2 ^ 24) (priority : UInt8) :
    (ss.present (BitVec.ofNat 32 nr) priority).xisr = nr := by
  rw [ss.xisr_present _ _ (xisr_fits small), BitVec.toNat_ofNat]
  omega

/-! ## Shifts -/

/--
What happens without a signal: a server goes on with what it presents, is
given an IPI or gives back what it presents, or a source that was rejected is
sent again.
-/
inductive Shift (nrcpus : Nat) (xics : Controller) : Controller → Prop where
  | tune {server : Nat} {ss : IcpServerState} (inside : server < nrcpus)
      (xisr : ss.xisr = (xics.ss server).xisr)
      (line : ss.line = (xics.ss server).line) :
      Shift nrcpus xics (xics.setServer server ss)
  | ipi {server : Nat} (inside : server < nrcpus) (priority : UInt8) :
      Shift nrcpus xics (offer xics server xicsIpi priority)
  | giveBack {server : Nat} {ss : IcpServerState} (inside : server < nrcpus)
      (given : (xics.ss server).xisr ≠ 0) (zero : ss.xisr = 0)
      (low : ss.line = false) :
      Shift nrcpus xics
        (icsReject (xics.setServer server ss) (xics.ss server).xisr)
  | turn {srcno : Nat} (small : srcno < xicsNumIrqs) :
      Shift nrcpus xics (resendTurn xics srcno)

/-- Any number of shifts. -/
abbrev Shifts (nrcpus : Nat) : Controller → Controller → Prop :=
  Relation.ReflTransGen (Shift nrcpus)

theorem shifts_checkIpi {server : Nat} (inside : server < nrcpus) :
    Shifts nrcpus xics (icpCheckIpi xics server) := by
  rw [icpCheckIpi_eq]
  split
  · exact .refl
  · exact .single (.ipi inside _)

theorem shifts_icsResend : Shifts nrcpus xics (icsResend xics) := by
  have turns (sources : List Nat) :
      ∀ xics, (∀ srcno ∈ sources, srcno < xicsNumIrqs) →
        Shifts nrcpus xics (sources.foldl resendTurn xics) := by
    induction sources with
    | nil => exact fun _ _ => .refl
    | cons srcno rest induction =>
        intro xics small
        have first : Shift nrcpus xics (resendTurn xics srcno) :=
          .turn (small srcno List.mem_cons_self)
        exact
          .head first
            (induction _ (List.forall_mem_cons.mp small).2)
  exact turns _ xics fun _ => List.mem_range.1

theorem shifts_icpResend {server : Nat} (inside : server < nrcpus) :
    Shifts nrcpus xics (icpResend xics server) := by
  unfold icpResend
  dsimp only
  split
  · exact (shifts_checkIpi inside).trans shifts_icsResend
  · exact shifts_icsResend

theorem shifts_setCppr {server : Nat} (inside : server < nrcpus)
    (cppr : UInt8) : Shifts nrcpus xics (icpSetCppr xics server cppr) := by
  have fits := IcpServerState.cpprBits_fits cppr
  have placed :
      Shift nrcpus xics
        (xics.setServer server
          ((xics.ss server).setCppr (cpprBits cppr))) :=
    .tune inside ((xics.ss server).xisr_setCppr fits) rfl
  unfold icpSetCppr
  dsimp only
  split
  · split
    next given =>
      have here :
          (xics.setServer server
            ((xics.ss server).setCppr (cpprBits cppr))).ss server =
            (xics.ss server).setCppr (cpprBits cppr) := by
        rw [ss_setServer, if_pos rfl]
      have back :=
        Shift.giveBack inside (by rw [here]; exact given.1)
          ((xics.ss server).setCppr (cpprBits cppr)).xisr_clearXisr rfl
      rw [here] at back
      exact .tail (.single placed) back
    next => exact .single placed
  · split
    · exact .head placed (shifts_icpResend inside)
    · exact .single placed

theorem shifts_setMfrr {server : Nat} (inside : server < nrcpus)
    (mfrr : UInt8) : Shifts nrcpus xics (icpSetMfrr xics server mfrr) := by
  have placed :
      Shift nrcpus xics
        (xics.setServer server { xics.ss server with mfrr := mfrr }) :=
    .tune inside rfl rfl
  unfold icpSetMfrr
  dsimp only
  split
  · exact .head placed (shifts_checkIpi inside)
  · exact .single placed

theorem shifts_eoi {server : Nat} (inside : server < nrcpus)
    (xirr : BitVec 32) : Shifts nrcpus xics (icpEoi xics server xirr) := by
  have placed :
      Shift nrcpus xics
        (xics.setServer server
          ((xics.ss server).setCppr (xirr &&& cpprMask))) :=
    .tune inside ((xics.ss server).xisr_setCppr (and_mask_fits xirr)) rfl
  unfold icpEoi
  dsimp only
  split
  · exact .head placed (shifts_icpResend inside)
  · exact .single placed

/-! ## The lines -/

/-- The line of a vCPU says whether an interrupt is presented to it. -/
structure IcpServerState.Sound (ss : IcpServerState) : Prop where
  line : ss.line = true ↔ ss.xisr ≠ 0
  valid :
    ss.xisr = 0 ∨ ss.xisr = xicsIpi ∨ icsValidIrq ss.xisr = true

/-- What holds of the controller after every call. -/
structure Sound (nrcpus : Nat) (xics : Controller) : Prop where
  servers : xics.nrServers = nrcpus
  inside : xics.strayed = false
  each : ∀ server, (xics.ss server).Sound
  routed :
    ∀ srcno, (xics.irqs srcno).priority ≠ masked →
      (xics.irqs srcno).server < nrcpus

theorem IcpServerState.Sound.present {ss : IcpServerState} {nr : Nat}
    (priority : UInt8) (valid : nr = xicsIpi ∨ icsValidIrq nr = true) :
    (ss.present (BitVec.ofNat 32 nr) priority).Sound := by
  have small := valid_small valid
  have xisr := ss.xisr_given small.1 priority
  refine ⟨?_, ?_⟩
  · rw [xisr]
    exact iff_of_true rfl small.2
  · rw [xisr]
    exact Or.inr valid

theorem Sound.setServer (sound : Sound nrcpus xics) {server : Nat}
    (inside : server < nrcpus) {ss : IcpServerState} (each : ss.Sound) :
    Sound nrcpus (xics.setServer server ss) where
  servers := sound.servers
  inside := by
    have apart : ¬ xics.nrServers ≤ server := by
      rw [sound.servers]
      omega
    simp [Controller.setServer, sound.inside, apart]
  each := by
    intro other
    rw [ss_setServer]
    split
    · exact each
    · exact sound.each other
  routed := sound.routed

theorem Sound.setIrq (sound : Sound nrcpus xics) {srcno : Nat}
    (inside : srcno < xicsNumIrqs) {irq : IcsIrqState}
    (routed : irq.priority ≠ masked → irq.server < nrcpus) :
    Sound nrcpus (xics.setIrq srcno irq) where
  servers := sound.servers
  inside := by
    have apart : ¬ xicsNumIrqs ≤ srcno := by omega
    simp [Controller.setIrq, sound.inside, apart]
  each := sound.each
  routed := by
    intro other
    rw [irqs_setIrq]
    split
    · exact routed
    · exact sound.routed other

theorem Sound.reject (sound : Sound nrcpus xics) {nr : Nat}
    (valid : nr = xicsIpi ∨ icsValidIrq nr = true) :
    Sound nrcpus (icsReject xics nr) := by
  rcases valid with rfl | source
  · rw [icsReject_ipi]
    exact ⟨sound.servers, sound.inside, sound.each, sound.routed⟩
  · obtain ⟨srcno, small, rfl⟩ := validIrq_iff.1 source
    rw [icsReject_source xics small]
    exact sound.setIrq small (sound.routed srcno)

theorem Sound.offer (sound : Sound nrcpus xics) {server nr : Nat}
    (inside : server < nrcpus) (priority : UInt8)
    (valid : nr = xicsIpi ∨ icsValidIrq nr = true) :
    Sound nrcpus (offer xics server nr priority) := by
  have displaced : Sound nrcpus (displace xics server) := by
    unfold displace
    split
    next something =>
      exact
        sound.reject ((sound.each server).valid.resolve_left something)
    next => exact sound
  exact
    displaced.setServer inside
      (IcpServerState.Sound.present priority valid)

/-- A source is given to its server. -/
theorem Sound.irq (sound : Sound nrcpus xics) {server srcno : Nat}
    (inside : server < nrcpus) (small : srcno < xicsNumIrqs)
    (priority : UInt8) :
    Sound nrcpus (icpIrq xics server (srcno + 16) priority) := by
  have valid : icsValidIrq (srcno + 16) = true :=
    validIrq_iff.2 ⟨srcno, small, rfl⟩
  unfold xicsNumIrqs at small
  rw [icpIrq_eq _ _ _ (by omega)]
  split
  · exact sound.reject (Or.inr valid)
  · exact sound.offer inside priority (Or.inr valid)

theorem Sound.turn (sound : Sound nrcpus xics) {srcno : Nat}
    (small : srcno < xicsNumIrqs) :
    Sound nrcpus (resendTurn xics srcno) := by
  unfold resendTurn
  dsimp only
  split
  · have cleared :
        Sound nrcpus
          (xics.setIrq srcno { xics.irqs srcno with rejected := false }) :=
      sound.setIrq small (sound.routed srcno)
    split
    next unmasked =>
      exact cleared.irq (sound.routed srcno unmasked) small _
    next => exact cleared
  · exact sound

theorem IcpServerState.sound_of_zero {ss : IcpServerState}
    (low : ss.line = false) (zero : ss.xisr = 0) : ss.Sound where
  line := by simp [low, zero]
  valid := Or.inl zero

theorem Sound.shift {later : Controller} (sound : Sound nrcpus xics)
    (shift : Shift nrcpus xics later) : Sound nrcpus later := by
  cases shift with
  | @tune server ss inside xisr line =>
      have each := sound.each server
      refine sound.setServer inside ⟨?_, ?_⟩
      · rw [xisr, line]
        exact each.line
      · rw [xisr]
        exact each.valid
  | ipi inside priority => exact sound.offer inside priority (Or.inl rfl)
  | @giveBack server ss inside given zero low =>
      have cleared :=
        sound.setServer inside (IcpServerState.sound_of_zero low zero)
      exact
        cleared.reject ((sound.each server).valid.resolve_left given)
  | turn small => exact sound.turn small

theorem Sound.shifts {later : Controller} (sound : Sound nrcpus xics)
    (shifts : Shifts nrcpus xics later) : Sound nrcpus later := by
  induction shifts with
  | refl => exact sound
  | tail _ shift induction => exact induction.shift shift

theorem Sound.accept (sound : Sound nrcpus xics) {server : Nat}
    (inside : server < nrcpus) :
    Sound nrcpus (icpAccept xics server).2 :=
  sound.setServer inside
    (IcpServerState.sound_of_zero rfl ((xics.ss server).xisr_accept _ _))

theorem Sound.setIrqMsi (sound : Sound nrcpus xics) {srcno : Nat}
    (small : srcno < xicsNumIrqs) (val : Bool) :
    Sound nrcpus (icsSetIrqMsi xics srcno val) := by
  unfold icsSetIrqMsi
  dsimp only
  split
  · split
    · exact sound.setIrq small (sound.routed srcno)
    next unmasked =>
      exact sound.irq (sound.routed srcno unmasked) small _
  · exact sound

theorem Sound.writeXive (sound : Sound nrcpus xics) {srcno server : Nat}
    (small : srcno < xicsNumIrqs) (inside : server < nrcpus)
    (priority : UInt8) :
    Sound nrcpus (icsWriteXiveMsi xics (srcno + 16) server priority) := by
  have placed :
      Sound nrcpus
        (xics.setIrq srcno
          { xics.irqs srcno with server := server, priority := priority }) :=
    sound.setIrq small fun _ => inside
  unfold icsWriteXiveMsi xicsIrqOffset
  rw [Nat.add_sub_cancel]
  dsimp only
  split
  · exact placed
  · exact (placed.setIrq small fun _ => inside).irq inside small _

theorem Sound.step (sound : Sound nrcpus xics) (call : Call nrcpus) :
    Sound nrcpus (xicsStep xics call) := by
  unfold xicsStep
  split
  · exact sound
  · cases call with
    | hCppr cpuId cppr => exact sound.shifts (shifts_setCppr cpuId.isLt _)
    | hIpi server mfrr =>
        dsimp only
        split
        · exact sound
        next there =>
          rw [sound.servers] at there
          exact sound.shifts (shifts_setMfrr (Nat.lt_of_not_le there) _)
    | hXirr cpuId => exact sound.accept cpuId.isLt
    | hEoi cpuId xirr => exact sound.shifts (shifts_eoi cpuId.isLt _)
    | setXive nr server priority =>
        dsimp only
        split
        · exact sound
        next fine =>
          rw [sound.servers] at fine
          simp only [not_or, Bool.not_eq_false] at fine
          obtain ⟨srcno, small, number⟩ := validIrq_iff.1 fine.1
          rw [number]
          exact sound.writeXive small (Nat.lt_of_not_le fine.2.1) _
    | irqLine srcno level => exact sound.setIrqMsi srcno.isLt level

theorem Sound.start : Sound nrcpus (xicsInit nrcpus) where
  servers := rfl
  inside := rfl
  each _ := IcpServerState.sound_of_zero rfl (by simp [xicsInit, IcpServerState.xisr])
  routed _ unmasked := absurd rfl unmasked

/--
In every run, what is presented to a vCPU is an interrupt that there is, its
line is raised exactly while something is presented, every source that is not
masked has a server that there is, and nothing outside of the arrays is
written, the rejection of an IPI apart.
-/
theorem line_follows_xisr (nrcpus : Nat) (calls : List (Call nrcpus)) :
    Throughout xicsStep
      (fun xics =>
        xics.strayed = false ∧
          (∀ srcno, (xics.irqs srcno).priority ≠ masked →
            (xics.irqs srcno).server < nrcpus) ∧
          ∀ server,
            ((xics.ss server).line = true ↔ (xics.ss server).xisr ≠ 0) ∧
              ((xics.ss server).xisr = 0 ∨ (xics.ss server).xisr = xicsIpi ∨
                icsValidIrq (xics.ss server).xisr = true))
      (xicsInit nrcpus) calls :=
  throughout_of_step
    (fun _ sound =>
      ⟨sound.inside, sound.routed, fun server =>
        ⟨(sound.each server).line, (sound.each server).valid⟩⟩)
    (fun _ call sound => sound.step call) Sound.start calls

end Kemu.Arch.Xics
