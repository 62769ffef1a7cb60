import Kemu.Arch.XicsRuns
import Kemu.Lib.Tally

/-!
# Signals of the XICS

An interrupt that was signalled stays somewhere until a vCPU takes it: it is
presented, waits to be sent again, or is pending under the mask of its
source.  This needs that the guest masks no source with an interrupt in
flight, since what is sent again while it is masked is forgotten.

Nothing is made up: whatever the guest does, no source is taken more often
than it was signalled.  Both are read off one count of what is held of each
source, which every operation changes by at most what it sends.
-/

namespace Kemu.Arch.Xics

open Kemu.Lib.Tally Kemu.Lib.Transition

variable {nrcpus : Nat} {xics later : Controller}

/-! ## What is in flight -/

/-- A server presents the interrupt of a source. -/
def Controller.Presented (xics : Controller) (srcno : Nat) : Prop :=
  ∃ server < xics.nrServers, (xics.ss server).xisr = srcno + 16

/-- The interrupt of a source is presented, or waits to be sent again. -/
def Controller.InFlight (xics : Controller) (srcno : Nat) : Prop :=
  (xics.irqs srcno).rejected = true ∨ xics.Presented srcno

/-- Whether an interrupt is that of a source, as a number. -/
def counts (nr srcno : Nat) : Nat :=
  if nr = srcno + 16 then 1 else 0

/-- How many servers present a source, and whether it waits. -/
def flight (nrcpus : Nat) (xics : Controller) (srcno : Nat) : Nat :=
  tally (fun ss => counts ss.xisr srcno)
      (fun server : Fin nrcpus => xics.ss server) +
    (xics.irqs srcno).rejected.toNat

/-- What is left of the signals of a source. -/
def held (nrcpus : Nat) (xics : Controller) (srcno : Nat) : Nat :=
  flight nrcpus xics srcno + (xics.irqs srcno).maskedPending.toNat

/-- No signal. -/
def unsent : Nat → Nat :=
  fun _ => 0

/-- The numbers below those of the sources. -/
theorem counts_low {nr : Nat} (low : nr < 16) : counts nr = unsent := by
  funext srcno
  exact if_neg (by omega)

/-- A flag that is set for one interrupt more. -/
theorem toNat_or_counts (flag : Bool) (nr srcno : Nat) :
    (flag || decide (nr = srcno + 16)).toNat =
      max flag.toNat (counts nr srcno) := by
  unfold counts
  by_cases here : nr = srcno + 16
  · have bit := Bool.toNat_le flag
    simp [here, bit]
  · simp [here]

theorem Sound.inFlight_iff (sound : Sound nrcpus xics) {srcno : Nat} :
    xics.InFlight srcno ↔ 0 < flight nrcpus xics srcno := by
  unfold Controller.InFlight Controller.Presented flight
  rw [sound.servers]
  constructor
  · rintro (waits | ⟨server, inside, presented⟩)
    · rw [waits, Bool.toNat_true]
      omega
    · have weight :=
        weight_le_tally (fun ss : IcpServerState => counts ss.xisr srcno)
          (fun server : Fin nrcpus => xics.ss server) ⟨server, inside⟩
      have one : counts (xics.ss server).xisr srcno = 1 := if_pos presented
      dsimp only at weight
      omega
  · intro something
    by_cases waits : (xics.irqs srcno).rejected = true
    · exact Or.inl waits
    · rw [Bool.not_eq_true] at waits
      rw [waits, Bool.toNat_false, Nat.add_zero] at something
      obtain ⟨server, positive⟩ := exists_of_tally_pos something
      refine Or.inr ⟨server, server.isLt, ?_⟩
      by_contra other
      simp [counts, other] at positive

/-- One server presents something else. -/
theorem flight_setServer (xics : Controller) {server : Nat}
    (inside : server < nrcpus) (ss : IcpServerState) (srcno : Nat) :
    flight nrcpus (xics.setServer server ss) srcno +
        counts (xics.ss server).xisr srcno =
      flight nrcpus xics srcno + counts ss.xisr srcno := by
  have states :
      (fun other : Fin nrcpus => (xics.setServer server ss).ss other) =
        Function.update (fun other : Fin nrcpus => xics.ss other)
          ⟨server, inside⟩ ss := by
    funext other
    rw [ss_setServer, Function.update_apply]
    simp only [Fin.ext_iff]
  have moved :=
    tally_update (fun ss : IcpServerState => counts ss.xisr srcno)
      (fun other : Fin nrcpus => xics.ss other) ⟨server, inside⟩ ss
  have flags : (xics.setServer server ss).irqs = xics.irqs := rfl
  unfold flight
  rw [states, flags]
  dsimp only at moved
  omega

/-- Only its flag says whether a source waits to be sent again. -/
theorem flight_setIrq (nrcpus : Nat) (xics : Controller) {srcno : Nat} (irq : IcsIrqState)
    (same : irq.rejected = (xics.irqs srcno).rejected) (other : Nat) :
    flight nrcpus (xics.setIrq srcno irq) other =
      flight nrcpus xics other := by
  unfold flight
  rw [irqs_setIrq]
  split
  next here =>
    rw [here, same]
    rfl
  next => rfl

theorem rejected_le_flight (nrcpus : Nat) (xics : Controller) (srcno : Nat) :
    (xics.irqs srcno).rejected.toNat ≤ flight nrcpus xics srcno :=
  Nat.le_add_left ..

/-! ## Moves -/

/--
The sources keep their settings, no more is in flight than before and what
was sent, and of a source that is not masked there is still something.
-/
structure Moves (nrcpus : Nat) (sent : Nat → Nat)
    (xics later : Controller) : Prop where
  settings :
    ∀ srcno, later.irqs srcno =
      { xics.irqs srcno with rejected := (later.irqs srcno).rejected }
  atMost :
    ∀ srcno,
      flight nrcpus later srcno ≤ flight nrcpus xics srcno + sent srcno
  kept :
    ∀ srcno, (xics.irqs srcno).priority ≠ masked →
      0 < flight nrcpus xics srcno + sent srcno →
        0 < flight nrcpus later srcno

theorem Moves.refl : Moves nrcpus unsent xics xics where
  settings _ := rfl
  atMost _ := Nat.le_refl _
  kept _ _ := id

theorem Moves.trans {middle : Controller}
    (first : Moves nrcpus unsent xics middle)
    (second : Moves nrcpus unsent middle later) :
    Moves nrcpus unsent xics later where
  settings srcno := by
    rw [second.settings, first.settings]
  atMost srcno := (second.atMost srcno).trans (first.atMost srcno)
  kept srcno unmasked something := by
    refine second.kept srcno ?_ (first.kept srcno unmasked something)
    rw [first.settings]
    exact unmasked

theorem moves_setServer {server : Nat} (inside : server < nrcpus)
    {ss : IcpServerState} (same : ss.xisr = (xics.ss server).xisr) :
    Moves nrcpus unsent xics (xics.setServer server ss) := by
  have flights (srcno : Nat) :
      flight nrcpus (xics.setServer server ss) srcno =
        flight nrcpus xics srcno := by
    have moved := flight_setServer xics inside ss srcno
    rw [same] at moved
    omega
  refine ⟨fun _ => rfl, fun srcno => ?_, fun srcno _ something => ?_⟩
  · rw [flights]
    exact Nat.le_add_right ..
  · rw [flights]
    exact something

theorem moves_reject {nr : Nat}
    (valid : nr = xicsIpi ∨ icsValidIrq nr = true) :
    Moves nrcpus (counts nr) xics (icsReject xics nr) := by
  have flights (srcno : Nat) :
      flight nrcpus (icsReject xics nr) srcno +
          (xics.irqs srcno).rejected.toNat =
        flight nrcpus xics srcno +
          max (xics.irqs srcno).rejected.toNat (counts nr srcno) := by
    unfold flight
    rw [irqs_icsReject xics valid, icsReject_ss]
    dsimp only
    rw [toNat_or_counts]
    omega
  refine ⟨fun srcno => ?_, fun srcno => ?_, fun srcno _ something => ?_⟩
  · rw [irqs_icsReject xics valid]
  · have moved := flights srcno
    omega
  · have moved := flights srcno
    have flag := rejected_le_flight nrcpus xics srcno
    omega

/-- A server presents something else, and what it presented waits. -/
theorem moves_displaced {server : Nat} {ss : IcpServerState}
    (inside : server < nrcpus)
    (states : later.ss = (xics.setServer server ss).ss)
    (irqs :
      ∀ srcno, later.irqs srcno =
        { xics.irqs srcno with
          rejected :=
            (xics.irqs srcno).rejected ||
              decide ((xics.ss server).xisr = srcno + 16) }) :
    Moves nrcpus (counts ss.xisr) xics later := by
  have flights (srcno : Nat) :
      flight nrcpus later srcno + (xics.irqs srcno).rejected.toNat =
        flight nrcpus (xics.setServer server ss) srcno +
          max (xics.irqs srcno).rejected.toNat
            (counts (xics.ss server).xisr srcno) := by
    have flags : (xics.setServer server ss).irqs = xics.irqs := rfl
    unfold flight
    rw [states, irqs, flags]
    dsimp only
    rw [toNat_or_counts]
    omega
  refine ⟨fun srcno => ?_, fun srcno => ?_, fun srcno _ something => ?_⟩
  · rw [irqs]
  · have moved := flight_setServer xics inside ss srcno
    have waits := flights srcno
    omega
  · have moved := flight_setServer xics inside ss srcno
    have waits := flights srcno
    have flag :=
      rejected_le_flight nrcpus (xics.setServer server ss) srcno
    have same :
        ((xics.setServer server ss).irqs srcno).rejected =
          (xics.irqs srcno).rejected := rfl
    rw [same] at flag
    omega

theorem moves_offer (sound : Sound nrcpus xics) {server nr : Nat}
    (inside : server < nrcpus) (small : nr < 2 ^ 24) (priority : UInt8) :
    Moves nrcpus (counts nr) xics (offer xics server nr priority) := by
  have states :
      (offer xics server nr priority).ss =
        (xics.setServer server
          ((xics.ss server).present (BitVec.ofNat 32 nr) priority)).ss := by
    unfold offer Controller.setServer
    dsimp only
    rw [displace_ss]
  have moved :=
    moves_displaced inside states fun srcno =>
      irqs_offer server srcno nr (sound.each server).valid
  rw [(xics.ss server).xisr_given small] at moved
  exact moved

/-- A source is given to its server, or waits. -/
theorem moves_irq (sound : Sound nrcpus xics) {server srcno : Nat}
    (inside : server < nrcpus) (small : srcno < xicsNumIrqs)
    (priority : UInt8) :
    Moves nrcpus (counts (srcno + 16)) xics
      (icpIrq xics server (srcno + 16) priority) := by
  have valid : icsValidIrq (srcno + 16) = true :=
    validIrq_iff.2 ⟨srcno, small, rfl⟩
  have bound := (valid_small (Or.inr valid)).1
  rw [icpIrq_eq _ _ _ bound]
  split
  · exact moves_reject (Or.inr valid)
  · exact moves_offer sound inside bound priority

/-- What waits is sent once more, or is forgotten under its mask. -/
theorem moves_turn (sound : Sound nrcpus xics) {srcno : Nat}
    (small : srcno < xicsNumIrqs) :
    Moves nrcpus unsent xics (resendTurn xics srcno) := by
  have cleared :
      Sound nrcpus
        (xics.setIrq srcno { xics.irqs srcno with rejected := false }) :=
    sound.setIrq small (sound.routed srcno)
  have settings (other : Nat) :
      (xics.setIrq srcno
            { xics.irqs srcno with rejected := false }).irqs other =
        { xics.irqs other with
          rejected :=
            ((xics.setIrq srcno
              { xics.irqs srcno with rejected := false }).irqs
                other).rejected } := by
    rw [irqs_setIrq]
    split
    next here => rw [here]
    next => rfl
  unfold resendTurn xicsIrqOffset
  dsimp only
  split
  next rejected =>
    have less (other : Nat) :
        flight nrcpus
              (xics.setIrq srcno { xics.irqs srcno with rejected := false })
              other +
            counts (srcno + 16) other =
          flight nrcpus xics other := by
      unfold flight counts
      rw [irqs_setIrq]
      change tally (fun ss => counts ss.xisr other)
        (fun server : Fin nrcpus => xics.ss server) + _ + _ = _
      by_cases here : other = srcno
      · rw [if_pos here, if_pos (by omega), here, rejected]
        rfl
      · rw [if_neg here, if_neg (by omega)]
        rfl
    split
    next unmasked =>
      have sent :=
        moves_irq cleared (sound.routed srcno unmasked) small
          (xics.irqs srcno).priority
      refine ⟨fun other => ?_, fun other => ?_, fun other clear some' => ?_⟩
      · rw [sent.settings, settings]
      · rw [← less other]
        exact sent.atMost other
      · rw [← less other] at some'
        refine sent.kept other ?_ some'
        rw [settings]
        exact clear
    next hidden =>
      refine ⟨settings, fun other => ?_, fun other clear some' => ?_⟩
      · rw [← less other]
        exact Nat.le_add_right ..
      · have apart : ¬ other = srcno := by
          rintro rfl
          exact hidden clear
        have none : counts (srcno + 16) other = 0 := if_neg (by omega)
        rw [← less other, none] at some'
        exact some'
  next => exact Moves.refl

theorem moves_shift (sound : Sound nrcpus xics)
    (shift : Shift nrcpus xics later) : Moves nrcpus unsent xics later := by
  cases shift with
  | tune inside xisr line => exact moves_setServer inside xisr
  | ipi inside priority =>
      have offered :=
        moves_offer sound inside (by decide : xicsIpi < 2 ^ 24) priority
      rw [counts_low (by decide)] at offered
      exact offered
  | @giveBack server ss inside given zero low =>
      have moved :
          Moves nrcpus (counts ss.xisr) xics
            (icsReject (xics.setServer server ss)
              (xics.ss server).xisr) :=
        moves_displaced inside (icsReject_ss _ _)
          (irqs_icsReject (xics.setServer server ss)
            ((sound.each server).valid.resolve_left given))
      rw [zero, counts_low (by decide)] at moved
      exact moved
  | turn small => exact moves_turn sound small

theorem moves_shifts (sound : Sound nrcpus xics)
    (shifts : Shifts nrcpus xics later) : Moves nrcpus unsent xics later := by
  induction shifts with
  | refl => exact Moves.refl
  | tail before shift induction =>
      exact induction.trans (moves_shift (sound.shifts before) shift)

/-! ## Effects -/

/-- The source is not masked with its interrupt in flight. -/
def Clear (nrcpus : Nat) (xics : Controller) (srcno : Nat) : Prop :=
  0 < flight nrcpus xics srcno → (xics.irqs srcno).priority ≠ masked

/--
What is held grows by no more than what was sent, and of a source that is
clear there is still something; with an idle mask it stays clear.
-/
structure Effect (nrcpus : Nat) (idle : Prop) (sent : Nat → Nat)
    (xics later : Controller) : Prop where
  atMost :
    ∀ srcno, held nrcpus later srcno ≤ held nrcpus xics srcno + sent srcno
  kept :
    ∀ srcno, Clear nrcpus xics srcno →
      0 < held nrcpus xics srcno + sent srcno → 0 < held nrcpus later srcno
  clear :
    idle → ∀ srcno, Clear nrcpus xics srcno → Clear nrcpus later srcno

theorem Moves.effect {sent : Nat → Nat}
    (moves : Moves nrcpus sent xics later)
    (unmasked :
      ∀ srcno, 0 < sent srcno → (xics.irqs srcno).priority ≠ masked)
    (idle : Prop) : Effect nrcpus idle sent xics later := by
  have pending (srcno : Nat) :
      (later.irqs srcno).maskedPending = (xics.irqs srcno).maskedPending := by
    rw [moves.settings]
  refine ⟨fun srcno => ?_, fun srcno clear some' => ?_,
    fun _ srcno clear some' => ?_⟩
  · have atMost := moves.atMost srcno
    unfold held
    rw [pending]
    omega
  · unfold held at some' ⊢
    rw [pending]
    by_cases sends : 0 < sent srcno
    · have kept := moves.kept srcno (unmasked srcno sends) (by omega)
      omega
    · by_cases flies : 0 < flight nrcpus xics srcno
      · have kept := moves.kept srcno (clear flies) (by omega)
        omega
      · omega
  · have atMost := moves.atMost srcno
    rw [moves.settings]
    by_cases sends : 0 < sent srcno
    · exact unmasked srcno sends
    · exact clear (by omega)

/-- The last state of a source is the one that it has. -/
theorem setIrq_setIrq (srcno : Nat) (first second : IcsIrqState) :
    (xics.setIrq srcno first).setIrq srcno second =
      xics.setIrq srcno second := by
  unfold Controller.setIrq
  dsimp only
  rw [Function.update_idem, Bool.or_assoc, Bool.or_self]

/-- A source is set up anew, and what it waits for stays. -/
theorem effect_setIrq {srcno : Nat} {irq : IcsIrqState} {sent : Nat → Nat}
    {idle : Prop} (same : irq.rejected = (xics.irqs srcno).rejected)
    (pending :
      irq.maskedPending.toNat =
        max (xics.irqs srcno).maskedPending.toNat (sent srcno))
    (others : ∀ other, other ≠ srcno → sent other = 0)
    (clear :
      idle → Clear nrcpus xics srcno → 0 < flight nrcpus xics srcno →
        irq.priority ≠ masked) :
    Effect nrcpus idle sent xics (xics.setIrq srcno irq) := by
  have flights := flight_setIrq nrcpus xics irq same
  refine ⟨fun other => ?_, fun other _ something => ?_,
    fun quiet other before flies => ?_⟩
  · unfold held
    rw [flights, irqs_setIrq]
    split
    next here =>
      rw [here]
      omega
    next => omega
  · unfold held at something ⊢
    rw [flights, irqs_setIrq]
    split
    next here =>
      rw [here] at something ⊢
      omega
    next apart =>
      rw [others other apart] at something
      exact something
  · rw [flights] at flies
    rw [irqs_setIrq]
    split
    next here =>
      rw [here] at before flies
      exact clear quiet before flies
    next => exact before flies

theorem of_counts_pos {srcno other : Nat}
    (sends : 0 < counts (srcno + 16) other) : other = srcno := by
  by_contra apart
  rw [counts, if_neg (by omega)] at sends
  exact absurd sends (Nat.lt_irrefl 0)

/-- A signal is sent, or is pending under the mask. -/
theorem effect_signal (sound : Sound nrcpus xics) {srcno : Nat}
    (small : srcno < xicsNumIrqs) (idle : Prop) :
    Effect nrcpus idle (counts (srcno + 16)) xics
      (icsSetIrqMsi xics srcno true) := by
  unfold icsSetIrqMsi
  dsimp only
  rw [if_pos rfl]
  split
  next hidden =>
    have one : counts (srcno + 16) srcno = 1 := if_pos rfl
    refine
      effect_setIrq rfl ?_ (fun other apart => if_neg (by omega))
        fun _ clear => clear
    rw [one]
    exact (max_eq_right (Bool.toNat_le _)).symm
  next unmasked =>
    refine
      (moves_irq sound (sound.routed srcno unmasked) small _).effect
        (fun other sends => ?_) idle
    rw [of_counts_pos sends]
    exact unmasked

/-- What was pending under the mask is sent instead. -/
theorem effect_writeXive (sound : Sound nrcpus xics) {srcno server : Nat}
    (small : srcno < xicsNumIrqs) (inside : server < nrcpus)
    {priority : UInt8} {idle : Prop}
    (masks : idle → priority = masked → ¬ 0 < flight nrcpus xics srcno) :
    Effect nrcpus idle unsent xics
      (icsWriteXiveMsi xics (srcno + 16) server priority) := by
  unfold icsWriteXiveMsi xicsIrqOffset
  rw [Nat.add_sub_cancel]
  dsimp only
  rw [setIrq_setIrq]
  split
  next =>
    exact
      effect_setIrq rfl (Nat.max_zero _).symm (fun _ _ => rfl)
        fun quiet _ flies hidden => masks quiet hidden flies
  next sends =>
    rw [not_or, Bool.not_eq_false] at sends
    obtain ⟨pending, unmasked⟩ := sends
    generalize named :
      { xics.irqs srcno with
        server := server
        priority := priority
        maskedPending := false } = irq
    have visible : irq.priority ≠ masked := by
      rw [← named]
      exact unmasked
    have placed : Sound nrcpus (xics.setIrq srcno irq) := by
      rw [← named]
      exact sound.setIrq small fun _ => inside
    have flights := flight_setIrq nrcpus xics irq (by rw [← named])
    have effect :=
      (moves_irq placed inside small priority).effect
        (fun other sends => by
          rw [of_counts_pos sends, irqs_setIrq, if_pos rfl]
          exact visible)
        True
    have clear (other : Nat) (before : Clear nrcpus xics other) :
        Clear nrcpus (xics.setIrq srcno irq) other := by
      intro flies
      rw [flights] at flies
      rw [irqs_setIrq]
      split
      · exact visible
      · exact before flies
    have less (other : Nat) :
        held nrcpus (xics.setIrq srcno irq) other +
            counts (srcno + 16) other =
          held nrcpus xics other := by
      unfold held counts
      rw [flights, irqs_setIrq]
      by_cases here : other = srcno
      · rw [if_pos here, if_pos (by omega), here, pending, ← named]
        rfl
      · rw [if_neg here, if_neg (by omega)]
        rfl
    refine ⟨fun other => ?_, fun other before something => ?_,
      fun _ other before => effect.clear trivial other (clear other before)⟩
    · rw [← less other]
      exact effect.atMost other
    · rw [← less other] at something
      exact effect.kept other (clear other before) something

/-! ## Signals and what is taken -/

/-- The interrupt that `h_xirr` returns to the vCPU. -/
def taken (xics : Controller) (server : Nat) : Nat :=
  ((icpAccept xics server).1 &&& xisrMask).toNat

/-- What is taken is no longer held. -/
theorem flight_accept (xics : Controller) {server : Nat}
    (inside : server < nrcpus) (srcno : Nat) :
    flight nrcpus (icpAccept xics server).2 srcno +
        counts (taken xics server) srcno =
      flight nrcpus xics srcno := by
  have moved :=
    flight_setServer xics inside
      { xics.ss server with
        xirr := cpprBits (xics.ss server).pendingPriority
        line := false } srcno
  rw [(xics.ss server).xisr_accept, counts_low (by decide : 0 < 16)] at moved
  exact moved

/--
The controller, beside which it is noted how often each source was
signalled, how often it was taken, and whether it was signalled since it was
last taken.
-/
structure Watched where
  xics : Controller
  signals : Nat → Nat
  takes : Nat → Nat
  owed : Nat → Bool

/-- A call, and what is to be noted of it. -/
def watchedStep (watched : Watched) (call : Call nrcpus) : Watched :=
  let next := { watched with xics := xicsStep watched.xics call }
  if watched.xics.below then
    next
  else
    match call with
    | .irqLine srcno true =>
        { next with
          signals :=
            Function.update watched.signals srcno
              (watched.signals srcno + 1)
          owed := Function.update watched.owed srcno true }
    | .hXirr cpuId =>
        let nr := taken watched.xics cpuId
        { next with
          takes srcno :=
            watched.takes srcno + if nr = srcno + 16 then 1 else 0
          owed srcno := watched.owed srcno && decide (nr ≠ srcno + 16) }
    | _ => next

/-- Before the first call. -/
def watchedStart (nrcpus : Nat) : Watched where
  xics := xicsInit nrcpus
  signals _ := 0
  takes _ := 0
  owed _ := false

/-- No source is masked whose interrupt is in flight. -/
def MasksIdle (watched : Watched) : Call nrcpus → Prop
  | .setXive nr _ priority =>
      priority.toUInt8 = masked →
        ∀ srcno, nr.toNat = srcno + 16 → ¬ watched.xics.InFlight srcno
  | _ => True

section Runs

variable {watched : Watched}

/-- What comes of a call. -/
inductive Outcome (watched : Watched) (call : Call nrcpus) : Watched → Prop where
  | quiet {later : Controller} (sound : Sound nrcpus later)
      (effect :
        Effect nrcpus (MasksIdle watched call) unsent watched.xics later) :
      Outcome watched call { watched with xics := later }
  | signal {later : Controller} (srcno : Nat) (sound : Sound nrcpus later)
      (effect :
        Effect nrcpus (MasksIdle watched call) (counts (srcno + 16))
          watched.xics later) :
      Outcome watched call
        { watched with
          xics := later
          signals :=
            Function.update watched.signals srcno
              (watched.signals srcno + 1)
          owed := Function.update watched.owed srcno true }
  | accept (cpuId : Fin nrcpus) :
      Outcome watched call
        { watched with
          xics := (icpAccept watched.xics cpuId).2
          takes srcno :=
            watched.takes srcno + counts (taken watched.xics cpuId) srcno
          owed srcno :=
            watched.owed srcno &&
              decide (taken watched.xics cpuId ≠ srcno + 16) }

theorem xicsStep_below (below : xics.below = true) (call : Call nrcpus) :
    xicsStep xics call = xics := by
  unfold xicsStep
  rw [if_pos below]

theorem Outcome.of_shifts {call : Call nrcpus}
    (sound : Sound nrcpus watched.xics)
    (shifts : Shifts nrcpus watched.xics later) :
    Outcome watched call { watched with xics := later } :=
  .quiet (sound.shifts shifts)
    ((moves_shifts sound shifts).effect
      (fun _ sends => absurd sends (Nat.lt_irrefl 0)) _)

theorem watchedStep_outcome (sound : Sound nrcpus watched.xics)
    (call : Call nrcpus) :
    Outcome watched call (watchedStep watched call) := by
  unfold watchedStep
  dsimp only
  split
  next below =>
    rw [xicsStep_below below]
    exact .of_shifts sound .refl
  next within =>
    unfold xicsStep
    rw [if_neg within]
    cases call with
    | hCppr cpuId cppr => exact .of_shifts sound (shifts_setCppr cpuId.isLt _)
    | hIpi server mfrr =>
        dsimp only
        split
        · exact .of_shifts sound .refl
        next there =>
          rw [sound.servers] at there
          exact .of_shifts sound (shifts_setMfrr (Nat.lt_of_not_le there) _)
    | hXirr cpuId => exact .accept cpuId
    | hEoi cpuId xirr => exact .of_shifts sound (shifts_eoi cpuId.isLt _)
    | setXive nr server priority =>
        dsimp only
        split
        · exact .of_shifts sound .refl
        next fine =>
          rw [sound.servers] at fine
          simp only [not_or, Bool.not_eq_false] at fine
          obtain ⟨srcno, small, number⟩ := validIrq_iff.1 fine.1
          have inside := Nat.lt_of_not_le fine.2.1
          rw [number]
          refine
            .quiet (sound.writeXive small inside _)
              (effect_writeXive sound small inside ?_)
          intro idle hidden
          rw [← sound.inFlight_iff]
          exact idle hidden srcno number
    | irqLine srcno level =>
        cases level with
        | false => exact .of_shifts sound .refl
        | true =>
            exact
              .signal srcno (sound.setIrqMsi srcno.isLt true)
                (effect_signal sound srcno.isLt _)

/-- Before the first call nothing is held. -/
theorem held_start (srcno : Nat) :
    held nrcpus (xicsInit nrcpus) srcno = 0 := by
  have none :
      tally (fun ss : IcpServerState => counts ss.xisr srcno)
        (fun server : Fin nrcpus => (xicsInit nrcpus).ss server) = 0 :=
    tally_eq_zero fun server => by
      simp [xicsInit, IcpServerState.xisr, counts]
  unfold held flight
  rw [none]
  rfl

/-- What holds when no source was masked with its interrupt in flight. -/
structure Lossless (nrcpus : Nat) (watched : Watched) : Prop where
  sound : Sound nrcpus watched.xics
  clear : ∀ srcno, Clear nrcpus watched.xics srcno
  kept :
    ∀ srcno, watched.owed srcno = true → 0 < held nrcpus watched.xics srcno

theorem Lossless.accept (lossless : Lossless nrcpus watched)
    (cpuId : Fin nrcpus) (takes : Nat → Nat) :
    Lossless nrcpus
      { watched with
        xics := (icpAccept watched.xics cpuId).2
        takes := takes
        owed srcno :=
          watched.owed srcno &&
            decide (taken watched.xics cpuId ≠ srcno + 16) } where
  sound := lossless.sound.accept cpuId.isLt
  clear := by
    intro srcno flies
    have took := flight_accept watched.xics cpuId.isLt srcno
    dsimp only at flies
    exact lossless.clear srcno (by omega)
  kept := by
    intro srcno owed
    simp only [Bool.and_eq_true, decide_eq_true_eq] at owed
    have took := flight_accept watched.xics cpuId.isLt srcno
    have none : counts (taken watched.xics cpuId) srcno = 0 := if_neg owed.2
    have before := lossless.kept srcno owed.1
    rw [held, ← took, none] at before
    exact before

theorem Lossless.step (lossless : Lossless nrcpus watched)
    (call : Call nrcpus) (idle : MasksIdle watched call) :
    Lossless nrcpus (watchedStep watched call) := by
  have outcome := watchedStep_outcome lossless.sound call
  generalize watchedStep watched call = after at outcome ⊢
  cases outcome with
  | quiet sound effect =>
      refine
        ⟨sound, fun srcno => effect.clear idle srcno (lossless.clear srcno),
          fun srcno owed => ?_⟩
      exact effect.kept srcno (lossless.clear srcno) (lossless.kept srcno owed)
  | signal srcno sound effect =>
      refine
        ⟨sound, fun other => effect.clear idle other (lossless.clear other),
          fun other owed => effect.kept other (lossless.clear other) ?_⟩
      by_cases here : other = srcno
      · have one : counts (srcno + 16) other = 1 := if_pos (by omega)
        omega
      · have before : watched.owed other = true :=
          (Function.update_of_ne here ..).symm.trans owed
        exact Nat.lt_add_right _ (lossless.kept other before)
  | accept cpuId => exact lossless.accept cpuId _

theorem Lossless.start : Lossless nrcpus (watchedStart nrcpus) where
  sound := Sound.start
  clear := by
    intro srcno flies
    have none : held nrcpus (watchedStart nrcpus).xics srcno = 0 :=
      held_start srcno
    unfold held at none
    omega
  kept _ owed := absurd owed Bool.false_ne_true

/--
In every run in which the guest masks no source with an interrupt in flight,
an interrupt that was signalled and not taken since is presented to a vCPU,
waits to be sent again, or is pending under the mask.
-/
theorem no_signal_lost (nrcpus : Nat) (calls : List (Call nrcpus))
    (idle : Along watchedStep MasksIdle (watchedStart nrcpus) calls) :
    Throughout watchedStep
      (fun watched =>
        ∀ srcno, watched.owed srcno = true →
          watched.xics.InFlight srcno ∨
            (watched.xics.irqs srcno).maskedPending = true)
      (watchedStart nrcpus) calls := by
  refine
    throughout_of_along (fun watched lossless srcno owed => ?_)
      (fun _ call lossless => lossless.step call) Lossless.start idle
  rw [lossless.sound.inFlight_iff]
  by_cases pending : (watched.xics.irqs srcno).maskedPending = true
  · exact Or.inr pending
  · have something := lossless.kept srcno owed
    rw [Bool.not_eq_true] at pending
    rw [held, pending] at something
    exact Or.inl something

/-- A source is signalled before the vCPU takes interrupts. -/
theorem no_signal_lost_of_early :
    let calls : List (Call 1) :=
      [.setXive 16 0 5, .irqLine ⟨0, by decide⟩ true]
    Throughout watchedStep
      (fun watched =>
        ∀ srcno, watched.owed srcno = true →
          watched.xics.InFlight srcno ∨
            (watched.xics.irqs srcno).maskedPending = true)
      (watchedStart 1) calls :=
  no_signal_lost 1 [.setXive 16 0 5, .irqLine ⟨0, by decide⟩ true]
    ⟨fun hidden => absurd hidden (by decide), trivial, trivial⟩

/-! ## Nothing is made up -/

/-- Every signal is still held or was used up. -/
structure Counted (nrcpus : Nat) (watched : Watched) : Prop where
  sound : Sound nrcpus watched.xics
  balance :
    ∀ srcno, watched.takes srcno + held nrcpus watched.xics srcno ≤
      watched.signals srcno

theorem Counted.step (counted : Counted nrcpus watched)
    (call : Call nrcpus) : Counted nrcpus (watchedStep watched call) := by
  have outcome := watchedStep_outcome counted.sound call
  generalize watchedStep watched call = after at outcome ⊢
  cases outcome with
  | quiet sound effect =>
      refine ⟨sound, fun srcno => ?_⟩
      exact
        (Nat.add_le_add_left (effect.atMost srcno) _).trans
          (counted.balance srcno)
  | signal srcno sound effect =>
      refine ⟨sound, fun other => ?_⟩
      have before := counted.balance other
      have sent := effect.atMost other
      dsimp only
      rw [Function.update_apply]
      unfold counts at sent
      by_cases here : other = srcno
      · rw [if_pos (by omega)] at sent
        rw [if_pos here, ← here]
        omega
      · rw [if_neg (by omega)] at sent
        rw [if_neg here]
        omega
  | accept cpuId =>
      refine ⟨counted.sound.accept cpuId.isLt, fun srcno => ?_⟩
      have before := counted.balance srcno
      have took := flight_accept watched.xics cpuId.isLt srcno
      unfold held at before ⊢
      rw [← took] at before
      change _ + (_ + (watched.xics.irqs srcno).maskedPending.toNat) ≤ _
      dsimp only
      omega

theorem Counted.start : Counted nrcpus (watchedStart nrcpus) where
  sound := Sound.start
  balance srcno := by
    have none : held nrcpus (watchedStart nrcpus).xics srcno = 0 :=
      held_start srcno
    rw [none]
    exact Nat.le_refl _

/-- In every run no source is taken more often than it was signalled. -/
theorem takes_le_signals (nrcpus : Nat) (calls : List (Call nrcpus)) :
    Throughout watchedStep
      (fun watched =>
        ∀ srcno, watched.takes srcno ≤ watched.signals srcno)
      (watchedStart nrcpus) calls := by
  refine
    throughout_of_step (fun watched counted srcno => ?_)
      (fun _ call counted => counted.step call) Counted.start calls
  exact Nat.le_trans (Nat.le_add_right ..) (counted.balance srcno)

end Runs

end Kemu.Arch.Xics
