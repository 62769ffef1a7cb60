import Kemu.Vfio.Msix

/-!
# What the updates of message interrupts do

Enabling the capability brings the array of descriptors up to date in one of
two ways, all at once or one by one, and both leave the array the vectors
ask for.  Configuring a vector gives it a descriptor and a route of its own
and makes its two masks equal, and with them the irqfd.
-/

namespace Kemu.Vfio.Msix

open Kemu.Init.Irq
open Kemu.Lib.Bytes
open Kemu.Lib.Transition
open Kemu.Virtio.Msix

/-! ## Registering -/

/-- What registering descriptors leaves alone. -/
structure SameVectors (state now : VfioState) : Prop where
  guestState : now.guestState = state.guestState
  entries : now.entries = state.entries
  irq : now.irq = state.irq
  irqfds : now.irqfds = state.irqfds

theorem SameVectors.refl (state : VfioState) : SameVectors state state :=
  ⟨rfl, rfl, rfl, rfl⟩

/-- The array that is kept is the one VFIO uses. -/
def Cached (state : VfioState) : Prop :=
  state.hostState.enabled = true →
    state.registered = some state.eventfds

/-- VFIO is enabled and has the descriptors that the vectors ask for. -/
structure Registered (device : VfioDevice) (state : VfioState) : Prop where
  enabled : state.hostState.enabled = true
  eventfds :
    ∀ vector < device.nrEntries,
      state.eventfds vector = wantedFd (state.entries vector)

section Register

variable {answers : VfioAnswers}

/-- The loop brings the listed vectors up to date, and no others. -/
theorem updateVectors_spec (granted : ∀ i, 0 ≤ answers.setIrqs i)
    (vectors : List Nat) (ret : Int) (state : VfioState)
    (registered : state.registered = some state.eventfds) :
    let now := (updateVectors answers vectors ret state).2
    SameVectors state now ∧
      now.hostState.enabled = state.hostState.enabled ∧
      now.registered = some now.eventfds ∧
      ∀ i, now.eventfds i =
        if i ∈ vectors then wantedFd (state.entries i)
        else state.eventfds i := by
  induction vectors generalizing ret state with
  | nil => exact ⟨.refl state, rfl, registered, fun _ => rfl⟩
  | cons vector rest induction =>
      rw [updateVectors]
      dsimp only
      split
      case isTrue same =>
        obtain ⟨frame, enabled, kept, eventfds⟩ :=
          induction ret state registered
        refine ⟨frame, enabled, kept, fun i => ?_⟩
        rw [eventfds]
        by_cases here : i = vector
        · subst here
          simp [same]
        · simp [here]
      case isFalse =>
        rw [if_neg (Int.not_lt.2 (granted vector))]
        have both :
            setIrqsSingle state.registered vector
                (wantedFd (state.entries vector)) =
              Function.update state.eventfds vector
                (wantedFd (state.entries vector)) := by
          rw [setIrqsSingle, registered, Option.getD_some]
        let fd := wantedFd (state.entries vector)
        obtain ⟨frame, enabled, kept, eventfds⟩ :=
          induction (answers.setIrqs vector)
            { state with
              registered :=
                some (setIrqsSingle state.registered vector fd)
              eventfds := Function.update state.eventfds vector fd
              hostState :=
                { state.hostState with
                  empty := state.hostState.empty && decide (fd < 0) } }
            (congrArg some both)
        refine ⟨⟨frame.guestState, frame.entries, frame.irq,
          frame.irqfds⟩, enabled, kept, fun i => ?_⟩
        rw [eventfds]
        by_cases here : i = vector
        · subst here
          simp [fd]
        · simp [here]

/-- The state after the line interrupt is out of the way. -/
theorem disableIntx_spec (condition : Bool) (state : VfioState) :
    let now := if condition then vfioPciDisableIntx state else state
    SameVectors state now ∧ now.hostState = state.hostState ∧
      now.registered = state.registered ∧
      now.eventfds = state.eventfds := by
  cases condition <;> exact ⟨⟨rfl, rfl, rfl, rfl⟩, rfl, rfl, rfl⟩

theorem vfioPciEnableMsis_spec (device : VfioDevice)
    (answers : VfioAnswers) (grantedAll : 0 ≤ answers.setIrqsAll)
    (granted : ∀ i, 0 ≤ answers.setIrqs i) (state : VfioState)
    (cached : Cached state) :
    let now := (vfioPciEnableMsis device answers state).2
    SameVectors state now ∧ Cached now ∧
      (state.guestState.enabled = true →
        state.guestState.masked = false → Registered device now) := by
  rw [vfioPciEnableMsis]
  obtain ⟨frame, host, kept, same⟩ :=
    disableIntx_spec device.modeIntx state
  split
  case isTrue disabled =>
    refine ⟨.refl state, cached, fun enabled => ?_⟩
    rw [enabled] at disabled
    cases disabled
  case isFalse =>
    dsimp only
    generalize
      (if device.modeIntx = true then vfioPciDisableIntx state
        else state) = now at frame host kept same ⊢
    split
    case isTrue =>
      rw [if_neg (Int.not_lt.2 grantedAll)]
      refine ⟨⟨frame.guestState, frame.entries, frame.irq, frame.irqfds⟩,
        fun _ => rfl, fun _ _ => ⟨rfl, fun vector inside => ?_⟩⟩
      exact if_pos inside
    case isFalse neither =>
      rw [Bool.not_eq_true, Bool.or_eq_false_iff, Bool.not_eq_false',
        Bool.and_eq_false_iff] at neither
      have enabled := neither.1
      rw [host] at enabled
      have current : now.registered = some now.eventfds := by
        rw [kept, same]
        exact cached enabled
      split
      case isTrue masked =>
        refine ⟨frame, fun _ => current, fun _ unmasked => ?_⟩
        rw [frame.guestState, unmasked] at masked
        cases masked
      case isFalse =>
        obtain ⟨last, host', done, eventfds⟩ :=
          updateVectors_spec granted (List.range device.nrEntries) 0 now
            current
        refine ⟨⟨last.guestState.trans frame.guestState,
          last.entries.trans frame.entries, last.irq.trans frame.irq,
          last.irqfds.trans frame.irqfds⟩, fun _ => done, fun _ _ => ?_⟩
        refine ⟨host'.trans neither.1, fun vector inside => ?_⟩
        rw [eventfds, if_pos (List.mem_range.2 inside), last.entries]

theorem vfioPciDisableMsis_spec (device : VfioDevice)
    (answers : VfioAnswers) (grantedNone : 0 ≤ answers.setIrqsNone)
    (state : VfioState) :
    let now := (vfioPciDisableMsis device answers state).2
    SameVectors state now ∧ now.hostState.enabled = false := by
  rw [vfioPciDisableMsis]
  split
  case isTrue disabled =>
    exact ⟨.refl state, by simpa using disabled⟩
  case isFalse =>
    rw [if_neg (Int.not_lt.2 grantedNone)]
    dsimp only
    split
    · rw [vfioPciEnableIntx]
      split_ifs <;> exact ⟨⟨rfl, rfl, rfl, rfl⟩, rfl⟩
    · exact ⟨⟨rfl, rfl, rfl, rfl⟩, rfl⟩

end Register

/-! ## Connecting -/

section Connect

variable {device : VfioDevice} {answers : VfioAnswers}

/-- The pair under which the irqfd of a vector is known. -/
def VfioPciMsiEntry.wire (entry : VfioPciMsiEntry) : Int × Int :=
  (entry.gsi, entry.eventfd)

/-- A vector has an irqfd exactly when the host does not mask it. -/
def Wired (irqfds : List (Int × Int)) (entry : VfioPciMsiEntry) : Prop :=
  entry.wire ∈ irqfds ↔ entry.hostState.masked = false

/-- What making the masks equal does. -/
structure MaskUpdated (now done : MsiUpdate) : Prop where
  irq : done.irq = now.irq
  config : done.entry.config = now.entry.config
  gsi : done.entry.gsi = now.entry.gsi
  eventfd : done.entry.eventfd = now.entry.eventfd
  guest : done.entry.guestState = now.entry.guestState
  host : done.entry.hostState.masked = now.entry.guestState.masked
  wired : Wired done.irqfds done.entry
  others :
    ∀ wire, wire ≠ now.entry.wire →
      (wire ∈ done.irqfds ↔ wire ∈ now.irqfds)

theorem updateMask_spec (granted : 0 ≤ answers.irqfd) (now : MsiUpdate)
    (wired : Wired now.irqfds now.entry) :
    MaskUpdated now (updateMask answers now).2 := by
  rw [updateMask]
  dsimp only
  split
  case isTrue same =>
    exact ⟨rfl, rfl, rfl, rfl, rfl, same.symm, wired, fun _ _ => .rfl⟩
  case isFalse differ =>
    split
    case isTrue masked =>
      have unmasked : now.entry.guestState.masked = false := by
        rw [masked] at differ
        simpa using differ
      rw [if_neg (Int.not_lt.2 granted)]
      refine ⟨rfl, rfl, rfl, rfl, rfl, rfl, ?_, fun wire other => ?_⟩
      · refine iff_of_true ?_ unmasked
        exact List.mem_append_right _ (List.mem_singleton.2 rfl)
      · rw [List.mem_append, List.mem_singleton]
        exact or_iff_left other
    case isFalse unmasked =>
      have masked : now.entry.guestState.masked = true := by
        rw [Bool.not_eq_true] at unmasked
        rw [unmasked] at differ
        simpa using differ
      refine ⟨rfl, rfl, rfl, rfl, rfl, rfl, ?_, fun wire other => ?_⟩
      · refine iff_of_false ?_ (by simp [masked])
        intro member
        have kept := (List.mem_filter.1 member).2
        exact absurd rfl (of_decide_eq_true kept)
      · rw [List.mem_filter]
        exact and_iff_left (decide_eq_true other)

theorem irqUpdateMsixRoute_nextGsi (ioctl : Int) (irq : IrqState)
    (gsi : UInt32) (msg : MsiMsg) :
    (irqUpdateMsixRoute ioctl irq gsi msg).nextGsi = irq.nextGsi := by
  rw [irqUpdateMsixRoute]
  split
  · rfl
  · split
    · rfl
    · split <;> rfl

/-- A route that is added has the next GSI. -/
theorem irqAddMsixRoute_granted {host : IrqHost}
    (routing : host.hasIrqRouting = true) {irq : IrqState}
    (countable :
      irq.allocatedGsis ≤ nrEntries irq → nrEntries irq + 32 < 2 ^ 31)
    (msg : MsiMsg) (deviceId : UInt32) :
    ∃ now : IrqState,
      irqAddMsixRoute host true 0 irq msg deviceId =
          ((irq.nextGsi : Int), now) ∧
        now.nextGsi = irq.nextGsi + 1 := by
  have append : ∀ (state : IrqState) (entry : KvmIrqRoutingEntry),
      (appendEntry state entry).nextGsi = state.nextGsi := by
    intro state entry
    rw [appendEntry]
    split <;> rfl
  unfold irqAddMsixRoute
  rw [routing]
  rcases irqAllocateRoutingEntry_cases true irq countable with
    ⟨_, allocated⟩ | ⟨_, _, allocated⟩ | ⟨_, refused, _⟩
  · rw [allocated]
    simp [append]
  · rw [allocated]
    simp [append]
  · cases refused

/-- What configuring a vector does. -/
structure EntryUpdated (now done : MsiUpdate) : Prop where
  config : done.entry.config = now.entry.config
  guest : done.entry.guestState = now.entry.guestState
  host : done.entry.hostState.masked = now.entry.guestState.masked
  allocated : 0 ≤ done.entry.gsi
  opened : 0 ≤ done.entry.eventfd
  wired : Wired done.irqfds done.entry
  others :
    ∀ wire : Int × Int, wire.1 ≠ done.entry.gsi →
      (wire ∈ done.irqfds ↔ wire ∈ now.irqfds)
  next : now.irq.nextGsi ≤ done.irq.nextGsi
  taken : done.entry.gsi < done.irq.nextGsi
  known : ∀ wire ∈ done.irqfds, wire.1 < (done.irq.nextGsi : Int)
  gsi :
    done.entry.gsi = now.entry.gsi ∨ done.entry.gsi = now.irq.nextGsi

/-- A vector before it is configured. -/
structure EntryReady (now : MsiUpdate) : Prop where
  taken : now.entry.gsi < now.irq.nextGsi
  known : ∀ wire ∈ now.irqfds, wire.1 < (now.irq.nextGsi : Int)
  fresh : now.entry.gsi < 0 → now.entry.hostState.masked = true
  opened : 0 ≤ now.entry.gsi → 0 ≤ now.entry.eventfd
  wired : 0 ≤ now.entry.gsi → Wired now.irqfds now.entry

variable (routing : device.irqHost.hasIrqRouting = true)
  (realloc : answers.realloc = true) (addRoute : answers.addRoute = 0)
  (irqfd : 0 ≤ answers.irqfd)

include routing realloc addRoute irqfd

theorem updateRoute_spec {now : MsiUpdate} (ready : EntryReady now)
    (opened : 0 ≤ now.entry.eventfd)
    (countable :
      now.irq.allocatedGsis ≤ nrEntries now.irq →
        nrEntries now.irq + 32 < 2 ^ 31) :
    EntryUpdated now (updateRoute device answers now).2 := by
  rw [updateRoute]
  dsimp only
  split
  case isTrue without =>
    obtain ⟨irq, added, next⟩ :=
      irqAddMsixRoute_granted routing countable
        (messageAt now.entry.config 0) (device.devNum <<< 3)
    rw [realloc, addRoute, added]
    dsimp only
    rw [if_neg (by omega)]
    have unwired :
        Wired now.irqfds { now.entry with gsi := now.irq.nextGsi } := by
      refine iff_of_false ?_ ?_
      · intro member
        have below := ready.known _ member
        exact absurd below (Int.lt_irrefl _)
      · rw [ready.fresh without]
        exact Bool.noConfusion
    have spec :=
      updateMask_spec irqfd
        ⟨irq, now.irqfds, { now.entry with gsi := now.irq.nextGsi }⟩
        unwired
    have gsi := spec.gsi
    have nextDone := congrArg IrqState.nextGsi spec.irq
    dsimp only at gsi nextDone
    refine ⟨spec.config, spec.guest, spec.host, ?_, ?_, spec.wired,
      fun wire other => spec.others wire fun same => ?_, ?_, ?_,
      fun wire member => ?_, Or.inr gsi⟩
    · rw [gsi]
      omega
    · rw [spec.eventfd]
      exact opened
    · rw [same, gsi] at other
      exact other rfl
    · omega
    · rw [gsi]
      omega
    · by_cases same :
          wire = (⟨irq, now.irqfds,
            { now.entry with gsi := now.irq.nextGsi }⟩ :
              MsiUpdate).entry.wire
      · rw [same]
        show (now.irq.nextGsi : Int) < _
        omega
      · have below := ready.known wire ((spec.others wire same).1 member)
        omega
  case isFalse with_ =>
    have old : 0 ≤ now.entry.gsi := Int.not_lt.1 with_
    have spec :=
      updateMask_spec irqfd
        ⟨irqUpdateMsixRoute answers.updateRoute now.irq
          (.ofInt now.entry.gsi) (messageAt now.entry.config 0),
          now.irqfds, now.entry⟩ (ready.wired old)
    have nextDone := congrArg IrqState.nextGsi spec.irq
    dsimp only at nextDone
    rw [irqUpdateMsixRoute_nextGsi] at nextDone
    have gsi := spec.gsi
    dsimp only at gsi
    refine ⟨spec.config, spec.guest, spec.host, le_of_le_of_eq old gsi.symm, ?_, spec.wired,
      fun wire other => spec.others wire fun same => ?_, ?_, ?_,
      fun wire member => ?_, Or.inl gsi⟩
    · rw [spec.eventfd]
      exact opened
    · rw [same, gsi] at other
      exact other rfl
    · exact Nat.le_of_eq nextDone.symm
    · rw [gsi, nextDone]
      exact ready.taken
    · rw [nextDone]
      by_cases same : wire = now.entry.wire
      · rw [same]
        exact ready.taken
      · exact ready.known wire ((spec.others wire same).1 member)

theorem vfioPciUpdateMsiEntry_spec (eventfd : 0 ≤ answers.eventfd)
    {now : MsiUpdate} (ready : EntryReady now)
    (countable :
      now.irq.allocatedGsis ≤ nrEntries now.irq →
        nrEntries now.irq + 32 < 2 ^ 31) :
    EntryUpdated now (vfioPciUpdateMsiEntry device answers now).2 := by
  rw [vfioPciUpdateMsiEntry]
  split
  case isTrue closed =>
    have without : now.entry.gsi < 0 := by
      by_contra allocated
      have opened := ready.opened (Int.not_lt.1 allocated)
      omega
    rw [if_neg (Int.not_lt.2 eventfd)]
    have opened :
        EntryReady
          { now with
            entry := { now.entry with eventfd := answers.eventfd } } :=
      ⟨ready.taken, ready.known, ready.fresh,
        fun allocated => absurd allocated (Int.not_le.2 without),
        fun allocated => absurd allocated (Int.not_le.2 without)⟩
    have spec :=
      updateRoute_spec routing realloc addRoute irqfd opened eventfd
        countable
    exact ⟨spec.config, spec.guest, spec.host, spec.allocated,
      spec.opened, spec.wired, spec.others, spec.next, spec.taken,
      spec.known, spec.gsi⟩
  case isFalse open_ =>
    exact updateRoute_spec routing realloc addRoute irqfd ready
      (Int.not_lt.1 open_) countable

end Connect

end Kemu.Vfio.Msix
