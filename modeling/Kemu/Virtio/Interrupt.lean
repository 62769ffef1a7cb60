import Kemu.Lib.Transition
import Kemu.Virtio.Ring

/-!
# Interrupts under `VIRTIO_RING_F_EVENT_IDX`

The device publishes used elements and asks `virtio_queue__should_signal`
whether to interrupt; the driver consumes elements and tells, through
`used_event`, at which index it wants the next interrupt.  A driver that is
about to sleep sets `used_event` to the next index it has not consumed and
looks once more: if the ring is still empty it relies on being interrupted.

`last_used_signalled` moves only when a signal is sent, so the window that
`vring_need_event` compares against grows with every suppressed interrupt.
The true counts `published`, `signalled`, `consumed` and `event` make the
size of that window visible; the code sees their low sixteen bits.
-/

namespace Kemu.Virtio.Interrupt

open Kemu.Lib.Transition
open Kemu.Lib.WrapIndex
open Kemu.Virtio.Ring

/-! ## The two parties -/

/--
The queue with the true counts behind its indices.  `armed` is the index of
the element a sleeping driver waits for, until the device has asked once
whether to signal it.
-/
structure SignalState where
  mem : RingMem
  queue : VirtQueue
  published : Nat
  signalled : Nat
  consumed : Nat
  event : Nat
  armed : Option Nat

/-- The driver stores a new `used_event`; what it waited for is void. -/
def SignalState.writeUsedEvent
    (state : SignalState) (index : Nat) : SignalState :=
  { state with
    mem :=
      { state.mem with
        avail :=
          { state.mem.avail with
            ring :=
              Function.update state.mem.avail.ring
                state.queue.vring.num (stamp index) } }
    event := index
    armed := none }

/-- The device publishes one element. -/
def SignalState.publishElem
    (state : SignalState) (head len : UInt32) : SignalState :=
  { state with
    mem := virtQueueSetUsedElem state.queue state.mem head len
    published := state.published + 1 }

/-- The device publishes the elements it has filled ahead of the index. -/
def SignalState.publishJump
    (state : SignalState) (jump : UInt16) : SignalState :=
  { state with
    mem := virtQueueUsedIdxAdvance state.mem jump
    published := state.published + jump.toNat }

/-- The device calls `virtio_queue__should_signal`. -/
def SignalState.callShouldSignal (state : SignalState) : SignalState :=
  let answer := virtioQueueShouldSignal state.queue state.mem
  { state with
    queue := answer.2
    signalled := if answer.1 then state.published else state.signalled
    armed := state.armed.filter fun index => state.published ≤ index }

/-- One atomic step of either party. -/
inductive SignalStep : SignalState → SignalState → Prop where
  | publishElem {state : SignalState} (head len : UInt32) :
      SignalStep state (state.publishElem head len)
  | fillElem {state : SignalState} (head len : UInt32) (offset : UInt16) :
      SignalStep state
        { state with
          mem :=
            virtQueueSetUsedElemNoUpdate state.queue state.mem
              head len offset }
  | publishJump {state : SignalState}
      (jump : UInt16) (positive : 0 < jump) :
      SignalStep state (state.publishJump jump)
  | callShouldSignal {state : SignalState} :
      SignalStep state state.callShouldSignal
  | consume {state : SignalState}
      (available : state.consumed < state.published) :
      SignalStep state { state with consumed := state.consumed + 1 }
  | writeUsedEvent {state : SignalState}
      (index : Nat) (notBeyond : index ≤ state.published) :
      SignalStep state (state.writeUsedEvent index)
  | findEmpty {state : SignalState}
      (asked : state.event = state.consumed)
      (empty : state.published = state.consumed) :
      SignalStep state { state with armed := some state.consumed }
  | makeAvailable {state : SignalState}
      (avail : VringAvail)
      (sameEvent :
        avail.ring state.queue.vring.num =
          state.mem.avail.ring state.queue.vring.num) :
      SignalStep state { state with mem := { state.mem with avail := avail } }

/-- Event indices negotiated, nothing published since the last signal. -/
structure SignalInitial (state : SignalState) : Prop where
  negotiated : state.queue.useEventIdx = true
  published : state.published = state.mem.used.idx.toNat
  signalled : state.signalled = state.published
  signalledIdx : state.queue.lastUsedSignalled = state.mem.used.idx
  consumed : state.consumed = state.published
  usedEvent :
    vringUsedEvent state.queue state.mem = stamp state.event
  notBeyond : state.event ≤ state.published
  unarmed : state.armed = none

/-- The interleavings of device and driver steps. -/
def signalSystem : System SignalState where
  initial := SignalInitial
  step := SignalStep

/--
The driver sleeps until element `index`, that element is published, and the
device has not asked whether to signal since.
-/
def Awaited (state : SignalState) (index : Nat) : Prop :=
  state.armed = some index ∧ index < state.published

/--
The unsignalled window has not wrapped within the elements published from
`index` on.
-/
def WindowIntact (state : SignalState) (index : Nat) : Prop :=
  (state.published - index - 1) % turn <
    (state.published - state.signalled) % turn

/-! ## The invariant -/

/-- The inductive invariant of `signalSystem`. -/
structure SignalInvariant (state : SignalState) : Prop where
  negotiated : state.queue.useEventIdx = true
  usedIdx : state.mem.used.idx = stamp state.published
  signalledIdx : state.queue.lastUsedSignalled = stamp state.signalled
  usedEvent :
    vringUsedEvent state.queue state.mem = stamp state.event
  ordered : state.signalled ≤ state.published
  armedEvent :
    ∀ index, state.armed = some index →
      state.event = index ∧
        state.signalled ≤ index ∧ index ≤ state.published

theorem SignalInitial.invariant {state : SignalState}
    (initial : SignalInitial state) :
    SignalInvariant state := by
  have indexStamp :
      state.mem.used.idx = stamp state.mem.used.idx.toNat := by
    simp [stamp]
  refine
    { negotiated := initial.negotiated
      usedIdx := ?_
      signalledIdx := ?_
      usedEvent := initial.usedEvent
      ordered := initial.signalled.le
      armedEvent := by simp [initial.unarmed] }
  · rw [initial.published]
    exact indexStamp
  · rw [initial.signalledIdx, initial.signalled, initial.published]
    exact indexStamp

/-- `virtio_queue__should_signal` as a function of the true counts. -/
theorem SignalInvariant.shouldSignal_eq
    {state : SignalState} (holds : SignalInvariant state) :
    virtioQueueShouldSignal state.queue state.mem =
      if vringNeedEvent (stamp state.event) (stamp state.published)
          (stamp state.signalled) then
        (true,
          { state.queue with lastUsedSignalled := stamp state.published })
      else
        (false, state.queue) := by
  rw [virtioQueueShouldSignal_of_eventIdx holds.negotiated,
    holds.usedEvent, holds.usedIdx, holds.signalledIdx]

/-- No signal is due while the awaited element is still unpublished. -/
theorem vringNeedEvent_unpublished (index old : UInt16) :
    vringNeedEvent index index old = false := by
  have largest : (index - index - 1).toNat = turn - 1 := by
    simp [turn]
  rw [vringNeedEvent, decide_eq_false_iff_not,
    UInt16.lt_iff_toNat_lt, largest]
  have bounded := (index - old).toNat_lt
  simp only [turn]
  omega

section Steps

variable {state : SignalState}

/-- Steps that only append to the published elements. -/
theorem SignalInvariant.publish
    (holds : SignalInvariant state)
    {mem : RingMem} {amount : Nat}
    (sameAvail : mem.avail = state.mem.avail)
    (advanced : mem.used.idx = stamp (state.published + amount)) :
    SignalInvariant
      { state with
        mem := mem
        published := state.published + amount } := by
  refine
    { negotiated := holds.negotiated
      usedIdx := advanced
      signalledIdx := holds.signalledIdx
      usedEvent := ?_
      ordered := holds.ordered.trans (Nat.le_add_right _ _)
      armedEvent := ?_ }
  · rw [vringUsedEvent, sameAvail]
    exact holds.usedEvent
  · intro index armed
    rcases holds.armedEvent index armed with ⟨event, after, published⟩
    exact ⟨event, after, published.trans (Nat.le_add_right _ _)⟩

theorem SignalInvariant.callShouldSignal
    (holds : SignalInvariant state) :
    SignalInvariant state.callShouldSignal := by
  rw [SignalState.callShouldSignal, holds.shouldSignal_eq]
  split
  case isTrue needed =>
    refine
      { holds with
        signalledIdx := rfl
        ordered := le_rfl
        armedEvent := ?_ }
    intro index armed
    simp only [Option.filter_eq_some_iff, decide_eq_true_eq] at armed
    rcases holds.armedEvent index armed.1 with ⟨event, _, published⟩
    have unpublished : state.event = state.published := by omega
    rw [unpublished, vringNeedEvent_unpublished] at needed
    cases needed
  case isFalse _ =>
    refine { holds with armedEvent := ?_ }
    intro index armed
    simp only [Option.filter_eq_some_iff, decide_eq_true_eq] at armed
    exact holds.armedEvent index armed.1

theorem SignalInvariant.writeUsedEvent
    (holds : SignalInvariant state) (index : Nat) :
    SignalInvariant (state.writeUsedEvent index) := by
  refine
    { holds with
      usedEvent := ?_
      armedEvent := by simp [SignalState.writeUsedEvent] }
  simp [SignalState.writeUsedEvent, vringUsedEvent]

end Steps

theorem SignalStep.preserves_invariant
    {source target : SignalState}
    (holds : SignalInvariant source)
    (move : SignalStep source target) :
    SignalInvariant target := by
  cases move with
  | publishElem head len =>
      apply holds.publish
      · rfl
      · rw [virtQueueSetUsedElem_idx, holds.usedIdx, stamp_succ]
  | fillElem head len offset => exact { holds with }
  | publishJump jump _ =>
      apply holds.publish
      · rfl
      · rw [virtQueueUsedIdxAdvance_idx, holds.usedIdx, stamp_add]
        simp [stamp]
  | callShouldSignal => exact holds.callShouldSignal
  | consume _ => exact { holds with }
  | writeUsedEvent index _ => exact holds.writeUsedEvent index
  | findEmpty asked empty =>
      refine { holds with armedEvent := ?_ }
      rintro index ⟨⟩
      exact ⟨asked, empty ▸ holds.ordered, empty.ge⟩
  | makeAvailable avail sameEvent =>
      refine { holds with usedEvent := ?_ }
      rw [vringUsedEvent, sameEvent]
      exact holds.usedEvent

/-- The invariant holds in every interleaving. -/
theorem signalSystem_invariant {state : SignalState}
    (reached : Reachable signalSystem state) :
    SignalInvariant state := by
  apply reached.invariant
  · intro _ initial
    exact SignalInitial.invariant initial
  · intro _ _ holds move
    exact SignalStep.preserves_invariant holds move

/-! ## When the awaited interrupt is sent -/

/--
In every run, the first question after the awaited element is published is
answered with a signal exactly when the unsignalled window is intact; this
is so whenever fewer than a full turn of elements is unsignalled.
-/
theorem awaited_signal_iff
    (state : SignalState) (reached : Reachable signalSystem state)
    (index : Nat) (awaited : Awaited state index) :
    ((virtioQueueShouldSignal state.queue state.mem).1 = true ↔
        WindowIntact state index) ∧
      (state.published - state.signalled < turn →
        WindowIntact state index) := by
  have holds := signalSystem_invariant reached
  rcases awaited with ⟨armed, published⟩
  rcases holds.armedEvent index armed with ⟨event, after, _⟩
  constructor
  · rw [WindowIntact, holds.shouldSignal_eq, event,
      ← vringNeedEvent_stamp published holds.ordered]
    split
    case isTrue needed => simp [needed]
    case isFalse spared => simp [spared]
  · intro close
    rw [WindowIntact, Nat.mod_eq_of_lt close, Nat.mod_eq_of_lt (by omega)]
    omega

/-- A freshly enabled queue of 256 entries. -/
def freshQueue : SignalState where
  mem :=
    { desc := fun _ => default
      avail := { flags := 0, idx := 0, ring := fun _ => 0 }
      used :=
        { flags := 0, idx := 0, ring := fun _ => default, availEvent := 0 } }
  queue :=
    { vring := { num := 256, desc := 1, avail := 1, used := 1 }
      vringAddr := default
      lastAvailIdx := 0
      lastUsedSignalled := 0
      endian := 0
      useEventIdx := true
      enabled := true }
  published := 0
  signalled := 0
  consumed := 0
  event := 0
  armed := none

theorem freshQueue_initial : SignalInitial freshQueue := by
  constructor <;> decide

/-- A driver waiting on the fresh queue is signalled for the first element. -/
theorem awaited_signal_on_fresh_queue :
    let armed := { freshQueue with armed := some 0 }
    (virtioQueueShouldSignal (armed.publishElem 0 0).queue
      (armed.publishElem 0 0).mem).1 = true := by
  intro armed
  have reached : Reachable signalSystem (armed.publishElem 0 0) :=
    ((Reachable.start freshQueue_initial).next
      (SignalStep.findEmpty rfl rfl)).next (SignalStep.publishElem 0 0)
  have answer :=
    awaited_signal_iff (armed.publishElem 0 0) reached 0
      ⟨rfl, by decide⟩
  exact answer.1.2 (answer.2 (by decide))

/-! ## A run that loses an interrupt -/

/--
After one signalled element, a polling driver that leaves `used_event` at
zero has consumed `count` elements, none of the later ones signalled.
-/
def polled (count : Nat) : SignalState :=
  { freshQueue with
    mem :=
      { freshQueue.mem with
        used := { freshQueue.mem.used with idx := stamp count } }
    queue := { freshQueue.queue with lastUsedSignalled := 1 }
    published := count
    signalled := 1
    consumed := count }

/-- Completing head zero leaves the constant used ring as it is. -/
theorem update_default_usedElem (slot : Nat) :
    Function.update (fun _ => default : Nat → VringUsedElem) slot ⟨0, 0⟩ =
      fun _ => default := by
  funext position
  rw [Function.update_apply]
  split <;> rfl

/-- The first element is signalled: `used_event` is the index it has. -/
theorem freshQueue_first :
    (freshQueue.publishElem 0 0).callShouldSignal =
      { polled 1 with consumed := 0 } := by
  have fires : vringNeedEvent 0 1 0 = true := by decide
  have one : stamp 1 = 1 := by decide
  simp [SignalState.callShouldSignal, SignalState.publishElem, polled,
    freshQueue, virtQueueSetUsedElem, virtQueueSetUsedElemNoUpdate,
    virtQueueUsedIdxAdvance, virtioQueueShouldSignal, vringUsedEvent,
    update_default_usedElem, fires, one]

theorem polled_publishElem (count : Nat) :
    (polled count).publishElem 0 0 =
      { polled (count + 1) with consumed := count } := by
  simp [SignalState.publishElem, polled, freshQueue, virtQueueSetUsedElem,
    virtQueueSetUsedElemNoUpdate, virtQueueUsedIdxAdvance,
    update_default_usedElem, stamp_succ]

/-- The question is answered in the negative: `used_event` lies behind. -/
theorem polled_callShouldSignal (count : Nat) :
    SignalState.callShouldSignal
        { polled (count + 1) with consumed := count } =
      { polled (count + 1) with consumed := count } := by
  have spared :
      vringNeedEvent 0 (stamp (count + 1)) 1 = false := by
    rw [← Bool.not_eq_true]
    have test :=
      vringNeedEvent_stamp (Nat.succ_pos count)
        (Nat.le_add_left 1 count)
    exact fun fires => by simpa using test.1 fires
  simp [SignalState.callShouldSignal, polled, freshQueue,
    virtioQueueShouldSignal, vringUsedEvent, spared]

/-- One more polled completion. -/
theorem polled_next {count : Nat}
    (reached : Reachable signalSystem (polled count)) :
    Reachable signalSystem (polled (count + 1)) := by
  have published := reached.next (SignalStep.publishElem 0 0)
  rw [polled_publishElem] at published
  have asked := published.next SignalStep.callShouldSignal
  rw [polled_callShouldSignal] at asked
  exact asked.next (SignalStep.consume (Nat.lt_succ_self count))

/-- Every positive number of elements can be polled away unsignalled. -/
theorem polled_reachable (count : Nat) :
    Reachable signalSystem (polled (count + 1)) := by
  induction count with
  | zero =>
      have start : Reachable signalSystem freshQueue :=
        Reachable.start freshQueue_initial
      have asked :=
        (start.next (SignalStep.publishElem 0 0)).next
          SignalStep.callShouldSignal
      rw [freshQueue_first] at asked
      exact asked.next (SignalStep.consume Nat.zero_lt_one)
  | succ count reached => exact polled_next reached

/--
The driver has polled 65536 elements, asks to be woken for the next one and
sleeps; then that element is published.
-/
def overslept : SignalState :=
  SignalState.publishElem
    { (polled turn).writeUsedEvent turn with armed := some turn } 0 0

theorem overslept_reachable : Reachable signalSystem overslept :=
  (((polled_reachable (turn - 1)).next
    (SignalStep.writeUsedEvent turn le_rfl)).next
    (SignalStep.findEmpty rfl rfl)).next
    (SignalStep.publishElem 0 0)

/--
A reachable state in which the driver sleeps until an element that has been
published and the device decides not to interrupt.
-/
theorem overslept_not_signalled :
    Reachable signalSystem overslept ∧
      Awaited overslept 65536 ∧
      (virtioQueueShouldSignal overslept.queue overslept.mem).1 = false := by
  refine ⟨overslept_reachable, ⟨rfl, by decide⟩, ?_⟩
  decide

end Kemu.Virtio.Interrupt
