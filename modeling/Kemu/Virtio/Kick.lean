import Kemu.Lib.Transition
import Kemu.Virtio.Ring

/-!
# Kicks under `VIRTIO_RING_F_EVENT_IDX`

The driver makes a batch of entries available by writing `avail->idx`, then
reads `avail_event` and kicks the device when `vring_need_event` says so.
The device, woken by a kick, repeats `virt_queue__available` and
`virt_queue__pop` until the ring is empty.  `virt_queue__available` is not
atomic: it first publishes `avail_event` and only then reads `avail->idx`,
so the two halves are separate steps here, as are the driver's write, its
read and its decision.

The counters `added` and `taken` are the true numbers of entries made
available and popped.  They are what the driver's bound on outstanding
entries is about; the code itself only ever sees their low sixteen bits.
-/

namespace Kemu.Virtio.Kick

open Kemu.Lib.Transition
open Kemu.Lib.WrapIndex
open Kemu.Virtio.Ring

/-! ## The two parties -/

/-- Where the driver is between two batches. -/
inductive DriverPhase where
  | resting
  | wrote (old new : UInt16)
  | readEvent (event old new : UInt16)
deriving DecidableEq, Repr

/-- Where the device is in `while (available) pop`. -/
inductive DevicePhase where
  | idle
  | entering
  | published
  | found
deriving DecidableEq, Repr

/-- Shared memory, the private state of both parties and the kick line. -/
structure KickState where
  mem : RingMem
  queue : VirtQueue
  driver : DriverPhase
  device : DevicePhase
  kickPending : Bool
  added : Nat
  taken : Nat

/-- The driver fills ring slots and publishes the new index. -/
def KickState.writeBatch
    (state : KickState) (amount : Nat) (ring : Nat → UInt16) : KickState :=
  let old := state.mem.avail.idx
  let new := old + UInt16.ofNat amount
  { state with
    mem :=
      { state.mem with
        avail := { state.mem.avail with idx := new, ring := ring } }
    driver := .wrote old new
    added := state.added + amount }

/-- One atomic step of either party. -/
inductive KickStep (num : Nat) : KickState → KickState → Prop where
  | driverWrite {state : KickState}
      (amount : Nat) (ring : Nat → UInt16)
      (resting : state.driver = .resting)
      (fits : state.added + amount ≤ state.taken + num) :
      KickStep num state (state.writeBatch amount ring)
  | driverRead {state : KickState} {old new : UInt16}
      (wrote : state.driver = .wrote old new) :
      KickStep num state
        { state with
          driver := .readEvent state.mem.used.availEvent old new }
  | driverDecide {state : KickState} {event old new : UInt16}
      (decided : state.driver = .readEvent event old new) :
      KickStep num state
        { state with
          driver := .resting
          kickPending :=
            state.kickPending || vringNeedEvent event new old }
  | deviceWake {state : KickState}
      (idle : state.device = .idle)
      (kicked : state.kickPending = true) :
      KickStep num state
        { state with device := .entering, kickPending := false }
  | devicePublish {state : KickState}
      (entering : state.device = .entering) :
      KickStep num state
        { state with
          mem := virtQueuePublishAvailEvent state.queue state.mem
          device := .published }
  | deviceFind {state : KickState}
      (published : state.device = .published)
      (entries : virtQueueHasEntries state.queue state.mem = true) :
      KickStep num state { state with device := .found }
  | deviceStop {state : KickState}
      (published : state.device = .published)
      (empty : virtQueueHasEntries state.queue state.mem = false) :
      KickStep num state { state with device := .idle }
  | devicePop {state : KickState}
      (found : state.device = .found) :
      KickStep num state
        { state with
          queue := (virtQueuePop state.queue state.mem).2
          device := .entering
          taken := state.taken + 1 }

/-- Both parties at rest with equal indices, event indices negotiated. -/
structure KickInitial (num : Nat) (state : KickState) : Prop where
  num_eq : state.queue.vring.num = num
  negotiated : state.queue.useEventIdx = true
  availIdx : state.mem.avail.idx = state.queue.lastAvailIdx
  availEvent : state.mem.used.availEvent = state.queue.lastAvailIdx
  driver : state.driver = .resting
  device : state.device = .idle
  kick : state.kickPending = false
  added : state.added = state.queue.lastAvailIdx.toNat
  taken : state.taken = state.queue.lastAvailIdx.toNat

/-- The interleavings of driver batches and device steps. -/
def kickSystem (num : Nat) : System KickState where
  initial := KickInitial num
  step := KickStep num

/--
Work is left in the ring, nobody is going to look at it: the device is idle,
no kick is under way and the driver has none left to decide.
-/
def Stranded (state : KickState) : Prop :=
  state.device = .idle ∧
    state.mem.avail.idx ≠ state.queue.lastAvailIdx ∧
    state.kickPending = false ∧
    state.driver = .resting

/-! ## The invariant -/

/-- The index a driver decision that is still open is about. -/
def DriverPhase.target : DriverPhase → Option UInt16
  | .resting => none
  | .wrote _ new => some new
  | .readEvent _ _ new => some new

/--
What the driver still owes an idle device that nobody has kicked: either
everything was taken, or the open decision compares against the very index
the device stopped at.
-/
def DriverOwes (state : KickState) : Prop :=
  state.added = state.taken ∨
    match state.driver with
    | .resting => False
    | .wrote old _ => old = stamp state.taken
    | .readEvent event old _ =>
        event = stamp state.taken ∧ old = stamp state.taken

/-- The inductive invariant of `kickSystem`. -/
structure KickInvariant (num : Nat) (state : KickState) : Prop where
  negotiated : state.queue.useEventIdx = true
  availIdx : state.mem.avail.idx = stamp state.added
  lastAvailIdx : state.queue.lastAvailIdx = stamp state.taken
  ordered : state.taken ≤ state.added
  bounded : state.added ≤ state.taken + num
  current :
    ∀ new, state.driver.target = some new → new = stamp state.added
  announced :
    state.device ≠ .entering →
      state.mem.used.availEvent = state.queue.lastAvailIdx
  nonempty : state.device = .found → state.taken < state.added
  owes :
    state.device = .idle → state.kickPending = false → DriverOwes state

theorem KickInitial.invariant {num : Nat} {state : KickState}
    (initial : KickInitial num state) :
    KickInvariant num state := by
  have indexStamp :
      state.queue.lastAvailIdx =
        stamp state.queue.lastAvailIdx.toNat := by
    simp [stamp]
  refine
    { negotiated := initial.negotiated
      availIdx := ?_
      lastAvailIdx := ?_
      ordered := ?_
      bounded := ?_
      current := ?_
      announced := fun _ => initial.availEvent
      nonempty := ?_
      owes := ?_ }
  · rw [initial.availIdx, initial.added]
    exact indexStamp
  · rw [initial.taken]
    exact indexStamp
  · rw [initial.taken, initial.added]
  · rw [initial.taken, initial.added]
    exact Nat.le_add_right _ _
  · simp [initial.driver, DriverPhase.target]
  · simp [initial.device]
  · intro _ _
    exact Or.inl (initial.added.trans initial.taken.symm)

/-- Fewer than a full turn of entries is outstanding. -/
theorem KickInvariant.gap
    {num : Nat} (small : num ≤ 2 ^ 15) {state : KickState}
    (holds : KickInvariant num state) :
    state.added - state.taken < turn := by
  have bounded := holds.bounded
  simp only [turn]
  omega

/-- An event test at the index the device stopped at fires for any new entry. -/
theorem vringNeedEvent_at_stop {taken added : Nat}
    (entries : taken < added) (close : added - taken < turn) :
    vringNeedEvent (stamp taken) (stamp added) (stamp taken) = true := by
  rw [vringNeedEvent_stamp entries entries.le]
  rw [Nat.mod_eq_of_lt close, Nat.mod_eq_of_lt (by omega)]
  omega

/-! ## Driver steps -/

section DriverSteps

variable {num : Nat} {state : KickState}

theorem KickInvariant.writeBatch
    (holds : KickInvariant num state)
    (amount : Nat) (ring : Nat → UInt16)
    (resting : state.driver = .resting)
    (fits : state.added + amount ≤ state.taken + num) :
    KickInvariant num (state.writeBatch amount ring) := by
  have newStamp :
      state.mem.avail.idx + UInt16.ofNat amount =
        stamp (state.added + amount) := by
    rw [holds.availIdx]
    exact (stamp_add state.added amount).symm
  refine
    { holds with
      availIdx := newStamp
      ordered := holds.ordered.trans (Nat.le_add_right _ _)
      bounded := fits
      current := ?_
      nonempty := ?_
      owes := ?_ }
  · rintro new ⟨⟩
    exact newStamp
  · intro found
    exact (holds.nonempty found).trans_le (Nat.le_add_right _ _)
  · intro idle quiet
    have drained : state.added = state.taken := by
      have owed := holds.owes idle quiet
      simpa [DriverOwes, resting] using owed
    right
    change state.mem.avail.idx = stamp state.taken
    rw [holds.availIdx, drained]

theorem KickInvariant.readEvent
    (holds : KickInvariant num state)
    {old new : UInt16} (wrote : state.driver = .wrote old new) :
    KickInvariant num
      { state with
        driver := .readEvent state.mem.used.availEvent old new } := by
  refine { holds with current := ?_, owes := ?_ }
  · rintro index ⟨⟩
    exact holds.current new (by rw [wrote]; rfl)
  · intro idle quiet
    change state.device = .idle at idle
    have event : state.mem.used.availEvent = stamp state.taken := by
      rw [holds.announced (by simp [idle]), holds.lastAvailIdx]
    have owed := holds.owes idle quiet
    rw [DriverOwes, wrote] at owed
    exact owed.imp_right fun oldStamp => ⟨event, oldStamp⟩

theorem KickInvariant.decide
    (small : num ≤ 2 ^ 15)
    (holds : KickInvariant num state)
    {event old new : UInt16}
    (decided : state.driver = .readEvent event old new) :
    KickInvariant num
      { state with
        driver := .resting
        kickPending :=
          state.kickPending || vringNeedEvent event new old } := by
  refine { holds with current := ?_, owes := ?_ }
  · rintro index ⟨⟩
  · intro idle quiet
    left
    have silent :
        state.kickPending = false ∧
          vringNeedEvent event new old = false := by
      simpa using quiet
    have owed := holds.owes idle silent.1
    rw [DriverOwes, decided] at owed
    rcases owed with drained | ⟨eventStamp, oldStamp⟩
    · exact drained
    · by_contra undrained
      have entries : state.taken < state.added :=
        lt_of_le_of_ne holds.ordered (Ne.symm undrained)
      have fires := vringNeedEvent_at_stop entries (holds.gap small)
      have newStamp := holds.current new (by rw [decided]; rfl)
      rw [eventStamp, oldStamp, newStamp, fires] at silent
      cases silent.2

end DriverSteps

/-! ## Device steps -/

section DeviceSteps

variable {num : Nat} {state : KickState}

theorem KickInvariant.wake (holds : KickInvariant num state) :
    KickInvariant num
      { state with device := .entering, kickPending := false } := by
  refine { holds with announced := ?_, nonempty := ?_, owes := ?_ } <;> simp

theorem KickInvariant.publish (holds : KickInvariant num state) :
    KickInvariant num
      { state with
        mem := virtQueuePublishAvailEvent state.queue state.mem
        device := .published } := by
  refine
    { holds with
      availIdx := ?_
      announced := ?_
      nonempty := by simp
      owes := by simp }
  · simpa using holds.availIdx
  · simp [virtQueuePublishAvailEvent, holds.negotiated]

theorem KickInvariant.find
    (holds : KickInvariant num state)
    (published : state.device = .published)
    (entries : virtQueueHasEntries state.queue state.mem = true) :
    KickInvariant num { state with device := .found } := by
  refine { holds with announced := ?_, nonempty := ?_, owes := ?_ }
  · intro _
    exact holds.announced (by simp [published])
  · intro _
    refine lt_of_le_of_ne holds.ordered fun drained => ?_
    change state.taken = state.added at drained
    simp [virtQueueHasEntries, holds.availIdx, holds.lastAvailIdx,
      drained] at entries
  · simp

/--
The device stops only after it has published the index it stops at and then
found the driver's index equal to it.
-/
theorem KickInvariant.stop
    (small : num ≤ 2 ^ 15)
    (holds : KickInvariant num state)
    (published : state.device = .published)
    (empty : virtQueueHasEntries state.queue state.mem = false) :
    KickInvariant num { state with device := .idle } := by
  have drained : state.added = state.taken := by
    apply stamp_inj_of_lt holds.ordered (holds.gap small)
    simpa [virtQueueHasEntries, holds.availIdx, holds.lastAvailIdx]
      using empty
  refine { holds with announced := ?_, nonempty := ?_, owes := ?_ }
  · intro _
    exact holds.announced (by simp [published])
  · simp
  · intro _ _
    exact Or.inl drained

theorem KickInvariant.pop
    (holds : KickInvariant num state)
    (found : state.device = .found) :
    KickInvariant num
      { state with
        queue := (virtQueuePop state.queue state.mem).2
        device := .entering
        taken := state.taken + 1 } := by
  refine
    { holds with
      lastAvailIdx := ?_
      ordered := holds.nonempty found
      bounded := ?_
      announced := by simp
      nonempty := by simp
      owes := by simp }
  · change state.queue.lastAvailIdx + 1 = _
    rw [holds.lastAvailIdx]
    exact (stamp_succ state.taken).symm
  · have bounded := holds.bounded
    change state.added ≤ state.taken + 1 + num
    omega

end DeviceSteps

/-! ## Every run -/

theorem KickStep.preserves_invariant
    {num : Nat} (small : num ≤ 2 ^ 15) {source target : KickState}
    (holds : KickInvariant num source)
    (move : KickStep num source target) :
    KickInvariant num target := by
  cases move with
  | driverWrite amount ring resting fits =>
      exact holds.writeBatch amount ring resting fits
  | driverRead wrote => exact holds.readEvent wrote
  | driverDecide decided => exact holds.decide small decided
  | deviceWake _ _ => exact holds.wake
  | devicePublish _ => exact holds.publish
  | deviceFind published entries => exact holds.find published entries
  | deviceStop published empty => exact holds.stop small published empty
  | devicePop found => exact holds.pop found

/-- The invariant holds in every interleaving. -/
theorem kickSystem_invariant
    {num : Nat} (small : num ≤ 2 ^ 15) {state : KickState}
    (reached : Reachable (kickSystem num) state) :
    KickInvariant num state := by
  apply reached.invariant
  · intro _ initial
    exact KickInitial.invariant initial
  · intro _ _ holds move
    exact KickStep.preserves_invariant small holds move

/-- No interleaving of batches and device steps strands an entry. -/
theorem no_lost_kick
    (num : Nat) (small : num ≤ 2 ^ 15) (state : KickState)
    (reached : Reachable (kickSystem num) state) :
    ¬ Stranded state := by
  rintro ⟨idle, behind, quiet, resting⟩
  have holds := kickSystem_invariant small reached
  have drained : state.added = state.taken := by
    have owed := holds.owes idle quiet
    simpa [DriverOwes, resting] using owed
  apply behind
  rw [holds.availIdx, holds.lastAvailIdx, drained]

/-- A queue of 256 entries whose indices are about to wrap. -/
def nearWrap : KickState where
  mem :=
    { desc := fun _ => default
      avail := { flags := 0, idx := 65535, ring := fun _ => 0 }
      used :=
        { flags := 0, idx := 0, ring := fun _ => default
          availEvent := 65535 } }
  queue :=
    { vring := { num := 256, desc := 1, avail := 1, used := 1 }
      vringAddr := default
      lastAvailIdx := 65535
      lastUsedSignalled := 0
      endian := 0
      useEventIdx := true
      enabled := true }
  driver := .resting
  device := .idle
  kickPending := false
  added := 65535
  taken := 65535

theorem nearWrap_initial : KickInitial 256 nearWrap := by
  constructor <;> rfl

/-- A batch of three entries across the wrap is not stranded. -/
theorem no_lost_kick_across_wrap :
    let written := nearWrap.writeBatch 3 fun _ => 0
    written.mem.avail.idx = 2 ∧
      written.mem.avail.idx ≠ written.queue.lastAvailIdx ∧
      ¬ Stranded written := by
  refine ⟨by decide, by decide, ?_⟩
  apply no_lost_kick 256 (by decide)
  exact
    (Reachable.start nearWrap_initial).next
      (KickStep.driverWrite 3 _ rfl (by decide))

end Kemu.Virtio.Kick
