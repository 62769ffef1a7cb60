import Kemu.Lib.Transition
import Mathlib.Logic.Function.Basic

/-!
# Closing a TCP connection

Three parties close a connection: the handler of the guest's segments when
the guest sends FIN, the receive thread when the host's stream ends, and
`uip_tcp_exit` when the network goes away.  Whoever finds both sides done in
`uip_tcp_socket_close` unlinks and frees the socket object.  All of them use
one lock, that of the list of connections.

The receive thread says that it is done only after it has looked whether both
sides are, so nobody frees the object if the guest was first; and
`uip_tcp_exit` calls `uip_tcp_socket_close` with the lock held.

Every TX queue of the device has a thread of its own, and all of them handle
segments.  What a handler does with an object that it has found is not under
the lock: while it works, the handler of another queue may free the object.
-/

namespace Kemu.Net.TcpTeardown

open Kemu.Lib.Transition

/-! ## The parties -/

/--
Who can hold the lock: `uip_tx_do_ipv4_tcp` on the thread of a TX queue,
`uip_tcp_socket_thread` or `uip_tcp_exit`.  There is one queue at least.
-/
inductive Party (queues : Nat) where
  | handler (queue : Fin (queues + 1))
  | receiver
  | leaver
deriving DecidableEq, Repr

/--
Where a call of `uip_tcp_socket_close` is: at the test of both flags, at the
shutdown, before the lock, at `list_del`, at `free`.
-/
inductive ClosePc where
  | checking
  | shutting
  | locking
  | removing
  | freeing
deriving DecidableEq, Repr

/--
Where `uip_tx_do_ipv4_tcp` is with a segment, which may carry FIN: before the
lock of `uip_tcp_socket_find`, in its loop, before the next lock, at the
window, at the branch for FIN, at `write_done`, at the acknowledgment of
FIN, in `uip_tcp_socket_close`.
-/
inductive HandlerPc where
  | idle
  | finding (fin : Bool)
  | searching (fin : Bool)
  | found (fin : Bool)
  | storing (fin : Bool)
  | deciding (fin : Bool)
  | accepting
  | acknowledging
  | closing (pc : ClosePc)
deriving DecidableEq, Repr

/--
Where `uip_tcp_socket_thread` is: in `read`, before the lock, at the window,
in `pthread_cond_wait`, at a segment with data, in `uip_tcp_socket_close`, at
FIN, at the counter, at `read_done`, or ended.
-/
inductive ReceiverPc where
  | reading
  | checking
  | looking
  | waiting
  | sending
  | closing (pc : ClosePc)
  | sendingFin
  | counting
  | finishing
  | done
  | cancelled
deriving DecidableEq, Repr

/--
Where `uip_tcp_exit` is: not called, before the lock, at the list, at
`pthread_join`, at the flags, in `uip_tcp_socket_close`, or returned.
-/
inductive LeaverPc where
  | away
  | locking
  | scanning
  | joining
  | marking
  | closing (pc : ClosePc)
  | done
deriving DecidableEq, Repr

/--
A connection while it is closed: the parties, with the place of each queue's
handler in a segment of the connection, the owner of the lock, the
flags of the object, whether it is in the list, how often it was unlinked and
freed, whether it was used after that, and whether a thread tried to acquire
the lock that it held.
-/
structure Teardown (queues : Nat) where
  handlers : Fin (queues + 1) → HandlerPc
  receiver : ReceiverPc
  leaver : LeaverPc
  owner : Option (Party queues)
  writeDone : Bool
  readDone : Bool
  cancelling : Bool
  linked : Bool
  unlinks : Nat
  frees : Nat
  misused : Bool
  relocked : Bool

variable {queues : Nat}

/-- The connection is open, and its thread runs. -/
def teardownStart : Teardown queues where
  handlers _ := .idle
  receiver := .reading
  leaver := .away
  owner := none
  writeDone := false
  readDone := false
  cancelling := false
  linked := true
  unlinks := 0
  frees := 0
  misused := false
  relocked := false

/-! ## Steps -/

/-- An access to the object. -/
def touch (state : Teardown queues) : Teardown queues :=
  { state with misused := state.misused || decide (0 < state.frees) }

/--
`mutex_lock`: go on with the lock, wait for another owner, or wait for
oneself.
-/
def lockThen
    (party : Party queues) (state : Teardown queues) (go : Teardown queues → Teardown queues) :
    Teardown queues :=
  match state.owner with
  | none => go { state with owner := some party }
  | some owner =>
      if owner = party then { state with relocked := true } else state

/--
A step of `uip_tcp_socket_close`.  `go` says where the party is then, nowhere
after the call has returned.
-/
def closeStep
    (party : Party queues) (go : Option ClosePc → Teardown queues → Teardown queues)
    (pc : ClosePc) (state : Teardown queues) : Teardown queues :=
  match pc with
  | .checking =>
      if state.writeDone && state.readDone then
        go (some .shutting) (touch state)
      else
        go none (touch state)
  | .shutting => go (some .locking) (touch state)
  | .locking => lockThen party state (go (some .removing))
  | .removing =>
      go (some .freeing)
        { touch state with
          linked := false
          unlinks := state.unlinks + 1
          owner := none }
  | .freeing => go none { touch state with frees := state.frees + 1 }

/-- The handler of a queue goes on. -/
def moveHandler (queue : Fin (queues + 1)) (handler : HandlerPc)
    (state : Teardown queues) : Teardown queues :=
  { state with handlers := Function.update state.handlers queue handler }

@[simp]
theorem handlers_moveHandler (queue : Fin (queues + 1))
    (handler : HandlerPc) (state : Teardown queues) :
    (moveHandler queue handler state).handlers queue = handler :=
  Function.update_self ..

/-- A handler's place in `uip_tcp_socket_close`, or behind it. -/
def handlerAt (queue : Fin (queues + 1)) (pc : Option ClosePc)
    (state : Teardown queues) : Teardown queues :=
  moveHandler queue (pc.elim .idle .closing) state

/-- The thread's place in `uip_tcp_socket_close`, or behind it. -/
def receiverAt (pc : Option ClosePc) (state : Teardown queues) :
    Teardown queues :=
  { state with receiver := pc.elim .sendingFin .closing }

/-- The place of `uip_tcp_exit` in `uip_tcp_socket_close`, or behind it. -/
def leaverAt (pc : Option ClosePc) (state : Teardown queues) :
    Teardown queues :=
  { state with leaver := pc.elim .scanning .closing }

/--
A step of `uip_tx_do_ipv4_tcp` on a queue.  What it does with the object for
a segment without FIN is one step.
-/
def handleStep (queue : Fin (queues + 1)) (state : Teardown queues) :
    Teardown queues :=
  match state.handlers queue with
  | .idle => state
  | .finding fin =>
      lockThen (.handler queue) state (moveHandler queue (.searching fin))
  | .searching fin =>
      if state.linked then
        moveHandler queue (.found fin) { touch state with owner := none }
      else
        moveHandler queue .idle { state with owner := none }
  | .found fin =>
      lockThen (.handler queue) state (moveHandler queue (.storing fin))
  | .storing fin =>
      moveHandler queue (.deciding fin) { touch state with owner := none }
  | .deciding fin =>
      if fin && !state.writeDone then
        moveHandler queue .accepting (touch state)
      else
        moveHandler queue .idle (touch state)
  | .accepting =>
      moveHandler queue .acknowledging { touch state with writeDone := true }
  | .acknowledging =>
      moveHandler queue (.closing .checking) (touch state)
  | .closing pc => closeStep (.handler queue) (handlerAt queue) pc state

/--
A step of `uip_tcp_socket_thread`.  `choice` says whether `read` returned
bytes, whether there is room in the window, and whether bytes of the chunk
are left.  A thread that is to be cancelled ends in `read`.
-/
def receiveStep (state : Teardown queues) (choice : Bool) : Teardown queues :=
  match state.receiver with
  | .reading =>
      if state.cancelling then
        state
      else
        { touch state with
          receiver := if choice then .checking else .closing .checking }
  | .checking =>
      lockThen .receiver state fun locked =>
        { locked with receiver := .looking }
  | .looking =>
      { touch state with
        owner := none
        receiver := if choice then .sending else .waiting }
  | .waiting =>
      lockThen .receiver state fun locked =>
        { locked with receiver := .looking }
  | .sending =>
      { touch state with receiver := if choice then .checking else .reading }
  | .closing pc => closeStep .receiver receiverAt pc state
  | .sendingFin => { touch state with receiver := .counting }
  | .counting => { touch state with receiver := .finishing }
  | .finishing => { touch state with readDone := true, receiver := .done }
  | .done => state
  | .cancelled => state

/--
The thread acts on a cancellation: in `read`, or while a segment waits for a
buffer.  In `pthread_cond_wait` it would need the lock first.
-/
def cancelStep (state : Teardown queues) : Teardown queues :=
  if state.cancelling then
    match state.receiver with
    | .reading => { state with receiver := .cancelled }
    | .sending => { state with receiver := .cancelled }
    | .sendingFin => { state with receiver := .cancelled }
    | _ => state
  else
    state

/-- A step of `uip_tcp_exit`; the first one is its call. -/
def leaveStep (state : Teardown queues) : Teardown queues :=
  match state.leaver with
  | .away => { state with leaver := .locking }
  | .locking =>
      lockThen .leaver state fun locked => { locked with leaver := .scanning }
  | .scanning =>
      if state.linked then
        { touch state with cancelling := true, leaver := .joining }
      else
        { state with owner := none, leaver := .done }
  | .joining =>
      if state.receiver = .done ∨ state.receiver = .cancelled then
        { state with leaver := .marking }
      else
        state
  | .marking =>
      { touch state with
        writeDone := true
        readDone := true
        leaver := .closing .checking }
  | .closing pc => closeStep .leaver leaverAt pc state
  | .done => state

/--
What happens next: a segment of the connection reaches the handler of a
queue, or a party takes a step.
-/
inductive Move (queues : Nat) where
  | segment (queue : Fin (queues + 1)) (fin : Bool)
  | handle (queue : Fin (queues + 1))
  | receive (choice : Bool)
  | cancel
  | leave
deriving DecidableEq, Repr

/-- One move.  A queue's segments are handled one after the other. -/
def teardownStep (state : Teardown queues) : Move queues → Teardown queues
  | .segment queue fin =>
      if state.handlers queue = .idle then
        moveHandler queue (.finding fin) state
      else
        state
  | .handle queue => handleStep queue state
  | .receive choice => receiveStep state choice
  | .cancel => cancelStep state
  | .leave => leaveStep state

/-! ## What is expected -/

/--
Nothing goes on by itself: no party can take a step, except that the thread
may wait for the host or for the guest's window, and `uip_tcp_exit` for being
called.
-/
structure Over (state : Teardown queues) : Prop where
  handler : ∀ queue, handleStep queue state = state
  receiver :
    state.receiver = .reading ∨ state.receiver = .waiting ∨
      ∀ choice, receiveStep state choice = state
  cancel : cancelStep state = state
  leaver : state.leaver = .away ∨ leaveStep state = state

/--
The lock was never acquired twice and the object not used after it was freed.
It was unlinked and freed at most once, after both sides were done; and once
everything is over it was, if both sides are done or the network went away.
-/
structure Clean (state : Teardown queues) : Prop where
  relocked : state.relocked = false
  misused : state.misused = false
  once :
    state.frees ≤ state.unlinks ∧ state.unlinks ≤ 1
  after :
    0 < state.unlinks → state.writeDone = true ∧ state.readDone = true
  complete :
    Over state →
      (state.writeDone = true ∧ state.readDone = true) ∨
          state.leaver ≠ .away →
        state.unlinks = 1 ∧ state.frees = 1

/-- The handler has accepted FIN and not looked at the flags yet. -/
def HandlerPc.BeforeCheck : HandlerPc → Prop
  | .acknowledging | .closing .checking => True
  | _ => False

instance (pc : HandlerPc) : Decidable pc.BeforeCheck :=
  match pc with
  | .acknowledging | .closing .checking => .isTrue trivial
  | .idle | .finding _ | .searching _ | .found _ | .storing _ | .deciding _
  | .accepting | .closing .shutting | .closing .locking | .closing .removing
  | .closing .freeing => .isFalse id

/--
What a move must respect.  A segment reaches a queue while no other queue's
handler works on one of the connection.  When the thread says that it is
done, the guest's FIN was not handled yet, or its handler has not looked at
the flags yet; and `uip_tcp_exit` finds the object unlinked.
-/
def Permitted (state : Teardown queues) : Move queues → Prop
  | .segment queue _ =>
      ∀ other, other ≠ queue → state.handlers other = .idle
  | .receive _ =>
      state.receiver = .finishing → state.writeDone = true →
        ∃ queue, (state.handlers queue).BeforeCheck
  | .leave => state.leaver = .scanning → state.linked = false
  | .handle _ | .cancel => True

instance (state : Teardown queues) (move : Move queues) :
    Decidable (Permitted state move) :=
  match move with
  | .segment _ _ => inferInstanceAs (Decidable (∀ _, _ → _))
  | .receive _ => inferInstanceAs (Decidable (_ → _ → ∃ _, _))
  | .leave => inferInstanceAs (Decidable (_ → _))
  | .handle _ | .cancel => .isTrue trivial

/-! ## While every move is permitted -/

/-- The object is in the list. -/
def Alive (state : Teardown queues) : Prop :=
  state.linked = true ∧ state.unlinks = 0 ∧ state.frees = 0

/-- The object was freed when both sides were done. -/
def Gone (state : Teardown queues) : Prop :=
  (state.linked = false ∧ state.unlinks = 1 ∧ state.frees = 1) ∧
    state.writeDone = true ∧ state.readDone = true

/-- One side is not done. -/
def HalfOpen (state : Teardown queues) : Prop :=
  state.writeDone = false ∨ state.readDone = false

/-- What is known of the object at each place of the handler. -/
def Phase (state : Teardown queues) : HandlerPc → Prop
  | .idle | .finding _ | .searching _ =>
      Gone state ∨ Alive state ∧ HalfOpen state
  | .found _ | .storing _ | .deciding _ | .accepting =>
      Alive state ∧ HalfOpen state
  | .acknowledging | .closing .checking =>
      Alive state ∧ state.writeDone = true
  | .closing .shutting | .closing .locking | .closing .removing =>
      Alive state ∧ state.writeDone = true ∧ state.readDone = true
  | .closing .freeing =>
      (state.linked = false ∧ state.unlinks = 1 ∧ state.frees = 0) ∧
        state.writeDone = true ∧ state.readDone = true

/-- The handler holds the lock. -/
def HandlerPc.Holds : HandlerPc → Prop
  | .searching _ | .storing _ | .closing .removing => True
  | _ => False

/-- The thread has not got further than its first look at the flags. -/
def ReceiverPc.Regular : ReceiverPc → Prop
  | .closing pc => pc = .checking
  | .cancelled => False
  | _ => True

/-- `uip_tcp_exit` has not got further than the list. -/
def LeaverPc.Regular (linked : Bool) : LeaverPc → Prop
  | .away | .locking | .scanning => True
  | .done => linked = false
  | .joining | .marking | .closing _ => False

/--
What every permitted move keeps.  One queue may have a handler at work on a
segment of the connection.
-/
structure Tidy (queue : Fin (queues + 1)) (state : Teardown queues) :
    Prop where
  relocked : state.relocked = false
  misused : state.misused = false
  cancelling : state.cancelling = false
  others : ∀ other, other ≠ queue → state.handlers other = .idle
  handlerOwns :
    ∀ other,
      state.owner = some (.handler other) ↔ (state.handlers other).Holds
  receiverOwns : state.owner = some .receiver ↔ state.receiver = .looking
  leaverOwns : state.owner = some .leaver ↔ state.leaver = .scanning
  phase : Phase state (state.handlers queue)
  readDone : state.readDone = true ↔ state.receiver = .done
  receiver : state.receiver.Regular
  leaver : state.leaver.Regular state.linked

section Moves

variable {queue : Fin (queues + 1)} {state : Teardown queues}

theorem tidy_start (queue : Fin (queues + 1)) :
    Tidy queue teardownStart := by
  refine ⟨rfl, rfl, rfl, fun _ _ => rfl, fun _ => ?_, ?_, ?_, ?_, ?_,
    trivial, trivial⟩
  · exact iff_of_false nofun id
  · exact iff_of_false nofun nofun
  · exact iff_of_false nofun nofun
  · exact Or.inr ⟨⟨rfl, rfl, rfl⟩, Or.inl rfl⟩
  · exact iff_of_false nofun nofun

/-- An access to an object that was not freed is none to be noted. -/
theorem touch_eq (kept : state.frees = 0) : touch state = state := by
  have unused : decide (0 < state.frees) = false := by
    rw [kept]
    rfl
  unfold touch
  rw [unused, Bool.or_false]

/-- Who does not hold the lock gets it or waits. -/
theorem lockThen_cases {party : Party queues} (other : state.owner ≠ some party)
    (go : Teardown queues → Teardown queues) :
    state.owner = none ∧
        lockThen party state go = go { state with owner := some party } ∨
      lockThen party state go = state := by
  unfold lockThen
  cases held : state.owner with
  | none => exact Or.inl ⟨rfl, rfl⟩
  | some owner =>
      have differs : owner ≠ party := by
        rintro rfl
        exact other held
      exact Or.inr (if_neg differs)

/-- The object is not freed before both sides are done. -/
theorem Tidy.frees (tidy : Tidy queue state) (open' : state.readDone = false) :
    state.frees = 0 := by
  have phase := tidy.phase
  have contra : ¬ state.readDone = true := Bool.eq_false_iff.1 open'
  cases place : state.handlers queue with
  | closing pc =>
      rw [place] at phase
      cases pc with
      | checking => exact phase.1.2.2
      | shutting => exact phase.1.2.2
      | locking => exact phase.1.2.2
      | removing => exact phase.1.2.2
      | freeing => exact phase.1.2.2
  | acknowledging =>
      rw [place] at phase
      exact phase.1.2.2
  | found fin | storing fin | deciding fin | accepting =>
      rw [place] at phase
      exact phase.1.2.2
  | idle | finding fin | searching fin =>
      rw [place] at phase
      rcases phase with gone | alive
      · exact absurd gone.2.2 contra
      · exact alive.1.2.2

/-- The lock changes hands between a party and nobody. -/
def OwnerChange (party : Party queues) (before after : Option (Party queues)) : Prop :=
  before = after ∨
    (before = none ∧ after = some party ∨
      before = some party ∧ after = none)

theorem OwnerChange.other {party : Party queues} {before after : Option (Party queues)}
    (change : OwnerChange party before after) {third : Party queues}
    (other : third ≠ party) :
    after = some third ↔ before = some third := by
  rcases change with rfl | ⟨rfl, rfl⟩ | ⟨rfl, rfl⟩
  · exact Iff.rfl
  · exact iff_of_false (fun same => other (Option.some.inj same).symm) nofun
  · exact iff_of_false nofun (fun same => other (Option.some.inj same).symm)

/-! ### The handler -/

/-- What a step of the handler has to leave. -/
theorem Tidy.handlerTo (tidy : Tidy queue state) {handler : HandlerPc}
    {owner : Option (Party queues)} {writeDone linked : Bool}
    {unlinks frees : Nat}
    (change : OwnerChange (.handler queue) state.owner owner)
    (holds : owner = some (.handler queue) ↔ handler.Holds)
    (stays : linked = state.linked ∨ linked = false)
    (phase :
      Phase
        { state with
          writeDone := writeDone
          linked := linked
          unlinks := unlinks
          frees := frees }
        handler) :
    Tidy queue
      (moveHandler queue handler
        { state with
          owner := owner
          writeDone := writeDone
          linked := linked
          unlinks := unlinks
          frees := frees }) where
  __ := tidy
  others other apart :=
    (Function.update_of_ne apart ..).trans (tidy.others other apart)
  handlerOwns other := by
    dsimp only [moveHandler]
    by_cases same : other = queue
    · subst same
      rw [Function.update_self]
      exact holds
    · rw [Function.update_of_ne same]
      have apart : Party.handler other ≠ .handler queue :=
        fun equal => same (Party.handler.inj equal)
      exact (change.other apart).trans (tidy.handlerOwns other)
  receiverOwns :=
    (change.other (nofun : Party.receiver ≠ .handler queue)).trans
      tidy.receiverOwns
  leaverOwns :=
    (change.other (nofun : Party.leaver ≠ .handler queue)).trans
      tidy.leaverOwns
  phase := by
    dsimp only [moveHandler]
    rw [Function.update_self]
    exact phase
  leaver := by
    have regular := tidy.leaver
    rcases stays with same | unlinked
    · rw [← same] at regular
      exact regular
    · show state.leaver.Regular linked
      rw [unlinked]
      cases place : state.leaver with
      | done => rfl
      | away | locking | scanning => trivial
      | joining | marking | closing =>
          rw [place] at regular
          exact regular

/-- The handler waits for the lock or gets it. -/
theorem Tidy.handlerLock (tidy : Tidy queue state) {next : HandlerPc}
    (place : ¬ (state.handlers queue).Holds) (holds : next.Holds)
    (phase : Phase state next) :
    Tidy queue
      (lockThen (.handler queue) state (moveHandler queue next)) := by
  rcases lockThen_cases
      (fun held => place ((tidy.handlerOwns queue).1 held))
      (moveHandler queue next) with
    ⟨free, step⟩ | step
  · rw [step]
    exact tidy.handlerTo (Or.inr (Or.inl ⟨free, rfl⟩))
      (iff_of_true rfl holds) (Or.inl rfl) phase
  · rw [step]
    exact tidy

theorem Tidy.handle (tidy : Tidy queue state) :
    Tidy queue (handleStep queue state) := by
  have phase := tidy.phase
  have owns := tidy.handlerOwns queue
  unfold handleStep
  cases place : state.handlers queue with
  | idle => exact tidy
  | finding fin =>
      rw [place] at phase
      exact tidy.handlerLock (by rw [place]; exact id) trivial phase
  | searching fin =>
      rw [place] at phase owns
      have held := owns.2 trivial
      dsimp only
      split
      next linked =>
        rcases phase with gone | alive
        · rw [gone.1.1] at linked
          exact absurd linked Bool.false_ne_true
        · rw [touch_eq alive.1.2.2]
          exact tidy.handlerTo (Or.inr (Or.inr ⟨held, rfl⟩))
            (iff_of_false nofun id) (Or.inl rfl) alive
      next =>
        exact tidy.handlerTo (Or.inr (Or.inr ⟨held, rfl⟩))
          (iff_of_false nofun id) (Or.inl rfl) phase
  | found fin =>
      rw [place] at phase
      exact tidy.handlerLock (by rw [place]; exact id) trivial phase
  | storing fin =>
      rw [place] at phase owns
      have held := owns.2 trivial
      dsimp only
      rw [touch_eq phase.1.2.2]
      exact tidy.handlerTo (Or.inr (Or.inr ⟨held, rfl⟩))
        (iff_of_false nofun id) (Or.inl rfl) phase
  | deciding fin =>
      rw [place] at phase owns
      dsimp only
      rw [touch_eq phase.1.2.2]
      split
      next =>
        exact tidy.handlerTo (Or.inl rfl) owns (Or.inl rfl) phase
      next =>
        exact tidy.handlerTo (Or.inl rfl) owns (Or.inl rfl)
          (Or.inr phase)
  | accepting =>
      rw [place] at phase owns
      dsimp only
      rw [touch_eq phase.1.2.2]
      exact tidy.handlerTo (Or.inl rfl) owns (Or.inl rfl) ⟨phase.1, rfl⟩
  | acknowledging =>
      rw [place] at phase owns
      dsimp only
      rw [touch_eq phase.1.2.2]
      exact tidy.handlerTo (Or.inl rfl) owns (Or.inl rfl) phase
  | closing pc =>
      rw [place] at phase owns
      cases pc with
      | checking =>
          simp only [closeStep, touch_eq phase.1.2.2]
          split
          next both =>
            rw [Bool.and_eq_true] at both
            exact tidy.handlerTo (Or.inl rfl) owns (Or.inl rfl)
              ⟨phase.1, both⟩
          next one =>
            rw [phase.2, Bool.true_and, Bool.not_eq_true] at one
            exact tidy.handlerTo (Or.inl rfl) owns (Or.inl rfl)
              (Or.inr ⟨phase.1, Or.inr one⟩)
      | shutting =>
          simp only [closeStep, touch_eq phase.1.2.2]
          exact tidy.handlerTo (Or.inl rfl) owns (Or.inl rfl) phase
      | locking =>
          exact tidy.handlerLock (by rw [place]; exact id) trivial phase
      | removing =>
          have held := owns.2 trivial
          simp only [closeStep, touch_eq phase.1.2.2]
          refine tidy.handlerTo (Or.inr (Or.inr ⟨held, rfl⟩))
            (iff_of_false nofun id) (Or.inr rfl)
            ⟨⟨rfl, ?_, phase.1.2.2⟩, phase.2⟩
          exact congrArg (· + 1) phase.1.2.1
      | freeing =>
          simp only [closeStep, touch_eq phase.1.2.2]
          refine tidy.handlerTo (Or.inl rfl) owns (Or.inl rfl)
            (Or.inl ⟨⟨phase.1.1, phase.1.2.1, ?_⟩, phase.2⟩)
          exact congrArg (· + 1) phase.1.2.2

/-- Where no handler is at work, every queue may be the next one. -/
theorem Tidy.refocus (tidy : Tidy queue state) {next : Fin (queues + 1)}
    (idle : ∀ other, state.handlers other = .idle) : Tidy next state :=
  { tidy with
    others := fun other _ => idle other
    phase := by
      rw [idle next, ← idle queue]
      exact tidy.phase }

theorem Tidy.segment (tidy : Tidy queue state) (next : Fin (queues + 1))
    (fin : Bool) (permitted : Permitted state (.segment next fin)) :
    ∃ active, Tidy active (teardownStep state (.segment next fin)) := by
  rw [teardownStep]
  split
  next idle =>
    have all (other : Fin (queues + 1)) : state.handlers other = .idle := by
      by_cases same : other = next
      · rw [same]
        exact idle
      · exact permitted other same
    have focused : Tidy next state := tidy.refocus all
    have phase := focused.phase
    have owns := focused.handlerOwns next
    rw [idle] at phase owns
    exact ⟨next, focused.handlerTo (Or.inl rfl) owns (Or.inl rfl) phase⟩
  next => exact ⟨queue, tidy⟩

/-! ### The receive thread -/

/-- The phase depends on the object only. -/
theorem Phase.frame {before after : Teardown queues} {pc : HandlerPc}
    (linked : after.linked = before.linked)
    (unlinks : after.unlinks = before.unlinks)
    (frees : after.frees = before.frees)
    (writeDone : after.writeDone = before.writeDone)
    (readDone : after.readDone = before.readDone)
    (phase : Phase before pc) : Phase after pc := by
  unfold Phase Gone Alive HalfOpen at phase ⊢
  rw [linked, unlinks, frees, writeDone, readDone]
  exact phase

/-- What a step of the thread has to leave before its last one. -/
theorem Tidy.receiverTo (tidy : Tidy queue state) {receiver : ReceiverPc}
    {owner : Option (Party queues)} (open' : state.readDone = false)
    (change : OwnerChange .receiver state.owner owner)
    (holds : owner = some .receiver ↔ receiver = .looking)
    (regular : receiver.Regular) (running : receiver ≠ .done) :
    Tidy queue { state with receiver := receiver, owner := owner } where
  __ := tidy
  handlerOwns other :=
    (change.other (nofun : Party.handler other ≠ .receiver)).trans
      (tidy.handlerOwns other)
  receiverOwns := holds
  leaverOwns :=
    (change.other (nofun : Party.leaver ≠ .receiver)).trans tidy.leaverOwns
  phase := tidy.phase.frame rfl rfl rfl rfl rfl
  readDone :=
    iff_of_false (Bool.eq_false_iff.1 open') running
  receiver := regular

/-- The thread waits for the lock or gets it. -/
theorem Tidy.receiverLock (tidy : Tidy queue state)
    (open' : state.readDone = false) (place : state.receiver ≠ .looking) :
    Tidy queue
      (lockThen .receiver state fun locked =>
        { locked with receiver := .looking }) := by
  rcases lockThen_cases (fun held => place (tidy.receiverOwns.1 held))
      fun locked => { locked with receiver := .looking } with
    ⟨free, step⟩ | step
  · rw [step]
    exact tidy.receiverTo open' (Or.inr (Or.inl ⟨free, rfl⟩))
      (iff_of_true rfl rfl) trivial nofun
  · rw [step]
    exact tidy

theorem Tidy.open' (tidy : Tidy queue state) (running : state.receiver ≠ .done) :
    state.readDone = false :=
  Bool.eq_false_iff.2 fun done => running (tidy.readDone.1 done)

/-- The thread goes on without the lock. -/
theorem Tidy.receiverOn (tidy : Tidy queue state) (running : state.receiver ≠ .done)
    (apart : state.receiver ≠ .looking) {next : ReceiverPc}
    (regular : next.Regular) (runs : next ≠ .done)
    (parts : next ≠ .looking) :
    Tidy queue { touch state with receiver := next } := by
  have open' := tidy.open' running
  rw [touch_eq (tidy.frees open')]
  refine tidy.receiverTo open' (Or.inl rfl) (iff_of_false ?_ parts) regular
    runs
  exact fun held => apart (tidy.receiverOwns.1 held)

/-- The handler has not looked at the flags yet, or was not called. -/
theorem Phase.finish {pc : HandlerPc} (phase : Phase state pc)
    (early : state.writeDone = true → pc.BeforeCheck) :
    Phase { state with readDone := true, receiver := .done } pc := by
  have half (later : ¬ pc.BeforeCheck) : state.writeDone = false :=
    Bool.eq_false_iff.2 fun done => later (early done)
  cases pc with
  | idle | finding fin | searching fin =>
      have half := half id
      rcases phase with gone | alive
      · exact absurd gone.2.1 (Bool.eq_false_iff.1 half)
      · exact Or.inr ⟨alive.1, Or.inl half⟩
  | found fin | storing fin | deciding fin | accepting =>
      exact ⟨phase.1, Or.inl (half id)⟩
  | acknowledging => exact phase
  | closing pc =>
      cases pc with
      | checking => exact phase
      | shutting | locking | removing | freeing =>
          have half := half id
          exact absurd phase.2.1 (Bool.eq_false_iff.1 half)

/-- The thread says that it is done before the handler looks. -/
theorem Tidy.finish (tidy : Tidy queue state) (place : state.receiver = .finishing)
    (early :
      state.writeDone = true → (state.handlers queue).BeforeCheck) :
    Tidy queue { state with readDone := true, receiver := .done } :=
  { tidy with
    receiverOwns := by
      refine iff_of_false (fun held => ?_) nofun
      have looking := tidy.receiverOwns.1 held
      rw [place] at looking
      cases looking
    phase := tidy.phase.finish early
    readDone := iff_of_true rfl rfl
    receiver := trivial }

theorem Tidy.receive (tidy : Tidy queue state) (choice : Bool)
    (permitted : Permitted state (.receive choice)) :
    Tidy queue (receiveStep state choice) := by
  have regular := tidy.receiver
  have running :
      ∀ {pc : ReceiverPc}, state.receiver = pc → pc ≠ .done →
        state.receiver ≠ .done := by
    rintro pc rfl other
    exact other
  have apart :
      ∀ {pc : ReceiverPc}, state.receiver = pc → pc ≠ .looking →
        state.receiver ≠ .looking := by
    rintro pc rfl other
    exact other
  unfold receiveStep
  cases place : state.receiver with
  | done => exact tidy
  | cancelled => exact tidy
  | reading =>
      dsimp only
      rw [tidy.cancelling, if_neg Bool.false_ne_true]
      apply tidy.receiverOn (running place nofun) (apart place nofun)
      · cases choice <;> trivial
      · cases choice <;> exact nofun
      · cases choice <;> exact nofun
  | checking =>
      exact tidy.receiverLock (tidy.open' (running place nofun))
        (apart place nofun)
  | looking =>
      have open' := tidy.open' (running place nofun)
      have held := tidy.receiverOwns.2 place
      dsimp only
      rw [touch_eq (tidy.frees open')]
      apply tidy.receiverTo open' (Or.inr (Or.inr ⟨held, rfl⟩))
      · cases choice <;> exact iff_of_false nofun nofun
      · cases choice <;> trivial
      · cases choice <;> exact nofun
  | waiting =>
      exact tidy.receiverLock (tidy.open' (running place nofun))
        (apart place nofun)
  | sending =>
      dsimp only
      apply tidy.receiverOn (running place nofun) (apart place nofun)
      · cases choice <;> trivial
      · cases choice <;> exact nofun
      · cases choice <;> exact nofun
  | closing pc =>
      rw [place] at regular
      cases regular
      have open' := tidy.open' (running place nofun)
      simp only [closeStep, open', Bool.and_false]
      exact tidy.receiverOn (running place nofun) (apart place nofun) trivial
        nofun nofun
  | sendingFin =>
      exact tidy.receiverOn (running place nofun) (apart place nofun) trivial
        nofun nofun
  | counting =>
      exact tidy.receiverOn (running place nofun) (apart place nofun) trivial
        nofun nofun
  | finishing =>
      dsimp only
      rw [touch_eq (tidy.frees (tidy.open' (running place nofun)))]
      refine tidy.finish place fun done => ?_
      rcases permitted place done with ⟨other, early⟩
      by_cases same : other = queue
      · rw [← same]
        exact early
      · rw [tidy.others other same] at early
        exact absurd early id

/-! ### The end of the network -/

/-- What a step of `uip_tcp_exit` has to leave. -/
theorem Tidy.leaverTo (tidy : Tidy queue state) {leaver : LeaverPc}
    {owner : Option (Party queues)} (change : OwnerChange .leaver state.owner owner)
    (holds : owner = some .leaver ↔ leaver = .scanning)
    (regular : leaver.Regular state.linked) :
    Tidy queue { state with leaver := leaver, owner := owner } where
  __ := tidy
  handlerOwns other :=
    (change.other (nofun : Party.handler other ≠ .leaver)).trans
      (tidy.handlerOwns other)
  receiverOwns :=
    (change.other (nofun : Party.receiver ≠ .leaver)).trans
      tidy.receiverOwns
  leaverOwns := holds
  phase := tidy.phase.frame rfl rfl rfl rfl rfl
  leaver := regular

theorem Tidy.leave (tidy : Tidy queue state) (permitted : Permitted state .leave) :
    Tidy queue (leaveStep state) := by
  have owns := tidy.leaverOwns
  have regular := tidy.leaver
  unfold leaveStep
  cases place : state.leaver with
  | away =>
      rw [place] at owns
      exact tidy.leaverTo (Or.inl rfl)
        (iff_of_false (fun held => nomatch owns.1 held) nofun) trivial
  | locking =>
      rw [place] at owns
      rcases lockThen_cases (fun held => nomatch owns.1 held)
          fun locked => { locked with leaver := .scanning } with
        ⟨free, step⟩ | step
      · dsimp only
        rw [step]
        exact tidy.leaverTo (Or.inr (Or.inl ⟨free, rfl⟩))
          (iff_of_true rfl rfl) trivial
      · dsimp only
        rw [step]
        exact tidy
  | scanning =>
      have unlinked := permitted place
      have held := owns.2 place
      dsimp only
      rw [if_neg (Bool.eq_false_iff.1 unlinked)]
      exact tidy.leaverTo (Or.inr (Or.inr ⟨held, rfl⟩))
        (iff_of_false nofun nofun) unlinked
  | done => exact tidy
  | joining | marking | closing pc =>
      rw [place] at regular
      exact absurd regular id

/-- Every permitted move keeps this, for the queue that is at work. -/
theorem Tidy.step (tidy : Tidy queue state) (move : Move queues)
    (permitted : Permitted state move) :
    ∃ active, Tidy active (teardownStep state move) := by
  cases move with
  | segment next fin => exact tidy.segment next fin permitted
  | handle other =>
      by_cases same : other = queue
      · rw [same]
        exact ⟨queue, tidy.handle⟩
      · refine ⟨queue, ?_⟩
        rw [teardownStep, handleStep, tidy.others other same]
        exact tidy
  | receive choice => exact ⟨queue, tidy.receive choice permitted⟩
  | cancel =>
      refine ⟨queue, ?_⟩
      rw [teardownStep, cancelStep, tidy.cancelling,
        if_neg Bool.false_ne_true]
      exact tidy
  | leave => exact ⟨queue, tidy.leave permitted⟩

/-! ### When everything is over -/

/-- The handler is at a place where it asks for the lock. -/
def HandlerPc.Asks : HandlerPc → Prop
  | .finding _ | .found _ | .closing .locking => True
  | _ => False

/-- The handler can go on unless it asks for a lock that is taken. -/
theorem handleStep_ne (busy : state.handlers queue ≠ .idle)
    (free : (state.handlers queue).Asks → state.owner = none) :
    handleStep queue state ≠ state := by
  intro same
  have moved := congrArg (fun now => now.handlers queue) same
  unfold handleStep at moved
  cases place : state.handlers queue with
  | idle => exact busy place
  | finding fin | found fin =>
      rw [place] at free
      simp [place, lockThen, free trivial] at moved
  | searching fin =>
      simp only [place] at moved
      split at moved
      · simp at moved
      · simp at moved
  | deciding fin =>
      simp only [place] at moved
      split at moved
      · simp at moved
      · simp at moved
  | storing fin | accepting | acknowledging =>
      simp [place] at moved
  | closing pc =>
      rw [place] at free
      cases pc with
      | checking =>
          simp only [place, closeStep, handlerAt] at moved
          split at moved
          · simp at moved
          · simp at moved
      | shutting | removing | freeing =>
          simp [place, closeStep, handlerAt] at moved
      | locking =>
          simp [place, closeStep, handlerAt, lockThen, free trivial] at moved

/-- The owner of the lock can go on. -/
theorem Tidy.unowned (tidy : Tidy queue state) (ended : Over state) :
    state.owner = none := by
  cases held : state.owner with
  | none => rfl
  | some party =>
      cases party with
      | handler queue =>
          have holds := (tidy.handlerOwns queue).1 held
          refine absurd (ended.handler queue) (handleStep_ne ?_ ?_)
          · intro place
            rw [place] at holds
            exact holds
          · intro asks
            cases place : state.handlers queue with
            | closing pc =>
                rw [place] at holds asks
                cases pc <;> trivial
            | _ =>
                rw [place] at holds asks
                trivial
      | receiver =>
          have place := tidy.receiverOwns.1 held
          rcases ended.receiver with reading | waiting | stuck
          · rw [place] at reading
            cases reading
          · rw [place] at waiting
            cases waiting
          · have same := congrArg Teardown.receiver (stuck true)
            simp only [receiveStep, place] at same
            cases same
      | leaver =>
          have place := tidy.leaverOwns.1 held
          rcases ended.leaver with away | stuck
          · rw [place] at away
            cases away
          · have same := congrArg Teardown.leaver stuck
            simp only [leaveStep, place] at same
            split at same
            · cases same
            · cases same

theorem Tidy.idle (tidy : Tidy queue state) (ended : Over state) :
    state.handlers queue = .idle := by
  by_contra busy
  exact handleStep_ne busy (fun _ => tidy.unowned ended)
    (ended.handler queue)

/-- `uip_tcp_exit` was not called, or has found the object unlinked. -/
theorem Tidy.left (tidy : Tidy queue state) (ended : Over state)
    (called : state.leaver ≠ .away) : state.linked = false := by
  have free := tidy.unowned ended
  have regular := tidy.leaver
  have stuck := ended.leaver.resolve_left called
  have same := congrArg Teardown.leaver stuck
  cases place : state.leaver with
  | away => exact absurd place called
  | locking =>
      simp only [leaveStep, place, lockThen, free] at same
      cases same
  | scanning =>
      have held := tidy.leaverOwns.2 place
      rw [free] at held
      cases held
  | joining | marking | closing pc =>
      rw [place] at regular
      exact absurd regular id
  | done =>
      rw [place] at regular
      exact regular

/-- The object is gone once everything is over, or one side is not done. -/
theorem Tidy.settled (tidy : Tidy queue state) (ended : Over state) :
    Gone state ∨ Alive state ∧ HalfOpen state := by
  have phase := tidy.phase
  rw [tidy.idle ended] at phase
  exact phase

/-- The object is unlinked once, and freed after that. -/
theorem Phase.counted {pc : HandlerPc} (phase : Phase state pc) :
    (state.unlinks = 0 ∧ state.frees = 0) ∨
      (state.unlinks = 1 ∧ state.frees ≤ 1) ∧
        state.writeDone = true ∧ state.readDone = true := by
  have alive (kept : Alive state) : state.unlinks = 0 ∧ state.frees = 0 :=
    kept.2
  cases pc with
  | idle | finding fin | searching fin =>
      rcases phase with gone | kept
      · exact Or.inr ⟨⟨gone.1.2.1, Nat.le_of_eq gone.1.2.2⟩, gone.2⟩
      · exact Or.inl (alive kept.1)
  | found fin | storing fin | deciding fin | accepting => exact Or.inl (alive phase.1)
  | acknowledging => exact Or.inl (alive phase.1)
  | closing pc =>
      cases pc with
      | checking | shutting | locking | removing =>
          exact Or.inl (alive phase.1)
      | freeing =>
          refine Or.inr ⟨⟨phase.1.2.1, ?_⟩, phase.2⟩
          rw [phase.1.2.2]
          exact Nat.zero_le 1

theorem Tidy.clean (tidy : Tidy queue state) : Clean state where
  relocked := tidy.relocked
  misused := tidy.misused
  once := by
    have phase := tidy.phase
    rcases phase.counted with ⟨unlinks, frees⟩ | ⟨⟨unlinks, frees⟩, -⟩
    · rw [unlinks, frees]
      exact ⟨Nat.le_refl 0, Nat.zero_le 1⟩
    · rw [unlinks]
      exact ⟨frees, Nat.le_refl 1⟩
  after unlinked := by
    rcases tidy.phase.counted with ⟨unlinks, -⟩ | ⟨-, done⟩
    · rw [unlinks] at unlinked
      exact absurd unlinked (Nat.lt_irrefl 0)
    · exact done
  complete ended due := by
    rcases tidy.settled ended with gone | ⟨kept, half⟩
    · exact gone.1.2
    · exfalso
      rcases due with ⟨writeDone, readDone⟩ | called
      · rcases half with half | half
        · rw [writeDone] at half
          cases half
        · rw [readDone] at half
          cases half
      · have unlinked := tidy.left ended called
        rw [kept.1] at unlinked
        cases unlinked

end Moves

/-! ## Every order of closing -/

/--
In every run whose moves are all permitted the connection is closed cleanly:
the object is unlinked and freed once, after both sides are done, nobody uses
it after that, and nobody waits for the lock that it holds.
-/
theorem closed_cleanly (moves : List (Move queues))
    (permitted : Along teardownStep Permitted teardownStart moves) :
    Throughout teardownStep Clean teardownStart moves := by
  have visible (state : Teardown queues) :
      (∃ active, Tidy active state) → Clean state := by
    rintro ⟨_, tidy⟩
    exact tidy.clean
  have kept (state : Teardown queues) (move : Move queues) :
      (∃ active, Tidy active state) → Permitted state move →
        ∃ active, Tidy active (teardownStep state move) := by
    rintro ⟨_, tidy⟩ allowed
    exact tidy.step move allowed
  exact throughout_of_along visible kept ⟨0, tidy_start 0⟩ permitted

/--
The host closes, and the guest after it, with a segment of its own on each of
two queues: the object is freed.
-/
theorem closed_cleanly_host_first :
    let moves : List (Move 1) :=
      List.replicate 5 (.receive false) ++
        .segment 0 false :: List.replicate 5 (.handle 0) ++
        .segment 1 true :: List.replicate 13 (.handle 1)
    Throughout teardownStep Clean teardownStart moves ∧
      (run teardownStep teardownStart moves).frees = 1 :=
  ⟨closed_cleanly _ (by decide), by decide⟩

/--
Three orders go wrong.  The guest closes, and the host after it: both sides
are done, and nobody frees the object.  `uip_tcp_exit` finds an open
connection: once its thread has ended, it waits for the lock that it holds.
And the handler of one queue frees the object that the handler of another
queue has found, which uses it.
-/
theorem not_always_closed_cleanly :
    (¬ Throughout teardownStep Clean (teardownStart : Teardown 0)
        (.segment 0 true :: List.replicate 8 (.handle 0) ++
          List.replicate 5 (.receive false))) ∧
      (¬ Throughout teardownStep Clean (teardownStart : Teardown 0)
          (List.replicate 3 .leave ++ .cancel :: List.replicate 5 .leave)) ∧
        ¬ Throughout teardownStep Clean (teardownStart : Teardown 1)
            (List.replicate 5 (.receive false) ++
              .segment 1 false :: List.replicate 2 (.handle 1) ++
              .segment 0 true :: List.replicate 13 (.handle 0) ++
              List.replicate 2 (.handle 1)) := by
  refine ⟨fun clean => ?_, fun clean => ?_, fun clean => ?_⟩
  · have last := (throughout_append _ _ _ _ []).1 (by simpa using clean)
    have freed :=
      last.2.complete
        ⟨fun ⟨0, _⟩ => rfl, Or.inr (Or.inr fun _ => rfl), rfl, Or.inl rfl⟩
        (Or.inl ⟨rfl, rfl⟩)
    exact absurd freed.2 (by decide)
  · have last := (throughout_append _ _ _ _ []).1 (by simpa using clean)
    exact absurd last.2.relocked (by decide)
  · have last := (throughout_append _ _ _ _ []).1 (by simpa using clean)
    exact absurd last.2.misused (by decide)

end Kemu.Net.TcpTeardown
