import Kemu.Hw.I8042
import Kemu.Lib.RingWindow
import Kemu.Lib.Transition
import Mathlib.Algebra.Group.Int.Defs

/-!
# What the keyboard and mouse queues deliver

As long as the positions of a queue are small enough to be reduced to the
right index, its bytes come out as they went in.  A read of an empty data
port looks at the byte in front of the reading position without reducing
that position, and there is none before the first byte.
-/

namespace Kemu.Hw.I8042Queues

open Kemu.Hw.I8042
open Kemu.Lib.RingWindow
open Kemu.Lib.Transition

/-! ## What is expected -/

/--
The delivered bytes are the first of the accepted ones, the counter is the
number of the others, and the array is touched inside only.
-/
structure QueueSound (queue : Queue) : Prop where
  inOrder : queue.delivered <+: queue.accepted
  counted :
    queue.count = queue.accepted.length - queue.delivered.length
  bounds : 0 ≤ queue.count ∧ queue.count ≤ queueSize
  inside : ∀ index ∈ queue.touched, 0 ≤ index ∧ index < queueSize

/-- Both queues. -/
def QueuesSound (state : KbdState) : Prop :=
  QueueSound state.k ∧ QueueSound state.m

/-- The first byte of a queue that was not delivered. -/
def Queue.next (queue : Queue) : Option UInt8 :=
  queue.accepted[queue.delivered.length]?

/--
A read of the data port gives the next byte of the keyboard, else that of the
mouse, else the byte that was read from the keyboard last.
-/
def Answered (state : KbdState) : KbdInput → Prop
  | .io addr data isWrite =>
      addr = i8042DataReg → isWrite = false →
        some (kbdIo state addr data isWrite).1 =
          if state.k.count ≠ 0 then
            Queue.next state.k
          else if state.m.count > 0 then
            Queue.next state.m
          else
            state.k.delivered.getLast?
  | _ => True

/-- The bytes a command makes the controller put in its queues. -/
def commandRequests (state : KbdState) (val : UInt8) :
    List UInt8 × List UInt8 :=
  match val with
  | i8042CmdCtlRctr => ([state.mode], [])
  | i8042CmdAuxTest => ([], [0])
  | _ => ([], [])

/-- The bytes the mouse sends behind its acknowledgement. -/
def auxRequests (state : KbdState) (val : UInt8) : List UInt8 :=
  match val with
  | 0xe9 => [state.mstatus, state.mres, state.msample]
  | 0xf2 => [0]
  | _ => []

/-- Those for an argument of a command, or for none. -/
def dataRequests (state : KbdState) (val : UInt8) :
    List UInt8 × List UInt8 :=
  match state.writeCmd with
  | i8042CmdAuxLoop => ([], [val, responseAck])
  | i8042CmdAuxSend => ([], responseAck :: auxRequests state val)
  | noCommand => ([responseAck, 0xab, 0x41], [])
  | _ => ([], [])

/-- The bytes an input is to put in the two queues. -/
def requests (state : KbdState) : KbdInput → List UInt8 × List UInt8
  | .kbdQueue c => ([c], [])
  | .mouseQueue c => ([], [c])
  | .io addr data isWrite =>
      if isWrite then
        if addr = i8042CommandReg then
          commandRequests state data
        else if addr = i8042DataReg then
          dataRequests state data
        else
          ([], [])
      else
        ([], [])

/--
A queue that takes as many of some bytes as there is room for has accepted no
more than `2^31 + 1` in all.
-/
def Accepts (queue : Queue) (bytes : List UInt8) : Prop :=
  queue.accepted.length + min bytes.length (queueSize - queue.count).toNat ≤
    2 ^ 31 + 1

/-- A read of the data port while both queues are empty. -/
def ReadsEmpty (state : KbdState) : KbdInput → Prop
  | .io addr _ isWrite =>
      addr = i8042DataReg ∧ isWrite = false ∧
        state.k.count = 0 ∧ state.m.count = 0
  | _ => False

/--
No queue accepts more than `2^31 + 1` bytes, and the data port is not read
with both queues empty before the first or after the 128th byte was read from
the keyboard.
-/
def Modest (state : KbdState) (input : KbdInput) : Prop :=
  Accepts state.k (requests state input).1 ∧
    Accepts state.m (requests state input).2 ∧
    (ReadsEmpty state input →
      0 < state.k.delivered.length ∧ state.k.delivered.length ≤ 128)

/-! ## Positions -/

theorem wrapInt_small {count : Nat} (small : count < 2 ^ 31) :
    wrapInt count = count := by
  rw [wrapInt]
  apply Int.bmod_eq_of_le <;> omega

theorem wrapInt_large {count : Nat} (large : 2 ^ 31 ≤ count)
    (once : count < 2 ^ 32) : wrapInt count = count - 2 ^ 32 := by
  rw [wrapInt, Int.bmod_def]
  split <;> omega

/-- The index of a position that is not too far. -/
theorem index_of_position {count : Nat} (small : count ≤ 2 ^ 31) :
    (wrapInt count).tmod queueSize = ((count % 128 : Nat) : Int) := by
  rcases Nat.lt_or_eq_of_le small with less | rfl
  · rw [wrapInt_small less]
    exact Int.ofNat_tmod count 128
  · decide

/-- The first position with an index in front of the array. -/
theorem index_outside :
    (wrapInt ((2 ^ 31 + 1 : Nat) : Int)).tmod queueSize = -127 := by
  decide

theorem wrapInt_add (value more : Int) :
    wrapInt (wrapInt value + more) = wrapInt (value + more) :=
  Int.bmod_add_bmod

/-! ## One queue -/

section Queue

variable {queue : Queue} {byte : UInt8}

/--
The bytes that are not delivered lie in the array behind the position of the
next one, and the byte in front of it is the last one delivered.
-/
structure QueueHolds (queue : Queue) : Prop where
  accepted :
    queue.accepted =
      queue.delivered ++
        window 128 queue.cells queue.delivered.length queue.count.toNat
  bounds : 0 ≤ queue.count ∧ queue.count ≤ queueSize
  read : queue.read = wrapInt queue.delivered.length
  write : queue.write = wrapInt queue.accepted.length
  modest : queue.accepted.length ≤ 2 ^ 31 + 1
  behind :
    queue.count < queueSize → 0 < queue.delivered.length →
      queue.delivered.getLast? =
        some (queue.cells ((queue.delivered.length - 1) % 128))
  inside : ∀ index ∈ queue.touched, 0 ≤ index ∧ index < queueSize

theorem QueueHolds.length (holds : QueueHolds queue) :
    queue.accepted.length = queue.delivered.length + queue.count.toNat := by
  rw [holds.accepted, List.length_append, window_length]

theorem QueueHolds.sound (holds : QueueHolds queue) : QueueSound queue where
  inOrder := by
    rw [holds.accepted]
    exact List.prefix_append _ _
  counted := by
    have nonneg := holds.bounds.1
    rw [holds.length]
    omega
  bounds := holds.bounds
  inside := holds.inside

theorem inside_cell (cell : Nat) :
    (0 : Int) ≤ ((cell % 128 : Nat) : Int) ∧
      ((cell % 128 : Nat) : Int) < queueSize := by
  have less : cell % 128 < 128 := Nat.mod_lt _ (by decide)
  exact ⟨Int.natCast_nonneg _, Int.ofNat_lt.2 less⟩

/-- Inside of the array a store and a load are those of the cell. -/
theorem storeAt_cell {cells : Nat → UInt8} (cell : Nat) :
    storeAt cells ((cell % 128 : Nat) : Int) byte =
      Function.update cells (cell % 128) byte := by
  rw [storeAt, if_pos (inside_cell cell), Int.toNat_natCast]

theorem loadAt_cell {cells : Nat → UInt8} (cell : Nat) :
    loadAt cells ((cell % 128 : Nat) : Int) = cells (cell % 128) := by
  rw [loadAt, if_pos (inside_cell cell), Int.toNat_natCast]

theorem QueueHolds.touch (holds : QueueHolds queue) {cell : Nat} :
    ∀ index ∈ queue.touched ++ [((cell % 128 : Nat) : Int)],
      0 ≤ index ∧ index < queueSize := by
  intro index member
  rcases List.mem_append.1 member with earlier | last
  · exact holds.inside index earlier
  · rw [List.mem_singleton.1 last]
    exact inside_cell cell

theorem QueueHolds.put (holds : QueueHolds queue)
    (room : queue.count < queueSize)
    (modest : queue.accepted.length ≤ 2 ^ 31) :
    QueueHolds (queue.put byte) := by
  have nonneg := holds.bounds.1
  have few : queue.count.toNat < 128 := by
    have size : queueSize = 128 := rfl
    omega
  have next : (queue.count + 1).toNat = queue.count.toNat + 1 := by
    omega
  have index :
      queue.write.tmod queueSize =
        (((queue.delivered.length + queue.count.toNat) % 128 : Nat) :
          Int) := by
    rw [holds.write, index_of_position modest, holds.length]
  have cells :
      (queue.put byte).cells =
        Function.update queue.cells
          ((queue.delivered.length + queue.count.toNat) % 128) byte := by
    show storeAt queue.cells (queue.write.tmod queueSize) byte = _
    rw [index]
    exact storeAt_cell _
  refine
    { accepted := ?_
      bounds := ⟨Int.le_add_one nonneg, room⟩
      read := holds.read
      write := ?_
      modest := ?_
      behind := ?_
      inside := ?_ }
  · show queue.accepted ++ [byte] =
      queue.delivered ++
        window 128 (queue.put byte).cells queue.delivered.length
          (queue.count + 1).toNat
    rw [cells, next, window_push few, ← List.append_assoc,
      ← holds.accepted]
  · show wrapInt (queue.write + 1) =
      wrapInt ((queue.accepted ++ [byte]).length : Nat)
    rw [holds.write, wrapInt_add, List.length_append]
    rfl
  · show (queue.accepted ++ [byte]).length ≤ _
    rw [List.length_append]
    exact Nat.succ_le_succ modest
  · intro more some
    have more : queue.count + 1 < 128 := more
    have some : 0 < queue.delivered.length := some
    show queue.delivered.getLast? =
      Option.some
        ((queue.put byte).cells ((queue.delivered.length - 1) % 128))
    rw [cells, push_behind (by omega) some]
    exact holds.behind room some
  · show ∀ touched ∈ queue.touched ++ [queue.write.tmod queueSize], _
    rw [index]
    exact holds.touch

/-- Taking a byte gives the next one. -/
theorem QueueHolds.take (holds : QueueHolds queue)
    (some : queue.count ≠ 0) :
    QueueHolds queue.take.2 ∧
      Option.some queue.take.1 = Queue.next queue := by
  have nonneg := holds.bounds.1
  have fits := holds.bounds.2
  have count : queue.count.toNat = (queue.count - 1).toNat + 1 := by
    omega
  have modest : queue.delivered.length ≤ 2 ^ 31 := by
    have length := holds.length
    have all := holds.modest
    omega
  have index :
      queue.read.tmod queueSize =
        ((queue.delivered.length % 128 : Nat) : Int) := by
    rw [holds.read, index_of_position modest]
  have byte :
      queue.take.1 = queue.cells (queue.delivered.length % 128) := by
    show loadAt queue.cells (queue.read.tmod queueSize) = _
    rw [index]
    exact loadAt_cell _
  have accepted := holds.accepted
  rw [count, window_pop, ← byte] at accepted
  have delivered :
      queue.take.2.delivered = queue.delivered ++ [queue.take.1] :=
    rfl
  have length :
      queue.take.2.delivered.length = queue.delivered.length + 1 := by
    rw [delivered, List.length_append]
    rfl
  constructor
  · refine
      { accepted := ?_
        bounds := ⟨?_, ?_⟩
        read := ?_
        write := holds.write
        modest := holds.modest
        behind := ?_
        inside := ?_ }
    · rw [length, delivered]
      show queue.accepted = _
      rw [accepted, List.append_assoc]
      rfl
    · show 0 ≤ queue.count - 1
      omega
    · show queue.count - 1 ≤ queueSize
      omega
    · rw [length]
      show wrapInt (queue.read + 1) = _
      rw [holds.read, wrapInt_add]
      rfl
    · intro _ _
      rw [length, delivered, List.getLast?_concat, Nat.add_sub_cancel, byte]
      rfl
    · show ∀ touched ∈ queue.touched ++ [queue.read.tmod queueSize], _
      rw [index]
      exact holds.touch
  · rw [Queue.next, accepted, List.getElem?_append_right (Nat.le_refl _),
      Nat.sub_self]
    rfl

/-- Looking at the last byte. -/
theorem QueueHolds.last (holds : QueueHolds queue)
    (empty : queue.count = 0) (some : 0 < queue.delivered.length)
    (few : queue.delivered.length ≤ 128) :
    QueueHolds queue.last.2 ∧
      Option.some queue.last.1 = queue.delivered.getLast? := by
  have position : queue.lastIndex =
      (((queue.delivered.length - 1) % 128 : Nat) : Int) := by
    have back :
        ((queue.delivered.length : Nat) : Int) + -1 =
          ((queue.delivered.length - 1 : Nat) : Int) := by
      omega
    rw [Queue.lastIndex, holds.read, Int.sub_eq_add_neg, wrapInt_add, back,
      wrapInt_small (by omega), if_neg (by omega),
      Nat.mod_eq_of_lt (by omega)]
  constructor
  · refine
      { holds with inside := ?_ }
    show ∀ touched ∈ queue.touched ++ [queue.lastIndex], _
    rw [position]
    exact holds.touch
  · show Option.some (loadAt queue.cells queue.lastIndex) = _
    rw [holds.behind (by rw [empty]; decide) some, position, loadAt_cell]

/-- Before the first byte, and after the 128th, that index is outside. -/
theorem QueueHolds.last_outside (holds : QueueHolds queue)
    (far :
      ¬ (0 < queue.delivered.length ∧ queue.delivered.length ≤ 128)) :
    ¬ (0 ≤ queue.lastIndex ∧ queue.lastIndex < queueSize) := by
  have length := holds.length
  have modest := holds.modest
  have size : queueSize = 128 := rfl
  rw [Queue.lastIndex, holds.read, Int.sub_eq_add_neg, wrapInt_add]
  rcases Nat.eq_zero_or_pos queue.delivered.length with none | some
  · rw [none]
    decide
  · have back :
        ((queue.delivered.length : Nat) : Int) + -1 =
          ((queue.delivered.length - 1 : Nat) : Int) := by
      omega
    rw [back]
    rcases Nat.lt_or_ge (queue.delivered.length - 1) (2 ^ 31) with
      near | wrapped
    · rw [wrapInt_small near, if_neg (by omega)]
      omega
    · rw [wrapInt_large wrapped (by omega), if_pos (by omega)]
      omega

end Queue

/-! ## Several bytes -/

section Feed

variable {queue : Queue}

/-- A byte that is dropped when the queue is full. -/
def enqueue (queue : Queue) (byte : UInt8) : Queue :=
  if queue.count ≥ queueSize then queue else queue.put byte

/-- One byte after the other. -/
def feed (queue : Queue) (bytes : List UInt8) : Queue :=
  bytes.foldl enqueue queue

@[simp]
theorem feed_nil : feed queue [] = queue :=
  rfl

theorem feed_cons (byte : UInt8) (rest : List UInt8) :
    feed queue (byte :: rest) = feed (enqueue queue byte) rest :=
  rfl

theorem enqueue_full {byte : UInt8} (full : queueSize ≤ queue.count) :
    enqueue queue byte = queue :=
  if_pos full

theorem enqueue_room {byte : UInt8} (room : queue.count < queueSize) :
    enqueue queue byte = queue.put byte :=
  if_neg (Int.not_le.2 room)

/-- What was touched is not forgotten. -/
theorem feed_touched {index : Int} (bytes : List UInt8)
    (member : index ∈ queue.touched) :
    index ∈ (feed queue bytes).touched := by
  induction bytes generalizing queue with
  | nil => exact member
  | cons byte rest induction =>
      apply induction
      rcases Int.lt_or_le queue.count queueSize with room | full
      · rw [enqueue_room room]
        exact List.mem_append_left _ member
      · rwa [enqueue_full full]

theorem accepts_nil (modest : queue.accepted.length ≤ 2 ^ 31 + 1) :
    Accepts queue [] := by
  rw [Accepts, List.length_nil, Nat.zero_min]
  exact modest

theorem accepts_full (full : queueSize ≤ queue.count)
    (byte : UInt8) (rest : List UInt8) :
    Accepts queue (byte :: rest) ↔ Accepts queue rest := by
  have none : (queueSize - queue.count).toNat = 0 := by
    omega
  rw [Accepts, Accepts, none, Nat.min_zero, Nat.min_zero]

theorem accepts_room (room : queue.count < queueSize)
    (byte : UInt8) (rest : List UInt8) :
    Accepts queue (byte :: rest) ↔ Accepts (queue.put byte) rest := by
  have less :
      (queueSize - queue.count).toNat =
        (queueSize - (queue.count + 1)).toNat + 1 := by
    omega
  have longer : (queue.put byte).accepted.length =
      queue.accepted.length + 1 :=
    List.length_append
  rw [Accepts, Accepts, longer, less, List.length_cons, Nat.succ_min_succ,
    Nat.add_right_comm]
  rfl

theorem Accepts.modest {bytes : List UInt8} (accepts : Accepts queue bytes) :
    queue.accepted.length ≤ 2 ^ 31 + 1 :=
  Nat.le_trans (Nat.le_add_right _ _) accepts

theorem QueueHolds.feed {bytes : List UInt8} (holds : QueueHolds queue)
    (accepts : Accepts queue bytes) : QueueHolds (feed queue bytes) := by
  induction bytes generalizing queue with
  | nil => exact holds
  | cons byte rest induction =>
      rw [feed_cons]
      rcases Int.lt_or_le queue.count queueSize with room | full
      · rw [accepts_room room] at accepts
        have modest := accepts.modest
        rw [Queue.put, List.length_append] at modest
        rw [enqueue_room room]
        exact induction (holds.put room (Nat.le_of_succ_le_succ modest)) accepts
      · rw [accepts_full full] at accepts
        rw [enqueue_full full]
        exact induction holds accepts

/-- The byte that goes too far is stored in front of the array. -/
theorem QueueHolds.feed_outside {bytes : List UInt8}
    (holds : QueueHolds queue) (refuses : ¬ Accepts queue bytes) :
    -127 ∈ (I8042Queues.feed queue bytes).touched := by
  induction bytes generalizing queue with
  | nil => exact absurd (accepts_nil holds.modest) refuses
  | cons byte rest induction =>
      rw [feed_cons]
      rcases Int.lt_or_le queue.count queueSize with room | full
      · rw [accepts_room room] at refuses
        rw [enqueue_room room]
        rcases Nat.lt_or_ge (2 ^ 31) queue.accepted.length with far | near
        · have length : queue.accepted.length = 2 ^ 31 + 1 :=
            Nat.le_antisymm holds.modest far
          apply feed_touched
          show _ ∈ queue.touched ++ [queue.write.tmod queueSize]
          rw [holds.write, length, index_outside]
          exact List.mem_append_right _ (List.mem_singleton_self _)
        · exact induction (holds.put room near) refuses
      · rw [accepts_full full] at refuses
        rw [enqueue_full full]
        exact induction holds refuses

end Feed

/-! ## What an input does to the queues -/

section Inputs

variable (state : KbdState)

theorem kbdQueue_queues (c : UInt8) :
    (kbdQueue state c).k = enqueue state.k c ∧
      (kbdQueue state c).m = state.m := by
  unfold kbdQueue enqueue
  split <;> exact ⟨rfl, rfl⟩

theorem mouseQueue_queues (c : UInt8) :
    (mouseQueue state c).k = state.k ∧
      (mouseQueue state c).m = enqueue state.m c := by
  unfold mouseQueue enqueue
  split <;> exact ⟨rfl, rfl⟩

/-- An input that does not read the data port feeds its bytes. -/
def Feeds (next : KbdState) (bytes : List UInt8 × List UInt8) : Prop :=
  next.k = feed state.k bytes.1 ∧ next.m = feed state.m bytes.2

theorem feeds_kbdQueue (c : UInt8) :
    Feeds state (kbdQueue state c) ([c], []) :=
  kbdQueue_queues state c

theorem feeds_mouseQueue (c : UInt8) :
    Feeds state (mouseQueue state c) ([], [c]) :=
  mouseQueue_queues state c

variable {state}

theorem Feeds.trans {middle next : KbdState}
    {first second : List UInt8 × List UInt8}
    (before : Feeds state middle first) (after : Feeds middle next second) :
    Feeds state next (first.1 ++ second.1, first.2 ++ second.2) := by
  constructor
  · rw [after.1, before.1, feed, feed, feed, List.foldl_append]
  · rw [after.2, before.2, feed, feed, feed, List.foldl_append]

variable (state)

theorem mouseQueue_mouse (c : UInt8) :
    (mouseQueue state c).mstatus = state.mstatus ∧
      (mouseQueue state c).mres = state.mres ∧
      (mouseQueue state c).msample = state.msample := by
  unfold mouseQueue
  split <;> exact ⟨rfl, rfl, rfl⟩

theorem auxRequests_none {val : UInt8} (report : ¬ val = 0xe9)
    (ident : ¬ val = 0xf2) : auxRequests state val = [] := by
  unfold auxRequests
  split
  · contradiction
  · contradiction
  · rfl

theorem commandRequests_none {val : UInt8}
    (mode : ¬ val = i8042CmdCtlRctr) (test : ¬ val = i8042CmdAuxTest) :
    commandRequests state val = ([], []) := by
  unfold commandRequests
  split
  · contradiction
  · contradiction
  · rfl

theorem feeds_auxSend (val : UInt8) :
    Feeds state (auxSend state val) ([], auxRequests state val) := by
  unfold auxSend
  split
  case h_3 =>
    exact
      ((feeds_mouseQueue state _).trans (feeds_mouseQueue _ _)).trans
        (feeds_mouseQueue _ _)
  case h_4 => exact feeds_mouseQueue state 0
  case h_10 report ident _ _ _ _ _ =>
    rw [auxRequests_none state report ident]
    exact ⟨rfl, rfl⟩
  all_goals exact ⟨rfl, rfl⟩

theorem feeds_command (val : UInt8) :
    Feeds state (kbdWriteCommand state val) (commandRequests state val) := by
  unfold kbdWriteCommand
  split
  case h_1 => exact feeds_kbdQueue state _
  case h_5 => exact feeds_mouseQueue state 0
  case h_9 mode _ _ _ test _ _ _ =>
    rw [commandRequests_none state mode test]
    exact ⟨rfl, rfl⟩
  all_goals exact ⟨rfl, rfl⟩

theorem dataRequests_none {val : UInt8}
    (loop : ¬ state.writeCmd = i8042CmdAuxLoop)
    (send : ¬ state.writeCmd = i8042CmdAuxSend)
    (none : ¬ state.writeCmd = noCommand) :
    dataRequests state val = ([], []) := by
  unfold dataRequests
  split
  · contradiction
  · contradiction
  · contradiction
  · rfl

theorem feeds_argument (val : UInt8) :
    Feeds state (kbdArgument state val) (dataRequests state val) := by
  unfold kbdArgument
  split
  case h_1 command =>
    rw [dataRequests_none] <;> first | rw [command]; decide | exact ⟨rfl, rfl⟩
  case h_2 command =>
    rw [dataRequests, command]
    exact (feeds_mouseQueue state _).trans (feeds_mouseQueue _ _)
  case h_3 command =>
    rw [dataRequests, command]
    have same := mouseQueue_mouse state responseAck
    have after := feeds_auxSend (mouseQueue state responseAck) val
    have requests :
        auxRequests (mouseQueue state responseAck) val =
          auxRequests state val := by
      unfold auxRequests
      rw [same.1, same.2.1, same.2.2]
    rw [requests] at after
    exact (feeds_mouseQueue state _).trans after
  case h_4 command =>
    rw [dataRequests, command]
    exact
      ((feeds_kbdQueue state _).trans (feeds_kbdQueue _ _)).trans
        (feeds_kbdQueue _ _)
  case h_5 _ loop send none =>
    rw [dataRequests_none state loop send none]
    exact ⟨rfl, rfl⟩

/-- A read of another port changes nothing. -/
theorem kbdIo_read_other {addr : UInt64} (port : addr ≠ i8042DataReg)
    (data : UInt8) : (kbdIo state addr data false).2 = state := by
  unfold kbdIo
  split
  · rfl
  · split <;> rfl

theorem feeds_write (addr : UInt64) (data : UInt8) :
    Feeds state (kbdIo state addr data true).2
      (requests state (.io addr data true)) := by
  show Feeds state _
    (if addr = i8042CommandReg then commandRequests state data
    else if addr = i8042DataReg then dataRequests state data else ([], []))
  unfold kbdIo
  split
  · exact feeds_command state data
  · split
    · exact feeds_argument state data
    · split <;> exact ⟨rfl, rfl⟩

/-- The bytes an input feeds that does not read the data port. -/
theorem feeds_step (input : KbdInput)
    (other : ∀ data, input ≠ .io i8042DataReg data false) :
    Feeds state (kbdStep state input) (requests state input) := by
  cases input with
  | kbdQueue c => exact feeds_kbdQueue state c
  | mouseQueue c => exact feeds_mouseQueue state c
  | io addr data isWrite =>
      cases isWrite with
      | true => exact feeds_write state addr data
      | false =>
          have port : addr ≠ i8042DataReg := by
            rintro rfl
            exact other data rfl
          show Feeds state (kbdIo state addr data false).2 ([], [])
          rw [kbdIo_read_other state port]
          exact ⟨rfl, rfl⟩

end Inputs

/-! ## Runs -/

section Runs

variable {state : KbdState}

/-- Both queues. -/
def QueuesHold (state : KbdState) : Prop :=
  QueueHolds state.k ∧ QueueHolds state.m

/-- An access that is a read of the data port, and another one. -/
theorem readsData_or (input : KbdInput) :
    (∃ data, input = .io i8042DataReg data false) ∨
      ∀ data, input ≠ .io i8042DataReg data false := by
  by_cases reads : ∃ data, input = .io i8042DataReg data false
  · exact Or.inl reads
  · exact Or.inr (not_exists.1 reads)

theorem not_readsEmpty {input : KbdInput}
    (other : ∀ data, input ≠ .io i8042DataReg data false) :
    ¬ ReadsEmpty state input := by
  cases input with
  | kbdQueue c => exact id
  | mouseQueue c => exact id
  | io addr data isWrite =>
      rintro ⟨rfl, rfl, -⟩
      exact other data rfl

theorem answered_other {input : KbdInput}
    (other : ∀ data, input ≠ .io i8042DataReg data false) :
    Answered state input := by
  cases input with
  | kbdQueue c => trivial
  | mouseQueue c => trivial
  | io addr data isWrite =>
      rintro rfl rfl
      exact absurd rfl (other data)

/-- A read of the data port of a modest run. -/
theorem read_kept (holds : QueuesHold state) (data : UInt8)
    (modest : Modest state (.io i8042DataReg data false)) :
    QueuesHold (kbdReadData state).2 ∧
      Answered state (.io i8042DataReg data false) := by
  obtain ⟨keyboard, mouse⟩ := holds
  have answer :
      some (kbdReadData state).1 =
          (if state.k.count ≠ 0 then Queue.next state.k
          else if state.m.count > 0 then Queue.next state.m
          else state.k.delivered.getLast?) →
        Answered state (.io i8042DataReg data false) :=
    fun same _ _ => same
  unfold kbdReadData at answer ⊢
  by_cases typed : state.k.count ≠ 0
  · obtain ⟨taken, next⟩ := keyboard.take typed
    rw [if_pos typed] at answer ⊢
    exact ⟨⟨taken, mouse⟩, answer (by rw [if_pos typed]; exact next)⟩
  · by_cases moved : state.m.count > 0
    · obtain ⟨taken, next⟩ := mouse.take (Int.ne_of_gt moved)
      rw [if_neg typed, if_pos moved] at answer ⊢
      refine ⟨⟨keyboard, taken⟩, answer ?_⟩
      rw [if_neg typed, if_pos moved]
      exact next
    · have empty := not_not.1 typed
      have still : state.m.count = 0 :=
        Int.le_antisymm (Int.not_lt.1 moved) mouse.bounds.1
      have near := modest.2.2 ⟨rfl, rfl, empty, still⟩
      obtain ⟨looked, last⟩ := keyboard.last empty near.1 near.2
      rw [if_neg typed, if_neg moved] at answer ⊢
      refine ⟨⟨looked, mouse⟩, answer ?_⟩
      rw [if_neg typed, if_neg moved]
      exact last

theorem step_kept (holds : QueuesHold state) (input : KbdInput)
    (modest : Modest state input) :
    QueuesHold (kbdStep state input) ∧ Answered state input := by
  rcases readsData_or input with ⟨data, rfl⟩ | other
  · exact read_kept holds data modest
  · obtain ⟨keyboard, mouse⟩ := feeds_step state input other
    refine ⟨⟨?_, ?_⟩, answered_other other⟩
    · rw [keyboard]
      exact holds.1.feed modest.1
    · rw [mouse]
      exact holds.2.feed modest.2.1

/-- Every other step touches an index that does not exist. -/
theorem step_broken (holds : QueuesHold state) (input : KbdInput)
    (immodest : ¬ Modest state input) :
    ¬ QueuesSound (kbdStep state input) := by
  rintro ⟨keyboard, mouse⟩
  rcases readsData_or input with ⟨data, rfl⟩ | other
  · have accepts := accepts_nil holds.1.modest
    have mouseAccepts := accepts_nil holds.2.modest
    obtain ⟨empty, far⟩ :
        ReadsEmpty state (.io i8042DataReg data false) ∧
          ¬ (0 < state.k.delivered.length ∧
            state.k.delivered.length ≤ 128) := by
      by_contra fine
      exact immodest
        ⟨accepts, mouseAccepts,
          fun empty => by_contra fun far => fine ⟨empty, far⟩⟩
    obtain ⟨-, -, none, still⟩ := empty
    have last :
        (kbdStep state (.io i8042DataReg data false)).k =
          state.k.last.2 := by
      show (kbdReadData state).2.k = _
      rw [kbdReadData, if_neg (not_not.2 none),
        if_neg (Int.not_lt.2 (Int.le_of_eq still))]
    apply holds.1.last_outside far
    apply keyboard.inside
    rw [last]
    exact List.mem_append_right _ (List.mem_singleton_self _)
  · obtain ⟨keys, moves⟩ := feeds_step state input other
    by_cases accepts : Accepts state.k (requests state input).1
    · have refuses : ¬ Accepts state.m (requests state input).2 :=
        fun mouseAccepts =>
          immodest
            ⟨accepts, mouseAccepts,
              fun empty => absurd empty (not_readsEmpty other)⟩
      have outside := holds.2.feed_outside refuses
      rw [← moves] at outside
      exact absurd (mouse.inside _ outside).1 (by decide)
    · have outside := holds.1.feed_outside accepts
      rw [← keys] at outside
      exact absurd (keyboard.inside _ outside).1 (by decide)

theorem queueHolds_start : QueueHolds kbdReset.k where
  accepted := rfl
  bounds := by decide
  read := by decide
  write := by decide
  modest := by decide
  behind _ some := absurd some (by decide)
  inside _ member := absurd member List.not_mem_nil

end Runs

/-! ## The result -/

/--
In a run of enqueued bytes and port accesses after a reset, the queues
deliver what they accepted in order, their counters count the other bytes,
their arrays are touched inside only and the data port gives the right bytes
exactly when no queue accepts more than `2^31 + 1` bytes and the data port is
not read with both queues empty before the first or after the 128th byte of
the keyboard.
-/
theorem queues_deliver_iff (inputs : List KbdInput) :
    Throughout kbdStep QueuesSound kbdReset inputs ∧
        Along kbdStep Answered kbdReset inputs ↔
      Along kbdStep Modest kbdReset inputs := by
  have start : QueuesHold kbdReset := ⟨queueHolds_start, queueHolds_start⟩
  have visible : ∀ state, QueuesHold state → QueuesSound state :=
    fun _ holds => ⟨holds.1.sound, holds.2.sound⟩
  have broken :
      ∀ state input, QueuesHold state → ¬ Modest state input →
        QueuesSound (kbdStep state input) → ¬ Answered state input :=
    fun _ input holds immodest sound =>
      absurd sound (step_broken holds input immodest)
  exact
    throughout_and_along_iff visible
      (fun _ input holds modest => step_kept holds input modest) broken
      start inputs

/-- The data port read before a byte came. -/
theorem empty_read_outside :
    ¬ ∀ inputs,
        Throughout kbdStep QueuesSound kbdReset inputs ∧
          Along kbdStep Answered kbdReset inputs := by
  intro always
  have sound := (always [.io i8042DataReg 0 false]).1.2.1
  exact absurd (sound.inside 128 (by decide)).2 (by decide)

end Kemu.Hw.I8042Queues
