import Kemu.Net.BufferPool
import Mathlib.Logic.Function.Basic

/-!
# The order of the frames for the guest

The frames that are queued stand in the slots of a fixed list, and the next
one is taken from the first used slot of that list.  The waiting frames,
read along the list, are a queue as long as a frame is put behind all the
others; a free slot in front of a used one lets a later frame overtake.
-/

namespace Kemu.Net.BufferOrder

open Kemu.Lib.Transition
open Kemu.Net.BufferPool

universe u

variable {Frame : Type u}

/-! ## The queue -/

/-- Who took a buffer: the maker of a frame, or the copy to the guest. -/
inductive Side where
  | producer
  | consumer
deriving DecidableEq, Repr

/--
The pool, who holds which slot, the frame in each slot, the frames passed to
`uip_buf_set_used` and those of the slots `uip_buf_get_used` returned.
-/
structure Delivery (Frame : Type u) where
  pool : Pool
  holder : Nat → Option Side
  frames : Nat → Frame
  passed : List Frame
  returned : List Frame

/-- After `uip_init`, whatever is in the slots. -/
def deliveryStart (bufNr : Nat) (frames : Nat → Frame) : Delivery Frame where
  pool := uipInit bufNr
  holder := fun _ => none
  frames := frames
  passed := []
  returned := []

/-- The operations; the frame is what the producer built in the slot. -/
inductive QueueOp (Frame : Type u) where
  | getFree
  | setUsed (index : Nat) (frame : Frame)
  | getUsed
  | setFree (index : Nat)

/-- A producer gets a slot. -/
def Delivery.build (state : Delivery Frame) : Taken → Delivery Frame
  | .waits => state
  | .missing => state
  | .got index pool =>
      { state with
        pool := pool
        holder := Function.update state.holder index (some .producer) }

/-- The consumer gets a slot. -/
def Delivery.copy (state : Delivery Frame) : Taken → Delivery Frame
  | .waits => state
  | .missing => state
  | .got index pool =>
      { state with
        pool := pool
        holder := Function.update state.holder index (some .consumer)
        returned := state.returned ++ [state.frames index] }

/-- One operation; a slot is handed over only by the side that took it. -/
def queueStep (state : Delivery Frame) : QueueOp Frame → Delivery Frame
  | .getFree => state.build (uipBufGetFree state.pool)
  | .setUsed index frame =>
      if state.holder index = some .producer then
        { pool := uipBufSetUsed state.pool index
          holder := Function.update state.holder index none
          frames := Function.update state.frames index frame
          passed := state.passed ++ [frame]
          returned := state.returned }
      else
        state
  | .getUsed => state.copy (uipBufGetUsed state.pool)
  | .setFree index =>
      if state.holder index = some .consumer then
        { state with
          pool := uipBufSetFree state.pool index
          holder := Function.update state.holder index none }
      else
        state

/-- The frames come out in the order in which they were put in. -/
def Fifo (state : Delivery Frame) : Prop :=
  state.returned <+: state.passed

/-- A frame is put behind every used slot. -/
def InOrder (state : Delivery Frame) : QueueOp Frame → Prop
  | .setUsed index _ =>
      state.holder index = some .producer →
        ∀ later, index < later → state.pool.bufs[later]? ≠ some .used
  | .getFree | .getUsed | .setFree _ => True

/-! ## The waiting frames -/

/-- The frames in the used ones of some slots, from a given place on. -/
def waitingIn (frames : Nat → Frame) : Nat → List Status → List Frame
  | _, [] => []
  | place, status :: rest =>
      if status = .used then
        frames place :: waitingIn frames (place + 1) rest
      else
        waitingIn frames (place + 1) rest

/-- The frames that wait, in the order in which they will be returned. -/
def Delivery.waiting (state : Delivery Frame) : List Frame :=
  waitingIn state.frames 0 state.pool.bufs

section Waiting

variable {frames other : Nat → Frame} {place index : Nat}
  {bufs left right : List Status} {old : Status}

theorem waitingIn_append :
    waitingIn frames place (left ++ right) =
      waitingIn frames place left ++
        waitingIn frames (place + left.length) right := by
  induction left generalizing place with
  | nil => rfl
  | cons status rest induction =>
      have tail := @induction (place + 1)
      rw [Nat.add_assoc, Nat.add_comm 1] at tail
      simp only [List.cons_append, waitingIn, List.length_cons, tail]
      split
      · rfl
      · rfl

theorem waitingIn_cons_unused (unused : old ≠ .used) :
    waitingIn frames place (old :: right) =
      waitingIn frames (place + 1) right :=
  if_neg unused

theorem waitingIn_cons_used :
    waitingIn frames place (.used :: right) =
      frames place :: waitingIn frames (place + 1) right :=
  if_pos rfl

/-- The other frames do not matter. -/
theorem waitingIn_congr
    (same : ∀ offset < bufs.length,
      frames (place + offset) = other (place + offset)) :
    waitingIn frames place bufs = waitingIn other place bufs := by
  induction bufs generalizing place with
  | nil => rfl
  | cons status rest induction =>
      have first : frames place = other place :=
        same 0 (Nat.succ_pos rest.length)
      have tail :
          waitingIn frames (place + 1) rest =
            waitingIn other (place + 1) rest := by
        apply induction
        intro offset inside
        rw [Nat.add_assoc, Nat.add_comm 1]
        exact same (offset + 1) (Nat.succ_lt_succ inside)
      simp only [waitingIn, first, tail]

theorem waitingIn_eq_nil :
    waitingIn frames place bufs = [] ↔
      ∀ index : Nat, bufs[index]? ≠ some .used := by
  induction bufs generalizing place with
  | nil => simp [waitingIn]
  | cons status rest induction =>
      unfold waitingIn
      split
      next used =>
        refine iff_of_false (List.cons_ne_nil _ _) ?_
        intro none
        apply none 0
        rw [used]
        rfl
      next unused =>
        rw [induction]
        constructor
        · intro none index
          cases index with
          | zero => exact fun same => unused (Option.some.inj same)
          | succ index => exact none index
        · exact fun none index => none (index + 1)

/-- A slot, and the slots in front of it and behind it. -/
theorem split_at (here : bufs[index]? = some old) :
    bufs = bufs.take index ++ old :: bufs.drop (index + 1) ∧
      (bufs.take index).length = index ∧
      ∀ new, bufs.set index new =
        bufs.take index ++ new :: bufs.drop (index + 1) := by
  obtain ⟨inside, same⟩ := List.getElem?_eq_some_iff.1 here
  refine ⟨?_, List.length_take_of_le (Nat.le_of_lt inside), fun new => ?_⟩
  · rw [← same, List.getElem_cons_drop, List.take_append_drop]
  · rw [List.set_eq_take_append_cons_drop, if_pos inside]

/-- A change between two statuses that do not wait. -/
theorem waitingIn_set (new : Status) (here : bufs[index]? = some old)
    (before : old ≠ .used) (after : new ≠ .used) :
    waitingIn frames place (bufs.set index new) =
      waitingIn frames place bufs := by
  obtain ⟨split, -, set⟩ := split_at here
  rw [set]
  conv_rhs => rw [split]
  rw [waitingIn_append, waitingIn_append, waitingIn_cons_unused before,
    waitingIn_cons_unused after]

/-- The first used slot has the first waiting frame. -/
theorem waitingIn_first (new : Status) (here : bufs[index]? = some .used)
    (first : ∀ before < index, bufs[before]? ≠ some .used)
    (unused : new ≠ .used) :
    waitingIn frames 0 bufs =
      frames index :: waitingIn frames 0 (bufs.set index new) := by
  obtain ⟨split, length, set⟩ := split_at here
  have front : waitingIn frames 0 (bufs.take index) = [] := by
    rw [waitingIn_eq_nil]
    intro before
    rw [List.getElem?_take]
    split
    next earlier => exact first before earlier
    next => exact nofun
  rw [set]
  conv_lhs => rw [split]
  rw [waitingIn_append, waitingIn_append, waitingIn_cons_unused unused,
    waitingIn_cons_used, front, length, Nat.zero_add]
  rfl

/-- A frame is put between those in front of its slot and those behind. -/
theorem waitingIn_insert (here : bufs[index]? = some old)
    (before : old ≠ .used) (frame : Frame) :
    ∃ front back,
      waitingIn frames 0 bufs = front ++ back ∧
        waitingIn (Function.update frames index frame) 0
            (bufs.set index .used) =
          front ++ frame :: back ∧
        (back = [] ↔
          ∀ later, index < later → bufs[later]? ≠ some .used) := by
  obtain ⟨split, length, set⟩ := split_at here
  refine
    ⟨waitingIn frames 0 (bufs.take index),
      waitingIn frames (index + 1) (bufs.drop (index + 1)), ?_, ?_, ?_⟩
  · conv_lhs => rw [split]
    rw [waitingIn_append, waitingIn_cons_unused before, length,
      Nat.zero_add]
  · have front :
        waitingIn (Function.update frames index frame) 0
            (bufs.take index) =
          waitingIn frames 0 (bufs.take index) := by
      apply waitingIn_congr
      intro offset inside
      rw [length] at inside
      rw [Function.update_of_ne]
      omega
    have back :
        waitingIn (Function.update frames index frame) (index + 1)
            (bufs.drop (index + 1)) =
          waitingIn frames (index + 1) (bufs.drop (index + 1)) := by
      apply waitingIn_congr
      intro offset _
      rw [Function.update_of_ne]
      omega
    rw [set, waitingIn_append, waitingIn_cons_used, front, length,
      Nat.zero_add, back, Function.update_self]
  · rw [waitingIn_eq_nil]
    simp only [List.getElem?_drop]
    constructor
    · intro none later behind
      obtain ⟨offset, rfl⟩ := Nat.exists_eq_add_of_lt behind
      have here := none offset
      rw [Nat.add_right_comm] at here
      exact here
    · intro none offset
      apply none
      omega

end Waiting

/-! ## What the operations do -/

/-- The counters count, and a slot that is held is in use. -/
structure Sound (state : Delivery Frame) : Prop where
  counted : Counted state.pool
  held :
    ∀ index side, state.holder index = some side →
      state.pool.bufs[index]? = some .inuse

/-- The frames that are out and those that wait. -/
def Delivery.line (state : Delivery Frame) : List Frame :=
  state.returned ++ state.waiting

/-- A new frame in the line, in front of those that a later slot has. -/
structure Joins (state after : Delivery Frame) (frame : Frame)
    (inOrder : Prop) : Prop where
  passed : after.passed = state.passed ++ [frame]
  line :
    ∃ front back,
      state.line = front ++ back ∧ after.line = front ++ frame :: back ∧
        (back = [] ↔ inOrder)

section Steps

variable {state : Delivery Frame}

theorem sound_start (bufNr : Nat) (frames : Nat → Frame) :
    Sound (deliveryStart bufNr frames) where
  counted := Counted.init bufNr
  held := nofun

/-- The slots that stay held stay in use. -/
theorem Sound.held_set (sound : Sound state) {index : Nat}
    {status : Status} {side : Option Side}
    (fits : ∀ held, side = some held → status = .inuse)
    (inside : index < state.pool.bufs.length) :
    ∀ other held,
      Function.update state.holder index side other = some held →
        (state.pool.bufs.set index status)[other]? = some .inuse := by
  intro other held holds
  by_cases same : other = index
  · subst same
    rw [Function.update_self] at holds
    rw [List.getElem?_set_self inside, fits held holds]
  · rw [Function.update_of_ne same] at holds
    rw [List.getElem?_set_ne (Ne.symm same)]
    exact sound.held other held holds

/-- Only the line that is made longer by a queued frame changes. -/
theorem Sound.step (sound : Sound state) (op : QueueOp Frame) :
    Sound (queueStep state op) ∧
      ((queueStep state op).line = state.line ∧
          (queueStep state op).passed = state.passed ∧ InOrder state op ∨
        ∃ frame,
          Joins state (queueStep state op) frame (InOrder state op)) := by
  cases op with
  | getFree =>
      unfold queueStep
      dsimp only
      rcases sound.counted.getFree with
        ⟨-, waits⟩ | ⟨index, after, got, here, bufs, counted⟩
      · rw [waits]
        exact ⟨sound, Or.inl ⟨rfl, rfl, trivial⟩⟩
      · rw [got]
        have inside := (List.getElem?_eq_some_iff.1 here).1
        refine ⟨⟨counted, ?_⟩, Or.inl ⟨?_, rfl, trivial⟩⟩
        · show ∀ other held, _ → after.bufs[other]? = _
          rw [bufs]
          exact sound.held_set (fun _ _ => rfl) inside
        · show state.returned ++ waitingIn state.frames 0 after.bufs = _
          rw [bufs, waitingIn_set .inuse here nofun nofun]
          rfl
  | getUsed =>
      unfold queueStep
      dsimp only
      rcases sound.counted.getUsed with
        ⟨-, waits⟩ | ⟨index, after, got, here, first, bufs, counted⟩
      · rw [waits]
        exact ⟨sound, Or.inl ⟨rfl, rfl, trivial⟩⟩
      · rw [got]
        have inside := (List.getElem?_eq_some_iff.1 here).1
        refine ⟨⟨counted, ?_⟩, Or.inl ⟨?_, rfl, trivial⟩⟩
        · show ∀ other held, _ → after.bufs[other]? = _
          rw [bufs]
          exact sound.held_set (fun _ _ => rfl) inside
        · show
            (state.returned ++ [state.frames index]) ++
                waitingIn state.frames 0 after.bufs =
              state.returned ++ waitingIn state.frames 0 state.pool.bufs
          rw [bufs, waitingIn_first .inuse here first nofun,
            List.append_assoc]
          rfl
  | setUsed index frame =>
      unfold queueStep InOrder
      dsimp only
      split
      next holds =>
        have here := sound.held index .producer holds
        have inside := (List.getElem?_eq_some_iff.1 here).1
        refine
          ⟨⟨sound.counted.setUsed here, sound.held_set nofun inside⟩,
            Or.inr ⟨frame, rfl, ?_⟩⟩
        obtain ⟨front, back, before, after, last⟩ :=
          @waitingIn_insert _ state.frames _ _ _ here nofun frame
        refine ⟨state.returned ++ front, back, ?_, ?_, ?_⟩
        · show state.returned ++ state.waiting = _
          rw [List.append_assoc, ← before]
          rfl
        · show state.returned ++ waitingIn _ 0 _ = _
          rw [List.append_assoc, ← after]
          rfl
        · rw [last]
          exact ⟨fun none _ => none, fun none => none holds⟩
      next other =>
        exact ⟨sound, Or.inl ⟨rfl, rfl, fun holds => absurd holds other⟩⟩
  | setFree index =>
      unfold queueStep
      dsimp only
      split
      next holds =>
        have here := sound.held index .consumer holds
        have inside := (List.getElem?_eq_some_iff.1 here).1
        refine
          ⟨⟨sound.counted.setFree here, sound.held_set nofun inside⟩,
            Or.inl ⟨?_, rfl, trivial⟩⟩
        show
          state.returned ++
              waitingIn state.frames 0 (state.pool.bufs.set index .free) =
            _
        rw [waitingIn_set .free here nofun nofun]
        rfl
      next =>
        exact ⟨sound, Or.inl ⟨rfl, rfl, trivial⟩⟩

end Steps

/-! ## The line is a queue, or two frames have changed places -/

/-- Two frames in the line in another order than they were passed. -/
def Overtaken (state : Delivery Frame) : Prop :=
  ∃ earlier later,
    [earlier, later].Sublist state.passed ∧
      [later, earlier].Sublist state.line

section Runs

variable {state : Delivery Frame}

/-- A frame that is put behind all the others leaves the line a queue. -/
theorem line_step (sound : Sound state)
    (queue : state.line = state.passed) {op : QueueOp Frame}
    (inOrder : InOrder state op) :
    (queueStep state op).line = (queueStep state op).passed := by
  rcases (sound.step op).2 with ⟨line, passed, -⟩ | ⟨frame, joins⟩
  · rw [line, passed, queue]
  · obtain ⟨front, back, before, after, last⟩ := joins.line
    rw [joins.passed, after, ← queue, before, last.2 inOrder,
      List.append_nil]

/-- A frame that is put in front of another one overtakes it. -/
theorem overtaken_step (sound : Sound state)
    (queue : state.line = state.passed) {op : QueueOp Frame}
    (other : ¬ InOrder state op) : Overtaken (queueStep state op) := by
  rcases (sound.step op).2 with ⟨-, -, inOrder⟩ | ⟨frame, joins⟩
  · exact absurd inOrder other
  · obtain ⟨front, back, before, after, last⟩ := joins.line
    cases back with
    | nil => exact absurd (last.1 rfl) other
    | cons passedBy rest =>
        refine ⟨passedBy, frame, ?_, ?_⟩
        · rw [joins.passed, ← queue, before]
          have member : [passedBy].Sublist (front ++ passedBy :: rest) :=
            List.singleton_sublist.2
              (List.mem_append_right front List.mem_cons_self)
          exact member.append_right [frame]
        · rw [after]
          apply List.Sublist.trans _ (List.sublist_append_right front _)
          exact (List.singleton_sublist.2 List.mem_cons_self).cons_cons frame

/-- Frames that have changed places never change back. -/
theorem Overtaken.step (overtaken : Overtaken state) (sound : Sound state)
    (op : QueueOp Frame) : Overtaken (queueStep state op) := by
  obtain ⟨earlier, later, put, out⟩ := overtaken
  refine ⟨earlier, later, ?_, ?_⟩
  · rcases (sound.step op).2 with ⟨-, passed, -⟩ | ⟨frame, joins⟩
    · rw [passed]
      exact put
    · rw [joins.passed]
      exact put.trans (List.sublist_append_left _ _)
  · rcases (sound.step op).2 with ⟨line, -, -⟩ | ⟨frame, joins⟩
    · rw [line]
      exact out
    · obtain ⟨front, back, before, after, -⟩ := joins.line
      rw [before] at out
      rw [after]
      exact out.trans ((List.Sublist.refl front).append
        (List.sublist_cons_self frame back))

theorem overtaken_run (overtaken : Overtaken state) (sound : Sound state)
    (ops : List (QueueOp Frame)) : Overtaken (run queueStep state ops) := by
  induction ops generalizing state with
  | nil => exact overtaken
  | cons op rest induction =>
      exact induction (overtaken.step sound op) (sound.step op).1

/-- Of two different members of a list, one comes first. -/
theorem not_both_orders {earlier later : Frame} {all : List Frame}
    (distinct : all.Nodup) (one : [earlier, later].Sublist all)
    (two : [later, earlier].Sublist all) : False := by
  induction all with
  | nil => cases one
  | cons first rest induction =>
      have fresh := (List.nodup_cons.1 distinct).1
      cases one with
      | cons _ one =>
          cases two with
          | cons _ two =>
              exact induction (List.nodup_cons.1 distinct).2 one two
          | cons_cons _ two =>
              apply fresh
              exact one.subset (List.mem_cons_of_mem _ List.mem_cons_self)
      | cons_cons _ one =>
          cases two with
          | cons _ two =>
              apply fresh
              exact two.subset (List.mem_cons_of_mem _ List.mem_cons_self)
          | cons_cons _ two => exact fresh (one.subset List.mem_cons_self)

/-- A step out of order is there for good. -/
theorem overtaken_of_not_along (sound : Sound state)
    (queue : state.line = state.passed) {ops : List (QueueOp Frame)}
    (other : ¬ Along queueStep InOrder state ops) :
    Overtaken (run queueStep state ops) := by
  induction ops generalizing state with
  | nil => exact absurd trivial other
  | cons op rest induction =>
      have after := (sound.step op).1
      by_cases inOrder : InOrder state op
      · apply induction after (line_step sound queue inOrder)
        exact fun along => other ⟨inOrder, along⟩
      · exact overtaken_run (overtaken_step sound queue inOrder) after rest

end Runs

/--
If every frame is put behind all used slots, then the frames come out in the
order in which they were passed, in every state.  And only then: if, once
different frames are all out, they are in this order, then every one of them
was put behind all used slots.
-/
theorem delivered_in_order (bufNr : Nat) (frames : Nat → Frame)
    (ops : List (QueueOp Frame)) :
    (Along queueStep InOrder (deliveryStart bufNr frames) ops →
        Throughout queueStep Fifo (deliveryStart bufNr frames) ops) ∧
      ∀ last, run queueStep (deliveryStart bufNr frames) ops = last →
        last.passed.Nodup → last.waiting = [] → Fifo last →
          Along queueStep InOrder (deliveryStart bufNr frames) ops := by
  have queue :
      (deliveryStart bufNr frames).line =
        (deliveryStart bufNr frames).passed := by
    show waitingIn frames 0 (List.replicate bufNr .free) = []
    rw [waitingIn_eq_nil]
    intro index used
    have member := List.eq_of_mem_replicate (List.mem_of_getElem? used)
    cases member
  have sound := sound_start bufNr frames
  constructor
  · intro along
    have visible (state : Delivery Frame)
        (holds : Sound state ∧ state.line = state.passed) : Fifo state := by
      rw [Fifo, ← holds.2]
      exact List.prefix_append _ _
    have kept (state : Delivery Frame) (op : QueueOp Frame)
        (holds : Sound state ∧ state.line = state.passed)
        (inOrder : InOrder state op) :
        Sound (queueStep state op) ∧
          (queueStep state op).line = (queueStep state op).passed :=
      ⟨(holds.1.step op).1, line_step holds.1 holds.2 inOrder⟩
    exact throughout_of_along visible kept ⟨sound, queue⟩ along
  · rintro last rfl distinct drained fifo
    by_contra other
    obtain ⟨earlier, later, put, out⟩ :=
      overtaken_of_not_along sound queue other
    rw [Delivery.line, drained, List.append_nil] at out
    exact not_both_orders distinct put (out.trans fifo.sublist)

/-- The third frame is put into the first slot while the second one waits. -/
def reuse : List (QueueOp Nat) :=
  [.getFree, .setUsed 0 0, .getFree, .setUsed 1 1, .getUsed, .setFree 0,
    .getFree, .setUsed 0 2, .getUsed]

/-- It is returned before the second one. -/
theorem not_always_in_order :
    ¬ ∀ (bufNr : Nat) (frames : Nat → Nat) (ops : List (QueueOp Nat)),
        Throughout queueStep Fifo (deliveryStart bufNr frames) ops := by
  intro always
  have inOrder :
      Fifo (run queueStep (deliveryStart 20 fun _ => 0) reuse) :=
    (always 20 (fun _ => 0) reuse).2.2.2.2.2.2.2.2.2
  have swapped : ¬ [0, 2] <+: [0, 1, 2] := by decide
  exact swapped inOrder

end Kemu.Net.BufferOrder
