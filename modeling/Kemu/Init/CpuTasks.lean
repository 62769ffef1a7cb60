import Kemu.Lib.Tally
import Kemu.Lib.Transition

/-!
# Tasks for all the vCPUs

`kvm_cpu__run_on_all_cpus` hands a task to every vCPU under `task_lock` and
reads `task_eventfd` until as many of them have written to it.  The vCPU that
calls it runs the task in its own turn of the loop; the others run it when
they are back in the loop of `kvm_cpu__start`, where they were told to go by
a signal.  The calls come from the vCPUs themselves, out of a hypercall.

A task is named by the number of the call that it belongs to, and a step is
what one thread does between two points where others can see it.
-/

namespace Kemu.Init.CpuTasks

open Kemu.Lib.Tally
open Kemu.Lib.Transition

/-! ## Threads -/

/--
Where a vCPU thread is.  The steps of `kvm_cpu__run_task` know the turn of
the loop that they are a part of, or that `kvm_cpu__start` has called it.
-/
inductive CpuPc where
  /-- `kvm_cpu__start` looks at `cpu->task`. -/
  | loop
  /-- In the guest, or in the emulation of an exit. -/
  | guest
  /-- The function of the task is called. -/
  | func (turn : Option Nat)
  | clear (turn : Option Nat)
  /-- It writes to `task_eventfd`. -/
  | write (turn : Option Nat)
  /-- It waits for `task_lock`. -/
  | lock
  /-- A turn of the loop that hands out the task. -/
  | post (turn : Nat)
  /-- The loop that reads `task_eventfd`. -/
  | wait (done : Nat)
  | unlock
  /-- `kvm_cpu__start` has returned. -/
  | exited
deriving DecidableEq, Repr

/-- The part of `struct kvm_cpu` used here. -/
structure Cpu where
  task : Option Nat
  pc : CpuPc
deriving DecidableEq, Repr

/--
The vCPUs, `task_lock`, the count of `task_eventfd`, the number of calls that
have been finished, and how often each vCPU has run the function of each
task.  `died` says that `die` was called or a null task was run.
-/
structure Machine (nrcpus : Nat) where
  cpus : Fin nrcpus → Cpu
  owner : Option (Fin nrcpus)
  event : Nat
  calls : Nat
  runs : Fin nrcpus → Nat → Nat
  died : Bool

/-- After `kvm_cpu__init`. -/
def taskStart (nrcpus : Nat) : Machine nrcpus where
  cpus _ := { task := none, pc := .loop }
  owner := none
  event := 0
  calls := 0
  runs _ _ := 0
  died := false

/-! ## Steps -/

section Steps

variable {nrcpus : Nat}

/-- Another state of a vCPU. -/
def Machine.setCpu (machine : Machine nrcpus) (cpu : Fin nrcpus)
    (new : Cpu) : Machine nrcpus :=
  { machine with cpus := Function.update machine.cpus cpu new }

/-- A vCPU goes on elsewhere. -/
def Machine.goto (machine : Machine nrcpus) (cpu : Fin nrcpus)
    (pc : CpuPc) : Machine nrcpus :=
  machine.setCpu cpu { machine.cpus cpu with pc := pc }

/-- Where `kvm_cpu__run_task` returns to. -/
def CpuPc.return : Option Nat → CpuPc
  | none => .guest
  | some turn => .post (turn + 1)

/-- A turn of the loop that hands out the task of the call. -/
def Machine.post (machine : Machine nrcpus) (cpu other : Fin nrcpus) :
    Machine nrcpus :=
  if (machine.cpus other).task ≠ none then
    { machine with died := true }
  else
    (machine.setCpu other
      { machine.cpus other with task := some machine.calls }).goto cpu
      (if other = cpu then .func (some other) else .post (other + 1))

/-- The next step of a vCPU thread. -/
def Machine.go (machine : Machine nrcpus) (cpu : Fin nrcpus) :
    Machine nrcpus :=
  match (machine.cpus cpu).pc with
  | .loop =>
      match (machine.cpus cpu).task with
      | some _ => machine.goto cpu (.func none)
      | none => machine.goto cpu .guest
  | .guest => machine.goto cpu .loop
  | .func turn =>
      match (machine.cpus cpu).task with
      | none => { machine with died := true }
      | some task =>
          { machine.goto cpu (.clear turn) with
            runs :=
              Function.update machine.runs cpu
                (Function.update (machine.runs cpu) task
                  (machine.runs cpu task + 1)) }
  | .clear turn => machine.setCpu cpu { task := none, pc := .write turn }
  | .write turn =>
      { machine.goto cpu (.return turn) with event := machine.event + 1 }
  | .lock =>
      if machine.owner = none then
        { machine.goto cpu (.post 0) with owner := some cpu }
      else
        machine
  | .post turn =>
      if inside : turn < nrcpus then
        machine.post cpu ⟨turn, inside⟩
      else
        machine.goto cpu (.wait 0)
  | .wait done =>
      if done < nrcpus then
        if 0 < machine.event then
          { machine.goto cpu (.wait (done + machine.event)) with
            event := 0 }
        else
          machine
      else
        machine.goto cpu .unlock
  | .unlock =>
      { machine.goto cpu .guest with
        owner := none
        calls := machine.calls + 1 }
  | .exited => machine

/-- What happens next. -/
inductive Move (nrcpus : Nat) where
  /-- A vCPU thread goes on. -/
  | go (cpu : Fin nrcpus)
  /-- A vCPU calls `kvm_cpu__run_on_all_cpus` in the emulation of an exit. -/
  | call (cpu : Fin nrcpus)
  /-- `kvm_cpu__start` returns after an exit. -/
  | exit (cpu : Fin nrcpus)
deriving DecidableEq, Repr

/-- One move. -/
def taskStep (machine : Machine nrcpus) (move : Move nrcpus) :
    Machine nrcpus :=
  if machine.died then
    machine
  else
    match move with
    | .go cpu => machine.go cpu
    | .call cpu =>
        if (machine.cpus cpu).pc = .guest then
          machine.goto cpu .lock
        else
          machine
    | .exit cpu =>
        if (machine.cpus cpu).pc = .guest then
          machine.goto cpu .exited
        else
          machine

end Steps

/-! ## What is expected -/

/-- The thread is at its write. -/
def CpuPc.writing : CpuPc → Bool
  | .write _ => true
  | _ => false

/-- The function of the task has returned. -/
def CpuPc.clearing : CpuPc → Bool
  | .clear _ => true
  | _ => false

/-- The thread holds `task_lock`. -/
def CpuPc.holds : CpuPc → Bool
  | .func (some _) | .clear (some _) | .write (some _) | .post _ | .wait _
  | .unlock => true
  | .loop | .guest | .func none | .clear none | .write none | .lock
  | .exited => false

/-- The vCPU has a task, or has run it and not yet written. -/
def Cpu.owes (cpu : Cpu) : Nat :=
  if cpu.task = none ∧ cpu.pc.writing = false then 0 else 1

/-- The vCPU has a task that it has still to run. -/
def Cpu.left (cpu : Cpu) : Nat :=
  if cpu.task = none ∨ cpu.pc.clearing = true then 0 else 1

section Statements

variable {nrcpus : Nat}

/-- The protocol of the tasks. -/
structure Protocol (machine : Machine nrcpus) : Prop where
  /-- No vCPU is given a task while it has one. -/
  alive : machine.died = false
  alone :
    ∀ cpu other, (machine.cpus cpu).pc.holds = true →
      (machine.cpus other).pc.holds = true → cpu = other
  once : ∀ cpu task, machine.runs cpu task ≤ 1
  /-- Every vCPU has run the tasks of the calls that have returned. -/
  finished :
    ∀ cpu task, task < machine.calls → machine.runs cpu task = 1
  /-- A call does not return before. -/
  complete :
    ∀ caller, (machine.cpus caller).pc = .unlock →
      ∀ cpu, (machine.cpus cpu).task = none ∧
        machine.runs cpu machine.calls = 1
  /--
  While the read blocks, there is a vCPU that has still to write; it can go
  on unless it waits for the lock itself or its thread has returned.
  -/
  awaited :
    ∀ caller done, (machine.cpus caller).pc = .wait done →
      done < nrcpus → machine.event = 0 →
        ∃ cpu, (machine.cpus cpu).owes = 1 ∧
          ((machine.cpus cpu).pc = .lock ∨
            (machine.cpus cpu).pc = .exited ∨ machine.go cpu ≠ machine)

end Statements

/-! ## The invariant -/

section Invariant

variable {nrcpus : Nat}

/-- How many vCPUs the call has given its task to, and has counted. -/
def CpuPc.stage (nrcpus : Nat) : CpuPc → Nat × Nat
  | .post turn => (turn, 0)
  | .func (some turn) | .clear (some turn) | .write (some turn) =>
      (turn + 1, 0)
  | .wait done => (nrcpus, done)
  | .unlock => (nrcpus, nrcpus)
  | .func none | .clear none | .write none | .loop | .guest | .lock
  | .exited => (0, 0)

/-- The stage of the call that holds the lock. -/
def Machine.stage (machine : Machine nrcpus) : Nat × Nat :=
  match machine.owner with
  | some owner => (machine.cpus owner).pc.stage nrcpus
  | none => (0, 0)

/-- What the vCPUs owe together. -/
def Machine.outstanding (machine : Machine nrcpus) : Nat :=
  tally Cpu.owes machine.cpus

/-- The caller has had its own turn. -/
def CpuPc.served (index : Nat) : CpuPc → Bool
  | .post turn => decide (index < turn)
  | .wait _ => true
  | _ => false

/-- What is always so of a vCPU while a number of calls have returned. -/
structure Cpu.Sound (calls : Nat) (cpu : Cpu) (index : Nat) : Prop where
  current : ∀ task, cpu.task = some task → task = calls
  running :
    ∀ turn, cpu.pc = .func turn ∨ cpu.pc = .clear turn → cpu.task ≠ none
  done : cpu.pc.writing = true → cpu.task = none
  turn :
    ∀ turn,
      cpu.pc = .func (some turn) ∨ cpu.pc = .clear (some turn) ∨
        cpu.pc = .write (some turn) → turn = index
  served : cpu.pc.served index = true → cpu.task = none

/-- The call has reached a stage. -/
structure Machine.Handing (machine : Machine nrcpus)
    (stage : Nat × Nat) : Prop where
  bound : stage.1 ≤ nrcpus
  total : stage.2 + machine.event + machine.outstanding = stage.1
  before :
    ∀ cpu : Fin nrcpus, stage.1 ≤ cpu.val →
      (machine.cpus cpu).owes = 0 ∧ machine.runs cpu machine.calls = 0
  after :
    ∀ cpu : Fin nrcpus, cpu.val < stage.1 →
      machine.runs cpu machine.calls + (machine.cpus cpu).left = 1

/-- The invariant of the protocol. -/
structure Sound (machine : Machine nrcpus) : Prop where
  alive : machine.died = false
  each : ∀ cpu, (machine.cpus cpu).Sound machine.calls cpu
  owner :
    ∀ cpu, machine.owner = some cpu ↔ (machine.cpus cpu).pc.holds = true
  past : ∀ cpu task, task < machine.calls → machine.runs cpu task = 1
  future : ∀ cpu task, machine.calls < task → machine.runs cpu task = 0
  handing : machine.Handing machine.stage

theorem left_le_owes (cpu : Cpu) : cpu.left ≤ cpu.owes := by
  unfold Cpu.left Cpu.owes
  grind

theorem holds_of_served {index : Nat} {pc : CpuPc}
    (served : pc.served index = true) : pc.holds = true := by
  cases pc <;> first | rfl | cases served

theorem task_of_owes_zero {cpu : Cpu} (nothing : cpu.owes = 0) :
    cpu.task = none ∧ cpu.pc.writing = false := by
  unfold Cpu.owes at nothing
  simpa using nothing

variable {machine : Machine nrcpus}

theorem cpus_setCpu (cpu : Fin nrcpus) (new : Cpu) (other : Fin nrcpus) :
    (machine.setCpu cpu new).cpus other =
      if other = cpu then new else machine.cpus other :=
  Function.update_apply ..

theorem goto_pc (machine : Machine nrcpus) (cpu : Fin nrcpus) (pc : CpuPc) :
    ((machine.goto cpu pc).cpus cpu).pc = pc := by
  unfold Machine.goto
  rw [cpus_setCpu, if_pos rfl]

theorem stage_of_owner {cpu : Fin nrcpus}
    (owned : machine.owner = some cpu) :
    machine.stage = (machine.cpus cpu).pc.stage nrcpus := by
  unfold Machine.stage
  rw [owned]

/-- One vCPU owes something else. -/
theorem outstanding_setCpu (machine : Machine nrcpus) (cpu : Fin nrcpus)
    (new : Cpu) :
    (machine.setCpu cpu new).outstanding + (machine.cpus cpu).owes =
      machine.outstanding + new.owes :=
  tally_update Cpu.owes machine.cpus cpu new

/-- Nobody owes anything once the counts agree. -/
theorem Machine.Handing.settled (handing : machine.Handing (nrcpus, nrcpus)) :
    machine.event = 0 ∧ ∀ cpu, (machine.cpus cpu).owes = 0 := by
  have total := handing.total
  dsimp only at total
  exact ⟨by omega, weight_of_tally_zero (by unfold outstanding at total; omega)⟩

/--
A vCPU changes and no other: what it still owes goes to the event, and what
it still has to run goes to its runs.
-/
theorem Machine.Handing.change {after : Machine nrcpus}
    {stage : Nat × Nat} {cpu : Fin nrcpus} {new : Cpu}
    (handing : machine.Handing stage)
    (cpus : after.cpus = (machine.setCpu cpu new).cpus)
    (calls : after.calls = machine.calls)
    (owed :
      after.event + new.owes = machine.event + (machine.cpus cpu).owes)
    (less : new.owes ≤ (machine.cpus cpu).owes)
    (others :
      ∀ other, other ≠ cpu →
        after.runs other machine.calls = machine.runs other machine.calls)
    (ran :
      after.runs cpu machine.calls + new.left =
        machine.runs cpu machine.calls + (machine.cpus cpu).left) :
    after.Handing stage := by
  have sum := outstanding_setCpu machine cpu new
  have outstanding :
      after.outstanding = (machine.setCpu cpu new).outstanding := by
    unfold Machine.outstanding
    rw [cpus]
  have total := handing.total
  refine ⟨handing.bound, by omega, ?_, ?_⟩
  · intro other beyond
    have none' := handing.before other beyond
    rw [cpus, cpus_setCpu, calls]
    split
    next here =>
      rw [here] at none' ⊢
      have left := left_le_owes (machine.cpus cpu)
      exact ⟨by omega, by omega⟩
    next differs =>
      rw [others other differs]
      exact none'
  · intro other below
    have one := handing.after other below
    rw [cpus, cpus_setCpu, calls]
    split
    next here =>
      rw [here] at one ⊢
      omega
    next differs =>
      rw [others other differs]
      exact one

/-- A vCPU goes to a place where it owes the same. -/
theorem Machine.Handing.move {after : Machine nrcpus} {stage : Nat × Nat}
    {cpu : Fin nrcpus} {pc : CpuPc} (handing : machine.Handing stage)
    (cpus : after.cpus = (machine.goto cpu pc).cpus)
    (calls : after.calls = machine.calls)
    (event : after.event = machine.event) (runs : after.runs = machine.runs)
    (writing : pc.writing = (machine.cpus cpu).pc.writing)
    (clearing : pc.clearing = (machine.cpus cpu).pc.clearing) :
    after.Handing stage := by
  have owes :
      { machine.cpus cpu with pc := pc }.owes = (machine.cpus cpu).owes := by
    unfold Cpu.owes
    rw [← writing]
  have left :
      { machine.cpus cpu with pc := pc }.left = (machine.cpus cpu).left := by
    unfold Cpu.left
    rw [← clearing]
  exact
    handing.change cpus calls (by rw [owes, event]) (Nat.le_of_eq owes)
      (fun _ _ => by rw [runs]) (by rw [left, runs])

/-- The stage does not change when the thread that holds the lock is there. -/
theorem stage_congr {after : Machine nrcpus} {cpu : Fin nrcpus} {new : Cpu}
    (cpus : after.cpus = (machine.setCpu cpu new).cpus)
    (owner : after.owner = machine.owner)
    (same :
      machine.owner = some cpu →
        new.pc.stage nrcpus = (machine.cpus cpu).pc.stage nrcpus) :
    after.stage = machine.stage := by
  unfold Machine.stage
  rw [owner]
  cases held : machine.owner with
  | none => rfl
  | some other =>
      dsimp only
      rw [cpus, cpus_setCpu]
      split
      next here =>
        rw [here] at held ⊢
        exact same held
      next => rfl

/-- The step of a vCPU thread that leaves the lock alone. -/
theorem Sound.change {after : Machine nrcpus} {cpu : Fin nrcpus}
    {new : Cpu} (sound : Sound machine)
    (alive : after.died = false)
    (cpus : after.cpus = (machine.setCpu cpu new).cpus)
    (owner : after.owner = machine.owner)
    (calls : after.calls = machine.calls)
    (each : new.Sound machine.calls cpu)
    (holds : new.pc.holds = (machine.cpus cpu).pc.holds)
    (others : ∀ other, other ≠ cpu → after.runs other = machine.runs other)
    (own :
      ∀ task, task ≠ machine.calls →
        after.runs cpu task = machine.runs cpu task)
    (handing : after.Handing after.stage) : Sound after := by
  have kept {task : Nat} (differs : task ≠ machine.calls)
      (other : Fin nrcpus) :
      after.runs other task = machine.runs other task := by
    by_cases here : other = cpu
    · rw [here]
      exact own task differs
    · rw [others other here]
  refine ⟨alive, ?_, ?_, ?_, ?_, handing⟩
  · intro other
    rw [cpus, cpus_setCpu, calls]
    split
    next here =>
      rw [here]
      exact each
    next => exact sound.each other
  · intro other
    rw [cpus, cpus_setCpu, owner, sound.owner]
    split
    next here => rw [here, holds]
    next => exact Iff.rfl
  · intro other task past
    rw [calls] at past
    rw [kept (Nat.ne_of_lt past)]
    exact sound.past other task past
  · intro other task future
    rw [calls] at future
    rw [kept (Nat.ne_of_gt future)]
    exact sound.future other task future

/-- A vCPU thread goes to a place where it owes and holds the same. -/
theorem Sound.goto (sound : Sound machine) {cpu : Fin nrcpus}
    {before pc : CpuPc} (here : (machine.cpus cpu).pc = before)
    (holds : pc.holds = before.holds)
    (stage : pc.stage nrcpus = before.stage nrcpus)
    (writing : pc.writing = before.writing)
    (clearing : pc.clearing = before.clearing)
    (running :
      ∀ turn, pc = .func turn ∨ pc = .clear turn →
        (machine.cpus cpu).task ≠ none)
    (turn :
      ∀ turn, pc = .func (some turn) ∨ pc = .clear (some turn) ∨
        pc = .write (some turn) → turn = cpu)
    (served : pc.served cpu = true → (machine.cpus cpu).task = none) :
    Sound (machine.goto cpu pc) := by
  subst here
  have each := sound.each cpu
  have same : (machine.goto cpu pc).stage = machine.stage :=
    stage_congr rfl rfl fun _ => stage
  refine
    sound.change sound.alive rfl rfl rfl
      ⟨each.current, running, ?_, turn, served⟩ holds (fun _ _ => rfl)
      (fun _ _ => rfl) ?_
  · rw [writing]
    exact each.done
  · rw [same]
    exact sound.handing.move rfl rfl rfl rfl writing clearing

/-! ## Steps -/

/-- The function of the task returns. -/
theorem Sound.func (sound : Sound machine) {cpu : Fin nrcpus}
    {turn : Option Nat} {task : Nat}
    (pc : (machine.cpus cpu).pc = .func turn)
    (has : (machine.cpus cpu).task = some task) :
    Sound
      { machine.goto cpu (.clear turn) with
        runs :=
          Function.update machine.runs cpu
            (Function.update (machine.runs cpu) task
              (machine.runs cpu task + 1)) } := by
  have each := sound.each cpu
  have current := each.current task has
  subst current
  have owes :
      { machine.cpus cpu with pc := .clear turn }.owes =
        (machine.cpus cpu).owes := by
    unfold Cpu.owes
    simp [has]
  have left : (machine.cpus cpu).left = 1 := by
    unfold Cpu.left
    simp [has, pc, CpuPc.clearing]
  have left' : { machine.cpus cpu with pc := .clear turn }.left = 0 := by
    unfold Cpu.left
    simp [CpuPc.clearing]
  have same (runs) :
      ({ machine.goto cpu (.clear turn) with runs := runs } :
        Machine nrcpus).stage = machine.stage := by
    refine stage_congr rfl rfl fun _ => ?_
    rw [pc]
    cases turn <;> rfl
  refine
    sound.change sound.alive rfl rfl rfl
      ⟨each.current, ?_, nofun, ?_, nofun⟩ ?_ ?_ ?_ ?_
  · intro _ _
    rw [has]
    exact nofun
  · intro index place
    apply each.turn
    rw [pc]
    grind
  · rw [pc]
    cases turn <;> rfl
  · intro other differs
    exact Function.update_of_ne differs ..
  · intro task differs
    dsimp only
    rw [Function.update_self]
    exact Function.update_of_ne differs ..
  · rw [same]
    refine
      sound.handing.change rfl rfl (by rw [owes]; rfl) (Nat.le_of_eq owes)
        ?_ ?_
    · intro other differs
      dsimp only
      rw [Function.update_of_ne differs]
    · dsimp only
      rw [Function.update_self, Function.update_self, left, left']

/-- The task is cleared. -/
theorem Sound.clear (sound : Sound machine) {cpu : Fin nrcpus}
    {turn : Option Nat} (pc : (machine.cpus cpu).pc = .clear turn) :
    Sound (machine.setCpu cpu { task := none, pc := .write turn }) := by
  have each := sound.each cpu
  have has := each.running turn (Or.inr pc)
  have owes : (machine.cpus cpu).owes = 1 := by
    unfold Cpu.owes
    simp [has]
  have left : (machine.cpus cpu).left = 0 := by
    unfold Cpu.left
    simp [pc, CpuPc.clearing]
  have same :
      (machine.setCpu cpu { task := none, pc := .write turn }).stage =
        machine.stage := by
    refine stage_congr rfl rfl fun _ => ?_
    rw [pc]
    cases turn <;> rfl
  refine
    sound.change sound.alive rfl rfl rfl
      ⟨nofun, ?_, fun _ => rfl, ?_, nofun⟩ ?_ (fun _ _ => rfl) (fun _ _ => rfl) ?_
  · rintro _ (place | place) <;> cases place
  · intro index place
    apply each.turn
    rw [pc]
    grind
  · rw [pc]
    cases turn <;> rfl
  · rw [same]
    exact
      sound.handing.change rfl rfl (by rw [owes]; rfl)
        (by rw [owes]; exact Nat.le_refl 1) (fun _ _ => rfl)
        (by rw [left]; rfl)

/-- The vCPU writes that it has run the task. -/
theorem Sound.write (sound : Sound machine) {cpu : Fin nrcpus}
    {turn : Option Nat} (pc : (machine.cpus cpu).pc = .write turn) :
    Sound
      { machine.goto cpu (.return turn) with
        event := machine.event + 1 } := by
  have each := sound.each cpu
  have task : (machine.cpus cpu).task = none := by
    apply each.done
    rw [pc]
    rfl
  have owes : (machine.cpus cpu).owes = 1 := by
    unfold Cpu.owes
    simp [pc, CpuPc.writing]
  have returned : (CpuPc.return turn).writing = false := by
    cases turn <;> rfl
  have owes' : { machine.cpus cpu with pc := .return turn }.owes = 0 := by
    unfold Cpu.owes
    simp [task, returned]
  have left : (machine.cpus cpu).left = 0 := by
    unfold Cpu.left
    simp [task]
  have left' : { machine.cpus cpu with pc := .return turn }.left = 0 := by
    unfold Cpu.left
    simp [task]
  have same (event : Nat) :
      ({ machine.goto cpu (.return turn) with event := event } :
        Machine nrcpus).stage = machine.stage := by
    refine stage_congr rfl rfl fun _ => ?_
    rw [pc]
    cases turn <;> rfl
  refine
    sound.change sound.alive rfl rfl rfl
      ⟨each.current, ?_, fun _ => task, ?_, fun _ => task⟩ ?_ (fun _ _ => rfl) (fun _ _ => rfl) ?_
  · intro other place
    cases turn <;> simp [CpuPc.return] at place
  · intro other place
    cases turn <;> simp [CpuPc.return] at place
  · rw [pc]
    cases turn <;> rfl
  · rw [same]
    exact
      sound.handing.change rfl rfl (by rw [owes', owes])
        (by rw [owes']; exact Nat.zero_le _) (fun _ _ => rfl)
        (by rw [left', left]; rfl)

/-- The thread that holds the lock, and what is known of its call. -/
theorem Sound.held (sound : Sound machine) (cpu : Fin nrcpus)
    (holds : (machine.cpus cpu).pc.holds = true) :
    machine.owner = some cpu ∧
      machine.Handing ((machine.cpus cpu).pc.stage nrcpus) := by
  have owned := (sound.owner cpu).2 holds
  exact ⟨owned, stage_of_owner owned ▸ sound.handing⟩

theorem Sound.takeLock (sound : Sound machine) {cpu : Fin nrcpus}
    (pc : (machine.cpus cpu).pc = .lock) (free : machine.owner = none) :
    Sound { machine.goto cpu (.post 0) with owner := some cpu } := by
  have each := sound.each cpu
  have handing := sound.handing
  unfold Machine.stage at handing
  rw [free] at handing
  refine ⟨sound.alive, ?_, ?_, sound.past, sound.future, ?_⟩
  · intro other
    change ((machine.goto cpu (.post 0)).cpus other).Sound machine.calls other
    unfold Machine.goto
    rw [cpus_setCpu]
    split
    next here =>
      rw [here]
      exact
        ⟨each.current, by simp, by simp [CpuPc.writing], by simp,
          by simp [CpuPc.served]⟩
    next => exact sound.each other
  · intro other
    change
      some cpu = some other ↔
        ((machine.goto cpu (.post 0)).cpus other).pc.holds = true
    unfold Machine.goto
    rw [cpus_setCpu]
    split
    next here => exact iff_of_true (by rw [here]) rfl
    next differs =>
      rw [← sound.owner other, free]
      simp [Ne.symm differs]
  · have stage :
        ({ machine.goto cpu (.post 0) with owner := some cpu } :
          Machine nrcpus).stage = (0, 0) :=
      (stage_of_owner rfl).trans
        (congrArg (CpuPc.stage nrcpus) (goto_pc machine cpu _))
    rw [stage]
    exact handing.move rfl rfl rfl rfl (by rw [pc]; rfl) (by rw [pc]; rfl)

theorem Sound.releaseLock (sound : Sound machine) {cpu : Fin nrcpus}
    (pc : (machine.cpus cpu).pc = .unlock) :
    Sound
      { machine.goto cpu .guest with
        owner := none
        calls := machine.calls + 1 } := by
  have ⟨owned, handing⟩ := sound.held cpu (by rw [pc]; rfl)
  rw [pc] at handing
  have ⟨event, settled⟩ := Machine.Handing.settled handing
  have idle (other : Fin nrcpus) : (machine.cpus other).task = none :=
    (task_of_owes_zero (settled other)).1
  have ran (other : Fin nrcpus) : machine.runs other machine.calls = 1 := by
    have one := handing.after other other.isLt
    have bound := left_le_owes (machine.cpus other)
    rw [settled other] at bound
    omega
  have cpus (other : Fin nrcpus) :
      ((machine.goto cpu .guest).cpus other).task = none ∧
        ((machine.goto cpu .guest).cpus other).pc.writing = false ∧
        ((machine.goto cpu .guest).cpus other).pc.holds = false ∧
        ∀ calls, ((machine.goto cpu .guest).cpus other).Sound calls other := by
    unfold Machine.goto
    rw [cpus_setCpu]
    split
    next => exact ⟨idle cpu, rfl, rfl, fun _ =>
      ⟨by simp [idle cpu], by simp, by simp [CpuPc.writing], by simp,
        fun _ => idle cpu⟩⟩
    next differs =>
      have each := sound.each other
      have outside : (machine.cpus other).pc.holds = false := by
        rw [← Bool.not_eq_true, ← sound.owner other, owned]
        simp [Ne.symm differs]
      exact
        ⟨idle other, (task_of_owes_zero (settled other)).2, outside,
          fun _ =>
            ⟨by simp [idle other], each.running, each.done, each.turn,
              each.served⟩⟩
  have nothing (other : Fin nrcpus) :
      ((machine.goto cpu .guest).cpus other).owes = 0 := by
    unfold Cpu.owes
    simp [(cpus other).1, (cpus other).2.1]
  refine ⟨sound.alive, fun other => (cpus other).2.2.2 _, ?_, ?_, ?_, ?_⟩
  · intro other
    have outside := (cpus other).2.2.1
    exact iff_of_false nofun (by simpa using outside)
  · intro other task past
    by_cases last : task = machine.calls
    · rw [last]
      exact ran other
    · exact
        sound.past other task
          (Nat.lt_of_le_of_ne (Nat.le_of_lt_succ past) last)
  · intro other task future
    exact sound.future other task (Nat.lt_of_succ_lt future)
  · refine ⟨Nat.zero_le _, ?_, ?_, nofun⟩
    · change 0 + machine.event + (machine.goto cpu .guest).outstanding = 0
      rw [event, Nat.add_zero, Nat.zero_add]
      exact tally_eq_zero nothing
    · intro other _
      exact
        ⟨nothing other,
          sound.future other (machine.calls + 1) (Nat.lt_succ_self _)⟩

/-- A vCPU is given the task of the call. -/
theorem Machine.Handing.give {other : Fin nrcpus}
    (handing : machine.Handing (other, 0))
    (ready : (machine.cpus other).pc.clearing = false) :
    (machine.setCpu other
      { machine.cpus other with task := some machine.calls }).Handing
      (other + 1, 0) := by
  have ⟨owes, runs⟩ := handing.before other (Nat.le_refl _)
  have ⟨task, writing⟩ := task_of_owes_zero owes
  have sum :=
    outstanding_setCpu machine other
      { machine.cpus other with task := some machine.calls }
  have total := handing.total
  have owed :
      { machine.cpus other with task := some machine.calls }.owes = 1 := by
    unfold Cpu.owes
    simp
  refine ⟨other.isLt, ?_, ?_, ?_⟩
  · rw [owes, owed, Nat.add_zero] at sum
    have events :
        (machine.setCpu other
          { machine.cpus other with task := some machine.calls }).event =
            machine.event :=
      rfl
    dsimp only at total ⊢
    rw [sum, events]
    omega
  · intro cpu beyond
    have above : cpu ≠ other := by
      intro same
      rw [same] at beyond
      exact Nat.not_succ_le_self _ beyond
    rw [cpus_setCpu, if_neg above]
    exact handing.before cpu (Nat.le_of_succ_le beyond)
  · intro cpu below
    rw [cpus_setCpu]
    split
    next here =>
      rw [here]
      change machine.runs other machine.calls + _ = 1
      rw [runs]
      unfold Cpu.left
      simp [ready]
    next differs =>
      have apart := Fin.val_ne_of_ne differs
      dsimp only at below
      exact handing.after cpu (by dsimp only; omega)

/-- The next place of the thread that has given the task to a vCPU. -/
theorem post_place {cpu other : Fin nrcpus} {place : CpuPc}
    (next :
      (if other = cpu then CpuPc.func (some other.val)
        else CpuPc.post (other + 1)) = place) :
    place.holds = true ∧ place.stage nrcpus = (other.val + 1, 0) ∧
      place.writing = false ∧ place.clearing = false ∧
      (∀ turn, place = .func turn ∨ place = .clear turn → other = cpu) ∧
      (∀ turn, place = .func (some turn) ∨ place = .clear (some turn) ∨
        place = .write (some turn) → turn = cpu) ∧
      (place.served cpu = true →
        other ≠ cpu ∧ (CpuPc.post other).served cpu = true) := by
  rw [← next]
  split
  next same =>
    rw [same]
    exact
      ⟨rfl, rfl, rfl, rfl, fun _ _ => rfl, fun turn => by simp [eq_comm],
        nofun⟩
  next differs =>
    refine ⟨rfl, rfl, rfl, rfl, by simp, by simp, fun served => ?_⟩
    have apart := Fin.val_ne_of_ne differs
    have below : cpu.val < other.val + 1 := by
      simpa [CpuPc.served] using served
    refine ⟨differs, ?_⟩
    simp only [CpuPc.served, decide_eq_true_eq]
    omega

theorem Sound.post (sound : Sound machine) {cpu other : Fin nrcpus}
    (pc : (machine.cpus cpu).pc = .post other) :
    Sound (machine.post cpu other) := by
  have ⟨owned, handing⟩ := sound.held cpu (by rw [pc]; rfl)
  rw [pc] at handing
  have handing : machine.Handing (other, 0) := handing
  have ⟨owes, _⟩ := handing.before other (Nat.le_refl _)
  have ⟨idle, writing⟩ := task_of_owes_zero owes
  have each := sound.each other
  have ready : (machine.cpus other).pc.clearing = false := by
    cases place : (machine.cpus other).pc with
    | clear turn => exact absurd idle (each.running turn (Or.inr place))
    | _ => rfl
  have given := handing.give ready
  unfold Machine.post
  rw [if_neg (by rw [idle]; exact not_not.2 rfl)]
  generalize next :
    (if other = cpu then CpuPc.func (some other.val)
      else CpuPc.post (other + 1)) = place
  have ⟨holds, stage, writing', clearing, func, turn, served⟩ :=
    post_place next
  generalize middle :
    machine.setCpu other
      { machine.cpus other with task := some machine.calls } = gave
  rw [middle] at given
  have cpus (x : Fin nrcpus) :
      gave.cpus x =
        if x = other then
          { machine.cpus other with task := some machine.calls }
        else
          machine.cpus x := by
    rw [← middle, cpus_setCpu]
  have pcs (x : Fin nrcpus) : (gave.cpus x).pc = (machine.cpus x).pc := by
    rw [cpus]
    split
    next here => rw [here]
    next => rfl
  have currentGiven (x : Fin nrcpus) (task : Nat)
      (has : (gave.cpus x).task = some task) : task = machine.calls := by
    rw [cpus] at has
    split at has
    next =>
      cases has
      rfl
    next => exact (sound.each x).current task has
  have eachGiven (x : Fin nrcpus) (apart : x ≠ cpu) :
      (gave.cpus x).Sound machine.calls x := by
    rw [cpus]
    split
    next here =>
      rw [here]
      refine
        ⟨by simp, fun _ _ => nofun, fun written => by simp [writing] at written,
          each.turn, fun served => ?_⟩
      have other' := (sound.owner other).2 (holds_of_served served)
      rw [owned] at other'
      cases other'
      exact absurd here apart
    next => exact sound.each x
  have owner : gave.owner = machine.owner := by rw [← middle]; rfl
  have calls : gave.calls = machine.calls := by rw [← middle]; rfl
  have runs : gave.runs = machine.runs := by rw [← middle]; rfl
  have alive : gave.died = machine.died := by rw [← middle]; rfl
  refine ⟨alive.trans sound.alive, ?_, ?_, ?_, ?_, ?_⟩
  · intro x
    unfold Machine.goto
    rw [cpus_setCpu]
    change Cpu.Sound gave.calls _ _
    rw [calls]
    split
    next here =>
      rw [here]
      refine
        ⟨currentGiven cpu, ?_, by simp [writing'], turn, fun done => ?_⟩
      · intro index called
        have same := func index called
        rw [cpus, if_pos same.symm]
        exact nofun
      · have ⟨differs, before⟩ := served done
        rw [← pc] at before
        rw [cpus, if_neg (Ne.symm differs)]
        exact (sound.each cpu).served before
    next apart => exact eachGiven x apart
  · intro x
    change gave.owner = _ ↔ _
    unfold Machine.goto
    rw [owner, cpus_setCpu]
    split
    next here => exact iff_of_true (by rw [here, owned]) holds
    next => rw [pcs, sound.owner]
  · intro x task
    change task < gave.calls → gave.runs x task = 1
    rw [calls, runs]
    exact sound.past x task
  · intro x task
    change gave.calls < task → gave.runs x task = 0
    rw [calls, runs]
    exact sound.future x task
  · have held : (gave.goto cpu place).owner = some cpu := owner.trans owned
    rw [stage_of_owner held, goto_pc, stage]
    exact
      given.move rfl rfl rfl rfl (by rw [writing', pcs, pc]; rfl)
        (by rw [clearing, pcs, pc]; rfl)

/-- The caller counts what was written. -/
theorem Sound.collect (sound : Sound machine) {cpu : Fin nrcpus}
    {done : Nat} (pc : (machine.cpus cpu).pc = .wait done) :
    Sound
      { machine.goto cpu (.wait (done + machine.event)) with
        event := 0 } := by
  have each := sound.each cpu
  have ⟨owned, handing⟩ := sound.held cpu (by rw [pc]; rfl)
  rw [pc] at handing
  refine
    sound.change sound.alive rfl rfl rfl
      ⟨each.current, by simp, by simp [CpuPc.writing], by simp,
        fun _ => each.served (by rw [pc]; rfl)⟩
      (by rw [pc]; rfl) (fun _ _ => rfl) (fun _ _ => rfl) ?_
  have stage :
      ({ machine.goto cpu (.wait (done + machine.event)) with event := 0 } :
        Machine nrcpus).stage = (nrcpus, done + machine.event) := by
    refine
      (stage_of_owner ?_).trans
        (congrArg (CpuPc.stage nrcpus) (goto_pc machine cpu _))
    exact owned
  have moved :
      (machine.goto cpu (.wait (done + machine.event))).Handing
        (nrcpus, done) :=
    handing.move rfl rfl rfl rfl (by rw [pc]; rfl) (by rw [pc]; rfl)
  have total := moved.total
  rw [stage]
  exact ⟨moved.bound, total, moved.before, moved.after⟩

theorem Sound.go (sound : Sound machine) (cpu : Fin nrcpus) :
    Sound (machine.go cpu) := by
  have each := sound.each cpu
  unfold Machine.go
  cases pc : (machine.cpus cpu).pc with
  | loop =>
      dsimp only
      cases task : (machine.cpus cpu).task with
      | none =>
          exact sound.goto pc rfl rfl rfl rfl (by simp) (by simp) nofun
      | some number =>
          exact
            sound.goto pc rfl rfl rfl rfl (by simp [task]) (by simp) nofun
  | guest =>
      exact sound.goto pc rfl rfl rfl rfl (by simp) (by simp) nofun
  | func turn =>
      cases task : (machine.cpus cpu).task with
      | none => exact absurd task (each.running turn (Or.inl pc))
      | some task' => exact sound.func pc task
  | clear turn => exact sound.clear pc
  | write turn => exact sound.write pc
  | lock =>
      dsimp only
      split
      next free => exact sound.takeLock pc free
      next => exact sound
  | post turn =>
      dsimp only
      split
      next inside =>
        have here : (machine.cpus cpu).pc = .post (⟨turn, inside⟩ : Fin nrcpus) :=
          pc
        exact sound.post here
      next beyond =>
        have ⟨_, handing⟩ := sound.held cpu (by rw [pc]; rfl)
        rw [pc] at handing
        have bound : turn ≤ nrcpus := handing.bound
        have all : turn = nrcpus := by omega
        rw [all] at pc
        have served : (machine.cpus cpu).pc.served cpu = true := by
          rw [pc]
          exact decide_eq_true cpu.isLt
        exact
          sound.goto pc rfl rfl rfl rfl (by simp) (by simp)
            fun _ => each.served served
  | wait done =>
      dsimp only
      split
      · split
        · exact sound.collect pc
        · exact sound
      next complete =>
        have ⟨_, handing⟩ := sound.held cpu (by rw [pc]; rfl)
        rw [pc] at handing
        have total := handing.total
        have all : done = nrcpus := by
          dsimp only [CpuPc.stage] at total
          omega
        rw [all] at pc
        exact sound.goto pc rfl rfl rfl rfl (by simp) (by simp) nofun
  | unlock => exact sound.releaseLock pc
  | exited => exact sound

theorem Sound.step (sound : Sound machine) (move : Move nrcpus) :
    Sound (taskStep machine move) := by
  unfold taskStep
  split
  · exact sound
  cases move with
  | go cpu => exact sound.go cpu
  | call cpu =>
      dsimp only
      split
      next pc =>
        exact sound.goto pc rfl rfl rfl rfl (by simp) (by simp) nofun
      next => exact sound
  | exit cpu =>
      dsimp only
      split
      next pc =>
        exact sound.goto pc rfl rfl rfl rfl (by simp) (by simp) nofun
      next => exact sound

theorem Sound.start : Sound (taskStart nrcpus) where
  alive := rfl
  each _ :=
    ⟨nofun, by simp [taskStart], fun _ => rfl, by simp [taskStart],
      fun _ => rfl⟩
  owner _ := iff_of_false nofun nofun
  past _ _ past := absurd past (Nat.not_lt_zero _)
  future _ _ _ := rfl
  handing :=
    ⟨Nat.zero_le _,
      (Nat.zero_add _).trans (tally_eq_zero fun _ => rfl),
      fun _ _ => ⟨rfl, rfl⟩, nofun⟩

/-! ## Runs -/

/-- A vCPU thread that moves elsewhere changes the machine. -/
theorem moved {after : Machine nrcpus} {cpu : Fin nrcpus}
    (pc : (after.cpus cpu).pc ≠ (machine.cpus cpu).pc) :
    after ≠ machine := by
  intro same
  rw [same] at pc
  exact pc rfl

/-- A vCPU that neither waits nor calls can go on. -/
theorem Sound.goes (sound : Sound machine) {cpu : Fin nrcpus}
    (outside : (machine.cpus cpu).pc.holds = false)
    (notLock : (machine.cpus cpu).pc ≠ .lock)
    (notExited : (machine.cpus cpu).pc ≠ .exited) :
    machine.go cpu ≠ machine := by
  have each := sound.each cpu
  unfold Machine.go
  cases pc : (machine.cpus cpu).pc with
  | loop =>
      dsimp only
      cases (machine.cpus cpu).task <;> apply moved <;>
        · rw [goto_pc, pc]
          exact nofun
  | guest =>
      apply moved
      rw [goto_pc, pc]
      exact nofun
  | func turn =>
      cases task : (machine.cpus cpu).task with
      | none => exact absurd task (each.running turn (Or.inl pc))
      | some number =>
          apply moved
          change ((machine.setCpu cpu _).cpus cpu).pc ≠ _
          rw [cpus_setCpu, if_pos rfl, pc]
          exact nofun
  | clear turn =>
      apply moved
      rw [cpus_setCpu, if_pos rfl, pc]
      exact nofun
  | write turn =>
      apply moved
      change ((machine.setCpu cpu _).cpus cpu).pc ≠ _
      rw [cpus_setCpu, if_pos rfl, pc]
      cases turn <;> exact nofun
  | lock => exact absurd pc notLock
  | exited => exact absurd pc notExited
  | post turn | wait done | unlock =>
      rw [pc] at outside
      cases outside

theorem Sound.protocol (sound : Sound machine) : Protocol machine where
  alive := sound.alive
  alone cpu other holds holds' := by
    have owned := (sound.owner cpu).2 holds
    rw [(sound.owner other).2 holds'] at owned
    cases owned
    rfl
  once cpu task := by
    rcases Nat.lt_trichotomy task machine.calls with past | same | future
    · exact Nat.le_of_eq (sound.past cpu task past)
    · rw [same]
      have handing := sound.handing
      by_cases below : cpu.val < machine.stage.1
      · have one := handing.after cpu below
        omega
      · have none' := handing.before cpu (Nat.le_of_not_lt below)
        omega
    · rw [sound.future cpu task future]
      exact Nat.zero_le 1
  finished := sound.past
  complete caller pc cpu := by
    have ⟨_, handing⟩ := sound.held caller (by rw [pc]; rfl)
    rw [pc] at handing
    have ⟨_, settled⟩ := Machine.Handing.settled handing
    have one := handing.after cpu cpu.isLt
    have bound := left_le_owes (machine.cpus cpu)
    rw [settled cpu] at bound
    exact ⟨(task_of_owes_zero (settled cpu)).1, by omega⟩
  awaited caller done pc fewer event := by
    have ⟨owned, handing⟩ := sound.held caller (by rw [pc]; rfl)
    rw [pc] at handing
    have total := handing.total
    have positive : 0 < machine.outstanding := by
      dsimp only [CpuPc.stage] at total
      omega
    obtain ⟨cpu, something⟩ := exists_of_tally_pos positive
    have owes : (machine.cpus cpu).owes = 1 := by
      unfold Cpu.owes at something ⊢
      split at something
      · cases something
      · rw [if_neg (by assumption)]
    refine ⟨cpu, owes, ?_⟩
    by_cases notLock : (machine.cpus cpu).pc = .lock
    · exact Or.inl notLock
    by_cases notExited : (machine.cpus cpu).pc = .exited
    · exact Or.inr (Or.inl notExited)
    refine Or.inr (Or.inr (sound.goes ?_ notLock notExited))
    rw [← Bool.not_eq_true, ← sound.owner cpu, owned]
    intro same
    cases same
    -- the caller has run its own task before it reads
    have task := (sound.each caller).served (by rw [pc]; rfl)
    unfold Cpu.owes at owes
    simp [task, pc, CpuPc.writing] at owes

/--
Every vCPU runs the task of every call exactly once before the call returns,
in every interleaving of the calls.
-/
theorem tasks_run_once (nrcpus : Nat) (moves : List (Move nrcpus)) :
    Throughout taskStep Protocol (taskStart nrcpus) moves :=
  throughout_of_step (fun _ sound => sound.protocol)
    (fun _ move sound => sound.step move) Sound.start moves

/-- Two vCPUs have run the task of a call, and the call has returned. -/
example :
    let moves : List (Move 2) :=
      [.go 0, .go 1, .call 0] ++
        [.go 0, .go 0, .go 0, .go 0, .go 0, .go 0, .go 0] ++
        [.go 1, .go 1, .go 1, .go 1, .go 1] ++ [.go 0, .go 0, .go 0]
    let machine := run taskStep (taskStart 2) moves
    machine.calls = 1 ∧ machine.runs 0 0 = 1 ∧ machine.runs 1 0 = 1 := by
  decide

/-! ## Crossing calls -/

/--
A vCPU whose task is still to run waits for the lock of a call of its own, or
has left the loop.
-/
def Machine.Crossed (machine : Machine nrcpus) (cpu : Fin nrcpus) : Prop :=
  (machine.cpus cpu).task ≠ none ∧
    ((machine.cpus cpu).pc = .lock ∨ (machine.cpus cpu).pc = .exited)

/-- The lock is held, and not by the vCPU, and not at the end of the call. -/
theorem Sound.crossed_owner (sound : Sound machine) {cpu : Fin nrcpus}
    (crossed : machine.Crossed cpu) :
    ∃ caller, machine.owner = some caller ∧ caller ≠ cpu ∧
      (machine.cpus caller).pc ≠ .unlock := by
  have ⟨task, place⟩ := crossed
  have owes : (machine.cpus cpu).owes = 1 := by
    unfold Cpu.owes
    simp [task]
  have some' : machine.stage.1 ≠ 0 := by
    intro zero
    have none' := sound.handing.before cpu (by rw [zero]; exact Nat.zero_le _)
    rw [owes] at none'
    cases none'.1
  cases owned : machine.owner with
  | none =>
      unfold Machine.stage at some'
      rw [owned] at some'
      exact absurd rfl some'
  | some caller =>
      have holds := (sound.owner caller).1 owned
      refine ⟨caller, rfl, ?_, ?_⟩
      · intro same
        rw [same] at holds
        rcases place with place | place <;>
          · rw [place] at holds
            cases holds
      · intro last
        have ⟨_, handing⟩ := sound.held caller holds
        rw [last] at handing
        have ⟨_, settled⟩ := Machine.Handing.settled handing
        rw [settled cpu] at owes
        cases owes

theorem cpus_goto {cpu other : Fin nrcpus} (apart : other ≠ cpu)
    (pc : CpuPc) : (machine.goto cpu pc).cpus other = machine.cpus other := by
  unfold Machine.goto
  rw [cpus_setCpu, if_neg apart]

/-- A step leaves the other vCPUs that have a task as they are. -/
theorem go_frame {caller cpu : Fin nrcpus} (apart : cpu ≠ caller)
    (task : (machine.cpus cpu).task ≠ none) :
    (machine.go caller).cpus cpu = machine.cpus cpu := by
  unfold Machine.go
  split
  · split <;> exact cpus_goto apart _
  · exact cpus_goto apart _
  · split
    · rfl
    · exact cpus_goto apart _
  · rw [cpus_setCpu, if_neg apart]
  · exact cpus_goto apart _
  · split
    · exact cpus_goto apart _
    · rfl
  · split
    · unfold Machine.post
      split
      · rfl
      next idle =>
        rw [cpus_goto apart, cpus_setCpu, if_neg]
        intro here
        rw [← here] at idle
        exact idle task
    · exact cpus_goto apart _
  · split
    · split
      · exact cpus_goto apart _
      · rfl
    · exact cpus_goto apart _
  · exact cpus_goto apart _
  · rfl

/-- A call returns in its last step. -/
theorem go_calls {caller : Fin nrcpus}
    (earlier : (machine.cpus caller).pc ≠ .unlock) :
    (machine.go caller).calls = machine.calls := by
  unfold Machine.go Machine.post
  split <;> (try split) <;> (try split) <;> first | rfl | contradiction

/-- The vCPU stays where it is and the call does not return. -/
theorem Sound.crossed_step (sound : Sound machine) {cpu : Fin nrcpus}
    (crossed : machine.Crossed cpu) (move : Move nrcpus) :
    (taskStep machine move).cpus cpu = machine.cpus cpu ∧
      (taskStep machine move).calls = machine.calls := by
  obtain ⟨owner, owned, apart, earlier⟩ := sound.crossed_owner crossed
  have ⟨task, place⟩ := crossed
  have notGuest : (machine.cpus cpu).pc ≠ .guest := by
    rcases place with place | place <;>
      · rw [place]
        exact nofun
  unfold taskStep
  split
  · exact ⟨rfl, rfl⟩
  cases move with
  | go caller =>
      dsimp only
      by_cases here : caller = cpu
      · rw [here]
        unfold Machine.go
        rcases place with place | place
        · rw [place]
          dsimp only
          rw [if_neg (by rw [owned]; exact nofun)]
          exact ⟨rfl, rfl⟩
        · rw [place]
          exact ⟨rfl, rfl⟩
      · refine ⟨go_frame (Ne.symm here) task, go_calls fun last => ?_⟩
        have other := (sound.owner caller).2 (by rw [last]; rfl)
        rw [owned] at other
        cases other
        exact earlier last
  | call caller | exit caller =>
      dsimp only
      split
      next guest =>
        refine ⟨cpus_goto (fun same => ?_) _, rfl⟩
        rw [← same] at guest
        exact notGuest guest
      next => exact ⟨rfl, rfl⟩

/--
Once a vCPU waits for the lock while it has the task of another call, or has
returned with it, no call returns any more.
-/
theorem crossing_calls_never_return (nrcpus : Nat)
    (before after : List (Move nrcpus)) (cpu : Fin nrcpus)
    (crossed : (run taskStep (taskStart nrcpus) before).Crossed cpu) :
    let machine := run taskStep (taskStart nrcpus) before
    (run taskStep machine after).calls = machine.calls ∧
      (run taskStep machine after).cpus cpu = machine.cpus cpu := by
  have sound : Sound (run taskStep (taskStart nrcpus) before) :=
    run_invariant_of_step (fun _ move sound => sound.step move) Sound.start
      before
  generalize run taskStep (taskStart nrcpus) before = machine at *
  have kept (state : Machine nrcpus) (move : Move nrcpus)
      (same :
        Sound state ∧ state.calls = machine.calls ∧
          state.cpus cpu = machine.cpus cpu) :
      Sound (taskStep state move) ∧
        (taskStep state move).calls = machine.calls ∧
          (taskStep state move).cpus cpu = machine.cpus cpu := by
    have ⟨sound, calls, cpus⟩ := same
    have still : state.Crossed cpu := by
      unfold Machine.Crossed
      rw [cpus]
      exact crossed
    have ⟨cpus', calls'⟩ := sound.crossed_step still move
    exact ⟨sound.step move, calls'.trans calls, cpus'.trans cpus⟩
  exact (run_invariant_of_step kept ⟨sound, rfl, rfl⟩ after).2

/-- Two vCPUs that call at the same time wait for each other. -/
theorem crossing_calls_of_two :
    let machine :=
      run taskStep (taskStart 2)
        [.go 0, .go 1, .call 0, .call 1, .go 0, .go 0, .go 0, .go 0, .go 0,
          .go 0]
    ∀ after,
      (run taskStep machine after).calls = machine.calls ∧
        (run taskStep machine after).cpus 1 = machine.cpus 1 :=
  fun after =>
    crossing_calls_never_return 2 _ after 1 ⟨by decide, by decide⟩

end Invariant

end Kemu.Init.CpuTasks
