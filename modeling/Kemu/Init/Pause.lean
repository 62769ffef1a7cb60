import Kemu.Lib.Tally
import Kemu.Lib.Transition

/-!
# Pausing the guest

`kvm_pause` takes `pause_lock`, sends `SIGKVMPAUSE` to the vCPU threads and
waits until each of them has written to `pause_event`.  A thread that got the
signal writes in its handler and then waits for the lock, which
`kvm_continue` gives back.  One thread does the one and any number of threads
may try; the threads of the vCPUs stop running and return whenever they want.

A step is what one thread does between two points where others can see it.
-/

namespace Kemu.Init.Pause

open Kemu.Lib.Tally
open Kemu.Lib.Transition

/-! ## Threads -/

/-- Where a vCPU thread is in its handler of `SIGKVMPAUSE`. -/
inductive VcpuPc where
  /-- In the guest, in an emulation or between the two. -/
  | outside
  /-- `kvm_cpu_signal_handler` looks at `paused`. -/
  | handler
  /-- `kvm_notify_paused` writes to `pause_event`. -/
  | notify
  | lock
  | clear
  | unlock
  /-- `kvm_cpu_thread` has returned. -/
  | exited
deriving DecidableEq, Repr

/--
The part of `struct kvm_cpu` used here, with the number of `SIGKVMPAUSE`
that are pending for its thread: it is a real-time signal, and blocked while
its handler runs.
-/
structure Vcpu where
  created : Bool
  isRunning : Bool
  paused : Bool
  pending : Nat
  pc : VcpuPc
deriving DecidableEq, Repr

/-- Where a thread is that calls `kvm_pause` and `kvm_continue`. -/
inductive PauserPc where
  | idle
  | lock
  /-- It holds the lock and looks whether the guest is running. -/
  | check
  /-- The turn of the loop for a vCPU, with `paused_vcpus`. -/
  | scan (vcpu pausedVcpus : Nat)
  /-- The loop that reads `pause_event`. -/
  | read (pausedVcpus : Nat)
  | close
  /-- `kvm_pause` has returned; whether it went past its first test. -/
  | holding (stopped : Bool)
deriving DecidableEq, Repr

/-- Who holds `pause_lock`. -/
inductive Owner (nrcpus : Nat) where
  | vcpu (vcpu : Fin nrcpus)
  | pauser (pauser : Nat)
deriving DecidableEq, Repr

/--
The process.  `event` is the count of `pause_event` while it is open.  `died`
says that `die` was called here or that `pause_event` was written to after it
was closed, `crashed` that a thread was used which does not exist; neither is
followed by anything.
-/
structure Machine (nrcpus : Nat) where
  vcpus : Fin nrcpus → Vcpu
  /-- Whether `kvm->cpus[0]` is not null. -/
  cpu0 : Bool
  owner : Option (Owner nrcpus)
  event : Option Nat
  pausers : Nat → PauserPc
  died : Bool
  crashed : Bool

/-- After `kvm_cpu__init`: the threads are not created. -/
def pauseStart (nrcpus : Nat) : Machine nrcpus where
  vcpus _ :=
    { created := false
      isRunning := true
      paused := false
      pending := 0
      pc := .outside }
  cpu0 := decide (0 < nrcpus)
  owner := none
  event := none
  pausers _ := .idle
  died := false
  crashed := false

/-! ## Steps -/

section Steps

variable {nrcpus : Nat}

/-- Another state of a vCPU. -/
def Machine.setVcpu (machine : Machine nrcpus) (vcpu : Fin nrcpus)
    (new : Vcpu) : Machine nrcpus :=
  { machine with vcpus := Function.update machine.vcpus vcpu new }

/-- Another state of a thread that pauses. -/
def Machine.setPauser (machine : Machine nrcpus) (pauser : Nat)
    (pc : PauserPc) : Machine nrcpus :=
  { machine with pausers := Function.update machine.pausers pauser pc }

/-- The guest is running, as far as `kvm_pause` looks. -/
def Machine.Started (machine : Machine nrcpus) : Prop :=
  machine.cpu0 = true ∧
    ∃ vcpu : Fin nrcpus, vcpu.val = 0 ∧ (machine.vcpus vcpu).created = true

instance (machine : Machine nrcpus) : Decidable machine.Started :=
  inferInstanceAs (Decidable (_ ∧ ∃ _ : Fin nrcpus, _))

/-- A turn of the loop of `kvm_pause` that sends the signals. -/
def Machine.scan (machine : Machine nrcpus) (pauser : Nat)
    (vcpu : Fin nrcpus) (pausedVcpus : Nat) : Machine nrcpus :=
  let cpu := machine.vcpus vcpu
  if vcpu.val = 0 ∧ machine.cpu0 = false then
    { machine with crashed := true }
  else if cpu.isRunning = true ∧ cpu.paused = false then
    if cpu.created then
      (machine.setVcpu vcpu { cpu with pending := cpu.pending + 1 }).setPauser
        pauser (.scan (vcpu + 1) pausedVcpus)
    else
      { machine with crashed := true }
  else
    machine.setPauser pauser (.scan (vcpu + 1) (pausedVcpus + 1))

/-- The next step of a thread that pauses. -/
def Machine.pause (machine : Machine nrcpus) (pauser : Nat) :
    Machine nrcpus :=
  match machine.pausers pauser with
  | .idle | .holding _ => machine
  | .lock =>
      if machine.owner = none then
        { machine.setPauser pauser .check with
          owner := some (.pauser pauser) }
      else
        machine
  | .check =>
      if machine.Started then
        { machine.setPauser pauser (.scan 0 0) with event := some 0 }
      else
        machine.setPauser pauser (.holding false)
  | .scan vcpu pausedVcpus =>
      if inside : vcpu < nrcpus then
        machine.scan pauser ⟨vcpu, inside⟩ pausedVcpus
      else
        machine.setPauser pauser (.read pausedVcpus)
  | .read pausedVcpus =>
      if pausedVcpus < nrcpus then
        match machine.event with
        | some (count + 1) =>
            { machine.setPauser pauser
                (.read (pausedVcpus + (count + 1))) with
              event := some 0 }
        | some 0 | none => machine
      else
        machine.setPauser pauser .close
  | .close =>
      { machine.setPauser pauser (.holding true) with event := none }

/-- The next step of a vCPU thread that concerns its handler. -/
def Machine.handle (machine : Machine nrcpus) (vcpu : Fin nrcpus) :
    Machine nrcpus :=
  let cpu := machine.vcpus vcpu
  match cpu.pc with
  | .outside =>
      if 0 < cpu.pending then
        machine.setVcpu vcpu
          { cpu with pending := cpu.pending - 1, pc := .handler }
      else
        machine
  | .handler =>
      if cpu.paused then
        { machine with died := true }
      else
        machine.setVcpu vcpu { cpu with paused := true, pc := .notify }
  | .notify =>
      match machine.event with
      | none => { machine with died := true }
      | some count =>
          { machine.setVcpu vcpu { cpu with pc := .lock } with
            event := some (count + 1) }
  | .lock =>
      if machine.owner = none then
        { machine.setVcpu vcpu { cpu with pc := .clear } with
          owner := some (.vcpu vcpu) }
      else
        machine
  | .clear => machine.setVcpu vcpu { cpu with paused := false, pc := .unlock }
  | .unlock =>
      { machine.setVcpu vcpu { cpu with pc := .outside } with owner := none }
  | .exited => machine

/-- What happens next. -/
inductive Move (nrcpus : Nat) where
  /-- A thread calls `kvm_pause`. -/
  | pause (pauser : Nat)
  /-- It goes on. -/
  | pauser (pauser : Nat)
  /-- It calls `kvm_continue`. -/
  | resume (pauser : Nat)
  /-- A vCPU thread goes on with its handler. -/
  | vcpu (vcpu : Fin nrcpus)
  /-- `kvm_cmd_run_work` creates a vCPU thread. -/
  | create (vcpu : Fin nrcpus)
  /-- The handler of `SIGKVMEXIT`, which can interrupt the other one. -/
  | stop (vcpu : Fin nrcpus)
  /-- `kvm_cpu__start` returns. -/
  | exit (vcpu : Fin nrcpus)
  /-- `kvm_cpu__exit` clears `kvm->cpus[0]`. -/
  | removeCpu0
deriving DecidableEq, Repr

/-- One move. -/
def pauseStep (machine : Machine nrcpus) (move : Move nrcpus) :
    Machine nrcpus :=
  if machine.died = true ∨ machine.crashed = true then
    machine
  else
    match move with
    | .pause pauser =>
        if machine.pausers pauser = .idle then
          machine.setPauser pauser .lock
        else
          machine
    | .pauser pauser => machine.pause pauser
    | .resume pauser =>
        match machine.pausers pauser with
        | .holding _ =>
            { machine.setPauser pauser .idle with owner := none }
        | _ => machine
    | .vcpu vcpu => machine.handle vcpu
    | .create vcpu =>
        machine.setVcpu vcpu { machine.vcpus vcpu with created := true }
    | .stop vcpu =>
        machine.setVcpu vcpu { machine.vcpus vcpu with isRunning := false }
    | .exit vcpu =>
        let cpu := machine.vcpus vcpu
        if cpu.created = true ∧ cpu.pc = .outside then
          machine.setVcpu vcpu { cpu with pc := .exited }
        else
          machine
    | .removeCpu0 => { machine with cpu0 := false }

end Steps

/-! ## What is expected -/

/-- The handler is between its write and the lock: the thread is stopped. -/
def Vcpu.Stopped (cpu : Vcpu) : Prop :=
  cpu.pc = .lock

/-- A signal was sent to the thread and it has not written yet. -/
def Vcpu.signalled (cpu : Vcpu) : Nat :=
  cpu.pending + if cpu.pc = .handler ∨ cpu.pc = .notify then 1 else 0

/-- A thread holds `pause_lock` in `kvm_pause` or after it. -/
def PauserPc.inside : PauserPc → Bool
  | .idle | .lock => false
  | .check | .scan _ _ | .read _ | .close | .holding _ => true

section Statements

variable {nrcpus : Nat}

/-- The vCPUs that were sent a signal and have not written yet. -/
def Machine.outstanding (machine : Machine nrcpus) : Nat :=
  tally Vcpu.signalled machine.vcpus

/-- The protocol of `kvm_pause` and `kvm_continue`. -/
structure Protocol (machine : Machine nrcpus) : Prop where
  /-- No vCPU is signalled twice, and nobody writes to a closed event. -/
  alive : machine.died = false
  /-- At most one thread is between `kvm_pause` and `kvm_continue`. -/
  alone :
    ∀ pauser other, (machine.pausers pauser).inside = true →
      (machine.pausers other).inside = true → pauser = other
  /-- Between the two every running vCPU is stopped in its handler. -/
  stopped :
    ∀ pauser, machine.pausers pauser = .holding true →
      ∀ vcpu, (machine.vcpus vcpu).isRunning = true →
        (machine.vcpus vcpu).Stopped
  /-- No write is counted twice. -/
  counted :
    ∀ pauser pausedVcpus, machine.pausers pauser = .read pausedVcpus →
      pausedVcpus ≤ nrcpus
  /--
  While the read blocks, there is a vCPU that has still to write; it can go
  on unless its thread has returned.
  -/
  awaited :
    ∀ pauser pausedVcpus, machine.pausers pauser = .read pausedVcpus →
      pausedVcpus < nrcpus → machine.event = some 0 →
        ∃ vcpu, 0 < (machine.vcpus vcpu).signalled ∧
          ((machine.vcpus vcpu).pc = .exited ∨
            machine.handle vcpu ≠ machine)

end Statements

/-! ## The invariant -/

section Invariant

variable {nrcpus : Nat}

/-- What is always so of a vCPU. -/
structure Vcpu.Sound (cpu : Vcpu) : Prop where
  paused :
    cpu.paused = true ↔
      cpu.pc = .notify ∨ cpu.pc = .lock ∨ cpu.pc = .clear
  once : cpu.pending ≤ 1
  pending : 0 < cpu.pending → cpu.pc = .outside ∨ cpu.pc = .exited

/-- Nobody is waited for. -/
structure Machine.Quiet (machine : Machine nrcpus) : Prop where
  closed : machine.event = none
  settled : machine.outstanding = 0

/-- A `kvm_pause` that has looked at the first vCPUs counts them. -/
structure Machine.Counting (machine : Machine nrcpus)
    (scanned pausedVcpus : Nat) : Prop where
  total :
    ∃ count, machine.event = some count ∧
      pausedVcpus + count + machine.outstanding = scanned
  unsent :
    ∀ vcpu : Fin nrcpus, scanned ≤ vcpu.val →
      (machine.vcpus vcpu).signalled = 0
  sent :
    ∀ vcpu : Fin nrcpus, vcpu.val < scanned →
      (machine.vcpus vcpu).isRunning = true →
        0 < (machine.vcpus vcpu).signalled ∨ (machine.vcpus vcpu).Stopped

/-- Where the thread is that pauses the guest, if there is one. -/
def Machine.active (machine : Machine nrcpus) : PauserPc :=
  match machine.owner with
  | some (.pauser pauser) => machine.pausers pauser
  | some (.vcpu _) | none => .idle

/-- What is known while that thread is there. -/
def Machine.Phase (machine : Machine nrcpus) : PauserPc → Prop
  | .scan scanned pausedVcpus =>
      scanned ≤ nrcpus ∧ machine.Counting scanned pausedVcpus
  | .read pausedVcpus => machine.Counting nrcpus pausedVcpus
  | .close => machine.Counting nrcpus nrcpus
  | .holding true =>
      machine.Quiet ∧
        ∀ vcpu, (machine.vcpus vcpu).isRunning = true →
          (machine.vcpus vcpu).Stopped
  | .idle | .lock | .check | .holding false => machine.Quiet

/-- The invariant of the protocol. -/
structure Sound (machine : Machine nrcpus) : Prop where
  alive : machine.died = false
  each : ∀ vcpu, (machine.vcpus vcpu).Sound
  vcpu :
    ∀ vcpu, machine.owner = some (.vcpu vcpu) ↔
      (machine.vcpus vcpu).pc = .clear ∨ (machine.vcpus vcpu).pc = .unlock
  pauser :
    ∀ pauser, machine.owner = some (.pauser pauser) ↔
      (machine.pausers pauser).inside = true
  phase : machine.Phase machine.active

variable {machine : Machine nrcpus}

/-- One vCPU counts differently. -/
theorem outstanding_setVcpu (machine : Machine nrcpus)
    (vcpu : Fin nrcpus) (new : Vcpu) :
    (machine.setVcpu vcpu new).outstanding +
        (machine.vcpus vcpu).signalled =
      machine.outstanding + new.signalled :=
  tally_update Vcpu.signalled machine.vcpus vcpu new

theorem Machine.Quiet.silent (quiet : machine.Quiet) (vcpu : Fin nrcpus) :
    (machine.vcpus vcpu).signalled = 0 :=
  weight_of_tally_zero quiet.settled vcpu

theorem Machine.Quiet.setVcpu (quiet : machine.Quiet) {vcpu : Fin nrcpus}
    {new : Vcpu} (same : new.signalled = (machine.vcpus vcpu).signalled) :
    (machine.setVcpu vcpu new).Quiet := by
  have total := outstanding_setVcpu machine vcpu new
  have settled := quiet.settled
  exact ⟨quiet.closed, by omega⟩

/-- What every stage is made of. -/
theorem Machine.Phase.map {after : Machine nrcpus} {stage : PauserPc}
    (phase : machine.Phase stage) (quiet : machine.Quiet → after.Quiet)
    (counting :
      ∀ scanned pausedVcpus, machine.Counting scanned pausedVcpus →
        after.Counting scanned pausedVcpus)
    (stopped :
      machine.Quiet →
        (∀ vcpu, (machine.vcpus vcpu).isRunning = true →
          (machine.vcpus vcpu).Stopped) →
        ∀ vcpu, (after.vcpus vcpu).isRunning = true →
          (after.vcpus vcpu).Stopped) : after.Phase stage := by
  cases stage with
  | idle | lock | check => exact quiet phase
  | scan scanned pausedVcpus => exact ⟨phase.1, counting _ _ phase.2⟩
  | read pausedVcpus | close => exact counting _ _ phase
  | holding all =>
      cases all with
      | false => exact quiet phase
      | true => exact ⟨quiet phase.1, stopped phase.1 phase.2⟩

/-- The stage depends on the vCPUs and the event. -/
theorem Machine.Phase.congr {after : Machine nrcpus} {stage : PauserPc}
    (phase : machine.Phase stage) (vcpus : after.vcpus = machine.vcpus)
    (event : after.event = machine.event) : after.Phase stage := by
  have outstanding : after.outstanding = machine.outstanding := by
    unfold Machine.outstanding
    rw [vcpus]
  refine phase.map (fun quiet => ?_) (fun _ _ counting => ?_) fun _ => ?_
  · exact ⟨event.trans quiet.closed, outstanding.trans quiet.settled⟩
  · constructor
    · rw [event, outstanding]
      exact counting.total
    · rw [vcpus]
      exact counting.unsent
    · rw [vcpus]
      exact counting.sent
  · rw [vcpus]
    exact id

/-- Nothing changes that the invariant is about. -/
theorem Sound.congr {after : Machine nrcpus} (sound : Sound machine)
    (alive : after.died = machine.died)
    (vcpus : after.vcpus = machine.vcpus)
    (owner : after.owner = machine.owner)
    (event : after.event = machine.event)
    (pausers : after.pausers = machine.pausers) : Sound after where
  alive := alive.trans sound.alive
  each := vcpus ▸ sound.each
  vcpu := by
    rw [vcpus, owner]
    exact sound.vcpu
  pauser := by
    rw [owner, pausers]
    exact sound.pauser
  phase := by
    have active : after.active = machine.active := by
      unfold Machine.active
      rw [owner, pausers]
    rw [active]
    exact sound.phase.congr vcpus event

theorem vcpus_setVcpu (vcpu : Fin nrcpus) (new : Vcpu)
    (other : Fin nrcpus) :
    (machine.setVcpu vcpu new).vcpus other =
      if other = vcpu then new else machine.vcpus other :=
  Function.update_apply ..

theorem Machine.Counting.setVcpu {scanned pausedVcpus : Nat}
    (counting : machine.Counting scanned pausedVcpus) {vcpu : Fin nrcpus}
    {new : Vcpu} (same : new.signalled = (machine.vcpus vcpu).signalled)
    (running :
      new.isRunning = true →
        (machine.vcpus vcpu).isRunning = true ∧
          ((machine.vcpus vcpu).Stopped → new.Stopped)) :
    (machine.setVcpu vcpu new).Counting scanned pausedVcpus := by
  obtain ⟨count, event, total⟩ := counting.total
  have sum := outstanding_setVcpu machine vcpu new
  refine ⟨⟨count, event, by omega⟩, ?_, ?_⟩
  · intro other above
    rw [vcpus_setVcpu]
    split
    next here =>
      rw [same]
      exact counting.unsent vcpu (here ▸ above)
    next => exact counting.unsent other above
  · intro other below
    rw [vcpus_setVcpu]
    split
    next here =>
      intro isRunning
      have ⟨was, keeps⟩ := running isRunning
      rw [same]
      exact (counting.sent vcpu (here ▸ below) was).imp_right keeps
    next => exact counting.sent other below

/-- A vCPU changes in a way that nobody waits for. -/
theorem Machine.Phase.setVcpu {stage : PauserPc}
    (phase : machine.Phase stage) {vcpu : Fin nrcpus} {new : Vcpu}
    (same : new.signalled = (machine.vcpus vcpu).signalled)
    (running :
      new.isRunning = true →
        (machine.vcpus vcpu).isRunning = true ∧
          ((machine.vcpus vcpu).Stopped → new.Stopped)) :
    (machine.setVcpu vcpu new).Phase stage := by
  refine
    phase.map (fun quiet => quiet.setVcpu same)
      (fun _ _ counting => counting.setVcpu same running)
      fun _ stopped other => ?_
  rw [vcpus_setVcpu]
  split
  next =>
    intro isRunning
    have ⟨was, keeps⟩ := running isRunning
    exact keeps (stopped vcpu was)
  next => exact stopped other

theorem Sound.each_setVcpu (sound : Sound machine) {vcpu : Fin nrcpus}
    {new : Vcpu} (each : new.Sound) (other : Fin nrcpus) :
    ((machine.setVcpu vcpu new).vcpus other).Sound := by
  rw [vcpus_setVcpu]
  split
  next => exact each
  next => exact sound.each other

theorem Sound.vcpu_setVcpu (sound : Sound machine) {vcpu : Fin nrcpus}
    {new : Vcpu}
    (holds :
      new.pc = .clear ∨ new.pc = .unlock ↔
        (machine.vcpus vcpu).pc = .clear ∨
          (machine.vcpus vcpu).pc = .unlock)
    (other : Fin nrcpus) :
    machine.owner = some (.vcpu other) ↔
      ((machine.setVcpu vcpu new).vcpus other).pc = .clear ∨
        ((machine.setVcpu vcpu new).vcpus other).pc = .unlock := by
  rw [vcpus_setVcpu]
  split
  next here =>
    rw [holds, here]
    exact sound.vcpu vcpu
  next => exact sound.vcpu other

/-- The step of a vCPU thread that leaves the lock and the event alone. -/
theorem Sound.setVcpu (sound : Sound machine) {vcpu : Fin nrcpus}
    {new : Vcpu} (each : new.Sound)
    (holds :
      new.pc = .clear ∨ new.pc = .unlock ↔
        (machine.vcpus vcpu).pc = .clear ∨
          (machine.vcpus vcpu).pc = .unlock)
    (same : new.signalled = (machine.vcpus vcpu).signalled)
    (running :
      new.isRunning = true →
        (machine.vcpus vcpu).isRunning = true ∧
          ((machine.vcpus vcpu).Stopped → new.Stopped)) :
    Sound (machine.setVcpu vcpu new) where
  alive := sound.alive
  each := sound.each_setVcpu each
  vcpu := sound.vcpu_setVcpu holds
  pauser := sound.pauser
  phase := sound.phase.setVcpu same running

/-- A thread that pauses the guest goes on. -/
theorem Sound.pauser_update (sound : Sound machine) {pauser : Nat}
    {pc : PauserPc} {owner : Option (Owner nrcpus)}
    (here : owner = some (.pauser pauser) ↔ pc.inside = true)
    (elsewhere :
      ∀ other, other ≠ pauser →
        (owner = some (.pauser other) ↔
          machine.owner = some (.pauser other)))
    (other : Nat) :
    owner = some (.pauser other) ↔
      (Function.update machine.pausers pauser pc other).inside = true := by
  rw [Function.update_apply]
  split
  next same =>
    rw [same]
    exact here
  next differs => exact (elsewhere other differs).trans (sound.pauser other)

/-- The step of the thread that holds the lock to pause the guest. -/
theorem Sound.advance {after : Machine nrcpus} {pauser : Nat}
    {pc : PauserPc} (sound : Sound machine)
    (owned : machine.owner = some (.pauser pauser))
    (alive : after.died = false) (owner : after.owner = machine.owner)
    (pausers :
      after.pausers = Function.update machine.pausers pauser pc)
    (inside : pc.inside = true)
    (each : ∀ vcpu, (after.vcpus vcpu).Sound)
    (pcs : ∀ vcpu, (after.vcpus vcpu).pc = (machine.vcpus vcpu).pc)
    (phase : after.Phase pc) : Sound after where
  alive := alive
  each := each
  vcpu := by
    intro vcpu
    rw [owner, pcs]
    exact sound.vcpu vcpu
  pauser := by
    rw [owner, pausers]
    exact sound.pauser_update (iff_of_true owned inside) fun _ _ => Iff.rfl
  phase := by
    have active : after.active = pc := by
      unfold Machine.active
      rw [owner, owned, pausers]
      exact Function.update_self ..
    rw [active]
    exact phase

/-! ## Steps of `kvm_pause` -/

/-- The thread that is inside holds the lock, and its stage is known. -/
theorem Sound.stage (sound : Sound machine) (pauser : Nat)
    (inside : (machine.pausers pauser).inside = true) :
    machine.owner = some (.pauser pauser) ∧
      machine.Phase (machine.pausers pauser) := by
  have owned := (sound.pauser pauser).2 inside
  have phase := sound.phase
  unfold Machine.active at phase
  rw [owned] at phase
  exact ⟨owned, phase⟩

theorem Sound.takeLock (sound : Sound machine) {pauser : Nat}
    (free : machine.owner = none) :
    Sound
      { machine.setPauser pauser .check with
        owner := some (.pauser pauser) } where
  alive := sound.alive
  each := sound.each
  vcpu := by
    intro vcpu
    have outside := sound.vcpu vcpu
    rw [free] at outside
    exact iff_of_false nofun fun holds => nomatch outside.2 holds
  pauser :=
    sound.pauser_update (iff_of_true rfl rfl) fun other differs => by
      rw [free]
      simp [Ne.symm differs]
  phase := by
    have quiet := sound.phase
    unfold Machine.active at quiet
    rw [free] at quiet
    unfold Machine.active Machine.setPauser
    dsimp only
    rw [Function.update_self]
    exact ⟨quiet.closed, quiet.settled⟩

/-- The count of an open event, before the first vCPU was looked at. -/
theorem Machine.Quiet.open (quiet : machine.Quiet) {pauser : Nat}
    {pc : PauserPc} :
    ({ machine.setPauser pauser pc with event := some 0 } :
      Machine nrcpus).Counting 0 0 :=
  ⟨⟨0, rfl, (Nat.zero_add _).trans quiet.settled⟩,
    fun vcpu _ => quiet.silent vcpu, nofun⟩

/-- The loop has looked at a vCPU that is not sent a signal. -/
theorem Machine.Counting.pass {vcpu : Fin nrcpus} {pausedVcpus : Nat}
    (counting : machine.Counting vcpu pausedVcpus)
    (passed :
      (machine.vcpus vcpu).isRunning = true →
        (machine.vcpus vcpu).Stopped) :
    machine.Counting (vcpu + 1) (pausedVcpus + 1) := by
  obtain ⟨count, event, total⟩ := counting.total
  refine ⟨⟨count, event, by omega⟩, ?_, ?_⟩
  · intro other above
    exact counting.unsent other (by omega)
  · intro other below isRunning
    by_cases here : other = vcpu
    · subst here
      exact Or.inr (passed isRunning)
    · have differs := Fin.val_ne_of_ne here
      exact counting.sent other (by omega) isRunning

/-- The loop has sent a vCPU its signal. -/
theorem Machine.Counting.send {vcpu : Fin nrcpus} {pausedVcpus : Nat}
    (counting : machine.Counting vcpu pausedVcpus) {new : Vcpu}
    (sends : new.signalled = (machine.vcpus vcpu).signalled + 1) :
    (machine.setVcpu vcpu new).Counting (vcpu + 1) pausedVcpus := by
  obtain ⟨count, event, total⟩ := counting.total
  have sum := outstanding_setVcpu machine vcpu new
  refine ⟨⟨count, event, by omega⟩, ?_, ?_⟩
  · intro other above
    have differs : other ≠ vcpu := by
      intro same
      subst same
      omega
    rw [vcpus_setVcpu, if_neg differs]
    exact counting.unsent other (by omega)
  · intro other below
    rw [vcpus_setVcpu]
    split
    next =>
      intro _
      exact Or.inl (by omega)
    next differs =>
      have apart := Fin.val_ne_of_ne differs
      exact counting.sent other (by omega)

/-- A vCPU that is not paused and was not sent a signal is elsewhere. -/
theorem Vcpu.Sound.ready {cpu : Vcpu} (sound : cpu.Sound)
    (unpaused : cpu.paused = false) (silent : cpu.signalled = 0)
    (outside : ¬ (cpu.pc = .clear ∨ cpu.pc = .unlock)) :
    cpu.pending = 0 ∧ (cpu.pc = .outside ∨ cpu.pc = .exited) := by
  have paused := sound.paused
  unfold Vcpu.signalled at silent
  cases pc : cpu.pc <;> simp_all

theorem Sound.scan (sound : Sound machine) {pauser pausedVcpus : Nat}
    (vcpu : Fin nrcpus)
    (pc : machine.pausers pauser = .scan vcpu pausedVcpus) :
    Sound (machine.scan pauser vcpu pausedVcpus) := by
  have ⟨owned, phase⟩ := sound.stage pauser (by rw [pc]; rfl)
  rw [pc] at phase
  have ⟨_, counting⟩ := phase
  unfold Machine.scan
  dsimp only
  split
  · exact sound.congr rfl rfl rfl rfl rfl
  split
  next fit =>
    have notHeld : ¬ ((machine.vcpus vcpu).pc = .clear ∨
        (machine.vcpus vcpu).pc = .unlock) := by
      rw [← sound.vcpu vcpu, owned]
      exact nofun
    have ⟨none', elsewhere⟩ :=
      (sound.each vcpu).ready fit.2 (counting.unsent vcpu (Nat.le_refl _))
        notHeld
    split
    · refine sound.advance owned sound.alive rfl rfl rfl ?_ ?_ ?_
      · intro other
        unfold Machine.setPauser
        rw [vcpus_setVcpu]
        split
        next =>
          have each := sound.each vcpu
          exact ⟨each.paused, by rw [none'], fun _ => elsewhere⟩
        next => exact sound.each other
      · intro other
        unfold Machine.setPauser
        rw [vcpus_setVcpu]
        split
        next here => rw [here]
        next => rfl
      · refine ⟨vcpu.isLt, ?_⟩
        have sent :
            (machine.setVcpu vcpu
              { machine.vcpus vcpu with
                pending := (machine.vcpus vcpu).pending + 1 }).Counting
              (vcpu + 1) pausedVcpus :=
          counting.send (Nat.add_right_comm ..)
        exact ⟨sent.total, sent.unsent, sent.sent⟩
    · exact sound.congr rfl rfl rfl rfl rfl
  next unfit =>
    refine
      sound.advance owned sound.alive rfl rfl rfl sound.each (fun _ => rfl)
        ⟨vcpu.isLt, ?_⟩
    have passed := counting.pass fun isRunning => by
      have paused : (machine.vcpus vcpu).paused = true := by
        simpa [isRunning] using unfit
      have silent := counting.unsent vcpu (Nat.le_refl _)
      have outside := sound.vcpu vcpu
      rw [owned] at outside
      have place := (sound.each vcpu).paused.1 paused
      unfold Vcpu.signalled at silent
      unfold Vcpu.Stopped
      cases here : (machine.vcpus vcpu).pc <;> simp_all
    exact ⟨passed.total, passed.unsent, passed.sent⟩

/-- What the loop has read is not waited for any more. -/
theorem Machine.Counting.collect {pausedVcpus count pauser : Nat}
    {pc : PauserPc} (counting : machine.Counting nrcpus pausedVcpus)
    (event : machine.event = some count) :
    ({ machine.setPauser pauser pc with event := some 0 } :
      Machine nrcpus).Counting nrcpus (pausedVcpus + count) := by
  obtain ⟨counted, same, total⟩ := counting.total
  rw [event] at same
  cases same
  exact ⟨⟨0, rfl, total⟩, counting.unsent, counting.sent⟩

/-- The count is complete: every vCPU that runs is stopped. -/
theorem Machine.Counting.complete
    (counting : machine.Counting nrcpus nrcpus) :
    machine.outstanding = 0 ∧
      ∀ vcpu, (machine.vcpus vcpu).isRunning = true →
        (machine.vcpus vcpu).Stopped := by
  obtain ⟨count, _, total⟩ := counting.total
  have settled : machine.outstanding = 0 := by omega
  refine ⟨settled, fun vcpu isRunning => ?_⟩
  cases counting.sent vcpu vcpu.isLt isRunning with
  | inl signalled =>
      rw [weight_of_tally_zero settled vcpu] at signalled
      exact absurd signalled (Nat.lt_irrefl 0)
  | inr stopped => exact stopped

theorem Sound.pause (sound : Sound machine) (pauser : Nat) :
    Sound (machine.pause pauser) := by
  unfold Machine.pause
  cases pc : machine.pausers pauser with
  | idle => exact sound
  | holding stopped => exact sound
  | lock =>
      dsimp only
      split
      next free => exact sound.takeLock free
      next => exact sound
  | check =>
      have ⟨owned, quiet⟩ := sound.stage pauser (by rw [pc]; rfl)
      rw [pc] at quiet
      dsimp only
      split
      · refine
          sound.advance owned sound.alive rfl rfl rfl sound.each
            (fun _ => rfl) ⟨Nat.zero_le _, ?_⟩
        exact Machine.Quiet.open quiet
      · exact
          sound.advance owned sound.alive rfl rfl rfl sound.each
            (fun _ => rfl) ⟨quiet.closed, quiet.settled⟩
  | scan scanned pausedVcpus =>
      dsimp only
      split
      next inside => exact sound.scan ⟨scanned, inside⟩ pc
      next beyond =>
        have ⟨owned, phase⟩ := sound.stage pauser (by rw [pc]; rfl)
        rw [pc] at phase
        have all : scanned = nrcpus := by
          have bound := phase.1
          omega
        have counting := phase.2
        rw [all] at counting
        exact
          sound.advance owned sound.alive rfl rfl rfl sound.each
            (fun _ => rfl)
            ⟨counting.total, counting.unsent, counting.sent⟩
  | read pausedVcpus =>
      have ⟨owned, counting⟩ := sound.stage pauser (by rw [pc]; rfl)
      rw [pc] at counting
      dsimp only
      split
      · split
        next count event =>
          exact
            sound.advance owned sound.alive rfl rfl rfl sound.each
              (fun _ => rfl) (Machine.Counting.collect counting event)
        next => exact sound
        next => exact sound
      next complete =>
        obtain ⟨count, event, total⟩ := counting.total
        have all : pausedVcpus = nrcpus := by omega
        have counting : machine.Counting nrcpus pausedVcpus := counting
        rw [all] at counting
        exact
          sound.advance owned sound.alive rfl rfl rfl sound.each
            (fun _ => rfl)
            ⟨counting.total, counting.unsent, counting.sent⟩
  | close =>
      have ⟨owned, counting⟩ := sound.stage pauser (by rw [pc]; rfl)
      rw [pc] at counting
      have ⟨settled, stopped⟩ := Machine.Counting.complete counting
      exact
        sound.advance owned sound.alive rfl rfl rfl sound.each
          (fun _ => rfl) ⟨⟨rfl, settled⟩, stopped⟩

/-! ## Steps of the vCPU threads -/

/-- The write of a vCPU that was sent a signal. -/
theorem Machine.Counting.write {vcpu : Fin nrcpus}
    {scanned pausedVcpus count : Nat} {new : Vcpu}
    (counting : machine.Counting scanned pausedVcpus)
    (event : machine.event = some count)
    (writes : new.signalled + 1 = (machine.vcpus vcpu).signalled)
    (stopped : new.Stopped) :
    ({ machine.setVcpu vcpu new with event := some (count + 1) } :
      Machine nrcpus).Counting scanned pausedVcpus := by
  obtain ⟨counted, same, total⟩ := counting.total
  rw [event] at same
  cases same
  have sum := outstanding_setVcpu machine vcpu new
  refine ⟨⟨count + 1, rfl, ?_⟩, ?_, ?_⟩
  · change
      pausedVcpus + (count + 1) + (machine.setVcpu vcpu new).outstanding = _
    omega
  · intro other above
    change ((machine.setVcpu vcpu new).vcpus other).signalled = 0
    have silent := counting.unsent other above
    rw [vcpus_setVcpu]
    split
    next here =>
      rw [here] at silent
      omega
    next => exact silent
  · intro other below
    change
      ((machine.setVcpu vcpu new).vcpus other).isRunning = true →
        0 < ((machine.setVcpu vcpu new).vcpus other).signalled ∨
          ((machine.setVcpu vcpu new).vcpus other).Stopped
    rw [vcpus_setVcpu]
    split
    next =>
      intro _
      exact Or.inr stopped
    next => exact counting.sent other below

/-- A vCPU that has still to write is one that `kvm_pause` waits for. -/
theorem Machine.Phase.counting {stage : PauserPc}
    (phase : machine.Phase stage) {vcpu : Fin nrcpus}
    (signalled : 0 < (machine.vcpus vcpu).signalled) :
    ∃ scanned pausedVcpus, machine.Counting scanned pausedVcpus := by
  have loud (quiet : machine.Quiet) : False := by
    rw [quiet.silent vcpu] at signalled
    exact Nat.lt_irrefl 0 signalled
  cases stage with
  | idle | lock | check => exact (loud phase).elim
  | scan scanned pausedVcpus => exact ⟨scanned, pausedVcpus, phase.2⟩
  | read pausedVcpus | close => exact ⟨nrcpus, _, phase⟩
  | holding stopped =>
      cases stopped with
      | false => exact (loud phase).elim
      | true => exact (loud phase.1).elim

/-- The write keeps what is known. -/
theorem Machine.Phase.write {stage : PauserPc}
    (phase : machine.Phase stage) {vcpu : Fin nrcpus} {count : Nat}
    {new : Vcpu} (event : machine.event = some count)
    (writes : new.signalled + 1 = (machine.vcpus vcpu).signalled)
    (stopped : new.Stopped) :
    ({ machine.setVcpu vcpu new with event := some (count + 1) } :
      Machine nrcpus).Phase stage := by
  have loud (quiet : machine.Quiet) : False := by
    rw [quiet.silent vcpu] at writes
    exact Nat.succ_ne_zero _ writes
  exact
    phase.map (fun quiet => (loud quiet).elim)
      (fun _ _ counting => counting.write event writes stopped)
      fun quiet => (loud quiet).elim

/-- A vCPU thread takes the lock or gives it back. -/
theorem Sound.swapLock (sound : Sound machine) {vcpu : Fin nrcpus}
    {new : Vcpu} {owner : Option (Owner nrcpus)} (each : new.Sound)
    (same : new.signalled = (machine.vcpus vcpu).signalled)
    (apart : ∀ pauser, machine.owner ≠ some (.pauser pauser))
    (apart' : ∀ pauser, owner ≠ some (.pauser pauser))
    (here :
      owner = some (.vcpu vcpu) ↔ new.pc = .clear ∨ new.pc = .unlock)
    (elsewhere :
      ∀ other, other ≠ vcpu →
        (owner = some (.vcpu other) ↔
          machine.owner = some (.vcpu other))) :
    Sound { machine.setVcpu vcpu new with owner := owner } where
  alive := sound.alive
  each := sound.each_setVcpu each
  vcpu := by
    intro other
    change
      owner = _ ↔
        ((machine.setVcpu vcpu new).vcpus other).pc = .clear ∨
          ((machine.setVcpu vcpu new).vcpus other).pc = .unlock
    rw [vcpus_setVcpu]
    split
    next same =>
      rw [same]
      exact here
    next differs => exact (elsewhere other differs).trans (sound.vcpu other)
  pauser := by
    intro pauser
    exact
      iff_of_false (apart' pauser) fun inside =>
        apart pauser ((sound.pauser pauser).2 inside)
  phase := by
    have idle (owner : Option (Owner nrcpus))
        (apart : ∀ pauser, owner ≠ some (.pauser pauser)) :
        ({ machine with owner := owner } : Machine nrcpus).active =
          .idle := by
      unfold Machine.active
      dsimp only
      split
      next pauser => exact absurd rfl (apart pauser)
      all_goals rfl
    have quiet : machine.Quiet := by
      have phase := sound.phase
      rw [show machine.active = .idle from idle machine.owner apart] at phase
      exact phase
    have active :
        ({ machine.setVcpu vcpu new with owner := owner } :
          Machine nrcpus).active = .idle :=
      idle owner apart'
    rw [active]
    have quiet := quiet.setVcpu same
    exact ⟨quiet.closed, quiet.settled⟩

theorem Sound.handle (sound : Sound machine) (vcpu : Fin nrcpus) :
    Sound (machine.handle vcpu) := by
  have each := sound.each vcpu
  have holds := sound.vcpu vcpu
  unfold Machine.handle
  dsimp only
  cases pc : (machine.vcpus vcpu).pc with
  | outside =>
      dsimp only
      split
      next some' =>
        have once := each.once
        have paused := each.paused
        rw [pc] at paused
        apply sound.setVcpu
        · exact ⟨by simpa using paused, by dsimp only; omega,
            fun more => by dsimp only at more; omega⟩
        · rw [pc]
          simp
        · unfold Vcpu.signalled
          simp [pc]
          omega
        · intro isRunning
          refine ⟨isRunning, fun stopped => ?_⟩
          rw [Vcpu.Stopped, pc] at stopped
          cases stopped
      next => exact sound
  | handler =>
      have unpaused : (machine.vcpus vcpu).paused = false := by
        have paused := each.paused
        rw [pc] at paused
        simpa using paused
      have pending := each.pending
      rw [pc] at pending
      dsimp only
      rw [unpaused]
      apply sound.setVcpu
      · exact ⟨by simp, each.once, by simpa using pending⟩
      · rw [pc]
        simp
      · unfold Vcpu.signalled
        simp [pc]
      · intro isRunning
        refine ⟨isRunning, fun stopped => ?_⟩
        rw [Vcpu.Stopped, pc] at stopped
        cases stopped
  | notify =>
      have signalled : 0 < (machine.vcpus vcpu).signalled := by
        unfold Vcpu.signalled
        simp [pc]
      obtain ⟨scanned, pausedVcpus, counting⟩ :=
        sound.phase.counting signalled
      obtain ⟨count, event, total⟩ := counting.total
      have pending := each.pending
      have paused := each.paused
      rw [pc] at pending paused
      have writes :
          { machine.vcpus vcpu with pc := VcpuPc.lock }.signalled + 1 =
            (machine.vcpus vcpu).signalled := by
        unfold Vcpu.signalled
        simp [pc]
      rw [event]
      refine
        ⟨sound.alive,
          sound.each_setVcpu
            ⟨by simpa using paused, each.once, by simpa using pending⟩,
          sound.vcpu_setVcpu ?_, sound.pauser,
          sound.phase.write event writes rfl⟩
      rw [pc]
      simp
  | lock =>
      dsimp only
      split
      next free =>
        have paused := each.paused
        have pending := each.pending
        rw [pc] at paused pending
        apply sound.swapLock
        · exact ⟨by simpa using paused, each.once, by simpa using pending⟩
        · unfold Vcpu.signalled
          simp [pc]
        · rw [free]
          exact nofun
        · exact nofun
        · simp
        · intro other differs
          rw [free]
          simp [Ne.symm differs]
      next => exact sound
  | clear =>
      have pending := each.pending
      rw [pc] at pending
      apply sound.setVcpu
      · exact ⟨by simp, each.once, by simpa using pending⟩
      · rw [pc]
        simp
      · unfold Vcpu.signalled
        simp [pc]
      · intro isRunning
        refine ⟨isRunning, fun stopped => ?_⟩
        rw [Vcpu.Stopped, pc] at stopped
        cases stopped
  | unlock =>
      have owned : machine.owner = some (.vcpu vcpu) :=
        holds.2 (Or.inr pc)
      have paused := each.paused
      have pending := each.pending
      rw [pc] at paused pending
      apply sound.swapLock
      · exact ⟨by simpa using paused, each.once, by simp⟩
      · unfold Vcpu.signalled
        simp [pc]
      · rw [owned]
        exact nofun
      · exact nofun
      · simp
      · intro other differs
        rw [owned]
        simp [Ne.symm differs]
  | exited => exact sound

/-! ## Runs -/

theorem Sound.start : Sound (pauseStart nrcpus) where
  alive := rfl
  each _ := ⟨by simp [pauseStart], by simp [pauseStart], by simp [pauseStart]⟩
  vcpu := by simp [pauseStart]
  pauser _ := by simp [pauseStart, PauserPc.inside]
  phase := ⟨rfl, tally_eq_zero fun _ => rfl⟩

/-- A thread outside of the lock starts to wait for it or has left it. -/
theorem Sound.setOutside (sound : Sound machine) {pauser : Nat}
    {pc : PauserPc} (before : (machine.pausers pauser).inside = false)
    (after : pc.inside = false) : Sound (machine.setPauser pauser pc) := by
  have away : machine.owner ≠ some (.pauser pauser) := by
    intro owned
    have inside := (sound.pauser pauser).1 owned
    rw [before] at inside
    cases inside
  refine ⟨sound.alive, sound.each, sound.vcpu, ?_, ?_⟩
  · exact
      sound.pauser_update (iff_of_false away (by simp [after])) fun _ _ =>
        Iff.rfl
  · have active : (machine.setPauser pauser pc).active = machine.active := by
      unfold Machine.active Machine.setPauser
      dsimp only
      split
      next other owned =>
        apply Function.update_of_ne
        intro same
        rw [owned, same] at away
        exact away rfl
      all_goals rfl
    rw [active]
    exact sound.phase.congr rfl rfl

theorem Sound.resume (sound : Sound machine) {pauser : Nat}
    {stopped : Bool} (pc : machine.pausers pauser = .holding stopped) :
    Sound { machine.setPauser pauser .idle with owner := none } := by
  have ⟨owned, phase⟩ := sound.stage pauser (by rw [pc]; rfl)
  rw [pc] at phase
  have quiet : machine.Quiet := by
    cases stopped with
    | false => exact phase
    | true => exact phase.1
  refine ⟨sound.alive, sound.each, ?_, ?_, ⟨quiet.closed, quiet.settled⟩⟩
  · intro vcpu
    refine iff_of_false nofun fun holds => ?_
    have other := (sound.vcpu vcpu).2 holds
    rw [owned] at other
    cases other
  · refine
      sound.pauser_update (iff_of_false nofun nofun) fun other differs => ?_
    rw [owned]
    simp [Ne.symm differs]

theorem Sound.step (sound : Sound machine) (move : Move nrcpus) :
    Sound (pauseStep machine move) := by
  unfold pauseStep
  split
  · exact sound
  cases move with
  | pause pauser =>
      dsimp only
      split
      next idle => exact sound.setOutside (by rw [idle]; rfl) rfl
      next => exact sound
  | pauser pauser => exact sound.pause pauser
  | resume pauser =>
      dsimp only
      split
      next stopped pc => exact sound.resume pc
      next => exact sound
  | vcpu vcpu => exact sound.handle vcpu
  | create vcpu =>
      have each := sound.each vcpu
      exact
        sound.setVcpu ⟨each.paused, each.once, each.pending⟩ Iff.rfl rfl
          fun isRunning => ⟨isRunning, id⟩
  | stop vcpu =>
      have each := sound.each vcpu
      exact
        sound.setVcpu ⟨each.paused, each.once, each.pending⟩ Iff.rfl rfl
          nofun
  | exit vcpu =>
      dsimp only
      split
      next outside =>
        have each := sound.each vcpu
        have paused := each.paused
        rw [outside.2] at paused
        apply sound.setVcpu
        · exact ⟨by simpa using paused, each.once, by simp⟩
        · rw [outside.2]
          simp
        · unfold Vcpu.signalled
          simp [outside.2]
        · intro isRunning
          refine ⟨isRunning, fun stopped => ?_⟩
          rw [Vcpu.Stopped, outside.2] at stopped
          cases stopped
      next => exact sound
  | removeCpu0 => exact sound.congr rfl rfl rfl rfl rfl

/-- A vCPU that was sent a signal is not blocked. -/
theorem Sound.handles (sound : Sound machine) {vcpu : Fin nrcpus}
    (signalled : 0 < (machine.vcpus vcpu).signalled)
    (alive : (machine.vcpus vcpu).pc ≠ .exited) :
    machine.handle vcpu ≠ machine := by
  have each := sound.each vcpu
  have moves {after : Machine nrcpus}
      (pc : (after.vcpus vcpu).pc ≠ (machine.vcpus vcpu).pc) :
      after ≠ machine := by
    intro same
    rw [same] at pc
    exact pc rfl
  have pending (pending : (machine.vcpus vcpu).signalled =
      (machine.vcpus vcpu).pending) :
      (machine.vcpus vcpu).pc = .outside := by
    rw [pending] at signalled
    exact (each.pending signalled).resolve_right alive
  unfold Machine.handle
  dsimp only
  cases pc : (machine.vcpus vcpu).pc with
  | outside =>
      have some' : 0 < (machine.vcpus vcpu).pending := by
        unfold Vcpu.signalled at signalled
        simpa [pc] using signalled
      dsimp only
      rw [if_pos some']
      apply moves
      rw [vcpus_setVcpu, if_pos rfl, pc]
      exact nofun
  | handler =>
      have unpaused : (machine.vcpus vcpu).paused = false := by
        have paused := each.paused
        rw [pc] at paused
        simpa using paused
      dsimp only
      rw [unpaused]
      apply moves
      change ((machine.setVcpu vcpu _).vcpus vcpu).pc ≠ _
      rw [vcpus_setVcpu, if_pos rfl, pc]
      exact nofun
  | notify =>
      obtain ⟨scanned, pausedVcpus, counting⟩ :=
        sound.phase.counting signalled
      obtain ⟨count, event, total⟩ := counting.total
      rw [event]
      apply moves
      change ((machine.setVcpu vcpu _).vcpus vcpu).pc ≠ _
      rw [vcpus_setVcpu, if_pos rfl, pc]
      exact nofun
  | lock | clear | unlock =>
      have outside := pending (by unfold Vcpu.signalled; simp [pc])
      rw [pc] at outside
      cases outside
  | exited => exact absurd pc alive

theorem Sound.protocol (sound : Sound machine) : Protocol machine where
  alive := sound.alive
  alone pauser other inside inside' := by
    have owned := (sound.pauser pauser).2 inside
    rw [(sound.pauser other).2 inside'] at owned
    cases owned
    rfl
  stopped pauser pc := by
    have ⟨_, phase⟩ := sound.stage pauser (by rw [pc]; rfl)
    rw [pc] at phase
    exact phase.2
  counted pauser pausedVcpus pc := by
    have ⟨_, phase⟩ := sound.stage pauser (by rw [pc]; rfl)
    rw [pc] at phase
    obtain ⟨count, _, total⟩ := phase.total
    omega
  awaited pauser pausedVcpus pc fewer event := by
    have ⟨_, phase⟩ := sound.stage pauser (by rw [pc]; rfl)
    rw [pc] at phase
    obtain ⟨count, same, total⟩ := phase.total
    rw [event] at same
    cases same
    have positive : 0 < machine.outstanding := by omega
    obtain ⟨vcpu, signalled⟩ := exists_of_tally_pos positive
    refine ⟨vcpu, signalled, ?_⟩
    rw [or_iff_not_imp_left]
    exact sound.handles signalled

/--
`kvm_pause` excludes the other pauses and the running vCPUs, in every
interleaving.
-/
theorem pause_excludes_vcpus (nrcpus : Nat) (moves : List (Move nrcpus)) :
    Throughout pauseStep Protocol (pauseStart nrcpus) moves :=
  throughout_of_step (fun _ sound => sound.protocol)
    (fun _ move sound => sound.step move) Sound.start moves

/-- A guest of one vCPU is paused. -/
example :
    let moves : List (Move 1) :=
      [.create 0, .pause 0, .pauser 0, .pauser 0, .pauser 0, .pauser 0,
        .vcpu 0, .vcpu 0, .vcpu 0, .pauser 0, .pauser 0, .pauser 0]
    (run pauseStep (pauseStart 1) moves).pausers 0 = .holding true ∧
      ((run pauseStep (pauseStart 1) moves).vcpus 0).pc = .lock := by
  decide

end Invariant

end Kemu.Init.Pause
