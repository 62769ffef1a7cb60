import Kemu.Lib.Transition
import Mathlib.Algebra.Group.Int.Defs
import Mathlib.Algebra.Group.Nat.Defs
import Mathlib.Data.Fintype.Basic
import Mathlib.Data.List.Nodup
import Mathlib.Logic.Function.Basic

/-!
# The thread pool

A job is called by counting it up, and the call that finds the count zero
puts it into the queue.  A worker takes a job out of the queue, runs its
callback and counts it down, and puts it back if the count is not zero then.
The count belongs to the mutex of the job, the queue to that of the pool, and
a cancellation clears the count of a queued job under the latter.
-/

namespace Kemu.Util.ThreadPool

open Kemu.Lib.Transition

universe u

/-! ## Threads -/

/-- Where a worker is: what it does next, or that it waits for `job_cond`. -/
inductive WorkerPc (Job : Type u) where
  | waiting
  /-- `thread_pool__threadfunc` takes a job, or waits. -/
  | checking
  /-- `thread_pool__handle_job` takes the next job, or returns. -/
  | popping
  /-- The callback returns. -/
  | callback (job : Job)
  | lock (job : Job)
  | decrement (job : Job)
  | push (job : Job)
  | unlock (job : Job)
deriving DecidableEq

/-- Where a thread is that calls `do_job` or `cancel_job`. -/
inductive CallerPc (Job : Type u) where
  | idle
  | lock (job : Job)
  | increment (job : Job)
  | push (job : Job)
  | unlock (job : Job)
  | signal (job : Job)
  /-- A turn of the loop of `thread_pool__cancel_job`. -/
  | cancel (job : Job)
deriving DecidableEq

/-- Who holds the mutex of a job. -/
inductive Owner (count : Nat) where
  | worker (worker : Fin count)
  | caller (caller : Nat)
deriving DecidableEq

/--
The pool: the queue, the jobs, the threads; and, for each job, how often
`do_job` counted it, how often its callback returned, how many calls a
cancellation dropped, and whether it is cancelled since it was last called.
-/
structure Pool (Job : Type u) (count : Nat) where
  queue : List Job
  signalcount : Job → Int
  mutex : Job → Option (Owner count)
  workers : Fin count → WorkerPc Job
  callers : Nat → CallerPc Job
  calls : Job → Nat
  runs : Job → Nat
  dropped : Job → Nat
  cancelled : Job → Bool

/-- `thread_pool__init`, with jobs from `thread_pool__init_job`. -/
def poolStart (Job : Type u) (count : Nat) : Pool Job count where
  queue := []
  signalcount := fun _ => 0
  mutex := fun _ => none
  workers := fun _ => .checking
  callers := fun _ => .idle
  calls := fun _ => 0
  runs := fun _ => 0
  dropped := fun _ => 0
  cancelled := fun _ => false

/-- What an `int` holds. -/
def wrapInt (value : Int) : Int :=
  Int.bmod value (2 ^ 32)

/-! ## Steps -/

variable {Job : Type u} {count : Nat}

section Steps

variable [DecidableEq Job]

/-- Another state of a worker. -/
def Pool.setWorker (pool : Pool Job count) (worker : Fin count)
    (pc : WorkerPc Job) : Pool Job count :=
  { pool with workers := Function.update pool.workers worker pc }

/-- Another state of a caller. -/
def Pool.setCaller (pool : Pool Job count) (caller : Nat)
    (pc : CallerPc Job) : Pool Job count :=
  { pool with callers := Function.update pool.callers caller pc }

/-- `thread_pool__job_pop_locked`, and where the worker goes without a job. -/
def Pool.pop (pool : Pool Job count) (worker : Fin count)
    (empty : WorkerPc Job) : Pool Job count :=
  match pool.queue with
  | [] => pool.setWorker worker empty
  | job :: rest =>
      { pool.setWorker worker (.callback job) with queue := rest }

/-- The next step of a worker. -/
def Pool.work (pool : Pool Job count) (worker : Fin count) :
    Pool Job count :=
  match pool.workers worker with
  | .waiting => pool
  | .checking => pool.pop worker .waiting
  | .popping => pool.pop worker .checking
  | .callback job =>
      { pool.setWorker worker (.lock job) with
        runs := Function.update pool.runs job (pool.runs job + 1) }
  | .lock job =>
      if pool.mutex job = none then
        { pool.setWorker worker (.decrement job) with
          mutex := Function.update pool.mutex job (some (.worker worker)) }
      else
        pool
  | .decrement job =>
      let signalcount := wrapInt (pool.signalcount job - 1)
      { pool.setWorker worker
          (if 0 < signalcount then .push job else .unlock job) with
        signalcount := Function.update pool.signalcount job signalcount }
  | .push job =>
      { pool.setWorker worker (.unlock job) with
        queue := pool.queue ++ [job] }
  | .unlock job =>
      { pool.setWorker worker .popping with
        mutex := Function.update pool.mutex job none }

/-- `pthread_cond_signal` wakes a worker that waits, if there is one. -/
def Pool.Wakes (pool : Pool Job count) : Option (Fin count) → Prop
  | some worker => pool.workers worker = .waiting
  | none => ∀ worker, pool.workers worker ≠ .waiting

instance (pool : Pool Job count) :
    (woken : Option (Fin count)) → Decidable (pool.Wakes woken)
  | some worker => inferInstanceAs (Decidable (pool.workers worker = _))
  | none => inferInstanceAs (Decidable (∀ worker, pool.workers worker ≠ _))

/-- The worker that was woken takes the lock of the queue again. -/
def Pool.wake (pool : Pool Job count) : Option (Fin count) → Pool Job count
  | some worker => pool.setWorker worker .checking
  | none => pool

/-- The next step of a caller; a signal wakes the given worker. -/
def Pool.call (pool : Pool Job count) (caller : Nat)
    (woken : Option (Fin count)) : Pool Job count :=
  match pool.callers caller with
  | .idle => pool
  | .lock job =>
      if pool.mutex job = none then
        { pool.setCaller caller (.increment job) with
          mutex := Function.update pool.mutex job (some (.caller caller)) }
      else
        pool
  | .increment job =>
      { pool.setCaller caller
          (if pool.signalcount job = 0 then .push job else .unlock job) with
        signalcount :=
          Function.update pool.signalcount job
            (wrapInt (pool.signalcount job + 1))
        calls := Function.update pool.calls job (pool.calls job + 1) }
  | .push job =>
      { pool.setCaller caller (.unlock job) with
        queue := pool.queue ++ [job] }
  | .unlock job =>
      { pool.setCaller caller (.signal job) with
        mutex := Function.update pool.mutex job none }
  | .signal _ =>
      if pool.Wakes woken then
        (pool.wake woken).setCaller caller .idle
      else
        pool
  | .cancel job =>
      if job ∈ pool.queue then
        { pool.setCaller caller .idle with
          queue := pool.queue.erase job
          signalcount := Function.update pool.signalcount job 0
          dropped :=
            Function.update pool.dropped job
              (pool.dropped job + (pool.signalcount job).toNat)
          cancelled := Function.update pool.cancelled job true }
      else if 0 < pool.signalcount job then
        pool
      else
        { pool.setCaller caller .idle with
          cancelled := Function.update pool.cancelled job true }

/--
What happens next: a call of `do_job` or `cancel_job` begins, a caller or a
worker goes on, or a worker wakes up without a signal.
-/
inductive Move (Job : Type u) (count : Nat) where
  | doJob (caller : Nat) (job : Job)
  | cancelJob (caller : Nat) (job : Job)
  | call (caller : Nat) (woken : Option (Fin count))
  | work (worker : Fin count)
  | wakeUp (worker : Fin count)

/-- One move. -/
def poolStep (pool : Pool Job count) : Move Job count → Pool Job count
  | .doJob caller job =>
      if pool.callers caller = .idle then
        { pool.setCaller caller (.lock job) with
          cancelled := Function.update pool.cancelled job false }
      else
        pool
  | .cancelJob caller job =>
      if pool.callers caller = .idle then
        pool.setCaller caller (.cancel job)
      else
        pool
  | .call caller woken => pool.call caller woken
  | .work worker => pool.work worker
  | .wakeUp worker =>
      if pool.workers worker = .waiting then
        pool.setWorker worker .checking
      else
        pool

end Steps

/-! ## What is expected -/

/-- The job that a worker holds, from the queue on and back to it. -/
@[grind]
def WorkerPc.held : WorkerPc Job → Option Job
  | .callback job | .lock job | .decrement job | .push job => some job
  | .waiting | .checking | .popping | .unlock _ => none

/-- The job whose call a caller is in. -/
@[grind]
def CallerPc.doing : CallerPc Job → Option Job
  | .lock job | .increment job | .push job | .unlock job | .signal job =>
      some job
  | .idle | .cancel _ => none

/-- The job is in the queue or held by a worker. -/
def Pool.Present (pool : Pool Job count) (job : Job) : Prop :=
  job ∈ pool.queue ∨ ∃ worker, (pool.workers worker).held = some job

/-- No thread of the pool and no call can go on. -/
def Pool.Still [DecidableEq Job] (pool : Pool Job count) : Prop :=
  (∀ worker, pool.work worker = pool) ∧
    ∀ caller woken, pool.call caller woken = pool

/-- The protocol of the jobs. -/
structure Protocol [DecidableEq Job] (pool : Pool Job count) : Prop where
  /-- Outside of the sections of its mutex. -/
  present :
    ∀ job, pool.mutex job = none →
      (pool.Present job ↔ 0 < pool.signalcount job)
  notBoth :
    ∀ job worker, (pool.workers worker).held = some job →
      job ∉ pool.queue
  once : pool.queue.Nodup
  alone :
    ∀ job worker other, (pool.workers worker).held = some job →
      (pool.workers other).held = some job → worker = other
  /-- From the return of `cancel_job` to the next call of `do_job`. -/
  cancelled : ∀ job, pool.cancelled job = true → ¬ pool.Present job
  /-- Never more runs than calls, and as many when all is done. -/
  runs : ∀ job, pool.runs job + pool.dropped job ≤ pool.calls job
  finished :
    0 < count → pool.Still →
      ∀ job, pool.runs job + pool.dropped job = pool.calls job

/-- Nobody calls a job that is being cancelled. -/
def Apart (pool : Pool Job count) : Move Job count → Prop
  | .doJob _ job => ∀ caller, pool.callers caller ≠ .cancel job
  | .cancelJob _ job => ∀ caller, (pool.callers caller).doing ≠ some job
  | .call _ _ | .work _ | .wakeUp _ => True

/-- The count of a job does not overflow. -/
def Fits (pool : Pool Job count) : Move Job count → Prop
  | .call caller _ =>
      ∀ job, pool.callers caller = .increment job →
        pool.signalcount job + 1 < 2 ^ 31
  | .doJob _ _ | .cancelJob _ _ | .work _ | .wakeUp _ => True

/-! ## Where a job is -/

/--
A job that is called and not yet done is in one place: with a caller that is
about to queue it, in the queue, or with a worker.
-/
inductive Place (count : Nat) where
  | nowhere
  | caller (caller : Nat)
  | queue
  | worker (worker : Fin count)
deriving DecidableEq

/-- Every job is in its place. -/
structure Placed (pool : Pool Job count) (place : Job → Place count) :
    Prop where
  queued : ∀ job, job ∈ pool.queue ↔ place job = .queue
  held :
    ∀ job worker,
      (pool.workers worker).held = some job ↔ place job = .worker worker
  pushing :
    ∀ job caller,
      pool.callers caller = .push job ↔ place job = .caller caller
  counted : ∀ job, place job = .nowhere ↔ pool.signalcount job = 0
  range :
    ∀ job, 0 ≤ pool.signalcount job ∧ pool.signalcount job < 2 ^ 31
  once : pool.queue.Nodup

section Places

variable {pool after : Pool Job count} {place : Job → Place count}

theorem wrapInt_of_range {value : Int} (low : 0 ≤ value)
    (high : value < 2 ^ 31) : wrapInt value = value := by
  unfold wrapInt
  rw [Int.bmod_eq_of_le]
  · omega
  · omega

/-- A change that a view of the values does not show. -/
theorem update_keeps {Key Value View : Type*} [DecidableEq Key]
    {values : Key → Value} {key : Key} {new : Value} (view : Value → View)
    (same : view new = view (values key)) (other : Key) :
    view (Function.update values key new other) = view (values other) := by
  rw [Function.update_apply]
  split
  next here => rw [here, same]
  next => rfl

/-- Every job stays where it is. -/
theorem Placed.keep (placed : Placed pool place)
    (queue : after.queue = pool.queue)
    (signalcount : after.signalcount = pool.signalcount)
    (workers :
      ∀ worker, (after.workers worker).held = (pool.workers worker).held)
    (callers :
      ∀ job caller, after.callers caller = .push job ↔
        pool.callers caller = .push job) :
    ∃ place, Placed after place := by
  refine ⟨place, ?_, ?_, ?_, ?_, ?_, ?_⟩
  · rw [queue]
    exact placed.queued
  · intro job worker
    rw [workers]
    exact placed.held job worker
  · intro job caller
    rw [callers]
    exact placed.pushing job caller
  · rw [signalcount]
    exact placed.counted
  · rw [signalcount]
    exact placed.range
  · rw [queue]
    exact placed.once

/-- The caller is not at the push, before and after. -/
theorem push_update {caller : Nat} {pc : CallerPc Job}
    (before : ∀ job, pool.callers caller ≠ .push job)
    (new : ∀ job, pc ≠ .push job) (job : Job) (other : Nat) :
    Function.update pool.callers caller pc other = .push job ↔
      pool.callers other = .push job := by
  rw [Function.update_apply]
  split
  next here =>
    rw [here]
    exact iff_of_false (new job) (before job)
  next => exact Iff.rfl

variable [DecidableEq Job]

/-- A worker takes the first job of the queue. -/
theorem Placed.pop (placed : Placed pool place) (worker : Fin count)
    {empty : WorkerPc Job} (free : (pool.workers worker).held = none)
    (idle : empty.held = none) :
    ∃ place, Placed (pool.pop worker empty) place := by
  unfold Pool.pop
  cases queue : pool.queue with
  | nil =>
      exact
        placed.keep rfl rfl
          (update_keeps WorkerPc.held (idle.trans free.symm))
          fun _ _ => Iff.rfl
  | cons job rest =>
      have ⟨queued, held, pushing, counted, range, once⟩ := placed
      refine ⟨Function.update place job (.worker worker), ?_⟩
      constructor
      all_goals
        simp only [Pool.setWorker, Function.update_apply]
        grind

theorem Placed.work (placed : Placed pool place) (worker : Fin count) :
    ∃ place, Placed (pool.work worker) place := by
  have ⟨queued, held, pushing, counted, range, once⟩ := placed
  unfold Pool.work
  cases pc : pool.workers worker with
  | waiting => exact ⟨place, placed⟩
  | checking => exact placed.pop worker (by rw [pc]; rfl) rfl
  | popping => exact placed.pop worker (by rw [pc]; rfl) rfl
  | callback job =>
      exact
        placed.keep rfl rfl (update_keeps WorkerPc.held (by rw [pc]; rfl))
          fun _ _ => Iff.rfl
  | lock job =>
      dsimp only
      split
      · exact
          placed.keep rfl rfl
            (update_keeps WorkerPc.held (by rw [pc]; rfl))
            fun _ _ => Iff.rfl
      · exact ⟨place, placed⟩
  | decrement job =>
      have here : place job = .worker worker :=
        (held job worker).1 (by rw [pc]; rfl)
      have positive : pool.signalcount job ≠ 0 := by
        intro zero
        have nowhere := (counted job).2 zero
        rw [here] at nowhere
        cases nowhere
      have bounds := range job
      dsimp only
      rw [wrapInt_of_range (by omega) (by omega)]
      refine
        ⟨if 0 < pool.signalcount job - 1 then
            place
          else
            Function.update place job .nowhere,
          ?_⟩
      constructor
      all_goals
        simp only [Pool.setWorker, Function.update_apply]
        grind
  | push job =>
      have here : place job = .worker worker :=
        (held job worker).1 (by rw [pc]; rfl)
      refine ⟨Function.update place job .queue, ?_⟩
      constructor
      all_goals
        simp only [Pool.setWorker, Function.update_apply]
        grind
  | unlock job =>
      exact
        placed.keep rfl rfl (update_keeps WorkerPc.held (by rw [pc]; rfl))
          fun _ _ => Iff.rfl

theorem Placed.call (placed : Placed pool place) (caller : Nat)
    (woken : Option (Fin count)) (fits : Fits pool (.call caller woken)) :
    ∃ place, Placed (pool.call caller woken) place := by
  have ⟨queued, held, pushing, counted, range, once⟩ := placed
  unfold Pool.call
  cases pc : pool.callers caller with
  | idle => exact ⟨place, placed⟩
  | lock job =>
      dsimp only
      split
      · exact
          placed.keep rfl rfl (fun _ => rfl)
            (push_update (by rw [pc]; exact nofun) nofun)
      · exact ⟨place, placed⟩
  | increment job =>
      have bounds := range job
      have fits := fits job pc
      dsimp only
      rw [wrapInt_of_range (by omega) fits]
      refine
        ⟨if pool.signalcount job = 0 then
            Function.update place job (.caller caller)
          else
            place,
          ?_⟩
      constructor
      all_goals
        simp only [Pool.setCaller, Function.update_apply]
        grind
  | push job =>
      have here := (pushing job caller).1 pc
      refine ⟨Function.update place job .queue, ?_⟩
      constructor
      all_goals
        simp only [Pool.setCaller, Function.update_apply]
        grind
  | unlock job =>
      exact
        placed.keep rfl rfl (fun _ => rfl)
          (push_update (by rw [pc]; exact nofun) nofun)
  | signal job =>
      have away (job : Job) : pool.callers caller ≠ .push job := by
        rw [pc]
        exact nofun
      have quiet := @push_update _ _ pool caller .idle away nofun
      dsimp only
      split
      next wakes =>
        cases woken with
        | none => exact placed.keep rfl rfl (fun _ => rfl) quiet
        | some worker =>
            have waits : pool.workers worker = .waiting := wakes
            exact
              placed.keep rfl rfl
                (update_keeps WorkerPc.held (by rw [waits]; rfl)) quiet
      next => exact ⟨place, placed⟩
  | cancel job =>
      dsimp only
      split
      next queue =>
        -- a job in the queue is nowhere else
        have erased (other : Job) :
            other ∈ pool.queue.erase job ↔
              other ≠ job ∧ other ∈ pool.queue :=
          once.mem_erase_iff
        have still := once.erase job
        have here := (queued job).1 queue
        refine ⟨Function.update place job .nowhere, ?_⟩
        constructor
        all_goals
          simp only [Pool.setCaller, Function.update_apply]
          grind
      next =>
        split
        · exact ⟨place, placed⟩
        · exact
            placed.keep rfl rfl (fun _ => rfl)
              (push_update (by rw [pc]; exact nofun) nofun)

end Places

/-! ## Who holds a mutex -/

/-- The job whose mutex a worker has. -/
@[grind]
def WorkerPc.inside : WorkerPc Job → Option Job
  | .decrement job | .push job | .unlock job => some job
  | .waiting | .checking | .popping | .callback _ | .lock _ => none

/-- The job whose mutex a caller has. -/
@[grind]
def CallerPc.inside : CallerPc Job → Option Job
  | .increment job | .push job | .unlock job => some job
  | .idle | .lock _ | .signal _ | .cancel _ => none

/-- A thread is in a section of a job if it has the mutex of the job. -/
structure Locked (pool : Pool Job count) : Prop where
  worker :
    ∀ job worker, (pool.workers worker).inside = some job ↔
      pool.mutex job = some (.worker worker)
  caller :
    ∀ job caller, (pool.callers caller).inside = some job ↔
      pool.mutex job = some (.caller caller)

section Mutex

variable {pool after : Pool Job count}

theorem Locked.keep (locked : Locked pool) (mutex : after.mutex = pool.mutex)
    (workers :
      ∀ worker, (after.workers worker).inside = (pool.workers worker).inside)
    (callers :
      ∀ caller,
        (after.callers caller).inside = (pool.callers caller).inside) :
    Locked after := by
  constructor
  · intro job worker
    rw [workers, mutex]
    exact locked.worker job worker
  · intro job caller
    rw [callers, mutex]
    exact locked.caller job caller

theorem Locked.pop (locked : Locked pool) (worker : Fin count)
    {empty : WorkerPc Job} (free : (pool.workers worker).inside = none)
    (idle : empty.inside = none) : Locked (pool.pop worker empty) := by
  unfold Pool.pop
  cases queue : pool.queue with
  | nil =>
      exact
        locked.keep rfl
          (update_keeps WorkerPc.inside (idle.trans free.symm)) fun _ => rfl
  | cons job rest =>
      exact
        locked.keep rfl (update_keeps WorkerPc.inside free.symm)
          fun _ => rfl

variable [DecidableEq Job]

theorem Locked.work (locked : Locked pool) (worker : Fin count) :
    Locked (pool.work worker) := by
  have ⟨workers, callers⟩ := locked
  unfold Pool.work
  cases pc : pool.workers worker with
  | waiting => exact locked
  | checking => exact locked.pop worker (by rw [pc]; rfl) rfl
  | popping => exact locked.pop worker (by rw [pc]; rfl) rfl
  | callback job =>
      exact
        locked.keep rfl (update_keeps WorkerPc.inside (by rw [pc]; rfl))
          fun _ => rfl
  | lock job =>
      dsimp only
      split
      next free =>
        constructor
        all_goals
          simp only [Pool.setWorker, Function.update_apply]
          grind
      next => exact locked
  | decrement job =>
      refine locked.keep rfl (update_keeps WorkerPc.inside ?_) fun _ => rfl
      rw [pc]
      split
      · rfl
      · rfl
  | push job =>
      exact
        locked.keep rfl (update_keeps WorkerPc.inside (by rw [pc]; rfl))
          fun _ => rfl
  | unlock job =>
      have here := (workers job worker).1 (by rw [pc]; rfl)
      constructor
      all_goals
        simp only [Pool.setWorker, Function.update_apply]
        grind

theorem Locked.call (locked : Locked pool) (caller : Nat)
    (woken : Option (Fin count)) : Locked (pool.call caller woken) := by
  have ⟨workers, callers⟩ := locked
  unfold Pool.call
  cases pc : pool.callers caller with
  | idle => exact locked
  | lock job =>
      dsimp only
      split
      next free =>
        constructor
        all_goals
          simp only [Pool.setCaller, Function.update_apply]
          grind
      next => exact locked
  | increment job =>
      refine locked.keep rfl (fun _ => rfl) (update_keeps CallerPc.inside ?_)
      rw [pc]
      split
      · rfl
      · rfl
  | push job =>
      exact
        locked.keep rfl (fun _ => rfl)
          (update_keeps CallerPc.inside (by rw [pc]; rfl))
  | unlock job =>
      have here := (callers job caller).1 (by rw [pc]; rfl)
      constructor
      all_goals
        simp only [Pool.setCaller, Function.update_apply]
        grind
  | signal job =>
      have quiet :=
        @update_keeps _ _ _ _ pool.callers caller .idle CallerPc.inside
          (by rw [pc]; rfl)
      dsimp only
      split
      next wakes =>
        cases woken with
        | none => exact locked.keep rfl (fun _ => rfl) quiet
        | some worker =>
            have waits : pool.workers worker = .waiting := wakes
            exact
              locked.keep rfl
                (update_keeps WorkerPc.inside (by rw [waits]; rfl)) quiet
      next => exact locked
  | cancel job =>
      have quiet :=
        @update_keeps _ _ _ _ pool.callers caller .idle CallerPc.inside
          (by rw [pc]; rfl)
      dsimp only
      split
      · exact locked.keep rfl (fun _ => rfl) quiet
      · split
        · exact locked
        · exact locked.keep rfl (fun _ => rfl) quiet

end Mutex

/-! ## Calls and runs -/

/-- The job whose callback returned and which is not yet counted down. -/
@[grind]
def WorkerPc.late : WorkerPc Job → Option Job
  | .lock job | .decrement job => some job
  | .waiting | .checking | .popping | .callback _ | .push _ | .unlock _ =>
      none

/-- A call is counted until its run is over, or it is dropped. -/
structure Counts (pool : Pool Job count) : Prop where
  early :
    ∀ job, (∀ worker, (pool.workers worker).late ≠ some job) →
      (pool.runs job + pool.dropped job + pool.signalcount job : Int) =
        pool.calls job
  late :
    ∀ job worker, (pool.workers worker).late = some job →
      (pool.runs job + pool.dropped job + pool.signalcount job : Int) =
        pool.calls job + 1

section Counting

variable {pool after : Pool Job count} {place : Job → Place count}

theorem Counts.keep (counts : Counts pool)
    (signalcount : after.signalcount = pool.signalcount)
    (calls : after.calls = pool.calls) (runs : after.runs = pool.runs)
    (dropped : after.dropped = pool.dropped)
    (workers :
      ∀ worker, (after.workers worker).late = (pool.workers worker).late) :
    Counts after := by
  constructor
  · simp only [signalcount, calls, runs, dropped, workers]
    exact counts.early
  · simp only [signalcount, calls, runs, dropped, workers]
    exact counts.late

theorem Counts.pop (counts : Counts pool) (worker : Fin count)
    {empty : WorkerPc Job} (free : (pool.workers worker).late = none)
    (idle : empty.late = none) : Counts (pool.pop worker empty) := by
  unfold Pool.pop
  cases queue : pool.queue with
  | nil =>
      exact
        counts.keep rfl rfl rfl rfl
          (update_keeps WorkerPc.late (idle.trans free.symm))
  | cons job rest =>
      exact
        counts.keep rfl rfl rfl rfl (update_keeps WorkerPc.late free.symm)

/-- No other worker has the job. -/
theorem Placed.alone (placed : Placed pool place) {job : Job}
    {worker other : Fin count}
    (one : (pool.workers worker).held = some job)
    (two : (pool.workers other).held = some job) : worker = other := by
  have first := (placed.held job worker).1 one
  have second := (placed.held job other).1 two
  rw [first] at second
  cases second
  rfl

theorem held_of_late {pc : WorkerPc Job} {job : Job}
    (late : pc.late = some job) : pc.held = some job := by
  cases pc
  all_goals first | exact late | cases late

variable [DecidableEq Job]

theorem Counts.work (counts : Counts pool) (placed : Placed pool place)
    (worker : Fin count) : Counts (pool.work worker) := by
  have ⟨early, late⟩ := counts
  unfold Pool.work
  cases pc : pool.workers worker with
  | waiting => exact counts
  | checking => exact counts.pop worker (by rw [pc]; rfl) rfl
  | popping => exact counts.pop worker (by rw [pc]; rfl) rfl
  | callback job =>
      have mine : (pool.workers worker).held = some job := by rw [pc]; rfl
      have none (other : Fin count) :
          (pool.workers other).late ≠ some job := by
        intro same
        have one := placed.alone mine (held_of_late same)
        rw [← one, pc] at same
        cases same
      constructor
      all_goals
        simp only [Pool.setWorker, Function.update_apply]
        grind
  | lock job =>
      dsimp only
      split
      · exact
          counts.keep rfl rfl rfl rfl
            (update_keeps WorkerPc.late (by rw [pc]; rfl))
      · exact counts
  | decrement job =>
      have mine : (pool.workers worker).held = some job := by rw [pc]; rfl
      have alone (other : Fin count)
          (same : (pool.workers other).late = some job) : worker = other :=
        placed.alone mine (held_of_late same)
      have now := late job worker (by rw [pc]; rfl)
      have here := (placed.held job worker).1 mine
      have counted := placed.counted job
      have bounds := placed.range job
      dsimp only
      have positive : pool.signalcount job ≠ 0 := by
        intro zero
        have nowhere := counted.2 zero
        rw [here] at nowhere
        cases nowhere
      rw [wrapInt_of_range (by omega) (by omega)]
      constructor
      all_goals
        simp only [Pool.setWorker, Function.update_apply]
        grind
  | push job =>
      exact
        counts.keep rfl rfl rfl rfl
          (update_keeps WorkerPc.late (by rw [pc]; rfl))
  | unlock job =>
      exact
        counts.keep rfl rfl rfl rfl
          (update_keeps WorkerPc.late (by rw [pc]; rfl))

theorem Counts.call (counts : Counts pool) (placed : Placed pool place)
    (caller : Nat) (woken : Option (Fin count))
    (fits : Fits pool (.call caller woken)) :
    Counts (pool.call caller woken) := by
  have ⟨early, late⟩ := counts
  unfold Pool.call
  cases pc : pool.callers caller with
  | idle => exact counts
  | lock job =>
      dsimp only
      split
      · exact counts.keep rfl rfl rfl rfl fun _ => rfl
      · exact counts
  | increment job =>
      have bounds := placed.range job
      have fits := fits job pc
      dsimp only
      rw [wrapInt_of_range (by omega) fits]
      constructor
      all_goals
        simp only [Pool.setCaller, Function.update_apply]
        grind
  | push job => exact counts.keep rfl rfl rfl rfl fun _ => rfl
  | unlock job => exact counts.keep rfl rfl rfl rfl fun _ => rfl
  | signal job =>
      dsimp only
      split
      next wakes =>
        cases woken with
        | none => exact counts.keep rfl rfl rfl rfl fun _ => rfl
        | some worker =>
            have waits : pool.workers worker = .waiting := wakes
            exact
              counts.keep rfl rfl rfl rfl
                (update_keeps WorkerPc.late (by rw [waits]; rfl))
      next => exact counts
  | cancel job =>
      have bounds := placed.range job
      dsimp only
      split
      · constructor
        all_goals
          simp only [Pool.setCaller, Function.update_apply]
          grind
      · split
        · exact counts
        · exact counts.keep rfl rfl rfl rfl fun _ => rfl

end Counting

/-! ## Cancellations -/

/--
Nobody calls a job while it is being cancelled, and from then on until it is
called again.
-/
structure Cancels (pool : Pool Job count) : Prop where
  apart :
    ∀ job caller other, pool.callers caller = .cancel job →
      (pool.callers other).doing ≠ some job
  cancelled :
    ∀ job, pool.cancelled job = true →
      pool.signalcount job = 0 ∧
        ∀ caller, (pool.callers caller).doing ≠ some job

section Cancelling

variable {pool : Pool Job count} {place : Job → Place count}

theorem Cancels.pop (cancels : Cancels pool) (worker : Fin count)
    (empty : WorkerPc Job) : Cancels (pool.pop worker empty) := by
  unfold Pool.pop
  cases pool.queue with
  | nil => exact ⟨cancels.apart, cancels.cancelled⟩
  | cons job rest => exact ⟨cancels.apart, cancels.cancelled⟩

variable [DecidableEq Job]

theorem Cancels.work (cancels : Cancels pool) (placed : Placed pool place)
    (worker : Fin count) : Cancels (pool.work worker) := by
  have same := cancels
  obtain ⟨apart, cancelled⟩ := same
  unfold Pool.work
  cases pc : pool.workers worker with
  | waiting => exact cancels
  | checking => exact cancels.pop worker .waiting
  | popping => exact cancels.pop worker .checking
  | callback job => exact ⟨apart, cancelled⟩
  | lock job =>
      dsimp only
      split
      · exact ⟨apart, cancelled⟩
      · exact cancels
  | decrement job =>
      -- a job that a worker has is not cancelled
      have here := (placed.held job worker).1 (by rw [pc]; rfl)
      have counted := placed.counted job
      refine ⟨apart, ?_⟩
      simp only [Pool.setWorker, Function.update_apply]
      grind
  | push job => exact ⟨apart, cancelled⟩
  | unlock job => exact ⟨apart, cancelled⟩

theorem Cancels.call (cancels : Cancels pool) (placed : Placed pool place)
    (caller : Nat) (woken : Option (Fin count)) :
    Cancels (pool.call caller woken) := by
  have same := cancels
  obtain ⟨apart, cancelled⟩ := same
  unfold Pool.call
  cases pc : pool.callers caller with
  | idle => exact cancels
  | lock job =>
      dsimp only
      split
      · constructor
        all_goals
          simp only [Pool.setCaller, Function.update_apply]
          grind
      · exact cancels
  | increment job =>
      constructor
      all_goals
        simp only [Pool.setCaller, Function.update_apply]
        grind
  | push job =>
      constructor
      all_goals
        simp only [Pool.setCaller, Function.update_apply]
        grind
  | unlock job =>
      constructor
      all_goals
        simp only [Pool.setCaller, Function.update_apply]
        grind
  | signal job =>
      have ends :
          Cancels (pool.setCaller caller .idle) := by
        constructor
        all_goals
          simp only [Pool.setCaller, Function.update_apply]
          grind
      dsimp only
      split
      · cases woken with
        | none => exact ends
        | some worker => exact ⟨ends.apart, ends.cancelled⟩
      · exact cancels
  | cancel job =>
      have range := placed.range job
      dsimp only
      split
      · constructor
        all_goals
          simp only [Pool.setCaller, Function.update_apply]
          grind
      · split
        · exact cancels
        · constructor
          all_goals
            simp only [Pool.setCaller, Function.update_apply]
            grind

end Cancelling

/-! ## Signals -/

/-- The caller has still to signal that there is a job. -/
def CallerPc.Signals : CallerPc Job → Prop
  | .unlock _ | .signal _ => True
  | .idle | .lock _ | .increment _ | .push _ | .cancel _ => False

/-- A job in the queue is seen by a worker, or there will be a signal. -/
def Wakeful (pool : Pool Job count) : Prop :=
  pool.queue ≠ [] → 0 < count →
    (∃ worker, pool.workers worker ≠ .waiting) ∨
      ∃ caller, (pool.callers caller).Signals

section Signalling

variable {pool after : Pool Job count}

theorem Wakeful.keep (wakeful : Wakeful pool)
    (queue : after.queue ≠ [] → pool.queue ≠ [])
    (workers : ∀ worker, pool.workers worker ≠ .waiting →
      after.workers worker ≠ .waiting)
    (callers : ∀ caller, (pool.callers caller).Signals →
      (after.callers caller).Signals) :
    Wakeful after := by
  intro some' positive
  rcases wakeful (queue some') positive with
    ⟨worker, awake⟩ | ⟨caller, signals⟩
  · exact Or.inl ⟨worker, workers worker awake⟩
  · exact Or.inr ⟨caller, callers caller signals⟩

/-- A worker that does something is awake. -/
theorem wakeful_awake {worker : Fin count}
    (awake : after.workers worker ≠ .waiting) : Wakeful after :=
  fun _ _ => Or.inl ⟨worker, awake⟩

theorem setWorker_awake {worker : Fin count} {pc : WorkerPc Job}
    (awake : pc ≠ .waiting) :
    (pool.setWorker worker pc).workers worker ≠ .waiting := by
  show Function.update pool.workers worker pc worker ≠ .waiting
  rw [Function.update_self]
  exact awake

/-- Only a worker that finds the queue empty waits. -/
theorem wakeful_pop (pool : Pool Job count) (worker : Fin count)
    (empty : WorkerPc Job) : Wakeful (pool.pop worker empty) := by
  unfold Pool.pop
  cases queue : pool.queue with
  | nil => exact fun some' => absurd queue some'
  | cons job rest =>
      exact @wakeful_awake _ _ _ worker (setWorker_awake nofun)

/-- A change of a caller that has no signal to give. -/
theorem Wakeful.setCaller (wakeful : Wakeful pool) {caller : Nat}
    (quiet : ¬ (pool.callers caller).Signals) (pc : CallerPc Job)
    (queue : after.queue ≠ [] → pool.queue ≠ [])
    (workers : after.workers = pool.workers)
    (callers : after.callers = Function.update pool.callers caller pc) :
    Wakeful after := by
  apply wakeful.keep queue
  · rw [workers]
    exact fun _ awake => awake
  · intro other signals
    rw [callers, Function.update_of_ne]
    · exact signals
    · rintro rfl
      exact quiet signals

/-- A change of a caller to one that has. -/
theorem wakeful_signals {caller : Nat} {pc : CallerPc Job}
    (signals : pc.Signals)
    (callers : after.callers = Function.update pool.callers caller pc) :
    Wakeful after := by
  refine fun _ _ => Or.inr ⟨caller, ?_⟩
  rw [callers, Function.update_self]
  exact signals

variable [DecidableEq Job]

theorem Wakeful.work (wakeful : Wakeful pool) (worker : Fin count) :
    Wakeful (pool.work worker) := by
  unfold Pool.work
  cases pc : pool.workers worker with
  | waiting => exact wakeful
  | checking => exact wakeful_pop pool worker .waiting
  | popping => exact wakeful_pop pool worker .checking
  | callback job => exact @wakeful_awake _ _ _ worker (setWorker_awake nofun)
  | lock job =>
      dsimp only
      split
      · exact @wakeful_awake _ _ _ worker (setWorker_awake nofun)
      · exact wakeful
  | decrement job =>
      refine @wakeful_awake _ _ _ worker (setWorker_awake ?_)
      split
      · exact nofun
      · exact nofun
  | push job => exact @wakeful_awake _ _ _ worker (setWorker_awake nofun)
  | unlock job => exact @wakeful_awake _ _ _ worker (setWorker_awake nofun)

theorem Wakeful.call (wakeful : Wakeful pool) (caller : Nat)
    (woken : Option (Fin count)) : Wakeful (pool.call caller woken) := by
  unfold Pool.call
  cases pc : pool.callers caller with
  | idle => exact wakeful
  | lock job =>
      have quiet : ¬ (pool.callers caller).Signals := by rw [pc]; exact id
      dsimp only
      split
      · exact wakeful.setCaller quiet _ id rfl rfl
      · exact wakeful
  | increment job =>
      have quiet : ¬ (pool.callers caller).Signals := by rw [pc]; exact id
      exact wakeful.setCaller quiet _ id rfl rfl
  | push job =>
      exact @wakeful_signals _ _ pool _ caller (.unlock job) trivial rfl
  | unlock job =>
      exact @wakeful_signals _ _ pool _ caller (.signal job) trivial rfl
  | signal job =>
      dsimp only
      split
      next wakes =>
        cases woken with
        | some worker =>
            exact @wakeful_awake _ _ _ worker
              (@setWorker_awake _ _ pool worker .checking nofun)
        | none =>
            -- no worker waits
            exact fun _ positive => Or.inl ⟨⟨0, positive⟩, wakes _⟩
      next => exact wakeful
  | cancel job =>
      have quiet : ¬ (pool.callers caller).Signals := by rw [pc]; exact id
      dsimp only
      split
      next queued =>
        exact
          wakeful.setCaller quiet _ (fun _ => List.ne_nil_of_mem queued) rfl
            rfl
      next =>
        split
        · exact wakeful
        · exact wakeful.setCaller quiet _ id rfl rfl

end Signalling

/-! ## Every move -/

/-- The invariant. -/
structure Sound (pool : Pool Job count) : Prop where
  placed : ∃ place, Placed pool place
  locked : Locked pool
  counts : Counts pool
  cancels : Cancels pool
  wakeful : Wakeful pool

section Moves

theorem sound_start : Sound (poolStart Job count) where
  placed := by
    have fits : (0 : Int) < 2 ^ 31 := by decide
    refine ⟨fun _ => .nowhere, ?_⟩
    constructor
    · exact fun _ => iff_of_false nofun nofun
    · exact fun _ _ => iff_of_false nofun nofun
    · exact fun _ _ => iff_of_false nofun nofun
    · exact fun _ => iff_of_true rfl rfl
    · exact fun _ => ⟨Int.le_refl 0, fits⟩
    · exact List.nodup_nil
  locked := by
    constructor
    · exact fun _ _ => iff_of_false nofun nofun
    · exact fun _ _ => iff_of_false nofun nofun
  counts := ⟨fun _ _ => rfl, nofun⟩
  cancels := ⟨nofun, nofun⟩
  wakeful := fun some' => absurd rfl some'

variable {pool : Pool Job count}

/-- A caller that was idle begins a call. -/
theorem Sound.begin (sound : Sound pool) {caller : Nat}
    (idle : pool.callers caller = .idle) {pc : CallerPc Job}
    (first : pc.inside = none) {cancelled : Job → Bool}
    (cancels :
      Cancels { pool.setCaller caller pc with cancelled := cancelled }) :
    Sound { pool.setCaller caller pc with cancelled := cancelled } := by
  obtain ⟨place, placed⟩ := sound.placed
  have away (job : Job) : pool.callers caller ≠ .push job := by
    rw [idle]
    exact nofun
  have outside (job : Job) : pc ≠ .push job := by
    rintro rfl
    cases first
  have quiet : ¬ (pool.callers caller).Signals := by rw [idle]; exact id
  constructor
  · exact placed.keep rfl rfl (fun _ => rfl) (push_update away outside)
  · exact
      sound.locked.keep rfl (fun _ => rfl)
        (update_keeps CallerPc.inside (by rw [idle, first]; rfl))
  · exact sound.counts.keep rfl rfl rfl rfl fun _ => rfl
  · exact cancels
  · exact sound.wakeful.setCaller quiet _ id rfl rfl

variable [DecidableEq Job]

theorem Sound.step (sound : Sound pool) {move : Move Job count}
    (apart : Apart pool move) (fits : Fits pool move) :
    Sound (poolStep pool move) := by
  obtain ⟨place, placed⟩ := sound.placed
  have ⟨exclusive, cancelled⟩ := sound.cancels
  cases move with
  | doJob caller job =>
      unfold poolStep
      unfold Apart at apart
      dsimp only at apart ⊢
      split
      next idle =>
        apply sound.begin idle rfl
        constructor
        all_goals
          simp only [Pool.setCaller, Function.update_apply]
          grind
      next => exact sound
  | cancelJob caller job =>
      unfold poolStep
      unfold Apart at apart
      dsimp only at apart ⊢
      split
      next idle =>
        apply @Sound.begin _ _ _ sound _ idle (.cancel job) rfl
          pool.cancelled
        constructor
        all_goals
          simp only [Pool.setCaller, Function.update_apply]
          grind
      next => exact sound
  | call caller woken =>
      exact
        ⟨placed.call caller woken fits, sound.locked.call caller woken,
          sound.counts.call placed caller woken fits,
          sound.cancels.call placed caller woken,
          sound.wakeful.call caller woken⟩
  | work worker =>
      exact
        ⟨placed.work worker, sound.locked.work worker,
          sound.counts.work placed worker, sound.cancels.work placed worker,
          sound.wakeful.work worker⟩
  | wakeUp worker =>
      unfold poolStep
      dsimp only
      split
      next waits =>
        constructor
        · exact
            placed.keep rfl rfl
              (update_keeps WorkerPc.held (by rw [waits]; rfl))
              fun _ _ => Iff.rfl
        · exact
            sound.locked.keep rfl
              (update_keeps WorkerPc.inside (by rw [waits]; rfl))
              fun _ => rfl
        · exact
            sound.counts.keep rfl rfl rfl rfl
              (update_keeps WorkerPc.late (by rw [waits]; rfl))
        · exact ⟨exclusive, cancelled⟩
        · exact @wakeful_awake _ _ _ worker (setWorker_awake nofun)
      next => exact sound

end Moves

/-! ## When nothing goes on -/

section Still

variable [DecidableEq Job] {pool : Pool Job count}

/-- A worker that cannot go on waits for a signal or for a mutex. -/
theorem worker_of_still (still : pool.Still) (worker : Fin count) :
    pool.workers worker = .waiting ∨
      ∃ job, pool.workers worker = .lock job ∧ pool.mutex job ≠ none := by
  have same : (pool.work worker).workers worker = pool.workers worker := by
    rw [still.1 worker]
  unfold Pool.work Pool.pop Pool.setWorker at same
  cases pc : pool.workers worker with
  | waiting => exact Or.inl rfl
  | lock job =>
      refine Or.inr ⟨job, rfl, fun free => ?_⟩
      simp [pc, free] at same
  | checking =>
      cases queue : pool.queue with
      | nil => simp [pc, queue] at same
      | cons job rest => simp [pc, queue] at same
  | popping =>
      cases queue : pool.queue with
      | nil => simp [pc, queue] at same
      | cons job rest => simp [pc, queue] at same
  | callback job => simp [pc] at same
  | decrement job =>
      simp only [pc, Function.update_self] at same
      split at same
      · cases same
      · cases same
  | push job => simp [pc] at same
  | unlock job => simp [pc] at same

/-- A caller that cannot go on is idle, or waits for a mutex or a run. -/
theorem caller_of_still (still : pool.Still) (caller : Nat) :
    pool.callers caller = .idle ∨
      (∃ job, pool.callers caller = .lock job ∧ pool.mutex job ≠ none) ∨
        ∃ job, pool.callers caller = .cancel job := by
  have woken : ∃ woken, pool.Wakes woken := by
    by_cases some' : ∃ worker, pool.workers worker = .waiting
    · obtain ⟨worker, waits⟩ := some'
      exact ⟨some worker, waits⟩
    · exact ⟨none, fun worker waits => some' ⟨worker, waits⟩⟩
  obtain ⟨woken, wakes⟩ := woken
  have same :
      (pool.call caller woken).callers caller = pool.callers caller := by
    rw [still.2 caller woken]
  unfold Pool.call Pool.setCaller at same
  cases pc : pool.callers caller with
  | idle => exact Or.inl rfl
  | lock job =>
      refine Or.inr (Or.inl ⟨job, rfl, fun free => ?_⟩)
      simp [pc, free] at same
  | cancel job => exact Or.inr (Or.inr ⟨job, rfl⟩)
  | increment job =>
      simp only [pc, Function.update_self] at same
      split at same
      · cases same
      · cases same
  | push job => simp [pc] at same
  | unlock job => simp [pc] at same
  | signal job => simp [pc, wakes] at same

/-- No mutex is held: who holds one can go on. -/
theorem Locked.free (locked : Locked pool) (still : pool.Still) (job : Job) :
    pool.mutex job = none := by
  cases owner : pool.mutex job with
  | none => rfl
  | some owner' =>
      cases owner' with
      | worker worker =>
          have inside := (locked.worker job worker).2 owner
          rcases worker_of_still still worker with
            waits | ⟨other, waits, -⟩
          · rw [waits] at inside
            cases inside
          · rw [waits] at inside
            cases inside
      | caller caller =>
          have inside := (locked.caller job caller).2 owner
          rcases caller_of_still still caller with
            idle | ⟨other, waits, -⟩ | ⟨other, cancels⟩
          · rw [idle] at inside
            cases inside
          · rw [waits] at inside
            cases inside
          · rw [cancels] at inside
            cases inside

/-- Every call has been run or dropped. -/
theorem Sound.finished (sound : Sound pool) (positive : 0 < count)
    (still : pool.Still) (job : Job) :
    pool.runs job + pool.dropped job = pool.calls job := by
  have free := sound.locked.free still
  have waits (worker : Fin count) : pool.workers worker = .waiting := by
    rcases worker_of_still still worker with waits | ⟨other, -, held⟩
    · exact waits
    · exact absurd (free other) held
  have rests (caller : Nat) :
      pool.callers caller = .idle ∨
        ∃ job, pool.callers caller = .cancel job := by
    rcases caller_of_still still caller with
      idle | ⟨other, -, held⟩ | cancels
    · exact Or.inl idle
    · exact absurd (free other) held
    · exact Or.inr cancels
  have queue : pool.queue = [] := by
    by_contra some'
    rcases sound.wakeful some' positive with
      ⟨worker, awake⟩ | ⟨caller, signals⟩
    · exact awake (waits worker)
    · rcases rests caller with idle | ⟨other, cancels⟩
      · rw [idle] at signals
        exact signals
      · rw [cancels] at signals
        exact signals
  obtain ⟨place, placed⟩ := sound.placed
  have nowhere : place job = .nowhere := by
    cases here : place job with
    | nowhere => rfl
    | caller caller =>
        have pushes := (placed.pushing job caller).2 here
        rcases rests caller with idle | ⟨other, cancels⟩
        · rw [idle] at pushes
          cases pushes
        · rw [cancels] at pushes
          cases pushes
    | queue =>
        have queued := (placed.queued job).2 here
        rw [queue] at queued
        cases queued
    | worker worker =>
        have held := (placed.held job worker).2 here
        rw [waits worker] at held
        cases held
  have zero := (placed.counted job).1 nowhere
  have counted := sound.counts.early job fun worker late => by
    rw [waits worker] at late
    cases late
  omega

end Still

/-! ## The protocol holds unless a count overflows -/

section Runs

variable {pool : Pool Job count}

/-- A job is in the queue or held unless it is nowhere or being pushed. -/
theorem Placed.present_iff {place : Job → Place count}
    (placed : Placed pool place) (job : Job) :
    pool.Present job ↔
      place job = .queue ∨ ∃ worker, place job = .worker worker := by
  unfold Pool.Present
  rw [placed.queued]
  exact or_congr Iff.rfl (exists_congr fun worker => placed.held job worker)

variable [DecidableEq Job]

theorem Sound.protocol (sound : Sound pool) : Protocol pool := by
  obtain ⟨place, placed⟩ := sound.placed
  constructor
  · intro job free
    have positive : 0 < pool.signalcount job ↔ place job ≠ .nowhere := by
      rw [ne_eq, placed.counted]
      have bounds := placed.range job
      omega
    rw [placed.present_iff, positive]
    cases here : place job with
    | nowhere => simp
    | queue => simp
    | worker worker => simp
    | caller caller =>
        -- the caller would have the mutex
        have pushes := (placed.pushing job caller).2 here
        have owner := (sound.locked.caller job caller).1 (by rw [pushes]; rfl)
        rw [free] at owner
        cases owner
  · intro job worker held queued
    have one := (placed.held job worker).1 held
    rw [(placed.queued job).1 queued] at one
    cases one
  · exact placed.once
  · exact fun _ _ _ one two => placed.alone one two
  · intro job cancelled
    have zero := (sound.cancels.cancelled job cancelled).1
    rw [placed.present_iff, (placed.counted job).2 zero]
    simp
  · intro job
    have bounds := placed.range job
    by_cases late : ∃ worker, (pool.workers worker).late = some job
    · obtain ⟨worker, late⟩ := late
      have counted := sound.counts.late job worker late
      have held := (placed.held job worker).1 (held_of_late late)
      have positive : pool.signalcount job ≠ 0 := by
        intro zero
        rw [(placed.counted job).2 zero] at held
        cases held
      omega
    · have counted := sound.counts.early job (not_exists.1 late)
      omega
  · exact fun positive still => sound.finished positive still

/--
In every run in which nobody calls a job that is being cancelled, and in
which no count overflows, the protocol holds in every state.
-/
theorem job_protocol (moves : List (Move Job count))
    (apart : Along poolStep Apart (poolStart Job count) moves)
    (fits : Along poolStep Fits (poolStart Job count) moves) :
    Throughout poolStep Protocol (poolStart Job count) moves := by
  have kept (pool : Pool Job count) (move : Move Job count)
      (sound : Sound pool) (allowed : Apart pool move ∧ Fits pool move) :
      Sound (poolStep pool move) :=
    sound.step allowed.1 allowed.2
  exact
    throughout_of_along (fun _ => Sound.protocol) kept sound_start
      (apart.and fits)

/-- One worker and one job: a call, and its run. -/
def oneRun : List (Move Unit 1) :=
  .doJob 0 () :: List.replicate 5 (.call 0 none) ++
    List.replicate 6 (.work 0)

/-- The job is run once. -/
theorem job_protocol_one :
    Throughout poolStep Protocol (poolStart Unit 1) oneRun ∧
      (run poolStep (poolStart Unit 1) oneRun).runs () = 1 := by
  refine ⟨job_protocol oneRun ?_ ?_, by decide +kernel⟩
  · exact
      ⟨nofun, trivial, trivial, trivial, trivial, trivial, trivial, trivial,
        trivial, trivial, trivial, trivial, trivial⟩
  · have one (value : Int) (zero : value = 0) : value + 1 < 2 ^ 31 := by
      rw [zero]
      decide
    exact
      ⟨trivial, fun _ _ => one _ rfl, fun _ _ => one _ rfl, nofun, nofun,
        nofun, trivial, trivial, trivial, trivial, trivial, trivial, trivial⟩

end Runs

/-! ## A count that overflows -/

/-- A call of the one job. -/
def oneCall : List (Move Unit 1) :=
  .doJob 0 () :: List.replicate 5 (.call 0 none)

/-- Calls of the one job, while the worker does not come to run. -/
def manyCalls (calls : Nat) : List (Move Unit 1) :=
  (List.replicate calls oneCall).flatten

/-- The pool after some of them. -/
def crowded (signals : Int) (calls : Nat) : Pool Unit 1 where
  queue := [()]
  signalcount := fun _ => signals
  mutex := fun _ => none
  workers := fun _ => .checking
  callers := fun _ => .idle
  calls := fun _ => calls
  runs := fun _ => 0
  dropped := fun _ => 0
  cancelled := fun _ => false

theorem update_unit {Value : Type*} (values : Unit → Value) (new : Value) :
    Function.update values () new = fun _ => new := by
  funext key
  exact Function.update_self () new values

theorem first_call :
    run poolStep (poolStart Unit 1) oneCall = crowded 1 1 := by
  have one : wrapInt 1 = 1 := by decide
  simp [oneCall, poolStart, poolStep, Pool.call, crowded, Pool.setCaller,
    Pool.Wakes, Pool.wake, List.replicate, update_unit, one]

theorem next_call {signals : Int} (some' : signals ≠ 0) (calls : Nat) :
    run poolStep (crowded signals calls) oneCall =
      crowded (wrapInt (signals + 1)) (calls + 1) := by
  simp [oneCall, poolStep, Pool.call, crowded, Pool.setCaller, Pool.Wakes,
    Pool.wake, List.replicate, update_unit, some']

theorem manyCalls_succ (calls : Nat) :
    manyCalls (calls + 1) = manyCalls calls ++ oneCall := by
  rw [manyCalls, List.replicate_succ', List.flatten_append,
    List.flatten_singleton]
  rfl

/-- The worker has all the calls before it. -/
theorem run_manyCalls {calls : Nat} (fits : calls + 1 < 2 ^ 31) :
    run poolStep (poolStart Unit 1) (manyCalls (calls + 1)) =
      crowded (calls + 1) (calls + 1) := by
  induction calls with
  | zero => exact first_call
  | succ calls induction =>
      have some' : (calls + 1 : Int) ≠ 0 := by omega
      rw [manyCalls_succ, run_append, induction (by omega),
        next_call some', wrapInt_of_range (by omega) (by omega)]
      rfl

/-- Nobody cancels the job. -/
theorem apart_manyCalls {calls : Nat} (fits : calls ≤ 2 ^ 31) :
    Along poolStep Apart (poolStart Unit 1) (manyCalls calls) := by
  induction calls with
  | zero => trivial
  | succ calls induction =>
      rw [manyCalls_succ, along_append]
      refine ⟨induction (by omega), ?_⟩
      cases calls with
      | zero =>
          exact ⟨nofun, trivial, trivial, trivial, trivial, trivial, trivial⟩
      | succ calls =>
          rw [run_manyCalls (by omega)]
          exact ⟨nofun, trivial, trivial, trivial, trivial, trivial, trivial⟩

/-- The call after the greatest count makes the count negative. -/
theorem overflow {calls : Nat} (last : calls + 2 = 2 ^ 31) :
    run poolStep (poolStart Unit 1) (manyCalls (calls + 2)) =
      crowded (-2 ^ 31) (calls + 2) := by
  have some' : (calls + 1 : Int) ≠ 0 := by omega
  have wraps : wrapInt (calls + 1 + 1 : Int) = -2 ^ 31 := by
    have count : (calls + 1 + 1 : Int) = 2 ^ 31 := by omega
    rw [count]
    decide
  rw [manyCalls_succ, run_append, run_manyCalls (by omega), next_call some',
    wraps]

/-- After 2 ^ 31 calls the job is in the queue and its count is negative. -/
theorem not_always_protocol :
    ¬ ∀ (count : Nat) (moves : List (Move Unit count)),
        Along poolStep Apart (poolStart Unit count) moves →
          Throughout poolStep Protocol (poolStart Unit count) moves := by
  intro always
  have last : 2147483646 + 2 = 2 ^ 31 := by decide
  have protocol :=
    always 1 (manyCalls (2147483646 + 2))
      (apart_manyCalls (Nat.le_of_eq last))
  rw [← List.append_nil (manyCalls (2147483646 + 2)), throughout_append,
    overflow last] at protocol
  have positive : (0 : Int) < -2 ^ 31 :=
    (protocol.2.present () rfl).1 (Or.inl List.mem_cons_self)
  exact absurd positive (by decide)

end Kemu.Util.ThreadPool
