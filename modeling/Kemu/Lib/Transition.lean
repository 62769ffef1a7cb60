import Mathlib.Data.List.Basic

/-!
# Transition systems, runs and inductive invariants

Two presentations of a stateful component are used throughout.  A `System`
is a nondeterministic step relation with a set of initial states; it models
parties whose atomic steps interleave.  A machine is a total step function
fed with a list of inputs; it models code that is called again and again by
an environment which chooses every argument and every outcome of the calls
the code makes.

Both come with the same rule: an assertion which holds at the start and is
kept by every step holds in every state of every run.  For machines the rule
is relative to a side condition on the steps of the run, so that it also
covers the runs which avoid a given kind of input.
-/

namespace Kemu.Lib.Transition

universe u v

/-! ## Step relations -/

section Relation

variable {State : Type u}

/-- A state graph given by its initial states and its atomic steps. -/
structure System (State : Type u) where
  initial : State → Prop
  step : State → State → Prop

/-- The states some finite run arrives at. -/
inductive Reachable (system : System State) : State → Prop where
  | start {state : State}
      (atStart : system.initial state) :
      Reachable system state
  | next {source target : State}
      (earlier : Reachable system source)
      (move : system.step source target) :
      Reachable system target

/-- An assertion kept by every step holds in every reachable state. -/
theorem Reachable.invariant
    {system : System State} {invariant : State → Prop}
    (base : ∀ state, system.initial state → invariant state)
    (preserved :
      ∀ source target, invariant source →
        system.step source target → invariant target)
    {state : State} (reached : Reachable system state) :
    invariant state := by
  induction reached with
  | start atStart => exact base _ atStart
  | next _ move holds => exact preserved _ _ holds move

end Relation

/-! ## Machines -/

section Machine

variable {State : Type u} {Input : Type v}

/-- The state after feeding a list of inputs to a step function. -/
def run (step : State → Input → State) : State → List Input → State
  | state, [] => state
  | state, input :: rest => run step (step state input) rest

@[simp]
theorem run_nil (step : State → Input → State) (state : State) :
    run step state [] = state :=
  rfl

@[simp]
theorem run_cons
    (step : State → Input → State)
    (state : State) (input : Input) (rest : List Input) :
    run step state (input :: rest) = run step (step state input) rest :=
  rfl

theorem run_append
    (step : State → Input → State)
    (state : State) (first second : List Input) :
    run step state (first ++ second) =
      run step (run step state first) second := by
  induction first generalizing state with
  | nil => rfl
  | cons input rest induction =>
      exact induction (step state input)

/-- Every step of the run satisfies a condition on its source and input. -/
def Along
    (step : State → Input → State)
    (allowed : State → Input → Prop) :
    State → List Input → Prop
  | _, [] => True
  | state, input :: rest =>
      allowed state input ∧ Along step allowed (step state input) rest

@[simp]
theorem along_nil
    (step : State → Input → State)
    (allowed : State → Input → Prop) (state : State) :
    Along step allowed state [] :=
  trivial

@[simp]
theorem along_cons
    (step : State → Input → State)
    (allowed : State → Input → Prop)
    (state : State) (input : Input) (rest : List Input) :
    Along step allowed state (input :: rest) ↔
      allowed state input ∧
        Along step allowed (step state input) rest :=
  Iff.rfl

instance Along.decidable
    {step : State → Input → State} {allowed : State → Input → Prop}
    [each : ∀ state input, Decidable (allowed state input)] :
    (state : State) → (inputs : List Input) →
      Decidable (Along step allowed state inputs)
  | _, [] => .isTrue trivial
  | state, input :: rest =>
      @instDecidableAnd _ _ (each state input)
        (Along.decidable (step state input) rest)

/--
An assertion kept by every allowed step holds at the end of every run made
of allowed steps.
-/
theorem run_invariant
    {step : State → Input → State}
    {allowed : State → Input → Prop}
    {invariant : State → Prop}
    (preserved :
      ∀ state input, invariant state → allowed state input →
        invariant (step state input))
    {state : State} (holds : invariant state)
    {inputs : List Input}
    (along : Along step allowed state inputs) :
    invariant (run step state inputs) := by
  induction inputs generalizing state with
  | nil => exact holds
  | cons input rest induction =>
      exact induction (preserved state input holds along.1) along.2

theorem along_of_forall
    {step : State → Input → State} {allowed : State → Input → Prop}
    (every : ∀ state input, allowed state input) (state : State)
    (inputs : List Input) : Along step allowed state inputs := by
  induction inputs generalizing state with
  | nil => trivial
  | cons input rest induction =>
      exact ⟨every state input, induction (step state input)⟩

/-- The unconditional form of `run_invariant`. -/
theorem run_invariant_of_step
    {step : State → Input → State}
    {invariant : State → Prop}
    (preserved :
      ∀ state input, invariant state → invariant (step state input))
    {state : State} (holds : invariant state)
    (inputs : List Input) :
    invariant (run step state inputs) :=
  run_invariant (fun state input holds _ => preserved state input holds)
    holds (along_of_forall (fun _ _ => trivial) state inputs)

/-- An assertion holds in every state of the run, the first one included. -/
def Throughout
    (step : State → Input → State)
    (assertion : State → Prop) :
    State → List Input → Prop
  | state, [] => assertion state
  | state, input :: rest =>
      assertion state ∧ Throughout step assertion (step state input) rest

theorem throughout_append
    (step : State → Input → State) (assertion : State → Prop)
    (state : State) (first second : List Input) :
    Throughout step assertion state (first ++ second) ↔
      Throughout step assertion state first ∧
        Throughout step assertion (run step state first) second := by
  induction first generalizing state with
  | nil =>
      cases second with
      | nil => exact (and_self_iff).symm
      | cons input rest =>
          exact ⟨fun holds => ⟨holds.1, holds⟩, fun both => both.2⟩
  | cons input rest induction =>
      rw [List.cons_append, Throughout, Throughout, run_cons, induction,
        and_assoc]

theorem throughout_and
    (step : State → Input → State) (first second : State → Prop)
    (state : State) (inputs : List Input) :
    Throughout step (fun state => first state ∧ second state) state
        inputs ↔
      Throughout step first state inputs ∧
        Throughout step second state inputs := by
  induction inputs generalizing state with
  | nil => exact Iff.rfl
  | cons input rest induction =>
      rw [Throughout, Throughout, Throughout, induction, and_and_and_comm]

section Visible

variable {step : State → Input → State} {allowed : State → Input → Prop}
  {invariant assertion : State → Prop}
  (visible : ∀ state, invariant state → assertion state)

include visible

/-- The conditional invariant rule, for every state of the run. -/
theorem throughout_of_along
    (kept :
      ∀ state input, invariant state → allowed state input →
        invariant (step state input))
    {state : State} (holds : invariant state) {inputs : List Input}
    (along : Along step allowed state inputs) :
    Throughout step assertion state inputs := by
  induction inputs generalizing state with
  | nil => exact visible state holds
  | cons input rest induction =>
      refine ⟨visible state holds, ?_⟩
      exact induction (kept state input holds along.1) along.2

/-- The unconditional form of `throughout_of_along`. -/
theorem throughout_of_step
    (kept :
      ∀ state input, invariant state → invariant (step state input))
    {state : State} (holds : invariant state) (inputs : List Input) :
    Throughout step assertion state inputs :=
  throughout_of_along visible
    (fun state input holds _ => kept state input holds) holds
    (along_of_forall (fun _ _ => trivial) state inputs)

/--
If, in a run whose steps are all granted, a step keeps the invariant exactly
when it is allowed, and an unallowed one is visible in the assertion, then
the assertion holds throughout the run exactly when all its steps are
allowed.
-/
theorem throughout_iff_along_of_granted
    {granted : State → Input → Prop}
    (kept :
      ∀ state input, invariant state → granted state input →
        allowed state input → invariant (step state input))
    (broken :
      ∀ state input, invariant state → granted state input →
        ¬ allowed state input → ¬ assertion (step state input))
    {state : State} (holds : invariant state) {inputs : List Input}
    (grants : Along step granted state inputs) :
    Throughout step assertion state inputs ↔
      Along step allowed state inputs := by
  induction inputs generalizing state with
  | nil => exact iff_of_true (visible state holds) trivial
  | cons input rest induction =>
      rw [Throughout, along_cons, and_iff_right (visible state holds)]
      by_cases fine : allowed state input
      · rw [and_iff_right fine]
        exact
          induction (kept state input holds grants.1 fine) grants.2
      · refine iff_of_false ?_ (fun along => fine along.1)
        intro throughout
        apply broken state input holds grants.1 fine
        cases rest with
        | nil => exact throughout
        | cons _ _ => exact throughout.1

/-- The case in which every step is granted. -/
theorem throughout_iff_along
    (kept :
      ∀ state input, invariant state → allowed state input →
        invariant (step state input))
    (broken :
      ∀ state input, invariant state → ¬ allowed state input →
        ¬ assertion (step state input))
    {state : State} (holds : invariant state) (inputs : List Input) :
    Throughout step assertion state inputs ↔
      Along step allowed state inputs :=
  throughout_iff_along_of_granted visible
    (fun state input holds _ => kept state input holds)
    (fun state input holds _ => broken state input holds) holds
    (along_of_forall (fun _ _ => trivial) state inputs)

/--
An assertion about the states together with one about the steps: both hold
along the run exactly when its steps are allowed, if an unallowed step breaks
one of them.
-/
theorem throughout_and_along_iff
    {given : State → Input → Prop}
    (kept :
      ∀ state input, invariant state → allowed state input →
        invariant (step state input) ∧ given state input)
    (broken :
      ∀ state input, invariant state → ¬ allowed state input →
        assertion (step state input) → ¬ given state input)
    {state : State} (holds : invariant state) (inputs : List Input) :
    Throughout step assertion state inputs ∧
        Along step given state inputs ↔
      Along step allowed state inputs := by
  induction inputs generalizing state with
  | nil => exact iff_of_true ⟨visible state holds, trivial⟩ trivial
  | cons input rest induction =>
      by_cases fine : allowed state input
      · obtain ⟨next, grants⟩ := kept state input holds fine
        rw [Throughout, along_cons, along_cons, and_iff_right fine,
          and_iff_right grants, and_iff_right (visible state holds)]
        exact induction next
      · refine iff_of_false ?_ (fun along => fine along.1)
        rintro ⟨throughout, grants⟩
        have next : assertion (step state input) := by
          cases rest with
          | nil => exact throughout.2
          | cons _ _ => exact throughout.2.1
        exact broken state input holds fine next grants.1

end Visible

/-- What the invariant gives for each step of a run made of allowed steps. -/
theorem along_of_along
    {step : State → Input → State}
    {allowed given : State → Input → Prop}
    {invariant : State → Prop}
    (kept :
      ∀ state input, invariant state → allowed state input →
        invariant (step state input))
    (gives :
      ∀ state input, invariant state → allowed state input →
        given state input)
    {state : State} (holds : invariant state) {inputs : List Input}
    (along : Along step allowed state inputs) :
    Along step given state inputs := by
  induction inputs generalizing state with
  | nil => trivial
  | cons input rest induction =>
      exact
        ⟨gives state input holds along.1,
          induction (kept state input holds along.1) along.2⟩

theorem along_of_mem
    {step : State → Input → State} {allowed : Input → Prop}
    {inputs : List Input} (every : ∀ input ∈ inputs, allowed input)
    (state : State) :
    Along step (fun _ input => allowed input) state inputs := by
  induction inputs generalizing state with
  | nil => trivial
  | cons input rest induction =>
      exact
        ⟨every input List.mem_cons_self,
          induction (List.forall_mem_cons.mp every).2
            (step state input)⟩

/--
If, in a run whose steps are all granted, a step is as it should be exactly
when it is allowed, then all steps of the run are exactly when all are.
-/
theorem along_iff_along_of_granted
    {step : State → Input → State}
    {granted allowed given : State → Input → Prop}
    {invariant : State → Prop}
    (kept :
      ∀ state input, invariant state → granted state input →
        invariant (step state input))
    (exact :
      ∀ state input, invariant state → granted state input →
        (given state input ↔ allowed state input))
    {state : State} (holds : invariant state) {inputs : List Input}
    (grants : Along step granted state inputs) :
    Along step given state inputs ↔ Along step allowed state inputs := by
  induction inputs generalizing state with
  | nil => exact Iff.rfl
  | cons input rest induction =>
      rw [along_cons, along_cons, exact state input holds grants.1,
        induction (kept state input holds grants.1) grants.2]

theorem along_append
    (step : State → Input → State) (allowed : State → Input → Prop)
    (state : State) (first second : List Input) :
    Along step allowed state (first ++ second) ↔
      Along step allowed state first ∧
        Along step allowed (run step state first) second := by
  induction first generalizing state with
  | nil => simp
  | cons input rest induction =>
      rw [List.cons_append, along_cons, along_cons, run_cons, induction,
        and_assoc]

theorem Along.and
    {step : State → Input → State}
    {first second : State → Input → Prop}
    {state : State} {inputs : List Input}
    (left : Along step first state inputs)
    (right : Along step second state inputs) :
    Along step (fun state input => first state input ∧ second state input)
      state inputs := by
  induction inputs generalizing state with
  | nil => trivial
  | cons input rest induction =>
      exact ⟨⟨left.1, right.1⟩, induction left.2 right.2⟩

end Machine

end Kemu.Lib.Transition
