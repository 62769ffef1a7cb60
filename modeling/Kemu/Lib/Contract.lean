import Mathlib.Data.List.Basic

/-!
# Contracts for computations with state and failure

A handler that changes a state and may stop early is an `EStateM`
computation; the changes made before it stops stay.  `Keeps` is the contract
such a handler has with an invariant of the state: started where it holds, it
holds again when the handler stops, only the given reasons make it stop early
and what a successful run returns satisfies a postcondition of its own.
-/

namespace Kemu.Lib.Contract

universe u

variable {Stop State : Type u} {Value Result : Type u}

/-- An outcome with the invariant, an expected reason or the postcondition. -/
def Ends (invariant : State → Prop) (stops : Stop → Prop)
    (post : Value → Prop) : EStateM.Result Stop State Value → Prop
  | .ok value after => invariant after ∧ post value
  | .error stop after => invariant after ∧ stops stop

/-- The invariant holds however the computation ends; see the module text. -/
def Keeps (invariant : State → Prop) (stops : Stop → Prop)
    (computation : EStateM Stop State Value) (post : Value → Prop) : Prop :=
  ∀ state, invariant state →
    Ends invariant stops post (computation state)

/-! ## Runs -/

section Runs

variable {first : EStateM Stop State Value}
  {next : Value → EStateM Stop State Result} {state now : State}

theorem bind_of_ok {value : Value} (ok : first state = .ok value now) :
    (first >>= next) state = next value now := by
  show EStateM.bind first next state = _
  rw [EStateM.bind, ok]

/-- A run of two parts that is successful is one of each. -/
theorem of_bind_ok {after : State} {result : Result}
    (ok : (first >>= next) state = .ok result after) :
    ∃ value now,
      first state = .ok value now ∧ next value now = .ok result after := by
  change EStateM.bind first next state = _ at ok
  rw [EStateM.bind] at ok
  split at ok
  case h_1 value now ran => exact ⟨value, now, ran, ok⟩
  case h_2 => cases ok

end Runs

/-! ## Rules -/

namespace Keeps

variable {invariant : State → Prop} {stops : Stop → Prop}

theorem pure {post : Value → Prop} {value : Value} (holds : post value) :
    Keeps invariant stops (Pure.pure value : EStateM Stop State Value) post :=
  fun _ start => ⟨start, holds⟩

theorem throw {stop : Stop} (allowed : stops stop) (post : Value → Prop) :
    Keeps invariant stops (MonadExcept.throw stop : EStateM Stop State Value)
      post :=
  fun _ start => ⟨start, allowed⟩

theorem bind {computation : EStateM Stop State Value}
    {next : Value → EStateM Stop State Result}
    {middle : Value → Prop} {post : Result → Prop}
    (first : Keeps invariant stops computation middle)
    (second : ∀ value, middle value → Keeps invariant stops (next value) post) :
    Keeps invariant stops (computation >>= next) post := by
  intro state start
  have ends := first state start
  change Ends invariant stops post (EStateM.bind computation next state)
  rw [EStateM.bind]
  cases outcome : computation state with
  | ok value after =>
      rw [outcome] at ends
      exact second value ends.2 after ends.1
  | error stop after =>
      rw [outcome] at ends
      exact ends

theorem weaken {computation : EStateM Stop State Value}
    {strong weak : Value → Prop}
    (holds : Keeps invariant stops computation strong)
    (implies : ∀ value, strong value → weak value) :
    Keeps invariant stops computation weak := by
  intro state start
  have ends := holds state start
  cases outcome : computation state with
  | ok value after =>
      rw [outcome] at ends
      exact ⟨ends.1, implies value ends.2⟩
  | error stop after =>
      rw [outcome] at ends
      exact ends

theorem ite {condition : Prop} [Decidable condition]
    {first second : EStateM Stop State Value} {post : Value → Prop}
    (whenTrue : condition → Keeps invariant stops first post)
    (whenFalse : ¬ condition → Keeps invariant stops second post) :
    Keeps invariant stops (if condition then first else second) post := by
  split
  case isTrue holds => exact whenTrue holds
  case isFalse fails => exact whenFalse fails

end Keeps

end Kemu.Lib.Contract
