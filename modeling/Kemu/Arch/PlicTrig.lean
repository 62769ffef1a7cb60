import Kemu.Arch.Plic
import Mathlib.Tactic.Common

/-!
# Changes of a source's line

`plic__irq_trig` gives a change to the first context that enables the source.
It counts the contexts with eight bits: with 256 contexts or more the counter
wraps around and the loop ends only if one of the first 256 enables the
source.
-/

namespace Kemu.Arch.Plic

/-! ## Mutexes -/

/-- Only mutexes that are held are unlocked. -/
def UnlocksHeld : List PlicLock → List LockStep → Prop
  | _, [] => True
  | held, .lock mutex :: rest => UnlocksHeld (mutex :: held) rest
  | held, .unlock mutex :: rest =>
      mutex ∈ held ∧ UnlocksHeld (held.erase mutex) rest

/-- What is locked is unlocked again, whatever is held. -/
def Paired (steps : List LockStep) : Prop :=
  ∀ held rest, UnlocksHeld held rest → UnlocksHeld held (steps ++ rest)

theorem paired_nil : Paired [] :=
  fun _ _ rest => rest

theorem paired_lock_unlock (mutex : PlicLock) :
    Paired [.lock mutex, .unlock mutex] := by
  intro held rest unlocks
  refine ⟨List.mem_cons_self, ?_⟩
  rw [List.erase_cons_head]
  exact unlocks

theorem Paired.append {first second : List LockStep}
    (left : Paired first) (right : Paired second) :
    Paired (first ++ second) := by
  intro held rest unlocks
  rw [List.append_assoc]
  exact left held _ (right held rest unlocks)

/-- Steps between locking and unlocking a mutex. -/
theorem Paired.unlocksHeld_within {steps : List LockStep}
    (paired : Paired steps) (mutex : PlicLock) :
    UnlocksHeld [] (.lock mutex :: (steps ++ [.unlock mutex])) :=
  paired [mutex] [.unlock mutex] ⟨List.mem_cons_self, trivial⟩

/-! ## The loop -/

section Loop

variable (s : PlicState)

/-- The first context to enable the source, of those that are counted. -/
def firstEnabling (irq : Nat) : Option Nat :=
  (List.range (min s.numContext 256)).find? fun num =>
    (s.contexts num).irqEnable.test irq

/-- The state after a context has taken the change. -/
def taken (ok : Bool) (irq : Nat) (level edge : Bool) (num : Nat) :
    PlicState :=
  plicContextIrqUpdate
    (s.setContext num
      (trigContext (s.contexts num) irq (s.irqPriority irq) level edge))
    ok num

variable {s} {irq num : Nat}

theorem firstEnabling_eq_some
    (found : firstEnabling s irq = some num) :
    num < s.numContext ∧ num < 256 ∧
      (s.contexts num).irqEnable.test irq = true ∧
      ∀ earlier < num, (s.contexts earlier).irqEnable.test irq = false := by
  obtain ⟨enabled, member, first⟩ := List.find?_range_eq_some.1 found
  have inside := List.mem_range.1 member
  refine ⟨by omega, by omega, enabled, fun earlier below => ?_⟩
  simpa using first earlier below

theorem firstEnabling_eq_none
    (missing : firstEnabling s irq = none) (inside : num < s.numContext)
    (counted : num < 256) :
    (s.contexts num).irqEnable.test irq = false := by
  have absent := List.find?_eq_none.1 missing num
    (List.mem_range.2 (Nat.lt_min.2 ⟨inside, counted⟩))
  simpa using absent

variable (ok : Bool) (level edge : Bool)

/-- A context that does not enable the source is passed. -/
theorem trigLoop_pass {i : Nat} (fuel : Nat) (counted : i < 256)
    (inside : i < s.numContext)
    (disabled : (s.contexts i).irqEnable.test irq = false) :
    trigLoop s ok irq level edge (fuel + 1) (BitVec.ofNat 8 i) =
      (trigLoop s ok irq level edge fuel (BitVec.ofNat 8 (i + 1))).map
        fun rest =>
          (rest.1,
            [.lock (.context i), .unlock (.context i)] ++ rest.2) := by
  have small : (BitVec.ofNat 8 i).toNat = i := by
    rw [BitVec.toNat_ofNat]
    omega
  simp [trigLoop, small, inside, disabled, BitVec.ofNat_add]

theorem trigLoop_of_some (found : firstEnabling s irq = some num)
    (fuel i : Nat) (before : i ≤ num) (enough : num - i < fuel) :
    ∃ steps,
      trigLoop s ok irq level edge fuel (BitVec.ofNat 8 i) =
          some (taken s ok irq level edge num, steps) ∧
        Paired steps := by
  obtain ⟨inside, counted, enabled, first⟩ := firstEnabling_eq_some found
  induction fuel generalizing i with
  | zero => exact absurd enough (Nat.not_lt_zero _)
  | succ fuel induction =>
      rcases Nat.lt_or_eq_of_le before with earlier | rfl
      · obtain ⟨steps, result, paired⟩ :=
          induction (i + 1) earlier (by omega)
        refine ⟨_, ?_, (paired_lock_unlock (.context i)).append paired⟩
        rw [trigLoop_pass ok level edge fuel (by omega) (by omega)
          (first i earlier), result]
        rfl
      · have small : (BitVec.ofNat 8 i).toNat = i := by
          rw [BitVec.toNat_ofNat]
          omega
        refine ⟨_, ?_, paired_lock_unlock (.context i)⟩
        simp [trigLoop, small, inside, enabled, taken]

theorem trigLoop_of_none (missing : firstEnabling s irq = none)
    (few : s.numContext < 256) (fuel i : Nat) (before : i ≤ s.numContext)
    (enough : s.numContext - i < fuel) :
    ∃ steps,
      trigLoop s ok irq level edge fuel (BitVec.ofNat 8 i) =
          some (s, steps) ∧
        Paired steps := by
  induction fuel generalizing i with
  | zero => exact absurd enough (Nat.not_lt_zero _)
  | succ fuel induction =>
      rcases Nat.lt_or_eq_of_le before with inside | rfl
      · obtain ⟨steps, result, paired⟩ :=
          induction (i + 1) inside (by omega)
        have disabled :=
          firstEnabling_eq_none missing inside (by omega)
        refine ⟨_, ?_, (paired_lock_unlock (.context i)).append paired⟩
        rw [trigLoop_pass ok level edge fuel (by omega) inside disabled,
          result]
        rfl
      · have small :
            (BitVec.ofNat 8 s.numContext).toNat = s.numContext := by
          rw [BitVec.toNat_ofNat]
          omega
        refine ⟨[], ?_, paired_nil⟩
        simp [trigLoop, small]

end Loop

/-! ## The function -/

section Trig

variable (s : PlicState) (ok : Bool) (irq level : Int) (edge : Bool)

/-- More rounds than a counter of eight bits can make. -/
def trigRounds : Nat := 257

variable {s irq}

theorem plicIrqTrig_not_ready (fuel : Nat) (unready : s.ready = false) :
    plicIrqTrig s ok irq level edge fuel = some (s, []) :=
  if_pos unready

theorem plicIrqTrig_eq_loop (fuel : Nat) (ready : s.ready = true)
    (positive : 0 < irq) (known : irq.toNat < numIrq) :
    plicIrqTrig s ok irq level edge fuel =
      (trigLoop (s.setLevel irq.toNat (level ≠ 0)) ok irq.toNat (level ≠ 0)
        edge fuel 0).map fun result =>
          (result.1, .lock .state :: (result.2 ++ [.unlock .state])) := by
  have unready : ¬ s.ready = false := by simp [ready]
  have invalid : ¬ (irq ≤ 0 ∨ numIrq ≤ irq.toNat) := by omega
  rw [plicIrqTrig, if_neg unready, if_neg invalid]

section Valid

variable
    (ready : s.ready = true)
    (positive : 0 < irq)
    (known : irq.toNat < numIrq)

include ready positive known

theorem plicIrqTrig_of_some {num : Nat}
    (found : firstEnabling s irq.toNat = some num) :
    ∃ steps,
      plicIrqTrig s ok irq level edge trigRounds =
          some
            (taken (s.setLevel irq.toNat (level ≠ 0)) ok irq.toNat
              (level ≠ 0) edge num, steps) ∧
        UnlocksHeld [] steps := by
  have counted := (firstEnabling_eq_some found).2.1
  obtain ⟨steps, result, paired⟩ :=
    trigLoop_of_some (s := s.setLevel irq.toNat (level ≠ 0)) ok
      (level ≠ 0) edge found trigRounds 0 (Nat.zero_le num)
      (Nat.lt_succ_of_lt counted)
  refine ⟨_, ?_, paired.unlocksHeld_within .state⟩
  rw [plicIrqTrig_eq_loop ok level edge _ ready positive known]
  exact congrArg _ result

theorem plicIrqTrig_of_none
    (missing : firstEnabling s irq.toNat = none)
    (few : s.numContext < 256) :
    ∃ steps,
      plicIrqTrig s ok irq level edge trigRounds =
          some (s.setLevel irq.toNat (level ≠ 0), steps) ∧
        UnlocksHeld [] steps := by
  obtain ⟨steps, result, paired⟩ :=
    trigLoop_of_none (s := s.setLevel irq.toNat (level ≠ 0)) ok
      (level ≠ 0) edge missing few trigRounds 0 (Nat.zero_le _)
      (Nat.lt_succ_of_lt few)
  refine ⟨_, ?_, paired.unlocksHeld_within .state⟩
  rw [plicIrqTrig_eq_loop ok level edge _ ready positive known]
  exact congrArg _ result

end Valid

end Trig

end Kemu.Arch.Plic
