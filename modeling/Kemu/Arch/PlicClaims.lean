import Kemu.Arch.PlicSources
import Kemu.Arch.PlicTrig
import Kemu.Lib.Transition

/-!
# Claims over whole runs

The lines of the sources change and the guest reads and writes registers, in
any order.  Beside the controller stand the claims: a source that a context was
given by a read of its claim register is claimed until the context writes it to
that register again.

What is right is said with the registers of the guest and these claims alone: a
source is to be delivered to a context which has enabled it, if it is pending,
nobody has claimed it, and its priority is above the threshold.  The code
consults neither the threshold nor the current priority, shows on the line of a
vCPU only one of its two contexts, and forgets claims; each step which meets
one of these is excluded by a condition on the step.
-/

namespace Kemu.Arch.Plic

open Kemu.Lib Kemu.Lib.Selection Kemu.Lib.Transition

/-! ## Registers -/

/-- The register at an address. -/
inductive Register where
  | priority (offset : Nat)
  | enable (cntx offset : Nat)
  | context (cntx offset : Nat)
  | nothing
deriving DecidableEq, Repr

section Register

variable (s : PlicState)

/-- The offset of a word in the controller's range. -/
def wordOffset (addr : BitVec 64) : Nat :=
  ((addr &&& ~~~3#64) - riscvIrqchip).toNat

def register (addr : BitVec 64) : Register :=
  let addr := wordOffset addr
  if addr < enableBase then .priority addr
  else if addr < contextBase then
    let cntx := (addr - enableBase) / enablePerHart
    if cntx < s.numContext then
      .enable cntx (addr - (cntx * enablePerHart + enableBase))
    else .nothing
  else if addr < regSize then
    let cntx := (addr - contextBase) / contextPerHart
    if cntx < s.numContext then
      .context cntx (addr - (cntx * contextPerHart + contextBase))
    else .nothing
  else .nothing

/-- A read of a register. -/
def readRegister (unset ok : Bool) (data : BitVec 32) :
    Register → BitVec 32 × PlicState
  | .priority offset => (plicPriorityRead s offset data, s)
  | .enable cntx offset => (plicContextEnableRead s cntx offset data, s)
  | .context cntx offset => plicContextRead s unset ok cntx offset data
  | .nothing => (data, s)

/-- A write to a register. -/
def writeRegister (ok : Bool) (data : BitVec 32) : Register → PlicState
  | .priority offset => plicPriorityWrite s offset data
  | .enable cntx offset => plicContextEnableWrite s ok cntx offset data
  | .context cntx offset => plicContextWrite s ok cntx offset data
  | .nothing => s

/-- An access to a register; the guest reads what a read gives. -/
def accessRegister (unset ok : Bool) (data : BitVec 32) (isWrite : Bool)
    (reg : Register) : BitVec 32 × PlicState :=
  if isWrite then (data, writeRegister s ok data reg)
  else readRegister s unset ok data reg

variable {s} {addr : BitVec 64} {cntx offset : Nat}

theorem register_enable (found : register s addr = .enable cntx offset) :
    cntx < s.numContext ∧ offset < enablePerHart := by
  revert found
  unfold register
  generalize wordOffset addr = place
  intro found
  simp only at found
  split at found
  · cases found
  · split at found
    · split at found
      · next inside =>
          injection found with first second
          subst first second
          refine ⟨inside, ?_⟩
          have parts := Nat.div_add_mod (place - enableBase) enablePerHart
          have rest := Nat.mod_lt (place - enableBase)
            (show 0 < enablePerHart from Nat.le_of_ble_eq_true rfl)
          rw [Nat.mul_comm] at parts
          omega
      · cases found
    · split at found
      · split at found <;> cases found
      · cases found

theorem register_context (found : register s addr = .context cntx offset) :
    cntx < s.numContext := by
  simp only [register] at found
  split at found
  · cases found
  · split at found
    · split at found <;> cases found
    · split at found
      · split at found
        · next inside =>
            injection found with first second
            exact first ▸ inside
        · cases found
      · cases found

variable (s) (unset ok : Bool) (addr) (data : BitVec 32)

/-- The callback finds the register and accesses it. -/
theorem plicMmioCallback_eq (isWrite : Bool) :
    plicMmioCallback s unset ok addr data 4 isWrite =
      .ok (accessRegister s unset ok data isWrite (register s addr)) := by
  have same : ((addr &&& ~~~3#64) - riscvIrqchip).toNat = wordOffset addr :=
    rfl
  simp only [plicMmioCallback, register, same]
  clear same
  generalize wordOffset addr = place
  by_cases low : place < enableBase
  · cases isWrite <;>
      simp [priorityBase, low, accessRegister, readRegister, writeRegister]
  · have above : enableBase ≤ place := Nat.not_lt.1 low
    by_cases middle : place < contextBase
    · by_cases inside : (place - enableBase) / enablePerHart < s.numContext
      · cases isWrite <;>
          simp [low, above, middle, inside, accessRegister, readRegister,
            writeRegister]
      · cases isWrite <;>
          simp [low, above, middle, inside, accessRegister, readRegister,
            writeRegister]
    · have behind : contextBase ≤ place := Nat.not_lt.1 middle
      by_cases inside :
          (place - contextBase) / contextPerHart < s.numContext
      · cases isWrite <;> by_cases high : place < regSize <;>
          simp [low, middle, behind, inside, high, accessRegister,
            readRegister, writeRegister]
      · cases isWrite <;> by_cases high : place < regSize <;>
          simp [low, middle, behind, inside, high, accessRegister,
            readRegister, writeRegister]

end Register

/-! ## Runs -/

/-- The controller, whether the program has ended, and the claims. -/
structure Machine where
  plic : PlicState
  died : Bool
  outstanding : Nat → Nat → Bool

def start (nrcpus : Nat) : Machine where
  plic := plicInit nrcpus
  died := false
  outstanding := fun _ _ => false

/-- A call from outside, with the outcomes of the ioctls. -/
inductive Event where
  | irqTrig (irq level : Int) (edge ok : Bool)
  | mmio (addr : BitVec 64) (data : BitVec 32) (len : Nat)
      (isWrite unset ok : Bool)

def setClaim (outstanding : Nat → Nat → Bool) (num irq : Nat)
    (claimed : Bool) : Nat → Nat → Bool :=
  Function.update outstanding num
    (Function.update (outstanding num) irq claimed)

/-- The claims after an access to a register. -/
def claimsAfter (outstanding : Nat → Nat → Bool) (data answer : BitVec 32)
    (isWrite : Bool) : Register → Nat → Nat → Bool
  | .context num offset =>
      if offset = contextClaim then
        if isWrite then setClaim outstanding num data.toNat false
        else if answer = 0#32 then outstanding
        else setClaim outstanding num answer.toNat true
      else outstanding
  | _ => outstanding

def step (m : Machine) : Event → Machine
  | .irqTrig irq level edge ok =>
      if m.died then m
      else
        match plicIrqTrig m.plic ok irq level edge trigRounds with
        | some result => { m with plic := result.1 }
        | none => m
  | .mmio addr data len isWrite unset ok =>
      if m.died then m
      else
        match plicMmioCallback m.plic unset ok addr data len isWrite with
        | .ok result =>
            { m with
              plic := result.2
              outstanding :=
                claimsAfter m.outstanding data result.1 isWrite
                  (register m.plic addr) }
        | .error _ => { m with died := true }

/-! ## What is right -/

section Right

variable (m : Machine)

/-- A context was given the source and has not completed it. -/
def Machine.Claimed (irq : Nat) : Prop :=
  ∃ num < m.plic.numContext, m.outstanding num irq = true

/-- The source is to be delivered to the context. -/
structure Deliverable (num irq : Nat) : Prop where
  enabled : (m.plic.contexts num).irqEnable.test irq = true
  pending : (m.plic.contexts num).irqPending.test irq = true
  unclaimed : ¬ m.Claimed irq
  above :
    (m.plic.contexts num).irqPriorityThreshold < m.plic.irqPriority irq

/-- The answer to a claim, where zero stands for no source. -/
def RightAnswer (num answer : Nat) : Prop :=
  Selected (Deliverable m num) m.plic.irqPriority numIrq (sourceOf answer)

/-- The line of a vCPU is set exactly while it is to take an interrupt. -/
def LineRight : Prop :=
  ∀ cpu, m.plic.interrupt cpu = true ↔
    ∃ num < m.plic.numContext, vcpu num = cpu ∧
      ∃ irq < numIrq, Deliverable m num irq

/-- What a call is to do. -/
def StepRight : Event → Prop
  | .irqTrig irq level edge ok =>
      m.died = false →
        ∃ fuel s steps,
          plicIrqTrig m.plic ok irq level edge fuel = some (s, steps) ∧
            UnlocksHeld [] steps
  | .mmio addr data len isWrite unset ok =>
      m.died = false →
        ∀ num answer s,
          register m.plic addr = .context num contextClaim →
          isWrite = false →
          plicMmioCallback m.plic unset ok addr data len isWrite =
            .ok (answer, s) →
          RightAnswer m num answer.toNat ∧
            (answer ≠ 0#32 → ¬ m.Claimed answer.toNat)

end Right

/-! ## The condition -/

section Condition

variable (m : Machine) (ok : Bool) (num : Nat)

/-- No source waits in the other context of the vCPU. -/
def QuietBeside : Prop :=
  ∀ other < m.plic.numContext, other ≠ num → vcpu other = vcpu num →
    ∀ irq < numIrq, ¬ (m.plic.contexts other).Waiting irq

/--
The line may be updated for the context alone: sources that wait in the
context afterwards are given, and if there are none, none waits beside it.
-/
def Settles (left : Nat → Prop) : Prop :=
  ok = true ∧ ((∃ irq < numIrq, left irq) ∨ QuietBeside m num)

/-- The source may begin to wait in the context. -/
def MayWait (irq : Nat) : Prop :=
  (m.plic.contexts num).irqPriorityThreshold < m.plic.irqPriority irq ∧
    ¬ m.Claimed irq

/-- A change of a source's line. -/
def TrigAllowed (irq level : Int) : Prop :=
  (0 < irq ∧ irq.toNat < numIrq) ∧
    match firstEnabling m.plic irq.toNat with
    | none => m.plic.numContext < 256
    | some num =>
        let c := m.plic.contexts num
        if level ≠ 0 then
          (c.irqClaimed.test irq.toNat = false →
            MayWait m num irq.toNat) ∧
          Settles m ok num (fun n => c.Waiting n ∨
            n = irq.toNat ∧ c.irqClaimed.test irq.toNat = false)
        else Settles m ok num (fun n => c.Waiting n ∧ n ≠ irq.toNat)

/-- A new priority of a source. -/
def PriorityAllowed (irq val : Nat) : Prop :=
  0 < irq → irq < numIrq → ∀ num < m.plic.numContext,
    (m.plic.contexts num).Waiting irq → val = m.plic.irqPriority irq

/-- The source is enabled by a write and its line is high. -/
def Begins (irqWord : Nat) (data : BitVec 32) (irq : Nat) : Prop :=
  irq / 32 = irqWord ∧
    (enableValue irqWord data).getLsbD (irq % 32) = true ∧
    (m.plic.contexts num).irqEnable.test irq = false ∧
    m.plic.irqLevel.test irq = true

/-- The source is not disabled by a write. -/
def Stays (irqWord : Nat) (data : BitVec 32) (irq : Nat) : Prop :=
  irq / 32 = irqWord →
    (enableValue irqWord data).getLsbD (irq % 32) = true

/-- New enable bits. -/
def EnableAllowed (irqWord : Nat) (data : BitVec 32) : Prop :=
  (∀ irq < numIrq, Begins m num irqWord data irq → MayWait m num irq) ∧
    Settles m ok num (fun irq =>
      (m.plic.contexts num).Waiting irq ∧ Stays irqWord data irq ∨
        Begins m num irqWord data irq)

/-- A new threshold. -/
def ThresholdAllowed (val : Nat) : Prop :=
  ∀ irq < numIrq, (m.plic.contexts num).Waiting irq →
    val < m.plic.irqPriority irq

/-- The completion of a source. -/
def CompleteAllowed (irq : Nat) : Prop :=
  let c := m.plic.contexts num
  irq < numIrq → c.irqEnable.test irq = true →
    (c.irqPending.test irq = true → c.irqClaimed.test irq = true →
      c.irqPendingPriority irq = m.plic.irqPriority irq ∧
        c.irqPriorityThreshold < m.plic.irqPriority irq) ∧
    Settles m ok num (fun n => c.Waiting n ∨
      n = irq ∧ c.irqPending.test irq = true)

/-- The source goes before all others that wait in the context. -/
def Foremost (irq : Nat) : Prop :=
  let c := m.plic.contexts num
  c.Waiting irq ∧
    ∀ n < numIrq, c.Waiting n → Leads c.irqPendingPriority irq n

/-- The foremost source of the context waits in no other one. -/
def WaitsAlone : Prop :=
  ∀ irq < numIrq, Foremost m num irq →
    ∀ other < m.plic.numContext, other ≠ num →
      ¬ (m.plic.contexts other).Waiting irq

/-- A claim. -/
def ClaimAllowed : Prop :=
  WaitsAlone m num ∧
    Settles m ok num (fun irq => (m.plic.contexts num).Waiting irq ∧
      ∃ other < numIrq, other ≠ irq ∧ (m.plic.contexts num).Waiting other)

/-- A write to a register. -/
def WriteAllowed (data : BitVec 32) : Register → Prop
  | .priority offset => PriorityAllowed m (offset / 4) (priorityOf data)
  | .enable num offset => EnableAllowed m ok num (offset / 4) data
  | .context num offset =>
      if offset = contextThreshold then
        ThresholdAllowed m num (priorityOf data)
      else if offset = contextClaim then
        CompleteAllowed m ok num data.toNat
      else Settles m ok num (m.plic.contexts num).Waiting
  | .nothing => True

/-- A read of a register. -/
def ReadAllowed : Register → Prop
  | .context num offset => offset = contextClaim → ClaimAllowed m ok num
  | _ => True

/-- The condition on a call. -/
def Allowed : Event → Prop
  | .irqTrig irq level _ ok =>
      m.died = false → m.plic.ready = true → TrigAllowed m ok irq level
  | .mmio addr data len isWrite _ ok =>
      m.died = false → len = 4 →
        if isWrite then WriteAllowed m ok data (register m.plic addr)
        else ReadAllowed m ok (register m.plic addr)

/-! The condition can be evaluated, word by word. -/

theorem forall_irq_iff (p : Nat → Prop) :
    (∀ i < numIrqWord, ∀ j < 32, p (i * 32 + j)) ↔ ∀ irq < numIrq, p irq := by
  have size : numIrq = numIrqWord * 32 := rfl
  constructor
  · intro words irq known
    have here := words (irq / 32) (by omega) (irq % 32) (by omega)
    rwa [Nat.div_add_mod'] at here
  · exact fun every i _ j _ => every (i * 32 + j) (by omega)

theorem exists_irq_iff (p : Nat → Prop) :
    (∃ i < numIrqWord, ∃ j < 32, p (i * 32 + j)) ↔ ∃ irq < numIrq, p irq := by
  have size : numIrq = numIrqWord * 32 := rfl
  constructor
  · rintro ⟨i, _, j, _, holds⟩
    exact ⟨i * 32 + j, by omega, holds⟩
  · rintro ⟨irq, known, holds⟩
    refine ⟨irq / 32, by omega, irq % 32, by omega, ?_⟩
    rwa [Nat.div_add_mod']

instance (p : Nat → Prop) [DecidablePred p] :
    Decidable (∀ irq < numIrq, p irq) :=
  decidable_of_iff _ (forall_irq_iff p)

instance (p : Nat → Prop) [DecidablePred p] :
    Decidable (∃ irq < numIrq, p irq) :=
  decidable_of_iff _ (exists_irq_iff p)

instance (irq : Nat) : Decidable (m.Claimed irq) :=
  inferInstanceAs
    (Decidable (∃ num < m.plic.numContext, m.outstanding num irq = true))

instance : Decidable (QuietBeside m num) :=
  inferInstanceAs
    (Decidable (∀ other < m.plic.numContext, other ≠ num →
      vcpu other = vcpu num →
      ∀ irq < numIrq, ¬ (m.plic.contexts other).Waiting irq))

instance (left : Nat → Prop) [DecidablePred left] :
    Decidable (Settles m ok num left) :=
  inferInstanceAs
    (Decidable (ok = true ∧
      ((∃ irq < numIrq, left irq) ∨ QuietBeside m num)))

instance (irq : Nat) : Decidable (MayWait m num irq) :=
  inferInstanceAs (Decidable (_ ∧ ¬ m.Claimed irq))

instance (irq level : Int) : Decidable (TrigAllowed m ok irq level) :=
  @instDecidableAnd _ _ _ <|
    match firstEnabling m.plic irq.toNat with
    | none => inferInstanceAs (Decidable (_ < _))
    | some _ => inferInstanceAs (Decidable (ite _ (_ ∧ _) _))

instance (irq val : Nat) : Decidable (PriorityAllowed m irq val) :=
  inferInstanceAs
    (Decidable (0 < irq → irq < numIrq → ∀ num < m.plic.numContext,
      (m.plic.contexts num).Waiting irq → val = m.plic.irqPriority irq))

instance (irqWord : Nat) (data : BitVec 32) (irq : Nat) :
    Decidable (Begins m num irqWord data irq) :=
  inferInstanceAs (Decidable (_ ∧ _ ∧ _ ∧ _))

instance (irqWord : Nat) (data : BitVec 32) (irq : Nat) :
    Decidable (Stays irqWord data irq) :=
  inferInstanceAs (Decidable (_ → _))

instance (irqWord : Nat) (data : BitVec 32) :
    Decidable (EnableAllowed m ok num irqWord data) :=
  inferInstanceAs
    (Decidable ((∀ irq < numIrq, Begins m num irqWord data irq →
      MayWait m num irq) ∧ Settles m ok num _))

instance (val : Nat) : Decidable (ThresholdAllowed m num val) :=
  inferInstanceAs
    (Decidable (∀ irq < numIrq, (m.plic.contexts num).Waiting irq →
      val < m.plic.irqPriority irq))

instance (irq : Nat) : Decidable (CompleteAllowed m ok num irq) :=
  inferInstanceAs
    (Decidable (irq < numIrq → _ → (_ → _ → _ ∧ _) ∧ Settles m ok num _))

instance (key : Nat → Nat) (first second : Nat) :
    Decidable (Leads key first second) :=
  inferInstanceAs (Decidable (_ ∨ _ ∧ _))

instance (irq : Nat) : Decidable (Foremost m num irq) :=
  inferInstanceAs (Decidable (_ ∧ ∀ n < numIrq, _ → Leads _ irq n))

instance : Decidable (WaitsAlone m num) :=
  inferInstanceAs
    (Decidable (∀ irq < numIrq, Foremost m num irq →
      ∀ other < m.plic.numContext, other ≠ num →
        ¬ (m.plic.contexts other).Waiting irq))

instance : Decidable (ClaimAllowed m ok num) :=
  inferInstanceAs (Decidable (WaitsAlone m num ∧ Settles m ok num _))

instance (data : BitVec 32) :
    (reg : Register) → Decidable (WriteAllowed m ok data reg)
  | .priority _ => inferInstanceAs (Decidable (PriorityAllowed m _ _))
  | .enable _ _ => inferInstanceAs (Decidable (EnableAllowed m ok _ _ data))
  | .context _ _ => inferInstanceAs (Decidable (ite _ _ (ite _ _ _)))
  | .nothing => inferInstanceAs (Decidable True)

instance : (reg : Register) → Decidable (ReadAllowed m ok reg)
  | .priority _ => inferInstanceAs (Decidable True)
  | .enable _ _ => inferInstanceAs (Decidable True)
  | .context _ _ => inferInstanceAs (Decidable (_ → _))
  | .nothing => inferInstanceAs (Decidable True)

instance : (event : Event) → Decidable (Allowed m event)
  | .irqTrig .. => inferInstanceAs (Decidable (_ → _ → _))
  | .mmio .. => inferInstanceAs (Decidable (_ → _ → ite _ _ _))

end Condition

end Kemu.Arch.Plic
