import Kemu.Lib.Bitmap

/-!
# The platform-level interrupt controller

The interrupt controller of `riscv/plic.c` gives the interrupts of at most 1023
sources to contexts, two for each vCPU.  A context keeps which sources it has
enabled, which of them are pending, with the priority each had when it became
so, and which it has claimed.

An access of the guest and a change of a source's line are made under mutexes,
so that each is one step here.  The mutexes are still recorded for
`plic__irq_trig`, which leaves its loop early.  Whether an ioctl succeeds is
decided outside, and is an argument of what makes it.
-/

namespace Kemu.Arch.Plic

open Kemu.Lib

/-! ## Constants -/

/-- `MAX_DEVICES`. -/
def maxDevices : Nat := 1024

/-- `PRIORITY_BASE`. -/
def priorityBase : Nat := 0

/-- `PRIORITY_PER_ID`. -/
def priorityPerId : Nat := 4

/-- `ENABLE_BASE`. -/
def enableBase : Nat := 0x2000

/-- `ENABLE_PER_HART`. -/
def enablePerHart : Nat := 0x80

/-- `CONTEXT_BASE`. -/
def contextBase : Nat := 0x200000

/-- `CONTEXT_PER_HART`. -/
def contextPerHart : Nat := 0x1000

/-- `CONTEXT_THRESHOLD`. -/
def contextThreshold : Nat := 0

/-- `CONTEXT_CLAIM`. -/
def contextClaim : Nat := 4

/-- `REG_SIZE`. -/
def regSize : Nat := 0x1000000

/-- `RISCV_IRQCHIP`. -/
def riscvIrqchip : BitVec 64 := 0x08000000

/-! What `plic__init` sets once and for all. -/

def numIrq : Nat := maxDevices

def numIrqWord : Nat :=
  if numIrq / 32 * 32 < numIrq then numIrq / 32 + 1 else numIrq / 32

def maxPrio : Nat := (1 <<< priorityPerId) - 1

/-! ## State -/

/-- `struct plic_context`. -/
structure PlicContext where
  irqPriorityThreshold : Nat
  irqEnable : Bitmap 32
  irqPending : Bitmap 32
  irqPendingPriority : Nat → Nat
  irqClaimed : Bitmap 32
  irqAutoclear : Bitmap 32

/-- `struct plic_state`, with the interrupt lines of the vCPUs. -/
structure PlicState where
  ready : Bool
  numContext : Nat
  contexts : Nat → PlicContext
  irqPriority : Nat → Nat
  irqLevel : Bitmap 32
  interrupt : Nat → Bool

/-- A context as `calloc` leaves it. -/
def plicContextZero : PlicContext where
  irqPriorityThreshold := 0
  irqEnable := Bitmap.empty 32
  irqPending := Bitmap.empty 32
  irqPendingPriority := fun _ => 0
  irqClaimed := Bitmap.empty 32
  irqAutoclear := Bitmap.empty 32

/-- `plic__init`. -/
def plicInit (nrcpus : Nat) : PlicState where
  ready := true
  numContext := nrcpus * 2
  contexts := fun _ => plicContextZero
  irqPriority := fun _ => 0
  irqLevel := Bitmap.empty 32
  interrupt := fun _ => false

/-- The number of the vCPU of a context. -/
def vcpu (num : Nat) : Nat :=
  num / 2

/-- Store a context. -/
def PlicState.setContext (s : PlicState) (num : Nat) (c : PlicContext) :
    PlicState :=
  { s with contexts := Function.update s.contexts num c }

/-- Store the level of a source's line. -/
def PlicState.setLevel (s : PlicState) (irq : Nat) (level : Bool) :
    PlicState :=
  { s with
    irqLevel := if level then s.irqLevel.set irq else s.irqLevel.clear irq }

/-- `ioctl(c->vcpu->vcpu_fd, KVM_INTERRUPT, &virq)`. -/
def kvmInterrupt (ok : Bool) (num : Nat) (virq : Bool) (s : PlicState) :
    PlicState :=
  if ok then
    { s with interrupt := Function.update s.interrupt (vcpu num) virq }
  else s

/-! ## Selecting, updating and claiming -/

section Context

variable (c : PlicContext)

/-- The inner loop of `__plic_context_best_pending_irq`, for one source. -/
def bestPendingIrqRound (i : Nat) (best : Nat × Nat) (j : Nat) : Nat × Nat :=
  let irq := i * 32 + j
  if numIrq ≤ irq ∨ c.irqPending.test irq = false ∨
      c.irqClaimed.test irq = true then
    best
  else if best.1 = 0 ∨ best.2 < c.irqPendingPriority irq then
    (irq, c.irqPendingPriority irq)
  else best

/-- Its outer loop, for one word. -/
def bestPendingIrqWord (best : Nat × Nat) (i : Nat) : Nat × Nat :=
  if c.irqPending i = 0#32 then best
  else (List.range 32).foldl (bestPendingIrqRound c i) best

/-- `__plic_context_best_pending_irq`. -/
def plicContextBestPendingIrq : Nat :=
  ((List.range numIrqWord).foldl (bestPendingIrqWord c) (0, 0)).1

/-- What `__plic_context_irq_claim` does to the context. -/
def claimContext : PlicContext :=
  let bestIrq := plicContextBestPendingIrq c
  if bestIrq = 0 then c
  else if c.irqAutoclear.test bestIrq then
    { c with
      irqPending := c.irqPending.clear bestIrq
      irqPendingPriority := Function.update c.irqPendingPriority bestIrq 0
      irqClaimed := c.irqClaimed.clear bestIrq
      irqAutoclear := c.irqAutoclear.clear bestIrq }
  else { c with irqClaimed := c.irqClaimed.set bestIrq }

/-- What `plic__irq_trig` does to the context that takes the change. -/
def trigContext (irq irqPrio : Nat) (level edge : Bool) : PlicContext :=
  if level then
    let raised :=
      { c with
        irqPending := c.irqPending.set irq
        irqPendingPriority :=
          Function.update c.irqPendingPriority irq irqPrio }
    if edge then
      { raised with irqAutoclear := c.irqAutoclear.set irq }
    else raised
  else
    { c with
      irqPending := c.irqPending.clear irq
      irqPendingPriority := Function.update c.irqPendingPriority irq 0
      irqClaimed := c.irqClaimed.clear irq
      irqAutoclear := c.irqAutoclear.clear irq }

end Context

section State

variable (s : PlicState)

/-- `__plic_context_irq_update`. -/
def plicContextIrqUpdate (ok : Bool) (num : Nat) : PlicState :=
  kvmInterrupt ok num
    (plicContextBestPendingIrq (s.contexts num) != 0) s

/--
`__plic_context_irq_claim`; the outcomes are those of the two ioctls, the one
that lowers the line and the one of the update.
-/
def plicContextIrqClaim (unset ok : Bool) (num : Nat) : Nat × PlicState :=
  let lowered := kvmInterrupt unset num false s
  let claimed := lowered.setContext num (claimContext (s.contexts num))
  (plicContextBestPendingIrq (s.contexts num),
    plicContextIrqUpdate claimed ok num)

/-! ## Changes of a line -/

/-- The mutexes. -/
inductive PlicLock where
  | state
  | context (num : Nat)
deriving DecidableEq, Repr

/-- What is done to a mutex. -/
inductive LockStep where
  | lock (mutex : PlicLock)
  | unlock (mutex : PlicLock)
deriving DecidableEq, Repr

/--
The loop of `plic__irq_trig`, whose counter has eight bits, as far as the fuel
goes.
-/
def trigLoop (ok : Bool) (irq : Nat) (level edge : Bool) :
    Nat → BitVec 8 → Option (PlicState × List LockStep)
  | 0, _ => none
  | fuel + 1, i =>
      if i.toNat < s.numContext then
        let c := s.contexts i.toNat
        let steps :=
          [LockStep.lock (.context i.toNat), .unlock (.context i.toNat)]
        if c.irqEnable.test irq then
          let changed := trigContext c irq (s.irqPriority irq) level edge
          some
            (plicContextIrqUpdate (s.setContext i.toNat changed) ok i.toNat,
              steps)
        else
          (trigLoop ok irq level edge fuel (i + 1)).map fun rest =>
            (rest.1, steps ++ rest.2)
      else some (s, [])

/-- `plic__irq_trig`. -/
def plicIrqTrig (ok : Bool) (irq level : Int) (edge : Bool) (fuel : Nat) :
    Option (PlicState × List LockStep) :=
  if s.ready = false then some (s, [])
  else if irq ≤ 0 ∨ numIrq ≤ irq.toNat then some (s, [.unlock .state])
  else
    let noted := s.setLevel irq.toNat (level ≠ 0)
    (trigLoop noted ok irq.toNat (level ≠ 0) edge fuel 0).map fun result =>
      (result.1, .lock .state :: (result.2 ++ [.unlock .state]))

/-! ## Registers -/

/-- `plic__priority_read`. -/
def plicPriorityRead (offset : Nat) (data : BitVec 32) : BitVec 32 :=
  let irq := offset / 4
  if irq = 0 ∨ numIrq ≤ irq then data
  else BitVec.ofNat 32 (s.irqPriority irq)

/-- `val & ((1 << PRIORITY_PER_ID) - 1)`. -/
def priorityOf (val : BitVec 32) : Nat :=
  (val &&& ((1#32 <<< priorityPerId) - 1#32)).toNat

/-- `plic__priority_write`. -/
def plicPriorityWrite (offset : Nat) (data : BitVec 32) : PlicState :=
  let irq := offset / 4
  if irq = 0 ∨ numIrq ≤ irq then s
  else
    { s with
      irqPriority := Function.update s.irqPriority irq (priorityOf data) }

/-- `plic__context_enable_read`. -/
def plicContextEnableRead (num offset : Nat) (data : BitVec 32) : BitVec 32 :=
  let irqWord := offset / 4
  if numIrqWord < irqWord then data
  else (s.contexts num).irqEnable irqWord

/-- The loop of `plic__context_enable_write`, for one source. -/
def enableWriteRound (irqWord : Nat) (oldVal newVal : BitVec 32)
    (c : PlicContext) (i : Nat) : PlicContext :=
  let irq := irqWord * 32 + i
  if (oldVal ^^^ newVal).getLsbD i = false then c
  else if newVal.getLsbD i = true ∧ s.irqLevel.test irq = true then
    { c with
      irqPending := c.irqPending.set irq
      irqPendingPriority :=
        Function.update c.irqPendingPriority irq (s.irqPriority irq) }
  else if newVal.getLsbD i = false then
    { c with
      irqPending := c.irqPending.clear irq
      irqPendingPriority := Function.update c.irqPendingPriority irq 0
      irqClaimed := c.irqClaimed.clear irq }
  else c

/-- The value that is stored to a word of `irq_enable`. -/
def enableValue (irqWord : Nat) (data : BitVec 32) : BitVec 32 :=
  if irqWord = 0 then data &&& ~~~1#32 else data

/-- What `plic__context_enable_write` does to the context. -/
def enableContext (irqWord : Nat) (data : BitVec 32) (c : PlicContext) :
    PlicContext :=
  let newVal := enableValue irqWord data
  (List.range 32).foldl
    (enableWriteRound s irqWord (c.irqEnable irqWord) newVal)
    { c with irqEnable := Function.update c.irqEnable irqWord newVal }

/-- `plic__context_enable_write`. -/
def plicContextEnableWrite (ok : Bool) (num offset : Nat)
    (data : BitVec 32) : PlicState :=
  let irqWord := offset / 4
  if numIrqWord < irqWord then s
  else
    plicContextIrqUpdate
      (s.setContext num (enableContext s irqWord data (s.contexts num))) ok num

/-- `plic__context_read`. -/
def plicContextRead (unset ok : Bool) (num offset : Nat)
    (data : BitVec 32) : BitVec 32 × PlicState :=
  if offset = contextThreshold then
    (BitVec.ofNat 32 (s.contexts num).irqPriorityThreshold, s)
  else if offset = contextClaim then
    let claim := plicContextIrqClaim s unset ok num
    (BitVec.ofNat 32 claim.1, claim.2)
  else (data, s)

/-- `plic__context_write`. -/
def plicContextWrite (ok : Bool) (num offset : Nat) (data : BitVec 32) :
    PlicState :=
  let c := s.contexts num
  if offset = contextThreshold then
    let val := priorityOf data
    if val ≤ maxPrio then
      s.setContext num { c with irqPriorityThreshold := val }
    else plicContextIrqUpdate s ok num
  else if offset = contextClaim then
    let val := data.toNat
    if val < numIrq ∧ c.irqEnable.test val = true then
      plicContextIrqUpdate
        (s.setContext num { c with irqClaimed := c.irqClaimed.clear val })
        ok num
    else s
  else plicContextIrqUpdate s ok num

/--
`plic__mmio_callback`.  The result has the data that the guest reads, which
are those it gave where no register is read.
-/
def plicMmioCallback (unset ok : Bool) (addr : BitVec 64) (data : BitVec 32)
    (len : Nat) (isWrite : Bool) : Except String (BitVec 32 × PlicState) :=
  if len ≠ 4 then .error s!"plic: invalid len={len}"
  else
    let addr := ((addr &&& ~~~3#64) - riscvIrqchip).toNat
    if isWrite then
      if priorityBase ≤ addr ∧ addr < enableBase then
        .ok (data, plicPriorityWrite s addr data)
      else if enableBase ≤ addr ∧ addr < contextBase then
        let cntx := (addr - enableBase) / enablePerHart
        let addr := addr - (cntx * enablePerHart + enableBase)
        if cntx < s.numContext then
          .ok (data, plicContextEnableWrite s ok cntx addr data)
        else .ok (data, s)
      else if contextBase ≤ addr ∧ addr < regSize then
        let cntx := (addr - contextBase) / contextPerHart
        let addr := addr - (cntx * contextPerHart + contextBase)
        if cntx < s.numContext then
          .ok (data, plicContextWrite s ok cntx addr data)
        else .ok (data, s)
      else .ok (data, s)
    else
      if priorityBase ≤ addr ∧ addr < enableBase then
        .ok (plicPriorityRead s addr data, s)
      else if enableBase ≤ addr ∧ addr < contextBase then
        let cntx := (addr - enableBase) / enablePerHart
        let addr := addr - (cntx * enablePerHart + enableBase)
        if cntx < s.numContext then
          .ok (plicContextEnableRead s cntx addr data, s)
        else .ok (data, s)
      else if contextBase ≤ addr ∧ addr < regSize then
        let cntx := (addr - contextBase) / contextPerHart
        let addr := addr - (cntx * contextPerHart + contextBase)
        if cntx < s.numContext then
          .ok (plicContextRead s unset ok cntx addr data)
        else .ok (data, s)
      else .ok (data, s)

end State

end Kemu.Arch.Plic
