import Kemu.Lib.MaskedWord
import Kemu.Lib.Transition
import Mathlib.Algebra.Group.Nat.Defs
import Mathlib.Logic.Function.Basic

/-!
# The XICS interrupt controller

The presentation layer (ICP) has a server for each vCPU: the interrupt that
is presented to it (XISR) and the priority below which it takes interrupts
(CPPR), both in one word, the priority of what is presented, and that of its
IPI (MFRR).  The source layer (ICS) has an entry for each interrupt.  What a
server does not take is rejected: the source remembers it and all rejected
interrupts are sent again when a server becomes ready.

The less a priority is, the more it is favoured.  The hypercalls and the
changes of interrupt lines are taken one after the other.
-/

namespace Kemu.Arch.Xics

open Kemu.Lib.MaskedWord

/-! ## State -/

/-- `XICS_NUM_IRQS`. -/
def xicsNumIrqs : Nat := 1024

/-- `XICS_IRQ_OFFSET`. -/
def xicsIrqOffset : Nat := 16

/-- `XICS_IPI`. -/
def xicsIpi : Nat := 2

/-- `XISR_MASK`. -/
def xisrMask : BitVec 32 := 0x00ffffff#32

/-- `CPPR_MASK`. -/
def cpprMask : BitVec 32 := 0xff000000#32

/--
`struct icp_server_state`, with the level of the interrupt line of its vCPU.
-/
structure IcpServerState where
  xirr : BitVec 32
  pendingPriority : UInt8
  mfrr : UInt8
  line : Bool
deriving DecidableEq, Repr

/-- `XISR`. -/
def IcpServerState.xisr (ss : IcpServerState) : Nat :=
  (ss.xirr &&& xisrMask).toNat

/-- `CPPR`. -/
def IcpServerState.cppr (ss : IcpServerState) : Nat :=
  (ss.xirr >>> 24).toNat

/-- `struct ics_irq_state`, without the field that nothing reads. -/
structure IcsIrqState where
  server : Nat
  priority : UInt8
  rejected : Bool
  maskedPending : Bool
deriving DecidableEq, Repr

/--
`struct icp_state` and `struct ics_state`.  `below` says that an IPI was
rejected, which writes in front of the array of the sources, `strayed` that
any other access was outside of an array.
-/
structure Controller where
  nrServers : Nat
  ss : Nat → IcpServerState
  irqs : Nat → IcsIrqState
  below : Bool
  strayed : Bool

/-- `xics_init`. -/
def xicsInit (nrcpus : Nat) : Controller where
  nrServers := nrcpus
  ss _ :=
    { xirr := 0
      pendingPriority := 0
      mfrr := 0xff
      line := false }
  irqs _ :=
    { server := 0
      priority := 0xff
      rejected := false
      maskedPending := false }
  below := false
  strayed := false

/-- The priority of a source that is masked. -/
def masked : UInt8 := 0xff

/-- Another state of a server. -/
def Controller.setServer (xics : Controller) (server : Nat) (ss : IcpServerState) :
    Controller :=
  { xics with
    ss := Function.update xics.ss server ss
    strayed := xics.strayed || decide (xics.nrServers ≤ server) }

/-- Another state of a source. -/
def Controller.setIrq (xics : Controller) (srcno : Nat) (irq : IcsIrqState) : Controller :=
  { xics with
    irqs := Function.update xics.irqs srcno irq
    strayed := xics.strayed || decide (xicsNumIrqs ≤ srcno) }

/-! ## Presentation -/

/-- `ics_valid_irq`. -/
def icsValidIrq (nr : Nat) : Bool :=
  decide (xicsIrqOffset ≤ nr) && decide (nr < xicsIrqOffset + xicsNumIrqs)

/-- `ics_reject` and `ics_reject_msi`. -/
def icsReject (xics : Controller) (nr : Nat) : Controller :=
  if nr = xicsIpi then
    { xics with below := true }
  else if icsValidIrq nr then
    xics.setIrq (nr - xicsIrqOffset)
      { xics.irqs (nr - xicsIrqOffset) with rejected := true }
  else
    { xics with strayed := true }

/-- The XISR and the priority of a server that is given an interrupt. -/
def IcpServerState.present (ss : IcpServerState) (nr : BitVec 32)
    (priority : UInt8) : IcpServerState :=
  { ss with
    xirr := put xisrMask ss.xirr nr
    pendingPriority := priority
    line := true }

/-- `icp_check_ipi`. -/
def icpCheckIpi (xics : Controller) (server : Nat) : Controller :=
  let ss := xics.ss server
  if ss.xisr ≠ 0 ∧ ss.pendingPriority ≤ ss.mfrr then
    xics
  else
    let xics := if ss.xisr ≠ 0 then icsReject xics ss.xisr else xics
    xics.setServer server
      ((xics.ss server).present (BitVec.ofNat 32 xicsIpi) ss.mfrr)

/-- `icp_irq`. -/
def icpIrq (xics : Controller) (server nr : Nat) (priority : UInt8) : Controller :=
  let ss := xics.ss server
  if ss.cppr ≤ priority.toNat ∨
      ss.xisr ≠ 0 ∧ ss.pendingPriority ≤ priority then
    icsReject xics nr
  else
    let xics := if ss.xisr ≠ 0 then icsReject xics ss.xisr else xics
    xics.setServer server
      ((xics.ss server).present (BitVec.ofNat 32 nr &&& xisrMask) priority)

/-- A turn of the loop of `ics_resend_msi`. -/
def resendTurn (xics : Controller) (srcno : Nat) : Controller :=
  let irq := xics.irqs srcno
  if irq.rejected then
    let xics := xics.setIrq srcno { irq with rejected := false }
    if irq.priority ≠ masked then
      icpIrq xics irq.server (srcno + xicsIrqOffset) irq.priority
    else
      xics
  else
    xics

/-- `ics_resend` and `ics_resend_msi`. -/
def icsResend (xics : Controller) : Controller :=
  (List.range xicsNumIrqs).foldl resendTurn xics

/-- `icp_resend`. -/
def icpResend (xics : Controller) (server : Nat) : Controller :=
  let ss := xics.ss server
  let xics :=
    if ss.mfrr.toNat < ss.cppr then icpCheckIpi xics server else xics
  icsResend xics

/-- The server with another CPPR. -/
def IcpServerState.setCppr (ss : IcpServerState) (cppr : BitVec 32) :
    IcpServerState :=
  { ss with xirr := put cpprMask ss.xirr cppr }

/-- The server without what it presented. -/
def IcpServerState.clearXisr (ss : IcpServerState) : IcpServerState :=
  { ss with xirr := ss.xirr &&& ~~~ xisrMask, line := false }

/-- A priority in the place of the CPPR. -/
def cpprBits (priority : UInt8) : BitVec 32 :=
  BitVec.ofNat 32 priority.toNat <<< 24

/-- `icp_set_cppr`. -/
def icpSetCppr (xics : Controller) (server : Nat) (cppr : UInt8) : Controller :=
  let ss := xics.ss server
  let oldCppr := ss.cppr
  let ss := ss.setCppr (cpprBits cppr)
  let xics := xics.setServer server ss
  if cppr.toNat < oldCppr then
    if ss.xisr ≠ 0 ∧ cppr ≤ ss.pendingPriority then
      icsReject (xics.setServer server ss.clearXisr) ss.xisr
    else
      xics
  else if ss.xisr = 0 then
    icpResend xics server
  else
    xics

/-- `icp_set_mfrr`. -/
def icpSetMfrr (xics : Controller) (nr : Nat) (mfrr : UInt8) : Controller :=
  let xics := xics.setServer nr { xics.ss nr with mfrr := mfrr }
  if mfrr.toNat < (xics.ss nr).cppr then icpCheckIpi xics nr else xics

/-- `icp_accept`, with what it returns. -/
def icpAccept (xics : Controller) (server : Nat) : BitVec 32 × Controller :=
  let ss := xics.ss server
  (ss.xirr,
    xics.setServer server
      { ss with xirr := cpprBits ss.pendingPriority, line := false })

/-- `icp_eoi`. -/
def icpEoi (xics : Controller) (server : Nat) (xirr : BitVec 32) : Controller :=
  let ss := (xics.ss server).setCppr (xirr &&& cpprMask)
  let xics := xics.setServer server ss
  if ss.xisr = 0 then icpResend xics server else xics

/-! ## Sources -/

/-- `ics_set_irq_msi`. -/
def icsSetIrqMsi (xics : Controller) (srcno : Nat) (val : Bool) : Controller :=
  let irq := xics.irqs srcno
  if val then
    if irq.priority = masked then
      xics.setIrq srcno { irq with maskedPending := true }
    else
      icpIrq xics irq.server (srcno + xicsIrqOffset) irq.priority
  else
    xics

/-- `ics_write_xive_msi`. -/
def icsWriteXiveMsi (xics : Controller) (nr server : Nat) (priority : UInt8) :
    Controller :=
  let srcno := nr - xicsIrqOffset
  let irq :=
    { xics.irqs srcno with server := server, priority := priority }
  let xics := xics.setIrq srcno irq
  if irq.maskedPending = false ∨ priority = masked then
    xics
  else
    icpIrq (xics.setIrq srcno { irq with maskedPending := false }) server nr
      priority

/-! ## Calls -/

/--
What happens next: a hypercall of a vCPU, `ibm,set-xive` with the right
numbers of arguments and results, or `kvm_irq_line` on a line that
`irq__alloc_line` gave out.
-/
inductive Call (nrcpus : Nat) where
  | hCppr (cpuId : Fin nrcpus) (cppr : UInt64)
  | hIpi (server mfrr : UInt64)
  | hXirr (cpuId : Fin nrcpus)
  | hEoi (cpuId : Fin nrcpus) (xirr : UInt64)
  | setXive (nr server priority : UInt32)
  | irqLine (srcno : Fin xicsNumIrqs) (level : Bool)
deriving DecidableEq, Repr

/--
One call.  The process is not followed after an IPI was rejected.
-/
def xicsStep {nrcpus : Nat} (xics : Controller) (call : Call nrcpus) :
    Controller :=
  if xics.below then
    xics
  else
    match call with
    | .hCppr cpuId cppr => icpSetCppr xics cpuId cppr.toUInt8
    | .hIpi server mfrr =>
        -- `H_PARAMETER` for a server that there is not
        if xics.nrServers ≤ server.toNat then
          xics
        else
          icpSetMfrr xics server.toNat mfrr.toUInt8
    | .hXirr cpuId => (icpAccept xics cpuId).2
    | .hEoi cpuId xirr => icpEoi xics cpuId xirr.toUInt32.toBitVec
    | .setXive nr server priority =>
        -- the result is -3 when an argument is not valid
        if icsValidIrq nr.toNat = false ∨
            xics.nrServers ≤ server.toNat ∨ 0xff < priority.toNat then
          xics
        else
          icsWriteXiveMsi xics nr.toNat server.toNat priority.toUInt8
    | .irqLine srcno level => icsSetIrqMsi xics srcno level

/-! ## The fields of a server -/

namespace IcpServerState

variable (ss : IcpServerState)

theorem xisr_fits {nr : Nat} (small : nr < 2 ^ 24) :
    BitVec.ofNat 32 nr &&& xisrMask = BitVec.ofNat 32 nr := by
  apply BitVec.eq_of_toNat_eq
  rw [BitVec.toNat_and, BitVec.toNat_ofNat, Nat.mod_eq_of_lt (by omega)]
  exact (Nat.and_two_pow_sub_one_eq_mod nr 24).trans (Nat.mod_eq_of_lt small)

/-- A number of eight bits fits the mask of eight bits. -/
theorem byte_fits {value : BitVec 32} (small : value.toNat < 2 ^ 8) :
    value &&& 0xff#32 = value := by
  apply BitVec.eq_of_toNat_eq
  rw [BitVec.toNat_and]
  exact
    (Nat.and_two_pow_sub_one_eq_mod value.toNat 8).trans
      (Nat.mod_eq_of_lt small)

theorem cpprMask_eq : cpprMask = 0xff#32 <<< 24 := by
  decide

theorem cpprBits_fits (priority : UInt8) :
    cpprBits priority &&& cpprMask = cpprBits priority := by
  have small := priority.toNat_lt
  have byte : (BitVec.ofNat 32 priority.toNat).toNat < 2 ^ 8 := by
    rw [BitVec.toNat_ofNat, Nat.mod_eq_of_lt (by omega)]
    exact small
  rw [cpprMask_eq, cpprBits, ← BitVec.shiftLeft_and_distrib,
    byte_fits byte]

theorem masks_apart : xisrMask &&& cpprMask = 0#32 := by
  decide

@[simp]
theorem xisr_present (nr : BitVec 32) (priority : UInt8)
    (fits : nr &&& xisrMask = nr) :
    (ss.present nr priority).xisr = nr.toNat := by
  unfold xisr present
  rw [put_and_mask _ _ fits]

/-- Another CPPR leaves what is presented. -/
theorem xisr_setCppr {cppr : BitVec 32} (fits : cppr &&& cpprMask = cppr) :
    (ss.setCppr cppr).xisr = ss.xisr := by
  unfold xisr setCppr
  rw [put_and_other _ _ fits
    ((BitVec.and_comm ..).trans masks_apart)]

@[simp]
theorem xisr_clearXisr : ss.clearXisr.xisr = 0 := by
  unfold xisr clearXisr
  rw [BitVec.and_assoc, BitVec.and_comm (~~~ xisrMask),
    BitVec.and_not_self]
  simp

/-- After `icp_accept` nothing is presented. -/
theorem xisr_accept (priority : UInt8) (line : Bool) :
    { ss with xirr := cpprBits priority, line := line }.xisr = 0 := by
  unfold xisr
  dsimp only
  rw [← cpprBits_fits, BitVec.and_assoc, BitVec.and_comm cpprMask,
    masks_apart]
  simp

end IcpServerState

/-! ## What the operations do -/

section Effects

variable (xics : Controller)

theorem ss_setServer (server other : Nat) (ss : IcpServerState) :
    (xics.setServer server ss).ss other =
      if other = server then ss else xics.ss other :=
  Function.update_apply ..

theorem irqs_setIrq (srcno other : Nat) (irq : IcsIrqState) :
    (xics.setIrq srcno irq).irqs other =
      if other = srcno then irq else xics.irqs other :=
  Function.update_apply ..

@[simp]
theorem icsReject_ss (nr : Nat) : (icsReject xics nr).ss = xics.ss := by
  unfold icsReject Controller.setIrq
  split
  · rfl
  · split <;> rfl

/-- The number of a source is a valid interrupt. -/
theorem validIrq_iff {nr : Nat} :
    icsValidIrq nr = true ↔ ∃ srcno < xicsNumIrqs, nr = srcno + 16 := by
  unfold icsValidIrq xicsIrqOffset
  rw [Bool.and_eq_true, decide_eq_true_iff, decide_eq_true_iff]
  constructor
  · intro bounds
    exact ⟨nr - 16, by omega, by omega⟩
  · rintro ⟨srcno, small, rfl⟩
    omega

/-- A source remembers that it was rejected. -/
theorem icsReject_source {srcno : Nat} (small : srcno < xicsNumIrqs) :
    icsReject xics (srcno + 16) =
      xics.setIrq srcno { xics.irqs srcno with rejected := true } := by
  have valid : icsValidIrq (srcno + 16) = true :=
    validIrq_iff.2 ⟨srcno, small, rfl⟩
  unfold icsReject xicsIpi
  rw [if_neg (by omega), if_pos valid]
  rfl

theorem icsReject_ipi :
    icsReject xics xicsIpi = { xics with below := true } :=
  if_pos rfl

/-- What a server presents goes back to its source. -/
def displace (server : Nat) : Controller :=
  if (xics.ss server).xisr ≠ 0 then
    icsReject xics (xics.ss server).xisr
  else
    xics

/-- A server is given an interrupt in the place of the one before. -/
def offer (server nr : Nat) (priority : UInt8) : Controller :=
  (displace xics server).setServer server
    ((xics.ss server).present (BitVec.ofNat 32 nr) priority)

/-- The server does not take an interrupt of a priority. -/
def IcpServerState.Blocks (ss : IcpServerState) (priority : UInt8) : Prop :=
  ss.cppr ≤ priority.toNat ∨ ss.xisr ≠ 0 ∧ ss.pendingPriority ≤ priority

instance (ss : IcpServerState) (priority : UInt8) :
    Decidable (ss.Blocks priority) :=
  inferInstanceAs (Decidable (_ ∨ _))

@[simp]
theorem displace_ss (server : Nat) : (displace xics server).ss = xics.ss := by
  unfold displace
  split
  · exact icsReject_ss xics _
  · rfl

theorem icpIrq_eq (server : Nat) {nr : Nat} (priority : UInt8)
    (small : nr < 2 ^ 24) :
    icpIrq xics server nr priority =
      if (xics.ss server).Blocks priority then
        icsReject xics nr
      else
        offer xics server nr priority := by
  unfold icpIrq offer IcpServerState.Blocks
  dsimp only
  rw [IcpServerState.xisr_fits small]
  change (if _ then _ else (displace xics server).setServer server
    (((displace xics server).ss server).present _ _)) = _
  rw [displace_ss]
  rfl

theorem icpCheckIpi_eq (server : Nat) :
    icpCheckIpi xics server =
      if (xics.ss server).xisr ≠ 0 ∧
          (xics.ss server).pendingPriority ≤ (xics.ss server).mfrr then
        xics
      else
        offer xics server xicsIpi (xics.ss server).mfrr := by
  unfold icpCheckIpi offer
  dsimp only
  change (if _ then _ else (displace xics server).setServer server
    (((displace xics server).ss server).present _ _)) = _
  rw [displace_ss]

end Effects

end Kemu.Arch.Xics
