import Kemu.Arch.PlicClaims

/-!
# The invariant of the interrupt controller

The invariant says of each source what its bits in a context have to do with
the registers of the guest and with the claims: what waits is what is to be
delivered.  Each operation on a source keeps this under its condition.  The
line of a vCPU shows whether a source waits in one of its contexts, if this is
so before the line is updated for one of them.
-/

namespace Kemu.Arch.Plic

open Kemu.Lib Kemu.Lib.Selection

/-! ## Sources -/

/--
What holds of a source in a context, with its priority, whether the context
has claimed it, and whether anyone has.
-/
structure Source.Sound (source : Source) (irq threshold irqPrio : Nat)
    (mine anyone : Prop) : Prop where
  known :
    source.pending = true → source.enabled = true ∧ 0 < irq ∧ irq < numIrq
  held :
    source.claimed = true → source.enabled = true ∧ irq < numIrq ∧ mine
  latched :
    source.Waiting → source.priority = irqPrio ∧ threshold < irqPrio
  fresh : source.Waiting → ¬ anyone

section Source

variable {source : Source} {irq threshold irqPrio : Nat}
  {mine anyone mine' anyone' : Prop}

theorem Source.Sound.raise
    (sound : source.Sound irq threshold irqPrio mine anyone)
    (enabled : source.enabled = true) (positive : 0 < irq)
    (inside : irq < numIrq)
    (may : source.claimed = false → threshold < irqPrio ∧ ¬ anyone)
    (edge : Bool) :
    (source.trig irqPrio true edge).Sound irq threshold irqPrio mine
      anyone where
  known _ := ⟨enabled, positive, inside⟩
  held := sound.held
  latched waits := ⟨rfl, (may waits.2).1⟩
  fresh waits := (may waits.2).2

theorem Source.Sound.lower (edge : Bool) :
    (source.trig irqPrio false edge).Sound irq threshold irqPrio mine
      anyone where
  known pending := Bool.noConfusion pending
  held claimed := Bool.noConfusion claimed
  latched waits := Bool.noConfusion waits.1
  fresh waits := Bool.noConfusion waits.1

theorem Source.Sound.enable
    (sound : source.Sound irq threshold irqPrio mine anyone)
    (inside : irq < numIrq) {bit level : Bool}
    (positive : bit = true → 0 < irq)
    (may : bit = true → source.enabled = false → level = true →
      threshold < irqPrio ∧ ¬ anyone) :
    (source.enable bit level irqPrio).Sound irq threshold irqPrio mine
      anyone := by
  unfold Source.enable
  by_cases same : source.enabled = bit
  · rw [if_pos same]
    exact sound
  · rw [if_neg same]
    cases bit with
    | false =>
        exact
          { known := fun pending => Bool.noConfusion pending
            held := fun claimed => Bool.noConfusion claimed
            latched := fun waits => Bool.noConfusion waits.1
            fresh := fun waits => Bool.noConfusion waits.1 }
    | true =>
        have disabled : source.enabled = false := by simpa using same
        cases level with
        | false =>
            exact
              { known := fun pending => ⟨rfl, (sound.known pending).2⟩
                held := fun claimed => ⟨rfl, (sound.held claimed).2⟩
                latched := sound.latched
                fresh := sound.fresh }
        | true =>
            obtain ⟨above, free⟩ := may rfl disabled rfl
            exact
              { known := fun _ => ⟨rfl, positive rfl, inside⟩
                held := fun claimed => ⟨rfl, (sound.held claimed).2⟩
                latched := fun _ => ⟨rfl, above⟩
                fresh := fun _ => free }

/-- What waits and stays enabled goes on waiting. -/
theorem Source.Sound.waiting_enable
    (sound : source.Sound irq threshold irqPrio mine anyone)
    (waits : source.Waiting) {bit : Bool} (stays : bit = true)
    (level : Bool) : (source.enable bit level irqPrio).Waiting := by
  have same : source.enabled = bit :=
    (sound.known waits.1).1.trans stays.symm
  rw [Source.enable, if_pos same]
  exact waits

/-- What is enabled while its line is high begins to wait. -/
theorem Source.Sound.waiting_enabled
    (sound : source.Sound irq threshold irqPrio mine anyone)
    (disabled : source.enabled = false) :
    (source.enable true true irqPrio).Waiting := by
  have free : source.claimed = false := by
    cases claimed : source.claimed with
    | false => rfl
    | true =>
        exact Bool.noConfusion (disabled.symm.trans (sound.held claimed).1)
  rw [Source.enable, disabled]
  exact ⟨rfl, free⟩

/-- A claimed source waits no more. -/
theorem Source.not_waiting_claim : ¬ source.claim.Waiting := by
  unfold Source.claim
  split
  · exact fun waits => Bool.noConfusion waits.1
  · exact fun waits => Bool.noConfusion waits.2

theorem Source.Sound.claim
    (sound : source.Sound irq threshold irqPrio mine anyone)
    (waits : source.Waiting) (recorded : mine') :
    source.claim.Sound irq threshold irqPrio mine' anyone' := by
  refine
    { known := ?_
      held := ?_
      latched := fun again => absurd again Source.not_waiting_claim
      fresh := fun again => absurd again Source.not_waiting_claim }
  · unfold Source.claim
    split
    · exact fun pending => Bool.noConfusion pending
    · exact sound.known
  · unfold Source.claim
    split
    · exact fun claimed => Bool.noConfusion claimed
    · intro _
      obtain ⟨enabled, _, inside⟩ := sound.known waits.1
      exact ⟨enabled, inside, recorded⟩

theorem Source.Sound.complete
    (sound : source.Sound irq threshold irqPrio mine anyone)
    (may : source.pending = true → source.claimed = true →
      source.priority = irqPrio ∧ threshold < irqPrio)
    (released : mine → ¬ anyone') (fewer : anyone' → anyone) :
    source.complete.Sound irq threshold irqPrio mine' anyone' where
  known := sound.known
  held claimed := Bool.noConfusion claimed
  latched waits := by
    cases bit : source.claimed with
    | false => exact sound.latched ⟨waits.1, bit⟩
    | true => exact may waits.1 bit
  fresh waits := by
    cases bit : source.claimed with
    | false => exact fun still => sound.fresh ⟨waits.1, bit⟩ (fewer still)
    | true => exact released (sound.held bit).2.2

/-- The claims change, but not in what concerns the source. -/
theorem Source.Sound.reclaim
    (sound : source.Sound irq threshold irqPrio mine anyone)
    (kept : source.claimed = true → mine → mine')
    (same : source.Waiting → anyone' → anyone) :
    source.Sound irq threshold irqPrio mine' anyone' where
  known := sound.known
  held claimed := by
    obtain ⟨enabled, inside, claims⟩ := sound.held claimed
    exact ⟨enabled, inside, kept claimed claims⟩
  latched := sound.latched
  fresh waits claims := sound.fresh waits (same waits claims)

/-- The registers change, but not in what concerns the source. -/
theorem Source.Sound.regard {threshold' irqPrio' : Nat}
    (sound : source.Sound irq threshold irqPrio mine anyone)
    (same : source.Waiting → irqPrio' = irqPrio)
    (above : source.Waiting → threshold' < irqPrio) :
    source.Sound irq threshold' irqPrio' mine anyone where
  known := sound.known
  held := sound.held
  latched waits :=
    ⟨(sound.latched waits).1.trans (same waits).symm,
      same waits ▸ above waits⟩
  fresh := sound.fresh

end Source

/-! ## The machine -/

section Machine

variable (m : Machine)

/-- Every source in every context, and a source has one claim at most. -/
structure Machine.Sound : Prop where
  sources : ∀ num < m.plic.numContext, ∀ irq,
    ((m.plic.contexts num).source irq).Sound irq
      (m.plic.contexts num).irqPriorityThreshold (m.plic.irqPriority irq)
      (m.outstanding num irq = true) (m.Claimed irq)
  owner : ∀ num < m.plic.numContext, ∀ other < m.plic.numContext, ∀ irq,
    m.outstanding num irq = true → m.outstanding other irq = true →
      num = other

/-- The line of a vCPU shows whether a source waits in one of its contexts. -/
def PlicState.LineShows (s : PlicState) : Prop :=
  ∀ cpu, s.interrupt cpu = true ↔
    ∃ num < s.numContext, vcpu num = cpu ∧
      ∃ irq < numIrq, (s.contexts num).Waiting irq

/-- The invariant. -/
structure Machine.Fine : Prop where
  sound : m.Sound
  shows : m.plic.LineShows

variable {m} {num : Nat}

/-- No context ever holds the source that does not exist. -/
theorem Machine.Sound.unused (sound : m.Sound)
    (inside : num < m.plic.numContext) :
    ¬ (m.plic.contexts num).Waiting 0 :=
  fun waits =>
    absurd ((sound.sources num inside 0).known waits.1).2.1
      (Nat.lt_irrefl 0)

/-- What waits is what is to be delivered. -/
theorem Machine.Sound.deliverable_iff (sound : m.Sound)
    (inside : num < m.plic.numContext) (irq : Nat) :
    Deliverable m num irq ↔ (m.plic.contexts num).Waiting irq := by
  have source := sound.sources num inside irq
  constructor
  · intro deliverable
    refine ⟨deliverable.pending, ?_⟩
    cases bit : ((m.plic.contexts num).source irq).claimed with
    | false => rfl
    | true =>
        have mine := (source.held bit).2.2
        exact absurd ⟨num, inside, mine⟩ deliverable.unclaimed
  · intro waits
    exact
      { enabled := (source.known waits.1).1
        pending := waits.1
        unclaimed := source.fresh waits
        above := (source.latched waits).2 }

theorem Machine.Fine.lineRight (fine : m.Fine) : LineRight m := by
  intro cpu
  rw [fine.shows cpu]
  constructor
  · rintro ⟨num, inside, here, irq, known, waits⟩
    exact
      ⟨num, inside, here, irq, known,
        (fine.sound.deliverable_iff inside irq).2 waits⟩
  · rintro ⟨num, inside, here, irq, known, deliverable⟩
    exact
      ⟨num, inside, here, irq, known,
        (fine.sound.deliverable_iff inside irq).1 deliverable⟩

/-- The scan of a context finds what a claim is to return. -/
theorem Machine.Sound.rightAnswer (sound : m.Sound)
    (inside : num < m.plic.numContext) :
    RightAnswer m num
      (plicContextBestPendingIrq (m.plic.contexts num)) :=
  (bestPendingIrq_selected (sound.unused inside)).congr
    (fun irq _ => (sound.deliverable_iff inside irq).symm)
    (fun irq waits => ((sound.sources num inside irq).latched waits).1)

theorem start_fine (nrcpus : Nat) : (start nrcpus).Fine := by
  have quiet : ∀ num irq,
      ((start nrcpus).plic.contexts num).source irq =
        ⟨false, false, 0, false, false⟩ := by
    intro num irq
    simp [start, plicInit, plicContextZero, PlicContext.source]
  refine ⟨⟨?_, ?_⟩, ?_⟩
  · intro num _ irq
    rw [quiet num irq]
    exact
      { known := fun pending => Bool.noConfusion pending
        held := fun claimed => Bool.noConfusion claimed
        latched := fun waits => Bool.noConfusion waits.1
        fresh := fun waits => Bool.noConfusion waits.1 }
  · exact fun _ _ _ _ _ claimed => Bool.noConfusion claimed
  · intro cpu
    refine iff_of_false (fun set => Bool.noConfusion set) ?_
    rintro ⟨num, _, _, irq, _, waits⟩
    rw [PlicContext.Waiting, quiet num irq] at waits
    exact Bool.noConfusion waits.1

end Machine

/-! ## What a call leaves alone -/

section Frame

variable (s : PlicState) (ok : Bool) (num : Nat)

@[simp]
theorem kvmInterrupt_contexts (virq : Bool) :
    (kvmInterrupt ok num virq s).contexts = s.contexts := by
  cases ok <;> rfl

@[simp]
theorem kvmInterrupt_irqPriority (virq : Bool) :
    (kvmInterrupt ok num virq s).irqPriority = s.irqPriority := by
  cases ok <;> rfl

@[simp]
theorem kvmInterrupt_numContext (virq : Bool) :
    (kvmInterrupt ok num virq s).numContext = s.numContext := by
  cases ok <;> rfl

theorem kvmInterrupt_other (virq : Bool) {cpu : Nat}
    (other : cpu ≠ vcpu num) :
    (kvmInterrupt ok num virq s).interrupt cpu = s.interrupt cpu := by
  cases ok
  · rfl
  · exact Function.update_of_ne other _ _

@[simp]
theorem plicContextIrqUpdate_contexts :
    (plicContextIrqUpdate s ok num).contexts = s.contexts :=
  kvmInterrupt_contexts s ok num _

@[simp]
theorem plicContextIrqUpdate_irqPriority :
    (plicContextIrqUpdate s ok num).irqPriority = s.irqPriority :=
  kvmInterrupt_irqPriority s ok num _

@[simp]
theorem plicContextIrqUpdate_numContext :
    (plicContextIrqUpdate s ok num).numContext = s.numContext :=
  kvmInterrupt_numContext s ok num _

/--
The state is the one before with one context replaced, up to the levels and
to the line of the context's vCPU.
-/
structure Replaces (s before : PlicState) (num : Nat) (c : PlicContext) :
    Prop where
  contexts : s.contexts = Function.update before.contexts num c
  irqPriority : s.irqPriority = before.irqPriority
  numContext : s.numContext = before.numContext
  interrupt : ∀ cpu, cpu ≠ vcpu num → s.interrupt cpu = before.interrupt cpu

theorem replaces_setContext (c : PlicContext) :
    Replaces (s.setContext num c) s num c :=
  ⟨rfl, rfl, rfl, fun _ _ => rfl⟩

theorem replaces_self : Replaces s s num (s.contexts num) :=
  ⟨(Function.update_eq_self num s.contexts).symm, rfl, rfl, fun _ _ => rfl⟩

end Frame

/-! ## The line after a change -/

section Line

variable {m : Machine} {s : PlicState} {num : Nat} {c : PlicContext}

theorem Replaces.here (replaces : Replaces s m.plic num c) :
    s.contexts num = c := by
  rw [replaces.contexts]
  exact Function.update_self num c m.plic.contexts

theorem Replaces.elsewhere (replaces : Replaces s m.plic num c)
    {other : Nat} (apart : other ≠ num) :
    s.contexts other = m.plic.contexts other := by
  rw [replaces.contexts]
  exact Function.update_of_ne apart c m.plic.contexts

/-- Something was selected exactly if something waits. -/
theorem bestPendingIrq_ne_zero_iff (unused : ¬ c.Waiting 0) :
    (plicContextBestPendingIrq c != 0) = true ↔
      ∃ irq < numIrq, c.Waiting irq := by
  rw [← (bestPendingIrq_selected unused).isSome_iff, sourceOf]
  by_cases nothing : plicContextBestPendingIrq c = 0 <;> simp [nothing]

/-- The update shows the context, which is enough if it is quiet beside it. -/
theorem lineShows_update (shows : m.plic.LineShows)
    (replaces : Replaces s m.plic num c) (inside : num < m.plic.numContext)
    (unused : ¬ c.Waiting 0) {ok : Bool} {left : Nat → Prop}
    (settles : Settles m ok num left)
    (remain :
      (∃ irq < numIrq, left irq) → ∃ irq < numIrq, c.Waiting irq) :
    (plicContextIrqUpdate s ok num).LineShows := by
  obtain ⟨rfl, enough⟩ := settles
  intro cpu
  rw [plicContextIrqUpdate_numContext, plicContextIrqUpdate_contexts,
    replaces.numContext]
  by_cases here : cpu = vcpu num
  · subst here
    have line :
        (plicContextIrqUpdate s true num).interrupt (vcpu num) =
          (plicContextBestPendingIrq c != 0) := by
      rw [plicContextIrqUpdate, replaces.here]
      exact Function.update_self _ _ _
    rw [line, bestPendingIrq_ne_zero_iff unused]
    constructor
    · rintro ⟨irq, known, waits⟩
      exact ⟨num, inside, rfl, irq, known, replaces.here ▸ waits⟩
    · rintro ⟨other, otherInside, same, irq, known, waits⟩
      by_cases apart : other = num
      · rw [apart, replaces.here] at waits
        exact ⟨irq, known, waits⟩
      · rw [replaces.elsewhere apart] at waits
        rcases enough with some | quiet
        · exact remain some
        · exact absurd waits (quiet other otherInside apart same irq known)
  · have line :
        (plicContextIrqUpdate s true num).interrupt cpu =
          m.plic.interrupt cpu :=
      (kvmInterrupt_other s true num _ here).trans
        (replaces.interrupt cpu here)
    have others :
        ∀ other, vcpu other = cpu →
          s.contexts other = m.plic.contexts other := by
      intro other same
      exact replaces.elsewhere (fun equal => here (equal ▸ same.symm))
    rw [line, shows cpu]
    constructor
    · rintro ⟨other, otherInside, same, irq, known, waits⟩
      exact
        ⟨other, otherInside, same, irq, known, (others other same).symm ▸ waits⟩
    · rintro ⟨other, otherInside, same, irq, known, waits⟩
      exact ⟨other, otherInside, same, irq, known, others other same ▸ waits⟩

/-- A change of a context together with the update of its line. -/
theorem Machine.Fine.change (fine : m.Fine)
    (replaces : Replaces s m.plic num c) (inside : num < m.plic.numContext)
    {outstanding : Nat → Nat → Bool}
    (sound :
      ({ m with plic := s, outstanding := outstanding } : Machine).Sound)
    {ok : Bool} {left : Nat → Prop} (settles : Settles m ok num left)
    (remain :
      (∃ irq < numIrq, left irq) → ∃ irq < numIrq, c.Waiting irq) :
    ({ m with
        plic := plicContextIrqUpdate s ok num
        outstanding := outstanding } : Machine).Fine := by
  have unused : ¬ c.Waiting 0 := by
    have within : num < s.numContext := replaces.numContext ▸ inside
    exact replaces.here ▸ sound.unused within
  refine ⟨?_, lineShows_update fine.shows replaces inside unused settles remain⟩
  constructor
  · intro other otherInside irq
    have kept := sound.sources other (by simpa using otherInside) irq
    simpa [Machine.Claimed] using kept
  · intro first firstInside second secondInside
    exact
      sound.owner first (by simpa using firstInside) second
        (by simpa using secondInside)

/-- The sources of the context, those of the others, and the claims. -/
theorem Replaces.sound (replaces : Replaces s m.plic num c)
    {outstanding : Nat → Nat → Bool}
    (here : ∀ irq, (c.source irq).Sound irq c.irqPriorityThreshold
      (m.plic.irqPriority irq) (outstanding num irq = true)
      (∃ holder < m.plic.numContext, outstanding holder irq = true))
    (elsewhere : ∀ other < m.plic.numContext, other ≠ num → ∀ irq,
      ((m.plic.contexts other).source irq).Sound irq
        (m.plic.contexts other).irqPriorityThreshold
        (m.plic.irqPriority irq) (outstanding other irq = true)
        (∃ holder < m.plic.numContext, outstanding holder irq = true))
    (owner : ∀ first < m.plic.numContext, ∀ second < m.plic.numContext,
      ∀ irq, outstanding first irq = true → outstanding second irq = true →
        first = second) :
    ({ m with plic := s, outstanding := outstanding } : Machine).Sound := by
  constructor
  · intro other otherInside irq
    rw [Machine.Claimed, replaces.irqPriority, replaces.numContext]
    by_cases apart : other = num
    · rw [apart, replaces.here]
      exact here irq
    · rw [replaces.elsewhere apart]
      exact elsewhere other (replaces.numContext ▸ otherInside) apart irq
  · rw [replaces.numContext]
    exact owner

/-- The claims are as before. -/
theorem Machine.Sound.replace (sound : m.Sound)
    (replaces : Replaces s m.plic num c)
    (sources : ∀ irq, (c.source irq).Sound irq c.irqPriorityThreshold
      (m.plic.irqPriority irq) (m.outstanding num irq = true)
      (m.Claimed irq)) :
    ({ m with plic := s } : Machine).Sound :=
  replaces.sound sources
    (fun other inside _ => sound.sources other inside) sound.owner

end Line

end Kemu.Arch.Plic
