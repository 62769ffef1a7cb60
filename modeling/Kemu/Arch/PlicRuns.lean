import Kemu.Arch.PlicInvariant

/-!
# Runs of the interrupt controller

Each call keeps the invariant under its condition, and what it does is right
where the invariant holds; so all is right along every run whose calls meet the
condition.
-/

namespace Kemu.Arch.Plic

open Kemu.Lib Kemu.Lib.Selection Kemu.Lib.Transition

/-! ## Registers without a claim -/

section Calls

variable {m : Machine} {ok : Bool} {num : Nat} {data : BitVec 32}

theorem priorityWrite_fine (fine : m.Fine) {offset : Nat}
    (allowed : PriorityAllowed m (offset / 4) (priorityOf data)) :
    ({ m with plic := plicPriorityWrite m.plic offset data } :
      Machine).Fine := by
  simp only [plicPriorityWrite]
  split
  · exact fine
  · next valid =>
      obtain ⟨positive, known⟩ := not_or.1 valid
      refine ⟨⟨?_, fine.sound.owner⟩, fine.shows⟩
      intro num inside irq
      have source := fine.sound.sources num inside irq
      refine source.regard (fun waits => ?_)
        (fun waits => (source.latched waits).2)
      by_cases here : irq = offset / 4
      · subst here
        dsimp only
        rw [Function.update_self]
        exact
          allowed (Nat.pos_of_ne_zero positive) (Nat.not_le.1 known) num
            inside waits
      · exact Function.update_of_ne here _ _

/-- The bit of the source that does not exist stays clear. -/
theorem enableValue_zero (data : BitVec 32) :
    (enableValue 0 data).getLsbD 0 = false := by
  simp [enableValue]

theorem enableWrite_fine (fine : m.Fine) {offset : Nat}
    (inside : num < m.plic.numContext) (range : offset < enablePerHart)
    (allowed : EnableAllowed m ok num (offset / 4) data) :
    ({ m with plic := plicContextEnableWrite m.plic ok num offset data } :
      Machine).Fine := by
  obtain ⟨begins, settles⟩ := allowed
  have small : offset / 4 < numIrqWord :=
    Nat.div_lt_of_lt_mul range
  have valid : ¬ numIrqWord < offset / 4 := Nat.not_lt.2 (Nat.le_of_lt small)
  have within : ∀ irq, irq / 32 = offset / 4 → irq < numIrq := by
    intro irq word
    exact Nat.lt_mul_of_div_lt (word ▸ small) (Nat.le_of_ble_eq_true rfl)
  simp only [plicContextEnableWrite, if_neg valid]
  have replaces :=
    replaces_setContext m.plic num
      (enableContext m.plic (offset / 4) data (m.plic.contexts num))
  refine fine.change replaces inside
    (fine.sound.replace replaces ?_) settles
    (Exists.imp fun irq => And.imp_right fun left => ?_)
  · intro irq
    have source := fine.sound.sources num inside irq
    rw [enableContext_source, enableContext_threshold]
    by_cases word : irq / 32 = offset / 4
    · rw [if_pos word]
      refine source.enable (within irq word) (fun bit => ?_) ?_
      · refine Nat.pos_of_ne_zero (fun zero => ?_)
        subst zero
        rw [← word] at bit
        exact Bool.noConfusion (bit.symm.trans (enableValue_zero data))
      · intro bit disabled level
        exact begins irq (within irq word) ⟨word, bit, disabled, level⟩
    · rw [if_neg word]
      exact source
  · have source := fine.sound.sources num inside irq
    rw [PlicContext.Waiting, enableContext_source]
    rcases left with ⟨waits, stays⟩ | ⟨word, bit, disabled, level⟩
    · by_cases word : irq / 32 = offset / 4
      · rw [if_pos word]
        exact source.waiting_enable waits (stays word) _
      · rw [if_neg word]
        exact waits
    · rw [if_pos word, bit, level]
      exact source.waiting_enabled disabled

theorem priorityOf_le (val : BitVec 32) : priorityOf val ≤ maxPrio := by
  rw [priorityOf, BitVec.toNat_and]
  exact Nat.and_le_right

theorem thresholdWrite_fine (fine : m.Fine)
    (inside : num < m.plic.numContext) {threshold : Nat}
    (allowed : ThresholdAllowed m num threshold) :
    ({ m with
        plic := m.plic.setContext num
          { m.plic.contexts num with irqPriorityThreshold := threshold } } :
      Machine).Fine := by
  have replaces :=
    replaces_setContext m.plic num
      { m.plic.contexts num with irqPriorityThreshold := threshold }
  refine ⟨fine.sound.replace replaces ?_, ?_⟩
  · intro irq
    have source := fine.sound.sources num inside irq
    rw [threshold_source]
    refine source.regard (fun _ => rfl) (fun waits => ?_)
    exact allowed irq (source.known waits.1).2.2 waits
  · have same : ∀ other irq,
        ((m.plic.setContext num
          { m.plic.contexts num with
            irqPriorityThreshold := threshold }).contexts other).source irq =
          (m.plic.contexts other).source irq := by
      intro other irq
      by_cases here : other = num
      · subst here
        rw [replaces.here, threshold_source]
      · rw [replaces.elsewhere here]
    intro cpu
    simp only [PlicContext.Waiting, same]
    exact fine.shows cpu

/-- The line is updated without any change of the context. -/
theorem update_fine (fine : m.Fine) (inside : num < m.plic.numContext)
    (settles : Settles m ok num (m.plic.contexts num).Waiting) :
    ({ m with plic := plicContextIrqUpdate m.plic ok num } :
      Machine).Fine := by
  exact
    fine.change (replaces_self m.plic num) inside fine.sound settles
      (fun waiting => waiting)

end Calls

/-! ## Claims and completions -/

section Claims

variable {m : Machine} {s : PlicState} {c : PlicContext} {num irq : Nat}

@[simp]
theorem setClaim_apply (outstanding : Nat → Nat → Bool) (num irq : Nat)
    (claimed : Bool) (other n : Nat) :
    setClaim outstanding num irq claimed other n =
      if other = num ∧ n = irq then claimed else outstanding other n := by
  rw [setClaim, Function.update_apply]
  by_cases here : other = num
  · subst here
    by_cases same : n = irq <;> simp [same]
  · simp [here]

/-- Releasing a claim adds none. -/
theorem of_setClaim_false {outstanding : Nat → Nat → Bool} {other n : Nat}
    (claims : setClaim outstanding num irq false other n = true) :
    ¬ (other = num ∧ n = irq) ∧ outstanding other n = true := by
  rw [setClaim_apply] at claims
  split at claims
  · exact Bool.noConfusion claims
  · next apart => exact ⟨apart, claims⟩

/-- A claim takes none away. -/
theorem setClaim_true_of {outstanding : Nat → Nat → Bool} {other n : Nat}
    (claims : outstanding other n = true) :
    setClaim outstanding num irq true other n = true := by
  rw [setClaim_apply]
  split
  · rfl
  · exact claims

theorem of_setClaim_true {outstanding : Nat → Nat → Bool} {other n : Nat}
    (claims : setClaim outstanding num irq true other n = true) :
    other = num ∧ n = irq ∨ outstanding other n = true := by
  rw [setClaim_apply] at claims
  split at claims
  · next here => exact .inl here
  · exact .inr claims

/-- A context releases its claim of a source, and that source may change. -/
theorem Machine.Sound.release (sound : m.Sound)
    (replaces : Replaces s m.plic num c) (inside : num < m.plic.numContext)
    (threshold :
      c.irqPriorityThreshold =
        (m.plic.contexts num).irqPriorityThreshold)
    (others : ∀ n, n ≠ irq → c.source n = (m.plic.contexts num).source n)
    (target : ∀ mine anyone : Prop,
      (m.outstanding num irq = true → ¬ anyone) →
      (anyone → m.Claimed irq) →
      (c.source irq).Sound irq c.irqPriorityThreshold
        (m.plic.irqPriority irq) mine anyone) :
    ({ m with
        plic := s
        outstanding := setClaim m.outstanding num irq false } :
      Machine).Sound := by
  have fewer : ∀ n,
      (∃ holder < m.plic.numContext,
        setClaim m.outstanding num irq false holder n = true) →
      m.Claimed n := by
    rintro n ⟨holder, holderInside, claims⟩
    exact ⟨holder, holderInside, (of_setClaim_false claims).2⟩
  have kept : ∀ other n, ¬ (other = num ∧ n = irq) →
      m.outstanding other n = true →
      setClaim m.outstanding num irq false other n = true := by
    intro other n apart claims
    rw [setClaim_apply, if_neg apart]
    exact claims
  refine replaces.sound (fun n => ?_) (fun other otherInside apart n => ?_) ?_
  · by_cases here : n = irq
    · subst here
      refine target _ _ (fun mine => ?_) (fewer n)
      rintro ⟨holder, holderInside, claims⟩
      obtain ⟨apart, old⟩ := of_setClaim_false claims
      have owned := sound.owner num inside holder holderInside n mine old
      exact apart ⟨owned.symm, rfl⟩
    · rw [others n here, threshold]
      exact
        (sound.sources num inside n).reclaim
          (fun _ => kept num n (fun both => here both.2))
          (fun _ => fewer n)
  · exact
      (sound.sources other otherInside n).reclaim
        (fun _ => kept other n (fun both => apart both.1))
        (fun _ => fewer n)
  · intro first firstInside second secondInside n left right
    exact
      sound.owner first firstInside second secondInside n
        (of_setClaim_false left).2 (of_setClaim_false right).2

theorem complete_fine (fine : m.Fine) (inside : num < m.plic.numContext)
    {ok : Bool} {data : BitVec 32}
    (allowed : CompleteAllowed m ok num data.toNat) :
    ({ m with
        plic := plicContextWrite m.plic ok num contextClaim data
        outstanding := setClaim m.outstanding num data.toNat false } :
      Machine).Fine := by
  have notThreshold : ¬ contextClaim = contextThreshold :=
    Nat.succ_ne_zero 3
  simp only [plicContextWrite, if_neg notThreshold, if_true]
  have source := fine.sound.sources num inside data.toNat
  split
  · next valid =>
      obtain ⟨may, settles⟩ := allowed valid.1 valid.2
      have replaces :=
        replaces_setContext m.plic num
          { m.plic.contexts num with
            irqClaimed :=
              (m.plic.contexts num).irqClaimed.clear data.toNat }
      refine fine.change replaces inside
        (fine.sound.release replaces inside rfl ?_ ?_) settles
        (Exists.imp fun n => And.imp_right fun left => ?_)
      · intro n different
        rw [completeContext_source, if_neg different]
      · intro mine anyone released fewer
        rw [completeContext_source, if_pos rfl]
        exact source.complete may released fewer
      · rw [PlicContext.Waiting, completeContext_source]
        rcases left with waits | ⟨rfl, pending⟩
        · split
          · exact ⟨waits.1, rfl⟩
          · exact waits
        · rw [if_pos rfl]
          exact ⟨pending, rfl⟩
  · next invalid =>
      -- The completion is ignored, and the context had no claim.
      refine ⟨fine.sound.release (replaces_self m.plic num) inside rfl
        (fun _ _ => rfl) ?_, fine.shows⟩
      intro mine anyone _ fewer
      refine source.reclaim (fun claimed _ => ?_) (fun _ => fewer)
      exact
        absurd ⟨(source.held claimed).2.1, (source.held claimed).1⟩ invalid

/-- A source that was selected waits and leads what waits. -/
theorem bestPendingIrq_waiting (unused : ¬ c.Waiting 0)
    (some : plicContextBestPendingIrq c ≠ 0) :
    plicContextBestPendingIrq c < numIrq ∧
      c.Waiting (plicContextBestPendingIrq c) ∧
        ∀ n < numIrq, c.Waiting n →
          Leads c.irqPendingPriority (plicContextBestPendingIrq c) n := by
  have selected := bestPendingIrq_selected unused
  rw [sourceOf_ne_zero some] at selected
  cases selected with
  | found inside waits leads => exact ⟨inside, waits, leads⟩

theorem bestPendingIrq_lt (unused : ¬ c.Waiting 0) :
    plicContextBestPendingIrq c < numIrq := by
  by_cases nothing : plicContextBestPendingIrq c = 0
  · rw [nothing]
    exact Nat.le_of_ble_eq_true rfl
  · exact (bestPendingIrq_waiting unused nothing).1

/-- A context claims a source that waits there only. -/
theorem Machine.Sound.claim (sound : m.Sound)
    (replaces : Replaces s m.plic num c) (inside : num < m.plic.numContext)
    (waits : (m.plic.contexts num).Waiting irq)
    (alone : ∀ other < m.plic.numContext, other ≠ num →
      ¬ (m.plic.contexts other).Waiting irq)
    (threshold :
      c.irqPriorityThreshold =
        (m.plic.contexts num).irqPriorityThreshold)
    (sources : ∀ n, c.source n =
      if n = irq then ((m.plic.contexts num).source n).claim
      else (m.plic.contexts num).source n) :
    ({ m with
        plic := s
        outstanding := setClaim m.outstanding num irq true } :
      Machine).Sound := by
  have free : ¬ m.Claimed irq :=
    (sound.sources num inside irq).fresh waits
  have same : ∀ n, n ≠ irq →
      (∃ holder < m.plic.numContext,
        setClaim m.outstanding num irq true holder n = true) →
      m.Claimed n := by
    rintro n different ⟨holder, holderInside, claims⟩
    have old := (of_setClaim_true claims).resolve_left
      (fun both => different both.2)
    exact ⟨holder, holderInside, old⟩
  refine replaces.sound (fun n => ?_) (fun other otherInside apart n => ?_) ?_
  · have source := sound.sources num inside n
    rw [sources, threshold]
    by_cases claimed : n = irq
    · subst claimed
      rw [if_pos rfl]
      exact source.claim waits (by simp)
    · rw [if_neg claimed]
      exact source.reclaim (fun _ => setClaim_true_of) (fun _ => same n claimed)
  · refine
      (sound.sources other otherInside n).reclaim
        (fun _ => setClaim_true_of) (fun waiting => ?_)
    by_cases claimed : n = irq
    · subst claimed
      exact absurd waiting (alone other otherInside apart)
    · exact same n claimed
  · intro first firstInside second secondInside n left right
    rcases of_setClaim_true left with ⟨rfl, rfl⟩ | old
    · rcases of_setClaim_true right with ⟨rfl, _⟩ | other
      · rfl
      · exact absurd ⟨second, secondInside, other⟩ free
    · rcases of_setClaim_true right with ⟨_, rfl⟩ | other
      · exact absurd ⟨first, firstInside, old⟩ free
      · exact sound.owner first firstInside second secondInside n old other

theorem claim_fine (fine : m.Fine) (inside : num < m.plic.numContext)
    {ok : Bool} (unset : Bool) (allowed : ClaimAllowed m ok num) :
    let best := plicContextBestPendingIrq (m.plic.contexts num)
    ({ m with
        plic := (plicContextIrqClaim m.plic unset ok num).2
        outstanding :=
          if best = 0 then m.outstanding
          else setClaim m.outstanding num best true } : Machine).Fine := by
  intro best
  obtain ⟨alone, settles⟩ := allowed
  have unused := fine.sound.unused inside
  have replaces :
      Replaces
        ((kvmInterrupt unset num false m.plic).setContext num
          (claimContext (m.plic.contexts num)))
        m.plic num (claimContext (m.plic.contexts num)) := by
    refine ⟨?_, ?_, ?_, ?_⟩
    · simp [PlicState.setContext]
    · simp [PlicState.setContext]
    · simp [PlicState.setContext]
    · exact fun cpu other => kvmInterrupt_other m.plic unset num false other
  refine fine.change replaces inside ?_ settles ?_
  · by_cases nothing : best = 0
    · rw [if_pos nothing]
      refine fine.sound.replace replaces (fun irq => ?_)
      have unselected :
          ¬ (irq = plicContextBestPendingIrq (m.plic.contexts num) ∧
            irq ≠ 0) :=
        fun both => both.2 (both.1.trans nothing)
      rw [claimContext_source, claimContext_threshold, if_neg unselected]
      exact fine.sound.sources num inside irq
    · rw [if_neg nothing]
      obtain ⟨known, waits, leads⟩ := bestPendingIrq_waiting unused nothing
      refine fine.sound.claim replaces inside waits
        (alone _ known ⟨waits, leads⟩) (claimContext_threshold _) (fun n => ?_)
      rw [claimContext_source]
      by_cases here : n = best
      · rw [if_pos ⟨here, here ▸ nothing⟩, if_pos here]
      · rw [if_neg (fun both => here both.1), if_neg here]
  · -- Of two sources that wait, one is not claimed.
    rintro ⟨first, firstKnown, firstWaits, second, secondKnown, apart, waits⟩
    have stays : ∀ n, n ≠ best → (m.plic.contexts num).Waiting n →
        (claimContext (m.plic.contexts num)).Waiting n := by
      intro n different waiting
      rw [PlicContext.Waiting, claimContext_source,
        if_neg (fun both => different both.1)]
      exact waiting
    by_cases claimed : first = best
    · exact
        ⟨second, secondKnown, stays second (claimed ▸ apart) waits⟩
    · exact ⟨first, firstKnown, stays first claimed firstWaits⟩

end Claims

/-! ## Steps -/

section Steps

variable {m : Machine}

/-- A change of a line that is given to a context. -/
theorem taken_fine (fine : m.Fine) {ok : Bool} {irq num : Nat}
    {level edge : Bool} (inside : num < m.plic.numContext)
    (positive : 0 < irq) (known : irq < numIrq)
    (enabled : (m.plic.contexts num).irqEnable.test irq = true)
    (may : level = true → (m.plic.contexts num).irqClaimed.test irq = false →
      MayWait m num irq)
    {left : Nat → Prop} (settles : Settles m ok num left)
    (remain : ∀ n, left n →
      (trigContext (m.plic.contexts num) irq (m.plic.irqPriority irq) level
        edge).Waiting n) :
    ({ m with
        plic := taken (m.plic.setLevel irq level) ok irq level edge num } :
      Machine).Fine := by
  have replaces :
      Replaces
        ((m.plic.setLevel irq level).setContext num
          (trigContext (m.plic.contexts num) irq (m.plic.irqPriority irq)
            level edge))
        m.plic num
        (trigContext (m.plic.contexts num) irq (m.plic.irqPriority irq) level
          edge) :=
    ⟨rfl, rfl, rfl, fun _ _ => rfl⟩
  refine fine.change replaces inside (fine.sound.replace replaces ?_) settles
    (Exists.imp fun n => And.imp_right (remain n))
  intro n
  have source := fine.sound.sources num inside n
  rw [trigContext_source, trigContext_threshold]
  by_cases here : n = irq
  · subst here
    rw [if_pos rfl]
    cases level with
    | true => exact source.raise enabled positive known (may rfl) edge
    | false => exact Source.Sound.lower edge
  · rw [if_neg here]
    exact source

theorem irqTrig_fine (fine : m.Fine) {ok : Bool} {irq level : Int}
    (edge : Bool)
    (allowed : m.plic.ready = true → TrigAllowed m ok irq level) :
    ∃ s steps,
      plicIrqTrig m.plic ok irq level edge trigRounds = some (s, steps) ∧
        UnlocksHeld [] steps ∧ ({ m with plic := s } : Machine).Fine := by
  cases ready : m.plic.ready with
  | false =>
      exact
        ⟨m.plic, [], plicIrqTrig_not_ready ok level edge _ ready, trivial,
          fine⟩
  | true =>
      obtain ⟨⟨positive, known⟩, allowed⟩ := allowed ready
      cases found : firstEnabling m.plic irq.toNat with
      | none =>
          rw [found] at allowed
          obtain ⟨steps, result, unlocks⟩ :=
            plicIrqTrig_of_none ok level edge ready positive known found
              allowed
          exact
            ⟨_, steps, result, unlocks,
              ⟨fine.sound.sources, fine.sound.owner⟩, fine.shows⟩
      | some num =>
          rw [found] at allowed
          obtain ⟨steps, result, unlocks⟩ :=
            plicIrqTrig_of_some ok level edge ready positive known found
          obtain ⟨inside, _, enabled, _⟩ := firstEnabling_eq_some found
          refine ⟨_, steps, result, unlocks, ?_⟩
          have nonzero : 0 < irq.toNat := by omega
          by_cases high : level ≠ 0
          · simp only [if_pos high] at allowed
            obtain ⟨may, settles⟩ := allowed
            refine taken_fine fine inside nonzero known enabled
              (fun _ => may) settles (fun n left => ?_)
            rw [PlicContext.Waiting, trigContext_source, decide_eq_true high]
            rcases left with waits | ⟨rfl, unclaimed⟩
            · split
              · exact ⟨rfl, waits.2⟩
              · exact waits
            · rw [if_pos rfl]
              exact ⟨rfl, unclaimed⟩
          · simp only [if_neg high] at allowed
            have low : decide (level ≠ 0) = false := decide_eq_false high
            refine taken_fine fine inside nonzero known enabled
              (fun raised => ?_) allowed (fun n left => ?_)
            · exact Bool.noConfusion (low.symm.trans raised)
            · rw [PlicContext.Waiting, trigContext_source, if_neg left.2]
              exact left.1

/-- A write leaves the invariant, whatever the data that it reads back. -/
theorem write_fine (fine : m.Fine) {ok : Bool} {addr : BitVec 64}
    {data : BitVec 32} (answer : BitVec 32)
    (allowed : WriteAllowed m ok data (register m.plic addr)) :
    ({ m with
        plic := writeRegister m.plic ok data (register m.plic addr)
        outstanding :=
          claimsAfter m.outstanding data answer true
            (register m.plic addr) } : Machine).Fine := by
  cases found : register m.plic addr with
  | priority offset =>
      rw [found] at allowed
      exact priorityWrite_fine fine allowed
  | enable num offset =>
      rw [found] at allowed
      obtain ⟨inside, range⟩ := register_enable found
      exact enableWrite_fine fine inside range allowed
  | nothing => exact fine
  | context num offset =>
      rw [found] at allowed
      have inside := register_context found
      simp only [WriteAllowed] at allowed
      by_cases threshold : offset = contextThreshold
      · subst threshold
        have small := priorityOf_le data
        have different : ¬ contextThreshold = contextClaim :=
          (Nat.succ_ne_zero 3).symm
        simp only [writeRegister, plicContextWrite, claimsAfter, if_true,
          if_pos small, if_neg different]
        exact thresholdWrite_fine fine inside allowed
      · rw [if_neg threshold] at allowed
        by_cases claim : offset = contextClaim
        · subst claim
          exact complete_fine fine inside allowed
        · rw [if_neg claim] at allowed
          simp only [writeRegister, plicContextWrite, claimsAfter,
            if_neg threshold, if_neg claim]
          exact update_fine fine inside allowed

/-- What a claim reads. -/
theorem read_claim (s : PlicState) (unset ok : Bool) (data : BitVec 32)
    (num : Nat) :
    readRegister s unset ok data (.context num contextClaim) =
      (BitVec.ofNat 32 (plicContextBestPendingIrq (s.contexts num)),
        (plicContextIrqClaim s unset ok num).2) :=
  rfl

theorem toNat_bestPendingIrq {c : PlicContext} (unused : ¬ c.Waiting 0) :
    (BitVec.ofNat 32 (plicContextBestPendingIrq c)).toNat =
      plicContextBestPendingIrq c := by
  have small := bestPendingIrq_lt unused
  rw [BitVec.toNat_ofNat]
  exact
    Nat.mod_eq_of_lt
      (Nat.lt_trans small (Nat.le_of_ble_eq_true rfl))

theorem read_fine (fine : m.Fine) {ok : Bool} (unset : Bool)
    {addr : BitVec 64} (data : BitVec 32)
    (allowed : ReadAllowed m ok (register m.plic addr)) :
    let result := readRegister m.plic unset ok data (register m.plic addr)
    ({ m with
        plic := result.2
        outstanding :=
          claimsAfter m.outstanding data result.1 false
            (register m.plic addr) } : Machine).Fine := by
  cases found : register m.plic addr with
  | priority offset => exact fine
  | enable num offset => exact fine
  | nothing => exact fine
  | context num offset =>
      rw [found] at allowed
      have inside := register_context found
      by_cases claim : offset = contextClaim
      · subst claim
        have number := toNat_bestPendingIrq (fine.sound.unused inside)
        have zero :
            BitVec.ofNat 32
                (plicContextBestPendingIrq (m.plic.contexts num)) = 0#32 ↔
              plicContextBestPendingIrq (m.plic.contexts num) = 0 := by
          rw [← BitVec.toNat_inj, number]
          rfl
        have claimed := claim_fine fine inside unset (allowed rfl)
        simpa only [read_claim, claimsAfter, number, zero, if_true,
          Bool.false_eq_true, if_false] using claimed
      · by_cases threshold : offset = contextThreshold
        · subst threshold
          exact fine
        · simp only [readRegister, plicContextRead, claimsAfter,
            if_neg threshold, if_neg claim]
          exact fine

/-- Every call keeps the invariant under its condition. -/
theorem step_fine (m : Machine) (event : Event) (fine : m.Fine)
    (allowed : Allowed m event) : (step m event).Fine := by
  cases died : m.died with
  | true => cases event <;> simpa [step, died] using fine
  | false =>
      have alive : ¬ m.died = true := by simp [died]
      cases event with
      | irqTrig irq level edge ok =>
          obtain ⟨s, steps, result, _, after⟩ :=
            irqTrig_fine fine edge (allowed died)
          simp only [step, if_neg alive, result]
          exact after
      | mmio addr data len isWrite unset ok =>
          by_cases width : len = 4
          · subst width
            have permitted := allowed died rfl
            simp only [step, if_neg alive, plicMmioCallback_eq]
            cases isWrite with
            | true => exact write_fine fine data permitted
            | false => exact read_fine fine unset data permitted
          · simp only [step, if_neg alive, plicMmioCallback, if_pos width]
            exact ⟨⟨fine.sound.sources, fine.sound.owner⟩, fine.shows⟩

/-- Every call does what it is to do. -/
theorem step_right (m : Machine) (event : Event) (fine : m.Fine)
    (allowed : Allowed m event) : StepRight m event := by
  cases event with
  | irqTrig irq level edge ok =>
      intro died
      obtain ⟨s, steps, result, unlocks, _⟩ :=
        irqTrig_fine fine edge (allowed died)
      exact ⟨trigRounds, s, steps, result, unlocks⟩
  | mmio addr data len isWrite unset ok =>
      rintro died num answer s found rfl result
      have width : len = 4 := by
        by_contra other
        rw [plicMmioCallback, if_pos other] at result
        cases result
      subst width
      have inside := register_context found
      have unused := fine.sound.unused inside
      rw [plicMmioCallback_eq, found] at result
      have given :
          BitVec.ofNat 32
              (plicContextBestPendingIrq (m.plic.contexts num)) =
            answer :=
        congrArg Prod.fst (Except.ok.inj result)
      subst given
      rw [toNat_bestPendingIrq unused]
      refine ⟨fine.sound.rightAnswer inside, fun some => ?_⟩
      have nonzero :
          plicContextBestPendingIrq (m.plic.contexts num) ≠ 0 :=
        fun zero => some (congrArg (BitVec.ofNat 32) zero)
      exact
        (fine.sound.sources num inside _).fresh
          (bestPendingIrq_waiting unused nonzero).2.1

end Steps

/-! ## Whole runs -/

/--
In every run whose calls meet the condition, changes of lines end and unlock
what they locked, claims get the source that is to be delivered, which nobody
has claimed, and the lines of the vCPUs show whether there is one.
-/
theorem plic_claims_right (nrcpus : Nat) (events : List Event)
    (along : Along step Allowed (start nrcpus) events) :
    Throughout step LineRight (start nrcpus) events ∧
      Along step StepRight (start nrcpus) events :=
  ⟨throughout_of_along (fun _ fine => fine.lineRight) step_fine
      (start_fine nrcpus) along,
    along_of_along step_fine step_right (start_fine nrcpus) along⟩

/-- A source of priority 1 is raised, claimed, lowered and completed. -/
def served : List Event :=
  [.mmio 0x08000004 1 4 true true true,
   .mmio 0x08002080 2 4 true true true,
   .irqTrig 1 1 false true,
   .mmio 0x08201004 0 4 false true true,
   .irqTrig 1 0 false true,
   .mmio 0x08201004 1 4 true true true]

/-- The source is raised, claimed and completed. -/
theorem plic_claims_right_served :
    Along step Allowed (start 1) served ∧
      Throughout step LineRight (start 1) served ∧
        Along step StepRight (start 1) served := by
  have allowed : Along step Allowed (start 1) served := by decide +kernel
  exact ⟨allowed, plic_claims_right 1 served allowed⟩

/-- A source of priority 1 is raised in a context whose threshold is 7. -/
def lowRaised : List Event :=
  [.mmio 0x08000004 1 4 true true true,
   .mmio 0x08201000 7 4 true true true,
   .mmio 0x08002080 2 4 true true true,
   .irqTrig 1 1 false true]

def claimOne : Event := .mmio 0x08201004 0 4 false true true

/-- The threshold is not looked at. -/
theorem low_source_returned :
    ¬ (Throughout step LineRight (start 1) (lowRaised ++ [claimOne]) ∧
      Along step StepRight (start 1) (lowRaised ++ [claimOne])) := by
  rintro ⟨_, steps⟩
  rw [along_append] at steps
  generalize raised : run step (start 1) lowRaised = m at steps
  have found : register m.plic 0x08201004 = .context 1 contextClaim := by
    subst raised
    decide +kernel
  have alive : m.died = false := by
    subst raised
    decide +kernel
  have answer :
      (readRegister m.plic true true 0 (.context 1 contextClaim)).1 =
        1#32 := by
    subst raised
    decide +kernel
  have result :
      plicMmioCallback m.plic true true 0x08201004 0 4 false =
        .ok (1#32,
          (readRegister m.plic true true 0 (.context 1 contextClaim)).2) := by
    rw [plicMmioCallback_eq, found]
    exact congrArg Except.ok (Prod.ext answer rfl)
  have right := (steps.2.1 alive 1 _ _ found rfl result).1
  cases right with
  | found _ suits _ =>
      have above := suits.above
      subst raised
      revert above
      decide +kernel
end Kemu.Arch.Plic
