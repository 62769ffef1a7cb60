import Kemu.Arch.Plic
import Kemu.Lib.Selection
import Mathlib.Data.Nat.Basic

/-!
# A context of the interrupt controller, source by source

The bitmaps and the array of a context are read together, as what the context
knows of each source.  In this view every operation on a context changes
sources one by one and leaves the others, and the source which is selected is
the first of those with the highest priority.
-/

namespace Kemu.Arch.Plic

open Kemu.Lib Kemu.Lib.Selection

/-- What a context knows of a source. -/
structure Source where
  enabled : Bool
  pending : Bool
  priority : Nat
  claimed : Bool
  autoclear : Bool

def PlicContext.source (c : PlicContext) (irq : Nat) : Source where
  enabled := c.irqEnable.test irq
  pending := c.irqPending.test irq
  priority := c.irqPendingPriority irq
  claimed := c.irqClaimed.test irq
  autoclear := c.irqAutoclear.test irq

/-- Pending and not claimed. -/
abbrev Source.Waiting (source : Source) : Prop :=
  source.pending = true ∧ source.claimed = false

/-- The source waits in the context. -/
abbrev PlicContext.Waiting (c : PlicContext) (irq : Nat) : Prop :=
  (c.source irq).Waiting

/-! ## Operations on a source -/

/-- A change of its line. -/
def Source.trig (source : Source) (irqPrio : Nat) (level edge : Bool) :
    Source :=
  if level then
    { source with
      pending := true
      priority := irqPrio
      autoclear := edge || source.autoclear }
  else
    { source with
      pending := false, priority := 0, claimed := false, autoclear := false }

/-- A store to its enable bit. -/
def Source.enable (source : Source) (bit level : Bool) (irqPrio : Nat) :
    Source :=
  if source.enabled = bit then source
  else if bit then
    if level then
      { source with enabled := true, pending := true, priority := irqPrio }
    else { source with enabled := true }
  else
    { source with
      enabled := false, pending := false, priority := 0, claimed := false }

/-- The same after the bit itself has been stored. -/
def Source.enableRound (source : Source) (old bit level : Bool)
    (irqPrio : Nat) : Source :=
  if old = bit then source
  else if bit then
    if level then { source with pending := true, priority := irqPrio }
    else source
  else { source with pending := false, priority := 0, claimed := false }

theorem Source.enableRound_stored (source : Source) (bit level : Bool)
    (irqPrio : Nat) :
    ({ source with enabled := bit } : Source).enableRound source.enabled bit
        level irqPrio =
      source.enable bit level irqPrio := by
  obtain ⟨enabled, pending, priority, claimed, autoclear⟩ := source
  cases bit <;> cases level <;> cases enabled <;> rfl

/-- Its claim. -/
def Source.claim (source : Source) : Source :=
  if source.autoclear then
    { source with
      pending := false, priority := 0, claimed := false, autoclear := false }
  else { source with claimed := true }

/-- Its completion. -/
def Source.complete (source : Source) : Source :=
  { source with claimed := false }

section Context

variable (c : PlicContext)

theorem trigContext_source (irq irqPrio n : Nat) (level edge : Bool) :
    (trigContext c irq irqPrio level edge).source n =
      if n = irq then (c.source n).trig irqPrio level edge
      else c.source n := by
  unfold trigContext Source.trig
  by_cases here : n = irq
  · cases level <;> cases edge <;> simp [PlicContext.source, here]
  · cases level <;> cases edge <;> simp [PlicContext.source, here]

theorem claimContext_source (n : Nat) :
    (claimContext c).source n =
      if n = plicContextBestPendingIrq c ∧ n ≠ 0 then (c.source n).claim
      else c.source n := by
  simp only [claimContext]
  by_cases nothing : plicContextBestPendingIrq c = 0
  · have unselected : ¬ (n = plicContextBestPendingIrq c ∧ n ≠ 0) :=
      fun both => both.2 (both.1.trans nothing)
    rw [if_pos nothing, if_neg unselected]
  · rw [if_neg nothing]
    by_cases here : n = plicContextBestPendingIrq c
    · subst here
      by_cases auto : c.irqAutoclear.test (plicContextBestPendingIrq c)
      · simp [PlicContext.source, Source.claim, nothing, auto]
      · simp [PlicContext.source, Source.claim, nothing, auto]
    · have unselected : ¬ (n = plicContextBestPendingIrq c ∧ n ≠ 0) :=
        fun both => here both.1
      rw [if_neg unselected]
      split <;> simp [PlicContext.source, here]

theorem completeContext_source (irq n : Nat) :
    ({ c with irqClaimed := c.irqClaimed.clear irq } : PlicContext).source n =
      if n = irq then (c.source n).complete else c.source n := by
  by_cases here : n = irq
  · simp [PlicContext.source, Source.complete, here]
  · simp [PlicContext.source, here]

@[simp]
theorem threshold_source (threshold n : Nat) :
    ({ c with irqPriorityThreshold := threshold } : PlicContext).source n =
      c.source n :=
  rfl

theorem trigContext_threshold (irq irqPrio : Nat) (level edge : Bool) :
    (trigContext c irq irqPrio level edge).irqPriorityThreshold =
      c.irqPriorityThreshold := by
  unfold trigContext
  cases level <;> cases edge <;> rfl

theorem claimContext_threshold :
    (claimContext c).irqPriorityThreshold = c.irqPriorityThreshold := by
  simp only [claimContext]
  split
  · rfl
  · split <;> rfl

end Context

/-! ## Stores to a word of enable bits -/

section Enable

variable (s : PlicState)

/-- One round of the loop changes one source. -/
theorem enableWriteRound_source (irqWord : Nat) (oldVal newVal : BitVec 32)
    (c : PlicContext) (i n : Nat) :
    (enableWriteRound s irqWord oldVal newVal c i).source n =
      if n = irqWord * 32 + i then
        (c.source n).enableRound (oldVal.getLsbD i) (newVal.getLsbD i)
          (s.irqLevel.test n) (s.irqPriority n)
      else c.source n := by
  simp only [enableWriteRound, Source.enableRound, BitVec.getLsbD_xor]
  by_cases here : n = irqWord * 32 + i
  · subst here
    rw [if_pos rfl]
    cases oldVal.getLsbD i <;> cases newVal.getLsbD i <;>
      cases s.irqLevel.test (irqWord * 32 + i) <;>
      simp [PlicContext.source]
  · rw [if_neg here]
    cases oldVal.getLsbD i <;> cases newVal.getLsbD i <;>
      cases s.irqLevel.test (irqWord * 32 + i) <;>
      simp [PlicContext.source, here]

theorem enableWriteRound_threshold (irqWord : Nat)
    (oldVal newVal : BitVec 32) (c : PlicContext) (i : Nat) :
    (enableWriteRound s irqWord oldVal newVal c i).irqPriorityThreshold =
      c.irqPriorityThreshold := by
  simp only [enableWriteRound]
  split
  · rfl
  · split
    · rfl
    · split <;> rfl

/-- The word has the new bits before the loop is entered. -/
theorem storeEnable_source (irqWord : Nat) (newVal : BitVec 32)
    (c : PlicContext) (n : Nat) :
    ({ c with
        irqEnable := Function.update c.irqEnable irqWord newVal } :
      PlicContext).source n =
      if n / 32 = irqWord then
        { c.source n with enabled := newVal.getLsbD (n % 32) }
      else c.source n := by
  by_cases here : n / 32 = irqWord <;> simp [PlicContext.source, here]

/-- A source of the context when the sources below the counter are done. -/
def sourceReached (irqWord : Nat) (newVal : BitVec 32) (c : PlicContext)
    (index n : Nat) : Source :=
  if n / 32 = irqWord then
    if n % 32 < index then
      (c.source n).enable (newVal.getLsbD (n % 32)) (s.irqLevel.test n)
        (s.irqPriority n)
    else { c.source n with enabled := newVal.getLsbD (n % 32) }
  else c.source n

/-- One round takes one more source there. -/
theorem sourceReached_succ (irqWord : Nat) (newVal : BitVec 32)
    (c : PlicContext) {index : Nat} (inside : index < 32) (n : Nat) :
    sourceReached s irqWord newVal c (index + 1) n =
      if n = irqWord * 32 + index then
        (sourceReached s irqWord newVal c index n).enableRound
          ((c.irqEnable irqWord).getLsbD index) (newVal.getLsbD index)
          (s.irqLevel.test n) (s.irqPriority n)
      else sourceReached s irqWord newVal c index n := by
  unfold sourceReached
  by_cases word : n / 32 = irqWord
  · by_cases here : n = irqWord * 32 + index
    · have bit : n % 32 = index := by omega
      have old :
          (c.irqEnable irqWord).getLsbD index = (c.source n).enabled := by
        rw [← word, ← bit]
        exact (Bitmap.test_eq_getLsbD c.irqEnable n).symm
      rw [if_pos word, if_pos word, if_pos here, if_pos (by omega),
        if_neg (by omega), old, bit, Source.enableRound_stored]
    · have same : n % 32 < index + 1 ↔ n % 32 < index := by omega
      simp only [if_pos word, if_neg here, same]
  · have elsewhere : n ≠ irqWord * 32 + index := by omega
    rw [if_neg word, if_neg word, if_neg elsewhere]

theorem enableContext_source (irqWord : Nat) (data : BitVec 32)
    (c : PlicContext) (n : Nat) :
    (enableContext s irqWord data c).source n =
      if n / 32 = irqWord then
        (c.source n).enable ((enableValue irqWord data).getLsbD (n % 32))
          (s.irqLevel.test n) (s.irqPriority n)
      else c.source n := by
  have finished :
      (enableContext s irqWord data c).source n =
        sourceReached s irqWord (enableValue irqWord data) c 32 n :=
    foldl_range
      (enableWriteRound s irqWord (c.irqEnable irqWord)
        (enableValue irqWord data))
      (fun index now => ∀ other, now.source other =
        sourceReached s irqWord (enableValue irqWord data) c index other)
      (fun other => storeEnable_source irqWord _ c other)
      (fun index inside now before other => by
        rw [enableWriteRound_source, before other,
          sourceReached_succ s irqWord _ c inside])
      n
  rw [finished, sourceReached,
    if_pos (Nat.mod_lt n (Nat.le_of_ble_eq_true rfl))]

theorem enableContext_threshold (irqWord : Nat) (data : BitVec 32)
    (c : PlicContext) :
    (enableContext s irqWord data c).irqPriorityThreshold =
      c.irqPriorityThreshold := by
  let newVal := enableValue irqWord data
  exact
    foldl_range (enableWriteRound s irqWord (c.irqEnable irqWord) newVal)
      (fun _ now => now.irqPriorityThreshold = c.irqPriorityThreshold)
      rfl
      (fun index _ now same =>
        (enableWriteRound_threshold s irqWord _ _ now index).trans same)

end Enable

/-! ## The source that is selected -/

/-- The number of a source, where zero stands for none. -/
def sourceOf (irq : Nat) : Option Nat :=
  if irq = 0 then none else some irq

theorem sourceOf_zero : sourceOf 0 = none :=
  rfl

theorem sourceOf_ne_zero {irq : Nat} (some : irq ≠ 0) :
    sourceOf irq = .some irq :=
  if_neg some

section Best

variable (c : PlicContext)

/-- The best source and its priority, as the loops carry them. -/
structure Scanned (bound : Nat) (best : Nat × Nat) : Prop where
  selected :
    Selected c.Waiting c.irqPendingPriority bound (sourceOf best.1)
  priority : best.1 ≠ 0 → best.2 = c.irqPendingPriority best.1

variable {c}

theorem Scanned.round {i j : Nat} {best : Nat × Nat}
    (scanned : Scanned c (i * 32 + j) best)
    (unused : ¬ c.Waiting 0) (inside : i * 32 + j < numIrq) :
    Scanned c (i * 32 + j + 1) (bestPendingIrqRound c i best j) := by
  have known : ¬ numIrq ≤ i * 32 + j := Nat.not_le.2 inside
  by_cases waits : c.Waiting (i * 32 + j)
  · have nonzero : i * 32 + j ≠ 0 := by
      intro zero
      exact unused (zero ▸ waits)
    have passes :
        ¬ (numIrq ≤ i * 32 + j ∨ c.irqPending.test (i * 32 + j) = false ∨
          c.irqClaimed.test (i * 32 + j) = true) := by
      obtain ⟨pending, unclaimed⟩ := waits
      simp only [PlicContext.source] at pending unclaimed
      simp [known, pending, unclaimed]
    simp only [bestPendingIrqRound, if_neg passes]
    by_cases nothing : best.1 = 0
    · have selected := scanned.selected
      rw [nothing, sourceOf_zero] at selected
      rw [if_pos (.inl nothing)]
      refine ⟨?_, fun _ => rfl⟩
      rw [sourceOf_ne_zero nonzero]
      exact selected.first waits
    · have selected := scanned.selected
      rw [sourceOf_ne_zero nothing] at selected
      have kept := scanned.priority nothing
      by_cases greater : best.2 < c.irqPendingPriority (i * 32 + j)
      · rw [if_pos (.inr greater)]
        refine ⟨?_, fun _ => rfl⟩
        rw [sourceOf_ne_zero nonzero]
        exact selected.replace waits (kept ▸ greater)
      · rw [if_neg (not_or.2 ⟨nothing, greater⟩)]
        refine ⟨?_, scanned.priority⟩
        rw [sourceOf_ne_zero nothing]
        exact selected.keep (kept ▸ greater)
  · have passed :
        numIrq ≤ i * 32 + j ∨ c.irqPending.test (i * 32 + j) = false ∨
          c.irqClaimed.test (i * 32 + j) = true := by
      simp only [PlicContext.source, not_and_or, Bool.not_eq_true,
        Bool.not_eq_false] at waits
      exact .inr waits
    simp only [bestPendingIrqRound, if_pos passed]
    exact ⟨scanned.selected.skip waits, scanned.priority⟩

theorem Scanned.word {i : Nat} {best : Nat × Nat}
    (scanned : Scanned c (i * 32) best)
    (unused : ¬ c.Waiting 0) (inside : i < numIrqWord) :
    Scanned c ((i + 1) * 32) (bestPendingIrqWord c best i) := by
  have last : (i + 1) * 32 ≤ numIrq :=
    Nat.mul_le_mul_right 32 (show i + 1 ≤ numIrqWord from inside)
  rw [bestPendingIrqWord]
  split
  · next zero =>
      -- A word without pending sources is passed over as a whole.
      refine ⟨scanned.selected.skip_to (by omega) ?_, scanned.priority⟩
      intro n above below waits
      have here : n / 32 = i := by omega
      have absent : c.irqPending.test n = false :=
        Bitmap.test_of_word_zero (here ▸ zero)
      exact Bool.noConfusion (absent.symm.trans waits.1)
  · rw [Nat.succ_mul]
    exact
      foldl_range (bestPendingIrqRound c i)
        (fun j best => Scanned c (i * 32 + j) best)
        scanned
        (fun j below _ earlier => earlier.round unused (by omega))

/-- The source selected is the first waiting one of the highest priority. -/
theorem bestPendingIrq_selected (unused : ¬ c.Waiting 0) :
    Selected c.Waiting c.irqPendingPriority numIrq
      (sourceOf (plicContextBestPendingIrq c)) := by
  have start : Scanned c (0 * 32) (0, 0) :=
    ⟨selected_zero, fun impossible => absurd rfl impossible⟩
  have scanned : Scanned c (numIrqWord * 32) _ :=
    foldl_range (bestPendingIrqWord c) (fun i best => Scanned c (i * 32) best)
      start (fun _ inside _ earlier => earlier.word unused inside)
  exact scanned.selected

end Best

end Kemu.Arch.Plic
