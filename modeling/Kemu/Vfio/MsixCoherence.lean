import Kemu.Vfio.MsixUpdates

/-!
# The interrupts of a passed-through device follow the guest

What the device keeps agrees with what the guest wrote, what VFIO was given
agrees with what the device keeps, and the irqfds agree with the masks.
-/

namespace Kemu.Vfio.Msix

open Kemu.Init.Irq
open Kemu.Lib.Bytes
open Kemu.Lib.Transition
open Kemu.Virtio.Msix

/-! ## Accesses -/

section Access

variable {device : VfioDevice} {access : TableAccess}

theorem TableAccess.Valid.short (valid : access.Valid device) :
    access.place < device.nrEntries * pciMsixEntrySize := by
  have inside := valid.inside
  have behind := valid.behind
  rw [TableAccess.place]
  omega

/-- The access stays in one entry. -/
theorem TableAccess.Valid.fits (valid : access.Valid device) :
    access.place % pciMsixEntrySize + access.data.length ≤ 16 := by
  have natural := valid.natural
  have behind := valid.behind
  have aligned := access.aligned
  rw [TableAccess.place, pciMsixEntrySize]
  rcases valid.size with four | eight
  · rw [four] at natural ⊢
    omega
  · rw [eight] at natural ⊢
    omega

theorem TableAccess.Valid.offset (valid : access.Valid device) :
    (access.addr - access.guestPhysAddr.toUInt64).toNat = access.place := by
  have behind := valid.behind
  have bound := access.addr.toNat_lt
  rw [TableAccess.place, UInt64.toNat_sub, UInt32.toNat_toUInt64]
  omega

theorem natural_iff {addr : UInt64} {len : Nat}
    (size : len = 4 ∨ len = 8) :
    addr &&& (.ofNat len - 1) = 0 ↔ addr.toNat % len = 0 := by
  rw [← UInt64.toNat_inj, UInt64.toNat_and]
  rcases size with rfl | rfl
  · have mask : (UInt64.ofNat 4 - 1).toNat = 2 ^ 2 - 1 := rfl
    rw [mask, Nat.and_two_pow_sub_one_eq_mod]
    rfl
  · have mask : (UInt64.ofNat 8 - 1).toNat = 2 ^ 3 - 1 := rfl
    rw [mask, Nat.and_two_pow_sub_one_eq_mod]
    rfl

/-- The checks of the code are those for a valid access. -/
theorem accepted_iff :
    (access.addr - access.guestPhysAddr.toUInt64).toNat <
          device.nrEntries * pciMsixEntrySize ∧
        ¬ ((access.data.length ≠ 4 ∧ access.data.length ≠ 8) ∨
          access.addr &&& (.ofNat access.data.length - 1) ≠ 0) ↔
      access.Valid device := by
  constructor
  · rintro ⟨inside, checked⟩
    rw [not_or, not_not] at checked
    have size : access.data.length = 4 ∨ access.data.length = 8 := by
      by_contra neither
      exact checked.1 (not_or.1 neither)
    have few := device.few
    have low := access.guestPhysAddr.toNat_lt
    have bound := access.addr.toNat_lt
    rw [UInt64.toNat_sub, UInt32.toNat_toUInt64, pciMsixEntrySize] at inside
    refine ⟨size, (natural_iff size).1 checked.2, by omega, ?_⟩
    rw [pciMsixEntrySize]
    omega
  · intro valid
    rw [valid.offset, not_or, not_not, natural_iff valid.size]
    refine ⟨valid.short, ?_, valid.natural⟩
    rintro ⟨four, eight⟩
    exact valid.size.elim four eight

/-- The vector whose entry is written. -/
def TableAccess.vector (access : TableAccess) : Nat :=
  access.place / pciMsixEntrySize

theorem TableAccess.Valid.vector_lt (valid : access.Valid device) :
    access.vector < device.nrEntries :=
  Nat.div_lt_of_lt_mul (Nat.mul_comm .. ▸ valid.short)

/-- The control word that is reached is that of the entry. -/
theorem TableAccess.Valid.reaches_iff (valid : access.Valid device)
    (vector : Nat) :
    access.reachesControl vector = true ↔
      vector = access.vector ∧
        pciMsixEntryVectorCtrl <
          access.place % pciMsixEntrySize + access.data.length := by
  have fits := valid.fits
  have size := valid.size
  rw [TableAccess.reachesControl, decide_eq_true_iff, TableAccess.vector]
  rw [pciMsixEntrySize] at fits ⊢
  rw [pciMsixEntryVectorCtrl]
  omega

end Access

/-! ## The invariant -/

/-- A vector whose control word was written. -/
structure Configured (irqfds : List (Int × Int)) (entry : VfioPciMsiEntry)
    (masked : Bool) : Prop where
  allocated : 0 ≤ entry.gsi
  opened : 0 ≤ entry.eventfd
  guest : entry.guestState.masked = masked
  host : entry.hostState.masked = masked
  wired : Wired irqfds entry

/--
The device keeps what the guest wrote; the array it keeps is the one VFIO
has, and it is up to date while interrupts can arrive; vectors have GSIs of
their own, which are below the next one.
-/
structure MsixInvariant (device : VfioDevice) (system : MsixSystem) :
    Prop where
  config :
    ∀ vector < device.nrEntries, ∀ byte < 16,
      (system.vfio.entries vector).config byte =
        system.view.table (16 * vector + byte)
  enabled : system.vfio.guestState.enabled = system.view.enabled
  maskall : system.vfio.guestState.masked = system.view.maskall
  cached : Cached system.vfio
  registered :
    system.vfio.guestState.enabled = true →
      system.vfio.guestState.masked = false →
        Registered device system.vfio
  untouched :
    ∀ vector < device.nrEntries,
      system.view.controlWritten vector = false →
        (system.vfio.entries vector).gsi = -1 ∧
          (system.vfio.entries vector).hostState.masked = true
  configured :
    ∀ vector < device.nrEntries,
      system.view.controlWritten vector = true →
        Configured system.vfio.irqfds (system.vfio.entries vector)
          (entryMasked system.view.table vector)
  apart :
    ∀ vector < device.nrEntries, ∀ other < device.nrEntries,
      vector ≠ other → 0 ≤ (system.vfio.entries vector).gsi →
        (system.vfio.entries vector).gsi ≠
          (system.vfio.entries other).gsi
  taken :
    ∀ vector < device.nrEntries,
      (system.vfio.entries vector).gsi < system.vfio.irq.nextGsi
  known :
    ∀ wire ∈ system.vfio.irqfds, wire.1 < (system.vfio.irq.nextGsi : Int)

section Invariant

variable {device : VfioDevice} {system : MsixSystem}

theorem MsixInvariant.coherent (holds : MsixInvariant device system) :
    MsixCoherent device system := by
  refine ⟨fun vector inside written => ?_, fun enabled unmasked => ?_⟩
  · have configured := holds.configured vector inside written
    rw [← configured.host]
    exact configured.wired
  · rw [← holds.enabled] at enabled
    rw [← holds.maskall] at unmasked
    have registered := holds.registered enabled unmasked
    exact ⟨_, holds.cached registered.enabled, registered.eventfds⟩

theorem msixStart_invariant (device : VfioDevice) (irq : IrqState)
    (intxFd : Int) : MsixInvariant device (msixStart irq intxFd) where
  config vector _ byte small := by
    have same : (16 * vector + byte) % 16 = byte := by omega
    show (if byte = pciMsixEntryVectorCtrl then (1 : UInt8) else 0) =
      if (16 * vector + byte) % 16 = pciMsixEntryVectorCtrl then 1 else 0
    rw [same]
  enabled := by
    show false = guestStart.enabled
    decide
  maskall := by
    show false = guestStart.maskall
    decide
  cached := nofun
  registered := nofun
  untouched _ _ _ := ⟨rfl, rfl⟩
  configured _ _ := nofun
  apart _ _ _ _ _ allocated :=
    absurd (show (0 : Int) ≤ -1 from allocated) (by decide)
  taken _ _ := by
    show (-1 : Int) < (irq.nextGsi : Int)
    omega
  known _ := nofun

/-- The control word in the entry is the one in the table. -/
theorem entryMasked_config {config table : Nat → UInt8} {vector : Nat}
    (same : ∀ byte < 16, config byte = table (16 * vector + byte)) :
    entryMasked config 0 = entryMasked table vector := by
  have word : peek config (16 * 0 + 12) 4 = peek table (16 * vector + 12) 4 := by
    refine List.map_congr_left fun byte inside => ?_
    have small := List.mem_range.1 inside
    rw [same _ (by omega), Nat.mul_zero, Nat.zero_add, Nat.add_assoc]
  rw [entryMasked, entryMasked, tableWord, tableWord, word]

/-- Writing to an entry is writing to its place in the table. -/
theorem poke_entry {config table : Nat → UInt8} {vector field : Nat}
    {data : List UInt8}
    (same : ∀ byte < 16, config byte = table (16 * vector + byte))
    {byte : Nat} (small : byte < 16) :
    poke config field data byte =
      poke table (16 * vector + field) data (16 * vector + byte) := by
  rw [poke, poke, same byte small]
  by_cases behind : field ≤ byte
  · rw [if_pos behind, if_pos (by omega)]
    congr 1
    omega
  · rw [if_neg behind, if_neg (by omega)]

/-- The control word of a vector is not in another entry. -/
theorem entryMasked_poke {table : Nat → UInt8} {place vector : Nat}
    {data : List UInt8}
    (outside :
      16 * vector + 16 ≤ place ∨ place + data.length ≤ 16 * vector + 12) :
    entryMasked (poke table place data) vector =
      entryMasked table vector := by
  rw [entryMasked, entryMasked, tableWord, tableWord,
    peek_poke_disjoint table (by omega)]

end Invariant

/-! ## Writes to the table -/

section Table

variable {device : VfioDevice} {answers : VfioAnswers}
  {system : MsixSystem} {access : TableAccess}

/-- The entry with the bytes of the access. -/
def storedEntry (state : VfioState) (access : TableAccess) :
    VfioPciMsiEntry :=
  { state.entries access.vector with
    config :=
      poke (state.entries access.vector).config
        (access.place % pciMsixEntrySize) access.data }

/-- The entry with the guest's mask read from it. -/
def maskedEntry (state : VfioState) (access : TableAccess) :
    VfioPciMsiEntry :=
  { storedEntry state access with
    guestState :=
      { (storedEntry state access).guestState with
        masked := entryMasked (storedEntry state access).config 0 } }

/-- The entry after it is configured, with the host's tables. -/
def configuredEntry (device : VfioDevice) (answers : VfioAnswers)
    (state : VfioState) (access : TableAccess) : MsiUpdate :=
  (vfioPciUpdateMsiEntry device answers
    ⟨state.irq, state.irqfds, maskedEntry state access⟩).2

/-- The state with a vector that was configured. -/
def VfioState.configure (state : VfioState) (vector : Nat)
    (now : MsiUpdate) : VfioState :=
  { state with
    irq := now.irq
    irqfds := now.irqfds
    entries := Function.update state.entries vector now.entry }

theorem tableAccess_invalid (invalid : ¬ access.Valid device)
    (state : VfioState) :
    vfioPciMsixTableAccess device answers state access = state := by
  rw [← accepted_iff, not_and] at invalid
  rw [vfioPciMsixTableAccess]
  dsimp only
  split
  case isTrue => rfl
  case isFalse inside =>
    rw [if_pos (not_not.1 (invalid (Nat.lt_of_not_le inside)))]

theorem tableAccess_message (valid : access.Valid device)
    (message :
      access.place % pciMsixEntrySize + access.data.length ≤
        pciMsixEntryVectorCtrl) (state : VfioState) :
    vfioPciMsixTableAccess device answers state access =
      { state with
        entries :=
          Function.update state.entries access.vector
            (storedEntry state access) } := by
  have accepted := accepted_iff.2 valid
  rw [valid.offset] at accepted
  unfold vfioPciMsixTableAccess
  rw [valid.offset]
  dsimp only
  rw [if_neg (Nat.not_le.2 accepted.1), if_neg accepted.2,
    if_pos message]
  rfl

theorem tableAccess_control (valid : access.Valid device)
    (control :
      ¬ access.place % pciMsixEntrySize + access.data.length ≤
        pciMsixEntryVectorCtrl) (state : VfioState) :
    vfioPciMsixTableAccess device answers state access =
      (vfioPciEnableMsis device answers
        (state.configure access.vector
          (configuredEntry device answers state access))).2 := by
  have accepted := accepted_iff.2 valid
  rw [valid.offset] at accepted
  unfold vfioPciMsixTableAccess
  rw [valid.offset]
  dsimp only
  rw [if_neg (Nat.not_le.2 accepted.1), if_neg accepted.2,
    if_neg control]
  rfl

theorem writeTable_valid (valid : access.Valid device) (view : GuestView) :
    view.writeTable device access =
      { view with
        table := poke view.table access.place access.data
        controlWritten := fun vector =>
          view.controlWritten vector || access.reachesControl vector } :=
  if_pos valid

theorem TableAccess.place_eq (access : TableAccess) :
    access.place =
      16 * access.vector + access.place % pciMsixEntrySize := by
  rw [TableAccess.vector, pciMsixEntrySize]
  omega

/-- All entries hold the bytes of the table after the access. -/
theorem MsixInvariant.config_stored (holds : MsixInvariant device system)
    (valid : access.Valid device) {entry : VfioPciMsiEntry}
    (config : entry.config = (storedEntry system.vfio access).config) :
    ∀ vector < device.nrEntries, ∀ byte < 16,
      (Function.update system.vfio.entries access.vector entry
          vector).config byte =
        poke system.view.table access.place access.data
          (16 * vector + byte) := by
  intro vector inside byte small
  have fits := valid.fits
  by_cases same : vector = access.vector
  · subst same
    rw [Function.update_self, config, access.place_eq]
    exact poke_entry (holds.config _ inside) small
  · rw [Function.update_of_ne same, holds.config vector inside byte small]
    have place := access.place_eq
    refine (poke_outside _ ?_).symm
    omega

/-- The entries of other vectors keep their control words. -/
theorem TableAccess.Valid.control_elsewhere (valid : access.Valid device)
    (table : Nat → UInt8) {vector : Nat}
    (unreached : access.reachesControl vector = false) :
    entryMasked (poke table access.place access.data) vector =
      entryMasked table vector := by
  have fits := valid.fits
  have place := access.place_eq
  have reaches := valid.reaches_iff vector
  rw [unreached] at reaches
  refine entryMasked_poke ?_
  by_cases same : vector = access.vector
  · have message := fun control => reaches.2 ⟨same, control⟩
    rw [pciMsixEntryVectorCtrl] at message
    by_contra within
    exact absurd (message (by omega)) Bool.noConfusion
  · omega

/-- An access to a message changes the bytes of the entry. -/
theorem MsixInvariant.message (holds : MsixInvariant device system)
    (valid : access.Valid device)
    (message :
      access.place % pciMsixEntrySize + access.data.length ≤
        pciMsixEntryVectorCtrl) :
    MsixInvariant device
      { vfio :=
          { system.vfio with
            entries :=
              Function.update system.vfio.entries access.vector
                (storedEntry system.vfio access) }
        view := system.view.writeTable device access } := by
  have unreached (vector : Nat) : access.reachesControl vector = false := by
    rw [← Bool.not_eq_true, valid.reaches_iff]
    omega
  have same (vector : Nat) :
      let entry := Function.update system.vfio.entries access.vector
        (storedEntry system.vfio access) vector
      entry.gsi = (system.vfio.entries vector).gsi ∧
        entry.eventfd = (system.vfio.entries vector).eventfd ∧
        entry.guestState = (system.vfio.entries vector).guestState ∧
        entry.hostState = (system.vfio.entries vector).hostState := by
    by_cases here : vector = access.vector
    · subst here
      dsimp only
      rw [Function.update_self]
      exact ⟨rfl, rfl, rfl, rfl⟩
    · dsimp only
      rw [Function.update_of_ne here]
      exact ⟨rfl, rfl, rfl, rfl⟩
  rw [writeTable_valid valid]
  refine ⟨holds.config_stored valid rfl, holds.enabled, holds.maskall,
    holds.cached, fun enabled unmasked => ?_, fun vector inside => ?_,
    fun vector inside => ?_, ?_, ?_, holds.known⟩
  · have registered := holds.registered enabled unmasked
    refine ⟨registered.enabled, fun vector inside => ?_⟩
    obtain ⟨gsi, eventfd, -, -⟩ := same vector
    rw [wantedFd, gsi, eventfd]
    exact registered.eventfds vector inside
  · obtain ⟨gsi, -, -, host⟩ := same vector
    dsimp only
    rw [unreached, Bool.or_false, gsi, host]
    exact holds.untouched vector inside
  · obtain ⟨gsi, eventfd, guest, host⟩ := same vector
    dsimp only
    rw [unreached, Bool.or_false,
      valid.control_elsewhere _ (unreached vector)]
    intro written
    have old := holds.configured vector inside written
    refine ⟨gsi ▸ old.allocated, eventfd ▸ old.opened, guest ▸ old.guest,
      host ▸ old.host, ?_⟩
    rw [Wired, VfioPciMsiEntry.wire, gsi, eventfd, host]
    exact old.wired
  · intro vector inside other otherInside differ
    dsimp only
    rw [(same vector).1, (same other).1]
    exact holds.apart vector inside other otherInside differ
  · intro vector inside
    dsimp only
    rw [(same vector).1]
    exact holds.taken vector inside

/-- A vector can be configured in every state the invariant describes. -/
theorem MsixInvariant.ready (holds : MsixInvariant device system)
    (valid : access.Valid device) :
    EntryReady
      ⟨system.vfio.irq, system.vfio.irqfds,
        maskedEntry system.vfio access⟩ := by
  have inside := valid.vector_lt
  cases written : system.view.controlWritten access.vector with
  | false =>
      obtain ⟨gsi, host⟩ := holds.untouched _ inside written
      have without : ¬ 0 ≤ (maskedEntry system.vfio access).gsi := by
        show ¬ 0 ≤ (system.vfio.entries access.vector).gsi
        omega
      exact ⟨holds.taken _ inside, holds.known, fun _ => host,
        fun allocated => absurd allocated without,
        fun allocated => absurd allocated without⟩
  | true =>
      have old := holds.configured _ inside written
      exact ⟨holds.taken _ inside, holds.known,
        fun without => absurd old.allocated (Int.not_le.2 without),
        fun _ => old.opened, fun _ => old.wired⟩

/-- Configuring a vector, before VFIO is told of it. -/
theorem MsixInvariant.control (holds : MsixInvariant device system)
    (valid : access.Valid device)
    (control :
      pciMsixEntryVectorCtrl <
        access.place % pciMsixEntrySize + access.data.length)
    {done : MsiUpdate}
    (updated :
      EntryUpdated
        ⟨system.vfio.irq, system.vfio.irqfds,
          maskedEntry system.vfio access⟩ done)
    {now : VfioState}
    (frame :
      SameVectors (system.vfio.configure access.vector done) now)
    (cached : Cached now)
    (registered :
      system.vfio.guestState.enabled = true →
        system.vfio.guestState.masked = false → Registered device now) :
    MsixInvariant device
      { vfio := now, view := system.view.writeTable device access } := by
  have inside := valid.vector_lt
  have entries : now.entries =
      Function.update system.vfio.entries access.vector done.entry :=
    frame.entries
  have here : now.entries access.vector = done.entry := by
    rw [entries, Function.update_self]
  have elsewhere {vector : Nat} (differ : vector ≠ access.vector) :
      now.entries vector = system.vfio.entries vector := by
    rw [entries, Function.update_of_ne differ]
  have reaches (vector : Nat) :
      access.reachesControl vector = decide (vector = access.vector) := by
    rw [Bool.eq_iff_iff, valid.reaches_iff, decide_eq_true_iff]
    exact and_iff_left control
  -- the GSI of the vector is its old one or a new one
  have gsi_ne {vector : Nat} (small : vector < device.nrEntries)
      (differ : vector ≠ access.vector) :
      (system.vfio.entries vector).gsi ≠ done.entry.gsi := by
    have taken := holds.taken vector small
    rcases updated.gsi with old | new
    · rw [old]
      have allocated := updated.allocated
      rw [old] at allocated
      exact (holds.apart _ inside _ small differ.symm allocated).symm
    · rw [new]
      dsimp only
      omega
  have stored :
      ∀ vector < device.nrEntries, ∀ byte < 16,
        (now.entries vector).config byte =
          poke system.view.table access.place access.data
            (16 * vector + byte) := by
    rw [entries]
    exact holds.config_stored valid updated.config
  have nextGsi : now.irq.nextGsi = done.irq.nextGsi := by rw [frame.irq]; rfl
  have irqfds : now.irqfds = done.irqfds := frame.irqfds
  have guestState : now.guestState = system.vfio.guestState :=
    frame.guestState
  rw [writeTable_valid valid]
  refine ⟨stored, guestState ▸ holds.enabled, guestState ▸ holds.maskall,
    cached, ?_, ?_, ?_, ?_, ?_, ?_⟩
  · show now.guestState.enabled = true → now.guestState.masked = false →
      Registered device now
    rw [guestState]
    exact registered
  · intro vector small unwritten
    dsimp only at unwritten ⊢
    rw [reaches, Bool.or_eq_false_iff, decide_eq_false_iff_not] at unwritten
    rw [elsewhere unwritten.2]
    exact holds.untouched vector small unwritten.1
  · intro vector small written
    dsimp only at written ⊢
    rw [irqfds]
    by_cases same : vector = access.vector
    · subst same
      have bit :
          done.entry.hostState.masked =
            entryMasked (poke system.view.table access.place access.data)
              access.vector := by
        rw [updated.host, ← entryMasked_config (stored _ small), here,
          updated.config]
        rfl
      rw [here]
      refine ⟨updated.allocated, updated.opened, ?_, bit, updated.wired⟩
      rw [updated.guest, ← bit, updated.host]
    · rw [reaches, decide_eq_false same, Bool.or_false] at written
      rw [elsewhere same, valid.control_elsewhere]
      · have old := holds.configured vector small written
        refine ⟨old.allocated, old.opened, old.guest, old.host, ?_⟩
        rw [Wired, updated.others _ (gsi_ne small same)]
        exact old.wired
      · rw [reaches]
        exact decide_eq_false same
  · intro vector small other otherSmall differ allocated
    dsimp only at allocated ⊢
    by_cases first : vector = access.vector
    · subst first
      rw [here, elsewhere differ.symm]
      exact (gsi_ne otherSmall differ.symm).symm
    · rw [elsewhere first] at allocated ⊢
      by_cases second : other = access.vector
      · subst second
        rw [here]
        exact gsi_ne small first
      · rw [elsewhere second]
        exact holds.apart vector small other otherSmall differ allocated
  · intro vector small
    dsimp only
    rw [nextGsi]
    by_cases same : vector = access.vector
    · subst same
      rw [here]
      exact updated.taken
    · rw [elsewhere same]
      have taken := holds.taken vector small
      have next := updated.next
      dsimp only at next
      omega
  · intro wire member
    dsimp only at member ⊢
    rw [irqfds] at member
    rw [nextGsi]
    exact updated.known wire member

theorem MsixInvariant.table (holds : MsixInvariant device system)
    (succeeds : Succeeds device system (.table access, answers)) :
    MsixInvariant device
      { vfio := vfioPciMsixTableAccess device answers system.vfio access
        view := system.view.writeTable device access } := by
  by_cases valid : access.Valid device
  · by_cases message :
        access.place % pciMsixEntrySize + access.data.length ≤
          pciMsixEntryVectorCtrl
    · rw [tableAccess_message valid message]
      exact holds.message valid message
    · rw [tableAccess_control valid message]
      have updated :=
        vfioPciUpdateMsiEntry_spec succeeds.routing succeeds.realloc
          succeeds.addRoute succeeds.irqfd succeeds.eventfd
          (holds.ready valid) succeeds.countable
      have enabled :=
        vfioPciEnableMsis_spec device answers succeeds.setIrqsAll
          succeeds.setIrqs
          (system.vfio.configure access.vector
            (configuredEntry device answers system.vfio access))
          holds.cached
      exact holds.control valid (Nat.lt_of_not_le message) updated
        enabled.1 enabled.2.1 enabled.2.2
  · rw [tableAccess_invalid valid, GuestView.writeTable, if_neg valid]
    exact holds

end Table

/-! ## Writes to the capability -/

section Cap

variable {device : VfioDevice} {answers : VfioAnswers}
  {system : MsixSystem} {write : CapWrite}

/-- The code's test, on 16 bits, is that the write reaches the byte. -/
theorem reachesEnable_iff (device : VfioDevice) (write : CapWrite) :
    ¬ ((write.offset - device.pos).toNat > enablePos ∨
          (write.offset - device.pos).toNat + write.data.length ≤
            enablePos) ↔
      write.offset.toNat ≤ device.pos.toNat + enablePos ∧
        device.pos.toNat + enablePos <
          write.offset.toNat + write.data.length := by
  have short := write.short
  have inHeader := device.inHeader
  have bound := write.offset.toNat_lt
  rw [UInt16.toNat_sub, enablePos]
  omega

/-- The byte is the same in the code's count. -/
theorem enableByte_eq (device : VfioDevice) (write : CapWrite)
    (reaches :
      write.offset.toNat ≤ device.pos.toNat + enablePos ∧
        device.pos.toNat + enablePos <
          write.offset.toNat + write.data.length) :
    enablePos - (write.offset - device.pos).toNat =
      device.pos.toNat + enablePos - write.offset.toNat := by
  have short := write.short
  have inHeader := device.inHeader
  have bound := write.offset.toNat_lt
  rw [enablePos] at reaches ⊢
  rw [UInt16.toNat_sub]
  omega

/-- The state with the guest's bits of the control word. -/
def VfioState.setGuest (state : VfioState) (ctrl : UInt8) : VfioState :=
  { state with
    guestState :=
      { state.guestState with
        masked := ctrl.toUInt16 <<< 8 &&& pciMsixFlagsMaskall != 0
        enabled := ctrl.toUInt16 <<< 8 &&& pciMsixFlagsEnable != 0 } }

/-- The invariant after the guest's bits and what VFIO has changed. -/
theorem MsixInvariant.setGuest (holds : MsixInvariant device system)
    (ctrl : UInt8) {now : VfioState}
    (frame : SameVectors (system.vfio.setGuest ctrl) now)
    (cached : Cached now)
    (registered :
      now.guestState.enabled = true → now.guestState.masked = false →
        Registered device now) :
    MsixInvariant device
      { vfio := now, view := { system.view with ctrl := ctrl } } := by
  have entries : now.entries = system.vfio.entries := frame.entries
  have irqfds : now.irqfds = system.vfio.irqfds := frame.irqfds
  have irq : now.irq = system.vfio.irq := frame.irq
  refine ⟨?_, ?_, ?_, cached, registered, ?_, ?_, ?_, ?_, ?_⟩
  · rw [entries]
    exact holds.config
  · show now.guestState.enabled = _
    rw [frame.guestState]
    rfl
  · show now.guestState.masked = _
    rw [frame.guestState]
    rfl
  · rw [entries]
    exact holds.untouched
  · rw [entries, irqfds]
    exact holds.configured
  · rw [entries]
    exact holds.apart
  · rw [entries, irq]
    exact holds.taken
  · rw [irqfds, irq]
    exact holds.known

theorem capWrite_elsewhere
    (elsewhere :
      ¬ (write.offset.toNat ≤ device.pos.toNat + enablePos ∧
        device.pos.toNat + enablePos <
          write.offset.toNat + write.data.length)) (state : VfioState) :
    vfioPciMsixCapWrite device answers state write = state := by
  unfold vfioPciMsixCapWrite
  dsimp only
  rw [if_pos (not_not.1 (mt (reachesEnable_iff device write).1 elsewhere))]

theorem capWrite_reaches
    (reaches :
      write.offset.toNat ≤ device.pos.toNat + enablePos ∧
        device.pos.toNat + enablePos <
          write.offset.toNat + write.data.length) (state : VfioState) :
    vfioPciMsixCapWrite device answers state write =
      let ctrl :=
        write.data.getD
          (device.pos.toNat + enablePos - write.offset.toNat) 0
      if ctrl.toUInt16 <<< 8 &&& pciMsixFlagsEnable != 0 then
        (vfioPciEnableMsis device answers (state.setGuest ctrl)).2
      else
        (vfioPciDisableMsis device answers (state.setGuest ctrl)).2 := by
  unfold vfioPciMsixCapWrite
  dsimp only
  rw [if_neg ((reachesEnable_iff device write).2 reaches),
    enableByte_eq device write reaches]
  rfl

theorem MsixInvariant.cap (holds : MsixInvariant device system)
    (succeeds : Succeeds device system (.cap write, answers)) :
    MsixInvariant device
      { vfio := vfioPciMsixCapWrite device answers system.vfio write
        view := system.view.writeCap device write } := by
  by_cases reaches :
      write.offset.toNat ≤ device.pos.toNat + enablePos ∧
        device.pos.toNat + enablePos <
          write.offset.toNat + write.data.length
  · rw [capWrite_reaches reaches, GuestView.writeCap, if_pos reaches]
    dsimp only
    generalize
      write.data.getD (device.pos.toNat + enablePos - write.offset.toNat)
        0 = ctrl
    split
    case isTrue =>
      obtain ⟨frame, cached, registered⟩ :=
        vfioPciEnableMsis_spec device answers succeeds.setIrqsAll
          succeeds.setIrqs (system.vfio.setGuest ctrl) holds.cached
      refine holds.setGuest ctrl frame cached ?_
      rw [frame.guestState]
      exact registered
    case isFalse disabled =>
      obtain ⟨frame, off⟩ :=
        vfioPciDisableMsis_spec device answers succeeds.setIrqsNone
          (system.vfio.setGuest ctrl)
      refine holds.setGuest ctrl frame (fun enabled => ?_)
        fun enabled => ?_
      · rw [off] at enabled
        cases enabled
      · rw [frame.guestState] at enabled
        exact absurd enabled disabled
  · rw [capWrite_elsewhere reaches, GuestView.writeCap, if_neg reaches]
    exact holds

end Cap

/-! ## Whole runs -/

theorem MsixInvariant.step {device : VfioDevice} {system : MsixSystem}
    (holds : MsixInvariant device system)
    {input : MsixWrite × VfioAnswers}
    (succeeds : Succeeds device system input) :
    MsixInvariant device (msixStep device system input) := by
  rw [msixStep]
  split
  · exact holds
  · rcases input with ⟨write, answers⟩
    cases write with
    | table access => exact holds.table succeeds
    | cap write => exact holds.cap succeeds

/--
For every device, every routing table to start with and every sequence of
writes to the table and the capability, whatever their place and length, in
which all calls to the host succeed.
-/
theorem msix_coherent_throughout (device : VfioDevice) (irq : IrqState)
    (intxFd : Int) (inputs : List (MsixWrite × VfioAnswers))
    (succeed :
      Along (msixStep device) (Succeeds device) (msixStart irq intxFd)
        inputs) :
    Throughout (msixStep device) (MsixCoherent device)
      (msixStart irq intxFd) inputs :=
  throughout_of_along (fun _ holds => holds.coherent)
    (fun _ _ holds succeeds => holds.step succeeds)
    (msixStart_invariant device irq intxFd) succeed

/-- A device with two vectors and its capability at 0x40. -/
def twoVectors : VfioDevice where
  irqHost := { hasIrqRouting := true, msixNeedsDevid := false }
  nrEntries := 2
  few := by decide
  pos := 0x40
  inHeader := by decide
  modeIntx := false
  devNum := 0

/-- A host that grants everything; new descriptors have the number 9. -/
def grantsAll : VfioAnswers where
  eventfd := 9
  realloc := true
  addRoute := 0
  updateRoute := 0
  irqfd := 0
  setIrqs _ := 0
  setIrqsAll := 0
  setIrqsNone := 0
  intx := 8

/-- A routing table with room, in which the next GSI is 24. -/
def roomyIrq : IrqState where
  irqRouting := some []
  allocatedGsis := 32
  nextGsi := 24
  dead := false
  overflowed := false

/-- Enabled with everything masked, a vector unmasked, all unmasked. -/
def enableSequence : List (MsixWrite × VfioAnswers) :=
  [(.cap ⟨0x42, [0x01, 0xc0], by decide⟩, grantsAll),
    (.table ⟨0x10000, by decide, 0x1001c, [0, 0, 0, 0]⟩, grantsAll),
    (.cap ⟨0x42, [0x01, 0x80], by decide⟩, grantsAll)]

theorem grantsAll_succeeds {system : MsixSystem}
    (countable :
      system.vfio.irq.allocatedGsis ≤ nrEntries system.vfio.irq →
        nrEntries system.vfio.irq + 32 < 2 ^ 31)
    (write : MsixWrite) :
    Succeeds twoVectors system (write, grantsAll) := by
  have none : (0 : Int) ≤ 0 := Int.le_refl 0
  have nine : (0 : Int) ≤ 9 := by decide
  have eight : (0 : Int) ≤ 8 := by decide
  exact ⟨nine, rfl, rfl, countable, rfl, rfl, none, fun _ => none, none,
    none, eight⟩

/-- In the end VFIO and the host have the second vector, connected. -/
theorem msix_coherent_on_enable :
    let system := run (msixStep twoVectors) (msixStart roomyIrq (-1))
      enableSequence
    ((system.vfio.registered.map fun eventfds =>
          (eventfds 0, eventfds 1)) = some (-1, 9) ∧
        system.vfio.irqfds = [(24, 9)]) ∧
      Throughout (msixStep twoVectors) (MsixCoherent twoVectors)
        (msixStart roomyIrq (-1)) enableSequence := by
  refine ⟨by decide +kernel, msix_coherent_throughout _ _ _ _ ?_⟩
  refine ⟨grantsAll_succeeds ?_ _, grantsAll_succeeds ?_ _,
    grantsAll_succeeds ?_ _, trivial⟩
  · decide +kernel
  · decide +kernel
  · decide +kernel

end Kemu.Vfio.Msix
