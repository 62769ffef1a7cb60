import Kemu.Lib.Transition
import Mathlib.Data.List.Basic
import Mathlib.Algebra.Group.Int.Defs
import Mathlib.Algebra.Group.Nat.Defs

/-!
# The interrupt routing table

`irq_routing` is an array that grows by 32 entries, with the number of its
entries in it.  `irq__init` fills in the routes of the interrupt chips,
`irq__add_msix_route` appends a route for a message under the next unused
GSI, and `irq__update_msix_route` looks a GSI up and stores another message.
Whenever the table has changed it is handed to the host.

A failed `realloc` is stored as the new table; the next access to it goes
through a null pointer.
-/

namespace Kemu.Init.Irq

open Kemu.Lib.Transition

/-! ## The table -/

/-- `struct msi_msg`. -/
structure MsiMsg where
  addressLo : UInt32
  addressHi : UInt32
  data : UInt32
deriving DecidableEq, Repr

/-- `KVM_IRQ_ROUTING_IRQCHIP` and `KVM_IRQ_ROUTING_MSI`. -/
inductive RoutingType where
  | irqchip
  | msi
deriving DecidableEq, Repr

/--
`struct kvm_irq_routing_entry`.  `u` is the first three words of the union:
the message, or the number of the chip and the pin.
-/
structure KvmIrqRoutingEntry where
  gsi : UInt32
  type : RoutingType
  flags : UInt32
  u : MsiMsg
  devid : UInt32
deriving DecidableEq, Repr

/--
The variables of `irq.c`.  The entries are those up to `irq_routing->nr`;
there are none behind a null pointer.  `dead` says that the process has
ended, `overflowed` that an `int` had no room for the number of entries.
-/
structure IrqState where
  irqRouting : Option (List KvmIrqRoutingEntry)
  allocatedGsis : Nat
  nextGsi : Nat
  dead : Bool
  overflowed : Bool
deriving DecidableEq, Repr

/-- `irq_routing->nr`, or zero without a table. -/
def nrEntries (state : IrqState) : Nat :=
  (state.irqRouting.getD []).length

/-- `ALIGN(nr, 32)`. -/
def alignTo32 (nr : Nat) : Nat :=
  (nr + 31) / 32 * 32

/-- `ENXIO`. -/
def eNxio : Int := 6

/-- `ENOMEM`. -/
def eNoMem : Int := 12

/--
`irq__allocate_routing_entry`, with the outcome of `realloc`.  Nothing is
known of what follows when the sum in `ALIGN` is too large for an `int`.
-/
def irqAllocateRoutingEntry (realloc : Bool) (state : IrqState) :
    Int × IrqState :=
  if nrEntries state < state.allocatedGsis then
    (0, state)
  else if 2 ^ 31 ≤ nrEntries state + 1 + 31 then
    (-eNoMem, { state with dead := true, overflowed := true })
  else
    let state :=
      { state with allocatedGsis := alignTo32 (nrEntries state + 1) }
    if realloc then
      (0, { state with irqRouting := some (state.irqRouting.getD []) })
    else
      (-eNoMem, { state with irqRouting := none })

/-- Append an entry through the pointer to the table. -/
def appendEntry (state : IrqState) (entry : KvmIrqRoutingEntry) :
    IrqState :=
  match state.irqRouting with
  | none => { state with dead := true }
  | some entries =>
      { state with irqRouting := some (entries ++ [entry]) }

theorem appendEntry_none {state : IrqState}
    (routing : state.irqRouting = none) (entry : KvmIrqRoutingEntry) :
    appendEntry state entry = { state with dead := true } := by
  rw [appendEntry, routing]

theorem appendEntry_some {state : IrqState}
    {entries : List KvmIrqRoutingEntry}
    (routing : state.irqRouting = some entries)
    (entry : KvmIrqRoutingEntry) :
    appendEntry state entry =
      { state with irqRouting := some (entries ++ [entry]) } := by
  rw [appendEntry, routing]

/-- The entry of a route: GSI, chip and pin. -/
def chipEntry (route : UInt32 × UInt32 × UInt32) : KvmIrqRoutingEntry where
  gsi := route.1
  type := .irqchip
  flags := 0
  u := ⟨route.2.1, route.2.2, 0⟩
  devid := 0

/-- `irq__add_routing`, for the chips. -/
def irqAddRouting (realloc : Bool) (state : IrqState)
    (route : UInt32 × UInt32 × UInt32) : IrqState :=
  if state.dead then
    state
  else
    let (r, state) := irqAllocateRoutingEntry realloc state
    if r ≠ 0 then
      state
    else
      appendEntry state (chipEntry route)

/-- The routes that `irq__init` adds. -/
def chipRoutes : List (UInt32 × UInt32 × UInt32) :=
  ((List.range 8).filter (· ≠ 2)).map (fun i => (.ofNat i, 0, .ofNat i)) ++
    (List.range' 8 8).map (fun i => (.ofNat i, 1, .ofNat (i - 8))) ++
    ((List.range 24).filter (· ≠ 2)).map fun i =>
      (.ofNat i, 2, .ofNat (if i = 0 then 2 else i))

/-- The variables before `irq__init`. -/
def irqBefore : IrqState where
  irqRouting := none
  allocatedGsis := 0
  nextGsi := 0
  dead := false
  overflowed := false

/--
`irq__init`, if it succeeds.  `realloc` is the outcome of the call that is
made when the table has so many entries, `ioctl` the host's answer.
-/
def irqInit (realloc : Nat → Bool) (ioctl : Int) : Option IrqState :=
  let state :=
    chipRoutes.foldl
      (fun state route =>
        irqAddRouting (realloc (nrEntries state)) state route)
      irqBefore
  if state.dead then
    none
  else if ioctl ≠ 0 then
    none
  else
    some { state with nextGsi := 24 }

/-! ## Routes for messages -/

/--
What the host tells once: whether it has interrupt routing, and whether a
message needs the number of its device.
-/
structure IrqHost where
  hasIrqRouting : Bool
  msixNeedsDevid : Bool
deriving DecidableEq, Repr

section Host

variable (host : IrqHost)

/-- The entry `irq__add_msix_route` fills in. -/
def msixEntry (state : IrqState) (msg : MsiMsg) (deviceId : UInt32) :
    KvmIrqRoutingEntry :=
  { gsi := .ofNat state.nextGsi
    type := .msi
    flags := if host.msixNeedsDevid then 1 else 0
    u := msg
    devid := if host.msixNeedsDevid then deviceId else 0 }

@[simp]
theorem msixEntry_type (state : IrqState) (msg : MsiMsg)
    (deviceId : UInt32) :
    (msixEntry host state msg deviceId).type = .msi :=
  rfl

@[simp]
theorem msixEntry_gsi (state : IrqState) (msg : MsiMsg)
    (deviceId : UInt32) :
    (msixEntry host state msg deviceId).gsi = .ofNat state.nextGsi :=
  rfl

/-- `irq__add_msix_route`, with the result of `update_route`. -/
def irqAddMsixRoute (realloc : Bool) (updateRoute : Int)
    (state : IrqState) (msg : MsiMsg) (deviceId : UInt32) :
    Int × IrqState :=
  if !host.hasIrqRouting then
    (-eNxio, state)
  else
    let (r, state) := irqAllocateRoutingEntry realloc state
    if r ≠ 0 then
      (r, state)
    else
      let state := appendEntry state (msixEntry host state msg deviceId)
      if updateRoute ≠ 0 then
        (updateRoute, state)
      else
        (state.nextGsi, { state with nextGsi := state.nextGsi + 1 })

end Host

/-- Store a message in the first entry of a GSI. -/
def storeMsg (gsi : UInt32) (msg : MsiMsg) :
    List KvmIrqRoutingEntry → List KvmIrqRoutingEntry
  | [] => []
  | entry :: rest =>
      if gsi = entry.gsi then
        { entry with u := msg } :: rest
      else
        entry :: storeMsg gsi msg rest

/--
`irq__update_msix_route`; the process ends when the host refuses the changed
table.
-/
def irqUpdateMsixRoute (updateRoute : Int) (state : IrqState)
    (gsi : UInt32) (msg : MsiMsg) : IrqState :=
  match state.irqRouting with
  | none => { state with dead := true }
  | some entries =>
      match entries.find? fun entry => gsi = entry.gsi with
      | none => state
      | some entry =>
          if entry.u = msg then
            state
          else
            { state with
              irqRouting := some (storeMsg gsi msg entries)
              dead := updateRoute ≠ 0 }

/-- A call, with the outcomes of what it calls. -/
inductive IrqCall where
  | add (realloc : Bool) (updateRoute : Int) (msg : MsiMsg)
      (deviceId : UInt32)
  | update (updateRoute : Int) (gsi : UInt32) (msg : MsiMsg)

/-- One call. -/
def irqStep (host : IrqHost) (state : IrqState) (call : IrqCall) :
    IrqState :=
  if state.dead then
    state
  else
    match call with
    | .add realloc updateRoute msg deviceId =>
        (irqAddMsixRoute host realloc updateRoute state msg deviceId).2
    | .update updateRoute gsi msg =>
        irqUpdateMsixRoute updateRoute state gsi msg

/-! ## What the table should be -/

/--
There are no more entries than the table has room for, and the GSI of a
message is that of no other entry for a message and of no pin of a chip.
-/
structure RoutesSound (state : IrqState) : Prop where
  defined : state.overflowed = false
  within : nrEntries state ≤ state.allocatedGsis
  unique :
    (state.irqRouting.getD []).Pairwise fun first second =>
      first.type = .msi → second.type = .msi → first.gsi ≠ second.gsi
  apart :
    ∀ entry ∈ state.irqRouting.getD [], ∀ chip ∈ state.irqRouting.getD [],
      entry.type = .msi → chip.type = .irqchip → entry.gsi ≠ chip.gsi

instance (state : IrqState) : Decidable (RoutesSound state) :=
  decidable_of_iff
    (state.overflowed = false ∧ nrEntries state ≤ state.allocatedGsis ∧
      ((state.irqRouting.getD []).Pairwise fun first second =>
        first.type = .msi → second.type = .msi → first.gsi ≠ second.gsi) ∧
      ∀ entry ∈ state.irqRouting.getD [],
        ∀ chip ∈ state.irqRouting.getD [],
          entry.type = .msi → chip.type = .irqchip →
            entry.gsi ≠ chip.gsi)
    ⟨fun ⟨defined, within, unique, apart⟩ =>
        ⟨defined, within, unique, apart⟩,
      fun sound =>
        ⟨sound.defined, sound.within, sound.unique, sound.apart⟩⟩

/-- An entry with the message, if it is the one that was added for the GSI. -/
def KvmIrqRoutingEntry.store (gsi : UInt32) (msg : MsiMsg)
    (entry : KvmIrqRoutingEntry) : KvmIrqRoutingEntry :=
  if entry.type = .msi ∧ entry.gsi = gsi then
    { entry with u := msg }
  else
    entry

/--
An update changes only the message of the entry that was added for the GSI.
-/
def UpdatesOne (host : IrqHost) (state : IrqState) : IrqCall → Prop
  | .add _ _ _ _ => True
  | .update updateRoute gsi msg =>
      state.dead ∨
        irqStep host state (.update updateRoute gsi msg) =
          { state with
            irqRouting := state.irqRouting.map (·.map (.store gsi msg))
            dead :=
              (irqStep host state (.update updateRoute gsi msg)).dead }

/-! ## When it is -/

/--
The table is not full with as many entries as an `int` can count in steps of
32, and none of its entries has the GSI that the next one is given, unless
the call adds none because there is no memory for it.
-/
structure AddFits (state : IrqState) (realloc : Bool) : Prop where
  countable :
    state.allocatedGsis ≤ nrEntries state → nrEntries state + 32 < 2 ^ 31
  fresh :
    nrEntries state < state.allocatedGsis ∨ realloc →
      ∀ entry ∈ state.irqRouting.getD [], entry.gsi ≠ .ofNat state.nextGsi

/--
The call meets the table it needs: no entry has the GSI of the new one, and
the first entry that has the GSI of an update is for a message, or is for a
pin and its words are those of the message.
-/
def CallFits (host : IrqHost) (state : IrqState) : IrqCall → Prop
  | .add realloc _ _ _ =>
      state.dead ∨ host.hasIrqRouting = false ∨ AddFits state realloc
  | .update _ gsi msg =>
      state.dead ∨
        ∀ entry,
          (state.irqRouting.getD []).find? (fun entry => gsi = entry.gsi) =
              some entry →
            entry.type = .msi ∨ entry.u = msg

/-! ## What allocating does -/

/-- The three outcomes of finding room for another entry. -/
theorem irqAllocateRoutingEntry_cases (realloc : Bool) (state : IrqState)
    (countable :
      state.allocatedGsis ≤ nrEntries state →
        nrEntries state + 32 < 2 ^ 31) :
    (nrEntries state < state.allocatedGsis ∧
        irqAllocateRoutingEntry realloc state = (0, state)) ∨
      (state.allocatedGsis ≤ nrEntries state ∧ realloc = true ∧
        irqAllocateRoutingEntry realloc state =
          (0, { state with
            allocatedGsis := alignTo32 (nrEntries state + 1)
            irqRouting := some (state.irqRouting.getD []) })) ∨
      (state.allocatedGsis ≤ nrEntries state ∧ realloc = false ∧
        irqAllocateRoutingEntry realloc state =
          (-eNoMem, { state with
            allocatedGsis := alignTo32 (nrEntries state + 1)
            irqRouting := none })) := by
  rw [irqAllocateRoutingEntry]
  split_ifs with room overflows granted
  · exact Or.inl ⟨room, rfl⟩
  · have full := countable (Nat.not_lt.mp room)
    omega
  · exact Or.inr (Or.inl ⟨Nat.not_lt.mp room, granted, rfl⟩)
  · exact
      Or.inr (Or.inr ⟨Nat.not_lt.mp room, by simpa using granted, rfl⟩)

theorem lt_alignTo32 (nr : Nat) : nr < alignTo32 (nr + 1) := by
  rw [alignTo32]
  omega

theorem alignTo32_le (nr : Nat) : alignTo32 (nr + 1) ≤ nr + 32 := by
  rw [alignTo32]
  omega

theorem alignTo32_mod (nr : Nat) : alignTo32 nr % 32 = 0 := by
  rw [alignTo32]
  omega

/-! ## What storing a message does -/

section Store

variable {gsi : UInt32} {entries : List KvmIrqRoutingEntry}

/-- Nothing changes without an entry for a message under the GSI. -/
theorem map_store_of_absent (msg : MsiMsg)
    (absent : ∀ entry ∈ entries, entry.type = .msi → entry.gsi ≠ gsi) :
    entries.map (.store gsi msg) = entries := by
  have same : entries.map (.store gsi msg) = entries.map id := by
    refine List.map_congr_left ?_
    intro entry inside
    exact if_neg fun both => absent entry inside both.1 both.2
  rw [same, List.map_id]

/-- The type and the GSI of an entry. -/
def KvmIrqRoutingEntry.kind (entry : KvmIrqRoutingEntry) :
    RoutingType × UInt32 :=
  (entry.type, entry.gsi)

/-- Storing a message changes no GSI and no type. -/
theorem map_kind_storeMsg (gsi : UInt32) (msg : MsiMsg)
    (entries : List KvmIrqRoutingEntry) :
    (storeMsg gsi msg entries).map KvmIrqRoutingEntry.kind =
      entries.map KvmIrqRoutingEntry.kind := by
  induction entries with
  | nil => rfl
  | cons head rest induction =>
      rw [storeMsg]
      split_ifs
      · rfl
      · rw [List.map_cons, induction, List.map_cons]

theorem storeMsg_of_none {msg : MsiMsg}
    (none : entries.find? (fun entry => gsi = entry.gsi) = none) :
    storeMsg gsi msg entries = entries := by
  induction entries with
  | nil => rfl
  | cons head rest induction =>
      rw [List.find?_cons] at none
      by_cases same : gsi = head.gsi
      · rw [decide_eq_true same] at none
        cases none
      · rw [decide_eq_false same] at none
        rw [storeMsg, if_neg same, induction none]

/-- The table stays as it is when the entry has the message already. -/
theorem storeMsg_eq_self_iff {msg : MsiMsg} {entry : KvmIrqRoutingEntry}
    (found :
      entries.find? (fun entry => gsi = entry.gsi) = some entry) :
    storeMsg gsi msg entries = entries ↔ entry.u = msg := by
  induction entries with
  | nil => cases found
  | cons head rest induction =>
      rw [List.find?_cons] at found
      by_cases same : gsi = head.gsi
      · rw [decide_eq_true same] at found
        cases found
        rw [storeMsg, if_pos same, List.cons.injEq, and_iff_left rfl]
        constructor
        · intro equal
          rw [← equal]
        · rintro rfl
          rfl
      · rw [decide_eq_false same] at found
        rw [storeMsg, if_neg same, List.cons.injEq, and_iff_right rfl,
          induction found]

/-- The first entry of the GSI is the one for a message. -/
theorem storeMsg_eq_map {msg : MsiMsg} {entry : KvmIrqRoutingEntry}
    (unique :
      entries.Pairwise fun first second =>
        first.type = .msi → second.type = .msi → first.gsi ≠ second.gsi)
    (found :
      entries.find? (fun entry => gsi = entry.gsi) = some entry)
    (message : entry.type = .msi) :
    storeMsg gsi msg entries = entries.map (.store gsi msg) := by
  induction entries with
  | nil => rfl
  | cons head rest induction =>
      rw [List.pairwise_cons] at unique
      rw [List.find?_cons] at found
      by_cases same : gsi = head.gsi
      · rw [decide_eq_true same] at found
        cases found
        have absent :
            ∀ other ∈ rest, other.type = .msi → other.gsi ≠ gsi := by
          intro other member isMessage equal
          exact unique.1 other member message isMessage
            (same.symm.trans equal.symm)
        rw [storeMsg, if_pos same, List.map_cons,
          map_store_of_absent msg absent, KvmIrqRoutingEntry.store,
          if_pos ⟨message, same.symm⟩]
      · rw [decide_eq_false same] at found
        have other : head.store gsi msg = head :=
          if_neg fun both => same both.2.symm
        rw [storeMsg, if_neg same, List.map_cons, other,
          induction unique.2 found]

end Store

/-- What an update leaves of a table. -/
theorem irqUpdateMsixRoute_eq {state : IrqState}
    {entries : List KvmIrqRoutingEntry}
    (routing : state.irqRouting = some entries) (updateRoute : Int)
    (gsi : UInt32) (msg : MsiMsg) :
    irqUpdateMsixRoute updateRoute state gsi msg =
      { state with
        irqRouting := some (storeMsg gsi msg entries)
        dead := (irqUpdateMsixRoute updateRoute state gsi msg).dead } := by
  rw [irqUpdateMsixRoute, routing]
  dsimp only
  cases found : entries.find? fun entry => gsi = entry.gsi with
  | none =>
      dsimp only
      rw [storeMsg_of_none found, ← routing]
  | some entry =>
      dsimp only
      split_ifs with same
      · rw [(storeMsg_eq_self_iff found).mpr same, ← routing]
      · rfl

/-! ## The table in a run -/

/--
What the counters say about the entries: the chips have the GSIs up to 24,
and `next_gsi` is past every GSI that was returned.
-/
structure Table (allocatedGsis nextGsi : Nat)
    (entries : List KvmIrqRoutingEntry) : Prop where
  within : entries.length ≤ allocatedGsis
  counted : nextGsi + 14 ≤ entries.length
  reserved : 24 ≤ nextGsi
  chips : ∀ entry ∈ entries, entry.type = .irqchip → entry.gsi.toNat < 24
  messages :
    ∀ entry ∈ entries, entry.type = .msi →
      24 ≤ entry.gsi.toNat ∧ entry.gsi.toNat ≤ nextGsi
  unique :
    entries.Pairwise fun first second =>
      first.type = .msi → second.type = .msi → first.gsi ≠ second.gsi

/-- The table of a state, if it has one, agrees with its counters. -/
structure Routed (state : IrqState) : Prop where
  defined : state.overflowed = false
  bounded : state.allocatedGsis < 2 ^ 31
  lost : state.irqRouting = none → 0 < state.allocatedGsis
  table :
    ∀ entries, state.irqRouting = some entries →
      Table state.allocatedGsis state.nextGsi entries

section Table

variable {allocatedGsis nextGsi : Nat} {entries : List KvmIrqRoutingEntry}

theorem Table.apart (table : Table allocatedGsis nextGsi entries)
    {entry chip : KvmIrqRoutingEntry} (inside : entry ∈ entries)
    (within : chip ∈ entries) (message : entry.type = .msi)
    (pin : chip.type = .irqchip) : entry.gsi ≠ chip.gsi := by
  intro same
  have low := table.chips chip within pin
  have high := (table.messages entry inside message).1
  rw [same] at high
  omega

theorem Table.mono {room : Nat}
    (table : Table allocatedGsis nextGsi entries)
    (roomy : allocatedGsis ≤ room) : Table room nextGsi entries :=
  { table with within := Nat.le_trans table.within roomy }

/-- An entry for a message under a GSI that no entry has. -/
theorem Table.append (table : Table allocatedGsis nextGsi entries)
    (room : entries.length < allocatedGsis)
    (bounded : allocatedGsis < 2 ^ 31)
    {entry : KvmIrqRoutingEntry} (message : entry.type = .msi)
    (gsi : entry.gsi = .ofNat nextGsi)
    (fresh : ∀ other ∈ entries, other.gsi ≠ .ofNat nextGsi) :
    Table allocatedGsis nextGsi (entries ++ [entry]) where
  within := by
    rw [List.length_append, List.length_singleton]
    omega
  counted := by
    have counted := table.counted
    rw [List.length_append, List.length_singleton]
    omega
  reserved := table.reserved
  chips := by
    intro other inside pin
    rcases List.mem_append.mp inside with old | new
    · exact table.chips other old pin
    · rw [List.mem_singleton.mp new, message] at pin
      cases pin
  messages := by
    intro other inside isMessage
    rcases List.mem_append.mp inside with old | new
    · exact table.messages other old isMessage
    · have counted := table.counted
      have reserved := table.reserved
      have value : (UInt32.ofNat nextGsi).toNat = nextGsi := by
        rw [UInt32.toNat_ofNat']
        omega
      rw [List.mem_singleton.mp new, gsi, value]
      omega
  unique := by
    rw [List.pairwise_append]
    refine ⟨table.unique, List.pairwise_singleton _ _, ?_⟩
    intro other old last isLast _ _ same
    rw [List.mem_singleton.mp isLast, gsi] at same
    exact fresh other old same

/-- The GSI has been returned. -/
theorem Table.advance
    (table : Table allocatedGsis nextGsi entries)
    (counted : nextGsi + 15 ≤ entries.length) :
    Table allocatedGsis (nextGsi + 1) entries where
  within := table.within
  counted := by omega
  reserved := by
    have reserved := table.reserved
    omega
  chips := table.chips
  messages := by
    intro entry inside message
    have bounds := table.messages entry inside message
    omega
  unique := table.unique

/-- The counters agree with every table of the same GSIs and types. -/
theorem Table.of_kinds {others : List KvmIrqRoutingEntry}
    (table : Table allocatedGsis nextGsi entries)
    (same :
      others.map KvmIrqRoutingEntry.kind =
        entries.map KvmIrqRoutingEntry.kind) :
    Table allocatedGsis nextGsi others := by
  have length : others.length = entries.length := by
    simpa using congrArg List.length same
  have origin :
      ∀ other ∈ others, ∃ entry ∈ entries, entry.kind = other.kind := by
    intro other inside
    have member := List.mem_map_of_mem (f := KvmIrqRoutingEntry.kind) inside
    rw [same] at member
    exact List.mem_map.mp member
  refine ⟨?_, ?_, table.reserved, ?_, ?_, ?_⟩
  · rw [length]
    exact table.within
  · rw [length]
    exact table.counted
  · intro other inside pin
    obtain ⟨entry, member, kind⟩ := origin other inside
    injection kind with type gsi
    rw [← gsi]
    exact table.chips entry member (type.trans pin)
  · intro other inside message
    obtain ⟨entry, member, kind⟩ := origin other inside
    injection kind with type gsi
    rw [← gsi]
    exact table.messages entry member (type.trans message)
  · have unique :
        (entries.map KvmIrqRoutingEntry.kind).Pairwise
          fun first second =>
            first.1 = .msi → second.1 = .msi → first.2 ≠ second.2 :=
      List.pairwise_map.mpr table.unique
    rw [← same] at unique
    exact List.pairwise_map.mp unique

/--
Storing in the first entry of the GSI is storing in the entry for a message,
exactly when the first one is for a message or has the words already.
-/
theorem Table.storeMsg_eq_iff
    (table : Table allocatedGsis nextGsi entries)
    (gsi : UInt32) (msg : MsiMsg) :
    storeMsg gsi msg entries = entries.map (.store gsi msg) ↔
      ∀ entry, entries.find? (fun entry => gsi = entry.gsi) = some entry →
        entry.type = .msi ∨ entry.u = msg := by
  cases found : entries.find? fun entry => gsi = entry.gsi with
  | none =>
      refine iff_of_true ?_ (fun entry equal => nomatch equal)
      rw [storeMsg_of_none found, map_store_of_absent]
      intro entry inside _ same
      exact List.find?_eq_none.mp found entry inside
        (decide_eq_true same.symm)
  | some entry =>
      have inside : entry ∈ entries := List.mem_of_find?_eq_some found
      have gsiIs : gsi = entry.gsi :=
        of_decide_eq_true (List.find?_some found :)
      cases type : entry.type with
      | msi =>
          refine iff_of_true ?_ ?_
          · exact storeMsg_eq_map table.unique found type
          · intro other equal
            cases equal
            exact Or.inl type
      | irqchip =>
          have absent :
              ∀ other ∈ entries, other.type = .msi → other.gsi ≠ gsi := by
            intro other member message
            rw [gsiIs]
            exact table.apart member inside message type
          rw [map_store_of_absent msg absent, storeMsg_eq_self_iff found]
          constructor
          · intro same other equal
            cases equal
            exact Or.inr same
          · intro every
            rcases every entry rfl with message | same
            · rw [type] at message
              cases message
            · exact same

end Table

/-! ## One step -/

section Step

variable (host : IrqHost) {state : IrqState}

theorem Routed.sound (routed : Routed state) : RoutesSound state := by
  cases routing : state.irqRouting with
  | none =>
      refine ⟨routed.defined, ?_, ?_, ?_⟩
      · rw [nrEntries, routing]
        exact Nat.zero_le _
      · rw [routing]
        exact List.Pairwise.nil
      · rw [routing]
        intro entry inside
        cases inside
  | some entries =>
      have table := routed.table entries routing
      refine ⟨routed.defined, ?_, ?_, ?_⟩
      · rw [nrEntries, routing]
        exact table.within
      · rw [routing]
        exact table.unique
      · rw [routing]
        intro entry inside chip within message pin
        exact table.apart inside within message pin

/-- There is room for an entry, and what else there is stays. -/
structure Roomy (state after : IrqState) : Prop where
  routed : Routed after
  alive : after.dead = state.dead
  room : nrEntries after < after.allocatedGsis
  entries : after.irqRouting = state.irqRouting
  next : after.nextGsi = state.nextGsi

/-- Finding room changes no entry. -/
theorem Routed.allocate (routed : Routed state) {realloc : Bool}
    (countable :
      state.allocatedGsis ≤ nrEntries state →
        nrEntries state + 32 < 2 ^ 31)
    (granted : nrEntries state < state.allocatedGsis ∨ realloc) :
    ∃ after,
      irqAllocateRoutingEntry realloc state = (0, after) ∧
        Roomy state after := by
  have least := lt_alignTo32 (nrEntries state)
  have most := alignTo32_le (nrEntries state)
  rcases irqAllocateRoutingEntry_cases realloc state countable with
    ⟨room, equal⟩ | ⟨full, _, equal⟩ | ⟨full, refused, _⟩
  · exact ⟨state, equal, routed, rfl, room, rfl, rfl⟩
  · have below := countable full
    cases routing : state.irqRouting with
    | none =>
        have positive := routed.lost routing
        rw [nrEntries, routing] at full
        exact absurd full (Nat.not_le.mpr positive)
    | some entries =>
        have table := routed.table entries routing
        have count : nrEntries state = entries.length := by
          rw [nrEntries, routing]
          rfl
        rw [routing] at equal
        refine
          ⟨_, equal, ⟨routed.defined, ?_, ?_, ?_⟩, rfl, ?_, routing.symm,
            rfl⟩
        · exact Nat.lt_of_le_of_lt most below
        · intro none
          cases none
        · intro others same
          cases same
          refine table.mono ?_
          have within := table.within
          dsimp only
          omega
        · rw [count] at least ⊢
          exact least
  · rw [refused] at granted
    rcases granted with room | impossible
    · exact absurd room (Nat.not_lt.mpr full)
    · cases impossible

/-- Without memory the table is lost. -/
theorem Routed.allocate_refused (routed : Routed state) {realloc : Bool}
    (countable :
      state.allocatedGsis ≤ nrEntries state →
        nrEntries state + 32 < 2 ^ 31)
    (refused : ¬ (nrEntries state < state.allocatedGsis ∨ realloc)) :
    ∃ after,
      irqAllocateRoutingEntry realloc state = (-eNoMem, after) ∧
        Routed after := by
  have least := lt_alignTo32 (nrEntries state)
  have most := alignTo32_le (nrEntries state)
  rcases irqAllocateRoutingEntry_cases realloc state countable with
    ⟨room, _⟩ | ⟨_, granted, _⟩ | ⟨full, _, equal⟩
  · exact absurd (Or.inl room) refused
  · exact absurd (Or.inr granted) refused
  · have below := countable full
    refine ⟨_, equal, routed.defined, ?_, ?_, ?_⟩
    · exact Nat.lt_of_le_of_lt most below
    · intro _
      exact Nat.lt_of_le_of_lt (Nat.zero_le _) least
    · intro entries table
      cases table

/-- What a call returns and leaves that finds room. -/
theorem irqAddMsixRoute_of_room {after : IrqState}
    {realloc : Bool} (updateRoute : Int) (msg : MsiMsg)
    (deviceId : UInt32) (has : host.hasIrqRouting = true)
    (found : irqAllocateRoutingEntry realloc state = (0, after)) :
    irqAddMsixRoute host realloc updateRoute state msg deviceId =
      (if updateRoute = 0 then (after.nextGsi : Int) else updateRoute,
        { appendEntry after (msixEntry host after msg deviceId) with
          nextGsi :=
            if updateRoute = 0 then after.nextGsi + 1
            else after.nextGsi }) := by
  have next :
      (appendEntry after (msixEntry host after msg deviceId)).nextGsi =
        after.nextGsi := by
    rw [appendEntry]
    cases after.irqRouting <;> rfl
  rw [irqAddMsixRoute, if_neg (by simp [has]), found]
  dsimp only
  rw [if_neg (fun nonzero => nonzero rfl)]
  by_cases accepted : updateRoute = 0
  · rw [if_neg (fun refused => refused accepted), if_pos accepted,
      if_pos accepted, next]
  · rw [if_pos accepted, if_neg accepted, if_neg accepted, ← next]

theorem irqAllocateRoutingEntry_result (realloc : Bool)
    (state : IrqState) :
    (irqAllocateRoutingEntry realloc state).1 = 0 ∨
      (irqAllocateRoutingEntry realloc state).1 = -eNoMem := by
  unfold irqAllocateRoutingEntry
  dsimp only
  split_ifs
  · exact Or.inl rfl
  · exact Or.inr rfl
  · exact Or.inl rfl
  · exact Or.inr rfl

/-- `ENXIO` is for hosts without routing. -/
theorem irqAddMsixRoute_ne_eNxio {realloc : Bool} {updateRoute : Int}
    (msg : MsiMsg) (deviceId : UInt32) (has : host.hasIrqRouting = true)
    (other : updateRoute ≠ -eNxio) :
    (irqAddMsixRoute host realloc updateRoute state msg deviceId).1 ≠
      -eNxio := by
  have present : ¬ (!host.hasIrqRouting) = true := by simp [has]
  rw [irqAddMsixRoute, if_neg present]
  dsimp only
  rcases irqAllocateRoutingEntry_result realloc state with zero | failed
  · rw [if_neg (fun nonzero => nonzero zero)]
    split_ifs with refused
    · exact other
    · rw [eNxio]
      dsimp only
      omega
  · rw [failed, if_pos (by decide)]
    exact (by decide : -eNoMem ≠ -eNxio)

/-- What a call returns and leaves without memory. -/
theorem irqAddMsixRoute_refused {after : IrqState} {realloc : Bool}
    (updateRoute : Int) (msg : MsiMsg) (deviceId : UInt32)
    (has : host.hasIrqRouting = true)
    (failed : irqAllocateRoutingEntry realloc state = (-eNoMem, after)) :
    irqAddMsixRoute host realloc updateRoute state msg deviceId =
      (-eNoMem, after) := by
  rw [irqAddMsixRoute, if_neg (by simp [has]), failed]
  exact if_pos (by decide)

/-- An added route whose GSI no entry has. -/
theorem Routed.add (routed : Routed state) {realloc : Bool}
    (updateRoute : Int) (msg : MsiMsg) (deviceId : UInt32)
    (fits : host.hasIrqRouting = false ∨ AddFits state realloc) :
    Routed
      (irqAddMsixRoute host realloc updateRoute state msg deviceId).2 := by
  cases has : host.hasIrqRouting with
  | false =>
      rw [irqAddMsixRoute, if_pos (by simp [has])]
      exact routed
  | true =>
      have fits := fits.resolve_left (by simp [has])
      by_cases granted :
          nrEntries state < state.allocatedGsis ∨ realloc = true
      · have fresh := fits.fresh granted
        obtain ⟨after, found, roomy⟩ :=
          routed.allocate fits.countable granted
        rw [irqAddMsixRoute_of_room host updateRoute msg deviceId has found]
        cases routing : after.irqRouting with
        | none =>
            rw [appendEntry_none routing]
            refine ⟨roomy.routed.defined, roomy.routed.bounded,
              fun _ => roomy.routed.lost routing, ?_⟩
            intro entries table
            cases routing.symm.trans table
        | some entries =>
            have table := roomy.routed.table entries routing
            have room := roomy.room
            rw [← roomy.entries, ← roomy.next, routing] at fresh
            rw [nrEntries, routing] at room
            have longer :=
              table.append room roomy.routed.bounded
                (msixEntry_type host after msg deviceId)
                (msixEntry_gsi host after msg deviceId) fresh
            rw [appendEntry_some routing]
            refine ⟨roomy.routed.defined, roomy.routed.bounded, ?_, ?_⟩
            · intro none
              cases none
            · intro others same
              cases same
              dsimp only
              split_ifs with accepted
              · refine longer.advance ?_
                have counted := table.counted
                rw [List.length_append, List.length_singleton]
                omega
              · exact longer
      · obtain ⟨after, failed, kept⟩ :=
          routed.allocate_refused fits.countable granted
        rw [irqAddMsixRoute_refused host updateRoute msg deviceId has failed]
        exact kept

/-- A second entry with one GSI, or too many entries. -/
theorem Routed.add_broken (routed : Routed state) {realloc : Bool}
    (updateRoute : Int) (msg : MsiMsg) (deviceId : UInt32)
    (has : host.hasIrqRouting = true) (unfit : ¬ AddFits state realloc) :
    ¬ RoutesSound
      (irqAddMsixRoute host realloc updateRoute state msg deviceId).2 := by
  intro sound
  by_cases countable :
      state.allocatedGsis ≤ nrEntries state →
        nrEntries state + 32 < 2 ^ 31
  · refine unfit ⟨countable, ?_⟩
    intro granted entry inside same
    obtain ⟨after, found, roomy⟩ :=
      routed.allocate countable granted
    rw [irqAddMsixRoute_of_room host updateRoute msg deviceId has found]
      at sound
    cases routing : after.irqRouting with
    | none =>
        rw [← roomy.entries, routing] at inside
        cases inside
    | some entries =>
        rw [← roomy.entries, routing] at inside
        rw [← roomy.next] at same
        rw [appendEntry_some routing] at sound
        have unique := sound.unique
        have apart := sound.apart
        dsimp only [Option.getD_some] at unique apart
        cases type : entry.type with
        | msi =>
            rw [List.pairwise_append] at unique
            exact
              unique.2.2 entry inside _ (List.mem_singleton_self _) type rfl
                same
        | irqchip =>
            exact
              apart _ (List.mem_append_right _ (List.mem_singleton_self _))
                entry (List.mem_append_left _ inside) rfl type same.symm
  · obtain ⟨full, many⟩ := Classical.not_imp.mp countable
    have defined := sound.defined
    rw [irqAddMsixRoute, if_neg (by simp [has]), irqAllocateRoutingEntry,
      if_neg (Nat.not_lt.mpr full), if_pos (Nat.not_lt.mp many)] at defined
    cases defined

/-- Which updates change only the entry that was added for the GSI. -/
theorem Routed.updatesOne_iff (routed : Routed state)
    (alive : state.dead = false) (updateRoute : Int) (gsi : UInt32)
    (msg : MsiMsg) :
    UpdatesOne host state (.update updateRoute gsi msg) ↔
      CallFits host state (.update updateRoute gsi msg) := by
  rw [UpdatesOne, CallFits, alive, irqStep, alive, if_neg Bool.noConfusion]
  rw [or_iff_right Bool.noConfusion, or_iff_right Bool.noConfusion]
  cases routing : state.irqRouting with
  | none =>
      refine iff_of_true ?_ (fun entry found => nomatch found)
      rw [irqUpdateMsixRoute, routing]
      rfl
  | some entries =>
      rw [irqUpdateMsixRoute_eq routing, Option.getD_some,
        ← (routed.table entries routing).storeMsg_eq_iff gsi msg,
        Option.map_some]
      constructor
      · intro equal
        injection equal with tables
        exact Option.some.inj tables
      · intro equal
        rw [equal]

/-- An update changes no GSI and no type. -/
theorem Routed.update (routed : Routed state) (updateRoute : Int)
    (gsi : UInt32) (msg : MsiMsg) :
    Routed (irqUpdateMsixRoute updateRoute state gsi msg) := by
  cases routing : state.irqRouting with
  | none =>
      have ended :
          irqUpdateMsixRoute updateRoute state gsi msg =
            { state with dead := true } := by
        rw [irqUpdateMsixRoute, routing]
      rw [ended]
      exact ⟨routed.defined, routed.bounded, routed.lost, routed.table⟩
  | some entries =>
      have table := routed.table entries routing
      rw [irqUpdateMsixRoute_eq routing]
      refine ⟨routed.defined, routed.bounded, ?_, ?_⟩
      · intro none
        cases none
      · intro others same
        cases same
        exact table.of_kinds (map_kind_storeMsg gsi msg entries)

theorem irqStep_dead (ended : state.dead = true) (call : IrqCall) :
    irqStep host state call = state := by
  unfold irqStep
  rw [if_pos ended]

/-- A call that fits keeps the table as it should be. -/
theorem Routed.step (routed : Routed state) (call : IrqCall)
    (fits : CallFits host state call) :
    Routed (irqStep host state call) ∧ UpdatesOne host state call := by
  cases ended : state.dead with
  | true =>
      rw [irqStep_dead host ended]
      refine ⟨routed, ?_⟩
      cases call with
      | add => trivial
      | update => exact Or.inl ended
  | false =>
      cases call with
      | add realloc updateRoute msg deviceId =>
          rw [CallFits, ended, or_iff_right Bool.noConfusion] at fits
          rw [irqStep, if_neg (by simp [ended])]
          exact ⟨routed.add host updateRoute msg deviceId fits, trivial⟩
      | update updateRoute gsi msg =>
          have one :=
            (routed.updatesOne_iff host ended updateRoute gsi msg).mpr fits
          rw [irqStep, if_neg (by simp [ended])]
          exact ⟨routed.update updateRoute gsi msg, one⟩

/-- A call that does not fit breaks the table or changes another entry. -/
theorem Routed.step_broken (routed : Routed state) (call : IrqCall)
    (unfit : ¬ CallFits host state call)
    (sound : RoutesSound (irqStep host state call)) :
    ¬ UpdatesOne host state call := by
  have alive : state.dead = false := by
    cases ended : state.dead with
    | false => rfl
    | true =>
        refine absurd ?_ unfit
        cases call <;> exact Or.inl ended
  cases call with
  | add realloc updateRoute msg deviceId =>
      rw [CallFits, alive, or_iff_right Bool.noConfusion, not_or,
        Bool.not_eq_false] at unfit
      rw [irqStep, if_neg (by simp [alive])] at sound
      exact
        absurd sound
          (routed.add_broken host updateRoute msg deviceId unfit.1 unfit.2)
  | update updateRoute gsi msg =>
      rw [routed.updatesOne_iff host alive updateRoute gsi msg]
      exact unfit

/-! ## What the entries of a GSI carry -/

/-- The messages of the entries of a GSI. -/
def messagesOf (state : IrqState) (gsi : UInt32) : List MsiMsg :=
  ((state.irqRouting.getD []).filter (·.gsi = gsi)).map (·.u)

theorem storeMsg_filter_other {gsi other : UInt32}
    (different : other ≠ gsi) (msg : MsiMsg)
    (entries : List KvmIrqRoutingEntry) :
    (storeMsg gsi msg entries).filter (·.gsi = other) =
      entries.filter (·.gsi = other) := by
  induction entries with
  | nil => rfl
  | cons head rest induction =>
      rw [storeMsg]
      split_ifs with same
      · have apart : ¬ head.gsi = other := by
          rw [← same]
          exact different.symm
        rw [List.filter_cons_of_neg (by simpa using apart),
          List.filter_cons_of_neg (by simpa using apart)]
      · rw [List.filter_cons, List.filter_cons, induction]

theorem storeMsg_filter_self {gsi : UInt32} (msg : MsiMsg)
    {entries : List KvmIrqRoutingEntry} {entry : KvmIrqRoutingEntry}
    {behind : List KvmIrqRoutingEntry}
    (found : entries.filter (·.gsi = gsi) = entry :: behind) :
    (storeMsg gsi msg entries).filter (·.gsi = gsi) =
      { entry with u := msg } :: behind := by
  induction entries with
  | nil => cases found
  | cons head rest induction =>
      rw [storeMsg]
      split_ifs with same
      · rw [List.filter_cons_of_pos (by simpa using same.symm)] at found
        cases found
        exact List.filter_cons_of_pos (by simpa using same.symm)
      · have apart : ¬ head.gsi = gsi := fun equal => same equal.symm
        rw [List.filter_cons_of_neg (by simpa using apart)] at found ⊢
        exact induction found

/-- An update leaves the entries of other GSIs as they are. -/
theorem messagesOf_update_other {gsi other : UInt32}
    (different : other ≠ gsi) (updateRoute : Int) (msg : MsiMsg) :
    messagesOf (irqUpdateMsixRoute updateRoute state gsi msg) other =
      messagesOf state other := by
  cases routing : state.irqRouting with
  | none =>
      rw [irqUpdateMsixRoute, routing, messagesOf, messagesOf, routing]
  | some entries =>
      rw [irqUpdateMsixRoute_eq routing, messagesOf, messagesOf, routing,
        Option.getD_some, Option.getD_some,
        storeMsg_filter_other different]

/-- An update of a GSI with one entry. -/
theorem messagesOf_update_self {gsi : UInt32} {old : MsiMsg}
    (one : messagesOf state gsi = [old]) (updateRoute : Int)
    (msg : MsiMsg) :
    messagesOf (irqUpdateMsixRoute updateRoute state gsi msg) gsi =
      [msg] := by
  cases routing : state.irqRouting with
  | none =>
      rw [messagesOf, routing] at one
      cases one
  | some entries =>
      rw [messagesOf, routing, Option.getD_some,
        List.map_eq_singleton_iff] at one
      obtain ⟨entry, found, _⟩ := one
      rw [irqUpdateMsixRoute_eq routing, messagesOf, Option.getD_some,
        storeMsg_filter_self msg found]
      rfl

@[simp]
theorem irqUpdateMsixRoute_nextGsi (state : IrqState) (updateRoute : Int)
    (gsi : UInt32) (msg : MsiMsg) :
    (irqUpdateMsixRoute updateRoute state gsi msg).nextGsi =
      state.nextGsi := by
  cases routing : state.irqRouting with
  | none => rw [irqUpdateMsixRoute, routing]
  | some entries => rw [irqUpdateMsixRoute_eq routing]

/-- An update makes no entries. -/
theorem irqUpdateMsixRoute_origin {updateRoute : Int} {gsi : UInt32}
    {msg : MsiMsg} {entry : KvmIrqRoutingEntry}
    (inside :
      entry ∈
        (irqUpdateMsixRoute updateRoute state gsi msg).irqRouting.getD []) :
    ∃ old ∈ state.irqRouting.getD [], old.kind = entry.kind := by
  cases routing : state.irqRouting with
  | none =>
      rw [irqUpdateMsixRoute, routing] at inside
      cases inside
  | some entries =>
      rw [irqUpdateMsixRoute_eq routing, Option.getD_some] at inside
      have member :=
        List.mem_map_of_mem (f := KvmIrqRoutingEntry.kind) inside
      rw [map_kind_storeMsg] at member
      exact List.mem_map.mp member

/-- An added route, in a process that goes on. -/
structure RouteAdded (host : IrqHost) (state : IrqState) (msg : MsiMsg)
    (deviceId : UInt32) (result : Int × IrqState) : Prop where
  countable :
    state.allocatedGsis ≤ nrEntries state → nrEntries state + 32 < 2 ^ 31
  gsi : result.1 = state.nextGsi
  next : result.2.nextGsi = state.nextGsi + 1
  entries :
    ∃ entries, state.irqRouting = some entries ∧
      result.2.irqRouting =
        some (entries ++ [msixEntry host state msg deviceId])

theorem Routed.routeAdded (routed : Routed state) {realloc : Bool}
    {updateRoute : Int} (failing : updateRoute ≤ 0) (msg : MsiMsg)
    (deviceId : UInt32) (has : host.hasIrqRouting = true)
    (alive :
      (irqAddMsixRoute host realloc updateRoute state msg deviceId).2.dead =
        false)
    (succeeds :
      0 ≤ (irqAddMsixRoute host realloc updateRoute state msg
        deviceId).1) :
    RouteAdded host state msg deviceId
      (irqAddMsixRoute host realloc updateRoute state msg deviceId) := by
  have present : ¬ (!host.hasIrqRouting) = true := by simp [has]
  have countable :
      state.allocatedGsis ≤ nrEntries state →
        nrEntries state + 32 < 2 ^ 31 := by
    intro full
    by_contra many
    rw [irqAddMsixRoute, if_neg present, irqAllocateRoutingEntry,
      if_neg (Nat.not_lt.mpr full), if_pos (Nat.not_lt.mp many)] at alive
    cases alive
  by_cases granted : nrEntries state < state.allocatedGsis ∨ realloc = true
  · obtain ⟨after, found, roomy⟩ := routed.allocate countable granted
    have result :=
      irqAddMsixRoute_of_room host updateRoute msg deviceId has found
    have accepted : updateRoute = 0 := by
      by_contra refused
      rw [result, if_neg refused] at succeeds
      omega
    cases routing : after.irqRouting with
    | none =>
        rw [result, appendEntry_none routing] at alive
        cases alive
    | some entries =>
        rw [appendEntry_some routing, if_pos accepted, if_pos accepted]
          at result
        rw [result]
        refine ⟨countable, ?_, ?_, entries, ?_, ?_⟩
        · rw [roomy.next]
        · rw [roomy.next]
        · rw [← roomy.entries, routing]
        · dsimp only
          rw [msixEntry, msixEntry, roomy.next]
  · obtain ⟨after, failed, _⟩ := routed.allocate_refused countable granted
    rw [irqAddMsixRoute_refused host updateRoute msg deviceId has failed]
      at succeeds
    exact absurd succeeds (by decide : ¬ 0 ≤ -eNoMem)

section Added

variable {host} {msg : MsiMsg} {deviceId : UInt32}
  {result : Int × IrqState}
  (added : RouteAdded host state msg deviceId result)

include added

theorem RouteAdded.messagesOf_other {gsi : UInt32}
    (different : gsi ≠ .ofNat state.nextGsi) :
    messagesOf result.2 gsi = messagesOf state gsi := by
  obtain ⟨entries, routing, longer⟩ := added.entries
  have none :
      [msixEntry host state msg deviceId].filter (·.gsi = gsi) = [] := by
    rw [List.filter_eq_nil_iff]
    intro entry inside
    rw [List.mem_singleton.mp inside, decide_eq_true_iff]
    exact different.symm
  rw [messagesOf, longer, messagesOf, routing, Option.getD_some,
    Option.getD_some, List.filter_append, none, List.append_nil]

/-- The new entry is the only one of its GSI. -/
theorem RouteAdded.messagesOf_self
    (fresh :
      ∀ entry ∈ state.irqRouting.getD [],
        entry.gsi ≠ .ofNat state.nextGsi) :
    messagesOf result.2 (.ofNat state.nextGsi) = [msg] := by
  obtain ⟨entries, routing, longer⟩ := added.entries
  rw [routing, Option.getD_some] at fresh
  have none : entries.filter (·.gsi = .ofNat state.nextGsi) = [] := by
    rw [List.filter_eq_nil_iff]
    intro entry inside
    simpa using fresh entry inside
  have found :
      [msixEntry host state msg deviceId].filter
          (·.gsi = .ofNat state.nextGsi) =
        [msixEntry host state msg deviceId] := by
    rw [List.filter_eq_self]
    intro entry inside
    rw [List.mem_singleton.mp inside, decide_eq_true_iff]
    rfl
  rw [messagesOf, longer, Option.getD_some, List.filter_append, none,
    List.nil_append, found]
  rfl

end Added

end Step

/-! ## The table at the start -/

/-- What the routes of the chips leave, after so many of them. -/
structure ChipsAdded (count : Nat) (state : IrqState) : Prop where
  defined : state.overflowed = false
  within : nrEntries state ≤ state.allocatedGsis
  bounded : state.allocatedGsis ≤ count + 32
  ended :
    state.dead = true → state.irqRouting = none ∧ 0 < state.allocatedGsis
  lost : state.irqRouting = none → 0 < count → 0 < state.allocatedGsis
  aligned : state.allocatedGsis % 32 = 0
  recent :
    state.dead = false → state.irqRouting = none → 0 < count →
      state.allocatedGsis = count + 31
  counted :
    ∀ entries, state.irqRouting = some entries → entries.length = count
  pins :
    ∀ entry ∈ state.irqRouting.getD [],
      entry.type = .irqchip ∧ entry.gsi.toNat < 24

theorem ChipsAdded.start : ChipsAdded 0 irqBefore where
  defined := rfl
  within := Nat.le_refl _
  bounded := Nat.zero_le _
  ended := fun dead => nomatch dead
  lost := fun _ positive => absurd positive (Nat.lt_irrefl 0)
  aligned := rfl
  recent := fun _ _ positive => absurd positive (Nat.lt_irrefl 0)
  counted := fun _ table => nomatch table
  pins := fun _ inside => nomatch inside

/-- An entry for a pin, in a table with room. -/
theorem ChipsAdded.append {count : Nat} {state : IrqState}
    (defined : state.overflowed = false)
    (room : nrEntries state < state.allocatedGsis)
    (bounded : state.allocatedGsis ≤ count + 32)
    (aligned : state.allocatedGsis % 32 = 0)
    (counted :
      ∀ entries, state.irqRouting = some entries → entries.length = count)
    (pins :
      ∀ entry ∈ state.irqRouting.getD [],
        entry.type = .irqchip ∧ entry.gsi.toNat < 24)
    {entry : KvmIrqRoutingEntry}
    (pin : entry.type = .irqchip ∧ entry.gsi.toNat < 24)
    (alive : state.dead = false) :
    ChipsAdded (count + 1) (appendEntry state entry) := by
  cases routing : state.irqRouting with
  | none =>
      rw [appendEntry_none routing]
      have positive := Nat.lt_of_le_of_lt (Nat.zero_le _) room
      refine ⟨defined, Nat.le_of_lt room, Nat.le_succ_of_le bounded,
        fun _ => ⟨routing, positive⟩, fun _ _ => positive, aligned,
        (fun ended => nomatch ended), ?_, pins⟩
      intro entries table
      cases routing.symm.trans table
  | some entries =>
      rw [appendEntry_some routing]
      refine
        ⟨defined, ?_, Nat.le_succ_of_le bounded, ?_, ?_, aligned,
          (fun _ none => nomatch none), ?_, ?_⟩
      · rw [nrEntries, routing] at room
        rw [nrEntries, Option.getD_some, List.length_append]
        exact room
      · intro ended
        rw [alive] at ended
        cases ended
      · intro none
        cases none
      · intro others same
        cases same
        rw [List.length_append, counted entries routing]
        rfl
      · intro other inside
        rcases List.mem_append.mp inside with old | new
        · refine pins other ?_
          rw [routing]
          exact old
        · rw [List.mem_singleton.mp new]
          exact pin

theorem ChipsAdded.step {count : Nat} {state : IrqState}
    (added : ChipsAdded count state) (realloc : Bool)
    {route : UInt32 × UInt32 × UInt32} (below : route.1.toNat < 24)
    (few : count < 100) :
    ChipsAdded (count + 1) (irqAddRouting realloc state route) := by
  have within := added.within
  have bounded := added.bounded
  have least := lt_alignTo32 (nrEntries state)
  have most := alignTo32_le (nrEntries state)
  rw [irqAddRouting]
  split_ifs with dead
  · obtain ⟨none, positive⟩ := added.ended dead
    refine ⟨added.defined, within, Nat.le_succ_of_le bounded, added.ended,
      fun _ _ => positive, added.aligned, ?_, ?_, added.pins⟩
    · intro alive
      rw [dead] at alive
      cases alive
    · intro entries table
      cases none.symm.trans table
  · have alive : state.dead = false := by simpa using dead
    have pin :
        (chipEntry route).type = .irqchip ∧
          (chipEntry route).gsi.toNat < 24 :=
      ⟨rfl, below⟩
    have reached : nrEntries state ≤ count := by
      cases routing : state.irqRouting with
      | none =>
          rw [nrEntries, routing]
          exact Nat.zero_le _
      | some entries =>
          rw [nrEntries, routing]
          exact Nat.le_of_eq (added.counted entries routing)
    have count_of_full :
        state.allocatedGsis ≤ nrEntries state → nrEntries state = count := by
      intro full
      cases routing : state.irqRouting with
      | none =>
          have lost := added.lost routing
          rw [nrEntries, routing] at full ⊢
          have none : state.allocatedGsis = 0 := Nat.le_zero.mp full
          dsimp only [Option.getD_none, List.length_nil]
          omega
      | some entries =>
          rw [nrEntries, routing]
          exact added.counted entries routing
    rcases irqAllocateRoutingEntry_cases realloc state (by omega) with
      ⟨room, equal⟩ | ⟨full, _, equal⟩ | ⟨full, _, equal⟩
    · rw [equal]
      exact
        .append added.defined room bounded added.aligned added.counted
          added.pins pin alive
    · rw [equal]
      dsimp only
      rw [if_neg (fun nonzero => nonzero rfl)]
      refine ChipsAdded.append ?_ ?_ ?_ ?_ ?_ ?_ pin ?_
      · exact added.defined
      · exact least
      · exact Nat.le_trans most (by omega)
      · exact alignTo32_mod _
      rotate_left
      · exact added.pins
      · exact alive
      intro entries table
      cases table
      exact count_of_full full
    · have positive := Nat.lt_of_le_of_lt (Nat.zero_le _) least
      rw [equal]
      dsimp only
      rw [if_pos (by decide)]
      refine
        ⟨added.defined, Nat.zero_le _, Nat.le_trans most (by omega), ?_,
          fun _ _ => positive, alignTo32_mod _, ?_,
          (fun _ table => nomatch table), (fun _ inside => nomatch inside)⟩
      · intro ended
        cases alive.symm.trans ended
      · intro _ _ _
        have whole := added.aligned
        have nr := count_of_full full
        dsimp only
        rw [alignTo32]
        omega

theorem ChipsAdded.foldl {count : Nat} {state : IrqState}
    (added : ChipsAdded count state) (realloc : Nat → Bool)
    {routes : List (UInt32 × UInt32 × UInt32)}
    (below : ∀ route ∈ routes, route.1.toNat < 24)
    (few : count + routes.length ≤ 100) :
    ChipsAdded (count + routes.length)
      (routes.foldl
        (fun state route =>
          irqAddRouting (realloc (nrEntries state)) state route)
        state) := by
  induction routes generalizing count state with
  | nil => exact added
  | cons route rest induction =>
      rw [List.length_cons] at few ⊢
      have one :=
        added.step (realloc (nrEntries state))
          (below route List.mem_cons_self) (by omega)
      have all :=
        induction one (fun other inside => below other (.tail route inside))
          (by omega)
      rw [Nat.add_right_comm, Nat.add_assoc] at all
      exact all

/-- What `irq__init` leaves when it succeeds. -/
theorem irqInit_spec {realloc : Nat → Bool} {ioctl : Int}
    {start : IrqState} (init : irqInit realloc ioctl = some start) :
    ChipsAdded 38 start ∧ start.nextGsi = 24 ∧ start.dead = false := by
  have checked :
      chipRoutes.all (fun route => route.1.toNat < 24) = true := rfl
  have below : ∀ route ∈ chipRoutes, route.1.toNat < 24 := fun route inside =>
    of_decide_eq_true (List.all_eq_true.1 checked route inside)
  have many : 0 + chipRoutes.length = 38 := rfl
  have few : 0 + chipRoutes.length ≤ 100 := by omega
  have added := ChipsAdded.start.foldl realloc below few
  rw [many] at added
  rw [irqInit] at init
  split_ifs at init with dead refused
  cases init
  refine ⟨?_, rfl, by simpa using dead⟩
  exact
    ⟨added.defined, added.within, added.bounded, added.ended, added.lost,
      added.aligned, added.recent, added.counted, added.pins⟩

theorem routed_irqInit {realloc : Nat → Bool} {ioctl : Int}
    {start : IrqState} (init : irqInit realloc ioctl = some start) :
    Routed start := by
  obtain ⟨added, next, _⟩ := irqInit_spec init
  refine ⟨added.defined, ?_, ?_, ?_⟩
  · exact Nat.lt_of_le_of_lt added.bounded (by decide)
  · intro lost
    exact added.lost lost (by decide)
  · intro entries routing
    have counted := added.counted entries routing
    have within := added.within
    have pins := added.pins
    rw [routing] at pins
    rw [nrEntries, routing] at within
    rw [next]
    refine ⟨within, ?_, Nat.le_refl _, ?_, ?_, ?_⟩
    · exact Nat.le_of_eq counted.symm
    · intro entry inside _
      exact (pins entry inside).2
    · intro entry inside message
      rw [(pins entry inside).1] at message
      cases message
    · refine List.pairwise_of_forall_mem_list ?_
      intro first inside second _ message
      rw [(pins first inside).1] at message
      cases message

/-! ## Runs -/

/--
Throughout a run of calls the table is sound and every update changes the
one entry for its GSI, exactly when every call fits.
-/
theorem routes_sound_iff (host : IrqHost) {realloc : Nat → Bool}
    {ioctl : Int} {start : IrqState}
    (init : irqInit realloc ioctl = some start) (calls : List IrqCall) :
    Throughout (irqStep host) RoutesSound start calls ∧
        Along (irqStep host) (UpdatesOne host) start calls ↔
      Along (irqStep host) (CallFits host) start calls := by
  have kept :
      ∀ state call, Routed state → CallFits host state call →
        Routed (irqStep host state call) ∧ UpdatesOne host state call :=
    fun state call routed fits => routed.step host call fits
  have broken :
      ∀ state call, Routed state → ¬ CallFits host state call →
        RoutesSound (irqStep host state call) →
          ¬ UpdatesOne host state call :=
    fun state call routed unfit sound =>
      routed.step_broken host call unfit sound
  exact
    throughout_and_along_iff (fun state routed => routed.sound) kept broken
      (routed_irqInit init) calls

/-- The table of the chips. -/
def chipTable : IrqState where
  irqRouting := some (chipRoutes.map chipEntry)
  allocatedGsis := 64
  nextGsi := 24
  dead := false
  overflowed := false

theorem irqInit_chipTable : irqInit (fun _ => true) 0 = some chipTable := by
  decide +kernel

/-- A route is added and gets another message. -/
theorem routes_sound_on_update :
    Throughout (irqStep ⟨true, false⟩) RoutesSound chipTable
        [.add true 0 ⟨0xfee00000, 0, 1⟩ 0,
          .update 0 24 ⟨0xfee00000, 0, 2⟩] ∧
      Along (irqStep ⟨true, false⟩) (UpdatesOne ⟨true, false⟩) chipTable
        [.add true 0 ⟨0xfee00000, 0, 1⟩ 0,
          .update 0 24 ⟨0xfee00000, 0, 2⟩] := by
  refine (routes_sound_iff ⟨true, false⟩ irqInit_chipTable _).mpr ?_
  refine ⟨Or.inr (Or.inr ⟨by decide +kernel, by decide +kernel⟩), ?_, ?_⟩
  · refine Or.inr ?_
    intro entry found
    have first :
        ((irqStep ⟨true, false⟩ chipTable
              (.add true 0 ⟨0xfee00000, 0, 1⟩ 0)).irqRouting.getD
            []).find? (fun entry => 24 = entry.gsi) =
          some ⟨24, .msi, 0, ⟨0xfee00000, 0, 1⟩, 0⟩ := by
      decide +kernel
    cases first.symm.trans found
    exact Or.inl rfl
  · trivial

/--
The host refuses the table with a new route in it; the route stays, and the
next one gets its GSI.
-/
theorem refused_route_keeps_gsi :
    irqInit (fun _ => true) 0 = some chipTable ∧
      ¬ (Throughout (irqStep ⟨true, false⟩) RoutesSound chipTable
            [.add true (-1) ⟨0xfee00000, 0, 1⟩ 0,
              .add true 0 ⟨0xfee00000, 0, 2⟩ 0] ∧
          Along (irqStep ⟨true, false⟩) (UpdatesOne ⟨true, false⟩)
            chipTable
            [.add true (-1) ⟨0xfee00000, 0, 1⟩ 0,
              .add true 0 ⟨0xfee00000, 0, 2⟩ 0]) := by
  refine ⟨irqInit_chipTable, ?_⟩
  rintro ⟨throughout, _⟩
  have broken :
      ¬ RoutesSound
        (run (irqStep ⟨true, false⟩) chipTable
          [.add true (-1) ⟨0xfee00000, 0, 1⟩ 0,
            .add true 0 ⟨0xfee00000, 0, 2⟩ 0]) := by
    decide +kernel
  exact broken throughout.2.2

end Kemu.Init.Irq
