import Kemu.Virtio.MsixRoutes

/-!
# How many routes there are

A route is added for every vector that is assigned, and none is removed: a
vector that is given up leaves its entry in the table, with a message of
zeros.  The entries for messages are as many as the assignments of the run.
-/

namespace Kemu.Virtio.Msix

open Kemu.Init.Irq
open Kemu.Lib.Transition
open Kemu.Virtio.Core
open Kemu.Virtio.Transport

/-! ## Routes and slots -/

/-- The entries for messages. -/
def msiEntries (irq : IrqState) : Nat :=
  (irq.irqRouting.getD []).countP (·.type = .msi)

/-- The queues and configurations of the devices. -/
def vectorSlots (host : PciHost) : Nat :=
  ((List.finRange host.count).map fun dev =>
    (host.ops dev).vqCount + 1).sum

section Host

variable {host : PciHost}

/-- There are as many routes as slots at most, and the process goes on. -/
structure RoutesBounded (state : MsixState host) : Prop where
  few : msiEntries state.irq ≤ vectorSlots host
  alive : state.irq.dead = false

/-- The event assigns a vector. -/
def assignsVector (state : MsixState host) :
    Fin host.count × MsixEvent → Bool
  | (dev, .register write _) =>
      match routeChange (state.devices dev).device write with
      | .assign _ vec => vec != virtioMsiNoVector
      | _ => false
  | _ => false

/-- The assignments of a run. -/
def assignments (state : MsixState host) :
    List (Fin host.count × MsixEvent) → Nat
  | [] => 0
  | event :: rest =>
      (if assignsVector state event then 1 else 0) +
        assignments (msixStep state event) rest

/--
There is memory, and the host accepts every table with at most `limit`
entries.
-/
def HostAccepts (limit : Nat) (state : MsixState host) :
    Fin host.count × MsixEvent → Prop
  | (_, .register _ answers) =>
      answers.realloc = true ∧
        (answers.added = true ↔ nrEntries state.irq + 1 ≤ limit) ∧
          ∀ gsi, answers.updated gsi = true
  | (_, .table _ answers) => ∀ gsi, answers.updated gsi = true
  | _ => True

/-! ## Counting entries -/

/-- A table with the chips' entries and so many for messages. -/
structure Counts (irq : IrqState) (count : Nat) : Prop where
  alive : irq.dead = false
  table :
    ∃ entries, irq.irqRouting = some entries ∧
      entries.length = 38 + count ∧
        entries.countP (·.type = .msi) = count

theorem Counts.msiEntries {irq : IrqState} {count : Nat}
    (counts : Counts irq count) : msiEntries irq = count := by
  obtain ⟨entries, routing, _, messages⟩ := counts.table
  rw [Msix.msiEntries, routing]
  exact messages

theorem countP_kind (entries : List KvmIrqRoutingEntry) :
    entries.countP (·.type = .msi) =
      (entries.map KvmIrqRoutingEntry.kind).countP (·.1 = .msi) := by
  rw [List.countP_map]
  rfl

/-- An update adds nothing and removes nothing. -/
theorem Counts.update {irq : IrqState} {count : Nat}
    (counts : Counts irq count) (gsi : UInt32) (msg : MsiMsg) :
    Counts (irqUpdateMsixRoute 0 irq gsi msg) count := by
  obtain ⟨entries, routing, length, messages⟩ := counts.table
  have kinds := map_kind_storeMsg gsi msg entries
  constructor
  · rw [irqUpdateMsixRoute, routing]
    dsimp only
    split
    · exact counts.alive
    · split
      · exact counts.alive
      · rfl
  · rw [irqUpdateMsixRoute_eq routing]
    refine ⟨_, rfl, ?_, ?_⟩
    · rw [← length, ← @List.length_map _ _ entries
        KvmIrqRoutingEntry.kind, ← kinds, List.length_map]
    · rw [countP_kind, kinds, ← countP_kind, messages]

theorem Counts.del {irq : IrqState} {count : Nat}
    (counts : Counts irq count) {answers : IrqAnswers}
    (accepts : ∀ gsi, answers.updated gsi = true) (gsi : UInt32) :
    Counts (virtioPciDelMsixRoute answers irq gsi) count := by
  unfold virtioPciDelMsixRoute
  rw [counts.alive, if_neg Bool.noConfusion, accepts]
  exact counts.update gsi _

theorem Counts.delAll {irq : IrqState} {count : Nat}
    (counts : Counts irq count) {answers : IrqAnswers}
    (accepts : ∀ gsi, answers.updated gsi = true) (gsis : List UInt32) :
    Counts (gsis.foldl (virtioPciDelMsixRoute answers) irq) count := by
  induction gsis generalizing irq with
  | nil => exact counts
  | cons gsi rest induction => exact induction (counts.del accepts gsi)

/-- A new route is one entry more, and the host may refuse the table. -/
theorem Counts.add {irq : IrqState} {count : Nat}
    (counts : Counts irq count) {irqHost : IrqHost}
    (has : irqHost.hasIrqRouting = true) (few : 38 + count + 32 < 2 ^ 31)
    (added : Bool) (msg : MsiMsg) (deviceId : UInt32) :
    ∃ entry gsi,
      entry.type = .msi ∧ (added = true → 0 ≤ gsi) ∧
        (added = false → gsi = -1) ∧
          ∃ after,
            irqAddMsixRoute irqHost true (ioctlResult added) irq msg
                deviceId = (gsi, after) ∧
              after.dead = false ∧
                after.irqRouting =
                  some (irq.irqRouting.getD [] ++ [entry]) := by
  obtain ⟨entries, routing, length, _⟩ := counts.table
  have nr : nrEntries irq = 38 + count := by
    rw [nrEntries, routing]
    exact length
  have countable :
      irq.allocatedGsis ≤ nrEntries irq → nrEntries irq + 32 < 2 ^ 31 := by
    intro _
    omega
  have room :
      ∃ after, irqAllocateRoutingEntry true irq = (0, after) ∧
        after.irqRouting = some entries ∧ after.dead = false := by
    rcases irqAllocateRoutingEntry_cases true irq countable with
      ⟨_, equal⟩ | ⟨_, _, equal⟩ | ⟨_, impossible, _⟩
    · exact ⟨irq, equal, routing, counts.alive⟩
    · rw [routing] at equal
      exact ⟨_, equal, rfl, counts.alive⟩
    · cases impossible
  obtain ⟨after, found, table, alive⟩ := room
  have result :=
    irqAddMsixRoute_of_room irqHost (ioctlResult added) msg deviceId has
      found
  rw [appendEntry_some table] at result
  refine
    ⟨_, _, msixEntry_type irqHost after msg deviceId, ?_, ?_, _, result,
      alive, ?_⟩
  · rintro rfl
    exact Int.natCast_nonneg _
  · rintro rfl
    rfl
  · rw [routing]
    rfl

theorem Counts.append {irq after : IrqState} {count : Nat}
    (counts : Counts irq count) {entry : KvmIrqRoutingEntry}
    (message : entry.type = .msi)
    (longer :
      after.irqRouting = some (irq.irqRouting.getD [] ++ [entry])) :
    Msix.msiEntries after = count + 1 ∧
      (after.dead = false → Counts after (count + 1)) := by
  obtain ⟨entries, routing, length, messages⟩ := counts.table
  rw [routing, Option.getD_some] at longer
  have one : [entry].countP (·.type = .msi) = 1 := by
    rw [List.countP_singleton, if_pos (decide_eq_true message)]
  have total :
      (entries ++ [entry]).countP (·.type = .msi) = count + 1 := by
    rw [List.countP_append, messages, one]
  refine ⟨?_, fun alive => ⟨alive, _, longer, ?_, total⟩⟩
  · rw [Msix.msiEntries, longer]
    exact total
  · rw [List.length_append, length]
    rfl

/-! ## One event -/

section Step

variable {state : MsixState host} {count limit : Nat}
  (counts : Counts state.irq count) (has : host.irq.hasIrqRouting = true)
  (few : 38 + count + 32 < 2 ^ 31)

include counts has few

/-- An assignment. -/
theorem Counts.assign {dev : Fin host.count} {write : RegisterWrite}
    {answers : IrqAnswers}
    (accepts : HostAccepts limit state (dev, .register write answers))
    {user : VectorUser} {vec : UInt16}
    (change : routeChange (state.devices dev).device write =
      .assign user vec)
    (real : vec ≠ virtioMsiNoVector) :
    Msix.msiEntries (registerWrite state dev write answers).irq =
        count + 1 ∧
      (38 + count + 1 ≤ limit →
        Counts (registerWrite state dev write answers).irq (count + 1)) := by
  obtain ⟨realloc, granted, _⟩ := accepts
  obtain ⟨entries, routing, length, _⟩ := counts.table
  obtain ⟨entry, gsi, message, valid, refused, after, result, alive,
      longer⟩ :=
    counts.add has few answers.added
      (messageAt (state.devices dev).msixTable vec.toNat)
      (host.devNum dev <<< 3)
  have nr : nrEntries state.irq = 38 + count := by
    rw [nrEntries, routing]
    exact length
  have noEnxio : ¬ (gsi = -eNxio ∧ host.signalMsi = true) := by
    rintro ⟨equal, _⟩
    cases added : answers.added with
    | true =>
        have nonneg := valid added
        rw [equal] at nonneg
        exact absurd nonneg (by decide)
    | false =>
        rw [refused added] at equal
        exact absurd equal (by decide)
  have irqIs :
      (registerWrite state dev write answers).irq =
        if gsi < 0 then { after with dead := true } else after := by
    unfold registerWrite
    dsimp only
    rw [change]
    dsimp only [MsixState.put]
    unfold virtioPciAddRoute
    rw [if_neg real, realloc, result]
    dsimp only
    rw [if_neg noEnxio]
    split_ifs <;> rfl
  rw [irqIs]
  by_cases negative : gsi < 0
  · rw [if_pos negative]
    refine ⟨(counts.append message longer).1, ?_⟩
    intro room
    have added : answers.added = true := granted.mpr (by omega)
    have nonneg := valid added
    omega
  · rw [if_neg negative]
    obtain ⟨total, next⟩ := counts.append message longer
    exact ⟨total, fun _ => next alive⟩

omit has few in
/-- A write that assigns no vector. -/
theorem Counts.registerWrite {dev : Fin host.count}
    {write : RegisterWrite} {answers : IrqAnswers}
    (accepts : HostAccepts limit state (dev, .register write answers))
    (none :
      assignsVector state (dev, .register write answers) = false) :
    Counts (registerWrite state dev write answers).irq count := by
  obtain ⟨_, _, updated⟩ := accepts
  unfold assignsVector at none
  unfold Msix.registerWrite
  dsimp only at none ⊢
  cases change : routeChange (state.devices dev).device write with
  | keep => exact counts
  | assign user vec =>
      rw [change] at none
      have noVector : vec = virtioMsiNoVector := by simpa using none
      dsimp only [MsixState.put]
      unfold virtioPciAddRoute
      rw [if_pos noVector]
      exact counts
  | exit vq => exact counts.del updated _
  | reset => exact counts.delAll updated _

omit has few in
theorem Counts.tableWrite {dev : Fin host.count} {write : TableWrite}
    {answers : IrqAnswers}
    (accepts : HostAccepts limit state (dev, .table write answers)) :
    Counts (tableWrite state dev write answers).irq count := by
  rw [tableWrite_irq]
  split
  · exact counts
  · split
    · exact counts
    · rw [accepts]
      exact counts.update _ _

omit has few in
/-- An event that assigns no vector. -/
theorem Counts.other {event : Fin host.count × MsixEvent}
    (accepts : HostAccepts limit state event)
    (none : assignsVector state event = false) :
    Counts (msixStep state event).irq count := by
  obtain ⟨dev, event⟩ := event
  unfold msixStep
  dsimp only
  rw [counts.alive, if_neg Bool.noConfusion]
  cases event with
  | register write answers => exact counts.registerWrite accepts none
  | table write answers => exact counts.tableWrite accepts
  | control ctrl => exact counts
  | signalVq vq => exact counts
  | signalConfig => exact counts

/-- An event that assigns a vector. -/
theorem Counts.assigns {event : Fin host.count × MsixEvent}
    (accepts : HostAccepts limit state event)
    (assigns : assignsVector state event = true) :
    Msix.msiEntries (msixStep state event).irq = count + 1 ∧
      (38 + count + 1 ≤ limit →
        Counts (msixStep state event).irq (count + 1)) := by
  obtain ⟨dev, event⟩ := event
  unfold assignsVector at assigns
  unfold msixStep
  dsimp only at assigns ⊢
  rw [counts.alive, if_neg Bool.noConfusion]
  cases event with
  | register write answers =>
      dsimp only at assigns ⊢
      cases change : routeChange (state.devices dev).device write with
      | assign user vec =>
          rw [change] at assigns
          have real : vec ≠ virtioMsiNoVector := by simpa using assigns
          exact counts.assign has few accepts change real
      | keep =>
          rw [change] at assigns
          cases assigns
      | exit vq =>
          rw [change] at assigns
          cases assigns
      | reset =>
          rw [change] at assigns
          cases assigns
  | table write answers => cases assigns
  | control ctrl => cases assigns
  | signalVq vq => cases assigns
  | signalConfig => cases assigns

end Step

/-! ## Runs -/

/-- The bound from a state on that is within it. -/
theorem Counts.bounded_iff {state : MsixState host} {count limit : Nat}
    (counts : Counts state.irq count)
    (has : host.irq.hasIrqRouting = true)
    (enough : 38 + vectorSlots host ≤ limit)
    (countable : 38 + vectorSlots host + 32 < 2 ^ 31)
    (within : count ≤ vectorSlots host)
    {events : List (Fin host.count × MsixEvent)}
    (accepts : Along msixStep (HostAccepts limit) state events) :
    Throughout msixStep RoutesBounded state events ↔
      count + assignments state events ≤ vectorSlots host := by
  have bounded : RoutesBounded state :=
    ⟨by rw [counts.msiEntries]; exact within, counts.alive⟩
  induction events generalizing state count with
  | nil => exact iff_of_true bounded within
  | cons event rest induction =>
      rw [Throughout, and_iff_right bounded, assignments]
      cases assigns : assignsVector state event with
      | false =>
          have next := counts.other accepts.1 assigns
          rw [if_neg Bool.noConfusion, Nat.zero_add]
          exact
            induction next within accepts.2
              ⟨by rw [next.msiEntries]; exact within, next.alive⟩
      | true =>
          obtain ⟨total, next⟩ :=
            counts.assigns has (by omega) accepts.1 assigns
          rw [if_pos rfl, ← Nat.add_assoc]
          by_cases room : count + 1 ≤ vectorSlots host
          · have after := next (by omega)
            exact
              induction after room accepts.2
                ⟨by rw [after.msiEntries]; exact room, after.alive⟩
          · refine iff_of_false ?_ (by omega)
            intro throughout
            have few : RoutesBounded (msixStep state event) := by
              cases rest with
              | nil => exact throughout
              | cons _ _ => exact throughout.1
            have small := few.few
            rw [total] at small
            exact room small

/--
On a host with interrupt routing that accepts a table with a route for every
slot, there are as many routes as slots at most, and the process goes on,
exactly in the runs with no more assignments of vectors than slots.
-/
theorem routes_bounded_iff (has : host.irq.hasIrqRouting = true)
    {limit : Nat} (enough : 38 + vectorSlots host ≤ limit)
    (countable : 38 + vectorSlots host + 32 < 2 ^ 31)
    {start : MsixState host} (fresh : MsixStart start)
    {events : List (Fin host.count × MsixEvent)}
    (accepts : Along msixStep (HostAccepts limit) start events) :
    Throughout msixStep RoutesBounded start events ↔
      assignments start events ≤ vectorSlots host := by
  have counts : Counts start.irq 0 := by
    obtain ⟨realloc, ioctl, init⟩ := fresh.irq
    obtain ⟨added, _, alive⟩ := irqInit_spec init
    refine ⟨alive, ?_⟩
    cases routing : start.irq.irqRouting with
    | none =>
        have recent := added.recent alive routing (by decide)
        have aligned := added.aligned
        omega
    | some entries =>
        have pins := added.pins
        rw [routing] at pins
        refine ⟨entries, rfl, added.counted entries routing, ?_⟩
        rw [List.countP_eq_zero]
        intro entry inside message
        have pin := (pins entry inside).1
        rw [of_decide_eq_true message] at pin
        cases pin
  have bounded :=
    counts.bounded_iff has enough countable (Nat.zero_le _) accepts
  rw [Nat.zero_add] at bounded
  exact bounded

end Host

/-! ## A device with one queue -/

/-- A vector for the configuration and one for the queue. -/
def bothAssigned : List (Fin oneDevice.count × MsixEvent) :=
  [writeRegister virtioPciCommonMsix 0,
    writeRegister virtioPciCommonQMsix 1]

/-- The configuration gets a vector once more; the table is full. -/
def reassigned : List (Fin oneDevice.count × MsixEvent) :=
  bothAssigned ++
    [(onlyDevice,
      .register ⟨virtioPciCommonMsix, 0, 2, 1, true, none⟩
        ⟨true, false, fun _ => true⟩)]

theorem hostAccepts_bothAssigned :
    Along msixStep (HostAccepts 40) oneDeviceStart bothAssigned :=
  ⟨⟨rfl, by decide +kernel, fun _ => rfl⟩,
    ⟨rfl, by decide +kernel, fun _ => rfl⟩, trivial⟩

/-- One assignment for each slot. -/
theorem routes_bounded_on_both :
    Throughout msixStep RoutesBounded oneDeviceStart bothAssigned :=
  (routes_bounded_iff rfl (by decide : 38 + vectorSlots oneDevice ≤ 40)
    (by decide) oneDeviceStart_fresh hostAccepts_bothAssigned).mpr
      (by decide +kernel)

/-- Two slots, three assignments, and the process ends. -/
theorem reassigning_ends_process :
    MsixStart oneDeviceStart ∧ 38 + vectorSlots oneDevice ≤ 40 ∧
      Along msixStep (HostAccepts 40) oneDeviceStart reassigned ∧
        (run msixStep oneDeviceStart reassigned).irq.dead = true ∧
          ¬ Throughout msixStep RoutesBounded oneDeviceStart
            reassigned := by
  have ended :
      (run msixStep oneDeviceStart reassigned).irq.dead = true := by
    decide +kernel
  refine ⟨oneDeviceStart_fresh, by decide, ?_, ended, ?_⟩
  · refine
      (along_append _ _ _ _ _).mpr ⟨hostAccepts_bothAssigned, ?_, trivial⟩
    exact ⟨rfl, by decide +kernel, fun _ => rfl⟩
  · intro throughout
    have alive :
        (run msixStep oneDeviceStart reassigned).irq.dead = false :=
      throughout.2.2.2.alive
    rw [ended] at alive
    cases alive

end Kemu.Virtio.Msix
