import Kemu.Lib.Transition
import Kemu.Virtio.MsixFields

/-!
# Whether the routes carry the messages of their vectors

Every assignment of a vector gets a route of its own.  A write to the table
of messages updates one of them: that of the first user the vector has.  With
several users, or a write that reaches into the next entry of the table,
the others keep the message they had.
-/

namespace Kemu.Virtio.Msix

open Kemu.Init.Irq
open Kemu.Lib.Bytes
open Kemu.Lib.Transition
open Kemu.Virtio.Core
open Kemu.Virtio.Transport

/-! ## Owners of vectors -/

/-- A device and what one of its vectors is assigned to. -/
abbrev Owner (host : PciHost) := Fin host.count × VectorUser

section State

variable {host : PciHost} (state : MsixState host)

/-- The vector of an owner. -/
def MsixState.vectorAt (owner : Owner host) : UInt16 :=
  vectorOf (state.devices owner.1).device.virtio owner.2

/-- The GSI of an owner. -/
def MsixState.gsiAt (owner : Owner host) : UInt32 :=
  gsiOf (state.devices owner.1).device.virtio owner.2

/-- The message in the table for the vector of an owner. -/
def MsixState.messageFor (owner : Owner host) : MsiMsg :=
  messageAt (state.devices owner.1).msixTable (state.vectorAt owner).toNat

/-- An owner has a vector. -/
def MsixState.Assigned (owner : Owner host) : Prop :=
  state.vectorAt owner ≠ virtioMsiNoVector

/--
Every assigned vector is one of the table, and the one entry of its GSI
carries the message that the table has for it.
-/
def Coherent : Prop :=
  ∀ owner, state.Assigned owner →
    (state.vectorAt owner).toNat < virtioNrMsix ∧
      messagesOf state.irq (state.gsiAt owner) = [state.messageFor owner]

end State

section Run

variable {host : PciHost}

/--
The write changes no message but that of its own vector, which has one user
only, if any, and then it starts in the message.
-/
def TableFits (this : MsixDevice) (write : TableWrite) : Prop :=
  ∀ user, vectorOf this.device.virtio user ≠ virtioMsiNoVector →
    messageAt (write.apply this.msixTable)
        (vectorOf this.device.virtio user).toNat ≠
      messageAt this.msixTable (vectorOf this.device.virtio user).toNat →
    write.InMessage ∧
      firstUser this.device.virtio write.vecnum = some user

/-- A vector that a write to a register assigns is one of the table. -/
def RegisterFits (this : MsixDevice) (write : RegisterWrite) : Prop :=
  ∀ user vec, routeChange this.device write = .assign user vec →
    vec ≠ virtioMsiNoVector → vec.toNat < virtioNrMsix

/-- The event leaves every route with the message of its vector. -/
def EventFits (state : MsixState host) :
    Fin host.count × MsixEvent → Prop
  | (dev, .register write _) => RegisterFits (state.devices dev) write
  | (dev, .table write _) => TableFits (state.devices dev) write
  | (_, .control _) => True
  | (_, .signalVq _) => True
  | (_, .signalConfig) => True

/-- The process goes on after the event. -/
def GoesOn (state : MsixState host)
    (event : Fin host.count × MsixEvent) : Prop :=
  (msixStep state event).irq.dead = false

instance (state : MsixState host)
    (event : Fin host.count × MsixEvent) :
    Decidable (GoesOn state event) :=
  inferInstanceAs (Decidable (_ = _))

/-! ## The routes in a run -/

/-- Every entry has a GSI below the next one. -/
structure Numbered (irq : IrqState) : Prop where
  routed : Routed irq
  reserved : 24 ≤ irq.nextGsi
  below :
    ∀ entry ∈ irq.irqRouting.getD [], entry.gsi.toNat < irq.nextGsi

/-- A table has no room for more GSIs than `int` has numbers. -/
theorem Numbered.nextGsi_lt {irq : IrqState} (numbered : Numbered irq)
    {entries : List KvmIrqRoutingEntry}
    (routing : irq.irqRouting = some entries) :
    irq.nextGsi < 2 ^ 31 := by
  have table := numbered.routed.table entries routing
  have counted := table.counted
  have within := table.within
  have bounded := numbered.routed.bounded
  omega

/--
Every GSI that is stored was returned for its owner only, or was never
returned, and the entries of those in use carry their messages.
-/
structure Wired (state : MsixState host) : Prop where
  irq : Numbered state.irq
  selected :
    ∀ dev,
      (state.devices dev).device.virtio.queueSelector.toNat <
        (host.ops dev).vqCount
  unused :
    ∀ owner, ¬ owner.2.Of (host.ops owner.1) → ¬ state.Assigned owner
  issued :
    ∀ owner,
      (state.gsiAt owner).toNat < state.irq.nextGsi ∨
        2 ^ 31 ≤ (state.gsiAt owner).toNat
  real : ∀ owner, state.Assigned owner → state.gsiAt owner ≠ 0
  separate :
    ∀ owner other, state.Assigned owner → other ≠ owner →
      state.gsiAt other ≠ state.gsiAt owner
  coherent : Coherent state

section Wired

variable {state : MsixState host} (wired : Wired state)

include wired

/-- An entry for the GSI of an owner with a vector. -/
theorem Wired.gsi_lt {owner : Owner host}
    (assigned : state.Assigned owner) :
    (state.gsiAt owner).toNat < state.irq.nextGsi := by
  have one := (wired.coherent owner assigned).2
  rw [messagesOf, List.map_eq_singleton_iff] at one
  obtain ⟨entry, found, _⟩ := one
  have member :
      entry ∈ (state.irq.irqRouting.getD []).filter
        (·.gsi = state.gsiAt owner) := by
    rw [found]
    exact List.mem_singleton_self _
  obtain ⟨inside, same⟩ := List.mem_filter.mp member
  rw [← of_decide_eq_true same]
  exact wired.irq.below entry inside

/-- The next GSI fits in 31 bits while an owner has a vector. -/
theorem Wired.nextGsi_lt {owner : Owner host}
    (assigned : state.Assigned owner) : state.irq.nextGsi < 2 ^ 31 := by
  have one := (wired.coherent owner assigned).2
  cases routing : state.irq.irqRouting with
  | none =>
      rw [messagesOf, routing] at one
      cases one
  | some entries => exact wired.irq.nextGsi_lt routing

end Wired

/--
Some owners give their vectors up, and what the others have stays.  The
stored GSIs of the former are kept, cleared or replaced by an error code.
-/
structure Releases (state after : MsixState host)
    (released : Owner host → Prop) : Prop where
  irq : Numbered after.irq
  next : after.irq.nextGsi = state.irq.nextGsi
  selected :
    ∀ dev,
      (after.devices dev).device.virtio.queueSelector.toNat <
        (host.ops dev).vqCount
  gone :
    ∀ owner, released owner →
      ¬ after.Assigned owner ∧
        (after.gsiAt owner = 0 ∨ 2 ^ 31 ≤ (after.gsiAt owner).toNat ∨
          after.gsiAt owner = state.gsiAt owner)
  vector :
    ∀ owner, ¬ released owner →
      after.vectorAt owner = state.vectorAt owner
  gsi :
    ∀ owner, ¬ released owner → after.gsiAt owner = state.gsiAt owner
  message :
    ∀ owner, ¬ released owner →
      after.messageFor owner = state.messageFor owner
  route :
    ∀ owner, ¬ released owner → state.Assigned owner →
      messagesOf after.irq (state.gsiAt owner) =
        messagesOf state.irq (state.gsiAt owner)

theorem Wired.release {state after : MsixState host}
    (wired : Wired state) (released : Owner host → Prop)
    (releases : Releases state after released) : Wired after := by
  have kept :
      ∀ owner, after.Assigned owner →
        ¬ released owner ∧ state.Assigned owner := by
    intro owner assigned
    have stays : ¬ released owner :=
      fun gone => (releases.gone owner gone).1 assigned
    refine ⟨stays, ?_⟩
    rw [MsixState.Assigned, ← releases.vector owner stays]
    exact assigned
  refine ⟨releases.irq, releases.selected, ?_, ?_, ?_, ?_, ?_⟩
  · intro owner outside assigned
    exact wired.unused owner outside (kept owner assigned).2
  · intro owner
    rw [releases.next]
    by_cases gone : released owner
    · rcases (releases.gone owner gone).2 with zero | large | same
      · left
        rw [zero]
        have reserved := wired.irq.reserved
        exact Nat.lt_of_lt_of_le (by decide) reserved
      · exact Or.inr large
      · rw [same]
        exact wired.issued owner
    · rw [releases.gsi owner gone]
      exact wired.issued owner
  · intro owner assigned
    obtain ⟨stays, before⟩ := kept owner assigned
    rw [releases.gsi owner stays]
    exact wired.real owner before
  · intro owner other assigned different
    obtain ⟨stays, before⟩ := kept owner assigned
    rw [releases.gsi owner stays]
    by_cases gone : released other
    · rcases (releases.gone other gone).2 with zero | large | same
      · rw [zero]
        exact (wired.real owner before).symm
      · intro equal
        rw [equal] at large
        have small := wired.gsi_lt before
        have bound := wired.nextGsi_lt before
        omega
      · rw [same]
        exact wired.separate owner other before different
    · rw [releases.gsi other gone]
      exact wired.separate owner other before different
  · intro owner assigned
    obtain ⟨stays, before⟩ := kept owner assigned
    obtain ⟨inTable, one⟩ := wired.coherent owner before
    rw [releases.vector owner stays, releases.gsi owner stays,
      releases.message owner stays, releases.route owner stays before]
    exact ⟨inTable, one⟩

/-! ## What the routing table keeps -/

section Numbered

variable {irq : IrqState} (numbered : Numbered irq)

include numbered

theorem Numbered.update (updateRoute : Int) (gsi : UInt32)
    (msg : MsiMsg) :
    Numbered (irqUpdateMsixRoute updateRoute irq gsi msg) := by
  refine ⟨numbered.routed.update updateRoute gsi msg, ?_, ?_⟩
  · rw [irqUpdateMsixRoute_nextGsi]
    exact numbered.reserved
  · rw [irqUpdateMsixRoute_nextGsi]
    intro entry inside
    obtain ⟨old, member, kind⟩ := irqUpdateMsixRoute_origin inside
    have below := numbered.below old member
    injection kind with _ same
    rw [← same]
    exact below

theorem Numbered.del (answers : IrqAnswers) (gsi : UInt32) :
    Numbered (virtioPciDelMsixRoute answers irq gsi) := by
  unfold virtioPciDelMsixRoute
  split
  · exact numbered
  · exact numbered.update _ gsi _

theorem Numbered.delAll (answers : IrqAnswers) (gsis : List UInt32) :
    Numbered (gsis.foldl (virtioPciDelMsixRoute answers) irq) := by
  induction gsis generalizing irq with
  | nil => exact numbered
  | cons gsi rest induction => exact induction (numbered.del answers gsi)

/-- A new entry under the next GSI. -/
theorem Numbered.add {irqHost : IrqHost} {realloc : Bool}
    {updateRoute : Int} {msg : MsiMsg} {deviceId : UInt32}
    (added :
      RouteAdded irqHost irq msg deviceId
        (irqAddMsixRoute irqHost realloc updateRoute irq msg deviceId)) :
    Numbered
      (irqAddMsixRoute irqHost realloc updateRoute irq msg deviceId).2 := by
  obtain ⟨entries, routing, longer⟩ := added.entries
  have table := numbered.routed.table entries routing
  have counted := table.counted
  have within := table.within
  have bounded := numbered.routed.bounded
  have value : (UInt32.ofNat irq.nextGsi).toNat = irq.nextGsi := by
    rw [UInt32.toNat_ofNat']
    omega
  have fresh :
      ∀ entry ∈ irq.irqRouting.getD [], entry.gsi ≠ .ofNat irq.nextGsi := by
    intro entry inside same
    have below := numbered.below entry inside
    rw [same, value] at below
    exact Nat.lt_irrefl _ below
  have fits : AddFits irq realloc := ⟨added.countable, fun _ => fresh⟩
  have routed :=
    numbered.routed.add irqHost updateRoute msg deviceId (Or.inr fits)
  refine ⟨routed, ?_, ?_⟩
  · rw [added.next]
    exact Nat.le_succ_of_le numbered.reserved
  · rw [added.next, longer, Option.getD_some]
    intro entry inside
    rcases List.mem_append.mp inside with old | new
    · have below := numbered.below entry (by rw [routing]; exact old)
      exact Nat.lt_succ_of_lt below
    · rw [List.mem_singleton.mp new, msixEntry_gsi, value]
      exact Nat.lt_succ_self _

end Numbered

theorem delAll_nextGsi (answers : IrqAnswers) (gsis : List UInt32)
    (irq : IrqState) :
    (gsis.foldl (virtioPciDelMsixRoute answers) irq).nextGsi =
      irq.nextGsi := by
  induction gsis generalizing irq with
  | nil => rfl
  | cons gsi rest induction =>
      rw [List.foldl_cons, induction]
      unfold virtioPciDelMsixRoute
      split
      · rfl
      · exact irqUpdateMsixRoute_nextGsi _ _ _ _

/-- The entries of other GSIs stay. -/
theorem messagesOf_delAll (answers : IrqAnswers) {gsis : List UInt32}
    {other : UInt32} (outside : other ∉ gsis) (irq : IrqState) :
    messagesOf (gsis.foldl (virtioPciDelMsixRoute answers) irq) other =
      messagesOf irq other := by
  induction gsis generalizing irq with
  | nil => rfl
  | cons gsi rest induction =>
      rw [List.mem_cons, not_or] at outside
      rw [List.foldl_cons, induction outside.2]
      unfold virtioPciDelMsixRoute
      split
      · rfl
      · exact messagesOf_update_other outside.1 _ _

/-! ## Owners after a change -/

section Put

variable (state : MsixState host) (dev : Fin host.count)
  (this : MsixDevice)

theorem vectorAt_put_self (user : VectorUser) :
    (state.put dev this).vectorAt (dev, user) =
      vectorOf this.device.virtio user := by
  simp [MsixState.vectorAt, MsixState.put]

theorem gsiAt_put_self (user : VectorUser) :
    (state.put dev this).gsiAt (dev, user) =
      gsiOf this.device.virtio user := by
  simp [MsixState.gsiAt, MsixState.put]

theorem messageFor_put_self (user : VectorUser) :
    (state.put dev this).messageFor (dev, user) =
      messageAt this.msixTable
        (vectorOf this.device.virtio user).toNat := by
  rw [MsixState.messageFor, vectorAt_put_self]
  simp [MsixState.put]

variable {dev} {owner : Owner host} (elsewhere : owner.1 ≠ dev)

include elsewhere

theorem vectorAt_put_other :
    (state.put dev this).vectorAt owner = state.vectorAt owner := by
  simp [MsixState.vectorAt, MsixState.put, elsewhere]

theorem gsiAt_put_other :
    (state.put dev this).gsiAt owner = state.gsiAt owner := by
  simp [MsixState.gsiAt, MsixState.put, elsewhere]

theorem messageFor_put_other :
    (state.put dev this).messageFor owner = state.messageFor owner := by
  rw [MsixState.messageFor, vectorAt_put_other _ _ elsewhere]
  simp [MsixState.messageFor, MsixState.put, elsewhere]

end Put

/-- What the owners keep whose vector and GSI are not touched. -/
theorem put_untouched (state : MsixState host) (dev : Fin host.count)
    {this : MsixDevice} (users : VectorUser → Prop)
    (vectors :
      ∀ user, ¬ users user →
        vectorOf this.device.virtio user =
          vectorOf (state.devices dev).device.virtio user)
    (gsis :
      ∀ user, ¬ users user →
        gsiOf this.device.virtio user =
          gsiOf (state.devices dev).device.virtio user)
    (table : this.msixTable = (state.devices dev).msixTable)
    (owner : Owner host)
    (outside : ¬ (owner.1 = dev ∧ users owner.2)) :
    (state.put dev this).vectorAt owner = state.vectorAt owner ∧
      (state.put dev this).gsiAt owner = state.gsiAt owner ∧
        (state.put dev this).messageFor owner =
          state.messageFor owner := by
  by_cases same : owner.1 = dev
  · obtain ⟨other, user⟩ := owner
    subst same
    have untouched : ¬ users user := fun inside => outside ⟨rfl, inside⟩
    rw [vectorAt_put_self, gsiAt_put_self, messageFor_put_self,
      vectors user untouched, gsis user untouched, table]
    exact ⟨rfl, rfl, rfl⟩
  · exact
      ⟨vectorAt_put_other _ _ same, gsiAt_put_other _ _ same,
        messageFor_put_other _ _ same⟩

theorem put_selected (state : MsixState host) {dev : Fin host.count}
    {this : MsixDevice}
    (selected :
      ∀ dev,
        (state.devices dev).device.virtio.queueSelector.toNat <
          (host.ops dev).vqCount)
    (selector :
      this.device.virtio.queueSelector.toNat < (host.ops dev).vqCount)
    (other : Fin host.count) :
    ((state.put dev this).devices
        other).device.virtio.queueSelector.toNat <
      (host.ops other).vqCount := by
  by_cases same : other = dev
  · rw [same]
    simpa [MsixState.put] using selector
  · simpa [MsixState.put, same] using selected other

/-! ## Events that assign no vector -/

section Steps

variable {state : MsixState host} (wired : Wired state)
  {dev : Fin host.count}

include wired

/-- The routes of some users of a device are taken away. -/
theorem Wired.takeAway {this : MsixDevice} (answers : IrqAnswers)
    (released : List VectorUser)
    (vectors :
      ∀ user, vectorOf this.device.virtio user =
        if user ∈ released then virtioMsiNoVector
        else vectorOf (state.devices dev).device.virtio user)
    (gsis :
      ∀ user, gsiOf this.device.virtio user =
        if user ∈ released then 0
        else gsiOf (state.devices dev).device.virtio user)
    (table : this.msixTable = (state.devices dev).msixTable)
    (selector :
      this.device.virtio.queueSelector.toNat < (host.ops dev).vqCount) :
    Wired
      (MsixState.put
        { state with
          irq :=
            (released.map
              (gsiOf (state.devices dev).device.virtio)).foldl
                (virtioPciDelMsixRoute answers) state.irq }
        dev this) := by
  have kept :=
    fun owner =>
      put_untouched
        { state with
          irq :=
            (released.map
              (gsiOf (state.devices dev).device.virtio)).foldl
                (virtioPciDelMsixRoute answers) state.irq }
        dev (fun user => user ∈ released)
        (fun user outside => (vectors user).trans (if_neg outside))
        (fun user outside => (gsis user).trans (if_neg outside)) table
        owner
  refine
    wired.release (fun owner => owner.1 = dev ∧ owner.2 ∈ released)
      ⟨wired.irq.delAll answers _, delAll_nextGsi answers _ _,
        put_selected _ wired.selected selector, ?_,
        fun owner stays => (kept owner stays).1,
        fun owner stays => (kept owner stays).2.1,
        fun owner stays => (kept owner stays).2.2, ?_⟩
  · rintro ⟨other, user⟩ ⟨same, inside⟩
    subst same
    rw [MsixState.Assigned, vectorAt_put_self, gsiAt_put_self, vectors,
      gsis, if_pos inside, if_pos inside]
    exact ⟨fun assigned => assigned rfl, Or.inl rfl⟩
  · intro owner stays assigned
    refine messagesOf_delAll answers ?_ _
    intro inside
    obtain ⟨user, member, same⟩ := List.mem_map.mp inside
    have different : (dev, user) ≠ owner := by
      rintro rfl
      exact stays ⟨rfl, member⟩
    exact wired.separate owner (dev, user) assigned different same

/-- Nothing changes that concerns vectors and routes. -/
theorem Wired.put_same {this : MsixDevice}
    (vectors :
      vectorOf this.device.virtio =
        vectorOf (state.devices dev).device.virtio)
    (gsis :
      gsiOf this.device.virtio =
        gsiOf (state.devices dev).device.virtio)
    (table : this.msixTable = (state.devices dev).msixTable)
    (selector :
      this.device.virtio.queueSelector.toNat < (host.ops dev).vqCount) :
    Wired (state.put dev this) :=
  wired.takeAway ⟨true, true, fun _ => true⟩ []
    (fun user => congrFun vectors user) (fun user => congrFun gsis user)
    table selector

/-- A user gives its vector up. -/
theorem Wired.unassign {this : MsixDevice} (user : VectorUser)
    (vectors :
      vectorOf this.device.virtio =
        Function.update (vectorOf (state.devices dev).device.virtio) user
          virtioMsiNoVector)
    (gsis :
      gsiOf this.device.virtio =
          gsiOf (state.devices dev).device.virtio ∨
        gsiOf this.device.virtio =
          Function.update (gsiOf (state.devices dev).device.virtio) user
            (.ofInt (-22)))
    (table : this.msixTable = (state.devices dev).msixTable)
    (selector :
      this.device.virtio.queueSelector.toNat < (host.ops dev).vqCount) :
    Wired (state.put dev this) := by
  have stored :
      ∀ other, other ≠ user →
        gsiOf this.device.virtio other =
          gsiOf (state.devices dev).device.virtio other := by
    intro other different
    rcases gsis with same | updated
    · rw [same]
    · rw [updated, Function.update_of_ne different]
  have kept :=
    fun owner =>
      put_untouched state dev (fun other => other = user)
        (fun other different => by
          rw [vectors, Function.update_of_ne different])
        stored table owner
  refine
    wired.release (fun owner => owner.1 = dev ∧ owner.2 = user)
      ⟨wired.irq, rfl, put_selected _ wired.selected selector, ?_,
        fun owner stays => (kept owner stays).1,
        fun owner stays => (kept owner stays).2.1,
        fun owner stays => (kept owner stays).2.2, fun _ _ _ => rfl⟩
  rintro ⟨other, another⟩ ⟨rfl, rfl⟩
  rw [MsixState.Assigned, vectorAt_put_self, gsiAt_put_self, vectors,
    Function.update_self]
  refine ⟨fun assigned => assigned rfl, Or.inr ?_⟩
  rcases gsis with same | updated
  · right
    rw [same]
    rfl
  · left
    rw [updated, Function.update_self]
    decide

end Steps

/-! ## An assignment -/

section Assign

variable {state : MsixState host} (wired : Wired state)
  {dev : Fin host.count}

include wired

section NextGsi

variable {msg : MsiMsg} {deviceId : UInt32} {result : Int × IrqState}
  (added : RouteAdded host.irq state.irq msg deviceId result)

include added

theorem Wired.nextGsi_small : state.irq.nextGsi < 2 ^ 31 := by
  obtain ⟨_, routing, _⟩ := added.entries
  exact wired.irq.nextGsi_lt routing

theorem Wired.nextGsi_toNat :
    (UInt32.ofNat state.irq.nextGsi).toNat = state.irq.nextGsi := by
  have small := wired.nextGsi_small added
  rw [UInt32.toNat_ofNat']
  omega

/-- Nobody has the GSI that comes next. -/
theorem Wired.nextGsi_unissued (owner : Fin host.count × VectorUser) :
    state.gsiAt owner ≠ .ofNat state.irq.nextGsi := by
  intro same
  have issued := wired.issued owner
  have small := wired.nextGsi_small added
  rw [same, wired.nextGsi_toNat added] at issued
  omega

/-- No route is at the GSI that comes next. -/
theorem Wired.nextGsi_unrouted :
    ∀ entry ∈ state.irq.irqRouting.getD [],
      entry.gsi ≠ .ofNat state.irq.nextGsi := by
  intro entry member same
  have below := wired.irq.below entry member
  rw [same, wired.nextGsi_toNat added] at below
  exact Nat.lt_irrefl _ below

end NextGsi

/-- A user gets a vector of the table and a route of its own. -/
theorem Wired.assign {this : MsixDevice} {user : VectorUser}
    {vec : UInt16} {realloc : Bool} {updateRoute : Int}
    {deviceId : UInt32} (inside : user.Of (host.ops dev))
    (inTable : vec.toNat < virtioNrMsix)
    (added :
      RouteAdded host.irq state.irq
        (messageAt (state.devices dev).msixTable vec.toNat) deviceId
        (irqAddMsixRoute host.irq realloc updateRoute state.irq
          (messageAt (state.devices dev).msixTable vec.toNat) deviceId))
    (vectors :
      vectorOf this.device.virtio =
        Function.update (vectorOf (state.devices dev).device.virtio) user
          vec)
    (gsis :
      gsiOf this.device.virtio =
        Function.update (gsiOf (state.devices dev).device.virtio) user
          (.ofNat state.irq.nextGsi))
    (table : this.msixTable = (state.devices dev).msixTable)
    (selector :
      this.device.virtio.queueSelector.toNat < (host.ops dev).vqCount) :
    Wired
      (MsixState.put
        { state with
          irq :=
            (irqAddMsixRoute host.irq realloc updateRoute state.irq
              (messageAt (state.devices dev).msixTable vec.toNat)
              deviceId).2 }
        dev this) := by
  have value := wired.nextGsi_toNat added
  have reserved := wired.irq.reserved
  have unissued := wired.nextGsi_unissued added
  have unrouted := wired.nextGsi_unrouted added
  generalize irqIs :
    irqAddMsixRoute host.irq realloc updateRoute state.irq
      (messageAt (state.devices dev).msixTable vec.toNat) deviceId = result
      at added ⊢
  have numbered : Numbered result.2 := by
    rw [← irqIs] at added ⊢
    exact wired.irq.add added
  have kept :
      ∀ owner, owner ≠ (dev, user) →
        (MsixState.put { state with irq := result.2 } dev this).vectorAt
            owner = state.vectorAt owner ∧
          (MsixState.put { state with irq := result.2 } dev this).gsiAt
              owner = state.gsiAt owner ∧
            (MsixState.put { state with irq := result.2 } dev
                this).messageFor owner = state.messageFor owner := by
    intro owner different
    refine
      put_untouched { state with irq := result.2 } dev
        (fun other => other = user) ?_ ?_ table owner ?_
    · intro other apart
      rw [vectors, Function.update_of_ne apart]
    · intro other apart
      rw [gsis, Function.update_of_ne apart]
    · rintro ⟨rfl, rfl⟩
      exact different rfl
  have newVector :
      (MsixState.put { state with irq := result.2 } dev this).vectorAt
        (dev, user) = vec := by
    rw [vectorAt_put_self, vectors, Function.update_self]
  have newGsi :
      (MsixState.put { state with irq := result.2 } dev this).gsiAt
        (dev, user) = .ofNat state.irq.nextGsi := by
    rw [gsiAt_put_self, gsis, Function.update_self]
  have newMessage :
      (MsixState.put { state with irq := result.2 } dev this).messageFor
        (dev, user) =
          messageAt (state.devices dev).msixTable vec.toNat := by
    rw [messageFor_put_self, vectors, table, Function.update_self]
  have before :
      ∀ owner, owner ≠ (dev, user) →
        (MsixState.put { state with irq := result.2 } dev this).Assigned
          owner → state.Assigned owner := by
    intro owner different assigned
    rw [MsixState.Assigned, ← (kept owner different).1]
    exact assigned
  refine ⟨numbered, ?_, ?_, ?_, ?_, ?_, ?_⟩
  · exact put_selected _ wired.selected selector
  · intro owner outside assigned
    by_cases new : owner = (dev, user)
    · rw [new] at outside
      exact outside inside
    · exact wired.unused owner outside (before owner new assigned)
  · intro owner
    rw [MsixState.put, added.next]
    by_cases new : owner = (dev, user)
    · left
      rw [new, ← MsixState.put, newGsi, value]
      exact Nat.lt_succ_self _
    · rw [← MsixState.put, (kept owner new).2.1]
      have issued := wired.issued owner
      omega
  · intro owner assigned
    by_cases new : owner = (dev, user)
    · rw [new, newGsi]
      intro zero
      rw [zero] at value
      have impossible : (0 : UInt32).toNat = 0 := rfl
      omega
    · rw [(kept owner new).2.1]
      exact wired.real owner (before owner new assigned)
  · intro owner other assigned different
    by_cases new : owner = (dev, user)
    · rw [new, newGsi,
        (kept other (by rw [← new]; exact different)).2.1]
      exact unissued other
    · rw [(kept owner new).2.1]
      by_cases newer : other = (dev, user)
      · rw [newer, newGsi]
        exact (unissued owner).symm
      · rw [(kept other newer).2.1]
        exact
          wired.separate owner other (before owner new assigned) different
  · intro owner assigned
    by_cases new : owner = (dev, user)
    · rw [new, newVector, newGsi, newMessage]
      exact ⟨inTable, added.messagesOf_self unrouted⟩
    · obtain ⟨small, one⟩ :=
        wired.coherent owner (before owner new assigned)
      obtain ⟨vector, gsi, message⟩ := kept owner new
      rw [vector, gsi, message]
      refine ⟨small, ?_⟩
      rw [← one]
      exact added.messagesOf_other (unissued owner)

end Assign

/-! ## Register writes -/

theorem ofInt_natCast {value : Nat} (small : value < 2 ^ 32) :
    UInt32.ofInt value = .ofNat value := by
  rw [UInt32.ofInt, Int.emod_eq_of_lt (by omega) (by omega),
    Int.toNat_natCast]

section Register

variable {state : MsixState host} (wired : Wired state)
  {dev : Fin host.count}

include wired

/-- What the host does for a vector, when the process goes on. -/
theorem Wired.routeAdded (has : host.irq.hasIrqRouting = true)
    {vec : UInt16} (real : vec ≠ virtioMsiNoVector)
    {answers : IrqAnswers}
    (alive :
      (virtioPciAddRoute state.irq dev (state.devices dev) vec
        answers).2.dead = false) :
    RouteAdded host.irq state.irq
        (messageAt (state.devices dev).msixTable vec.toNat)
        (host.devNum dev <<< 3)
        (irqAddMsixRoute host.irq answers.realloc
          (ioctlResult answers.added) state.irq
          (messageAt (state.devices dev).msixTable vec.toNat)
          (host.devNum dev <<< 3)) ∧
      virtioPciAddRoute state.irq dev (state.devices dev) vec answers =
        irqAddMsixRoute host.irq answers.realloc
          (ioctlResult answers.added) state.irq
          (messageAt (state.devices dev).msixTable vec.toNat)
          (host.devNum dev <<< 3) := by
  have answer : ioctlResult answers.added ≤ 0 := by
    cases answers.added <;> decide
  have noEnxio : ioctlResult answers.added ≠ -eNxio := by
    cases answers.added <;> decide
  have other :=
    @irqAddMsixRoute_ne_eNxio host.irq state.irq answers.realloc _
      (messageAt (state.devices dev).msixTable vec.toNat)
      (host.devNum dev <<< 3) has noEnxio
  unfold virtioPciAddRoute at alive ⊢
  rw [if_neg real] at alive ⊢
  dsimp only at alive ⊢
  rw [if_neg (fun both => other both.1)] at alive ⊢
  by_cases failed :
      (irqAddMsixRoute host.irq answers.realloc
        (ioctlResult answers.added) state.irq
        (messageAt (state.devices dev).msixTable vec.toNat)
        (host.devNum dev <<< 3)).1 < 0
  · rw [if_pos failed] at alive
    cases alive
  · rw [if_neg failed] at alive ⊢
    refine ⟨?_, rfl⟩
    exact
      wired.irq.routed.routeAdded host.irq answer _ _ has alive
        (Int.not_lt.mp failed)

/-- A write to a register, when the process goes on. -/
theorem Wired.registerWrite (has : host.irq.hasIrqRouting = true)
    {write : RegisterWrite} {answers : IrqAnswers}
    (alive : (registerWrite state dev write answers).irq.dead = false)
    (fits : RegisterFits (state.devices dev) write) :
    Wired (registerWrite state dev write answers) := by
  have selector :
      ∀ route : Option UInt32,
        (registerCallback (host.ops dev) (state.devices dev).device
            { write with route := route }).virtio.queueSelector.toNat <
          (host.ops dev).vqCount :=
    fun route => registerCallback_selector (wired.selected dev)
  have changed :=
    registerCallback_changed_of_route (host.ops dev)
      (state.devices dev).device write
  unfold Msix.registerWrite at alive ⊢
  dsimp only at alive ⊢
  cases change : routeChange (state.devices dev).device write with
  | keep =>
      rw [change] at changed
      exact
        wired.put_same (changed none).vectors (changed none).gsis rfl
          (selector none)
  | assign user vec =>
      rw [change] at changed alive
      dsimp only at alive ⊢
      obtain ⟨inside, rfl⟩ := user_of_assign (wired.selected dev) change
      by_cases none : write.read16 = virtioMsiNoVector
      · have result :
            virtioPciAddRoute state.irq dev (state.devices dev)
              write.read16 answers = (-22, state.irq) :=
          if_pos none
        have refused :
            virtioPciAddMsixRoute { write with route := Option.none }
              write.read16 = -22 :=
          if_pos none
        have fields := changed Option.none
        rw [refused] at fields
        rw [result]
        refine wired.unassign user ?_ ?_ rfl (selector _)
        · rw [← none]
          exact fields.vectors
        · have gsis := fields.gsis
          rw [gsisAfter] at gsis
          split_ifs at gsis
          · exact Or.inl gsis
          · exact Or.inr gsis
      · obtain ⟨added, same⟩ := wired.routeAdded has none alive
        have nonneg : ¬ (state.irq.nextGsi : Int) < 0 := by omega
        have few := wired.nextGsi_small added
        have word := ofInt_natCast (Nat.lt_trans few (by decide))
        have value :
            (UInt32.ofInt state.irq.nextGsi).toNat = state.irq.nextGsi := by
          rw [word, wired.nextGsi_toNat added]
        have route :
            virtioPciAddMsixRoute
                { write with
                  route := some (.ofInt state.irq.nextGsi) }
                write.read16 =
              state.irq.nextGsi := by
          rw [virtioPciAddMsixRoute, if_neg none]
          dsimp only
          rw [value]
        have fields := changed (some (.ofInt state.irq.nextGsi))
        rw [route] at fields
        rw [same, added.gsi, if_neg nonneg]
        refine
          wired.assign inside (fits user _ change none) added
            fields.vectors ?_ rfl (selector _)
        rw [fields.gsis, gsisAfter, if_neg (fun both => nonneg both.2),
          word]
  | exit vq =>
      rw [change] at changed
      refine
        wired.takeAway answers [.queue vq] ?_ ?_ rfl (selector _)
      · intro user
        rw [(changed none).vectors, vectorsAfter, Function.update_apply]
        simp only [List.mem_singleton]
      · intro user
        rw [(changed none).gsis, gsisAfter, Function.update_apply]
        simp only [List.mem_singleton]
  | reset =>
      rw [change] at changed
      have users :
          ∀ user : VectorUser,
            user ∈
                VectorUser.config ::
                  (List.range (host.ops dev).vqCount).map
                    VectorUser.queue ↔
              user.Of (host.ops dev) := by
        intro user
        cases user with
        | config => simp [VectorUser.Of]
        | queue vq => simp [VectorUser.Of]
      have released :=
        @Wired.takeAway _ _ wired dev
          { state.devices dev with
            device :=
              registerCallback (host.ops dev) (state.devices dev).device
                { write with route := none } }
          answers
          (.config :: (List.range (host.ops dev).vqCount).map .queue)
          (fun user => by
            simp only [users]
            exact congrFun (changed none).vectors user)
          (fun user => by
            simp only [users]
            exact congrFun (changed none).gsis user) rfl (selector _)
      rw [List.map_cons, List.map_map] at released
      exact released

end Register

/-! ## Writes to the table of messages -/

section TableWrites

variable {state : MsixState host} (wired : Wired state)
  {dev : Fin host.count}

/-- The first user of a vector has it. -/
theorem vectorOf_firstUser {vpci : VirtioPci} {vecnum : Nat}
    {user : VectorUser} (found : firstUser vpci vecnum = some user) :
    (vectorOf vpci user).toNat = vecnum := by
  unfold firstUser at found
  split at found
  next config =>
    cases found
    exact config.symm
  next =>
    obtain ⟨vq, first, rfl⟩ := Option.map_eq_some_iff.mp found
    exact of_decide_eq_true (List.find?_some first :)

/-- The user whose route a write to the table updates. -/
def updatedUser (this : MsixDevice) (write : TableWrite) :
    Option VectorUser :=
  if write.InMessage then
    firstUser this.device.virtio write.vecnum
  else
    none

theorem updatedUser_eq_some {this : MsixDevice} {write : TableWrite}
    {user : VectorUser} :
    updatedUser this write = some user ↔
      write.InMessage ∧
        firstUser this.device.virtio write.vecnum = some user := by
  unfold updatedUser
  split
  next inMessage => exact (and_iff_right inMessage).symm
  next outside =>
    exact iff_of_false (fun impossible => nomatch impossible)
      (fun both => outside both.1)

theorem TableWrite.vecnum_le (write : TableWrite) :
    write.vecnum ≤ virtioNrMsix := by
  have inside := write.inside
  have size : virtioMsixTableSize = 528 := rfl
  have count : virtioNrMsix = 33 := rfl
  rw [TableWrite.vecnum]
  omega

/-- The updated user has a vector. -/
theorem assigned_of_updatedUser {this : MsixDevice} {write : TableWrite}
    {user : VectorUser} (found : updatedUser this write = some user) :
    (vectorOf this.device.virtio user).toNat = write.vecnum ∧
      vectorOf this.device.virtio user ≠ virtioMsiNoVector := by
  have vector := vectorOf_firstUser (updatedUser_eq_some.mp found).2
  refine ⟨vector, ?_⟩
  intro none
  rw [none] at vector
  have small := write.vecnum_le
  rw [← vector] at small
  exact absurd small (by decide)

section Written

variable (state : MsixState host) (dev : Fin host.count)
  (write : TableWrite) (answers : IrqAnswers)

/-- The routing table after a write to the table of messages. -/
theorem tableWrite_irq :
    (tableWrite state dev write answers).irq =
      match updatedUser (state.devices dev) write with
      | none => state.irq
      | some user =>
          if state.gsiAt (dev, user) = 0 then
            state.irq
          else
            irqUpdateMsixRoute
              (ioctlResult (answers.updated (state.gsiAt (dev, user))))
              state.irq (state.gsiAt (dev, user))
              (messageAt (write.apply (state.devices dev).msixTable)
                write.vecnum) := by
  unfold tableWrite updatedUser
  dsimp only [MsixState.put]
  by_cases inMessage : write.InMessage
  · rw [if_pos inMessage, if_pos inMessage]
    rfl
  · rw [if_neg inMessage, if_neg inMessage]

theorem tableWrite_vectorAt (owner : Owner host) :
    (tableWrite state dev write answers).vectorAt owner =
      state.vectorAt owner := by
  by_cases same : owner.1 = dev
  · obtain ⟨other, user⟩ := owner
    subst same
    exact vectorAt_put_self _ _ _ user
  · exact vectorAt_put_other _ _ same

theorem tableWrite_gsiAt (owner : Owner host) :
    (tableWrite state dev write answers).gsiAt owner =
      state.gsiAt owner := by
  by_cases same : owner.1 = dev
  · obtain ⟨other, user⟩ := owner
    subst same
    exact gsiAt_put_self _ _ _ user
  · exact gsiAt_put_other _ _ same

theorem tableWrite_messageFor (user : VectorUser) :
    (tableWrite state dev write answers).messageFor (dev, user) =
      messageAt (write.apply (state.devices dev).msixTable)
        (state.vectorAt (dev, user)).toNat :=
  messageFor_put_self _ _ _ user

end Written

include wired

/-- The routes of the other owners stay. -/
theorem Wired.tableWrite_route {write : TableWrite}
    {answers : IrqAnswers} {owner : Owner host}
    (assigned : state.Assigned owner)
    (other :
      ¬ (owner.1 = dev ∧
        updatedUser (state.devices dev) write = some owner.2)) :
    messagesOf (Msix.tableWrite state dev write answers).irq
        (state.gsiAt owner) =
      messagesOf state.irq (state.gsiAt owner) := by
  rw [tableWrite_irq]
  cases found : updatedUser (state.devices dev) write with
  | none => rfl
  | some user =>
      dsimp only
      split_ifs
      · rfl
      · refine messagesOf_update_other ?_ _ _
        refine (wired.separate owner (dev, user) assigned ?_).symm
        rintro rfl
        exact other ⟨rfl, found⟩

/-- The route of the updated user gets the message. -/
theorem Wired.tableWrite_updated {write : TableWrite}
    {answers : IrqAnswers} {user : VectorUser}
    (found : updatedUser (state.devices dev) write = some user) :
    messagesOf (Msix.tableWrite state dev write answers).irq
        (state.gsiAt (dev, user)) =
      [messageAt (write.apply (state.devices dev).msixTable)
        write.vecnum] := by
  have assigned : state.Assigned (dev, user) :=
    (assigned_of_updatedUser found).2
  rw [tableWrite_irq, found]
  dsimp only
  rw [if_neg (wired.real _ assigned)]
  exact messagesOf_update_self (wired.coherent _ assigned).2 _ _

theorem Wired.tableWrite_numbered (dev : Fin host.count)
    (write : TableWrite) (answers : IrqAnswers) :
    Numbered (Msix.tableWrite state dev write answers).irq ∧
      (Msix.tableWrite state dev write answers).irq.nextGsi =
        state.irq.nextGsi := by
  rw [tableWrite_irq]
  split
  · exact ⟨wired.irq, rfl⟩
  · split
    · exact ⟨wired.irq, rfl⟩
    · exact ⟨wired.irq.update _ _ _, irqUpdateMsixRoute_nextGsi _ _ _ _⟩

/-- A write that fits. -/
theorem Wired.tableWrite {write : TableWrite} {answers : IrqAnswers}
    (fits : TableFits (state.devices dev) write) :
    Wired (Msix.tableWrite state dev write answers) := by
  obtain ⟨numbered, next⟩ :=
    wired.tableWrite_numbered dev write answers
  have assignedBefore :
      ∀ owner,
        (Msix.tableWrite state dev write answers).Assigned owner →
          state.Assigned owner := by
    intro owner assigned
    rw [MsixState.Assigned, tableWrite_vectorAt] at assigned
    exact assigned
  refine ⟨numbered, put_selected _ wired.selected (wired.selected dev), ?_,
    ?_, ?_, ?_, ?_⟩
  · intro owner outside assigned
    exact wired.unused owner outside (assignedBefore owner assigned)
  · intro owner
    rw [tableWrite_gsiAt, next]
    exact wired.issued owner
  · intro owner assigned
    rw [tableWrite_gsiAt]
    exact wired.real owner (assignedBefore owner assigned)
  · intro owner other assigned different
    rw [tableWrite_gsiAt, tableWrite_gsiAt]
    exact
      wired.separate owner other (assignedBefore owner assigned) different
  · intro owner assigned
    have before := assignedBefore owner assigned
    obtain ⟨inTable, one⟩ := wired.coherent owner before
    rw [tableWrite_vectorAt, tableWrite_gsiAt]
    refine ⟨inTable, ?_⟩
    by_cases updated :
        owner.1 = dev ∧
          updatedUser (state.devices dev) write = some owner.2
    · obtain ⟨other, user⟩ := owner
      obtain ⟨rfl, found⟩ := updated
      have vector : (state.vectorAt (other, user)).toNat = write.vecnum :=
        (assigned_of_updatedUser found).1
      rw [wired.tableWrite_updated found, tableWrite_messageFor, vector]
    · rw [wired.tableWrite_route before updated, one]
      refine congrArg (fun message => [message]) ?_
      by_cases same : owner.1 = dev
      · obtain ⟨other, user⟩ := owner
        subst same
        rw [tableWrite_messageFor]
        by_contra changed
        have fit := fits user before (Ne.symm changed)
        exact updated ⟨rfl, updatedUser_eq_some.mpr fit⟩
      · exact (messageFor_put_other _ _ same).symm

/-- A message changes that is not passed on. -/
theorem Wired.tableWrite_broken {write : TableWrite}
    {answers : IrqAnswers}
    (unfit : ¬ TableFits (state.devices dev) write) :
    ¬ Coherent (Msix.tableWrite state dev write answers) := by
  intro coherent
  refine unfit ?_
  intro user assigned changed
  rw [← updatedUser_eq_some]
  by_contra other
  have before : state.Assigned (dev, user) := assigned
  have after :
      (Msix.tableWrite state dev write answers).Assigned (dev, user) := by
    rw [MsixState.Assigned, tableWrite_vectorAt]
    exact before
  have one := (coherent (dev, user) after).2
  rw [tableWrite_gsiAt,
    wired.tableWrite_route before (fun both => other both.2),
    (wired.coherent (dev, user) before).2, tableWrite_messageFor] at one
  exact changed (List.singleton_inj.mp one).symm

end TableWrites

/-! ## Runs -/

section Runs

/-- No vector is assigned at the start. -/
theorem wired_start {start : MsixState host} (fresh : MsixStart start) :
    Wired start := by
  obtain ⟨realloc, ioctl, init⟩ := fresh.irq
  obtain ⟨added, next, _⟩ := irqInit_spec init
  have unassigned : ∀ owner, ¬ start.Assigned owner := by
    rintro ⟨dev, user⟩ assigned
    obtain ⟨legacy, beyond, device⟩ := fresh.devices dev
    refine assigned ?_
    rw [MsixState.vectorAt, device]
    cases user <;> rfl
  have zero : ∀ owner, start.gsiAt owner = 0 := by
    rintro ⟨dev, user⟩
    obtain ⟨legacy, beyond, device⟩ := fresh.devices dev
    rw [MsixState.gsiAt, device]
    cases user <;> rfl
  refine ⟨⟨routed_irqInit init, ?_, ?_⟩, ?_, ?_, ?_, ?_, ?_, ?_⟩
  · exact Nat.le_of_eq next.symm
  · intro entry inside
    rw [next]
    exact (added.pins entry inside).2
  · intro dev
    obtain ⟨legacy, beyond, device⟩ := fresh.devices dev
    rw [device]
    exact (host.ops dev).vqCount_pos
  · intro owner _
    exact unassigned owner
  · intro owner
    left
    rw [zero, next]
    decide
  · intro owner assigned
    exact absurd assigned (unassigned owner)
  · intro owner other assigned
    exact absurd assigned (unassigned owner)
  · intro owner assigned
    exact absurd assigned (unassigned owner)

variable {state : MsixState host}

/-- A signal touches pending bits only. -/
theorem Wired.signal (wired : Wired state) (dev : Fin host.count)
    (user : VectorUser) (isrBit : UInt8) :
    Wired
      (state.put dev
        (virtioPciSignal host.signalMsi (state.devices dev) user
          isrBit).2) := by
  refine wired.put_same ?_ ?_ ?_ ?_
  · unfold virtioPciSignal
    dsimp only
    split_ifs <;> rfl
  · unfold virtioPciSignal
    dsimp only
    split_ifs <;> rfl
  · unfold virtioPciSignal
    dsimp only
    split_ifs <;> rfl
  · have selected := wired.selected dev
    unfold virtioPciSignal
    dsimp only
    split_ifs <;> exact selected

theorem msixStep_alive {event : Fin host.count × MsixEvent}
    (goesOn : GoesOn state event) : state.irq.dead = false := by
  unfold GoesOn msixStep at goesOn
  obtain ⟨dev, event⟩ := event
  dsimp only at goesOn
  split at goesOn
  next dead => rw [dead] at goesOn; cases goesOn
  next alive => simpa using alive

/-- An event that fits keeps the routes. -/
theorem Wired.step (has : host.irq.hasIrqRouting = true)
    (wired : Wired state) (event : Fin host.count × MsixEvent)
    (goesOn : GoesOn state event) (fits : EventFits state event) :
    Wired (msixStep state event) := by
  have alive := msixStep_alive goesOn
  obtain ⟨dev, event⟩ := event
  unfold GoesOn msixStep at goesOn
  unfold msixStep
  dsimp only at goesOn ⊢
  rw [alive, if_neg Bool.noConfusion] at goesOn ⊢
  cases event with
  | register write answers =>
      exact wired.registerWrite has goesOn fits
  | table write answers => exact wired.tableWrite fits
  | control ctrl =>
      refine wired.put_same ?_ ?_ rfl (wired.selected dev)
      · funext user
        cases user <;> rfl
      · funext user
        cases user <;> rfl
  | signalVq vq => exact wired.signal dev (.queue vq) 1
  | signalConfig => exact wired.signal dev .config 2

/-- A vector outside the table. -/
theorem registerWrite_broken {dev : Fin host.count}
    {write : RegisterWrite} {answers : IrqAnswers}
    (unfit : ¬ RegisterFits (state.devices dev) write) :
    ¬ Coherent (registerWrite state dev write answers) := by
  intro coherent
  refine unfit ?_
  intro user vec change real
  have changed :=
    registerCallback_changed_of_route (host.ops dev)
      (state.devices dev).device write
  rw [change] at changed
  have vector :
      (registerWrite state dev write answers).vectorAt (dev, user) =
        vec := by
    unfold registerWrite
    dsimp only
    rw [change]
    dsimp only
    rw [vectorAt_put_self]
    dsimp only
    rw [(changed _).vectors, vectorsAfter, Function.update_self]
  have assigned :
      (registerWrite state dev write answers).Assigned (dev, user) := by
    rw [MsixState.Assigned, vector]
    exact real
  have inTable := (coherent (dev, user) assigned).1
  rw [vector] at inTable
  exact inTable

/-- An event that does not fit. -/
theorem Wired.step_broken (wired : Wired state)
    (event : Fin host.count × MsixEvent) (goesOn : GoesOn state event)
    (unfit : ¬ EventFits state event) :
    ¬ Coherent (msixStep state event) := by
  have alive := msixStep_alive goesOn
  obtain ⟨dev, event⟩ := event
  unfold msixStep
  dsimp only
  rw [alive, if_neg Bool.noConfusion]
  cases event with
  | register write answers => exact registerWrite_broken unfit
  | table write answers => exact wired.tableWrite_broken unfit
  | control ctrl => exact absurd trivial unfit
  | signalVq vq => exact absurd trivial unfit
  | signalConfig => exact absurd trivial unfit

/--
On a host with interrupt routing, every route carries the message of its
vector throughout a run, exactly when every event of the run fits.
-/
theorem routes_coherent_iff (has : host.irq.hasIrqRouting = true)
    {start : MsixState host} (fresh : MsixStart start)
    {events : List (Fin host.count × MsixEvent)}
    (alive : Along msixStep GoesOn start events) :
    Throughout msixStep Coherent start events ↔
      Along msixStep EventFits start events := by
  have kept :
      ∀ (state : MsixState host) event, Wired state →
        GoesOn state event → EventFits state event →
          Wired (msixStep state event) :=
    fun state event wired goesOn fits =>
      wired.step has event goesOn fits
  have broken :
      ∀ (state : MsixState host) event, Wired state →
        GoesOn state event → ¬ EventFits state event →
          ¬ Coherent (msixStep state event) :=
    fun state event wired goesOn unfit =>
      wired.step_broken event goesOn unfit
  exact
    throughout_iff_along_of_granted (fun state wired => wired.coherent)
      kept broken (wired_start fresh) alive

end Runs

end Run

/-! ## A device with one queue -/

/-- A host with interrupt routing and one device. -/
def oneDevice : PciHost where
  irq := ⟨true, false⟩
  signalMsi := false
  count := 1
  ops := fun _ =>
    ⟨1, 16, fun _ => 0, Nat.one_pos, Nat.succ_le_succ (Nat.zero_le 31)⟩
  devNum := fun _ => 1

/-- The device as it is registered. -/
def oneDeviceStart : MsixState oneDevice where
  irq := chipTable
  devices := fun _ => msixDeviceInit false fun _ => 0

theorem oneDeviceStart_fresh : MsixStart oneDeviceStart where
  irq := ⟨_, _, irqInit_chipTable⟩
  devices := fun _ => ⟨false, _, rfl⟩

/-- Every call succeeds. -/
def granted : IrqAnswers := ⟨true, true, fun _ => true⟩

/-- The device. -/
def onlyDevice : Fin oneDevice.count := ⟨0, Nat.one_pos⟩

/-- A write of two bytes to a register. -/
def writeRegister (offset : Nat) (data : UInt32) :
    Fin oneDevice.count × MsixEvent :=
  (onlyDevice, .register ⟨offset, data, 2, 1, true, none⟩ granted)

/-- A write of an address to the first entry of the table. -/
def writeAddress : Fin oneDevice.count × MsixEvent :=
  (onlyDevice, .table ⟨0, [0x00, 0x00, 0xe0, 0xfe], by decide⟩ granted)

/-- The configuration gets the first vector, whose message is written. -/
def configEvents : List (Fin oneDevice.count × MsixEvent) :=
  [writeRegister virtioPciCommonMsix 0, writeAddress]

/-- The queue gets it too before the message is written. -/
def sharedEvents : List (Fin oneDevice.count × MsixEvent) :=
  [writeRegister virtioPciCommonMsix 0,
    writeRegister virtioPciCommonQMsix 0, writeAddress]

/-- A vector with one user. -/
theorem routes_coherent_on_config :
    Throughout msixStep Coherent oneDeviceStart configEvents := by
  have alive : Along msixStep GoesOn oneDeviceStart configEvents :=
    ⟨by decide +kernel, by decide +kernel, trivial⟩
  refine (routes_coherent_iff rfl oneDeviceStart_fresh alive).mpr ?_
  refine ⟨?_, ?_, trivial⟩
  · intro user vec change _
    cases change
    decide
  · intro user assigned _
    cases user with
    | config => decide +kernel
    | queue vq => exact absurd rfl assigned

/-- The queue shares the vector of the configuration, and is left behind. -/
theorem shared_vector_left_behind :
    MsixStart oneDeviceStart ∧
      Along msixStep GoesOn oneDeviceStart sharedEvents ∧
        ¬ Throughout msixStep Coherent oneDeviceStart sharedEvents := by
  refine
    ⟨oneDeviceStart_fresh,
      ⟨by decide +kernel, by decide +kernel, by decide +kernel, trivial⟩,
      ?_⟩
  intro throughout
  have last : Coherent (run msixStep oneDeviceStart sharedEvents) :=
    throughout.2.2.2
  have assigned :
      (run msixStep oneDeviceStart sharedEvents).vectorAt
          (onlyDevice, .queue 0) ≠
        virtioMsiNoVector := by
    decide +kernel
  have stale :
      messagesOf (run msixStep oneDeviceStart sharedEvents).irq
          ((run msixStep oneDeviceStart sharedEvents).gsiAt
            (onlyDevice, .queue 0)) ≠
        [(run msixStep oneDeviceStart sharedEvents).messageFor
          (onlyDevice, .queue 0)] := by
    decide +kernel
  exact stale (last (onlyDevice, .queue 0) assigned).2

end Kemu.Virtio.Msix
