import Kemu.Virtio.Msix

/-!
# Writes to the vector registers

The legacy and the modern layout have a register each for the vector of the
configuration and that of the selected queue, and each has its own code for
them.  The two differ in the type of the variable that takes the result of
`virtio_pci__add_msix_route`, which is an error code where a vector gets no
route.
-/

namespace Kemu.Virtio.VectorWrites

open Kemu.Virtio.Core
open Kemu.Virtio.Transport
open Kemu.Virtio.Msix

/-! ## The code -/

/-- The two registers for vectors. -/
inductive VectorRegister where
  | config
  | queue
deriving DecidableEq, Repr

/--
What a write depends on outside the device: the result of
`irq__add_msix_route`, whether messages are sent without a route, and whether
the device has `notify_vq_gsi`.
-/
structure RouteHost where
  added : Int32
  signalMsi : Bool
  notifyVqGsi : Bool
deriving Repr

/-- `-EINVAL`. -/
def minusEInval : Int32 := -22

/-- `-ENXIO`. -/
def minusENxio : Int32 := -6

/-- The entries of `msix_table` that are used, and what follows, if anything. -/
structure Outcome (Result : Type) where
  indexed : List Nat
  result : Option Result

/-- `virtio_pci__add_msix_route`; nothing follows `die`. -/
def virtioPciAddMsixRoute (host : RouteHost) (vec : UInt32) :
    Outcome Int32 :=
  if vec = virtioMsiNoVector.toUInt32 then
    ⟨[], some minusEInval⟩
  else
    let gsi := host.added
    { indexed := [vec.toNat]
      result :=
        if gsi = minusENxio ∧ host.signalMsi then
          some gsi
        else if gsi < 0 then
          none
        else
          some gsi }

/-- The device after a write, and the call of `notify_vq_gsi`. -/
structure Written where
  vpci : VirtioPci
  notified : Option (UInt16 × UInt32)

def Outcome.andThen {First Second : Type} (outcome : Outcome First)
    (next : First → Second) : Outcome Second :=
  ⟨outcome.indexed, outcome.result.map next⟩

/-- The vector registers of `virtio_pci__specific_data_out`. -/
def specificDataOut (host : RouteHost) (vpci : VirtioPci)
    (register : VectorRegister) (data : UInt16) : Outcome Written :=
  let vec := data.toUInt32
  match register with
  | .config =>
      let vpci := { vpci with configVector := data }
      (virtioPciAddMsixRoute host vec).andThen fun gsi =>
        if gsi < 0 then
          ⟨vpci, none⟩
        else
          ⟨{ vpci with configGsi := gsi.toUInt32 }, none⟩
  | .queue =>
      let sel := vpci.queueSelector
      let vpci :=
        { vpci with
          vqVector :=
            Function.update vpci.vqVector sel.toNat vec.toUInt16 }
      (virtioPciAddMsixRoute host vec).andThen fun gsi =>
        if gsi < 0 then
          ⟨vpci, none⟩
        else
          { vpci :=
              { vpci with
                gsis :=
                  Function.update vpci.gsis sel.toNat gsi.toUInt32 }
            notified :=
              if host.notifyVqGsi then some (sel, gsi.toUInt32) else none }

/-- The vector registers of `virtio_pci__common_write`; `gsi` is unsigned. -/
def commonWrite (host : RouteHost) (vpci : VirtioPci)
    (register : VectorRegister) (data : UInt16) : Outcome Written :=
  let vec := data.toUInt32
  match register with
  | .config =>
      let vpci := { vpci with configVector := data }
      (virtioPciAddMsixRoute host vec).andThen fun added =>
        let gsi := added.toUInt32
        if gsi < 0 then
          ⟨vpci, none⟩
        else
          ⟨{ vpci with configGsi := gsi }, none⟩
  | .queue =>
      let sel := vpci.queueSelector
      let vpci :=
        { vpci with
          vqVector := Function.update vpci.vqVector sel.toNat data }
      (virtioPciAddMsixRoute host vec).andThen fun added =>
        let gsi := added.toUInt32
        if gsi < 0 then
          ⟨vpci, none⟩
        else
          { vpci :=
              { vpci with
                gsis := Function.update vpci.gsis sel.toNat gsi }
            notified :=
              if host.notifyVqGsi then some (sel, gsi) else none }

/-! ## When the two agree -/

/-- The GSI of the route behind a register. -/
def heldGsi (vpci : VirtioPci) : VectorRegister → UInt32
  | .config => vpci.configGsi
  | .queue => vpci.gsis vpci.queueSelector.toNat

/-- No route is created for a vector, and the process goes on. -/
def Unrouted (host : RouteHost) (data : UInt16) : Prop :=
  data = virtioMsiNoVector ∨ host.added = minusENxio ∧ host.signalMsi = true

/-- The error code where there is no route. -/
def routeError (data : UInt16) : Int32 :=
  if data = virtioMsiNoVector then minusEInval else minusENxio

/-- A vector of the table, or none. -/
def InTable (data : UInt16) : Prop :=
  data = virtioMsiNoVector ∨ data.toNat < virtioNrMsix

section Writes

variable (host : RouteHost) (vpci : VirtioPci) (register : VectorRegister)
  (data : UInt16)

/-- What both layouts should do with a vector. -/
structure Agree : Prop where
  same :
    (specificDataOut host vpci register data).result =
      (commonWrite host vpci register data).result
  kept :
    data = virtioMsiNoVector ∨ host.added < 0 →
      ∀ written,
        (specificDataOut host vpci register data).result = some written ∨
            (commonWrite host vpci register data).result = some written →
          written.vpci.configGsi = vpci.configGsi ∧
            written.vpci.gsis = vpci.gsis
  indexed :
    ∀ index,
      index ∈ (specificDataOut host vpci register data).indexed ∨
          index ∈ (commonWrite host vpci register data).indexed →
        index < virtioNrMsix

/-! ### The result of `virtio_pci__add_msix_route` -/

section Added

variable {host} {data}

theorem added_indexed :
    (virtioPciAddMsixRoute host data.toUInt32).indexed =
      if data = virtioMsiNoVector then [] else [data.toNat] := by
  unfold virtioPciAddMsixRoute
  simp only [UInt16.toUInt32_inj]
  split
  · rfl
  · rfl

theorem added_unrouted (unrouted : Unrouted host data) :
    (virtioPciAddMsixRoute host data.toUInt32).result =
      some (routeError data) := by
  unfold virtioPciAddMsixRoute routeError
  simp only [UInt16.toUInt32_inj]
  split
  · rfl
  · rename_i vector
    obtain ⟨refused, injects⟩ := unrouted.resolve_left vector
    dsimp only
    rw [if_pos ⟨refused, injects⟩, refused]

theorem added_ended (routed : ¬ Unrouted host data)
    (refused : host.added < 0) :
    (virtioPciAddMsixRoute host data.toUInt32).result = none := by
  obtain ⟨vector, serious⟩ := not_or.mp routed
  unfold virtioPciAddMsixRoute
  simp only [UInt16.toUInt32_inj]
  rw [if_neg vector]
  dsimp only
  rw [if_neg serious, if_pos refused]

theorem added_routed (routed : ¬ Unrouted host data)
    (created : ¬ host.added < 0) :
    (virtioPciAddMsixRoute host data.toUInt32).result =
      some host.added := by
  obtain ⟨vector, serious⟩ := not_or.mp routed
  unfold virtioPciAddMsixRoute
  simp only [UInt16.toUInt32_inj]
  rw [if_neg vector]
  dsimp only
  rw [if_neg serious, if_neg created]

/-- `Transport` has the same answer, as an integer. -/
theorem added_transport {gsi : Int32}
    (answer : (virtioPciAddMsixRoute host data.toUInt32).result = some gsi)
    {write : RegisterWrite}
    (route :
      write.route =
        if host.added < 0 then none else some host.added.toUInt32) :
    gsi.toInt = Transport.virtioPciAddMsixRoute write data := by
  rw [Transport.virtioPciAddMsixRoute, route]
  by_cases unrouted : Unrouted host data
  · rw [added_unrouted unrouted] at answer
    cases answer
    unfold routeError
    split
    · rfl
    · obtain ⟨refused, -⟩ := unrouted.resolve_left ‹_›
      rw [refused]
      rfl
  · by_cases refused : host.added < 0
    · rw [added_ended unrouted refused] at answer
      cases answer
    · rw [added_routed unrouted refused] at answer
      cases answer
      rw [if_neg (not_or.mp unrouted).1, if_neg refused]
      have positive : 0 ≤ host.added := Int32.not_lt.mp refused
      dsimp only
      rw [Int32.toNat_toUInt32_of_le positive,
        Int32.cast_toNatClampNeg _ positive]

theorem routeError_neg : routeError data < 0 := by
  unfold routeError
  split
  · decide
  · decide

end Added

/-! ### The writes -/

theorem writes_indexed :
    (specificDataOut host vpci register data).indexed =
        (virtioPciAddMsixRoute host data.toUInt32).indexed ∧
      (commonWrite host vpci register data).indexed =
        (virtioPciAddMsixRoute host data.toUInt32).indexed := by
  cases register with
  | config => exact ⟨rfl, rfl⟩
  | queue => exact ⟨rfl, rfl⟩

/-- The device with a new vector, and the old GSIs. -/
def assigned (vpci : VirtioPci) : VectorRegister → UInt16 → VirtioPci
  | .config, data => { vpci with configVector := data }
  | .queue, data =>
      { vpci with
        vqVector :=
          Function.update vpci.vqVector vpci.queueSelector.toNat data }

/-- A device with a new GSI, and the call that reports it. -/
def routed (host : RouteHost) (vpci : VirtioPci) :
    VectorRegister → UInt32 → Written
  | .config, gsi => ⟨{ vpci with configGsi := gsi }, none⟩
  | .queue, gsi =>
      { vpci :=
          { vpci with
            gsis :=
              Function.update vpci.gsis vpci.queueSelector.toNat gsi }
        notified :=
          if host.notifyVqGsi then some (vpci.queueSelector, gsi)
          else none }

/-- The legacy layout stores the GSIs of routes. -/
theorem specificDataOut_result :
    (specificDataOut host vpci register data).result =
      (virtioPciAddMsixRoute host data.toUInt32).result.map fun gsi =>
        if gsi < 0 then ⟨assigned vpci register data, none⟩
        else routed host (assigned vpci register data) register
          gsi.toUInt32 := by
  cases register with
  | config => rfl
  | queue =>
      unfold specificDataOut
      dsimp only
      rw [UInt16.toUInt16_toUInt32]
      rfl

/-- The modern layout stores whatever is returned. -/
theorem commonWrite_result :
    (commonWrite host vpci register data).result =
      (virtioPciAddMsixRoute host data.toUInt32).result.map fun gsi =>
        routed host (assigned vpci register data) register
          gsi.toUInt32 := by
  have unsigned (gsi : UInt32) : ¬ gsi < 0 := UInt32.not_lt_zero
  cases register with
  | config =>
      unfold commonWrite Outcome.andThen
      simp only [if_neg (unsigned _)]
      rfl
  | queue =>
      unfold commonWrite Outcome.andThen
      simp only [if_neg (unsigned _)]
      rfl

/-- Storing an error code changes nothing where it is stored already. -/
theorem routed_eq_iff (gsi : UInt32) :
    (⟨assigned vpci register data, none⟩ : Written) =
        routed host (assigned vpci register data) register gsi ↔
      heldGsi vpci register = gsi ∧
        (register = .queue → host.notifyVqGsi = false) := by
  cases register with
  | config =>
      constructor
      · intro same
        refine ⟨?_, nofun⟩
        exact congrArg (fun written => written.vpci.configGsi) same
      · rintro ⟨rfl, _⟩
        rfl
  | queue =>
      constructor
      · intro same
        have stored :=
          congrArg
            (fun written => written.vpci.gsis vpci.queueSelector.toNat) same
        have silent := congrArg Written.notified same
        dsimp only [routed] at stored silent
        refine ⟨stored.trans (Function.update_self _ _ _), ?_⟩
        intro _
        by_contra calls
        rw [if_pos (Bool.of_not_eq_false calls)] at silent
        cases silent
      · rintro ⟨rfl, silent⟩
        rw [routed, if_neg (by rw [silent rfl]; exact Bool.false_ne_true)]
        dsimp only [assigned, heldGsi]
        rw [Function.update_eq_self]

/-- What both layouts do where the vector gets no route. -/
theorem agree_unrouted_iff (unrouted : Unrouted host data) :
    (specificDataOut host vpci register data).result =
        (commonWrite host vpci register data).result ↔
      heldGsi vpci register = (routeError data).toUInt32 ∧
        (register = .queue → host.notifyVqGsi = false) := by
  rw [specificDataOut_result, commonWrite_result, added_unrouted unrouted,
    Option.map_some, Option.map_some, if_pos routeError_neg,
    Option.some.injEq, routed_eq_iff]

/-- Where it gets a route, or the process ends, they do the same. -/
theorem agree_of_routed (known : ¬ Unrouted host data) :
    (specificDataOut host vpci register data).result =
      (commonWrite host vpci register data).result := by
  rw [specificDataOut_result, commonWrite_result]
  by_cases refused : host.added < 0
  · rw [added_ended known refused]
    rfl
  · rw [added_routed known refused, Option.map_some, Option.map_some,
      if_neg refused]

/-- The legacy layout keeps the GSIs where there is no route. -/
theorem specificDataOut_kept
    (without : data = virtioMsiNoVector ∨ host.added < 0)
    {written : Written}
    (ended :
      (specificDataOut host vpci register data).result = some written) :
    written.vpci.configGsi = vpci.configGsi ∧
      written.vpci.gsis = vpci.gsis := by
  rw [specificDataOut_result] at ended
  by_cases unrouted : Unrouted host data
  · rw [added_unrouted unrouted, Option.map_some, if_pos routeError_neg]
      at ended
    cases ended
    cases register with
    | config => exact ⟨rfl, rfl⟩
    | queue => exact ⟨rfl, rfl⟩
  · have refused :=
      without.resolve_left fun vector => unrouted (Or.inl vector)
    rw [added_ended unrouted refused] at ended
    cases ended

/--
The two layouts agree on a vector of the table, or on none, unless there is
an error code that the modern layout stores and passes on as a GSI.
-/
theorem vectorWrites_agree_iff :
    Agree host vpci register data ↔
      InTable data ∧
        (Unrouted host data →
          heldGsi vpci register = (routeError data).toUInt32 ∧
            (register = .queue → host.notifyVqGsi = false)) := by
  obtain ⟨legacyIndexed, modernIndexed⟩ :=
    writes_indexed host vpci register data
  constructor
  · intro agree
    constructor
    · by_cases vector : data = virtioMsiNoVector
      · exact Or.inl vector
      · refine Or.inr (agree.indexed data.toNat (Or.inl ?_))
        rw [legacyIndexed, added_indexed, if_neg vector]
        exact List.mem_singleton_self _
    · intro unrouted
      exact (agree_unrouted_iff host vpci register data unrouted).mp
        agree.same
  · rintro ⟨inTable, stored⟩
    have same :
        (specificDataOut host vpci register data).result =
          (commonWrite host vpci register data).result := by
      by_cases unrouted : Unrouted host data
      · exact (agree_unrouted_iff host vpci register data unrouted).mpr
          (stored unrouted)
      · exact agree_of_routed host vpci register data unrouted
    refine ⟨same, ?_, ?_⟩
    · intro without written ended
      rw [← same, or_self] at ended
      exact specificDataOut_kept host vpci register data without ended
    · intro index member
      rw [legacyIndexed, modernIndexed, or_self, added_indexed] at member
      split at member
      case isTrue => cases member
      case isFalse vector =>
        rw [List.mem_singleton.mp member]
        exact inTable.resolve_left vector

end Writes

/-! ## No vector, in both layouts -/

/-- A host that sends messages without routes, and a device that listens. -/
def injecting : RouteHost := ⟨minusENxio, true, true⟩

/--
Without a vector the modern layout stores an error code as the GSI of the
configuration, and passes one on as the GSI of a queue; and a vector behind
the table is looked up there.
-/
theorem vectorWrites_disagree :
    ((specificDataOut injecting virtioPciInit .config 0xffff).result.map
          (fun written => written.vpci.configGsi) =
        some 0 ∧
      (commonWrite injecting virtioPciInit .config 0xffff).result.map
          (fun written => written.vpci.configGsi) =
        some 0xffffffea) ∧
    ((specificDataOut injecting virtioPciInit .queue 0).result.map
          Written.notified =
        some none ∧
      (commonWrite injecting virtioPciInit .queue 0).result.map
          Written.notified =
        some (some (0, 0xfffffffa))) ∧
    (specificDataOut injecting virtioPciInit .queue 33).indexed = [33] ∧
    ¬ Agree injecting virtioPciInit .config 0xffff ∧
    ¬ Agree injecting virtioPciInit .queue 0 ∧
    ¬ Agree injecting virtioPciInit .queue 33 := by
  refine ⟨by decide, by decide, by decide, ?_, ?_, ?_⟩
  · intro agree
    have same :=
      congrArg (Option.map fun written => written.vpci.configGsi) agree.same
    exact absurd same (by decide)
  · intro agree
    have same := congrArg (Option.map Written.notified) agree.same
    exact absurd same (by decide)
  · intro agree
    exact absurd (agree.indexed 33 (Or.inl (by decide))) (by decide)

end Kemu.Virtio.VectorWrites
