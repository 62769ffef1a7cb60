import Kemu.Init.PciFrame

/-!
# The two configuration mechanisms

An access through the window in memory should be one through the ports, with
the address programmed first.  Both end in the same functions, and these
find out whether the device exists by looking at the address that was
programmed last.
-/

namespace Kemu.Init.Pci

open Kemu.Lib.Bytes

variable {World : Type}

/-! ## The address register is not touched -/

/-- Another content of `pci_config_address_bits`. -/
def PciState.withBits (state : PciState World) (bits : UInt32) :
    PciState World :=
  { state with configAddressBits := bits }

theorem toggleBar_withBits (activate : Bool) (state : PciState World)
    (bits : UInt32) (devNum barNum : Nat) :
    toggleBar activate (state.withBits bits) devNum barNum =
      ((toggleBar activate state devNum barNum).1,
        (toggleBar activate state devNum barNum).2.withBits bits) := by
  rw [toggleBar, toggleBar]
  split
  · rw [pciActivateBar, pciActivateBar,
      show (state.withBits bits).devices = state.devices from rfl]
    split
    · rfl
    · split
      · rfl
      · dsimp only [PciState.withBits]
        split <;> rfl
  · rw [pciDeactivateBar, pciDeactivateBar,
      show (state.withBits bits).devices = state.devices from rfl]
    split
    · rfl
    · split
      · rfl
      · dsimp only [PciState.withBits]
        split <;> rfl

theorem activate_withBits (state : PciState World) (bits : UInt32)
    (devNum barNum : Nat) :
    pciActivateBar (state.withBits bits) devNum barNum =
      ((pciActivateBar state devNum barNum).1,
        (pciActivateBar state devNum barNum).2.withBits bits) :=
  toggleBar_withBits true state bits devNum barNum

theorem deactivate_withBits (state : PciState World) (bits : UInt32)
    (devNum barNum : Nat) :
    pciDeactivateBar (state.withBits bits) devNum barNum =
      ((pciDeactivateBar state devNum barNum).1,
        (pciDeactivateBar state devNum barNum).2.withBits bits) :=
  toggleBar_withBits false state bits devNum barNum

theorem commandLoop_withBits (devNum : Nat) (toggleIo toggleMem : Bool)
    (newCommand : UInt16) (bars : List Nat) (state : PciState World)
    (bits : UInt32) :
    commandLoop devNum toggleIo toggleMem newCommand bars
        (state.withBits bits) =
      (commandLoop devNum toggleIo toggleMem newCommand bars
        state).withBits bits := by
  induction bars generalizing state with
  | nil => rfl
  | cons barNum rest induction =>
      rw [commandLoop, commandLoop,
        show (state.withBits bits).devices = state.devices from rfl]
      split
      · rfl
      · split
        · exact induction state
        · split
          · split
            · rw [toggleBar_withBits, induction]
            · exact induction state
          · split
            · rw [toggleBar_withBits, induction]
            · exact induction state

theorem toggleLoop_withBits (activate : Bool) (start size : UInt32)
    (bars : List (Nat × Nat)) (state : PciState World) (bits : UInt32) :
    toggleLoop activate start size bars (state.withBits bits) =
      ((toggleLoop activate start size bars state).1,
        (toggleLoop activate start size bars state).2.withBits bits) := by
  induction bars generalizing state with
  | nil => rfl
  | cons entry rest induction =>
      rw [toggleLoop, toggleLoop,
        show (state.withBits bits).devices = state.devices from rfl]
      split
      · exact induction state
      · split
        · rw [toggleBar_withBits]
          dsimp only
          split
          · rfl
          · exact induction _
        · exact induction state

theorem toggleRegions_withBits (activate : Bool) (state : PciState World)
    (bits start size : UInt32) :
    pciToggleBarRegions activate (state.withBits bits) start size =
      ((pciToggleBarRegions activate state start size).1,
        (pciToggleBarRegions activate state start size).2.withBits
          bits) :=
  toggleLoop_withBits activate start size state.allBars state bits

theorem modify_withBits (state : PciState World) (bits : UInt32)
    (devNum : Nat) (change : PciHeader → PciHeader) :
    (state.withBits bits).modify devNum change =
      (state.modify devNum change).withBits bits :=
  rfl

theorem moveBar_withBits (state : PciState World) (devNum barNum : Nat)
    (oldAddr newAddr barSize value : UInt32) (bits : UInt32) :
    moveBar (state.withBits bits) devNum barNum oldAddr newAddr barSize
        value =
      (moveBar state devNum barNum oldAddr newAddr barSize
        value).withBits bits := by
  rw [moveBar, moveBar, deactivate_withBits]
  dsimp only
  split
  · rfl
  · rw [toggleRegions_withBits]
    dsimp only
    split
    · rw [activate_withBits]
    · rw [modify_withBits, activate_withBits]
      dsimp only
      split
      · rw [toggleRegions_withBits]
      · rw [toggleRegions_withBits]

theorem deviceConfigWr_withBits (state : PciState World)
    (devNum offset : Nat) (data : List UInt8) (bits : UInt32) :
    deviceConfigWr (state.withBits bits) devNum offset data =
      (deviceConfigWr state devNum offset data).withBits bits := by
  have devices : (state.withBits bits).devices = state.devices := rfl
  rw [deviceConfigWr, deviceConfigWr]
  split
  · rfl
  · split
    · rw [pciConfigCommandWr, pciConfigCommandWr, devices]
      split
      · rfl
      · dsimp only
        rw [commandLoop_withBits]
        rfl
    · split
      · rw [pciConfigBarWr, pciConfigBarWr, devices]
        split
        · rfl
        · dsimp only
          split
          · rfl
          · split
            · rfl
            · exact moveBar_withBits ..
      · rfl

/-! ## Addresses -/

/-- A function of a device on a bus. -/
structure ConfigFunction where
  bus : Nat
  device : Nat
  function : Nat
  busBound : bus < 256
  deviceBound : device < 32
  functionBound : function < 8

/-- A register of a function. -/
structure ConfigTarget (arch : PciArch) extends ConfigFunction where
  register : Nat
  registerBound : register < arch.devCfgSize

namespace ConfigTarget

variable {arch : PciArch} (target : ConfigTarget arch)

/-- The address of the register, without the enable bit. -/
def number : Nat :=
  target.register + 2 ^ arch.offsetBits * target.function +
    2 ^ (arch.offsetBits + 3) * target.device +
    2 ^ (arch.offsetBits + 8) * target.bus

/-- The address with the enable bit. -/
def address : UInt32 :=
  .ofNat (2 ^ 31 + target.number)

theorem number_lt : target.number < 2 ^ 28 := by
  have bus := target.busBound
  have device := target.deviceBound
  have function := target.functionBound
  have register := target.registerBound
  rw [PciArch.devCfgSize] at register
  rw [number]
  rw [PciArch.offsetBits] at *
  split at register <;> simp_all <;> omega

theorem address_toNat : target.address.toNat = 2 ^ 31 + target.number := by
  have bound := target.number_lt
  rw [address, UInt32.toNat_ofNat', Nat.mod_eq_of_lt]
  omega

theorem address_fields :
    arch.functionNumber target.address = target.function ∧
      arch.deviceNumber target.address = target.device ∧
      arch.busNumber target.address = target.bus ∧
      arch.configOffset target.address = target.register := by
  have bus := target.busBound
  have device := target.deviceBound
  have function := target.functionBound
  have register := target.registerBound
  rw [PciArch.functionNumber, PciArch.deviceNumber, PciArch.busNumber,
    PciArch.configOffset, target.address_toNat, number]
  rw [PciArch.devCfgSize] at *
  rw [PciArch.offsetBits] at *
  split at register <;> simp_all <;> omega

theorem number_mod_four : target.number % 4 = target.register % 4 := by
  rw [number, PciArch.offsetBits]
  split <;> omega

end ConfigTarget

/-! ## The two paths -/

section Paths

variable (arch : PciArch)

/-- An access through the window in memory. -/
def windowAccess (state : PciState World) (target : ConfigTarget arch)
    (access : Access) : List UInt8 × PciState World :=
  pciConfigMmioAccess arch state
    (arch.cfgArea + UInt64.ofNat target.number) access

/--
An access through the ports: the address goes to `0xcf8`, and the data port
is the one for the byte of the register.
-/
def portAccess (state : PciState World) (target : ConfigTarget arch)
    (access : Access) : List UInt8 × PciState World :=
  let programmed :=
    (pciConfigAddressMmio state 0xcf8
      (.write (toLe 4 (target.address.toNat / 4 * 4)))).2
  pciConfigDataMmio arch programmed
    (0xcfc + UInt64.ofNat (target.register % 4)) access

variable {arch}

theorem windowAccess_eq (state : PciState World)
    (target : ConfigTarget arch) {access : Access}
    (dword : target.register % 4 + access.data.length ≤ 4) :
    windowAccess arch state target access =
      configAccess arch state target.address access.data.length access := by
  have small := target.number_lt
  have offset :
      arch.cfgArea + UInt64.ofNat target.number - arch.cfgArea =
        UInt64.ofNat target.number := by
    rw [UInt64.add_comm, UInt64.add_sub_cancel]
  have value : (UInt64.ofNat target.number).toNat = target.number := by
    rw [UInt64.toNat_ofNat', Nat.mod_eq_of_lt (by omega)]
  have address :
      (UInt64.ofNat target.number).toUInt32 ||| 0x80000000 =
        target.address := by
    apply UInt32.toNat_inj.mp
    rw [UInt32.toNat_or, UInt64.toNat_toUInt32, value,
      target.address_toNat, Nat.mod_eq_of_lt (by omega), Nat.or_comm]
    have bound : target.number < 2 ^ 31 := by omega
    exact (Nat.two_pow_add_eq_or_of_lt bound 1).symm
  rw [windowAccess, pciConfigMmioAccess]
  rw [offset, value, address, target.number_mod_four, if_neg (by omega)]

theorem portAccess_eq (state : PciState World)
    (target : ConfigTarget arch) {access : Access}
    (dword : target.register % 4 + access.data.length ≤ 4) :
    portAccess arch state target access =
      configAccess arch
        (state.withBits (.ofNat (target.address.toNat / 4 * 4)))
        target.address access.data.length access := by
  have bound := target.address.toNat_lt
  have programmed :
      (pciConfigAddressMmio state 0xcf8
          (.write (toLe 4 (target.address.toNat / 4 * 4)))).2 =
        state.withBits (.ofNat (target.address.toNat / 4 * 4)) := by
    have whole :
        patch (toLe 4 state.configAddressBits.toNat) 0
            (toLe 4 (target.address.toNat / 4 * 4)) =
          toLe 4 (target.address.toNat / 4 * 4) := by
      rw [patch, toLe_length, toLe_length, List.take_zero, List.nil_append,
        List.take_of_length_le (by rw [toLe_length]),
        List.drop_eq_nil_of_le (by rw [toLe_length]), List.append_nil]
    rw [pciConfigAddressMmio, PciState.withBits]
    have offset : (0xcf8 : UInt64).toNat - 0xcf8 = 0 := rfl
    rw [offset, whole, ofLe_toLe, Nat.mod_eq_of_lt (by omega)]
  have port :
      (0xcfc + UInt64.ofNat (target.register % 4)).toNat - 0xcfc =
        target.register % 4 := by
    have base : (0xcfc : UInt64).toNat = 0xcfc := rfl
    rw [UInt64.toNat_add, base, UInt64.toNat_ofNat']
    omega
  have address :
      UInt32.ofNat
          ((UInt32.ofNat (target.address.toNat / 4 * 4)).toNat / 4 * 4 +
            target.register % 4 % 4) =
        target.address := by
    apply UInt32.toNat_inj.mp
    have number := target.address_toNat
    have low := target.number_mod_four
    rw [UInt32.toNat_ofNat', UInt32.toNat_ofNat']
    omega
  rw [portAccess, programmed, pciConfigDataMmio]
  rw [port]
  have bits :
      (state.withBits
          (.ofNat (target.address.toNat / 4 * 4))).configAddressBits =
        .ofNat (target.address.toNat / 4 * 4) :=
    rfl
  rw [bits, address, Nat.mod_mod, Nat.min_eq_left (by omega)]

/-- The same bytes, and the same state but for the address register. -/
def SameAccess (first second : List UInt8 × PciState World) : Prop :=
  first.1 = second.1 ∧ first.2.withBits 0 = second.2.withBits 0

/-- The address register answers as for the device itself. -/
def Visible (arch : PciArch) (bits : UInt32) (bus : Nat) : Prop :=
  arch.busNumber bits = bus ∧ arch.functionNumber bits = 0

instance (bits : UInt32) (bus : Nat) :
    Decidable (Visible arch bits bus) :=
  inferInstanceAs (Decidable (_ ∧ _))

theorem pciDeviceExists_iff (state : PciState World)
    (target : ConfigTarget arch) :
    pciDeviceExists arch state (arch.busNumber target.address)
        (arch.deviceNumber target.address) 0 = true ↔
      Visible arch state.configAddressBits target.bus ∧
        (state.devices target.device).isSome = true := by
  obtain ⟨-, device, bus, -⟩ := target.address_fields
  rw [pciDeviceExists, device, bus, Bool.and_eq_true, Bool.and_eq_true,
    beq_iff_eq, beq_iff_eq]
  rfl

theorem visible_programmed (target : ConfigTarget arch) :
    Visible arch (.ofNat (target.address.toNat / 4 * 4)) target.bus ↔
      target.function = 0 := by
  obtain ⟨function, -, bus, -⟩ := target.address_fields
  have bound := target.address.toNat_lt
  have value :
      (UInt32.ofNat (target.address.toNat / 4 * 4)).toNat =
        target.address.toNat / 4 * 4 := by
    rw [UInt32.toNat_ofNat', Nat.mod_eq_of_lt (by omega)]
  have sameFunction :
      arch.functionNumber (.ofNat (target.address.toNat / 4 * 4)) =
        target.function := by
    rw [← function, PciArch.functionNumber, PciArch.functionNumber, value,
      PciArch.offsetBits]
    split <;> omega
  have sameBus :
      arch.busNumber (.ofNat (target.address.toNat / 4 * 4)) =
        target.bus := by
    rw [← bus, PciArch.busNumber, PciArch.busNumber, value,
      PciArch.offsetBits]
    split <;> omega
  rw [Visible, sameFunction, sameBus]
  exact and_iff_right rfl

/-! ## Agreement -/

/--
What an access does to a device that is there or that is not, on a state
whose address register is not looked at.
-/
def answered (state : PciState World) (target : ConfigTarget arch)
    (visible : Bool) : Access → List UInt8 × PciState World
  | .read buffer =>
      match state.devices target.device with
      | none => (List.replicate buffer.length 0xff, state)
      | some device =>
          if visible then
            (peek device.hdr.config target.register buffer.length, state)
          else
            (List.replicate buffer.length 0xff, state)
  | .write data =>
      if visible && (state.devices target.device).isSome then
        (data, deviceConfigWr state target.device target.register data)
      else
        (data, state)

theorem configAccess_eq (state : PciState World)
    (target : ConfigTarget arch) (bits : UInt32) (access : Access) :
    configAccess arch (state.withBits bits) target.address
        access.data.length access =
      ((answered state target (decide (Visible arch bits target.bus))
          access).1,
        (answered state target (decide (Visible arch bits target.bus))
          access).2.withBits bits) := by
  obtain ⟨-, device, bus, register⟩ := target.address_fields
  have present := pciDeviceExists_iff (state.withBits bits) target
  have visible :
      Visible arch (state.withBits bits).configAddressBits target.bus ↔
        Visible arch bits target.bus :=
    Iff.rfl
  have devices : (state.withBits bits).devices = state.devices := rfl
  rw [visible, devices] at present
  cases access with
  | read buffer =>
      rw [configAccess, answered, pciConfigRd, Access.data,
        List.drop_length, List.append_nil, register, devices]
      rw [device] at present ⊢
      cases found : state.devices target.device with
      | none => rfl
      | some pciDevice =>
          rw [found, Option.isSome_some, and_iff_left rfl] at present
          dsimp only
          by_cases shown : Visible arch bits target.bus
          · rw [if_pos (present.mpr shown),
              if_pos (decide_eq_true shown)]
          · rw [if_neg (mt present.mp shown),
              if_neg (mt of_decide_eq_true shown)]
  | write data =>
      rw [configAccess, answered, pciConfigWr, Access.data,
        List.take_length, register]
      by_cases shown :
          Visible arch bits target.bus ∧
            (state.devices target.device).isSome = true
      · rw [if_pos (present.mpr shown), device, decide_eq_true shown.1,
          shown.2, Bool.and_self, if_pos rfl, deviceConfigWr_withBits]
      · rw [if_neg (mt present.mp shown), if_neg]
        rw [Bool.and_eq_true, decide_eq_true_eq]
        exact shown

theorem answered_of_none {state : PciState World}
    {target : ConfigTarget arch}
    (absent : state.devices target.device = none) (visible : Bool)
    (access : Access) :
    answered state target visible access =
      answered state target false access := by
  cases access with
  | read buffer =>
      rw [answered, answered, absent]
  | write data =>
      rw [answered, answered, absent, Option.isSome_none, Bool.and_false,
        Bool.and_false]

/-- An access of 1, 2 or 4 bytes inside one dword. -/
structure Fits (target : ConfigTarget arch) (access : Access) : Prop where
  width :
    access.data.length = 1 ∨ access.data.length = 2 ∨
      access.data.length = 4
  dword : target.register % 4 + access.data.length ≤ 4

/-- The register `PCI_INTERRUPT_LINE` of a function. -/
def interruptLine (arch : PciArch) (place : ConfigFunction) :
    ConfigTarget arch where
  toConfigFunction := place
  register := 0x3c
  registerBound := by
    rw [PciArch.devCfgSize, PciArch.offsetBits]
    split <;> decide

theorem interruptLine_write (state : PciState World) (devNum : Nat)
    (value : UInt8) :
    deviceConfigWr state devNum 0x3c [value] =
      state.modify devNum fun hdr =>
        { hdr with config := poke hdr.config 0x3c [value] } := by
  rw [deviceConfigWr, List.length_singleton, if_neg (by decide),
    if_neg (by decide), if_neg (by decide)]

theorem interruptLine_distinguishes (arch : PciArch) {state : PciState World}
    {place : ConfigFunction} {device : PciDevice World}
    (found : state.devices place.device = some device) :
    ∃ access, Fits (interruptLine arch place) access ∧
      (answered state (interruptLine arch place) true
          access).2.configOf place.device ≠
        (answered state (interruptLine arch place) false
          access).2.configOf place.device := by
  refine
    ⟨.write [device.hdr.config 0x3c + 1],
      ⟨Or.inl rfl, show 0x3c % 4 + 1 ≤ 4 by decide⟩, ?_⟩
  have shown :
      answered state (interruptLine arch place) true
          (.write [device.hdr.config 0x3c + 1]) =
        ([device.hdr.config 0x3c + 1],
          deviceConfigWr state place.device 0x3c
            [device.hdr.config 0x3c + 1]) := by
    refine if_pos ?_
    rw [Bool.true_and, Option.isSome_iff_exists]
    exact ⟨device, found⟩
  have hidden :
      answered state (interruptLine arch place) false
          (.write [device.hdr.config 0x3c + 1]) =
        ([device.hdr.config 0x3c + 1], state) :=
    rfl
  rw [shown, hidden, interruptLine_write, configOf_modify_self state found,
    PciState.configOf, found, Option.map_some, ne_eq, Option.some.injEq]
  intro same
  dsimp only at same
  have written :
      peek (poke device.hdr.config 0x3c [device.hdr.config 0x3c + 1]) 0x3c
          1 =
        [device.hdr.config 0x3c + 1] :=
    peek_poke_self device.hdr.config 0x3c _
  rw [same] at written
  have byte : device.hdr.config 0x3c = device.hdr.config 0x3c + 1 :=
    List.head_eq_of_cons_eq written
  grind

theorem configAccess_same {state : PciState World}
    {target : ConfigTarget arch} {first second : UInt32}
    (agree : state.devices target.device = none ∨
      (Visible arch first target.bus ↔ Visible arch second target.bus))
    (access : Access) :
    SameAccess
      (configAccess arch (state.withBits first) target.address
        access.data.length access)
      (configAccess arch (state.withBits second) target.address
        access.data.length access) := by
  obtain absent | visible := agree
  · rw [configAccess_eq, configAccess_eq, answered_of_none absent,
      answered_of_none absent (decide (Visible arch second target.bus))]
    exact ⟨rfl, rfl⟩
  · rw [configAccess_eq, configAccess_eq, decide_eq_decide.mpr visible]
    exact ⟨rfl, rfl⟩

/--
Two contents of the address register give different accesses to a device
that is there if one of them hides it.
-/
theorem visible_of_same {state : PciState World} {place : ConfigFunction}
    {first second : UInt32}
    (same : ∀ access, Fits (interruptLine arch place) access →
      SameAccess
        (configAccess arch (state.withBits first)
          (interruptLine arch place).address access.data.length access)
        (configAccess arch (state.withBits second)
          (interruptLine arch place).address access.data.length access)) :
    state.devices place.device = none ∨
      (Visible arch first place.bus ↔ Visible arch second place.bus) := by
  by_contra different
  rw [not_or, ← ne_eq, Option.ne_none_iff_exists'] at different
  obtain ⟨⟨device, found⟩, visible⟩ := different
  obtain ⟨access, fits, apart⟩ := interruptLine_distinguishes arch found
  have agree := (same access fits).2
  rw [configAccess_eq, configAccess_eq] at agree
  have bytes :
      (answered state (interruptLine arch place)
          (decide (Visible arch first place.bus))
          access).2.configOf place.device =
        (answered state (interruptLine arch place)
          (decide (Visible arch second place.bus))
          access).2.configOf place.device :=
    congrArg (fun state => state.configOf place.device) agree
  by_cases shown : Visible arch first place.bus
  · have hidden : ¬ Visible arch second place.bus := fun other =>
      visible (iff_of_true shown other)
    rw [decide_eq_true shown, decide_eq_false hidden] at bytes
    exact apart bytes
  · have other : Visible arch second place.bus :=
      not_not.mp fun hidden => visible (iff_of_false shown hidden)
    rw [decide_eq_false shown, decide_eq_true other] at bytes
    exact apart bytes.symm

/-- A place on the bus, seen as function 0 or as another function. -/
def ConfigFunction.withFunction (place : ConfigFunction) (function : Nat)
    (bound : function < 8) : ConfigFunction where
  bus := place.bus
  device := place.device
  function := function
  busBound := place.busBound
  deviceBound := place.deviceBound
  functionBound := bound

theorem exists_visible_iff (arch : PciArch) (place : ConfigFunction)
    (function : Nat) (bound : function < 8) :
    ∃ bits, Visible arch bits place.bus ↔ function = 0 :=
  ⟨_, visible_programmed
    (interruptLine arch (place.withFunction function bound))⟩

/--
The window and the ports agree on a function if and only if there is no such
device, or the address programmed last shows the device exactly if the
function is 0.  The window does not depend on that address only if there is
no such device.
-/
theorem mechanisms_agree_iff (arch : PciArch) (state : PciState World)
    (place : ConfigFunction) :
    ((∀ (target : ConfigTarget arch) (access : Access),
        target.toConfigFunction = place → Fits target access →
        SameAccess (windowAccess arch state target access)
          (portAccess arch state target access)) ↔
      state.devices place.device = none ∨
        (Visible arch state.configAddressBits place.bus ↔
          place.function = 0)) ∧
    ((∀ (bits : UInt32) (target : ConfigTarget arch) (access : Access),
        target.toConfigFunction = place → Fits target access →
        SameAccess (windowAccess arch state target access)
          (windowAccess arch (state.withBits bits) target access)) ↔
      state.devices place.device = none) := by
  constructor
  · constructor
    · intro same
      have programmed := visible_programmed (interruptLine arch place)
      refine Or.imp_right (fun agree => Iff.trans agree programmed) ?_
      refine visible_of_same fun access fits => ?_
      have run := same (interruptLine arch place) access rfl fits
      rw [windowAccess_eq _ _ fits.dword, portAccess_eq _ _ fits.dword]
        at run
      exact run
    · rintro agree target access rfl fits
      rw [windowAccess_eq _ _ fits.dword, portAccess_eq _ _ fits.dword]
      rw [← visible_programmed target] at agree
      exact configAccess_same agree access
  · constructor
    · intro same
      by_contra present
      have agree : ∀ bits,
          Visible arch state.configAddressBits place.bus ↔
            Visible arch bits place.bus := by
        intro bits
        refine
          (visible_of_same fun access fits => ?_).resolve_left present
        have run := same bits (interruptLine arch place) access rfl fits
        rw [windowAccess_eq _ _ fits.dword,
          windowAccess_eq _ _ fits.dword] at run
        exact run
      obtain ⟨shown, visible⟩ := exists_visible_iff arch place 0 (by decide)
      obtain ⟨hidden, invisible⟩ :=
        exists_visible_iff arch place 1 (by decide)
      have both := (agree shown).symm.trans (agree hidden)
      rw [visible, invisible] at both
      exact absurd (both.mp rfl) (by decide)
    · rintro absent bits target access rfl fits
      rw [windowAccess_eq _ _ fits.dword, windowAccess_eq _ _ fits.dword]
      exact configAccess_same (Or.inl absent) access

end Paths

/--
The port was left with function 1 of device 0, and the window reads the
vendor of the device that is there.
-/
theorem window_misses_device_after_port_probe :
    ¬ SameAccess
        (windowAccess ⟨false, 0xd1000000⟩
          ((singleDevice fun _ => 0x1a).withBits 0x80000100)
          { bus := 0, device := 0, function := 0, register := 0,
            busBound := by decide, deviceBound := by decide,
            functionBound := by decide, registerBound := by decide }
          (.read [0, 0]))
        (portAccess ⟨false, 0xd1000000⟩
          ((singleDevice fun _ => 0x1a).withBits 0x80000100)
          { bus := 0, device := 0, function := 0, register := 0,
            busBound := by decide, deviceBound := by decide,
            functionBound := by decide, registerBound := by decide }
          (.read [0, 0])) := by
  intro same
  have bytes := same.1
  revert bytes
  decide

end Kemu.Init.Pci
