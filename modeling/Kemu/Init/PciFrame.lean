import Kemu.Init.Pci

/-!
# What a configuration write changes

The three ways a write can take (command, BAR, plain copy) share one byte
mask, and each consults it in a way of its own.  A write keeps to the bytes
it addresses and to the writable bits exactly when the masks happen not to
matter, or the bytes it must not change come out as they were.
-/

namespace Kemu.Init.Pci

open Kemu.Lib.Bytes

variable {World : Type}

/-! ## The bytes of a header -/

/-- The configuration space of a device. -/
def PciState.configOf (state : PciState World) (devNum : Nat) :
    Option (Nat → UInt8) :=
  (state.devices devNum).map fun device => device.hdr.config

theorem configOf_modify_of_ne (state : PciState World)
    {devNum other : Nat} (different : other ≠ devNum)
    (change : PciHeader → PciHeader) :
    (state.modify devNum change).configOf other = state.configOf other := by
  rw [PciState.configOf, modify_devices_of_ne state different]
  rfl

theorem configOf_modify_self (state : PciState World) {devNum : Nat}
    {device : PciDevice World} (found : state.devices devNum = some device)
    (change : PciHeader → PciHeader) :
    (state.modify devNum change).configOf devNum =
      some (change device.hdr).config := by
  rw [PciState.configOf, modify_devices_self state found]
  rfl

/-- A change of a header that leaves its bytes alone. -/
theorem configOf_modify_private (state : PciState World)
    (devNum other : Nat) {change : PciHeader → PciHeader}
    (same : ∀ hdr, (change hdr).config = hdr.config) :
    (state.modify devNum change).configOf other = state.configOf other := by
  by_cases here : other = devNum
  · subst here
    cases found : state.devices other with
    | none => simp [PciState.configOf, PciState.modify, found]
    | some device =>
        rw [configOf_modify_self state found, same, PciState.configOf,
          found]
        rfl
  · exact configOf_modify_of_ne state here change

theorem configOf_toggleBar (activate : Bool) (state : PciState World)
    (devNum barNum other : Nat) :
    (toggleBar activate state devNum barNum).2.configOf other =
      state.configOf other := by
  have keeps :
      ∀ (world : World) (value : Bool),
        (PciState.modify { state with world := world } devNum
            fun hdr => hdr.setActive barNum value).configOf other =
          state.configOf other :=
    fun world value =>
      configOf_modify_private { state with world := world } devNum other
        fun _ => rfl
  rw [toggleBar]
  split
  · rw [pciActivateBar]
    split
    · rfl
    · split
      · rfl
      · dsimp only
        split
        · rfl
        · exact keeps _ _
  · rw [pciDeactivateBar]
    split
    · rfl
    · split
      · rfl
      · dsimp only
        split
        · rfl
        · exact keeps _ _

theorem configOf_activate (state : PciState World)
    (devNum barNum other : Nat) :
    (pciActivateBar state devNum barNum).2.configOf other =
      state.configOf other :=
  configOf_toggleBar true state devNum barNum other

theorem configOf_deactivate (state : PciState World)
    (devNum barNum other : Nat) :
    (pciDeactivateBar state devNum barNum).2.configOf other =
      state.configOf other :=
  configOf_toggleBar false state devNum barNum other

theorem configOf_commandLoop (devNum : Nat) (toggleIo toggleMem : Bool)
    (newCommand : UInt16) (bars : List Nat) (state : PciState World)
    (other : Nat) :
    (commandLoop devNum toggleIo toggleMem newCommand bars
        state).configOf other = state.configOf other :=
  commandLoop_keeps (fun after => after.configOf other = state.configOf other)
    (fun _ _ _ same => (configOf_toggleBar ..).trans same) bars rfl

theorem configOf_toggleLoop (activate : Bool) (start size : UInt32)
    (bars : List (Nat × Nat)) (state : PciState World) (other : Nat) :
    (toggleLoop activate start size bars state).2.configOf other =
      state.configOf other :=
  toggleLoop_keeps (fun after => after.configOf other = state.configOf other)
    (fun _ _ _ same => (configOf_toggleBar ..).trans same) bars rfl

/-! ## The command register -/

/-- The device is there before and after, with the given bytes. -/
theorem exists_of_configOf {state : PciState World} {devNum : Nat}
    {config : Nat → UInt8} (bytes : state.configOf devNum = some config) :
    ∃ device, state.devices devNum = some device ∧
      device.hdr.config = config := by
  rw [PciState.configOf, Option.map_eq_some_iff] at bytes
  exact bytes

theorem configOf_commandWr {state : PciState World} {devNum : Nat}
    {device : PciDevice World} (found : state.devices devNum = some device)
    (newCommand : UInt16) :
    (pciConfigCommandWr state devNum newCommand).configOf devNum =
      some
        (poke device.hdr.config pciCommand (toLe 2 newCommand.toNat)) := by
  have bytes : state.configOf devNum = some device.hdr.config := by
    rw [PciState.configOf, found]
    rfl
  rw [pciConfigCommandWr, found]
  dsimp only
  obtain ⟨after, afterFound, afterBytes⟩ :=
    exists_of_configOf
      ((configOf_commandLoop devNum
        ((device.hdr.command ^^^ newCommand) &&& pciCommandIo != 0)
        ((device.hdr.command ^^^ newCommand) &&& pciCommandMemory != 0)
        newCommand (List.range 6) state devNum).trans bytes)
  rw [configOf_modify_self _ afterFound, PciHeader.setCommand, afterBytes]

/-! ## BARs -/

/-- The BAR's own region, or one in the way of the new one, is not given up. -/
def moveRefused (state : PciState World) (devNum barNum : Nat)
    (newAddr barSize : UInt32) : Prop :=
  (pciDeactivateBar state devNum barNum).1 < 0 ∨
    (pciToggleBarRegions false (pciDeactivateBar state devNum barNum).2
      newAddr barSize).1 < 0

instance (state : PciState World) (devNum barNum : Nat)
    (newAddr barSize : UInt32) :
    Decidable (moveRefused state devNum barNum newAddr barSize) :=
  inferInstanceAs (Decidable (_ ∨ _))

theorem configOf_moveBar {state : PciState World} {devNum : Nat}
    {device : PciDevice World} (found : state.devices devNum = some device)
    (barNum : Nat) (oldAddr newAddr barSize value : UInt32) :
    (moveBar state devNum barNum oldAddr newAddr barSize value).configOf
        devNum =
      some
        (if moveRefused state devNum barNum newAddr barSize then
          device.hdr.config
        else
          (device.hdr.setBar barNum value).config) := by
  have bytes : state.configOf devNum = some device.hdr.config := by
    rw [PciState.configOf, found]
    rfl
  have given := (configOf_deactivate state devNum barNum devNum).trans bytes
  have cleared :
      (pciToggleBarRegions false (pciDeactivateBar state devNum barNum).2
          newAddr barSize).2.configOf devNum = some device.hdr.config :=
    (configOf_toggleLoop ..).trans given
  rw [moveBar]
  dsimp only
  split
  case isTrue kept =>
    have refused : moveRefused state devNum barNum newAddr barSize :=
      Or.inl kept
    rw [if_pos refused]
    exact given
  case isFalse gave =>
    split
    case isTrue kept =>
      have refused : moveRefused state devNum barNum newAddr barSize :=
        Or.inr kept
      rw [if_pos refused, configOf_activate]
      exact cleared
    case isFalse gaveAll =>
      have moved : ¬ moveRefused state devNum barNum newAddr barSize := by
        rintro (kept | kept)
        · exact gave kept
        · exact gaveAll kept
      obtain ⟨after, afterFound, afterBytes⟩ := exists_of_configOf cleared
      have written :
          ((pciToggleBarRegions false
                (pciDeactivateBar state devNum barNum).2 newAddr
                barSize).2.modify devNum
              fun hdr => hdr.setBar barNum value).configOf devNum =
            some (device.hdr.setBar barNum value).config := by
        rw [configOf_modify_self _ afterFound, PciHeader.setBar, afterBytes]
        rfl
      rw [if_neg moved]
      split
      · rw [pciToggleBarRegions, configOf_toggleLoop, configOf_activate]
        exact written
      · rw [pciToggleBarRegions, configOf_toggleLoop, configOf_activate]
        exact written

theorem configOf_moveBar_of_ne (state : PciState World)
    {devNum other : Nat} (different : other ≠ devNum) (barNum : Nat)
    (oldAddr newAddr barSize value : UInt32) :
    (moveBar state devNum barNum oldAddr newAddr barSize value).configOf
        other = state.configOf other :=
  moveBar_keeps (fun after => after.configOf other = state.configOf other)
    (fun _ _ _ _ same => (configOf_toggleBar ..).trans same)
    (fun _ same => (configOf_modify_of_ne _ different _).trans same) rfl

/-- The bytes after `pci_config_bar_wr`. -/
def barConfig (state : PciState World) (devNum : Nat) (hdr : PciHeader)
    (barNum : Nat) (value : UInt32) : Nat → UInt8 :=
  if value = 0xffffffff then
    (hdr.setBar barNum (sizingValue hdr barNum)).config
  else if hdr.spaceEnabled barNum = true ∧
      moveRefused state devNum barNum
        (barAddress (writtenValue hdr barNum value))
        (hdr.barSize barNum) then
    hdr.config
  else
    (hdr.setBar barNum (writtenValue hdr barNum value)).config

theorem configOf_barWr {state : PciState World} {devNum : Nat}
    {device : PciDevice World} (found : state.devices devNum = some device)
    (barNum : Nat) (value : UInt32) :
    (pciConfigBarWr state devNum barNum value).configOf devNum =
      some (barConfig state devNum device.hdr barNum value) := by
  rw [pciConfigBarWr, found, barConfig]
  dsimp only
  split
  · exact configOf_modify_self _ found _
  · cases enabled : device.hdr.spaceEnabled barNum with
    | false =>
        rw [if_pos (by rfl), if_neg (by simp)]
        exact configOf_modify_self _ found _
    | true =>
        rw [if_neg (by simp), configOf_moveBar found]
        simp only [true_and]

/-! ## One write -/

/-- The bytes after a write to a device that exists. -/
def writtenConfig (state : PciState World) (devNum : Nat)
    (hdr : PciHeader) (offset : Nat) (data : List UInt8) : Nat → UInt8 :=
  let mask := ofLe (peek pciConfigWritable offset data.length)
  if offset < pciStdHeaderSizeof ∧ mask = 0 then
    hdr.config
  else if offset = pciCommand then
    poke hdr.config pciCommand
      (toLe 2 (UInt16.ofNat (ofLe data) &&& UInt16.ofNat mask).toNat)
  else if barIndex offset < 6 then
    barConfig state devNum hdr (barIndex offset) (UInt32.ofNat (ofLe data))
  else
    poke hdr.config offset data

theorem configOf_deviceConfigWr {state : PciState World} {devNum : Nat}
    {device : PciDevice World} (found : state.devices devNum = some device)
    (offset : Nat) (data : List UInt8) :
    (deviceConfigWr state devNum offset data).configOf devNum =
      some (writtenConfig state devNum device.hdr offset data) := by
  rw [deviceConfigWr, writtenConfig]
  split
  · rw [PciState.configOf, found]
    rfl
  · split
    · exact configOf_commandWr found _
    · split
      · exact configOf_barWr found _ _
      · exact configOf_modify_self _ found _

theorem configOf_deviceConfigWr_of_ne (state : PciState World)
    {devNum other : Nat} (different : other ≠ devNum) (offset : Nat)
    (data : List UInt8) :
    (deviceConfigWr state devNum offset data).configOf other =
      state.configOf other := by
  rw [deviceConfigWr]
  split
  · rfl
  · split
    · rw [pciConfigCommandWr]
      split
      · rfl
      · rw [configOf_modify_of_ne _ different, configOf_commandLoop]
    · split
      · rw [pciConfigBarWr]
        split
        · rfl
        · dsimp only
          split
          · exact configOf_modify_of_ne _ different _
          · split
            · exact configOf_modify_of_ne _ different _
            · exact configOf_moveBar_of_ne _ different ..
      · exact configOf_modify_of_ne _ different _

/-! ## Keeping to the addressed bytes and the writable bits -/

/--
Outside the addressed bytes nothing changes, and in the standard header only
writable bits do.
-/
structure Keeps (before after : Nat → UInt8) (offset len : Nat) :
    Prop where
  bytes :
    ∀ index, index < offset ∨ offset + len ≤ index →
      after index = before index
  bits :
    ∀ index, index < pciStdHeaderSizeof →
      (after index ^^^ before index) &&& ~~~ pciConfigWritable index = 0

theorem xor_self_and (value mask : UInt8) :
    (value ^^^ value) &&& mask = 0 := by
  rw [UInt8.xor_self, UInt8.zero_and]

theorem Keeps.refl (config : Nat → UInt8) (offset len : Nat) :
    Keeps config config offset len :=
  ⟨fun _ _ => rfl, fun _ _ => xor_self_and _ _⟩

/-- Plain copies. -/
theorem keeps_poke_iff (config : Nat → UInt8) (offset : Nat)
    (data : List UInt8) :
    Keeps config (poke config offset data) offset data.length ↔
      ∀ index (inside : index < data.length),
        offset + index < pciStdHeaderSizeof →
        (data[index] ^^^ config (offset + index)) &&&
          ~~~ pciConfigWritable (offset + index) = 0 := by
  constructor
  · rintro ⟨-, bits⟩ index inside standard
    have changed := bits (offset + index) standard
    rw [poke_inside config offset inside] at changed
    exact changed
  · intro writable
    refine ⟨fun index outside => poke_outside config outside, ?_⟩
    intro index standard
    by_cases outside : index < offset ∨ offset + data.length ≤ index
    · rw [poke_outside config outside]
      exact xor_self_and _ _
    · obtain ⟨inner, rfl⟩ : ∃ inner, index = offset + inner :=
        ⟨index - offset, by omega⟩
      have inside : inner < data.length := by omega
      rw [poke_inside config offset inside]
      exact writable inner inside standard

/-! ### The command register -/

theorem and_xor_and_not (value before mask : UInt8) :
    ((value &&& mask) ^^^ before) &&& ~~~ mask = before &&& ~~~ mask := by
  apply UInt8.toBitVec_inj.mp
  ext index inside
  simp
  cases mask.toBitVec[index] <;> simp

theorem toLe_and (value mask : Nat) :
    toLe 2 (UInt16.ofNat value &&& UInt16.ofNat mask).toNat =
      [UInt8.ofNat value &&& UInt8.ofNat mask,
        UInt8.ofNat (value / 256) &&& UInt8.ofNat (mask / 256)] := by
  have low :
      UInt8.ofNat (UInt16.ofNat value &&& UInt16.ofNat mask).toNat =
        UInt8.ofNat value &&& UInt8.ofNat mask := by
    apply UInt8.toNat_inj.mp
    simp only [UInt8.toNat_ofNat', UInt8.toNat_and, UInt16.toNat_and,
      UInt16.toNat_ofNat']
    rw [Nat.and_mod_two_pow]
    congr 1 <;> omega
  have high :
      UInt8.ofNat ((UInt16.ofNat value &&& UInt16.ofNat mask).toNat / 256) =
        UInt8.ofNat (value / 256) &&& UInt8.ofNat (mask / 256) := by
    apply UInt8.toNat_inj.mp
    simp only [UInt8.toNat_ofNat', UInt8.toNat_and, UInt16.toNat_and,
      UInt16.toNat_ofNat']
    rw [show (256 : Nat) = 2 ^ 8 from rfl, Nat.and_div_two_pow,
      Nat.and_mod_two_pow]
    congr 1 <;> omega
  rw [toLe, toLe, toLe, low, high]

theorem ofNat_ofLe_cons (byte : UInt8) (rest : List UInt8) :
    UInt8.ofNat (ofLe (byte :: rest)) = byte := by
  apply UInt8.toNat_inj.mp
  rw [UInt8.toNat_ofNat', ofLe]
  have small := byte.toNat_lt
  omega

theorem ofLe_cons_div (byte : UInt8) (rest : List UInt8) :
    ofLe (byte :: rest) / 256 = ofLe rest := by
  rw [ofLe]
  have small := byte.toNat_lt
  omega

/-- The bytes written to the command register. -/
theorem command_bytes {data : List UInt8} (first : UInt8)
    (rest : List UInt8) (shape : data = first :: rest) :
    toLe 2
        (UInt16.ofNat (ofLe data) &&&
          UInt16.ofNat
            (ofLe (peek pciConfigWritable pciCommand data.length))).toNat =
      [first &&& 0x47, UInt8.ofNat (ofLe rest) &&&
        UInt8.ofNat
          (ofLe (peek pciConfigWritable (pciCommand + 1) rest.length))] := by
  have masks :
      peek pciConfigWritable pciCommand data.length =
        0x47 :: peek pciConfigWritable (pciCommand + 1) rest.length := by
    rw [shape, List.length_cons, peek, List.range_succ_eq_map, peek]
    simp only [List.map_cons, List.map_map, List.cons.injEq]
    refine ⟨rfl, List.map_congr_left ?_⟩
    intro index _
    simp only [Function.comp, Nat.succ_eq_add_one]
    congr 1
    omega
  rw [toLe_and, masks, shape, ofNat_ofLe_cons, ofNat_ofLe_cons,
    ofLe_cons_div, ofLe_cons_div]

/-- A byte at a time. -/
theorem poke_cons (config : Nat → UInt8) (offset : Nat) (byte : UInt8)
    (rest : List UInt8) :
    poke config offset (byte :: rest) =
      poke (Function.update config offset byte) (offset + 1) rest := by
  funext index
  rcases Nat.lt_trichotomy index offset with before | rfl | behind
  · rw [poke_outside _ (Or.inl before), poke_outside _ (Or.inl (by omega)),
      Function.update_of_ne (by omega)]
  · rw [poke_outside (Function.update config index byte)
      (Or.inl (Nat.lt_succ_self index)), Function.update_self]
    have here :=
      poke_inside config index (by simp : 0 < (byte :: rest).length)
    exact here
  · by_cases outside : offset + (byte :: rest).length ≤ index
    · rw [poke_outside _ (Or.inr outside), poke_outside,
        Function.update_of_ne (by omega)]
      rw [List.length_cons] at outside
      omega
    · rw [List.length_cons] at outside
      obtain ⟨inner, rfl⟩ : ∃ inner, index = offset + (inner + 1) :=
        ⟨index - offset - 1, by omega⟩
      rw [poke_inside config offset
          (by rw [List.length_cons]; omega : inner + 1 < _),
        show offset + (inner + 1) = offset + 1 + inner by omega,
        poke_inside _ _ (by omega : inner < rest.length)]
      rfl

theorem poke_nil (config : Nat → UInt8) (offset : Nat) :
    poke config offset [] = config := by
  funext index
  exact poke_outside _ (by simp; omega)

/-- When writing to the command register keeps to its bytes. -/
def CommandContained (hdr : PciHeader) (len : Nat) : Prop :=
  (len = 1 → hdr.config (pciCommand + 1) = 0) ∧
    hdr.config pciCommand &&& ~~~ 0x47 = 0 ∧
    hdr.config (pciCommand + 1) &&& ~~~ 0x05 = 0

theorem keeps_command_iff (hdr : PciHeader) {data : List UInt8}
    (nonempty : data ≠ []) :
    Keeps hdr.config
        (poke hdr.config pciCommand
          (toLe 2
            (UInt16.ofNat (ofLe data) &&&
              UInt16.ofNat
                (ofLe
                  (peek pciConfigWritable pciCommand
                    data.length))).toNat))
        pciCommand data.length ↔
      CommandContained hdr data.length := by
  obtain ⟨first, rest, shape⟩ := List.exists_cons_of_ne_nil nonempty
  rw [command_bytes first rest shape, poke_cons, poke_cons, poke_nil]
  have masks :
      pciConfigWritable pciCommand = 0x47 ∧
        pciConfigWritable (pciCommand + 1) = 0x05 := by
    decide
  have empty :
      rest = [] →
        UInt8.ofNat (ofLe rest) &&&
          UInt8.ofNat
            (ofLe
              (peek pciConfigWritable (pciCommand + 1) rest.length)) =
          0 := by
    rintro rfl
    rfl
  have longer :
      rest ≠ [] →
        ∃ second,
          UInt8.ofNat (ofLe rest) &&&
            UInt8.ofNat
              (ofLe
                (peek pciConfigWritable (pciCommand + 1) rest.length)) =
            second &&& 0x05 := by
    intro more
    obtain ⟨second, others, rfl⟩ := List.exists_cons_of_ne_nil more
    refine ⟨second, ?_⟩
    rw [ofNat_ofLe_cons, List.length_cons, peek, List.range_succ_eq_map,
      List.map_cons, ofNat_ofLe_cons]
    rfl
  have length : data.length = rest.length + 1 := by
    rw [shape, List.length_cons]
  generalize UInt8.ofNat (ofLe rest) &&& UInt8.ofNat _ = hi at empty longer ⊢
  have atLow :
      Function.update (Function.update hdr.config pciCommand
          (first &&& 0x47)) (pciCommand + 1) hi pciCommand =
        first &&& 0x47 := by
    rw [Function.update_of_ne (by decide), Function.update_self]
  have atHigh :
      Function.update (Function.update hdr.config pciCommand
          (first &&& 0x47)) (pciCommand + 1) hi (pciCommand + 1) = hi :=
    Function.update_self ..
  have elsewhere :
      ∀ index, index ≠ pciCommand → index ≠ pciCommand + 1 →
        Function.update (Function.update hdr.config pciCommand
          (first &&& 0x47)) (pciCommand + 1) hi index =
        hdr.config index := by
    intro index notLow notHigh
    rw [Function.update_of_ne notHigh, Function.update_of_ne notLow]
  constructor
  · rintro ⟨bytes, bits⟩
    have low := bits pciCommand (by decide)
    rw [atLow, masks.1, and_xor_and_not] at low
    have upper := bits (pciCommand + 1) (by decide)
    rw [atHigh, masks.2] at upper
    by_cases more : rest = []
    · have kept := bytes (pciCommand + 1)
        (Or.inr (by rw [length, more]; exact le_rfl))
      rw [atHigh, empty more] at kept
      refine ⟨fun _ => kept.symm, low, ?_⟩
      rw [← kept]
      rfl
    · obtain ⟨second, equal⟩ := longer more
      rw [equal, and_xor_and_not] at upper
      refine ⟨?_, low, upper⟩
      intro single
      exact absurd (List.length_eq_zero_iff.mp (by omega)) more
  · rintro ⟨single, low, upper⟩
    refine ⟨?_, ?_⟩
    · intro index outside
      by_cases isHigh : index = pciCommand + 1
      · have more : rest = [] := by
          apply List.length_eq_zero_iff.mp
          omega
        rw [isHigh, atHigh, empty more, single (by rw [length, more]; rfl)]
      · exact elsewhere index (by omega) isHigh
    · intro index standard
      by_cases isLow : index = pciCommand
      · rw [isLow, atLow, masks.1, and_xor_and_not]
        exact low
      · by_cases isHigh : index = pciCommand + 1
        · rw [isHigh, atHigh, masks.2]
          by_cases more : rest = []
          · rw [empty more, single (by rw [length, more]; rfl)]
            rfl
          · obtain ⟨second, equal⟩ := longer more
            rw [equal, and_xor_and_not]
            exact upper
        · rw [elsewhere index isLow isHigh]
          exact xor_self_and _ _

/-! ### BARs -/

theorem barIndex_of_ge {offset : Nat} (behind : pciBarOffset ≤ offset)
    (small : offset < 2 ^ 64) :
    barIndex offset = (offset - pciBarOffset) / 4 % 256 := by
  have fits : pciBarOffset < 2 ^ 64 := by decide
  have ordered : UInt64.ofNat pciBarOffset ≤ UInt64.ofNat offset := by
    rw [UInt64.le_iff_toNat_le, UInt64.toNat_ofNat', UInt64.toNat_ofNat',
      Nat.mod_eq_of_lt fits, Nat.mod_eq_of_lt small]
    exact behind
  rw [barIndex, UInt64.toNat_toUInt8, UInt64.toNat_div,
    UInt64.toNat_sub_of_le _ _ ordered, UInt64.toNat_ofNat',
    UInt64.toNat_ofNat', Nat.mod_eq_of_lt small]
  rfl

/-- An offset in the BARs. -/
def inBars (offset : Nat) : Prop :=
  pciBarOffset ≤ offset ∧ offset < pciBarOffset + 24

theorem barIndex_inBars {offset : Nat} (inside : inBars offset) :
    barIndex offset < 6 ∧
      offset = pciBarOffset + 4 * barIndex offset + offset % 4 := by
  obtain ⟨behind, before⟩ := inside
  rw [pciBarOffset] at behind before
  rw [barIndex_of_ge (by rw [pciBarOffset]; exact behind) (by omega),
    pciBarOffset]
  omega

/-- Only the bytes of the BAR are written. -/
theorem setBar_outside (hdr : PciHeader) (barNum : Nat) (value : UInt32)
    {index : Nat}
    (outside :
      index < pciBarOffset + 4 * barNum ∨
        pciBarOffset + 4 * barNum + 4 ≤ index) :
    (hdr.setBar barNum value).config index = hdr.config index := by
  refine poke_outside _ ?_
  rw [toLe_length]
  exact outside

/-- All bits of a BAR are writable. -/
theorem setBar_bits (hdr : PciHeader) {barNum : Nat} (bar : barNum < 6)
    (value : UInt32) (index : Nat) :
    ((hdr.setBar barNum value).config index ^^^ hdr.config index) &&&
      ~~~ pciConfigWritable index = 0 := by
  by_cases outside :
      index < pciBarOffset + 4 * barNum ∨
        pciBarOffset + 4 * barNum + 4 ≤ index
  · rw [setBar_outside hdr barNum value outside]
    exact xor_self_and _ _
  · have writable : pciConfigWritable index = 0xff := by
      rw [pciBarOffset] at outside
      rw [pciConfigWritable, pciCommand, pciBarOffset,
        if_neg (by omega), if_neg (by omega), if_neg (by omega),
        if_pos (by omega)]
    have none : ~~~ (0xff : UInt8) = 0 := by decide
    rw [writable, none, UInt8.and_zero]

/-- When writing to a BAR keeps to the bytes it addresses. -/
def BarContained (state : PciState World) (devNum : Nat)
    (hdr : PciHeader) (offset : Nat) (data : List UInt8) : Prop :=
  let barNum := barIndex offset
  let value := writtenValue hdr barNum (UInt32.ofNat (ofLe data))
  data.length = 4 ∨
    (hdr.spaceEnabled barNum = true ∧
      moveRefused state devNum barNum (barAddress value)
        (hdr.barSize barNum)) ∨
    ∀ index, index < offset ∨ offset + data.length ≤ index →
      (hdr.setBar barNum value).config index = hdr.config index

theorem keeps_bar_iff (state : PciState World) (devNum : Nat)
    (hdr : PciHeader) {offset : Nat} (inside : inBars offset)
    {data : List UInt8} (dword : offset % 4 + data.length ≤ 4) :
    Keeps hdr.config
        (barConfig state devNum hdr (barIndex offset)
          (UInt32.ofNat (ofLe data)))
        offset data.length ↔
      BarContained state devNum hdr offset data := by
  obtain ⟨bar, place⟩ := barIndex_inBars inside
  have bits :
      ∀ value index,
        ((hdr.setBar (barIndex offset) value).config index ^^^
            hdr.config index) &&& ~~~ pciConfigWritable index = 0 :=
    fun value index => setBar_bits hdr bar value index
  by_cases whole : data.length = 4
  · refine iff_of_true ?_ (Or.inl whole)
    have bytes :
        ∀ value index, index < offset ∨ offset + data.length ≤ index →
          (hdr.setBar (barIndex offset) value).config index =
            hdr.config index := by
      intro value index outside
      exact setBar_outside hdr _ value (by omega)
    rw [barConfig]
    split
    · exact ⟨bytes _, fun index _ => bits _ index⟩
    · split
      · exact Keeps.refl _ _ _
      · exact ⟨bytes _, fun index _ => bits _ index⟩
  · have narrow : UInt32.ofNat (ofLe data) ≠ 0xffffffff := by
      intro ones
      have small := ofLe_lt data
      have most : 256 ^ data.length ≤ 256 ^ 3 :=
        Nat.pow_le_pow_right (by decide) (by omega)
      have number := congrArg UInt32.toNat ones
      rw [UInt32.toNat_ofNat', Nat.mod_eq_of_lt (by omega)] at number
      have value : (0xffffffff : UInt32).toNat = 4294967295 := rfl
      omega
    rw [barConfig, if_neg narrow, BarContained]
    split
    case isTrue refused =>
      exact iff_of_true (Keeps.refl _ _ _) (Or.inr (Or.inl refused))
    case isFalse accepted =>
      constructor
      · intro keeps
        exact Or.inr (Or.inr keeps.bytes)
      · rintro (full | refused | same)
        · exact absurd full whole
        · exact absurd refused accepted
        · exact ⟨same, fun index _ => bits _ index⟩

/-! ## The frame of a configuration write -/

/-- The write is passed to `pci_config_bar_wr`. -/
def treatedAsBar (offset len : Nat) : Prop :=
  ¬ (offset < pciStdHeaderSizeof ∧
      ofLe (peek pciConfigWritable offset len) = 0) ∧
    offset ≠ pciCommand ∧ barIndex offset < 6

/-- The condition under which a write keeps to its bytes and bits. -/
def Contained (state : PciState World) (devNum : Nat) (hdr : PciHeader)
    (offset : Nat) (data : List UInt8) : Prop :=
  if offset < pciStdHeaderSizeof ∧
      ofLe (peek pciConfigWritable offset data.length) = 0 then
    True
  else if offset = pciCommand then
    CommandContained hdr data.length
  else if barIndex offset < 6 then
    inBars offset ∧ BarContained state devNum hdr offset data
  else
    ∀ index (inside : index < data.length),
      offset + index < pciStdHeaderSizeof →
      (data[index] ^^^ hdr.config (offset + index)) &&&
        ~~~ pciConfigWritable (offset + index) = 0

theorem keeps_writtenConfig_iff (state : PciState World) (devNum : Nat)
    (hdr : PciHeader) {offset : Nat} {data : List UInt8}
    (nonempty : data ≠ []) (dword : offset % 4 + data.length ≤ 4) :
    (Keeps hdr.config (writtenConfig state devNum hdr offset data) offset
          data.length ∧
        (treatedAsBar offset data.length → inBars offset)) ↔
      Contained state devNum hdr offset data := by
  rw [writtenConfig, Contained]
  by_cases masked :
      offset < pciStdHeaderSizeof ∧
        ofLe (peek pciConfigWritable offset data.length) = 0
  · rw [if_pos masked, if_pos masked]
    refine iff_of_true ⟨Keeps.refl _ _ _, ?_⟩ trivial
    intro treated
    exact absurd masked treated.1
  · rw [if_neg masked, if_neg masked]
    by_cases command : offset = pciCommand
    · rw [if_pos command, if_pos command]
      subst command
      rw [keeps_command_iff hdr nonempty]
      refine and_iff_left ?_
      intro treated
      exact absurd rfl treated.2.1
    · rw [if_neg command, if_neg command]
      by_cases bar : barIndex offset < 6
      · rw [if_pos bar, if_pos bar]
        have treated : treatedAsBar offset data.length :=
          ⟨masked, command, bar⟩
        constructor
        · rintro ⟨keeps, inside⟩
          have here := inside treated
          exact ⟨here, (keeps_bar_iff state devNum hdr here dword).mp keeps⟩
        · rintro ⟨here, contained⟩
          exact
            ⟨(keeps_bar_iff state devNum hdr here dword).mpr contained,
              fun _ => here⟩
      · rw [if_neg bar, if_neg bar, keeps_poke_iff]
        refine and_iff_left ?_
        intro treated
        exact absurd treated.2.2 bar

section Frame

variable (arch : PciArch)

/--
A write changes the addressed bytes of one header only, in the standard
header only their writable bits, and only the BARs are treated as BARs.
-/
structure Framed (state : PciState World) (address : UInt32)
    (data : List UInt8) : Prop where
  others :
    ∀ other, other ≠ arch.deviceNumber address →
      (pciConfigWr arch state address data).configOf other =
        state.configOf other
  header :
    ∀ before after,
      state.configOf (arch.deviceNumber address) = some before →
      (pciConfigWr arch state address data).configOf
          (arch.deviceNumber address) = some after →
      Keeps before after (arch.configOffset address) data.length
  bars :
    pciDeviceExists arch state (arch.busNumber address)
        (arch.deviceNumber address) 0 = true →
      treatedAsBar (arch.configOffset address) data.length →
      inBars (arch.configOffset address)

/--
A configuration write keeps to its frame exactly when it reaches no device,
or is contained: the command register has no bit that is not writable, and
an empty upper byte if only its lower one is written; a BAR is written as a
whole, or refuses the move, or has the same other bytes anyway; and a plain
copy leaves the read-only bits as they were.
-/
theorem config_write_framed_iff (state : PciState World)
    (address : UInt32) {data : List UInt8}
    (width : data.length = 1 ∨ data.length = 2 ∨ data.length = 4)
    (dword : arch.configOffset address % 4 + data.length ≤ 4) :
    Framed arch state address data ↔
      ∀ device, state.devices (arch.deviceNumber address) = some device →
        pciDeviceExists arch state (arch.busNumber address)
            (arch.deviceNumber address) 0 = true →
        Contained state (arch.deviceNumber address) device.hdr
          (arch.configOffset address) data := by
  have nonempty : data ≠ [] := by
    rintro rfl
    simp at width
  by_cases present :
      pciDeviceExists arch state (arch.busNumber address)
        (arch.deviceNumber address) 0 = true
  · have run :
        pciConfigWr arch state address data =
          deviceConfigWr state (arch.deviceNumber address)
            (arch.configOffset address) data :=
      if_pos present
    constructor
    · rintro ⟨-, header, bars⟩ device found -
      have before :
          state.configOf (arch.deviceNumber address) =
            some device.hdr.config := by
        rw [PciState.configOf, found]
        rfl
      have after := configOf_deviceConfigWr found
        (arch.configOffset address) data
      rw [run] at header
      exact
        (keeps_writtenConfig_iff state _ device.hdr nonempty dword).mp
          ⟨header _ _ before after, bars present⟩
    · intro contained
      refine ⟨?_, ?_, ?_⟩
      · intro other different
        rw [run]
        exact configOf_deviceConfigWr_of_ne state different _ _
      · intro before after beforeBytes afterBytes
        obtain ⟨device, found, rfl⟩ := exists_of_configOf beforeBytes
        rw [run, configOf_deviceConfigWr found, Option.some.injEq]
          at afterBytes
        rw [← afterBytes]
        exact
          ((keeps_writtenConfig_iff state _ device.hdr nonempty
            dword).mpr (contained device found present)).1
      · intro _ treated
        obtain ⟨device, found⟩ :
            ∃ device,
              state.devices (arch.deviceNumber address) =
                some device := by
          rw [pciDeviceExists, Bool.and_eq_true,
            Option.isSome_iff_exists] at present
          exact present.2
        exact
          ((keeps_writtenConfig_iff state _ device.hdr nonempty
            dword).mpr (contained device found present)).2 treated
  · have run : pciConfigWr arch state address data = state :=
      if_neg present
    refine iff_of_true ⟨?_, ?_, ?_⟩ ?_
    · intro other _
      rw [run]
    · intro before after beforeBytes afterBytes
      rw [run, beforeBytes, Option.some.injEq] at afterBytes
      rw [afterBytes]
      exact Keeps.refl _ _ _
    · intro found
      exact absurd found present
    · intro device _ found
      exact absurd found present

end Frame

/-- `pci_config_address_bits` is zero and there is one device. -/
def singleDevice (config : Nat → UInt8) : PciState Unit where
  configAddressBits := 0
  devices := fun devNum =>
    if devNum = 0 then
      some
        { hdr :=
            { config := config, barSize := fun _ => 0,
              barActive := fun _ => false }
          barActivate := fun world _ _ _ => (0, world)
          barDeactivate := fun world _ _ _ => (0, world)
          data := 0 }
    else
      none
  devNum := 1
  world := ()

/-- The interrupt line is one byte. -/
theorem config_write_framed_on_interrupt_line :
    Framed ⟨false, 0⟩ (singleDevice fun _ => 0) 0x3c [11] := by
  refine
    (config_write_framed_iff ⟨false, 0⟩ _ 0x3c (Or.inl rfl)
      (by decide)).mpr ?_
  intro device found _
  cases found
  rw [Contained, if_neg (by decide), if_neg (by decide),
    if_neg (by decide)]
  intro index inside _
  obtain rfl : index = 0 := Nat.lt_one_iff.mp inside
  have writable :
      ~~~ pciConfigWritable (PciArch.configOffset ⟨false, 0⟩ 0x3c + 0) =
        0 := by
    decide
  rw [writable, UInt8.and_zero]

/--
INTx is disabled (bit 10 of the command register), and the guest writes the
lower byte of the register.
-/
theorem command_byte_write_clears_upper_byte :
    ¬ Framed ⟨false, 0⟩
        (singleDevice
          (poke (fun _ => 0) pciCommand [0x07, 0x04])) 0x04 [0x07] := by
  intro framed
  have kept :=
    (framed.header _ _ rfl rfl).bytes (pciCommand + 1)
      (Or.inr (by decide))
  revert kept
  decide

end Kemu.Init.Pci
