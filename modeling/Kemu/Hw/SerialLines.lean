import Kemu.Hw.SerialReceive

/-!
# The interrupt lines of the serial ports

The first and the third port share one interrupt line, the second and the
fourth another.  Each port drives its line by its own state alone: when the
last condition of one port goes away, the line goes low, also when the other
port still has one.
-/

namespace Kemu.Hw.SerialLines

open Kemu.Hw.Serial
open Kemu.Hw.SerialBuffers
open Kemu.Hw.SerialReceive
open Kemu.Lib.Flags
open Kemu.Lib.Transition

/-! ## Levels and conditions -/

/-- A port has an interrupt condition that is enabled and pending. -/
def Pending (dev : Serial8250Device) : Prop :=
  (dev.ier &&& uartIerRdi ≠ 0 ∧ dev.lsr &&& uartLsrDr ≠ 0) ∨
    (dev.ier &&& uartIerThri ≠ 0 ∧ dev.lsr &&& uartLsrTemt ≠ 0)

instance : DecidablePred Pending :=
  fun dev => by unfold Pending; infer_instance

/-- The other port on the line. -/
def partner : Fin 4 → Fin 4
  | 0 => 2
  | 1 => 3
  | 2 => 0
  | 3 => 1

/-- A line is high exactly when one of its two ports has a condition. -/
def LinesRight (state : SerialState) : Prop :=
  (state.lines 4 = true ↔
      Pending (state.devices 0) ∨ Pending (state.devices 2)) ∧
    (state.lines 3 = true ↔
      Pending (state.devices 1) ∨ Pending (state.devices 3))

/--
An access that takes the last condition from a port that has one: the
interrupts are disabled, or the last byte is read or, through LCR, cleared
while only its arrival is a condition.
-/
def Quiets (dev : Serial8250Device) : PortAccess → Prop
  | .out offset data =>
      (offset = uartIer ∧ dev.lcr &&& uartLcrDlab = 0 ∧
          data &&& uartIerThri = 0 ∧
          (data &&& uartIerRdi = 0 ∨ dev.rxdone = dev.rxcnt)) ∨
        (offset = uartLcr ∧ data &&& uartFcrClearRcvr ≠ 0 ∧
          dev.ier &&& uartIerThri = 0)
  | .in offset =>
      offset = uartRx ∧ dev.lcr &&& uartLcrDlab = 0 ∧
        dev.ier &&& uartIerThri = 0 ∧ dev.lsr &&& uartLsrBi = 0 ∧
        dev.rxdone + 1 = dev.rxcnt
  | .console _ => False

/--
No port loses its last condition while the other port on the line has one.
-/
def Undisturbed (state : SerialState) : SerialInput → Prop
  | .injectSysrq _ => True
  | .access port access =>
      Pending (state.devices port) →
        Pending (state.devices (partner port)) →
          ¬ Quiets (state.devices port) access

/-! ## What an update does to the line -/

section Update

variable {dev new : Serial8250Device}

theorem pendingIir_ne_zero_iff : pendingIir dev ≠ 0 ↔ Pending dev := by
  rw [pendingIir, Pending]
  split
  case isTrue rdi =>
    refine iff_of_true ?_ (Or.inl rdi)
    split <;> decide
  case isFalse noRdi =>
    split
    case isTrue thri => exact iff_of_true (by decide) (Or.inr thri)
    case isFalse noThri =>
      exact iff_of_false (by decide) (not_or.2 ⟨noRdi, noThri⟩)

/-- The event by which a port drives its line, if there is one. -/
def lineEvents (dev : Serial8250Device) (iir : UInt8) : List SerialEvent :=
  if iir = 0 then
    if dev.irqState ≠ 0 then [.irqLine dev.irq false] else []
  else if dev.irqState = 0 then
    [.irqLine dev.irq true]
  else
    []

theorem settings_updateLine (iir : UInt8) :
    settings (updateLine dev iir) =
      { settings dev with
        irqState := iir
        driven := (settings dev).driven ++ lineEvents dev iir } := by
  have recorded (level : Bool) :
      (dev.record (.irqLine dev.irq level)).events.filter drives =
        dev.events.filter drives ++ [.irqLine dev.irq level] := by
    rw [Serial8250Device.record, List.filter_append]
    rfl
  rw [updateLine, lineEvents]
  split
  · split
    · exact congrArg (Settings.mk _ _ _ _) (recorded false)
    · simp [settings]
  · split
    · exact congrArg (Settings.mk _ _ _ _) (recorded true)
    · simp [settings]

theorem settings_clearRx :
    settings (clearRx dev) =
      { settings dev with lcr := (clearRx dev).lcr } := by
  rw [clearRx]
  split <;> rfl

theorem settings_clearTx :
    settings (clearTx dev) =
      { settings dev with lcr := (clearTx dev).lcr } := by
  rw [clearTx]
  split <;> rfl

theorem settings_clear :
    settings (clearTx (clearRx dev)) =
      { settings dev with lcr := (clearTx (clearRx dev)).lcr } := by
  rw [settings_clearTx, settings_clearRx]

/-- The port as its conditions are looked at. -/
theorem pending_updateIrq_iff :
    Pending (serial8250UpdateIrq dev) ↔
      Pending (clearTx (clearRx dev)) := by
  have line (dev : Serial8250Device) (iir : UInt8) :
      (updateLine dev iir).ier = dev.ier ∧
        (updateLine dev iir).lsr = dev.lsr := by
    rw [updateLine]
    split <;> split <;> exact ⟨rfl, rfl⟩
  have updated (iir : UInt8) :
      Pending (updateLine (clearTx (clearRx dev)) iir) ↔
        Pending (clearTx (clearRx dev)) := by
    rw [Pending, (line _ iir).1, (line _ iir).2]
    rfl
  rw [serial8250UpdateIrq]
  split
  case isTrue off =>
    rw [← updated]
    have sent (dev : Serial8250Device) :
        (serial8250FlushTx dev).ier = dev.ier ∧
          (serial8250FlushTx dev).lsr =
            dev.lsr ||| (uartLsrTemt ||| uartLsrThre) := by
      rw [serial8250FlushTx]
      split <;> exact ⟨rfl, rfl⟩
    rw [Pending, Pending, (sent _).1, (sent _).2, set_other _ (by decide),
      off]
    simp
  case isFalse => exact updated _

/-- The settings after an update, but for LCR. -/
theorem settings_updateIrq :
    { settings (serial8250UpdateIrq dev) with lcr := 0 } =
      { settings dev with
        lcr := 0
        irqState := pendingIir (clearTx (clearRx dev))
        driven :=
          (settings dev).driven ++
            lineEvents dev (pendingIir (clearTx (clearRx dev))) } := by
  have cleared := @settings_clear dev
  have same (iir : UInt8) :
      lineEvents (clearTx (clearRx dev)) iir = lineEvents dev iir := by
    have irq : (clearTx (clearRx dev)).irq = dev.irq :=
      congrArg Settings.irq cleared
    have irqState : (clearTx (clearRx dev)).irqState = dev.irqState :=
      congrArg Settings.irqState cleared
    rw [lineEvents, lineEvents, irq, irqState]
  rw [serial8250UpdateIrq]
  split
  · rw [settings_flushTx, settings_updateLine, cleared, same]
  · rw [settings_updateLine, cleared, same]

theorem foldl_drive_filter (events : List SerialEvent)
    (lines : UInt8 → Bool) :
    events.foldl drive lines = (events.filter drives).foldl drive lines := by
  induction events generalizing lines with
  | nil => rfl
  | cons event rest induction =>
      cases event with
      | irqLine irq level => exact induction _
      | rxStore index byte => exact induction _
      | rxLoad index byte => exact induction _
      | txStore index byte => exact induction _
      | termPutc bytes cnt term => exact induction _
      | neverHappens => exact induction _

/-- What an access leaves of the state behind the line, and of the lines. -/
structure Drives (dev new : Serial8250Device) (access : PortAccess) :
    Prop where
  irq : new.irq = dev.irq
  ier : new.ier = ierWritten dev access
  irqState : new.irqState ≠ 0 ↔ Pending new
  lines :
    ∀ lines, new.events.foldl drive lines =
      if dev.irqState ≠ 0 ↔ Pending new then
        lines
      else
        Function.update lines dev.irq (Pending new)

theorem access_drives (quiet : dev.events = []) (active : Bool)
    (port : Fin 4) (sysrqPending : UInt8) (access : PortAccess) :
    Drives dev (portAccess active port sysrqPending dev access).1
      access := by
  obtain ⟨before, done, same⟩ :=
    @access_updates dev active port sysrqPending access
  rw [done]
  have updated := @settings_updateIrq before
  have condition :
      pendingIir (clearTx (clearRx before)) ≠ 0 ↔
        Pending (serial8250UpdateIrq before) := by
    rw [pendingIir_ne_zero_iff, pending_updateIrq_iff]
  have state : before.irqState = dev.irqState :=
    congrArg Settings.irqState same
  have irq : before.irq = dev.irq := congrArg Settings.irq same
  have events : before.events.filter drives = [] := by
    have kept : before.events.filter drives = dev.events.filter drives :=
      congrArg Settings.driven same
    rw [kept, quiet]
    rfl
  have driven :
      (serial8250UpdateIrq before).events.filter drives =
        lineEvents dev (pendingIir (clearTx (clearRx before))) := by
    have all : (serial8250UpdateIrq before).events.filter drives =
        before.events.filter drives ++
          lineEvents before (pendingIir (clearTx (clearRx before))) :=
      congrArg Settings.driven updated
    rw [all, events, lineEvents, lineEvents, state, irq, List.nil_append]
  have irqState :
      (serial8250UpdateIrq before).irqState =
        pendingIir (clearTx (clearRx before)) :=
    congrArg Settings.irqState updated
  refine ⟨?_, ?_, ?_, ?_⟩
  · exact (congrArg Settings.irq updated).trans irq
  · exact (congrArg Settings.ier updated).trans (congrArg Settings.ier same)
  · rw [irqState]
    exact condition
  · intro lines
    rw [foldl_drive_filter, driven, lineEvents]
    by_cases pending : Pending (serial8250UpdateIrq before)
    · rw [if_neg (condition.2 pending)]
      by_cases idle : dev.irqState = 0
      · rw [if_pos idle, if_neg (fun same => same.2 pending idle)]
        simp [drive, pending]
      · rw [if_neg idle, if_pos (iff_of_true idle pending)]
        rfl
    · rw [if_pos (not_ne_iff.1 (mt condition.1 pending))]
      by_cases idle : dev.irqState = 0
      · rw [if_neg (not_ne_iff.2 idle),
          if_pos (iff_of_false (not_ne_iff.2 idle) pending)]
        rfl
      · rw [if_pos idle, if_neg (fun same => pending (same.1 idle))]
        simp [drive, pending]

end Update

/-! ## When a condition goes away -/

section Quiet

variable {dev new : Serial8250Device}

/-- Of a port whose registers agree with its buffers. -/
theorem pending_iff (sized : Sized dev) :
    Pending dev ↔
      dev.ier &&& uartIerThri ≠ 0 ∨
        (dev.ier &&& uartIerRdi ≠ 0 ∧ contents dev ≠ []) := by
  have ordered := sized.ordered
  have more : contents dev ≠ [] ↔ dev.rxdone < dev.rxcnt := by
    rw [Ne, contents_eq_nil_iff sized]
    omega
  rw [Pending, sized.dataReady, more, and_iff_left sized.temt, or_comm]

/-- Events that take nothing out leave what is there. -/
theorem foldl_expect_ne_nil {events : List SerialEvent}
    (noLoad : ∀ index byte, .rxLoad index byte ∉ events)
    {undelivered : List UInt8} (some : undelivered ≠ []) :
    events.foldl expect undelivered ≠ [] := by
  induction events generalizing undelivered with
  | nil => exact some
  | cons event rest induction =>
      apply induction
      · intro index byte member
        exact noLoad index byte (List.mem_cons_of_mem _ member)
      · cases event with
        | rxLoad index byte =>
            exact absurd List.mem_cons_self (noLoad index byte)
        | rxStore index byte => exact List.append_ne_nil_of_left_ne_nil some _
        | txStore index byte => exact some
        | termPutc bytes cnt term => exact some
        | irqLine irq level => exact some
        | neverHappens => exact some

/-- When a read takes the last byte. -/
theorem rx_empties_iff (sized : Sized dev) (some : contents dev ≠ []) :
    contents (serial8250Rx dev).1 = [] ↔
      dev.lsr &&& uartLsrBi = 0 ∧ dev.rxdone + 1 = dev.rxcnt := by
  rw [Ne, contents_eq_nil_iff sized] at some
  have sound : Sized (serial8250Rx dev).1 := by
    refine ⟨sized.toBuffersSound.rx, ?_⟩
    rcases rx_takes sized with still | ⟨byte, -, -, -, size⟩
    · exact still.2.1.trans sized.size
    · exact size.trans sized.size
  rw [contents_eq_nil_iff sound, serial8250Rx, if_neg some]
  split
  case isTrue broken =>
    exact iff_of_false some (fun both => broken both.1)
  case isFalse whole =>
    rw [and_iff_right (not_ne_iff.1 whole)]
    dsimp only
    split
    case isTrue last => exact iff_of_true rfl last.symm
    case isFalse => rfl

/-- A read from another register takes nothing out. -/
theorem readRegister_other {offset : UInt16} {data : Option UInt8}
    (other : ¬ (offset = uartRx ∧ dev.lcr &&& uartLcrDlab = 0))
    (known : readRegister dev offset = some (new, data)) : new = dev := by
  unfold readRegister at known
  split at known
  case h_1 =>
    have set : dev.lcr &&& uartLcrDlab ≠ 0 :=
      fun clear => other ⟨rfl, clear⟩
    rw [if_pos set] at known
    cases known
    rfl
  case h_2 =>
    split at known
    · cases known
      rfl
    · cases known
      rfl
  case h_9 => cases known
  all_goals
    cases known
    rfl

/-- A port that keeps its bytes and its interrupts keeps its condition. -/
theorem pending_kept (sized : Sized dev) (after : Sized new)
    (ier : new.ier = dev.ier)
    (kept : contents dev ≠ [] → contents new ≠ [])
    (pending : Pending dev) : Pending new := by
  rw [pending_iff sized] at pending
  rw [pending_iff after, ier]
  exact pending.imp_right fun both => ⟨both.1, kept both.2⟩

/-- A port without the receive interrupt, or with the last byte taken. -/
theorem pending_emptied_iff (after : Sized new)
    (ier : new.ier = dev.ier) (empty : contents new = []) :
    Pending new ↔ dev.ier &&& uartIerThri ≠ 0 := by
  rw [pending_iff after, ier, empty]
  simp

variable (sized : Sized dev) (quiet : dev.events = [])
  (clear : dev.lcr &&& uartFcrClearRcvr = 0) (active : Bool)
  (port : Fin 4) (sysrqPending : UInt8)

include sized quiet clear

theorem access_sized (access : PortAccess) :
    Sized (portAccess active port sysrqPending dev access).1 := by
  refine ⟨sized.toBuffersSound.access .., ?_⟩
  by_cases set : lcrWritten dev.lcr access &&& uartFcrClearRcvr = 0
  · exact
      (access_delivers sized quiet clear set active port
        sysrqPending).size.trans sized.size
  · exact
      (access_empties quiet set clear active port
        sysrqPending).size.trans sized.size

/-- A write or the console takes nothing out, except through LCR. -/
theorem contents_kept {access : PortAccess}
    (kept : lcrWritten dev.lcr access &&& uartFcrClearRcvr = 0)
    (noRead :
      (portAccess active port sysrqPending dev access).2.2 = none)
    (some : contents dev ≠ []) :
    contents (portAccess active port sysrqPending dev access).1 ≠ [] := by
  have delivers :=
    access_delivers sized quiet clear kept active port sysrqPending
  rw [delivers.contents]
  refine foldl_expect_ne_nil ?_ some
  intro index byte member
  have taken := (delivers.loads index byte member).1
  rw [noRead] at taken
  cases taken

/-- Which writes take the last condition away. -/
theorem out_pending_iff (offset : UInt16) (data : UInt8)
    (pending : Pending dev) :
    Pending
        (portAccess active port sysrqPending dev (.out offset data)).1 ↔
      ¬ Quiets dev (.out offset data) := by
  have after :=
    access_sized sized quiet clear active port sysrqPending
      (.out offset data)
  have drives :=
    access_drives quiet active port sysrqPending (.out offset data)
  by_cases set :
      lcrWritten dev.lcr (.out offset data) &&& uartFcrClearRcvr = 0
  · by_cases enables : offset = uartIer ∧ dev.lcr &&& uartLcrDlab = 0
    · have ier := drives.ier
      rw [ierWritten, if_pos enables] at ier
      obtain ⟨rfl, off⟩ := enables
      have written :
          writeRegister dev uartIer data =
            some { dev with ier := data &&& 0x0f } :=
        if_pos off
      have same :
          contents
              (portAccess active port sysrqPending dev
                (.out uartIer data)).1 =
            contents dev := by
        rw [portAccess, serial8250Out, written]
        exact
          (@still_updateIrq { dev with ier := data &&& 0x0f }
            clear).1
      have thri : (0x0f : UInt8) &&& uartIerThri = uartIerThri := by
        decide
      have rdi : (0x0f : UInt8) &&& uartIerRdi = uartIerRdi := by
        decide
      have empty := contents_eq_nil_iff sized
      rw [pending_iff after, ier, same, UInt8.and_assoc, UInt8.and_assoc,
        thri, rdi, Quiets]
      have noLcr : ¬ uartIer = uartLcr := by
        decide
      tauto
    · have ier := drives.ier
      rw [ierWritten, if_neg enables] at ier
      refine iff_of_true ?_ ?_
      · exact
          pending_kept sized after ier
            (contents_kept sized quiet clear active port sysrqPending set
              rfl) pending
      · rintro (⟨same, off, -⟩ | ⟨rfl, bit, -⟩)
        · exact enables ⟨same, off⟩
        · exact bit set
  · have empties := access_empties quiet set clear active port sysrqPending
    have lcr : offset = uartLcr := by
      by_contra other
      rw [lcrWritten, if_neg other] at set
      exact set clear
    subst lcr
    rw [pending_emptied_iff after drives.ier empties.contents, Quiets]
    have bit : data &&& uartFcrClearRcvr ≠ 0 := set
    have noIer : ¬ uartLcr = uartIer := by
      decide
    tauto

/-- Which reads do. -/
theorem in_pending_iff (offset : UInt16) (pending : Pending dev) :
    Pending (portAccess active port sysrqPending dev (.in offset)).1 ↔
      ¬ Quiets dev (.in offset) := by
  have after :=
    access_sized sized quiet clear active port sysrqPending (.in offset)
  have ier :
      (portAccess active port sysrqPending dev (.in offset)).1.ier =
        dev.ier :=
    (access_drives quiet active port sysrqPending (.in offset)).ier
  by_cases read : offset = uartRx ∧ dev.lcr &&& uartLcrDlab = 0
  · obtain ⟨rfl, off⟩ := read
    have known : readRegister dev uartRx = some (serial8250Rx dev) :=
      if_neg (not_ne_iff.2 off)
    have same :
        contents
            (portAccess active port sysrqPending dev (.in uartRx)).1 =
          contents (serial8250Rx dev).1 := by
      have lcr : (serial8250Rx dev).1.lcr = dev.lcr :=
        congrArg Settings.lcr settings_rx
      rw [portAccess, serial8250In, known]
      exact (still_updateIrq (lcr.symm ▸ clear)).1
    by_cases some : contents dev = []
    · have thri : dev.ier &&& uartIerThri ≠ 0 :=
        ((pending_iff sized).1 pending).resolve_right
          fun both => both.2 some
      refine iff_of_true ?_ fun quiets => thri quiets.2.2.1
      rw [pending_iff after, ier]
      exact Or.inl thri
    · have empties := rx_empties_iff sized some
      rw [pending_iff sized] at pending
      rw [pending_iff after, ier, same, Quiets]
      tauto
  · have kept :
        contents
            (portAccess active port sysrqPending dev (.in offset)).1 =
          contents dev := by
      rw [portAccess, serial8250In]
      cases known : readRegister dev offset with
      | none => exact (still_updateIrq clear).1
      | some got =>
          have same := readRegister_other read known
          exact same ▸ (still_updateIrq clear).1
    refine iff_of_true ?_ fun quiets => read ⟨quiets.1, quiets.2.1⟩
    exact pending_kept sized after ier (fun some => kept.symm ▸ some) pending

/-- An access takes the last condition away exactly when it quiets. -/
theorem access_pending_iff (access : PortAccess) (pending : Pending dev) :
    Pending (portAccess active port sysrqPending dev access).1 ↔
      ¬ Quiets dev access := by
  cases access with
  | out offset data =>
      exact
        out_pending_iff sized quiet clear active port sysrqPending offset
          data pending
  | «in» offset =>
      exact
        in_pending_iff sized quiet clear active port sysrqPending offset
          pending
  | console readable =>
      refine iff_of_true ?_ id
      exact
        pending_kept sized
          (access_sized sized quiet clear active port sysrqPending _)
          (access_drives quiet active port sysrqPending _).ier
          (contents_kept sized quiet clear active port sysrqPending clear
            rfl) pending

end Quiet

/-! ## Whole runs -/

/-- Each port's own state, and the level of each line. -/
structure LinesInvariant (state : SerialState) : Prop where
  sized : ∀ port, Sized (state.devices port)
  clear :
    ∀ port, (state.devices port).lcr &&& uartFcrClearRcvr = 0
  irq : ∀ port, (state.devices port).irq = serialIrq port
  irqState :
    ∀ port, (state.devices port).irqState ≠ 0 ↔
      Pending (state.devices port)
  level :
    ∀ port, state.lines (serialIrq port) = true ↔
      Pending (state.devices port) ∨
        Pending (state.devices (partner port))

section Runs

variable {active : Bool} {state : SerialState} {port : Fin 4}
  {access : PortAccess}

/-- Both ports of a line say the same of it. -/
theorem linesRight_iff :
    LinesRight state ↔
      ∀ port, state.lines (serialIrq port) = true ↔
        Pending (state.devices port) ∨
          Pending (state.devices (partner port)) := by
  constructor
  · rintro ⟨four, three⟩ port
    match port with
    | 0 => exact four
    | 1 => exact three
    | 2 => exact four.trans or_comm
    | 3 => exact three.trans or_comm
  · intro every
    exact ⟨every 0, every 1⟩

/-- The ports on the line of a port are the port and its partner. -/
theorem serialIrq_eq_iff : ∀ port other : Fin 4,
    serialIrq other = serialIrq port ↔
      other = port ∨ other = partner port := by
  decide

theorem partner_ne : ∀ port : Fin 4, partner port ≠ port := by
  decide

theorem partner_partner : ∀ port : Fin 4,
    partner (partner port) = port := by
  decide

theorem LinesInvariant.quiet (holds : LinesInvariant state)
    (port : Fin 4) : Sized (state.quiet port) where
  toBuffersSound := (holds.sized port).of_same nofun
  size := (holds.sized port).size

theorem LinesInvariant.drives (holds : LinesInvariant state) :
    Drives (state.quiet port) (accessed active state port access).1
      access ∧
      (serialStep active state (.access port access)).lines =
        if Pending (state.devices port) ↔
            Pending (accessed active state port access).1 then
          state.lines
        else
          Function.update state.lines (serialIrq port)
            (Pending (accessed active state port access).1) := by
  have drives :=
    @access_drives (state.quiet port) rfl active port state.sysrqPending
      access
  refine ⟨drives, ?_⟩
  have before :
      (state.quiet port).irqState ≠ 0 ↔ Pending (state.devices port) :=
    holds.irqState port
  have irq : (state.quiet port).irq = serialIrq port := holds.irq port
  have lines := drives.lines state.lines
  simp only [before, irq] at lines
  exact lines

/-- Whether a port other than the accessed one has a condition. -/
theorem pending_other {other : Fin 4} (different : other ≠ port) :
    Pending
        ((serialStep active state (.access port access)).devices other) ↔
      Pending (state.devices other) := by
  rw [serialStep_other different]

/-- The levels after an access that disturbs no line. -/
theorem LinesInvariant.level_step (holds : LinesInvariant state)
    (undisturbed : Undisturbed state (.access port access))
    (other : Fin 4) :
    (serialStep active state (.access port access)).lines
        (serialIrq other) = true ↔
      Pending
          ((serialStep active state (.access port access)).devices other) ∨
        Pending
          ((serialStep active state (.access port access)).devices
            (partner other)) := by
  have self := @serialStep_self active state port access
  have gone (pending : Pending (state.devices port)) :
      Pending (accessed active state port access).1 ↔
        ¬ Quiets (state.quiet port) access :=
    access_pending_iff (holds.quiet port) rfl (holds.clear port) active
      port state.sysrqPending access pending
  have level := holds.level other
  rw [holds.drives.2]
  by_cases online : other = port ∨ other = partner port
  · have both :
        (Pending
              ((serialStep active state (.access port access)).devices
                other) ∨
            Pending
              ((serialStep active state (.access port access)).devices
                (partner other)) ↔
          Pending (accessed active state port access).1 ∨
            Pending (state.devices (partner port))) ∧
        (Pending (state.devices other) ∨
            Pending (state.devices (partner other)) ↔
          Pending (state.devices port) ∨
            Pending (state.devices (partner port))) := by
      rcases online with rfl | rfl
      · rw [self, pending_other (partner_ne other)]
        exact ⟨Iff.rfl, Iff.rfl⟩
      · rw [partner_partner, self, pending_other (partner_ne port)]
        exact ⟨or_comm, or_comm⟩
    have line : serialIrq other = serialIrq port :=
      (serialIrq_eq_iff port other).2 online
    rw [both.1]
    rw [both.2] at level
    split
    case isTrue same =>
      rw [level, same]
    case isFalse changed =>
      rw [line, Function.update_self, decide_eq_true_iff]
      refine ⟨Or.inl, ?_⟩
      rintro (still | shared)
      · exact still
      · by_contra low
        have pending : Pending (state.devices port) := by
          by_contra before
          exact changed (iff_of_false before low)
        exact low ((gone pending).2 (undisturbed pending shared))
  · have away := not_or.1 online
    have line : serialIrq other ≠ serialIrq port :=
      fun same => online ((serialIrq_eq_iff port other).1 same)
    have apart : partner other ≠ port := by
      rintro rfl
      exact away.2 (partner_partner other).symm
    rw [pending_other away.1, pending_other apart]
    split
    · exact level
    · rw [Function.update_of_ne line]
      exact level

theorem LinesInvariant.step (holds : LinesInvariant state)
    (undisturbed : Undisturbed state (.access port access)) :
    LinesInvariant (serialStep active state (.access port access)) where
  sized other := by
    by_cases same : other = port
    · rw [same, serialStep_self]
      exact access_sized (holds.quiet port) rfl (holds.clear port) ..
    · rw [serialStep_other same]
      exact holds.sized other
  clear other := by
    by_cases same : other = port
    · have order : clearBits = uartFcrClearXmit ||| uartFcrClearRcvr := rfl
      rw [same, serialStep_self, accessed, access_lcr, order, ← clear_clear,
        clear_self]
    · rw [serialStep_other same]
      exact holds.clear other
  irq other := by
    by_cases same : other = port
    · rw [same, serialStep_self]
      exact (holds.drives.1.irq).trans (holds.irq port)
    · rw [serialStep_other same]
      exact holds.irq other
  irqState other := by
    by_cases same : other = port
    · rw [same, serialStep_self]
      exact holds.drives.1.irqState
    · rw [serialStep_other same]
      exact holds.irqState other
  level := holds.level_step undisturbed

/-- The line goes low under the other port. -/
theorem LinesInvariant.disturbed (holds : LinesInvariant state)
    (disturbed : ¬ Undisturbed state (.access port access)) :
    ¬ LinesRight (serialStep active state (.access port access)) := by
  rw [Undisturbed, Classical.not_imp, Classical.not_imp, not_not]
    at disturbed
  obtain ⟨pending, shared, quiets⟩ := disturbed
  have gone : ¬ Pending (accessed active state port access).1 := by
    have iff :=
      access_pending_iff (holds.quiet port) rfl (holds.clear port) active
        port state.sysrqPending access pending
    exact fun still => iff.1 still quiets
  rw [linesRight_iff]
  intro right
  have level := (right port).2 <| Or.inr <| by
    rwa [pending_other (partner_ne port)]
  rw [holds.drives.2, if_neg (fun same => gone (same.1 pending)),
    Function.update_self, decide_eq_true_iff] at level
  exact gone level

end Runs

theorem serialStart_idle (port : Fin 4) :
    ¬ Pending (serialStart.devices port) := by
  rintro (⟨enabled, -⟩ | ⟨enabled, -⟩)
  · exact enabled (UInt8.zero_and ..)
  · exact enabled (UInt8.zero_and ..)

theorem serialStart_lines : LinesInvariant serialStart where
  sized port := ⟨serialStart_sound port, rfl⟩
  clear _ := UInt8.zero_and ..
  irq _ := rfl
  irqState port :=
    iff_of_false (fun raised => raised rfl) (serialStart_idle port)
  level port :=
    iff_of_false nofun
      (not_or.2 ⟨serialStart_idle port, serialStart_idle _⟩)

/--
Both lines have the right level in every state of a run exactly when no
access takes the last condition from a port while the other port on its line
has one.
-/
theorem lines_right_iff (active : Bool) (inputs : List SerialInput) :
    Throughout (serialStep active) LinesRight serialStart inputs ↔
      Along (serialStep active) Undisturbed serialStart inputs := by
  have kept :
      ∀ state input, LinesInvariant state → Undisturbed state input →
        LinesInvariant (serialStep active state input) := by
    intro state input holds undisturbed
    cases input with
    | injectSysrq sysrq =>
        exact
          ⟨holds.sized, holds.clear, holds.irq, holds.irqState,
            holds.level⟩
    | access port access => exact holds.step undisturbed
  have broken :
      ∀ state input, LinesInvariant state → ¬ Undisturbed state input →
        ¬ LinesRight (serialStep active state input) := by
    intro state input holds disturbed
    cases input with
    | injectSysrq sysrq => exact absurd trivial disturbed
    | access port access => exact holds.disturbed disturbed
  exact
    throughout_iff_along (fun _ holds => linesRight_iff.2 holds.level) kept
      broken serialStart_lines inputs

/--
The transmit interrupt is enabled on the first and the third port, and
disabled on the third.
-/
def sharedLine : List SerialInput :=
  [.access 0 (.out uartIer uartIerThri),
    .access 2 (.out uartIer uartIerThri),
    .access 2 (.out uartIer 0)]

/-- The line is low, and the first port has a condition. -/
theorem shared_line_goes_low :
    ((run (serialStep true) serialStart sharedLine).lines 4 = false ∧
      Pending
        ((run (serialStep true) serialStart sharedLine).devices 0)) ∧
    ¬ Throughout (serialStep true) LinesRight serialStart sharedLine := by
  have low :
      (run (serialStep true) serialStart sharedLine).lines 4 = false ∧
        Pending
          ((run (serialStep true) serialStart sharedLine).devices 0) := by
    decide +kernel
  refine ⟨low, ?_⟩
  rintro ⟨-, -, -, right⟩
  have high := right.1.2 (Or.inl low.2)
  rw [show serialStep true _ _ = run (serialStep true) serialStart
    sharedLine from rfl, low.1] at high
  cases high

end Kemu.Hw.SerialLines
