import Kemu.Hw.Serial
import Kemu.Lib.Flags
import Kemu.Lib.Transition

/-!
# The buffers of a serial port

However guest accesses, loopback, console input and system requests follow
one another, the counters of both buffers stay inside them, the status bits
agree with the counters, and the transmit buffer is empty after each access.
-/

namespace Kemu.Hw.SerialBuffers

open Kemu.Hw.Serial
open Kemu.Lib.Flags
open Kemu.Lib.Transition

/-! ## What is expected of a port -/

/-- No buffer is read or written outside of its bytes. -/
def Inside : SerialEvent → Prop
  | .rxStore index _ => 0 ≤ index ∧ index < fifoLen
  | .rxLoad index _ => 0 ≤ index ∧ index < fifoLen
  | .txStore index _ => 0 ≤ index ∧ index < fifoLen
  | .termPutc _ cnt _ => 0 ≤ cnt ∧ cnt ≤ fifoLen
  | .irqLine _ _ => True
  | .neverHappens => False

/-- The receive buffer, its status bit, and the accesses made. -/
structure RxSound (dev : Serial8250Device) : Prop where
  rxdone : 0 ≤ dev.rxdone
  ordered : dev.rxdone ≤ dev.rxcnt
  rxcnt : dev.rxcnt ≤ fifoLen
  dataReady : dev.lsr &&& uartLsrDr ≠ 0 ↔ dev.rxdone < dev.rxcnt
  inside : ∀ event ∈ dev.events, Inside event

/-- The receive buffer is as it should be, and nothing is left to send. -/
structure BuffersSound (dev : Serial8250Device) : Prop
    extends RxSound dev where
  txcnt : dev.txcnt = 0
  temt : dev.lsr &&& uartLsrTemt ≠ 0
  thre : dev.lsr &&& uartLsrThre ≠ 0

/-- All four ports. -/
def PortsSound (state : SerialState) : Prop :=
  ∀ port, BuffersSound (state.devices port)

/-! ## The parts of an access -/

section Parts

variable {dev new : Serial8250Device}

theorem empty_fits : 0 ≤ fifoLen := by
  decide

/-- The other registers do not matter. -/
theorem BuffersSound.of_same (sound : BuffersSound dev)
    (inside : ∀ event ∈ new.events, Inside event := by exact sound.inside)
    (lsr : new.lsr = dev.lsr := by rfl)
    (txcnt : new.txcnt = dev.txcnt := by rfl)
    (rxdone : new.rxdone = dev.rxdone := by rfl)
    (rxcnt : new.rxcnt = dev.rxcnt := by rfl) :
    BuffersSound new where
  rxdone := rxdone ▸ sound.rxdone
  ordered := rxdone ▸ rxcnt ▸ sound.ordered
  rxcnt := rxcnt ▸ sound.rxcnt
  dataReady := by
    rw [lsr, rxdone, rxcnt]
    exact sound.dataReady
  inside := inside
  txcnt := txcnt ▸ sound.txcnt
  temt := lsr ▸ sound.temt
  thre := lsr ▸ sound.thre

theorem inside_record {event : SerialEvent}
    (inside : ∀ earlier ∈ dev.events, Inside earlier)
    (last : Inside event) :
    ∀ earlier ∈ (dev.record event).events, Inside earlier := by
  intro earlier member
  rcases List.mem_append.1 member with before | same
  · exact inside earlier before
  · rw [List.mem_singleton.1 same]
    exact last

theorem RxSound.flush (sound : RxSound dev) (begun : 0 ≤ dev.txcnt)
    (fits : dev.txcnt ≤ fifoLen) :
    BuffersSound (serial8250FlushTx dev) := by
  have dataReady :
      (dev.lsr ||| (uartLsrTemt ||| uartLsrThre)) &&& uartLsrDr ≠ 0 ↔
        dev.rxdone < dev.rxcnt := by
    rw [set_other _ (by decide)]
    exact sound.dataReady
  have temt :
      (dev.lsr ||| (uartLsrTemt ||| uartLsrThre)) &&& uartLsrTemt ≠ 0 := by
    rw [UInt8.or_comm uartLsrTemt, ← UInt8.or_assoc, set_self]
    decide
  have thre :
      (dev.lsr ||| (uartLsrTemt ||| uartLsrThre)) &&& uartLsrThre ≠ 0 := by
    rw [← UInt8.or_assoc, set_self]
    decide
  rw [serial8250FlushTx]
  split
  · exact
      { sound with
        dataReady := dataReady
        inside := inside_record sound.inside ⟨begun, fits⟩
        txcnt := rfl
        temt := temt
        thre := thre }
  case isFalse empty =>
    exact
      { sound with
        dataReady := dataReady
        txcnt := not_ne_iff.1 empty
        temt := temt
        thre := thre }

theorem BuffersSound.flush (sound : BuffersSound dev) :
    BuffersSound (serial8250FlushTx dev) :=
  sound.toRxSound.flush (sound.txcnt ▸ Int.le_refl 0)
    (sound.txcnt ▸ by decide)

theorem BuffersSound.clearRx (sound : BuffersSound dev) :
    BuffersSound (clearRx dev) := by
  rw [Serial.clearRx]
  split
  · exact
      { rxdone := Int.le_refl 0
        ordered := Int.le_refl 0
        rxcnt := empty_fits
        dataReady := by simp
        inside := sound.inside
        txcnt := sound.txcnt
        temt := by
          rw [clear_other _ (by decide)]
          exact sound.temt
        thre := by
          rw [clear_other _ (by decide)]
          exact sound.thre }
  · exact sound

/-- Clearing an empty transmit buffer does what sending it does. -/
theorem BuffersSound.clearTx (sound : BuffersSound dev) :
    BuffersSound (clearTx dev) := by
  rw [Serial.clearTx]
  split
  · have flushed := sound.flush
    rw [serial8250FlushTx, if_neg (not_ne_iff.2 sound.txcnt)] at flushed
    exact flushed.of_same flushed.inside rfl sound.txcnt.symm
  · exact sound

theorem BuffersSound.updateLine (sound : BuffersSound dev) (iir : UInt8) :
    BuffersSound (updateLine dev iir) := by
  have driven (level : Bool) :
      BuffersSound (dev.record (.irqLine dev.irq level)) :=
    sound.of_same (inside_record sound.inside trivial)
  rw [Serial.updateLine]
  split
  · split
    · exact (driven false).of_same (driven false).inside
    · exact sound.of_same
  · split
    · exact (driven true).of_same (driven true).inside
    · exact sound.of_same

theorem BuffersSound.updateIrq (sound : BuffersSound dev) :
    BuffersSound (serial8250UpdateIrq dev) := by
  have updated :=
    sound.clearRx.clearTx.updateLine
      (pendingIir (Serial.clearTx (Serial.clearRx dev)))
  rw [serial8250UpdateIrq]
  split
  · exact updated.flush
  · exact updated

/-- A byte is put behind those in the buffer. -/
theorem BuffersSound.receiveByte (sound : BuffersSound dev)
    (room : dev.rxcnt < fifoLen) (byte : UInt8) :
    BuffersSound (receiveByte dev byte) where
  rxdone := sound.rxdone
  ordered := Int.le_trans sound.ordered (Int.le_add_one (Int.le_refl _))
  rxcnt := room
  dataReady := by
    have behind : dev.rxdone < dev.rxcnt + 1 :=
      Int.lt_add_one_of_le sound.ordered
    refine iff_of_true ?_ behind
    show (dev.lsr ||| uartLsrDr) &&& uartLsrDr ≠ 0
    rw [set_self]
    decide
  inside :=
    inside_record sound.inside
      ⟨Int.le_trans sound.rxdone sound.ordered, room⟩
  txcnt := sound.txcnt
  temt := by
    show (dev.lsr ||| uartLsrDr) &&& uartLsrTemt ≠ 0
    rw [set_other _ (by decide)]
    exact sound.temt
  thre := by
    show (dev.lsr ||| uartLsrDr) &&& uartLsrThre ≠ 0
    rw [set_other _ (by decide)]
    exact sound.thre

/-- The bits that say what is in the buffers stay. -/
theorem BuffersSound.setLsr (sound : BuffersSound dev) {lsr : UInt8}
    (dataReady : lsr &&& uartLsrDr = dev.lsr &&& uartLsrDr)
    (temt : lsr &&& uartLsrTemt = dev.lsr &&& uartLsrTemt)
    (thre : lsr &&& uartLsrThre = dev.lsr &&& uartLsrThre) :
    BuffersSound { dev with lsr := lsr } :=
  { sound with
    dataReady := dataReady ▸ sound.dataReady
    temt := temt ▸ sound.temt
    thre := thre ▸ sound.thre }

/-- A system request is a byte with a break, which changes no other bit. -/
theorem BuffersSound.setBreak (sound : BuffersSound dev) :
    BuffersSound { dev with lsr := dev.lsr ||| uartLsrBi } :=
  sound.setLsr (set_other _ (by decide)) (set_other _ (by decide))
    (set_other _ (by decide))

theorem BuffersSound.clearBreak (sound : BuffersSound dev) :
    BuffersSound { dev with lsr := dev.lsr &&& ~~~ uartLsrBi } :=
  sound.setLsr (clear_other _ (by decide)) (clear_other _ (by decide))
    (clear_other _ (by decide))

theorem BuffersSound.sysrq (sound : BuffersSound dev)
    (room : dev.rxcnt < fifoLen) (sysrqPending : UInt8) :
    BuffersSound (serial8250Sysrq dev sysrqPending) := by
  have received := (sound.receiveByte room sysrqPending).setBreak
  exact
    received.of_same received.inside (UInt8.or_assoc ..).symm

theorem BuffersSound.receiveLoop (sound : BuffersSound dev)
    (readable : List (Option UInt8)) :
    BuffersSound (receiveLoop dev readable) := by
  induction readable generalizing dev with
  | nil => exact sound
  | cons c readable induction =>
      by_cases room : dev.rxcnt < fifoLen
      · cases c with
        | none => rwa [Serial.receiveLoop, if_pos room]
        | some byte =>
            rw [Serial.receiveLoop, if_pos room]
            exact induction (sound.receiveByte room byte)
      · cases c with
        | none => rwa [Serial.receiveLoop, if_neg room]
        | some byte => rwa [Serial.receiveLoop, if_neg room]

theorem BuffersSound.receive (sound : BuffersSound dev)
    (active handleSysrq : Bool) (sysrqPending : UInt8)
    (readable : List (Option UInt8)) :
    BuffersSound
      (serial8250Receive dev active handleSysrq sysrqPending readable).1 := by
  rw [serial8250Receive]
  split
  · exact sound
  split
  · exact sound
  case isFalse empty =>
    split
    · refine sound.sysrq ?_ sysrqPending
      rw [not_ne_iff.1 (not_or.1 empty).2]
      decide
    split
    · exact sound
    · exact sound.receiveLoop readable

/-- The transmit buffer is empty before, so the byte goes out at once. -/
theorem BuffersSound.transmit (sound : BuffersSound dev) (byte : UInt8) :
    BuffersSound (transmit dev byte) := by
  rw [Serial.transmit]
  split
  · exact sound.of_same
  split
  · split
    case isTrue room => exact sound.receiveByte room byte
    case isFalse => exact sound
  · have one : (Serial.txStore dev byte).txcnt = 1 := by
      show dev.txcnt + 1 = 1
      rw [sound.txcnt]
      rfl
    have few : ¬ (Serial.txStore dev byte).txcnt = fifoLen / 2 := by
      rw [one]
      decide
    rw [if_pos (sound.txcnt ▸ by decide)]
    dsimp only
    rw [if_neg few]
    refine RxSound.flush ?_ (by rw [one]; decide) (by rw [one]; decide)
    exact
      { sound with
        dataReady := by
          show dev.lsr &&& ~~~ uartLsrTemt &&& uartLsrDr ≠ 0 ↔ _
          rw [clear_other _ (by decide)]
          exact sound.dataReady
        inside :=
          inside_record sound.inside
            (sound.txcnt ▸ ⟨Int.le_refl 0, by decide⟩) }

theorem BuffersSound.rx (sound : BuffersSound dev) :
    BuffersSound (serial8250Rx dev).1 := by
  rw [serial8250Rx]
  split
  · exact sound
  case isFalse some =>
    have behind : dev.rxdone < dev.rxcnt :=
      Int.lt_iff_le_and_ne.2 ⟨sound.ordered, some⟩
    have inside :=
      @inside_record dev
        (.rxLoad dev.rxdone (loadAt dev.rxbuf dev.rxdone)) sound.inside
        ⟨sound.rxdone, Int.lt_of_lt_of_le behind sound.rxcnt⟩
    split
    · exact sound.clearBreak
    · dsimp only
      split
      · exact
          { rxdone := Int.le_refl 0
            ordered := Int.le_refl 0
            rxcnt := empty_fits
            dataReady := by simp
            inside := inside
            txcnt := sound.txcnt
            temt := by
              show dev.lsr &&& ~~~ uartLsrDr &&& uartLsrTemt ≠ 0
              rw [clear_other _ (by decide)]
              exact sound.temt
            thre := by
              show dev.lsr &&& ~~~ uartLsrDr &&& uartLsrThre ≠ 0
              rw [clear_other _ (by decide)]
              exact sound.thre }
      case isFalse more =>
        have left : dev.rxdone + 1 < dev.rxcnt :=
          Int.lt_iff_le_and_ne.2 ⟨behind, Ne.symm more⟩
        exact
          { rxdone := Int.le_trans sound.rxdone (Int.le_add_one (Int.le_refl _))
            ordered := Int.le_of_lt left
            rxcnt := sound.rxcnt
            dataReady :=
              iff_of_true (sound.dataReady.2 behind) left
            inside := inside
            txcnt := sound.txcnt
            temt := sound.temt
            thre := sound.thre }

theorem BuffersSound.writeRegister (sound : BuffersSound dev)
    {offset : UInt16} {data : UInt8}
    (known : writeRegister dev offset data = some new) :
    BuffersSound new := by
  unfold Serial.writeRegister at known
  split at known
  case h_1 => exact Option.some.inj known ▸ sound.transmit data
  case h_2 =>
    split at known
    · exact Option.some.inj known ▸ sound.of_same
    · exact Option.some.inj known ▸ sound.of_same
  case h_9 => cases known
  all_goals exact Option.some.inj known ▸ sound.of_same

theorem BuffersSound.out (sound : BuffersSound dev) (offset : UInt16)
    (data : UInt8) : BuffersSound (serial8250Out dev offset data).2 := by
  rw [serial8250Out]
  cases known : Serial.writeRegister dev offset data with
  | none => exact sound.updateIrq
  | some new => exact (sound.writeRegister known).updateIrq

theorem BuffersSound.readRegister (sound : BuffersSound dev)
    {offset : UInt16} {data : Option UInt8}
    (known : readRegister dev offset = some (new, data)) :
    BuffersSound new := by
  unfold Serial.readRegister at known
  split at known
  case h_1 =>
    split at known
    · cases known
      exact sound
    · obtain rfl := congrArg Prod.fst (Option.some.inj known)
      exact sound.rx
  case h_2 =>
    split at known
    · cases known
      exact sound
    · cases known
      exact sound
  case h_9 => cases known
  all_goals
    cases known
    exact sound

theorem BuffersSound.in (sound : BuffersSound dev) (offset : UInt16) :
    BuffersSound (serial8250In dev offset).2.1 := by
  rw [serial8250In]
  cases known : Serial.readRegister dev offset with
  | none => exact sound.updateIrq
  | some read => exact (sound.readRegister known).updateIrq

end Parts

/-! ## Whole runs -/

theorem BuffersSound.access {dev : Serial8250Device}
    (sound : BuffersSound dev) (active : Bool) (port : Fin 4)
    (sysrqPending : UInt8) (access : PortAccess) :
    BuffersSound (portAccess active port sysrqPending dev access).1 := by
  cases access with
  | out offset data => exact sound.out offset data
  | «in» offset => exact sound.in offset
  | console readable => exact (sound.receive ..).updateIrq

theorem PortsSound.step {state : SerialState} (sound : PortsSound state)
    (active : Bool) (input : SerialInput) :
    PortsSound (serialStep active state input) := by
  cases input with
  | injectSysrq sysrq => exact sound
  | access port access =>
      intro other
      have quiet : BuffersSound (state.quiet port) :=
        (sound port).of_same nofun
      by_cases same : other = port
      · rw [same, serialStep_self]
        exact quiet.access ..
      · rw [serialStep_other same]
        exact sound other

theorem serialStart_sound : PortsSound serialStart := by
  intro port
  exact
    { rxdone := Int.le_refl 0
      ordered := Int.le_refl 0
      rxcnt := empty_fits
      dataReady := by
        show (uartLsrTemt ||| uartLsrThre) &&& uartLsrDr ≠ 0 ↔ (0 : Int) < 0
        decide
      inside := nofun
      txcnt := rfl
      temt := by
        show (uartLsrTemt ||| uartLsrThre) &&& uartLsrTemt ≠ 0
        decide
      thre := by
        show (uartLsrTemt ||| uartLsrThre) &&& uartLsrThre ≠ 0
        decide }

/-- In every state of every run the buffers are as they should be. -/
theorem buffers_sound_throughout (active : Bool)
    (inputs : List SerialInput) :
    Throughout (serialStep active) PortsSound serialStart inputs :=
  throughout_of_step (fun _ sound => sound)
    (fun _ input sound => sound.step active input) serialStart_sound inputs

end Kemu.Hw.SerialBuffers
