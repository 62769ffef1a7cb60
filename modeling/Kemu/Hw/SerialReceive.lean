import Kemu.Hw.SerialBuffers

/-!
# What a serial port delivers

The bytes a port puts in its receive buffer are to come out of it one by one,
in order, unless the guest asks for the buffer to be cleared through FCR; and
LCR is to read back as it was written.  `serial8250_update_irq` looks for the
requests to clear a buffer in LCR.
-/

namespace Kemu.Hw.SerialReceive

open Kemu.Hw.Serial
open Kemu.Hw.SerialBuffers
open Kemu.Lib.Flags
open Kemu.Lib.Transition

/-! ## What the guest is to see -/

/-- The bytes of the receive buffer that were not read yet. -/
def contents (dev : Serial8250Device) : List UInt8 :=
  (dev.rxbuf.take dev.rxcnt.toNat).drop dev.rxdone.toNat

/-- The undelivered bytes after an event. -/
def expect (undelivered : List UInt8) : SerialEvent → List UInt8
  | .rxStore _ byte => undelivered ++ [byte]
  | .rxLoad _ _ => undelivered.tail
  | _ => undelivered

/-- The guest asks for the receive buffer to be cleared. -/
def ClearsRx : PortAccess → Prop
  | .out offset data => offset = uartFcr ∧ data &&& uartFcrClearRcvr ≠ 0
  | _ => False

instance : DecidablePred ClearsRx := by
  intro access
  cases access <;> unfold ClearsRx <;> infer_instance

/-- The last value of LCR after an access. -/
def lcrWritten (before : UInt8) : PortAccess → UInt8
  | .out offset data => if offset = uartLcr then data else before
  | _ => before

/--
The ports with a record, for each of them, of the bytes that were put in its
receive buffer and are neither delivered nor cleared, and of the value that
the guest last wrote to LCR.
-/
structure ReceiveState where
  serial : SerialState
  undelivered : Fin 4 → List UInt8
  lcr : Fin 4 → UInt8

/-- One access or system request. -/
def receiveStep (active : Bool) (state : ReceiveState)
    (input : SerialInput) : ReceiveState :=
  let serial := serialStep active state.serial input
  match input with
  | .injectSysrq _ => { state with serial := serial }
  | .access port access =>
      { serial := serial
        undelivered :=
          Function.update state.undelivered port
            (if ClearsRx access then
              []
            else
              (serial.devices port).events.foldl expect
                (state.undelivered port))
        lcr :=
          Function.update state.lcr port
            (lcrWritten (state.lcr port) access) }

/-- Each receive buffer has the undelivered bytes, in order. -/
def Undelivered (state : ReceiveState) : Prop :=
  ∀ port, contents (state.serial.devices port) = state.undelivered port

/-- The buffers that a write to FCR is to clear are empty. -/
def Cleared (dev : Serial8250Device) (data : UInt8) : Prop :=
  (data &&& uartFcrClearRcvr ≠ 0 → contents dev = []) ∧
    (data &&& uartFcrClearXmit ≠ 0 → dev.txcnt = 0)

/--
A byte taken from the receive buffer is the first undelivered one, and the
guest gets it; clearing through FCR empties the buffers; and LCR reads as it
was last written.
-/
def Served (active : Bool) (state : ReceiveState) :
    SerialInput → Prop
  | .injectSysrq _ => True
  | .access port access =>
      let after := serialStep active state.serial (.access port access)
      (∀ index byte, .rxLoad index byte ∈ (after.devices port).events →
          after.data = some byte ∧
            (state.undelivered port).head? = some byte) ∧
        (∀ data, access = .out uartFcr data →
          Cleared (after.devices port) data) ∧
        (access = .in uartLcr → after.data = some (state.lcr port))

/-- The bits of LCR that are taken for requests to clear a buffer. -/
def clearBits : UInt8 :=
  uartFcrClearRcvr ||| uartFcrClearXmit

/--
While bytes are undelivered the bit for clearing them is written neither to
FCR nor to LCR, and LCR is not read after one of the two bits was written to
it.
-/
def Unmistaken (state : ReceiveState) : SerialInput → Prop
  | .injectSysrq _ => True
  | .access port (.out offset data) =>
      offset = uartFcr ∨ offset = uartLcr →
        data &&& uartFcrClearRcvr = 0 ∨
          (state.serial.devices port).rxdone =
            (state.serial.devices port).rxcnt
  | .access port (.in offset) =>
      offset = uartLcr → state.lcr port &&& clearBits = 0
  | .access _ (.console _) => True

/-! ## The buffer as a queue -/

theorem storeAt_length (buf : List UInt8) (index : Int) (byte : UInt8) :
    (storeAt buf index byte).length = buf.length := by
  rw [storeAt]
  split
  · rfl
  · exact List.length_set

/-- A byte stored behind the first ones is the last of them. -/
theorem take_storeAt {buf : List UInt8} {index : Int} {byte : UInt8}
    (begun : 0 ≤ index) (inside : index.toNat < buf.length) :
    (storeAt buf index byte).take (index + 1).toNat =
      buf.take index.toNat ++ [byte] := by
  have next : (index + 1).toNat = index.toNat + 1 := by
    omega
  rw [storeAt, if_neg (Int.not_lt.2 begun), next, List.take_add_one,
    List.take_set_of_le (Nat.le_refl _), List.getElem?_set_self inside]
  rfl

section Queue

variable {dev new last : Serial8250Device}

/-- The receive buffer has its size. -/
structure Sized (dev : Serial8250Device) : Prop
    extends BuffersSound dev where
  size : dev.rxbuf.length = fifoLen.toNat

/--
The events of a part of an access, none of which takes a byte out, say what
is in the buffer then.
-/
def Follows (dev new : Serial8250Device) : Prop :=
  ∃ added, new.events = dev.events ++ added ∧
    (∀ index byte, .rxLoad index byte ∉ added) ∧
    contents new = added.foldl expect (contents dev) ∧
    new.rxbuf.length = dev.rxbuf.length

/-- A part of an access that has nothing to do with the receive buffer. -/
def Still (dev new : Serial8250Device) : Prop :=
  contents new = contents dev ∧
    new.rxbuf.length = dev.rxbuf.length ∧
    ∃ added, new.events = dev.events ++ added ∧
      (∀ index byte, .rxLoad index byte ∉ added) ∧
      ∀ undelivered, added.foldl expect undelivered = undelivered

theorem Follows.of_same (events : new.events = dev.events := by rfl)
    (same : contents new = contents dev := by rfl)
    (size : new.rxbuf.length = dev.rxbuf.length := by rfl) :
    Follows dev new :=
  ⟨[], by rw [events, List.append_nil], nofun, same, size⟩

theorem Follows.trans (first : Follows dev new)
    (second : Follows new last) : Follows dev last := by
  obtain ⟨added, events, noLoad, same, size⟩ := first
  obtain ⟨more, eventsLast, noLoadLast, sameLast, sizeLast⟩ := second
  refine ⟨added ++ more, ?_, ?_, ?_, sizeLast.trans size⟩
  · rw [eventsLast, events, List.append_assoc]
  · intro index byte member
    rcases List.mem_append.1 member with earlier | later
    · exact noLoad index byte earlier
    · exact noLoadLast index byte later
  · rw [sameLast, same, List.foldl_append]

theorem Still.follows (still : Still dev new) : Follows dev new := by
  obtain ⟨same, size, added, events, noLoad, kept⟩ := still
  exact ⟨added, events, noLoad, same.trans (kept _).symm, size⟩

theorem Still.of_same (events : new.events = dev.events := by rfl)
    (same : contents new = contents dev := by rfl)
    (size : new.rxbuf.length = dev.rxbuf.length := by rfl) :
    Still dev new :=
  ⟨same, size, [], by rw [events, List.append_nil], nofun, fun _ => rfl⟩

/-- An event that is not about the receive buffer. -/
theorem Still.record {event : SerialEvent}
    (events : new.events = dev.events ++ [event])
    (noLoad : ∀ index byte, event ≠ .rxLoad index byte)
    (kept : ∀ undelivered, expect undelivered event = undelivered)
    (same : contents new = contents dev := by rfl)
    (size : new.rxbuf.length = dev.rxbuf.length := by rfl) :
    Still dev new := by
  refine ⟨same, size, [event], events, ?_, kept⟩
  intro index byte member
  exact noLoad index byte (List.mem_singleton.1 member).symm

theorem Still.trans (first : Still dev new) (second : Still new last) :
    Still dev last := by
  obtain ⟨same, size, added, events, noLoad, kept⟩ := first
  obtain ⟨sameLast, sizeLast, more, eventsLast, noLoadLast, keptLast⟩ :=
    second
  refine
    ⟨sameLast.trans same, sizeLast.trans size, added ++ more, ?_, ?_, ?_⟩
  · rw [eventsLast, events, List.append_assoc]
  · intro index byte member
    rcases List.mem_append.1 member with earlier | later
    · exact noLoad index byte earlier
    · exact noLoadLast index byte later
  · intro undelivered
    rw [List.foldl_append, kept, keptLast]

theorem still_flushTx : Still dev (serial8250FlushTx dev) := by
  rw [serial8250FlushTx]
  split
  · exact Still.record rfl (by rintro _ _ ⟨⟩) fun _ => rfl
  · exact Still.of_same

theorem still_clearTx : Still dev (clearTx dev) := by
  rw [clearTx]
  split
  · exact Still.of_same
  · exact Still.of_same

theorem still_updateLine (iir : UInt8) :
    Still dev (updateLine dev iir) := by
  rw [updateLine]
  split
  · split
    · exact Still.record rfl (by rintro _ _ ⟨⟩) fun _ => rfl
    · exact Still.of_same
  · split
    · exact Still.record rfl (by rintro _ _ ⟨⟩) fun _ => rfl
    · exact Still.of_same

/-- What comes behind clearing the receive buffer. -/
theorem still_afterClearRx :
    Still (clearRx dev) (serial8250UpdateIrq dev) := by
  have updated :=
    (@still_clearTx (clearRx dev)).trans
      (still_updateLine (pendingIir (clearTx (clearRx dev))))
  rw [serial8250UpdateIrq]
  split
  · exact updated.trans still_flushTx
  · exact updated

/-- Without the bit in LCR nothing is cleared. -/
theorem still_updateIrq (clear : dev.lcr &&& uartFcrClearRcvr = 0) :
    Still dev (serial8250UpdateIrq dev) := by
  have after := @still_afterClearRx dev
  rwa [clearRx, if_neg (not_ne_iff.2 clear)] at after

/-- With the bit everything is. -/
theorem cleared_updateIrq (set : dev.lcr &&& uartFcrClearRcvr ≠ 0) :
    contents (serial8250UpdateIrq dev) = [] := by
  have after := (@still_afterClearRx dev).1
  rwa [clearRx, if_pos set] at after

theorem contents_eq_nil_iff (sized : Sized dev) :
    contents dev = [] ↔ dev.rxdone = dev.rxcnt := by
  have fits := sized.rxcnt
  have size := sized.size
  have begun := sized.rxdone
  have ordered := sized.ordered
  rw [contents, List.drop_eq_nil_iff, List.length_take, size]
  omega

/-- What the guest set, and how the interrupt line was driven. -/
structure Settings where
  lcr : UInt8
  ier : UInt8
  irq : UInt8
  irqState : UInt8
  driven : List SerialEvent

/-- An event about the interrupt line. -/
def drives : SerialEvent → Bool
  | .irqLine _ _ => true
  | _ => false

/-- The settings of a port. -/
def settings (dev : Serial8250Device) : Settings where
  lcr := dev.lcr
  ier := dev.ier
  irq := dev.irq
  irqState := dev.irqState
  driven := dev.events.filter drives

theorem settings_record {event : SerialEvent}
    (events : new.events = dev.events ++ [event])
    (other : drives event = false)
    (lcr : new.lcr = dev.lcr := by rfl)
    (ier : new.ier = dev.ier := by rfl)
    (irq : new.irq = dev.irq := by rfl)
    (irqState : new.irqState = dev.irqState := by rfl) :
    settings new = settings dev := by
  rw [settings, settings, events, List.filter_append,
    List.filter_singleton, other, lcr, ier, irq, irqState]
  simp

theorem settings_flushTx :
    settings (serial8250FlushTx dev) = settings dev := by
  rw [serial8250FlushTx]
  split
  · exact settings_record rfl rfl
  · rfl

/-- LCR loses the two bits in any case. -/
theorem updateIrq_lcr :
    (serial8250UpdateIrq dev).lcr = dev.lcr &&& ~~~ clearBits := by
  have first : (clearRx dev).lcr = dev.lcr &&& ~~~ uartFcrClearRcvr := by
    rw [clearRx]
    split
    · rfl
    case isFalse clear => exact (clear_of_clear _ (not_ne_iff.1 clear)).symm
  have second :
      (clearTx (clearRx dev)).lcr =
        (clearRx dev).lcr &&& ~~~ uartFcrClearXmit := by
    rw [clearTx]
    split
    · rfl
    case isFalse clear => exact (clear_of_clear _ (not_ne_iff.1 clear)).symm
  have line (iir : UInt8) (dev : Serial8250Device) :
      (updateLine dev iir).lcr = dev.lcr := by
    rw [updateLine]
    split <;> split <;> rfl
  rw [clearBits, ← clear_clear, ← first, ← second, serial8250UpdateIrq]
  split
  · exact (congrArg Settings.lcr settings_flushTx).trans (line ..)
  · exact line ..

/-- A byte comes in behind the others. -/
theorem contents_rxStore (sized : Sized dev) (room : dev.rxcnt < fifoLen)
    (byte : UInt8) :
    contents (rxStore dev byte) = contents dev ++ [byte] := by
  have begun := sized.rxdone
  have ordered := sized.ordered
  have inside : dev.rxcnt.toNat < dev.rxbuf.length := by
    rw [sized.size]
    omega
  show ((storeAt dev.rxbuf dev.rxcnt byte).take (dev.rxcnt + 1).toNat).drop
      dev.rxdone.toNat = _
  rw [take_storeAt (Int.le_trans begun ordered) inside, contents,
    List.drop_append_of_le_length]
  rw [List.length_take]
  omega

theorem follows_rxStore (sized : Sized dev) (room : dev.rxcnt < fifoLen)
    (byte : UInt8) : Follows dev (rxStore dev byte) := by
  refine ⟨[.rxStore dev.rxcnt byte], rfl, ?_, ?_, storeAt_length ..⟩
  · intro index other member
    cases List.mem_singleton.1 member
  · exact contents_rxStore sized room byte

theorem Sized.receiveByte (sized : Sized dev) (room : dev.rxcnt < fifoLen)
    (byte : UInt8) : Sized (receiveByte dev byte) where
  toBuffersSound := sized.toBuffersSound.receiveByte room byte
  size := (storeAt_length ..).trans sized.size

theorem follows_receiveLoop (sized : Sized dev)
    (readable : List (Option UInt8)) :
    Follows dev (receiveLoop dev readable) := by
  induction readable generalizing dev with
  | nil => exact Follows.of_same
  | cons c readable induction =>
      by_cases room : dev.rxcnt < fifoLen
      · cases c with
        | none =>
            rw [receiveLoop, if_pos room]
            exact Follows.of_same
        | some byte =>
            rw [receiveLoop, if_pos room]
            exact
              Follows.trans (follows_rxStore sized room byte)
                (induction (sized.receiveByte room byte))
      · cases c with
        | none =>
            rw [receiveLoop, if_neg room]
            exact Follows.of_same
        | some byte =>
            rw [receiveLoop, if_neg room]
            exact Follows.of_same

theorem follows_receive (sized : Sized dev) (active handleSysrq : Bool)
    (sysrqPending : UInt8) (readable : List (Option UInt8)) :
    Follows dev
      (serial8250Receive dev active handleSysrq sysrqPending readable).1 := by
  rw [serial8250Receive]
  split
  · exact Follows.of_same
  split
  · exact Follows.of_same
  case isFalse empty =>
    split
    · have room : dev.rxcnt < fifoLen := by
        rw [not_ne_iff.1 (not_or.1 empty).2]
        decide
      exact follows_rxStore sized room sysrqPending
    split
    · exact Follows.of_same
    · exact follows_receiveLoop sized readable

theorem follows_transmit (sized : Sized dev) (byte : UInt8) :
    Follows dev (transmit dev byte) := by
  rw [transmit]
  split
  · exact Follows.of_same
  split
  · split
    case isTrue room => exact follows_rxStore sized room byte
    case isFalse => exact Follows.of_same
  split
  · refine Follows.trans ?_ still_flushTx.follows
    have stored : Still dev (txStore dev byte) :=
      Still.record rfl (by rintro _ _ ⟨⟩) fun _ => rfl
    split
    · exact stored.follows
    · exact stored.follows
  · exact (Still.record rfl (by rintro _ _ ⟨⟩) fun _ => rfl).follows

theorem follows_writeRegister (sized : Sized dev) {offset : UInt16}
    {data : UInt8} (known : writeRegister dev offset data = some new) :
    Follows dev new := by
  unfold writeRegister at known
  split at known
  case h_1 => exact Option.some.inj known ▸ follows_transmit sized data
  case h_2 =>
    split at known
    · exact Option.some.inj known ▸ Follows.of_same
    · exact Option.some.inj known ▸ Follows.of_same
  case h_9 => cases known
  all_goals exact Option.some.inj known ▸ Follows.of_same

/-- A read of the receive buffer takes nothing out, or the first byte. -/
theorem rx_takes (sized : Sized dev) :
    Still dev (serial8250Rx dev).1 ∨
      ∃ byte,
        (serial8250Rx dev).1.events =
            dev.events ++ [.rxLoad dev.rxdone byte] ∧
          (serial8250Rx dev).2 = some byte ∧
          contents dev = byte :: contents (serial8250Rx dev).1 ∧
          (serial8250Rx dev).1.rxbuf.length = dev.rxbuf.length := by
  rw [serial8250Rx]
  split
  · exact Or.inl Still.of_same
  case isFalse more =>
    split
    · exact Or.inl Still.of_same
    · have begun := sized.rxdone
      have ordered := sized.ordered
      have fits := sized.rxcnt
      have size := sized.size
      have inside :
          dev.rxdone.toNat < (dev.rxbuf.take dev.rxcnt.toNat).length := by
        rw [List.length_take, size]
        omega
      have next : (dev.rxdone + 1).toNat = dev.rxdone.toNat + 1 := by
        omega
      have first :
          (dev.rxbuf.take dev.rxcnt.toNat)[dev.rxdone.toNat] =
            loadAt dev.rxbuf dev.rxdone := by
        rw [List.length_take] at inside
        rw [loadAt, if_neg (Int.not_lt.2 begun), List.getElem_take,
          List.getD_eq_getElem?_getD, List.getElem?_eq_getElem (by omega)]
        rfl
      have split :
          contents dev =
            loadAt dev.rxbuf dev.rxdone ::
              (dev.rxbuf.take dev.rxcnt.toNat).drop
                (dev.rxdone + 1).toNat := by
        rw [contents, List.drop_eq_getElem_cons inside, first, next]
      right
      refine ⟨loadAt dev.rxbuf dev.rxdone, ?_⟩
      dsimp only
      split
      case isTrue last =>
        have last : dev.rxcnt = dev.rxdone + 1 := last
        refine ⟨rfl, rfl, ?_, rfl⟩
        rw [split, last, List.drop_take_self]
        rfl
      case isFalse => exact ⟨rfl, rfl, split, rfl⟩

/-! ## One access -/

/-- What an access leaves in the buffer, and what it takes out. -/
structure Delivers (dev new : Serial8250Device) (data : Option UInt8) :
    Prop where
  contents :
    contents new = new.events.foldl expect (SerialReceive.contents dev)
  loads :
    ∀ index byte, .rxLoad index byte ∈ new.events →
      data = some byte ∧
        (SerialReceive.contents dev).head? = some byte
  size : new.rxbuf.length = dev.rxbuf.length

theorem Follows.delivers (follows : Follows dev new)
    (quiet : dev.events = []) (data : Option UInt8) :
    Delivers dev new data := by
  obtain ⟨added, events, noLoad, same, size⟩ := follows
  rw [quiet, List.nil_append] at events
  subst events
  exact ⟨same, fun index byte member => absurd member (noLoad index byte),
    size⟩

theorem settings_rx : settings (serial8250Rx dev).1 = settings dev := by
  rw [serial8250Rx]
  split
  · rfl
  split
  · rfl
  · dsimp only
    split
    · exact settings_record rfl rfl
    · exact settings_record rfl rfl

/-- A register is read without effect, but for the receive buffer. -/
theorem readRegister_cases {offset : UInt16} {data : Option UInt8}
    (known : readRegister dev offset = some (new, data)) :
    new = dev ∨ serial8250Rx dev = (new, data) := by
  unfold readRegister at known
  split at known
  case h_1 =>
    split at known
    · cases known
      exact Or.inl rfl
    · exact Or.inr (Option.some.inj known)
  case h_2 =>
    split at known
    · cases known
      exact Or.inl rfl
    · cases known
      exact Or.inl rfl
  case h_9 => cases known
  all_goals
    cases known
    exact Or.inl rfl

/-- A read from any register. -/
theorem delivers_in (sized : Sized dev) (quiet : dev.events = [])
    (clear : dev.lcr &&& uartFcrClearRcvr = 0) (offset : UInt16) :
    Delivers dev (serial8250In dev offset).2.1
      (serial8250In dev offset).2.2 := by
  have untouched (data : Option UInt8) :
      Delivers dev (serial8250UpdateIrq dev) data :=
    (still_updateIrq clear).follows.delivers quiet data
  rw [serial8250In]
  cases known : readRegister dev offset with
  | none => exact untouched none
  | some read =>
      obtain ⟨after, data⟩ := read
      rcases readRegister_cases known with rfl | rx
      · exact untouched data
      · have taken := rx_takes sized
        have same : (serial8250Rx dev).1.lcr = dev.lcr :=
          congrArg Settings.lcr settings_rx
        rw [rx] at taken same
        have updated := (still_updateIrq (same.symm ▸ clear)).follows
        rcases taken with still | ⟨byte, events, got, split, size⟩
        · exact (still.follows.trans updated).delivers quiet _
        · obtain ⟨added, more, noLoad, rest, sizeLast⟩ := updated
          rw [events, quiet, List.nil_append] at more
          refine ⟨?_, ?_, sizeLast.trans size⟩
          · rw [more, split]
            exact rest
          · intro index other member
            rw [more] at member
            rcases List.mem_cons.1 member with head | later
            · cases head
              rw [split]
              exact ⟨got, rfl⟩
            · exact absurd later (noLoad index other)

theorem settings_rxStore (byte : UInt8) :
    settings (rxStore dev byte) = settings dev :=
  settings_record rfl rfl

theorem settings_receiveByte (byte : UInt8) :
    settings (receiveByte dev byte) = settings dev :=
  settings_record rfl rfl

theorem settings_receiveLoop (readable : List (Option UInt8)) :
    settings (receiveLoop dev readable) = settings dev := by
  induction readable generalizing dev with
  | nil => rfl
  | cons c readable induction =>
      cases c with
      | none =>
          rw [receiveLoop]
          split <;> rfl
      | some byte =>
          rw [receiveLoop]
          split
          · exact induction.trans (settings_receiveByte byte)
          · rfl

theorem settings_receive (active handleSysrq : Bool) (sysrqPending : UInt8)
    (readable : List (Option UInt8)) :
    settings
        (serial8250Receive dev active handleSysrq sysrqPending
          readable).1 = settings dev := by
  rw [serial8250Receive]
  split
  · rfl
  split
  · rfl
  split
  · exact settings_rxStore sysrqPending
  split
  · rfl
  · exact settings_receiveLoop readable

theorem settings_transmit (byte : UInt8) :
    settings (transmit dev byte) = settings dev := by
  have stored : settings (txStore dev byte) = settings dev :=
    settings_record rfl rfl
  rw [transmit]
  split
  · rfl
  split
  · split
    · exact settings_receiveByte byte
    · rfl
  split
  · rw [settings_flushTx]
    split
    · exact stored
    · exact stored
  · exact settings_record rfl rfl

/-- IER after an access. -/
def ierWritten (dev : Serial8250Device) : PortAccess → UInt8
  | .out offset data =>
      if offset = uartIer ∧ dev.lcr &&& uartLcrDlab = 0 then
        data &&& 0x0f
      else
        dev.ier
  | _ => dev.ier

/-- A register that is written changes no other setting. -/
theorem settings_writeRegister {offset : UInt16} {data : UInt8}
    (known : writeRegister dev offset data = some new) :
    settings new =
      { settings dev with
        lcr := lcrWritten dev.lcr (.out offset data)
        ier := ierWritten dev (.out offset data) } := by
  unfold writeRegister at known
  split at known
  case h_1 => exact Option.some.inj known ▸ settings_transmit data
  case h_2 =>
    split at known
    case isTrue clear =>
      rw [ierWritten, if_pos ⟨rfl, clear⟩]
      exact Option.some.inj known ▸ rfl
    case isFalse set =>
      rw [ierWritten, if_neg (fun both => set both.2)]
      exact Option.some.inj known ▸ rfl
  case h_9 => cases known
  all_goals exact Option.some.inj known ▸ rfl

theorem written_of_unknown {offset : UInt16} {data : UInt8}
    (unknown : writeRegister dev offset data = none) :
    lcrWritten dev.lcr (.out offset data) = dev.lcr ∧
      ierWritten dev (.out offset data) = dev.ier := by
  constructor
  · refine if_neg ?_
    rintro rfl
    cases unknown
  · refine if_neg ?_
    rintro ⟨rfl, clear⟩
    have known :
        writeRegister dev uartIer data =
          some { dev with ier := data &&& 0x0f } :=
      if_pos clear
    rw [known] at unknown
    cases unknown

/-- Every access ends with `serial8250_update_irq`. -/
theorem access_updates (active : Bool) (port : Fin 4)
    (sysrqPending : UInt8) (access : PortAccess) :
    ∃ before,
      (portAccess active port sysrqPending dev access).1 =
          serial8250UpdateIrq before ∧
        settings before =
          { settings dev with
            lcr := lcrWritten dev.lcr access
            ier := ierWritten dev access } := by
  cases access with
  | out offset data =>
      rw [portAccess, serial8250Out]
      cases known : writeRegister dev offset data with
      | none =>
          obtain ⟨lcr, ier⟩ := written_of_unknown known
          exact ⟨dev, rfl, by rw [lcr, ier]; rfl⟩
      | some new => exact ⟨new, rfl, settings_writeRegister known⟩
  | «in» offset =>
      rw [portAccess, serial8250In]
      cases known : readRegister dev offset with
      | none => exact ⟨dev, rfl, rfl⟩
      | some read =>
          obtain ⟨after, data⟩ := read
          rcases readRegister_cases known with rfl | rx
          · exact ⟨after, rfl, rfl⟩
          · have kept := @settings_rx dev
            rw [rx] at kept
            exact ⟨after, rfl, kept⟩
  | console readable => exact ⟨_, rfl, settings_receive ..⟩

/-- LCR after an access. -/
theorem access_lcr (active : Bool) (port : Fin 4) (sysrqPending : UInt8)
    (access : PortAccess) :
    (portAccess active port sysrqPending dev access).1.lcr =
      lcrWritten dev.lcr access &&& ~~~ clearBits := by
  obtain ⟨before, done, same⟩ :=
    @access_updates dev active port sysrqPending access
  have lcr : before.lcr = lcrWritten dev.lcr access :=
    congrArg Settings.lcr same
  rw [done, updateIrq_lcr, lcr]

/-- An access that empties the buffer without its events saying so. -/
structure Emptied (dev new : Serial8250Device) : Prop where
  contents : contents new = []
  noLoad : ∀ index byte, .rxLoad index byte ∉ new.events
  kept : ∀ undelivered, new.events.foldl expect undelivered = undelivered
  size : new.rxbuf.length = dev.rxbuf.length

/-- This is what asking for it through LCR does. -/
theorem access_empties (quiet : dev.events = []) {access : PortAccess}
    (set : lcrWritten dev.lcr access &&& uartFcrClearRcvr ≠ 0)
    (clear : dev.lcr &&& uartFcrClearRcvr = 0) (active : Bool)
    (port : Fin 4) (sysrqPending : UInt8) :
    Emptied dev (portAccess active port sysrqPending dev access).1 := by
  cases access with
  | out offset data =>
      by_cases lcr : offset = uartLcr
      · subst lcr
        rw [lcrWritten, if_pos rfl] at set
        obtain ⟨-, size, added, events, noLoad, kept⟩ :=
          @still_afterClearRx { dev with lcr := data }
        have cleared :
            (clearRx { dev with lcr := data }).events = [] ∧
              (clearRx { dev with lcr := data }).rxbuf = dev.rxbuf := by
          rw [clearRx, if_pos set]
          exact ⟨quiet, rfl⟩
        rw [cleared.1, List.nil_append] at events
        rw [cleared.2] at size
        subst events
        exact ⟨cleared_updateIrq set, noLoad, kept, size⟩
      · rw [lcrWritten, if_neg lcr] at set
        exact absurd clear set
  | «in» offset => exact absurd clear set
  | console readable => exact absurd clear set

/-- A write to FCR leaves the buffer alone. -/
theorem contents_fcr (clear : dev.lcr &&& uartFcrClearRcvr = 0)
    (active : Bool) (port : Fin 4) (sysrqPending data : UInt8) :
    contents
        (portAccess active port sysrqPending dev (.out uartFcr data)).1 =
      contents dev :=
  (@still_updateIrq { dev with fcr := data } clear).1

/-- An access that clears nothing through LCR. -/
theorem access_delivers (sized : Sized dev) (quiet : dev.events = [])
    (clear : dev.lcr &&& uartFcrClearRcvr = 0) {access : PortAccess}
    (kept : lcrWritten dev.lcr access &&& uartFcrClearRcvr = 0)
    (active : Bool) (port : Fin 4) (sysrqPending : UInt8) :
    Delivers dev (portAccess active port sysrqPending dev access).1
      (portAccess active port sysrqPending dev access).2.2 := by
  cases access with
  | out offset data =>
      rw [portAccess, serial8250Out]
      cases known : writeRegister dev offset data with
      | none => exact (still_updateIrq clear).follows.delivers quiet none
      | some new =>
          have lcr :
              new.lcr = lcrWritten dev.lcr (.out offset data) :=
            congrArg Settings.lcr (settings_writeRegister known)
          exact
            ((follows_writeRegister sized known).trans
              (still_updateIrq (lcr.symm ▸ kept)).follows).delivers quiet
              none
  | «in» offset => exact delivers_in sized quiet clear offset
  | console readable =>
      have received :=
        follows_receive sized active (port = 0) sysrqPending readable
      have after :
          (serial8250Receive dev active (port = 0) sysrqPending
            readable).1.lcr &&& uartFcrClearRcvr = 0 := by
        have lcr :
            (serial8250Receive dev active (port = 0) sysrqPending
              readable).1.lcr = dev.lcr :=
          congrArg Settings.lcr (settings_receive ..)
        exact lcr.symm ▸ clear
      exact
        (received.trans (still_updateIrq after).follows).delivers quiet none

end Queue

/-! ## Whole runs -/

/--
The ports are as they should be, the receive buffers have the undelivered
bytes, and LCR is what the guest wrote but for the two bits.
-/
structure ReceiveInvariant (state : ReceiveState) : Prop where
  sized : ∀ port, Sized (state.serial.devices port)
  undelivered : Undelivered state
  lcr :
    ∀ port, (state.serial.devices port).lcr =
      state.lcr port &&& ~~~ clearBits

section Runs

variable {state : ReceiveState} {active : Bool} {port : Fin 4}
  {access : PortAccess}

theorem ReceiveInvariant.quiet (holds : ReceiveInvariant state)
    (port : Fin 4) : Sized (state.serial.quiet port) where
  toBuffersSound := (holds.sized port).of_same nofun
  size := (holds.sized port).size

theorem ReceiveInvariant.clear (holds : ReceiveInvariant state)
    (port : Fin 4) :
    (state.serial.quiet port).lcr &&& uartFcrClearRcvr = 0 := by
  show (state.serial.devices port).lcr &&& uartFcrClearRcvr = 0
  have order : clearBits = uartFcrClearXmit ||| uartFcrClearRcvr := rfl
  rw [holds.lcr, order, ← clear_clear, clear_self]

/-- The two bits are lost once. -/
theorem lcrWritten_clear (written : UInt8) :
    lcrWritten (written &&& ~~~ clearBits) access &&& ~~~ clearBits =
      lcrWritten written access &&& ~~~ clearBits := by
  have again :
      written &&& ~~~ clearBits &&& ~~~ clearBits =
        written &&& ~~~ clearBits :=
    clear_of_clear _ (clear_self _ _)
  cases access with
  | out offset data =>
      simp only [lcrWritten]
      split
      · rfl
      · exact again
  | «in» offset => exact again
  | console readable => exact again

/-- The bytes undelivered after an access. -/
def undeliveredAfter (active : Bool) (state : ReceiveState) (port : Fin 4)
    (access : PortAccess) : List UInt8 :=
  if ClearsRx access then
    []
  else
    (accessed active state.serial port access).1.events.foldl expect
      (state.undelivered port)

theorem receiveStep_undelivered :
    (receiveStep active state (.access port access)).undelivered port =
      undeliveredAfter active state port access := by
  rw [receiveStep, undeliveredAfter, ← serialStep_self]
  exact Function.update_self ..

/-- It is enough to look at the port that is accessed. -/
theorem ReceiveInvariant.step (holds : ReceiveInvariant state)
    (size :
      (accessed active state.serial port access).1.rxbuf.length =
        (state.serial.quiet port).rxbuf.length)
    (undelivered :
      contents (accessed active state.serial port access).1 =
        undeliveredAfter active state port access) :
    ReceiveInvariant (receiveStep active state (.access port access)) where
  sized other := by
    have sound :
        PortsSound (serialStep active state.serial (.access port access)) :=
      PortsSound.step (fun port => (holds.sized port).toBuffersSound) _ _
    refine ⟨sound other, ?_⟩
    show ((serialStep active state.serial
      (.access port access)).devices other).rxbuf.length = fifoLen.toNat
    by_cases same : other = port
    · rw [same, serialStep_self, size]
      exact (holds.sized port).size
    · rw [serialStep_other same]
      exact (holds.sized other).size
  undelivered other := by
    show contents ((serialStep active state.serial
      (.access port access)).devices other) = _
    by_cases same : other = port
    · rw [same, serialStep_self, receiveStep_undelivered]
      exact undelivered
    · rw [serialStep_other same, receiveStep]
      exact (holds.undelivered other).trans
        (Function.update_of_ne same ..).symm
  lcr other := by
    show ((serialStep active state.serial
      (.access port access)).devices other).lcr = _
    by_cases same : other = port
    · have before :
          (state.serial.quiet port).lcr = state.lcr port &&& ~~~ clearBits :=
        holds.lcr port
      have after :
          (receiveStep active state (.access port access)).lcr port =
            lcrWritten (state.lcr port) access :=
        Function.update_self ..
      rw [same, serialStep_self, after, accessed, access_lcr, before,
        lcrWritten_clear]
    · have after :
          (receiveStep active state (.access port access)).lcr other =
            state.lcr other :=
        Function.update_of_ne same ..
      rw [serialStep_other same, after]
      exact holds.lcr other

/-- The buffer of a port is empty when its counters are equal. -/
theorem ReceiveInvariant.empty_iff (holds : ReceiveInvariant state)
    (port : Fin 4) :
    state.undelivered port = [] ↔
      (state.serial.devices port).rxdone =
        (state.serial.devices port).rxcnt := by
  rw [← holds.undelivered port]
  exact contents_eq_nil_iff (holds.sized port)

/-- What becomes of the bytes that nothing asks to clear through LCR. -/
theorem ReceiveInvariant.delivers (holds : ReceiveInvariant state)
    (active : Bool)
    (kept :
      lcrWritten (state.serial.quiet port).lcr access &&&
        uartFcrClearRcvr = 0) :
    Delivers (state.serial.quiet port)
      (accessed active state.serial port access).1
      (accessed active state.serial port access).2.2 :=
  access_delivers (holds.quiet port) rfl (holds.clear port) kept ..

/-- What is asked for through LCR empties the buffer. -/
theorem ReceiveInvariant.empties (holds : ReceiveInvariant state)
    (active : Bool)
    (set :
      lcrWritten (state.serial.quiet port).lcr access &&&
        uartFcrClearRcvr ≠ 0) :
    Emptied (state.serial.quiet port)
      (accessed active state.serial port access).1 :=
  access_empties rfl set (holds.clear port) ..

/-- Only a write to LCR sets a bit of it. -/
theorem ReceiveInvariant.lcr_of_set (holds : ReceiveInvariant state)
    (set :
      lcrWritten (state.serial.quiet port).lcr access &&&
        uartFcrClearRcvr ≠ 0) :
    ∃ data, access = .out uartLcr data ∧ data &&& uartFcrClearRcvr ≠ 0 := by
  have clear := holds.clear port
  cases access with
  | out offset data =>
      by_cases lcr : offset = uartLcr
      · rw [lcrWritten, if_pos lcr] at set
        exact ⟨data, by rw [lcr], set⟩
      · rw [lcrWritten, if_neg lcr] at set
        exact absurd clear set
  | «in» offset => exact absurd clear set
  | console readable => exact absurd clear set

/-- After a write to FCR the buffer is as before. -/
theorem ReceiveInvariant.contents_fcr (holds : ReceiveInvariant state)
    (data : UInt8) :
    contents (accessed active state.serial port (.out uartFcr data)).1 =
      state.undelivered port :=
  (SerialReceive.contents_fcr (holds.clear port) ..).trans
    (holds.undelivered port)

/-- An access without a mistake keeps the invariant. -/
theorem ReceiveInvariant.kept (holds : ReceiveInvariant state)
    (unmistaken : Unmistaken state (.access port access)) :
    ReceiveInvariant
      (receiveStep active state (.access port access)) := by
  by_cases kept :
      lcrWritten (state.serial.quiet port).lcr access &&&
        uartFcrClearRcvr = 0
  · have delivers := holds.delivers active kept
    refine holds.step delivers.size ?_
    rw [undeliveredAfter]
    split
    case isTrue clears =>
      cases access with
      | out offset data =>
          obtain ⟨rfl, set⟩ := clears
          have empty := (unmistaken (Or.inl rfl)).resolve_left set
          rw [holds.contents_fcr]
          exact (holds.empty_iff port).2 empty
      | «in» offset => cases clears
      | console readable => cases clears
    case isFalse =>
      rw [← holds.undelivered port]
      exact delivers.contents
  · have empties := holds.empties active kept
    obtain ⟨data, rfl, set⟩ := holds.lcr_of_set kept
    have empty := (unmistaken (Or.inr rfl)).resolve_left set
    refine holds.step empties.size ?_
    have other : ¬ ClearsRx (.out uartLcr data) := by
      rintro ⟨same, -⟩
      exact absurd same (by decide)
    rw [undeliveredAfter, if_neg other, empties.kept, empties.contents]
    exact ((holds.empty_iff port).2 empty).symm

/-- An access without a mistake serves the guest. -/
theorem ReceiveInvariant.serves (holds : ReceiveInvariant state)
    (unmistaken : Unmistaken state (.access port access)) :
    Served active state (.access port access) := by
  refine ⟨?_, ?_, ?_⟩
  · intro index byte member
    rw [serialStep_self] at member
    by_cases kept :
        lcrWritten (state.serial.quiet port).lcr access &&&
          uartFcrClearRcvr = 0
    · rw [← holds.undelivered port]
      exact (holds.delivers active kept).loads index byte member
    · exact absurd member ((holds.empties active kept).noLoad index byte)
  · rintro data rfl
    rw [serialStep_self]
    refine ⟨fun set => ?_, fun _ => ?_⟩
    · have empty := (unmistaken (Or.inl rfl)).resolve_left set
      rw [holds.contents_fcr]
      exact (holds.empty_iff port).2 empty
    · exact ((holds.quiet port).toBuffersSound.access ..).txcnt
  · rintro rfl
    show some (state.serial.devices port).lcr = some (state.lcr port)
    rw [holds.lcr, clear_of_clear _ (unmistaken rfl)]

/-- A mistake shows at once. -/
theorem ReceiveInvariant.broken (holds : ReceiveInvariant state)
    (mistaken : ¬ Unmistaken state (.access port access))
    (undelivered :
      Undelivered (receiveStep active state (.access port access))) :
    ¬ Served active state (.access port access) := by
  intro served
  cases access with
  | out offset data =>
      rw [Unmistaken, Classical.not_imp, not_or] at mistaken
      obtain ⟨register, set, more⟩ := mistaken
      rw [← holds.empty_iff port] at more
      rcases register with rfl | rfl
      · have cleared := (served.2.1 data rfl).1 set
        rw [serialStep_self, holds.contents_fcr] at cleared
        exact more cleared
      · have asked :
            lcrWritten (state.serial.quiet port).lcr (.out uartLcr data) &&&
              uartFcrClearRcvr ≠ 0 :=
          set
        have empties := holds.empties active asked
        have same := undelivered port
        have other : ¬ ClearsRx (.out uartLcr data) := by
          rintro ⟨same, -⟩
          exact absurd same (by decide)
        rw [receiveStep_undelivered, undeliveredAfter, if_neg other,
          empties.kept] at same
        rw [← same] at more
        apply more
        show contents
          ((serialStep active state.serial
            (.access port (.out uartLcr data))).devices port) = []
        rw [serialStep_self]
        exact empties.contents
  | «in» offset =>
      rw [Unmistaken, Classical.not_imp] at mistaken
      obtain ⟨rfl, set⟩ := mistaken
      have read :
          some (state.serial.devices port).lcr = some (state.lcr port) :=
        served.2.2 rfl
      rw [holds.lcr, Option.some.injEq, clear_eq_self_iff] at read
      exact set read
  | console readable => exact mistaken trivial

end Runs

/-- Two bytes come in, and the guest sets eight data bits. -/
def programmed : List SerialInput :=
  [.access 0 (.console [some 65, some 66]), .access 0 (.out uartLcr 0x03)]

end Kemu.Hw.SerialReceive
