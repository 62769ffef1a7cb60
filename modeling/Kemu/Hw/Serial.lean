import Mathlib.Data.List.Basic
import Mathlib.Logic.Function.Basic

/-!
# The 8250 serial ports

Four ports, each with a receive buffer, a transmit buffer and its registers,
behind eight addresses each.  Guest accesses, console input and system
requests come in any order; each of them ends with `serial8250_update_irq`.

A port records what it does outside of its registers: where it reads and
writes its buffers, what it hands to the terminal, and how it drives its
interrupt line.
-/

namespace Kemu.Hw.Serial

/-! ## Registers -/

/-- `FIFO_LEN`. -/
def fifoLen : Int := 64

/-- The registers by their offset; reading and writing differ at 0 and 2. -/
@[match_pattern] def uartTx : UInt16 := 0
@[match_pattern] def uartRx : UInt16 := 0
@[match_pattern] def uartIer : UInt16 := 1
@[match_pattern] def uartFcr : UInt16 := 2
@[match_pattern] def uartIir : UInt16 := 2
@[match_pattern] def uartLcr : UInt16 := 3
@[match_pattern] def uartMcr : UInt16 := 4
@[match_pattern] def uartLsr : UInt16 := 5
@[match_pattern] def uartMsr : UInt16 := 6
@[match_pattern] def uartScr : UInt16 := 7

/-- The bits of the registers. -/
def uartIerRdi : UInt8 := 0x01
def uartIerThri : UInt8 := 0x02
def uartIirNoInt : UInt8 := 0x01
def uartIirThri : UInt8 := 0x02
def uartIirRdi : UInt8 := 0x04
def uartIirTypeBits : UInt8 := 0xc0
def uartFcrClearRcvr : UInt8 := 0x02
def uartFcrClearXmit : UInt8 := 0x04
def uartLcrDlab : UInt8 := 0x80
def uartMcrOut2 : UInt8 := 0x08
def uartMcrLoop : UInt8 := 0x10
def uartLsrDr : UInt8 := 0x01
def uartLsrBi : UInt8 := 0x10
def uartLsrThre : UInt8 := 0x20
def uartLsrTemt : UInt8 := 0x40
def uartMsrCts : UInt8 := 0x10
def uartMsrDsr : UInt8 := 0x20
def uartMsrDcd : UInt8 := 0x80

/-! ## Ports -/

/-- What a port does besides setting its registers. -/
inductive SerialEvent where
  | rxStore (index : Int) (byte : UInt8)
  | rxLoad (index : Int) (byte : UInt8)
  | txStore (index : Int) (byte : UInt8)
  | termPutc (bytes : List UInt8) (cnt : Int) (term : UInt8)
  | irqLine (irq : UInt8) (level : Bool)
  /-- The branch of `serial8250_out` that "should never happen". -/
  | neverHappens
deriving DecidableEq, Repr

/--
`struct serial8250_device`, with what the port did in the access at hand.
-/
structure Serial8250Device where
  id : UInt8
  irq : UInt8
  irqState : UInt8
  txcnt : Int
  rxcnt : Int
  rxdone : Int
  txbuf : List UInt8
  rxbuf : List UInt8
  dll : UInt8
  dlm : UInt8
  iir : UInt8
  ier : UInt8
  fcr : UInt8
  lcr : UInt8
  mcr : UInt8
  lsr : UInt8
  msr : UInt8
  scr : UInt8
  events : List SerialEvent
deriving DecidableEq, Repr

/-- `buf[index] = byte`; a store outside does not change the buffer. -/
def storeAt (buf : List UInt8) (index : Int) (byte : UInt8) : List UInt8 :=
  if index < 0 then buf else buf.set index.toNat byte

/-- `buf[index]`. -/
def loadAt (buf : List UInt8) (index : Int) : UInt8 :=
  if index < 0 then 0 else buf.getD index.toNat 0

section Code

variable (dev : Serial8250Device)

/-- Recording an event. -/
def Serial8250Device.record (event : SerialEvent) : Serial8250Device :=
  { dev with events := dev.events ++ [event] }

/-- `dev->rxbuf[dev->rxcnt++] = byte`. -/
def rxStore (byte : UInt8) : Serial8250Device :=
  { dev.record (.rxStore dev.rxcnt byte) with
    rxbuf := storeAt dev.rxbuf dev.rxcnt byte
    rxcnt := dev.rxcnt + 1 }

/-- `dev->txbuf[dev->txcnt++] = byte`. -/
def txStore (byte : UInt8) : Serial8250Device :=
  { dev.record (.txStore dev.txcnt byte) with
    txbuf := storeAt dev.txbuf dev.txcnt byte
    txcnt := dev.txcnt + 1 }

/-- `serial8250_flush_tx`. -/
def serial8250FlushTx : Serial8250Device :=
  let dev := { dev with lsr := dev.lsr ||| (uartLsrTemt ||| uartLsrThre) }
  if dev.txcnt ≠ 0 then
    { dev.record
        (.termPutc (dev.txbuf.take dev.txcnt.toNat) dev.txcnt dev.id) with
      txcnt := 0 }
  else
    dev

/-! `serial8250_update_irq`, in its four parts. -/

/-- "Handle clear rx". -/
def clearRx : Serial8250Device :=
  if dev.lcr &&& uartFcrClearRcvr ≠ 0 then
    { dev with
      lcr := dev.lcr &&& ~~~ uartFcrClearRcvr
      rxcnt := 0
      rxdone := 0
      lsr := dev.lsr &&& ~~~ uartLsrDr }
  else
    dev

/-- "Handle clear tx". -/
def clearTx : Serial8250Device :=
  if dev.lcr &&& uartFcrClearXmit ≠ 0 then
    { dev with
      lcr := dev.lcr &&& ~~~ uartFcrClearXmit
      txcnt := 0
      lsr := dev.lsr ||| (uartLsrTemt ||| uartLsrThre) }
  else
    dev

/-- The interrupt conditions that are enabled and pending. -/
def pendingIir : UInt8 :=
  (if dev.ier &&& uartIerRdi ≠ 0 ∧ dev.lsr &&& uartLsrDr ≠ 0 then
      uartIirRdi
    else
      0) |||
    (if dev.ier &&& uartIerThri ≠ 0 ∧ dev.lsr &&& uartLsrTemt ≠ 0 then
      uartIirThri
    else
      0)

/-- "Now update the irq line, if necessary". -/
def updateLine (iir : UInt8) : Serial8250Device :=
  if iir = 0 then
    { (if dev.irqState ≠ 0 then dev.record (.irqLine dev.irq false)
        else dev) with
      iir := uartIirNoInt
      irqState := iir }
  else
    { (if dev.irqState = 0 then dev.record (.irqLine dev.irq true)
        else dev) with
      iir := iir
      irqState := iir }

/-- `serial8250_update_irq`. -/
def serial8250UpdateIrq : Serial8250Device :=
  let dev := clearTx (clearRx dev)
  let dev := updateLine dev (pendingIir dev)
  if dev.ier &&& uartIerThri = 0 then
    serial8250FlushTx dev
  else
    dev

/-- A byte that arrives, from the terminal or looped back. -/
def receiveByte (byte : UInt8) : Serial8250Device :=
  let dev := rxStore dev byte
  { dev with lsr := dev.lsr ||| uartLsrDr }

/-- `serial8250__sysrq`. -/
def serial8250Sysrq (sysrqPending : UInt8) : Serial8250Device :=
  rxStore { dev with lsr := dev.lsr ||| (uartLsrDr ||| uartLsrBi) }
    sysrqPending

/--
The loop of `serial8250__receive`.  As long as the terminal is readable,
`term_getc` gives a byte or fails.
-/
def receiveLoop : Serial8250Device → List (Option UInt8) → Serial8250Device
  | dev, [] => dev
  | dev, c :: readable =>
      if dev.rxcnt < fifoLen then
        match c with
        | none => dev
        | some byte => receiveLoop (receiveByte dev byte) readable
      else
        dev

/--
`serial8250__receive`; `active` says that `active_console` is
`CONSOLE_8250`.  The second value is `sysrq_pending`.
-/
def serial8250Receive (active handleSysrq : Bool) (sysrqPending : UInt8)
    (readable : List (Option UInt8)) : Serial8250Device × UInt8 :=
  if dev.mcr &&& uartMcrLoop ≠ 0 then
    (dev, sysrqPending)
  else if dev.lsr &&& uartLsrDr ≠ 0 ∨ dev.rxcnt ≠ 0 then
    (dev, sysrqPending)
  else if handleSysrq ∧ sysrqPending ≠ 0 then
    (serial8250Sysrq dev sysrqPending, 0)
  else if !active then
    (dev, sysrqPending)
  else
    (receiveLoop dev readable, sysrqPending)

/-- Sending a byte, in the branch for `UART_TX`. -/
def transmit (byte : UInt8) : Serial8250Device :=
  if dev.lcr &&& uartLcrDlab ≠ 0 then
    { dev with dll := byte }
  else if dev.mcr &&& uartMcrLoop ≠ 0 then
    if dev.rxcnt < fifoLen then receiveByte dev byte else dev
  else if dev.txcnt < fifoLen then
    let dev := txStore dev byte
    let dev := { dev with lsr := dev.lsr &&& ~~~ uartLsrTemt }
    let dev :=
      if dev.txcnt = fifoLen / 2 then
        { dev with lsr := dev.lsr &&& ~~~ uartLsrThre }
      else
        dev
    serial8250FlushTx dev
  else
    { dev.record .neverHappens with
      lsr := dev.lsr &&& ~~~ (uartLsrTemt ||| uartLsrThre) }

/-- The `switch` of `serial8250_out`; `none` for the default. -/
def writeRegister (offset : UInt16) (data : UInt8) :
    Option Serial8250Device :=
  match offset with
  | uartTx => some (transmit dev data)
  | uartIer =>
      if dev.lcr &&& uartLcrDlab = 0 then
        some { dev with ier := data &&& 0x0f }
      else
        some { dev with dlm := data }
  | uartFcr => some { dev with fcr := data }
  | uartLcr => some { dev with lcr := data }
  | uartMcr => some { dev with mcr := data }
  | uartLsr => some dev
  | uartMsr => some dev
  | uartScr => some { dev with scr := data }
  | _ => none

/-- `serial8250_out`. -/
def serial8250Out (offset : UInt16) (data : UInt8) :
    Bool × Serial8250Device :=
  match writeRegister dev offset data with
  | some dev => (true, serial8250UpdateIrq dev)
  | none => (false, serial8250UpdateIrq dev)

/-- `serial8250_rx`; the second value is what is stored for the guest. -/
def serial8250Rx : Serial8250Device × Option UInt8 :=
  if dev.rxdone = dev.rxcnt then
    (dev, none)
  else if dev.lsr &&& uartLsrBi ≠ 0 then
    ({ dev with lsr := dev.lsr &&& ~~~ uartLsrBi }, some 0)
  else
    let byte := loadAt dev.rxbuf dev.rxdone
    let dev : Serial8250Device :=
      { dev.record (.rxLoad dev.rxdone byte) with
        rxdone := dev.rxdone + 1 }
    if dev.rxcnt = dev.rxdone then
      ({ dev with
          lsr := dev.lsr &&& ~~~ uartLsrDr
          rxcnt := 0
          rxdone := 0 }, some byte)
    else
      (dev, some byte)

/-- The `switch` of `serial8250_in`; `none` for the default. -/
def readRegister (offset : UInt16) :
    Option (Serial8250Device × Option UInt8) :=
  match offset with
  | uartRx =>
      if dev.lcr &&& uartLcrDlab ≠ 0 then
        some (dev, some dev.dll)
      else
        some (serial8250Rx dev)
  | uartIer =>
      if dev.lcr &&& uartLcrDlab ≠ 0 then
        some (dev, some dev.dlm)
      else
        some (dev, some dev.ier)
  | uartIir => some (dev, some (dev.iir ||| uartIirTypeBits))
  | uartLcr => some (dev, some dev.lcr)
  | uartMcr => some (dev, some dev.mcr)
  | uartLsr => some (dev, some dev.lsr)
  | uartMsr => some (dev, some dev.msr)
  | uartScr => some (dev, some dev.scr)
  | _ => none

/-- `serial8250_in`, with what is stored for the guest. -/
def serial8250In (offset : UInt16) :
    Bool × Serial8250Device × Option UInt8 :=
  match readRegister dev offset with
  | some (dev, data) => (true, serial8250UpdateIrq dev, data)
  | none => (false, serial8250UpdateIrq dev, none)

end Code

/-! ## The four ports -/

/-- The ports are written as numerals. -/
scoped instance fourPorts : @NeZero Nat Zero.ofOfNat0 4 :=
  ⟨by decide⟩

/-- `serial_irq`. -/
def serialIrq : Fin 4 → UInt8
  | 0 => 4
  | 1 => 3
  | 2 => 4
  | 3 => 3

/-- What comes to one port, under its mutex. -/
inductive PortAccess where
  | out (offset : UInt16) (data : UInt8)
  | in (offset : UInt16)
  /-- The turn of `serial8250__update_consoles` for the port. -/
  | console (readable : List (Option UInt8))
deriving DecidableEq, Repr

/-- What comes to the ports. -/
inductive SerialInput where
  | access (port : Fin 4) (access : PortAccess)
  /-- `serial8250__inject_sysrq`. -/
  | injectSysrq (sysrq : UInt8)
deriving DecidableEq, Repr

/--
`devices`, `sysrq_pending`, the level each interrupt line was last driven to,
and what the last access stored for the guest.
-/
structure SerialState where
  devices : Fin 4 → Serial8250Device
  sysrqPending : UInt8
  lines : UInt8 → Bool
  data : Option UInt8

/-- The levels of the lines after an event. -/
def drive (lines : UInt8 → Bool) : SerialEvent → UInt8 → Bool
  | .irqLine irq level => Function.update lines irq level
  | _ => lines

/-- A port after an access, `sysrq_pending`, and the data of a read. -/
def portAccess (active : Bool) (port : Fin 4) (sysrqPending : UInt8)
    (dev : Serial8250Device) :
    PortAccess → Serial8250Device × UInt8 × Option UInt8
  | .out offset data => ((serial8250Out dev offset data).2, sysrqPending, none)
  | .in offset =>
      ((serial8250In dev offset).2.1, sysrqPending,
        (serial8250In dev offset).2.2)
  | .console readable =>
      let received :=
        serial8250Receive dev active (port = 0) sysrqPending readable
      (serial8250UpdateIrq received.1, received.2, none)

/-- A port, which has done nothing in the access to come. -/
def SerialState.quiet (state : SerialState) (port : Fin 4) :
    Serial8250Device :=
  { state.devices port with events := [] }

/-- What an access does to its port. -/
def accessed (active : Bool) (state : SerialState) (port : Fin 4)
    (access : PortAccess) : Serial8250Device × UInt8 × Option UInt8 :=
  portAccess active port state.sysrqPending (state.quiet port) access

/-- One access or system request. -/
def serialStep (active : Bool) (state : SerialState) :
    SerialInput → SerialState
  | .access port access =>
      let done := accessed active state port access
      { devices := Function.update state.devices port done.1
        sysrqPending := done.2.1
        lines := done.1.events.foldl drive state.lines
        data := done.2.2 }
  | .injectSysrq sysrq => { state with sysrqPending := sysrq, data := none }

/-- `SERIAL_REGS_SETTING` and zeros. -/
def serialStart : SerialState where
  devices port :=
    { id := .ofNat port
      irq := serialIrq port
      irqState := 0
      txcnt := 0
      rxcnt := 0
      rxdone := 0
      txbuf := List.replicate 64 0
      rxbuf := List.replicate 64 0
      dll := 0
      dlm := 0
      iir := uartIirNoInt
      ier := 0
      fcr := 0
      lcr := 0
      mcr := uartMcrOut2
      lsr := uartLsrTemt ||| uartLsrThre
      msr := uartMsrDcd ||| uartMsrDsr ||| uartMsrCts
      scr := 0
      events := [] }
  sysrqPending := 0
  lines _ := false
  data := none

section Step

variable {active : Bool} {state : SerialState} {port : Fin 4}
  {access : PortAccess}

theorem serialStep_self :
    (serialStep active state (.access port access)).devices port =
      (accessed active state port access).1 :=
  Function.update_self ..

theorem serialStep_other {other : Fin 4} (different : other ≠ port) :
    (serialStep active state (.access port access)).devices other =
      state.devices other :=
  Function.update_of_ne different ..

end Step

end Kemu.Hw.Serial
