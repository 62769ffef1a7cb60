import Mathlib.Algebra.Group.Nat.Defs
import Mathlib.Data.List.Basic
import Mathlib.Logic.Function.Basic

/-!
# The keyboard and mouse controller

Bytes for the guest go through two queues, one for the keyboard and one for
the mouse.  The positions where a queue is read and written are counters of
type `int` that are never set back; they are reduced to an index of the array
where a byte is stored or taken.

A queue is kept with a record of the bytes it accepted and delivered, and of
the indices at which its array was touched.
-/

namespace Kemu.Hw.I8042

/-! ## Queues -/

/-- `QUEUE_SIZE`. -/
def queueSize : Int := 128

/-- What an `int` holds. -/
def wrapInt (value : Int) : Int :=
  Int.bmod value (2 ^ 32)

/-- `kq`, `kread`, `kwrite` and `kcount`, or those of the mouse. -/
structure Queue where
  cells : Nat → UInt8
  read : Int
  write : Int
  count : Int
  accepted : List UInt8
  delivered : List UInt8
  touched : List Int

/-- A store outside of the array is not followed. -/
def storeAt (cells : Nat → UInt8) (index : Int) (byte : UInt8) :
    Nat → UInt8 :=
  if 0 ≤ index ∧ index < queueSize then
    Function.update cells index.toNat byte
  else
    cells

/-- Outside of the array there is something else to read. -/
def loadAt (cells : Nat → UInt8) (index : Int) : UInt8 :=
  if 0 ≤ index ∧ index < queueSize then cells index.toNat else 0

section Queue

variable (queue : Queue)

/-- `kbd_queue` and `mouse_queue`, up to `kbd_update_irq`. -/
def Queue.put (byte : UInt8) : Queue :=
  let index := queue.write.tmod queueSize
  { queue with
    cells := storeAt queue.cells index byte
    write := wrapInt (queue.write + 1)
    count := queue.count + 1
    accepted := queue.accepted ++ [byte]
    touched := queue.touched ++ [index] }

/-- Taking a byte in `kbd_read_data`. -/
def Queue.take : UInt8 × Queue :=
  let index := queue.read.tmod queueSize
  let byte := loadAt queue.cells index
  (byte,
    { queue with
      read := wrapInt (queue.read + 1)
      count := queue.count - 1
      delivered := queue.delivered ++ [byte]
      touched := queue.touched ++ [index] })

/-- The index `kbd_read_data` looks at when nothing is queued. -/
def Queue.lastIndex : Int :=
  let i := wrapInt (queue.read - 1)
  if i < 0 then queueSize else i

/-- Reading there. -/
def Queue.last : UInt8 × Queue :=
  (loadAt queue.cells queue.lastIndex,
    { queue with touched := queue.touched ++ [queue.lastIndex] })

end Queue

/-! ## The controller -/

def kbdIrq : UInt8 := 1
def auxIrq : UInt8 := 12

def i8042DataReg : UInt64 := 0x60
def i8042PortBReg : UInt64 := 0x61
def i8042CommandReg : UInt64 := 0x64

@[match_pattern] def i8042CmdCtlRctr : UInt8 := 0x20
@[match_pattern] def i8042CmdCtlWctr : UInt8 := 0x60
@[match_pattern] def i8042CmdAuxLoop : UInt8 := 0xd3
@[match_pattern] def i8042CmdAuxSend : UInt8 := 0xd4
@[match_pattern] def i8042CmdAuxTest : UInt8 := 0xa9
@[match_pattern] def i8042CmdAuxDisable : UInt8 := 0xa7
@[match_pattern] def i8042CmdAuxEnable : UInt8 := 0xa8
@[match_pattern] def i8042CmdSystemReset : UInt8 := 0xfe

/-- `write_cmd` when no command waits for its argument. -/
@[match_pattern] def noCommand : UInt8 := 0

def responseAck : UInt8 := 0xfa
def modeDisableAux : UInt8 := 0x20
def auxEnableReporting : UInt8 := 0x20
def auxScalingFlag : UInt8 := 0x10
def auxDefaultResolution : UInt8 := 0x2
def auxDefaultSample : UInt8 := 100

def i8042StrAuxdata : UInt8 := 0x20
def i8042StrKeylock : UInt8 := 0x10
def i8042StrCmddat : UInt8 := 0x08
def i8042StrMuxerr : UInt8 := 0x04
def i8042StrObf : UInt8 := 0x01

def kbdModeKbdInt : UInt8 := 0x01
def kbdModeSys : UInt8 := 0x02

/-- `kvm_irq_line` and `kvm_vm_exit`. -/
inductive KbdCall where
  | irqLine (irq : UInt8) (level : Bool)
  | vmExit
deriving DecidableEq, Repr

/-- `struct kbd_state`, with the calls made so far. -/
structure KbdState where
  k : Queue
  m : Queue
  mstatus : UInt8
  mres : UInt8
  msample : UInt8
  mode : UInt8
  status : UInt8
  writeCmd : UInt8
  calls : List KbdCall

section Code

variable (state : KbdState)

/-- A call. -/
def KbdState.call (call : KbdCall) : KbdState :=
  { state with calls := state.calls ++ [call] }

/-- `kbd_update_irq`. -/
def kbdUpdateIrq : KbdState :=
  let klevel := decide (state.k.count > 0)
  let mlevel := !klevel && decide (state.m.count ≠ 0)
  let status := state.status &&& ~~~ (i8042StrObf ||| i8042StrAuxdata)
  let status := if klevel then status ||| i8042StrObf else status
  let status :=
    if mlevel then status ||| (i8042StrObf ||| i8042StrAuxdata) else status
  ({ state with status := status }.call (.irqLine kbdIrq klevel)).call
    (.irqLine auxIrq mlevel)

/-- `mouse_queue`. -/
def mouseQueue (c : UInt8) : KbdState :=
  if state.m.count ≥ queueSize then
    state
  else
    kbdUpdateIrq { state with m := state.m.put c }

/-- `kbd_queue`. -/
def kbdQueue (c : UInt8) : KbdState :=
  if state.k.count ≥ queueSize then
    state
  else
    kbdUpdateIrq { state with k := state.k.put c }

/-- `kbd_write_command`. -/
def kbdWriteCommand (val : UInt8) : KbdState :=
  match val with
  | i8042CmdCtlRctr => kbdQueue state state.mode
  | i8042CmdCtlWctr => { state with writeCmd := val }
  | i8042CmdAuxSend => { state with writeCmd := val }
  | i8042CmdAuxLoop => { state with writeCmd := val }
  | i8042CmdAuxTest => mouseQueue state 0
  | i8042CmdAuxDisable => { state with mode := state.mode ||| modeDisableAux }
  | i8042CmdAuxEnable =>
      { state with mode := state.mode &&& ~~~ modeDisableAux }
  | i8042CmdSystemReset => state.call .vmExit
  | _ => state

/-- `kbd_read_data`. -/
def kbdReadData : UInt8 × KbdState :=
  if state.k.count ≠ 0 then
    let taken := state.k.take
    (taken.1,
      kbdUpdateIrq ({ state with k := taken.2 }.call (.irqLine kbdIrq false)))
  else if state.m.count > 0 then
    let taken := state.m.take
    (taken.1,
      kbdUpdateIrq ({ state with m := taken.2 }.call (.irqLine auxIrq false)))
  else
    (state.k.last.1, { state with k := state.k.last.2 })

/-- `kbd_read_status`. -/
def kbdReadStatus : UInt8 :=
  state.status

/-- A command to the mouse, after its acknowledgement. -/
def auxSend (val : UInt8) : KbdState :=
  match val with
  | 0xe6 => { state with mstatus := state.mstatus &&& ~~~ auxScalingFlag }
  | 0xe8 => { state with mres := val }
  | 0xe9 =>
      mouseQueue
        (mouseQueue (mouseQueue state state.mstatus) state.mres)
        state.msample
  | 0xf2 => mouseQueue state 0
  | 0xf3 => { state with msample := val }
  | 0xf4 => { state with mstatus := state.mstatus ||| auxEnableReporting }
  | 0xf5 =>
      { state with mstatus := state.mstatus &&& ~~~ auxEnableReporting }
  | 0xf6 | 0xff =>
      { state with
        mstatus := 0
        mres := auxDefaultResolution
        msample := auxDefaultSample }
  | _ => state

/-- The switch of `kbd_write_data`. -/
def kbdArgument (val : UInt8) : KbdState :=
  match state.writeCmd with
  | i8042CmdCtlWctr => kbdUpdateIrq { state with mode := val }
  | i8042CmdAuxLoop => mouseQueue (mouseQueue state val) responseAck
  | i8042CmdAuxSend => auxSend (mouseQueue state responseAck) val
  | noCommand =>
      kbdUpdateIrq
        (kbdQueue (kbdQueue (kbdQueue state responseAck) 0xab) 0x41)
  | _ => state

/-- `kbd_write_data`. -/
def kbdWriteData (val : UInt8) : KbdState :=
  { kbdArgument state val with writeCmd := 0 }

/-- `kbd_io`, with what is stored in `data`. -/
def kbdIo (addr : UInt64) (data : UInt8) (isWrite : Bool) :
    UInt8 × KbdState :=
  if addr = i8042CommandReg then
    if isWrite then
      (data, kbdWriteCommand state data)
    else
      (kbdReadStatus state, state)
  else if addr = i8042DataReg then
    if isWrite then
      (data, kbdWriteData state data)
    else
      kbdReadData state
  else if addr = i8042PortBReg then
    if isWrite then (data, state) else (0x20, state)
  else
    (data, state)

end Code

/-- `kbd_reset`. -/
def kbdReset : KbdState :=
  let empty : Queue :=
    { cells := fun _ => 0
      read := 0
      write := 0
      count := 0
      accepted := []
      delivered := []
      touched := [] }
  { k := empty
    m := empty
    mstatus := 0
    mres := auxDefaultResolution
    msample := auxDefaultSample
    mode := kbdModeKbdInt ||| kbdModeSys
    status := i8042StrMuxerr ||| i8042StrCmddat ||| i8042StrKeylock
    writeCmd := 0
    calls := [] }

/-- What comes to the controller. -/
inductive KbdInput where
  | kbdQueue (c : UInt8)
  | mouseQueue (c : UInt8)
  | io (addr : UInt64) (data : UInt8) (isWrite : Bool)
deriving DecidableEq, Repr

/-- One enqueued byte or port access. -/
def kbdStep (state : KbdState) : KbdInput → KbdState
  | .kbdQueue c => kbdQueue state c
  | .mouseQueue c => mouseQueue state c
  | .io addr data isWrite => (kbdIo state addr data isWrite).2

end Kemu.Hw.I8042
