import Kemu.Lib.Bytes
import Kemu.Lib.Transition
import Mathlib.Data.List.TakeWhile

/-!
# The line editor of the monitor

The characters that come in while the monitor has the terminal are kept in
`cmd_buf`, up to the end of the line.  The room for a character is computed
from the length, which is counted on whether or not the character was stored.

`parseline` is not part of the repository: it may leave anything where the
line was.
-/

namespace Kemu.Init.Monitor

open Kemu.Lib.Bytes
open Kemu.Lib.Transition

/-! ## The code -/

/-- `sizeof(cmd_buf)`. -/
def sizeofCmdBuf : Nat := 1024

/-- `KEY_BACKSPACE`, `KEY_ENTER` and `KEY_CR`. -/
structure Keys where
  backspace : Int
  enter : Int
  cr : Int

/-- A `char` where it is compared. -/
def charValue (c : UInt8) : Int :=
  c.toInt8.toInt

/--
The memory from `cmd_buf` on, and `cmd_buf_len`; with them the places that
were written and the strings that were handed to `parseline`.
-/
structure CmdLine where
  cmdBuf : Nat → UInt8
  cmdBufLen : Nat
  written : List Nat
  handed : List (List UInt8)

/-- Nothing was typed. -/
def monitorStart : CmdLine :=
  ⟨fun _ => 0, 0, [], []⟩

/-- The bytes `snprintf` stores of a text that goes into a buffer. -/
def snprintf (size : UInt64) (text : List UInt8) : List UInt8 :=
  if size = 0 then [] else text.take (size.toNat - 1) ++ [0]

section Code

variable (parseline : (Nat → UInt8) → Nat → UInt8)

/-- `exec_cmd`. -/
def execCmd (monitor : CmdLine) : CmdLine :=
  let cmdBuf := poke monitor.cmdBuf monitor.cmdBufLen [0]
  -- the byte just stored ends the string
  let line := (peek cmdBuf 0 monitor.cmdBufLen).takeWhile (· ≠ 0)
  { cmdBuf := parseline cmdBuf
    cmdBufLen := 0
    written := monitor.written ++ [monitor.cmdBufLen]
    handed := monitor.handed ++ [line] }

/-- A character at the end of the line. -/
def addChar (monitor : CmdLine) (c : UInt8) : CmdLine :=
  let room := .ofNat sizeofCmdBuf - .ofNat monitor.cmdBufLen
  let stored := snprintf room [c]
  { monitor with
    cmdBuf := poke monitor.cmdBuf monitor.cmdBufLen stored
    cmdBufLen := monitor.cmdBufLen + 1
    written :=
      monitor.written ++
        (List.range stored.length).map (monitor.cmdBufLen + ·) }

variable (keys : Keys)

/-- `monitor_add_cmdchar`. -/
def monitorAddCmdchar (monitor : CmdLine) (c : UInt8) : CmdLine :=
  if charValue c = keys.backspace then
    if monitor.cmdBufLen > 0 then
      { monitor with cmdBufLen := monitor.cmdBufLen - 1 }
    else
      monitor
  else if charValue c = keys.enter ∨ charValue c = keys.cr then
    execCmd parseline monitor
  else
    addChar monitor c

end Code

/-! ## What is expected -/

/-- The line that is being typed, and the lines that were finished. -/
structure Typed where
  line : List UInt8
  finished : List (List UInt8)

/-- What a character does to a line. -/
def Typed.add (keys : Keys) (typed : Typed) (c : UInt8) : Typed :=
  if charValue c = keys.backspace then
    { typed with line := typed.line.dropLast }
  else if charValue c = keys.enter ∨ charValue c = keys.cr then
    ⟨[], typed.finished ++ [typed.line.take (sizeofCmdBuf - 1)]⟩
  else
    { typed with line := typed.line ++ [c] }

/-- The monitor beside the lines. -/
structure Session where
  monitor : CmdLine
  typed : Typed

def sessionStart : Session :=
  ⟨monitorStart, [], []⟩

def sessionStep (parseline : (Nat → UInt8) → Nat → UInt8) (keys : Keys)
    (session : Session) (c : UInt8) : Session :=
  ⟨monitorAddCmdchar parseline keys session.monitor c,
    session.typed.add keys c⟩

/--
The length is below the size of the buffer, all that was written is inside,
and the strings that were handed over are the lines that were typed.
-/
structure EditorRight (session : Session) : Prop where
  below : session.monitor.cmdBufLen < sizeofCmdBuf
  inside : ∀ place ∈ session.monitor.written, place < sizeofCmdBuf
  handed : session.monitor.handed = session.typed.finished

/--
A character is typed where the line has less than 1023, and a line that is
finished has no zero byte.
-/
def Fits (keys : Keys) (session : Session) (c : UInt8) : Prop :=
  if charValue c = keys.backspace then
    True
  else if charValue c = keys.enter ∨ charValue c = keys.cr then
    (0 : UInt8) ∉ session.typed.line
  else
    session.typed.line.length < sizeofCmdBuf - 1

/-! ## The buffer holds the line -/

/-- The bytes of the line are in the buffer. -/
structure Holds (session : Session) : Prop extends EditorRight session where
  length : session.monitor.cmdBufLen = session.typed.line.length
  bytes :
    peek session.monitor.cmdBuf 0 session.monitor.cmdBufLen =
      session.typed.line

section Steps

variable {parseline : (Nat → UInt8) → Nat → UInt8} {keys : Keys}
  {session : Session} {c : UInt8}

theorem sessionStart_holds : Holds sessionStart where
  below := by decide
  inside := nofun
  handed := rfl
  length := rfl
  bytes := rfl

theorem snprintf_room {length : Nat} (fits : length < sizeofCmdBuf - 1) :
    snprintf (.ofNat sizeofCmdBuf - .ofNat length) [c] = [c, 0] := by
  have room :
      UInt64.ofNat sizeofCmdBuf - .ofNat length =
        .ofNat (sizeofCmdBuf - length) := by
    rw [UInt64.ofNat_sub]
    exact Nat.le_trans (Nat.le_of_lt fits) (by decide)
  have size :
      (UInt64.ofNat (sizeofCmdBuf - length)).toNat = sizeofCmdBuf - length :=
    UInt64.toNat_ofNat_of_lt'
      (Nat.lt_of_le_of_lt (Nat.sub_le ..) (by decide))
  have some : UInt64.ofNat (sizeofCmdBuf - length) ≠ 0 := by
    intro zero
    rw [zero] at size
    have none : 0 = sizeofCmdBuf - length := size
    omega
  have all : [c].take (sizeofCmdBuf - length - 1) = [c] :=
    List.take_of_length_le (by rw [List.length_singleton]; omega)
  rw [room, snprintf, if_neg some, size, all]
  rfl

/-- A character for which there is room. -/
theorem Holds.addChar (holds : Holds session)
    (fits : session.typed.line.length < sizeofCmdBuf - 1) :
    Holds
      ⟨Monitor.addChar session.monitor c,
        { session.typed with line := session.typed.line ++ [c] }⟩ := by
  have length := holds.length
  have stored := @snprintf_room c _ (length ▸ fits)
  refine
    { below := ?_
      inside := ?_
      handed := holds.handed
      length := ?_
      bytes := ?_ }
  · show session.monitor.cmdBufLen + 1 < sizeofCmdBuf
    omega
  · intro place member
    rw [Monitor.addChar, stored] at member
    rcases List.mem_append.1 member with old | new
    · exact holds.inside place old
    · obtain ⟨turn, within, rfl⟩ := List.mem_map.1 new
      have two : turn < 2 := List.mem_range.1 within
      omega
  · rw [List.length_append, ← length]
    rfl
  · rw [Monitor.addChar, stored]
    dsimp only
    rw [peek_add, Nat.zero_add,
      peek_poke_disjoint _ (Or.inl (Nat.le_of_eq (Nat.zero_add _))),
      holds.bytes]
    have one :
        peek
            (poke session.monitor.cmdBuf session.monitor.cmdBufLen [c, 0])
            session.monitor.cmdBufLen 1 =
          [c] := by
      rw [← peek_take _ _ (Nat.le_succ 1)]
      exact congrArg (List.take 1) (peek_poke_self _ _ [c, 0])
    rw [one]

/-- The last character is taken away. -/
theorem Holds.backspace (holds : Holds session) :
    Holds
      ⟨if session.monitor.cmdBufLen > 0 then
          { session.monitor with
            cmdBufLen := session.monitor.cmdBufLen - 1 }
        else
          session.monitor,
        { session.typed with line := session.typed.line.dropLast }⟩ := by
  have length := holds.length
  split
  case isTrue =>
    refine
      { below := Nat.lt_of_le_of_lt (Nat.sub_le ..) holds.below
        inside := holds.inside
        handed := holds.handed
        length := ?_
        bytes := ?_ }
    · rw [List.length_dropLast, ← length]
    · dsimp only
      rw [List.dropLast_eq_take, ← length, ← holds.bytes,
        peek_take _ _ (Nat.sub_le ..)]
  case isFalse empty =>
    have none : session.typed.line = [] :=
      List.length_eq_zero_iff.1 (by omega)
    have same : session.typed.line.dropLast = session.typed.line := by
      rw [none]
      rfl
    rw [same]
    exact holds

/-- What is handed over, zero bytes or not. -/
theorem Holds.execCmd_handed (holds : Holds session) :
    (execCmd parseline session.monitor).handed =
      session.typed.finished ++
        [session.typed.line.takeWhile (· ≠ 0)] := by
  rw [execCmd]
  dsimp only
  rw [peek_poke_disjoint _ (Or.inl (Nat.le_of_eq (Nat.zero_add _))),
    holds.bytes, holds.handed]

theorem Holds.line_take (holds : Holds session) :
    session.typed.line.take (sizeofCmdBuf - 1) = session.typed.line :=
  List.take_of_length_le
    (Nat.le_sub_one_of_lt (holds.length ▸ holds.below))

/-- The string is the line exactly when the line has no zero byte. -/
theorem Holds.handed_iff (holds : Holds session) :
    (execCmd parseline session.monitor).handed =
        session.typed.finished ++
          [session.typed.line.take (sizeofCmdBuf - 1)] ↔
      (0 : UInt8) ∉ session.typed.line := by
  rw [holds.execCmd_handed, holds.line_take, List.append_right_inj,
    List.cons.injEq, and_iff_left rfl, List.takeWhile_eq_self_iff]
  constructor
  · intro every member
    exact absurd (every 0 member) (by decide)
  · intro clean byte member
    exact decide_eq_true (fun zero => clean (zero ▸ member))

theorem Holds.enter (holds : Holds session)
    (clean : (0 : UInt8) ∉ session.typed.line) :
    Holds
      ⟨execCmd parseline session.monitor,
        [],
        session.typed.finished ++
          [session.typed.line.take (sizeofCmdBuf - 1)]⟩ where
  below := by
    show 0 < sizeofCmdBuf
    decide
  inside := by
    intro place member
    rcases List.mem_append.1 member with old | new
    · exact holds.inside place old
    · rw [List.mem_singleton.1 new]
      exact holds.below
  handed := holds.handed_iff.2 clean
  length := rfl
  bytes := rfl

variable (parseline keys c)

theorem Holds.step (holds : Holds session) (fits : Fits keys session c) :
    Holds (sessionStep parseline keys session c) := by
  rw [sessionStep, monitorAddCmdchar, Typed.add]
  rw [Fits] at fits
  split
  case isTrue => exact holds.backspace
  case isFalse other =>
    rw [if_neg other] at fits
    split
    case isTrue enter =>
      rw [if_pos enter] at fits
      exact holds.enter fits
    case isFalse typed =>
      rw [if_neg typed] at fits
      exact holds.addChar fits

/-- Any other character shows. -/
theorem Holds.broken (holds : Holds session)
    (misfit : ¬ Fits keys session c) :
    ¬ EditorRight (sessionStep parseline keys session c) := by
  intro right
  apply misfit
  rw [Fits]
  have below := right.below
  have handed := right.handed
  rw [sessionStep, monitorAddCmdchar, Typed.add] at below handed
  split
  case isTrue => trivial
  case isFalse other =>
    rw [if_neg other] at below
    rw [if_neg other, if_neg other] at handed
    split
    case isTrue enter =>
      rw [if_pos enter, if_pos enter] at handed
      exact holds.handed_iff.1 handed
    case isFalse typed =>
      rw [if_neg typed] at below
      rw [← holds.length]
      exact Nat.lt_sub_of_add_lt below

end Steps

/-! ## Every sequence of characters -/

/--
The editor is right all the time exactly when no line gets longer than 1023
characters and no line with a zero byte is finished.
-/
theorem editor_right_iff (parseline : (Nat → UInt8) → Nat → UInt8)
    (keys : Keys) (inputs : List UInt8) :
    Throughout (sessionStep parseline keys) EditorRight sessionStart inputs ↔
      Along (sessionStep parseline keys) (Fits keys) sessionStart inputs :=
  have visible : ∀ session, Holds session → EditorRight session :=
    fun _ holds => holds.toEditorRight
  throughout_iff_along visible
    (fun _ c holds => holds.step parseline keys c)
    (fun _ c holds => holds.broken parseline keys c) sessionStart_holds
    inputs

/-- The codes of a terminal. -/
def terminalKeys : Keys :=
  ⟨127, 10, 13⟩

theorem run_letters (session : Session) (count : Nat) :
    (run (sessionStep id terminalKeys) session
        (List.replicate count 97)).monitor.cmdBufLen =
      session.monitor.cmdBufLen + count := by
  induction count generalizing session with
  | zero => rfl
  | succ count induction =>
      have more :
          (sessionStep id terminalKeys session 97).monitor.cmdBufLen =
            session.monitor.cmdBufLen + 1 :=
        rfl
      rw [List.replicate_succ, run_cons, induction, more, Nat.add_assoc,
        Nat.add_comm 1]

/--
After 1024 letters the length is the size of the buffer, and ENTER writes
behind it.
-/
theorem long_line_leaves_buffer :
    ¬ Throughout (sessionStep id terminalKeys) EditorRight sessionStart
        (List.replicate 1024 97) ∧
      sizeofCmdBuf ∈
        (run (sessionStep id terminalKeys) sessionStart
          (List.replicate 1024 97 ++ [10])).monitor.written := by
  have length := run_letters sessionStart 1024
  constructor
  · intro throughout
    rw [← List.append_nil (List.replicate 1024 97), throughout_append]
      at throughout
    have below := EditorRight.below throughout.2
    rw [length] at below
    exact absurd below (by decide)
  · rw [run_append]
    refine List.mem_append_right _ ?_
    rw [length]
    exact List.mem_singleton_self _

end Kemu.Init.Monitor
