import Kemu.Util.IoVector
import Mathlib.Algebra.Order.BigOperators.Group.Finset
import Mathlib.Data.Nat.Find

/-!
# Transferring buffer lists in full

The loops of `util/read-write.c` that call `readv`, `writev`, `preadv` or
`pwritev` until a buffer list is used up.  The host answers each call with a
number of bytes, zero at the end of the file or on error.

A cursor remembers the entries that are transferred whole, and nothing of an
entry that is transferred in part.  The loops therefore do what they should
exactly when every transfer ends where an entry ends.
-/

namespace Kemu.Util.VectorTransfer

open Kemu.Util.IoVector

/-! ## The loops -/

/--
An array of buffers and the entries that lie behind it in memory.  The host
takes no lengths that add up to more than an `ssize_t`.
-/
structure IovecArray where
  entries : List Iovec
  behind : Nat → Iovec
  fits : iovSize entries entries.length < 2 ^ 63

/-- The number of bytes an array asks for. -/
def IovecArray.size (array : IovecArray) : Nat :=
  iovSize array.entries array.entries.length

/-- The variables of a loop: the entries from `iov` on, then the counters. -/
structure Cursor where
  rest : List Iovec
  /-- How many entries behind the array `iov` has been moved over. -/
  passed : Nat
  total : Nat
  count : Nat
  offset : Nat

/-- `**iov`, which may lie behind the array. -/
def Cursor.entry (behind : Nat → Iovec) (cursor : Cursor) : Iovec :=
  match cursor.rest with
  | [] => behind cursor.passed
  | entry :: _ => entry

/-- A turn of `shift_iovec`; `offset` is null for the calls without one. -/
def Cursor.advance (positioned : Bool) (cursor : Cursor) (len : Nat) :
    Cursor where
  rest := cursor.rest.tail
  passed := if cursor.rest.isEmpty then cursor.passed + 1 else cursor.passed
  total := cursor.total + len
  count := (cursor.count + 2 ^ 64 - len) % 2 ^ 64
  offset := if positioned then cursor.offset + len else cursor.offset

/-- `shift_iovec`, for so many turns. -/
def shiftIovec (behind : Nat → Iovec) (positioned : Bool) :
    Nat → Cursor → Nat → Option Cursor
  | 0, _, _ => none
  | turns + 1, cursor, nr =>
      let len := (cursor.entry behind).len
      if len ≤ nr then
        shiftIovec behind positioned turns (cursor.advance positioned len)
          (nr - len)
      else
        some cursor

/-- A call: the places it moves bytes to or from, and its file offset. -/
structure Transfer where
  places : List Nat
  offset : Nat

/-- The end of a loop: the result, the calls made and the cursor. -/
structure Outcome where
  result : Int
  calls : List Transfer
  cursor : Cursor

/--
The loops of the four functions.  The call with some number is answered with
as many bytes as `results` has for it, and never more than were asked for;
`stop` is the result when it is answered with none.
-/
def transferLoop (behind : Nat → Iovec) (positioned : Bool)
    (stop : Nat → Int) (results : Nat → Nat) :
    Nat → Nat → Cursor → Option Outcome
  | 0, _, _ => none
  | turns + 1, call, cursor =>
      if 0 < cursor.count then
        let nr :=
          min (results call) (iovSize cursor.rest cursor.rest.length)
        let transfer : Transfer :=
          ⟨(places cursor.rest).take nr, cursor.offset⟩
        if nr = 0 then
          some ⟨stop cursor.total, [transfer], cursor⟩
        else
          match shiftIovec behind positioned turns cursor nr with
          | none => none
          | some cursor =>
              (transferLoop behind positioned stop results turns (call + 1)
                cursor).map
                fun outcome =>
                  { outcome with calls := transfer :: outcome.calls }
      else
        some ⟨cursor.total, [], cursor⟩

/-- The result of the reading functions when a call moves nothing. -/
def readStop (total : Nat) : Int :=
  if 0 < total then total else -1

/-- The result of the writing functions when a call moves nothing. -/
def writeStop (_ : Nat) : Int :=
  -1

/-- A loop from its first turn on. -/
def transferInFull (positioned : Bool) (stop : Nat → Int)
    (array : IovecArray) (results : Nat → Nat) (offset turns : Nat) :
    Option Outcome :=
  transferLoop array.behind positioned stop results turns 0
    ⟨array.entries, 0, 0, array.size, offset⟩

section Functions

variable (array : IovecArray) (results : Nat → Nat)

/-- `readv_in_full`. -/
def readvInFull (turns : Nat) : Option Outcome :=
  transferInFull false readStop array results 0 turns

/-- `writev_in_full`. -/
def writevInFull (turns : Nat) : Option Outcome :=
  transferInFull false writeStop array results 0 turns

/-- `preadv_in_full`. -/
def preadvInFull (offset turns : Nat) : Option Outcome :=
  transferInFull true readStop array results offset turns

/-- `pwritev_in_full`. -/
def pwritevInFull (offset turns : Nat) : Option Outcome :=
  transferInFull true writeStop array results offset turns

end Functions

/-! ## Moving the cursor -/

section Shift

variable {behind : Nat → Iovec} {positioned : Bool} {cursor : Cursor}

/-- Inside an array, `count` is what is left of it. -/
structure Cursor.Inside (cursor : Cursor) : Prop where
  count : cursor.count = iovSize cursor.rest cursor.rest.length
  bounded : cursor.count < 2 ^ 63

/-- A cursor moved over some of its entries. -/
def Cursor.advanced (positioned : Bool) (cursor : Cursor) (entries : Nat) :
    Cursor where
  rest := cursor.rest.drop entries
  passed := cursor.passed
  total := cursor.total + iovSize cursor.rest entries
  count := cursor.count - iovSize cursor.rest entries
  offset :=
    if positioned then cursor.offset + iovSize cursor.rest entries
    else cursor.offset

theorem Cursor.over_zero (positioned : Bool) (cursor : Cursor) :
    cursor.advanced positioned 0 = cursor := by
  cases positioned <;> simp [Cursor.advanced]

theorem Cursor.Inside.advanced (inside : cursor.Inside) {entries : Nat}
    (within : entries ≤ cursor.rest.length) :
    (cursor.advanced positioned entries).Inside := by
  have split := iovSize_drop cursor.rest within
  have count := inside.count
  constructor
  · show cursor.count - iovSize cursor.rest entries = _
    rw [count, split, Nat.add_sub_cancel_left]
    rfl
  · exact lt_of_le_of_lt (Nat.sub_le _ _) inside.bounded

variable (behind positioned) in
/-- An entry that is transferred whole is moved over. -/
theorem Cursor.Inside.advance (inside : cursor.Inside) {entry : Iovec}
    {rest : List Iovec} (first : cursor.rest = entry :: rest) :
    cursor.entry behind = entry ∧
      cursor.advance positioned entry.len = cursor.advanced positioned 1 := by
  have count := inside.count
  have bounded := inside.bounded
  rw [first, List.length_cons, iovSize_cons_succ] at count
  have wrapped :
      (cursor.count + 2 ^ 64 - entry.len) % 2 ^ 64 =
        cursor.count - entry.len := by
    omega
  constructor
  · rw [Cursor.entry, first]
  · rw [Cursor.advance, Cursor.advanced, wrapped, first]
    simp

theorem Cursor.over_over (positioned : Bool) (cursor : Cursor)
    (entries more : Nat) :
    (cursor.advanced positioned entries).advanced positioned more =
      cursor.advanced positioned (entries + more) := by
  cases positioned <;>
    simp [Cursor.advanced, iovSize_add, Nat.add_assoc, Nat.sub_sub]

/-- Entries that are transferred whole are moved over. -/
theorem shiftIovec_over (turns : Nat) {nr entries : Nat}
    (inside : cursor.Inside) (within : entries ≤ cursor.rest.length)
    (whole : iovSize cursor.rest entries ≤ nr) :
    shiftIovec behind positioned (turns + entries) cursor nr =
      shiftIovec behind positioned turns (cursor.advanced positioned entries)
        (nr - iovSize cursor.rest entries) := by
  induction entries generalizing cursor nr with
  | zero => rw [Cursor.over_zero, iovSize_zero]; rfl
  | succ entries induction =>
      obtain ⟨entry, rest, first⟩ :=
        List.exists_cons_of_length_pos (Nat.zero_lt_of_lt within)
      obtain ⟨isEntry, advanced⟩ :=
        inside.advance behind positioned first
      have size :
          iovSize cursor.rest (entries + 1) =
            entry.len +
              iovSize (cursor.advanced positioned 1).rest entries := by
        rw [Cursor.advanced, first, iovSize_cons_succ, List.drop_succ_cons,
          List.drop_zero]
      have one : iovSize cursor.rest 1 = entry.len := by
        rw [first, iovSize_cons_succ, iovSize_zero, Nat.add_zero]
      have withinRest :
          entries ≤ (cursor.advanced positioned 1).rest.length := by
        rw [Cursor.advanced, List.length_drop]
        omega
      rw [← Nat.add_assoc, shiftIovec, isEntry, if_pos (by omega), advanced,
        induction (inside.advanced (by omega)) withinRest (by omega),
        Cursor.over_over, Nat.add_comm 1, size, Nat.sub_sub]

/-- How far an amount reaches into a list: so many whole entries. -/
structure Cut (rest : List Iovec) (nr entries : Nat) : Prop where
  within : entries ≤ rest.length
  whole : iovSize rest entries ≤ nr
  rest : entries < rest.length → nr < iovSize rest (entries + 1)

theorem exists_cut (rest : List Iovec) (nr : Nat) :
    ∃ entries, Cut rest nr entries := by
  induction rest generalizing nr with
  | nil => exact ⟨0, le_rfl, by simp, by simp⟩
  | cons entry rest induction =>
      by_cases fits : entry.len ≤ nr
      · obtain ⟨entries, within, whole, stops⟩ :=
          induction (nr - entry.len)
        refine ⟨entries + 1, Nat.succ_le_succ within, ?_, ?_⟩
        · rw [iovSize_cons_succ]
          omega
        · intro more
          have rests := stops (Nat.lt_of_succ_lt_succ more)
          rw [iovSize_cons_succ]
          omega
      · refine ⟨0, Nat.zero_le _, by simp, ?_⟩
        intro _
        rw [iovSize_cons_succ, iovSize_zero]
        omega

/-- A part of an entry is forgotten. -/
theorem shiftIovec_cut {nr entries : Nat} (inside : cursor.Inside)
    (cut : Cut cursor.rest nr entries) (more : entries < cursor.rest.length)
    (turns : Nat) :
    shiftIovec behind positioned (turns + 1 + entries) cursor nr =
      some (cursor.advanced positioned entries) := by
  have whole := cut.whole
  have stops := cut.rest more
  obtain ⟨entry, rest, first⟩ :
      ∃ entry rest, cursor.rest.drop entries = entry :: rest :=
    List.exists_cons_of_ne_nil
      (fun none =>
        absurd (List.drop_eq_nil_iff.mp none) (Nat.not_le.mpr more))
  have isEntry :
      (cursor.advanced positioned entries).entry behind = entry := by
    rw [Cursor.entry,
      show (cursor.advanced positioned entries).rest = _ from first]
  have next : iovSize (cursor.rest.drop entries) 1 = entry.len := by
    rw [first, iovSize_cons_succ, iovSize_zero, Nat.add_zero]
  rw [iovSize_add, next] at stops
  rw [shiftIovec_over _ inside cut.within cut.whole, shiftIovec, isEntry,
    if_neg (by omega)]

/-- Behind the array, the cursor moves over entries without bytes. -/
def Cursor.past (cursor : Cursor) (entries : Nat) : Cursor :=
  { cursor with passed := cursor.passed + entries }

theorem shiftIovec_past (turns : Nat) {entries : Nat}
    (inside : cursor.Inside) (ended : cursor.rest = [])
    (empty :
      ∀ index < entries, (behind (cursor.passed + index)).len = 0) :
    shiftIovec behind positioned (turns + entries) cursor 0 =
      shiftIovec behind positioned turns (cursor.past entries) 0 := by
  induction entries generalizing cursor with
  | zero => rfl
  | succ entries induction =>
      have count : cursor.count = 0 := by
        rw [inside.count, ended]
        rfl
      have isEntry : (cursor.entry behind).len = 0 := by
        rw [Cursor.entry, ended]
        exact empty 0 (Nat.zero_lt_succ _)
      have advanced : cursor.advance positioned 0 = cursor.past 1 := by
        unfold Cursor.advance Cursor.past
        simp [ended, count]
      have insideNext : (cursor.past 1).Inside :=
        ⟨inside.count, inside.bounded⟩
      rw [← Nat.add_assoc, shiftIovec, isEntry, if_pos le_rfl, advanced,
        induction insideNext ended]
      · unfold Cursor.past
        simp only [Nat.add_assoc, Nat.add_comm 1]
      · intro index small
        have later := empty (index + 1) (Nat.succ_lt_succ small)
        unfold Cursor.past
        rwa [← Nat.add_assoc, Nat.add_right_comm] at later

/-- How far behind the array the cursor goes. -/
structure Past (behind : Nat → Iovec) (entries : Nat) : Prop where
  empty : ∀ index < entries, (behind index).len = 0
  stops : 0 < (behind entries).len

/-- What `shift_iovec` does with an amount that the array has. -/
inductive Shifted (behind : Nat → Iovec) (positioned : Bool)
    (cursor : Cursor) (nr : Nat) : Cursor → Prop
  | inside (entries : Nat) (cut : Cut cursor.rest nr entries)
      (more : entries < cursor.rest.length) :
      Shifted behind positioned cursor nr (cursor.advanced positioned entries)
  | ended (past : Nat) (all : nr = cursor.count) (last : Past behind past) :
      Shifted behind positioned cursor nr
        ((cursor.advanced positioned cursor.rest.length).past past)

/-- More turns change nothing. -/
theorem shiftIovec_mono {turns more nr : Nat} {after : Cursor}
    (shifted : shiftIovec behind positioned turns cursor nr = some after) :
    shiftIovec behind positioned (turns + more) cursor nr = some after := by
  induction turns generalizing cursor nr with
  | zero => cases shifted
  | succ turns induction =>
      rw [Nat.succ_add, shiftIovec]
      rw [shiftIovec] at shifted
      split at shifted
      case isTrue whole =>
        rw [if_pos whole]
        exact induction shifted
      case isFalse part =>
        rw [if_neg part]
        exact shifted

theorem exists_past {behind : Nat → Iovec} {index : Nat}
    (stops : 0 < (behind index).len) : ∃ past, Past behind past := by
  classical
  have found : ∃ index, 0 < (behind index).len := ⟨index, stops⟩
  refine ⟨Nat.find found, ?_, Nat.find_spec found⟩
  intro earlier before
  exact Nat.eq_zero_of_not_pos (Nat.find_min found before)

/-- An amount that ends in the array, or a stop behind it. -/
theorem exists_shifted {nr : Nat} (inside : cursor.Inside)
    (within : nr ≤ cursor.count)
    (stops : nr < cursor.count ∨ ∃ past, Past behind past) :
    ∃ after, Shifted behind positioned cursor nr after := by
  obtain ⟨entries, cut⟩ := exists_cut cursor.rest nr
  by_cases more : entries < cursor.rest.length
  · exact ⟨_, .inside entries cut more⟩
  · have whole := cut.whole
    have ends : entries = cursor.rest.length :=
      Nat.le_antisymm cut.within (Nat.not_lt.mp more)
    rw [ends, ← inside.count] at whole
    obtain ⟨past, last⟩ := stops.resolve_left (Nat.not_lt.mpr whole)
    exact ⟨_, .ended past (Nat.le_antisymm within whole) last⟩

section Inside

variable {nr : Nat} (inside : cursor.Inside) (fresh : cursor.passed = 0)

include inside fresh

/-- The end of the array is behind an amount that is all it has. -/
theorem shiftIovec_end (all : nr = cursor.count) (turns : Nat) {past : Nat}
    (empty : ∀ index < past, (behind index).len = 0) :
    shiftIovec behind positioned (turns + past + cursor.rest.length) cursor
        nr =
      shiftIovec behind positioned turns
        ((cursor.advanced positioned cursor.rest.length).past past) 0 := by
  have size := inside.count
  rw [shiftIovec_over _ inside le_rfl (by omega), all, size,
    Nat.sub_self]
  apply shiftIovec_past turns (inside.advanced le_rfl)
  · exact List.drop_length
  · intro index small
    show (behind (cursor.passed + index)).len = 0
    rw [fresh, Nat.zero_add]
    exact empty index small

/-- An amount that the array has moves the cursor so. -/
theorem Shifted.exists {after : Cursor}
    (shifted : Shifted behind positioned cursor nr after) :
    ∃ enough, ∀ turns, enough ≤ turns →
      shiftIovec behind positioned turns cursor nr = some after := by
  cases shifted with
  | inside entries cut more =>
      refine ⟨0 + 1 + entries, ?_⟩
      intro turns enough
      have once :
          shiftIovec behind positioned (0 + 1 + entries) cursor nr =
            some (cursor.advanced positioned entries) :=
        shiftIovec_cut inside cut more 0
      rw [← Nat.add_sub_cancel' enough]
      exact shiftIovec_mono once
  | ended past all last =>
      refine ⟨1 + past + cursor.rest.length, ?_⟩
      intro turns enough
      rw [← Nat.add_sub_cancel' enough]
      apply shiftIovec_mono
      have isEntry :
          ((cursor.advanced positioned cursor.rest.length).past past).entry
              behind =
            behind past := by
        unfold Cursor.entry Cursor.past Cursor.advanced
        rw [List.drop_length, fresh, Nat.zero_add]
      rw [shiftIovec_end inside fresh all 1 last.empty, shiftIovec, isEntry,
        if_neg (Nat.not_le.mpr last.stops)]

/-- There is no other way. -/
theorem shifted_of_some {turns : Nat} {after : Cursor}
    (within : nr ≤ cursor.count)
    (moved : shiftIovec behind positioned turns cursor nr = some after) :
    Shifted behind positioned cursor nr after := by
  have agrees :
      ∀ {other : Cursor}, Shifted behind positioned cursor nr other →
        other = after := by
    intro other shifted
    obtain ⟨enough, same⟩ := shifted.exists inside fresh
    have later :
        shiftIovec behind positioned (turns + enough) cursor nr =
          some after :=
      shiftIovec_mono moved
    rw [same _ (Nat.le_add_left _ _)] at later
    exact Option.some.inj later
  have known :
      (nr < cursor.count ∨ ∃ past, Past behind past) →
        Shifted behind positioned cursor nr after := by
    intro stops
    obtain ⟨other, shifted⟩ :
        ∃ other, Shifted behind positioned cursor nr other :=
      exists_shifted inside within stops
    rwa [agrees shifted] at shifted
  by_cases found : ∃ index, 0 < (behind index).len
  · obtain ⟨index, stops⟩ := found
    exact known (Or.inr (exists_past stops))
  · by_cases less : nr < cursor.count
    · exact known (Or.inl less)
    · -- Nothing behind the array stops the cursor.
      have empty : ∀ index < turns, (behind index).len = 0 :=
        fun index _ => Nat.eq_zero_of_not_pos (fun stops =>
          found ⟨index, stops⟩)
      have all : nr = cursor.count :=
        Nat.le_antisymm within (Nat.not_lt.mp less)
      have never :
          shiftIovec behind positioned (0 + turns + cursor.rest.length)
              cursor nr =
            none :=
        shiftIovec_end inside fresh all 0 empty
      rw [Nat.zero_add, shiftIovec_mono moved] at never
      cases never

end Inside

/-- A cursor in the array, or behind it with nothing left to transfer. -/
structure Cursor.Sound (cursor : Cursor) : Prop extends cursor.Inside where
  fresh : 0 < cursor.count → cursor.passed = 0

theorem Shifted.sound {nr : Nat} {after : Cursor}
    (sound : cursor.Sound) (more : 0 < cursor.count)
    (shifted : Shifted behind positioned cursor nr after) :
    after.Sound := by
  cases shifted with
  | inside entries cut _ =>
      exact ⟨sound.advanced cut.within, fun _ => sound.fresh more⟩
  | ended past _ _ =>
      have inside :
          (cursor.advanced positioned cursor.rest.length).Inside :=
        sound.advanced le_rfl
      refine ⟨⟨inside.count, inside.bounded⟩, ?_⟩
      intro left
      have size := inside.count
      have none : (cursor.advanced positioned cursor.rest.length).rest = [] :=
        List.drop_length
      rw [none] at size
      exact absurd left (by
        show ¬ 0 < (cursor.advanced positioned cursor.rest.length).count
        rw [size]
        decide)

end Shift

/-! ## Runs of a loop -/

section Run

variable (behind : Nat → Iovec) (positioned : Bool) (stop : Nat → Int)
  (results : Nat → Nat)

/-- The bytes a call moves. -/
def granted (results : Nat → Nat) (call : Nat) (cursor : Cursor) : Nat :=
  min (results call) cursor.count

/-- A call that moves the first bytes of what is left. -/
def Cursor.transfer (cursor : Cursor) (nr : Nat) : Transfer :=
  ⟨(places cursor.rest).take nr, cursor.offset⟩

/-- The run of a loop from a cursor on. -/
inductive Run : Nat → Cursor → Outcome → Prop
  | finished (call : Nat) (cursor : Cursor) (done : cursor.count = 0) :
      Run call cursor ⟨cursor.total, [], cursor⟩
  | stopped (call : Nat) (cursor : Cursor) (more : 0 < cursor.count)
      (none : results call = 0) :
      Run call cursor
        ⟨stop cursor.total, [cursor.transfer 0], cursor⟩
  | moved (call : Nat) (cursor after : Cursor) (outcome : Outcome)
      (more : 0 < cursor.count) (some : 0 < results call)
      (shifted :
        Shifted behind positioned cursor (granted results call cursor) after)
      (rest : Run (call + 1) after outcome) :
      Run call cursor
        { outcome with
          calls :=
            cursor.transfer (granted results call cursor) ::
              outcome.calls }

variable {behind positioned stop results}

theorem run_of_some {turns call : Nat} {cursor : Cursor}
    {outcome : Outcome} (sound : cursor.Sound)
    (ended :
      transferLoop behind positioned stop results turns call cursor =
        some outcome) :
    Run behind positioned stop results call cursor outcome := by
  induction turns generalizing call cursor outcome with
  | zero => cases ended
  | succ turns induction =>
      rw [transferLoop, ← sound.count] at ended
      split at ended
      case isFalse done =>
        cases ended
        exact .finished call cursor (Nat.eq_zero_of_not_pos done)
      case isTrue more =>
        dsimp only at ended
        split at ended
        case isTrue none =>
          cases ended
          rw [none]
          exact .stopped call cursor more (by omega)
        case isFalse some =>
          split at ended
          case h_1 => cases ended
          case h_2 after moved =>
            have shifted :=
              shifted_of_some sound.toInside (sound.fresh more)
                (Nat.min_le_right _ _) moved
            obtain ⟨last, rest, same⟩ := Option.map_eq_some_iff.mp ended
            rw [← same]
            exact
              .moved call cursor after last more (by omega) shifted
                (induction (shifted.sound sound more) rest)

theorem Run.exists {call : Nat} {cursor : Cursor} {outcome : Outcome}
    (sound : cursor.Sound)
    (run : Run behind positioned stop results call cursor outcome) :
    ∃ enough, ∀ turns, enough ≤ turns →
      transferLoop behind positioned stop results turns call cursor =
        some outcome := by
  induction run with
  | finished call cursor done =>
      refine ⟨1, ?_⟩
      intro turns enough
      obtain ⟨fewer, rfl⟩ := Nat.exists_eq_add_of_le' enough
      rw [transferLoop, if_neg (by omega)]
  | stopped call cursor more none =>
      refine ⟨1, ?_⟩
      intro turns enough
      obtain ⟨fewer, rfl⟩ := Nat.exists_eq_add_of_le' enough
      rw [transferLoop, if_pos more, none, Nat.zero_min]
      rfl
  | moved call cursor after outcome more some shifted rest induction =>
      obtain ⟨enoughShift, shifts⟩ :=
        shifted.exists sound.toInside (sound.fresh more)
      obtain ⟨enoughRest, rests⟩ := induction (shifted.sound sound more)
      refine ⟨max enoughShift enoughRest + 1, ?_⟩
      intro turns enough
      obtain ⟨fewer, rfl⟩ : ∃ fewer, turns = fewer + 1 :=
        Nat.exists_eq_add_of_le' (by omega)
      have granted_pos : granted results call cursor ≠ 0 := by
        unfold granted
        omega
      rw [transferLoop, if_pos more, ← sound.count]
      dsimp only
      rw [← granted, if_neg granted_pos, shifts fewer (by omega)]
      dsimp only
      rw [rests fewer (by omega)]
      rfl

end Run

/-! ## Transfers that end with an entry -/

/-- What the first calls are answered with, in all. -/
def sumTo (results : Nat → Nat) (calls : Nat) : Nat :=
  ∑ call ∈ Finset.range calls, results call

theorem sumTo_succ (results : Nat → Nat) (calls : Nat) :
    sumTo results (calls + 1) =
      results 0 + sumTo (fun call => results (call + 1)) calls := by
  rw [sumTo, Finset.sum_range_succ', Nat.add_comm, sumTo]

/-- A number of bytes that is some first entries of a list. -/
def Boundary (rest : List Iovec) (position : Nat) : Prop :=
  ∃ entries ≤ rest.length, iovSize rest entries = position

/--
Up to the first answer that moves nothing, each moves bytes to the end of an
entry.
-/
def EndsWhole (rest : List Iovec) (results : Nat → Nat) : Prop :=
  ∀ call, (∀ earlier ≤ call, 0 < results earlier) →
    sumTo results call < iovSize rest rest.length →
      Boundary rest
        (min (sumTo results (call + 1)) (iovSize rest rest.length))

/-- The answers reach the end of a list that has bytes. -/
def Exhausts (rest : List Iovec) (results : Nat → Nat) : Prop :=
  0 < iovSize rest rest.length ∧
    ∃ calls, (∀ call < calls, 0 < results call) ∧
      iovSize rest rest.length ≤ sumTo results calls

section Whole

variable {rest : List Iovec} {results : Nat → Nat}

theorem boundary_drop {entries position : Nat}
    (within : entries ≤ rest.length) :
    Boundary rest (iovSize rest entries + position) ↔
      Boundary (rest.drop entries) position := by
  constructor
  · rintro ⟨reached, inside, same⟩
    by_cases behind : entries ≤ reached
    · obtain ⟨more, rfl⟩ := Nat.exists_eq_add_of_le behind
      refine ⟨more, ?_, ?_⟩
      · rw [List.length_drop]
        omega
      · rw [iovSize_add] at same
        omega
    · have before := iovSize_le_of_le rest (Nat.le_of_not_le behind)
      refine ⟨0, Nat.zero_le _, ?_⟩
      rw [iovSize_zero]
      omega
  · rintro ⟨more, inside, same⟩
    rw [List.length_drop] at inside
    exact ⟨entries + more, by omega, by rw [iovSize_add, same]⟩

theorem EndsWhole.first (whole : EndsWhole rest results)
    (some : 0 < iovSize rest rest.length) (moves : 0 < results 0) :
    Boundary rest (min (results 0) (iovSize rest rest.length)) := by
  have answered := whole 0 (by
    intro earlier first
    rwa [Nat.le_zero.mp first]) some
  rwa [sumTo_succ, sumTo, Finset.sum_range_zero, Nat.add_zero] at answered

theorem Exhausts.moves (exhausts : Exhausts rest results) :
    0 < results 0 := by
  obtain ⟨some, calls, moves, reaches⟩ := exhausts
  cases calls with
  | zero =>
      rw [sumTo, Finset.sum_range_zero] at reaches
      omega
  | succ calls => exact moves 0 (Nat.zero_lt_succ _)

/-- Answers with bytes are worth at least a byte each. -/
theorem le_sumTo (moves : ∀ call, 0 < results call) (calls : Nat) :
    calls ≤ sumTo results calls := by
  induction calls generalizing results with
  | zero => exact Nat.zero_le _
  | succ calls induction =>
      have first := moves 0
      have later := induction fun call => moves (call + 1)
      rw [sumTo_succ]
      omega

theorem exhausts_of_moves (some : 0 < iovSize rest rest.length)
    (moves : ∀ call, 0 < results call) : Exhausts rest results :=
  ⟨some, iovSize rest rest.length, fun call _ => moves call,
    le_sumTo moves _⟩

theorem endsWhole_of_stop
    (stops : results 0 = 0 ∨ iovSize rest rest.length = 0) :
    EndsWhole rest results := by
  intro call moves left
  rcases stops with none | done
  · exact absurd (moves 0 (Nat.zero_le _)) (by omega)
  · omega

section Later

variable {entries : Nat} (within : entries ≤ rest.length)
  (moves : 0 < results 0)
  (ends :
    iovSize rest entries = min (results 0) (iovSize rest rest.length))

include within moves ends

variable (results) in
/-- An answer that ends whole leaves the question to the later ones. -/
theorem endsWhole_iff_drop :
    EndsWhole rest results ↔
      EndsWhole (rest.drop entries) fun call => results (call + 1) := by
  have split := iovSize_drop rest within
  have shifted : ∀ moved,
      iovSize rest entries +
          min moved (iovSize (rest.drop entries) (rest.drop entries).length) =
        min (results 0 + moved) (iovSize rest rest.length) := by
    intro moved
    omega
  constructor
  · intro whole call later left
    have answered := whole (call + 1) (by
      intro earlier before
      cases earlier with
      | zero => exact moves
      | succ earlier => exact later earlier (Nat.le_of_succ_le_succ before))
    rw [sumTo_succ, sumTo_succ] at answered
    rw [← boundary_drop within, shifted]
    exact answered (by omega)
  · intro whole call later left
    cases call with
    | zero =>
        rw [sumTo_succ, sumTo, Finset.sum_range_zero, Nat.add_zero]
        exact ⟨entries, within, ends⟩
    | succ call =>
        rw [sumTo_succ] at left ⊢
        have answered := whole call
          (fun earlier before => later (earlier + 1) (Nat.succ_le_succ before))
          (by omega)
        rwa [← boundary_drop within, shifted] at answered

variable (results) in
/-- So do answers that reach the end. -/
theorem exhausts_iff_drop
    (left :
      0 < iovSize (rest.drop entries) (rest.drop entries).length) :
    Exhausts rest results ↔
      Exhausts (rest.drop entries) fun call => results (call + 1) := by
  have split := iovSize_drop rest within
  constructor
  · rintro ⟨_, calls, later, reaches⟩
    cases calls with
    | zero =>
        rw [sumTo, Finset.sum_range_zero] at reaches
        omega
    | succ calls =>
        rw [sumTo_succ] at reaches
        refine ⟨left, calls, ?_, by omega⟩
        intro call before
        exact later (call + 1) (Nat.succ_lt_succ before)
  · rintro ⟨_, calls, later, reaches⟩
    refine ⟨by omega, calls + 1, ?_, by rw [sumTo_succ]; omega⟩
    intro call before
    cases call with
    | zero => exact moves
    | succ call => exact later call (Nat.lt_of_succ_lt_succ before)

end Later

end Whole

/-! ## What a run transfers -/

/-- The places of all calls, call after call. -/
def Outcome.moved (outcome : Outcome) : List Nat :=
  outcome.calls.flatMap Transfer.places

/-- Each call goes on where the bytes of the ones before it end. -/
def Continues : Nat → List Transfer → Prop
  | _, [] => True
  | offset, transfer :: calls =>
      transfer.offset = offset ∧
        Continues (offset + transfer.places.length) calls

/-- A cursor behind the entries that an amount reaches. -/
structure Over (positioned : Bool) (cursor : Cursor) (nr entries : Nat)
    (after : Cursor) : Prop where
  cut : Cut cursor.rest nr entries
  rest : after.rest = cursor.rest.drop entries
  total : after.total = cursor.total + iovSize cursor.rest entries
  count : after.count = cursor.count - iovSize cursor.rest entries
  offset :
    positioned = true →
      after.offset = cursor.offset + iovSize cursor.rest entries

section Answers

variable {behind : Nat → Iovec} {positioned : Bool} {stop : Nat → Int}
  {results : Nat → Nat}

theorem Shifted.advanced {cursor after : Cursor} {nr : Nat}
    (inside : cursor.Inside)
    (shifted : Shifted behind positioned cursor nr after) :
    ∃ entries, Over positioned cursor nr entries after := by
  have offset (entries : Nat) (is_positioned : positioned = true) :
      (cursor.advanced positioned entries).offset =
        cursor.offset + iovSize cursor.rest entries := by
    rw [Cursor.advanced, if_pos is_positioned]
  cases shifted with
  | inside entries cut more =>
      exact ⟨entries, cut, rfl, rfl, rfl, offset entries⟩
  | ended past all last =>
      have size := inside.count
      refine ⟨cursor.rest.length, ⟨le_rfl, by omega, ?_⟩, rfl, rfl, rfl,
        offset _⟩
      intro more
      exact absurd more (Nat.lt_irrefl _)

theorem Cut.boundary_iff {rest : List Iovec} {nr entries : Nat}
    (cut : Cut rest nr entries) :
    Boundary rest nr ↔ iovSize rest entries = nr := by
  have whole := cut.whole
  constructor
  · rintro ⟨reached, inside, same⟩
    by_cases before : reached ≤ entries
    · have less := iovSize_le_of_le rest before
      omega
    · have further : entries + 1 ≤ reached := Nat.not_le.mp before
      have more := iovSize_le_of_le rest further
      have stops := cut.rest (by omega)
      omega
  · intro same
    exact ⟨entries, cut.within, same⟩

section Turn

variable {call : Nat} {cursor after : Cursor} {entries : Nat}
  (sound : cursor.Sound) (more : 0 < cursor.count)
  (some : 0 < results call)
  (advanced :
    Over positioned cursor (granted results call cursor) entries after)

include sound

variable (results call) in
theorem transfer_length :
    (cursor.transfer (granted results call cursor)).places.length =
      granted results call cursor := by
  have fits : granted results call cursor ≤ cursor.count :=
    Nat.min_le_right _ _
  rw [Cursor.transfer, List.length_take, places_length, ← sound.count,
    Nat.min_eq_left fits]

include more some advanced

/-- A turn, and the turns after it. -/
theorem Over.endsWhole_iff :
    (EndsWhole cursor.rest fun index => results (call + index)) ↔
      iovSize cursor.rest entries = granted results call cursor ∧
        EndsWhole after.rest fun index => results (call + 1 + index) := by
  have size := sound.count
  have within : granted results call cursor =
      min (results call) (iovSize cursor.rest cursor.rest.length) := by
    rw [granted, size]
  have later :
      iovSize cursor.rest entries = granted results call cursor →
        ((EndsWhole cursor.rest fun index => results (call + index)) ↔
          EndsWhole after.rest fun index => results (call + 1 + index)) := by
    intro ends
    have dropped :=
      endsWhole_iff_drop (fun index => results (call + index))
        advanced.cut.within some (ends.trans within)
    rw [dropped, advanced.rest]
    simp only [Nat.add_assoc, Nat.add_comm 1]
  constructor
  · intro whole
    have ends : iovSize cursor.rest entries = granted results call cursor := by
      rw [← advanced.cut.boundary_iff, within]
      exact whole.first (by omega) some
    exact ⟨ends, (later ends).mp whole⟩
  · rintro ⟨ends, whole⟩
    exact (later ends).mpr whole

theorem Over.exhausts_iff
    (whole : EndsWhole cursor.rest fun index => results (call + index))
    (left : 0 < after.count) :
    (Exhausts cursor.rest fun index => results (call + index)) ↔
      Exhausts after.rest fun index => results (call + 1 + index) := by
  have size := sound.count
  have split := iovSize_drop cursor.rest advanced.cut.within
  have count := advanced.count
  obtain ⟨ends, _⟩ := (advanced.endsWhole_iff sound more some).mp whole
  rw [granted, size] at ends
  have dropped :=
    exhausts_iff_drop (fun index => results (call + index))
      advanced.cut.within some ends (by omega)
  rw [dropped, advanced.rest]
  simp only [Nat.add_assoc, Nat.add_comm 1]

end Turn

section Forward

variable {call : Nat} {cursor : Cursor} {outcome : Outcome}
  (sound : cursor.Sound)
  (run : Run behind positioned stop results call cursor outcome)

include sound run

/-- A cursor never counts more than is moved. -/
theorem Run.total_le :
    outcome.cursor.total ≤ cursor.total + outcome.moved.length := by
  induction run with
  | finished call cursor done => exact Nat.le_add_right _ _
  | stopped call cursor more none => exact Nat.le_add_right _ _
  | moved call cursor after outcome more some shifted rest induction =>
      obtain ⟨entries, advanced⟩ := shifted.advanced sound.toInside
      have later := induction (shifted.sound sound more)
      have whole := advanced.cut.whole
      have total := advanced.total
      have length := transfer_length results call sound
      show outcome.cursor.total ≤
        cursor.total + (List.flatMap _ (_ :: _)).length
      rw [List.flatMap_cons, List.length_append, length]
      unfold Outcome.moved at later
      omega

/-- What it counts and what is left make up the array. -/
theorem Run.total_add_count :
    outcome.cursor.total + outcome.cursor.count =
      cursor.total + cursor.count := by
  induction run with
  | finished call cursor done => rfl
  | stopped call cursor more none => rfl
  | moved call cursor after outcome more some shifted rest induction =>
      obtain ⟨entries, advanced⟩ := shifted.advanced sound.toInside
      have kept := induction (shifted.sound sound more)
      have fits : granted results call cursor ≤ cursor.count :=
        Nat.min_le_right _ _
      have whole := advanced.cut.whole
      have total := advanced.total
      have count := advanced.count
      show outcome.cursor.total + outcome.cursor.count = _
      omega

/-- It counts all that is moved when transfers end with entries. -/
theorem Run.total_eq_iff :
    outcome.cursor.total = cursor.total + outcome.moved.length ↔
      EndsWhole cursor.rest fun index => results (call + index) := by
  induction run with
  | finished call cursor done =>
      have size := sound.count
      refine ⟨fun _ => endsWhole_of_stop (Or.inr (by omega)), fun _ => rfl⟩
  | stopped call cursor more none =>
      exact ⟨fun _ => endsWhole_of_stop (Or.inl none), fun _ => rfl⟩
  | moved call cursor after outcome more some shifted rest induction =>
      obtain ⟨entries, advanced⟩ := shifted.advanced sound.toInside
      have soundAfter := shifted.sound sound more
      have le := rest.total_le soundAfter
      have whole := advanced.cut.whole
      have total := advanced.total
      have length := transfer_length results call sound
      rw [advanced.endsWhole_iff sound more some, ← induction soundAfter]
      show outcome.cursor.total =
        cursor.total + (List.flatMap _ (_ :: _)).length ↔ _
      rw [List.flatMap_cons, List.length_append, length]
      unfold Outcome.moved at le ⊢
      constructor
      · intro same
        constructor <;> omega
      · rintro ⟨ends, same⟩
        omega

omit sound in
theorem Run.finished_eq (done : cursor.count = 0) :
    outcome = ⟨cursor.total, [], cursor⟩ := by
  cases run with
  | finished call cursor done => rfl
  | stopped call cursor more none => exact absurd done (by omega)
  | moved call cursor after outcome more some shifted rest =>
      exact absurd done (by omega)

omit sound in
/-- A loop that goes on asks from its offset on. -/
theorem Run.first_offset (more : 0 < cursor.count) :
    ∃ transfer calls,
      outcome.calls = transfer :: calls ∧
        transfer.offset = cursor.offset := by
  cases run with
  | finished call cursor done => exact absurd more (by omega)
  | stopped call cursor more none => exact ⟨_, _, rfl, rfl⟩
  | moved call cursor after outcome more some shifted rest =>
      exact ⟨_, _, rfl, rfl⟩

/-- It goes on where it is when transfers end with entries. -/
theorem Run.continues_iff (is_positioned : positioned = true) :
    Continues cursor.offset outcome.calls ↔
      EndsWhole cursor.rest fun index => results (call + index) := by
  induction run with
  | finished call cursor done =>
      have size := sound.count
      exact ⟨fun _ => endsWhole_of_stop (Or.inr (by omega)),
        fun _ => trivial⟩
  | stopped call cursor more none =>
      exact ⟨fun _ => endsWhole_of_stop (Or.inl none),
        fun _ => ⟨rfl, trivial⟩⟩
  | moved call cursor after outcome more some shifted rest induction =>
      obtain ⟨entries, advanced⟩ := shifted.advanced sound.toInside
      have soundAfter := shifted.sound sound more
      have whole := advanced.cut.whole
      have count := advanced.count
      have offset := advanced.offset is_positioned
      have fits : granted results call cursor ≤ cursor.count :=
        Nat.min_le_right _ _
      have length := transfer_length results call sound
      rw [advanced.endsWhole_iff sound more some, ← induction soundAfter,
        Continues, length]
      constructor
      · rintro ⟨_, rests⟩
        have ends :
            iovSize cursor.rest entries = granted results call cursor := by
          by_contra part
          obtain ⟨transfer, calls, first, asks⟩ :=
            rest.first_offset (by omega)
          rw [first] at rests
          have goes := rests.1
          omega
        rw [← ends, ← offset] at rests
        exact ⟨ends, rests⟩
      · rintro ⟨ends, rests⟩
        rw [offset, ends] at rests
        exact ⟨rfl, rests⟩

/-- What is moved comes in order when transfers end with entries. -/
theorem Run.moved_eq
    (whole : EndsWhole cursor.rest fun index => results (call + index)) :
    outcome.moved = (places cursor.rest).take outcome.moved.length := by
  induction run with
  | finished call cursor done => rfl
  | stopped call cursor more none => rfl
  | moved call cursor after outcome more some shifted rest induction =>
      obtain ⟨entries, advanced⟩ := shifted.advanced sound.toInside
      obtain ⟨ends, later⟩ :=
        (advanced.endsWhole_iff sound more some).mp whole
      have order := induction (shifted.sound sound more) later
      have length := transfer_length results call sound
      show List.flatMap _ (_ :: _) = (places cursor.rest).take
        (List.flatMap _ (_ :: _)).length
      rw [List.flatMap_cons, List.length_append, length, List.take_add]
      rw [advanced.rest, places_drop, ends] at order
      exact congrArg _ order

/-- Answers that reach the end show what stands behind it. -/
theorem Run.past (exhausts :
      Exhausts cursor.rest fun index => results (call + index))
    (whole : EndsWhole cursor.rest fun index => results (call + index)) :
    Past behind outcome.cursor.passed := by
  induction run with
  | finished call cursor done =>
      have size := sound.count
      have some := exhausts.1
      omega
  | stopped call cursor more none =>
      have moves : 0 < results call := exhausts.moves
      omega
  | moved call cursor after outcome more some shifted rest induction =>
      have soundAfter := shifted.sound sound more
      obtain ⟨entries, advanced⟩ := shifted.advanced sound.toInside
      obtain ⟨_, later⟩ := (advanced.endsWhole_iff sound more some).mp whole
      by_cases left : 0 < after.count
      · apply induction soundAfter _ later
        exact (advanced.exhausts_iff sound more some whole left).mp exhausts
      · have same := rest.finished_eq (Nat.eq_zero_of_not_pos left)
        show Past behind outcome.cursor.passed
        rw [same]
        cases shifted with
        | inside entries cut behind =>
            -- The list has bytes that the amount does not reach.
            have whole := cut.whole
            have stops := cut.rest behind
            have further : entries + 1 ≤ cursor.rest.length := behind
            have bound := iovSize_le_of_le cursor.rest further
            have size := sound.count
            refine absurd ?_ left
            show 0 < cursor.count - iovSize cursor.rest entries
            omega
        | ended past all last =>
            show Past behind (cursor.passed + past)
            rwa [sound.fresh more, Nat.zero_add]

omit sound in
/-- The result is what the cursor counts, or that of a call without bytes. -/
theorem Run.result_eq :
    outcome.result = outcome.cursor.total ∨
      outcome.result = stop outcome.cursor.total := by
  induction run with
  | finished call cursor done => exact Or.inl rfl
  | stopped call cursor more none => exact Or.inr rfl
  | moved call cursor after outcome more some shifted rest induction =>
      exact induction

/-- A loop whose first call moves bytes. -/
theorem Run.moves (more : 0 < cursor.count) (some : 0 < results call) :
    0 < outcome.moved.length := by
  cases run with
  | finished call cursor done => exact absurd more (by omega)
  | stopped call cursor more none => exact absurd some (by omega)
  | moved call cursor after outcome more some shifted rest =>
      have length := transfer_length results call sound
      have grants : 0 < granted results call cursor :=
        Nat.lt_min.mpr ⟨some, more⟩
      show 0 < (List.flatMap _ (_ :: _)).length
      rw [List.flatMap_cons, List.length_append, length]
      omega

omit sound in
/-- A loop whose first call moves none. -/
theorem Run.stopped_eq (more : 0 < cursor.count) (none : results call = 0) :
    outcome.result = stop cursor.total ∧ outcome.moved = [] := by
  cases run with
  | finished call cursor done => exact absurd more (by omega)
  | stopped call cursor more none => exact ⟨rfl, rfl⟩
  | moved call cursor after outcome more some shifted rest =>
      exact absurd some (by omega)

omit sound in
/-- With bytes in each answer, a loop ends when nothing is left. -/
theorem Run.count_eq_zero (moves : ∀ call, 0 < results call) :
    outcome.cursor.count = 0 := by
  induction run with
  | finished call cursor done => exact done
  | stopped call cursor more none => exact absurd (moves call) (by omega)
  | moved call cursor after outcome more some shifted rest induction =>
      exact induction

end Forward

/-- Transfers that end with entries, and a stop behind the array. -/
theorem exists_run {call : Nat} {cursor : Cursor} (sound : cursor.Sound)
    (whole : EndsWhole cursor.rest fun index => results (call + index))
    (stops :
      (Exhausts cursor.rest fun index => results (call + index)) →
        ∃ past, Past behind past) :
    ∃ outcome, Run behind positioned stop results call cursor outcome := by
  induction left : cursor.count using Nat.strongRec generalizing call cursor
  rename_i count induction
  by_cases more : 0 < cursor.count
  case neg => exact ⟨_, .finished call cursor (Nat.eq_zero_of_not_pos more)⟩
  by_cases some : 0 < results call
  case neg =>
    exact ⟨_, .stopped call cursor more (Nat.eq_zero_of_not_pos some)⟩
  have size := sound.count
  have ends :
      granted results call cursor < cursor.count ∨
        ∃ past, Past behind past := by
    by_cases less : granted results call cursor < cursor.count
    · exact Or.inl less
    · refine Or.inr (stops ⟨by omega, 1, ?_, ?_⟩)
      · intro first before
        rwa [Nat.lt_one_iff.mp before]
      · rw [sumTo_succ, sumTo, Finset.sum_range_zero]
        unfold granted at less
        simp only [Nat.add_zero]
        omega
  obtain ⟨after, shifted⟩ :
      ∃ after,
        Shifted behind positioned cursor (granted results call cursor) after :=
    exists_shifted sound.toInside (Nat.min_le_right _ _) ends
  obtain ⟨entries, advanced⟩ := shifted.advanced sound.toInside
  obtain ⟨moves, later⟩ := (advanced.endsWhole_iff sound more some).mp whole
  have soundAfter := shifted.sound sound more
  have decreases : after.count < count := by
    have fits := advanced.count
    unfold granted at moves
    omega
  obtain ⟨outcome, rest⟩ :=
    induction after.count decreases soundAfter later (by
      intro exhausts
      have remains : 0 < after.count := by
        rw [soundAfter.count]
        exact exhausts.1
      exact stops ((advanced.exhausts_iff sound more some whole remains).mpr
        exhausts)) rfl
  exact ⟨_, .moved call cursor after outcome more some shifted rest⟩

end Answers

/-! ## The four functions -/

section InFull

variable (array : IovecArray) {positioned : Bool} {stop : Nat → Int}
  {results : Nat → Nat} {offset : Nat}

/-- The cursor of a loop before its first turn. -/
def IovecArray.cursor (offset : Nat) : Cursor :=
  ⟨array.entries, 0, 0, array.size, offset⟩

theorem IovecArray.sound (offset : Nat) : (array.cursor offset).Sound :=
  ⟨⟨rfl, array.fits⟩, fun _ => rfl⟩

theorem transferInFull_iff (outcome : Outcome) :
    (∃ turns,
      transferInFull positioned stop array results offset turns =
        some outcome) ↔
      Run array.behind positioned stop results 0 (array.cursor offset)
        outcome := by
  constructor
  · rintro ⟨turns, ended⟩
    exact run_of_some (array.sound offset) ended
  · intro run
    obtain ⟨enough, ends⟩ := run.exists (array.sound offset)
    exact ⟨enough, ends enough le_rfl⟩

variable (results offset)

/-- A loop that goes on where it is ends just so. -/
theorem positioned_iff (stop : Nat → Int) :
    (∃ outcome,
      Run array.behind true stop results 0 (array.cursor offset) outcome ∧
        Continues offset outcome.calls) ↔
      EndsWhole array.entries results ∧
        (Exhausts array.entries results →
          ∃ index, 0 < (array.behind index).len) := by
  have sound := array.sound offset
  have same : (fun index => results (0 + index)) = results := by
    simp only [Nat.zero_add]
  constructor
  · rintro ⟨outcome, run, goes⟩
    have whole := (run.continues_iff sound rfl).mp goes
    have past := fun exhausts => run.past sound exhausts whole
    rw [same] at whole past
    exact ⟨whole, fun exhausts => ⟨_, (past exhausts).stops⟩⟩
  · rintro ⟨whole, behind⟩
    rw [← same] at whole behind
    obtain ⟨outcome, run⟩ :
        ∃ outcome,
          Run array.behind true stop results 0 (array.cursor offset)
            outcome :=
      exists_run sound whole
        (fun exhausts =>
          let ⟨_, stops⟩ := behind exhausts
          exists_past stops)
    exact ⟨outcome, run, (run.continues_iff sound rfl).mpr whole⟩

/--
`preadv_in_full` and `pwritev_in_full` end and make progress with each call,
and the first returns the number of bytes transferred, when every transfer
ends with an entry, the first call reads something, and something follows an
array that is used up.
-/
theorem preadvInFull_pwritevInFull_iff :
    ((∃ turns outcome,
        preadvInFull array results offset turns = some outcome ∧
          Continues offset outcome.calls ∧
            outcome.result = outcome.moved.length) ↔
      EndsWhole array.entries results ∧
        (0 < array.size → 0 < results 0) ∧
          (Exhausts array.entries results →
            ∃ index, 0 < (array.behind index).len)) ∧
    ((∃ turns outcome,
        pwritevInFull array results offset turns = some outcome ∧
          Continues offset outcome.calls) ↔
      EndsWhole array.entries results ∧
        (Exhausts array.entries results →
          ∃ index, 0 < (array.behind index).len)) := by
  have sound := array.sound offset
  constructor
  · constructor
    · rintro ⟨turns, outcome, ended, goes, counted⟩
      have run := (transferInFull_iff array outcome).mp ⟨turns, ended⟩
      obtain ⟨whole, behind⟩ :=
        (positioned_iff array results offset readStop).mp
          ⟨outcome, run, goes⟩
      refine ⟨whole, ?_, behind⟩
      intro more
      by_contra none
      -- A loop without a byte fails.
      obtain ⟨failed, nothing⟩ :=
        run.stopped_eq more (Nat.eq_zero_of_not_pos none)
      rw [failed, nothing] at counted
      cases counted
    · rintro ⟨whole, some, behind⟩
      obtain ⟨outcome, run, goes⟩ :=
        (positioned_iff array results offset readStop).mpr
          ⟨whole, behind⟩
      obtain ⟨turns, ended⟩ := (transferInFull_iff array outcome).mpr run
      refine ⟨turns, outcome, ended, goes, ?_⟩
      have total :=
        (run.total_eq_iff sound).mpr ((run.continues_iff sound rfl).mp goes)
      rw [show (array.cursor offset).total = 0 from rfl, Nat.zero_add] at total
      rcases run.result_eq with counted | stopped
      · rw [counted, total]
      · by_cases more : 0 < array.size
        · have moves := run.moves sound more (some more)
          rw [stopped, total, readStop, if_pos moves]
        · rw [run.finished_eq (Nat.eq_zero_of_not_pos more)]
          rfl
  · rw [← positioned_iff array results offset writeStop]
    constructor
    · rintro ⟨turns, outcome, ended, goes⟩
      have run := (transferInFull_iff array outcome).mp ⟨turns, ended⟩
      exact ⟨outcome, run, goes⟩
    · rintro ⟨outcome, run, goes⟩
      obtain ⟨turns, ended⟩ := (transferInFull_iff array outcome).mpr run
      exact ⟨turns, outcome, ended, goes⟩

/-- A buffer of eight bytes with a byte behind it. -/
def eightBytes : IovecArray :=
  ⟨[⟨0, 8⟩], fun _ => ⟨8, 1⟩, by decide⟩

/-- A file that ends inside the buffer is asked for the same bytes forever. -/
theorem transferLoop_eightBytes (stop : Nat → Int) (turns call : Nat) :
    transferLoop eightBytes.behind true stop (fun _ => 3) turns call
        (eightBytes.cursor 0) =
      none := by
  induction turns generalizing call with
  | zero => rfl
  | succ turns induction =>
      have stays :
          shiftIovec eightBytes.behind true turns (eightBytes.cursor 0) 3 =
            if turns = 0 then none else some (eightBytes.cursor 0) := by
        cases turns <;> rfl
      have three :
          min 3
              (iovSize (eightBytes.cursor 0).rest
                (eightBytes.cursor 0).rest.length) =
            3 := by
        decide
      rw [transferLoop, if_pos (by decide)]
      dsimp only
      rw [three, if_neg (by decide), stays]
      split
      case h_1 => rfl
      case h_2 moved =>
        split at moved
        case isTrue => cases moved
        case isFalse =>
          cases moved
          rw [induction]
          rfl

/--
Three bytes are read again and again, or, with the end of the file after
them, are three bytes that the result does not count.
-/
theorem preadvInFull_pwritevInFull_stay :
    (∀ turns, preadvInFull eightBytes (fun _ => 3) 0 turns = none) ∧
      (∀ turns, pwritevInFull eightBytes (fun _ => 3) 0 turns = none) ∧
        (preadvInFull eightBytes (fun call => 3 - 3 * call) 0 3).map
            (fun outcome => (outcome.result, outcome.moved)) =
          some (-1, [0, 1, 2]) :=
  ⟨fun turns => transferLoop_eightBytes readStop turns 0,
    fun turns => transferLoop_eightBytes writeStop turns 0, by decide⟩

/-- The loops of `readv_in_full` and `writev_in_full`. -/
theorem unpositioned_iff (moves : ∀ call, 0 < results call) :
    (∃ turns outcome,
      transferInFull false stop array results offset turns = some outcome ∧
        outcome.moved = places array.entries ∧
          outcome.cursor.passed = 0) ↔
      EndsWhole array.entries results ∧
        (0 < array.size → 0 < (array.behind 0).len) := by
  have sound := array.sound offset
  have same : (fun index => results (0 + index)) = results := by
    simp only [Nat.zero_add]
  -- A loop that ends has counted the whole array.
  have counted {outcome : Outcome}
      (run :
        Run array.behind false stop results 0 (array.cursor offset)
          outcome) :
      outcome.cursor.total = array.size := by
    have kept := run.total_add_count sound
    rw [run.count_eq_zero moves] at kept
    exact kept.trans (Nat.zero_add _)
  constructor
  · rintro ⟨turns, outcome, ended, order, within⟩
    have run := (transferInFull_iff array outcome).mp ⟨turns, ended⟩
    have length : outcome.moved.length = array.size := by
      rw [order, places_length]
      rfl
    have whole := (run.total_eq_iff sound).mp (by
      rw [counted run, length]
      exact (Nat.zero_add _).symm)
    refine ⟨same ▸ whole, ?_⟩
    intro some
    have past := run.past sound
      (exhausts_of_moves some fun call => moves _) whole
    rw [within] at past
    exact past.stops
  · rintro ⟨whole, behind⟩
    rw [← same] at whole
    obtain ⟨outcome, run⟩ :
        ∃ outcome,
          Run array.behind false stop results 0 (array.cursor offset)
            outcome :=
      exists_run sound whole (fun exhausts => exists_past (behind exhausts.1))
    obtain ⟨turns, ended⟩ := (transferInFull_iff array outcome).mpr run
    refine ⟨turns, outcome, ended, ?_, ?_⟩
    · have total := (run.total_eq_iff sound).mpr whole
      have order := run.moved_eq sound whole
      rw [counted run] at total
      have length : outcome.moved.length = (places array.entries).length := by
        rw [places_length]
        exact (total.trans (Nat.zero_add _)).symm
      rw [order, length]
      exact List.take_length
    · by_cases some : 0 < array.size
      · have past := run.past sound
          (exhausts_of_moves some fun call => moves _) whole
        by_contra beyond
        have first := past.empty 0 (Nat.pos_of_ne_zero beyond)
        have bytes := behind some
        omega
      · rw [run.finished_eq (Nat.eq_zero_of_not_pos some)]
        rfl

/--
With bytes in each answer, `readv_in_full` and `writev_in_full` transfer
every byte once and in order, and stay within the array, when every transfer
ends with an entry and the array is followed by an entry that has bytes.
-/
theorem readvInFull_writevInFull_iff (moves : ∀ call, 0 < results call) :
    ((∃ turns outcome,
        readvInFull array results turns = some outcome ∧
          outcome.moved = places array.entries ∧
            outcome.cursor.passed = 0) ↔
      EndsWhole array.entries results ∧
        (0 < array.size → 0 < (array.behind 0).len)) ∧
    ((∃ turns outcome,
        writevInFull array results turns = some outcome ∧
          outcome.moved = places array.entries ∧
            outcome.cursor.passed = 0) ↔
      EndsWhole array.entries results ∧
        (0 < array.size → 0 < (array.behind 0).len)) :=
  ⟨unpositioned_iff array results 0 moves,
    unpositioned_iff array results 0 moves⟩

/-- Three bytes, none and five, with bytes behind them. -/
def threeEntries : IovecArray :=
  ⟨[⟨0, 3⟩, ⟨16, 0⟩, ⟨32, 5⟩], fun _ => ⟨48, 1⟩, by decide⟩

/-- The first answer is short, and ends with an entry. -/
theorem readvInFull_writevInFull_whole :
    (∃ turns outcome,
        readvInFull threeEntries (fun call => if call = 0 then 3 else 5)
            turns = some outcome ∧
          outcome.moved = places threeEntries.entries ∧
            outcome.cursor.passed = 0) ∧
      ∃ turns outcome,
        writevInFull threeEntries (fun call => if call = 0 then 3 else 5)
            turns = some outcome ∧
          outcome.moved = places threeEntries.entries ∧
            outcome.cursor.passed = 0 := by
  have both :=
    readvInFull_writevInFull_iff threeEntries
      (fun call => if call = 0 then 3 else 5)
      (fun call => by split <;> decide)
  have whole :
      EndsWhole threeEntries.entries fun call =>
        if call = 0 then 3 else 5 := by
    intro call _ _
    cases call with
    | zero => exact ⟨1, by decide, rfl⟩
    | succ call =>
        refine ⟨3, le_rfl, ?_⟩
        rw [sumTo_succ, sumTo_succ]
        refine (Nat.min_eq_right ?_).symm
        show 8 ≤ 3 + (5 + _)
        omega
  have behind : 0 < threeEntries.size → 0 < (threeEntries.behind 0).len :=
    fun _ => by decide
  exact ⟨both.1.mpr ⟨whole, behind⟩, both.2.mpr ⟨whole, behind⟩⟩

/-- An empty entry behind a buffer of eight bytes. -/
def eightBytesOnly : IovecArray :=
  ⟨[⟨0, 8⟩], fun index => ⟨8, index⟩, by decide⟩

/--
Three bytes and then eight: the first three are transferred twice.  Eight at
once: an empty entry behind the array is moved over.
-/
theorem readvInFull_writevInFull_again :
    (readvInFull eightBytes (fun call => 3 + 5 * call) 4).map
        Outcome.moved =
      some [0, 1, 2, 0, 1, 2, 3, 4, 5, 6, 7] ∧
    (writevInFull eightBytes (fun call => 3 + 5 * call) 4).map
        Outcome.moved =
      some [0, 1, 2, 0, 1, 2, 3, 4, 5, 6, 7] ∧
    (readvInFull eightBytesOnly (fun _ => 8) 4).map
        (fun outcome => outcome.cursor.passed) =
      some 1 := by
  decide

end InFull

end Kemu.Util.VectorTransfer
