import Mathlib.Algebra.Group.Int.Defs
import Mathlib.Algebra.Group.Nat.Defs
import Mathlib.Logic.Function.Basic
import Mathlib.Order.MinMax

/-!
# Reading and writing in full

The retry loops of `util/read-write.c` over a host file.  A file carries the
answers the host is going to give: each call takes the next one.  Zero is a
failure; any other answer is the most bytes a transfer will move, so that a
call may move fewer than it was asked for.  A file none of whose answers is
zero does not fail.

Buffers and memory are functions from positions to bytes; the lengths are
those of the calls.
-/

namespace Kemu.Util.ReadWrite

/-- Bytes by position. -/
abbrev Buffer := Nat → UInt8

/-- Copy `count` bytes of a buffer, from `src` on, to `dst` of another. -/
def store (target : Buffer) (dst count : Nat) (source : Buffer)
    (src : Nat) : Buffer :=
  fun position =>
    if dst ≤ position ∧ position < dst + count then
      source (src + (position - dst))
    else
      target position

theorem store_of_mem
    {dst count position : Nat}
    (inside : dst ≤ position ∧ position < dst + count)
    (target source : Buffer) (src : Nat) :
    store target dst count source src position =
      source (src + (position - dst)) :=
  if_pos inside

theorem store_of_not_mem
    {dst count position : Nat}
    (outside : ¬ (dst ≤ position ∧ position < dst + count))
    (target source : Buffer) (src : Nat) :
    store target dst count source src position = target position :=
  if_neg outside

@[simp]
theorem store_zero (target source : Buffer) (dst src : Nat) :
    store target dst 0 source src = target := by
  funext position
  exact store_of_not_mem (by omega) target source src

theorem store_congr
    {count : Nat} {source other : Buffer} {src start : Nat}
    (same : ∀ index < count, source (src + index) = other (start + index))
    (target : Buffer) (dst : Nat) :
    store target dst count source src =
      store target dst count other start := by
  funext position
  unfold store
  split
  · exact same _ (by omega)
  · rfl

/-- Two copies of adjacent pieces are one copy. -/
theorem store_store
    (target source : Buffer) (dst src first second : Nat) :
    store (store target dst first source src)
        (dst + first) second source (src + first) =
      store target dst (first + second) source src := by
  funext position
  simp only [store]
  split
  · rw [if_pos (by omega)]
    congr 1
    omega
  · split
    · rw [if_pos (by omega)]
    · rw [if_neg (by omega)]

/--
A file of the host, and what the host answers to the calls to come.  Behind
the end of a file there are no bytes.
-/
structure HostFile where
  size : Nat
  bytes : Buffer
  answers : Nat → Nat
  trimmed : ∀ position, size ≤ position → bytes position = 0

/-- The first offset that `off_t` does not have. -/
def offT : Nat := 2 ^ 63

namespace HostFile

/-- The file after a number of calls that did not change its content. -/
def skip (file : HostFile) (calls : Nat) : HostFile :=
  { file with answers := fun call => file.answers (call + calls) }

@[simp]
theorem skip_zero (file : HostFile) : file.skip 0 = file :=
  rfl

@[simp]
theorem skip_skip (file : HostFile) (first second : Nat) :
    (file.skip first).skip second = file.skip (second + first) := by
  simp only [skip, Nat.add_assoc]

@[simp]
theorem skip_size (file : HostFile) (calls : Nat) :
    (file.skip calls).size = file.size :=
  rfl

@[simp]
theorem skip_bytes (file : HostFile) (calls : Nat) :
    (file.skip calls).bytes = file.bytes :=
  rfl

/-- Every call is answered. -/
def NonFailing (file : HostFile) : Prop :=
  ∀ call, 0 < file.answers call

theorem NonFailing.skip {file : HostFile} (nonFailing : file.NonFailing)
    (calls : Nat) : (file.skip calls).NonFailing :=
  fun call => nonFailing (call + calls)

/-- The answer to the next call. -/
def answer (file : HostFile) : Nat :=
  file.answers 0

theorem NonFailing.answer_ne {file : HostFile}
    (nonFailing : file.NonFailing) : file.answer ≠ 0 :=
  (nonFailing 0).ne'

/-- Replace bytes, extending the file with zeros where it ends too early. -/
def write (file : HostFile) (offset count : Nat) (source : Buffer)
    (src : Nat) : HostFile where
  size := max file.size (offset + count)
  bytes := store file.bytes offset count source src
  answers := file.answers
  trimmed position behind := by
    rw [store_of_not_mem (by omega)]
    exact file.trimmed position (by omega)

theorem write_write
    (file : HostFile) (offset first second : Nat) (source : Buffer)
    (src : Nat) :
    (file.write offset first source src).write
        (offset + first) second source (src + first) =
      file.write offset (first + second) source src := by
  simp only [write, store_store, HostFile.mk.injEq, and_true]
  omega

theorem write_none
    {file : HostFile} {offset : Nat} (inside : offset ≤ file.size)
    (source : Buffer) (src : Nat) :
    file.write offset 0 source src = file := by
  cases file
  simp only [write, store_zero, HostFile.mk.injEq, and_true]
  exact max_eq_left inside

@[simp]
theorem write_skip
    (file : HostFile) (calls offset count : Nat) (source : Buffer)
    (src : Nat) :
    (file.skip calls).write offset count source src =
      (file.write offset count source src).skip calls :=
  rfl

theorem write_size_inside
    {file : HostFile} {offset count : Nat}
    (inside : offset + count ≤ file.size) (source : Buffer) (src : Nat) :
    (file.write offset count source src).size = file.size :=
  max_eq_left inside

end HostFile

/-! ## Transfers -/

/-- `xpread`: the bytes moved, none at the end of the file or on error. -/
def xpread (file : HostFile) (count offset : Nat) : Nat :=
  if offT ≤ offset then
    0
  else
    min file.answer (min count (file.size - offset))

/-- The loop of `pread_in_full`; it moves a byte at least in each turn. -/
def preadLoop : Nat → HostFile → Nat → Nat → Nat → Nat × HostFile
  | 0, file, _, _, total => (total, file)
  | fuel + 1, file, count, offset, total =>
      if count = 0 then
        (total, file)
      else
        let moved := xpread file count offset
        if moved = 0 then
          (total, file.skip 1)
        else
          preadLoop fuel (file.skip 1) (count - moved) (offset + moved)
            (total + moved)

/--
`pread_in_full` into a buffer.  A failure behind the first byte is not
reported: the result is then the number of bytes moved before it.
-/
def preadInFull (file : HostFile) (buffer : Buffer)
    (dst count offset : Nat) : Option Nat × Buffer × HostFile :=
  let (total, after) := preadLoop count file count offset 0
  (if total = 0 ∧ count ≠ 0 then none else some total,
    store buffer dst total file.bytes offset, after)

/-- `xpwrite`: the bytes moved, none on error. -/
def xpwrite (file : HostFile) (count offset : Nat) : Nat :=
  if offT ≤ offset then 0 else min file.answer count

/-- The loop of `pwrite_in_full`; it moves a byte at least in each turn. -/
def pwriteLoop :
    Nat → HostFile → Buffer → Nat → Nat → Nat → Bool × HostFile
  | 0, file, _, _, count, _ => (count == 0, file)
  | fuel + 1, file, source, src, count, offset =>
      if count = 0 then
        (true, file)
      else
        let moved := xpwrite file count offset
        if moved = 0 then
          (false, file.skip 1)
        else
          pwriteLoop fuel ((file.skip 1).write offset moved source src)
            source (src + moved) (count - moved) (offset + moved)

/-- `pwrite_in_full`: whether everything was written. -/
def pwriteInFull (file : HostFile) (source : Buffer)
    (src count offset : Nat) : Bool × HostFile :=
  pwriteLoop count file source src count offset

/-- `fdatasync`. -/
def fdatasync (file : HostFile) : Bool × HostFile :=
  (file.answer != 0, file.skip 1)

/-! ## What the loops transfer -/

theorem preadLoop_spec
    (fuel : Nat) (file : HostFile) (count offset total : Nat) :
    ∃ moved calls,
      preadLoop fuel file count offset total =
          (total + moved, file.skip calls) ∧
        moved ≤ count := by
  induction fuel generalizing file count offset total with
  | zero => exact ⟨0, 0, by simp [preadLoop], Nat.zero_le _⟩
  | succ fuel induction =>
      rw [preadLoop]
      split
      · exact ⟨0, 0, by simp, Nat.zero_le _⟩
      · dsimp only
        split
        · exact ⟨0, 1, by simp, Nat.zero_le _⟩
        · have within : xpread file count offset ≤ count := by
            unfold xpread
            split <;> omega
          obtain ⟨rest, calls, same, bound⟩ :=
            induction (file.skip 1) (count - xpread file count offset)
              (offset + xpread file count offset)
              (total + xpread file count offset)
          refine ⟨xpread file count offset + rest, calls + 1, ?_, by omega⟩
          rw [same, HostFile.skip_skip, Nat.add_assoc]

/-- Inside a file that does not fail, everything is read. -/
theorem preadLoop_full
    {file : HostFile} {count offset : Nat} (fuel total : Nat)
    (nonFailing : file.NonFailing)
    (inside : offset + count ≤ file.size)
    (addressable : offset + count ≤ offT)
    (enough : count ≤ fuel) :
    ∃ calls,
      preadLoop fuel file count offset total =
        (total + count, file.skip calls) := by
  induction fuel generalizing file count offset total with
  | zero =>
      obtain rfl : count = 0 := by omega
      exact ⟨0, by simp [preadLoop]⟩
  | succ fuel induction =>
      rw [preadLoop]
      by_cases done : count = 0
      · exact ⟨0, by simp [done]⟩
      · have granted : 0 < file.answer := nonFailing 0
        have moved :
            0 < xpread file count offset ∧
              xpread file count offset ≤ count := by
          rw [xpread, if_neg (by omega)]
          omega
        dsimp only
        rw [if_neg done, if_neg moved.1.ne']
        have insideNext :
            offset + xpread file count offset +
                (count - xpread file count offset) ≤
              (file.skip 1).size := by
          rw [HostFile.skip_size]
          omega
        obtain ⟨calls, same⟩ :=
          induction (total + xpread file count offset) (nonFailing.skip 1)
            insideNext (by omega) (by omega)
        refine ⟨calls + 1, ?_⟩
        rw [same, HostFile.skip_skip]
        congr 1
        omega

/-- A read changes nothing but the buffer. -/
theorem preadInFull_spec
    (file : HostFile) (buffer : Buffer) (dst count offset : Nat) :
    ∃ moved calls,
      preadInFull file buffer dst count offset =
          (if moved = 0 ∧ count ≠ 0 then none else some moved,
            store buffer dst moved file.bytes offset, file.skip calls) ∧
        moved ≤ count := by
  obtain ⟨moved, calls, same, bound⟩ :=
    preadLoop_spec count file count offset 0
  refine ⟨moved, calls, ?_, bound⟩
  rw [preadInFull, same, Nat.zero_add]

/-- Inside a file that does not fail, everything is read. -/
theorem preadInFull_full
    {file : HostFile} {count offset : Nat} (buffer : Buffer) (dst : Nat)
    (nonFailing : file.NonFailing)
    (inside : offset + count ≤ file.size)
    (addressable : offset + count ≤ offT) :
    ∃ calls,
      preadInFull file buffer dst count offset =
        (some count, store buffer dst count file.bytes offset,
          file.skip calls) := by
  obtain ⟨calls, same⟩ :=
    preadLoop_full count 0 nonFailing inside addressable le_rfl
  refine ⟨calls, ?_⟩
  have reported : ¬ (count = 0 ∧ count ≠ 0) := fun both => both.2 both.1
  rw [preadInFull, same, Nat.zero_add]
  simp only [if_neg reported]

/-- A write inside the file replaces a prefix of its range. -/
theorem pwriteLoop_spec
    (fuel : Nat) {file : HostFile} (source : Buffer) (src : Nat)
    {count offset : Nat} (inside : offset + count ≤ file.size) :
    ∃ written calls,
      (pwriteLoop fuel file source src count offset).2 =
          (file.write offset written source src).skip calls ∧
        written ≤ count ∧
        ((pwriteLoop fuel file source src count offset).1 = true →
          written = count) := by
  have reached : offset ≤ file.size := by omega
  induction fuel generalizing file src count offset with
  | zero =>
      refine ⟨0, 0, ?_, Nat.zero_le _, ?_⟩
      · rw [HostFile.write_none reached]
        rfl
      · intro written
        have none : count = 0 := by simpa [pwriteLoop] using written
        exact none.symm
  | succ fuel induction =>
      rw [pwriteLoop]
      by_cases done : count = 0
      · refine ⟨0, 0, ?_, Nat.zero_le _, fun _ => done.symm⟩
        rw [HostFile.write_none reached, if_pos done]
        rfl
      · dsimp only
        rw [if_neg done]
        by_cases failed : xpwrite file count offset = 0
        · refine ⟨0, 1, ?_, Nat.zero_le _, ?_⟩
          · rw [HostFile.write_none reached, if_pos failed]
          · simp [failed]
        · have within : xpwrite file count offset ≤ count := by
            unfold xpwrite
            split <;> omega
          generalize xpwrite file count offset = moved at failed within
          have sameSize :
              ((file.skip 1).write offset moved source src).size =
                file.size :=
            HostFile.write_size_inside
              (show offset + moved ≤ file.size by omega) source src
          rw [if_neg failed]
          obtain ⟨written, calls, same, bound, complete⟩ :=
            induction (src + moved)
              (show offset + moved + (count - moved) ≤ _ by
                rw [sameSize]
                omega)
              (by rw [sameSize]; omega)
          refine ⟨moved + written, calls + 1, ?_, by omega, ?_⟩
          · rw [same, HostFile.write_skip, HostFile.write_skip,
              HostFile.write_write, HostFile.skip_skip]
          · intro success
            have rest := complete success
            omega

theorem pwriteInFull_spec
    {file : HostFile} (source : Buffer) (src : Nat) {count offset : Nat}
    (inside : offset + count ≤ file.size) :
    ∃ written calls,
      (pwriteInFull file source src count offset).2 =
          (file.write offset written source src).skip calls ∧
        written ≤ count ∧
        ((pwriteInFull file source src count offset).1 = true →
          written = count) :=
  pwriteLoop_spec count source src inside

section NonFailing

variable {file : HostFile} (source : Buffer) (src : Nat)
  {count offset : Nat} (nonFailing : file.NonFailing)
  (addressable : offset + count ≤ offT)

include nonFailing addressable

/-- A file that does not fail takes everything it has offsets for. -/
theorem pwriteLoop_success {fuel : Nat} (enough : count ≤ fuel) :
    (pwriteLoop fuel file source src count offset).1 = true := by
  induction fuel generalizing file src count offset with
  | zero =>
      have none : count = 0 := by omega
      simp [pwriteLoop, none]
  | succ fuel induction =>
      rw [pwriteLoop]
      by_cases done : count = 0
      · simp [done]
      · have granted : 0 < file.answer := nonFailing 0
        have moved :
            0 < xpwrite file count offset ∧
              xpwrite file count offset ≤ count := by
          rw [xpwrite, if_neg (by omega)]
          omega
        dsimp only
        rw [if_neg done, if_neg moved.1.ne']
        exact induction _ (nonFailing.skip 1) (by omega) (by omega)

/-- What such a file takes is what it holds afterwards. -/
theorem pwriteLoop_full {fuel : Nat} (enough : count ≤ fuel)
    (reached : count = 0 → offset ≤ file.size) :
    ∃ calls,
      pwriteLoop fuel file source src count offset =
        (true, (file.write offset count source src).skip calls) := by
  induction fuel generalizing file src count offset with
  | zero =>
      obtain rfl : count = 0 := by omega
      refine ⟨0, ?_⟩
      rw [HostFile.write_none (reached rfl)]
      rfl
  | succ fuel induction =>
      rw [pwriteLoop]
      by_cases done : count = 0
      · refine ⟨0, ?_⟩
        rw [if_pos done, done, HostFile.write_none (reached done)]
        rfl
      · have granted : 0 < file.answer := nonFailing 0
        have moved :
            0 < xpwrite file count offset ∧
              xpwrite file count offset ≤ count := by
          rw [xpwrite, if_neg (by omega)]
          omega
        dsimp only
        rw [if_neg done, if_neg moved.1.ne']
        generalize xpwrite file count offset = step at moved ⊢
        have answered :
            ((file.skip 1).write offset step source src).NonFailing :=
          nonFailing.skip 1
        have reachedNext :
            offset + step ≤
              ((file.skip 1).write offset step source src).size :=
          Nat.le_max_right _ _
        obtain ⟨calls, same⟩ :=
          induction (src + step) answered
            (show offset + step + (count - step) ≤ offT by omega)
            (by omega) (fun _ => reachedNext)
        refine ⟨calls + 1, ?_⟩
        rw [same, HostFile.write_skip, HostFile.write_skip,
          HostFile.write_write, HostFile.skip_skip,
          Nat.add_sub_cancel' moved.2]

theorem pwriteInFull_full (some : count ≠ 0) :
    ∃ calls,
      pwriteInFull file source src count offset =
        (true, (file.write offset count source src).skip calls) :=
  pwriteLoop_full source src nonFailing addressable le_rfl
    (fun none => absurd none some)

theorem pwriteInFull_success :
    (pwriteInFull file source src count offset).1 = true :=
  pwriteLoop_success source src nonFailing addressable le_rfl

end NonFailing

end Kemu.Util.ReadWrite
