import Mathlib.Data.List.Basic
import Mathlib.Data.List.GetD
import Mathlib.Data.List.TakeDrop
import Mathlib.Tactic.Ring

/-!
# Bytes in segments

Fixed-width little-endian numbers, overwriting a part of a sequence, and a
cursor over a sequence that is held in several segments.  Reading and
writing through the cursor are reading and overwriting the concatenation;
where the segments end does not matter.
-/

namespace Kemu.Lib.Bytes

universe u

/-! ## Little-endian numbers -/

/-- The lowest bytes of a number, the least significant one first. -/
def toLe : Nat → Nat → List UInt8
  | 0, _ => []
  | width + 1, value => UInt8.ofNat value :: toLe width (value / 256)

/-- The number behind little-endian bytes. -/
def ofLe : List UInt8 → Nat
  | [] => 0
  | byte :: rest => byte.toNat + 256 * ofLe rest

@[simp]
theorem toLe_length (width value : Nat) :
    (toLe width value).length = width := by
  induction width generalizing value with
  | zero => rfl
  | succ width induction => simp [toLe, induction]

theorem ofLe_toLe (width value : Nat) :
    ofLe (toLe width value) = value % 256 ^ width := by
  induction width generalizing value with
  | zero => simp [toLe, ofLe, Nat.mod_one]
  | succ width induction =>
      have step : value % 256 ^ (width + 1) =
          value % 256 + 256 * (value / 256 % 256 ^ width) := by
        rw [pow_succ' 256 width, Nat.mod_mul]
      rw [toLe, ofLe, induction, UInt8.toNat_ofNat', step]

theorem ofLe_lt (bytes : List UInt8) : ofLe bytes < 256 ^ bytes.length := by
  induction bytes with
  | nil => simp [ofLe]
  | cons byte rest induction =>
      have small : byte.toNat < 256 := byte.toNat_lt
      rw [ofLe, List.length_cons, pow_succ]
      omega

/-- Numbers that fit are told apart by their bytes. -/
theorem toLe_inj {width first second : Nat} (left : first < 256 ^ width)
    (right : second < 256 ^ width) :
    toLe width first = toLe width second ↔ first = second := by
  constructor
  · intro same
    have values := congrArg ofLe same
    rw [ofLe_toLe, ofLe_toLe, Nat.mod_eq_of_lt left,
      Nat.mod_eq_of_lt right] at values
    exact values
  · rintro rfl
    rfl

theorem toLe_ofLe (bytes : List UInt8) :
    toLe bytes.length (ofLe bytes) = bytes := by
  induction bytes with
  | nil => rfl
  | cons byte rest induction =>
      have small : byte.toNat < 256 := byte.toNat_lt
      have low : UInt8.ofNat (byte.toNat + 256 * ofLe rest) = byte := by
        apply UInt8.toNat_inj.mp
        rw [UInt8.toNat_ofNat']
        omega
      have high : (byte.toNat + 256 * ofLe rest) / 256 = ofLe rest := by
        omega
      rw [List.length_cons, ofLe, toLe, low, high, induction]

/-! ## Overwriting -/

section Patch

variable {Byte : Type u}

/-- Overwrite what is at an offset, as far as the sequence goes. -/
def patch (bytes : List Byte) (offset : Nat) (data : List Byte) :
    List Byte :=
  bytes.take offset ++ data.take (bytes.length - offset) ++
    bytes.drop (offset + data.length)

@[simp]
theorem patch_nil (bytes : List Byte) (offset : Nat) :
    patch bytes offset [] = bytes := by
  simp [patch]

@[simp]
theorem patch_length (bytes : List Byte) (offset : Nat) (data : List Byte) :
    (patch bytes offset data).length = bytes.length := by
  simp only [patch, List.length_append, List.length_take, List.length_drop]
  omega

/-- What is behind the data stays. -/
theorem patch_drop {bytes data : List Byte} {offset count : Nat}
    (behind : offset + data.length ≤ count) :
    (patch bytes offset data).drop count = bytes.drop count := by
  by_cases inside : offset + data.length ≤ bytes.length
  · have front :
        (bytes.take offset ++ data.take (bytes.length - offset)).length =
          offset + data.length := by
      simp only [List.length_append, List.length_take]
      omega
    rw [patch, List.drop_append, front, List.drop_drop,
      List.drop_eq_nil_of_le (by omega), List.nil_append]
    congr 1
    omega
  · rw [List.drop_eq_nil_of_le, List.drop_eq_nil_of_le]
    · omega
    · rw [patch_length]
      omega

/-- The data is there. -/
theorem patch_drop_self {bytes data : List Byte} {offset : Nat}
    (room : offset + data.length ≤ bytes.length) :
    (patch bytes offset data).drop offset =
      data ++ bytes.drop (offset + data.length) := by
  have all : data.take (bytes.length - offset) = data :=
    List.take_of_length_le (by omega)
  have front : (bytes.take offset).length = offset := by
    rw [List.length_take]
    omega
  rw [patch, all, List.append_assoc, List.drop_append, front, Nat.sub_self,
    List.drop_zero, List.drop_eq_nil_of_le (by omega), List.nil_append]

/-- As much of the data is there as there is room for. -/
theorem patch_drop_take {bytes data : List Byte} {offset count : Nat}
    (within : count ≤ data.length)
    (room : offset + count ≤ bytes.length) :
    ((patch bytes offset data).drop offset).take count =
      data.take count := by
  have front : (bytes.take offset).length = offset := by
    rw [List.length_take]
    omega
  have enough : count ≤ (data.take (bytes.length - offset)).length := by
    rw [List.length_take]
    omega
  rw [patch, List.append_assoc, List.drop_left' front,
    List.take_append_of_le_length enough, List.take_take,
    Nat.min_eq_left (by omega)]

/-- A piece of the data is where it was put. -/
theorem patch_slice {bytes data : List Byte} {offset start count : Nat}
    (within : start + count ≤ data.length)
    (room : offset + (start + count) ≤ bytes.length) :
    (((patch bytes offset data).drop offset).drop start).take count =
      (data.drop start).take count := by
  have slice (whole : List Byte) :
      (whole.drop start).take count =
        (whole.take (start + count)).drop start := by
    rw [List.drop_take, Nat.add_sub_cancel_left]
  rw [slice, patch_drop_take within room, ← slice]

/-- Two pieces one behind the other are one piece. -/
theorem patch_patch {bytes first second : List Byte} {offset : Nat}
    (room : offset + first.length ≤ bytes.length) :
    patch (patch bytes offset first) (offset + first.length) second =
      patch bytes offset (first ++ second) := by
  have all : first.take (bytes.length - offset) = first :=
    List.take_of_length_le (by omega)
  have front :
      (patch bytes offset first).take (offset + first.length) =
        bytes.take offset ++ first := by
    have length :
        (bytes.take offset ++ first).length = offset + first.length := by
      rw [List.length_append, List.length_take]
      omega
    rw [patch, all, List.take_append_of_le_length (by omega),
      List.take_of_length_le (by omega)]
  have back :
      (patch bytes offset first).drop
          (offset + first.length + second.length) =
        bytes.drop (offset + (first ++ second).length) := by
    rw [patch_drop (by omega), List.length_append, Nat.add_assoc]
  have middle :
      (first ++ second).take (bytes.length - offset) =
        first ++ second.take (bytes.length - (offset + first.length)) := by
    rw [List.take_append, all]
    congr 2
    omega
  rw [patch, front, back, patch_length, patch, middle]
  simp only [List.append_assoc]

/-- There is nothing to overwrite behind the end. -/
theorem patch_beyond {bytes : List Byte} {offset : Nat}
    (beyond : bytes.length ≤ offset) (data : List Byte) :
    patch bytes offset data = bytes := by
  have nothing : bytes.length - offset = 0 := by omega
  rw [patch, List.take_of_length_le beyond, nothing, List.take_zero,
    List.append_nil, List.drop_eq_nil_of_le (by omega), List.append_nil]

/-- Two pieces are one piece also where the bytes end within them. -/
theorem patch_patch_min (bytes first second : List Byte) (offset : Nat) :
    patch (patch bytes offset first)
        (offset + min first.length (bytes.length - offset)) second =
      patch bytes offset (first ++ second) := by
  by_cases fits : offset + first.length ≤ bytes.length
  · rw [Nat.min_eq_left (by omega), patch_patch fits]
  · have full : bytes.length - offset ≤ first.length := by omega
    rw [patch_beyond (by rw [patch_length]; omega), patch, patch,
      List.take_append_of_le_length full,
      List.drop_eq_nil_of_le (by omega : bytes.length ≤ _),
      List.drop_eq_nil_of_le (by rw [List.length_append]; omega)]

/-- Overwriting behind the first part. -/
theorem patch_append_right {front back : List Byte} {offset : Nat}
    (beyond : front.length ≤ offset) (data : List Byte) :
    patch (front ++ back) offset data =
      front ++ patch back (offset - front.length) data := by
  have all : front.length ≤ offset + data.length := by omega
  have room :
      (front ++ back).length - offset =
        back.length - (offset - front.length) := by
    rw [List.length_append]
    omega
  have rest :
      offset + data.length - front.length =
        offset - front.length + data.length := by
    omega
  rw [patch, patch, List.take_append, List.drop_append,
    List.take_of_length_le beyond, List.drop_eq_nil_of_le all, room, rest,
    List.nil_append]
  simp only [List.append_assoc]

/-- Overwriting from inside the first part on. -/
theorem patch_append_left {front back : List Byte} {offset : Nat}
    (within : offset ≤ front.length) (data : List Byte) :
    patch (front ++ back) offset data =
      patch front offset data ++
        patch back 0 (data.drop (front.length - offset)) := by
  have zero : offset - front.length = 0 := by omega
  have split :
      data.take ((front ++ back).length - offset) =
        data.take (front.length - offset) ++
          (data.drop (front.length - offset)).take back.length := by
    rw [← List.take_add, List.length_append]
    congr 1
    omega
  rw [patch, patch, patch, List.take_append, zero, List.take_zero,
    List.append_nil, split, List.drop_append, List.nil_append, List.length_drop, Nat.sub_zero, Nat.zero_add]
  by_cases fits : data.length ≤ front.length - offset
  · have nothing :
        data.drop (front.length - offset) = [] :=
      List.drop_eq_nil_of_le fits
    have first : offset + data.length - front.length = 0 := by omega
    have second : data.length - (front.length - offset) = 0 := by omega
    rw [nothing, first, second]
    simp
  · have beyond :
        front.drop (offset + data.length) = [] :=
      List.drop_eq_nil_of_le (by omega)
    have same :
        offset + data.length - front.length =
          data.length - (front.length - offset) := by
      omega
    rw [beyond, same]
    simp

end Patch

/-! ## The cursor -/

section Cursor

variable {Byte : Type u}

/-- Read at an offset, from one segment after the other. -/
def fetch : List (List Byte) → Nat → Nat → List Byte
  | [], _, _ => []
  | segment :: rest, offset, size =>
      if size = 0 then
        []
      else if segment.length ≤ offset then
        fetch rest (offset - segment.length) size
      else
        let len := min (segment.length - offset) size
        (segment.drop offset).take len ++ fetch rest 0 (size - len)

/-- Write at an offset, and count what went in. -/
def store :
    List (List Byte) → Nat → List Byte → List (List Byte) × Nat
  | [], _, _ => ([], 0)
  | segment :: rest, offset, data =>
      if data.isEmpty then
        (segment :: rest, 0)
      else if segment.length ≤ offset then
        let stored := store rest (offset - segment.length) data
        (segment :: stored.1, stored.2)
      else
        let len := min (segment.length - offset) data.length
        let stored := store rest 0 (data.drop len)
        ((segment.take offset ++ data.take len ++
            segment.drop (offset + len)) :: stored.1,
          len + stored.2)

theorem fetch_eq (segments : List (List Byte)) (offset size : Nat) :
    fetch segments offset size =
      (segments.flatten.drop offset).take size := by
  induction segments generalizing offset size with
  | nil => simp [fetch]
  | cons segment rest induction =>
      rw [fetch, List.flatten_cons, List.drop_append]
      split
      case isTrue nothing => simp [nothing]
      case isFalse some =>
        split
        case isTrue beyond =>
          rw [induction, List.drop_eq_nil_of_le beyond, List.nil_append]
        case isFalse within =>
          have zero : offset - segment.length = 0 := by omega
          dsimp only
          rw [induction, zero, List.drop_zero,
            List.take_append, List.length_drop]
          by_cases fits : size ≤ segment.length - offset
          · have none : size - min (segment.length - offset) size = 0 := by
              omega
            have nothing : size - (segment.length - offset) = 0 := by omega
            rw [none, nothing, Nat.min_eq_right fits]
          · have whole :
                (segment.drop offset).take size = segment.drop offset :=
              List.take_of_length_le (by rw [List.length_drop]; omega)
            rw [Nat.min_eq_left (by omega), whole]
            congr 1
            exact List.take_of_length_le (by rw [List.length_drop])

theorem drop_min (data : List Byte) (count : Nat) :
    data.drop (min count data.length) = data.drop count := by
  by_cases fits : count ≤ data.length
  · rw [Nat.min_eq_left fits]
  · rw [Nat.min_eq_right (by omega), List.drop_length,
      List.drop_eq_nil_of_le (by omega)]

theorem patch_eq_min (bytes : List Byte) (offset : Nat)
    (data : List Byte) :
    bytes.take offset ++
        data.take (min (bytes.length - offset) data.length) ++
        bytes.drop (offset + min (bytes.length - offset) data.length) =
      patch bytes offset data := by
  by_cases fits : data.length ≤ bytes.length - offset
  · rw [Nat.min_eq_right fits, patch, List.take_length,
      List.take_of_length_le fits]
  · rw [Nat.min_eq_left (by omega), patch,
      List.drop_eq_nil_of_le (by omega : bytes.length ≤ _),
      List.drop_eq_nil_of_le (by omega : bytes.length ≤ _)]

theorem store_spec (segments : List (List Byte)) (offset : Nat)
    (data : List Byte) :
    (store segments offset data).1.flatten =
        patch segments.flatten offset data ∧
      (store segments offset data).1.map List.length =
        segments.map List.length ∧
      (store segments offset data).2 =
        min data.length (segments.flatten.length - offset) := by
  induction segments generalizing offset data with
  | nil => simp [store, patch]
  | cons segment rest induction =>
      rw [store]
      split
      case isTrue empty =>
        rw [List.isEmpty_iff.mp empty]
        simp
      case isFalse some =>
        split
        case isTrue beyond =>
          obtain ⟨bytes, lengths, count⟩ :=
            induction (offset - segment.length) data
          refine ⟨?_, by simp [lengths], ?_⟩
          · rw [List.flatten_cons, List.flatten_cons, bytes,
              patch_append_right beyond]
          · rw [count, List.flatten_cons, List.length_append]
            omega
        case isFalse within =>
          obtain ⟨bytes, lengths, count⟩ :=
            induction 0
              (data.drop (min (segment.length - offset) data.length))
          have here :
              segment.take offset ++
                  data.take (min (segment.length - offset) data.length) ++
                  segment.drop
                    (offset + min (segment.length - offset) data.length) =
                patch segment offset data :=
            patch_eq_min segment offset data
          have rest :
              data.drop (min (segment.length - offset) data.length) =
                data.drop (segment.length - offset) :=
            drop_min data _
          refine ⟨?_, ?_, ?_⟩
          · rw [List.flatten_cons, List.flatten_cons, bytes, here, rest,
              patch_append_left (by omega)]
          · rw [List.map_cons, List.map_cons, lengths, here, patch_length]
          · simp only [count, List.flatten_cons, List.length_append,
              List.length_drop]
            omega

end Cursor

/-! ## Memories -/

section Memory

variable {Byte : Type u}

/-- Read from a memory. -/
def peek (memory : Nat → Byte) (offset size : Nat) : List Byte :=
  (List.range size).map fun index => memory (offset + index)

/-- Write to a memory. -/
def poke (memory : Nat → Byte) (offset : Nat) (data : List Byte) :
    Nat → Byte :=
  fun index =>
    if offset ≤ index then
      data.getD (index - offset) (memory index)
    else
      memory index

@[simp]
theorem peek_length (memory : Nat → Byte) (offset size : Nat) :
    (peek memory offset size).length = size := by
  simp [peek]

theorem poke_outside (memory : Nat → Byte) {offset index : Nat}
    {data : List Byte}
    (outside : index < offset ∨ offset + data.length ≤ index) :
    poke memory offset data index = memory index := by
  rw [poke]
  split
  case isTrue behind =>
    exact List.getD_eq_default _ _ (by omega)
  · rfl

theorem poke_inside (memory : Nat → Byte) (offset : Nat) {index : Nat}
    {data : List Byte} (inside : index < data.length) :
    poke memory offset data (offset + index) = data[index] := by
  rw [poke, if_pos (Nat.le_add_right offset index),
    Nat.add_sub_cancel_left]
  exact List.getD_eq_getElem _ _ inside

theorem peek_poke_self (memory : Nat → Byte) (offset : Nat)
    (data : List Byte) :
    peek (poke memory offset data) offset data.length = data := by
  apply List.ext_getElem
  · rw [peek_length]
  · intro index first second
    simp only [peek, List.getElem_map, List.getElem_range]
    exact poke_inside memory offset second

theorem peek_poke_disjoint (memory : Nat → Byte) {offset other size : Nat}
    {data : List Byte}
    (apart : other + size ≤ offset ∨ offset + data.length ≤ other) :
    peek (poke memory offset data) other size = peek memory other size := by
  apply List.ext_getElem
  · rw [peek_length, peek_length]
  · intro index first second
    rw [peek_length] at first
    simp only [peek, List.getElem_map, List.getElem_range]
    exact poke_outside memory (by omega)

theorem peek_add (memory : Nat → Byte) (offset first second : Nat) :
    peek memory offset (first + second) =
      peek memory offset first ++ peek memory (offset + first) second := by
  apply List.ext_getElem
  · simp
  · intro index _ _
    simp only [peek, List.getElem_map, List.getElem_range,
      List.getElem_append, List.length_map, List.length_range]
    split
    · rfl
    · congr 1
      omega

theorem peek_take (memory : Nat → Byte) (offset : Nat) {size count : Nat}
    (within : count ≤ size) :
    (peek memory offset size).take count = peek memory offset count := by
  rw [peek, peek, ← List.map_take, List.take_range,
    Nat.min_eq_left within]

theorem peek_congr {memory other : Nat → Byte} {offset size : Nat}
    (same :
      ∀ index, offset ≤ index → index < offset + size →
        memory index = other index) :
    peek memory offset size = peek other offset size := by
  apply List.ext_getElem
  · rw [peek_length, peek_length]
  · intro index first _
    rw [peek_length] at first
    simp only [peek, List.getElem_map, List.getElem_range]
    exact same _ (by omega) (by omega)

end Memory

end Kemu.Lib.Bytes
