import Mathlib.Data.List.Basic

/-!
# Scatter-gather buffers

`struct iovec` over a flat host memory, and the routines of `util/iovec.c`
the virtio block device uses: taking bytes from the front of a buffer list,
copying bytes into one, and cutting one byte off its end.

A memory cell is `none` where nothing is mapped.  A copy that reaches such a
cell ends the process, so each routine is read together with the cells it
touches.
-/

namespace Kemu.Util.IoVector

/-- Host memory, byte by byte; `none` where nothing is mapped. -/
abbrev HostMem := Nat → Option UInt8

/-- `struct iovec`. -/
structure Iovec where
  base : Nat
  len : Nat
deriving DecidableEq, Repr, Inhabited

/-- The cells of a host range. -/
def readMem (mem : HostMem) (base len : Nat) : List (Option UInt8) :=
  (List.range len).map fun offset => mem (base + offset)

@[simp]
theorem readMem_length (mem : HostMem) (base len : Nat) :
    (readMem mem base len).length = len := by
  simp [readMem]

/-- `iov_size` over the first `count` entries. -/
def iovSize (iov : List Iovec) (count : Nat) : Nat :=
  (iov.take count).foldr (fun entry size => entry.len + size) 0

/-- What `memcpy_fromiovec_safe` leaves behind. -/
structure IovCopy where
  buf : List (Option UInt8)
  iov : List Iovec
  remaining : Nat
  count : Nat
deriving Repr

/--
`memcpy_fromiovec_safe`.  The list starts at the cursor; an entry that is
used up, or was empty, is stepped over, and a partly used one is shortened
in place.
-/
def memcpyFromiovecSafe (mem : HostMem) :
    List Iovec → Nat → Nat → IovCopy
  | [], len, count => ⟨[], [], len, count⟩
  | entry :: rest, len, count =>
      if len = 0 ∨ count = 0 then
        ⟨[], entry :: rest, len, count⟩
      else
        let copy := min len entry.len
        let bytes := readMem mem entry.base copy
        let left : Iovec := ⟨entry.base + copy, entry.len - copy⟩
        if left.len = 0 then
          let tail :=
            memcpyFromiovecSafe mem rest (len - copy) (count - 1)
          { tail with buf := bytes ++ tail.buf }
        else
          ⟨bytes, left :: rest, len - copy, count⟩


/--
`memcpy_toiovec`, as far as the cells it writes are concerned: whether all
of them lie in the list and are mapped.
-/
def memcpyToiovec (mem : HostMem) : List Iovec → Nat → Bool
  | _, 0 => true
  | [], _ + 1 => false
  | entry :: rest, len =>
      let copy := min entry.len len
      (readMem mem entry.base copy).all Option.isSome &&
        memcpyToiovec mem rest (len - copy)

/-- `while (!iov[last_iov].iov_len) last_iov--`, from a given index down. -/
def lastIov (iov : List Iovec) : Nat → Nat
  | 0 => 0
  | last + 1 =>
      if (iov.getD (last + 1) default).len = 0 then
        lastIov iov last
      else
        last + 1

/-! ## What is taken and what is left -/

/-- The bytes a buffer list describes, in order. -/
def gather (mem : HostMem) (iov : List Iovec) : List (Option UInt8) :=
  iov.flatMap fun entry => readMem mem entry.base entry.len

@[simp]
theorem iovSize_zero (iov : List Iovec) : iovSize iov 0 = 0 := by
  simp [iovSize]

@[simp]
theorem iovSize_nil (count : Nat) : iovSize [] count = 0 := by
  simp [iovSize]

@[simp]
theorem iovSize_cons_succ (entry : Iovec) (rest : List Iovec) (count : Nat) :
    iovSize (entry :: rest) (count + 1) = entry.len + iovSize rest count := by
  simp [iovSize]

@[simp]
theorem gather_nil (mem : HostMem) : gather mem [] = [] :=
  rfl

theorem gather_cons (mem : HostMem) (entry : Iovec) (rest : List Iovec) :
    gather mem (entry :: rest) =
      readMem mem entry.base entry.len ++ gather mem rest :=
  rfl

theorem gather_append (mem : HostMem) (first second : List Iovec) :
    gather mem (first ++ second) = gather mem first ++ gather mem second := by
  simp [gather]

theorem gather_length (mem : HostMem) (iov : List Iovec) :
    (gather mem iov).length = iovSize iov iov.length := by
  induction iov with
  | nil => rfl
  | cons entry rest induction =>
      rw [gather_cons, List.length_append, readMem_length,
        List.length_cons, iovSize_cons_succ, ← induction]

theorem gather_take_length
    (mem : HostMem) (iov : List Iovec) (count : Nat) :
    (gather mem (iov.take count)).length = iovSize iov count := by
  rw [gather_length, iovSize, List.take_length, iovSize]

/-- The first entries and the ones behind them. -/
theorem iovSize_add (iov : List Iovec) (count more : Nat) :
    iovSize iov (count + more) =
      iovSize iov count + iovSize (iov.drop count) more := by
  induction iov generalizing count with
  | nil => simp
  | cons entry rest induction =>
      cases count with
      | zero => simp
      | succ count =>
          rw [Nat.succ_add_eq_add_succ, Nat.add_succ, iovSize_cons_succ,
            iovSize_cons_succ, induction, List.drop_succ_cons,
            Nat.add_assoc]

theorem iovSize_drop (iov : List Iovec) {count : Nat}
    (within : count ≤ iov.length) :
    iovSize iov iov.length =
      iovSize iov count +
        iovSize (iov.drop count) (iov.drop count).length := by
  rw [List.length_drop, ← iovSize_add, Nat.add_sub_cancel' within]

theorem iovSize_le_of_le (iov : List Iovec) {count more : Nat}
    (le : count ≤ more) : iovSize iov count ≤ iovSize iov more := by
  induction iov generalizing count more with
  | nil => simp
  | cons entry rest induction =>
      cases count with
      | zero => rw [iovSize_zero]; exact Nat.zero_le _
      | succ count =>
          obtain ⟨less, rfl⟩ :=
            Nat.exists_eq_succ_of_ne_zero (Nat.ne_zero_of_lt le)
          rw [iovSize_cons_succ, iovSize_cons_succ]
          exact Nat.add_le_add_left (induction (Nat.le_of_succ_le_succ le)) _

theorem iovSize_succ {iov : List Iovec} {count : Nat}
    (inside : count < iov.length) :
    iovSize iov (count + 1) =
      iovSize iov count + (iov.getD count default).len := by
  rw [← gather_take_length fun _ => none, ← gather_take_length fun _ => none,
    List.take_succ_eq_append_getElem inside, gather_append,
    List.length_append, gather_cons, gather_nil, List.append_nil,
    readMem_length, List.getD_eq_getElem?_getD,
    List.getElem?_eq_getElem inside, Option.getD_some]

theorem readMem_take (mem : HostMem) (base len count : Nat) :
    (readMem mem base len).take count =
      readMem mem base (min count len) := by
  simp [readMem, ← List.map_take, List.take_range]

theorem readMem_drop (mem : HostMem) (base len count : Nat) :
    (readMem mem base len).drop count =
      readMem mem (base + count) (len - count) := by
  apply List.ext_getElem
  · simp
  · intro index _ _
    simp [readMem, Nat.add_assoc]

section Copy

variable (mem : HostMem)

/-- The return value: what the first `count` entries could not supply. -/
theorem memcpyFromiovecSafe_remaining
    (iov : List Iovec) (len count : Nat) (within : count ≤ iov.length) :
    (memcpyFromiovecSafe mem iov len count).remaining =
      len - iovSize iov count := by
  induction iov generalizing len count with
  | nil => simp [memcpyFromiovecSafe]
  | cons entry rest induction =>
      rw [memcpyFromiovecSafe]
      rcases Nat.eq_zero_or_pos count with rfl | positive
      · simp
      obtain ⟨fewer, rfl⟩ := Nat.exists_eq_succ_of_ne_zero (Nat.pos_iff_ne_zero.1 positive)
      have fewerWithin : fewer ≤ rest.length := by simpa using within
      simp only [Nat.succ_ne_zero, or_false, iovSize_cons_succ,
        Nat.succ_eq_add_one, Nat.add_sub_cancel]
      split
      case isTrue zero => simp [zero]
      case isFalse _ =>
        split
        case isTrue used =>
          simp only [induction _ _ fewerWithin]
          omega
        case isFalse left =>
          simp only
          omega

/-- The bytes delivered are the first ones of the first `count` entries. -/
theorem memcpyFromiovecSafe_buf
    (iov : List Iovec) (len count : Nat) :
    (memcpyFromiovecSafe mem iov len count).buf =
      (gather mem (iov.take count)).take len := by
  induction iov generalizing len count with
  | nil => simp [memcpyFromiovecSafe, gather]
  | cons entry rest induction =>
      rw [memcpyFromiovecSafe]
      rcases Nat.eq_zero_or_pos count with rfl | positive
      · simp [gather]
      obtain ⟨fewer, rfl⟩ := Nat.exists_eq_succ_of_ne_zero (Nat.pos_iff_ne_zero.1 positive)
      simp only [Nat.succ_ne_zero, or_false, Nat.succ_eq_add_one,
        Nat.add_sub_cancel, List.take_succ_cons]
      rw [gather_cons, List.take_append, readMem_take, readMem_length]
      split
      case isTrue zero => simp [zero, readMem]
      case isFalse _ =>
        split
        case isTrue used =>
          simp only [induction]
          congr 2
          omega
        case isFalse left =>
          have nothing : len - entry.len = 0 := by omega
          simp [nothing]

/-- Stepping over an entry takes it off the list and off the count. -/
theorem memcpyFromiovecSafe_length
    (iov : List Iovec) (len count : Nat) :
    (memcpyFromiovecSafe mem iov len count).iov.length + count =
      (memcpyFromiovecSafe mem iov len count).count + iov.length := by
  induction iov generalizing len count with
  | nil => simp [memcpyFromiovecSafe]
  | cons entry rest induction =>
      rw [memcpyFromiovecSafe]
      split
      case isTrue _ => exact Nat.add_comm _ _
      case isFalse continues =>
        simp only
        split
        case isTrue used =>
          have shorter := induction (len - min len entry.len) (count - 1)
          simp only [List.length_cons]
          omega
        case isFalse left =>
          simp only [List.length_cons]
          omega

/-- What the cursor leaves, together with entries behind it. -/
theorem memcpyFromiovecSafe_gather
    (iov : List Iovec) (len count more : Nat)
    (within : count ≤ iov.length) :
    gather mem
        ((memcpyFromiovecSafe mem iov len count).iov.take
          ((memcpyFromiovecSafe mem iov len count).count + more)) =
      (gather mem (iov.take (count + more))).drop
        (min len (iovSize iov count)) := by
  induction iov generalizing len count with
  | nil => simp [memcpyFromiovecSafe, gather]
  | cons entry rest induction =>
      rw [memcpyFromiovecSafe]
      rcases Nat.eq_zero_or_pos count with rfl | positive
      · simp
      obtain ⟨fewer, rfl⟩ :=
        Nat.exists_eq_succ_of_ne_zero (Nat.pos_iff_ne_zero.1 positive)
      have fewerWithin : fewer ≤ rest.length := by simpa using within
      have shift : fewer + 1 + more = fewer + more + 1 := by omega
      simp only [Nat.succ_ne_zero, or_false, iovSize_cons_succ,
        Nat.succ_eq_add_one, Nat.add_sub_cancel, shift,
        List.take_succ_cons, gather_cons]
      split
      case isTrue zero => simp [zero, shift, gather_cons]
      case isFalse _ =>
        split
        case isTrue used =>
          have whole : entry.len ≤ len := by omega
          simp only [induction _ _ fewerWithin]
          have past :
              (readMem mem entry.base entry.len).drop
                (min len (entry.len + iovSize rest fewer)) = [] := by
            apply List.drop_eq_nil_of_le
            rw [readMem_length]
            omega
          rw [List.drop_append, readMem_length, past, List.nil_append]
          congr 1
          omega
        case isFalse left =>
          have part : len < entry.len := by omega
          have all : min len (entry.len + iovSize rest fewer) = len := by
            omega
          rw [Nat.min_eq_left (Nat.le_of_lt part), all, shift, List.take_succ_cons,
            gather_cons, List.drop_append, readMem_length, readMem_drop,
            Nat.sub_eq_zero_of_le (Nat.le_of_lt part), List.drop_zero]

/-- A copy into a list with room touches the first cells of the list. -/
theorem memcpyToiovec_eq_all
    (iov : List Iovec) (len : Nat) (room : len ≤ iovSize iov iov.length) :
    memcpyToiovec mem iov len =
      ((gather mem iov).take len).all Option.isSome := by
  induction iov generalizing len with
  | nil =>
      obtain rfl : len = 0 := by simpa using room
      rfl
  | cons entry rest induction =>
      cases len with
      | zero => simp [memcpyToiovec]
      | succ len =>
          rw [List.length_cons, iovSize_cons_succ] at room
          rw [memcpyToiovec, induction _ (by omega), gather_cons,
            List.take_append, List.all_append, readMem_take,
            readMem_length, Nat.min_comm]
          · congr 3
            omega
          · exact Nat.succ_ne_zero len

/-! ## The last byte -/

theorem gather_of_empty {iov : List Iovec}
    (empty : ∀ entry ∈ iov, entry.len = 0) :
    gather mem iov = [] := by
  rw [gather, List.flatMap_eq_nil_iff]
  intro entry member
  rw [empty entry member]
  rfl

/-- The scan stops at the last entry that holds a byte. -/
theorem lastIov_split (iov : List Iovec) (last : Nat)
    (within : last < iov.length)
    (bytes : gather mem (iov.take (last + 1)) ≠ []) :
    ∃ tail,
      iov.take (last + 1) =
          iov.take (lastIov iov last) ++
            iov.getD (lastIov iov last) default :: tail ∧
        (∀ entry ∈ tail, entry.len = 0) ∧
        (iov.getD (lastIov iov last) default).len ≠ 0 ∧
        lastIov iov last ≤ last := by
  have extend (index : Nat) (inside : index < iov.length) :
      iov.take (index + 1) = iov.take index ++ [iov.getD index default] := by
    simp [List.getD_eq_getElem?_getD, inside]
  induction last with
  | zero =>
      refine ⟨[], extend 0 within, by simp, ?_, Nat.le_refl _⟩
      intro empty
      apply bytes
      rw [extend 0 within, List.take_zero, List.nil_append]
      apply gather_of_empty
      simpa [lastIov] using empty
  | succ last induction =>
      rw [lastIov]
      split
      case isTrue empty =>
        have nothing :
            gather mem [iov.getD (last + 1) default] = [] := by
          apply gather_of_empty
          simpa using empty
        have shorter :
            gather mem (iov.take (last + 1 + 1)) =
              gather mem (iov.take (last + 1)) := by
          rw [extend (last + 1) within, gather_append, nothing,
            List.append_nil]
        rcases induction (by omega) (shorter ▸ bytes) with
          ⟨tail, split, emptyTail, holds, bound⟩
        refine
          ⟨tail ++ [iov.getD (last + 1) default], ?_, ?_, holds, by omega⟩
        · rw [extend (last + 1) within, split, List.append_assoc,
            List.cons_append]
        · intro entry member
          rcases List.mem_append.1 member with old | new
          · exact emptyTail entry old
          · rw [List.mem_singleton.1 new, empty]
      case isFalse holds =>
        exact ⟨[], extend (last + 1) within, by simp, holds, Nat.le_refl _⟩

end Copy

/-! ## Places -/

/-- The places a buffer list describes, in order. -/
def places (iov : List Iovec) : List Nat :=
  iov.flatMap fun entry => (List.range entry.len).map (entry.base + ·)

theorem gather_eq_map (mem : HostMem) (iov : List Iovec) :
    gather mem iov = (places iov).map mem := by
  rw [gather, places, List.map_flatMap]
  congr 1
  funext entry
  rw [readMem, List.map_map]
  rfl

theorem places_length (iov : List Iovec) :
    (places iov).length = iovSize iov iov.length := by
  rw [← gather_length fun _ => none, gather_eq_map, List.length_map]

theorem places_drop (iov : List Iovec) (count : Nat) :
    places (iov.drop count) =
      (places iov).drop (iovSize iov count) := by
  have split :
      places iov =
        places (iov.take count) ++ places (iov.drop count) := by
    rw [places, places, places, ← List.flatMap_append,
      List.take_append_drop]
  have size :
      (places (iov.take count)).length = iovSize iov count := by
    rw [places_length, iovSize, List.take_length, iovSize]
  rw [split, List.drop_left' size]

/-- Places that no memory tells apart are the same. -/
theorem eq_of_map_mem {first second : List Nat}
    (same : ∀ mem : HostMem, first.map mem = second.map mem) :
    first = second := by
  have length : first.length = second.length := by
    have lengths := congrArg List.length (same fun _ => none)
    rwa [List.length_map, List.length_map] at lengths
  apply List.ext_getElem length
  intro index inFirst inSecond
  have marked := same fun place =>
    if place = first[index] then some 0 else none
  have cell := congrArg (fun cells => cells[index]?) marked
  simp only [List.getElem?_map, List.getElem?_eq_getElem inFirst,
    List.getElem?_eq_getElem inSecond, Option.map_some, if_true] at cell
  by_contra different
  rw [if_neg (Ne.symm different)] at cell
  cases cell

/-- What is left of a list does not depend on the bytes that are copied. -/
theorem memcpyFromiovecSafe_congr (mem other : HostMem)
    (iov : List Iovec) (len count : Nat) :
    (memcpyFromiovecSafe mem iov len count).iov =
        (memcpyFromiovecSafe other iov len count).iov ∧
      (memcpyFromiovecSafe mem iov len count).count =
        (memcpyFromiovecSafe other iov len count).count := by
  induction iov generalizing len count with
  | nil => exact ⟨rfl, rfl⟩
  | cons entry rest induction =>
      rw [memcpyFromiovecSafe, memcpyFromiovecSafe]
      split
      · exact ⟨rfl, rfl⟩
      · dsimp only
        split
        · exact induction _ _
        · exact ⟨rfl, rfl⟩

/-- The places that the cursor leaves, with entries behind it. -/
theorem memcpyFromiovecSafe_places (mem : HostMem)
    (iov : List Iovec) (len count more : Nat)
    (within : count ≤ iov.length) :
    places
        ((memcpyFromiovecSafe mem iov len count).iov.take
          ((memcpyFromiovecSafe mem iov len count).count + more)) =
      (places (iov.take (count + more))).drop
        (min len (iovSize iov count)) := by
  apply eq_of_map_mem
  intro other
  have same := memcpyFromiovecSafe_congr mem other iov len count
  rw [List.map_drop, ← gather_eq_map, ← gather_eq_map, same.1, same.2]
  exact memcpyFromiovecSafe_gather other iov len count more within

end Kemu.Util.IoVector
