import Kemu.Util.IoVector
import Mathlib.Algebra.Group.Nat.Defs
import Mathlib.Data.List.Basic
import Mathlib.Logic.Function.Basic

/-!
# The cursor of `memcpy_fromiovec_safe`

The array of entries and the cursor in it are changed in place: an entry the
loop takes bytes from is shortened, and the cursor steps over it once it is
empty.  Here the array is there as a whole, with the entries in front of the
cursor and those behind the ones that are counted.
-/

namespace Kemu.Util.IovecCursor

open Kemu.Util.IoVector hiding memcpyFromiovecSafe

/-! ## The code -/

/-- `iov` and `iovcount`: the array, the index of `*iov` and `*iovcount`. -/
structure Cursor where
  iov : Nat → Iovec
  index : Nat
  count : Nat

/-- Entry and cursor after some bytes of the entry are copied. -/
def Cursor.advance (cursor : Cursor) (copy : Nat) : Cursor :=
  let entry := cursor.iov cursor.index
  let left : Iovec := ⟨entry.base + copy, entry.len - copy⟩
  let iov := Function.update cursor.iov cursor.index left
  if left.len = 0 then
    ⟨iov, cursor.index + 1, cursor.count - 1⟩
  else
    ⟨iov, cursor.index, cursor.count⟩

/-- What was copied to the buffer, the cursor, and the length that is left. -/
structure SafeCopy where
  buf : List (Option UInt8)
  cursor : Cursor
  len : Nat

theorem advance_decreases {cursor : Cursor} {len : Nat}
    (turns : ¬ (len = 0 ∨ cursor.count = 0)) :
    let copy := min len (cursor.iov cursor.index).len
    (cursor.advance copy).count < cursor.count ∨
      (cursor.advance copy).count = cursor.count ∧ len - copy < len := by
  intro copy
  rw [not_or] at turns
  rw [Cursor.advance]
  dsimp only
  split
  case isTrue =>
    exact Or.inl (Nat.pred_lt turns.2)
  case isFalse remains =>
    exact Or.inr ⟨rfl, by omega⟩

/-- The loop of `memcpy_fromiovec_safe`. -/
def copyLoop (mem : HostMem) (cursor : Cursor) (len : Nat) : SafeCopy :=
  if len = 0 ∨ cursor.count = 0 then
    ⟨[], cursor, len⟩
  else
    let entry := cursor.iov cursor.index
    let copy := min len entry.len
    let later := copyLoop mem (cursor.advance copy) (len - copy)
    { later with buf := readMem mem entry.base copy ++ later.buf }
termination_by (cursor.count, len)
decreasing_by
  rename_i turns
  rcases advance_decreases turns with fewer | ⟨same, shorter⟩
  · exact Prod.Lex.left _ _ fewer
  · rw [same]
    exact Prod.Lex.right _ shorter

/-- `memcpy_fromiovec_safe`: a `size_t` is returned as an `ssize_t`. -/
def memcpyFromiovecSafe (mem : HostMem) (cursor : Cursor) (len : UInt64) :
    Int64 × SafeCopy :=
  let done := copyLoop mem cursor len.toNat
  ((UInt64.ofNat done.len).toInt64, done)

/-! ## What is copied and what is left -/

/-- The entries at the cursor. -/
def Cursor.entries (cursor : Cursor) : List Iovec :=
  (List.range cursor.count).map fun turn => cursor.iov (cursor.index + turn)

theorem entries_cons {cursor : Cursor} (counted : cursor.count ≠ 0) :
    cursor.entries =
      cursor.iov cursor.index ::
        Cursor.entries ⟨cursor.iov, cursor.index + 1, cursor.count - 1⟩ := by
  obtain ⟨fewer, count⟩ := Nat.exists_eq_succ_of_ne_zero counted
  rw [Cursor.entries, Cursor.entries, count, List.range_succ_eq_map,
    List.map_cons, List.map_map]
  congr 1
  apply List.map_congr_left
  intro turn _
  rw [Function.comp_apply, Nat.succ_eq_add_one, Nat.add_comm turn,
    Nat.add_assoc]

theorem entries_empty {cursor : Cursor} (empty : cursor.count = 0) :
    cursor.entries = [] := by
  rw [Cursor.entries, empty]
  rfl

theorem entries_update_before {iov : Nat → Iovec} {index place : Nat}
    (before : place < index) (entry : Iovec) (count : Nat) :
    Cursor.entries ⟨Function.update iov place entry, index, count⟩ =
      Cursor.entries ⟨iov, index, count⟩ := by
  apply List.map_congr_left
  intro turn _
  exact Function.update_of_ne (by dsimp only; omega) _ _

theorem entries_update_self {iov : Nat → Iovec} {index count : Nat}
    (counted : count ≠ 0) (entry : Iovec) :
    Cursor.entries ⟨Function.update iov index entry, index, count⟩ =
      entry :: Cursor.entries ⟨iov, index + 1, count - 1⟩ := by
  rw [entries_cons counted, entries_update_before (Nat.lt_succ_self _)]
  dsimp only
  rw [Function.update_self]

/-- The cursor steps over an entry that is used up. -/
theorem advance_used {cursor : Cursor} {copy : Nat}
    (used : (cursor.iov cursor.index).len - copy = 0) :
    cursor.advance copy =
      ⟨Function.update cursor.iov cursor.index
          ⟨(cursor.iov cursor.index).base + copy,
            (cursor.iov cursor.index).len - copy⟩,
        cursor.index + 1, cursor.count - 1⟩ :=
  if_pos used

/-- An entry that is not used up stays at the cursor. -/
theorem advance_part {cursor : Cursor} {copy : Nat}
    (part : copy < (cursor.iov cursor.index).len) :
    cursor.advance copy =
      ⟨Function.update cursor.iov cursor.index
          ⟨(cursor.iov cursor.index).base + copy,
            (cursor.iov cursor.index).len - copy⟩,
        cursor.index, cursor.count⟩ :=
  if_neg (Nat.sub_ne_zero_of_lt part)

/-- A turn takes bytes from the front. -/
theorem gather_advance (mem : HostMem) {cursor : Cursor} {copy : Nat}
    (counted : cursor.count ≠ 0)
    (fits : copy ≤ (cursor.iov cursor.index).len) :
    gather mem (cursor.advance copy).entries =
      (gather mem cursor.entries).drop copy := by
  have front :
      (gather mem cursor.entries).drop copy =
        readMem mem ((cursor.iov cursor.index).base + copy)
            ((cursor.iov cursor.index).len - copy) ++
          gather mem
            (Cursor.entries
              ⟨cursor.iov, cursor.index + 1, cursor.count - 1⟩) := by
    rw [entries_cons counted, gather_cons, List.drop_append_of_le_length,
      readMem_drop]
    rwa [readMem_length]
  rw [front]
  rcases Nat.eq_or_lt_of_le fits with whole | part
  · have used : (cursor.iov cursor.index).len - copy = 0 := by omega
    rw [advance_used used, entries_update_before (Nat.lt_succ_self _), used]
    rfl
  · rw [advance_part part, entries_update_self counted, gather_cons]

/-- What the loop did, and what it left. -/
structure Accounts (mem : HostMem) (cursor : Cursor) (len : Nat)
    (done : SafeCopy) : Prop where
  whole :
    done.buf ++ gather mem done.cursor.entries = gather mem cursor.entries
  summed : done.buf.length + done.len = len
  exhausted : done.len ≠ 0 → done.cursor.count = 0
  fewer : done.cursor.count ≤ cursor.count

theorem copyLoop_accounts (mem : HostMem) (cursor : Cursor) (len : Nat) :
    Accounts mem cursor len (copyLoop mem cursor len) := by
  fun_induction copyLoop mem cursor len with
  | case1 cursor len stops =>
      exact
        ⟨rfl, Nat.zero_add _, fun left => stops.resolve_left left,
          Nat.le_refl _⟩
  | case2 cursor len turns entry copy later induction =>
      have fits : copy ≤ entry.len := Nat.min_le_right _ _
      have counted : cursor.count ≠ 0 := (not_or.1 turns).2
      have begins :
          (gather mem cursor.entries).take copy =
            readMem mem entry.base copy := by
        rw [entries_cons counted, gather_cons,
          List.take_append_of_le_length (by rwa [readMem_length]),
          readMem_take, Nat.min_eq_left fits]
      refine ⟨?_, ?_, induction.exhausted, ?_⟩
      · dsimp only
        rw [List.append_assoc, induction.whole, gather_advance mem counted fits,
          ← begins, List.take_append_drop]
      · have summed : later.buf.length + later.len = len - copy :=
          induction.summed
        have within : copy ≤ len := Nat.min_le_left _ _
        dsimp only
        rw [List.length_append, readMem_length]
        omega
      · rcases advance_decreases turns with less | ⟨same, -⟩
        · exact Nat.le_trans induction.fewer (Nat.le_of_lt less)
        · exact Nat.le_trans induction.fewer (Nat.le_of_eq same)

/-- The function over a list copies the same bytes. -/
theorem copyLoop_buf (mem : HostMem) (cursor : Cursor) (len : Nat) :
    (copyLoop mem cursor len).buf =
      (IoVector.memcpyFromiovecSafe mem cursor.entries len
        cursor.count).buf := by
  have accounts := copyLoop_accounts mem cursor len
  have summed := accounts.summed
  have all : cursor.entries.take cursor.count = cursor.entries :=
    List.take_of_length_le (by simp [Cursor.entries])
  rw [memcpyFromiovecSafe_buf, all, ← accounts.whole]
  by_cases complete : (copyLoop mem cursor len).len = 0
  · exact (List.take_left' (by omega)).symm
  · rw [entries_empty (accounts.exhausted complete), gather_nil,
      List.append_nil, List.take_of_length_le (by omega)]

/-- Nothing is missing exactly when there were bytes enough. -/
theorem Accounts.complete_iff {mem : HostMem} {cursor : Cursor} {len : Nat}
    {done : SafeCopy} (accounts : Accounts mem cursor len done) :
    done.len = 0 ↔ len ≤ (gather mem cursor.entries).length := by
  have summed := accounts.summed
  rw [← accounts.whole, List.length_append]
  constructor
  · intro complete
    omega
  · intro enough
    by_contra missing
    rw [entries_empty (accounts.exhausted missing), gather_nil,
      List.length_nil] at enough
    omega

theorem copyLoop_zero (mem : HostMem) (cursor : Cursor) :
    copyLoop mem cursor 0 = ⟨[], cursor, 0⟩ := by
  rw [copyLoop, if_pos (Or.inl rfl)]

theorem copyLoop_empty (mem : HostMem) {cursor : Cursor} (len : Nat)
    (empty : cursor.count = 0) : copyLoop mem cursor len = ⟨[], cursor, len⟩ := by
  rw [copyLoop, if_pos (Or.inr empty)]

theorem copyLoop_turn (mem : HostMem) {cursor : Cursor} {len : Nat}
    (turns : ¬ (len = 0 ∨ cursor.count = 0)) :
    copyLoop mem cursor len =
      let entry := cursor.iov cursor.index
      let copy := min len entry.len
      let later := copyLoop mem (cursor.advance copy) (len - copy)
      { later with buf := readMem mem entry.base copy ++ later.buf } := by
  rw [copyLoop, if_neg turns]

/-! ## Two copies -/

theorem readMem_add (mem : HostMem) (base first second : Nat) :
    readMem mem base (first + second) =
      readMem mem base first ++ readMem mem (base + first) second := by
  rw [readMem, List.range_add, List.map_append, List.map_map]
  congr 1
  apply List.map_congr_left
  intro offset _
  rw [Function.comp_apply, Nat.add_assoc]

/-- An entry that is not used up is shortened once more. -/
theorem advance_advance {cursor : Cursor} {first : Nat} (second : Nat)
    (part : first < (cursor.iov cursor.index).len) :
    (cursor.advance first).advance second =
      cursor.advance (first + second) := by
  rw [advance_part part, Cursor.advance, Cursor.advance]
  simp only [Function.update_self, Function.update_idem, Nat.sub_sub,
    Nat.add_assoc]

/-- A copy of more than nothing that ends inside of an entry. -/
theorem copyLoop_part (mem : HostMem) {cursor : Cursor} {len : Nat}
    (turns : ¬ (len = 0 ∨ cursor.count = 0))
    (part : len < (cursor.iov cursor.index).len) :
    copyLoop mem cursor len =
      ⟨readMem mem (cursor.iov cursor.index).base len, cursor.advance len,
        0⟩ := by
  rw [copyLoop_turn mem turns]
  dsimp only
  rw [Nat.min_eq_left (Nat.le_of_lt part), Nat.sub_self, copyLoop_zero]
  dsimp only
  rw [List.append_nil]

/-- The bytes behind it are those of the shortened entry. -/
theorem copyLoop_behind (mem : HostMem) {cursor : Cursor} {len more : Nat}
    (turns : ¬ (len = 0 ∨ cursor.count = 0))
    (part : len < (cursor.iov cursor.index).len) :
    copyLoop mem cursor (len + more) =
      let later := copyLoop mem (cursor.advance len) more
      { later with
        buf := readMem mem (cursor.iov cursor.index).base len ++ later.buf } := by
  dsimp only
  rcases Nat.eq_zero_or_pos more with rfl | positive
  · rw [Nat.add_zero, copyLoop_part mem turns part, copyLoop_zero]
    dsimp only
    rw [List.append_nil]
  · have on : ¬ (len + more = 0 ∨ cursor.count = 0) := by omega
    have again : ¬ (more = 0 ∨ (cursor.advance len).count = 0) := by
      rw [advance_part part]
      dsimp only
      omega
    have entry :
        (cursor.advance len).iov (cursor.advance len).index =
          ⟨(cursor.iov cursor.index).base + len,
            (cursor.iov cursor.index).len - len⟩ := by
      rw [advance_part part]
      exact Function.update_self ..
    have copies :
        min (len + more) (cursor.iov cursor.index).len =
          len + min more ((cursor.iov cursor.index).len - len) := by
      omega
    rw [copyLoop_turn mem on, copyLoop_turn mem again]
    dsimp only
    rw [entry, copies, advance_advance _ part, readMem_add, List.append_assoc,
      Nat.add_sub_add_left]

/-- A second copy after one goes on where the first one stopped. -/
def SafeCopy.more (mem : HostMem) (first : SafeCopy) (more : Nat) :
    SafeCopy :=
  let second := copyLoop mem first.cursor more
  ⟨first.buf ++ second.buf, second.cursor, first.len + second.len⟩

theorem copyLoop_add (mem : HostMem) (cursor : Cursor) (len more : Nat) :
    copyLoop mem cursor (len + more) =
      (copyLoop mem cursor len).more mem more := by
  fun_induction copyLoop mem cursor len with
  | case1 cursor len stops =>
      rcases stops with rfl | empty
      · rw [SafeCopy.more, Nat.zero_add, List.nil_append, Nat.zero_add]
      · rw [SafeCopy.more, copyLoop_empty mem _ empty,
          copyLoop_empty mem _ empty]
        rfl
  | case2 cursor len turns entry copy later induction =>
      rcases Nat.lt_or_ge len entry.len with part | used
      · have all : copy = len := Nat.min_eq_left (Nat.le_of_lt part)
        have stops : later = ⟨[], cursor.advance len, 0⟩ := by
          show copyLoop mem (cursor.advance copy) (len - copy) = _
          rw [all, Nat.sub_self, copyLoop_zero]
        rw [copyLoop_behind mem turns part, stops, all]
        simp only [SafeCopy.more, List.append_nil, Nat.zero_add]
        rfl
      · have on : ¬ (len + more = 0 ∨ cursor.count = 0) := by omega
        have same : min (len + more) entry.len = copy := by omega
        have rest : len + more - copy = len - copy + more := by omega
        rw [copyLoop_turn mem on]
        dsimp only
        rw [show cursor.iov cursor.index = entry from rfl, same, rest,
          induction]
        simp only [SafeCopy.more, List.append_assoc]
        rfl

/-! ## A call -/

/-- What a call is expected to do. -/
structure CallAccounts (mem : HostMem) (cursor : Cursor) (len : UInt64)
    (ret : Int64) (done : SafeCopy) : Prop where
  whole :
    done.buf ++ gather mem done.cursor.entries = gather mem cursor.entries
  within : done.buf.length ≤ len.toNat
  returned : ret = (len - .ofNat done.buf.length).toInt64
  small : len.toNat < 2 ^ 63 → ret.toInt = len.toNat - done.buf.length
  enough : ret = 0 ↔ len.toNat ≤ (gather mem cursor.entries).length
  fewer : done.cursor.count ≤ cursor.count

theorem memcpyFromiovecSafe_accounts (mem : HostMem) (cursor : Cursor)
    (len : UInt64) :
    CallAccounts mem cursor len (memcpyFromiovecSafe mem cursor len).1
      (memcpyFromiovecSafe mem cursor len).2 := by
  have accounts := copyLoop_accounts mem cursor len.toNat
  have summed := accounts.summed
  rw [memcpyFromiovecSafe]
  dsimp only
  generalize copyLoop mem cursor len.toNat = done at accounts summed
  have fits : done.len < 2 ^ 64 :=
    Nat.lt_of_le_of_lt (by omega) len.toNat_lt
  have left : UInt64.ofNat done.len = len - .ofNat done.buf.length := by
    rw [← @UInt64.ofNat_toNat len, ← summed, UInt64.ofNat_add,
      UInt64.add_comm, UInt64.add_sub_cancel]
  refine
    ⟨accounts.whole, by omega, congrArg UInt64.toInt64 left, ?_, ?_,
      accounts.fewer⟩
  · intro small
    rw [UInt64.toInt64_ofNat', Int64.toInt_ofNat_of_lt (by omega)]
    omega
  · rw [← accounts.complete_iff]
    constructor
    · intro zero
      have unsigned := congrArg (fun ret => ret.toUInt64.toNat) zero
      rwa [UInt64.toUInt64_toInt64, UInt64.toNat_ofNat_of_lt' fits]
        at unsigned
    · intro complete
      rw [complete]
      rfl

/--
Nothing is lost or read twice, and one call does what two calls do for the
two parts of its length.
-/
theorem memcpyFromiovecSafe_law (mem : HostMem) (cursor : Cursor)
    (len : UInt64) :
    CallAccounts mem cursor len (memcpyFromiovecSafe mem cursor len).1
        (memcpyFromiovecSafe mem cursor len).2 ∧
      ∀ more sum : UInt64, sum.toNat = len.toNat + more.toNat →
        let first := memcpyFromiovecSafe mem cursor len
        let second := memcpyFromiovecSafe mem first.2.cursor more
        let once := memcpyFromiovecSafe mem cursor sum
        once.2.buf = first.2.buf ++ second.2.buf ∧
          once.2.cursor = second.2.cursor ∧
          once.1 = first.1 + second.1 := by
  refine ⟨memcpyFromiovecSafe_accounts mem cursor len, ?_⟩
  intro more sum parts first second once
  have added := copyLoop_add mem cursor len.toNat more.toNat
  rw [← parts] at added
  have same : once.2 = first.2.more mem more.toNat := added
  have left : once.2.len = first.2.len + second.2.len := by
    rw [same]
    rfl
  refine ⟨by rw [same]; rfl, by rw [same]; rfl, ?_⟩
  show (UInt64.ofNat once.2.len).toInt64 = _
  rw [left, UInt64.ofNat_add, UInt64.toInt64_add]
  rfl

/-- An empty entry, one of ten bytes and one of thirty bytes. -/
def threeEntries : Cursor :=
  ⟨fun index => [⟨0, 0⟩, ⟨0, 10⟩, ⟨16, 30⟩].getD index ⟨0, 0⟩, 0, 3⟩

/-- Memory in which a byte is its address. -/
def countingMem : HostMem :=
  fun place => some (.ofNat place)

/-- A header of 16 bytes, and 4 bytes behind it. -/
theorem memcpyFromiovecSafe_header :
    (memcpyFromiovecSafe countingMem threeEntries 20).2.buf =
      (memcpyFromiovecSafe countingMem threeEntries 16).2.buf ++
        (memcpyFromiovecSafe countingMem
            (memcpyFromiovecSafe countingMem threeEntries 16).2.cursor
            4).2.buf :=
  ((memcpyFromiovecSafe_law countingMem threeEntries 16).2 4 20
    (by decide)).1

end Kemu.Util.IovecCursor
