import Kemu.Lib.Bytes
import Kemu.Util.IoVector
import Mathlib.Data.List.Nodup
import Mathlib.Logic.Function.Basic

/-!
# Copies into and out of buffer lists

`memcpy_toiovec` and `memcpy_fromiovec` of `util/iovec.c`.  Both shorten the
entries they use in place and keep no count of the entries: a copy of more
bytes than the list has goes on with what lies behind it.
-/

namespace Kemu.Util.IovecCopy

open Kemu.Lib.Bytes
open Kemu.Util.IoVector hiding memcpyToiovec

/-! ## The code -/

/-- A byte that is written to a place. -/
structure Store where
  place : Nat
  byte : UInt8
deriving DecidableEq, Repr

/-- The memory after some bytes are written, one after the other. -/
def storeAll (mem : Nat → UInt8) (stores : List Store) : Nat → UInt8 :=
  stores.foldl
    (fun mem store => Function.update mem store.place store.byte) mem

/-- `memcpy` to a base address. -/
def storesAt (base : Nat) (bytes : List UInt8) : List Store :=
  List.zipWith Store.mk ((List.range bytes.length).map (base + ·)) bytes

/-- An entry whose first bytes are used. -/
def Iovec.shorten (entry : Iovec) (copy : Nat) : Iovec :=
  ⟨entry.base + copy, entry.len - copy⟩

/--
`memcpy_toiovec`: what is written, and the list that is left; `none` where
the copy runs behind the list.
-/
def memcpyToiovec :
    List Iovec → List UInt8 → Option (List Store × List Iovec)
  | iov, [] => some ([], iov)
  | [], _ :: _ => none
  | entry :: rest, kdata =>
      let copy := min entry.len kdata.length
      (memcpyToiovec rest (kdata.drop copy)).map fun (stores, left) =>
        (storesAt entry.base (kdata.take copy) ++ stores,
          Iovec.shorten entry copy :: left)

/-- `memcpy_fromiovec`: what is read, and the list that is left. -/
def memcpyFromiovec (mem : Nat → UInt8) :
    List Iovec → Nat → Option (List UInt8 × List Iovec)
  | iov, 0 => some ([], iov)
  | [], _ + 1 => none
  | entry :: rest, len =>
      let copy := min len entry.len
      (memcpyFromiovec mem rest (len - copy)).map fun (kdata, left) =>
        ((List.range copy).map (fun index => mem (entry.base + index)) ++
            kdata,
          Iovec.shorten entry copy :: left)

/-! ## Memory after writes -/

section Memory

variable {mem : Nat → UInt8}

theorem storeAll_append (first second : List Store) :
    storeAll mem (first ++ second) =
      storeAll (storeAll mem first) second :=
  List.foldl_append

/-- Places that are not written keep their bytes. -/
theorem storeAll_of_not_mem {stores : List Store} {place : Nat}
    (untouched : ∀ store ∈ stores, store.place ≠ place) :
    storeAll mem stores place = mem place := by
  induction stores generalizing mem with
  | nil => rfl
  | cons store rest induction =>
      have other := untouched store List.mem_cons_self
      have later :=
        @induction (Function.update mem store.place store.byte)
          (List.forall_mem_cons.mp untouched).2
      rw [← List.singleton_append, storeAll_append]
      exact later.trans (Function.update_of_ne (Ne.symm other) _ _)

theorem place_mem_of_zipWith {places : List Nat} {bytes : List UInt8}
    {store : Store} (member : store ∈ List.zipWith Store.mk places bytes) :
    store.place ∈ places := by
  induction places generalizing bytes with
  | nil => cases member
  | cons place rest induction =>
      cases bytes with
      | nil => cases member
      | cons byte bytes =>
          rcases List.mem_cons.mp member with rfl | later
          · exact List.mem_cons_self
          · exact List.mem_cons_of_mem _ (induction later)

variable (mem) in
/-- Bytes that are written to different places are there afterwards. -/
theorem map_storeAll_zipWith {places : List Nat} {bytes : List UInt8}
    (distinct : places.Nodup) (fits : bytes.length ≤ places.length) :
    (places.take bytes.length).map
        (storeAll mem (List.zipWith Store.mk places bytes)) =
      bytes := by
  induction places generalizing bytes mem with
  | nil =>
      rw [List.length_eq_zero_iff.mp (Nat.le_zero.mp fits)]
      rfl
  | cons place rest induction =>
      cases bytes with
      | nil => rfl
      | cons byte bytes =>
          obtain ⟨fresh, distinct⟩ := List.nodup_cons.mp distinct
          rw [List.zipWith_cons_cons, ← List.singleton_append,
            List.length_cons, List.take_succ_cons, List.map_cons]
          congr 1
          · rw [storeAll_append, storeAll_of_not_mem]
            · exact Function.update_self _ _ _
            · intro store member same
              exact fresh (same ▸ place_mem_of_zipWith member)
          · have later :=
              induction (storeAll mem [⟨place, byte⟩]) distinct
                (Nat.le_of_succ_le_succ fits)
            rwa [← storeAll_append] at later

/-- What is written to some of the places, from one of them on. -/
theorem map_storeAll_drop (mem : Nat → UInt8) {places : List Nat}
    (distinct : places.Nodup) (offset : Nat) (bytes : List UInt8) :
    places.map
        (storeAll mem (List.zipWith Store.mk (places.drop offset) bytes)) =
      patch (places.map mem) offset bytes := by
  induction places generalizing mem offset bytes with
  | nil =>
      rw [List.drop_nil, List.zipWith_nil_left]
      simp [patch]
  | cons place rest induction =>
      obtain ⟨fresh, distinct⟩ := List.nodup_cons.mp distinct
      cases offset with
      | succ offset =>
          have untouched :
              storeAll mem
                  (List.zipWith Store.mk (rest.drop offset) bytes) place =
                mem place := by
            refine storeAll_of_not_mem fun store member same => fresh ?_
            rw [← same]
            exact List.mem_of_mem_drop (place_mem_of_zipWith member)
          have tail := induction mem distinct offset bytes
          rw [List.drop_succ_cons, List.map_cons, List.map_cons, untouched,
            tail, patch, patch, List.take_succ_cons, List.length_cons,
            Nat.add_right_comm offset 1, List.drop_succ_cons,
            Nat.add_sub_add_right]
          rfl
      | zero =>
          cases bytes with
          | nil =>
              rw [List.zipWith_nil_right, patch_nil]
              rfl
          | cons byte bytes =>
              have tail :=
                induction (Function.update mem place byte) distinct 0 bytes
              have same :
                  rest.map (Function.update mem place byte) =
                    rest.map mem := by
                refine List.map_congr_left fun other member => ?_
                refine Function.update_of_ne ?_ _ _
                rintro rfl
                exact fresh member
              have head :
                  storeAll (Function.update mem place byte)
                      (List.zipWith Store.mk rest bytes) place =
                    byte := by
                rw [storeAll_of_not_mem]
                · exact Function.update_self _ _ _
                · rintro store member rfl
                  exact fresh (place_mem_of_zipWith member)
              rw [List.drop_zero, same] at tail
              rw [List.drop_zero, List.zipWith_cons_cons,
                ← List.singleton_append, storeAll_append, List.map_cons,
                List.map_cons]
              refine (congrArg₂ List.cons head tail).trans ?_
              simp [patch]

/-- What is written behind some first bytes. -/
theorem zipWith_append_bytes (places : List Nat)
    (front back : List UInt8) :
    List.zipWith Store.mk places (front ++ back) =
      List.zipWith Store.mk places front ++
        List.zipWith Store.mk (places.drop front.length) back := by
  induction front generalizing places with
  | nil => rw [List.zipWith_nil_right]; rfl
  | cons byte front induction =>
      cases places with
      | nil => simp
      | cons place places =>
          rw [List.cons_append, List.zipWith_cons_cons,
            List.zipWith_cons_cons, induction, List.length_cons,
            List.drop_succ_cons, List.cons_append]

end Memory

/-! ## What a copy uses -/

theorem places_cons (entry : Iovec) (rest : List Iovec) :
    places (entry :: rest) =
      (List.range entry.len).map (entry.base + ·) ++ places rest :=
  rfl

theorem range_map_add_drop (base len copy : Nat) :
    ((List.range len).map (base + ·)).drop copy =
      (List.range (len - copy)).map (base + copy + ·) := by
  rw [← List.map_drop]
  apply List.ext_getElem
  · simp
  · intro index _ _
    simp [Nat.add_assoc]

theorem range_map_add_take {base len copy : Nat} (fits : copy ≤ len) :
    ((List.range len).map (base + ·)).take copy =
      (List.range copy).map (base + ·) := by
  rw [← List.map_take, List.take_range, Nat.min_eq_left fits]

/-- What is left of a list of which some first bytes are used. -/
structure Used (iov : List Iovec) (len : Nat) (left : List Iovec) :
    Prop where
  length : left.length = iov.length
  places :
    ∀ count,
      places (left.drop count) =
        (places (iov.drop count)).drop (len - iovSize iov count)

theorem Used.none (iov : List Iovec) : Used iov 0 iov :=
  ⟨rfl, fun count => by rw [Nat.zero_sub, List.drop_zero]⟩

theorem Used.cons {entry : Iovec} {rest left : List Iovec} {len : Nat}
    (used : Used rest (len - min entry.len len) left) :
    Used (entry :: rest) len
      (Iovec.shorten entry (min entry.len len) :: left) := by
  constructor
  · rw [List.length_cons, List.length_cons, used.length]
  · intro count
    cases count with
    | zero =>
        have all := used.places 0
        rw [List.drop_zero, List.drop_zero, iovSize_zero, Nat.sub_zero] at all
        rw [List.drop_zero, List.drop_zero, iovSize_zero, Nat.sub_zero,
          places_cons, places_cons, List.drop_append, List.length_map,
          List.length_range, all, range_map_add_drop, Iovec.shorten]
        rcases Nat.le_total entry.len len with whole | part
        · rw [Nat.min_eq_left whole, Nat.sub_self,
            Nat.sub_eq_zero_of_le whole]
          rfl
        · rw [Nat.min_eq_right part, Nat.sub_self,
            Nat.sub_eq_zero_of_le part]
    | succ count =>
        rw [List.drop_succ_cons, List.drop_succ_cons, iovSize_cons_succ,
          used.places]
        congr 1
        omega

theorem zipWith_take_length (places : List Nat) (kdata : List UInt8) :
    List.zipWith Store.mk (places.take kdata.length) kdata =
      List.zipWith Store.mk places kdata := by
  induction places generalizing kdata with
  | nil => rw [List.take_nil]
  | cons place rest induction =>
      cases kdata with
      | nil => rfl
      | cons byte kdata =>
          rw [List.length_cons, List.take_succ_cons, List.zipWith_cons_cons,
            List.zipWith_cons_cons, induction]

theorem zipWith_places_cons {entry : Iovec} {rest : List Iovec}
    (kdata : List UInt8) :
    List.zipWith Store.mk (places (entry :: rest)) kdata =
      storesAt entry.base (kdata.take (min entry.len kdata.length)) ++
        List.zipWith Store.mk (places rest)
          (kdata.drop (min entry.len kdata.length)) := by
  rw [places_cons]
  rcases Nat.le_total entry.len kdata.length with whole | part
  · have length : (kdata.take entry.len).length = entry.len := by
      rw [List.length_take, Nat.min_eq_left whole]
    rw [Nat.min_eq_left whole, storesAt, length,
      ← List.zipWith_append, List.take_append_drop]
    rw [List.length_map, List.length_range, length]
  · have front :
        (((List.range entry.len).map (entry.base + ·)) ++ places rest).take
            kdata.length =
          (List.range kdata.length).map (entry.base + ·) := by
      rw [List.take_append_of_le_length, range_map_add_take part]
      rwa [List.length_map, List.length_range]
    rw [Nat.min_eq_right part, List.take_length, List.drop_length,
      List.zipWith_nil_right, List.append_nil, storesAt, ← front,
      zipWith_take_length]

/-- A copy writes the bytes to the places of the list, in order. -/
theorem memcpyToiovec_eq {iov : List Iovec} {kdata : List UInt8}
    (fits : kdata.length ≤ iovSize iov iov.length) :
    ∃ left,
      memcpyToiovec iov kdata =
          some (List.zipWith Store.mk (places iov) kdata, left) ∧
        Used iov kdata.length left := by
  induction iov generalizing kdata with
  | nil =>
      rw [List.length_eq_zero_iff.mp (Nat.le_zero.mp fits)]
      exact ⟨[], rfl, Used.none []⟩
  | cons entry rest induction =>
      have size :
          iovSize (entry :: rest) (entry :: rest).length =
            entry.len + iovSize rest rest.length :=
        iovSize_cons_succ _ _ _
      cases kdata with
      | nil =>
          refine ⟨_, ?_, Used.none _⟩
          rw [memcpyToiovec, List.zipWith_nil_right]
      | cons byte kdata =>
          rw [size] at fits
          obtain ⟨left, copied, used⟩ :=
            @induction
              ((byte :: kdata).drop
                (min entry.len (byte :: kdata).length))
              (by rw [List.length_drop]; omega)
          refine ⟨_, ?_, Used.cons (List.length_drop ▸ used)⟩
          rw [memcpyToiovec, copied, zipWith_places_cons]
          · rfl
          · simp

/-- A copy of more bytes than a list has runs behind it. -/
theorem memcpyToiovec_none {iov : List Iovec} {kdata : List UInt8}
    (longer : iovSize iov iov.length < kdata.length) :
    memcpyToiovec iov kdata = none := by
  induction iov generalizing kdata with
  | nil =>
      cases kdata with
      | nil => exact absurd longer (Nat.lt_irrefl _)
      | cons byte kdata => rfl
  | cons entry rest induction =>
      have size :
          iovSize (entry :: rest) (entry :: rest).length =
            entry.len + iovSize rest rest.length :=
        iovSize_cons_succ _ _ _
      cases kdata with
      | nil => exact absurd longer (Nat.not_lt_zero _)
      | cons byte kdata =>
          rw [size] at longer
          rw [memcpyToiovec, induction]
          · rfl
          · rw [List.length_drop]
            omega
          · exact List.cons_ne_nil _ _

/-- A byte goes to the first place of a list, if there is one. -/
theorem memcpyToiovec_singleton (iov : List Iovec) (byte : UInt8) :
    (memcpyToiovec iov [byte]).map Prod.fst =
      (places iov).head?.map fun place => [⟨place, byte⟩] := by
  have length := places_length iov
  cases start : places iov with
  | nil =>
      rw [start] at length
      rw [memcpyToiovec_none (Nat.lt_one_iff.mpr length.symm)]
      rfl
  | cons place rest =>
      rw [start] at length
      obtain ⟨left, copied, _⟩ :=
        memcpyToiovec_eq (length ▸ Nat.succ_le_succ (Nat.zero_le _) :
          [byte].length ≤ iovSize iov iov.length)
      rw [copied, start, List.zipWith_cons_cons, List.zipWith_nil_right]
      rfl

/-- A copy reads the bytes at the places of the list, in order. -/
theorem memcpyFromiovec_eq (mem : Nat → UInt8) {iov : List Iovec}
    {len : Nat} (fits : len ≤ iovSize iov iov.length) :
    ∃ left,
      memcpyFromiovec mem iov len =
          some (((places iov).take len).map mem, left) ∧
        Used iov len left := by
  induction iov generalizing len with
  | nil =>
      rw [Nat.le_zero.mp fits]
      exact ⟨[], rfl, Used.none []⟩
  | cons entry rest induction =>
      cases len with
      | zero => exact ⟨_, rfl, Used.none _⟩
      | succ len =>
          rw [List.length_cons, iovSize_cons_succ] at fits
          obtain ⟨left, copied, used⟩ :=
            @induction (len + 1 - min entry.len (len + 1)) (by omega)
          refine ⟨_, ?_, Used.cons used⟩
          rw [memcpyFromiovec, Nat.min_comm, copied, places_cons,
            List.take_append, List.length_map, List.length_range]
          · have same :
                len + 1 - min entry.len (len + 1) = len + 1 - entry.len := by
              omega
            rw [same, ← List.map_take, List.take_range, List.map_append,
              List.map_map, Nat.min_comm (len + 1)]
            rfl
          · exact Nat.succ_ne_zero len

end Kemu.Util.IovecCopy
