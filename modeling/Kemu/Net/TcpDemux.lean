import Kemu.Lib.Transition
import Mathlib.Data.List.Nodup

/-!
# Which connection a segment belongs to

The connections are a list of socket objects, found by the addresses and
ports of a segment.  A segment with SYN makes a new object without a look at
the list, so a SYN that the guest repeats, or sends on addresses and ports
that are still in use, leaves two objects for one connection.
-/

namespace Kemu.Net.TcpDemux

open Kemu.Lib.Transition

/-! ## The list of connections -/

/-- The addresses and ports of a connection, as they are in the frame. -/
structure Endpoints where
  sip : UInt32
  dip : UInt32
  sport : UInt16
  dport : UInt16
deriving DecidableEq, Repr

/--
`struct uip_tcp_socket`, as far as the list is concerned; `id` stands for the
address of the object.
-/
structure UipTcpSocket where
  id : Nat
  ends : Endpoints
  writeDone : Bool
  readDone : Bool
deriving DecidableEq, Repr

/-- `uip_tcp_socket_find`. -/
def uipTcpSocketFind
    (sockets : List UipTcpSocket) (ends : Endpoints) :
    Option UipTcpSocket :=
  sockets.find? fun sk => sk.ends == ends

/-- The object that `uip_tcp_socket_alloc` puts behind the others. -/
def uipTcpSocketAlloc
    (sockets : List UipTcpSocket) (id : Nat) (ends : Endpoints) :
    List UipTcpSocket :=
  sockets ++ [{ id, ends, writeDone := false, readDone := false }]

/-- A change of one object. -/
def update
    (sockets : List UipTcpSocket) (id : Nat)
    (change : UipTcpSocket → UipTcpSocket) : List UipTcpSocket :=
  sockets.map fun sk => if sk.id = id then change sk else sk

/-- `uip_tcp_socket_close`: the object is unlinked if both sides are done. -/
def uipTcpSocketClose (sockets : List UipTcpSocket) (id : Nat) :
    List UipTcpSocket :=
  sockets.filter fun sk => !(sk.id == id && sk.writeDone && sk.readDone)

/--
The list, the number of objects made so far, and for each pair of ends the
object whose SYN-ACK was sent last.
-/
structure Demux where
  sockets : List UipTcpSocket
  made : Nat
  announced : Endpoints → Option Nat

/-- No connection yet. -/
def demuxStart : Demux where
  sockets := []
  made := 0
  announced := fun _ => none

/--
What happens next: a segment with SYN, of which `connect` succeeds or not;
another segment, perhaps with FIN; the receive thread of an object is done;
or one of the threads is in `uip_tcp_socket_close`.
-/
inductive Move where
  | syn (ends : Endpoints) (connects : Bool)
  | other (ends : Endpoints) (fin : Bool)
  | readDone (id : Nat)
  | close (id : Nat)
deriving DecidableEq, Repr

/-- `uip_tx_do_ipv4_tcp` for a segment with SYN. -/
def synSegment (state : Demux) (ends : Endpoints) : Demux where
  sockets := uipTcpSocketAlloc state.sockets state.made ends
  made := state.made + 1
  announced := fun key =>
    if key = ends then some state.made else state.announced key

/-- `uip_tx_do_ipv4_tcp` for a segment without SYN. -/
def otherSegment (state : Demux) (ends : Endpoints) (fin : Bool) : Demux :=
  match uipTcpSocketFind state.sockets ends with
  | none => state
  | some sk =>
      if fin then
        { state with
          sockets :=
            update state.sockets sk.id fun sk => { sk with writeDone := true } }
      else
        state

/-- One move. -/
def demuxStep (state : Demux) : Move → Demux
  | .syn ends connects => if connects then synSegment state ends else state
  | .other ends fin => otherSegment state ends fin
  | .readDone id =>
      { state with
        sockets :=
          update state.sockets id fun sk => { sk with readDone := true } }
  | .close id =>
      { state with sockets := uipTcpSocketClose state.sockets id }

/-! ## What is expected -/

/--
There is one object at most for each pair of ends, and a segment is applied
to the one whose SYN-ACK was sent last.
-/
structure Unique (state : Demux) : Prop where
  ends : (state.sockets.map UipTcpSocket.ends).Nodup
  applied :
    ∀ ends sk, uipTcpSocketFind state.sockets ends = some sk →
      state.announced ends = some sk.id

/-- A connection is opened between ends that no connection has. -/
def Permitted (state : Demux) : Move → Prop
  | .syn ends connects =>
      connects = true → uipTcpSocketFind state.sockets ends = none
  | .other _ _ | .readDone _ | .close _ => True

/-! ## What the operations do to the list -/

section List

variable (sockets : List UipTcpSocket) (ends : Endpoints)

theorem find_eq_none :
    uipTcpSocketFind sockets ends = none ↔
      ends ∉ sockets.map UipTcpSocket.ends := by
  simp only [uipTcpSocketFind, List.find?_eq_none, beq_iff_eq, List.mem_map,
    not_exists, not_and]

variable {sockets} {ends}

/-- What is found is in the list and has the ends. -/
theorem find_eq_some {sk : UipTcpSocket}
    (found : uipTcpSocketFind sockets ends = some sk) :
    sk ∈ sockets ∧ sk.ends = ends := by
  refine ⟨List.mem_of_find?_eq_some found, ?_⟩
  have same := List.find?_some found
  exact eq_of_beq same

theorem ends_update {id : Nat} {change : UipTcpSocket → UipTcpSocket}
    (same : ∀ sk, (change sk).ends = sk.ends) :
    (update sockets id change).map UipTcpSocket.ends =
      sockets.map UipTcpSocket.ends := by
  rw [update, List.map_map]
  apply List.map_congr_left
  intro sk _
  rw [Function.comp_apply]
  split
  · exact same sk
  · rfl

/-- An object of the changed list has the ends and the place of an old one. -/
theorem mem_update {id : Nat} {change : UipTcpSocket → UipTcpSocket}
    (same : ∀ sk, (change sk).ends = sk.ends ∧ (change sk).id = sk.id)
    {sk : UipTcpSocket} (member : sk ∈ update sockets id change) :
    ∃ old ∈ sockets, sk.ends = old.ends ∧ sk.id = old.id := by
  obtain ⟨old, kept, rfl⟩ := List.mem_map.1 member
  refine ⟨old, kept, ?_⟩
  split
  · exact same old
  · exact ⟨rfl, rfl⟩

end List

/-! ## While every move is permitted -/

/-- Every object is the one whose SYN-ACK was sent last between its ends. -/
structure Tidy (state : Demux) : Prop where
  ends : (state.sockets.map UipTcpSocket.ends).Nodup
  latest : ∀ sk ∈ state.sockets, state.announced sk.ends = some sk.id

namespace Tidy

variable {state : Demux}

theorem start : Tidy demuxStart where
  ends := List.nodup_nil
  latest := nofun

theorem unique (tidy : Tidy state) : Unique state where
  ends := tidy.ends
  applied ends sk found := by
    obtain ⟨member, rfl⟩ := find_eq_some found
    exact tidy.latest sk member

theorem syn (tidy : Tidy state) {ends : Endpoints}
    (new : uipTcpSocketFind state.sockets ends = none) :
    Tidy (synSegment state ends) := by
  rw [find_eq_none] at new
  constructor
  · show
      ((state.sockets ++ [_]).map UipTcpSocket.ends).Nodup
    rw [List.map_append, List.nodup_append]
    refine ⟨tidy.ends, List.nodup_singleton _, ?_⟩
    rintro key old _ fresh rfl
    have same : key = ends := List.mem_singleton.1 fresh
    rw [same] at old
    exact new old
  · intro sk member
    rcases List.mem_append.1 member with old | fresh
    · have differs : sk.ends ≠ ends := by
        rintro rfl
        exact new (List.mem_map_of_mem old)
      exact (if_neg differs).trans (tidy.latest sk old)
    · rw [List.mem_singleton.1 fresh]
      exact if_pos rfl

/-- A change of flags changes nothing here. -/
theorem update (tidy : Tidy state) (id : Nat)
    {change : UipTcpSocket → UipTcpSocket}
    (same : ∀ sk, (change sk).ends = sk.ends ∧ (change sk).id = sk.id) :
    Tidy { state with sockets := update state.sockets id change } where
  ends := by
    rw [ends_update fun sk => (same sk).1]
    exact tidy.ends
  latest sk member := by
    obtain ⟨old, kept, ends, place⟩ := mem_update same member
    rw [ends, place]
    exact tidy.latest old kept

theorem step (tidy : Tidy state) (move : Move)
    (permitted : Permitted state move) : Tidy (demuxStep state move) := by
  cases move with
  | syn ends connects =>
      cases connects with
      | true => exact tidy.syn (permitted rfl)
      | false => exact tidy
  | other ends fin =>
      show Tidy (otherSegment state ends fin)
      unfold otherSegment
      split
      · exact tidy
      · split
        · exact tidy.update _ fun _ => ⟨rfl, rfl⟩
        · exact tidy
  | readDone id => exact tidy.update id fun _ => ⟨rfl, rfl⟩
  | close id =>
      constructor
      · exact tidy.ends.sublist (List.filter_sublist.map _)
      · intro sk member
        exact tidy.latest sk (List.mem_of_mem_filter member)

/-- A second object for the same ends. -/
theorem doubled {ends : Endpoints}
    (taken : uipTcpSocketFind state.sockets ends ≠ none) :
    ¬ Unique (synSegment state ends) := by
  intro unique
  rw [Ne, find_eq_none, not_not] at taken
  have nodup : ((state.sockets ++ [_]).map UipTcpSocket.ends).Nodup :=
    unique.ends
  rw [List.map_append, List.nodup_append] at nodup
  exact nodup.2.2 ends taken ends (List.mem_singleton_self ends) rfl

end Tidy

/-! ## Every sequence of segments -/

/--
In a run from the start there is one object at most for each pair of ends,
and each segment reaches the one announced last, exactly if no connection is
opened between ends that are in use.
-/
theorem demux_unique_iff (moves : List Move) :
    Throughout demuxStep Unique demuxStart moves ↔
      Along demuxStep Permitted demuxStart moves := by
  have broken (state : Demux) (move : Move) (tidy : Tidy state)
      (refused : ¬ Permitted state move) :
      ¬ Unique (demuxStep state move) := by
    cases move with
    | syn ends connects =>
        cases connects with
        | true => exact Tidy.doubled fun new => refused fun _ => new
        | false => exact absurd nofun refused
    | other ends fin | readDone id | close id =>
        exact absurd trivial refused
  exact throughout_iff_along (fun _ tidy => Tidy.unique tidy)
    (fun _ move tidy allowed => Tidy.step tidy move allowed) broken
    Tidy.start moves

/-- The guest repeats a SYN. -/
theorem syn_repeated :
    ¬ ∀ moves, Throughout demuxStep Unique demuxStart moves := by
  intro unique
  have twice :=
    unique [.syn ⟨1, 2, 3, 4⟩ true, .syn ⟨1, 2, 3, 4⟩ true]
  exact absurd twice.2.2.ends (by decide)

end Kemu.Net.TcpDemux
