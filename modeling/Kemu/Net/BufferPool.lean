import Kemu.Lib.Transition
import Kemu.Net.FrameReads

/-!
# The buffers of the user-mode network

A buffer is free, used, or in the hands of the call that took it.  A call
takes the first free buffer to build a frame and hands it over as used, or
takes the first used buffer to copy its frame to the guest and hands it over
as free.

The answer to an ARP request for an address that is not the host's is not
handed over: its buffer is lost.
-/

namespace Kemu.Net.BufferPool

open Kemu.Lib.Transition
open Kemu.Net.Packet (UipInfo htons htonl load16 load32 uipEthPArp)
open Kemu.Net.FrameReads

/-! ## The pool -/

/-- `UIP_BUF_STATUS_FREE`, `UIP_BUF_STATUS_INUSE`, `UIP_BUF_STATUS_USED`. -/
inductive Status where
  | free
  | inuse
  | used
deriving DecidableEq, Repr

/-- The status of the buffers in the order of the list, and the counters. -/
structure Pool where
  bufs : List Status
  freeNr : Int
  usedNr : Int
deriving DecidableEq, Repr

/-- `uip_init`. -/
def uipInit (bufNr : Nat) : Pool where
  bufs := List.replicate bufNr .free
  freeNr := bufNr
  usedNr := 0

/--
What taking a buffer comes to: the caller waits, gets a null pointer, or gets
a buffer.
-/
inductive Taken where
  | waits
  | missing
  | got (index : Nat) (pool : Pool)
deriving DecidableEq, Repr

/-- `uip_buf_get_used`. -/
def uipBufGetUsed (pool : Pool) : Taken :=
  if 0 < pool.usedNr then
    (pool.bufs.findIdx? (· == .used)).elim .missing fun index =>
      .got index
        { pool with
          bufs := pool.bufs.set index .inuse
          usedNr := pool.usedNr - 1 }
  else
    .waits

/-- `uip_buf_get_free`. -/
def uipBufGetFree (pool : Pool) : Taken :=
  if 0 < pool.freeNr then
    (pool.bufs.findIdx? (· == .free)).elim .missing fun index =>
      .got index
        { pool with
          bufs := pool.bufs.set index .inuse
          freeNr := pool.freeNr - 1 }
  else
    .waits

/-- `uip_buf_set_used`. -/
def uipBufSetUsed (pool : Pool) (index : Nat) : Pool :=
  { pool with
    bufs := pool.bufs.set index .used
    usedNr := pool.usedNr + 1 }

/-- `uip_buf_set_free`. -/
def uipBufSetFree (pool : Pool) (index : Nat) : Pool :=
  { pool with
    bufs := pool.bufs.set index .free
    freeNr := pool.freeNr + 1 }

/-! ## The counters -/

/-- The counters count. -/
structure Counted (pool : Pool) : Prop where
  free : pool.freeNr = pool.bufs.count .free
  used : pool.usedNr = pool.bufs.count .used

/-- A change of one status changes two counts by one. -/
theorem count_set {bufs : List Status} {index : Nat} {old : Status}
    (there : bufs[index]? = some old) (new status : Status) :
    (bufs.set index new).count status + (if old = status then 1 else 0) =
      bufs.count status + if new = status then 1 else 0 := by
  induction bufs generalizing index with
  | nil => cases there
  | cons first rest induction =>
      cases index with
      | zero =>
          have same : first = old := Option.some.inj there
          subst same
          simp only [List.set_cons_zero, List.count_cons, beq_iff_eq]
          omega
      | succ index =>
          have tail := induction there
          simp only [List.set_cons_succ, List.count_cons]
          omega

/-- The first buffer with a status, where there is one. -/
theorem findIdx_of_count {bufs : List Status} {status : Status}
    (some' : 0 < bufs.count status) :
    ∃ index,
      bufs.findIdx? (· == status) = some index ∧
        bufs[index]? = some status ∧
          ∀ before < index, bufs[before]? ≠ some status := by
  cases found : bufs.findIdx? (· == status) with
  | none =>
      rw [List.findIdx?_eq_none_iff] at found
      have member := List.count_pos_iff.1 some'
      exact absurd (found status member) (by simp)
  | some index =>
      obtain ⟨inside, here, first⟩ :=
        List.findIdx?_eq_some_iff_getElem.1 found
      refine ⟨index, rfl, ?_, ?_⟩
      · rw [List.getElem?_eq_getElem inside, eq_of_beq here]
      · intro before earlier same
        apply first before earlier
        rw [List.getElem?_eq_getElem (Nat.lt_trans earlier inside)] at same
        rw [Option.some.inj same]
        exact beq_self_eq_true status

namespace Counted

variable {pool : Pool}

theorem init (bufNr : Nat) : Counted (uipInit bufNr) where
  free := by simp [uipInit]
  used := by simp [uipInit, List.count_replicate]

/-- One status is exchanged and the counters are moved along. -/
theorem exchange (counted : Counted pool) {index : Nat} {old new : Status}
    (there : pool.bufs[index]? = some old) {freeNr usedNr : Int}
    (free :
      freeNr + (if old = .free then 1 else 0 : Nat) =
        pool.freeNr + (if new = .free then 1 else 0 : Nat))
    (used :
      usedNr + (if old = .used then 1 else 0 : Nat) =
        pool.usedNr + (if new = .used then 1 else 0 : Nat)) :
    Counted
      { bufs := pool.bufs.set index new
        freeNr := freeNr
        usedNr := usedNr } := by
  have frees := count_set there new .free
  have useds := count_set there new .used
  rw [counted.free] at free
  rw [counted.used] at used
  constructor
  · dsimp only
    omega
  · dsimp only
    omega

/-- The first used buffer is taken if there is one. -/
theorem getUsed (counted : Counted pool) :
    (pool.bufs.count .used = 0 ∧ uipBufGetUsed pool = .waits) ∨
      ∃ index after,
        uipBufGetUsed pool = .got index after ∧
          pool.bufs[index]? = some .used ∧
          (∀ before < index, pool.bufs[before]? ≠ some .used) ∧
          after.bufs = pool.bufs.set index .inuse ∧ Counted after := by
  have used := counted.used
  by_cases none : pool.bufs.count .used = 0
  · refine Or.inl ⟨none, if_neg ?_⟩
    omega
  · obtain ⟨index, found, here, first⟩ :=
      findIdx_of_count (Nat.pos_of_ne_zero none)
    have positive : 0 < pool.usedNr := by omega
    refine
      Or.inr
        ⟨index,
          { pool with
            bufs := pool.bufs.set index .inuse
            usedNr := pool.usedNr - 1 },
          ?_, here, first, rfl, ?_⟩
    · rw [uipBufGetUsed, if_pos positive, found]
      rfl
    · exact counted.exchange here rfl (by simp)

/-- The first free buffer is taken if there is one. -/
theorem getFree (counted : Counted pool) :
    (pool.bufs.count .free = 0 ∧ uipBufGetFree pool = .waits) ∨
      ∃ index after,
        uipBufGetFree pool = .got index after ∧
          pool.bufs[index]? = some .free ∧
          after.bufs = pool.bufs.set index .inuse ∧ Counted after := by
  have free := counted.free
  by_cases none : pool.bufs.count .free = 0
  · refine Or.inl ⟨none, if_neg ?_⟩
    omega
  · obtain ⟨index, found, here, -⟩ :=
      findIdx_of_count (Nat.pos_of_ne_zero none)
    have positive : 0 < pool.freeNr := by omega
    refine
      Or.inr
        ⟨index,
          { pool with
            bufs := pool.bufs.set index .inuse
            freeNr := pool.freeNr - 1 },
          ?_, here, rfl, ?_⟩
    · rw [uipBufGetFree, if_pos positive, found]
      rfl
    · exact counted.exchange here (by simp) rfl

theorem setUsed (counted : Counted pool) {index : Nat}
    (taken : pool.bufs[index]? = some .inuse) :
    Counted (uipBufSetUsed pool index) :=
  counted.exchange taken rfl (by simp)

theorem setFree (counted : Counted pool) {index : Nat}
    (taken : pool.bufs[index]? = some .inuse) :
    Counted (uipBufSetFree pool index) :=
  counted.exchange taken (by simp) rfl

end Counted

/-! ## Calls -/

/-- An operation of a call on the pool. -/
inductive PoolOp where
  | getFree
  | setUsed
  | getUsed
  | setFree
deriving DecidableEq, Repr

/-- The operations among the events of a handler. -/
def poolOps (events : List FrameEvent) : List PoolOp :=
  events.filterMap fun event =>
    match event with
    | .getFree => some .getFree
    | .setUsed => some .setUsed
    | .read _ _ | .hand _ _ => none

/--
A call that uses the pool: `uip_tx` with a frame, `uip_rx`, or a socket's
thread with a frame for the guest.
-/
inductive Call where
  | tx (host : Host) (frame : Frame)
  | rx
  | send

/-- What a call does with the pool. -/
def Call.ops : Call → List PoolOp
  | .tx host frame => poolOps (uipTx host frame)
  | .rx => [.getUsed, .setFree]
  | .send => [.getFree, .setUsed]

/-- A call that is running: what is left to do, and the buffer it holds. -/
structure Running where
  call : Call
  todo : List PoolOp
  held : Option Nat

/-- The pool and what each thread is running. -/
structure System where
  pool : Pool
  calls : Nat → Option Running

/-- No call is running. -/
def systemStart (bufNr : Nat) : System where
  pool := uipInit bufNr
  calls := fun _ => none

/-- Another state of one thread. -/
def System.setCall
    (system : System) (thread : Nat) (running : Option Running) : System :=
  { system with
    calls := fun other =>
      if other = thread then running else system.calls other }

/-- The call goes on with the buffer, or waits. -/
def System.take
    (system : System) (thread : Nat) (running : Running)
    (rest : List PoolOp) : Taken → System
  | .waits => system
  | .missing =>
      system.setCall thread (some { running with todo := rest, held := none })
  | .got index pool =>
      { system with pool }.setCall thread
        (some { running with todo := rest, held := some index })

/-- The call hands over its buffer. -/
def System.give
    (system : System) (thread : Nat) (running : Running)
    (rest : List PoolOp) (set : Pool → Nat → Pool) : System :=
  { system with
    pool := running.held.elim system.pool (set system.pool) }.setCall thread
      (some { running with todo := rest, held := none })

/-- The next operation of a call, or its return. -/
def System.goOn (system : System) (thread : Nat) (running : Running) :
    System :=
  match running.todo with
  | [] => system.setCall thread none
  | .getFree :: rest =>
      system.take thread running rest (uipBufGetFree system.pool)
  | .getUsed :: rest =>
      system.take thread running rest (uipBufGetUsed system.pool)
  | .setUsed :: rest => system.give thread running rest uipBufSetUsed
  | .setFree :: rest => system.give thread running rest uipBufSetFree

/-- What happens next: an idle thread begins a call, or a call goes on. -/
inductive Move where
  | begin (thread : Nat) (call : Call)
  | goOn (thread : Nat)

/-- One move. -/
def poolStep (system : System) : Move → System
  | .begin thread call =>
      (system.calls thread).elim
        (system.setCall thread
          (some { call, todo := call.ops, held := none }))
        fun _ => system
  | .goOn thread =>
      (system.calls thread).elim system (system.goOn thread)

/-! ## What is expected -/

/--
The counters count, a buffer is in use only while the call that took it is
running, and without a running call every buffer is free or used.
-/
structure Conserved (system : System) : Prop where
  counted : Counted system.pool
  inuse :
    ∀ index, system.pool.bufs[index]? = some .inuse →
      ∃ thread running,
        system.calls thread = some running ∧ running.held = some index
  idle :
    (∀ thread, system.calls thread = none) →
      ∀ status ∈ system.pool.bufs, status = .free ∨ status = .used

/-- The call answers an ARP request for an address that is not the host's. -/
def Call.Foreign : Call → Prop
  | .tx host frame =>
      htons (load16 frame.eth 12) = uipEthPArp ∧
        load32 frame.eth 38 ≠ htonl host.hostIp
  | .rx | .send => False

/-- No ARP request for a foreign address comes to its end. -/
def Permitted (system : System) : Move → Prop
  | .begin _ _ => True
  | .goOn thread =>
      ∀ running, system.calls thread = some running →
        running.todo = [] → ¬ running.call.Foreign

/-! ## What a call does -/

/-- Buffers are taken and handed over in turn. -/
def Alternates : Bool → List PoolOp → Prop
  | false, [] => True
  | false, .getFree :: rest => Alternates true rest
  | false, .getUsed :: rest => Alternates true rest
  | true, .setUsed :: rest => Alternates false rest
  | true, .setFree :: rest => Alternates false rest
  | _, _ => False

section Calls

theorem alternates_append {holds : Bool} {first second : List PoolOp}
    (left : Alternates holds first) (right : Alternates false second) :
    Alternates holds (first ++ second) := by
  induction first generalizing holds with
  | nil =>
      cases holds with
      | false => exact right
      | true => exact left.elim
  | cons op rest induction =>
      cases holds with
      | false =>
          cases op with
          | getFree | getUsed => exact induction left
          | setUsed | setFree => exact left.elim
      | true =>
          cases op with
          | getFree | getUsed => exact left.elim
          | setUsed | setFree => exact induction left

/-- What some events do with the pool is in turn. -/
def InTurn (events : List FrameEvent) : Prop :=
  Alternates false (poolOps events)

theorem inTurn_append {first second : List FrameEvent}
    (left : InTurn first) (right : InTurn second) :
    InTurn (first ++ second) := by
  unfold InTurn poolOps at *
  rw [List.filterMap_append]
  exact alternates_append left right

theorem inTurn_read {offset length : Nat} {rest : List FrameEvent}
    (inTurn : InTurn rest) : InTurn (.read offset length :: rest) :=
  inTurn

theorem inTurn_nil : InTurn [] :=
  trivial

theorem inTurn_send : InTurn sendEvents :=
  trivial

theorem inTurn_answer (frame : Frame) :
    InTurn (cloneEvents frame ++ [.setUsed]) :=
  trivial

theorem dhcpIs_inTurn (msgType : UInt8) (eth : Nat → UInt8) :
    InTurn (dhcpIsEvents msgType eth) := by
  unfold dhcpIsEvents
  apply inTurn_read
  split
  · apply inTurn_read
    split
    · exact inTurn_nil
    · exact inTurn_nil
  · exact inTurn_nil

theorem dhcp_inTurn (frame : Frame) : InTurn (uipTxDoIpv4UdpDhcp frame) := by
  unfold uipTxDoIpv4UdpDhcp
  apply inTurn_append (dhcpIs_inTurn _ _)
  split
  · exact inTurn_answer frame
  · apply inTurn_append (dhcpIs_inTurn _ _)
    split
    · exact inTurn_answer frame
    · exact inTurn_nil

theorem udpIsDhcp_inTurn (eth : Nat → UInt8) :
    InTurn (udpIsDhcpEvents eth) := by
  unfold udpIsDhcpEvents
  apply inTurn_read
  split
  · apply inTurn_read
    split
    · exact inTurn_nil
    · exact inTurn_nil
  · exact inTurn_nil

theorem udp_inTurn (host : Host) (frame : Frame) :
    InTurn (uipTxDoIpv4Udp host frame) := by
  unfold uipTxDoIpv4Udp
  apply inTurn_append (udpIsDhcp_inTurn _)
  split
  · exact dhcp_inTurn frame
  · split
    · exact inTurn_nil
    · exact inTurn_nil

theorem connection_inTurn (host : Host) (frame : Frame)
    (sk : TcpDemux.UipTcpSocket) :
    InTurn (connectionEvents host frame sk) := by
  unfold connectionEvents
  apply inTurn_append inTurn_nil
  split
  · split
    · exact inTurn_nil
    · exact inTurn_send
  · apply inTurn_append inTurn_nil
    split
    · exact inTurn_nil
    · unfold uipTcpSocketSend
      split
      · exact inTurn_send
      · apply inTurn_append inTurn_nil
        split
        · exact inTurn_send
        · exact inTurn_nil

theorem tcp_inTurn (host : Host) (frame : Frame) :
    InTurn (uipTxDoIpv4Tcp host frame) := by
  unfold uipTxDoIpv4Tcp
  apply inTurn_append inTurn_nil
  split
  · split
    · exact inTurn_append inTurn_nil inTurn_send
    · exact inTurn_nil
  · cases TcpDemux.uipTcpSocketFind host.sockets (endsOf frame.eth) with
    | none => exact inTurn_nil
    | some sk => exact connection_inTurn host frame sk

theorem ipv4_inTurn (host : Host) (frame : Frame) :
    InTurn (uipTxDoIpv4 host frame) := by
  unfold uipTxDoIpv4
  apply inTurn_read
  split
  · apply inTurn_read
    split
    · exact inTurn_answer frame
    · split
      · exact tcp_inTurn host frame
      · split
        · exact udp_inTurn host frame
        · exact inTurn_nil
  · exact inTurn_nil

/-- Every call but one works in turn. -/
theorem ops_alternate {call : Call} (known : ¬ call.Foreign) :
    Alternates false call.ops := by
  cases call with
  | rx => trivial
  | send => trivial
  | tx host frame =>
      show InTurn (uipTx host frame)
      unfold uipTx
      apply inTurn_read
      split
      next arp =>
        have target : load32 frame.eth 38 = htonl host.hostIp := by
          by_contra other
          exact known ⟨arp, other⟩
        unfold uipTxDoArp
        rw [if_pos target]
        exact trivial
      next =>
        split
        · exact ipv4_inTurn host frame
        · exact inTurn_nil

/-- That one takes a buffer and does nothing with it. -/
theorem ops_foreign {call : Call} (foreign : call.Foreign) :
    call.ops = [.getFree] := by
  cases call with
  | rx => exact foreign.elim
  | send => exact foreign.elim
  | tx host frame =>
      show poolOps (uipTx host frame) = [.getFree]
      unfold uipTx uipTxDoArp
      rw [if_pos foreign.1, if_neg foreign.2]
      rfl

end Calls

/-! ## What every move keeps -/

/-- Where a call is: in turn, or with the buffer that it will lose. -/
structure Running.Follows (running : Running) : Prop where
  known :
    ¬ running.call.Foreign →
      Alternates running.held.isSome running.todo
  foreign :
    running.call.Foreign →
      running.held = none ∧ running.todo = [.getFree] ∨
        running.held.isSome = true ∧ running.todo = []

/-- A thread holds a buffer. -/
def System.Holds (system : System) (thread index : Nat) : Prop :=
  ∃ running, system.calls thread = some running ∧ running.held = some index

/-- The buffers in use are those that are held, each by one thread. -/
structure Owned (system : System) : Prop where
  counted : Counted system.pool
  inuse :
    ∀ index, system.pool.bufs[index]? = some .inuse ↔
      ∃ thread, system.Holds thread index
  apart :
    ∀ thread other index, system.Holds thread index →
      system.Holds other index → thread = other
  follows :
    ∀ thread running, system.calls thread = some running → running.Follows

section Moves

variable {system : System} {thread : Nat}

theorem setCall_self (running : Option Running) :
    (system.setCall thread running).calls thread = running :=
  if_pos rfl

theorem setCall_other {other : Nat} (differs : other ≠ thread)
    (running : Option Running) :
    (system.setCall thread running).calls other = system.calls other :=
  if_neg differs

/-- What the other threads hold does not change. -/
theorem holds_setCall {other index : Nat} (running : Option Running) :
    (system.setCall thread running).Holds other index ↔
      other = thread ∧ (∃ call, running = some call ∧ call.held = some index) ∨
        other ≠ thread ∧ system.Holds other index := by
  unfold System.Holds
  by_cases same : other = thread
  · subst same
    rw [setCall_self]
    simp
  · rw [setCall_other same]
    simp [same]

theorem follows_setCall (owned : Owned system) {running : Option Running}
    (follows : ∀ call, running = some call → call.Follows) :
    ∀ other call, (system.setCall thread running).calls other = some call →
      call.Follows := by
  intro other call runs
  by_cases same : other = thread
  · subst same
    rw [setCall_self] at runs
    exact follows call runs
  · rw [setCall_other same] at runs
    exact owned.follows other call runs

theorem owned_start (bufNr : Nat) : Owned (systemStart bufNr) where
  counted := Counted.init bufNr
  inuse index := by
    constructor
    · intro taken
      have member := List.mem_of_getElem? taken
      rw [systemStart, uipInit, List.mem_replicate] at member
      cases member.2
    · rintro ⟨_, _, runs, _⟩
      cases runs
  apart := by
    rintro _ _ _ ⟨_, runs, _⟩
    cases runs
  follows := nofun

/-- A thread that holds nothing goes on to hold nothing. -/
theorem Owned.quiet (owned : Owned system)
    (before : ∀ index, ¬ system.Holds thread index)
    {running : Option Running}
    (after : ∀ call, running = some call → call.held = none)
    (follows : ∀ call, running = some call → call.Follows) :
    Owned (system.setCall thread running) := by
  have holds (other index : Nat) :
      (system.setCall thread running).Holds other index ↔
        system.Holds other index := by
    rw [holds_setCall]
    constructor
    · rintro (⟨-, call, runs, held⟩ | ⟨-, holds⟩)
      · rw [after call runs] at held
        cases held
      · exact holds
    · intro holds
      refine Or.inr ⟨?_, holds⟩
      rintro rfl
      exact before index holds
  constructor
  · exact owned.counted
  · intro index
    simp only [holds]
    exact owned.inuse index
  · intro first second index
    rw [holds, holds]
    exact owned.apart first second index
  · exact follows_setCall owned follows

/-- A thread that holds nothing takes a buffer. -/
theorem Owned.taken (owned : Owned system)
    (before : ∀ index, ¬ system.Holds thread index) {index : Nat}
    {after : Pool} {status : Status}
    (here : system.pool.bufs[index]? = some status)
    (apart : status ≠ .inuse)
    (bufs : after.bufs = system.pool.bufs.set index .inuse)
    (counted : Counted after) {call : Running}
    (held : call.held = some index) (follows : call.Follows) :
    Owned ({ system with pool := after }.setCall thread (some call)) := by
  have inside : index < system.pool.bufs.length :=
    (List.getElem?_eq_some_iff.1 here).1
  have unheld (other : Nat) : ¬ system.Holds other index := by
    intro holds
    have taken := (owned.inuse index).2 ⟨other, holds⟩
    rw [here] at taken
    exact apart (Option.some.inj taken)
  have holds (other place : Nat) :
      ({ system with pool := after }.setCall thread (some call)).Holds other
          place ↔
        other = thread ∧ place = index ∨
          other ≠ thread ∧ system.Holds other place := by
    rw [holds_setCall]
    have mine :
        (∃ running, some call = some running ∧ running.held = some place) ↔
          place = index := by
      constructor
      · rintro ⟨running, same, holds⟩
        cases same
        rw [held] at holds
        exact (Option.some.inj holds).symm
      · rintro rfl
        exact ⟨call, rfl, held⟩
    rw [mine]
    exact Iff.rfl
  constructor
  · exact counted
  · intro place
    show after.bufs[place]? = some .inuse ↔ _
    rw [bufs, List.getElem?_set]
    split
    next same =>
      subst same
      exact iff_of_true rfl ⟨thread, (holds _ _).2 (Or.inl ⟨rfl, rfl⟩)⟩
    next differs =>
      rw [owned.inuse place]
      constructor
      · rintro ⟨other, old⟩
        refine ⟨other, (holds _ _).2 (Or.inr ⟨?_, old⟩)⟩
        rintro rfl
        exact before place old
      · rintro ⟨other, new⟩
        rcases (holds _ _).1 new with ⟨-, same⟩ | ⟨-, old⟩
        · exact absurd same.symm differs
        · exact ⟨other, old⟩
  · intro first second place left right
    rcases (holds _ _).1 left with ⟨mine, same⟩ | ⟨others, old⟩
    · rcases (holds _ _).1 right with ⟨alsoMine, -⟩ | ⟨-, other⟩
      · exact mine.trans alsoMine.symm
      · rw [same] at other
        exact absurd other (unheld second)
    · rcases (holds _ _).1 right with ⟨-, same⟩ | ⟨-, other⟩
      · rw [same] at old
        exact absurd old (unheld first)
      · exact owned.apart first second place old other
  · intro other running runs
    have each : ∀ running, some call = some running → running.Follows := by
      intro running same
      cases same
      exact follows
    exact follows_setCall owned each other running runs

/-- A thread hands over the buffer it holds. -/
theorem Owned.given (owned : Owned system) {index : Nat}
    (before : system.Holds thread index) {after : Pool} {status : Status}
    (apart : status ≠ .inuse)
    (bufs : after.bufs = system.pool.bufs.set index status)
    (counted : Counted after) {call : Running}
    (held : call.held = none) (follows : call.Follows) :
    Owned ({ system with pool := after }.setCall thread (some call)) := by
  have here : system.pool.bufs[index]? = some .inuse :=
    (owned.inuse index).2 ⟨thread, before⟩
  have inside : index < system.pool.bufs.length :=
    (List.getElem?_eq_some_iff.1 here).1
  have only (place : Nat) (holds : system.Holds thread place) :
      place = index := by
    obtain ⟨running, runs, has⟩ := before
    obtain ⟨same, runs', has'⟩ := holds
    rw [runs] at runs'
    cases runs'
    rw [has] at has'
    exact (Option.some.inj has').symm
  have holds (other place : Nat) :
      ({ system with pool := after }.setCall thread (some call)).Holds other
          place ↔
        other ≠ thread ∧ system.Holds other place := by
    rw [holds_setCall]
    constructor
    · rintro (⟨-, running, same, has⟩ | new)
      · cases same
        rw [held] at has
        cases has
      · exact new
    · exact Or.inr
  constructor
  · exact counted
  · intro place
    show after.bufs[place]? = some .inuse ↔ _
    rw [bufs, List.getElem?_set]
    split
    next same =>
      subst same
      constructor
      · intro same
        exact absurd (Option.some.inj same) apart
      · rintro ⟨other, new⟩
        obtain ⟨differs, old⟩ := (holds _ _).1 new
        exact absurd (owned.apart other thread index old before) differs
    next differs =>
      rw [owned.inuse place]
      constructor
      · rintro ⟨other, old⟩
        refine ⟨other, (holds _ _).2 ⟨?_, old⟩⟩
        rintro rfl
        exact differs (only place old).symm
      · rintro ⟨other, new⟩
        exact ⟨other, ((holds _ _).1 new).2⟩
  · intro first second place left right
    exact owned.apart first second place ((holds _ _).1 left).2
      ((holds _ _).1 right).2
  · intro other running runs
    have each : ∀ running, some call = some running → running.Follows := by
      intro running same
      cases same
      exact follows
    exact follows_setCall owned each other running runs

variable {running : Running} {op : PoolOp} {rest : List PoolOp}

/-- The thread that runs a call holds what the call holds. -/
theorem holds_running (runs : system.calls thread = some running)
    (index : Nat) :
    system.Holds thread index ↔ running.held = some index := by
  constructor
  · rintro ⟨other, runs', held⟩
    rw [runs] at runs'
    cases runs'
    exact held
  · intro held
    exact ⟨running, runs, held⟩

/-- A call that is to take a buffer holds none, and is in turn afterwards. -/
theorem Running.Follows.takes (follows : running.Follows)
    (todo : running.todo = op :: rest)
    (takes : op = .getFree ∨ op = .getUsed) :
    running.held = none ∧
      ∀ index, { running with todo := rest, held := some index }.Follows := by
  by_cases foreign : running.call.Foreign
  · rcases follows.foreign foreign with ⟨held, all⟩ | ⟨-, all⟩
    · rw [todo] at all
      cases all
      refine ⟨held, fun index => ⟨absurd foreign, fun _ => ?_⟩⟩
      exact Or.inr ⟨rfl, rfl⟩
    · rw [todo] at all
      cases all
  · have alternates := follows.known foreign
    rw [todo] at alternates
    cases held : running.held with
    | none =>
        rw [held] at alternates
        refine ⟨rfl, fun index => ⟨fun _ => ?_, fun other => ?_⟩⟩
        · rcases takes with rfl | rfl
          · exact alternates
          · exact alternates
        · exact absurd other foreign
    | some index =>
        rw [held] at alternates
        rcases takes with rfl | rfl
        · exact alternates.elim
        · exact alternates.elim

/-- A call that is to hand over a buffer holds one, and is in turn after. -/
theorem Running.Follows.gives (follows : running.Follows)
    (todo : running.todo = op :: rest)
    (gives : op = .setUsed ∨ op = .setFree) :
    (∃ index, running.held = some index) ∧
      { running with todo := rest, held := none }.Follows := by
  by_cases foreign : running.call.Foreign
  · rcases follows.foreign foreign with ⟨-, all⟩ | ⟨-, all⟩
    · rw [todo] at all
      cases all
      rcases gives with same | same
      · cases same
      · cases same
    · rw [todo] at all
      cases all
  · have alternates := follows.known foreign
    rw [todo] at alternates
    cases held : running.held with
    | none =>
        rw [held] at alternates
        rcases gives with rfl | rfl
        · exact alternates.elim
        · exact alternates.elim
    | some index =>
        rw [held] at alternates
        refine ⟨⟨index, rfl⟩, fun _ => ?_, fun other => ?_⟩
        · rcases gives with rfl | rfl
          · exact alternates
          · exact alternates
        · exact absurd other foreign

theorem Owned.take (owned : Owned system)
    (runs : system.calls thread = some running)
    (todo : running.todo = op :: rest)
    (takes : op = .getFree ∨ op = .getUsed) {taken : Taken}
    (outcome :
      taken = .waits ∨
        ∃ index after status,
          taken = .got index after ∧
            system.pool.bufs[index]? = some status ∧ status ≠ .inuse ∧
            after.bufs = system.pool.bufs.set index .inuse ∧
            Counted after) :
    Owned (system.take thread running rest taken) := by
  obtain ⟨held, follows⟩ :=
    (owned.follows thread running runs).takes todo takes
  rcases outcome with
    rfl | ⟨index, after, status, rfl, here, apart, bufs, counted⟩
  · exact owned
  · refine owned.taken ?_ here apart bufs counted rfl (follows index)
    intro other holds
    rw [holds_running runs, held] at holds
    cases holds

theorem Owned.give (owned : Owned system)
    (runs : system.calls thread = some running)
    (todo : running.todo = op :: rest)
    (gives : op = .setUsed ∨ op = .setFree) {set : Pool → Nat → Pool}
    {status : Status} (apart : status ≠ .inuse)
    (bufs : ∀ index,
      (set system.pool index).bufs = system.pool.bufs.set index status)
    (counted : ∀ index, system.pool.bufs[index]? = some .inuse →
      Counted (set system.pool index)) :
    Owned (system.give thread running rest set) := by
  obtain ⟨⟨index, held⟩, follows⟩ :=
    (owned.follows thread running runs).gives todo gives
  have holds : system.Holds thread index := (holds_running runs index).2 held
  have taken := (owned.inuse index).2 ⟨thread, holds⟩
  unfold System.give
  rw [held]
  exact owned.given holds apart (bufs index) (counted index taken) rfl follows

/-- A move of a call that loses nothing. -/
theorem Owned.goOn (owned : Owned system)
    (runs : system.calls thread = some running)
    (permitted : running.todo = [] → ¬ running.call.Foreign) :
    Owned (system.goOn thread running) := by
  have follows := owned.follows thread running runs
  have counted := owned.counted
  unfold System.goOn
  cases todo : running.todo with
  | nil =>
      have alternates := follows.known (permitted todo)
      rw [todo] at alternates
      apply owned.quiet
      · intro index holds
        rw [holds_running runs] at holds
        rw [holds] at alternates
        exact alternates
      · intro call none
        cases none
      · intro call none
        cases none
  | cons op rest =>
      cases op with
      | getFree =>
          apply owned.take runs todo (Or.inl rfl)
          rcases counted.getFree with
            ⟨-, waits⟩ | ⟨index, after, got, here, bufs, still⟩
          · exact Or.inl waits
          · exact Or.inr ⟨index, after, .free, got, here, nofun, bufs, still⟩
      | getUsed =>
          apply owned.take runs todo (Or.inr rfl)
          rcases counted.getUsed with
            ⟨-, waits⟩ | ⟨index, after, got, here, -, bufs, still⟩
          · exact Or.inl waits
          · exact Or.inr ⟨index, after, .used, got, here, nofun, bufs, still⟩
      | setUsed =>
          have apart : Status.used ≠ .inuse := nofun
          exact owned.give runs todo (Or.inl rfl) apart (fun _ => rfl)
            fun _ taken => counted.setUsed taken
      | setFree =>
          have apart : Status.free ≠ .inuse := nofun
          exact owned.give runs todo (Or.inr rfl) apart (fun _ => rfl)
            fun _ taken => counted.setFree taken

theorem Owned.step (owned : Owned system) {move : Move}
    (permitted : Permitted system move) : Owned (poolStep system move) := by
  cases move with
  | begin thread call =>
      unfold poolStep
      dsimp only
      cases runs : system.calls thread with
      | some running => exact owned
      | none =>
          apply owned.quiet
          · rintro index ⟨running, other, -⟩
            rw [runs] at other
            cases other
          · intro running same
            cases same
            rfl
          · intro running same
            cases same
            refine ⟨ops_alternate, fun foreign => Or.inl ?_⟩
            exact ⟨rfl, ops_foreign foreign⟩
  | goOn thread =>
      unfold poolStep
      dsimp only
      cases runs : system.calls thread with
      | none => exact owned
      | some running => exact owned.goOn runs (permitted running runs)

end Moves

/-! ## The pool is conserved but for foreign addresses -/

theorem Owned.conserved {system : System} (owned : Owned system) :
    Conserved system where
  counted := owned.counted
  inuse index taken := by
    obtain ⟨thread, running, runs, held⟩ := (owned.inuse index).1 taken
    exact ⟨thread, running, runs, held⟩
  idle quiet status member := by
    obtain ⟨index, here⟩ := List.getElem?_of_mem member
    cases status with
    | free => exact Or.inl rfl
    | used => exact Or.inr rfl
    | inuse =>
        obtain ⟨thread, running, runs, -⟩ := (owned.inuse index).1 here
        rw [quiet thread] at runs
        cases runs

/-- The end of an answer for a foreign address loses its buffer. -/
theorem Owned.lost {system : System} (owned : Owned system) {move : Move}
    (other : ¬ Permitted system move) :
    ¬ Conserved (poolStep system move) := by
  intro conserved
  cases move with
  | begin thread call => exact other trivial
  | goOn thread =>
      apply other
      intro running runs todo foreign
      have step :
          poolStep system (.goOn thread) = system.setCall thread none := by
        unfold poolStep System.goOn
        simp only [runs, Option.elim_some, todo]
      rw [step] at conserved
      rcases (owned.follows thread running runs).foreign foreign with
        ⟨-, all⟩ | ⟨some', -⟩
      · rw [todo] at all
        cases all
      · obtain ⟨index, held⟩ := Option.isSome_iff_exists.1 some'
        have mine : system.Holds thread index :=
          (holds_running runs index).2 held
        obtain ⟨holder, call, runs', held'⟩ :=
          conserved.inuse index ((owned.inuse index).2 ⟨thread, mine⟩)
        rcases (holds_setCall none).1 ⟨call, runs', held'⟩ with
          ⟨-, none', same, -⟩ | ⟨differs, holds⟩
        · cases same
        · exact differs (owned.apart holder thread index holds mine)

/--
In every interleaving of the calls, the pool is conserved in every state if
and only if no ARP request for a foreign address comes to its end.
-/
theorem pool_conserved_iff (bufNr : Nat) (moves : List Move) :
    Throughout poolStep Conserved (systemStart bufNr) moves ↔
      Along poolStep Permitted (systemStart bufNr) moves := by
  have kept (system : System) (move : Move) (owned : Owned system)
      (permitted : Permitted system move) : Owned (poolStep system move) :=
    owned.step permitted
  have broken (system : System) (move : Move) (owned : Owned system)
      (other : ¬ Permitted system move) :
      ¬ Conserved (poolStep system move) :=
    owned.lost other
  exact
    throughout_iff_along (fun _ => Owned.conserved) kept broken
      (owned_start bufNr) moves

/-- A frame of 42 bytes that asks who has 10.0.0.9. -/
def foreignRequest : Frame where
  eth := fun place =>
    ([0, 0, 0, 0, 0, 0, 0, 0, 0, 0, 0, 0, 8, 6, 0, 1, 8, 0, 6, 4, 0, 1, 0, 0,
      0, 0, 0, 0, 0, 0, 0, 0, 0, 0, 0, 0, 0, 0, 10, 0, 0, 9] :
        List UInt8).getD
      place 0
  ethLen := 42

/-- The host has 10.0.0.1. -/
def foreignHost : Host where
  hostIp := 0x0a000001
  sockets := []
  connects := true
  datagrams := true
  writes := true

/-- After the answer to it, one of the twenty buffers is lost. -/
theorem not_always_conserved :
    ¬ ∀ (bufNr : Nat) (moves : List Move),
        Throughout poolStep Conserved (systemStart bufNr) moves := by
  intro always
  have conserved :
      Conserved
        (run poolStep (systemStart 20)
          [.begin 0 (.tx foreignHost foreignRequest), .goOn 0, .goOn 0]) :=
    (always 20
      [.begin 0 (.tx foreignHost foreignRequest), .goOn 0, .goOn 0]).2.2.2
  have quiet :
      ∀ thread,
        (run poolStep (systemStart 20)
          [.begin 0 (.tx foreignHost foreignRequest), .goOn 0,
            .goOn 0]).calls thread = none := by
    intro thread
    cases thread with
    | zero => rfl
    | succ other => rfl
  have first :
      Status.inuse ∈
        (run poolStep (systemStart 20)
          [.begin 0 (.tx foreignHost foreignRequest), .goOn 0,
            .goOn 0]).pool.bufs := by
    decide +kernel
  rcases conserved.idle quiet .inuse first with same | same
  · cases same
  · cases same

end Kemu.Net.BufferPool
