import Kemu.Lib.RingWindow
import Kemu.Lib.Transition
import Mathlib.Data.List.Nodup
import Mathlib.Data.List.ReduceOption

/-!
# Coalesced MMIO writes

The kernel puts the writes of the guest to a coalesced zone on a ring, which
all the vCPUs share, and leaves the guest running.  Back from `KVM_RUN`, a
vCPU emulates what is on the ring; after an MMIO exit it does so before it
emulates the access that caused the exit.

The vCPUs take no lock while they take writes off the ring.  The question is
when each write is emulated once and the accesses of each vCPU in the order
in which the guest made them.

An access is marked with the vCPU that made it and its number among the
accesses of that vCPU.  A step is what one thread does between two points
where others can see it.
-/

namespace Kemu.Init.CoalescedMmio

open Kemu.Lib.RingWindow
open Kemu.Lib.Transition

/-! ## State -/

/-- The arguments of `kvm_cpu__emulate_mmio`. -/
structure Mmio where
  physAddr : UInt64
  data : List UInt8
  isWrite : Bool
deriving DecidableEq, Repr

/-- An access of the guest. -/
structure Access (nrcpus : Nat) where
  cpu : Fin nrcpus
  index : Nat
  mmio : Mmio
deriving DecidableEq, Repr

/--
Where a vCPU thread is in the loop of `kvm_cpu__start`.  While writes are
taken off the ring, `exit` is the access that is to be emulated next.
-/
inductive Pc (nrcpus : Nat) where
  /-- In `KVM_RUN`. -/
  | guest
  /-- `kvm_cpu__handle_coalesced_mmio` compares the two indices. -/
  | check (exit : Option (Access nrcpus))
  | emulate (exit : Option (Access nrcpus))
  /-- It moves the first index on. -/
  | advance (exit : Option (Access nrcpus))
  /-- The access of the exit is emulated. -/
  | access (exit : Access nrcpus)
  /-- The loop was left. -/
  | left
deriving DecidableEq, Repr

/--
The ring and the vCPU threads, with the accesses that each vCPU has made and
those that were emulated.  An entry that was never written is `none`.
-/
structure Machine (nrcpus : Nat) where
  first : Nat
  last : Nat
  coalescedMmio : Nat → Option (Access nrcpus)
  pcs : Fin nrcpus → Pc nrcpus
  made : Fin nrcpus → List (Access nrcpus)
  emulated : List (Option (Access nrcpus))

/-- A new ring. -/
def machineStart (nrcpus : Nat) : Machine nrcpus where
  first := 0
  last := 0
  coalescedMmio _ := none
  pcs _ := .guest
  made _ := []
  emulated := []

/-! ## Steps -/

section Steps

variable {nrcpus : Nat}

/--
What happens next: the kernel stores a write of a vCPU, a vCPU returns from
`KVM_RUN` with an MMIO access or for another reason, it leaves the loop, or
its thread goes on.
-/
inductive Move (nrcpus : Nat) where
  | coalesce (cpu : Fin nrcpus) (physAddr : UInt64) (data : List UInt8)
  | exitMmio (cpu : Fin nrcpus) (mmio : Mmio)
  | exitOther (cpu : Fin nrcpus)
  | leave (cpu : Fin nrcpus)
  | go (cpu : Fin nrcpus)
deriving DecidableEq, Repr

variable (machine : Machine nrcpus) (cpu : Fin nrcpus)

/-- A vCPU goes on elsewhere. -/
def Machine.goto (pc : Pc nrcpus) : Machine nrcpus :=
  { machine with pcs := Function.update machine.pcs cpu pc }

/-- The next access of a vCPU. -/
def Machine.next (mmio : Mmio) : Access nrcpus :=
  ⟨cpu, (machine.made cpu).length, mmio⟩

/-- The guest makes an access. -/
def Machine.make (mmio : Mmio) : Machine nrcpus :=
  { machine with
    made :=
      Function.update machine.made cpu
        (machine.made cpu ++ [machine.next cpu mmio]) }

/-- The next step of a vCPU thread, on a ring of `max` entries. -/
def Machine.go (max : Nat) : Machine nrcpus :=
  match machine.pcs cpu with
  | .check exit =>
      if machine.first ≠ machine.last then
        machine.goto cpu (.emulate exit)
      else
        match exit with
        | some access => machine.goto cpu (.access access)
        | none => machine.goto cpu .guest
  | .emulate exit =>
      { machine with
        emulated :=
          machine.emulated ++ [machine.coalescedMmio machine.first] }.goto
        cpu (.advance exit)
  | .advance exit =>
      { machine with first := (machine.first + 1) % max }.goto cpu
        (.check exit)
  | .access access =>
      { machine with emulated := machine.emulated ++ [some access] }.goto
        cpu (.check none)
  | _ => machine

/-- A step of the machine; what cannot happen is no step. -/
def machineStep (max : Nat) : Move nrcpus → Machine nrcpus
  | .coalesce cpu physAddr data =>
      let mmio := ⟨physAddr, data, true⟩
      if machine.pcs cpu = .guest ∧
          (machine.last + 1) % max ≠ machine.first then
        { machine.make cpu mmio with
          coalescedMmio :=
            Function.update machine.coalescedMmio machine.last
              (some (machine.next cpu mmio))
          last := (machine.last + 1) % max }
      else
        machine
  | .exitMmio cpu mmio =>
      if machine.pcs cpu = .guest then
        (machine.make cpu mmio).goto cpu
          (.check (some (machine.next cpu mmio)))
      else
        machine
  | .exitOther cpu =>
      if machine.pcs cpu = .guest then
        machine.goto cpu (.check none)
      else
        machine
  | .leave cpu =>
      if machine.pcs cpu = .guest then machine.goto cpu .left else machine
  | .go cpu => machine.go cpu max

end Steps

/-! ## What is to hold -/

section Spec

variable {nrcpus : Nat}

/-- The accesses of a vCPU among some. -/
def of (cpu : Fin nrcpus) (accesses : List (Access nrcpus)) :
    List (Access nrcpus) :=
  accesses.filter fun access => access.cpu = cpu

/--
Only accesses of the guest were emulated, and those of each vCPU once and in
the order in which it made them.
-/
def Ordered (machine : Machine nrcpus) : Prop :=
  none ∉ machine.emulated ∧
    ∀ cpu, of cpu machine.emulated.reduceOption <+: machine.made cpu

/-- A vCPU has emulated an entry and has not moved the first index on. -/
def Pc.advancing : Pc nrcpus → Bool
  | .advance _ => true
  | _ => false

/--
An entry is emulated only when there is one, and no other vCPU has emulated
the same and not moved on.
-/
def Alone (machine : Machine nrcpus) : Move nrcpus → Prop
  | .go cpu =>
      ∀ exit, machine.pcs cpu = .emulate exit →
        machine.first ≠ machine.last ∧
          ∀ other, (machine.pcs other).advancing = false
  | _ => True

end Spec

/-! ## The ring -/

section Ring

variable {max first count : Nat}

/-- The index that is a number of entries further. -/
theorem further_eq (small : first < max) (room : count < max) :
    (first + count) % max =
      if first + count < max then first + count else first + count - max := by
  split
  next within => exact Nat.mod_eq_of_lt within
  next beyond =>
    rw [Nat.mod_eq_sub_mod (by omega)]
    exact Nat.mod_eq_of_lt (by omega)

/-- The two indices are the same exactly when nothing is on the ring. -/
theorem first_eq_iff (small : first < max) (room : count < max) :
    first = (first + count) % max ↔ count = 0 := by
  rw [further_eq small room]
  split <;> omega

/-- While the kernel has room, there is place for one more. -/
theorem room_of_next (small : first < max) (room : count < max)
    (free : ((first + count) % max + 1) % max ≠ first) : count + 1 < max := by
  by_contra full
  apply free
  rw [Nat.mod_add_mod]
  have same : first + count + 1 = first + max := by omega
  rw [same, Nat.add_mod_right]
  exact Nat.mod_eq_of_lt small

theorem window_mod {Value : Type} (cells : Nat → Value) :
    window max cells (first % max) count = window max cells first count := by
  unfold window
  refine List.map_congr_left fun index _ => ?_
  rw [Nat.mod_add_mod]

end Ring

/-! ## The invariant -/

section Invariant

variable {nrcpus max : Nat} {machine : Machine nrcpus}
  {cpu : Fin nrcpus}

theorem of_append (first second : List (Access nrcpus)) :
    of cpu (first ++ second) = of cpu first ++ of cpu second :=
  List.filter_append ..

theorem of_own {access : Access nrcpus} (own : access.cpu = cpu) :
    of cpu [access] = [access] := by
  unfold of
  rw [List.filter_singleton]
  simp [own]

theorem of_other {access : Access nrcpus} (other : access.cpu ≠ cpu) :
    of cpu [access] = [] := by
  unfold of
  rw [List.filter_singleton]
  simp [other]

/-- The access of the exit that a vCPU has yet to emulate. -/
def Pc.pending : Pc nrcpus → List (Access nrcpus)
  | .check exit => exit.toList
  | .emulate exit => exit.toList
  | .advance exit => exit.toList
  | .access exit => [exit]
  | _ => []

/--
What is on the ring and what of it has not been emulated: the same, unless
a vCPU has emulated the first entry and not moved on.
-/
structure Sound (max : Nat) (machine : Machine nrcpus)
    (queue waiting : List (Access nrcpus)) : Prop where
  first_lt : machine.first < max
  room : queue.length < max
  last_eq : machine.last = (machine.first + queue.length) % max
  holds :
    window max machine.coalescedMmio machine.first queue.length =
      queue.map some
  stale :
    ∀ index access, machine.coalescedMmio index = some access →
      some access ∈ machine.emulated ∨ access ∈ queue
  owned : ∀ cpu, ∀ access ∈ machine.made cpu, access.cpu = cpu
  numbered :
    ∀ cpu, (machine.made cpu).map Access.index =
      List.range (machine.made cpu).length
  written : none ∉ machine.emulated
  waits :
    (∀ cpu, (machine.pcs cpu).advancing = false) ∧ waiting = queue ∨
      ∃ cpu head,
        (∀ other, (machine.pcs other).advancing = true ↔ other = cpu) ∧
          queue = head :: waiting ∧ some head ∈ machine.emulated
  balance :
    ∀ cpu, of cpu machine.emulated.reduceOption ++ of cpu waiting ++
        (machine.pcs cpu).pending =
      machine.made cpu
  drained :
    ∀ cpu access, machine.pcs cpu = .access access → of cpu queue = []

theorem pcs_goto (machine : Machine nrcpus) (cpu : Fin nrcpus)
    (pc : Pc nrcpus) (other : Fin nrcpus) :
    (machine.goto cpu pc).pcs other =
      if other = cpu then pc else machine.pcs other :=
  Function.update_apply ..

theorem advancing_goto {pc : Pc nrcpus}
    (same : pc.advancing = (machine.pcs cpu).advancing)
    (other : Fin nrcpus) :
    ((machine.goto cpu pc).pcs other).advancing =
      (machine.pcs other).advancing := by
  rw [pcs_goto]
  split
  next here => rw [here, same]
  next => rfl

/-- The vCPUs that are about to emulate the access of an exit. -/
theorem access_goto {pc : Pc nrcpus} (elsewhere : ∀ access, pc ≠ .access access)
    {other : Fin nrcpus} {access : Access nrcpus}
    (reached : (machine.goto cpu pc).pcs other = .access access) :
    machine.pcs other = .access access := by
  rw [pcs_goto] at reached
  split at reached
  next => exact absurd reached (elsewhere access)
  next => exact reached

namespace Sound

variable {queue waiting : List (Access nrcpus)}

theorem ordered (sound : Sound max machine queue waiting) :
    Ordered machine := by
  refine ⟨sound.written, fun cpu => ?_⟩
  rw [← sound.balance cpu, List.append_assoc]
  exact List.prefix_append ..

/-- What waits is a part of the ring. -/
theorem of_waiting (sound : Sound max machine queue waiting)
    (none : of cpu queue = []) : of cpu waiting = [] := by
  rcases sound.waits with ⟨-, same⟩ | ⟨_, head, -, same, -⟩
  · rw [same]
    exact none
  · rw [same, of, List.filter_cons] at none
    split at none
    · cases none
    · exact none

/-- The numbers keep the accesses apart. -/
theorem nodup (sound : Sound max machine queue waiting) (cpu : Fin nrcpus) :
    (machine.made cpu).Nodup := by
  apply List.Nodup.of_map Access.index
  rw [sound.numbered]
  exact List.nodup_range

/-- A vCPU that is not advancing goes where it is not advancing either. -/
theorem move (sound : Sound max machine queue waiting)
    {before pc : Pc nrcpus} (here : machine.pcs cpu = before)
    (still : pc.advancing = before.advancing)
    (same : pc.pending = before.pending)
    (drained : ∀ access, pc = .access access → of cpu queue = []) :
    Sound max (machine.goto cpu pc) queue waiting := by
  subst here
  exact
    { sound with
      waits := by
        simp only [advancing_goto still]
        exact sound.waits
      balance := by
        intro other
        have held := sound.balance other
        rw [pcs_goto]
        split
        next here => exact same ▸ here ▸ held
        next => exact held
      drained := by
        intro other access
        rw [pcs_goto]
        split
        next here =>
          intro reached
          rw [here]
          exact drained access reached
        next => exact sound.drained other access }

/-- A vCPU makes an access, which goes behind those that are left. -/
theorem make (sound : Sound max machine queue waiting) (cpu : Fin nrcpus)
    (mmio : Mmio) :
    (∀ other, ∀ access ∈ (machine.make cpu mmio).made other,
      access.cpu = other) ∧
    ∀ other, ((machine.make cpu mmio).made other).map Access.index =
      List.range ((machine.make cpu mmio).made other).length := by
  unfold Machine.make
  dsimp only
  constructor
  · intro other access member
    rw [Function.update_apply] at member
    split at member
    next here =>
      rw [here]
      rcases List.mem_append.1 member with before | now
      · exact sound.owned cpu access before
      · rw [List.mem_singleton.1 now]
        rfl
    next => exact sound.owned other access member
  · intro other
    rw [Function.update_apply]
    split
    next here =>
      rw [List.map_append, sound.numbered cpu, List.length_append,
        List.length_singleton, List.range_succ]
      rfl
    next => exact sound.numbered other

/-- The kernel puts a write on the ring. -/
theorem push (sound : Sound max machine queue waiting)
    (guest : machine.pcs cpu = .guest)
    (free : (machine.last + 1) % max ≠ machine.first) (mmio : Mmio) :
    Sound max
      { machine.make cpu mmio with
        coalescedMmio :=
          Function.update machine.coalescedMmio machine.last
            (some (machine.next cpu mmio))
        last := (machine.last + 1) % max }
      (queue ++ [machine.next cpu mmio])
      (waiting ++ [machine.next cpu mmio]) := by
  have own : (machine.next cpu mmio).cpu = cpu := rfl
  obtain ⟨owned, numbered⟩ := sound.make cpu mmio
  have more : queue.length + 1 < max := by
    rw [sound.last_eq] at free
    exact room_of_next sound.first_lt sound.room free
  exact
    { sound with
      room := by
        rw [List.length_append]
        exact more
      last_eq := by
        dsimp only
        rw [sound.last_eq, Nat.mod_add_mod, List.length_append]
        rfl
      holds := by
        have first : (machine.make cpu mmio).first = machine.first := rfl
        dsimp only
        rw [sound.last_eq, List.length_append, List.length_singleton, first,
          window_push sound.room, List.map_append]
        exact congrArg (· ++ _) sound.holds
      stale := by
        intro index access stored
        dsimp only at stored
        rw [Function.update_apply] at stored
        split at stored
        · refine Or.inr (List.mem_append_right _ ?_)
          rw [List.mem_singleton]
          exact (Option.some.inj stored).symm
        · exact
            (sound.stale index access stored).imp_right
              (List.mem_append_left _)
      owned := owned
      numbered := numbered
      waits := by
        rcases sound.waits with ⟨still, same⟩ | ⟨other, head, only, same, done⟩
        · exact Or.inl ⟨still, by rw [same]⟩
        · refine Or.inr ⟨other, head, only, ?_, done⟩
          rw [same]
          rfl
      balance := by
        intro other
        have held := sound.balance other
        unfold Machine.make
        dsimp only
        rw [Function.update_apply, of_append]
        split
        next here =>
          rw [here] at held ⊢
          rw [guest] at held ⊢
          rw [of_own own, ← held]
          simp [Pc.pending]
        next here =>
          rw [of_other (by rw [own]; exact Ne.symm here), List.append_nil]
          exact held
      drained := by
        intro other access reached
        have apart : cpu ≠ other := by
          rintro rfl
          rw [show machine.pcs cpu = .access access from reached] at guest
          cases guest
        rw [of_append, sound.drained other access reached,
          of_other (own ▸ apart)]
        rfl }

/-- A vCPU leaves the guest with an access. -/
theorem exitMmio (sound : Sound max machine queue waiting)
    (guest : machine.pcs cpu = .guest) (mmio : Mmio) :
    Sound max
      ((machine.make cpu mmio).goto cpu
        (.check (some (machine.next cpu mmio))))
      queue waiting := by
  obtain ⟨owned, numbered⟩ := sound.make cpu mmio
  have still :
      (Pc.check (some (machine.next cpu mmio))).advancing =
        ((machine.make cpu mmio).pcs cpu).advancing :=
    (congrArg Pc.advancing guest).symm
  exact
    { sound with
      owned := owned
      numbered := numbered
      waits := by
        simp only [advancing_goto still]
        exact sound.waits
      balance := by
        intro other
        have held := sound.balance other
        unfold Machine.goto Machine.make
        dsimp only
        rw [Function.update_apply, Function.update_apply]
        split
        next here =>
          rw [here, guest] at held
          rw [here, ← held]
          simp [Pc.pending]
        next => exact held
      drained := fun other access reached =>
        sound.drained other access (access_goto (by simp) reached) }

/-- The first entry of a ring that is not empty. -/
theorem front (sound : Sound max machine queue waiting)
    {head : Access nrcpus} {rest : List (Access nrcpus)}
    (some' : queue = head :: rest) :
    machine.coalescedMmio machine.first = some head ∧
      window max machine.coalescedMmio ((machine.first + 1) % max)
          rest.length =
        rest.map some := by
  have holds := sound.holds
  rw [some', List.length_cons, window_pop,
    Nat.mod_eq_of_lt sound.first_lt, List.map_cons] at holds
  rw [window_mod]
  exact List.cons.inj holds

theorem reduce_concat (accesses : List (Option (Access nrcpus)))
    (access : Access nrcpus) :
    (accesses ++ [some access]).reduceOption =
      accesses.reduceOption ++ [access] := by
  rw [List.reduceOption_append, List.reduceOption_singleton]
  rfl

theorem written_concat {accesses : List (Option (Access nrcpus))}
    (written : none ∉ accesses) (access : Access nrcpus) :
    none ∉ accesses ++ [some access] := by
  rw [List.mem_append, not_or]
  exact ⟨written, by simp⟩

/-- The first entry is emulated while no vCPU is advancing. -/
theorem emulate (sound : Sound max machine queue waiting)
    {exit : Option (Access nrcpus)} (here : machine.pcs cpu = .emulate exit)
    (something : machine.first ≠ machine.last)
    (alone : ∀ other, (machine.pcs other).advancing = false) :
    ∃ rest,
      Sound max
        ({ machine with
            emulated :=
              machine.emulated ++ [machine.coalescedMmio machine.first] }.goto
          cpu (.advance exit))
        queue rest := by
  have same : waiting = queue := by
    rcases sound.waits with ⟨-, same⟩ | ⟨other, _, only, -⟩
    · exact same
    · exact absurd ((only other).2 rfl) (by rw [alone other]; decide)
  cases list : queue with
  | nil =>
      rw [sound.last_eq, list] at something
      exact
        absurd
          (by rw [List.length_nil, Nat.add_zero,
            Nat.mod_eq_of_lt sound.first_lt])
          something
  | cons head rest =>
      obtain ⟨slot, -⟩ := sound.front list
      rw [slot]
      refine ⟨rest, ?_⟩
      rw [← list]
      exact
        { sound with
          stale := by
            intro index access stored
            exact
              (sound.stale index access stored).imp_left
                (List.mem_append_left _)
          written := written_concat sound.written head
          waits := by
            refine Or.inr ⟨cpu, head, fun other => ?_, list, ?_⟩
            · rw [pcs_goto]
              split
              next this => exact iff_of_true rfl this
              next this =>
                exact
                  iff_of_false (by rw [alone other]; decide) this
            · exact List.mem_append_right _ (List.mem_singleton.2 rfl)
          balance := by
            intro other
            have held := sound.balance other
            rw [same, list] at held
            have split : of other (head :: rest) = of other [head] ++ of other rest :=
              of_append [head] rest
            unfold Machine.goto
            dsimp only
            rw [reduce_concat, of_append, Function.update_apply]
            rw [split] at held
            split
            next this =>
              rw [this, here] at held
              rw [this, ← held]
              simp [Pc.pending]
            next =>
              rw [← held]
              simp
          drained := fun other access reached =>
            sound.drained other access (access_goto (by simp) reached) }

/-- The vCPU that emulated the first entry moves the index on. -/
theorem advance (sound : Sound max machine queue waiting)
    {exit : Option (Access nrcpus)} (here : machine.pcs cpu = .advance exit) :
    ∃ rest,
      Sound max
        ({ machine with first := (machine.first + 1) % max }.goto cpu
          (.check exit))
        rest rest := by
  have advancing : (machine.pcs cpu).advancing = true := by
    rw [here]
    rfl
  rcases sound.waits with ⟨still, -⟩ | ⟨other, head, only, list, done⟩
  · rw [still cpu] at advancing
    cases advancing
  · obtain rfl := (only cpu).1 advancing
    obtain ⟨slot, holds⟩ := sound.front list
    have positive := sound.first_lt
    have room := sound.room
    rw [list, List.length_cons] at room
    refine ⟨waiting, ?_⟩
    exact
      { sound with
        first_lt := Nat.mod_lt _ (by omega)
        room := by omega
        last_eq := by
          unfold Machine.goto
          dsimp only
          rw [sound.last_eq, list, List.length_cons, Nat.mod_add_mod]
          congr 1
          omega
        holds := holds
        stale := by
          intro index access stored
          rcases sound.stale index access stored with before | member
          · exact Or.inl before
          · rw [list] at member
            rcases List.mem_cons.1 member with rfl | later
            · exact Or.inl done
            · exact Or.inr later
        waits := by
          refine Or.inl ⟨fun other => ?_, rfl⟩
          rw [pcs_goto]
          split
          next => rfl
          next this =>
            exact Bool.eq_false_iff.2 fun now => this ((only other).1 now)
        balance := by
          intro other
          have held := sound.balance other
          rw [pcs_goto]
          split
          next this =>
            rw [this, here] at held
            rw [this]
            exact held
          next => exact held
        drained := fun other access reached =>
          sound.of_waiting
            (sound.drained other access (access_goto (by simp) reached)) }

/-- The access of the exit is emulated, after all that the vCPU made before. -/
theorem access (sound : Sound max machine queue waiting)
    {access : Access nrcpus} (here : machine.pcs cpu = .access access) :
    Sound max
      ({ machine with emulated := machine.emulated ++ [some access] }.goto
        cpu (.check none))
      queue waiting := by
  have own : access.cpu = cpu := by
    apply sound.owned cpu access
    rw [← sound.balance cpu, here]
    exact List.mem_append_right _ (List.mem_singleton.2 rfl)
  have still (emulated : List (Option (Access nrcpus))) :
      (Pc.check none : Pc nrcpus).advancing =
        (({ machine with emulated := emulated } : Machine nrcpus).pcs
          cpu).advancing :=
    (congrArg Pc.advancing here).symm
  exact
    { sound with
      stale := by
        intro index other stored
        exact
          (sound.stale index other stored).imp_left
            (List.mem_append_left _)
      written := written_concat sound.written access
      waits := by
        simp only [advancing_goto (still _)]
        refine sound.waits.imp_right ?_
        rintro ⟨other, head, only, list, done⟩
        exact ⟨other, head, only, list, List.mem_append_left _ done⟩
      balance := by
        intro other
        have held := sound.balance other
        unfold Machine.goto
        dsimp only
        rw [reduce_concat, of_append, Function.update_apply]
        split
        next this =>
          have none := sound.of_waiting (sound.drained cpu access here)
          rw [this, here, none] at held
          rw [this, none, of_own own, ← held]
          simp [Pc.pending]
        next this =>
          rw [of_other (by rw [own]; exact Ne.symm this), List.append_nil]
          exact held
      drained := fun other later reached =>
        sound.drained other later (access_goto (by simp) reached) }

theorem go (sound : Sound max machine queue waiting) (cpu : Fin nrcpus)
    (alone : Alone machine (.go cpu)) :
    ∃ queue waiting, Sound max (machine.go cpu max) queue waiting := by
  unfold Machine.go
  split
  next exit here =>
    split
    next =>
      exact ⟨_, _, sound.move here rfl rfl nofun⟩
    next same =>
      -- nothing is on the ring
      rw [not_not, sound.last_eq, first_eq_iff sound.first_lt sound.room,
        List.length_eq_zero_iff] at same
      split
      next access =>
        exact ⟨_, _, sound.move here rfl rfl fun _ _ => by rw [same]; rfl⟩
      next =>
        exact ⟨_, _, sound.move here rfl rfl nofun⟩
  next exit here =>
    obtain ⟨something, still⟩ := alone exit here
    obtain ⟨rest, next⟩ := sound.emulate here something still
    exact ⟨_, rest, next⟩
  next exit here =>
    obtain ⟨rest, next⟩ := sound.advance here
    exact ⟨_, rest, next⟩
  next access here => exact ⟨_, _, sound.access here⟩
  next => exact ⟨_, _, sound⟩

theorem step (sound : Sound max machine queue waiting)
    (move : Move nrcpus) (alone : Alone machine move) :
    ∃ queue waiting, Sound max (machineStep machine max move) queue waiting := by
  unfold machineStep
  cases move with
  | coalesce cpu physAddr data =>
      dsimp only
      split
      next both => exact ⟨_, _, sound.push both.1 both.2 _⟩
      next => exact ⟨_, _, sound⟩
  | exitMmio cpu mmio =>
      dsimp only
      split
      next guest => exact ⟨_, _, sound.exitMmio guest mmio⟩
      next => exact ⟨_, _, sound⟩
  | exitOther cpu =>
      dsimp only
      split
      next guest => exact ⟨_, _, sound.move guest rfl rfl nofun⟩
      next => exact ⟨_, _, sound⟩
  | leave cpu =>
      dsimp only
      split
      next guest => exact ⟨_, _, sound.move guest rfl rfl nofun⟩
      next => exact ⟨_, _, sound⟩
  | go cpu => exact sound.go cpu alone

/-- An entry that is emulated at another time is not the one to be emulated. -/
theorem broken (sound : Sound max machine queue waiting)
    {move : Move nrcpus} (crowded : ¬ Alone machine move) :
    ¬ Ordered (machineStep machine max move) := by
  cases move with
  | go cpu =>
      have case : ∃ exit, machine.pcs cpu = .emulate exit ∧
          ¬ (machine.first ≠ machine.last ∧
            ∀ other, (machine.pcs other).advancing = false) := by
        by_contra none
        push Not at none
        exact crowded fun exit here => none exit here
      obtain ⟨exit, here, crowd⟩ := case
      have log :
          (machineStep machine max (.go cpu)).emulated =
            machine.emulated ++ [machine.coalescedMmio machine.first] := by
        change (machine.go cpu max).emulated = _
        unfold Machine.go
        rw [here]
        rfl
      have made :
          (machineStep machine max (.go cpu)).made = machine.made := by
        change (machine.go cpu max).made = _
        unfold Machine.go
        rw [here]
        rfl
      -- it was emulated before, if it ever was on the ring
      have before :
          ∀ access, machine.coalescedMmio machine.first = some access →
            some access ∈ machine.emulated := by
        intro access stored
        rcases sound.waits with ⟨still, -⟩ | ⟨other, head, -, list, done⟩
        · have empty : queue = [] := by
            rw [← List.length_eq_zero_iff,
              ← first_eq_iff sound.first_lt sound.room, ← sound.last_eq]
            by_contra something
            exact crowd ⟨something, still⟩
          refine (sound.stale _ access stored).resolve_right ?_
          rw [empty]
          exact List.not_mem_nil
        · have slot := (sound.front list).1
          rw [stored] at slot
          rw [Option.some.inj slot]
          exact done
      rintro ⟨written, ordered⟩
      rw [log] at written
      cases stored : machine.coalescedMmio machine.first with
      | none =>
          rw [stored] at written
          exact
            written (List.mem_append_right _ (List.mem_singleton.2 rfl))
      | some access =>
          have twice := ordered access.cpu
          rw [log, made, stored, reduce_concat, of_append, of_own rfl]
            at twice
          have once := twice.sublist.nodup (sound.nodup access.cpu)
          rw [List.nodup_append] at once
          refine once.2.2 access ?_ access (List.mem_singleton.2 rfl) rfl
          unfold of
          rw [List.mem_filter]
          refine ⟨?_, decide_eq_true rfl⟩
          rw [List.reduceOption_mem_iff]
          exact before access stored
  | _ => exact absurd trivial crowded

theorem start (positive : 0 < max) :
    Sound max (machineStart nrcpus) [] [] where
  first_lt := positive
  room := positive
  last_eq := (Nat.zero_mod max).symm
  holds := rfl
  stale _ _ stored := nomatch stored
  owned _ _ member := nomatch member
  numbered _ := rfl
  written member := nomatch member
  waits := Or.inl ⟨fun _ => rfl, rfl⟩
  balance _ := rfl
  drained _ _ reached := nomatch reached

end Sound

/-- The ring is in order, whatever is on it. -/
def Tracked (max : Nat) (machine : Machine nrcpus) : Prop :=
  ∃ queue waiting, Sound max machine queue waiting

theorem Tracked.ordered (tracked : Tracked max machine) : Ordered machine := by
  obtain ⟨queue, waiting, sound⟩ := tracked
  exact sound.ordered

theorem Tracked.step (tracked : Tracked max machine) {move : Move nrcpus}
    (alone : Alone machine move) :
    Tracked max (machineStep machine max move) := by
  obtain ⟨queue, waiting, sound⟩ := tracked
  exact sound.step move alone

/--
In every run, the accesses of each vCPU are emulated once and in the order
in which the guest made them, exactly when no vCPU emulates an entry that
there is not, or one that another has emulated and not yet taken off.
-/
theorem ordered_iff_alone (nrcpus : Nat) {max : Nat} (positive : 0 < max)
    (moves : List (Move nrcpus)) :
    Throughout (fun machine => machineStep machine max) Ordered
        (machineStart nrcpus) moves ↔
      Along (fun machine => machineStep machine max) Alone
        (machineStart nrcpus) moves := by
  have broken (machine : Machine nrcpus) (move : Move nrcpus)
      (tracked : Tracked max machine) (crowded : ¬ Alone machine move) :
      ¬ Ordered (machineStep machine max move) := by
    obtain ⟨queue, waiting, sound⟩ := tracked
    exact sound.broken crowded
  have started : Tracked max (machineStart nrcpus) :=
    ⟨[], [], Sound.start positive⟩
  exact
    throughout_iff_along (fun _ tracked => tracked.ordered)
      (fun _ _ (tracked : Tracked max _) alone => tracked.step alone) broken
      started moves

/-- Two vCPUs find the same write on the ring, and both emulate it. -/
example :
    let moves : List (Move 2) :=
      [.coalesce 0 0x1000 [1], .exitOther 0, .exitOther 1, .go 0, .go 1,
        .go 0, .go 1]
    (run (fun machine => machineStep machine 170) (machineStart 2)
        moves).emulated =
      [some ⟨0, 0, ⟨0x1000, [1], true⟩⟩, some ⟨0, 0, ⟨0x1000, [1], true⟩⟩] := by
  decide

/-- A write and an access that causes an exit, by a single vCPU. -/
theorem ordered_iff_alone_of_exit :
    let moves : List (Move 1) :=
      [.coalesce 0 0x1000 [1], .exitMmio 0 ⟨0x2000, [0], false⟩, .go 0,
        .go 0, .go 0, .go 0, .go 0]
    Throughout (fun machine => machineStep machine 170) Ordered
        (machineStart 1) moves ↔
      Along (fun machine => machineStep machine 170) Alone
        (machineStart 1) moves :=
  ordered_iff_alone 1 (by decide) _

end Invariant

end Kemu.Init.CoalescedMmio
