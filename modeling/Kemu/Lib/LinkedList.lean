import Mathlib.Data.List.Basic

/-!
# Lists that are linked through a memory

A list is laid out at some places, each of which holds the next one; a null
place ends it.  Appending to such a list changes the link of its last place
and the one of the place that is appended.
-/

namespace Kemu.Lib.LinkedList

universe u

variable {Place : Type u}

/-- The links lead from one place through some others to another one. -/
inductive Segment (next : Place → Place) : Place → List Place → Place → Prop
  | stop (place : Place) : Segment next place [] place
  | link {place finish : Place} {rest : List Place}
      (tail : Segment next (next place) rest finish) :
      Segment next place (place :: rest) finish

/-- The places of the list that begins at a place. -/
structure Listed (next : Place → Place) (null start : Place)
    (places : List Place) : Prop where
  segment : Segment next start places null
  nonnull : null ∉ places

/-- The last place before a null link, if it is found in so many turns. -/
def lastPlace [DecidableEq Place] (next : Place → Place) (null : Place) :
    Nat → Place → Option Place
  | 0, _ => none
  | fuel + 1, place =>
      if next place = null then
        some place
      else
        lastPlace next null fuel (next place)

section

variable {next other : Place → Place} {null start middle finish : Place}
  {places more : List Place}

/-- Other links do not matter. -/
theorem Segment.congr (segment : Segment next start places finish)
    (same : ∀ place ∈ places, other place = next place) :
    Segment other start places finish := by
  induction segment with
  | stop place => exact .stop place
  | @link place finish rest _ induction =>
      refine .link ?_
      rw [same place List.mem_cons_self]
      exact induction (List.forall_mem_cons.mp same).2

theorem Segment.append (first : Segment next start places middle)
    (second : Segment next middle more finish) :
    Segment next start (places ++ more) finish := by
  induction first with
  | stop => exact second
  | link _ induction => exact .link (induction second)

theorem Segment.split
    (segment : Segment next start (places ++ more) finish) :
    ∃ middle,
      Segment next start places middle ∧ Segment next middle more finish := by
  induction places generalizing start with
  | nil => exact ⟨start, .stop start, segment⟩
  | cons place rest induction =>
      cases segment with
      | link tail =>
          obtain ⟨middle, first, second⟩ := induction tail
          exact ⟨middle, .link first, second⟩

theorem Segment.start_of_cons {place : Place}
    (segment : Segment next start (place :: places) finish) :
    start = place := by
  cases segment with
  | link => rfl

theorem Listed.nil : Listed next null null [] :=
  ⟨.stop null, nofun⟩

/-- The list begins at null exactly when it is empty. -/
theorem Listed.start_eq_null_iff (listed : Listed next null start places) :
    start = null ↔ places = [] := by
  cases places with
  | nil =>
      cases listed.segment with
      | stop => exact iff_of_true rfl rfl
  | cons place rest =>
      refine iff_of_false ?_ (List.cons_ne_nil _ _)
      rintro rfl
      exact
        listed.nonnull
          (listed.segment.start_of_cons ▸ List.mem_cons_self)

/-- The list behind its first place. -/
theorem Listed.tail {place : Place}
    (listed : Listed next null start (place :: places)) :
    start = place ∧ Listed next null (next start) places := by
  cases listed.segment with
  | link tail =>
      exact
        ⟨rfl, tail,
          fun member => listed.nonnull (List.mem_cons_of_mem _ member)⟩

theorem Listed.congr (listed : Listed next null start places)
    (same : ∀ place ∈ places, other place = next place) :
    Listed other null start places :=
  ⟨listed.segment.congr same, listed.nonnull⟩

theorem Listed.singleton {place : Place} (ends : next place = null)
    (fresh : place ≠ null) : Listed next null place [place] := by
  refine ⟨.link ?_, fun member => ?_⟩
  · rw [ends]
    exact .stop null
  · exact fresh (List.mem_singleton.1 member).symm

/-- A place is appended behind the last one. -/
theorem Listed.append {last place : Place}
    (listed : Listed next null start (places ++ [last]))
    (same : ∀ earlier ∈ places, other earlier = next earlier)
    (linked : other last = place) (ends : other place = null)
    (fresh : place ≠ null) :
    Listed other null start (places ++ [last] ++ [place]) := by
  obtain ⟨middle, first, second⟩ := listed.segment.split
  obtain rfl : middle = last := second.start_of_cons
  have single := Listed.singleton ends fresh
  refine ⟨((first.congr same).append (.link ?_)).append single.segment, ?_⟩
  · rw [linked]
    exact .stop place
  · exact List.not_mem_append listed.nonnull single.nonnull

/-- The last place is found. -/
theorem Listed.lastPlace_eq [DecidableEq Place] {last : Place} {fuel : Nat}
    (listed : Listed next null start (places ++ [last]))
    (enough : places.length < fuel) :
    lastPlace next null fuel start = some last := by
  induction places generalizing start fuel with
  | nil =>
      obtain ⟨fewer, rfl⟩ := Nat.exists_eq_succ_of_ne_zero
        (Nat.ne_zero_of_lt enough)
      obtain ⟨rfl, tail⟩ := listed.tail
      have ends : next start = null := tail.start_eq_null_iff.2 rfl
      rw [lastPlace, if_pos ends]
  | cons place rest induction =>
      obtain ⟨fewer, rfl⟩ := Nat.exists_eq_succ_of_ne_zero
        (Nat.ne_zero_of_lt enough)
      obtain ⟨rfl, tail⟩ := listed.tail
      have goes : next start ≠ null := fun ends =>
        absurd (tail.start_eq_null_iff.1 ends) (by simp)
      rw [lastPlace, if_neg goes]
      exact induction tail (Nat.lt_of_succ_lt_succ enough)

end

end Kemu.Lib.LinkedList
