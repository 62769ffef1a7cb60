import Mathlib.Data.Set.Card
import Mathlib.Logic.Relation

/-!
# Walks along a partial successor function

Linked structures that an untrusted party lays out are followed by a loop
which asks every node for its successor.  `walk` is that loop with a bound
on the number of nodes; it answers `none` when the bound is used up.

The walk ends exactly on the start nodes from which no cycle is reachable,
and then lists every node reachable from the start once.  On a finite set of
reachable nodes this is decided within as many nodes as the set has.
-/

namespace Kemu.Lib.Walk

open Relation

universe u

variable {Node : Type u}

/-- One link of the structure. -/
def Linked (next : Node → Option Node) (source target : Node) : Prop :=
  next source = some target

/-- The nodes reachable from a start node. -/
def visited (next : Node → Option Node) (start : Node) : Set Node :=
  { node | ReflTransGen (Linked next) start node }

/-- No node reachable from the start lies on a cycle. -/
def Acyclic (next : Node → Option Node) (start : Node) : Prop :=
  ∀ node ∈ visited next start, ¬ TransGen (Linked next) node node

/-- The nodes in walking order, if the walk has at most `fuel` of them. -/
def walk (next : Node → Option Node) : Nat → Node → Option (List Node)
  | 0, _ => none
  | fuel + 1, node =>
      match next node with
      | none => some [node]
      | some following => (walk next fuel following).map (node :: ·)

section

variable {next : Node → Option Node} {start following : Node}

theorem mem_visited_self (next : Node → Option Node) (start : Node) :
    start ∈ visited next start :=
  ReflTransGen.refl

theorem visited_of_none (ends : next start = none) :
    visited next start = {start} := by
  ext node
  constructor
  · intro reached
    rcases ReflTransGen.cases_head reached with same | ⟨_, link, _⟩
    · exact same.symm
    · rw [Linked, ends] at link
      cases link
  · rintro rfl
    exact mem_visited_self next _

theorem visited_of_some (continues : next start = some following) :
    visited next start = insert start (visited next following) := by
  ext node
  constructor
  · intro reached
    rcases ReflTransGen.cases_head reached with same | ⟨_, link, rest⟩
    · exact Or.inl same.symm
    · rw [Linked, continues] at link
      cases link
      exact Or.inr rest
  · rintro (rfl | reached)
    · exact mem_visited_self next _
    · exact ReflTransGen.head continues reached

theorem Acyclic.tail
    (acyclic : Acyclic next start) (continues : next start = some following) :
    Acyclic next following := by
  intro node reached
  apply acyclic node
  rw [visited_of_some continues]
  exact Or.inr reached

theorem Acyclic.start_not_mem
    (acyclic : Acyclic next start) (continues : next start = some following) :
    start ∉ visited next following := by
  intro reached
  exact acyclic start (mem_visited_self next start)
    (TransGen.head' continues reached)

/-! ## What a finished walk says -/

theorem walk_succ_of_none (fuel : Nat) (ends : next start = none) :
    walk next (fuel + 1) start = some [start] := by
  simp [walk, ends]

theorem walk_succ_of_some
    (fuel : Nat) (continues : next start = some following) :
    walk next (fuel + 1) start =
      (walk next fuel following).map (start :: ·) := by
  simp [walk, continues]

/-- A walk that ends stops at its node or goes on behind it. -/
theorem walk_succ_cases {fuel : Nat} {nodes : List Node}
    (ended : walk next (fuel + 1) start = some nodes) :
    (next start = none ∧ nodes = [start]) ∨
      ∃ following rest,
        next start = some following ∧
          walk next fuel following = some rest ∧ nodes = start :: rest := by
  cases successor : next start with
  | none =>
      rw [walk_succ_of_none fuel successor] at ended
      cases ended
      exact Or.inl ⟨rfl, rfl⟩
  | some following =>
      rw [walk_succ_of_some fuel successor, Option.map_eq_some_iff] at ended
      rcases ended with ⟨rest, restEnded, rfl⟩
      exact Or.inr ⟨following, rest, rfl, restEnded, rfl⟩

/-- A walk that ends lists exactly the reachable nodes. -/
theorem mem_walk_iff {fuel : Nat} {nodes : List Node}
    (ended : walk next fuel start = some nodes) (node : Node) :
    node ∈ nodes ↔ node ∈ visited next start := by
  induction fuel generalizing start nodes with
  | zero => cases ended
  | succ fuel induction =>
      rcases walk_succ_cases ended with
        ⟨last, rfl⟩ | ⟨following, rest, continues, restEnded, rfl⟩
      · rw [visited_of_none last]
        simp
      · rw [visited_of_some continues, List.mem_cons, Set.mem_insert_iff,
          induction restEnded]

theorem walk_length_le {fuel : Nat} {nodes : List Node}
    (ended : walk next fuel start = some nodes) :
    nodes.length ≤ fuel := by
  induction fuel generalizing start nodes with
  | zero => cases ended
  | succ fuel induction =>
      rcases walk_succ_cases ended with
        ⟨_, rfl⟩ | ⟨_, rest, _, restEnded, rfl⟩
      · simp
      · simpa using induction restEnded

/-- The nodes still to come after a node of a walk form a shorter walk. -/
theorem walk_from_mem {fuel : Nat} {nodes : List Node}
    (ended : walk next fuel start = some nodes)
    {node : Node} (member : node ∈ nodes) :
    ∃ left rest, walk next left node = some rest ∧
      rest.length ≤ nodes.length := by
  induction fuel generalizing start nodes with
  | zero => cases ended
  | succ fuel induction =>
      rcases walk_succ_cases ended with
        ⟨_, rfl⟩ | ⟨_, tail, _, tailEnded, rfl⟩
      · rw [List.mem_singleton] at member
        subst member
        exact ⟨fuel + 1, _, ended, le_rfl⟩
      · rcases List.mem_cons.1 member with rfl | later
        · exact ⟨fuel + 1, _, ended, le_rfl⟩
        · rcases induction tailEnded later with
            ⟨left, rest, restEnded, shorter⟩
          exact ⟨left, rest, restEnded, shorter.trans (by simp)⟩

/-- The bound does not influence the outcome of a walk that ends. -/
theorem walk_unique {fuel other : Nat} {nodes otherNodes : List Node}
    (ended : walk next fuel start = some nodes)
    (otherEnded : walk next other start = some otherNodes) :
    nodes = otherNodes := by
  induction fuel generalizing start other nodes otherNodes with
  | zero => cases ended
  | succ fuel induction =>
      cases other with
      | zero => cases otherEnded
      | succ other =>
          cases successor : next start with
          | none =>
              rw [walk_succ_of_none _ successor] at ended otherEnded
              cases ended
              cases otherEnded
              rfl
          | some following =>
              rw [walk_succ_of_some _ successor, Option.map_eq_some_iff]
                at ended otherEnded
              rcases ended with ⟨rest, restEnded, rfl⟩
              rcases otherEnded with ⟨otherRest, otherRestEnded, rfl⟩
              rw [induction restEnded otherRestEnded]

/-- No cycle is reachable from where a walk ends. -/
theorem acyclic_of_walk {fuel : Nat} {nodes : List Node}
    (ended : walk next fuel start = some nodes) :
    Acyclic next start := by
  intro node reached cycle
  rcases walk_from_mem ended ((mem_walk_iff ended node).2 reached) with
    ⟨left, rest, fromNode, _⟩
  rcases TransGen.head'_iff.1 cycle with ⟨following, link, back⟩
  cases left with
  | zero => cases fromNode
  | succ left =>
      have parts := fromNode
      rw [walk_succ_of_some left link, Option.map_eq_some_iff] at parts
      rcases parts with ⟨tail, tailEnded, rfl⟩
      rcases walk_from_mem tailEnded ((mem_walk_iff tailEnded node).2 back) with
        ⟨_, again, againEnded, shorter⟩
      have same := walk_unique fromNode againEnded
      rw [← same, List.length_cons] at shorter
      exact Nat.not_succ_le_self _ shorter

theorem walk_nodup {fuel : Nat} {nodes : List Node}
    (ended : walk next fuel start = some nodes) :
    nodes.Nodup := by
  induction fuel generalizing start nodes with
  | zero => cases ended
  | succ fuel induction =>
      have acyclic := acyclic_of_walk ended
      rcases walk_succ_cases ended with
        ⟨_, rfl⟩ | ⟨_, rest, continues, restEnded, rfl⟩
      · simp
      · refine List.nodup_cons.2 ⟨?_, induction restEnded⟩
        rw [mem_walk_iff restEnded]
        exact acyclic.start_not_mem continues

/-- A finished walk has as many nodes as are reachable. -/
theorem walk_length_eq_ncard {fuel : Nat} {nodes : List Node}
    (ended : walk next fuel start = some nodes) :
    (visited next start).ncard = nodes.length := by
  classical
  have asFinset : visited next start = (nodes.toFinset : Set Node) := by
    ext node
    simp [mem_walk_iff ended]
  rw [asFinset, Set.ncard_coe_finset,
    List.toFinset_card_of_nodup (walk_nodup ended)]

/-! ## When a walk ends -/

/-- Without a reachable cycle, as much fuel as reachable nodes suffices. -/
theorem exists_walk_of_acyclic {fuel : Nat}
    (acyclic : Acyclic next start)
    (finite : (visited next start).Finite)
    (enough : (visited next start).ncard ≤ fuel) :
    ∃ nodes, walk next fuel start = some nodes := by
  induction fuel generalizing start with
  | zero =>
      have empty : visited next start = ∅ :=
        (Set.ncard_eq_zero finite).1 (Nat.le_zero.1 enough)
      exact (Set.notMem_empty start
        (empty ▸ mem_visited_self next start)).elim
  | succ fuel induction =>
      cases successor : next start with
      | none => exact ⟨[start], walk_succ_of_none fuel successor⟩
      | some following =>
          have split := visited_of_some successor
          have smaller : (visited next following).Finite :=
            finite.subset (split ▸ Set.subset_insert _ _)
          rw [split, Set.ncard_insert_of_notMem
            (acyclic.start_not_mem successor) smaller] at enough
          rcases induction (acyclic.tail successor) smaller
              (Nat.le_of_succ_le_succ enough) with
            ⟨rest, restEnded⟩
          refine ⟨start :: rest, ?_⟩
          rw [walk_succ_of_some fuel successor, restEnded]
          rfl

/-- The visited set never leaves a set closed under links. -/
theorem visited_subset {closed : Set Node}
    (startIn : start ∈ closed)
    (links : ∀ source target, next source = some target → target ∈ closed) :
    visited next start ⊆ closed := by
  intro node reached
  rcases ReflTransGen.cases_tail reached with same | ⟨_, _, link⟩
  · exact same ▸ startIn
  · exact links _ _ link

end

end Kemu.Lib.Walk
