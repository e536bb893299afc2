import Mathlib.Data.List.Chain
import Mathlib.Logic.Relation
import Mathlib.Order.SetNotation

/-!
# Cycles of a relation and finished sets

A relation is cyclic when some vertex reaches itself in one or more steps. A
depth-first search keeps a `Finished` set: no edge leaves it and no vertex of it
lies on a cycle. Adding a vertex whose successors are all finished keeps it so,
and a finished set that contains every source of an edge excludes every cycle.
-/

namespace MiniDB.Foundation

universe u

variable {Vertex : Type u}

/-- Some vertex reaches itself along one or more edges; a self-loop is a cycle. -/
def Cyclic (edge : Vertex → Vertex → Prop) : Prop :=
  ∃ vertex, Relation.TransGen edge vertex vertex

/-- A set that no edge leaves and that no cycle meets. -/
structure Finished (edge : Vertex → Vertex → Prop) (done : Set Vertex) : Prop where
  closed : ∀ {source target}, source ∈ done → edge source target → target ∈ done
  acyclic : ∀ {vertex}, vertex ∈ done → ¬ Relation.TransGen edge vertex vertex

variable {edge : Vertex → Vertex → Prop} {done : Set Vertex}

theorem finished_empty : Finished edge (∅ : Set Vertex) where
  closed := fun inside _ => inside.elim
  acyclic := fun inside => inside.elim

/-- Paths from a finished vertex stay among the finished ones. -/
theorem Finished.of_transGen (finished : Finished edge done) {source target : Vertex}
    (inside : source ∈ done) (path : Relation.TransGen edge source target) : target ∈ done := by
  induction path with
  | single step => exact finished.closed inside step
  | tail _ step ih => exact finished.closed ih step

/-- A vertex all of whose successors are finished can be finished too: a path
from it enters the old set at once and never comes back. -/
theorem Finished.insert (finished : Finished edge done) {vertex : Vertex} (fresh : vertex ∉ done)
    (successors : ∀ target, edge vertex target → target ∈ done) :
    Finished edge (insert vertex done) where
  closed := by
    rintro source target (rfl | inside) step
    · exact Or.inr (successors target step)
    · exact Or.inr (finished.closed inside step)
  acyclic := by
    rintro start (rfl | inside) cycle
    · obtain ⟨next, step, rest⟩ := Relation.TransGen.head'_iff.mp cycle
      have nextDone := successors next step
      rcases Relation.reflTransGen_iff_eq_or_transGen.mp rest with same | path
      · exact fresh (same ▸ nextDone)
      · exact fresh (finished.of_transGen nextDone path)
    · exact finished.acyclic inside cycle

/-- When every vertex with a successor is finished, there is no cycle at all. -/
theorem Finished.not_cyclic (finished : Finished edge done)
    (sources : ∀ source target, edge source target → source ∈ done) : ¬ Cyclic edge := by
  rintro ⟨vertex, cycle⟩
  obtain ⟨next, step, -⟩ := Relation.TransGen.head'_iff.mp cycle
  exact finished.acyclic (sources vertex next step) cycle

/-! ## Closed walks -/

/-- A list that follows edges through distinct vertices and ends where it began. -/
structure ClosedWalk (edge : Vertex → Vertex → Prop) (walk : List Vertex) : Prop where
  closes : ∃ start middle, walk = start :: middle ++ [start] ∧ (start :: middle).Nodup
  chain : walk.IsChain edge

/-- Every vertex of a closed walk reaches itself. -/
theorem ClosedWalk.transGen {walk : List Vertex} (closed : ClosedWalk edge walk) {vertex : Vertex}
    (member : vertex ∈ walk) : Relation.TransGen edge vertex vertex := by
  obtain ⟨start, middle, rfl, -⟩ := closed.closes
  have reaches : (start :: (middle ++ [start])).Pairwise (Relation.TransGen edge) :=
    (closed.chain.imp fun _ _ => Relation.TransGen.single).pairwise
  obtain ⟨fromStart, rest⟩ := List.pairwise_cons.mp reaches
  have around : vertex = start ∨ vertex ∈ middle := by
    simp only [List.cons_append, List.mem_cons, List.mem_append] at member
    tauto
  rcases around with rfl | inside
  · exact fromStart vertex (by simp)
  · have back : Relation.TransGen edge vertex start :=
      (List.pairwise_append.mp rest).2.2 vertex inside start (by simp)
    exact back.trans (fromStart vertex (by simp [inside]))

theorem ClosedWalk.cyclic {walk : List Vertex} (closed : ClosedWalk edge walk) : Cyclic edge := by
  obtain ⟨start, middle, rfl, -⟩ := closed.closes
  exact ⟨start, closed.transGen (by simp)⟩

/-- A path of distinct vertices, cut where an edge from its end leads back to and
closed by that edge. -/
theorem closedWalk_of_chain [DecidableEq Vertex] {front : List Vertex} {last vertex : Vertex}
    (chain : (front ++ [last]).IsChain edge) (distinct : (front ++ [last]).Nodup)
    (member : vertex ∈ front ++ [last]) (back : edge last vertex) :
    ClosedWalk edge ((front ++ [last]).dropWhile (· ≠ vertex) ++ [vertex]) := by
  obtain ⟨before, after, split, absent⟩ := List.eq_append_cons_of_mem member
  have dropped : (front ++ [last]).dropWhile (· ≠ vertex) = vertex :: after := by
    rw [split, List.dropWhile_append_of_pos]
    · simp
    · intro other inside
      simpa using fun same : other = vertex => absent (same ▸ inside)
  have lastEq : (vertex :: after).getLast? = some last := by
    have ends := congrArg List.getLast? split
    rw [List.getLast?_concat, List.getLast?_append] at ends
    simpa using ends.symm
  rw [split] at chain distinct
  rw [dropped]
  refine ⟨⟨vertex, after, rfl, (List.nodup_append.mp distinct).2.1⟩, ?_⟩
  refine chain.right_of_append.append (.singleton vertex) ?_
  intro top isLast target isHead
  rw [lastEq] at isLast
  cases isLast
  cases isHead
  exact back

end MiniDB.Foundation
