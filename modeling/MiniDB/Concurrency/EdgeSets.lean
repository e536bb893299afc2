import MiniDB.Concurrency.VictimSelection

/-!
# The wait graph is a set of edges

`edgeStep` says what each call does to a set of pairs. The detector refines it
under every iteration order of its containers, and the graph that it keeps is
`Canonical`: every entry is a nonempty set. Canonical graphs with the same edges
differ in nothing but the order of their entries.
-/

namespace MiniDB.Concurrency

open Foundation

namespace WaitGraph

variable {graph other : WaitGraph}

/-- Every entry of the graph is a nonempty set. -/
structure Canonical (graph : WaitGraph) : Prop where
  sets : graph.SetValued
  inhabited : ∀ txn, graph.lookup txn ≠ some []

theorem canonical_empty : Canonical ∅ where
  sets := setValued_empty
  inhabited := by
    intro txn
    rw [AList.lookup_empty]
    exact (Option.some_ne_none _).symm

/-! ## Edges of one call -/

theorem edge_addEdge_iff (graph : WaitGraph) (source target first second : TxnId) :
    (graph.addEdge source target).Edge first second ↔
      first = source ∧ second = target ∨ graph.Edge first second := by
  rw [← mem_valueAt_iff, ← mem_valueAt_iff, valueAt_addEdge]
  split
  · next same =>
    subst same
    simp [List.mem_insert_iff]
  · next different => simp [different]

theorem edge_removeEdge_iff (sets : graph.SetValued) (source target first second : TxnId) :
    (graph.removeEdge source target).Edge first second ↔
      graph.Edge first second ∧ ¬ (first = source ∧ second = target) := by
  rw [← mem_valueAt_iff, ← mem_valueAt_iff, valueAt_removeEdge]
  split
  · next same =>
    subst same
    rw [(sets first).mem_erase_iff]
    tauto
  · next different => simp [different]

/-! ## Entries of one call -/

/-- The last loop of `RemoveTxn`, over any keys, drops those of them that are empty. -/
theorem lookup_foldl_eraseEmpty (keys : List TxnId) (graph : WaitGraph) (txn : TxnId) :
    (keys.foldl (fun graph source =>
        if graph.valueAt source = [] then graph.erase source else graph) graph).lookup txn =
      if txn ∈ keys ∧ graph.valueAt txn = [] then none else graph.lookup txn := by
  induction keys generalizing graph with
  | nil => simp
  | cons key keys ih =>
    rw [List.foldl_cons, ih]
    by_cases same : txn = key
    · subst same
      by_cases empty : graph.valueAt txn = []
      · simp [empty]
      · simp [empty]
    · by_cases empty : graph.valueAt key = []
      · simp [empty, same, UnorderedMap.valueAt_erase, AList.lookup_erase_ne same]
      · simp [empty, same]

theorem lookup_eraseEmpty_ne (graph : WaitGraph) (txn : TxnId) :
    graph.eraseEmpty.lookup txn ≠ some [] := by
  unfold eraseEmpty
  rw [lookup_foldl_eraseEmpty]
  split
  · exact (Option.some_ne_none _).symm
  · next kept =>
    intro found
    apply kept
    refine ⟨AList.mem_keys.mp (AList.lookup_isSome.mp (by simp [found])), ?_⟩
    simp [UnorderedMap.valueAt, found]

theorem Canonical.addEdge (canonical : graph.Canonical) (source target : TxnId) :
    (graph.addEdge source target).Canonical where
  sets := canonical.sets.addEdge source target
  inhabited := by
    intro txn
    unfold WaitGraph.addEdge
    by_cases same : txn = source
    · subst same
      rw [AList.lookup_insert]
      intro empty
      have member := List.mem_insert_self (a := target) (l := (graph.subscript txn).1)
      rw [Option.some.inj empty] at member
      exact List.not_mem_nil member
    · rw [AList.lookup_insert_ne same, UnorderedMap.lookup_subscript_of_ne same]
      exact canonical.inhabited txn

theorem Canonical.removeEdge (canonical : graph.Canonical) (source target : TxnId) :
    (graph.removeEdge source target).Canonical where
  sets := canonical.sets.removeEdge source target
  inhabited := by
    intro txn
    unfold WaitGraph.removeEdge
    split
    · exact canonical.inhabited txn
    · next successors found =>
      dsimp only
      by_cases same : txn = source
      · subst same
        split
        · rw [AList.lookup_erase]
          exact (Option.some_ne_none _).symm
        · next remains =>
          rw [AList.lookup_insert]
          exact fun empty => remains (Option.some.inj empty)
      · split
        · rw [AList.lookup_erase_ne same]
          exact canonical.inhabited txn
        · rw [AList.lookup_insert_ne same]
          exact canonical.inhabited txn

theorem Canonical.removeTxn (canonical : graph.Canonical) (txn : TxnId) :
    (graph.removeTxn txn).Canonical where
  sets := canonical.sets.removeTxn txn
  inhabited := lookup_eraseEmpty_ne _

theorem Canonical.reorders (canonical : graph.Canonical) (reorders : graph.Reorders other) :
    other.Canonical where
  sets := reorders.setValued canonical.sets
  inhabited := by
    intro txn found
    have related := reorders txn
    rw [found] at related
    generalize entry : graph.lookup txn = before at related
    cases related with
    | some perm => exact canonical.inhabited txn (perm.eq_nil ▸ entry)

/-- The entry of a canonical graph is what is read there, if that is not empty. -/
theorem Canonical.lookup_eq (canonical : graph.Canonical) (txn : TxnId) :
    graph.lookup txn = if graph.valueAt txn = [] then none else some (graph.valueAt txn) := by
  have inhabited := canonical.inhabited txn
  unfold UnorderedMap.valueAt
  cases entry : graph.lookup txn with
  | none => rfl
  | some successors =>
    have nonempty : successors ≠ [] := by
      rintro rfl
      exact inhabited entry
    simp [nonempty]

/-- Canonical graphs with the same edges are the same up to the order of iteration. -/
theorem Canonical.reorders_of_edge_iff (canonical : graph.Canonical) (canonical' : other.Canonical)
    (same : ∀ source target, graph.Edge source target ↔ other.Edge source target) :
    graph.Reorders other := by
  intro txn
  have perm : (graph.valueAt txn).Perm (other.valueAt txn) := by
    rw [List.perm_ext_iff_of_nodup (canonical.sets txn) (canonical'.sets txn)]
    intro target
    rw [mem_valueAt_iff, mem_valueAt_iff]
    exact same txn target
  rw [canonical.lookup_eq, canonical'.lookup_eq]
  by_cases empty : graph.valueAt txn = []
  · have empty' : other.valueAt txn = [] := (empty ▸ perm).nil_eq.symm
    rw [if_pos empty, if_pos empty']
    exact .none
  · have nonempty' : other.valueAt txn ≠ [] := fun empty' => empty (empty' ▸ perm).eq_nil
    rw [if_neg empty, if_neg nonempty']
    exact .some perm

end WaitGraph

namespace DeadLockDetector

open WaitGraph

/-- What a call does to a set of edges. -/
def edgeStep (edges : Finset (TxnId × TxnId)) : Call → Finset (TxnId × TxnId)
  | .addEdge source target => insert (source, target) edges
  | .removeEdge source target => edges.erase (source, target)
  | .removeTxn txn => edges.filter fun edge => edge.1 ≠ txn ∧ edge.2 ≠ txn

/-- A call that finds the containers in an order of their own. -/
def iteratedStep (detector : DeadLockDetector) (turn : Iteration × Call) : DeadLockDetector :=
  step (detector.iterated turn.1) turn.2

/-- The detector keeps a canonical graph with these edges. -/
structure Keeps (detector : DeadLockDetector) (edges : Finset (TxnId × TxnId)) : Prop where
  canonical : detector.waitGraph.Canonical
  edge_iff : ∀ source target, detector.waitGraph.Edge source target ↔ (source, target) ∈ edges

theorem Keeps.iterated {detector : DeadLockDetector} {edges : Finset (TxnId × TxnId)}
    (keeps : detector.Keeps edges) (iteration : Iteration) :
    (detector.iterated iteration).Keeps edges where
  canonical := keeps.canonical.reorders (iteration.reorders detector.waitGraph)
  edge_iff := by
    rw [edge_iterated]
    exact keeps.edge_iff

theorem Keeps.step {detector : DeadLockDetector} {edges : Finset (TxnId × TxnId)}
    (keeps : detector.Keeps edges) (call : Call) :
    (step detector call).Keeps (edgeStep edges call) := by
  cases call with
  | addEdge source target =>
    refine ⟨keeps.canonical.addEdge source target, fun first second => ?_⟩
    rw [edgeStep, Finset.mem_insert, Prod.mk.injEq, ← keeps.edge_iff]
    exact edge_addEdge_iff _ source target first second
  | removeEdge source target =>
    refine ⟨keeps.canonical.removeEdge source target, fun first second => ?_⟩
    rw [edgeStep, Finset.mem_erase, ne_eq, Prod.mk.injEq, ← keeps.edge_iff, and_comm]
    exact edge_removeEdge_iff keeps.canonical.sets source target first second
  | removeTxn txn =>
    refine ⟨keeps.canonical.removeTxn txn, fun first second => ?_⟩
    rw [edgeStep, Finset.mem_filter, ← keeps.edge_iff]
    exact edge_removeTxn_iff keeps.canonical.sets txn first second

/-- The detector and the set of edges stay together along every run. -/
theorem Keeps.run {detector : DeadLockDetector} {edges : Finset (TxnId × TxnId)}
    (keeps : detector.Keeps edges) (turns : List (Iteration × Call)) :
    (run iteratedStep detector turns).Keeps (run edgeStep edges (turns.map Prod.snd)) := by
  induction turns generalizing detector edges with
  | nil => exact keeps
  | cons turn turns ih => exact ih ((keeps.iterated turn.1).step turn.2)

theorem keeps_run (turns : List (Iteration × Call)) :
    (run iteratedStep {} turns).Keeps (run edgeStep ∅ (turns.map Prod.snd)) := by
  refine Keeps.run ⟨canonical_empty, fun source target => ?_⟩ turns
  simp [Edge]

/-- For every sequence of calls on an empty detector, whatever the iteration orders:
the edges of the graph are the edge set that the calls build, no entry is empty,
and another sequence that builds the same edge set builds the same graph. -/
theorem waitGraph_eq_edgeSet (turns : List (Iteration × Call)) :
    (∀ source target, (run iteratedStep {} turns).waitGraph.Edge source target ↔
      (source, target) ∈ run edgeStep ∅ (turns.map Prod.snd)) ∧
    (∀ txn, (run iteratedStep {} turns).waitGraph.lookup txn ≠ some []) ∧
    ∀ turns' : List (Iteration × Call),
      run edgeStep ∅ (turns'.map Prod.snd) = run edgeStep ∅ (turns.map Prod.snd) →
      (run iteratedStep {} turns).waitGraph.Reorders (run iteratedStep {} turns').waitGraph := by
  have keeps := keeps_run turns
  refine ⟨keeps.edge_iff, keeps.canonical.inhabited, fun turns' sameEdges => ?_⟩
  have keeps' := keeps_run turns'
  refine keeps.canonical.reorders_of_edge_iff keeps'.canonical fun source target => ?_
  rw [keeps.edge_iff, keeps'.edge_iff, sameEdges]

-- The calls of the integration test leave no entry behind.
example : (run step {} [.addEdge 1 2, .addEdge 2 3, .addEdge 3 1, .removeTxn 1, .removeEdge 2 3,
    .removeEdge 3 1]).waitGraph.entries = [] := by decide

end DeadLockDetector

end MiniDB.Concurrency
