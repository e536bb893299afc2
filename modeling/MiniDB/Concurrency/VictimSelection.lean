import MiniDB.Concurrency.DeadlockSearch
import Mathlib.Data.List.MinMax

/-!
# Victim selection resolves every deadlock

A round asks for a victim and removes it from the wait graph. The containers may
iterate in another order at each step, which an `Iteration` chooses. A victim
lies on a cycle, so it has an outgoing edge, and removing it takes that source
away without adding one: the number of sources bounds the number of rounds.
-/

namespace MiniDB.Concurrency

open Foundation

namespace WaitGraph

variable {graph : WaitGraph}

/-- The successors of every transaction form a set. -/
def SetValued (graph : WaitGraph) : Prop := ∀ txn, (graph.valueAt txn).Nodup

/-- The transactions with an outgoing edge. -/
def sources (graph : WaitGraph) : Finset TxnId :=
  graph.keys.toFinset.filter fun txn => graph.valueAt txn ≠ []

/-- An iteration order of the containers, as a choice for every graph. -/
structure Iteration where
  order : WaitGraph → WaitGraph
  reorders : ∀ graph : WaitGraph, graph.Reorders (order graph)

/-- The order in which the model keeps the entries. -/
def Iteration.asBuilt : Iteration := ⟨id, Reorders.refl⟩

theorem mem_sources_iff {source : TxnId} :
    source ∈ graph.sources ↔ ∃ target, graph.Edge source target := by
  simp only [sources, Finset.mem_filter, List.mem_toFinset]
  constructor
  · rintro ⟨-, inhabited⟩
    obtain ⟨target, member⟩ := List.exists_mem_of_ne_nil _ inhabited
    exact ⟨target, mem_valueAt_iff.mp member⟩
  · rintro ⟨target, edge⟩
    exact ⟨edge.source_mem_keys, List.ne_nil_of_mem (mem_valueAt_iff.mpr edge)⟩

theorem Reorders.valueAt_perm {other : WaitGraph} (reorders : graph.Reorders other) (txn : TxnId) :
    (graph.valueAt txn).Perm (other.valueAt txn) := by
  have related := reorders txn
  unfold UnorderedMap.valueAt
  generalize graph.lookup txn = before at related ⊢
  generalize other.lookup txn = after at related ⊢
  cases related with
  | none => exact .refl _
  | some perm => exact perm

theorem Reorders.setValued {other : WaitGraph} (reorders : graph.Reorders other)
    (sets : graph.SetValued) : other.SetValued :=
  fun txn => (reorders.valueAt_perm txn).nodup_iff.mp (sets txn)

/-! ## `RemoveTxn` -/

/-- The first loop, over any keys without repetition, takes the transaction out of
the successors of each of them. -/
theorem valueAt_foldl_erase (txn : TxnId) {keys : List TxnId} (distinct : keys.Nodup)
    (graph : WaitGraph) (source : TxnId) :
    (keys.foldl (fun graph source =>
        graph.insert source ((graph.valueAt source).erase txn)) graph).valueAt source =
      if source ∈ keys then (graph.valueAt source).erase txn else graph.valueAt source := by
  induction keys generalizing graph with
  | nil => rfl
  | cons key keys ih =>
    obtain ⟨fresh, distinctRest⟩ := List.nodup_cons.mp distinct
    rw [List.foldl_cons, ih distinctRest, UnorderedMap.valueAt_insert]
    by_cases same : source = key
    · subst same
      simp [fresh]
    · simp [same]

theorem valueAt_eraseTarget (graph : WaitGraph) (txn source : TxnId) :
    (graph.eraseTarget txn).valueAt source = (graph.valueAt source).erase txn := by
  unfold eraseTarget
  rw [valueAt_foldl_erase txn graph.keys_nodup]
  split
  · rfl
  · next absent =>
    have noEntry : graph.lookup source = none := AList.lookup_eq_none.mpr absent
    simp [UnorderedMap.valueAt, noEntry, show (default : List TxnId) = [] from rfl]

/-- Dropping an empty entry does not change what is read there. -/
theorem valueAt_eraseEmpty (graph : WaitGraph) (source : TxnId) :
    graph.eraseEmpty.valueAt source = graph.valueAt source := by
  unfold eraseEmpty
  generalize graph.keys = keys
  induction keys generalizing graph with
  | nil => rfl
  | cons key keys ih =>
    rw [List.foldl_cons, ih]
    split
    · next empty =>
      rw [UnorderedMap.valueAt_erase]
      split
      · next same =>
        rw [same, empty]
        rfl
      · rfl
    · rfl

/-- What `RemoveTxn` leaves of each successor set. -/
theorem valueAt_removeTxn (graph : WaitGraph) (txn source : TxnId) :
    (graph.removeTxn txn).valueAt source =
      if source = txn then [] else (graph.valueAt source).erase txn := by
  unfold removeTxn
  rw [valueAt_eraseEmpty, valueAt_eraseTarget, UnorderedMap.valueAt_erase]
  split
  · rfl
  · rfl

/-- `RemoveTxn` removes the edges that touch the transaction and no others. -/
theorem edge_removeTxn_iff (sets : graph.SetValued) (txn source target : TxnId) :
    (graph.removeTxn txn).Edge source target ↔
      graph.Edge source target ∧ source ≠ txn ∧ target ≠ txn := by
  rw [← mem_valueAt_iff, ← mem_valueAt_iff, valueAt_removeTxn]
  split
  · next same => simp [same]
  · next different =>
    rw [(sets source).mem_erase_iff]
    tauto

theorem SetValued.removeTxn (sets : graph.SetValued) (txn : TxnId) :
    (graph.removeTxn txn).SetValued := by
  intro source
  rw [valueAt_removeTxn]
  split
  · exact List.nodup_nil
  · exact (sets source).erase txn

theorem setValued_empty : SetValued ∅ := by
  intro txn
  rw [UnorderedMap.valueAt_empty]
  exact List.nodup_nil

theorem valueAt_addEdge (graph : WaitGraph) (source target txn : TxnId) :
    (graph.addEdge source target).valueAt txn =
      if txn = source then (graph.valueAt source).insert target else graph.valueAt txn := by
  unfold addEdge
  simp only [UnorderedMap.subscript_fst]
  rw [UnorderedMap.valueAt_insert, UnorderedMap.valueAt_subscript]

theorem valueAt_removeEdge (graph : WaitGraph) (source target txn : TxnId) :
    (graph.removeEdge source target).valueAt txn =
      if txn = source then (graph.valueAt source).erase target else graph.valueAt txn := by
  unfold removeEdge
  split
  · next absent =>
    have noEntry : graph.valueAt source = [] := by
      simp [UnorderedMap.valueAt, absent, show (default : List TxnId) = [] from rfl]
    split
    · next same =>
      rw [same, noEntry]
      rfl
    · rfl
  · next successors found =>
    have entry : graph.valueAt source = successors := by simp [UnorderedMap.valueAt, found]
    rw [entry]
    dsimp only
    split
    · next emptied =>
      rw [UnorderedMap.valueAt_erase, emptied]
      rfl
    · rw [UnorderedMap.valueAt_insert]

theorem SetValued.addEdge (sets : graph.SetValued) (source target : TxnId) :
    (graph.addEdge source target).SetValued := by
  intro txn
  rw [valueAt_addEdge]
  split
  · exact (sets source).insert
  · exact sets txn

theorem SetValued.removeEdge (sets : graph.SetValued) (source target : TxnId) :
    (graph.removeEdge source target).SetValued := by
  intro txn
  rw [valueAt_removeEdge]
  split
  · exact (sets source).erase target
  · exact sets txn

/-- Removing a source leaves fewer sources. -/
theorem card_sources_removeTxn (sets : graph.SetValued) {txn : TxnId}
    (isSource : txn ∈ graph.sources) :
    (graph.removeTxn txn).sources.card < graph.sources.card := by
  refine Finset.card_lt_card ⟨?_, fun back => ?_⟩
  · intro source member
    obtain ⟨target, edge⟩ := mem_sources_iff.mp member
    exact mem_sources_iff.mpr ⟨target, ((edge_removeTxn_iff sets txn source target).mp edge).1⟩
  · obtain ⟨target, edge⟩ := mem_sources_iff.mp (back isSource)
    exact ((edge_removeTxn_iff sets txn txn target).mp edge).2.1 rfl

/-- A vertex on a cycle has an outgoing edge. -/
theorem mem_sources_of_transGen {txn : TxnId} (cycle : Relation.TransGen graph.Edge txn txn) :
    txn ∈ graph.sources := by
  obtain ⟨next, edge, -⟩ := Relation.TransGen.head'_iff.mp cycle
  exact mem_sources_iff.mpr ⟨next, edge⟩

end WaitGraph

namespace DeadLockDetector

open WaitGraph

/-- The detector with its containers in the order an iteration chooses. -/
def iterated (detector : DeadLockDetector) (iteration : Iteration) : DeadLockDetector :=
  { detector with waitGraph := iteration.order detector.waitGraph }

/-- `if (GetVictim(v)) RemoveTxn(v);`, the two calls iterating each in its own order. -/
def round (detector : DeadLockDetector) (searching cleaning : Iteration) :
    Option DeadLockDetector :=
  match (detector.iterated searching).getVictim with
  | (none, _) => none
  | (some none, after) => some after
  | (some (some victim), after) => some ((after.iterated cleaning).removeTxn victim)

/-- The rounds one after another, with the iteration orders of each. -/
def rounds (detector : DeadLockDetector) : List (Iteration × Iteration) → Option DeadLockDetector
  | [] => some detector
  | (searching, cleaning) :: rest =>
    (detector.round searching cleaning).bind fun after => after.rounds rest

/-- Every graph that calls on an empty detector build is set-valued. -/
theorem setValued_run (calls : List Call) : (run step {} calls).waitGraph.SetValued := by
  have keeps : ∀ detector call, detector.waitGraph.SetValued →
      (step detector call).waitGraph.SetValued := by
    intro detector call sets
    cases call with
    | addEdge source target => exact sets.addEdge source target
    | removeEdge source target => exact sets.removeEdge source target
    | removeTxn txn => exact sets.removeTxn txn
  exact @run_of_invariant _ _ step (fun detector => detector.waitGraph.SetValued) keeps _
    setValued_empty calls

/-! ## One call of `GetVictim` -/

/-- The loop of `GetVictim` finds the largest id. -/
theorem foldl_max_spec (first : TxnId) (rest : List TxnId) :
    (first :: rest).foldl max first ∈ first :: rest ∧
      ∀ txn ∈ first :: rest, txn ≤ (first :: rest).foldl max first := by
  have asMaximum : (first :: rest).max? = some ((first :: rest).foldl max first) := by
    rw [List.max?_cons', List.foldl_cons, max_self]
  exact List.max?_eq_some_iff.mp asMaximum

/-- `DetectCycle` leaves the graph alone. -/
theorem waitGraph_getVictim (detector : DeadLockDetector) :
    detector.getVictim.2.waitGraph = detector.waitGraph := by
  unfold getVictim
  split <;> next same => exact congrArg (fun result => result.2.waitGraph) same.symm

/-- `GetVictim` returns; it finds no victim just when there is no cycle, and a victim
is the largest id of a closed walk that `DetectCycle` reports. -/
theorem getVictim_spec (detector : DeadLockDetector) :
    (detector.getVictim.1 = some none ∧ ¬ Cyclic detector.waitGraph.Edge) ∨
      ∃ victim cycle, detector.getVictim.1 = some (some victim) ∧
        detector.detectCycle.1 = some (true, cycle) ∧
        ClosedWalk detector.waitGraph.Edge cycle ∧ victim ∈ cycle ∧ ∀ txn ∈ cycle, txn ≤ victim := by
  obtain ⟨found, after, searched, reports, decides, -⟩ := detector.waitGraph.search_decides
  have detected : detector.detectCycle.1 = some (found, after.cycle) := by
    simp [detectCycle, lockGuard, Guarded.setMutex, searched]
  cases found with
  | false =>
    refine .inl ⟨?_, fun cyclic => by simpa using decides.mpr cyclic⟩
    unfold getVictim
    rw [← Prod.mk.eta (p := detector.detectCycle), detected]
  | true =>
    have closed := reports rfl
    obtain ⟨start, middle, shape, -⟩ := closed.closes
    have spec := foldl_max_spec start (middle ++ [start])
    refine .inr ⟨(start :: (middle ++ [start])).foldl max start, after.cycle, ?_, detected, closed,
      ?_⟩
    · unfold getVictim
      rw [← Prod.mk.eta (p := detector.detectCycle), detected, shape]
      rfl
    · rw [shape]
      exact spec

/-! ## Rounds -/

/-- The round took the largest id of a reported cycle out of the graph. -/
def RemovesVictim (before : DeadLockDetector) (searching : Iteration) (victim : TxnId)
    (after : DeadLockDetector) : Prop :=
  (∃ cycle, (before.iterated searching).detectCycle.1 = some (true, cycle) ∧
    victim ∈ cycle ∧ ∀ txn ∈ cycle, txn ≤ victim) ∧
  Relation.TransGen before.waitGraph.Edge victim victim ∧
  ∀ source target, after.waitGraph.Edge source target ↔
    before.waitGraph.Edge source target ∧ source ≠ victim ∧ target ≠ victim

theorem edge_iterated (detector : DeadLockDetector) (iteration : Iteration) :
    (detector.iterated iteration).waitGraph.Edge = detector.waitGraph.Edge := by
  funext source target
  exact propext (iteration.reorders detector.waitGraph).edge_iff

theorem setValued_iterated {detector : DeadLockDetector} (sets : detector.waitGraph.SetValued)
    (iteration : Iteration) : (detector.iterated iteration).waitGraph.SetValued :=
  (iteration.reorders detector.waitGraph).setValued sets

/-- A round returns; it leaves a graph without cycles as it is, and otherwise
removes a victim. -/
theorem round_spec {detector : DeadLockDetector} (sets : detector.waitGraph.SetValued)
    (searching cleaning : Iteration) :
    ∃ after, detector.round searching cleaning = some after ∧ after.waitGraph.SetValued ∧
      ((¬ Cyclic detector.waitGraph.Edge ∧
          after.waitGraph.Edge = detector.waitGraph.Edge) ∨
        ∃ victim, (detector.iterated searching).getVictim.1 = some (some victim) ∧
          detector.RemovesVictim searching victim after ∧
          after.waitGraph.sources.card < detector.waitGraph.sources.card) := by
  have graphEq := (detector.iterated searching).waitGraph_getVictim
  have setsSearched := setValued_iterated sets searching
  unfold round
  rcases getVictim_spec (detector.iterated searching) with
    ⟨noVictim, acyclic⟩ | ⟨victim, cycle, found, detected, closed, member, largest⟩
  · rw [← Prod.mk.eta (p := (detector.iterated searching).getVictim), noVictim]
    refine ⟨_, rfl, ?_, .inl ⟨?_, ?_⟩⟩
    · rw [graphEq]
      exact setsSearched
    · rwa [edge_iterated] at acyclic
    · rw [graphEq, edge_iterated]
  · rw [← Prod.mk.eta (p := (detector.iterated searching).getVictim), found]
    generalize (detector.iterated searching).getVictim.2 = middle at graphEq ⊢
    have setsCleaned : (middle.iterated cleaning).waitGraph.SetValued := by
      refine setValued_iterated ?_ cleaning
      rw [graphEq]
      exact setsSearched
    have edgeEq : (middle.iterated cleaning).waitGraph.Edge = detector.waitGraph.Edge := by
      rw [edge_iterated, graphEq, edge_iterated]
    have sourcesEq : (middle.iterated cleaning).waitGraph.sources = detector.waitGraph.sources := by
      ext source
      simp only [mem_sources_iff, edgeEq]
    have onCycle := closed.transGen member
    rw [edge_iterated] at onCycle
    refine ⟨_, rfl, setsCleaned.removeTxn victim, .inr ⟨victim, rfl, ⟨?_, onCycle, ?_⟩, ?_⟩⟩
    · exact ⟨cycle, detected, member, largest⟩
    · intro source target
      rw [← edgeEq]
      exact edge_removeTxn_iff setsCleaned victim source target
    · rw [← sourcesEq]
      refine card_sources_removeTxn setsCleaned ?_
      rw [sourcesEq]
      exact mem_sources_of_transGen onCycle

/-- What any number of rounds does: no edge is added, and as long as there is a cycle
every round uses up a source. -/
theorem rounds_spec {detector : DeadLockDetector} (sets : detector.waitGraph.SetValued)
    (orders : List (Iteration × Iteration)) :
    ∃ after, detector.rounds orders = some after ∧ after.waitGraph.SetValued ∧
      (∀ source target, after.waitGraph.Edge source target →
        detector.waitGraph.Edge source target) ∧
      (¬ Cyclic after.waitGraph.Edge ∨
        after.waitGraph.sources.card + orders.length ≤ detector.waitGraph.sources.card) := by
  induction orders generalizing detector with
  | nil => exact ⟨detector, rfl, sets, fun _ _ edge => edge, .inr le_rfl⟩
  | cons order orders ih =>
    obtain ⟨searching, cleaning⟩ := order
    obtain ⟨next, roundEq, setsNext, outcome⟩ := round_spec sets searching cleaning
    obtain ⟨after, restEq, setsAfter, shrinks, progress⟩ := ih setsNext
    refine ⟨after, ?_, setsAfter, ?_⟩
    · simp only [rounds, roundEq, Option.bind_some, restEq]
    · rcases outcome with ⟨acyclic, edgeEq⟩ | ⟨victim, -, ⟨-, -, removed⟩, fewer⟩
      · rw [edgeEq] at shrinks
        refine ⟨shrinks, .inl ?_⟩
        rintro ⟨txn, cycle⟩
        exact acyclic ⟨txn, Relation.TransGen.mono shrinks txn txn cycle⟩
      · refine ⟨fun source target edge => ((removed source target).mp (shrinks source target edge)).1,
          progress.imp_right fun bound => ?_⟩
        rw [List.length_cons]
        omega

/-- Without sources there is no cycle. -/
theorem not_cyclic_of_card_eq_zero {graph : WaitGraph} (none : graph.sources.card = 0) :
    ¬ Cyclic graph.Edge := by
  rintro ⟨txn, cycle⟩
  have member := mem_sources_of_transGen cycle
  rw [Finset.card_eq_zero.mp none] at member
  exact Finset.notMem_empty txn member

theorem hasDeadlock_of_not_cyclic {detector : DeadLockDetector}
    (acyclic : ¬ Cyclic detector.waitGraph.Edge) : detector.hasDeadlock.1 = some false := by
  obtain ⟨found, after, searched, -, decides, -⟩ := detector.waitGraph.search_decides
  have notFound : found = false := by
    by_contra isFound
    exact acyclic (decides.mp (by simpa using isFound))
  simp [hasDeadlock, lockGuard, Guarded.setMutex, searched, notFound]

/-- From every wait graph, whatever the iteration orders: any number of rounds
returns; a next round that gets a victim takes the largest id of the reported cycle,
which lies on a cycle of the graph at that point, and removes the edges that touch
it and no others; and after as many rounds as the graph had sources, or more,
`HasDeadlock` is false. -/
theorem rounds_resolve_deadlocks (detector : DeadLockDetector)
    (sets : detector.waitGraph.SetValued) (orders : List (Iteration × Iteration)) :
    ∃ current, detector.rounds orders = some current ∧
      (∀ searching cleaning victim,
        (current.iterated searching).getVictim.1 = some (some victim) →
        ∃ next, current.round searching cleaning = some next ∧
          current.RemovesVictim searching victim next) ∧
      (detector.waitGraph.sources.card ≤ orders.length →
        ∀ iteration, (current.iterated iteration).hasDeadlock.1 = some false) := by
  obtain ⟨current, roundsEq, setsCurrent, -, progress⟩ := rounds_spec sets orders
  refine ⟨current, roundsEq, fun searching cleaning victim chosen => ?_, fun enough iteration => ?_⟩
  · obtain ⟨next, roundEq, -, outcome⟩ := round_spec setsCurrent searching cleaning
    refine ⟨next, roundEq, ?_⟩
    rcases outcome with ⟨acyclic, -⟩ | ⟨chosenVictim, chosenEq, removes, -⟩
    · rcases getVictim_spec (current.iterated searching) with
        ⟨noVictim, -⟩ | ⟨-, cycle, -, -, closed, -⟩
      · rw [noVictim] at chosen
        cases chosen
      · rw [edge_iterated] at closed
        exact absurd closed.cyclic acyclic
    · rw [chosenEq] at chosen
      cases chosen
      exact removes
  · refine hasDeadlock_of_not_cyclic ?_
    rw [edge_iterated]
    rcases progress with acyclic | bound
    · exact acyclic
    · exact not_cyclic_of_card_eq_zero (by omega)

/-- Two overlapping cycles, in the order in which they were built: three transactions
have outgoing edges, and three rounds are enough. -/
theorem rounds_resolve_two_cycles :
    ∃ current,
      (run step {} [.addEdge 1 2, .addEdge 2 1, .addEdge 2 3, .addEdge 3 2]).rounds
        (List.replicate 3 (Iteration.asBuilt, Iteration.asBuilt)) = some current ∧
      ∀ iteration, (current.iterated iteration).hasDeadlock.1 = some false := by
  obtain ⟨current, roundsEq, -, resolved⟩ :=
    rounds_resolve_deadlocks
      (run step {} [.addEdge 1 2, .addEdge 2 1, .addEdge 2 3, .addEdge 3 2])
      (setValued_run _) (List.replicate 3 (Iteration.asBuilt, Iteration.asBuilt))
  exact ⟨current, roundsEq, resolved (by decide)⟩

end DeadLockDetector

end MiniDB.Concurrency
