import MiniDB.Foundation.Acyclic
import MiniDB.Foundation.Run
import MiniDB.Concurrency.DeadLockDetector

/-!
# The deadlock search is sound and complete

`Search.Sound` is what the search keeps between two steps: the stack is the path
and a chain of edges, and the vertices left behind are `Finished`. The fuel pays
for one level of recursion per vertex not yet visited, so it never runs out. The
answer does not depend on any iteration order, since the graph is arbitrary.
-/

namespace MiniDB.Concurrency

open Foundation

namespace WaitGraph

variable {graph : WaitGraph}

/-- The entry of a transaction in the table has its edges. -/
theorem mem_valueAt_iff {source target : TxnId} :
    target ∈ graph.valueAt source ↔ graph.Edge source target := by
  unfold UnorderedMap.valueAt Edge
  cases graph.lookup source with
  | none => simp [show (default : List TxnId) = [] from rfl]
  | some successors => simp

/-- A transaction that waits has an entry. -/
theorem Edge.source_mem_keys {source target : TxnId} (edge : graph.Edge source target) :
    source ∈ graph.keys := by
  obtain ⟨successors, found, -⟩ := edge
  exact AList.mem_keys.mp (AList.lookup_isSome.mp (by simp [found]))

/-- A transaction that is waited for is a vertex. -/
theorem Edge.target_mem {source target : TxnId} (edge : graph.Edge source target) :
    target ∈ graph.vertices := by
  obtain ⟨successors, found, member⟩ := edge
  have entry : ⟨source, successors⟩ ∈ graph.entries := AList.mem_lookup_iff.mp found
  simp only [vertices, List.mem_toFinset, List.mem_append, List.mem_flatMap]
  exact Or.inr ⟨_, entry, member⟩

theorem mem_vertices_of_mem_keys {txn : TxnId} (member : txn ∈ graph.keys) :
    txn ∈ graph.vertices := by
  simp only [vertices, List.mem_toFinset, List.mem_append]
  exact Or.inl member

theorem Reorders.refl (graph : WaitGraph) : graph.Reorders graph := by
  intro txn
  cases graph.lookup txn with
  | none => exact .none
  | some successors => exact .some (List.Perm.refl successors)

/-- The same entries in another order. -/
theorem Reorders.of_perm {other : WaitGraph} (perm : graph.entries.Perm other.entries) :
    graph.Reorders other := by
  intro txn
  rw [AList.perm_lookup perm]
  exact Reorders.refl other txn

/-- Reordering a graph does not change its edges. -/
theorem Reorders.edge_iff {other : WaitGraph} (reorders : graph.Reorders other)
    {source target : TxnId} : other.Edge source target ↔ graph.Edge source target := by
  have related := reorders source
  unfold Edge
  generalize graph.lookup source = before at related ⊢
  generalize other.lookup source = after at related ⊢
  cases related with
  | none => rfl
  | some perm => simp [perm.mem_iff]

namespace Search

/-- The vertices the search has entered and left. -/
def done (search : Search) : Set TxnId := {txn | txn ∈ search.visited ∧ txn ∉ search.recStack}

/-- The invariant between two steps of the search. -/
structure Sound (graph : WaitGraph) (search : Search) : Prop where
  onStack : ∀ txn, txn ∈ search.recStack ↔ txn ∈ search.path
  stackVisited : search.recStack ⊆ search.visited
  distinct : search.path.Nodup
  chain : search.path.IsChain graph.Edge
  finished : Finished graph.Edge search.done
  noCycle : search.cycle = []

/-- The number of vertices not yet visited, which bounds the depth to come. -/
def unvisited (graph : WaitGraph) (search : Search) : Nat :=
  (graph.vertices \ search.visited).card

/-- At first nothing is visited. -/
theorem sound_initial : Sound graph {} where
  onStack := by simp
  stackVisited := by simp
  distinct := by simp
  chain := .nil
  finished := by simpa [done] using finished_empty
  noCycle := rfl

/-- Entering a fresh vertex that the top of the stack points to. -/
theorem Sound.enter {search : Search} (sound : search.Sound graph) {node : TxnId}
    (fresh : node ∉ search.visited) (linked : ∀ top ∈ search.path.getLast?, graph.Edge top node) :
    (search.enter node).Sound graph where
  onStack := by
    intro txn
    simp [Search.enter, sound.onStack, or_comm]
  stackVisited := Finset.insert_subset_insert node sound.stackVisited
  distinct := by
    have notOnPath : node ∉ search.path := fun member =>
      fresh (sound.stackVisited ((sound.onStack node).mpr member))
    simpa [Search.enter, List.nodup_append, sound.distinct] using
      fun txn (member : txn ∈ search.path) (same : txn = node) => notOnPath (same ▸ member)
  chain := sound.chain.append (.singleton node) (by simpa using linked)
  finished := by
    have sameDone : (search.enter node).done = search.done := by
      ext txn
      simp only [done, Search.enter, Finset.mem_insert, Set.mem_ofPred_eq]
      constructor
      · rintro ⟨rfl | visited, notStack⟩
        · exact absurd (Or.inl rfl) notStack
        · exact ⟨visited, fun member => notStack (Or.inr member)⟩
      · rintro ⟨visited, notStack⟩
        refine ⟨Or.inr visited, ?_⟩
        rintro (rfl | member)
        · exact fresh visited
        · exact notStack member
    rw [sameDone]
    exact sound.finished
  noCycle := sound.noCycle

/-- Leaving a vertex all of whose successors are done makes it done. -/
theorem Sound.leave {search : Search} (sound : search.Sound graph) {below : List TxnId}
    {node : TxnId} (top : search.path = below ++ [node])
    (successors : ∀ target, graph.Edge node target → target ∈ search.done) :
    (search.leave node).Sound graph ∧ (search.leave node).path = below ∧
      (search.leave node).done = insert node search.done := by
  have onStack : node ∈ search.recStack := (sound.onStack node).mpr (by simp [top])
  have distinct := sound.distinct
  rw [top, List.nodup_append] at distinct
  obtain ⟨belowDistinct, -, apart⟩ := distinct
  have pathEq : (search.leave node).path = below := by simp [Search.leave, top]
  have doneEq : (search.leave node).done = insert node search.done := by
    ext txn
    simp only [done, Search.leave, Finset.mem_erase, Set.mem_ofPred_eq, Set.mem_insert_iff]
    constructor
    · rintro ⟨visited, notStack⟩
      by_cases same : txn = node
      · exact Or.inl same
      · exact Or.inr ⟨visited, fun member => notStack ⟨same, member⟩⟩
    · rintro (rfl | ⟨visited, notStack⟩)
      · exact ⟨sound.stackVisited onStack, fun both => both.1 rfl⟩
      · exact ⟨visited, fun both => notStack both.2⟩
  refine ⟨⟨?_, ?_, ?_, ?_, ?_, sound.noCycle⟩, pathEq, doneEq⟩
  · intro txn
    rw [pathEq]
    simp only [Search.leave, Finset.mem_erase, sound.onStack, top, List.mem_append,
      List.mem_singleton]
    constructor
    · rintro ⟨different, member | same⟩
      · exact member
      · exact absurd same different
    · intro member
      exact ⟨apart txn member node (by simp), Or.inl member⟩
  · exact (Finset.erase_subset node search.recStack).trans sound.stackVisited
  · rw [pathEq]
    exact belowDistinct
  · rw [pathEq]
    exact (top ▸ sound.chain).left_of_append
  · rw [doneEq]
    exact sound.finished.insert (fun inside => inside.2 onStack) successors

/-- A search that is back at the same stack has left everything behind that it had left
behind before. -/
theorem Sound.done_mono {before after : Search} (soundBefore : before.Sound graph)
    (soundAfter : after.Sound graph) (same : after.path = before.path)
    (grows : before.visited ⊆ after.visited) : before.done ⊆ after.done := by
  rintro txn ⟨visited, notStack⟩
  refine ⟨grows visited, fun member => notStack ?_⟩
  rw [soundAfter.onStack, same] at member
  exact (soundBefore.onStack txn).mpr member

/-- An edge from the top of the stack back to the stack closes a cycle. -/
theorem Sound.closedWalk {search : Search} (sound : search.Sound graph) {below : List TxnId}
    {node next : TxnId} (top : search.path = below ++ [node]) (edge : graph.Edge node next)
    (onStack : next ∈ search.recStack) :
    ClosedWalk graph.Edge ((search.close next).leave node).cycle := by
  have chain : (below ++ [node]).IsChain graph.Edge := top ▸ sound.chain
  have member : next ∈ below ++ [node] := top ▸ (sound.onStack next).mp onStack
  change ClosedWalk graph.Edge (search.path.dropWhile (· ≠ next) ++ [next])
  rw [top]
  exact closedWalk_of_chain chain (top ▸ sound.distinct) member edge

/-- The successors that are neither done nor still to be looked at, after one more is done. -/
theorem others_after {node next : TxnId} {rest : List TxnId} {done after : Set TxnId}
    (others : ∀ target, graph.Edge node target → target ∈ next :: rest ∨ target ∈ done)
    (grows : done ⊆ after) (nextDone : next ∈ after) :
    ∀ target, graph.Edge node target → target ∈ rest ∨ target ∈ after := by
  intro target edge
  rcases others target edge with member | inside
  · rcases List.mem_cons.mp member with rfl | member
    · exact Or.inr nextDone
    · exact Or.inl member
  · exact Or.inr (grows inside)

end Search

/-! ## One call of `DFSCycle` -/

open Search

/-- What a call that answers from `before` promises: a found cycle exists, and a
search that goes on is sound, back at the same stack, with `node` left behind. -/
def Answers (graph : WaitGraph) (before : Search) (node : TxnId) (found : Bool) (after : Search) :
    Prop :=
  if found then Cyclic graph.Edge
  else after.Sound graph ∧ after.path = before.path ∧ before.visited ⊆ after.visited ∧
    node ∈ after.done

/-- Visiting more leaves fewer vertices to visit. -/
theorem unvisited_mono {before after : Search} (grows : before.visited ⊆ after.visited) :
    after.unvisited graph ≤ before.unvisited graph :=
  Finset.card_le_card (Finset.sdiff_subset_sdiff subset_rfl grows)

/-- Entering a fresh vertex uses up one unvisited vertex. -/
theorem unvisited_enter {before : Search} {node : TxnId} (vertex : node ∈ graph.vertices)
    (fresh : node ∉ before.visited) :
    (before.enter node).unvisited graph < before.unvisited graph := by
  apply Finset.card_lt_card
  refine ⟨Finset.sdiff_subset_sdiff subset_rfl (Finset.subset_insert node before.visited), ?_⟩
  intro back
  have stillThere := back (Finset.mem_sdiff.mpr ⟨vertex, fresh⟩)
  exact (Finset.mem_sdiff.mp stillThere).2 (Finset.mem_insert_self node before.visited)

/-- A call that found a cycle has written down a closed walk. -/
def Reports (graph : WaitGraph) (found : Bool) (after : Search) : Prop :=
  found = true → ClosedWalk graph.Edge after.cycle

/-- The loop over the successors. `recur` need only answer for searches with no
more unvisited vertices than the fuel, and `rest` must hold every successor of
the top of the stack that is not yet done. -/
theorem dfsSuccessors_answers {recur : TxnId → Search → Option (Bool × Search)} {fuel : Nat}
    (recurAnswers : ∀ node (before : Search), before.Sound graph → node ∉ before.visited →
      node ∈ graph.vertices → (∀ top ∈ before.path.getLast?, graph.Edge top node) →
      before.unvisited graph ≤ fuel →
      ∃ found after, recur node before = some (found, after) ∧ Reports graph found after ∧
        Answers graph before node found after)
    {below : List TxnId} {node : TxnId} {rest : List TxnId} {search : Search}
    (sound : search.Sound graph) (top : search.path = below ++ [node])
    (room : search.unvisited graph ≤ fuel)
    (successors : ∀ target ∈ rest, graph.Edge node target)
    (others : ∀ target, graph.Edge node target → target ∈ rest ∨ target ∈ search.done) :
    ∃ found after, dfsSuccessors recur node rest search = some (found, after) ∧
      Reports graph found after ∧
      if found then Cyclic graph.Edge
      else after.Sound graph ∧ after.path = below ∧ search.visited ⊆ after.visited ∧
        node ∈ after.done := by
  induction rest generalizing search with
  | nil =>
    have allDone : ∀ target, graph.Edge node target → target ∈ search.done := by
      intro target edge
      rcases others target edge with member | inside
      · cases member
      · exact inside
    obtain ⟨soundAfter, pathEq, doneEq⟩ := sound.leave top allDone
    refine ⟨false, search.leave node, rfl, nofun, soundAfter, pathEq, subset_rfl, ?_⟩
    rw [doneEq]
    exact Or.inl rfl
  | cons next rest ih =>
    have edgeNext : graph.Edge node next := successors next (by simp)
    have restSuccessors : ∀ target ∈ rest, graph.Edge node target := fun target member =>
      successors target (List.mem_cons_of_mem next member)
    unfold dfsSuccessors
    by_cases fresh : next ∉ search.visited
    · rw [if_pos fresh]
      have linked : ∀ vertex ∈ search.path.getLast?, graph.Edge vertex next := by
        intro vertex last
        rw [top, List.getLast?_concat] at last
        cases last
        exact edgeNext
      obtain ⟨found, after, returned, reports, answers⟩ :=
        recurAnswers next search sound fresh edgeNext.target_mem linked room
      rw [returned]
      cases found with
      | true => exact ⟨true, after, rfl, reports, answers⟩
      | false =>
        obtain ⟨soundAfter, pathEq, grows, nextDone⟩ := answers
        have othersAfter :=
          others_after others (sound.done_mono soundAfter pathEq grows) nextDone
        obtain ⟨found, final, returnedRest, reportsRest, answersRest⟩ :=
          ih soundAfter (pathEq.trans top) ((unvisited_mono grows).trans room) restSuccessors
            othersAfter
        refine ⟨found, final, returnedRest, reportsRest, ?_⟩
        cases found with
        | true => exact answersRest
        | false =>
          obtain ⟨soundFinal, pathFinal, growsRest, nodeDone⟩ := answersRest
          exact ⟨soundFinal, pathFinal, grows.trans growsRest, nodeDone⟩
    · rw [if_neg fresh]
      by_cases onStack : next ∈ search.recStack
      · rw [if_pos onStack]
        have closed := sound.closedWalk top edgeNext onStack
        exact ⟨true, _, rfl, fun _ => closed, closed.cyclic⟩
      · rw [if_neg onStack]
        have nextDone : next ∈ search.done := ⟨not_not.mp fresh, onStack⟩
        exact ih sound top room restSuccessors (others_after others subset_rfl nextDone)

/-- `DFSCycle` answers whenever the fuel covers the unvisited vertices. -/
theorem dfsCycle_answers (fuel : Nat) :
    ∀ node (before : Search), before.Sound graph → node ∉ before.visited →
      node ∈ graph.vertices → (∀ top ∈ before.path.getLast?, graph.Edge top node) →
      before.unvisited graph ≤ fuel →
      ∃ found after, graph.dfsCycle fuel node before = some (found, after) ∧
        Reports graph found after ∧ Answers graph before node found after := by
  induction fuel with
  | zero =>
    intro node before _ fresh vertex _ room
    have positive : 0 < before.unvisited graph :=
      Finset.card_pos.mpr ⟨node, Finset.mem_sdiff.mpr ⟨vertex, fresh⟩⟩
    omega
  | succ fuel ih =>
    intro node before sound fresh vertex linked room
    have smaller := unvisited_enter vertex fresh
    have top : (before.enter node).path = before.path ++ [node] := rfl
    obtain ⟨found, after, returned, reports, answers⟩ :=
      dfsSuccessors_answers ih (sound.enter fresh linked) top (by omega)
        (fun target member => mem_valueAt_iff.mp member)
        (fun target edge => Or.inl (mem_valueAt_iff.mpr edge))
    refine ⟨found, after, returned, reports, ?_⟩
    cases found with
    | true => exact answers
    | false =>
      obtain ⟨soundAfter, pathEq, grows, nodeDone⟩ := answers
      exact ⟨soundAfter, pathEq, (Finset.subset_insert node before.visited).trans grows, nodeDone⟩

/-! ## The whole search -/

/-- The loop over the roots: a found cycle exists, and a search that finds none
has left every root behind. -/
theorem searchRoots_answers {fuel : Nat} {roots : List TxnId} {before : Search}
    (sound : before.Sound graph) (empty : before.path = [])
    (room : before.unvisited graph ≤ fuel) (vertex : ∀ root ∈ roots, root ∈ graph.vertices) :
    ∃ found after, graph.searchRoots fuel roots before = some (found, after) ∧
      Reports graph found after ∧
      if found then Cyclic graph.Edge
      else after.Sound graph ∧ (∀ root ∈ roots, root ∈ after.done) ∧
        ∀ txn ∈ before.done, txn ∈ after.done := by
  induction roots generalizing before with
  | nil => exact ⟨false, before, rfl, nofun, sound, by simp, fun _ inside => inside⟩
  | cons root rest ih =>
    have restVertex : ∀ txn ∈ rest, txn ∈ graph.vertices := fun txn member =>
      vertex txn (List.mem_cons_of_mem root member)
    have emptyStack : ∀ {search : Search}, search.Sound graph → search.path = [] →
        ∀ txn, txn ∉ search.recStack := by
      intro search soundSearch noPath txn member
      rw [soundSearch.onStack, noPath] at member
      cases member
    unfold searchRoots
    by_cases fresh : root ∉ before.visited
    · rw [if_pos fresh]
      obtain ⟨found, after, returned, reports, answers⟩ :=
        dfsCycle_answers fuel root before sound fresh (vertex root (by simp)) (by simp [empty]) room
      rw [returned]
      cases found with
      | true => exact ⟨true, after, rfl, reports, answers⟩
      | false =>
        obtain ⟨soundAfter, pathEq, grows, rootDone⟩ := answers
        have emptyAfter : after.path = [] := pathEq.trans empty
        obtain ⟨found, final, returnedRest, reportsRest, answersRest⟩ :=
          ih soundAfter emptyAfter ((unvisited_mono grows).trans room) restVertex
        refine ⟨found, final, returnedRest, reportsRest, ?_⟩
        cases found with
        | true => exact answersRest
        | false =>
          obtain ⟨soundFinal, restDone, keeps⟩ := answersRest
          refine ⟨soundFinal, ?_, fun txn inside => keeps txn ?_⟩
          · intro txn member
            rcases List.mem_cons.mp member with rfl | member
            · exact keeps txn rootDone
            · exact restDone txn member
          · exact ⟨grows inside.1, emptyStack soundAfter emptyAfter txn⟩
    · rw [if_neg fresh]
      obtain ⟨found, final, returnedRest, reportsRest, answersRest⟩ :=
        ih sound empty room restVertex
      refine ⟨found, final, returnedRest, reportsRest, ?_⟩
      cases found with
      | true => exact answersRest
      | false =>
        obtain ⟨soundFinal, restDone, keeps⟩ := answersRest
        refine ⟨soundFinal, ?_, keeps⟩
        intro txn member
        rcases List.mem_cons.mp member with rfl | member
        · exact keeps txn ⟨not_not.mp fresh, emptyStack sound empty txn⟩
        · exact restDone txn member

/-- The search ends, finds a cycle exactly when there is one, and writes down a
closed walk if so and nothing otherwise. -/
theorem search_decides (graph : WaitGraph) :
    ∃ found after, graph.search = some (found, after) ∧ Reports graph found after ∧
      (found = true ↔ Cyclic graph.Edge) ∧ (found = false → after.cycle = []) := by
  obtain ⟨found, after, returned, reports, answers⟩ :=
    @searchRoots_answers graph graph.vertices.card graph.keys {} sound_initial rfl
      (by simp [unvisited]) (fun _ member => mem_vertices_of_mem_keys member)
  refine ⟨found, after, returned, reports, ?_⟩
  cases found with
  | true => exact ⟨⟨fun _ => answers, fun _ => rfl⟩, by simp⟩
  | false =>
    obtain ⟨sound, rootsDone, -⟩ := answers
    have acyclic : ¬ Cyclic graph.Edge :=
      sound.finished.not_cyclic fun source _ edge => rootsDone source edge.source_mem_keys
    exact ⟨⟨by simp, fun cyclic => absurd cyclic acyclic⟩, fun _ => sound.noCycle⟩

end WaitGraph

namespace DeadLockDetector

/-- For every sequence of calls on an empty detector and any two iteration orders
of the graph it builds, `HasDeadlock` and `DetectCycle` return, give the same
answer, say whether the graph has a cycle, and leave `cycle` empty if not. -/
theorem detection_decides (calls : List Call) (first second : WaitGraph)
    (firstOrder : (run step {} calls).waitGraph.Reorders first)
    (secondOrder : (run step {} calls).waitGraph.Reorders second) :
    ∃ found cycle,
      (hasDeadlock { run step {} calls with waitGraph := first }).1 = some found ∧
      (detectCycle { run step {} calls with waitGraph := second }).1 = some (found, cycle) ∧
      (found = true ↔ Cyclic (run step {} calls).waitGraph.Edge) ∧
      (found = false → cycle = []) := by
  have sameEdges : ∀ {order : WaitGraph}, (run step {} calls).waitGraph.Reorders order →
      order.Edge = (run step {} calls).waitGraph.Edge := by
    intro order reorders
    funext source target
    exact propext reorders.edge_iff
  obtain ⟨found, after, searched, -, decides, -⟩ := first.search_decides
  obtain ⟨found', after', searched', -, decides', noCycle⟩ := second.search_decides
  rw [sameEdges firstOrder] at decides
  rw [sameEdges secondOrder] at decides'
  have sameAnswer : found' = found := by
    rw [Bool.eq_iff_iff, decides', decides]
  subst sameAnswer
  refine ⟨found', after'.cycle, ?_, ?_, decides, noCycle⟩
  · simp [hasDeadlock, lockGuard, Guarded.setMutex, searched]
  · simp [detectCycle, lockGuard, Guarded.setMutex, searched']

/-- The graph of three transactions that wait for each other in a ring, iterated
in the order in which it was built. -/
theorem detection_decides_ring :
    ∃ found cycle,
      (hasDeadlock { run step {} [.addEdge 1 2, .addEdge 2 3, .addEdge 3 1] with
        waitGraph := (run step {} [.addEdge 1 2, .addEdge 2 3, .addEdge 3 1]).waitGraph }).1 =
          some found ∧
      (detectCycle { run step {} [.addEdge 1 2, .addEdge 2 3, .addEdge 3 1] with
        waitGraph := (run step {} [.addEdge 1 2, .addEdge 2 3, .addEdge 3 1]).waitGraph }).1 =
          some (found, cycle) ∧
      (found = true ↔
        Cyclic (run step {} [.addEdge 1 2, .addEdge 2 3, .addEdge 3 1]).waitGraph.Edge) ∧
      (found = false → cycle = []) :=
  detection_decides _ _ _ (WaitGraph.Reorders.refl _) (WaitGraph.Reorders.refl _)

/-- For every wait graph and every iteration order, `DetectCycle` returns, and the cycle that
it reports is one of the wait graph. -/
theorem detectCycle_real (detector : DeadLockDetector) {order : WaitGraph}
    (reorders : detector.waitGraph.Reorders order) :
    ∃ found cycle, (detectCycle { detector with waitGraph := order }).1 = some (found, cycle) ∧
      (found = true → 2 ≤ cycle.length ∧ cycle.head? = cycle.getLast? ∧ cycle.dropLast.Nodup ∧
        cycle.IsChain detector.waitGraph.Edge) := by
  obtain ⟨found, after, searched, reports, -, -⟩ := order.search_decides
  refine ⟨found, after.cycle, ?_, fun isFound => ?_⟩
  · simp [detectCycle, lockGuard, Guarded.setMutex, searched]
  · have closed := reports isFound
    have chain : after.cycle.IsChain detector.waitGraph.Edge :=
      closed.chain.imp fun _ _ edge => reorders.edge_iff.mp edge
    obtain ⟨start, middle, shape, distinct⟩ := closed.closes
    rw [shape] at chain ⊢
    refine ⟨by simp, ?_, ?_, chain⟩
    · rw [List.getLast?_concat]
      rfl
    · rwa [List.dropLast_concat]

/-- The ring of three transactions, with its entries in another order. -/
theorem detectCycle_real_ring :
    ∃ found cycle,
      (detectCycle { waitGraph := (run step {} [.addEdge 2 3, .addEdge 3 1, .addEdge 1 2]).waitGraph
        }).1 = some (found, cycle) ∧
      (found = true → 2 ≤ cycle.length ∧ cycle.head? = cycle.getLast? ∧ cycle.dropLast.Nodup ∧
        cycle.IsChain (run step {} [.addEdge 1 2, .addEdge 2 3, .addEdge 3 1]).waitGraph.Edge) :=
  detectCycle_real (run step {} [.addEdge 1 2, .addEdge 2 3, .addEdge 3 1])
    (WaitGraph.Reorders.of_perm (by decide))

end DeadLockDetector

end MiniDB.Concurrency
