import MiniDB.Index.IndexIterator
import MiniDB.Index.LeafRemove
import MiniDB.Index.TreeSearch

/-!
# The iterator on a chain of leaves

`Begin` hands out an iterator on the first leaf. It delivers the entries of that leaf
in order. At the end of the leaf it notes the id of the next page, but its pointer
still leads to the first leaf; at the end of the last one it is marked as the end, but
it keeps its tree, which the iterator of `End` does not have.
-/

namespace MiniDB.Index

open Foundation Buffer PoolProgram Storage

/-- A chain of leaves that are not empty, from a page on, with the entries of each. -/
inductive Chained (contents : Int → Bytes) : (pageId : Int) → List (List Entry) → Prop where
  | last {pageId link : Int} {entries : List Entry}
      (leaf : WellFormedLeaf (contents pageId) entries link) (nonempty : entries ≠ [])
      (ends : link < 0) : Chained contents pageId [entries]
  | next {pageId next : Int} {entries : List Entry} {rest : List (List Entry)}
      (leaf : WellFormedLeaf (contents pageId) entries next) (nonempty : entries ≠ [])
      (goesOn : 0 ≤ next) (chained : Chained contents next rest) :
      Chained contents pageId (entries :: rest)

namespace IndexIterator

variable {D : Type} [Disk D] {pool : BufferPool D} {iterator : IndexIterator}

/-- Take entries with `GetKey` and `GetRID`, and `operator++` after each. -/
def deliver : (count : Nat) → IndexIterator → PoolProgram (List Entry × IndexIterator)
  | 0, iterator => return ([], iterator)
  | count + 1, iterator => do
    let key ← iterator.getKey
    let rid ← iterator.getRid
    let iterator ← iterator.advance
    let (rest, iterator) ← deliver count iterator
    return ((key, rid) :: rest, iterator)

theorem hasTree_stepped (iterator : IndexIterator) (data : Bytes) :
    (iterator.stepped data).hasTree = iterator.hasTree := by
  unfold stepped
  dsimp only
  split
  · split <;> rfl
  · rfl

theorem hasTree_advance (iterator : IndexIterator) (pool : BufferPool D) :
    (run iterator.advance pool).1.hasTree = iterator.hasTree := by
  unfold advance
  split
  · exact hasTree_stepped iterator _
  · rfl

/-- However far it is moved, the iterator keeps its tree. -/
theorem hasTree_deliver (count : Nat) (iterator : IndexIterator) (pool : BufferPool D) :
    (run (deliver count iterator) pool).1.2.hasTree = iterator.hasTree := by
  induction count generalizing iterator pool with
  | zero => rfl
  | succ count ih =>
    simp only [deliver, run_bind, run_pure]
    rw [ih, hasTree_advance]

/-- An iterator with a tree is not the one of `End`. -/
theorem equals_finish_of_hasTree (hasTree : iterator.hasTree = true) :
    iterator.equals BPlusTree.finish = false := by
  simp [equals, BPlusTree.finish, hasTree]

/-- The iterator at a position of a leaf. -/
abbrev inLeaf (frame : Nat) (pageId : Int) (index : Nat) : IndexIterator :=
  { hasTree := true, currentLeafPage := some frame, currentKeyIndex := index, currentPageId := pageId
    isEnd := false }

/-- The iterator behind the last entry of a leaf. -/
def behindLeaf (frame : Nat) (pageId link : Int) (size : Nat) : IndexIterator :=
  if 0 ≤ link then inLeaf frame link 0
  else { inLeaf frame pageId size with isEnd := true }

variable {frame : Nat} {pageId link : Int} {front back : List Entry}

/-- The iterator delivers the rest of its leaf. -/
theorem run_deliver_leaf (leaf : WellFormedLeaf (pool.pageAt frame).data (front ++ back) link)
    (nonempty : back ≠ []) :
    run (deliver back.length (inLeaf frame pageId front.length)) pool =
      ((back, behindLeaf frame pageId link (front ++ back).length), pool) := by
  induction back generalizing front with
  | nil => exact absurd rfl nonempty
  | cons entry back ih =>
    have size := leaf.parts.2.1
    have linkAt := leaf.parts.2.2.2.2
    have inside : ((front.length : Nat) : Int) < (front ++ entry :: back).length := by
      simp only [List.length_append, List.length_cons]
      omega
    have index : ¬ ((front.length : Nat) : Int) < 0 := by omega
    have key : run (inLeaf frame pageId front.length).getKey pool = (entry.1, pool) := by
      simp only [getKey, if_neg index, run_bind, run_getData, size, if_pos inside, run_pure,
        leaf.keyAt_eq]
    have rid : run (inLeaf frame pageId front.length).getRid pool = (entry.2, pool) := by
      simp only [getRid, if_neg index, run_bind, run_getData, size, if_pos inside, run_pure,
        leaf.ridAt_eq]
    have after : (front.length : Int) + 1 = (front.length + 1 : Nat) := by omega
    have linkPlace : (2 : Int) + (front ++ entry :: back).length +
        (front ++ entry :: back).length * 2 = (2 + 3 * (front ++ entry :: back).length : Nat) := by
      omega
    have linkRead : intAt (pool.pageAt frame).data (2 + 3 * (front ++ entry :: back).length : Nat) =
        link := linkAt
    have moved : run (inLeaf frame pageId front.length).advance pool =
        (if back = [] then behindLeaf frame pageId link (front ++ entry :: back).length
          else inLeaf frame pageId (front.length + 1), pool) := by
      simp only [advance, run_bind, run_getData, run_pure, stepped, size, after, linkPlace, linkRead]
      cases back with
      | nil =>
        simp only [List.length_append, List.length_singleton, Int.le_refl, if_true, behindLeaf]
        split <;> rfl
      | cons other back =>
        have later : ¬ ((front ++ entry :: other :: back).length : Int) ≤ (front.length + 1 : Nat) := by
          simp only [List.length_append, List.length_cons]
          omega
        rw [if_neg later, if_neg (List.cons_ne_nil _ _)]
    simp only [List.length_cons, deliver, run_bind, key, rid, moved, run_pure]
    cases back with
    | nil => rfl
    | cons other back =>
      have cut : front ++ entry :: other :: back = (front ++ [entry]) ++ other :: back := by simp
      have rest := @ih (front ++ [entry]) (cut ▸ leaf) (List.cons_ne_nil _ _)
      rw [← cut, List.length_append, List.length_singleton] at rest
      rw [if_neg (List.cons_ne_nil _ _), rest]

end IndexIterator

namespace BPlusTree

open IndexIterator

variable {D : Type} [Disk D] {pool : BufferPool D} {tree : BPlusTree} {fuel : Nat}

/-- What an iteration from `Begin` is for: the entries of all leaves, and then `End`. -/
def IteratesChain (tree : BPlusTree) (fuel : Nat) (pool : BufferPool D) (leaves : List (List Entry)) :
    Prop :=
  let began := run (tree.begin fuel) pool
  ∀ found, began.1.1 = some found →
    let delivered := (run (deliver leaves.flatten.length (atLeaf found)) began.2).1
    delivered.1 = leaves.flatten ∧ delivered.2.equals finish = true

/-- From an iterator on a leaf, `End` is never reached. -/
theorem not_iteratesChain {found : Nat × Int}
    (onLeaf : (run (tree.begin fuel) pool).1.1 = some (some found)) (leaves : List (List Entry)) :
    ¬ tree.IteratesChain fuel pool leaves := by
  intro iterates
  have ends := (iterates _ onLeaf).2
  have different := equals_finish_of_hasTree
    ((hasTree_deliver leaves.flatten.length (atLeaf (some found)) (run (tree.begin fuel) pool).2).trans
      rfl)
  rw [different] at ends
  cases ends

/-- On every chain of leaves, the iterator that `Begin` returns on the first leaf
delivers the entries of that leaf, but there is no number of steps after which it has
delivered the chain and compares equal to `End`. -/
theorem begin_delivers_first_leaf_only {frame : Nat} {pageId : Int} {contents : Int → Bytes}
    {first : List Entry} {rest : List (List Entry)}
    (onLeaf : (run (tree.begin fuel) pool).1.1 = some (some (frame, pageId)))
    (held : contents pageId = ((run (tree.begin fuel) pool).2.pageAt frame).data)
    (chained : Chained contents pageId (first :: rest)) :
    (run (deliver first.length (atLeaf (some (frame, pageId))))
        (run (tree.begin fuel) pool).2).1.1 = first ∧
      ¬ tree.IteratesChain fuel pool (first :: rest) := by
  refine ⟨?_, not_iteratesChain onLeaf _⟩
  have exists_leaf : ∃ link, WellFormedLeaf (contents pageId) first link ∧ first ≠ [] := by
    cases chained with
    | last leaf nonempty ends => exact ⟨_, leaf, nonempty⟩
    | next leaf nonempty goesOn chained => exact ⟨_, leaf, nonempty⟩
  obtain ⟨link, leaf, nonempty⟩ := exists_leaf
  rw [held] at leaf
  have delivered := @run_deliver_leaf _ _ _ frame pageId link [] first leaf nonempty
  exact congrArg (fun outcome => outcome.1.1) delivered

/-- Two leaves of one entry each, the second one on page 1. -/
def twoLeaves (pageId : Int) : Bytes :=
  if pageId = 0 then leafPageOf [(1, twice 2)] 1 else leafPageOf [(3, twice 4)] (-1)

/-- A pool of one frame over a disk with the two leaves. -/
def poolOfTwoLeaves : BufferPool IdealDisk := .new 1 (.start 2 twoLeaves) .noop

theorem chained_twoLeaves : Chained twoLeaves 0 [[(1, twice 2)], [(3, twice 4)]] :=
  .next (wellFormed_leafPageOf (by decide) (by decide) (by decide)) (by simp) (by decide)
    (.last (wellFormed_leafPageOf (by decide) (by decide) (by decide)) (by simp) (by decide))

/-- `Begin` is on the first leaf. -/
theorem begin_twoLeaves :
    (run (treeOnPage.begin 1) poolOfTwoLeaves).1.1 = some (some (0, 0)) := by
  decide +kernel

/-- Of two leaves the first one is delivered, and the iteration over both does not end. -/
theorem begin_delivers_first_leaf_only_two :
    (run (deliver 1 (atLeaf (some (0, 0))))
        (run (treeOnPage.begin 1) poolOfTwoLeaves).2).1.1 = [(1, twice 2)] ∧
      ¬ treeOnPage.IteratesChain 1 poolOfTwoLeaves [[(1, twice 2)], [(3, twice 4)]] :=
  begin_delivers_first_leaf_only begin_twoLeaves rfl chained_twoLeaves

-- Behind the first leaf its entry comes again.
example : (run (deliver 2 (atLeaf (some (0, 0))))
    (run (treeOnPage.begin 1) poolOfTwoLeaves).2).1.1 = [(1, twice 2), (1, twice 2)] := by
  decide +kernel

/-- The entry 1 with the RID (2, 2) on a leaf of its own. -/
def singleEntryPage : Bytes := leafPageOf [(1, twice 2)] (-1)

theorem chained_singleEntry :
    Chained (fun _ => singleEntryPage) 0 [[(1, twice 2)]] :=
  .last (wellFormed_leafPageOf (by decide) (by decide) (by decide)) (by simp) (by decide)

theorem begin_singleEntry :
    (run (treeOnPage.begin 1) (poolOf singleEntryPage)).1.1 = some (some (0, 0)) := by
  decide +kernel

/-- The iteration over one entry has delivered it after one step, and is not at the
end. -/
theorem single_entry_never_ends :
    ¬ ∀ (tree : BPlusTree) (fuel : Nat) (pool : BufferPool IdealDisk) (frame : Nat) (pageId : Int)
      (contents : Int → Bytes) (leaves : List (List Entry)),
        (run (tree.begin fuel) pool).1.1 = some (some (frame, pageId)) →
        contents pageId = ((run (tree.begin fuel) pool).2.pageAt frame).data →
        Chained contents pageId leaves → tree.IteratesChain fuel pool leaves := by
  intro iterates
  exact not_iteratesChain begin_singleEntry _
    (iterates treeOnPage 1 (poolOf singleEntryPage) 0 0 _ _ begin_singleEntry rfl chained_singleEntry)

end BPlusTree

end MiniDB.Index
