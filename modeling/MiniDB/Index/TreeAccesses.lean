import MiniDB.Index.CellBounds
import MiniDB.Index.CellTree
import MiniDB.Index.InsertAtomicity

/-!
# The accesses of a tree

Every `int` that the tree uses lies inside its page as long as no leaf has more entries
than the writes of `InsertIntoLeaf` leave room for. A tree whose leaves are made no larger
than that keeps to it in every run, and the first size beyond does not: a leaf of 341
equal keys is read at index 1024.
-/

namespace MiniDB.Index

open Foundation Buffer Storage

namespace TreeProgram

variable {pool : BufferPool IdealDisk} {pages : Pages} {pins : List ClientPin} {tree : BPlusTree}
  {leaves : List Int} {pageId key : Int} {fuel frame : Nat}

/-- The latch of the tree makes no access. -/
theorem below_guarded {Result : Type} {limit : Int} {body : BPlusTree → TreeProgram (Result × BPlusTree)} :
    Below limit (guarded body tree) pool ↔
      Below limit (body { tree with latch := tree.latch.lock }) pool := by
  simp [guarded]

/-! ## The descent -/

/-- The bytes behind the pointer of a pin. -/
theorem data_held (shows : pool.ShowsPages pages ({ pageId, frame } :: pins)) :
    (pool.pageAt frame).data = pages.contents pageId :=
  (shows.pageAt_eq List.mem_cons_self).2

/-- `IsLeaf` reads the first `int`. -/
theorem below_isLeaf {memory : Unit → Bytes} :
    (CellProgram.isLeaf ()).Below 1024 memory := by
  simp [CellProgram.isLeaf]

/-- A descent that begins on a leaf stays inside it. -/
theorem below_descend_leaf (shows : pool.ShowsPages pages pins) (leafOn : LeafOn pages pageId)
    (leftMost : Bool) (fuel : Nat) :
    Below 1024 (descend key leftMost fuel pageId) pool := by
  cases fuel with
  | zero => simp [descend]
  | succ fuel =>
    rw [descend, below_bind, below_onPool, run_onPool, PoolProgram.run_fetchPage]
    refine ⟨trivial, ?_⟩
    rcases shows.fetchPage leafOn.allocated with ⟨refused, -⟩ | ⟨frame, fetched, held⟩
    · rw [refused]
      simp
    · rw [fetched]
      simp only [below_bind, below_look, below_isLeaf, run_look, CellProgram.run_isLeaf, data_held held,
        leafOn.leafPage.isLeaf, if_true, below_pure, true_and]

/-- A descent stays inside the pages of the tree. -/
theorem below_descend (shows : pool.ShowsPages pages pins)
    (rooted : Rooted pages tree.rootPageId leaves) (exists_root : tree.rootPageId ≠ -1)
    (leftMost : Bool) :
    Below 1024 (descend key leftMost fuel tree.rootPageId) pool := by
  cases rooted with
  | empty noRoot => exact absurd noRoot exists_root
  | leaf leafOn => exact below_descend_leaf shows leafOn leftMost fuel
  | @node oldPageId middleKey newPageId keyInt newInt allocated root new zero different =>
    cases fuel with
    | zero => simp [descend]
    | succ fuel =>
      rw [descend, below_bind, below_onPool, run_onPool, PoolProgram.run_fetchPage]
      refine ⟨trivial, ?_⟩
      rcases shows.fetchPage allocated with ⟨refused, -⟩ | ⟨frame, fetched, held⟩
      · rw [refused]
        simp
      · have one : intAt (pages.contents tree.rootPageId) 1 = 1 := by
          rw [root]
          simp (disch := decide) only [rootOver, intAt_setInt_of_ne, intAt_setInt_self]
        have isNode : isLeaf (pages.contents tree.rootPageId) = false := by
          rw [root, isLeaf_rootOver]
        have childEq := @childAt_rootOver oldPageId _ _ keyInt newInt key leftMost
        rw [← root, childAt] at childEq
        have released := @BufferPool.ShowsPages.unpinPage _ _ _ _ false held (by simp)
        have below : ∀ {child}, LeafOn pages child → Below 1024 (descend key leftMost fuel child)
            ((pool.fetchPage tree.rootPageId).2.unpinPage tree.rootPageId false).2 :=
          fun leafOn => below_descend_leaf released leafOn leftMost fuel
        rw [fetched]
        simp only [below_bind, below_look, below_isLeaf, run_look, CellProgram.run_isLeaf,
          data_held held, isNode, Bool.false_eq_true, if_false, CellProgram.run_child, childEq,
          run_onPool, PoolProgram.run_unpinPage, below_onPool, true_and]
        refine ⟨CellProgram.below_child one, ?_⟩
        split
        · exact below zero
        · exact below new

/-! ## The operations -/

/-- The descent of an operation, and where it leads. -/
theorem below_findLeafPage (shows : pool.ShowsPages pages [])
    (rooted : Rooted pages tree.rootPageId leaves) (exists_root : tree.rootPageId ≠ -1) :
    Below 1024 (findLeafPage { tree with latch := tree.latch.lock } fuel key false) pool ∧
      ∀ {frame after}, PoolProgram.run
          (BPlusTree.findLeafPage { tree with latch := tree.latch.lock } fuel key false) pool =
            (.leaf frame, after) →
        ∃ leaf ∈ leaves, after.ShowsPages pages [{ pageId := leaf, frame }] := by
  refine ⟨?_, fun {frame after} ends => ?_⟩
  · rw [findLeafPage, if_neg exists_root]
    exact below_descend shows rooted exists_root false
  · have finds := @finds_locked _ idealService pool _ _ _ shows rooted fuel key exists_root
    rw [run_idealService, ends] at finds
    cases finds with
    | leaf found held => exact ⟨_, rooted.mem_of_route exists_root found, held⟩

/-- `GetValue` stays inside the pages of the tree. -/
theorem below_getValue (shows : pool.ShowsPages pages [])
    (rooted : Rooted pages tree.rootPageId leaves) (result : List RID) :
    Below 1024 (getValue fuel key result tree) pool := by
  rw [getValue, below_guarded]
  by_cases empty : tree.rootPageId = -1
  · simp [empty]
  · obtain ⟨below, leads⟩ := @below_findLeafPage _ _ _ _ key fuel shows rooted empty
    simp only [empty, if_false, below_bind, run_findLeafPage]
    refine ⟨below, ?_⟩
    rcases ends : PoolProgram.run (BPlusTree.findLeafPage _ fuel key false) pool with ⟨descent, after⟩
    cases descent with
    | unfinished => simp
    | null => simp
    | leaf frame =>
      obtain ⟨leaf, member, held⟩ := leads ends
      simp only [below_bind, below_look, below_onPool, below_pure, data_held held, and_true]
      exact CellProgram.below_collect (rooted.leafOn member).leafPage

/-- `InsertIntoParent` stays inside the new root. -/
theorem below_insertIntoParent (oldFrame newFrame : Nat) :
    Below 1024 (insertIntoParent tree oldFrame key newFrame) pool := by
  simp only [insertIntoParent, below_bind, below_onPool, true_and]
  split
  · simp only [below_bind, below_onPool, true_and]
    split
    · simp
    · simp [CellProgram.below_rootOver]
  · simp

/-- The first insertion stays inside its leaf. -/
theorem below_insertRoot (value : RID) : Below 1024 (insertRoot tree key value) pool := by
  simp only [insertRoot, below_bind, below_onPool, true_and]
  split
  · simp
  · simp [CellProgram.below_rootLeaf]

/-- An insertion that splits a leaf stays inside the two halves. -/
theorem below_insertSplit (shows : pool.ShowsPages pages [{ pageId, frame }])
    (leafOn : LeafOn pages pageId) (value : RID) :
    Below 1024 (insertSplit tree frame key value) pool := by
  have different : Half.old ≠ Half.new := by decide
  simp only [insertSplit, below_bind, below_onPool, run_onPool, PoolProgram.run_newPage, true_and]
  rcases shows.newPage with ⟨refused, -⟩ | ⟨newFrame, made, held⟩
  · rw [refused]
    simp
  · have both := idealService.perm held (List.Perm.swap _ _ _)
    have read := data_held both
    rw [Pages.contents_add_of_ne leafOn.allocated.ne_next] at read
    rw [made]
    simp only [below_bind, below_changeBoth, below_insertIntoParent, below_onPool, below_pure, and_true]
    refine CellProgram.below_splitInsert different ?_
    rw [Half.data, read]
    exact leafOn.leafPage

/-- `Insert` stays inside the pages of the tree. -/
theorem below_insert (shows : pool.ShowsPages pages [])
    (rooted : Rooted pages tree.rootPageId leaves) (value : RID) :
    Below 1024 (insert fuel key value tree) pool := by
  rw [insert, below_guarded]
  by_cases empty : tree.rootPageId = -1
  · simp [empty, below_insertRoot]
  · obtain ⟨below, leads⟩ := @below_findLeafPage _ _ _ _ key fuel shows rooted empty
    simp only [empty, if_false, below_bind, run_findLeafPage]
    refine ⟨below, ?_⟩
    rcases ends : PoolProgram.run (BPlusTree.findLeafPage _ fuel key false) pool with ⟨descent, after⟩
    cases descent with
    | unfinished => simp
    | null => simp
    | leaf frame =>
      obtain ⟨leaf, member, held⟩ := leads ends
      have leafOn := rooted.leafOn member
      simp only [below_bind, below_look, run_look]
      refine ⟨by simp, ?_⟩
      split
      · simp only [below_bind, below_change, below_onPool, below_pure, data_held held, and_true]
        exact CellProgram.below_insertIntoLeaf leafOn.leafPage
      · exact below_insertSplit held leafOn value

/-- `CoalesceOrRedistribute` stays inside the leaf. -/
theorem below_coalesceOrRedistribute : Below 1024 (coalesceOrRedistribute tree frame) pool := by
  simp only [coalesceOrRedistribute, below_bind, below_look, run_look, below_onPool, true_and]
  refine ⟨by simp, ?_⟩
  split
  · simp only [adjustRoot, below_bind, below_look, run_look, below_isLeaf, CellProgram.run_read,
      CellProgram.below_read, true_and]
    refine ⟨by decide, ?_⟩
    split
    · next isEmpty =>
      split
      · simp
      · have size : intAt (pool.pageAt frame).data 1 = 0 := isEmpty
        simp [size]
    · simp
  · simp [below_isLeaf]

/-- `Remove` stays inside the pages of the tree. -/
theorem below_remove (shows : pool.ShowsPages pages [])
    (rooted : Rooted pages tree.rootPageId leaves) :
    Below 1024 (remove fuel key tree) pool := by
  rw [remove, below_guarded]
  by_cases empty : tree.rootPageId = -1
  · simp [empty]
  · obtain ⟨below, leads⟩ := @below_findLeafPage _ _ _ _ key fuel shows rooted empty
    simp only [empty, if_false, below_bind, run_findLeafPage]
    refine ⟨below, ?_⟩
    rcases ends : PoolProgram.run (BPlusTree.findLeafPage _ fuel key false) pool with ⟨descent, after⟩
    cases descent with
    | unfinished => simp
    | null => simp
    | leaf frame =>
      obtain ⟨leaf, member, held⟩ := leads ends
      have leafPage := (rooted.leafOn member).leafPage
      have bounds := leafPage.binarySearch_bounds key
      simp only [below_bind, below_look, run_look, CellProgram.run_findEntry, data_held held]
      refine ⟨CellProgram.below_findEntry leafPage, ?_⟩
      by_cases absent : BPlusTree.Absent (pages.contents leaf) key
      · rw [if_pos absent]
        simp
      · have positive : binarySearch (pages.contents leaf) key ≠ 0 := fun isZero => absent (.inl isZero)
        rw [if_neg absent]
        simp only [below_bind, below_change, below_onPool, below_coalesceOrRedistribute, below_pure,
          data_held held, and_true]
        exact CellProgram.below_removeFromLeaf leafPage (by omega) (by omega)

/-- A call, with its answer put in words. -/
def perform (fuel : Nat) (tree : BPlusTree) : TreeCall → TreeProgram (TreeAnswer × BPlusTree)
  | .insert key rid _ _ => do
    let (answer, tree) ← insert fuel key rid tree
    return ((answer.map .inserted).getD .unfinished, tree)
  | .remove key _ => do
    let (answer, tree) ← remove fuel key tree
    return ((answer.map .removed).getD .unfinished, tree)
  | .getValue key _ result => do
    let (answer, tree) ← getValue fuel key result tree
    return ((answer.map fun found => .found found.1 found.2).getD .unfinished, tree)

/-- A call by accesses is the call. -/
theorem run_perform (pool : BufferPool IdealDisk) (tree : BPlusTree) (fuel : Nat) (call : TreeCall) :
    run (perform fuel tree call) pool = PoolProgram.run (tree.perform fuel call) pool := by
  cases call with
  | insert key rid keyInt ridInt =>
    simp only [perform, BPlusTree.perform, run_bind, PoolProgram.run_bind, run_insert, run_pure,
      PoolProgram.run_pure]
  | remove key keyInt =>
    simp only [perform, BPlusTree.perform, run_bind, PoolProgram.run_bind, run_remove, run_pure,
      PoolProgram.run_pure]
  | getValue key keyInt result =>
    simp only [perform, BPlusTree.perform, run_bind, PoolProgram.run_bind, run_getValue, run_pure,
      PoolProgram.run_pure]

/-- Every call stays inside the pages of the tree. -/
theorem below_perform (shows : pool.ShowsPages pages [])
    (rooted : Rooted pages tree.rootPageId leaves) (call : TreeCall) :
    Below 1024 (perform fuel tree call) pool := by
  cases call with
  | insert key rid keyInt ridInt => simp [perform, below_insert shows rooted]
  | remove key keyInt => simp [perform, below_remove shows rooted]
  | getValue key keyInt result => simp [perform, below_getValue shows rooted]

end TreeProgram

/-! ## Runs of a tree that is alone in its pool -/

namespace IdealTree

/-- The state after a call, cell by cell. -/
def after (fuel : Nat) (state : IdealTree) (call : TreeCall) : IdealTree :=
  let outcome := TreeProgram.run (TreeProgram.perform fuel state.tree call) state.pool
  { tree := outcome.1.2, pool := outcome.2 }

/-- Every index that is used on the data of a page is below `PAGE_SIZE / 4`. -/
def AccessesInside (fuel : Nat) (state : IdealTree) (call : TreeCall) : Prop :=
  (TreeProgram.perform fuel state.tree call).Below 1024 state.pool

/-- The page counter of the disk is an `int`. -/
def CountsPages (state : IdealTree) (_ : TreeCall) : Prop :=
  IsInt state.pool.frames.disk.nextPageId

/-- The tree has its shape, with leaves that fit in a page; the first page is a leaf. -/
structure Alone (state : IdealTree) (pages : Pages) (leaves : List Int) : Prop where
  shows : state.pool.ShowsPages pages []
  rooted : Rooted pages state.tree.rootPageId leaves
  small : state.tree.leafMaxSize ≤ leafCapacity
  first : 0 < pages.nextPageId → LeafOn pages 0

variable {state : IdealTree} {pages : Pages} {leaves : List Int} {key : Int} {value : RID} {fuel : Nat}

/-- A split leaves the tree alone on its pages. -/
theorem Alone.splits {leaf : Int} {tree : BPlusTree} {pattern : List PageAnswer}
    {outcome : (Option Bool × BPlusTree) × BufferPool IdealDisk}
    (rooted : Rooted pages tree.rootPageId leaves) (small : tree.leafMaxSize ≤ leafCapacity)
    (first : 0 < pages.nextPageId → LeafOn pages 0) (member : leaf ∈ leaves)
    (idInt : IsInt pages.nextPageId)
    (splits : BPlusTree.Splits idealService pages [] leaf tree key value pattern outcome) :
    ∃ after leaves, Alone { tree := outcome.1.2, pool := outcome.2 } after leaves := by
  have leafOn := rooted.leafOn member
  have some : 0 < pages.nextPageId := Int.lt_of_le_of_lt leafOn.allocated.1 leafOn.allocated.2
  have zero : LeafOn (BPlusTree.splitPages pages leaf key value) 0 := leafOn.split (first some)
  cases splits with
  | refused shows => exact ⟨_, _, shows, rooted, small, first⟩
  | notRoot different shows => exact ⟨_, _, shows, rooted.split leafOn, small, fun _ => zero⟩
  | rootRefused isRoot shows => exact ⟨_, _, shows, rooted.split leafOn, small, fun _ => zero⟩
  | root isRoot shows =>
    exact ⟨_, _, shows, Rooted.splitRoot leafOn idInt zero, small, fun _ => zero.writeNew⟩

/-- So does an insertion. -/
theorem Alone.inserts {target : Option Int} {pattern : List PageAnswer}
    {outcome : (Option Bool × BPlusTree) × BufferPool IdealDisk} (alone : state.Alone pages leaves)
    (idInt : IsInt pages.nextPageId)
    (reached : state.tree.rootPageId ≠ -1 → ∀ leaf, target = some leaf → leaf ∈ leaves)
    (inserts : BPlusTree.Inserts idealService pages [] target state.tree key value pattern outcome) :
    ∃ after leaves, Alone { tree := outcome.1.2, pool := outcome.2 } after leaves := by
  obtain ⟨shows, rooted, small, first⟩ := alone
  have nonneg := idealService.nonneg shows
  cases inserts with
  | rootRefused empty shows => exact ⟨_, _, shows, rooted, small, first⟩
  | newRoot empty shows =>
    have leafOn := @LeafOn.new pages _ nonneg (leafPage_rootLeaf Bytes.zeros key value)
    refine ⟨_, _, shows, .leaf leafOn, small, fun _ => ?_⟩
    by_cases isFirst : pages.nextPageId = 0
    · exact isFirst ▸ leafOn
    · exact (first (by omega)).writeNew
  | missed exists_root missed shows => exact ⟨_, _, shows, rooted, small, first⟩
  | unfinished exists_root nowhere shows => exact ⟨_, _, shows, rooted, small, first⟩
  | @room _ _ leaf exists_root found _ room shows =>
    have leafOn := rooted.leafOn (reached exists_root leaf found)
    have leafPage := leafOn.leafPage.insertIntoLeaf (by omega) key value
    exact ⟨_, _, shows, rooted.setLeaf leafOn leafPage, small, fun some => (first some).write leafPage⟩
  | @full fetches pattern answer grown after leaf exists_root found served full splits =>
    have locked : Rooted pages { state.tree with latch := state.tree.latch.lock }.rootPageId leaves :=
      rooted
    obtain ⟨pages, leaves, shows, rooted, small, first⟩ :=
      Alone.splits locked small first (reached exists_root leaf found) idInt splits
    exact ⟨pages, leaves, shows, rooted, small, first⟩

/-- So does an operation that keeps the shape. -/
theorem Alone.kept {Result : Type} {outcome : (Result × BPlusTree) × BufferPool IdealDisk}
    (alone : state.Alone pages leaves)
    (keeps : KeepsShape idealService pages state.tree outcome) :
    ∃ after leaves, Alone { tree := outcome.1.2, pool := outcome.2 } after leaves := by
  obtain ⟨after, leaves, shows, rooted, same, count, kept⟩ := keeps
  exact ⟨after, leaves, shows, rooted, same ▸ alone.small, fun some =>
    kept 0 (alone.first (count ▸ some))⟩

/-- So does every call. -/
theorem Alone.after (alone : state.Alone pages leaves) (call : TreeCall)
    (counts : state.CountsPages call) :
    ∃ pages leaves, (state.after (fuel + 2) call).Alone pages leaves := by
  have idInt : IsInt pages.nextPageId := alone.shows.next ▸ counts
  rw [IdealTree.after, TreeProgram.run_perform]
  cases call with
  | insert key value keyInt valueInt =>
    have inserts := @BPlusTree.inserts_insert _ idealService state.pool pages [] state.tree key value
      (fuel + 2) alone.shows fun exists_root => alone.rooted.routeExists exists_root key false (fuel + 2)
    have next := alone.inserts idInt
      (fun exists_root leaf found => alone.rooted.mem_of_route exists_root found) inserts
    simp only [BPlusTree.perform, PoolProgram.run_bind, PoolProgram.run_pure]
    exact next
  | remove key keyInt =>
    have next := alone.kept (@keepsShape_remove _ idealService state.pool _ _ _ alone.shows alone.rooted
      (fuel + 2) key)
    simp only [BPlusTree.perform, PoolProgram.run_bind, PoolProgram.run_pure]
    exact next
  | getValue key keyInt result =>
    have next := alone.kept (@keepsShape_getValue _ idealService state.pool _ _ _ alone.shows
      alone.rooted (fuel + 2) key result)
    simp only [BPlusTree.perform, PoolProgram.run_bind, PoolProgram.run_pure]
    exact next

/-- A tree whose leaves are made no larger than a page can take. -/
theorem eachCall_accessesInside {leafMaxSize internalMaxSize : Int} (small : leafMaxSize ≤ leafCapacity)
    (poolSize : Nat) (initial : Int → Bytes) (calls : List TreeCall)
    (counts : EachCall (after (fuel + 2)) CountsPages
      (start leafMaxSize internalMaxSize poolSize 0 initial) calls) :
    EachCall (after (fuel + 2)) (AccessesInside (fuel + 2))
      (start leafMaxSize internalMaxSize poolSize 0 initial) calls := by
  have alone : Alone (start leafMaxSize internalMaxSize poolSize 0 initial)
      { nextPageId := 0, contents := (IdealDisk.start 0 initial).bytes } [] :=
    ⟨showsPages_new poolSize 0 initial, .empty rfl, small, fun some => absurd some (Int.lt_irrefl 0)⟩
  refine @EachCall.imp _ _ (after (fuel + 2)) _ (fun state => ∃ pages leaves, state.Alone pages leaves)
    _ ?_ ?_ _ _ ⟨_, _, alone⟩ counts
  · rintro state call ⟨pages, leaves, alone⟩ counts
    exact alone.after call counts
  · rintro state call ⟨pages, leaves, alone⟩ -
    exact TreeProgram.below_perform alone.shows alone.rooted call

end IdealTree

end MiniDB.Index
