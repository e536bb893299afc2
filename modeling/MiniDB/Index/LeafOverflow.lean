import MiniDB.Index.TreeAccesses

/-!
# A leaf that is too large

A leaf of 341 entries is one that `InsertIntoLeaf` can still fill, but the RID of its
last entry ends behind the page. A run that fills a leaf with one key and looks for the
key reads there, so the largest leaf that is safe has 340 entries.
-/

namespace MiniDB.Index

open Foundation Buffer Storage

/-- The page is a leaf whose keys are all 0. -/
structure ZeroLeaf (data : Bytes) (size : Nat) : Prop where
  kind : intAt data 0 = 1
  counted : intAt data 1 = size
  keys : ∀ i < size, cells data (2 + i) = 0

/-- The RID that goes with them. -/
def zeroRid : RID := { pageId := 0, slotNum := 0 }

namespace ZeroLeaf

variable {data : Bytes} {size : Nat}

theorem isLeaf (leaf : ZeroLeaf data size) : isLeaf data = true := by
  simp only [Index.isLeaf, leaf.kind, decide_true]

/-- The search for 0 ends behind all keys. -/
theorem binarySearch_eq (leaf : ZeroLeaf data size) : binarySearch data 0 = size := by
  have keys : Segment (cells data) 2 (List.replicate size 0 ++ []) := by
    intro i inside
    have below : i < size := by simpa using inside
    rw [leaf.keys i below]
    simp
  have found := @Index.binarySearch_eq data (List.replicate size 0) [] 0 (by simp [leaf.counted]) keys
    (fun other member => Int.le_of_eq (List.eq_of_mem_replicate member)) (by simp)
  rw [found, List.length_replicate]

/-- One more 0 goes behind the others. -/
theorem insert (leaf : ZeroLeaf data size) (some : 0 < size) (small : size ≤ 340) :
    ZeroLeaf (insertIntoLeaf data 0 zeroRid) (size + 1) := by
  have after := insertedBehind leaf.counted leaf.binarySearch_eq some (Nat.le_refl size) small
    (by decide) (show zeroRid.IsInt by decide)
  refine ⟨after.kind.trans leaf.kind, after.counted, fun i below => ?_⟩
  by_cases isLast : i = size
  · rw [isLast]
    exact after.newKey
  · exact (after.keysBelow (2 + i) (by omega) (by omega)).trans (leaf.keys i (by omega))

theorem root (data : Bytes) : ZeroLeaf (rootLeaf data 0 zeroRid) 1 := by
  have single := @singleLeaf_rootLeaf data 0 zeroRid (by decide) (by decide)
  refine ⟨single.leaf, single.size, fun i below => ?_⟩
  have first : i = 0 := by omega
  rw [first]
  exact single.key

/-- The RID of the last of 341 entries ends at index 1024. -/
theorem not_below (leaf : ZeroLeaf data 341) :
    ¬ (CellProgram.collect () 0).Below 1024 fun _ => data := by
  intro below
  simp only [CellProgram.collect, CellProgram.below_bind, CellProgram.run_read,
    CellProgram.run_binarySearch, leaf.binarySearch_eq, leaf.counted] at below
  have loop := below.2.2.1
  have last : intAt data (2 + (340 : Nat)) = 0 := leaf.keys 340 (by decide)
  rw [Int.toNat_natCast, CellProgram.matchesBelow, CellProgram.below_bind, CellProgram.run_read] at loop
  rw [if_pos last] at loop
  simp [CellProgram.readRid] at loop

end ZeroLeaf

/-! ## Insertion in a pool that can load a page -/

namespace BPlusTree

variable {pool : BufferPool IdealDisk} {pages : Pages} {tree : BPlusTree}

/-- The descent to a root that is a leaf and is fetched. -/
theorem find_fetched {frame : Nat} (shows : pool.ShowsPages pages [])
    (allocated : pages.Allocated tree.rootPageId)
    (leaf : isLeaf (pages.contents tree.rootPageId) = true)
    (fetched : (pool.fetchPage tree.rootPageId).1 = some frame) (fuel : Nat) (key : Int) :
    PoolProgram.run (findLeafPage { tree with latch := tree.latch.lock } (fuel + 1) key false) pool =
      (.leaf frame, (pool.fetchPage tree.rootPageId).2) := by
  refine (@find_rootLeaf _ idealService pool pages [] tree shows allocated leaf fuel tree.latch.lock key
    false).trans ?_
  exact congrArg (fun answer : Option Nat => (answer.elim Descent.null Descent.leaf, _)) fetched

theorem insert_loads_room (ready : pool.LoadsPage pages [])
    (allocated : pages.Allocated tree.rootPageId)
    (leaf : isLeaf (pages.contents tree.rootPageId) = true)
    (room : intAt (pages.contents tree.rootPageId) 1 < tree.leafMaxSize) (fuel : Nat) (key : Int)
    (value : RID) :
    ∃ after, PoolProgram.run (tree.insert (fuel + 1) key value) pool =
        ((some true, tree.relatched), after) ∧
      after.LoadsPage (pages.write tree.rootPageId
        (insertIntoLeaf (pages.contents tree.rootPageId) key value)) [] := by
  obtain ⟨frame, fetched, held, released⟩ := ready.rewrite allocated
    (insertIntoLeaf (pages.contents tree.rootPageId) key value)
  have ends := find_fetched ready.shows allocated leaf fetched fuel key
  rw [← run_idealService] at ends
  have read := idealService.getData held List.mem_cons_self
  have written := idealService.putData held (insertIntoLeaf (pages.contents tree.rootPageId) key value)
  have named := idealService.getPageId written List.mem_cons_self
  dsimp only at read named
  refine ⟨_, ?_, released⟩
  rw [← run_idealService]
  simp only [insert, served_guarded, if_neg (exists_root allocated), PageService.run_bind, ends,
    PageService.run_getData, read, if_pos room, PageService.run_putData, PageService.run_getPageId,
    named, PageService.run_unpinPage, PageService.run_pure]
  rfl

theorem insert_loads_root (ready : pool.LoadsPage pages []) (empty : tree.rootPageId = -1)
    (fuel : Nat) (key : Int) (value : RID) :
    ∃ after, PoolProgram.run (tree.insert fuel key value) pool =
        ((some true, { tree.relatched with rootPageId := pages.nextPageId
                                           leafStartPageId := pages.nextPageId }), after) ∧
      after.LoadsPage (pages.add.write pages.nextPageId (rootLeaf Bytes.zeros key value)) [] := by
  obtain ⟨frame, made, held, released⟩ := ready.create (rootLeaf Bytes.zeros key value)
  have granted : (idealService.handle .newPage pool : Option (Int × Nat) × _).1 =
    some (pages.nextPageId, frame) := made
  have read : idealService.handle (.getData frame) (idealService.handle .newPage pool).2 =
      (Bytes.zeros, (idealService.handle .newPage pool).2) :=
    (idealService.getData held List.mem_cons_self).trans (by rw [Pages.contents_add_self]; rfl)
  refine ⟨_, ?_, released⟩
  rw [← run_idealService]
  simp only [insert, served_guarded, if_pos empty, insertRoot, PageService.run_bind,
    PageService.run_newPage, granted, PageService.run_getData, read, PageService.run_putData,
    PageService.run_setDirty, PageService.run_unpinPage, PageService.run_pure]
  rfl

end BPlusTree

/-! ## The run -/

namespace IdealTree

variable {state : IdealTree} {leafMaxSize : Int} {size fuel : Nat}

/-- The tree is one leaf of that many zeros, in a pool that can load a page. -/
structure Filled (leafMaxSize : Int) (size : Nat) (state : IdealTree) (pages : Pages) : Prop where
  ready : state.pool.LoadsPage pages []
  root : state.tree.rootPageId = 0
  limit : state.tree.leafMaxSize = leafMaxSize
  one : pages.nextPageId = 1
  leaf : ZeroLeaf (pages.contents 0) size

/-- Insert the key 0. -/
def insertZero : TreeCall := .insert 0 zeroRid (by decide) (by decide)

/-- Look for the key 0. -/
def getZero : TreeCall := .getValue 0 (by decide) []

theorem Filled.insert {pages : Pages} (filled : Filled leafMaxSize size state pages)
    (some : 0 < size) (small : size ≤ 340) (room : (size : Int) < leafMaxSize) :
    ∃ pages, Filled leafMaxSize (size + 1) (state.after (fuel + 2) insertZero) pages := by
  obtain ⟨ready, root, limit, one, leaf⟩ := filled
  have allocated : pages.Allocated state.tree.rootPageId := by
    rw [root, Pages.Allocated, one]
    decide
  obtain ⟨after, ran, readyAfter⟩ := BPlusTree.insert_loads_room ready allocated (root ▸ leaf.isLeaf)
    (by rw [root, leaf.counted, limit]; exact room) (fuel + 1) 0 zeroRid
  rw [root] at readyAfter
  rw [IdealTree.after, TreeProgram.run_perform]
  simp only [insertZero, BPlusTree.perform, PoolProgram.run_bind, PoolProgram.run_pure, ran]
  refine ⟨_, readyAfter, root, limit, one, ?_⟩
  rw [Pages.contents_write_self]
  exact leaf.insert some small

theorem filled_first (internalMaxSize : Int) (initial : Int → Bytes) :
    ∃ pages, Filled leafMaxSize 1
      ((start leafMaxSize internalMaxSize 1 0 initial).after (fuel + 2) insertZero) pages := by
  have ready := BufferPool.loadsPage_new Nat.one_pos 0 initial
  obtain ⟨after, ran, readyAfter⟩ := @BPlusTree.insert_loads_root _ _ { leafMaxSize, internalMaxSize }
    ready rfl (fuel + 2) 0 zeroRid
  rw [IdealTree.after, TreeProgram.run_perform]
  simp only [insertZero, BPlusTree.perform, PoolProgram.run_bind, PoolProgram.run_pure, start, ran]
  refine ⟨_, readyAfter, rfl, rfl, rfl, ?_⟩
  have leaf : ∀ pages : Pages,
      ZeroLeaf ((pages.write 0 (rootLeaf Bytes.zeros 0 zeroRid)).contents 0) 1 := by
    intro pages
    rw [Pages.contents_write_self]
    exact ZeroLeaf.root _
  exact leaf _

theorem Filled.counts {pages : Pages} (filled : Filled leafMaxSize size state pages)
    (call : TreeCall) : state.CountsPages call := by
  rw [CountsPages, filled.ready.shows.next, filled.one]
  decide

theorem Filled.not_inside {pages : Pages} (filled : Filled leafMaxSize 341 state pages) :
    ¬ state.AccessesInside (fuel + 2) getZero := by
  obtain ⟨ready, root, limit, one, leaf⟩ := filled
  have allocated : pages.Allocated state.tree.rootPageId := by
    rw [root, Pages.Allocated, one]
    decide
  obtain ⟨frame, fetched, held⟩ := ready.fetch allocated
  have ends := BPlusTree.find_fetched ready.shows allocated (root ▸ leaf.isLeaf) fetched (fuel + 1) 0
  have read := TreeProgram.data_held held
  rw [← root] at leaf
  intro inside
  rw [AccessesInside, getZero, TreeProgram.perform, TreeProgram.below_bind, TreeProgram.getValue,
    TreeProgram.below_guarded, if_neg (BPlusTree.exists_root allocated), TreeProgram.below_bind,
    TreeProgram.run_findLeafPage, ends] at inside
  have collects := inside.1.2
  rw [TreeProgram.below_bind, TreeProgram.below_look] at collects
  dsimp only at collects
  rw [read] at collects
  exact leaf.not_below collects.1

/-- From a leaf that is not yet too large, the rest of the run gets there. -/
theorem Filled.leaves_page {pages : Pages} (more : Nat) (filled : Filled leafMaxSize size state pages)
    (some : 0 < size) (sum : size + more = 341) (large : leafCapacity < leafMaxSize) :
    EachCall (after (fuel + 2)) CountsPages state (List.replicate more insertZero ++ [getZero]) ∧
      ¬ EachCall (after (fuel + 2)) (AccessesInside (fuel + 2)) state
        (List.replicate more insertZero ++ [getZero]) := by
  induction more generalizing state size pages with
  | zero =>
    obtain rfl : size = 341 := sum
    exact ⟨⟨filled.counts _, trivial⟩, fun each => filled.not_inside each.1⟩
  | succ more ih =>
    simp only [leafCapacity] at large
    obtain ⟨next, filledNext⟩ := @Filled.insert _ _ _ fuel _ filled some (by omega) (by omega)
    obtain ⟨later, leaves⟩ := ih filledNext (Nat.succ_pos size) (by omega)
    exact ⟨⟨filled.counts _, later⟩, fun each => leaves each.2⟩

/-- The run that fills a leaf of the largest size there is and looks for its key. -/
theorem exists_outside (fuel : Nat) (internalMaxSize : Int) (large : leafCapacity < leafMaxSize) :
    ∃ calls, EachCall (after (fuel + 2)) CountsPages
        (start leafMaxSize internalMaxSize 1 0 fun _ => Bytes.zeros) calls ∧
      ¬ EachCall (after (fuel + 2)) (AccessesInside (fuel + 2))
        (start leafMaxSize internalMaxSize 1 0 fun _ => Bytes.zeros) calls := by
  obtain ⟨pages, filled⟩ := @filled_first leafMaxSize fuel internalMaxSize fun _ => Bytes.zeros
  obtain ⟨counts, leaves⟩ := @Filled.leaves_page _ _ _ fuel _ 340 filled Nat.one_pos rfl large
  have first : (start leafMaxSize internalMaxSize 1 0 fun _ => Bytes.zeros).CountsPages insertZero :=
    show IsInt ((0 : Nat) : Int) by decide
  exact ⟨insertZero :: (List.replicate 340 insertZero ++ [getZero]), ⟨first, counts⟩,
    fun each => leaves each.2⟩

/-- Every run of a tree that is alone in its pool keeps its accesses inside the pages
just when the constructor was given a leaf size of at most 340. -/
theorem accessesInside_iff (fuel : Nat) (leafMaxSize internalMaxSize : Int) :
    (∀ (poolSize : Nat) (initial : Int → Bytes) (calls : List TreeCall),
      EachCall (after (fuel + 2)) CountsPages
          (start leafMaxSize internalMaxSize poolSize 0 initial) calls →
        EachCall (after (fuel + 2)) (AccessesInside (fuel + 2))
          (start leafMaxSize internalMaxSize poolSize 0 initial) calls) ↔
      leafMaxSize ≤ 340 := by
  constructor
  · intro all
    by_contra large
    obtain ⟨calls, counts, outside⟩ := exists_outside fuel internalMaxSize (Int.not_le.mp large)
    exact outside (all 1 _ calls counts)
  · intro small poolSize initial calls counts
    exact eachCall_accessesInside small poolSize initial calls counts

/-- The constructor takes 341 as it takes every other size, and a tree made with it reads
outside a page. -/
theorem leaf_of_341_leaves_page :
    ¬ ∀ (fuel : Nat) (leafMaxSize internalMaxSize : Int), 1 ≤ leafMaxSize →
      ∀ (poolSize : Nat) (initial : Int → Bytes) (calls : List TreeCall),
        EachCall (after (fuel + 2)) CountsPages
            (start leafMaxSize internalMaxSize poolSize 0 initial) calls →
          EachCall (after (fuel + 2)) (AccessesInside (fuel + 2))
            (start leafMaxSize internalMaxSize poolSize 0 initial) calls := by
  intro all
  obtain ⟨calls, counts, outside⟩ := @exists_outside 341 0 341 (by decide)
  exact outside (all 0 341 341 (by decide) 1 _ calls counts)

end IdealTree

end MiniDB.Index
