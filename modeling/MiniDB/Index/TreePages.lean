import MiniDB.Buffer.PageStore
import MiniDB.Index.Multimap

/-!
# The pages of a tree

What the operations of a tree make of the pages in the pool, as long as the pages
they need are resident and a null frame is left for every new one. A descent is a
path through the pages; `Path` follows the child pointers as `FindLeafPage` reads
them.
-/

namespace MiniDB.Index

open Foundation Buffer PoolProgram Storage

/-- The child that `FindLeafPage` goes on to. -/
def childAt (data : Bytes) (key : Int) (leftMost : Bool) : Int :=
  intAt data (2 + intAt data 1 + 1 + if leftMost then 0 else binarySearch data key)

/-- A descent from a page to a leaf, with the pages on the way. -/
inductive Path (contents : Int → Option Bytes) (key : Int) (leftMost : Bool) :
    (pageId leaf : Int) → List Int → Prop where
  | leaf {pageId : Int} {data : Bytes} (resident : contents pageId = some data)
      (isLeaf : isLeaf data = true) : Path contents key leftMost pageId pageId [pageId]
  | node {pageId leaf : Int} {data : Bytes} {visited : List Int}
      (resident : contents pageId = some data) (isNode : isLeaf data = false)
      (below : Path contents key leftMost (childAt data key leftMost) leaf visited) :
      Path contents key leftMost pageId leaf (pageId :: visited)

/-- A path begins at a page. -/
theorem Path.root_ne {pool : BufferPool DiskManager} {key : Int} {leftMost : Bool}
    {pageId leaf : Int} {visited : List Int} (settled : pool.frames.Settled)
    (path : Path pool.frames.contents key leftMost pageId leaf visited) : pageId ≠ -1 := by
  have issued : ∀ {data : Bytes}, pool.frames.contents pageId = some data → pageId ≠ -1 := by
    intro data resident
    obtain ⟨frame, found⟩ := BufferPool.exists_frame settled resident
    have nonneg := (settled.issued found).1
    omega
  cases path with
  | leaf resident => exact issued resident
  | node resident => exact issued resident

/-- A path visits the leaf at its end. -/
theorem Path.leaf_mem {contents : Int → Option Bytes} {key : Int} {leftMost : Bool}
    {pageId leaf : Int} {visited : List Int}
    (path : Path contents key leftMost pageId leaf visited) : leaf ∈ visited := by
  induction path with
  | leaf => exact List.mem_singleton.mpr rfl
  | node _ _ _ ih => exact List.mem_cons_of_mem _ ih

/-- A condition on requests that leaves reading and releasing a page free. -/
structure Lenient (meets : PoolRequest → BufferPool DiskManager → Prop) : Prop where
  getData : ∀ frame pool, meets (.getData frame) pool
  unpinPage : ∀ pageId isDirty pool, meets (.unpinPage pageId isDirty) pool

/-- Only such pages are fetched. -/
def FetchesOnly (allowed : Int → Prop) : PoolRequest → BufferPool DiskManager → Prop
  | .fetchPage pageId, _ => allowed pageId
  | _, _ => True

instance (allowed : Int → Prop) [DecidablePred allowed] (request : PoolRequest)
    (pool : BufferPool DiskManager) : Decidable (FetchesOnly allowed request pool) :=
  match request with
  | .fetchPage pageId => inferInstanceAs (Decidable (allowed pageId))
  | .newPage | .unpinPage _ _ | .deletePage _ | .flushPage _ | .flushAllPages | .getPageId _
  | .getData _ | .putData _ _ | .setDirty _ => inferInstanceAs (Decidable True)

theorem lenient_fetchesOnly (allowed : Int → Prop) : Lenient (FetchesOnly allowed) :=
  ⟨fun _ _ => trivial, fun _ _ _ => trivial⟩

theorem lenient_findsFrame : Lenient BufferPool.FindsFrame :=
  ⟨fun _ _ => trivial, fun _ _ _ => trivial⟩

namespace BPlusTree

variable {pool : BufferPool DiskManager} {tree : BPlusTree} {pageId leaf : Int} {data : Bytes}
  {key : Int} {leftMost : Bool} {visited : List Int}
  {meets : PoolRequest → BufferPool DiskManager → Prop}

/-- A descent at a leaf ends. -/
theorem run_descend_leaf (settled : pool.frames.Settled)
    (resident : pool.frames.contents pageId = some data) (leafPage : isLeaf data = true)
    (fuel : Nat) :
    ∃ frame after, run (descend key leftMost (fuel + 1) pageId) pool = (.leaf frame, after) ∧
      pool.Holds pageId frame after := by
  obtain ⟨frame, hit, holds, held⟩ := BufferPool.holds_fetchPage settled resident
  refine ⟨frame, _, ?_, holds⟩
  simp only [descend, run_bind, run_fetchPage, hit, run_getData, held, leafPage, if_true, run_pure]

/-- A descent at an internal node goes on to the child. -/
theorem run_descend_node (settled : pool.frames.Settled)
    (resident : pool.frames.contents pageId = some data) (node : isLeaf data = false)
    (key : Int) (leftMost : Bool) (fuel : Nat) :
    ∃ after, pool.Serves pool.frames.contents after ∧
      run (descend key leftMost (fuel + 1) pageId) pool =
        run (descend key leftMost fuel (childAt data key leftMost)) after ∧
      ∀ meets, Lenient meets →
        (Client.Each BufferPool.handle meets (descend key leftMost (fuel + 1) pageId) pool ↔
          meets (.fetchPage pageId) pool ∧ Client.Each BufferPool.handle meets
            (descend key leftMost fuel (childAt data key leftMost)) after) := by
  obtain ⟨frame, hit, holds, held⟩ := BufferPool.holds_fetchPage settled resident
  have released := BufferPool.serves_unpinPage holds.serves.settled pageId false
  rw [holds.serves.contents] at released
  refine ⟨_, holds.serves.trans released, ?_, fun meets lenient => ?_⟩
  · simp only [descend, run_bind, run_fetchPage, hit, run_getData, held, node,
      Bool.false_eq_true, if_false, run_unpinPage]
    rfl
  · simp only [descend, each_bind, run_fetchPage, hit, run_getData, held, node,
      Bool.false_eq_true, if_false, run_unpinPage, each_fetchPage, each_getData, each_unpinPage,
      lenient.getData, lenient.unpinPage, true_and]
    rfl

/-- A descent along a path ends at its leaf, with enough fuel, and fetches the pages
on the path. -/
theorem run_descend (settled : pool.frames.Settled)
    (path : Path pool.frames.contents key leftMost pageId leaf visited) {fuel : Nat}
    (enough : visited.length ≤ fuel) :
    ∃ frame after, run (descend key leftMost fuel pageId) pool = (.leaf frame, after) ∧
      pool.Holds leaf frame after := by
  generalize contentsEq : pool.frames.contents = contents at path
  induction path generalizing pool fuel with
  | leaf resident leafPage =>
    obtain ⟨fuel, rfl⟩ := Nat.exists_eq_succ_of_ne_zero (Nat.ne_of_gt enough)
    exact run_descend_leaf settled (contentsEq ▸ resident) leafPage fuel
  | node resident node below ih =>
    obtain ⟨fuel, rfl⟩ := Nat.exists_eq_succ_of_ne_zero (Nat.ne_of_gt (Nat.lt_of_lt_of_le
      (Nat.succ_pos _) enough))
    obtain ⟨after, serves, goesOn, -⟩ :=
      run_descend_node settled (contentsEq ▸ resident) node key leftMost fuel
    obtain ⟨frame, last, ends, holds⟩ := ih serves.settled (Nat.le_of_succ_le_succ enough)
      (serves.contents.trans contentsEq)
    refine ⟨frame, last, goesOn.trans ends, ?_, holds.found, holds.pinned⟩
    exact serves.contents ▸ serves.trans holds.serves

/-- The pages on the path are all that a descent asks for. -/
theorem each_descend (settled : pool.frames.Settled)
    (path : Path pool.frames.contents key leftMost pageId leaf visited) (fuel : Nat)
    (lenient : Lenient meets)
    (fetches : ∀ page ∈ visited, ∀ state : BufferPool DiskManager, state.frames.Settled →
      state.frames.contents = pool.frames.contents → meets (.fetchPage page) state) :
    Client.Each BufferPool.handle meets (descend key leftMost fuel pageId) pool := by
  generalize contentsEq : pool.frames.contents = contents at path fetches
  induction path generalizing pool fuel with
  | @leaf pageId data resident leafPage =>
    cases fuel with
    | zero => trivial
    | succ fuel =>
      obtain ⟨frame, hit, holds, held⟩ :=
        BufferPool.holds_fetchPage settled (contentsEq ▸ resident)
      simp only [descend, each_bind, run_fetchPage, hit, run_getData, held, leafPage, if_true,
        each_fetchPage, each_getData, lenient.getData, true_and]
      exact ⟨fetches _ (List.mem_singleton.mpr rfl) pool settled contentsEq, trivial⟩
  | node resident node below ih =>
    cases fuel with
    | zero => trivial
    | succ fuel =>
      obtain ⟨after, serves, -, goesOn⟩ :=
        run_descend_node settled (contentsEq ▸ resident) node key leftMost fuel
      refine (goesOn meets lenient).mpr ⟨fetches _ List.mem_cons_self pool settled contentsEq, ?_⟩
      exact ih serves.settled fuel (serves.contents.trans contentsEq)
        (fun page member => fetches page (List.mem_cons_of_mem _ member))

/-- `FindLeafPage` goes along the path and pins the leaf at its end. -/
theorem run_findLeafPage (settled : pool.frames.Settled)
    (path : Path pool.frames.contents key leftMost tree.rootPageId leaf visited) {fuel : Nat}
    (enough : visited.length ≤ fuel) :
    ∃ frame after, pool.Holds leaf frame after ∧
      ∀ latch, run (findLeafPage { tree with latch } fuel key leftMost) pool =
        (.leaf frame, after) := by
  obtain ⟨frame, after, ends, holds⟩ := run_descend settled path enough
  refine ⟨frame, after, holds, fun latch => ?_⟩
  simp only [findLeafPage, if_neg (path.root_ne settled), ends]

/-- Every request of `FindLeafPage` is for a page of the path. -/
theorem each_findLeafPage (settled : pool.frames.Settled)
    (path : Path pool.frames.contents key leftMost tree.rootPageId leaf visited) (fuel : Nat)
    (lenient : Lenient meets)
    (fetches : ∀ page ∈ visited, ∀ state : BufferPool DiskManager, state.frames.Settled →
      state.frames.contents = pool.frames.contents → meets (.fetchPage page) state) :
    Client.Each BufferPool.handle meets (tree.findLeafPage fuel key leftMost) pool := by
  simp only [findLeafPage, if_neg (path.root_ne settled)]
  exact each_descend settled path fuel lenient fetches

/-- The tree after an operation that leaves its root. -/
abbrev relatched (tree : BPlusTree) : BPlusTree := { tree with latch := tree.latch.lock.unlock }

/-- `Insert` into an empty tree. -/
theorem run_insert_root (settled : pool.frames.Settled) (noRoot : tree.rootPageId = -1)
    (free : pool.findFree ≠ none) (fuel : Nat) (key : Int) (value : RID) :
    ∃ after, run (tree.insert fuel key value) pool =
        ((some true, { tree.relatched with
            rootPageId := pool.frames.disk.nextPageId
            leafStartPageId := pool.frames.disk.nextPageId }), after) ∧
      pool.Becomes (Function.update pool.frames.contents pool.frames.disk.nextPageId
        (some (rootLeaf Bytes.zeros key value))) 1 after := by
  obtain ⟨frame, served, adds⟩ := BufferPool.adds_newPage settled free
  refine ⟨_, ?_, adds.fill (rootLeaf Bytes.zeros key value)⟩
  simp only [insert, run_guarded, noRoot, if_true, insertRoot, run_bind, run_newPage, served,
    run_getData, adds.data_eq, run_putData, run_setDirty, run_unpinPage, run_pure]

/-- `Insert` into a leaf with room. -/
theorem run_insert_room (settled : pool.frames.Settled)
    (path : Path pool.frames.contents key false tree.rootPageId leaf visited)
    (resident : pool.frames.contents leaf = some data) (room : intAt data 1 < tree.leafMaxSize)
    {fuel : Nat} (enough : visited.length ≤ fuel) (value : RID) :
    ∃ after, run (tree.insert fuel key value) pool = ((some true, tree.relatched), after) ∧
      pool.Becomes (Function.update pool.frames.contents leaf
        (some (insertIntoLeaf data key value))) 0 after := by
  obtain ⟨frame, middle, holds, ends⟩ := run_findLeafPage settled path enough
  have held := (BufferPool.pageAt_of_lookup holds.serves.settled holds.found).2
  have written := BufferPool.serves_putData holds.serves.settled holds.found
    (insertIntoLeaf data key value)
  rw [holds.serves.contents] at held written
  rw [resident] at held
  have sameId := (BufferPool.pageAt_of_lookup written.settled (written.table ▸ holds.found)).1
  have released := BufferPool.serves_unpinPage written.settled leaf true
  rw [written.contents] at released
  refine ⟨_, ?_, ((holds.serves.trans written).trans released).becomes⟩
  simp only [insert, run_guarded, if_neg (path.root_ne settled), run_bind, ends, run_getData,
    ← Option.some.inj held, if_pos room, run_putData, run_getPageId, sameId, run_unpinPage,
    run_pure]

/-- `InsertIntoParent` of a leaf that is not the root does nothing. -/
theorem run_insertIntoParent_other (settled : pool.frames.Settled) {oldFrame newFrame : Nat}
    (foundOld : pool.frames.pageTable.lookup pageId = some oldFrame)
    (notRoot : pageId ≠ tree.rootPageId) :
    run (tree.insertIntoParent oldFrame key newFrame) pool = (tree, pool) := by
  have oldId := (BufferPool.pageAt_of_lookup settled foundOld).1
  simp only [insertIntoParent, run_bind, run_getPageId, oldId, if_neg notRoot, run_pure]

/-- `InsertIntoParent` of the root makes a new root. -/
theorem run_insertIntoParent_root (settled : pool.frames.Settled) {oldFrame newFrame : Nat}
    (foundOld : pool.frames.pageTable.lookup tree.rootPageId = some oldFrame)
    (foundNew : pool.frames.pageTable.lookup pageId = some newFrame)
    (free : pool.findFree ≠ none) :
    ∃ after, run (tree.insertIntoParent oldFrame key newFrame) pool =
        ({ tree with rootPageId := pool.frames.disk.nextPageId }, after) ∧
      pool.Becomes (Function.update pool.frames.contents pool.frames.disk.nextPageId
        (some (rootOver Bytes.zeros tree.rootPageId key pageId))) 1 after := by
  have oldId := (BufferPool.pageAt_of_lookup settled foundOld).1
  have newId := (BufferPool.pageAt_of_lookup settled foundNew).1
  obtain ⟨frame, served, adds⟩ := BufferPool.adds_newPage settled free
  refine ⟨_, ?_, adds.fill (rootOver Bytes.zeros tree.rootPageId key pageId)⟩
  simp only [insertIntoParent, run_bind, run_getPageId, oldId, newId, if_true, run_newPage, served,
    run_getData, adds.data_eq, run_putData, run_setDirty, run_unpinPage, run_pure]

/-- What `Insert` does with the two halves of a leaf. -/
def linkHalves (tree : BPlusTree) (frame : Nat) (middleKey : Int) (newFrame : Nat) :
    PoolProgram (Option Bool × BPlusTree) := do
  let tree ← tree.insertIntoParent frame middleKey newFrame
  let pageId ← getPageId frame
  let _ ← unpinPage pageId true
  let newPageId ← getPageId newFrame
  let _ ← unpinPage newPageId true
  return (some true, tree)

/-- The pages after the halves of a leaf are written. -/
def halved (contents : Int → Option Bytes) (leaf next : Int) (parts : Bytes × Bytes × Int) :
    Int → Option Bytes :=
  Function.update (Function.update contents leaf (some parts.1)) next (some parts.2.1)

/-- `Insert` into a full leaf writes both halves and goes on to link them. -/
theorem insertSplit_links {frame : Nat} (settled : pool.frames.Settled)
    (found : pool.frames.pageTable.lookup leaf = some frame)
    (resident : pool.frames.contents leaf = some data) (free : pool.findFree ≠ none)
    (tree : BPlusTree) (key : Int) (value : RID) {parts : Bytes × Bytes × Int}
    (partsEq : splitInsert data Bytes.zeros pool.frames.disk.nextPageId key value = parts) :
    ∃ newFrame middle,
      pool.Becomes (halved pool.frames.contents leaf pool.frames.disk.nextPageId parts) 1 middle ∧
      middle.frames.pageTable.lookup pool.frames.disk.nextPageId = some newFrame ∧
      run (tree.insertSplit frame key value) pool =
        run (tree.linkHalves frame parts.2.2 newFrame) middle ∧
      ∀ meets : PoolRequest → BufferPool DiskManager → Prop,
        Client.Each BufferPool.handle meets (tree.insertSplit frame key value) pool →
          Client.Each BufferPool.handle meets (tree.insertIntoParent frame parts.2.2 newFrame)
            middle := by
  obtain ⟨newFrame, served, adds⟩ := BufferPool.adds_newPage settled free
  have different : leaf ≠ pool.frames.disk.nextPageId := Int.ne_of_lt (settled.issued found).2
  have foundOld := adds.kept found
  have heldOld := (BufferPool.pageAt_of_lookup adds.settled foundOld).2
  rw [adds.contents, Function.update_of_ne different, resident] at heldOld
  have first := BufferPool.serves_putData adds.settled foundOld parts.1
  have second := BufferPool.serves_putData first.settled (first.table ▸ adds.found) parts.2.1
  rw [first.contents, adds.contents, Function.update_comm different.symm,
    Function.update_idem] at second
  obtain ⟨oldData, newData, middleKey⟩ := parts
  refine ⟨newFrame, _, adds.becomes.trans (first.trans second).becomes,
    second.table ▸ first.table ▸ adds.found, ?_, fun meets asks => ?_⟩
  · simp only [insertSplit, run_bind, run_newPage, served, run_getData, ← Option.some.inj heldOld,
      adds.data_eq, partsEq, run_putData, linkHalves]
  · simp only [insertSplit, each_bind, run_newPage, served, run_getData, ← Option.some.inj heldOld,
      adds.data_eq, partsEq, run_putData] at asks
    exact asks.2.2.2.2.2.1

/-- The halves are linked by `InsertIntoParent`; the rest releases them. -/
theorem run_linkHalves {linked : BPlusTree} {contents : Int → Option Bytes} {count : Nat}
    {middle : BufferPool DiskManager} {frame newFrame : Nat} {middleKey newPageId : Int}
    (links : run (tree.insertIntoParent frame middleKey newFrame) pool = (linked, middle))
    (becomes : pool.Becomes contents count middle)
    (found : pool.frames.pageTable.lookup leaf = some frame)
    (foundNew : pool.frames.pageTable.lookup newPageId = some newFrame) :
    ∃ after, run (tree.linkHalves frame middleKey newFrame) pool = ((some true, linked), after) ∧
      pool.Becomes contents count after := by
  have oldId := (BufferPool.pageAt_of_lookup becomes.settled (becomes.kept found)).1
  have first := BufferPool.serves_unpinPage becomes.settled leaf true
  have newId := (BufferPool.pageAt_of_lookup first.settled
    (first.table ▸ becomes.kept foundNew)).1
  have second := BufferPool.serves_unpinPage first.settled newPageId true
  rw [first.contents] at second
  have released := becomes.trans (first.trans second).becomes
  rw [becomes.contents] at released
  refine ⟨_, ?_, released⟩
  simp only [linkHalves, run_bind, links, run_getPageId, oldId, run_unpinPage, newId, run_pure]

/-- The latch of the tree makes no request. -/
theorem each_guarded {Result : Type} {meets : PoolRequest → BufferPool DiskManager → Prop}
    (body : BPlusTree → PoolProgram (Result × BPlusTree)) :
    Client.Each BufferPool.handle meets (guarded body tree) pool ↔
      Client.Each BufferPool.handle meets (body { tree with latch := tree.latch.lock }) pool := by
  rw [guarded, each_bind]
  exact and_iff_left trivial

/-- `Insert` into a full leaf. -/
theorem run_insert_split (settled : pool.frames.Settled)
    (path : Path pool.frames.contents key false tree.rootPageId leaf visited)
    (resident : pool.frames.contents leaf = some data)
    (full : ¬ intAt data 1 < tree.leafMaxSize) {fuel : Nat} (enough : visited.length ≤ fuel)
    (value : RID)
    (finds : Client.Each BufferPool.handle BufferPool.FindsFrame (tree.insert fuel key value) pool)
    {parts : Bytes × Bytes × Int}
    (partsEq : splitInsert data Bytes.zeros pool.frames.disk.nextPageId key value = parts) :
    ∃ after,
      leaf ≠ tree.rootPageId ∧
          run (tree.insert fuel key value) pool = ((some true, tree.relatched), after) ∧
          pool.Becomes (halved pool.frames.contents leaf pool.frames.disk.nextPageId parts) 1 after ∨
        leaf = tree.rootPageId ∧
          run (tree.insert fuel key value) pool =
            ((some true, { tree.relatched with rootPageId := pool.frames.disk.nextPageId + 1 }),
              after) ∧
          pool.Becomes (Function.update
            (halved pool.frames.contents leaf pool.frames.disk.nextPageId parts)
            (pool.frames.disk.nextPageId + 1)
            (some (rootOver Bytes.zeros leaf parts.2.2 pool.frames.disk.nextPageId))) 2 after := by
  obtain ⟨frame, middle, holds, ends⟩ := run_findLeafPage settled path enough
  have held := (BufferPool.pageAt_of_lookup holds.serves.settled holds.found).2
  rw [holds.serves.contents, resident] at held
  rw [insert, each_guarded] at finds
  simp only [if_neg (path.root_ne settled), each_bind, ends, run_getData,
    ← Option.some.inj held, if_neg full] at finds
  have asks := finds.2.2
  have free : middle.findFree ≠ none := by
    have first := asks
    simp only [insertSplit, each_bind] at first
    exact first.1.1
  obtain ⟨newFrame, split, becomes, foundNew, goesOn, asksToo⟩ :=
    insertSplit_links holds.serves.settled holds.found (holds.serves.contents ▸ resident) free
      { tree with latch := tree.latch.lock } key value (holds.serves.next ▸ partsEq)
  have program : run (tree.insert fuel key value) pool =
      let outcome := run (linkHalves { tree with latch := tree.latch.lock } frame parts.2.2 newFrame)
        split
      ((outcome.1.1, { outcome.1.2 with latch := outcome.1.2.latch.unlock }), outcome.2) := by
    simp only [insert, run_guarded, if_neg (path.root_ne settled), run_bind, ends, run_getData,
      ← Option.some.inj held, if_neg full, goesOn]
  have foundOld := becomes.kept holds.found
  have whole := holds.serves.becomes.trans becomes
  rw [holds.serves.contents, holds.serves.next, Nat.zero_add] at whole
  rw [holds.serves.next] at foundNew
  by_cases isRoot : leaf = tree.rootPageId
  · have freeToo : split.findFree ≠ none := by
      have second := asksToo _ asks
      have oldId := (BufferPool.pageAt_of_lookup becomes.settled foundOld).1
      simp only [insertIntoParent, each_bind, run_getPageId, oldId, isRoot, if_true] at second
      exact second.2.2.1.1
    obtain ⟨linked, links, adds⟩ := @run_insertIntoParent_root split
      { tree with latch := tree.latch.lock } pool.frames.disk.nextPageId parts.2.2 becomes.settled
      frame newFrame (isRoot ▸ foundOld) foundNew freeToo
    obtain ⟨after, finished, released⟩ := run_linkHalves links adds foundOld foundNew
    have next : split.frames.disk.nextPageId = pool.frames.disk.nextPageId + 1 := whole.next
    refine ⟨after, .inr ⟨isRoot, ?_, ?_⟩⟩
    · rw [program, finished, ← next]
    · have done := whole.trans released
      rwa [whole.contents, next, ← isRoot] at done
  · have links := @run_insertIntoParent_other split { tree with latch := tree.latch.lock } leaf
      parts.2.2 becomes.settled frame newFrame foundOld isRoot
    obtain ⟨after, linked, released⟩ :=
      run_linkHalves links (BufferPool.Serves.refl becomes.settled).becomes foundOld foundNew
    refine ⟨after, .inl ⟨isRoot, ?_, ?_⟩⟩
    · rw [program, linked]
    · have done := whole.trans released
      rwa [becomes.contents, holds.serves.contents, holds.serves.next] at done

/-- `Remove` of a key that the leaf does not have. -/
theorem run_remove_miss (settled : pool.frames.Settled)
    (path : Path pool.frames.contents key false tree.rootPageId leaf visited)
    (resident : pool.frames.contents leaf = some data)
    (miss : binarySearch data key = 0 ∨ intAt data (2 + binarySearch data key - 1) ≠ key)
    {fuel : Nat} (enough : visited.length ≤ fuel) :
    ∃ after, run (tree.remove fuel key) pool = ((some false, tree.relatched), after) ∧
      pool.Becomes pool.frames.contents 0 after := by
  obtain ⟨frame, middle, holds, ends⟩ := run_findLeafPage settled path enough
  obtain ⟨sameId, held⟩ := BufferPool.pageAt_of_lookup holds.serves.settled holds.found
  rw [holds.serves.contents, resident] at held
  have released := BufferPool.serves_unpinPage holds.serves.settled leaf false
  rw [holds.serves.contents] at released
  refine ⟨_, ?_, (holds.serves.trans released).becomes⟩
  simp only [remove, run_guarded, if_neg (path.root_ne settled), run_bind, ends, run_getData,
    ← Option.some.inj held, if_pos miss, run_getPageId, sameId, run_unpinPage, run_pure]

/-- `CoalesceOrRedistribute` after a removal: a root that became empty is given up,
and its page, which is pinned, stays. -/
theorem run_coalesceOrRedistribute (settled : pool.frames.Settled) {frame : Nat}
    (found : pool.frames.pageTable.lookup leaf = some frame) (pinned : pool.IsPinned leaf)
    (resident : pool.frames.contents leaf = some data) (leafPage : isLeaf data = true) :
    ∃ after, run (tree.coalesceOrRedistribute frame) pool =
        (if leaf = tree.rootPageId ∧ intAt data 1 = 0 then
          { tree with rootPageId := -1, leafStartPageId := -1 } else tree, after) ∧
      pool.Serves pool.frames.contents after := by
  obtain ⟨sameId, held⟩ := BufferPool.pageAt_of_lookup settled found
  rw [resident] at held
  by_cases isRoot : leaf = tree.rootPageId
  · by_cases isEmpty : intAt data 1 = 0
    · refine ⟨_, ?_, BufferPool.serves_deletePage settled pinned⟩
      simp only [coalesceOrRedistribute, run_bind, run_getPageId, sameId, isRoot, if_true,
        adjustRoot, run_getData, ← Option.some.inj held, isEmpty, run_deletePage, leafPage,
        run_pure, true_and]
    · refine ⟨_, ?_, .refl settled⟩
      simp only [coalesceOrRedistribute, run_bind, run_getPageId, sameId, isRoot, if_true,
        adjustRoot, run_getData, ← Option.some.inj held, if_neg isEmpty, run_pure, true_and]
  · refine ⟨_, ?_, .refl settled⟩
    simp only [coalesceOrRedistribute, run_bind, run_getPageId, sameId, run_pure, isRoot,
      false_and, if_false]

/-- `Remove` of a key that the leaf has. -/
theorem run_remove_hit (settled : pool.frames.Settled)
    (path : Path pool.frames.contents key false tree.rootPageId leaf visited)
    (resident : pool.frames.contents leaf = some data)
    (hit : ¬ (binarySearch data key = 0 ∨ intAt data (2 + binarySearch data key - 1) ≠ key))
    {removed : Bytes} (removedEq : removeFromLeaf data (binarySearch data key - 1) = removed)
    (leafPage : isLeaf removed = true) {fuel : Nat} (enough : visited.length ≤ fuel) :
    ∃ after, run (tree.remove fuel key) pool =
        ((some true, if leaf = tree.rootPageId ∧ intAt removed 1 = 0 then
          { tree.relatched with rootPageId := -1, leafStartPageId := -1 } else tree.relatched),
            after) ∧
      pool.Becomes (Function.update pool.frames.contents leaf (some removed)) 0 after := by
  obtain ⟨frame, middle, holds, ends⟩ := run_findLeafPage settled path enough
  have held := (BufferPool.pageAt_of_lookup holds.serves.settled holds.found).2
  have written := BufferPool.serves_putData holds.serves.settled holds.found removed
  rw [holds.serves.contents] at held written
  rw [resident] at held
  have marked := BufferPool.serves_setDirty written.settled
    (show (middle.modifyPage frame _).frames.pageTable.lookup leaf = _ from holds.found)
  rw [written.contents] at marked
  have foundMarked : ((middle.modifyPage frame fun page => page.setData removed).modifyPage frame
      fun page => page.setDirty true).frames.pageTable.lookup leaf = some frame := holds.found
  have pinned := (holds.pinned.modifyPage (fun page => page.setData removed) (fun _ => rfl)
    frame).modifyPage (fun page => page.setDirty true) (fun _ => rfl) frame
  have stored : ((middle.modifyPage frame fun page => page.setData removed).modifyPage frame
      fun page => page.setDirty true).frames.contents leaf = some removed := by
    rw [marked.contents, Function.update_self]
  obtain ⟨adjusted, adjusts, kept⟩ := @run_coalesceOrRedistribute _
    { tree with latch := tree.latch.lock } leaf removed marked.settled frame foundMarked pinned stored leafPage
  have sameId := (BufferPool.pageAt_of_lookup kept.settled (kept.table ▸ foundMarked)).1
  have released := BufferPool.serves_unpinPage kept.settled leaf true
  rw [marked.contents] at kept
  rw [kept.contents] at released
  refine ⟨_, ?_, ((((holds.serves.trans written).trans marked).trans kept).trans released).becomes⟩
  simp only [remove, run_guarded, if_neg (path.root_ne settled), run_bind, ends, run_getData,
    ← Option.some.inj held, if_neg hit, removedEq, run_putData, run_setDirty, adjusts,
    run_getPageId, sameId, run_unpinPage, run_pure]
  split <;> rfl

/-! ## What no operation changes -/

section LeafMaxSize

theorem leafMaxSize_insertIntoParent (oldFrame : Nat) (key : Int) (newFrame : Nat) :
    (run (tree.insertIntoParent oldFrame key newFrame) pool).1.leafMaxSize = tree.leafMaxSize := by
  simp only [insertIntoParent, run_bind]
  split
  · simp only [run_bind]
    split <;> rfl
  · rfl

/-- `Insert` leaves the sizes of the tree. -/
theorem leafMaxSize_insert (fuel : Nat) (key : Int) (value : RID) :
    (run (tree.insert fuel key value) pool).1.2.leafMaxSize = tree.leafMaxSize := by
  simp only [insert, run_guarded]
  split
  · simp only [insertRoot, run_bind]
    split <;> rfl
  · simp only [run_bind]
    split
    · rfl
    · rfl
    · simp only [run_bind]
      split
      · rfl
      · simp only [insertSplit, run_bind]
        split
        · rfl
        · simp only [run_bind, run_pure, leafMaxSize_insertIntoParent]

theorem leafMaxSize_coalesceOrRedistribute (frame : Nat) :
    (run (tree.coalesceOrRedistribute frame) pool).1.leafMaxSize = tree.leafMaxSize := by
  simp only [coalesceOrRedistribute, adjustRoot, run_bind]
  split
  · simp only [run_bind]
    split
    · simp only [run_bind]
      split <;> rfl
    · rfl
  · rfl

/-- `Remove` leaves the sizes of the tree. -/
theorem leafMaxSize_remove (fuel : Nat) (key : Int) :
    (run (tree.remove fuel key) pool).1.2.leafMaxSize = tree.leafMaxSize := by
  simp only [remove, run_guarded]
  split
  · rfl
  · simp only [run_bind]
    split
    · rfl
    · rfl
    · simp only [run_bind]
      split
      · rfl
      · simp only [run_bind, run_pure, leafMaxSize_coalesceOrRedistribute]

theorem leafMaxSize_getValue (fuel : Nat) (key : Int) (result : List RID) :
    (run (tree.getValue fuel key result) pool).1.2.leafMaxSize = tree.leafMaxSize := by
  simp only [getValue, run_guarded]
  split
  · rfl
  · simp only [run_bind]
    split <;> rfl

end LeafMaxSize

end BPlusTree

end MiniDB.Index
