import MiniDB.Database.SharedPool
import MiniDB.Index.RootRouting

/-!
# Where a descent goes

`InsertIntoParent` writes the children of a new root one index too low, so of the
two halves `FindLeafPage` finds the right one in the place of the left one, and in
the place of the right one a zero: it goes on to page 0. The trees of a pool stay
sound as long as the leaf that is split at the root is page 0 itself.
-/

namespace MiniDB.Database

open Foundation Buffer PoolProgram Storage Index

/-- The page is a resident leaf. -/
def LeafAt (contents : Int → Option Bytes) (pageId : Int) : Prop :=
  ∃ data, contents pageId = some data ∧ LeafPage data

/-- A leaf is written; other leaves stay. -/
theorem LeafAt.update {contents : Int → Option Bytes} {pageId leaf : Int} {data : Bytes}
    (leafAt : LeafAt contents pageId) (leafPage : LeafPage data) :
    LeafAt (Function.update contents leaf (some data)) pageId := by
  by_cases same : pageId = leaf
  · exact ⟨data, by rw [same, Function.update_self], leafPage⟩
  · obtain ⟨before, resident, beforePage⟩ := leafAt
    exact ⟨before, by rw [Function.update_of_ne same, resident], beforePage⟩

/-- What the pages of a tree look like: no root, a leaf, or a root over page 0 and one
more leaf, where leaves that were split later may be about. -/
inductive Grown (contents : Int → Option Bytes) (owned : OwnedTree) : Prop where
  | empty (noRoot : owned.tree.rootPageId = -1) (noPages : owned.pages = [])
  | leaf (leafAt : LeafAt contents owned.tree.rootPageId)
      (onePage : owned.pages = [owned.tree.rootPageId])
  | node {middleKey newPageId : Int} (keyInt : IsInt middleKey) (newInt : IsInt newPageId)
      (root : contents owned.tree.rootPageId =
        some (rootOver Bytes.zeros 0 middleKey newPageId))
      (zero : LeafAt contents 0) (new : LeafAt contents newPageId)
      (owns : [owned.tree.rootPageId, 0, newPageId] ⊆ owned.pages)
      (resident : ∀ pageId ∈ owned.pages, contents pageId ≠ none)

namespace Grown

variable {contents changed : Int → Option Bytes} {owned other : OwnedTree} {leaf : Int}
  {data : Bytes} {key : Int} {leftMost : Bool} {visited : List Int}

/-- The pages of a tree are resident. -/
theorem resident_of_mem (grown : Grown contents owned) {pageId : Int}
    (member : pageId ∈ owned.pages) : contents pageId ≠ none := by
  cases grown with
  | empty _ noPages =>
    rw [noPages] at member
    cases member
  | leaf leafAt onePage =>
    obtain ⟨data, resident, -⟩ := leafAt
    rw [onePage] at member
    rw [List.mem_singleton.mp member, resident]
    exact Option.some_ne_none data
  | node _ _ _ _ _ _ resident => exact resident pageId member

/-- Only the root and the pages of the tree matter. -/
theorem congr (grown : Grown contents owned) (sameRoot : other.tree.rootPageId = owned.tree.rootPageId)
    (samePages : other.pages = owned.pages)
    (same : ∀ pageId ∈ owned.pages, changed pageId = contents pageId) : Grown changed other := by
  have leafAt : ∀ pageId ∈ owned.pages, LeafAt contents pageId → LeafAt changed pageId := by
    rintro pageId member ⟨data, resident, leafPage⟩
    exact ⟨data, (same pageId member).trans resident, leafPage⟩
  cases grown with
  | empty noRoot noPages => exact .empty (sameRoot.trans noRoot) (samePages.trans noPages)
  | leaf leaf onePage =>
    refine .leaf (sameRoot ▸ leafAt _ ?_ leaf) (by rw [samePages, onePage, sameRoot])
    rw [onePage]
    exact List.mem_singleton.mpr rfl
  | node keyInt newInt root zero new owns resident =>
    have rootOwned : owned.tree.rootPageId ∈ owned.pages := owns (by simp)
    refine .node keyInt newInt ?_ (leafAt _ (owns (by simp)) zero) (leafAt _ (owns (by simp)) new)
      ?_ ?_
    · rw [sameRoot, same _ rootOwned, root]
    · rw [sameRoot, samePages]
      exact owns
    · intro pageId member
      rw [samePages] at member
      rw [same pageId member]
      exact resident pageId member

/-- From the root there is a path to a leaf, on pages of the tree. -/
theorem exists_path (grown : Grown contents owned) (hasRoot : owned.tree.rootPageId ≠ -1)
    (key : Int) (leftMost : Bool) :
    ∃ leaf visited, Path contents key leftMost owned.tree.rootPageId leaf visited ∧
      visited.length ≤ 2 ∧ (∀ pageId ∈ visited, pageId ∈ owned.pages) ∧ LeafAt contents leaf := by
  cases grown with
  | empty noRoot => exact absurd noRoot hasRoot
  | leaf leafAt onePage =>
    obtain ⟨data, resident, leafPage⟩ := leafAt
    refine ⟨_, _, .leaf resident leafPage.isLeaf, by simp, ?_, data, resident, leafPage⟩
    rw [onePage]
    exact fun _ member => member
  | @node middleKey newPageId keyInt newInt root zero new owns =>
    have child := @childAt_rootOver 0 middleKey newPageId keyInt newInt key leftMost
    have reaches : ∀ leaf, childAt (rootOver Bytes.zeros 0 middleKey newPageId) key leftMost = leaf →
        leaf ∈ owned.pages → LeafAt contents leaf →
        ∃ leaf visited, Path contents key leftMost owned.tree.rootPageId leaf visited ∧
          visited.length ≤ 2 ∧ (∀ pageId ∈ visited, pageId ∈ owned.pages) ∧
          LeafAt contents leaf := by
      rintro leaf rfl isOwned ⟨data, resident, leafPage⟩
      refine ⟨_, [owned.tree.rootPageId, _], .node root isLeaf_rootOver
        (.leaf resident leafPage.isLeaf), by simp, ?_, data, resident, leafPage⟩
      intro pageId member
      rcases List.mem_cons.mp member with rfl | later
      · exact owns (by simp)
      · rw [List.mem_singleton.mp later]
        exact isOwned
    by_cases right : leftMost = false ∧ middleKey ≤ key
    · rw [if_pos right] at child
      exact reaches 0 child (owns (by simp)) zero
    · rw [if_neg right] at child
      exact reaches newPageId child (owns (by simp)) new

/-- A root over two leaves is not a leaf. -/
theorem not_leafAt_root {pageId oldPageId middleKey newPageId : Int}
    (root : contents pageId = some (rootOver Bytes.zeros oldPageId middleKey newPageId)) :
    ¬ LeafAt contents pageId := by
  rintro ⟨data, resident, leafPage⟩
  rw [root] at resident
  have leaf := leafPage.isLeaf
  rw [← Option.some.inj resident, isLeaf_rootOver] at leaf
  cases leaf

/-- A leaf is written. -/
theorem setLeaf (grown : Grown contents owned) (leafAt : LeafAt contents leaf)
    (leafPage : LeafPage data) : Grown (Function.update contents leaf (some data)) owned := by
  cases grown with
  | empty noRoot noPages => exact .empty noRoot noPages
  | leaf root onePage => exact .leaf (root.update leafPage) onePage
  | node keyInt newInt root zero new owns resident =>
    have different : owned.tree.rootPageId ≠ leaf := by
      rintro same
      exact not_leafAt_root root (same ▸ leafAt)
    refine .node keyInt newInt (by rw [Function.update_of_ne different, root])
      (zero.update leafPage) (new.update leafPage) owns ?_
    intro pageId member
    by_cases same : pageId = leaf
    · rw [same, Function.update_self]
      exact Option.some_ne_none data
    · rw [Function.update_of_ne same]
      exact resident pageId member

/-- A path from the root that ends there belongs to a tree of one leaf. -/
theorem onePage_of_path (grown : Grown contents owned) (hasRoot : owned.tree.rootPageId ≠ -1)
    (leafAt : LeafAt contents owned.tree.rootPageId) : owned.pages = [owned.tree.rootPageId] := by
  cases grown with
  | empty noRoot => exact absurd noRoot hasRoot
  | leaf _ onePage => exact onePage
  | node _ _ root => exact absurd leafAt (not_leafAt_root root)

/-- A path from a root that is a leaf ends there. -/
theorem eq_root_of_path {pageId : Int} (root : LeafAt contents pageId)
    (path : Path contents key leftMost pageId leaf visited) : leaf = pageId := by
  obtain ⟨data, resident, leafPage⟩ := root
  cases path with
  | leaf => rfl
  | node other node =>
    rw [resident] at other
    rw [← Option.some.inj other, leafPage.isLeaf] at node
    cases node

/-- A page is added to a tree of several pages; nothing leads to it. -/
theorem addPage (grown : Grown contents owned) (hasRoot : owned.tree.rootPageId ≠ -1)
    (several : ¬ LeafAt contents owned.tree.rootPageId) {next : Int}
    (absent : contents next = none) (sameRoot : other.tree.rootPageId = owned.tree.rootPageId)
    (pages : other.pages = owned.pages ++ [next]) :
    Grown (Function.update contents next (some data)) other := by
  have fresh : ∀ pageId ∈ owned.pages, pageId ≠ next := by
    rintro pageId member rfl
    exact grown.resident_of_mem member absent
  have update : ∀ pageId ∈ owned.pages,
      Function.update contents next (some data) pageId = contents pageId :=
    fun pageId member => Function.update_of_ne (fresh pageId member) _ _
  cases grown with
  | empty noRoot => exact absurd noRoot hasRoot
  | leaf root => exact absurd root several
  | node keyInt newInt root zero new owns resident =>
    have leafAt : ∀ pageId ∈ owned.pages, LeafAt contents pageId →
        LeafAt (Function.update contents next (some data)) pageId := by
      rintro pageId member ⟨bytes, held, leafPage⟩
      exact ⟨bytes, (update pageId member).trans held, leafPage⟩
    refine .node keyInt newInt ?_ (leafAt _ (owns (by simp)) zero) (leafAt _ (owns (by simp)) new)
      ?_ ?_
    · rw [sameRoot, update _ (owns (by simp)), root]
    · rw [sameRoot, pages]
      exact fun _ member => List.mem_append_left _ (owns member)
    · intro pageId member
      rw [pages] at member
      rcases List.mem_append.mp member with old | isNew
      · rw [update pageId old]
        exact resident pageId old
      · rw [List.mem_singleton.mp isNew, Function.update_self]
        exact Option.some_ne_none data

/-- In a sound tree every descent ends, on pages of the tree. -/
theorem descends {pool : BufferPool DiskManager} (grown : Grown pool.frames.contents owned)
    (settled : pool.frames.Settled) (atRest : AtRest pool.mutexes) : owned.Descends pool := by
  by_cases noRoot : owned.tree.rootPageId = -1
  · have null : ∀ fuel key leftMost,
        owned.tree.findLeafPage fuel key leftMost = (return .null) := by
      intro fuel key leftMost
      rw [BPlusTree.findLeafPage, if_pos noRoot]
    constructor
    · intro key leftMost _
      refine ⟨0, ?_, ?_⟩
      · rw [null]
        exact Descent.noConfusion
      · rw [null]
        exact atRest.not_isStuck
    · intro key leftMost _ fuel
      rw [null]
      trivial
  · constructor
    · intro key leftMost _
      obtain ⟨leaf, visited, path, short, onPages, -⟩ := grown.exists_path noRoot key leftMost
      obtain ⟨frame, after, -, ends⟩ := BPlusTree.run_findLeafPage settled path short
      refine ⟨2, ?_, ?_⟩
      · rw [ends owned.tree.latch]
        exact Descent.noConfusion
      · refine (BufferPool.not_isStuck_run_iff _ atRest).mpr
          (BPlusTree.each_findLeafPage settled path 2 lenient_findsFrame ?_)
        intro page member state settledState same
        have resident := grown.resident_of_mem (onPages page member)
        obtain ⟨data, held⟩ := Option.ne_none_iff_exists'.mp (same ▸ resident)
        obtain ⟨frame, found⟩ := BufferPool.exists_frame settledState held
        exact .inl (by rw [found]; exact Option.some_ne_none frame)
    · intro key leftMost _ fuel
      obtain ⟨leaf, visited, path, -, onPages, -⟩ := grown.exists_path noRoot key leftMost
      exact BPlusTree.each_findLeafPage settled path fuel (lenient_fetchesOnly _)
        fun page member _ _ _ => onPages page member

end Grown

namespace SharedPool

variable {shared : SharedPool}

/-- The pool is settled and at rest, the trees are sound, and their pages are their
own: no other tree has them, and no heap inserts into them. -/
structure Sound (shared : SharedPool) : Prop where
  settled : shared.pool.frames.Settled
  atRest : AtRest shared.pool.mutexes
  nextInt : IsInt shared.pool.frames.disk.nextPageId
  grown : ∀ {number : Nat} {owned : OwnedTree}, shared.trees number = some owned →
    Grown shared.pool.frames.contents owned
  separate : ∀ {first second : Nat} {owned other : OwnedTree}, first ≠ second →
    shared.trees first = some owned → shared.trees second = some other →
    ∀ pageId ∈ owned.pages, pageId ∉ other.pages
  lastPage : ∀ {number : Nat} {heap : TableHeap}, shared.heaps number = some heap →
    shared.pool.frames.contents heap.lastPageId ≠ none
  apart : ∀ {number tree : Nat} {heap : TableHeap} {owned : OwnedTree},
    shared.heaps number = some heap → shared.trees tree = some owned →
    heap.lastPageId ∉ owned.pages

/-- In a sound state every descent ends on pages of its tree. -/
theorem Sound.descends (sound : shared.Sound) : shared.Descends :=
  fun _ _ found => (sound.grown found).descends sound.settled sound.atRest

/-- The pages of a tree were issued. -/
theorem Sound.lt_next (sound : shared.Sound) {pageId : Int}
    (resident : shared.pool.frames.contents pageId ≠ none) :
    pageId < shared.pool.frames.disk.nextPageId := by
  obtain ⟨data, held⟩ := Option.ne_none_iff_exists'.mp resident
  obtain ⟨frame, found⟩ := BufferPool.exists_frame sound.settled held
  exact (sound.settled.issued found).2

/-- A tree gets no other pages than those that were issued in its operation. -/
theorem mem_after {owned : OwnedTree} {tree : BPlusTree} {before after : BufferPool DiskManager}
    {pageId : Int} (member : pageId ∈ (owned.after tree before after).pages) :
    pageId ∈ owned.pages ∨ before.frames.disk.nextPageId ≤ pageId := by
  simp only [OwnedTree.after] at member
  split at member
  · cases member
  · rcases List.mem_append.mp member with old | new
    · exact .inl old
    · obtain ⟨count, -, rfl⟩ := List.mem_map.mp new
      exact .inr (by omega)

/-- The outcome of an operation of a tree: it changed pages of its own only, and the
tree is sound. -/
def KeepsTree {Result : Type} (pool : BufferPool DiskManager) (owned : OwnedTree)
    (outcome : (Result × BPlusTree) × BufferPool DiskManager) : Prop :=
  ∃ contents count, pool.Becomes contents count outcome.2 ∧
    (∀ pageId < pool.frames.disk.nextPageId, pageId ∉ owned.pages →
      contents pageId = pool.frames.contents pageId) ∧
    Grown contents (owned.after outcome.1.2 pool outcome.2)

/-- An operation of a tree that changes pages of its own only. -/
theorem Sound.afterTree (sound : shared.Sound) {number : Nat} {owned : OwnedTree}
    (found : shared.trees number = some owned) {Result : Type}
    {outcome : (Result × BPlusTree) × BufferPool DiskManager}
    (keeps : KeepsTree shared.pool owned outcome)
    (atRest : AtRest outcome.2.mutexes) (nextInt : IsInt outcome.2.frames.disk.nextPageId) :
    (shared.afterTree number owned outcome).Sound := by
  obtain ⟨contents, count, becomes, kept, grown⟩ := keeps
  have trees : ∀ {other : Nat} {tree : OwnedTree},
      Function.update shared.trees number
        (some (owned.after outcome.1.2 shared.pool outcome.2)) other = some tree →
      other = number ∧ tree = owned.after outcome.1.2 shared.pool outcome.2 ∨
        other ≠ number ∧ shared.trees other = some tree := by
    intro other tree there
    rcases update_cases there with ⟨same, written⟩ | before
    · exact .inl ⟨same, (Option.some.inj written).symm⟩
    · exact .inr before
  have others : ∀ {other : Nat} {tree : OwnedTree}, other ≠ number →
      shared.trees other = some tree → ∀ pageId ∈ tree.pages,
        pageId < shared.pool.frames.disk.nextPageId ∧ pageId ∉ owned.pages :=
    fun different there pageId member =>
      ⟨sound.lt_next ((sound.grown there).resident_of_mem member),
        sound.separate different there found pageId member⟩
  refine ⟨becomes.settled, atRest, nextInt, ?_, ?_, ?_, ?_⟩
  · intro other tree there
    change Grown outcome.2.frames.contents tree
    rw [becomes.contents]
    rcases trees there with ⟨-, rfl⟩ | ⟨different, before⟩
    · exact grown
    · refine (sound.grown before).congr rfl rfl fun pageId member => ?_
      obtain ⟨below, notOwned⟩ := others different before pageId member
      exact kept pageId below notOwned
  · intro first second firstTree secondTree different firstThere secondThere pageId member inBoth
    rcases trees firstThere with ⟨rfl, rfl⟩ | ⟨firstOther, firstBefore⟩
    · rcases trees secondThere with ⟨rfl, -⟩ | ⟨secondOther, secondBefore⟩
      · exact different rfl
      · obtain ⟨below, notOwned⟩ := others secondOther secondBefore pageId inBoth
        rcases mem_after member with old | new
        · exact notOwned old
        · omega
    · obtain ⟨below, notOwned⟩ := others firstOther firstBefore pageId member
      rcases trees secondThere with ⟨rfl, rfl⟩ | ⟨secondOther, secondBefore⟩
      · rcases mem_after inBoth with old | new
        · exact notOwned old
        · omega
      · exact sound.separate different firstBefore secondBefore pageId member inBoth
  · intro heapNumber heap there
    have resident := sound.lastPage there
    change outcome.2.frames.contents heap.lastPageId ≠ none
    rw [becomes.contents, kept _ (sound.lt_next resident) (sound.apart there found)]
    exact resident
  · intro heapNumber treeNumber heap tree heapThere there member
    rcases trees there with ⟨-, rfl⟩ | ⟨-, before⟩
    · have below := sound.lt_next (sound.lastPage heapThere)
      rcases mem_after member with old | new
      · exact sound.apart heapThere found old
      · omega
    · exact sound.apart heapThere before member

/-- An operation of a heap writes its last page, or a new page. -/
theorem Sound.afterHeap (sound : shared.Sound) {pool : BufferPool DiskManager} {pageId : Int}
    {stored : Bytes} {count : Nat}
    (becomes : shared.pool.Becomes
      (Function.update shared.pool.frames.contents pageId (some stored)) count pool)
    (atRest : AtRest pool.mutexes) (nextInt : IsInt pool.frames.disk.nextPageId)
    (foreign : ∀ {tree : Nat} {owned : OwnedTree}, shared.trees tree = some owned →
      pageId ∉ owned.pages)
    {heap : TableHeap} (last : heap.lastPageId = pageId) (number : Nat) :
    ({ shared with pool, heaps := Function.update shared.heaps number (some heap) } :
      SharedPool).Sound := by
  have heaps : ∀ {other : Nat} {there : TableHeap},
      Function.update shared.heaps number (some heap) other = some there →
      there.lastPageId = pageId ∨ shared.heaps other = some there := by
    intro other there present
    rcases update_cases present with ⟨-, written⟩ | ⟨-, before⟩
    · exact .inl (Option.some.inj written ▸ last)
    · exact .inr before
  refine ⟨becomes.settled, atRest, nextInt, ?_, sound.separate, ?_, ?_⟩
  · intro tree owned there
    change Grown pool.frames.contents owned
    rw [becomes.contents]
    refine (sound.grown there).congr rfl rfl fun other member => ?_
    refine Function.update_of_ne ?_ _ _
    rintro rfl
    exact foreign there member
  · intro other there present
    change pool.frames.contents there.lastPageId ≠ none
    rw [becomes.contents]
    by_cases same : there.lastPageId = pageId
    · rw [same, Function.update_self]
      exact Option.some_ne_none stored
    · rw [Function.update_of_ne same]
      exact sound.lastPage ((heaps present).resolve_left same)
  · intro other tree there owned present treePresent
    rcases heaps present with here | before
    · rw [here]
      exact foreign treePresent
    · exact sound.apart before treePresent

/-! ## The calls -/

/-- A new heap gets a page of its own. -/
theorem sound_newHeap (fuel : Nat) (sound : shared.Sound) (number : Nat)
    (returns : shared.Returns fuel (.newHeap number)) :
    (shared.step fuel (.newHeap number)).Sound := by
  obtain ⟨notStuck, nextInt, -⟩ := returns
  obtain ⟨finds, atRest⟩ := BufferPool.returned TableHeap.new sound.atRest notStuck
  obtain ⟨after, built, becomes⟩ :=
    TableHeap.run_new sound.settled (TableHeap.findFree_of_new finds)
  simp only [step, built] at nextInt atRest ⊢
  refine sound.afterHeap becomes atRest nextInt ?_ rfl number
  intro tree owned there member
  have below := sound.lt_next ((sound.grown there).resident_of_mem member)
  omega

/-- An insertion into a heap writes the heap's last page, or a new one. -/
theorem sound_insertTuple (fuel : Nat) (sound : shared.Sound) (number : Nat) (tuple : Tuple)
    (returns : shared.Returns fuel (.insertTuple number tuple)) :
    (shared.step fuel (.insertTuple number tuple)).Sound := by
  obtain ⟨notStuck, nextInt, -⟩ := returns
  cases there : shared.heaps number with
  | none =>
    simp only [step, there]
    exact sound
  | some heap =>
    simp only [step, there] at notStuck nextInt ⊢
    obtain ⟨finds, atRest⟩ := BufferPool.returned _ sound.atRest notStuck
    obtain ⟨pageData, last⟩ := Option.ne_none_iff_exists'.mp (sound.lastPage there)
    obtain ⟨rid, pageId, stored, count, after, outcome, -, becomes, place⟩ :=
      TableHeap.run_insertTuple_cases sound.settled last finds
    rw [outcome] at nextInt atRest ⊢
    refine sound.afterHeap becomes atRest nextInt ?_ rfl number
    intro tree owned treeThere
    rcases place with ⟨-, rfl, -⟩ | ⟨-, rfl⟩
    · exact sound.apart there treeThere
    · intro member
      have below := sound.lt_next ((sound.grown treeThere).resident_of_mem member)
      omega

/-- A new tree has no page. -/
theorem sound_newTree (fuel : Nat) (sound : shared.Sound) (number : Nat)
    (leafMaxSize internalMaxSize : Int) :
    (shared.step fuel (.newTree number leafMaxSize internalMaxSize)).Sound := by
  have trees : ∀ {other : Nat} {tree : OwnedTree},
      Function.update shared.trees number
        (some { tree := { leafMaxSize, internalMaxSize } }) other = some tree →
      tree = { tree := { leafMaxSize, internalMaxSize } } ∨ shared.trees other = some tree := by
    intro other tree there
    rcases update_cases there with ⟨-, written⟩ | ⟨-, before⟩
    · exact .inl (Option.some.inj written).symm
    · exact .inr before
  refine ⟨sound.settled, sound.atRest, sound.nextInt, ?_, ?_, sound.lastPage, ?_⟩
  · intro other tree there
    rcases trees there with rfl | before
    · exact .empty rfl rfl
    · exact sound.grown before
  · intro first second firstTree secondTree different firstThere secondThere pageId member inBoth
    rcases trees firstThere with rfl | firstBefore
    · cases member
    · rcases trees secondThere with rfl | secondBefore
      · cases inBoth
      · exact sound.separate different firstBefore secondBefore pageId member inBoth
  · intro heapNumber treeNumber heap tree heapThere there member
    rcases trees there with rfl | before
    · cases member
    · exact sound.apart heapThere before member

/-- The pages that were issued follow one another. -/
theorem issuedPages_of_becomes {before after : BufferPool DiskManager}
    {contents : Int → Option Bytes} {count : Nat} (becomes : before.Becomes contents count after) :
    issuedPages before after =
      (List.range count).map fun more : Nat => before.frames.disk.nextPageId + more := by
  rw [issuedPages, becomes.next]
  congr 2
  omega

/-- The pages of a tree that made no new ones. -/
theorem pages_after_zero {before after : BufferPool DiskManager} {contents : Int → Option Bytes}
    (becomes : before.Becomes contents 0 after) (owned : OwnedTree) {tree : BPlusTree}
    (hasRoot : tree.rootPageId ≠ -1) : (owned.after tree before after).pages = owned.pages := by
  rw [OwnedTree.after, if_neg hasRoot, issuedPages_of_becomes becomes]
  exact List.append_nil _

/-- A tree without a root has no pages. -/
theorem noPages_of_noRoot {pool : BufferPool DiskManager} {owned : OwnedTree}
    (settled : pool.frames.Settled) (grown : Grown pool.frames.contents owned)
    (noRoot : owned.tree.rootPageId = -1) : owned.pages = [] := by
  have absent : ∀ data, pool.frames.contents owned.tree.rootPageId ≠ some data := by
    intro data resident
    obtain ⟨frame, found⟩ := BufferPool.exists_frame settled resident
    have issued := (settled.issued found).1
    omega
  cases grown with
  | empty _ noPages => exact noPages
  | leaf leafAt =>
    obtain ⟨data, resident, -⟩ := leafAt
    exact absurd resident (absent data)
  | node _ _ root => exact absurd root (absent _)

section Operations

variable {pool : BufferPool DiskManager} {owned : OwnedTree} {key : Int} {fuel : Nat}
  {leaf : Int} {visited : List Int} {data : Bytes}

/-- An operation that writes a leaf of the tree, and leaves its root or gives it up. -/
theorem keepsTree_of_setLeaf {answer : Option Bool} {tree : BPlusTree}
    {after : BufferPool DiskManager} {written : Bytes}
    (grown : Grown pool.frames.contents owned) (isOwned : leaf ∈ owned.pages)
    (leafAt : LeafAt pool.frames.contents leaf) (leafPage : LeafPage written)
    (becomes : pool.Becomes (Function.update pool.frames.contents leaf (some written)) 0 after)
    (hasRoot : owned.tree.rootPageId ≠ -1)
    (shape : tree.rootPageId = owned.tree.rootPageId ∨ tree.rootPageId = -1) :
    KeepsTree pool owned ((answer, tree), after) := by
  refine ⟨_, 0, becomes, ?_, ?_⟩
  · intro pageId _ notOwned
    refine Function.update_of_ne ?_ _ _
    rintro rfl
    exact notOwned isOwned
  · rcases shape with sameRoot | rootGone
    · exact (grown.setLeaf leafAt leafPage).congr sameRoot
        (pages_after_zero becomes owned (sameRoot ▸ hasRoot)) fun _ _ => rfl
    · refine .empty rootGone ?_
      rw [OwnedTree.after, if_pos rootGone]

/-- `Remove` changes pages of its tree only. -/
theorem keepsTree_remove (settled : pool.frames.Settled)
    (grown : Grown pool.frames.contents owned) (fuel : Nat) (key : Int) :
    KeepsTree pool owned (run (owned.tree.remove (fuel + 2) key) pool) := by
  by_cases hasRoot : owned.tree.rootPageId = -1
  · have outcome : run (owned.tree.remove (fuel + 2) key) pool =
        ((some false, owned.tree.relatched), pool) := by
      simp only [BPlusTree.remove, BPlusTree.run_guarded, if_pos hasRoot, run_pure]
    rw [outcome]
    refine ⟨_, 0, (BufferPool.Serves.refl settled).becomes, fun _ _ _ => rfl,
      .empty hasRoot ?_⟩
    rw [OwnedTree.after, if_pos hasRoot]
  · obtain ⟨leaf, visited, path, short, onPages, data, resident, leafPage⟩ :=
      grown.exists_path hasRoot key false
    have enough : visited.length ≤ fuel + 2 := by omega
    by_cases miss : binarySearch data key = 0 ∨ intAt data (2 + binarySearch data key - 1) ≠ key
    · obtain ⟨after, outcome, becomes⟩ :=
        BPlusTree.run_remove_miss settled path resident miss enough
      rw [outcome]
      exact ⟨_, 0, becomes, fun _ _ _ => rfl,
        grown.congr rfl (pages_after_zero becomes owned hasRoot) fun _ _ => rfl⟩
    · have bounds := leafPage.binarySearch_bounds key
      have removed : LeafPage (removeFromLeaf data (binarySearch data key - 1)) :=
        leafPage.removeFromLeaf (by omega) (by omega)
      obtain ⟨after, outcome, becomes⟩ :=
        BPlusTree.run_remove_hit settled path resident miss rfl removed.isLeaf enough
      rw [outcome]
      refine keepsTree_of_setLeaf grown (onPages leaf path.leaf_mem) ⟨data, resident, leafPage⟩
        removed becomes hasRoot ?_
      split
      · exact .inr rfl
      · exact .inl rfl

/-- `Insert` into a tree without a root. -/
theorem keepsTree_insert_root (settled : pool.frames.Settled)
    (grown : Grown pool.frames.contents owned) (noRoot : owned.tree.rootPageId = -1)
    (value : RID) (finds : Client.Each BufferPool.handle BufferPool.FindsFrame
      (owned.tree.insert fuel key value) pool) :
    KeepsTree pool owned (run (owned.tree.insert fuel key value) pool) := by
  have free : pool.findFree ≠ none := by
    rw [BPlusTree.insert, BPlusTree.each_guarded] at finds
    simp only [if_pos noRoot, BPlusTree.insertRoot, each_bind] at finds
    exact finds.1.1
  obtain ⟨after, outcome, becomes⟩ := BPlusTree.run_insert_root settled noRoot free fuel key value
  have nonneg := settled.nonneg
  rw [outcome]
  refine ⟨_, 1, becomes, ?_, ?_⟩
  · intro pageId below _
    exact Function.update_of_ne (Int.ne_of_lt below) _ _
  · refine .leaf ⟨_, Function.update_self _ _ _, leafPage_rootLeaf _ key value⟩ ?_
    have hasRoot : pool.frames.disk.nextPageId ≠ -1 := by omega
    simp only [OwnedTree.after, if_neg hasRoot, noPages_of_noRoot settled grown noRoot,
      issuedPages_of_becomes becomes]
    simp

/-- `Insert` into a leaf with room. -/
theorem keepsTree_insert_room (settled : pool.frames.Settled)
    (grown : Grown pool.frames.contents owned) (hasRoot : owned.tree.rootPageId ≠ -1)
    (path : Path pool.frames.contents key false owned.tree.rootPageId leaf visited)
    (isOwned : leaf ∈ owned.pages) (resident : pool.frames.contents leaf = some data)
    (leafPage : LeafPage data) (room : intAt data 1 < owned.tree.leafMaxSize)
    (fits : intAt data 1 < leafCapacity)
    (enough : visited.length ≤ fuel) (value : RID) :
    KeepsTree pool owned (run (owned.tree.insert fuel key value) pool) := by
  obtain ⟨after, outcome, becomes⟩ :=
    BPlusTree.run_insert_room settled path resident room enough value
  rw [outcome]
  exact keepsTree_of_setLeaf grown isOwned ⟨data, resident, leafPage⟩
    (leafPage.insertIntoLeaf (Int.add_one_le_iff.mpr fits) key value) becomes hasRoot (.inl rfl)

/-- The middle key of a split is an `int`. -/
theorem isInt_middleKey (oldData newData : Bytes) (newPageId key : Int) (value : RID) :
    IsInt (splitInsert oldData newData newPageId key value).2.2 := by
  have middle : IsInt (splitLeafPage oldData newData newPageId).2.2 := isInt_intAt _ _
  simp only [splitInsert]
  generalize splitLeafPage oldData newData newPageId = parts at middle
  obtain ⟨oldHalf, newHalf, middleKey⟩ := parts
  dsimp only
  split
  · exact middle
  · exact middle

/-- The page that is issued next has no contents. -/
theorem contents_next (settled : pool.frames.Settled) :
    pool.frames.contents pool.frames.disk.nextPageId = none := by
  simp only [Frames.contents, settled.lookup_next, Option.bind_none, Option.map_none]

/-- `Insert` into a full leaf that is not the root. -/
theorem keepsTree_halved {answer : Option Bool} {tree : BPlusTree}
    {after : BufferPool DiskManager} {parts : Bytes × Bytes × Int}
    (settled : pool.frames.Settled) (grown : Grown pool.frames.contents owned)
    (hasRoot : owned.tree.rootPageId ≠ -1)
    (path : Path pool.frames.contents key false owned.tree.rootPageId leaf visited)
    (isOwned : leaf ∈ owned.pages) (leafAt : LeafAt pool.frames.contents leaf)
    (left : LeafPage parts.1) (notRoot : leaf ≠ owned.tree.rootPageId)
    (becomes : pool.Becomes (BPlusTree.halved pool.frames.contents leaf
      pool.frames.disk.nextPageId parts) 1 after)
    (sameRoot : tree.rootPageId = owned.tree.rootPageId) :
    KeepsTree pool owned ((answer, tree), after) := by
  have absent : Function.update pool.frames.contents leaf (some parts.1)
      pool.frames.disk.nextPageId = none := by
    obtain ⟨data, resident, -⟩ := leafAt
    rw [Function.update_of_ne (BufferPool.ne_nextPageId settled resident).symm,
      contents_next settled]
  have several : ¬ LeafAt (Function.update pool.frames.contents leaf (some parts.1))
      owned.tree.rootPageId := by
    rintro ⟨data, resident, leafPage⟩
    rw [Function.update_of_ne notRoot.symm] at resident
    exact notRoot (Grown.eq_root_of_path ⟨data, resident, leafPage⟩ path)
  refine ⟨_, 1, becomes, ?_, (grown.setLeaf leafAt left).addPage hasRoot several absent
    sameRoot ?_⟩
  · intro pageId below notOwned
    have notLeaf : pageId ≠ leaf := by
      rintro rfl
      exact notOwned isOwned
    rw [BPlusTree.halved, Function.update_of_ne (Int.ne_of_lt below),
      Function.update_of_ne notLeaf]
  · rw [OwnedTree.after, if_neg (sameRoot ▸ hasRoot), issuedPages_of_becomes becomes]
    simp

/-- The pages after the root, a leaf, was split. -/
theorem pages_after_two {tree : BPlusTree} {after : BufferPool DiskManager}
    {contents : Int → Option Bytes} (becomes : pool.Becomes contents 2 after)
    (onePage : owned.pages = [owned.tree.rootPageId]) (hasRoot : tree.rootPageId ≠ -1) :
    (owned.after tree pool after).pages = [owned.tree.rootPageId,
      pool.frames.disk.nextPageId, pool.frames.disk.nextPageId + 1] := by
  simp only [OwnedTree.after, if_neg hasRoot, onePage, issuedPages_of_becomes becomes]
  simp [List.range_succ]

/-- `Insert` into a full leaf that is the root and page 0. -/
theorem keepsTree_rootOver {answer : Option Bool} {tree : BPlusTree}
    {after : BufferPool DiskManager} {parts : Bytes × Bytes × Int}
    (settled : pool.frames.Settled) (nextInt : IsInt pool.frames.disk.nextPageId)
    (onePage : owned.pages = [owned.tree.rootPageId])
    (leafAt : LeafAt pool.frames.contents owned.tree.rootPageId)
    (left : LeafPage parts.1) (right : LeafPage parts.2.1) (keyInt : IsInt parts.2.2)
    (zero : owned.tree.rootPageId = 0)
    (becomes : pool.Becomes (Function.update (BPlusTree.halved pool.frames.contents
        owned.tree.rootPageId pool.frames.disk.nextPageId parts)
      (pool.frames.disk.nextPageId + 1)
      (some (rootOver Bytes.zeros owned.tree.rootPageId parts.2.2
        pool.frames.disk.nextPageId))) 2 after)
    (newRoot : tree.rootPageId = pool.frames.disk.nextPageId + 1) :
    KeepsTree pool owned ((answer, tree), after) := by
  obtain ⟨data, resident, -⟩ := leafAt
  obtain ⟨frame, found⟩ := BufferPool.exists_frame settled resident
  have below := (settled.issued found).2
  rw [zero] at below becomes
  have hasRoot : tree.rootPageId ≠ -1 := by omega
  have pages := pages_after_two becomes onePage hasRoot
  have written : ∀ pageId, pageId ≠ pool.frames.disk.nextPageId + 1 →
      Function.update (BPlusTree.halved pool.frames.contents 0 pool.frames.disk.nextPageId parts)
        (pool.frames.disk.nextPageId + 1)
        (some (rootOver Bytes.zeros 0 parts.2.2 pool.frames.disk.nextPageId)) pageId =
      BPlusTree.halved pool.frames.contents 0 pool.frames.disk.nextPageId parts pageId :=
    fun pageId different => Function.update_of_ne different _ _
  have zeroHalf : BPlusTree.halved pool.frames.contents 0 pool.frames.disk.nextPageId parts 0 =
      some parts.1 := by
    rw [BPlusTree.halved, Function.update_of_ne (by omega), Function.update_self]
  have newHalf : BPlusTree.halved pool.frames.contents 0 pool.frames.disk.nextPageId parts
      pool.frames.disk.nextPageId = some parts.2.1 := Function.update_self _ _ _
  refine ⟨_, 2, becomes, ?_, .node keyInt nextInt ?_ ?_ ?_ ?_ ?_⟩
  · intro pageId belowNext notOwned
    have notZero : pageId ≠ 0 := by
      rintro rfl
      rw [onePage, zero] at notOwned
      exact notOwned (List.mem_singleton.mpr rfl)
    rw [written pageId (by omega), BPlusTree.halved, Function.update_of_ne (by omega),
      Function.update_of_ne notZero]
  · change Function.update _ _ _ tree.rootPageId = _
    rw [newRoot, Function.update_self]
  · exact ⟨parts.1, (written 0 (by omega)).trans zeroHalf, left⟩
  · exact ⟨parts.2.1, (written _ (by omega)).trans newHalf, right⟩
  · rw [pages, zero]
    change [tree.rootPageId, 0, pool.frames.disk.nextPageId] ⊆ _
    rw [newRoot]
    simp
  · intro pageId member
    rw [pages, zero] at member
    simp only [List.mem_cons, List.not_mem_nil, or_false] at member
    rcases member with rfl | rfl | rfl
    · rw [written 0 (by omega), zeroHalf]
      exact Option.some_ne_none _
    · rw [written _ (by omega), newHalf]
      exact Option.some_ne_none _
    · rw [Function.update_self]
      exact Option.some_ne_none _

/-- `Insert` that splits the root, if it does, while the root is page 0. -/
theorem keepsTree_insert (settled : pool.frames.Settled) (grown : Grown pool.frames.contents owned)
    (nextInt : IsInt pool.frames.disk.nextPageId) (value : RID) (finds : Client.Each BufferPool.handle BufferPool.FindsFrame
      (owned.tree.insert (fuel + 2) key value) pool)
    (fits : ∀ leaf ∈ route (fun pageId => (pool.frames.contents pageId).getD Bytes.zeros) key false
        (fuel + 2) owned.tree.rootPageId,
      ∀ data ∈ pool.frames.contents leaf,
        intAt data 1 < owned.tree.leafMaxSize → intAt data 1 < leafCapacity)
    (zero : ∀ data ∈ pool.frames.contents owned.tree.rootPageId, isLeaf data = true →
      owned.tree.leafMaxSize ≤ intAt data 1 → owned.tree.rootPageId = 0) :
    KeepsTree pool owned (run (owned.tree.insert (fuel + 2) key value) pool) := by
  by_cases hasRoot : owned.tree.rootPageId = -1
  · exact keepsTree_insert_root settled grown hasRoot value finds
  · obtain ⟨leaf, visited, path, short, onPages, data, resident, leafPage⟩ :=
      grown.exists_path hasRoot key false
    have isOwned := onPages leaf path.leaf_mem
    have enough : visited.length ≤ fuel + 2 := by omega
    by_cases room : intAt data 1 < owned.tree.leafMaxSize
    · exact keepsTree_insert_room settled grown hasRoot path isOwned resident leafPage room
        (fits leaf (path.route_eq enough) data resident room) enough value
    · obtain ⟨left, right⟩ :=
        leafPage.splitInsert Bytes.zeros pool.frames.disk.nextPageId key value
      obtain ⟨after, ⟨notRoot, outcome, becomes⟩ | ⟨isRoot, outcome, becomes⟩⟩ :=
        BPlusTree.run_insert_split settled path resident room enough value finds rfl
      · rw [outcome]
        exact keepsTree_halved settled grown hasRoot path isOwned ⟨data, resident, leafPage⟩ left
          notRoot becomes rfl
      · subst isRoot
        rw [outcome]
        exact keepsTree_rootOver settled nextInt
          (grown.onePage_of_path hasRoot ⟨data, resident, leafPage⟩) ⟨data, resident, leafPage⟩ left
          right (isInt_middleKey _ _ _ _ _)
          (zero data resident leafPage.isLeaf (Int.not_lt.mp room)) becomes rfl

/-- `Insert` that splits the root while it is another page: the descent to the middle
key goes on to page 0, which the tree does not have. -/
theorem not_descends_insert (settled : pool.frames.Settled)
    (grown : Grown pool.frames.contents owned) (nextInt : IsInt pool.frames.disk.nextPageId)
    (value : RID) (finds : Client.Each BufferPool.handle BufferPool.FindsFrame
      (owned.tree.insert (fuel + 2) key value) pool)
    (resident : pool.frames.contents owned.tree.rootPageId = some data)
    (leafData : isLeaf data = true) (full : owned.tree.leafMaxSize ≤ intAt data 1)
    (notZero : owned.tree.rootPageId ≠ 0) :
    ¬ (owned.after (run (owned.tree.insert (fuel + 2) key value) pool).1.2 pool
      (run (owned.tree.insert (fuel + 2) key value) pool).2).Descends
      (run (owned.tree.insert (fuel + 2) key value) pool).2 := by
  obtain ⟨frame, found⟩ := BufferPool.exists_frame settled resident
  have issued := settled.issued found
  have path : Path pool.frames.contents key false owned.tree.rootPageId owned.tree.rootPageId
      [owned.tree.rootPageId] := .leaf resident leafData
  have leafAt : LeafAt pool.frames.contents owned.tree.rootPageId := by
    obtain ⟨leaf, visited, other, -, -, leafAt⟩ := grown.exists_path (by omega) key false
    cases other with
    | leaf => exact leafAt
    | node there node =>
      rw [resident] at there
      rw [← Option.some.inj there, leafData] at node
      cases node
  have onePage := grown.onePage_of_path (by omega) leafAt
  obtain ⟨after, ⟨notRoot, -⟩ | ⟨-, outcome, becomes⟩⟩ :=
    BPlusTree.run_insert_split settled path resident (Int.not_lt.mpr full)
      (show [owned.tree.rootPageId].length ≤ fuel + 2 by simp) value finds rfl
  · exact absurd rfl notRoot
  · rw [outcome]
    have pages := @pages_after_two pool owned { owned.tree.relatched with
      rootPageId := pool.frames.disk.nextPageId + 1 } after _ becomes onePage (by simp only; omega)
    intro descends
    have keyInt := isInt_middleKey data Bytes.zeros pool.frames.disk.nextPageId key value
    generalize splitInsert data Bytes.zeros pool.frames.disk.nextPageId key value = parts
      at becomes keyInt
    have root : after.frames.contents (pool.frames.disk.nextPageId + 1) =
        some (rootOver Bytes.zeros owned.tree.rootPageId parts.2.2
          pool.frames.disk.nextPageId) := by
      rw [becomes.contents, Function.update_self]
    obtain ⟨below, -, -, goesOn⟩ :=
      BPlusTree.run_descend_node becomes.settled root isLeaf_rootOver parts.2.2 false 1
    have visits := descends.visits parts.2.2 false keyInt 2
    rw [BPlusTree.findLeafPage, if_neg (by simp only [OwnedTree.after]; omega)] at visits
    have child := ((goesOn _ (lenient_fetchesOnly _)).mp visits).2
    rw [childAt_rootOver keyInt nextInt, if_pos ⟨rfl, Int.le_refl _⟩, BPlusTree.descend,
      each_bind] at child
    have zeroOwned : (0 : Int) ∈ (owned.after _ pool after).pages := child.1.1
    rw [pages] at zeroOwned
    simp only [List.mem_cons, List.not_mem_nil, or_false] at zeroOwned
    omega

end Operations

/-- A call of `Remove`. -/
theorem sound_remove (fuel : Nat) (sound : shared.Sound) (number : Nat) (key : Int)
    (returns : shared.Returns (fuel + 2) (.remove number key)) :
    (shared.step (fuel + 2) (.remove number key)).Sound := by
  obtain ⟨notStuck, nextInt, -⟩ := returns
  cases there : shared.trees number with
  | none =>
    simp only [step, there]
    exact sound
  | some owned =>
    simp only [step, there] at notStuck nextInt ⊢
    exact sound.afterTree there (keepsTree_remove sound.settled (sound.grown there) fuel key)
      (BufferPool.returned _ sound.atRest notStuck).2 nextInt

/-- A call that meets the condition. -/
theorem sound_step (fuel : Nat) (sound : shared.Sound) (call : SharedCall)
    (returns : shared.Returns (fuel + 2) call) (meets : shared.SplitsPageZero call) :
    (shared.step (fuel + 2) call).Sound := by
  cases call with
  | newHeap number => exact sound_newHeap (fuel + 2) sound number returns
  | insertTuple number tuple => exact sound_insertTuple (fuel + 2) sound number tuple returns
  | newTree number leafMaxSize internalMaxSize =>
    exact sound_newTree (fuel + 2) sound number leafMaxSize internalMaxSize
  | remove number key => exact sound_remove fuel sound number key returns
  | insert number key value =>
    obtain ⟨notStuck, nextInt, fits⟩ := returns
    cases there : shared.trees number with
    | none =>
      simp only [step, there]
      exact sound
    | some owned =>
      simp only [step, there] at notStuck nextInt ⊢
      obtain ⟨finds, atRest⟩ := BufferPool.returned _ sound.atRest notStuck
      refine sound.afterTree there ?_ atRest nextInt
      exact keepsTree_insert sound.settled (sound.grown there) sound.nextInt value finds
        (fits owned there) (meets owned there)

/-- A call that does not meet the condition. -/
theorem not_descends_step (fuel : Nat) (sound : shared.Sound) (call : SharedCall)
    (returns : shared.Returns (fuel + 2) call) (fails : ¬ shared.SplitsPageZero call) :
    ¬ (shared.step (fuel + 2) call).Descends := by
  cases call with
  | insert number key value =>
    simp only [SplitsPageZero, not_forall] at fails
    obtain ⟨owned, there, data, resident, leafData, full, notZero⟩ := fails
    have stepEq : shared.step (fuel + 2) (.insert number key value) =
        shared.afterTree number owned
          (run (owned.tree.insert (fuel + 2) key value) shared.pool) := by
      simp only [step, Option.mem_def.mp there]
    have notStuck := returns.1
    rw [stepEq] at notStuck ⊢
    obtain ⟨finds, -⟩ :=
      BufferPool.returned (owned.tree.insert (fuel + 2) key value) sound.atRest notStuck
    intro descends
    exact not_descends_insert sound.settled (sound.grown there) sound.nextInt value finds resident
      leafData full notZero (descends number _ (Function.update_self _ _ _))
  | _ => exact absurd trivial fails

/-- In a run whose calls return, every descent in every tree ends on pages of the
tree, in every state, exactly when every root that is split is page 0. -/
theorem throughout_descends_iff (pool : BufferPool DiskManager) (settled : pool.frames.Settled)
    (atRest : AtRest pool.mutexes) (nextInt : IsInt pool.frames.disk.nextPageId) (fuel : Nat)
    (calls : List SharedCall)
    (returns : EachCall (step (fuel + 2)) (Returns (fuel + 2)) { pool } calls) :
    Throughout (step (fuel + 2)) Descends { pool } calls ↔
      EachCall (step (fuel + 2)) SplitsPageZero { pool } calls := by
  have initial : ({ pool } : SharedPool).Sound :=
    ⟨settled, atRest, nextInt, nofun, nofun, nofun, nofun⟩
  have meets_of_descends : ∀ (shared : SharedPool) (call : SharedCall), shared.Sound →
      shared.Returns (fuel + 2) call → (shared.step (fuel + 2) call).Descends →
      shared.SplitsPageZero call := by
    intro shared call sound returns descends
    by_contra fails
    exact not_descends_step fuel sound call returns fails descends
  refine returns.throughout_iff ?_ ?_ initial initial.descends
  · intro shared call sound _ returns
    exact ⟨meets_of_descends shared call sound returns,
      fun meets => (sound_step fuel sound call returns meets).descends⟩
  · intro shared call sound _ returns descends
    exact sound_step fuel sound call returns (meets_of_descends shared call sound returns descends)

/-- A tree that has page 0 splits its root; a heap works on the same pool. -/
theorem throughout_descends_page_zero :
    Throughout (step 2) Descends { pool := BufferPool.new 5 (DiskManager.new (some {})) }
      [.newTree 0 2 2, .insert 0 10 { pageId := 0, slotNum := 0 },
        .insert 0 20 { pageId := 0, slotNum := 1 }, .newHeap 0,
        .insert 0 30 { pageId := 0, slotNum := 2 }, .insertTuple 0 { size := 8 }, .remove 0 10] :=
  (throughout_descends_iff _ (Frames.settled_empty _ (by decide)) (BufferPool.atRest_new 5 _)
    (by decide) 0 _ (by decide +kernel)).mpr (by decide +kernel)

/-- A heap on page 0, and a tree of three entries on the same pool. -/
def heapFirst : List SharedCall :=
  [.newHeap 0, .newTree 0 2 2, .insert 0 10 { pageId := 0, slotNum := 0 },
    .insert 0 20 { pageId := 0, slotNum := 1 }, .insert 0 30 { pageId := 0, slotNum := 2 }]

/-- With a heap on page 0 a descent goes on from the root of the tree to the page of
the heap. -/
theorem descent_leaves_tree :
    EachCall (step 2) (Returns 2) { pool := BufferPool.new 5 (DiskManager.new (some {})) }
        heapFirst ∧
      ¬ Throughout (step 2) Descends { pool := BufferPool.new 5 (DiskManager.new (some {})) }
        heapFirst := by
  have leaves : ∃ owned ∈ (Foundation.run (step 2)
      { pool := BufferPool.new 5 (DiskManager.new (some {})) } heapFirst).trees 0,
      ¬ Client.Each BufferPool.handle (FetchesOnly fun pageId => pageId ∈ owned.pages)
        (owned.tree.findLeafPage 2 30 false) (Foundation.run (step 2)
          { pool := BufferPool.new 5 (DiskManager.new (some {})) } heapFirst).pool := by
    decide +kernel
  refine ⟨by decide +kernel, ?_⟩
  rintro ⟨-, -, -, -, -, descends⟩
  obtain ⟨owned, there, leaves⟩ := leaves
  exact leaves ((descends 0 owned there).visits 30 false (by decide) 2)

end SharedPool

end MiniDB.Database
