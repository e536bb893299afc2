import MiniDB.Buffer.Shortage
import MiniDB.Index.LeafKeys
import MiniDB.Index.TreeShape

/-!
# Insertion when pages are short

The keys of a tree are those of the leaves that can be reached from its root. An
insertion that is refused leaves them as they are, and one that returns true should
add its key. What stands between the two is the split of a leaf: the half that went
to the new page is lost when no node leads to it, because the page for a new root
was refused, because the leaf was not the root, or because the root that is split is
not page 0.
-/

namespace MiniDB.Index

open Foundation Buffer PoolProgram Storage

/-- The keys of some leaves. -/
def keysOn (contents : Int → Bytes) (leaves : List Int) : Multiset Int :=
  (leaves.map fun leaf => (leafKeys (contents leaf) : Multiset Int)).sum

section KeysOn

variable {contents others : Int → Bytes} {leaves : List Int} {leaf key : Int}

/-- Only the bytes of the leaves matter. -/
theorem keysOn_congr (same : ∀ leaf ∈ leaves, others leaf = contents leaf) :
    keysOn others leaves = keysOn contents leaves := by
  refine congrArg List.sum (List.map_congr_left fun leaf member => ?_)
  rw [same leaf member]

theorem keysOn_singleton (contents : Int → Bytes) (leaf : Int) :
    keysOn contents [leaf] = leafKeys (contents leaf) := by
  simp [keysOn]

theorem keysOn_pair (contents : Int → Bytes) (left right : Int) :
    keysOn contents [left, right] = ↑(leafKeys (contents right) ++ leafKeys (contents left)) := by
  simp only [keysOn, List.map_cons, List.map_nil, List.sum_cons, List.sum_nil, add_zero]
  exact add_comm _ _

/-- A key is added to one of the leaves. -/
theorem keysOn_insert (nodup : leaves.Nodup) (member : leaf ∈ leaves)
    (same : ∀ other ∈ leaves, other ≠ leaf → others other = contents other)
    (grown : (leafKeys (others leaf)).Perm (key :: leafKeys (contents leaf))) :
    keysOn others leaves = key ::ₘ keysOn contents leaves := by
  have here : (leafKeys (others leaf) : Multiset Int) = key ::ₘ (leafKeys (contents leaf)) :=
    Multiset.coe_eq_coe.mpr grown
  obtain ⟨front, back, rfl⟩ := List.append_of_mem member
  obtain ⟨notFront, notBack⟩ : leaf ∉ front ∧ leaf ∉ back := by
    have notElsewhere := (List.nodup_middle.mp nodup).notMem
    exact ⟨fun inFront => notElsewhere (List.mem_append_left _ inFront),
      fun inBack => notElsewhere (List.mem_append_right _ inBack)⟩
  have sameFront : keysOn others front = keysOn contents front := by
    refine keysOn_congr fun other inFront => same other (List.mem_append_left _ inFront) ?_
    rintro rfl
    exact notFront inFront
  have sameBack : keysOn others back = keysOn contents back := by
    refine keysOn_congr fun other inBack => same other ?_ ?_
    · exact List.mem_append_right _ (List.mem_cons_of_mem _ inBack)
    · rintro rfl
      exact notBack inBack
  have parts : ∀ some : Int → Bytes, keysOn some (front ++ leaf :: back) =
      keysOn some front + ((leafKeys (some leaf) : Multiset Int) + keysOn some back) := by
    intro some
    simp [keysOn]
  rw [parts, parts, sameFront, sameBack, here, Multiset.cons_add, Multiset.add_cons]

end KeysOn

/-! ## Runs -/

/-- A tree on its pool, over an ideal disk. -/
structure IdealTree where
  tree : BPlusTree
  pool : BufferPool IdealDisk

/-- A call on a tree, and which of the requests for pages in it are refused, besides
those that the pool refuses by itself. -/
structure ShortCall where
  call : TreeCall
  refusals : List Bool := []

namespace BPlusTree

/-- A call, with its answer put in words. -/
def perform (fuel : Nat) (tree : BPlusTree) : TreeCall → PoolProgram (TreeAnswer × BPlusTree)
  | .insert key rid _ _ => do
    let (answer, tree) ← tree.insert fuel key rid
    return ((answer.map .inserted).getD .unfinished, tree)
  | .remove key _ => do
    let (answer, tree) ← tree.remove fuel key
    return ((answer.map .removed).getD .unfinished, tree)
  | .getValue key _ result => do
    let (answer, tree) ← tree.getValue fuel key result
    return ((answer.map fun found => .found found.1 found.2).getD .unfinished, tree)

end BPlusTree

namespace IdealTree

/-- An empty tree on a pool without pages, on a disk that has some. -/
def start (leafMaxSize internalMaxSize : Int) (poolSize count : Nat) (initial : Int → Bytes) :
    IdealTree where
  tree := { leafMaxSize, internalMaxSize }
  pool := .new poolSize (.start count initial) .noop

/-- One call, with fuel for the descent. -/
def step (fuel : Nat) (state : IdealTree) (short : ShortCall) : TreeAnswer × IdealTree :=
  let outcome := idealService.refusing.run (state.tree.perform fuel short.call)
    (state.pool, short.refusals)
  (outcome.1.1, { tree := outcome.1.2, pool := outcome.2.1 })

/-- The state after a call. -/
def next (fuel : Nat) (state : IdealTree) (short : ShortCall) : IdealTree :=
  (state.step fuel short).2

/-- The pattern in which the requests for pages of a call are answered. -/
def pattern (fuel : Nat) (state : IdealTree) (short : ShortCall) : List PageAnswer :=
  idealService.refusing.pattern (state.tree.perform fuel short.call) (state.pool, short.refusals)

/-- The keys of the leaves that can be reached from the root. -/
def keys (fuel : Nat) (state : IdealTree) : Option (Multiset Int) :=
  let contents := state.pool.shown.contents
  if state.tree.rootPageId = -1 then some 0
  else (walk (fun pageId => some (contents pageId)) fuel state.tree.rootPageId).map fun leaves =>
    keysOn contents leaves.dedup

/-- `Insert` adds its key if it returns true and nothing if it returns false. -/
def Atomic (fuel : Nat) (state : IdealTree) (short : ShortCall) : Prop :=
  match short.call with
  | .insert key _ _ _ =>
    ∃ keys, state.keys fuel = some keys ∧
      ((state.step fuel short).1 = .inserted false ∧ (state.next fuel short).keys fuel = some keys ∨
        (state.step fuel short).1 = .inserted true ∧
          (state.next fuel short).keys fuel = some (key ::ₘ keys))
  | _ => True

/-- The leaf where a key goes has room for it, also in its page, and a place; or it is
full, and the request for a second leaf is refused; or there is a place on the right
side of the split, and the two halves can both be reached, or there is nothing in the
second one. -/
abbrev FindsPlace (tree : BPlusTree) (leaf : Int) (data : Bytes) (pattern : List PageAnswer)
    (key : Int) (value : RID) : Prop :=
  if intAt data 1 < tree.leafMaxSize then
    intAt data 1 < leafCapacity ∧ Places (leafKeys data) key value
  else pattern.count (.created true) = 0 ∨
    Places (sideOf data key) key value ∧
      (pattern.count (.created true) = 2 ∧ leaf = 0 ∨
        pattern.count (.created true) = 1 ∧ intAt data 1 ≤ 1 ∧ key < middleOf data)

/-- The condition on a call. -/
def InsertsWhole (fuel : Nat) (state : IdealTree) (short : ShortCall) : Prop :=
  match short.call with
  | .insert key value _ _ =>
    let pattern := state.pattern fuel short
    let contents := state.pool.shown.contents
    IsInt state.pool.shown.nextPageId ∧
      (state.tree.rootPageId = -1 ∨ .fetched false ∈ pattern ∨
        ∃ leaf ∈ route contents key false fuel state.tree.rootPageId,
          FindsPlace state.tree leaf (contents leaf) pattern key value)
  | _ => True

instance (fuel : Nat) (state : IdealTree) (short : ShortCall) :
    Decidable (state.InsertsWhole fuel short) :=
  match short with
  | ⟨.insert _ _ _ _, _⟩ => inferInstanceAs (Decidable (_ ∧ (_ ∨ _ ∨ ∃ leaf ∈ _, _)))
  | ⟨.remove _ _, _⟩ | ⟨.getValue _ _ _, _⟩ => inferInstanceAs (Decidable True)

/-- The pool shows its pages, and the tree has its shape in them. -/
def Shaped (state : IdealTree) : Prop :=
  state.pool.ShowsPages state.pool.shown [] ∧
    ∃ leaves, Rooted state.pool.shown state.tree.rootPageId leaves

end IdealTree

/-! ## The shape in the pages of a pool -/

section Shown

variable {pool : BufferPool IdealDisk} {pages : Pages} {pins : List ClientPin} {leaves : List Int}
  {rootPageId pageId : Int}

/-- A leaf is one in the pages that the pool shows. -/
theorem LeafOn.shown (leafOn : LeafOn pages pageId) (shows : pool.ShowsPages pages pins) :
    LeafOn pool.shown pageId := by
  refine ⟨shows.allocated_shown.mpr leafOn.allocated, ?_⟩
  rw [shows.shown_contents leafOn.allocated]
  exact leafOn.leafPage

/-- So is a tree. -/
theorem Rooted.shown (rooted : Rooted pages rootPageId leaves) (shows : pool.ShowsPages pages pins) :
    Rooted pool.shown rootPageId leaves :=
  rooted.mono shows.allocated_shown.mpr (fun leafOn => leafOn.shown shows)
    fun allocated _ => shows.shown_contents allocated

/-- The children of a new root, as a walk reads them. -/
theorem childrenOf_rootOver {oldPageId key newPageId : Int} (newInt : IsInt newPageId) :
    childrenOf (rootOver Bytes.zeros oldPageId key newPageId) = [newPageId, 0] := by
  have size : intAt (rootOver Bytes.zeros oldPageId key newPageId) 1 = 1 := by
    simp (disch := decide) only [rootOver, intAt_setInt_of_ne, intAt_setInt_self]
  have left : intAt (rootOver Bytes.zeros oldPageId key newPageId) 4 = newPageId := by
    simp (disch := first | assumption | decide) only [rootOver, intAt_setInt_self]
  have right : intAt (rootOver Bytes.zeros oldPageId key newPageId) 5 = 0 := by
    simp (disch := decide) only [rootOver, intAt_setInt_of_ne, intAt_zeros]
  rw [childrenOf, size]
  change [_, _] = _
  exact congrArg₂ (fun first second => [first, second]) left right

/-- Without a root there are no leaves. -/
theorem Rooted.eq_nil (rooted : Rooted pages rootPageId leaves) (empty : rootPageId = -1) :
    leaves = [] := by
  cases rooted with
  | empty noRoot => rfl
  | leaf leafOn => exact absurd leafOn.allocated.1 (by omega)
  | node keyInt newInt allocated root new zero different => exact absurd allocated.1 (by omega)

/-- A root that is a leaf is the only one. -/
theorem Rooted.eq_of_leafOn (rooted : Rooted pages rootPageId leaves)
    (leafOn : LeafOn pages rootPageId) : leaves = [rootPageId] := by
  cases rooted with
  | empty noRoot => exact absurd leafOn.allocated.1 (by omega)
  | leaf leafOn => rfl
  | node keyInt newInt allocated root new zero different => exact absurd rfl (ne_of_leafOn root leafOn)

/-- The walk from the root meets the leaves. -/
theorem Rooted.walk_eq (rooted : Rooted pages rootPageId leaves) (exists_root : rootPageId ≠ -1)
    (fuel : Nat) :
    walk (fun pageId => some (pages.contents pageId)) (fuel + 2) rootPageId = some leaves := by
  have atLeaf : ∀ {pageId : Int}, LeafOn pages pageId → ∀ fuel,
      walk (fun pageId => some (pages.contents pageId)) (fuel + 1) pageId = some [pageId] := by
    intro pageId leafOn fuel
    simp only [walk, Option.bind_eq_bind, Option.bind_some, leafOn.leafPage.isLeaf, if_true]
    rfl
  cases rooted with
  | empty noRoot => exact absurd noRoot exists_root
  | leaf leafOn => exact atLeaf leafOn (fuel + 1)
  | @node oldPageId middleKey newPageId keyInt newInt allocated root new zero different =>
    rw [walk, Option.bind_eq_bind, Option.bind_some, root, isLeaf_rootOver,
      childrenOf_rootOver newInt]
    simp [atLeaf new, atLeaf zero]

end Shown

namespace IdealTree

variable {tree : BPlusTree} {pool : BufferPool IdealDisk} {pages : Pages} {leaves : List Int}
  {fuel : Nat}

theorem shaped_of_shows (shows : pool.ShowsPages pages [])
    (rooted : Rooted pages tree.rootPageId leaves) : Shaped { tree, pool } :=
  ⟨shows.toShown, leaves, rooted.shown shows⟩

/-- The keys of a tree in the pages that are shown. -/
theorem keys_of_shows (shows : pool.ShowsPages pages [])
    (rooted : Rooted pages tree.rootPageId leaves) (fuel : Nat) :
    keys (fuel + 2) { tree, pool } = some (keysOn pages.contents leaves) := by
  have same : keysOn pool.shown.contents leaves = keysOn pages.contents leaves :=
    keysOn_congr fun leaf member => shows.shown_contents (rooted.leafOn member).allocated
  by_cases empty : tree.rootPageId = -1
  · rw [keys, if_pos empty, rooted.eq_nil empty]
    rfl
  · have walked := (rooted.shown shows).walk_eq empty fuel
    simp only [keys, if_neg empty, walked, Option.map_some, rooted.nodup.dedup, same]

/-! ## Insertion -/

/-- An insertion ended well: its answer tells what became of the keys, and the tree has
its shape. -/
def Ended (key : Int) (keys : Multiset Int)
    (outcome : (Option Bool × BPlusTree) × (BufferPool IdealDisk × List Bool)) : Prop :=
  ∃ success pages leaves, outcome.1.1 = some success ∧ outcome.2.1.ShowsPages pages [] ∧
    Rooted pages outcome.1.2.rootPageId leaves ∧
    keysOn pages.contents leaves = if success then key ::ₘ keys else keys

variable {key : Int} {value : RID} {pattern : List PageAnswer} {leaf : Int}
  {outcome : (Option Bool × BPlusTree) × (BufferPool IdealDisk × List Bool)}

/-- A leaf is split and a root over the two halves is made. -/
theorem ended_splitRoot (leafOn : LeafOn pages 0) (idInt : IsInt pages.nextPageId)
    (keyInt : IsInt key) (valueInt : value.IsInt)
    (places : Places (sideOf (pages.contents 0) key) key value)
    {grown : BPlusTree} (isRoot : grown.rootPageId = pages.nextPageId + 1)
    {after : BufferPool IdealDisk × List Bool}
    (shows : after.1.ShowsPages (BPlusTree.rootSplitPages pages 0 key value) []) :
    Ended key (keysOn pages.contents [0]) ((some true, grown), after) := by
  obtain ⟨size, sizeEq, small⟩ := leafOn.leafPage.exists_size
  have below := leafOn.allocated.2
  refine ⟨true, _, [pages.nextPageId, 0], rfl, shows,
    isRoot ▸ Rooted.splitRoot leafOn idInt (leafOn.split leafOn), ?_⟩
  rw [keysOn_pair, keysOn_singleton, BPlusTree.contents_rootSplitPages_of_ne (by omega),
    BPlusTree.contents_rootSplitPages_of_ne (by omega),
    BPlusTree.contents_splitPages_old leafOn.allocated.ne_next, BPlusTree.contents_splitPages_new]
  exact Multiset.coe_eq_coe.mpr (leafKeys_splitInsert sizeEq small idInt keyInt valueInt places)

/-- A leaf is split and no node leads to the second half, which is empty. -/
theorem ended_unlinked (rooted : Rooted pages tree.rootPageId leaves) (member : leaf ∈ leaves)
    (idInt : IsInt pages.nextPageId) (keyInt : IsInt key) (valueInt : value.IsInt)
    (places : Places (sideOf (pages.contents leaf) key) key value)
    (one : intAt (pages.contents leaf) 1 ≤ 1) (below : key < middleOf (pages.contents leaf))
    {after : BufferPool IdealDisk × List Bool}
    (shows : after.1.ShowsPages (BPlusTree.splitPages pages leaf key value) []) :
    Ended key (keysOn pages.contents leaves) ((some true, tree), after) := by
  have leafOn := rooted.leafOn member
  obtain ⟨size, sizeEq, small⟩ := leafOn.leafPage.exists_size
  have second : leafKeys (BPlusTree.splitParts pages leaf key value).2.1 = [] :=
    leafKeys_splitInsert_second sizeEq (by omega) idInt below
  have grown : (leafKeys (BPlusTree.splitParts pages leaf key value).1 ++
      leafKeys (BPlusTree.splitParts pages leaf key value).2.1).Perm
        (key :: leafKeys (pages.contents leaf)) :=
    leafKeys_splitInsert sizeEq small idInt keyInt valueInt places
  rw [second, List.append_nil, ← BPlusTree.contents_splitPages_old leafOn.allocated.ne_next] at grown
  refine ⟨true, _, leaves, rfl, shows, rooted.split leafOn,
    keysOn_insert rooted.nodup member (fun other inLeaves notLeaf => ?_) grown⟩
  exact BPlusTree.contents_splitPages_of_ne notLeaf (rooted.leafOn inLeaves).allocated.ne_next

/-- A full leaf. -/
theorem ended_splits (rooted : Rooted pages tree.rootPageId leaves) (member : leaf ∈ leaves)
    (idInt : IsInt pages.nextPageId) (keyInt : IsInt key) (valueInt : value.IsInt)
    (finds : pattern.count (.created true) = 0 ∨
      Places (sideOf (pages.contents leaf) key) key value ∧
        (pattern.count (.created true) = 2 ∧ leaf = 0 ∨
          pattern.count (.created true) = 1 ∧ intAt (pages.contents leaf) 1 ≤ 1 ∧
            key < middleOf (pages.contents leaf)))
    (splits : BPlusTree.Splits idealService.refusing pages [] leaf tree key value pattern outcome) :
    Ended key (keysOn pages.contents leaves) outcome := by
  have leafOn := rooted.leafOn member
  -- Without a node that leads to the second half, it has to be empty.
  have unlinked : ∀ {after : BufferPool IdealDisk × List Bool}, pattern.count (.created true) = 1 →
      after.1.ShowsPages (BPlusTree.splitPages pages leaf key value) [] →
      Ended key (keysOn pages.contents leaves) ((some true, tree), after) := by
    intro after once shows
    have finds : Places (sideOf (pages.contents leaf) key) key value ∧
        intAt (pages.contents leaf) 1 ≤ 1 ∧ key < middleOf (pages.contents leaf) := by
      rw [once] at finds
      simpa using finds
    obtain ⟨places, one, below⟩ := finds
    exact ended_unlinked rooted member idInt keyInt valueInt places one below shows
  cases splits with
  | refused shows => exact ⟨false, pages, leaves, rfl, shows, rooted, rfl⟩
  | notRoot notRoot shows => exact unlinked rfl shows
  | rootRefused isRoot shows => exact unlinked rfl shows
  | root isRoot shows =>
    have finds : Places (sideOf (pages.contents leaf) key) key value ∧ leaf = 0 := by
      simpa using finds
    obtain ⟨places, rfl⟩ := finds
    obtain rfl : leaves = [0] := rooted.eq_of_leafOn (isRoot ▸ leafOn) |>.trans (isRoot ▸ rfl)
    exact ended_splitRoot leafOn idInt keyInt valueInt places rfl shows

/-- A split fetches no page. -/
theorem fetched_notMem_of_splits {served : Bool}
    (splits : BPlusTree.Splits idealService.refusing pages [] leaf tree key value pattern outcome) :
    .fetched served ∉ pattern := by
  cases splits <;> simp

/-- The leaf at the end of a descent that got all its pages has a place. -/
theorem findsPlace_of_reached {answers : List PageAnswer} {target : Option Int}
    (finds : tree.rootPageId = -1 ∨ .fetched false ∈ answers ∨
      ∃ leaf ∈ target, FindsPlace tree leaf (pages.contents leaf) answers key value)
    (exists_root : tree.rootPageId ≠ -1) (reached : .fetched false ∉ answers)
    (found : target = some leaf) : FindsPlace tree leaf (pages.contents leaf) answers key value := by
  rcases finds with empty | missed | ⟨other, isTarget, finds⟩
  · exact absurd empty exists_root
  · exact absurd missed reached
  · rw [found] at isTarget
    cases isTarget
    exact finds

/-- An insertion that meets the condition. -/
theorem ended_inserts {answers : List PageAnswer}
    (nonneg : 0 ≤ pages.nextPageId) (rooted : Rooted pages tree.rootPageId leaves)
    (idInt : IsInt pages.nextPageId) (keyInt : IsInt key) (valueInt : value.IsInt)
    (finds : tree.rootPageId = -1 ∨ .fetched false ∈ answers ∨
      ∃ leaf ∈ route pages.contents key false (fuel + 2) tree.rootPageId,
        FindsPlace tree leaf (pages.contents leaf) answers key value)
    (inserts : BPlusTree.Inserts idealService.refusing pages []
      (route pages.contents key false (fuel + 2) tree.rootPageId) tree key value answers outcome) :
    Ended key (keysOn pages.contents leaves) outcome := by
  cases inserts with
  | rootRefused empty shows => exact ⟨false, pages, leaves, rfl, shows, rooted, rfl⟩
  | newRoot empty shows =>
    obtain rfl := rooted.eq_nil empty
    refine ⟨true, _, [pages.nextPageId], rfl, shows,
      .leaf (LeafOn.new nonneg (leafPage_rootLeaf Bytes.zeros key value)), ?_⟩
    simp [keysOn, leafKeys_rootLeaf Bytes.zeros keyInt valueInt]
  | missed exists_root missed shows => exact ⟨false, pages, leaves, rfl, shows, rooted, rfl⟩
  | unfinished exists_root nowhere shows =>
    obtain ⟨leaf, -, found⟩ := rooted.exists_route exists_root key false fuel
    rw [found] at nowhere
    cases nowhere
  | @room _ _ leaf exists_root found reached room shows =>
    have finds := findsPlace_of_reached finds exists_root reached found
    rw [FindsPlace, if_pos room] at finds
    obtain ⟨inside, places⟩ := finds
    have member := rooted.mem_of_route exists_root found
    have leafOn := rooted.leafOn member
    obtain ⟨size, sizeEq, sizeSmall⟩ := leafOn.leafPage.exists_size
    refine ⟨true, _, leaves, rfl, shows,
      rooted.setLeaf leafOn (leafOn.leafPage.insertIntoLeaf (Int.add_one_le_iff.mpr inside) key value),
      keysOn_insert rooted.nodup member (fun other _ => Pages.contents_write_of_ne) ?_⟩
    rw [Pages.contents_write_self]
    exact leafKeys_insertIntoLeaf sizeEq sizeSmall keyInt valueInt places
  | @full fetches pattern answer grown after leaf exists_root found served full splits =>
    have reached : .fetched false ∉ fetches ++ pattern := by
      intro member
      rcases List.mem_append.mp member with inFetches | inPattern
      · cases served _ inFetches
      · exact fetched_notMem_of_splits splits inPattern
    have none : fetches.count (.created true) = 0 := by
      refine List.count_eq_zero.mpr fun member => ?_
      cases served _ member
    have places := findsPlace_of_reached finds exists_root reached found
    rw [FindsPlace, if_neg full, List.count_append, none, Nat.zero_add] at places
    have locked : Rooted pages { tree with latch := tree.latch.lock }.rootPageId leaves := rooted
    have ended := ended_splits locked (rooted.mem_of_route exists_root found) idInt keyInt valueInt
      places splits
    exact ended

/-! ## Every run -/

variable {state : IdealTree} {refusals : List Bool} {keyInt : IsInt key} {valueInt : value.IsInt}

/-- An insertion in a run. -/
theorem ended_insert (shaped : state.Shaped)
    (whole : state.InsertsWhole (fuel + 2) ⟨.insert key value keyInt valueInt, refusals⟩) :
    ∃ leaves, Rooted state.pool.shown state.tree.rootPageId leaves ∧
      Ended key (keysOn state.pool.shown.contents leaves)
        (idealService.refusing.run (state.tree.insert (fuel + 2) key value) (state.pool, refusals)) := by
  obtain ⟨shows, leaves, rooted⟩ := shaped
  obtain ⟨idInt, finds⟩ := whole
  have inserts := @BPlusTree.inserts_insert _ idealService.refusing (state.pool, refusals) _ []
    state.tree key value (fuel + 2) shows fun exists_root =>
      rooted.routeExists exists_root key false (fuel + 2)
  have samePattern : state.pattern (fuel + 2) ⟨.insert key value keyInt valueInt, refusals⟩ =
      idealService.refusing.pattern (state.tree.insert (fuel + 2) key value) (state.pool, refusals) := by
    simp [pattern, BPlusTree.perform]
  rw [samePattern] at finds
  exact ⟨leaves, rooted,
    ended_inserts (idealService.nonneg shows) rooted idInt keyInt valueInt finds inserts⟩

/-- Every call of a run keeps the shape. -/
theorem shaped_step (shaped : state.Shaped) (short : ShortCall)
    (whole : state.InsertsWhole (fuel + 2) short) : (state.next (fuel + 2) short).Shaped := by
  obtain ⟨call, refusals⟩ := short
  have shown := shaped
  obtain ⟨shows, leaves, rooted⟩ := shown
  cases call with
  | insert key value keyInt valueInt =>
    obtain ⟨leaves, -, success, pages, after, -, showsAfter, rootedAfter, -⟩ :=
      ended_insert shaped whole
    simp only [next, step, BPlusTree.perform, PageService.run_bind, PageService.run_pure]
    exact shaped_of_shows showsAfter rootedAfter
  | remove key keyInt =>
    obtain ⟨pages, after, showsAfter, rootedAfter, -⟩ :=
      @keepsShape_remove _ idealService.refusing (state.pool, refusals) _ _ _ shows rooted (fuel + 2) key
    simp only [next, step, BPlusTree.perform, PageService.run_bind, PageService.run_pure]
    exact shaped_of_shows showsAfter rootedAfter
  | getValue key keyInt result =>
    obtain ⟨pages, after, showsAfter, rootedAfter, -⟩ :=
      @keepsShape_getValue _ idealService.refusing (state.pool, refusals) _ _ _ shows rooted (fuel + 2)
        key result
    simp only [next, step, BPlusTree.perform, PageService.run_bind, PageService.run_pure]
    exact shaped_of_shows showsAfter rootedAfter

/-- An insertion that meets the condition is atomic. -/
theorem atomic_of_shaped (shaped : state.Shaped) (short : ShortCall)
    (whole : state.InsertsWhole (fuel + 2) short) : state.Atomic (fuel + 2) short := by
  obtain ⟨call, refusals⟩ := short
  cases call with
  | insert key value keyInt valueInt =>
    obtain ⟨leaves, rooted, success, pages, after, answered, shows, rootedAfter, grown⟩ :=
      ended_insert shaped whole
    refine ⟨_, keys_of_shows shaped.1 rooted fuel, ?_⟩
    simp only [next, step, BPlusTree.perform, PageService.run_bind, PageService.run_pure, answered,
      keys_of_shows shows rootedAfter fuel, grown]
    cases success with
    | true => exact .inr ⟨rfl, rfl⟩
    | false => exact .inl ⟨rfl, rfl⟩
  | remove key keyInt => trivial
  | getValue key keyInt result => trivial

/-- In a run of a tree on a pool of its own, whichever requests for pages are refused,
every insertion adds its key if it returns true and nothing if it returns false, if
each of them meets the condition. -/
theorem eachCall_atomic (fuel poolSize count : Nat) (leafMaxSize internalMaxSize : Int)
    (initial : Int → Bytes) (calls : List ShortCall)
    (whole : EachCall (next (fuel + 2)) (InsertsWhole (fuel + 2))
      (start leafMaxSize internalMaxSize poolSize count initial) calls) :
    EachCall (next (fuel + 2)) (Atomic (fuel + 2))
      (start leafMaxSize internalMaxSize poolSize count initial) calls := by
  have shaped : (start leafMaxSize internalMaxSize poolSize count initial).Shaped :=
    shaped_of_shows (showsPages_new poolSize count initial) (.empty rfl)
  refine @EachCall.imp _ _ (next (fuel + 2)) _ Shaped _ ?_ ?_ _ _ shaped whole
  · exact fun state short shaped whole => shaped_step shaped short whole
  · exact fun state short shaped whole => atomic_of_shaped shaped short whole

/-- Insert a key under a RID that names page 1. -/
def insertCall (key : Int) (keyInt : IsInt key) (refusals : List Bool) : ShortCall where
  call := .insert key { pageId := 1, slotNum := 1 } keyInt (by decide)
  refusals := refusals

/-- Two keys fill the root; the third one is refused once and then splits it. -/
theorem eachCall_atomic_split :
    EachCall (next 3) (Atomic 3) (start 2 2 4 0 fun _ => Bytes.zeros)
      [insertCall 1 (by decide) [], insertCall 2 (by decide) [], insertCall 3 (by decide) [false, true],
        insertCall 3 (by decide) []] :=
  eachCall_atomic 1 4 0 2 2 _ _ (by decide +kernel)

/-- In a pool of two frames the split of the root gets a page for the second leaf and
none for the new root: `Insert` returns true, and two of the three keys are gone. -/
theorem split_without_new_root_loses_keys :
    ¬ ∀ (fuel poolSize count : Nat) (leafMaxSize internalMaxSize : Int) (initial : Int → Bytes)
      (calls : List ShortCall), EachCall (next (fuel + 2)) (Atomic (fuel + 2))
        (start leafMaxSize internalMaxSize poolSize count initial) calls := by
  intro all
  let filled := run (next 3) (start 2 2 2 0 fun _ => Bytes.zeros)
    [insertCall 1 (by decide) [], insertCall 2 (by decide) []]
  have had : filled.keys 3 = some {1, 2} := by decide +kernel
  have answered : (filled.step 3 (insertCall 3 (by decide) [])).1 = .inserted true := by
    decide +kernel
  have has : (filled.next 3 (insertCall 3 (by decide) [])).keys 3 = some {1} := by decide +kernel
  obtain ⟨-, -, ⟨keys, before, outcome⟩, -⟩ := all 1 2 0 2 2 (fun _ => Bytes.zeros)
    [insertCall 1 (by decide) [], insertCall 2 (by decide) [], insertCall 3 (by decide) []]
  obtain rfl := Option.some.inj (had.symm.trans before)
  rcases outcome with ⟨refused, -⟩ | ⟨-, grown⟩
  · cases answered.symm.trans refused
  · have same := Option.some.inj (has.symm.trans grown)
    exact absurd (congrArg Multiset.card same) (by decide)

end IdealTree

end MiniDB.Index
