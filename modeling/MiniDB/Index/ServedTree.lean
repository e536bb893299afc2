import MiniDB.Buffer.PageService
import MiniDB.Index.TreePages

/-!
# The tree over a service of pages

What the operations of a tree make of the pages of a service that may refuse any
request. `route` is where `FindLeafPage` goes by the bytes of the pages alone; each
operation is described once by the cases in which it can end.
-/

namespace MiniDB.Index

open Foundation Buffer PoolProgram

/-- The leaf at which the loop of `FindLeafPage` ends. -/
def route (contents : Int → Bytes) (key : Int) (leftMost : Bool) : (fuel : Nat) → Int → Option Int
  | 0, _ => none
  | fuel + 1, pageId =>
    if isLeaf (contents pageId) then some pageId
    else route contents key leftMost fuel (childAt (contents pageId) key leftMost)

/-- A path through the pages in the pool is the route. -/
theorem Path.route_eq {contents : Int → Option Bytes} {key : Int} {leftMost : Bool}
    {pageId leaf : Int} {visited : List Int}
    (path : Path contents key leftMost pageId leaf visited) {fuel : Nat}
    (enough : visited.length ≤ fuel) :
    route (fun pageId => (contents pageId).getD Bytes.zeros) key leftMost fuel pageId =
      some leaf := by
  induction path generalizing fuel with
  | leaf resident leafData =>
    obtain ⟨fuel, rfl⟩ := Nat.exists_eq_add_of_le' enough
    simp [route, resident, leafData]
  | node resident node _ ih =>
    obtain ⟨fuel, rfl⟩ := Nat.exists_eq_succ_of_ne_zero (Nat.ne_of_gt (Nat.zero_lt_of_lt enough))
    simp [route, resident, node, ih (Nat.le_of_succ_le_succ enough)]

/-- The pages on the way to the leaf exist. -/
def RouteExists (pages : Pages) (key : Int) (leftMost : Bool) : (fuel : Nat) → Int → Prop
  | 0, _ => True
  | fuel + 1, pageId => pages.Allocated pageId ∧
    (isLeaf (pages.contents pageId) = false →
      RouteExists pages key leftMost fuel (childAt (pages.contents pageId) key leftMost))

theorem RouteExists.allocated {pages : Pages} {key : Int} {leftMost : Bool} {fuel : Nat}
    {pageId leaf : Int} (exist : RouteExists pages key leftMost fuel pageId)
    (found : route pages.contents key leftMost fuel pageId = some leaf) : pages.Allocated leaf := by
  induction fuel generalizing pageId with
  | zero => cases found
  | succ fuel ih =>
    rw [route] at found
    split at found
    · cases found
      exact exist.1
    · next isNode => exact ih (exist.2 (by simpa using isNode)) found

namespace BPlusTree

variable {State : Type} {service : PageService State} {state : State} {pages : Pages}
  {pins : List ClientPin} {tree : BPlusTree} {target : Option Int} {key : Int} {fuel : Nat}

/-- How a descent can end: at a page that is refused, without fuel, or at its leaf,
which it holds a pin of. -/
inductive Finds (service : PageService State) (pages : Pages) (pins : List ClientPin)
    (target : Option Int) : Descent × State → Prop where
  | refused {after : State} (shows : service.Shows after pages pins) :
      Finds service pages pins target (.null, after)
  | unfinished {after : State} (nowhere : target = none) (shows : service.Shows after pages pins) :
      Finds service pages pins target (.unfinished, after)
  | leaf {after : State} {leaf : Int} {frame : Nat} (found : target = some leaf)
      (shows : service.Shows after pages ({ pageId := leaf, frame } :: pins)) :
      Finds service pages pins target (.leaf frame, after)

/-- The loop of `FindLeafPage`. -/
theorem finds_descend (shows : service.Shows state pages pins) {leftMost : Bool} {pageId : Int}
    (exist : RouteExists pages key leftMost fuel pageId) :
    Finds service pages pins (route pages.contents key leftMost fuel pageId)
      (service.run (descend key leftMost fuel pageId) state) := by
  induction fuel generalizing state pageId with
  | zero => exact .unfinished rfl shows
  | succ fuel ih =>
    rw [descend, route]
    simp only [PageService.run_bind, PageService.run_fetchPage]
    rcases service.fetchPage shows exist.1 with ⟨refused, kept⟩ | ⟨frame, fetched, held⟩
    · simp only [refused, PageService.run_pure]
      exact .refused kept
    · have read := service.getData held List.mem_cons_self
      simp only [fetched, PageService.run_bind, PageService.run_getData, read]
      by_cases isLeaf : isLeaf (pages.contents pageId) = true
      · simp only [isLeaf, if_true, PageService.run_pure]
        exact .leaf rfl held
      · simp only [isLeaf, if_false, Bool.false_eq_true, PageService.run_bind,
          PageService.run_unpinPage]
        exact ih (service.unpinPage held (by simp)) (exist.2 (by simpa using isLeaf))

theorem finds_findLeafPage (shows : service.Shows state pages pins) {leftMost : Bool}
    (exists_root : tree.rootPageId ≠ -1)
    (exist : RouteExists pages key leftMost fuel tree.rootPageId) :
    Finds service pages pins (route pages.contents key leftMost fuel tree.rootPageId)
      (service.run (tree.findLeafPage fuel key leftMost) state) := by
  rw [findLeafPage, if_neg exists_root]
  exact finds_descend shows exist

theorem exists_root (exist : pages.Allocated tree.rootPageId) : tree.rootPageId ≠ -1 := by
  have nonneg := exist.1
  omega

/-- The descent to a root that is a leaf ends as `FetchPage` of the root does. -/
theorem find_rootLeaf (shows : service.Shows state pages pins)
    (exist : pages.Allocated tree.rootPageId)
    (isLeaf : isLeaf (pages.contents tree.rootPageId) = true) (fuel : Nat) (latch : Mutex) (key : Int)
    (leftMost : Bool) :
    let fetched : Option Nat × State := service.handle (.fetchPage tree.rootPageId) state
    service.run (findLeafPage { tree with latch } (fuel + 1) key leftMost) state =
      (fetched.1.elim .null .leaf, fetched.2) := by
  simp only [findLeafPage, if_neg (exists_root exist), descend, PageService.run_bind,
    PageService.run_fetchPage]
  rcases service.fetchPage shows exist with ⟨refused, -⟩ | ⟨frame, fetched, held⟩
  · simp only [refused, PageService.run_pure, Option.elim_none]
  · have read := service.getData held List.mem_cons_self
    dsimp only at read
    simp only [fetched, PageService.run_bind, PageService.run_getData, read, isLeaf, if_true,
      PageService.run_pure, Option.elim_some]

/-- `std::lock_guard` around a program. -/
theorem served_guarded {Result : Type} (body : BPlusTree → PoolProgram (Result × BPlusTree)) :
    service.run (guarded body tree) state =
      let outcome := service.run (body { tree with latch := tree.latch.lock }) state
      ((outcome.1.1, { outcome.1.2 with latch := outcome.1.2.latch.unlock }), outcome.2) := by
  simp [guarded]

/-! ## Removal -/

/-- The leaf does not have the key, as `Remove` looks for it. -/
abbrev Absent (data : Bytes) (key : Int) : Prop :=
  binarySearch data key = 0 ∨ intAt data (2 + binarySearch data key - 1) ≠ key

/-- The tree after a removal from a leaf: a root that became empty is given up. -/
def afterRemoval (tree : BPlusTree) (leaf : Int) (data : Bytes) : BPlusTree :=
  if leaf = tree.rootPageId ∧ intAt data 1 = 0 then
    { tree with rootPageId := -1, leafStartPageId := -1 }
  else tree

/-- How `Remove` can end on a tree with a root. -/
inductive Removes (service : PageService State) (pages : Pages) (pins : List ClientPin)
    (target : Option Int) (tree : BPlusTree) (key : Int) :
    (Option Bool × BPlusTree) × State → Prop where
  | refused {after : State} (shows : service.Shows after pages pins) :
      Removes service pages pins target tree key ((some false, tree.relatched), after)
  | unfinished {after : State} (nowhere : target = none) (shows : service.Shows after pages pins) :
      Removes service pages pins target tree key ((none, tree.relatched), after)
  | absent {after : State} {leaf : Int} (found : target = some leaf)
      (absent : Absent (pages.contents leaf) key) (shows : service.Shows after pages pins) :
      Removes service pages pins target tree key ((some false, tree.relatched), after)
  | removed {after : State} {leaf : Int} {data : Bytes} (found : target = some leaf)
      (present : ¬ Absent (pages.contents leaf) key)
      (dataEq : data = removeFromLeaf (pages.contents leaf) (binarySearch (pages.contents leaf) key - 1))
      (shows : service.Shows after (pages.write leaf data) pins) :
      Removes service pages pins target tree key
        ((some true, tree.relatched.afterRemoval leaf data), after)

/-- `CoalesceOrRedistribute` of a leaf that is pinned. -/
theorem served_coalesceOrRedistribute {leaf : Int} {frame : Nat}
    (shows : service.Shows state pages ({ pageId := leaf, frame, wrote := true } :: pins))
    (isLeaf : isLeaf (pages.contents leaf) = true) :
    ∃ after, service.run (tree.coalesceOrRedistribute frame) state =
        (tree.afterRemoval leaf (pages.contents leaf), after) ∧
      service.Shows after pages ({ pageId := leaf, frame, wrote := true } :: pins) := by
  have named := service.getPageId shows List.mem_cons_self
  have read := service.getData shows List.mem_cons_self
  dsimp only at named read
  simp only [coalesceOrRedistribute, PageService.run_bind, PageService.run_getPageId, named]
  by_cases isRoot : leaf = tree.rootPageId
  · subst isRoot
    by_cases isEmpty : intAt (pages.contents tree.rootPageId) 1 = 0
    · refine ⟨_, ?_, service.deletePage shows List.mem_cons_self⟩
      simp only [adjustRoot, PageService.run_bind, PageService.run_getData, read, isEmpty, if_true,
        PageService.run_deletePage, isLeaf, PageService.run_pure, afterRemoval, and_self]
    · refine ⟨state, ?_, shows⟩
      simp only [adjustRoot, PageService.run_bind, PageService.run_getData, read, isEmpty, if_true,
        if_false, PageService.run_pure, afterRemoval, and_false]
  · refine ⟨state, ?_, shows⟩
    simp only [PageService.run_pure, afterRemoval, isRoot, false_and, if_false]

section

variable {middle : State} {leaf : Int} {frame : Nat}

/-- `Remove` of a key that the leaf at the end of the descent does not have. -/
theorem served_remove_absent (exists_root : tree.rootPageId ≠ -1)
    (ends : service.run (findLeafPage { tree with latch := tree.latch.lock } fuel key false) state =
      (.leaf frame, middle))
    (shows : service.Shows middle pages ({ pageId := leaf, frame } :: pins))
    (absent : Absent (pages.contents leaf) key) :
    ∃ after, service.run (tree.remove fuel key) state = ((some false, tree.relatched), after) ∧
      service.Shows after pages pins := by
  have named := service.getPageId shows List.mem_cons_self
  have read := service.getData shows List.mem_cons_self
  dsimp only at named read
  have released := @PageService.unpinPage _ service _ _ _ _ false shows (by simp)
  refine ⟨_, ?_, released⟩
  simp only [remove, served_guarded, if_neg exists_root, PageService.run_bind, ends,
    PageService.run_getData, read, if_pos absent, PageService.run_getPageId, named,
    PageService.run_unpinPage, PageService.run_pure]

/-- `Remove` of a key that it has, if the page stays a leaf. -/
theorem served_remove_present (exists_root : tree.rootPageId ≠ -1)
    (ends : service.run (findLeafPage { tree with latch := tree.latch.lock } fuel key false) state =
      (.leaf frame, middle))
    (shows : service.Shows middle pages ({ pageId := leaf, frame } :: pins))
    (present : ¬ Absent (pages.contents leaf) key) {data : Bytes}
    (dataEq : removeFromLeaf (pages.contents leaf)
      (binarySearch (pages.contents leaf) key - 1) = data) (isLeaf : isLeaf data = true) :
    ∃ after, service.run (tree.remove fuel key) state =
        ((some true, tree.relatched.afterRemoval leaf data), after) ∧
      service.Shows after (pages.write leaf data) pins := by
  have read := service.getData shows List.mem_cons_self
  have written := service.setDirty (service.putData shows data) List.mem_cons_self
  obtain ⟨adjusted, adjusts, kept⟩ := @served_coalesceOrRedistribute _ _ _ _ _
    { tree with latch := tree.latch.lock } leaf frame written (by simpa using isLeaf)
  have named := service.getPageId kept List.mem_cons_self
  dsimp only at named read adjusts
  refine ⟨_, ?_, service.unpinPage kept fun _ => rfl⟩
  simp only [remove, served_guarded, if_neg exists_root, PageService.run_bind, ends,
    PageService.run_getData, read, if_neg present, dataEq, PageService.run_putData,
    PageService.run_setDirty, adjusts, PageService.run_getPageId, named, PageService.run_unpinPage,
    PageService.run_pure, Pages.contents_write_self, afterRemoval]
  by_cases emptied : leaf = tree.rootPageId ∧ intAt data 1 = 0
  · simp only [if_pos emptied]
  · simp only [if_neg emptied]

end

/-- The cases of `Remove`, if no removal makes a node of a leaf. -/
theorem removes_remove (exists_root : tree.rootPageId ≠ -1)
    (finds : Finds service pages pins target
      (service.run (findLeafPage { tree with latch := tree.latch.lock } fuel key false) state))
    (stays : ∀ leaf, target = some leaf → ¬ Absent (pages.contents leaf) key →
      isLeaf (removeFromLeaf (pages.contents leaf)
        (binarySearch (pages.contents leaf) key - 1)) = true) :
    Removes service pages pins target tree key (service.run (tree.remove fuel key) state) := by
  generalize ends : service.run (findLeafPage _ fuel key false) state = outcome at finds
  cases finds with
  | refused shows =>
    simp only [remove, served_guarded, if_neg exists_root, PageService.run_bind, ends]
    exact .refused shows
  | unfinished nowhere shows =>
    simp only [remove, served_guarded, if_neg exists_root, PageService.run_bind, ends]
    exact .unfinished nowhere shows
  | @leaf middle leaf frame found shows =>
    by_cases absent : Absent (pages.contents leaf) key
    · obtain ⟨after, ran, kept⟩ := served_remove_absent exists_root ends shows absent
      rw [ran]
      exact .absent found absent kept
    · obtain ⟨after, ran, kept⟩ :=
        served_remove_present exists_root ends shows absent rfl (stays leaf found absent)
      rw [ran]
      exact .removed found absent rfl kept

/-! ## Insertion -/

section Parent

variable {old new : ClientPin}

/-- `InsertIntoParent` over a root that is split. -/
theorem served_insertIntoParent_root (shows : service.Shows state pages (old :: new :: pins))
    (granted : (service.handle .newPage state : Option (Int × Nat) × State).1 ≠ none)
    (isRoot : old.pageId = tree.rootPageId) (separator : Int) :
    ∃ after, service.run (tree.insertIntoParent old.frame separator new.frame) state =
        ({ tree with rootPageId := pages.nextPageId }, after) ∧
      service.Shows after (pages.add.write pages.nextPageId
        (rootOver Bytes.zeros old.pageId separator new.pageId)) (old :: new :: pins) := by
  have oldId := service.getPageId shows List.mem_cons_self
  have newId := service.getPageId shows (List.mem_cons_of_mem _ List.mem_cons_self)
  rcases service.newPage shows with ⟨refused, -⟩ | ⟨frame, made, held⟩
  · exact absurd refused granted
  · have read := service.getData held List.mem_cons_self
    have written := service.putData held (rootOver Bytes.zeros old.pageId separator new.pageId)
    have marked := service.setDirty written List.mem_cons_self
    have released := @PageService.unpinPage _ service _ _ _ _ true marked fun _ => rfl
    dsimp only at read released
    refine ⟨_, ?_, released⟩
    simp only [insertIntoParent, PageService.run_bind, PageService.run_getPageId, oldId, newId,
      if_pos isRoot, PageService.run_newPage, made, PageService.run_getData, read,
      Pages.contents_add_self, PageService.run_putData, PageService.run_setDirty,
      PageService.run_unpinPage, PageService.run_pure]

end Parent

end BPlusTree

end MiniDB.Index
