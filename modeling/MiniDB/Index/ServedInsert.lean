import MiniDB.Index.ServedTree

/-!
# Insertion over a service of pages

How `Insert` can end, whichever of its requests for pages are refused. A full leaf is
split once the first new page is there; a second one is asked for only if the leaf
was the root, and if it is refused, or if the leaf was not the root, nothing leads to
the new page.
-/

namespace MiniDB.Index

open Foundation Buffer PoolProgram

namespace BPlusTree

variable {State : Type} {service : PageService State} {state : State} {pages : Pages}
  {pins : List ClientPin} {tree : BPlusTree} {target : Option Int} {key : Int} {value : RID}
  {fuel frame : Nat} {leaf : Int}

/-! ## The pattern of a descent -/

/-- A descent fetches pages, and ends without a leaf exactly when one is refused. -/
theorem pattern_descend (leftMost : Bool) (pageId : Int) (fuel : Nat) (state : State) :
    (∀ answer ∈ service.pattern (descend key leftMost fuel pageId) state,
        ∃ served, answer = .fetched served) ∧
      (.fetched false ∈ service.pattern (descend key leftMost fuel pageId) state ↔
        (service.run (descend key leftMost fuel pageId) state).1 = .null) := by
  induction fuel generalizing state pageId with
  | zero => simp [descend]
  | succ fuel ih =>
    simp only [descend, PageService.pattern_bind, PageService.pattern_fetchPage, PageService.run_bind,
      PageService.run_fetchPage]
    cases fetched : (service.handle (.fetchPage pageId) state : Option Nat × State).1 with
    | none => simp
    | some frame =>
      cases isLeaf : isLeaf (service.handle (.getData frame)
          (service.handle (.fetchPage pageId) state).2 : Bytes × State).1 with
      | true =>
        simp only [PageService.pattern_bind, PageService.pattern_getData, PageService.run_bind,
          PageService.run_getData, isLeaf, if_true, PageService.pattern_pure, PageService.run_pure]
        simp
      | false =>
        simp only [PageService.pattern_bind, PageService.pattern_getData, PageService.run_bind,
          PageService.run_getData, isLeaf, Bool.false_eq_true, if_false,
          PageService.pattern_unpinPage, PageService.run_unpinPage, List.nil_append]
        obtain ⟨fetches, ends⟩ := ih _ _
        refine ⟨fun answer member => ?_, ?_⟩
        · rcases List.mem_cons.mp member with rfl | member
          · exact ⟨true, rfl⟩
          · exact fetches answer member
        · rw [← ends, List.singleton_append, List.mem_cons]
          simp

/-! ## A full leaf -/

/-- The two leaves of a split with the new entry in one of them, and the middle key. -/
def splitParts (pages : Pages) (leaf key : Int) (value : RID) : Bytes × Bytes × Int :=
  splitInsert (pages.contents leaf) Bytes.zeros pages.nextPageId key value

/-- The pages after a leaf is split. -/
def splitPages (pages : Pages) (leaf key : Int) (value : RID) : Pages :=
  (pages.add.write leaf (splitParts pages leaf key value).1).write pages.nextPageId
    (splitParts pages leaf key value).2.1

/-- The pages after the root was split and has a new root over it. -/
def rootSplitPages (pages : Pages) (leaf key : Int) (value : RID) : Pages :=
  (splitPages pages leaf key value).add.write (pages.nextPageId + 1)
    (rootOver Bytes.zeros leaf (splitParts pages leaf key value).2.2 pages.nextPageId)

/-- After a split the old leaf has the first half. -/
theorem contents_splitPages_old (different : leaf ≠ pages.nextPageId) :
    (splitPages pages leaf key value).contents leaf = (splitParts pages leaf key value).1 := by
  rw [splitPages, Pages.contents_write_of_ne different, Pages.contents_write_self]

/-- The new one has the second half. -/
theorem contents_splitPages_new :
    (splitPages pages leaf key value).contents pages.nextPageId =
      (splitParts pages leaf key value).2.1 := by
  rw [splitPages, Pages.contents_write_self]

/-- The other pages stay. -/
theorem contents_splitPages_of_ne {pageId : Int} (notLeaf : pageId ≠ leaf)
    (notNew : pageId ≠ pages.nextPageId) :
    (splitPages pages leaf key value).contents pageId = pages.contents pageId := by
  rw [splitPages, Pages.contents_write_of_ne notNew, Pages.contents_write_of_ne notLeaf,
    Pages.contents_add_of_ne notNew]

/-- Only the new root differs from that. -/
theorem contents_rootSplitPages_of_ne {pageId : Int} (notRoot : pageId ≠ pages.nextPageId + 1) :
    (rootSplitPages pages leaf key value).contents pageId =
      (splitPages pages leaf key value).contents pageId := by
  rw [rootSplitPages, Pages.contents_write_of_ne notRoot]
  exact Pages.contents_add_of_ne notRoot

/-- How `Insert` into a full leaf can end, and the pattern in which it does. -/
inductive Splits (service : PageService State) (pages : Pages) (pins : List ClientPin)
    (leaf : Int) (tree : BPlusTree) (key : Int) (value : RID) :
    List PageAnswer → (Option Bool × BPlusTree) × State → Prop where
  | refused {after : State} (shows : service.Shows after pages pins) :
      Splits service pages pins leaf tree key value [.created false] ((some false, tree), after)
  | notRoot {after : State} (different : leaf ≠ tree.rootPageId)
      (shows : service.Shows after (splitPages pages leaf key value) pins) :
      Splits service pages pins leaf tree key value [.created true] ((some true, tree), after)
  | rootRefused {after : State} (isRoot : leaf = tree.rootPageId)
      (shows : service.Shows after (splitPages pages leaf key value) pins) :
      Splits service pages pins leaf tree key value [.created true, .created false]
        ((some true, tree), after)
  | root {after : State} (isRoot : leaf = tree.rootPageId)
      (shows : service.Shows after (rootSplitPages pages leaf key value) pins) :
      Splits service pages pins leaf tree key value [.created true, .created true]
        ((some true, { tree with rootPageId := pages.nextPageId + 1 }), after)

/-- How `InsertIntoParent` ends, as it is asked after a split. -/
inductive Parents (service : PageService State) (pages : Pages) (pins : List ClientPin)
    (old new : ClientPin) (tree : BPlusTree) (separator : Int) :
    List PageAnswer → BPlusTree × State → Prop where
  | notRoot {after : State} (different : old.pageId ≠ tree.rootPageId)
      (shows : service.Shows after pages (old :: new :: pins)) :
      Parents service pages pins old new tree separator [] (tree, after)
  | refused {after : State} (isRoot : old.pageId = tree.rootPageId)
      (shows : service.Shows after pages (old :: new :: pins)) :
      Parents service pages pins old new tree separator [.created false] (tree, after)
  | root {after : State} (isRoot : old.pageId = tree.rootPageId)
      (shows : service.Shows after (pages.add.write pages.nextPageId
        (rootOver Bytes.zeros old.pageId separator new.pageId)) (old :: new :: pins)) :
      Parents service pages pins old new tree separator [.created true]
        ({ tree with rootPageId := pages.nextPageId }, after)

/-- How `InsertIntoParent` can end. -/
theorem parents_insertIntoParent {old new : ClientPin}
    (shows : service.Shows state pages (old :: new :: pins)) (separator : Int) :
    Parents service pages pins old new tree separator
      (service.pattern (tree.insertIntoParent old.frame separator new.frame) state)
      (service.run (tree.insertIntoParent old.frame separator new.frame) state) := by
  have oldId := service.getPageId shows List.mem_cons_self
  have newId := service.getPageId shows (List.mem_cons_of_mem _ List.mem_cons_self)
  by_cases isRoot : old.pageId = tree.rootPageId
  · rcases made : (service.handle .newPage state : Option (Int × Nat) × State) with ⟨created, after⟩
    have answered := service.newPage shows
    rw [made] at answered
    rcases answered with ⟨rfl, kept⟩ | ⟨rootFrame, rfl, held⟩
    · simp only [insertIntoParent, PageService.pattern_bind, PageService.run_bind,
        PageService.pattern_getPageId, PageService.run_getPageId, oldId, newId, if_pos isRoot,
        PageService.pattern_newPage, PageService.run_newPage, made, PageService.pattern_pure,
        PageService.run_pure, List.nil_append]
      exact .refused isRoot kept
    · have read := service.getData held List.mem_cons_self
      have written := service.putData held (rootOver Bytes.zeros old.pageId separator new.pageId)
      have marked := service.setDirty written List.mem_cons_self
      have released := @PageService.unpinPage _ service _ _ _ _ true marked fun _ => rfl
      dsimp only at read released
      simp only [insertIntoParent, PageService.pattern_bind, PageService.run_bind,
        PageService.pattern_getPageId, PageService.run_getPageId, oldId, newId, if_pos isRoot,
        PageService.pattern_newPage, PageService.run_newPage, made, PageService.pattern_getData,
        PageService.run_getData, read, Pages.contents_add_self, PageService.pattern_putData,
        PageService.run_putData, PageService.pattern_setDirty, PageService.run_setDirty,
        PageService.pattern_unpinPage, PageService.run_unpinPage, PageService.pattern_pure,
        PageService.run_pure, List.nil_append]
      exact .root isRoot released
  · simp only [insertIntoParent, PageService.pattern_bind, PageService.run_bind,
      PageService.pattern_getPageId, PageService.run_getPageId, oldId, newId, if_neg isRoot,
      PageService.pattern_pure, PageService.run_pure, List.nil_append]
    exact .notRoot isRoot shows

/-- Both leaves are released at the end of a split. -/
theorem served_releaseBoth {outcome : Option Bool × BPlusTree} {newPageId : Int} {newFrame : Nat}
    (shows : service.Shows state pages ({ pageId := leaf, frame, wrote := true } ::
      { pageId := newPageId, frame := newFrame, wrote := true } :: pins)) :
    ∃ after, service.run (do
        let pageId ← getPageId frame
        let _ ← unpinPage pageId true
        let newPageId ← getPageId newFrame
        let _ ← unpinPage newPageId true
        return outcome) state = (outcome, after) ∧ service.Shows after pages pins := by
  have oldId := service.getPageId shows List.mem_cons_self
  have released := @PageService.unpinPage _ service _ _ _ _ true shows fun _ => rfl
  have newId := service.getPageId released List.mem_cons_self
  have releasedBoth := @PageService.unpinPage _ service _ _ _ _ true released fun _ => rfl
  dsimp only at oldId released newId releasedBoth
  refine ⟨_, ?_, releasedBoth⟩
  simp only [PageService.run_bind, PageService.run_getPageId, oldId, PageService.run_unpinPage, newId,
    PageService.run_pure]

/-- How an insertion into a full leaf can end. -/
theorem splits_insertSplit (shows : service.Shows state pages ({ pageId := leaf, frame } :: pins))
    (allocated : pages.Allocated leaf) :
    Splits service pages pins leaf tree key value
      (service.pattern (tree.insertSplit frame key value) state)
      (service.run (tree.insertSplit frame key value) state) := by
  rcases made : (service.handle .newPage state : Option (Int × Nat) × State) with ⟨created, added⟩
  have answered := service.newPage shows
  rw [made] at answered
  rcases answered with ⟨rfl, kept⟩ | ⟨newFrame, rfl, held⟩
  · have named := service.getPageId kept List.mem_cons_self
    have released := @PageService.unpinPage _ service _ _ _ _ false kept (by simp)
    dsimp only at named released
    simp only [insertSplit, PageService.pattern_bind, PageService.run_bind, PageService.pattern_newPage,
      PageService.run_newPage, made, PageService.pattern_getPageId, PageService.run_getPageId, named,
      PageService.pattern_unpinPage, PageService.run_unpinPage, PageService.pattern_pure,
      PageService.run_pure, List.append_nil]
    exact .refused released
  · have both := service.perm held (List.Perm.swap _ _ _)
    have readOld := service.getData both List.mem_cons_self
    have readNew := service.getData held List.mem_cons_self
    dsimp only at readOld readNew
    rw [Pages.contents_add_of_ne allocated.ne_next] at readOld
    rw [Pages.contents_add_self] at readNew
    have writtenOld := service.putData both (splitParts pages leaf key value).1
    have writtenBoth := service.putData (service.perm writtenOld (List.Perm.swap _ _ _))
      (splitParts pages leaf key value).2.1
    have ready := service.perm writtenBoth (List.Perm.swap _ _ _)
    have parents := @parents_insertIntoParent _ service _ _ _ tree _ _ ready
      (splitParts pages leaf key value).2.2
    dsimp only at writtenOld writtenBoth ready parents
    have partsEq : splitInsert (pages.contents leaf) Bytes.zeros pages.nextPageId key value =
      splitParts pages leaf key value := rfl
    rw [insertSplit, PageService.pattern_bind, PageService.run_bind, PageService.pattern_newPage,
      PageService.run_newPage, made]
    simp only [PageService.pattern_bind _ _ (getData frame), PageService.run_bind _ _ (getData frame),
      PageService.pattern_bind _ _ (getData newFrame), PageService.run_bind _ _ (getData newFrame),
      PageService.pattern_getData, PageService.run_getData, readOld, readNew, partsEq,
      PageService.pattern_bind _ _ (putData _ _), PageService.run_bind _ _ (putData _ _),
      PageService.pattern_putData, PageService.run_putData, List.nil_append, Option.isSome_some]
    rw [PageService.pattern_bind, PageService.run_bind]
    generalize service.pattern (tree.insertIntoParent frame _ newFrame) _ = pattern at parents ⊢
    generalize service.run (tree.insertIntoParent frame _ newFrame) _ = outcome at parents ⊢
    simp only [PageService.pattern_bind, PageService.pattern_getPageId, PageService.pattern_unpinPage,
      PageService.pattern_pure, List.append_nil]
    cases parents with
    | notRoot different shows =>
      obtain ⟨after, ends, showsAfter⟩ := served_releaseBoth shows
      rw [ends]
      exact .notRoot different showsAfter
    | refused isRoot shows =>
      obtain ⟨after, ends, showsAfter⟩ := served_releaseBoth shows
      rw [ends]
      exact .rootRefused isRoot showsAfter
    | root isRoot shows =>
      obtain ⟨after, ends, showsAfter⟩ := served_releaseBoth shows
      rw [ends]
      exact .root isRoot showsAfter

/-! ## The whole of `Insert` -/

/-- How `Insert` can end, and the pattern in which it does. -/
inductive Inserts (service : PageService State) (pages : Pages) (pins : List ClientPin)
    (target : Option Int) (tree : BPlusTree) (key : Int) (value : RID) :
    List PageAnswer → (Option Bool × BPlusTree) × State → Prop where
  | rootRefused {after : State} (empty : tree.rootPageId = -1)
      (shows : service.Shows after pages pins) :
      Inserts service pages pins target tree key value [.created false]
        ((some false, tree.relatched), after)
  | newRoot {after : State} (empty : tree.rootPageId = -1)
      (shows : service.Shows after
        (pages.add.write pages.nextPageId (rootLeaf Bytes.zeros key value)) pins) :
      Inserts service pages pins target tree key value [.created true]
        ((some true, { tree.relatched with rootPageId := pages.nextPageId
                                           leafStartPageId := pages.nextPageId }), after)
  | missed {pattern : List PageAnswer} {after : State} (exists_root : tree.rootPageId ≠ -1)
      (missed : .fetched false ∈ pattern) (shows : service.Shows after pages pins) :
      Inserts service pages pins target tree key value pattern ((some false, tree.relatched), after)
  | unfinished {pattern : List PageAnswer} {after : State} (exists_root : tree.rootPageId ≠ -1)
      (nowhere : target = none) (shows : service.Shows after pages pins) :
      Inserts service pages pins target tree key value pattern ((none, tree.relatched), after)
  | room {pattern : List PageAnswer} {after : State} {leaf : Int}
      (exists_root : tree.rootPageId ≠ -1) (found : target = some leaf)
      (reached : .fetched false ∉ pattern) (room : intAt (pages.contents leaf) 1 < tree.leafMaxSize)
      (shows : service.Shows after
        (pages.write leaf (insertIntoLeaf (pages.contents leaf) key value)) pins) :
      Inserts service pages pins target tree key value pattern ((some true, tree.relatched), after)
  | full {fetches pattern : List PageAnswer} {answer : Option Bool} {grown : BPlusTree}
      {after : State} {leaf : Int} (exists_root : tree.rootPageId ≠ -1) (found : target = some leaf)
      (reached : ∀ answer ∈ fetches, answer = .fetched true)
      (full : ¬ intAt (pages.contents leaf) 1 < tree.leafMaxSize)
      (splits : Splits service pages pins leaf { tree with latch := tree.latch.lock } key value pattern
        ((answer, grown), after)) :
      Inserts service pages pins target tree key value (fetches ++ pattern)
        ((answer, { grown with latch := grown.latch.unlock }), after)

/-- The latch of the tree makes no request. -/
theorem pattern_guarded {Result : Type} (body : BPlusTree → PoolProgram (Result × BPlusTree)) :
    service.pattern (guarded body tree) state =
      service.pattern (body { tree with latch := tree.latch.lock }) state := by
  simp [guarded]

/-- `Insert` into an empty tree. -/
theorem inserts_empty (shows : service.Shows state pages pins) (empty : tree.rootPageId = -1) :
    Inserts service pages pins target tree key value
      (service.pattern (tree.insert fuel key value) state)
      (service.run (tree.insert fuel key value) state) := by
  rcases made : (service.handle .newPage state : Option (Int × Nat) × State) with ⟨created, added⟩
  have answered := service.newPage shows
  rw [made] at answered
  rcases answered with ⟨rfl, kept⟩ | ⟨frame, rfl, held⟩
  · simp only [insert, pattern_guarded, served_guarded, if_pos empty, insertRoot,
      PageService.pattern_bind, PageService.run_bind, PageService.pattern_newPage,
      PageService.run_newPage, made, PageService.pattern_pure, PageService.run_pure, List.append_nil]
    exact .rootRefused empty kept
  · have read := service.getData held List.mem_cons_self
    have written := service.putData held (rootLeaf Bytes.zeros key value)
    have marked := service.setDirty written List.mem_cons_self
    have released := @PageService.unpinPage _ service _ _ _ _ true marked fun _ => rfl
    dsimp only at read released
    simp only [insert, pattern_guarded, served_guarded, if_pos empty, insertRoot,
      PageService.pattern_bind, PageService.run_bind, PageService.pattern_newPage,
      PageService.run_newPage, made, PageService.pattern_getData, PageService.run_getData, read,
      Pages.contents_add_self, PageService.pattern_putData, PageService.run_putData,
      PageService.pattern_setDirty, PageService.run_setDirty, PageService.pattern_unpinPage,
      PageService.run_unpinPage, PageService.pattern_pure, PageService.run_pure, List.append_nil]
    exact .newRoot empty released

/-- The cases of `Insert`. -/
theorem inserts_insert (shows : service.Shows state pages pins)
    (exist : tree.rootPageId ≠ -1 → RouteExists pages key false fuel tree.rootPageId) :
    Inserts service pages pins (route pages.contents key false fuel tree.rootPageId) tree key value
      (service.pattern (tree.insert fuel key value) state)
      (service.run (tree.insert fuel key value) state) := by
  by_cases empty : tree.rootPageId = -1
  · exact inserts_empty shows empty
  · have finds := finds_descend shows (exist empty)
    have seen := @pattern_descend _ service key false tree.rootPageId fuel state
    have descends : ∀ latch, findLeafPage { tree with latch } fuel key false =
        descend key false fuel tree.rootPageId := fun latch => if_neg empty
    generalize fetchesEq : service.pattern (descend key false fuel tree.rootPageId) state = fetches
      at seen
    generalize ran : service.run (descend key false fuel tree.rootPageId) state = outcome at finds seen
    obtain ⟨onlyFetches, missed⟩ := seen
    cases finds with
    | refused kept =>
      simp only [insert, pattern_guarded, served_guarded, if_neg empty, PageService.pattern_bind,
        PageService.run_bind, descends, fetchesEq, ran, PageService.pattern_pure, PageService.run_pure,
        List.append_nil]
      exact .missed empty (missed.mpr rfl) kept
    | unfinished nowhere kept =>
      simp only [insert, pattern_guarded, served_guarded, if_neg empty, PageService.pattern_bind,
        PageService.run_bind, descends, fetchesEq, ran, PageService.pattern_pure, PageService.run_pure,
        List.append_nil]
      exact .unfinished empty nowhere kept
    | @leaf middle leaf frame found held =>
      have reached : .fetched false ∉ fetches := fun member => by cases missed.mp member
      have read := service.getData held List.mem_cons_self
      dsimp only at read
      by_cases room : intAt (pages.contents leaf) 1 < tree.leafMaxSize
      · have written := service.putData held (insertIntoLeaf (pages.contents leaf) key value)
        have named := service.getPageId written List.mem_cons_self
        have released := @PageService.unpinPage _ service _ _ _ _ true written fun _ => rfl
        dsimp only at named released
        simp only [insert, pattern_guarded, served_guarded, if_neg empty, PageService.pattern_bind,
          PageService.run_bind, descends, fetchesEq, ran, PageService.pattern_getData,
          PageService.run_getData, read, if_pos room, PageService.pattern_putData,
          PageService.run_putData, PageService.pattern_getPageId, PageService.run_getPageId, named,
          PageService.pattern_unpinPage, PageService.run_unpinPage, PageService.pattern_pure,
          PageService.run_pure, List.append_nil]
        exact .room empty found reached room released
      · have splits := @splits_insertSplit _ service _ _ _ { tree with latch := tree.latch.lock } key
          value frame leaf held ((exist empty).allocated found)
        simp only [insert, pattern_guarded, served_guarded, if_neg empty, PageService.pattern_bind,
          PageService.run_bind, descends, fetchesEq, ran, PageService.pattern_getData,
          PageService.run_getData, read, if_neg room, List.nil_append]
        refine .full empty found (fun answer member => ?_) room splits
        obtain ⟨served, rfl⟩ := onlyFetches answer member
        cases served with
        | true => rfl
        | false => exact absurd member reached

end BPlusTree

end MiniDB.Index
