import MiniDB.Index.ServedTree

/-!
# The root over a split

`InsertIntoParent` writes the two children of a new root behind its key, from index 3
on. `FindLeafPage` reads the children of a node of size 1 from index 4 on: it finds
the second child where it looks for the first, and for the second one whatever lies
behind, which on a fresh page is 0.
-/

namespace MiniDB.Index

open Foundation Buffer PoolProgram Storage

section RootOver

variable {oldPageId key newPageId : Int}

theorem isLeaf_rootOver : isLeaf (rootOver Bytes.zeros oldPageId key newPageId) = false := by
  simp (disch := decide) only [isLeaf, rootOver, intAt_setInt_of_ne, intAt_setInt_self]
  rfl

/-- The children of a root as `FindLeafPage` reads them. -/
theorem childAt_rootOver (keyInt : IsInt key) (newInt : IsInt newPageId) (target : Int)
    (leftMost : Bool) :
    childAt (rootOver Bytes.zeros oldPageId key newPageId) target leftMost =
      if leftMost = false ∧ key ≤ target then 0 else newPageId := by
  have size : intAt (rootOver Bytes.zeros oldPageId key newPageId) 1 = 1 := by
    simp (disch := decide) only [rootOver, intAt_setInt_of_ne, intAt_setInt_self]
  have first : intAt (rootOver Bytes.zeros oldPageId key newPageId) 2 = key := by
    simp (disch := first | assumption | decide) only [rootOver, intAt_setInt_of_ne,
      intAt_setInt_self]
  have left : intAt (rootOver Bytes.zeros oldPageId key newPageId) 4 = newPageId := by
    simp (disch := first | assumption | decide) only [rootOver, intAt_setInt_self]
  have right : intAt (rootOver Bytes.zeros oldPageId key newPageId) 5 = 0 := by
    simp (disch := decide) only [rootOver, intAt_setInt_of_ne, intAt_zeros]
  rw [childAt, size, binarySearch_of_size_one size, first]
  cases leftMost with
  | true => exact left
  | false =>
    by_cases upTo : key ≤ target
    · simp only [Bool.false_eq_true, if_false, if_pos upTo, true_and]
      exact right
    · simp only [Bool.false_eq_true, if_false, if_neg upTo, true_and]
      exact left

end RootOver

/-- The node sends the keys below the separator to one page and the others to another. -/
def RoutesApart (data : Bytes) (separator below above : Int) : Prop :=
  ∀ key, IsInt key → childAt data key false = if key < separator then below else above

/-- The new root routes as it should only over a separator that no key is below, or two
pages that are one, and with page 0 as the second child. -/
theorem routesApart_rootOver_iff {separator oldPageId newPageId : Int}
    (separatorInt : IsInt separator) (newInt : IsInt newPageId) :
    RoutesApart (rootOver Bytes.zeros oldPageId separator newPageId) separator oldPageId newPageId ↔
      (separator = -2147483648 ∨ oldPageId = newPageId) ∧ newPageId = 0 := by
  simp only [RoutesApart, childAt_rootOver separatorInt newInt, true_and]
  constructor
  · intro routes
    have atSeparator := routes separator separatorInt
    rw [if_pos (Int.le_refl _), if_neg (Int.lt_irrefl _)] at atSeparator
    refine ⟨?_, atSeparator.symm⟩
    by_cases least : separator = -2147483648
    · exact .inl least
    · have smallest := routes (-2147483648) (by decide)
      have above : -2147483648 < separator := by
        have lower := separatorInt.1
        omega
      rw [if_neg (Int.not_le.mpr above), if_pos above] at smallest
      exact .inr smallest.symm
  · rintro ⟨degenerate, isZero⟩ key keyInt
    by_cases below : key < separator
    · rw [if_neg (Int.not_le.mpr below), if_pos below]
      rcases degenerate with least | same
      · have lower := keyInt.1
        omega
      · exact same.symm
    · rw [if_pos (Int.not_lt.mp below), if_neg below, isZero]

namespace BPlusTree

variable {tree : BPlusTree} {pool : BufferPool IdealDisk} {pages : Pages} {pins : List ClientPin}
  {old new : ClientPin} {separator : Int}

/-- `InsertIntoParent` over two pinned pages, the first of them the root: the tree has
a new root, and that root routes to the two pages only in a degenerate case. -/
theorem insertIntoParent_routesApart_iff (shows : pool.ShowsPages pages (old :: new :: pins))
    (isRoot : old.pageId = tree.rootPageId) (separatorInt : IsInt separator)
    (newInt : IsInt new.pageId) (granted : pool.newPage.1 ≠ none) :
    ∃ data after, run (tree.insertIntoParent old.frame separator new.frame) pool =
        ({ tree with rootPageId := pages.nextPageId }, after) ∧
      after.ShowsPages (pages.add.write pages.nextPageId data) (old :: new :: pins) ∧
      (RoutesApart data separator old.pageId new.pageId ↔
        (separator = -2147483648 ∨ old.pageId = new.pageId) ∧ new.pageId = 0) := by
  obtain ⟨after, ran, kept⟩ :=
    @served_insertIntoParent_root _ idealService _ _ _ tree _ _ shows granted isRoot separator
  exact ⟨_, after, ran, kept, routesApart_rootOver_iff separatorInt newInt⟩

/-- A pool of four frames with two new pages, both pinned. -/
def twoPages : BufferPool IdealDisk :=
  (BufferPool.new 4 (IdealDisk.start 0 fun _ => Bytes.zeros) .noop).newPage.2.newPage.2

theorem shows_twoPages :
    ∃ contents, twoPages.ShowsPages { nextPageId := 2, contents }
      [{ pageId := 0, frame := 0 }, { pageId := 1, frame := 1 }] := by
  rcases (showsPages_new 4 0 fun _ => Bytes.zeros).newPage with ⟨refused, -⟩ | ⟨first, made, shows⟩
  · exact absurd refused (Option.some_ne_none _)
  · have firstEq : 0 = first := (Prod.mk.inj (Option.some.inj made)).2
    subst firstEq
    rcases shows.newPage with ⟨refused, -⟩ | ⟨second, madeNext, showsBoth⟩
    · exact absurd refused (Option.some_ne_none _)
    · have secondEq : 1 = second := (Prod.mk.inj (Option.some.inj madeNext)).2
      subst secondEq
      exact ⟨_, idealService.perm showsBoth (List.Perm.swap _ _ _)⟩

/-- A tree whose root is the first of them. -/
def treeOverFirst : BPlusTree := { leafMaxSize := 2, internalMaxSize := 2, rootPageId := 0 }

/-- A root over the pages 0 and 1 with the separator 5. -/
theorem insertIntoParent_twoPages :
    ∃ data after pages, run (treeOverFirst.insertIntoParent 0 5 1) twoPages =
        ({ treeOverFirst with rootPageId := 2 }, after) ∧
      after.ShowsPages (Pages.write pages 2 data)
        [{ pageId := 0, frame := 0 }, { pageId := 1, frame := 1 }] ∧
      ¬ RoutesApart data 5 0 1 := by
  obtain ⟨contents, shows⟩ := shows_twoPages
  obtain ⟨data, after, ran, kept, routes⟩ := @insertIntoParent_routesApart_iff treeOverFirst _ _ _ _
    _ 5 shows rfl (by decide) (by decide) (Option.some_ne_none _)
  exact ⟨data, after, _, ran, kept, fun apart => absurd (routes.mp apart).2 (by decide)⟩

/-- Over the pages 0 and 1 with the separator 5, the key 5 is looked for in page 0. -/
theorem separator_descends_to_page_zero :
    ¬ ∀ (tree : BPlusTree) (pool after : BufferPool IdealDisk) (pages : Pages)
      (pins : List ClientPin) (old new : ClientPin) (separator : Int) (data : Bytes),
        pool.ShowsPages pages (old :: new :: pins) → old.pageId = tree.rootPageId →
        IsInt separator → IsInt new.pageId → pool.newPage.1 ≠ none →
        run (tree.insertIntoParent old.frame separator new.frame) pool =
          ({ tree with rootPageId := pages.nextPageId }, after) →
        after.ShowsPages (pages.add.write pages.nextPageId data) (old :: new :: pins) →
        RoutesApart data separator old.pageId new.pageId := by
  intro routes
  obtain ⟨contents, shows⟩ := shows_twoPages
  have granted : twoPages.newPage.1 ≠ none := Option.some_ne_none _
  obtain ⟨after, ran, kept⟩ := @served_insertIntoParent_root _ idealService _ _ _ treeOverFirst _ _
    shows granted rfl 5
  have apart := routes treeOverFirst _ _ _ _ _ _ 5 _ shows rfl (by decide) (by decide) granted ran
    kept
  exact absurd ((routesApart_rootOver_iff (by decide) (by decide)).mp apart).2 (by decide)

end BPlusTree

end MiniDB.Index
