import MiniDB.Index.LeafPages
import MiniDB.Index.RootRouting
import MiniDB.Index.ServedInsert

/-!
# The shape of a tree

Nothing is ever put into an internal node, so a tree has no root, or a leaf as its
root, or a root over two leaves. The second of those is page 0, because the place
where `FindLeafPage` looks for it is never written. The shape is kept by every
operation, whichever requests for pages are refused, if page 0 is a leaf by the time
that a root is split.
-/

namespace MiniDB.Index

open Foundation Buffer PoolProgram

/-- The page exists and is a leaf. -/
structure LeafOn (pages : Pages) (pageId : Int) : Prop where
  allocated : pages.Allocated pageId
  leafPage : LeafPage (pages.contents pageId)

namespace LeafOn

variable {pages : Pages} {pageId other : Int} {data : Bytes}

/-- A leaf is written; other leaves stay. -/
theorem write (leafOn : LeafOn pages pageId) (leafPage : LeafPage data) :
    LeafOn (pages.write other data) pageId := by
  refine ⟨leafOn.allocated, ?_⟩
  by_cases same : pageId = other
  · rw [same, Pages.contents_write_self]
    exact leafPage
  · rw [Pages.contents_write_of_ne same]
    exact leafOn.leafPage

/-- A page is added; the leaves stay. -/
theorem add (leafOn : LeafOn pages pageId) : LeafOn pages.add pageId := by
  refine ⟨leafOn.allocated.add, ?_⟩
  rw [Pages.contents_add_of_ne leafOn.allocated.ne_next]
  exact leafOn.leafPage

/-- A leaf stays one when a new page is written. -/
theorem writeNew (leafOn : LeafOn pages pageId) :
    LeafOn (pages.add.write pages.nextPageId data) pageId := by
  refine ⟨leafOn.allocated.add, ?_⟩
  rw [Pages.contents_write_of_ne leafOn.allocated.ne_next]
  exact leafOn.add.leafPage

/-- The page that is added becomes a leaf. -/
theorem new (nonneg : 0 ≤ pages.nextPageId) (leafPage : LeafPage data) :
    LeafOn (pages.add.write pages.nextPageId data) pages.nextPageId := by
  refine ⟨⟨nonneg, Int.lt_succ _⟩, ?_⟩
  rw [Pages.contents_write_self]
  exact leafPage

end LeafOn

/-- The leaves that can be reached from a root. -/
inductive Rooted (pages : Pages) (rootPageId : Int) : List Int → Prop where
  | empty (noRoot : rootPageId = -1) : Rooted pages rootPageId []
  | leaf (leafOn : LeafOn pages rootPageId) : Rooted pages rootPageId [rootPageId]
  | node {oldPageId middleKey newPageId : Int} (keyInt : IsInt middleKey) (newInt : IsInt newPageId)
      (allocated : pages.Allocated rootPageId)
      (root : pages.contents rootPageId = rootOver Bytes.zeros oldPageId middleKey newPageId)
      (new : LeafOn pages newPageId) (zero : LeafOn pages 0) (different : newPageId ≠ 0) :
      Rooted pages rootPageId [newPageId, 0]

namespace Rooted

variable {pages : Pages} {rootPageId leaf key : Int} {leaves : List Int} {data : Bytes} {fuel : Nat}
  {leftMost : Bool}

/-- The leaves of a tree are leaves. -/
theorem leafOn (rooted : Rooted pages rootPageId leaves) (member : leaf ∈ leaves) :
    LeafOn pages leaf := by
  cases rooted with
  | empty noRoot => cases member
  | leaf leafOn => exact List.mem_singleton.mp member ▸ leafOn
  | node keyInt newInt allocated root new zero different =>
    rcases List.mem_cons.mp member with rfl | member
    · exact new
    · exact List.mem_singleton.mp member ▸ zero

/-- No leaf is met twice. -/
theorem nodup (rooted : Rooted pages rootPageId leaves) : leaves.Nodup := by
  cases rooted with
  | empty noRoot => exact List.nodup_nil
  | leaf leafOn => exact List.nodup_singleton _
  | node keyInt newInt allocated root new zero different => simp [different]

/-- A root over two leaves is not a leaf. -/
theorem ne_of_leafOn {oldPageId middleKey newPageId : Int}
    (root : pages.contents rootPageId = rootOver Bytes.zeros oldPageId middleKey newPageId)
    (leafOn : LeafOn pages leaf) : rootPageId ≠ leaf := by
  rintro rfl
  have isLeaf := leafOn.leafPage.isLeaf
  rw [root, isLeaf_rootOver] at isLeaf
  cases isLeaf

/-- The pages on the way of a descent exist. -/
theorem routeExists (rooted : Rooted pages rootPageId leaves) (exists_root : rootPageId ≠ -1)
    (key : Int) (leftMost : Bool) (fuel : Nat) :
    RouteExists pages key leftMost fuel rootPageId := by
  have atLeaf : ∀ {pageId : Int}, LeafOn pages pageId → ∀ fuel,
      RouteExists pages key leftMost fuel pageId := by
    intro pageId leafOn fuel
    cases fuel with
    | zero => trivial
    | succ fuel =>
      refine ⟨leafOn.allocated, fun isNode => ?_⟩
      rw [leafOn.leafPage.isLeaf] at isNode
      cases isNode
  cases rooted with
  | empty noRoot => exact absurd noRoot exists_root
  | leaf leafOn => exact atLeaf leafOn fuel
  | @node oldPageId middleKey newPageId keyInt newInt allocated root new zero different =>
    cases fuel with
    | zero => trivial
    | succ fuel =>
      refine ⟨allocated, fun _ => ?_⟩
      rw [root, childAt_rootOver keyInt newInt]
      split
      · exact atLeaf zero fuel
      · exact atLeaf new fuel

/-- A descent with fuel for two pages ends at one of the leaves. -/
theorem exists_route (rooted : Rooted pages rootPageId leaves) (exists_root : rootPageId ≠ -1)
    (key : Int) (leftMost : Bool) (fuel : Nat) :
    ∃ leaf ∈ leaves, route pages.contents key leftMost (fuel + 2) rootPageId = some leaf := by
  cases rooted with
  | empty noRoot => exact absurd noRoot exists_root
  | leaf leafOn =>
    refine ⟨rootPageId, List.mem_singleton.mpr rfl, ?_⟩
    rw [route, if_pos leafOn.leafPage.isLeaf]
  | @node oldPageId middleKey newPageId keyInt newInt allocated root new zero different =>
    have isNode : ¬ isLeaf (pages.contents rootPageId) = true := by
      rw [root, isLeaf_rootOver]
      exact Bool.false_ne_true
    rw [route, if_neg isNode, root, childAt_rootOver keyInt newInt, route]
    split
    · exact ⟨0, by simp, if_pos zero.leafPage.isLeaf⟩
    · exact ⟨newPageId, by simp, if_pos new.leafPage.isLeaf⟩

/-- With less fuel it ends there or nowhere. -/
theorem mem_of_route (rooted : Rooted pages rootPageId leaves) (exists_root : rootPageId ≠ -1)
    (found : route pages.contents key leftMost fuel rootPageId = some leaf) : leaf ∈ leaves := by
  cases rooted with
  | empty noRoot => exact absurd noRoot exists_root
  | leaf leafOn =>
    cases fuel with
    | zero => cases found
    | succ fuel =>
      rw [route, if_pos leafOn.leafPage.isLeaf] at found
      exact List.mem_singleton.mpr (Option.some.inj found).symm
  | @node oldPageId middleKey newPageId keyInt newInt allocated root new zero different =>
    have isNode : ¬ isLeaf (pages.contents rootPageId) = true := by
      rw [root, isLeaf_rootOver]
      exact Bool.false_ne_true
    cases fuel with
    | zero => cases found
    | succ fuel =>
      rw [route, if_neg isNode, root, childAt_rootOver keyInt newInt] at found
      cases fuel with
      | zero => split at found <;> cases found
      | succ fuel =>
        rw [route] at found
        split at found
        · rw [if_pos zero.leafPage.isLeaf] at found
          simp [← Option.some.inj found]
        · rw [if_pos new.leafPage.isLeaf] at found
          simp [← Option.some.inj found]

/-- Pages that keep their bytes keep the shape. -/
theorem mono {others : Pages} (rooted : Rooted pages rootPageId leaves)
    (allocated : ∀ {pageId}, pages.Allocated pageId → others.Allocated pageId)
    (leafOn : ∀ {pageId}, LeafOn pages pageId → LeafOn others pageId)
    (same : ∀ {pageId}, pages.Allocated pageId → ¬ LeafOn pages pageId →
      others.contents pageId = pages.contents pageId) : Rooted others rootPageId leaves := by
  cases rooted with
  | empty noRoot => exact .empty noRoot
  | leaf leaf => exact .leaf (leafOn leaf)
  | node keyInt newInt exists_root root new zero different =>
    have kept := same exists_root fun leaf => ne_of_leafOn root leaf rfl
    exact .node keyInt newInt (allocated exists_root) (kept.trans root) (leafOn new) (leafOn zero)
      different

/-- A leaf is written. -/
theorem setLeaf (rooted : Rooted pages rootPageId leaves) (leafOn : LeafOn pages leaf)
    (leafPage : LeafPage data) : Rooted (pages.write leaf data) rootPageId leaves := by
  refine rooted.mono id (fun other => other.write leafPage) fun _ notLeaf => ?_
  apply Pages.contents_write_of_ne
  rintro rfl
  exact notLeaf leafOn

end Rooted

/-! ## Splits -/

section Split

open BPlusTree

variable {pages : Pages} {rootPageId leaf other key : Int} {value : RID} {leaves : List Int}

theorem middleKey_splitInsert (oldData newData : Bytes) (newPageId key : Int) (value : RID) :
    (splitInsert oldData newData newPageId key value).2.2 =
      (splitLeafPage oldData newData newPageId).2.2 := by
  unfold splitInsert
  dsimp only
  split <;> rfl

/-- Both halves of a split are leaves. -/
theorem leafPages_splitParts (leafOn : LeafOn pages leaf) :
    LeafPage (splitParts pages leaf key value).1 ∧ LeafPage (splitParts pages leaf key value).2.1 :=
  leafOn.leafPage.splitInsert _ _ _ _

/-- Leaves stay leaves when one of them is split. -/
theorem LeafOn.split (leafOn : LeafOn pages leaf) (otherOn : LeafOn pages other) :
    LeafOn (splitPages pages leaf key value) other := by
  obtain ⟨old, new⟩ := @leafPages_splitParts _ _ key value leafOn
  exact (otherOn.add.write old).write new

/-- The second half is a leaf. -/
theorem LeafOn.splitNew (leafOn : LeafOn pages leaf) :
    LeafOn (splitPages pages leaf key value) pages.nextPageId := by
  have below := leafOn.allocated
  refine ⟨⟨Int.le_of_lt (Int.lt_of_le_of_lt below.1 below.2), Int.lt_succ _⟩, ?_⟩
  rw [contents_splitPages_new]
  exact (leafPages_splitParts leafOn).2

/-- Nothing leads to the second half. -/
theorem Rooted.split (rooted : Rooted pages rootPageId leaves) (leafOn : LeafOn pages leaf) :
    Rooted (splitPages pages leaf key value) rootPageId leaves := by
  refine rooted.mono Pages.Allocated.add leafOn.split fun allocated notLeaf => ?_
  refine contents_splitPages_of_ne ?_ allocated.ne_next
  rintro rfl
  exact notLeaf leafOn

/-- A new root over the two halves leads to the second half and to page 0. -/
theorem Rooted.splitRoot (leafOn : LeafOn pages leaf) (newInt : IsInt pages.nextPageId)
    (zero : LeafOn (splitPages pages leaf key value) 0) :
    Rooted (rootSplitPages pages leaf key value) (pages.nextPageId + 1) [pages.nextPageId, 0] := by
  have below := leafOn.allocated
  have keyInt : IsInt (splitParts pages leaf key value).2.2 := by
    rw [splitParts, middleKey_splitInsert]
    exact isInt_intAt _ _
  refine .node keyInt newInt ⟨?_, ?_⟩ Pages.contents_write_self leafOn.splitNew.writeNew zero.writeNew ?_
  · have first := below.1
    have second := below.2
    omega
  · exact Int.lt_succ _
  · exact fun isZero => absurd below.2 (by have first := below.1; omega)

end Split

/-! ## Removal and search -/

section Kept

variable {Result State : Type} {service : PageService State} {state : State} {tree : BPlusTree}
  {pages : Pages} {leaves : List Int}

/-- The tree still has its shape in the pages that are shown; there are as many pages,
and the leaves among them are leaves. -/
def KeepsShape (service : PageService State) (pages : Pages) (tree : BPlusTree)
    (outcome : (Result × BPlusTree) × State) : Prop :=
  ∃ after leaves, service.Shows outcome.2 after [] ∧ Rooted after outcome.1.2.rootPageId leaves ∧
    outcome.1.2.leafMaxSize = tree.leafMaxSize ∧ after.nextPageId = pages.nextPageId ∧
    ∀ pageId, LeafOn pages pageId → LeafOn after pageId

/-- A leaf stays one when a key is taken out of it. -/
theorem leafPage_removal {data : Bytes} {key : Int} (leafPage : LeafPage data)
    (present : ¬ BPlusTree.Absent data key) :
    LeafPage (removeFromLeaf data (binarySearch data key - 1)) := by
  have bounds := leafPage.binarySearch_bounds key
  have positive : binarySearch data key ≠ 0 := fun isZero => present (.inl isZero)
  exact leafPage.removeFromLeaf (by omega) (by omega)

variable (shows : service.Shows state pages []) (rooted : Rooted pages tree.rootPageId leaves)
  (fuel : Nat) (key : Int)

include shows rooted

/-- `FindLeafPage` finds where the route goes. -/
theorem finds_locked (exists_root : tree.rootPageId ≠ -1) :
    BPlusTree.Finds service pages [] (route pages.contents key false fuel tree.rootPageId)
      (service.run (BPlusTree.findLeafPage { tree with latch := tree.latch.lock } fuel key false)
        state) :=
  @BPlusTree.finds_findLeafPage _ service state pages [] { tree with latch := tree.latch.lock } key
    fuel shows false exists_root (rooted.routeExists exists_root key false fuel)

/-- `Remove` keeps the shape. -/
theorem keepsShape_remove :
    KeepsShape service pages tree (service.run (tree.remove fuel key) state) := by
  by_cases empty : tree.rootPageId = -1
  · simp only [BPlusTree.remove, BPlusTree.served_guarded, if_pos empty, PageService.run_pure]
    exact ⟨pages, leaves, shows, rooted, rfl, rfl, fun _ => id⟩
  · have finds := finds_locked shows rooted fuel key empty
    have removes := BPlusTree.removes_remove empty finds fun leaf found present =>
      (leafPage_removal (rooted.leafOn (rooted.mem_of_route empty found)).leafPage present).isLeaf
    generalize service.run (tree.remove fuel key) state = outcome at removes
    cases removes with
    | refused shows => exact ⟨pages, leaves, shows, rooted, rfl, rfl, fun _ => id⟩
    | unfinished nowhere shows => exact ⟨pages, leaves, shows, rooted, rfl, rfl, fun _ => id⟩
    | absent found absent shows => exact ⟨pages, leaves, shows, rooted, rfl, rfl, fun _ => id⟩
    | @removed _ leaf data found present dataEq shows =>
      have leafOn := rooted.leafOn (rooted.mem_of_route empty found)
      have leafPage : LeafPage data := dataEq ▸ leafPage_removal leafOn.leafPage present
      have kept : ∀ pageId, LeafOn pages pageId → LeafOn (pages.write leaf data) pageId :=
        fun _ other => other.write leafPage
      by_cases emptied : leaf = tree.relatched.rootPageId ∧ intAt data 1 = 0
      · refine ⟨_, [], shows, .empty ?_, ?_, rfl, kept⟩
        all_goals
          dsimp only
          rw [BPlusTree.afterRemoval, if_pos emptied]
      · refine ⟨_, leaves, shows, ?_, ?_, rfl, kept⟩
        all_goals
          dsimp only
          rw [BPlusTree.afterRemoval, if_neg emptied]
        exact rooted.setLeaf leafOn leafPage

/-- `GetValue` keeps the shape. -/
theorem keepsShape_getValue (result : List RID) :
    KeepsShape service pages tree (service.run (tree.getValue fuel key result) state) := by
  by_cases empty : tree.rootPageId = -1
  · simp only [BPlusTree.getValue, BPlusTree.served_guarded, if_pos empty, PageService.run_pure]
    exact ⟨pages, leaves, shows, rooted, rfl, rfl, fun _ => id⟩
  · have finds := finds_locked shows rooted fuel key empty
    generalize ends : service.run (BPlusTree.findLeafPage _ fuel key false) state = outcome at finds
    cases finds with
    | refused shows =>
      simp only [BPlusTree.getValue, BPlusTree.served_guarded, if_neg empty, PageService.run_bind, ends,
        PageService.run_pure]
      exact ⟨pages, leaves, shows, rooted, rfl, rfl, fun _ => id⟩
    | unfinished nowhere shows =>
      simp only [BPlusTree.getValue, BPlusTree.served_guarded, if_neg empty, PageService.run_bind, ends,
        PageService.run_pure]
      exact ⟨pages, leaves, shows, rooted, rfl, rfl, fun _ => id⟩
    | @leaf after leaf frame found shows =>
      have named := service.getPageId shows List.mem_cons_self
      have read := service.getData shows List.mem_cons_self
      have released := @PageService.unpinPage _ service _ _ _ _ false shows (by simp)
      dsimp only at named read released
      simp only [BPlusTree.getValue, BPlusTree.served_guarded, if_neg empty, PageService.run_bind, ends,
        PageService.run_getData, read, PageService.run_getPageId, named, PageService.run_unpinPage,
        PageService.run_pure]
      exact ⟨pages, leaves, released, rooted, rfl, rfl, fun _ => id⟩

end Kept

end MiniDB.Index
