import MiniDB.Index.Multimap

/-!
# The header of a leaf

Every operation on a leaf leaves it a leaf, and its size within the bound of a page.
The entries move, the header does not: keys and RIDs are written from index 2 on.
-/

namespace MiniDB.Index

open Foundation

/-- The most entries for which the writes of `InsertIntoLeaf` stay inside the page. -/
def leafCapacity : Int := 340

/-- The page is a leaf with a size in bounds. -/
structure LeafPage (data : Bytes) : Prop where
  leaf : intAt data 0 = 1
  lower : 0 ≤ intAt data 1
  upper : intAt data 1 ≤ leafCapacity

/-- The kind of node and the size are the same. -/
structure SameHeader (data after : Bytes) : Prop where
  kind : intAt after 0 = intAt data 0
  size : intAt after 1 = intAt data 1

variable {data : Bytes}

theorem SameHeader.refl (data : Bytes) : SameHeader data data := ⟨rfl, rfl⟩

theorem SameHeader.trans {middle after : Bytes} (before : SameHeader data middle)
    (later : SameHeader middle after) : SameHeader data after :=
  ⟨later.kind.trans before.kind, later.size.trans before.size⟩

theorem LeafPage.isLeaf (leafPage : LeafPage data) : isLeaf data = true := by
  simp only [Index.isLeaf, leafPage.leaf, decide_true]

/-- The size of a leaf as a natural number. -/
theorem LeafPage.exists_size (leafPage : LeafPage data) :
    ∃ size : Nat, intAt data 1 = size ∧ size ≤ 340 := by
  obtain ⟨size, sizeEq⟩ := Int.eq_ofNat_of_zero_le leafPage.lower
  have upper := leafPage.upper
  simp only [leafCapacity] at upper
  exact ⟨size, sizeEq, by omega⟩

theorem sameHeader_setInt (data : Bytes) {index : Int} (beyond : 2 ≤ index) (value : Int) :
    SameHeader data (setInt data index value) := by
  constructor
  · exact intAt_setInt_of_ne (by omega) (by omega) (by omega)
  · exact intAt_setInt_of_ne (by omega) (by omega) (by omega)

theorem sameHeader_setRid (data : Bytes) {size index : Int} (sizeNonneg : 0 ≤ size)
    (indexNonneg : 0 ≤ index) (rid : RID) : SameHeader data (setRid data size index rid) :=
  (sameHeader_setInt data (by omega) rid.pageId).trans
    (sameHeader_setInt _ (by omega) rid.slotNum)

/-! ## The search -/

/-- The search stays in its interval. -/
theorem search_bounds (data : Bytes) (key : Int) (fuel : Nat) {left right : Int}
    (nonneg : 0 ≤ left) (ordered : left ≤ right) :
    left ≤ search data key fuel left right ∧ search data key fuel left right ≤ right := by
  induction fuel generalizing left right with
  | zero => exact ⟨Int.le_refl _, ordered⟩
  | succ fuel ih =>
    rw [search]
    split
    · next below =>
      have middle : (left + right).tdiv 2 = (left + right) / 2 :=
        Int.tdiv_eq_ediv_of_nonneg (by omega)
      dsimp only
      rw [middle]
      split
      · have later := @ih ((left + right) / 2 + 1) right (by omega) (by omega)
        omega
      · have later := @ih left ((left + right) / 2) nonneg (by omega)
        omega
    · exact ⟨Int.le_refl _, ordered⟩

theorem LeafPage.binarySearch_bounds (leafPage : LeafPage data) (key : Int) :
    0 ≤ binarySearch data key ∧ binarySearch data key ≤ intAt data 1 :=
  search_bounds data key _ (Int.le_refl 0) leafPage.lower

/-! ## Insertion -/

theorem sameHeader_makeRoom (data : Bytes) {size pos : Int} (sizeNonneg : 0 ≤ size)
    (i : Nat) : SameHeader data (makeRoom size pos i data) := by
  induction i generalizing data with
  | zero => exact .refl data
  | succ i ih =>
    rw [makeRoom]
    split
    · refine SameHeader.trans ?_ (ih _)
      exact (sameHeader_setInt data (by omega) _).trans
        (sameHeader_setRid _ sizeNonneg (by omega) _)
    · exact .refl data

/-- `InsertIntoLeaf` on a leaf that may grow. -/
theorem LeafPage.insertIntoLeaf (leafPage : LeafPage data)
    (grows : intAt data 1 + 1 ≤ leafCapacity) (key : Int) (value : RID) :
    LeafPage (insertIntoLeaf data key value) := by
  have lower := leafPage.lower
  have pos := (leafPage.binarySearch_bounds key).1
  simp only [leafCapacity] at grows
  have entries : SameHeader data (setRid (setInt (makeRoom (intAt data 1)
      (binarySearch data key) (intAt data 1).toNat data) (2 + binarySearch data key) key)
      (intAt data 1) (binarySearch data key) value) :=
    ((sameHeader_makeRoom data lower _).trans (sameHeader_setInt _ (by omega) key)).trans
      (sameHeader_setRid _ lower pos value)
  have size : intAt (Index.insertIntoLeaf data key value) 1 = intAt data 1 + 1 :=
    intAt_setInt_self (by simp only [IsInt]; omega)
  refine ⟨?_, by omega, by rw [size]; exact grows⟩
  exact (intAt_setInt_of_ne (by omega) (by omega) (by omega)).trans
    (entries.kind.trans leafPage.leaf)

/-! ## Splits -/

theorem sameHeader_copyEntries (oldData newData : Bytes) (oldSize splitPoint : Int)
    {newSize i : Int} (sizeNonneg : 0 ≤ newSize) (nonneg : 0 ≤ i) (count : Nat) :
    SameHeader newData (copyEntries oldData oldSize splitPoint newSize count i newData) := by
  induction count generalizing newData i with
  | zero => exact .refl newData
  | succ count ih =>
    rw [copyEntries]
    refine SameHeader.trans ?_ (ih _ (by omega))
    exact (sameHeader_setInt newData (by omega) _).trans (sameHeader_setRid _ sizeNonneg nonneg _)

/-- Both pages of a split are leaves with about half of the entries. -/
theorem LeafPage.splitLeafPage (leafPage : LeafPage data) (newData : Bytes) (newPageId : Int) :
    let parts := splitLeafPage data newData newPageId
    (intAt parts.1 0 = 1 ∧ intAt parts.1 1 = (intAt data 1 + 1) / 2) ∧
      intAt parts.2.1 0 = 1 ∧ intAt parts.2.1 1 = intAt data 1 - (intAt data 1 + 1) / 2 := by
  have lower := leafPage.lower
  have upper := leafPage.upper
  simp only [leafCapacity] at upper
  have middle : (intAt data 1 + 1).tdiv 2 = (intAt data 1 + 1) / 2 :=
    Int.tdiv_eq_ediv_of_nonneg (by omega)
  simp only [Index.splitLeafPage, middle]
  generalize newSizeEq : intAt data 1 - (intAt data 1 + 1) / 2 = newSize
  have newNonneg : 0 ≤ newSize := by omega
  have old := sameHeader_setInt (setInt data 1 ((intAt data 1 + 1) / 2))
    (show 2 ≤ 2 + intAt data 1 + intAt data 1 * 2 by omega) newPageId
  have copied := sameHeader_copyEntries data (setInt (setInt newData 0 1) 1 newSize) (intAt data 1)
    ((intAt data 1 + 1) / 2) newNonneg (Int.le_refl 0) newSize.toNat
  have new := fun next => copied.trans (sameHeader_setInt _
    (show 2 ≤ 2 + newSize + newSize * 2 by omega) next)
  refine ⟨⟨?_, ?_⟩, ?_, ?_⟩
  · rw [old.kind, intAt_setInt_of_ne (by decide) (by decide) (by decide), leafPage.leaf]
  · rw [old.size, intAt_setInt_self (by simp only [IsInt]; omega)]
  · rw [(new _).kind, intAt_setInt_of_ne (by decide) (by decide) (by decide),
      intAt_setInt_self (by decide)]
  · rw [(new _).size, intAt_setInt_self (by simp only [IsInt]; omega)]

/-- After a split and the insertion both pages are leaves. -/
theorem LeafPage.splitInsert (leafPage : LeafPage data) (newData : Bytes)
    (newPageId key : Int) (value : RID) :
    let parts := splitInsert data newData newPageId key value
    LeafPage parts.1 ∧ LeafPage parts.2.1 := by
  have lower := leafPage.lower
  have upper := leafPage.upper
  have halves := leafPage.splitLeafPage newData newPageId
  simp only [Index.splitInsert]
  generalize Index.splitLeafPage data newData newPageId = parts at halves
  obtain ⟨oldData, splitData, middleKey⟩ := parts
  obtain ⟨⟨oldLeaf, oldSize⟩, newLeaf, newSize⟩ := halves
  simp only at oldLeaf oldSize newLeaf newSize
  simp only [leafCapacity] at upper
  have old : LeafPage oldData := ⟨oldLeaf, by omega, by simp only [leafCapacity]; omega⟩
  have new : LeafPage splitData := ⟨newLeaf, by omega, by simp only [leafCapacity]; omega⟩
  dsimp only
  split
  · exact ⟨old.insertIntoLeaf (by simp only [leafCapacity]; omega) key value, new⟩
  · exact ⟨old, new.insertIntoLeaf (by simp only [leafCapacity]; omega) key value⟩

/-! ## Removal -/

theorem sameHeader_closeGap (data : Bytes) {size i : Int} (sizeNonneg : 0 ≤ size)
    (nonneg : 0 ≤ i) (count : Nat) : SameHeader data (closeGap size count i data) := by
  induction count generalizing data i with
  | zero => exact .refl data
  | succ count ih =>
    rw [closeGap]
    refine SameHeader.trans ?_ (ih _ (by omega))
    exact (sameHeader_setInt data (by omega) _).trans (sameHeader_setRid _ sizeNonneg nonneg _)

/-- `Remove` of an entry that the search found. -/
theorem LeafPage.removeFromLeaf (leafPage : LeafPage data) {pos : Int} (nonneg : 0 ≤ pos)
    (below : pos < intAt data 1) : LeafPage (removeFromLeaf data pos) := by
  have lower := leafPage.lower
  have upper := leafPage.upper
  simp only [leafCapacity] at upper
  have entries := sameHeader_closeGap data lower nonneg (intAt data 1 - 1 - pos).toNat
  have size : intAt (Index.removeFromLeaf data pos) 1 = intAt data 1 - 1 :=
    intAt_setInt_self (by simp only [IsInt]; omega)
  refine ⟨?_, by omega, by rw [size]; simp only [leafCapacity]; omega⟩
  exact (intAt_setInt_of_ne (by omega) (by omega) (by omega)).trans
    (entries.kind.trans leafPage.leaf)

/-- The leaf that `Insert` makes the root of an empty tree. -/
theorem leafPage_rootLeaf (data : Bytes) (key : Int) (value : RID) :
    LeafPage (rootLeaf data key value) := by
  have entries : SameHeader (setInt (setInt data 0 1) 1 1) (rootLeaf data key value) :=
    (((sameHeader_setInt _ (by decide) key).trans (sameHeader_setInt _ (by decide) _)).trans
      (sameHeader_setInt _ (by decide) _)).trans (sameHeader_setInt _ (by decide) _)
  have kind : intAt (setInt (setInt data 0 1) 1 1) 0 = 1 := by
    rw [intAt_setInt_of_ne (by decide) (by decide) (by decide), intAt_setInt_self (by decide)]
  have size : intAt (setInt (setInt data 0 1) 1 1) 1 = 1 := intAt_setInt_self (by decide)
  refine ⟨entries.kind.trans kind, ?_, ?_⟩
  · rw [entries.size, size]
    decide
  · rw [entries.size, size]
    decide

end MiniDB.Index
