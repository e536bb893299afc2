import MiniDB.Index.CellPrograms
import MiniDB.Index.LeafPages

/-!
# How far the accesses reach

A leaf of size `n` is read up to index `3 * n + 1` and written up to `3 * n + 3`, where
`InsertIntoLeaf` puts the second half of a RID behind `n` others. For a leaf within the
bound of a page both are indices of the page.
-/

namespace MiniDB.Index

open Foundation

namespace CellProgram

variable {Block : Type} [DecidableEq Block] {limit : Int} {memory : Block → Bytes} {page : Block}
  {key size : Int}

/-- The search reads keys of the page only. -/
theorem below_search {fuel : Nat} {left right : Int} (nonneg : 0 ≤ left) (inside : 2 + right ≤ limit) :
    Below limit (search page key fuel left right) memory := by
  induction fuel generalizing left right with
  | zero => simp [search]
  | succ fuel ih =>
    rw [search]
    by_cases goesOn : left < right
    · have middle : (left + right).tdiv 2 = (left + right) / 2 :=
        Int.tdiv_eq_ediv_of_nonneg (by omega)
      rw [if_pos goesOn, below_bind, below_read, middle]
      refine ⟨by omega, ?_⟩
      split
      · exact ih (by omega) inside
      · exact ih nonneg (by omega)
    · rw [if_neg goesOn]
      simp

/-- So does the binary search. -/
theorem below_binarySearch (sizeEq : intAt (memory page) 1 = size) (inside : 2 + size ≤ limit)
    (header : 1 < limit) : Below limit (binarySearch page key) memory := by
  rw [binarySearch, below_bind, below_read, run_read, sizeEq]
  exact ⟨header, below_search (Int.le_refl 0) inside⟩

/-- A RID of the page is read inside it. -/
theorem below_readRid {index : Int} (inside : 3 + size + index * 2 < limit) :
    Below limit (readRid page size index) memory := by
  simp only [readRid, below_bind, below_read, below_pure, and_true]
  omega

/-- A RID of the page is written inside it. -/
theorem below_writeRid {index : Int} {rid : RID} (inside : 3 + size + index * 2 < limit) :
    Below limit (writeRid page size index rid) memory := by
  simp only [writeRid, below_bind, below_write]
  omega

/-! ## Reading -/

/-- The loop to the left stays inside. -/
theorem below_matchesBelow {i : Nat} (bound : (i : Int) ≤ size) (inside : 1 + 3 * size < limit)
    (result : List RID) : Below limit (matchesBelow page key size i result) memory := by
  induction i generalizing result with
  | zero => simp [matchesBelow]
  | succ i ih =>
    rw [matchesBelow, below_bind, below_read]
    refine ⟨by omega, ?_⟩
    split
    · rw [below_bind, run_readRid]
      exact ⟨below_readRid (by omega), ih (by omega) _⟩
    · simp

/-- The loop to the right stays inside. -/
theorem below_matchesAbove {count : Nat} {i : Int} (nonneg : 0 ≤ i) (bound : i + count ≤ size)
    (inside : 1 + 3 * size < limit) (result : List RID) :
    Below limit (matchesAbove page key size count i result) memory := by
  induction count generalizing i result with
  | zero => simp [matchesAbove]
  | succ count ih =>
    rw [matchesAbove, below_bind, below_read]
    refine ⟨by omega, ?_⟩
    split
    · rw [below_bind, run_readRid]
      exact ⟨below_readRid (by omega), ih (by omega) (by omega) _⟩
    · simp

/-- The RIDs of a key are read inside the leaf. -/
theorem below_collect (leafPage : LeafPage (memory page)) :
    Below 1024 (collect page key) memory := by
  have bounds := leafPage.binarySearch_bounds key
  have upper := leafPage.upper
  simp only [leafCapacity] at upper
  simp only [collect, below_bind, below_read, run_read, run_binarySearch, run_matchesBelow]
  refine ⟨by decide, below_binarySearch rfl (by omega) (by decide), ?_, ?_⟩
  · exact below_matchesBelow (by omega) (by omega) _
  · exact below_matchesAbove bounds.1 (by omega) (by omega) _

/-- A node is read up to the last of its children. -/
theorem below_child {leftMost : Bool} (one : intAt (memory page) 1 = 1) :
    Below 1024 (child page key leftMost) memory := by
  have bounds := search_bounds (memory page) key 1 (Int.le_refl 0) (show (0 : Int) ≤ 1 by decide)
  have searched : Index.binarySearch (memory page) key = Index.search (memory page) key 1 0 1 := by
    rw [Index.binarySearch, one, Int.toNat_one]
  cases leftMost with
  | true =>
    simp [child, one]
  | false =>
    simp only [child, Bool.false_eq_true, if_false, below_bind, run_binarySearch, below_read, run_read,
      one, searched]
    refine ⟨below_binarySearch one (by decide) (by decide), by decide, ?_⟩
    omega

/-! ## Insertion -/

/-- The loop that makes room stays inside, if one more entry fits. -/
theorem below_makeRoom {pos : Int} {i : Nat} (bound : (i : Int) ≤ size)
    (inside : 3 + 3 * size < limit) : Below limit (makeRoom page size pos i) memory := by
  induction i generalizing memory with
  | zero => simp [makeRoom]
  | succ i ih =>
    rw [makeRoom]
    split
    · simp only [below_bind, below_read, below_write, run_read, run_write, run_readRid, run_writeRid]
      exact ⟨by omega, by omega, below_readRid (by omega), below_writeRid (by omega), ih (by omega)⟩
    · simp

/-- `InsertIntoLeaf` reaches index `3 * size + 3`. -/
theorem below_insertIntoLeaf {value : RID} (leafPage : LeafPage (memory page)) :
    Below 1024 (insertIntoLeaf page key value) memory := by
  have bounds := leafPage.binarySearch_bounds key
  have upper := leafPage.upper
  simp only [leafCapacity] at upper
  simp only [insertIntoLeaf, below_bind, below_read, below_write, run_read, run_binarySearch,
    run_makeRoom, run_write, run_writeRid]
  refine ⟨by decide, below_binarySearch rfl (by omega) (by decide), ?_, by omega, ?_, by decide⟩
  · exact below_makeRoom (by omega) (by omega)
  · exact below_writeRid (by omega)

theorem below_rootLeaf {value : RID} : Below 1024 (rootLeaf page key value) memory := by
  simp [rootLeaf]

theorem below_rootOver {oldPageId newPageId : Int} :
    Below 1024 (rootOver page oldPageId key newPageId) memory := by
  simp [rootOver]

/-! ## Splits -/

section Split

variable {oldPage newPage : Block} {oldSize splitPoint newSize newPageId : Int}

/-- The loop that copies the second half stays inside. -/
theorem below_copyEntries {count : Nat} {i : Int} (nonneg : 0 ≤ i) (bound : i + count ≤ newSize)
    (sum : splitPoint + newSize = oldSize) (half : 0 ≤ splitPoint) (inside : 1 + 3 * oldSize < limit) :
    Below limit (copyEntries oldPage newPage oldSize splitPoint newSize count i) memory := by
  induction count generalizing memory i with
  | zero => simp [copyEntries]
  | succ count ih =>
    simp only [copyEntries, below_bind, below_read, below_write, run_read, run_write, run_readRid,
      run_writeRid]
    exact ⟨by omega, by omega, below_readRid (by omega), below_writeRid (by omega),
      ih (by omega) (by omega)⟩

/-- `SplitLeafPage` reaches the next pointer of the old page. -/
theorem below_splitLeafPage (different : oldPage ≠ newPage) (leafPage : LeafPage (memory oldPage)) :
    Below 1024 (splitLeafPage oldPage newPage newPageId) memory := by
  have lower := leafPage.lower
  have upper := leafPage.upper
  simp only [leafCapacity] at upper
  have middle : (intAt (memory oldPage) 1 + 1).tdiv 2 = (intAt (memory oldPage) 1 + 1) / 2 :=
    Int.tdiv_eq_ediv_of_nonneg (by omega)
  simp only [splitLeafPage, middle, below_bind, below_read, below_write, run_read, run_write,
    run_copyEntries different]
  refine ⟨by decide, by decide, by decide, ?_, by decide, by omega, by omega, by omega, by decide⟩
  exact below_copyEntries (Int.le_refl 0) (by omega) (by omega) (by omega) (by omega)

/-- A split and the insertion into one of its halves. -/
theorem below_splitInsert {value : RID} (different : oldPage ≠ newPage)
    (leafPage : LeafPage (memory oldPage)) :
    Below 1024 (splitInsert oldPage newPage newPageId key value) memory := by
  have lower := leafPage.lower
  have upper := leafPage.upper
  simp only [leafCapacity] at upper
  obtain ⟨⟨oldKind, oldSize⟩, newKind, newSize⟩ := leafPage.splitLeafPage (memory newPage) newPageId
  simp only [splitInsert, below_bind, run_splitLeafPage different]
  refine ⟨below_splitLeafPage different leafPage, ?_⟩
  split
  · simp only [below_bind, below_pure, and_true]
    refine below_insertIntoLeaf ?_
    rw [Function.update_self]
    exact ⟨oldKind, by omega, by simp only [leafCapacity]; omega⟩
  · simp only [below_bind, below_pure, and_true]
    refine below_insertIntoLeaf ?_
    rw [Function.update_of_ne different.symm, Function.update_self]
    exact ⟨newKind, by omega, by simp only [leafCapacity]; omega⟩

end Split

/-! ## Removal -/

/-- The entry to be removed is looked for inside the leaf. -/
theorem below_findEntry (leafPage : LeafPage (memory page)) :
    Below 1024 (findEntry page key) memory := by
  have bounds := leafPage.binarySearch_bounds key
  have upper := leafPage.upper
  simp only [leafCapacity] at upper
  simp only [findEntry, below_bind, run_binarySearch]
  refine ⟨below_binarySearch rfl (by omega) (by decide), ?_⟩
  split
  · simp
  · rw [below_bind, below_read]
    refine ⟨by omega, ?_⟩
    split <;> simp

/-- The loop that closes a gap stays inside. -/
theorem below_closeGap {count : Nat} {i : Int} (nonneg : 0 ≤ i) (bound : i + count < size)
    (inside : 1 + 3 * size < limit) : Below limit (closeGap page size count i) memory := by
  induction count generalizing memory i with
  | zero => simp [closeGap]
  | succ count ih =>
    simp only [closeGap, below_bind, below_read, below_write, run_read, run_write, run_readRid,
      run_writeRid]
    exact ⟨by omega, by omega, below_readRid (by omega), below_writeRid (by omega),
      ih (by omega) (by omega)⟩

/-- The removal of an entry stays inside the leaf. -/
theorem below_removeFromLeaf {pos : Int} (leafPage : LeafPage (memory page)) (nonneg : 0 ≤ pos)
    (bound : pos < intAt (memory page) 1) : Below 1024 (removeFromLeaf page pos) memory := by
  have upper := leafPage.upper
  simp only [leafCapacity] at upper
  simp only [removeFromLeaf, below_bind, below_read, below_write, run_read, run_closeGap]
  exact ⟨by decide, below_closeGap nonneg (by omega) (by omega), by decide⟩

end CellProgram

end MiniDB.Index
