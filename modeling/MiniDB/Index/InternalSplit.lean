import MiniDB.Index.TreeSearch
import MiniDB.Index.UpperBound

/-!
# The split of an internal page

`SplitInternalPage` copies the keys and the children behind the middle key into the new
page, where `FindLeafPage` finds them. The old page only gets a smaller size. Its children
stay where they were, and `FindLeafPage` looks for them further down, among the keys that
were copied away.
-/

namespace MiniDB.Index

open Foundation

/-- A loop `newData[target + i] = oldData[source + i]`: `count` rounds from number `i` on. -/
def copyInts (oldData : Bytes) (source target : Int) : (count : Nat) → Int → Bytes → Bytes
  | 0, _, newData => newData
  | count + 1, i, newData =>
    copyInts oldData source target count (i + 1)
      (setInt newData (target + i) (intAt oldData (source + i)))

/-- `BPlusTree::SplitInternalPage`: both pages afterwards, and the middle key. -/
def splitInternalPage (oldData newData : Bytes) : Bytes × Bytes × Int :=
  let oldSize := intAt oldData 1
  let splitPoint := oldSize.tdiv 2
  let newSize := oldSize - splitPoint - 1
  let newData := setInt (setInt newData 0 0) 1 newSize
  let middleKey := intAt oldData (2 + splitPoint)
  let newData := copyInts oldData (2 + splitPoint + 1) 2 newSize.toNat 0 newData
  let newData := copyInts oldData (2 + oldSize + 1 + splitPoint + 1) (2 + newSize + 1)
    (newSize + 1).toNat 0 newData
  (setInt oldData 1 splitPoint, newData, middleKey)

variable {data newData : Bytes} {key : Int} {size half rest : Nat}

/-! ## The pages after a split -/

theorem cells_copyInts {source target count i : Nat} (newData : Bytes) (j : Nat) :
    cells (copyInts data source target count i newData) j =
      if target + i ≤ j ∧ j < target + i + count then cells data (source + (j - target))
      else cells newData j := by
  induction count generalizing i newData with
  | zero =>
    rw [if_neg (by omega)]
    rfl
  | succ count ih =>
    have next : ((i : Int) + 1) = (i + 1 : Nat) := by omega
    have read : intAt data (source + i) = cells data (source + i) := rfl
    rw [copyInts, next, ih, read,
      cells_setInt (isInt_cells _ _) (show _ = ((target + i : Nat) : Int) by omega)]
    simp only [Function.update_apply]
    split_ifs <;> first | omega | rfl | (congr 1; omega)

/-- The whole loop. -/
theorem cells_copyInts_zero {source target : Nat} {sourcePlace targetPlace : Int}
    (isSource : sourcePlace = source) (isTarget : targetPlace = target) (count : Nat)
    (newData : Bytes) (j : Nat) :
    cells (copyInts data sourcePlace targetPlace count 0 newData) j =
      if target ≤ j ∧ j < target + count then cells data (source + (j - target))
      else cells newData j := by
  subst isSource isTarget
  exact @cells_copyInts data source target count 0 newData j

theorem splitPoint_eq (halfEq : half = size / 2) : (size : Int).tdiv 2 = half := by
  rw [Int.tdiv_eq_ediv_of_nonneg (by omega)]
  omega

section Sizes

variable (sizeEq : intAt data 1 = size) (halfEq : half = size / 2) (sum : size = half + 1 + rest)
  (fits : size ≤ 510)

include sizeEq halfEq

/-- The middle key is the one behind the first half. -/
theorem middleKey_splitInternalPage :
    (splitInternalPage data newData).2.2 = intAt data (2 + half) := by
  simp only [splitInternalPage, sizeEq, splitPoint_eq halfEq]

include fits

/-- The old page is what it was but for its size. -/
theorem cells_splitInternalPage_old :
    cells (splitInternalPage data newData).1 = Function.update (cells data) 1 half := by
  simp only [splitInternalPage, sizeEq, splitPoint_eq halfEq]
  refine cells_setInt ?_ (show (1 : Int) = (1 : Nat) from rfl)
  simp only [IsInt]
  omega

theorem size_splitInternalPage_old : intAt (splitInternalPage data newData).1 1 = half := by
  have old := @cells_splitInternalPage_old data newData size half sizeEq halfEq fits
  change cells (splitInternalPage data newData).1 1 = half
  rw [old, Function.update_self]

include sum

/-- The new page has the size, the keys and the children behind the middle key. -/
theorem cells_splitInternalPage_new (j : Nat) :
    cells (splitInternalPage data newData).2.1 j =
      if 3 + rest ≤ j ∧ j < 4 + 2 * rest then cells data (j + 2 * (half + 1))
      else if 2 ≤ j ∧ j < 2 + rest then cells data (j + (half + 1))
      else if j = 1 then rest
      else if j = 0 then 0
      else cells newData j := by
  have newSizeEq : (size : Int) - half - 1 = rest := by omega
  have count : ((rest : Int) + 1).toNat = rest + 1 := by omega
  have restInt : IsInt rest := by
    simp only [IsInt]
    omega
  simp only [splitInternalPage, sizeEq, splitPoint_eq halfEq, newSizeEq, Int.toNat_natCast, count]
  rw [cells_copyInts_zero (show _ = ((size + half + 4 : Nat) : Int) by omega)
      (show _ = ((rest + 3 : Nat) : Int) by omega),
    cells_copyInts_zero (show _ = ((half + 3 : Nat) : Int) by omega)
      (show (2 : Int) = (2 : Nat) from rfl),
    cells_setInt restInt (show (1 : Int) = (1 : Nat) from rfl),
    cells_setInt (by simp [IsInt]) (show (0 : Int) = (0 : Nat) from rfl)]
  simp only [Function.update_apply]
  split_ifs <;> first | omega | rfl | (congr 1; omega)

theorem size_splitInternalPage_new : intAt (splitInternalPage data newData).2.1 1 = rest := by
  have new := @cells_splitInternalPage_new data newData size half rest sizeEq halfEq sum fits
  change cells (splitInternalPage data newData).2.1 1 = rest
  rw [new, if_neg (by omega), if_neg (by omega), if_pos rfl]

end Sizes

/-! ## Routing -/

/-- The rule of `FindLeafPage` selects the same child as before the split, on the side of the
middle key where it then looks. -/
def SplitRoutes (data newData : Bytes) (key : Int) : Prop :=
  let (oldData, newData, middleKey) := splitInternalPage data newData
  childAt (if key < middleKey then oldData else newData) key false = childAt data key false

instance (data newData : Bytes) (key : Int) : Decidable (SplitRoutes data newData key) :=
  inferInstanceAs (Decidable (_ = _))

theorem NodePage.keysSorted {separators children : List Int}
    (node : NodePage data separators children) (increasing : separators.Pairwise (· < ·)) :
    KeysSorted data separators.length := by
  intro i j inOrder isKey
  have first := node.keysAt i (by omega)
  have second := node.keysAt j isKey
  change cells data (2 + i) ≤ cells data (2 + j)
  rw [first, second]
  rcases Nat.eq_or_lt_of_le inOrder with same | before
  · subst same
    exact Int.le_refl _
  · exact Int.le_of_lt (List.pairwise_iff_getElem.mp increasing i j (by omega) isKey before)

section Search

variable (sizeEq : intAt data 1 = size) (halfEq : half = size / 2) (sum : size = half + 1 + rest)
  (fits : size ≤ 510) (sorted : KeysSorted data size)

include sizeEq halfEq sum fits sorted

/-- Left of the middle key the search ends where it did. -/
theorem binarySearch_splitInternalPage_old (left : key < intAt data (2 + half)) :
    binarySearch (splitInternalPage data newData).1 key = binarySearch data key := by
  have old := @cells_splitInternalPage_old data newData size half sizeEq halfEq fits
  have sizeOld := @size_splitInternalPage_old data newData size half sizeEq halfEq fits
  have keys : ∀ i : Nat, intAt (splitInternalPage data newData).1 (2 + i) = intAt data (2 + i) := by
    intro i
    change cells (splitInternalPage data newData).1 (2 + i) = cells data (2 + i)
    rw [old, Function.update_of_ne (by omega)]
  have sortedOld : KeysSorted (splitInternalPage data newData).1 half := by
    intro i j inOrder isKey
    rw [keys, keys]
    exact sorted i j inOrder (by omega)
  obtain ⟨cut, isCut, bound, below, above⟩ := binarySearch_cut sizeEq sorted key
  have inHalf : cut ≤ half := by
    by_contra beyond
    exact absurd (below half (by omega)) (not_le.mpr left)
  rw [isCut]
  refine binarySearch_eq_of_cut sizeOld sortedOld inHalf (fun i before => ?_) fun i behind isKey => ?_
  · rw [keys]
    exact below i before
  · rw [keys]
    exact above i behind (by omega)

/-- From the middle key on it ends as far behind that key as it did. -/
theorem binarySearch_splitInternalPage_new (right : intAt data (2 + half) ≤ key) :
    ∃ cut : Nat, cut ≤ rest ∧ binarySearch (splitInternalPage data newData).2.1 key = cut ∧
      binarySearch data key = (half + 1 + cut : Nat) := by
  have new := @cells_splitInternalPage_new data newData size half rest sizeEq halfEq sum fits
  have sizeNew := @size_splitInternalPage_new data newData size half rest sizeEq halfEq sum fits
  have keys : ∀ i : Nat, i < rest → intAt (splitInternalPage data newData).2.1 (2 + i) =
      intAt data (2 + (half + 1 + i : Nat)) := by
    intro i isKey
    change cells (splitInternalPage data newData).2.1 (2 + i) = cells data (2 + (half + 1 + i))
    rw [new, if_neg (by omega), if_pos (by omega)]
    congr 1
    omega
  have sortedNew : KeysSorted (splitInternalPage data newData).2.1 rest := by
    intro i j inOrder isKey
    rw [keys i (by omega), keys j isKey]
    exact sorted _ _ (by omega) (by omega)
  obtain ⟨cut, isCut, bound, below, above⟩ := binarySearch_cut sizeNew sortedNew key
  refine ⟨cut, bound, isCut, ?_⟩
  refine binarySearch_eq_of_cut sizeEq sorted (by omega) (fun i before => ?_) fun i behind isKey => ?_
  · by_cases inHalf : i ≤ half
    · exact (sorted i half inHalf (by omega)).trans right
    · obtain ⟨later, rfl⟩ := Nat.exists_eq_add_of_le (by omega : half + 1 ≤ i)
      rw [← keys later (by omega)]
      exact below later (by omega)
  · obtain ⟨later, rfl⟩ := Nat.exists_eq_add_of_le (by omega : half + 1 ≤ i)
    rw [← keys later (by omega)]
    exact above later (by omega) (by omega)

end Search

section Children

variable (sizeEq : intAt data 1 = size) (halfEq : half = size / 2) (fits : size ≤ 510)
  (sorted : KeysSorted data size)

include sizeEq halfEq fits sorted

/-- Left of the middle key the child is read where the smaller size puts it. -/
theorem childAt_splitInternalPage_old (some : 0 < size) (left : key < intAt data (2 + half)) :
    childAt (splitInternalPage data newData).1 key false =
      intAt data (3 + half + binarySearch data key) := by
  obtain ⟨rest, sum⟩ := Nat.exists_eq_add_of_le (by omega : half + 1 ≤ size)
  obtain ⟨cut, isCut, -⟩ := binarySearch_cut sizeEq sorted key
  have old := @cells_splitInternalPage_old data newData size half sizeEq halfEq fits
  have sizeOld := @size_splitInternalPage_old data newData size half sizeEq halfEq fits
  have sameSearch :=
    @binarySearch_splitInternalPage_old data newData key size half rest sizeEq halfEq sum fits sorted left
  have place : (2 : Int) + half + 1 + cut = (3 + half + cut : Nat) := by omega
  have target : (3 : Int) + half + cut = (3 + half + cut : Nat) := by omega
  simp only [childAt, Bool.false_eq_true, if_false]
  rw [sizeOld, sameSearch, isCut, place, target]
  change cells (splitInternalPage data newData).1 (3 + half + cut) = cells data (3 + half + cut)
  rw [old, Function.update_of_ne (by omega)]

/-- From the middle key on the child is the one that it was. -/
theorem childAt_splitInternalPage_new (some : 0 < size) (right : intAt data (2 + half) ≤ key) :
    childAt (splitInternalPage data newData).2.1 key false = childAt data key false := by
  obtain ⟨rest, sum⟩ := Nat.exists_eq_add_of_le (by omega : half + 1 ≤ size)
  have new := @cells_splitInternalPage_new data newData size half rest sizeEq halfEq sum fits
  have sizeNew := @size_splitInternalPage_new data newData size half rest sizeEq halfEq sum fits
  obtain ⟨cut, bound, foundNew, found⟩ :=
    @binarySearch_splitInternalPage_new data newData key size half rest sizeEq halfEq sum fits sorted right
  have place : (2 : Int) + rest + 1 + cut = (3 + rest + cut : Nat) := by omega
  have source : (2 : Int) + size + 1 + (half + 1 + cut : Nat) = (3 + size + (half + 1 + cut) : Nat) := by
    omega
  simp only [childAt, Bool.false_eq_true, if_false]
  rw [sizeNew, foundNew, sizeEq, found, place, source]
  change cells (splitInternalPage data newData).2.1 (3 + rest + cut) =
    cells data (3 + size + (half + 1 + cut))
  rw [new, if_pos (by omega)]
  congr 1
  omega

end Children

/-- The split keeps the child of a key exactly when the key is not left of the middle key, or
when the `int` that `FindLeafPage` then reads happens to be that child. -/
theorem splitRoutes_iff {separators children : List Int} (node : NodePage data separators children)
    (some : 3 ≤ separators.length) (increasing : separators.Pairwise (· < ·)) (newData : Bytes)
    (key : Int) :
    SplitRoutes data newData key ↔
      intAt data (2 + (separators.length / 2 : Nat)) ≤ key ∨
        intAt data (3 + (separators.length / 2 : Nat) + binarySearch data key) =
          intAt data (3 + separators.length + binarySearch data key) := by
  have sorted := node.keysSorted increasing
  have sizeEq := node.size
  have fits := node.fits
  change childAt (if key < (splitInternalPage data newData).2.2 then
    (splitInternalPage data newData).1 else (splitInternalPage data newData).2.1) key false = _ ↔ _
  rw [middleKey_splitInternalPage sizeEq rfl]
  by_cases left : key < intAt data (2 + (separators.length / 2 : Nat))
  · rw [if_pos left, childAt_splitInternalPage_old sizeEq rfl fits sorted (by omega) left,
      or_iff_right (not_le.mpr left)]
    simp only [childAt, Bool.false_eq_true, if_false, sizeEq]
    rw [show (2 : Int) + separators.length + 1 = 3 + separators.length by omega]
  · have right := not_lt.mp left
    rw [if_neg left, childAt_splitInternalPage_new sizeEq rfl fits sorted (by omega) right]
    exact iff_of_true rfl (.inl right)

/-- A page with the keys 10, 20 and 30, and the children 5, 6, 7 and 8. -/
def smallNode : Bytes :=
  setInt (setInt (setInt (setInt (setInt (setInt (setInt (setInt Bytes.zeros 1 3) 2 10) 3 20) 4 30)
    6 5) 7 6) 8 7) 9 8

theorem nodePage_smallNode : NodePage smallNode [10, 20, 30] [5, 6, 7, 8] := by
  refine ⟨by decide +kernel, by decide +kernel, ?_, ?_, rfl, by decide⟩
  · simp only [segment_cons, segment_nil]
    decide +kernel
  · simp only [segment_cons, segment_nil]
    decide +kernel

theorem splitRoutes_iff_smallNode : SplitRoutes smallNode Bytes.zeros 20 :=
  (splitRoutes_iff nodePage_smallNode (by decide) (by decide) Bytes.zeros 20).mpr
    (.inl (by decide +kernel))

/-- The key 5 was below the child 5. After the split the key 30 is read as its child. -/
theorem smallNode_misroutes :
    NodePage smallNode [10, 20, 30] [5, 6, 7, 8] ∧ childAt smallNode 5 false = 5 ∧
      childAt (splitInternalPage smallNode Bytes.zeros).1 5 false = 30 ∧
      ¬ SplitRoutes smallNode Bytes.zeros 5 :=
  ⟨nodePage_smallNode, by decide +kernel⟩

end MiniDB.Index
