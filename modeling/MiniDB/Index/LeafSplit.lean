import MiniDB.Index.LeafLayout

/-!
# The split of a leaf

`SplitLeafPage` copies the second half of the entries into the new leaf and cuts the
size of the old one down. The new leaf comes out right. The old leaf keeps its RIDs
and its next pointer where they were, and its readers look for them further down,
among the keys that were copied away.
-/

namespace MiniDB.Index

open Foundation

variable {data newData : Bytes} {entries front back : List Entry} {link newPageId : Int}

/-- The loop of `SplitLeafPage`: keys and RIDs come from places that are a fixed number
of `int`s further on. -/
theorem cells_copyEntries {oldSize splitPoint newSize : Nat} (sum : oldSize = splitPoint + newSize)
    {count i : Nat} (inside : i + count ≤ newSize) (newData : Bytes) (j : Nat) :
    cells (copyEntries data oldSize splitPoint newSize count i newData) j =
      if 2 + i ≤ j ∧ j < 2 + i + count then cells data (j + splitPoint)
      else if 2 + newSize + 2 * i ≤ j ∧ j < 2 + newSize + 2 * (i + count) then
        cells data (j + 3 * splitPoint)
      else cells newData j := by
  induction count generalizing i newData with
  | zero =>
    rw [if_neg (by omega), if_neg (by omega)]
    rfl
  | succ count ih =>
    rw [copyEntries]
    have next : ((i : Int) + 1) = (i + 1 : Nat) := by omega
    have source : (splitPoint : Int) + i = (splitPoint + i : Nat) := by omega
    have key : intAt data (2 + splitPoint + i) = cells data (2 + splitPoint + i) := rfl
    rw [next, source, ih (by omega), ridAt_eq, key,
      cells_setRid ⟨isInt_cells _ _, isInt_cells _ _⟩,
      cells_setInt (isInt_cells _ _) (show _ = ((2 + i : Nat) : Int) by omega)]
    simp only [Function.update_apply]
    split_ifs <;> first | omega | rfl | (congr 1; omega)

section

variable {oldSize splitPoint newSize : Nat}

/-- The old page after `SplitLeafPage`: only the size and the next pointer change. -/
theorem cells_splitLeafPage_old (size : intAt data 1 = oldSize)
    (half : splitPoint = (oldSize + 1) / 2) (small : oldSize ≤ 340) (idInt : IsInt newPageId) :
    cells (splitLeafPage data newData newPageId).1 =
      Function.update (Function.update (cells data) 1 splitPoint) (2 + 3 * oldSize) newPageId := by
  have halfEq : ((oldSize : Int) + 1).tdiv 2 = splitPoint := by
    rw [Int.tdiv_eq_ediv_of_nonneg (by omega)]
    omega
  have sizeInt : IsInt splitPoint := by
    simp only [IsInt]
    omega
  simp only [splitLeafPage, size, halfEq]
  rw [cells_setInt idInt (show _ = ((2 + 3 * oldSize : Nat) : Int) by omega),
    cells_setInt sizeInt (show (1 : Int) = (1 : Nat) from rfl)]

/-- The new page after `SplitLeafPage`. -/
theorem cells_splitLeafPage_new (size : intAt data 1 = oldSize)
    (half : splitPoint = (oldSize + 1) / 2) (rest : newSize = oldSize - splitPoint)
    (small : oldSize ≤ 340) (newPageId : Int) (j : Nat) :
    cells (splitLeafPage data newData newPageId).2.1 j =
      if j = 2 + 3 * newSize then cells data (2 + 3 * oldSize)
      else if 2 ≤ j ∧ j < 2 + newSize then cells data (j + splitPoint)
      else if 2 + newSize ≤ j ∧ j < 2 + 3 * newSize then cells data (j + 3 * splitPoint)
      else if j = 1 then newSize
      else if j = 0 then 1
      else cells newData j := by
  have halfEq : ((oldSize : Int) + 1).tdiv 2 = splitPoint := by
    rw [Int.tdiv_eq_ediv_of_nonneg (by omega)]
    omega
  have restEq : (oldSize : Int) - splitPoint = newSize := by omega
  have next : intAt (setInt data 1 splitPoint) (2 + oldSize + oldSize * 2) =
      cells data (2 + 3 * oldSize) := by
    rw [intAt_setInt_of_ne (by omega) (by omega) (by omega), cells]
    congr 1
    omega
  have copied := @cells_copyEntries data oldSize splitPoint newSize (by omega) newSize 0 (by omega)
    (setInt (setInt newData 0 1) 1 newSize) j
  have sizeInt : IsInt newSize := by
    simp only [IsInt]
    omega
  simp only [splitLeafPage, size, halfEq, restEq, next, Int.toNat_natCast]
  rw [cells_setInt (isInt_cells _ _) (show _ = ((2 + 3 * newSize : Nat) : Int) by omega),
    Function.update_apply]
  rw [cells_setInt sizeInt (show (1 : Int) = (1 : Nat) from rfl),
    cells_setInt (by decide) (show (0 : Int) = (0 : Nat) from rfl)] at copied
  refine if_congr Iff.rfl rfl (copied.trans ?_)
  simp only [Function.update_apply]
  split_ifs <;> omega

end

/-- The new leaf of a split holds the second half of the entries. -/
theorem wellFormed_newLeaf (leaf : WellFormedLeaf data (front ++ back) link)
    (half : front.length = ((front ++ back).length + 1) / 2) :
    WellFormedLeaf (splitLeafPage data newData newPageId).2.1 back link := by
  obtain ⟨-, size, keys, rids, last⟩ := leaf.parts
  have fits := leaf.fits
  have lengths : (front ++ back).length = front.length + back.length := List.length_append
  have page := @cells_splitLeafPage_new data newData _ _ back.length size half (by omega) fits
    newPageId
  rw [keysOf_append, segment_append, length_keysOf] at keys
  rw [ridInts_append, segment_append, length_ridInts] at rids
  refine ⟨?_, (List.pairwise_append.mp (keysOf_append ▸ leaf.sorted)).2.1, by omega⟩
  rw [leafImage, segment_cons, segment_cons, segment_append, segment_append, segment_cons,
    length_keysOf, length_ridInts]
  generalize (front ++ back).length = n at *
  refine ⟨?_, ?_, keys.2.moved fun i inside => ?_, rids.2.moved fun i inside => ?_, ?_,
    segment_nil.mpr trivial⟩
  · simp (disch := omega) only [page, if_neg, if_true]
  · simp (disch := omega) only [page, if_neg, if_true]
  · rw [length_keysOf] at inside
    simp (disch := omega) only [page, if_pos, if_neg]
    congr 1
    omega
  · rw [length_ridInts] at inside
    simp (disch := omega) only [page, if_pos, if_neg]
    congr 1
    omega
  · rw [page, if_pos (by omega)]
    exact last

/-- The old leaf of a split keeps half of the entries, rounded up. -/
theorem length_oldLeaf (leaf : WellFormedLeaf data entries link) (idInt : IsInt newPageId)
    (oldLeaf : WellFormedLeaf (splitLeafPage data newData newPageId).1 front newPageId) :
    front.length = (entries.length + 1) / 2 := by
  have page := @cells_splitLeafPage_old data newData _ _ _ leaf.parts.2.1 rfl leaf.fits idInt
  have here := congrFun page 1
  rw [Function.update_of_ne (by omega), Function.update_self] at here
  have counted := here.symm.trans oldLeaf.parts.2.1
  omega

/-- The old leaf of a split: behind the keys that stay its readers find the other keys,
and then the RIDs from the first on. -/
theorem wellFormed_oldLeaf_iff (leaf : WellFormedLeaf data (front ++ back) link)
    (half : front.length = ((front ++ back).length + 1) / 2) (two : 2 ≤ (front ++ back).length)
    (idInt : IsInt newPageId) :
    WellFormedLeaf (splitLeafPage data newData newPageId).1 front newPageId ↔
      ridInts front ++ [newPageId] =
        (keysOf back ++ ridInts (front ++ back)).take (2 * front.length + 1) := by
  obtain ⟨kind, size, keys, rids, -⟩ := leaf.parts
  have fits := leaf.fits
  have lengths : (front ++ back).length = front.length + back.length := List.length_append
  have page := @cells_splitLeafPage_old data newData _ _ _ size half fits idInt
  have sorted := (List.pairwise_append.mp (keysOf_append ▸ leaf.sorted)).1
  have image : Segment (cells data) 2 (keysOf (front ++ back) ++ ridInts (front ++ back)) := by
    rw [segment_append, length_keysOf]
    exact ⟨keys, rids⟩
  have total : (keysOf (front ++ back) ++ ridInts (front ++ back)).length =
      3 * (front ++ back).length := by
    rw [List.length_append, length_keysOf, length_ridInts]
    omega
  have after : Segment (cells (splitLeafPage data newData newPageId).1) 2
      (keysOf (front ++ back) ++ ridInts (front ++ back)) := by
    refine image.moved fun i inside => ?_
    rw [page, Function.update_of_ne (by omega), Function.update_of_ne (by omega)]
  rw [← List.take_append_drop (3 * front.length + 1) (keysOf (front ++ back) ++ _),
    segment_append] at after
  rw [wellFormedLeaf_iff_eq _ _ sorted (by omega) after.1 (by simp; omega)]
  · rw [keysOf_append, List.append_assoc,
      show 3 * front.length + 1 = (keysOf front).length + (2 * front.length + 1) by simp; omega,
      List.take_length_add_append, List.append_cancel_left_eq]
  · change cells _ 0 = _
    rw [page, Function.update_of_ne (by omega), Function.update_of_ne (by omega)]
    exact kind
  · change cells _ 1 = _
    rw [page, Function.update_of_ne (by omega), Function.update_self]

/-- What the parts of a split are for: the entries, in two leaves linked one behind the
other, and the first key of the second. -/
def SplitsLeaf (parts : Bytes × Bytes × Int) (entries : List Entry) (link newPageId : Int) : Prop :=
  ∃ front back, front ≠ [] ∧ back ≠ [] ∧ front ++ back = entries ∧
    WellFormedLeaf parts.1 front newPageId ∧ WellFormedLeaf parts.2.1 back link ∧
    (keysOf back).head? = some parts.2.2

/-- The leaves whose split works: the RIDs of the first half and the new page id agree
with what lies where they are read afterwards. -/
def SplitsInPlace (entries : List Entry) (newPageId : Int) : Prop :=
  let splitPoint := (entries.length + 1) / 2
  ridInts (entries.take splitPoint) ++ [newPageId] =
    (keysOf (entries.drop splitPoint) ++ ridInts entries).take (2 * splitPoint + 1)

instance (entries : List Entry) (newPageId : Int) : Decidable (SplitsInPlace entries newPageId) :=
  inferInstanceAs (Decidable (_ = _))

/-- `SplitLeafPage` splits a leaf into two exactly if the RIDs that stay read the same
from their new place. -/
theorem splitLeafPage_splitsLeaf_iff (leaf : WellFormedLeaf data entries link)
    (two : 2 ≤ entries.length) (newData : Bytes) (idInt : IsInt newPageId) :
    SplitsLeaf (splitLeafPage data newData newPageId) entries link newPageId ↔
      SplitsInPlace entries newPageId := by
  have cut := List.take_append_drop ((entries.length + 1) / 2) entries
  have half : (entries.take ((entries.length + 1) / 2)).length = (entries.length + 1) / 2 := by
    rw [List.length_take]
    omega
  rw [SplitsInPlace]
  generalize entries.take ((entries.length + 1) / 2) = first at *
  generalize entries.drop ((entries.length + 1) / 2) = second at *
  subst cut
  have secondLength : second.length = (first ++ second).length - first.length := by simp
  rw [← half, ← wellFormed_oldLeaf_iff leaf half two idInt]
  constructor
  · rintro ⟨front, back, -, -, whole, oldLeaf, -⟩
    have same := (length_oldLeaf leaf idInt oldLeaf).trans half.symm
    rw [(List.append_inj whole same).1] at oldLeaf
    exact oldLeaf
  · intro oldLeaf
    have newLeaf := @wellFormed_newLeaf data newData _ _ _ newPageId leaf half
    refine ⟨first, second, ?_, ?_, rfl, oldLeaf, newLeaf, ?_⟩
    · apply List.ne_nil_of_length_pos
      omega
    · apply List.ne_nil_of_length_pos
      omega
    · cases second with
      | nil =>
        simp only [List.length_nil] at secondLength
        omega
      | cons entry second =>
        have keys := newLeaf.parts.2.2.1
        rw [keysOf_cons, segment_cons] at keys
        rw [keysOf_cons, List.head?_cons, ← keys.1]
        rfl

/-- The entry 1 with the RID (7, 7) and the entry 7, split with the new page 7. -/
theorem splitLeafPage_splitsLeaf_seven :
    SplitsLeaf (splitLeafPage (leafPageOf [(1, twice 7), (7, twice 3)] (-1)) Bytes.zeros 7)
      [(1, twice 7), (7, twice 3)] (-1) 7 :=
  (splitLeafPage_splitsLeaf_iff (wellFormed_leafPageOf (by decide) (by decide) (by decide))
    (by decide) Bytes.zeros (by decide)).mpr (by decide)

/-- The entries 1 and 2 with the RIDs (5, 5) and (6, 6), split with the new page 9: the
RID that stays is read as (2, 5). -/
theorem split_rid_reads_key :
    ¬ ∀ (data newData : Bytes) (entries : List Entry) (link newPageId : Int),
      WellFormedLeaf data entries link → 2 ≤ entries.length → IsInt newPageId →
        SplitsLeaf (splitLeafPage data newData newPageId) entries link newPageId := by
  intro splits
  have leaf : WellFormedLeaf (leafPageOf [(1, twice 5), (2, twice 6)] (-1))
      ([(1, twice 5)] ++ [(2, twice 6)]) (-1) :=
    wellFormed_leafPageOf (by decide) (by decide) (by decide)
  obtain ⟨front, back, -, -, whole, oldLeaf, -⟩ :=
    splits _ Bytes.zeros _ _ 9 leaf (by decide) (by decide)
  have same : front.length = [(1, twice 5)].length := length_oldLeaf leaf (by decide) oldLeaf
  rw [(List.append_inj whole same).1] at oldLeaf
  have read := (wellFormed_oldLeaf_iff leaf rfl (by decide) (by decide)).mp oldLeaf
  revert read
  decide

end MiniDB.Index
