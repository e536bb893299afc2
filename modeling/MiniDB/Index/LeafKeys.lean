import Mathlib.Algebra.BigOperators.Group.Multiset.Basic
import MiniDB.Index.LeafChain
import MiniDB.Index.LeafInsert
import MiniDB.Index.LeafSplit

/-!
# The keys of a leaf

An insertion adds its key to the keys of the leaf as a multiset if it is not the
first, or else if the RID that is written on the last key happens to be that key. A
split parts the keys and loses none.
-/

namespace MiniDB.Index

open Foundation

variable {data newData : Bytes} {key newPageId : Int} {value : RID}

/-- The keys of a leaf in their order. -/
def leafKeys (data : Bytes) : List Int :=
  (List.range (intAt data 1).toNat).map fun i => cells data (2 + i)

/-- There is a place for a new key: behind the first one, or in front, where the RID
lands on the last key and has to be that key. -/
def Places (keys : List Int) (key : Int) (value : RID) : Prop :=
  (∃ first ∈ keys.head?, first ≤ key) ∨ value.pageId = keys.getLastD key

instance (keys : List Int) (key : Int) (value : RID) : Decidable (Places keys key value) :=
  inferInstanceAs (Decidable (_ ∨ _))

/-- The key that tells on which side of a split a new one goes: the first of the
second half, or what is read there if that half is empty. -/
def middleOf (data : Bytes) : Int :=
  if 2 ≤ intAt data 1 then intAt data (2 + (intAt data 1 + 1) / 2) else nextOf data

/-- The keys on the side of a split where a new one goes. -/
def sideOf (data : Bytes) (key : Int) : List Int :=
  if key < middleOf data then (leafKeys data).take ((intAt data 1 + 1) / 2).toNat
  else (leafKeys data).drop ((intAt data 1 + 1) / 2).toNat

/-! ## Insertion -/

/-- A sequence with one more element at a position. -/
theorem perm_map_range_insert {Element : Type} {before after : Nat → Element} {new : Element}
    {size pos : Nat} (bound : pos ≤ size) (below : ∀ i < pos, after i = before i)
    (at_pos : after pos = new) (above : ∀ i, pos ≤ i → i < size → after (i + 1) = before i) :
    ((List.range (size + 1)).map after).Perm (new :: (List.range size).map before) := by
  induction size, bound using Nat.le_induction with
  | base =>
    have same : (List.range pos).map after = (List.range pos).map before :=
      List.map_congr_left fun i member => below i (List.mem_range.mp member)
    rw [List.range_succ, List.map_append, same, List.map_singleton, at_pos]
    exact List.perm_append_singleton _ _
  | succ size bound ih =>
    have shorter := ih fun i lower upper => above i lower (Nat.lt_succ_of_lt upper)
    rw [@List.range_succ (size + 1), List.map_append, List.map_singleton,
      above size bound (Nat.lt_succ_self _), @List.range_succ size, List.map_append (f := before),
      ← @List.range_succ size]
    exact shorter.append_right _

/-- The search goes behind the first key if that is not greater. -/
theorem search_pos (first : intAt data 2 ≤ key) {fuel : Nat} {right : Int} (enough : right ≤ fuel)
    (some : 0 < right) : 0 < search data key fuel 0 right := by
  induction fuel generalizing right with
  | zero => omega
  | succ fuel ih =>
    have middle : (0 + right).tdiv 2 = right / 2 := by
      rw [Int.zero_add, Int.tdiv_eq_ediv_of_nonneg (Int.le_of_lt some)]
    rw [search, if_pos some]
    dsimp only
    rw [middle]
    split
    · have later := search_bounds data key fuel (show 0 ≤ right / 2 + 1 by omega)
        (show right / 2 + 1 ≤ right by omega)
      omega
    · next above =>
      by_cases isFirst : right / 2 = 0
      · rw [isFirst] at above
        exact absurd first above
      · exact ih (by omega) (by omega)

section Size

variable {size : Nat} (sizeEq : intAt data 1 = size)

include sizeEq

theorem leafKeys_of_size :
    leafKeys data = (List.range size).map fun i => cells data (2 + i) := by
  rw [leafKeys, sizeEq, Int.toNat_natCast]

theorem exists_position (key : Int) : ∃ pos : Nat, binarySearch data key = pos ∧ pos ≤ size := by
  have bounds := search_bounds data key (intAt data 1).toNat (Int.le_refl 0)
    (sizeEq ▸ Int.natCast_nonneg size)
  rw [sizeEq] at bounds
  refine ⟨(binarySearch data key).toNat, ?_, ?_⟩
  · rw [Int.toNat_of_nonneg]
    rw [binarySearch, sizeEq]
    exact bounds.1
  · rw [binarySearch, sizeEq]
    omega

/-- A place in front is one where the RID is the last key. -/
theorem Places.last (places : Places (leafKeys data) key value) (front : binarySearch data key = 0) :
    value.pageId = (leafKeys data).getLastD key := by
  rcases places with ⟨first, isFirst, upTo⟩ | last
  · rw [leafKeys_of_size sizeEq, List.head?_map, List.head?_range] at isFirst
    split at isFirst
    · cases isFirst
    · next some =>
      cases isFirst
      have behind := @search_pos data key upTo size size (by omega) (by omega)
      rw [binarySearch, sizeEq, Int.toNat_natCast] at front
      omega
  · exact last

/-- An insertion that finds a place adds its key. -/
theorem leafKeys_insertIntoLeaf (small : size ≤ 340) (keyInt : IsInt key) (valueInt : value.IsInt)
    (places : Places (leafKeys data) key value) :
    (leafKeys (insertIntoLeaf data key value)).Perm (key :: leafKeys data) := by
  obtain ⟨pos, posEq, bound⟩ := exists_position sizeEq key
  cases pos with
  | succ pos =>
    have after := insertedBehind sizeEq posEq (Nat.succ_pos pos) bound small keyInt valueInt
    rw [@leafKeys_of_size _ (size + 1) after.counted, leafKeys_of_size sizeEq]
    refine perm_map_range_insert bound (fun i below => ?_) after.newKey fun i lower upper => ?_
    · exact after.keysBelow (2 + i) (by omega) (by omega)
    · exact after.keysAbove (2 + i) (by omega) (by omega)
  | zero =>
    have after := insertedFirst sizeEq posEq small keyInt valueInt
    have last := places.last sizeEq posEq
    rw [leafKeys_of_size sizeEq] at last
    rw [@leafKeys_of_size _ (size + 1) after.counted, leafKeys_of_size sizeEq]
    cases size with
    | zero =>
      refine perm_map_range_insert bound (fun i below => absurd below (Nat.not_lt_zero i)) ?_
        fun i _ below => absurd below (Nat.not_lt_zero i)
      exact after.pageId.trans last
    | succ size =>
      rw [List.range_succ, List.map_append, List.map_singleton, List.getLastD_concat] at last
      refine perm_map_range_insert bound (fun i below => absurd below (Nat.not_lt_zero i))
        (after.newKey (Nat.succ_pos size)) fun i _ upper => ?_
      by_cases isLast : i = size
      · subst isLast
        exact after.pageId.trans last
      · exact after.keys (2 + i) (by omega) (by omega)

/-! ## Splits -/

/-- The sizes of the two halves. -/
theorem size_splitLeafPage {half rest : Nat} (halfEq : half = (size + 1) / 2)
    (restEq : rest = size - half) (small : size ≤ 340) (idInt : IsInt newPageId) :
    intAt (splitLeafPage data newData newPageId).1 1 = half ∧
      intAt (splitLeafPage data newData newPageId).2.1 1 = rest := by
  have old := @cells_splitLeafPage_old data newData newPageId _ _ sizeEq halfEq small idInt
  have new := @cells_splitLeafPage_new data newData _ _ _ sizeEq halfEq restEq small newPageId 1
  refine ⟨(congrFun old 1).trans ?_, new.trans ?_⟩
  · rw [Function.update_of_ne (by omega), Function.update_self]
  · simp (disch := omega) only [if_neg, if_true]

/-- A split parts the keys in the middle. -/
theorem leafKeys_splitLeafPage {half : Nat} (halfEq : half = (size + 1) / 2) (small : size ≤ 340)
    (idInt : IsInt newPageId) :
    leafKeys (splitLeafPage data newData newPageId).1 = (leafKeys data).take half ∧
      leafKeys (splitLeafPage data newData newPageId).2.1 = (leafKeys data).drop half := by
  obtain ⟨rest, restEq⟩ : ∃ rest, rest = size - half := ⟨_, rfl⟩
  have old := @cells_splitLeafPage_old data newData newPageId _ _ sizeEq halfEq small idInt
  have new := @cells_splitLeafPage_new data newData _ _ _ sizeEq halfEq restEq small newPageId
  obtain ⟨oldSize, newSize⟩ :=
    @size_splitLeafPage data newData newPageId size sizeEq _ _ halfEq restEq small idInt
  have oldKeys : leafKeys (splitLeafPage data newData newPageId).1 =
      (List.range half).map fun i => cells data (2 + i) := by
    rw [leafKeys_of_size oldSize]
    refine List.map_congr_left fun i member => ?_
    have below := List.mem_range.mp member
    rw [old, Function.update_of_ne (by omega), Function.update_of_ne (by omega)]
  have newKeys : leafKeys (splitLeafPage data newData newPageId).2.1 =
      (List.range rest).map fun i => cells data (2 + (half + i)) := by
    rw [leafKeys_of_size newSize]
    refine List.map_congr_left fun i member => ?_
    have below := List.mem_range.mp member
    rw [new]
    simp (disch := omega) only [if_neg, if_pos]
    congr 1
    omega
  rw [oldKeys, newKeys, leafKeys_of_size sizeEq, show size = half + rest by omega,
    List.range_add, List.map_append, List.map_map, List.take_append_of_le_length (by simp),
    List.drop_append_of_le_length (by simp)]
  exact ⟨(List.take_of_length_le (by simp)).symm, by simp [Function.comp_def]⟩

theorem middleKey_splitLeafPage (small : size ≤ 340) :
    (splitLeafPage data newData newPageId).2.2 = middleOf data := by
  have new := @cells_splitLeafPage_new data newData _ _ _ sizeEq rfl rfl small newPageId 2
  change cells (splitLeafPage data newData newPageId).2.1 2 = middleOf data
  rw [new, middleOf, nextOf, sizeEq]
  by_cases two : 2 ≤ size
  · simp (disch := omega) only [if_neg, if_pos]
    rw [cells]
    congr 1
  · simp (disch := omega) only [if_neg, if_pos]
    rw [cells]
    congr 1
    omega

/-- A split and the insertion, which finds a place on its side. -/
theorem leafKeys_splitInsert (small : size ≤ 340) (idInt : IsInt newPageId) (keyInt : IsInt key)
    (valueInt : value.IsInt) (places : Places (sideOf data key) key value) :
    (leafKeys (splitInsert data newData newPageId key value).1 ++
      leafKeys (splitInsert data newData newPageId key value).2.1).Perm (key :: leafKeys data) := by
  obtain ⟨half, halfEq⟩ : ∃ half, half = (size + 1) / 2 := ⟨_, rfl⟩
  obtain ⟨rest, restEq⟩ : ∃ rest, rest = size - half := ⟨_, rfl⟩
  obtain ⟨oldKeys, newKeys⟩ :=
    @leafKeys_splitLeafPage data newData newPageId size sizeEq _ halfEq small idInt
  obtain ⟨oldSize, newSize⟩ :=
    @size_splitLeafPage data newData newPageId size sizeEq _ _ halfEq restEq small idInt
  have middle := @middleKey_splitLeafPage data newData newPageId size sizeEq small
  have sameHalf : ((intAt data 1 + 1) / 2).toNat = half := by omega
  rw [sideOf, sameHalf] at places
  unfold splitInsert
  dsimp only
  rw [middle]
  split
  · next below =>
    rw [if_pos below, ← oldKeys] at places
    have inserted := leafKeys_insertIntoLeaf oldSize (by omega) keyInt valueInt places
    refine (inserted.append_right _).trans ?_
    rw [oldKeys, newKeys, List.cons_append, List.take_append_drop]
  · next above =>
    rw [if_neg above, ← newKeys] at places
    have inserted := leafKeys_insertIntoLeaf newSize (by omega) keyInt valueInt places
    refine (inserted.append_left _).trans ?_
    rw [oldKeys, newKeys]
    refine List.perm_middle.trans ?_
    rw [List.take_append_drop]

/-- Nothing goes to the second half of a single key. -/
theorem leafKeys_splitInsert_second (one : size ≤ 1) (idInt : IsInt newPageId)
    (below : key < middleOf data) :
    leafKeys (splitInsert data newData newPageId key value).2.1 = [] := by
  obtain ⟨-, newKeys⟩ :=
    @leafKeys_splitLeafPage data newData newPageId size sizeEq _ rfl (by omega) idInt
  have middle := @middleKey_splitLeafPage data newData newPageId size sizeEq (by omega)
  have length : (leafKeys data).length = size := by
    rw [leafKeys_of_size sizeEq, List.length_map, List.length_range]
  unfold splitInsert
  dsimp only
  rw [middle, if_pos below, newKeys]
  exact List.drop_of_length_le (by omega)

end Size

/-- The keys of the leaf that becomes the root of an empty tree. -/
theorem leafKeys_rootLeaf (data : Bytes) (keyInt : IsInt key) (valueInt : value.IsInt) :
    leafKeys (rootLeaf data key value) = [key] := by
  have single := singleLeaf_rootLeaf data keyInt valueInt
  rw [@leafKeys_of_size _ 1 single.size]
  exact congrArg (fun first => [first]) single.key

end MiniDB.Index
