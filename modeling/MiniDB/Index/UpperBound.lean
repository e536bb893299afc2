import Mathlib.Data.Nat.Count
import MiniDB.Index.CellPrograms

/-!
# The upper bound

`BinarySearch` halves an interval of positions. Its loop ends, reads keys of the page only,
and where the keys do not decrease it finds the position behind the last key up to the
given one.
-/

namespace MiniDB.Index

open Foundation

/-- The loop of `BinarySearch` from an interval to its end, with the indices that it reads. -/
inductive SearchLoop (data : Bytes) (key : Int) :
    (left right : Int) → (reads : List Int) → (result : Int) → Prop where
  | done {left right : Int} (ends : ¬ left < right) : SearchLoop data key left right [] left
  | upper {left right result : Int} {reads : List Int} (goesOn : left < right)
      (upTo : intAt data (2 + (left + right).tdiv 2) ≤ key)
      (rest : SearchLoop data key ((left + right).tdiv 2 + 1) right reads result) :
      SearchLoop data key left right ((2 + (left + right).tdiv 2) :: reads) result
  | lower {left right result : Int} {reads : List Int} (goesOn : left < right)
      (beyond : key < intAt data (2 + (left + right).tdiv 2))
      (rest : SearchLoop data key left ((left + right).tdiv 2) reads result) :
      SearchLoop data key left right ((2 + (left + right).tdiv 2) :: reads) result

variable {data : Bytes} {key left right result : Int} {reads : List Int}

theorem middle_between (nonneg : 0 ≤ left) (goesOn : left < right) :
    left ≤ (left + right).tdiv 2 ∧ (left + right).tdiv 2 < right := by
  rw [Int.tdiv_eq_ediv_of_nonneg (by omega)]
  omega

/-- The loop reads and ends inside its interval. -/
theorem SearchLoop.bounds (loop : SearchLoop data key left right reads result) (nonneg : 0 ≤ left)
    (ordered : left ≤ right) :
    (∀ index ∈ reads, 2 + left ≤ index ∧ index < 2 + right) ∧ left ≤ result ∧ result ≤ right := by
  induction loop with
  | done ends => exact ⟨List.forall_mem_nil _, Int.le_refl _, ordered⟩
  | @upper left right result reads goesOn upTo rest ih =>
    have middle := middle_between nonneg goesOn
    obtain ⟨later, lower, upper⟩ := ih (by omega) (by omega)
    refine ⟨List.forall_mem_cons.mpr ⟨by omega, fun index inReads => ?_⟩, by omega, upper⟩
    have inside := later index inReads
    omega
  | @lower left right result reads goesOn beyond rest ih =>
    have middle := middle_between nonneg goesOn
    obtain ⟨later, lower, upper⟩ := ih nonneg (by omega)
    refine ⟨List.forall_mem_cons.mpr ⟨by omega, fun index inReads => ?_⟩, lower, by omega⟩
    have inside := later index inReads
    omega

/-- The keys of a page do not decrease. -/
def KeysSorted (data : Bytes) (size : Nat) : Prop :=
  ∀ i j : Nat, i ≤ j → j < size → intAt data (2 + i) ≤ intAt data (2 + j)

/-- In sorted keys the loop keeps greater keys behind its interval and the others in front,
so that the keys are cut at the result. -/
theorem SearchLoop.cuts {size : Nat} (loop : SearchLoop data key left right reads result)
    (sorted : KeysSorted data size) (nonneg : 0 ≤ left) (inside : right ≤ size)
    (below : ∀ i : Nat, i < left → intAt data (2 + i) ≤ key)
    (above : ∀ i : Nat, right ≤ i → i < size → key < intAt data (2 + i)) :
    (∀ i : Nat, i < result → intAt data (2 + i) ≤ key) ∧
      ∀ i : Nat, result ≤ i → i < size → key < intAt data (2 + i) := by
  induction loop with
  | done ends => exact ⟨below, fun i behind => above i (by omega)⟩
  | @upper left right result reads goesOn upTo rest ih =>
    have between := middle_between nonneg goesOn
    obtain ⟨middle, isMiddle⟩ := Int.eq_ofNat_of_zero_le (by omega : 0 ≤ (left + right).tdiv 2)
    rw [isMiddle] at upTo between ih
    refine ih (by omega) inside (fun i before => ?_) above
    exact (sorted i middle (by omega) (by omega)).trans upTo
  | @lower left right result reads goesOn beyond rest ih =>
    have between := middle_between nonneg goesOn
    obtain ⟨middle, isMiddle⟩ := Int.eq_ofNat_of_zero_le (by omega : 0 ≤ (left + right).tdiv 2)
    rw [isMiddle] at beyond between ih
    refine ih nonneg (by omega) below fun i behind isKey => ?_
    exact beyond.trans_le (sorted middle i (by omega) isKey)

/-- As many positions hold a property as are in front of the cut. -/
theorem count_eq_of_cut {holds : Nat → Prop} [DecidablePred holds] {cut size : Nat}
    (bound : cut ≤ size) (below : ∀ i < cut, holds i) (above : ∀ i, cut ≤ i → i < size → ¬ holds i) :
    Nat.count holds size = cut := by
  obtain ⟨rest, rfl⟩ := Nat.exists_eq_add_of_le bound
  rw [Nat.count_add, Nat.count_iff_forall.mpr (fun i before => below i before),
    Nat.count_iff_forall_not.mpr fun i inRest => above (cut + i) (by omega) (by omega), Nat.add_zero]

namespace CellProgram

variable {Block : Type} [DecidableEq Block] {memory : Block → Bytes} {page : Block}

theorem accesses_read_bind {Next : Type} {index : Int} (next : Int → CellProgram Block Next) :
    accesses (read page index >>= next) memory =
      index :: accesses (next (intAt (memory page) index)) memory :=
  Client.observed_bind _ next memory

/-- The program of the loop runs it to its end where its fuel is the length of the interval. -/
theorem searchLoop (key : Int) {fuel : Nat} (nonneg : 0 ≤ left) (enough : right ≤ left + fuel) :
    SearchLoop (memory page) key left right ((search page key fuel left right).accesses memory)
      (Index.search (memory page) key fuel left right) := by
  induction fuel generalizing left right with
  | zero => exact .done (by omega)
  | succ fuel ih =>
    rw [search, Index.search]
    by_cases goesOn : left < right
    · have middle := middle_between nonneg goesOn
      rw [if_pos goesOn, if_pos goesOn, accesses_read_bind]
      by_cases upTo : intAt (memory page) (2 + (left + right).tdiv 2) ≤ key
      · rw [if_pos upTo, if_pos upTo]
        exact .upper goesOn upTo (ih (by omega) (by omega))
      · rw [if_neg upTo, if_neg upTo]
        exact .lower goesOn (not_le.mp upTo) (ih nonneg (by omega))
    · rw [if_neg goesOn, if_neg goesOn]
      exact .done goesOn

end CellProgram

/-- Where `BinarySearch` cuts the sorted keys of a page. -/
theorem binarySearch_cut {size : Nat} (sizeEq : intAt data 1 = size) (sorted : KeysSorted data size)
    (key : Int) :
    ∃ cut : Nat, binarySearch data key = cut ∧ cut ≤ size ∧
      (∀ i < cut, intAt data (2 + i) ≤ key) ∧
      ∀ i, cut ≤ i → i < size → key < intAt data (2 + i) := by
  have loop := @CellProgram.searchLoop 0 size Unit _ (fun _ => data) () key size (Int.le_refl 0)
    (by omega)
  have isResult : Index.search data key size 0 size = binarySearch data key := by
    rw [binarySearch, sizeEq, Int.toNat_natCast]
  rw [isResult] at loop
  obtain ⟨-, lower, upper⟩ := loop.bounds (Int.le_refl 0) (Int.natCast_nonneg size)
  obtain ⟨below, above⟩ := loop.cuts sorted (Int.le_refl 0) (Int.le_refl _)
    (fun i before => absurd before (by omega)) (fun i behind isKey => absurd isKey (by omega))
  obtain ⟨cut, isCut⟩ := Int.eq_ofNat_of_zero_le lower
  rw [isCut] at upper below above
  exact ⟨cut, isCut, Int.ofNat_le.mp upper, fun i before => below i (Int.ofNat_lt.mpr before),
    fun i behind => above i (Int.ofNat_le.mpr behind)⟩

/-- No other position cuts them. -/
theorem binarySearch_eq_of_cut {size cut : Nat} (sizeEq : intAt data 1 = size)
    (sorted : KeysSorted data size) (bound : cut ≤ size)
    (below : ∀ i < cut, intAt data (2 + i) ≤ key)
    (above : ∀ i, cut ≤ i → i < size → key < intAt data (2 + i)) : binarySearch data key = cut := by
  obtain ⟨found, isFound, foundBound, foundBelow, foundAbove⟩ := binarySearch_cut sizeEq sorted key
  rw [isFound]
  rcases Nat.lt_trichotomy found cut with less | same | more
  · exact absurd (below found less) (not_le.mpr (foundAbove found (Nat.le_refl _) (by omega)))
  · rw [same]
  · exact absurd (foundBelow cut more) (not_le.mpr (above cut (Nat.le_refl _) (by omega)))

namespace CellProgram

variable {Block : Type} [DecidableEq Block]

/-- `BinarySearch` ends, reads the keys of the page only, and finds a position of it. In
sorted keys that is the number of keys up to the given one, which are in front of it. -/
theorem binarySearch_upperBound (memory : Block → Bytes) (page : Block) (key : Int) {size : Nat}
    (sizeEq : intAt (memory page) 1 = size) (fits : size ≤ 1022) :
    ∃ reads, (binarySearch page key).accesses memory = 1 :: reads ∧
      SearchLoop (memory page) key 0 size reads (Index.binarySearch (memory page) key) ∧
      (∀ index ∈ reads, 2 ≤ index ∧ index ≤ 1 + size ∧ index < 1024) ∧
      0 ≤ Index.binarySearch (memory page) key ∧ Index.binarySearch (memory page) key ≤ size ∧
      (KeysSorted (memory page) size →
        Index.binarySearch (memory page) key =
            Nat.count (fun i => intAt (memory page) (2 + i) ≤ key) size ∧
          (∀ i : Nat, i < Index.binarySearch (memory page) key → intAt (memory page) (2 + i) ≤ key) ∧
          ∀ i : Nat, Index.binarySearch (memory page) key ≤ i → i < size →
            key < intAt (memory page) (2 + i)) := by
  have loop := @searchLoop 0 size Block _ memory page key size (Int.le_refl 0) (by omega)
  have isResult : Index.binarySearch (memory page) key =
      Index.search (memory page) key size 0 size := by
    rw [Index.binarySearch, sizeEq, Int.toNat_natCast]
  rw [← isResult] at loop
  obtain ⟨inside, lower, upper⟩ := loop.bounds (Int.le_refl 0) (Int.natCast_nonneg size)
  refine ⟨_, ?_, loop, fun index inReads => ?_, lower, upper, fun sorted => ?_⟩
  · rw [binarySearch, accesses_read_bind, sizeEq, Int.toNat_natCast]
  · have bounds := inside index inReads
    omega
  · obtain ⟨cut, isCut, bound, below, above⟩ := binarySearch_cut sizeEq sorted key
    rw [isCut]
    have counted : Nat.count (fun i => intAt (memory page) (2 + i) ≤ key) size = cut :=
      count_eq_of_cut bound below fun i behind isKey => not_le.mpr (above i behind isKey)
    rw [counted]
    exact ⟨rfl, fun i before => below i (Int.ofNat_lt.mp before),
      fun i behind => above i (Int.ofNat_le.mp behind)⟩

/-- A page with the keys 5, 5 and 7. -/
def threeKeys : Bytes := setInt (setInt (setInt (setInt Bytes.zeros 1 3) 2 5) 3 5) 4 7

/-- The position of 5 is behind both keys 5. -/
theorem binarySearch_upperBound_threeKeys :
    ∃ reads, (binarySearch () 5).accesses (fun _ => threeKeys) = 1 :: reads ∧
      SearchLoop threeKeys 5 0 3 reads 2 := by
  obtain ⟨reads, accesses, loop, -⟩ :=
    binarySearch_upperBound (fun _ => threeKeys) () 5 (by decide +kernel : intAt threeKeys 1 = (3 : Nat))
      (by decide)
  have isTwo : Index.binarySearch threeKeys 5 = 2 := by decide +kernel
  exact ⟨reads, accesses, isTwo ▸ loop⟩

end CellProgram

end MiniDB.Index
