import MiniDB.Foundation.Segment
import MiniDB.Index.LeafPages

/-!
# The layout of a leaf

A leaf with `n` entries holds its kind and size, `n` keys, `n` RIDs of two `int`s
each and the next pointer, one after the other. The places of the RIDs and of the
next pointer depend on the size, so an operation that changes the size has to move
them. `InsertIntoLeaf`, `SplitLeafPage` and `Remove` compute all places from the old
size: what they leave behind is a well-formed leaf only where the `int`s happen to
agree with their neighbours.
-/

namespace MiniDB.Index

open Foundation

/-- A key with its RID. -/
abbrev Entry := Int × RID

/-- The page as an array of `int`s. -/
def cells (data : Bytes) (index : Nat) : Int := intAt data index

/-- The keys of entries. -/
def keysOf (entries : List Entry) : List Int := entries.map Prod.fst

/-- The RIDs of entries, as `int`s. -/
def ridInts (entries : List Entry) : List Int :=
  entries.flatMap fun entry => [entry.2.pageId, entry.2.slotNum]

/-- A RID both of whose halves are one value: the only kind that reads the same one
`int` further on. -/
def twice (value : Int) : RID := { pageId := value, slotNum := value }

/-- The `int`s of a leaf with these entries and this next pointer. -/
def leafImage (entries : List Entry) (link : Int) : List Int :=
  1 :: entries.length :: (keysOf entries ++ (ridInts entries ++ [link]))

/-- The page is a leaf with these entries, in the order of their keys, and this next
pointer. -/
structure WellFormedLeaf (data : Bytes) (entries : List Entry) (link : Int) : Prop where
  image : Segment (cells data) 0 (leafImage entries link)
  sorted : (keysOf entries).Pairwise (· ≤ ·)
  fits : entries.length ≤ 340

section Lists

variable {entries others : List Entry} {entry : Entry}

@[simp] theorem length_keysOf : (keysOf entries).length = entries.length := by
  simp [keysOf]

@[simp] theorem keysOf_append : keysOf (entries ++ others) = keysOf entries ++ keysOf others := by
  simp [keysOf]

@[simp] theorem keysOf_cons : keysOf (entry :: entries) = entry.1 :: keysOf entries := by
  simp [keysOf]

@[simp] theorem ridInts_nil : ridInts [] = [] := rfl

@[simp] theorem ridInts_append :
    ridInts (entries ++ others) = ridInts entries ++ ridInts others := by
  simp [ridInts]

@[simp] theorem ridInts_cons :
    ridInts (entry :: entries) = entry.2.pageId :: entry.2.slotNum :: ridInts entries := by
  simp [ridInts]

@[simp] theorem length_ridInts : (ridInts entries).length = 2 * entries.length := by
  induction entries with
  | nil => rfl
  | cons entry entries ih =>
    simp only [ridInts_cons, List.length_cons, ih]
    omega

end Lists

variable {data : Bytes} {entries front back : List Entry} {link key : Int} {rid : RID}

/-- The parts of the layout: kind, size, keys, RIDs and next pointer. -/
theorem segment_leafImage_iff :
    Segment (cells data) 0 (leafImage entries link) ↔
      intAt data 0 = 1 ∧ intAt data 1 = entries.length ∧
        Segment (cells data) 2 (keysOf entries) ∧
        Segment (cells data) (2 + entries.length) (ridInts entries) ∧
        cells data (2 + 3 * entries.length) = link := by
  have last : 2 + entries.length + 2 * entries.length = 2 + 3 * entries.length := by omega
  simp only [leafImage, segment_cons, segment_append, segment_nil, length_keysOf, length_ridInts,
    Nat.zero_add, last, and_true]
  exact Iff.rfl

/-- The parts of a leaf, one after another. -/
theorem WellFormedLeaf.parts (leaf : WellFormedLeaf data entries link) :
    intAt data 0 = 1 ∧ intAt data 1 = entries.length ∧
      Segment (cells data) 2 (keysOf entries) ∧
      Segment (cells data) (2 + entries.length) (ridInts entries) ∧
      cells data (2 + 3 * entries.length) = link :=
  segment_leafImage_iff.mp leaf.image

/-- A page with the kind and the size of a leaf is well formed if the `int`s behind
them are those of the leaf. -/
theorem wellFormedLeaf_iff_eq {held : List Int} (kind : intAt data 0 = 1)
    (size : intAt data 1 = entries.length) (sorted : (keysOf entries).Pairwise (· ≤ ·))
    (fits : entries.length ≤ 340) (holds : Segment (cells data) 2 held)
    (length : held.length = 3 * entries.length + 1) :
    WellFormedLeaf data entries link ↔ keysOf entries ++ (ridInts entries ++ [link]) = held := by
  have sameLength : held.length = (keysOf entries ++ (ridInts entries ++ [link])).length := by
    simp only [length, List.length_append, length_keysOf, length_ridInts, List.length_singleton]
    omega
  rw [← holds.eq_iff sameLength]
  constructor
  · intro leaf
    have image := leaf.image
    rw [leafImage, segment_cons, segment_cons] at image
    exact image.2.2
  · intro rest
    refine ⟨?_, sorted, fits⟩
    rw [leafImage, segment_cons, segment_cons]
    exact ⟨kind, size, rest⟩

/-- A sorted list of entries, cut behind the keys up to `key`. -/
theorem cut_entries (sorted : (keysOf entries).Pairwise (· ≤ ·)) (key : Int) :
    entries.filter (fun entry => entry.1 ≤ key) ++ entries.filter (fun entry => key < entry.1) =
      entries := by
  induction entries with
  | nil => rfl
  | cons entry entries ih =>
    rw [keysOf_cons, List.pairwise_cons] at sorted
    rw [List.filter_cons, List.filter_cons]
    by_cases upTo : entry.1 ≤ key
    · simp only [upTo, decide_true, if_true, Int.not_lt.mpr upTo, decide_false, Bool.false_eq_true,
        if_false, List.cons_append, ih sorted.2]
    · have above : ∀ other ∈ entries, key < other.1 := fun other member =>
        Int.lt_of_lt_of_le (Int.not_le.mp upTo) (sorted.1 other.1 (List.mem_map_of_mem member))
      have none : entries.filter (fun entry => entry.1 ≤ key) = [] := by
        simpa [List.filter_eq_nil_iff] using fun a b member => above (a, b) member
      have all : entries.filter (fun entry => key < entry.1) = entries := by
        simpa [List.filter_eq_self] using fun a b member => above (a, b) member
      simp only [upTo, decide_false, Bool.false_eq_true, if_false, Int.not_le.mp upTo, decide_true,
        if_true, none, all, List.nil_append]

/-- The two sides of a key in a sorted list of entries. -/
theorem exists_cut (sorted : (keysOf entries).Pairwise (· ≤ ·)) (key : Int) :
    ∃ front back, entries = front ++ back ∧ entries.filter (fun entry => entry.1 ≤ key) = front ∧
      entries.filter (fun entry => key < entry.1) = back ∧
      (∀ entry ∈ front, entry.1 ≤ key) ∧ ∀ entry ∈ back, key < entry.1 := by
  refine ⟨_, _, (cut_entries sorted key).symm, rfl, rfl, ?_, ?_⟩
  · intro entry inFront
    simpa using (List.mem_filter.mp inFront).2
  · intro entry inBack
    simpa using (List.mem_filter.mp inBack).2

/-! ## Cells -/

/-- What is read from a page is an `int`. -/
theorem isInt_cells (data : Bytes) (index : Nat) : IsInt (cells data index) :=
  isInt_intAt data index

/-- `data[index] = value`. -/
theorem cells_setInt {value : Int} (isInt : IsInt value) {place : Int} {index : Nat}
    (same : place = index) :
    cells (setInt data place value) = Function.update (cells data) index value := by
  subst same
  funext other
  by_cases here : other = index
  · subst here
    rw [Function.update_self]
    exact intAt_setInt_self isInt
  · rw [Function.update_of_ne here]
    exact intAt_setInt_of_ne (by omega) (by omega) (by omega)

/-- A RID is written in two places. -/
theorem cells_setRid (isInt : rid.IsInt) (size index : Nat) :
    cells (setRid data size index rid) =
      Function.update (Function.update (cells data) (2 + size + 2 * index) rid.pageId)
        (3 + size + 2 * index) rid.slotNum := by
  rw [setRid, cells_setInt isInt.2 (show _ = ((3 + size + 2 * index : Nat) : Int) by omega),
    cells_setInt isInt.1 (show _ = ((2 + size + 2 * index : Nat) : Int) by omega)]

/-- A RID is read from two places. -/
theorem ridAt_eq (data : Bytes) (size index : Nat) :
    ridAt data size index =
      { pageId := cells data (2 + size + 2 * index), slotNum := cells data (3 + size + 2 * index) } := by
  have first : (2 : Int) + size + index * 2 = (2 + size + 2 * index : Nat) := by omega
  have second : (2 : Int) + size + index * 2 + 1 = (3 + size + 2 * index : Nat) := by omega
  rw [ridAt, second, first]
  rfl

/-- The halves of a RID that is read are `int`s. -/
theorem isInt_ridAt (data : Bytes) (size index : Int) : (ridAt data size index).IsInt :=
  ⟨isInt_intAt data _, isInt_intAt data _⟩

/-- The leaf that `Insert` makes the root of an empty tree, on whatever page. -/
theorem wellFormed_rootLeaf (data : Bytes) (keyInt : IsInt key) (ridInt : rid.IsInt) :
    WellFormedLeaf (rootLeaf data key rid) [(key, rid)] (-1) := by
  refine ⟨?_, by simp [keysOf], by simp⟩
  rw [rootLeaf, cells_setInt (by decide) (show (5 : Int) = (5 : Nat) from rfl),
    cells_setInt ridInt.2 (show (4 : Int) = (4 : Nat) from rfl),
    cells_setInt ridInt.1 (show (3 : Int) = (3 : Nat) from rfl),
    cells_setInt keyInt (show (2 : Int) = (2 : Nat) from rfl),
    cells_setInt (by decide) (show (1 : Int) = (1 : Nat) from rfl),
    cells_setInt (by decide) (show (0 : Int) = (0 : Nat) from rfl)]
  simp [leafImage, keysOf]

/-- A page with these `int`s from a place on. -/
def layOut (data : Bytes) : (base : Nat) → List Int → Bytes
  | _, [] => data
  | base, value :: values => setInt (layOut data (base + 1) values) base value

/-- A page that is a leaf with these entries and zeros behind them. -/
def leafPageOf (entries : List Entry) (link : Int) : Bytes :=
  layOut Bytes.zeros 0 (leafImage entries link)

/-- Values that are laid out stand one after another. -/
theorem segment_layOut {values : List Int} {base : Nat} (ints : ∀ value ∈ values, IsInt value) :
    Segment (cells (layOut data base values)) base values := by
  induction values generalizing base with
  | nil => exact segment_nil.mpr trivial
  | cons value values ih =>
    rw [List.forall_mem_cons] at ints
    rw [layOut, segment_cons, cells_setInt ints.1 rfl]
    refine ⟨Function.update_self .., (@ih (base + 1) ints.2).moved fun i _ => ?_⟩
    exact Function.update_of_ne (by omega) ..

/-- Behind them the page is as it was. -/
theorem cells_layOut_beyond {values : List Int} {base index : Nat}
    (ints : ∀ value ∈ values, IsInt value) (beyond : base + values.length ≤ index) :
    cells (layOut data base values) index = cells data index := by
  induction values generalizing base with
  | nil => rfl
  | cons value values ih =>
    rw [List.forall_mem_cons] at ints
    rw [List.length_cons] at beyond
    rw [layOut, cells_setInt ints.1 rfl, Function.update_of_ne (by omega)]
    exact ih ints.2 (by omega)

/-- Every sorted list of entries that fits is that of a page. -/
theorem wellFormed_leafPageOf (ints : ∀ value ∈ leafImage entries link, IsInt value)
    (sorted : (keysOf entries).Pairwise (· ≤ ·)) (fits : entries.length ≤ 340) :
    WellFormedLeaf (leafPageOf entries link) entries link :=
  ⟨segment_layOut ints, sorted, fits⟩

/-! ## The search -/

/-- The search finds the border between the keys up to the given one and the larger ones. -/
theorem search_eq {data : Bytes} {front back : List Int} {key : Int}
    (keys : Segment (cells data) 2 (front ++ back)) (below : ∀ other ∈ front, other ≤ key)
    (above : ∀ other ∈ back, key < other) {fuel left right : Nat}
    (enough : right - left ≤ fuel) (leftBound : left ≤ front.length) (rightBound : front.length ≤ right)
    (inside : right ≤ (front ++ back).length) :
    search data key fuel left right = front.length := by
  induction fuel generalizing left right with
  | zero =>
    have same : left = front.length := by omega
    rw [search, same]
  | succ fuel ih =>
    rw [search]
    by_cases shrinks : (left : Int) < right
    · rw [if_pos shrinks]
      have middle : ((left : Int) + right).tdiv 2 = ((left + right) / 2 : Nat) := by
        rw [Int.tdiv_eq_ediv_of_nonneg (by omega)]
        omega
      simp only [middle]
      generalize midEq : (left + right) / 2 = mid
      have midInside : mid < (front ++ back).length := by omega
      have here : intAt data (2 + (mid : Int)) = (front ++ back)[mid] := by
        rw [← keys mid midInside]
        rfl
      rw [here]
      by_cases inFront : mid < front.length
      · have upTo : (front ++ back)[mid] ≤ key := by
          rw [List.getElem_append_left inFront]
          exact below _ (List.getElem_mem inFront)
        rw [if_pos upTo]
        exact @ih (mid + 1) right (by omega) (by omega) rightBound inside
      · have beyond : key < (front ++ back)[mid] := by
          rw [List.getElem_append_right (by omega)]
          exact above _ (List.getElem_mem _)
        rw [if_neg (Int.not_le.mpr beyond)]
        exact ih (by omega) leftBound (by omega) (by omega)
    · rw [if_neg shrinks]
      have same : left = front.length := by omega
      rw [same]

/-- The search in a node whose keys up to `key` come first. -/
theorem binarySearch_eq {data : Bytes} {front back : List Int} {key : Int}
    (size : intAt data 1 = (front ++ back).length)
    (keys : Segment (cells data) 2 (front ++ back)) (below : ∀ other ∈ front, other ≤ key)
    (above : ∀ other ∈ back, key < other) : binarySearch data key = front.length := by
  have bound : front.length ≤ (front ++ back).length := by simp
  rw [binarySearch, size, Int.toNat_natCast]
  exact @search_eq data front back key keys below above _ 0 _ (Nat.sub_le _ _) (Nat.zero_le _) bound
    (Nat.le_refl _)

/-- The search in a leaf that is cut at the key. -/
theorem WellFormedLeaf.binarySearch_eq (leaf : WellFormedLeaf data (front ++ back) link)
    (below : ∀ entry ∈ front, entry.1 ≤ key) (above : ∀ entry ∈ back, key < entry.1) :
    binarySearch data key = front.length := by
  obtain ⟨-, size, keys, -⟩ := leaf.parts
  rw [keysOf_append] at keys
  have found := @Index.binarySearch_eq data (keysOf front) (keysOf back) key ?_ keys ?_ ?_
  · rwa [length_keysOf] at found
  · rw [size, ← keysOf_append, length_keysOf]
  · simpa [keysOf] using below
  · simpa [keysOf] using above

end MiniDB.Index
