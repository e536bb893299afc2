import MiniDB.Index.LeafLayout

/-!
# Insertion into a leaf

`InsertIntoLeaf` counts the size up but places the RIDs, the new one and those it
moves, by the old size. The RIDs then start one `int` before the place where they are
read, and the next pointer is read two `int`s behind the last RID: every RID is read
as the second half of one and the first half of the next.
-/

namespace MiniDB.Index

open Foundation

variable {data : Bytes} {entries front back : List Entry} {link key : Int} {rid : RID}

/-- One round of the loop of `InsertIntoLeaf`. -/
theorem cells_shifted (data : Bytes) (size i : Nat) :
    cells (setRid (setInt data (2 + (i + 1 : Nat)) (intAt data (2 + (i + 1 : Nat) - 1))) size
        (i + 1 : Nat)
        (ridAt (setInt data (2 + (i + 1 : Nat)) (intAt data (2 + (i + 1 : Nat) - 1))) size i)) =
      let keyMoved := Function.update (cells data) (3 + i) (cells data (2 + i))
      Function.update (Function.update keyMoved (4 + size + 2 * i) (keyMoved (2 + size + 2 * i)))
        (5 + size + 2 * i) (keyMoved (3 + size + 2 * i)) := by
  have source : (2 : Int) + (i + 1 : Nat) - 1 = (2 + i : Nat) := by omega
  rw [cells_setRid (isInt_ridAt _ _ _), ridAt_eq, source,
    cells_setInt (isInt_intAt _ _) (show _ = ((3 + i : Nat) : Int) by omega)]
  rw [show 2 + size + 2 * (i + 1) = 4 + size + 2 * i by omega,
    show 3 + size + 2 * (i + 1) = 5 + size + 2 * i by omega]
  rfl

theorem cells_makeRoom (data : Bytes) {size pos i : Nat} (below : i < size) (j : Nat) :
    cells (makeRoom size pos i data) j =
      if 2 + pos < j ∧ j ≤ 2 + i then cells data (j - 1)
      else if 4 + size + 2 * pos ≤ j ∧ j < 4 + size + 2 * i then cells data (j - 2)
      else cells data j := by
  induction i generalizing data with
  | zero =>
    rw [if_neg (by omega), if_neg (by omega)]
    rfl
  | succ i ih =>
    rw [makeRoom]
    by_cases room : (pos : Int) < (i + 1 : Nat)
    · rw [if_pos room]
      dsimp only
      rw [ih _ (by omega)]
      simp only [cells_shifted, Function.update_apply]
      split_ifs <;> first | omega | rfl | (congr 1; omega)
    · rw [if_neg room, if_neg (by omega), if_neg (by omega)]

/-- The whole loop. The first key it moves lands on the first RID. -/
theorem cells_makeRoom_size (data : Bytes) {size pos : Nat} (bound : pos ≤ size) (j : Nat) :
    cells (makeRoom size pos size data) j =
      if 2 + pos < j ∧ j ≤ 2 + size then cells data (j - 1)
      else if 4 + size + 2 * pos ≤ j ∧ j < 4 + size + 2 * size then
        if j = 4 + size then cells data (1 + size) else cells data (j - 2)
      else cells data j := by
  cases size with
  | zero =>
    rw [if_neg (by omega), if_neg (by omega)]
    rfl
  | succ last =>
    rw [makeRoom]
    by_cases room : (pos : Int) < (last + 1 : Nat)
    · rw [if_pos room]
      dsimp only
      rw [cells_makeRoom _ (Nat.lt_succ_self last)]
      simp only [cells_shifted, Function.update_apply]
      split_ifs <;> first | omega | rfl | (congr 1; omega)
    · rw [if_neg room, if_neg (by omega), if_neg (by omega)]

/-- The cells after `InsertIntoLeaf`, before the size is counted up. -/
theorem cells_insertIntoLeaf {size pos : Nat} (sizeEq : intAt data 1 = size)
    (posEq : binarySearch data key = pos) (bound : pos ≤ size) (small : size ≤ 340)
    (keyInt : IsInt key) (ridInt : rid.IsInt) (j : Nat) :
    cells (insertIntoLeaf data key rid) j =
      if j = 1 then (size : Int) + 1
      else if j = 3 + size + 2 * pos then rid.slotNum
      else if j = 2 + size + 2 * pos then rid.pageId
      else if j = 2 + pos then key
      else if 2 + pos < j ∧ j ≤ 2 + size then cells data (j - 1)
      else if 4 + size + 2 * pos ≤ j ∧ j < 4 + size + 2 * size then
        if j = 4 + size then cells data (1 + size) else cells data (j - 2)
      else cells data j := by
  have counted : IsInt ((size : Int) + 1) := by
    simp only [IsInt]
    omega
  simp only [insertIntoLeaf, sizeEq, posEq, Int.toNat_natCast]
  rw [cells_setInt counted (show (1 : Int) = (1 : Nat) from rfl), cells_setRid ridInt,
    cells_setInt keyInt (show _ = ((2 + pos : Nat) : Int) by omega)]
  simp only [Function.update_apply, cells_makeRoom_size data bound]

theorem tail_append_eq_iff {ints : List Int} (nonempty : ints ≠ []) {first second link : Int} :
    ints.tail ++ [first, second] = ints ++ [link] ↔
      ∃ value, (∀ other ∈ ints, other = value) ∧ first = value ∧ second = link := by
  induction ints with
  | nil => exact absurd rfl nonempty
  | cons head ints ih =>
    cases ints with
    | nil => simp [eq_comm]
    | cons next ints =>
      have shorter := ih (List.cons_ne_nil _ _)
      simp only [List.tail_cons, List.cons_append, List.cons.injEq] at shorter ⊢
      rw [shorter]
      constructor
      · rintro ⟨rfl, value, all, rest⟩
        refine ⟨value, ?_, rest⟩
        have headEq := all next List.mem_cons_self
        intro other member
        rcases List.mem_cons.mp member with rfl | member
        · exact headEq
        · exact all other member
      · rintro ⟨value, all, rest⟩
        have headEq := all head List.mem_cons_self
        have nextEq := all next (List.mem_cons_of_mem _ List.mem_cons_self)
        exact ⟨nextEq.trans headEq.symm, value, fun other member => all other (List.mem_cons_of_mem _ member), rest⟩


/-- The entries with a new one after those with keys up to its own. -/
def insertEntry (entries : List Entry) (key : Int) (rid : RID) : List Entry :=
  entries.filter (fun entry => entry.1 ≤ key) ++ (key, rid) ::
    entries.filter (fun entry => key < entry.1)

theorem pairwise_insert (sorted : (keysOf (front ++ back)).Pairwise (· ≤ ·))
    (below : ∀ entry ∈ front, entry.1 ≤ key) (above : ∀ entry ∈ back, key < entry.1) :
    (keysOf (front ++ (key, rid) :: back)).Pairwise (· ≤ ·) := by
  rw [keysOf_append, List.pairwise_append] at sorted
  rw [keysOf_append, keysOf_cons, List.pairwise_append, List.pairwise_cons]
  have belowKeys : ∀ other ∈ keysOf front, other ≤ key := by simpa [keysOf] using below
  have aboveKeys : ∀ other ∈ keysOf back, key < other := by simpa [keysOf] using above
  refine ⟨sorted.1, ⟨fun other member => Int.le_of_lt (aboveKeys other member), sorted.2.1⟩, ?_⟩
  intro first inFront second inBack
  rcases List.mem_cons.mp inBack with rfl | inBack
  · exact belowKeys first inFront
  · exact sorted.2.2 first inFront second inBack

/-- What `InsertIntoLeaf` does behind the first entry. -/
structure InsertedBehind (before after : Nat → Int) (size pos : Nat) (key : Int) (rid : RID) :
    Prop where
  kind : after 0 = before 0
  counted : after 1 = size + 1
  keysBelow : ∀ j, 2 ≤ j → j < 2 + pos → after j = before j
  newKey : after (2 + pos) = key
  keysAbove : ∀ j, 2 + pos ≤ j → j < 2 + size → after (j + 1) = before j
  ridsBelow : ∀ j, 2 + size < j → j < 2 + size + 2 * pos → after j = before j
  pageId : after (2 + size + 2 * pos) = rid.pageId
  slotNum : after (3 + size + 2 * pos) = rid.slotNum
  ridsAbove : ∀ j, 2 + size + 2 * pos ≤ j → j < 2 + 3 * size → after (j + 2) = before j
  beyond : ∀ j, 4 + 3 * size ≤ j → after j = before j

theorem insertedBehind {size pos : Nat} (sizeEq : intAt data 1 = size)
    (posEq : binarySearch data key = pos) (behind : 0 < pos) (bound : pos ≤ size)
    (small : size ≤ 340) (keyInt : IsInt key) (ridInt : rid.IsInt) :
    InsertedBehind (cells data) (cells (insertIntoLeaf data key rid)) size pos key rid := by
  have after := cells_insertIntoLeaf sizeEq posEq bound small keyInt ridInt
  constructor
  case kind => simp (disch := omega) only [after, if_neg]
  case counted => simp (disch := omega) only [after, if_pos, if_true]
  case keysBelow =>
    intro j _ _
    simp (disch := omega) only [after, if_neg]
  case newKey => simp (disch := omega) only [after, if_neg, if_true]
  case keysAbove =>
    intro j _ _
    simp (disch := omega) only [after, if_neg, if_pos, Nat.add_sub_cancel]
  case ridsBelow =>
    intro j _ _
    simp (disch := omega) only [after, if_neg]
  case pageId => simp (disch := omega) only [after, if_neg, if_true]
  case slotNum => simp (disch := omega) only [after, if_neg, if_true]
  case ridsAbove =>
    intro j _ _
    simp (disch := omega) only [after, if_neg, if_pos, Nat.add_sub_cancel]
  case beyond =>
    intro j _
    simp (disch := omega) only [after, if_neg]

/-- `InsertIntoLeaf` behind the first entry: the keys come out right, and the RIDs lie
one place too low. -/
theorem wellFormed_insert_behind (leaf : WellFormedLeaf data (front ++ back) link)
    (behind : front ≠ []) (below : ∀ entry ∈ front, entry.1 ≤ key)
    (above : ∀ entry ∈ back, key < entry.1) (room : (front ++ back).length ≤ 339)
    (keyInt : IsInt key) (ridInt : rid.IsInt) :
    WellFormedLeaf (insertIntoLeaf data key rid) (front ++ (key, rid) :: back) link ↔
      (ridInts (front ++ (key, rid) :: back)).tail ++
          [cells data (4 + 3 * (front ++ back).length),
            cells data (5 + 3 * (front ++ back).length)] =
        ridInts (front ++ (key, rid) :: back) ++ [link] := by
  obtain ⟨kind, size, keys, rids, -⟩ := leaf.parts
  have position := List.length_pos_of_ne_nil behind
  have after := insertedBehind size (leaf.binarySearch_eq below above) position (by simp) (by omega)
    keyInt ridInt
  have sorted := @pairwise_insert _ _ _ rid leaf.sorted below above
  have lengths := @List.length_append _ front back
  have total : (front ++ (key, rid) :: back).length = (front ++ back).length + 1 := by
    simp only [List.length_append, List.length_cons]
    omega
  generalize (front ++ back).length = n at *
  rw [keysOf_append, segment_append, length_keysOf] at keys
  rw [ridInts_append, segment_append, length_ridInts] at rids
  have keysAfter : Segment (cells (insertIntoLeaf data key rid)) 2
      (keysOf (front ++ (key, rid) :: back)) := by
    rw [keysOf_append, segment_append, keysOf_cons, segment_cons, length_keysOf]
    refine ⟨keys.1.moved fun i inside => ?_, after.newKey, keys.2.moved fun i inside => ?_⟩
    · rw [length_keysOf] at inside
      exact after.keysBelow _ (by omega) (by omega)
    · rw [length_keysOf] at inside
      rw [Nat.add_right_comm]
      exact after.keysAbove _ (by omega) (by omega)
  have some : ridInts front ≠ [] := by
    rw [← List.length_pos_iff, length_ridInts]
    omega
  have tailLength : (ridInts front).tail.length = 2 * front.length - 1 := by simp
  have ridsAfter : Segment (cells (insertIntoLeaf data key rid)) (3 + n)
      ((ridInts (front ++ (key, rid) :: back)).tail ++ [cells data (4 + 3 * n),
        cells data (5 + 3 * n)]) := by
    rw [ridInts_append, List.tail_append_of_ne_nil some, List.append_assoc, segment_append,
      ridInts_cons, List.cons_append, List.cons_append, segment_cons, segment_cons, segment_append,
      segment_cons, segment_cons, length_ridInts, tailLength]
    refine ⟨rids.1.tail.moved fun i inside => ?_, ?_, ?_, rids.2.moved fun i inside => ?_, ?_, ?_,
      segment_nil.mpr trivial⟩
    · rw [tailLength] at inside
      rw [show 3 + n + i = 2 + n + 1 + i by omega]
      exact after.ridsBelow _ (by omega) (by omega)
    · rw [show 3 + n + (2 * front.length - 1) = 2 + n + 2 * front.length by omega]
      exact after.pageId
    · rw [show 3 + n + (2 * front.length - 1) + 1 = 3 + n + 2 * front.length by omega]
      exact after.slotNum
    · rw [length_ridInts] at inside
      rw [show 3 + n + (2 * front.length - 1) + 1 + 1 + i = 2 + n + 2 * front.length + i + 2 by omega]
      exact after.ridsAbove _ (by omega) (by omega)
    · rw [show 3 + n + (2 * front.length - 1) + 1 + 1 + 2 * back.length = 4 + 3 * n by omega]
      exact after.beyond _ (by omega)
    · rw [show 3 + n + (2 * front.length - 1) + 1 + 1 + 2 * back.length + 1 = 5 + 3 * n by omega]
      exact after.beyond _ (by omega)
  have holds : Segment (cells (insertIntoLeaf data key rid)) 2
      (keysOf (front ++ (key, rid) :: back) ++ ((ridInts (front ++ (key, rid) :: back)).tail ++
        [cells data (4 + 3 * n), cells data (5 + 3 * n)])) := by
    rw [segment_append, length_keysOf, total, show 2 + (n + 1) = 3 + n by omega]
    exact ⟨keysAfter, ridsAfter⟩
  rw [wellFormedLeaf_iff_eq (after.kind.trans kind) (by rw [total]; exact after.counted) sorted
    (by omega) holds (by simp; omega), List.append_cancel_left_eq, eq_comm]

/-- What `InsertIntoLeaf` does in front of the first entry. -/
structure InsertedFirst (before after : Nat → Int) (size : Nat) (key : Int) (rid : RID) : Prop where
  kind : after 0 = before 0
  counted : after 1 = size + 1
  newKey : 0 < size → after 2 = key
  keys : ∀ j, 2 ≤ j → j < 1 + size → after (j + 1) = before j
  pageId : after (2 + size) = rid.pageId
  slotNum : after (3 + size) = rid.slotNum
  lastKey : 0 < size → after (4 + size) = before (1 + size)
  rids : ∀ j, 2 + size < j → j < 2 + 3 * size → after (j + 2) = before j
  beyond : ∀ j, 4 + 3 * size ≤ j → after j = before j

theorem insertedFirst {size : Nat} (sizeEq : intAt data 1 = size)
    (posEq : binarySearch data key = 0) (small : size ≤ 340) (keyInt : IsInt key)
    (ridInt : rid.IsInt) :
    InsertedFirst (cells data) (cells (insertIntoLeaf data key rid)) size key rid := by
  have after := @cells_insertIntoLeaf data key rid size 0 sizeEq posEq (Nat.zero_le _) small keyInt
    ridInt
  constructor
  case kind => simp (disch := omega) only [after, if_neg]
  case counted => simp (disch := omega) only [after, if_pos, if_true]
  case newKey =>
    intro some
    simp (disch := omega) only [after, if_neg, if_true]
  case keys =>
    intro j _ _
    simp (disch := omega) only [after, if_neg, if_pos, Nat.add_sub_cancel]
  case pageId => simp (disch := omega) only [after, if_neg, if_pos]
  case slotNum => simp (disch := omega) only [after, if_neg, if_pos]
  case lastKey =>
    intro some
    simp (disch := omega) only [after, if_neg, if_pos, if_true]
  case rids =>
    intro j _ _
    simp (disch := omega) only [after, if_neg, if_pos, Nat.add_sub_cancel]
  case beyond =>
    intro j _
    simp (disch := omega) only [after, if_neg]

/-- `InsertIntoLeaf` into a leaf without entries: the RID lies on the key. -/
theorem wellFormed_insert_empty (leaf : WellFormedLeaf data [] link) (keyInt : IsInt key)
    (ridInt : rid.IsInt) :
    WellFormedLeaf (insertIntoLeaf data key rid) [(key, rid)] link ↔
      rid = { pageId := key, slotNum := key } ∧ cells data 4 = key ∧ cells data 5 = link := by
  obtain ⟨kind, size, -⟩ := leaf.parts
  have after := @insertedFirst data key rid 0 size
    (@WellFormedLeaf.binarySearch_eq data [] [] link key leaf (by simp) (by simp)) (by simp) keyInt
    ridInt
  have holds : Segment (cells (insertIntoLeaf data key rid)) 2
      [rid.pageId, rid.slotNum, cells data 4, cells data 5] := by
    simp only [segment_cons, segment_nil, and_true]
    exact ⟨after.pageId, after.slotNum, after.beyond 4 (by omega), after.beyond 5 (by omega)⟩
  rw [wellFormedLeaf_iff_eq (after.kind.trans kind) (after.counted.trans (by simp)) (by simp [keysOf])
    (by simp) holds rfl]
  obtain ⟨pageId, slotNum⟩ := rid
  simp only [keysOf, List.map_cons, List.map_nil, ridInts_cons, ridInts_nil, List.cons_append,
    List.nil_append, List.cons.injEq, RID.mk.injEq, and_true]
  constructor
  · rintro ⟨first, second, third, last⟩
    exact ⟨⟨first.symm, (first.trans second).symm⟩, (third.symm.trans second.symm).trans first.symm,
      last.symm⟩
  · rintro ⟨⟨rfl, rfl⟩, rest, last⟩
    exact ⟨rfl, rfl, rest.symm, last.symm⟩

/-- `InsertIntoLeaf` in front of the first entry: the new RID lies on the last key, and
the last key on the first RID. -/
theorem wellFormed_insert_first (leaf : WellFormedLeaf data back link) (nonempty : back ≠ [])
    (above : ∀ entry ∈ back, key < entry.1) (room : back.length ≤ 339) (keyInt : IsInt key)
    (ridInt : rid.IsInt) :
    WellFormedLeaf (insertIntoLeaf data key rid) ((key, rid) :: back) link ↔
      rid = { pageId := (keysOf back).getLastD key, slotNum := (keysOf back).getLastD key } ∧
        (ridInts back).tail ++
            [cells data (4 + 3 * back.length), cells data (5 + 3 * back.length)] =
          ridInts back ++ [link] := by
  obtain ⟨kind, size, keys, rids, -⟩ := leaf.parts
  have some := List.length_pos_of_ne_nil nonempty
  have after := @insertedFirst data key rid _ size
    (@WellFormedLeaf.binarySearch_eq data [] back link key leaf (by simp) above) (by omega) keyInt
    ridInt
  have sorted : (keysOf ((key, rid) :: back)).Pairwise (· ≤ ·) :=
    @pairwise_insert [] back key rid leaf.sorted (by simp) above
  have keysSome : keysOf back ≠ [] := by
    rw [← List.length_pos_iff, length_keysOf]
    exact some
  have lastEq : (keysOf back).getLastD key = (keysOf back).getLast keysSome := by
    rw [List.getLastD_eq_getLast?, List.getLast?_eq_getLast_of_ne_nil keysSome]
    rfl
  generalize (keysOf back).getLastD key = last at *
  have keysCut : keysOf back = (keysOf back).dropLast ++ [last] := by
    rw [lastEq, List.dropLast_append_getLast]
  have cutLength : (keysOf back).dropLast.length = back.length - 1 := by simp
  have holds : Segment (cells (insertIntoLeaf data key rid)) 2
      (key :: ((keysOf back).dropLast ++ (rid.pageId :: rid.slotNum :: last :: ((ridInts back).tail ++
        [cells data (4 + 3 * back.length), cells data (5 + 3 * back.length)])))) := by
    have tailLength : (ridInts back).tail.length = 2 * back.length - 1 := by simp
    rw [keysCut, segment_append, segment_cons, cutLength] at keys
    rw [segment_cons, segment_append, segment_cons, segment_cons, segment_cons, segment_append,
      segment_cons, segment_cons, cutLength, tailLength]
    refine ⟨after.newKey some, keys.1.moved fun i inside => ?_, ?_, ?_, ?_,
      rids.tail.moved fun i inside => ?_, ?_, ?_, segment_nil.mpr trivial⟩
    · rw [cutLength] at inside
      rw [Nat.add_right_comm]
      exact after.keys _ (by omega) (by omega)
    · rw [show 2 + 1 + (back.length - 1) = 2 + back.length by omega]
      exact after.pageId
    · rw [show 2 + 1 + (back.length - 1) + 1 = 3 + back.length by omega]
      exact after.slotNum
    · rw [show 2 + 1 + (back.length - 1) + 1 + 1 = 4 + back.length by omega, after.lastKey some,
        ← keys.2.1]
      congr 1
      omega
    · rw [tailLength] at inside
      rw [show 2 + 1 + (back.length - 1) + 1 + 1 + 1 + i = 2 + back.length + 1 + i + 2 by omega]
      exact after.rids _ (by omega) (by omega)
    · rw [show 2 + 1 + (back.length - 1) + 1 + 1 + 1 + (2 * back.length - 1) =
        4 + 3 * back.length by omega]
      exact after.beyond _ (by omega)
    · rw [show 2 + 1 + (back.length - 1) + 1 + 1 + 1 + (2 * back.length - 1) + 1 =
        5 + 3 * back.length by omega]
      exact after.beyond _ (by omega)
  rw [wellFormedLeaf_iff_eq (after.kind.trans kind) (after.counted.trans (by simp)) sorted
    (by simp; omega) holds (by simp; omega), keysOf_cons, ridInts_cons, keysCut]
  obtain ⟨pageId, slotNum⟩ := rid
  simp only [List.cons_append, List.append_assoc, List.nil_append, List.cons.injEq, true_and,
    List.dropLast_concat, List.append_cancel_left_eq, RID.mk.injEq]
  constructor
  · rintro ⟨first, second, third, rest⟩
    exact ⟨⟨first.symm, (first.trans second).symm⟩, rest.symm⟩
  · rintro ⟨⟨rfl, rfl⟩, rest⟩
    exact ⟨rfl, rfl, rfl, rest.symm⟩

theorem ridInts_eq_iff {value : Int} :
    (∀ other ∈ ridInts entries, other = value) ↔ ∀ entry ∈ entries, entry.2 = twice value := by
  induction entries with
  | nil => simp
  | cons entry entries ih =>
    simp only [ridInts_cons, List.forall_mem_cons, ih, ← and_assoc]
    obtain ⟨key, pageId, slotNum⟩ := entry
    simp [twice]

/-- The page on which `InsertIntoLeaf` does what it is for: all RIDs, the new one and
the `int` two places behind the leaf agree, and the next pointer is there already. A
new first entry has its RID read where the last key was. -/
structure InsertsInPlace (data : Bytes) (entries : List Entry) (link key : Int) (rid : RID) :
    Prop where
  linkThere : cells data (5 + 3 * entries.length) = link
  ridsAgree : ∀ entry ∈ entries, entry.2 = twice (cells data (4 + 3 * entries.length))
  behind : (∃ entry ∈ entries, entry.1 ≤ key) →
    rid = twice (cells data (4 + 3 * entries.length))
  first : (∀ entry ∈ entries, key < entry.1) → rid = twice ((keysOf entries).getLastD key)
  alone : entries = [] → cells data 4 = key

theorem insertsInPlace_empty :
    InsertsInPlace data [] link key rid ↔
      rid = twice key ∧ cells data 4 = key ∧ cells data 5 = link := by
  constructor
  · intro place
    exact ⟨place.first (by simp), place.alone rfl, place.linkThere⟩
  · rintro ⟨ridEq, spare, linkThere⟩
    exact ⟨linkThere, by simp, by simp, fun _ => ridEq, fun _ => spare⟩

theorem insertsInPlace_first (nonempty : back ≠ []) (above : ∀ entry ∈ back, key < entry.1) :
    InsertsInPlace data back link key rid ↔
      rid = twice ((keysOf back).getLastD key) ∧
        (ridInts back).tail ++
            [cells data (4 + 3 * back.length), cells data (5 + 3 * back.length)] =
          ridInts back ++ [link] := by
  have some : ridInts back ≠ [] := by
    rw [← List.length_pos_iff, length_ridInts]
    have := List.length_pos_of_ne_nil nonempty
    omega
  rw [tail_append_eq_iff some]
  simp only [ridInts_eq_iff]
  constructor
  · intro place
    exact ⟨place.first above, _, place.ridsAgree, rfl, place.linkThere⟩
  · rintro ⟨ridEq, _, agree, rfl, linkThere⟩
    refine ⟨linkThere, agree, ?_, fun _ => ridEq, fun empty => absurd empty nonempty⟩
    rintro ⟨entry, member, upTo⟩
    exact absurd (above entry member) (Int.not_lt.mpr upTo)

theorem insertsInPlace_behind (nonempty : front ≠ []) (below : ∀ entry ∈ front, entry.1 ≤ key) :
    InsertsInPlace data (front ++ back) link key rid ↔
      (ridInts (front ++ (key, rid) :: back)).tail ++
          [cells data (4 + 3 * (front ++ back).length),
            cells data (5 + 3 * (front ++ back).length)] =
        ridInts (front ++ (key, rid) :: back) ++ [link] := by
  have some : ridInts (front ++ (key, rid) :: back) ≠ [] := by simp
  obtain ⟨entry, member⟩ := List.exists_mem_of_ne_nil front nonempty
  have here : ∃ entry ∈ front ++ back, entry.1 ≤ key :=
    ⟨entry, List.mem_append_left _ member, below entry member⟩
  rw [tail_append_eq_iff some]
  simp only [ridInts_eq_iff]
  constructor
  · intro place
    refine ⟨_, ?_, rfl, place.linkThere⟩
    intro other otherMember
    rcases List.mem_append.mp otherMember with inFront | inRest
    · exact place.ridsAgree other (List.mem_append_left _ inFront)
    · rcases List.mem_cons.mp inRest with rfl | inBack
      · exact place.behind here
      · exact place.ridsAgree other (List.mem_append_right _ inBack)
  · rintro ⟨_, agree, rfl, linkThere⟩
    refine ⟨linkThere, ?_, fun _ => agree (key, rid) (by simp), ?_, ?_⟩
    · intro other otherMember
      apply agree
      rcases List.mem_append.mp otherMember with inFront | inBack
      · exact List.mem_append_left _ inFront
      · exact List.mem_append_right _ (List.mem_cons_of_mem _ inBack)
    · intro above
      obtain ⟨other, otherMember, upTo⟩ := here
      exact absurd (above other otherMember) (Int.not_lt.mpr upTo)
    · intro empty
      rw [empty] at here
      simp at here

/-- `InsertIntoLeaf` is sorted insertion exactly on the pages where the misplaced RIDs
read the same. -/
theorem insertIntoLeaf_wellFormed_iff (leaf : WellFormedLeaf data entries link)
    (room : entries.length ≤ 339) (keyInt : IsInt key) (ridInt : rid.IsInt) :
    WellFormedLeaf (insertIntoLeaf data key rid) (insertEntry entries key rid) link ↔
      InsertsInPlace data entries link key rid := by
  obtain ⟨front, back, rfl, frontEq, backEq, below, above⟩ := exists_cut leaf.sorted key
  rw [insertEntry, frontEq, backEq]
  rcases eq_or_ne front [] with rfl | behind
  · rcases eq_or_ne back [] with rfl | nonempty
    · rw [List.nil_append, List.nil_append, insertsInPlace_empty]
      exact wellFormed_insert_empty leaf keyInt ridInt
    · rw [List.nil_append, List.nil_append, insertsInPlace_first nonempty above]
      exact wellFormed_insert_first leaf nonempty above room keyInt ridInt
  · rw [insertsInPlace_behind behind below]
    exact wellFormed_insert_behind leaf behind below above room keyInt ridInt

/-- RIDs, the next pointer and the `int`s behind the leaf agree where they are all
zero. -/
theorem insertIntoLeaf_zeros :
    WellFormedLeaf (insertIntoLeaf (leafPageOf [(7, twice 0)] 0) 9 (twice 0))
      [(7, twice 0), (9, twice 0)] 0 := by
  have ints : ∀ value ∈ leafImage [(7, twice 0)] 0, IsInt value := by decide
  have beyond : ∀ index, 6 ≤ index → cells (leafPageOf [(7, twice 0)] 0) index = 0 :=
    fun index far => cells_layOut_beyond ints far
  apply (insertIntoLeaf_wellFormed_iff (wellFormed_leafPageOf ints (by decide) (by decide))
    (by decide) (by decide) (by decide)).mpr
  constructor
  all_goals simp [beyond, keysOf]

/-- Into a tree of the entry 10 with the RID (1, 1) the entry 20 with (2, 2): the first
RID is read as (1, 2). -/
theorem second_rid_displaces_first :
    ¬ ∀ (data : Bytes) (entries : List Entry) (link key : Int) (rid : RID),
      WellFormedLeaf data entries link → entries.length ≤ 339 → IsInt key → rid.IsInt →
        WellFormedLeaf (insertIntoLeaf data key rid) (insertEntry entries key rid) link := by
  intro sorted
  have leaf : WellFormedLeaf (rootLeaf Bytes.zeros 10 (twice 1)) [(10, twice 1)] (-1) :=
    wellFormed_rootLeaf _ (by decide) (by decide)
  have after := sorted _ _ _ 20 (twice 2) leaf (by decide) (by decide) (by decide)
  have shifted := (@wellFormed_insert_behind _ [(10, twice 1)] [] _ 20 (twice 2) leaf (by simp)
    (by simp) (by simp) (by simp) (by decide) (by decide)).mp after
  simp [twice] at shifted

end MiniDB.Index
