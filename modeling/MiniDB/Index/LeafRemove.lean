import MiniDB.Index.LeafLayout
import MiniDB.Index.ServedTree

/-!
# Removal from a leaf

`Remove` closes the gap among the keys and among the RIDs and counts the size down,
but the RIDs stay at the base of the old size: they are read from one `int` before
them, which holds the last key, and the last of them is read as the next pointer.
-/

namespace MiniDB.Index

open Foundation Buffer PoolProgram Storage

variable {data : Bytes} {entries front back : List Entry} {link key : Int} {rid : RID}

/-- The loop of `Remove`. -/
theorem cells_closeGap {size count i : Nat} (inside : i + count < size) (data : Bytes) (j : Nat) :
    cells (closeGap size count i data) j =
      if 2 + i ≤ j ∧ j < 2 + i + count then cells data (j + 1)
      else if 2 + size + 2 * i ≤ j ∧ j < 2 + size + 2 * (i + count) then cells data (j + 2)
      else cells data j := by
  induction count generalizing i data with
  | zero =>
    rw [if_neg (by omega), if_neg (by omega)]
    rfl
  | succ count ih =>
    have next : (i : Int) + 1 = (i + 1 : Nat) := by omega
    have source : intAt data (2 + i + 1) = cells data (3 + i) := by
      rw [cells]
      congr 1
      omega
    rw [closeGap, next, ih (by omega), ridAt_eq, source,
      cells_setRid ⟨isInt_cells _ _, isInt_cells _ _⟩,
      cells_setInt (isInt_cells _ _) (show _ = ((2 + i : Nat) : Int) by omega)]
    simp only [Function.update_apply]
    split_ifs <;> first | omega | rfl | (congr 1; omega)

/-- The page after an entry is taken out of it. -/
theorem cells_removeFromLeaf {size pos : Nat} (sizeEq : intAt data 1 = size) (inside : pos < size)
    (sizeInt : IsInt ((size : Int) - 1)) (j : Nat) :
    cells (removeFromLeaf data pos) j =
      if j = 1 then (size : Int) - 1
      else if 2 + pos ≤ j ∧ j < 1 + size then cells data (j + 1)
      else if 2 + size + 2 * pos ≤ j ∧ j < 3 * size then cells data (j + 2)
      else cells data j := by
  have count : ((size : Int) - 1 - pos).toNat = size - 1 - pos := by omega
  have keysEnd : 2 + pos + (size - 1 - pos) = 1 + size := by omega
  have ridsEnd : 2 + size + 2 * (pos + (size - 1 - pos)) = 3 * size := by omega
  simp only [removeFromLeaf, sizeEq, count]
  rw [cells_setInt sizeInt (show (1 : Int) = (1 : Nat) from rfl), Function.update_apply,
    cells_closeGap (by omega), keysEnd, ridsEnd]

/-- The entries after `Remove`, in place of the last entry of the key. -/
def withoutLast (entries : List Entry) (key : Int) : List Entry :=
  (entries.filter fun entry => entry.1 ≤ key).dropLast ++ entries.filter fun entry => key < entry.1

/-- The page after `Remove`: behind the keys there is the last of them again, and then
the RIDs. -/
theorem removeFromLeaf_parts {entry : Entry}
    (leaf : WellFormedLeaf data (front ++ entry :: back) link) (key : Int) :
    intAt (removeFromLeaf data front.length) 0 = 1 ∧
      intAt (removeFromLeaf data front.length) 1 = (front ++ back).length ∧
      Segment (cells (removeFromLeaf data front.length)) 2
        (keysOf (front ++ back) ++
          ((keysOf (front ++ entry :: back)).getLastD key :: ridInts (front ++ back))) := by
  obtain ⟨kind, size, keys, rids, -⟩ := leaf.parts
  have fits := leaf.fits
  have lengths : (front ++ entry :: back).length = front.length + back.length + 1 := by
    simp only [List.length_append, List.length_cons]
    omega
  have rest : (front ++ back).length = front.length + back.length := List.length_append
  have lastCell := keys.getLastD (by simp) key
  rw [length_keysOf] at lastCell
  generalize (keysOf (front ++ entry :: back)).getLastD key = last at *
  rw [keysOf_append, segment_append, keysOf_cons, segment_cons, length_keysOf] at keys
  rw [ridInts_append, segment_append, ridInts_cons, segment_cons, segment_cons,
    length_ridInts] at rids
  generalize (front ++ entry :: back).length = n at *
  have after := @cells_removeFromLeaf data n front.length size (by omega) (by
    simp only [IsInt]
    omega)
  refine ⟨?_, ?_, ?_⟩
  · change cells (removeFromLeaf data front.length) 0 = 1
    rw [after, if_neg (by omega), if_neg (by omega), if_neg (by omega)]
    exact kind
  · change cells (removeFromLeaf data front.length) 1 = _
    rw [after, if_pos rfl]
    omega
  · rw [keysOf_append, List.append_assoc, segment_append, segment_append, segment_cons,
      ridInts_append, segment_append, length_keysOf, length_keysOf, length_ridInts]
    refine ⟨keys.1.moved fun i inside => ?_, keys.2.2.moved fun i inside => ?_, ?_,
      rids.1.moved fun i inside => ?_, rids.2.2.2.moved fun i inside => ?_⟩
    · rw [length_keysOf] at inside
      rw [after, if_neg (by omega), if_neg (by omega), if_neg (by omega)]
    · rw [length_keysOf] at inside
      rw [after, if_neg (by omega), if_pos (by omega)]
      congr 1
      omega
    · rw [after, if_neg (by omega), if_neg (by omega), if_neg (by omega), ← lastCell]
      congr 1
      omega
    · rw [length_ridInts] at inside
      rw [after, if_neg (by omega), if_neg (by omega), if_neg (by omega)]
      congr 1
      omega
    · rw [length_ridInts] at inside
      rw [after, if_neg (by omega), if_neg (by omega), if_pos (by omega)]
      congr 1
      omega

section

variable {otherFront otherBack : List Entry} {otherRid : RID}

/-- Which of the entries of a key is taken out makes no difference to the keys. -/
theorem keysOf_without_eq (sorted : (keysOf (front ++ (key, rid) :: back)).Pairwise (· ≤ ·))
    (same : otherFront ++ (key, otherRid) :: otherBack = front ++ (key, rid) :: back) :
    keysOf (otherFront ++ otherBack) = keysOf (front ++ back) := by
  have shorter : ∀ (front back : List Entry) (rid : RID),
      (keysOf (front ++ back)).Sublist (keysOf (front ++ (key, rid) :: back)) := by
    intro front back rid
    rw [keysOf_append, keysOf_append, keysOf_cons]
    exact List.Sublist.append_left (List.sublist_cons_self _ _) _
  have taken : ∀ (front back : List Entry) (rid : RID),
      (keysOf (front ++ (key, rid) :: back)).Perm (key :: keysOf (front ++ back)) := by
    intro front back rid
    rw [keysOf_append, keysOf_append, keysOf_cons]
    exact List.perm_middle
  have perm : (keysOf (otherFront ++ otherBack)).Perm (keysOf (front ++ back)) := by
    apply List.Perm.cons_inv
    exact (taken otherFront otherBack otherRid).symm.trans (same ▸ taken front back rid)
  refine perm.eq_of_pairwise (fun _ _ _ _ below above => Int.le_antisymm below above) ?_ ?_
  · exact (same ▸ sorted).sublist (shorter otherFront otherBack otherRid)
  · exact sorted.sublist (shorter front back rid)

/-- The leaf after `Remove`, with some entry of the key taken out. -/
theorem wellFormed_remove_iff (leaf : WellFormedLeaf data (front ++ (key, rid) :: back) link)
    (same : otherFront ++ (key, otherRid) :: otherBack = front ++ (key, rid) :: back) :
    WellFormedLeaf (removeFromLeaf data front.length) (otherFront ++ otherBack) link ↔
      ridInts (otherFront ++ otherBack) ++ [link] =
        (keysOf (front ++ (key, rid) :: back)).getLastD key :: ridInts (front ++ back) := by
  obtain ⟨kind, size, holds⟩ := removeFromLeaf_parts leaf key
  have keys := keysOf_without_eq leaf.sorted same
  have length : (otherFront ++ otherBack).length = (front ++ back).length := by
    simpa using congrArg List.length keys
  have fits := leaf.fits
  have total : (front ++ (key, rid) :: back).length = (front ++ back).length + 1 := by
    simp only [List.length_append, List.length_cons]
    omega
  have sorted : (keysOf (otherFront ++ otherBack)).Pairwise (· ≤ ·) := by
    rw [keys, keysOf_append]
    have whole := leaf.sorted
    rw [keysOf_append, keysOf_cons] at whole
    exact whole.sublist (List.Sublist.append_left (List.sublist_cons_self _ _) _)
  have count : (keysOf (front ++ back) ++ ((keysOf (front ++ (key, rid) :: back)).getLastD key ::
      ridInts (front ++ back))).length = 3 * (otherFront ++ otherBack).length + 1 := by
    rw [List.length_append, List.length_cons, length_keysOf, length_ridInts, length]
    omega
  rw [wellFormedLeaf_iff_eq kind (by rw [size, length]) sorted (by omega) holds count, keys,
    List.append_cancel_left_eq]

end

/-- The leaves from which `Remove` takes an entry of the key: the RIDs that stay read
the same with the last key before them and without the last of their `int`s. -/
def RemovesInPlace (entries : List Entry) (link key : Int) : Prop :=
  ∃ front rid back, front ++ (key, rid) :: back = entries ∧
    ridInts (front ++ back) ++ [link] =
      (keysOf entries).getLastD key :: ridInts (withoutLast entries key)

/-- Where a leaf has the key, the search finds the last entry of it. -/
theorem exists_last_entry (sorted : (keysOf entries).Pairwise (· ≤ ·)) (member : key ∈ keysOf entries) :
    ∃ front rid back, front ++ (key, rid) :: back = entries ∧
      front ++ back = withoutLast entries key ∧
      (∀ entry ∈ front, entry.1 ≤ key) ∧ ∀ entry ∈ back, key < entry.1 := by
  obtain ⟨first, second, rfl, firstEq, secondEq, below, above⟩ := exists_cut sorted key
  rw [keysOf_append, List.pairwise_append] at sorted
  have upTo : key ∈ keysOf first := by
    obtain ⟨entry, inside, rfl⟩ := List.mem_map.mp member
    rw [← firstEq]
    exact List.mem_map_of_mem (List.mem_filter.mpr ⟨inside, by simp⟩)
  rw [withoutLast, firstEq, secondEq]
  rcases List.eq_nil_or_concat' first with rfl | ⟨front, ⟨lastKey, rid⟩, rfl⟩
  · cases upTo
  · have lastEq : lastKey = key := by
      have lastBelow := below (lastKey, rid) (by simp)
      rw [keysOf_append, List.pairwise_append] at sorted
      rw [keysOf_append, List.mem_append] at upTo
      rcases upTo with inFront | isLast
      · have lastAbove := sorted.1.2.2 key inFront lastKey (by simp [keysOf])
        exact Int.le_antisymm lastBelow lastAbove
      · simpa [keysOf, eq_comm] using isLast
    subst lastEq
    refine ⟨front, rid, second, ?_, ?_, ?_, above⟩
    · rw [List.append_assoc, List.singleton_append]
    · rw [List.dropLast_concat]
    · exact fun entry inFront => below entry (List.mem_append_left _ inFront)

/-- The search in a leaf that has the key. -/
theorem WellFormedLeaf.search_last (leaf : WellFormedLeaf data (front ++ (key, rid) :: back) link)
    (below : ∀ entry ∈ front, entry.1 ≤ key) (above : ∀ entry ∈ back, key < entry.1) :
    binarySearch data key = (front.length + 1 : Nat) ∧
      intAt data (2 + binarySearch data key - 1) = key := by
  have position : binarySearch data key = (front.length + 1 : Nat) := by
    have cut : front ++ (key, rid) :: back = (front ++ [(key, rid)]) ++ back := by simp
    have found := @WellFormedLeaf.binarySearch_eq data (front ++ [(key, rid)]) back link key
      (cut ▸ leaf) (by simpa [or_imp, forall_and] using below) above
    simpa using found
  refine ⟨position, ?_⟩
  obtain ⟨-, -, keys, -⟩ := leaf.parts
  rw [keysOf_append, segment_append, keysOf_cons, segment_cons, length_keysOf] at keys
  have place : (2 : Int) + (front.length + 1 : Nat) - 1 = (2 + front.length : Nat) := by omega
  rw [position, place]
  exact keys.2.1

/-- The search in a leaf that does not have the key. -/
theorem WellFormedLeaf.search_absent (leaf : WellFormedLeaf data entries link)
    (absent : key ∉ keysOf entries) :
    binarySearch data key = 0 ∨ intAt data (2 + binarySearch data key - 1) ≠ key := by
  obtain ⟨front, back, rfl, -, -, below, above⟩ := exists_cut leaf.sorted key
  rw [leaf.binarySearch_eq below above]
  rcases Nat.eq_zero_or_pos front.length with none | some
  · exact .inl (by omega)
  · refine .inr fun found => absent ?_
    obtain ⟨-, -, keys, -⟩ := leaf.parts
    rw [keysOf_append, segment_append] at keys
    have inside : front.length - 1 < (keysOf front).length := by
      rw [length_keysOf]
      omega
    have place : (2 : Int) + front.length - 1 = (2 + (front.length - 1) : Nat) := by omega
    rw [place] at found
    have here : (keysOf front)[front.length - 1] = key := (keys.1 _ inside).symm.trans found
    rw [keysOf_append, ← here, List.mem_append]
    exact .inl (List.getElem_mem inside)

/-! ## A tree of a single leaf -/

namespace BPlusTree

variable {tree : BPlusTree} {pool : BufferPool IdealDisk} {pages : Pages} {pins : List ClientPin}

/-- What `Remove` is for on a tree of a single leaf: one entry of the key leaves it, or
nothing changes. -/
def RemovesOne (tree : BPlusTree) (pages : Pages) (pins : List ClientPin) (entries : List Entry)
    (link key : Int) (outcome : (Option Bool × BPlusTree) × BufferPool IdealDisk) : Prop :=
  outcome.1.2.rootPageId = tree.rootPageId ∧
    if key ∈ keysOf entries then
      outcome.1.1 = some true ∧ ∃ front rid back data, front ++ (key, rid) :: back = entries ∧
        WellFormedLeaf data (front ++ back) link ∧
        outcome.2.ShowsPages (pages.write tree.rootPageId data) pins
    else outcome.1.1 = some false ∧ outcome.2.ShowsPages pages pins

variable (shows : pool.ShowsPages pages pins) (exist : pages.Allocated tree.rootPageId)
  (leaf : WellFormedLeaf (pages.contents tree.rootPageId) entries link)

include leaf in
theorem isLeaf_root : isLeaf (pages.contents tree.rootPageId) = true := by
  simp [isLeaf, leaf.parts.1]

include shows exist leaf in
/-- `Remove` without a frame for the root. -/
theorem remove_refused (refused : (pool.fetchPage tree.rootPageId).1 = none) (fuel : Nat) (key : Int) :
    ∃ after, run (tree.remove (fuel + 1) key) pool = ((some false, tree.relatched), after) ∧
      after.ShowsPages pages pins := by
  have ends := @find_rootLeaf _ idealService pool pages pins tree shows exist (isLeaf_root leaf) fuel
    tree.latch.lock key false
  rcases shows.fetchPage exist with ⟨-, kept⟩ | ⟨frame, fetched, -⟩
  · refine ⟨_, ?_, kept⟩
    rw [show (idealService.handle (.fetchPage tree.rootPageId) pool : Option Nat × _) =
      (none, (pool.fetchPage tree.rootPageId).2) from Prod.ext refused rfl] at ends
    rw [← run_idealService]
    simp only [remove, served_guarded, if_neg (exists_root exist), PageService.run_bind, ends,
      Option.elim_none, PageService.run_pure]
  · rw [refused] at fetched
    cases fetched

include shows exist leaf in
/-- The descent with a frame for the root. -/
theorem find_served (served : (pool.fetchPage tree.rootPageId).1 ≠ none) (fuel : Nat) (latch : Mutex)
    (key : Int) :
    ∃ frame middle,
      idealService.run (findLeafPage { tree with latch } (fuel + 1) key false) pool =
        (.leaf frame, middle) ∧
      middle.ShowsPages pages ({ pageId := tree.rootPageId, frame } :: pins) := by
  have ends := @find_rootLeaf _ idealService pool pages pins tree shows exist (isLeaf_root leaf) fuel
    latch key false
  rcases shows.fetchPage exist with ⟨refused, -⟩ | ⟨frame, fetched, held⟩
  · exact absurd refused served
  · refine ⟨frame, _, ?_, held⟩
    rw [show (idealService.handle (.fetchPage tree.rootPageId) pool : Option Nat × _) =
      (some frame, (pool.fetchPage tree.rootPageId).2) from Prod.ext fetched rfl] at ends
    exact ends

include shows exist leaf in
/-- `Remove` of a key that the leaf does not have changes nothing. -/
theorem remove_absent (absent : key ∉ keysOf entries) (fuel : Nat) :
    ∃ after, run (tree.remove (fuel + 1) key) pool = ((some false, tree.relatched), after) ∧
      after.ShowsPages pages pins := by
  by_cases served : (pool.fetchPage tree.rootPageId).1 = none
  · exact remove_refused shows exist leaf served fuel key
  · obtain ⟨frame, middle, ends, held⟩ :=
      find_served shows exist leaf served fuel tree.latch.lock key
    exact served_remove_absent (exists_root exist) ends held (leaf.search_absent absent)

include shows exist leaf in
/-- `Remove` of a key that the leaf has, with a frame for the root. -/
theorem remove_present (two : 2 ≤ entries.length) {front back : List Entry} {rid : RID}
    (whole : front ++ (key, rid) :: back = entries) (below : ∀ entry ∈ front, entry.1 ≤ key)
    (above : ∀ entry ∈ back, key < entry.1) (served : (pool.fetchPage tree.rootPageId).1 ≠ none)
    (fuel : Nat) :
    ∃ after, run (tree.remove (fuel + 1) key) pool = ((some true, tree.relatched), after) ∧
      after.ShowsPages (pages.write tree.rootPageId
        (removeFromLeaf (pages.contents tree.rootPageId) front.length)) pins := by
  subst whole
  obtain ⟨frame, middle, ends, held⟩ := find_served shows exist leaf served fuel tree.latch.lock key
  obtain ⟨position, found⟩ := leaf.search_last below above
  obtain ⟨kind, size, -⟩ := removeFromLeaf_parts leaf key
  have present : ¬ Absent (pages.contents tree.rootPageId) key := by
    rintro (first | different)
    · omega
    · exact different found
  have before : binarySearch (pages.contents tree.rootPageId) key - 1 = front.length := by omega
  obtain ⟨after, ran, kept⟩ := served_remove_present (exists_root exist) ends held present
    (congrArg (removeFromLeaf _) before) (by simp [isLeaf, kind])
  refine ⟨after, ?_, kept⟩
  have nonempty : ¬ (front ++ back).length = 0 := by
    simp only [List.length_append, List.length_cons] at two ⊢
    omega
  have stays : tree.relatched.afterRemoval tree.rootPageId
      (removeFromLeaf (pages.contents tree.rootPageId) front.length) = tree.relatched := by
    rw [afterRemoval, if_neg]
    rintro ⟨-, empty⟩
    rw [size] at empty
    exact nonempty (Int.natCast_eq_zero.mp empty)
  rw [← run_idealService, ran, stays]

include shows exist leaf in
/-- With a frame for the root, `Remove` takes out an entry of the key if the RIDs that
stay read the same afterwards. -/
theorem removesOne_present_iff (two : 2 ≤ entries.length) (member : key ∈ keysOf entries)
    (served : (pool.fetchPage tree.rootPageId).1 ≠ none) (fuel : Nat) :
    RemovesOne tree pages pins entries link key (run (tree.remove (fuel + 1) key) pool) ↔
      RemovesInPlace entries link key := by
  obtain ⟨front, rid, back, whole, rest, below, above⟩ := exists_last_entry leaf.sorted member
  obtain ⟨after, ran, kept⟩ := remove_present shows exist leaf two whole below above served fuel
  rw [RemovesOne, if_pos member, ran, RemovesInPlace, ← rest]
  subst whole
  constructor
  · rintro ⟨-, -, otherFront, otherRid, otherBack, data, whole, removed, shown⟩
    have same := shown.contents_eq kept exist
    rw [Pages.contents_write_self, Pages.contents_write_self] at same
    subst same
    exact ⟨otherFront, otherRid, otherBack, whole, (wellFormed_remove_iff leaf whole).mp removed⟩
  · rintro ⟨otherFront, otherRid, otherBack, whole, read⟩
    exact ⟨rfl, rfl, otherFront, otherRid, otherBack, _, whole,
      (wellFormed_remove_iff leaf whole).mpr read, kept⟩

/-- `Remove` takes an entry of the key out of a tree of a single leaf exactly if the
root can be loaded and the RIDs that stay read the same afterwards; without such an
entry it changes nothing. -/
theorem remove_removesOne_iff (shows : pool.ShowsPages pages pins)
    (exist : pages.Allocated tree.rootPageId)
    (leaf : WellFormedLeaf (pages.contents tree.rootPageId) entries link) (two : 2 ≤ entries.length)
    (fuel : Nat) (key : Int) :
    RemovesOne tree pages pins entries link key (run (tree.remove (fuel + 1) key) pool) ↔
      (key ∈ keysOf entries →
        (pool.fetchPage tree.rootPageId).1 ≠ none ∧ RemovesInPlace entries link key) := by
  by_cases member : key ∈ keysOf entries
  · rw [imp_iff_right member]
    by_cases served : (pool.fetchPage tree.rootPageId).1 = none
    · obtain ⟨after, ran, -⟩ := remove_refused shows exist leaf served fuel key
      rw [RemovesOne, if_pos member, ran]
      simp [served]
    · rw [removesOne_present_iff shows exist leaf two member served fuel]
      exact (and_iff_right served).symm
  · obtain ⟨after, ran, kept⟩ := remove_absent shows exist leaf member fuel
    rw [RemovesOne, if_neg member, ran]
    exact iff_of_true ⟨rfl, rfl, kept⟩ fun present => absurd present member

/-- A pool of one frame over a disk with one page. -/
def poolOf (data : Bytes) : BufferPool IdealDisk :=
  .new 1 (IdealDisk.start 1 fun _ => data) .noop

/-- A tree whose root is page 0. -/
def treeOnPage : BPlusTree :=
  { leafMaxSize := 340, internalMaxSize := 340, rootPageId := 0, leafStartPageId := 0 }

def pagesOf (data : Bytes) : Pages where
  nextPageId := 1
  contents := (IdealDisk.start 1 fun _ => data).bytes

theorem shows_poolOf (data : Bytes) : (poolOf data).ShowsPages (pagesOf data) [] :=
  showsPages_new 1 1 fun _ => data

theorem fetchPage_poolOf (data : Bytes) : ((poolOf data).fetchPage 0).1 ≠ none :=
  Option.some_ne_none 0

/-- The entries 5 and 7, with the RID (7, 7) first and the next page 7, without the
second. -/
theorem remove_removesOne_seven :
    RemovesOne treeOnPage (pagesOf (leafPageOf [(5, twice 7), (7, twice 3)] 7)) []
      [(5, twice 7), (7, twice 3)] 7 7
      (run (treeOnPage.remove 1 7) (poolOf (leafPageOf [(5, twice 7), (7, twice 3)] 7))) := by
  have leaf : WellFormedLeaf (leafPageOf [(5, twice 7), (7, twice 3)] 7)
      [(5, twice 7), (7, twice 3)] 7 := wellFormed_leafPageOf (by decide) (by decide) (by decide)
  apply (@remove_removesOne_iff _ _ treeOnPage _ _ _ (shows_poolOf _) (by decide) leaf (by decide)
    0 7).mpr
  intro _
  exact ⟨fetchPage_poolOf _, [(5, twice 7)], twice 3, [], rfl, by decide⟩

/-- The entries 1 and 2 with the RIDs (5, 5) and (6, 6), without the second: the RID
that stays is read as (2, 5), and the next page as 5. -/
theorem removed_rid_reads_key :
    ¬ ∀ (tree : BPlusTree) (pool : BufferPool IdealDisk) (pages : Pages) (pins : List ClientPin)
      (entries : List Entry) (link key : Int) (fuel : Nat), pool.ShowsPages pages pins →
        pages.Allocated tree.rootPageId →
        WellFormedLeaf (pages.contents tree.rootPageId) entries link → 2 ≤ entries.length →
        (pool.fetchPage tree.rootPageId).1 ≠ none →
        RemovesOne tree pages pins entries link key (run (tree.remove (fuel + 1) key) pool) := by
  intro removes
  have leaf : WellFormedLeaf (leafPageOf [(1, twice 5), (2, twice 6)] (-1))
      [(1, twice 5), (2, twice 6)] (-1) :=
    wellFormed_leafPageOf (by decide) (by decide) (by decide)
  have removed := removes treeOnPage _ _ _ _ (-1) 2 0 (shows_poolOf _) (by decide) leaf (by decide)
    (fetchPage_poolOf _)
  obtain ⟨front, rid, back, -, read⟩ := (@removesOne_present_iff _ _ 2 treeOnPage _ _ _
    (shows_poolOf _) (by decide) leaf (by decide) (by decide) (fetchPage_poolOf _) 0).mp removed
  have last := congrArg List.getLast? read
  simp [withoutLast, twice] at last

end BPlusTree

end MiniDB.Index
