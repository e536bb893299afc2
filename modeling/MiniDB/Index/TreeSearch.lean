import Mathlib.Data.List.Induction
import MiniDB.Index.LeafLayout
import MiniDB.Index.ServedTree

/-!
# The search path

A tree is stored in pages: leaves, and nodes whose separators keep apart what lies
below their children. `GetValue` goes down to the one leaf that can have the key and
collects its entries of that key from there. It holds one pin at a time, so a pool
that can load one page is enough, and it leaves pages and pins as they were.
-/

namespace MiniDB.Index

open Foundation Buffer PoolProgram Storage

variable {data : Bytes} {entries front back : List Entry} {link key : Int}

/-- The RIDs of the entries of a key, in their order. -/
def ridsWith (entries : List Entry) (key : Int) : List RID :=
  (entries.filter fun entry => entry.1 = key).map Prod.snd

@[simp] theorem ridsWith_append (entries others : List Entry) (key : Int) :
    ridsWith (entries ++ others) key = ridsWith entries key ++ ridsWith others key := by
  simp [ridsWith]

theorem ridsWith_eq_nil (absent : ∀ entry ∈ entries, entry.1 ≠ key) : ridsWith entries key = [] := by
  simp only [ridsWith, List.map_eq_nil_iff, List.filter_eq_nil_iff, decide_eq_true_eq]
  exact absent

/-! ## The two loops in a leaf -/

/-- The RID of an entry, as `GetValue` and the iterator read it. -/
theorem WellFormedLeaf.ridAt_eq {entry : Entry}
    (leaf : WellFormedLeaf data (front ++ entry :: back) link) :
    ridAt data (front ++ entry :: back).length front.length = entry.2 := by
  obtain ⟨-, -, -, rids, -⟩ := leaf.parts
  rw [ridInts_append, segment_append, ridInts_cons, segment_cons, segment_cons,
    length_ridInts] at rids
  have second : 3 + (front ++ entry :: back).length + 2 * front.length =
      2 + (front ++ entry :: back).length + 2 * front.length + 1 := by omega
  rw [Index.ridAt_eq, second, rids.2.1, rids.2.2.1]

theorem WellFormedLeaf.keyAt_eq {entry : Entry}
    (leaf : WellFormedLeaf data (front ++ entry :: back) link) :
    intAt data (2 + front.length) = entry.1 := by
  obtain ⟨-, -, keys, -⟩ := leaf.parts
  rw [keysOf_append, segment_append, keysOf_cons, segment_cons, length_keysOf] at keys
  exact keys.2.1

/-- The first loop of `GetValue`: the entries of the key are the last ones up to it. -/
theorem matchesBelow_eq (leaf : WellFormedLeaf data entries link) (split : entries = front ++ back)
    (below : ∀ entry ∈ front, entry.1 ≤ key) (result : List RID) :
    matchesBelow data key entries.length front.length result = ridsWith front key ++ result := by
  induction front using List.reverseRecOn generalizing back result with
  | nil => rfl
  | append_singleton front entry ih =>
    rw [List.append_assoc, List.singleton_append] at split
    have sorted := leaf.sorted
    subst split
    rw [show (front ++ [entry]).length = front.length + 1 from List.length_append, matchesBelow, leaf.keyAt_eq]
    by_cases same : entry.1 = key
    · rw [if_pos same, leaf.ridAt_eq,
        ih rfl fun other member => below other (List.mem_append_left _ member)]
      simp [ridsWith, same]
    · rw [if_neg same, ridsWith_eq_nil, List.nil_append]
      intro other member
      have entryBelow := below entry (by simp)
      have otherBelow : other.1 ≤ entry.1 := by
        rcases List.mem_append.mp member with inFront | isEntry
        · rw [keysOf_append, List.pairwise_append] at sorted
          exact sorted.2.2 _ (List.mem_map_of_mem inFront) _ (by simp)
        · exact Int.le_of_eq (congrArg Prod.fst (List.mem_singleton.mp isEntry))
      omega

/-- `GetValue` collects the RIDs of a leaf's entries of the key. -/
theorem WellFormedLeaf.collect_eq (leaf : WellFormedLeaf data entries link) (key : Int) :
    collect data key = ridsWith entries key := by
  obtain ⟨front, back, rfl, -, -, below, above⟩ := exists_cut leaf.sorted key
  have size := leaf.parts.2.1
  have absent : ridsWith back key = [] := by
    apply ridsWith_eq_nil
    intro entry member
    exact Int.ne_of_gt (above entry member)
  simp only [collect, size, leaf.binarySearch_eq below above, Int.toNat_natCast,
    matchesBelow_eq leaf rfl below, List.append_nil, ridsWith_append, absent]
  cases back with
  | nil => simp [matchesAbove]
  | cons entry back =>
    have different : entry.1 ≠ key := Int.ne_of_gt (above entry List.mem_cons_self)
    have count : (((front ++ entry :: back).length : Int) - front.length).toNat = back.length + 1 := by
      simp only [List.length_append, List.length_cons]
      omega
    rw [count, matchesAbove, leaf.keyAt_eq, if_neg different]

/-! ## Stored trees -/

/-- The page is a node with these separators and children. -/
structure NodePage (data : Bytes) (separators children : List Int) : Prop where
  isNode : isLeaf data = false
  size : intAt data 1 = separators.length
  keysAt : Segment (cells data) 2 separators
  childrenAt : Segment (cells data) (3 + separators.length) children
  count : children.length = separators.length + 1
  fits : separators.length ≤ 510

/-- Each separator is above the keys to its left and at most those to its right. -/
def Separates (separators : List Int) (parts : List (List Entry)) : Prop :=
  ∀ j (inside : j < separators.length) i (isPart : i < parts.length), ∀ entry ∈ parts[i],
    if i ≤ j then entry.1 < separators[j] else separators[j] ≤ entry.1

/-- The page is the root of a tree of at most this height with these entries, in the
order of the leaves. -/
inductive Stores (pages : Pages) : (height : Nat) → (pageId : Int) → List Entry → Prop where
  | leaf {height : Nat} {pageId : Int} {entries : List Entry} {link : Int}
      (allocated : pages.Allocated pageId)
      (leaf : WellFormedLeaf (pages.contents pageId) entries link) :
      Stores pages height pageId entries
  | node {height : Nat} {pageId : Int} {separators children : List Int}
      {parts : List (List Entry)} (allocated : pages.Allocated pageId)
      (node : NodePage (pages.contents pageId) separators children)
      (count : parts.length = children.length)
      (stored : ∀ i (isChild : i < children.length) (isPart : i < parts.length),
        Stores pages height children[i] parts[i])
      (separates : Separates separators parts) : Stores pages (height + 1) pageId parts.flatten

/-- An entry of the key says where the search in the node ends. -/
theorem NodePage.binarySearch_eq {separators children : List Int} {parts : List (List Entry)}
    (node : NodePage data separators children) (separates : Separates separators parts)
    {i : Nat} (isPart : i < parts.length) {entry : Entry} (member : entry ∈ parts[i])
    (bound : i ≤ separators.length) : binarySearch data entry.1 = i := by
  have cut := List.take_append_drop i separators
  have found := @Index.binarySearch_eq data (separators.take i) (separators.drop i) entry.1
    (by rw [cut, node.size]) (by rw [cut]; exact node.keysAt) ?_ ?_
  · rw [found, List.length_take, Nat.min_eq_left bound]
  · intro other inFront
    obtain ⟨j, inside, rfl⟩ := List.getElem_of_mem inFront
    rw [List.length_take] at inside
    have right := separates j (by omega) i isPart entry member
    rw [if_neg (by omega)] at right
    rwa [List.getElem_take]
  · intro other inBack
    obtain ⟨j, inside, rfl⟩ := List.getElem_of_mem inBack
    rw [List.length_drop] at inside
    have left := separates (i + j) (by omega) i isPart entry member
    rw [if_pos (by omega)] at left
    rwa [List.getElem_drop]

/-- Parts that do not have the key make no difference. -/
theorem ridsWith_flatten_eq_nil {parts : List (List Entry)}
    (absent : ∀ part ∈ parts, ∀ entry ∈ part, entry.1 ≠ key) : ridsWith parts.flatten key = [] := by
  apply ridsWith_eq_nil
  intro entry member
  obtain ⟨part, isPart, inside⟩ := List.mem_flatten.mp member
  exact absent part isPart entry inside

theorem ridsWith_flatten_eq {parts : List (List Entry)} {i : Nat} (isPart : i < parts.length)
    (elsewhere : ∀ j (inside : j < parts.length), j ≠ i → ∀ entry ∈ parts[j], entry.1 ≠ key) :
    ridsWith parts.flatten key = ridsWith parts[i] key := by
  have cut : parts = parts.take i ++ parts[i] :: parts.drop (i + 1) := by
    rw [List.getElem_cons_drop, List.take_append_drop]
  have before : ridsWith (parts.take i).flatten key = [] := by
    apply ridsWith_flatten_eq_nil
    intro part member
    obtain ⟨j, inside, rfl⟩ := List.getElem_of_mem member
    rw [List.length_take] at inside
    rw [List.getElem_take]
    exact elsewhere j (by omega) (by omega)
  have after : ridsWith (parts.drop (i + 1)).flatten key = [] := by
    apply ridsWith_flatten_eq_nil
    intro part member
    obtain ⟨j, inside, rfl⟩ := List.getElem_of_mem member
    rw [List.length_drop] at inside
    rw [List.getElem_drop]
    exact elsewhere _ (by omega) (by omega)
  conv_lhs => rw [cut]
  rw [List.flatten_append, List.flatten_cons, ridsWith_append, ridsWith_append, before, after,
    List.nil_append, List.append_nil]

/-- The child that `FindLeafPage` goes on to is the one that can have the key. -/
theorem NodePage.exists_child {separators children : List Int} {parts : List (List Entry)}
    (node : NodePage data separators children) (count : parts.length = children.length)
    (separates : Separates separators parts) (key : Int) :
    ∃ i, ∃ (isChild : i < children.length) (isPart : i < parts.length),
      childAt data key false = children[i] ∧ ridsWith parts.flatten key = ridsWith parts[i] key := by
  have size := node.size
  have bounds : 0 ≤ binarySearch data key ∧ binarySearch data key ≤ intAt data 1 :=
    search_bounds data key _ (Int.le_refl 0) (by omega)
  obtain ⟨i, position⟩ := Int.eq_ofNat_of_zero_le bounds.1
  have bound : i ≤ separators.length := by omega
  have total := node.count
  refine ⟨i, by omega, by omega, ?_, ?_⟩
  · have place : (2 : Int) + separators.length + 1 + i = (3 + separators.length + i : Nat) := by omega
    rw [childAt, position, size]
    simp only [Bool.false_eq_true, if_false]
    exact place ▸ node.childrenAt i (by omega)
  · apply ridsWith_flatten_eq
    intro j isPart different entry member same
    have found := node.binarySearch_eq separates isPart member (by omega)
    rw [same, position] at found
    exact different (by omega)

/-- `FindLeafPage` ends at a leaf that has all entries of the key. -/
theorem Stores.exists_leaf {pages : Pages} {height : Nat} {pageId : Int}
    (stores : Stores pages height pageId entries) (key : Int) {fuel : Nat} (enough : height < fuel) :
    RouteExists pages key false fuel pageId ∧
      ∃ leaf leafEntries link, route pages.contents key false fuel pageId = some leaf ∧
        WellFormedLeaf (pages.contents leaf) leafEntries link ∧
        ridsWith leafEntries key = ridsWith entries key := by
  induction stores generalizing fuel with
  | @leaf height pageId entries link allocated leaf =>
    obtain ⟨fuel, rfl⟩ := Nat.exists_eq_add_of_lt enough
    have isLeaf : isLeaf (pages.contents pageId) = true := by simp [isLeaf, leaf.parts.1]
    refine ⟨⟨allocated, by simp [isLeaf]⟩, pageId, entries, link, ?_, leaf, rfl⟩
    rw [route, if_pos isLeaf]
  | @node height pageId separators children parts allocated node count stored separates ih =>
    obtain ⟨fuel, rfl⟩ := Nat.exists_eq_add_of_lt enough
    obtain ⟨i, isChild, isPart, child, rids⟩ := node.exists_child count separates key
    obtain ⟨exist, leaf, leafEntries, link, found, wellFormed, same⟩ :=
      @ih i isChild isPart (height + 1 + fuel) (by omega)
    refine ⟨⟨allocated, fun _ => child ▸ exist⟩, leaf, leafEntries, link, ?_, wellFormed,
      same.trans rids.symm⟩
    rw [route, if_neg (by simp [node.isNode]), child]
    exact found

/-! ## The run -/

namespace BPlusTree

variable {tree : BPlusTree} {pool : BufferPool IdealDisk} {pages : Pages} {pins : List ClientPin}

/-- The descent in a pool that can load one page. -/
theorem run_descend_loads (ready : pool.LoadsPage pages pins) {fuel : Nat} {pageId leaf : Int}
    (exist : RouteExists pages key false fuel pageId)
    (found : route pages.contents key false fuel pageId = some leaf) :
    ∃ frame middle, run (descend key false fuel pageId) pool = (.leaf frame, middle) ∧
      middle.ShowsPages pages ({ pageId := leaf, frame } :: pins) := by
  induction fuel generalizing pool pageId with
  | zero => cases found
  | succ fuel ih =>
    obtain ⟨frame, fetched, held, released⟩ := ready.visit exist.1
    have read := (held.pageAt_eq List.mem_cons_self).2
    dsimp only at read
    rw [route] at found
    simp only [descend, run_bind, run_fetchPage, fetched, run_getData, read]
    by_cases isLeaf : isLeaf (pages.contents pageId) = true
    · rw [if_pos isLeaf] at found ⊢
      cases found
      exact ⟨frame, _, rfl, held⟩
    · rw [if_neg isLeaf] at found ⊢
      simp only [run_bind, run_unpinPage]
      exact ih released (exist.2 (by simpa using isLeaf)) found

/-- `GetValue` on a stored tree, over an ideal disk and in a pool that can load one page:
exactly the RIDs of the entries with the key, in leaf order, and all pages and pins as
they were. -/
theorem getValue_returns_ridsWith (ready : pool.LoadsPage pages pins) {height fuel : Nat}
    (stores : Stores pages height tree.rootPageId entries) (enough : height < fuel) (key : Int)
    (result : List RID) :
    ∃ after, run (tree.getValue fuel key result) pool =
        ((some (!(ridsWith entries key).isEmpty, ridsWith entries key), tree.relatched), after) ∧
      after.ShowsPages pages pins := by
  obtain ⟨exist, leaf, leafEntries, link, found, wellFormed, same⟩ := stores.exists_leaf key enough
  obtain ⟨frame, middle, ends, held⟩ := run_descend_loads ready exist found
  obtain ⟨named, read⟩ := held.pageAt_eq List.mem_cons_self
  have exists_root : tree.rootPageId ≠ -1 := by
    obtain ⟨fuel, rfl⟩ := Nat.exists_eq_add_of_lt enough
    exact BPlusTree.exists_root exist.1
  have released := @BufferPool.ShowsPages.unpinPage _ _ _ _ false held (by simp)
  dsimp only at named read released
  refine ⟨_, ?_, released⟩
  simp only [getValue, guarded, run_bind, run_pure, if_neg exists_root, findLeafPage, ends, run_getData,
    read, run_getPageId, named, run_unpinPage, wellFormed.collect_eq, same]

/-- The bytes of a node with these separators and children. -/
def nodePageOf (separators children : List Int) : Bytes :=
  layOut Bytes.zeros 0 (0 :: separators.length :: (separators ++ 0 :: children))

theorem nodePage_nodePageOf {separators children : List Int}
    (ints : ∀ value ∈ (0 : Int) :: separators.length :: (separators ++ 0 :: children), IsInt value)
    (count : children.length = separators.length + 1) (fits : separators.length ≤ 510) :
    NodePage (nodePageOf separators children) separators children := by
  have image := @segment_layOut Bytes.zeros _ 0 ints
  rw [segment_cons, segment_cons, segment_append, segment_cons] at image
  obtain ⟨kind, size, keysAt, -, childrenAt⟩ := image
  refine ⟨?_, size, keysAt, ?_, count, fits⟩
  · have kindAt : intAt (nodePageOf separators children) 0 = 0 := kind
    simp [isLeaf, kindAt]
  · rwa [show 0 + 1 + 1 + separators.length + 1 = 3 + separators.length by omega] at childrenAt

/-- A node over two leaves on the pages 1 and 2. -/
def threePages (pageId : Int) : Bytes :=
  if pageId = 0 then nodePageOf [5] [1, 2]
  else if pageId = 1 then leafPageOf [(1, twice 1), (3, twice 3)] 2
  else leafPageOf [(5, twice 5), (5, twice 6), (8, twice 8)] (-1)

/-- The entries of the two leaves. -/
def threePagesEntries : List Entry :=
  [(1, twice 1), (3, twice 3), (5, twice 5), (5, twice 6), (8, twice 8)]

def threePagesShown : Pages :=
  { nextPageId := 3, contents := (IdealDisk.start 3 threePages).bytes }

theorem stores_threePages : Stores threePagesShown 1 0 threePagesEntries := by
  have first : Stores threePagesShown 0 1 [(1, twice 1), (3, twice 3)] :=
    .leaf (by decide) (wellFormed_leafPageOf (by decide) (by decide) (by decide))
  have second : Stores threePagesShown 0 2 [(5, twice 5), (5, twice 6), (8, twice 8)] :=
    .leaf (by decide) (wellFormed_leafPageOf (by decide) (by decide) (by decide))
  refine @Stores.node _ 0 0 [5] [1, 2]
    [[(1, twice 1), (3, twice 3)], [(5, twice 5), (5, twice 6), (8, twice 8)]] (by decide)
    (nodePage_nodePageOf (by decide) rfl (by decide)) rfl ?_ (by unfold Separates; decide)
  intro i isChild _
  match i, isChild with
  | 0, _ => exact first
  | 1, _ => exact second

/-- A tree whose root is the node. -/
def treeOverThree : BPlusTree := { leafMaxSize := 4, internalMaxSize := 4, rootPageId := 0 }

/-- The key 5, which is also the separator, in a pool of one frame. -/
theorem getValue_returns_ridsWith_five :
    ∃ after, run (treeOverThree.getValue 2 5 []) (.new 1 (IdealDisk.start 3 threePages) .noop) =
        ((some (true, [twice 5, twice 6]), treeOverThree.relatched), after) ∧
      after.ShowsPages threePagesShown [] := by
  have ready : (BufferPool.new 1 (IdealDisk.start 3 threePages) .noop).LoadsPage threePagesShown [] := by
    refine ⟨showsPages_new 1 3 threePages, BufferPool.tidy_new _ _, fun all => ?_⟩
    obtain ⟨page, held, -⟩ := all 0 (by decide)
    cases held
  exact @getValue_returns_ridsWith _ treeOverThree _ _ _ ready 1 2 stores_threePages (by decide) 5 []

end BPlusTree

end MiniDB.Index
