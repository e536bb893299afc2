import MiniDB.Foundation.Run
import MiniDB.Index.LeafPages
import MiniDB.Index.TreePages

/-!
# The leaves of a tree and their chain

The leaves of a tree are met by a walk through the child pointers and by following
the next pointers; the two have to agree. The next pointer of a leaf lies behind
its RIDs, and `InsertIntoLeaf` does not move it when the leaf grows, so the two
agree as long as `Insert` finds the tree empty.
-/

namespace MiniDB.Index

open Foundation Buffer PoolProgram Storage

/-- The next pointer of a leaf, as `IndexIterator` reads it. -/
def nextOf (data : Bytes) : Int := intAt data (2 + intAt data 1 + intAt data 1 * 2)

/-- The children of an internal node, as `FindLeafPage` reads them. -/
def childrenOf (data : Bytes) : List Int :=
  (List.range (intAt data 1 + 1).toNat).map fun index : Nat =>
    intAt data (2 + intAt data 1 + 1 + index)

/-- The leaves under a page in the order of the walk. -/
def walk (contents : Int → Option Bytes) : (fuel : Nat) → Int → Option (List Int)
  | 0, _ => none
  | fuel + 1, pageId => do
    let data ← contents pageId
    if isLeaf data then
      return [pageId]
    else
      let leaves ← (childrenOf data).mapM (walk contents fuel)
      return leaves.flatten

/-- The leaves from a leaf on, up to a next pointer of -1. -/
def chain (contents : Int → Option Bytes) : (fuel : Nat) → Int → Option (List Int)
  | 0, _ => none
  | fuel + 1, pageId =>
    if pageId = -1 then
      return []
    else do
      let data ← contents pageId
      let rest ← chain contents fuel (nextOf data)
      return pageId :: rest

/-- A chain with no leaf has ended where it starts. -/
theorem eq_of_chain_nil {contents : Int → Option Bytes} {fuel : Nat} {pageId : Int}
    (ended : chain contents fuel pageId = some []) : pageId = -1 := by
  cases fuel with
  | zero => cases ended
  | succ fuel =>
    by_contra goesOn
    simp only [chain, if_neg goesOn, Option.bind_eq_bind, Option.pure_def,
      Option.bind_eq_some_iff] at ended
    obtain ⟨data, -, rest, -, same⟩ := ended
    cases same

/-- A tree on its pool, and the pages that `SplitLeafPage` made leaves. -/
structure SplitTree extends TreeState where
  splitPages : List Int := []

namespace SplitTree

/-- The leaves of the tree. -/
def leaves (state : SplitTree) (fuel : Nat) : Option (List Int) :=
  if state.tree.rootPageId = -1 then some []
  else walk state.pool.frames.contents fuel state.tree.rootPageId

/-- The walk through the tree and the chain from its first leaf meet the same leaves
in the same order, and those that came from a split are among them. -/
def Linked (state : SplitTree) : Prop :=
  ∃ fuel leaves, state.leaves fuel = some leaves ∧
    (∃ chainFuel,
      chain state.pool.frames.contents chainFuel (leaves.headD (-1)) = some leaves) ∧
    ∀ pageId ∈ state.splitPages, pageId ∈ leaves

/-- The page that a call gives to `SplitLeafPage`: the first one that `Insert` obtains
for a tree that has a root. -/
def splitPage (before : TreeState) (call : TreeCall) (after : TreeState) : List Int :=
  match call with
  | .insert _ _ _ _ =>
    if before.tree.rootPageId ≠ -1 ∧
        before.pool.frames.disk.nextPageId < after.pool.frames.disk.nextPageId then
      [before.pool.frames.disk.nextPageId]
    else []
  | _ => []

/-- One call, with fuel for the descent. -/
def step (fuel : Nat) (state : SplitTree) (call : TreeCall) : SplitTree :=
  let next := (state.toTreeState.step fuel call).2
  { next with splitPages := state.splitPages ++ splitPage state.toTreeState call next }

/-- The call returns: it did not get stuck for want of a frame. -/
def Returns (fuel : Nat) (state : SplitTree) (call : TreeCall) : Prop :=
  ¬ IsStuck (state.step fuel call).pool.mutexes

instance (fuel : Nat) (state : SplitTree) (call : TreeCall) : Decidable (state.Returns fuel call) :=
  inferInstanceAs (Decidable (¬ IsStuck _))

/-- The condition on a call: `Insert` finds the tree empty. -/
def InsertsRoot (state : SplitTree) : TreeCall → Prop
  | .insert _ _ _ _ => state.tree.rootPageId = -1
  | _ => True

instance (state : SplitTree) (call : TreeCall) : Decidable (state.InsertsRoot call) :=
  match call with
  | .insert _ _ _ _ => inferInstanceAs (Decidable (_ = _))
  | .remove _ _ | .getValue _ _ _ => inferInstanceAs (Decidable True)

/-- A tree of one leaf is linked when the leaf has no next one. -/
theorem linked_leaf_iff {state : SplitTree} {data : Bytes}
    (isRoot : state.tree.rootPageId ≠ -1)
    (resident : state.pool.frames.contents state.tree.rootPageId = some data)
    (leafPage : isLeaf data = true) :
    state.Linked ↔
      nextOf data = -1 ∧ ∀ pageId ∈ state.splitPages, pageId = state.tree.rootPageId := by
  have walks : ∀ fuel, walk state.pool.frames.contents (fuel + 1) state.tree.rootPageId =
      some [state.tree.rootPageId] := by
    intro fuel
    simp only [walk, resident, Option.bind_eq_bind, Option.bind_some, leafPage, if_true]
    rfl
  have follows : ∀ fuel, chain state.pool.frames.contents (fuel + 1) state.tree.rootPageId =
      (chain state.pool.frames.contents fuel (nextOf data)).map
        fun rest => state.tree.rootPageId :: rest := by
    intro fuel
    simp only [chain, if_neg isRoot, resident, Option.bind_eq_bind, Option.bind_some]
    exact (Option.map_eq_bind ..).symm
  constructor
  · rintro ⟨fuel, leaves, walked, ⟨chainFuel, followed⟩, split⟩
    rw [SplitTree.leaves, if_neg isRoot] at walked
    cases fuel with
    | zero => cases walked
    | succ fuel =>
      obtain rfl := Option.some.inj ((walks fuel).symm.trans walked)
      refine ⟨?_, fun pageId member => List.mem_singleton.mp (split pageId member)⟩
      cases chainFuel with
      | zero => cases followed
      | succ chainFuel =>
        rw [List.headD_cons, follows] at followed
        obtain ⟨rest, ended, same⟩ := Option.map_eq_some_iff.mp followed
        obtain ⟨-, rfl⟩ := List.cons.inj same
        exact eq_of_chain_nil ended
  · rintro ⟨last, split⟩
    refine ⟨1, [state.tree.rootPageId], ?_, ⟨2, ?_⟩,
      fun pageId member => List.mem_singleton.mpr (split pageId member)⟩
    · rw [SplitTree.leaves, if_neg isRoot, walks 0]
    · rw [List.headD_cons, follows 1, last]
      rfl

/-! ## The leaf of one entry -/

/-- The tree has no root, or its root is the leaf that `Insert` makes for one entry. -/
structure Sound (state : SplitTree) : Prop where
  settled : state.pool.frames.Settled
  atRest : AtRest state.pool.mutexes
  noSplit : state.splitPages = []
  shape : state.tree.rootPageId = -1 ∨
    ∃ key rid, IsInt key ∧ rid.IsInt ∧
      state.pool.frames.contents state.tree.rootPageId = some (rootLeaf Bytes.zeros key rid)

variable {state : SplitTree}

theorem Sound.linked (sound : state.Sound) : state.Linked := by
  rcases sound.shape with noRoot | ⟨key, rid, keyInt, ridInt, resident⟩
  · refine ⟨0, [], by rw [leaves, if_pos noRoot], ⟨1, rfl⟩, ?_⟩
    rw [sound.noSplit]
    exact fun _ member => absurd member List.not_mem_nil
  · obtain ⟨frame, found⟩ := BufferPool.exists_frame sound.settled resident
    have issued := (sound.settled.issued found).1
    have single := singleLeaf_rootLeaf Bytes.zeros keyInt ridInt
    have leafPage : isLeaf (rootLeaf Bytes.zeros key rid) = true := by
      simp only [isLeaf, single.leaf, decide_true]
    refine (linked_leaf_iff (by omega) resident leafPage).mpr ⟨?_, ?_⟩
    · rw [nextOf, single.size]
      exact intAt_setInt_self (by decide)
    · rw [sound.noSplit]
      exact fun _ member => absurd member List.not_mem_nil

theorem Sound.insert (sound : state.Sound) (fuel : Nat) {key : Int} {rid : RID}
    {keyInt : IsInt key} {ridInt : rid.IsInt} (noRoot : state.tree.rootPageId = -1)
    (returns : state.Returns fuel (.insert key rid keyInt ridInt)) :
    (state.step fuel (.insert key rid keyInt ridInt)).Sound := by
  obtain ⟨finds, atRest⟩ :=
    BufferPool.returned (state.tree.insert fuel key rid) sound.atRest returns
  rw [BPlusTree.insert, BPlusTree.each_guarded] at finds
  simp only [noRoot, if_true, BPlusTree.insertRoot, each_bind] at finds
  obtain ⟨after, grows, becomes⟩ :=
    BPlusTree.run_insert_root sound.settled noRoot finds.1.1 fuel key rid
  rw [grows] at atRest
  simp only [step, TreeState.step, TreeState.after, splitPage, noRoot, ne_eq, not_true_eq_false,
    false_and, if_false, grows]
  refine ⟨becomes.settled, atRest, by simp [sound.noSplit], .inr ⟨key, rid, keyInt, ridInt, ?_⟩⟩
  rw [becomes.contents, Function.update_self]

theorem Sound.remove (sound : state.Sound) (fuel : Nat) {key : Int} {keyInt : IsInt key}
    (returns : state.Returns (fuel + 1) (.remove key keyInt)) :
    (state.step (fuel + 1) (.remove key keyInt)).Sound := by
  have atRest := (BufferPool.returned (state.tree.remove (fuel + 1) key) sound.atRest returns).2
  have noSplit : (state.step (fuel + 1) (.remove key keyInt)).splitPages = [] := by
    simp [step, splitPage, sound.noSplit]
  rcases sound.shape with noRoot | ⟨present, rid, presentInt, ridInt, resident⟩
  · have same : run (state.tree.remove (fuel + 1) key) state.pool =
        ((some false, state.tree.relatched), state.pool) := by
      simp only [BPlusTree.remove, BPlusTree.run_guarded, if_pos noRoot, run_pure]
    refine ⟨?_, atRest, noSplit, .inl ?_⟩
    all_goals simp only [step, TreeState.step, TreeState.after, same]
    · exact sound.settled
    · exact noRoot
  · have single := singleLeaf_rootLeaf Bytes.zeros presentInt ridInt
    by_cases same : present = key
    · subst same
      obtain ⟨-, noRoot, settled⟩ :=
        BPlusTree.run_remove_present sound.settled resident single fuel
      exact ⟨settled, atRest, noSplit, .inl noRoot⟩
    · obtain ⟨-, root, settled, contents⟩ :=
        BPlusTree.run_remove_absent sound.settled resident single fuel same
      refine ⟨settled, atRest, noSplit, .inr ⟨present, rid, presentInt, ridInt, ?_⟩⟩
      simp only [step, TreeState.step, TreeState.after, root, contents, resident]

theorem Sound.getValue (sound : state.Sound) (fuel : Nat) {key : Int} {keyInt : IsInt key}
    {result : List RID} (returns : state.Returns (fuel + 1) (.getValue key keyInt result)) :
    (state.step (fuel + 1) (.getValue key keyInt result)).Sound := by
  have atRest :=
    (BufferPool.returned (state.tree.getValue (fuel + 1) key result) sound.atRest returns).2
  have noSplit : (state.step (fuel + 1) (.getValue key keyInt result)).splitPages = [] := by
    simp [step, splitPage, sound.noSplit]
  rcases sound.shape with noRoot | ⟨present, rid, presentInt, ridInt, resident⟩
  · have same : run (state.tree.getValue (fuel + 1) key result) state.pool =
        ((some (false, result), state.tree.relatched), state.pool) := by
      simp only [BPlusTree.getValue, BPlusTree.run_guarded, if_pos noRoot, run_pure]
    refine ⟨?_, atRest, noSplit, .inl ?_⟩
    all_goals simp only [step, TreeState.step, TreeState.after, same]
    · exact sound.settled
    · exact noRoot
  · obtain ⟨-, root, settled, contents⟩ := BPlusTree.run_getValue sound.settled resident
      (singleLeaf_rootLeaf Bytes.zeros presentInt ridInt) fuel key result
    refine ⟨settled, atRest, noSplit, .inr ⟨present, rid, presentInt, ridInt, ?_⟩⟩
    simp only [step, TreeState.step, TreeState.after, root, contents, resident]

/-- A call that meets the condition leaves a tree of at most one entry. -/
theorem Sound.step (sound : state.Sound) (fuel : Nat) (call : TreeCall)
    (returns : state.Returns (fuel + 1) call) (insertsRoot : state.InsertsRoot call) :
    (state.step (fuel + 1) call).Sound := by
  cases call with
  | insert key rid keyInt ridInt => exact sound.insert (fuel + 1) insertsRoot returns
  | remove key keyInt => exact sound.remove fuel returns
  | getValue key keyInt result => exact sound.getValue fuel returns

/-! ## A second entry -/

/-- `InsertIntoLeaf` on a leaf of one entry writes nothing where the next pointer of
a leaf of two entries is. -/
theorem nextOf_insertIntoLeaf {data : Bytes} (size : intAt data 1 = 1) (key : Int) (rid : RID) :
    nextOf (insertIntoLeaf data key rid) = intAt data 8 := by
  have sizeAfter : intAt (insertIntoLeaf data key rid) 1 = 2 := by
    simp only [insertIntoLeaf, size]
    exact intAt_setInt_self (by decide)
  rw [nextOf, sizeAfter]
  simp only [insertIntoLeaf, size, binarySearch_of_size_one size, Int.toNat_one, makeRoom, setRid]
  split
  · rw [if_neg (by decide)]
    simp (disch := decide) only [intAt_setInt_of_ne]
    rfl
  · rw [if_pos (by decide)]
    simp (disch := decide) only [intAt_setInt_of_ne]
    rfl

/-- An `Insert` that finds an entry in the leaf leaves it with a next leaf of 0. -/
theorem Sound.not_linked_insert (sound : state.Sound) (fuel : Nat) {key : Int} {rid : RID}
    {keyInt : IsInt key} {ridInt : rid.IsInt} (isRoot : state.tree.rootPageId ≠ -1)
    (room : 2 ≤ state.tree.leafMaxSize) :
    ¬ (state.step (fuel + 1) (.insert key rid keyInt ridInt)).Linked := by
  obtain ⟨present, other, presentInt, otherInt, resident⟩ := sound.shape.resolve_left isRoot
  have single := singleLeaf_rootLeaf Bytes.zeros presentInt otherInt
  have leafPage := leafPage_rootLeaf Bytes.zeros present other
  have path : Path state.pool.frames.contents key false state.tree.rootPageId
      state.tree.rootPageId [state.tree.rootPageId] :=
    .leaf resident (by simp only [isLeaf, single.leaf, decide_true])
  obtain ⟨after, grows, becomes⟩ := BPlusTree.run_insert_room sound.settled path resident
    (show _ < state.tree.leafMaxSize by rw [single.size]; omega)
    (show [state.tree.rootPageId].length ≤ fuel + 1 by simp) rid
  intro linked
  simp only [SplitTree.step, TreeState.step, TreeState.after, grows] at linked
  have residentAfter : after.frames.contents state.tree.rootPageId =
      some (insertIntoLeaf (rootLeaf Bytes.zeros present other) key rid) := by
    rw [becomes.contents, Function.update_self]
  have grown : isLeaf (insertIntoLeaf (rootLeaf Bytes.zeros present other) key rid) = true := by
    have leaf := (leafPage.insertIntoLeaf (by rw [single.size]; decide) key rid).leaf
    simp only [isLeaf, leaf, decide_true]
  have zero : intAt (rootLeaf Bytes.zeros present other) 8 = 0 := by
    simp (disch := decide) only [rootLeaf, intAt_setInt_of_ne, intAt_zeros]
  have next := ((linked_leaf_iff (by exact isRoot) residentAfter grown).mp linked).1
  rw [nextOf_insertIntoLeaf single.size, zero] at next
  cases next

theorem leafMaxSize_step (state : SplitTree) (fuel : Nat) (call : TreeCall) :
    (state.step fuel call).tree.leafMaxSize = state.tree.leafMaxSize := by
  cases call with
  | insert key rid _ _ => exact BPlusTree.leafMaxSize_insert fuel key rid
  | remove key _ => exact BPlusTree.leafMaxSize_remove fuel key
  | getValue key _ result => exact BPlusTree.leafMaxSize_getValue fuel key result

/-- An empty tree on a pool. -/
def start (leafMaxSize internalMaxSize : Int) (pool : BufferPool DiskManager) : SplitTree :=
  { TreeState.start leafMaxSize internalMaxSize pool with }

/-- In every run whose calls return and in which every `Insert` finds the tree empty,
the leaves are linked in every state; with leaves of two entries and more, they are
in no other run. -/
theorem throughout_linked (leafMaxSize internalMaxSize : Int) (pool : BufferPool DiskManager)
    (settled : pool.frames.Settled) (atRest : AtRest pool.mutexes) (fuel : Nat)
    (calls : List TreeCall)
    (returns : EachCall (step (fuel + 1)) (Returns (fuel + 1))
      (start leafMaxSize internalMaxSize pool) calls) :
    (EachCall (step (fuel + 1)) InsertsRoot (start leafMaxSize internalMaxSize pool) calls →
        Throughout (step (fuel + 1)) Linked (start leafMaxSize internalMaxSize pool) calls) ∧
      (2 ≤ leafMaxSize →
        Throughout (step (fuel + 1)) Linked (start leafMaxSize internalMaxSize pool) calls →
        EachCall (step (fuel + 1)) InsertsRoot (start leafMaxSize internalMaxSize pool) calls) := by
  have initial : (start leafMaxSize internalMaxSize pool).Sound := ⟨settled, atRest, rfl, .inl rfl⟩
  constructor
  · intro insertsRoot
    refine (returns.and insertsRoot).throughout ?_ (fun _ sound => sound.linked) initial
    intro state call sound ⟨returns, insertsRoot⟩
    exact sound.step fuel call returns insertsRoot
  · intro room
    have exactStep : ∀ (state : SplitTree) (call : TreeCall),
        state.Sound ∧ 2 ≤ state.tree.leafMaxSize → state.Returns (fuel + 1) call →
        (state.step (fuel + 1) call).Linked → state.InsertsRoot call := by
      intro state call ⟨sound, room⟩ returns linked
      cases call with
      | insert key rid keyInt ridInt =>
        by_contra isRoot
        exact sound.not_linked_insert fuel isRoot room linked
      | remove key keyInt => trivial
      | getValue key keyInt result => trivial
    refine (@EachCall.throughout_iff _ _ _ _ _
      (fun state : SplitTree => state.Sound ∧ 2 ≤ state.tree.leafMaxSize) _ ?_ ?_ _ _
      ⟨initial, room⟩ initial.linked returns).mp
    · intro state call aux _ returns
      exact ⟨exactStep state call aux returns, fun insertsRoot =>
        (aux.1.step fuel call returns insertsRoot).linked⟩
    · intro state call aux _ returns linked
      exact ⟨aux.1.step fuel call returns (exactStep state call aux returns linked),
        leafMaxSize_step state _ call ▸ aux.2⟩

/-- An entry is inserted and removed, and the next one inserted. -/
theorem throughout_linked_one_by_one :
    Throughout (step 1) Linked (start 50 25 (BufferPool.new 20 (DiskManager.new (some {}))))
      [.insert 10 { pageId := 1, slotNum := 1 } (by decide) (by decide), .remove 20 (by decide),
        .remove 10 (by decide),
        .insert 20 { pageId := 2, slotNum := 2 } (by decide) (by decide)] :=
  (throughout_linked 50 25 _ (Frames.settled_empty _ (by decide)) (BufferPool.atRest_new 20 (some {}))
    0 _ (by decide +kernel)).1 (by decide +kernel)

/-- With a second entry the one leaf of the tree is its own next leaf. -/
theorem second_entry_unlinks :
    ¬ Throughout (step 1) Linked (start 50 25 (BufferPool.new 20 (DiskManager.new (some {}))))
      [.insert 10 { pageId := 1, slotNum := 1 } (by decide) (by decide),
        .insert 20 { pageId := 2, slotNum := 2 } (by decide) (by decide)] := by
  rintro ⟨-, -, linked⟩
  have initial : (start 50 25 (BufferPool.new 20 (DiskManager.new (some {})))).Sound :=
    ⟨Frames.settled_empty _ (by decide), BufferPool.atRest_new 20 (some {}), rfl, .inl rfl⟩
  have sound := @Sound.insert _ initial 1 10 { pageId := 1, slotNum := 1 } (by decide) (by decide)
    rfl (by decide +kernel)
  exact sound.not_linked_insert 0 (by decide +kernel) (by decide +kernel) linked

end SplitTree

end MiniDB.Index
