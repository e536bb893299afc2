import MiniDB.Buffer.Resident
import MiniDB.Foundation.Refinement
import MiniDB.Index.BPlusTree

/-!
# The tree as a multimap

The abstract index is the list of its entries in the order of insertion.
`InsertIntoLeaf` and the readers of a leaf disagree on where the RIDs of a leaf
start, so the tree is this multimap as long as `Insert` finds it empty.
-/

namespace MiniDB.Index

open Foundation Buffer PoolProgram Storage

/-- Keys with their RIDs, in the order of insertion. -/
abbrev Multimap := List (Int × RID)

/-- The RIDs under a key, in the order of insertion. -/
def Multimap.ridsOf (entries : Multimap) (key : Int) : List RID :=
  (entries.filter fun entry => entry.1 = key).map Prod.snd

/-- The calls on a tree, on `int` keys and RIDs of `int`s. -/
inductive TreeCall where
  | insert (key : Int) (rid : RID) (keyInt : IsInt key) (ridInt : rid.IsInt)
  | remove (key : Int) (keyInt : IsInt key)
  | getValue (key : Int) (keyInt : IsInt key) (result : List RID)

/-- The answers; `unfinished` is a call that did not return. -/
inductive TreeAnswer where
  | inserted (success : Bool)
  | removed (success : Bool)
  | found (success : Bool) (result : List RID)
  | unfinished
deriving DecidableEq, Repr

/-- What a multimap may answer, and its entries afterwards. `Remove` takes one
entry of the key, no matter which. -/
inductive Multimap.Allows : Multimap → TreeCall → TreeAnswer → Multimap → Prop where
  | insert {entries : Multimap} {key : Int} {rid : RID} {keyInt : IsInt key} {ridInt : rid.IsInt}
      {success : Bool} :
      Allows entries (.insert key rid keyInt ridInt) (.inserted success) (entries ++ [(key, rid)])
  | removePresent {entries : Multimap} {key : Int} {keyInt : IsInt key} (front : Multimap)
      (rid : RID) (back : Multimap) (split : entries = front ++ (key, rid) :: back) :
      Allows entries (.remove key keyInt) (.removed true) (front ++ back)
  | removeAbsent {entries : Multimap} {key : Int} {keyInt : IsInt key}
      (absent : entries.ridsOf key = []) :
      Allows entries (.remove key keyInt) (.removed false) entries
  | getPresent {entries : Multimap} {key : Int} {keyInt : IsInt key} {result : List RID}
      (present : entries.ridsOf key ≠ []) :
      Allows entries (.getValue key keyInt result) (.found true (entries.ridsOf key)) entries
  | getAbsent {entries : Multimap} {key : Int} {keyInt : IsInt key} {result left : List RID}
      (absent : entries.ridsOf key = []) :
      Allows entries (.getValue key keyInt result) (.found false left) entries

theorem Multimap.Allows.found_eq {entries next : Multimap} {key : Int} {keyInt : IsInt key}
    {result rids : List RID} {answer : TreeAnswer}
    (allows : entries.Allows (.getValue key keyInt result) answer next)
    (found : answer = .found true rids) : rids = entries.ridsOf key := by
  subst found
  cases allows
  rfl

/-! ## A leaf with one entry -/

theorem intAt_setInt_self {data : Bytes} {index value : Int} (isInt : IsInt value) :
    intAt (setInt data index value) index = value :=
  Bytes.readInt_writeInt isInt

theorem intAt_setInt_of_ne {data : Bytes} {index other value : Int} (indexNonneg : 0 ≤ index)
    (otherNonneg : 0 ≤ other) (different : other ≠ index) :
    intAt (setInt data index value) other = intAt data other :=
  Bytes.readInt_writeInt_of_disjoint (by omega)

/-- The search in a node with one key. -/
theorem binarySearch_of_size_one {data : Bytes} (size : intAt data 1 = 1) (key : Int) :
    binarySearch data key = if intAt data 2 ≤ key then 1 else 0 := by
  have keyAt : intAt data (2 + Int.tdiv (0 + 1) 2) = intAt data 2 := rfl
  simp only [binarySearch, size, Int.toNat_one, search, Int.zero_lt_one, if_true, keyAt]
  rfl

theorem isInt_intAt (data : Bytes) (index : Int) : IsInt (intAt data index) :=
  Bytes.readInt_range data _

theorem intAt_zeros (index : Int) : intAt Bytes.zeros index = 0 := rfl

/-- The page is a leaf with one entry. -/
structure SingleLeaf (data : Bytes) (key : Int) (rid : RID) : Prop where
  leaf : intAt data 0 = 1
  size : intAt data 1 = 1
  key : intAt data 2 = key
  pageId : intAt data 3 = rid.pageId
  slotNum : intAt data 4 = rid.slotNum

theorem singleLeaf_rootLeaf (data : Bytes) {key : Int} {rid : RID} (keyInt : IsInt key)
    (ridInt : rid.IsInt) : SingleLeaf (rootLeaf data key rid) key rid := by
  obtain ⟨pageInt, slotInt⟩ := ridInt
  constructor
  all_goals
    simp (disch := first | assumption | decide) only [rootLeaf, intAt_setInt_self,
      intAt_setInt_of_ne]

namespace SingleLeaf

variable {data : Bytes} {key : Int} {rid : RID}

theorem ridAt_eq (single : SingleLeaf data key rid) : ridAt data 1 0 = rid := by
  have pageId := single.pageId
  have slotNum := single.slotNum
  exact congrArg₂ RID.mk pageId slotNum

theorem binarySearch_eq (single : SingleLeaf data key rid) (target : Int) :
    binarySearch data target = if key ≤ target then 1 else 0 := by
  rw [binarySearch_of_size_one single.size, single.key]

/-- The RIDs collected for a key are those of the one entry. -/
theorem collect_eq (single : SingleLeaf data key rid) (target : Int) :
    collect data target = Multimap.ridsOf [(key, rid)] target := by
  simp only [collect, single.size, single.binarySearch_eq]
  rcases Int.lt_trichotomy key target with below | same | above
  · rw [if_pos (Int.le_of_lt below)]
    simp [matchesAbove, matchesBelow, Multimap.ridsOf, Int.ne_of_lt below, single.key]
  · subst same
    rw [if_pos (Int.le_refl key)]
    simp [matchesAbove, matchesBelow, Multimap.ridsOf, single.key, single.ridAt_eq]
  · rw [if_neg (Int.not_le.mpr above)]
    simp [matchesAbove, matchesBelow, Multimap.ridsOf, Int.ne_of_gt above, single.key]

/-- The test with which `Remove` looks for the key. -/
theorem absent_iff (single : SingleLeaf data key rid) (target : Int) :
    (binarySearch data target = 0 ∨ intAt data (2 + binarySearch data target - 1) ≠ target) ↔
      key ≠ target := by
  rw [single.binarySearch_eq]
  split
  · next upTo =>
    rw [show (2 + 1 - 1 : Int) = 2 from rfl, single.key]
    simp
  · next above =>
    have different : key ≠ target := by omega
    simp [different]

/-- Taking the one entry out leaves an empty leaf. -/
theorem removeFromLeaf_empty (single : SingleLeaf data key rid) :
    isLeaf (removeFromLeaf data 0) = true ∧ intAt (removeFromLeaf data 0) 1 = 0 := by
  have same : removeFromLeaf data 0 = setInt data 1 0 := by
    simp [removeFromLeaf, single.size, closeGap]
  rw [same, isLeaf, intAt_setInt_of_ne (by decide) (by decide) (by decide), single.leaf]
  exact ⟨rfl, intAt_setInt_self (by decide)⟩

end SingleLeaf

/-- A tree and its pool. -/
structure TreeState where
  tree : BPlusTree
  pool : BufferPool DiskManager

namespace TreeState

/-- An empty tree on a pool. -/
def start (leafMaxSize internalMaxSize : Int) (pool : BufferPool DiskManager) : TreeState :=
  { tree := { leafMaxSize, internalMaxSize }, pool }

/-- The state after a program, with its answer put in words. -/
def after {Result : Type} (outcome : (Option Result × BPlusTree) × BufferPool DiskManager)
    (answer : Result → TreeAnswer) : TreeAnswer × TreeState :=
  ((outcome.1.1.map answer).getD .unfinished, { tree := outcome.1.2, pool := outcome.2 })

/-- One call, with fuel for the descent. -/
def step (fuel : Nat) (state : TreeState) : TreeCall → TreeAnswer × TreeState
  | .insert key rid _ _ =>
    after (run (state.tree.insert fuel key rid) state.pool) .inserted
  | .remove key _ => after (run (state.tree.remove fuel key) state.pool) .removed
  | .getValue key _ result =>
    after (run (state.tree.getValue fuel key result) state.pool) fun found =>
      .found found.1 found.2

/-- The condition on a call: `Insert` finds the tree empty and the pool with a
null frame for its root. -/
def FindsEmpty (state : TreeState) : TreeCall → Prop
  | .insert _ _ _ _ => state.tree.rootPageId = -1 ∧ state.pool.findFree ≠ none
  | _ => True

instance (state : TreeState) (call : TreeCall) : Decidable (state.FindsEmpty call) :=
  match call with
  | .insert _ _ _ _ => inferInstanceAs (Decidable (_ ∧ _))
  | .remove _ _ => inferInstanceAs (Decidable True)
  | .getValue _ _ _ => inferInstanceAs (Decidable True)

/-- The root is missing, or a resident leaf with the one entry. -/
inductive Represents (state : TreeState) : Multimap → Prop where
  | empty (settled : state.pool.frames.Settled) (noRoot : state.tree.rootPageId = -1) :
      Represents state []
  | single {key : Int} {rid : RID} {data : Bytes} (settled : state.pool.frames.Settled)
      (resident : state.pool.frames.contents state.tree.rootPageId = some data)
      (single : SingleLeaf data key rid) : Represents state [(key, rid)]

end TreeState

/-! ## The operations on such a tree -/

namespace BPlusTree

variable {pool base : BufferPool DiskManager} {tree : BPlusTree} {frame : Nat} {page : Page}

@[simp] theorem run_guarded {Result : Type}
    (body : BPlusTree → PoolProgram (Result × BPlusTree)) :
    run (guarded body tree) pool =
      let outcome := run (body { tree with latch := tree.latch.lock }) pool
      ((outcome.1.1, { outcome.1.2 with latch := outcome.1.2.latch.unlock }), outcome.2) := by
  simp [guarded]

/-- The descent ends at the root, a leaf, which is then pinned in its frame. -/
structure ReachesRoot (tree : BPlusTree) (pool : BufferPool DiskManager) (frame : Nat)
    (page : Page) : Prop where
  exists_root : tree.rootPageId ≠ -1
  found : pool.frames.pageTable.lookup tree.rootPageId = some frame
  sameId : page.pageId = tree.rootPageId
  pinned : page.pinCount ≠ 0
  here : pool.OnPage frame page (pool.fetchPage tree.rootPageId).2
  descent : ∀ (latch : Mutex) (fuel : Nat) (key : Int) (leftMost : Bool),
    run (findLeafPage { tree with latch } (fuel + 1) key leftMost) pool =
      (.leaf frame, (pool.fetchPage tree.rootPageId).2)

variable {data : Bytes} {key : Int} {rid : RID}

theorem reachesRoot (settled : pool.frames.Settled)
    (resident : pool.frames.contents tree.rootPageId = some data)
    (single : SingleLeaf data key rid) :
    ∃ frame page, tree.ReachesRoot pool frame page ∧ page.data = data := by
  obtain ⟨frame, page, found, held, sameId, rfl⟩ := settled.agrees.of_contents resident
  obtain ⟨hit, here⟩ := (BufferPool.OnPage.start held).fetchPage found
  have exists_root : tree.rootPageId ≠ -1 := by
    have issued := settled.issued found
    omega
  have leaf : isLeaf page.data = true := by simp [isLeaf, single.leaf]
  refine ⟨frame, page.pin, ⟨exists_root, found, sameId, Nat.succ_ne_zero _, here, ?_⟩, rfl⟩
  intro latch fuel key leftMost
  simp only [findLeafPage, if_neg exists_root, descend, run_bind, run_fetchPage, hit,
    run_getData, here.pageAt_eq, Page.pin_data, leaf, if_true, run_pure]

/-- The root is released unchanged. -/
theorem ReachesRoot.release {frame : Nat} {page : Page} (root : tree.ReachesRoot pool frame page)
    (settled : pool.frames.Settled)
    (resident : pool.frames.contents tree.rootPageId = some page.data) :
    let after := ((pool.fetchPage tree.rootPageId).2.unpinPage tree.rootPageId false).2
    after.frames.Settled ∧ after.frames.contents = pool.frames.contents := by
  have done := (root.here.unpinPage root.found root.pinned false).2
  obtain ⟨settledAfter, contentsAfter⟩ := done.settled settled root.found (by simp [root.sameId])
  rw [BufferPool.released_data, ← resident, Function.update_eq_self] at contentsAfter
  exact ⟨settledAfter, contentsAfter⟩

/-- `GetValue` on a tree of one entry. -/
theorem run_getValue (settled : pool.frames.Settled)
    (resident : pool.frames.contents tree.rootPageId = some data)
    (single : SingleLeaf data key rid) (fuel : Nat) (target : Int) (result : List RID) :
    let outcome := run (tree.getValue (fuel + 1) target result) pool
    let rids := Multimap.ridsOf [(key, rid)] target
    outcome.1.1 = some (!rids.isEmpty, rids) ∧ outcome.1.2.rootPageId = tree.rootPageId ∧
      outcome.2.frames.Settled ∧ outcome.2.frames.contents = pool.frames.contents := by
  obtain ⟨frame, page, root, rfl⟩ := reachesRoot settled resident single
  obtain ⟨settledAfter, contentsAfter⟩ := root.release settled resident
  simp only [getValue, run_guarded, if_neg root.exists_root, run_bind, root.descent, run_getData,
    run_getPageId, root.here.pageAt_eq, root.sameId, run_unpinPage, run_pure, single.collect_eq]
  exact ⟨trivial, trivial, settledAfter, contentsAfter⟩

/-- `Remove` of a key that the one entry does not have. -/
theorem run_remove_absent (settled : pool.frames.Settled)
    (resident : pool.frames.contents tree.rootPageId = some data)
    (single : SingleLeaf data key rid) (fuel : Nat) {target : Int} (different : key ≠ target) :
    let outcome := run (tree.remove (fuel + 1) target) pool
    outcome.1.1 = some false ∧ outcome.1.2.rootPageId = tree.rootPageId ∧
      outcome.2.frames.Settled ∧ outcome.2.frames.contents = pool.frames.contents := by
  obtain ⟨frame, page, root, rfl⟩ := reachesRoot settled resident single
  obtain ⟨settledAfter, contentsAfter⟩ := root.release settled resident
  have absent := (single.absent_iff target).mpr different
  simp only [remove, run_guarded, if_neg root.exists_root, run_bind, root.descent, run_getData,
    root.here.pageAt_eq, if_pos absent, run_getPageId, root.sameId, run_unpinPage, run_pure]
  exact ⟨trivial, trivial, settledAfter, contentsAfter⟩

/-- `Remove` of the key of the one entry leaves the tree without a root; its page
is pinned, so it is not deleted. -/
theorem run_remove_present (settled : pool.frames.Settled)
    (resident : pool.frames.contents tree.rootPageId = some data)
    (single : SingleLeaf data key rid) (fuel : Nat) :
    let outcome := run (tree.remove (fuel + 1) key) pool
    outcome.1.1 = some true ∧ outcome.1.2.rootPageId = -1 ∧ outcome.2.frames.Settled := by
  obtain ⟨frame, page, root, rfl⟩ := reachesRoot settled resident single
  have present : ¬ (binarySearch page.data key = 0 ∨
      intAt page.data (2 + binarySearch page.data key - 1) ≠ key) := by
    simp [single.absent_iff key]
  have pos : binarySearch page.data key - 1 = 0 := by
    rw [single.binarySearch_eq, if_pos (Int.le_refl key)]
    rfl
  obtain ⟨leaf, size⟩ := single.removeFromLeaf_empty
  have written := root.here.modifyPage fun held => held.setData (removeFromLeaf page.data 0)
  have marked := written.modifyPage fun held => held.setDirty true
  have kept := marked.deletePage root.found root.pinned
  have done := (kept.unpinPage root.found root.pinned true).2
  have settledAfter := (done.settled settled root.found (by simp [root.sameId])).1
  simp only [remove, run_guarded, if_neg root.exists_root, run_bind, root.descent, run_getData,
    root.here.pageAt_eq, if_neg present, pos, run_putData, run_setDirty, coalesceOrRedistribute,
    adjustRoot, run_getPageId, marked.pageAt_eq, kept.pageAt_eq, Page.setDirty_pageId,
    Page.setData_pageId, Page.setDirty_data, Page.setData_data, root.sameId, size, leaf, if_true,
    run_deletePage, run_unpinPage, run_pure]
  exact ⟨trivial, trivial, settledAfter⟩

/-- `Insert` into an empty tree, with a null frame for the root. -/
theorem run_insert_empty (settled : pool.frames.Settled) (noRoot : tree.rootPageId = -1)
    (free : pool.findFree ≠ none) (keyInt : IsInt key) (ridInt : rid.IsInt) (fuel : Nat) :
    let outcome := run (tree.insert fuel key rid) pool
    outcome.1.1 = some true ∧ outcome.2.frames.Settled ∧
      ∃ data, outcome.2.frames.contents outcome.1.2.rootPageId = some data ∧
        SingleLeaf data key rid := by
  obtain ⟨frame, foundFree⟩ := Option.ne_none_iff_exists'.mp free
  have served := (BufferPool.newPage_of_findFree foundFree).1
  obtain ⟨page, fresh⟩ := BufferPool.newPage_fresh settled served
  have here := BufferPool.OnPage.start fresh.held
  have pinned : page.pinCount ≠ 0 := by simp [fresh.pinned]
  have written := here.modifyPage fun held => held.setData (rootLeaf page.data key rid)
  have marked := written.modifyPage fun held => held.setDirty true
  have done := (marked.unpinPage fresh.found pinned true).2
  obtain ⟨settledAfter, contentsAfter⟩ :=
    done.settled fresh.settled fresh.found (by simp [fresh.sameId])
  simp only [insert, run_guarded, noRoot, if_true, insertRoot, run_bind, run_newPage, served,
    run_getData, here.pageAt_eq, run_putData, run_setDirty, run_unpinPage, run_pure]
  refine ⟨trivial, settledAfter, rootLeaf page.data key rid, ?_,
    singleLeaf_rootLeaf page.data keyInt ridInt⟩
  rw [contentsAfter, Function.update_self]
  simp

end BPlusTree

/-! ## Runs of the tree -/

namespace TreeState

variable {entries : Multimap} {state : TreeState}

theorem simulates_insert (fuel : Nat) {key : Int} {rid : RID} (keyInt : IsInt key)
    (ridInt : rid.IsInt) (represents : state.Represents entries)
    (findsEmpty : state.FindsEmpty (.insert key rid keyInt ridInt)) :
    ∃ next, entries.Allows (.insert key rid keyInt ridInt)
        (state.step fuel (.insert key rid keyInt ridInt)).1 next ∧
      (state.step fuel (.insert key rid keyInt ridInt)).2.Represents next := by
  obtain ⟨noRoot, free⟩ := findsEmpty
  cases represents with
  | empty settled _ =>
    obtain ⟨answer, settledAfter, data, resident, single⟩ :=
      BPlusTree.run_insert_empty settled noRoot free keyInt ridInt fuel
    refine ⟨[(key, rid)], ?_, .single settledAfter resident single⟩
    simp only [step, after, answer]
    exact .insert
  | single settled resident single =>
    obtain ⟨_, _, root, -⟩ := BPlusTree.reachesRoot settled resident single
    exact absurd noRoot root.exists_root

theorem simulates_remove (fuel : Nat) {key : Int} (keyInt : IsInt key)
    (represents : state.Represents entries) :
    ∃ next, entries.Allows (.remove key keyInt)
        (state.step (fuel + 1) (.remove key keyInt)).1 next ∧
      (state.step (fuel + 1) (.remove key keyInt)).2.Represents next := by
  cases represents with
  | empty settled noRoot =>
    refine ⟨[], ?_, .empty ?_ ?_⟩
    all_goals simp only [step, after, BPlusTree.remove, BPlusTree.run_guarded, noRoot, if_true,
      run_pure]
    · exact .removeAbsent rfl
    · exact settled
  | @single present rid data settled resident single =>
    by_cases same : present = key
    · subst same
      obtain ⟨answer, noRoot, settledAfter⟩ :=
        BPlusTree.run_remove_present settled resident single fuel
      refine ⟨[], ?_, .empty settledAfter noRoot⟩
      simp only [step, after, answer]
      exact .removePresent [] rid [] rfl
    · obtain ⟨answer, root, settledAfter, contents⟩ :=
        BPlusTree.run_remove_absent settled resident single fuel same
      refine ⟨[(present, rid)], ?_, .single settledAfter ?_ single⟩
      · simp only [step, after, answer]
        exact .removeAbsent (by simp [Multimap.ridsOf, same])
      · simp only [step, after, root, contents]
        exact resident

theorem simulates_getValue (fuel : Nat) {key : Int} (keyInt : IsInt key) (result : List RID)
    (represents : state.Represents entries) :
    ∃ next, entries.Allows (.getValue key keyInt result)
        (state.step (fuel + 1) (.getValue key keyInt result)).1 next ∧
      (state.step (fuel + 1) (.getValue key keyInt result)).2.Represents next := by
  cases represents with
  | empty settled noRoot =>
    refine ⟨[], ?_, .empty ?_ ?_⟩
    all_goals simp only [step, after, BPlusTree.getValue, BPlusTree.run_guarded, noRoot, if_true,
      run_pure]
    · exact .getAbsent rfl
    · exact settled
  | @single present rid data settled resident single =>
    obtain ⟨answer, root, settledAfter, contents⟩ :=
      BPlusTree.run_getValue settled resident single fuel key result
    refine ⟨[(present, rid)], ?_, .single settledAfter ?_ single⟩
    · simp only [step, after, answer]
      by_cases absent : Multimap.ridsOf [(present, rid)] key = []
      · rw [absent]
        exact .getAbsent absent
      · rw [List.isEmpty_eq_false_iff.mpr absent]
        exact .getPresent absent
    · simp only [step, after, root, contents]
      exact resident

/-- One call on a tree that meets the condition is a call on the multimap. -/
theorem simulates (fuel : Nat) (entries : Multimap) (state : TreeState) (call : TreeCall)
    (represents : state.Represents entries) (findsEmpty : state.FindsEmpty call) :
    ∃ next, entries.Allows call (state.step (fuel + 1) call).1 next ∧
      (state.step (fuel + 1) call).2.Represents next := by
  cases call with
  | insert key rid keyInt ridInt =>
    exact simulates_insert (fuel + 1) keyInt ridInt represents findsEmpty
  | remove key keyInt => exact simulates_remove fuel keyInt represents
  | getValue key keyInt result => exact simulates_getValue fuel keyInt result represents

/-- Along any run in which every `Insert` finds the tree empty, the tree answers
as the multimap does. -/
theorem conforms_of_findsEmpty (leafMaxSize internalMaxSize : Int)
    (pool : BufferPool DiskManager) (settled : pool.frames.Settled) (fuel : Nat)
    (calls : List TreeCall)
    (findsEmpty : EachCall (fun state call => (step (fuel + 1) state call).2) FindsEmpty
      (start leafMaxSize internalMaxSize pool) calls) :
    Conforms Multimap.Allows (step (fuel + 1)) [] (start leafMaxSize internalMaxSize pool) calls :=
  conforms_of_simulation (simulates fuel) (.empty settled rfl) findsEmpty

/-- An entry is inserted, found, removed, and the next one inserted. -/
theorem conforms_one_by_one :
    Conforms Multimap.Allows (step 1) []
      (start 50 25 (BufferPool.new 20 (DiskManager.new (some {}))))
      [.insert 10 { pageId := 1, slotNum := 1 } (by decide) (by decide),
        .getValue 10 (by decide) [], .remove 10 (by decide),
        .insert 20 { pageId := 2, slotNum := 2 } (by decide) (by decide),
        .getValue 10 (by decide) []] :=
  conforms_of_findsEmpty 50 25 _ (Frames.settled_empty _ (by decide)) 0 _ (by decide +kernel)

/-- Two entries as the integration test inserts them: the first then has a wrong
slot number. -/
theorem second_entry_displaces_first :
    ¬ Conforms Multimap.Allows (step 1) []
      (start 50 25 (BufferPool.new 20 (DiskManager.new (some {}))))
      [.insert 10 { pageId := 1, slotNum := 1 } (by decide) (by decide),
        .insert 20 { pageId := 2, slotNum := 2 } (by decide) (by decide),
        .getValue 10 (by decide) []] := by
  rintro ⟨first, inserted, second, insertedToo, third, found, -⟩
  cases inserted
  cases insertedToo
  have answer : (step 1 (Foundation.run (fun state call => (step 1 state call).2)
      (start 50 25 (BufferPool.new 20 (DiskManager.new (some {}))))
      [.insert 10 { pageId := 1, slotNum := 1 } (by decide) (by decide),
        .insert 20 { pageId := 2, slotNum := 2 } (by decide) (by decide)])
      (.getValue 10 (by decide) [])).1 = .found true [{ pageId := 1, slotNum := 2 }] := by
    decide +kernel
  have wrong := found.found_eq answer
  revert wrong
  decide

end TreeState

end MiniDB.Index
