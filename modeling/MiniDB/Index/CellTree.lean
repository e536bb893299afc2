import MiniDB.Index.CellPrograms

/-!
# The tree, cell by cell

The operations of the tree with every `int` of a page that they use: the requests to
the pool are the same, and between them the programs of cells work on the pages. Each
operation does to the tree and the pool what the one on whole pages does.
-/

namespace MiniDB.Index

open Foundation Buffer Storage

/-- A request to the pool, or the use of an `int` of a page. -/
inductive TreeRequest where
  | pages (request : PoolRequest)
  | access (index : Int)

/-- The type of the answers. -/
def TreeRequest.Answer : TreeRequest → Type
  | .pages request => request.Answer
  | .access _ => Unit

/-- A program of the tree. -/
abbrev TreeProgram (Result : Type) := Client TreeRequest TreeRequest.Answer Result

variable {D : Type} [Disk D]

/-- A use of an `int` changes nothing. -/
def TreeRequest.handle : (request : TreeRequest) → BufferPool D → request.Answer × BufferPool D
  | .pages request, pool => pool.handle request
  | .access _, pool => ((), pool)

/-- The index that a request uses. -/
def TreeRequest.used : (request : TreeRequest) → request.Answer → List Int
  | .pages _, _ => []
  | .access index, _ => [index]

namespace TreeProgram

variable {Result Next : Type}

/-- Run a program against the pool. -/
def run (program : TreeProgram Result) (pool : BufferPool D) : Result × BufferPool D :=
  Client.run TreeRequest.handle program pool

/-- The indices that a run uses, in their order. -/
def accesses (program : TreeProgram Result) (pool : BufferPool D) : List Int :=
  Client.observed TreeRequest.handle TreeRequest.used program pool

/-- All of them are below a limit. -/
def Below (limit : Int) (program : TreeProgram Result) (pool : BufferPool D) : Prop :=
  ∀ index ∈ program.accesses pool, index < limit

/-- Requests to the pool. -/
def onPool : PoolProgram Result → TreeProgram Result
  | .done result => Client.done result
  | .ask request next => Client.ask (TreeRequest.pages request) fun answer => onPool (next answer)

/-- The use of some `int`s. -/
def uses : List Int → TreeProgram Unit
  | [] => return ()
  | index :: indices => Client.ask (TreeRequest.access index) fun _ => uses indices

/-- Read a page. -/
def look (frame : Nat) (program : CellProgram Unit Result) : TreeProgram Result := do
  let data ← onPool (PoolProgram.getData frame)
  uses (program.accesses fun _ => data)
  return (program.run fun _ => data).1

/-- Read and write a page. -/
def change (frame : Nat) (program : CellProgram Unit Result) : TreeProgram Result := do
  let data ← onPool (PoolProgram.getData frame)
  uses (program.accesses fun _ => data)
  let outcome := program.run fun _ => data
  onPool (PoolProgram.putData frame (outcome.2 ()))
  return outcome.1

/-- The two pages of a split. -/
inductive Half where
  | old
  | new
deriving DecidableEq

/-- The data of both. -/
def Half.data (oldData newData : Bytes) : Half → Bytes
  | .old => oldData
  | .new => newData

/-- Read and write two pages. -/
def changeBoth (oldFrame newFrame : Nat) (program : CellProgram Half Result) :
    TreeProgram Result := do
  let oldData ← onPool (PoolProgram.getData oldFrame)
  let newData ← onPool (PoolProgram.getData newFrame)
  uses (program.accesses (Half.data oldData newData))
  let outcome := program.run (Half.data oldData newData)
  onPool (PoolProgram.putData oldFrame (outcome.2 .old))
  onPool (PoolProgram.putData newFrame (outcome.2 .new))
  return outcome.1

section Rules

variable (pool : BufferPool D) {limit : Int}

@[simp] theorem run_pure (result : Result) :
    run (pure result : TreeProgram Result) pool = (result, pool) := rfl

/-- A program and then the next one. -/
@[simp] theorem run_bind (program : TreeProgram Result) (next : Result → TreeProgram Next) :
    run (program >>= next) pool = run (next (run program pool).1) (run program pool).2 :=
  Client.run_bind program next pool

/-- A program of the pool as it is. -/
@[simp] theorem run_onPool (program : PoolProgram Result) :
    run (onPool program) pool = PoolProgram.run program pool := by
  induction program generalizing pool with
  | done result => rfl
  | ask request next ih => exact ih _ _

@[simp] theorem run_uses (indices : List Int) : run (uses indices) pool = ((), pool) := by
  induction indices with
  | nil => rfl
  | cons index indices ih => exact ih

/-- A program that reads the page in a frame. -/
@[simp] theorem run_look (frame : Nat) (program : CellProgram Unit Result) :
    run (look frame program) pool =
      ((program.run fun _ => (pool.pageAt frame).data).1, pool) := by
  simp [look]

/-- A program that writes the page in a frame. -/
@[simp] theorem run_change (frame : Nat) (program : CellProgram Unit Result) :
    run (change frame program) pool =
      let outcome := program.run fun _ => (pool.pageAt frame).data
      (outcome.1, pool.modifyPage frame fun page => page.setData (outcome.2 ())) := by
  simp [change]

/-- A program over two pages. -/
@[simp] theorem run_changeBoth (oldFrame newFrame : Nat) (program : CellProgram Half Result) :
    run (changeBoth oldFrame newFrame program) pool =
      let outcome := program.run (Half.data (pool.pageAt oldFrame).data (pool.pageAt newFrame).data)
      (outcome.1, (pool.modifyPage oldFrame fun page => page.setData (outcome.2 .old)).modifyPage
        newFrame fun page => page.setData (outcome.2 .new)) := by
  simp [changeBoth]

@[simp] theorem below_pure (result : Result) :
    Below limit (pure result : TreeProgram Result) pool ↔ True := by
  simp [Below, accesses]

/-- Both programs stay below the limit. -/
@[simp] theorem below_bind (program : TreeProgram Result) (next : Result → TreeProgram Next) :
    Below limit (program >>= next) pool ↔
      Below limit program pool ∧ Below limit (next (run program pool).1) (run program pool).2 := by
  simp only [Below, accesses, Client.observed_bind, List.forall_mem_append]
  exact Iff.rfl

@[simp] theorem below_onPool (program : PoolProgram Result) : Below limit (onPool program) pool ↔ True := by
  refine iff_true_intro ?_
  induction program generalizing pool with
  | done result => exact (below_pure pool result).mpr trivial
  | ask request next ih => exact ih _ _

@[simp] theorem below_uses (indices : List Int) :
    Below limit (uses indices) pool ↔ ∀ index ∈ indices, index < limit := by
  induction indices with
  | nil => simp [uses]
  | cons index indices ih =>
    rw [List.forall_mem_cons, ← ih]
    exact List.forall_mem_cons

@[simp] theorem below_look (frame : Nat) (program : CellProgram Unit Result) :
    Below limit (look frame program) pool ↔
      program.Below limit fun _ => (pool.pageAt frame).data := by
  simp [look, CellProgram.Below]

@[simp] theorem below_change (frame : Nat) (program : CellProgram Unit Result) :
    Below limit (change frame program) pool ↔
      program.Below limit fun _ => (pool.pageAt frame).data := by
  simp [change, CellProgram.Below]

@[simp] theorem below_changeBoth (oldFrame newFrame : Nat) (program : CellProgram Half Result) :
    Below limit (changeBoth oldFrame newFrame program) pool ↔
      program.Below limit (Half.data (pool.pageAt oldFrame).data (pool.pageAt newFrame).data) := by
  simp [changeBoth, CellProgram.Below]

end Rules

/-! ## The operations -/

open PoolProgram

/-- `std::lock_guard` on the latch around a program. -/
def guarded (body : BPlusTree → TreeProgram (Result × BPlusTree)) (tree : BPlusTree) :
    TreeProgram (Result × BPlusTree) := do
  let (result, tree) ← body { tree with latch := tree.latch.lock }
  return (result, { tree with latch := tree.latch.unlock })

/-- The loop of `FindLeafPage`. -/
def descend (key : Int) (leftMost : Bool) : (fuel : Nat) → Int → TreeProgram Descent
  | 0, _ => return .unfinished
  | fuel + 1, currentPageId => do
    match ← onPool (fetchPage currentPageId) with
    | none => return .null
    | some frame =>
      if ← look frame (CellProgram.isLeaf ()) then
        return .leaf frame
      else
        let childPageId ← look frame (CellProgram.child () key leftMost)
        let _ ← onPool (unpinPage currentPageId false)
        descend key leftMost fuel childPageId

/-- `BPlusTree::FindLeafPage`. -/
def findLeafPage (tree : BPlusTree) (fuel : Nat) (key : Int) (leftMost : Bool) :
    TreeProgram Descent :=
  if tree.rootPageId = -1 then return .null else descend key leftMost fuel tree.rootPageId

/-- `BPlusTree::GetValue`. -/
def getValue (fuel : Nat) (key : Int) (result : List RID) :
    BPlusTree → TreeProgram (Option (Bool × List RID) × BPlusTree) :=
  guarded fun tree => do
    if tree.rootPageId = -1 then
      return (some (false, result), tree)
    else
      match ← findLeafPage tree fuel key false with
      | .unfinished => return (none, tree)
      | .null => return (some (false, result), tree)
      | .leaf frame =>
        let found ← look frame (CellProgram.collect () key)
        let pageId ← onPool (getPageId frame)
        let _ ← onPool (unpinPage pageId false)
        return (some (!found.isEmpty, found), tree)

/-- `BPlusTree::InsertIntoParent`. -/
def insertIntoParent (tree : BPlusTree) (oldFrame : Nat) (key : Int) (newFrame : Nat) :
    TreeProgram BPlusTree := do
  let oldPageId ← onPool (getPageId oldFrame)
  let newPageId ← onPool (getPageId newFrame)
  if oldPageId = tree.rootPageId then
    match ← onPool newPage with
    | none => return tree
    | some (rootPageId, rootFrame) =>
      change rootFrame (CellProgram.rootOver () oldPageId key newPageId)
      onPool (setDirty rootFrame)
      let _ ← onPool (unpinPage rootPageId true)
      return { tree with rootPageId }
  else
    return tree

/-- `Insert` into an empty tree. -/
def insertRoot (tree : BPlusTree) (key : Int) (value : RID) :
    TreeProgram (Option Bool × BPlusTree) := do
  match ← onPool newPage with
  | none => return (some false, tree)
  | some (pageId, frame) =>
    change frame (CellProgram.rootLeaf () key value)
    onPool (setDirty frame)
    let _ ← onPool (unpinPage pageId true)
    return (some true, { tree with rootPageId := pageId, leafStartPageId := pageId })

/-- `Insert` into a full leaf. -/
def insertSplit (tree : BPlusTree) (frame : Nat) (key : Int) (value : RID) :
    TreeProgram (Option Bool × BPlusTree) := do
  match ← onPool newPage with
  | none =>
    let pageId ← onPool (getPageId frame)
    let _ ← onPool (unpinPage pageId false)
    return (some false, tree)
  | some (newPageId, newFrame) =>
    let middleKey ← changeBoth frame newFrame
      (CellProgram.splitInsert Half.old Half.new newPageId key value)
    let tree ← insertIntoParent tree frame middleKey newFrame
    let pageId ← onPool (getPageId frame)
    let _ ← onPool (unpinPage pageId true)
    let newPageId ← onPool (getPageId newFrame)
    let _ ← onPool (unpinPage newPageId true)
    return (some true, tree)

/-- `BPlusTree::Insert`. -/
def insert (fuel : Nat) (key : Int) (value : RID) :
    BPlusTree → TreeProgram (Option Bool × BPlusTree) :=
  guarded fun tree => do
    if tree.rootPageId = -1 then
      insertRoot tree key value
    else
      match ← findLeafPage tree fuel key false with
      | .unfinished => return (none, tree)
      | .null => return (some false, tree)
      | .leaf frame =>
        let size ← look frame (CellProgram.read () 1)
        if size < tree.leafMaxSize then
          change frame (CellProgram.insertIntoLeaf () key value)
          let pageId ← onPool (getPageId frame)
          let _ ← onPool (unpinPage pageId true)
          return (some true, tree)
        else
          insertSplit tree frame key value

/-- `BPlusTree::AdjustRoot`. -/
def adjustRoot (tree : BPlusTree) (frame : Nat) : TreeProgram BPlusTree := do
  let size ← look frame (CellProgram.read () 1)
  let isLeaf ← look frame (CellProgram.isLeaf ())
  if size = 0 then
    if isLeaf then
      let _ ← onPool (deletePage tree.rootPageId)
      return { tree with rootPageId := -1, leafStartPageId := -1 }
    else
      let childPageId ← look frame (CellProgram.read () (2 + size + 1))
      let _ ← onPool (deletePage tree.rootPageId)
      return { tree with rootPageId := childPageId }
  else
    return tree

/-- `BPlusTree::CoalesceOrRedistribute`. -/
def coalesceOrRedistribute (tree : BPlusTree) (frame : Nat) : TreeProgram BPlusTree := do
  let _ ← look frame (CellProgram.read () 1)
  let pageId ← onPool (getPageId frame)
  if pageId = tree.rootPageId then
    adjustRoot tree frame
  else
    let _ ← look frame (CellProgram.isLeaf ())
    return tree

/-- `BPlusTree::Remove`. -/
def remove (fuel : Nat) (key : Int) : BPlusTree → TreeProgram (Option Bool × BPlusTree) :=
  guarded fun tree => do
    if tree.rootPageId = -1 then
      return (some false, tree)
    else
      match ← findLeafPage tree fuel key false with
      | .unfinished => return (none, tree)
      | .null => return (some false, tree)
      | .leaf frame =>
        match ← look frame (CellProgram.findEntry () key) with
        | none =>
          let pageId ← onPool (getPageId frame)
          let _ ← onPool (unpinPage pageId false)
          return (some false, tree)
        | some pos =>
          change frame (CellProgram.removeFromLeaf () pos)
          onPool (setDirty frame)
          let tree ← coalesceOrRedistribute tree frame
          let pageId ← onPool (getPageId frame)
          let _ ← onPool (unpinPage pageId true)
          return (some true, tree)

/-! ## They are the operations on whole pages -/

section Same

variable (pool : BufferPool D) (tree : BPlusTree) (fuel : Nat) (key : Int)

/-- The latch of the tree around programs that do the same. -/
theorem run_guarded {body : BPlusTree → TreeProgram (Result × BPlusTree)}
    {whole : BPlusTree → PoolProgram (Result × BPlusTree)}
    (same : ∀ tree, run (body tree) pool = PoolProgram.run (whole tree) pool) :
    run (guarded body tree) pool = PoolProgram.run (BPlusTree.guarded whole tree) pool := by
  simp only [guarded, BPlusTree.guarded, run_bind, PoolProgram.run_bind, same]
  rfl

/-- The descent by accesses is that on the pages. -/
@[simp] theorem run_descend (leftMost : Bool) (pageId : Int) :
    run (descend key leftMost fuel pageId) pool =
      PoolProgram.run (BPlusTree.descend key leftMost fuel pageId) pool := by
  induction fuel generalizing pool pageId with
  | zero => rfl
  | succ fuel ih =>
    simp only [descend, BPlusTree.descend, run_bind, PoolProgram.run_bind, run_onPool,
      PoolProgram.run_fetchPage]
    cases (pool.fetchPage pageId).1 with
    | none => rfl
    | some frame =>
      simp only [run_bind, run_look, CellProgram.run_isLeaf, PoolProgram.run_bind,
        PoolProgram.run_getData]
      by_cases leaf : isLeaf ((pool.fetchPage pageId).2.pageAt frame).data = true
      · simp only [leaf, if_true, run_pure, PoolProgram.run_pure]
      · simp only [leaf, Bool.false_eq_true, if_false, run_bind, run_look, CellProgram.run_child,
          run_onPool, PoolProgram.run_bind, PoolProgram.run_unpinPage, ih]

/-- `FindLeafPage` by accesses is that on the pages. -/
@[simp] theorem run_findLeafPage (leftMost : Bool) :
    run (findLeafPage tree fuel key leftMost) pool =
      PoolProgram.run (tree.findLeafPage fuel key leftMost) pool := by
  unfold findLeafPage BPlusTree.findLeafPage
  split
  · rfl
  · exact run_descend pool fuel key leftMost _

/-- `GetValue` by accesses is that on the pages. -/
theorem run_getValue (result : List RID) :
    run (getValue fuel key result tree) pool =
      PoolProgram.run (tree.getValue fuel key result) pool := by
  refine run_guarded pool tree fun tree => ?_
  by_cases empty : tree.rootPageId = -1
  · simp only [empty, if_true, run_pure, PoolProgram.run_pure]
  · simp only [empty, if_false, run_bind, PoolProgram.run_bind, run_findLeafPage]
    rcases PoolProgram.run (tree.findLeafPage fuel key false) pool with ⟨descent, after⟩
    cases descent with
    | unfinished => rfl
    | null => rfl
    | leaf frame =>
      simp only [run_bind, run_look, CellProgram.run_collect, run_onPool, run_pure,
        PoolProgram.run_bind, PoolProgram.run_getData, PoolProgram.run_pure]

/-- `InsertIntoParent` by accesses is that on the pages. -/
@[simp] theorem run_insertIntoParent (oldFrame newFrame : Nat) :
    run (insertIntoParent tree oldFrame key newFrame) pool =
      PoolProgram.run (tree.insertIntoParent oldFrame key newFrame) pool := by
  simp only [insertIntoParent, BPlusTree.insertIntoParent, run_bind, PoolProgram.run_bind, run_onPool,
    PoolProgram.run_getPageId]
  by_cases isRoot : (pool.pageAt oldFrame).pageId = tree.rootPageId
  · simp only [isRoot, if_true, run_bind, run_onPool, PoolProgram.run_bind, PoolProgram.run_newPage]
    rcases pool.newPage with ⟨created, after⟩
    cases created with
    | none => rfl
    | some created =>
      simp only [run_bind, run_change, CellProgram.run_rootOver, Function.update_self, run_onPool,
        run_pure, PoolProgram.run_bind, PoolProgram.run_getData, PoolProgram.run_putData,
        PoolProgram.run_pure]
  · simp only [isRoot, if_false, run_pure, PoolProgram.run_pure]

/-- So is the first insertion. -/
@[simp] theorem run_insertRoot (value : RID) :
    run (insertRoot tree key value) pool = PoolProgram.run (tree.insertRoot key value) pool := by
  simp only [insertRoot, BPlusTree.insertRoot, run_bind, PoolProgram.run_bind, run_onPool,
    PoolProgram.run_newPage]
  rcases pool.newPage with ⟨created, after⟩
  cases created with
  | none => rfl
  | some created =>
    simp only [run_bind, run_change, CellProgram.run_rootLeaf, Function.update_self, run_onPool,
      run_pure, PoolProgram.run_bind, PoolProgram.run_getData, PoolProgram.run_putData,
      PoolProgram.run_pure]

/-- So is an insertion that splits a leaf. -/
@[simp] theorem run_insertSplit (frame : Nat) (value : RID) :
    run (insertSplit tree frame key value) pool =
      PoolProgram.run (tree.insertSplit frame key value) pool := by
  have different : Half.old ≠ Half.new := by decide
  simp only [insertSplit, BPlusTree.insertSplit, run_bind, PoolProgram.run_bind, run_onPool,
    PoolProgram.run_newPage]
  rcases pool.newPage with ⟨created, after⟩
  cases created with
  | none => rfl
  | some created =>
    simp only [run_bind, run_changeBoth, CellProgram.run_splitInsert different, Function.update_self,
      Function.update_of_ne different.symm, Half.data, run_insertIntoParent, run_onPool, run_pure,
      PoolProgram.run_bind, PoolProgram.run_getData, PoolProgram.run_putData, PoolProgram.run_pure]

/-- `Insert` by accesses is that on the pages. -/
theorem run_insert (value : RID) :
    run (insert fuel key value tree) pool = PoolProgram.run (tree.insert fuel key value) pool := by
  refine run_guarded pool tree fun tree => ?_
  by_cases empty : tree.rootPageId = -1
  · simp only [empty, if_true, run_insertRoot]
  · simp only [empty, if_false, run_bind, PoolProgram.run_bind, run_findLeafPage]
    rcases PoolProgram.run (tree.findLeafPage fuel key false) pool with ⟨descent, after⟩
    cases descent with
    | unfinished => rfl
    | null => rfl
    | leaf frame =>
      simp only [run_bind, run_look, CellProgram.run_read, PoolProgram.run_bind,
        PoolProgram.run_getData]
      by_cases room : intAt (after.pageAt frame).data 1 < tree.leafMaxSize
      · simp only [room, if_true, run_bind, run_change, CellProgram.run_insertIntoLeaf,
          Function.update_self, run_onPool, run_pure, PoolProgram.run_bind, PoolProgram.run_putData,
          PoolProgram.run_pure]
      · simp only [room, if_false, run_insertSplit]

/-- `AdjustRoot` by accesses is that on the pages. -/
@[simp] theorem run_adjustRoot (frame : Nat) :
    run (adjustRoot tree frame) pool = PoolProgram.run (tree.adjustRoot frame) pool := by
  simp only [adjustRoot, BPlusTree.adjustRoot, run_bind, run_look, CellProgram.run_read,
    CellProgram.run_isLeaf, PoolProgram.run_bind, PoolProgram.run_getData]
  by_cases isEmpty : intAt (pool.pageAt frame).data 1 = 0
  · by_cases leaf : isLeaf (pool.pageAt frame).data = true
    · simp only [isEmpty, leaf, if_true, run_bind, run_onPool, run_pure, PoolProgram.run_bind,
        PoolProgram.run_pure]
    · simp only [isEmpty, leaf, if_true, Bool.false_eq_true, if_false, run_bind, run_look,
        CellProgram.run_read, run_onPool, run_pure, PoolProgram.run_bind, PoolProgram.run_pure]
  · simp only [isEmpty, if_false, run_pure, PoolProgram.run_pure]

/-- `CoalesceOrRedistribute` by accesses is that on the pages. -/
@[simp] theorem run_coalesceOrRedistribute (frame : Nat) :
    run (coalesceOrRedistribute tree frame) pool =
      PoolProgram.run (tree.coalesceOrRedistribute frame) pool := by
  simp only [coalesceOrRedistribute, BPlusTree.coalesceOrRedistribute, run_bind, run_look, run_onPool,
    PoolProgram.run_bind, PoolProgram.run_getPageId]
  by_cases isRoot : (pool.pageAt frame).pageId = tree.rootPageId
  · simp only [isRoot, if_true, run_adjustRoot]
  · simp only [isRoot, if_false, run_bind, run_look, run_pure, PoolProgram.run_pure]

/-- `Remove` by accesses is that on the pages. -/
theorem run_remove :
    run (remove fuel key tree) pool = PoolProgram.run (tree.remove fuel key) pool := by
  refine run_guarded pool tree fun tree => ?_
  by_cases empty : tree.rootPageId = -1
  · simp only [empty, if_true, run_pure, PoolProgram.run_pure]
  · simp only [empty, if_false, run_bind, PoolProgram.run_bind, run_findLeafPage]
    rcases PoolProgram.run (tree.findLeafPage fuel key false) pool with ⟨descent, after⟩
    cases descent with
    | unfinished => rfl
    | null => rfl
    | leaf frame =>
      by_cases absent : binarySearch (after.pageAt frame).data key = 0 ∨
          intAt (after.pageAt frame).data (2 + binarySearch (after.pageAt frame).data key - 1) ≠ key
      · simp only [run_bind, run_look, CellProgram.run_findEntry, PoolProgram.run_bind,
          PoolProgram.run_getData, absent, if_true, run_onPool, run_pure, PoolProgram.run_pure]
      · simp only [run_bind, run_look, CellProgram.run_findEntry, PoolProgram.run_bind,
          PoolProgram.run_getData, absent, if_false, run_change, CellProgram.run_removeFromLeaf,
          Function.update_self, run_onPool, run_coalesceOrRedistribute, run_pure,
          PoolProgram.run_putData, PoolProgram.run_pure]

end Same

end TreeProgram

end MiniDB.Index
