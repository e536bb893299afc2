import MiniDB.Executors.ReturnedPins

/-!
# Sessions return their pins

A session uses heaps, trees and executors on one pool in any order. A use is given the
object it works on, in whatever state it may be.
-/

namespace MiniDB.Database

open Foundation Buffer PoolProgram Storage Index Executors

/-- What a session does. The calls of an executor tree are those of one query. -/
inductive PageUse where
  | newHeap
  | insertTuple (heap : TableHeap) (tuple : Tuple)
  | getTuple (rid : RID) (out : Tuple)
  | updateTuple (tuple : Tuple) (rid : RID)
  | deleteTuple (rid : RID)
  | getValue (tree : BPlusTree) (fuel : Nat) (key : Int) (result : List RID)
  | insert (tree : BPlusTree) (fuel : Nat) (key : Int) (value : RID)
  | remove (tree : BPlusTree) (fuel : Nat) (key : Int)
  | query (tree : ExecutorTree) (calls : List Call)

namespace PageUse

/-- The program of a use; what it returns is not looked at. -/
def program (sort : StdSort) : PageUse → PoolProgram Unit
  | newHeap => do
    let _ ← TableHeap.new
  | insertTuple heap tuple => do
    let _ ← heap.insertTuple tuple
  | getTuple rid out => do
    let _ ← TableHeap.getTuple rid out
  | updateTuple tuple rid => do
    let _ ← TableHeap.updateTuple tuple rid
  | deleteTuple rid => do
    let _ ← TableHeap.deleteTuple rid
  | getValue tree fuel key result => do
    let _ ← tree.getValue fuel key result
  | insert tree fuel key value => do
    let _ ← tree.insert fuel key value
  | remove tree fuel key => do
    let _ ← tree.remove fuel key
  | query tree calls => do
    let _ ← afterCalls calls (tree.build sort)

/-- No executor tree of the use scans an index. -/
def WithoutIndexScan : PageUse → Prop
  | query tree _ => tree.WithoutIndexScan
  | _ => True

variable {D : Type} [IssuesIds D]

/-- A use without an index scan keeps no pin. -/
theorem neutral (sort : StdSort) (use : PageUse) (without : use.WithoutIndexScan) :
    Neutral D (use.program sort) := by
  cases use with
  | newHeap => exact neutral_newHeap.bind fun _ => .pure _
  | insertTuple heap tuple => exact (neutral_insertTuple heap tuple).bind fun _ => .pure _
  | getTuple rid out => exact (neutral_getTuple rid out).bind fun _ => .pure _
  | updateTuple tuple rid => exact (neutral_updateTuple tuple rid).bind fun _ => .pure _
  | deleteTuple rid => exact (neutral_deleteTuple rid).bind fun _ => .pure _
  | getValue tree fuel key result =>
    exact (tree.neutral_getValue fuel key result).bind fun _ => .pure _
  | insert tree fuel key value => exact (tree.neutral_insert fuel key value).bind fun _ => .pure _
  | remove tree fuel key => exact (tree.neutral_remove fuel key).bind fun _ => .pure _
  | query tree calls =>
    exact ((ExecutorTree.neutral sort tree without).afterCalls calls _).bind fun _ => .pure _

end PageUse

/-- One use after another. -/
def session (sort : StdSort) : List PageUse → PoolProgram Unit
  | [] => return ()
  | use :: uses => do
    use.program sort
    session sort uses

variable {D : Type} [IssuesIds D]

/-- Nor does a session of such uses. -/
theorem neutral_session (sort : StdSort) (uses : List PageUse)
    (without : ∀ use ∈ uses, use.WithoutIndexScan) : Neutral D (session sort uses) := by
  induction uses with
  | nil => exact .pure _
  | cons use uses ih =>
    refine (use.neutral sort (without use List.mem_cons_self)).bind fun _ => ih ?_
    exact fun other member => without other (List.mem_cons_of_mem use member)

/-- A session without index scans, from any sound state and also where the pool refuses
pages, leaves the pins of every page as they were, if it fetches only issued ids. -/
theorem session_returns_pins (sort : StdSort) (uses : List PageUse)
    (without : ∀ use ∈ uses, use.WithoutIndexScan) (pool : BufferPool D)
    (sound : pool.frames.Sound)
    (issued : Client.Each BufferPool.handle (fun request pool => pool.FetchesIssued request)
      (session sort uses) pool) (pageId : Int) :
    (run (session sort uses) pool).2.frames.pinsOf pageId = pool.frames.pinsOf pageId :=
  congrFun ((neutral_session sort uses without).pinsOf_run sound issued).2 pageId

/-- A tuple is inserted through an executor with an index, joined with the rows of its
table, looked up and removed, on a pool of three frames. -/
def insertAndJoin : List PageUse :=
  let table : TableHeap := { firstPageId := 0, lastPageId := 0 }
  let index : BPlusTree :=
    { leafMaxSize := 4, internalMaxSize := 4, rootPageId := 1, leafStartPageId := 1 }
  let rows : ExecutorTree := .insertTuples table [{ index with rootPageId := -1 }]
    [HeapHistory.intPair 12 8]
  [.newHeap, .query (.sort (.join rows (.seqScan table none .both)) 0)
    [.init 9, .next 9 ({}, {}), .next 9 ({}, {})], .getValue index 9 12 [], .remove index 9 12]

theorem session_returns_pins_insertAndJoin :
    (run (session .insertion insertAndJoin)
      (BufferPool.new 3 (DiskManager.new (some {})))).2.frames.pinsOf 0 = 0 := by
  refine session_returns_pins .insertion insertAndJoin ?_ (BufferPool.new 3 (DiskManager.new (some {})))
    (Frames.sound_empty _) ?_ 0
  · simp [insertAndJoin, PageUse.WithoutIndexScan, ExecutorTree.WithoutIndexScan]
  · decide +kernel

end MiniDB.Database
