import Mathlib.Logic.Function.Basic
import MiniDB.Foundation.Client
import MiniDB.Index.BPlusTree

/-!
# The tree's work on its pages, cell by cell

The functions of the tree that work on the data of one or two pages, with a request
for each `int` that they read or write. What a program makes of the pages is what the
functions on whole pages compute.
-/

namespace MiniDB.Index

open Foundation

/-- What is asked of the data of some pages. -/
inductive CellRequest (Block : Type) where
  /-- `data[index]`. -/
  | read (page : Block) (index : Int)
  /-- `data[index] = value`. -/
  | write (page : Block) (index value : Int)

namespace CellRequest

variable {Block : Type}

/-- The type of the answers. -/
def Answer : CellRequest Block → Type
  | .read _ _ => Int
  | .write _ _ _ => Unit

/-- The index that is used. -/
def index : CellRequest Block → Int
  | .read _ index => index
  | .write _ index _ => index

/-- The answer, and the data afterwards. -/
def handle [DecidableEq Block] : (request : CellRequest Block) → (Block → Bytes) →
    request.Answer × (Block → Bytes)
  | .read page index, memory => (intAt (memory page) index, memory)
  | .write page index value, memory =>
    ((), Function.update memory page (setInt (memory page) index value))

end CellRequest

/-- A program over the data of some pages. -/
abbrev CellProgram (Block Result : Type) := Client (CellRequest Block) CellRequest.Answer Result

namespace CellProgram

variable {Block : Type} [DecidableEq Block] {Result Next : Type}

def read (page : Block) (index : Int) : CellProgram Block Int :=
  Client.make (CellRequest.read page index)

def write (page : Block) (index value : Int) : CellProgram Block Unit :=
  Client.make (CellRequest.write page index value)

/-- Run a program on the data of the pages. -/
def run (program : CellProgram Block Result) (memory : Block → Bytes) : Result × (Block → Bytes) :=
  Client.run CellRequest.handle program memory

/-- The indices that a run uses, in their order. -/
def accesses (program : CellProgram Block Result) (memory : Block → Bytes) : List Int :=
  Client.observed CellRequest.handle (fun request _ => [request.index]) program memory

/-- All of them are below a limit. -/
def Below (limit : Int) (program : CellProgram Block Result) (memory : Block → Bytes) : Prop :=
  ∀ index ∈ program.accesses memory, index < limit

section Rules

variable (memory : Block → Bytes) {limit : Int}

@[simp] theorem run_pure (result : Result) :
    run (pure result : CellProgram Block Result) memory = (result, memory) := rfl

/-- A program and then the next one. -/
@[simp] theorem run_bind (program : CellProgram Block Result)
    (next : Result → CellProgram Block Next) :
    run (program >>= next) memory =
      run (next (run program memory).1) (run program memory).2 :=
  Client.run_bind program next memory

@[simp] theorem run_read (page : Block) (index : Int) :
    run (read page index) memory = (intAt (memory page) index, memory) := rfl

@[simp] theorem run_write (page : Block) (index value : Int) :
    run (write page index value) memory =
      ((), Function.update memory page (setInt (memory page) index value)) := rfl

@[simp] theorem below_pure (result : Result) :
    Below limit (pure result : CellProgram Block Result) memory ↔ True := by
  simp [Below, accesses]

/-- Both programs stay below the limit. -/
@[simp] theorem below_bind (program : CellProgram Block Result)
    (next : Result → CellProgram Block Next) :
    Below limit (program >>= next) memory ↔
      Below limit program memory ∧
        Below limit (next (run program memory).1) (run program memory).2 := by
  simp only [Below, accesses, Client.observed_bind, List.forall_mem_append]
  exact Iff.rfl

@[simp] theorem below_read (page : Block) (index : Int) :
    Below limit (read page index) memory ↔ index < limit :=
  List.forall_mem_singleton

@[simp] theorem below_write (page : Block) (index value : Int) :
    Below limit (write page index value) memory ↔ index < limit :=
  List.forall_mem_singleton

end Rules

/-! ## The functions -/

/-- `BPlusTree::IsLeaf`. -/
def isLeaf (page : Block) : CellProgram Block Bool := do
  return decide ((← read page 0) = 1)

/-- The loop of `BinarySearch`. -/
def search (page : Block) (key : Int) : (fuel : Nat) → (left right : Int) → CellProgram Block Int
  | 0, left, _ => return left
  | fuel + 1, left, right =>
    if left < right then do
      let mid := (left + right).tdiv 2
      let currentKey ← read page (2 + mid)
      if currentKey ≤ key then search page key fuel (mid + 1) right
      else search page key fuel left mid
    else return left

/-- `BPlusTree::BinarySearch`. -/
def binarySearch (page : Block) (key : Int) : CellProgram Block Int := do
  let size ← read page 1
  search page key size.toNat 0 size

/-- What `FindLeafPage` reads in an internal node. -/
def child (page : Block) (key : Int) (leftMost : Bool) : CellProgram Block Int := do
  let childIndex ← if leftMost then pure 0 else binarySearch page key
  let size ← read page 1
  read page (2 + size + 1 + childIndex)

/-- Read the RID number `index`. -/
def readRid (page : Block) (size index : Int) : CellProgram Block RID := do
  let pageId ← read page (2 + size + index * 2)
  let slotNum ← read page (2 + size + index * 2 + 1)
  return { pageId, slotNum }

/-- Write the RID number `index`. -/
def writeRid (page : Block) (size index : Int) (rid : RID) : CellProgram Block Unit := do
  write page (2 + size + index * 2) rid.pageId
  write page (2 + size + index * 2 + 1) rid.slotNum

/-- The first loop of `GetValue`. -/
def matchesBelow (page : Block) (key size : Int) : Nat → List RID → CellProgram Block (List RID)
  | 0, result => return result
  | i + 1, result => do
    if (← read page (2 + i)) = key then
      let rid ← readRid page size i
      matchesBelow page key size i (rid :: result)
    else return result

/-- The second loop of `GetValue`. -/
def matchesAbove (page : Block) (key size : Int) :
    (count : Nat) → Int → List RID → CellProgram Block (List RID)
  | 0, _, result => return result
  | count + 1, i, result => do
    if (← read page (2 + i)) = key then
      let rid ← readRid page size i
      matchesAbove page key size count (i + 1) (result ++ [rid])
    else return result

/-- What `GetValue` does on the page of a leaf. -/
def collect (page : Block) (key : Int) : CellProgram Block (List RID) := do
  let size ← read page 1
  let pos ← binarySearch page key
  let result ← matchesBelow page key size pos.toNat []
  matchesAbove page key size (size - pos).toNat pos result

/-- The loop of `InsertIntoLeaf`. -/
def makeRoom (page : Block) (size pos : Int) : (i : Nat) → CellProgram Block Unit
  | 0 => return ()
  | i + 1 =>
    if pos < (i + 1 : Nat) then do
      let key ← read page (2 + (i + 1 : Nat) - 1)
      write page (2 + (i + 1 : Nat)) key
      let rid ← readRid page size i
      writeRid page size (i + 1 : Nat) rid
      makeRoom page size pos i
    else return ()

/-- `BPlusTree::InsertIntoLeaf`. -/
def insertIntoLeaf (page : Block) (key : Int) (value : RID) : CellProgram Block Unit := do
  let size ← read page 1
  let pos ← binarySearch page key
  makeRoom page size pos size.toNat
  write page (2 + pos) key
  writeRid page size pos value
  write page 1 (size + 1)

/-- The loop of `SplitLeafPage`. -/
def copyEntries (oldPage newPage : Block) (oldSize splitPoint newSize : Int) :
    (count : Nat) → Int → CellProgram Block Unit
  | 0, _ => return ()
  | count + 1, i => do
    let key ← read oldPage (2 + splitPoint + i)
    write newPage (2 + i) key
    let rid ← readRid oldPage oldSize (splitPoint + i)
    writeRid newPage newSize i rid
    copyEntries oldPage newPage oldSize splitPoint newSize count (i + 1)

/-- `BPlusTree::SplitLeafPage`, with the middle key. -/
def splitLeafPage (oldPage newPage : Block) (newPageId : Int) : CellProgram Block Int := do
  let oldSize ← read oldPage 1
  let splitPoint := (oldSize + 1).tdiv 2
  let newSize := oldSize - splitPoint
  write newPage 0 1
  write newPage 1 newSize
  copyEntries oldPage newPage oldSize splitPoint newSize newSize.toNat 0
  write oldPage 1 splitPoint
  let oldNext ← read oldPage (2 + oldSize + oldSize * 2)
  write newPage (2 + newSize + newSize * 2) oldNext
  write oldPage (2 + oldSize + oldSize * 2) newPageId
  read newPage 2

/-- The split in `Insert`, and the new entry on the side of the middle key. -/
def splitInsert (oldPage newPage : Block) (newPageId key : Int) (value : RID) :
    CellProgram Block Int := do
  let middleKey ← splitLeafPage oldPage newPage newPageId
  if key < middleKey then insertIntoLeaf oldPage key value
  else insertIntoLeaf newPage key value
  return middleKey

/-- The leaf that `Insert` makes the root of an empty tree. -/
def rootLeaf (page : Block) (key : Int) (value : RID) : CellProgram Block Unit := do
  write page 0 1
  write page 1 1
  write page 2 key
  write page 3 value.pageId
  write page 4 value.slotNum
  write page 5 (-1)

/-- The root that `InsertIntoParent` makes. -/
def rootOver (page : Block) (oldPageId key newPageId : Int) : CellProgram Block Unit := do
  write page 0 0
  write page 1 1
  write page 2 key
  write page 3 oldPageId
  write page 4 newPageId

/-- The test of `Remove`: where the key is, if it is there. -/
def findEntry (page : Block) (key : Int) : CellProgram Block (Option Int) := do
  let pos ← binarySearch page key
  if pos = 0 then return none
  else if (← read page (2 + pos - 1)) ≠ key then return none
  else return some (pos - 1)

/-- The loop of `Remove`. -/
def closeGap (page : Block) (size : Int) : (count : Nat) → Int → CellProgram Block Unit
  | 0, _ => return ()
  | count + 1, i => do
    let key ← read page (2 + i + 1)
    write page (2 + i) key
    let rid ← readRid page size (i + 1)
    writeRid page size i rid
    closeGap page size count (i + 1)

/-- `Remove` on the page of a leaf that has the key at `pos`. -/
def removeFromLeaf (page : Block) (pos : Int) : CellProgram Block Unit := do
  let size ← read page 1
  closeGap page size (size - 1 - pos).toNat pos
  write page 1 (size - 1)

/-! ## What they compute -/

section Computes

variable (memory : Block → Bytes) (page : Block) (key : Int)

@[simp] theorem run_isLeaf :
    run (isLeaf page) memory = (Index.isLeaf (memory page), memory) := rfl

/-- The search by accesses is that on the page. -/
@[simp] theorem run_search (fuel : Nat) (left right : Int) :
    run (search page key fuel left right) memory =
      (Index.search (memory page) key fuel left right, memory) := by
  induction fuel generalizing left right with
  | zero => rfl
  | succ fuel ih =>
    rw [search, Index.search]
    split
    · by_cases upTo : intAt (memory page) (2 + (left + right).tdiv 2) ≤ key
      · simp only [run_bind, run_read, upTo, if_true, ih]
      · simp only [run_bind, run_read, upTo, if_false, ih]
    · rfl

/-- So is the binary search. -/
@[simp] theorem run_binarySearch :
    run (binarySearch page key) memory = (Index.binarySearch (memory page) key, memory) := by
  simp [binarySearch, Index.binarySearch]

/-- The child that a descent goes on to. -/
@[simp] theorem run_child (leftMost : Bool) :
    run (child page key leftMost) memory =
      (intAt (memory page) (2 + intAt (memory page) 1 + 1 +
        if leftMost then 0 else Index.binarySearch (memory page) key), memory) := by
  cases leftMost <;> simp [child]

@[simp] theorem run_readRid (size index : Int) :
    run (readRid page size index) memory = (ridAt (memory page) size index, memory) := rfl

/-- The two writes of a RID. -/
@[simp] theorem run_writeRid (size index : Int) (rid : RID) :
    run (writeRid page size index rid) memory =
      ((), Function.update memory page (setRid (memory page) size index rid)) := by
  simp [writeRid, setRid]

/-- The loop to the left of the place that was found. -/
@[simp] theorem run_matchesBelow (size : Int) (i : Nat) (result : List RID) :
    run (matchesBelow page key size i result) memory =
      (Index.matchesBelow (memory page) key size i result, memory) := by
  induction i generalizing result with
  | zero => rfl
  | succ i ih =>
    by_cases same : intAt (memory page) (2 + i) = key
    · simp only [matchesBelow, Index.matchesBelow, run_bind, run_read, same, if_true, run_readRid, ih]
    · simp only [matchesBelow, Index.matchesBelow, run_bind, run_read, same, if_false, run_pure]

/-- The loop to the right of it. -/
@[simp] theorem run_matchesAbove (size : Int) (count : Nat) (i : Int) (result : List RID) :
    run (matchesAbove page key size count i result) memory =
      (Index.matchesAbove (memory page) key size count i result, memory) := by
  induction count generalizing i result with
  | zero => rfl
  | succ count ih =>
    by_cases same : intAt (memory page) (2 + i) = key
    · simp only [matchesAbove, Index.matchesAbove, run_bind, run_read, same, if_true, run_readRid, ih]
    · simp only [matchesAbove, Index.matchesAbove, run_bind, run_read, same, if_false, run_pure]

/-- All the RIDs of a key. -/
@[simp] theorem run_collect :
    run (collect page key) memory = (Index.collect (memory page) key, memory) := by
  simp [collect, Index.collect]

/-- The loop that makes room in a leaf writes one page only. -/
@[simp] theorem run_makeRoom (size pos : Int) (i : Nat) :
    run (makeRoom page size pos i) memory =
      ((), Function.update memory page (Index.makeRoom size pos i (memory page))) := by
  induction i generalizing memory with
  | zero => simp [makeRoom, Index.makeRoom]
  | succ i ih =>
    rw [makeRoom, Index.makeRoom]
    split
    · simp only [run_bind, run_read, run_write, run_readRid, run_writeRid, ih, Function.update_self,
        Function.update_idem]
    · simp

/-- `InsertIntoLeaf` by accesses is that on the page. -/
@[simp] theorem run_insertIntoLeaf (value : RID) :
    run (insertIntoLeaf page key value) memory =
      ((), Function.update memory page (Index.insertIntoLeaf (memory page) key value)) := by
  simp [insertIntoLeaf, Index.insertIntoLeaf]

/-- The first leaf of a tree. -/
@[simp] theorem run_rootLeaf (value : RID) :
    run (rootLeaf page key value) memory =
      ((), Function.update memory page (Index.rootLeaf (memory page) key value)) := by
  simp [rootLeaf, Index.rootLeaf]

/-- The root over two halves. -/
@[simp] theorem run_rootOver (oldPageId newPageId : Int) :
    run (rootOver page oldPageId key newPageId) memory =
      ((), Function.update memory page (Index.rootOver (memory page) oldPageId key newPageId)) := by
  simp [rootOver, Index.rootOver]

/-- The loop that closes a gap in a leaf. -/
@[simp] theorem run_closeGap (size : Int) (count : Nat) (i : Int) :
    run (closeGap page size count i) memory =
      ((), Function.update memory page (Index.closeGap size count i (memory page))) := by
  induction count generalizing memory i with
  | zero => simp [closeGap, Index.closeGap]
  | succ count ih =>
    rw [closeGap, Index.closeGap]
    simp only [run_bind, run_read, run_write, run_readRid, run_writeRid, ih, Function.update_self,
      Function.update_idem]

/-- The removal of an entry by accesses is that on the page. -/
@[simp] theorem run_removeFromLeaf (pos : Int) :
    run (removeFromLeaf page pos) memory =
      ((), Function.update memory page (Index.removeFromLeaf (memory page) pos)) := by
  simp [removeFromLeaf, Index.removeFromLeaf]

/-- The entry that is to be removed. -/
@[simp] theorem run_findEntry :
    run (findEntry page key) memory =
      (if Index.binarySearch (memory page) key = 0 ∨
          intAt (memory page) (2 + Index.binarySearch (memory page) key - 1) ≠ key then none
        else some (Index.binarySearch (memory page) key - 1), memory) := by
  simp only [findEntry, run_bind, run_binarySearch]
  by_cases front : Index.binarySearch (memory page) key = 0
  · simp [front]
  · by_cases same : intAt (memory page) (2 + Index.binarySearch (memory page) key - 1) = key
    · simp [front, same]
    · simp [front, same]

end Computes

section Split

variable {oldPage newPage : Block} (different : oldPage ≠ newPage) (memory : Block → Bytes)

include different

/-- The loop that copies the second half reads the old page and writes the new one. -/
theorem run_copyEntries (oldSize splitPoint newSize : Int) (count : Nat) (i : Int) :
    run (copyEntries oldPage newPage oldSize splitPoint newSize count i) memory =
      ((), Function.update memory newPage
        (Index.copyEntries (memory oldPage) oldSize splitPoint newSize count i (memory newPage))) := by
  induction count generalizing memory i with
  | zero => simp [copyEntries, Index.copyEntries]
  | succ count ih =>
    rw [copyEntries, Index.copyEntries]
    simp only [run_bind, run_read, run_write, run_readRid, run_writeRid, ih, Function.update_self,
      Function.update_idem, Function.update_of_ne different]

/-- What is written to the two pages in turn. -/
theorem update_both (old new last : Bytes) :
    Function.update (Function.update (Function.update memory newPage new) oldPage old) newPage last =
      Function.update (Function.update memory newPage last) oldPage old := by
  rw [Function.update_comm different, Function.update_idem]

/-- `SplitLeafPage` by accesses is that on the two pages. -/
theorem run_splitLeafPage (newPageId : Int) :
    run (splitLeafPage oldPage newPage newPageId) memory =
      let parts := Index.splitLeafPage (memory oldPage) (memory newPage) newPageId
      (parts.2.2, Function.update (Function.update memory newPage parts.2.1) oldPage parts.1) := by
  simp only [splitLeafPage, Index.splitLeafPage, run_bind, run_read, run_write,
    run_copyEntries different, Function.update_self, Function.update_idem,
    Function.update_of_ne different, Function.update_of_ne different.symm, update_both different]

/-- So it is with the insertion into a half. -/
theorem run_splitInsert (newPageId key : Int) (value : RID) :
    run (splitInsert oldPage newPage newPageId key value) memory =
      let parts := Index.splitInsert (memory oldPage) (memory newPage) newPageId key value
      (parts.2.2, Function.update (Function.update memory newPage parts.2.1) oldPage parts.1) := by
  simp only [splitInsert, run_bind, run_splitLeafPage different]
  unfold Index.splitInsert
  dsimp only
  split
  · simp only [run_bind, run_insertIntoLeaf, run_pure, Function.update_self, Function.update_idem]
  · simp only [run_bind, run_insertIntoLeaf, run_pure, Function.update_self,
      Function.update_of_ne different.symm, update_both different]

end Split

end CellProgram

end MiniDB.Index
