import MiniDB.Storage.TableHeap

/-!
# The table iterator

`TableIterator` walks over the slots of a heap. `operator++` asks the page for its
number of slots and ends the iteration there; it has no way to the next page. All
iterators here belong to one heap, so the comparison of the heap pointers in
`operator==` is left out.
-/

namespace MiniDB.Storage

open Foundation Buffer PoolProgram

/-- `TableHeap::GetSlotCount`. -/
def TableHeap.getSlotCount (pageId : Int) : PoolProgram Int := do
  if pageId < 0 then
    return 0
  else
    match ← fetchPage pageId with
    | none => return 0
    | some frame =>
      let pageData ← getData frame
      let _ ← unpinPage pageId false
      return getNSlots pageData

/-- `TableIterator`. -/
structure TableIterator where
  currentRid : RID
  isEnd : Bool
deriving DecidableEq, Repr

namespace TableIterator

/-- `TableIterator::operator==`. -/
def equals (iterator other : TableIterator) : Bool :=
  if iterator.isEnd && other.isEnd then true
  else decide (iterator.currentRid = other.currentRid) && iterator.isEnd == other.isEnd

/-- `TableIterator::operator++`. -/
def advance (iterator : TableIterator) : PoolProgram TableIterator := do
  if iterator.isEnd then
    return iterator
  else
    let slotNum := iterator.currentRid.slotNum + 1
    let n ← TableHeap.getSlotCount iterator.currentRid.pageId
    return { currentRid := { iterator.currentRid with slotNum }, isEnd := decide (n ≤ slotNum) }

/-- `TableIterator::operator*`, which ignores what `GetTuple` returns. `none` is an
access outside the page or the tuple. -/
def deref (iterator : TableIterator) : PoolProgram (Option Tuple) := do
  if iterator.isEnd then
    return some {}
  else
    let outcome ← TableHeap.getTuple iterator.currentRid {}
    return outcome.map Prod.snd

/-- `for (; it != stop; ++it)`: the RIDs it stops at. `none` is a loop that did not
end within the fuel. -/
def visit (stop : TableIterator) : (fuel : Nat) → TableIterator → PoolProgram (Option (List RID))
  | 0, _ => return none
  | fuel + 1, iterator =>
    if iterator.equals stop then
      return some []
    else do
      let next ← iterator.advance
      let later ← visit stop fuel next
      return later.map fun rids => iterator.currentRid :: rids

end TableIterator

namespace TableHeap

/-- `TableHeap::Begin`. -/
def begin (heap : TableHeap) : TableIterator :=
  { currentRid := if 0 ≤ heap.firstPageId then { pageId := heap.firstPageId, slotNum := 0 } else {}
    isEnd := decide (heap.firstPageId < 0) }

/-- `TableHeap::End`. -/
def finish : TableIterator := { currentRid := {}, isEnd := true }

/-- `InsertTuple` of one tuple after another: the RIDs that are reported. -/
def insertAll (heap : TableHeap) : List Tuple → PoolProgram (List RID × TableHeap)
  | [] => return ([], heap)
  | tuple :: tuples => do
    let (rid, heap) ← heap.insertTuple tuple
    let (rids, heap) ← heap.insertAll tuples
    return (rid.toList ++ rids, heap)

end TableHeap

end MiniDB.Storage
