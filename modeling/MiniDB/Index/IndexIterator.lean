import MiniDB.Index.BPlusTree

/-!
# The index iterator

`IndexIterator` holds a pointer to a leaf, that is its frame, and a position in it.
`operator++` follows the next pointer of the leaf in `current_page_id_` only; the
pointer to the leaf stays. All iterators here belong to one tree, so of the tree
pointer it matters only whether it is null, as it is in the iterator that `End`
returns.
-/

namespace MiniDB.Index

open Foundation Buffer PoolProgram

/-- `IndexIterator`; the defaults are those of `IndexIterator()`. -/
structure IndexIterator where
  hasTree : Bool := false
  currentLeafPage : Option Nat := none
  currentKeyIndex : Int := -1
  currentPageId : Int := -1
  isEnd : Bool := true
deriving DecidableEq, Repr

namespace IndexIterator

/-- What `Begin` returns for the leaf it found. -/
def atLeaf : Option (Nat × Int) → IndexIterator
  | none => {}
  | some (frame, pageId) =>
    { hasTree := true, currentLeafPage := some frame, currentKeyIndex := 0, currentPageId := pageId
      isEnd := false }

/-- `IndexIterator::operator==`. -/
def equals (iterator other : IndexIterator) : Bool :=
  iterator.hasTree == other.hasTree && iterator.currentPageId == other.currentPageId &&
    iterator.currentKeyIndex == other.currentKeyIndex && iterator.isEnd == other.isEnd

/-- `operator++` on the bytes of the leaf. -/
def stepped (iterator : IndexIterator) (data : Bytes) : IndexIterator :=
  let currentKeyIndex := iterator.currentKeyIndex + 1
  let size := intAt data 1
  if size ≤ currentKeyIndex then
    let nextPageId := intAt data (2 + size + size * 2)
    if 0 ≤ nextPageId then
      { iterator with currentPageId := nextPageId, currentKeyIndex := 0 }
    else { iterator with currentKeyIndex, isEnd := true }
  else { iterator with currentKeyIndex }

/-- `IndexIterator::operator++`. -/
def advance (iterator : IndexIterator) : PoolProgram IndexIterator :=
  match iterator.isEnd, iterator.currentLeafPage with
  | false, some frame => do
    let data ← getData frame
    return iterator.stepped data
  | _, _ => return iterator

/-- `IndexIterator::GetKey`. -/
def getKey (iterator : IndexIterator) : PoolProgram Int :=
  match iterator.isEnd, iterator.currentLeafPage with
  | false, some frame =>
    if iterator.currentKeyIndex < 0 then return 0
    else do
      let data ← getData frame
      if iterator.currentKeyIndex < intAt data 1 then
        return intAt data (2 + iterator.currentKeyIndex)
      else
        return 0
  | _, _ => return 0

/-- `IndexIterator::GetRID`. -/
def getRid (iterator : IndexIterator) : PoolProgram RID :=
  match iterator.isEnd, iterator.currentLeafPage with
  | false, some frame =>
    if iterator.currentKeyIndex < 0 then return {}
    else do
      let data ← getData frame
      if iterator.currentKeyIndex < intAt data 1 then
        return ridAt data (intAt data 1) iterator.currentKeyIndex
      else
        return {}
  | _, _ => return {}

end IndexIterator

/-- `BPlusTree::End`. -/
def BPlusTree.finish : IndexIterator := {}

end MiniDB.Index
