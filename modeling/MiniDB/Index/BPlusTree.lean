import MiniDB.Buffer.PoolClient
import MiniDB.Common.Types

/-!
# The B+ tree

A node is a page read as an array of `int`s: whether it is a leaf, its size, its
keys. In a leaf of size `n` the RIDs follow from index `2 + n` on, two `int`s each,
and after them the id of the next leaf; in an internal node the children follow
from index `2 + n + 1` on. The operations are client programs of the buffer pool.
The descent of `FindLeafPage` has no bound of its own, so it runs on fuel.
`SplitInternalPage`, which nothing calls, stands by itself.
-/

namespace MiniDB.Index

open Foundation Buffer PoolProgram

/-- `data[index]`. -/
def intAt (data : Bytes) (index : Int) : Int := data.readInt (index * 4).toNat

/-- `data[index] = value`. -/
def setInt (data : Bytes) (index value : Int) : Bytes := data.writeInt (index * 4).toNat value

/-- The RID number `index` of a leaf of the given size. -/
def ridAt (data : Bytes) (size index : Int) : RID :=
  { pageId := intAt data (2 + size + index * 2), slotNum := intAt data (2 + size + index * 2 + 1) }

/-- Set the RID number `index` of a leaf of the given size. -/
def setRid (data : Bytes) (size index : Int) (rid : RID) : Bytes :=
  setInt (setInt data (2 + size + index * 2) rid.pageId) (2 + size + index * 2 + 1) rid.slotNum

/-- `BPlusTree::IsLeaf`. -/
def isLeaf (data : Bytes) : Bool := decide (intAt data 0 = 1)

/-- The loop of `BinarySearch`; every round shortens the interval, so its length
is fuel enough. -/
def search (data : Bytes) (key : Int) : (fuel : Nat) → (left right : Int) → Int
  | 0, left, _ => left
  | fuel + 1, left, right =>
    if left < right then
      let mid := (left + right).tdiv 2
      if intAt data (2 + mid) ≤ key then search data key fuel (mid + 1) right
      else search data key fuel left mid
    else left

/-- `BPlusTree::BinarySearch`: the position after the last key up to `key`. -/
def binarySearch (data : Bytes) (key : Int) : Int :=
  search data key (intAt data 1).toNat 0 (intAt data 1)

/-- The first loop of `GetValue`, downwards from a position. -/
def matchesBelow (data : Bytes) (key size : Int) : Nat → List RID → List RID
  | 0, result => result
  | i + 1, result =>
    if intAt data (2 + i) = key then matchesBelow data key size i (ridAt data size i :: result)
    else result

/-- The second loop of `GetValue`, upwards from a position. -/
def matchesAbove (data : Bytes) (key size : Int) : (count : Nat) → Int → List RID → List RID
  | 0, _, result => result
  | count + 1, i, result =>
    if intAt data (2 + i) = key then
      matchesAbove data key size count (i + 1) (result ++ [ridAt data size i])
    else result

/-- The RIDs that `GetValue` collects from a leaf. -/
def collect (data : Bytes) (key : Int) : List RID :=
  let size := intAt data 1
  let pos := binarySearch data key
  matchesAbove data key size (size - pos).toNat pos (matchesBelow data key size pos.toNat [])

/-- The loop of `InsertIntoLeaf` that makes room, downwards from `i` to `pos + 1`. -/
def makeRoom (size pos : Int) : (i : Nat) → Bytes → Bytes
  | 0, data => data
  | i + 1, data =>
    if pos < (i + 1 : Nat) then
      let data := setInt data (2 + (i + 1 : Nat)) (intAt data (2 + (i + 1 : Nat) - 1))
      makeRoom size pos i (setRid data size (i + 1 : Nat) (ridAt data size i))
    else data

/-- `BPlusTree::InsertIntoLeaf`. -/
def insertIntoLeaf (data : Bytes) (key : Int) (value : RID) : Bytes :=
  let size := intAt data 1
  let pos := binarySearch data key
  let data := makeRoom size pos size.toNat data
  setInt (setRid (setInt data (2 + pos) key) size pos value) 1 (size + 1)

/-- The loop of `SplitLeafPage`: `count` entries from number `i` on. -/
def copyEntries (oldData : Bytes) (oldSize splitPoint newSize : Int) :
    (count : Nat) → Int → Bytes → Bytes
  | 0, _, newData => newData
  | count + 1, i, newData =>
    let newData := setInt newData (2 + i) (intAt oldData (2 + splitPoint + i))
    copyEntries oldData oldSize splitPoint newSize count (i + 1)
      (setRid newData newSize i (ridAt oldData oldSize (splitPoint + i)))

/-- `BPlusTree::SplitLeafPage`: both pages afterwards, and the middle key. -/
def splitLeafPage (oldData newData : Bytes) (newPageId : Int) : Bytes × Bytes × Int :=
  let oldSize := intAt oldData 1
  let splitPoint := (oldSize + 1).tdiv 2
  let newSize := oldSize - splitPoint
  let newData := setInt (setInt newData 0 1) 1 newSize
  let newData := copyEntries oldData oldSize splitPoint newSize newSize.toNat 0 newData
  let oldData := setInt oldData 1 splitPoint
  let oldNext := intAt oldData (2 + oldSize + oldSize * 2)
  let newData := setInt newData (2 + newSize + newSize * 2) oldNext
  let oldData := setInt oldData (2 + oldSize + oldSize * 2) newPageId
  (oldData, newData, intAt newData 2)

/-- A split, and the new entry put on the side of the middle key where it belongs. -/
def splitInsert (oldData newData : Bytes) (newPageId key : Int) (value : RID) :
    Bytes × Bytes × Int :=
  let (oldData, newData, middleKey) := splitLeafPage oldData newData newPageId
  if key < middleKey then (insertIntoLeaf oldData key value, newData, middleKey)
  else (oldData, insertIntoLeaf newData key value, middleKey)

/-- The leaf that `Insert` makes the root of an empty tree. -/
def rootLeaf (data : Bytes) (key : Int) (value : RID) : Bytes :=
  setInt (setInt (setInt (setInt (setInt (setInt data 0 1) 1 1) 2 key) 3 value.pageId) 4
    value.slotNum) 5 (-1)

/-- The root that `InsertIntoParent` makes over two nodes. -/
def rootOver (data : Bytes) (oldPageId key newPageId : Int) : Bytes :=
  setInt (setInt (setInt (setInt (setInt data 0 0) 1 1) 2 key) 3 oldPageId) 4 newPageId

/-- The loop of `Remove` that closes the gap: `count` entries from number `i` on. -/
def closeGap (size : Int) : (count : Nat) → Int → Bytes → Bytes
  | 0, _, data => data
  | count + 1, i, data =>
    let data := setInt data (2 + i) (intAt data (2 + i + 1))
    closeGap size count (i + 1) (setRid data size i (ridAt data size (i + 1)))

/-- `Remove` on the page of a leaf that has the key before `pos`. -/
def removeFromLeaf (data : Bytes) (pos : Int) : Bytes :=
  let size := intAt data 1
  setInt (closeGap size (size - 1 - pos).toNat pos data) 1 (size - 1)

/-- `BPlusTree`. -/
structure BPlusTree where
  leafMaxSize : Int
  internalMaxSize : Int
  rootPageId : Int := -1
  leafStartPageId : Int := -1
  latch : Mutex := .unlocked
deriving DecidableEq, Repr

/-- Where a descent stands: out of fuel, a null page, or the frame of a leaf. -/
inductive Descent where
  | unfinished
  | null
  | leaf (frame : Nat)
deriving DecidableEq, Repr

namespace BPlusTree

/-- `std::lock_guard` on the latch around a program. -/
def guarded {Result : Type} (body : BPlusTree → PoolProgram (Result × BPlusTree))
    (tree : BPlusTree) : PoolProgram (Result × BPlusTree) := do
  let (result, tree) ← body { tree with latch := tree.latch.lock }
  return (result, { tree with latch := tree.latch.unlock })

/-- The loop of `FindLeafPage`. -/
def descend (key : Int) (leftMost : Bool) : (fuel : Nat) → Int → PoolProgram Descent
  | 0, _ => return .unfinished
  | fuel + 1, currentPageId => do
    match ← fetchPage currentPageId with
    | none => return .null
    | some frame =>
      let data ← getData frame
      if isLeaf data then
        return .leaf frame
      else
        let childIndex := if leftMost then 0 else binarySearch data key
        let childPageId := intAt data (2 + intAt data 1 + 1 + childIndex)
        let _ ← unpinPage currentPageId false
        descend key leftMost fuel childPageId

/-- `BPlusTree::FindLeafPage`. -/
def findLeafPage (tree : BPlusTree) (fuel : Nat) (key : Int) (leftMost : Bool) :
    PoolProgram Descent :=
  if tree.rootPageId = -1 then return .null else descend key leftMost fuel tree.rootPageId

/-- `BPlusTree::GetValue` into a vector: whether it returns true, and the vector
afterwards. `none` is a descent that did not end. -/
def getValue (fuel : Nat) (key : Int) (result : List RID) :
    BPlusTree → PoolProgram (Option (Bool × List RID) × BPlusTree) :=
  guarded fun tree => do
    if tree.rootPageId = -1 then
      return (some (false, result), tree)
    else
      match ← tree.findLeafPage fuel key false with
      | .unfinished => return (none, tree)
      | .null => return (some (false, result), tree)
      | .leaf frame =>
        let data ← getData frame
        let found := collect data key
        let pageId ← getPageId frame
        let _ ← unpinPage pageId false
        return (some (!found.isEmpty, found), tree)

/-- `BPlusTree::InsertIntoParent`; without a parent pointer only a root is split. -/
def insertIntoParent (tree : BPlusTree) (oldFrame : Nat) (key : Int) (newFrame : Nat) :
    PoolProgram BPlusTree := do
  let oldPageId ← getPageId oldFrame
  let newPageId ← getPageId newFrame
  if oldPageId = tree.rootPageId then
    match ← newPage with
    | none => return tree
    | some (rootPageId, rootFrame) =>
      let data ← getData rootFrame
      putData rootFrame (rootOver data oldPageId key newPageId)
      setDirty rootFrame
      let _ ← unpinPage rootPageId true
      return { tree with rootPageId }
  else
    return tree

/-- `Insert` into an empty tree. -/
def insertRoot (tree : BPlusTree) (key : Int) (value : RID) :
    PoolProgram (Option Bool × BPlusTree) := do
  match ← newPage with
  | none => return (some false, tree)
  | some (pageId, frame) =>
    let data ← getData frame
    putData frame (rootLeaf data key value)
    setDirty frame
    let _ ← unpinPage pageId true
    return (some true, { tree with rootPageId := pageId, leafStartPageId := pageId })

/-- `Insert` into a full leaf. -/
def insertSplit (tree : BPlusTree) (frame : Nat) (key : Int) (value : RID) :
    PoolProgram (Option Bool × BPlusTree) := do
  match ← newPage with
  | none =>
    let pageId ← getPageId frame
    let _ ← unpinPage pageId false
    return (some false, tree)
  | some (newPageId, newFrame) =>
    let oldData ← getData frame
    let newData ← getData newFrame
    let (oldData, newData, middleKey) := splitInsert oldData newData newPageId key value
    putData frame oldData
    putData newFrame newData
    let tree ← tree.insertIntoParent frame middleKey newFrame
    let pageId ← getPageId frame
    let _ ← unpinPage pageId true
    let newPageId ← getPageId newFrame
    let _ ← unpinPage newPageId true
    return (some true, tree)

/-- `BPlusTree::Insert`: whether it returns true. -/
def insert (fuel : Nat) (key : Int) (value : RID) :
    BPlusTree → PoolProgram (Option Bool × BPlusTree) :=
  guarded fun tree => do
    if tree.rootPageId = -1 then
      tree.insertRoot key value
    else
      match ← tree.findLeafPage fuel key false with
      | .unfinished => return (none, tree)
      | .null => return (some false, tree)
      | .leaf frame =>
        let data ← getData frame
        if intAt data 1 < tree.leafMaxSize then
          putData frame (insertIntoLeaf data key value)
          let pageId ← getPageId frame
          let _ ← unpinPage pageId true
          return (some true, tree)
        else
          tree.insertSplit frame key value

/-- `BPlusTree::AdjustRoot`. -/
def adjustRoot (tree : BPlusTree) (frame : Nat) : PoolProgram BPlusTree := do
  let data ← getData frame
  if intAt data 1 = 0 then
    let _ ← deletePage tree.rootPageId
    if isLeaf data then
      return { tree with rootPageId := -1, leafStartPageId := -1 }
    else
      return { tree with rootPageId := intAt data (2 + intAt data 1 + 1) }
  else
    return tree

/-- `BPlusTree::CoalesceOrRedistribute`; a node other than the root is left as it
is, whether or not it is too small. -/
def coalesceOrRedistribute (tree : BPlusTree) (frame : Nat) : PoolProgram BPlusTree := do
  let pageId ← getPageId frame
  if pageId = tree.rootPageId then tree.adjustRoot frame else return tree

/-- `BPlusTree::Remove`: whether it returns true. -/
def remove (fuel : Nat) (key : Int) : BPlusTree → PoolProgram (Option Bool × BPlusTree) :=
  guarded fun tree => do
    if tree.rootPageId = -1 then
      return (some false, tree)
    else
      match ← tree.findLeafPage fuel key false with
      | .unfinished => return (none, tree)
      | .null => return (some false, tree)
      | .leaf frame =>
        let data ← getData frame
        let pos := binarySearch data key
        if pos = 0 ∨ intAt data (2 + pos - 1) ≠ key then
          let pageId ← getPageId frame
          let _ ← unpinPage pageId false
          return (some false, tree)
        else
          putData frame (removeFromLeaf data (pos - 1))
          setDirty frame
          let tree ← tree.coalesceOrRedistribute frame
          let pageId ← getPageId frame
          let _ ← unpinPage pageId true
          return (some true, tree)

/-- `BPlusTree::Begin`: the leaf at which the iterator starts, still pinned. -/
def begin (fuel : Nat) : BPlusTree → PoolProgram (Option (Option (Nat × Int)) × BPlusTree) :=
  guarded fun tree => do
    if tree.rootPageId = -1 then
      return (some none, tree)
    else
      match ← tree.findLeafPage fuel 0 true with
      | .unfinished => return (none, tree)
      | .null => return (some none, tree)
      | .leaf frame =>
        let data ← getData frame
        let pageId ← getPageId frame
        if intAt data 1 = 0 then
          let _ ← unpinPage pageId false
          return (some none, tree)
        else
          return (some (some (frame, pageId)), tree)

end BPlusTree

end MiniDB.Index
