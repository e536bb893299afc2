import MiniDB.Buffer.PoolClient
import MiniDB.Common.Types

/-!
# The table heap

`TableHeap` keeps tuples in slotted pages. A page starts with `next_free` at byte
4 and `n_slots` at byte 8; the slot entries follow from `SLOT_HEADER` on, eight
bytes each, and so do the tuples, because `next_free` starts at `SLOT_HEADER`.
-/

namespace MiniDB.Storage

open Foundation Buffer PoolProgram

/-- `Tuple`: the bytes and how many of them count. -/
structure Tuple where
  data : Bytes := Bytes.zeros
  size : Nat := 0
  rid : RID := {}

namespace Tuple

/-- `Tuple::MAX_SIZE`. -/
def maxSize : Nat := 2048

/-- `Tuple::Tuple(data, size, rid)`: a size that is too large is kept, without the bytes. -/
def make (data : Bytes) (size : Nat) (rid : RID) : Tuple where
  data := if size ≤ maxSize then Bytes.zeros.copy 0 data size else Bytes.zeros
  size
  rid

/-- `Tuple::SetSize`. -/
def setSize (tuple : Tuple) (size : Nat) : Tuple :=
  if size ≤ maxSize then { tuple with size } else tuple

/-- `Tuple::GetIntValue`. -/
def getIntValue (tuple : Tuple) (offset : Nat) : Int :=
  if offset + 4 ≤ tuple.size then tuple.data.readInt offset else 0

/-- `Tuple::SetIntValue` for any `size_t`; `offset + sizeof(int)` wraps around. -/
def setIntValue (tuple : Tuple) (offset : UInt64) (value : Int) : Tuple :=
  if (offset + 4).toNat ≤ maxSize then
    { tuple with
      data := tuple.data.writeInt offset.toNat value
      size := if tuple.size < (offset + 4).toNat then (offset + 4).toNat else tuple.size }
  else tuple

end Tuple

/-- `SLOT_HEADER`. -/
def slotHeader : Nat := 12

/-- `SLOT_ENTRY_SIZE`. -/
def slotEntrySize : Nat := 8

/-- `MAX_SLOTS_PER_PAGE`. -/
def maxSlotsPerPage : Nat := (pageSize - slotHeader) / (slotEntrySize + 32)

def getNextFree (pageData : Bytes) : Int := pageData.readInt 4

def getNSlots (pageData : Bytes) : Int := pageData.readInt 8

def setNextFree (pageData : Bytes) (value : Int) : Bytes := pageData.writeInt 4 value

def setNSlots (pageData : Bytes) (value : Int) : Bytes := pageData.writeInt 8 value

/-- Where the entry of a slot starts. -/
def slotOffset (slotNum : Int) : Nat := (slotHeader + slotNum * slotEntrySize).toNat

/-- `get_slot`: the offset and the size. -/
def getSlot (pageData : Bytes) (slotNum : Int) : Int × Int :=
  (pageData.readInt (slotOffset slotNum), pageData.readInt (slotOffset slotNum + 4))

/-- `set_slot`. -/
def setSlot (pageData : Bytes) (slotNum offset size : Int) : Bytes :=
  (pageData.writeInt (slotOffset slotNum) offset).writeInt (slotOffset slotNum + 4) size

/-- `TableHeap`. -/
structure TableHeap where
  firstPageId : Int := -1
  lastPageId : Int := -1
deriving DecidableEq, Repr

namespace TableHeap

/-- The header that the constructor writes. -/
def initPage (pageData : Bytes) : Bytes :=
  setNSlots (setNextFree (pageData.writeInt 0 0) slotHeader) 0

/-- `TableHeap::TableHeap`. -/
def new : PoolProgram TableHeap := do
  match ← newPage with
  | none => return {}
  | some (pageId, frame) =>
    let pageData ← getData frame
    putData frame (initPage pageData)
    let _ ← unpinPage pageId true
    return { firstPageId := pageId, lastPageId := pageId }

/-- `copy_size`. -/
def copySize (tuple : Tuple) : Nat := min tuple.size (pageSize - slotHeader - 64)

/-- A page without room for one more tuple. -/
def isFull (pageData : Bytes) (copySize : Nat) : Bool :=
  decide ((maxSlotsPerPage : Int) ≤ getNSlots pageData) ||
    decide ((pageSize : Int) < getNextFree pageData + copySize + slotEntrySize)

/-- The writes of `InsertTuple` into a page: the slot entry, the bytes, the header. -/
def storeTuple (pageData : Bytes) (tuple : Tuple) : Bytes :=
  let nextFree := getNextFree pageData
  let nSlots := getNSlots pageData
  let pageData := setSlot pageData nSlots nextFree (copySize tuple)
  let pageData := pageData.copy nextFree.toNat tuple.data (copySize tuple)
  setNSlots (setNextFree pageData (nextFree + copySize tuple)) (nSlots + 1)

/-- A page of zeros with the header of an empty heap page. -/
def emptyPage : Bytes := setNSlots (setNextFree Bytes.zeros slotHeader) 0

/-- The end of `InsertTuple`, once it has a page with room. -/
def storeAt (heap : TableHeap) (frame : Nat) (tuple : Tuple) :
    PoolProgram (Option RID × TableHeap) := do
  let pageData ← getData frame
  putData frame (storeTuple pageData tuple)
  setDirty frame
  let _ ← unpinPage heap.lastPageId true
  return (some { pageId := heap.lastPageId, slotNum := getNSlots pageData }, heap)

/-- `InsertTuple` from the test for room on: a full page is released and a new one
taken. -/
def insertInto (heap : TableHeap) (frame : Nat) (tuple : Tuple) :
    PoolProgram (Option RID × TableHeap) := do
  let pageData ← getData frame
  if isFull pageData (copySize tuple) then
    let _ ← unpinPage heap.lastPageId false
    match ← newPage with
    | none => return (none, heap)
    | some (pageId, newFrame) =>
      putData newFrame emptyPage
      storeAt { heap with lastPageId := pageId } newFrame tuple
  else
    storeAt heap frame tuple

/-- `TableHeap::InsertTuple`, with the RID that it reports when it returns true. -/
def insertTuple (heap : TableHeap) (tuple : Tuple) : PoolProgram (Option RID × TableHeap) := do
  match ← fetchPage heap.lastPageId with
  | none =>
    match ← newPage with
    | none => return (none, heap)
    | some (pageId, frame) =>
      let firstPageId := if heap.firstPageId < 0 then pageId else heap.firstPageId
      let heap : TableHeap := { firstPageId, lastPageId := pageId }
      putData frame emptyPage
      heap.insertInto frame tuple
  | some frame => heap.insertInto frame tuple

/-- What `GetTuple` makes of the page: whether it returns true, and the tuple
afterwards. `none` is a sum that is not an `int`, or an access outside the page or
the tuple. -/
def readTuple (pageData : Bytes) (rid : RID) (tuple : Tuple) : Option (Bool × Tuple) :=
  if rid.slotNum < 0 ∨ getNSlots pageData ≤ rid.slotNum then some (false, tuple)
  else
    let (offset, size) := getSlot pageData rid.slotNum
    if size ≤ 0 then some (false, tuple)
    else if ¬ IsInt (offset + size) then none
    else if (pageSize : Int) < offset + size then some (false, tuple)
    else if offset < 0 ∨ (Tuple.maxSize : Int) < size then none
    else
      let tuple := { tuple.setSize size.toNat with rid }
      let source : Bytes := fun i => pageData (offset.toNat + i)
      some (true, { tuple with data := tuple.data.copy 0 source size.toNat })

/-- `TableHeap::GetTuple` into a given tuple. -/
def getTuple (rid : RID) (tuple : Tuple) : PoolProgram (Option (Bool × Tuple)) := do
  if rid.isValid = false then return some (false, tuple)
  match ← fetchPage rid.pageId with
  | none => return some (false, tuple)
  | some frame =>
    let pageData ← getData frame
    let _ ← unpinPage rid.pageId false
    return readTuple pageData rid tuple

/-- The write of `UpdateTuple` into a page, whichever slot the RID names. -/
def overwrite (pageData : Bytes) (tuple : Tuple) : Bytes :=
  pageData.copy 16 tuple.data (min tuple.size (pageSize - 16))

/-- `TableHeap::UpdateTuple`: whether it returns true. -/
def updateTuple (tuple : Tuple) (rid : RID) : PoolProgram Bool := do
  if rid.isValid = false then return false
  match ← fetchPage rid.pageId with
  | none => return false
  | some frame =>
    let pageData ← getData frame
    putData frame (overwrite pageData tuple)
    setDirty frame
    let _ ← unpinPage rid.pageId true
    return true

/-- `TableHeap::DeleteTuple`: whether it returns true. The page is marked as dirty and
no byte of it changes. -/
def deleteTuple (rid : RID) : PoolProgram Bool := do
  if rid.isValid = false then return false
  match ← fetchPage rid.pageId with
  | none => return false
  | some frame =>
    setDirty frame
    let _ ← unpinPage rid.pageId true
    return true

/-- `TableHeap::FlushBatch`. -/
def flushBatch : PoolProgram Unit := flushAllPages

end TableHeap

end MiniDB.Storage
