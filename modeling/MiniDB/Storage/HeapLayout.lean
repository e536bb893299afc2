import MiniDB.Storage.TableHeap

/-!
# Slots and tuples in one page

Slot entries and tuple bytes both grow upwards from `SLOT_HEADER`. Storing a
tuple spares what is stored already, and its own entry, exactly at the bytes
where `NoClash` holds: there the bytes written on top of each other are equal.
-/

namespace MiniDB.Storage

open Foundation

/-- Byte `index` of the slot entry of an offset and a size. -/
def entryByte (offset size : Int) (index : Nat) : UInt8 :=
  if index < 4 then Bytes.intByte offset index else Bytes.intByte size (index - 4)

/-- The header of a heap page. -/
structure Header (pageData : Bytes) (nSlots nextFree : Nat) : Prop where
  slots : getNSlots pageData = nSlots
  free : getNextFree pageData = nextFree
  lower : slotHeader ≤ nextFree
  upper : nextFree ≤ pageSize

/-- The slot entry leads to the bytes of the tuple, below `nextFree`. -/
structure Keeps (pageData : Bytes) (nextFree slot : Nat) (tuple : Tuple) (offset : Nat) : Prop where
  lower : slotHeader ≤ offset
  upper : offset + tuple.size ≤ nextFree
  entry : ∀ i < slotEntrySize,
    pageData (slotOffset slot + i) = entryByte offset tuple.size i
  bytes : ∀ i < tuple.size, pageData (offset + i) = tuple.data i

/-- The bytes that storing a tuple writes over bytes in use are the bytes there:
its slot entry over earlier tuples, its bytes over earlier slot entries, and its
bytes over its own slot entry. -/
structure NoClash (pageData : Bytes) (nSlots nextFree : Nat) (tuple : Tuple) : Prop where
  tuples : ∀ i < slotEntrySize, slotOffset nSlots + i < nextFree →
    entryByte nextFree tuple.size i = pageData (slotOffset nSlots + i)
  entries : ∀ i < tuple.size, nextFree + i < slotOffset nSlots →
    tuple.data i = pageData (nextFree + i)
  own : ∀ i < slotEntrySize, ∀ k < tuple.size, slotOffset nSlots + i = nextFree + k →
    entryByte nextFree tuple.size i = tuple.data k

instance (pageData : Bytes) (nSlots nextFree : Nat) (tuple : Tuple) :
    Decidable (NoClash pageData nSlots nextFree tuple) :=
  decidable_of_iff (_ ∧ _ ∧ _)
    ⟨fun ⟨tuples, entries, own⟩ => ⟨tuples, entries, own⟩,
      fun noClash => ⟨noClash.tuples, noClash.entries, noClash.own⟩⟩

theorem slotOffset_natCast (slot : Nat) : slotOffset slot = 12 + slot * 8 := by
  simp only [slotOffset, slotHeader, slotEntrySize]
  omega

/-- A stored entry reads back. -/
theorem getSlot_of_entry {pageData : Bytes} {slot offset size : Nat} (offsetInt : offset ≤ pageSize)
    (sizeInt : size ≤ pageSize)
    (entry : ∀ i < slotEntrySize, pageData (slotOffset slot + i) = entryByte offset size i) :
    getSlot pageData slot = ((offset : Int), (size : Int)) := by
  simp only [pageSize] at offsetInt sizeInt
  have first : pageData.readInt (slotOffset slot) = offset := by
    refine Bytes.readInt_intByte (by omega) fun i inside => ?_
    rw [entry i (by simp only [slotEntrySize]; omega), entryByte, if_pos inside]
  have second : pageData.readInt (slotOffset slot + 4) = size := by
    refine Bytes.readInt_intByte (by omega) fun i inside => ?_
    rw [Nat.add_assoc, entry (4 + i) (by simp only [slotEntrySize]; omega), entryByte,
      if_neg (by omega)]
    congr 1
    omega
  simp only [getSlot, first, second]

theorem setSlot_apply (pageData : Bytes) (slot : Nat) (offset size : Int) (i : Nat) :
    setSlot pageData slot offset size i =
      if slotOffset slot ≤ i ∧ i < slotOffset slot + slotEntrySize then
        entryByte offset size (i - slotOffset slot)
      else pageData i := by
  have width : slotEntrySize = 8 := rfl
  simp only [setSlot, Bytes.writeInt, Bytes.copy, entryByte]
  generalize slotOffset slot = base
  by_cases second : base + 4 ≤ i ∧ i < base + 4 + 4
  · rw [if_pos second, if_pos (by omega), if_neg (by omega), Nat.sub_sub]
  · rw [if_neg second]
    by_cases first : base ≤ i ∧ i < base + 4
    · rw [if_pos first, if_pos (by omega), if_pos (by omega)]
    · rw [if_neg first, if_neg (by omega)]

namespace TableHeap

theorem copySize_eq {tuple : Tuple} (bounded : tuple.size ≤ Tuple.maxSize) :
    copySize tuple = tuple.size := by
  simp only [Tuple.maxSize] at bounded
  simp only [copySize, pageSize, slotHeader]
  omega

variable {pageData : Bytes} {nSlots nextFree : Nat} {tuple : Tuple}

/-- The bytes of a page after a tuple is stored, from the slots on. -/
theorem storeTuple_apply (header : Header pageData nSlots nextFree)
    (bounded : tuple.size ≤ Tuple.maxSize) {i : Nat} (beyond : slotHeader ≤ i) :
    storeTuple pageData tuple i =
      if nextFree ≤ i ∧ i < nextFree + tuple.size then tuple.data (i - nextFree)
      else setSlot pageData nSlots nextFree tuple.size i := by
  simp only [slotHeader] at beyond
  simp only [storeTuple, copySize_eq bounded, header.slots, header.free, setNSlots, setNextFree,
    Int.toNat_natCast]
  rw [Bytes.writeInt, Bytes.copy_outside (by omega), Bytes.writeInt,
    Bytes.copy_outside (by omega), Bytes.copy]

/-- Bytes in use stay as they are. -/
theorem storeTuple_used (header : Header pageData nSlots nextFree)
    (bounded : tuple.size ≤ Tuple.maxSize) (noClash : NoClash pageData nSlots nextFree tuple)
    {i : Nat} (beyond : slotHeader ≤ i) (used : i < nextFree ∨ i < slotOffset nSlots) :
    storeTuple pageData tuple i = pageData i := by
  rw [storeTuple_apply header bounded beyond]
  split
  · next inTuple =>
    have same := noClash.entries (i - nextFree) (by omega) (by omega)
    rwa [Nat.add_sub_cancel' inTuple.1] at same
  · rw [setSlot_apply]
    split
    · next inEntry =>
      have same := noClash.tuples (i - slotOffset nSlots) (by omega) (by omega)
      rwa [Nat.add_sub_cancel' inEntry.1] at same
    · rfl

theorem copySize_le (tuple : Tuple) : copySize tuple ≤ 4020 :=
  Nat.min_le_right _ _

/-- A page that gets a tuple has one slot more. -/
theorem getNSlots_storeTuple (room : isFull pageData (copySize tuple) = false) :
    getNSlots (storeTuple pageData tuple) = getNSlots pageData + 1 := by
  have range := Bytes.readInt_range pageData 8
  simp only [isFull, Bool.or_eq_false_iff, decide_eq_false_iff_not] at room
  simp only [getNSlots, maxSlotsPerPage, pageSize, slotHeader, slotEntrySize] at room range
  simp only [getNSlots, storeTuple, setNSlots]
  exact Bytes.readInt_writeInt (by omega)

/-- The header after a tuple is stored. -/
theorem header_stored (header : Header pageData nSlots nextFree)
    (room : isFull pageData (copySize tuple) = false) :
    Header (storeTuple pageData tuple) (nSlots + 1) (nextFree + copySize tuple) := by
  have lower := header.lower
  simp only [isFull, header.slots, header.free, Bool.or_eq_false_iff, decide_eq_false_iff_not,
    maxSlotsPerPage, pageSize, slotHeader, slotEntrySize] at room lower
  simp only [storeTuple, header.slots, header.free]
  refine ⟨?_, ?_, by simp only [slotHeader]; omega, by simp only [pageSize]; omega⟩
  · rw [getNSlots, setNSlots, Bytes.readInt_writeInt (by omega)]
    rfl
  · rw [getNextFree, setNSlots, Bytes.readInt_writeInt_of_disjoint (by omega), setNextFree,
      Bytes.readInt_writeInt (by omega)]
    rfl

theorem header_storeTuple (header : Header pageData nSlots nextFree)
    (bounded : tuple.size ≤ Tuple.maxSize) (room : isFull pageData (copySize tuple) = false) :
    Header (storeTuple pageData tuple) (nSlots + 1) (nextFree + tuple.size) :=
  copySize_eq bounded ▸ header_stored header room

/-- What the page kept, it still keeps. -/
theorem Keeps.storeTuple {slot offset : Nat} {kept : Tuple}
    (keeps : Keeps pageData nextFree slot kept offset) (below : slot < nSlots)
    (header : Header pageData nSlots nextFree) (bounded : tuple.size ≤ Tuple.maxSize)
    (noClash : NoClash pageData nSlots nextFree tuple) :
    Keeps (storeTuple pageData tuple) (nextFree + tuple.size) slot kept offset := by
  have lower := keeps.lower
  have upper := keeps.upper
  refine ⟨lower, by omega, fun i inside => ?_, fun i inside => ?_⟩
  · rw [← keeps.entry i inside]
    apply storeTuple_used header bounded noClash
    · simp only [slotOffset_natCast, slotHeader]
      omega
    · simp only [slotOffset_natCast]
      simp only [slotEntrySize] at inside
      omega
  · rw [← keeps.bytes i inside]
    exact storeTuple_used header bounded noClash (by omega) (by omega)

/-- The page keeps the tuple it is given. -/
theorem keeps_storeTuple (header : Header pageData nSlots nextFree)
    (bounded : tuple.size ≤ Tuple.maxSize) (noClash : NoClash pageData nSlots nextFree tuple) :
    Keeps (storeTuple pageData tuple) (nextFree + tuple.size) nSlots tuple nextFree := by
  have lower := header.lower
  refine ⟨lower, Nat.le_refl _, fun i inside => ?_, fun i inside => ?_⟩
  · have beyond : slotHeader ≤ slotOffset nSlots + i := by
      simp only [slotOffset_natCast, slotHeader]
      omega
    rw [storeTuple_apply header bounded beyond]
    split
    · next inTuple =>
      exact (noClash.own i inside _ (by omega) (Nat.add_sub_cancel' inTuple.1).symm).symm
    · rw [setSlot_apply, if_pos (by omega), Nat.add_sub_cancel_left]
  · rw [storeTuple_apply header bounded (by omega), if_pos (by omega), Nat.add_sub_cancel_left]

/-- The header that is written into a page without tuples. -/
theorem header_written (pageData : Bytes) :
    Header (setNSlots (setNextFree pageData slotHeader) 0) 0 slotHeader := by
  refine ⟨?_, ?_, Nat.le_refl _, by decide⟩
  · rw [getNSlots, setNSlots, Bytes.readInt_writeInt (by omega)]
    rfl
  · rw [getNextFree, setNSlots, Bytes.readInt_writeInt_of_disjoint (by omega), setNextFree,
      Bytes.readInt_writeInt (by decide)]

theorem header_initPage (pageData : Bytes) : Header (initPage pageData) 0 slotHeader :=
  header_written _

theorem header_emptyPage : Header emptyPage 0 slotHeader := header_written _

/-- An empty page has room for every tuple. -/
theorem isFull_emptyPage (tuple : Tuple) : isFull emptyPage (copySize tuple) = false := by
  have bound := copySize_le tuple
  simp only [isFull, header_emptyPage.slots, header_emptyPage.free, Bool.or_eq_false_iff,
    decide_eq_false_iff_not, maxSlotsPerPage, pageSize, slotHeader, slotEntrySize]
  omega

end TableHeap

end MiniDB.Storage
