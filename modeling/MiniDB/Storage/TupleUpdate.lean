import MiniDB.Buffer.PageService
import MiniDB.Storage.ServedHeap

/-!
# Updating a tuple

`UpdateTuple` copies the new tuple to byte 16 of the page, whatever slot the RID
names, and leaves the slot entry alone. Byte 16 is the size in the entry of slot 0,
the further entries follow it, and so do the tuples. The update does what it is for
where the bytes that come to lie there are the ones that the slots need.
-/

namespace MiniDB.Storage

open Foundation Buffer PoolProgram

namespace TableHeap

variable {pageData before after : Bytes} {tuple : Tuple} {rid : RID} {slotNum : Int}

/-- `GetTuple` returns false at a slot entry, an offset and a size. -/
def EntryRejected (entry : Int × Int) : Prop :=
  entry.2 ≤ 0 ∨ IsInt (entry.1 + entry.2) ∧ (pageSize : Int) < entry.1 + entry.2

/-- At an entry that it does not reject, `GetTuple` adds beyond the `int`s, or copies from
outside the page or beyond the tuple. -/
def EntryUndefined (entry : Int × Int) : Prop :=
  ¬ IsInt (entry.1 + entry.2) ∨ entry.1 < 0 ∨ (Tuple.maxSize : Int) < entry.2

instance (entry : Int × Int) : Decidable (EntryRejected entry) :=
  inferInstanceAs (Decidable (_ ∨ _))

instance (entry : Int × Int) : Decidable (EntryUndefined entry) :=
  inferInstanceAs (Decidable (_ ∨ _))

/-- `GetTuple` returns false at the slot. -/
abbrev Rejected (pageData : Bytes) (slotNum : Int) : Prop := EntryRejected (getSlot pageData slotNum)

/-- `GetTuple` is undefined at the slot, if it does not return false there. -/
abbrev Undefined (pageData : Bytes) (slotNum : Int) : Prop :=
  EntryUndefined (getSlot pageData slotNum)

/-- The bytes from where a slot entry leads. -/
def bytesOf (pageData : Bytes) (slotNum : Int) : Bytes := fun i =>
  pageData ((getSlot pageData slotNum).1.toNat + i)

/-- The slot entry has the size of the tuple and leads to its bytes. -/
structure Leads (pageData : Bytes) (slotNum : Int) (tuple : Tuple) : Prop where
  size : (getSlot pageData slotNum).2 = tuple.size
  lower : 0 ≤ (getSlot pageData slotNum).1
  upper : (getSlot pageData slotNum).1 + tuple.size ≤ pageSize
  bytes : ∀ i < tuple.size, bytesOf pageData slotNum i = tuple.data i

/-- Two pages have the same tuple in a slot, or none, as `GetTuple` reads it. -/
structure SameSlot (before after : Bytes) (slotNum : Int) : Prop where
  rejected : Rejected after slotNum ↔ Rejected before slotNum
  undefined : ¬ Rejected before slotNum → (Undefined after slotNum ↔ Undefined before slotNum)
  size : ¬ Rejected before slotNum → ¬ Undefined before slotNum →
    (getSlot after slotNum).2 = (getSlot before slotNum).2
  bytes : ¬ Rejected before slotNum → ¬ Undefined before slotNum →
    ∀ i < (getSlot before slotNum).2.toNat, bytesOf after slotNum i = bytesOf before slotNum i

section Read

variable (lower : 0 ≤ rid.slotNum) (upper : rid.slotNum < getNSlots pageData)

/-- What `GetTuple` makes of an entry that it accepts. -/
def accepted (pageData : Bytes) (rid : RID) (out : Tuple) : Tuple :=
  let size := (getSlot pageData rid.slotNum).2.toNat
  { data := out.data.copy 0 (bytesOf pageData rid.slotNum) size, size, rid }

include lower upper

/-- `GetTuple` on the page of a slot that exists. -/
theorem readTuple_eq (out : Tuple) :
    readTuple pageData rid out =
      if Rejected pageData rid.slotNum then some (false, out)
      else if Undefined pageData rid.slotNum then none
      else some (true, accepted pageData rid out) := by
  have exists_slot : ¬ (rid.slotNum < 0 ∨ getNSlots pageData ≤ rid.slotNum) := by omega
  rw [readTuple, if_neg exists_slot]
  by_cases none : (getSlot pageData rid.slotNum).2 ≤ 0
  · have rejected : Rejected pageData rid.slotNum := .inl none
    rw [if_pos rejected]
    exact if_pos none
  by_cases isInt : IsInt ((getSlot pageData rid.slotNum).1 + (getSlot pageData rid.slotNum).2)
  · by_cases outside :
        (pageSize : Int) < (getSlot pageData rid.slotNum).1 + (getSlot pageData rid.slotNum).2
    · have rejected : Rejected pageData rid.slotNum := .inr ⟨isInt, outside⟩
      rw [if_pos rejected]
      exact (if_neg none).trans ((if_neg (not_not.mpr isInt)).trans (if_pos outside))
    · have taken : ¬ Rejected pageData rid.slotNum := by
        rintro (isNone | ⟨-, isOutside⟩)
        · exact none isNone
        · exact outside isOutside
      rw [if_neg taken]
      refine (if_neg none).trans ((if_neg (not_not.mpr isInt)).trans ((if_neg outside).trans ?_))
      by_cases wrong : (getSlot pageData rid.slotNum).1 < 0 ∨
          (Tuple.maxSize : Int) < (getSlot pageData rid.slotNum).2
      · have undefined : Undefined pageData rid.slotNum := .inr wrong
        rw [if_pos undefined]
        exact if_pos wrong
      · have defined : ¬ Undefined pageData rid.slotNum := by
          rintro (notInt | isWrong)
          · exact notInt isInt
          · exact wrong isWrong
        rw [if_neg defined]
        refine (if_neg wrong).trans ?_
        have small : (getSlot pageData rid.slotNum).2.toNat ≤ Tuple.maxSize := by omega
        simp only [getSlot] at small
        simp only [Tuple.setSize, if_pos small]
        rfl
  · have taken : ¬ Rejected pageData rid.slotNum := by
      rintro (isNone | ⟨isInt', -⟩)
      · exact none isNone
      · exact isInt isInt'
    have undefined : Undefined pageData rid.slotNum := .inl isInt
    rw [if_neg taken, if_pos undefined]
    exact (if_neg none).trans (if_pos isInt)

/-- Where `GetTuple` is defined and does not refuse, it copies the bytes. -/
theorem readTuple_of_defined (taken : ¬ Rejected pageData rid.slotNum)
    (defined : ¬ Undefined pageData rid.slotNum) (out : Tuple) :
    readTuple pageData rid out = some (true, accepted pageData rid out) := by
  rw [readTuple_eq lower upper, if_neg taken, if_neg defined]

/-- `GetTuple` returns false exactly at a rejected entry. -/
theorem readTuple_rejects_iff (out : Tuple) :
    readTuple pageData rid out = some (false, out) ↔ Rejected pageData rid.slotNum := by
  rw [readTuple_eq lower upper]
  split_ifs <;> simp_all

/-- `GetTuple` is undefined exactly at an undefined entry that it does not reject. -/
theorem readTuple_undefined_iff (out : Tuple) :
    readTuple pageData rid out = none ↔
      ¬ Rejected pageData rid.slotNum ∧ Undefined pageData rid.slotNum := by
  rw [readTuple_eq lower upper]
  split_ifs <;> simp_all

/-- `GetTuple` brings a tuple exactly when the slot entry leads to it. -/
theorem readTuple_brings_iff (nonempty : 0 < tuple.size) (bounded : tuple.size ≤ Tuple.maxSize) :
    (∀ out, ∃ got, readTuple pageData rid out = some (true, got) ∧ got.size = tuple.size ∧
        ∀ i < tuple.size, got.data i = tuple.data i) ↔
      Leads pageData rid.slotNum tuple := by
  constructor
  · intro brings
    obtain ⟨got, answer, size, bytes⟩ := brings {}
    have taken : ¬ Rejected pageData rid.slotNum := by
      rw [← readTuple_rejects_iff lower upper {}, answer]
      simp
    have defined : ¬ Undefined pageData rid.slotNum := by
      intro undefined
      rw [(readTuple_undefined_iff lower upper {}).mpr ⟨taken, undefined⟩] at answer
      cases answer
    rw [readTuple_of_defined lower upper taken defined] at answer
    obtain rfl := (Prod.mk.inj (Option.some.inj answer)).2
    simp only [accepted] at size bytes
    simp only [EntryRejected, EntryUndefined, IsInt] at taken defined
    refine ⟨by omega, by omega, by omega, fun i inside => ?_⟩
    rw [← bytes i inside, Bytes.copy, if_pos (by omega), Nat.sub_zero]
  · intro leads out
    obtain ⟨size, low, high, bytes⟩ := leads
    have taken : ¬ Rejected pageData rid.slotNum := by
      unfold Rejected EntryRejected
      omega
    have defined : ¬ Undefined pageData rid.slotNum := by
      simp only [pageSize] at high
      simp only [EntryUndefined, IsInt]
      omega
    refine ⟨_, readTuple_of_defined lower upper taken defined out, ?_, fun i inside => ?_⟩
    · simp only [accepted, size, Int.toNat_natCast]
    · simp only [accepted, size, Int.toNat_natCast]
      rw [← bytes i inside, Bytes.copy, if_pos (by omega), Nat.sub_zero]

end Read

/-- Entries of the same tuple are accepted alike. -/
theorem accepted_congr (size : (getSlot after rid.slotNum).2.toNat = (getSlot before rid.slotNum).2.toNat)
    (bytes : ∀ i < (getSlot before rid.slotNum).2.toNat,
      bytesOf after rid.slotNum i = bytesOf before rid.slotNum i) (out : Tuple) :
    accepted after rid out = accepted before rid out := by
  simp only [accepted, size]
  congr 1
  ext i
  unfold Bytes.copy
  split
  · next inside => rw [bytes _ (by omega)]
  · rfl

/-- Two pages with the slot read the same there exactly when it has the same tuple. -/
theorem readTuple_same_iff (lower : 0 ≤ rid.slotNum) (upperBefore : rid.slotNum < getNSlots before)
    (upperAfter : rid.slotNum < getNSlots after) :
    (∀ out, readTuple after rid out = readTuple before rid out) ↔
      SameSlot before after rid.slotNum := by
  constructor
  · intro same
    have rejected : Rejected after rid.slotNum ↔ Rejected before rid.slotNum := by
      rw [← readTuple_rejects_iff lower upperAfter {}, ← readTuple_rejects_iff lower upperBefore {},
        same]
    have undefined (taken : ¬ Rejected before rid.slotNum) :
        Undefined after rid.slotNum ↔ Undefined before rid.slotNum := by
      have none := readTuple_undefined_iff lower upperAfter {}
      rw [same, readTuple_undefined_iff lower upperBefore] at none
      simpa [rejected, taken, iff_comm] using none
    have equal (taken : ¬ Rejected before rid.slotNum) (defined : ¬ Undefined before rid.slotNum) :
        accepted after rid {} = accepted before rid {} := by
      have answers := same {}
      rw [readTuple_of_defined lower upperAfter (rejected.not.mpr taken)
        ((undefined taken).not.mpr defined), readTuple_of_defined lower upperBefore taken defined]
        at answers
      exact (Prod.mk.inj (Option.some.inj answers)).2
    refine ⟨rejected, undefined, fun taken defined => ?_, fun taken defined i inside => ?_⟩
    · have sizes := congrArg Tuple.size (equal taken defined)
      have takenAfter := rejected.not.mpr taken
      simp only [accepted] at sizes
      unfold Rejected EntryRejected at taken takenAfter
      omega
    · have sizes := congrArg Tuple.size (equal taken defined)
      have data := congrFun (congrArg Tuple.data (equal taken defined)) i
      simp only [accepted] at sizes
      simpa only [accepted, sizes, Bytes.copy, Nat.zero_le, Nat.zero_add, inside, and_self, if_true,
        Nat.sub_zero] using data
  · intro same out
    rw [readTuple_eq lower upperBefore, readTuple_eq lower upperAfter]
    by_cases rejected : Rejected before rid.slotNum
    · rw [if_pos rejected, if_pos (same.rejected.mpr rejected)]
    · rw [if_neg rejected, if_neg (fun found => rejected (same.rejected.mp found))]
      by_cases undefined : Undefined before rid.slotNum
      · rw [if_pos undefined, if_pos ((same.undefined rejected).mpr undefined)]
      · rw [if_neg undefined, if_neg (fun found => undefined ((same.undefined rejected).mp found)),
          accepted_congr (congrArg Int.toNat (same.size rejected undefined))
            (same.bytes rejected undefined)]

/-- The number of slots lies before the bytes that are written. -/
theorem getNSlots_overwrite (pageData : Bytes) (tuple : Tuple) :
    getNSlots (overwrite pageData tuple) = getNSlots pageData :=
  Bytes.readInt_copy_of_disjoint (by omega)

/-! ## What the tuple covers -/

/-- `UpdateTuple` writes the tuple over this byte of the page. -/
def Overwrites (tuple : Tuple) (place : Nat) : Prop := 16 ≤ place ∧ place < 16 + tuple.size

instance (tuple : Tuple) (place : Nat) : Decidable (Overwrites tuple place) :=
  inferInstanceAs (Decidable (_ ∧ _))

/-- A field of a slot entry beside the tuple: the page's own where the tuple does not reach it,
and as it stands in the tuple where that covers it. The end of the tuple may cover the
first bytes of a field. -/
def fieldUnder (pageData : Bytes) (tuple : Tuple) (place : Nat) : Int :=
  if place + 4 ≤ 16 ∨ 16 + tuple.size ≤ place then pageData.readInt place
  else if place + 4 ≤ 16 + tuple.size then tuple.data.readInt (place - 16)
  else
    let tail : Bytes := fun i => tuple.data (place - 16 + i)
    (pageData.copy place tail (16 + tuple.size - place)).readInt place

/-- The entry of a slot, with the fields that the tuple covers as they stand in it. -/
def entryUnder (pageData : Bytes) (tuple : Tuple) (slotNum : Int) : Int × Int :=
  (fieldUnder pageData tuple (slotOffset slotNum),
    fieldUnder pageData tuple (slotOffset slotNum + 4))

/-- The entry has the size of the tuple and an offset in the page. From there on the tuple
repeats its own bytes where it covers them, and elsewhere the page has them already. -/
structure FindsTuple (pageData : Bytes) (tuple : Tuple) (entry : Int × Int) : Prop where
  size : entry.2 = tuple.size
  lower : 0 ≤ entry.1
  upper : entry.1 + tuple.size ≤ pageSize
  covered : ∀ i < tuple.size, Overwrites tuple (entry.1.toNat + i) →
    tuple.data (entry.1.toNat + i - 16) = tuple.data i
  spared : ∀ i < tuple.size, ¬ Overwrites tuple (entry.1.toNat + i) →
    pageData (entry.1.toNat + i) = tuple.data i

instance (pageData : Bytes) (tuple : Tuple) (entry : Int × Int) :
    Decidable (FindsTuple pageData tuple entry) :=
  decidable_of_iff (_ ∧ _ ∧ _ ∧ _ ∧ _)
    ⟨fun ⟨size, lower, upper, covered, spared⟩ => ⟨size, lower, upper, covered, spared⟩,
      fun finds => ⟨finds.size, finds.lower, finds.upper, finds.covered, finds.spared⟩⟩

/-- `GetTuple` brings a tuple for the entry. -/
abbrev Readable (entry : Int × Int) : Prop := ¬ EntryRejected entry ∧ ¬ EntryUndefined entry

/-- Where the tuple covers bytes that an entry leads to, it has the same bytes. -/
def KeepsBytes (pageData : Bytes) (tuple : Tuple) (entry : Int × Int) : Prop :=
  Readable entry → ∀ i < entry.2.toNat, Overwrites tuple (entry.1.toNat + i) →
    tuple.data (entry.1.toNat + i - 16) = pageData (entry.1.toNat + i)

instance (pageData : Bytes) (tuple : Tuple) (entry : Int × Int) :
    Decidable (KeepsBytes pageData tuple entry) :=
  inferInstanceAs (Decidable (_ → _))

/-- The entry that stands in the tuple does for the one that the tuple covers: both are
refused, or both are undefined, or they have one size and lead to the same bytes. -/
structure Replaces (pageData : Bytes) (tuple : Tuple) (entry under : Int × Int) : Prop where
  rejected : EntryRejected under ↔ EntryRejected entry
  undefined : ¬ EntryRejected entry → (EntryUndefined under ↔ EntryUndefined entry)
  size : Readable entry → under.2 = entry.2
  covered : Readable entry → ∀ i < entry.2.toNat, Overwrites tuple (under.1.toNat + i) →
    tuple.data (under.1.toNat + i - 16) = pageData (entry.1.toNat + i)
  spared : Readable entry → ∀ i < entry.2.toNat, ¬ Overwrites tuple (under.1.toNat + i) →
    pageData (under.1.toNat + i) = pageData (entry.1.toNat + i)

instance (pageData : Bytes) (tuple : Tuple) (entry under : Int × Int) :
    Decidable (Replaces pageData tuple entry under) :=
  decidable_of_iff (_ ∧ _ ∧ _ ∧ _ ∧ _)
    ⟨fun ⟨rejected, undefined, size, covered, spared⟩ =>
        ⟨rejected, undefined, size, covered, spared⟩,
      fun replaces => ⟨replaces.rejected, replaces.undefined, replaces.size, replaces.covered,
        replaces.spared⟩⟩

section Covered

variable (bounded : tuple.size ≤ Tuple.maxSize)

include bounded

/-- The page after `UpdateTuple`, byte by byte. -/
theorem overwrite_apply (pageData : Bytes) (place : Nat) :
    overwrite pageData tuple place =
      if Overwrites tuple place then tuple.data (place - 16) else pageData place := by
  have whole : min tuple.size (pageSize - 16) = tuple.size :=
    Nat.min_eq_left (Nat.le_trans bounded (by decide))
  rw [overwrite, whole, Bytes.copy]
  rfl

/-- What `get_slot` reads in a field that lies before byte 16 or behind it. -/
theorem readInt_overwrite (pageData : Bytes) {place : Nat} (apart : place + 4 ≤ 16 ∨ 16 ≤ place) :
    (overwrite pageData tuple).readInt place = fieldUnder pageData tuple place := by
  unfold fieldUnder
  split
  · next outside =>
    refine Bytes.readInt_congr fun i inside => ?_
    rw [overwrite_apply bounded, if_neg (by unfold Overwrites; omega)]
  · next reached =>
    split
    · next whole =>
      refine Bytes.readInt_congr fun i inside => ?_
      rw [overwrite_apply bounded, if_pos (by unfold Overwrites; omega)]
      congr 1
      omega
    · next cut =>
      refine Bytes.readInt_congr fun i inside => ?_
      rw [overwrite_apply bounded, Bytes.copy]
      by_cases covered : Overwrites tuple (place + i)
      · rw [if_pos covered, if_pos (by unfold Overwrites at covered; omega)]
        congr 1
        omega
      · rw [if_neg covered, if_neg (by unfold Overwrites at covered; omega)]

/-- The slot entry after `UpdateTuple`, from the page before it and the tuple. -/
theorem getSlot_overwrite (pageData : Bytes) {slotNum : Int} (lower : 0 ≤ slotNum) :
    getSlot (overwrite pageData tuple) slotNum = entryUnder pageData tuple slotNum := by
  have offset : slotOffset slotNum = 12 + 8 * slotNum.toNat := by
    simp only [slotOffset, slotHeader, slotEntrySize]
    omega
  rw [getSlot, entryUnder, readInt_overwrite bounded pageData (by omega),
    readInt_overwrite bounded pageData (by omega)]

/-- The bytes to which a slot entry leads after `UpdateTuple`. -/
theorem bytesOf_overwrite (pageData : Bytes) {slotNum : Int} (lower : 0 ≤ slotNum) (i : Nat) :
    bytesOf (overwrite pageData tuple) slotNum i =
      if Overwrites tuple ((entryUnder pageData tuple slotNum).1.toNat + i) then
        tuple.data ((entryUnder pageData tuple slotNum).1.toNat + i - 16)
      else pageData ((entryUnder pageData tuple slotNum).1.toNat + i) := by
  rw [bytesOf, getSlot_overwrite bounded pageData lower, overwrite_apply bounded]

/-- The written page leads to the tuple from the entry that is under it. -/
theorem leads_overwrite_iff (pageData : Bytes) {slotNum : Int} (lower : 0 ≤ slotNum) :
    Leads (overwrite pageData tuple) slotNum tuple ↔
      FindsTuple pageData tuple (entryUnder pageData tuple slotNum) := by
  have entry := getSlot_overwrite bounded pageData lower
  have bytes := bytesOf_overwrite bounded pageData lower
  constructor
  · rintro ⟨size, low, high, leads⟩
    rw [entry] at size low high
    refine ⟨size, low, high, fun i inside covered => ?_, fun i inside spared => ?_⟩
    · rw [← leads i inside, bytes, if_pos covered]
    · rw [← leads i inside, bytes, if_neg spared]
  · rintro ⟨size, low, high, covered, spared⟩
    rw [← entry] at size low high
    refine ⟨size, low, high, fun i inside => ?_⟩
    rw [bytes]
    split
    · next isCovered => exact covered i inside isCovered
    · next isSpared => exact spared i inside isSpared

/-- A slot has its tuple in the written page exactly when the entry under the tuple does for
its own. -/
theorem sameSlot_overwrite_iff (pageData : Bytes) {slotNum : Int} (lower : 0 ≤ slotNum) :
    SameSlot pageData (overwrite pageData tuple) slotNum ↔
      Replaces pageData tuple (getSlot pageData slotNum) (entryUnder pageData tuple slotNum) := by
  have entry := getSlot_overwrite bounded pageData lower
  have bytes := bytesOf_overwrite bounded pageData lower
  constructor
  · rintro ⟨rejected, undefined, size, same⟩
    simp only [Rejected, Undefined, entry] at rejected undefined size
    refine ⟨rejected, undefined, fun readable => size readable.1 readable.2,
      fun readable i inside covered => ?_, fun readable i inside spared => ?_⟩
    · have here := same readable.1 readable.2 i inside
      rwa [bytes, if_pos covered] at here
    · have here := same readable.1 readable.2 i inside
      rwa [bytes, if_neg spared] at here
  · rintro ⟨rejected, undefined, size, covered, spared⟩
    refine ⟨?_, ?_, fun taken defined => ?_, fun taken defined i inside => ?_⟩
    · simpa only [Rejected, entry] using rejected
    · simpa only [Rejected, Undefined, entry] using undefined
    · rw [entry]
      exact size ⟨taken, defined⟩
    · rw [bytes]
      split
      · next isCovered => exact covered ⟨taken, defined⟩ i inside isCovered
      · next isSpared => exact spared ⟨taken, defined⟩ i inside isSpared

omit bounded

/-- Where the tuple does not reach the entry of a slot, only the bytes of its tuple matter. -/
theorem replaces_beyond_iff (pageData : Bytes) {slotNum : Int}
    (beyond : 16 + tuple.size ≤ slotOffset slotNum) :
    Replaces pageData tuple (getSlot pageData slotNum) (entryUnder pageData tuple slotNum) ↔
      KeepsBytes pageData tuple (getSlot pageData slotNum) := by
  have own : entryUnder pageData tuple slotNum = getSlot pageData slotNum := by
    rw [entryUnder, fieldUnder, fieldUnder, if_pos (.inr beyond), if_pos (.inr (by omega)), getSlot]
  rw [own]
  constructor
  · exact fun replaces => replaces.covered
  · exact fun keeps => ⟨Iff.rfl, fun _ => Iff.rfl, fun _ => rfl, keeps, fun _ _ _ _ => rfl⟩

end Covered

/-! ## Updates through the pool -/

section Pool

variable {pool : BufferPool IdealDisk} {pages : Pages} {pins : List ClientPin}

/-- `GetTuple` reads the page when the pool brings it. -/
theorem run_getTuple_brings (tidy : pool.Tidy) (shows : pool.ShowsPages pages pins)
    (allocated : pages.Allocated rid.pageId) (valid : rid.isValid = true)
    (brings : pool.Brings rid.pageId) (out : Tuple) :
    (run (getTuple rid out) pool).1 = readTuple (pages.contents rid.pageId) rid out := by
  rcases shows.fetchPage allocated with ⟨refused, -⟩ | ⟨frame, fetched, held⟩
  · exact absurd refused (tidy.fetchPage_ne_none_iff.mpr brings)
  · have data := (held.pageAt_eq (List.mem_cons_self ..)).2
    simp only [getTuple, valid, Bool.true_eq_false, if_false, run_bind, run_fetchPage, fetched,
      run_getData, data, run_pure]

/-- `GetTuple` returns false where the page cannot be brought. -/
theorem run_getTuple_refused (tidy : pool.Tidy) (refuses : ¬ pool.Brings rid.pageId) (out : Tuple) :
    (run (getTuple rid out) pool).1 = some (false, out) := by
  have refused : (pool.fetchPage rid.pageId).1 = none :=
    not_not.mp fun served => refuses (tidy.fetchPage_ne_none_iff.mp served)
  unfold getTuple
  split
  · rfl
  · simp only [run_bind, run_fetchPage, refused, run_pure]

/-- `UpdateTuple` of a page that the pool brings. -/
theorem run_updateTuple_brings (tidy : pool.Tidy) (shows : pool.ShowsPages pages pins)
    (allocated : pages.Allocated rid.pageId) (valid : rid.isValid = true)
    (brings : pool.Brings rid.pageId) (tuple : Tuple) :
    ∃ after, run (updateTuple tuple rid) pool = (true, after) ∧ after.Tidy ∧
      after.ShowsPages (pages.write rid.pageId (overwrite (pages.contents rid.pageId) tuple)) pins ∧
      ∀ pageId, after.Brings pageId ↔ pool.Brings pageId := by
  rcases shows.fetchPage allocated with ⟨refused, -⟩ | ⟨frame, fetched, held⟩
  · exact absurd refused (tidy.fetchPage_ne_none_iff.mpr brings)
  · have data := (held.pageAt_eq (List.mem_cons_self ..)).2
    have written := idealService.putData held (overwrite (pages.contents rid.pageId) tuple)
    have marked := idealService.setDirty written (List.mem_cons_self ..)
    have released := @PageService.unpinPage _ idealService _ _ _ _ true marked (fun _ => rfl)
    have tidyAfter := ((((tidy.handle (.fetchPage rid.pageId)).handle
      (.putData frame (overwrite (pages.contents rid.pageId) tuple))).handle
      (.setDirty frame)).handle (.unpinPage rid.pageId true))
    refine ⟨_, ?_, tidyAfter, released, ?_⟩
    · simp only [updateTuple, valid, Bool.true_eq_false, if_false, run_bind, run_fetchPage, fetched,
        run_getData, data, run_putData, run_setDirty, run_unpinPage, run_pure]
      rfl
    · apply shows.brings_iff released ?_ brings
      · intro resident
        obtain ⟨found, lookup⟩ := Option.ne_none_iff_exists'.mp resident
        refine (BufferPool.pageTable_unpinPage _ _ _).trans ?_
        change (pool.fetchPage rid.pageId).2.frames.pageTable = _
        rw [BufferPool.fetchPage_hit lookup]
        rfl
      · exact (BufferPool.poolSize_unpinPage _ _ _).trans (BufferPool.poolSize_fetchPage _ _)

/-- `UpdateTuple` of a page that the pool does not bring. -/
theorem run_updateTuple_refused (tidy : pool.Tidy) (refuses : ¬ pool.Brings rid.pageId)
    (tuple : Tuple) :
    (run (updateTuple tuple rid) pool).1 = false ∧
      (run (updateTuple tuple rid) pool).2.frames = pool.frames := by
  have refused : (pool.fetchPage rid.pageId).1 = none :=
    not_not.mp fun served => refuses (tidy.fetchPage_ne_none_iff.mp served)
  have fetches := pool.fetchPage_fetches rid.pageId
  rw [refused] at fetches
  unfold updateTuple
  split
  · exact ⟨rfl, rfl⟩
  · simp only [run_bind, run_fetchPage, refused, run_pure]
    exact ⟨trivial, fetches.refused_eq⟩

/-- What `UpdateTuple` is for: when it returns true, the RID leads to the new tuple and
every other one to what it led to before; when it returns false, nothing has changed. -/
def ChangesOne (live : List RID) (tuple : Tuple) (rid : RID) (pool : BufferPool IdealDisk) : Prop :=
  let outcome := run (updateTuple tuple rid) pool
  (outcome.1 = true →
    (∀ out, ∃ got, (run (getTuple rid out) outcome.2).1 = some (true, got) ∧
        got.size = tuple.size ∧ ∀ i < tuple.size, got.data i = tuple.data i) ∧
      ∀ other ∈ live, other ≠ rid → ∀ out,
        (run (getTuple other out) outcome.2).1 = (run (getTuple other out) pool).1) ∧
    (outcome.1 = false → outcome.2.frames = pool.frames)

/-- Byte 16 of its page is the place for the new tuple: it can be found from the slot of the
RID; it has the bytes that it covers of a tuple whose entry lies beyond it; and where it
reaches the entry of another slot, what stands in it does for that entry. -/
structure LandsInPlace (pages : Pages) (live : List RID) (tuple : Tuple) (rid : RID) : Prop where
  own : FindsTuple (pages.contents rid.pageId) tuple
    (entryUnder (pages.contents rid.pageId) tuple rid.slotNum)
  beyond : ∀ other ∈ live, other ≠ rid → other.pageId = rid.pageId →
    16 + tuple.size ≤ slotOffset other.slotNum →
    KeepsBytes (pages.contents rid.pageId) tuple
      (getSlot (pages.contents rid.pageId) other.slotNum)
  reached : ∀ other ∈ live, other ≠ rid → other.pageId = rid.pageId →
    slotOffset other.slotNum < 16 + tuple.size →
    Replaces (pages.contents rid.pageId) tuple
      (getSlot (pages.contents rid.pageId) other.slotNum)
      (entryUnder (pages.contents rid.pageId) tuple other.slotNum)

/-- The condition is what the written page has to be like. -/
theorem landsInPlace_iff {live : List RID} (lives : ∀ other ∈ live, LiveIn pages other)
    (member : rid ∈ live) (bounded : tuple.size ≤ Tuple.maxSize) :
    LandsInPlace pages live tuple rid ↔
      Leads (overwrite (pages.contents rid.pageId) tuple) rid.slotNum tuple ∧
        ∀ other ∈ live, other ≠ rid → other.pageId = rid.pageId →
          SameSlot (pages.contents rid.pageId) (overwrite (pages.contents rid.pageId) tuple)
            other.slotNum := by
  rw [leads_overwrite_iff bounded _ (lives rid member).lower]
  constructor
  · rintro ⟨own, beyond, reached⟩
    refine ⟨own, fun other otherMember different samePage => ?_⟩
    rw [sameSlot_overwrite_iff bounded _ (lives other otherMember).lower]
    rcases Nat.lt_or_ge (slotOffset other.slotNum) (16 + tuple.size) with isReached | isBeyond
    · exact reached other otherMember different samePage isReached
    · exact (replaces_beyond_iff _ isBeyond).mpr
        (beyond other otherMember different samePage isBeyond)
  · rintro ⟨own, others⟩
    have replaces (other : RID) (otherMember : other ∈ live) (different : other ≠ rid)
        (samePage : other.pageId = rid.pageId) :=
      (sameSlot_overwrite_iff bounded _ (lives other otherMember).lower).mp
        (others other otherMember different samePage)
    refine ⟨own, fun other otherMember different samePage isBeyond => ?_,
      fun other otherMember different samePage _ => replaces other otherMember different samePage⟩
    exact (replaces_beyond_iff _ isBeyond).mp (replaces other otherMember different samePage)

/-- A slot reads the same after its page or another one was written exactly when it has
the same tuple. -/
theorem getTuple_same_iff (tidy : pool.Tidy) (shows : pool.ShowsPages pages pins) {pageId : Int}
    {data : Bytes} {after : BufferPool IdealDisk} (tidyAfter : after.Tidy)
    (showsAfter : after.ShowsPages (pages.write pageId data) pins)
    (slots : getNSlots data = getNSlots (pages.contents pageId))
    (same : ∀ pageId, after.Brings pageId ↔ pool.Brings pageId) (brings : pool.Brings pageId)
    (live : LiveIn pages rid) :
    (∀ out, (run (getTuple rid out) after).1 = (run (getTuple rid out) pool).1) ↔
      (rid.pageId = pageId → SameSlot (pages.contents pageId) data rid.slotNum) := by
  by_cases samePage : rid.pageId = pageId
  · subst samePage
    have before := run_getTuple_brings tidy shows live.allocated live.isValid brings
    have afterwards := run_getTuple_brings tidyAfter showsAfter live.allocated live.isValid
      ((same _).mpr brings)
    rw [Pages.contents_write_self] at afterwards
    rw [forall_prop_of_true rfl, ← readTuple_same_iff live.lower live.upper (slots.symm ▸ live.upper)]
    simp only [before, afterwards]
  · refine iff_of_true (fun out => ?_) fun onPage => absurd onPage samePage
    by_cases otherBrings : pool.Brings rid.pageId
    · rw [run_getTuple_brings tidy shows live.allocated live.isValid otherBrings,
        run_getTuple_brings tidyAfter showsAfter live.allocated live.isValid
          ((same _).mpr otherBrings), Pages.contents_write_of_ne samePage]
    · rw [run_getTuple_refused tidy otherBrings,
        run_getTuple_refused tidyAfter fun served => otherBrings ((same _).mp served)]

/-- `UpdateTuple` changes exactly one tuple exactly when the pool does not bring its
page, or byte 16 happens to be the place for it. -/
theorem updateTuple_changesOne_iff (tidy : pool.Tidy) (shows : pool.ShowsPages pages pins)
    {live : List RID} (lives : ∀ other ∈ live, LiveIn pages other) (member : rid ∈ live)
    (nonempty : 0 < tuple.size) (bounded : tuple.size ≤ Tuple.maxSize) :
    ChangesOne live tuple rid pool ↔
      (pool.Brings rid.pageId → LandsInPlace pages live tuple rid) := by
  have here := lives rid member
  by_cases brings : pool.Brings rid.pageId
  · obtain ⟨after, updates, tidyAfter, showsAfter, same⟩ :=
      run_updateTuple_brings tidy shows here.allocated here.isValid brings tuple
    have pageAfter : (pages.write rid.pageId (overwrite (pages.contents rid.pageId) tuple)).contents
        rid.pageId = overwrite (pages.contents rid.pageId) tuple := Pages.contents_write_self
    have slots := getNSlots_overwrite (pages.contents rid.pageId) tuple
    have own := @readTuple_brings_iff (overwrite (pages.contents rid.pageId) tuple) tuple rid here.lower
      (slots.symm ▸ here.upper) nonempty bounded
    have ownRead := run_getTuple_brings tidyAfter showsAfter here.allocated here.isValid
      ((same _).mpr brings)
    rw [pageAfter] at ownRead
    have otherRead (other : RID) (otherMember : other ∈ live) :=
      getTuple_same_iff tidy shows tidyAfter showsAfter slots same brings (lives other otherMember)
    rw [forall_prop_of_true brings, landsInPlace_iff lives member bounded]
    simp only [ChangesOne, updates, ownRead, own, forall_const, Bool.true_eq_false, false_imp_iff,
      and_true]
    constructor
    · rintro ⟨leads, others⟩
      exact ⟨leads, fun other otherMember different =>
        (otherRead other otherMember).mp (others other otherMember different)⟩
    · rintro ⟨leads, others⟩
      exact ⟨leads, fun other otherMember different =>
        (otherRead other otherMember).mpr (others other otherMember different)⟩
  · obtain ⟨answer, unchanged⟩ := run_updateTuple_refused tidy brings tuple
    refine iff_of_true ⟨fun updated => ?_, fun _ => unchanged⟩ fun served => absurd served brings
    cases answer.symm.trans updated

end Pool

/-- A tuple of one `int`. -/
def intTuple (value : Int) : Tuple := { data := Bytes.zeros.writeInt 0 value, size := 4 }

/-- Tuples are put into a heap over an empty pool of one frame. -/
def filledPool (tuples : List Tuple) : (Option (List RID) × TableHeap) × BufferPool IdealDisk :=
  run (build tuples) (BufferPool.new 1 (IdealDisk.start 0 fun _ => Bytes.zeros) .noop)

/-- The pool of a filled heap shows its first page. -/
theorem shows_filledPool {tuples : List Tuple} {live : List RID}
    (filled : (filledPool tuples).1.1 = some live) :
    (filledPool tuples).2.Tidy ∧ ∃ pages, (filledPool tuples).2.ShowsPages pages [] ∧
      ∀ rid ∈ live, LiveIn pages rid := by
  obtain ⟨pages, shows, lives⟩ := @builds _ idealService _ _ _
    (showsPages_new 1 0 fun _ => Bytes.zeros) (by decide) _ _ filled
  refine ⟨?_, pages, shows, lives⟩
  exact Client.run_keeps (fun before after : BufferPool IdealDisk => before.Tidy → after.Tidy)
    (fun _ tidy => tidy) (fun first second tidy => second (first tidy))
    (fun request _ tidy => tidy.handle request) (build tuples) _ (BufferPool.tidy_new _ _)

/-- Two tuples of four bytes: the second one is stored at byte 16. -/
abbrev twoTuples : List Tuple := [intTuple 5000, intTuple 7]

abbrev twoRids : List RID := [{ pageId := 0, slotNum := 0 }, { pageId := 0, slotNum := 1 }]

/-- The second tuple is updated in place. The size in the entry of slot 0 is lost, but
its offset is not inside the page anyway. -/
theorem updateTuple_changesOne_second :
    ChangesOne twoRids (intTuple 9) { pageId := 0, slotNum := 1 } (filledPool twoTuples).2 := by
  have filled : (filledPool twoTuples).1.1 = some twoRids := by decide +kernel
  obtain ⟨tidy, pages, shows, lives⟩ := shows_filledPool filled
  refine (updateTuple_changesOne_iff tidy shows lives (by decide) (by decide) (by decide)).mpr
    fun _ => ?_
  have page : pages.contents 0 = ((filledPool twoTuples).2.pageAt 0).data :=
    (shows.mirrors.data (show (filledPool twoTuples).2.frames.pages 0 = some _ from rfl)).symm
  refine ⟨?_, fun other member _ _ => ?_, fun other member _ _ => ?_⟩
  · simp only [page]
    decide +kernel
  · simp only [page]
    revert other
    decide +kernel
  · simp only [page]
    revert other
    decide +kernel

/-- The one tuple of a heap reads back before the update, but then its size is what
was to be its value. -/
theorem update_sets_size :
    ¬ ∀ (tuples : List Tuple) (live : List RID), (filledPool tuples).1.1 = some live →
      ∀ rid ∈ live, ∀ tuple : Tuple, 0 < tuple.size → tuple.size ≤ Tuple.maxSize →
        ChangesOne live tuple rid (filledPool tuples).2 := by
  intro changes
  have changesOne := changes [intTuple 12] [{ pageId := 0, slotNum := 0 }] (by decide +kernel) _
    (List.mem_singleton.mpr rfl) (intTuple 9) (by decide) (by decide)
  obtain ⟨got, brought, size, -⟩ := (changesOne.1 (by decide +kernel)).1 {}
  have sizes := congrArg (Option.map fun answer => answer.2.size) brought
  rw [Option.map_some, size] at sizes
  revert sizes
  decide +kernel

end TableHeap

end MiniDB.Storage
