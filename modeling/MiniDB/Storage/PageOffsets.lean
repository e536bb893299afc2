import MiniDB.Storage.DiskManager

/-!
# Where pages are in the file

`ReadPage` computes the offset of a page in `int`, `WritePage` in `size_t`, and `AllocPage`
keeps the number of bytes in an `int`. The three agree with the size of a page times its id
up to the last page but one of a file of 2^31 bytes.
-/

namespace MiniDB.Storage.DiskManager

open Foundation

/-- The offset that `ReadPage` seeks to. -/
def readOffset (pageId : Int) : Int := toInt (pageId * pageSize)

/-- The offset that `WritePage` seeks to. -/
def writeOffset (pageId : Int) : Int := (pageId * pageSize).bmod 18446744073709551616

theorem readPage_eq (manager : DiskManager) (pageId : Int) (pageData : Bytes) :
    manager.readPage pageId pageData = lockGuard (fun manager =>
      let (data, dbFile) := (manager.dbFile.seekg (readOffset pageId)).read pageData pageSize
      (data, { manager with dbFile })) manager := rfl

theorem writePage_eq (manager : DiskManager) (pageId : Int) (buffer : Bytes) :
    manager.writePage pageId buffer = lockGuard' (fun manager =>
      { manager with dbFile :=
          ((manager.dbFile.openInOut.seekp (writeOffset pageId)).write buffer pageSize).close })
      manager := rfl

/-- `AllocPage` a number of times. -/
def allocate : (count : Nat) → DiskManager → DiskManager
  | 0, manager => manager
  | count + 1, manager => allocate count (allocPage manager).2

/-- The number of bytes stays an `int` while the manager of a file allocates pages up to an
id. -/
def FileSizeFits (pageId : Int) : Prop :=
  ∀ (file : Option File) (count : Nat),
    (allocate count (new file)).nextPageId ≤ pageId + 1 →
      -2147483648 ≤ (allocate count (new file)).fileSize ∧
        (allocate count (new file)).fileSize < 2147483648

/-- Reads and writes of a page are at its place, which no earlier page shares, and the bytes
up to it are counted. -/
structure Addressed (pageId : Int) : Prop where
  read : readOffset pageId = pageId * pageSize
  write : writeOffset pageId = pageId * pageSize
  apart : ∀ other, 0 ≤ other → other < pageId →
    ∀ offset ∈ [readOffset pageId, writeOffset pageId],
      ∀ before ∈ [readOffset other, writeOffset other],
        before + pageSize ≤ offset ∨ offset + pageSize ≤ before
  counted : FileSizeFits pageId

variable {pageId : Int}

/-! ## Offsets -/

theorem readOffset_eq_iff (nonneg : 0 ≤ pageId) (isInt : pageId < 2147483648) :
    readOffset pageId = pageId * pageSize ↔ pageId < 524288 := by
  simp only [readOffset, toInt, pageSize]
  constructor
  · intro right
    have range := @Int.bmod_lt (pageId * (4096 : Nat)) 4294967296 (by decide)
    omega
  · intro inRange
    rw [Int.bmod_eq_of_le] <;> omega

theorem writeOffset_eq (nonneg : 0 ≤ pageId) (isInt : pageId < 2147483648) :
    writeOffset pageId = pageId * pageSize := by
  simp only [writeOffset, pageSize]
  rw [Int.bmod_eq_of_le] <;> omega

/-- Offsets of different pages that are right are a page apart. -/
theorem offsets_apart (nonneg : 0 ≤ pageId) (inRange : pageId < 524288) {other : Int}
    (otherNonneg : 0 ≤ other) (earlier : other < pageId) {offset before : Int}
    (isOffset : offset ∈ [readOffset pageId, writeOffset pageId])
    (isBefore : before ∈ [readOffset other, writeOffset other]) : before + pageSize ≤ offset := by
  have reads := (readOffset_eq_iff nonneg (by omega)).mpr inRange
  have otherReads := (readOffset_eq_iff otherNonneg (by omega)).mpr (by omega)
  rw [reads, writeOffset_eq nonneg (by omega)] at isOffset
  rw [otherReads, writeOffset_eq otherNonneg (by omega)] at isBefore
  simp only [List.mem_cons, List.not_mem_nil, or_false, or_self] at isOffset isBefore
  rw [isOffset, isBefore, pageSize]
  omega

/-! ## Allocations -/

/-- Each allocation counts one page. -/
theorem allocate_counts (count : Nat) (manager : DiskManager) :
    (allocate count manager).nextPageId = manager.nextPageId + count ∧
      (allocate count manager).fileSize = manager.fileSize + count * pageSize := by
  induction count generalizing manager with
  | zero => simp [allocate]
  | succ count ih =>
    obtain ⟨ids, bytes⟩ := ih (allocPage manager).2
    rw [allocate, ids, bytes]
    simp only [allocPage, lockGuard, Guarded.setMutex, Guarded.mutex]
    refine ⟨by omega, ?_⟩
    rw [Int.natCast_succ, Int.add_mul]
    omega

/-- The manager of a file starts with an `int`, and with the pages that are complete in it. -/
theorem new_counts (file : Option File) :
    -2147483648 ≤ (new file).fileSize ∧ (new file).fileSize < 2147483648 ∧
      (new file).nextPageId = (new file).fileSize.tdiv pageSize := by
  refine ⟨?_, ?_, rfl⟩
  · exact Int.le_bmod (by decide)
  · exact Int.bmod_lt (by decide)

/-- The number of bytes overflows with the allocation that would complete a file of 2^31. -/
theorem fileSizeFits_iff (nonneg : 0 ≤ pageId) : FileSizeFits pageId ↔ pageId < 524287 := by
  constructor
  · intro fits
    refine Int.not_le.mp fun beyond => ?_
    have empty : (new (some {})).nextPageId = 0 ∧ (new (some {})).fileSize = 0 := by decide
    obtain ⟨ids, bytes⟩ := allocate_counts 524288 (new (some {}))
    rw [empty.1] at ids
    rw [empty.2] at bytes
    have inside := (fits (some {}) 524288 (by omega)).2
    rw [bytes] at inside
    exact absurd inside (by decide)
  · intro inRange file count upTo
    obtain ⟨least, most, pages⟩ := new_counts file
    obtain ⟨ids, bytes⟩ := allocate_counts count (new file)
    have remainder := Int.tmod_add_mul_tdiv (new file).fileSize pageSize
    have less := Int.tmod_lt_of_pos (new file).fileSize (by decide : (0 : Int) < pageSize)
    rw [ids, pages] at upTo
    rw [bytes]
    simp only [pageSize] at *
    omega

/-- Exactly the pages of a file that stays below 2^31 bytes are addressed. -/
theorem addressed_iff (nonneg : 0 ≤ pageId) (isInt : pageId < 2147483648) :
    Addressed pageId ↔ pageId < 524287 := by
  constructor
  · intro addressed
    exact (fileSizeFits_iff nonneg).mp addressed.counted
  · intro inRange
    refine ⟨(readOffset_eq_iff nonneg isInt).mpr (by omega), writeOffset_eq nonneg isInt, ?_,
      (fileSizeFits_iff nonneg).mpr inRange⟩
    intro other otherNonneg earlier offset isOffset before isBefore
    exact .inl (offsets_apart nonneg (by omega) otherNonneg earlier isOffset isBefore)

theorem addressed_lastPage : Addressed 524286 :=
  (addressed_iff (by decide) (by decide)).mpr (by decide)

/-- The page behind 2^31 bytes: its reads go to a negative offset. -/
theorem not_addressed_behind :
    readOffset 524288 = -2147483648 ∧ writeOffset 524288 = 2147483648 ∧ ¬ Addressed 524288 := by
  refine ⟨by decide, by decide, fun addressed => ?_⟩
  exact absurd addressed.read (by decide)

end MiniDB.Storage.DiskManager
