import MiniDB.Buffer.FittingPool
import MiniDB.Storage.DiskRestarts

/-!
# Fitting programs over restarts

What a program that fits in the pool has written is in the database file when the process
ends, but for the page that was written first and not again: of it the file has what it
had before. A disk that keeps what it is given, and notes in which order, says which page
this is and what the others are.
-/

namespace MiniDB.Storage

open Foundation Buffer

/-- A disk that keeps what it is given, and notes which pages it is given. -/
structure NotingDisk where
  ideal : IdealDisk
  /-- The pages that were written, oldest first. -/
  writes : List Int := []

instance : IssuesIds NotingDisk where
  readPage disk pageId out := ((Disk.readPage disk.ideal pageId out).1, disk)
  writePage disk pageId data :=
    { ideal := Disk.writePage disk.ideal pageId data, writes := disk.writes ++ [pageId] }
  allocPage disk :=
    ((Disk.allocPage disk.ideal).1, { disk with ideal := (Disk.allocPage disk.ideal).2 })
  nextPageId disk := disk.ideal.nextPageId
  readPage_keeps _ _ _ := rfl
  writePage_keeps _ _ _ := rfl
  allocPage_id _ := rfl
  allocPage_next _ := rfl

/-- The page that is lost by writes in this order: the first one, if it is not written again. -/
def lostPage : List Int → Option Int
  | [] => none
  | first :: later => if first ∈ later then none else some first

/-- A later write does not lose its page. -/
theorem lostPage_append {writes : List Int} (written : writes ≠ []) (pageId page : Int) :
    lostPage (writes ++ [pageId]) = some page ↔ lostPage writes = some page ∧ page ≠ pageId := by
  obtain ⟨first, later, rfl⟩ := List.exists_cons_of_ne_nil written
  simp only [List.cons_append, lostPage, List.mem_append, List.mem_singleton]
  by_cases again : first ∈ later
  · simp [again]
  · by_cases here : first = pageId
    · rw [if_pos (.inr here), if_neg again, here]
      constructor
      · rintro ⟨⟩
      · rintro ⟨same, different⟩
        exact absurd (Option.some.inj same).symm different
    · rw [if_neg (by simp [again, here]), if_neg again]
      constructor
      · rintro same
        exact ⟨same, fun isPage => here ((Option.some.inj same).trans isPage)⟩
      · exact And.left

namespace DiskManager

variable {original file : File} {manager : DiskManager} {noting : NotingDisk}

/-- The file has the bytes of the noting disk, but for the page that is lost, which is as it
was in the original file. -/
structure Saves (original file : File) (manager : DiskManager) (noting : NotingDisk) : Prop where
  lives : Lives noting.writes.isEmpty file manager
  unwritten : noting.writes = [] → file = original
  bytes : ∀ page : AddressedPage, ∀ i < pageSize, file.byteAt (page * pageSize + i) =
    if lostPage noting.writes = some ((page : Nat) : Int) then original.byteAt (page * pageSize + i)
    else noting.ideal.bytes (page : Nat) i

/-- The manager issues the ids of the noting disk and has saved what it was given. -/
structure SavesAllButLost (original : File) (manager : DiskManager) (noting : NotingDisk) :
    Prop where
  next : manager.nextPageId = noting.ideal.nextPageId
  saved : ∃ file, Saves original file manager noting

/-- A write changes its own page. -/
theorem bytes_writePage (ideal : IdealDisk) (page other : AddressedPage) (data : Bytes) :
    IdealDisk.bytes (Disk.writePage ideal ((page : Nat) : Int) data) (other : Nat) =
      if page = other then data else ideal.bytes (other : Nat) := by
  by_cases same : page = other
  · subst same
    have written : (Disk.writePage ideal ((page : Nat) : Int) data).written (page : Nat) =
        some data := Function.update_self ..
    rw [if_pos rfl, IdealDisk.bytes, written]
    rfl
  · rw [if_neg same]
    refine IdealDisk.bytes_congr (Function.update_of_ne (fun sameId => same ?_) _ _)
    exact Fin.ext (by omega)

theorem writes_writePage (noting : NotingDisk) (pageId : Int) (data : Bytes) :
    (Disk.writePage noting pageId data).writes = noting.writes ++ [pageId] := rfl

theorem ideal_writePage (noting : NotingDisk) (pageId : Int) (data : Bytes) :
    (Disk.writePage noting pageId data).ideal = Disk.writePage noting.ideal pageId data := rfl

theorem isEmpty_writes (noting : NotingDisk) (pageId : Int) (data : Bytes) :
    (Disk.writePage noting pageId data).writes.isEmpty = false := by
  simp [writes_writePage]

/-- The first write does not reach the file: the page that it loses is as it was. -/
theorem Saves.writePage_first (saves : Saves original file manager noting)
    (none : noting.writes = []) (page : AddressedPage) (data : Bytes) :
    Saves original file (manager.writePage (page : Nat) data)
      (Disk.writePage noting (page : Nat) data) := by
  obtain ⟨lives, unwritten, bytes⟩ := saves
  rw [none] at lives bytes
  refine ⟨?_, fun _ => unwritten none, fun other i inside => ?_⟩
  · rw [isEmpty_writes]
    exact lives.writePage_first _ data
  · have lost : lostPage ([] ++ [((page : Nat) : Int)]) = some ((page : Nat) : Int) := rfl
    rw [ideal_writePage, writes_writePage, none, lost, bytes_writePage]
    by_cases same : page = other
    · subst same
      rw [if_pos rfl, unwritten none]
    · have different : some ((page : Nat) : Int) ≠ some ((other : Nat) : Int) :=
        fun sameId => same (Fin.ext (Int.ofNat.inj (Option.some.inj sameId)))
      rw [if_neg different, if_neg same]
      exact bytes other i inside

/-- A later write reaches the file, also when it is to the page that was lost. -/
theorem Saves.writePage_later (saves : Saves original file manager noting)
    (written : noting.writes ≠ []) (page : AddressedPage) (data : Bytes) :
    Saves original (file.write (page * pageSize) data pageSize)
      (manager.writePage (page : Nat) data) (Disk.writePage noting (page : Nat) data) := by
  obtain ⟨lives, unwritten, bytes⟩ := saves
  have started : noting.writes.isEmpty = false := by simpa using written
  rw [started] at lives
  refine ⟨?_, fun empty => ?_, fun other i inside => ?_⟩
  · rw [isEmpty_writes]
    exact lives.writePage_later page data
  · rw [writes_writePage] at empty
    exact absurd empty (by simp)
  · rw [ideal_writePage, writes_writePage, bytes_writePage, File.byteAt_write]
    simp only [lostPage_append written]
    by_cases same : page = other
    · subst same
      rw [if_pos (by omega), if_neg (fun lost => lost.2 rfl), if_pos rfl, Nat.add_sub_cancel_left]
    · have different : ((other : Nat) : Int) ≠ (page : Nat) :=
        fun sameId => same (Fin.ext (by omega))
      have apart : ¬ ((page : Nat) * pageSize ≤ other * pageSize + i ∧
          other * pageSize + i < page * pageSize + pageSize) :=
        fun covers => same (Fin.ext ((File.inside_block_iff inside).mp covers))
      rw [if_neg apart, bytes other i inside, if_neg same]
      simp only [different, ne_eq, not_false_eq_true, and_true]

/-- The first write of a process loses its page, and every other write is saved. -/
theorem SavesAllButLost.writePage (saves : SavesAllButLost original manager noting)
    (page : AddressedPage) (data : Bytes) :
    SavesAllButLost original (manager.writePage (page : Nat) data)
      (Disk.writePage noting (page : Nat) data) := by
  obtain ⟨next, file, saved⟩ := saves
  refine ⟨next, ?_⟩
  by_cases none : noting.writes = []
  · exact ⟨file, saved.writePage_first none page data⟩
  · exact ⟨_, saved.writePage_later none page data⟩

/-- The manager and the noting disk stay together as long as only addressable pages are
written. -/
theorem keptByWrites_saves {first : Int} (nonneg : 0 ≤ first) :
    KeptByWrites (SavesAllButLost original) fun pageId => first ≤ pageId ∧ pageId < 524287 where
  next saves := saves.next
  allocPage saves := by
    obtain ⟨next, file, lives, unwritten, bytes⟩ := saves
    exact ⟨congrArg (· + 1) next, file, ⟨lives.isOpen, lives.file⟩, unwritten, bytes⟩
  writePage := by
    intro manager noting pageId data inRange saves
    have isPage : ((pageId.toNat : Nat) : Int) = pageId := Int.toNat_of_nonneg (by omega)
    have written := saves.writePage ⟨pageId.toNat, by omega⟩ data
    rw [isPage] at written
    exact written

end DiskManager

end MiniDB.Storage

namespace MiniDB.Buffer

open Foundation Storage

namespace BufferPool

open DiskManager

/-- After a program that fits, the next process reads from the file what a disk that keeps
everything has, but for the page that was written first and not again, where it reads what
the file had before. -/
theorem fitting_program_restarts {Result : Type} (poolSize : Nat) (file : Option File)
    (ideal : IdealDisk) (inRange : (file.getD {}).size < 2147483648)
    (sameIds : ideal.nextPageId = (DiskManager.new file).nextPageId)
    (sameBytes : ∀ page : AddressedPage, ∀ i < pageSize,
      ideal.bytes (page : Nat) i = (file.getD {}).byteAt (page * pageSize + i))
    (room : ideal.nextPageId + poolSize ≤ 524287) (program : PoolProgram Result)
    (fits : Client.Each handle (Fits ideal.nextPageId) program
      (new poolSize (DiskManager.new file))) :
    let pool := (PoolProgram.run program (new poolSize (DiskManager.new file))).2
    let noted := (PoolProgram.run program (new poolSize ({ ideal } : NotingDisk) .noop)).2.frames.disk
    let restarted := DiskManager.new pool.frames.disk.dbFile.file
    ∀ page : AddressedPage, ∀ i < pageSize, (restarted.readPage (page : Nat) Bytes.zeros).1 i =
      if lostPage noted.writes = some ((page : Nat) : Int) then
        (file.getD {}).byteAt (page * pageSize + i)
      else noted.ideal.bytes (page : Nat) i := by
  intro pool noted restarted page i inside
  have nonneg : 0 ≤ ideal.nextPageId := by
    cases file with
    | none => exact sameIds ▸ Int.le_refl 0
    | some file =>
      have next := new_nextPageId inRange
      rw [Option.getD_some] at next
      rw [sameIds, next]
      exact Int.natCast_nonneg _
  have saves : SavesAllButLost (file.getD {}) (DiskManager.new file) ({ ideal } : NotingDisk) :=
    ⟨sameIds.symm, file.getD {}, lives_new file, fun _ => rfl,
      fun page i inside => (sameBytes page i inside).symm⟩
  have beside := beside_new poolSize file ({ ideal } : NotingDisk) .noop (sameIds ▸ room) saves
  rw [sameIds] at fits nonneg
  obtain ⟨-, after⟩ := Client.run_of_simulates (beside_handle (keptByWrites_saves nonneg)) program
    beside fits
  obtain ⟨-, left, lives, -, bytes⟩ := after.twin.frames.disk
  have isLeft : restarted = DiskManager.new (some left) := congrArg DiskManager.new lives.file
  rw [isLeft, readPage_new_zeros left page inside]
  exact bytes page i inside

end BufferPool

/-- Two pages are created, written and flushed. -/
def PoolProgram.writeTwoPages : PoolProgram Unit := do
  match ← newPage, ← newPage with
  | some (pageId, frame), some (secondId, second) =>
    putData frame fun _ => 1
    putData second fun _ => 2
    let _ ← unpinPage pageId true
    let _ ← unpinPage secondId true
    flushAllPages
  | _, _ => return ()

/-- The page that is flushed first is not there after a restart, and the other one is. -/
theorem BufferPool.fitting_program_restarts_two_pages :
    let pool := (PoolProgram.writeTwoPages.run (BufferPool.new 2 (DiskManager.new none))).2
    let restarted := DiskManager.new pool.frames.disk.dbFile.file
    (restarted.readPage 0 Bytes.zeros).1 0 = 1 ∧ (restarted.readPage 1 Bytes.zeros).1 0 = 0 := by
  have noBytes : ∀ (page : DiskManager.AddressedPage), ∀ i < pageSize,
      (IdealDisk.start 0 fun _ => Bytes.zeros).bytes (page : Nat) i =
        (Option.getD none {} : File).byteAt (page * pageSize + i) := by
    intro page i _
    have unwritten : (IdealDisk.start 0 fun _ => Bytes.zeros).written (page : Nat) = none := by
      simp only [IdealDisk.start]
      rw [if_neg (by omega)]
    rw [IdealDisk.bytes, unwritten]
    rfl
  have reads := fitting_program_restarts 2 none (IdealDisk.start 0 fun _ => Bytes.zeros) (by decide)
    (by decide) noBytes (by decide) PoolProgram.writeTwoPages (by decide +kernel)
  exact ⟨(reads 0 0 (by decide)).trans (by decide +kernel),
    (reads 1 0 (by decide)).trans (by decide +kernel)⟩

end MiniDB.Buffer
