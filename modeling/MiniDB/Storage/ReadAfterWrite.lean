import Mathlib.Logic.Function.Basic
import MiniDB.Foundation.Run
import MiniDB.Storage.DiskManager

/-!
# Reading back what was written

A history carries, next to the disk manager, the last bytes written to each page
and whether the stream was disturbed: by a `WritePage`, which closes it, or by a
`ReadPage` that ran past the end of the file. From then on no read brings a byte.
-/

namespace MiniDB.Storage

open Foundation

/-- The pages whose offset is an `int`. -/
abbrev PageNumber := Fin 524288

/-- The calls on a disk manager. -/
inductive DiskCall where
  | allocPage
  | writePage (page : PageNumber) (buffer : Bytes)
  | readPage (page : PageNumber) (out : Bytes)

/-- A disk manager with the record of what it was given. -/
structure DiskHistory where
  disk : DiskManager
  /-- The file when the manager was built. -/
  initial : File
  /-- The last bytes given to `WritePage`, by page. -/
  written : PageNumber → Option Bytes := fun _ => none
  /-- A page was written, or a read ran past the end of the file. -/
  disturbed : Bool := false

namespace DiskHistory

/-- A new manager on the file at its path; a missing file is created empty. -/
def start (file : Option File) : DiskHistory :=
  { disk := DiskManager.new file, initial := file.getD {} }

/-- The page lies in the file as it was at the start. -/
def whole (history : DiskHistory) (page : PageNumber) : Bool :=
  decide (page * pageSize + pageSize ≤ history.initial.size)

/-- One call. -/
def step (history : DiskHistory) : DiskCall → DiskHistory
  | .allocPage => { history with disk := history.disk.allocPage.2 }
  | .writePage page buffer =>
    { history with
      disk := history.disk.writePage (page : Nat) buffer
      written := Function.update history.written page (some buffer)
      disturbed := true }
  | .readPage page out =>
    { history with
      disk := (history.disk.readPage (page : Nat) out).2
      disturbed := history.disturbed || !history.whole page }

/-- What a read has to bring: the bytes last written to the page, or the bytes
the file had there when nothing was written to the page. -/
def expected (history : DiskHistory) (page : PageNumber) (out : Bytes) : Bytes :=
  match history.written page with
  | some buffer => Bytes.copy out 0 buffer pageSize
  | none =>
    Bytes.copy out 0 (fun i => history.initial.byte (page * pageSize + i))
      (min pageSize (history.initial.size - page * pageSize))

/-- A read brings the expected bytes. -/
def ReadsBack (history : DiskHistory) : DiskCall → Prop
  | .readPage page out =>
    (history.disk.readPage (page : Nat) out).1 = history.expected page out
  | _ => True

/-- A read is made while the stream is undisturbed, or into a buffer that
already holds the expected bytes. -/
def Undisturbed (history : DiskHistory) : DiskCall → Prop
  | .readPage page out => history.disturbed = false ∨ history.expected page out = out
  | _ => True

/-- The stream is good and the file untouched until it is disturbed, and dead after. -/
structure Tracks (history : DiskHistory) : Prop where
  good : history.disturbed = false → history.disk.dbFile.Good
  file : history.disturbed = false → history.disk.dbFile.file = some history.initial
  unwritten : history.disturbed = false → ∀ page, history.written page = none
  dead : history.disturbed = true → history.disk.dbFile.Dead

theorem tracks_start (file : Option File) : (start file).Tracks := by
  cases file with
  | none => exact ⟨fun _ => ⟨rfl, rfl, rfl⟩, fun _ => rfl, fun _ _ => rfl, by simp [start]⟩
  | some file => exact ⟨fun _ => ⟨rfl, rfl, rfl⟩, fun _ => rfl, fun _ _ => rfl, by simp [start]⟩

/-- The offset of a page does not overflow. -/
theorem toInt_offset (page : PageNumber) :
    DiskManager.toInt (((page : Nat) : Int) * pageSize) = ((page * pageSize : Nat) : Int) := by
  have bound := page.isLt
  simp only [DiskManager.toInt, pageSize]
  rw [Int.bmod_eq_of_le] <;> omega

theorem readPage_eq (disk : DiskManager) (page : PageNumber) (out : Bytes) :
    (disk.readPage (page : Nat) out).1 =
        ((disk.dbFile.seekg (page * pageSize : Nat)).read out pageSize).1 ∧
      (disk.readPage (page : Nat) out).2.dbFile =
        ((disk.dbFile.seekg (page * pageSize : Nat)).read out pageSize).2 := by
  simp only [DiskManager.readPage, lockGuard, toInt_offset]
  exact ⟨rfl, rfl⟩

/-- Every `WritePage` leaves the stream closed. -/
theorem dead_writePage (disk : DiskManager) (page : Int) (buffer : Bytes) :
    (disk.writePage page buffer).dbFile.Dead := by
  simp only [DiskManager.writePage, lockGuard', lockGuard, Guarded.setMutex]
  unfold FileStream.close
  split
  · exact .inr rfl
  · exact .inl rfl

theorem tracks_step (history : DiskHistory) (call : DiskCall) (tracks : history.Tracks) :
    (history.step call).Tracks := by
  cases call with
  | allocPage => exact ⟨tracks.good, tracks.file, tracks.unwritten, tracks.dead⟩
  | writePage page buffer =>
    refine ⟨?_, ?_, ?_, fun _ => dead_writePage _ _ _⟩ <;> simp [step]
  | readPage page out =>
    have after := (readPage_eq history.disk page out).2
    cases disturbed : history.disturbed with
    | true =>
      have dead := ((tracks.dead disturbed).read_seekg (page * pageSize : Nat) out pageSize).2
      rw [← after] at dead
      refine ⟨?_, ?_, ?_, fun _ => dead⟩ <;> simp [step, disturbed]
    | false =>
      have file := tracks.file disturbed
      obtain ⟨holds, served, short⟩ :=
        (tracks.good disturbed).after_read file (page * pageSize) out pageSize
      rw [← after] at holds served short
      refine ⟨fun undisturbed => served ?_, fun _ => holds, fun _ => tracks.unwritten disturbed,
        fun now => short ?_⟩
      · have whole : page * pageSize + pageSize ≤ history.initial.size := by
          simpa [step, disturbed, whole] using undisturbed
        omega
      · have beyond : history.initial.size < page * pageSize + pageSize := by
          simpa [step, disturbed, whole] using now
        have positive : 0 < pageSize := by decide
        omega

theorem readsBack_iff (history : DiskHistory) (call : DiskCall) (tracks : history.Tracks) :
    history.ReadsBack call ↔ history.Undisturbed call := by
  cases call with
  | allocPage => exact Iff.rfl
  | writePage page buffer => exact Iff.rfl
  | readPage page out =>
    simp only [ReadsBack, Undisturbed, (readPage_eq history.disk page out).1]
    cases disturbed : history.disturbed with
    | true =>
      rw [((tracks.dead disturbed).read_seekg (page * pageSize : Nat) out pageSize).1]
      simp [eq_comm]
    | false =>
      have file := tracks.file disturbed
      rw [(tracks.good disturbed).read_seekg file (page * pageSize) out pageSize]
      simp [expected, tracks.unwritten disturbed page]

/-- Along any run, every read brings the expected bytes exactly when every read
is made while the stream is undisturbed or finds them in its buffer already. -/
theorem readsBack_iff_undisturbed (file : Option File) (calls : List DiskCall) :
    EachCall step ReadsBack (start file) calls ↔ EachCall step Undisturbed (start file) calls :=
  eachCall_congr readsBack_iff tracks_step (tracks_start file) calls

/-- A page written to an empty file does not come back. -/
theorem written_page_lost :
    ¬ EachCall step ReadsBack (start (some {}))
      [.writePage 0 (fun _ => 1), .readPage 0 Bytes.zeros] := by
  rintro ⟨-, lost, -⟩
  have byte := congrFun lost 0
  revert byte
  decide +kernel

end DiskHistory

end MiniDB.Storage
