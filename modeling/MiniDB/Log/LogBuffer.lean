import MiniDB.Common.Types
import MiniDB.Foundation.Bytes
import MiniDB.Foundation.Run
import MiniDB.Log.WALManager

/-!
# The log buffer

`LogBuffer` collects log records and writes them to the write-ahead log when it is
full or flushed. `Flush` does not look at what `WriteLog` returns and empties the
buffer in any case, so a record that the log does not take is lost.
-/

namespace MiniDB.Log

open Foundation

/-- `LogRecordType`. -/
inductive LogRecordType where
  | insert
  | update
  | delete
  | commit
  | abort
deriving DecidableEq, Repr

/-- `LogRecord`. -/
structure LogRecord where
  type : LogRecordType
  txnId : Int
  lsn : UInt64 := 0
  data : Fin 1024 → UInt8 := fun _ => 0
  isInt : IsInt txnId

/-- `static_cast<char>(type)`. -/
def LogRecordType.byte : LogRecordType → UInt8
  | .insert => 0
  | .update => 1
  | .delete => 2
  | .commit => 3
  | .abort => 4

/-- Byte `index` of an `lsn`, least significant first. -/
def lsnByte (lsn : UInt64) (index : Nat) : UInt8 := UInt8.ofNat (lsn.toNat / 256 ^ index)

/-- The entry that `Flush` writes for a record: of its data the first 64 bytes. -/
def LogRecord.entry (record : LogRecord) : ByteString :=
  [record.type.byte] ++ (List.range 4).map (Bytes.intByte record.txnId) ++
    (List.range 8).map (lsnByte record.lsn) ++
    List.ofFn fun index : Fin 64 => record.data (index.castLE (by decide))

/-- Something that entries are written to; what it answers is its own affair. -/
class LogSink (W : Type) where
  writeLog : W → ByteString → Bool × W

instance : LogSink WALManager := ⟨WALManager.writeLog⟩

/-- `LogBuffer`. -/
structure LogBuffer (W : Type) where
  bufferSize : Nat
  records : List LogRecord := []
  wal : Option W := none

namespace LogBuffer

variable {W : Type} [LogSink W]

/-- The loop of `Flush`: what `WriteLog` answered for each record, and the log
afterwards. -/
def writeAll : List LogRecord → W → List Bool × W
  | [], wal => ([], wal)
  | record :: records, wal =>
    let (answer, wal) := LogSink.writeLog wal record.entry
    let (answers, wal) := writeAll records wal
    (answer :: answers, wal)

/-- `LogBuffer::Flush`, with the answers of `WriteLog`, which it does not use. -/
def flush (buffer : LogBuffer W) : List Bool × LogBuffer W :=
  match buffer.wal with
  | none => ([], buffer)
  | some wal =>
    if buffer.records = [] then
      ([], buffer)
    else
      let (answers, wal) := writeAll buffer.records wal
      (answers, { buffer with records := [], wal := some wal })

/-- The buffer is full after one more record. -/
def IsFull (buffer : LogBuffer W) : Prop :=
  buffer.bufferSize ≤ buffer.records.length ∧ 0 < buffer.bufferSize

instance (buffer : LogBuffer W) : Decidable buffer.IsFull := inferInstanceAs (Decidable (_ ∧ _))

/-- `LogBuffer::AppendLog`, with the answers of `WriteLog`. -/
def appendLog (buffer : LogBuffer W) (record : LogRecord) : List Bool × LogBuffer W :=
  let buffer := { buffer with records := buffer.records ++ [record] }
  if buffer.IsFull then buffer.flush else ([], buffer)

/-- `LogBuffer::SetWAL`. -/
def setWAL (buffer : LogBuffer W) (wal : Option W) : LogBuffer W := { buffer with wal }

end LogBuffer

/-! ## Histories of a buffer -/

/-- The calls on a buffer. A log that is attached may be in any state. -/
inductive LogCall (W : Type) where
  | appendLog (record : LogRecord)
  | flush
  | setWAL (wal : Option W)

/-- A buffer, the records that were appended, and those that the log accepted. -/
structure LogHistory (W : Type) where
  buffer : LogBuffer W
  appended : List LogRecord := []
  accepted : List LogRecord := []

/-- The records for which `WriteLog` returned true. -/
def acceptedOf (records : List LogRecord) (answers : List Bool) : List LogRecord :=
  ((records.zip answers).filter Prod.snd).map Prod.fst

namespace LogHistory

variable {W : Type} [LogSink W]

/-- One call. -/
def step (history : LogHistory W) : LogCall W → LogHistory W
  | .appendLog record =>
    let (answers, buffer) := history.buffer.appendLog record
    { buffer
      appended := history.appended ++ [record]
      accepted := history.accepted ++ acceptedOf (history.buffer.records ++ [record]) answers }
  | .flush =>
    let (answers, buffer) := history.buffer.flush
    { history with
      buffer
      accepted := history.accepted ++ acceptedOf history.buffer.records answers }
  | .setWAL wal => { history with buffer := history.buffer.setWAL wal }

/-- The accepted records, and then those in the buffer, are the appended ones. -/
def Lossless (history : LogHistory W) : Prop :=
  history.accepted ++ history.buffer.records = history.appended

/-- The log takes the records, one after the other. -/
def AcceptsAll : List LogRecord → W → Prop
  | [], _ => True
  | record :: records, wal =>
    (LogSink.writeLog wal record.entry).1 = true ∧
      AcceptsAll records (LogSink.writeLog wal record.entry).2

/-- The condition on a call: the log that is attached takes the records that are
written to it. -/
def Accepts (history : LogHistory W) : LogCall W → Prop
  | .appendLog record =>
    LogBuffer.IsFull { history.buffer with records := history.buffer.records ++ [record] } →
      ∀ wal ∈ history.buffer.wal, AcceptsAll (history.buffer.records ++ [record]) wal
  | .flush => ∀ wal ∈ history.buffer.wal, AcceptsAll history.buffer.records wal
  | .setWAL _ => True

/-! ## What a flush loses -/

theorem acceptedOf_cons (record : LogRecord) (records : List LogRecord) (answer : Bool)
    (answers : List Bool) :
    acceptedOf (record :: records) (answer :: answers) =
      if answer then record :: acceptedOf records answers else acceptedOf records answers := by
  cases answer <;> rfl

theorem length_acceptedOf_le (records : List LogRecord) (answers : List Bool) :
    (acceptedOf records answers).length ≤ records.length := by
  rw [acceptedOf, List.length_map]
  calc
    _ ≤ (records.zip answers).length := List.length_filter_le _ _
    _ ≤ records.length := by
      rw [List.length_zip]
      exact Nat.min_le_left _ _

/-- The accepted records are all records exactly when the log takes every one. -/
theorem acceptedOf_writeAll_eq_iff (records : List LogRecord) (wal : W) :
    acceptedOf records (LogBuffer.writeAll records wal).1 = records ↔ AcceptsAll records wal := by
  induction records generalizing wal with
  | nil => exact iff_of_true rfl trivial
  | cons record records ih =>
    simp only [LogBuffer.writeAll, acceptedOf_cons, AcceptsAll]
    cases (LogSink.writeLog wal record.entry).1 with
    | true => simp only [if_true, List.cons.injEq, true_and, ih]
    | false =>
      refine iff_of_false ?_ (fun accepts => Bool.false_ne_true accepts.1)
      intro same
      have bounded := length_acceptedOf_le records
        (LogBuffer.writeAll records (LogSink.writeLog wal record.entry).2).1
      simp only [Bool.false_eq_true, if_false] at same
      rw [same, List.length_cons] at bounded
      omega

/-- What `Flush` wrote and what it kept. -/
theorem flush_keeps_iff (buffer : LogBuffer W) :
    acceptedOf buffer.records buffer.flush.1 ++ buffer.flush.2.records = buffer.records ↔
      ∀ wal ∈ buffer.wal, AcceptsAll buffer.records wal := by
  unfold LogBuffer.flush
  cases attached : buffer.wal with
  | none => simp [acceptedOf]
  | some wal =>
    by_cases empty : buffer.records = []
    · simp [empty, acceptedOf, AcceptsAll]
    · simp only [if_neg empty, List.append_nil, acceptedOf_writeAll_eq_iff, Option.mem_def,
        Option.some.injEq, forall_eq']

/-- A call loses nothing exactly when it meets the condition. -/
theorem lossless_step_iff (history : LogHistory W) (call : LogCall W)
    (lossless : history.Lossless) : (history.step call).Lossless ↔ history.Accepts call := by
  rw [Lossless] at lossless
  cases call with
  | appendLog record =>
    simp only [Lossless, step, LogBuffer.appendLog, Accepts, ← lossless]
    split
    · next full =>
      have keeps := flush_keeps_iff
        { history.buffer with records := history.buffer.records ++ [record] }
      simp only [full, forall_const, ← keeps, List.append_assoc, List.append_cancel_left_eq]
    · next notFull =>
      refine iff_of_true ?_ (fun full => absurd full notFull)
      simp [acceptedOf]
  | flush =>
    simp only [Lossless, step, Accepts, ← lossless, ← flush_keeps_iff, List.append_assoc,
      List.append_cancel_left_eq]
  | setWAL wal => exact iff_of_true lossless trivial

/-- A new buffer. -/
def start (bufferSize : Nat) (wal : Option W) : LogHistory W := { buffer := { bufferSize, wal } }

/-- Along any run, no record is lost or duplicated in any state exactly when the
attached log takes the records of every flush. -/
theorem throughout_lossless_iff (bufferSize : Nat) (wal : Option W) (calls : List (LogCall W)) :
    Throughout step Lossless (start bufferSize wal) calls ↔
      EachCall step Accepts (start bufferSize wal) calls :=
  @throughout_iff_eachCall _ _ _ _ Lossless _
    (fun history call _ lossless => lossless_step_iff history call lossless)
    (fun _ _ _ _ next => next) _ _ rfl rfl

/-- For `WALManager` the condition is that the log file is open when records are
written. -/
theorem acceptsAll_walManager_iff (records : List LogRecord) (wal : WALManager) :
    AcceptsAll records wal ↔ records = [] ∨ wal.logFile.isSome = true := by
  induction records generalizing wal with
  | nil => exact iff_of_true trivial (.inl rfl)
  | cons record records ih =>
    have answer : (LogSink.writeLog wal record.entry).1 = wal.logFile.isSome :=
      wal.writeLog_fst record.entry
    have after : (LogSink.writeLog wal record.entry).2.logFile.isSome = wal.logFile.isSome := by
      rw [show (LogSink.writeLog wal record.entry).2.logFile = _ from
        wal.logFile_writeLog record.entry, Option.isSome_map]
    simp only [AcceptsAll, ih, answer, after, List.cons_ne_nil, false_or]
    exact ⟨fun accepts => accepts.1, fun isOpen => ⟨isOpen, .inr isOpen⟩⟩

/-- A log file that could not be opened: a buffer of one record loses the record. -/
theorem record_lost :
    ¬ Throughout step Lossless (start 1 (some ({ logFile := none } : WALManager)))
      [.appendLog { type := .commit, txnId := 7, isInt := by decide }] := by
  rintro ⟨-, lossless⟩
  exact List.cons_ne_nil _ _ lossless.symm

end LogHistory

end MiniDB.Log
