import Mathlib
import MiniDB.Foundation.Framing
import MiniDB.Log.LogBuffer
import MiniDB.Storage.LayerManager

/-!
# The log file

Two writers share the log file: `LogBuffer` writes records of a fixed length, and
`LayerManager` writes reports whose fields a `|` separates. A newline ends either.
Nothing is escaped, so a report can be told from what follows it when its table name
has no `|` and its reason has no newline, and not in general.
-/

namespace MiniDB.Log

open Foundation Storage

/-- An entry of the log file. -/
inductive LogEntry where
  | record (record : LogRecord)
  | migration (entry : MigrationLogEntry)

/-- What is written to the log file at once. -/
inductive LogWrite where
  | flush (records : List LogRecord)
  | logMigration (entry : MigrationLogEntry)

namespace LogWrite

/-- The entries of a write. -/
def entries : LogWrite → List LogEntry
  | .flush records => records.map .record
  | .logMigration entry => [.migration entry]

/-- The log after a write: a `LogBuffer` with these records is flushed, or a
`LayerManager` with the log attached reports a migration. -/
def write (wal : WALManager) : LogWrite → WALManager
  | .flush records =>
    (LogBuffer.flush { bufferSize := 0, records, wal := some wal }).2.wal.getD wal
  | .logMigration entry => (LayerManager.logMigration { hasWal := true } wal entry).2

end LogWrite

/-- The bytes of a log file to which this was written. -/
def logFileOf (writes : List LogWrite) : Option ByteString :=
  (writes.foldl LogWrite.write {}).logFile

/-- The entries of the writes, in order. -/
def entriesOf (writes : List LogWrite) : List LogEntry := writes.flatMap LogWrite.entries

/-- What the log file tells of an entry. -/
inductive LoggedEntry where
  | record (type : LogRecordType) (txnId : Int) (lsn : UInt64) (data : Fin 64 → UInt8)
  | migration (tableName : ByteString) (rowCount : Int) (durationSec : PrintedNumber)
      (success : Bool) (reason : ByteString)

theorem LogRecord.written_le_data : 64 ≤ 1024 := by decide

/-- The data of a record that are written. -/
def LogRecord.writtenData (record : LogRecord) : Fin 64 → UInt8 := fun index =>
  record.data (index.castLE LogRecord.written_le_data)

namespace LogEntry

/-- The bytes of an entry. -/
def bytes : LogEntry → ByteString
  | .record logRecord => logRecord.entry
  | .migration entry => LayerManager.migrationText entry

/-- An entry with the newline that ends it. -/
def line (entry : LogEntry) : ByteString := entry.bytes ++ [newline]

/-- What is recovered of an entry. -/
def logged : LogEntry → LoggedEntry
  | .record logRecord =>
    .record logRecord.type logRecord.txnId logRecord.lsn logRecord.writtenData
  | .migration entry =>
    .migration entry.tableName entry.rowCount entry.durationSec entry.success entry.reason

/-- The byte that separates the fields of a report. -/
def bar : UInt8 := 124

/-- A report whose fields are told apart: no `|` in the table name and no newline in
the reason. -/
def Separable : LogEntry → Prop
  | .record _ => True
  | .migration entry => bar ∉ entry.tableName ∧ newline ∉ entry.reason

instance : DecidablePred Separable
  | .record _ => inferInstanceAs (Decidable True)
  | .migration entry => inferInstanceAs (Decidable (bar ∉ entry.tableName ∧ newline ∉ entry.reason))

end LogEntry

/-! ## The file is its lines -/

/-- A flush adds a line for each record. -/
theorem logFile_writeAll (records : List LogRecord) (wal : WALManager) :
    (LogBuffer.writeAll records wal).2.logFile =
      wal.logFile.map fun text => text ++ (records.map .record).flatMap LogEntry.line := by
  induction records generalizing wal with
  | nil => simp [LogBuffer.writeAll]
  | cons record records ih =>
    have written : (LogSink.writeLog wal record.entry).2.logFile =
        wal.logFile.map fun text => text ++ record.entry ++ [newline] :=
      wal.logFile_writeLog record.entry
    simp only [LogBuffer.writeAll, ih, written, Option.map_map, Function.comp_def, List.map_cons,
      List.flatMap_cons, LogEntry.line, LogEntry.bytes, List.append_assoc]

/-- A write appends the lines of its entries. -/
theorem LogWrite.logFile_write (wal : WALManager) (write : LogWrite) :
    (LogWrite.write wal write).logFile =
      wal.logFile.map fun text => text ++ write.entries.flatMap LogEntry.line := by
  cases write with
  | flush records =>
    by_cases empty : records = []
    · simp [LogWrite.write, LogBuffer.flush, LogWrite.entries, empty]
    · simp only [LogWrite.write, LogBuffer.flush, if_neg empty, Option.getD_some,
        LogWrite.entries, logFile_writeAll]
  | logMigration entry =>
    have written : (LogWrite.write wal (.logMigration entry)).logFile = _ :=
      wal.logFile_writeLog (LayerManager.migrationText entry)
    simpa [LogWrite.entries, LogEntry.line, LogEntry.bytes] using written

/-- A history adds its lines in order. -/
theorem logFile_foldl_write (writes : List LogWrite) (wal : WALManager) :
    (writes.foldl LogWrite.write wal).logFile =
      wal.logFile.map fun text => text ++ (entriesOf writes).flatMap LogEntry.line := by
  induction writes generalizing wal with
  | nil => simp [entriesOf]
  | cons write writes ih =>
    simp only [List.foldl_cons, ih, LogWrite.logFile_write, Option.map_map, Function.comp_def,
      entriesOf, List.flatMap_cons, List.flatMap_append, List.append_assoc]

/-- The file of a history is its lines. -/
theorem logFileOf_eq (writes : List LogWrite) :
    logFileOf writes = some ((entriesOf writes).flatMap LogEntry.line) := by
  rw [logFileOf, logFile_foldl_write, Option.map_some, List.nil_append]

/-! ## Telling the lines apart -/

/-- A printed number has digits and a sign only. -/
theorem toNat_of_mem_toString {number : Int} {c : Char} (member : c ∈ (toString number).toList) :
    c.toNat < 58 := by
  have digit : ∀ {value : Nat}, c ∈ value.repr.toList → c.toNat < 58 := by
    intro value member
    rw [Nat.toList_repr] at member
    have isDigit := Nat.isDigit_of_mem_toDigits (by decide) (by decide) member
    simp only [Char.isDigit, Bool.and_eq_true, decide_eq_true_eq] at isDigit
    have bound : c.toNat ≤ 57 := isDigit.2
    omega
  rw [Int.toString_eq_repr, Int.repr_eq_if] at member
  split at member
  · exact digit member
  · rw [String.toList_append, List.mem_append] at member
    rcases member with sign | member
    · obtain rfl : c = '-' := by simpa using sign
      decide
    · exact digit member

/-- An ASCII text is determined by its bytes. -/
theorem eq_of_ascii_eq {first second : String} (firstAscii : ∀ c ∈ first.toList, c.toNat < 256)
    (secondAscii : ∀ c ∈ second.toList, c.toNat < 256) (same : ascii first = ascii second) :
    first = second := by
  have back : ∀ {text : String}, (∀ c ∈ text.toList, c.toNat < 256) →
      (ascii text).map (fun byte => Char.ofNat byte.toNat) = text.toList := by
    intro text isAscii
    rw [ascii, List.map_map]
    calc
      _ = text.toList.map id := by
        refine List.map_congr_left fun c member => ?_
        simp [Nat.mod_eq_of_lt (isAscii c member)]
      _ = text.toList := List.map_id _
  rw [← String.toList_inj, ← back firstAscii, same, back secondAscii]

/-- A printed number has no bar. -/
theorem bar_not_mem_rowCount (number : Int) : LogEntry.bar ∉ ascii (toString number) := by
  intro member
  obtain ⟨c, digit, isBar⟩ := List.mem_map.mp member
  have bound := toNat_of_mem_toString digit
  have value := congrArg UInt8.toNat isBar
  rw [UInt8.toNat_ofNat', Nat.mod_eq_of_lt (by omega)] at value
  have barValue : LogEntry.bar.toNat = 124 := rfl
  omega

theorem bar_not_mem_printedNumber (number : PrintedNumber) : LogEntry.bar ∉ number.text := by
  intro member
  exact absurd (number.plain _ member) (by decide)

theorem bar_not_mem_success (success : Bool) :
    LogEntry.bar ∉ ascii (if success then "OK" else "FAIL") := by
  cases success <;> decide

/-- A number can be told from what is printed. -/
theorem rowCount_injective {first second : Int}
    (same : ascii (toString first) = ascii (toString second)) : first = second := by
  have texts : toString first = toString second :=
    eq_of_ascii_eq (fun _ digit => (toNat_of_mem_toString digit).trans (by decide))
      (fun _ digit => (toNat_of_mem_toString digit).trans (by decide)) same
  exact Int.repr_injective texts

theorem success_injective {first second : Bool}
    (same : ascii (if first then "OK" else "FAIL") = ascii (if second then "OK" else "FAIL")) :
    first = second := by
  cases first <;> cases second <;> first | rfl | exact absurd same (by decide)

theorem printedNumber_text_injective {first second : PrintedNumber}
    (same : first.text = second.text) : first = second := by
  cases first
  cases second
  cases same
  rfl

theorem LogRecordType.byte_injective : Function.Injective LogRecordType.byte := by
  intro first second same
  cases first <;> cases second <;> first | rfl | exact absurd same (by decide)

/-- A record always takes the same number of bytes. -/
theorem length_entry (record : LogRecord) : record.entry.length = 77 := by simp [LogRecord.entry]

/-- The entry of a record tells its fields, and its data as far as they are written. -/
theorem logged_eq_of_entry_eq {first second : LogRecord} (same : first.entry = second.entry) :
    (LogEntry.record first).logged = (LogEntry.record second).logged := by
  obtain ⟨same, dataEq⟩ := List.append_inj same (by simp)
  obtain ⟨same, lsnEq⟩ := List.append_inj same (by simp)
  obtain ⟨typeEq, txnIdEq⟩ := List.append_inj same (by simp)
  have types : first.type = second.type :=
    LogRecordType.byte_injective (List.singleton_injective typeEq)
  have txnIds : first.txnId = second.txnId := by
    rw [List.map_inj_left] at txnIdEq
    exact Bytes.eq_of_intByte_eq first.isInt second.isInt
      fun i inside => txnIdEq i (List.mem_range.mpr inside)
  have lsns : first.lsn = second.lsn := by
    rw [List.map_inj_left] at lsnEq
    refine UInt64.toNat_inj.mp
      (@Bytes.eq_of_bytes_eq 8 _ _ first.lsn.toNat_lt second.lsn.toNat_lt ?_)
    intro i inside
    simpa [lsnByte] using congrArg UInt8.toNat (lsnEq i (List.mem_range.mpr inside))
  have data : first.writtenData = second.writtenData := List.ofFn_injective dataEq
  simp only [LogEntry.logged, types, txnIds, lsns, data]

/-- The text of a migration by its fields, each with the byte that ends it. -/
theorem migration_line (entry : MigrationLogEntry) :
    (LogEntry.migration entry).line =
      ascii "MIGRATION|" ++ ((entry.tableName ++ [LogEntry.bar]) ++
        ((ascii (toString entry.rowCount) ++ [LogEntry.bar]) ++
          ((entry.durationSec.text ++ [LogEntry.bar]) ++
            ((ascii (if entry.success then "OK" else "FAIL") ++ [LogEntry.bar]) ++
              (entry.reason ++ [newline]))))) := by
  have barText : ascii "|" = [LogEntry.bar] := by decide
  simp only [LogEntry.line, LogEntry.bytes, LayerManager.migrationText, barText, List.append_assoc]

/-- The line of a record tells what is logged of it, and where it ends. -/
theorem record_selfDelimiting :
    SelfDelimiting (fun _ : LogRecord => True) (fun record => (LogEntry.record record).line)
      (fun record => (LogEntry.record record).logged) := by
  have lengthEq : ∀ record : LogRecord, True → (LogEntry.record record).line.length = 78 := by
    intro record _
    rw [LogEntry.line, LogEntry.bytes, List.length_append, length_entry, List.length_singleton]
  refine (SelfDelimiting.ofLength lengthEq).mapKey ?_
  intro first second _ _ same
  exact logged_eq_of_entry_eq (List.append_cancel_right same)

/-- So does the line of a migration, under the condition. -/
theorem migration_selfDelimiting :
    SelfDelimiting (fun entry => (LogEntry.migration entry).Separable)
      (fun entry => (LogEntry.migration entry).line)
      (fun entry => (LogEntry.migration entry).logged) := by
  simp only [migration_line]
  have tag := @SelfDelimiting.ofLength _ _ (fun entry => (LogEntry.migration entry).Separable)
    (fun _ => ascii "MIGRATION|") 10 (fun _ _ => rfl)
  have fields := tag.append <|
    (SelfDelimiting.ofEnd fun entry separable => separable.1).append <|
    (SelfDelimiting.ofEnd fun entry _ => bar_not_mem_rowCount entry.rowCount).append <|
    (SelfDelimiting.ofEnd fun entry _ => bar_not_mem_printedNumber entry.durationSec).append <|
    (SelfDelimiting.ofEnd fun entry _ => bar_not_mem_success entry.success).append <|
    SelfDelimiting.ofEnd fun entry separable => separable.2
  refine fields.mapKey ?_
  intro first second _ _ same
  simp only [Prod.mk.injEq, true_and] at same
  obtain ⟨tableNames, rowCounts, durations, successes, reasons⟩ := same
  simp only [LogEntry.logged, tableNames, rowCount_injective rowCounts,
    printedNumber_text_injective durations, success_injective successes, reasons]

/-- A record starts with the byte of its type, and a migration with a letter. -/
theorem record_line_ne_migration_line (record : LogRecord) (entry : MigrationLogEntry)
    (afterRecord afterEntry : ByteString) :
    (LogEntry.record record).line ++ afterRecord ≠
      (LogEntry.migration entry).line ++ afterEntry := by
  intro same
  rw [migration_line] at same
  have letter : record.type.byte = 77 := (List.cons.inj same).1
  revert letter
  cases record.type <;> decide

/-- A line can be told from what follows it. -/
theorem line_selfDelimiting :
    SelfDelimiting LogEntry.Separable LogEntry.line LogEntry.logged := by
  intro first second firstSeparable secondSeparable afterFirst afterSecond same
  cases first with
  | record firstRecord =>
    cases second with
    | record secondRecord => exact record_selfDelimiting trivial trivial same
    | migration secondEntry => exact absurd same (record_line_ne_migration_line _ _ _ _)
  | migration firstEntry =>
    cases second with
    | record secondRecord => exact absurd same.symm (record_line_ne_migration_line _ _ _ _)
    | migration secondEntry => exact migration_selfDelimiting firstSeparable secondSeparable same

/-- Writes that differ in what is logged of their entries leave different log files. -/
theorem logFileOf_ne (first second : List LogWrite)
    (firstSeparable : ∀ entry ∈ entriesOf first, entry.Separable)
    (secondSeparable : ∀ entry ∈ entriesOf second, entry.Separable)
    (differ : (entriesOf first).map LogEntry.logged ≠ (entriesOf second).map LogEntry.logged) :
    logFileOf first ≠ logFileOf second := by
  intro same
  rw [logFileOf_eq, logFileOf_eq, Option.some.injEq] at same
  refine differ (line_selfDelimiting.map_eq_of_flatMap_eq ?_ firstSeparable secondSeparable same)
  intro entry
  exact List.append_ne_nil_of_right_ne_nil _ (List.cons_ne_nil _ _)

/-- A migration of one row of a table. -/
def oneRowMigration (tableName reason : ByteString) : MigrationLogEntry where
  timestamp := 0
  rowCount := 1
  durationSec := ⟨ascii "0", List.forall_mem_singleton.mpr (by decide)⟩
  success := true
  reason := reason
  tableName := tableName

/-- A commit of transaction 7. -/
def commitRecord : LogRecord := { type := .commit, txnId := 7, isInt := by decide }

/-- A commit and a migration, in one order and in the other. -/
theorem logFileOf_ne_commit_migration :
    logFileOf [.flush [commitRecord], .logMigration (oneRowMigration (ascii "t") (ascii "a|b"))] ≠
      logFileOf [.logMigration (oneRowMigration (ascii "t") (ascii "a|b")),
        .flush [commitRecord]] := by
  have separable : (LogEntry.migration (oneRowMigration (ascii "t") (ascii "a|b"))).Separable := by
    decide
  refine logFileOf_ne _ _ ?_ ?_ ?_
  · exact List.forall_mem_cons.mpr ⟨trivial, List.forall_mem_singleton.mpr separable⟩
  · exact List.forall_mem_cons.mpr ⟨separable, List.forall_mem_singleton.mpr trivial⟩
  · intro same
    exact LoggedEntry.noConfusion (List.cons.inj same).1

/-- A newline in a reason can stand for the end of an entry, and a `|` in a table name
for the end of a field. -/
theorem logFile_ambiguous :
    (entriesOf [.logMigration (oneRowMigration (ascii "t") (ascii "a\nMIGRATION|t|1|0|OK|b"))] ≠
        entriesOf [.logMigration (oneRowMigration (ascii "t") (ascii "a")),
          .logMigration (oneRowMigration (ascii "t") (ascii "b"))] ∧
      logFileOf [.logMigration (oneRowMigration (ascii "t") (ascii "a\nMIGRATION|t|1|0|OK|b"))] =
        logFileOf [.logMigration (oneRowMigration (ascii "t") (ascii "a")),
          .logMigration (oneRowMigration (ascii "t") (ascii "b"))]) ∧
    entriesOf [.logMigration (oneRowMigration (ascii "t|1|0|OK") (ascii "a"))] ≠
        entriesOf [.logMigration (oneRowMigration (ascii "t") (ascii "1|0|OK|a"))] ∧
      logFileOf [.logMigration (oneRowMigration (ascii "t|1|0|OK") (ascii "a"))] =
        logFileOf [.logMigration (oneRowMigration (ascii "t") (ascii "1|0|OK|a"))] := by
  refine ⟨⟨?_, ?_⟩, ?_, ?_⟩
  · intro same
    exact absurd (congrArg List.length same) (by decide)
  · rw [logFileOf_eq, logFileOf_eq]
    decide
  · intro same
    have entries := LogEntry.migration.inj (List.singleton_injective same)
    exact absurd (congrArg MigrationLogEntry.tableName entries) (by decide)
  · rw [logFileOf_eq, logFileOf_eq]
    decide

end MiniDB.Log
