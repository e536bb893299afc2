import MiniDB.Foundation.Mutex

/-!
# The write-ahead log

`WALManager` appends entries to a log file and ends each with a newline. An entry
is a `std::string`, that is any bytes. `FlushLogs` hands the bytes on to the
operating system; the log file here has them at once.
-/

namespace MiniDB.Log

open Foundation

/-- A `std::string`, by its bytes. -/
abbrev ByteString := List UInt8

/-- The bytes of an ASCII text. -/
def ascii (text : String) : ByteString := text.toList.map fun c => UInt8.ofNat c.toNat

/-- The byte that ends an entry. -/
def newline : UInt8 := 10

/-- `WALManager`; the log file is `none` when it could not be opened. -/
structure WALManager where
  logFile : Option ByteString := some []
  mtx : Mutex := .unlocked

namespace WALManager

instance : Guarded WALManager where
  mutex manager := manager.mtx
  setMutex manager mutex := { manager with mtx := mutex }

/-- `WALManager::WriteLog`. -/
def writeLog (manager : WALManager) (logEntry : ByteString) : Bool × WALManager :=
  lockGuard (fun manager =>
    match manager.logFile with
    | none => (false, manager)
    | some text => (true, { manager with logFile := some (text ++ logEntry ++ [newline]) })) manager

theorem writeLog_fst (manager : WALManager) (logEntry : ByteString) :
    (manager.writeLog logEntry).1 = manager.logFile.isSome := by
  unfold writeLog lockGuard
  dsimp only [Guarded.setMutex]
  cases manager.logFile <;> rfl

theorem logFile_writeLog (manager : WALManager) (logEntry : ByteString) :
    (manager.writeLog logEntry).2.logFile =
      manager.logFile.map fun text => text ++ logEntry ++ [newline] := by
  unfold writeLog lockGuard
  dsimp only [Guarded.setMutex]
  cases manager.logFile <;> rfl

end WALManager

end MiniDB.Log
