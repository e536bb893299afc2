import MiniDB.Foundation.Bytes

/-!
# File streams

`std::fstream` over one path. The stream carries the open flag, `failbit` and
`eofbit` from call to call and one position for reading and writing. A
successful open clears the state and an open stream cannot be opened again; I/O
on a closed stream or in a fail state moves no byte; a seek clears `eofbit` only;
a short read sets both bits.
-/

namespace MiniDB.Foundation

/-- A regular file: its length and its bytes below the length. -/
structure File where
  size : Nat := 0
  byte : Bytes := Bytes.zeros

/-- Writing bytes at an offset; a gap behind the old end reads as zeros. -/
def File.write (file : File) (offset : Nat) (data : Bytes) (count : Nat) : File where
  size := max file.size (offset + count)
  byte i :=
    if offset ≤ i ∧ i < offset + count then data (i - offset)
    else if i < file.size then file.byte i else 0

/-- A `std::fstream` and the file at its path, if there is one. -/
structure FileStream where
  file : Option File := none
  isOpen : Bool := false
  failbit : Bool := false
  eofbit : Bool := false
  position : Nat := 0

namespace FileStream

/-- No byte can be moved: the stream is closed or in a fail state. -/
def Dead (stream : FileStream) : Prop := stream.failbit = true ∨ stream.isOpen = false

/-- The stream is open and in no error state. -/
def Good (stream : FileStream) : Prop :=
  stream.isOpen = true ∧ stream.failbit = false ∧ stream.eofbit = false

/-- `open(path, in | out)`: the file has to exist. -/
def openInOut (stream : FileStream) : FileStream :=
  if stream.isOpen || stream.file.isNone then { stream with failbit := true }
  else { stream with isOpen := true, failbit := false, eofbit := false, position := 0 }

/-- `open(path, out)`: the file is created or emptied. -/
def openOut (stream : FileStream) : FileStream :=
  if stream.isOpen then { stream with failbit := true }
  else { file := some {}, isOpen := true }

/-- `close()`. -/
def close (stream : FileStream) : FileStream :=
  if stream.isOpen then { stream with isOpen := false } else { stream with failbit := true }

/-- `seekg(0, end)`. -/
def seekEnd (stream : FileStream) : FileStream :=
  if stream.failbit then { stream with eofbit := false }
  else
    match stream.isOpen, stream.file with
    | true, some file => { stream with eofbit := false, position := file.size }
    | _, _ => { stream with eofbit := false, failbit := true }

/-- `tellg()`. -/
def tellg (stream : FileStream) : Int := if stream.failbit then -1 else stream.position

/-- `seekg(offset, beg)`. -/
def seekg (stream : FileStream) (offset : Int) : FileStream :=
  if stream.failbit then { stream with eofbit := false }
  else if stream.isOpen && decide (0 ≤ offset) then
    { stream with eofbit := false, position := offset.toNat }
  else { stream with eofbit := false, failbit := true }

/-- `read(out, count)`. -/
def read (stream : FileStream) (out : Bytes) (count : Nat) : Bytes × FileStream :=
  if stream.failbit || stream.eofbit then (out, { stream with failbit := true })
  else
    match stream.isOpen, stream.file with
    | true, some file =>
      let available := min count (file.size - stream.position)
      let data : Bytes := fun i => file.byte (stream.position + i)
      let stream := { stream with position := stream.position + available }
      (Bytes.copy out 0 data available,
        if available < count then { stream with eofbit := true, failbit := true } else stream)
    | _, _ => (out, { stream with eofbit := true, failbit := true })

/-- `seekp(offset, beg)`. -/
def seekp (stream : FileStream) (offset : Int) : FileStream :=
  if stream.failbit then stream
  else if stream.isOpen && decide (0 ≤ offset) then { stream with position := offset.toNat }
  else { stream with failbit := true }

/-- `write(data, count)`. -/
def write (stream : FileStream) (data : Bytes) (count : Nat) : FileStream :=
  if stream.failbit || stream.eofbit then stream
  else
    match stream.isOpen, stream.file with
    | true, some file =>
      { stream with
        file := some (file.write stream.position data count)
        position := stream.position + count }
    | _, _ => { stream with failbit := true }

/-! ## What a seek and a read do -/

variable {stream : FileStream}

theorem Dead.seekg (dead : stream.Dead) (offset : Int) : (stream.seekg offset).failbit = true := by
  unfold FileStream.seekg
  cases fails : stream.failbit with
  | true => simp
  | false =>
    have closed : stream.isOpen = false := by simpa [Dead, fails] using dead
    simp [closed]

theorem read_of_failbit (fails : stream.failbit = true) (out : Bytes) (count : Nat) :
    (stream.read out count).1 = out ∧ (stream.read out count).2.Dead := by
  simp [read, fails, Dead]

/-- A closed or failed stream reads nothing and stays so. -/
theorem Dead.read_seekg (dead : stream.Dead) (offset : Int) (out : Bytes) (count : Nat) :
    ((stream.seekg offset).read out count).1 = out ∧
      ((stream.seekg offset).read out count).2.Dead :=
  read_of_failbit (dead.seekg offset) out count

/-- A good stream reads what the file has from the offset on. -/
theorem Good.read_seekg (good : stream.Good) {file : File} (holds : stream.file = some file)
    (offset : Nat) (out : Bytes) (count : Nat) :
    ((stream.seekg offset).read out count).1 =
      Bytes.copy out 0 (fun i => file.byte (offset + i)) (min count (file.size - offset)) := by
  obtain ⟨isOpen, noFail, noEof⟩ := good
  simp [seekg, read, isOpen, noFail, holds]

/-- A read that the file can serve in full leaves a good stream, any other a failed one. -/
theorem Good.after_read (good : stream.Good) {file : File} (holds : stream.file = some file)
    (offset : Nat) (out : Bytes) (count : Nat) :
    let after := ((stream.seekg offset).read out count).2
    after.file = some file ∧
      (count ≤ file.size - offset → after.Good) ∧ (file.size - offset < count → after.Dead) := by
  obtain ⟨isOpen, noFail, noEof⟩ := good
  simp only [seekg, read, isOpen, noFail, holds, Bool.false_eq_true, if_false, Bool.true_and,
    Int.natCast_nonneg, decide_true, if_true, Bool.or_self, Int.toNat_natCast]
  refine ⟨?_, ?_, ?_⟩
  · split <;> rfl
  · intro enough
    rw [if_neg (by omega)]
    exact ⟨rfl, rfl, rfl⟩
  · intro short
    rw [if_pos (by omega)]
    simp [Dead]

end FileStream

end MiniDB.Foundation
