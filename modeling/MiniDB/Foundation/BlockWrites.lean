import MiniDB.Foundation.FileStream

/-!
# Files written in blocks

A file whose writes are all of one length, each at a multiple of it. Of every block the last
write is kept, a block that was not written keeps its bytes, and what no write has reached
reads as zeros.
-/

namespace MiniDB.Foundation

/-- A write of a block: its number and its bytes. -/
abbrev BlockWrite := Nat × Bytes

namespace File

/-- The byte at an offset; there are zeros behind the end. -/
def byteAt (file : File) (offset : Nat) : UInt8 :=
  if offset < file.size then file.byte offset else 0

/-- The file after writes of blocks of a length. -/
def writeBlocks (length : Nat) (file : File) (writes : List BlockWrite) : File :=
  writes.foldl (fun file write => file.write (write.1 * length) write.2 length) file

end File

/-- The bytes that were last written to a block. -/
def lastWrite (block : Nat) : List BlockWrite → Option Bytes
  | [] => none
  | write :: writes =>
    (lastWrite block writes).or (if write.1 = block then some write.2 else none)

/-- How many blocks there are up to the last one that was written. -/
def blocksUpTo : List BlockWrite → Nat
  | [] => 0
  | write :: writes => max (write.1 + 1) (blocksUpTo writes)

namespace File

variable (file : File)

theorem byteAt_write (offset : Nat) (data : Bytes) (count i : Nat) :
    (file.write offset data count).byteAt i =
      if offset ≤ i ∧ i < offset + count then data (i - offset) else file.byteAt i := by
  unfold byteAt write
  dsimp only
  by_cases inside : offset ≤ i ∧ i < offset + count
  · rw [if_pos inside, if_pos (by omega)]
  · rw [if_neg inside]
    by_cases before : i < file.size
    · rw [if_pos before, if_pos (by omega)]
    · rw [if_neg before, ite_self]

/-- Blocks do not overlap. -/
theorem inside_block_iff {length block other i : Nat} (inside : i < length) :
    (other * length ≤ block * length + i ∧ block * length + i < other * length + length) ↔
      other = block := by
  constructor
  · rintro ⟨low, high⟩
    refine Nat.le_antisymm (Nat.not_lt.mp fun after => ?_) (Nat.not_lt.mp fun before => ?_)
    · have next := Nat.mul_le_mul_right length (Nat.succ_le_of_lt after)
      rw [Nat.succ_mul] at next
      omega
    · have next := Nat.mul_le_mul_right length (Nat.succ_le_of_lt before)
      rw [Nat.succ_mul] at next
      omega
  · rintro rfl
    omega

/-- Every byte of a block is from the last write to it. -/
theorem byteAt_writeBlocks {length i : Nat} (inside : i < length) (block : Nat)
    (writes : List BlockWrite) :
    (file.writeBlocks length writes).byteAt (block * length + i) =
      ((lastWrite block writes).map fun data => data i).getD
        (file.byteAt (block * length + i)) := by
  induction writes generalizing file with
  | nil => rfl
  | cons write writes ih =>
    have later := ih (file.write (write.1 * length) write.2 length)
    rw [byteAt_write] at later
    rw [lastWrite]
    refine later.trans ?_
    cases lastWrite block writes with
    | some data => rfl
    | none =>
      rw [Option.map_none, Option.getD_none, Option.none_or]
      by_cases same : write.1 = block
      · rw [if_pos ((inside_block_iff inside).mpr same), if_pos same, same,
          Nat.add_sub_cancel_left]
        rfl
      · rw [if_neg fun covers => same ((inside_block_iff inside).mp covers), if_neg same]
        rfl

/-- The file grows to the end of the last block that was written. -/
theorem size_writeBlocks (length : Nat) (writes : List BlockWrite) :
    (file.writeBlocks length writes).size = max file.size (blocksUpTo writes * length) := by
  induction writes generalizing file with
  | nil => simp [writeBlocks, blocksUpTo]
  | cons write writes ih =>
    refine (ih (file.write (write.1 * length) write.2 length)).trans ?_
    have product : (max (write.1 + 1) (blocksUpTo writes)) * length =
        max (write.1 * length + length) (blocksUpTo writes * length) := by
      rw [← Nat.succ_mul]
      exact Nat.mul_max_mul_right ..|>.symm
    rw [blocksUpTo, product, ← Nat.max_assoc]
    rfl

end File

namespace FileStream

theorem seekg_same (stream : FileStream) (offset : Int) :
    (stream.seekg offset).isOpen = stream.isOpen ∧ (stream.seekg offset).file = stream.file := by
  unfold seekg
  split
  · exact ⟨rfl, rfl⟩
  · split <;> exact ⟨rfl, rfl⟩

theorem read_same (stream : FileStream) (out : Bytes) (count : Nat) :
    (stream.read out count).2.isOpen = stream.isOpen ∧
      (stream.read out count).2.file = stream.file := by
  unfold read
  split
  · exact ⟨rfl, rfl⟩
  · split
    · dsimp only
      split <;> exact ⟨rfl, rfl⟩
    · exact ⟨rfl, rfl⟩

/-- A good stream reads the bytes of the file, as far as it reaches. -/
theorem Good.read_byteAt {stream : FileStream} (good : stream.Good) {file : File}
    (holds : stream.file = some file) (offset : Nat) (out : Bytes) (count : Nat) :
    ((stream.seekg offset).read out count).1 =
      Bytes.copy out 0 (fun i => file.byteAt (offset + i)) (min count (file.size - offset)) := by
  rw [good.read_seekg holds]
  refine Bytes.copy_congr fun i inside => ?_
  have reached : offset + i < file.size := by omega
  rw [File.byteAt, if_pos reached]

end FileStream

end MiniDB.Foundation
