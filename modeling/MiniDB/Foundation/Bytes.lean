import Mathlib.Algebra.Group.Nat.Defs

/-!
# Blocks of memory

A block is a function from byte offsets to bytes. `copy` is `memcpy` into a
block, and a 32-bit `int` occupies four bytes, least significant first.
-/

namespace MiniDB.Foundation

/-- The bytes of a block, by offset. -/
abbrev Bytes := Nat → UInt8

namespace Bytes

/-- The block of zeros, as `memset` leaves it. -/
def zeros : Bytes := fun _ => 0

/-- `memcpy(target + offset, source, count)`. -/
def copy (target : Bytes) (offset : Nat) (source : Bytes) (count : Nat) : Bytes := fun i =>
  if offset ≤ i ∧ i < offset + count then source (i - offset) else target i

theorem copy_inside {target source : Bytes} {offset count i : Nat} (inside : i < count) :
    copy target offset source count (offset + i) = source i := by
  simp [copy, inside]

theorem copy_outside {target source : Bytes} {offset count i : Nat}
    (outside : i < offset ∨ offset + count ≤ i) : copy target offset source count i = target i := by
  have notInside : ¬ (offset ≤ i ∧ i < offset + count) := by omega
  simp [copy, notInside]

/-- What is copied depends on the bytes of the source that are read. -/
theorem copy_congr {target source other : Bytes} {offset count : Nat}
    (same : ∀ i < count, source i = other i) :
    copy target offset source count = copy target offset other count := by
  funext i
  simp only [copy]
  split
  · exact same _ (by omega)
  · rfl

/-- Byte `index` of a 32-bit `int`. -/
def intByte (value : Int) (index : Nat) : UInt8 :=
  UInt8.ofNat ((value % 4294967296).toNat / 256 ^ index)

/-- The `int` at an offset. -/
def readInt (bytes : Bytes) (offset : Nat) : Int :=
  let word := (bytes offset).toNat + 256 * (bytes (offset + 1)).toNat +
    65536 * (bytes (offset + 2)).toNat + 16777216 * (bytes (offset + 3)).toNat
  if word < 2147483648 then word else (word : Int) - 4294967296

/-- Store an `int` at an offset. -/
def writeInt (bytes : Bytes) (offset : Nat) (value : Int) : Bytes :=
  copy bytes offset (intByte value) 4

theorem toNat_intByte (value : Int) (index : Nat) :
    (intByte value index).toNat = (value % 4294967296).toNat / 256 ^ index % 256 := by
  simp [intByte]

/-- A number is determined by its bytes. -/
theorem eq_of_bytes_eq {count first second : Nat} (firstBound : first < 256 ^ count)
    (secondBound : second < 256 ^ count)
    (same : ∀ i < count, first / 256 ^ i % 256 = second / 256 ^ i % 256) : first = second := by
  induction count generalizing first second with
  | zero => omega
  | succ count ih =>
    have low : first % 256 = second % 256 := by simpa using same 0 (by omega)
    have high : first / 256 = second / 256 := by
      refine ih ?_ ?_ fun i inside => ?_
      · exact Nat.div_lt_of_lt_mul (by rw [Nat.mul_comm, ← Nat.pow_succ]; exact firstBound)
      · exact Nat.div_lt_of_lt_mul (by rw [Nat.mul_comm, ← Nat.pow_succ]; exact secondBound)
      · have next := same (i + 1) (by omega)
        rwa [Nat.pow_succ, Nat.mul_comm, ← Nat.div_div_eq_div_mul, ← Nat.div_div_eq_div_mul] at next
    omega

/-- Reading an `int` depends on its four bytes only. -/
theorem readInt_congr {first second : Bytes} {offset other : Nat}
    (same : ∀ i < 4, first (offset + i) = second (other + i)) :
    readInt first offset = readInt second other := by
  have byte0 := same 0 (by omega)
  have byte1 := same 1 (by omega)
  have byte2 := same 2 (by omega)
  have byte3 := same 3 (by omega)
  rw [Nat.add_zero, Nat.add_zero] at byte0
  simp only [readInt, byte0, byte1, byte2, byte3]

/-- Four bytes are an `int`. -/
theorem readInt_range (bytes : Bytes) (offset : Nat) :
    -2147483648 ≤ readInt bytes offset ∧ readInt bytes offset ≤ 2147483647 := by
  have byte0 := (bytes offset).toNat_lt
  have byte1 := (bytes (offset + 1)).toNat_lt
  have byte2 := (bytes (offset + 2)).toNat_lt
  have byte3 := (bytes (offset + 3)).toNat_lt
  simp only [readInt]
  split <;> omega

/-- The four bytes of an `int` read back as the `int`. -/
theorem readInt_intByte {bytes : Bytes} {offset : Nat} {value : Int}
    (range : -2147483648 ≤ value ∧ value ≤ 2147483647)
    (stored : ∀ i < 4, bytes (offset + i) = intByte value i) : readInt bytes offset = value := by
  have byte0 := congrArg UInt8.toNat (stored 0 (by omega))
  have byte1 := congrArg UInt8.toNat (stored 1 (by omega))
  have byte2 := congrArg UInt8.toNat (stored 2 (by omega))
  have byte3 := congrArg UInt8.toNat (stored 3 (by omega))
  rw [toNat_intByte] at byte0 byte1 byte2 byte3
  rw [Nat.add_zero] at byte0
  simp only [readInt, byte0, byte1, byte2, byte3]
  generalize wordEq : (value % 4294967296).toNat = word
  have split : word / 256 ^ 0 % 256 + 256 * (word / 256 ^ 1 % 256) +
      65536 * (word / 256 ^ 2 % 256) + 16777216 * (word / 256 ^ 3 % 256) = word := by
    simp only [Nat.pow_zero, Nat.pow_one, Nat.div_one, show 256 ^ 2 = 65536 from rfl,
      show 256 ^ 3 = 16777216 from rfl]
    omega
  rw [split]
  split <;> omega

/-- An `int` is determined by its four bytes. -/
theorem eq_of_intByte_eq {first second : Int}
    (firstRange : -2147483648 ≤ first ∧ first ≤ 2147483647)
    (secondRange : -2147483648 ≤ second ∧ second ≤ 2147483647)
    (same : ∀ i < 4, intByte first i = intByte second i) : first = second := by
  have readFirst : readInt (intByte first) 0 = first :=
    readInt_intByte firstRange fun i _ => by rw [Nat.zero_add]
  have readSecond : readInt (intByte first) 0 = second :=
    readInt_intByte secondRange fun i inside => by rw [Nat.zero_add, same i inside]
  exact readFirst.symm.trans readSecond

theorem readInt_writeInt {bytes : Bytes} {offset : Nat} {value : Int}
    (range : -2147483648 ≤ value ∧ value ≤ 2147483647) :
    readInt (writeInt bytes offset value) offset = value :=
  readInt_intByte range fun _ inside => copy_inside inside

theorem readInt_copy_of_disjoint {target source : Bytes} {offset count other : Nat}
    (disjoint : other + 4 ≤ offset ∨ offset + count ≤ other) :
    readInt (copy target offset source count) other = readInt target other :=
  readInt_congr fun _ inside => copy_outside (by omega)

theorem readInt_writeInt_of_disjoint {bytes : Bytes} {offset other : Nat} {value : Int}
    (disjoint : other + 4 ≤ offset ∨ offset + 4 ≤ other) :
    readInt (writeInt bytes offset value) other = readInt bytes other :=
  readInt_copy_of_disjoint disjoint

end Bytes

end MiniDB.Foundation
