import Mathlib.Data.List.Basic

/-!
# Segments of a memory

A memory is a function from addresses to values. A list is a segment of it from an
address on if it is what the memory holds there. Segments are determined by their
length, and they follow moves of the memory.
-/

namespace MiniDB.Foundation

universe u

variable {Value : Type u}

/-- The memory holds these values from an address on. -/
def Segment (cells : Nat → Value) (base : Nat) (values : List Value) : Prop :=
  ∀ i (inside : i < values.length), cells (base + i) = values[i]

variable {cells after : Nat → Value} {base : Nat} {values others : List Value}

@[simp] theorem segment_nil : Segment cells base [] ↔ True := by
  simp [Segment]

@[simp] theorem segment_cons {value : Value} :
    Segment cells base (value :: values) ↔ cells base = value ∧ Segment cells (base + 1) values := by
  constructor
  · intro holds
    refine ⟨holds 0 (Nat.succ_pos _), fun i inside => ?_⟩
    have next := holds (i + 1) (Nat.succ_lt_succ inside)
    rwa [← Nat.add_assoc, Nat.add_right_comm] at next
  · rintro ⟨first, rest⟩ i inside
    cases i with
    | zero => exact first
    | succ i =>
      rw [← Nat.add_assoc, Nat.add_right_comm]
      exact rest i (Nat.lt_of_succ_lt_succ inside)

@[simp] theorem segment_append :
    Segment cells base (values ++ others) ↔
      Segment cells base values ∧ Segment cells (base + values.length) others := by
  induction values generalizing base with
  | nil => simp
  | cons value values ih =>
    rw [List.cons_append, segment_cons, segment_cons, ih, List.length_cons, and_assoc,
      Nat.add_assoc, Nat.add_comm 1]

/-- A segment that was moved as a whole, or left where it is. -/
theorem Segment.moved {target : Nat} (holds : Segment cells base values)
    (same : ∀ i < values.length, after (target + i) = cells (base + i)) :
    Segment after target values := fun i inside =>
  (same i inside).trans (holds i inside)

theorem Segment.tail (holds : Segment cells base values) : Segment cells (base + 1) values.tail := by
  cases values with
  | nil => exact segment_nil.mpr trivial
  | cons value values => exact (segment_cons.mp holds).2

theorem Segment.getLastD (holds : Segment cells base values) (nonempty : values ≠ [])
    (default : Value) : cells (base + (values.length - 1)) = values.getLastD default := by
  have some := List.length_pos_of_ne_nil nonempty
  rw [List.getLastD_eq_getLast?, List.getLast?_eq_some_getLast nonempty, Option.getD_some,
    List.getLast_eq_getElem]
  exact holds _ (by omega)

/-- There is one segment of each length at an address. -/
theorem Segment.eq_iff (holds : Segment cells base values) (same : values.length = others.length) :
    Segment cells base others ↔ others = values := by
  constructor
  · intro too
    refine List.ext_getElem same.symm fun i inOthers inside => ?_
    exact (too i inOthers).symm.trans (holds i inside)
  · rintro rfl
    exact holds

end MiniDB.Foundation
