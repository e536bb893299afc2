import Mathlib.Algebra.BigOperators.Group.List.Basic
import Mathlib.Algebra.Order.Group.Nat
import Mathlib.Tactic.Ring

/-!
# Packing items as they come

Only the bin that was opened last is looked at: an item goes there, or it opens the next
bin. Where a bin and the item that it did not admit weigh enough together, there are only
so many bins, against any other arrangement of the items.
-/

namespace MiniDB.Foundation

universe u

variable {Item : Type u}

/-- The open bin with the items that it gets, and the bins that are opened after it. -/
def nextFit (admits : List Item → Item → Bool) : List Item → List Item → List (List Item)
  | bin, [] => [bin]
  | bin, item :: items =>
    if admits bin item then nextFit admits (bin ++ [item]) items
    else bin :: nextFit admits [item] items

/-- The number of the bin and the place in it for each item, from an open bin on. -/
def placed (admits : List Item → Item → Bool) : Nat → List Item → List Item → List (Nat × Nat)
  | _, _, [] => []
  | number, bin, item :: items =>
    if admits bin item then (number, bin.length) :: placed admits number (bin ++ [item]) items
    else (number + 1, 0) :: placed admits (number + 1) [item] items

/-- The places of one bin. -/
def placesOf (number : Nat) (bin : List Item) : List (Nat × Nat) :=
  (List.range bin.length).map fun place => (number, place)

/-- The places of bins that are numbered from a number on. -/
def places : Nat → List (List Item) → List (Nat × Nat)
  | _, [] => []
  | number, bin :: bins => placesOf number bin ++ places (number + 1) bins

variable {admits : List Item → Item → Bool}

theorem placesOf_append (number : Nat) (bin : List Item) (item : Item) :
    placesOf number (bin ++ [item]) = placesOf number bin ++ [(number, bin.length)] := by
  simp [placesOf, List.range_succ]

/-- The items go to the places of their bins, in order. -/
theorem places_nextFit (number : Nat) (bin items : List Item) :
    places number (nextFit admits bin items) =
      placesOf number bin ++ placed admits number bin items := by
  induction items generalizing number bin with
  | nil => simp [nextFit, placed, places]
  | cons item items ih =>
    rw [nextFit, placed]
    split
    · rw [ih, placesOf_append, List.append_assoc]
      rfl
    · rw [places, ih]
      rfl

theorem length_nextFit_pos (bin items : List Item) : 0 < (nextFit admits bin items).length := by
  induction items generalizing bin with
  | nil => exact Nat.one_pos
  | cons item items ih =>
    rw [nextFit]
    split
    · exact ih _
    · exact Nat.succ_pos _

theorem length_placed (number : Nat) (bin items : List Item) :
    (placed admits number bin items).length = items.length := by
  induction items generalizing number bin with
  | nil => rfl
  | cons item items ih =>
    rw [placed]
    split
    · rw [List.length_cons, ih, List.length_cons]
    · rw [List.length_cons, ih, List.length_cons]

/-! ## How many bins there are -/

/-- What the items of a bin weigh. -/
def load (weight : Item → Nat) (bin : List Item) : Nat := (bin.map weight).sum

section Load

variable (weight : Item → Nat)

@[simp] theorem load_nil : load weight [] = 0 := rfl

@[simp] theorem load_cons (item : Item) (bin : List Item) :
    load weight (item :: bin) = weight item + load weight bin := List.sum_cons

@[simp] theorem load_append (bin more : List Item) :
    load weight (bin ++ more) = load weight bin + load weight more := by
  simp [load]

theorem load_perm {bin other : List Item} (perm : bin.Perm other) :
    load weight bin = load weight other := (perm.map weight).sum_eq

/-- A constant weight counts the items. -/
theorem load_const (each : Nat) (bin : List Item) :
    load (fun _ => each) bin = bin.length * each := by
  simp [load]

theorem load_scale (factor : Nat) (bin : List Item) :
    load (fun item => factor * weight item) bin = factor * load weight bin := by
  induction bin with
  | nil => rfl
  | cons item bin ih => rw [load_cons, load_cons, ih, Nat.mul_add]

theorem load_flatten_le {limit : Nat} {bins : List (List Item)}
    (each : ∀ bin ∈ bins, load weight bin ≤ limit) :
    load weight bins.flatten ≤ bins.length * limit := by
  induction bins with
  | nil => exact Nat.zero_le _
  | cons bin bins ih =>
    obtain ⟨here, later⟩ := List.forall_mem_cons.mp each
    have rest := ih later
    rw [List.flatten_cons, load_append, List.length_cons, Nat.succ_mul]
    omega

end Load

variable {own shared : Item → Nat} {capacity : Nat}

/-- A bin that is closed weighs `capacity`, its shared weight together with that of the
item that opened the next one. So the shared weight counts twice. -/
theorem length_nextFit_le
    (closed : ∀ bin item, admits bin item = false →
      capacity ≤ load own bin + load shared bin + shared item)
    (bin items : List Item) :
    (nextFit admits bin items).length * capacity ≤
      capacity + load own bin + load own items + load shared bin + 2 * load shared items := by
  induction items generalizing bin with
  | nil => simp [nextFit]; omega
  | cons item items ih =>
    rw [nextFit]
    split
    · have step := ih (bin ++ [item])
      simp only [load_append, load_cons, load_nil] at step ⊢
      omega
    · next refused =>
      have step := ih [item]
      have full := closed bin item (by simpa using refused)
      simp only [load_cons, load_nil] at step ⊢
      rw [List.length_cons, Nat.succ_mul]
      omega

/-- Against any arrangement of the items whose bins keep two limits. -/
theorem length_nextFit_le_arranged {ownLimit sharedLimit : Nat} {items : List Item}
    {arranged : List (List Item)}
    (closed : ∀ bin item, admits bin item = false →
      capacity ≤ load own bin + load shared bin + shared item)
    (perm : arranged.flatten.Perm items)
    (limited : ∀ bin ∈ arranged, load own bin ≤ ownLimit ∧ load shared bin ≤ sharedLimit) :
    (nextFit admits [] items).length * capacity ≤
      capacity + arranged.length * (ownLimit + 2 * sharedLimit) := by
  have bound := length_nextFit_le closed [] items
  have ownTotal := load_flatten_le own fun bin member => (limited bin member).1
  have sharedTotal := load_flatten_le shared fun bin member => (limited bin member).2
  rw [load_perm own perm] at ownTotal
  rw [load_perm shared perm] at sharedTotal
  have split : arranged.length * (ownLimit + 2 * sharedLimit) =
      arranged.length * ownLimit + 2 * (arranged.length * sharedLimit) := by ring
  simp only [load_nil] at bound
  omega

end MiniDB.Foundation
