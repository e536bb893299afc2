import Mathlib.Data.List.Rotate

/-!
# Walks

A hand passes the places of a ring in cyclic order. A walk along a list stops at its
first `early` element or when it has met a number of `late` ones, whichever comes first.
-/

namespace MiniDB.Foundation

universe u

/-- The places below `count` in cyclic order from `start` on. -/
def ring (count start : Nat) : List Nat := (List.range count).rotate start

section Ring

variable {count start : Nat}

@[simp] theorem length_ring : (ring count start).length = count := by
  rw [ring, List.length_rotate, List.length_range]

theorem getElem_ring {i : Nat} (inside : i < (ring count start).length) :
    (ring count start)[i] = (start + i) % count := by
  simp only [ring, List.getElem_rotate, List.getElem_range, List.length_range, Nat.add_comm]

theorem nodup_ring : (ring count start).Nodup := List.nodup_rotate.mpr List.nodup_range

theorem ring_perm : (ring count start).Perm (List.range count) := List.rotate_perm _ _

/-- The ring up to a place, and from there on. -/
theorem ring_split {i : Nat} (inside : i < count) :
    ring count start =
      (ring count start).take i ++ (start + i) % count :: (ring count start).drop (i + 1) := by
  have bound : i < (ring count start).length := by rwa [length_ring]
  conv => lhs; rw [← List.take_append_drop i (ring count start)]
  rw [List.drop_eq_getElem_cons bound, getElem_ring]

theorem ring_take_succ {i : Nat} (inside : i < count) :
    (ring count start).take (i + 1) = (ring count start).take i ++ [(start + i) % count] := by
  have bound : i < (ring count start).length := by rwa [length_ring]
  rw [List.take_succ_eq_append_getElem bound, getElem_ring]

/-- A place is not among those that were passed before it. -/
theorem notMem_take_ring {i : Nat} (inside : i < count) :
    (start + i) % count ∉ (ring count start).take i := by
  have distinct := @nodup_ring count start
  rw [ring_split inside] at distinct
  exact fun member =>
    (List.nodup_append.mp distinct).2.2 _ member _ List.mem_cons_self rfl

end Ring

section FirstOf

variable {α : Type u} [DecidableEq α] {early late : α → Bool} {skip : Nat}

/-- What comes first in a walk: its first `early` element, or the `late` one that has
`skip` late ones before it. -/
def firstOf (early late : α → Bool) (skip : Nat) (walk : List α) : Option α :=
  walk.find? fun here =>
    decide ((walk.filter early).head? = some here ∨ (walk.filter late)[skip]? = some here)

/-- A walk without an early element and with few late ones passes everything. -/
theorem firstOf_eq_none {walk : List α} (noEarly : ∀ here ∈ walk, early here = false)
    (few : walk.countP late ≤ skip) : firstOf early late skip walk = none := by
  have none : walk.filter early = [] := by simpa using noEarly
  have short : (walk.filter late)[skip]? = Option.none := by
    rw [List.getElem?_eq_none_iff, ← List.countP_eq_length_filter]
    exact few
  simp [firstOf, none, short]

/-- A walk stops at the element that is early, or is late and has `skip` late ones before it. -/
theorem firstOf_eq_some {before rest : List α} {here : α} (distinct : (before ++ here :: rest).Nodup)
    (noEarly : ∀ passed ∈ before, early passed = false) (few : before.countP late ≤ skip)
    (stops : early here = true ∨ late here = true ∧ before.countP late = skip) :
    firstOf early late skip (before ++ here :: rest) = some here := by
  have none : before.filter early = [] := by simpa using noEarly
  have length := @List.countP_eq_length_filter _ late before
  unfold firstOf
  rw [List.find?_append]
  -- nothing before is the early element, and nothing before has `skip` late ones before it
  have passes : before.find? (fun passed =>
      decide (((before ++ here :: rest).filter early).head? = some passed ∨
        ((before ++ here :: rest).filter late)[skip]? = some passed)) = Option.none := by
    rw [List.find?_eq_none]
    intro passed member isFirst
    have apart : passed ∉ here :: rest := fun later =>
      (List.nodup_append.mp distinct).2.2 _ member _ later rfl
    rcases of_decide_eq_true isFirst with isEarly | isLate
    · rw [List.filter_append, none, List.nil_append] at isEarly
      exact apart (List.mem_of_mem_filter (List.mem_of_head? isEarly))
    · rw [List.filter_append, List.getElem?_append_right (by omega)] at isLate
      exact apart (List.mem_of_mem_filter (List.mem_of_getElem? isLate))
  have found : ((before ++ here :: rest).filter early).head? = some here ∨
      ((before ++ here :: rest).filter late)[skip]? = some here := by
    rcases stops with isEarly | ⟨isLate, count⟩
    · left
      rw [List.filter_append, none, List.filter_cons_of_pos isEarly]
      rfl
    · right
      rw [List.filter_append, List.getElem?_append_right (by omega), List.filter_cons_of_pos isLate,
        ← length, count, Nat.sub_self]
      rfl
  rw [passes, List.find?_cons_of_pos (by simpa using found)]
  rfl

end FirstOf

end MiniDB.Foundation
