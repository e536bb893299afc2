import Mathlib.Data.List.AList

/-!
# Unordered maps

`std::unordered_map` is an association list without repeated keys; the order of
its entries is the iteration order, which the container does not promise.
`subscript` is `operator[]`, which inserts a default value for a missing key.
-/

namespace MiniDB.Foundation

/-- A finite map whose entry order stands for an unspecified iteration order. -/
abbrev UnorderedMap (Key Value : Type) := AList fun _ : Key => Value

namespace UnorderedMap

variable {Key Value : Type} [DecidableEq Key]

/-- `map[key]`: the value under `key`, after inserting the default if there is none. -/
def subscript [Inhabited Value] (map : UnorderedMap Key Value) (key : Key) :
    Value × UnorderedMap Key Value :=
  match map.lookup key with
  | some value => (value, map)
  | none => (default, map.insert key default)

/-- The value under a key, or the default. -/
def valueAt [Inhabited Value] (map : UnorderedMap Key Value) (key : Key) : Value :=
  (map.lookup key).getD default

variable [Inhabited Value] {map : UnorderedMap Key Value} {key other : Key} {value : Value}

@[simp] theorem subscript_fst : (subscript map key).1 = map.valueAt key := by
  unfold subscript valueAt
  cases map.lookup key <;> rfl

/-- `operator[]` on a key that is there changes nothing. -/
theorem subscript_snd_of_lookup (found : map.lookup key = some value) :
    (subscript map key).2 = map := by
  simp [subscript, found]

/-- `operator[]` writes no other key. -/
theorem lookup_subscript_of_ne (different : other ≠ key) :
    (subscript map key).2.lookup other = map.lookup other := by
  unfold subscript
  cases map.lookup key with
  | some value => rfl
  | none => exact AList.lookup_insert_ne different

@[simp] theorem valueAt_subscript : (subscript map key).2.valueAt other = map.valueAt other := by
  unfold subscript valueAt
  cases found : map.lookup key with
  | some value => rfl
  | none =>
    by_cases same : other = key
    · subst same
      simp [found]
    · simp [AList.lookup_insert_ne same]

@[simp] theorem valueAt_insert_self : valueAt (map.insert key value) key = value := by
  simp [valueAt]

theorem valueAt_insert_of_ne (different : other ≠ key) :
    valueAt (map.insert key value) other = map.valueAt other := by
  simp [valueAt, AList.lookup_insert_ne different]

theorem valueAt_insert : valueAt (map.insert key value) other =
    if other = key then value else map.valueAt other := by
  split
  · next same => rw [same, valueAt_insert_self]
  · next different => exact valueAt_insert_of_ne different

theorem valueAt_erase : valueAt (map.erase key) other =
    if other = key then default else map.valueAt other := by
  split
  · next same =>
    subst same
    simp [valueAt]
  · next different => simp [valueAt, AList.lookup_erase_ne different]

@[simp] theorem valueAt_empty : valueAt (∅ : UnorderedMap Key Value) key = default := by
  simp [valueAt]

omit [Inhabited Value] in
/-- An entry that `erase` left. -/
theorem lookup_of_erase (found : (map.erase key).lookup other = some value) :
    other ≠ key ∧ map.lookup other = some value := by
  have different : other ≠ key := by
    rintro rfl
    simp at found
  exact ⟨different, (AList.lookup_erase_ne different).symm.trans found⟩

end UnorderedMap

/-- An entry of a map after one key was written: the written one, or one of another
key. -/
theorem update_cases {Key Value : Type} [DecidableEq Key] {map : Key → Option Value}
    {key other : Key} {written : Option Value} {value : Value}
    (here : Function.update map key written other = some value) :
    other = key ∧ written = some value ∨ other ≠ key ∧ map other = some value := by
  by_cases same : other = key
  · subst same
    rw [Function.update_self] at here
    exact .inl ⟨rfl, here⟩
  · rw [Function.update_of_ne same] at here
    exact .inr ⟨same, here⟩

end MiniDB.Foundation
