import Mathlib.Data.List.Dedup
import MiniDB.Foundation.Serializability

/-!
# Two-phase locking

A lock table says which owners hold an item, and which of them hold it alone. Owners that
access only what they hold, and take no lock once they gave one up, conflict only in the
order in which they first gave one up: this is the invariant `TwoPhase`, with one rule for
each kind of step. `TwoPhase.serializable` draws the conclusion.
-/

namespace MiniDB.Foundation

universe u v

variable {Owner : Type u} {Item : Type v}

/-- Who holds which item. A lock that is held alone is nobody else's. -/
structure LockTable (Owner : Type u) (Item : Type v) where
  holds : Owner → Item → Prop
  holdsAlone : Owner → Item → Prop
  holds_of_alone : ∀ owner item, holdsAlone owner item → holds owner item
  alone : ∀ owner item, holdsAlone owner item → ∀ other, other ≠ owner → ¬ holds other item

namespace LockTable

/-- The lock allows the access: a write needs one that is held alone. -/
def Covers (table : LockTable Owner Item) (access : Access Owner Item) : Prop :=
  if access.write = true then table.holdsAlone access.owner access.item
  else table.holds access.owner access.item

/-- The lock of another owner that would not go with a lock for the access. -/
def Bars (table : LockTable Owner Item) (other : Owner) (access : Access Owner Item) : Prop :=
  if access.write = true then table.holds other access.item
  else table.holdsAlone other access.item

/-- A lock that covers an access is held. -/
theorem Covers.holds {table : LockTable Owner Item} {access : Access Owner Item}
    (covers : table.Covers access) : table.holds access.owner access.item := by
  unfold Covers at covers
  split at covers
  · exact table.holds_of_alone _ _ covers
  · exact covers

/-- A lock for an access and another owner's lock for a conflicting one exclude each other. -/
theorem Covers.bars {table : LockTable Owner Item} {first second : Access Owner Item}
    (covers : table.Covers second) (conflicts : first.Conflicts second) :
    table.Bars second.owner first := by
  obtain ⟨same, writes⟩ := conflicts
  unfold Bars
  rw [same]
  split
  · exact covers.holds
  · next reads =>
    have secondWrites := writes.resolve_left reads
    rwa [Covers, if_pos secondWrites] at covers

/-- No other owner's lock bars an access that is covered. -/
theorem Covers.not_bars {table : LockTable Owner Item} {access : Access Owner Item}
    (covers : table.Covers access) {other : Owner} (different : other ≠ access.owner) :
    ¬ table.Bars other access := by
  unfold Covers at covers
  unfold Bars
  intro bars
  split at covers
  · next writes =>
    rw [if_pos writes] at bars
    exact table.alone _ _ covers other different bars
  · next reads =>
    rw [if_neg reads] at bars
    exact table.alone _ _ bars _ different.symm covers

/-- Only the locks of one owner are different. -/
structure ChangesOnly (before after : LockTable Owner Item) (owner : Owner) : Prop where
  holds : ∀ other, other ≠ owner → ∀ item, after.holds other item ↔ before.holds other item
  holdsAlone : ∀ other, other ≠ owner → ∀ item,
    after.holdsAlone other item ↔ before.holdsAlone other item

/-- Locks are only added. -/
structure Grows (before after : LockTable Owner Item) : Prop where
  holds : ∀ owner item, before.holds owner item → after.holds owner item
  holdsAlone : ∀ owner item, before.holdsAlone owner item → after.holdsAlone owner item

/-- What one owner changes does not cover the others' accesses. -/
theorem ChangesOnly.covers_iff {before after : LockTable Owner Item} {owner : Owner}
    (changes : ChangesOnly before after owner) {access : Access Owner Item}
    (different : access.owner ≠ owner) : after.Covers access ↔ before.Covers access := by
  unfold Covers
  rw [changes.holds _ different, changes.holdsAlone _ different]

/-- Nor does it change what the others bar. -/
theorem ChangesOnly.bars_iff {before after : LockTable Owner Item} {owner other : Owner}
    (changes : ChangesOnly before after owner) {access : Access Owner Item}
    (different : other ≠ owner) : after.Bars other access ↔ before.Bars other access := by
  unfold Bars
  rw [changes.holds _ different, changes.holdsAlone _ different]

/-- More locks cover what fewer do. -/
theorem Grows.covers {before after : LockTable Owner Item} (grows : Grows before after)
    {access : Access Owner Item} (covers : before.Covers access) : after.Covers access := by
  unfold Covers at covers ⊢
  split
  · next writes =>
    rw [if_pos writes] at covers
    exact grows.holdsAlone _ _ covers
  · next reads =>
    rw [if_neg reads] at covers
    exact grows.holds _ _ covers

/-- And they bar it. -/
theorem Grows.bars {before after : LockTable Owner Item} (grows : Grows before after)
    {other : Owner} {access : Access Owner Item} (bars : before.Bars other access) :
    after.Bars other access := by
  unfold Bars at bars ⊢
  split
  · next writes =>
    rw [if_pos writes] at bars
    exact grows.holds _ _ bars
  · next reads =>
    rw [if_neg reads] at bars
    exact grows.holdsAlone _ _ bars

end LockTable

/-! ## The invariant -/

variable [DecidableEq Owner]

/-- What holds of the locks, of the owners that gave a lock up (in the order in which they
first did) and of the accesses so far, while everybody locks in two phases. -/
structure TwoPhase (table : LockTable Owner Item) (released : List Owner)
    (accesses : List (Access Owner Item)) : Prop where
  nodup : released.Nodup
  /-- The lock for an access is held until its owner gives a lock up. -/
  kept : ∀ access ∈ accesses, table.Covers access ∨ access.owner ∈ released
  /-- Who holds a lock that conflicts with an access of another owner got it later than
  this owner gave a lock up, and gave none up before. -/
  waited : ∀ access ∈ accesses, ∀ other, other ≠ access.owner → table.Bars other access →
    Before released access.owner other
  forward : Forward released accesses

namespace TwoPhase

theorem initial (table : LockTable Owner Item) : TwoPhase table [] [] where
  nodup := List.nodup_nil
  kept := by simp
  waited := by simp
  forward := List.Pairwise.nil

variable {table after : LockTable Owner Item} {released : List Owner}
  {accesses : List (Access Owner Item)}

/-- An access that the lock of its owner allows. -/
theorem access (phases : TwoPhase table released accesses) {latest : Access Owner Item}
    (covers : table.Covers latest) : TwoPhase table released (accesses ++ [latest]) where
  nodup := phases.nodup
  kept := by
    intro access member
    rcases List.mem_append.mp member with earlier | isLatest
    · exact phases.kept access earlier
    · rw [List.mem_singleton.mp isLatest]
      exact .inl covers
  waited := by
    intro access member other different bars
    rcases List.mem_append.mp member with earlier | isLatest
    · exact phases.waited access earlier other different bars
    · rw [List.mem_singleton.mp isLatest] at different bars
      exact absurd bars (covers.not_bars different)
  forward := by
    refine List.pairwise_append.mpr ⟨phases.forward, List.pairwise_singleton _ _, ?_⟩
    intro access earlier next isLatest different conflicts
    rw [List.mem_singleton.mp isLatest] at different conflicts ⊢
    exact phases.waited access earlier latest.owner different.symm (covers.bars conflicts)

/-- The same locks. -/
theorem same (phases : TwoPhase table released accesses) (grows : table.Grows after)
    (shrinks : after.Grows table) : TwoPhase after released accesses where
  nodup := phases.nodup
  kept := fun access member => (phases.kept access member).imp_left grows.covers
  waited := fun access member other different bars =>
    phases.waited access member other different (shrinks.bars bars)
  forward := phases.forward

/-- Locks for an owner that has not given one up. -/
theorem gain (phases : TwoPhase table released accesses) {owner : Owner}
    (changes : table.ChangesOnly after owner) (grows : table.Grows after)
    (growing : owner ∉ released) : TwoPhase after released accesses where
  nodup := phases.nodup
  kept := fun access member => (phases.kept access member).imp_left grows.covers
  waited := by
    intro access member other different bars
    rcases eq_or_ne other owner with isOwner | notOwner
    · -- the access's owner cannot hold its lock any more
      rcases phases.kept access member with covers | gone
      · exact absurd bars ((grows.covers covers).not_bars different)
      · exact before_of_mem gone (isOwner ▸ growing)
    · exact phases.waited access member other different ((changes.bars_iff notOwner).mp bars)
  forward := phases.forward

/-- An owner that gives locks up is noted. -/
theorem release (phases : TwoPhase table released accesses) {owner : Owner}
    (changes : table.ChangesOnly after owner) (shrinks : after.Grows table) :
    TwoPhase after (if owner ∈ released then released else released ++ [owner]) accesses := by
  have longer : ∃ later, (if owner ∈ released then released else released ++ [owner]) =
      released ++ later := by
    split
    · exact ⟨[], (List.append_nil released).symm⟩
    · exact ⟨[owner], rfl⟩
  have noted : owner ∈ if owner ∈ released then released else released ++ [owner] := by
    split
    · next listed => exact listed
    · exact List.mem_append_right released List.mem_cons_self
  refine ⟨?_, ?_, ?_, ?_⟩
  · split
    · exact phases.nodup
    · next unlisted =>
      refine List.nodup_append.mpr ⟨phases.nodup, List.nodup_singleton owner, ?_⟩
      rintro other listed last isLast rfl
      exact unlisted (List.mem_singleton.mp isLast ▸ listed)
  · intro access member
    rcases eq_or_ne access.owner owner with isOwner | notOwner
    · exact .inr (isOwner ▸ noted)
    · refine (phases.kept access member).imp (changes.covers_iff notOwner).mpr fun gone => ?_
      obtain ⟨later, longerEq⟩ := longer
      exact longerEq ▸ List.mem_append_left later gone
  · intro access member other different bars
    obtain ⟨later, longerEq⟩ := longer
    exact longerEq ▸ (phases.waited access member other different (shrinks.bars bars)).append later
  · obtain ⟨later, longerEq⟩ := longer
    exact longerEq ▸ phases.forward.append later

end TwoPhase

/-- The owners in the order in which they first gave a lock up, then those that gave none up. -/
def lockOrder (released : List Owner) (accesses : List (Access Owner Item)) : List Owner :=
  released ++ (accesses.map Access.owner).dedup.filter fun owner => decide (owner ∉ released)

/-- Every owner of an access has its place in the order. -/
theorem mem_lockOrder (released : List Owner) {accesses : List (Access Owner Item)}
    {access : Access Owner Item} (member : access ∈ accesses) :
    access.owner ∈ lockOrder released accesses := by
  by_cases listed : access.owner ∈ released
  · exact List.mem_append_left _ listed
  · refine List.mem_append_right released (List.mem_filter.mpr ⟨?_, decide_eq_true listed⟩)
    exact List.mem_dedup.mpr (List.mem_map_of_mem member)

/-- And only one. -/
theorem nodup_lockOrder {released : List Owner} (nodup : released.Nodup)
    (accesses : List (Access Owner Item)) : (lockOrder released accesses).Nodup := by
  refine List.nodup_append.mpr ⟨nodup, (List.nodup_dedup _).filter _, ?_⟩
  rintro owner listed other isLast rfl
  exact of_decide_eq_true (List.mem_filter.mp isLast).2 listed

/-- Whatever owners compute that lock in two phases, items and owners end as if the owners
had run one after the other, in the order in which they first gave a lock up. -/
theorem TwoPhase.serializable [DecidableEq Item] {Local Value : Type}
    {table : LockTable Owner Item} {released : List Owner} {accesses : List (Access Owner Item)}
    (phases : TwoPhase table released accesses)
    (program : Access Owner Item → Local → Value → Local × Value)
    (world : World Owner Item Local Value) :
    run (perform program) world (serial (lockOrder released accesses) accesses) =
      run (perform program) world accesses :=
  run_serial_of_forward program (nodup_lockOrder phases.nodup accesses)
    (fun _ member => mem_lockOrder released member) (phases.forward.append _) world

end MiniDB.Foundation
