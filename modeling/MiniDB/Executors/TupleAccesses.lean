import MiniDB.Executors.QueryOperators
import MiniDB.Foundation.Run

/-!
# The bytes of a tuple that are touched

A program works on tuples in variables. Each call is given the bytes of `data_` that it
reads or writes. They are inside as long as no size is larger than `MAX_SIZE`, which the
constructor does not check, and no offset is so large that `offset + sizeof(int)` wraps
around, which the tests of `GetIntValue` and `SetIntValue` do not see.
-/

namespace MiniDB.Executors

open Foundation Storage

/-- Bytes of `data_` that are touched: so many from an index on. -/
structure Access where
  start : Nat
  length : Nat
deriving DecidableEq, Repr

/-- No byte beyond the buffer is touched. -/
def Access.Inside (access : Access) : Prop :=
  ∀ i < access.length, access.start + i < Tuple.maxSize

/-- What is done with tuples in variables. -/
inductive TupleCall where
  | default (target : Nat)
  | make (target : Nat) (data : Bytes) (size : UInt64) (rid : RID)
  | copy (target source : Nat)
  | setSize (target : Nat) (size : UInt64)
  | setIntValue (target : Nat) (offset : UInt64) (value : Int)
  | getIntValue (source : Nat) (offset : UInt64)
  /-- The copy that `TableHeap::InsertTuple` makes. -/
  | insertTuple (source : Nat)
  /-- The copy that `TableHeap::UpdateTuple` makes. -/
  | updateTuple (source : Nat)
  /-- The copies that `JoinExecutor::Next` makes. -/
  | join (target left right : Nat)

/-- The tuples in the variables. -/
abbrev Tuples := Nat → Tuple

namespace Tuples

/-- One call. -/
def step (tuples : Tuples) : TupleCall → Tuples
  | .default target => Function.update tuples target {}
  | .make target data size rid => Function.update tuples target (.make data size.toNat rid)
  | .copy target source => Function.update tuples target (tuples source)
  | .setSize target size => Function.update tuples target ((tuples target).setSize size.toNat)
  | .setIntValue target offset value =>
    Function.update tuples target ((tuples target).setIntValue offset value)
  | .join target left right =>
    Function.update tuples target
      ((joinTuple (tuples target) (tuples left) (tuples right)).getD (tuples target))
  | _ => tuples

/-- The bytes of a target and of two sources that `JoinExecutor::Next` touches; the sum of
the sizes is a `size_t`. -/
def joinAccesses (left right : Nat) : List Access :=
  if (left + right) % 18446744073709551616 ≤ Tuple.maxSize then
    [⟨0, left⟩, ⟨0, left⟩, ⟨left, right⟩, ⟨0, right⟩]
  else
    let copyRight := Tuple.maxSize - left
    [⟨0, left⟩, ⟨0, left⟩, ⟨left, copyRight⟩, ⟨0, copyRight⟩]

/-- The bytes that a call touches. -/
def accesses (tuples : Tuples) : TupleCall → List Access
  | .default _ => [⟨0, Tuple.maxSize⟩]
  | .make _ _ size _ =>
    ⟨0, Tuple.maxSize⟩ :: if size.toNat ≤ Tuple.maxSize then [⟨0, size.toNat⟩] else []
  | .copy _ _ => [⟨0, Tuple.maxSize⟩]
  | .setSize _ _ => []
  | .setIntValue _ offset _ =>
    if (offset + 4).toNat ≤ Tuple.maxSize then [⟨offset.toNat, 4⟩] else []
  | .getIntValue source offset =>
    if (offset + 4).toNat ≤ (tuples source).size then [⟨offset.toNat, 4⟩] else []
  | .insertTuple source => [⟨0, TableHeap.copySize (tuples source)⟩]
  | .updateTuple source => [⟨0, min (tuples source).size (pageSize - 16)⟩]
  | .join _ left right => joinAccesses (tuples left).size (tuples right).size

/-- Every size is at most `MAX_SIZE`. -/
def Bounded (tuples : Tuples) : Prop := ∀ index, (tuples index).size ≤ Tuple.maxSize

/-- The call touches bytes of the buffers only, and leaves no size that is too large. -/
def StaysInside (tuples : Tuples) (call : TupleCall) : Prop :=
  (∀ access ∈ tuples.accesses call, access.Inside) ∧ (tuples.step call).Bounded

/-- The arguments that the code gets right. -/
def GivenFitting (tuples : Tuples) : TupleCall → Prop
  | .make _ _ size _ => size.toNat ≤ Tuple.maxSize
  | .setIntValue _ offset _ => offset.toNat + 4 < 18446744073709551616
  | .getIntValue source offset =>
    offset.toNat + 4 < 18446744073709551616 ∨ (tuples source).size < (offset + 4).toNat
  | _ => True

variable {tuples : Tuples}

theorem inside_of_le {start length : Nat} (fits : start + length ≤ Tuple.maxSize) :
    (Access.mk start length).Inside := by
  intro i bound
  dsimp only at bound ⊢
  omega

/-- The four bytes of an `int` are inside when the buffer ends after them. -/
theorem inside_int_iff {start : Nat} :
    (Access.mk start 4).Inside ↔ start + 4 ≤ Tuple.maxSize := by
  constructor
  · intro inside
    have last : start + 3 < Tuple.maxSize := inside 3 (Nat.lt_succ_self 3)
    omega
  · exact inside_of_le

theorem toNat_add_four (offset : UInt64) :
    (offset + 4).toNat = (offset.toNat + 4) % 18446744073709551616 :=
  UInt64.toNat_add offset 4

/-- An offset whose sum wraps around passes the test of `SetIntValue`. -/
theorem setInt_inside_iff (offset : UInt64) :
    ((offset + 4).toNat ≤ Tuple.maxSize → offset.toNat + 4 ≤ Tuple.maxSize) ↔
      offset.toNat + 4 < 18446744073709551616 := by
  have below := offset.toNat_lt
  rw [toNat_add_four]
  simp only [Tuple.maxSize]
  omega

/-- The same for `GetIntValue`, whose test is against the size. -/
theorem getInt_inside_iff (offset : UInt64) {size : Nat} (bounded : size ≤ Tuple.maxSize) :
    ((offset + 4).toNat ≤ size → offset.toNat + 4 ≤ Tuple.maxSize) ↔
      offset.toNat + 4 < 18446744073709551616 ∨ size < (offset + 4).toNat := by
  have below := offset.toNat_lt
  rw [toNat_add_four]
  simp only [Tuple.maxSize] at bounded ⊢
  omega

/-- The bytes of a call under a test. -/
theorem forall_guarded {condition : Prop} [Decidable condition] {access : Access}
    {holds : Access → Prop} :
    (∀ member ∈ (if condition then [access] else []), holds member) ↔ (condition → holds access) := by
  by_cases here : condition
  · simp [here]
  · simp [here]

theorem Bounded.update (bounded : tuples.Bounded) (target : Nat) (tuple : Tuple)
    (fits : tuple.size ≤ Tuple.maxSize) : Bounded (Function.update tuples target tuple) := by
  intro index
  by_cases same : index = target
  · subst same
    rwa [Function.update_self]
  · rw [Function.update_of_ne same]
    exact bounded index

theorem size_setSize_le {tuple : Tuple} (fits : tuple.size ≤ Tuple.maxSize) (size : Nat) :
    (tuple.setSize size).size ≤ Tuple.maxSize := by
  unfold Tuple.setSize
  split
  · next small => exact small
  · exact fits

theorem size_setIntValue_le {tuple : Tuple} (fits : tuple.size ≤ Tuple.maxSize) (offset : UInt64)
    (value : Int) : (tuple.setIntValue offset value).size ≤ Tuple.maxSize := by
  unfold Tuple.setIntValue
  split
  · next small =>
    dsimp only
    split
    · exact small
    · exact fits
  · exact fits

/-- A joined tuple is the target with a size that `SetSize` took. -/
theorem size_joinTuple_le {target left right : Tuple} (fits : target.size ≤ Tuple.maxSize) :
    ((joinTuple target left right).getD target).size ≤ Tuple.maxSize := by
  unfold joinTuple
  split
  · exact fits
  · refine size_setSize_le ?_ _
    exact fits

/-- Tuples of fitting sizes are joined inside their buffers. -/
theorem joinAccesses_inside {left right : Nat} (leftFits : left ≤ Tuple.maxSize)
    (rightFits : right ≤ Tuple.maxSize) :
    ∀ access ∈ joinAccesses left right, access.Inside := by
  unfold joinAccesses
  have noWrap : (left + right) % 18446744073709551616 = left + right := by
    simp only [Tuple.maxSize] at leftFits rightFits
    omega
  rw [noWrap]
  split
  · next both =>
    intro access member
    simp only [List.mem_cons, List.not_mem_nil, or_false] at member
    rcases member with rfl | rfl | rfl | rfl <;> apply inside_of_le <;> omega
  · intro access member
    simp only [List.mem_cons, List.not_mem_nil, or_false] at member
    rcases member with rfl | rfl | rfl | rfl <;> apply inside_of_le <;> omega

/-- From tuples of fitting sizes, a call stays inside exactly for the arguments that the code
gets right. -/
theorem staysInside_iff (bounded : tuples.Bounded) (call : TupleCall) :
    tuples.StaysInside call ↔ tuples.GivenFitting call := by
  have whole : (Access.mk 0 Tuple.maxSize).Inside := inside_of_le (Nat.le_of_eq (Nat.zero_add _))
  unfold StaysInside GivenFitting
  cases call with
  | default target =>
    refine iff_of_true ⟨?_, bounded.update target {} (Nat.zero_le _)⟩ trivial
    exact List.forall_mem_singleton.mpr whole
  | make target data size rid =>
    constructor
    · rintro ⟨-, fits⟩
      have here := fits target
      rwa [step, Function.update_self] at here
    · intro fits
      refine ⟨?_, bounded.update target _ fits⟩
      rw [accesses, if_pos fits]
      intro access member
      simp only [List.mem_cons, List.not_mem_nil, or_false] at member
      rcases member with rfl | rfl
      · exact whole
      · exact inside_of_le (by omega)
  | copy target source =>
    refine iff_of_true ⟨?_, bounded.update target _ (bounded source)⟩ trivial
    exact List.forall_mem_singleton.mpr whole
  | setSize target size =>
    refine iff_of_true ⟨?_, bounded.update target _ (size_setSize_le (bounded target) _)⟩ trivial
    exact List.forall_mem_nil _
  | setIntValue target offset value =>
    rw [accesses, forall_guarded, inside_int_iff, setInt_inside_iff]
    refine and_iff_left ?_
    exact bounded.update target _ (size_setIntValue_le (bounded target) offset value)
  | getIntValue source offset =>
    rw [accesses, forall_guarded, inside_int_iff, getInt_inside_iff offset (bounded source)]
    exact and_iff_left bounded
  | insertTuple source =>
    have fits : TableHeap.copySize (tuples source) ≤ Tuple.maxSize :=
      (Nat.min_le_left _ _).trans (bounded source)
    refine iff_of_true ⟨?_, bounded⟩ trivial
    exact List.forall_mem_singleton.mpr (inside_of_le (by omega))
  | updateTuple source =>
    have fits : min (tuples source).size (pageSize - 16) ≤ Tuple.maxSize :=
      (Nat.min_le_left _ _).trans (bounded source)
    refine iff_of_true ⟨?_, bounded⟩ trivial
    exact List.forall_mem_singleton.mpr (inside_of_le (by omega))
  | join target left right =>
    refine iff_of_true ⟨joinAccesses_inside (bounded left) (bounded right), ?_⟩ trivial
    exact bounded.update target _ (size_joinTuple_le (bounded target))

/-- In every sequence of calls, all of them stay inside the buffers exactly when all of them
are given sizes and offsets that fit. -/
theorem runs_stay_inside_iff (calls : List TupleCall) :
    EachCall step StaysInside (fun _ => {}) calls ↔ EachCall step GivenFitting (fun _ => {}) calls := by
  have empty : Bounded fun _ => {} := fun _ => Nat.zero_le _
  apply @eachCall_congr_of_kept _ _ _ _ Bounded _ _ _ _ empty
  · exact fun tuples call bounded => staysInside_iff bounded call
  · exact fun tuples call _ stays => stays.2

/-- A size of 2049 is kept by the constructor, and `GetIntValue` reads at an offset whose sum
wraps around to 0. -/
theorem size_kept_and_offset_wrapped :
    ¬ EachCall step StaysInside (fun _ => {}) [.make 0 Bytes.zeros 2049 {}] ∧
      ¬ EachCall step StaysInside (fun _ => {}) [.getIntValue 0 18446744073709551612] := by
  constructor
  · rintro ⟨⟨-, bounded⟩, -⟩
    exact absurd (bounded 0) (by decide)
  · rintro ⟨⟨inside, -⟩, -⟩
    have touched : Access.mk 18446744073709551612 4 ∈
        accesses (fun _ => {}) (.getIntValue 0 18446744073709551612) := by decide
    exact absurd (inside _ touched 0 (by decide)) (by decide)

/-! ## What the copies depend on

The functions of the heap and of the executors depend on no other bytes of a tuple than
those that they are said to touch. -/

/-- Two tuples of one size with the same bytes where they are touched. -/
structure SameBelow (count : Nat) (tuple other : Tuple) : Prop where
  size : tuple.size = other.size
  bytes : ∀ i < count, tuple.data i = other.data i

theorem storeTuple_congr {pageData : Bytes} {tuple other : Tuple}
    (same : SameBelow (TableHeap.copySize tuple) tuple other) :
    TableHeap.storeTuple pageData tuple = TableHeap.storeTuple pageData other := by
  have size : TableHeap.copySize other = TableHeap.copySize tuple := by
    simp only [TableHeap.copySize, same.size]
  have copied := fun target offset => @Bytes.copy_congr target _ _ offset _ same.bytes
  simp only [TableHeap.storeTuple, size, copied]

theorem overwrite_congr {pageData : Bytes} {tuple other : Tuple}
    (same : SameBelow (min tuple.size (pageSize - 16)) tuple other) :
    TableHeap.overwrite pageData tuple = TableHeap.overwrite pageData other := by
  unfold TableHeap.overwrite
  rw [Bytes.copy_congr same.bytes, same.size]

/-- A read of an `int` is outside exactly when one of the bytes it touches is. -/
theorem intValue_eq_none_iff (source : Nat) (offset : UInt64) :
    intValue (tuples source) offset = none ↔
      ∃ access ∈ tuples.accesses (.getIntValue source offset), ¬ access.Inside := by
  rw [← not_iff_not]
  push Not
  rw [accesses, forall_guarded, inside_int_iff]
  unfold intValue
  by_cases tested : (offset + 4).toNat ≤ (tuples source).size
  · rw [if_pos tested]
    by_cases fits : offset.toNat + 4 ≤ Tuple.maxSize
    · rw [if_pos fits]
      exact iff_of_true (Option.some_ne_none _) fun _ => fits
    · rw [if_neg fits]
      exact iff_of_false (fun read => read rfl) fun inside => fits (inside tested)
  · rw [if_neg tested]
    exact iff_of_true (Option.some_ne_none _) fun passes => absurd passes tested

end Tuples

end MiniDB.Executors
