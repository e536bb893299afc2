import MiniDB.Executors.Aggregates

/-!
# A sort and the RIDs of its rows

A sort asks its child for tuples and RIDs, and keeps the tuples only. The RID that it
reports is the one that the tuple stores. A child reports the same RID or another one:
a join reports that of its left row and writes into the tuple that it is given, without
storing a RID there.
-/

namespace MiniDB.Executors

open Foundation Buffer PoolProgram Storage

variable {E : Type} [Executor E] {fuel : Nat} {row : Row} {executor : E} {rows : List Row}
  {pool : BufferPool DiskManager}

/-! ## Draining ends within its fuel -/

theorem length_drain (drained : (run (drain fuel row executor) pool).1.1 = some rows) :
    rows.length < fuel := by
  induction fuel generalizing row executor rows pool with
  | zero => simp [drain] at drained
  | succ fuel ih =>
    rw [drain_succ] at drained
    generalize run (Executor.next (fuel + 1) row executor) pool = ran at drained
    obtain ⟨⟨_ | ⟨_ | _, returned⟩, after⟩, later⟩ := ran
    · simp at drained
    · obtain rfl := Option.some.inj drained
      exact Nat.succ_pos fuel
    · obtain ⟨rest, isRest, rfl⟩ := Option.map_eq_some_iff.mp drained
      exact Nat.succ_lt_succ (ih isRest)

theorem length_collect (collected : (run (collect fuel row executor) pool).1.1 = some rows) :
    rows.length < fuel := by
  simp only [collect, run_bind] at collected
  generalize run (Executor.init fuel executor) pool = ran at collected
  obtain ⟨_ | after, later⟩ := ran
  · simp at collected
  · exact length_drain collected

/-! ## Sorting tuples -/

variable {sort : StdSort} {keyOffset : UInt64} {tuples sorted : List Tuple}

theorem mapM_eq_some_iff {α : Type} {key : α → Option Int} {items : List α} {keys : List Int} :
    items.mapM key = some keys ↔ items.map key = keys.map some := by
  induction items generalizing keys with
  | nil => cases keys <;> simp
  | cons item items ih =>
    cases keys with
    | nil => simp [List.mapM_cons, Option.bind_eq_some_iff]
    | cons first rest => simp [List.mapM_cons, Option.bind_eq_some_iff, ← ih]

/-- The pair that a sort reports for a tuple. -/
def ownPair (tuple : Tuple) : Row := (tuple, tuple.rid)

/-- Each row has a key, and comes before the rows with greater keys. -/
def InOrder (keyOffset : UInt64) (rows : List Row) : Prop :=
  rows.Pairwise fun first second => ∃ low high, intValue first.1 keyOffset = some low ∧
    intValue second.1 keyOffset = some high ∧ low ≤ high

/-- The keys that are compared are defined. -/
def KeysDefined (keyOffset : UInt64) (tuples : List Tuple) : Prop :=
  2 ≤ tuples.length → ∀ tuple ∈ tuples, ∃ key, intValue tuple keyOffset = some key

/-- What `std::sort` is given and gives, where it compares. -/
theorem sortTuples_cases (isSorted : sortTuples sort keyOffset tuples = some sorted) :
    (tuples.length < 2 ∧ sorted = tuples) ∨
      ∃ keys : List Int, tuples.map (fun tuple => intValue tuple keyOffset) = keys.map some ∧
        sorted = (sort.order keys).map fun index => tuples.getD index {} := by
  unfold sortTuples at isSorted
  split at isSorted
  · next few => exact .inl ⟨few, (Option.some.inj isSorted).symm⟩
  · obtain ⟨keys, all, rfl⟩ := Option.map_eq_some_iff.mp isSorted
    exact .inr ⟨keys, mapM_eq_some_iff.mp all, rfl⟩

theorem sortTuples_defined_iff :
    (∃ sorted, sortTuples sort keyOffset tuples = some sorted) ↔ KeysDefined keyOffset tuples := by
  unfold sortTuples KeysDefined
  split
  · next few => exact iff_of_true ⟨tuples, rfl⟩ fun many => absurd many (by omega)
  · next many =>
    constructor
    · rintro ⟨sorted, isSorted⟩ - tuple member
      obtain ⟨keys, all, -⟩ := Option.map_eq_some_iff.mp isSorted
      have defined : intValue tuple keyOffset ∈ keys.map some := by
        rw [← mapM_eq_some_iff.mp all]
        exact List.mem_map_of_mem member
      obtain ⟨key, -, isKey⟩ := List.mem_map.mp defined
      exact ⟨key, isKey.symm⟩
    · intro defined
      obtain ⟨keys, all⟩ := exists_values (defined (by omega))
      exact ⟨_, Option.map_eq_some_iff.mpr ⟨keys, mapM_eq_some_iff.mpr all, rfl⟩⟩

theorem sortTuples_perm (isSorted : sortTuples sort keyOffset tuples = some sorted) :
    sorted.Perm tuples := by
  rcases sortTuples_cases isSorted with ⟨-, rfl⟩ | ⟨keys, all, rfl⟩
  · exact List.Perm.refl _
  · have sameLength : keys.length = tuples.length := by
      have lengths := congrArg List.length all
      rw [List.length_map, List.length_map] at lengths
      exact lengths.symm
    have identity : (List.range tuples.length).map (fun index => tuples.getD index {}) = tuples := by
      apply List.ext_getElem
      · simp
      · intro index _ inside
        simp [inside]
    have permuted := (sort.perm keys).map fun index => tuples.getD index {}
    rwa [sameLength, identity] at permuted

theorem sortTuples_inOrder (isSorted : sortTuples sort keyOffset tuples = some sorted) :
    InOrder keyOffset (sorted.map ownPair) := by
  rcases sortTuples_cases isSorted with ⟨few, rfl⟩ | ⟨keys, all, rfl⟩
  · match sorted, few with
    | [], _ => exact List.Pairwise.nil
    | [tuple], _ => exact List.pairwise_singleton _ _
  · have keyAt : ∀ index ∈ sort.order keys,
        intValue (tuples.getD index {}) keyOffset = some (keys.getD index 0) := by
      intro index member
      have inside : index < keys.length :=
        List.mem_range.mp ((sort.perm keys).mem_iff.mp member)
      have read := congrArg (fun values : List (Option Int) => values[index]?) all
      simp only [List.getElem?_map, List.getElem?_eq_getElem inside, Option.map_some] at read
      obtain ⟨tuple, isTuple, isKey⟩ := Option.map_eq_some_iff.mp read
      rw [List.getD_eq_getElem?_getD, isTuple, List.getD_eq_getElem?_getD,
        List.getElem?_eq_getElem inside]
      exact isKey
    have ordered := List.pairwise_map.mp (sort.sorted keys)
    rw [InOrder, List.map_map]
    refine List.pairwise_map.mpr (ordered.imp_of_mem fun {first second} isFirst isSecond le => ?_)
    exact ⟨_, _, keyAt first isFirst, keyAt second isSecond, le⟩

/-! ## The rows of a sort -/

variable {sorter : SortExecutor sort E} {reported : List Row} {child : E}
  {later : BufferPool DiskManager}

/-- `Next` of a sort does not read the pool. -/
theorem sort_keeps_anywhere : Keeps (fun _ => True) fun _ : SortExecutor sort E => True where
  init _ _ _ _ _ := ⟨trivial, fun _ _ => trivial⟩
  next _ _ _ _ _ _ := ⟨trivial, trivial⟩

/-- Draining a sort gives the sorted tuples, each with the RID that it stores. -/
theorem SortExecutor.run_collect (row : Row)
    (ran : run (collect fuel ({}, {}) sorter.child) pool = ((some reported, child), later)) :
    (run (collect fuel row sorter) pool).1.1 =
      (sortTuples sort sorter.keyOffset (reported.map Prod.fst)).map (List.map ownPair) := by
  have covers : reported.length < fuel := length_collect (congrArg (fun ran => ran.1.1) ran)
  have started : run (Executor.init fuel sorter) pool =
      ((sortTuples sort sorter.keyOffset (reported.map Prod.fst)).map fun sorted =>
        { sorter with child, sorted, cursor := 0 }, later) := by
    rw [SortExecutor.run_init, ran]
  rw [collect, run_bind, started]
  cases isSorted : sortTuples sort sorter.keyOffset (reported.map Prod.fst) with
  | none => rfl
  | some sorted =>
    have sameLength := (sortTuples_perm isSorted).length_eq
    rw [List.length_map] at sameLength
    have streams : Streams (fun _ => True) id 0 true (sorted.map ownPair)
        ({ sorter with child, sorted, cursor := 0 } : SortExecutor sort E) := sort_streams rfl
    have enough : 0 + (sorted.map ownPair).length < fuel := by
      rw [List.length_map]
      omega
    have drained := @Streams.drain _ _ _ _ _ _ _ _ _ later sort_keeps_anywhere
      { rows := sorted.map ownPair, complete := true } trivial streams row enough trivial
    rw [List.map_id_fun, Option.map_id_fun] at drained
    exact drained

/-- Draining a sort gives the pairs that its child reports, in the order of their keys,
exactly when the child reports with each tuple the RID that the tuple stores, and the
keys that are compared are defined. -/
theorem sort_pairs_iff (sorter : SortExecutor sort E) (row : Row)
    (ran : run (collect fuel ({}, {}) sorter.child) pool = ((some reported, child), later)) :
    (∃ sorted, (run (collect fuel row sorter) pool).1.1 = some sorted ∧ sorted.Perm reported ∧
        InOrder sorter.keyOffset sorted) ↔
      (∀ pair ∈ reported, pair.2 = pair.1.rid) ∧
        KeysDefined sorter.keyOffset (reported.map Prod.fst) := by
  rw [SortExecutor.run_collect row ran]
  constructor
  · rintro ⟨pairs, drained, permuted, -⟩
    obtain ⟨sorted, isSorted, rfl⟩ := Option.map_eq_some_iff.mp drained
    refine ⟨fun pair member => ?_, sortTuples_defined_iff.mp ⟨sorted, isSorted⟩⟩
    obtain ⟨tuple, -, rfl⟩ := List.mem_map.mp (permuted.mem_iff.mpr member)
    rfl
  · rintro ⟨stored, defined⟩
    obtain ⟨sorted, isSorted⟩ := sortTuples_defined_iff.mpr defined
    have own : (reported.map Prod.fst).map ownPair = reported := by
      rw [List.map_map]
      refine (List.map_congr_left fun pair member => ?_).trans (List.map_id reported)
      exact Prod.ext rfl (stored pair member).symm
    have permuted := (sortTuples_perm isSorted).map ownPair
    rw [own] at permuted
    exact ⟨sorted.map ownPair, by rw [isSorted]; rfl, permuted, sortTuples_inOrder isSorted⟩

/-- A sort of a table, whose scan reports the RIDs that it stores. -/
theorem sort_pairs_iff_scan :
    let table := twoValues 9 4
    let scan := SeqScanExecutor.newLayer table.1 none .both
    let sorter : SortExecutor .insertion SeqScanExecutor := { child := scan, keyOffset := 16 }
    ∃ reported sorted, (run (collect 20 ({}, {}) scan) table.2).1.1 = some reported ∧
      reported.map Prod.snd = [{ pageId := 0, slotNum := 0 }, { pageId := 0, slotNum := 1 }] ∧
      (run (collect 20 ({}, {}) sorter) table.2).1.1 = some sorted ∧ sorted.Perm reported ∧
      InOrder 16 sorted := by
  intro table scan sorter
  have facts : (run (collect 20 ({}, {}) scan) table.2).1.1.map (List.map fun pair =>
      (pair.2, pair.1.rid, intValue pair.1 16)) =
      some [({ pageId := 0, slotNum := 0 }, { pageId := 0, slotNum := 0 }, some 9),
        ({ pageId := 0, slotNum := 1 }, { pageId := 0, slotNum := 1 }, some 4)] := by
    decide +kernel
  obtain ⟨⟨⟨answer, child⟩, later⟩, ran⟩ :
      ∃ ran, run (collect 20 ({}, {}) scan) table.2 = ran := ⟨_, rfl⟩
  rw [ran] at facts
  obtain ⟨reported, rfl, pairs⟩ := Option.map_eq_some_iff.mp facts
  have shape : ∀ pair ∈ reported, pair.2 = pair.1.rid ∧ ∃ key, intValue pair.1 16 = some key := by
    intro pair member
    have listed := List.mem_map_of_mem (f := fun pair : Row =>
      (pair.2, pair.1.rid, intValue pair.1 16)) member
    rw [pairs] at listed
    simp only [List.mem_cons, Prod.mk.injEq, List.not_mem_nil, or_false] at listed
    rcases listed with ⟨rid, stored, key⟩ | ⟨rid, stored, key⟩
    · exact ⟨rid.trans stored.symm, 9, key⟩
    · exact ⟨rid.trans stored.symm, 4, key⟩
  have defined : KeysDefined sorter.keyOffset (reported.map Prod.fst) := by
    intro _ tuple member
    obtain ⟨pair, isReported, rfl⟩ := List.mem_map.mp member
    exact (shape pair isReported).2
  obtain ⟨sorted, drained, permuted, ordered⟩ := (sort_pairs_iff sorter ({}, {}) ran).mpr
    ⟨fun pair member => (shape pair member).1, defined⟩
  refine ⟨reported, sorted, congrArg (fun ran => ran.1.1) ran, ?_, drained, permuted, ordered⟩
  have rids := congrArg (List.map Prod.fst) pairs
  rwa [List.map_map] at rids

/-- A table joined with itself: the join reports the RIDs of the left rows, and the sort
reports the RIDs that its tuples store, which are invalid. -/
theorem sort_drops_rids :
    let table := twoValues 9 4
    let scan := SeqScanExecutor.newLayer table.1 none .both
    let join : JoinExecutor SeqScanExecutor SeqScanExecutor := { left := scan, right := scan }
    let sorter : SortExecutor .insertion (JoinExecutor SeqScanExecutor SeqScanExecutor) :=
      { child := join, keyOffset := 16 }
    ∃ reported sorted, (run (collect 20 ({}, {}) join) table.2).1.1 = some reported ∧
      (run (collect 20 ({}, {}) sorter) table.2).1.1 = some sorted ∧
      reported.map Prod.snd = [{ pageId := 0, slotNum := 0 }, { pageId := 0, slotNum := 0 },
        { pageId := 0, slotNum := 1 }, { pageId := 0, slotNum := 1 }] ∧
      sorted.map Prod.snd = List.replicate 4 { pageId := -1, slotNum := -1 } ∧
      ¬ sorted.Perm reported := by
  intro table scan join sorter
  have reportedRids : (run (collect 20 ({}, {}) join) table.2).1.1.map (List.map Prod.snd) =
      some [{ pageId := 0, slotNum := 0 }, { pageId := 0, slotNum := 0 },
        { pageId := 0, slotNum := 1 }, { pageId := 0, slotNum := 1 }] := by
    decide +kernel
  have sortedRids : (run (collect 20 ({}, {}) sorter) table.2).1.1.map (List.map Prod.snd) =
      some (List.replicate 4 { pageId := -1, slotNum := -1 }) := by
    decide +kernel
  obtain ⟨reported, isReported, rids⟩ := Option.map_eq_some_iff.mp reportedRids
  obtain ⟨sorted, isSorted, ownRids⟩ := Option.map_eq_some_iff.mp sortedRids
  refine ⟨reported, sorted, isReported, isSorted, rids, ownRids, fun permuted => ?_⟩
  have permutedRids := permuted.map Prod.snd
  rw [rids, ownRids] at permutedRids
  exact absurd permutedRids (by decide)

end MiniDB.Executors
