import MiniDB.Executors.LayeredPlans

/-!
# Rewriting plans

Plans may be rewritten by the laws of their operators: the children of a merge may be
swapped and regrouped, a join distributes over a merge and is associative also where it cuts
rows off, a missing child of a merge may be left out, and a sort absorbs one below it. A
plan that is rewritten anywhere and any number of times gives the same tuples up to their
order, and no result in the same cases.
-/

namespace MiniDB.Executors

open Foundation Buffer PoolProgram Storage TableHeap

/-! ## Outputs that are alike -/

/-- Likeness is symmetric. -/
theorem Alike.symm {first second : Option (Output (List UInt8))} (alike : Alike first second) :
    Alike second first := by
  cases alike with
  | undefined => exact .undefined
  | reordered perm sized =>
    exact .reordered perm.symm fun row member => sized row (perm.mem_iff.mpr member)

/-- Likeness is transitive. -/
theorem Alike.trans {first second third : Option (Output (List UInt8))}
    (alike : Alike first second) (later : Alike second third) : Alike first third := by
  cases alike with
  | undefined => exact later
  | reordered perm sized =>
    cases later with
    | reordered laterPerm _ => exact .reordered (perm.trans laterPerm) sized

/-- An output that is undefined, or ends and has rows that fit in a tuple. -/
inductive Sized : Option (Output (List UInt8)) → Prop
  | undefined : Sized none
  | complete {rows : List (List UInt8)} (sized : ∀ row ∈ rows, row.length ≤ Tuple.maxSize) :
      Sized (some { rows, complete := true })

/-- An output is like itself, if its rows have the sizes of tuples. -/
theorem Sized.alike {output : Option (Output (List UInt8))} (sized : Sized output) :
    Alike output output := by
  cases sized with
  | undefined => exact .undefined
  | complete sized => exact .refl_of_complete sized

/-- Rows of outputs that are alike have the sizes of tuples. -/
theorem Alike.sized {first second : Option (Output (List UInt8))} (alike : Alike first second) :
    Sized first := by
  cases alike with
  | undefined => exact .undefined
  | reordered perm sized => exact .complete sized

theorem mergeOutput_complete (rows others : List (List UInt8)) :
    mergeOutput (some { rows, complete := true }) (some { rows := others, complete := true }) =
      some { rows := rows ++ others, complete := true } := rfl

theorem mergeOutput_none (output : Option (Output (List UInt8))) :
    mergeOutput output none = none := by
  cases output <;> rfl

theorem joinOutput_none (output : Option (Output (List UInt8))) :
    joinOutput joinContent output none = none := by
  cases output <;> rfl

theorem forall_mem_append {rows others : List (List UInt8)}
    (sized : ∀ row ∈ rows, row.length ≤ Tuple.maxSize)
    (othersSized : ∀ row ∈ others, row.length ≤ Tuple.maxSize) :
    ∀ row ∈ rows ++ others, row.length ≤ Tuple.maxSize :=
  List.forall_mem_append.mpr ⟨sized, othersSized⟩

/-! ## Laws of merges and joins -/

variable {first second third : Option (Output (List UInt8))}

/-- The children of a merge can be swapped. -/
theorem Sized.merge_comm (isFirst : Sized first) (isSecond : Sized second) :
    Alike (mergeOutput first second) (mergeOutput second first) := by
  cases isFirst with
  | undefined => rw [mergeOutput_none]; exact .undefined
  | complete sized =>
    cases isSecond with
    | undefined => exact .undefined
    | complete othersSized =>
      exact .reordered List.perm_append_comm (forall_mem_append sized othersSized)

/-- Merges can be grouped the other way. -/
theorem Sized.merge_assoc (isFirst : Sized first) (isSecond : Sized second)
    (isThird : Sized third) :
    Alike (mergeOutput (mergeOutput first second) third)
      (mergeOutput first (mergeOutput second third)) := by
  cases isFirst with
  | undefined => exact .undefined
  | complete firstSized =>
    cases isSecond with
    | undefined => exact .undefined
    | complete secondSized =>
      cases isThird with
      | undefined => exact .undefined
      | complete thirdSized =>
        simp only [mergeOutput_complete, List.append_assoc]
        exact .refl_of_complete
          (forall_mem_append firstSized (forall_mem_append secondSized thirdSized))

/-- A missing cold child adds nothing. -/
theorem Sized.merge_missing (isFirst : Sized first) :
    Alike (mergeOutput first (some { rows := [], complete := true })) first := by
  cases isFirst with
  | undefined => exact .undefined
  | complete sized =>
    rw [mergeOutput_complete, List.append_nil]
    exact .refl_of_complete sized

/-- A missing hot child adds nothing. -/
theorem Sized.missing_merge (isFirst : Sized first) :
    Alike (mergeOutput (some { rows := [], complete := true }) first) first := by
  cases isFirst with
  | undefined => exact .undefined
  | complete sized => exact .refl_of_complete sized

/-- The rows that a join makes fit in a tuple. -/
theorem sized_joined {lefts rights : List (List UInt8)}
    (sized : ∀ left ∈ lefts, left.length ≤ Tuple.maxSize) :
    ∀ row ∈ lefts.flatMap fun left => rights.map (joinedContent left),
      row.length ≤ Tuple.maxSize := by
  intro row member
  obtain ⟨left, inLeft, joined⟩ := List.mem_flatMap.mp member
  obtain ⟨right, -, rfl⟩ := List.mem_map.mp joined
  exact length_joinedContent (sized left inLeft) right

/-- A join distributes over a merge on its left. -/
theorem Sized.join_merge_left (isFirst : Sized first) (isSecond : Sized second)
    (isThird : Sized third) :
    Alike (joinOutput joinContent (mergeOutput first second) third)
      (mergeOutput (joinOutput joinContent first third) (joinOutput joinContent second third)) := by
  cases isThird with
  | undefined => rw [joinOutput_none, joinOutput_none, joinOutput_none]; exact .undefined
  | complete thirdSized =>
    cases isFirst with
    | undefined => exact .undefined
    | complete firstSized =>
      cases isSecond with
      | undefined => rw [mergeOutput_none]; exact (mergeOutput_none _).symm ▸ .undefined
      | complete secondSized =>
        rw [mergeOutput_complete, joinOutput_of_sized (forall_mem_append firstSized secondSized),
          joinOutput_of_sized firstSized, joinOutput_of_sized secondSized, mergeOutput_complete,
          List.flatMap_append]
        exact .refl_of_complete
          (forall_mem_append (sized_joined firstSized) (sized_joined secondSized))

/-- A join distributes over a merge on its right. -/
theorem Sized.join_merge_right (isFirst : Sized first) (isSecond : Sized second)
    (isThird : Sized third) :
    Alike (joinOutput joinContent first (mergeOutput second third))
      (mergeOutput (joinOutput joinContent first second) (joinOutput joinContent first third)) := by
  cases isFirst with
  | undefined => exact .undefined
  | complete firstSized =>
    cases isSecond with
    | undefined => exact .undefined
    | complete secondSized =>
      cases isThird with
      | undefined =>
        rw [mergeOutput_none, joinOutput_none, mergeOutput_none]
        exact .undefined
      | complete thirdSized =>
        rw [mergeOutput_complete, joinOutput_of_sized firstSized, joinOutput_of_sized firstSized,
          joinOutput_of_sized firstSized, mergeOutput_complete]
        refine .reordered ?_ (sized_joined firstSized)
        simp only [List.map_append]
        exact (List.flatMap_append_perm _ _ _).symm

/-- What is cut off does not depend on the grouping. -/
theorem joinedContent_assoc {left : List UInt8} (sized : left.length ≤ Tuple.maxSize)
    {middle : List UInt8} (middleSized : middle.length ≤ Tuple.maxSize) (right : List UInt8) :
    joinedContent (joinedContent left middle) right =
      joinedContent left (joinedContent middle right) := by
  have cut : ∀ {row : List UInt8}, row.length ≤ Tuple.maxSize → ∀ other,
      joinedContent row other = (row ++ other).take Tuple.maxSize := by
    intro row rowSized other
    rw [joinedContent, List.take_append, List.take_of_length_le rowSized]
  have absorb : ∀ row other : List UInt8,
      (row.take Tuple.maxSize ++ other).take Tuple.maxSize = (row ++ other).take Tuple.maxSize := by
    intro row other
    rw [List.take_append, List.take_append, List.take_take, Nat.min_self, List.length_take]
    congr 2
    omega
  have absorbLater : ∀ row other : List UInt8,
      (row ++ other.take Tuple.maxSize).take Tuple.maxSize = (row ++ other).take Tuple.maxSize := by
    intro row other
    rw [List.take_append, List.take_append, List.take_take, Nat.min_eq_left (Nat.sub_le _ _)]
  rw [cut (length_joinedContent sized middle), cut sized, cut sized, cut middleSized, absorb,
    absorbLater, List.append_assoc]

/-- A join of joins. -/
theorem Sized.join_assoc (isFirst : Sized first) (isSecond : Sized second)
    (isThird : Sized third) :
    Alike (joinOutput joinContent (joinOutput joinContent first second) third)
      (joinOutput joinContent first (joinOutput joinContent second third)) := by
  cases isFirst with
  | undefined => exact .undefined
  | complete firstSized =>
    cases isSecond with
    | undefined => exact .undefined
    | complete secondSized =>
      cases isThird with
      | undefined => rw [joinOutput_none, joinOutput_none, joinOutput_none]; exact .undefined
      | @complete rows thirdSized =>
        rw [joinOutput_of_sized firstSized, joinOutput_of_sized (sized_joined firstSized),
          joinOutput_of_sized secondSized, joinOutput_of_sized firstSized]
        refine .reordered (List.Perm.of_eq ?_) (sized_joined (sized_joined firstSized))
        rw [List.flatMap_assoc]
        refine List.flatMap_congr fun left inFirst => ?_
        rw [List.flatMap_map, List.map_flatMap]
        refine List.flatMap_congr fun middle inSecond => ?_
        rw [List.map_map]
        refine List.map_congr_left fun right _ => ?_
        exact joinedContent_assoc (firstSized left inFirst) (secondSized middle inSecond) right

/-! ## Laws of sorts -/

variable {order : StdSort}

/-- The keys that a sort compares are all in their rows. -/
def Sortable (keyOffset : UInt64) (rows : List (List UInt8)) : Prop :=
  2 ≤ rows.length → ∀ row ∈ rows, ∃ value, contentKey keyOffset row = some value

/-- A sort that is defined reorders its rows. -/
theorem Sortable.output {keyOffset : UInt64} {rows : List (List UInt8)}
    (sortable : Sortable keyOffset rows) :
    ∃ sorted, sorted.Perm rows ∧
      sortOutput order (contentKey keyOffset) id (some { rows, complete := true }) =
        some { rows := sorted, complete := true } := by
  obtain ⟨sorted, isSorted⟩ := (@sortedViews_defined_iff order _ _).mpr sortable
  refine ⟨sorted, sortedViews_perm isSorted, ?_⟩
  simp only [sortOutput, Output.drained, if_true, Option.bind_some, isSorted, Option.map_some,
    List.map_id]

/-- A sort with an undefined key has no output. -/
theorem sortOutput_of_not_sortable {keyOffset : UInt64} {rows : List (List UInt8)}
    (unsortable : ¬ Sortable keyOffset rows) :
    sortOutput order (contentKey keyOffset) id (some { rows, complete := true }) = none := by
  have undefined : sortedViews order (contentKey keyOffset) rows = none :=
    Option.eq_none_iff_forall_ne_some.mpr fun sorted isSorted =>
      unsortable (sortedViews_defined_iff.mp ⟨sorted, isSorted⟩)
  simp only [sortOutput, Output.drained, if_true, Option.bind_some, undefined, Option.map_none]

/-- Sorting twice is sorting once. -/
theorem Sized.sort_sort (isFirst : Sized first) (keyOffset : UInt64) :
    Alike (sortOutput order (contentKey keyOffset) id
        (sortOutput order (contentKey keyOffset) id first))
      (sortOutput order (contentKey keyOffset) id first) := by
  cases isFirst with
  | undefined => exact .undefined
  | @complete rows sized =>
    by_cases sortable : Sortable keyOffset rows
    · obtain ⟨sorted, perm, isSorted⟩ := @Sortable.output order _ _ sortable
      have sorts := @Alike.sort order _ _ (.reordered perm.symm sized) keyOffset
      rw [isSorted] at sorts ⊢
      exact sorts.symm
    · rw [sortOutput_of_not_sortable sortable]
      exact .undefined

/-- A run of a merge may be sorted before. -/
theorem Sized.sort_run (isFirst : Sized first) (isSecond : Sized second) (keyOffset : UInt64) :
    Alike (sortOutput order (contentKey keyOffset) id
        (mergeOutput (sortOutput order (contentKey keyOffset) id first) second))
      (sortOutput order (contentKey keyOffset) id (mergeOutput first second)) := by
  cases isFirst with
  | undefined => exact .undefined
  | @complete rows firstSized =>
    cases isSecond with
    | undefined => rw [mergeOutput_none, mergeOutput_none]; exact .undefined
    | @complete others secondSized =>
      by_cases sortable : Sortable keyOffset rows
      · obtain ⟨sorted, perm, isSorted⟩ := @Sortable.output order _ _ sortable
        rw [isSorted, mergeOutput_complete, mergeOutput_complete]
        refine Alike.sort (.reordered (perm.append_right others) fun row member => ?_) keyOffset
        exact forall_mem_append firstSized secondSized row
          ((perm.append_right others).mem_iff.mp member)
      · have unsortable : ¬ Sortable keyOffset (rows ++ others) := by
          refine fun all => sortable fun many row member => ?_
          exact all (by rw [List.length_append]; omega) row (List.mem_append_left _ member)
        rw [sortOutput_of_not_sortable sortable, mergeOutput_complete,
          sortOutput_of_not_sortable unsortable]
        exact .undefined

/-! ## Rewriting -/

namespace Plan

/-- The laws of the operators. -/
inductive Law : Plan → Plan → Prop
  | layers (table : TableHeap) {unused : Option LayerManager} {targetLayer : DataLayer}
      (whole : unused = none ∨ targetLayer = .both) (layerManager : LayerManager) :
    Law (seqScan table unused targetLayer)
      (merge (seqScan table (some layerManager) .hot) (seqScan table (some layerManager) .cold)
        true true)
  | mergeComm (first second : Plan) :
    Law (merge first second true true) (merge second first true true)
  | mergeAssoc (first second third : Plan) :
    Law (merge (merge first second true true) third true true)
      (merge first (merge second third true true) true true)
  | mergeHot (hot unused : Plan) : Law (merge hot unused true false) hot
  | mergeCold (unused cold : Plan) : Law (merge unused cold false true) cold
  | joinMergeLeft (first second right : Plan) :
    Law (join (merge first second true true) right)
      (merge (join first right) (join second right) true true)
  | joinMergeRight (left first second : Plan) :
    Law (join left (merge first second true true))
      (merge (join left first) (join left second) true true)
  | joinAssoc (first second third : Plan) :
    Law (join (join first second) third) (join first (join second third))
  | sortSort (child : Plan) (keyOffset : UInt64) :
    Law (Plan.sort (Plan.sort child keyOffset) keyOffset) (Plan.sort child keyOffset)
  | sortRun (first second : Plan) (keyOffset : UInt64) :
    Law (Plan.sort (merge (Plan.sort first keyOffset) second true true) keyOffset)
      (Plan.sort (merge first second true true) keyOffset)

/-- The plans differ by laws, applied anywhere and in either direction. -/
inductive Rewrites : Plan → Plan → Prop
  | law {plan other : Plan} (law : Law plan other) : Rewrites plan other
  | refl (plan : Plan) : Rewrites plan plan
  | symm {plan other : Plan} (rewrites : Rewrites plan other) : Rewrites other plan
  | trans {plan middle other : Plan} (rewrites : Rewrites plan middle)
      (later : Rewrites middle other) : Rewrites plan other
  | merge {hot cold otherHot otherCold : Plan} (hasHot hasCold : Bool)
      (hotRewrites : Rewrites hot otherHot) (coldRewrites : Rewrites cold otherCold) :
    Rewrites (merge hot cold hasHot hasCold) (merge otherHot otherCold hasHot hasCold)
  | join {left right otherLeft otherRight : Plan} (leftRewrites : Rewrites left otherLeft)
      (rightRewrites : Rewrites right otherRight) :
    Rewrites (join left right) (join otherLeft otherRight)
  | aggregation {child otherChild : Plan} (rewrites : Rewrites child otherChild)
      (aggType : AggregationType) (keyOffset : UInt64) :
    Rewrites (aggregation child aggType keyOffset) (aggregation otherChild aggType keyOffset)
  | sort {child otherChild : Plan} (rewrites : Rewrites child otherChild) (keyOffset : UInt64) :
    Rewrites (Plan.sort child keyOffset) (Plan.sort otherChild keyOffset)

variable {pages : Int → Bytes}

/-- A plan is layered by no layer at all. -/
theorem layered_refl (plan : Plan) : Layered plan plan := by
  induction plan with
  | seqScan table layerManager targetLayer => exact .scan table layerManager targetLayer
  | merge hot cold hasHot hasCold hotIH coldIH => exact .merge hasHot hasCold hotIH coldIH
  | join left right leftIH rightIH => exact .join leftIH rightIH
  | aggregation child aggType keyOffset ih => exact .aggregation ih aggType keyOffset
  | sort child keyOffset ih => exact .sort ih keyOffset

/-- The rows of a readable plan have the sizes of tuples. -/
theorem Readable.sized {plan : Plan} (readable : plan.Readable order pages) :
    Sized (plan.output order pages) :=
  (alike_of_layered (layered_refl plan) readable).sized

/-- A law keeps plans readable, in both directions. -/
theorem readable_iff_of_law {plan other : Plan} (law : Law plan other) :
    plan.Readable order pages ↔ other.Readable order pages := by
  cases law <;> simp only [Readable, Bool.false_eq_true, true_implies, false_implies, and_true,
    true_and, and_self, and_assoc]
  · exact and_comm
  · exact ⟨fun ⟨isFirst, isSecond, isRight⟩ => ⟨isFirst, isRight, isSecond, isRight⟩,
      fun ⟨isFirst, isRight, isSecond, _⟩ => ⟨isFirst, isSecond, isRight⟩⟩
  · exact ⟨fun ⟨isLeft, isFirst, isSecond⟩ => ⟨isLeft, isFirst, isLeft, isSecond⟩,
      fun ⟨isLeft, isFirst, _, isSecond⟩ => ⟨isLeft, isFirst, isSecond⟩⟩

/-- The two sides of a law have outputs that are alike. -/
theorem alike_of_law {plan other : Plan} (law : Law plan other)
    (readable : plan.Readable order pages) :
    Alike (plan.output order pages) (other.output order pages) := by
  cases law with
  | layers table whole layerManager => exact alike_split readable whole layerManager
  | mergeComm first second =>
    exact (Readable.sized (readable.1 rfl)).merge_comm (Readable.sized (readable.2 rfl))
  | mergeAssoc first second third =>
    have inner := readable.1 rfl
    exact (Readable.sized (inner.1 rfl)).merge_assoc (Readable.sized (inner.2 rfl))
      (Readable.sized (readable.2 rfl))
  | mergeHot _ unused => exact (Readable.sized (readable.1 rfl)).merge_missing
  | mergeCold unused _ => exact (Readable.sized (readable.2 rfl)).missing_merge
  | joinMergeLeft first second right =>
    exact (Readable.sized (readable.1.1 rfl)).join_merge_left (Readable.sized (readable.1.2 rfl))
      (Readable.sized readable.2)
  | joinMergeRight left first second =>
    exact (Readable.sized readable.1).join_merge_right (Readable.sized (readable.2.1 rfl))
      (Readable.sized (readable.2.2 rfl))
  | joinAssoc first second third =>
    exact (Readable.sized readable.1.1).join_assoc (Readable.sized readable.1.2)
      (Readable.sized readable.2)
  | sortSort child keyOffset =>
    have isChild : child.Readable order pages := readable
    exact isChild.sized.sort_sort keyOffset
  | sortRun first second keyOffset =>
    have isFirst : first.Readable order pages := readable.1 rfl
    exact isFirst.sized.sort_run (Readable.sized (readable.2 rfl)) keyOffset

/-- A missing child of a merge, or one that is alike. -/
theorem alike_child {child otherChild : Plan} (present : Bool)
    (alike : present = true → Alike (child.output order pages) (otherChild.output order pages)) :
    Alike (if present then child.output order pages else some { rows := [], complete := true })
      (if present then otherChild.output order pages
        else some { rows := [], complete := true }) := by
  cases present with
  | true => exact alike rfl
  | false => exact .refl_of_complete fun row member => absurd member List.not_mem_nil

/-- A plan that is rewritten can be read where the plan could, and has the same rows. -/
theorem alike_of_rewrites {plan other : Plan} (rewrites : Rewrites plan other) :
    (plan.Readable order pages ↔ other.Readable order pages) ∧
      (plan.Readable order pages →
        Alike (plan.output order pages) (other.output order pages)) := by
  induction rewrites with
  | law law => exact ⟨readable_iff_of_law law, alike_of_law law⟩
  | refl plan => exact ⟨Iff.rfl, fun readable => readable.sized.alike⟩
  | symm rewrites ih => exact ⟨ih.1.symm, fun readable => (ih.2 (ih.1.mpr readable)).symm⟩
  | trans rewrites later ih laterIH =>
    exact ⟨ih.1.trans laterIH.1,
      fun readable => (ih.2 readable).trans (laterIH.2 (ih.1.mp readable))⟩
  | merge hasHot hasCold hotRewrites coldRewrites hotIH coldIH =>
    refine ⟨and_congr (imp_congr_right fun _ => hotIH.1) (imp_congr_right fun _ => coldIH.1),
      fun readable => Alike.merge ?_ ?_⟩
    · exact alike_child hasHot fun present => hotIH.2 (readable.1 present)
    · exact alike_child hasCold fun present => coldIH.2 (readable.2 present)
  | join leftRewrites rightRewrites leftIH rightIH =>
    exact ⟨and_congr leftIH.1 rightIH.1,
      fun readable => (leftIH.2 readable.1).join (rightIH.2 readable.2)⟩
  | aggregation rewrites aggType keyOffset ih =>
    refine ⟨?_, fun readable => (ih.2 readable.1).aggregation readable.2 keyOffset aggType⟩
    constructor
    · rintro ⟨readable, few⟩
      exact ⟨ih.1.mp readable, (ih.2 readable).rowCount ▸ few⟩
    · rintro ⟨readable, few⟩
      exact ⟨ih.1.mpr readable, (ih.2 (ih.1.mpr readable)).rowCount.symm ▸ few⟩
  | sort rewrites keyOffset ih => exact ⟨ih.1, fun readable => (ih.2 readable).sort keyOffset⟩

end Plan

/-- A plan that is rewritten by the laws of its operators, anywhere and any number of times,
gives the same tuples up to their order, and no result in the same cases. -/
theorem rewritten_contents (order : StdSort) (plan other : Plan)
    (rewrites : Plan.Rewrites plan other) (pages : Int → Bytes)
    (readable : plan.Readable order pages) (ready : BufferPool DiskManager → Prop)
    (delivers : ∀ table ∈ plan.tables ++ other.tables, 0 ≤ table.firstPageId →
      Delivers ready table.firstPageId (pages table.firstPageId))
    (fuel otherFuel : Nat)
    (enough : plan.bound order pages + rowCount (plan.output order pages) < fuel)
    (otherEnough : other.bound order pages + rowCount (plan.output order pages) < otherFuel)
    (row otherRow : Row) (pool otherPool : BufferPool DiskManager) (isReady : ready pool)
    (isOtherReady : ready otherPool) :
    Option.Rel List.Perm
      ((run (collect fuel row (plan.build order)) pool).1.1.map (List.map content))
      ((run (collect otherFuel otherRow (other.build order)) otherPool).1.1.map
        (List.map content)) :=
  contents_of_alike ((Plan.alike_of_rewrites rewrites).2 readable)
    (fun table member => delivers table (List.mem_append_left _ member))
    (fun table member => delivers table (List.mem_append_right _ member))
    enough otherEnough row otherRow isReady isOtherReady

/-- A sort over a join with a merge, and with the merge above the join. -/
def Plan.mergeBelow (table : TableHeap) : Plan :=
  .sort (.join (.merge (.seqScan table none .both) (.seqScan table none .both) true true)
    (.seqScan table none .both)) 0

def Plan.mergeAbove (table : TableHeap) : Plan :=
  .sort (.merge (.sort (.join (.seqScan table none .both) (.seqScan table none .both)) 0)
    (.join (.seqScan table none .both) (.seqScan table none .both)) true true) 0

/-- A table of two rows. -/
theorem rewritten_contents_two_rows :
    let outcome := run (fill [HeapHistory.intPair 20 8, HeapHistory.intPair 12 8])
      (BufferPool.new 1 (DiskManager.new (some {})))
    let table : TableHeap := { firstPageId := 0, lastPageId := 0 }
    Option.Rel List.Perm
      ((run (collect 60 ({}, {}) ((Plan.mergeBelow table).build .insertion)) outcome.2).1.1.map
        (List.map content))
      ((run (collect 60 ({}, {}) ((Plan.mergeAbove table).build .insertion)) outcome.2).1.1.map
        (List.map content)) := by
  intro outcome table
  obtain ⟨isReady, delivers⟩ := twoRows_delivers
  have below : ∀ other ∈ (Plan.mergeBelow table).tables, other = table := by
    simp [Plan.mergeBelow, Plan.tables]
  have above : ∀ other ∈ (Plan.mergeAbove table).tables, other = table := by
    simp [Plan.mergeAbove, Plan.tables]
  have rewrites : Plan.Rewrites (Plan.mergeBelow table) (Plan.mergeAbove table) :=
    .trans (.sort (.law (.joinMergeLeft _ _ _)) 0) (.symm (.law (.sortRun _ _ 0)))
  refine rewritten_contents .insertion _ _ rewrites
    (fun _ => firstPageOf [HeapHistory.intPair 20 8, HeapHistory.intPair 12 8]) ?_ _ ?_ 60 60 ?_ ?_
    ({}, {}) ({}, {}) outcome.2 outcome.2 isReady isReady
  · have sound : ¬ Broken table
        (firstPageOf [HeapHistory.intPair 20 8, HeapHistory.intPair 12 8]) := by
      decide +kernel
    exact ⟨⟨fun _ => sound, fun _ => sound⟩, sound⟩
  · intro other member nonneg
    rcases List.mem_append.mp member with inBelow | inAbove
    · exact delivers _ below other inBelow nonneg
    · exact delivers _ above other inAbove nonneg
  · decide +kernel
  · decide +kernel

end MiniDB.Executors
