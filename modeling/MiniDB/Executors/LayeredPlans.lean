import Mathlib.Data.Option.Basic
import MiniDB.Executors.Aggregates
import MiniDB.Executors.SortedPairs
import MiniDB.Executors.TupleAccesses

/-!
# Plans over layered tables

A plan may read a whole table, or merge the rows on its hot pages with those on its
cold ones. The merge changes the order of the rows, and the operators above it do not
depend on that order: a join pairs the rows of its children in another order, an
aggregation has the same value, and a sort orders the rows again.
-/

namespace MiniDB.Executors

open Foundation Buffer PoolProgram Storage TableHeap

/-! ## Outputs up to the order of their rows -/

/-- Both outputs are undefined, or both end and have the same rows in some order, all
of them small enough for a tuple. -/
inductive Alike : Option (Output (List UInt8)) → Option (Output (List UInt8)) → Prop
  | undefined : Alike none none
  | reordered {rows others : List (List UInt8)} (perm : rows.Perm others)
      (sized : ∀ row ∈ rows, row.length ≤ Tuple.maxSize) :
      Alike (some { rows, complete := true }) (some { rows := others, complete := true })

/-- A complete output is like itself. -/
theorem Alike.refl_of_complete {rows : List (List UInt8)}
    (sized : ∀ row ∈ rows, row.length ≤ Tuple.maxSize) :
    Alike (some { rows, complete := true }) (some { rows, complete := true }) :=
  .reordered (List.Perm.refl rows) sized

/-- Drained, the two give the same rows up to their order. -/
theorem Alike.drained {first second : Option (Output (List UInt8))} (alike : Alike first second) :
    Option.Rel List.Perm (first.bind Output.drained) (second.bind Output.drained) := by
  cases alike with
  | undefined => exact .none
  | reordered perm sized => exact .some perm

/-- Outputs that are alike have as many rows. -/
theorem Alike.rowCount {first second : Option (Output (List UInt8))} (alike : Alike first second) :
    rowCount first = rowCount second := by
  cases alike with
  | undefined => rfl
  | reordered perm sized => exact perm.length_eq

/-! ## Merge and join -/

/-- Merges of children that are alike. -/
theorem Alike.merge {hot otherHot cold otherCold : Option (Output (List UInt8))}
    (hotAlike : Alike hot otherHot) (coldAlike : Alike cold otherCold) :
    Alike (mergeOutput hot cold) (mergeOutput otherHot otherCold) := by
  cases hotAlike with
  | undefined => exact .undefined
  | reordered hotPerm hotSized =>
    cases coldAlike with
    | undefined => exact .undefined
    | reordered coldPerm coldSized =>
      refine .reordered (hotPerm.append coldPerm) fun row member => ?_
      rcases List.mem_append.mp member with inHot | inCold
      · exact hotSized row inHot
      · exact coldSized row inCold

/-- The row that a join makes of two rows that fit. -/
def joinedContent (left right : List UInt8) : List UInt8 :=
  left ++ right.take (Tuple.maxSize - left.length)

/-- A left row that is a tuple is joined. -/
theorem joinContent_of_sized {left : List UInt8} (sized : left.length ≤ Tuple.maxSize)
    (right : List UInt8) : joinContent left right = some (joinedContent left right) :=
  if_neg (Nat.not_lt.mpr sized)

/-- A joined row is cut to the size of a tuple. -/
theorem length_joinedContent {left : List UInt8} (sized : left.length ≤ Tuple.maxSize)
    (right : List UInt8) : (joinedContent left right).length ≤ Tuple.maxSize := by
  rw [joinedContent, List.length_append, List.length_take]
  omega

/-- The rows of one left row. -/
theorem joinRow_of_sized {left : List UInt8} (sized : left.length ≤ Tuple.maxSize)
    (rights : List (List UInt8)) (rest : Output (List UInt8)) :
    joinRow joinContent left rights rest =
      { rest with rows := rights.map (joinedContent left) ++ rest.rows } := by
  induction rights with
  | nil => rfl
  | cons right rights ih =>
    simp only [joinRow, joinContent_of_sized sized, ih, List.map_cons, List.cons_append]

/-- The rows of the left rows that are left. -/
theorem joinRest_of_sized {lefts rights : List (List UInt8)}
    (sized : ∀ left ∈ lefts, left.length ≤ Tuple.maxSize) :
    joinRest joinContent { rows := rights, complete := true } true lefts =
      { rows := lefts.flatMap fun left => rights.map (joinedContent left), complete := true } := by
  induction lefts with
  | nil => rfl
  | cons left lefts ih =>
    have rest := ih fun other member => sized other (List.mem_cons_of_mem left member)
    rw [joinRest, if_pos rfl, rest, joinRow_of_sized (sized left List.mem_cons_self)]
    rfl

/-- A join of complete outputs pairs all rows. -/
theorem joinOutput_of_sized {lefts rights : List (List UInt8)}
    (sized : ∀ left ∈ lefts, left.length ≤ Tuple.maxSize) :
    joinOutput joinContent (some { rows := lefts, complete := true })
        (some { rows := rights, complete := true }) =
      some { rows := lefts.flatMap fun left => rights.map (joinedContent left)
             complete := true } := by
  cases lefts with
  | nil => rfl
  | cons left lefts =>
    rw [← joinRest_of_sized sized, joinRest, if_pos rfl]
    rfl

/-- Joins of children that are alike. -/
theorem Alike.join {left otherLeft right otherRight : Option (Output (List UInt8))}
    (leftAlike : Alike left otherLeft) (rightAlike : Alike right otherRight) :
    Alike (joinOutput joinContent left right) (joinOutput joinContent otherLeft otherRight) := by
  cases leftAlike with
  | undefined => exact .undefined
  | @reordered lefts otherLefts leftPerm leftSized =>
    cases rightAlike with
    | undefined => exact .undefined
    | reordered rightPerm rightSized =>
      have otherSized : ∀ left ∈ otherLefts, left.length ≤ Tuple.maxSize :=
        fun left member => leftSized left (leftPerm.mem_iff.mpr member)
      rw [joinOutput_of_sized leftSized, joinOutput_of_sized otherSized]
      refine .reordered (leftPerm.flatMap fun left _ => rightPerm.map _) fun row member => ?_
      obtain ⟨left, inLeft, joined⟩ := List.mem_flatMap.mp member
      obtain ⟨right, -, rfl⟩ := List.mem_map.mp joined
      exact length_joinedContent (leftSized left inLeft) right

/-! ## Aggregations -/

/-- A value that is not defined leaves the totals undefined. -/
theorem Totals.addValues_undefined (totals : Totals) {values : List (Option Int)}
    (missing : none ∈ values) : totals.addValues values = none := by
  induction values generalizing totals with
  | nil => exact absurd missing List.not_mem_nil
  | cons value values ih =>
    cases value with
    | none => rfl
    | some value =>
      have later : none ∈ values := by simpa using missing
      simp only [Totals.addValues, Option.bind_eq_bind, Option.bind_some]
      cases totals.add value with
      | none => rfl
      | some next => exact ih next later

/-- Totals of the same values in another order have the same results. -/
theorem Totals.Of.result_perm {values others : List Int} {totals otherTotals : Totals}
    (of : Totals.Of values totals) (otherOf : Totals.Of others otherTotals)
    (perm : values.Perm others) (aggType : AggregationType) :
    totals.result aggType = otherTotals.result aggType := by
  have count : totals.count = otherTotals.count := by
    rw [of.count, otherOf.count, perm.length_eq]
  have sum : totals.sum = otherTotals.sum := by
    rw [of.sum, otherOf.sum, perm.sum_eq]
  have hasValue : totals.hasValue = otherTotals.hasValue := by
    rw [of.hasValue, otherOf.hasValue, perm.isEmpty_eq]
  have members : {value | value ∈ values} = {value | value ∈ others} :=
    Set.ext fun value => perm.mem_iff
  have filled : totals.hasValue = true → values ≠ [] ∧ others ≠ [] := by
    rw [of.hasValue, ← List.isEmpty_eq_false_iff, ← List.isEmpty_eq_false_iff, ← perm.isEmpty_eq]
    simp
  cases aggType with
  | count | sum | avg => simp only [Totals.result, count, sum]
  | min =>
    simp only [Totals.result, ← hasValue]
    split
    · next isFilled =>
      have least := of.least (filled isFilled).1
      rw [members] at least
      exact least.unique (otherOf.least (filled isFilled).2)
    · rfl
  | max =>
    simp only [Totals.result, ← hasValue]
    split
    · next isFilled =>
      have greatest := of.greatest (filled isFilled).1
      rw [members] at greatest
      exact greatest.unique (otherOf.greatest (filled isFilled).2)
    · rfl

/-- Keys are `int`s. -/
theorem isInt_contentKey {keyOffset : UInt64} {rows : List (List UInt8)} {values : List Int}
    (areValues : rows.map (contentKey keyOffset) = values.map some) :
    ∀ value ∈ values, IsInt value := by
  intro value member
  have stored : some value ∈ rows.map (contentKey keyOffset) := by
    rw [areValues]
    exact List.mem_map_of_mem member
  obtain ⟨row, -, read⟩ := List.mem_map.mp stored
  exact isInt_intValue read

/-- The totals of fewer than 2^31 rows whose keys are all defined. -/
theorem aggregated_eq {keyOffset : UInt64} {rows : List (List UInt8)} {values : List Int}
    (areValues : rows.map (contentKey keyOffset) = values.map some)
    (few : rows.length < 2147483648) (aggType : AggregationType) :
    ∃ totals, Totals.Of values totals ∧
      aggregated (contentKey keyOffset) aggType (some { rows, complete := true }) =
        some (totals.result aggType) := by
  have sameLength : values.length = rows.length := by
    simpa using (congrArg List.length areValues).symm
  obtain ⟨totals, added, of⟩ := (Totals.Of.start {}).addValues
    (isInt_contentKey areValues) (sameLength.trans_lt few)
  refine ⟨totals, of, ?_⟩
  simp only [aggregated, Output.drained, if_true, Option.bind_eq_bind, Option.bind_some, areValues]
  rw [added]
  rfl

/-- The value of an aggregation does not depend on the order of the rows. -/
theorem aggregated_perm {rows others : List (List UInt8)} (perm : rows.Perm others)
    (few : rows.length < 2147483648) (keyOffset : UInt64) (aggType : AggregationType) :
    aggregated (contentKey keyOffset) aggType (some { rows, complete := true }) =
      aggregated (contentKey keyOffset) aggType (some { rows := others, complete := true }) := by
  by_cases defined : ∀ row ∈ rows, ∃ value, contentKey keyOffset row = some value
  · obtain ⟨values, areValues⟩ := exists_values defined
    obtain ⟨otherValues, areOthers⟩ :=
      exists_values fun row member => defined row (perm.mem_iff.mpr member)
    obtain ⟨totals, of, isValue⟩ := aggregated_eq areValues few aggType
    obtain ⟨otherTotals, otherOf, isOther⟩ :=
      aggregated_eq areOthers (perm.length_eq ▸ few) aggType
    have keys := perm.map (contentKey keyOffset)
    rw [areValues, areOthers] at keys
    have samePerm := (List.map_perm_map_iff (Option.some_injective Int)).mp keys
    rw [isValue, isOther, of.result_perm otherOf samePerm]
  · have missing : none ∈ rows.map (contentKey keyOffset) := by
      push Not at defined
      obtain ⟨row, member, undefined⟩ := defined
      exact List.mem_map.mpr ⟨row, member, Option.eq_none_iff_forall_ne_some.mpr undefined⟩
    have otherMissing := (perm.map (contentKey keyOffset)).mem_iff.mp missing
    simp only [aggregated, Output.drained, if_true, Option.bind_eq_bind, Option.bind_some,
      Totals.addValues_undefined {} missing, Totals.addValues_undefined {} otherMissing]

/-- Aggregations over children that are alike, below 2^31 rows. -/
theorem Alike.aggregation {child otherChild : Option (Output (List UInt8))}
    (alike : Alike child otherChild) (few : MiniDB.Executors.rowCount child < 2147483648)
    (keyOffset : UInt64) (aggType : AggregationType) :
    Alike (aggregationOutput (contentKey keyOffset) intContent aggType child)
      (aggregationOutput (contentKey keyOffset) intContent aggType otherChild) := by
  cases alike with
  | undefined => exact .undefined
  | reordered perm sized =>
    rw [aggregationOutput, aggregationOutput, ← aggregated_perm perm few]
    cases aggregated (contentKey keyOffset) aggType _ with
    | none => exact .undefined
    | some value =>
      refine .refl_of_complete fun row member => ?_
      obtain rfl := List.mem_singleton.mp member
      rw [intContent, List.length_map, List.length_range]
      decide

/-! ## Sorts -/

variable {order : StdSort}

/-- A sort has a result where every key is defined, and where there is no comparison. -/
theorem sortedViews_defined_iff {keyOffset : UInt64} {rows : List (List UInt8)} :
    (∃ sorted, sortedViews order (contentKey keyOffset) rows = some sorted) ↔
      (2 ≤ rows.length → ∀ row ∈ rows, ∃ value, contentKey keyOffset row = some value) := by
  unfold sortedViews
  split
  · next few => exact iff_of_true ⟨rows, rfl⟩ fun many => absurd few (Nat.not_lt.mpr many)
  · next many =>
    constructor
    · rintro ⟨sorted, isSorted⟩ _ row member
      obtain ⟨keys, all, -⟩ := Option.map_eq_some_iff.mp isSorted
      have read : contentKey keyOffset row ∈ keys.map some := by
        rw [← mapM_eq_some_iff.mp all]
        exact List.mem_map_of_mem member
      obtain ⟨value, -, isValue⟩ := List.mem_map.mp read
      exact ⟨value, isValue.symm⟩
    · intro defined
      obtain ⟨keys, areKeys⟩ := exists_values (defined (Nat.le_of_not_lt many))
      exact ⟨_, Option.map_eq_some_iff.mpr ⟨keys, mapM_eq_some_iff.mpr areKeys, rfl⟩⟩

/-- Sorting gives the same rows. -/
theorem sortedViews_perm {keyOffset : UInt64} {rows sorted : List (List UInt8)}
    (isSorted : sortedViews order (contentKey keyOffset) rows = some sorted) : sorted.Perm rows := by
  unfold sortedViews at isSorted
  split at isSorted
  · exact Option.some.inj isSorted ▸ List.Perm.refl _
  · obtain ⟨keys, all, rfl⟩ := Option.map_eq_some_iff.mp isSorted
    have identity : (List.range rows.length).map (fun index => rows.getD index []) = rows := by
      apply List.ext_getElem
      · simp
      · intro index _ inside
        simp [inside]
    have looked : (List.range rows.length).filterMap (fun index => rows[index]?) =
        (List.range rows.length).map fun index => rows.getD index [] := by
      rw [← List.filterMap_eq_map]
      refine List.filterMap_congr fun index member => ?_
      simp [List.mem_range.mp member]
    have permuted := (order.perm keys).filterMap fun index => rows[index]?
    rwa [length_of_mapM all, looked, identity] at permuted

/-- Sorts over children that are alike. -/
theorem Alike.sort {child otherChild : Option (Output (List UInt8))}
    (alike : Alike child otherChild) (keyOffset : UInt64) :
    Alike (sortOutput order (contentKey keyOffset) id child)
      (sortOutput order (contentKey keyOffset) id otherChild) := by
  cases alike with
  | undefined => exact .undefined
  | @reordered rows others perm sized =>
    have defined : (∃ sorted, sortedViews order (contentKey keyOffset) rows = some sorted) ↔
        ∃ sorted, sortedViews order (contentKey keyOffset) others = some sorted := by
      rw [sortedViews_defined_iff, sortedViews_defined_iff, perm.length_eq]
      simp only [perm.mem_iff]
    simp only [sortOutput, Output.drained, if_true, Option.bind_some, List.map_id]
    cases isSorted : sortedViews order (contentKey keyOffset) rows with
    | none =>
      cases isOther : sortedViews order (contentKey keyOffset) others with
      | none => exact .undefined
      | some otherSorted =>
        obtain ⟨sorted, isSome⟩ := defined.mpr ⟨otherSorted, isOther⟩
        rw [isSorted] at isSome
        cases isSome
    | some sorted =>
      obtain ⟨otherSorted, isOther⟩ := defined.mp ⟨sorted, isSorted⟩
      rw [isOther]
      have here := sortedViews_perm isSorted
      exact .reordered (here.trans (perm.trans (sortedViews_perm isOther).symm))
        fun row member => sized row (here.mem_iff.mp member)

/-! ## Plans -/

namespace Plan

/-- The second plan is the first one with some scans of whole tables replaced by a merge
of the hot and the cold rows of the table. -/
inductive Layered : Plan → Plan → Prop
  | scan (table : TableHeap) (layerManager : Option LayerManager) (targetLayer : DataLayer) :
    Layered (seqScan table layerManager targetLayer) (seqScan table layerManager targetLayer)
  | split (table : TableHeap) {unused : Option LayerManager} {targetLayer : DataLayer}
      (whole : unused = none ∨ targetLayer = .both) (layerManager : LayerManager) :
    Layered (seqScan table unused targetLayer)
      (merge (seqScan table (some layerManager) .hot) (seqScan table (some layerManager) .cold)
        true true)
  | merge {hot cold layeredHot layeredCold : Plan} (hasHot hasCold : Bool)
      (hotLayered : Layered hot layeredHot) (coldLayered : Layered cold layeredCold) :
    Layered (merge hot cold hasHot hasCold) (merge layeredHot layeredCold hasHot hasCold)
  | join {left right layeredLeft layeredRight : Plan} (leftLayered : Layered left layeredLeft)
      (rightLayered : Layered right layeredRight) :
    Layered (join left right) (join layeredLeft layeredRight)
  | aggregation {child layeredChild : Plan} (childLayered : Layered child layeredChild)
      (aggType : AggregationType) (keyOffset : UInt64) :
    Layered (aggregation child aggType keyOffset) (aggregation layeredChild aggType keyOffset)
  | sort {child layeredChild : Plan} (childLayered : Layered child layeredChild)
      (keyOffset : UInt64) :
    Layered (Plan.sort child keyOffset) (Plan.sort layeredChild keyOffset)

/-- No slot entry of a table that is read leads outside its page, and no aggregation has
2^31 rows or more. -/
def Readable (order : StdSort) (pages : Int → Bytes) : Plan → Prop
  | seqScan table _ _ => ¬ Broken table (pages table.firstPageId)
  | merge hot cold hasHot hasCold =>
    (hasHot = true → hot.Readable order pages) ∧ (hasCold = true → cold.Readable order pages)
  | join left right => left.Readable order pages ∧ right.Readable order pages
  | aggregation child _ _ =>
    child.Readable order pages ∧ rowCount (child.output order pages) < 2147483648
  | Plan.sort child _ => child.Readable order pages

/-- Layering brings no new table. -/
theorem tables_of_layered {plain layered : Plan} (isLayered : Layered plain layered) :
    ∀ table ∈ layered.tables, table ∈ plain.tables := by
  induction isLayered with
  | scan => exact fun table member => member
  | split table whole layerManager => simp [tables]
  | merge hasHot hasCold hotLayered coldLayered hotIH coldIH =>
    intro table member
    exact List.mem_append.mpr ((List.mem_append.mp member).imp (hotIH table) (coldIH table))
  | join leftLayered rightLayered leftIH rightIH =>
    intro table member
    exact List.mem_append.mpr ((List.mem_append.mp member).imp (leftIH table) (rightIH table))
  | aggregation childLayered aggType keyOffset ih => exact ih
  | sort childLayered keyOffset ih => exact ih

end Plan

/-- What `GetTuple` brings has the size of a tuple. -/
theorem size_readTuple_le {pageData : Bytes} {rid : RID} {out : Tuple} {result : Bool × Tuple}
    (fits : out.size ≤ Tuple.maxSize) (read : readTuple pageData rid out = some result) :
    result.2.size ≤ Tuple.maxSize := by
  unfold readTuple at read
  split at read
  · exact Option.some.inj read ▸ fits
  · dsimp only at read
    split at read
    · exact Option.some.inj read ▸ fits
    · split at read
      · cases read
      · split at read
        · exact Option.some.inj read ▸ fits
        · split at read
          · cases read
          · exact Option.some.inj read ▸ Tuples.size_setSize_le fits _

/-- So has each row of a page. -/
theorem length_content_slotOutput {pageId : Int} {pageData : Bytes} {remaining slot : Nat} {row : Row}
    (member : row ∈ (slotOutput pageId pageData remaining slot).rows) :
    (content row).length ≤ Tuple.maxSize := by
  induction remaining generalizing slot with
  | zero => exact absurd member List.not_mem_nil
  | succ remaining ih =>
    unfold slotOutput at member
    cases entry : readTuple pageData { pageId, slotNum := slot } {} with
    | none => simp [entry] at member
    | some result =>
      rw [entry] at member
      rcases List.mem_cons.mp member with rfl | later
      · rw [length_content]
        exact size_readTuple_le (Nat.zero_le _) entry
      · exact ih later

/-- The rows of a table fit in a tuple. -/
theorem length_content_tableOutput {table : TableHeap} {pageData : Bytes} {row : Row}
    (member : row ∈ (tableOutput table pageData).rows) : (content row).length ≤ Tuple.maxSize := by
  unfold tableOutput at member
  split at member
  · exact length_content_slotOutput member
  · exact absurd member List.not_mem_nil

/-- A table without a broken slot entry is scanned to its end. -/
theorem complete_tableOutput {table : TableHeap} {pageData : Bytes}
    (sound : ¬ Broken table pageData) : (tableOutput table pageData).complete = true := by
  rw [← drained_tableOutput_eq_none_iff, Output.drained] at sound
  by_contra incomplete
  exact sound (if_neg incomplete)

namespace Plan

variable {order : StdSort} {pages : Int → Bytes}

/-- A scan of a table that can be read. -/
theorem output_seqScan {table : TableHeap} (sound : ¬ Broken table (pages table.firstPageId))
    (layerManager : Option LayerManager) (targetLayer : DataLayer) :
    output order pages (seqScan table layerManager targetLayer) =
      some { rows := ((tableOutput table (pages table.firstPageId)).rows.filter
               (keepsRow layerManager targetLayer)).map content
             complete := true } := by
  rw [output, Output.filter, complete_tableOutput sound]

/-- A scan without a layer keeps every row. -/
theorem keepsRow_whole {layerManager : Option LayerManager} {targetLayer : DataLayer}
    (whole : layerManager = none ∨ targetLayer = .both) (row : Row) :
    keepsRow layerManager targetLayer row = true := by
  rcases whole with rfl | rfl
  · rfl
  · cases layerManager <;> rfl

/-- A merge of the layers of a table has the rows of the table. -/
theorem alike_split {table : TableHeap} {unused : Option LayerManager} {targetLayer : DataLayer}
    (sound : ¬ Broken table (pages table.firstPageId))
    (whole : unused = none ∨ targetLayer = .both) (layerManager : LayerManager) :
    Alike (output order pages (seqScan table unused targetLayer))
      (output order pages (merge (seqScan table (some layerManager) .hot)
        (seqScan table (some layerManager) .cold) true true)) := by
  have everyRow : (tableOutput table (pages table.firstPageId)).rows.filter
      (keepsRow unused targetLayer) = (tableOutput table (pages table.firstPageId)).rows :=
    List.filter_eq_self.mpr fun row _ => keepsRow_whole whole row
  have merged : output order pages (merge (seqScan table (some layerManager) .hot)
      (seqScan table (some layerManager) .cold) true true) =
        mergeOutput (output order pages (seqScan table (some layerManager) .hot))
          (output order pages (seqScan table (some layerManager) .cold)) := rfl
  rw [merged, output_seqScan sound, output_seqScan sound, output_seqScan sound, everyRow]
  refine .reordered ?_ fun row member => ?_
  · simp only [if_true, ← List.map_append]
    exact (List.filter_append_perm (onHotPage layerManager) _).symm.map content
  · obtain ⟨stored, kept, rfl⟩ := List.mem_map.mp member
    exact length_content_tableOutput kept

/-- Plans that differ in their layers have the same rows. -/
theorem alike_of_layered {plain layered : Plan} (isLayered : Layered plain layered)
    (readable : plain.Readable order pages) :
    Alike (plain.output order pages) (layered.output order pages) := by
  induction isLayered with
  | scan table layerManager targetLayer =>
    rw [output_seqScan readable]
    refine .refl_of_complete fun row member => ?_
    obtain ⟨stored, kept, rfl⟩ := List.mem_map.mp member
    exact length_content_tableOutput (List.mem_filter.mp kept).1
  | split table whole layerManager => exact alike_split readable whole layerManager
  | merge hasHot hasCold hotLayered coldLayered hotIH coldIH =>
    have empty : Alike (some { rows := [], complete := true })
        (some { rows := [], complete := true }) :=
      .refl_of_complete fun row member => absurd member List.not_mem_nil
    refine Alike.merge ?_ ?_
    · cases hasHot with
      | true => exact hotIH (readable.1 rfl)
      | false => exact empty
    · cases hasCold with
      | true => exact coldIH (readable.2 rfl)
      | false => exact empty
  | join leftLayered rightLayered leftIH rightIH =>
    exact (leftIH readable.1).join (rightIH readable.2)
  | aggregation childLayered aggType keyOffset ih =>
    exact (ih readable.1).aggregation readable.2 keyOffset aggType
  | sort childLayered keyOffset ih => exact (ih readable).sort keyOffset

end Plan

/-- Plans whose outputs are alike give the same tuples up to their order. -/
theorem contents_of_alike {order : StdSort} {pages : Int → Bytes} {plan other : Plan}
    (alike : Alike (plan.output order pages) (other.output order pages))
    {ready : BufferPool DiskManager → Prop}
    (delivers : ∀ table ∈ plan.tables, 0 ≤ table.firstPageId →
      Delivers ready table.firstPageId (pages table.firstPageId))
    (otherDelivers : ∀ table ∈ other.tables, 0 ≤ table.firstPageId →
      Delivers ready table.firstPageId (pages table.firstPageId))
    {fuel otherFuel : Nat}
    (enough : plan.bound order pages + rowCount (plan.output order pages) < fuel)
    (otherEnough : other.bound order pages + rowCount (plan.output order pages) < otherFuel)
    (row otherRow : Row) {pool otherPool : BufferPool DiskManager} (isReady : ready pool)
    (isOtherReady : ready otherPool) :
    Option.Rel List.Perm
      ((run (collect fuel row (plan.build order)) pool).1.1.map (List.map content))
      ((run (collect otherFuel otherRow (other.build order)) otherPool).1.1.map
        (List.map content)) := by
  rw [alike.rowCount] at otherEnough
  rw [(Plan.restarts plan delivers).collect row enough (Plan.fits_build plan) isReady,
    (Plan.restarts other otherDelivers).collect otherRow otherEnough (Plan.fits_build other)
      isOtherReady]
  exact alike.drained

/-- Replacing scans of whole tables by merges of their hot and cold rows, anywhere in an
executor tree and with any layer manager at each place, gives the same tuples up to
their order, and no result in the same cases. -/
theorem layered_contents (order : StdSort) (plain layered : Plan)
    (isLayered : Plan.Layered plain layered) (pages : Int → Bytes)
    (readable : plain.Readable order pages) (ready : BufferPool DiskManager → Prop)
    (delivers : ∀ table ∈ plain.tables, 0 ≤ table.firstPageId →
      Delivers ready table.firstPageId (pages table.firstPageId))
    (fuel layeredFuel : Nat)
    (enough : plain.bound order pages + rowCount (plain.output order pages) < fuel)
    (layeredEnough : layered.bound order pages + rowCount (plain.output order pages) < layeredFuel)
    (row layeredRow : Row) (pool layeredPool : BufferPool DiskManager) (isReady : ready pool)
    (isLayeredReady : ready layeredPool) :
    Option.Rel List.Perm
      ((run (collect fuel row (plain.build order)) pool).1.1.map (List.map content))
      ((run (collect layeredFuel layeredRow (layered.build order)) layeredPool).1.1.map
        (List.map content)) := by
  have layeredDelivers : ∀ table ∈ layered.tables, 0 ≤ table.firstPageId →
      Delivers ready table.firstPageId (pages table.firstPageId) :=
    fun table member => delivers table (Plan.tables_of_layered isLayered table member)
  exact contents_of_alike (Plan.alike_of_layered isLayered readable) delivers layeredDelivers
    enough layeredEnough row layeredRow isReady isLayeredReady

/-- `Plan.countedRows` without layers, and with two layer managers. -/
def Plan.wholeRows (table : TableHeap) : Plan :=
  .sort (.join (.seqScan table none .both) (.aggregation (.seqScan table none .both) .count 0)) 0

def Plan.splitRows (table : TableHeap) (first second : LayerManager) : Plan :=
  .sort (.join (.merge (.seqScan table (some first) .hot) (.seqScan table (some first) .cold)
    true true) (.aggregation (.merge (.seqScan table (some second) .hot)
      (.seqScan table (some second) .cold) true true) .count 0)) 0

/-- A pool in which two rows were inserted into a table delivers its page to every plan. -/
theorem twoRows_delivers :
    let outcome := run (fill [HeapHistory.intPair 20 8, HeapHistory.intPair 12 8])
      (BufferPool.new 1 (DiskManager.new (some {})))
    Holding outcome.2.frames.contents outcome.2 ∧
      ∀ plan : Plan, (∀ table ∈ plan.tables, table = { firstPageId := 0, lastPageId := 0 }) →
        ∀ table ∈ plan.tables, 0 ≤ table.firstPageId →
          Delivers (Holding outcome.2.frames.contents) table.firstPageId
            (firstPageOf [HeapHistory.intPair 20 8, HeapHistory.intPair 12 8]) := by
  intro outcome
  have settled : (BufferPool.new 1 (DiskManager.new (some {}))).frames.Settled :=
    Frames.settled_empty _ (by decide)
  obtain ⟨isReady, deliversFirst⟩ := delivers_fill settled (by decide +kernel)
    ((fitAll_iff [HeapHistory.intPair 20 8, HeapHistory.intPair 12 8] (List.cons_ne_nil _ _) _ _).mpr
      (by decide))
  have heap : outcome.1.2 = { firstPageId := 0, lastPageId := 0 } := by decide +kernel
  refine ⟨isReady, fun plan only table member _ => ?_⟩
  obtain rfl := only table member
  exact heap ▸ deliversFirst

/-- Two rows on a page that is hot for one manager and cold for the other. -/
theorem layered_contents_two_rows :
    let outcome := run (fill [HeapHistory.intPair 20 8, HeapHistory.intPair 12 8])
      (BufferPool.new 1 (DiskManager.new (some {})))
    let table : TableHeap := { firstPageId := 0, lastPageId := 0 }
    Option.Rel List.Perm
      ((run (collect 60 ({}, {}) ((Plan.wholeRows table).build .insertion)) outcome.2).1.1.map
        (List.map content))
      ((run (collect 60 ({}, {}) ((Plan.splitRows table { hotPageIds := {0} } {}).build .insertion))
        outcome.2).1.1.map (List.map content)) := by
  intro outcome table
  obtain ⟨isReady, delivers⟩ := twoRows_delivers
  have onlyTable : ∀ other ∈ (Plan.wholeRows table).tables, other = table := by
    simp [Plan.wholeRows, Plan.tables]
  refine layered_contents .insertion (Plan.wholeRows table) _ ?_
    (fun _ => firstPageOf [HeapHistory.intPair 20 8, HeapHistory.intPair 12 8]) ?_ _
    (delivers _ onlyTable) 60 60 ?_ ?_ ({}, {}) ({}, {}) outcome.2 outcome.2 isReady isReady
  · exact .sort (.join (.split table (.inl rfl) _)
      (.aggregation (.split table (.inl rfl) _) .count 0)) 0
  · have sound : ¬ Broken table
        (firstPageOf [HeapHistory.intPair 20 8, HeapHistory.intPair 12 8]) := by
      decide +kernel
    exact ⟨sound, sound, by decide +kernel⟩
  · decide +kernel
  · decide +kernel

end MiniDB.Executors
