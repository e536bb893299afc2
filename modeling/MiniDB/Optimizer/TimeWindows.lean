import MiniDB.Executors.LayeredScan
import MiniDB.Optimizer.QueryOptimizer

/-!
# Time windows

A query that asks for the last days has a numeral of any length. The optimizer sends a
window up to the threshold to the hot pages and a wider one to the cold pages alone,
so the wider window loses the rows of hot pages.
-/

namespace MiniDB.Optimizer

open Foundation Log Buffer PoolProgram Storage TableHeap Executors

/-- A query of the form `... last N days ...`, where this is the first time condition. -/
structure LastDaysQuery (query digits : ByteString) : Prop where
  nonempty : digits ≠ []
  isDigits : ∀ digit ∈ digits, isDigit digit = true
  phrase : ∃ before after,
    query = before ++ (ascii "last " ++ digits ++ ascii " days" ++ after) ∧
      ∀ index < before.length, lastDays.runs (query.drop index) = []

theorem sameLetter_self (byte : UInt8) : sameLetter byte byte = true := by simp [sameLetter]

theorem isSpace_of_isDigit {byte : UInt8} (digit : isDigit byte = true) : isSpace byte = false := by
  simp only [isDigit, isSpace, Bool.and_eq_true, decide_eq_true_eq, UInt8.le_iff_toNat_le,
    Bool.or_eq_false_iff, Bool.and_eq_false_iff, decide_eq_false_iff_not, ← UInt8.toNat_inj] at digit ⊢
  simp at digit ⊢
  omega

/-- The phrase is matched as a whole. -/
theorem leads_lastDays {digits : ByteString} (nonempty : digits ≠ [])
    (isDigits : ∀ digit ∈ digits, isDigit digit = true) (after : ByteString) :
    lastDays.Leads (ascii "last " ++ digits ++ ascii " days" ++ after) [digits] after := by
  obtain ⟨digit, digits, rfl⟩ := List.exists_cons_of_ne_nil nonempty
  have text : ascii "last " ++ (digit :: digits) ++ ascii " days" ++ after =
      ascii "last" ++ ([32] ++ ((digit :: digits) ++ ([32] ++ (ascii "day" ++
        (ascii "s" ++ after))))) := by
    have last : ascii "last " = ascii "last" ++ [32] := rfl
    have days : ascii " days" = [32] ++ (ascii "day" ++ ascii "s") := rfl
    simp only [last, days, List.append_assoc]
  rw [text]
  -- each part takes as much as it can, and the next part goes on from there
  have unit : (Pattern.alt (.seq (letters (ascii "day")) (.optional (letters (ascii "s"))))
      (letters dayBytes)).Leads (ascii "day" ++ (ascii "s" ++ after)) [] after :=
    ((Pattern.leads_word sameLetter_self (ascii "day") _).seq
      (Pattern.leads_word sameLetter_self (ascii "s") after).optional).alt_left
  have secondBlank : (Pattern.many isSpace).Leads ([32] ++ (ascii "day" ++ (ascii "s" ++ after))) []
      (ascii "day" ++ (ascii "s" ++ after)) :=
    Pattern.leads_many (by simp [isSpace]) (by rintro _ ⟨⟩; rfl)
  have numeral : (Pattern.group (.some isDigit)).Leads
      ((digit :: digits) ++ ([32] ++ (ascii "day" ++ (ascii "s" ++ after)))) [digit :: digits]
      ([32] ++ (ascii "day" ++ (ascii "s" ++ after))) :=
    (Pattern.leads_some isDigits (by rintro _ ⟨⟩; rfl)).group
  have firstBlank : (Pattern.many isSpace).Leads
      ([32] ++ ((digit :: digits) ++ ([32] ++ (ascii "day" ++ (ascii "s" ++ after))))) []
      ((digit :: digits) ++ ([32] ++ (ascii "day" ++ (ascii "s" ++ after)))) := by
    refine Pattern.leads_many (by simp [isSpace]) ?_
    rintro _ ⟨⟩
    exact isSpace_of_isDigit (isDigits digit List.mem_cons_self)
  have keyword := Pattern.leads_word sameLetter_self (ascii "last")
    ([32] ++ ((digit :: digits) ++ ([32] ++ (ascii "day" ++ (ascii "s" ++ after)))))
  exact keyword.alt_left.seq (firstBlank.seq (numeral.seq (secondBlank.seq unit)))

/-- The number that the optimizer reads from such a query. -/
theorem parse_lastDaysQuery {query digits : ByteString} (form : LastDaysQuery query digits) :
    QueryOptimizer.parseTimeConditionDays query = stoi digits := by
  obtain ⟨before, after, rfl, isFirst⟩ := form.phrase
  have found := Pattern.search_append (leads_lastDays form.nonempty form.isDigits after) isFirst
  simp only [QueryOptimizer.parseTimeConditionDays, found]

/-- The layer that the optimizer infers from such a query. -/
theorem inferTargetLayer_lastDaysQuery (optimizer : QueryOptimizer) {query digits : ByteString}
    (form : LastDaysQuery query digits) :
    optimizer.inferTargetLayer query =
      if decimal digits ≤ 2147483647 then
        some (if (decimal digits : Int) ≤ optimizer.hotThresholdDays then .hot else .cold)
      else none := by
  have nonneg : ¬ ((decimal digits : Int) < 0) := by omega
  rw [QueryOptimizer.inferTargetLayer, parse_lastDaysQuery form, stoi]
  split
  · rw [Option.map_some, if_neg nonneg]
  · rfl

/-! ## What is scanned -/

/-- The rows that a scan of the layer returns. -/
def rowsUnder (heap : TableHeap) (manager : LayerManager) (pool : BufferPool DiskManager)
    (fuel : Nat) (row : Row) (layer : DataLayer) : Option (List Row) :=
  (run (collect fuel row (SeqScanExecutor.newLayer heap (some manager) layer)) pool).1.1

/-- The optimizer infers a layer for both queries, and every row that is returned for
the first one is also returned for the second one. -/
def ScansNoLess (optimizer : QueryOptimizer) (rowsOf : DataLayer → Option (List Row))
    (narrow wide : ByteString) : Prop :=
  ∃ narrowLayer wideLayer narrowRows wideRows,
    optimizer.inferTargetLayer narrow = some narrowLayer ∧
    optimizer.inferTargetLayer wide = some wideLayer ∧
    rowsOf narrowLayer = some narrowRows ∧ rowsOf wideLayer = some wideRows ∧
    ∀ seen ∈ narrowRows, seen ∈ wideRows

theorem scansNoLess_iff_subset {optimizer : QueryOptimizer}
    {rowsOf : DataLayer → Option (List Row)} {narrow wide : ByteString}
    {narrowLayer wideLayer : DataLayer} {narrowRows wideRows : List Row}
    (inferNarrow : optimizer.inferTargetLayer narrow = some narrowLayer)
    (inferWide : optimizer.inferTargetLayer wide = some wideLayer)
    (ofNarrow : rowsOf narrowLayer = some narrowRows) (ofWide : rowsOf wideLayer = some wideRows) :
    ScansNoLess optimizer rowsOf narrow wide ↔ ∀ seen ∈ narrowRows, seen ∈ wideRows := by
  constructor
  · rintro ⟨layer, other, rows, otherRows, isLayer, isOther, isRows, isOtherRows, subset⟩
    obtain rfl := Option.some.inj (inferNarrow.symm.trans isLayer)
    obtain rfl := Option.some.inj (inferWide.symm.trans isOther)
    obtain rfl := Option.some.inj (ofNarrow.symm.trans isRows)
    obtain rfl := Option.some.inj (ofWide.symm.trans isOtherRows)
    exact subset
  · intro subset
    exact ⟨narrowLayer, wideLayer, narrowRows, wideRows, inferNarrow, inferWide, ofNarrow, ofWide,
      subset⟩

/-- The rows of hot pages are among those of cold pages just when there are none. -/
theorem hot_subset_cold_iff {heap : TableHeap} {pageData : Bytes} {rows : List Row}
    (scanned : (tableOutput heap pageData).drained = some rows) (manager : LayerManager) :
    (∀ seen ∈ rows.filter (keepsRow (some manager) .hot),
        seen ∈ rows.filter (keepsRow (some manager) .cold)) ↔
      ¬ (0 ≤ heap.firstPageId ∧ (manager.isPageHot heap.firstPageId).1 = true) := by
  constructor
  · rintro subset ⟨nonneg, isHot⟩
    have positive := slotCount_pos pageData
    rw [← length_rows nonneg scanned] at positive
    obtain ⟨-, -, result, -, found⟩ := getElem?_rows scanned positive
    have inHot : (result.2, { pageId := heap.firstPageId, slotNum := (0 : Nat) }) ∈
        rows.filter (keepsRow (some manager) .hot) :=
      List.mem_filter.mpr ⟨List.mem_of_getElem? found, isHot⟩
    have inCold := (List.mem_filter.mp (subset _ inHot)).2
    simp only [keepsRow, isHot, Bool.not_true, Bool.false_eq_true] at inCold
  · intro notHot seen member
    obtain ⟨inTable, kept⟩ := List.mem_filter.mp member
    obtain ⟨slot, inside, found⟩ := List.getElem_of_mem inTable
    obtain ⟨nonneg, -, result, -, isSeen⟩ := getElem?_rows scanned inside
    rw [List.getElem?_eq_getElem inside, found] at isSeen
    obtain rfl := Option.some.inj isSeen
    exact absurd ⟨nonneg, kept⟩ notHot

/-- A wider window scans no less exactly when its numeral fits an `int`, the slot
entries of the table stay inside its page, and the windows are not on different sides
of the threshold with the table on a hot page. -/
theorem scansNoLess_iff (optimizer : QueryOptimizer) {narrow wide narrowDigits wideDigits : ByteString}
    (narrowForm : LastDaysQuery narrow narrowDigits) (wideForm : LastDaysQuery wide wideDigits)
    (ordered : decimal narrowDigits ≤ decimal wideDigits) (heap : TableHeap)
    (manager : LayerManager) (ready : BufferPool DiskManager → Prop) (pageData : Bytes)
    (delivers : 0 ≤ heap.firstPageId → Delivers ready heap.firstPageId pageData)
    (pool : BufferPool DiskManager) (isReady : ready pool) (row : Row) (fuel : Nat)
    (enough : 2 * slotCount pageData + 1 < fuel) :
    ScansNoLess optimizer (rowsUnder heap manager pool fuel row) narrow wide ↔
      decimal wideDigits ≤ 2147483647 ∧ ¬ Broken heap pageData ∧
        ¬ ((decimal narrowDigits : Int) ≤ optimizer.hotThresholdDays ∧
          optimizer.hotThresholdDays < decimal wideDigits ∧ 0 ≤ heap.firstPageId ∧
          (manager.isPageHot heap.firstPageId).1 = true) := by
  have rowsOf : ∀ layer, rowsUnder heap manager pool fuel row layer =
      (tableOutput heap pageData).drained.map
        fun rows => rows.filter (keepsRow (some manager) layer) :=
    fun layer => run_collect_scan delivers (some manager) layer isReady enough
  rw [← drained_tableOutput_eq_none_iff]
  have narrowLayer := inferTargetLayer_lastDaysQuery optimizer narrowForm
  have wideLayer := inferTargetLayer_lastDaysQuery optimizer wideForm
  by_cases fits : decimal wideDigits ≤ 2147483647
  · rw [if_pos (ordered.trans fits)] at narrowLayer
    rw [if_pos fits] at wideLayer
    cases scanned : (tableOutput heap pageData).drained with
    | none =>
      refine iff_of_false ?_ fun holds => holds.2.1 rfl
      rintro ⟨layer, _, _, _, _, _, isRows, -⟩
      rw [rowsOf, scanned] at isRows
      exact absurd isRows (by simp)
    | some rows =>
      have returns : ∀ layer, rowsUnder heap manager pool fuel row layer =
          some (rows.filter (keepsRow (some manager) layer)) := fun layer => by
        rw [rowsOf, scanned, Option.map_some]
      rw [scansNoLess_iff_subset narrowLayer wideLayer (returns _) (returns _)]
      by_cases narrowIn : (decimal narrowDigits : Int) ≤ optimizer.hotThresholdDays
      · by_cases wideIn : (decimal wideDigits : Int) ≤ optimizer.hotThresholdDays
        · rw [if_pos narrowIn, if_pos wideIn]
          refine iff_of_true (fun _ member => member) ⟨fits, by simp, fun crosses => ?_⟩
          exact absurd crosses.2.1 (Int.not_lt.mpr wideIn)
        · -- the windows are on different sides of the threshold
          rw [if_pos narrowIn, if_neg wideIn, hot_subset_cold_iff scanned manager]
          have across : optimizer.hotThresholdDays < decimal wideDigits := Int.not_le.mp wideIn
          simp [fits, narrowIn, across]
      · have wideOut : ¬ ((decimal wideDigits : Int) ≤ optimizer.hotThresholdDays) := by omega
        rw [if_neg narrowIn, if_neg wideOut]
        exact iff_of_true (fun _ member => member)
          ⟨fits, by simp, fun crosses => absurd crosses.1 narrowIn⟩
  · rw [if_neg fits] at wideLayer
    refine iff_of_false ?_ fun holds => fits holds.1
    rintro ⟨_, layer, _, _, _, inferred, -⟩
    exact absurd (wideLayer.symm.trans inferred) (by simp)

/-- A query for the last days. -/
def recentOrders (numeral : String) : ByteString :=
  ascii "SELECT * FROM orders WHERE last " ++ ascii numeral ++ ascii " days"

theorem lastDaysQuery_recentOrders {numeral : String} (nonempty : ascii numeral ≠ [])
    (isDigits : ∀ digit ∈ ascii numeral, isDigit digit = true)
    (isFirst : ∀ index < 27, lastDays.runs ((recentOrders numeral).drop index) = []) :
    LastDaysQuery (recentOrders numeral) (ascii numeral) := by
  refine ⟨nonempty, isDigits, ascii "SELECT * FROM orders WHERE ", [], ?_, isFirst⟩
  simp only [recentOrders, List.append_nil, ← List.append_assoc]
  rfl

/-- Two windows within the threshold. -/
theorem scansNoLess_within_threshold :
    let outcome := run (fill [HeapHistory.intPair 12 8, HeapHistory.intPair 20 8])
      (BufferPool.new 1 (DiskManager.new (some {})))
    ScansNoLess {} (rowsUnder outcome.1.2 { hotPageIds := {0} } outcome.2 20 ({}, {}))
      (recentOrders "2") (recentOrders "03") := by
  intro outcome
  have settled : (BufferPool.new 1 (DiskManager.new (some {}))).frames.Settled :=
    Frames.settled_empty _ (by decide)
  obtain ⟨isReady, delivers⟩ := delivers_fill settled (by decide +kernel)
    ((fitAll_iff [HeapHistory.intPair 12 8, HeapHistory.intPair 20 8] (List.cons_ne_nil _ _) _ _).mpr
      (by decide))
  have narrow : LastDaysQuery (recentOrders "2") (ascii "2") :=
    lastDaysQuery_recentOrders (by decide +kernel) (by decide +kernel) (by decide +kernel)
  have wide : LastDaysQuery (recentOrders "03") (ascii "03") :=
    lastDaysQuery_recentOrders (by decide +kernel) (by decide +kernel) (by decide +kernel)
  exact (scansNoLess_iff {} narrow wide (by decide) outcome.1.2 { hotPageIds := {0} } _ _
    (fun _ => delivers) outcome.2 isReady ({}, {}) 20 (by decide +kernel)).mpr (by decide +kernel)

/-- With a threshold of three days and the table on a hot page, the last two days give
both rows and the last five days none; and a numeral beyond an `int` throws. -/
theorem wider_window_scans_less :
    let outcome := run (fill [HeapHistory.intPair 12 8, HeapHistory.intPair 20 8])
      (BufferPool.new 1 (DiskManager.new (some {})))
    let rowsOf := rowsUnder outcome.1.2 { hotPageIds := {0} } outcome.2 20 ({}, {})
    LastDaysQuery (recentOrders "2") (ascii "2") ∧ LastDaysQuery (recentOrders "5") (ascii "5") ∧
      LastDaysQuery (recentOrders "2147483648") (ascii "2147483648") ∧
      ((rowsOf .hot).map List.length = some 2 ∧ (rowsOf .cold).map List.length = some 0) ∧
      ¬ ScansNoLess {} rowsOf (recentOrders "2") (recentOrders "5") ∧
      ¬ ScansNoLess {} rowsOf (recentOrders "2") (recentOrders "2147483648") := by
  intro outcome rowsOf
  have lengths : (rowsOf .hot).map List.length = some 2 ∧
      (rowsOf .cold).map List.length = some 0 := by
    decide +kernel
  refine ⟨lastDaysQuery_recentOrders (by decide +kernel) (by decide +kernel) (by decide +kernel),
    lastDaysQuery_recentOrders (by decide +kernel) (by decide +kernel) (by decide +kernel),
    lastDaysQuery_recentOrders (by decide +kernel) (by decide +kernel) (by decide +kernel), lengths, ?_, ?_⟩
  · have narrow : QueryOptimizer.inferTargetLayer {} (recentOrders "2") = some .hot := by
      decide +kernel
    have wide : QueryOptimizer.inferTargetLayer {} (recentOrders "5") = some .cold := by
      decide +kernel
    obtain ⟨hotRows, isHot, two⟩ := Option.map_eq_some_iff.mp lengths.1
    obtain ⟨coldRows, isCold, zero⟩ := Option.map_eq_some_iff.mp lengths.2
    rw [scansNoLess_iff_subset narrow wide isHot isCold]
    obtain rfl := List.eq_nil_of_length_eq_zero zero
    obtain ⟨first, rest, rfl⟩ := List.exists_cons_of_length_pos (two ▸ Nat.zero_lt_two)
    exact fun subset => absurd (subset first List.mem_cons_self) List.not_mem_nil
  · have throws : QueryOptimizer.inferTargetLayer {} (recentOrders "2147483648") = none := by
      decide +kernel
    rintro ⟨_, layer, _, _, _, inferred, -⟩
    exact absurd (throws.symm.trans inferred) (by simp)

end MiniDB.Optimizer
