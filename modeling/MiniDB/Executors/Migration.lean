import MiniDB.Executors.LayeredScan
import MiniDB.Foundation.Run

/-!
# A merge while its table migrates

The hot and the cold scan of a merge look at the layer of a page at different
moments. All rows that a scan meets are on one page, so a drain is a run of a small
machine, `ScanPhase`, driven by the layer of that page at each call of `Next`. Every
row comes out exactly once just when that layer stays the same.
-/

namespace MiniDB.Executors

open Foundation Buffer PoolProgram Storage TableHeap

/-! ## The phases of a drain -/

/-- Where a drain is: the slot that the hot scan is at, while the cold scan is at the
first slot; the slot that the cold scan is at; or the end. -/
inductive ScanPhase where
  | hot (slot : Nat)
  | cold (slot : Nat)
  | ended
deriving DecidableEq, Repr

namespace ScanPhase

/-- A call of `Next` on a table of `count` rows: the slot of the row that it returns. A
hot scan that meets a cold page skips to its end. -/
def next (count : Nat) (isHot : Bool) : ScanPhase → Option Nat × ScanPhase
  | hot slot =>
    if isHot then if slot < count then (some slot, hot (slot + 1)) else (none, ended)
    else if 0 < count then (some 0, cold 1) else (none, ended)
  | cold slot =>
    if isHot then (none, ended)
    else if slot < count then (some slot, cold (slot + 1)) else (none, ended)
  | ended => (none, ended)

/-- The slots of the rows that the calls return, and the phase after them. -/
def drain (count : Nat) : ScanPhase → List Bool → List Nat × ScanPhase
  | phase, [] => ([], phase)
  | phase, isHot :: layers =>
    ((phase.next count isHot).1.toList ++ (drain count (phase.next count isHot).2 layers).1,
      (drain count (phase.next count isHot).2 layers).2)

/-- At most how many calls there are until the drain has ended. -/
def left (count : Nat) : ScanPhase → Nat
  | hot slot => (count - slot) + count + 1
  | cold slot => count - slot + 1
  | ended => 0

variable {count : Nat}

theorem left_next (isHot : Bool) (phase : ScanPhase) :
    (phase.next count isHot).2.left count ≤ phase.left count - 1 := by
  cases phase with
  | hot slot =>
    cases isHot with
    | true =>
      by_cases room : slot < count
      · simp only [next, if_true, if_pos room, left]
        omega
      · simp [next, room, left]
    | false =>
      by_cases some : 0 < count
      · simp only [next, Bool.false_eq_true, if_false, if_pos some, left]
        omega
      · simp [next, some, left]
  | cold slot =>
    cases isHot with
    | true => simp [next, left]
    | false =>
      by_cases room : slot < count
      · simp only [next, Bool.false_eq_true, if_false, if_pos room, left]
        omega
      · simp [next, room, left]
  | ended => exact Nat.zero_le _

/-- A drain ends. -/
theorem ended_of_left_le {phase : ScanPhase} {layers : List Bool}
    (enough : phase.left count ≤ layers.length) : (phase.drain count layers).2 = ended := by
  induction layers generalizing phase with
  | nil =>
    cases phase with
    | ended => rfl
    | hot slot => simp [left] at enough
    | cold slot => simp [left] at enough
  | cons isHot layers ih =>
    refine ih ?_
    have fewer := @left_next count isHot phase
    rw [List.length_cons] at enough
    omega

theorem next_ne_ended {isHot : Bool} {phase : ScanPhase} :
    ∀ slot, (phase.next count isHot).1 = some slot → (phase.next count isHot).2 ≠ ended := by
  intro slot
  cases phase with
  | ended => simp [next]
  | hot place =>
    simp only [next]
    split
    · split <;> simp
    · split <;> simp
  | cold place =>
    simp only [next]
    split
    · simp
    · split <;> simp

theorem lt_of_next {isHot : Bool} {phase : ScanPhase} {slot : Nat}
    (returned : (phase.next count isHot).1 = some slot) : slot < count := by
  cases phase with
  | ended => simp [next] at returned
  | hot place =>
    simp only [next] at returned
    split at returned
    · split at returned <;> simp at returned
      omega
    · split at returned <;> simp at returned
      omega
  | cold place =>
    simp only [next] at returned
    split at returned
    · simp at returned
    · split at returned <;> simp at returned
      omega

/-- Only slots of the table are returned. -/
theorem lt_of_mem_drain {phase : ScanPhase} {layers : List Bool} {slot : Nat}
    (member : slot ∈ (phase.drain count layers).1) : slot < count := by
  induction layers generalizing phase with
  | nil => exact absurd member List.not_mem_nil
  | cons isHot layers ih =>
    rcases List.mem_append.mp member with now | later
    · exact lt_of_next (Option.mem_toList.mp now)
    · exact ih later

theorem drain_ended (layers : List Bool) : ended.drain count layers = ([], ended) := by
  induction layers with
  | nil => rfl
  | cons isHot layers ih =>
    simp only [drain, next, ih, Option.toList_none, List.append_nil]

/-- The cold scan returns its rows up to the first call with a hot page. -/
theorem drain_cold {slot : Nat} (inside : slot ≤ count) {layers : List Bool}
    (ends : ((cold slot).drain count layers).2 = ended) :
    ∃ more, slot + more ≤ count ∧ ((cold slot).drain count layers).1 = List.range' slot more ∧
      (slot + more = count ↔ ∀ index < count - slot, layers[index]? = some false) := by
  induction layers generalizing slot with
  | nil => simp [drain] at ends
  | cons isHot layers ih =>
    rcases Nat.lt_or_ge slot count with room | full
    · cases isHot with
      | true =>
        refine ⟨0, by omega, by simp [drain, next, drain_ended], ?_⟩
        refine iff_of_false (by omega) fun allCold => ?_
        exact absurd (allCold 0 (by omega)) (by simp)
      | false =>
        simp only [drain, next, Bool.false_eq_true, if_false, if_pos room, Option.toList_some,
          List.singleton_append] at ends ⊢
        obtain ⟨more, few, slots, all⟩ := ih room ends
        refine ⟨more + 1, by omega, by rw [slots, List.range'_succ], ?_⟩
        rw [← Nat.add_assoc, Nat.add_right_comm, all]
        constructor
        · rintro allCold (_ | index) isIndex
          · rfl
          · exact allCold index (by omega)
        · intro allCold index isIndex
          exact allCold (index + 1) (by omega)
    · have stops : (cold slot).next count isHot = (none, ended) := by
        cases isHot <;> simp [next, Nat.not_lt.mpr full]
      refine ⟨0, by omega, by simp [drain, stops, drain_ended], ?_⟩
      refine iff_of_true (by omega) fun index isIndex => ?_
      omega

/-- The hot scan returns all rows and the cold scan none, or the hot scan is left at
some call with a cold page and the cold scan returns its rows from the first one on. -/
theorem drain_hot {slot : Nat} (inside : slot ≤ count) {layers : List Bool}
    (ends : ((hot slot).drain count layers).2 = ended) :
    (((hot slot).drain count layers).1 = List.range' slot (count - slot) ∧
        ∀ index ≤ count - slot, layers[index]? = some true) ∨
      ∃ more again, more ≤ count - slot ∧ (∀ index < more, layers[index]? = some true) ∧
        layers[more]? = some false ∧ (0 < count → 0 < again) ∧ again ≤ count ∧
        ((hot slot).drain count layers).1 = List.range' slot more ++ List.range again ∧
        (again = count ↔ ∀ index < count, layers[more + index]? = some false) := by
  induction layers generalizing slot with
  | nil => simp [drain] at ends
  | cons isHot layers ih =>
    cases isHot with
    | false =>
      refine .inr ?_
      rcases Nat.eq_zero_or_pos count with rfl | some
      · refine ⟨0, 0, Nat.zero_le _, by simp, rfl, by simp, Nat.le_refl 0, ?_, by simp⟩
        simp [drain, next, drain_ended]
      · simp only [drain, next, Bool.false_eq_true, if_false, if_pos some, Option.toList_some,
          List.singleton_append] at ends ⊢
        obtain ⟨more, few, slots, all⟩ := drain_cold some ends
        refine ⟨0, more + 1, Nat.zero_le _, by simp, rfl, by omega, by omega, ?_, ?_⟩
        · rw [slots, List.range'_zero, List.nil_append, List.range_eq_range', List.range'_succ]
        · rw [Nat.add_comm, all]
          constructor
          · rintro allCold (_ | index) isIndex
            · rfl
            · rw [Nat.zero_add]
              exact allCold index (by omega)
          · intro allCold index isIndex
            have here := allCold (index + 1) (by omega)
            rwa [Nat.zero_add] at here
    | true =>
      by_cases room : slot < count
      · simp only [drain, next, if_true, if_pos room, Option.toList_some,
          List.singleton_append] at ends ⊢
        rcases ih room ends with ⟨slots, allHot⟩ | ⟨more, again, few, hot, cold, some, small, slots, all⟩
        · refine .inl ⟨?_, ?_⟩
          · have remaining : count - slot = count - (slot + 1) + 1 := by omega
            rw [slots, remaining, List.range'_succ]
          · rintro (_ | index) isIndex
            · rfl
            · exact allHot index (by omega)
        · refine .inr ⟨more + 1, again, by omega, ?_, cold, some, small, ?_, ?_⟩
          · rintro (_ | index) isIndex
            · rfl
            · exact hot index (by omega)
          · rw [slots, List.range'_succ, List.cons_append]
          · rw [all]
            refine forall₂_congr fun index isIndex => ?_
            rw [Nat.add_right_comm, List.getElem?_cons_succ]
      · refine .inl ⟨?_, ?_⟩
        · have full : count - slot = 0 := by omega
          simp [drain, next, room, drain_ended, full]
        · intro index isIndex
          obtain rfl : index = 0 := by omega
          rfl

end ScanPhase

/-- The page is hot at each of the first `count + 1` calls of `Next`, or cold at each
of the first `count`. -/
def SameLayer (count : Nat) (layers : List Bool) : Prop :=
  (∀ index ≤ count, layers[index]? = some true) ∨ ∀ index < count, layers[index]? = some false

/-- A drain returns every row exactly once just when the layer stays the same. -/
theorem ScanPhase.perm_range_iff {count : Nat} {layers : List Bool}
    (ends : ((ScanPhase.hot 0).drain count layers).2 = .ended) :
    ((ScanPhase.hot 0).drain count layers).1.Perm (List.range count) ↔ SameLayer count layers := by
  rcases ScanPhase.drain_hot (Nat.zero_le count) ends with
    ⟨slots, allHot⟩ | ⟨more, again, few, hot, cold, some, small, slots, all⟩
  · rw [slots, Nat.sub_zero, ← List.range_eq_range']
    exact iff_of_true (List.Perm.refl _) (.inl allHot)
  · rw [slots, ← List.range_eq_range']
    rcases Nat.eq_zero_or_pos count with rfl | positive
    · obtain rfl : more = 0 := by omega
      obtain rfl : again = 0 := by omega
      exact iff_of_true (List.Perm.refl _) (.inr fun index isIndex => by omega)
    · rcases Nat.eq_zero_or_pos more with rfl | returned
      · rw [List.range_zero, List.nil_append]
        have sameLength : (List.range again).Perm (List.range count) ↔ again = count := by
          refine ⟨fun perm => by simpa using perm.length_eq, fun same => by rw [same]⟩
        rw [sameLength, all]
        refine ⟨fun allCold => .inr fun index isIndex => ?_, ?_⟩
        · have here := allCold index isIndex
          rwa [Nat.zero_add] at here
        · rintro (allHot | allCold) index isIndex
          · rw [allHot 0 (Nat.zero_le _)] at cold
            exact absurd cold (by simp)
          · rw [Nat.zero_add]
            exact allCold index isIndex
      · -- the first row comes out of both scans
        refine iff_of_false (fun perm => ?_) ?_
        · have once : (List.range more ++ List.range again).Nodup :=
            perm.nodup_iff.mpr List.nodup_range
          exact (List.nodup_append.mp once).2.2 0 (List.mem_range.mpr returned) 0
            (List.mem_range.mpr (some positive)) rfl
        · rintro (allHot | allCold)
          · rw [allHot more (by omega)] at cold
            exact absurd cold (by simp)
          · have first := allCold 0 positive
            rw [hot 0 returned] at first
            exact absurd first (by simp)

/-! ## A drain with migrations in between -/

/-- A call that is made while a merge is drained. -/
inductive DrainCall where
  | markPageHot (pageId : Int)
  | markPageCold (pageId : Int)
  | next
deriving DecidableEq, Repr

/-- `Next` has returned false, or has no defined result. -/
inductive DrainStatus where
  | running
  | ended
  | undefined
deriving DecidableEq, Repr

/-- A merge that is drained: the layer manager that its scans point to, the executor,
the tuple and the RID that `Next` works on, and the rows that it has returned. -/
structure MigratedDrain where
  manager : LayerManager
  executor : MergeExecutor SeqScanExecutor SeqScanExecutor
  pool : BufferPool DiskManager
  row : Row
  returned : List Row := []
  status : DrainStatus := .running

namespace MigratedDrain

/-- A merge of a hot and a cold scan of a table. -/
def start (heap : TableHeap) (manager : LayerManager) (pool : BufferPool DiskManager) (row : Row) :
    MigratedDrain :=
  { manager, executor := hotThenCold heap manager, pool, row }

/-- Both scans see the layer manager through their pointers. -/
def setManager (drain : MigratedDrain) (manager : LayerManager) : MigratedDrain :=
  let see (scan : SeqScanExecutor) : SeqScanExecutor := { scan with layerManager := some manager }
  { drain with
    manager
    executor :=
      { drain.executor with
        hotExecutor := drain.executor.hotExecutor.map see
        coldExecutor := drain.executor.coldExecutor.map see } }

/-- One call. A drain that has ended makes no further calls of `Next`. -/
def step (fuel : Nat) (drain : MigratedDrain) : DrainCall → MigratedDrain
  | .markPageHot pageId => drain.setManager (drain.manager.markPageHot pageId)
  | .markPageCold pageId => drain.setManager (drain.manager.markPageCold pageId)
  | .next =>
    match drain.status with
    | .running =>
      match run (Executor.next fuel drain.row drain.executor) drain.pool with
      | ((none, executor), pool) => { drain with executor, pool, status := .undefined }
      | ((some (false, row), executor), pool) =>
        { drain with executor, pool, row, status := .ended }
      | ((some (true, row), executor), pool) =>
        { drain with executor, pool, row, returned := drain.returned ++ [row] }
    | _ => drain

end MigratedDrain

/-- Whether the page is hot, at each call of `Next`. -/
def layersAt (pageId : Int) : LayerManager → List DrainCall → List Bool
  | _, [] => []
  | manager, .markPageHot other :: calls => layersAt pageId (manager.markPageHot other) calls
  | manager, .markPageCold other :: calls => layersAt pageId (manager.markPageCold other) calls
  | manager, .next :: calls => (manager.isPageHot pageId).1 :: layersAt pageId manager calls

/-! ## One call of a scan -/

section Scan

variable {ready : BufferPool DiskManager → Prop} {pageData : Bytes} {heap : TableHeap}
  {pool : BufferPool DiskManager} {manager : LayerManager} {layer : DataLayer}
  {scan : SeqScanExecutor} {rows : List Row} {slot fuel : Nat} (row : Row)

/-- The iterator at a slot; a table without a page has none. -/
def placeAt (heap : TableHeap) (pageData : Bytes) (slot : Nat) : TableIterator :=
  if 0 ≤ heap.firstPageId then scanIter heap pageData slot else heap.begin

theorem placeAt_zero : placeAt heap pageData 0 = heap.begin := by
  unfold placeAt
  split
  · rename_i nonneg
    exact (begin_eq_scanIter nonneg).symm
  · rfl

/-- `Next` at a row that the filter keeps. -/
theorem run_next_row (scanned : (tableOutput heap pageData).drained = some rows)
    (delivers : 0 ≤ heap.firstPageId → Delivers ready heap.firstPageId pageData)
    (fits : ScanFits heap pageData (some manager) layer scan)
    (place : scan.iter = placeAt heap pageData slot) (inside : slot < rows.length)
    (keeps : ∀ tuple slotNum,
      keepsRow (some manager) layer (tuple, { pageId := heap.firstPageId, slotNum }) = true)
    (enough : slotCount pageData + 1 ≤ fuel) (isReady : ready pool) :
    ∃ seen after later, rows[slot]? = some seen ∧ ready later ∧
      ScanFits heap pageData (some manager) layer after ∧
      after.iter = placeAt heap pageData (slot + 1) ∧
      run (Executor.next fuel row scan) pool = ((some (true, seen), after), later) := by
  obtain ⟨fuel, rfl⟩ : ∃ smaller, fuel = smaller + 1 := ⟨fuel - 1, by omega⟩
  obtain ⟨nonneg, few, result, entry, found⟩ := getElem?_rows scanned inside
  unfold placeAt at place ⊢
  rw [if_pos nonneg] at place
  obtain ⟨later, readyLater, ran⟩ :=
    run_nextLoop_slot fits nonneg (delivers nonneg) isReady place few fuel row
  rw [entry] at ran
  simp only [keeps, if_true] at ran
  refine ⟨_, _, later, found, readyLater, fits.at_slot nonneg (slot + 1), ?_, ?_⟩
  · rw [if_pos nonneg]
  · rw [fits.next_eq, ran]

/-- `Next` at the end of the table, or where the filter keeps no row. -/
theorem run_next_false (scanned : (tableOutput heap pageData).drained = some rows)
    (delivers : 0 ≤ heap.firstPageId → Delivers ready heap.firstPageId pageData)
    (fits : ScanFits heap pageData (some manager) layer scan)
    (place : scan.iter = placeAt heap pageData slot) (inside : slot ≤ rows.length)
    (nothing : slot = rows.length ∨ ∀ tuple slotNum,
      keepsRow (some manager) layer (tuple, { pageId := heap.firstPageId, slotNum }) = false)
    (enough : slotCount pageData + 1 ≤ fuel) (isReady : ready pool) :
    ∃ last after later, ready later ∧ ScanFits heap pageData (some manager) layer after ∧
      run (Executor.next fuel row scan) pool = ((some (false, last), after), later) := by
  have ended : Streams ready id (slotCount pageData + 1) true [] scan := by
    rcases Int.lt_or_le heap.firstPageId 0 with negative | nonneg
    · have atEnd : scan.iter.isEnd = true := by
        rw [place, placeAt, if_neg (Int.not_le.mpr negative)]
        exact decide_eq_true negative
      exact (fits.streams_end atEnd).mono (by omega)
    · have total := length_rows nonneg scanned
      obtain ⟨complete, -⟩ := rows_of_drained nonneg scanned
      rw [placeAt, if_pos nonneg] at place
      have streams := scan_streams nonneg (delivers nonneg) (slotCount pageData - slot) (by omega)
        fits place
      have restComplete : (slotOutput heap.firstPageId pageData (slotCount pageData - slot)
          slot).complete = true := by
        rw [← Bool.not_eq_false, complete_slotOutput_iff]
        rintro ⟨later, _, before, undefined⟩
        have broken := (complete_slotOutput_iff heap.firstPageId pageData (slotCount pageData) 0).mpr
          ⟨later, Nat.zero_le later, by omega, undefined⟩
        exact absurd (complete.symm.trans broken) (by simp)
      have noRows : (slotOutput heap.firstPageId pageData (slotCount pageData - slot)
          slot).rows.filter (keepsRow (some manager) layer) = [] := by
        rcases nothing with atEnd | skips
        · rw [atEnd, total, Nat.sub_self]
          rfl
        · refine List.filter_eq_nil_iff.mpr ?_
          rintro ⟨tuple, pageId, slotNum⟩ member
          obtain rfl : pageId = heap.firstPageId := pageId_of_mem_slotOutput member
          rw [skips]
          exact Bool.false_ne_true
      rw [restComplete, noRows] at streams
      exact streams.mono (by omega)
  exact ended.next_end (scan_keeps delivers) fits row enough isReady

/-! ## One call of the merge -/

/-- A merge that is in a phase. -/
structure MergeAt (heap : TableHeap) (pageData : Bytes) (manager : LayerManager) (count : Nat)
    (phase : ScanPhase) (hot cold : SeqScanExecutor)
    (executor : MergeExecutor SeqScanExecutor SeqScanExecutor) : Prop where
  hotChild : executor.hotExecutor = some hot
  coldChild : executor.coldExecutor = some cold
  hotFits : ScanFits heap pageData (some manager) .hot hot
  coldFits : ScanFits heap pageData (some manager) .cold cold
  place : match phase with
    | .hot slot => slot ≤ count ∧ executor.useHot = true ∧ hot.iter = placeAt heap pageData slot ∧
        cold.iter = placeAt heap pageData 0
    | .cold slot => slot ≤ count ∧ executor.useHot = false ∧ cold.iter = placeAt heap pageData slot
    | .ended => True

variable {hot cold : SeqScanExecutor} {executor : MergeExecutor SeqScanExecutor SeqScanExecutor}
  {phase : ScanPhase}

/-- What `Next` does, as the phase says: it returns the row of the slot and the merge is
in the next phase, or it returns false. -/
def Follows (heap : TableHeap) (pageData : Bytes) (manager : LayerManager) (rows : List Row)
    (outcome : Option Nat × ScanPhase)
    (answer : Option (Bool × Row) × MergeExecutor SeqScanExecutor SeqScanExecutor) : Prop :=
  (∃ hot cold, MergeAt heap pageData manager rows.length outcome.2 hot cold answer.2) ∧
    match outcome.1 with
    | some slot => ∃ seen, rows[slot]? = some seen ∧ answer.1 = some (true, seen)
    | none => outcome.2 = .ended ∧ ∃ last, answer.1 = some (false, last)

/-- `Next` with the cold scan at a slot. -/
theorem follows_nextCold (scanned : (tableOutput heap pageData).drained = some rows)
    (delivers : 0 ≤ heap.firstPageId → Delivers ready heap.firstPageId pageData)
    (at_ : MergeAt heap pageData manager rows.length (.cold slot) hot cold executor)
    (enough : slotCount pageData + 1 ≤ fuel) (isReady : ready pool) :
    ready (run (MergeExecutor.nextCold fuel row executor) pool).2 ∧
      Follows heap pageData manager rows
        ((ScanPhase.cold slot).next rows.length (manager.isPageHot heap.firstPageId).1)
        (run (MergeExecutor.nextCold fuel row executor) pool).1 ∧
      (run (MergeExecutor.nextCold fuel row executor) pool).1.2.initialized =
        executor.initialized := by
  obtain ⟨inside, useHot, place⟩ := at_.place
  obtain ⟨coldDone, ran⟩ := MergeExecutor.run_nextCold fuel row pool executor
  rw [at_.coldChild, run_next_child] at ran
  by_cases returns : (manager.isPageHot heap.firstPageId).1 = false ∧ slot < rows.length
  · obtain ⟨isCold, room⟩ := returns
    have keeps : ∀ tuple slotNum, keepsRow (some manager) .cold
        (tuple, { pageId := heap.firstPageId, slotNum }) = true := by
      intro tuple slotNum
      simp only [keepsRow, isCold, Bool.not_false]
    obtain ⟨seen, after, later, found, readyLater, fitsAfter, placeAfter, scanRan⟩ :=
      run_next_row row scanned delivers at_.coldFits place room keeps enough isReady
    rw [scanRan] at ran
    rw [ran, ScanPhase.next, isCold, if_neg Bool.false_ne_true, if_pos room]
    refine ⟨readyLater, ⟨⟨hot, after, ?_⟩, seen, found, rfl⟩, rfl⟩
    exact ⟨at_.hotChild, rfl, at_.hotFits, fitsAfter, room, useHot, placeAfter⟩
  · have nothing : slot = rows.length ∨ ∀ tuple slotNum, keepsRow (some manager) .cold
        (tuple, { pageId := heap.firstPageId, slotNum }) = false := by
      by_cases isCold : (manager.isPageHot heap.firstPageId).1 = false
      · have full : ¬ slot < rows.length := fun room => returns ⟨isCold, room⟩
        exact .inl (by omega)
      · rw [Bool.not_eq_false] at isCold
        refine .inr fun tuple slotNum => ?_
        simp only [keepsRow, isCold, Bool.not_true]
    obtain ⟨last, after, later, readyLater, fitsAfter, scanRan⟩ :=
      run_next_false row scanned delivers at_.coldFits place inside nothing enough isReady
    have ends : (ScanPhase.cold slot).next rows.length (manager.isPageHot heap.firstPageId).1 =
        (none, .ended) := by
      unfold ScanPhase.next
      cases isHot : (manager.isPageHot heap.firstPageId).1 with
      | true => rfl
      | false =>
        have full : ¬ slot < rows.length := fun room => returns ⟨isHot, room⟩
        simp only [Bool.false_eq_true, if_false, if_neg full]
    rw [scanRan] at ran
    rw [ran, ends]
    refine ⟨readyLater, ⟨⟨hot, after, ?_⟩, rfl, last, rfl⟩, rfl⟩
    exact ⟨at_.hotChild, rfl, at_.hotFits, fitsAfter, trivial⟩

/-- `Next` once it is initialized. -/
theorem follows_nextRow (scanned : (tableOutput heap pageData).drained = some rows)
    (delivers : 0 ≤ heap.firstPageId → Delivers ready heap.firstPageId pageData)
    (at_ : MergeAt heap pageData manager rows.length phase hot cold executor)
    (running : phase ≠ .ended) (enough : slotCount pageData + 1 ≤ fuel) (isReady : ready pool) :
    ready (run (MergeExecutor.nextRow fuel row executor) pool).2 ∧
      Follows heap pageData manager rows
        (phase.next rows.length (manager.isPageHot heap.firstPageId).1)
        (run (MergeExecutor.nextRow fuel row executor) pool).1 ∧
      (run (MergeExecutor.nextRow fuel row executor) pool).1.2.initialized =
        executor.initialized := by
  cases phase with
  | ended => exact absurd rfl running
  | cold slot =>
    rw [MergeExecutor.nextRow_cold (.inl at_.place.2.1)]
    exact follows_nextCold row scanned delivers at_ enough isReady
  | hot slot =>
    obtain ⟨inside, useHot, place, coldPlace⟩ := at_.place
    rw [MergeExecutor.run_nextRow_hot at_.hotChild useHot, at_.hotChild, run_next_child]
    by_cases returns : (manager.isPageHot heap.firstPageId).1 = true ∧ slot < rows.length
    · obtain ⟨isHot, room⟩ := returns
      have keeps : ∀ tuple slotNum, keepsRow (some manager) .hot
          (tuple, { pageId := heap.firstPageId, slotNum }) = true := fun _ _ => isHot
      obtain ⟨seen, after, later, found, readyLater, fitsAfter, placeAfter, scanRan⟩ :=
        run_next_row row scanned delivers at_.hotFits place room keeps enough isReady
      rw [scanRan, ScanPhase.next, if_pos isHot, if_pos room]
      refine ⟨readyLater, ⟨⟨after, cold, ?_⟩, seen, found, rfl⟩, rfl⟩
      exact ⟨rfl, at_.coldChild, fitsAfter, at_.coldFits, room, useHot, placeAfter, coldPlace⟩
    · have nothing : slot = rows.length ∨ ∀ tuple slotNum, keepsRow (some manager) .hot
          (tuple, { pageId := heap.firstPageId, slotNum }) = false := by
        by_cases isHot : (manager.isPageHot heap.firstPageId).1 = true
        · have full : ¬ slot < rows.length := fun room => returns ⟨isHot, room⟩
          exact .inl (by omega)
        · exact .inr fun tuple slotNum => Bool.not_eq_true _ ▸ isHot
      obtain ⟨last, after, later, readyLater, fitsAfter, scanRan⟩ :=
        run_next_false row scanned delivers at_.hotFits place inside nothing enough isReady
      -- the hot scan is exhausted, and the cold scan is asked in the same call
      have same : (ScanPhase.hot slot).next rows.length (manager.isPageHot heap.firstPageId).1 =
          (ScanPhase.cold 0).next rows.length (manager.isPageHot heap.firstPageId).1 := by
        unfold ScanPhase.next
        cases isHot : (manager.isPageHot heap.firstPageId).1 with
        | true =>
          have full : ¬ slot < rows.length := fun room => returns ⟨isHot, room⟩
          simp only [if_true, if_neg full]
        | false => simp only [Bool.false_eq_true, if_false, Nat.zero_add]
      rw [scanRan, same]
      exact follows_nextCold last scanned delivers
        ⟨rfl, at_.coldChild, fitsAfter, at_.coldFits, Nat.zero_le _, rfl, coldPlace⟩ enough
        readyLater

/-- A merge that has not been initialized is where its initialization brings it. -/
theorem run_next_fresh (at_ : MergeAt heap pageData manager rows.length (.hot 0) hot cold executor)
    (fresh : executor.initialized = false) :
    ∃ started, MergeAt heap pageData manager rows.length (.hot 0) hot cold started ∧
      started.initialized = true ∧
      run (Executor.next fuel row executor) pool =
        run (MergeExecutor.nextRow fuel row started) pool := by
  have restarted : ∀ {layer : DataLayer} {scan : SeqScanExecutor},
      ScanFits heap pageData (some manager) layer scan →
      scan.iter = placeAt heap pageData 0 → scan.init = scan := by
    rintro layer ⟨table, iter, _, layerManager, targetLayer⟩ fits isPlace
    obtain rfl : table = heap := fits.table
    obtain rfl := isPlace.trans placeAt_zero
    obtain rfl := fits.initialized
    rfl
  obtain ⟨inside, useHot, place, coldPlace⟩ := at_.place
  refine ⟨{ hotExecutor := some hot, coldExecutor := some cold, initialized := true },
    ⟨rfl, rfl, at_.hotFits, at_.coldFits, inside, rfl, place, coldPlace⟩, rfl, ?_⟩
  change run (MergeExecutor.next fuel row executor) pool = _
  rw [MergeExecutor.next, if_neg (by simp [fresh]), run_bind]
  have started : run (MergeExecutor.init fuel executor) pool =
      (some { hotExecutor := some hot, coldExecutor := some cold, initialized := true }, pool) := by
    have scanInit : ∀ scan : SeqScanExecutor,
        run (Executor.init fuel scan) pool = (some scan.init, pool) := fun _ => rfl
    change run (Executor.init fuel executor) pool = _
    rw [MergeExecutor.run_init, at_.hotChild, at_.coldChild, run_init_child, scanInit,
      restarted at_.hotFits place]
    simp only [Option.map_some, run_init_child, scanInit, restarted at_.coldFits coldPlace]
  rw [started]

/-- A drain that is in a phase. -/
structure DrainAt (ready : BufferPool DiskManager → Prop) (heap : TableHeap) (pageData : Bytes)
    (count : Nat) (phase : ScanPhase) (drain : MigratedDrain) : Prop where
  isReady : ready drain.pool
  merge : ∃ hot cold, MergeAt heap pageData drain.manager count phase hot cold drain.executor
  status : drain.status = if phase = .ended then .ended else .running
  initialized : phase = .hot 0 ∨ drain.executor.initialized = true

/-- A migration does not move the scans. -/
theorem DrainAt.setManager {count : Nat} {drain : MigratedDrain}
    (at_ : DrainAt ready heap pageData count phase drain) (manager : LayerManager) :
    DrainAt ready heap pageData count phase (drain.setManager manager) where
  isReady := at_.isReady
  merge := by
    obtain ⟨hot, cold, mergeAt⟩ := at_.merge
    refine ⟨{ hot with layerManager := some manager }, { cold with layerManager := some manager },
      ?_, ?_, { mergeAt.hotFits with manager := rfl }, { mergeAt.coldFits with manager := rfl },
      mergeAt.place⟩
    · simp only [MigratedDrain.setManager, mergeAt.hotChild, Option.map_some]
    · simp only [MigratedDrain.setManager, mergeAt.coldChild, Option.map_some]
  status := at_.status
  initialized := at_.initialized

/-- A call of `Next` follows the phases. -/
theorem DrainAt.next {drain : MigratedDrain}
    (scanned : (tableOutput heap pageData).drained = some rows)
    (delivers : 0 ≤ heap.firstPageId → Delivers ready heap.firstPageId pageData)
    (enough : slotCount pageData + 1 ≤ fuel)
    (at_ : DrainAt ready heap pageData rows.length phase drain) :
    DrainAt ready heap pageData rows.length
        (phase.next rows.length (drain.manager.isPageHot heap.firstPageId).1).2
        (drain.step fuel .next) ∧
      (drain.step fuel .next).manager = drain.manager ∧
      (drain.step fuel .next).returned = drain.returned ++
        (phase.next rows.length (drain.manager.isPageHot heap.firstPageId).1).1.toList.filterMap
          fun slot => rows[slot]? := by
  by_cases isEnded : phase = .ended
  · subst isEnded
    have status := at_.status
    rw [if_pos rfl] at status
    simp only [MigratedDrain.step, status, ScanPhase.next, Option.toList_none, List.filterMap_nil,
      List.append_nil, and_self, and_true]
    exact at_
  · have status := at_.status
    rw [if_neg isEnded] at status
    obtain ⟨hot, cold, mergeAt⟩ := at_.merge
    -- an executor that is not initialized goes on as an initialized one
    obtain ⟨started, startedAt, isInitialized, same⟩ : ∃ started,
        MergeAt heap pageData drain.manager rows.length phase hot cold started ∧
          started.initialized = true ∧
          run (Executor.next fuel drain.row drain.executor) drain.pool =
            run (MergeExecutor.nextRow fuel drain.row started) drain.pool := by
      cases initialized : drain.executor.initialized with
      | true =>
        refine ⟨drain.executor, mergeAt, initialized, ?_⟩
        rw [MergeExecutor.next_initialized _ _ initialized]
      | false =>
        obtain rfl : phase = .hot 0 := by simpa [initialized] using at_.initialized
        exact run_next_fresh drain.row mergeAt initialized
    obtain ⟨readyAfter, ⟨mergeAfter, answers⟩, keeps⟩ :=
      follows_nextRow drain.row scanned delivers startedAt isEnded enough at_.isReady
    simp only [MigratedDrain.step, status, same]
    generalize run (MergeExecutor.nextRow fuel drain.row started) drain.pool = ran
      at readyAfter mergeAfter answers keeps ⊢
    have continues := @ScanPhase.next_ne_ended rows.length
      (drain.manager.isPageHot heap.firstPageId).1 phase
    generalize phase.next rows.length (drain.manager.isPageHot heap.firstPageId).1 = outcome
      at mergeAfter answers continues ⊢
    obtain ⟨slot, after⟩ := outcome
    obtain ⟨⟨answer, executor⟩, later⟩ := ran
    have nowInitialized : executor.initialized = true := keeps.trans isInitialized
    cases slot with
    | none =>
      obtain ⟨rfl, last, rfl⟩ := answers
      exact ⟨⟨readyAfter, mergeAfter, rfl, .inr nowInitialized⟩, rfl, (List.append_nil _).symm⟩
    | some slot =>
      obtain ⟨seen, found, rfl⟩ := answers
      refine ⟨⟨readyAfter, mergeAfter, ?_, .inr nowInitialized⟩, rfl, ?_⟩
      · rw [if_neg (continues slot rfl)]
      · simp only [Option.toList_some, List.filterMap_cons, found, List.filterMap_nil]

/-- A drain with migrations in between follows the phases. -/
theorem DrainAt.run (scanned : (tableOutput heap pageData).drained = some rows)
    (delivers : 0 ≤ heap.firstPageId → Delivers ready heap.firstPageId pageData)
    (enough : slotCount pageData + 1 ≤ fuel) {drain : MigratedDrain}
    (at_ : DrainAt ready heap pageData rows.length phase drain) (calls : List DrainCall) :
    DrainAt ready heap pageData rows.length
        (phase.drain rows.length (layersAt heap.firstPageId drain.manager calls)).2
        (Foundation.run (MigratedDrain.step fuel) drain calls) ∧
      (Foundation.run (MigratedDrain.step fuel) drain calls).returned = drain.returned ++
        (phase.drain rows.length (layersAt heap.firstPageId drain.manager calls)).1.filterMap
          fun slot => rows[slot]? := by
  induction calls generalizing drain phase with
  | nil => exact ⟨at_, (List.append_nil _).symm⟩
  | cons call calls ih =>
    cases call with
    | markPageHot pageId => exact ih (at_.setManager (drain.manager.markPageHot pageId))
    | markPageCold pageId => exact ih (at_.setManager (drain.manager.markPageCold pageId))
    | next =>
      obtain ⟨atNext, sameManager, returned⟩ := at_.next scanned delivers enough
      obtain ⟨atLast, later⟩ := ih atNext
      rw [sameManager] at atLast later
      refine ⟨atLast, later.trans ?_⟩
      rw [returned, List.append_assoc, ← List.filterMap_append]
      rfl

/-- A list is what is at its positions. -/
theorem filterMap_range_getElem? {α : Type} (list : List α) :
    ((List.range list.length).filterMap fun index => list[index]?) = list := by
  induction list with
  | nil => rfl
  | cons head tail ih =>
    rw [List.length_cons, List.range_succ_eq_map, List.filterMap_cons, List.filterMap_map]
    exact congrArg (head :: ·) ih

/-- The rows of some slots are all rows just when the slots are all slots. -/
theorem perm_rows_iff (scanned : (tableOutput heap pageData).drained = some rows)
    {slots : List Nat} (inside : ∀ slot ∈ slots, slot < rows.length) :
    (slots.filterMap fun slot => rows[slot]?).Perm rows ↔ slots.Perm (List.range rows.length) := by
  have slotsOf : ∀ {slots : List Nat}, (∀ slot ∈ slots, slot < rows.length) →
      (slots.filterMap fun slot => rows[slot]?).map (fun row => row.2.slotNum.toNat) = slots := by
    intro slots inside
    rw [List.map_filterMap]
    refine (List.filterMap_congr fun slot member => ?_).trans List.filterMap_some
    obtain ⟨-, -, result, -, found⟩ := getElem?_rows scanned (inside slot member)
    rw [found]
    rfl
  constructor
  · intro perm
    have mapped := perm.map fun row => row.2.slotNum.toNat
    have all := slotsOf fun slot (member : slot ∈ List.range rows.length) => List.mem_range.mp member
    rw [filterMap_range_getElem?] at all
    rwa [slotsOf inside, all] at mapped
  · intro perm
    have filtered := perm.filterMap fun slot => rows[slot]?
    rwa [filterMap_range_getElem?] at filtered

end Scan

/-- A drain of a merge with migrations in between ends, and returns every row of the
table exactly once just when the page of the table is hot at each of the first
`rows.length + 1` calls of `Next` or cold at each of the first `rows.length`. -/
theorem migrated_drain_iff (heap : TableHeap) (manager : LayerManager)
    (ready : BufferPool DiskManager → Prop) (pageData : Bytes)
    (delivers : 0 ≤ heap.firstPageId → Delivers ready heap.firstPageId pageData)
    (pool : BufferPool DiskManager) (isReady : ready pool) (row : Row) (fuel : Nat)
    (enough : 2 * slotCount pageData + 1 < fuel) (rows : List Row)
    (scanned : (run (collect fuel row (SeqScanExecutor.new heap)) pool).1.1 = some rows)
    (calls : List DrainCall) :
    let drain := Foundation.run (MigratedDrain.step fuel) (.start heap manager pool row) calls
    let layers := layersAt heap.firstPageId manager calls
    (2 * rows.length < layers.length → drain.status = .ended) ∧
      (drain.status = .ended → (drain.returned.Perm rows ↔ SameLayer rows.length layers)) := by
  intro drain layers
  have inTable : (tableOutput heap pageData).drained = some rows :=
    (run_collect_unfiltered delivers isReady enough).symm.trans scanned
  have covers : slotCount pageData + 1 ≤ fuel := by omega
  have atStart : DrainAt ready heap pageData rows.length (.hot 0) (.start heap manager pool row) := by
    refine ⟨isReady, ⟨_, _, rfl, rfl, ScanFits.new .., ScanFits.new .., Nat.zero_le _, rfl,
      placeAt_zero.symm, placeAt_zero.symm⟩, rfl, .inl rfl⟩
  obtain ⟨atLast, returned⟩ := atStart.run inTable delivers covers calls
  change drain.returned = [] ++ _ at returned
  rw [List.nil_append] at returned
  have status : drain.status =
      if ((ScanPhase.hot 0).drain rows.length layers).2 = .ended then .ended else .running :=
    atLast.status
  refine ⟨fun many => ?_, fun hasEnded => ?_⟩
  · have ends : ((ScanPhase.hot 0).drain rows.length layers).2 = .ended := by
      refine ScanPhase.ended_of_left_le ?_
      simp only [ScanPhase.left]
      omega
    rw [status, if_pos ends]
  · have ends : ((ScanPhase.hot 0).drain rows.length layers).2 = .ended := by
      by_contra notEnded
      rw [hasEnded, if_neg notEnded] at status
      exact absurd status (by decide)
    rw [returned, perm_rows_iff inTable fun slot member => ScanPhase.lt_of_mem_drain member]
    exact ScanPhase.perm_range_iff ends

/-- Two rows on a page that stays hot. -/
theorem migrated_drain_two_rows :
    let outcome := run (fill [HeapHistory.intPair 12 8, HeapHistory.intPair 20 8])
      (BufferPool.new 1 (DiskManager.new (some {})))
    let calls := [DrainCall.next, .markPageHot 0, .next, .markPageCold 7, .next, .next, .next]
    let drain := Foundation.run (MigratedDrain.step 20)
      (.start outcome.1.2 { hotPageIds := {0} } outcome.2 ({}, {})) calls
    ∃ rows, (run (collect 20 ({}, {}) (SeqScanExecutor.new outcome.1.2)) outcome.2).1.1 = some rows ∧
      drain.returned.Perm rows := by
  intro outcome calls drain
  have settled : (BufferPool.new 1 (DiskManager.new (some {}))).frames.Settled :=
    Frames.settled_empty _ (by decide)
  obtain ⟨isReady, delivers⟩ := delivers_fill settled (by decide +kernel)
    ((fitAll_iff [HeapHistory.intPair 12 8, HeapHistory.intPair 20 8] (List.cons_ne_nil _ _) _ _).mpr
      (by decide))
  have two : ∀ rows,
      (run (collect 20 ({}, {}) (SeqScanExecutor.new outcome.1.2)) outcome.2).1.1 = some rows →
        rows.length = 2 := by
    have counted : (run (collect 20 ({}, {}) (SeqScanExecutor.new outcome.1.2)) outcome.2).1.1.map
        List.length = some 2 := by
      decide +kernel
    intro rows scanned
    rw [scanned] at counted
    exact Option.some.inj counted
  cases scanned : (run (collect 20 ({}, {}) (SeqScanExecutor.new outcome.1.2)) outcome.2).1.1 with
  | none => exact absurd scanned (by decide +kernel)
  | some rows =>
    obtain ⟨ends, once⟩ := migrated_drain_iff outcome.1.2 { hotPageIds := {0} } _ _
      (fun _ => delivers) outcome.2 isReady ({}, {}) 20 (by decide +kernel) rows scanned calls
    rw [two rows scanned] at ends once
    exact ⟨rows, rfl, (once (ends (by decide +kernel))).mpr (.inl (by decide +kernel))⟩

/-- A page that turns cold after its first row gives that row again, and a page that
turns hot after its first row hides the other one. -/
theorem migration_repeats_and_hides :
    let outcome := run (fill [HeapHistory.intPair 12 8, HeapHistory.intPair 20 8])
      (BufferPool.new 1 (DiskManager.new (some {})))
    let drain (manager : LayerManager) (calls : List DrainCall) := Foundation.run
      (MigratedDrain.step 20) (.start outcome.1.2 manager outcome.2 ({}, {})) calls
    let toCold := drain { hotPageIds := {0} } [.next, .markPageCold 0, .next, .next, .next]
    let toHot := drain {} [.next, .markPageHot 0, .next]
    (run (collect 20 ({}, {}) (SeqScanExecutor.new outcome.1.2)) outcome.2).1.1.map
        (List.map Prod.snd) = some [{ pageId := 0, slotNum := 0 }, { pageId := 0, slotNum := 1 }] ∧
      toCold.status = .ended ∧
      toCold.returned.map Prod.snd = [{ pageId := 0, slotNum := 0 }, { pageId := 0, slotNum := 0 },
        { pageId := 0, slotNum := 1 }] ∧
      toHot.status = .ended ∧
      toHot.returned.map Prod.snd = [{ pageId := 0, slotNum := 0 }] := by
  decide +kernel

end MiniDB.Executors
