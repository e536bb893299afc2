import MiniDB.Storage.HeapRuns

/-!
# Deleting a tuple

`DeleteTuple` marks the page of the tuple as dirty and leaves its bytes alone, so the tuple
stays: `GetTuple` reads it, scans stop at it, and it can be deleted again. A deletion does what
it is for where nothing is left to be done.
-/

namespace MiniDB.Storage

open Foundation Buffer Frames PoolProgram

namespace TableIterator

variable {D : Type} [Disk D] {pool : BufferPool D} {stop iterator : TableIterator}

/-- `operator++` stays on the page. -/
theorem pageId_advance (iterator : TableIterator) (pool : BufferPool D) :
    (run iterator.advance pool).1.currentRid.pageId = iterator.currentRid.pageId := by
  unfold advance
  split
  · rfl
  · simp only [run_bind, run_pure]

/-- A loop stays on the page on which it begins. -/
theorem pageId_visit {fuel : Nat} {rids : List RID}
    (visited : (run (visit stop fuel iterator) pool).1 = some rids) {rid : RID} (member : rid ∈ rids) :
    rid.pageId = iterator.currentRid.pageId := by
  induction fuel generalizing iterator pool rids with
  | zero => cases visited
  | succ fuel ih =>
    unfold visit at visited
    split at visited
    · obtain rfl := Option.some.inj visited
      cases member
    · simp only [run_bind, run_pure] at visited
      obtain ⟨others, later, rfl⟩ := Option.map_eq_some_iff.mp visited
      rcases List.mem_cons.mp member with rfl | member
      · rfl
      · rw [ih later member, pageId_advance]

/-- One round of a loop that ends with `End()`. -/
theorem visit_slot (pageId slotNum : Int) (fuel : Nat) (pool : BufferPool D) :
    (run (visit TableHeap.finish (fuel + 1) { currentRid := { pageId, slotNum }, isEnd := false })
        pool).1 =
      (run (visit TableHeap.finish fuel
        { currentRid := { pageId, slotNum := slotNum + 1 }
          isEnd := decide ((run (TableHeap.getSlotCount pageId) pool).1 ≤ slotNum + 1) })
        (run (TableHeap.getSlotCount pageId) pool).2).1.map fun rids => { pageId, slotNum } :: rids := by
  rw [visit, if_neg (by simp [equals, TableHeap.finish])]
  simp only [run_bind, run_pure, advance, Bool.false_eq_true, if_false]

/-- A loop reaches every slot of its page, as long as the page has the same number of them. -/
theorem visit_reaches {counted : BufferPool D → Prop} {pageId : Int} {slots : Nat}
    (counts : ∀ pool, counted pool → (run (TableHeap.getSlotCount pageId) pool).1 = slots ∧
      counted (run (TableHeap.getSlotCount pageId) pool).2) (remaining : Nat) {slot : Nat}
    (below : slot + remaining + 1 = slots) (isCounted : counted pool) :
    ∃ fuel rids, (run (visit TableHeap.finish fuel
        { currentRid := { pageId, slotNum := slot }, isEnd := false }) pool).1 = some rids ∧
      ∀ target : Nat, slot ≤ target → target < slots → { pageId, slotNum := target } ∈ rids := by
  induction remaining generalizing slot pool with
  | zero =>
    obtain ⟨answer, -⟩ := counts pool isCounted
    refine ⟨2, [{ pageId, slotNum := slot }], ?_, fun target lower upper => ?_⟩
    · have ends : (slots : Int) ≤ slot + 1 := by omega
      rw [visit_slot, answer, decide_eq_true ends]
      rfl
    · obtain rfl : target = slot := by omega
      exact List.mem_singleton.mpr rfl
  | succ remaining ih =>
    obtain ⟨answer, countedAfter⟩ := counts pool isCounted
    obtain ⟨fuel, rids, visited, reaches⟩ := @ih _ (slot + 1) (by omega) countedAfter
    refine ⟨fuel + 1, { pageId, slotNum := slot } :: rids, ?_, fun target lower upper => ?_⟩
    · have goesOn : ¬ (slots : Int) ≤ slot + 1 := by omega
      rw [Int.natCast_add, Int.natCast_one] at visited
      rw [visit_slot, answer, decide_eq_false goesOn, visited]
      rfl
    · rcases Nat.eq_or_lt_of_le lower with rfl | later
      · exact List.mem_cons_self
      · exact List.mem_cons_of_mem _ (reaches target later upper)

end TableIterator

namespace TableHeap

variable {pool : BufferPool IdealDisk} {heap : TableHeap} {rid : RID} {pageId : Int}

/-- What is answered where the page is brought. -/
theorem Visits.answer_brought {Result : Type} {refused brought : Result} {data : Bytes}
    {outcome : Result × BufferPool IdealDisk}
    (visits : Visits pool pageId refused brought data outcome) (brings : pool.Brings pageId) :
    outcome.1 = brought ∧ Revisited pool outcome.2 pageId data :=
  (visits.resolve_left fun refuses => refuses.1 brings).2

/-- What is answered where it is not. -/
theorem Visits.answer_refused {Result : Type} {refused brought : Result} {data : Bytes}
    {outcome : Result × BufferPool IdealDisk}
    (visits : Visits pool pageId refused brought data outcome) (refuses : ¬ pool.Brings pageId) :
    outcome.1 = refused :=
  (visits.resolve_right fun brings => refuses brings.1).2.1

/-- `DeleteTuple` returns true for every RID that is valid if the pool brings its page. -/
theorem deleteTuple_eq_true_iff (tidy : pool.Tidy) :
    (run (deleteTuple rid) pool).1 = true ↔ rid.isValid = true ∧ pool.Brings rid.pageId := by
  rw [← tidy.fetchPage_ne_none_iff]
  unfold deleteTuple
  cases valid : rid.isValid with
  | false => simp
  | true =>
    simp only [Bool.true_eq_false, if_false, run_bind, run_fetchPage]
    cases (pool.fetchPage rid.pageId).1 with
    | none => simp
    | some frame => simp

/-- `GetTuple` answers alike in two pools that bring and show the same. -/
theorem getTuple_congr {after : BufferPool IdealDisk} (inOrder : pool.InOrder)
    (inOrderAfter : after.InOrder) (valid : rid.isValid = true) (issued : pool.Issued rid.pageId)
    (issuedAfter : after.Issued rid.pageId) (brings : after.Brings rid.pageId ↔ pool.Brings rid.pageId)
    (shown : after.frames.shown rid.pageId = pool.frames.shown rid.pageId) (out : Tuple) :
    (run (getTuple rid out) after).1 = (run (getTuple rid out) pool).1 := by
  have before := visits_getTuple inOrder valid issued out
  have afterwards := visits_getTuple inOrderAfter valid issuedAfter out
  by_cases brought : pool.Brings rid.pageId
  · rw [(before.answer_brought brought).1, (afterwards.answer_brought (brings.mpr brought)).1, shown]
  · rw [before.answer_refused brought,
      afterwards.answer_refused fun broughtAfter => brought (brings.mp broughtAfter)]

end TableHeap

namespace HeapRun

/-- The RID of a tuple that was inserted and not deleted. -/
def Live (state : HeapRun) (rid : RID) : Prop :=
  rid ∈ state.stored.map Prod.fst ∧ rid ∉ state.deleted

instance (state : HeapRun) : DecidablePred state.Live := fun _ => inferInstanceAs (Decidable (_ ∧ _))

/-- What `DeleteTuple` is for. -/
structure DeletesOne (state : HeapRun) (rid : RID) : Prop where
  answers : (run (TableHeap.deleteTuple rid) state.pool).1 = true ↔ state.Live rid
  unread : (run (TableHeap.deleteTuple rid) state.pool).1 = true → ∀ out, ∃ got,
    (run (TableHeap.getTuple rid out) (run (TableHeap.deleteTuple rid) state.pool).2).1 =
      some (false, got)
  unscanned : (run (TableHeap.deleteTuple rid) state.pool).1 = true → ∀ fuel rids,
    (run (TableIterator.visit TableHeap.finish fuel state.heap.begin)
      (run (TableHeap.deleteTuple rid) state.pool).2).1 = some rids → rid ∉ rids
  others : (run (TableHeap.deleteTuple rid) state.pool).1 = true →
    ∀ other, state.Live other → other ≠ rid → ∀ out,
      (run (TableHeap.getTuple other out) (run (TableHeap.deleteTuple rid) state.pool).2).1 =
        (run (TableHeap.getTuple other out) state.pool).1

/-- There is nothing left to delete: a tuple that `GetTuple` rejects already, off the page of
the scans, or no tuple at a RID whose page the pool does not bring. -/
structure NothingLeft (state : HeapRun) (rid : RID) : Prop where
  brought : rid.isValid = true → state.pool.Brings rid.pageId → state.Live rid ∧
    TableHeap.Rejected (state.pool.frames.shown rid.pageId) rid.slotNum ∧
    rid.pageId ≠ state.heap.firstPageId
  refused : ¬ state.pool.Brings rid.pageId → ¬ state.Live rid

namespace WellKept

variable {state : HeapRun} {rid : RID} (kept : state.WellKept)

include kept

/-- The RID of a live tuple is valid, on a page of the heap and below its number of slots. -/
theorem of_live (live : state.Live rid) :
    rid.pageId ∈ state.pages ∧ rid.isValid = true ∧ 0 ≤ rid.slotNum ∧
      rid.slotNum < getNSlots (state.pool.frames.shown rid.pageId) := by
  obtain ⟨entry, member, rfl⟩ := List.mem_map.mp live.1
  have onPage := kept.onPages member
  have nonneg := kept.nonneg onPage
  obtain ⟨lower, upper⟩ := kept.slots member
  rw [(kept.consistent onPage).slots]
  exact ⟨onPage, by simp [RID.isValid, nonneg, lower], lower, upper⟩

variable {after : BufferPool IdealDisk}

/-- Every live tuple reads as before after a page of the heap was visited and left as it is. -/
theorem reads_after (brings : state.pool.Brings rid.pageId)
    (revisited : Revisited state.pool after rid.pageId (state.pool.frames.shown rid.pageId))
    {other : RID} (live : state.Live other) (out : Tuple) :
    (run (TableHeap.getTuple other out) after).1 =
      (run (TableHeap.getTuple other out) state.pool).1 := by
  obtain ⟨otherMember, valid, -⟩ := kept.of_live live
  have issued := kept.issued_page otherMember
  apply TableHeap.getTuple_congr kept.inOrder revisited.inOrder valid issued
  · unfold BufferPool.Issued
    rw [revisited.next_eq]
    exact issued
  · exact revisited.brings_iff brings revisited.table other.pageId
  · exact (revisited.keeps issued (kept.saved otherMember)).2

/-- A scan stops at every slot of the first page. -/
theorem scanned (live : state.Live rid) (onFirst : rid.pageId = state.heap.firstPageId)
    (brings : state.pool.Brings rid.pageId)
    (revisited : Revisited state.pool after rid.pageId (state.pool.frames.shown rid.pageId)) :
    ∃ fuel rids, (run (TableIterator.visit TableHeap.finish fuel state.heap.begin) after).1 =
      some rids ∧ rid ∈ rids := by
  obtain ⟨member, valid, lower, upper⟩ := kept.of_live live
  have nonneg := kept.nonneg member
  have consistent := kept.consistent member
  have issued := kept.issued_page member
  let counted : BufferPool IdealDisk → Prop := fun pool => pool.InOrder ∧
    pool.Issued rid.pageId ∧ pool.Brings rid.pageId ∧
    pool.frames.shown rid.pageId = state.pool.frames.shown rid.pageId
  have counts : ∀ pool, counted pool →
      (run (TableHeap.getSlotCount rid.pageId) pool).1 = (tuplesOn state.stored rid.pageId).length ∧
        counted (run (TableHeap.getSlotCount rid.pageId) pool).2 := by
    rintro pool ⟨inOrder, issuedHere, bringsHere, shown⟩
    obtain ⟨answer, again⟩ :=
      (TableHeap.visits_getSlotCount inOrder nonneg issuedHere).answer_brought bringsHere
    refine ⟨?_, again.inOrder, ?_, ?_, again.data.trans shown⟩
    · rw [answer, shown, consistent.slots]
    · unfold BufferPool.Issued
      rw [again.next_eq]
      exact issuedHere
    · exact (again.brings_iff bringsHere again.table rid.pageId).mpr bringsHere
  have countedAfter : counted after := by
    refine ⟨revisited.inOrder, ?_, ?_, revisited.data⟩
    · unfold BufferPool.Issued
      rw [revisited.next_eq]
      exact issued
    · exact (revisited.brings_iff brings revisited.table rid.pageId).mpr brings
  rw [consistent.slots] at upper
  obtain ⟨fuel, rids, visited, reaches⟩ := @TableIterator.visit_reaches _ _ _ _ _ _ counts
    ((tuplesOn state.stored rid.pageId).length - 1) 0 (by omega) countedAfter
  have here := reaches rid.slotNum.toNat (Nat.zero_le _) (by omega)
  rw [Int.toNat_of_nonneg lower] at here
  refine ⟨fuel, rids, ?_, here⟩
  rw [← visited, TableHeap.begin, ← onFirst, if_pos nonneg,
    decide_eq_false (Int.not_lt.mpr nonneg)]
  rfl

/-- `DeleteTuple` deletes just where nothing is left to be deleted. -/
theorem deletesOne_iff (rid : RID) : state.DeletesOne rid ↔ state.NothingLeft rid := by
  have answer := @TableHeap.deleteTuple_eq_true_iff _ rid kept.inOrder.tidy
  constructor
  · intro deletes
    refine ⟨fun valid brings => ?_, fun refuses live => ?_⟩
    · have done := answer.mpr ⟨valid, brings⟩
      have live := deletes.answers.mp done
      obtain ⟨member, -, lower, upper⟩ := kept.of_live live
      have issued := kept.issued_page member
      obtain ⟨-, revisited⟩ :=
        (TableHeap.visits_deleteTuple kept.inOrder valid issued).answer_brought brings
      refine ⟨live, ?_, fun onFirst => ?_⟩
      · obtain ⟨got, unread⟩ := deletes.unread done {}
        rw [kept.reads_after brings revisited live,
          ((TableHeap.visits_getTuple kept.inOrder valid issued {}).answer_brought brings).1] at unread
        rw [TableHeap.readTuple_eq lower upper] at unread
        split_ifs at unread with rejected undefined
        · exact rejected
        · simp at unread
      · obtain ⟨fuel, rids, visited, scanned⟩ := kept.scanned live onFirst brings revisited
        exact deletes.unscanned done fuel rids visited scanned
    · exact refuses (answer.mp (deletes.answers.mpr live)).2
  · intro nothing
    by_cases done : rid.isValid = true ∧ state.pool.Brings rid.pageId
    · obtain ⟨valid, brings⟩ := done
      obtain ⟨live, rejected, elsewhere⟩ := nothing.brought valid brings
      obtain ⟨member, -, lower, upper⟩ := kept.of_live live
      have issued := kept.issued_page member
      obtain ⟨-, revisited⟩ :=
        (TableHeap.visits_deleteTuple kept.inOrder valid issued).answer_brought brings
      refine ⟨iff_of_true (answer.mpr ⟨valid, brings⟩) live, fun _ out => ⟨out, ?_⟩,
        fun _ fuel rids visited scanned => ?_, fun _ other otherLive _ out => ?_⟩
      · rw [kept.reads_after brings revisited live,
          ((TableHeap.visits_getTuple kept.inOrder valid issued out).answer_brought brings).1,
          TableHeap.readTuple_eq lower upper, if_pos rejected]
      · have onFirst := TableIterator.pageId_visit visited scanned
        unfold TableHeap.begin at onFirst
        have nonneg := kept.nonneg member
        dsimp only at onFirst
        split_ifs at onFirst
        · exact elsewhere onFirst
        · simp only at onFirst
          omega
      · exact kept.reads_after brings revisited otherLive out
    · have fails : ¬ (run (TableHeap.deleteTuple rid) state.pool).1 = true := mt answer.mp done
      have dead : ¬ state.Live rid := fun live =>
        nothing.refused (fun brings => done ⟨(kept.of_live live).2.1, brings⟩) live
      exact ⟨iff_of_false fails dead, fun succeeds => absurd succeeds fails,
        fun succeeds => absurd succeeds fails, fun succeeds => absurd succeeds fails⟩

end WellKept

/-- Along every run a deletion does what it is for just where nothing is left to be deleted. -/
theorem deletes_iff {state : HeapRun} (starts : state.Starts) {calls : List SharedCall}
    (admitted : EachCall step Admits state calls) :
    Throughout step (fun state => ∀ rid, state.DeletesOne rid ↔ state.NothingLeft rid) state calls :=
  starts.throughout admitted fun _ kept => kept.deletesOne_iff

/-- A tuple of no bytes behind one of 100, on the second page. -/
def emptyOnSecond : List SharedCall :=
  [.operation (.insertTuple { size := 4020 }), .operation (.insertTuple { size := 100 }),
    .operation (.insertTuple {})]

theorem deletes_iff_empty :
    (Foundation.run step inTwoFrames emptyOnSecond).DeletesOne { pageId := 1, slotNum := 1 } := by
  have admitted : EachCall step Admits inTwoFrames emptyOnSecond :=
    ⟨trivial, trivial, trivial, trivial⟩
  refine ((deletes_iff starts_inTwoFrames admitted).last _).mpr
    ⟨fun _ _ => ?_, fun refuses => absurd (.inl ?_) refuses⟩
  · decide +kernel
  · decide +kernel

/-- The one tuple of a heap is read after its deletion. -/
theorem read_after_deletion :
    ¬ ∀ (state : HeapRun) (calls : List SharedCall), state.Starts →
      EachCall step Admits state calls → ∀ rid, (Foundation.run step state calls).DeletesOne rid := by
  intro deletes
  have deleted := deletes inTwoFrames [.operation (.insertTuple (TableHeap.intTuple 12))]
    starts_inTwoFrames ⟨trivial, trivial⟩ { pageId := 0, slotNum := 0 }
  obtain ⟨got, unread⟩ := deleted.unread (by decide +kernel) {}
  have answer : ((PoolProgram.run (TableHeap.getTuple _ {}) _).1.map Prod.fst) = some false :=
    congrArg (Option.map Prod.fst) unread
  revert answer
  decide +kernel

end HeapRun

end MiniDB.Storage
