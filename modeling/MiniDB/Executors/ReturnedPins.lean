import MiniDB.Executors.LazyInit
import MiniDB.Executors.Restart
import MiniDB.Index.TreePins

/-!
# Executor trees return their pins

An index scan keeps the leaf of its iterator pinned. Every other executor gives back
what it pins before `Init` or `Next` returns: a scan, the insertion into a table and its
indexes with the flush of a batch, and what is built over them.
-/

namespace MiniDB.Executors

open Foundation Buffer PoolProgram Storage Index

variable {D : Type} [IssuesIds D]

/-! ## Heaps -/

section Heap

open TableHeap

/-- `GetTuple` gives its pin back. -/
theorem neutral_getTuple (rid : RID) (out : Tuple) : Neutral D (getTuple rid out) := by
  refine .ite (.pure _) ?_
  exact .fetchPage (.pure _) Neutral.getData fun pageData => .pure _

/-- `UpdateTuple` gives its pin back. -/
theorem neutral_updateTuple (tuple : Tuple) (rid : RID) : Neutral D (updateTuple tuple rid) := by
  refine .ite (.pure _) fun pins lent => ?_
  refine (fetchPage_lends rid.pageId).bind fun answer => ?_
  cases answer with
  | none => exact .pure fun _ lends => lends
  | some frame =>
    refine (Neutral.getData frame _ _).bind fun pageData => ?_
    refine (Neutral.putData frame _ _ _).bind fun _ => ?_
    refine (Neutral.setDirty frame _ _).bind fun _ => ?_
    exact (unpinPage_lends (List.Perm.refl _) true).bind fun _ => .pure fun _ lends => lends

/-- `DeleteTuple` gives its pin back. -/
theorem neutral_deleteTuple (rid : RID) : Neutral D (deleteTuple rid) := by
  refine .ite (.pure _) ?_
  exact .fetchPage (.pure _) Neutral.setDirty fun _ => .pure _

/-- The constructor of a heap gives the pin of its page back. -/
theorem neutral_newHeap : Neutral D TableHeap.new := by
  intro pins lent
  refine newPage_lends.bind fun answer => ?_
  cases answer with
  | none => exact .pure fun _ lends => lends
  | some created =>
    refine (Neutral.getData created.2 _ _).bind fun pageData => ?_
    refine (Neutral.putData created.2 _ _ _).bind fun _ => ?_
    exact (unpinPage_lends (List.Perm.refl _) true).bind fun _ => .pure fun _ lends => lends

/-- `GetSlotCount` gives its pin back. -/
theorem neutral_getSlotCount (pageId : Int) : Neutral D (getSlotCount pageId) := by
  refine .ite (.pure _) ?_
  exact .fetchPage (.pure _) Neutral.getData fun pageData => .pure _

variable {pins : Int → Nat} {lent : List (Int × Nat)}

/-- The end of `InsertTuple` releases the page that it was given. -/
theorem storeAt_lends (heap : TableHeap) (frame : Nat) (tuple : Tuple) :
    LeadsTo (D := D) (BufferPool.Lends pins ((heap.lastPageId, frame) :: lent))
      (heap.storeAt frame tuple) fun _ => BufferPool.Lends pins lent := by
  refine (Neutral.getData frame _ _).bind fun pageData => ?_
  refine (Neutral.putData frame _ _ _).bind fun _ => ?_
  refine (Neutral.setDirty frame _ _).bind fun _ => ?_
  exact (unpinPage_lends (List.Perm.refl ((heap.lastPageId, frame) :: lent)) true).bind fun _ =>
    .pure fun _ lends => lends

/-- The end of an insertion gives back the pin that it was lent. -/
theorem insertInto_lends (heap : TableHeap) (frame : Nat) (tuple : Tuple) :
    LeadsTo (D := D) (BufferPool.Lends pins ((heap.lastPageId, frame) :: lent))
      (heap.insertInto frame tuple) fun _ => BufferPool.Lends pins lent := by
  refine (Neutral.getData frame _ _).bind fun pageData => .ite ?_ (storeAt_lends heap frame tuple)
  refine (unpinPage_lends (List.Perm.refl ((heap.lastPageId, frame) :: lent)) false).bind
    fun _ => ?_
  refine newPage_lends.bind fun answer => ?_
  cases answer with
  | none => exact .pure fun _ lends => lends
  | some created =>
    exact (Neutral.putData created.2 _ _ _).bind fun _ =>
      storeAt_lends { heap with lastPageId := created.1 } created.2 tuple

/-- `InsertTuple` gives its pins back, of the new page too. -/
theorem neutral_insertTuple (heap : TableHeap) (tuple : Tuple) :
    Neutral D (heap.insertTuple tuple) := by
  intro pins lent
  refine (fetchPage_lends heap.lastPageId).bind fun answer => ?_
  cases answer with
  | some frame => exact insertInto_lends heap frame tuple
  | none =>
    refine newPage_lends.bind fun answer => ?_
    cases answer with
    | none => exact .pure fun _ lends => lends
    | some created =>
      refine (Neutral.putData created.2 _ _ _).bind fun _ => ?_
      exact insertInto_lends { firstPageId := _, lastPageId := created.1 } created.2 tuple

/-- `operator++` of the iterator keeps no pin. -/
theorem neutral_advance (iterator : TableIterator) : Neutral D iterator.advance :=
  .ite (.pure _) ((neutral_getSlotCount _).bind fun _ => .pure _)

/-- `operator*` of the iterator keeps no pin. -/
theorem neutral_deref (iterator : TableIterator) : Neutral D iterator.deref :=
  .ite (.pure _) ((neutral_getTuple _ _).bind fun _ => .pure _)

end Heap

/-! ## Executors -/

/-- `Init` and `Next` give back what they pin. -/
structure NeutralExecutor (D : Type) [IssuesIds D] (E : Type) [Executor E] : Prop where
  init : ∀ fuel (executor : E), Neutral D (Executor.init fuel executor)
  next : ∀ fuel row (executor : E), Neutral D (Executor.next fuel row executor)

variable {E : Type} [Executor E]

/-- An executor that initializes itself, from its `Init` and its `Next` after that. -/
theorem NeutralExecutor.of_lazy {isInitialized : E → Bool}
    {body : Nat → Row → E → PoolProgram (Option (Bool × Row) × E)}
    (lazy : LazyNext isInitialized body)
    (init : ∀ fuel (executor : E), Neutral D (Executor.init fuel executor))
    (next : ∀ fuel row (executor : E), Neutral D (body fuel row executor)) :
    NeutralExecutor D E where
  init := init
  next fuel row executor := by
    rw [lazy]
    refine .ite (next fuel row executor) ((init fuel executor).bind fun started => ?_)
    cases started with
    | none => exact .pure _
    | some started => exact next fuel row started

/-- An executor whose calls keep no pin is drained without one. -/
theorem NeutralExecutor.drain (neutral : NeutralExecutor D E) (fuel : Nat) (row : Row)
    (executor : E) : Neutral D (drain fuel row executor) := by
  induction fuel generalizing row executor with
  | zero => exact .pure _
  | succ fuel ih =>
    refine (neutral.next (fuel + 1) row executor).bind fun outcome => ?_
    obtain ⟨answer, executor⟩ := outcome
    rcases answer with _ | ⟨_ | _, row⟩
    · exact .pure _
    · exact .pure _
    · exact (ih row executor).bind fun _ => .pure _

/-- A scan of a table, with or without a filter. -/
theorem neutral_seqScan : NeutralExecutor D SeqScanExecutor where
  init fuel executor := .pure _
  next fuel row executor := by
    suffices loop : ∀ executor, Neutral D (SeqScanExecutor.nextLoop fuel row executor) from loop _
    clear executor
    intro executor
    induction fuel generalizing row executor with
    | zero => exact .pure _
    | succ fuel ih =>
      refine .ite (.pure _) ((neutral_deref executor.iter).bind fun read => ?_)
      cases read with
      | none => exact .pure _
      | some tuple =>
        exact (neutral_advance executor.iter).bind fun iter => .ite (ih _ _) (.pure _)

omit [Executor E] in
theorem neutral_countRow (executor : InsertExecutor E) : Neutral D executor.countRow :=
  .ite (Neutral.flushAllPages.bind fun _ => .pure _) (.pure _)

/-- The insertions into the indexes keep no pin. -/
theorem neutral_insertEach (fuel : Nat) (key : Int) (rid : RID) (indexes : List BPlusTree) :
    Neutral D (InsertExecutor.insertEach fuel key rid indexes) := by
  induction indexes with
  | nil => exact .pure _
  | cons index indexes ih =>
    refine (BPlusTree.neutral_insert fuel key rid index).bind fun outcome => ?_
    obtain ⟨answer, index⟩ := outcome
    cases answer with
    | none => exact .pure _
    | some inserted => exact ih.bind fun _ => .pure _

omit [Executor E] in
/-- The insertion of a row keeps no pin. -/
theorem neutral_insertRow (fuel : Nat) (row : Row) (tuple : Tuple) (executor : InsertExecutor E) :
    Neutral D (executor.insertRow fuel row tuple) := by
  refine (neutral_insertTuple executor.table tuple).bind fun outcome => ?_
  obtain ⟨answer, table⟩ := outcome
  cases answer with
  | none => exact .pure _
  | some rid =>
    refine (neutral_countRow _).bind fun executor => ?_
    refine (neutral_insertEach fuel _ rid executor.indexes).bind fun outcome => ?_
    cases outcome with
    | none => exact .pure _
    | some indexes => exact .pure _

/-- Nor does taking the next tuple. -/
theorem neutral_takeTuple (neutral : NeutralExecutor D E) (fuel : Nat)
    (executor : InsertExecutor E) : Neutral D (executor.takeTuple fuel) := by
  unfold InsertExecutor.takeTuple
  cases executor.childExecutor with
  | none =>
    dsimp only
    cases executor.directInsertTuples[executor.directInsertIndex]? with
    | none => exact .pure _
    | some tuple => exact .pure _
  | some child =>
    refine (neutral.next fuel ({}, {}) child).bind fun outcome => ?_
    obtain ⟨answer, child⟩ := outcome
    cases answer with
    | none => exact .pure _
    | some row => exact .pure _

/-- The insertion of the rows of a child or of a list into a table and its indexes. -/
theorem neutral_insert (neutral : NeutralExecutor D E) : NeutralExecutor D (InsertExecutor E) := by
  refine .of_lazy InsertExecutor.next_lazy (fun fuel executor => ?_) fun fuel row executor => ?_
  · change Neutral D (InsertExecutor.init fuel executor)
    unfold InsertExecutor.init
    cases executor.childExecutor with
    | none => exact .pure _
    | some child =>
      refine (neutral.init fuel child).bind fun started => ?_
      cases started with
      | none => exact .pure _
      | some child => exact .pure _
  · refine .ite (.pure _) ((neutral_takeTuple neutral fuel executor).bind fun outcome => ?_)
    obtain ⟨answer, executor⟩ := outcome
    rcases answer with _ | _ | tuple
    · exact .pure _
    · exact .pure _
    · exact neutral_insertRow fuel row tuple executor

section Merge

variable {Hot Cold : Type} [Executor Hot] [Executor Cold]

theorem neutral_initChild (neutral : NeutralExecutor D E) (fuel : Nat) (child : Option E) :
    Neutral D (MergeExecutor.initChild fuel child) := by
  cases child with
  | none => exact .pure _
  | some child => exact (neutral.init fuel child).bind fun _ => .pure _

omit [Executor Hot] in
theorem neutral_nextCold (cold : NeutralExecutor D Cold) (fuel : Nat) (row : Row)
    (executor : MergeExecutor Hot Cold) : Neutral D (executor.nextCold fuel row) := by
  unfold MergeExecutor.nextCold
  cases executor.coldExecutor with
  | none => exact .pure _
  | some child =>
    refine (cold.next fuel row child).bind fun outcome => ?_
    obtain ⟨answer, child⟩ := outcome
    rcases answer with _ | ⟨_ | _, row⟩ <;> exact .pure _

/-- A merge of two such executors. -/
theorem neutral_merge (hot : NeutralExecutor D Hot) (cold : NeutralExecutor D Cold) :
    NeutralExecutor D (MergeExecutor Hot Cold) := by
  refine .of_lazy MergeExecutor.next_lazy (fun fuel executor => ?_) fun fuel row executor => ?_
  · refine (neutral_initChild hot fuel executor.hotExecutor).bind fun hotExecutor => ?_
    cases hotExecutor with
    | none => exact .pure _
    | some hotExecutor =>
      refine (neutral_initChild cold fuel executor.coldExecutor).bind fun coldExecutor => ?_
      cases coldExecutor <;> exact .pure _
  · unfold MergeExecutor.nextRow
    split
    · next child usesHot present =>
      refine (hot.next fuel row child).bind fun outcome => ?_
      obtain ⟨answer, child⟩ := outcome
      rcases answer with _ | ⟨_ | _, row⟩
      · exact .pure _
      · exact neutral_nextCold cold fuel row _
      · exact .pure _
    · exact neutral_nextCold cold fuel row executor

end Merge

section Join

variable {Left Right : Type} [Executor Left] [Executor Right]

omit [Executor Right] in
theorem neutral_nextLeft (left : NeutralExecutor D Left) (fuel : Nat)
    (executor : JoinExecutor Left Right) : Neutral D (executor.nextLeft fuel) := by
  refine (left.next fuel _ executor.left).bind fun outcome => ?_
  obtain ⟨answer, child⟩ := outcome
  cases answer <;> exact .pure _

/-- The loop of a join of such executors. -/
theorem neutral_joinLoop (left : NeutralExecutor D Left) (right : NeutralExecutor D Right)
    (fuel : Nat) (row : Row) (executor : JoinExecutor Left Right) :
    Neutral D (JoinExecutor.nextLoop fuel row executor) := by
  induction fuel generalizing executor with
  | zero => exact .pure _
  | succ fuel ih =>
    refine .ite ((right.next (fuel + 1) ({}, {}) executor.right).bind fun outcome => ?_) (.pure _)
    obtain ⟨answer, child⟩ := outcome
    rcases answer with _ | ⟨_ | _, rightRow⟩
    · exact .pure _
    · refine (right.init (fuel + 1) child).bind fun started => ?_
      cases started with
      | none => exact .pure _
      | some child =>
        refine (neutral_nextLeft left (fuel + 1) _).bind fun moved => ?_
        cases moved with
        | none => exact .pure _
        | some executor => exact ih executor
    · dsimp only
      split <;> exact .pure _

/-- A join of two such executors. -/
theorem neutral_join (left : NeutralExecutor D Left) (right : NeutralExecutor D Right) :
    NeutralExecutor D (JoinExecutor Left Right) := by
  refine .of_lazy JoinExecutor.next_lazy (fun fuel executor => ?_)
    fun fuel row executor => neutral_joinLoop left right fuel row executor
  refine (left.init fuel executor.left).bind fun leftStarted => ?_
  cases leftStarted with
  | none => exact .pure _
  | some leftChild =>
    refine (right.init fuel executor.right).bind fun rightStarted => ?_
    cases rightStarted with
    | none => exact .pure _
    | some rightChild => exact neutral_nextLeft left fuel _

end Join

/-- An aggregation over such an executor. -/
theorem neutral_aggregation (child : NeutralExecutor D E) :
    NeutralExecutor D (AggregationExecutor E) := by
  refine .of_lazy AggregationExecutor.next_lazy (fun fuel executor => ?_) fun _ _ _ => .pure _
  refine (child.init fuel executor.child).bind fun started => ?_
  cases started with
  | none => exact .pure _
  | some started =>
    refine (child.drain fuel ({}, {}) started).bind fun outcome => ?_
    obtain ⟨rows, started⟩ := outcome
    cases rows with
    | none => exact .pure _
    | some rows =>
      dsimp only
      split <;> exact .pure _

/-- A sort over such an executor. -/
theorem neutral_sort {sort : StdSort} (child : NeutralExecutor D E) :
    NeutralExecutor D (SortExecutor sort E) where
  init fuel executor := by
    refine (child.init fuel executor.child).bind fun started => ?_
    cases started with
    | none => exact .pure _
    | some started =>
      refine (child.drain fuel ({}, {}) started).bind fun outcome => ?_
      obtain ⟨rows, started⟩ := outcome
      cases rows with
      | none => exact .pure _
      | some rows =>
        dsimp only
        split <;> exact .pure _
  next _ _ _ := .pure _

/-! ## Trees of executors -/

namespace ExecutorTree

/-- No executor of the tree scans an index. -/
def WithoutIndexScan : ExecutorTree → Prop
  | seqScan _ _ _ => True
  | indexScan _ _ => False
  | insert _ _ child => child.WithoutIndexScan
  | insertTuples _ _ _ => True
  | merge hot cold _ _ => hot.WithoutIndexScan ∧ cold.WithoutIndexScan
  | join left right => left.WithoutIndexScan ∧ right.WithoutIndexScan
  | aggregation child _ _ => child.WithoutIndexScan
  | ExecutorTree.sort child _ => child.WithoutIndexScan

/-- A tree of executors keeps no pin, if it has no index scan. -/
theorem neutral (sort : StdSort) (tree : ExecutorTree) (without : tree.WithoutIndexScan) :
    NeutralExecutor D (tree.Exec sort) := by
  induction tree with
  | seqScan table layerManager targetLayer => exact neutral_seqScan
  | indexScan index table => exact absurd without id
  | insert table indexes child ih => exact neutral_insert (ih without)
  | insertTuples table indexes tuples => exact neutral_insert neutral_seqScan
  | merge hot cold hasHot hasCold hotIH coldIH =>
    exact neutral_merge (hotIH without.1) (coldIH without.2)
  | join left right leftIH rightIH => exact neutral_join (leftIH without.1) (rightIH without.2)
  | aggregation child aggType keyOffset ih => exact neutral_aggregation (ih without)
  | sort child keyOffset ih => exact neutral_sort (ih without)

end ExecutorTree

/-- Nor does any sequence of calls. -/
theorem NeutralExecutor.afterCalls (neutral : NeutralExecutor D E) (calls : List Call)
    (executor : E) : Neutral D (afterCalls calls executor) := by
  induction calls generalizing executor with
  | nil => exact .pure _
  | cons call calls ih =>
    cases call with
    | init fuel =>
      refine (neutral.init fuel executor).bind fun started => ?_
      cases started with
      | none => exact ih executor
      | some started => exact ih started
    | next fuel row => exact (neutral.next fuel row executor).bind fun outcome => ih outcome.2

end MiniDB.Executors
