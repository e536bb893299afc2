import MiniDB.Index.BPlusTree

/-!
# The latch of the tree

`GetValue`, `Insert`, `Remove` and `Begin` hold the tree's latch while they work.
The helpers they call take it no second time, whatever the pool answers, so it is
released with the end of the operation.
-/

namespace MiniDB.Index

open Foundation Buffer PoolProgram Client

namespace BPlusTree

variable {Result : Type} (tree : BPlusTree)

/-- Whatever a program returns, the tree's latch is as it was. -/
def KeepsLatch (program : PoolProgram (Result × BPlusTree)) : Prop :=
  Returns (fun outcome => outcome.2.latch = tree.latch) program

theorem returns_guarded {body : BPlusTree → PoolProgram (Result × BPlusTree)}
    (keeps : ∀ inner : BPlusTree, inner.KeepsLatch (body inner)) :
    Returns (fun outcome => tree.latch.Restores outcome.2.latch) (guarded body tree) := by
  unfold guarded
  rw [returns_bind]
  refine (keeps _).imp fun outcome same => ?_
  rw [returns_pure, same]
  exact Mutex.restores_guard _

theorem latch_insertIntoParent (oldFrame : Nat) (key : Int) (newFrame : Nat) :
    Returns (fun after => after.latch = tree.latch)
      (tree.insertIntoParent oldFrame key newFrame) := by
  refine returns_ask.mpr fun oldPageId => returns_ask.mpr fun newPageId => ?_
  split
  · refine returns_ask.mpr fun created => ?_
    cases created with
    | none => rfl
    | some page =>
      refine returns_ask.mpr fun data => ?_
      exact fun _ _ _ => rfl
  · rfl

theorem latch_adjustRoot (frame : Nat) :
    Returns (fun after => after.latch = tree.latch) (tree.adjustRoot frame) := by
  refine returns_ask.mpr fun data => ?_
  split
  · refine returns_ask.mpr fun deleted => ?_
    split <;> rfl
  · rfl

theorem latch_coalesceOrRedistribute (frame : Nat) :
    Returns (fun after => after.latch = tree.latch) (tree.coalesceOrRedistribute frame) := by
  refine returns_ask.mpr fun pageId => ?_
  split
  · exact tree.latch_adjustRoot frame
  · rfl

theorem keepsLatch_insertRoot (key : Int) (value : RID) :
    tree.KeepsLatch (tree.insertRoot key value) := by
  refine returns_ask.mpr fun created => ?_
  cases created with
  | none => rfl
  | some page => exact fun _ _ _ _ => rfl

theorem keepsLatch_insertSplit (frame : Nat) (key : Int) (value : RID) :
    tree.KeepsLatch (tree.insertSplit frame key value) := by
  refine returns_ask.mpr fun created => ?_
  cases created with
  | none => exact fun _ _ => rfl
  | some page =>
    refine returns_ask.mpr fun oldData => returns_ask.mpr fun newData =>
      returns_ask.mpr fun _ => returns_ask.mpr fun _ => ?_
    rw [returns_bind]
    refine (tree.latch_insertIntoParent _ _ _).imp fun after same => ?_
    exact fun _ _ _ _ => same

/-- A program that starts with a descent keeps the latch if what follows does. -/
theorem keepsLatch_descent {next : Descent → PoolProgram (Result × BPlusTree)}
    (keeps : ∀ descent, tree.KeepsLatch (next descent)) (fuel : Nat) (key : Int)
    (leftMost : Bool) : tree.KeepsLatch (tree.findLeafPage fuel key leftMost >>= next) := by
  unfold KeepsLatch
  rw [returns_bind]
  exact returns_of_forall keeps _

theorem restores_getValue (fuel : Nat) (key : Int) (result : List RID) :
    Returns (fun outcome => tree.latch.Restores outcome.2.latch)
      (tree.getValue fuel key result) := by
  refine tree.returns_guarded fun inner => ?_
  split
  · rfl
  · refine inner.keepsLatch_descent (fun descent => ?_) fuel key false
    cases descent with
    | unfinished => rfl
    | null => rfl
    | leaf frame => exact fun _ _ _ => rfl

theorem restores_insert (fuel : Nat) (key : Int) (value : RID) :
    Returns (fun outcome => tree.latch.Restores outcome.2.latch)
      (tree.insert fuel key value) := by
  refine tree.returns_guarded fun inner => ?_
  split
  · exact inner.keepsLatch_insertRoot key value
  · refine inner.keepsLatch_descent (fun descent => ?_) fuel key false
    cases descent with
    | unfinished => rfl
    | null => rfl
    | leaf frame =>
      refine returns_ask.mpr fun data => ?_
      split
      · exact fun _ _ _ => rfl
      · exact inner.keepsLatch_insertSplit frame key value

theorem restores_remove (fuel : Nat) (key : Int) :
    Returns (fun outcome => tree.latch.Restores outcome.2.latch) (tree.remove fuel key) := by
  refine tree.returns_guarded fun inner => ?_
  split
  · rfl
  · refine inner.keepsLatch_descent (fun descent => ?_) fuel key false
    cases descent with
    | unfinished => rfl
    | null => rfl
    | leaf frame =>
      refine returns_ask.mpr fun data => ?_
      dsimp only
      split
      · exact fun _ _ => rfl
      · refine returns_ask.mpr fun _ => returns_ask.mpr fun _ => ?_
        rw [returns_bind]
        refine (inner.latch_coalesceOrRedistribute frame).imp fun after same => ?_
        exact fun _ _ => same

theorem restores_begin (fuel : Nat) :
    Returns (fun outcome => tree.latch.Restores outcome.2.latch) (tree.begin fuel) := by
  refine tree.returns_guarded fun inner => ?_
  split
  · rfl
  · refine inner.keepsLatch_descent (fun descent => ?_) fuel 0 true
    cases descent with
    | unfinished => rfl
    | null => rfl
    | leaf frame =>
      refine returns_ask.mpr fun data => returns_ask.mpr fun pageId => ?_
      split
      · exact fun _ => rfl
      · rfl

end BPlusTree

end MiniDB.Index
