import MiniDB.Buffer.LentPages
import MiniDB.Index.Multimap

/-!
# The pins of tree operations

`FindLeafPage` returns its leaf with a pin and releases the nodes above it. `GetValue`,
`Insert` and `Remove` release the leaf on every path, and `Insert` the pages that it
creates, also where the pool refuses a page in between.
-/

namespace MiniDB.Index

open Foundation Buffer PoolProgram

variable {D : Type} [IssuesIds D] {pins : Int → Nat} {lent : List (Int × Nat)}

/-- The pages that are lent after a descent: the leaf that it returns, if it does. -/
def Descent.Lends (pins : Int → Nat) (lent : List (Int × Nat)) (descent : Descent)
    (pool : BufferPool D) : Prop :=
  match descent with
  | .leaf frame => ∃ pageId, pool.Lends pins ((pageId, frame) :: lent)
  | .unfinished | .null => pool.Lends pins lent

namespace BPlusTree

theorem descend_lends (key : Int) (leftMost : Bool) (fuel : Nat) (pageId : Int) :
    LeadsTo (D := D) (BufferPool.Lends pins lent) (descend key leftMost fuel pageId)
      (Descent.Lends pins lent) := by
  induction fuel generalizing pageId with
  | zero => exact .pure fun _ lends => lends
  | succ fuel ih =>
    refine (fetchPage_lends pageId).bind fun answer => ?_
    cases answer with
    | none => exact .pure fun _ lends => lends
    | some frame =>
      refine (Neutral.getData frame _ _).bind fun data => .ite ?_ ?_
      · exact .pure fun _ lends => ⟨pageId, lends⟩
      · exact (unpinPage_lends (List.Perm.refl _) false).bind fun _ => ih _

theorem findLeafPage_lends (tree : BPlusTree) (fuel : Nat) (key : Int) (leftMost : Bool) :
    LeadsTo (D := D) (BufferPool.Lends pins lent) (tree.findLeafPage fuel key leftMost)
      (Descent.Lends pins lent) :=
  .ite (.pure fun _ lends => lends) (descend_lends key leftMost fuel tree.rootPageId)

theorem neutral_guarded {Result : Type} {body : BPlusTree → PoolProgram (Result × BPlusTree)}
    (neutral : ∀ tree, Neutral D (body tree)) (tree : BPlusTree) :
    Neutral D (guarded body tree) :=
  (neutral _).bind fun _ => .pure _

/-- A page that is lent is released under the id that it has. -/
theorem release_lends {Result : Type} {page : Int × Nat} {rest : List (Int × Nat)}
    (isLent : lent.Perm (page :: rest)) (isDirty : Bool) {next : PoolProgram Result}
    {post : Result → BufferPool D → Prop} (leads : LeadsTo (BufferPool.Lends pins rest) next post) :
    LeadsTo (D := D) (BufferPool.Lends pins lent)
      (do
        let pageId ← getPageId page.2
        let _ ← unpinPage pageId isDirty
        next) post := by
  have member : page ∈ lent := isLent.mem_iff.mpr List.mem_cons_self
  refine (getPageId_lends member).bind fun pageId => .of_fact ?_
  rintro rfl
  exact (unpinPage_lends isLent isDirty).bind fun _ => leads

theorem neutral_insertIntoParent (tree : BPlusTree) (oldFrame : Nat) (key : Int) (newFrame : Nat) :
    Neutral D (tree.insertIntoParent oldFrame key newFrame) := by
  refine (Neutral.getPageId oldFrame).bind fun oldPageId =>
    (Neutral.getPageId newFrame).bind fun newPageId => .ite ?_ (.pure tree)
  intro pins lent
  refine newPage_lends.bind fun answer => ?_
  cases answer with
  | none => exact .pure fun _ lends => lends
  | some created =>
    refine (Neutral.getData created.2 _ _).bind fun data => ?_
    refine (Neutral.putData created.2 _ _ _).bind fun _ => ?_
    refine (Neutral.setDirty created.2 _ _).bind fun _ => ?_
    exact (unpinPage_lends (List.Perm.refl _) true).bind fun _ => .pure fun _ lends => lends

theorem neutral_insertRoot (tree : BPlusTree) (key : Int) (value : RID) :
    Neutral D (tree.insertRoot key value) := by
  intro pins lent
  refine newPage_lends.bind fun answer => ?_
  cases answer with
  | none => exact .pure fun _ lends => lends
  | some created =>
    refine (Neutral.getData created.2 _ _).bind fun data => ?_
    refine (Neutral.putData created.2 _ _ _).bind fun _ => ?_
    refine (Neutral.setDirty created.2 _ _).bind fun _ => ?_
    exact (unpinPage_lends (List.Perm.refl _) true).bind fun _ => .pure fun _ lends => lends

/-- A split releases the full leaf, and the new one if there is a frame for it. -/
theorem insertSplit_lends (tree : BPlusTree) {pageId : Int} {frame : Nat} (key : Int) (value : RID) :
    LeadsTo (D := D) (BufferPool.Lends pins ((pageId, frame) :: lent))
      (tree.insertSplit frame key value) fun _ => BufferPool.Lends pins lent := by
  refine newPage_lends.bind fun answer => ?_
  cases answer with
  | none =>
    exact release_lends (List.Perm.refl ((pageId, frame) :: lent)) false
      (.pure fun _ lends => lends)
  | some created =>
    refine (Neutral.getData frame _ _).bind fun oldData => ?_
    refine (Neutral.getData created.2 _ _).bind fun newData => ?_
    refine (Neutral.putData frame _ _ _).bind fun _ => ?_
    refine (Neutral.putData created.2 _ _ _).bind fun _ => ?_
    refine (neutral_insertIntoParent tree frame _ created.2 _ _).bind fun tree => ?_
    refine release_lends (List.Perm.swap (pageId, frame) created lent) true ?_
    exact release_lends (List.Perm.refl (created :: lent)) true (.pure fun _ lends => lends)

theorem neutral_getValue (fuel : Nat) (key : Int) (result : List RID) (tree : BPlusTree) :
    Neutral D (tree.getValue fuel key result) := by
  refine neutral_guarded (fun tree => .ite (.pure _) fun pins lent => ?_) tree
  refine (findLeafPage_lends tree fuel key false).bind fun descent => ?_
  cases descent with
  | unfinished | null => exact .pure fun _ lends => lends
  | leaf frame =>
    refine .exists fun pageId => (Neutral.getData frame _ _).bind fun data => ?_
    exact release_lends (List.Perm.refl ((pageId, frame) :: lent)) false
      (.pure fun _ lends => lends)

theorem neutral_insert (fuel : Nat) (key : Int) (value : RID) (tree : BPlusTree) :
    Neutral D (tree.insert fuel key value) := by
  refine neutral_guarded (fun tree => .ite (neutral_insertRoot tree key value) fun pins lent => ?_)
    tree
  refine (findLeafPage_lends tree fuel key false).bind fun descent => ?_
  cases descent with
  | unfinished | null => exact .pure fun _ lends => lends
  | leaf frame =>
    refine .exists fun pageId => (Neutral.getData frame _ _).bind fun data => .ite ?_ ?_
    · refine (Neutral.putData frame _ _ _).bind fun _ => ?_
      exact release_lends (List.Perm.refl ((pageId, frame) :: lent)) true
        (.pure fun _ lends => lends)
    · exact insertSplit_lends tree key value

theorem neutral_coalesceOrRedistribute (tree : BPlusTree) (frame : Nat) :
    Neutral D (tree.coalesceOrRedistribute frame) := by
  refine (Neutral.getPageId frame).bind fun pageId => .ite ?_ (.pure tree)
  refine (Neutral.getData frame).bind fun data => .ite ?_ (.pure tree)
  exact (Neutral.deletePage tree.rootPageId).bind fun _ => .ite (.pure _) (.pure _)

theorem neutral_remove (fuel : Nat) (key : Int) (tree : BPlusTree) :
    Neutral D (tree.remove fuel key) := by
  refine neutral_guarded (fun tree => .ite (.pure _) fun pins lent => ?_) tree
  refine (findLeafPage_lends tree fuel key false).bind fun descent => ?_
  cases descent with
  | unfinished | null => exact .pure fun _ lends => lends
  | leaf frame =>
    refine .exists fun pageId => (Neutral.getData frame _ _).bind fun data => .ite ?_ ?_
    · exact release_lends (List.Perm.refl ((pageId, frame) :: lent)) false
        (.pure fun _ lends => lends)
    · refine (Neutral.putData frame _ _ _).bind fun _ => ?_
      refine (Neutral.setDirty frame _ _).bind fun _ => ?_
      refine (neutral_coalesceOrRedistribute tree frame _ _).bind fun tree => ?_
      exact release_lends (List.Perm.refl ((pageId, frame) :: lent)) true
        (.pure fun _ lends => lends)

end BPlusTree

end MiniDB.Index
