import MiniDB.Foundation.Run
import MiniDB.Index.LeafPages
import MiniDB.Index.ServedTree
import MiniDB.Index.TreePages
import MiniDB.Storage.HeapPages

/-!
# Heaps and trees on one pool

Heaps and trees, by number, share a buffer pool. Each tree carries the ids of its
pages: those that its operations obtained since it last had no root. `Descends` says
that `FindLeafPage` ends and stays on these pages.
-/

namespace MiniDB.Database

open Foundation Buffer PoolProgram Storage Index

/-- The calls. -/
inductive SharedCall where
  | newHeap (number : Nat)
  | insertTuple (number : Nat) (tuple : Tuple)
  | newTree (number : Nat) (leafMaxSize internalMaxSize : Int)
  | insert (number : Nat) (key : Int) (value : RID)
  | remove (number : Nat) (key : Int)

/-- A tree and its pages. -/
structure OwnedTree where
  tree : BPlusTree
  pages : List Int := []

/-- The ids that were issued between two states of the pool. -/
def issuedPages (before after : BufferPool DiskManager) : List Int :=
  (List.range (after.frames.disk.nextPageId - before.frames.disk.nextPageId).toNat).map
    fun count : Nat => before.frames.disk.nextPageId + count

/-- The tree after an operation; without a root it has no pages. -/
def OwnedTree.after (owned : OwnedTree) (tree : BPlusTree) (before after : BufferPool DiskManager) :
    OwnedTree :=
  { tree, pages := if tree.rootPageId = -1 then [] else owned.pages ++ issuedPages before after }

/-- `FindLeafPage` ends, for every key, and fetches only pages of the tree. -/
structure OwnedTree.Descends (owned : OwnedTree) (pool : BufferPool DiskManager) : Prop where
  ends : ∀ key leftMost, IsInt key → ∃ fuel,
    (run (owned.tree.findLeafPage fuel key leftMost) pool).1 ≠ .unfinished ∧
      ¬ IsStuck (run (owned.tree.findLeafPage fuel key leftMost) pool).2.mutexes
  visits : ∀ key leftMost, IsInt key → ∀ fuel,
    Client.Each BufferPool.handle (FetchesOnly fun pageId => pageId ∈ owned.pages)
      (owned.tree.findLeafPage fuel key leftMost) pool

/-- Heaps and trees on one pool. -/
structure SharedPool where
  pool : BufferPool DiskManager
  heaps : Nat → Option TableHeap := fun _ => none
  trees : Nat → Option OwnedTree := fun _ => none

namespace SharedPool

/-- The state after an operation of a tree. -/
def afterTree {Result : Type} (shared : SharedPool) (number : Nat) (owned : OwnedTree)
    (outcome : (Result × BPlusTree) × BufferPool DiskManager) : SharedPool :=
  { shared with
    pool := outcome.2
    trees := Function.update shared.trees number
      (some (owned.after outcome.1.2 shared.pool outcome.2)) }

/-- One call, with fuel for the descents. -/
def step (fuel : Nat) (shared : SharedPool) : SharedCall → SharedPool
  | .newHeap number =>
    let (heap, pool) := run TableHeap.new shared.pool
    { shared with pool, heaps := Function.update shared.heaps number (some heap) }
  | .insertTuple number tuple =>
    match shared.heaps number with
    | none => shared
    | some heap =>
      let ((_, heap), pool) := run (heap.insertTuple tuple) shared.pool
      { shared with pool, heaps := Function.update shared.heaps number (some heap) }
  | .newTree number leafMaxSize internalMaxSize =>
    { shared with
      trees := Function.update shared.trees number
        (some { tree := { leafMaxSize, internalMaxSize } }) }
  | .insert number key value =>
    match shared.trees number with
    | none => shared
    | some owned => shared.afterTree number owned (run (owned.tree.insert fuel key value) shared.pool)
  | .remove number key =>
    match shared.trees number with
    | none => shared
    | some owned => shared.afterTree number owned (run (owned.tree.remove fuel key) shared.pool)

/-- Every descent in every tree ends on pages of the tree. -/
def Descends (shared : SharedPool) : Prop :=
  ∀ number owned, shared.trees number = some owned → owned.Descends shared.pool

/-- The leaf to which an `Insert` adds its entry has a place for it in its page, which
the code does not check: it compares the size with `leaf_max_size` only. -/
def EntryFits (fuel : Nat) (shared : SharedPool) : SharedCall → Prop
  | .insert number key _ => ∀ owned ∈ shared.trees number,
    ∀ leaf ∈ route (fun pageId => (shared.pool.frames.contents pageId).getD Bytes.zeros) key false
        fuel owned.tree.rootPageId,
      ∀ data ∈ shared.pool.frames.contents leaf,
        intAt data 1 < owned.tree.leafMaxSize → intAt data 1 < leafCapacity
  | _ => True

instance (fuel : Nat) (shared : SharedPool) (call : SharedCall) :
    Decidable (shared.EntryFits fuel call) :=
  match call with
  | .insert number key _ => inferInstanceAs (Decidable (∀ owned ∈ shared.trees number,
      ∀ leaf ∈ route (fun pageId => (shared.pool.frames.contents pageId).getD Bytes.zeros) key false
          fuel owned.tree.rootPageId,
        ∀ data ∈ shared.pool.frames.contents leaf,
          intAt data 1 < owned.tree.leafMaxSize → intAt data 1 < leafCapacity))
  | .newHeap _ | .insertTuple _ _ | .newTree _ _ _ | .remove _ _ =>
    inferInstanceAs (Decidable True)

/-- The call returns, it writes inside its pages, and the ids that are issued stay
`int`s. -/
def Returns (fuel : Nat) (shared : SharedPool) (call : SharedCall) : Prop :=
  ¬ IsStuck (shared.step fuel call).pool.mutexes ∧
    IsInt (shared.step fuel call).pool.frames.disk.nextPageId ∧ shared.EntryFits fuel call

instance (fuel : Nat) (shared : SharedPool) (call : SharedCall) :
    Decidable (shared.Returns fuel call) :=
  inferInstanceAs (Decidable (_ ∧ _ ∧ _))

/-- The condition on a call: an `Insert` that splits the root of its tree, a full leaf,
does so while that leaf is page 0. -/
def SplitsPageZero (shared : SharedPool) : SharedCall → Prop
  | .insert number _ _ => ∀ owned ∈ shared.trees number,
    ∀ data ∈ shared.pool.frames.contents owned.tree.rootPageId,
      isLeaf data = true → owned.tree.leafMaxSize ≤ intAt data 1 → owned.tree.rootPageId = 0
  | _ => True

instance (shared : SharedPool) (call : SharedCall) : Decidable (shared.SplitsPageZero call) :=
  match call with
  | .insert number _ _ => inferInstanceAs (Decidable (∀ owned ∈ shared.trees number,
      ∀ data ∈ shared.pool.frames.contents owned.tree.rootPageId,
        isLeaf data = true → owned.tree.leafMaxSize ≤ intAt data 1 → owned.tree.rootPageId = 0))
  | .newHeap _ | .insertTuple _ _ | .newTree _ _ _ | .remove _ _ =>
    inferInstanceAs (Decidable True)

end SharedPool

end MiniDB.Database
