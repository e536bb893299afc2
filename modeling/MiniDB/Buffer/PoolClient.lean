import MiniDB.Buffer.PoolSteps
import MiniDB.Foundation.Client

/-!
# Programs that use the pool

The table heap and the index are client programs of the buffer pool. Besides the
operations of the pool they read and change pages through the pointers they were
given; a pointer is the frame of the page.
-/

namespace MiniDB.Buffer

open Foundation Storage

/-- What a client of the pool asks. -/
inductive PoolRequest where
  | fetchPage (pageId : Int)
  | newPage
  | unpinPage (pageId : Int) (isDirty : Bool)
  | deletePage (pageId : Int)
  | flushPage (pageId : Int)
  | flushAllPages
  /-- `page->GetPageId()`. -/
  | getPageId (frame : Nat)
  /-- The bytes behind `page->GetData()`. -/
  | getData (frame : Nat)
  /-- A change of the bytes behind `page->GetData()`. -/
  | putData (frame : Nat) (data : Bytes)
  /-- `page->SetDirty(true)`. -/
  | setDirty (frame : Nat)

/-- The type of the answers. -/
def PoolRequest.Answer : PoolRequest → Type
  | .fetchPage _ => Option Nat
  | .newPage => Option (Int × Nat)
  | .unpinPage _ _ => Bool
  | .deletePage _ => Bool
  | .flushPage _ => Bool
  | .flushAllPages => Unit
  | .getPageId _ => Int
  | .getData _ => Bytes
  | .putData _ _ => Unit
  | .setDirty _ => Unit

/-- A program over the pool. -/
abbrev PoolProgram (Result : Type) := Client PoolRequest PoolRequest.Answer Result

variable {D : Type} [Disk D]

/-- The page behind a pointer. -/
def BufferPool.pageAt (pool : BufferPool D) (frame : Nat) : Page :=
  (pool.frames.pages frame).getD {}

/-- A change through a pointer. -/
def BufferPool.modifyPage (pool : BufferPool D) (frame : Nat) (change : Page → Page) :
    BufferPool D :=
  { pool with frames := pool.frames.modifyPage frame change }

/-- The pool's answer to a request. -/
def BufferPool.handle : (request : PoolRequest) → BufferPool D →
    request.Answer × BufferPool D
  | .fetchPage pageId, pool => pool.fetchPage pageId
  | .newPage, pool => pool.newPage
  | .unpinPage pageId isDirty, pool => pool.unpinPage pageId isDirty
  | .deletePage pageId, pool => pool.deletePage pageId
  | .flushPage pageId, pool => pool.flushPage pageId
  | .flushAllPages, pool => ((), pool.flushAllPages)
  | .getPageId frame, pool => ((pool.pageAt frame).pageId, pool)
  | .getData frame, pool => ((pool.pageAt frame).data, pool)
  | .putData frame data, pool => ((), pool.modifyPage frame fun page => page.setData data)
  | .setDirty frame, pool => ((), pool.modifyPage frame fun page => page.setDirty true)

namespace PoolProgram

def fetchPage (pageId : Int) : PoolProgram (Option Nat) := Client.make (PoolRequest.fetchPage pageId)

def newPage : PoolProgram (Option (Int × Nat)) := Client.make PoolRequest.newPage

def unpinPage (pageId : Int) (isDirty : Bool) : PoolProgram Bool :=
  Client.make (PoolRequest.unpinPage pageId isDirty)

def deletePage (pageId : Int) : PoolProgram Bool := Client.make (PoolRequest.deletePage pageId)

def flushAllPages : PoolProgram Unit := Client.make PoolRequest.flushAllPages

def getPageId (frame : Nat) : PoolProgram Int := Client.make (PoolRequest.getPageId frame)

def getData (frame : Nat) : PoolProgram Bytes := Client.make (PoolRequest.getData frame)

def putData (frame : Nat) (data : Bytes) : PoolProgram Unit := Client.make (PoolRequest.putData frame data)

def setDirty (frame : Nat) : PoolProgram Unit := Client.make (PoolRequest.setDirty frame)

/-- Run a program against the pool. -/
def run {Result : Type} (program : PoolProgram Result) (pool : BufferPool D) :
    Result × BufferPool D :=
  Client.run BufferPool.handle program pool

section Rules

variable {Result Next : Type} (pool : BufferPool D)

@[simp] theorem run_pure (result : Result) :
    run (pure result : PoolProgram Result) pool = (result, pool) := rfl

@[simp] theorem run_bind (program : PoolProgram Result) (next : Result → PoolProgram Next) :
    run (program >>= next) pool = run (next (run program pool).1) (run program pool).2 :=
  Client.run_bind program next pool

/-- `Client.each_bind` in the words of `run`. -/
theorem each_bind {meets : PoolRequest → BufferPool D → Prop} (program : PoolProgram Result)
    (next : Result → PoolProgram Next) :
    Client.Each BufferPool.handle meets (program >>= next) pool ↔
      Client.Each BufferPool.handle meets program pool ∧
        Client.Each BufferPool.handle meets (next (run program pool).1) (run program pool).2 :=
  Client.each_bind program next pool

@[simp] theorem run_fetchPage (pageId : Int) :
    run (fetchPage pageId) pool = pool.fetchPage pageId := rfl

@[simp] theorem run_newPage : run newPage pool = pool.newPage := rfl

@[simp] theorem run_unpinPage (pageId : Int) (isDirty : Bool) :
    run (unpinPage pageId isDirty) pool = pool.unpinPage pageId isDirty := rfl

@[simp] theorem run_deletePage (pageId : Int) :
    run (deletePage pageId) pool = pool.deletePage pageId := rfl

@[simp] theorem run_getPageId (frame : Nat) :
    run (getPageId frame) pool = ((pool.pageAt frame).pageId, pool) := rfl

@[simp] theorem run_getData (frame : Nat) :
    run (getData frame) pool = ((pool.pageAt frame).data, pool) := rfl

@[simp] theorem run_putData (frame : Nat) (data : Bytes) :
    run (putData frame data) pool = ((), pool.modifyPage frame fun page => page.setData data) := rfl

@[simp] theorem run_setDirty (frame : Nat) :
    run (setDirty frame) pool = ((), pool.modifyPage frame fun page => page.setDirty true) := rfl

end Rules

section Each

variable {meets : PoolRequest → BufferPool D → Prop} (pool : BufferPool D)

@[simp] theorem each_fetchPage (pageId : Int) :
    Client.Each BufferPool.handle meets (fetchPage pageId) pool ↔ meets (.fetchPage pageId) pool :=
  Client.each_make _ _

@[simp] theorem each_newPage :
    Client.Each BufferPool.handle meets newPage pool ↔ meets .newPage pool :=
  Client.each_make _ _

@[simp] theorem each_unpinPage (pageId : Int) (isDirty : Bool) :
    Client.Each BufferPool.handle meets (unpinPage pageId isDirty) pool ↔
      meets (.unpinPage pageId isDirty) pool :=
  Client.each_make _ _

@[simp] theorem each_getData (frame : Nat) :
    Client.Each BufferPool.handle meets (getData frame) pool ↔ meets (.getData frame) pool :=
  Client.each_make _ _

end Each

section Returns

variable {Result : Type} {post : Result → Prop}

/-- Whatever is asked first, the rest has to return as stated for every answer. -/
theorem returns_ask {request : PoolRequest} {next : request.Answer → PoolProgram Result} :
    Client.Returns post (Client.make request >>= next) ↔
      ∀ answer, Client.Returns post (next answer) := by
  rw [Client.returns_bind, Client.returns_make]

end Returns

end PoolProgram

end MiniDB.Buffer
