import MiniDB.Buffer.PinLedger
import MiniDB.Foundation.Triples

/-!
# Pages lent to a program

A program holds the pages that `FetchPage` and `NewPage` have returned to it until it
releases them, and the pointers it was given lead to these pages for as long. Besides
the pins of the pages that are lent, a page has those that it had before. A program is
neutral if it gives back what it takes.
-/

namespace MiniDB.Buffer

open Foundation Storage

variable {D : Type} [IssuesIds D]

namespace Frames

/-- Every page has its own pins and those of the pages that are lent, and these are
where the pointers lead to. -/
structure Lends (pins : Int → Nat) (lent : List (Int × Nat)) (frames : Frames D) : Prop where
  sound : frames.Sound
  pins : ∀ pageId, frames.pinsOf pageId = pins pageId + lent.countP fun page => page.1 = pageId
  place : ∀ page ∈ lent, frames.pageTable.lookup page.1 = some page.2

variable {frames after : Frames D} {pins : Int → Nat} {lent : List (Int × Nat)}

/-- A sound pool lends nothing yet. -/
theorem lends_of_sound (sound : frames.Sound) : frames.Lends frames.pinsOf [] where
  sound := sound
  pins _ := rfl
  place _ member := absurd member List.not_mem_nil

/-- A page that is lent is pinned. -/
theorem Lends.pinned (lends : frames.Lends pins lent) {page : Int × Nat} (member : page ∈ lent) :
    0 < frames.pinsOf page.1 := by
  rw [lends.pins]
  have counted : 0 < lent.countP fun other => other.1 = page.1 :=
    List.countP_pos_iff.mpr ⟨page, member, by simp⟩
  omega

/-- The pointer to a page that is lent leads to a page of that id. -/
theorem Lends.holds (lends : frames.Lends pins lent) {page : Int × Nat} (member : page ∈ lent) :
    ∃ held, frames.pages page.2 = some held ∧ held.pageId = page.1 :=
  lends.sound.agrees.mapped (lends.place page member)

/-- A pinned page stays where it is while a frame is obtained. -/
theorem Obtains.lookup_pinned {obtained : Frames D} {result : Option Nat}
    (obtains : frames.Obtains result obtained) (agrees : frames.Agrees) {pageId : Int} {frame : Nat}
    (found : frames.pageTable.lookup pageId = some frame) (pinned : 0 < frames.pinsOf pageId) :
    obtained.pageTable.lookup pageId = some frame := by
  cases obtains with
  | refused => exact found
  | free empty => exact found
  | @evicted other page held unpinned =>
    have different : pageId ≠ page.pageId := by
      rintro rfl
      rw [agrees.pinsOf_held held, unpinned] at pinned
      exact absurd pinned (Nat.lt_irrefl 0)
    unfold evict
    rw [writeBack_eq]
    exact (AList.lookup_erase_ne different).trans found

/-- A pinned page stays where it is while another page comes in. -/
theorem Fetches.lookup_pinned {fetched : Int} {result : Option Nat}
    (fetches : frames.Fetches fetched result after) (agrees : frames.Agrees) {pageId : Int}
    {frame : Nat} (found : frames.pageTable.lookup pageId = some frame)
    (pinned : 0 < frames.pinsOf pageId) : after.pageTable.lookup pageId = some frame := by
  cases fetches with
  | hit resident => exact found
  | refused => exact found
  | loaded absent obtains =>
    have different : pageId ≠ fetched := by
      rintro rfl
      cases absent.symm.trans found
    exact (AList.lookup_insert_ne different).trans (obtains.lookup_pinned agrees found pinned)

/-- A new page leaves the frame of a pinned one. -/
theorem Creates.lookup_pinned {result : Option (Int × Nat)} (creates : frames.Creates result after)
    (sound : frames.Sound) {pageId : Int} {frame : Nat}
    (found : frames.pageTable.lookup pageId = some frame) (pinned : 0 < frames.pinsOf pageId) :
    after.pageTable.lookup pageId = some frame := by
  cases creates with
  | refused => exact found
  | @added _ obtained obtains =>
    obtain ⟨isNext, -⟩ := (Creates.added obtains).sound sound
    have different : pageId ≠ (Disk.allocPage obtained.disk).1 := by
      rintro rfl
      exact absurd (sound.issued found) (Int.not_lt.mpr (Int.le_of_eq isNext.symm))
    exact (AList.lookup_insert_ne different).trans (obtains.lookup_pinned sound.agrees found pinned)

/-- Only an unpinned page is deleted. -/
theorem Deletes.lookup_pinned {deleted : Int} {result : Bool}
    (deletes : frames.Deletes deleted result after) {pageId : Int} {frame : Nat}
    (found : frames.pageTable.lookup pageId = some frame)
    (pinned : 0 < frames.pinsOf pageId) : after.pageTable.lookup pageId = some frame := by
  cases deletes with
  | refused => exact found
  | @deleted _ page resident held unpinned =>
    have different : pageId ≠ deleted := by
      rintro rfl
      rw [pinsOf_resident resident held, unpinned] at pinned
      exact absurd pinned (Nat.lt_irrefl 0)
    unfold dropPage
    rw [writeBack_eq]
    exact (AList.lookup_erase_ne different).trans found

omit [IssuesIds D] in
theorem Unpins.pageTable_eq {pageId : Int} {isDirty result : Bool}
    (unpins : frames.Unpins pageId isDirty result after) : after.pageTable = frames.pageTable := by
  cases unpins <;> rfl

/-- A page more is lent. -/
theorem Lends.lend (lends : frames.Lends pins lent) {pageId : Int} {frame : Nat}
    (sound : after.Sound)
    (pinned : after.pinsOf = Function.update frames.pinsOf pageId (frames.pinsOf pageId + 1))
    (here : after.pageTable.lookup pageId = some frame)
    (others : ∀ {other frame}, frames.pageTable.lookup other = some frame →
      0 < frames.pinsOf other → after.pageTable.lookup other = some frame) :
    after.Lends pins ((pageId, frame) :: lent) where
  sound := sound
  pins other := by
    rw [pinned, List.countP_cons]
    by_cases same : other = pageId
    · subst same
      rw [Function.update_self, lends.pins]
      simp
      omega
    · rw [Function.update_of_ne same, lends.pins]
      simp [Ne.symm same]
  place page member := by
    rcases List.mem_cons.mp member with rfl | isLent
    · exact here
    · exact others (lends.place page isLent) (lends.pinned isLent)

/-- Nothing changes for the program. -/
theorem Lends.same (lends : frames.Lends pins lent) (sound : after.Sound)
    (samePins : after.pinsOf = frames.pinsOf)
    (others : ∀ {other frame}, frames.pageTable.lookup other = some frame →
      0 < frames.pinsOf other → after.pageTable.lookup other = some frame) :
    after.Lends pins lent where
  sound := sound
  pins pageId := by rw [samePins, lends.pins]
  place page member := others (lends.place page member) (lends.pinned member)

/-- A page that is lent is given back. -/
theorem Lends.release (lends : frames.Lends pins lent) {page : Int × Nat}
    {rest : List (Int × Nat)} (isLent : lent.Perm (page :: rest)) (sound : after.Sound)
    (released : after.pinsOf = Function.update frames.pinsOf page.1 (frames.pinsOf page.1 - 1))
    (sameTable : after.pageTable = frames.pageTable) : after.Lends pins rest where
  sound := sound
  pins pageId := by
    have counted := lends.pins pageId
    rw [isLent.countP_eq, List.countP_cons] at counted
    rw [released]
    by_cases same : pageId = page.1
    · subst same
      rw [Function.update_self]
      simp at counted
      omega
    · rw [Function.update_of_ne same]
      simpa [Ne.symm same] using counted
  place other member := by
    rw [sameTable]
    exact lends.place other (isLent.mem_iff.mpr (List.mem_cons_of_mem page member))

end Frames

/-! ## The requests of a program -/

open PoolProgram

variable {pins : Int → Nat} {lent : List (Int × Nat)}

/-- The frames of the pool lend these pages. -/
def BufferPool.Lends (pins : Int → Nat) (lent : List (Int × Nat)) (pool : BufferPool D) : Prop :=
  pool.frames.Lends pins lent

/-- `Leads` for programs of the pool that fetch only issued ids. -/
abbrev LeadsTo {Result : Type} (pre : BufferPool D → Prop) (program : PoolProgram Result)
    (post : Result → BufferPool D → Prop) : Prop :=
  Client.Leads BufferPool.handle (fun request pool => pool.FetchesIssued request) pre program post

instance (pool : BufferPool D) (request : PoolRequest) : Decidable (pool.FetchesIssued request) :=
  match request with
  | .fetchPage pageId => inferInstanceAs (Decidable (pageId < nextPageId pool.frames.disk))
  | .newPage | .unpinPage _ _ | .deletePage _ | .flushPage _ | .flushAllPages | .getPageId _
  | .getData _ | .putData _ _ | .setDirty _ => inferInstanceAs (Decidable True)

/-- A page that is fetched is lent. -/
theorem fetchPage_lends (pageId : Int) :
    LeadsTo (D := D) (BufferPool.Lends pins lent) (fetchPage pageId) fun answer =>
      BufferPool.Lends pins (answer.elim lent fun frame => (pageId, frame) :: lent) := by
  refine .make fun pool lends issued => ?_
  have fetches := pool.fetchPage_fetches pageId
  have found : ∀ {other frame}, pool.frames.pageTable.lookup other = some frame →
      0 < pool.frames.pinsOf other →
        (pool.fetchPage pageId).2.frames.pageTable.lookup other = some frame :=
    fetches.lookup_pinned lends.sound.agrees
  obtain ⟨sound, pinned⟩ := fetches.sound lends.sound issued
  change (pool.fetchPage pageId).2.frames.Lends _ ((pool.fetchPage pageId).1.elim _ _)
  cases answer : (pool.fetchPage pageId).1 with
  | none =>
    rw [answer] at pinned
    exact lends.same sound pinned found
  | some frame =>
    rw [answer] at pinned fetches
    have mapped : pool.frames.Mapped := fun _ _ resident => lends.sound.agrees.mapped resident
    exact lends.lend sound pinned (fetches.pins mapped).1 found

/-- So is a new page. -/
theorem newPage_lends :
    LeadsTo (D := D) (BufferPool.Lends pins lent) newPage fun answer =>
      BufferPool.Lends pins (answer.elim lent fun created => created :: lent) := by
  refine .make fun pool lends _ => ?_
  have creates := pool.newPage_creates
  have found : ∀ {other frame}, pool.frames.pageTable.lookup other = some frame →
      0 < pool.frames.pinsOf other → pool.newPage.2.frames.pageTable.lookup other = some frame :=
    creates.lookup_pinned lends.sound
  change pool.newPage.2.frames.Lends _ (pool.newPage.1.elim _ _)
  cases answer : pool.newPage.1 with
  | none =>
    rw [answer] at creates
    rw [creates.refused_eq]
    exact lends
  | some created =>
    rw [answer] at creates
    obtain ⟨-, -, sound, pinned⟩ := creates.sound lends.sound
    refine lends.lend sound pinned ?_ found
    generalize pool.newPage.2.frames = after at creates
    cases creates
    exact AList.lookup_insert _

/-- A page that is lent is unpinned. -/
theorem unpinPage_lends {page : Int × Nat} {rest : List (Int × Nat)} (isLent : lent.Perm (page :: rest))
    (isDirty : Bool) :
    LeadsTo (D := D) (BufferPool.Lends pins lent) (unpinPage page.1 isDirty) fun _ =>
      BufferPool.Lends pins rest := by
  refine .make fun pool lends _ => ?_
  have unpins := pool.unpinPage_unpins page.1 isDirty
  obtain ⟨-, sound, released⟩ := unpins.sound lends.sound
  exact lends.release isLent sound released unpins.pageTable_eq

/-- The id of a page that is lent. -/
theorem getPageId_lends {page : Int × Nat} (isLent : page ∈ lent) :
    LeadsTo (D := D) (BufferPool.Lends pins lent) (getPageId page.2) fun answer pool =>
      answer = page.1 ∧ pool.Lends pins lent := by
  refine .make fun pool lends _ => ⟨?_, lends⟩
  obtain ⟨held, isHeld, sameId⟩ := lends.holds isLent
  change (pool.pageAt page.2).pageId = page.1
  rw [BufferPool.pageAt, isHeld, Option.getD_some, sameId]

/-- The program has the same pages lent afterwards, whichever pages are lent. -/
def Neutral (D : Type) [IssuesIds D] {Result : Type} (program : PoolProgram Result) : Prop :=
  ∀ pins lent, LeadsTo (D := D) (BufferPool.Lends pins lent) program fun _ =>
    BufferPool.Lends pins lent

namespace Neutral

variable {Result Next : Type}

theorem pure (result : Result) : Neutral D (Pure.pure result : PoolProgram Result) :=
  fun _ _ => .pure fun _ lends => lends

/-- Two programs that keep no pin, one after another. -/
theorem bind {program : PoolProgram Result} {next : Result → PoolProgram Next}
    (first : Neutral D program) (rest : ∀ result, Neutral D (next result)) :
    Neutral D (program >>= next) :=
  fun pins lent => (first pins lent).bind fun result => rest result pins lent

/-- Either of two programs that keep no pin. -/
theorem ite {condition : Prop} [Decidable condition] {program other : PoolProgram Result}
    (first : Neutral D program) (second : Neutral D other) :
    Neutral D (if condition then program else other) :=
  fun pins lent => .ite (first pins lent) (second pins lent)

theorem getPageId (frame : Nat) : Neutral D (PoolProgram.getPageId frame) :=
  fun _ _ => .make fun _ lends _ => lends

theorem getData (frame : Nat) : Neutral D (PoolProgram.getData frame) :=
  fun _ _ => .make fun _ lends _ => lends

/-- What is done to a page through a pointer. -/
theorem modifyPage {pool : BufferPool D} (lends : pool.Lends pins lent) (frame : Nat)
    {change : Page → Page} (sameId : ∀ page, (change page).pageId = page.pageId)
    (samePins : ∀ page, (change page).pinCount = page.pinCount) :
    (pool.modifyPage frame change).Lends pins lent := by
  have kept : (pool.frames.modifyPage frame change).Agrees ∧
      (pool.frames.modifyPage frame change).pinsOf = pool.frames.pinsOf :=
    lends.sound.agrees.pinsOf_modifyPage sameId samePins
  obtain ⟨agrees, pinned⟩ := kept
  exact Frames.Lends.same lends ⟨agrees, lends.sound.issued⟩ pinned fun found _ => found

theorem putData (frame : Nat) (data : Bytes) : Neutral D (PoolProgram.putData frame data) :=
  fun _ _ => .make fun _ lends _ => modifyPage lends frame (fun _ => rfl) fun _ => rfl

theorem setDirty (frame : Nat) : Neutral D (PoolProgram.setDirty frame) :=
  fun _ _ => .make fun _ lends _ => modifyPage lends frame (fun _ => rfl) fun _ => rfl

/-- `DeletePage` takes no pin and gives none back. -/
theorem deletePage (pageId : Int) : Neutral D (PoolProgram.deletePage pageId) := by
  intro pins lent
  refine .make fun pool lends _ => ?_
  have deletes := pool.deletePage_deletes pageId
  obtain ⟨sound, samePins⟩ := deletes.sound lends.sound
  exact lends.same sound samePins deletes.lookup_pinned

/-- Nor does `FlushAllPages`. -/
theorem flushAllPages : Neutral D PoolProgram.flushAllPages := by
  intro pins lent
  refine .make fun pool lends _ => ?_
  refine (pool.flush_preserves 0 (fun frames pageId after flushes here => ?_) lends).2
  obtain ⟨sound, samePins⟩ := flushes.sound here.sound
  refine here.same sound samePins fun found _ => ?_
  cases flushes with
  | unchanged => exact found
  | written resident held dirty =>
    rw [Frames.writeBack_eq]
    exact found

/-- A page is fetched, used and released. -/
theorem fetchPage {pageId : Int} {absent : PoolProgram Result} {isDirty : Bool}
    {use : Nat → PoolProgram Next} {rest : Next → PoolProgram Result} (refused : Neutral D absent)
    (uses : ∀ frame, Neutral D (use frame)) (finishes : ∀ result, Neutral D (rest result)) :
    Neutral D (do
      match ← PoolProgram.fetchPage pageId with
      | none => absent
      | some frame =>
        let result ← use frame
        let _ ← unpinPage pageId isDirty
        rest result) := by
  intro pins lent
  refine (fetchPage_lends pageId).bind fun answer => ?_
  cases answer with
  | none => exact refused pins lent
  | some frame =>
    refine (uses frame pins _).bind fun result => ?_
    exact (unpinPage_lends (List.Perm.refl _) isDirty).bind fun _ => finishes result pins lent

/-- A neutral program leaves all pins as they were. -/
theorem pinsOf_run {program : PoolProgram Result} (neutral : Neutral D program) {pool : BufferPool D}
    (sound : pool.frames.Sound)
    (issued : Client.Each BufferPool.handle (fun request pool => pool.FetchesIssued request)
      program pool) :
    (run program pool).2.frames.Sound ∧
      (run program pool).2.frames.pinsOf = pool.frames.pinsOf := by
  have lends := neutral _ _ pool (Frames.lends_of_sound sound) issued
  exact ⟨lends.sound, funext fun pageId => lends.pins pageId⟩

end Neutral

end MiniDB.Buffer
