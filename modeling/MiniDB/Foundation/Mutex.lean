/-!
# Non-recursive mutexes and scoped guards

A mutex is seen from the one thread that runs an operation. Acquiring it while
that thread already holds it is a stuck acquire: the thread never returns, so
`stuck` absorbs every later lock and unlock. `noop` is a mutex that is taken to
do nothing, for statements that set the locking aside.
-/

namespace MiniDB.Foundation

universe u v

/-- A `std::mutex` as its only user sees it. -/
inductive Mutex where
  | unlocked
  | locked
  | stuck
  | noop
deriving DecidableEq, Repr

namespace Mutex

/-- Acquire. A thread that already holds the mutex waits for itself. -/
def lock : Mutex → Mutex
  | unlocked => locked
  | locked => stuck
  | stuck => stuck
  | noop => noop

/-- Release. -/
def unlock : Mutex → Mutex
  | locked => unlocked
  | mutex => mutex

/-- What code that takes and releases a mutex does to it: an unlocked mutex is
unlocked again, and a stuck one stays stuck. -/
structure Restores (before after : Mutex) : Prop where
  unlocked : before = unlocked → after = unlocked
  stuck : before = stuck → after = stuck

/-- What any code does to a mutex that it found unlocked or stuck. -/
structure Evolves (before after : Mutex) : Prop where
  unlocked : before = unlocked → after = unlocked ∨ after = stuck
  stuck : before = stuck → after = stuck

theorem Restores.refl (mutex : Mutex) : Restores mutex mutex := ⟨id, id⟩

theorem Restores.of_eq {before after : Mutex} (same : after = before) : Restores before after := by
  rw [same]
  exact .refl before

theorem Restores.trans {first second third : Mutex} (before : Restores first second)
    (after : Restores second third) : Restores first third :=
  ⟨fun free => after.unlocked (before.unlocked free), fun held => after.stuck (before.stuck held)⟩

theorem Restores.evolves {before after : Mutex} (restores : Restores before after) :
    Evolves before after :=
  ⟨fun free => .inl (restores.unlocked free), restores.stuck⟩

theorem Evolves.trans {first second third : Mutex} (before : Evolves first second)
    (after : Evolves second third) : Evolves first third := by
  refine ⟨fun free => ?_, fun held => after.stuck (before.stuck held)⟩
  rcases before.unlocked free with still | blocked
  · exact after.unlocked still
  · exact .inr (after.stuck blocked)

/-- Relations between a mutex before and after that leave room for taking and
releasing it. -/
structure AllowsGuards (relation : Mutex → Mutex → Prop) : Prop where
  contains : ∀ {before after : Mutex}, before.Restores after → relation before after
  trans : ∀ {first second third : Mutex}, relation first second → second.Restores third →
    relation first third

theorem allowsGuards_restores : AllowsGuards Restores := ⟨id, Restores.trans⟩

theorem allowsGuards_evolves : AllowsGuards Evolves :=
  ⟨Restores.evolves, fun before after => before.trans after.evolves⟩

theorem restores_guard (mutex : Mutex) : Restores mutex mutex.lock.unlock := by
  constructor <;> rintro rfl <;> rfl

/-- A guard inside a guard on the same mutex. -/
theorem evolves_nested (mutex : Mutex) : Evolves mutex mutex.lock.lock.unlock.unlock := by
  constructor
  · rintro rfl
    exact .inr rfl
  · rintro rfl
    rfl

theorem nested_stuck {mutex : Mutex} (free : mutex = unlocked) :
    mutex.lock.lock.unlock.unlock = stuck := by
  rw [free]
  rfl

end Mutex

/-! ## The mutexes of several objects -/

section Family

variable {Lock : Type u} {before after : Lock → Mutex}

/-- Nobody holds a mutex. -/
def AtRest (mutexes : Lock → Mutex) : Prop := ∀ lock, mutexes lock = .unlocked

/-- Some acquire never returns. -/
def IsStuck (mutexes : Lock → Mutex) : Prop := ∃ lock, mutexes lock = .stuck

theorem AtRest.not_isStuck (atRest : AtRest before) : ¬ IsStuck before := by
  rintro ⟨lock, stuck⟩
  rw [atRest lock] at stuck
  cases stuck

theorem AtRest.restores (atRest : AtRest before)
    (restores : ∀ lock, (before lock).Restores (after lock)) : AtRest after :=
  fun lock => (restores lock).unlocked (atRest lock)

theorem IsStuck.evolves (isStuck : IsStuck before)
    (evolves : ∀ lock, (before lock).Evolves (after lock)) : IsStuck after := by
  obtain ⟨lock, stuck⟩ := isStuck
  exact ⟨lock, (evolves lock).stuck stuck⟩

theorem AtRest.evolves (atRest : AtRest before)
    (evolves : ∀ lock, (before lock).Evolves (after lock)) (notStuck : ¬ IsStuck after) :
    AtRest after := by
  intro lock
  rcases (evolves lock).unlocked (atRest lock) with free | stuck
  · exact free
  · exact absurd ⟨lock, stuck⟩ notStuck

end Family

/-- An object with one mutex member. -/
class Guarded (Object : Type u) where
  mutex : Object → Mutex
  setMutex : Object → Mutex → Object
  mutex_setMutex : ∀ object held, mutex (setMutex object held) = held := by exact fun _ _ => rfl

/-- `std::lock_guard` on the object's mutex around a body: lock, run, unlock. -/
def lockGuard {Object : Type u} {Result : Type v} [Guarded Object]
    (body : Object → Result × Object) (object : Object) : Result × Object :=
  let locked := Guarded.setMutex object (Guarded.mutex object).lock
  let (result, after) := body locked
  (result, Guarded.setMutex after (Guarded.mutex after).unlock)

/-- `lockGuard` for a body without a result. -/
def lockGuard' {Object : Type u} [Guarded Object] (body : Object → Object) (object : Object) :
    Object :=
  (lockGuard (fun inner => ((), body inner)) object).2

/-- A guarded body looks the same to an observer that sees the mutex and enough of the rest. -/
theorem lockGuard_map {Object Other : Type u} {Result : Type v} [Guarded Object] [Guarded Other]
    {body : Object → Result × Object} {body' : Other → Result × Other} (look : Object → Other)
    (mutex_eq : ∀ object, Guarded.mutex (look object) = Guarded.mutex object)
    (setMutex_eq : ∀ object held, Guarded.setMutex (look object) held =
      look (Guarded.setMutex object held))
    (body_eq : ∀ object, body' (look object) = ((body object).1, look (body object).2))
    (object : Object) :
    lockGuard body' (look object) = ((lockGuard body object).1, look (lockGuard body object).2) := by
  simp only [lockGuard, mutex_eq, setMutex_eq, body_eq]

/-- The same for a body without a result. -/
theorem lockGuard'_map {Object Other : Type u} [Guarded Object] [Guarded Other]
    {body : Object → Object} {body' : Other → Other} (look : Object → Other)
    (mutex_eq : ∀ object, Guarded.mutex (look object) = Guarded.mutex object)
    (setMutex_eq : ∀ object held, Guarded.setMutex (look object) held =
      look (Guarded.setMutex object held))
    (body_eq : ∀ object, body' (look object) = look (body object)) (object : Object) :
    lockGuard' body' (look object) = look (lockGuard' body object) := by
  simp only [lockGuard', lockGuard, mutex_eq, setMutex_eq, body_eq]

/-- The mutex after a guarded body is the mutex the body left, released. -/
theorem mutex_lockGuard {Object : Type u} {Result : Type v} [Guarded Object]
    {body : Object → Result × Object} {change : Mutex → Mutex}
    (changes : ∀ inner, Guarded.mutex (body inner).2 = change (Guarded.mutex inner))
    (object : Object) :
    Guarded.mutex (lockGuard body object).2 = (change (Guarded.mutex object).lock).unlock := by
  simp only [lockGuard, Guarded.mutex_setMutex, changes]

/-- A guard around a body that leaves the mutex alone. -/
theorem restores_lockGuard {Object : Type u} {Result : Type v} [Guarded Object]
    {body : Object → Result × Object}
    (keeps : ∀ inner, Guarded.mutex (body inner).2 = Guarded.mutex inner) (object : Object) :
    (Guarded.mutex object).Restores (Guarded.mutex (lockGuard body object).2) := by
  rw [@mutex_lockGuard Object Result _ body id keeps]
  exact Mutex.restores_guard _

end MiniDB.Foundation
