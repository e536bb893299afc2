/-!
# Client programs

A client program asks an object one request after another; what it asks next may
depend on the answers. Running it against an object threads the object's state
through the requests. `Each` is a condition on the requests, read in the state
in which each is made, and the rules below lift a fact about one request to a
whole program.
-/

namespace MiniDB.Foundation

universe u

/-- A program that makes requests, with an answer type for each request. -/
inductive Client (Request : Type) (Answer : Request → Type) (Result : Type) where
  | done (result : Result)
  | ask (request : Request) (next : Answer request → Client Request Answer Result)

namespace Client

variable {Request : Type} {Answer : Request → Type} {Result Next : Type} {State : Type u}

/-- Run a second program on the result of the first. -/
def andThen : Client Request Answer Result → (Result → Client Request Answer Next) →
    Client Request Answer Next
  | done result, next => next result
  | ask request rest, next => ask request fun answer => (rest answer).andThen next

instance : Monad (Client Request Answer) where
  pure := done
  bind := andThen

/-- The program that makes one request. -/
def make (request : Request) : Client Request Answer (Answer request) := ask request done

/-- Run a program against an object. -/
def run (handle : (request : Request) → State → Answer request × State) :
    Client Request Answer Result → State → Result × State
  | done result, state => (result, state)
  | ask request next, state =>
    let (answer, state) := handle request state
    run handle (next answer) state

/-- Every request meets the condition in the state in which it is made. -/
def Each (handle : (request : Request) → State → Answer request × State)
    (meets : Request → State → Prop) : Client Request Answer Result → State → Prop
  | done _, _ => True
  | ask request next, state =>
    meets request state ∧
      Each handle meets (next (handle request state).1) (handle request state).2

instance Each.decidable (handle : (request : Request) → State → Answer request × State)
    (meets : Request → State → Prop) [∀ request state, Decidable (meets request state)] :
    ∀ (program : Client Request Answer Result) state, Decidable (Each handle meets program state)
  | done _, _ => inferInstanceAs (Decidable True)
  | ask request next, state =>
    have := Each.decidable handle meets (next (handle request state).1) (handle request state).2
    inferInstanceAs (Decidable (_ ∧ _))

variable {handle : (request : Request) → State → Answer request × State}
  {meets : Request → State → Prop}

@[simp] theorem run_pure (result : Result) (state : State) :
    run handle (pure result : Client Request Answer Result) state = (result, state) := rfl

@[simp] theorem run_make (request : Request) (state : State) :
    run handle (make request) state = handle request state := rfl

/-- A program and then the next one. -/
@[simp] theorem run_bind (program : Client Request Answer Result)
    (next : Result → Client Request Answer Next) (state : State) :
    run handle (program >>= next) state =
      run handle (next (run handle program state).1) (run handle program state).2 := by
  induction program generalizing state with
  | done result => rfl
  | ask request rest ih => exact ih _ _

@[simp] theorem each_pure (result : Result) (state : State) :
    Each handle meets (pure result : Client Request Answer Result) state ↔ True := Iff.rfl

@[simp] theorem each_make (request : Request) (state : State) :
    Each handle meets (make request) state ↔ meets request state :=
  iff_of_eq (and_true _)

/-- A program in two parts meets the condition when both parts do. -/
@[simp] theorem each_bind (program : Client Request Answer Result)
    (next : Result → Client Request Answer Next) (state : State) :
    Each handle meets (program >>= next) state ↔
      Each handle meets program state ∧
        Each handle meets (next (run handle program state).1) (run handle program state).2 := by
  induction program generalizing state with
  | done result => exact (iff_of_eq (true_and _)).symm
  | ask request rest ih =>
    change _ ∧ Each handle meets (rest _ >>= next) _ ↔ _
    rw [ih]
    exact and_assoc.symm

/-- What every request keeps, a program keeps. -/
theorem run_keeps (related : State → State → Prop) (refl : ∀ state, related state state)
    (trans : ∀ {first second third}, related first second → related second third →
      related first third)
    (request_keeps : ∀ request state, related state (handle request state).2)
    (program : Client Request Answer Result) (state : State) :
    related state (run handle program state).2 := by
  induction program generalizing state with
  | done result => exact refl state
  | ask request next ih => exact trans (request_keeps request state) (ih _ _)

/-- What every request that meets the condition keeps, a program of such requests keeps. -/
theorem Each.run_keeps (related : State → State → Prop) (refl : ∀ state, related state state)
    (trans : ∀ {first second third}, related first second → related second third →
      related first third)
    (request_keeps : ∀ request state, meets request state → related state (handle request state).2)
    {program : Client Request Answer Result} {state : State}
    (each : Each handle meets program state) : related state (run handle program state).2 := by
  induction program generalizing state with
  | done result => exact refl state
  | ask request next ih => exact trans (request_keeps request state each.1) (ih _ each.2)

/-- The exact rule: where a request keeps the property just when it meets the
condition, and nothing restores the property, a program keeps it just when every
request it makes meets the condition. The auxiliary invariant `aux` may be used at
each request, and is kept by the requests after which the property still holds. -/
theorem run_iff_each (aux holds : State → Prop)
    (exact_request : ∀ request state, aux state →
      (holds (handle request state).2 ↔ meets request state))
    (aux_request : ∀ request state, aux state → holds (handle request state).2 →
      aux (handle request state).2)
    (absorbing : ∀ (program : Client Request Answer Result) (state : State), ¬ holds state →
      ¬ holds (run handle program state).2)
    (holds_of_aux : ∀ state, aux state → holds state)
    (program : Client Request Answer Result) {state : State} (initial : aux state) :
    holds (run handle program state).2 ↔ Each handle meets program state := by
  induction program generalizing state with
  | done result => exact iff_of_true (holds_of_aux state initial) trivial
  | ask request next ih =>
    have here := exact_request request state initial
    constructor
    · intro kept
      have next : holds (handle request state).2 := by
        apply Classical.byContradiction
        intro broken
        exact absorbing _ _ broken kept
      exact ⟨here.mp next, (ih _ (aux_request request state initial next)).mp kept⟩
    · rintro ⟨met, later⟩
      exact (ih _ (aux_request request state initial (here.mpr met))).mpr later

/-! ## Checked runs -/

/-- Run a program as long as its requests meet the condition. -/
def checked (handle : (request : Request) → State → Answer request × State)
    (meets : Request → State → Prop) [∀ request state, Decidable (meets request state)] :
    Client Request Answer Result → State → Option (Result × State)
  | done result, state => some (result, state)
  | ask request next, state =>
    if meets request state then
      checked handle meets (next (handle request state).1) (handle request state).2
    else none

section Checked

variable [∀ request state, Decidable (meets request state)]

@[simp] theorem checked_pure (result : Result) (state : State) :
    checked handle meets (pure result : Client Request Answer Result) state =
      some (result, state) := rfl

/-- A request that meets the condition is answered. -/
theorem checked_make {request : Request} {state : State} (met : meets request state) :
    checked handle meets (make request) state = some (handle request state) := by
  rw [make, checked, if_pos met]
  rfl

/-- Every request of both programs is checked. -/
@[simp] theorem checked_bind (program : Client Request Answer Result)
    (next : Result → Client Request Answer Next) (state : State) :
    checked handle meets (program >>= next) state =
      (checked handle meets program state).bind fun out =>
        checked handle meets (next out.1) out.2 := by
  induction program generalizing state with
  | done result => rfl
  | ask request rest ih =>
    change (if meets request state then checked handle meets (rest _ >>= next) _ else none) = _
    rw [checked, ih]
    split
    · rfl
    · rfl

/-- A checked run is a run whose requests all meet the condition. -/
theorem checked_eq_some_iff {program : Client Request Answer Result} {state : State}
    {out : Result × State} :
    checked handle meets program state = some out ↔
      Each handle meets program state ∧ run handle program state = out := by
  induction program generalizing state with
  | done result =>
    rw [checked, Option.some.injEq]
    exact (iff_of_eq (true_and _)).symm
  | ask request next ih =>
    rw [checked, Each, run]
    by_cases met : meets request state
    · rw [if_pos met, ih, eq_true met, true_and]
    · rw [if_neg met, eq_false met, false_and, false_and]
      exact iff_of_false (Option.some_ne_none out).symm id

end Checked

/-! ## What is seen of a run -/

/-- What is seen of the answers along a run, in their order. -/
def observed {Seen : Type} (handle : (request : Request) → State → Answer request × State)
    (see : (request : Request) → Answer request → List Seen) :
    Client Request Answer Result → State → List Seen
  | done _, _ => []
  | ask request next, state =>
    see request (handle request state).1 ++
      observed handle see (next (handle request state).1) (handle request state).2

section Observed

variable {Seen : Type} {see : (request : Request) → Answer request → List Seen}

@[simp] theorem observed_pure (result : Result) (state : State) :
    observed handle see (pure result : Client Request Answer Result) state = [] := rfl

@[simp] theorem observed_make (request : Request) (state : State) :
    observed handle see (make request) state = see request (handle request state).1 :=
  List.append_nil _

/-- What is seen of the first program, and then of the next one. -/
@[simp] theorem observed_bind (program : Client Request Answer Result)
    (next : Result → Client Request Answer Next) (state : State) :
    observed handle see (program >>= next) state =
      observed handle see program state ++
        observed handle see (next (run handle program state).1) (run handle program state).2 := by
  induction program generalizing state with
  | done result => rfl
  | ask request rest ih =>
    change _ ++ observed handle see (rest _ >>= next) _ = _
    rw [ih]
    exact (List.append_assoc _ _ _).symm

end Observed

/-! ## What a program can return -/

/-- Whatever the answers are, the result meets the condition. -/
def Returns (post : Result → Prop) : Client Request Answer Result → Prop
  | done result => post result
  | ask _ next => ∀ answer, Returns post (next answer)

/-- What a program returns on every answer it returns in a run. -/
theorem Returns.run {post : Result → Prop} {program : Client Request Answer Result}
    (returns : Returns post program) (state : State) : post (run handle program state).1 := by
  induction program generalizing state with
  | done result => exact returns
  | ask request next ih => exact ih _ (returns _) _

/-- A weaker statement about the result. -/
theorem Returns.imp {post weaker : Result → Prop} {program : Client Request Answer Result}
    (returns : Returns post program) (implies : ∀ result, post result → weaker result) :
    Returns weaker program := by
  induction program with
  | done result => exact implies result returns
  | ask request next ih => exact fun answer => ih answer (returns answer)

/-- What is true of every result. -/
theorem returns_of_forall {post : Result → Prop} (all : ∀ result, post result)
    (program : Client Request Answer Result) : Returns post program := by
  induction program with
  | done result => exact all result
  | ask request next ih => exact fun answer => ih answer

@[simp] theorem returns_pure {post : Result → Prop} {result : Result} :
    Returns post (pure result : Client Request Answer Result) ↔ post result := Iff.rfl

@[simp] theorem returns_make {request : Request} {post : Answer request → Prop} :
    Returns post (make request : Client Request Answer (Answer request)) ↔
      ∀ answer, post answer := Iff.rfl

/-- The next program is asked for each result that the first one can return. -/
@[simp] theorem returns_bind {post : Next → Prop} {program : Client Request Answer Result}
    {next : Result → Client Request Answer Next} :
    Returns post (program >>= next) ↔ Returns (fun result => Returns post (next result)) program := by
  induction program with
  | done result => exact Iff.rfl
  | ask request rest ih => exact forall_congr' ih

end Client

end MiniDB.Foundation
