/-!
# Runs of a deterministic object

An object is a step function from a state and a call to the next state. The
rules below lift a fact about one call to every state of a run. `EachCall`
carries a side condition on the calls, read in the state where each is made;
`throughout_iff_eachCall` is the exact form, where a call keeps the property
precisely when it meets the condition.
-/

namespace MiniDB.Foundation

universe u v

variable {State : Type u} {Call : Type v}

/-- The state after a sequence of calls. -/
def run (step : State → Call → State) (state : State) (calls : List Call) : State :=
  calls.foldl step state

/-- `holds` is true of the starting state and of every state the calls reach. -/
def Throughout (step : State → Call → State) (holds : State → Prop) :
    State → List Call → Prop
  | state, [] => holds state
  | state, call :: calls => holds state ∧ Throughout step holds (step state call) calls

/-- Every call meets `meets` in the state in which it is made. -/
def EachCall (step : State → Call → State) (meets : State → Call → Prop) :
    State → List Call → Prop
  | _, [] => True
  | state, call :: calls => meets state call ∧ EachCall step meets (step state call) calls

instance EachCall.decidable (step : State → Call → State) (meets : State → Call → Prop)
    [∀ state call, Decidable (meets state call)] :
    ∀ state calls, Decidable (EachCall step meets state calls)
  | _, [] => inferInstanceAs (Decidable True)
  | state, call :: calls =>
    have := EachCall.decidable step meets (step state call) calls
    inferInstanceAs (Decidable (_ ∧ _))

variable {step : State → Call → State} {meets : State → Call → Prop}

/-- Calls that meet two conditions. -/
theorem EachCall.and {meets' : State → Call → Prop} {state : State} {calls : List Call}
    (first : EachCall step meets state calls) (second : EachCall step meets' state calls) :
    EachCall step (fun state call => meets state call ∧ meets' state call) state calls := by
  induction calls generalizing state with
  | nil => trivial
  | cons call calls ih => exact ⟨⟨first.1, second.1⟩, ih first.2 second.2⟩

/-- Two conditions that agree along an invariant admit the same runs, if the calls that
meet them keep the invariant. -/
theorem eachCall_congr_of_kept {invariant : State → Prop} {meets' : State → Call → Prop}
    (agree : ∀ state call, invariant state → (meets state call ↔ meets' state call))
    (preserves : ∀ state call, invariant state → meets state call → invariant (step state call))
    {state : State} (initial : invariant state) (calls : List Call) :
    EachCall step meets state calls ↔ EachCall step meets' state calls := by
  induction calls generalizing state with
  | nil => exact Iff.rfl
  | cons call calls ih =>
    refine (and_congr_right fun here => ?_).trans (and_congr_left' (agree state call initial))
    exact ih (preserves state call initial here)

/-- Two conditions that agree along an invariant admit the same runs. -/
theorem eachCall_congr {invariant : State → Prop} {meets' : State → Call → Prop}
    (agree : ∀ state call, invariant state → (meets state call ↔ meets' state call))
    (preserves : ∀ state call, invariant state → invariant (step state call))
    {state : State} (initial : invariant state) (calls : List Call) :
    EachCall step meets state calls ↔ EachCall step meets' state calls :=
  eachCall_congr_of_kept agree (fun state call here _ => preserves state call here) initial calls

/-- A run looks the same to an observer that sees what the calls do and what they meet. -/
theorem eachCall_map {Other : Type u} {step' : Other → Call → Other} {meets' : Other → Call → Prop}
    (look : State → Other) (step_eq : ∀ state call, step' (look state) call = look (step state call))
    (meets_iff : ∀ state call, meets' (look state) call ↔ meets state call) (state : State)
    (calls : List Call) :
    EachCall step' meets' (look state) calls ↔ EachCall step meets state calls := by
  induction calls generalizing state with
  | nil => exact Iff.rfl
  | cons call calls ih =>
    unfold EachCall
    rw [meets_iff, step_eq, ih]

/-- Along a run of admitted calls, an invariant that they preserve carries what it
implies about each of them. -/
theorem EachCall.imp {invariant : State → Prop} {meets' : State → Call → Prop}
    (preserves : ∀ state call, invariant state → meets state call → invariant (step state call))
    (implies : ∀ state call, invariant state → meets state call → meets' state call)
    {state : State} {calls : List Call} (initial : invariant state)
    (admitted : EachCall step meets state calls) : EachCall step meets' state calls := by
  induction calls generalizing state with
  | nil => trivial
  | cons call calls ih =>
    exact ⟨implies state call initial admitted.1,
      ih (preserves state call initial admitted.1) admitted.2⟩

/-- What an invariant implies holds throughout a run of admitted calls. -/
theorem EachCall.throughout {invariant holds : State → Prop}
    (preserves : ∀ state call, invariant state → meets state call → invariant (step state call))
    (implies : ∀ state, invariant state → holds state)
    {state : State} {calls : List Call} (initial : invariant state)
    (admitted : EachCall step meets state calls) : Throughout step holds state calls := by
  induction calls generalizing state with
  | nil => exact implies state initial
  | cons call calls ih =>
    exact ⟨implies state initial, ih (preserves state call initial admitted.1) admitted.2⟩

/-- What holds throughout a run holds at its start. -/
theorem Throughout.first {holds : State → Prop} {state : State} {calls : List Call}
    (throughout : Throughout step holds state calls) : holds state := by
  cases calls with
  | nil => exact throughout
  | cons call calls => exact throughout.1

/-- What holds throughout a run holds at its end. -/
theorem Throughout.last {holds : State → Prop} {state : State} {calls : List Call}
    (throughout : Throughout step holds state calls) : holds (run step state calls) := by
  induction calls generalizing state with
  | nil => exact throughout
  | cons call calls ih => exact ih throughout.2

/-- An invariant of every call holds after every run. -/
theorem run_of_invariant {invariant : State → Prop}
    (preserves : ∀ state call, invariant state → invariant (step state call))
    {state : State} (initial : invariant state) (calls : List Call) :
    invariant (run step state calls) := by
  induction calls generalizing state with
  | nil => exact initial
  | cons call calls ih => exact ih (preserves state call initial)

/-- What an invariant of every call implies holds throughout every run. -/
theorem throughout_of_invariant {invariant holds : State → Prop}
    (preserves : ∀ state call, invariant state → invariant (step state call))
    (implies : ∀ state, invariant state → holds state) {state : State}
    (initial : invariant state) (calls : List Call) : Throughout step holds state calls := by
  induction calls generalizing state with
  | nil => exact implies state initial
  | cons call calls ih => exact ⟨implies state initial, ih (preserves state call initial)⟩

/-- The exact rule: where an admitted call keeps the property just when it meets the
condition, the property holds throughout a run of admitted calls just when every
call does. The auxiliary invariant `aux` may be used at each step, and is kept by the
steps after which the property still holds. -/
theorem EachCall.throughout_iff {admits : State → Call → Prop} {aux holds : State → Prop}
    (exact_step : ∀ state call, aux state → holds state → admits state call →
      (holds (step state call) ↔ meets state call))
    (aux_step : ∀ state call, aux state → holds state → admits state call →
      holds (step state call) → aux (step state call))
    {state : State} {calls : List Call} (auxInitial : aux state) (initial : holds state)
    (admitted : EachCall step admits state calls) :
    Throughout step holds state calls ↔ EachCall step meets state calls := by
  induction calls generalizing state with
  | nil => exact ⟨fun _ => trivial, fun _ => initial⟩
  | cons call calls ih =>
    have exactHere := exact_step state call auxInitial initial admitted.1
    have auxNext := aux_step state call auxInitial initial admitted.1
    constructor
    · rintro ⟨-, later⟩
      have next := later.first
      exact ⟨exactHere.mp next, (ih (auxNext next) next admitted.2).mp later⟩
    · rintro ⟨here, later⟩
      have next := exactHere.mpr here
      exact ⟨initial, (ih (auxNext next) next admitted.2).mpr later⟩

/-- The exact rule where every call is admitted. -/
theorem throughout_iff_eachCall {aux holds : State → Prop}
    (exact_step : ∀ state call, aux state → holds state →
      (holds (step state call) ↔ meets state call))
    (aux_step : ∀ state call, aux state → holds state → holds (step state call) →
      aux (step state call))
    {state : State} {calls : List Call} (auxInitial : aux state) (initial : holds state) :
    Throughout step holds state calls ↔ EachCall step meets state calls := by
  have admitted : ∀ (calls : List Call) (state : State),
      EachCall step (fun _ _ => True) state calls := by
    intro calls
    induction calls with
    | nil => exact fun _ => trivial
    | cons call calls ih => exact fun state => ⟨trivial, ih (step state call)⟩
  exact (admitted calls state).throughout_iff
    (fun state call auxHere here _ => exact_step state call auxHere here)
    (fun state call auxHere here _ => aux_step state call auxHere here) auxInitial initial

end MiniDB.Foundation
