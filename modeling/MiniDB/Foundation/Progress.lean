import MiniDB.Foundation.Run

/-!
# Runs that complete

Where every admitted call lowers a measure, a run of admitted calls is no longer than the
measure of its start. If besides only finished states admit no call, every such run can be
continued until it finishes, whatever was chosen on the way.
-/

namespace MiniDB.Foundation

universe u v

variable {State : Type u} {Call : Type v} {step : State → Call → State}
  {meets : State → Call → Prop}

/-- No call is admitted. -/
def Stuck (meets : State → Call → Prop) (state : State) : Prop := ∀ call, ¬ meets state call

/-- A run of calls that lower a measure is no longer than the measure allows. -/
theorem EachCall.length_le {invariant : State → Prop} {measure : State → Nat}
    (preserves : ∀ state call, invariant state → meets state call → invariant (step state call))
    (lowers : ∀ state call, invariant state → meets state call →
      measure (step state call) < measure state)
    {state : State} {calls : List Call} (initial : invariant state)
    (admitted : EachCall step meets state calls) :
    calls.length + measure (run step state calls) ≤ measure state := by
  induction calls generalizing state with
  | nil => exact Nat.le_of_eq (Nat.zero_add _)
  | cons call calls ih =>
    have later := ih (preserves state call initial admitted.1) admitted.2
    have lower := lowers state call initial admitted.1
    calc
      _ = calls.length + measure (run step (step state call) calls) + 1 := by
        rw [List.length_cons, run, run, List.foldl_cons]
        omega
      _ ≤ measure (step state call) + 1 := Nat.succ_le_succ later
      _ ≤ measure state := lower

/-- An invariant of admitted calls holds after a run of them. -/
theorem EachCall.run_invariant {invariant : State → Prop}
    (preserves : ∀ state call, invariant state → meets state call → invariant (step state call))
    {state : State} {calls : List Call} (initial : invariant state)
    (admitted : EachCall step meets state calls) : invariant (run step state calls) :=
  (EachCall.throughout preserves (fun _ here => here) initial admitted).last

theorem EachCall.append {state : State} {calls later : List Call}
    (first : EachCall step meets state calls)
    (second : EachCall step meets (run step state calls) later) :
    EachCall step meets state (calls ++ later) := by
  induction calls generalizing state with
  | nil => exact second
  | cons call calls ih => exact ⟨first.1, ih first.2 second⟩

/-- A measure that admitted calls lower leads to a state that admits none. -/
theorem exists_run_to_stuck {invariant : State → Prop} {measure : State → Nat}
    (preserves : ∀ state call, invariant state → meets state call → invariant (step state call))
    (lowers : ∀ state call, invariant state → meets state call →
      measure (step state call) < measure state)
    {state : State} (initial : invariant state) :
    ∃ calls, EachCall step meets state calls ∧ Stuck meets (run step state calls) := by
  induction bound : measure state using Nat.strongRecOn generalizing state with
  | ind bound ih =>
    by_cases stuck : Stuck meets state
    · exact ⟨[], trivial, stuck⟩
    · obtain ⟨call, admitted⟩ := Classical.not_forall_not.mp stuck
      have lower := lowers state call initial admitted
      obtain ⟨calls, eachLater, isStuck⟩ :=
        ih _ (by omega) (preserves state call initial admitted) rfl
      exact ⟨call :: calls, ⟨admitted, eachLater⟩, isStuck⟩

end MiniDB.Foundation
