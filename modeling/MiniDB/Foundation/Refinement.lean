import MiniDB.Foundation.Run

/-!
# Objects that conform to a specification

A specification relates an abstract state, a call and an answer to the abstract
states that may follow, so it may leave open which one does. An object conforms
when every answer along a run is allowed. A simulation that one step keeps gives
conformance of whole runs.
-/

namespace MiniDB.Foundation

universe u v w x

variable {State : Type u} {Call : Type v} {Answer : Type w} {Abstract : Type x}

/-- Along the calls every answer is allowed, from an abstract state on. -/
def Conforms (allows : Abstract → Call → Answer → Abstract → Prop)
    (step : State → Call → Answer × State) : Abstract → State → List Call → Prop
  | _, _, [] => True
  | abstract, state, call :: calls =>
    ∃ next, allows abstract call (step state call).1 next ∧
      Conforms allows step next (step state call).2 calls

/-- A simulation that admitted calls keep. -/
theorem conforms_of_simulation {allows : Abstract → Call → Answer → Abstract → Prop}
    {step : State → Call → Answer × State} {meets : State → Call → Prop}
    {represents : Abstract → State → Prop}
    (simulates : ∀ abstract state call, represents abstract state → meets state call →
      ∃ next, allows abstract call (step state call).1 next ∧
        represents next (step state call).2)
    {abstract : Abstract} {state : State} {calls : List Call} (initial : represents abstract state)
    (admitted : EachCall (fun state call => (step state call).2) meets state calls) :
    Conforms allows step abstract state calls := by
  induction calls generalizing abstract state with
  | nil => trivial
  | cons call calls ih =>
    obtain ⟨next, allowed, later⟩ := simulates abstract state call initial admitted.1
    exact ⟨next, allowed, ih later admitted.2⟩

end MiniDB.Foundation
