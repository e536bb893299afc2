import MiniDB.Foundation.Client

/-!
# Triples of client programs

`Leads` says what holds after a client program that was run from a state with the
precondition, if each of its requests meets the condition. The rules follow the
constructors of a program. Two objects that give the same answers are the same to it.
-/

namespace MiniDB.Foundation.Client

universe u v

variable {Request : Type} {Answer : Request → Type} {Result Next : Type} {State : Type u}
  {handle : (request : Request) → State → Answer request × State}
  {meets : Request → State → Prop}

/-- From the precondition, a program whose requests all meet the condition leads to the
postcondition. -/
def Leads (handle : (request : Request) → State → Answer request × State)
    (meets : Request → State → Prop) (pre : State → Prop) (program : Client Request Answer Result)
    (post : Result → State → Prop) : Prop :=
  ∀ state, pre state → Each handle meets program state →
    post (run handle program state).1 (run handle program state).2

variable {pre stronger : State → Prop} {program : Client Request Answer Result}
  {post weaker : Result → State → Prop} {final : Next → State → Prop}

theorem Leads.pure {result : Result} (holds : ∀ state, pre state → post result state) :
    Leads handle meets pre (Pure.pure result) post :=
  fun state initial _ => holds state initial

theorem Leads.make {request : Request} {post : Answer request → State → Prop}
    (holds : ∀ state, pre state → meets request state →
      post (handle request state).1 (handle request state).2) :
    Leads handle meets pre (Client.make request) post :=
  fun state initial each => holds state initial ((each_make request state).mp each)

/-- A program in two parts, each with its own triple. -/
theorem Leads.bind {next : Result → Client Request Answer Next}
    (first : Leads handle meets pre program post)
    (rest : ∀ result, Leads handle meets (post result) (next result) final) :
    Leads handle meets pre (program >>= next) final := by
  intro state initial each
  obtain ⟨eachFirst, eachRest⟩ := (each_bind program next state).mp each
  rw [run_bind]
  exact rest _ _ (first state initial eachFirst) eachRest

theorem Leads.imp (leads : Leads handle meets pre program post)
    (before : ∀ state, stronger state → pre state)
    (after : ∀ result state, post result state → weaker result state) :
    Leads handle meets stronger program weaker :=
  fun state initial each => after _ _ (leads state (before state initial) each)

theorem Leads.ite {condition : Prop} [Decidable condition]
    {other : Client Request Answer Result} (first : Leads handle meets pre program post)
    (second : Leads handle meets pre other post) :
    Leads handle meets pre (if condition then program else other) post := by
  split
  · exact first
  · exact second

/-- A precondition for some value of a parameter. -/
theorem Leads.exists {Index : Type} {pre : Index → State → Prop}
    (leads : ∀ index, Leads handle meets (pre index) program post) :
    Leads handle meets (fun state => ∃ index, pre index state) program post :=
  fun state ⟨index, initial⟩ each => leads index state initial each

/-- A part of the precondition that is not about the state. -/
theorem Leads.of_fact {fact : Prop} (leads : fact → Leads handle meets pre program post) :
    Leads handle meets (fun state => fact ∧ pre state) program post :=
  fun state ⟨known, initial⟩ each => leads known state initial each

/-- Where a request that meets the condition is answered alike by related objects, which
stay related, a program of such requests has the same result on both. -/
theorem run_of_simulates {Other : Type v}
    {handleOther : (request : Request) → Other → Answer request × Other}
    {relation : State → Other → Prop}
    (simulates : ∀ request state other, relation state other → meets request state →
      (handle request state).1 = (handleOther request other).1 ∧
        relation (handle request state).2 (handleOther request other).2)
    (program : Client Request Answer Result) {state : State} {other : Other}
    (related : relation state other) (each : Each handle meets program state) :
    (run handle program state).1 = (run handleOther program other).1 ∧
      relation (run handle program state).2 (run handleOther program other).2 := by
  induction program generalizing state other with
  | done result => exact ⟨rfl, related⟩
  | ask request next ih =>
    obtain ⟨sameAnswer, later⟩ := simulates request state other related each.1
    simp only [run, ← sameAnswer]
    exact ih _ later each.2

end MiniDB.Foundation.Client
