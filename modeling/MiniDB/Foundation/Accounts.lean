import MiniDB.Foundation.Run

/-!
# Items that pass through an object

Calls bring items into an object and take items out of it. Where every call is
balanced, so is a whole run: what was held and what came in is what went out and
what is still held, in the same order or up to a reordering.
-/

namespace MiniDB.Foundation

universe u v w

variable {State : Type u} {Call : Type v} {Item : Type w} {step : State → Call → State}

/-- The items that the calls of a run yield, in order. -/
def gathered (step : State → Call → State) (yields : State → Call → List Item) :
    State → List Call → List Item
  | _, [] => []
  | state, call :: calls => yields state call ++ gathered step yields (step state call) calls

variable {enters leaves : State → Call → List Item} {held : State → List Item}

/-- Items that every call passes on in order leave a run in the order in which they entered. -/
theorem gathered_in_order
    (balance : ∀ state call,
      held state ++ enters state call = leaves state call ++ held (step state call))
    (state : State) (calls : List Call) :
    held state ++ gathered step enters state calls =
      gathered step leaves state calls ++ held (run step state calls) := by
  induction calls generalizing state with
  | nil => simp [gathered, run]
  | cons call calls ih =>
    calc held state ++ (enters state call ++ gathered step enters (step state call) calls)
        = leaves state call ++
            (held (step state call) ++ gathered step enters (step state call) calls) := by
          rw [← List.append_assoc, balance, List.append_assoc]
      _ = leaves state call ++ gathered step leaves (step state call) calls ++
            held (run step (step state call) calls) := by
          rw [ih, List.append_assoc]

/-- Items that no call loses or repeats are neither lost nor repeated by a run. -/
theorem gathered_perm
    (balance : ∀ state call,
      (held state ++ enters state call).Perm (leaves state call ++ held (step state call)))
    (state : State) (calls : List Call) :
    (held state ++ gathered step enters state calls).Perm
      (gathered step leaves state calls ++ held (run step state calls)) := by
  induction calls generalizing state with
  | nil => simp [gathered, run]
  | cons call calls ih =>
    have here := (balance state call).append_right (gathered step enters (step state call) calls)
    have later := (ih (step state call)).append_left (leaves state call)
    simp only [List.append_assoc] at here
    simpa only [gathered, run, List.foldl_cons, List.append_assoc] using here.trans later

end MiniDB.Foundation
