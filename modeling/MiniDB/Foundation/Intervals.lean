import Mathlib.Data.List.Basic

/-!
# Intervals of an ordered list

What a property keeps of a list is a prefix of it if later elements do not have the property
without the earlier ones, and a suffix if it is the other way round. The elements of an
interval of times are therefore consecutive in a list that is ordered by time.
-/

namespace MiniDB.Foundation

universe u v

variable {Value : Type u} {values : List Value} {holds : Value → Bool}

theorem filter_prefix
    (downward : values.Pairwise fun value later => holds later = true → holds value = true) :
    values.filter holds <+: values := by
  induction values with
  | nil => exact List.nil_prefix
  | cons value values ih =>
    obtain ⟨first, rest⟩ := List.pairwise_cons.mp downward
    by_cases here : holds value = true
    · rw [List.filter_cons_of_pos here]
      exact (List.prefix_cons_inj value).mpr (ih rest)
    · have none : values.filter holds = [] :=
        List.filter_eq_nil_iff.mpr fun later inValues isLater => here (first later inValues isLater)
      rw [List.filter_cons_of_neg here, none]
      exact List.nil_prefix

theorem filter_suffix
    (upward : values.Pairwise fun value later => holds value = true → holds later = true) :
    values.filter holds <:+ values := by
  induction values with
  | nil => exact List.suffix_rfl
  | cons value values ih =>
    obtain ⟨first, rest⟩ := List.pairwise_cons.mp upward
    by_cases here : holds value = true
    · have all : (value :: values).filter holds = value :: values :=
        List.filter_eq_self.mpr
          (List.forall_mem_cons.mpr ⟨here, fun later inValues => first later inValues here⟩)
      exact ⟨[], all⟩
    · rw [List.filter_cons_of_neg here]
      exact (ih rest).trans (List.suffix_cons value values)

/-- The elements of an interval of times are consecutive. -/
theorem filter_interval_infix {Time : Type v} [LE Time] (time : Value → Time)
    {since before : Time → Prop} [DecidablePred since] [DecidablePred before]
    (upward : ∀ time later, time ≤ later → since time → since later)
    (downward : ∀ time later, time ≤ later → before later → before time)
    (ordered : values.Pairwise fun value later => time value ≤ time later) :
    values.filter (fun value => since (time value) ∧ before (time value)) <:+: values := by
  have begins : values.filter (fun value => before (time value)) <+: values := by
    refine filter_prefix (ordered.imp fun inOrder => ?_)
    simpa only [decide_eq_true_iff] using downward _ _ inOrder
  have ends : (values.filter fun value => before (time value)).filter
      (fun value => since (time value)) <:+ values.filter fun value => before (time value) := by
    refine filter_suffix ((ordered.sublist List.filter_sublist).imp fun inOrder => ?_)
    simpa only [decide_eq_true_iff] using upward _ _ inOrder
  simp only [List.filter_filter, ← Bool.decide_and] at ends
  exact ends.isInfix.trans begins.isInfix

end MiniDB.Foundation
