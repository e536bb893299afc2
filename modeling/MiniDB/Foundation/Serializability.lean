import Mathlib.Data.List.Basic
import Mathlib.Logic.Function.Basic
import MiniDB.Foundation.Run

/-!
# Serial orders of interleaved accesses

Owners access shared items in an interleaving. Two accesses of different owners
conflict when they are to one item and one of them writes it; all others commute. So an
interleaving whose conflicts all point forward in an order of the owners does to items
and owners what the owners do when they run one after the other in this order
(`run_serial_of_forward`).
-/

namespace MiniDB.Foundation

universe u v

/-! ## Calls that commute -/

section Commuting

variable {State : Type u} {Call : Type v} {step : State → Call → State}

/-- Two calls lead to the same state in either order. -/
def Commutes (step : State → Call → State) (first second : Call) : Prop :=
  ∀ state, step (step state first) second = step (step state second) first

theorem run_cons (step : State → Call → State) (state : State) (call : Call) (calls : List Call) :
    run step state (call :: calls) = run step (step state call) calls :=
  rfl

theorem run_append (step : State → Call → State) (state : State) (first second : List Call) :
    run step state (first ++ second) = run step (run step state first) second :=
  List.foldl_append

/-- A call can be made after the calls that it commutes with instead of before them. -/
theorem run_step_comm {call : Call} {calls : List Call}
    (commutes : ∀ other ∈ calls, Commutes step call other) (state : State) :
    run step (step state call) calls = step (run step state calls) call := by
  induction calls generalizing state with
  | nil => rfl
  | cons other calls ih =>
    have here := commutes other List.mem_cons_self
    have later := fun next member => commutes next (List.mem_cons_of_mem other member)
    rw [run_cons, run_cons, here state]
    exact ih later (step state other)

/-- The calls with a property can all be made first if none of them depends on a call
without the property that was made before it. -/
theorem run_filter_append (early : Call → Bool) {calls : List Call}
    (commutes : calls.Pairwise fun first second =>
      early first = false → early second = true → Commutes step first second) (state : State) :
    run step state calls =
      run step state (calls.filter early ++ calls.filter fun call => !early call) := by
  induction calls generalizing state with
  | nil => rfl
  | cons call calls ih =>
    obtain ⟨here, later⟩ := List.pairwise_cons.mp commutes
    rw [run_cons, ih later, run_append, run_append]
    cases side : early call with
    | true => simp [side, run_cons]
    | false =>
      have comm : ∀ other ∈ calls.filter early, Commutes step call other := by
        intro other member
        obtain ⟨among, isEarly⟩ := List.mem_filter.mp member
        exact here other among side isEarly
      rw [run_step_comm comm]
      simp [side, run_cons]

end Commuting

/-! ## Accesses -/

/-- An owner reads an item, or writes it. -/
structure Access (Owner : Type u) (Item : Type v) where
  owner : Owner
  item : Item
  write : Bool
deriving DecidableEq

variable {Owner : Type u} {Item : Type v} {Local Value : Type}

namespace Access

/-- The order of the two accesses can make a difference to the items. -/
def Conflicts (first second : Access Owner Item) : Prop :=
  first.item = second.item ∧ (first.write = true ∨ second.write = true)

end Access

/-- The values of the items, and what each owner knows. -/
structure World (Owner : Type u) (Item : Type v) (Local Value : Type) where
  locals : Owner → Local
  values : Item → Value

variable [DecidableEq Owner]

/-- An access as its owner's program makes it: from what the owner knows and the value of
the item, the program says what the owner knows next and, for a write, the new value. -/
def perform [DecidableEq Item] (program : Access Owner Item → Local → Value → Local × Value)
    (world : World Owner Item Local Value) (access : Access Owner Item) :
    World Owner Item Local Value :=
  let (next, value) := program access (world.locals access.owner) (world.values access.item)
  { locals := Function.update world.locals access.owner next
    values := if access.write then Function.update world.values access.item value
      else world.values }

/-- Accesses of different owners commute unless they conflict. -/
theorem commutes_perform [DecidableEq Item]
    (program : Access Owner Item → Local → Value → Local × Value)
    {first second : Access Owner Item} (different : first.owner ≠ second.owner)
    (free : ¬ first.Conflicts second) : Commutes (perform program) first second := by
  intro world
  rcases eq_or_ne first.item second.item with same | apart
  · -- one item: both accesses read it
    have bothRead : first.write = false ∧ second.write = false := by
      simpa [Access.Conflicts, same] using free
    simp [perform, bothRead, Function.update_of_ne different,
      Function.update_of_ne different.symm, Function.update_comm different]
  · cases firstWrites : first.write <;> cases secondWrites : second.write <;>
      simp [perform, firstWrites, secondWrites, Function.update_of_ne different,
        Function.update_of_ne different.symm, Function.update_of_ne apart,
        Function.update_of_ne apart.symm, Function.update_comm apart,
        Function.update_comm different]

/-! ## Orders of the owners -/

/-- The first owner comes before the second one, which need not be in the order yet. -/
def Before (order : List Owner) (first second : Owner) : Prop :=
  order.idxOf first < order.idxOf second

/-- An owner in the order comes before every owner that is not. -/
theorem before_of_mem {order : List Owner} {first second : Owner} (listed : first ∈ order)
    (unlisted : second ∉ order) : Before order first second := by
  unfold Before
  rw [List.idxOf_eq_length unlisted]
  exact List.idxOf_lt_length_of_mem listed

/-- An owner that comes before another one is in the order. -/
theorem Before.mem {order : List Owner} {first second : Owner}
    (before : Before order first second) : first ∈ order :=
  List.idxOf_lt_length_iff.mp (Nat.lt_of_lt_of_le before List.idxOf_le_length)

/-- What comes before stays before when the order goes on. -/
theorem Before.append {order : List Owner} {first second : Owner}
    (before : Before order first second) (later : List Owner) :
    Before (order ++ later) first second := by
  have listed := before.mem
  unfold Before at before ⊢
  rw [List.idxOf_append, if_pos listed, List.idxOf_append]
  split
  · exact before
  · have inside := List.idxOf_lt_length_of_mem listed
    omega

/-- Nobody comes before the first owner of an order. -/
theorem not_before_head {order : List Owner} {head owner : Owner} :
    ¬ Before (head :: order) owner head := by
  simp [Before]

/-- One more owner in front of both. -/
theorem before_cons {order : List Owner} {head first second : Owner} (notFirst : head ≠ first)
    (notSecond : head ≠ second) :
    Before (head :: order) first second ↔ Before order first second := by
  unfold Before
  rw [List.idxOf_cons_ne order notFirst, List.idxOf_cons_ne order notSecond]
  exact Nat.succ_lt_succ_iff

/-- The accesses, each owner's in one piece and in their own order. -/
def serial (order : List Owner) (accesses : List (Access Owner Item)) :
    List (Access Owner Item) :=
  order.flatMap fun owner => accesses.filter fun access => access.owner = owner

/-- Conflicting accesses of different owners come in the order of their owners. -/
def Forward (order : List Owner) (accesses : List (Access Owner Item)) : Prop :=
  accesses.Pairwise fun first second =>
    first.owner ≠ second.owner → first.Conflicts second → Before order first.owner second.owner

/-- More owners behind them. -/
theorem Forward.append {order : List Owner} {accesses : List (Access Owner Item)}
    (forward : Forward order accesses) (later : List Owner) : Forward (order ++ later) accesses :=
  List.Pairwise.imp (fun {_ _} before different conflicts =>
    (before different conflicts).append later) forward

/-- The accesses of one owner are nobody else's. -/
theorem serial_filter_ne {order : List Owner} {owner : Owner} (absent : owner ∉ order)
    (accesses : List (Access Owner Item)) :
    serial order (accesses.filter fun access => !(decide (access.owner = owner))) =
      serial order accesses := by
  refine List.flatMap_congr fun other member => ?_
  rw [List.filter_filter]
  refine List.filter_congr fun access _ => ?_
  rcases eq_or_ne access.owner other with isOther | notOther
  · have notOwner : access.owner ≠ owner := by
      rintro rfl
      exact absent (isOther ▸ member)
    simp [notOwner]
  · simp [notOther]

/-- An interleaving whose conflicts all point forward in an order of the owners has the
outcome of running the owners one after the other. -/
theorem run_serial_of_forward [DecidableEq Item]
    (program : Access Owner Item → Local → Value → Local × Value)
    {order : List Owner} (nodup : order.Nodup) {accesses : List (Access Owner Item)}
    (covered : ∀ access ∈ accesses, access.owner ∈ order) (forward : Forward order accesses)
    (world : World Owner Item Local Value) :
    run (perform program) world (serial order accesses) = run (perform program) world accesses := by
  induction order generalizing accesses world with
  | nil =>
    have none : accesses = [] := List.eq_nil_iff_forall_not_mem.mpr fun access member =>
      List.not_mem_nil (covered access member)
    rw [none, serial, List.flatMap_nil]
  | cons head order ih =>
    obtain ⟨fresh, nodupRest⟩ := List.nodup_cons.mp nodup
    -- the accesses of the first owner depend on nobody's earlier access
    have independent : accesses.Pairwise fun earlier later =>
        decide (earlier.owner = head) = false → decide (later.owner = head) = true →
          Commutes (perform program) earlier later := by
      refine List.Pairwise.imp (fun {earlier later} before isOther isHead => ?_) forward
      have other : earlier.owner ≠ head := of_decide_eq_false isOther
      have own : later.owner = head := of_decide_eq_true isHead
      have different : earlier.owner ≠ later.owner := own ▸ other
      refine commutes_perform program different fun conflicts => ?_
      exact not_before_head (own ▸ before different conflicts)
    have coveredRest : ∀ access ∈ accesses.filter fun access => !(decide (access.owner = head)),
        access.owner ∈ order := by
      intro access member
      obtain ⟨among, other⟩ := List.mem_filter.mp member
      exact (List.mem_cons.mp (covered access among)).resolve_left (by simpa using other)
    have forwardRest :
        Forward order (accesses.filter fun access => !(decide (access.owner = head))) := by
      refine List.Pairwise.imp_of_mem (fun {earlier later} fromEarlier fromLater before => ?_)
        (List.Pairwise.filter _ forward)
      intro different conflicts
      have notFirst : earlier.owner ≠ head := by simpa using (List.mem_filter.mp fromEarlier).2
      have notSecond : later.owner ≠ head := by simpa using (List.mem_filter.mp fromLater).2
      exact (before_cons notFirst.symm notSecond.symm).mp (before different conflicts)
    calc
      _ = run (perform program) (run (perform program) world
            (accesses.filter fun access => decide (access.owner = head)))
            (serial order accesses) := by rw [serial, List.flatMap_cons, run_append, serial]
      _ = run (perform program) world accesses := by
        rw [← serial_filter_ne fresh, ih nodupRest coveredRest forwardRest, ← run_append,
          ← run_filter_append _ independent]

end MiniDB.Foundation
