import MiniDB.Executors.QueryOperators
import MiniDB.Executors.Streams

/-!
# The rows of a merge

A merge restarts if its children do. Its rows are those of the hot child and then
those of the cold child; the call that finds the hot child exhausted already asks the
cold one. A child that is null has no rows.
-/

namespace MiniDB.Executors

open Foundation Buffer PoolProgram Storage

variable {ready : BufferPool DiskManager → Prop} {View : Type} {view : Row → View} {bound : Nat}
  {fuel : Nat} {row : Row} {pool : BufferPool DiskManager}

/-- One output after another; the second is reached only if the first one ends. -/
def Output.append (first second : Output View) : Output View :=
  { rows := if first.complete then first.rows ++ second.rows else first.rows
    complete := first.complete && second.complete }

/-! ## Children that may be null -/

section Child

variable {E : Type} [Executor E] {fits : E → Prop}

/-- A child that may be null; a null child has no rows. -/
instance : Executor (Option E) where
  init := MergeExecutor.initChild
  next fuel row
    | none => return (some (false, row), none)
    | some child => do
      let (answer, child) ← Executor.next fuel row child
      return (answer, some child)

/-- The child is there and fits. -/
def ChildFits (fits : E → Prop) (child : Option E) : Prop := ∃ present, child = some present ∧ fits present

theorem init_child (child : Option E) :
    Executor.init fuel child = MergeExecutor.initChild fuel child :=
  rfl

/-- A child that is there is initialised. -/
theorem run_init_child (child : E) :
    run (Executor.init fuel (some child)) pool =
      ((run (Executor.init fuel child) pool).1.map some,
        (run (Executor.init fuel child) pool).2) := by
  rw [init_child]
  simp only [MergeExecutor.initChild, run_bind, run_pure]

/-- A child that is there gives its next row. -/
theorem run_next_child (child : E) :
    run (Executor.next fuel row (some child)) pool =
      (((run (Executor.next fuel row child) pool).1.1,
        some (run (Executor.next fuel row child) pool).1.2),
        (run (Executor.next fuel row child) pool).2) := by
  simp only [Executor.next, run_bind, run_pure]

/-- A child streams what it streams. -/
theorem Streams.child {complete : Bool} {rows : List View} {executor : E}
    (streams : Streams ready view bound complete rows executor) :
    Streams ready view bound complete rows (some executor) := by
  induction rows generalizing executor with
  | nil =>
    intro fuel row pool enough isReady
    rw [run_next_child]
    exact streams fuel row pool enough isReady
  | cons seen rows ih =>
    intro fuel row pool enough isReady
    rw [run_next_child]
    obtain ⟨returned, rest⟩ := streams fuel row pool enough isReady
    exact ⟨returned, ih rest⟩

/-- A child keeps what it keeps. -/
theorem Keeps.child (keeps : Keeps ready fits) : Keeps ready (ChildFits fits) where
  init := by
    rintro fuel _ pool ⟨child, rfl, isFit⟩ isReady
    obtain ⟨readyAfter, fitAfter⟩ := keeps.init fuel child pool isFit isReady
    rw [run_init_child]
    refine ⟨readyAfter, fun after started => ?_⟩
    obtain ⟨present, defined, rfl⟩ := Option.map_eq_some_iff.mp started
    exact ⟨present, rfl, fitAfter present defined⟩
  next := by
    rintro fuel row _ pool ⟨child, rfl, isFit⟩ isReady
    obtain ⟨readyAfter, fitAfter⟩ := keeps.next fuel row child pool isFit isReady
    rw [run_next_child]
    exact ⟨readyAfter, _, rfl, fitAfter⟩

/-- A child restarts as it does. -/
theorem Restarts.child {output : Option (Output View)}
    (restarts : Restarts ready view fits bound output) :
    Restarts ready view (ChildFits fits) bound output where
  keeps := restarts.keeps.child
  undefined := by
    rintro isNone fuel _ pool enough ⟨child, rfl, isFit⟩ isReady
    rw [run_init_child, restarts.undefined isNone fuel child pool enough isFit isReady]
    rfl
  starts := by
    rintro out defined fuel _ pool enough ⟨child, rfl, isFit⟩ isReady
    obtain ⟨after, started, streams⟩ :=
      restarts.starts out defined fuel child pool enough isFit isReady
    refine ⟨some after, ?_, streams.child⟩
    rw [run_init_child, started]
    rfl

/-- A null child gives no rows. -/
theorem null_restarts :
    Restarts ready view (fun child : Option E => child = none) bound
      (some { rows := [], complete := true }) where
  keeps :=
    { init := by
        rintro fuel _ pool rfl isReady
        exact ⟨isReady, fun after started => (Option.some.inj started).symm⟩
      next := by
        rintro fuel row _ pool rfl isReady
        exact ⟨isReady, rfl⟩ }
  undefined isNone := by simp at isNone
  starts := by
    rintro out defined fuel _ pool _ rfl _
    obtain rfl := Option.some.inj defined
    exact ⟨none, rfl, fun _ row _ _ _ => ⟨row, rfl⟩⟩

end Child

/-! ## MergeExecutor -/

section Merge

variable {Hot Cold : Type} [Executor Hot] [Executor Cold] {hotFits : Option Hot → Prop}
  {coldFits : Option Cold → Prop} {executor : MergeExecutor Hot Cold}

/-- Both children fit. -/
structure MergeFits (hotFits : Option Hot → Prop) (coldFits : Option Cold → Prop)
    (executor : MergeExecutor Hot Cold) : Prop where
  hot : hotFits executor.hotExecutor
  cold : coldFits executor.coldExecutor

/-- The rows of the hot child, and then those of the cold one. -/
def mergeOutput (hot cold : Option (Output View)) : Option (Output View) := do
  return (← hot).append (← cold)

/-- `Init` initialises the hot child and then the cold one. -/
theorem MergeExecutor.run_init :
    run (Executor.init fuel executor) pool =
      match run (Executor.init fuel executor.hotExecutor) pool with
      | (none, later) => (none, later)
      | (some hotExecutor, later) =>
        ((run (Executor.init fuel executor.coldExecutor) later).1.map fun coldExecutor =>
          { hotExecutor, coldExecutor, initialized := true },
          (run (Executor.init fuel executor.coldExecutor) later).2) := by
  change run (MergeExecutor.init fuel executor) pool = _
  simp only [MergeExecutor.init, run_bind, init_child]
  rcases run (MergeExecutor.initChild fuel executor.hotExecutor) pool with ⟨_ | hotExecutor, later⟩
  · rfl
  · simp only [run_bind]
    rcases run (MergeExecutor.initChild fuel executor.coldExecutor) later with
      ⟨_ | coldExecutor, later⟩ <;> rfl

omit [Executor Hot] in
variable (fuel row pool executor) in
/-- The cold part of `Next` asks the cold child. -/
theorem MergeExecutor.run_nextCold :
    ∃ coldDone, run (MergeExecutor.nextCold fuel row executor) pool =
      (((run (Executor.next fuel row executor.coldExecutor) pool).1.1,
        { executor with
          coldExecutor := (run (Executor.next fuel row executor.coldExecutor) pool).1.2
          coldDone }),
        (run (Executor.next fuel row executor.coldExecutor) pool).2) := by
  obtain ⟨hotExecutor, coldExecutor, useHot, hotDone, coldDone, initialized⟩ := executor
  cases coldExecutor with
  | none => exact ⟨coldDone, rfl⟩
  | some cold =>
    simp only [MergeExecutor.nextCold, run_bind, run_next_child]
    rcases run (Executor.next fuel row cold) pool with ⟨⟨answer, after⟩, later⟩
    match answer with
    | none => exact ⟨coldDone, rfl⟩
    | some (true, _) => exact ⟨coldDone, rfl⟩
    | some (false, _) => exact ⟨true, rfl⟩

/-- `Next` while the hot child is there and not exhausted. -/
theorem MergeExecutor.run_nextRow_hot {hot : Hot} (present : executor.hotExecutor = some hot)
    (useHot : executor.useHot = true) :
    run (MergeExecutor.nextRow fuel row executor) pool =
      match run (Executor.next fuel row executor.hotExecutor) pool with
      | ((some (false, row), hotExecutor), later) =>
        run (MergeExecutor.nextCold fuel row
          { executor with hotExecutor, hotDone := true, useHot := false }) later
      | ((answer, hotExecutor), later) => ((answer, { executor with hotExecutor }), later) := by
  obtain ⟨hotExecutor, coldExecutor, _, hotDone, coldDone, initialized⟩ := executor
  obtain rfl : hotExecutor = some hot := present
  obtain rfl := useHot
  simp only [MergeExecutor.nextRow, run_bind, run_next_child]
  rcases run (Executor.next fuel row hot) pool with ⟨⟨answer, after⟩, later⟩
  match answer with
  | none => rfl
  | some (true, _) => rfl
  | some (false, _) => rfl

/-- `Next` once the hot child is null or exhausted. -/
theorem MergeExecutor.nextRow_cold
    (noHot : executor.useHot = false ∨ executor.hotExecutor = none) :
    MergeExecutor.nextRow fuel row executor = MergeExecutor.nextCold fuel row executor := by
  obtain ⟨hotExecutor, coldExecutor, useHot, hotDone, coldDone, initialized⟩ := executor
  rcases noHot with rfl | rfl
  · rfl
  · cases useHot <;> rfl

variable (fuel row) in
/-- `Next` of an initialised merge. -/
theorem MergeExecutor.next_initialized (initialized : executor.initialized = true) :
    Executor.next fuel row executor = MergeExecutor.nextRow fuel row executor := by
  change MergeExecutor.next fuel row executor = _
  rw [MergeExecutor.next, if_pos initialized]

omit [Executor Hot] in
/-- A row from the cold child. -/
theorem MergeFits.nextCold (cold : Keeps ready coldFits) (isFit : MergeFits hotFits coldFits executor)
    (isReady : ready pool) :
    ready (run (MergeExecutor.nextCold fuel row executor) pool).2 ∧
      MergeFits hotFits coldFits (run (MergeExecutor.nextCold fuel row executor) pool).1.2 := by
  obtain ⟨coldDone, ran⟩ := MergeExecutor.run_nextCold fuel row pool executor
  obtain ⟨readyAfter, fitAfter⟩ := cold.next fuel row executor.coldExecutor pool isFit.cold isReady
  rw [ran]
  exact ⟨readyAfter, isFit.hot, fitAfter⟩

/-- A row from either child. -/
theorem MergeFits.nextRow (hot : Keeps ready hotFits) (cold : Keeps ready coldFits)
    (isFit : MergeFits hotFits coldFits executor) (isReady : ready pool) :
    ready (run (MergeExecutor.nextRow fuel row executor) pool).2 ∧
      MergeFits hotFits coldFits (run (MergeExecutor.nextRow fuel row executor) pool).1.2 := by
  by_cases noHot : executor.useHot = false ∨ executor.hotExecutor = none
  · rw [MergeExecutor.nextRow_cold noHot]
    exact isFit.nextCold cold isReady
  · rw [not_or, Bool.not_eq_false] at noHot
    obtain ⟨present, isPresent⟩ := Option.ne_none_iff_exists'.mp noHot.2
    have kept := hot.next fuel row executor.hotExecutor pool isFit.hot isReady
    rw [MergeExecutor.run_nextRow_hot isPresent noHot.1]
    generalize run (Executor.next fuel row executor.hotExecutor) pool = ran at kept ⊢
    obtain ⟨⟨answer, after⟩, later⟩ := ran
    match answer with
    | none => exact ⟨kept.1, kept.2, isFit.cold⟩
    | some (true, _) => exact ⟨kept.1, kept.2, isFit.cold⟩
    | some (false, _) => exact MergeFits.nextCold cold ⟨kept.2, isFit.cold⟩ kept.1

/-- `Init` of both children. -/
theorem MergeFits.init (hot : Keeps ready hotFits) (cold : Keeps ready coldFits)
    (isFit : MergeFits hotFits coldFits executor) (isReady : ready pool) :
    ready (run (Executor.init fuel executor) pool).2 ∧
      ∀ after, (run (Executor.init fuel executor) pool).1 = some after →
        MergeFits hotFits coldFits after := by
  have keptHot := hot.init fuel executor.hotExecutor pool isFit.hot isReady
  rw [MergeExecutor.run_init]
  generalize run (Executor.init fuel executor.hotExecutor) pool = ran at keptHot ⊢
  obtain ⟨_ | hotExecutor, later⟩ := ran
  · exact ⟨keptHot.1, fun after started => by simp at started⟩
  · obtain ⟨readyAfter, fitAfter⟩ :=
      cold.init fuel executor.coldExecutor later isFit.cold keptHot.1
    refine ⟨readyAfter, fun after started => ?_⟩
    obtain ⟨coldExecutor, defined, rfl⟩ := Option.map_eq_some_iff.mp started
    exact ⟨keptHot.2 hotExecutor rfl, fitAfter coldExecutor defined⟩

/-- `Next` initialises first. -/
theorem MergeExecutor.next_lazy :
    LazyNext (E := MergeExecutor Hot Cold) MergeExecutor.initialized MergeExecutor.nextRow := by
  intro fuel row executor
  change MergeExecutor.next fuel row executor = _
  unfold MergeExecutor.next
  congr 2
  funext outcome
  cases outcome <;> rfl

/-- A merge keeps what its children keep. -/
theorem merge_keeps (hot : Keeps ready hotFits) (cold : Keeps ready coldFits) :
    Keeps ready (MergeFits hotFits coldFits) :=
  Keeps.of_lazy MergeExecutor.next_lazy
    (fun _ _ _ isFit isReady => isFit.init hot cold isReady)
    (fun _ _ _ _ isFit isReady => isFit.nextRow hot cold isReady)

/-- Once the hot child is null or exhausted, the rows are those of the cold child. -/
theorem merge_streams_cold {complete : Bool} {rows : List View}
    (initialized : executor.initialized = true)
    (noHot : executor.useHot = false ∨ executor.hotExecutor = none)
    (streams : Streams ready view bound complete rows executor.coldExecutor) :
    Streams ready view bound complete rows executor := by
  induction rows generalizing executor with
  | nil =>
    intro fuel row pool enough isReady
    obtain ⟨coldDone, ran⟩ := MergeExecutor.run_nextCold fuel row pool executor
    rw [MergeExecutor.next_initialized fuel row initialized, MergeExecutor.nextRow_cold noHot, ran]
    exact streams fuel row pool enough isReady
  | cons seen rows ih =>
    intro fuel row pool enough isReady
    obtain ⟨coldDone, ran⟩ := MergeExecutor.run_nextCold fuel row pool executor
    rw [MergeExecutor.next_initialized fuel row initialized, MergeExecutor.nextRow_cold noHot, ran]
    obtain ⟨returned, rest⟩ := streams fuel row pool enough isReady
    exact ⟨returned, ih initialized noHot rest⟩

/-- A null child has no rows. -/
theorem Streams.of_null {E : Type} [Executor E] {rows : List View} {complete : Bool}
    (streams : Streams ready view bound complete rows (none : Option E)) (enough : bound ≤ fuel)
    (isReady : ready pool) : rows = [] ∧ complete = true := by
  cases rows with
  | nil =>
    have answer := streams fuel ({}, {}) pool enough isReady
    cases complete with
    | true => exact ⟨rfl, rfl⟩
    | false => exact absurd answer (by simp [Executor.next])
  | cons seen rows =>
    obtain ⟨⟨returned, answer, -⟩, -⟩ := streams fuel ({}, {}) pool enough isReady
    exact absurd answer (by simp [Executor.next])

/-- The rows of the hot child, and then those of the cold child. -/
theorem merge_streams (keeps : Keeps ready hotFits) {rows : List View} {complete : Bool}
    {cold : Output View} (initialized : executor.initialized = true)
    (useHot : executor.useHot = true) (isFit : hotFits executor.hotExecutor) {hot : Hot}
    (present : executor.hotExecutor = some hot)
    (hotStreams : Streams ready view bound complete rows executor.hotExecutor)
    (coldStreams : Streams ready view bound cold.complete cold.rows executor.coldExecutor) :
    Streams ready view bound (complete && cold.complete)
      (if complete then rows ++ cold.rows else rows) executor := by
  induction rows generalizing executor hot with
  | nil =>
    cases complete with
    | false =>
      intro fuel row pool enough isReady
      obtain ⟨after, later, ran⟩ := hotStreams.next_undefined row enough isReady
      rw [MergeExecutor.next_initialized fuel row initialized,
        MergeExecutor.run_nextRow_hot present useHot, ran]
      rfl
    | true =>
      -- the `Next` that finds the hot child exhausted goes on with the cold child
      refine Streams.of_later (Nat.le_refl bound) fun fuel row pool enough isReady => ?_
      obtain ⟨last, after, later, readyLater, -, ran⟩ :=
        hotStreams.next_end keeps isFit row enough isReady
      rw [MergeExecutor.next_initialized fuel row initialized,
        MergeExecutor.run_nextRow_hot present useHot, ran]
      refine ⟨{ executor with hotExecutor := after, hotDone := true, useHot := false }, fuel, last,
        later, enough, readyLater, merge_streams_cold initialized (.inl rfl) coldStreams, ?_⟩
      rw [MergeExecutor.next_initialized fuel last, MergeExecutor.nextRow_cold (.inl rfl)]
      exact initialized
  | cons seen rows ih =>
    have distributes : (if complete then seen :: rows ++ cold.rows else seen :: rows) =
        seen :: (if complete then rows ++ cold.rows else rows) := by
      split <;> rfl
    rw [distributes]
    intro fuel row pool enough isReady
    have stays : ∃ hot, (run (Executor.next fuel row executor.hotExecutor) pool).1.2 = some hot := by
      rw [present, run_next_child]
      exact ⟨_, rfl⟩
    obtain ⟨returned, after, later, looked, -, fitAfter, rest, ran⟩ :=
      hotStreams.next_row keeps isFit row enough isReady
    rw [ran] at stays
    obtain ⟨hot, isHot⟩ := stays
    rw [MergeExecutor.next_initialized fuel row initialized,
      MergeExecutor.run_nextRow_hot present useHot, ran]
    exact ⟨⟨returned, rfl, looked⟩, ih initialized useHot fitAfter isHot rest coldStreams⟩

/-- A merge restarts if both of its children do. -/
theorem merge_restarts {hotOutput coldOutput : Option (Output View)}
    (hot : Restarts ready view hotFits bound hotOutput)
    (cold : Restarts ready view coldFits bound coldOutput) :
    Restarts ready view (MergeFits hotFits coldFits) bound (mergeOutput hotOutput coldOutput) where
  keeps := merge_keeps hot.keeps cold.keeps
  undefined isNone fuel executor pool enough isFit isReady := by
    cases hotOutput with
    | none =>
      obtain ⟨later, ran⟩ := hot.init_undefined enough isFit.hot isReady
      rw [MergeExecutor.run_init, ran]
    | some hotOut =>
      have coldNone : coldOutput = none := by
        cases coldOutput with
        | none => rfl
        | some _ => simp [mergeOutput] at isNone
      obtain ⟨hotExecutor, later, readyLater, -, -, ran⟩ :=
        hot.init_defined enough isFit.hot isReady
      have undefined :=
        cold.undefined coldNone fuel executor.coldExecutor later enough isFit.cold readyLater
      rw [MergeExecutor.run_init, ran]
      simp only [undefined, Option.map_none]
  starts out defined fuel executor pool enough isFit isReady := by
    obtain ⟨hotOut, rfl, coldOut, coldDefined, rfl⟩ :
        ∃ hotOut, hotOutput = some hotOut ∧ ∃ coldOut, coldOutput = some coldOut ∧
          hotOut.append coldOut = out := by
      simpa [mergeOutput, Option.bind_eq_some_iff] using defined
    obtain ⟨hotExecutor, later, readyLater, hotFit, hotStreams, ran⟩ :=
      hot.init_defined enough isFit.hot isReady
    obtain ⟨coldExecutor, coldStarted, coldStreams⟩ :=
      cold.starts coldOut coldDefined fuel executor.coldExecutor later enough isFit.cold readyLater
    rw [MergeExecutor.run_init, ran]
    refine ⟨{ hotExecutor, coldExecutor, initialized := true }, ?_, ?_⟩
    · simp only [coldStarted, Option.map_some]
    · cases present : hotExecutor with
      | none =>
        obtain ⟨noRows, complete⟩ := (present ▸ hotStreams).of_null enough isReady
        simp only [Output.append, noRows, complete, if_true, List.nil_append, Bool.true_and]
        exact merge_streams_cold rfl (.inr rfl) coldStreams
      | some hotChild =>
        subst present
        exact merge_streams hot.keeps rfl rfl hotFit rfl hotStreams coldStreams

end Merge

end MiniDB.Executors
