import MiniDB.Buffer.ColdFirst

/-!
# Searches of one lap

`Clock::Victim` and `ClockPro::Victim` give up when the hand is back where it started. A lap
clears the use bit of every candidate that it passes and takes only one whose bit was clear
before, so it finds nothing where all candidates were used. `ClockPro` is a `Clock` that also
remembers which frames are new, and its search does not depend on that.
-/

namespace MiniDB.Buffer

open Foundation

/-- `Victim` returned a candidate if there was one, and took just that. -/
structure TakesCandidate (inReplacer : Nat → Bool) (before : Nat) (returned : Option Nat)
    (after : Nat) : Prop where
  answers : returned.isSome = true ↔ 0 < before
  member : ∀ frame ∈ returned, inReplacer frame = true
  decreases : ∀ frame ∈ returned, after + 1 = before

/-- One candidate less. -/
theorem countFrames_update {frames frame : Nat} {inReplacer : Nat → Bool} (isFrame : frame < frames)
    (candidate : inReplacer frame = true) :
    countFrames frames (Function.update inReplacer frame false) + 1 =
      countFrames frames inReplacer := by
  have member : frame ∈ (List.range frames).filter inReplacer := by simp [isFrame, candidate]
  have erased : (List.range frames).filter (Function.update inReplacer frame false) =
      ((List.range frames).filter inReplacer).erase frame := by
    rw [(List.nodup_range.filter _).erase_eq_filter, List.filter_filter]
    congr 1
    ext other
    by_cases same : other = frame
    · simp [same]
    · simp [same]
  unfold countFrames
  rw [erased, List.length_erase_of_mem member]
  exact Nat.sub_add_cancel (List.length_pos_of_mem member)

/-- Two places of a ring are different frames. -/
theorem place_ne {frames start i j : Nat} (behind : i < frames) (inside : j < frames)
    (different : i ≠ j) : (start + i) % frames ≠ (start + j) % frames := by
  intro same
  have left : i < (ring frames start).length := by rwa [length_ring]
  have right : j < (ring frames start).length := by rwa [length_ring]
  rw [← getElem_ring left, ← getElem_ring right] at same
  exact different ((nodup_ring.getElem_inj_iff).mp same)

/-! ## Clock -/

namespace Clock

/-- `Clock::Clock`, with its latch set aside. -/
def start (frame : Nat) : Clock := { frame := intFrames frame, latch := .noop }

/-- One call. -/
def step (clock : Clock) : ClockCall → Clock
  | .victim => clock.victim.2
  | .pin frame => clock.pin frame
  | .unpin frame _ => clock.unpin frame

/-- `Victim` does what it is for. -/
def FindsCandidate (clock : Clock) : ClockCall → Prop
  | .victim => TakesCandidate clock.inReplacer clock.size.1 clock.victim.1 clock.victim.2.size.1
  | _ => True

/-- There is no candidate, or one whose use bit is clear. -/
def HasUnused (clock : Clock) : ClockCall → Prop
  | .victim => (∀ frame < clock.frame, clock.inReplacer frame = false) ∨
      ∃ frame < clock.frame, clock.inReplacer frame = true ∧ clock.useBits frame = false
  | _ => True

/-- The hand is on a frame, if there is one, and the latch is a no-op. -/
structure Ready (clock : Clock) : Prop where
  hand : clock.clockHand < clock.frame ∨ clock.frame = 0
  latch : clock.latch = .noop

/-- The frame `count` places after the hand. -/
def frameAt (clock : Clock) (count : Nat) : Nat := (clock.clockHand + count) % clock.frame

/-- A lap has passed `count` frames: the candidates among them were used, and the bits of
those ahead are as they were. -/
structure Passes (clock : Clock) (count : Nat) (after : Clock) : Prop where
  inReplacer : after.inReplacer = clock.inReplacer
  frame : after.frame = clock.frame
  latch : after.latch = clock.latch
  hand : after.clockHand = clock.frameAt count
  used : ∀ i < count, clock.inReplacer (clock.frameAt i) = true →
    clock.useBits (clock.frameAt i) = true
  ahead : ∀ i < clock.frame, count ≤ i →
    after.useBits (clock.frameAt i) = clock.useBits (clock.frameAt i)

/-- An unused candidate was taken: it leaves the replacer and nothing else does. -/
structure Takes (clock : Clock) (taken : Nat) (after : Clock) : Prop where
  candidate : clock.inReplacer taken = true
  unused : clock.useBits taken = false
  isFrame : taken < clock.frame
  removed : after.inReplacer = Function.update clock.inReplacer taken false
  frame : after.frame = clock.frame
  hand : after.clockHand < clock.frame
  latch : after.latch = clock.latch

variable {clock after : Clock} {count : Nat}

theorem Ready.passes (ready : clock.Ready) (some : 0 < clock.frame) : clock.Passes 0 clock where
  inReplacer := rfl
  frame := rfl
  latch := rfl
  hand := by
    rcases ready.hand with inRange | none
    · exact (Nat.mod_eq_of_lt inRange).symm
    · omega
  used _ below := absurd below (Nat.not_lt_zero _)
  ahead _ _ _ := rfl

/-- The hand moves on after a visit that left the replacer and the bits ahead alone. -/
theorem Passes.advance (passes : clock.Passes count after) (inside : count < clock.frame)
    {bits : Nat → Bool} (others : ∀ frame ≠ after.clockHand, bits frame = after.useBits frame)
    (here : after.inReplacer after.clockHand = true → after.useBits after.clockHand = true) :
    clock.Passes (count + 1) ({ after with useBits := bits } : Clock).advance where
  inReplacer := passes.inReplacer
  frame := passes.frame
  latch := passes.latch
  hand := by
    simp only [Clock.advance, passes.frame, passes.hand, frameAt, Nat.mod_add_mod, Nat.add_assoc]
  used i below candidate := by
    by_cases same : i = count
    · rw [passes.inReplacer, passes.hand, ← same, passes.ahead i (by omega) (by omega)] at here
      exact here candidate
    · exact passes.used i (by omega) candidate
  ahead i isPlace further := by
    have elsewhere : clock.frameAt i ≠ after.clockHand := by
      rw [passes.hand]
      exact place_ne isPlace inside (by omega)
    exact (others _ elsewhere).trans (passes.ahead i isPlace (by omega))

/-- What the search does at the frame under the hand. -/
theorem Passes.visit (passes : clock.Passes count after) (inside : count < clock.frame) :
    (after.visit.1 = true → clock.Takes after.clockHand after.visit.2.advance) ∧
      (after.visit.1 = false → clock.Passes (count + 1) after.visit.2.advance) := by
  have bit := passes.ahead count inside (Nat.le_refl _)
  unfold Clock.visit
  dsimp only
  by_cases candidate : after.inReplacer after.clockHand = true
  · rw [if_pos candidate]
    by_cases used : after.useBits after.clockHand = true
    · rw [if_pos used]
      refine ⟨nofun, fun _ => passes.advance inside (fun frame elsewhere => ?_) fun _ => used⟩
      exact Function.update_of_ne elsewhere _ _
    · rw [if_neg used]
      refine ⟨fun _ => ⟨?_, ?_, ?_, ?_, passes.frame, ?_, passes.latch⟩, nofun⟩
      · rwa [passes.inReplacer] at candidate
      · rw [passes.hand, ← bit, ← passes.hand]
        simpa using used
      · rw [passes.hand]
        exact Nat.mod_lt _ (by omega)
      · simp [Clock.advance, passes.inReplacer]
      · simp only [Clock.advance, passes.frame]
        exact Nat.mod_lt _ (by omega)
  · rw [if_neg candidate]
    refine ⟨nofun, fun _ => passes.advance inside (fun _ _ => rfl) fun here => ?_⟩
    exact absurd here candidate

/-- A lap takes an unused candidate, or all candidates were used. -/
theorem lap_cases (ready : clock.Ready) (some : 0 < clock.frame) :
    (∃ taken, (sweep clockHand Clock.advance Clock.visit clock.clockHand clock.frame clock).1 =
        Option.some taken ∧ clock.Takes taken
          (sweep clockHand Clock.advance Clock.visit clock.clockHand clock.frame clock).2) ∨
      (sweep clockHand Clock.advance Clock.visit clock.clockHand clock.frame clock).1 = none ∧
        clock.Passes clock.frame
          (sweep clockHand Clock.advance Clock.visit clock.clockHand clock.frame clock).2 := by
  have inRange : clock.clockHand < clock.frame := by
    rcases ready.hand with inRange | none
    · exact inRange
    · omega
  exact @sweep_visits _ clockHand Clock.advance Clock.visit clock.clockHand clock.frame clock.Passes
    clock.Takes inRange (fun _ _ passes => passes.hand)
    (fun _ _ inside passes chosen => (passes.visit inside).1 chosen)
    (fun _ _ inside passes goesOn => (passes.visit inside).2 goesOn) clock.frame 0 clock
    (Nat.zero_add _) some (ready.passes some)

theorem size_fst (clock : Clock) : clock.size.1 = countFrames clock.frame clock.inReplacer := rfl

/-- `Victim` with its latch set aside. -/
theorem victim_eq (noop : clock.latch = .noop) :
    clock.victim =
      if countFrames clock.frame clock.inReplacer = 0 then (none, clock)
      else
        let (found, after) := sweep clockHand Clock.advance Clock.visit clock.clockHand clock.frame clock
        (found, { after with latch := after.latch.unlock }) := by
  have locked : ({ clock with latch := Mutex.noop } : Clock) = clock := by
    rw [← noop]
  unfold victim size lockGuard
  dsimp only [Guarded.setMutex, Guarded.mutex]
  rw [noop]
  simp only [Mutex.lock, Mutex.unlock, locked]
  split
  · rw [noop]
    exact congrArg (Prod.mk none) locked
  · rfl

/-- `Victim` takes an unused candidate, or all candidates were used. -/
theorem victim_cases (ready : clock.Ready) :
    (∃ taken, clock.victim.1 = some taken ∧ clock.Takes taken clock.victim.2) ∨
      clock.victim.1 = none ∧ clock.victim.2.inReplacer = clock.inReplacer ∧ clock.victim.2.Ready ∧
        ∀ frame < clock.frame, clock.inReplacer frame = true → clock.useBits frame = true := by
  rw [victim_eq ready.latch]
  by_cases none : countFrames clock.frame clock.inReplacer = 0
  · rw [if_pos none]
    refine .inr ⟨rfl, rfl, ready, fun frame isFrame candidate => ?_⟩
    rw [LayeredClock.countFrames_eq_zero_iff.mp none frame isFrame] at candidate
    cases candidate
  · rw [if_neg none]
    have some : 0 < clock.frame := by
      by_contra empty
      refine none (LayeredClock.countFrames_eq_zero_iff.mpr fun frame isFrame => ?_)
      omega
    have lap := lap_cases ready some
    generalize sweep clockHand Clock.advance Clock.visit clock.clockHand clock.frame clock = outcome
      at lap ⊢
    obtain ⟨found, after⟩ := outcome
    have released : after.latch = clock.latch → after.latch.unlock = clock.latch := by
      intro same
      rw [same, ready.latch]
      rfl
    rcases lap with ⟨taken, isTaken, takes⟩ | ⟨isNone, passes⟩
    · exact .inl ⟨taken, isTaken, { takes with latch := released takes.latch }⟩
    · have inRange : after.clockHand < after.frame := by
        rw [passes.hand, passes.frame]
        exact Nat.mod_lt _ some
      refine .inr ⟨isNone, passes.inReplacer, ⟨.inl inRange, ?_⟩, ?_⟩
      · exact (released passes.latch).trans ready.latch
      · intro frame isFrame candidate
        rcases ready.hand with isHand | empty
        · obtain ⟨place, inside, rfl⟩ := exists_place isHand isFrame
          exact passes.used place inside candidate
        · omega

/-- A call keeps the hand on a frame and the latch a no-op. -/
theorem Ready.step (ready : clock.Ready) (call : ClockCall) : (clock.step call).Ready := by
  cases call with
  | victim =>
    rcases victim_cases ready with ⟨taken, -, takes⟩ | ⟨-, -, still, -⟩
    · exact ⟨.inl (takes.frame ▸ takes.hand), takes.latch.trans ready.latch⟩
    · exact still
  | pin frame =>
    unfold Clock.step pin lockGuard' lockGuard
    dsimp only [Guarded.setMutex, Guarded.mutex]
    rw [ready.latch]
    split
    · exact ⟨ready.hand, rfl⟩
    · exact ⟨ready.hand, rfl⟩
  | unpin frame isHot =>
    unfold Clock.step unpin lockGuard' lockGuard
    dsimp only [Guarded.setMutex, Guarded.mutex]
    rw [ready.latch]
    split
    · exact ⟨ready.hand, rfl⟩
    · exact ⟨ready.hand, rfl⟩

/-- `Victim` does what it is for exactly when not all candidates were used. -/
theorem findsCandidate_iff (ready : clock.Ready) (call : ClockCall) :
    clock.FindsCandidate call ↔ clock.HasUnused call := by
  cases call with
  | pin frame => exact Iff.rfl
  | unpin frame isHot => exact Iff.rfl
  | victim =>
    unfold FindsCandidate HasUnused
    dsimp only
    rcases victim_cases ready with ⟨taken, found, takes⟩ | ⟨missed, -, -, used⟩
    · have less : clock.victim.2.size.1 + 1 = clock.size.1 := by
        rw [size_fst, size_fst, takes.removed, takes.frame]
        exact countFrames_update takes.isFrame takes.candidate
      refine iff_of_true ⟨?_, ?_, ?_⟩ (.inr ⟨taken, takes.isFrame, takes.candidate, takes.unused⟩)
      · rw [found]
        exact iff_of_true rfl (by omega)
      · intro frame isFound
        rw [found] at isFound
        exact Option.some.inj isFound ▸ takes.candidate
      · exact fun _ _ => less
    · rw [missed]
      constructor
      · intro takes
        left
        have none : ¬ 0 < clock.size.1 := fun some => Bool.false_ne_true (takes.answers.mpr some)
        exact LayeredClock.countFrames_eq_zero_iff.mp (Nat.eq_zero_of_not_pos none)
      · rintro (none | ⟨frame, isFrame, candidate, unused⟩)
        · refine ⟨iff_of_false nofun ?_, nofun, nofun⟩
          rw [size_fst, LayeredClock.countFrames_eq_zero_iff.mpr none]
          exact Nat.lt_irrefl 0
        · rw [used frame isFrame candidate] at unused
          cases unused

theorem ready_start (frame : Nat) : (start frame).Ready :=
  ⟨(Nat.eq_zero_or_pos (intFrames frame)).symm, rfl⟩

/-- Along every run `Victim` does what it is for exactly when not all candidates were used. -/
theorem run_findsCandidate_iff (frame : Nat) (calls : List ClockCall) :
    EachCall step FindsCandidate (start frame) calls ↔ EachCall step HasUnused (start frame) calls := by
  apply @eachCall_congr _ _ _ _ Ready _ _ _ _ (ready_start frame)
  · exact fun clock call ready => findsCandidate_iff ready call
  · exact fun clock call ready => ready.step call

end Clock

/-! ## ClockPro -/

/-- A search looks the same to an observer that sees enough of the state. -/
theorem sweep_map {State Other : Type} {hand : State → Nat} {advance : State → State}
    {visit : State → Bool × State} {hand' : Other → Nat} {advance' : Other → Other}
    {visit' : Other → Bool × Other} (look : State → Other)
    (hand_eq : ∀ state, hand' (look state) = hand state)
    (advance_eq : ∀ state, advance' (look state) = look (advance state))
    (visit_eq : ∀ state, visit' (look state) = ((visit state).1, look (visit state).2))
    (start fuel : Nat) (state : State) :
    sweep hand' advance' visit' start fuel (look state) =
      ((sweep hand advance visit start fuel state).1,
        look (sweep hand advance visit start fuel state).2) := by
  induction fuel generalizing state with
  | zero => rfl
  | succ fuel ih =>
    unfold sweep
    simp only [visit_eq, advance_eq, hand_eq]
    split
    · rfl
    · split
      · exact ih _
      · rfl

namespace ClockPro

/-- `ClockPro::ClockPro`, with its latch set aside. -/
def start (frame : Nat) : ClockPro := { frame := intFrames frame, latch := .noop }

/-- One call. -/
def step (clock : ClockPro) : ClockCall → ClockPro
  | .victim => clock.victim.2
  | .pin frame => clock.pin frame
  | .unpin frame _ => clock.unpin frame

/-- `Victim` does what it is for. -/
def FindsCandidate (clock : ClockPro) : ClockCall → Prop
  | .victim => TakesCandidate clock.inReplacer clock.size.1 clock.victim.1 clock.victim.2.size.1
  | _ => True

/-- There is no candidate, or one whose use bit is clear. -/
def HasUnused (clock : ClockPro) : ClockCall → Prop
  | .victim => (∀ frame < clock.frame, clock.inReplacer frame = false) ∨
      ∃ frame < clock.frame, clock.inReplacer frame = true ∧ clock.uBits frame = false
  | _ => True

/-- The clock without what it remembers of new frames. -/
def forget (clock : ClockPro) : Clock where
  frame := clock.frame
  useBits := clock.uBits
  inReplacer := clock.inReplacer
  clockHand := clock.clockHand
  latch := clock.latch

theorem visit_forget (clock : ClockPro) :
    clock.forget.visit = (clock.visit.1, clock.visit.2.forget) := by
  unfold Clock.visit visit
  cases candidate : clock.inReplacer clock.clockHand with
  | false => simp [forget, candidate]
  | true =>
    cases used : clock.uBits clock.clockHand with
    | false => simp [forget, candidate, used]
    | true => simp [forget, candidate, used]

/-- The search does not depend on which frames are new. -/
theorem victim_forget (clock : ClockPro) :
    clock.forget.victim = (clock.victim.1, clock.victim.2.forget) := by
  refine lockGuard_map forget (fun _ => rfl) (fun _ _ => rfl) (fun inner => ?_) clock
  dsimp only
  by_cases none : inner.size.1 = 0
  · rw [if_pos none, if_pos (show inner.forget.size.1 = 0 from none)]
    rfl
  · rw [if_neg none, if_neg (show ¬ inner.forget.size.1 = 0 from none)]
    exact @sweep_map _ _ clockHand advance visit Clock.clockHand Clock.advance Clock.visit forget
      (fun _ => rfl) (fun _ => rfl) visit_forget inner.clockHand inner.frame inner.size.2

theorem pin_forget (clock : ClockPro) (frame : Nat) :
    clock.forget.pin frame = (clock.pin frame).forget := by
  refine lockGuard'_map forget (fun _ => rfl) (fun _ _ => rfl) (fun inner => ?_) clock
  by_cases isFrame : frame < inner.frame
  · cases candidate : inner.inReplacer frame with
    | true => simp [forget, isFrame, candidate]
    | false =>
      -- `Clock::Pin` looks whether there is a bit to clear
      have same : Function.update inner.inReplacer frame false = inner.inReplacer :=
        Function.update_eq_self_iff.mpr candidate.symm
      simp [forget, isFrame, candidate, same]
  · simp [forget, isFrame]

theorem unpin_forget (clock : ClockPro) (frame : Nat) :
    clock.forget.unpin frame = (clock.unpin frame).forget := by
  refine lockGuard'_map forget (fun _ => rfl) (fun _ _ => rfl) (fun inner => ?_) clock
  by_cases isFrame : frame < inner.frame
  · cases candidate : inner.inReplacer frame with
    | true => simp [forget, candidate]
    | false => simp [forget, isFrame, candidate]
  · simp [forget, isFrame]

theorem step_forget (clock : ClockPro) (call : ClockCall) :
    clock.forget.step call = (clock.step call).forget := by
  cases call with
  | victim => exact congrArg Prod.snd (victim_forget clock)
  | pin frame => exact pin_forget clock frame
  | unpin frame isHot => exact unpin_forget clock frame

theorem findsCandidate_forget (clock : ClockPro) (call : ClockCall) :
    clock.forget.FindsCandidate call ↔ clock.FindsCandidate call := by
  cases call with
  | victim =>
    unfold Clock.FindsCandidate FindsCandidate
    rw [victim_forget]
    exact Iff.rfl
  | pin frame => exact Iff.rfl
  | unpin frame isHot => exact Iff.rfl

theorem hasUnused_forget (clock : ClockPro) (call : ClockCall) :
    clock.forget.HasUnused call ↔ clock.HasUnused call := by
  cases call with
  | victim => exact Iff.rfl
  | pin frame => exact Iff.rfl
  | unpin frame isHot => exact Iff.rfl

end ClockPro

/-- In every run of a `Clock` and of a `ClockPro`, `Victim` finds a candidate whenever there is
one exactly when not all candidates are used whenever it is called. -/
theorem runs_find_candidates_iff (frame : Nat) (calls : List ClockCall) :
    (EachCall Clock.step Clock.FindsCandidate (Clock.start frame) calls ↔
        EachCall Clock.step Clock.HasUnused (Clock.start frame) calls) ∧
      (EachCall ClockPro.step ClockPro.FindsCandidate (ClockPro.start frame) calls ↔
        EachCall ClockPro.step ClockPro.HasUnused (ClockPro.start frame) calls) := by
  have sameRun := Clock.run_findsCandidate_iff frame calls
  refine ⟨sameRun, ?_⟩
  rw [← eachCall_map ClockPro.forget ClockPro.step_forget ClockPro.findsCandidate_forget,
    ← eachCall_map ClockPro.forget ClockPro.step_forget ClockPro.hasUnused_forget]
  exact sameRun

/-- The one candidate was used: the lap clears its bit and gives up. -/
theorem candidate_not_found :
    ¬ EachCall Clock.step Clock.FindsCandidate (Clock.start 1) [.unpin 0 true, .victim] ∧
      ¬ EachCall ClockPro.step ClockPro.FindsCandidate (ClockPro.start 1) [.unpin 0 true, .victim] := by
  constructor
  · rintro ⟨-, finds, -⟩
    exact absurd (finds.answers.mpr (by decide)) (by decide)
  · rintro ⟨-, finds, -⟩
    exact absurd (finds.answers.mpr (by decide)) (by decide)

end MiniDB.Buffer
