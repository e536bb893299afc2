import MiniDB.Buffer.Replacers

/-!
# What `Victim` finds

A search that passes every frame once stops at the frame it takes or comes back
to where it started. The first round of `LayeredClock::Victim` clears the use bit
of every candidate it passes, so the second round takes a candidate if there is
one. The latch is set aside: it is a no-op here.
-/

namespace MiniDB.Buffer

open Foundation

/-- A search from `start` that keeps `visited`, which counts the frames passed so
far: it ends with a frame that was `found`, or with all frames visited. -/
theorem sweep_visits {State : Type} {hand : State → Nat} {advance : State → State}
    {visit : State → Bool × State} {start frames : Nat} (visited found : Nat → State → Prop)
    (inRange : start < frames)
    (hand_eq : ∀ count state, visited count state → hand state = (start + count) % frames)
    (chosen : ∀ count state, count < frames → visited count state → (visit state).1 = true →
      found (hand state) (advance (visit state).2))
    (passed : ∀ count state, count < frames → visited count state → (visit state).1 = false →
      visited (count + 1) (advance (visit state).2))
    (fuel : Nat) {count : Nat} {state : State} (rest : count + fuel = frames) (left : 0 < fuel)
    (here : visited count state) :
    (∃ frame, (sweep hand advance visit start fuel state).1 = some frame ∧
        found frame (sweep hand advance visit start fuel state).2) ∨
      (sweep hand advance visit start fuel state).1 = none ∧
        visited frames (sweep hand advance visit start fuel state).2 := by
  induction fuel generalizing count state with
  | zero => omega
  | succ fuel ih =>
    unfold sweep
    dsimp only
    have inside : count < frames := by omega
    cases choice : (visit state).1 with
    | true =>
      rw [if_pos rfl]
      exact .inl ⟨hand state, rfl, chosen count state inside here choice⟩
    | false =>
      rw [if_neg (by simp)]
      have next := passed count state inside here choice
      have nextHand := hand_eq _ _ next
      by_cases last : fuel = 0
      · -- the hand has come full circle
        have whole : count + 1 = frames := by omega
        rw [whole, Nat.add_mod_right, Nat.mod_eq_of_lt inRange] at nextHand
        rw [if_neg (by simpa using nextHand)]
        exact .inr ⟨rfl, whole ▸ next⟩
      · have elsewhere : hand (advance (visit state).2) ≠ start := by
          rw [nextHand]
          intro back
          have split := Nat.div_add_mod (start + (count + 1)) frames
          rw [back] at split
          rcases Nat.eq_zero_or_pos ((start + (count + 1)) / frames) with none | some
          · rw [none] at split
            omega
          · have := Nat.le_mul_of_pos_right frames some
            omega
        rw [if_pos elsewhere]
        exact ih (by omega) (by omega) next

/-- Every frame is some number of places after the start. -/
theorem exists_place {start frame frames : Nat} (inRange : start < frames) (isFrame : frame < frames) :
    ∃ count < frames, (start + count) % frames = frame := by
  by_cases before : frame < start
  · refine ⟨frame + frames - start, by omega, ?_⟩
    rw [show start + (frame + frames - start) = frame + frames from by omega, Nat.add_mod_right,
      Nat.mod_eq_of_lt isFrame]
  · refine ⟨frame - start, by omega, ?_⟩
    rw [Nat.add_sub_cancel' (by omega), Nat.mod_eq_of_lt isFrame]

namespace LayeredClock

/-- The hand is on a frame, if there is one, and the latch is a no-op. -/
structure Ready (clock : LayeredClock) : Prop where
  hand : clock.clockHand < clock.frameCount ∨ clock.frameCount = 0
  latch : clock.latch = .noop

/-- A candidate was taken: it leaves the replacer and nothing else does. -/
structure Takes (clock : LayeredClock) (frame : Nat) (after : LayeredClock) : Prop where
  candidate : clock.inReplacer frame = true
  isFrame : frame < clock.frameCount
  removed : after.inReplacer = Function.update clock.inReplacer frame false
  frameCount : after.frameCount = clock.frameCount
  ready : after.Ready

/-- The hand stands `count` places after `start`, and no candidate has left. -/
structure Passes (clock : LayeredClock) (start count : Nat) (after : LayeredClock) : Prop where
  inReplacer : after.inReplacer = clock.inReplacer
  frameCount : after.frameCount = clock.frameCount
  latch : after.latch = clock.latch
  hand : after.clockHand = (start + count) % clock.frameCount

variable {clock after : LayeredClock} {start count : Nat}

theorem Passes.isFrame (passes : clock.Passes start count after) (some : 0 < clock.frameCount) :
    after.clockHand < clock.frameCount := by
  rw [passes.hand]
  exact Nat.mod_lt _ some

/-- The hand moves on after a visit that left the replacer alone. -/
theorem Passes.advance (passes : clock.Passes start count after) {visited : LayeredClock}
    (inReplacer : visited.inReplacer = after.inReplacer)
    (frameCount : visited.frameCount = after.frameCount) (latch : visited.latch = after.latch)
    (hand : visited.clockHand = after.clockHand) :
    clock.Passes start (count + 1) visited.advance := by
  refine ⟨inReplacer.trans passes.inReplacer, frameCount.trans passes.frameCount,
    latch.trans passes.latch, ?_⟩
  simp only [LayeredClock.advance, hand, frameCount, passes.frameCount, passes.hand, Nat.mod_add_mod]
  rfl

/-- The candidate under the hand is taken. -/
theorem Passes.takes (passes : clock.Passes start count after) (ready : clock.Ready)
    (some : 0 < clock.frameCount) (candidate : after.inReplacer after.clockHand = true) :
    clock.Takes after.clockHand after.removeHand.advance where
  candidate := by rwa [passes.inReplacer] at candidate
  isFrame := passes.isFrame some
  removed := by simp [LayeredClock.advance, removeHand, passes.inReplacer]
  frameCount := passes.frameCount
  ready := by
    refine ⟨.inl ?_, passes.latch.trans ready.latch⟩
    simp only [LayeredClock.advance, removeHand]
    exact Nat.mod_lt _ (passes.frameCount ▸ some)

/-! ## The two rounds -/

/-- In the first round the candidates passed so far have lost their use bit. -/
def Clears (clock : LayeredClock) (start count : Nat) (state : Nat × LayeredClock) : Prop :=
  clock.Passes start count state.2 ∧
    ∀ i < count, clock.inReplacer ((start + i) % clock.frameCount) = true →
      state.2.useBits ((start + i) % clock.frameCount) = false

/-- In the second round no candidate has its use bit, and those passed so far were none. -/
def Misses (clock : LayeredClock) (start count : Nat) (after : LayeredClock) : Prop :=
  clock.Passes start count after ∧
    (∀ frame < clock.frameCount, clock.inReplacer frame = true → after.useBits frame = false) ∧
    ∀ i < count, clock.inReplacer ((start + i) % clock.frameCount) = false

theorem clears_visitCold {state : Nat × LayeredClock} (clears : clock.Clears start count state)
    (goesOn : (visitCold state).1 = false) :
    clock.Clears start (count + 1) ((visitCold state).2.1, (visitCold state).2.2.advance) := by
  obtain ⟨scanned, after⟩ := state
  obtain ⟨passes, cleared⟩ := clears
  dsimp only at passes cleared
  have earlier : ∀ {i : Nat}, i < count + 1 → (start + i) % clock.frameCount ≠ after.clockHand →
      clock.inReplacer ((start + i) % clock.frameCount) = true →
        after.useBits ((start + i) % clock.frameCount) = false := by
    intro i bound elsewhere candidate
    have notHere : i ≠ count := by
      rintro rfl
      exact elsewhere passes.hand.symm
    exact cleared i (by omega) candidate
  -- it is enough that the frame under the hand is no candidate or has lost its bit
  have step : ∀ passed : LayeredClock, passed.inReplacer = after.inReplacer →
      passed.frameCount = after.frameCount → passed.latch = after.latch →
      passed.clockHand = after.clockHand →
      (∀ frame, after.useBits frame = false → passed.useBits frame = false) →
      (after.inReplacer after.clockHand = true → passed.useBits after.clockHand = false) →
      ∀ scanned, clock.Clears start (count + 1) (scanned, passed.advance) := by
    intro passed inReplacer frameCount latch hand kept here scanned
    refine ⟨passes.advance inReplacer frameCount latch hand, fun i bound candidate => ?_⟩
    by_cases same : (start + i) % clock.frameCount = after.clockHand
    · rw [same] at candidate ⊢
      exact here (passes.inReplacer ▸ candidate)
    · exact kept _ (earlier bound same candidate)
  unfold visitCold at goesOn ⊢
  dsimp only at goesOn ⊢
  by_cases candidate : after.inReplacer after.clockHand = true
  · rw [if_pos candidate] at goesOn ⊢
    by_cases used : after.useBits after.clockHand = true
    · rw [if_pos used]
      refine step after.clearUse rfl rfl rfl rfl ?_ ?_ scanned
      · intro frame unused
        by_cases here : frame = after.clockHand
        · simp [clearUse, here]
        · simpa [clearUse, here] using unused
      · simp [clearUse]
    · rw [if_neg used] at goesOn ⊢
      have unused : after.useBits after.clockHand = false := by simpa using used
      by_cases cold : (!after.isHot after.clockHand) = true
      · simp [cold] at goesOn
      · rw [if_neg cold] at goesOn ⊢
        by_cases fifth : scanned + 1 ≥ coldEvictionPriority
        · simp [fifth] at goesOn
        · rw [if_neg fifth]
          exact step after rfl rfl rfl rfl (fun _ same => same) (fun _ => unused) (scanned + 1)
  · rw [if_neg candidate]
    exact step after rfl rfl rfl rfl (fun _ same => same) (fun here => absurd here candidate) scanned

theorem takes_visitCold {state : Nat × LayeredClock} (clears : clock.Clears start count state)
    (ready : clock.Ready) (some : 0 < clock.frameCount) (chosen : (visitCold state).1 = true) :
    clock.Takes state.2.clockHand (visitCold state).2.2.advance := by
  obtain ⟨scanned, after⟩ := state
  have passes := clears.1
  dsimp only at passes
  unfold visitCold at chosen ⊢
  dsimp only at chosen ⊢
  by_cases candidate : after.inReplacer after.clockHand = true
  · have takes := passes.takes ready some candidate
    rw [if_pos candidate] at chosen ⊢
    by_cases used : after.useBits after.clockHand = true
    · simp [used] at chosen
    · rw [if_neg used] at chosen ⊢
      by_cases cold : (!after.isHot after.clockHand) = true
      · rw [if_pos cold]
        exact takes
      · rw [if_neg cold] at chosen ⊢
        by_cases fifth : scanned + 1 ≥ coldEvictionPriority
        · rw [if_pos fifth]
          exact takes
        · simp [fifth] at chosen
  · simp [candidate] at chosen

theorem misses_visitHot (misses : clock.Misses start count after) (some : 0 < clock.frameCount)
    (goesOn : after.visitHot.1 = false) :
    clock.Misses start (count + 1) after.visitHot.2.advance := by
  obtain ⟨passes, unused, none⟩ := misses
  have isFrame := passes.isFrame some
  -- a candidate under the hand has no use bit and would have been taken
  have notCandidate : clock.inReplacer after.clockHand = false := by
    by_contra candidate
    have isCandidate : clock.inReplacer after.clockHand = true := by simpa using candidate
    have bit := unused _ isFrame isCandidate
    rw [← passes.inReplacer] at isCandidate
    simp [visitHot, isCandidate, bit] at goesOn
  have passedBy : ∀ i < count + 1, clock.inReplacer ((start + i) % clock.frameCount) = false := by
    intro i bound
    by_cases here : i = count
    · rw [here, ← passes.hand]
      exact notCandidate
    · exact none i (by omega)
  have inReplacer : after.inReplacer after.clockHand = false := by
    rw [passes.inReplacer]
    exact notCandidate
  unfold visitHot
  dsimp only
  rw [if_neg (by simp [inReplacer])]
  by_cases used : after.useBits after.clockHand = true
  · rw [if_pos used]
    refine ⟨passes.advance rfl rfl rfl rfl, fun frame bound candidate => ?_, passedBy⟩
    by_cases here : frame = after.clockHand
    · simp [LayeredClock.advance, clearUse, here]
    · simpa [LayeredClock.advance, clearUse, here] using unused frame bound candidate
  · rw [if_neg used]
    exact ⟨passes.advance rfl rfl rfl rfl, unused, passedBy⟩

theorem takes_visitHot (misses : clock.Misses start count after) (ready : clock.Ready)
    (some : 0 < clock.frameCount) (chosen : after.visitHot.1 = true) :
    clock.Takes after.clockHand after.visitHot.2.advance := by
  unfold visitHot at chosen ⊢
  dsimp only at chosen ⊢
  by_cases candidate : (after.inReplacer after.clockHand && !after.useBits after.clockHand) = true
  · rw [if_pos candidate]
    rw [Bool.and_eq_true] at candidate
    exact misses.1.takes ready some candidate.1
  · rw [if_neg candidate] at chosen
    split at chosen
    · cases chosen
    · cases chosen

/-- The two rounds take a candidate if there is one. -/
theorem search_takes (ready : clock.Ready) {frame : Nat} (isFrame : frame < clock.frameCount)
    (candidate : clock.inReplacer frame = true) :
    ∃ taken, clock.search.1 = some taken ∧ clock.Takes taken clock.search.2 := by
  have some : 0 < clock.frameCount := by omega
  have inRange : clock.clockHand < clock.frameCount := by
    rcases ready.hand with inRange | none
    · exact inRange
    · omega
  have begin : clock.Passes clock.clockHand 0 clock :=
    ⟨rfl, rfl, rfl, (Nat.mod_eq_of_lt inRange).symm⟩
  have first := @sweep_visits _ (fun state : Nat × LayeredClock => state.2.clockHand)
    (fun state => (state.1, state.2.advance)) visitCold clock.clockHand clock.frameCount
    (clock.Clears clock.clockHand) (fun taken state => clock.Takes taken state.2) inRange
    (fun _ _ clears => clears.1.hand) (fun _ _ _ clears chosen => takes_visitCold clears ready some chosen)
    (fun _ _ _ clears goesOn => clears_visitCold clears goesOn) clock.frameCount 0 (0, clock)
    (Nat.zero_add _) some ⟨begin, fun _ none => absurd none (Nat.not_lt_zero _)⟩
  unfold search
  dsimp only
  rcases first with ⟨taken, chosen, takes⟩ | ⟨missed, passes, cleared⟩
  · rw [chosen]
    exact ⟨taken, rfl, takes⟩
  · rw [missed]
    dsimp only
    generalize (sweep (fun state : Nat × LayeredClock => state.2.clockHand)
      (fun state => (state.1, state.2.advance)) visitCold clock.clockHand clock.frameCount
      (0, clock)).2.2 = after at passes cleared ⊢
    have hand : after.clockHand = clock.clockHand := by
      rw [passes.hand, Nat.add_mod_right, Nat.mod_eq_of_lt inRange]
    have unused : ∀ frame < clock.frameCount, clock.inReplacer frame = true →
        after.useBits frame = false := by
      intro other bound isCandidate
      obtain ⟨place, places, rfl⟩ := exists_place inRange bound
      exact cleared place places isCandidate
    have restart : clock.Passes clock.clockHand 0 after :=
      ⟨passes.inReplacer, passes.frameCount, passes.latch, hand.trans begin.hand⟩
    have second := @sweep_visits _ clockHand advance visitHot clock.clockHand clock.frameCount
      (clock.Misses clock.clockHand) clock.Takes inRange (fun _ _ misses => misses.1.hand)
      (fun _ _ _ misses chosen => takes_visitHot misses ready some chosen)
      (fun _ _ _ misses goesOn => misses_visitHot misses some goesOn) clock.frameCount 0 after
      (Nat.zero_add _) some ⟨restart, unused, fun _ none => absurd none (Nat.not_lt_zero _)⟩
    rw [hand, passes.frameCount]
    rcases second with found | ⟨-, -, -, none⟩
    · exact found
    · obtain ⟨place, places, rfl⟩ := exists_place inRange isFrame
      rw [none place places] at candidate
      cases candidate

/-! ## The operations -/

theorem countFrames_eq_zero_iff {frames : Nat} {inReplacer : Nat → Bool} :
    countFrames frames inReplacer = 0 ↔ ∀ frame < frames, inReplacer frame = false := by
  simp [countFrames]

/-- `Victim` with its latch set aside. -/
theorem victim_eq (noop : clock.latch = .noop) :
    clock.victim =
      if countFrames clock.frameCount clock.inReplacer = 0 then (none, clock)
      else (clock.search.1, { clock.search.2 with latch := clock.search.2.latch.unlock }) := by
  have locked : ({ clock with latch := Mutex.noop } : LayeredClock) = clock := by
    rw [← noop]
  unfold victim size lockGuard
  dsimp only [Guarded.setMutex, Guarded.mutex]
  rw [noop]
  simp only [Mutex.lock, Mutex.unlock, locked]
  split
  · rw [noop]
    exact congrArg (Prod.mk none) locked
  · rfl

/-- `Victim` refuses, and changes nothing, if there is no candidate, and takes one
otherwise. -/
theorem victim_cases (ready : clock.Ready) :
    (∀ frame < clock.frameCount, clock.inReplacer frame = false) ∧ clock.victim = (none, clock) ∨
      ∃ taken, clock.victim.1 = some taken ∧ clock.Takes taken clock.victim.2 := by
  rw [victim_eq ready.latch]
  by_cases none : countFrames clock.frameCount clock.inReplacer = 0
  · rw [if_pos none]
    exact .inl ⟨countFrames_eq_zero_iff.mp none, rfl⟩
  · rw [if_neg none]
    have exists_candidate : ∃ frame < clock.frameCount, clock.inReplacer frame = true := by
      by_contra absent
      refine none (countFrames_eq_zero_iff.mpr fun frame bound => ?_)
      by_contra candidate
      exact absent ⟨frame, bound, by simpa using candidate⟩
    obtain ⟨frame, isFrame, candidate⟩ := exists_candidate
    obtain ⟨taken, chosen, takes⟩ := search_takes ready isFrame candidate
    refine .inr ⟨taken, chosen, takes.candidate, takes.isFrame, takes.removed, takes.frameCount,
      takes.ready.hand, ?_⟩
    dsimp only
    rw [takes.ready.latch]
    rfl

end LayeredClock

end MiniDB.Buffer
