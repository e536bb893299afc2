import MiniDB.Buffer.Exhaustion
import MiniDB.Buffer.ScanOrder

/-!
# When a hot frame is taken before a cold one

A cold frame that was used since the hand last passed it is not taken in the first round,
which only clears its bit. The second round takes the first frame of the scan and no longer
looks at temperatures, so a hot frame is taken although a cold one is in the replacer.
-/

namespace MiniDB.Buffer

open Foundation

/-- The calls on a replacer. -/
inductive ClockCall where
  | victim
  | pin (frame : Nat)
  | unpin (frame : Nat) (isHot : Bool)

namespace LayeredClock

/-- `LayeredClock::LayeredClock`, with its latch set aside. -/
def start (frameCount : Nat) : LayeredClock :=
  { frameCount := intFrames frameCount, latch := .noop }

/-- The replacer that a buffer pool begins with. -/
theorem replacer_new {D : Type} {poolSize : Nat} (isInt : poolSize < 2147483648) (disk : D) :
    (BufferPool.new poolSize disk .noop).replacer = start poolSize := by
  rw [start, intFrames_of_lt isInt]
  rfl

/-- One call. -/
def step (clock : LayeredClock) : ClockCall → LayeredClock
  | .victim => clock.victim.2
  | .pin frame => clock.pin frame
  | .unpin frame isHot => clock.unpin frame isHot

/-- If `Victim` returns a hot frame, no cold frame is in the replacer, or enough unused hot
frames were met before any unused cold one. -/
def SparesHot (clock : LayeredClock) : ClockCall → Prop
  | .victim => ∀ frame, clock.victim.1 = some frame → clock.isHot frame = true →
      (∀ other ∈ clock.scan, clock.isHot other = true) ∨
        coldEvictionPriority ≤
          (clock.scan.takeWhile fun other => !clock.unusedCold other).countP clock.unusedHot
  | _ => True

/-- The first round stops, or no frame of the scan is cold, or the first one is. -/
def PrefersCold (clock : LayeredClock) : ClockCall → Prop
  | .victim =>
    (∃ frame ∈ clock.scan, clock.unusedCold frame = true) ∨
      coldEvictionPriority ≤ clock.scan.countP clock.unusedHot ∨
        (∀ frame ∈ clock.scan, clock.isHot frame = true) ∨
          ∃ frame ∈ clock.scan.head?, clock.isHot frame = false
  | _ => True

variable {clock : LayeredClock}

theorem Ready.step (ready : clock.Ready) (call : ClockCall) : (clock.step call).Ready := by
  cases call with
  | victim =>
    rcases victim_cases ready with ⟨-, none⟩ | ⟨taken, -, takes⟩
    · rw [LayeredClock.step, none]
      exact ready
    · exact takes.ready
  | pin frame => exact ready.pin frame
  | unpin frame isHot => exact ready.unpin frame isHot

/-- A frame that the first round stops at is cold, or is the last of enough hot ones. -/
theorem spares_of_stops {before rest : List Nat} {victim : Nat}
    (split : clock.scan = before ++ victim :: rest)
    (noCold : ∀ frame ∈ before, clock.unusedCold frame = false)
    (here : clock.unusedCold victim = true ∨
      clock.unusedHot victim = true ∧ before.countP clock.unusedHot + 1 = coldEvictionPriority)
    (hot : clock.isHot victim = true) :
    coldEvictionPriority ≤
      (clock.scan.takeWhile fun other => !clock.unusedCold other).countP clock.unusedHot := by
  rcases here with cold | ⟨unused, fifth⟩
  · simp [unusedCold, hot] at cold
  · have passed : ∀ frame ∈ before, (!clock.unusedCold frame) = true := by
      intro frame member
      rw [noCold frame member]
      rfl
    have notCold : clock.unusedCold victim = false := by simp [unusedCold, hot]
    rw [split, List.takeWhile_append_of_pos passed, List.takeWhile_cons, notCold, Bool.not_false,
      if_pos rfl, List.countP_append, List.countP_cons, unused, if_pos rfl]
    omega

/-- A call spares hot frames exactly when it prefers cold ones. -/
theorem sparesHot_iff (ready : clock.Ready) (call : ClockCall) :
    clock.SparesHot call ↔ clock.PrefersCold call := by
  cases call with
  | pin frame => exact Iff.rfl
  | unpin frame isHot => exact Iff.rfl
  | victim =>
    have chooses := chooses_victim ready
    unfold SparesHot PrefersCold
    dsimp only
    generalize clock.victim.1 = found, clock.victim.2 = after at chooses
    cases chooses with
    | nothing empty =>
      refine iff_of_true (fun frame isSome => ?_) (.inr (.inr (.inl ?_)))
      · cases isSome
      · simp [empty]
    | @stops before rest victim split noCold few here =>
      refine iff_of_true (fun frame same hot => ?_) ?_
      · obtain rfl := Option.some.inj same
        exact .inr (spares_of_stops split noCold here hot)
      · rcases (firstRound_eq_some split noCold few here).2 with cold | many
        · exact .inl cold
        · exact .inr (.inl many)
    | @falls rest skipped victim split noCold few outside =>
      have passes := (firstRound_eq_none noCold few).2
      have notMany : ¬ coldEvictionPriority ≤
          (clock.scan.takeWhile fun other => !clock.unusedCold other).countP clock.unusedHot := by
        have fewer : (clock.scan.takeWhile fun other => !clock.unusedCold other).countP
            clock.unusedHot ≤ clock.scan.countP clock.unusedHot :=
          (List.takeWhile_sublist _).countP_le
        omega
      have first : clock.scan.head? = some victim := by
        rw [split]
        rfl
      rw [first]
      constructor
      · intro spares
        cases hot : clock.isHot victim with
        | false => exact .inr (.inr (.inr ⟨victim, rfl, hot⟩))
        | true =>
          rcases spares victim rfl hot with allHot | many
          · exact .inr (.inr (.inl allHot))
          · exact absurd many notMany
      · rintro prefers frame same hot
        obtain rfl := Option.some.inj same
        rcases prefers with cold | many | allHot | ⟨first, isFirst, cold⟩
        · exact absurd (.inl cold) passes
        · exact absurd (.inr many) passes
        · exact .inl allHot
        · obtain rfl := Option.some.inj isFirst
          rw [hot] at cold
          cases cold

/-- In every run of the replacer, the calls of `Victim` spare hot frames exactly when each
of them prefers cold ones. -/
theorem runs_spare_hot_iff (frameCount : Nat) (calls : List ClockCall) :
    EachCall step SparesHot (start frameCount) calls ↔
      EachCall step PrefersCold (start frameCount) calls := by
  have ready : (start frameCount).Ready := ⟨(Nat.eq_zero_or_pos (intFrames frameCount)).symm, rfl⟩
  apply @eachCall_congr _ _ _ _ Ready _ _ _ _ ready
  · exact fun clock call ready => sparesHot_iff ready call
  · exact fun clock call ready => ready.step call

/-- Both frames were used. The first round clears both bits, and the second takes the hot
frame because it comes first. -/
theorem hot_before_cold :
    ¬ EachCall step SparesHot (start 2) [.unpin 0 true, .unpin 1 false, .victim] := by
  rintro ⟨-, -, spares, -⟩
  have taken : (((start 2).step (.unpin 0 true)).step (.unpin 1 false)).victim.1 = some 0 := by decide
  rcases spares 0 taken (by decide) with allHot | many
  · exact absurd (allHot 1 (by decide)) (by decide)
  · exact absurd many (by decide)

end LayeredClock

end MiniDB.Buffer
