import MiniDB.Buffer.Victims
import MiniDB.Foundation.Walk

/-!
# The choice of `LayeredClock::Victim`

The frames in the replacer, in the order in which the hand passes them, are a walk. The
first round is the walk that stops at the first unused cold frame or the fifth unused hot
one; if it passes all of them, it has cleared all their use bits, and the second round
takes the first.
-/

namespace MiniDB.Buffer

open Foundation

namespace LayeredClock

/-- The frames in the replacer in cyclic order from the hand on. -/
def scan (clock : LayeredClock) : List Nat :=
  (ring clock.frameCount clock.clockHand).filter clock.inReplacer

/-- A cold frame that was not used since the hand last passed it. -/
def unusedCold (clock : LayeredClock) (frame : Nat) : Bool :=
  !clock.useBits frame && !clock.isHot frame

/-- A hot frame that was not used since the hand last passed it. -/
def unusedHot (clock : LayeredClock) (frame : Nat) : Bool :=
  !clock.useBits frame && clock.isHot frame

/-- The first unused cold frame or the fifth unused hot one, whichever comes first. -/
def firstRound (clock : LayeredClock) : Option Nat :=
  firstOf clock.unusedCold clock.unusedHot (coldEvictionPriority - 1) clock.scan

/-- The use bits with those of some frames cleared. -/
def clearing (clock : LayeredClock) (frames : List Nat) : Nat → Bool :=
  fun frame => clock.useBits frame && !decide (frame ∈ frames)

/-- A frame taken from the replacer, with the use bits of others cleared on the way. -/
def taking (clock : LayeredClock) (victim : Nat) (cleared : List Nat) : LayeredClock :=
  { clock with
    inReplacer := Function.update clock.inReplacer victim false
    useBits := clock.clearing cleared
    clockHand := (victim + 1) % clock.frameCount }

/-- The hand moved on `count` places, with use bits cleared on the way. -/
def passing (clock : LayeredClock) (count : Nat) (cleared : List Nat) : LayeredClock :=
  { clock with
    useBits := clock.clearing cleared
    clockHand := (clock.clockHand + count) % clock.frameCount }

/-- What `Victim` can do. -/
inductive Chooses (clock : LayeredClock) : Option Nat → LayeredClock → Prop where
  | nothing (empty : clock.scan = []) : Chooses clock none clock
  /-- The first round stops. -/
  | stops {before rest : List Nat} {victim : Nat} (split : clock.scan = before ++ victim :: rest)
      (noCold : ∀ frame ∈ before, clock.unusedCold frame = false)
      (few : before.countP clock.unusedHot < coldEvictionPriority)
      (here : clock.unusedCold victim = true ∨
        clock.unusedHot victim = true ∧
          before.countP clock.unusedHot + 1 = coldEvictionPriority) :
      Chooses clock (some victim) (clock.taking victim before)
  /-- The first round passes all frames; the second takes the first. -/
  | falls {rest skipped : List Nat} {victim : Nat} (split : clock.scan = victim :: rest)
      (noCold : ∀ frame ∈ clock.scan, clock.unusedCold frame = false)
      (few : clock.scan.countP clock.unusedHot < coldEvictionPriority)
      (outside : ∀ frame ∈ skipped, clock.inReplacer frame = false) :
      Chooses clock (some victim) (clock.taking victim (clock.scan ++ skipped))

variable {clock : LayeredClock} {count frame victim : Nat} {frames cleared : List Nat}

theorem clearing_nil : clock.clearing [] = clock.useBits := by
  ext frame
  simp [clearing]

theorem clearing_of_notMem (fresh : frame ∉ frames) :
    clock.clearing frames frame = clock.useBits frame := by
  simp [clearing, fresh]

theorem clearing_of_mem (member : frame ∈ frames) : clock.clearing frames frame = false := by
  simp [clearing, member]

/-- Clearing one bit more. -/
theorem clearing_concat (frames : List Nat) (frame : Nat) :
    clock.clearing (frames ++ [frame]) =
      Function.update (clock.clearing frames) frame false := by
  ext other
  by_cases same : other = frame
  · subst same
    rw [Function.update_self]
    exact clearing_of_mem (by simp)
  · rw [Function.update_of_ne same]
    simp [clearing, same]

/-- The scan meets the frames that are in the replacer. -/
theorem mem_scan : frame ∈ clock.scan ↔ frame < clock.frameCount ∧ clock.inReplacer frame = true := by
  rw [scan, List.mem_filter, ring_perm.mem_iff, List.mem_range]

/-- It meets each once. -/
theorem nodup_scan (clock : LayeredClock) : clock.scan.Nodup := nodup_ring.filter _

/-- It meets none exactly if `Size` is 0. -/
theorem scan_eq_nil_iff :
    clock.scan = [] ↔ countFrames clock.frameCount clock.inReplacer = 0 := by
  rw [countFrames_eq_zero_iff, List.eq_nil_iff_forall_not_mem]
  refine forall_congr' fun frame => ?_
  rw [mem_scan, not_and, Bool.not_eq_true]

/-- The scan up to the frame under the hand, after `count` places. -/
def scanned (clock : LayeredClock) (count : Nat) : List Nat :=
  ((ring clock.frameCount clock.clockHand).take count).filter clock.inReplacer

/-- The frame `count` places after the hand. -/
def frameAt (clock : LayeredClock) (count : Nat) : Nat :=
  (clock.clockHand + count) % clock.frameCount

/-- A candidate stands in the scan behind those met before it. -/
theorem scan_split (inside : count < clock.frameCount)
    (candidate : clock.inReplacer (clock.frameAt count) = true) :
    ∃ rest, clock.scan = clock.scanned count ++ clock.frameAt count :: rest := by
  refine ⟨((ring clock.frameCount clock.clockHand).drop (count + 1)).filter clock.inReplacer, ?_⟩
  unfold scan scanned
  conv => lhs; rw [ring_split inside]
  rw [List.filter_append, ← frameAt, List.filter_cons_of_pos candidate]

/-- One step adds the frame under the hand, if it is a candidate. -/
theorem scanned_succ (inside : count < clock.frameCount) :
    clock.scanned (count + 1) = clock.scanned count ++
      if clock.inReplacer (clock.frameAt count) then [clock.frameAt count] else [] := by
  unfold scanned
  rw [ring_take_succ inside, List.filter_append, ← frameAt]
  cases candidate : clock.inReplacer (clock.frameAt count) with
  | true => rw [List.filter_cons_of_pos candidate, List.filter_nil, if_pos rfl]
  | false => rw [List.filter_cons_of_neg (by simp [candidate]), List.filter_nil, if_neg (by simp)]

/-- After a lap every candidate was met. -/
theorem scanned_all : clock.scanned clock.frameCount = clock.scan := by
  unfold scanned scan
  rw [List.take_of_length_le (Nat.le_of_eq length_ring)]

/-- The frame under the hand was not met before in this lap. -/
theorem notMem_scanned (inside : count < clock.frameCount) :
    clock.frameAt count ∉ clock.scanned count :=
  fun member => notMem_take_ring inside (List.mem_of_mem_filter member)

/-- The hand goes on. -/
theorem advance_passing (count : Nat) (cleared : List Nat) :
    (clock.passing count cleared).advance = clock.passing (count + 1) cleared := by
  simp only [advance, passing, Nat.mod_add_mod, Nat.add_assoc]

/-- The frame under the hand is taken, and the hand goes on. -/
theorem advance_removeHand_passing (count : Nat) (cleared : List Nat) :
    (clock.passing count cleared).removeHand.advance =
      clock.taking (clock.frameAt count) cleared := by
  simp only [advance, removeHand, passing, taking, frameAt]

/-- The use bit of the frame under the hand is cleared. -/
theorem clearUse_passing (count : Nat) (cleared : List Nat) :
    (clock.passing count cleared).clearUse =
      clock.passing count (cleared ++ [clock.frameAt count]) := by
  simp only [clearUse, passing, clearing_concat, frameAt]

/-! ## The first round -/

/-- The first round has passed no cold frame that is unused, and few hot ones. -/
structure PassesCold (clock : LayeredClock) (count : Nat) (state : Nat × LayeredClock) : Prop where
  state_eq : state = ((clock.scanned count).countP clock.unusedHot,
    clock.passing count (clock.scanned count))
  noCold : ∀ frame ∈ clock.scanned count, clock.unusedCold frame = false
  few : (clock.scanned count).countP clock.unusedHot < coldEvictionPriority

/-- What `visitCold` does at a frame whose use bit is as it was. -/
theorem visitCold_passing (fresh : clock.frameAt count ∉ cleared) (seen : Nat) :
    visitCold (seen, clock.passing count cleared) =
      if clock.inReplacer (clock.frameAt count) then
        if clock.useBits (clock.frameAt count) then
          (false, seen, clock.passing count (cleared ++ [clock.frameAt count]))
        else if clock.isHot (clock.frameAt count) = false then
          (true, seen, (clock.passing count cleared).removeHand)
        else if seen + 1 ≥ coldEvictionPriority then
          (true, seen + 1, (clock.passing count cleared).removeHand)
        else (false, seen + 1, clock.passing count cleared)
      else (false, seen, clock.passing count cleared) := by
  have bit : (clock.passing count cleared).useBits (clock.frameAt count) =
      clock.useBits (clock.frameAt count) := clearing_of_notMem fresh
  have hand : (clock.passing count cleared).clockHand = clock.frameAt count := rfl
  have candidates : (clock.passing count cleared).inReplacer = clock.inReplacer := rfl
  have hot : (clock.passing count cleared).isHot = clock.isHot := rfl
  simp only [visitCold, hand, candidates, hot, bit, clearUse_passing, Bool.not_eq_true']

variable {state : Nat × LayeredClock}

/-- A step of the first lap that takes no frame. -/
theorem PassesCold.next (passes : clock.PassesCold count state) (inside : count < clock.frameCount)
    (goesOn : (visitCold state).1 = false) :
    clock.PassesCold (count + 1) ((visitCold state).2.1, (visitCold state).2.2.advance) := by
  obtain ⟨rfl, noCold, few⟩ := passes
  have next := scanned_succ inside
  rw [visitCold_passing (notMem_scanned inside)] at goesOn ⊢
  cases candidate : clock.inReplacer (clock.frameAt count) with
  | false =>
    rw [candidate, if_neg (by simp), List.append_nil] at next
    rw [if_neg (by simp)]
    refine ⟨?_, next ▸ noCold, next ▸ few⟩
    rw [next, advance_passing]
  | true =>
    rw [candidate, if_pos rfl] at goesOn next
    rw [if_pos rfl]
    have concat : ∀ {holds : Nat → Bool}, (∀ frame ∈ clock.scanned count, holds frame = false) →
        holds (clock.frameAt count) = false →
          ∀ frame ∈ clock.scanned (count + 1), holds frame = false := by
      intro holds before here frame member
      rw [next] at member
      rcases List.mem_append.mp member with earlier | last
      · exact before frame earlier
      · rw [List.mem_singleton.mp last]
        exact here
    cases used : clock.useBits (clock.frameAt count) with
    | true =>
      have notCold : clock.unusedCold (clock.frameAt count) = false := by simp [unusedCold, used]
      have same : (clock.scanned (count + 1)).countP clock.unusedHot =
          (clock.scanned count).countP clock.unusedHot := by
        rw [next, List.countP_append]
        simp [unusedHot, used]
      rw [if_pos rfl]
      refine ⟨?_, concat noCold notCold, same ▸ few⟩
      rw [same, advance_passing, next]
    | false =>
      rw [used, if_neg (by simp)] at goesOn
      rw [if_neg (by simp)]
      -- the bit is clear already
      have cleared : clock.passing count (clock.scanned count ++ [clock.frameAt count]) =
          clock.passing count (clock.scanned count) := by
        have bit : clock.clearing (clock.scanned count) (clock.frameAt count) = false := by
          rw [clearing_of_notMem (notMem_scanned inside), used]
        simp only [passing, clearing_concat]
        rw [Function.update_eq_self_iff.mpr bit.symm]
      cases hot : clock.isHot (clock.frameAt count) with
      | false => simp [hot] at goesOn
      | true =>
        rw [hot, if_neg (by simp)] at goesOn
        rw [if_neg (by simp)]
        have notCold : clock.unusedCold (clock.frameAt count) = false := by simp [unusedCold, hot]
        have more : (clock.scanned (count + 1)).countP clock.unusedHot =
            (clock.scanned count).countP clock.unusedHot + 1 := by
          rw [next, List.countP_append]
          simp [unusedHot, used, hot]
        by_cases fifth : (clock.scanned count).countP clock.unusedHot + 1 ≥ coldEvictionPriority
        · simp [fifth] at goesOn
        · rw [if_neg fifth]
          refine ⟨?_, concat noCold notCold, by omega⟩
          rw [more, ← cleared, advance_passing, next]

/-- The step of the first lap that takes a frame takes what the scan prefers. -/
theorem PassesCold.stops (passes : clock.PassesCold count state) (inside : count < clock.frameCount)
    (chosen : (visitCold state).1 = true) :
    clock.Chooses (some state.2.clockHand) (visitCold state).2.2.advance := by
  obtain ⟨rfl, noCold, few⟩ := passes
  rw [visitCold_passing (notMem_scanned inside)] at chosen ⊢
  change clock.Chooses (some (clock.frameAt count)) _
  cases candidate : clock.inReplacer (clock.frameAt count) with
  | false => simp [candidate] at chosen
  | true =>
    obtain ⟨rest, split⟩ := scan_split inside candidate
    rw [candidate, if_pos rfl] at chosen
    rw [if_pos rfl]
    cases used : clock.useBits (clock.frameAt count) with
    | true => simp [used] at chosen
    | false =>
      rw [used, if_neg (by simp)] at chosen
      rw [if_neg (by simp)]
      cases hot : clock.isHot (clock.frameAt count) with
      | false =>
        rw [if_pos rfl, advance_removeHand_passing]
        exact .stops split noCold few (.inl (by simp [unusedCold, used, hot]))
      | true =>
        rw [hot, if_neg (by simp)] at chosen
        rw [if_neg (by simp)]
        by_cases fifth : (clock.scanned count).countP clock.unusedHot + 1 ≥ coldEvictionPriority
        · rw [if_pos fifth, advance_removeHand_passing]
          exact .stops split noCold few (.inr ⟨by simp [unusedHot, used, hot], by omega⟩)
        · simp [fifth] at chosen

/-! ## The second round -/

/-- The second round has passed no frame of the scan, whose use bits are all cleared. -/
structure PassesHot (clock : LayeredClock) (count : Nat) (after : LayeredClock) : Prop where
  after_eq : after = clock.passing count
    (clock.scan ++ (ring clock.frameCount clock.clockHand).take count)
  outside : ∀ frame ∈ (ring clock.frameCount clock.clockHand).take count,
    clock.inReplacer frame = false

/-- What `visitHot` does when the use bits of the scan are cleared. -/
theorem visitHot_passing (inside : count < clock.frameCount) (passed : List Nat) :
    visitHot (clock.passing count (clock.scan ++ passed)) =
      if clock.inReplacer (clock.frameAt count) then
        (true, (clock.passing count (clock.scan ++ passed)).removeHand)
      else (false, clock.passing count (clock.scan ++ (passed ++ [clock.frameAt count]))) := by
  have isFrame : clock.frameAt count < clock.frameCount := Nat.mod_lt _ (by omega)
  have hand : (clock.passing count (clock.scan ++ passed)).clockHand = clock.frameAt count := rfl
  have candidates : (clock.passing count (clock.scan ++ passed)).inReplacer = clock.inReplacer := rfl
  have bits : (clock.passing count (clock.scan ++ passed)).useBits =
      clock.clearing (clock.scan ++ passed) := rfl
  simp only [visitHot, hand, candidates, bits]
  cases candidate : clock.inReplacer (clock.frameAt count) with
  | true =>
    have member : clock.frameAt count ∈ clock.scan ++ passed :=
      List.mem_append_left _ (mem_scan.mpr ⟨isFrame, candidate⟩)
    rw [clearing_of_mem member]
    rfl
  | false =>
    simp only [Bool.false_and, Bool.false_eq_true, if_false]
    rw [← List.append_assoc]
    cases used : clock.clearing (clock.scan ++ passed) (clock.frameAt count) with
    | true => rw [if_pos rfl, clearUse_passing]
    | false =>
      rw [if_neg (by simp)]
      simp only [passing, clearing_concat]
      rw [Function.update_eq_self_iff.mpr used.symm]

/-- A step of the second lap that takes no frame. -/
theorem PassesHot.next {after : LayeredClock} (passes : clock.PassesHot count after)
    (inside : count < clock.frameCount) (goesOn : after.visitHot.1 = false) :
    clock.PassesHot (count + 1) after.visitHot.2.advance := by
  obtain ⟨rfl, outside⟩ := passes
  rw [visitHot_passing inside] at goesOn ⊢
  cases candidate : clock.inReplacer (clock.frameAt count) with
  | true => simp [candidate] at goesOn
  | false =>
    have next : (ring clock.frameCount clock.clockHand).take (count + 1) =
        (ring clock.frameCount clock.clockHand).take count ++ [clock.frameAt count] :=
      ring_take_succ inside
    refine ⟨?_, ?_⟩
    · rw [if_neg (by simp), advance_passing, next]
    · intro frame member
      rw [next] at member
      rcases List.mem_append.mp member with earlier | last
      · exact outside frame earlier
      · rw [List.mem_singleton.mp last]
        exact candidate

/-- The step of the second lap that takes a frame, where no cold one was to be had. -/
theorem PassesHot.falls {after : LayeredClock} (passes : clock.PassesHot count after)
    (inside : count < clock.frameCount)
    (noCold : ∀ frame ∈ clock.scan, clock.unusedCold frame = false)
    (few : clock.scan.countP clock.unusedHot < coldEvictionPriority)
    (chosen : after.visitHot.1 = true) :
    clock.Chooses (some after.clockHand) after.visitHot.2.advance := by
  obtain ⟨rfl, outside⟩ := passes
  rw [visitHot_passing inside] at chosen ⊢
  change clock.Chooses (some (clock.frameAt count)) _
  cases candidate : clock.inReplacer (clock.frameAt count) with
  | false => simp [candidate] at chosen
  | true =>
    obtain ⟨rest, split⟩ := scan_split inside candidate
    have none : clock.scanned count = [] := by
      unfold scanned
      rw [List.filter_eq_nil_iff]
      exact fun frame member => by simp [outside frame member]
    rw [none, List.nil_append] at split
    rw [if_pos rfl, advance_removeHand_passing]
    exact .falls split noCold few outside

/-! ## `Victim` -/

/-- The two rounds, when some frame is in the replacer. -/
theorem chooses_search (hand : clock.clockHand < clock.frameCount) (some : clock.scan ≠ []) :
    clock.Chooses clock.search.1 clock.search.2 := by
  have frames : 0 < clock.frameCount := by omega
  have start : clock.passing 0 [] = clock := by
    simp only [passing, clearing_nil, Nat.add_zero, Nat.mod_eq_of_lt hand]
  have first := @sweep_visits _ (fun state : Nat × LayeredClock => state.2.clockHand)
    (fun state => (state.1, state.2.advance)) visitCold clock.clockHand clock.frameCount
    clock.PassesCold (fun victim state => clock.Chooses (.some victim) state.2) hand
    (fun _ _ passes => congrArg (fun state => state.2.clockHand) passes.state_eq)
    (fun _ _ inside passes chosen => passes.stops inside chosen)
    (fun _ _ inside passes goesOn => passes.next inside goesOn) clock.frameCount 0 (0, clock)
    (Nat.zero_add _) frames
    ⟨congrArg (Prod.mk 0) start.symm, fun _ none => absurd none List.not_mem_nil,
      by simp [scanned, coldEvictionPriority]⟩
  unfold search
  dsimp only
  rcases first with ⟨victim, chosen, chooses⟩ | ⟨missed, state_eq, noCold, few⟩
  · rw [chosen]
    exact chooses
  · rw [missed]
    rw [scanned_all] at state_eq noCold few
    have full : clock.passing clock.frameCount clock.scan = clock.passing 0 (clock.scan ++ []) := by
      simp only [passing, Nat.add_mod_right, Nat.add_zero, List.append_nil]
    have back : (clock.passing 0 (clock.scan ++ [])).clockHand = clock.clockHand :=
      Nat.mod_eq_of_lt hand
    have after_eq := congrArg Prod.snd state_eq
    dsimp only at after_eq ⊢
    rw [after_eq, full]
    have second := @sweep_visits _ clockHand advance visitHot clock.clockHand clock.frameCount
      clock.PassesHot (fun victim after => clock.Chooses (.some victim) after) hand
      (fun _ _ passes => congrArg clockHand passes.after_eq)
      (fun _ _ inside passes chosen => passes.falls inside noCold few chosen)
      (fun _ _ inside passes goesOn => passes.next inside goesOn) clock.frameCount 0
      (clock.passing 0 (clock.scan ++ [])) (Nat.zero_add _) frames
      ⟨rfl, fun _ none => absurd none List.not_mem_nil⟩
    rw [back]
    rcases second with ⟨victim, chosen, chooses⟩ | ⟨-, -, outside⟩
    · have same : (clock.passing 0 (clock.scan ++ [])).frameCount = clock.frameCount := rfl
      rw [same, chosen]
      exact chooses
    · -- a frame of the scan would have been taken
      obtain ⟨frame, member⟩ := List.exists_mem_of_ne_nil _ some
      obtain ⟨isFrame, candidate⟩ := mem_scan.mp member
      have passed : frame ∈ (ring clock.frameCount clock.clockHand).take clock.frameCount := by
        rw [List.take_of_length_le (Nat.le_of_eq length_ring), ring_perm.mem_iff]
        exact List.mem_range.mpr isFrame
      rw [outside frame passed] at candidate
      cases candidate

/-- The choice leaves the latch. -/
theorem Chooses.latch_eq {found : Option Nat} {after : LayeredClock} (chooses : clock.Chooses found after) :
    after.latch = clock.latch := by
  cases chooses with
  | nothing empty => rfl
  | stops split noCold few here => rfl
  | falls split noCold few outside => rfl

/-- Every call of `Victim` is one of these. -/
theorem chooses_victim (ready : clock.Ready) : clock.Chooses clock.victim.1 clock.victim.2 := by
  rw [victim_eq ready.latch]
  by_cases empty : clock.scan = []
  · rw [if_pos (scan_eq_nil_iff.mp empty)]
    exact .nothing empty
  · rw [if_neg fun none => empty (scan_eq_nil_iff.mpr none)]
    have hand : clock.clockHand < clock.frameCount := by
      obtain ⟨frame, member⟩ := List.exists_mem_of_ne_nil _ empty
      have isFrame := (mem_scan.mp member).1
      rcases ready.hand with inRange | none
      · exact inRange
      · omega
    have chooses := chooses_search hand empty
    have latch : clock.search.2.latch.unlock = clock.search.2.latch := by
      rw [chooses.latch_eq, ready.latch]
      rfl
    rw [latch]
    exact chooses

/-- None is chosen only where there is no candidate. -/
theorem Chooses.scan_eq_nil {after : LayeredClock} (chooses : clock.Chooses none after) :
    clock.scan = [] := by
  cases chooses with
  | nothing empty => exact empty

/-- The frame that is taken was in the replacer, and only it leaves. -/
structure Leaves (clock : LayeredClock) (victim : Nat) (after : LayeredClock) : Prop where
  member : victim ∈ clock.scan
  removed : after.inReplacer = Function.update clock.inReplacer victim false
  hand : after.clockHand = (victim + 1) % clock.frameCount
  frameCount : after.frameCount = clock.frameCount
  latch : after.latch = clock.latch

/-- The victim leaves the replacer, and only it. -/
theorem Chooses.leaves {after : LayeredClock} (chooses : clock.Chooses (some victim) after) :
    clock.Leaves victim after := by
  cases chooses with
  | stops split noCold few here =>
    refine ⟨?_, rfl, rfl, rfl, rfl⟩
    rw [split]
    exact List.mem_append_right _ List.mem_cons_self
  | falls split noCold few outside =>
    refine ⟨?_, rfl, rfl, rfl, rfl⟩
    rw [split]
    exact List.mem_cons_self

/-- The clock without its victim is ready. -/
theorem Leaves.ready {after : LayeredClock} (leaves : clock.Leaves victim after) (ready : clock.Ready) :
    after.Ready := by
  have isFrame := (mem_scan.mp leaves.member).1
  refine ⟨.inl ?_, leaves.latch.trans ready.latch⟩
  rw [leaves.hand, leaves.frameCount]
  exact Nat.mod_lt _ (by omega)

/-- The frames that remain are those of the scan without the victim. -/
theorem Leaves.scan_perm {after : LayeredClock} (leaves : clock.Leaves victim after) :
    after.scan.Perm (clock.scan.erase victim) := by
  refine (List.perm_ext_iff_of_nodup after.nodup_scan (clock.nodup_scan.erase _)).mpr fun frame => ?_
  rw [clock.nodup_scan.mem_erase_iff, mem_scan, mem_scan, leaves.frameCount, leaves.removed]
  by_cases same : frame = victim
  · subst same
    simp
  · simp [same]

/-- Where there is nothing to stop for, the first round passes all frames. -/
theorem firstRound_eq_none (noCold : ∀ frame ∈ clock.scan, clock.unusedCold frame = false)
    (few : clock.scan.countP clock.unusedHot < coldEvictionPriority) :
    clock.firstRound = none ∧ ¬ ((∃ frame ∈ clock.scan, clock.unusedCold frame = true) ∨
      coldEvictionPriority ≤ clock.scan.countP clock.unusedHot) := by
  refine ⟨firstOf_eq_none noCold (Nat.le_pred_of_lt few), ?_⟩
  rintro (⟨frame, member, cold⟩ | many)
  · rw [noCold frame member] at cold
    cases cold
  · omega

variable {before rest : List Nat}

/-- Where the first round stops. -/
theorem firstRound_eq_some (split : clock.scan = before ++ victim :: rest)
    (noCold : ∀ frame ∈ before, clock.unusedCold frame = false)
    (few : before.countP clock.unusedHot < coldEvictionPriority)
    (here : clock.unusedCold victim = true ∨ clock.unusedHot victim = true ∧
      before.countP clock.unusedHot + 1 = coldEvictionPriority) :
    clock.firstRound = some victim ∧ ((∃ frame ∈ clock.scan, clock.unusedCold frame = true) ∨
      coldEvictionPriority ≤ clock.scan.countP clock.unusedHot) := by
  have distinct := clock.nodup_scan
  unfold firstRound
  rw [split] at distinct ⊢
  rcases here with cold | ⟨hot, fifth⟩
  · refine ⟨firstOf_eq_some distinct noCold (Nat.le_pred_of_lt few) (.inl cold), .inl ⟨victim, ?_, cold⟩⟩
    exact List.mem_append_right _ List.mem_cons_self
  · refine ⟨firstOf_eq_some distinct noCold (Nat.le_pred_of_lt few) (.inr ⟨hot, by omega⟩), .inr ?_⟩
    rw [List.countP_append, List.countP_cons, hot, if_pos rfl]
    omega

/-- The frames in front of the victim. -/
theorem takeWhile_scan (split : clock.scan = before ++ victim :: rest) :
    clock.scan.takeWhile (· != victim) = before := by
  have distinct := clock.nodup_scan
  rw [split] at distinct ⊢
  have apart : ∀ frame ∈ before, (frame != victim) = true := by
    intro frame member
    simpa using (List.nodup_append.mp distinct).2.2 _ member _ List.mem_cons_self
  rw [List.takeWhile_append_of_pos apart, List.takeWhile_cons_of_neg (by simp), List.append_nil]

/-- Whether the first round stops, and where. -/
theorem Chooses.firstRound_eq {found : Option Nat} {after : LayeredClock}
    (chooses : clock.Chooses found after) :
    found = clock.firstRound.or clock.scan.head? ∧
      (clock.firstRound.isSome = true ↔ (∃ frame ∈ clock.scan, clock.unusedCold frame = true) ∨
        coldEvictionPriority ≤ clock.scan.countP clock.unusedHot) ∧
      (∀ victim, clock.firstRound = some victim →
        ∀ frame, after.useBits frame =
          (clock.useBits frame && !decide (frame ∈ clock.scan.takeWhile (· != victim)))) ∧
      (clock.firstRound = none → ∀ frame ∈ after.scan, after.useBits frame = false) := by
  cases chooses with
  | nothing empty =>
    obtain ⟨none, notDecided⟩ := @firstRound_eq_none clock (by simp [empty])
      (by simp [empty, coldEvictionPriority])
    rw [none, empty]
    rw [empty] at notDecided
    refine ⟨rfl, iff_of_false (by simp) notDecided, ?_, ?_⟩
    · intro victim isVictim
      cases isVictim
    · intro _ frame member
      cases member
  | falls split noCold few outside =>
    obtain ⟨none, notDecided⟩ := firstRound_eq_none noCold few
    rw [none]
    have leaves := (Chooses.falls split noCold few outside).leaves
    refine ⟨by rw [split]; rfl, iff_of_false (by simp) notDecided, ?_, ?_⟩
    · intro victim isVictim
      cases isVictim
    · intro _ frame member
      have remains := leaves.scan_perm.mem_iff.mp member
      exact clearing_of_mem (List.mem_append_left _ (List.mem_of_mem_erase remains))
  | @stops before rest victim split noCold few here =>
    obtain ⟨stopsAt, decided⟩ := firstRound_eq_some split noCold few here
    rw [stopsAt]
    refine ⟨rfl, iff_of_true rfl decided, ?_, ?_⟩
    · intro other same frame
      obtain rfl := Option.some.inj same
      rw [takeWhile_scan split]
      rfl
    · intro none
      cases none

/-- `Victim` called again and again, with the frames it returned. -/
def victims : Nat → LayeredClock → List (Option Nat) × LayeredClock
  | 0, clock => ([], clock)
  | calls + 1, clock =>
    (clock.victim.1 :: (victims calls clock.victim.2).1, (victims calls clock.victim.2).2)

/-- Each frame of the scan is returned once, and then there is none left. -/
theorem victims_scan (calls : Nat) (ready : clock.Ready) (length : clock.scan.length = calls) :
    ∃ order : List Nat, (clock.victims calls).1 = order.map some ∧ order.Perm clock.scan ∧
      (clock.victims calls).2.victim.1 = none := by
  induction calls generalizing clock with
  | zero =>
    have empty := List.eq_nil_of_length_eq_zero length
    refine ⟨[], rfl, empty ▸ .refl _, ?_⟩
    have same := (chooses_victim ready).firstRound_eq.1
    rw [empty] at same
    change clock.victim.1 = none
    rw [same, firstRound, empty]
    rfl
  | succ calls ih =>
    have chooses := chooses_victim ready
    cases found : clock.victim.1 with
    | none =>
      rw [found] at chooses
      rw [chooses.scan_eq_nil] at length
      cases length
    | some victim =>
      rw [found] at chooses
      have leaves := chooses.leaves
      have perm := leaves.scan_perm
      have fewer : clock.victim.2.scan.length = calls := by
        rw [perm.length_eq, List.length_erase_of_mem leaves.member, length]
        rfl
      obtain ⟨order, returned, same, last⟩ := ih (leaves.ready ready) fewer
      refine ⟨victim :: order, ?_, ?_, last⟩
      · rw [victims, found, returned]
        rfl
      · exact ((same.trans perm).cons victim).trans (List.perm_cons_erase leaves.member).symm

/-- `Victim` from any state with the hand on a frame. -/
theorem victim_scans (clock : LayeredClock) (noop : clock.latch = .noop)
    (hand : clock.clockHand < clock.frameCount) :
    (clock.victim.1 = none ↔ clock.scan = []) ∧
      clock.victim.1 = clock.firstRound.or clock.scan.head? ∧
      (clock.firstRound.isSome = true ↔ (∃ frame ∈ clock.scan, clock.unusedCold frame = true) ∨
        5 ≤ clock.scan.countP clock.unusedHot) ∧
      (∀ victim, clock.firstRound = some victim →
        ∀ frame, clock.victim.2.useBits frame =
          (clock.useBits frame && !decide (frame ∈ clock.scan.takeWhile (· != victim)))) ∧
      (clock.firstRound = none →
        ∀ frame ∈ clock.victim.2.scan, clock.victim.2.useBits frame = false) ∧
      (∀ victim, clock.victim.1 = some victim →
        clock.victim.2.inReplacer = Function.update clock.inReplacer victim false ∧
          clock.victim.2.clockHand = (victim + 1) % clock.frameCount) ∧
      ∃ order : List Nat, (clock.victims clock.scan.length).1 = order.map some ∧ order.Perm clock.scan ∧
        order.Nodup ∧ (clock.victims clock.scan.length).2.victim.1 = none := by
  have ready : clock.Ready := ⟨.inl hand, noop⟩
  have chooses := chooses_victim ready
  obtain ⟨found, decided, cleared, allCleared⟩ := chooses.firstRound_eq
  refine ⟨?_, found, decided, cleared, allCleared, ?_, ?_⟩
  · constructor
    · intro none
      rw [none] at chooses
      exact chooses.scan_eq_nil
    · intro empty
      rw [found, firstRound, empty]
      rfl
  · intro victim taken
    rw [taken] at chooses
    exact ⟨chooses.leaves.removed, chooses.leaves.hand⟩
  · obtain ⟨order, returned, perm, last⟩ := victims_scan _ ready rfl
    exact ⟨order, returned, perm, perm.nodup_iff.mpr clock.nodup_scan, last⟩

/-- Three frames, the hand on the last: it was used, and the first is cold. -/
def coldBehindHot : LayeredClock where
  frameCount := 3
  useBits frame := decide (frame = 2)
  inReplacer _ := true
  isHot frame := decide (frame ≠ 0)
  clockHand := 2
  latch := .noop

theorem victim_scans_cold : coldBehindHot.victim.1 = some 0 ∧
    coldBehindHot.victim.2.useBits 2 = false ∧ coldBehindHot.victim.2.clockHand = 1 := by
  obtain ⟨-, found, -, cleared, -, leaves, -⟩ := victim_scans coldBehindHot rfl (by decide)
  have stops : coldBehindHot.firstRound = some 0 := by decide
  have taken : coldBehindHot.victim.1 = some 0 := by
    rw [found, stops]
    rfl
  refine ⟨taken, ?_, (leaves 0 taken).2⟩
  rw [cleared 0 stops]
  decide

end LayeredClock

end MiniDB.Buffer
