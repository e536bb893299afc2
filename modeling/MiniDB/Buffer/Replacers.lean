import Mathlib.Logic.Function.Basic
import MiniDB.Foundation.Mutex

/-!
# The replacers

`LayeredClock`, `Clock` and `ClockPro` pick the frame to evict. Each keeps bits
per frame and a hand, and all three search in the same way: look at the frame
under the hand, move the hand on, and stop when it is back where it started. A
frame is a `Nat`, where a negative argument is out of range as every frame from
the frame count on is; a `std::vector<bool>` is a function on frames.
-/

namespace MiniDB.Buffer

open Foundation

/-- The loop `do { .. } while (hand != start)` of the searches. `visit` looks at
the frame under the hand and says whether it is the one; `fuel` is the number of
frames, after which the hand is back at `start`. -/
def sweep {State : Type} (hand : State → Nat) (advance : State → State)
    (visit : State → Bool × State) (start : Nat) : Nat → State → Option Nat × State
  | 0, state => (none, state)
  | fuel + 1, state =>
    let frame := hand state
    let (chosen, state) := visit state
    let state := advance state
    if chosen then (some frame, state)
    else if hand state ≠ start then sweep hand advance visit start fuel state
    else (none, state)

/-- `static_cast<int>(frame)`, or 0 where that is negative. The calls refuse all frames from
there on, and the hand stays below. -/
def intFrames (frame : Nat) : Nat :=
  if frame % 4294967296 < 2147483648 then frame % 4294967296 else 0

/-- A frame count that is an `int` is cast to itself. -/
theorem intFrames_of_lt {frame : Nat} (isInt : frame < 2147483648) : intFrames frame = frame := by
  have small : frame % 4294967296 = frame := Nat.mod_eq_of_lt (by omega)
  rw [intFrames, small, if_pos isInt]

/-- The number of frames in the replacer. -/
def countFrames (frames : Nat) (inReplacer : Nat → Bool) : Nat :=
  ((List.range frames).filter inReplacer).length

/-! ## LayeredClock -/

/-- `LayeredClock`. -/
structure LayeredClock where
  /-- `frame_count_` as the casts to `int` leave it. -/
  frameCount : Nat
  useBits : Nat → Bool := fun _ => false
  inReplacer : Nat → Bool := fun _ => false
  isHot : Nat → Bool := fun _ => true
  clockHand : Nat := 0
  latch : Mutex := .unlocked

namespace LayeredClock

instance : Guarded LayeredClock where
  mutex clock := clock.latch
  setMutex clock mutex := { clock with latch := mutex }

/-- `COLD_EVICTION_PRIORITY`. -/
def coldEvictionPriority : Nat := 5

/-- `clock_hand_ = (clock_hand_ + 1) % frame_count_`. -/
def advance (clock : LayeredClock) : LayeredClock :=
  { clock with clockHand := (clock.clockHand + 1) % clock.frameCount }

/-- `in_replacer_[clock_hand_] = false`. -/
def removeHand (clock : LayeredClock) : LayeredClock :=
  { clock with inReplacer := Function.update clock.inReplacer clock.clockHand false }

/-- `use_bits_[clock_hand_] = false`. -/
def clearUse (clock : LayeredClock) : LayeredClock :=
  { clock with useBits := Function.update clock.useBits clock.clockHand false }

/-- `LayeredClock::Size`. -/
def size (clock : LayeredClock) : Nat × LayeredClock :=
  lockGuard (fun clock => (countFrames clock.frameCount clock.inReplacer, clock)) clock

/-- The body of the first round, with `cold_scan_count`: an unused cold frame is
taken at once, an unused hot frame when it is the fifth one seen. -/
def visitCold (state : Nat × LayeredClock) : Bool × (Nat × LayeredClock) :=
  let (coldScanCount, clock) := state
  let hand := clock.clockHand
  if clock.inReplacer hand then
    if clock.useBits hand then (false, coldScanCount, clock.clearUse)
    else if !clock.isHot hand then (true, coldScanCount, clock.removeHand)
    else if coldScanCount + 1 ≥ coldEvictionPriority then
      (true, coldScanCount + 1, clock.removeHand)
    else (false, coldScanCount + 1, clock)
  else (false, coldScanCount, clock)

/-- The body of the second round. -/
def visitHot (clock : LayeredClock) : Bool × LayeredClock :=
  let hand := clock.clockHand
  if clock.inReplacer hand && !clock.useBits hand then (true, clock.removeHand)
  else if clock.useBits hand then (false, clock.clearUse)
  else (false, clock)

/-- The two rounds of `Victim`. -/
def search (clock : LayeredClock) : Option Nat × LayeredClock :=
  let (found, _, clock) := sweep (fun state : Nat × LayeredClock => state.2.clockHand)
    (fun (coldScanCount, clock) => (coldScanCount, clock.advance)) visitCold clock.clockHand
    clock.frameCount (0, clock)
  match found with
  | some frame => (some frame, clock)
  | none => sweep clockHand advance visitHot clock.clockHand clock.frameCount clock

/-- `LayeredClock::Victim`. `Size()` is called with the latch held. -/
def victim (clock : LayeredClock) : Option Nat × LayeredClock :=
  lockGuard (fun clock =>
    let (count, clock) := clock.size
    if count = 0 then (none, clock) else clock.search) clock

/-- `LayeredClock::Pin`. -/
def pin (clock : LayeredClock) (frame : Nat) : LayeredClock :=
  lockGuard' (fun clock =>
    if frame < clock.frameCount then
      { clock with inReplacer := Function.update clock.inReplacer frame false }
    else clock) clock

/-- `LayeredClock::Unpin`. -/
def unpin (clock : LayeredClock) (frame : Nat) (isHot : Bool) : LayeredClock :=
  lockGuard' (fun clock =>
    if frame < clock.frameCount && !clock.inReplacer frame then
      { clock with
        inReplacer := Function.update clock.inReplacer frame true
        useBits := Function.update clock.useBits frame true
        isHot := Function.update clock.isHot frame isHot }
    else clock) clock

end LayeredClock

/-! ## Clock -/

/-- `Clock`. -/
structure Clock where
  frame : Nat
  useBits : Nat → Bool := fun _ => false
  inReplacer : Nat → Bool := fun _ => false
  clockHand : Nat := 0
  latch : Mutex := .unlocked

namespace Clock

instance : Guarded Clock where
  mutex clock := clock.latch
  setMutex clock mutex := { clock with latch := mutex }

def advance (clock : Clock) : Clock :=
  { clock with clockHand := (clock.clockHand + 1) % clock.frame }

/-- `Clock::Size`. -/
def size (clock : Clock) : Nat × Clock :=
  lockGuard (fun clock => (countFrames clock.frame clock.inReplacer, clock)) clock

/-- The body of the search: an unused frame is taken, a used one loses its bit. -/
def visit (clock : Clock) : Bool × Clock :=
  let hand := clock.clockHand
  if clock.inReplacer hand then
    if clock.useBits hand then
      (false, { clock with useBits := Function.update clock.useBits hand false })
    else (true, { clock with inReplacer := Function.update clock.inReplacer hand false })
  else (false, clock)

/-- `Clock::Victim`. `Size()` is called with the latch held. -/
def victim (clock : Clock) : Option Nat × Clock :=
  lockGuard (fun clock =>
    let (count, clock) := clock.size
    if count = 0 then (none, clock)
    else sweep clockHand advance visit clock.clockHand clock.frame clock) clock

/-- `Clock::Pin`. -/
def pin (clock : Clock) (frame : Nat) : Clock :=
  lockGuard' (fun clock =>
    if frame < clock.frame && clock.inReplacer frame then
      { clock with inReplacer := Function.update clock.inReplacer frame false }
    else clock) clock

/-- `Clock::Unpin`, which ignores the temperature. -/
def unpin (clock : Clock) (frame : Nat) : Clock :=
  lockGuard' (fun clock =>
    if frame < clock.frame && !clock.inReplacer frame then
      { clock with
        inReplacer := Function.update clock.inReplacer frame true
        useBits := Function.update clock.useBits frame true }
    else clock) clock

end Clock

/-! ## ClockPro -/

/-- `ClockPro`. -/
structure ClockPro where
  frame : Nat
  uBits : Nat → Bool := fun _ => false
  pBits : Nat → Bool := fun _ => false
  inReplacer : Nat → Bool := fun _ => false
  clockHand : Nat := 0
  latch : Mutex := .unlocked

namespace ClockPro

instance : Guarded ClockPro where
  mutex clock := clock.latch
  setMutex clock mutex := { clock with latch := mutex }

def advance (clock : ClockPro) : ClockPro :=
  { clock with clockHand := (clock.clockHand + 1) % clock.frame }

/-- `ClockPro::Size`. -/
def size (clock : ClockPro) : Nat × ClockPro :=
  lockGuard (fun clock => (countFrames clock.frame clock.inReplacer, clock)) clock

/-- The body of the search: a frame that is taken becomes old. -/
def visit (clock : ClockPro) : Bool × ClockPro :=
  let hand := clock.clockHand
  if clock.inReplacer hand then
    if clock.uBits hand then
      (false, { clock with uBits := Function.update clock.uBits hand false })
    else
      (true, { clock with
        inReplacer := Function.update clock.inReplacer hand false
        pBits := Function.update clock.pBits hand false })
  else (false, clock)

/-- `ClockPro::Victim`. `Size()` is called with the latch held. -/
def victim (clock : ClockPro) : Option Nat × ClockPro :=
  lockGuard (fun clock =>
    let (count, clock) := clock.size
    if count = 0 then (none, clock)
    else sweep clockHand advance visit clock.clockHand clock.frame clock) clock

/-- `ClockPro::Pin`. -/
def pin (clock : ClockPro) (frame : Nat) : ClockPro :=
  lockGuard' (fun clock =>
    if frame < clock.frame then
      { clock with inReplacer := Function.update clock.inReplacer frame false }
    else clock) clock

/-- `ClockPro::Unpin`. -/
def unpin (clock : ClockPro) (frame : Nat) : ClockPro :=
  lockGuard' (fun clock =>
    if frame < clock.frame && !clock.inReplacer frame then
      { clock with
        inReplacer := Function.update clock.inReplacer frame true
        uBits := Function.update clock.uBits frame true
        pBits := Function.update clock.pBits frame true }
    else clock) clock

end ClockPro

end MiniDB.Buffer
