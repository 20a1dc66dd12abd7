import Mathlib.Algebra.Order.Ring.Rat
import Mathlib.Data.List.Basic
import Mathlib.Tactic.Common

/-! Recognition of swipe gestures. Gestures are registered with a recognizer, which starts those that a swipe may
become and takes them out again while the swipe is followed. -/
namespace KWinFT.Gestures

/-- `QSizeF`, also for points. -/
structure SizeF where
  width : ℚ
  height : ℚ
deriving Repr, DecidableEq

def SizeF.add (a b : SizeF) : SizeF := ⟨a.width + b.width, a.height + b.height⟩

inductive Direction
  | down | left | up | right
deriving Repr, DecidableEq

/-- Limits that were never set are not relevant. -/
structure SwipeGesture where
  minimumFingerCount : Option Nat := none
  maximumFingerCount : Option Nat := none
  direction : Direction := .down
  minimumX : Option Int := none
  maximumX : Option Int := none
  minimumY : Option Int := none
  maximumY : Option Int := none
  minimumDelta : Option SizeF := none
deriving Repr, DecidableEq

/-- `std::min(std::abs(delta) / std::abs(minimum), 1.0)`, without a result where the quotient is not a number. -/
def progressRatio (delta minimum : ℚ) : Option ℚ :=
  if minimum = 0 then if delta = 0 then none else some 1 else some (min (|delta| / |minimum|) 1)

namespace SwipeGesture
variable (g : SwipeGesture)

/-- The part of a size along the direction of the gesture. -/
def axis (size : SizeF) : ℚ :=
  match g.direction with
  | .up | .down => size.height
  | .left | .right => size.width

def minimumDeltaReachedProgress (delta : SizeF) : Option ℚ :=
  match g.minimumDelta with
  | none => some 1
  | some minimum =>
    if minimum.width = 0 ∧ minimum.height = 0 then some 1 else progressRatio (g.axis delta) (g.axis minimum)

/-- What is not a number reaches nothing. -/
def minimumDeltaReached (delta : SizeF) : Bool :=
  match g.minimumDeltaReachedProgress delta with
  | some progress => 1 ≤ progress
  | none => false

def matchesFingers (fingerCount : Nat) : Bool :=
  g.minimumFingerCount.all (· ≤ fingerCount) && g.maximumFingerCount.all (fingerCount ≤ ·)

def matchesStart (pos : SizeF) : Bool :=
  g.minimumX.all (fun x => (x : ℚ) ≤ pos.width) && g.maximumX.all (fun x => pos.width ≤ x) &&
    g.minimumY.all (fun y => (y : ℚ) ≤ pos.height) && g.maximumY.all (fun y => pos.height ≤ y)

end SwipeGesture

/-- Identity of a gesture object. -/
abbrev GestureId := Nat

inductive Signal
  | started (g : GestureId)
  | progress (g : GestureId) (progress : Option ℚ)
  | triggered (g : GestureId)
  | cancelled (g : GestureId)
deriving Repr, DecidableEq

structure GestureRecognizer where
  gestures : List GestureId := []
  activeSwipeGestures : List GestureId := []
  swipeUpdates : List SizeF := []
deriving Repr, DecidableEq

/-- Both components stay below a pixel. -/
def SizeF.isSubPixel (delta : SizeF) : Prop := |delta.width| < 1 ∧ |delta.height| < 1

instance (delta : SizeF) : Decidable delta.isSubPixel := inferInstanceAs (Decidable (_ ∧ _))

def SizeF.swipeDirection (delta : SizeF) : Direction :=
  if |delta.width| > |delta.height| then if delta.width < 0 then .left else .right
  else if delta.height < 0 then .up else .down

def combined (updates : List SizeF) : SizeF := updates.foldl SizeF.add ⟨0, 0⟩

namespace GestureRecognizer
variable (props : GestureId → SwipeGesture) (r : GestureRecognizer)

/-- Asserts that the gesture is not registered yet. -/
def registerGesture (g : GestureId) : Option GestureRecognizer :=
  if g ∈ r.gestures then none else some { r with gestures := r.gestures ++ [g] }

def unregisterGesture (g : GestureId) : GestureRecognizer × List Signal :=
  ({ r with
      gestures := r.gestures.filter (· ≠ g)
      activeSwipeGestures := r.activeSwipeGestures.erase g },
    if g ∈ r.activeSwipeGestures then [.cancelled g] else [])

/-- The start position is only given for touches. -/
def startSwipeGesture (fingerCount : Nat) (startPos : Option SizeF) : GestureRecognizer × List Signal :=
  let started := r.gestures.filter fun g =>
    (props g).matchesFingers fingerCount && startPos.all (props g).matchesStart
  ({ r with activeSwipeGestures := r.activeSwipeGestures ++ started }, started.map .started)

def cancelActiveSwipeGestures : GestureRecognizer × List Signal :=
  ({ r with activeSwipeGestures := [] }, r.activeSwipeGestures.map .cancelled)

def updateSwipeGesture (delta : SizeF) : GestureRecognizer × List Signal :=
  let r := { r with swipeUpdates := r.swipeUpdates ++ [delta] }
  if delta.isSubPixel then (r, [])
  else if delta.width = delta.height then r.cancelActiveSwipeGestures
  else
    let direction := delta.swipeDirection
    let combinedDelta := combined r.swipeUpdates
    ({ r with activeSwipeGestures := r.activeSwipeGestures.filter fun g => (props g).direction = direction },
      r.activeSwipeGestures.flatMap fun g =>
        if (props g).direction = direction then
          if (props g).minimumDelta.isSome then [.progress g ((props g).minimumDeltaReachedProgress combinedDelta)]
          else []
        else [.cancelled g])

def cancelSwipeGesture : GestureRecognizer × List Signal :=
  let (r, signals) := r.cancelActiveSwipeGestures
  ({ r with swipeUpdates := [] }, signals)

def endSwipeGesture : GestureRecognizer × List Signal :=
  let delta := combined r.swipeUpdates
  ({ r with activeSwipeGestures := [], swipeUpdates := [] },
    r.activeSwipeGestures.map fun g => if (props g).minimumDeltaReached delta then .triggered g else .cancelled g)

end GestureRecognizer

inductive Event
  | registerGesture (g : GestureId)
  | unregisterGesture (g : GestureId)
  | startSwipeGesture (fingerCount : Nat) (startPos : Option SizeF)
  | updateSwipeGesture (delta : SizeF)
  | cancelSwipeGesture
  | endSwipeGesture
deriving Repr, DecidableEq

/-- A recognizer with the knowledge of its callers whether a swipe is active. -/
structure Swipes where
  recognizer : GestureRecognizer := {}
  active : Bool := false
deriving Repr, DecidableEq

namespace Swipes
variable (props : GestureId → SwipeGesture)

/-- One call with the signals it emits. Swipes are not started while one is active. -/
def step (s : Swipes) : Event → Option (Swipes × List Signal)
  | .registerGesture g => (s.recognizer.registerGesture g).map fun r => ({ s with recognizer := r }, [])
  | .unregisterGesture g =>
    let (r, signals) := s.recognizer.unregisterGesture g
    some ({ s with recognizer := r }, signals)
  | .startSwipeGesture fingerCount startPos =>
    if s.active then none
    else
      let (r, signals) := s.recognizer.startSwipeGesture props fingerCount startPos
      some (⟨r, true⟩, signals)
  | .updateSwipeGesture delta =>
    let (r, signals) := s.recognizer.updateSwipeGesture props delta
    some ({ s with recognizer := r }, signals)
  | .cancelSwipeGesture =>
    let (r, signals) := s.recognizer.cancelSwipeGesture
    some (⟨r, false⟩, signals)
  | .endSwipeGesture =>
    let (r, signals) := s.recognizer.endSwipeGesture props
    some (⟨r, false⟩, signals)

/-- A sequence of calls with all signals. -/
def run (s : Swipes) : List Event → Option (Swipes × List Signal)
  | [] => some (s, [])
  | e :: es => s.step props e >>= fun (s, signals) => s.run es >>= fun (s, more) => some (s, signals ++ more)

end Swipes

end KWinFT.Gestures
