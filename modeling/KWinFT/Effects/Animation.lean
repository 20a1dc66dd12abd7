import Mathlib.Algebra.Field.Basic
import Mathlib.Algebra.Order.Floor.Ring
import Mathlib.Data.Rat.Floor

/-! The time line of an animation, and what an effect can do to an animation that it has started. -/
namespace KWinFT.Effects

inductive Direction
  | forward
  | backward
deriving Repr, DecidableEq

inductive RedirectMode
  | strict
  | relaxed
deriving Repr, DecidableEq

structure EasingCurve (K : Type*) [Field K] where
  valueForProgress : K → K
  zero : valueForProgress 0 = 0
  one : valueForProgress 1 = 1

def EasingCurve.linear (K : Type*) [Field K] : EasingCurve K := ⟨id, rfl, rfl⟩

/-- Halves go up, also below zero. -/
def qRound (x : ℚ) : Int := ⌊x + 1 / 2⌋

/-- Times in milliseconds. -/
structure TimeLine (K : Type*) [Field K] where
  duration : Int
  direction : Direction
  easingCurve : EasingCurve K
  elapsed : Int
  done : Bool
  sourceRedirectMode : RedirectMode
  targetRedirectMode : RedirectMode

namespace TimeLine
variable {K : Type*} [Field K] (t : TimeLine K)

def initial : TimeLine K := ⟨1000, .forward, .linear K, 0, false, .relaxed, .strict⟩

def progress : K := (t.elapsed : K) / t.duration

def value : K :=
  t.easingCurve.valueForProgress (if t.direction = .backward then 1 - t.progress else t.progress)

def update (delta : Int) : TimeLine K :=
  if t.done then t
  else
    let elapsed := t.elapsed + delta
    if t.duration ≤ elapsed then { t with done := true, elapsed := t.duration } else { t with elapsed }

def reset : TimeLine K := { t with elapsed := 0, done := false }

def setElapsed (elapsed : Int) : TimeLine K := if elapsed = t.elapsed then t else t.reset.update elapsed

/-- A duration that is not positive fails an assertion in debug builds only. -/
def setDuration (duration : Int) : TimeLine K :=
  if duration = t.duration then t
  else
    let elapsed := qRound ((t.elapsed : ℚ) / t.duration * duration)
    { t with elapsed, duration, done := t.done || elapsed = duration }

def setDirection (direction : Direction) : TimeLine K :=
  if t.direction = direction then t
  else
    let elapsed := if 0 < t.elapsed ∨ t.sourceRedirectMode = .strict then t.duration - t.elapsed else t.elapsed
    let done := if t.done ∧ t.targetRedirectMode = .relaxed then false else t.done
    { t with direction, elapsed, done := done || t.duration ≤ elapsed }

end TimeLine

structure TerminationFlags where
  atSource : Bool
  atTarget : Bool
deriving Repr, DecidableEq

/-- A pair of numbers. -/
abbrev FPx2 (K : Type*) := Fin 2 → K

structure AniData (K : Type*) [Field K] where
  id : Nat
  from_ : FPx2 K
  to_ : FPx2 K
  timeLine : TimeLine K
  startTime : Int
  waitAtSource : Bool
  terminationFlags : TerminationFlags

namespace AniData
variable {K : Type*} [Field K] (a : AniData K)

/-- The animation that `p_animate` makes, from values that were validated. -/
def animate (clock : Int) (id : Nat) (ms : Int) (to_ : FPx2 K) (curve : EasingCurve K) (delay : Int) (from_ : FPx2 K)
    (waitAtSource keepAtTarget : Bool) : AniData K where
  id := id
  from_ := from_
  to_ := to_
  timeLine := { ((TimeLine.initial : TimeLine K).setDirection .forward).setDuration ms with
    easingCurve := curve, sourceRedirectMode := .strict, targetRedirectMode := .relaxed }
  startTime := clock + delay
  waitAtSource := waitAtSource
  terminationFlags := ⟨true, !keepAtTarget⟩

def interpolated (clock : Int) (i : Fin 2) : K :=
  if clock < a.startTime then a.from_ i
  else if !a.timeLine.done then a.from_ i + a.timeLine.value * (a.to_ i - a.from_ i)
  else a.to_ i

def isActive : Bool :=
  if !a.timeLine.done then true
  else if a.timeLine.direction = .backward then !a.terminationFlags.atSource
  else !a.terminationFlags.atTarget

/-- With a target that was validated. -/
def retarget (clock : Int) (newTarget : FPx2 K) (newRemainingTime : Int) : AniData K :=
  { a with
    from_ := a.interpolated clock
    to_ := newTarget
    timeLine := ((a.timeLine.setDirection .forward).setDuration newRemainingTime).reset }

def redirect (direction : Direction) (terminationFlags : TerminationFlags) : AniData K :=
  { a with
    timeLine := a.timeLine.setDirection direction
    terminationFlags := { terminationFlags with atTarget := false } }

def complete : AniData K := { a with timeLine := a.timeLine.setElapsed a.timeLine.duration }

end AniData

/-- What happens to an animation. -/
inductive AniEvent (K : Type*)
  | update (delta : Nat)
  | redirect (direction : Direction) (terminationFlags : TerminationFlags)
  | complete
  | retarget (newTarget : FPx2 K) (newRemainingTime : Int)

def AniData.apply {K : Type*} [Field K] (a : AniData K) (clock : Int) : AniEvent K → AniData K
  | .update delta => { a with timeLine := a.timeLine.update delta }
  | .redirect direction terminationFlags => a.redirect direction terminationFlags
  | .complete => a.complete
  | .retarget newTarget newRemainingTime => a.retarget clock newTarget newRemainingTime

/-- An event at a time, once the animation has started. -/
def AniData.step {K : Type*} [Field K] (a : AniData K) (e : Int × AniEvent K) : Option (AniData K) :=
  if e.1 < a.startTime then none else some (a.apply e.1 e.2)

end KWinFT.Effects
