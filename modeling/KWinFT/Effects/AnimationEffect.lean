import KWinFT.Effects.Animation
import Mathlib.Data.List.Sort
import Mathlib.Logic.Function.Iterate
import Mathlib.Logic.Function.Basic

/-! The animations of an effect by their windows, and the pass after painting that reports those that have ended. -/
namespace KWinFT.Effects

/-- The windows of `m_animations` in the order of the map with their lists, and what was done so far: the animations that
were started, cancelled, or set going again after they had ended. -/
structure AnimationEffect (K : Type*) [Field K] where
  windows : List Nat
  animations : Nat → List (AniData K)
  animCounter : Nat
  justEndedAnimation : Nat
  animationsTouched : Bool
  started : List Nat
  cancelled : List Nat
  resumed : List Nat

/-- What a callback may ask for. -/
inductive Action (K : Type*) [Field K]
  | animate (window : Nat) (ms : Int) (to_ : FPx2 K) (curve : EasingCurve K) (delay : Int) (from_ : FPx2 K)
      (waitAtSource keepAtTarget : Bool)
  | retarget (animationId : Nat) (newTarget : FPx2 K) (newRemainingTime : Int)
  | redirect (animationId : Nat) (direction : Direction) (terminationFlags : TerminationFlags)
  | complete (animationId : Nat)
  | cancel (animationId : Nat)

variable {K : Type*} [Field K]

/-- Whether the pass reports the animation. -/
def AniData.ended (a : AniData K) (clock : Int) : Bool :=
  !(a.isActive || (decide (clock < a.startTime) && !a.waitAtSource))

namespace AnimationEffect
variable (e : AnimationEffect K) (clock : Int)

def animate (window : Nat) (ms : Int) (to_ : FPx2 K) (curve : EasingCurve K) (delay : Int) (from_ : FPx2 K)
    (waitAtSource keepAtTarget : Bool) : AnimationEffect K :=
  let id := e.animCounter + 1
  let list := if window ∈ e.windows then e.animations window else []
  { e with
    windows := if window ∈ e.windows then e.windows else e.windows.orderedInsert (· ≤ ·) window
    animations := Function.update e.animations window
      (list ++ [.animate clock id ms to_ curve delay from_ waitAtSource keepAtTarget])
    animCounter := id
    animationsTouched := true
    started := e.started ++ [id] }

/-- The first window with the animation. -/
def find (animationId : Nat) : Option Nat := e.windows.find? fun window => (e.animations window).any (·.id = animationId)

/-- An animation is changed where it is; the one that has just ended is not. -/
def modify (animationId : Nat) (f : AniData K → AniData K) : AnimationEffect K :=
  if animationId = e.justEndedAnimation then e
  else
    match e.find animationId with
    | none => e
    | some window =>
      let list := e.animations window
      let place := list.findIdx (·.id = animationId)
      let resumes := list[place]?.any fun a => a.ended clock && !(f a).ended clock
      { e with
        animations := Function.update e.animations window (list.modify place f)
        resumed := if resumes then e.resumed ++ [animationId] else e.resumed }

def cancel (animationId : Nat) : AnimationEffect K :=
  if animationId = e.justEndedAnimation then e
  else
    match e.find animationId with
    | none => e
    | some window =>
      let list := (e.animations window).eraseP (·.id = animationId)
      { e with
        windows := if list = [] then e.windows.erase window else e.windows
        animations := Function.update e.animations window list
        animationsTouched := true
        cancelled := e.cancelled ++ [animationId] }

def perform : Action K → AnimationEffect K
  | .animate window ms to_ curve delay from_ waitAtSource keepAtTarget =>
    e.animate clock window ms to_ curve delay from_ waitAtSource keepAtTarget
  | .retarget animationId newTarget newRemainingTime =>
    e.modify clock animationId fun a => a.retarget clock newTarget newRemainingTime
  | .redirect animationId direction terminationFlags =>
    e.modify clock animationId fun a => a.redirect direction terminationFlags
  | .complete animationId => e.modify clock animationId AniData.complete
  | .cancel animationId => e.cancel animationId

end AnimationEffect

/-- The pass at a round of its loops: an entry of the map and a place in its list, and what it has reported, passed over
and left so far. -/
structure PostPaint (K : Type*) [Field K] where
  effect : AnimationEffect K
  entry : Option Nat
  anim : Nat
  animCounter : Nat
  rounds : Nat
  reported : List Nat
  passed : List Nat

/-- What the callback asks for, whatever it goes by. -/
abbrev Callback (K : Type*) [Field K] := PostPaint K → Nat → AniData K → List (Action K)

namespace PostPaint
variable (s : PostPaint K) (animationEnded : Callback K) (clock : Nat → Int)

def start (e : AnimationEffect K) : PostPaint K :=
  ⟨{ e with animationsTouched := false }, e.windows.head?, 0, 0, 0, [], []⟩

/-- The entry behind a window in the order of the map. -/
def following (window : Nat) : Option Nat := s.effect.windows.find? (window < ·)

/-- On to the next entry; an empty one is erased. -/
def leaveEntry (window : Nat) : PostPaint K :=
  { s with
    effect := { s.effect with
      windows := if s.effect.animations window = [] then s.effect.windows.erase window else s.effect.windows }
    entry := s.following window
    anim := 0
    animCounter := 0 }

def callback (window : Nat) (a : AniData K) : AnimationEffect K :=
  let effect := (animationEnded s window a).foldl (fun e action => e.perform (clock s.rounds) action)
    { s.effect with justEndedAnimation := a.id }
  { effect with justEndedAnimation := 0 }

/-- Where the animations were touched, the iterators are restored. None where there is nothing at them. -/
def report (window : Nat) (a : AniData K) : Option (PostPaint K) :=
  let effect := s.callback animationEnded clock window a
  let anim := if effect.animationsTouched then s.animCounter else s.anim
  if effect.animationsTouched ∧ window ∉ effect.windows then none
  else if anim < (effect.animations window).length then
    some { s with
      effect := { effect with
        animationsTouched := false
        animations := Function.update effect.animations window ((effect.animations window).eraseIdx anim) }
      anim := anim
      reported := s.reported ++ [a.id] }
  else none

/-- One round of the inner loop, or what is done at its end. -/
def round : Option (PostPaint K) :=
  match s.entry with
  | none => some s
  | some window =>
    match (s.effect.animations window)[s.anim]? with
    | none => if s.anim = (s.effect.animations window).length then some (s.leaveEntry window) else none
    | some a =>
      if a.ended (clock s.rounds) then (s.report animationEnded clock window a).map fun s => { s with rounds := s.rounds + 1 }
      else some { s with
        anim := s.anim + 1, animCounter := s.animCounter + 1, rounds := s.rounds + 1, passed := s.passed ++ [a.id] }

/-- The pass after some rounds. -/
def run (n : Nat) : Option (PostPaint K) := (fun s => s.bind fun s => round s animationEnded clock)^[n] (some s)

end PostPaint
end KWinFT.Effects
