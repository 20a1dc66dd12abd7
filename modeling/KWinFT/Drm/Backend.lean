import KWinFT.Drm.Output
import Mathlib.Logic.Function.Basic

/-! All outputs of the backend, at any pace of the device. Outputs are known by their CRTC. -/
namespace KWinFT.Drm

abbrev OutputId := Nat

/-- A picture that is painted, and what comes of handing it over. -/
structure Frame where
  hasFramebuffer : Bool := true
  test : Reply := {}
  real : Reply := {}

namespace DrmOutput
variable (x : DrmOutput)

/-- `EglGbmBackend::presentOnOutput` with `DrmBackend::present`. -/
def presentOnOutput (sessionActive : Bool) (frame : Frame) : Option (DrmOutput × Bool) :=
  let buffer := x.created
  let x := { x with buffers := insert buffer x.buffers, created := x.created + 1 }
  if !frame.hasFramebuffer then (x.delete buffer).map (·, false)
  else do
    let presented ← x.present sessionActive buffer frame.test frame.real
    if presented.2 then
      if presented.1.swapPending = some false then some ({ presented.1 with swapPending := some true }, true) else none
    else (presented.1.delete buffer).map (·, false)

/-- The compositor paints its outputs, and not before the last picture is shown. -/
def paint (sessionActive : Bool) (frame : Frame) : Option (DrmOutput × Bool) :=
  if x.swapPending = some false then x.presentOnOutput sessionActive frame else some (x, false)

def removed : Option DrmOutput := do
  let x ← { x with inEnabledOutputs := false, swapPending := none }.releaseGbm
  x.teardown

end DrmOutput

structure DrmBackend where
  active : Bool := true
  sessionActive : Bool := true
  pageFlipsPending : Int := 0
  output : OutputId → DrmOutput := fun _ => {}

/-- The outputs of the connectors with a DPMS property, and the transformations of planes. -/
structure Hardware where
  hasDpms : OutputId → Bool
  supported : OutputId → Transformation → Bool
  usesSoftwareCursor : Bool

inductive Event
  | paint (o : OutputId) (frame : Frame)
  | vblank (o : OutputId)
  /-- An event of the device is read, if there is one. -/
  | pageFlip (o : OutputId) (test real : Reply)
  | updateDpms (o : OutputId) (mode : DpmsMode) (test real : Reply)
  | setEnabled (o : OutputId) (enable : Bool) (test real : Reply)
  | updateMode (o : OutputId) (modes : List Mode) (modeIndex : Nat)
  | updateTransform (o : OutputId) (transform : Transform)
  | setGeometry (o : OutputId) (globalPos : Geometry.Point)
  | sessionActiveChanged (active : Bool)
  | disconnected (o : OutputId)
  | connected (o : OutputId) (mode : Mode)

namespace DrmBackend
variable (s : DrmBackend)

def set (o : OutputId) (x : DrmOutput) : DrmBackend := { s with output := Function.update s.output o x }

def atomicFlipHandler (o : OutputId) (test real : Reply) : Option DrmBackend := do
  let x ← (s.output o).pageFlipped test real
  let x ← x.swapped
  some { s.set o x with pageFlipsPending := s.pageFlipsPending - 1 }

/-- The pending flips are forgotten. -/
def reactivate (σ : Hardware) : DrmBackend :=
  if s.active then s
  else
    { s with
      active := true
      pageFlipsPending := 0
      output := fun o =>
        if !σ.usesSoftwareCursor && !(s.output o).deleted then { s.output o with modesetRequested := true } else s.output o }

def activate (σ : Hardware) (active : Bool) : DrmBackend :=
  let s := { s with sessionActive := active }
  if active then s.reactivate σ else { s with active := false }

/-- All outputs that are there count as enabled ones afterwards. -/
def updateOutputs : DrmBackend :=
  { s with output := fun o => { s.output o with inEnabledOutputs := !(s.output o).deleted } }

def respond (σ : Hardware) : Event → Option DrmBackend
  | .paint o frame => do
    let painted ← (s.output o).paint s.sessionActive frame
    some { s.set o painted.1 with pageFlipsPending := if painted.2 then s.pageFlipsPending + 1 else s.pageFlipsPending }
  | .vblank o => some (s.set o { s.output o with device := (s.output o).device.vblank })
  | .pageFlip o test real =>
    if s.sessionActive && (s.output o).device.flipEvents ≠ 0 then
      let device := { (s.output o).device with flipEvents := (s.output o).device.flipEvents - 1 }
      (s.set o { s.output o with device }).atomicFlipHandler o test real
    else some s
  | .updateDpms o mode test real =>
    if σ.hasDpms o && (s.output o).enabled && !(s.output o).deleted then do
      let x ← (s.output o).updateDpms mode test real
      some (s.set o x)
    else some s
  | .setEnabled o enable test real => do
    let x ← (s.output o).setEnabled enable test real
    some (s.set o x)
  | .updateMode o modes modeIndex => some (s.set o ((s.output o).updateMode modes modeIndex))
  | .updateTransform o transform => some (s.set o ((s.output o).updateTransform (σ.supported o) transform))
  | .setGeometry o globalPos => some (s.set o { s.output o with globalPos })
  | .sessionActiveChanged active => some (s.activate σ active)
  | .disconnected o => do
    let x ← (s.output o).removed
    some (s.set o x).updateOutputs
  | .connected o mode => some (s.set o ((s.output o).connected mode)).updateOutputs

def step (σ : Hardware) (s : DrmBackend) (e : Event) : Option DrmBackend := s.respond σ e

/-- Outputs are switched and leave when their pictures are shown. Outputs come and go when all others are enabled. -/
def Fits : DrmBackend → Event → Prop
  | s, .setEnabled o enable _ _ =>
    (s.output o).deleted = false ∧ (s.output o).enabled ≠ enable ∧ (enable = false → (s.output o).pageFlipPending = false)
  | s, .disconnected o => (s.output o).deleted = false ∧ (s.output o).pageFlipPending = false ∧
      ∀ other, other ≠ o → (s.output other).deleted = false → (s.output other).enabled
  | s, .connected o _ => (s.output o).deleted ∧ ∀ other, (s.output other).deleted = false → (s.output other).enabled
  | _, _ => True

end DrmBackend
end KWinFT.Drm
