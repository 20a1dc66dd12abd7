import KWinFT.Geometry.Rect
import Mathlib.Data.Finset.Basic

/-! Outputs with atomic mode setting. Pictures are handed over to the device as buffers of a GBM surface, one at a time: the
device takes a commit and tells when its buffer is on the screen, and only then the buffer before it is deleted. A result of
`none` is an assertion that fails, a buffer that is deleted twice or used after, or an output that the compositor does not
have. -/
namespace KWinFT.Drm
open KWinFT.Geometry

/-- Identity of a buffer of the output's surface, and of its framebuffer on the device. -/
abbrev BufferId := Nat

inductive DpmsMode
  | on | standby | suspend | off
deriving DecidableEq

inductive Transform
  | normal | rotated90 | rotated180 | rotated270 | flipped | flipped90 | flipped180 | flipped270
deriving DecidableEq

inductive Transformation
  | rotate0 | rotate90 | rotate180 | rotate270
deriving DecidableEq

/-- The timings are one number. -/
structure Mode where
  hdisplay : Nat
  vdisplay : Nat
  timings : Nat := 0
deriving DecidableEq

/-- The properties of a commit: mode of the CRTC or that it is off, and framebuffer and rotation of the plane. -/
structure AtomicReq where
  crtc : Option (Option Mode) := none
  plane : Option (Option BufferId × Transformation) := none

/-- The output's part of the device. Events are read later. -/
structure Device where
  mode : Option Mode := none
  rotation : Transformation := .rotate0
  framebuffer : Option BufferId := none
  queued : Option BufferId := none
  flipEvents : Nat := 0
deriving DecidableEq

/-- What can go wrong with a commit. -/
structure Reply where
  allocated : Bool := true
  blobCreated : Bool := true
  modesetPopulated : Bool := true
  planesPopulated : Bool := true
  accepted : Bool := true

inductive AtomicCommitMode
  | test | real
deriving DecidableEq

structure DrmPlane where
  current : Option BufferId := none
  next : Option BufferId := none
  fbId : Option BufferId := none
  transformation : Transformation := .rotate0
deriving DecidableEq

structure WorkingState where
  mode : Mode
  transform : Transform
  planeTransformations : Transformation
  globalPos : Point
deriving DecidableEq

/-- `nextPlanesFlipList` is how often the primary plane is in the list, and `swapPending` that of the output in the compositor,
if it has one. `buffers` are those that are not deleted. -/
structure DrmOutput where
  deleted : Bool := true
  enabled : Bool := false
  inEnabledOutputs : Bool := false
  swapPending : Option Bool := none
  mode : Mode := ⟨0, 0, 0⟩
  transform : Transform := .normal
  globalPos : Point := ⟨0, 0⟩
  dpms : DpmsMode := .on
  dpmsModePending : DpmsMode := .on
  primaryPlane : DrmPlane := {}
  nextPlanesFlipList : Nat := 0
  pageFlipPending : Bool := false
  atomicOffPending : Bool := false
  modesetRequested : Bool := true
  lastWorkingState : Option WorkingState := none
  buffers : Finset BufferId := ∅
  created : Nat := 0
  device : Device := {}
deriving DecidableEq

namespace Device
variable (d : Device)

/-- A framebuffer that is removed is taken off the screen. -/
def rmFB (b : BufferId) : Device :=
  { d with
    framebuffer := if d.framebuffer = some b then none else d.framebuffer
    queued := if d.queued = some b then none else d.queued }

/-- With a page flip event the buffer is on the screen at the next vblank. -/
def commit (req : AtomicReq) (pageFlipEvent : Bool) : Device :=
  let d := req.crtc.elim d fun mode => { d with mode }
  req.plane.elim d fun plane =>
    if pageFlipEvent then { d with queued := plane.1, rotation := plane.2 }
    else { d with framebuffer := plane.1, rotation := plane.2 }

def vblank : Device :=
  match d.queued with
  | none => d
  | some b => { d with framebuffer := some b, queued := none, flipEvents := d.flipEvents + 1 }

end Device

def outputToPlaneTransform : Transform → Transformation
  | .normal | .flipped => .rotate0
  | .rotated90 | .flipped90 => .rotate90
  | .rotated180 | .flipped180 => .rotate180
  | .rotated270 | .flipped270 => .rotate270

def Transform.isPortrait : Transform → Bool
  | .rotated90 | .flipped90 | .rotated270 | .flipped270 => true
  | .normal | .flipped | .rotated180 | .flipped180 => false

namespace DrmOutput
variable (x : DrmOutput)

/-- `delete` of a buffer. -/
def delete : Option BufferId → Option DrmOutput
  | none => some x
  | some b => if b ∈ x.buffers then some { x with buffers := x.buffers.erase b, device := x.device.rmFB b } else none

def releaseGbm : Option DrmOutput :=
  match x.primaryPlane.current with
  | none => some x
  | some b => if b ∈ x.buffers then some x else none

def setNext (b : Option BufferId) : DrmOutput :=
  { x with primaryPlane := { x.primaryPlane with fbId := b, next := b } }

def setCurrent (b : Option BufferId) : DrmOutput := { x with primaryPlane := { x.primaryPlane with current := b } }

def flipBuffer : DrmOutput :=
  { x with primaryPlane := { x.primaryPlane with current := x.primaryPlane.next, next := none } }

def flipBufferWithDelete : Option DrmOutput := do
  let x ← (if x.primaryPlane.current ≠ x.primaryPlane.next then x.delete x.primaryPlane.current else some x)
  some x.flipBuffer

def flipBuffersWithDelete (x : DrmOutput) : Nat → Option DrmOutput
  | 0 => some x
  | n + 1 => x.flipBufferWithDelete >>= (flipBuffersWithDelete · n)

def dpmsSetOn : DrmOutput := { x with dpms := .on }

def dpmsFinishOff : Option DrmOutput :=
  if x.dpmsModePending = .on then none else some { x with dpms := x.dpmsModePending }

def errorHandler : Option DrmOutput := do
  let x ← (if x.dpms = x.dpmsModePending then some x
    else if x.dpms = .on then some { x with dpmsModePending := x.dpms }
    else { x with dpmsModePending := x.dpms }.dpmsFinishOff)
  some (if x.nextPlanesFlipList = 0 then x else { x.setNext none with nextPlanesFlipList := 0 })

/-- The buffers are given up when the output is switched off, be it for a test. -/
def atomicReqModesetPopulate (enable : Bool) : Option DrmOutput :=
  if enable then some x
  else do
    let x ← x.delete x.primaryPlane.current
    let x ← x.delete x.primaryPlane.next
    some ((x.setCurrent none).setNext none)

/-- What a commit asks the device for. -/
def atomicReq : AtomicReq where
  crtc := if x.modesetRequested then some (if x.dpmsModePending = .on then some x.mode else none) else none
  plane := if x.nextPlanesFlipList = 0 then none else some (x.primaryPlane.fbId, x.primaryPlane.transformation)

def doAtomicCommit (mode : AtomicCommitMode) (reply : Reply) : Option (DrmOutput × Bool) :=
  if !reply.allocated then x.errorHandler.map (·, false)
  else if x.modesetRequested && x.dpmsModePending = .on && !reply.blobCreated then x.errorHandler.map (·, false)
  else do
    let x ← (if x.modesetRequested then x.atomicReqModesetPopulate (x.dpmsModePending = .on) else some x)
    if x.modesetRequested && !reply.modesetPopulated then x.errorHandler.map (·, false)
    else if x.nextPlanesFlipList ≠ 0 && !reply.planesPopulated then x.errorHandler.map (·, false)
    else if !reply.accepted then x.errorHandler.map (·, false)
    else if mode = .test then some (x, true)
    else some ({ x with device := x.device.commit x.atomicReq (x.dpmsModePending = .on), modesetRequested := false }, true)

def dpmsAtomicOff (test real : Reply) : Option (DrmOutput × Bool) := do
  let x ← { x with atomicOffPending := false }.delete x.primaryPlane.next
  let x := x.setNext none
  let tested ← { x with nextPlanesFlipList := x.nextPlanesFlipList + 1 }.doAtomicCommit .test test
  if !tested.2 then some tested
  else do
    let done ← tested.1.doAtomicCommit .real real
    if !done.2 then some done
    else do
      let x ← { done.1 with nextPlanesFlipList := 0 }.dpmsFinishOff
      some (x, true)

/-- The output goes back to what worked before. -/
def restore : DrmOutput :=
  x.lastWorkingState.elim x fun last =>
    { x with
      mode := last.mode
      transform := last.transform
      globalPos := last.globalPos
      primaryPlane := { x.primaryPlane with transformation := last.planeTransformations }
      modesetRequested := true }

def storeWorkingState : DrmOutput :=
  { x with lastWorkingState := some ⟨x.mode, x.transform, x.primaryPlane.transformation, x.globalPos⟩ }

def presentAtomically (sessionActive : Bool) (b : BufferId) (test real : Reply) : Option (DrmOutput × Bool) :=
  if !sessionActive then some (x, false)
  else if x.pageFlipPending then some (x, false)
  else do
    let x := x.setNext b
    let tested ← { x with nextPlanesFlipList := x.nextPlanesFlipList + 1 }.doAtomicCommit .test test
    if !tested.2 then some (tested.1.restore, false)
    else do
      let done ← tested.1.doAtomicCommit .real real
      if !done.2 then some done
      else
        let x := if tested.1.modesetRequested then done.1.storeWorkingState else done.1
        some ({ x with pageFlipPending := true }, true)

def present (sessionActive : Bool) (b : BufferId) (test real : Reply) : Option (DrmOutput × Bool) :=
  if x.dpmsModePending ≠ .on then some (x, false) else x.presentAtomically sessionActive b test real

def dpmsAtomicOffWhenFlipped (test real : Reply) : Option DrmOutput :=
  if x.pageFlipPending then some x else (x.dpmsAtomicOff test real).map (·.1)

def dpmsAtomicOn : Option DrmOutput := do
  let x ← (if x.atomicOffPending then if x.pageFlipPending then some { x with atomicOffPending := false } else none
    else some x)
  some x.dpmsSetOn

def updateDpms (mode : DpmsMode) (test real : Reply) : Option DrmOutput :=
  if mode = x.dpmsModePending then some x
  else
    let x := { x with dpmsModePending := mode, modesetRequested := true }
    if mode = .on then x.dpmsAtomicOn else { x with atomicOffPending := true }.dpmsAtomicOffWhenFlipped test real

/-- The compositor gets an output, or loses it. -/
def enableOutput (enable : Bool) : Option DrmOutput :=
  if enable = x.inEnabledOutputs then none
  else if enable then some { x with inEnabledOutputs := true, swapPending := some (x.swapPending.getD false) }
  else { x with inEnabledOutputs := false, swapPending := none }.releaseGbm

def updateEnablement (enable : Bool) (test real : Reply) : Option DrmOutput :=
  if enable then do
    let x ← { x with dpmsModePending := .on, modesetRequested := true }.dpmsAtomicOn
    x.enableOutput true
  else do
    let x ← { x with dpmsModePending := .off, modesetRequested := true }.enableOutput false
    { x with atomicOffPending := true }.dpmsAtomicOffWhenFlipped test real

def setEnabled (enable : Bool) (test real : Reply) : Option DrmOutput :=
  { x with enabled := enable }.updateEnablement enable test real

/-- Portrait needs buffers that planes do not turn. -/
def updateTransform (hardware : Transformation → Bool) (transform : Transform) : DrmOutput :=
  let planeTransform := outputToPlaneTransform transform
  { x with
    transform
    primaryPlane := { x.primaryPlane with
      transformation := if hardware planeTransform && !transform.isPortrait then planeTransform else .rotate0 }
    modesetRequested := true }

/-- Of the connector's modes at the time. -/
def updateMode (modes : List Mode) (modeIndex : Nat) : DrmOutput :=
  modes[modeIndex]?.elim x fun mode => if mode = x.mode then x else { x with mode, modesetRequested := true }

def pageFlipped (test real : Reply) : Option DrmOutput :=
  if !x.pageFlipPending then none
  else
    let x := { x with pageFlipPending := false }
    if x.deleted then some x
    else if x.primaryPlane.next = none then x.releaseGbm
    else do
      let x ← x.flipBuffersWithDelete x.nextPlanesFlipList
      let x := { x with nextPlanesFlipList := 0 }
      if x.atomicOffPending then (x.dpmsAtomicOff test real).map (·.1) else some x

/-- Of the compositor. -/
def swapped : Option DrmOutput := x.swapPending.map fun _ => { x with swapPending := some false }

/-- The output is gone. -/
def teardown : Option DrmOutput := do
  let x ← x.delete x.primaryPlane.current
  some { x.setCurrent none with deleted := true }

/-- Another output is connected here; plane and device stay. -/
def connected (mode : Mode) : DrmOutput :=
  { deleted := false, enabled := true, inEnabledOutputs := true, swapPending := some false, mode,
    primaryPlane := x.primaryPlane, buffers := x.buffers, created := x.created, device := x.device }

end DrmOutput

end KWinFT.Drm
