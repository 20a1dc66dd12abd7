import KWinFT.Scene.Repaints
import KWinFT.Lib.Runs
import Mathlib.Logic.Function.Basic

/-! Outputs are painted one by one, each when its own timer fires. The repaints of a window wait with the window, and those of
the screen with each output. Only one output is woken up for a window at times, which then tells the others. -/
namespace KWinFT.Render
open KWinFT.Geometry Scene

/-- The outputs and the windows do not move. `hasSwapEvent` is what the scene says. -/
structure Setting where
  outputs : List OutputId
  geometry : OutputId → Rect
  /-- In millihertz. -/
  refreshRate : OutputId → Int
  hasSwapEvent : Bool
  /-- From the origin to the size of the screens. -/
  screens : Region
  pos : Nat → Point
  renderGeometry : Nat → Rect
  visibleRect : Nat → Rect
  isX11 : Nat → Bool

def Setting.placed (σ : Setting) (w : Nat) : Placed := ⟨σ.outputs, σ.geometry, σ.pos w, σ.renderGeometry w, true⟩

/-- The timer has its interval in milliseconds. -/
structure Output where
  delay : Int
  lastPaintDurations : Int × Int := (0, 0)
  paintPeriods : Nat := 0
  repaintsRegion : Region := ∅
  idle : Bool := true
  swapPending : Bool := false
  delayTimer : Option Nat := none

namespace Output
variable (x : Output)

/-- As an unsigned number of 32 bits. -/
def waitTime : Nat := ((x.delay.tdiv 1000).tdiv 1000 % 2 ^ 32).toNat

/-- Forces 4 frames per second at least. -/
def setDelayTimer : Output :=
  if x.delayTimer.isSome || x.swapPending then x else { x with delayTimer := some (min x.waitTime 250) }

def addRepaint (geometry : Rect) (region : Region) : Output :=
  let cappedRegion := region ∩ rectRegion geometry
  if cappedRegion = ∅ then x else { x with repaintsRegion := x.repaintsRegion ∪ cappedRegion }.setDelayTimer

/-- The maximum over the last 100 frames is kept. -/
def updatePaintPeriods (duration : Int) : Output :=
  let longest := if x.lastPaintDurations.2 < duration then duration else x.lastPaintDurations.2
  if x.paintPeriods + 1 = 100 then { x with lastPaintDurations := (longest, 0), paintPeriods := 0 }
  else { x with lastPaintDurations := (x.lastPaintDurations.1, longest), paintPeriods := x.paintPeriods + 1 }

def refreshLength (refreshRate : Int) : Int := (1000 * 1000 : Int).tdiv refreshRate

def retardNextRun (hasSwapEvent : Bool) (refreshRate : Int) : Output :=
  if hasSwapEvent then x else { x with delay := refreshLength refreshRate }.setDelayTimer

/-- The next paint is delayed until shortly before the next vblank. -/
def swapped (refreshRate : Int) : Output :=
  if x.swapPending then
    let refresh := refreshLength refreshRate
    let paintMargin := if x.lastPaintDurations.2 < x.lastPaintDurations.1 then x.lastPaintDurations.1
      else x.lastPaintDurations.2
    { x with
      swapPending := false
      delay := max (refresh - refresh.tdiv 10 - paintMargin) 0
      delayTimer := none }.setDelayTimer
  else x

end Output

/-- All windows are in the list, from the bottom to the top. -/
structure Compositor where
  outputsOn : Bool := true
  output : OutputId → Output
  windows : List Nat := []
  repaints : Nat → PendingRepaints := fun _ => {}
  readyForPainting : Nat → Bool := fun _ => false

inductive Request
  /-- Of the compositor, for the screen. -/
  | screen (region : Region)
  /-- Of a window; not `resetRepaints`. -/
  | window (w : Nat) (e : RepaintEvent)
  /-- `addRepaintFull` of a window. Those annexed to it have requests of their own. -/
  | windowFull (w : Nat)

/-- What effects ask for while an output is painted: before the windows, after each window was prepared, and at last. -/
structure Paint where
  before : List Request := []
  during : Nat → List Request := fun _ => []
  after : List Request := []
  duration : Int := 0
  /-- The picture is handed over to the device. -/
  presented : Bool := true

section compositor
variable (σ : Setting)

namespace Compositor
variable (s : Compositor)

def modify (o : OutputId) (f : Output → Output) : Compositor :=
  { s with output := Function.update s.output o (f (s.output o)) }

def addRepaint (region : Region) : Compositor :=
  σ.outputs.foldl (fun s o => s.modify o (Output.addRepaint · (σ.geometry o) region)) s

/-- Of the outputs that the window is seen on. -/
def scheduleRepaint (w : Nat) : Compositor :=
  if s.outputsOn then
    σ.outputs.foldl (fun s o =>
      if rectRegion (σ.visibleRect w) ∩ rectRegion (σ.geometry o) ≠ ∅ then s.modify o Output.setDelayTimer else s) s
  else s

/-- The repaints of the window are replaced, but those of its layer. -/
def addRepaintFull (w : Nat) : PendingRepaints :=
  let region := rectRegion (σ.visibleRect w)
  { s.repaints w with repaintsRegion := Region.translated region ⟨-(σ.pos w).x, -(σ.pos w).y⟩ }.addRepaintOutputs
    (σ.placed w) region

def request : Request → Compositor
  | .screen region => s.addRepaint σ region
  | .window w e =>
    { s with repaints := Function.update s.repaints w ((s.repaints w).step (σ.placed w) e) }.scheduleRepaint σ w
  | .windowFull w => { s with repaints := Function.update s.repaints w (s.addRepaintFull σ w) }.scheduleRepaint σ w

/-- Wayland and internal windows have none before they are ready. -/
def hasPendingRepaints (w : Nat) : Bool :=
  (σ.isX11 w || s.readyForPainting w) && (s.repaints w).repaints (σ.placed w) ≠ ∅

/-- Of a window that this output shows the repaints of, the other outputs are told. -/
def tellOthers (o : OutputId) (w : Nat) : Compositor :=
  if s.hasPendingRepaints σ w then
    let windowRepaint := (s.repaints w).repaints (σ.placed w)
    if windowRepaint ∩ rectRegion (σ.geometry o) = ∅ then s
    else
      (σ.outputs.filter (· ≠ o)).foldl (fun s other =>
        let cappedRegion := windowRepaint ∩ rectRegion (σ.geometry other)
        if cappedRegion = ∅ then s else s.modify other (Output.addRepaint · (σ.geometry other) cappedRegion)) s
  else s

def hasWindowRepaints (o : OutputId) : Bool :=
  s.windows.any fun w =>
    s.hasPendingRepaints σ w && (s.repaints w).repaints (σ.placed w) ∩ rectRegion (σ.geometry o) ≠ ∅

/-- The picture is composed anew when a window or the output itself has repaints. -/
def prepareRun (o : OutputId) : Bool × Compositor :=
  let s := s.modify o ({ · with delayTimer := none })
  if (s.output o).swapPending then (false, s)
  else if !s.outputsOn then (false, s)
  else
    let hasWindowRepaints := s.hasWindowRepaints σ o
    let s := s.windows.foldl (tellOthers σ · o ·) s
    if (s.output o).repaintsRegion = ∅ ∧ !hasWindowRepaints then
      (false, s.modify o ({ · with idle := true, delay := 0 }))
    else (true, s.modify o ({ · with idle := false, repaintsRegion := ∅ }))

/-- A window has its repaints reset when it is prepared, so that effects can ask for the next frame. -/
def prepareWindow (o : OutputId) (during : Nat → List Request) (w : Nat) : Compositor :=
  (during w).foldl (request σ)
    { s with repaints := Function.update s.repaints w ((s.repaints w).resetRepaints (σ.placed w) o) }

def paint (o : OutputId) (p : Paint) : Compositor :=
  let s := p.before.foldl (request σ) s
  let s := (s.windows.filter s.readyForPainting).foldl (prepareWindow σ · o p.during ·) s
  let s := p.after.foldl (request σ) s
  if p.presented then s.modify o ({ · with swapPending := true }) else s

def run (o : OutputId) (p : Paint) : Compositor :=
  let (prepared, s) := s.prepareRun σ o
  if prepared then
    (s.paint σ o p).modify o fun x =>
      (x.updatePaintPeriods p.duration).retardNextRun σ.hasSwapEvent (σ.refreshRate o)
  else s

end Compositor

/-- Outputs that are all on again are repainted. -/
inductive Event
  | request (r : Request)
  | run (o : OutputId) (p : Paint)
  | swapped (o : OutputId)
  | outputsOff
  | outputsOn
  | restack (windows : List Nat)
  | setReadyForPainting (w : Nat)

def Compositor.respond (s : Compositor) : Event → Compositor
  | .request r => s.request σ r
  | .run o p => s.run σ o p
  | .swapped o => s.modify o (Output.swapped · (σ.refreshRate o))
  | .outputsOff => { s with outputsOn := false }
  | .outputsOn => { s with outputsOn := true }.addRepaint σ σ.screens
  | .restack windows => { s with windows }
  | .setReadyForPainting w =>
    if s.readyForPainting w then s
    else { s with readyForPainting := Function.update s.readyForPainting w true }.request σ (.windowFull w)

def step (s : Compositor) (e : Event) : Option Compositor := some (s.respond σ e)

end compositor

end KWinFT.Render
