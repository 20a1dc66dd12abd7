import KWinFT.Geometry.QuickTile
import KWinFT.Lib.Runs

/-! Fullscreen. It shares the slot with maximization and tiling: entering keeps a valid slot, and
leaving takes the window back to its special mode, or else to the slot. -/
namespace KWinFT.Geometry
namespace Win
variable (env : Env) (cursor : Point) (w : Win)

def hasSpecialGeometryModeBesidesFullscreen : Bool :=
  w.maxMode ≠ .restore || w.quicktiling ≠ .none || w.moving

/-- `client_area.size() * 2 / 3.`, which rounds. -/
def twoThirds (n : Int) : Int := (4 * n + 3) / 6

def rectifyFullscreenRestoreGeometry : Rect :=
  if w.restoreMaximize.isValid then w.restoreMaximize
  else
    let area := w.clientArea env .placement
    let size := env.adjustedFrameSize w.decorated
      ⟨twoThirds area.width, twoThirds area.height⟩ .fixedHeight
    env.placeSmart (Rect.ofPointSize ⟨0, 0⟩ size) area

def fullscreenRestoreSpecialMode : Win :=
  if w.maxMode ≠ .restore then w.updateMaximized env cursor w.maxMode
  else if w.quicktiling ≠ .none then
    let untiled := w.setQuicktileMode env cursor .none false
    { untiled.setQuicktileMode env cursor w.quicktiling false with restoreMaximize := w.restoreMaximize }
  else w

/-- A Wayland client without a place to return to chooses its own size. -/
def fullscreenRestoreGeometry : Win :=
  let r := w.rectifyFullscreenRestoreGeometry env
  let r := match env.backend with
    | .x11 => r
    | .wayland => if w.restoreMaximize.isValid then r else r.setSize ⟨0, 0⟩
  { w.setFrameGeometry r with restoreMaximize := .null }

def updateFullscreenEnable : Win :=
  let w := w.storeRestoreGeometry w.frame
  w.setFrameGeometry (w.clientArea env .fullScreen)

def updateFullscreenDisable : Win :=
  if w.hasSpecialGeometryModeBesidesFullscreen then w.fullscreenRestoreSpecialMode env cursor
  else w.fullscreenRestoreGeometry env

def endMoveResize : Win := if w.moving then env.finishMoveResize w else w

def updateFullscreen (full user : Bool) : Win :=
  if w.fullscreen = full then w
  else if env.specialWindow then w
  else if user ∧ ¬ env.userCanSetFullScreen then w
  else
    let w := { w with fullscreen := full }
    let w := (w.endMoveResize env).updateDecoration env false
    if full then w.updateFullscreenEnable env else w.updateFullscreenDisable env cursor

end Win

inductive GeometryRequest
  | updateMaximized (mode : MaximizeMode)
  | setFrameGeometry (frame : Rect)
  | setQuicktileMode (mode : Quicktiles) (keyboard : Bool)
  | updateFullscreen (full user : Bool)
deriving Repr, DecidableEq

/-- A request, where the cursor is, and what is in effect when it has been handled. -/
structure GeometryCall where
  request : GeometryRequest
  cursor : Point
  synced : Synced
deriving Repr, DecidableEq

namespace Win
variable (env : Env)

/-- One call of the window's interface. A frame that is set directly or in effect is valid. -/
def geometryCall (w : Win) (c : GeometryCall) : Option Win :=
  if ¬ c.synced.frameGeometry.isValid then none
  else
    match c.request with
    | .updateMaximized mode => some ((w.updateMaximized env c.cursor mode).release env c.synced)
    | .setFrameGeometry frame =>
      if frame.isValid then some ((w.setFrameGeometry frame).release env c.synced) else none
    | .setQuicktileMode mode keyboard =>
      some ((w.setQuicktileMode env c.cursor mode keyboard).release env c.synced)
    | .updateFullscreen full user =>
      some ((w.updateFullscreen env c.cursor full user).release env c.synced)

/-- A window that has just been placed, with or without borders. -/
structure Fresh (w : Win) : Prop where
  maxMode : w.maxMode = .restore
  fullscreen : w.fullscreen = false
  quicktiling : w.quicktiling = .none
  electricMaximizing : w.electricMaximizing = false
  moving : w.moving = false
  pending : w.pending = false
  synced : w.synced.frameGeometry.isValid
  bordered : w.Bordered env

/-- The states of a window that is never moved interactively. -/
def Reachable (w : Win) : Prop :=
  ∃ w₀, Fresh env w₀ ∧ Lib.Reachable (geometryCall env) Lib.anyStep w₀ w

end Win
end KWinFT.Geometry
