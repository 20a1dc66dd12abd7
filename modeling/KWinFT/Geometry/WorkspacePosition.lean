import KWinFT.Geometry.QuickTile
import KWinFT.Placement.WorkspacePosition

/-! The check of a window's position for any mode of the window. Only a restored one without tiling is put back by its
sides; what the surroundings of the geometry code leave open is filled in with it here. -/
namespace KWinFT.Geometry

/-- What the check reads besides the window, with struts and screens that have not just changed. -/
structure Workarea where
  screenArea : Point → Rect
  restrictedMoveArea : Placement.MoveAreas
  intersecting : Rect → Nat
  cursor : Point

namespace Win
variable (env : Env) (area : Workarea) (w : Win)

def frameMargins : Margins := if w.decorated then env.borders else ⟨0, 0, 0, 0⟩

/-- A restored window without tiling, and the frame and client geometry it had. -/
def positionCheck (oldFrame oldClient : Rect) : Placement.PositionCheck where
  border := w.frameMargins env
  oldFrameGeo := oldFrame
  oldClientGeo := oldClient
  frame := w.pendingFrameGeometry
  oldScreenArea := area.screenArea (if oldFrame.isValid then oldFrame else w.pendingFrameGeometry).center
  screenArea := area.screenArea w.pendingFrameGeometry.center
  oldStruts := area.restrictedMoveArea
  struts := area.restrictedMoveArea
  intersecting := area.intersecting

/-- `check_workspace_position`, the frame that it sets. -/
def checkWorkspacePosition (oldFrame oldClient : Rect) : Rect :=
  if w.fullscreen then w.clientArea env .fullScreen
  else if w.synced.maxMode ≠ .restore then
    let w := w.updateMaximized env area.cursor w.maxMode
    Placement.checkOffscreenPosition w.pendingFrameGeometry (area.screenArea w.pendingFrameGeometry.center)
  else if w.quicktiling ≠ .none then w.electricBorderMaximizeGeometry env w.pendingFrameGeometry.center
  else
    let frame := (w.positionCheck env area oldFrame oldClient).checked
    frame.setSize (env.adjustedFrameSize w.decorated frame.size .any)

end Win

/-- The surroundings with the check of the code. A check inside it is left to the given surroundings. -/
def Env.withWorkarea (env : Env) (area : Workarea) : Env :=
  { env with checkWorkspacePosition := Win.checkWorkspacePosition env area }

end KWinFT.Geometry
