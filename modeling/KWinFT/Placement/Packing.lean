import KWinFT.Lib.Nearest
import KWinFT.Placement.Windows

/-! Packing the active window against the next edge on its way, compared with its mirror image. -/
namespace KWinFT.Placement
open KWinFT.Geometry Areas

structure Layout where
  session : Session
  scr : Screens
  /-- The areas of the screens on the desktop of the window. -/
  screenarea : List Rect
  /-- `m_allClients`. -/
  clients : List Toplevel
  /-- The active window. -/
  window : Toplevel
  /-- Its `pending_frame_geometry`. -/
  pendingFrame : Rect
  margins : Margins
  movable : Bool
  /-- Its `maximizeMode` is not `restore`. -/
  maximized : Bool
  /-- `checkScreen` of its rules. -/
  checkScreen : Nat → Nat
  exists_screen : scr.geometries ≠ []

/-- What is called when the window has come to another screen, with its frame then. -/
structure Callees where
  /-- `send_to_screen`, to a screen that the window is not on. -/
  sendToScreen : Layout → Nat → Rect → Rect
  /-- `check_workspace_position` of a maximized window. -/
  checkWorkspacePosition : Layout → Rect → Rect

namespace Layout
variable (callees : Callees) (L : Layout)

/-- `clientArea` with `MaximizeArea` at a position. -/
def maximizeArea (p : Point) : Rect := L.screenarea.getD (L.scr.number p) (L.scr.geometry (L.scr.number p))

/-- `clientArea` with `MaximizeArea` of the window. -/
def movementArea : Rect := L.maximizeArea L.pendingFrame.center

def others : List Toplevel := L.window.relevant L.session L.clients

/-- The overlap tests of the loops, without a look at the other direction. -/
def apartX (other : Toplevel) : Prop :=
  L.window.frame.left > other.frame.right ∨ L.window.frame.right < other.frame.left

def apartY (other : Toplevel) : Prop :=
  L.window.frame.top > other.frame.bottom ∨ L.window.frame.bottom < other.frame.top

instance (other : Toplevel) : Decidable (L.apartX other) := inferInstanceAs (Decidable (_ ∨ _))
instance (other : Toplevel) : Decidable (L.apartY other) := inferInstanceAs (Decidable (_ ∨ _))

def packPositionLeft (oldX : Int) (leftEdge : Bool) : Int :=
  let newX := L.movementArea.left
  let newX := if oldX ≤ newX then
    (L.maximizeArea ⟨L.window.frame.left - 1, L.window.frame.center.y⟩).left else newX
  let right := newX - L.margins.left
  let newX := if L.scr.intersecting (L.window.frame.moveRight right) < 2 then right else newX
  if oldX ≤ newX then oldX else
    L.others.foldl (fun newX other =>
      let x := if leftEdge then other.frame.right + 1 else other.frame.left - 1
      if x > newX ∧ x < oldX ∧ ¬ L.apartY other then x else newX) newX

def packPositionRight (oldX : Int) (rightEdge : Bool) : Int :=
  let newX := L.movementArea.right
  let newX := if oldX ≥ newX then
    (L.maximizeArea ⟨L.window.frame.right + 1, L.window.frame.center.y⟩).right else newX
  let right := newX + L.margins.right
  let newX := if L.scr.intersecting (L.window.frame.moveRight right) < 2 then right else newX
  if oldX ≥ newX then oldX else
    L.others.foldl (fun newX other =>
      let x := if rightEdge then other.frame.left - 1 else other.frame.right + 1
      if x < newX ∧ x > oldX ∧ ¬ L.apartY other then x else newX) newX

/-- Without a look at the margins. -/
def packPositionUp (oldY : Int) (topEdge : Bool) : Int :=
  let newY := L.movementArea.top
  let newY := if oldY ≤ newY then
    (L.maximizeArea ⟨L.window.frame.center.x, L.window.frame.top - 1⟩).top else newY
  if oldY ≤ newY then oldY else
    L.others.foldl (fun newY other =>
      let y := if topEdge then other.frame.bottom + 1 else other.frame.top - 1
      if y > newY ∧ y < oldY ∧ ¬ L.apartX other then y else newY) newY

def packPositionDown (oldY : Int) (bottomEdge : Bool) : Int :=
  let newY := L.movementArea.bottom
  let newY := if oldY ≥ newY then
    (L.maximizeArea ⟨L.window.frame.center.x, L.window.frame.bottom + 1⟩).bottom else newY
  let bottom := newY + L.margins.bottom
  let newY := if L.scr.intersecting (L.window.frame.moveBottom bottom) < 2 then bottom else newY
  if oldY ≥ newY then oldY else
    L.others.foldl (fun newY other =>
      let y := if bottomEdge then other.frame.top - 1 else other.frame.bottom + 1
      if y < newY ∧ y > oldY ∧ ¬ L.apartX other then y else newY) newY

/-- `pack_to`: the frame with its corner there. On another screen a rule is looked at, and a maximized window fitted in
anew. -/
def packTo (left top : Int) : Rect :=
  let oldScreen := L.scr.number L.pendingFrame.center
  let frame := L.pendingFrame.moveTo ⟨left, top⟩
  let screen := L.scr.number frame.center
  if screen ≠ oldScreen then
    let newScreen := L.checkScreen screen
    let frame := if screen = newScreen then frame else callees.sendToScreen L newScreen frame
    if L.maximized then callees.checkWorkspacePosition L frame else frame
  else frame

def slotWindowPackLeft : Rect :=
  let pos := L.window.frame.topLeft
  if L.movable then L.packTo callees (L.packPositionLeft pos.x true) pos.y else L.window.frame

def slotWindowPackRight : Rect :=
  let pos := L.window.frame.topLeft
  let width := L.window.frame.width
  if L.movable then L.packTo callees (L.packPositionRight (pos.x + width) true - width + 1) pos.y
  else L.window.frame

def slotWindowPackUp : Rect :=
  let pos := L.window.frame.topLeft
  if L.movable then L.packTo callees pos.x (L.packPositionUp pos.y true) else L.window.frame

def slotWindowPackDown : Rect :=
  let pos := L.window.frame.topLeft
  let height := L.window.frame.height
  if L.movable then L.packTo callees pos.x (L.packPositionDown (pos.y + height) true - height + 1)
  else L.window.frame

end Layout

end KWinFT.Placement
