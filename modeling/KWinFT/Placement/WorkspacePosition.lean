import KWinFT.Placement.Windows

/-! The check of a window's position after areas, screens or borders have changed: sides that were inside the bounds of the
screen or touched them are put back there. -/
namespace KWinFT.Placement
open KWinFT.Geometry

/-- How far the sides of a window may go: to the first pixel inside, and to the first one outside. -/
structure Bounds where
  left : Int
  top : Int
  right : Int
  bottom : Int
deriving Repr, DecidableEq

/-- `restrictedMoveArea` of a desktop by the sides of the screen. -/
structure MoveAreas where
  left : List Rect
  top : List Rect
  right : List Rect
  bottom : List Rect
deriving Repr, DecidableEq

/-- The bounds that the screen and the struts beside the window leave. -/
def boundsFor (area frame : Rect) (struts : MoveAreas) : Bounds :=
  let tall := Rect.ofPointSize ⟨frame.left, area.top⟩ ⟨frame.width, area.height⟩
  let wide := Rect.ofPointSize ⟨area.left, frame.top⟩ ⟨area.width, frame.height⟩
  { left := struts.left.foldl (fun leftMax r =>
      let rect := r.intersected wide
      if rect.isEmpty then leftMax else max leftMax (rect.left + rect.width)) area.left
    top := struts.top.foldl (fun topMax r =>
      let rect := r.intersected tall
      if rect.isEmpty then topMax else max topMax (rect.top + rect.height)) area.top
    right := struts.right.foldl (fun rightMax r =>
      let rect := r.intersected wide
      if rect.isEmpty then rightMax else min rightMax rect.left) (area.left + area.width)
    bottom := struts.bottom.foldl (fun bottomMax r =>
      let rect := r.intersected tall
      if rect.isEmpty then bottomMax else min bottomMax rect.top) (area.top + area.height) }

/-- A restored window without tiling, with what its check is given and reads. -/
structure PositionCheck where
  border : Margins
  oldFrameGeo : Rect
  oldClientGeo : Rect
  /-- `pending_frame_geometry`. -/
  frame : Rect
  oldScreenArea : Rect
  screenArea : Rect
  oldStruts : MoveAreas
  struts : MoveAreas
  /-- `screens()->intersecting`. -/
  intersecting : Rect → Nat

/-- A value for each side. -/
structure Sides (α : Type) where
  left : α
  top : α
  right : α
  bottom : α
deriving Repr, DecidableEq

def checkOffscreenPosition (frame screenArea : Rect) : Rect :=
  let frame := if frame.left > screenArea.right then frame.moveLeft (screenArea.right - screenArea.width.tdiv 4)
    else if frame.right < screenArea.left then frame.moveRight (screenArea.left + screenArea.width.tdiv 4)
    else frame
  if frame.top > screenArea.bottom then frame.moveTop (screenArea.bottom - screenArea.height.tdiv 4)
  else if frame.bottom < screenArea.top then frame.moveBottom (screenArea.top + screenArea.width.tdiv 4)
  else frame

namespace PositionCheck
variable (c : PositionCheck)

def oldFrame : Rect := if c.oldFrameGeo.isValid then c.oldFrameGeo else c.frame

def oldClient : Rect := if c.oldClientGeo.isValid then c.oldClientGeo else c.oldFrame.subMargins c.border

def client : Rect := c.frame.subMargins c.border

def oldMax : Bounds := boundsFor c.oldScreenArea c.oldFrame c.oldStruts

def newMax : Bounds := boundsFor c.screenArea c.frame c.struts

/-- Sides that were inside and are not any more. -/
def save : Sides Bool where
  left := c.oldFrame.left ≥ c.oldMax.left && c.frame.left < c.newMax.left
  top := c.oldFrame.top ≥ c.oldMax.top && c.frame.top < c.newMax.top
  right := c.oldFrame.right ≤ c.oldMax.right - 1 && c.frame.right > c.newMax.right - 1
  bottom := c.oldFrame.bottom ≤ c.oldMax.bottom - 1 && c.frame.bottom > c.newMax.bottom - 1

/-- A side that touched its bound with the frame or with the client, and whether it is to be put back with a padding. -/
def touched (oldSide oldClientSide oldBound side clientSide bound padding : Int) : Bool × Int :=
  if oldSide = oldBound then (side ≠ bound, 0)
  else if oldClientSide = oldBound ∧ clientSide ≠ bound then (true, padding)
  else (false, 0)

/-- The padding of the upper side is the left border in the source. -/
def touches : Sides (Bool × Int) where
  left := touched c.oldFrame.left c.oldClient.left c.oldMax.left c.frame.left c.client.left c.newMax.left c.border.left
  top := touched c.oldFrame.top c.oldClient.top c.oldMax.top c.frame.top c.client.top c.newMax.top c.border.left
  right := touched c.oldFrame.right c.oldClient.right (c.oldMax.right - 1) c.frame.right c.client.right
    (c.newMax.right - 1) c.border.right
  bottom := touched c.oldFrame.bottom c.oldClient.bottom (c.oldMax.bottom - 1) c.frame.bottom c.client.bottom
    (c.newMax.bottom - 1) c.border.bottom

/-- Opposite sides are not favoured over each other. -/
def keep : Sides (Bool × Int) :=
  let t := c.touches
  let horizontal := t.left.1 && t.right.1
  let vertical := t.top.1 && t.bottom.1
  ⟨if horizontal then (false, 0) else t.left, if vertical then (false, 0) else t.top,
    if horizontal then (false, 0) else t.right, if vertical then (false, 0) else t.bottom⟩

def toLeft (f : Rect) : Rect :=
  if c.save.left || c.keep.left.1 then f.moveLeft (max c.newMax.left c.screenArea.left - c.keep.left.2) else f

def backFromLeft (f : Rect) : Rect :=
  if c.keep.left.2 ≠ 0 ∧ c.intersecting f > 1 then f.moveLeft (f.left + c.keep.left.2) else f

def toTop (f : Rect) : Rect :=
  if c.save.top || c.keep.top.1 then f.moveTop (max c.newMax.top c.screenArea.top - c.keep.top.2) else f

def backFromTop (f : Rect) : Rect :=
  if c.keep.top.2 ≠ 0 ∧ c.intersecting f > 1 then f.moveTop (f.top + c.keep.top.2) else f

def toRight (f : Rect) : Rect :=
  if c.save.right || c.keep.right.1 then
    f.moveRight (min (c.newMax.right - 1) c.screenArea.right + c.keep.right.2) else f

def backFromRight (f : Rect) : Rect :=
  if c.keep.right.2 ≠ 0 ∧ c.intersecting f > 1 then f.moveRight (f.right - c.keep.right.2) else f

/-- The client is to be inside, with the border outside. -/
def clientToLeft (f : Rect) : Rect := f.setLeft (max c.newMax.left c.screenArea.left - c.border.left)

def narrowLeft (f : Rect) : Rect :=
  if c.oldFrame.left ≥ c.oldMax.left ∧ f.left < c.newMax.left then f.setLeft (max c.newMax.left c.screenArea.left)
  else if c.oldClient.left ≥ c.oldMax.left ∧ f.left + c.border.left < c.newMax.left then
    let f := c.clientToLeft f
    if c.intersecting f > 1 then f.setLeft (f.left + c.border.left) else f
  else f

def toBottom (f : Rect) : Rect :=
  if c.save.bottom || c.keep.bottom.1 then
    f.moveBottom (min (c.newMax.bottom - 1) c.screenArea.bottom + c.keep.bottom.2) else f

def backFromBottom (f : Rect) : Rect :=
  if c.keep.bottom.2 ≠ 0 ∧ c.intersecting f > 1 then f.moveBottom (f.bottom - c.keep.bottom.2) else f

def clientToTop (f : Rect) : Rect := f.setTop (max c.newMax.top c.screenArea.top - c.border.top)

def narrowTop (f : Rect) : Rect :=
  if c.oldFrame.top ≥ c.oldMax.top ∧ f.top < c.newMax.top then f.setTop (max c.newMax.top c.screenArea.top)
  else if c.oldClient.top ≥ c.oldMax.top ∧ f.top + c.border.top < c.newMax.top then
    let f := c.clientToTop f
    if c.intersecting f > 1 then f.setTop (f.top + c.border.top) else f
  else f

/-- The frame as it is when the screens are asked for, one after the other. -/
def atLeft : Rect := c.toLeft c.frame
def atTop : Rect := c.toTop (c.backFromLeft c.atLeft)
def atRight : Rect := c.toRight (c.backFromTop c.atTop)
def besideRight : Rect := c.backFromRight c.atRight
def atBottom : Rect := c.toBottom (c.narrowLeft c.besideRight)
def besideBottom : Rect := c.backFromBottom c.atBottom

/-- The frame with its sides put back. -/
def corrected : Rect := c.narrowTop c.besideBottom

/-- The frame that the check comes to, before size hints. -/
def checked : Rect := checkOffscreenPosition c.corrected c.screenArea

end PositionCheck
end KWinFT.Placement
