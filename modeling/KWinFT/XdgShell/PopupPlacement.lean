import KWinFT.Geometry.Rect
import KWinFT.Lib.Int32

/-! Where a popup goes: beside its anchor, and if it is not inside the bounds there, adjusted in each direction as far as its
positioner allows it. A positioner's numbers are what the client sends, and the sums of them may not fit; then there is no
place. -/
namespace KWinFT.XdgShell
open KWinFT.Geometry Lib

/-- `Qt::Edges`. -/
structure Edges where
  left : Bool
  right : Bool
  top : Bool
  bottom : Bool
deriving Repr, DecidableEq

namespace Edges

def horizontal : Edges := ⟨true, true, false, false⟩
def vertical : Edges := ⟨false, false, true, true⟩
def all : Edges := ⟨true, true, true, true⟩

variable (e : Edges)

/-- Both flags of a direction are changed if one of them is set. -/
def flippedX : Edges := if e.left ∨ e.right then { e with left := !e.left, right := !e.right } else e
def flippedY : Edges := if e.top ∨ e.bottom then { e with top := !e.top, bottom := !e.bottom } else e

end Edges

structure ConstraintAdjustments where
  flipX : Bool
  flipY : Bool
  slideX : Bool
  slideY : Bool
  resizeX : Bool
  resizeY : Bool
deriving Repr, DecidableEq

/-- A popup with its positioner. A size that is not positive is an error of the protocol. -/
structure Popup where
  leadPos : Point
  leadBorders : Margins
  anchorRect : Rect
  anchorEdge : Edges
  gravity : Edges
  anchorOffset : Point
  adjustments : ConstraintAdjustments
  /-- `geometry_update.frame`. -/
  frame : Rect
  initialSize : Size
  frame_fits : IsInt frame.width ∧ IsInt frame.height
  initialSize_pos : 0 < initialSize.width ∧ 0 < initialSize.height

/-- `qRound(n / 2.0)`: halves go up, also below zero. -/
def roundedHalf (n : Int) : Int := (n + 1) / 2

/-- Where an edge leads along a side, or its middle for none or both. -/
def alongSide (low high : Bool) (first last : Int) : Option Int :=
  if low && !high then some first
  else do
    let length ← sumFrom last [-first, 1]
    if high && !low then int (first + length) else int (roundedHalf (2 * first + length))

/-- How far a popup of some length is moved for a gravity. -/
def gravityAdjust (low high : Bool) (length : Int) : Int :=
  if low && !high then -length else if high && !low then 0 else roundedHalf (-length)

def getAnchor (rect : Rect) (edge gravity : Edges) (size : Size) : Option Point := do
  let x ← alongSide edge.left edge.right rect.left rect.right
  let y ← alongSide edge.top edge.bottom rect.top rect.bottom
  let x ← int (x + gravityAdjust gravity.left gravity.right size.width)
  let y ← int (y + gravityAdjust gravity.top gravity.bottom size.height)
  some ⟨x, y⟩

/-- `QRect(pos, size)`. -/
def placed (pos : Point) (size : Size) : Option Rect := do
  let right ← sumFrom pos.x [size.width, -1]
  let bottom ← sumFrom pos.y [size.height, -1]
  some ⟨pos.x, pos.y, right, bottom⟩

/-- The other end of a side when one of its ends is moved. -/
def movedAlong (old new other : Int) : Option Int := int (new - old) >>= fun distance => int (other + distance)

def moveLeft (r : Rect) (x : Int) : Option Rect := (movedAlong r.left x r.right).map fun right => { r with left := x, right }
def moveRight (r : Rect) (x : Int) : Option Rect := (movedAlong r.right x r.left).map fun left => { r with left, right := x }
def moveTop (r : Rect) (y : Int) : Option Rect := (movedAlong r.top y r.bottom).map fun bottom => { r with top := y, bottom }
def moveBottom (r : Rect) (y : Int) : Option Rect := (movedAlong r.bottom y r.top).map fun top => { r with top, bottom := y }

/-- The sides of a target that are asked for do not go over the bounds. -/
def inBounds (bounds target : Rect) (edges : Edges) : Bool :=
  !(edges.left && target.left < bounds.left) && !(edges.top && target.top < bounds.top) &&
    !(edges.right && bounds.right < target.right) && !(edges.bottom && bounds.bottom < target.bottom)

namespace Popup
variable (win : Popup) (bounds place : Rect)

def size : Size := if win.frame.isValid then win.frame.size else win.initialSize

def parentPos : Option Point := do
  let x ← int (win.leadPos.x + win.leadBorders.left)
  let y ← int (win.leadPos.y + win.leadBorders.top)
  some ⟨x, y⟩

/-- The place for an edge and a gravity. -/
def placeAt (edge gravity : Edges) : Option Rect := do
  let anchor ← getAnchor win.anchorRect edge gravity win.size
  let parentPos ← win.parentPos
  let x ← sumFrom anchor.x [win.anchorOffset.x, parentPos.x]
  let y ← sumFrom anchor.y [win.anchorOffset.y, parentPos.y]
  placed ⟨x, y⟩ win.size

def unadjusted : Option Rect := win.placeAt win.anchorEdge win.gravity

def flipX : Option Rect :=
  if win.adjustments.flipX && !inBounds bounds place .horizontal then do
    let flippedPlace ← win.placeAt win.anchorEdge.flippedX win.gravity.flippedX
    if inBounds bounds flippedPlace .horizontal then moveLeft place flippedPlace.left else some place
  else some place

def slideX : Option Rect :=
  if win.adjustments.slideX then do
    let place ← (if !inBounds bounds place ⟨true, false, false, false⟩ then moveLeft place bounds.left else some place)
    if !inBounds bounds place ⟨false, true, false, false⟩ then moveRight place bounds.right else some place
  else some place

def resizeX : Rect :=
  if win.adjustments.resizeX then
    let unconstrained := place
    let unconstrained := if !inBounds bounds unconstrained ⟨true, false, false, false⟩ then
      unconstrained.setLeft bounds.left else unconstrained
    let unconstrained := if !inBounds bounds unconstrained ⟨false, true, false, false⟩ then
      unconstrained.setRight bounds.right else unconstrained
    if unconstrained.isValid then unconstrained else place
  else place

def flipY : Option Rect :=
  if win.adjustments.flipY && !inBounds bounds place .vertical then do
    let flippedPlace ← win.placeAt win.anchorEdge.flippedY win.gravity.flippedY
    if inBounds bounds flippedPlace .vertical then moveTop place flippedPlace.top else some place
  else some place

def slideY : Option Rect :=
  if win.adjustments.slideY then do
    let place ← (if !inBounds bounds place ⟨false, false, true, false⟩ then moveTop place bounds.top else some place)
    if !inBounds bounds place ⟨false, false, false, true⟩ then moveBottom place bounds.bottom else some place
  else some place

def resizeY : Rect :=
  if win.adjustments.resizeY then
    let unconstrained := place
    let unconstrained := if !inBounds bounds unconstrained ⟨false, false, true, false⟩ then
      unconstrained.setTop bounds.top else unconstrained
    let unconstrained := if !inBounds bounds unconstrained ⟨false, false, false, true⟩ then
      unconstrained.setBottom bounds.bottom else unconstrained
    if unconstrained.isValid then unconstrained else place
  else place

def popupPlacement : Option Rect := do
  let place ← win.unadjusted
  if inBounds bounds place .all then some place
  else do
    let place ← win.flipX bounds place
    let place ← win.slideX bounds place
    let place ← win.flipY bounds (win.resizeX bounds place)
    let place ← win.slideY bounds place
    some (win.resizeY bounds place)

end Popup
end KWinFT.XdgShell
