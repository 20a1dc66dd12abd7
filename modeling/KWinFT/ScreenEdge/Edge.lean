import KWinFT.Geometry.Rect
import Mathlib.Data.List.Basic

/-! One edge of a screen. Several parties reserve it, and its swipe gesture is registered with the recognizer when the
edge is reserved and reacts to touches. -/
namespace KWinFT.ScreenEdge
open KWinFT.Geometry

inductive ElectricBorder
  | top | topRight | right | bottomRight | bottom | bottomLeft | left | topLeft | none
deriving Repr, DecidableEq

namespace ElectricBorder

def isTop (b : ElectricBorder) : Bool := b ∈ [top, topLeft, topRight]
def isBottom (b : ElectricBorder) : Bool := b ∈ [bottom, bottomLeft, bottomRight]
def isLeft (b : ElectricBorder) : Bool := b ∈ [left, topLeft, bottomLeft]
def isRight (b : ElectricBorder) : Bool := b ∈ [right, topRight, bottomRight]
def isCorner (b : ElectricBorder) : Bool := b ∈ [topLeft, topRight, bottomRight, bottomLeft]
def isScreenEdge (b : ElectricBorder) : Bool := b ∈ [left, right, top, bottom]

end ElectricBorder

inductive ElectricBorderAction
  | none | showDesktop | lockScreen | kRunner | activityManager | applicationLauncher
deriving Repr, DecidableEq

abbrev ObjectId := Nat
abbrev ActionId := Nat
abbrev WindowId := Nat

structure Edge where
  border : ElectricBorder
  geometry : Rect := .null
  action : ElectricBorderAction := .none
  touchAction : ElectricBorderAction := .none
  /-- Objects with the slots that are called. -/
  callBacks : List (ObjectId × String) := []
  touchActions : List ActionId := []
  client : Option WindowId := none
  reserved : Int := 0
  blocked : Bool := false
  /-- How often the gesture of the edge is registered. -/
  registered : Nat := 0
deriving Repr, DecidableEq

/-- The active window, as far as edges look at it. -/
structure ActiveClient where
  fullscreen : Bool
  frameGeometry : Rect
deriving Repr, DecidableEq

/-- `QRect::contains` of a point. -/
def rectContains (r : Rect) (p : Point) : Bool :=
  (Rect.span r.left r.right).1 ≤ p.x && p.x ≤ (Rect.span r.left r.right).2 &&
    (Rect.span r.top r.bottom).1 ≤ p.y && p.y ≤ (Rect.span r.top r.bottom).2

/-- `QRect::contains` of another rectangle. -/
def rectContainsRect (r s : Rect) : Bool :=
  !r.isNull && !s.isNull &&
    (Rect.span r.left r.right).1 ≤ (Rect.span s.left s.right).1 &&
    (Rect.span s.left s.right).2 ≤ (Rect.span r.left r.right).2 &&
    (Rect.span r.top r.bottom).1 ≤ (Rect.span s.top s.bottom).1 &&
    (Rect.span s.top s.bottom).2 ≤ (Rect.span r.top r.bottom).2

namespace Edge
variable (e : Edge)

def isReserved : Bool := e.reserved ≠ 0

def activatesForTouchGesture : Bool :=
  e.border.isScreenEdge && !e.blocked && (e.client.isSome || e.touchAction ≠ .none || !e.touchActions.isEmpty)

def registerGesture : Edge := { e with registered := e.registered + 1 }

def unregisterGesture : Edge := { e with registered := 0 }

/-- The slot of `activatesForTouchGestureChanged`. -/
def updateGesture : Edge :=
  if e.isReserved then if e.activatesForTouchGesture then e.registerGesture else e.unregisterGesture else e

/-- The signal is emitted when the edge starts or stops to react to touches. -/
def emitTouchChange (wasTouch : Bool) : Edge :=
  if wasTouch ≠ e.activatesForTouchGesture then e.updateGesture else e

def activate : Edge := if e.activatesForTouchGesture then e.registerGesture else e

def deactivate : Edge := e.unregisterGesture

def reserve : Edge :=
  let e := { e with reserved := e.reserved + 1 }
  if e.reserved = 1 then e.activate else e

def unreserve : Edge :=
  let e := { e with reserved := e.reserved - 1 }
  if e.reserved = 0 then e.deactivate else e

/-- The slot of an object that is there already is replaced. -/
def reserveObject (object : ObjectId) (slot : String) : Edge :=
  reserve { e with callBacks := e.callBacks.filter (·.1 ≠ object) ++ [(object, slot)] }

def unreserveObject (object : ObjectId) : Edge :=
  if e.callBacks.any (·.1 = object) then unreserve { e with callBacks := e.callBacks.filter (·.1 ≠ object) } else e

def reserveTouchCallBack (action : ActionId) : Edge :=
  if action ∈ e.touchActions then e else reserve { e with touchActions := e.touchActions ++ [action] }

def unreserveTouchCallBack (action : ActionId) : Edge :=
  if action ∈ e.touchActions then unreserve { e with touchActions := e.touchActions.erase action } else e

def setAction (action : ElectricBorderAction) : Edge := { e with action := action }

def setTouchAction (action : ElectricBorderAction) : Edge :=
  emitTouchChange { e with touchAction := action } e.activatesForTouchGesture

def setClient (window : Option WindowId) : Edge :=
  emitTouchChange { e with client := window } e.activatesForTouchGesture

/-- Edges under a fullscreen window are blocked, except for corners. -/
def checkBlocking (activeClient : Option ActiveClient) : Edge :=
  if e.border.isCorner then e
  else
    let newValue := activeClient.any fun c => c.fullscreen && rectContains c.frameGeometry e.geometry.center
    if newValue = e.blocked then e else emitTouchChange { e with blocked := newValue } e.activatesForTouchGesture

end Edge

end KWinFT.ScreenEdge
