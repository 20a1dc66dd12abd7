import KWinFT.Areas.PerDesktop

/-! What the placement of a window reads of the others and of the screens. -/
namespace KWinFT.Geometry.Rect
variable (r : Rect)

def contains (p : Point) : Bool :=
  (span r.left r.right).1 ≤ p.x ∧ p.x ≤ (span r.left r.right).2 ∧ (span r.top r.bottom).1 ≤ p.y ∧
    p.y ≤ (span r.top r.bottom).2

def moveCenter (p : Point) : Rect :=
  ⟨p.x - (r.right - r.left).tdiv 2, p.y - (r.bottom - r.top).tdiv 2,
    p.x - (r.right - r.left).tdiv 2 + (r.right - r.left), p.y - (r.bottom - r.top).tdiv 2 + (r.bottom - r.top)⟩

end KWinFT.Geometry.Rect

namespace KWinFT.Areas.Screens
open KWinFT.Geometry

def manhattanLength (p q : Point) : Nat := (p.x - q.x).natAbs + (p.y - q.y).natAbs

/-- The distance to the nearest corner. -/
def distance (geo : Rect) (pos : Point) : Nat :=
  min (min (min (manhattanLength ⟨geo.left, geo.top⟩ pos) (manhattanLength ⟨geo.right, geo.top⟩ pos))
    (manhattanLength ⟨geo.right, geo.bottom⟩ pos)) (manhattanLength ⟨geo.left, geo.bottom⟩ pos)

/-- The loop of `number`, at screen `i` with the best one so far. -/
def numberFrom (pos : Point) : List Rect → Nat → Nat → Nat → Nat
  | [], _, bestScreen, _ => bestScreen
  | geo :: rest, i, bestScreen, minDistance =>
    if geo.contains pos then i
    else if distance geo pos < minDistance then numberFrom pos rest (i + 1) i (distance geo pos)
    else numberFrom pos rest (i + 1) bestScreen minDistance

variable (scr : Screens)

/-- The screen at a position, or else the nearest one. -/
def number (pos : Point) : Nat := numberFrom pos scr.geometries 0 0 2147483647

def intersecting (r : Rect) : Nat := scr.geometries.countP (·.intersects r)

end KWinFT.Areas.Screens

namespace KWinFT.Placement
open KWinFT.Geometry Areas

structure Toplevel where
  id : Nat
  /-- `geometry_update.frame`. -/
  frame : Rect
  control : Bool := true
  shown : Bool := true
  /-- Numbers of its desktops, none for all. -/
  desktops : List Nat := []
  onCurrentActivity : Bool := true
  isDesktop : Bool := false
  isDock : Bool := false
  keepAbove : Bool := false
  keepBelow : Bool := false
deriving Repr, DecidableEq

/-- Of the session: whether it is a Wayland one, and the current desktop. -/
structure Session where
  waylandMode : Bool
  current : Nat
deriving Repr, DecidableEq

namespace Toplevel
variable (session : Session) (window : Toplevel)

/-- The desktop on which others matter to the window. -/
def desktop : Nat :=
  if desktopOf window.desktops = 0 ∨ window.desktops = [] then session.current else lastDesktop window.desktops

def isIrrelevant (regarding : Toplevel) (desktop : Nat) : Bool :=
  !window.control || window.id = regarding.id || !window.shown ||
    !decide (isOnDesktop session.waylandMode window.desktops desktop) || !window.onCurrentActivity || window.isDesktop

/-- Those of the windows that are relevant to the given one. -/
def relevant (windows : List Toplevel) : List Toplevel :=
  windows.filter fun other => !other.isIrrelevant session window (window.desktop session)

end Toplevel

end KWinFT.Placement
