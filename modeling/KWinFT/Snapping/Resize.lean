import KWinFT.Snapping.Move

/-! Snapping of the edges of a window that is resized. An edge that was moved is the one that later candidates are
compared with. -/
namespace KWinFT.Snapping
open KWinFT.Geometry Areas Placement

/-- What an axis is left with: its edges as they are so far and the distance to beat. -/
structure Span where
  /-- `newcx` or `newcy`. -/
  c : Int
  /-- `newrx` or `newry`. -/
  r : Int
  delta : Int
deriving Repr, DecidableEq

namespace Span
variable (s : Span) (sOWO : Bool)

def borderLow (lo : Int) : Span :=
  if (sOWO → s.c < lo) ∧ qAbs (lo - s.c) < s.delta then { s with delta := qAbs (lo - s.c), c := lo } else s

/-- The bottom border measures the distance it stores from another edge than the one it tests. -/
def borderHigh (hi stored : Int) : Span :=
  if (sOWO → s.r > hi) ∧ qAbs (hi - s.r) < s.delta then { s with delta := qAbs (hi - stored), r := hi } else s

variable (allowed : Bool) (l lr : Int)

def windowLow : Span :=
  if (sOWO → s.c < lr) ∧ allowed ∧ qAbs (lr - s.c) < s.delta then { s with delta := qAbs (lr - s.c), c := lr } else s

def windowHigh : Span :=
  if (sOWO → s.r > l) ∧ allowed ∧ qAbs (l - s.r) < s.delta then { s with delta := qAbs (l - s.r), r := l } else s

/-- Corners are tested at the pixel beside the one they go to. -/
def cornerLow : Span :=
  if (sOWO → s.c < l) ∧ allowed ∧ qAbs (l - s.c) < s.delta then { s with delta := qAbs (l - s.c + 1), c := l + 1 } else s

def cornerHigh : Span :=
  if (sOWO → s.r > lr) ∧ allowed ∧ qAbs (lr - s.r) < s.delta then { s with delta := qAbs (lr - s.r - 1), r := lr - 1 }
  else s

/-- One of the edges is next to another window. -/
def beside : Bool := s.c = lr ∨ s.r = l

end Span

structure Buffers where
  x : Span
  y : Span
deriving Repr, DecidableEq

structure Resizing where
  session : Session
  scr : Screens
  options : Options
  window : Window
  /-- `m_allClients`. -/
  clients : List Window

namespace Window
variable (l : Window)

/-- The pixels around another window. -/
def lx : Int := l.frame.left - 1
def ly : Int := l.frame.top - 1
def lrx : Int := l.frame.left + l.frame.width
def lry : Int := l.frame.top + l.frame.height

end Window

namespace Resizing
variable (R : Resizing) (geom : Rect) (l : Window) (s : Buffers)

/-- `clientArea` with `MovementArea`, at the middle of a window of this size at the origin. -/
def maxRect : Rect := R.scr.geometry (R.scr.number (Rect.ofPointSize ⟨0, 0⟩ R.window.frame.size).center)

def relevant (l : Window) : Bool := l.isOnDesktop R.session R.session.current ∧ ¬ l.minimized ∧ l.id ≠ R.window.id

def snapBorderTop : Buffers :=
  { s with y := s.y.borderLow R.options.snapOnlyWhenOverlapping R.maxRect.top }

def snapBorderBottom : Buffers :=
  { s with y := s.y.borderHigh R.options.snapOnlyWhenOverlapping R.maxRect.bottom s.y.c }

def snapBorderLeft : Buffers :=
  { s with x := s.x.borderLow R.options.snapOnlyWhenOverlapping R.maxRect.left }

def snapBorderRight : Buffers :=
  { s with x := s.x.borderHigh R.options.snapOnlyWhenOverlapping R.maxRect.right s.x.r }

def snapBorders : Position → Buffers → Option Buffers
  | .bottomRight, s => some (R.snapBorderRight (R.snapBorderBottom s))
  | .right, s => some (R.snapBorderRight s)
  | .bottom, s => some (R.snapBorderBottom s)
  | .topLeft, s => some (R.snapBorderLeft (R.snapBorderTop s))
  | .left, s => some (R.snapBorderLeft s)
  | .top, s => some (R.snapBorderTop s)
  | .topRight, s => some (R.snapBorderRight (R.snapBorderTop s))
  | .bottomLeft, s => some (R.snapBorderLeft (R.snapBorderBottom s))
  | .center, _ => none

def withinHeight : Bool := touches s.y.c s.y.r l.ly l.lry

/-- This one looks at the edges as they were before. -/
def withinWidth : Bool := touches geom.left geom.right l.lx l.lrx

def snapWindowTop : Buffers :=
  { s with y := s.y.windowLow R.options.snapOnlyWhenOverlapping (withinWidth geom l) l.lry }

def snapWindowBottom : Buffers :=
  { s with y := s.y.windowHigh R.options.snapOnlyWhenOverlapping (withinWidth geom l) l.ly }

def snapWindowLeft : Buffers :=
  { s with x := s.x.windowLow R.options.snapOnlyWhenOverlapping (withinHeight l s) l.lrx }

def snapWindowRight : Buffers :=
  { s with x := s.x.windowHigh R.options.snapOnlyWhenOverlapping (withinHeight l s) l.lx }

def snapWindowCTop : Buffers :=
  { s with y := s.y.cornerLow R.options.snapOnlyWhenOverlapping (s.x.beside l.lx l.lrx) l.ly }

def snapWindowCBottom : Buffers :=
  { s with y := s.y.cornerHigh R.options.snapOnlyWhenOverlapping (s.x.beside l.lx l.lrx) l.lry }

def snapWindowCLeft : Buffers :=
  { s with x := s.x.cornerLow R.options.snapOnlyWhenOverlapping (s.y.beside l.ly l.lry) l.lx }

def snapWindowCRight : Buffers :=
  { s with x := s.x.cornerHigh R.options.snapOnlyWhenOverlapping (s.y.beside l.ly l.lry) l.lrx }

/-- One round of the loop over the other windows. -/
def snapWindow : Position → Buffers → Window → Option Buffers
  | .bottomRight, s, l =>
    some (R.snapWindowCRight l (R.snapWindowCBottom l (R.snapWindowRight l (R.snapWindowBottom geom l s))))
  | .right, s, l => some (R.snapWindowCRight l (R.snapWindowRight l s))
  | .bottom, s, l => some (R.snapWindowCBottom l (R.snapWindowBottom geom l s))
  | .topLeft, s, l => some (R.snapWindowCLeft l (R.snapWindowCTop l (R.snapWindowLeft l (R.snapWindowTop geom l s))))
  | .left, s, l => some (R.snapWindowCLeft l (R.snapWindowLeft l s))
  | .top, s, l => some (R.snapWindowCTop l (R.snapWindowTop geom l s))
  | .topRight, s, l =>
    some (R.snapWindowCRight l (R.snapWindowCTop l (R.snapWindowRight l (R.snapWindowTop geom l s))))
  | .bottomLeft, s, l =>
    some (R.snapWindowCLeft l (R.snapWindowCBottom l (R.snapWindowLeft l (R.snapWindowBottom geom l s))))
  | .center, _, _ => none

def edges (deltaX deltaY : Int) : Buffers := ⟨⟨geom.left, geom.right, deltaX⟩, ⟨geom.top, geom.bottom, deltaY⟩⟩

def borders (mode : Position) : Option Buffers :=
  let snap := R.options.borderSnapZone
  if snap ≠ 0 then R.snapBorders mode (edges geom snap snap)
  else some (edges geom R.maxRect.right R.maxRect.bottom)

/-- The distance to beat is the zone again when windows are looked at. -/
def zoned : Buffers :=
  ⟨{ s.x with delta := R.options.windowSnapZone }, { s.y with delta := R.options.windowSnapZone }⟩

def windows (mode : Position) (s : Buffers) : Option Buffers :=
  if R.options.windowSnapZone ≠ 0 then (R.clients.filter R.relevant).foldlM (R.snapWindow geom mode) (R.zoned s)
  else some s

/-- None where it aborts. -/
def adjustClientSize (mode : Position) : Option Rect :=
  if R.options.windowSnapZone ≠ 0 ∨ R.options.borderSnapZone ≠ 0 then do
    let s ← R.borders geom mode
    let s ← R.windows geom mode s
    return ⟨s.x.c, s.y.c, s.x.r, s.y.r⟩
  else some geom

end Resizing

end KWinFT.Snapping
