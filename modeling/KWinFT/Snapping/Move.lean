import KWinFT.Placement.Windows

/-! Snapping of a window that is moved: to the borders of the screen, to the edges and corners of other windows and to
the centre. Both axes keep the best position so far with its distance. -/
namespace KWinFT.Snapping
open KWinFT.Geometry Areas Placement

def qAbs (t : Int) : Int := if t ≥ 0 then t else -t

theorem qAbs_eq (t : Int) : qAbs t = max t (-t) := by
  unfold qAbs
  split <;> omega

/-- What snapping reads of a window. -/
structure Window where
  id : Nat
  /-- `frameGeometry`. -/
  frame : Rect
  minimized : Bool := false
  shown : Bool := true
  /-- Numbers of its desktops, none for all. -/
  desktops : List Nat := []
  onCurrentActivity : Bool := true
  isDesktop : Bool := false
  isSplash : Bool := false
deriving Repr, DecidableEq

/-- `isOnDesktop` of a number that may stand for all desktops. -/
def Window.isOnDesktop (session : Session) (window : Window) (desktop : Int) : Bool :=
  (if session.waylandMode then window.desktops.any fun d => d = desktop else desktopOf window.desktops = desktop) ||
    window.desktops.isEmpty

structure Options where
  borderSnapZone : Int
  windowSnapZone : Int
  centerSnapZone : Int
  snapOnlyWhenOverlapping : Bool
deriving Repr, DecidableEq

structure Moving where
  session : Session
  scr : Screens
  options : Options
  /-- A zone times the factor for it, which is a fraction. -/
  snapAdjust : Int → Int
  window : Window
  margins : Margins
  mode : MaximizeMode
  /-- `clientArea` with `MaximizeArea` at a position. -/
  maximizeArea : Point → Rect
  /-- `m_allClients`. -/
  clients : List Window
  unrestricted : Bool
  snapAdjust_zero : snapAdjust 0 = 0

/-- The distance to beat in an axis, and the coordinate that goes with it. -/
structure Best where
  delta : Int
  pos : Int
deriving Repr, DecidableEq

namespace Best

/-- A window edge at distance `d` is taken when that is in the zone and the nearest so far. -/
def offer (b : Best) (allowed : Bool) (snap d pos : Int) : Best :=
  if allowed ∧ d < snap ∧ d < b.delta then ⟨d, pos⟩ else b

/-- The borders `lo` and `hi`, from the frame between `c` and `r`. The distances are stored as differences. -/
def border (b : Best) (sOWO : Bool) (snap lo hi c r before behind : Int) : Best :=
  let b := if (sOWO → c < lo) ∧ qAbs (lo - c) < snap then ⟨lo - c, lo - before⟩ else b
  if (sOWO → r > hi) ∧ qAbs (r - hi) < snap ∧ qAbs (hi - r) < b.delta then ⟨r - hi, hi - (r - c) + behind⟩ else b

variable (b : Best) (sOWO : Bool) (snap c r l lr : Int)

/-- The edges of another window, between `l` and `lr`, that face those of the frame. -/
def facing : Best :=
  (b.offer (!sOWO || c < lr) snap (qAbs (lr - c)) lr).offer (!sOWO || r > l) snap (qAbs (r - l)) (l - (r - c))

/-- The edges of another window that are on the same side. -/
def corner : Best :=
  (b.offer (!sOWO || r > lr) snap (qAbs (lr - r)) (lr - (r - c))).offer (!sOWO || c < l) snap (qAbs (c - l)) l

/-- The frame is to be next to the other window. -/
def Beside : Prop := b.pos = lr ∨ b.pos + (r - c) = l

instance : Decidable (b.Beside c r l lr) := inferInstanceAs (Decidable (_ ∨ _))

end Best

/-- The loops ask whether the frame from `c` to `r` and another one from `l` to `lr` touch in an axis. -/
def touches (c r l lr : Int) : Bool := (c ≤ lr ∧ c ≥ l) ∨ (r ≥ l ∧ r ≤ lr) ∨ (c ≤ l ∧ r ≥ lr)

namespace Moving
variable (M : Moving) (pos : Point)

def relevant (l : Window) : Bool :=
  l.id ≠ M.window.id ∧ ¬ l.minimized ∧ l.shown ∧
    (l.isOnDesktop M.session (desktopOf M.window.desktops) ∨ M.window.isOnDesktop M.session (desktopOf l.desktops)) ∧
    l.onCurrentActivity ∧ ¬ l.isDesktop ∧ ¬ l.isSplash

/-- The middle of the window when it is there. -/
def middle : Point :=
  let center := (Rect.ofPointSize ⟨0, 0⟩ M.window.frame.size).center
  ⟨pos.x + center.x, pos.y + center.y⟩

/-- The maximized window keeps to the borders that it is at. -/
def guideHorizontal : Bool :=
  M.mode.hasHorizontal ∧ (M.window.frame.left = (M.maximizeArea (M.middle pos)).left ∨
    M.window.frame.right = (M.maximizeArea (M.middle pos)).right)

def guideVertical : Bool :=
  M.mode.hasVertical ∧ (M.window.frame.top = (M.maximizeArea (M.middle pos)).top ∨
    M.window.frame.bottom = (M.maximizeArea (M.middle pos)).bottom)

def borderSnapZone : Size :=
  ⟨if M.guideHorizontal pos then
      max (M.options.borderSnapZone + 2) ((M.maximizeArea (M.middle pos)).width.tdiv 16)
    else M.options.borderSnapZone,
    if M.guideVertical pos then
      max (M.options.borderSnapZone + 2) ((M.maximizeArea (M.middle pos)).height.tdiv 16)
    else M.options.borderSnapZone⟩

def maxRect : Rect :=
  let maxRect := if M.mode ≠ .restore then M.maximizeArea (M.middle pos) else .null
  if maxRect.isNull then M.scr.geometry (M.scr.number (M.middle pos)) else maxRect

/-- The borders of the window that may stand out of the screen. -/
def outerMargins : Margins :=
  let geo := M.window.frame
  let maxRect := M.maxRect pos
  let m := M.margins
  ⟨if m.left ≠ 0 ∧ (M.mode.hasHorizontal ∨
      M.scr.intersecting (geo.translated (maxRect.left - (m.left + geo.left)) 0) > 1) then 0 else m.left,
    0,
    if m.right ≠ 0 ∧ (M.mode.hasHorizontal ∨
      M.scr.intersecting (geo.translated (maxRect.right + m.right - geo.right) 0) > 1) then 0 else m.right,
    if m.bottom ≠ 0 ∧ (M.mode.hasVertical ∨
      M.scr.intersecting (geo.translated 0 (maxRect.bottom + m.bottom - geo.bottom)) > 1) then 0 else m.bottom⟩

/-- The best positions after the borders. -/
def borders : Best × Best :=
  let maxRect := M.maxRect pos
  let x : Best := ⟨maxRect.right + 1, pos.x⟩
  let y : Best := ⟨maxRect.bottom + 1, pos.y⟩
  let snapX := M.snapAdjust (M.borderSnapZone pos).width
  let snapY := M.snapAdjust (M.borderSnapZone pos).height
  let m := M.outerMargins pos
  let sOWO := M.options.snapOnlyWhenOverlapping
  if snapX ≠ 0 ∨ snapY ≠ 0 then
    (x.border sOWO snapX maxRect.left (maxRect.right + 1) pos.x (pos.x + M.window.frame.width) m.left m.right,
      y.border sOWO snapY maxRect.top (maxRect.bottom + 1) pos.y (pos.y + M.window.frame.height) m.top m.bottom)
  else (x, y)

/-- One round of the loop over the other windows. -/
def snapTo (snap : Int) (best : Best × Best) (l : Window) : Best × Best :=
  let sOWO := M.options.snapOnlyWhenOverlapping
  let cx := pos.x
  let cy := pos.y
  let rx := cx + M.window.frame.width
  let ry := cy + M.window.frame.height
  let lx := l.frame.left
  let ly := l.frame.top
  let lrx := lx + l.frame.width
  let lry := ly + l.frame.height
  let (x, y) := best
  let x := if ¬ M.guideHorizontal pos ∧ touches cy ry ly lry then x.facing sOWO snap cx rx lx lrx else x
  let y := if ¬ M.guideVertical pos ∧ touches cx rx lx lrx then y.facing sOWO snap cy ry ly lry else y
  let y := if ¬ M.guideVertical pos ∧ x.Beside cx rx lx lrx then y.corner sOWO snap cy ry ly lry else y
  let x := if ¬ M.guideHorizontal pos ∧ y.Beside cy ry ly lry then x.corner sOWO snap cx rx lx lrx else x
  (x, y)

def windows : Best × Best :=
  let snap := M.snapAdjust M.options.windowSnapZone
  if snap ≠ 0 then (M.clients.filter M.relevant).foldl (M.snapTo pos snap) (M.borders pos) else M.borders pos

def center (best : Best × Best) : Point :=
  let maxRect := M.maxRect pos
  let xmin := maxRect.left
  let xmax := maxRect.right + 1
  let ymin := maxRect.top
  let ymax := maxRect.bottom + 1
  let cw := M.window.frame.width
  let ch := M.window.frame.height
  let nx := best.1.pos
  let ny := best.2.pos
  let snap := M.snapAdjust M.options.centerSnapZone
  let diffX := qAbs ((xmin + xmax).tdiv 2 - (pos.x + cw.tdiv 2))
  let diffY := qAbs ((ymin + ymax).tdiv 2 - (pos.y + ch.tdiv 2))
  if snap ≠ 0 then
    if diffX < snap ∧ diffY < snap ∧ diffX < best.1.delta ∧ diffY < best.2.delta then
      ⟨(xmin + xmax).tdiv 2 - cw.tdiv 2, (ymin + ymax).tdiv 2 - ch.tdiv 2⟩
    else if M.options.borderSnapZone ≠ 0 then
      if (nx = xmin ∨ nx = xmax - cw) ∧ diffY < snap ∧ diffY < best.2.delta then
        ⟨nx, (ymin + ymax).tdiv 2 - ch.tdiv 2⟩
      else if ((if M.unrestricted then ny = ymin else ny ≤ ymin) ∨ ny = ymax - ch) ∧ diffX < snap ∧
          diffX < best.1.delta then
        ⟨(xmin + xmax).tdiv 2 - cw.tdiv 2, ny⟩
      else ⟨nx, ny⟩
    else ⟨nx, ny⟩
  else ⟨nx, ny⟩

def adjustClientPosition : Point :=
  if M.options.windowSnapZone ≠ 0 ∨ ¬ ((M.borderSnapZone pos).width = 0 ∧ (M.borderSnapZone pos).height = 0) ∨
      M.options.centerSnapZone ≠ 0 then
    M.center pos (M.windows pos)
  else pos

end Moving

end KWinFT.Snapping
