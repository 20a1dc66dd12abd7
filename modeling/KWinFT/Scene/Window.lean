import KWinFT.Geometry.Rect
import Mathlib.Data.Finset.NAry
import Mathlib.Data.Finset.Prod
import Mathlib.Data.Finset.Range
import Mathlib.Data.Rat.Defs

/-! A window as the scene reads it, and the regions of it that the painting passes work with. Regions
are finite sets of pixels; some are relative to the frame or to the content, others to the screen. -/
namespace KWinFT.Scene
open KWinFT.Geometry

abbrev Pixel := Int × Int

/-- A `QRegion`. -/
abbrev Region := Finset Pixel

def Region.translated (r : Region) (d : Point) : Region := r.image fun p => (p.1 + d.x, p.2 + d.y)

/-- `QRegion(QRect)`. -/
def rectRegion (r : Rect) : Region :=
  (Finset.range r.width.toNat ×ˢ Finset.range r.height.toNat).image fun p => (r.left + p.1, r.top + p.2)

structure Decoration where
  isOpaque : Bool
  borders : Margins
deriving DecidableEq

/-- What the scene reads of `win::control`. -/
structure Control where
  fullscreen : Bool
  minimized : Bool
  decoration : Option Decoration
deriving DecidableEq

/-- A `Toplevel` with its scene window. The fields from `deleted` to `hiddenInternal` say why it would
not be painted. -/
structure Window where
  frameGeometry : Rect
  clientFrameExtents : Margins
  remnantFrameMargins : Option Margins
  hasInContentDeco : Bool
  renderRegion : Region
  hasAlpha : Bool
  opacity : ℚ
  opaqueRegion : Region
  control : Option Control
  repaintsRegion : Region
  layerRepaintsRegion : Region
  deleted : Bool
  onCurrentDesktop : Bool
  onCurrentActivity : Bool
  hiddenInternal : Bool

namespace Window
variable (w : Window)

def pos : Point := w.frameGeometry.topLeft

def decoration : Option Decoration := w.control.bind (·.decoration)

def decorationHasAlpha : Bool := w.decoration.any fun d => !d.isOpaque

/-- `left_border` to `bottom_border`. -/
def borders : Margins := (w.decoration.map (·.borders)).getD ⟨0, 0, 0, 0⟩

def frameMargins : Margins := w.remnantFrameMargins.getD w.borders

def frameToClientRect (r : Rect) : Rect := (r.subMargins w.frameMargins).addMargins w.clientFrameExtents

/-- The size of the rectangle is `QSize()`. -/
def frameToClientPos (p : Point) : Point := (w.frameToClientRect (.ofPointSize p ⟨-1, -1⟩)).topLeft

def frameRelativeClientRect : Rect :=
  (w.frameToClientRect w.frameGeometry).translated (-w.frameGeometry.left) (-w.frameGeometry.top)

def frameToRenderRect (r : Rect) : Rect :=
  (if w.hasInContentDeco then r else r.subMargins w.frameMargins).addMargins w.clientFrameExtents

def frameToRenderPos (p : Point) : Point := (w.frameToRenderRect (.ofPointSize p ⟨-1, -1⟩)).topLeft

def renderGeometry : Rect := w.frameToRenderRect w.frameGeometry

/-- The part of the shape that is painted, relative to the render geometry. -/
def contentRenderRegion : Region :=
  let clipping := Rect.ofPointSize ⟨0, 0⟩ w.renderGeometry.size
  let clipping := if w.hasInContentDeco then
      let united := clipping.united (.ofPointSize ⟨0, 0⟩ w.frameGeometry.size)
      ⟨w.borders.left, w.borders.top, united.right - w.borders.right, united.bottom - w.borders.bottom⟩
    else clipping
  w.renderRegion ∩ rectRegion clipping

def bufferOffset : Point :=
  ⟨w.renderGeometry.topLeft.x - w.pos.x, w.renderGeometry.topLeft.y - w.pos.y⟩

/-- Relative to the frame. -/
def decorationShape : Region :=
  match w.decoration with
  | none => ∅
  | some _ => rectRegion (.ofPointSize ⟨0, 0⟩ w.frameGeometry.size) \ rectRegion w.frameRelativeClientRect

def isOpaque : Bool := w.opacity = 1 && !w.hasAlpha

def repaints : Region := Region.translated w.repaintsRegion w.pos ∪ w.layerRepaintsRegion

/-- What `resetPaintingEnabled` leaves, which no effect changes. -/
def isPaintingEnabled : Bool :=
  !w.deleted && w.onCurrentDesktop && w.onCurrentActivity
    && !(w.control.any (·.minimized)) && !(w.control.isSome && w.hiddenInternal)

end Window

end KWinFT.Scene
