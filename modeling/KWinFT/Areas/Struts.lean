import KWinFT.Geometry.Rect

/-! Space that windows reserve at the edges of screens. X11 windows announce it as struts in coordinates of all
screens together; Wayland panels reserve what their frame covers of an edge. -/
namespace KWinFT.Areas
open KWinFT.Geometry

inductive StrutArea
  | invalid | top | right | bottom | left
deriving Repr, DecidableEq

structure StrutRect where
  rect : Rect := .null
  area : StrutArea := .invalid
deriving Repr, DecidableEq

/-- Struts along whole edges. -/
structure NETStrut where
  left : Int
  right : Int
  top : Int
  bottom : Int
deriving Repr, DecidableEq

/-- Struts along parts of edges. -/
structure NETExtendedStrut where
  leftWidth : Int
  leftStart : Int
  leftEnd : Int
  rightWidth : Int
  rightStart : Int
  rightEnd : Int
  topWidth : Int
  topStart : Int
  topEnd : Int
  bottomWidth : Int
  bottomStart : Int
  bottomEnd : Int
deriving Repr, DecidableEq

/-- The geometry of each screen. -/
structure Screens where
  geometries : List Rect
deriving Repr, DecidableEq

namespace Screens
variable (scr : Screens)

def count : Nat := scr.geometries.length

/-- No rectangle for a screen that is not there. -/
def geometry (i : Nat) : Rect := scr.geometries.getD i .null

/-- All screens together. -/
def desktopArea : Rect := scr.geometries.foldl Rect.united .null

def displaySize : Size := scr.desktopArea.size

/-- `Screens::geometry()`, which starts at the origin. -/
def displayGeometry : Rect := .ofPointSize ⟨0, 0⟩ scr.displaySize

end Screens

structure X11Window where
  extendedStrut : NETExtendedStrut
  simpleStrut : NETStrut
  screen : Nat
  /-- The screen of the middle of its pending geometry. -/
  centerScreen : Nat
  /-- Numbers of its desktops, none for all. -/
  desktops : List Nat
deriving Repr, DecidableEq

structure WaylandWindow where
  hasStrut : Bool
  frameGeometry : Rect
  screen : Nat
  desktops : List Nat
deriving Repr, DecidableEq

/-- `desktop()` of a window that is not on all desktops. -/
def lastDesktop (desktops : List Nat) : Nat := desktops.getLastD 0

/-- `desktop()`, with `OnAllDesktops` for a window without any. -/
def desktopOf (desktops : List Nat) : Int := if desktops = [] then -1 else lastDesktop desktops

namespace X11Window
variable (scr : Screens) (w : X11Window)

/-- The extended strut, built from the simple one where it is empty. -/
def strut : NETExtendedStrut :=
  let ext := w.extendedStrut
  let str := w.simpleStrut
  if ext.leftWidth = 0 ∧ ext.rightWidth = 0 ∧ ext.topWidth = 0 ∧ ext.bottomWidth = 0 then
    let ext := if str.left ≠ 0 then
      { ext with leftWidth := str.left, leftStart := 0, leftEnd := scr.displaySize.height } else ext
    let ext := if str.right ≠ 0 then
      { ext with rightWidth := str.right, rightStart := 0, rightEnd := scr.displaySize.height } else ext
    let ext := if str.top ≠ 0 then
      { ext with topWidth := str.top, topStart := 0, topEnd := scr.displaySize.width } else ext
    if str.bottom ≠ 0 then
      { ext with bottomWidth := str.bottom, bottomStart := 0, bottomEnd := scr.displaySize.width } else ext
  else ext

def hasStrut : Bool :=
  ¬ ((w.strut scr).leftWidth = 0 ∧ (w.strut scr).rightWidth = 0 ∧ (w.strut scr).topWidth = 0 ∧
    (w.strut scr).bottomWidth = 0)

/-- What the struts leave of `area`; `screenArea` is the screen of the window. -/
def adjustedClientArea (screenArea area : Rect) : Rect :=
  let str := w.strut scr
  let desktopArea := scr.desktopArea
  let l := Rect.ofPointSize ⟨0, str.leftStart⟩ ⟨str.leftWidth, str.leftEnd - str.leftStart + 1⟩
  let r := Rect.ofPointSize ⟨desktopArea.right - str.rightWidth + 1, str.rightStart⟩
    ⟨str.rightWidth, str.rightEnd - str.rightStart + 1⟩
  let t := Rect.ofPointSize ⟨str.topStart, 0⟩ ⟨str.topEnd - str.topStart + 1, str.topWidth⟩
  let b := Rect.ofPointSize ⟨str.bottomStart, desktopArea.bottom - str.bottomWidth + 1⟩
    ⟨str.bottomEnd - str.bottomStart + 1, str.bottomWidth⟩
  -- Struts at edges between screens do not count for all screens together.
  let whole := area = scr.displayGeometry
  let l := if whole ∧ l.left < screenArea.left then .null else l
  let r := if whole ∧ r.right > screenArea.right then .null else r
  let t := if whole ∧ t.top < screenArea.top then .null else t
  let b := if whole ∧ b.bottom < screenArea.bottom then .null else b
  let l := l.setLeft (max l.left screenArea.left)
  let r := r.setRight (min r.right screenArea.right)
  let t := t.setTop (max t.top screenArea.top)
  let b := b.setBottom (min b.bottom screenArea.bottom)
  let rect := if l.intersects area then area.setLeft (l.right + 1) else area
  let rect := if r.intersects area then rect.setRight (r.left - 1) else rect
  let rect := if t.intersects area then rect.setTop (t.bottom + 1) else rect
  if b.intersects area then rect.setBottom (b.top - 1) else rect

def strutRect : StrutArea → StrutRect
  | .top =>
    let str := w.strut scr
    if str.topWidth ≠ 0 then ⟨.ofPointSize ⟨str.topStart, 0⟩ ⟨str.topEnd - str.topStart, str.topWidth⟩, .top⟩ else {}
  | .right =>
    let str := w.strut scr
    if str.rightWidth ≠ 0 then
      ⟨.ofPointSize ⟨scr.displaySize.width - str.rightWidth, str.rightStart⟩
        ⟨str.rightWidth, str.rightEnd - str.rightStart⟩, .right⟩
    else {}
  | .bottom =>
    let str := w.strut scr
    if str.bottomWidth ≠ 0 then
      ⟨.ofPointSize ⟨str.bottomStart, scr.displaySize.height - str.bottomWidth⟩
        ⟨str.bottomEnd - str.bottomStart, str.bottomWidth⟩, .bottom⟩
    else {}
  | .left =>
    let str := w.strut scr
    if str.leftWidth ≠ 0 then
      ⟨.ofPointSize ⟨0, str.leftStart⟩ ⟨str.leftWidth, str.leftEnd - str.leftStart⟩, .left⟩
    else {}
  | .invalid => {}

def strutRects : List StrutRect := [StrutArea.top, .right, .bottom, .left].map (w.strutRect scr)

/-- The parts of a rectangle beside another one. -/
def subtract (r s : Rect) : List Rect :=
  if r.intersects s then
    [⟨r.left, r.top, r.right, s.top - 1⟩, ⟨r.left, s.bottom + 1, r.right, r.bottom⟩,
      ⟨r.left, max r.top s.top, s.left - 1, min r.bottom s.bottom⟩,
      ⟨s.right + 1, max r.top s.top, r.right, min r.bottom s.bottom⟩].filter (¬ ·.isEmpty)
  else [r]

/-- Part of the struts is on no screen. -/
def hasOffscreenXineramaStrut : Bool :=
  let region := ((w.strutRects scr).map StrutRect.rect).filter (¬ ·.isEmpty)
  ¬ (scr.geometries.foldl (fun region g => region.flatMap (subtract · g)) region).isEmpty

end X11Window

namespace WaylandWindow
variable (w : WaylandWindow)

/-- What a panel reserves along the edges of `geometry`. At a corner only its longer side counts. -/
def margins (geometry : Rect) : Margins :=
  let frame := w.frameGeometry
  if geometry.intersects frame then
    let left := frame.left = geometry.left
    let right := frame.right = geometry.right
    let top := frame.top = geometry.top
    let bottom := frame.bottom = geometry.bottom
    let horizontal := frame.width ≥ frame.height
    { left := if left ∧ ((¬ top ∧ ¬ bottom) ∨ ¬ horizontal) then frame.width else 0
      top := if top ∧ ((¬ left ∧ ¬ right) ∨ horizontal) then frame.height else 0
      right := if right ∧ ((¬ top ∧ ¬ bottom) ∨ ¬ horizontal) then frame.width else 0
      bottom := if bottom ∧ ((¬ left ∧ ¬ right) ∨ horizontal) then frame.height else 0 }
  else ⟨0, 0, 0, 0⟩

def marginsToStrutArea (margins : Margins) : StrutArea :=
  if margins.left ≠ 0 then .left
  else if margins.right ≠ 0 then .right
  else if margins.top ≠ 0 then .top
  else if margins.bottom ≠ 0 then .bottom
  else .invalid

/-- What a panel leaves of `geometry`. -/
def remainder (geometry : Rect) : Rect := geometry.subMargins (w.margins geometry)

end WaylandWindow

end KWinFT.Areas
