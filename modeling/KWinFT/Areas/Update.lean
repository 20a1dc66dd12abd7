import KWinFT.Areas.Struts

/-! The areas of the workspace by desktop, with an unused entry for desktop zero. Reading or writing an entry that is
not there fails. -/
namespace KWinFT.Areas
open KWinFT.Geometry

structure ClientAreas where
  workarea : List Rect
  restrictedmovearea : List (List StrutRect)
  screenarea : List (List Rect)
deriving Repr, DecidableEq

/-- One entry of the new areas. -/
structure DesktopArea where
  work : Rect
  restricted : List StrutRect
  screens : List Rect
deriving Repr, DecidableEq

/-- `v[i]` of a vector. -/
def entry {α : Type} (v : List α) (i : Int) : Option α := if 0 ≤ i then v[i.toNat]? else none

inductive ClientAreaOption
  | placementArea | movementArea | maximizeArea | maximizeFullArea | fullScreenArea | workArea | fullArea | screenArea
deriving Repr, DecidableEq

/-- The desktop and the screen that are current. -/
structure Current where
  desktop : Nat
  screen : Nat
deriving Repr, DecidableEq

/-- Zero and `OnAllDesktops` stand for the current desktop. -/
def Current.resolve (cur : Current) (desktop : Int) : Int := if desktop = -1 ∨ desktop = 0 then cur.desktop else desktop

/-- Both the areas of the screens and the work area of the desktop are read, whatever is asked for. -/
def clientArea (scr : Screens) (cur : Current) (a : ClientAreas) (opt : ClientAreaOption) (screen desktop : Int) :
    Option Rect :=
  let desktop := cur.resolve desktop
  let screen := if screen = -1 then cur.screen else screen.toNat
  (if a.screenarea = [] then some (scr.geometry screen)
    else entry a.screenarea desktop >>= fun row => some (row.getD screen (scr.geometry screen))) >>= fun sarea =>
  entry a.workarea desktop >>= fun work =>
    some (match opt with
      | .maximizeArea | .placementArea => sarea
      | .maximizeFullArea | .fullScreenArea | .movementArea | .screenArea => scr.geometry screen
      | .workArea => if work.isNull then .ofPointSize ⟨0, 0⟩ scr.displaySize else work
      | .fullArea => .ofPointSize ⟨0, 0⟩ scr.displaySize)

section update
variable (scr : Screens)

/-- A desktop without struts. -/
def fullArea : DesktopArea := ⟨scr.desktopArea, [], scr.geometries⟩

/-- The entries before any window: the one for desktop zero is never used. -/
def initialAreas (n : Nat) : List DesktopArea := ⟨.null, [], []⟩ :: List.replicate n (fullArea scr)

/-- What the struts leave of all screens together, unless they take a whole screen. -/
def X11Window.workingArea (w : X11Window) (screenArea : Rect) : Rect :=
  let r := w.adjustedClientArea scr screenArea scr.desktopArea
  if scr.geometries.all (r.intersects ·) then r else scr.desktopArea

/-- A screen that the struts would remove keeps its area. -/
def X11Window.narrowScreen (w : X11Window) (screenArea area geometry : Rect) : Rect :=
  let geo := area.intersected (w.adjustedClientArea scr screenArea geometry)
  if geo.isEmpty then area else geo

def X11Window.narrow (w : X11Window) (screenArea : Rect) (d : DesktopArea) : DesktopArea where
  work := if w.hasOffscreenXineramaStrut scr then d.work else d.work.intersected (w.workingArea scr screenArea)
  restricted := d.restricted ++
    (w.strutRects scr).map fun strut => { strut with rect := strut.rect.intersected (scr.geometry w.screen) }
  screens := List.zipWith (w.narrowScreen scr screenArea) d.screens scr.geometries

def WaylandWindow.narrow (w : WaylandWindow) (d : DesktopArea) : DesktopArea where
  work := d.work.intersected (scr.desktopArea.subMargins (w.margins scr.displayGeometry))
  restricted := d.restricted ++
    [⟨w.frameGeometry, WaylandWindow.marginsToStrutArea (w.margins (scr.geometry w.screen))⟩]
  screens := List.zipWith (fun area geometry => area.intersected (w.remainder geometry)) d.screens scr.geometries

/-- A window narrows all desktops but the unused entry, or the last one that it is on. -/
def narrowDesktops (f : DesktopArea → DesktopArea) (desktops : List Nat) (new : List DesktopArea) :
    Option (List DesktopArea) :=
  if desktops = [] then some (new.take 1 ++ (new.drop 1).map f)
  else if lastDesktop desktops < new.length then some (new.modify (lastDesktop desktops) f)
  else none

/-- The screen of a window is looked up by `clientArea`, which reads the old areas. -/
def addX11 (cur : Current) (a : ClientAreas) (new : List DesktopArea) (w : X11Window) : Option (List DesktopArea) :=
  if w.hasStrut scr then
    clientArea scr cur a .screenArea w.centerScreen (desktopOf w.desktops) >>= fun screenArea =>
      narrowDesktops (w.narrow scr screenArea) w.desktops new
  else some new

def addWayland (new : List DesktopArea) (w : WaylandWindow) : Option (List DesktopArea) :=
  if w.hasStrut then narrowDesktops (w.narrow scr) w.desktops new else some new

def newAreas (n : Nat) (cur : Current) (x11 : List X11Window) (wayland : List WaylandWindow) (a : ClientAreas) :
    Option (List DesktopArea) :=
  x11.foldlM (addX11 scr cur a) (initialAreas scr n) >>= fun new => wayland.foldlM (addWayland scr) new

/-- Struts are compared as rectangles, whatever edge they are at. -/
def sameRects (s t : List StrutRect) : Bool := s.map StrutRect.rect = t.map StrutRect.rect

/-- Compares the entries of desktop `i` on, until one differs. -/
def changedFrom (a : ClientAreas) : Nat → List DesktopArea → Option Bool
  | _, [] => some false
  | i, d :: ds =>
    entry a.workarea i >>= fun work =>
    entry a.restrictedmovearea i >>= fun restricted =>
    entry a.screenarea i >>= fun screens =>
      if work = d.work ∧ sameRects restricted d.restricted ∧ screens = d.screens then changedFrom a (i + 1) ds else some true

def ClientAreas.ofNew (new : List DesktopArea) : ClientAreas :=
  ⟨new.map DesktopArea.work, new.map DesktopArea.restricted, new.map DesktopArea.screens⟩

def updateClientArea (n : Nat) (cur : Current) (x11 : List X11Window) (wayland : List WaylandWindow) (force : Bool)
    (a : ClientAreas) : Option ClientAreas :=
  newAreas scr n cur x11 wayland a >>= fun new =>
    if force ∨ a.screenarea = [] then some (.ofNew new)
    else changedFrom a 1 (new.drop 1) >>= fun changed => some (if changed then .ofNew new else a)

end update

/-- `restrictedMoveArea`, before the areas asked for are selected. -/
def restrictedMoveArea (cur : Current) (a : ClientAreas) (desktop : Int) : Option (List StrutRect) :=
  entry a.restrictedmovearea (cur.resolve desktop)

end KWinFT.Areas
