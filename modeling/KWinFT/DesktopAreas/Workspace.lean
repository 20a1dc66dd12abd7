import KWinFT.Areas.Update
import KWinFT.Lib.Calls
import KWinFT.Stacking.InOrder
import KWinFT.VirtualDesktops.Manager

/-! The workspace while desktops come and go: the areas of the desktops, and windows that are sent to other desktops. A
window has its desktops as pointers, and a removed desktop keeps its number until it is deleted. -/
namespace KWinFT.DesktopAreas
open Areas VirtualDesktops

/-- What a window can have struts by. -/
inductive Struts
  | without
  | x11 (extendedStrut : NETExtendedStrut) (simpleStrut : NETStrut)
  | wayland (hasStrut : Bool)
deriving Repr, DecidableEq

/-- What the check of its position does with a window. Desktops and docks are exempt from it. -/
inductive Placing
  | exempt | fullscreen | maximized | quicktiled | restored
deriving Repr, DecidableEq

structure Place where
  frameGeometry : Geometry.Rect
  screen : Nat
  /-- The screen of the middle of its pending geometry. -/
  centerScreen : Nat
deriving Repr, DecidableEq

structure Window where
  control : Bool
  annexed : Bool
  modal : Bool
  children : List Nat
  leads : List Nat
  desktops : List Address
  struts : Struts
  placing : Placing
  place : Place
deriving Repr, DecidableEq

structure Workspace where
  vds : VirtualDesktopManager
  windows : Nat → Window
  /-- `m_allClients`. -/
  allClients : List Nat
  /-- `waylandServer()->windows`. Layer surfaces are among these only. -/
  waylandWindows : List Nat
  stacking : List Nat
  screens : Screens
  currentScreen : Nat
  areas : ClientAreas
  oldrestrictedmovearea : List (List StrutRect)

/-- The mode of operation and the rules of the windows. Which order the windows are stacked in after one was raised or
restacked, where the check of its position brings a window, if anywhere, and what is read from a deleted desktop are left
open. -/
structure Setting where
  x11 : Bool
  checkDesktop : Nat → Int → Int
  restacked : Workspace → Nat → List Nat
  positioned : Workspace → Nat → Option Int → Option Place
  freed : Address → Nat

inductive Stop
  | outOfRange
  | nullControl
  | nullDesktop
  | depth
deriving Repr, DecidableEq

inductive Call
  | setDesktops (win : Nat) (desktops : List Address)
  | setDesktop (win : Nat) (desktop : Int)
  | setOnAllDesktops (win : Nat) (set : Bool)
  | updateOnAllDesktopsOfTransients (window : Nat)
  | checkWorkspacePosition (win : Nat) (oldDesktop : Option Int)
  | sendClientToDesktop (window : Nat) (desk : Int)
  | updateClientArea (force : Bool)

abbrev Self := Call → Workspace → Except Stop Workspace

/-- An element of a vector. -/
def access {α : Type} : Option α → Except Stop α
  | some a => .ok a
  | none => .error .outOfRange

namespace Workspace
variable (s : Workspace)

def desktops (w : Nat) : List Address := (s.windows w).desktops

def numbers (w : Nat) : List Nat := (s.desktops w).map fun d => (s.vds.heap d).x11DesktopNumber

/-- The number of the last of its desktops. -/
def desktop (w : Nat) : Int := desktopOf (s.numbers w)

def current : Current := ⟨s.vds.currentNumber, s.currentScreen⟩

/-- A window as the update of the areas sees it. -/
def x11Window (w : Nat) : Option X11Window :=
  match (s.windows w).struts with
  | .x11 extended simple => some ⟨extended, simple, (s.windows w).place.screen, (s.windows w).place.centerScreen, s.numbers w⟩
  | _ => none

def waylandWindow (w : Nat) : Option WaylandWindow :=
  match (s.windows w).struts with
  | .wayland hasStrut => some ⟨hasStrut, (s.windows w).place.frameGeometry, (s.windows w).place.screen, s.numbers w⟩
  | _ => none

def hasStrut (w : Nat) : Bool :=
  (s.x11Window w).any (·.hasStrut s.screens) || (s.waylandWindow w).any WaylandWindow.hasStrut

def x11Windows : List X11Window := s.allClients.filterMap s.x11Window

def waylandPanels : List WaylandWindow := s.waylandWindows.filterMap s.waylandWindow

def newAreas : Option (List DesktopArea) :=
  Areas.newAreas s.screens s.vds.count s.current s.x11Windows s.waylandPanels s.areas

def ensureStackingOrder (list : List Nat) : List Nat := Stacking.ensureStackingOrderInList s.stacking list

def isOnAllDesktops (w : Nat) : Bool := s.desktops w = []

def storeDesktops (w : Nat) (desktops : List Address) : Workspace :=
  { s with windows := Function.update s.windows w { s.windows w with desktops := desktops } }

def storePlace (w : Nat) (place : Place) : Workspace :=
  { s with windows := Function.update s.windows w { s.windows w with place := place } }

end Workspace

/-- The control of a window is read from here on. -/
def withControl (s : Workspace) (w : Nat) (next : Except Stop Workspace) : Except Stop Workspace :=
  if (s.windows w).control then next else .error .nullControl

section bodies
variable (p : Setting) (self : Self)

/-- On X11 there is one desktop at a time. -/
def Setting.oneDesktop (desktops : List Address) : List Address :=
  if p.x11 ∧ desktops.length > 1 then desktops.getLast?.toList else desktops

def setDesktops (win : Nat) (desktops : List Address) (s : Workspace) : Except Stop Workspace :=
  let desktops := p.oneDesktop desktops
  if desktops = s.desktops win then .ok s
  else
    let was := s.isOnAllDesktops win
    let s := s.storeDesktops win desktops
    withControl s win <|
      (if was ≠ s.isOnAllDesktops win then self (.updateOnAllDesktopsOfTransients win) s else .ok s) >>= fun s =>
      (s.ensureStackingOrder (s.windows win).children).foldlM (fun s child =>
        if (s.windows child).annexed then .ok s else self (.setDesktops child desktops) s) s >>= fun s =>
      if (s.windows win).modal then
        (s.windows win).leads.foldlM (fun s client => self (.setDesktops client desktops) s) s
      else .ok s

/-- The desktop that is meant and that the rules of the window allow. A desktop that is not there is used at once. -/
def ruledDesktops (win : Nat) (desktop : Int) (s : Workspace) : Except Stop (List Address) :=
  let desktop := if desktop ≠ -1 then max 1 (min (s.vds.count : Int) desktop) else desktop
  let desktop := min (s.vds.count : Int) (p.checkDesktop win desktop)
  if desktop ≠ -1 then
    match s.vds.desktopForX11Id desktop.toNat with
    | some d => .ok [d]
    | none => .error .nullDesktop
  else .ok []

def setDesktop (win : Nat) (desktop : Int) (s : Workspace) : Except Stop Workspace :=
  withControl s win <| ruledDesktops p win desktop s >>= fun desktops => self (.setDesktops win desktops) s

def setOnAllDesktops (win : Nat) (set : Bool) (s : Workspace) : Except Stop Workspace :=
  if set = s.isOnAllDesktops win then .ok s
  else self (.setDesktop win (if set then -1 else s.vds.currentNumber)) s

def updateOnAllDesktopsOfTransients (window : Nat) (s : Workspace) : Except Stop Workspace :=
  (s.windows window).children.foldlM (fun s transient =>
    if s.isOnAllDesktops transient ≠ s.isOnAllDesktops window then
      self (.setOnAllDesktops transient (s.isOnAllDesktops window)) s
    else .ok s) s

/-- The area that is asked for in the first place. -/
def Placing.area : Placing → ClientAreaOption
  | .fullscreen => .fullScreenArea
  | .quicktiled => .maximizeArea
  | _ => .screenArea

/-- The bounds of a restored window before the change. During an update these are the ones from before it. -/
def readOldBounds (w : Nat) (oldDesktop : Int) (s : Workspace) : Except Stop Unit :=
  if s.oldrestrictedmovearea = [] then
    access (clientArea s.screens s.current s.areas .screenArea (s.windows w).place.centerScreen oldDesktop) >>= fun _ =>
    access (restrictedMoveArea s.current s.areas oldDesktop) >>= fun _ => .ok ()
  else access (entry s.oldrestrictedmovearea (s.current.resolve oldDesktop)) >>= fun _ => .ok ()

/-- All that the check of a position reads of the areas. -/
def readBounds (w : Nat) (oldDesktop : Option Int) (s : Workspace) : Except Stop Unit :=
  access (clientArea s.screens s.current s.areas (s.windows w).placing.area (s.windows w).place.centerScreen
    (s.desktop w)) >>= fun _ =>
  if (s.windows w).placing = .restored then
    readOldBounds w (oldDesktop.getD (s.desktop w)) s >>= fun _ =>
    access (restrictedMoveArea s.current s.areas (s.desktop w)) >>= fun _ => .ok ()
  else .ok ()

/-- A window with struts that gets another place has the areas updated. -/
def checkWorkspacePosition (win : Nat) (oldDesktop : Option Int) (s : Workspace) : Except Stop Workspace :=
  if (s.windows win).placing = .exempt then .ok s
  else readBounds win oldDesktop s >>= fun _ =>
    match p.positioned s win oldDesktop with
    | none => .ok s
    | some place =>
      let s := s.storePlace win place
      if s.hasStrut win then self (.updateClientArea false) s else .ok s

def sendClientToDesktop (window : Nat) (desk : Int) (s : Workspace) : Except Stop Workspace :=
  if (desk < 1 ∧ desk ≠ -1) ∨ desk > s.vds.count then .ok s
  else
    let oldDesktop := s.desktop window
    self (.setDesktop window desk) s >>= fun s =>
    if s.desktop window ≠ desk then .ok s
    else
      self (.checkWorkspacePosition window (some oldDesktop)) { s with stacking := p.restacked s window } >>= fun s =>
      (s.ensureStackingOrder (s.windows window).children).foldlM (fun s transient =>
        if (s.windows transient).control then self (.sendClientToDesktop transient desk) s else .ok s) s >>= fun s =>
      self (.updateClientArea false) s

/-- The new areas, and whether they differ from the ones there are. -/
def computeAreas (force : Bool) (s : Workspace) : Except Stop (List DesktopArea × Bool) :=
  access s.newAreas >>= fun new =>
  if force ∨ s.areas.screenarea = [] then .ok (new, true)
  else access (changedFrom s.areas 1 (new.drop 1)) >>= fun changed => .ok (new, changed)

/-- All windows are checked against the new areas. -/
def propagateAreas (new : List DesktopArea) (s : Workspace) : Except Stop Workspace :=
  s.allClients.foldlM (fun s w => self (.checkWorkspacePosition w none) s)
    { s with areas := .ofNew new, oldrestrictedmovearea := s.areas.restrictedmovearea } >>= fun s =>
  .ok { s with oldrestrictedmovearea := [] }

def updateClientArea (force : Bool) (s : Workspace) : Except Stop Workspace :=
  computeAreas force s >>= fun (new, changed) => if changed then propagateAreas self new s else .ok s

def callBody : Call → Workspace → Except Stop Workspace
  | .setDesktops win desktops => setDesktops p self win desktops
  | .setDesktop win desktop => setDesktop p self win desktop
  | .setOnAllDesktops win set => setOnAllDesktops self win set
  | .updateOnAllDesktopsOfTransients window => updateOnAllDesktopsOfTransients self window
  | .checkWorkspacePosition win oldDesktop => checkWorkspacePosition p self win oldDesktop
  | .sendClientToDesktop window desk => sendClientToDesktop p self window desk
  | .updateClientArea force => updateClientArea self force

def enterDesktop (win : Nat) (d : Address) (s : Workspace) : Except Stop Workspace :=
  if d ∈ s.desktops win then .ok s else self (.setDesktops win (s.desktops win ++ [d])) s

def leaveDesktop (win : Nat) (d : Address) (s : Workspace) : Except Stop Workspace :=
  let currentDesktops := if s.desktops win = [] then s.vds.desktops else s.desktops win
  if d ∉ currentDesktops then .ok s else self (.setDesktops win (currentDesktops.erase d)) s

/-! The handlers of the workspace. -/

/-- Which windows have to go when a desktop was removed. -/
def Setting.mustGo (d : Address) (s : Workspace) (w : Nat) : Prop :=
  if p.x11 then s.desktops w ≠ [] ∧ s.desktop w > s.vds.count else d ∈ s.desktops w

instance (d : Address) (s : Workspace) (w : Nat) : Decidable (p.mustGo d s w) := by
  unfold Setting.mustGo
  infer_instance

def moveAway (d : Address) (s : Workspace) (w : Nat) : Except Stop Workspace :=
  if ¬ p.mustGo d s w then .ok s
  else if p.x11 then self (.sendClientToDesktop w s.vds.count) s
  else if (s.desktops w).length > 1 then leaveDesktop self w d s
  else self (.sendClientToDesktop w (min (s.vds.heap d).x11DesktopNumber s.vds.count : Nat)) s

def desktopRemoved (d : Address) (s : Workspace) : Except Stop Workspace :=
  s.allClients.foldlM (moveAway p self d) s

def resetClientAreas (desktopCount : Nat) (s : Workspace) : Except Stop Workspace :=
  self (.updateClientArea true)
    { s with areas := ⟨List.replicate (desktopCount + 1) .null, List.replicate (desktopCount + 1) [], []⟩ }

def react (s : Workspace) : Signal → Except Stop Workspace
  | .desktopRemoved d => desktopRemoved p self d s
  | .countChanged _ newCount => resetClientAreas self newCount s
  | _ => .ok s

end bodies

/-- A call whose nested calls come back within the depth. -/
def perform (p : Setting) : Nat → Self := Lib.unroll .depth (callBody p)

/-- A request to the manager with the signals that it emits. -/
def respond (m : VirtualDesktopManager) : Op → Option (VirtualDesktopManager × List Signal)
  | .setCount count ids => some (m.setCount count ids)
  | .createVirtualDesktop position name id => some (m.createVirtualDesktop position name id)
  | .removeVirtualDesktop id => m.removeVirtualDesktop id
  | .setCurrent newDesktop => some (m.setCurrent newDesktop)
  | .setCurrentDesktop d => if d ∈ m.desktops then some (m.setCurrentDesktop d) else none
  | .setRows rows => some (m.setRows rows)
  | .updateLayout => if m.count = 0 then none else some m.updateLayout
  | .reportLayout info => some ({ m with rootInfo := info }, [])

/-- Everything of windows and screens that has nothing to do with desktops. -/
structure Arrangement where
  windows : Nat → Window
  allClients : List Nat
  waylandWindows : List Nat
  stacking : List Nat
  screens : Screens
  currentScreen : Nat

namespace Workspace
variable (s : Workspace)

/-- Windows come, go and change without the areas being updated. -/
def rearrange (a : Arrangement) : Workspace :=
  { s with
    windows := fun w => { a.windows w with desktops := s.desktops w }
    allClients := a.allClients
    waylandWindows := a.waylandWindows
    stacking := a.stacking
    screens := a.screens
    currentScreen := a.currentScreen }

/-- The removed desktops are deleted after a request. -/
def deleteRemoved (p : Setting) : Workspace :=
  { s with
    vds := { s.vds with heap := fun d =>
      if d ∈ s.vds.desktops then s.vds.heap d else { s.vds.heap d with x11DesktopNumber := p.freed d } } }

/-- The first workspace with desktops, before the first window. -/
def start (screens : Screens) (count : Nat) (ids : Nat → String) : Workspace where
  vds := ((VirtualDesktopManager.initial.setCount count ids).1.setCurrent 1).1
  windows _ := ⟨false, false, false, [], [], [], .without, .restored, ⟨.null, 0, 0⟩⟩
  allClients := []
  waylandWindows := []
  stacking := []
  screens := screens
  currentScreen := 0
  areas := .ofNew (initialAreas screens (VirtualDesktopManager.initial.setCount count ids).1.count)
  oldrestrictedmovearea := []

end Workspace

inductive Event
  | request (op : Op) (depth : Nat)
  | change (call : Call) (depth : Nat)
  | enterDesktop (win : Nat) (d : Address) (depth : Nat)
  | leaveDesktop (win : Nat) (d : Address) (depth : Nat)
  | rearrange (a : Arrangement)

/-- Windows are sent to desktops of the manager, and checked without another desktop given. -/
def Call.fits (s : Workspace) : Call → Bool
  | .setDesktops _ desktops => desktops.all (· ∈ s.vds.desktops)
  | .checkWorkspacePosition _ oldDesktop => oldDesktop.isNone
  | _ => true

section steps
variable (p : Setting)

def requested (op : Op) (depth : Nat) (s : Workspace) : Option (Except Stop Workspace) :=
  (respond s.vds op).map fun (vds, signals) =>
    signals.foldlM (react p (perform p depth)) { s with vds := vds } >>= fun s => .ok (s.deleteRemoved p)

def handle (s : Workspace) : Event → Option (Except Stop Workspace)
  | .request op depth => requested p op depth s
  | .change call depth => if call.fits s then some (perform p depth call s) else none
  | .enterDesktop win d depth => if d ∈ s.vds.desktops then some (enterDesktop (perform p depth) win d s) else none
  | .leaveDesktop win d depth => if d ∈ s.vds.desktops then some (leaveDesktop (perform p depth) win d s) else none
  | .rearrange a => some (.ok (s.rearrange a))

/-- For want of depth. -/
def unfinished : Except Stop Workspace → Bool
  | .error .depth => true
  | _ => false

/-- One event. Nothing follows an error, and no event is left unfinished. -/
def step (r : Except Stop Workspace) (e : Event) : Option (Except Stop Workspace) :=
  match r with
  | .error _ => none
  | .ok s => (handle p s e).filter fun r => !unfinished r

end steps
end KWinFT.DesktopAreas
