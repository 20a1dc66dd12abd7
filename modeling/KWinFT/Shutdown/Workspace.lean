import KWinFT.Lib.VectorLoop

/-! The end of the workspace: its windows are released or destroyed kind by kind. -/
namespace KWinFT.Shutdown
open Lib

/-- What `qobject_cast` and the queries of a window tell. -/
inductive Kind
  | x11
  | wayland
  | internal
  | unmanaged
  | remnant
deriving Repr, DecidableEq

structure Window where
  kind : Kind
  id : Nat
deriving Repr, DecidableEq

/-- The windows, the stack, the windows of the Wayland server (none without one), and what was deleted so far. -/
structure Workspace where
  windows : Vec Window
  stackingOrder : List Window
  waylandWindows : List Window
  deleted : List Window

namespace Workspace
variable (room : Nat → Nat) (w : Workspace) (x : Window)

/-- None where the window is not there any more. -/
def delete : Option Workspace := if x ∈ w.deleted then none else some { w with deleted := w.deleted ++ [x] }

def qobjectCast (kind : Kind) : Option Bool := if x ∈ w.deleted then none else some (x.kind = kind)

def removeWindow : Workspace := { w with windows := w.windows.removeAll x }

/-- `new Toplevel()`, at an address that is not in use. -/
def newRemnant : Window := ⟨.remnant, (w.windows.elements.map (·.id + 1)).foldr max 0⟩

/-- The stack has been cleared by then. -/
def addDeleted (remnant : Window) : Option Workspace :=
  if remnant ∈ w.windows.elements then none else some { w with windows := w.windows.pushBack room remnant }

def createRemnant : Option Workspace := w.addDeleted room w.newRemnant

/-- `release_window(true)`, which makes no remnant. -/
def releaseWindow : Option Workspace := w.delete x

/-- With `ReleaseReason::KWinShutsDown`. -/
def releaseUnmanaged : Option Workspace := w.delete x

/-- `InternalClient::destroyClient`. -/
def destroyClient : Option Workspace := (w.createRemnant room).bind fun w => (w.removeWindow x).delete x

/-- `WaylandServer::remove_window` with the handler of its signal. -/
def removeWaylandWindow : Workspace := { w with waylandWindows := w.waylandWindows.filter (· ≠ x) }.removeWindow x

/-- `win::wayland::window::destroy`. -/
def destroy : Option Workspace := (w.createRemnant room).bind fun w => (w.removeWaylandWindow x).delete x

def unmanagedList : List Window := w.windows.elements.filter (·.kind = .unmanaged)

/-- Over a copy of the stack. -/
def releaseWindows : Option Workspace :=
  w.stackingOrder.foldlM (fun w c => (w.qobjectCast c .x11).bind fun isX11 =>
    if isX11 then (w.releaseWindow c).map (·.removeWindow c) else some w) { w with stackingOrder := [] }

/-- Over a copy of the server's list. -/
def destroyWaylandWindows : Option Workspace :=
  w.waylandWindows.foldlM (fun w win => (w.destroy room win).map (·.removeWindow win)) w

def releaseUnmanagedWindows : Option Workspace :=
  w.unmanagedList.foldlM (fun w unmanaged => (w.releaseUnmanaged unmanaged).map (·.removeWindow unmanaged)) w

/-- What is done with each window in a loop over the windows themselves that is there for one kind. -/
def destroyIf (kind : Kind) (destroy : Window → Workspace → Option Workspace) (window : Window) (w : Workspace) :
    Option Workspace :=
  (w.qobjectCast window kind).bind fun isKind =>
    if isKind then (destroy window w).map (·.removeWindow window) else some w

def destroyInternal : Option Workspace :=
  Vec.forEach (·.windows) (destroyIf .internal fun internal w => w.destroyClient room internal) w

def destroyLeftWayland : Option Workspace :=
  Vec.forEach (·.windows) (destroyIf .wayland fun win w => w.destroy room win) w

/-- All loops of the destructor but the last one. -/
def releaseAll : Option Workspace :=
  w.releaseWindows.bind fun w => (w.destroyWaylandWindows room).bind fun w => w.releaseUnmanagedWindows.bind fun w =>
    (w.destroyInternal room).bind fun w => w.destroyLeftWayland room

/-- The last loop, with its assertion: it takes the first window from what is left, time and again. -/
def eraseRemnants : List Window → Option (List Window)
  | [] => some []
  | window :: rest => if window.kind = .remnant then eraseRemnants rest else none

end Workspace

/-- A workspace that is about to end: its lists are without duplicates, its X11 windows are in the stack, and the server's
windows are Wayland ones. -/
structure Running extends Workspace where
  windows_nodup : windows.elements.Nodup
  stackingOrder_nodup : stackingOrder.Nodup
  waylandWindows_nodup : waylandWindows.Nodup
  x11_mem_stackingOrder : ∀ x ∈ windows.elements, x.kind = .x11 → x ∈ stackingOrder
  waylandWindows_kind : ∀ x ∈ waylandWindows, x.kind = .wayland
  nothing_deleted : deleted = []

end KWinFT.Shutdown
