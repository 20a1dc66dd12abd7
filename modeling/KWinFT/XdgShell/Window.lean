import KWinFT.Geometry.Rect
import KWinFT.Lib.Runs

/-! Geometry of an xdg-shell toplevel: the compositor asks for a state with a numbered
configure event and applies it when the client commits after acknowledging that event. -/
namespace KWinFT.XdgShell
open KWinFT.Geometry

structure ConfigureEvent where
  serial : Nat
  frame : Rect
  maxMode : MaximizeMode
  fullscreen : Bool
deriving Repr, DecidableEq

structure GeometryUpdate where
  frame : Rect
  maxMode : MaximizeMode
  fullscreen : Bool
  block : Nat
  pending : Bool
deriving Repr, DecidableEq

structure SyncedGeometry where
  window : Rect
  maxMode : MaximizeMode
  fullscreen : Bool
deriving Repr, DecidableEq

/-- An interactive resize: where the window is held and the geometry aimed at. -/
structure MoveResize where
  contact : Position
  geometry : Rect
deriving Repr, DecidableEq

/-- A toplevel with what it shares with the client. `lastSerial` and `unacked` are the
server's side of the protocol; `history` and `applied` record all events of
`configureGeometry` and the serials whose state was applied, for the specification. -/
structure Window where
  geometryUpdate : GeometryUpdate
  syncedGeometry : SyncedGeometry
  pendingConfigures : List ConfigureEvent
  ackedConfigure : Nat
  frameGeometry : Rect
  maxMode : MaximizeMode
  fullscreen : Bool
  frameMargins : Margins
  clientFrameExtents : Margins
  moveResize : Option MoveResize
  plasmaShellSurface : Bool
  closing : Bool
  fullscreenRule : Option Bool
  lastSerial : Nat
  unacked : List Nat
  history : List ConfigureEvent
  applied : List Nat
deriving Repr, DecidableEq

/-- What a commit of the client carries. -/
structure Commit where
  windowGeometry : Rect
  windowMargins : Margins
deriving Repr, DecidableEq

namespace Window

/-- A toplevel before its first configure event. -/
def initial (fullscreenRule : Option Bool) (plasmaShellSurface : Bool) : Window where
  geometryUpdate := ⟨.null, .restore, false, 0, false⟩
  syncedGeometry := ⟨.null, .restore, false⟩
  pendingConfigures := []
  ackedConfigure := 0
  frameGeometry := .null
  maxMode := .restore
  fullscreen := false
  frameMargins := ⟨0, 0, 0, 0⟩
  clientFrameExtents := ⟨0, 0, 0, 0⟩
  moveResize := none
  plasmaShellSurface := plasmaShellSurface
  closing := false
  fullscreenRule := fullscreenRule
  lastSerial := 0
  unacked := []
  history := []
  applied := []

variable (w : Window)

/-- A rule that forces a fullscreen state, or no say of the rules. -/
def checkFullScreen (full : Bool) : Bool := w.fullscreenRule.getD full

/-- `frame_size`: what the borders add to the client's size. -/
def frameSize : Size :=
  ⟨w.frameMargins.left + w.frameMargins.right, w.frameMargins.top + w.frameMargins.bottom⟩

def needsConfigure : Bool :=
  if w.plasmaShellSurface then false
  else if w.geometryUpdate.maxMode ≠ w.syncedGeometry.maxMode then true
  else if w.geometryUpdate.fullscreen ≠ w.syncedGeometry.fullscreen then true
  else
    let refGeo := w.geometryUpdate.frame.subMargins w.frameMargins
    refGeo.isEmpty ∨ refGeo.size ≠ w.syncedGeometry.window.size

/-- The server sends a configure event under the given serial. -/
def send (serial : Nat) : Window :=
  { w with lastSerial := serial, unacked := w.unacked ++ [serial] }

def configureGeometry (frameGeo : Rect) (serial : Nat) : Window :=
  let windowGeo := if frameGeo.isValid then frameGeo.subMargins w.frameMargins else frameGeo
  let ce : ConfigureEvent :=
    ⟨serial, frameGeo, w.geometryUpdate.maxMode, w.geometryUpdate.fullscreen⟩
  { w.send serial with
    syncedGeometry := ⟨windowGeo, w.geometryUpdate.maxMode, w.geometryUpdate.fullscreen⟩
    pendingConfigures := w.pendingConfigures ++ [ce]
    history := w.history ++ [ce] }

/-- The configure event sent on activation changes and around interactive moves, of which
no record is kept. -/
def configure (serial : Nat) : Window :=
  if w.closing then w
  else if w.geometryUpdate.block ≠ 0 then w
  else w.send serial

def doSetGeometry (frameGeo : Rect) : Window :=
  if w.frameGeometry = frameGeo then w
  else
    { w with
      frameGeometry := frameGeo
      geometryUpdate :=
        if w.geometryUpdate.pending then w.geometryUpdate
        else { w.geometryUpdate with frame := w.geometryUpdate.frame.setSize frameGeo.size } }

def doSetMaximizeMode (mode : MaximizeMode) : Window := { w with maxMode := mode }

def doSetFullscreen (full : Bool) : Window := { w with fullscreen := w.checkFullScreen full }

/-- The last pending event moves along when only the position changes. -/
def moveLast (p : Point) : List ConfigureEvent → List ConfigureEvent
  | [] => []
  | [e] => [{ e with frame := e.frame.moveTo p }]
  | e :: es => e :: moveLast p es

def setFrameGeometry (frameGeo : Rect) (serial : Nat) : Window :=
  let w := { w with geometryUpdate := { w.geometryUpdate with frame := frameGeo } }
  if w.geometryUpdate.block ≠ 0 then
    { w with geometryUpdate := { w.geometryUpdate with pending := true } }
  else
    let w := { w with geometryUpdate := { w.geometryUpdate with pending := false } }
    if w.needsConfigure then w.configureGeometry frameGeo serial
    else if w.pendingConfigures ≠ [] then
      { w with pendingConfigures := moveLast frameGeo.topLeft w.pendingConfigures }
    else w.doSetGeometry frameGeo

def blockGeometryUpdates (block : Bool) (serial : Nat) : Window :=
  if block then
    { w with geometryUpdate := { w.geometryUpdate with block := w.geometryUpdate.block + 1 } }
  else
    let w := { w with geometryUpdate := { w.geometryUpdate with block := w.geometryUpdate.block - 1 } }
    if w.geometryUpdate.block = 0 ∧ w.geometryUpdate.pending then
      w.setFrameGeometry w.geometryUpdate.frame serial
    else w

/-- The loop over the pending events: the event whose serial was acknowledged, and the
events that stay pending behind it. -/
def matchAcked (acked : Nat) : List ConfigureEvent → Option (ConfigureEvent × List ConfigureEvent)
  | [] => none
  | e :: es =>
    if e.serial > acked then none
    else if e.serial = acked then some (e, es)
    else matchAcked acked es

/-- While the user resizes, the edges that are not held stay where they are. -/
def holdContact (frameGeo : Rect) : Rect :=
  match w.moveResize with
  | none => frameGeo
  | some op =>
    match op.contact with
    | .topLeft => (frameGeo.moveRight op.geometry.right).moveBottom op.geometry.bottom
    | .top | .topRight => (frameGeo.moveLeft op.geometry.left).moveBottom op.geometry.bottom
    | .right | .bottomRight | .bottom =>
      (frameGeo.moveLeft op.geometry.left).moveTop op.geometry.top
    | .bottomLeft | .left => (frameGeo.moveRight op.geometry.right).moveTop op.geometry.top
    | .center => frameGeo

/-- The state a commit puts into effect: that of the matched event, else the present one. -/
def applyState (position : Point) (maxMode : MaximizeMode) (fullscreen serialMatch : Bool)
    (c : Commit) : Window :=
  let frameGeo := Rect.ofPointSize position
    ⟨c.windowGeometry.width + w.frameSize.width, c.windowGeometry.height + w.frameSize.height⟩
  if frameGeo = w.frameGeometry ∧ ¬ serialMatch ∧ w.clientFrameExtents = c.windowMargins then w
  else
    let w :=
      if w.syncedGeometry.window.isValid then w
      else
        { w with
          syncedGeometry := { w.syncedGeometry with window := c.windowGeometry }
          geometryUpdate := { w.geometryUpdate with frame := frameGeo } }
    let w := { w with clientFrameExtents := c.windowMargins }
    (((w.doSetGeometry (w.holdContact frameGeo)).doSetFullscreen fullscreen).doSetMaximizeMode maxMode)

def applyPendingGeometry (c : Commit) : Window :=
  match matchAcked w.ackedConfigure w.pendingConfigures with
  | none => w.applyState w.frameGeometry.topLeft w.maxMode w.fullscreen false c
  | some (e, rest) =>
    { w with pendingConfigures := rest, applied := w.applied ++ [e.serial] }.applyState
      e.frame.topLeft e.maxMode e.fullscreen true c

def handleConfigureAck (serial : Nat) : Window := { w with ackedConfigure := serial }

/-- The client acknowledges a serial: every event sent up to it is reported in order. -/
def ack (serial : Nat) : Window :=
  let reported := w.unacked.takeWhile (· ≤ serial)
  reported.foldl handleConfigureAck { w with unacked := w.unacked.dropWhile (· ≤ serial) }

end Window

/-- What the compositor and the client do to one toplevel. A change of the wanted state
sets the modes first, as maximization and fullscreen do under their blockers. -/
inductive Event
  | update (maxMode : MaximizeMode) (fullscreen : Bool) (frame : Rect) (serial : Nat)
  | blockGeometryUpdates (block : Bool) (serial : Nat)
  | configureGeometry (frame : Rect) (serial : Nat)
  | configure (serial : Nat)
  | setMoveResize (op : Option MoveResize)
  | setFrameMargins (margins : Margins)
  | ack (serial : Nat)
  | commit (c : Commit)
deriving Repr, DecidableEq

/-- One event. Serials are issued in increasing order, and the client acknowledges a serial
it was sent and that is not older than its last one. -/
def step (w : Window) : Event → Option Window
  | .update maxMode fullscreen frame serial =>
    if w.lastSerial < serial then
      some ({ w with geometryUpdate := { w.geometryUpdate with
        maxMode := maxMode, fullscreen := fullscreen } }.setFrameGeometry frame serial)
    else none
  | .blockGeometryUpdates block serial =>
    if w.lastSerial < serial then some (w.blockGeometryUpdates block serial) else none
  | .configureGeometry frame serial =>
    if w.lastSerial < serial then some (w.configureGeometry frame serial) else none
  | .configure serial => if w.lastSerial < serial then some (w.configure serial) else none
  | .setMoveResize op => some { w with moveResize := op }
  | .setFrameMargins margins => some { w with frameMargins := margins }
  | .ack serial =>
    if serial ∈ w.unacked ∨ serial = w.ackedConfigure then some (w.ack serial) else none
  | .commit c => some (w.applyPendingGeometry c)

/-- The states of a toplevel in any interleaving of compositor and client. -/
def Reachable (fullscreenRule : Option Bool) (plasmaShellSurface : Bool) : Window → Prop :=
  Lib.Reachable step Lib.anyStep (.initial fullscreenRule plasmaShellSurface)

end KWinFT.XdgShell
