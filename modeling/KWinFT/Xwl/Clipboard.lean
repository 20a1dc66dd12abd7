import KWinFT.Lib.Runs
import KWinFT.Xwl.Selection

/-! The clipboard, and the X server that keeps its owner. Requests to the server and its notifications are
under way for any time, in order. -/
namespace KWinFT.Xwl

structure Clipboard where
  selection : Selection
  checkConnection : Bool
deriving Repr, DecidableEq

namespace Clipboard
variable (dataDeviceIface : Nat) (xwaylandActive : Bool)

/-- The clipboard is taken over only while an Xwayland window is active. -/
def doHandleXfixesNotify (σ : Selection) (event : XfixesNotify) : Selection :=
  let σ := σ.createX11Source none
  if ¬ xwaylandActive then σ else σ.createX11Source (some event)

variable (c : Clipboard)

def removeSource : Clipboard × List SetSelectionOwner :=
  if c.selection.waylandSource.isSome then
    let r := (c.selection.setWlSource none).ownSelection false
    ({ c with selection := r.1 }, [r.2])
  else (c, [])

/-- `seat` is the selection of the seat; `dataDeviceIface` is the device that stands for Xwayland. -/
def checkWlSource (seat : Option DataDevice) : Clipboard × List SetSelectionOwner :=
  match seat with
  | none => removeSource { c with checkConnection := false }
  | some ddi =>
    if dataDeviceIface = ddi.id then removeSource { c with checkConnection := false }
    else if ¬ xwaylandActive then c.removeSource
    else if c.selection.waylandSource.isSome then (c, [])
    else
      let wls : WlSource := ⟨currentTime, ddi, none, []⟩
      let wls := match ddi.selection with
        | some dsi => wls.setDataSourceIface dsi
        | none => wls
      let r := (c.selection.setWlSource (some wls)).ownSelection true
      ({ c with selection := r.1 }, [r.2])

def wlSelectionChanged (ddi seat : Option DataDevice) : Clipboard × List SetSelectionOwner :=
  let c := match ddi with
    | none => c
    | some ddi =>
      if ddi.id ≠ dataDeviceIface then
        { c with checkConnection := true, selection := c.selection.setWlSource none }
      else c
  c.checkWlSource dataDeviceIface xwaylandActive seat

end Clipboard

/-- The owner of the clipboard, when it last changed, and the time. -/
structure XServer where
  owner : Option XWindow
  lastChange : Timestamp
  clock : Timestamp
deriving Repr, DecidableEq

/-- A request that is older than the last change, or from the future, has no effect. -/
def XServer.setSelectionOwner (x : XServer) (request : SetSelectionOwner) : Option XServer :=
  let time := if request.time = currentTime then x.clock else request.time
  if x.lastChange ≤ time ∧ time ≤ x.clock then some { x with owner := request.owner, lastChange := time } else none

/-- KWin with the selection of its seat, the server, and what is under way from one to the other. -/
structure ClipboardWorld where
  clipboard : Clipboard
  seat : Option DataDevice
  server : XServer
  requests : List SetSelectionOwner
  notifications : List XfixesNotify
deriving Repr, DecidableEq

namespace ClipboardWorld
variable (w : ClipboardWorld)

/-- Nobody owns the clipboard at first. The time stamp of a selection has no initial value. -/
def start (atom : Atom) (window : XWindow) (timestamp clock : Timestamp) : ClipboardWorld :=
  ⟨⟨⟨atom, window, timestamp, none, none, [], [], false⟩, false⟩, none, ⟨none, 0, clock⟩, [], []⟩

/-- Nothing is under way. -/
def Quiet : Prop := w.requests = [] ∧ w.notifications = []

instance : Decidable w.Quiet := inferInstanceAs (Decidable (_ ∧ _))

/-- The server handles a request, and tells KWin about a new owner. -/
def serve (request : SetSelectionOwner) : ClipboardWorld :=
  match w.server.setSelectionOwner request with
  | none => w
  | some server =>
    { w with
      server := server
      notifications := w.notifications ++
        [⟨w.clipboard.selection.window, w.clipboard.selection.atom, server.owner, server.clock⟩] }

def send (r : Clipboard × List SetSelectionOwner) : ClipboardWorld :=
  { w with clipboard := r.1, requests := w.requests ++ r.2 }

end ClipboardWorld

/-- The Wayland selection changes, another window is activated, the server handles the next request of KWin or
one of another client, time goes by, or KWin handles the next notification. -/
inductive ClipboardEvent
  | wlSelectionChanged (ddi : Option DataDevice)
  | clientActivated
  | serve
  | foreign (owner : Option XWindow) (time : Timestamp)
  | tick (time : Nat)
  | notify
deriving Repr, DecidableEq

/-- One event, while an Xwayland window is active. -/
def clipboardStep (dataDeviceIface : Nat) (w : ClipboardWorld) : ClipboardEvent → Option ClipboardWorld
  | .wlSelectionChanged ddi =>
    some ({ w with seat := ddi }.send (w.clipboard.wlSelectionChanged dataDeviceIface true ddi ddi))
  | .clientActivated =>
    if w.clipboard.checkConnection then some (w.send (w.clipboard.checkWlSource dataDeviceIface true w.seat))
    else some w
  | .serve =>
    match w.requests with
    | [] => none
    | request :: requests => some ({ w with requests := requests }.serve request)
  | .foreign owner time =>
    if owner = some w.clipboard.selection.window then none
    else some (w.serve ⟨owner, w.clipboard.selection.atom, time⟩)
  | .tick time => some { w with server := { w.server with clock := w.server.clock + time } }
  | .notify =>
    match w.notifications with
    | [] => none
    | event :: notifications =>
      some { w with
        notifications := notifications
        clipboard := { w.clipboard with
          selection := (w.clipboard.selection.handleXfixesNotify (Clipboard.doHandleXfixesNotify true) event).2 } }

end KWinFT.Xwl
