import KWinFT.Lib.Dispatch
import KWinFT.Xwl.TransferXtoWl

/-! A selection that X and Wayland clients share: its source, of which there is at most one, and
independently of it the transfers in both directions. -/
namespace KWinFT.Xwl

abbrev Timestamp := Nat

/-- Asks the server for its own time. -/
def currentTime : Timestamp := 0

structure DataSource where
  id : Nat
  mimeTypes : List String
deriving Repr, DecidableEq

/-- A Wayland client's device, with the data that it has selected. -/
structure DataDevice where
  id : Nat
  selection : Option DataSource
deriving Repr, DecidableEq

structure WlSource where
  timestamp : Timestamp
  ddi : DataDevice
  dsi : Option DataSource
  offers : List String
deriving Repr, DecidableEq

def WlSource.setDataSourceIface (s : WlSource) (dsi : DataSource) : WlSource :=
  if s.dsi.map (·.id) = some dsi.id then s else { s with offers := s.offers ++ dsi.mimeTypes, dsi := some dsi }

structure X11Source where
  timestamp : Timestamp
  window : XWindow
  owner : XWindow
deriving Repr, DecidableEq

/-- The notification about a new owner. -/
structure XfixesNotify where
  window : XWindow
  selection : Atom
  owner : Option XWindow
  timestamp : Timestamp
deriving Repr, DecidableEq

/-- A request to the X server. -/
structure SetSelectionOwner where
  owner : Option XWindow
  selection : Atom
  time : Timestamp
deriving Repr, DecidableEq

structure Selection where
  atom : Atom
  window : XWindow
  timestamp : Timestamp
  waylandSource : Option WlSource
  xSource : Option X11Source
  wlToXTransfers : List TransferWltoX
  xToWlTransfers : List TransferXtoWl
  disownPending : Bool
deriving Repr, DecidableEq

/-- What comes from where: from a source, or from a transfer. -/
inductive SelectionOutput
  | handleTargets
  | xToWl (window : XWindow) (output : XtoWlOutput)
  | wlToX (request : SelectionRequest) (output : Output)
deriving Repr, DecidableEq

/-- Who returned true for an event. -/
inductive Taker
  | xSource
  | xToWl (transfer : TransferXtoWl)
  | wlToX (transfer : TransferWltoX)
deriving Repr, DecidableEq

/-- Whether the source takes the event, and whether it reads the targets then. -/
def X11Source.handleSelectionNotify (s : X11Source) (atom : Atom) (event : SelectionNotify) : Bool × Bool :=
  if event.requestor ≠ s.window then (false, false)
  else if event.selection ≠ atom then (false, false)
  else if event.property = atomNone then (true, false)
  else if event.target = .targets then (true, true)
  else (false, false)

/-- A transfer that is finished is deleted. -/
def TransferXtoWl.kept (t : TransferXtoWl) (r : TransferXtoWl × List XtoWlOutput) :
    List TransferXtoWl × List SelectionOutput :=
  (if r.2.contains .finished then [] else [r.1], r.2.map (.xToWl t.window))

def TransferWltoX.kept (t : TransferWltoX) (r : TransferWltoX × List Output) :
    List TransferWltoX × List SelectionOutput :=
  (if r.2.contains .finished then [] else [r.1], r.2.map (.wlToX t.request))

namespace Selection
variable (σ : Selection)

def setWlSource (source : Option WlSource) : Selection := { σ with waylandSource := source, xSource := none }

def createX11Source (event : Option XfixesNotify) : Selection :=
  let σ := { σ with waylandSource := none, xSource := none }
  match event with
  | none => σ
  | some event =>
    match event.owner with
    | none => σ
    | some owner => { σ with xSource := some ⟨event.timestamp, σ.window, owner⟩ }

def ownSelection (own : Bool) : Selection × SetSelectionOwner :=
  if own then (σ, ⟨some σ.window, σ.atom, currentTime⟩)
  else ({ σ with disownPending := true }, ⟨none, σ.atom, σ.timestamp⟩)

/-- `doHandleXfixesNotify` is what the kind of selection does with a claim of another window. -/
def handleXfixesNotify (doHandleXfixesNotify : Selection → XfixesNotify → Selection) (event : XfixesNotify) :
    Bool × Selection :=
  if event.window ≠ σ.window then (false, σ)
  else if event.selection ≠ σ.atom then (false, σ)
  else if σ.disownPending then (true, { σ with disownPending := false })
  else
    match σ.waylandSource with
    | some source =>
      if event.owner = some σ.window then
        (true, { σ with
          waylandSource := some { source with timestamp := event.timestamp }
          timestamp := event.timestamp })
      else (true, doHandleXfixesNotify σ event)
    | none => (true, doHandleXfixesNotify σ event)

section events
variable (env : Conventions) (reply : XWindow → Option PropertyValue) (room : XWindow → Option Nat)

/-- `reply` is what the properties of the transfers' windows hold, and `room` what fits into their pipes. -/
def xToWlPropertyNotify (event : PropertyNotify) (t : TransferXtoWl) :
    Bool × Option (List TransferXtoWl × List SelectionOutput) :=
  (t.handlePropertyNotify env event (reply t.window) (room t.window)).map id fun r => r.map t.kept

def xToWlSelectionNotify (event : SelectionNotify) (t : TransferXtoWl) :
    Bool × Option (List TransferXtoWl × List SelectionOutput) :=
  (t.handleSelectionNotify env event (reply t.window) (room t.window)).map id fun r => r.map t.kept

def wlToXPropertyNotify (event : PropertyNotify) (t : TransferWltoX) :
    Bool × Option (List TransferWltoX × List SelectionOutput) :=
  (t.handlePropertyNotify event).map id fun r => r.map t.kept

def handleSelectionNotify (event : SelectionNotify) : Option Taker × Option (Selection × List SelectionOutput) :=
  match σ.xSource.map fun source => source.handleSelectionNotify σ.atom event with
  | some (true, targets) => (some .xSource, some (σ, if targets then [.handleTargets] else []))
  | _ =>
    let r := Lib.dispatch (xToWlSelectionNotify env reply room event) σ.xToWlTransfers
    (r.1.map .xToWl, r.2.map fun (ts, out) => ({ σ with xToWlTransfers := ts }, out))

def handlePropertyNotify (event : PropertyNotify) : Option Taker × Option (Selection × List SelectionOutput) :=
  let r := Lib.dispatch (xToWlPropertyNotify env reply room event) σ.xToWlTransfers
  match r.1 with
  | some t => (some (.xToWl t), r.2.map fun (ts, out) => ({ σ with xToWlTransfers := ts }, out))
  | none =>
    let q := Lib.dispatch (wlToXPropertyNotify event) σ.wlToXTransfers
    (q.1.map .wlToX, r.2.bind fun (ts, out) => q.2.map fun (us, out') =>
      ({ σ with xToWlTransfers := ts, wlToXTransfers := us }, out ++ out'))

end events

/-- The transfer makes a window of its own. -/
def startTransferToWayland (window : XWindow) : Selection :=
  { σ with xToWlTransfers := σ.xToWlTransfers ++ [.start σ.atom window] }

def startTransferToX (request : SelectionRequest) : Selection :=
  { σ with wlToXTransfers := σ.wlToXTransfers ++ [.start request] }

end Selection
end KWinFT.Xwl
