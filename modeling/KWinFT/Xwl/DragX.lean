import KWinFT.Xwl.DragWl

/-! The drag of an X client over Wayland windows. Each window is a visit with a proxy window of its own; a visit that
was left stays until the X client leaves the proxy window too. -/
namespace KWinFT.Xwl

abbrev Mimes := List (String × Atom)

/-- The atoms of types, and the names of all others. -/
structure AtomNames where
  utf8String : Atom
  text : Atom
  uriList : Atom
  netscapeUrl : Atom
  mozUrl : Atom
  atomName : Atom → String

def atomToMimeTypes (names : AtomNames) (atom : Atom) : List String :=
  if atom = names.utf8String then ["text/plain;charset=utf-8"]
  else if atom = names.text then ["text/plain"]
  else if atom = names.uriList ∨ atom = names.netscapeUrl ∨ atom = names.mozUrl then ["text/uri-list", "text/x-uri"]
  else [names.atomName atom]

def hasMimeName (mimes : Mimes) (name : String) : Bool := mimes.any (·.1 = name)

/-- The types of an atom that are not there yet are appended. -/
def addMimes (names : AtomNames) (offers : Mimes) (atom : Atom) : Mimes :=
  (atomToMimeTypes names atom).foldl (fun offers mime =>
    if hasMimeName offers mime then offers else offers ++ [(mime, atom)]) offers

/-- The types of an enter message: three of them in it, or a property of the source that may be missing. -/
inductive EnterTypes
  | direct (first second third : Atom)
  | property (reply : Option (List Atom))
deriving Repr, DecidableEq

def EnterTypes.offers (names : AtomNames) : EnterTypes → Mimes
  | .direct first second third => [first, second, third].foldl (addMimes names) []
  | .property reply => (reply.getD []).foldl (addMimes names) []

/-- The messages of the X client to a proxy window. -/
inductive XdndRequest
  | enter (srcWindow : XWindow) (version : Nat) (types : EnterTypes)
  | position (srcWindow : XWindow) (timestamp : Timestamp) (action : ActionAtom)
  | drop (srcWindow : XWindow) (timestamp : Timestamp)
  | leave (srcWindow : XWindow)
deriving Repr, DecidableEq

/-- The messages back. -/
inductive XdndReply
  | status (srcWindow window : XWindow) (accepts : Bool) (action : ActionAtom)
  | finished (srcWindow window : XWindow) (accepted : Bool) (action : ActionAtom)
deriving Repr, DecidableEq

inductive SurfaceClient
  | xwayland
  | wayland
deriving Repr, DecidableEq

/-- A window under the pointer. -/
structure DropTarget where
  id : Nat
  surface : Option SurfaceClient
deriving Repr, DecidableEq

/-- A visit of a window. `checks` and `deletes` are the slots that its end is connected to. -/
structure WlVisit where
  target : DropTarget
  window : XWindow
  srcWindow : XWindow
  version : Nat
  actionAtom : ActionAtom
  action : DnDAction
  mapped : Bool
  entered : Bool
  dropHandled : Bool
  finished : Bool
  checks : Bool
  deletes : Bool
deriving Repr, DecidableEq

inductive VisitSignal
  | offersReceived (offers : Mimes)
  | finish
deriving Repr, DecidableEq

namespace WlVisit

def create (target : DropTarget) (window : XWindow) : WlVisit :=
  ⟨target, window, 0, 0, .none, .none, true, false, false, false, false, false⟩

variable (v : WlVisit)

def unmapProxyWindow : WlVisit := { v with mapped := false }

def doFinish : WlVisit := { v with finished := true }.unmapProxyWindow

/-- Whether the visit is finished is returned. -/
def leave : WlVisit × Bool := (v.unmapProxyWindow, v.finished)

def handleEnter (names : AtomNames) (srcWindow : XWindow) (version : Nat) (types : EnterTypes) :
    WlVisit × Option VisitSignal :=
  if v.entered then (v, none)
  else ({ v with entered := true, srcWindow := srcWindow, version := version },
    some (.offersReceived (types.offers names)))

def handleDrop (srcWindow : XWindow) : WlVisit × Option VisitSignal :=
  ({ v with dropHandled := true, srcWindow := srcWindow }.doFinish, some .finish)

def handleLeave (srcWindow : XWindow) : WlVisit × Option VisitSignal :=
  ({ v with entered := false, srcWindow := srcWindow }.doFinish, some .finish)

/-- The action of a position message; to copy is always possible. -/
def positionAction (actionAtom : ActionAtom) : DnDAction × ActionAtom :=
  let actionAtom := if v.version > 1 then actionAtom else .copy
  if atomToClientAction actionAtom = .none then (.copy, .copy) else (atomToClientAction actionAtom, actionAtom)

def setAction (srcWindow : XWindow) (action : DnDAction × ActionAtom) : WlVisit :=
  { v with
    srcWindow := srcWindow
    action := action.1
    actionAtom := if v.action = action.1 then v.actionAtom else action.2 }

/-- `selected` is the action that the Wayland side selected. -/
def targetAcceptsAction (selected : DnDAction) : Bool :=
  v.action ≠ .none ∧ (selected = v.action ∨ selected = .copy)

def sendStatus (selected : DnDAction) : XdndReply :=
  .status v.srcWindow v.window (v.targetAcceptsAction selected)
    (if v.targetAcceptsAction selected then v.actionAtom else .none)

def sendFinished : XdndReply :=
  let accepted := v.entered ∧ v.action ≠ .none
  .finished v.srcWindow v.window accepted (if accepted then v.actionAtom else .none)

end WlVisit

/-- The end of a drag, with what was known then. -/
structure DragFinish where
  visit : Option WlVisit
  dataRequests : List (Timestamp × Bool)
  timedOut : Bool
deriving Repr, DecidableEq

/-- A drag. `timestamp` and `sourceOffers` are members of its X source; `selectedAction`, `actions` and `offered` belong
to its data source, `offered` being the types that were offered and not announced yet; `dragTarget` is the seat's.
A drag that ended is not `current`, and its owner deletes it when it finishes. -/
structure XToWlDrag where
  offers : Mimes
  offersPending : Mimes
  timestamp : Timestamp
  sourceOffers : Mimes
  dataRequests : List (Timestamp × Bool)
  visit : Option WlVisit
  oldVisits : List WlVisit
  performed : Bool
  lastSelectedDragAndDropAction : DnDAction
  selectedAction : DnDAction
  actions : DnDAction
  offered : List String
  dragTarget : Option DropTarget
  current : Bool
  timer : Bool
  finishes : List DragFinish
  deleted : Bool
  nextWindow : XWindow
  sent : List XdndReply
deriving Repr, DecidableEq

/-- Elements that fulfil the predicate are moved behind the others, and the first one of them is erased. There is
none to erase at the end of the vector. -/
def eraseRemoved {α : Type} (p : α → Bool) (l : List α) : Option (List α) :=
  let kept := l.filter fun a => !p a
  if kept.length = l.length then none else some (kept ++ l.drop (kept.length + 1))

namespace XToWlDrag

def create (timestamp : Timestamp) (nextWindow : XWindow) : XToWlDrag :=
  ⟨[], [], timestamp, [], [], none, [], false, .none, .none, .none, [], none, true, false, [], false, nextWindow, []⟩

variable (d : XToWlDrag)

/-- Fails without a visit, as everything does that uses a null pointer. -/
def setDragTarget : Option XToWlDrag := d.visit.map fun v => { d with dragTarget := some v.target }

def setOffers (offers : Mimes) : Option XToWlDrag :=
  let d := { d with sourceOffers := offers }
  if offers = [] then d.setDragTarget
  else if d.offers = offers then d.setDragTarget
  else some { d with offersPending := offers, offers := offers, offered := d.offered ++ offers.map Prod.fst }

def offerCallback (mime : String) : Option XToWlDrag :=
  (eraseRemoved (fun m => m.1 = mime) d.offersPending).bind fun pending =>
    let d := { d with offersPending := pending }
    if pending = [] ∧ d.visit.any (·.entered) then d.setDragTarget else some d

/-- The present visit is left, and kept if the X client did not leave it. -/
def leaveVisit : XToWlDrag :=
  match d.visit with
  | none => d
  | some v =>
    if v.leave.2 then { d with visit := none }
    else { d with visit := none, oldVisits := d.oldVisits ++ [{ v.leave.1 with deletes := true }] }

/-- After the old visit was left: a Wayland window is a new visit, all others are left to X. -/
def arrive (hasCurrent : Bool) (target : DropTarget) : XToWlDrag :=
  if target.surface = some .wayland then
    { d with visit := some (.create target d.nextWindow), nextWindow := d.nextWindow + 1 }
  else { d with dragTarget := if hasCurrent then none else d.dragTarget }

/-- Without a target its control is read nevertheless. -/
def moveFilter (target : Option DropTarget) : Option XToWlDrag :=
  if d.visit.any fun v => some v.target = target then some d
  else target.map (d.leaveVisit.arrive d.visit.isSome)

def emitFinish (timedOut : Bool) : XToWlDrag :=
  { d with
    finishes := d.finishes ++ [⟨d.visit, d.dataRequests, timedOut⟩]
    deleted := d.deleted || !d.current }

def checkForFinished : XToWlDrag :=
  match d.visit with
  | none => d.emitFinish false
  | some v =>
    if ¬ v.finished then d
    else if d.dataRequests = [] then d
    else if d.dataRequests.all (·.2) then { d with sent := d.sent ++ [v.sendFinished] }.emitFinish false
    else d

def dragAndDropPerformed : XToWlDrag :=
  let d := { d with performed := true }
  match d.visit with
  | none => d.checkForFinished
  | some v => { d with visit := some { v with checks := true }, timer := true }.checkForFinished

/-- Two seconds after the drop the X client or the Wayland client may not have answered. -/
def expire (v : WlVisit) : XToWlDrag :=
  if ¬ v.entered ∨ ¬ v.dropHandled then d.emitFinish true
  else if d.dataRequests = [] then { d with sent := d.sent ++ [v.sendFinished] }.emitFinish true
  else d

def timeout : Option XToWlDrag := d.visit.map { d with timer := false }.expire

/-- A request for data; one for a type that is not offered is dropped. -/
def startTransfer (mimeName : String) : XToWlDrag :=
  if hasMimeName d.sourceOffers mimeName then { d with dataRequests := d.dataRequests ++ [(d.timestamp, false)] } else d

/-- The first open request of that time is done. -/
def markDone (eventTime : Timestamp) : List (Timestamp × Bool) → Option (List (Timestamp × Bool))
  | [] => none
  | r :: rs => if r = (eventTime, false) then some ((eventTime, true) :: rs) else (markDone eventTime rs).map (r :: ·)

def transferFinished (eventTime : Timestamp) : XToWlDrag :=
  match markDone eventTime d.dataRequests with
  | none => d
  | some requests => { d with dataRequests := requests }.checkForFinished

/-- The action selected last before the drop. -/
def selectedDragAndDropAction : DnDAction :=
  if d.performed then d.lastSelectedDragAndDropAction else d.selectedAction

def handlePosition (v : WlVisit) (srcWindow : XWindow) (timestamp : Timestamp) (actionAtom : ActionAtom) :
    XToWlDrag × WlVisit :=
  let action := v.positionAction actionAtom
  let v' := v.setAction srcWindow action
  ({ d with
    timestamp := timestamp
    actions := if v.action = action.1 then d.actions else action.1
    lastSelectedDragAndDropAction := d.selectedDragAndDropAction
    sent := d.sent ++ [v'.sendStatus d.selectedDragAndDropAction] }, v')

/-- What a visit does with a message. -/
def visitMessage (names : AtomNames) (v : WlVisit) : XdndRequest → XToWlDrag × WlVisit × Option VisitSignal
  | .enter srcWindow version types => (d, v.handleEnter names srcWindow version types)
  | .position srcWindow timestamp action =>
    let r := d.handlePosition v srcWindow timestamp action
    (r.1, r.2, none)
  | .drop srcWindow timestamp => ({ d with timestamp := timestamp }, v.handleDrop srcWindow)
  | .leave srcWindow => (d, v.handleLeave srcWindow)

/-- The slots of the drag for the signals of a visit. -/
def signalled (v : WlVisit) : Option VisitSignal → Option XToWlDrag
  | none => some d
  | some (.offersReceived offers) => d.setOffers offers
  | some .finish =>
    let d := if v.checks then d.checkForFinished else d
    some (if v.deletes then { d with oldVisits := d.oldVisits.eraseP (·.window = v.window) } else d)

def setOldVisit (v : WlVisit) : XToWlDrag :=
  { d with oldVisits := d.oldVisits.map fun u => if u.window = v.window then v else u }

def handleClientMessage (names : AtomNames) (window : XWindow) (message : XdndRequest) : Option XToWlDrag :=
  match d.oldVisits.find? (·.window = window) with
  | some v =>
    let r := d.visitMessage names v message
    (r.1.setOldVisit r.2.1).signalled r.2.1 r.2.2
  | none =>
    match d.visit with
    | some v =>
      if v.window = window then
        let r := d.visitMessage names v message
        { r.1 with visit := some r.2.1 }.signalled r.2.1 r.2.2
      else some d
    | none => some d

end XToWlDrag

inductive XDragEvent
  | moveFilter (target : Option DropTarget)
  | clientMessage (window : XWindow) (message : XdndRequest)
  | announce (mime : String)
  | actionSelected (action : DnDAction)
  | endDrag
  | dropPerformed
  | dropFinished
  | startTransfer (mimeName : String)
  | transferFinished (eventTime : Timestamp)
  | timeout
deriving Repr, DecidableEq

/-- One event of a drag that was not deleted. The pointer is followed until the drag ends, and it is performed once
after that. There is no drag after a null pointer was used. -/
def xDragStep (names : AtomNames) (s : Option XToWlDrag) (event : XDragEvent) : Option (Option XToWlDrag) :=
  s.bind fun d =>
    if d.deleted then none
    else match event with
      | .moveFilter target => if d.current then some (d.moveFilter target) else none
      | .clientMessage window message => some (d.handleClientMessage names window message)
      | .announce mime =>
        if mime ∈ d.offered then some ({ d with offered := d.offered.erase mime }.offerCallback mime) else none
      | .actionSelected action => some (some { d with selectedAction := action })
      | .endDrag => if d.current then some (some { d with current := false }) else none
      | .dropPerformed => if ¬ d.current ∧ ¬ d.performed then some (some d.dragAndDropPerformed) else none
      | .dropFinished => if d.performed then some (some d.checkForFinished) else none
      | .startTransfer mimeName => some (some (d.startTransfer mimeName))
      | .transferFinished eventTime => some (some (d.transferFinished eventTime))
      | .timeout => if d.timer then some d.timeout else none

end KWinFT.Xwl
