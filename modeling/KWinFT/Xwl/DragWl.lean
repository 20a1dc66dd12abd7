import Mathlib.Data.BitVec
import KWinFT.Xwl.Selection

/-! The visit of a Wayland drag to an X window. Wayland events and the replies of the window both drive it:
a position is sent only after the last one was answered, and a drop waits for that answer. -/
namespace KWinFT.Xwl

/-- A point in the sixteen bit coordinates that a message has room for. -/
structure Position where
  x : BitVec 16
  y : BitVec 16
deriving Repr, DecidableEq

/-- Both coordinates in one word. The second one is extended with its sign. -/
def Position.word (p : Position) : BitVec 32 := (p.x.signExtend 32 <<< 16) ||| p.y.signExtend 32

/-- How a target reads the word. -/
def Position.decode (word : BitVec 32) : Position := ⟨word.extractLsb' 16 16, word.extractLsb' 0 16⟩

inductive DnDAction
  | none
  | copy
  | move
  | ask
deriving Repr, DecidableEq

/-- A set of actions. -/
structure DnDActions where
  copy : Bool
  move : Bool
  ask : Bool
deriving Repr, DecidableEq

namespace DnDActions

def empty : DnDActions := ⟨false, false, false⟩

/-- The flag of no action is set in the empty set only. -/
def testFlag (actions : DnDActions) : DnDAction → Bool
  | .none => actions = empty
  | .copy => actions.copy
  | .move => actions.move
  | .ask => actions.ask

end DnDActions

/-- The atoms for actions; asking is not supported. -/
inductive ActionAtom
  | none
  | copy
  | move
  | ask
  | other (atom : Atom)
deriving Repr, DecidableEq

def atomToClientAction : ActionAtom → DnDAction
  | .copy => .copy
  | .move => .move
  | .none | .ask | .other _ => .none

def clientActionToAtom : DnDAction → ActionAtom
  | .copy => .copy
  | .move => .move
  | .none | .ask => .none

/-- The messages to a target. The enter message has the first types, and all of them are in a property if
there are more. -/
inductive XdndMessage
  | enter (version : Nat) (types : List Atom) (typeList : Option (List Atom))
  | position (word : BitVec 32) (action : ActionAtom)
  | leave
  | drop
deriving Repr, DecidableEq

structure Xvisit where
  target : XWindow
  version : Nat
  enterConnection : Bool
  motionConnection : Bool
  actionConnection : Bool
  dropConnection : Bool
  pending : Bool
  cached : Bool
  cache : Position
  dataOffer : Bool
  supportedActions : DnDActions
  preferredAction : DnDAction
  proposedAction : DnDAction
  entered : Bool
  dropped : Bool
  finished : Bool
  accepts : Bool
deriving Repr, DecidableEq

namespace Xvisit

/-- The version of the protocol that is spoken here. -/
def dndVersion : Nat := 5

/-- A visit before its target is asked. -/
def blank (target : XWindow) : Xvisit :=
  ⟨target, 0, false, false, false, false, false, false, ⟨0, 0⟩, false, .empty, .none, .none, false, false, false,
    false⟩

variable (v : Xvisit)

def stopConnections : Xvisit :=
  { v with enterConnection := false, dropConnection := false, motionConnection := false, actionConnection := false }

def doFinish : Xvisit := { v with finished := true, cached := false }.stopConnections

/-- `aware` is the version that the target announces, if it does. -/
def create (target : XWindow) (aware : Option Nat) : Xvisit :=
  match aware with
  | none => (blank target).doFinish
  | some value =>
    let v := { blank target with version := min value dndVersion }
    if v.version < 1 then v.doFinish else { v with enterConnection := true, dropConnection := true }

def sendPosition (globalPos : Position) : Xvisit × List XdndMessage :=
  if v.pending then ({ v with cache := globalPos, cached := true }, [])
  else ({ v with pending := true }, [.position globalPos.word (clientActionToAtom v.proposedAction)])

/-- `mimeTypes` are the atoms of the source's types; a type without an atom is left out. -/
def sendEnter (mimeTypes : List Atom) : List XdndMessage :=
  [.enter v.version ((mimeTypes.take 3).filter (· ≠ atomNone))
    (if mimeTypes.length > 3 then some (mimeTypes.filter (· ≠ atomNone)) else none)]

def sendDrop : Xvisit × List XdndMessage := (if v.version < 2 then v.doFinish else v, [.drop])

def sendLeave : List XdndMessage := [.leave]

/-- The preferred action if it is supported, else to copy if that is. -/
def proposal : DnDAction :=
  if v.supportedActions.testFlag v.preferredAction then v.preferredAction
  else if v.supportedActions.testFlag .copy then .copy
  else .none

/-- A new proposal is told to the target together with the position of the pointer. -/
def determineProposedAction (pointerPos : Position) : Xvisit × List XdndMessage :=
  if v.proposedAction ≠ v.proposal then { v with proposedAction := v.proposal }.sendPosition pointerPos
  else ({ v with proposedAction := v.proposal }, [])

def retrieveSupportedActions (actions : DnDActions) (pointerPos : Position) : Xvisit × List XdndMessage :=
  { v with supportedActions := actions }.determineProposedAction pointerPos

def enter (mimeTypes : List Atom) (pointerPos : Position) : Xvisit × List XdndMessage :=
  let v := { v with entered := true }
  let r := v.sendPosition pointerPos
  ({ r.1 with motionConnection := true }, v.sendEnter mimeTypes ++ r.2)

def receiveOffer (mimeTypes : List Atom) (actions : DnDActions) (pointerPos : Position) :
    Xvisit × List XdndMessage :=
  if v.finished then (v, [])
  else
    let r := { v with dataOffer := true }.retrieveSupportedActions actions pointerPos
    let q := { r.1 with actionConnection := true }.enter mimeTypes pointerPos
    (q.1, r.2 ++ q.2)

def leave : Xvisit × List XdndMessage :=
  if v.finished then (v, []) else (v.doFinish, if v.entered then sendLeave else [])

def drop : Xvisit × List XdndMessage :=
  let v := { v with dropped := true }.stopConnections
  if ¬ v.entered then (v, [])
  else if v.pending then (v, [])
  else if ¬ v.accepts then (v.doFinish, sendLeave)
  else v.sendDrop

/-- Whether the event was taken, and what became of the visit. -/
def handleStatus (window : XWindow) (accepts : Bool) (actionAtom : ActionAtom) (pointerPos : Position) :
    Bool × Xvisit × List XdndMessage :=
  if window ≠ v.target then (false, v, [])
  else
    let v := { v with accepts := accepts, pending := false }
    let r := if ¬ v.dropped then
        { v with preferredAction := atomToClientAction actionAtom }.determineProposedAction pointerPos
      else (v, [])
    let q := if r.1.cached then { r.1 with cached := false }.sendPosition r.1.cache
      else if r.1.dropped then r.1.drop
      else (r.1, [])
    (true, q.1, r.2 ++ q.2)

def handleFinished (window : XWindow) : Bool × Xvisit :=
  if window ≠ v.target then (false, v)
  else if ¬ v.dropped then (true, v.doFinish)
  else (true, { v with dataOffer := false }.doFinish)

end Xvisit

/-- A visit with the pointer, the messages to the target and its replies. `dropPos` is where the pointer was at the
drop and `places` where it was at each position message, or at the drop for those that are sent after it; a visit is
gone when the drag went to another target. -/
structure DragWorld where
  visit : Xvisit
  gone : Bool
  pointer : Position
  dropPos : Option Position
  sent : List XdndMessage
  places : List Position
  statuses : Nat
  finishedReply : Bool
deriving Repr, DecidableEq

def isPosition : XdndMessage → Bool
  | .position _ _ => true
  | _ => false

def isEnter : XdndMessage → Bool
  | .enter _ _ _ => true
  | _ => false

namespace DragWorld
variable (w : DragWorld)

def start (target : XWindow) (aware : Option Nat) (pointer : Position) : DragWorld :=
  ⟨.create target aware, false, pointer, none, [], [], 0, false⟩

/-- The positions that the target received after it was entered. -/
def received : List XdndMessage := (w.sent.dropWhile (!isEnter ·)).filter isPosition

def take (r : Xvisit × List XdndMessage) : DragWorld :=
  { w with
    visit := r.1
    sent := w.sent ++ r.2
    places := w.places ++ r.2.filterMap fun m => if isPosition m then w.dropPos.getD w.pointer else none }

end DragWorld

/-- Wayland events, and the replies of the target. -/
inductive DragEvent
  | dragEntered (actions : DnDActions)
  | actionsChanged (actions : DnDActions)
  | motion (pos : Position)
  | dropped
  | targetChange
  | status (accepts : Bool) (action : ActionAtom)
  | finished
deriving Repr, DecidableEq

/-- One event. Signals arrive while they are connected; the offer of a visit is set once, and after a drop the drag
has ended and does not change its target. The target answers each position that it received after it was
entered once, and a drop once. -/
def dragStep (mimeTypes : List Atom) (w : DragWorld) : DragEvent → Option DragWorld
  | .dragEntered actions =>
    if ¬ w.gone ∧ w.visit.enterConnection ∧ ¬ w.visit.dataOffer then
      some (w.take (w.visit.receiveOffer mimeTypes actions w.pointer))
    else none
  | .actionsChanged actions =>
    if ¬ w.gone ∧ w.visit.actionConnection then some (w.take (w.visit.retrieveSupportedActions actions w.pointer))
    else none
  | .motion pos =>
    let w := { w with pointer := pos }
    if ¬ w.gone ∧ w.visit.motionConnection then some (w.take (w.visit.sendPosition pos)) else some w
  | .dropped =>
    if ¬ w.gone ∧ w.visit.dropConnection then some ({ w with dropPos := some w.pointer }.take w.visit.drop)
    else none
  | .targetChange =>
    if ¬ w.gone ∧ ¬ w.visit.dropped then some ({ w with gone := true }.take w.visit.leave) else none
  | .status accepts action =>
    if w.statuses < w.received.length then
      let w := { w with statuses := w.statuses + 1 }
      if w.gone then some w
      else some (w.take (w.visit.handleStatus w.visit.target accepts action w.pointer).2)
    else none
  | .finished =>
    if .drop ∈ w.sent ∧ ¬ w.finishedReply then
      let w := { w with finishedReply := true }
      if w.gone then some w else some { w with visit := (w.visit.handleFinished w.visit.target).2 }
    else none

end KWinFT.Xwl
