import Mathlib.Data.List.Basic
import KWinFT.Stacking.Constrained

/-! The stack without constraints and all that edits it: windows are raised, lowered and restacked, added, and replaced
by what remains of them. Updates of the constrained stack are blocked meanwhile. -/
namespace KWinFT.Stacking

/-- What the operations read of the windows. -/
structure Setting (α : Type*) where
  leads : α → List α
  control : α → Bool
  /-- Members of its group, if it has one. -/
  members : α → Option (List α)
  layer : α → Layer
  x11 : α → Bool
  belongToSameClient : α → α → Bool
  isSpecialWindow : α → Bool
  smStackingOrder : α → Int
  /-- The constrained stack, from the one without constraints and the previous one. -/
  constrainedStackingOrder : List α → List α → List α

structure Stack (α : Type*) where
  unconstrained : List α
  stackingOrder : List α
  /-- `m_windows`. -/
  windows : List α
  blockStackingUpdates : Int
  blockedPropagatingNewClients : Bool
  mostRecentlyRaised : Option α

variable {α : Type*} [DecidableEq α]

/-- In front of the first one that is asked for, or else at the end. -/
def insertBefore (p : α → Bool) (w : α) : List α → List α
  | [] => [w]
  | x :: xs => if p x then w :: x :: xs else x :: insertBefore p w xs

def insertAfter (other w : α) : List α → List α
  | [] => []
  | x :: xs => if x = other then x :: w :: xs else x :: insertAfter other w xs

namespace Stack
variable (e : Setting α) (s : Stack α)

def updateStackingOrder (propagateNewClients : Bool) : Stack α :=
  if s.blockStackingUpdates > 0 then
    { s with blockedPropagatingNewClients := propagateNewClients || s.blockedPropagatingNewClients }
  else { s with stackingOrder := e.constrainedStackingOrder s.unconstrained s.stackingOrder }

/-- A blocker is made. -/
def block : Stack α :=
  { s with
    blockedPropagatingNewClients := if s.blockStackingUpdates = 0 then false else s.blockedPropagatingNewClients
    blockStackingUpdates := s.blockStackingUpdates + 1 }

/-- A blocker goes. -/
def unblock : Stack α :=
  let s := { s with blockStackingUpdates := s.blockStackingUpdates - 1 }
  if s.blockStackingUpdates = 0 then s.updateStackingOrder e s.blockedPropagatingNewClients else s

def doLower (win : α) : Stack α :=
  let s := s.block
  { s with unconstrained := win :: removeAll win s.unconstrained }

def cleanup (win : α) : Stack α :=
  { s with mostRecentlyRaised := if s.mostRecentlyRaised = some win then none else s.mostRecentlyRaised }

/-- None where an assertion fails, here and below. -/
def lowerGroup (window : α) : Option (Stack α) :=
  match if (e.leads window).isEmpty then none else e.members window with
  | none => some s
  | some members =>
    (ensureStackingOrderInList s.stackingOrder members).reverse.foldlM (fun s gwin =>
      if gwin = window then some s
      else if e.control gwin then some (((s.doLower gwin).unblock e).cleanup gwin)
      else none) s

def lowerWindow (window : α) : Option (Stack α) :=
  if e.control window then do
    let s ← (s.doLower window).lowerGroup e window
    return (s.cleanup window).unblock e
  else none

def lowerClientWithinApplication (window : α) : Stack α :=
  let s := s.block
  let rest := removeAll window s.unconstrained
  let same (client : α) : Bool := e.belongToSameClient client window
  { s with unconstrained := if rest.any same then insertBefore same window rest else window :: rest }.unblock e

def doRaise (window : α) : Stack α :=
  { s with
    unconstrained := removeAll window s.unconstrained ++ [window]
    mostRecentlyRaised := if e.isSpecialWindow window then s.mostRecentlyRaised else some window }

end Stack

namespace Setting
variable (e : Setting α)

/-- The loop from a lead to the first lead of it and so on, that gives up after a number of rounds. -/
def climb : Nat → α → List α → Option (List α)
  | 0, _, _ => none
  | fuel + 1, lead, leads =>
    let leads := if lead ∈ leads then leads else leads ++ [lead]
    match (e.leads lead).head? with
    | none => some leads
    | some next => climb fuel next leads

def allLeads (fuel : Nat) (window : α) : Option (List α) :=
  (e.leads window).foldlM (fun leads lead => e.climb fuel lead leads) []

end Setting

namespace Stack
variable (e : Setting α) (s : Stack α)

def raiseWindow (fuel : Nat) (window : α) : Option (Stack α) :=
  if e.control window then do
    let s := s.block
    let leads ← e.allLeads fuel window
    let s := (ensureStackingOrderInList s.stackingOrder leads).foldl (fun s lead =>
      if e.control lead then (s.block.doRaise e lead).unblock e else s) s
    return (s.doRaise e window).unblock e
  else none

def raiseClientWithinApplication (window : α) : Stack α :=
  let s := s.block
  let s := match s.unconstrained.reverse.find? (fun other => other = window ∨ e.belongToSameClient other window) with
    | none => s
    | some other =>
      if other = window then s
      else { s with unconstrained := insertAfter other window (removeAll window s.unconstrained) }
  s.unblock e

def restack (window under : α) (force : Bool) : Option (Stack α) :=
  if under ∈ s.unconstrained then
    let under :=
      if ¬ force ∧ ¬ e.belongToSameClient under window then
        match s.unconstrained.find? fun other =>
            e.control other ∧ e.layer other = e.layer window ∧ e.belongToSameClient under other with
        | none => some under
        | some other => if window = other then none else some other
      else some under
    let s := match under with
      | none => s
      | some under => { s with unconstrained := insertBefore (· = under) window (removeAll window s.unconstrained) }
    if window ∈ s.unconstrained then some (s.updateStackingOrder e false) else none
  else none

def restoreSessionStackingOrder (c : α) : Stack α :=
  if e.smStackingOrder c < 0 then s
  else
    let s := s.block
    let above (current : α) : Bool := e.x11 current ∧ e.smStackingOrder current > e.smStackingOrder c
    { s with unconstrained := insertBefore above c (removeAll c s.unconstrained) }.unblock e

/-- What `addClient` and the handler of `window_added` do. -/
def addWindow (window : α) : Stack α :=
  { s with
    windows := s.windows ++ [window]
    unconstrained := if window ∈ s.unconstrained then s.unconstrained else s.unconstrained ++ [window]
    stackingOrder := if window ∈ s.stackingOrder then s.stackingOrder else s.stackingOrder ++ [window]
    }.updateStackingOrder e true

def addDeleted (c orig : α) : Option (Stack α) :=
  if c ∈ s.windows then none
  else some { s with
    windows := s.windows ++ [c]
    unconstrained := if orig ∈ s.unconstrained then s.unconstrained.replace orig c else s.unconstrained ++ [c]
    stackingOrder := if orig ∈ s.stackingOrder then s.stackingOrder.replace orig c else s.stackingOrder ++ [c] }

def removeDeleted (window : α) : Option (Stack α) :=
  if window ∈ s.windows then some { s with
    windows := removeAll window s.windows
    unconstrained := removeAll window s.unconstrained
    stackingOrder := removeAll window s.stackingOrder }
  else none

end Stack

inductive Op (α : Type*)
  | raise (fuel : Nat) (window : α)
  | lower (window : α)
  | raiseWithinApplication (window : α)
  | lowerWithinApplication (window : α)
  | restack (window under : α) (force : Bool)
  | restoreSession (window : α)
  | add (window : α)
  | addDeleted (remnant original : α)
  | removeDeleted (window : α)

def Stack.perform (e : Setting α) (s : Stack α) : Op α → Option (Stack α)
  | .raise fuel window => s.raiseWindow e fuel window
  | .lower window => s.lowerWindow e window
  | .raiseWithinApplication window => some (s.raiseClientWithinApplication e window)
  | .lowerWithinApplication window => some (s.lowerClientWithinApplication e window)
  | .restack window under force => s.restack e window under force
  | .restoreSession window => some (s.restoreSessionStackingOrder e window)
  | .add window => some (s.addWindow e window)
  | .addDeleted remnant original => s.addDeleted remnant original
  | .removeDeleted window => s.removeDeleted window

end KWinFT.Stacking
