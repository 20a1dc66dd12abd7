import KWinFT.Lib.Traversal
import KWinFT.Stacking.InOrder
import Mathlib.Logic.Function.Basic

/-! The stacking order that respects layers and transients. Windows are sorted into layers first;
then the children that have to stay above a lead are taken out and put right above it. -/
namespace KWinFT.Stacking

inductive Layer
  | desktop
  | below
  | normal
  | dock
  | above
  | notification
  | active
  | criticalNotification
  | onScreenDisplay
  | unmanaged
deriving Repr, DecidableEq

namespace Layer

def all : List Layer :=
  [desktop, below, normal, dock, above, notification, active, criticalNotification, onScreenDisplay, unmanaged]

/-- The value of the enumerator, counted from the first layer. -/
def index (l : Layer) : Nat := all.idxOf l

end Layer

/-- What decides if a child is kept above its lead. The last three are known of remnants only. -/
structure Kind where
  annexed : Bool
  splash : Bool
  dialog : Bool
  modal : Bool
  groupTransient : Bool
  dock : Bool
  wasX11Client : Bool
  wasGroupTransient : Bool
  wasActive : Bool
deriving Repr, DecidableEq

namespace Kind

def plain : Kind := ⟨false, false, false, false, true, false, false, false, false⟩

def keepTransientAbove (mainwindow transient : Kind) : Bool :=
  if transient.annexed then true
  else if transient.splash && mainwindow.dialog then false
  else if transient.dialog && !transient.modal && transient.groupTransient then false
  else !mainwindow.dock

def keepDeletedTransientAbove (mainWindow transient : Kind) : Bool :=
  if transient.splash && mainWindow.dialog then false
  else if transient.wasX11Client then
    if transient.wasGroupTransient && transient.wasActive then true
    else if transient.wasGroupTransient && transient.dialog && !transient.modal then false
    else !mainWindow.dock
  else true

end Kind

/-- The windows as this function sees them. The two predicates that keep a child above its lead may
be any, as nothing else depends on them. -/
structure Workspace (α : Type*) where
  layer : α → Layer
  screen : α → Nat
  x11 : α → Bool
  group : α → Option Nat
  remnant : α → Bool
  leads : α → List α
  children : α → List α
  keepTransientAbove : α → α → Bool
  keepDeletedTransientAbove : α → α → Bool
  unconstrained : List α
  stackingOrder : List α

namespace Workspace
variable {α : Type*} [DecidableEq α] (ws : Workspace α)

/-- A window goes to its layer, unless one of its group on the same screen was put into the active
layer before: then it goes there too. Only X11 windows start the record of a group. -/
def layered : (Nat × Option Nat → Option Layer) → List α → List (α × Layer)
  | _, [] => []
  | minimum, w :: rest =>
    let key := (ws.screen w, if ws.x11 w then ws.group w else none)
    match minimum key with
    | some low =>
      let l := if low = .active ∧ Layer.below.index < (ws.layer w).index then .active else ws.layer w
      (w, l) :: layered (Function.update minimum key (some l)) rest
    | none =>
      (w, ws.layer w) ::
        layered (if ws.x11 w then Function.update minimum key (some (ws.layer w)) else minimum) rest

def windowLayers : List (α × Layer) := ws.layered (fun _ => none) ws.unconstrained

def preliminaryStack : List α :=
  Layer.all.flatMap fun l => (ws.windowLayers.filter (·.2 = l)).map Prod.fst

/-- Tells if a transient child should be restacked directly above its lead. -/
def childRestack (lead child : α) : Bool :=
  if (ws.layer lead).index < (ws.layer child).index then false
  else if ws.remnant child then ws.keepDeletedTransientAbove lead child
  else ws.keepTransientAbove lead child

def ensureStackingOrder (list : List α) : List α := ensureStackingOrderInList ws.stackingOrder list

/-- The children that are restacked, in the order of the current stack. -/
def kids (w : α) : List α := (ws.ensureStackingOrder (ws.children w)).filter (ws.childRestack w)

/-- `append_children`. Each child is taken out of the list that was handed in, but its own children
only out of the one that is built; without an answer when the descent is longer than `fuel`. -/
def appendChildren : Nat → α → List α → Option (List α)
  | 0, _, _ => none
  | fuel + 1, w, list =>
    ((ws.kids w).foldlM (fun (acc : List α × List α) child =>
      (appendChildren fuel child (acc.2 ++ [child])).map fun stacked =>
        (acc.1.filter (· ≠ child), stacked)) (list, [])).map fun acc => acc.1 ++ acc.2

/-- Some lead has the window put above it. -/
def pulled (w : α) : Bool := (ws.leads w).any fun lead => ws.childRestack lead w

/-- The windows that stay where their layer puts them. -/
def roots : List α := ws.preliminaryStack.filter fun w => !ws.pulled w

/-- Fails if a window is in the stack already when its turn comes. The descent is bounded; windows may have children
that are not in the order yet. -/
def constrainedStackingOrderWithin (fuel : Nat) : Option (List α) :=
  ws.preliminaryStack.foldlM (fun stack w =>
    if ws.pulled w then some stack
    else if w ∈ stack then none
    else ws.appendChildren fuel w (stack ++ [w])) []

def constrainedStackingOrder : Option (List α) := ws.constrainedStackingOrderWithin ws.unconstrained.length

end Workspace
end KWinFT.Stacking
