import KWinFT.Lib.Runs
import KWinFT.VirtualDesktops.Manager
import KWinFT.Focus.Chains

/-! The workspace between the virtual desktop manager and the focus chains: windows hold
desktop objects, and the signals of the manager reach the windows and the chains. -/
namespace KWinFT.Focus
open VirtualDesktops

inductive OperationMode
  | x11
  | waylandOnly
  | xwayland
deriving Repr, DecidableEq

/-- What is fixed during a run: the mode, the kind of each window, which windows belong to
one application, and the rules on the desktop of a window. -/
structure Setup where
  operationMode : OperationMode
  wantsTabFocus : Window → Bool
  belongToSameClient : Window → Window → Bool
  belongToSameClient_refl : ∀ w, belongToSameClient w w
  checkDesktop : Window → Int → Int

/-- `entered` records the windows that were handed to `FocusChain::update`. -/
structure Workspace where
  manager : VirtualDesktopManager
  focusChain : FocusChain
  allClients : List Window
  desktops : Window → List Address
  entered : List Window

def Workspace.initial : Workspace := ⟨.initial, .initial, [], fun _ => [], []⟩

/-- The number that stands for all desktops. -/
def onAllDesktops : Int := -1

namespace Workspace
variable (env : Setup) (s : Workspace)

def desktop (w : Window) : Int :=
  match (s.desktops w).getLast? with
  | none => onAllDesktops
  | some d => (s.manager.heap d).x11DesktopNumber

def isOnAllDesktops (w : Window) : Bool :=
  match env.operationMode with
  | .x11 => s.desktop w = onAllDesktops
  | .waylandOnly | .xwayland => (s.desktops w).isEmpty

def isOnDesktop (w : Window) (d : Nat) : Bool :=
  (match env.operationMode with
    | .x11 => decide (s.desktop w = d)
    | .waylandOnly | .xwayland => (s.manager.desktopForX11Id d).any (s.desktops w).contains) ||
  s.isOnAllDesktops env w

def toplevel (w : Window) : Toplevel :=
  ⟨env.wantsTabFocus w, s.isOnAllDesktops env w, s.isOnDesktop env w⟩

/-- `FocusChain::update` on a window. -/
def update (w : Window) (change : Change) : Workspace :=
  { s with
    focusChain := s.focusChain.update w (s.toplevel env w) change
    entered := w :: s.entered }

/-- `set_desktops` on the window itself. Windows that follow it are changed in their turn. -/
def setDesktops (w : Window) (desktops : List Address) : Workspace :=
  -- On X11 a window is on one desktop at a time.
  let desktops :=
    if env.operationMode = .x11 ∧ desktops.length > 1 then desktops.getLast?.toList else desktops
  if desktops = s.desktops w then s
  else update env { s with desktops := Function.update s.desktops w desktops } w .makeFirst

/-- A rule that names no desktop would put a null pointer among those of the window. -/
def setDesktop (w : Window) (desktop : Int) : Option Workspace :=
  let desktopsCount : Int := s.manager.count
  let desktop := if desktop ≠ onAllDesktops then max 1 (min desktopsCount desktop) else desktop
  let desktop := min desktopsCount (env.checkDesktop w desktop)
  if desktop = onAllDesktops then some (s.setDesktops env w [])
  else (s.manager.desktopForX11Id (toUInt desktop)).map fun d => s.setDesktops env w [d]

def leaveDesktop (w : Window) (virtualDesktop : Address) : Workspace :=
  let currentDesktops := if (s.desktops w).isEmpty then s.manager.desktops else s.desktops w
  if virtualDesktop ∉ currentDesktops then s
  else s.setDesktops env w (currentDesktops.erase virtualDesktop)

/-- The part of `sendClientToDesktop` that moves the window. -/
def sendClientToDesktop (w : Window) (desk : Int) : Option Workspace :=
  if (desk < 1 ∧ desk ≠ onAllDesktops) ∨ desk > s.manager.count then some s
  else s.setDesktop env w desk

end Workspace

/-- What happens to windows and their focus outside of the manager. -/
inductive WindowStep
  | setDesktops (w : Window) (desktops : List Address)
  | update (w : Window) (change : Change)
  | moveAfterClient (w reference : Window)
  | setActiveClient (w : Option Window)

/-- Windows are managed ones and are put on desktops of the manager. -/
def windowStep (env : Setup) (s : Workspace) : WindowStep → Option Workspace
  | .setDesktops w desktops =>
    if w ∈ s.allClients ∧ ∀ d ∈ desktops, d ∈ s.manager.desktops then some (s.setDesktops env w desktops)
    else none
  | .update w change => if w ∈ s.allClients then some (s.update env w change) else none
  | .moveAfterClient w reference =>
    if w ≠ reference then
      some { s with
        focusChain := s.focusChain.moveAfterClient env.belongToSameClient w (s.toplevel env w) reference }
    else none
  | .setActiveClient w => some { s with focusChain := s.focusChain.setActiveClient w }

/-- How the window side answers signals: focus moves when the current desktop changed, and
a window that was sent away is restacked and takes its transients along. -/
structure Reactions where
  currentChanged : List WindowStep
  sent : Window → List WindowStep

/-- One window in the handler of `desktopRemoved`. -/
def sendAway (env : Setup) (reactions : Reactions) (desktop : Address) (s : Workspace) (w : Window) :
    Option Workspace :=
  let react (s' : Workspace) := Lib.execute (windowStep env) s' (reactions.sent w)
  match env.operationMode with
  | .waylandOnly | .xwayland =>
    if desktop ∉ s.desktops w then some s
    else if (s.desktops w).length > 1 then react (s.leaveDesktop env w desktop)
    else (s.sendClientToDesktop env w
      (min (s.manager.heap desktop).x11DesktopNumber s.manager.count : Nat)).bind react
  | .x11 =>
    if ¬ s.isOnAllDesktops env w ∧ s.desktop w > s.manager.count then
      (s.sendClientToDesktop env w s.manager.count).bind react
    else some s

/-- The receivers of one signal of the manager. -/
def deliver (env : Setup) (reactions : Reactions) (s : Workspace) : Signal → Option Workspace
  | .currentChanged _ newDesktop =>
    Lib.execute (windowStep env) { s with focusChain := s.focusChain.setCurrentDesktop newDesktop }
      reactions.currentChanged
  | .desktopRemoved desktop => s.allClients.foldlM (sendAway env reactions desktop) s
  | .countChanged previousCount newCount =>
    some { s with focusChain := s.focusChain.resize previousCount newCount }
  | .desktopCreated _ | .layoutChanged _ _ | .rowsChanged _ => some s

/-- A request to the manager with the signals it emits. -/
def request (m : VirtualDesktopManager) : Op → Option (VirtualDesktopManager × List Signal)
  | .setCount count ids => some (m.setCount count ids)
  | .createVirtualDesktop position name id => some (m.createVirtualDesktop position name id)
  | .removeVirtualDesktop id => m.removeVirtualDesktop id
  | .setCurrent newDesktop => some (m.setCurrent newDesktop)
  | .setCurrentDesktop d => if d ∈ m.desktops then some (m.setCurrentDesktop d) else none
  | .setRows rows => some (m.setRows rows)
  | .updateLayout => if m.count = 0 then none else some m.updateLayout
  | .reportLayout info => some ({ m with rootInfo := info }, [])

inductive Event
  | manage (op : Op) (reactions : Reactions)
  | window (step : WindowStep)
  | addClient (w : Window) (desktops : List Address)
  | removeClient (w : Window)

/-- One event. A new window is on desktops of the manager, on X11 on at most one. -/
def step (env : Setup) (s : Workspace) : Event → Option Workspace
  | .manage op reactions =>
    (request s.manager op).bind fun (manager, signals) =>
      signals.foldlM (deliver env reactions) { s with manager := manager }
  | .window ws => windowStep env s ws
  | .addClient w desktops =>
    if w ∉ s.allClients ∧ (∀ d ∈ desktops, d ∈ s.manager.desktops) ∧
        (env.operationMode = .x11 → desktops.length ≤ 1) then
      some { s with
        allClients := s.allClients ++ [w]
        desktops := Function.update s.desktops w desktops }
    else none
  | .removeClient w =>
    some { s with
      allClients := removeAll w s.allClients
      focusChain := s.focusChain.remove w
      entered := removeAll w s.entered }

end KWinFT.Focus
