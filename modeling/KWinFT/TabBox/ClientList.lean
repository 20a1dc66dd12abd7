import KWinFT.Focus.Integrity
import KWinFT.Lib.Loops

/-! The list of windows that the switcher offers: windows are looked at along the focus chain or the stack, some stand
for others, and a few are rearranged in the end. -/
namespace KWinFT.TabBox
open Focus

inductive ClientSwitchingMode
  | focusChain
  | stackingOrder
deriving Repr, DecidableEq

inductive ClientApplicationsMode
  | allWindowsAllApplications
  | oneWindowPerApplication
  | allWindowsCurrentApplication
deriving Repr, DecidableEq

/-- The modes for desktops, activities, minimized windows and screens: all windows, or those with a property or without
it. -/
inductive ClientMode
  | all
  | only
  | exclude
deriving Repr, DecidableEq

def ClientMode.allows (mode : ClientMode) (property : Bool) : Bool :=
  match mode with
  | .all => true
  | .only => property
  | .exclude => !property

/-- The configuration and what the handler asks other classes. -/
structure Handler where
  chain : FocusChain
  /-- The windows of the stacking order that have a control. -/
  stackingOrder : List Window
  activeClient : Option Window
  desktopClient : Option Window
  switchingMode : ClientSwitchingMode
  applicationsMode : ClientApplicationsMode
  desktopMode : ClientMode
  activitiesMode : ClientMode
  minimizedMode : ClientMode
  multiScreenMode : ClientMode
  showDesktopClient : Bool
  /-- `tabBoxMode` is for clients. Otherwise `clientList` is empty. -/
  clientTabBox : Bool
  isOnDesktop : Window → Int → Bool
  isOnCurrentActivity : Window → Bool
  isMinimized : Window → Bool
  isOnCurrentScreen : Window → Bool
  wantsTabFocus : Window → Bool
  skipSwitcher : Window → Bool
  belongToSameClient : Window → Window → Bool
  findModal : Window → Option Window
  hasControl : Window → Bool
  isFirstInTabBox : Window → Bool

namespace Handler
variable (h : Handler) (desktop : Int)

def checkDesktop (client : Window) : Bool := h.desktopMode.allows (h.isOnDesktop client desktop)

def checkActivity (client : Window) : Bool := h.activitiesMode.allows (h.isOnCurrentActivity client)

def checkMinimized (client : Window) : Bool := h.minimizedMode.allows (h.isMinimized client)

def checkMultiScreen (client : Window) : Bool := h.multiScreenMode.allows (h.isOnCurrentScreen client)

def checkApplications (clientList : List Window) (current : Window) : Bool :=
  match h.applicationsMode with
  | .oneWindowPerApplication => clientList.all fun c => !h.belongToSameClient c current
  | .allWindowsCurrentApplication => h.activeClient.any fun c => h.belongToSameClient c current
  | .allWindowsAllApplications => true

/-- A modal dialog that stands for the window. -/
def dialog (current : Window) : Option Window :=
  (h.findModal current).filter fun modal => h.hasControl modal ∧ modal ≠ current

def clientToAddToList (clientList : List Window) (client : Option Window) : Option Window :=
  match client with
  | none => none
  | some current =>
    if h.checkDesktop desktop current ∧ h.checkActivity current ∧ h.checkApplications clientList current ∧
        h.checkMinimized current ∧ h.checkMultiScreen current ∧ h.wantsTabFocus current ∧ ¬ h.skipSwitcher current then
      match h.dialog current with
      | none => some current
      | some modal => if modal ∈ clientList then none else some modal
    else none

/-- `m_clientList` and the clients to be put first. -/
structure Listed where
  clientList : List Window
  stickyClients : List Window
deriving Repr, DecidableEq

/-- `clientList()`, asked for meanwhile. -/
def known (l : Listed) : List Window := if h.clientTabBox then l.clientList else []

def addClient (l : Listed) (clientList : List Window) (add : Window) : Listed :=
  ⟨clientList ++ [add], if h.isFirstInTabBox add then l.stickyClients ++ [add] else l.stickyClients⟩

def chainRound (l : Listed) (c : Option Window) : Listed :=
  match h.clientToAddToList desktop (h.known l) c with
  | none => l
  | some add => h.addClient l l.clientList add

/-- The body of the loop along the chain. -/
def chainBody (stop : Option Window) (s : Option Window × Listed) : (Option Window × Listed) × Bool :=
  let l := h.chainRound desktop s.2 s.1
  let c := s.1.bind h.chain.nextMostRecentlyUsed
  ((c, l), c.isSome ∧ c ≠ stop)

/-- Where the loop along the chain begins. -/
def first (start : Option Window) : Option Window :=
  if start.any fun c => c ∈ h.chain.mostRecentlyUsed then start
  else h.chain.mostRecentlyUsed.head?.or start

def stackRound (start : Option Window) (l : Listed) (c : Window) : Listed :=
  match h.clientToAddToList desktop (h.known l) (some c) with
  | none => l
  | some add =>
    if start = some add then h.addClient l (removeAll add l.clientList) add else h.addClient l l.clientList add

/-- The loop over the stack. -/
def stackLoop (start : Option Window) (stop : Window) : List Window → Listed → Listed
  | [], l => l
  | c :: rest, l =>
    let l := h.stackRound desktop start l c
    if rest.head? = some stop then l else stackLoop start stop rest l

/-- The clients in the order in which they are added. None where the stack is empty, or the loop along the chain takes
longer. -/
def addClients (fuel : Nat) (start : Option Window) : Option Listed :=
  match h.switchingMode with
  | .focusChain =>
    (Lib.doWhile (h.chainBody desktop (h.first start)) fuel (h.first start, ⟨[], []⟩)).map Prod.snd
  | .stackingOrder =>
    match h.stackingOrder with
    | [] => none
    | stop :: rest => some (h.stackLoop desktop start stop (stop :: rest) ⟨[], []⟩)

def moveSticky (l : Listed) : List Window :=
  l.stickyClients.foldl (fun clientList c => removeAll c clientList ++ [c]) l.clientList

/-- The entry for the desktop, if the list is empty without. -/
def desktopEntry (isEmpty : Bool) : List Window :=
  if h.applicationsMode ≠ .allWindowsCurrentApplication ∧ (h.showDesktopClient ∨ isEmpty) then h.desktopClient.toList
  else []

/-- The weak pointer to the first client of the list before may be null. -/
def start (partialReset : Bool) (previous : List (Option Window)) : Option Window :=
  if partialReset then (previous.head?.getD none).or h.activeClient else h.activeClient

def createClientList (fuel : Nat) (partialReset : Bool) (previous : List (Option Window)) : Option (List Window) := do
  let l ← h.addClients desktop fuel (h.start partialReset previous)
  let clientList := moveSticky l
  return clientList ++ h.desktopEntry clientList.isEmpty

end Handler

end KWinFT.TabBox
