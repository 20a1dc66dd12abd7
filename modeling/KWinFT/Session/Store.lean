import KWinFT.Geometry.Rect
import Mathlib.Data.Rat.Defs

/-! The saved session: the windows that are written to the config under running numbers, and the entries that windows get
back when they reappear. -/
namespace KWinFT.Session
open KWinFT.Geometry

/-- A character of texts that the config returns as they were written. -/
structure AsciiChar where
  code : Nat
  range : 0 < code ∧ code < 128
deriving DecidableEq

namespace AsciiChar

private theorem toLower_range (c : AsciiChar) (h : 65 ≤ c.code ∧ c.code ≤ 90) :
    0 < c.code + 32 ∧ c.code + 32 < 128 := by omega

def toLower (c : AsciiChar) : AsciiChar :=
  if h : 65 ≤ c.code ∧ c.code ≤ 90 then ⟨c.code + 32, toLower_range c h⟩ else c

end AsciiChar

abbrev Text := List AsciiChar

/-- `NET::WindowType`. -/
inductive WindowType
  | unknown | normal | desktop | dock | toolbar | menu | dialog | override | topMenu | utility | splash
  | dropdownMenu | popupMenu | tooltip | notification | comboBox | dndIcon | onScreenDisplay | criticalNotification
deriving DecidableEq, Repr

namespace WindowType

/-- The types that are saved. -/
def upToSplash : List WindowType :=
  [unknown, normal, desktop, dock, toolbar, menu, dialog, override, topMenu, utility, splash]

def windowTypeNames : List String :=
  ["Unknown", "Normal" , "Desktop", "Dock", "Toolbar", "Menu", "Dialog", "Override", "TopMenu", "Utility", "Splash"]

/-- Other types are fatal. -/
def windowTypeToTxt (type : WindowType) : Option String := (upToSplash.zip windowTypeNames).lookup type

/-- Other texts are undefined. -/
def txtToWindowType (txt : String) : Option WindowType := (windowTypeNames.zip upToSplash).lookup txt

end WindowType

/-- How a window is identified in a later session. -/
structure Identification where
  sessionId : Text
  windowRole : Text
  wmCommand : Text
  resourceName : Text
  resourceClass : Text
deriving DecidableEq

/-- The part of an entry that is given back to the window. -/
structure SavedState where
  geometry : Rect
  restore : Rect
  fsrestore : Rect
  maximized : Int
  fullscreen : Int
  desktop : Int
  minimized : Bool
  opacity : ℚ
  onAllDesktops : Bool
  keepAbove : Bool
  keepBelow : Bool
  skipTaskbar : Bool
  skipPager : Bool
  skipSwitcher : Bool
  noBorder : Bool
  shortcut : String
  stackingOrder : Int
  activities : List String
deriving DecidableEq

/-- A managed window. -/
structure Client where
  window : Nat
  isX11 : Bool
  active : Bool
  windowType : WindowType
  identification : Identification
  /-- The class is kept in lower case. -/
  lower : identification.resourceClass.map AsciiChar.toLower = identification.resourceClass
  clientGeometry : Rect
  maximizeRestore : Rect
  maximizeMode : Int
  fullscreen : Bool
  desktop : Int
  minimized : Bool
  opacity : ℚ
  onAllDesktops : Bool
  keepAbove : Bool
  keepBelow : Bool
  originalSkipTaskbar : Bool
  skipPager : Bool
  skipSwitcher : Bool
  userNoBorder : Bool
  shortcut : String
  stackingIndex : Int
  activities : List String
deriving DecidableEq

/-- What the config has under one number. -/
structure ConfigEntry where
  identification : Identification
  windowType : String
  state : SavedState

/-- The config group, with the numbers that are kept between the phases. -/
structure SessionStore where
  count : Option Int := none
  active : Option Int := none
  desktop : Option Int := none
  entries : Nat → Option ConfigEntry := fun _ => none
  sessionActiveClient : Int := -1
  sessionDesktop : Int := 0

inductive SMSavePhase
  | phase0 | phase2 | phase2Full
deriving DecidableEq, Repr

/-- Windows of menus, tooltips and the like are not saved, and neither are those without a session id or a command. -/
def Client.isSaved (c : Client) : Bool :=
  c.isX11 && c.windowType ∈ WindowType.upToSplash &&
    !(c.identification.sessionId.isEmpty && c.identification.wmCommand.isEmpty)

/-- The restore geometry of fullscreen is that of maximizing, too. -/
def Client.savedState (c : Client) : SavedState where
  geometry := c.clientGeometry
  restore := c.maximizeRestore
  fsrestore := c.maximizeRestore
  maximized := c.maximizeMode
  fullscreen := if c.fullscreen then 1 else 0
  desktop := c.desktop
  minimized := c.minimized
  opacity := c.opacity
  onAllDesktops := c.onAllDesktops
  keepAbove := c.keepAbove
  keepBelow := c.keepBelow
  skipTaskbar := c.originalSkipTaskbar
  skipPager := c.skipPager
  skipSwitcher := c.skipSwitcher
  noBorder := c.userNoBorder
  shortcut := c.shortcut
  stackingOrder := c.stackingIndex
  activities := c.activities

namespace SessionStore

def storeClient (entries : Nat → Option ConfigEntry) (num : Nat) (c : Client) : Nat → Option ConfigEntry :=
  fun n => if n = num then
    some ⟨c.identification, c.windowType.windowTypeToTxt.getD "", c.savedState⟩ else entries n

/-- The variables of the loop over all windows. -/
structure Loop where
  count : Nat := 0
  activeClient : Int := -1
  entries : Nat → Option ConfigEntry

def Loop.visit (phase : SMSavePhase) (l : Loop) (c : Client) : Loop :=
  if !c.isSaved then l
  else
    let count := l.count + 1
    { count
      activeClient := if c.active then count else l.activeClient
      entries := if phase ≠ .phase0 then storeClient l.entries count c else l.entries }

def storeSession (phase : SMSavePhase) (clients : List Client) (current : Int) (s : SessionStore) : SessionStore :=
  let l := clients.foldl (Loop.visit phase) { entries := s.entries }
  let s := { s with entries := l.entries }
  match phase with
  | .phase0 => { s with sessionActiveClient := l.activeClient, sessionDesktop := current }
  | .phase2 => { s with count := some l.count, active := some s.sessionActiveClient, desktop := some s.sessionDesktop }
  | .phase2Full => { s with count := some l.count, active := some s.sessionActiveClient, desktop := some current }

end SessionStore

/-- An entry of the loaded session, with its number. -/
structure SessionInfo where
  number : Nat
  identification : Identification
  /-- None for undefined. -/
  windowType : Option WindowType
  state : SavedState
  active : Bool
deriving DecidableEq

/-- What is read where nothing was written. -/
def defaultState : SavedState where
  geometry := .null
  restore := .null
  fsrestore := .null
  maximized := 0
  fullscreen := 0
  desktop := 0
  minimized := false
  opacity := 1
  onAllDesktops := false
  keepAbove := false
  keepBelow := false
  skipTaskbar := false
  skipPager := false
  skipSwitcher := false
  noBorder := false
  shortcut := ""
  stackingOrder := -1
  activities := []

def defaultEntry : ConfigEntry := ⟨⟨[], [], [], [], []⟩, "", defaultState⟩

/-- The class is read in lower case. -/
def SessionStore.readInfo (s : SessionStore) (i : Nat) : SessionInfo :=
  let entry := (s.entries i).getD defaultEntry
  { number := i
    identification := { entry.identification with
      resourceClass := entry.identification.resourceClass.map AsciiChar.toLower }
    windowType := WindowType.txtToWindowType entry.windowType
    state := entry.state
    active := s.active.getD 0 = i }

/-- The session is empty before. -/
def SessionStore.loadSessionInfo (s : SessionStore) : List SessionInfo :=
  (List.range' 1 (s.count.getD 0).toNat).map s.readInfo

def WindowType.isSpecial (type : WindowType) : Bool :=
  type ∈ [desktop, dock, splash, toolbar, notification, criticalNotification, onScreenDisplay]

def sessionInfoWindowTypeMatch (c : Client) (info : SessionInfo) : Bool :=
  match info.windowType with
  | none => !c.windowType.isSpecial
  | some type => type = c.windowType

/-- Windows with a session id are matched by it and their role, if they have one; others by their features. -/
def infoMatches (c : Client) (info : SessionInfo) : Bool :=
  let id := c.identification
  if !id.sessionId.isEmpty then
    info.identification.sessionId = id.sessionId && sessionInfoWindowTypeMatch c info &&
      if !id.windowRole.isEmpty then info.identification.windowRole = id.windowRole
      else info.identification.windowRole.isEmpty && info.identification.resourceName = id.resourceName &&
        info.identification.resourceClass = id.resourceClass
  else
    info.identification.resourceName = id.resourceName && info.identification.resourceClass = id.resourceClass &&
      sessionInfoWindowTypeMatch c info && (id.wmCommand.isEmpty || info.identification.wmCommand = id.wmCommand)

/-- The first match leaves the session. -/
def takeSessionInfo (session : List SessionInfo) (c : Client) : Option SessionInfo × List SessionInfo :=
  (session.find? (infoMatches c), session.eraseP (infoMatches c))

/-- Windows reappear one by one. -/
def takeAll : List SessionInfo → List Client → List (Option SessionInfo)
  | _, [] => []
  | session, c :: cs => (takeSessionInfo session c).1 :: takeAll (takeSessionInfo session c).2 cs

end KWinFT.Session
