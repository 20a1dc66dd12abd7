import KWinFT.Lib.Calls
import KWinFT.Lib.Runs
import Mathlib.Logic.Function.Basic

/-! Which window is active. The flag of the window and the workspace call each other to change it, X11 windows become active
only when the server reports that they got the focus, and Wayland windows at once. -/
namespace KWinFT.Activation
open Lib

inductive Kind
  | x11
  | wayland
  | internal
deriving Repr, DecidableEq

/-- Focus stealing prevention. -/
inductive Level
  | none
  | low
  | medium
  | high
  | extreme
deriving Repr, DecidableEq

instance : LE Level := ⟨fun a b => a.ctorIdx ≤ b.ctorIdx⟩
instance : LT Level := ⟨fun a b => a.ctorIdx < b.ctorIdx⟩
instance (a b : Level) : Decidable (a ≤ b) := inferInstanceAs (Decidable (a.ctorIdx ≤ b.ctorIdx))
instance (a b : Level) : Decidable (a < b) := inferInstanceAs (Decidable (a.ctorIdx < b.ctorIdx))

/-- The kinds of the windows, and the comparison of timestamps of the library. -/
structure Setting where
  kind : Nat → Kind
  timestampCompare : UInt32 → UInt32 → Int

/-- What the windows, their rules, the options and the other parts of the workspace answer during an event. `switched` and
`switchedTo` are which windows are shown and on the current desktop after a change of the desktop, and `hidden` those that are
hidden by it. `shownAgain` is whether a window is shown after it was unminimized and unhidden, `activatedThen` whether it is
activated when it is shown, and `tools` are the windows that are shown and activated when the tool windows are updated. -/
structure Surroundings where
  reasonable : Bool
  findModal : Nat → Option Nat
  minimized : Nat → Bool
  /-- A dock or splash window that does not want input. -/
  refusesInput : Nat → Bool
  acceptsFocus : Nat → Bool
  urgent : Nat → Bool
  breaksShowingDesktop : Nat → Bool
  shownAgain : Nat → Bool
  activatedThen : Nat → Bool
  tools : List Nat
  switched : Nat → Bool
  switchedTo : Nat → Bool
  hidden : List Nat
  /-- The window that `activateNextClient` finds. -/
  next : Option Nat
  /-- The windows that the focus chain has for a desktop, and the desktop window. -/
  forActivation : Option Nat
  desktopWindow : Option Nat
  saving : Bool
  fsp : Nat → Level
  fpp : Nat → Level
  checkAcceptFocus : Nat → Bool
  userTime : Nat → UInt32
  isDesktop : Nat → Bool
  belongToSameClient : Nat → Nat → Bool

/-- The modal dialog that gets the focus in place of its window. -/
def Surroundings.modalFor (env : Surroundings) (take : Bool) (w : Nat) : Option Nat :=
  if take then (env.findModal w).filter (· ≠ w) else none

/-- `asked` has all windows that were told to take the focus, since the start. -/
structure Workspace where
  allClients : List Nat := []
  active : Nat → Bool := fun _ => false
  demandsAttention : Nat → Bool := fun _ => false
  shown : Nat → Bool := fun _ => false
  onCurrentDesktop : Nat → Bool := fun _ => false
  focusOutTimer : Nat → Bool := fun _ => false
  activeClient : Option Nat := none
  lastActiveClient : Option Nat := none
  shouldGetFocus : List Nat := []
  attentionChain : List Nat := []
  delayfocusClient : Option Nat := none
  delayFocusTimer : Bool := false
  blockFocus : Nat := 0
  showingDesktop : Bool := false
  asked : List Nat := []

inductive Stop
  | assertion
  | depth
deriving Repr, DecidableEq

inductive Call
  | requestFocus (window : Option Nat) (force : Bool)
  | activateClient (window : Option Nat) (force : Bool)
deriving DecidableEq

abbrev Self := Call → Workspace → Except Stop Workspace

namespace Workspace
variable (s : Workspace)

def focusChangeEnabled : Bool := s.blockFocus = 0

def mostRecentlyActivatedClient : Option Nat :=
  if s.shouldGetFocus ≠ [] then s.shouldGetFocus.getLast? else s.activeClient

def clientAttentionChanged (w : Nat) (set : Bool) : Workspace :=
  let chain := s.attentionChain.filter (· ≠ w)
  { s with attentionChain := if set then w :: chain else chain }

def setDemandsAttention (w : Nat) (demand : Bool) : Workspace :=
  let demand := demand && !s.active w
  if s.demandsAttention w = demand then s
  else { s with demandsAttention := Function.update s.demandsAttention w demand }.clientAttentionChanged w demand

/-- All that should have got the focus before this window will not get it any more. -/
def gotFocusIn (w : Nat) : Workspace :=
  if w ∈ s.shouldGetFocus then { s with shouldGetFocus := (s.shouldGetFocus.dropWhile (· ≠ w)).tail } else s

def setShouldGetFocus (w : Nat) : Workspace :=
  { s with shouldGetFocus := s.shouldGetFocus ++ [w], asked := w :: s.asked }

/-- What points to a removed X11 window is dropped. -/
def forget (w : Nat) : Workspace :=
  { s with
    attentionChain := s.attentionChain.filter (· ≠ w)
    shouldGetFocus := s.shouldGetFocus.filter (· ≠ w)
    lastActiveClient := if s.lastActiveClient = some w then none else s.lastActiveClient
    demandsAttention := Function.update s.demandsAttention w false
    focusOutTimer := Function.update s.focusOutTimer w false }

/-- The client stays, only the timer goes. -/
def cancelDelayFocus : Workspace := { s with delayFocusTimer := false }

end Workspace

section calls
variable (σ : Setting) (env : Surroundings)

/-- The flag first, then the workspace. An urgent X11 window demands attention again. -/
def setActive (setActiveClient : Option Nat → Workspace → Except Stop Workspace) (w : Nat) (active : Bool) (s : Workspace) :
    Except Stop Workspace :=
  if s.active w = active then .ok s
  else do
    let s := { s with active := Function.update s.active w active }
    let s ← setActiveClient (if active then some w else none) s
    .ok (if σ.kind w = .x11 ∧ env.urgent w then s.setDemandsAttention w true else s)

/-- The active window loses its flag, which leads back here. -/
def setActiveClient (self : Self) : Nat → Option Nat → Workspace → Except Stop Workspace
  | 0 => fun _ _ => .error .depth
  | depth + 1 => fun window s =>
    if s.activeClient = window then .ok s
    else do
      let s ← s.activeClient.elim (.ok s) fun old => setActive σ env (setActiveClient self depth) old false s
      let s := { s with activeClient := window }
      let s ← (match window with
        | none => .ok s
        | some w =>
          if s.active w then .ok ({ s with lastActiveClient := some w }.setDemandsAttention w false)
          else .error .assertion)
      env.tools.foldlM (fun s w => self (.activateClient (some w) false) s) s

def setShowingDesktop (self : Self) (showing : Bool) (s : Workspace) : Except Stop Workspace :=
  let changed := showing ≠ s.showingDesktop
  let s := { s with showingDesktop := showing }
  if showing ∧ env.desktopWindow ≠ none then self (.requestFocus env.desktopWindow false) s
  else if ¬ showing ∧ changed then
    match env.forActivation with
    | some client => self (.activateClient client false) s
    | none => .ok s
  else .ok s

def takeFocus (depth : Nat) (self : Self) (w : Nat) (s : Workspace) : Except Stop Workspace :=
  match σ.kind w with
  | .x11 =>
    let s := if env.acceptsFocus w then s else s.setDemandsAttention w false
    let s := s.setShouldGetFocus w
    if env.breaksShowingDesktop w then setShowingDesktop env self false s else .ok s
  | .wayland => do
    let s ← (if env.acceptsFocus w then setActive σ env (setActiveClient σ env self depth) w true s else .ok s)
    if env.breaksShowingDesktop w then setShowingDesktop env self false s else .ok s
  | .internal => .ok s

def requestFocus (depth : Nat) (self : Self) (window : Option Nat) (force : Bool) (s : Workspace) : Except Stop Workspace :=
  let take := s.focusChangeEnabled || s.activeClient = window
  match window with
  | none => .ok s
  | some w => do
    let modal := env.modalFor take w
    let s ← modal.elim (.ok s) fun m =>
      if !s.shown m && !env.minimized m then self (.activateClient (some m) false) s else .ok s
    let s := if take then s.cancelDelayFocus else s
    let w := modal.getD w
    let take := take && (force || !env.refusesInput w)
    if s.shown w && take then takeFocus σ env depth self w s else .ok s

def activateClientOnNewDesktop (depth : Nat) (self : Self) (s : Workspace) : Except Stop Workspace := do
  let found :=
    if env.reasonable then env.forActivation
    else s.activeClient.filter fun w => s.shown w && s.onCurrentDesktop w
  let c := found.or env.desktopWindow
  let s ← (if c ≠ s.activeClient then setActiveClient σ env self depth none s else .ok s)
  self (.requestFocus c false) s

def activateNextClient (depth : Nat) (self : Self) (window : Option Nat) (s : Workspace) : Except Stop Workspace :=
  if ¬ (window = s.activeClient ∨ (s.shouldGetFocus ≠ [] ∧ window = s.shouldGetFocus.getLast?)) then .ok s
  else do
    let s ← (if window ≠ none ∧ window = s.activeClient then setActiveClient σ env self depth none s else .ok s)
    let s := { s with shouldGetFocus := s.shouldGetFocus.filter (some · ≠ window) }
    if s.focusChangeEnabled ∧ env.reasonable then self (.requestFocus env.next false) s else .ok s

def updateClientVisibilityOnDesktopChange (depth : Nat) (self : Self) (s : Workspace) : Except Stop Workspace := do
  let s ← env.hidden.foldlM (fun s w => activateNextClient σ env depth self (some w) s)
    { s with shown := env.switched, onCurrentDesktop := env.switchedTo }
  if s.showingDesktop then setShowingDesktop env self false s else .ok s

/-- The windows of the old desktop are hidden while the focus is blocked. -/
def slotCurrentDesktopChanged (depth : Nat) (self : Self) (s : Workspace) : Except Stop Workspace := do
  let s ← updateClientVisibilityOnDesktopChange σ env depth self { s with blockFocus := s.blockFocus + 1 }
  activateClientOnNewDesktop σ env depth self { s with blockFocus := s.blockFocus - 1 }

/-- The desktop is changed while the focus is blocked. -/
def activateClient (depth : Nat) (self : Self) (window : Option Nat) (force : Bool) (s : Workspace) : Except Stop Workspace :=
  match window with
  | none => setActiveClient σ env self depth none s
  | some w => do
    let s ← (if s.onCurrentDesktop w then .ok s
      else do
        let s ← slotCurrentDesktopChanged σ env depth self { s with blockFocus := s.blockFocus + 1 }
        .ok { s with blockFocus := s.blockFocus - 1 })
    let s := { s with shown := Function.update s.shown w (env.shownAgain w) }
    let s ← (if env.activatedThen w then self (.activateClient (some w) false) s else .ok s)
    if env.reasonable || force then self (.requestFocus (some w) force) s else .ok s

def perform : Nat → Self
  | 0 => fun _ _ => .error .depth
  | depth + 1 => fun call s =>
    match call with
    | .requestFocus window force => requestFocus σ env depth (perform depth) window force s
    | .activateClient window force => activateClient σ env depth (perform depth) window force s

def restoreFocus (depth : Nat) (s : Workspace) : Except Stop Workspace :=
  if s.shouldGetFocus ≠ [] then perform σ env depth (.requestFocus s.shouldGetFocus.getLast? false) s
  else if s.lastActiveClient ≠ none then perform σ env depth (.requestFocus s.lastActiveClient false) s
  else .ok s

/-- May this window become active? The active one has lost the focus already when another one reports that it got it. -/
def allowClientActivation (w : Nat) (time : Option UInt32) (focusIn ignoreDesktop : Bool) (s : Workspace) : Bool :=
  let unknown : UInt32 := 0xffffffff
  let time := time.getD (env.userTime w)
  let level := env.fsp w
  if env.saving && level ≤ Level.medium then true
  else if focusIn && w ∈ s.shouldGetFocus then true
  else
    let ac := if focusIn then s.lastActiveClient else s.mostRecentlyActivatedClient
    if time = 0 && !env.checkAcceptFocus w then false
    else
      let protection := match ac with
        | some a => env.fpp a
        | none => .none
      if level = .none ∨ protection = .none then true
      else if level = .extreme ∨ protection = .extreme then false
      else if !ignoreDesktop && !s.onCurrentDesktop w then false
      else
        match ac with
        | none => true
        | some a =>
          if env.isDesktop a then true
          else if env.belongToSameClient w a && protection < Level.high then true
          else if !s.onCurrentDesktop w then false
          else if Level.medium < level && Level.low < protection then false
          else if time = unknown then level < Level.medium && protection < Level.high
          else 0 ≤ σ.timestampCompare time (env.userTime a)

/-- The server reports that the window got the focus. -/
def focusInEvent (depth : Nat) (w : Nat) (s : Workspace) : Except Stop Workspace :=
  if !s.shown w || !s.onCurrentDesktop w then .ok s
  else do
    let s := { s with focusOutTimer := fun v => if σ.kind v = .x11 then false else s.focusOutTimer v }
    let activate := allowClientActivation σ env w none true false s
    let s := s.gotFocusIn w
    if activate then setActive σ env (setActiveClient σ env (perform σ env depth) depth) w true s
    else do
      let s ← restoreFocus σ env depth s
      .ok (s.setDemandsAttention w true)

/-- An X11 window is released or destroyed. -/
def removeClient (depth : Nat) (w : Nat) (s : Workspace) : Except Stop Workspace := do
  let s ← activateNextClient σ env depth (perform σ env depth) (some w) { s with shown := Function.update s.shown w false }
  if s.activeClient = some w then .error .assertion
  else
    let s := { s.forget w with allClients := s.allClients.filter (· ≠ w) }
    .ok (if s.delayfocusClient = some w then s.cancelDelayFocus else s)

/-- A Wayland window is gone. The windows that demand attention are not looked at. -/
def windowRemoved (depth : Nat) (w : Nat) (s : Workspace) : Except Stop Workspace :=
  let s := { s with
    allClients := s.allClients.filter (· ≠ w)
    lastActiveClient := if s.lastActiveClient = some w then none else s.lastActiveClient
    shown := Function.update s.shown w false }
  let s := if s.delayfocusClient = some w then s.cancelDelayFocus else s
  activateNextClient σ env depth (perform σ env depth) (some w) s

end calls

/-- The events that the workspace answers, each with its surroundings, and changes of what is shown for other reasons. -/
inductive Event
  | added (w : Nat)
  | removed (w : Nat)
  | focusIn (w : Nat)
  | focusOut (w : Nat)
  | focusOutTimeout (w : Nat)
  | requestFocus (window : Option Nat) (force : Bool)
  | activateClient (window : Option Nat) (force : Bool)
  | activateNextClient (window : Option Nat)
  | currentDesktopChanged
  | setShowingDesktop (showing : Bool)
  | demandAttention (w : Nat) (demand : Bool)
  | requestDelayFocus (window : Option Nat)
  | cancelDelayFocus
  | delayFocus
  | rearranged (shown onCurrentDesktop : Nat → Bool)

section events
variable (σ : Setting)

def respond (depth : Nat) (s : Workspace) (env : Surroundings) : Event → Except Stop Workspace
  | .added w => .ok { s with allClients := s.allClients ++ [w] }
  | .removed w =>
    match σ.kind w with
    | .x11 => removeClient σ env depth w s
    | .wayland => windowRemoved σ env depth w s
    | .internal => .ok { s with allClients := s.allClients.filter (· ≠ w) }
  | .focusIn w => focusInEvent σ env depth w s
  | .focusOut w => .ok { s with focusOutTimer := Function.update s.focusOutTimer w true }
  | .focusOutTimeout w =>
    setActive σ env (setActiveClient σ env (perform σ env depth) depth) w false { s with focusOutTimer := Function.update s.focusOutTimer w false }
  | .requestFocus window force => perform σ env depth (.requestFocus window force) s
  | .activateClient window force => perform σ env depth (.activateClient window force) s
  | .activateNextClient window => activateNextClient σ env depth (perform σ env depth) window s
  | .currentDesktopChanged => slotCurrentDesktopChanged σ env depth (perform σ env depth) s
  | .setShowingDesktop showing => setShowingDesktop env (perform σ env depth) showing s
  | .demandAttention w demand => .ok (s.setDemandsAttention w demand)
  | .requestDelayFocus window => .ok { s with delayfocusClient := window, delayFocusTimer := true }
  | .cancelDelayFocus => .ok s.cancelDelayFocus
  | .delayFocus => do
    let s ← perform σ env depth (.requestFocus s.delayfocusClient false) s
    .ok s.cancelDelayFocus
  | .rearranged shown onCurrentDesktop => .ok { s with shown, onCurrentDesktop }

/-- Calls may nest up to this depth. -/
structure Occasion where
  depth : Nat
  env : Surroundings
  event : Event

def step (s : Workspace) (o : Occasion) : Option Workspace := (respond σ o.depth s o.env o.event).toOption

end events

end KWinFT.Activation
