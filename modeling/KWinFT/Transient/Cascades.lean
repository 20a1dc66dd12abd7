import KWinFT.Lib.Calls
import KWinFT.Stacking.InOrder
import KWinFT.Transient.Grouping

/-! Changes that a window passes on to its transient relatives: desktops, the minimized state and the screen. Only
managed windows have a control, in which these functions read and write; subsurfaces, popups and remnants have none. -/
namespace KWinFT.Transient

/-- The number of a window that is on all desktops. -/
def onAllDesktops : Int := -1

/-- Windows with their relations. Virtual desktops are given by their X11 numbers; 0 stands for none. -/
structure Family where
  windows : Windows
  stacking : List Nat
  control : Nat → Bool
  annexed : Nat → Bool
  modal : Nat → Bool
  desktops : Nat → List Nat
  minimized : Nat → Bool
  screen : Nat → Int

/-- What decides, by the class of a managed window, whether it can be minimized. -/
inductive Kind
  | x11 (isSpecialWindow wantsTabFocus : Bool)
  | wayland (layerSurface normalRole : Bool)
  | internal
deriving Repr, DecidableEq

/-- What does not change with the windows: their kinds and rules, the desktops and the mode of operation. Which of them
are hidden (utility windows of other applications, windows at a screen edge) depends on the state, and the screen of a
window on its geometry. -/
structure Setting where
  x11 : Bool
  count : Int
  current : Int
  checkDesktop : Nat → Int → Int
  checkScreen : Nat → Int → Int
  checkMinimize : Nat → Bool → Bool
  kind : Nat → Kind
  hidden : Family → Nat → Bool
  landed : Family → Nat → Int → Int

namespace Family
variable (t : Family)

def children (w : Nat) : List Nat := (t.windows.node w).children
def leads (w : Nat) : List Nat := (t.windows.node w).leads

def ensureStackingOrder (list : List Nat) : List Nat := Stacking.ensureStackingOrderInList t.stacking list

def isOnAllDesktops (w : Nat) : Bool := t.desktops w = []

def storeDesktops (w : Nat) (desktops : List Nat) : Family :=
  { t with desktops := Function.update t.desktops w desktops }

def storeMinimized (w : Nat) (set : Bool) : Family :=
  { t with minimized := Function.update t.minimized w set }

def storeScreen (w : Nat) (screen : Int) : Family := { t with screen := Function.update t.screen w screen }

end Family

inductive Stop
  | nullControl
  | depth
deriving Repr, DecidableEq

inductive Call
  | setDesktops (win : Nat) (desktops : List Nat)
  | setDesktop (win : Nat) (desktop : Int)
  | setOnAllDesktops (win : Nat) (set : Bool)
  | updateOnAllDesktopsOfTransients (window : Nat)
  | setMinimized (win : Nat) (set : Bool)
  | updateMinimizedOfTransients (c : Nat)
  | sendToScreen (win : Nat) (newScreen : Int)
deriving Repr, DecidableEq

/-- The window that a function is called for. -/
def Call.window : Call → Nat
  | .setDesktops win _ | .setDesktop win _ | .setOnAllDesktops win _ | .setMinimized win _ | .sendToScreen win _ => win
  | .updateOnAllDesktopsOfTransients window => window
  | .updateMinimizedOfTransients c => c

abbrev Self := Call → Family → Except Stop Family

/-- The control of a window is read from here on. -/
def withControl (t : Family) (w : Nat) (next : Except Stop Family) : Except Stop Family :=
  if t.control w then next else .error .nullControl

section bodies
variable (p : Setting) (self : Self)

/-- For a lead of an X11 client, which is one itself or a remnant. -/
def Setting.isShown (t : Family) (w : Nat) : Bool := t.control w && !t.minimized w && !p.hidden t w

/-- Without a control a window is never minimizable. Without a shown lead an X11 transient is, whatever its type. -/
def Setting.isMinimizable (t : Family) (w : Nat) : Bool :=
  if ¬ t.control w then false
  else
    match p.kind w with
    | .x11 isSpecialWindow wantsTabFocus =>
      if isSpecialWindow ∧ t.leads w = [] then false
      else if ¬ p.checkMinimize w true then false
      else if t.leads w ≠ [] ∧ ¬ (t.leads w).any (p.isShown t) then true
      else wantsTabFocus
    | .wayland layerSurface normalRole => !layerSurface && p.checkMinimize w true && normalRole
    | .internal => false

/-- On X11 there is one desktop at a time. -/
def Setting.oneDesktop (desktops : List Nat) : List Nat :=
  if p.x11 ∧ desktops.length > 1 then desktops.getLast?.toList else desktops

def setDesktops (win : Nat) (desktops : List Nat) (t : Family) : Except Stop Family :=
  let desktops := p.oneDesktop desktops
  if desktops = t.desktops win then .ok t
  else
    let was := t.isOnAllDesktops win
    let t := t.storeDesktops win desktops
    withControl t win <|
      (if was ≠ t.isOnAllDesktops win then self (.updateOnAllDesktopsOfTransients win) t else .ok t) >>= fun t =>
      (t.ensureStackingOrder (t.children win)).foldlM (fun t child =>
        if t.annexed child then .ok t else self (.setDesktops child desktops) t) t >>= fun t =>
      if t.modal win then (t.leads win).foldlM (fun t client => self (.setDesktops client desktops) t) t else .ok t

def Setting.desktopForX11Id (id : Int) : Nat := if 0 < id ∧ id ≤ p.count then id.toNat else 0

/-- The desktop that is meant and that the rules of the window allow. -/
def Setting.ruledDesktops (win : Nat) (desktop : Int) : List Nat :=
  let desktop := if desktop ≠ onAllDesktops then max 1 (min p.count desktop) else desktop
  let desktop := min p.count (p.checkDesktop win desktop)
  if desktop ≠ onAllDesktops then [p.desktopForX11Id desktop] else []

def setDesktop (win : Nat) (desktop : Int) (t : Family) : Except Stop Family :=
  withControl t win (self (.setDesktops win (p.ruledDesktops win desktop)) t)

def setOnAllDesktops (win : Nat) (set : Bool) (t : Family) : Except Stop Family :=
  if set = t.isOnAllDesktops win then .ok t
  else self (.setDesktop win (if set then onAllDesktops else p.current)) t

def updateOnAllDesktopsOfTransients (window : Nat) (t : Family) : Except Stop Family :=
  (t.children window).foldlM (fun t transient =>
    if t.isOnAllDesktops transient ≠ t.isOnAllDesktops window then
      self (.setOnAllDesktops transient (t.isOnAllDesktops window)) t
    else .ok t) t

/-- The window tells its transients when its state has changed. -/
def setMinimized (win : Nat) (set : Bool) (t : Family) : Except Stop Family :=
  if set then
    if ¬ p.isMinimizable t win then .ok t
    else withControl t win <|
      if t.minimized win then .ok t else self (.updateMinimizedOfTransients win) (t.storeMinimized win true)
  else withControl t win <|
    if ¬ t.minimized win then .ok t
    else if p.checkMinimize win false then .ok t
    else self (.updateMinimizedOfTransients win) (t.storeMinimized win false)

/-- Modal dialogs are not hidden with their lead, but take it with them. -/
def updateMinimizedOfTransients (c : Nat) (t : Family) : Except Stop Family :=
  withControl t c <|
    if t.minimized c then
      (t.children c).foldlM (fun t child =>
        if t.modal child ∨ ¬ t.control child ∨ t.minimized child then .ok t
        else self (.setMinimized child true) t >>= self (.updateMinimizedOfTransients child)) t >>= fun t =>
      if t.modal c then (t.leads c).foldlM (fun t lead => self (.setMinimized lead true) t) t else .ok t
    else
      (t.children c).foldlM (fun t child =>
        if ¬ t.control child ∨ ¬ t.minimized child then .ok t
        else self (.setMinimized child false) t >>= self (.updateMinimizedOfTransients child)) t >>= fun t =>
      if t.modal c then (t.leads c).foldlM (fun t lead => self (.setMinimized lead false) t) t else .ok t

def sendToScreen (win : Nat) (newScreen : Int) (t : Family) : Except Stop Family :=
  withControl t win <|
    let newScreen := p.checkScreen win newScreen
    if t.screen win = newScreen then .ok t
    else
      let t := t.storeScreen win (p.landed t win newScreen)
      (t.ensureStackingOrder (t.children win)).foldlM (fun t child =>
        if t.control child then self (.sendToScreen child newScreen) t else .ok t) t

def callBody : Call → Family → Except Stop Family
  | .setDesktops win desktops => setDesktops p self win desktops
  | .setDesktop win desktop => setDesktop p self win desktop
  | .setOnAllDesktops win set => setOnAllDesktops p self win set
  | .updateOnAllDesktopsOfTransients window => updateOnAllDesktopsOfTransients self window
  | .setMinimized win set => setMinimized p self win set
  | .updateMinimizedOfTransients c => updateMinimizedOfTransients self c
  | .sendToScreen win newScreen => sendToScreen p self win newScreen

end bodies

/-- A call whose nested calls come back within the depth. -/
def perform (p : Setting) : Nat → Self := Lib.unroll .depth (callBody p)

/-- A new window: managed ones have a control. -/
structure NewWindow where
  x11 : Bool
  control : Bool
  annexed : Bool
  desktops : List Nat

namespace Family

def initial : Family :=
  ⟨.initial, [], fun _ => false, fun _ => false, fun _ => false, fun _ => [], fun _ => false, fun _ => 0⟩

variable (t : Family)

def appear (w : Nat) (new : NewWindow) (windows : Windows) : Family :=
  { t with
    windows := windows
    control := Function.update t.control w new.control
    annexed := Function.update t.annexed w new.annexed
    modal := Function.update t.modal w false
    desktops := Function.update t.desktops w new.desktops
    minimized := Function.update t.minimized w false }

/-- A remnant has the desktops of its source, and is annexed and modal as it was. -/
def close (r src : Nat) (windows : Windows) : Family :=
  { t with
    windows := windows
    control := Function.update t.control r false
    annexed := Function.update t.annexed r (t.annexed src)
    modal := Function.update t.modal r (t.modal src)
    desktops := Function.update t.desktops r (t.desktops src)
    minimized := Function.update t.minimized r false }

end Family

end KWinFT.Transient
