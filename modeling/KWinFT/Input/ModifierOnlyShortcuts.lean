import Mathlib.Data.Finset.Card

/-! Shortcuts that are modifiers alone: a modifier key that is pressed and released again calls a method on the bus. -/
namespace KWinFT.Input

/-- `Qt::KeyboardModifiers`. -/
abbrev Modifiers := BitVec 32

def noModifier : Modifiers := 0

inductive KeyType
  | press
  | release
deriving Repr, DecidableEq

structure KeyEvent where
  isAutoRepeat : Bool
  type : KeyType
  nativeScanCode : UInt32
  modifiersRelevantForGlobalShortcuts : Modifiers
deriving Repr, DecidableEq

inductive InputEvent
  | key (event : KeyEvent)
  | mouseMove
  | mouseButtonPress (button : UInt32)
  | mouseButtonRelease (button : UInt32)
  | wheel
  /-- `ScreenLockerWatcher::locked` with the new state. -/
  | locked (isLocked : Bool)
deriving Repr, DecidableEq

structure MethodCall where
  service : String
  path : String
  interface : String
  method : String
  arguments : List String
deriving Repr, DecidableEq

/-- What the spy asks the workspace and the options at an event. -/
structure Setting where
  globalShortcutsDisabled : Bool
  modifierOnlyDBusShortcut : Modifiers → List String

/-- The call that is configured for the modifier. -/
def Setting.action (setting : Setting) (modifier : Modifiers) : Option MethodCall :=
  match setting.modifierOnlyDBusShortcut modifier with
  | service :: path :: interface :: method :: arguments => some ⟨service, path, interface, method, arguments⟩
  | _ => none

/-- The spy, with the state of the screen locker watcher. -/
structure ModifierOnlyShortcuts where
  modifier : Modifiers
  cachedMods : Modifiers
  /-- Presses less releases. -/
  buttonPressCount : Int
  pressedKeys : Finset UInt32
  isLocked : Bool
deriving DecidableEq

namespace ModifierOnlyShortcuts

def initial (isLocked : Bool) : ModifierOnlyShortcuts := ⟨noModifier, noModifier, 0, ∅, isLocked⟩

def reset (s : ModifierOnlyShortcuts) : ModifierOnlyShortcuts := { s with modifier := noModifier }

def keyPress (s : ModifierOnlyShortcuts) (event : KeyEvent) : ModifierOnlyShortcuts :=
  let wasEmpty := s.pressedKeys = ∅
  let pressedKeys := insert event.nativeScanCode s.pressedKeys
  let alone := wasEmpty ∧ pressedKeys.card = 1 ∧ ¬ s.isLocked ∧ s.buttonPressCount = 0 ∧ s.cachedMods = noModifier
  { s with
    pressedKeys := pressedKeys
    modifier := if alone then event.modifiersRelevantForGlobalShortcuts else noModifier }

def keyRelease (setting : Setting) (s : ModifierOnlyShortcuts) (event : KeyEvent) :
    ModifierOnlyShortcuts × Option MethodCall :=
  if s.pressedKeys = ∅ then (s.reset, none)
  else
    let pressedKeys := s.pressedKeys.erase event.nativeScanCode
    let invoked :=
      if pressedKeys = ∅ ∧ event.modifiersRelevantForGlobalShortcuts = noModifier ∧ ¬ setting.globalShortcutsDisabled ∧
          s.modifier ≠ noModifier then setting.action s.modifier
      else none
    ({ s with pressedKeys := pressedKeys, modifier := noModifier }, invoked)

/-- The state afterwards and the call that is made, if any. -/
def keyEvent (setting : Setting) (s : ModifierOnlyShortcuts) (event : KeyEvent) :
    ModifierOnlyShortcuts × Option MethodCall :=
  if event.isAutoRepeat then (s, none)
  else
    let (s, invoked) :=
      match event.type with
      | .press => (s.keyPress event, none)
      | .release => s.keyRelease setting event
    ({ s with cachedMods := event.modifiersRelevantForGlobalShortcuts }, invoked)

def inputEvent (setting : Setting) (s : ModifierOnlyShortcuts) :
    InputEvent → ModifierOnlyShortcuts × Option MethodCall
  | .key event => s.keyEvent setting event
  | .mouseMove => (s, none)
  | .mouseButtonPress _ => (reset { s with buttonPressCount := s.buttonPressCount + 1 }, none)
  | .mouseButtonRelease _ => (reset { s with buttonPressCount := s.buttonPressCount - 1 }, none)
  | .wheel => (s.reset, none)
  | .locked isLocked => (reset { s with isLocked := isLocked }, none)

def run (s : ModifierOnlyShortcuts) (es : List (Setting × InputEvent)) : ModifierOnlyShortcuts :=
  es.foldl (fun s e => (s.inputEvent e.1 e.2).1) s

end ModifierOnlyShortcuts

end KWinFT.Input
