import KWinFT.Geometry.Rect
import KWinFT.RuleBook.Text

/-! A window rule: what it matches and, for each property, a policy with a value. Properties whose policy can apply
once are set properties, those that are forced or left alone are force properties. -/
namespace KWinFT.RuleBook
open KWinFT.Geometry

/-- A policy. Numbers that the settings hold and no constant names are kept. -/
inductive Policy
  | unused | dontAffect | force | apply | remember | applyNow | forceTemporarily
  | other (code : Int)
deriving Repr, DecidableEq

inductive StringMatch
  | unimportantMatch | exactMatch | substringMatch | regExpMatch
deriving Repr, DecidableEq

/-- `Placement::Policy`. -/
inductive Placement
  | noPlacement | default | unknown | random | smart | cascade | centered | zeroCornered | underMouse
  | onMainWindow | maximizing
deriving Repr, DecidableEq

inductive SetProperty
  | above | activity | below | ignoregeometry | desktop | desktopfile | fullscreen | maximizehoriz | maximizevert
  | minimize | noborder | position | screen | shortcut | size | skippager | skipswitcher | skiptaskbar
deriving Repr, DecidableEq

inductive ForceProperty
  | acceptfocus | autogroup | autogroupfg | autogroupid | blockcompositing | closeable | decocolor
  | disableglobalshortcuts | fpplevel | fsplevel | maxsize | minsize | opacityactive | opacityinactive | placement
  | strictgeometry | type
deriving Repr, DecidableEq

@[reducible] def SetProperty.Data : SetProperty → Type
  | .activity | .desktopfile | .shortcut => QString
  | .desktop | .screen => Int
  | .position => Point
  | .size => Size
  | .above | .below | .ignoregeometry | .fullscreen | .maximizehoriz | .maximizevert | .minimize | .noborder
  | .skippager | .skipswitcher | .skiptaskbar => Bool

@[reducible] def ForceProperty.Data : ForceProperty → Type
  | .autogroupid | .decocolor => QString
  | .fpplevel | .fsplevel | .opacityactive | .opacityinactive => Int
  | .maxsize | .minsize => Size
  | .placement => Placement
  -- A `NET::WindowType`, where −1 is unknown.
  | .type => Int
  | .acceptfocus | .autogroup | .autogroupfg | .blockcompositing | .closeable | .disableglobalshortcuts
  | .strictgeometry => Bool

instance : (p : SetProperty) → DecidableEq p.Data
  | .activity | .desktopfile | .shortcut => inferInstanceAs (DecidableEq QString)
  | .desktop | .screen => inferInstanceAs (DecidableEq Int)
  | .position => inferInstanceAs (DecidableEq Point)
  | .size => inferInstanceAs (DecidableEq Size)
  | .above | .below | .ignoregeometry | .fullscreen | .maximizehoriz | .maximizevert | .minimize | .noborder
  | .skippager | .skipswitcher | .skiptaskbar => inferInstanceAs (DecidableEq Bool)

/-- `invalidPoint`. -/
def invalidPoint : Point := ⟨-2147483648, -2147483648⟩

/-- Values that the settings give where nothing is stored. -/
def SetProperty.default : (p : SetProperty) → p.Data
  | .activity | .desktopfile | .shortcut => ([] : QString)
  | .desktop | .screen => (0 : Int)
  | .position => invalidPoint
  | .size => (⟨-1, -1⟩ : Size)
  | .above | .below | .ignoregeometry | .fullscreen | .maximizehoriz | .maximizevert | .minimize | .noborder
  | .skippager | .skipswitcher | .skiptaskbar => false

def ForceProperty.default : (p : ForceProperty) → p.Data
  | .autogroupid | .decocolor => ([] : QString)
  | .fpplevel | .fsplevel | .opacityactive | .opacityinactive => (0 : Int)
  | .maxsize | .minsize => (⟨-1, -1⟩ : Size)
  | .placement => Placement.smart
  | .type => (-1 : Int)
  | .autogroupfg => true
  | .acceptfocus | .autogroup | .blockcompositing | .closeable | .disableglobalshortcuts | .strictgeometry => false

structure Ruler (α : Type) where
  data : α
  rule : Policy := .unused
deriving DecidableEq

structure BytesMatch where
  data : QByteArray := []
  «match» : StringMatch := .unimportantMatch
deriving Repr, DecidableEq

structure TextMatch where
  data : QString := []
  «match» : StringMatch := .unimportantMatch
deriving Repr, DecidableEq

structure Rules where
  wmclass : BytesMatch
  windowrole : BytesMatch
  clientmachine : BytesMatch
  title : TextMatch
  temporaryState : Nat
  description : QString
  wmclasscomplete : Bool
  types : Nat
  set : (p : SetProperty) → Ruler p.Data
  force : (p : ForceProperty) → Ruler p.Data

namespace SetProperty

/-- The order in which the properties are listed when used up. -/
def all : List SetProperty :=
  [.above, .activity, .below, .desktop, .desktopfile, .fullscreen, .ignoregeometry, .maximizehoriz, .maximizevert,
    .minimize, .noborder, .position, .screen, .shortcut, .size, .skippager, .skipswitcher, .skiptaskbar]

theorem mem_all (p : SetProperty) : p ∈ all := by cases p <;> decide

end SetProperty

namespace ForceProperty

def all : List ForceProperty :=
  [.acceptfocus, .autogroup, .autogroupfg, .autogroupid, .blockcompositing, .closeable, .decocolor,
    .disableglobalshortcuts, .fpplevel, .fsplevel, .maxsize, .minsize, .opacityactive, .opacityinactive, .placement,
    .strictgeometry, .type]

theorem mem_all (p : ForceProperty) : p ∈ all := by cases p <;> decide

end ForceProperty

/-- What `match` reads of a window. -/
structure Identity where
  windowType : Int
  resourceClass : QByteArray
  resourceName : QByteArray
  windowRole : QByteArray
  hostName : QByteArray
  isLocal : Bool
  caption : QString

/-- Parts of a match that libraries decide: regular expressions and masks of window types. -/
structure Matcher where
  regExpFound : QString → QString → Bool
  typeMatchesMask : Int → Nat → Bool

/-- What `update` reads of a window. -/
structure Values where
  keepAbove : Bool
  activities : QString
  keepBelow : Bool
  desktop : Int
  desktopFileName : QByteArray
  fullscreen : Bool
  maximizedHorizontally : Bool
  maximizedVertically : Bool
  minimized : Bool
  noBorder : Bool
  pos : Point
  screen : Int
  size : Size
  skipPager : Bool
  skipSwitcher : Bool
  skipTaskbar : Bool

namespace BytesMatch
variable (m : Matcher) (b : BytesMatch)

/-- One of the byte matches; the patterns of a regular expression are read as UTF-8. -/
def accepts (text : QByteArray) : Bool :=
  match b.match with
  | .unimportantMatch => true
  | .regExpMatch => m.regExpFound (fromUtf8 b.data) (fromUtf8 text)
  | .exactMatch => b.data = text
  | .substringMatch => text.tails.any b.data.isPrefixOf

end BytesMatch

def TextMatch.accepts (m : Matcher) (t : TextMatch) (text : QString) : Bool :=
  match t.match with
  | .unimportantMatch => true
  | .regExpMatch => m.regExpFound t.data text
  | .exactMatch => t.data = text
  | .substringMatch => text.tails.any t.data.isPrefixOf

/-- `NET::AllTypesMask`. -/
def allTypesMask : Nat := 0xFFFFFFFF

/-- `QByteArray::toLower`, which changes ASCII letters only. -/
def toLowerAscii (bs : QByteArray) : QByteArray :=
  bs.map fun b => if 65 ≤ b.toNat ∧ b.toNat ≤ 90 then b + 32 else b

def localhost : QByteArray := [108, 111, 99, 97, 108, 104, 111, 115, 116]

namespace Rules
variable (r : Rules) (m : Matcher)

def matchType (type : Int) : Bool :=
  r.types = allTypesMask ∨ m.typeMatchesMask (if type = -1 then 0 else type) r.types

def matchWMClass (cls name : QByteArray) : Bool :=
  r.wmclass.accepts m (if r.wmclasscomplete then name ++ [32] ++ cls else cls)

def matchRole (role : QByteArray) : Bool := r.windowrole.accepts m role

/-- A local machine may also be named `localhost`. -/
def matchClientMachine (machine : QByteArray) (isLocal : Bool) : Bool :=
  r.clientmachine.accepts m machine ∨ (isLocal ∧ r.clientmachine.accepts m localhost)

def matchTitle (title : QString) : Bool := r.title.accepts m title

def «match» (w : Identity) : Bool :=
  r.matchType m w.windowType ∧ r.matchWMClass m w.resourceClass w.resourceName ∧
    r.matchRole m (toLowerAscii w.windowRole) ∧ r.matchClientMachine m w.hostName w.isLocal ∧
    r.matchTitle m w.caption

/-- Does not affect anything. -/
def isEmpty : Bool :=
  SetProperty.all.all (fun p => (r.set p).rule = .unused) ∧ ForceProperty.all.all (fun p => (r.force p).rule = .unused)

def isTemporary : Bool := 0 < r.temporaryState

end Rules

/-- A policy of a set property after use: what applies now is done, what is temporary ends with the window. -/
def Policy.discardUsedSet (withdrawn : Bool) : Policy → Policy
  | .applyNow => .unused
  | .forceTemporarily => if withdrawn then .unused else .forceTemporarily
  | rule => rule

def Policy.discardUsedForce (withdrawn : Bool) : Policy → Policy
  | .forceTemporarily => if withdrawn then .unused else .forceTemporarily
  | rule => rule

def Rules.discardUsed (withdrawn : Bool) (r : Rules) : Rules :=
  { r with
    set := fun p => { r.set p with rule := (r.set p).rule.discardUsedSet withdrawn }
    force := fun p => { r.force p with rule := (r.force p).rule.discardUsedForce withdrawn } }

/-- Some policy changed by that. -/
def Rules.discardsUsed (withdrawn : Bool) (r : Rules) : Bool :=
  SetProperty.all.any (fun p => (r.set p).rule.discardUsedSet withdrawn ≠ (r.set p).rule) ∨
    ForceProperty.all.any (fun p => (r.force p).rule.discardUsedForce withdrawn ≠ (r.force p).rule)

/-- The bit of a property in a selection of what to update; two have none. -/
def SetProperty.bit : SetProperty → Option Nat
  | .position => some 0
  | .size => some 1
  | .desktop => some 2
  | .maximizevert => some 3
  | .maximizehoriz => some 4
  | .minimize => some 5
  | .skiptaskbar => some 7
  | .skippager => some 8
  | .skipswitcher => some 9
  | .above => some 10
  | .below => some 11
  | .fullscreen => some 12
  | .noborder => some 13
  | .activity => some 16
  | .screen => some 17
  | .desktopfile => some 18
  | .ignoregeometry | .shortcut => none

/-- `Rules::All`. -/
def selectAll : Nat := 0xFFFFFFFF

/-- The value to remember. A direction that is maximized keeps its old position and size. -/
def Values.current (w : Values) : (p : SetProperty) → p.Data → p.Data
  | .above, _ => w.keepAbove
  | .activity, _ => w.activities
  | .below, _ => w.keepBelow
  | .desktop, _ => w.desktop
  | .desktopfile, _ => fromUtf8 w.desktopFileName
  | .fullscreen, _ => w.fullscreen
  | .maximizehoriz, _ => w.maximizedHorizontally
  | .maximizevert, _ => w.maximizedVertically
  | .minimize, _ => w.minimized
  | .noborder, _ => w.noBorder
  | .position, old =>
    if w.fullscreen then old
    else ⟨if w.maximizedHorizontally then old.x else w.pos.x, if w.maximizedVertically then old.y else w.pos.y⟩
  | .screen, _ => w.screen
  | .size, old =>
    if w.fullscreen then old
    else ⟨if w.maximizedHorizontally then old.width else w.size.width,
      if w.maximizedVertically then old.height else w.size.height⟩
  | .skippager, _ => w.skipPager
  | .skipswitcher, _ => w.skipSwitcher
  | .skiptaskbar, _ => w.skipTaskbar
  | .ignoregeometry, old => old
  | .shortcut, old => old

def Rules.remembers (r : Rules) (selection : Nat) (p : SetProperty) : Bool :=
  p.bit.any selection.testBit ∧ (r.set p).rule = .remember

/-- The values of a window go into the properties that remember them. -/
def Rules.update (w : Values) (selection : Nat) (r : Rules) : Rules :=
  { r with
    set := fun p =>
      if r.remembers selection p then { r.set p with data := w.current p (r.set p).data } else r.set p }

def Rules.updates (w : Values) (selection : Nat) (r : Rules) : Bool :=
  SetProperty.all.any fun p => r.remembers selection p ∧ (r.set p).data ≠ w.current p (r.set p).data

end KWinFT.RuleBook
