import Mathlib.Logic.Function.Basic
import KWinFT.RuleBook.Latin1
import KWinFT.RuleBook.Properties

/-! Rules in the configuration. The settings of a rule are values by key, read from a numbered group with a default
where the group stores nothing; a rule book is the number of its rules and the settings of the groups up to it. -/
namespace KWinFT.RuleBook
open KWinFT.Geometry

namespace Policy

def ofCode : Int → Policy
  | 0 => .unused
  | 1 => .dontAffect
  | 2 => .force
  | 3 => .apply
  | 4 => .remember
  | 5 => .applyNow
  | 6 => .forceTemporarily
  | code => .other code

def code : Policy → Int
  | .unused => 0
  | .dontAffect => 1
  | .force => 2
  | .apply => 3
  | .remember => 4
  | .applyNow => 5
  | .forceTemporarily => 6
  | .other code => code

end Policy

namespace StringMatch

def ofCode : Int → StringMatch
  | 1 => .exactMatch
  | 2 => .substringMatch
  | 3 => .regExpMatch
  | _ => .unimportantMatch

def code : StringMatch → Int
  | .unimportantMatch => 0
  | .exactMatch => 1
  | .substringMatch => 2
  | .regExpMatch => 3

end StringMatch

inductive Key
  | description | descriptionLegacy | wmclass | wmclassmatch | wmclasscomplete | windowrole | windowrolematch | title
  | titlematch | clientmachine | clientmachinematch | types
  | setData (p : SetProperty) | setRule (p : SetProperty)
  | forceData (p : ForceProperty) | forceRule (p : ForceProperty)
deriving DecidableEq

instance : (p : ForceProperty) → DecidableEq p.Data
  | .autogroupid | .decocolor => inferInstanceAs (DecidableEq QString)
  | .fpplevel | .fsplevel | .opacityactive | .opacityinactive | .type => inferInstanceAs (DecidableEq Int)
  | .maxsize | .minsize => inferInstanceAs (DecidableEq Size)
  | .placement => inferInstanceAs (DecidableEq Placement)
  | .acceptfocus | .autogroup | .autogroupfg | .blockcompositing | .closeable | .disableglobalshortcuts
  | .strictgeometry => inferInstanceAs (DecidableEq Bool)

namespace Key

@[reducible] def Value : Key → Type
  | .description | .descriptionLegacy | .wmclass | .windowrole | .title | .clientmachine => QString
  | .wmclassmatch | .windowrolematch | .titlematch | .clientmachinematch | .setRule _ | .forceRule _ => Int
  | .wmclasscomplete => Bool
  | .types => Nat
  | .setData p => p.Data
  | .forceData p => p.Data

instance : (k : Key) → DecidableEq k.Value
  | .description | .descriptionLegacy | .wmclass | .windowrole | .title | .clientmachine =>
    inferInstanceAs (DecidableEq QString)
  | .wmclassmatch | .windowrolematch | .titlematch | .clientmachinematch | .setRule _ | .forceRule _ =>
    inferInstanceAs (DecidableEq Int)
  | .wmclasscomplete => inferInstanceAs (DecidableEq Bool)
  | .types => inferInstanceAs (DecidableEq Nat)
  | .setData p => inferInstanceAs (DecidableEq p.Data)
  | .forceData p => inferInstanceAs (DecidableEq p.Data)

def default : (k : Key) → k.Value
  | .description | .descriptionLegacy | .wmclass | .windowrole | .title | .clientmachine => ([] : QString)
  | .wmclassmatch | .windowrolematch | .titlematch | .clientmachinematch | .setRule _ | .forceRule _ => (0 : Int)
  | .wmclasscomplete => false
  | .types => allTypesMask
  | .setData p => p.default
  | .forceData p => p.default

end Key

def clamp (lo hi v : Int) : Int := min (max v lo) hi

/-- Values that the settings limit. The type's own default is outside of its limits. -/
def ForceProperty.bound : (p : ForceProperty) → p.Data → p.Data
  | .opacityactive, v | .opacityinactive, v => clamp 0 100 v
  | .fpplevel, v | .fsplevel, v => clamp 0 4 v
  | .type, v => clamp 0 9 v
  | .acceptfocus, v | .autogroup, v | .autogroupfg, v | .blockcompositing, v | .closeable, v
  | .disableglobalshortcuts, v | .strictgeometry, v => v
  | .autogroupid, v | .decocolor, v => v
  | .maxsize, v | .minsize, v => v
  | .placement, v => v

def Key.bound : (k : Key) → k.Value → k.Value
  | .wmclassmatch, v | .windowrolematch, v | .titlematch, v | .clientmachinematch, v => clamp 0 3 v
  | .setRule _, v => clamp 0 6 v
  | .forceRule _, v => v
  | .forceData p, v => p.bound v
  | .description, v | .descriptionLegacy, v | .wmclass, v | .windowrole, v | .title, v | .clientmachine, v => v
  | .wmclasscomplete, v => v
  | .types, v => v
  | .setData _, v => v

abbrev RuleSettings := (k : Key) → k.Value

/-- The entries of a group. -/
abbrev Group := (k : Key) → Option k.Value

namespace RuleSettings

def ofGroup (g : Group) : RuleSettings := fun k => k.bound ((g k).getD k.default)

def setDefaults (_ : RuleSettings) : RuleSettings := Key.default

def set (s : RuleSettings) (k : Key) (v : k.Value) : RuleSettings := Function.update s k (k.bound v)

/-- Values other than the default are stored. -/
def save (s : RuleSettings) : Group := fun k => if s k = k.default then none else some (s k)

end RuleSettings

/-- `QStandardPaths::locate` among generic data: nothing, or a path that ends in what was asked for. -/
structure Locator where
  locate : QString → QString
  found : ∀ file, locate file = [] ∨ ∃ dir, locate file = dir ++ '/' :: file

/-- `color-schemes/`. -/
def colorSchemes : QString := ['c', 'o', 'l', 'o', 'r', '-', 's', 'c', 'h', 'e', 'm', 'e', 's', '/']

/-- `.colors`. -/
def colors : QString := ['.', 'c', 'o', 'l', 'o', 'r', 's']

def getDecoColor (l : Locator) (themeName : QString) : QString :=
  if themeName = [] then [] else l.locate (colorSchemes ++ themeName ++ colors)

/-- `QFileInfo::baseName`: the file's name without directories, up to its first dot. -/
def baseName (path : QString) : QString := (path.reverse.takeWhile (· ≠ '/')).reverse.takeWhile (· ≠ '.')

def colorToString (value : QString) : QString := if colors.isSuffixOf value then baseName value else value

def Size.isEmpty (s : Size) : Bool := s.width < 1 ∨ s.height < 1
def Size.isValid (s : Size) : Bool := 0 ≤ s.width ∧ 0 ≤ s.height

section read
variable (m : CaseMapping) (l : Locator) (s : RuleSettings)

def readSet : (p : SetProperty) → Ruler p.Data
  | .size =>
    let rule := Policy.ofCode (s (.setRule .size))
    ⟨s (.setData .size), if Size.isEmpty (s (.setData .size)) ∧ rule ≠ .remember then .unused else rule⟩
  | p => ⟨s (.setData p), .ofCode (s (.setRule p))⟩

def readForce : (p : ForceProperty) → Ruler p.Data
  | .decocolor =>
    let data := getDecoColor l (s (.forceData .decocolor))
    ⟨data, if data = [] then .unused else .ofCode (s (.forceRule .decocolor))⟩
  | .maxsize =>
    let data : Size := s (.forceData .maxsize)
    ⟨if Size.isEmpty data then ⟨32767, 32767⟩ else data, .ofCode (s (.forceRule .maxsize))⟩
  | .minsize =>
    let data : Size := s (.forceData .minsize)
    ⟨if Size.isValid data then data else ⟨1, 1⟩, .ofCode (s (.forceRule .minsize))⟩
  | .type =>
    let data : Int := s (.forceData .type)
    ⟨data, if data = -1 then .unused else .ofCode (s (.forceRule .type))⟩
  | p => ⟨s (.forceData p), .ofCode (s (.forceRule p))⟩

def readFromSettings : Rules where
  wmclass := ⟨m.readBytes (s .wmclass), .ofCode (s .wmclassmatch)⟩
  windowrole := ⟨m.readBytes (s .windowrole), .ofCode (s .windowrolematch)⟩
  clientmachine := ⟨m.readBytes (s .clientmachine), .ofCode (s .clientmachinematch)⟩
  title := ⟨s .title, .ofCode (s .titlematch)⟩
  temporaryState := 0
  description := if s .description = ([] : QString) then s .descriptionLegacy else s .description
  wmclasscomplete := s .wmclasscomplete
  types := s .types
  set := readSet s
  force := readForce l s

end read

/-- Match strings are written when they are not empty, or always. -/
def writeString (isEmpty force : Bool) (dataWriter matchWriter : RuleSettings → RuleSettings) (s : RuleSettings) :
    RuleSettings :=
  if ¬ isEmpty ∨ force then dataWriter (matchWriter s) else matchWriter s

/-- How the data of a property is written. -/
def ForceProperty.convert : (p : ForceProperty) → p.Data → p.Data
  | .decocolor, v => colorToString v
  | _, v => v

/-- The order in which the force properties are written. -/
def ForceProperty.written : List ForceProperty :=
  [.acceptfocus, .autogroup, .autogroupfg, .autogroupid, .blockcompositing, .closeable, .disableglobalshortcuts,
    .fpplevel, .fsplevel, .decocolor, .maxsize, .minsize, .opacityactive, .opacityinactive, .placement,
    .strictgeometry, .type]

theorem ForceProperty.mem_written (p : ForceProperty) : p ∈ written := by cases p <;> decide

namespace Rules
variable (r : Rules)

def writeSet (s : RuleSettings) (p : SetProperty) : RuleSettings :=
  let s := s.set (.setRule p) (r.set p).rule.code
  if (r.set p).rule ≠ .unused then s.set (.setData p) (r.set p).data else s

def writeForce (s : RuleSettings) (p : ForceProperty) : RuleSettings :=
  let s := s.set (.forceRule p) (r.force p).rule.code
  if (r.force p).rule ≠ .unused then s.set (.forceData p) (p.convert (r.force p).data) else s

def writeStrings (s : RuleSettings) : RuleSettings :=
  let s := s.set .description r.description
  let s := writeString r.wmclass.data.isEmpty true (·.set .wmclass (fromUtf8 r.wmclass.data))
    (·.set .wmclassmatch r.wmclass.match.code) s
  let s := s.set .wmclasscomplete r.wmclasscomplete
  let s := writeString r.windowrole.data.isEmpty false (·.set .windowrole (fromUtf8 r.windowrole.data))
    (·.set .windowrolematch r.windowrole.match.code) s
  let s := writeString r.title.data.isEmpty false (·.set .title r.title.data) (·.set .titlematch r.title.match.code) s
  let s := writeString r.clientmachine.data.isEmpty false (·.set .clientmachine (fromUtf8 r.clientmachine.data))
    (·.set .clientmachinematch r.clientmachine.match.code) s
  s.set .types r.types

def write (s : RuleSettings) : RuleSettings :=
  ForceProperty.written.foldl r.writeForce (SetProperty.all.foldl r.writeSet (r.writeStrings s))

end Rules

structure Config where
  /-- The stored number of rules. -/
  count : Option Int
  groups : Nat → Group

structure RuleBookSettings where
  count : Int
  list : List RuleSettings

namespace RuleBookSettings
variable (b : RuleBookSettings) (c : Config)

/-- A fresh object, with settings for each group up to the count. -/
def ofConfig : RuleBookSettings :=
  ⟨c.count.getD 0, (List.range' 1 (c.count.getD 0).toNat).map fun i => .ofGroup (c.groups i)⟩

/-- Rules from number `i` on go into the settings at hand, which are reset first, and then into new ones. -/
def writeRules : Nat → List RuleSettings → List Rules → List RuleSettings
  | _, list, [] => list
  | i, s :: list, r :: rs => r.write s.setDefaults :: writeRules (i + 1) list rs
  | i, [], r :: rs => r.write (.ofGroup (c.groups i)) :: writeRules (i + 1) [] rs

def setRules (rules : List Rules) : RuleBookSettings := ⟨rules.length, writeRules c 1 b.list rules⟩

/-- Settings from number `i` on go into their groups. -/
def saveGroups : Nat → List RuleSettings → (Nat → Group) → Nat → Group
  | _, [], groups => groups
  | i, s :: list, groups => saveGroups (i + 1) list (Function.update groups i s.save)

/-- Surplus groups are deleted by the number of groups that the configuration lists. -/
def save (groupListLength : Config → Int) : Config :=
  let c : Config := ⟨if b.count = 0 then none else some b.count, saveGroups 1 b.list c.groups⟩
  { c with groups := fun i =>
      if b.count < i ∧ (i : Int) ≤ groupListLength c - 1 then fun _ => none else c.groups i }

def rules (m : CaseMapping) (l : Locator) : List Rules := (b.list.take b.count.toNat).map (readFromSettings m l)

end RuleBookSettings

end KWinFT.RuleBook
