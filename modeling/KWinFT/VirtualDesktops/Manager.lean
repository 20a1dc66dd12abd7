import Mathlib.Data.List.InsertIdx
import Mathlib.Data.List.Perm.Basic
import Mathlib.Logic.Function.Basic
import KWinFT.Lib.Runs

/-! The virtual desktop manager. Desktops are heap objects that carry a number which
follows their position; the current desktop is a pointer to one of them. -/
namespace KWinFT.VirtualDesktops

/-- Identity of a desktop object. -/
abbrev Address := Nat

structure VirtualDesktop where
  id : String
  name : String
  x11DesktopNumber : Nat
deriving Repr, DecidableEq

inductive Orientation
  | horizontal
  | vertical
deriving Repr, DecidableEq

/-- The desktop layout the root window reports; both sizes are signed there. -/
structure NETRootInfo where
  columns : Int
  rows : Int
  orientation : Orientation
deriving Repr, DecidableEq

/-- `VirtualDesktopGrid`: the announced size and the rows that were filled. -/
structure VirtualDesktopGrid where
  width : Nat
  height : Nat
  cells : List (List Address)
deriving Repr, DecidableEq

inductive Signal
  | currentChanged (previousDesktop newDesktop : Nat)
  | countChanged (previousCount newCount : Nat)
  | desktopCreated (desktop : Address)
  | desktopRemoved (desktop : Address)
  | layoutChanged (columns rows : Nat)
  | rowsChanged (rows : Nat)
deriving Repr, DecidableEq

/-- A name that survives as `char const*`. -/
structure Text (s : String) : Prop where
  ne_empty : s ≠ ""
  no_nul : '\x00' ∉ s.toList

/-- What `i18n` makes of the name of a desktop that has none, in the language of the session. -/
structure Translation where
  desktop : Nat → String
  text : ∀ n, Text (desktop n)

/-- The text of the source. -/
def Translation.untranslated : Translation where
  desktop n := s!"Desktop {n}"
  text n := by
    have hlist : (s!"Desktop {n}").toList = "Desktop ".toList ++ Nat.toDigits 10 n := by simp [toString]
    refine ⟨fun h => ?_, fun h => ?_⟩
    · rw [h] at hlist
      simp at hlist
    · rw [hlist, List.mem_append] at h
      rcases h with h | h
      · exact absurd h (by decide)
      · exact absurd (Nat.isDigit_of_mem_toDigits (by decide) (by decide) h) (by decide)

structure VirtualDesktopManager where
  translation : Translation
  heap : Address → VirtualDesktop
  next : Address
  desktops : List Address
  current : Option Address
  rows : Nat
  grid : VirtualDesktopGrid
  rootInfo : Option NETRootInfo

/-- The manager before the first desktop exists. -/
def VirtualDesktopManager.initial (translation : Translation := .untranslated) : VirtualDesktopManager where
  translation := translation
  heap _ := ⟨"", "", 0⟩
  next := 0
  desktops := []
  current := none
  rows := 2
  grid := ⟨1, 2, [[], []]⟩
  rootInfo := none

def maximum : Nat := 20

/-- Conversion to `uint`. -/
def toUInt (n : Int) : Nat := (n % 4294967296).toNat

/-- Row-major filling: every row takes as many desktops as fit and are left. -/
def fillRows (width : Nat) : Nat → List Address → List (List Address)
  | 0, _ => []
  | height + 1, ds => ds.take width :: fillRows width height (ds.drop width)

/-- Column-major filling: row `y` takes every `height`-th desktop from its own start,
as long as the columns are within the announced width. -/
def fillColumns (width height : Nat) (ds : List Address) : List (List Address) :=
  (List.range height).map fun y =>
    (List.range width).filterMap fun x => ds[x * height + y]?

def VirtualDesktopGrid.update (width height : Nat) (orientation : Orientation)
    (ds : List Address) : VirtualDesktopGrid where
  width := width
  height := height
  cells := match orientation with
    | .horizontal => fillRows width height ds
    | .vertical => fillColumns width height ds

namespace VirtualDesktopManager
variable (m : VirtualDesktopManager)

def count : Nat := m.desktops.length

def currentNumber : Nat :=
  match m.current with
  | some c => (m.heap c).x11DesktopNumber
  | none => 0

def desktopForX11Id (id : Nat) : Option Address :=
  if id = 0 ∨ id > m.count then none else m.desktops[id - 1]?

def desktopForId (id : String) : Option Address :=
  m.desktops.find? fun d => (m.heap d).id = id

def setX11DesktopNumber (d : Address) (number : Nat) : VirtualDesktopManager :=
  { m with heap := Function.update m.heap d { m.heap d with x11DesktopNumber := number } }

/-- Gives consecutive numbers to the desktops of a tail of the list. -/
def renumber (m : VirtualDesktopManager) : List Address → Nat → VirtualDesktopManager
  | [], _ => m
  | d :: ds, number => renumber (m.setX11DesktopNumber d number) ds (number + 1)

/-- `while (width * height < count)` in `uint` arithmetic; `count` rounds are enough. -/
def growLayout (orientation : Orientation) (count : Nat) : Nat → Nat → Nat → Nat × Nat
  | 0, width, height => (width, height)
  | fuel + 1, width, height =>
    if width * height % 4294967296 < count then
      match orientation with
      | .horizontal => growLayout orientation count fuel ((width + 1) % 4294967296) height
      | .vertical => growLayout orientation count fuel width ((height + 1) % 4294967296)
    else (width, height)

def setNETDesktopLayout (orientation : Orientation) (width height : Nat) :
    VirtualDesktopManager × List Signal :=
  let count := m.count
  let size :=
    if width = 0 ∧ height > 0 then ((count + height - 1) / height, height)
    else if height = 0 ∧ width > 0 then (width, (count + width - 1) / width)
    else (width, height)
  let size := growLayout orientation count count size.1 size.2
  ({ m with
      rows := max 1 size.2
      grid := VirtualDesktopGrid.update size.1 size.2 orientation m.desktops },
    [.layoutChanged size.1 size.2, .rowsChanged size.2])

def updateLayout : VirtualDesktopManager × List Signal :=
  let rows := min m.rows m.count
  let columns := m.count / rows
  let (columns, rows, orientation) := match m.rootInfo with
    | some info => (toUInt info.columns, toUInt (max 1 info.rows), info.orientation)
    | none => (columns, rows, Orientation.horizontal)
  -- Without columns the default layout has two rows, one for a single desktop.
  let (columns, rows) :=
    if columns = 0 then
      let rows := if m.count = 1 then 1 else 2
      (m.count / rows, rows)
    else (columns, rows)
  setNETDesktopLayout { m with rows := rows } orientation columns rows

def setRows (rows : Nat) : VirtualDesktopManager × List Signal :=
  if rows = 0 ∨ rows > m.count ∨ rows = m.rows then (m, [])
  else
    let columns := m.count / rows + (if m.count % rows > 0 then 1 else 0)
    updateLayout { m with
      rows := rows
      rootInfo := m.rootInfo.map fun _ => ⟨columns, rows, .horizontal⟩ }

/-- `updateRootInfo`: beyond telling the root window the count, the layout is redone. -/
def updateRootInfo : VirtualDesktopManager × List Signal := m.updateLayout

/-- A new object with the next address. -/
def allocate (desktop : VirtualDesktop) : VirtualDesktopManager :=
  { m with heap := Function.update m.heap m.next desktop, next := m.next + 1 }

def defaultName (desktop : Nat) : String := m.translation.desktop desktop

def createVirtualDesktop (position : Nat) (name id : String) :
    VirtualDesktopManager × List Signal :=
  if m.count = maximum then (m, [])
  else
    let position := min position m.count
    let vd := m.next
    let m' := m.allocate ⟨id, name, position + 1⟩
    let m' := { m' with desktops := m.desktops.insertIdx position vd }
    let m' := m'.renumber (m'.desktops.drop (position + 1)) (position + 2)
    let (m', layout) := m'.updateRootInfo
    (m', layout ++ [.desktopCreated vd, .countChanged (m'.count - 1) m'.count])

/-- `m_desktops.remove(i)` followed by the loop that renumbers the displaced desktops. -/
def removeAt (i : Nat) : VirtualDesktopManager :=
  let desktops := m.desktops.eraseIdx i
  renumber { m with desktops := desktops } (desktops.drop i) (i + 1)

/-- Removal by id. Reading the number of a missing current desktop, or an index outside
of the list, is a crash and gives no result. -/
def removeVirtualDesktop (id : String) : Option (VirtualDesktopManager × List Signal) :=
  if m.count = 1 then some (m, [])
  else match m.desktopForId id with
  | none => some (m, [])
  | some desktop =>
    match m.current with
    | none => none
    | some old =>
      let oldCurrent := (m.heap old).x11DesktopNumber
      let i := (m.heap desktop).x11DesktopNumber - 1
      let m' := m.removeAt i
      let newCurrent := min oldCurrent m'.count
      match m'.desktops[newCurrent - 1]? with
      | none => none
      | some new =>
        let m' := { m' with current := some new }
        let changed := if oldCurrent ≠ newCurrent then [.currentChanged oldCurrent newCurrent] else []
        let (m', layout) := m'.updateRootInfo
        some (m', changed ++ layout ++ [.desktopRemoved desktop, .countChanged (m'.count + 1) m'.count])

/-- `setCurrent` on an object. -/
def setCurrentDesktop (newDesktop : Address) : VirtualDesktopManager × List Signal :=
  if m.current = some newDesktop then (m, [])
  else ({ m with current := some newDesktop },
    [.currentChanged m.currentNumber (m.heap newDesktop).x11DesktopNumber])

/-- `setCurrent` on a number. -/
def setCurrent (newDesktop : Nat) : VirtualDesktopManager × List Signal :=
  if newDesktop < 1 ∨ newDesktop > m.count ∨ newDesktop = m.currentNumber then (m, [])
  else match m.desktopForX11Id newDesktop with
    | some d => m.setCurrentDesktop d
    | none => (m, [])

/-- Appends desktops with default names up to the wanted count; the ids are generated. -/
def appendDesktops (ids : Nat → String) : Nat → VirtualDesktopManager → VirtualDesktopManager
  | 0, m => m
  | n + 1, m =>
    let number := m.count + 1
    let m' := m.allocate ⟨ids number, m.defaultName number, number⟩
    appendDesktops ids n { m' with desktops := m.desktops ++ [m.next] }

def setCount (count : Nat) (ids : Nat → String) : VirtualDesktopManager × List Signal :=
  let count := max 1 (min count maximum)
  let oldCount := m.count
  if count = oldCount then (m, [])
  else if count < oldCount then
    let removed := m.desktops.drop count
    let m' := { m with desktops := m.desktops.take count }
    let (m', changed) := match m.current with
      | none => (m', [])
      | some old =>
        let oldCurrent := (m.heap old).x11DesktopNumber
        let newCurrent := min oldCurrent count
        ({ m' with current := m'.desktops[newCurrent - 1]? },
          if oldCurrent ≠ newCurrent then [Signal.currentChanged oldCurrent newCurrent] else [])
    let (m', layout) := m'.updateRootInfo
    (m', changed ++ removed.map .desktopRemoved ++ layout ++ [.countChanged oldCount m'.count])
  else
    let m' := appendDesktops ids (count - oldCount) m
    let created := m'.desktops.drop oldCount
    let (m', layout) := m'.updateRootInfo
    (m', layout ++ created.map .desktopCreated ++ [.countChanged oldCount m'.count])

end VirtualDesktopManager

/-- Requests to the manager, and the root window announcing another layout. -/
inductive Op
  | setCount (count : Nat) (ids : Nat → String)
  | createVirtualDesktop (position : Nat) (name id : String)
  | removeVirtualDesktop (id : String)
  | setCurrent (newDesktop : Nat)
  | setCurrentDesktop (newDesktop : Address)
  | setRows (rows : Nat)
  | updateLayout
  | reportLayout (info : Option NETRootInfo)

/-- One request. Only desktops of the manager are handed to `setCurrentDesktop`, and a
layout of no desktops would divide by zero rows. -/
def step (m : VirtualDesktopManager) : Op → Option VirtualDesktopManager
  | .setCount count ids => some (m.setCount count ids).1
  | .createVirtualDesktop position name id => some (m.createVirtualDesktop position name id).1
  | .removeVirtualDesktop id => (m.removeVirtualDesktop id).map Prod.fst
  | .setCurrent newDesktop => some (m.setCurrent newDesktop).1
  | .setCurrentDesktop d => if d ∈ m.desktops then some (m.setCurrentDesktop d).1 else none
  | .setRows rows => some (m.setRows rows).1
  | .updateLayout => if m.count = 0 then none else some m.updateLayout.1
  | .reportLayout info => some { m with rootInfo := info }

/-- States of the manager after any sequence of requests. -/
def Reachable (m : VirtualDesktopManager) : Prop :=
  ∃ translation, Lib.Reachable step Lib.anyStep (.initial translation) m

end KWinFT.VirtualDesktops
