import KWinFT.VirtualDesktops.Numbering

/-! The Desktops group of the configuration, and how the manager reads and writes it. Loading sets a
flag that keeps new desktops without an id and suppresses saving. -/
namespace KWinFT.VirtualDesktops

/-- The group with its numbered keys; only finitely many ids are stored. -/
structure Config where
  number : Option Int32
  rows : Option Int32
  names : Nat → Option String
  ids : Nat → Option String
  last : Nat
  ids_last : ∀ i, last < i → ids i = none

namespace Config
variable (c : Config)

def writeName (i : Nat) (name : Option String) : Config :=
  { c with names := Function.update c.names i name }

def writeId (i : Nat) (id : String) : Config where
  number := c.number
  rows := c.rows
  names := c.names
  ids := Function.update c.ids i (some id)
  last := max c.last i
  ids_last j hj := by
    rw [Function.update_of_ne (by omega)]
    exact c.ids_last j (by omega)

def deleteId (i : Nat) : Config where
  number := c.number
  rows := c.rows
  names := c.names
  ids := Function.update c.ids i none
  last := c.last
  ids_last j hj := by
    by_cases h : j = i
    · rw [h, Function.update_self]
    · rw [Function.update_of_ne h, c.ids_last j hj]

/-- Deletes the entries from number `i` on, as long as there is an id. -/
def deleteFrom : Nat → Nat → Config → Config
  | 0, _, c => c
  | fuel + 1, i, c =>
    if (c.ids i).isSome then deleteFrom fuel (i + 1) ((c.deleteId i).writeName i none) else c

end Config

namespace VirtualDesktopManager
variable (m : VirtualDesktopManager)

/-- The name of the desktop with a number; none is asked for beyond the count here. -/
def name (desktop : Nat) : String :=
  match m.desktops[desktop - 1]? with
  | some d => (m.heap d).name
  | none => m.defaultName desktop

/-- One round of the loop of `save`. -/
def writeDesktop (c : Config) (i : Nat) : Config :=
  let s := if m.name i = "" then m.defaultName i else m.name i
  let c :=
    if s ≠ m.defaultName i then c.writeName i (some s)
    else if (c.names i).getD "" ≠ m.defaultName i then c.writeName i none
    else c
  match m.desktops[i - 1]? with
  | some d => c.writeId i (m.heap d).id
  | none => c

/-- The first rounds of the loop. -/
def writeDesktops (c : Config) : Nat → Config
  | 0 => c
  | i + 1 => m.writeDesktop (writeDesktops c i) (i + 1)

/-- The group as `save` leaves it. -/
def store (c : Config) : Config :=
  let c := c.deleteFrom c.last (m.count + 1)
  let c := { c with number := some (Int32.ofNat m.count) }
  let c := m.writeDesktops c m.count
  { c with rows := some (Int32.ofNat m.rows) }

def setName (d : Address) (name : String) : VirtualDesktopManager :=
  { m with heap := Function.update m.heap d { m.heap d with name := name } }

def setId (d : Address) (id : String) : VirtualDesktopManager :=
  { m with heap := Function.update m.heap d { m.heap d with id := id } }

/-- A string as `char const*` gives it back. -/
def cString (s : String) : String := String.ofList (s.toList.takeWhile (· ≠ '\x00'))

/-- One round of the loop of `load`. An index beyond the desktops is outside of the memory. -/
def loadDesktop (c : Config) (generate : Nat → String) (i : Nat) : Option VirtualDesktopManager :=
  match m.desktops[i - 1]? with
  | none => none
  | some d =>
    let m := m.setName d (cString ((c.names i).getD (m.defaultName i)))
    let sId := (c.ids i).getD ""
    if (m.heap d).id = "" then some (m.setId d (if sId = "" then generate i else sId)) else some m

def loadDesktops (c : Config) (generate : Nat → String) : Nat → Option VirtualDesktopManager
  | 0 => some m
  | i + 1 => (loadDesktops c generate i).bind fun m => m.loadDesktop c generate (i + 1)

end VirtualDesktopManager

/-- The manager with its configuration and the flag `s_loadingDesktopSettings`. -/
structure Session where
  manager : VirtualDesktopManager
  config : Option Config
  loading : Bool

namespace Session
variable (s : Session)

def save : Session :=
  if s.loading then s
  else match s.config with
  | none => s
  | some c => { s with config := some (s.manager.store c) }

/-- The ids that are missing come from `generate`; no result is an access outside of the desktops. -/
def load (generate : Nat → String) : Option Session :=
  match s.config with
  | none => some { s with loading := true }
  | some c =>
    let n := (c.number.getD 1).toInt
    let m := (s.manager.setCount (toUInt n) fun _ => "").1
    (m.loadDesktops c generate n.toNat).map fun m =>
      let rows := (c.rows.getD 2).toInt
      { s with manager := { m with rows := (max 1 (min n rows)).toNat }, loading := false }

end Session

end KWinFT.VirtualDesktops
