import KWinFT.Lib.Heap
import KWinFT.RuleBook.Properties

/-! The rule book and the rules that windows hold. A rule is an object that the book and any number of windows refer
to; an operation fails when it follows a reference to a rule that was deleted, or deletes it again. -/
namespace KWinFT.RuleBook

abbrev Window := Nat

/-- The address of a `Rules` object. -/
abbrev Ref := Nat

structure World where
  heap : Lib.Heap Rules
  /-- `m_rules` of the book. -/
  book : List Ref
  /-- `WindowRules` of each window. -/
  rules : Window → List Ref
  updatesDisabled : Bool
  storageRequested : Bool

namespace World

def init : World := ⟨.empty, [], fun _ => [], false, false⟩

variable (s : World)

def setRules (w : Window) (rules : List Ref) : World := { s with rules := Function.update s.rules w rules }

theorem setRules_self (w : Window) (rules : List Ref) : (s.setRules w rules).rules w = rules := Function.update_self ..

theorem setRules_of_ne {w w' : Window} (h : w' ≠ w) (rules : List Ref) : (s.setRules w rules).rules w' = s.rules w' :=
  Function.update_of_ne h ..

/-- What `find` leaves in the book, and what it returns. A temporary rule that matches leaves the book. -/
def findIn (accepts : Rules → Bool) (ignoreTemporary : Bool) : List Ref → Option (List Ref × List Ref)
  | [] => some ([], [])
  | r :: rs =>
    s.heap.read r >>= fun rule =>
    findIn accepts ignoreTemporary rs >>= fun rest =>
      if ignoreTemporary ∧ rule.isTemporary then some (r :: rest.1, rest.2)
      else if accepts rule then some (if rule.isTemporary then rest.1 else r :: rest.1, r :: rest.2)
      else some (r :: rest.1, rest.2)

def setupRules (m : Matcher) (w : Window) (id : Identity) (ignoreTemporary : Bool) : Option World :=
  s.findIn (·.match m id) ignoreTemporary s.book >>= fun found =>
    some ({ s with book := found.1 }.setRules w found.2)

/-- `Rules::update` of one rule. -/
def updateRule (values : Values) (selection : Nat) (s : World) (r : Ref) : Option World :=
  s.heap.read r >>= fun rule =>
    some { s with
      heap := s.heap.modify r (·.update values selection)
      storageRequested := s.storageRequested ∨ rule.updates values selection }

def updateWindowRules (w : Window) (values : Values) (selection : Nat) : Option World :=
  if s.updatesDisabled then some s else (s.rules w).foldlM (updateRule values selection) s

def finishRules (w : Window) (values : Values) : Option World :=
  s.updateWindowRules w values selectAll >>= fun s => some (s.setRules w [])

/-- One rule of `WindowRules::discardTemporary`, together with the rules that stay. -/
def discardTemporaryAt (st : World × List Ref) (r : Ref) : Option (World × List Ref) :=
  st.1.heap.read r >>= fun rule =>
    if rule.temporaryState = 0 then some (st.1, st.2 ++ [r])
    else st.1.heap.free r >>= fun heap => some ({ st.1 with heap := heap }, st.2)

def discardTemporary (w : Window) : Option World :=
  (s.rules w).foldlM discardTemporaryAt (s, []) >>= fun st => some (st.1.setRules w st.2)

/-- The rules of the book are looked at first, for a temporary one among them. -/
def temporaryRulesMessage (rule : Rules) : Option World :=
  s.book.mapM s.heap.read >>= fun _ =>
    some { s with heap := s.heap.alloc { rule with temporaryState := 2 }, book := s.heap.next :: s.book }

def cleanupTemporaryAt (s : World) (r : Ref) : Option World :=
  s.heap.read r >>= fun rule =>
    if rule.temporaryState = 0 then some s
    else if rule.temporaryState = 1 then
      s.heap.free r >>= fun heap => some { s with heap := heap, book := s.book.erase r }
    else some { s with heap := s.heap.modify r fun rule => { rule with temporaryState := rule.temporaryState - 1 } }

def cleanupTemporaryRules : Option World := s.book.foldlM cleanupTemporaryAt s

/-- One rule of `discardUsed`: a rule that is empty after its use goes from this window, from the book and for good. -/
def discardUsedAt (w : Window) (withdrawn : Bool) (s : World) (r : Ref) : Option World :=
  if r ∈ s.rules w then
    s.heap.read r >>= fun rule =>
      let s' : World := { s with
        heap := s.heap.modify r (·.discardUsed withdrawn)
        storageRequested := s.storageRequested ∨ rule.discardsUsed withdrawn }
      if (rule.discardUsed withdrawn).isEmpty then
        s'.heap.free r >>= fun heap =>
          some ({ s' with heap := heap, book := s'.book.erase r }.setRules w ((s'.rules w).erase r))
      else some s'
  else some s

def discardUsed (w : Window) (withdrawn : Bool) : Option World := s.book.foldlM (discardUsedAt w withdrawn) s

end World

inductive Property
  | set (p : SetProperty)
  | force (p : ForceProperty)
deriving DecidableEq

/-- Later rules are not asked for a property that this one has a policy for. -/
def Property.stops : Property → Rules → Bool
  | .set p, rule => (rule.set p).rule ≠ .unused
  | .force p, rule => (rule.force p).rule ≠ .unused

/-- A use of the rules of a window: a check of one property, or an update of what they remember. -/
inductive Access
  | check (w : Window) (p : Property)
  | update (w : Window) (values : Values) (selection : Nat)

def Access.window : Access → Window
  | .check w _ => w
  | .update w _ _ => w

/-- A window of `m_allClients` and the uses of rules that its `applyWindowRules` makes, its own and other windows'. -/
structure Client where
  window : Window
  identity : Identity
  applyWindowRules : List Access

namespace World

/-- The rules that a check looks at: all up to the first that stops it. -/
def checkIn (s : World) (p : Property) : List Ref → Option World
  | [] => some s
  | r :: rs => s.heap.read r >>= fun rule => if p.stops rule then some s else checkIn s p rs

def access (s : World) : Access → Option World
  | .check w p => s.checkIn p (s.rules w)
  | .update w values selection => s.updateWindowRules w values selection

variable (s : World)

/-- Enabling updates brings the rules of all clients up to date. -/
def setUpdatesDisabled (disable : Bool) (clients : List (Window × Values)) : Option World :=
  let s : World := { s with updatesDisabled := disable }
  if disable then some s else clients.foldlM (fun s c => s.updateWindowRules c.1 c.2 selectAll) s

def deleteAll : Option World :=
  s.book.foldlM (fun heap r => heap.free r) s.heap >>= fun heap => some { s with heap := heap, book := [] }

/-- Rules read from the configuration are not temporary. -/
def load (loaded : List Rules) : Option World :=
  s.deleteAll >>= fun s =>
    some { s with
      heap := s.heap.allocAll (loaded.map fun rule => { rule with temporaryState := 0 })
      book := List.range' s.heap.next loaded.length }

def reconfigureClient (m : Matcher) (s : World) (c : Client) : Option World :=
  s.setupRules m c.window c.identity true >>= fun s =>
  c.applyWindowRules.foldlM access s >>= fun s =>
    s.discardUsed c.window false

def slotReconfigure (m : Matcher) (loaded : List Rules) (clients : List Client) : Option World :=
  s.load loaded >>= fun s => clients.foldlM (reconfigureClient m) s

end World

inductive Event
  | setupRules (w : Window) (id : Identity) (ignoreTemporary : Bool)
  | access (a : Access)
  | finishRules (w : Window) (values : Values)
  | discardTemporary (w : Window)
  | temporaryRulesMessage (rule : Rules)
  | cleanupTemporaryRules
  | discardUsed (w : Window) (withdrawn : Bool)
  | setUpdatesDisabled (disable : Bool) (clients : List (Window × Values))
  | slotReconfigure (loaded : List Rules) (clients : List Client)

/-- Fails when a deleted rule is used or deleted. -/
def step (m : Matcher) (s : World) : Event → Option World
  | .setupRules w id ignoreTemporary => s.setupRules m w id ignoreTemporary
  | .access a => s.access a
  | .finishRules w values => s.finishRules w values
  | .discardTemporary w => s.discardTemporary w
  | .temporaryRulesMessage rule => s.temporaryRulesMessage rule
  | .cleanupTemporaryRules => s.cleanupTemporaryRules
  | .discardUsed w withdrawn => s.discardUsed w withdrawn
  | .setUpdatesDisabled disable clients => s.setUpdatesDisabled disable clients
  | .slotReconfigure loaded clients => s.slotReconfigure m loaded clients

end KWinFT.RuleBook
