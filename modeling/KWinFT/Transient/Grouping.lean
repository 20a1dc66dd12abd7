import KWinFT.Lib.Runs
import KWinFT.Transient.Windows

/-! Transiency of X11 clients: the property that names a lead, the groups whose transients are
children of all other members, and everything that may happen to the relation in a run. -/
namespace KWinFT.Transient

/-- The group a client without a lead belongs to, by its group leader or by its client leader.
In the second case other windows are told to change their group first, each with the group to be in. -/
structure GroupChoice where
  group : Nat
  merged : List (Nat × Nat)
deriving Repr, DecidableEq

/-- WM_TRANSIENT_FOR as read from the server: its value if it is set, whether the window is a
splash screen, and the parents of the value in the window tree. -/
structure Property where
  value : Option LeadId
  splash : Bool
  ancestors : List LeadId
deriving Repr, DecidableEq

namespace Windows
variable (s : Windows)

def isClient (w : Nat) : Bool := (s.node w).alive && (s.node w).x11

/-- `findClient`. -/
def findClient : LeadId → Option Nat
  | .window w => if s.isClient w then some w else none
  | _ => none

def groupTransient (w : Nat) : Bool := (s.node w).leadId = .root

def normalTransient (w : Nat) : Bool := !s.groupTransient w && (s.node w).leads ≠ []

def setLeadId (w : Nat) (id : LeadId) : Windows := s.modify w fun n => { n with leadId := id }

def setGroup (w : Nat) (g : Option Nat) : Windows := s.modify w fun n => { n with group := g }

def setMembers (g : Nat) (ms : List Nat) : Windows :=
  { s with members := Function.update s.members g ms }

/-- If the kinds of transients allow it: `w` is not a follower of `x`. -/
def mayLead (kinds : Bool) (w x : Nat) : Option Bool :=
  if kinds then (s.follows w x).map not else some false

/-- One round of the loop when `win` joins. It becomes a child if it is a group transient and
that closes no cycle, else the member may become its child. -/
def joinMember (win : Nat) (groupTr normalTr : Bool) (s : Windows) (m : Nat) : Option Windows :=
  if m = win then some s
  else
    (s.mayLead (groupTr && !s.normalTransient m) m win).bind fun asChild =>
      if asChild then some (s.addChild m win)
      else (s.mayLead (s.groupTransient m && !normalTr) win m).map fun asLead =>
        if asLead then s.addChild win m else s

def updateGroupAdd (win g : Nat) : Option Windows :=
  let s := if win ∈ s.members g then s else s.setMembers g (s.members g ++ [win])
  (s.members g).foldlM (joinMember win (s.groupTransient win) (s.normalTransient win)) s

/-- One round of the loop when `win` leaves: only the window it is transient for stays its lead. -/
def leaveMember (win : Nat) (s : Windows) (m : Nat) : Windows :=
  if (s.node win).leadId = .window m then s.addChild m win else s.removeChild m win

/-- A group transient gets a lead again that it is not related to any more. -/
def releadMember (m : Nat) (s : Windows) (lead : Nat) : Option Windows :=
  if lead = m then some s
  else
    (s.follows m lead).bind fun below =>
      if below then some s
      else (s.follows lead m).map fun above => if above then s else s.addChild lead m

/-- The relations among the other members that were cut off are put back. -/
def releadMembers (g : Nat) : Option Windows :=
  (s.members g).foldlM
    (fun s m => if s.groupTransient m then (s.members g).foldlM (releadMember m) s else some s) s

def updateGroupRemove (win g : Nat) : Option Windows :=
  let s := s.setMembers g ((s.members g).filter (· ≠ win))
  (((s.members g).foldl (leaveMember win) s).releadMembers g).map (·.setGroup win none)

/-- The group is left if it is not the one to be in. -/
def leaveGroup (win : Nat) (target : Option Nat) : Option Windows :=
  match (s.node win).group with
  | some g => if some g ≠ target then s.updateGroupRemove win g else some s
  | none => some s

/-- `check_group` with the group decided on. -/
def enterGroup (win : Nat) (target : Option Nat) : Option Windows :=
  (s.leaveGroup win target).bind fun s =>
    match target with
    | some g => (s.setGroup win target).updateGroupAdd win g
    | none => some (s.setGroup win target)

def changeClientLeaderGroup (m g : Nat) : Option Windows :=
  if ¬ s.isClient m then none
  else if (s.node m).leadId ≠ .none ∧ (s.node m).leadId ≠ .root then some s
  else s.enterGroup m (some g)

def checkGroup (win : Nat) (choice : GroupChoice) : Option Windows :=
  match (s.node win).leads.head? with
  | some lead => s.enterGroup win (s.node lead).group
  | none =>
    (choice.merged.foldlM (fun (s : Windows) change => s.changeClientLeaderGroup change.1 change.2) s).bind fun s =>
      s.enterGroup win (some choice.group)

/-- The loop in `set_transient_lead` over the leads, each of which drops the window. -/
def detach (win : Nat) : Windows :=
  (Lib.visits (s.node win).leads).foldl (fun s lead => s.removeChild lead win) s

/-- A client becomes the lead; if it was a child of the window it is not any more. -/
def attach (win l : Nat) : Windows :=
  (if l ∈ (s.node win).children then s.removeChild win l else s).addChild l win

/-- The leads are replaced by the one with the given id, if it is one of a window. -/
def replaceLead (win : Nat) (id : LeadId) : Option Windows :=
  let s := (s.detach win).setLeadId win id
  match id with
  | .window _ => (s.findClient id).map (s.attach win)
  | _ => some s

def setTransientLead (win : Nat) (id : LeadId) (choice : GroupChoice) : Option Windows :=
  if id = (s.node win).leadId then some s
  else (s.replaceLead win id).bind (·.checkGroup win choice)

/-- A window below the root that is not managed stands for the managed one it is part of. -/
def managedAncestor (id : LeadId) : List LeadId → LeadId
  | [] => id
  | p :: ps =>
    if id = .none ∨ id = .root ∨ (s.findClient id).isSome then id else managedAncestor p ps

/-- Whether the chain of lead ids comes back to `win` or is longer than the count. The source
walks on after the finding, which does not change it. -/
def leadIdLoop (win : Nat) : Nat → LeadId → Bool
  | 0, _ => true
  | count + 1, id =>
    match s.findClient id with
    | none => false
    | some p => p = win || leadIdLoop win count (s.node p).leadId

/-- A lead that closes a loop or is not managed makes the window a group transient. -/
def checkedLeadId (win : Nat) (id : LeadId) : LeadId :=
  let id := if s.leadIdLoop win 20 id then .root else id
  if id ≠ .root ∧ s.findClient id = none then .root else id

def verifyTransientFor (win : Nat) (p : Property) : LeadId :=
  let id := p.value.getD .none
  let id := if p.splash ∧ id = .none then .root else id
  if id = .none ∧ p.value = none then .none
  else
    let id := if id = .none then .root else id
    let before := if id = .window win then .root else id
    let id := s.managedAncestor before p.ancestors
    s.checkedLeadId win (if (s.findClient id).isSome then id else before)

def readTransientProperty (win : Nat) (p : Property) (choice : GroupChoice) : Option Windows :=
  s.setTransientLead win (s.verifyTransientFor win p) choice

def cleanGrouping (win : Nat) : Option Windows :=
  let s := s.setLeadId win .none
  match (s.node win).group with
  | some g => s.updateGroupRemove win g
  | none => some s

/-- A window closes: its remnant takes over its leads and children, and an X11 client leaves its
group and is not found any more. -/
def close (r src : Nat) : Option Windows :=
  let s := s.createRemnant r src
  if (s.node src).x11 then
    (s.cleanGrouping src).map fun s => s.modify src fun n => { n with x11 := false }
  else some s

end Windows

inductive Event
  | manage (w : Nat) (x11 : Bool)
  | addChild (l c : Nat)
  | removeChild (l c : Nat)
  | setTransientLead (win : Nat) (id : LeadId) (choice : GroupChoice)
  | readTransientProperty (win : Nat) (p : Property) (choice : GroupChoice)
  | checkGroup (win : Nat) (choice : GroupChoice)
  | updateGroup (win : Nat) (add : Bool)
  | close (r src : Nat)
  | destroy (w : Nat)
  | ref (r : Nat)
  | unref (r : Nat)
  | release (r : Nat)
  | timeout (r : Nat)
  | discard (r : Nat)
deriving Repr, DecidableEq

/-- The remnant of a window changes by `f`, if it is one that meets the condition. -/
def Windows.onRemnant (s : Windows) (r : Nat) (c : Remnant → Bool) (f : Remnant → Remnant) : Option Windows :=
  match (s.node r).remnant with
  | some rem =>
    if c rem then some (s.modify r fun n => { n with remnant := n.remnant.map f }) else none
  | none => none

/-- One event on windows that exist. A new lead or child is never put on one that is gone. Objects
are deleted from the event loop: a window outside of its group, and a remnant only when it was
scheduled. -/
def step (s : Windows) : Event → Option Windows
  | .manage w x11 =>
    if w ∈ s.born then none else some (s.appear w x11)
  | .addChild l c =>
    if (s.node l).alive ∧ (s.node c).alive ∧ l ≠ c then some (s.addChild l c) else none
  | .removeChild l c =>
    if (s.node l).alive ∧ (s.node c).alive then some (s.removeChild l c) else none
  | .setTransientLead win id choice =>
    if s.isClient win ∧ id ≠ .window win then s.setTransientLead win id choice else none
  | .readTransientProperty win p choice =>
    if s.isClient win then s.readTransientProperty win p choice else none
  | .checkGroup win choice => if s.isClient win then s.checkGroup win choice else none
  | .updateGroup win add =>
    if s.isClient win then
      (s.node win).group.bind fun g => if add then s.updateGroupAdd win g else s.updateGroupRemove win g
    else none
  | .close r src =>
    if r ∉ s.born ∧ (s.node src).alive ∧ (s.node src).remnant = none ∧
        (s.node src).leads.all (fun l => (s.node l).alive) then s.close r src else none
  | .destroy w =>
    if (s.node w).alive ∧ (s.node w).group = none ∧
        (s.node w).remnant.all (fun rem => decide (0 < rem.scheduled)) then
      some (s.destroy w) else none
  | .ref r => s.onRemnant r (fun _ => true) fun rem => { rem.ref with external := rem.external + 1 }
  | .unref r => s.onRemnant r (fun rem => decide (0 < rem.external)) fun rem =>
      { rem.unref with external := rem.external - 1 }
  | .release r => s.onRemnant r (fun rem => !rem.released) fun rem => { rem.unref with released := true }
  | .timeout r => if (s.node r).remnant.any (·.timer) then some (s.timeout r) else none
  | .discard r => if (s.node r).remnant.isSome then some (s.destroy r) else none

end KWinFT.Transient
