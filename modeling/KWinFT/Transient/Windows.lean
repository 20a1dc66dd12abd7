import KWinFT.Lib.ErasingLoop
import Mathlib.Logic.Function.Basic

/-! Leads and children of windows, kept in both directions, and the remnants that stay on screen
after their window is gone. A lead counts as a reference to a remnant. -/
namespace KWinFT.Transient

/-- `lead_id`, an X11 window, the root window or none. -/
inductive LeadId
  | none
  | root
  | window (id : Nat)
deriving Repr, DecidableEq

/-- `scheduled` counts the calls of `deleteLater`. The last three fields record whose references
are gone: the creator's, those of effects, and those that the timer dropped. -/
structure Remnant where
  refcount : Int
  timer : Bool
  scheduled : Nat
  released : Bool
  external : Nat
  dropped : Nat
deriving Repr, DecidableEq

namespace Remnant

def ref (r : Remnant) : Remnant := { r with refcount := r.refcount + 1 }

def unref (r : Remnant) : Remnant :=
  let r := { r with refcount := r.refcount - 1 }
  if r.refcount > 0 then r else { r with timer := false, scheduled := r.scheduled + 1 }

/-- The references of `n` leads are given up. -/
def dropRefs : Nat → Remnant → Remnant
  | 0, r => r
  | n + 1, r => dropRefs n { unref r with dropped := r.dropped + 1 }

end Remnant

/-- A window. `x11` is set for managed X11 clients, whose relation reacts to the loss of a child. -/
structure Node where
  alive : Bool
  x11 : Bool
  leads : List Nat
  children : List Nat
  leadId : LeadId
  group : Option Nat
  remnant : Option Remnant
deriving Repr, DecidableEq

namespace Node

def dead : Node := ⟨false, false, [], [], .none, none, none⟩
def fresh (x11 : Bool) : Node := ⟨true, x11, [], [], .none, none, none⟩

def addLead (l : Nat) (n : Node) : Node :=
  { n with leads := n.leads ++ [l], remnant := n.remnant.map Remnant.ref }

def removeLead (l : Nat) (n : Node) : Node :=
  if l ∈ n.leads then
    { n with leads := n.leads.filter (· ≠ l), remnant := n.remnant.map Remnant.unref }
  else n

end Node

/-- All windows with the members of the X11 groups; `born` lists every window there ever was. -/
structure Windows where
  node : Nat → Node
  members : Nat → List Nat
  born : List Nat

namespace Windows

def initial : Windows := ⟨fun _ => .dead, fun _ => [], []⟩

variable (s : Windows)

def modify (w : Nat) (f : Node → Node) : Windows :=
  { s with node := Function.update s.node w (f (s.node w)) }

@[simp] theorem modify_node_same (w : Nat) (f : Node → Node) : (s.modify w f).node w = f (s.node w) :=
  Function.update_self w _ _

theorem modify_node_of_ne {w x : Nat} (h : x ≠ w) (f : Node → Node) : (s.modify w f).node x = s.node x :=
  Function.update_of_ne h _ _

@[simp] theorem modify_members (w : Nat) (f : Node → Node) : (s.modify w f).members = s.members := rfl
@[simp] theorem modify_born (w : Nat) (f : Node → Node) : (s.modify w f).born = s.born := rfl

/-- A new window, which nothing refers to yet. -/
def appear (w : Nat) (x11 : Bool) : Windows :=
  { s.modify w fun _ => .fresh x11 with born := w :: s.born }

def addChild (l c : Nat) : Windows :=
  if c ∈ (s.node l).children then s
  else (s.modify l fun n => { n with children := n.children ++ [c] }).modify c (Node.addLead l)

/-- `win::transient::remove_child`. -/
def removeChildBase (l c : Nat) : Windows :=
  (s.modify l fun n => { n with children := n.children.filter (· ≠ c) }).modify c (Node.removeLead l)

/-- The X11 variant: a client that has lost its last lead is not transient for a window any more,
and setting that state again is void. -/
def removeChild (l c : Nat) : Windows :=
  let s := s.removeChildBase l c
  if (s.node l).x11 ∧ (s.node c).leads = [] ∧ (s.node c).x11 then
    s.modify c fun n => { n with leadId := .none }
  else s

/-- The first result that is decided, in the order of the list. -/
def anyOf {α : Type} (f : α → Option Bool) : List α → Option Bool
  | [] => some false
  | a :: as =>
    match f a with
    | none => none
    | some true => some true
    | some false => anyOf f as

/-- `w->transient()->is_follower_of(x)`, which climbs the leads of `w`; without an answer when it
climbs further than `fuel`. -/
def isFollowerOf (x : Nat) : Nat → Nat → Option Bool
  | 0, _ => none
  | fuel + 1, w =>
    if w ∈ (s.node x).children then some true else anyOf (isFollowerOf x fuel) (s.node w).leads

/-- Fuel for every walk without a repetition. -/
def follows (w x : Nat) : Option Bool := s.isFollowerOf x s.born.length w

/-- The lead walk of `raise_window`: from a lead on to its first lead and so on. -/
def leadWalk : Nat → Nat → Option (List Nat)
  | 0, _ => none
  | fuel + 1, w =>
    match (s.node w).leads.head? with
    | none => some [w]
    | some lead => (leadWalk fuel lead).map (w :: ·)

/-- `transient::~transient`: the leads forget the window, then the children are removed in a loop
over the list that shrinks. At this point the X11 variant of the removal is gone already. -/
def destroyTransient (w : Nat) : Windows :=
  let s := (s.node w).leads.foldl
    (fun s lead => s.modify lead fun n => { n with children := n.children.filter (· ≠ w) }) s
  let s := s.modify w fun n => { n with leads := [] }
  (Lib.visits (s.node w).children).foldl (fun s child => s.removeChildBase w child) s

def destroy (w : Nat) : Windows := (s.destroyTransient w).modify w fun _ => .dead

/-- The leads of the source get `r` in its place, and `r` gets its children. -/
def transfer (r src : Nat) : Windows :=
  let s := (s.node src).leads.foldl (fun s lead => (s.addChild lead r).removeChild lead src) s
  (s.node src).children.foldl (fun s child => (s.addChild r child).removeChild src child) s

/-- The references of the leads are counted here, as the remnant is not yet known to its window. -/
def createRemnant (r src : Nat) : Windows :=
  let leads := (s.node src).leads
  let alive := leads.countP fun l => (s.node l).remnant.isNone
  ((s.appear r false).transfer r src).modify r fun n =>
    { n with remnant := some ⟨1 + leads.length, 0 < alive, 0, false, 0, 0⟩ }

/-- The timer gives up the reference of each lead that is still a proper window. -/
def timeout (r : Nat) : Windows :=
  let n := (s.node r).leads.countP fun l => (s.node l).remnant.isNone
  s.modify r fun m => { m with remnant := m.remnant.map fun rem => .dropRefs n { rem with timer := false } }

end Windows
end KWinFT.Transient
