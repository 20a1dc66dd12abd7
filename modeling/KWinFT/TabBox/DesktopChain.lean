import Mathlib.Data.List.Perm.Basic
import Mathlib.Data.List.Range
import KWinFT.Lib.Runs

/-! The chains of recently used desktops that the switcher goes through, and their manager, which has one
chain for each identifier. -/
namespace KWinFT.TabBox

/-- `m_chain`: desktop numbers, the one used last in front. -/
abbrev DesktopChain := List Nat

/-- The cast of an unsigned number to a signed one. -/
def toInt (n : Nat) : Int := if n < 2147483648 then n else n - 4294967296

namespace DesktopChain

def init (initialSize : Nat) : DesktopChain := List.range' 1 initialSize

def next (chain : DesktopChain) (indexDesktop : Nat) : Nat :=
  if indexDesktop ∈ chain ∧ chain.idxOf indexDesktop + 1 < chain.length then
    chain.getD (chain.idxOf indexDesktop + 1) 0
  else if 0 < chain.length then chain.getD 0 0
  else 1

/-- A vector that grows has zeros at its end until they are written. -/
def resize (chain : DesktopChain) (previousSize newSize : Nat) : DesktopChain :=
  let chain := chain.take newSize ++ List.replicate (newSize - chain.length) 0
  if newSize ≥ previousSize then chain.mapIdx fun i d => if previousSize ≤ i then i + 1 else d
  else chain.map (min · newSize)

/-- The loop that moves the elements up to an index by one position. -/
def shift : Nat → DesktopChain → DesktopChain
  | 0, chain => chain
  | i + 1, chain => shift i (chain.set (i + 1) (chain.getD i 0))

def add (chain : DesktopChain) (desktop : Nat) : DesktopChain :=
  if chain = [] ∨ toInt desktop > chain.length then chain
  else
    let index := if desktop ∈ chain then chain.idxOf desktop else chain.length - 1
    (shift index chain).set 0 desktop

variable {chain : DesktopChain} {desktop newSize : Nat}

theorem shift_set {i : Nat} (h : i < chain.length) : (shift i chain).set 0 desktop = desktop :: chain.eraseIdx i := by
  induction i generalizing chain with
  | zero =>
    cases chain with
    | nil => cases h
    | cons a chain => rfl
  | succ i ih =>
    rw [shift, ih (by simp; omega)]
    congr 1
    apply List.ext_getElem?
    intro j
    simp only [List.getElem?_eraseIdx, List.getElem?_set, List.getD_eq_getElem?_getD]
    grind

theorem resize_grow (h : chain.length ≤ newSize) :
    chain.resize chain.length newSize = chain ++ List.range' (chain.length + 1) (newSize - chain.length) := by
  apply List.ext_getElem?
  intro j
  simp only [resize, ge_iff_le, h, if_true, List.take_of_length_le h, List.getElem?_mapIdx]
  rcases Nat.lt_or_ge j chain.length with hlt | hge
  · rw [List.getElem?_append_left hlt, List.getElem?_append_left hlt, List.getElem?_eq_getElem hlt]
    simp [Nat.not_le.mpr hlt]
  · rw [List.getElem?_append_right hge, List.getElem?_append_right hge]
    rcases Nat.lt_or_ge (j - chain.length) (newSize - chain.length) with hj | hj
    · rw [List.getElem?_replicate_of_lt hj, List.getElem?_range' hj]
      simp [hge]
      omega
    · rw [List.getElem?_eq_none (by simpa using hj), List.getElem?_eq_none (by simpa using hj)]
      rfl

theorem resize_shrink (h : newSize < chain.length) :
    chain.resize chain.length newSize = (chain.take newSize).map (min · newSize) := by
  simp [resize, Nat.not_le.mpr h, Nat.sub_eq_zero_of_le (Nat.le_of_lt h)]

end DesktopChain

/-- A string; the null string differs from the empty one but compares equal to it. -/
inductive QString
  | null
  | text (s : String)
deriving Repr, DecidableEq

namespace QString

def contents : QString → String
  | null => ""
  | text s => s

def isNull : QString → Bool
  | null => true
  | text _ => false

end QString

structure Entry where
  key : QString
  chain : DesktopChain
deriving Repr, DecidableEq

namespace Entry

/-- The entry of a key and the others, if there is one. -/
def find (entries : List Entry) (identifier : QString) : Option (Entry × List Entry) :=
  (entries.find? fun e => e.key.contents = identifier.contents).map fun e =>
    (e, entries.filter fun e => e.key.contents ≠ identifier.contents)

/-- The inserted entry and the others. An entry of the key gets the new value and keeps its key. -/
def insert (entries : List Entry) (identifier : QString) (value : DesktopChain) : Entry × List Entry :=
  match find entries identifier with
  | some (e, entries) => ({ e with chain := value }, entries)
  | none => (⟨identifier, value⟩, entries)

end Entry

/-- The hash of all chains, with the entry that the iterator `m_currentChain` is at kept apart. -/
structure DesktopChainManager where
  currentChain : Entry
  others : List Entry
  maxChainSize : Nat
deriving Repr, DecidableEq

namespace DesktopChainManager
variable (m : DesktopChainManager)

def initial : DesktopChainManager := ⟨⟨.null, .init 0⟩, [], 0⟩

def chains : List Entry := m.currentChain :: m.others

def next (indexDesktop : Nat) : Nat := m.currentChain.chain.next indexDesktop

def resize (previousSize newSize : Nat) : DesktopChainManager :=
  let resized (e : Entry) : Entry := { e with chain := e.chain.resize previousSize newSize }
  ⟨resized m.currentChain, m.others.map resized, newSize⟩

def addDesktop (_previousDesktop currentDesktop : Nat) : DesktopChainManager :=
  { m with currentChain := { m.currentChain with chain := m.currentChain.chain.add currentDesktop } }

def createFirstChain (identifier : QString) : DesktopChainManager :=
  let r := Entry.insert m.others identifier m.currentChain.chain
  { m with currentChain := r.1, others := r.2 }

def addNewChain (identifier : QString) : DesktopChainManager :=
  let r := Entry.insert m.chains identifier (.init m.maxChainSize)
  { m with currentChain := r.1, others := r.2 }

def useChain (identifier : QString) : DesktopChainManager :=
  if m.currentChain.key.isNull then m.createFirstChain identifier
  else match Entry.find m.chains identifier with
    | some (e, others) => { m with currentChain := e, others := others }
    | none => m.addNewChain identifier

end DesktopChainManager

inductive ChainEvent
  | add (desktop : Nat)
  | resize (newSize : Nat)
deriving Repr, DecidableEq

/-- One call; a chain is resized from the size that it has. -/
def chainStep (chain : DesktopChain) : ChainEvent → Option DesktopChain
  | .add desktop => some (chain.add desktop)
  | .resize newSize => some (chain.resize chain.length newSize)

inductive ManagerEvent
  | addDesktop (previousDesktop currentDesktop : Nat)
  | resize (newSize : Nat)
  | useChain (identifier : QString)
deriving Repr, DecidableEq

def managerStep (m : DesktopChainManager) : ManagerEvent → Option DesktopChainManager
  | .addDesktop previousDesktop currentDesktop => some (m.addDesktop previousDesktop currentDesktop)
  | .resize newSize => some (m.resize m.maxChainSize newSize)
  | .useChain identifier => some (m.useChain identifier)

end KWinFT.TabBox
