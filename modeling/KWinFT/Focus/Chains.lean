import Mathlib.Data.List.Basic
import Mathlib.Data.List.InsertIdx

/-! The focus chains: one for the most recently used windows and one for each desktop
number. Every operation is described by the windows it leaves in a chain. -/
namespace KWinFT.Focus

/-- Identity of a window. -/
abbrev Window := Nat

abbrev Chain := List Window

inductive Change
  | makeFirst
  | makeLast
  | update
deriving Repr, DecidableEq

/-- What the chains ask a window about. -/
structure Toplevel where
  wantsTabFocus : Bool
  isOnAllDesktops : Bool
  isOnDesktop : Nat → Bool

/-- `desktopFocusChains` is the hash from desktop numbers to chains. -/
structure FocusChain where
  mostRecentlyUsed : Chain
  desktopFocusChains : Nat → Option Chain
  activeClient : Option Window
  currentDesktop : Nat

def FocusChain.initial : FocusChain := ⟨[], fun _ => none, none, 0⟩

def removeAll (window : Window) (chain : Chain) : Chain := chain.filter (· ≠ window)

def makeFirstInChain (window : Window) (chain : Chain) : Chain := removeAll window chain ++ [window]

def makeLastInChain (window : Window) (chain : Chain) : Chain := window :: removeAll window chain

/-- A new window goes directly after the active one, where that is the first. -/
def insertClientIntoChain (activeClient : Option Window) (window : Window) (chain : Chain) : Chain :=
  if window ∈ chain then chain
  else if activeClient ≠ none ∧ activeClient ≠ some window ∧ chain.getLast? = activeClient then
    chain.insertIdx (chain.length - 1) window
  else chain ++ [window]

def updateClientInChain (activeClient : Option Window) (window : Window) (change : Change)
    (chain : Chain) : Chain :=
  match change with
  | .makeFirst => makeFirstInChain window chain
  | .makeLast => makeLastInChain window chain
  | .update => insertClientIntoChain activeClient window chain

/-- The last position in the chain of a window of the reference's application. -/
def lastOfClient (same : Window → Bool) (chain : Chain) : Option Nat :=
  (List.range chain.length).reverse.find? fun i => chain[i]?.any same

/-- `QList::insert` at the index of the reference. Without it the index is -1, and the window gets in front. -/
def insertAtReference (reference window : Window) (chain : Chain) : Chain :=
  if reference ∈ chain then chain.insertIdx (chain.idxOf reference) window else window :: chain

def moveAfterClientInChain (belongToSameClient : Window → Window → Bool)
    (window reference : Window) (chain : Chain) : Chain :=
  if reference ∉ chain then chain
  else
    let chain := removeAll window chain
    if belongToSameClient reference window then
      insertAtReference reference window chain
    else match lastOfClient (belongToSameClient reference) chain with
      | some i => chain.insertIdx i window
      | none => chain

section membership
variable {x window : Window} {chain : Chain}

@[simp] theorem mem_removeAll : x ∈ removeAll window chain ↔ x ∈ chain ∧ x ≠ window := by
  simp [removeAll]

theorem mem_makeFirstInChain : x ∈ makeFirstInChain window chain ↔ x = window ∨ x ∈ chain := by
  rw [makeFirstInChain, List.mem_append, mem_removeAll, List.mem_singleton]
  tauto

theorem mem_makeLastInChain : x ∈ makeLastInChain window chain ↔ x = window ∨ x ∈ chain := by
  rw [makeLastInChain, List.mem_cons, mem_removeAll]
  tauto

theorem mem_insertClientIntoChain {activeClient : Option Window} :
    x ∈ insertClientIntoChain activeClient window chain ↔ x = window ∨ x ∈ chain := by
  unfold insertClientIntoChain
  split
  · rename_i hmem
    exact ⟨Or.inr, fun h => h.elim (fun he => he ▸ hmem) id⟩
  · split
    · exact List.mem_insertIdx (Nat.sub_le _ _)
    · rw [List.mem_append, List.mem_singleton, or_comm]

/-- Whatever the change, the chain gains the window and loses nothing. -/
@[simp] theorem mem_updateClientInChain {activeClient : Option Window} {change : Change} :
    x ∈ updateClientInChain activeClient window change chain ↔ x = window ∨ x ∈ chain := by
  cases change with
  | makeFirst => exact mem_makeFirstInChain
  | makeLast => exact mem_makeLastInChain
  | update => exact mem_insertClientIntoChain

theorem lastOfClient_lt {same : Window → Bool} {i : Nat}
    (h : lastOfClient same chain = some i) : i < chain.length := by
  have := List.mem_of_find?_eq_some h
  simpa using this

/-- The search finds a position, since the reference is of its own application. -/
private theorem lastOfClient_isSome {same : Window → Bool} {reference : Window}
    (hmem : reference ∈ chain) (hsame : same reference) : (lastOfClient same chain).isSome := by
  obtain ⟨i, hi⟩ := List.mem_iff_getElem?.mp hmem
  have hlt := (List.getElem?_eq_some_iff.mp hi).1
  rw [lastOfClient, List.find?_isSome]
  exact ⟨i, by simpa using hlt, by simp [hi, hsame]⟩

private theorem mem_insertAtReference {reference : Window} :
    x ∈ insertAtReference reference window chain ↔ x = window ∨ x ∈ chain := by
  unfold insertAtReference
  split
  · exact List.mem_insertIdx List.idxOf_le_length
  · exact List.mem_cons

/-- Moving a window adds it to the chains of the reference and to no other. -/
theorem mem_moveAfterClientInChain {belongToSameClient : Window → Window → Bool}
    {reference : Window} (hrefl : belongToSameClient reference reference) :
    x ∈ moveAfterClientInChain belongToSameClient window reference chain ↔
      x ∈ chain ∨ (x = window ∧ reference ∈ chain) := by
  have hback (href : reference ∈ chain) :
      (x = window ∨ x ∈ removeAll window chain) ↔ x ∈ chain ∨ (x = window ∧ reference ∈ chain) := by
    rw [mem_removeAll]
    tauto
  unfold moveAfterClientInChain
  split
  · next href => simp [href]
  · next href =>
    rw [not_not] at href
    dsimp only
    split
    · exact mem_insertAtReference.trans (hback href)
    · next hother =>
      have hne : reference ≠ window := by
        rintro rfl
        exact hother hrefl
      have hmem : reference ∈ removeAll window chain := mem_removeAll.mpr ⟨href, hne⟩
      obtain ⟨i, hi⟩ := Option.isSome_iff_exists.mp (lastOfClient_isSome hmem hrefl)
      rw [hi]
      exact (List.mem_insertIdx (Nat.le_of_lt (lastOfClient_lt hi))).trans (hback href)

end membership

namespace FocusChain
variable (f : FocusChain)

/-- Applies one change to each of the per-desktop chains. -/
def mapChains (g : Nat → Chain → Chain) : FocusChain :=
  { f with desktopFocusChains := fun key => (f.desktopFocusChains key).map (g key) }

def remove (window : Window) : FocusChain :=
  { f.mapChains fun _ => removeAll window with mostRecentlyUsed := removeAll window f.mostRecentlyUsed }

/-- New chains are empty; the numbers from `newSize` on lose theirs. -/
def resize (previousSize newSize : Nat) : FocusChain :=
  { f with desktopFocusChains := fun key =>
      if previousSize < key ∧ key ≤ newSize then some []
      else if newSize < key ∧ key ≤ previousSize then none
      else f.desktopFocusChains key }

def update (window : Window) (t : Toplevel) (change : Change) : FocusChain :=
  if ¬ t.wantsTabFocus then f.remove window
  else
    let f' := f.mapChains fun key chain =>
      if t.isOnAllDesktops then
        if key = f.currentDesktop ∧ (change = .makeFirst ∨ change = .makeLast) then
          if change = .makeFirst then makeFirstInChain window chain else makeLastInChain window chain
        else insertClientIntoChain f.activeClient window chain
      else if t.isOnDesktop key then updateClientInChain f.activeClient window change chain
      else removeAll window chain
    { f' with
      mostRecentlyUsed := updateClientInChain f.activeClient window change f.mostRecentlyUsed }

def moveAfterClient (belongToSameClient : Window → Window → Bool) (window : Window)
    (t : Toplevel) (reference : Window) : FocusChain :=
  if ¬ t.wantsTabFocus then f
  else
    let f' := f.mapChains fun key chain =>
      if ¬ t.isOnDesktop key then chain
      else moveAfterClientInChain belongToSameClient window reference chain
    { f' with
      mostRecentlyUsed := moveAfterClientInChain belongToSameClient window reference f.mostRecentlyUsed }

def setActiveClient (window : Option Window) : FocusChain := { f with activeClient := window }

def setCurrentDesktop (newDesktop : Nat) : FocusChain := { f with currentDesktop := newDesktop }

/-- Whether the chain of a desktop number holds the window. -/
def contains (window : Window) (desktop : Nat) : Bool :=
  match f.desktopFocusChains desktop with
  | none => false
  | some chain => chain.contains window

/-- The numbers that have a chain. -/
def Keyed (count : Nat) : Prop :=
  ∀ key, (f.desktopFocusChains key).isSome ↔ 1 ≤ key ∧ key ≤ count

variable {f} {window x : Window} {t : Toplevel} {key count : Nat}

theorem contains_iff :
    f.contains window key ↔ ∃ chain, f.desktopFocusChains key = some chain ∧ window ∈ chain := by
  unfold contains
  split <;> simp_all

theorem contains_mapChains {g : Nat → Chain → Chain} :
    (f.mapChains g).contains window key ↔
      ∃ chain, f.desktopFocusChains key = some chain ∧ window ∈ g key chain := by
  rw [contains_iff]
  simp [mapChains]

theorem Keyed.mapChains (h : f.Keyed count) (g : Nat → Chain → Chain) :
    (f.mapChains g).Keyed count := by
  intro key
  simpa [FocusChain.mapChains] using h key

theorem Keyed.update (h : f.Keyed count) (window : Window) (t : Toplevel) (change : Change) :
    (f.update window t change).Keyed count := by
  unfold FocusChain.update
  split
  · exact h.mapChains _
  · exact h.mapChains _

theorem Keyed.moveAfterClient (h : f.Keyed count) (same : Window → Window → Bool) (window : Window)
    (t : Toplevel) (reference : Window) : (f.moveAfterClient same window t reference).Keyed count := by
  unfold FocusChain.moveAfterClient
  split
  · exact h
  · exact h.mapChains _

theorem Keyed.resize {previousSize : Nat} (h : f.Keyed previousSize) (newSize : Nat) :
    (f.resize previousSize newSize).Keyed newSize := by
  intro key
  have hkey := h key
  unfold FocusChain.resize
  dsimp only
  split
  · simp; omega
  · split
    · simp; omega
    · rw [hkey]; omega

/-- A window that is taken out is in no chain. -/
theorem contains_remove : (f.remove window).contains x key ↔ f.contains x key ∧ x ≠ window := by
  rw [show (f.remove window).contains x key = (f.mapChains fun _ => removeAll window).contains x key
    from rfl, contains_mapChains, contains_iff]
  simp only [mem_removeAll]
  tauto

/-- An updated window is in exactly the chains of the desktops it is on. -/
theorem contains_update_self {change : Change} (h : f.Keyed count) (hw : t.wantsTabFocus)
    (hall : t.isOnAllDesktops → t.isOnDesktop key) :
    (f.update window t change).contains window key ↔ (1 ≤ key ∧ key ≤ count) ∧ t.isOnDesktop key := by
  rw [FocusChain.update, if_neg (not_not.mpr hw)]
  dsimp only
  rw [show ∀ m, contains { f.mapChains _ with mostRecentlyUsed := m } window key =
    (f.mapChains _).contains window key from fun _ => rfl, contains_mapChains, ← h key,
    Option.isSome_iff_exists, ← exists_and_right]
  refine exists_congr fun chain => and_congr_right fun _ => ?_
  by_cases ha : t.isOnAllDesktops
  · simp only [ha, if_true, hall ha]
    split
    · split <;> simp [mem_makeFirstInChain, mem_makeLastInChain]
    · simp [mem_insertClientIntoChain]
  · by_cases hd : t.isOnDesktop key <;> simp [ha, hd]

/-- An update leaves the other windows where they are. -/
theorem contains_update_of_ne {change : Change} (hne : x ≠ window) :
    (f.update window t change).contains x key ↔ f.contains x key := by
  unfold FocusChain.update
  split
  · rw [contains_remove, and_iff_left hne]
  · dsimp only
    rw [show ∀ m, contains { f.mapChains _ with mostRecentlyUsed := m } x key =
      (f.mapChains _).contains x key from fun _ => rfl, contains_mapChains, contains_iff]
    refine exists_congr fun chain => and_congr_right fun _ => ?_
    split
    · split
      · split <;> simp [mem_makeFirstInChain, mem_makeLastInChain, hne]
      · simp [mem_insertClientIntoChain, hne]
    · split <;> simp [hne]

/-- Moving a window behind another changes no chain that already agrees with its desktops. -/
theorem contains_moveAfterClient {same : Window → Window → Bool} {reference : Window}
    (hrefl : same reference reference)
    (hx : x = window → t.isOnDesktop key → (f.desktopFocusChains key).isSome → f.contains x key) :
    (f.moveAfterClient same window t reference).contains x key ↔ f.contains x key := by
  unfold FocusChain.moveAfterClient
  split
  · rfl
  · dsimp only
    rw [show ∀ m, contains { f.mapChains _ with mostRecentlyUsed := m } x key =
      (f.mapChains _).contains x key from fun _ => rfl, contains_mapChains, contains_iff]
    refine exists_congr fun chain => and_congr_right fun hchain => ?_
    split
    · rfl
    · rename_i hd
      rw [mem_moveAfterClientInChain hrefl]
      refine or_iff_left_of_imp ?_
      rintro ⟨he, -⟩
      obtain ⟨chain', hc', hmem⟩ := contains_iff.mp (hx he (by simpa using hd) (by simp [hchain]))
      rw [hchain] at hc'
      cases hc'
      exact hmem

/-- Resizing only empties the new chains and drops the old ones. -/
theorem contains_resize {previousSize newSize : Nat} :
    (f.resize previousSize newSize).contains window key ↔
      f.contains window key ∧ ¬ (previousSize < key ∧ key ≤ newSize) ∧
        ¬ (newSize < key ∧ key ≤ previousSize) := by
  rw [contains_iff, contains_iff]
  unfold resize
  dsimp only
  split
  · simp_all
  · split
    · simp_all
    · simp_all

end FocusChain
end KWinFT.Focus
