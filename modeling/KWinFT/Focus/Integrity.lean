import KWinFT.Focus.Chains
import KWinFT.Lib.Cyclic
import KWinFT.Lib.Runs

/-! The focus chains over whole runs: no window is in a chain twice, and a window that is moved or updated takes no
other one out. -/
namespace KWinFT.Focus

/-- The classes of windows that can get focus. -/
inductive WindowClass
  | x11
  | wayland
  | internal
deriving Repr, DecidableEq

/-- What the windows are asked about their applications. `sameApplication` compares different windows on X11; a window
on Wayland has a surface as long as it lives. -/
structure Applications where
  windowClass : Window → WindowClass
  surfaceClient : Window → Option Nat
  sameApplication : Window → Window → Bool
  hasSurface : ∀ w, windowClass w = .wayland → (surfaceClient w).isSome

/-- `belongsToSameApplication` of the class of the window. -/
def Applications.belongToSameClient (a : Applications) (window other : Window) : Bool :=
  match a.windowClass window with
  | .x11 => a.windowClass other = .x11 ∧ (window = other ∨ a.sameApplication window other)
  | .wayland => match a.surfaceClient other with
    | some client => a.surfaceClient window = some client
    | none => false
  | .internal => a.windowClass other = .internal

theorem Applications.belongToSameClient_self (a : Applications) (w : Window) : a.belongToSameClient w w := by
  unfold belongToSameClient
  cases hc : a.windowClass w with
  | x11 => simp
  | wayland =>
    obtain ⟨client, hclient⟩ := Option.isSome_iff_exists.mp (a.hasSurface w hc)
    simp [hclient]
  | internal => simp

/-- Each call finds the windows and their applications as they are then. -/
inductive ChainEvent
  | update (window : Window) (t : Toplevel) (change : Change)
  | moveAfterClient (apps : Applications) (window : Window) (t : Toplevel) (reference : Window)
  | remove (window : Window)
  | resize (previousSize newSize : Nat)
  | setActiveClient (window : Option Window)
  | setCurrentDesktop (newDesktop : Nat)

namespace FocusChain

def step (f : FocusChain) : ChainEvent → Option FocusChain
  | .update window t change => some (f.update window t change)
  | .moveAfterClient apps window t reference => some (f.moveAfterClient apps.belongToSameClient window t reference)
  | .remove window => some (f.remove window)
  | .resize previousSize newSize => some (f.resize previousSize newSize)
  | .setActiveClient window => some (f.setActiveClient window)
  | .setCurrentDesktop newDesktop => some (f.setCurrentDesktop newDesktop)

def nextMostRecentlyUsed (f : FocusChain) (reference : Window) : Option Window :=
  if reference ∉ f.mostRecentlyUsed then f.mostRecentlyUsed.head?
  else
    let index := f.mostRecentlyUsed.idxOf reference
    if index = 0 then f.mostRecentlyUsed.getLast? else f.mostRecentlyUsed[index - 1]?

/-- No chain has a window twice. -/
structure Distinct (f : FocusChain) : Prop where
  mostRecentlyUsed : f.mostRecentlyUsed.Nodup
  desktops : ∀ key chain, f.desktopFocusChains key = some chain → chain.Nodup

/-- A window stays in all chains that it is in. -/
structure Keeps (x : Window) (f f' : FocusChain) : Prop where
  mostRecentlyUsed : x ∈ f.mostRecentlyUsed → x ∈ f'.mostRecentlyUsed
  desktops : ∀ key, f.contains x key → f'.contains x key

end FocusChain

section chain
variable {window reference : Window} {chain : Chain} {activeClient : Option Window}

private theorem nodup_removeAll (h : chain.Nodup) : (removeAll window chain).Nodup := h.filter _

private theorem nodup_insertIdx (h : chain.Nodup) (hw : window ∉ chain) {i : Nat} (hi : i ≤ chain.length) :
    (chain.insertIdx i window).Nodup :=
  (List.perm_insertIdx window chain hi).nodup_iff.mpr (List.nodup_cons.mpr ⟨hw, h⟩)

private theorem notMem_removeAll : window ∉ removeAll window chain := fun h => (mem_removeAll.mp h).2 rfl

private theorem nodup_makeFirstInChain (h : chain.Nodup) : (makeFirstInChain window chain).Nodup := by
  rw [makeFirstInChain, ← List.concat_eq_append]
  exact (nodup_removeAll h).concat notMem_removeAll

private theorem nodup_makeLastInChain (h : chain.Nodup) : (makeLastInChain window chain).Nodup :=
  List.nodup_cons.mpr ⟨notMem_removeAll, nodup_removeAll h⟩

private theorem nodup_insertClientIntoChain (h : chain.Nodup) :
    (insertClientIntoChain activeClient window chain).Nodup := by
  unfold insertClientIntoChain
  split
  · exact h
  · next hw =>
    split
    · exact nodup_insertIdx h hw (Nat.sub_le _ _)
    · rw [← List.concat_eq_append]
      exact h.concat hw

private theorem nodup_updateClientInChain {change : Change} (h : chain.Nodup) :
    (updateClientInChain activeClient window change chain).Nodup := by
  cases change with
  | makeFirst => exact nodup_makeFirstInChain h
  | makeLast => exact nodup_makeLastInChain h
  | update => exact nodup_insertClientIntoChain h

/-- The window is taken out before it is put in. -/
private theorem nodup_moveAfterClientInChain {same : Window → Window → Bool} (h : chain.Nodup) :
    (moveAfterClientInChain same window reference chain).Nodup := by
  have hremoved : (removeAll window chain).Nodup := nodup_removeAll h
  unfold moveAfterClientInChain insertAtReference
  split
  · exact h
  · dsimp only
    split
    · split
      · exact nodup_insertIdx hremoved notMem_removeAll List.idxOf_le_length
      · exact List.nodup_cons.mpr ⟨notMem_removeAll, hremoved⟩
    · split
      · next i hi => exact nodup_insertIdx hremoved notMem_removeAll (Nat.le_of_lt (lastOfClient_lt hi))
      · exact hremoved

end chain

namespace FocusChain
variable {f : FocusChain} {window x : Window} {t : Toplevel}

theorem Distinct.initial : Distinct .initial := ⟨List.nodup_nil, fun _ _ h => by cases h⟩

private theorem Distinct.mapChains (h : f.Distinct) {g : Nat → Chain → Chain} {mru : Chain}
    (hg : ∀ key chain, chain.Nodup → (g key chain).Nodup) (hmru : mru.Nodup) :
    Distinct { f.mapChains g with mostRecentlyUsed := mru } := by
  refine ⟨hmru, fun key chain hc => ?_⟩
  obtain ⟨chain', hc', rfl⟩ := Option.map_eq_some_iff.mp hc
  exact hg key chain' (h.desktops key chain' hc')

private theorem Distinct.update (h : f.Distinct) (change : Change) : (f.update window t change).Distinct := by
  unfold FocusChain.update
  split
  · exact h.mapChains (fun _ _ => nodup_removeAll) (nodup_removeAll h.mostRecentlyUsed)
  · refine h.mapChains (fun key chain hc => ?_) (nodup_updateClientInChain h.mostRecentlyUsed)
    split
    · split
      · split
        · exact nodup_makeFirstInChain hc
        · exact nodup_makeLastInChain hc
      · exact nodup_insertClientIntoChain hc
    · split
      · exact nodup_updateClientInChain hc
      · exact nodup_removeAll hc

private theorem Distinct.moveAfterClient (h : f.Distinct) (same : Window → Window → Bool) (reference : Window) :
    (f.moveAfterClient same window t reference).Distinct := by
  unfold FocusChain.moveAfterClient
  split
  · exact h
  · refine h.mapChains (fun key chain hc => ?_) (nodup_moveAfterClientInChain h.mostRecentlyUsed)
    split
    · exact hc
    · exact nodup_moveAfterClientInChain hc

private theorem Distinct.resize (h : f.Distinct) (previousSize newSize : Nat) :
    (f.resize previousSize newSize).Distinct := by
  refine ⟨h.mostRecentlyUsed, fun key chain hc => ?_⟩
  simp only [FocusChain.resize] at hc
  split at hc
  · cases hc
    exact List.nodup_nil
  · split at hc
    · cases hc
    · exact h.desktops key chain hc

theorem Distinct.step {f' : FocusChain} (e : ChainEvent) (h : f.Distinct) (hs : f.step e = some f') : f'.Distinct := by
  cases e with
  | update window t change =>
    cases hs
    exact h.update change
  | moveAfterClient apps window t reference =>
    cases hs
    exact h.moveAfterClient _ reference
  | remove window =>
    cases hs
    exact h.mapChains (fun _ _ => nodup_removeAll) (nodup_removeAll h.mostRecentlyUsed)
  | resize previousSize newSize =>
    cases hs
    exact h.resize previousSize newSize
  | setActiveClient window =>
    cases hs
    exact ⟨h.mostRecentlyUsed, h.desktops⟩
  | setCurrentDesktop newDesktop =>
    cases hs
    exact ⟨h.mostRecentlyUsed, h.desktops⟩

private theorem keeps_moveAfterClient (apps : Applications) (reference : Window) :
    Keeps x f (f.moveAfterClient apps.belongToSameClient window t reference) := by
  have hself := apps.belongToSameClient_self reference
  unfold FocusChain.moveAfterClient
  split
  · exact ⟨id, fun _ => id⟩
  · refine ⟨fun hx => (mem_moveAfterClientInChain hself).mpr (.inl hx), fun key hx => ?_⟩
    obtain ⟨chain, hc, hx⟩ := contains_iff.mp hx
    refine contains_iff.mpr ⟨_, congrArg (Option.map _) hc, ?_⟩
    dsimp only
    split
    · exact hx
    · exact (mem_moveAfterClientInChain hself).mpr (.inl hx)

private theorem keeps_update_of_ne (change : Change) (hne : x ≠ window) : Keeps x f (f.update window t change) := by
  refine ⟨fun hx => ?_, fun key hx => (contains_update_of_ne hne).mpr hx⟩
  unfold FocusChain.update
  split
  · exact mem_removeAll.mpr ⟨hx, hne⟩
  · exact mem_updateClientInChain.mpr (.inr hx)

/-- Next is towards the front, and the last one after the first. -/
theorem nextMostRecentlyUsed_retreats (h : f.mostRecentlyUsed.Nodup) :
    Lib.Retreats f.nextMostRecentlyUsed f.mostRecentlyUsed := by
  intro i a hi
  obtain ⟨hlt, rfl⟩ := List.getElem?_eq_some_iff.mp hi
  have hidx : f.mostRecentlyUsed.idxOf f.mostRecentlyUsed[i] = i := h.idxOf_getElem i hlt
  rw [nextMostRecentlyUsed, if_neg (not_not.mpr (List.getElem_mem hlt))]
  simp only [hidx]
  split
  · next hzero =>
    rw [hzero, Nat.zero_add, Nat.mod_eq_of_lt (by omega), List.getLast?_eq_getElem?]
  · next hpos =>
    rw [show i + (f.mostRecentlyUsed.length - 1) = i - 1 + f.mostRecentlyUsed.length by omega, Nat.add_mod_right,
      Nat.mod_eq_of_lt (by omega)]

/-- Going on from a member all members are met, each once, until the first one comes again. -/
private theorem nextMostRecentlyUsed_visits (h : f.mostRecentlyUsed.Nodup) (hx : x ∈ f.mostRecentlyUsed) :
    ((List.range f.mostRecentlyUsed.length).map fun k => Lib.steps f.nextMostRecentlyUsed k x).Perm
      (f.mostRecentlyUsed.map some) ∧
    Lib.steps f.nextMostRecentlyUsed f.mostRecentlyUsed.length x = some x := by
  have hadvances := (nextMostRecentlyUsed_retreats h).reverse
  obtain ⟨i, hi⟩ := List.mem_iff_getElem?.mp (List.mem_reverse.mpr hx)
  have hmap := hadvances.map_steps hi
  have hlast := hadvances.steps_length hi
  rw [List.length_reverse] at hmap hlast
  rw [hmap]
  exact ⟨((List.rotate_perm _ i).trans (List.reverse_perm _)).map some, hlast⟩

/-- Whatever happens, no chain gets a window twice, moving a window takes it from no chain, updating one takes no other
one out, and the most recently used windows can be gone through in turn. -/
theorem chains_keep_windows {f : FocusChain} (h : Lib.Reachable step Lib.anyStep .initial f) :
    f.Distinct ∧
    (∀ (apps : Applications) (window : Window) (t : Toplevel) (reference : Window),
      Keeps window f (f.moveAfterClient apps.belongToSameClient window t reference)) ∧
    (∀ window t change x, x ≠ window → Keeps x f (f.update window t change)) ∧
    ∀ x ∈ f.mostRecentlyUsed,
      ((List.range f.mostRecentlyUsed.length).map fun k => Lib.steps f.nextMostRecentlyUsed k x).Perm
        (f.mostRecentlyUsed.map some) ∧
      Lib.steps f.nextMostRecentlyUsed f.mostRecentlyUsed.length x = some x := by
  have hd : f.Distinct := h.invariant _ .initial fun _ e _ hf _ hs => hf.step e hs
  refine ⟨hd, fun apps window t reference => keeps_moveAfterClient apps reference,
    fun window t change x hne => keeps_update_of_ne change hne, fun x hx => ?_⟩
  exact nextMostRecentlyUsed_visits hd.mostRecentlyUsed hx

/-- Internal windows belong together. -/
def internalWindows : Applications := ⟨fun _ => .internal, fun _ => none, fun _ _ => false, fun _ h => nomatch h⟩

/-- A window that is moved after itself becomes the least recently used one. -/
theorem moved_to_itself_kept : ∃ f, Lib.Reachable step Lib.anyStep .initial f ∧ f.mostRecentlyUsed = [2, 1] ∧
    f.Distinct ∧ Lib.steps f.nextMostRecentlyUsed 2 1 = some 1 := by
  let anywhere : Toplevel := ⟨true, true, fun _ => true⟩
  have hrun : Lib.Reachable step Lib.anyStep .initial _ :=
    Lib.Reachable.init.execute [.resize 0 1, .update 1 anywhere .makeFirst, .update 2 anywhere .makeFirst,
      .moveAfterClient internalWindows 2 anywhere 2] rfl
  obtain ⟨hd, -, -, hnext⟩ := chains_keep_windows hrun
  exact ⟨_, hrun, rfl, hd, (hnext 1 (by decide)).2⟩

end FocusChain

end KWinFT.Focus
