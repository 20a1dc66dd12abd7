import KWinFT.Focus.Requests

/-! Whether the chains follow the desktops over a run. They do as long as desktops come and go only
where no window of the chains is affected. -/
namespace KWinFT.Focus
open VirtualDesktops
variable {env : Setup} {s s' : Workspace}

/-- The requests that add or remove desktops only do so where no window of the chains is affected. -/
def Undisturbed (env : Setup) (s : Workspace) : Event → Prop
  | .manage (.createVirtualDesktop position _ _) _ =>
    s.manager.count = maximum ∨ FreeFrom env s (min position s.manager.count)
  | .manage (.setCount count _) _ =>
    max 1 (min count maximum) ≤ s.manager.count ∨ FreeFrom env s s.manager.count
  | .manage (.removeVirtualDesktop id) _ =>
    s.manager.count = 1 ∨ ∀ a, s.manager.desktopForId id = some a → FreeAbove env s a
  | _ => True

private theorem Settled.setCurrentDesktop (h : Settled env s) {d : Address} {reactions : Reactions}
    (hd : d ∈ s.manager.desktops)
    (hs : (s.manager.setCurrentDesktop d).2.foldlM (deliver env reactions)
      { s with manager := (s.manager.setCurrentDesktop d).1 } = some s') : Settled env s' := by
  have hn := h.numbered.setCurrentDesktop hd
  unfold VirtualDesktopManager.setCurrentDesktop at hs hn
  split at hs
  · cases hs
    exact h
  · rename_i hc
    rw [if_neg hc] at hn
    refine h.quiet hn rfl rfl ?_ hs
    intro sig hsig
    exact .inr ⟨_, _, List.mem_singleton.mp hsig⟩

private theorem Settled.setCurrent (h : Settled env s) {n : Nat} {reactions : Reactions}
    (hs : (s.manager.setCurrent n).2.foldlM (deliver env reactions)
      { s with manager := (s.manager.setCurrent n).1 } = some s') : Settled env s' := by
  unfold VirtualDesktopManager.setCurrent at hs
  split at hs
  · cases hs
    exact h
  · split at hs
    · rename_i d hd
      exact h.setCurrentDesktop (VirtualDesktopManager.mem_of_desktopForX11Id hd) hs
    · cases hs
      exact h

private theorem Settled.setRows (h : Settled env s) {rows : Nat} {reactions : Reactions}
    (hs : (s.manager.setRows rows).2.foldlM (deliver env reactions)
      { s with manager := (s.manager.setRows rows).1 } = some s') : Settled env s' := by
  have hn := h.numbered.setRows rows
  unfold VirtualDesktopManager.setRows at hs hn
  split at hs
  · cases hs
    exact h
  · rename_i hrows
    rw [if_neg hrows] at hn
    exact h.quiet hn rfl rfl (fun sig hsig => .inl (silent_updateLayout hsig)) hs

private theorem Settled.addClient (h : Settled env s) {w : Window} {ds : List Address} (hw : w ∉ s.allClients)
    (hmem : ∀ d ∈ ds, d ∈ s.manager.desktops) (hlen : env.operationMode = .x11 → ds.length ≤ 1) :
    Settled env { s with
      allClients := s.allClients ++ [w]
      desktops := Function.update s.desktops w ds } := by
  have hother : ∀ x ∈ s.allClients, Function.update s.desktops w ds x = s.desktops x :=
    fun x hx => Function.update_of_ne (ne_of_mem_of_not_mem hx hw) _ _
  refine ⟨rfl, h.numbered, h.keyed, Nat.le_refl _, fun x hx => List.mem_append_left _ (h.clients x hx),
    ?_, ?_, fun x hx ht => .inr fun d h1 hd => ?_⟩
  · intro x a ha
    by_cases hx : x = w
    · subst hx
      simp only [Function.update_self] at ha
      exact h.numbered.allocated a (hmem a ha)
    · simp only [Function.update_of_ne hx] at ha
      exact h.allocated x a ha
  · intro x hx ht
    right
    rcases List.mem_append.mp hx with hx | hx
    · exact (h.placed hx ht).congr rfl (hother x hx)
    · obtain rfl := List.mem_singleton.mp hx
      intro hmode
      simpa using ⟨hlen hmode, hmem⟩
  · refine (h.follows x hx ht d h1 hd).trans ?_
    apply Iff.symm
    exact isOnDesktop_congr rfl (hother x (h.clients x hx))

private theorem Settled.removeClient (h : Settled env s) (w : Window) :
    Settled env { s with
      allClients := removeAll w s.allClients
      focusChain := s.focusChain.remove w
      entered := removeAll w s.entered } := by
  refine ⟨rfl, h.numbered, h.keyed.mapChains _, Nat.le_refl _, ?_, h.allocated,
    fun x hx ht => .inr (h.placed (mem_removeAll.mp hx).1 ht), fun x hx ht => .inr fun d h1 hd => ?_⟩
  · intro x hx
    obtain ⟨hx, hne⟩ := mem_removeAll.mp hx
    exact mem_removeAll.mpr ⟨h.clients x hx, hne⟩
  · obtain ⟨hx, hne⟩ := mem_removeAll.mp hx
    exact (FocusChain.contains_remove.trans (and_iff_left hne)).trans (h.follows x hx ht d h1 hd)

theorem Settled.step (h : Settled env s) {e : Event} (hok : Undisturbed env s e)
    (hs : Focus.step env s e = some s') : Settled env s' := by
  cases e with
  | manage op reactions =>
    obtain ⟨r, hr, hd⟩ := Option.bind_eq_some_iff.mp hs
    cases op with
    | setCount n ids =>
      obtain rfl : _ = r := Option.some.inj hr
      exact h.setCount hok hd
    | createVirtualDesktop position name id =>
      obtain rfl : _ = r := Option.some.inj hr
      exact h.createVirtualDesktop hok hd
    | removeVirtualDesktop id => exact h.removeVirtualDesktop hok hr hd
    | setCurrent n =>
      obtain rfl : _ = r := Option.some.inj hr
      exact h.setCurrent hd
    | setCurrentDesktop d =>
      simp only [request] at hr
      split at hr
      · rename_i hmem
        obtain rfl : _ = r := Option.some.inj hr
        exact h.setCurrentDesktop hmem hd
      · cases hr
    | setRows rows =>
      obtain rfl : _ = r := Option.some.inj hr
      exact h.setRows hd
    | updateLayout =>
      simp only [request] at hr
      split at hr
      · cases hr
      · obtain rfl : _ = r := Option.some.inj hr
        exact h.quiet h.numbered.updateLayout rfl rfl (fun sig hsig => .inl (silent_updateLayout hsig)) hd
    | reportLayout info =>
      obtain rfl : _ = r := Option.some.inj hr
      have hn : Numbered { s.manager with rootInfo := info } :=
        h.numbered.of_same rfl rfl rfl h.numbered.current
      exact h.quiet hn rfl rfl (fun _ hsig => absurd hsig List.not_mem_nil) hd
  | window ws =>
    have ht := h.windowStep ws hs
    rw [Settled, ht.manager]
    exact ht
  | addClient w ds =>
    simp only [Focus.step] at hs
    split at hs
    · rename_i hok
      cases hs
      exact h.addClient hok.1 hok.2.1 hok.2.2
    · cases hs
  | removeClient w => cases hs; exact h.removeClient w

theorem Settled.initial : Settled env .initial :=
  ⟨rfl, .initial _, fun key => by simp [Workspace.initial, FocusChain.initial, VirtualDesktopManager.initial,
    VirtualDesktopManager.count]; omega, Nat.le_refl _, by simp [Workspace.initial],
    by simp [Workspace.initial], by simp [Workspace.initial], by simp [Workspace.initial]⟩

/-- In every run that adds and removes desktops only where no window of the chains is affected, a
window that was entered stays in the chains of exactly the desktops it is on. -/
theorem follows_of_reachable (h : Lib.Reachable (step env) (Undisturbed env) .initial s) : Follows env s :=
  (h.invariant (Settled env) .initial fun _ _ _ hs hok hstep => hs.step hok hstep).follows

def wayland : Setup where
  operationMode := .waylandOnly
  wantsTabFocus _ := true
  belongToSameClient := (· == ·)
  belongToSameClient_refl := by simp
  checkDesktop _ d := d

/-- Two desktops with a window on the second. -/
def twoDesktops : List Event :=
  [.manage (.setCount 2 toString) ⟨[], fun _ => []⟩, .addClient 0 [1], .window (.update 0 .makeFirst)]

theorem third_desktop_follows :
    ∃ s, Lib.execute (step wayland) .initial
        (twoDesktops ++ [.manage (.setCount 3 toString) ⟨[], fun _ => []⟩]) = some s ∧
      s.manager.count = 3 ∧ 0 ∈ s.entered ∧ Follows wayland s := by
  refine ⟨_, rfl, rfl, List.mem_cons_self, follows_of_reachable ?_⟩
  refine .step (.manage (.setCount 3 toString) ⟨[], fun _ => []⟩) (.step (.window (.update 0 .makeFirst))
    (.step (.addClient 0 [1]) (.step (.manage (.setCount 2 toString) ⟨[], fun _ => []⟩) .init ?_ rfl)
      trivial rfl) trivial rfl) ?_ rfl
  · exact .inr fun w hw => absurd hw List.not_mem_nil
  · refine .inr fun w hw _ => ⟨?_, fun d hlt hle => absurd (Nat.lt_of_lt_of_le hlt hle) (Nat.lt_irrefl _)⟩
    obtain rfl := List.mem_singleton.mp hw
    decide

/-- A desktop in front of the others gives the window's desktop the number of a new, empty chain. -/
theorem inserted_desktop_not_follows :
    ∃ s, Lib.Reachable (step wayland) Lib.anyStep .initial s ∧ ¬ Follows wayland s := by
  refine ⟨_, Lib.Reachable.init.execute (twoDesktops ++
    [.manage (.createVirtualDesktop 0 "Desktop" "id") ⟨[], fun _ => []⟩]) rfl, fun h => ?_⟩
  have h3 := h 0 List.mem_cons_self rfl 3 (by decide) (by decide)
  exact absurd (h3.mpr (by decide)) (by decide)

end KWinFT.Focus
