import KWinFT.VirtualDesktops.Numbering
import KWinFT.Focus.Wiring

/-! The chains against the windows while the manager stands still. Desktops may have left the
manager already; the windows on them wait for the signal that sends them away. -/
namespace KWinFT.Focus
open VirtualDesktops

/-- The chains of the existing desktop numbers hold the window where it is on the desktop. -/
def Tracks (env : Setup) (s : Workspace) (w : Window) : Prop :=
  ∀ d, 1 ≤ d → d ≤ s.manager.count → (s.focusChain.contains w d ↔ s.isOnDesktop env w d)

/-- On X11 the desktop of a window is read off the object it holds, which must be alive. -/
def Placed (env : Setup) (s : Workspace) (w : Window) : Prop :=
  env.operationMode = .x11 → (s.desktops w).length ≤ 1 ∧ ∀ a ∈ s.desktops w, a ∈ s.manager.desktops

/-- A window that the handler of `desktopRemoved` still has to send away. -/
def Waits (env : Setup) (pending : List Address) (s : Workspace) (w : Window) : Prop :=
  match env.operationMode with
  | .x11 => pending ≠ [] ∧ s.desktop w > s.manager.count
  | .waylandOnly | .xwayland => ∃ a ∈ pending, a ∈ s.desktops w

section presence
variable {env : Setup} {s s' : Workspace} {w : Window} {d : Nat}

/-! Where a window is depends on the manager and on the desktops the window holds. -/

theorem desktop_congr (hm : s'.manager = s.manager) (hd : s'.desktops w = s.desktops w) :
    s'.desktop w = s.desktop w := by
  rw [Workspace.desktop, Workspace.desktop, hm, hd]

theorem isOnDesktop_congr (hm : s'.manager = s.manager) (hd : s'.desktops w = s.desktops w) :
    s'.isOnDesktop env w d ↔ s.isOnDesktop env w d := by
  simp only [Workspace.isOnDesktop, Workspace.isOnAllDesktops, desktop_congr hm hd]
  rw [hm, hd]

theorem Waits.congr {p : List Address} (h : Waits env p s w) (hm : s'.manager = s.manager)
    (hd : s'.desktops w = s.desktops w) : Waits env p s' w := by
  unfold Waits at h ⊢
  rwa [desktop_congr hm hd, hm, hd]

theorem Placed.congr (h : Placed env s w) (hm : s'.manager = s.manager)
    (hd : s'.desktops w = s.desktops w) : Placed env s' w := by
  unfold Placed at h ⊢
  rwa [hm, hd]

theorem isOnAllDesktops_iff : s.isOnAllDesktops env w ↔ s.desktops w = [] := by
  unfold Workspace.isOnAllDesktops
  cases env.operationMode with
  | x11 =>
    rw [decide_eq_true_eq, Workspace.desktop]
    cases hl : (s.desktops w).getLast? with
    | none => simpa using hl
    | some a =>
      have hne : s.desktops w ≠ [] := by
        rintro he
        simp [he] at hl
      simp [hne, onAllDesktops]
  | waylandOnly => simp
  | xwayland => simp

theorem eq_singleton_of_mem {l : List Address} {a : Address} (ha : a ∈ l) (hlen : l.length ≤ 1) : l = [a] := by
  obtain ⟨b, rfl⟩ := List.length_eq_one_iff.mp (Nat.le_antisymm hlen (List.length_pos_of_mem ha))
  rw [List.mem_singleton.mp ha]

/-- In both modes a window is on a desktop if it holds the object of that number. -/
theorem isOnDesktop_iff (hn : Numbered s.manager) (hp : Placed env s w) :
    s.isOnDesktop env w d ↔
      s.desktops w = [] ∨ ∃ a ∈ s.desktops w, s.manager.desktopForX11Id d = some a := by
  rw [Workspace.isOnDesktop, Bool.or_eq_true, isOnAllDesktops_iff, or_comm]
  refine or_congr_right' fun hne => ?_
  unfold Placed at hp
  cases hmode : env.operationMode with
  | x11 =>
    obtain ⟨hlen, hmem⟩ := hp hmode
    obtain ⟨a, ha⟩ := List.exists_mem_of_ne_nil _ hne
    have ha' : a ∈ s.manager.desktops := hmem a ha
    replace ha := eq_singleton_of_mem ha hlen
    simp only [Workspace.desktop, ha, List.getLast?_singleton, List.mem_singleton, exists_eq_left,
      hn.desktopForX11Id_iff ha', decide_eq_true_eq, Int.ofNat_inj]
  | waylandOnly => cases s.manager.desktopForX11Id d <;> simp
  | xwayland => cases s.manager.desktopForX11Id d <;> simp

theorem waits_x11 (hx : env.operationMode = .x11) {p : List Address} :
    Waits env p s w ↔ p ≠ [] ∧ s.desktop w > s.manager.count := by
  rw [Waits, hx]

theorem waits_wayland (hx : env.operationMode ≠ .x11) {p : List Address} :
    Waits env p s w ↔ ∃ a ∈ p, a ∈ s.desktops w := by
  unfold Waits
  cases hmode : env.operationMode with
  | x11 => exact absurd hmode hx
  | waylandOnly => rfl
  | xwayland => rfl

theorem not_waits_nil : ¬ Waits env [] s w := by
  unfold Waits
  cases env.operationMode <;> simp

end presence

/-- With `keys` chains, every window that was entered is tracked or waits for one of its
pending desktops to be announced as removed. -/
structure Tracking (env : Setup) (m : VirtualDesktopManager) (pending : Window → List Address)
    (keys : Nat) (s : Workspace) : Prop where
  manager : s.manager = m
  numbered : Numbered m
  keyed : s.focusChain.Keyed keys
  count_le : m.count ≤ keys
  clients : ∀ w ∈ s.entered, w ∈ s.allClients
  allocated : ∀ w, ∀ a ∈ s.desktops w, a < m.next
  placed : ∀ w ∈ s.allClients, env.wantsTabFocus w → Waits env (pending w) s w ∨ Placed env s w
  tracks : ∀ w ∈ s.entered, env.wantsTabFocus w → Waits env (pending w) s w ∨ Tracks env s w

namespace Tracking
variable {env : Setup} {m : VirtualDesktopManager} {pending pending' : Window → List Address} {keys : Nat}
  {s s' : Workspace} {w : Window}

/-- A window that was put on other desktops, or on none of a kind that matters, and then updated. -/
theorem move (h : Tracking env m pending keys s) (hw : w ∈ s.allClients) (ds : List Address)
    (change : Change) (hpend : ∀ x, x ≠ w → pending' x = pending x) (hal : ∀ a ∈ ds, a < m.next)
    (hp : env.wantsTabFocus w →
      Waits env (pending' w) { s with desktops := Function.update s.desktops w ds } w ∨
      Placed env { s with desktops := Function.update s.desktops w ds } w) :
    Tracking env m pending' keys
      (Workspace.update env { s with desktops := Function.update s.desktops w ds } w change) := by
  -- The other windows look the same before and after.
  have hother : ∀ x, x ≠ w → Function.update s.desktops w ds x = s.desktops x :=
    fun x hx => Function.update_of_ne hx _ _
  refine ⟨h.manager, h.numbered, h.keyed.update _ _ _, h.count_le, ?_, ?_, ?_, ?_⟩
  · intro x hx
    rcases List.mem_cons.mp hx with rfl | hx
    · exact hw
    · exact h.clients x hx
  · intro x a ha
    by_cases hx : x = w
    · subst hx
      simp only [Workspace.update, Function.update_self] at ha
      exact hal a ha
    · simp only [Workspace.update, hother x hx] at ha
      exact h.allocated x a ha
  · intro x hx ht
    by_cases hxw : x = w
    · subst hxw
      exact hp ht
    · rw [hpend x hxw]
      exact (h.placed x hx ht).imp (·.congr rfl (hother x hxw)) (·.congr rfl (hother x hxw))
  · intro x hx ht
    by_cases hxw : x = w
    · subst hxw
      refine .inr fun d h1 hd => ?_
      refine (FocusChain.contains_update_self h.keyed ht ?_).trans ?_
      · intro hall
        exact Bool.or_eq_true_iff.mpr (.inr hall)
      · exact and_iff_right ⟨h1, Nat.le_trans hd (h.manager ▸ h.count_le)⟩
    · rw [hpend x hxw]
      have hx : x ∈ s.entered := (List.mem_cons.mp hx).resolve_left hxw
      refine (h.tracks x hx ht).imp (·.congr rfl (hother x hxw)) fun htr d h1 hd => ?_
      refine (FocusChain.contains_update_of_ne hxw).trans ((htr d h1 hd).trans ?_)
      apply Iff.symm
      exact isOnDesktop_congr rfl (hother x hxw)

theorem update (h : Tracking env m pending keys s) (hw : w ∈ s.allClients) (change : Change) :
    Tracking env m pending keys (s.update env w change) := by
  have hsame : { s with desktops := Function.update s.desktops w (s.desktops w) } = s := by
    rw [Function.update_eq_self]
  have hmove : Tracking env m pending keys (Workspace.update env
      { s with desktops := Function.update s.desktops w (s.desktops w) } w change) := by
    refine h.move hw (s.desktops w) change (fun _ _ => rfl) (h.allocated w) ?_
    rw [hsame]
    exact h.placed w hw
  rwa [hsame] at hmove

/-- A window that is put on other desktops of the manager waits for nothing. -/
theorem setDesktops_of_ne (h : Tracking env m pending keys s) (hw : w ∈ s.allClients) {ds : List Address}
    (hpend : ∀ x, x ≠ w → pending' x = pending x) (hal : ∀ a ∈ ds, a < m.next)
    (hp : env.operationMode = .x11 → ds.length ≤ 1 ∧ ∀ a ∈ ds, a ∈ m.desktops) (hne : ds ≠ s.desktops w) :
    Tracking env m pending' keys (s.setDesktops env w ds) := by
  have hlen : ¬ (env.operationMode = .x11 ∧ ds.length > 1) := fun hx => by
    have := (hp hx.1).1
    omega
  rw [Workspace.setDesktops, if_neg hlen, if_neg hne]
  refine h.move hw ds .makeFirst hpend hal fun _ => .inr fun hx => ?_
  simpa [h.manager] using hp hx

theorem setDesktops (h : Tracking env m pending keys s) (hw : w ∈ s.allClients) {ds : List Address}
    (hmem : ∀ a ∈ ds, a ∈ m.desktops) : Tracking env m pending keys (s.setDesktops env w ds) := by
  unfold Workspace.setDesktops
  dsimp only
  generalize hds : (if env.operationMode = .x11 ∧ ds.length > 1 then ds.getLast?.toList else ds) = ds'
  have hsub : ∀ a ∈ ds', a ∈ ds := by
    intro a ha
    subst hds
    split at ha
    · exact List.mem_of_getLast? (by simpa using ha)
    · exact ha
  have hlen : env.operationMode = .x11 → ds'.length ≤ 1 := by
    intro hx
    subst hds
    split
    · cases ds.getLast? <;> simp
    · rename_i hn
      exact Nat.le_of_not_lt fun hlt => hn ⟨hx, hlt⟩
  split
  · exact h
  · refine h.move hw ds' .makeFirst (fun _ _ => rfl)
      (fun a ha => h.numbered.allocated a (hmem a (hsub a ha))) fun _ => .inr fun hx => ?_
    rw [h.manager]
    simpa using ⟨hlen hx, fun a ha => hmem a (hsub a ha)⟩

theorem moveAfterClient (h : Tracking env m pending keys s) {reference : Window} :
    Tracking env m pending keys { s with
      focusChain := s.focusChain.moveAfterClient env.belongToSameClient w (s.toplevel env w) reference } := by
  refine ⟨h.manager, h.numbered, h.keyed.moveAfterClient _ _ _ _, h.count_le, h.clients, h.allocated,
    h.placed, fun x hx ht => (h.tracks x hx ht).imp id fun htr d h1 hd => ?_⟩
  refine (FocusChain.contains_moveAfterClient (env.belongToSameClient_refl _) ?_).trans (htr d h1 hd)
  rintro rfl hon -
  exact (htr d h1 hd).mpr hon

/-- Steps of the windows keep the chains in line, whatever is still pending. -/
theorem windowStep (h : Tracking env m pending keys s) (ws : WindowStep)
    (hs : Focus.windowStep env s ws = some s') : Tracking env m pending keys s' := by
  cases ws with
  | setDesktops w ds =>
    simp only [Focus.windowStep] at hs
    split at hs
    · rename_i hok
      cases hs
      exact h.setDesktops hok.1 (h.manager ▸ hok.2)
    · cases hs
  | update w change =>
    simp only [Focus.windowStep] at hs
    split at hs
    · rename_i hok
      cases hs
      exact h.update hok change
    · cases hs
  | moveAfterClient w reference =>
    simp only [Focus.windowStep] at hs
    split at hs
    · cases hs
      exact h.moveAfterClient
    · cases hs
  | setActiveClient w =>
    cases hs
    exact ⟨h.manager, h.numbered, h.keyed, h.count_le, h.clients, h.allocated, h.placed, h.tracks⟩

theorem windowSteps (h : Tracking env m pending keys s) (steps : List WindowStep)
    (hs : Lib.execute (Focus.windowStep env) s steps = some s') : Tracking env m pending keys s' := by
  induction steps generalizing s with
  | nil => cases hs; exact h
  | cons ws steps ih =>
    obtain ⟨s₁, h₁, h₂⟩ := Option.bind_eq_some_iff.mp hs
    exact ih (h.windowStep ws h₁) h₂

/-- Fewer things to wait for, where they no longer matter. -/
theorem of_waits (h : Tracking env m pending keys s)
    (hw : ∀ w ∈ s.allClients, Waits env (pending w) s w → Waits env (pending' w) s w) :
    Tracking env m pending' keys s :=
  ⟨h.manager, h.numbered, h.keyed, h.count_le, h.clients, h.allocated,
    fun w hm ht => (h.placed w hm ht).imp_left (hw w hm),
    fun w hm ht => (h.tracks w hm ht).imp_left (hw w (h.clients w hm))⟩

end Tracking
end KWinFT.Focus
