import KWinFT.Focus.Tracking

/-! Delivering the signals of the manager. The handler of `desktopRemoved` sends every window
away that waits for it, and only then the chains are resized. -/
namespace KWinFT.Focus
open VirtualDesktops
variable {env : Setup} {m : VirtualDesktopManager} {pending pending' : Window → List Address} {keys : Nat}
  {s s' : Workspace} {w : Window} {reactions : Reactions} {a : Address} {rest : List Address}

private theorem setDesktops_allClients (w : Window) (ds : List Address) :
    (s.setDesktops env w ds).allClients = s.allClients := by
  unfold Workspace.setDesktops
  generalize (if env.operationMode = .x11 ∧ ds.length > 1 then ds.getLast?.toList else ds) = ds'
  dsimp only
  split <;> rfl

theorem setDesktop_cases {n : Int} (h : s.setDesktop env w n = some s') :
    ∃ ds, s' = s.setDesktops env w ds ∧ ds.length ≤ 1 ∧ ∀ a ∈ ds, a ∈ s.manager.desktops := by
  unfold Workspace.setDesktop at h
  dsimp only at h
  generalize min (s.manager.count : Int) (env.checkDesktop w _) = n' at h
  split at h
  · cases h
    exact ⟨[], rfl, Nat.zero_le 1, by simp⟩
  · obtain ⟨d, hd, rfl⟩ := Option.map_eq_some_iff.mp h
    refine ⟨[d], rfl, Nat.le_refl 1, ?_⟩
    intro a ha
    obtain rfl := List.mem_singleton.mp ha
    exact VirtualDesktopManager.mem_of_desktopForX11Id hd

private theorem windowStep_allClients {ws : WindowStep} (h : windowStep env s ws = some s') :
    s'.allClients = s.allClients := by
  cases ws with
  | setDesktops w ds =>
    simp only [windowStep] at h
    split at h
    · cases h; exact setDesktops_allClients w ds
    · cases h
  | update w change =>
    simp only [windowStep] at h
    split at h <;> cases h
    rfl
  | moveAfterClient w reference =>
    simp only [windowStep] at h
    split at h <;> cases h
    rfl
  | setActiveClient w => cases h; rfl

private theorem windowSteps_allClients {steps : List WindowStep}
    (h : Lib.execute (windowStep env) s steps = some s') : s'.allClients = s.allClients := by
  induction steps generalizing s with
  | nil => cases h; rfl
  | cons ws steps ih =>
    obtain ⟨s₁, h₁, h₂⟩ := Option.bind_eq_some_iff.mp h
    exact (ih h₂).trans (windowStep_allClients h₁)

/-- A window was put on other desktops, and the window side reacted to that. -/
def SentAway (env : Setup) (reactions : Reactions) (s : Workspace) (w : Window) (s' : Workspace) : Prop :=
  ∃ ds, ds ≠ s.desktops w ∧ (∀ b ∈ ds, b ∈ s.manager.desktops ∨ b ∈ s.desktops w) ∧
    (env.operationMode = .x11 → ds.length ≤ 1 ∧ ∀ b ∈ ds, b ∈ s.manager.desktops) ∧
    Lib.execute (windowStep env) (s.setDesktops env w ds) (reactions.sent w) = some s'

/-- A window that is sent to one desktop held an object that is no longer one of the manager. -/
private theorem sentAway_of_send {b : Address} {desk : Nat} (hb : b ∈ s.desktops w)
    (hout : b ∉ s.manager.desktops) (h1 : 1 ≤ desk) (hle : desk ≤ s.manager.count)
    (hs : (s.sendClientToDesktop env w desk).bind
      (fun s' => Lib.execute (windowStep env) s' (reactions.sent w)) = some s') :
    SentAway env reactions s w s' := by
  obtain ⟨s₁, h₁, hs⟩ := Option.bind_eq_some_iff.mp hs
  rw [Workspace.sendClientToDesktop, if_neg (by omega)] at h₁
  obtain ⟨ds, rfl, hlen, hmem⟩ := setDesktop_cases h₁
  exact ⟨ds, fun he => hout (hmem b (he ▸ hb)), fun c hc => .inl (hmem c hc), fun _ => ⟨hlen, hmem⟩, hs⟩

private theorem sentAway_of_leave (hx : env.operationMode ≠ .x11) (hin : a ∈ s.desktops w)
    (hs : Lib.execute (windowStep env) (s.leaveDesktop env w a) (reactions.sent w) = some s') :
    SentAway env reactions s w s' := by
  have hne : (s.desktops w).isEmpty = false := by
    cases hds : s.desktops w with
    | nil => simp [hds] at hin
    | cons b l => rfl
  rw [Workspace.leaveDesktop, hne] at hs
  simp only [Bool.false_eq_true, if_false, not_true_eq_false, hin] at hs
  refine ⟨(s.desktops w).erase a, ?_, fun b hb => .inr (List.mem_of_mem_erase hb), fun h => absurd h hx, hs⟩
  intro he
  have hlen := List.length_erase_of_mem hin
  have hpos := List.length_pos_of_mem hin
  rw [he] at hlen
  omega

/-- On X11 the window waits exactly if it is sent away. -/
private theorem sendAway_x11 (hx : env.operationMode = .x11) (hn : Numbered s.manager)
    (hpos : 1 ≤ s.manager.count) (hs : sendAway env reactions a s w = some s') :
    (s' = s ∧ ∀ p, ¬ Waits env p s w) ∨ SentAway env reactions s w s' := by
  simp only [sendAway, hx] at hs
  split at hs
  · rename_i hout
    obtain ⟨b, hb, hlast⟩ : ∃ b ∈ s.desktops w, s.desktop w = (s.manager.heap b).x11DesktopNumber := by
      cases hl : (s.desktops w).getLast? with
      | none => simp [Workspace.desktop, hl, onAllDesktops] at hout; omega
      | some b => exact ⟨b, List.mem_of_getLast? hl, by simp [Workspace.desktop, hl]⟩
    refine .inr (sentAway_of_send hb (fun hin => ?_) hpos (Nat.le_refl _) hs)
    have := hn.number_le_count hin
    omega
  · rename_i hin
    cases hs
    refine .inl ⟨rfl, fun p hp => hin ⟨fun hall => ?_, ((waits_x11 hx).mp hp).2⟩⟩
    have hgt := ((waits_x11 hx).mp hp).2
    rw [isOnAllDesktops_iff] at hall
    simp [Workspace.desktop, hall, onAllDesktops] at hgt
    omega

private theorem sendAway_wayland (hx : env.operationMode ≠ .x11) (ha : a ∉ s.manager.desktops)
    (hpos : 1 ≤ s.manager.count) (hnum : 1 ≤ (s.manager.heap a).x11DesktopNumber)
    (hs : sendAway env reactions a s w = some s') :
    (s' = s ∧ a ∉ s.desktops w) ∨ SentAway env reactions s w s' := by
  have hs : (if a ∉ s.desktops w then some s
      else if (s.desktops w).length > 1 then
        Lib.execute (windowStep env) (s.leaveDesktop env w a) (reactions.sent w)
      else (s.sendClientToDesktop env w (min (s.manager.heap a).x11DesktopNumber s.manager.count : Nat)).bind
        fun s' => Lib.execute (windowStep env) s' (reactions.sent w)) = some s' := by
    unfold sendAway at hs
    cases hmode : env.operationMode with
    | x11 => exact absurd hmode hx
    | waylandOnly => simpa only [hmode] using hs
    | xwayland => simpa only [hmode] using hs
  split at hs
  · rename_i hout
    cases hs
    exact .inl ⟨rfl, hout⟩
  · rename_i hin
    rw [not_not] at hin
    split at hs
    · exact .inr (sentAway_of_leave hx hin hs)
    · exact .inr (sentAway_of_send hin ha (by omega) (by omega) hs)

/-- One window in the handler: it waits no more for the removed desktop. -/
private theorem Tracking.sendAway (h : Tracking env m pending keys s) (hw : w ∈ s.allClients)
    (ha : a ∉ m.desktops) (hpos : 1 ≤ m.count) (hnum : 1 ≤ (m.heap a).x11DesktopNumber)
    (hsub : pending w ⊆ a :: rest) (hs : Focus.sendAway env reactions a s w = some s') :
    Tracking env m (Function.update pending w rest) keys s' ∧ s'.allClients = s.allClients := by
  have hother : ∀ x, x ≠ w → Function.update pending w rest x = pending x :=
    fun x hx => Function.update_of_ne hx _ _
  have hm := h.manager
  subst hm
  -- Either the handler passes the window by, which then does not wait for this desktop, or it is moved.
  have hcases : (s' = s ∧ (Waits env (pending w) s w → Waits env rest s w)) ∨
      SentAway env reactions s w s' := by
    by_cases hx : env.operationMode = .x11
    · refine (sendAway_x11 hx h.numbered hpos hs).imp_left ?_
      rintro ⟨he, hno⟩
      exact ⟨he, fun hp => absurd hp (hno _)⟩
    · refine (sendAway_wayland hx ha hpos hnum hs).imp_left ?_
      rintro ⟨he, hout⟩
      refine ⟨he, fun hp => (waits_wayland hx).mpr ?_⟩
      obtain ⟨b, hb, hbw⟩ := (waits_wayland hx).mp hp
      exact ⟨b, (List.mem_cons.mp (hsub hb)).resolve_left fun hba => hout (hba ▸ hbw), hbw⟩
  rcases hcases with ⟨rfl, hwait⟩ | ⟨ds, hne, hmem, hx11, hs⟩
  · refine ⟨h.of_waits fun x _ hp => ?_, rfl⟩
    by_cases hxw : x = w
    · subst hxw
      rw [Function.update_self]
      exact hwait hp
    · rwa [hother x hxw]
  · refine ⟨(h.setDesktops_of_ne hw hother (fun b hb => ?_) hx11 hne).windowSteps _ hs, ?_⟩
    · exact (hmem b hb).elim (h.numbered.allocated b) (h.allocated w b)
    · exact (windowSteps_allClients hs).trans (setDesktops_allClients w ds)

private theorem Tracking.sendAll (l : List Window) (h : Tracking env m pending keys s)
    (hl : ∀ w ∈ l, w ∈ s.allClients) (ha : a ∉ m.desktops) (hpos : 1 ≤ m.count)
    (hnum : 1 ≤ (m.heap a).x11DesktopNumber) (hsub : ∀ w, pending w ⊆ a :: rest)
    (hs : l.foldlM (Focus.sendAway env reactions a) s = some s') :
    Tracking env m (fun w => if w ∈ l then rest else pending w) keys s' ∧ s'.allClients = s.allClients := by
  induction l generalizing s pending with
  | nil =>
    cases hs
    exact ⟨by simpa using h, rfl⟩
  | cons w l ih =>
    rw [List.foldlM_cons] at hs
    obtain ⟨s₁, h₁, h₂⟩ := Option.bind_eq_some_iff.mp hs
    obtain ⟨ht, hc⟩ := h.sendAway (hl w List.mem_cons_self) ha hpos hnum (hsub w) h₁
    have hsub' : ∀ x, Function.update pending w rest x ⊆ a :: rest := by
      intro x
      by_cases hx : x = w
      · subst hx
        rw [Function.update_self]
        exact List.subset_cons_self a rest
      · rw [Function.update_of_ne hx]
        exact hsub x
    obtain ⟨ht', hc'⟩ := ih ht (fun x hx => hc ▸ hl x (List.mem_cons_of_mem w hx)) hsub' h₂
    refine ⟨?_, hc'.trans hc⟩
    have he : (fun x => if x ∈ l then rest else Function.update pending w rest x) =
        fun x => if x ∈ w :: l then rest else pending x := by
      funext x
      by_cases hx : x = w
      · subst hx
        simp
      · simp [hx]
    rwa [he] at ht'

namespace Tracking

/-- Once a removal was announced, no window waits for that desktop. -/
theorem desktopRemoved (h : Tracking env m (fun _ => a :: rest) keys s) (ha : a ∉ m.desktops)
    (hpos : 1 ≤ m.count) (hnum : 1 ≤ (m.heap a).x11DesktopNumber)
    (hs : deliver env reactions s (.desktopRemoved a) = some s') : Tracking env m (fun _ => rest) keys s' := by
  obtain ⟨ht, hc⟩ := h.sendAll s.allClients (fun w hw => hw) ha hpos hnum (fun _ => List.Subset.refl _) hs
  refine ht.of_waits fun w hw hp => ?_
  rwa [if_pos (hc ▸ hw)] at hp

theorem desktopsRemoved (removed : List Address) (h : Tracking env m (fun _ => removed) keys s)
    (hout : ∀ a ∈ removed, a ∉ m.desktops ∧ 1 ≤ (m.heap a).x11DesktopNumber) (hpos : 1 ≤ m.count)
    (hs : (removed.map .desktopRemoved).foldlM (deliver env reactions) s = some s') :
    Tracking env m (fun _ => []) keys s' := by
  induction removed generalizing s with
  | nil => cases hs; exact h
  | cons a rest ih =>
    rw [List.map_cons, List.foldlM_cons] at hs
    obtain ⟨s₁, h₁, h₂⟩ := Option.bind_eq_some_iff.mp hs
    obtain ⟨ha, hnum⟩ := hout a List.mem_cons_self
    exact ih (h.desktopRemoved ha hpos hnum h₁) (fun b hb => hout b (List.mem_cons_of_mem a hb)) h₂

theorem currentChanged (h : Tracking env m pending keys s) {old new : Nat}
    (hs : deliver env reactions s (.currentChanged old new) = some s') : Tracking env m pending keys s' := by
  have h' : Tracking env m pending keys { s with focusChain := s.focusChain.setCurrentDesktop new } :=
    ⟨h.manager, h.numbered, h.keyed, h.count_le, h.clients, h.allocated, h.placed, h.tracks⟩
  exact h'.windowSteps _ hs

/-- Cutting the chains of the numbers that are gone. -/
theorem resize (h : Tracking env m (fun _ => []) keys s) :
    Tracking env m (fun _ => []) m.count { s with focusChain := s.focusChain.resize keys m.count } := by
  refine ⟨h.manager, h.numbered, h.keyed.resize _, Nat.le_refl _, h.clients, h.allocated, h.placed, ?_⟩
  intro w hw ht
  refine (h.tracks w hw ht).imp id fun htr d h1 hd => ?_
  have hd' : d ≤ m.count := h.manager ▸ hd
  refine FocusChain.contains_resize.trans ((and_iff_left ?_).trans (htr d h1 hd))
  have := h.count_le
  omega

end Tracking

/-- Signals that reach neither the windows nor the chains. -/
def Silent (sig : Signal) : Prop :=
  ∀ (env : Setup) (reactions : Reactions) (s : Workspace), deliver env reactions s sig = some s

theorem silent_append {sigs more : List Signal} (h : ∀ sig ∈ sigs, Silent sig) :
    (sigs ++ more).foldlM (deliver env reactions) s = more.foldlM (deliver env reactions) s := by
  induction sigs with
  | nil => rfl
  | cons sig sigs ih =>
    rw [List.cons_append, List.foldlM_cons, h sig List.mem_cons_self env reactions s]
    exact ih fun x hx => h x (List.mem_cons_of_mem sig hx)

theorem silent_updateLayout {sig : Signal} (h : sig ∈ m.updateRootInfo.2) : Silent sig := by
  simp only [VirtualDesktopManager.updateRootInfo, VirtualDesktopManager.updateLayout,
    VirtualDesktopManager.setNETDesktopLayout, List.mem_cons, List.not_mem_nil, or_false] at h
  rcases h with rfl | rfl
  · exact fun _ _ _ => rfl
  · exact fun _ _ _ => rfl

end KWinFT.Focus
