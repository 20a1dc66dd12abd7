import Mathlib.Logic.Relation
import KWinFT.DesktopAreas.Updates

/-! Windows that are moved off a removed desktop while the areas still reach as far as before. The first update on the way
cuts them off, so no second window may be behind them, unless the update finds nothing to change. -/
namespace KWinFT.DesktopAreas
open Areas VirtualDesktops

namespace Workspace
variable (s : Workspace)

/-- The window is on a desktop that was removed. -/
def Left (w : Nat) : Prop := ∃ d ∈ s.desktops w, d ∉ s.vds.desktops

/-- Its desktop is behind the last one that there is. -/
def Past (w : Nat) : Prop := s.vds.count < s.desktop w

/-- The windows that a window can take with it. -/
def Relative (a b : Nat) : Prop :=
  b ∈ (s.windows a).children ∨ ((s.windows a).modal ∧ b ∈ (s.windows a).leads)

/-- A window that is moved, or one that it takes with it. -/
def Carried (v : Nat) : Prop := ∃ w, s.Left w ∧ Relation.ReflTransGen s.Relative w v

end Workspace

/-- Windows that can be moved off the removed desktops one after the other. One of them at most is behind the last desktop, or
nothing that is moved has struts and the areas are up to date. -/
structure Tidy (p : Setting) (s : Workspace) : Prop where
  known : ∀ w, s.Left w → w ∈ s.allClients
  once : ∀ w, s.Left w → (s.desktops w).countP (· ∉ s.vds.desktops) = 1
  last : p.x11 → ∀ w, s.Left w → s.Past w
  moves : (∀ w v, s.Past w → s.Past v → w = v) ∨ (s.UpToDate ∧ ∀ v, s.Carried v → ¬ s.hasStrut v)

/-- After desktops were removed windows can still be on them, with numbers up to `b`. -/
structure Interim (p : Setting) (b : Nat) (s : Workspace) : Prop where
  numbered : Numbered s.vds
  count_pos : 1 ≤ s.vds.count
  count_le : s.vds.count ≤ b
  number : ∀ w, ∀ d ∈ s.desktops w, 1 ≤ (s.vds.heap d).x11DesktopNumber ∧ (s.vds.heap d).x11DesktopNumber ≤ b
  /-- Either one desktop was removed from among the others, or the last ones were. -/
  side : ∀ w, ∀ d ∈ s.desktops w, d ∉ s.vds.desktops → ∀ v, ∀ e ∈ s.desktops v, e ∉ s.vds.desktops →
    (s.vds.heap d).x11DesktopNumber ≤ s.vds.count → (s.vds.heap e).x11DesktopNumber ≤ s.vds.count
  once : ∀ w, s.Left w → (s.desktops w).countP (· ∉ s.vds.desktops) = 1
  last : p.x11 → ∀ w, s.Left w → s.Past w

/-- Windows are where they were or on live desktops. -/
def Kept (s t : Workspace) : Prop := ∀ w, t.desktops w = s.desktops w ∨ Live s.vds.desktops (t.desktops w)

/-- The same of all windows but one, which is on live desktops. -/
def sent (s : Workspace) (w v : Nat) (l : List Address) : Prop :=
  Live s.vds.desktops l ∨ (v ≠ w ∧ l = s.desktops v)

section lists
variable {s t : Workspace} {w : Nat}

theorem Workspace.Holds.mono {m n : Nat} (h : s.Holds n) (hcur : s.vds.currentNumber ≤ m) (hmn : m ≤ n) : s.Holds m where
  fits := ⟨Nat.lt_of_le_of_lt hmn h.fits.workarea, Nat.lt_of_le_of_lt hmn h.fits.restrictedmovearea,
    h.fits.screenarea.imp_right (Nat.lt_of_le_of_lt hmn)⟩
  current := hcur
  old := h.old.imp_right (Nat.lt_of_le_of_lt hmn)

theorem kept_of_sent (h : ∀ v, sent s w v (t.desktops v)) : Kept s t := fun v => (h v).symm.imp_left And.right

theorem live_of_sent (h : ∀ v, sent s w v (t.desktops v)) : Live s.vds.desktops (t.desktops w) :=
  (h w).resolve_right fun hne => hne.1 rfl

theorem sent_live (w v : Nat) (l : List Address) (h : Live s.vds.desktops l) : sent s w v l := .inl h

theorem Kept.trans {s₁ : Workspace} (h₁ : Kept s₁ s) (h₂ : Kept s t) (hvds : s.vds = s₁.vds) : Kept s₁ t := by
  intro w
  rcases h₂ w with heq | hlive
  · rw [heq]
    exact h₁ w
  · exact .inr (hvds ▸ hlive)

/-- A window that is still on a removed desktop has not moved. -/
theorem Kept.left (h : Kept s t) (hvds : t.vds = s.vds) (hw : t.Left w) : t.desktops w = s.desktops w := by
  refine (h w).resolve_right fun hlive => ?_
  obtain ⟨d, hd, hnot⟩ := hw
  exact hnot (hvds ▸ hlive d hd)

theorem left_congr (hvds : t.vds = s.vds) (hw : t.desktops w = s.desktops w) : t.Left w ↔ s.Left w := by
  unfold Workspace.Left
  rw [hvds, hw]

theorem past_congr (hvds : t.vds = s.vds) (hw : t.desktops w = s.desktops w) : t.Past w ↔ s.Past w := by
  unfold Workspace.Past Workspace.desktop Workspace.numbers
  rw [hvds, hw]

/-- A window behind the last desktop is on a desktop that was removed. -/
theorem left_of_past (hn : Numbered s.vds) (h : s.Past w) : s.Left w := by
  by_contra hnot
  have hle := Workspace.desktop_le_count (w := w) hn fun d hd => by
    by_contra hd'
    exact hnot ⟨d, hd, hd'⟩
  exact absurd h (Int.not_lt.mpr hle)

theorem left_of_mustGo {p : Setting} {d : Address} (hn : Numbered s.vds) (hd : d ∉ s.vds.desktops)
    (h : p.mustGo d s w) : s.Left w := by
  unfold Setting.mustGo at h
  split at h
  · exact left_of_past hn h.2
  · exact ⟨d, h, hd⟩

/-- Leaving the removed desktop, a window is on live ones. -/
theorem live_erase {d : Address} (hd : d ∉ s.vds.desktops) (hmem : d ∈ s.desktops w)
    (honce : (s.desktops w).countP (· ∉ s.vds.desktops) = 1) : Live s.vds.desktops ((s.desktops w).erase d) := by
  have hcount := (List.perm_cons_erase hmem).countP_eq (fun d => decide (d ∉ s.vds.desktops))
  rw [List.countP_cons_of_pos (by simpa using hd), honce] at hcount
  intro e he
  have hzero := List.countP_eq_zero.mp (Nat.succ_injective hcount).symm e he
  simpa using hzero

/-- The last of its desktops decides. -/
theorem desktop_singleton {d : Address} (h : s.desktops w = [d]) : s.desktop w = (s.vds.heap d).x11DesktopNumber := by
  unfold Workspace.desktop Workspace.numbers
  rw [h]
  rfl

theorem past_exists (h : s.Past w) : ∃ e ∈ s.desktops w, s.vds.count < (s.vds.heap e).x11DesktopNumber := by
  by_contra hnot
  push Not at hnot
  exact absurd h (Int.not_lt.mpr (Workspace.desktop_le hnot))

theorem Kept.past {p : Setting} {b : Nat} (h : Kept s t) (hs : Interim p b s) (hvds : t.vds = s.vds) (hw : t.Past w) :
    s.Past w :=
  (past_congr hvds (h.left hvds (left_of_past (hvds ▸ hs.numbered) hw))).mp hw

/-- What is known of the removed desktops stays known while windows move off them. -/
theorem Interim.kept {p : Setting} {b : Nat} (hs : Interim p b s) (h : Kept s t) (hvds : t.vds = s.vds) :
    Interim p b t where
  numbered := hvds ▸ hs.numbered
  count_pos := hvds ▸ hs.count_pos
  count_le := hvds ▸ hs.count_le
  number w d hd := by
    rw [hvds]
    rcases h w with heq | hlive
    · exact hs.number w d (heq ▸ hd)
    · exact ⟨hs.numbered.number_pos (hlive d hd), (hs.numbered.number_le_count (hlive d hd)).trans hs.count_le⟩
  side w d hd hnot v e he hnot' := by
    have hw := h.left hvds ⟨d, hd, hnot⟩
    have hv := h.left hvds ⟨e, he, hnot'⟩
    rw [hvds] at hnot hnot' ⊢
    exact hs.side w d (hw ▸ hd) hnot v e (hv ▸ he) hnot'
  once w hw := by
    have heq := h.left hvds hw
    rw [heq, hvds]
    exact hs.once w ((left_congr hvds heq).mp hw)
  last hx w hw := by
    have heq := h.left hvds hw
    exact (past_congr hvds heq).mpr (hs.last hx w ((left_congr hvds heq).mp hw))

/-- Only a window that goes can be behind the last desktop, unless others are. -/
theorem others_counted {p : Setting} {b : Nat} {d : Address} (hs : Interim p b s) (hd : d ∉ s.vds.desktops)
    (hunique : ∀ w v, s.Past w → s.Past v → w = v) (hgo : p.mustGo d s w) (hsingle : p.x11 ∨ s.desktops w = [d]) (v : Nat)
    (hv : v ≠ w) : s.desktop v ≤ s.vds.count := by
  by_contra hnot
  have hpast : s.Past v := Int.not_le.mp hnot
  obtain ⟨e, he, hlt⟩ := past_exists hpast
  have he' : e ∉ s.vds.desktops := fun hlive => absurd (hs.numbered.number_le_count hlive) (Nat.not_le.mpr hlt)
  refine hv (hunique v w hpast ?_)
  rcases hsingle with hx | hsingle
  · exact hs.last hx w (left_of_mustGo hs.numbered hd hgo)
  · have hmem : d ∈ s.desktops w := hsingle ▸ List.mem_singleton_self d
    have hgt : s.vds.count < (s.vds.heap d).x11DesktopNumber := by
      by_contra hle
      exact absurd (hs.side w d hmem hd v e he he' (Nat.not_lt.mp hle)) (Nat.not_le.mpr hlt)
    unfold Workspace.Past
    rw [desktop_singleton hsingle]
    exact Int.ofNat_lt.mpr hgt

end lists

section handler
variable {p : Setting} {self : Self} {d : Address} {s₁ s : Workspace} {w : Nat}

/-- What is known after a window was looked at: the others are where they were, and the window is on live desktops if it had
to go. -/
structure Went (p : Setting) (core : Workspace → Prop) (d : Address) (s : Workspace) (w : Nat) (t : Workspace) : Prop where
  core : core t
  kept : Kept s t
  went : p.mustGo d s w → Live s.vds.desktops (t.desktops w)

/-- A window leaves the desktop or is sent to another one. -/
theorem moveAway_inRange {R : Workspace → Prop} (hpos : 1 ≤ s.vds.count)
    (hnumber : d ∈ s.desktops w → 1 ≤ (s.vds.heap d).x11DesktopNumber)
    (herase : d ∈ s.desktops w → Live s.vds.desktops ((s.desktops w).erase d)) (hidle : ¬ p.mustGo d s w → R s)
    (hleave : p.mustGo d s w → ∀ l, Live s.vds.desktops l → InRange R (self (.setDesktops w l) s))
    (hsend : p.mustGo d s w → (p.x11 ∨ s.desktops w = [d]) → ∀ desk : Int, 1 ≤ desk ∧ desk ≤ s.vds.count →
      InRange R (self (.sendClientToDesktop w desk) s)) : InRange R (moveAway p self d s w) := by
  unfold moveAway
  split
  · next hgo => exact hidle hgo
  · next hgo =>
    have hgo := not_not.mp hgo
    split
    · next hx => exact hsend hgo (.inl hx) _ (by omega)
    · next hx =>
      have hmem : d ∈ s.desktops w := by
        unfold Setting.mustGo at hgo
        rwa [if_neg hx] at hgo
      split
      · have hne : s.desktops w ≠ [] := List.ne_nil_of_mem hmem
        unfold leaveDesktop
        dsimp only
        rw [if_neg hne, if_neg (not_not.mpr hmem)]
        exact hleave hgo _ (herase hmem)
      · next hlen =>
        have hsingle : s.desktops w = [d] := by
          obtain ⟨e, he⟩ := List.length_eq_one_iff.mp (show (s.desktops w).length = 1 by
            have := List.length_pos_of_mem hmem
            omega)
          rw [he, List.mem_singleton] at hmem
          rw [he, hmem]
        have := hnumber hmem
        exact hsend hgo (.inr hsingle) _ (by omega)

/-- When each window goes as far as it has to, all have gone that have to. -/
theorem desktopRemoved_inRange {core : Workspace → Prop} (hvds : ∀ t, core t → t.vds = s₁.vds)
    (hclients : ∀ t, core t → t.allClients = s₁.allClients)
    (hstep : ∀ t, core t → Kept s₁ t → ∀ w ∈ s₁.allClients, InRange (Went p core d t w) (moveAway p self d t w))
    (hcore : core s) (hkept : Kept s₁ s) :
    InRange (fun t => (core t ∧ Kept s₁ t) ∧ Kept s t ∧
      (∀ w ∈ s₁.allClients, p.mustGo d s₁ w → Live s₁.vds.desktops (t.desktops w))) (desktopRemoved p self d s) := by
  have hloop : InRange (fun t => (core t ∧ Kept s₁ t ∧ Kept s t) ∧
      (∀ w ∈ s₁.allClients, p.mustGo d s₁ w → Live s₁.vds.desktops (t.desktops w)) ∧ _)
      (s₁.allClients.foldlM (moveAway p self d) s) :=
    Lib.Safe.foldlM_settles s₁.allClients (fun t w hw ht => ?_) ⟨hcore, hkept, fun _ => .inl rfl⟩
  · unfold desktopRemoved
    rw [hclients s hcore]
    exact hloop.mono fun t ht => ⟨⟨ht.1.1, ht.1.2.1⟩, ht.1.2.2, ht.2.1⟩
  · have ht' := hvds t ht.1
    refine (hstep t ht.1 ht.2.1 w hw).mono fun t' h => ⟨⟨h.core, ht.2.1.trans h.kept ht',
      ht.2.2.trans h.kept (ht'.trans (hvds s hcore).symm)⟩, fun hgo => ?_, fun x hx hgo => ?_⟩
    · by_cases hgo' : p.mustGo d t w
      · exact ht' ▸ h.went hgo'
      · have hlive : Live s₁.vds.desktops (t.desktops w) := by
          refine (ht.2.1 w).resolve_left fun heq => hgo' ?_
          unfold Setting.mustGo Workspace.desktop Workspace.numbers at hgo ⊢
          rwa [heq, ht']
        rcases h.kept w with heq | hlive'
        · rwa [heq]
        · exact ht' ▸ hlive'
    · rcases h.kept x with heq | hlive
      · rw [heq]
        exact hx hgo
      · exact ht' ▸ hlive

end handler

/-- The areas reach as far as before while a window is behind the last desktop. -/
structure Reaching (b : Nat) (s₁ s : Workspace) : Prop where
  vds : s.vds = s₁.vds
  allClients : s.allClients = s₁.allClients
  holds : s.Holds s₁.vds.count
  past : (∃ w, s.Past w) → s.Holds b

/-- Windows are on other desktops, and nothing else has changed. -/
structure Moved (s : Workspace) (track : Nat → List Address → Prop) (t : Workspace) : Prop where
  vds : t.vds = s.vds
  allClients : t.allClients = s.allClients
  areas : t.areas = s.areas
  old : t.oldrestrictedmovearea = s.oldrestrictedmovearea
  track : ∀ w, track w (t.desktops w)

section reaching
variable {p : Setting} {d : Address} {b depth w : Nat} {s₁ s t : Workspace}

theorem Moved.holds {track : Nat → List Address → Prop} (h : Moved s track t) {n : Nat} (hs : s.Holds n) : t.Holds n :=
  ⟨h.areas ▸ hs.fits, h.vds ▸ hs.current, h.old ▸ hs.old⟩

theorem moved_storeDesktops {track : Nat → List Address → Prop} (hvds : t.vds = s.vds)
    (hclients : t.allClients = s.allClients) (hareas : t.areas = s.areas)
    (hold : t.oldrestrictedmovearea = s.oldrestrictedmovearea) (hothers : ∀ v, v ≠ w → track v (t.desktops v))
    {l : List Address} (hl : track w l) : Moved s track (t.storeDesktops w l) := by
  refine ⟨hvds, hclients, hareas, hold, fun v => ?_⟩
  rw [Workspace.storeDesktops_desktops]
  split
  · next hv => exact hv ▸ hl
  · next hv => exact hothers v hv

theorem Moved.spreads (w : Nat) : Spreads anyWindow s.vds.desktops (Moved s (sent s w)) where
  vds _ ht := congrArg VirtualDesktopManager.desktops ht.vds
  child _ _ _ _ _ _ := trivial
  lead _ _ _ _ _ _ _ := trivial
  storeDesktops _ ht v _ l hl :=
    moved_storeDesktops ht.vds ht.allClients ht.areas ht.old (fun u _ => ht.track u) (sent_live w v l hl)

/-- A window that leaves a desktop takes others along, and no area is read. -/
theorem leave_inRange (hs : Reaching b s₁ s) (hi : Interim p b s) {l : List Address} (hl : Live s.vds.desktops l) :
    InRange (Went p (Reaching b s₁) d s w) (perform p depth (.setDesktops w l) s) := by
  refine (perform_setDesktops (Moved.spreads w) depth trivial hl
    (fun hlive => ⟨rfl, rfl, rfl, rfl, fun v => ?_⟩)
    fun l hl => moved_storeDesktops rfl rfl rfl rfl (fun v hv => .inr ⟨hv, rfl⟩) (.inl hl)).mono fun t ht => ?_
  · by_cases hv : v = w
    · exact .inl (hv ▸ hlive)
    · exact .inr ⟨hv, rfl⟩
  · have hkept := kept_of_sent ht.track
    refine ⟨⟨ht.vds.trans hs.vds, ht.allClients.trans hs.allClients, ht.holds hs.holds, ?_⟩, hkept,
      fun _ => live_of_sent ht.track⟩
    rintro ⟨v, hv⟩
    exact ht.holds (hs.past ⟨v, hkept.past hi ht.vds hv⟩)

/-- While the only window behind the last desktop is sent away, the areas still reach as far as it was. -/
theorem send_inRange (hs : Reaching b s₁ s) (hi : Interim p b s) (hd : d ∉ s.vds.desktops)
    (hunique : ∀ w v, s.Past w → s.Past v → w = v) (hgo : p.mustGo d s w) (hsingle : p.x11 ∨ s.desktops w = [d]) {desk : Int}
    (hdesk : 1 ≤ desk ∧ desk ≤ s.vds.count) :
    InRange (Went p (Reaching b s₁) d s w) (perform p depth (.sendClientToDesktop w desk) s) := by
  have hothers := others_counted hi hd hunique hgo hsingle
  have hcount : s.Holds s.vds.count := hs.vds ▸ hs.holds
  have hkeep (v : Nat) (hv : v ≠ w) : sent s w v (s.desktops v) ∧ s.desktop v ≤ s.vds.count :=
    ⟨.inr ⟨hv, rfl⟩, hothers v hv⟩
  obtain ⟨m, hnm, hm, hdesktop⟩ : ∃ m, s.vds.count ≤ m ∧ s.Holds m ∧ s.desktop w ≤ m := by
    by_cases hpast : s.Past w
    · exact ⟨b, hi.count_le, hs.past ⟨w, hpast⟩, Workspace.desktop_le fun d hd => (hi.number w d hd).2⟩
    · exact ⟨_, le_rfl, hcount, Int.not_lt.mp hpast⟩
  refine (perform_sendClientToDesktop (Settled.keeps hi.numbered (sent_live w)) Settled.updates depth hnm trivial hdesk rfl hm
    hdesktop (fun hlive => ?_) fun l hl => ?_).mono fun t ht => ?_
  · refine ⟨rfl, rfl, fun v => ?_, fun v => ?_, hcount⟩
    · by_cases hv : v = w
      · exact .inl (hv ▸ hlive)
      · exact (hkeep v hv).1
    · by_cases hv : v = w
      · exact hv ▸ Workspace.desktop_le_count hi.numbered hlive
      · exact (hkeep v hv).2
  · exact settled_storeDesktops hi.numbered (sent_live w) rfl rfl hcount hkeep hl
  · refine ⟨⟨ht.vds.trans hs.vds, ht.allClients.trans hs.allClients, hs.vds ▸ ht.holds, ?_⟩, kept_of_sent ht.track,
      fun _ => live_of_sent ht.track⟩
    rintro ⟨v, hv⟩
    have hle := ht.desktop v
    unfold Workspace.Past at hv
    rw [ht.vds] at hv
    exact absurd hle (Int.not_le.mpr hv)

theorem moveAway_reaching (hs : Reaching b s₁ s) (hi : Interim p b s) (hd : d ∉ s.vds.desktops)
    (hunique : ∀ w v, s.Past w → s.Past v → w = v) :
    InRange (Went p (Reaching b s₁) d s w) (moveAway p (perform p depth) d s w) :=
  moveAway_inRange hi.count_pos (fun hmem => (hi.number w d hmem).1)
    (fun hmem => live_erase hd hmem (hi.once w ⟨d, hmem, hd⟩)) (fun hgo => ⟨hs, fun _ => .inl rfl, fun h => absurd h hgo⟩)
    (fun _ _ hl => leave_inRange hs hi hl) fun hgo hsingle _ hdesk => send_inRange hs hi hd hunique hgo hsingle hdesk

end reaching

section untouched
variable {p : Setting} {d : Address} {b depth w : Nat} {s₁ s t : Workspace}

/-- Where the windows are during the removal. -/
def keptTrack (s₁ : Workspace) (w : Nat) (l : List Address) : Prop := l = s₁.desktops w ∨ Live s₁.vds.desktops l

theorem Untouched.imp {kin : Nat → Prop} {track track' : Nat → List Address → Prop} (hs : Untouched s₁ kin track s)
    (h : ∀ w l, track w l → track' w l) : Untouched s₁ kin track' s :=
  { hs with track := fun w => h w _ (hs.track w) }

/-- Nothing that is moved has struts. -/
theorem moveAway_untouched (hc : Strutless s₁ s₁.Carried b) (hi₁ : Interim p b s₁)
    (hs : Untouched s₁ s₁.Carried (keptTrack s₁) s) (hd : d ∉ s₁.vds.desktops) :
    InRange (Went p (Untouched s₁ s₁.Carried (keptTrack s₁)) d s w) (moveAway p (perform p depth) d s w) := by
  have hkept : Kept s₁ s := hs.track
  have hi := hi₁.kept hkept hs.vds
  have hd' : d ∉ s.vds.desktops := hs.vds ▸ hd
  have hlive (v : Nat) (l : List Address) (hl : Live s₁.vds.desktops l) : sent s w v l := .inl (hs.vds ▸ hl)
  have hbound (v : Nat) (l : List Address) (hl : sent s w v l) (e : Address) (he : e ∈ l) :
      (s₁.vds.heap e).x11DesktopNumber ≤ b := by
    rcases hl with hl | ⟨-, rfl⟩
    · exact (hi₁.numbered.number_le_count (hs.vds ▸ hl e he)).trans hi₁.count_le
    · exact hs.vds ▸ (hi.number v e he).2
  have hkeeps := Untouched.keeps hc hlive hbound
  have hothers (v : Nat) (hv : v ≠ w) : sent s w v (s.desktops v) := .inr ⟨hv, rfl⟩
  have hsame (hl : Live s.vds.desktops (s.desktops w)) : Untouched s₁ s₁.Carried (sent s w) s := by
    refine { hs with track := fun v => ?_ }
    by_cases hv : v = w
    · exact .inl (hv ▸ hl)
    · exact hothers v hv
  have hwent (t : Workspace) (ht : Untouched s₁ s₁.Carried (sent s w) t) :
      Went p (Untouched s₁ s₁.Carried (keptTrack s₁)) d s w t := by
    have hkept' := kept_of_sent ht.track
    exact ⟨{ ht with track := hkept.trans hkept' hs.vds }, hkept', fun _ => live_of_sent ht.track⟩
  have hkin (hgo : p.mustGo d s w) : s₁.Carried w := by
    have hleft := left_of_mustGo hi.numbered hd' hgo
    exact ⟨w, (left_congr hs.vds (hkept.left hs.vds hleft)).mp hleft, .refl⟩
  refine moveAway_inRange hi.count_pos (fun hmem => (hi.number w d hmem).1)
    (fun hmem => live_erase hd' hmem (hi.once w ⟨d, hmem, hd'⟩)) (fun hgo => ⟨hs, fun _ => .inl rfl, fun h => absurd h hgo⟩)
    (fun hgo l hl => ?_) fun hgo _ desk hdesk => ?_
  · exact (perform_setDesktops hkeeps.toSpreads depth (hkin hgo) (hs.vds ▸ hl) (fun h => hsame (hs.vds ▸ h))
      fun l hl => hs.storeDesktops (hkin hgo) hothers (hlive w l hl)).mono hwent
  · exact (perform_sendClientToDesktop hkeeps (Untouched.updates hc) depth le_rfl (hkin hgo) hdesk
      (congrArg VirtualDesktopManager.desktops hs.vds) (hs.holds hc) (Workspace.desktop_le fun e he => (hi.number w e he).2)
      (fun h => hsame (hs.vds ▸ h)) fun l hl => hs.storeDesktops (hkin hgo) hothers (hlive w l hl)).mono hwent

end untouched
end KWinFT.DesktopAreas
