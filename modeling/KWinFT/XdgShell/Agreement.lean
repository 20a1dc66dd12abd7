import KWinFT.XdgShell.Serials

/-! When compositor and client agree on a state. Only some configure events are recorded, and
a commit looks for the record of exactly the acknowledged one. -/
namespace KWinFT.XdgShell
open KWinFT.Geometry
namespace Window
variable {w : Window}

/-- After the commit the window has the state of the latest recorded event up to the
acknowledged serial, unless that one was applied before, and nothing as old stays pending. -/
def Agrees (w w' : Window) : Prop :=
  (∀ e ∈ w.history, e.serial ≤ w.ackedConfigure →
    (∀ f ∈ w.history, f.serial ≤ w.ackedConfigure → f.serial ≤ e.serial) →
    e.serial ∉ w.applied → w'.maxMode = e.maxMode ∧ w'.fullscreen = e.fullscreen) ∧
  ∀ p ∈ w'.pendingConfigures, w.ackedConfigure < p.serial

/-- Before the commit: every pending event is newer than the acknowledged serial, or the
acknowledged serial itself is pending and no rule overrides its fullscreen state. -/
def Matched (w : Window) : Prop :=
  (∀ p ∈ w.pendingConfigures, w.ackedConfigure < p.serial) ∨
  ∃ p ∈ w.pendingConfigures, p.serial = w.ackedConfigure ∧
    w.checkFullScreen p.fullscreen = p.fullscreen

@[simp] theorem doSetGeometry_pendingConfigures (frame : Rect) :
    (w.doSetGeometry frame).pendingConfigures = w.pendingConfigures := by
  unfold doSetGeometry
  split <;> rfl

@[simp] theorem doSetGeometry_fullscreenRule (frame : Rect) :
    (w.doSetGeometry frame).fullscreenRule = w.fullscreenRule := by
  unfold doSetGeometry
  split <;> rfl

@[simp] theorem applyState_pendingConfigures (p : Point) (m : MaximizeMode) (f s : Bool) (c : Commit) :
    (w.applyState p m f s c).pendingConfigures = w.pendingConfigures := by
  unfold applyState doSetMaximizeMode doSetFullscreen
  dsimp only
  split
  · rfl
  · rw [doSetGeometry_pendingConfigures]
    split <;> rfl

/-- A commit that matched an event never returns early. -/
theorem applyState_match (p : Point) (m : MaximizeMode) (f : Bool) (c : Commit) :
    (w.applyState p m f true c).maxMode = m ∧
      (w.applyState p m f true c).fullscreen = w.checkFullScreen f := by
  unfold applyState
  rw [if_neg (by simp)]
  refine ⟨rfl, ?_⟩
  dsimp only [doSetMaximizeMode, doSetFullscreen, checkFullScreen]
  rw [doSetGeometry_fullscreenRule]
  split <;> rfl

private theorem recorded_of_pending (h : Ordered w) {p : ConfigureEvent}
    (hp : p ∈ w.pendingConfigures) :
    ∃ f ∈ w.history, key f = key p ∧ f.serial ∉ w.applied := by
  obtain ⟨f, hf, hk⟩ := h.pending_recorded p hp
  refine ⟨f, hf, hk, fun ha => ?_⟩
  have hlt := h.pending_unapplied p hp f.serial ha
  rw [show f.serial = p.serial from congrArg Prod.fst hk] at hlt
  exact Nat.lt_irrefl _ hlt

/-- An unapplied latest event is newer than everything applied, so it is still pending. -/
private theorem pending_of_latest (h : Ordered w) {e : ConfigureEvent} (he : e ∈ w.history)
    (hlatest : ∀ f ∈ w.history, f.serial ≤ w.ackedConfigure → f.serial ≤ e.serial)
    (hun : e.serial ∉ w.applied) : ∃ p ∈ w.pendingConfigures, key p = key e := by
  refine h.unapplied_pending e he fun a ha => ?_
  obtain ⟨hle, f, hf, hfa⟩ := h.applied_recorded a ha
  have hae : a ≤ e.serial := by
    rw [← hfa]
    exact hlatest f hf (hfa.symm ▸ hle)
  exact lt_of_le_of_ne hae fun heq => hun (heq ▸ ha)

private theorem key_eq_of_serial_eq (h : Ordered w) {p q : ConfigureEvent}
    (hp : p ∈ w.pendingConfigures) (hq : q ∈ w.pendingConfigures) (hs : p.serial = q.serial) :
    key p = key q := by
  obtain ⟨f, hf, hkf⟩ := h.pending_recorded p hp
  obtain ⟨g, hg, hkg⟩ := h.pending_recorded q hq
  have hfg : f.serial = g.serial := by
    rw [show f.serial = p.serial from congrArg Prod.fst hkf, hs]
    exact (congrArg Prod.fst hkg).symm
  rw [← hkf, ← hkg, h.unique f hf g hg hfg]

/-- A commit leads to agreement exactly when the acknowledged serial has a record or no record
is as old. The client may acknowledge an event of which no record was kept. -/
theorem applyPendingGeometry_agrees_iff {rule : Option Bool} {plasma : Bool}
    (h : Reachable rule plasma w) (c : Commit) :
    Agrees w (w.applyPendingGeometry c) ↔ Matched w := by
  have ho := Reachable.ordered h
  have hspec := matchAcked_spec w.ackedConfigure ho.sorted
  unfold applyPendingGeometry
  cases hm : matchAcked w.ackedConfigure w.pendingConfigures with
  | none =>
    rw [hm] at hspec
    constructor
    · rintro ⟨-, hpend⟩
      left
      simpa using hpend
    · rintro (hnew | ⟨p, hp, hs, -⟩)
      · refine ⟨fun e he hle hlatest hun => ?_, by simpa using hnew⟩
        obtain ⟨p, hp, hk⟩ := pending_of_latest ho he hlatest hun
        have := hnew p hp
        rw [show p.serial = e.serial from congrArg Prod.fst hk] at this
        omega
      · exact absurd hs (hspec p hp)
  | some found =>
    obtain ⟨e, rest⟩ := found
    rw [hm] at hspec
    obtain ⟨hs, front, hp⟩ := hspec
    have hmem : e ∈ w.pendingConfigures := by rw [hp]; simp
    dsimp only
    set w₁ : Window := { w with pendingConfigures := rest, applied := w.applied ++ [e.serial] } with hw₁
    obtain ⟨hmode, hfull⟩ := applyState_match (w := w₁) e.frame.topLeft e.maxMode e.fullscreen c
    obtain ⟨f, hf, hk, hun⟩ := recorded_of_pending ho hmem
    obtain ⟨hfs, hfm, hff⟩ : f.serial = e.serial ∧ f.maxMode = e.maxMode ∧
        f.fullscreen = e.fullscreen := by simpa [key] using hk
    constructor
    · rintro ⟨hstate, -⟩
      right
      refine ⟨e, hmem, hs, ?_⟩
      have := (hstate f hf (by omega) (fun g _ hg => by omega) hun).2
      rw [hfull] at this
      exact this.trans hff
    · intro hmatched
      have hrule : w.checkFullScreen e.fullscreen = e.fullscreen := by
        rcases hmatched with hnew | ⟨p, hp', hps, hrule⟩
        · exact absurd (hnew e hmem) (by omega)
        · have hke := key_eq_of_serial_eq ho hp' hmem (hps.trans hs.symm)
          rwa [show p.fullscreen = e.fullscreen from congrArg (·.2.2) hke] at hrule
      refine ⟨fun g hg hle hlatest _ => ?_, ?_⟩
      · have hge : g.serial = f.serial := by
          have := hlatest f hf (by omega)
          omega
        rw [ho.unique g hg f hf hge, hmode, hfull, hfm, hff]
        exact ⟨rfl, hrule⟩
      · rw [applyState_pendingConfigures]
        intro p hpr
        have hsorted := ho.sorted
        rw [hp] at hsorted
        rw [← hs]
        exact List.rel_of_pairwise_cons (List.pairwise_append.mp hsorted).2.1 hpr

/-- A client that maximizes: it acknowledges the event that asked for it, and commits. -/
def maximizeRun : List Event :=
  [.update .full false ⟨0, 0, 99, 99⟩ 1, .ack 1]

/-- As before, but the window becomes active before the client acknowledges, so that an
unrecorded event with a newer serial is on its way and the client acknowledges only that. -/
def activateRun : List Event :=
  [.update .full false ⟨0, 0, 99, 99⟩ 1, .configure 2, .ack 2]

def maximizedCommit : Commit := ⟨⟨0, 0, 99, 99⟩, ⟨0, 0, 0, 0⟩⟩

theorem maximizeRun_agrees :
    ∃ w, Reachable none false w ∧ Agrees w (w.applyPendingGeometry maximizedCommit) ∧
      (w.applyPendingGeometry maximizedCommit).maxMode = .full := by
  have hr : Reachable none false _ := Lib.Reachable.init.execute maximizeRun rfl
  refine ⟨_, hr, (applyPendingGeometry_agrees_iff hr maximizedCommit).mpr ?_, rfl⟩
  exact .inr (by decide)

theorem activateRun_disagrees :
    ∃ w, Reachable none false w ∧ ¬ Agrees w (w.applyPendingGeometry maximizedCommit) ∧
      w.history.map (·.maxMode) = [.full] ∧ w.applied = [] ∧
      (w.applyPendingGeometry maximizedCommit).maxMode = .restore := by
  refine ⟨_, Lib.Reachable.init.execute activateRun rfl, ?_, rfl, rfl, rfl⟩
  rintro ⟨-, hpend⟩
  exact absurd (hpend ⟨1, ⟨0, 0, 99, 99⟩, .full, false⟩ (by decide)) (by decide)

end Window
end KWinFT.XdgShell
