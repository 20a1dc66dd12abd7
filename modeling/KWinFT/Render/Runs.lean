import KWinFT.Render.Paint

/-! The render loops of all outputs together. No output sleeps on repaints, and none is dropped before the output has painted
it. -/
namespace KWinFT.Render
open KWinFT.Geometry Scene PendingRepaints

section prepare
variable {σ : Setting} {s t : Compositor} {o : OutputId} {w : Nat}

theorem Sound.modify (h : Sound σ s) {f : Output → Output}
    (hf : (∀ t, (s.output o).delayTimer = some t → t ≤ 250) → ∀ t, (f (s.output o)).delayTimer = some t → t ≤ 250) :
    Sound σ (s.modify o f) := by
  refine ⟨fun x => ?_, h.enabled, h.within⟩
  rw [Compositor.modify_output]
  split
  · exact hf (h.timely o)
  · exact h.timely x

theorem Sound.repaints (h : Sound σ s) (ha : Asked σ s t) (hr : t.repaints = s.repaints) : Sound σ t :=
  ⟨ha.timely h.timely, fun w => hr ▸ h.enabled w, fun w => hr ▸ h.within w⟩

/-- The timer is stopped, and the windows are gone through. -/
def Compositor.told (σ : Setting) (s : Compositor) (o : OutputId) : Compositor :=
  s.windows.foldl (Compositor.tellOthers σ · o ·) (s.modify o ({ · with delayTimer := none }))

end prepare

section runs
variable {σ : Setting} {s t : Compositor} {o : OutputId} {p : Paint}

/-- What is left of an output's paint is its own. -/
def Keeps (σ : Setting) (o : OutputId) (s t : Compositor) : Prop := ∀ x, x ≠ o → ∀ p, Pending σ s x p → Pending σ t x p

theorem Paint.Near.fits (hp : p.Near σ) :
    (∀ r ∈ p.before, r.Fits σ) ∧ (∀ w, ∀ r ∈ p.during w, r.Fits σ) ∧ ∀ r ∈ p.after, r.Fits σ :=
  ⟨fun r hr => (hp.before r hr).fits, fun w r hr => (hp.during w r hr).fits, fun r hr => (hp.after r hr).fits⟩

/-- Neither the output nor a window has repaints for it. -/
def Quiet (σ : Setting) (s : Compositor) (o : OutputId) : Prop :=
  ((s.told σ o).output o).repaintsRegion = ∅ ∧
    ∀ w ∈ s.windows, s.hasPendingRepaints σ w → s.waiting σ w ∩ σ.area o = ∅

/-- A change of one output that leaves its repaints and does not put it to sleep. -/
theorem Awake.modify (ha : Awake σ s) {f : Output → Output}
    (hregion : (f (s.output o)).repaintsRegion = (s.output o).repaintsRegion)
    (hawake : (s.output o).Scheduled → (f (s.output o)).Scheduled) : Awake σ (s.modify o f) := by
  have hs (x : OutputId) (hx : (s.output x).Scheduled) : ((s.modify o f).output x).Scheduled := by
    rw [Compositor.modify_output]
    split
    · next he => exact hawake (he ▸ hx)
    · exact hx
  refine ⟨fun x hin hr => hs x (ha.output x hin ?_), fun w hw hready hwants => ?_⟩
  · rw [Compositor.modify_output] at hr
    split at hr
    · next he => exact he ▸ hregion ▸ hr
    · exact hr
  · obtain ⟨y, q, hys, hq⟩ := ha.window w hw hready hwants
    exact ⟨y, q, hs y hys, hq⟩

/-- Windows with repaints are not left out of the stack. A window that becomes ready is on an output, or has no repaints. -/
def Event.Fits (σ : Setting) (s : Compositor) : Event → Prop
  | .request r => r.Fits σ
  | .run _ p => p.Near σ
  | .swapped _ | .outputsOff => True
  | .outputsOn => ∀ o ∈ σ.outputs, σ.screens ∩ σ.area o ≠ ∅
  | .restack windows => ∀ w, s.waiting σ w ≠ ∅ → (w ∈ windows ↔ w ∈ s.windows)
  | .setReadyForPainting w => (∃ o ∈ σ.outputs, rectRegion (σ.visibleRect w) ∩ σ.area o ≠ ∅) ∨ s.waiting σ w = ∅

/-- Nothing is asked of outputs that are not on. -/
def Inv (σ : Setting) (s : Compositor) : Prop := Sound σ s ∧ (s.outputsOn → Awake σ s)

/-- Nothing is asked for yet. The delays are what the memory holds. -/
def Compositor.start (delay : OutputId → Int) : Compositor := { output := fun o => { delay := delay o } }

def sideBySide : Setting where
  outputs := [0, 1]
  geometry o := if o = 0 then ⟨0, 0, 1, 0⟩ else ⟨2, 0, 3, 0⟩
  refreshRate _ := 60000
  hasSwapEvent := true
  screens := rectRegion ⟨0, 0, 3, 0⟩
  pos _ := ⟨0, 0⟩
  renderGeometry _ := ⟨0, 0, 1, 0⟩
  visibleRect _ := ⟨0, 0, 1, 0⟩
  isX11 _ := false

def moved : Compositor :=
  ((((Compositor.start fun _ => 0).respond sideBySide (.restack [7])).respond sideBySide (.setReadyForPainting 7)).respond
    sideBySide (.run 0 {})).respond sideBySide (.request (.window 7 (.addLayerRepaint {(0, 0), (3, 0)})))

end runs
end KWinFT.Render
