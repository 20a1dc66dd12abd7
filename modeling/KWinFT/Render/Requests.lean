import KWinFT.Render.Output
import Mathlib.Tactic.SplitIfs

/-! What asking for repaints keeps: nothing that waits is dropped, and the outputs that are to paint it are woken up. -/
namespace KWinFT.Render
open KWinFT.Geometry Scene PendingRepaints

/-- The output paints when its timer fires, or it does so after its last picture is shown. -/
def Output.Scheduled (x : Output) : Prop := x.delayTimer.isSome ∨ x.swapPending

/-- What a window has to repaint, on the screen. -/
def Compositor.waiting (σ : Setting) (s : Compositor) (w : Nat) : Region := (s.repaints w).repaints (σ.placed w)

def Setting.area (σ : Setting) (o : OutputId) : Region := rectRegion (σ.geometry o)

/-- The output has still to paint this point of the window. -/
def Wants (σ : Setting) (s : Compositor) (w : Nat) (o : OutputId) (p : Pixel) : Prop :=
  p ∈ s.waiting σ w ∧ p ∈ σ.area o ∧ o ∈ (s.repaints w).repaintOutputs

/-- Timers fire in time, and the repaints of windows are on outputs and, but for those of the layer, where the window is. -/
structure Sound (σ : Setting) (s : Compositor) : Prop where
  timely : ∀ o t, (s.output o).delayTimer = some t → t ≤ 250
  enabled : ∀ w, ∀ o ∈ (s.repaints w).repaintOutputs, o ∈ σ.outputs
  within : ∀ w, Region.translated (s.repaints w).repaintsRegion (σ.pos w) ⊆ rectRegion (σ.visibleRect w)

/-- Outputs are woken up for all that is added, and nothing is dropped. -/
structure Asked (σ : Setting) (s t : Compositor) : Prop where
  outputsOn : t.outputsOn = s.outputsOn
  windows : t.windows = s.windows
  ready : t.readyForPainting = s.readyForPainting
  kept : ∀ w o p, Wants σ s w o p → Wants σ t w o p
  swap : ∀ o, (t.output o).swapPending = (s.output o).swapPending
  timer : ∀ o, (s.output o).delayTimer.isSome → (t.output o).delayTimer.isSome
  region : ∀ o, (s.output o).repaintsRegion ⊆ (t.output o).repaintsRegion
  filled : ∀ o, (t.output o).repaintsRegion = (s.output o).repaintsRegion ∨ (t.output o).Scheduled
  timely : (∀ o t, (s.output o).delayTimer = some t → t ≤ 250) → ∀ o t', (t.output o).delayTimer = some t' → t' ≤ 250

/-- All outputs that get something new to paint of a window are woken up. -/
def Direct (σ : Setting) (s t : Compositor) : Prop :=
  s.outputsOn → ∀ w o p, Wants σ t w o p → Wants σ s w o p ∨ (t.output o).Scheduled

section output
variable (x : Output)

theorem Output.setDelayTimer_scheduled : x.setDelayTimer.Scheduled := by
  unfold setDelayTimer Scheduled
  split
  · next h => exact (Bool.or_eq_true _ _).mp h
  · exact .inl rfl

@[simp] theorem Output.setDelayTimer_swapPending : x.setDelayTimer.swapPending = x.swapPending := by
  unfold setDelayTimer
  split <;> rfl

@[simp] theorem Output.setDelayTimer_repaintsRegion : x.setDelayTimer.repaintsRegion = x.repaintsRegion := by
  unfold setDelayTimer
  split <;> rfl

theorem Output.setDelayTimer_timer (h : x.delayTimer.isSome) : x.setDelayTimer.delayTimer.isSome := by
  unfold setDelayTimer
  split
  · exact h
  · rfl

theorem Output.setDelayTimer_timely (h : ∀ t, x.delayTimer = some t → t ≤ 250) :
    ∀ t, x.setDelayTimer.delayTimer = some t → t ≤ 250 := by
  unfold setDelayTimer
  split
  · exact h
  · rintro t ⟨⟩
    exact min_le_right _ _

end output

@[simp] theorem Compositor.modify_output (s : Compositor) (o : OutputId) (f : Output → Output) (x : OutputId) :
    (s.modify o f).output x = if x = o then f (s.output o) else s.output x := Function.update_apply ..

namespace Asked
variable {σ : Setting} {s t u : Compositor}

theorem refl : Asked σ s s := ⟨rfl, rfl, rfl, fun _ _ _ => id, fun _ => rfl, fun _ => id, fun _ => le_rfl, fun _ => .inl rfl, id⟩

theorem scheduled (h : Asked σ s t) {o : OutputId} (hs : (s.output o).Scheduled) : (t.output o).Scheduled :=
  hs.imp (h.timer o) (h.swap o).trans

theorem trans (h : Asked σ s t) (h' : Asked σ t u) : Asked σ s u where
  outputsOn := h'.outputsOn.trans h.outputsOn
  windows := h'.windows.trans h.windows
  ready := h'.ready.trans h.ready
  kept w o p := h'.kept w o p ∘ h.kept w o p
  swap o := (h'.swap o).trans (h.swap o)
  timer o := h'.timer o ∘ h.timer o
  region o := (h.region o).trans (h'.region o)
  filled o := (h'.filled o).elim (fun e => (h.filled o).imp e.trans h'.scheduled) .inr
  timely := h'.timely ∘ h.timely

/-- One output is asked. -/
theorem modify {o : OutputId} {f : Output → Output} (hswap : ∀ x, (f x).swapPending = x.swapPending)
    (htimer : ∀ x, x.delayTimer.isSome → (f x).delayTimer.isSome) (hregion : ∀ x, x.repaintsRegion ⊆ (f x).repaintsRegion)
    (hfilled : ∀ x, (f x).repaintsRegion = x.repaintsRegion ∨ (f x).Scheduled)
    (htimely : ∀ x, (∀ t, x.delayTimer = some t → t ≤ 250) → ∀ t, (f x).delayTimer = some t → t ≤ 250) :
    Asked σ s (s.modify o f) := by
  refine ⟨rfl, rfl, rfl, fun _ _ _ => id, fun x => ?_, fun x => ?_, fun x => ?_, fun x => ?_, fun h x => ?_⟩ <;>
    rw [Compositor.modify_output] <;> split
  · next hx => exact hx ▸ hswap _
  · rfl
  · next hx => exact hx ▸ htimer _
  · exact id
  · next hx => exact hx ▸ hregion _
  · exact le_rfl
  · next hx => exact hx ▸ hfilled _
  · exact .inl rfl
  · exact htimely _ (h o)
  · exact h x

theorem setDelayTimer (o : OutputId) : Asked σ s (s.modify o Output.setDelayTimer) :=
  modify Output.setDelayTimer_swapPending Output.setDelayTimer_timer
    (fun x => x.setDelayTimer_repaintsRegion.symm.subset) (fun x => .inr x.setDelayTimer_scheduled)
    Output.setDelayTimer_timely

theorem addRepaint (o : OutputId) (geometry : Rect) (region : Region) :
    Asked σ s (s.modify o (Output.addRepaint · geometry region)) := by
  refine modify (fun x => ?_) (fun x hx => ?_) (fun x => ?_) (fun x => ?_) fun x hx => ?_ <;> unfold Output.addRepaint <;>
    dsimp only <;> split
  · rfl
  · exact Output.setDelayTimer_swapPending _
  · exact hx
  · exact Output.setDelayTimer_timer _ hx
  · exact le_rfl
  · rw [Output.setDelayTimer_repaintsRegion]
    exact Finset.subset_union_left
  · exact .inl rfl
  · exact .inr (Output.setDelayTimer_scheduled _)
  · exact hx
  · exact Output.setDelayTimer_timely _ hx

/-- A loop in which outputs are asked. -/
theorem foldl {A : Type} {f : Compositor → A → Compositor} (hf : ∀ s a, Asked σ s (f s a)) (as : List A) (s : Compositor) :
    Asked σ s (as.foldl f s) := by
  induction as generalizing s with
  | nil => exact refl
  | cons a as ih => exact (hf s a).trans (ih (f s a))

end Asked

section requests
variable {σ : Setting} {s t : Compositor}

/-- What is so after one output was asked stays so. -/
theorem foldl_settles {Q : Compositor → Prop} (hQ : ∀ s t, Asked σ s t → Q s → Q t) {f : Compositor → OutputId → Compositor}
    (hf : ∀ s o, Asked σ s (f s o)) {os : List OutputId} {o : OutputId} (ho : o ∈ os) (hs : ∀ s, Q (f s o)) (s : Compositor) :
    Q (os.foldl f s) := by
  obtain ⟨before, after, rfl⟩ := List.append_of_mem ho
  rw [List.foldl_append, List.foldl_cons]
  exact hQ _ _ (Asked.foldl hf after _) (hs _)

theorem foldl_scheduled {f : Compositor → OutputId → Compositor} (hf : ∀ s o, Asked σ s (f s o)) {os : List OutputId}
    {o : OutputId} (ho : o ∈ os) (hs : ∀ s, ((f s o).output o).Scheduled) (s : Compositor) :
    ((os.foldl f s).output o).Scheduled :=
  foldl_settles (Q := fun s => (s.output o).Scheduled) (fun _ _ ha => ha.scheduled) hf ho hs s

theorem foldl_repaints {f : Compositor → OutputId → Compositor} (hf : ∀ s o, (f s o).repaints = s.repaints)
    (os : List OutputId) (s : Compositor) : (os.foldl f s).repaints = s.repaints := by
  induction os generalizing s with
  | nil => rfl
  | cons o os ih => exact (ih (f s o)).trans (hf s o)

theorem addRepaint_asked (region : Region) : Asked σ s (s.addRepaint σ region) :=
  Asked.foldl (fun _ o => Asked.addRepaint o (σ.geometry o) region) σ.outputs s

theorem addRepaint_repaints (region : Region) : (s.addRepaint σ region).repaints = s.repaints :=
  foldl_repaints (f := fun s o => s.modify o (Output.addRepaint · (σ.geometry o) region)) (fun _ _ => rfl) σ.outputs s

private theorem schedule_asked (w : Nat) (s : Compositor) (o : OutputId) :
    Asked σ s (if rectRegion (σ.visibleRect w) ∩ rectRegion (σ.geometry o) ≠ ∅ then s.modify o Output.setDelayTimer else s) := by
  split
  · exact Asked.setDelayTimer o
  · exact .refl

theorem scheduleRepaint_asked (w : Nat) : Asked σ s (s.scheduleRepaint σ w) := by
  unfold Compositor.scheduleRepaint
  split
  · exact Asked.foldl (schedule_asked w) σ.outputs s
  · exact .refl

theorem scheduleRepaint_repaints (w : Nat) : (s.scheduleRepaint σ w).repaints = s.repaints := by
  unfold Compositor.scheduleRepaint
  split
  · refine foldl_repaints (fun s o => ?_) σ.outputs s
    split <;> rfl
  · rfl

theorem scheduleRepaint_scheduled {w : Nat} {o : OutputId} (hon : s.outputsOn) (ho : o ∈ σ.outputs)
    (hw : rectRegion (σ.visibleRect w) ∩ σ.area o ≠ ∅) : ((s.scheduleRepaint σ w).output o).Scheduled := by
  unfold Compositor.scheduleRepaint
  rw [if_pos hon]
  refine foldl_scheduled (schedule_asked w) ho (fun s => ?_) s
  change rectRegion (σ.visibleRect w) ∩ rectRegion (σ.geometry o) ≠ ∅ at hw
  rw [if_pos hw, Compositor.modify_output, if_pos rfl]
  exact Output.setDelayTimer_scheduled _

/-- What a window asks for is where it is seen. A repaint of its layer may also be where it was before, if some of it is on an
output of the window. -/
def Request.Fits (σ : Setting) : Request → Prop
  | .screen _ | .windowFull _ => True
  | .window w (.addRepaint region) => Region.translated region (σ.pos w) ⊆ rectRegion (σ.visibleRect w)
  | .window w (.addLayerRepaint region) =>
    (∃ o ∈ σ.outputs, region ∩ σ.area o ≠ ∅) →
      ∃ o ∈ σ.outputs, region ∩ σ.area o ≠ ∅ ∧ rectRegion (σ.visibleRect w) ∩ σ.area o ≠ ∅
  | .window w (.addDamage damage) =>
    Region.translated damage (σ.renderGeometry w).topLeft ⊆ rectRegion (σ.renderGeometry w) ∧
      rectRegion (σ.renderGeometry w) ⊆ rectRegion (σ.visibleRect w)
  | .window _ (.resetRepaints _) => False

/-- All outputs of the region are outputs of the window. -/
def Request.Near (σ : Setting) : Request → Prop
  | .window w (.addLayerRepaint region) =>
    ∀ o ∈ σ.outputs, region ∩ σ.area o ≠ ∅ → rectRegion (σ.visibleRect w) ∩ σ.area o ≠ ∅
  | r => r.Fits σ

/-- If some outputs have something to paint of a window, one of these is woken up. -/
def Attended (σ : Setting) (s : Compositor) (w : Nat) : Prop :=
  (∃ o p, Wants σ s w o p) → ∃ o p, (s.output o).Scheduled ∧ Wants σ s w o p

/-- The window gets repaints, and the outputs that it is shown on wait with those of before. -/
structure Adds (σ : Setting) (s : Compositor) (w : Nat) (added shown : Region) (P : PendingRepaints) : Prop where
  mem : ∀ p, p ∈ P.repaints (σ.placed w) ↔ p ∈ s.waiting σ w ∨ p ∈ added
  outputs : ∀ o, o ∈ P.repaintOutputs ↔ o ∈ (s.repaints w).repaintOutputs ∨ o ∈ σ.outputs ∧ shown ∩ σ.area o ≠ ∅
  shown : added ⊆ shown
  within : Region.translated P.repaintsRegion (σ.pos w) ⊆ rectRegion (σ.visibleRect w)

theorem inter_ne_empty {a b : Region} {p : Pixel} (ha : p ∈ a) (hb : p ∈ b) : a ∩ b ≠ ∅ :=
  Finset.ne_empty_of_mem (Finset.mem_inter.mpr ⟨ha, hb⟩)

namespace Adds
variable {w : Nat} {added shown : Region} {P : PendingRepaints}

/-- The repaints of the window are stored before outputs are woken up. -/
def stored (s : Compositor) (w : Nat) (P : PendingRepaints) : Compositor :=
  { s with repaints := Function.update s.repaints w P }

theorem repaints (s : Compositor) (w : Nat) (P : PendingRepaints) (v : Nat) :
    ((stored s w P).scheduleRepaint σ w).repaints v = if v = w then P else s.repaints v := by
  rw [scheduleRepaint_repaints]
  exact Function.update_apply ..

/-- What outputs want is what they wanted, or they show some of the window. -/
theorem wants (h : Adds σ s w added shown P) {v : Nat} {o : OutputId} {p : Pixel}
    (hw : Wants σ ((stored s w P).scheduleRepaint σ w) v o p) :
    Wants σ s v o p ∨ v = w ∧ shown ∩ σ.area o ≠ ∅ := by
  obtain ⟨hp, hpo, hout⟩ := hw
  unfold Compositor.waiting at hp
  rw [repaints] at hp hout
  split at hp
  · next hv =>
    subst hv
    rw [if_pos rfl, h.outputs] at hout
    rcases (h.mem p).mp hp with hold | hnew
    · exact hout.imp (fun hout => ⟨hold, hpo, hout⟩) fun hshow => ⟨rfl, hshow.2⟩
    · exact .inr ⟨rfl, inter_ne_empty (h.shown hnew) hpo⟩
  · next hv => exact .inl ⟨hp, hpo, by rwa [if_neg hv] at hout⟩

theorem wants_added (h : Adds σ s w added shown P) {o : OutputId} {p : Pixel} (hp : p ∈ added) (ho : o ∈ σ.outputs)
    (hpo : p ∈ σ.area o) : Wants σ ((stored s w P).scheduleRepaint σ w) w o p := by
  unfold Wants Compositor.waiting
  rw [repaints, if_pos rfl]
  exact ⟨(h.mem p).mpr (.inr hp), hpo, (h.outputs o).mpr (.inr ⟨ho, inter_ne_empty (h.shown hp) hpo⟩)⟩

theorem asked (h : Adds σ s w added shown P) : Asked σ s ((stored s w P).scheduleRepaint σ w) := by
  have ha : Asked σ (stored s w P) ((stored s w P).scheduleRepaint σ w) := scheduleRepaint_asked w
  refine { ha with kept := fun v o p ⟨hp, hpo, hout⟩ => ?_ }
  unfold Wants Compositor.waiting
  rw [repaints]
  split
  · next hv =>
    subst hv
    exact ⟨(h.mem p).mpr (.inl hp), hpo, (h.outputs o).mpr (.inl hout)⟩
  · exact ⟨hp, hpo, hout⟩

theorem sound (h : Adds σ s w added shown P) (hs : Sound σ s) : Sound σ ((stored s w P).scheduleRepaint σ w) := by
  refine ⟨h.asked.timely hs.timely, fun v => ?_, fun v => ?_⟩ <;> rw [repaints] <;> split
  · exact fun o ho => ((h.outputs o).mp ho).elim (hs.enabled w o) And.left
  · exact hs.enabled v
  · next hv => exact hv ▸ h.within
  · exact hs.within v

theorem direct (h : Adds σ s w added shown P) (hs : Sound σ s)
    (hnear : ∀ o ∈ σ.outputs, shown ∩ σ.area o ≠ ∅ → rectRegion (σ.visibleRect w) ∩ σ.area o ≠ ∅) :
    Direct σ s ((stored s w P).scheduleRepaint σ w) := by
  intro hon v o p hp
  have ho := (h.sound hs).enabled v o hp.2.2
  refine (h.wants hp).imp_right fun ⟨_, hshow⟩ => ?_
  exact scheduleRepaint_scheduled (s := stored s w P) hon ho (hnear o ho hshow)

theorem attended (h : Adds σ s w added shown P) (hs : Sound σ s)
    (hfits : (∃ o ∈ σ.outputs, shown ∩ σ.area o ≠ ∅) →
      ∃ o ∈ σ.outputs, added ∩ σ.area o ≠ ∅ ∧ rectRegion (σ.visibleRect w) ∩ σ.area o ≠ ∅)
    (hon : s.outputsOn) {v : Nat} (hv : Attended σ s v) : Attended σ ((stored s w P).scheduleRepaint σ w) v := by
  rintro ⟨o, p, hp⟩
  have ho := (h.sound hs).enabled v o hp.2.2
  rcases h.wants hp with hold | ⟨rfl, hshow⟩
  · obtain ⟨y, q, hys, hq⟩ := hv ⟨o, p, hold⟩
    exact ⟨y, q, h.asked.scheduled hys, h.asked.kept v y q hq⟩
  · obtain ⟨y, hy, hmeets, hvis⟩ := hfits ⟨o, ho, hshow⟩
    obtain ⟨q, hq⟩ := Finset.nonempty_iff_ne_empty.mpr hmeets
    obtain ⟨hq, hqy⟩ := Finset.mem_inter.mp hq
    exact ⟨y, q, scheduleRepaint_scheduled (s := stored s v P) hon hy hvis, h.wants_added hq hy hqy⟩

end Adds

/-- Where the repaint is, on the screen. -/
def Request.added (σ : Setting) : Request → Region
  | .screen region => region
  | .window w e => e.added (σ.placed w)
  | .windowFull w => rectRegion (σ.visibleRect w)

/-- Where it is looked for outputs. -/
def shownRegion (σ : Setting) (w : Nat) : RepaintEvent → Region
  | .addDamage _ => rectRegion (σ.renderGeometry w)
  | e => e.added (σ.placed w)

theorem translated_back (r : Region) (d : Point) : Region.translated (Region.translated r ⟨-d.x, -d.y⟩) d = r := by
  ext p
  have hp : (p.1 - d.x - -d.x, p.2 - d.y - -d.y) = p := by
    ext <;> dsimp only <;> omega
  rw [mem_translated, mem_translated, hp]

theorem windowFull_adds (h : Sound σ s) (w : Nat) :
    Adds σ s w (rectRegion (σ.visibleRect w)) (rectRegion (σ.visibleRect w)) (s.addRepaintFull σ w) where
  mem p := by
    have hback := translated_back (rectRegion (σ.visibleRect w)) (σ.pos w)
    have hmem : p ∈ (s.addRepaintFull σ w).repaints (σ.placed w) ↔
        p ∈ rectRegion (σ.visibleRect w) ∨ p ∈ (s.repaints w).layerRepaintsRegion := by
      refine Finset.mem_union.trans (or_congr_left ?_)
      rw [← hback]
      rfl
    have hold : p ∈ s.waiting σ w ↔
        p ∈ Region.translated (s.repaints w).repaintsRegion (σ.pos w) ∨ p ∈ (s.repaints w).layerRepaintsRegion :=
      Finset.mem_union
    have hin := @h.within w p
    rw [hmem, hold]
    exact ⟨fun h => h.elim .inr fun hl => .inl (.inr hl), fun h => h.elim (Or.imp_left (hin ·)) .inl⟩
  outputs o := mem_addRepaintOutputs _
  shown := subset_rfl
  within := (translated_back _ _).subset

theorem window_adds (h : Sound σ s) {w : Nat} {e : RepaintEvent} (hf : (Request.window w e).Fits σ) :
    Adds σ s w (e.added (σ.placed w)) (shownRegion σ w e) ((s.repaints w).step (σ.placed w) e) := by
  have hadd : ∀ output, e ≠ .resetRepaints output := by
    rintro output rfl
    exact hf
  have hunion (r : Region) (hr : Region.translated r (σ.pos w) ⊆ rectRegion (σ.visibleRect w)) :
      Region.translated ((s.repaints w).repaintsRegion ∪ r) (σ.pos w) ⊆ rectRegion (σ.visibleRect w) :=
    (Finset.image_union ..).trans_subset (Finset.union_subset (h.within w) hr)
  cases e with
  | addRepaint region => exact ⟨fun p => mem_repaints_add _ hadd, fun o => mem_addRepaintOutputs _, subset_rfl, hunion region hf⟩
  | addLayerRepaint region =>
    exact ⟨fun p => mem_repaints_add _ hadd, fun o => mem_addRepaintOutputs _, subset_rfl, h.within w⟩
  | addDamage damage =>
    refine ⟨fun p => mem_repaints_add _ hadd, fun o => mem_addRepaintOutputs _, hf.1, hunion _ fun p hp => hf.2 (hf.1 ?_)⟩
    have hoffset : (p.1 - (σ.pos w).x - ((σ.renderGeometry w).left - (σ.pos w).x),
        p.2 - (σ.pos w).y - ((σ.renderGeometry w).top - (σ.pos w).y)) =
        (p.1 - (σ.renderGeometry w).left, p.2 - (σ.renderGeometry w).top) := by
      ext <;> dsimp only <;> omega
    rw [mem_translated, mem_translated] at hp
    rw [mem_translated]
    exact hoffset ▸ hp
  | resetRepaints output => exact absurd rfl (hadd output)

theorem request_asked (h : Sound σ s) {r : Request} (hf : r.Fits σ) : Asked σ s (s.request σ r) := by
  cases r with
  | screen region => exact addRepaint_asked region
  | window w e => exact (window_adds h hf).asked
  | windowFull w => exact (windowFull_adds h w).asked

theorem request_sound (h : Sound σ s) {r : Request} (hf : r.Fits σ) : Sound σ (s.request σ r) := by
  cases r with
  | screen region =>
    have hr : (s.request σ (.screen region)).repaints = s.repaints := addRepaint_repaints region
    exact ⟨(addRepaint_asked (σ := σ) region).timely h.timely, fun w => hr ▸ h.enabled w, fun w => hr ▸ h.within w⟩
  | window w e => exact (window_adds h hf).sound h
  | windowFull w => exact (windowFull_adds h w).sound h

theorem Request.Near.fits {r : Request} (h : r.Near σ) : r.Fits σ := by
  cases r with
  | screen | windowFull => exact h
  | window w e =>
    cases e with
    | addLayerRepaint region =>
      rintro ⟨o, ho, hr⟩
      exact ⟨o, ho, hr, h o ho hr⟩
    | addRepaint | addDamage | resetRepaints => exact h

theorem request_direct (h : Sound σ s) {r : Request} (hn : r.Near σ) : Direct σ s (s.request σ r) := by
  have inside {shown : Region} {w : Nat} (hin : shown ⊆ rectRegion (σ.visibleRect w)) (o : OutputId)
      (hr : shown ∩ σ.area o ≠ ∅) : rectRegion (σ.visibleRect w) ∩ σ.area o ≠ ∅ :=
    fun hn => hr (Finset.subset_empty.mp ((Finset.inter_subset_inter_right hin).trans hn.subset))
  cases r with
  | screen region =>
    intro _ w o p hp
    unfold Wants Compositor.waiting Compositor.request at hp
    rw [addRepaint_repaints] at hp
    exact .inl hp
  | windowFull w => exact (windowFull_adds h w).direct h fun o _ hr => hr
  | window w e =>
    refine (window_adds h hn.fits).direct h fun o ho => ?_
    cases e with
    | addRepaint region => exact inside hn o
    | addLayerRepaint region => exact hn o ho
    | addDamage damage => exact inside hn.2 o
    | resetRepaints output => exact hn.elim

theorem Direct.attended (hd : Direct σ s t) (ha : Asked σ s t) (hon : s.outputsOn) {w : Nat} (hw : Attended σ s w) :
    Attended σ t w := by
  rintro ⟨o, p, hp⟩
  rcases hd hon w o p hp with hold | hnew
  · obtain ⟨y, q, hys, hq⟩ := hw ⟨o, p, hold⟩
    exact ⟨y, q, ha.scheduled hys, ha.kept w y q hq⟩
  · exact ⟨o, p, hnew, hp⟩

theorem request_attended (h : Sound σ s) {r : Request} (hf : r.Fits σ) (hon : s.outputsOn) {w : Nat}
    (hw : Attended σ s w) : Attended σ (s.request σ r) w := by
  by_cases hn : r.Near σ
  · exact (request_direct h hn).attended (request_asked h hf) hon hw
  · cases r with
    | screen | windowFull => exact absurd hf hn
    | window v e =>
      cases e with
      | addLayerRepaint region => exact (window_adds h hf).attended h hf hon hw
      | addRepaint | addDamage | resetRepaints => exact absurd hf hn

end requests

end KWinFT.Render
