import KWinFT.Scene.Window

/-! The repaints of a window that wait for the outputs to paint it. One region serves all outputs, and what an output
has painted is taken off where no other waiting output shows it. -/
namespace KWinFT.Scene
open KWinFT.Geometry

/-- Identity of an output. -/
abbrev OutputId := Nat

/-- What stays as it is: the outputs, where the window is and whether there is compositing. -/
structure Placed where
  enabledOutputs : List OutputId
  geometry : OutputId → Rect
  pos : Point
  renderGeometry : Rect
  compositing : Bool := true

/-- The members of `Toplevel` for repaints. -/
structure PendingRepaints where
  repaintsRegion : Region := ∅
  layerRepaintsRegion : Region := ∅
  repaintOutputs : List OutputId := []
deriving DecidableEq

inductive RepaintEvent
  | addRepaint (region : Region)
  | addLayerRepaint (region : Region)
  | addDamage (damage : Region)
  | resetRepaints (output : OutputId)
deriving DecidableEq

namespace PendingRepaints
variable (w : Placed) (s : PendingRepaints)

def repaints : Region := Region.translated s.repaintsRegion w.pos ∪ s.layerRepaintsRegion

def addRepaintOutputs (region : Region) : PendingRepaints :=
  { s with
    repaintOutputs := w.enabledOutputs.foldl (fun outputs out =>
      if out ∈ outputs then outputs
      else if region ∩ rectRegion (w.geometry out) = ∅ then outputs
      else outputs ++ [out]) s.repaintOutputs }

def addRepaint (region : Region) : PendingRepaints :=
  if w.compositing then
    { s with repaintsRegion := s.repaintsRegion ∪ region }.addRepaintOutputs w (Region.translated region w.pos)
  else s

def addLayerRepaint (region : Region) : PendingRepaints :=
  if w.compositing then { s with layerRepaintsRegion := s.layerRepaintsRegion ∪ region }.addRepaintOutputs w region
  else s

/-- The outputs are those of the whole window. -/
def addDamage (damage : Region) : PendingRepaints :=
  let offset : Point := ⟨w.renderGeometry.left - w.pos.x, w.renderGeometry.top - w.pos.y⟩
  { s with repaintsRegion := s.repaintsRegion ∪ Region.translated damage offset }.addRepaintOutputs w
    (rectRegion w.renderGeometry)

def resetRepaints (output : OutputId) : PendingRepaints :=
  let outputs := s.repaintOutputs.filter (· ≠ output)
  if outputs = [] then {}
  else
    let resetRegion := outputs.foldl (fun region out => region \ rectRegion (w.geometry out))
      (rectRegion (w.geometry output))
    { repaintsRegion :=
        Region.translated (Region.translated s.repaintsRegion w.pos \ resetRegion) ⟨-w.pos.x, -w.pos.y⟩
      layerRepaintsRegion := s.layerRepaintsRegion \ resetRegion
      repaintOutputs := outputs }

def step : RepaintEvent → PendingRepaints
  | .addRepaint region => s.addRepaint w region
  | .addLayerRepaint region => s.addLayerRepaint w region
  | .addDamage damage => s.addDamage w damage
  | .resetRepaints output => s.resetRepaints w output

def run (s : PendingRepaints) (es : List RepaintEvent) : PendingRepaints := es.foldl (step w) s

end PendingRepaints

/-- The points that an event adds, on the screen. -/
def RepaintEvent.added (w : Placed) : RepaintEvent → Region
  | .addRepaint region => if w.compositing then Region.translated region w.pos else ∅
  | .addLayerRepaint region => if w.compositing then region else ∅
  | .addDamage damage => Region.translated damage w.renderGeometry.topLeft
  | .resetRepaints _ => ∅

/-- Outputs paint when they are enabled. -/
def RepaintEvent.Valid (w : Placed) : RepaintEvent → Prop
  | .resetRepaints output => output ∈ w.enabledOutputs
  | _ => True

theorem mem_translated {r : Region} {d : Point} {p : Pixel} :
    p ∈ Region.translated r d ↔ (p.1 - d.x, p.2 - d.y) ∈ r := by
  unfold Region.translated
  rw [Finset.mem_image]
  constructor
  · rintro ⟨q, hq, rfl⟩
    simpa using hq
  · intro hp
    exact ⟨_, hp, by simp⟩

namespace PendingRepaints
variable {w : Placed} {s : PendingRepaints} {p : Pixel} {o : OutputId}

theorem mem_repaints : p ∈ s.repaints w ↔ (p.1 - w.pos.x, p.2 - w.pos.y) ∈ s.repaintsRegion ∨ p ∈ s.layerRepaintsRegion := by
  rw [repaints, Finset.mem_union, mem_translated]

/-- Waiting outputs are those of before and the enabled ones that the region meets. -/
theorem mem_addRepaintOutputs (region : Region) : o ∈ (s.addRepaintOutputs w region).repaintOutputs ↔
    o ∈ s.repaintOutputs ∨ (o ∈ w.enabledOutputs ∧ region ∩ rectRegion (w.geometry o) ≠ ∅) := by
  unfold addRepaintOutputs
  dsimp only
  generalize s.repaintOutputs = outputs
  induction w.enabledOutputs generalizing outputs with
  | nil => simp
  | cons out outs ih =>
    rw [List.foldl_cons, ih]
    split
    · next hin => grind
    · split
      · next hempty => grind
      · next hmeets => grind

/-- An addition keeps what is there and adds its points. -/
theorem mem_repaints_add (e : RepaintEvent) (he : ∀ output, e ≠ .resetRepaints output) :
    p ∈ (s.step w e).repaints w ↔ p ∈ s.repaints w ∨ p ∈ e.added w := by
  cases e with
  | addRepaint region =>
    unfold step addRepaint RepaintEvent.added
    dsimp only
    split
    · simp only [mem_repaints, addRepaintOutputs, Finset.mem_union, mem_translated]
      tauto
    · simp
  | addLayerRepaint region =>
    unfold step addLayerRepaint RepaintEvent.added
    dsimp only
    split
    · simp only [mem_repaints, addRepaintOutputs, Finset.mem_union]
      tauto
    · simp
  | addDamage damage =>
    have hoffset : (p.1 - w.pos.x - (w.renderGeometry.left - w.pos.x), p.2 - w.pos.y - (w.renderGeometry.top - w.pos.y)) =
        (p.1 - w.renderGeometry.left, p.2 - w.renderGeometry.top) := by
      ext <;> dsimp only <;> omega
    simp only [step, addDamage, RepaintEvent.added, mem_repaints, addRepaintOutputs, Finset.mem_union, mem_translated,
      hoffset, Rect.topLeft]
    tauto
  | resetRepaints output => exact absurd rfl (he output)

private theorem mem_resetRegion {outputs : List OutputId} {region : Region} :
    p ∈ outputs.foldl (fun region out => region \ rectRegion (w.geometry out)) region ↔
      p ∈ region ∧ ∀ out ∈ outputs, p ∉ rectRegion (w.geometry out) := by
  induction outputs generalizing region with
  | nil => simp
  | cons out outputs ih =>
    rw [List.foldl_cons, ih, Finset.mem_sdiff, List.forall_mem_cons, and_assoc]

/-- A reset takes off the points of the output that no other waiting output shows, and all when none waits. -/
theorem mem_repaints_reset (output : OutputId) : p ∈ (s.resetRepaints w output).repaints w ↔
    p ∈ s.repaints w ∧ s.repaintOutputs.filter (· ≠ output) ≠ [] ∧
      (p ∈ rectRegion (w.geometry output) → ∃ out ∈ s.repaintOutputs.filter (· ≠ output), p ∈ rectRegion (w.geometry out)) := by
  unfold resetRepaints
  dsimp only
  split
  · next hnone =>
    refine iff_of_false ?_ fun h => h.2.1 hnone
    simp [mem_repaints]
  · next hsome =>
    have hback : (p.1 - w.pos.x - -w.pos.x, p.2 - w.pos.y - -w.pos.y) = p := by
      ext <;> dsimp only <;> omega
    simp only [mem_repaints, mem_translated, Finset.mem_sdiff, mem_resetRegion, hback, ← or_and_right, not_and,
      not_forall, exists_prop, not_not]
    exact and_congr_right fun _ => (and_iff_right hsome).symm

@[simp] theorem resetRepaints_outputs (output : OutputId) :
    (s.resetRepaints w output).repaintOutputs = s.repaintOutputs.filter (· ≠ output) := by
  unfold resetRepaints
  dsimp only
  split
  · next hnone => exact hnone.symm
  · rfl

theorem mem_outputs_add (e : RepaintEvent) (he : ∀ output, e ≠ .resetRepaints output)
    (ho : o ∈ s.repaintOutputs) : o ∈ (s.step w e).repaintOutputs := by
  cases e with
  | addRepaint region =>
    unfold step addRepaint
    dsimp only
    split
    · exact (mem_addRepaintOutputs _).mpr (.inl ho)
    · exact ho
  | addLayerRepaint region =>
    unfold step addLayerRepaint
    dsimp only
    split
    · exact (mem_addRepaintOutputs _).mpr (.inl ho)
    · exact ho
  | addDamage damage => exact (mem_addRepaintOutputs _).mpr (.inl ho)
  | resetRepaints output => exact absurd rfl (he output)

/-- A point of a waiting output stays, and the output keeps waiting, unless it paints itself. -/
theorem step_waits (hp : p ∈ rectRegion (w.geometry o)) (hs : p ∈ s.repaints w ∧ o ∈ s.repaintOutputs)
    {e : RepaintEvent} (he : e ≠ .resetRepaints o) :
    p ∈ (s.step w e).repaints w ∧ o ∈ (s.step w e).repaintOutputs := by
  by_cases hreset : ∃ output, e = .resetRepaints output
  · obtain ⟨output, rfl⟩ := hreset
    have ho : o ∈ s.repaintOutputs.filter (· ≠ output) :=
      List.mem_filter.mpr ⟨hs.2, decide_eq_true fun h => he (by rw [h])⟩
    refine ⟨(mem_repaints_reset output).mpr ⟨hs.1, List.ne_nil_of_mem ho, fun _ => ⟨o, ho, hp⟩⟩, ?_⟩
    exact (resetRepaints_outputs output).symm ▸ ho
  · have hadd : ∀ output, e ≠ .resetRepaints output := fun output h => hreset ⟨output, h⟩
    exact ⟨(mem_repaints_add e hadd).mpr (.inl hs.1), mem_outputs_add e hadd hs.2⟩

private theorem run_waits (hp : p ∈ rectRegion (w.geometry o)) (hs : p ∈ s.repaints w ∧ o ∈ s.repaintOutputs)
    {es : List RepaintEvent} (hes : ∀ e ∈ es, e ≠ .resetRepaints o) : p ∈ (s.run w es).repaints w := by
  induction es generalizing s with
  | nil => exact hs.1
  | cons e es ih =>
    obtain ⟨he, hes⟩ := List.forall_mem_cons.mp hes
    exact ih (step_waits hp hs he) hes

private theorem run_adds (hs : p ∈ s.repaints w) {es : List RepaintEvent}
    (hes : ∀ e ∈ es, ∀ output, e ≠ .resetRepaints output) : p ∈ (s.run w es).repaints w := by
  induction es generalizing s with
  | nil => exact hs
  | cons e es ih =>
    obtain ⟨he, hes⟩ := List.forall_mem_cons.mp hes
    exact ih ((mem_repaints_add e he).mpr (.inl hs)) hes

theorem step_enabled (hs : ∀ o ∈ s.repaintOutputs, o ∈ w.enabledOutputs) (e : RepaintEvent) :
    ∀ o ∈ (s.step w e).repaintOutputs, o ∈ w.enabledOutputs := by
  have hadd (t : PendingRepaints) (ht : t.repaintOutputs = s.repaintOutputs) (region : Region) :
      ∀ o ∈ (t.addRepaintOutputs w region).repaintOutputs, o ∈ w.enabledOutputs := by
    intro o ho
    rcases (mem_addRepaintOutputs region).mp ho with ho | ho
    · exact hs o (ht ▸ ho)
    · exact ho.1
  cases e with
  | addRepaint region =>
    unfold step addRepaint
    dsimp only
    split
    · exact hadd _ rfl _
    · exact hs
  | addLayerRepaint region =>
    unfold step addLayerRepaint
    dsimp only
    split
    · exact hadd _ rfl _
    · exact hs
  | addDamage damage => exact hadd _ rfl _
  | resetRepaints output =>
    intro o ho
    rw [step, resetRepaints_outputs] at ho
    exact hs o (List.mem_filter.mp ho).1

private theorem run_resets_outputs (outs : List OutputId) :
    (s.run w (outs.map .resetRepaints)).repaintOutputs = s.repaintOutputs.filter (· ∉ outs) := by
  induction outs generalizing s with
  | nil => simp [run]
  | cons out outs ih =>
    rw [List.map_cons, run, List.foldl_cons, ← run, ih, step, resetRepaints_outputs, List.filter_filter]
    refine List.filter_congr fun o _ => ?_
    simp only [List.mem_cons, ← Bool.decide_and, decide_eq_decide]
    tauto

/-- After all waiting outputs have painted nothing is left. -/
private theorem run_resets_repaints {outs : List OutputId} (hne : outs ≠ [])
    (hs : ∀ o ∈ s.repaintOutputs, o ∈ outs) : (s.run w (outs.map .resetRepaints)).repaints w = ∅ := by
  obtain ⟨init, last, rfl⟩ := (List.eq_nil_or_concat' outs).resolve_left hne
  rw [Finset.eq_empty_iff_forall_notMem]
  intro p hp
  have hrun : s.run w ((init ++ [last]).map .resetRepaints) =
      (s.run w (init.map .resetRepaints)).resetRepaints w last := by
    rw [List.map_append, run, List.foldl_append]
    rfl
  rw [hrun, mem_repaints_reset] at hp
  refine hp.2.1 ?_
  rw [run_resets_outputs, List.filter_filter, List.filter_eq_nil_iff]
  intro o ho
  have := hs o ho
  simp only [List.mem_append, List.mem_singleton] at this
  simp only [← Bool.decide_and, decide_eq_true_eq]
  tauto

end PendingRepaints

open PendingRepaints

/-- The points of an addition stay for every enabled output until it paints. -/
def KeptForOutputs (w : Placed) (s : PendingRepaints) (e : RepaintEvent) : Prop :=
  ∀ p ∈ e.added w, ∀ o ∈ w.enabledOutputs, p ∈ rectRegion (w.geometry o) → ∀ later : List RepaintEvent,
    (∀ e ∈ later, e.Valid w ∧ e ≠ .resetRepaints o) → p ∈ ((s.step w e).run w later).repaints w

/-- Damage on an output means that the window is on it too, that it waits already or that it is the only one. -/
def DamageOnWindow (w : Placed) (s : PendingRepaints) (e : RepaintEvent) : Prop :=
  ∀ damage, e = .addDamage damage → ∀ o ∈ w.enabledOutputs,
    Region.translated damage w.renderGeometry.topLeft ∩ rectRegion (w.geometry o) ≠ ∅ →
      o ∈ s.repaintOutputs ∨ rectRegion w.renderGeometry ∩ rectRegion (w.geometry o) ≠ ∅ ∨
        ∀ other ∈ w.enabledOutputs, other = o

section kept
variable {w : Placed} {s : PendingRepaints}

private theorem meets {a b : Region} {p : Pixel} (ha : p ∈ a) (hb : p ∈ b) : a ∩ b ≠ ∅ :=
  Finset.ne_empty_of_mem (Finset.mem_inter.mpr ⟨ha, hb⟩)

/-- After an addition its outputs wait. -/
private theorem waits_added {e : RepaintEvent} (hd : DamageOnWindow w s e) {p : Pixel} (hp : p ∈ e.added w) {o : OutputId}
    (ho : o ∈ w.enabledOutputs) (hpo : p ∈ rectRegion (w.geometry o)) :
    o ∈ (s.step w e).repaintOutputs ∨ ∀ other ∈ w.enabledOutputs, other = o := by
  cases e with
  | addRepaint region =>
    simp only [RepaintEvent.added] at hp
    split at hp
    · next hc =>
      rw [step, addRepaint, if_pos hc]
      exact .inl ((mem_addRepaintOutputs _).mpr (.inr ⟨ho, meets hp hpo⟩))
    · simp at hp
  | addLayerRepaint region =>
    simp only [RepaintEvent.added] at hp
    split at hp
    · next hc =>
      rw [step, addLayerRepaint, if_pos hc]
      exact .inl ((mem_addRepaintOutputs _).mpr (.inr ⟨ho, meets hp hpo⟩))
    · simp at hp
  | addDamage damage =>
    rcases hd damage rfl o ho (meets hp hpo) with h | h | h
    · exact .inl ((mem_addRepaintOutputs _).mpr (.inl h))
    · exact .inl ((mem_addRepaintOutputs _).mpr (.inr ⟨ho, h⟩))
    · exact .inr h
  | resetRepaints output => simp [RepaintEvent.added] at hp

private theorem added_not_reset {e : RepaintEvent} {p : Pixel} (hp : p ∈ e.added w) (output : OutputId) :
    e ≠ .resetRepaints output := by
  rintro rfl
  simp [RepaintEvent.added] at hp

private theorem kept_of_damageOnWindow {e : RepaintEvent} (hd : DamageOnWindow w s e) : KeptForOutputs w s e := by
  intro p hp o ho hpo later hlater
  have hin : p ∈ (s.step w e).repaints w := (mem_repaints_add e (added_not_reset hp)).mpr (.inr hp)
  rcases waits_added hd hp ho hpo with hw | honly
  · exact run_waits hpo ⟨hin, hw⟩ fun e he => (hlater e he).2
  · refine run_adds hin fun e he output hreset => ?_
    obtain ⟨hvalid, hne⟩ := hlater e he
    subst hreset
    exact hne (by rw [honly output hvalid])

/-- When the output does not wait, the others paint and take its points with them. -/
private theorem damageOnWindow_of_kept {e : RepaintEvent} (hs : ∀ o ∈ s.repaintOutputs, o ∈ w.enabledOutputs)
    (hk : KeptForOutputs w s e) : DamageOnWindow w s e := by
  rintro damage rfl o ho hmeets
  by_contra hnot
  push Not at hnot
  obtain ⟨hnw, hnr, other, hother, hne⟩ := hnot
  obtain ⟨p, hp⟩ := Finset.nonempty_iff_ne_empty.mpr hmeets
  obtain ⟨hp, hpo⟩ := Finset.mem_inter.mp hp
  have hnot : o ∉ (s.step w (.addDamage damage)).repaintOutputs := by
    rw [step, addDamage]
    intro h
    rcases (mem_addRepaintOutputs _).mp h with h | h
    · exact hnw h
    · exact h.2 hnr
  have henabled := step_enabled hs (.addDamage damage)
  have hkept := hk p hp o ho hpo ((other :: (s.step w (.addDamage damage)).repaintOutputs).map .resetRepaints) (by
    intro e he
    obtain ⟨out, hout, rfl⟩ := List.mem_map.mp he
    rcases List.mem_cons.mp hout with rfl | hout
    · exact ⟨hother, fun h => hne (RepaintEvent.resetRepaints.inj h)⟩
    · exact ⟨henabled out hout, fun h => hnot (RepaintEvent.resetRepaints.inj h ▸ hout)⟩)
  rw [run_resets_repaints (List.cons_ne_nil _ _) fun o h => List.mem_cons_of_mem _ h] at hkept
  exact Finset.notMem_empty _ hkept

/-- In every run, the points of an addition are kept iff damage is on the outputs of the window; and when all waiting
outputs have painted, nothing is left. -/
theorem repaints_kept_iff (w : Placed) (es : List RepaintEvent) :
    (∀ e, KeptForOutputs w (run w {} es) e ↔ DamageOnWindow w (run w {} es) e) ∧
    ∀ outs : List OutputId, outs ≠ [] → (∀ o ∈ (run w {} es).repaintOutputs, o ∈ outs) →
      ((run w {} es).run w (outs.map .resetRepaints)).repaints w = ∅ := by
  have henabled : ∀ o ∈ (run w {} es).repaintOutputs, o ∈ w.enabledOutputs := by
    have hrun (s : PendingRepaints) (hs : ∀ o ∈ s.repaintOutputs, o ∈ w.enabledOutputs) :
        ∀ o ∈ (s.run w es).repaintOutputs, o ∈ w.enabledOutputs := by
      induction es generalizing s with
      | nil => exact hs
      | cons e es ih => exact ih _ (step_enabled hs e)
    exact hrun {} (by simp)
  exact ⟨fun e => ⟨damageOnWindow_of_kept henabled, kept_of_damageOnWindow⟩, fun outs => run_resets_repaints⟩

/-! Two outputs side by side with the window on the left one. -/

private def twoOutputs : Placed where
  enabledOutputs := [0, 1]
  geometry o := if o = 0 then ⟨0, 0, 1, 0⟩ else ⟨2, 0, 3, 0⟩
  pos := ⟨0, 0⟩
  renderGeometry := ⟨0, 0, 1, 0⟩

/-- Damage beyond the window goes when the output of the window paints, before the other one has. -/
theorem damage_lost_beside_window :
    (3, 0) ∈ (RepaintEvent.addDamage {(3, 0)}).added twoOutputs ∧ (3, 0) ∈ rectRegion (twoOutputs.geometry 1) ∧
    (3, 0) ∉ (run twoOutputs {} [.addDamage {(3, 0)}, .resetRepaints 0]).repaints twoOutputs ∧
    ¬ KeptForOutputs twoOutputs {} (.addDamage {(3, 0)}) := by
  have hlost : (3, 0) ∉ (run twoOutputs {} [.addDamage {(3, 0)}, .resetRepaints 0]).repaints twoOutputs := by decide
  refine ⟨by decide, by decide, hlost, fun hk => hlost ?_⟩
  refine hk (3, 0) (by decide) 1 (by decide) (by decide) [.resetRepaints 0] fun e he => ?_
  cases List.mem_singleton.mp he
  exact ⟨by simp [RepaintEvent.Valid, twoOutputs], by decide⟩

end kept

end KWinFT.Scene
