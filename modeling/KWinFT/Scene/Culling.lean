import KWinFT.Scene.PaintSimpleScreen

/-! What the four passes do at one pixel. Only the topmost window whose clip has the pixel counts: the
windows below it never paint there, and it and those above paint together or not at all. -/
namespace KWinFT.Scene
open Lib
variable {α C : Type*} {p : Pixel}

/-- The clip of the window is used, and has the pixel. -/
def Phase2Data.culls (d : Phase2Data α) (p : Pixel) : Prop := d.mask ≠ .windowTranslucent ∧ p ∈ d.clip

namespace Frame
variable {f : Frame α} {x : Contents α C} {s : Culled α} {d : Phase2Data α}

def enabled (f : Frame α) : List α := f.stackingOrder.filter fun a => (f.window a).isPaintingEnabled

/-- The colour of a layer of windows painted completely over a colour. -/
def paintOver (x : Contents α C) (windows : List α) (p : Pixel) (c : C) : C :=
  compose (windows.map fun a => x.blend a p) c

/-- The pixel is damaged, out of date or in a repaint of one of the windows. -/
def Asked (f : Frame α) (windows : List α) (p : Pixel) : Prop :=
  p ∈ f.region ∨ p ∈ f.repaintRegion ∨ ∃ a ∈ windows, p ∈ (f.window a).repaints

section collecting

private theorem foldl_collect (windows : List α) (s : Collected α) :
    (windows.foldl f.collectWindow s).phase2data = s.phase2data ++
        (windows.filter fun a => (f.window a).isPaintingEnabled).map f.prePaintWindow ∧
      ∀ p, p ∈ (windows.foldl f.collectWindow s).dirtyArea ↔ p ∈ s.dirtyArea ∨
        ∃ a ∈ windows.filter fun a => (f.window a).isPaintingEnabled, p ∈ (f.prePaintWindow a).region := by
  induction windows generalizing s with
  | nil => simp
  | cons a windows ih =>
    rw [List.foldl_cons]
    obtain ⟨hd, hm⟩ := ih (f.collectWindow s a)
    by_cases ha : (f.window a).isPaintingEnabled
    · refine ⟨?_, fun p => ?_⟩
      · rw [hd]
        simp [collectWindow, ha]
      · rw [hm p]
        simp [collectWindow, ha, or_assoc]
    · refine ⟨?_, fun p => ?_⟩
      · rw [hd]
        simp [collectWindow, ha]
      · rw [hm p]
        simp [collectWindow, ha]

theorem collect_phase2data (f : Frame α) : f.collect.phase2data = f.enabled.map f.prePaintWindow := by
  simpa [collect, enabled] using (foldl_collect f.stackingOrder ⟨[], f.region, false⟩).1

theorem mem_collect_dirtyArea :
    p ∈ f.collect.dirtyArea ↔ p ∈ f.region ∨ ∃ a ∈ f.enabled, p ∈ (f.window a).repaints := by
  rw [collect, (foldl_collect f.stackingOrder ⟨[], f.region, false⟩).2 p]
  simp only [prePaintWindow, enabled, Finset.mem_union]
  grind

/-- The damage, the repaints of the enabled windows and the part that is out of date. -/
def requested (f : Frame α) : Region :=
  f.region ∪ f.repaintRegion ∪ (f.enabled.map fun a => (f.window a).repaints).foldr (· ∪ ·) ∅

/-- The whole screen is requested, or the backend prefers it. -/
def DrawsAll (f : Frame α) : Prop :=
  f.requested = f.displayRegion ∨
    f.wantsFullRepaint f.requested (f.stackingOrder.getLast?.any fun a => (f.window a).opaqueFullscreen)

theorem mem_requested : p ∈ f.requested ↔ f.Asked f.enabled p := by
  have hr : ∀ windows : List α, p ∈ (windows.map fun a => (f.window a).repaints).foldr (· ∪ ·) ∅ ↔
      ∃ a ∈ windows, p ∈ (f.window a).repaints := by
    intro windows
    induction windows with
    | nil => simp
    | cons a windows ih => simp [ih]
  rw [requested, Finset.mem_union, Finset.mem_union, hr, or_assoc, Asked]

private theorem collect_requested (f : Frame α) : f.collect.dirtyArea ∪ f.repaintRegion = f.requested := by
  ext p
  rw [mem_requested, Finset.mem_union, mem_collect_dirtyArea, Asked, or_right_comm, or_assoc]

private theorem collect_opaqueFullscreen (f : Frame α) : f.collect.opaqueFullscreen =
    f.stackingOrder.getLast?.any fun a => (f.window a).opaqueFullscreen := by
  have hstep : ∀ s a, (f.collectWindow s a).opaqueFullscreen = (f.window a).opaqueFullscreen := by
    intro s a
    unfold collectWindow
    split <;> rfl
  unfold collect
  rcases f.stackingOrder.eq_nil_or_concat with h | ⟨windows, a, h⟩
  · simp [h]
  · simp [h, hstep]

theorem fullRepaint_iff : f.fullRepaint ↔ f.DrawsAll := by
  simp only [fullRepaint, dirtyArea, extendPaintRegion, collect_requested, collect_opaqueFullscreen, DrawsAll,
    decide_eq_true_eq]
  grind

theorem mem_dirtyArea (hp : f.fullRepaint → p ∈ f.displayRegion) :
    p ∈ f.dirtyArea ↔ f.fullRepaint ∨ f.Asked f.enabled p := by
  by_cases hf : f.fullRepaint
  · have hd : f.dirtyArea = f.displayRegion := by simpa [fullRepaint] using hf
    simp [hf, hd, hp hf]
  · have hd : f.dirtyArea = f.requested := by
      simp only [fullRepaint, dirtyArea, extendPaintRegion, collect_requested] at hf ⊢
      grind
    simp [hf, hd, mem_requested]

end collecting

section culling

theorem mem_culledRegion (hp : f.fullRepaint → p ∈ f.displayRegion) :
    p ∈ f.culledRegion d s ↔ (f.fullRepaint ∨ p ∈ d.region ∨ p ∈ s.upperTranslucentDamage) ∧ p ∉ s.allclips := by
  by_cases hf : f.fullRepaint
  · simp [culledRegion, hf, hp hf]
  · simp [culledRegion, hf]

theorem mem_allclips_cullWindow :
    p ∈ (f.cullWindow d s).allclips ↔ p ∈ s.allclips ∨ d.culls p := by
  unfold cullWindow
  split
  · next h => simp [Phase2Data.culls, h.2]
  · next h =>
    have hc : ¬ d.culls p := fun hc => h ⟨Finset.ne_empty_of_mem hc.2, hc.1⟩
    simp [hc]

theorem mem_upper_cullWindow (hp : f.fullRepaint → p ∈ f.displayRegion) (hc : p ∉ s.allclips) (hd : ¬ d.culls p) :
    (f.fullRepaint ∨ p ∈ (f.cullWindow d s).upperTranslucentDamage) ↔
      f.fullRepaint ∨ p ∈ d.region ∨ p ∈ s.upperTranslucentDamage := by
  by_cases hf : f.fullRepaint
  · simp [hf]
  have hu : p ∈ (f.cullWindow d s).upperTranslucentDamage ↔
      p ∈ s.upperTranslucentDamage ∨ p ∈ f.culledRegion d s := by
    unfold cullWindow
    split
    · next h =>
      have hn : p ∉ d.clip := fun hp => hd ⟨h.2, hp⟩
      simp [hn]
    · simp
  rw [hu, mem_culledRegion hp]
  simp only [hf, hc, Bool.false_eq_true, false_or, not_false_eq_true, and_true]
  rw [or_left_comm, or_self]

@[simp] theorem cullWindow_phase2data :
    (f.cullWindow d s).phase2data = { d with region := f.culledRegion d s } :: s.phase2data := by
  unfold cullWindow
  split <;> rfl

@[simp] theorem cull_cons (ds : List (Phase2Data α)) : f.cull (d :: ds) = f.cullWindow d (f.cull ds) := rfl

theorem mem_allclips_cull (ds : List (Phase2Data α)) : p ∈ (f.cull ds).allclips ↔ ∃ d ∈ ds, d.culls p := by
  induction ds with
  | nil => simp [cull]
  | cons d ds ih => simp [mem_allclips_cullWindow, ih, or_comm]

theorem cull_windows (ds : List (Phase2Data α)) :
    (f.cull ds).phase2data.map (·.window) = ds.map (·.window) := by
  induction ds with
  | nil => rfl
  | cons d ds ih => simp [ih]

/-- Above the topmost clip the damage of all windows is passed down. -/
theorem mem_upper_cull (hp : f.fullRepaint → p ∈ f.displayRegion) (ds : List (Phase2Data α)) (hc : ∀ d ∈ ds, ¬ d.culls p) :
    (f.fullRepaint ∨ p ∈ (f.cull ds).upperTranslucentDamage) ↔
      f.fullRepaint ∨ p ∈ f.repaintRegion ∨ ∃ d ∈ ds, p ∈ d.region := by
  induction ds with
  | nil => simp [cull]
  | cons d ds ih =>
    have hs : p ∉ (f.cull ds).allclips := by
      rw [mem_allclips_cull]
      exact fun ⟨e, he, h⟩ => hc e (List.mem_cons_of_mem d he) h
    have hi := ih fun e he => hc e (List.mem_cons_of_mem d he)
    rw [cull_cons, mem_upper_cullWindow hp hs (hc d List.mem_cons_self), or_left_comm, hi]
    simp only [List.mem_cons, exists_eq_or_imp]
    rw [or_left_comm, or_left_comm (b := p ∈ f.repaintRegion)]

/-- A region above the topmost clip has the pixel only if some damage does. -/
theorem mem_region_cull (hp : f.fullRepaint → p ∈ f.displayRegion) (ds : List (Phase2Data α)) (hc : ∀ d ∈ ds, ¬ d.culls p)
    (hr : d ∈ (f.cull ds).phase2data) (hd : p ∈ d.region) :
    f.fullRepaint ∨ p ∈ (f.cull ds).upperTranslucentDamage := by
  induction ds with
  | nil => simp [cull] at hr
  | cons e ds ih =>
    have hs : p ∉ (f.cull ds).allclips := by
      rw [mem_allclips_cull]
      exact fun ⟨e', he, h⟩ => hc e' (List.mem_cons_of_mem e he) h
    rw [cull_cons, mem_upper_cullWindow hp hs (hc e List.mem_cons_self)]
    rw [cull_cons, cullWindow_phase2data, List.mem_cons] at hr
    rcases hr with rfl | hr
    · exact ((mem_culledRegion hp).mp hd).1
    · rcases ih (fun e' he => hc e' (List.mem_cons_of_mem e he)) hr with h | h
      · exact .inl h
      · exact .inr (.inr h)

/-- Below a clip no region has the pixel. -/
theorem cull_append (hp : f.fullRepaint → p ∈ f.displayRegion) (below ds : List (Phase2Data α)) (hc : p ∈ (f.cull ds).allclips) :
    ∃ below', (f.cull (below ++ ds)).phase2data = below' ++ (f.cull ds).phase2data ∧
      ∀ d ∈ below', p ∉ d.region := by
  induction below with
  | nil => exact ⟨[], rfl, by simp⟩
  | cons e below ih =>
    obtain ⟨below', he, hb⟩ := ih
    refine ⟨_ :: below', by rw [List.cons_append, cull_cons, cullWindow_phase2data, he]; rfl, ?_⟩
    intro d hd
    rcases List.mem_cons.mp hd with rfl | hd
    · rw [mem_culledRegion hp]
      rw [mem_allclips_cull] at hc ⊢
      obtain ⟨d, hd, hc⟩ := hc
      exact fun h => h.2 ⟨d, List.mem_append_right below hd, hc⟩
    · exact hb d hd

/-- The stack after culling, seen from the topmost clip with the pixel. -/
theorem cull_topmost (hp : f.fullRepaint → p ∈ f.displayRegion) {below above : List α} {a : α}
    (he : f.enabled = below ++ a :: above) (ha : (f.prePaintWindow a).culls p)
    (hc : ∀ b ∈ above, ¬ (f.prePaintWindow b).culls p) :
    ∃ below' d above', (f.cull (f.enabled.map f.prePaintWindow)).phase2data = below' ++ d :: above' ∧
      (d :: above').map (·.window) = a :: above ∧ (∀ e ∈ below', p ∉ e.region) ∧
      (p ∈ d.region ↔ f.fullRepaint ∨ f.Asked (a :: above) p) ∧
      ∀ e ∈ above', p ∈ e.region → f.fullRepaint ∨ f.Asked (a :: above) p := by
  have hd : ∀ d ∈ above.map f.prePaintWindow, ¬ d.culls p := by simpa using hc
  have hn : p ∉ (f.cull (above.map f.prePaintWindow)).allclips := by
    rw [mem_allclips_cull]
    exact fun ⟨d, hm, h⟩ => hd d hm h
  have hm : p ∈ (f.cull (f.prePaintWindow a :: above.map f.prePaintWindow)).allclips := by
    rw [mem_allclips_cull]
    exact ⟨_, List.mem_cons_self, ha⟩
  have hasked : p ∈ f.culledRegion (f.prePaintWindow a) (f.cull (above.map f.prePaintWindow)) ↔
      f.fullRepaint ∨ f.Asked (a :: above) p := by
    rw [mem_culledRegion hp, and_iff_left hn, or_left_comm, mem_upper_cull hp _ hd]
    simp only [Asked, prePaintWindow, Finset.mem_union, List.mem_map, List.mem_cons]
    grind
  obtain ⟨below', hb, hbelow⟩ := cull_append hp (below.map f.prePaintWindow) _ hm
  refine ⟨below', ⟨a, f.culledRegion (f.prePaintWindow a) (f.cull (above.map f.prePaintWindow)),
    (f.prePaintWindow a).clip, (f.prePaintWindow a).mask⟩, (f.cull (above.map f.prePaintWindow)).phase2data,
    ?_, ?_, hbelow, hasked, fun e hm hr => ?_⟩
  · rw [he, List.map_append, List.map_cons, hb, cull_cons, cullWindow_phase2data]
    rfl
  · rw [List.map_cons, cull_windows]
    simp [prePaintWindow, Function.comp_def]
  · rw [← hasked, mem_culledRegion hp, and_iff_left hn, or_left_comm]
    exact .inr (mem_region_cull hp _ hd hm hr)

end culling

section painting
variable {t : Painting C}

theorem screen_of_painted (hp : p ∈ f.displayRegion) (ds : List (Phase2Data α)) (ha : p ∈ t.paintedArea) :
    (ds.foldl (f.paintPhase2 x) t).screen p = paintOver x (ds.map (·.window)) p (t.screen p) := by
  induction ds generalizing t with
  | nil => rfl
  | cons d ds ih =>
    rw [List.foldl_cons, ih (by simp [paintPhase2, ha])]
    simp [paintPhase2, paintWindow, paintOver, hp, ha]

theorem screen_of_unpainted (ds : List (Phase2Data α)) (ha : p ∉ t.paintedArea) (hd : ∀ d ∈ ds, p ∉ d.region) :
    (ds.foldl (f.paintPhase2 x) t).screen p = t.screen p ∧
      p ∉ (ds.foldl (f.paintPhase2 x) t).paintedArea := by
  induction ds generalizing t with
  | nil => exact ⟨rfl, ha⟩
  | cons d ds ih =>
    have h := hd d List.mem_cons_self
    rw [List.foldl_cons]
    have hi := ih (t := f.paintPhase2 x t d) (by simp [paintPhase2, ha, h]) fun e he =>
      hd e (List.mem_cons_of_mem d he)
    refine ⟨hi.1.trans ?_, hi.2⟩
    simp [paintPhase2, paintWindow, ha, h]

end painting

section pixel
variable {buffer : Pixel → C} {painted : Region}

theorem paintSimpleScreen_screen :
    (f.paintSimpleScreen x buffer painted).screen = (f.paintAll x buffer).screen := by
  unfold paintSimpleScreen
  split <;> rfl

/-- No clip has the pixel: it is painted from the background on, if it is asked for. -/
theorem screen_of_unculled (hb : f.backgroundFirst = false) (hp : p ∈ f.displayRegion)
    (hc : ∀ a ∈ f.enabled, ¬ (f.prePaintWindow a).culls p) :
    (f.fullRepaint ∨ f.Asked f.enabled p → (f.paintSimpleScreen x buffer painted).screen p =
        paintOver x f.enabled p (x.background p)) ∧
      (¬ (f.fullRepaint ∨ f.Asked f.enabled p) → (f.paintSimpleScreen x buffer painted).screen p = buffer p) := by
  have hfull : f.fullRepaint → p ∈ f.displayRegion := fun _ => hp
  have hd : ∀ d ∈ f.enabled.map f.prePaintWindow, ¬ d.culls p := by simpa using hc
  have hn : p ∉ (f.cull (f.enabled.map f.prePaintWindow)).allclips := by
    rw [mem_allclips_cull]
    exact fun ⟨d, hm, h⟩ => hd d hm h
  rw [paintSimpleScreen_screen, paintAll, collect_phase2data, hb, ← mem_dirtyArea hfull]
  refine ⟨fun h => ?_, fun h => ?_⟩
  · rw [screen_of_painted hp _ (by simp [h, hn]), cull_windows]
    simp [paintBackground, h, hn, Function.comp_def, prePaintWindow]
  · refine (screen_of_unpainted _ (by simp [h]) fun d hm hr => ?_).1.trans (by simp [paintBackground, h])
    rw [mem_dirtyArea hfull] at h
    -- a region with the pixel would come from a damage that the dirty area has
    rcases (mem_upper_cull hfull _ hd).mp (mem_region_cull hfull _ hd hm hr) with hf | hf | ⟨d, hm, hr⟩
    · exact h (.inl hf)
    · exact h (.inr (.inr (.inl hf)))
    · obtain ⟨a, ha, rfl⟩ := List.mem_map.mp hm
      rcases Finset.mem_union.mp hr with hr | hr
      · exact h (.inr (.inl hr))
      · exact h (.inr (.inr (.inr ⟨a, ha, hr⟩)))

/-- The windows from the topmost clip with the pixel on are painted over what the buffer holds, if the
pixel is asked for by one of them. -/
theorem screen_of_culled (hp : p ∈ f.displayRegion) {below above : List α} {a : α}
    (he : f.enabled = below ++ a :: above) (ha : (f.prePaintWindow a).culls p)
    (hc : ∀ b ∈ above, ¬ (f.prePaintWindow b).culls p) :
    (f.fullRepaint ∨ f.Asked (a :: above) p → (f.paintSimpleScreen x buffer painted).screen p =
        paintOver x (a :: above) p (buffer p)) ∧
      (¬ (f.fullRepaint ∨ f.Asked (a :: above) p) →
        (f.paintSimpleScreen x buffer painted).screen p = buffer p) := by
  have hall : p ∈ (f.cull (f.enabled.map f.prePaintWindow)).allclips := by
    rw [mem_allclips_cull]
    exact ⟨_, List.mem_map_of_mem (by simp [he]), ha⟩
  obtain ⟨below', d, above', hs, hw, hbelow, hd, habove⟩ := cull_topmost (fun _ => hp) he ha hc
  rw [paintSimpleScreen_screen, paintAll, collect_phase2data]
  set area := if f.backgroundFirst then ∅ else f.dirtyArea \ (f.cull (f.enabled.map f.prePaintWindow)).allclips
  have harea : p ∉ area := by
    unfold area
    split <;> simp [hall]
  have hbuffer : paintBackground x area buffer p = buffer p := by simp [paintBackground, harea]
  rw [hs, List.foldl_append]
  have hskip := screen_of_unpainted (f := f) (x := x) (t := ⟨paintBackground x area buffer, area⟩) below'
    harea hbelow
  refine ⟨fun h => ?_, fun h => ?_⟩
  · rw [List.foldl_cons, screen_of_painted hp _ (by simp [paintPhase2, hd.mpr h]), ← hw]
    simp [paintPhase2, paintWindow, paintOver, hp, hd.mpr h, hskip.1, hbuffer]
  · have hnone : ∀ e ∈ d :: above', p ∉ e.region := by
      intro e hm hr
      rcases List.mem_cons.mp hm with rfl | hm
      · exact h (hd.mp hr)
      · exact h (habove e hm hr)
    exact (screen_of_unpainted (d :: above') hskip.2 hnone).1.trans (hskip.1.trans hbuffer)

end pixel

end Frame

end KWinFT.Scene
