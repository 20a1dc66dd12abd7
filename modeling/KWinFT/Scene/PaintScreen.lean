import KWinFT.Scene.Invisible

/-! The pass over the screen, with the two regions that it reports to the backend: the one it has damaged and the one
it has rendered. -/
namespace KWinFT.Scene
open Lib
variable {α C : Type*} {p : Pixel}

namespace Frame

section passes
variable (f : Frame α)

/-- All windows are painted completely from bottom to top, as far as the screen goes. -/
def paintGenericScreen (x : Contents α C) (buffer : Pixel → C) : Pixel → C :=
  f.enabled.foldl (fun screen a => f.paintWindow x a f.displayRegion screen) (paintBackground x f.displayRegion buffer)

/-- The screen, `updateRegion` and `validRegion` after the pass. -/
structure Rendered (C : Type*) where
  screen : Pixel → C
  updateRegion : Region
  validRegion : Region

/-- The damage does not go outside the visible screen; damage of all of it is the screen itself. -/
def onScreen : Frame α := { f with region := f.region ∩ f.displayRegion }

/-- With transformations by an effect the region does not count. -/
def paintScreen (transformed : Bool) (x : Contents α C) (buffer : Pixel → C) : Rendered C :=
  if transformed then ⟨f.paintGenericScreen x buffer, f.displayRegion, f.displayRegion⟩
  else
    let result := f.onScreen.paintSimpleScreen x buffer f.onScreen.region
    ⟨result.screen, result.damagedRegion, (f.onScreen.region ∪ result.paintedRegion) ∩ f.displayRegion⟩

end passes

/-- The damage and the repaints of the enabled windows. -/
def Damaged (f : Frame α) (p : Pixel) : Prop := p ∈ f.region ∨ ∃ a ∈ f.enabled, p ∈ (f.window a).repaints

/-- Damage that is not occluded: no clip above the window that wants a repaint has the pixel. -/
def VisiblyDamaged (f : Frame α) (p : Pixel) : Prop :=
  p ∈ f.region ∨ ∃ below a above, f.enabled = below ++ a :: above ∧ p ∈ (f.window a).repaints ∧
    ∀ b ∈ above, ¬ (f.prePaintWindow b).culls p

variable {f : Frame α} {x : Contents α C} {buffer : Pixel → C}

theorem VisiblyDamaged.damaged (h : f.VisiblyDamaged p) : f.Damaged p := by
  rcases h with h | ⟨below, a, above, he, ha, -⟩
  · exact .inl h
  · exact .inr ⟨a, by simp [he], ha⟩

theorem paintGenericScreen_eq (hp : p ∈ f.displayRegion) : f.paintGenericScreen x buffer p = f.picture x p := by
  have hfold : ∀ (windows : List α) (screen : Pixel → C),
      windows.foldl (fun screen a => f.paintWindow x a f.displayRegion screen) screen p =
        paintOver x windows p (screen p) := by
    intro windows
    induction windows with
    | nil => exact fun _ => rfl
    | cons a windows ih =>
      intro screen
      rw [List.foldl_cons, ih]
      simp [paintWindow, paintOver, hp]
  rw [paintGenericScreen, hfold, picture]
  simp [paintBackground, hp]

section area

private theorem mem_area_foldl {t : Painting C} (ds : List (Phase2Data α)) :
    p ∈ (ds.foldl (f.paintPhase2 x) t).paintedArea ↔ p ∈ t.paintedArea ∨ ∃ d ∈ ds, p ∈ d.region := by
  induction ds generalizing t with
  | nil => simp
  | cons d ds ih =>
    rw [List.foldl_cons, ih]
    simp [paintPhase2, or_assoc]

private theorem visible_iff_asked_enabled (hc : ∀ a ∈ f.enabled, ¬ (f.prePaintWindow a).culls p) :
    p ∈ f.repaintRegion ∨ f.VisiblyDamaged p ↔ f.Asked f.enabled p := by
  constructor
  · rintro (h | h | ⟨below, a, above, he, ha, -⟩)
    · exact .inr (.inl h)
    · exact .inl h
    · exact .inr (.inr ⟨a, by simp [he], ha⟩)
  · rintro (h | h | ⟨a, ha, hr⟩)
    · exact .inr (.inl h)
    · exact .inl h
    · obtain ⟨below, above, he⟩ := List.append_of_mem ha
      refine .inr (.inr ⟨below, a, above, he, hr, fun b hb => hc b ?_⟩)
      simp [he, hb]

/-- Only damage from the topmost clip on is visible. -/
private theorem visible_iff_asked_above {below above : List α} {a : α} (he : f.enabled = below ++ a :: above)
    (ha : (f.prePaintWindow a).culls p) (hc : ∀ b ∈ above, ¬ (f.prePaintWindow b).culls p) :
    p ∈ f.repaintRegion ∨ f.VisiblyDamaged p ↔ f.Asked (a :: above) p := by
  constructor
  · rintro (h | h | ⟨below', b, above', he', hb, hnone⟩)
    · exact .inr (.inl h)
    · exact .inl h
    · refine .inr (.inr ⟨b, ?_, hb⟩)
      rw [he] at he'
      rcases List.append_eq_append_iff.mp he' with ⟨l, rfl, hl⟩ | ⟨l, rfl, hl⟩
      · rw [hl]
        simp
      · -- The clip would be above a window that is further down.
        cases l with
        | nil =>
          rw [List.nil_append] at hl
          simp [← hl]
        | cons c l =>
          rw [List.cons_append] at hl
          obtain ⟨rfl, rfl⟩ := List.cons.inj hl
          exact absurd ha (hnone a (by simp))
  · rintro (h | h | ⟨b, hb, hr⟩)
    · exact .inr (.inl h)
    · exact .inl h
    · obtain ⟨l, r, hl⟩ := List.append_of_mem hb
      refine .inr (.inr ⟨below ++ l, b, r, by rw [he, hl, List.append_assoc], hr, fun c hc' => hc c ?_⟩)
      cases l with
      | nil =>
        obtain ⟨rfl, rfl⟩ := List.cons.inj hl
        exact hc'
      | cons d l =>
        obtain ⟨rfl, rfl⟩ := List.cons.inj hl
        simp [hc']

/-- What is painted: all, or what is out of date or visibly damaged. -/
theorem mem_paintedArea (hb : f.backgroundFirst = false) (hp : f.fullRepaint → p ∈ f.displayRegion) :
    p ∈ (f.paintAll x buffer).paintedArea ↔ f.fullRepaint ∨ p ∈ f.repaintRegion ∨ f.VisiblyDamaged p := by
  rw [paintAll, collect_phase2data, hb]
  simp only [Bool.false_eq_true, if_false]
  rw [mem_area_foldl, Finset.mem_sdiff, mem_dirtyArea hp, mem_allclips_cull]
  rcases exists_last (fun a => (f.prePaintWindow a).culls p) f.enabled with hn | ⟨below, a, above, he, ha, hn⟩
  · rw [visible_iff_asked_enabled hn]
    have hd : ∀ d ∈ f.enabled.map f.prePaintWindow, ¬ d.culls p := by simpa using hn
    constructor
    · rintro (h | ⟨d, hd', hr⟩)
      · exact h.1
      · rcases (mem_upper_cull hp _ hd).mp (mem_region_cull hp _ hd hd' hr) with hf | hf | ⟨d, hm, hr⟩
        · exact .inl hf
        · exact .inr (.inr (.inl hf))
        · obtain ⟨a, ha, rfl⟩ := List.mem_map.mp hm
          rcases Finset.mem_union.mp hr with hr | hr
          · exact .inr (.inl hr)
          · exact .inr (.inr (.inr ⟨a, ha, hr⟩))
    · refine fun h => .inl ⟨h, ?_⟩
      rintro ⟨d, hd', hc⟩
      exact hd d hd' hc
  · rw [visible_iff_asked_above he ha hn]
    obtain ⟨below', d, above', hs, -, hbelow, hd, habove⟩ := cull_topmost hp he ha hn
    rw [hs]
    constructor
    · rintro (h | ⟨e, hm, hr⟩)
      · exact absurd ⟨_, List.mem_map_of_mem (by simp [he]), ha⟩ h.2
      · rcases List.mem_append.mp hm with hm | hm
        · exact absurd hr (hbelow e hm)
        · rcases List.mem_cons.mp hm with rfl | hm
          · exact hd.mp hr
          · exact habove e hm hr
    · exact fun h => .inr ⟨d, by simp, hd.mpr h⟩

theorem screen_of_not_painted (h : p ∉ (f.paintAll x buffer).paintedArea) :
    (f.paintAll x buffer).screen p = buffer p := by
  unfold paintAll at h ⊢
  rw [mem_area_foldl, not_or] at h
  refine (screen_of_unpainted _ h.1 fun d hd hr => h.2 ⟨d, hd, hr⟩).1.trans ?_
  exact if_neg h.1

end area

section regions
variable {painted : Region}

theorem mem_paintedRegion (hb : f.backgroundFirst = false) (hp : f.fullRepaint → p ∈ f.displayRegion) :
    p ∈ (f.paintSimpleScreen x buffer painted).paintedRegion ↔
      (p ∈ painted ∧ ¬ f.fullRepaint) ∨ f.fullRepaint ∨ p ∈ f.repaintRegion ∨ f.VisiblyDamaged p := by
  unfold paintSimpleScreen
  by_cases hf : f.fullRepaint
  · simp [hf, hp hf]
  · simp [hf, mem_paintedArea hb hp]

/-- A pixel that was out of date counts as damaged only if it is damaged, too, be it occluded or not. -/
theorem mem_damagedRegion (hb : f.backgroundFirst = false) (hp : f.fullRepaint → p ∈ f.displayRegion) :
    p ∈ (f.paintSimpleScreen x buffer painted).damagedRegion ↔
      (f.fullRepaint ∨ p ∈ f.repaintRegion ∨ f.VisiblyDamaged p) ∧ (p ∈ f.repaintRegion → f.Damaged p) := by
  have hclip : p ∉ f.repaintRegion \ f.collect.dirtyArea ↔ (p ∈ f.repaintRegion → f.Damaged p) := by
    rw [Finset.mem_sdiff, mem_collect_dirtyArea, Damaged, not_and_not_right]
  have harea : p ∈ (f.paintAll x buffer).paintedArea ↔ _ := mem_paintedArea hb hp
  rw [← hclip, ← harea]
  unfold paintSimpleScreen
  by_cases hf : f.fullRepaint
  · simp [hf, hp hf, harea]
  · simp [hf]

end regions

section rendered
variable {t : Bool}

private theorem mem_valid_simple (hb : f.backgroundFirst = false) (hp : p ∈ f.displayRegion) :
    p ∈ (f.paintScreen false x buffer).validRegion ↔
      f.onScreen.fullRepaint ∨ p ∈ f.repaintRegion ∨ f.onScreen.VisiblyDamaged p := by
  have hregion : p ∈ f.onScreen.region → f.onScreen.VisiblyDamaged p := .inl
  have hpainted : p ∈ (f.onScreen.paintSimpleScreen x buffer f.onScreen.region).paintedRegion ↔ _ :=
    mem_paintedRegion (f := f.onScreen) hb fun _ => hp
  simp only [paintScreen, Bool.false_eq_true, if_false, Finset.mem_inter, Finset.mem_union, hpainted, hp, and_true]
  constructor
  · rintro (h | ⟨h, -⟩ | h)
    · exact .inr (.inr (hregion h))
    · exact .inr (.inr (hregion h))
    · exact h
  · exact fun h => .inr (.inr h)

theorem mem_valid_of_repaint (hb : f.backgroundFirst = false) (hp : p ∈ f.displayRegion) (hr : p ∈ f.repaintRegion) :
    p ∈ (f.paintScreen t x buffer).validRegion := by
  cases t with
  | true => exact hp
  | false => exact (mem_valid_simple hb hp).mpr (.inr (.inl hr))

/-- What is not rendered is as it was in the buffer. -/
theorem screen_of_not_valid (hb : f.backgroundFirst = false) (hp : p ∈ f.displayRegion)
    (hv : p ∉ (f.paintScreen t x buffer).validRegion) : (f.paintScreen t x buffer).screen p = buffer p := by
  cases t with
  | true => exact absurd hp hv
  | false =>
    rw [mem_valid_simple hb hp] at hv
    refine (congrFun paintSimpleScreen_screen p).trans (screen_of_not_painted ?_)
    exact mt (mem_paintedArea (f := f.onScreen) hb fun _ => hp).mp hv

theorem mem_update_of_visible (hb : f.backgroundFirst = false) (hp : p ∈ f.displayRegion)
    (hd : t ∨ f.onScreen.VisiblyDamaged p) : p ∈ (f.paintScreen t x buffer).updateRegion := by
  cases t with
  | true => exact hp
  | false =>
    have hd := hd.resolve_left Bool.false_ne_true
    exact (mem_damagedRegion (f := f.onScreen) hb fun _ => hp).mpr ⟨.inr (.inr hd), fun _ => hd.damaged⟩

private theorem mem_display_of_update (hp : p ∈ (f.paintScreen false x buffer).updateRegion)
    (hfull : f.onScreen.fullRepaint) : p ∈ f.displayRegion := by
  simp only [paintScreen, paintSimpleScreen, Bool.false_eq_true, if_false, hfull, if_true] at hp
  exact (Finset.mem_sdiff.mp hp).1

private theorem mem_update_simple (hb : f.backgroundFirst = false)
    (hp : p ∈ (f.paintScreen false x buffer).updateRegion) :
    (f.onScreen.fullRepaint ∨ p ∈ f.repaintRegion ∨ f.onScreen.VisiblyDamaged p) ∧
      (p ∈ f.repaintRegion → f.onScreen.Damaged p) :=
  (mem_damagedRegion (f := f.onScreen) hb (mem_display_of_update hp)).mp hp

theorem mem_valid_of_update (hb : f.backgroundFirst = false) (hp : p ∈ f.displayRegion)
    (hu : p ∈ (f.paintScreen t x buffer).updateRegion) : p ∈ (f.paintScreen t x buffer).validRegion := by
  cases t with
  | true => exact hp
  | false => exact (mem_valid_simple hb hp).mpr (mem_update_simple hb hu).1

/-- No occluded damage is out of date in the buffer. -/
def RepairsApart (f : Frame α) : Prop := ∀ p ∈ f.repaintRegion, f.onScreen.Damaged p → f.onScreen.VisiblyDamaged p

/-- Visible damage outside of the screen is not all that there is to render. -/
def RendersOnScreen (f : Frame α) : Prop :=
  (∃ p, f.onScreen.VisiblyDamaged p ∧ p ∉ f.displayRegion) →
    ∃ p ∈ f.displayRegion, p ∈ f.repaintRegion ∨ f.onScreen.VisiblyDamaged p

theorem visible_of_update (hb : f.backgroundFirst = false) (ha : f.RepairsApart)
    (hp : p ∈ (f.paintScreen false x buffer).updateRegion) (hr : p ∈ f.repaintRegion) : f.onScreen.VisiblyDamaged p :=
  ha p hr ((mem_update_simple hb hp).2 hr)

/-- A frame with something to post has something rendered on the screen. -/
theorem valid_nonempty (hb : f.backgroundFirst = false) (hcareful : ¬ t → f.RepairsApart ∧ f.RendersOnScreen)
    (hu : (f.paintScreen t x buffer).updateRegion ≠ ∅) : (f.paintScreen t x buffer).validRegion ≠ ∅ := by
  obtain ⟨p, hp⟩ := Finset.nonempty_iff_ne_empty.mpr hu
  cases t with
  | true => exact Finset.ne_empty_of_mem hp
  | false =>
    obtain ⟨hapart, hscreen⟩ := hcareful Bool.false_ne_true
    obtain ⟨hpainted, hdamaged⟩ := mem_update_simple hb hp
    by_cases hd : p ∈ f.displayRegion
    · exact Finset.ne_empty_of_mem ((mem_valid_simple hb hd).mpr hpainted)
    · have hvisible : f.onScreen.VisiblyDamaged p := by
        rcases hpainted with h | h | h
        · exact absurd (mem_display_of_update hp h) hd
        · exact hapart p h (hdamaged h)
        · exact h
      obtain ⟨q, hq, h⟩ := hscreen ⟨p, hvisible, hd⟩
      exact Finset.ne_empty_of_mem ((mem_valid_simple hb hq).mpr (.inr h))

end rendered


end Frame

end KWinFT.Scene
