import KWinFT.Scene.Invisible

/-! When culling spares the pixels under opaque windows. The clip of the decoration takes the place of that of the content, so
that the windows with a control and no alpha, decorated or not, cover nothing with their content. -/
namespace KWinFT.Scene
variable {α : Type*} {p : Pixel}

namespace Window
variable (w : Window)

/-- An opaque window has its content here, or a decoration without alpha. -/
def SolidAt (p : Pixel) : Prop :=
  w.isOpaque ∧ (p ∈ w.contentOnScreen ∨
    w.control.isSome ∧ ¬ w.decorationHasAlpha ∧ p ∈ Region.translated w.decorationShape w.pos)

instance (p : Pixel) : Decidable (w.SolidAt p) := inferInstanceAs (Decidable (_ ∧ _))

end Window

instance (d : Phase2Data α) (p : Pixel) : Decidable (d.culls p) := inferInstanceAs (Decidable (_ ∧ _))

namespace Frame
variable (f : Frame α)

/-- What is painted before the windows. -/
def backgroundArea : Region :=
  if f.backgroundFirst then ∅ else f.dirtyArea \ (f.cull f.collect.phase2data).allclips

/-- Under a window is neither a lower window nor the background assigned the pixel. -/
def Spares (below : List α) (p : Pixel) : Prop :=
  (∀ d ∈ (f.cull f.collect.phase2data).phase2data.take below.length, p ∉ d.region) ∧ p ∉ f.backgroundArea

/-- Nothing is painted under what is solid. -/
def CullingEffective : Prop :=
  ∀ below a above, f.enabled = below ++ a :: above → ∀ p, (f.window a).SolidAt p → f.Spares below p

/-- The windows from the topmost clip with the pixel on, or all. -/
def fromClip (p : Pixel) : List α → List α
  | [] => []
  | a :: above => if ∃ b ∈ above, (f.prePaintWindow b).culls p then fromClip p above else a :: above

/-- The pixel is painted by windows from the lowest of these on. -/
def Wanted (windows : List α) (p : Pixel) : Prop :=
  f.DrawsAll ∧ p ∈ f.displayRegion ∨ ¬ f.DrawsAll ∧ f.Asked windows p

/-- Where a window is solid its clip or a higher one has the pixel, or there is nothing below, or nothing wants the pixel
from the next clip below on. -/
def ClipsSolid : Prop :=
  ∀ below a above, f.enabled = below ++ a :: above → ∀ p, (f.window a).SolidAt p →
    (∃ b ∈ a :: above, (f.prePaintWindow b).culls p) ∨ (below = [] ∧ f.backgroundFirst) ∨
      ¬ f.Wanted (f.fromClip p below ++ a :: above) p

variable {f}

theorem fromClip_of_unculled {windows : List α} (h : ∀ a ∈ windows, ¬ (f.prePaintWindow a).culls p) :
    f.fromClip p windows = windows := by
  cases windows with
  | nil => rfl
  | cons a above =>
    refine if_neg ?_
    rintro ⟨b, hb, hculls⟩
    exact h b (List.mem_cons_of_mem a hb) hculls

/-- The regions of the lowest windows, one after the other. -/
private theorem take_cull_cons (d : Phase2Data α) (below rest : List (Phase2Data α)) :
    (f.cull (d :: below ++ rest)).phase2data.take (below.length + 1) =
      { d with region := f.culledRegion d (f.cull (below ++ rest)) } ::
        (f.cull (below ++ rest)).phase2data.take below.length := by
  rw [List.cons_append, cull_cons, cullWindow_phase2data, List.take_succ_cons]

private theorem mem_region_of_unculled (hp : f.fullRepaint → p ∈ f.displayRegion) {b : α} {windows : List α}
    (hclip : ∀ a ∈ windows, ¬ (f.prePaintWindow a).culls p) :
    p ∈ f.culledRegion (f.prePaintWindow b) (f.cull (windows.map f.prePaintWindow)) ↔
      f.fullRepaint ∨ f.Asked (b :: windows) p := by
  have hclip' : ∀ d ∈ windows.map f.prePaintWindow, ¬ d.culls p := by
    simpa only [List.forall_mem_map] using hclip
  have hall : p ∉ (f.cull (windows.map f.prePaintWindow)).allclips := by
    rw [mem_allclips_cull]
    exact fun ⟨d, hd, hculls⟩ => hclip' d hd hculls
  rw [mem_culledRegion hp, and_iff_left hall, or_left_comm, mem_upper_cull hp _ hclip']
  simp only [Asked, prePaintWindow, Finset.mem_union, List.mem_map, List.mem_cons]
  grind

private theorem notMem_region_of_culled {b : α} {windows : List α}
    (hclip : ∃ a ∈ windows, (f.prePaintWindow a).culls p) :
    p ∉ f.culledRegion (f.prePaintWindow b) (f.cull (windows.map f.prePaintWindow)) := by
  obtain ⟨a, ha, hculls⟩ := hclip
  unfold culledRegion
  rw [Finset.mem_sdiff, not_and_not_right]
  exact fun _ => mem_allclips_cull _ |>.mpr ⟨_, List.mem_map_of_mem ha, hculls⟩

/-- A lower window is assigned the pixel if and only if those from the next clip on ask for it. -/
private theorem exists_assigned_iff (hp : f.fullRepaint → p ∈ f.displayRegion) {below rest : List α}
    (hrest : ∀ a ∈ rest, ¬ (f.prePaintWindow a).culls p) :
    (∃ d ∈ (f.cull ((below ++ rest).map f.prePaintWindow)).phase2data.take below.length, p ∈ d.region) ↔
      below ≠ [] ∧ (f.fullRepaint ∨ f.Asked (f.fromClip p below ++ rest) p) := by
  induction below with
  | nil => simp
  | cons b below ih =>
    have htake := take_cull_cons (f := f) (f.prePaintWindow b) (below.map f.prePaintWindow) (rest.map f.prePaintWindow)
    rw [← List.map_append, List.length_map, ← List.map_cons, ← List.map_append] at htake
    rw [List.length_cons, htake, List.exists_mem_cons_iff, ih]
    dsimp only
    by_cases hclip : ∃ a ∈ below, (f.prePaintWindow a).culls p
    · have hfrom : f.fromClip p (b :: below) = f.fromClip p below := if_pos hclip
      have hculled : ∃ a ∈ below ++ rest, (f.prePaintWindow a).culls p := by
        obtain ⟨a, ha, hculls⟩ := hclip
        exact ⟨a, List.mem_append_left rest ha, hculls⟩
      have hbelow : below ≠ [] := by
        rintro rfl
        simp at hclip
      rw [hfrom, or_iff_right (notMem_region_of_culled hculled), and_iff_right hbelow,
        and_iff_right (List.cons_ne_nil _ _)]
    · have hfrom : f.fromClip p (b :: below) = b :: below := if_neg hclip
      have hunculled : ∀ a ∈ below ++ rest, ¬ (f.prePaintWindow a).culls p := by
        intro a ha hculls
        obtain ha | ha := List.mem_append.mp ha
        · exact hclip ⟨a, ha, hculls⟩
        · exact hrest a ha hculls
      have hbelow : f.fromClip p below = below :=
        fromClip_of_unculled fun a ha hculls => hclip ⟨a, ha, hculls⟩
      rw [hfrom, hbelow, mem_region_of_unculled hp hunculled, and_iff_right (List.cons_ne_nil _ _)]
      refine or_iff_left_of_imp fun h => h.2.imp_right fun hasked => ?_
      exact hasked.imp_right (Or.imp_right fun ⟨a, ha, hrepaint⟩ => ⟨a, List.mem_cons_of_mem b ha, hrepaint⟩)

/-- The background is painted if and only if no clip has the pixel and it is asked for. -/
private theorem mem_backgroundArea (hp : f.fullRepaint → p ∈ f.displayRegion) :
    p ∈ f.backgroundArea ↔ f.backgroundFirst = false ∧ (f.fullRepaint ∨ f.Asked f.enabled p) ∧
      ∀ a ∈ f.enabled, ¬ (f.prePaintWindow a).culls p := by
  unfold backgroundArea
  cases f.backgroundFirst with
  | true => simp
  | false =>
    rw [if_neg Bool.false_ne_true, Finset.mem_sdiff, mem_dirtyArea hp, collect_phase2data, mem_allclips_cull]
    simp only [true_and, List.mem_map, exists_exists_and_eq_and, not_exists, not_and]

private theorem notMem_assigned {below rest : List α} (hclip : ∃ b ∈ rest, (f.prePaintWindow b).culls p) :
    ∀ d ∈ (f.cull ((below ++ rest).map f.prePaintWindow)).phase2data.take below.length, p ∉ d.region := by
  induction below with
  | nil => simp
  | cons b below ih =>
    have htake := take_cull_cons (f := f) (f.prePaintWindow b) (below.map f.prePaintWindow) (rest.map f.prePaintWindow)
    rw [← List.map_append, List.length_map, ← List.map_cons, ← List.map_append] at htake
    rw [List.length_cons, htake, List.forall_mem_cons]
    refine ⟨notMem_region_of_culled ?_, ih⟩
    obtain ⟨c, hc, hculls⟩ := hclip
    exact ⟨c, List.mem_append_right below hc, hculls⟩

/-- Where a clip from the window on has the pixel, nothing below is assigned it. -/
private theorem spares_of_culled {below above : List α} {a : α} (he : f.enabled = below ++ a :: above)
    (hclip : ∃ b ∈ a :: above, (f.prePaintWindow b).culls p) : f.Spares below p := by
  unfold Spares
  rw [collect_phase2data, he]
  refine ⟨notMem_assigned hclip, fun hbackground => ?_⟩
  obtain ⟨b, hb, hculls⟩ := hclip
  have hall : p ∈ (f.cull f.collect.phase2data).allclips := by
    rw [collect_phase2data, mem_allclips_cull, he]
    exact ⟨_, List.mem_map_of_mem (List.mem_append_right below hb), hculls⟩
  unfold backgroundArea at hbackground
  split at hbackground
  · exact absurd hbackground (Finset.notMem_empty p)
  · exact (Finset.mem_sdiff.mp hbackground).2 hall

/-- A full repaint goes no further than the display. -/
private theorem spares_of_beside {below : List α} (hfull : f.fullRepaint) (hp : p ∉ f.displayRegion) :
    f.Spares below p := by
  have hregion : ∀ ds : List (Phase2Data α), ∀ d ∈ (f.cull ds).phase2data, p ∉ d.region := by
    intro ds
    induction ds with
    | nil => exact fun d hd => absurd hd List.not_mem_nil
    | cons d ds ih =>
      rw [cull_cons, cullWindow_phase2data, List.forall_mem_cons]
      refine ⟨fun h => ?_, ih⟩
      unfold culledRegion at h
      rw [if_pos hfull] at h
      exact hp (Finset.mem_sdiff.mp h).1
  refine ⟨fun d hd => hregion _ d (List.mem_of_mem_take hd), fun hbackground => ?_⟩
  unfold backgroundArea at hbackground
  split at hbackground
  · exact absurd hbackground (Finset.notMem_empty p)
  · have hdirty := (Finset.mem_sdiff.mp hbackground).1
    rw [of_decide_eq_true hfull] at hdirty
    exact hp hdirty

private theorem spares_iff_of_unculled (hp : f.fullRepaint → p ∈ f.displayRegion) {below above : List α} {a : α}
    (he : f.enabled = below ++ a :: above) (hclip : ¬ ∃ b ∈ a :: above, (f.prePaintWindow b).culls p) :
    f.Spares below p ↔ (below = [] ∧ f.backgroundFirst) ∨
      ¬ (f.fullRepaint ∨ f.Asked (f.fromClip p below ++ a :: above) p) := by
  have hclip' : ∀ b ∈ a :: above, ¬ (f.prePaintWindow b).culls p := fun b hb hculls => hclip ⟨b, hb, hculls⟩
  have hassigned : (∃ d ∈ (f.cull f.collect.phase2data).phase2data.take below.length, p ∈ d.region) ↔
      below ≠ [] ∧ (f.fullRepaint ∨ f.Asked (f.fromClip p below ++ a :: above) p) := by
    rw [collect_phase2data, he]
    exact exists_assigned_iff hp hclip'
  have hbackground := mem_backgroundArea hp
  have hspares : f.Spares below p ↔ ¬ (below ≠ [] ∧ (f.fullRepaint ∨ f.Asked (f.fromClip p below ++ a :: above) p)) ∧
      p ∉ f.backgroundArea := by
    unfold Spares
    rw [← hassigned]
    simp only [not_exists, not_and]
  rw [hspares, hbackground]
  constructor
  · rintro ⟨hwindows, hback⟩
    by_cases hbelow : below = []
    · subst hbelow
      cases hfirst : f.backgroundFirst with
      | true => exact .inl ⟨rfl, rfl⟩
      | false =>
        refine .inr fun hasked => hback ⟨hfirst, ?_, ?_⟩
        · rw [he]
          exact hasked
        · rw [he]
          exact hclip'
    · exact .inr fun hasked => hwindows ⟨hbelow, hasked⟩
  · rintro (⟨hbelow, hfirst⟩ | hasked)
    · exact ⟨fun h => h.1 hbelow, fun h => Bool.false_ne_true (h.1.symm.trans hfirst)⟩
    · refine ⟨fun h => hasked h.2, fun ⟨_, hall, hunculled⟩ => hasked ?_⟩
      have hfrom : f.fromClip p below = below :=
        fromClip_of_unculled fun b hb => hunculled b (he ▸ List.mem_append_left _ hb)
      rw [hfrom, ← he]
      exact hall

/-- Culling spares all that is solid if and only if that is in a clip or is not wanted. -/
theorem cullingEffective_iff : f.CullingEffective ↔ f.ClipsSolid := by
  refine forall_congr' fun below => forall_congr' fun a => forall_congr' fun above => forall_congr' fun he =>
    forall_congr' fun p => forall_congr' fun _ => ?_
  by_cases hclip : ∃ b ∈ a :: above, (f.prePaintWindow b).culls p
  · exact iff_of_true (spares_of_culled he hclip) (.inl hclip)
  · rw [or_iff_right hclip]
    unfold Wanted
    by_cases hfull : f.fullRepaint
    · have hall : f.DrawsAll := fullRepaint_iff.mp hfull
      by_cases hp : p ∈ f.displayRegion
      · rw [spares_iff_of_unculled (fun _ => hp) he hclip]
        simp only [hfull, hall, hp, true_or, true_and]
      · refine iff_of_true (spares_of_beside hfull hp) (.inr ?_)
        rintro (h | h)
        · exact hp h.2
        · exact h.1 hall
    · have hall : ¬ f.DrawsAll := fun h => hfull (fullRepaint_iff.mpr h)
      rw [spares_iff_of_unculled (fun h => absurd h hfull) he hclip]
      simp only [hfull, hall, false_or, false_and, not_false_eq_true, true_and, Bool.false_eq_true]

/-- An opaque window all over a screen of one pixel, with a control and without a decoration. -/
def undecorated : Frame Unit where
  screenSize := ⟨1, 1⟩
  region := {(0, 0)}
  repaintRegion := ∅
  backgroundFirst := false
  stackingOrder := [()]
  window _ :=
    { frameGeometry := ⟨0, 0, 0, 0⟩, clientFrameExtents := ⟨0, 0, 0, 0⟩, remnantFrameMargins := none,
      hasInContentDeco := false, renderRegion := {(0, 0)}, hasAlpha := false, opacity := 1,
      opaqueRegion := ∅, control := some ⟨false, false, none⟩, repaintsRegion := ∅, layerRepaintsRegion := ∅,
      deleted := false, onCurrentDesktop := true, onCurrentActivity := true, hiddenInternal := false }
  wantsFullRepaint _ _ := false

/-- The background is painted under it. -/
theorem undecorated_uneffective : ¬ undecorated.CullingEffective := fun h =>
  (h [] () [] (by decide) (0, 0) (by decide)).2 (by decide)

end Frame
end KWinFT.Scene
