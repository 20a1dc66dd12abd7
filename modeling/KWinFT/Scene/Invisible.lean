import KWinFT.Scene.Culling
import Mathlib.Logic.Nontrivial.Basic

/-! When culling shows. All clips are right but one: the opaque region of a window with alpha is placed
as if the window stood at the origin, and the clip is used when it then meets the content exactly. -/
namespace KWinFT.Scene
open Lib
variable {α C : Type*} {p : Pixel}

namespace Window
variable (w : Window)

def contentOnScreen : Region := Region.translated w.contentRenderRegion w.renderGeometry.topLeft

def opaqueOnScreen : Region := Region.translated w.opaqueRegion (w.frameToClientPos w.pos)

/-- Nothing below shines through: by `isOpaque`, by the region the client declared, or by a decoration
without alpha. -/
def OpaqueAt (p : Pixel) : Prop :=
  (w.isOpaque ∧ p ∈ w.contentOnScreen) ∨
  (w.opacity = 1 ∧ p ∈ w.contentOnScreen ∧ p ∈ w.opaqueOnScreen) ∨
  (w.opacity = 1 ∧ ¬ w.decorationHasAlpha ∧ p ∈ Region.translated w.decorationShape w.pos)

instance (p : Pixel) : Decidable (w.OpaqueAt p) := inferInstanceAs (Decidable (_ ∨ _ ∨ _))

/-- The content clip counts, has alpha, and the content is where the opaque region would be without the
position of the window. -/
def Misplaced : Prop :=
  w.hasAlpha ∧ w.opacity = 1 ∧ ¬ (w.control.isSome ∧ ¬ w.decorationHasAlpha) ∧ w.clientShape = w.opaqueShape

instance : Decidable w.Misplaced := inferInstanceAs (Decidable (_ ∧ _ ∧ _ ∧ _))

private theorem clientShape_eq : w.clientShape = w.contentOnScreen := by
  have hp : w.frameToRenderPos w.pos = w.renderGeometry.topLeft := by
    unfold frameToRenderPos renderGeometry frameToRenderRect pos
    split <;> rfl
  rw [clientShape, contentOnScreen, hp]

theorem bufferOffset_eq :
    Region.translated w.contentRenderRegion ⟨w.pos.x + w.bufferOffset.x, w.pos.y + w.bufferOffset.y⟩ =
      w.contentOnScreen := by
  have hp : (⟨w.pos.x + w.bufferOffset.x, w.pos.y + w.bufferOffset.y⟩ : Geometry.Point) =
      w.renderGeometry.topLeft := by
    simp [bufferOffset]
  rw [hp, contentOnScreen]

end Window

namespace Frame
variable {f : Frame α} {a : α} {x y : Contents α C} {buffer : Pixel → C} {painted : Region}

/-- A used clip is opaque, or misplaced. -/
theorem opaqueAt_or_misplaced (h : (f.prePaintWindow a).culls p) :
    (f.window a).OpaqueAt p ∨ (f.window a).Misplaced ∧ p ∈ (f.window a).contentOnScreen := by
  obtain ⟨hm, hc⟩ := h
  simp only [prePaintWindow] at hm hc
  generalize f.window a = w at hm hc ⊢
  unfold Window.clip at hc
  split at hc
  · next hd => exact .inl (.inr (.inr ⟨hd.2.2, hd.2.1, hc⟩))
  next hd =>
  unfold Window.contentClip at hm hc
  split at hc
  · next ho => exact .inl (.inl ⟨ho, w.bufferOffset_eq ▸ hc⟩)
  next ho =>
  rw [if_neg ho] at hm
  split at hc
  · next hw =>
    rw [if_pos hw] at hm
    have hs : w.clientShape = w.opaqueShape := by
      by_contra hs
      simp [hs] at hm
    rw [← hs, Finset.inter_self, w.clientShape_eq] at hc
    exact .inr ⟨⟨hw.1, hw.2, fun h => hd ⟨h.1, h.2, hw.2⟩, hs⟩, hc⟩
  · simp at hc

theorem culls_of_misplaced (h : (f.window a).Misplaced) (hp : p ∈ (f.window a).contentOnScreen) :
    (f.prePaintWindow a).culls p := by
  unfold Phase2Data.culls
  simp only [prePaintWindow]
  generalize f.window a = w at h hp ⊢
  obtain ⟨ha, ho, hd, hs⟩ := h
  have hn : ¬ w.isOpaque := by simp [Window.isOpaque, ha]
  have hd' : ¬ (w.control.isSome ∧ ¬ w.decorationHasAlpha ∧ w.opacity = 1) := fun h => hd ⟨h.1, h.2.1⟩
  rw [Window.clip, if_neg hd', Window.contentClip, if_neg hn, if_pos ⟨ha, ho⟩, if_pos hs]
  refine ⟨PaintMask.noConfusion, ?_⟩
  rwa [← hs, Finset.inter_self, w.clientShape_eq]

/-- The background and all enabled windows painted completely from bottom to top. -/
def picture (f : Frame α) (x : Contents α C) (p : Pixel) : C := paintOver x f.enabled p (x.background p)

/-- An opaque pixel overwrites. -/
def Respects (f : Frame α) (x : Contents α C) : Prop :=
  ∀ a p, (f.window a).OpaqueAt p → Overwrites (x.blend a p)

/-- The buffer holds the picture of the contents `y` before this frame, as far as it is up to date. They
differ from the contents `x` of this frame only in the damage and, for a window, in its repaints. -/
structure Holds (f : Frame α) (x y : Contents α C) (buffer : Pixel → C) : Prop where
  background : ∀ p, p ∉ f.region → y.background p = x.background p
  blend : ∀ a ∈ f.enabled, ∀ p, p ∉ f.region → p ∉ (f.window a).repaints → y.blend a p = x.blend a p
  buffer : ∀ p, p ∉ f.region → p ∉ f.repaintRegion → buffer p = f.picture y p

/-- The pass leaves the complete picture on the screen. -/
def CullingInvisible (C : Type*) (f : Frame α) : Prop :=
  ∀ (x y : Contents α C) (buffer : Pixel → C) (painted : Region), f.Respects x → f.Holds x y buffer →
    ∀ p ∈ f.displayRegion, (f.paintSimpleScreen x buffer painted).screen p = f.picture x p

/-- Damaged, out of date, or in a repaint with no opaque window above it. -/
def VisiblyDirty (f : Frame α) (p : Pixel) : Prop :=
  p ∈ f.region ∨ p ∈ f.repaintRegion ∨ ∃ below a above, f.enabled = below ++ a :: above ∧
    p ∈ (f.window a).repaints ∧ ∀ b ∈ above, ¬ (f.window b).OpaqueAt p

theorem picture_append {below above : List α} (he : f.enabled = below ++ above) :
    f.picture x p = paintOver x above p (paintOver x below p (x.background p)) := by
  rw [picture, he, paintOver, List.map_append, compose_append]
  rfl

/-- The windows from an opaque one on decide the colour. -/
theorem picture_of_covered {below above : List α} (he : f.enabled = below ++ above) (hx : f.Respects x)
    (ho : ∃ b ∈ above, (f.window b).OpaqueAt p) (c : C) : f.picture x p = paintOver x above p c := by
  obtain ⟨b, hb, ho⟩ := ho
  rw [picture_append he]
  exact compose_eq_of_overwrites _ ⟨x.blend b p, List.mem_map.mpr ⟨b, hb, rfl⟩, hx b p ho⟩

theorem paintOver_congr (h : f.Holds x y buffer) {windows : List α} (hw : ∀ b ∈ windows, b ∈ f.enabled)
    (hp : p ∉ f.region) (hn : ∀ b ∈ windows, p ∉ (f.window b).repaints) (c : C) :
    paintOver y windows p c = paintOver x windows p c := by
  unfold paintOver
  rw [List.map_congr_left fun b hb => h.blend b (hw b hb) p hp (hn b hb)]

/-- The earlier picture is still right above the last repaint, if something there is opaque. -/
theorem picture_earlier (h : f.Holds x y buffer) (hx : f.Respects x) {below above : List α}
    (he : f.enabled = below ++ above) (hp : p ∉ f.region) (hn : ∀ b ∈ above, p ∉ (f.window b).repaints)
    (ho : ∃ b ∈ above, (f.window b).OpaqueAt p) : f.picture y p = f.picture x p := by
  rw [picture_append he, paintOver_congr h (by simp +contextual [he]) hp hn, picture_of_covered he hx ho]

theorem buffer_of_clean (h : f.Holds x y buffer) (hx : f.Respects x) (hv : ¬ f.VisiblyDirty p) :
    buffer p = f.picture x p := by
  simp only [VisiblyDirty, not_or] at hv
  obtain ⟨hr, ho, hv⟩ := hv
  rw [h.buffer p hr ho]
  rcases exists_last (fun a => p ∈ (f.window a).repaints) f.enabled with hn | ⟨below, a, above, he, ha, hn⟩
  · rw [picture, picture, h.background p hr, paintOver_congr h (fun _ hb => hb) hr hn]
  · refine picture_earlier h hx (he.trans (List.append_cons below a above)) hr hn ?_
    by_contra hc
    exact hv ⟨below, a, above, he, ha, fun b hb hbo => hc ⟨b, hb, hbo⟩⟩

/-- No pixel that is drawn is culled by a misplaced clip alone. -/
def Sound (f : Frame α) : Prop :=
  ∀ p ∈ f.displayRegion, f.DrawsAll ∨ f.VisiblyDirty p → ∀ below a above, f.enabled = below ++ a :: above →
    (f.window a).Misplaced → p ∈ (f.window a).contentOnScreen → ∃ b ∈ a :: above, (f.window b).OpaqueAt p

theorem opaque_above_clip (hs : f.Sound) (hp : p ∈ f.displayRegion) (hd : f.DrawsAll ∨ f.VisiblyDirty p)
    {below above : List α} (he : f.enabled = below ++ a :: above) (ha : (f.prePaintWindow a).culls p) :
    ∃ b ∈ a :: above, (f.window b).OpaqueAt p := by
  rcases opaqueAt_or_misplaced ha with h | ⟨hm, hc⟩
  · exact ⟨a, List.mem_cons_self, h⟩
  · exact hs p hp hd below a above he hm hc

/-- What a window at or above the clip asks for is visible, or under an opaque window above the clip. -/
theorem visiblyDirty_of_asked {below above : List α} (he : f.enabled = below ++ above)
    (h : f.Asked above p) (hn : ∀ b ∈ above, ¬ (f.window b).OpaqueAt p) : f.VisiblyDirty p := by
  rcases h with h | h | ⟨a, ha, h⟩
  · exact .inl h
  · exact .inr (.inl h)
  · obtain ⟨l, r, rfl⟩ := List.append_of_mem ha
    refine .inr (.inr ⟨below ++ l, a, r, by rw [he, List.append_assoc], h, fun b hb => hn b ?_⟩)
    exact List.mem_append_right l (List.mem_cons_of_mem a hb)

theorem invisible_of_sound (hb : f.backgroundFirst = false) (hs : f.Sound) : f.CullingInvisible C := by
  intro x y buffer painted hx hy p hp
  rcases exists_last (fun a => (f.prePaintWindow a).culls p) f.enabled with hn | ⟨below, a, above, he, ha, hn⟩
  · by_cases hd : f.fullRepaint ∨ f.Asked f.enabled p
    · exact (screen_of_unculled hb hp hn).1 hd
    · rw [(screen_of_unculled hb hp hn).2 hd]
      refine buffer_of_clean hy hx fun hv => hd (.inr ?_)
      rcases hv with h | h | ⟨below, a, above, he, ha, -⟩
      · exact .inl h
      · exact .inr (.inl h)
      · exact .inr (.inr ⟨a, by simp [he], ha⟩)
  · by_cases hd : f.fullRepaint ∨ f.Asked (a :: above) p
    · rw [(screen_of_culled hp he ha hn).1 hd]
      refine (picture_of_covered he hx ?_ _).symm
      by_contra hno
      have hno : ∀ b ∈ a :: above, ¬ (f.window b).OpaqueAt p := fun b hb ho => hno ⟨b, hb, ho⟩
      obtain ⟨b, hb, ho⟩ := opaque_above_clip hs hp (hd.imp fullRepaint_iff.mp (visiblyDirty_of_asked he · hno)) he ha
      exact hno b hb ho
    · rw [(screen_of_culled hp he ha hn).2 hd]
      by_cases hv : f.VisiblyDirty p
      · -- only windows below the clip have a repaint here, and what covers them is opaque
        simp only [Asked, not_or, not_exists, not_and] at hd
        rw [hy.buffer p hd.2.1 hd.2.2.1]
        exact picture_earlier hy hx he hd.2.1 hd.2.2.2 (opaque_above_clip hs hp (.inr hv) he ha)
      · exact buffer_of_clean hy hx hv

open Classical in
/-- Background and opaque pixels of one colour, all other pixels of windows without any. -/
private noncomputable def plain (f : Frame α) (c : C) : Contents α C where
  background _ := c
  blend a p d := if (f.window a).OpaqueAt p then c else d

private theorem respects_plain (c : C) : f.Respects (f.plain c) := by
  intro a p h
  simp only [plain, h, if_true]
  exact overwrites_const c

private theorem picture_plain (c : C) : f.picture (f.plain c) p = c := by
  refine compose_fixed _ fun g hg => ?_
  obtain ⟨a, -, rfl⟩ := List.mem_map.mp hg
  exact ite_self c

private theorem paintOver_plain (c d : C) {windows : List α}
    (h : ∀ b ∈ windows, ¬ (f.window b).OpaqueAt p) : paintOver (f.plain c) windows p d = d := by
  refine compose_fixed _ fun g hg => ?_
  obtain ⟨a, ha, rfl⟩ := List.mem_map.mp hg
  exact if_neg (h a ha)

open Classical in
/-- What is visibly dirty may show any other colour before. -/
private theorem dirty_shows (hv : f.VisiblyDirty p) (c d : C) :
    ∃ y buffer, f.Holds (f.plain c) y buffer ∧ buffer p = d := by
  by_cases ho : p ∈ f.region ∨ p ∈ f.repaintRegion
  · refine ⟨f.plain c, fun q => if q = p then d else c, ⟨fun _ _ => rfl, fun _ _ _ _ _ => rfl, ?_⟩, by simp⟩
    intro q hq hr
    have hne : q ≠ p := by
      rintro rfl
      exact ho.elim hq hr
    rw [if_neg hne, picture_plain]
  · rw [not_or] at ho
    obtain ⟨below, a, above, he, ha, hn⟩ := (hv.resolve_left ho.1).resolve_left ho.2
    -- the windows with a repaint of the pixel painted the other colour
    let y : Contents α C := ⟨fun _ => c, fun b q e =>
      if q = p ∧ p ∈ (f.window b).repaints then d else (f.plain c).blend b q e⟩
    refine ⟨y, f.picture y, ⟨fun _ _ => rfl, fun b _ q _ hq => ?_, fun _ _ _ => rfl⟩, ?_⟩
    · funext e
      exact if_neg fun (h : q = p ∧ p ∈ (f.window b).repaints) => hq (h.1 ▸ h.2)
    · have hd : y.blend a p = fun _ => d := funext fun e => if_pos ⟨rfl, ha⟩
      rw [picture_append he, paintOver, List.map_cons, compose_cons, hd]
      refine compose_fixed _ fun g hg => ?_
      obtain ⟨b, hb, rfl⟩ := List.mem_map.mp hg
      simp only [y, plain, hn b hb, if_false, ite_self]

theorem not_invisible_of_dirty [Nontrivial C] (hp : p ∈ f.displayRegion) (hv : f.VisiblyDirty p)
    {below above : List α} (he : f.enabled = below ++ a :: above) (ha : (f.prePaintWindow a).culls p)
    (hn : ∀ b ∈ above, ¬ (f.prePaintWindow b).culls p) (ho : ∀ b ∈ a :: above, ¬ (f.window b).OpaqueAt p) :
    ¬ f.CullingInvisible C := by
  intro h
  obtain ⟨c, d, hne⟩ := exists_pair_ne C
  obtain ⟨y, buffer, hy, hd⟩ := dirty_shows hv c d
  have heq := h (f.plain c) y buffer ∅ (respects_plain c) hy p hp
  rw [picture_plain] at heq
  by_cases hasked : f.fullRepaint ∨ f.Asked (a :: above) p
  · rw [(screen_of_culled hp he ha hn).1 hasked, paintOver_plain c _ ho, hd] at heq
    exact hne heq.symm
  · rw [(screen_of_culled hp he ha hn).2 hasked, hd] at heq
    exact hne heq.symm

open Classical in
/-- Without damage the clipping window is blended over itself. -/
theorem not_invisible_of_drawsAll [Nontrivial C] (hp : p ∈ f.displayRegion) (hf : f.DrawsAll)
    {below above : List α} (he : f.enabled = below ++ a :: above) (ha : (f.prePaintWindow a).culls p)
    (hn : ∀ b ∈ above, ¬ (f.prePaintWindow b).culls p) (ho : ∀ b ∈ a :: above, ¬ (f.window b).OpaqueAt p) :
    ¬ f.CullingInvisible C := by
  intro h
  obtain ⟨c, d, hne⟩ := exists_pair_ne C
  -- a blend without fixed points
  let x : Contents α C := ⟨fun _ => c, fun b q e => if (f.window b).OpaqueAt q then c
    else if (f.prePaintWindow b).culls q then (if e = c then d else c) else e⟩
  have hx : f.Respects x := by
    intro b q hb
    simp only [x, hb, if_true]
    exact overwrites_const c
  have heq := h x x (f.picture x) ∅ hx ⟨fun _ _ => rfl, fun _ _ _ _ _ => rfl, fun _ _ _ => rfl⟩ p hp
  rw [(screen_of_culled hp he ha hn).1 (.inl (fullRepaint_iff.mpr hf)), paintOver, List.map_cons,
    compose_cons] at heq
  have habove : ∀ e, compose (above.map fun b => x.blend b p) e = e := by
    intro e
    refine compose_fixed _ fun g hg => ?_
    obtain ⟨b, hb, rfl⟩ := List.mem_map.mp hg
    simp only [x, ho b (List.mem_cons_of_mem a hb), hn b hb, if_false]
  rw [habove] at heq
  simp only [x, ho a List.mem_cons_self, ha, if_false, if_true] at heq
  split at heq
  · next hc => exact hne (hc.symm.trans heq.symm)
  · next hc => exact hc heq.symm

/-- Culling is invisible exactly when no pixel that is drawn is culled by a misplaced clip alone. -/
theorem cullingInvisible_iff [Nontrivial C] (hb : f.backgroundFirst = false) :
    f.CullingInvisible C ↔ f.Sound := by
  refine ⟨fun h p hp hd below a above he hm hc => ?_, invisible_of_sound hb⟩
  by_contra hno
  have hno : ∀ b ∈ a :: above, ¬ (f.window b).OpaqueAt p := fun b hb ho => hno ⟨b, hb, ho⟩
  rcases exists_last (fun b => (f.prePaintWindow b).culls p) (a :: above) with hn | ⟨l, t, r, hl, ht, hn⟩
  · exact hn a List.mem_cons_self (culls_of_misplaced hm hc)
  · have hsplit : f.enabled = (below ++ l) ++ t :: r := by rw [he, hl, List.append_assoc]
    have ho : ∀ b ∈ t :: r, ¬ (f.window b).OpaqueAt p := fun b hb =>
      hno b (hl ▸ List.mem_append_right l hb)
    rcases hd with hd | hd
    · exact not_invisible_of_drawsAll hp hd hsplit ht hn ho h
    · exact not_invisible_of_dirty hp hd hsplit ht hn ho h

/-- An unmanaged window of one pixel next to the origin that declares `declared` opaque, on a screen of
three pixels that is damaged as a whole. -/
def onePixel (declared : Region) : Frame Unit where
  screenSize := ⟨3, 1⟩
  region := {(0, 0), (1, 0), (2, 0)}
  repaintRegion := ∅
  backgroundFirst := false
  stackingOrder := [()]
  window _ :=
    { frameGeometry := ⟨1, 0, 1, 0⟩, clientFrameExtents := ⟨0, 0, 0, 0⟩, remnantFrameMargins := none,
      hasInContentDeco := false, renderRegion := {(0, 0)}, hasAlpha := true, opacity := 1,
      opaqueRegion := declared, control := none, repaintsRegion := ∅, layerRepaintsRegion := ∅,
      deleted := false, onCurrentDesktop := true, onCurrentActivity := true, hiddenInternal := false }
  wantsFullRepaint _ _ := false

theorem onePixel_sound : (onePixel {(0, 0)}).CullingInvisible Bool := by
  refine (cullingInvisible_iff rfl).mpr fun p _ _ below a above _ hm => ?_
  exact absurd hm (by cases a; decide)

/-- The opaque region lies beside the window, and the pixel below it is not painted. -/
theorem onePixel_visible : ¬ (onePixel {(1, 0)}).CullingInvisible Bool :=
  not_invisible_of_dirty (p := (1, 0)) (by decide) (.inl (by decide))
    (show (onePixel {(1, 0)}).enabled = [] ++ () :: [] by decide)
    (culls_of_misplaced (by decide) (by decide)) (by simp) (by decide)

end Frame

end KWinFT.Scene
