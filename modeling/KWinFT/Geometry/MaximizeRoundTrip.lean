import KWinFT.Geometry.WorkspacePosition
import Mathlib.Data.Set.Basic

/-! Maximization gives back what it took. The frame follows from the mode alone, and the slot
holds the original frame whenever the window is maximized in some direction. -/
namespace KWinFT.Geometry

/-- The frame of a window that belongs at `G`, in each mode. -/
def target (A G : Rect) : MaximizeMode → Rect
  | .restore => G
  | .vertical => ⟨G.left, A.top, G.right, A.bottom⟩
  | .horizontal => ⟨A.left, G.top, A.right, G.bottom⟩
  | .full => A

/-- The surroundings stay as they are: `A` is the maximize area at every point of the screen, and
the size hints allow the sizes at hand. -/
structure Undisturbed (env : Env) (A G : Rect) (screen : Set Point) : Prop where
  valid : G.isValid
  area : ∀ p ∈ screen, env.clientArea .maximize p = A
  onScreen : ∀ m, (target A G m).center ∈ screen
  sizes : ∀ d m mode, env.adjustedFrameSize d (target A G m).size mode = (target A G m).size

/-- When borders come or go, the position check puts the window where it belongs: from its place,
and from where the gravity of an X11 client moves the window that loses its borders. -/
def PutsBack (env : Env) (A G : Rect) (inEffect : Set Rect) : Prop :=
  ∀ (w : Win) (oldFrame oldClient : Rect), (env.backend = .x11 → w.synced.frameGeometry ∈ inEffect) →
    (env.backend = .x11 → oldFrame = target A G w.maxMode) →
    w.frame = target A G w.maxMode ∨
      env.backend = .x11 ∧ w.frame = (target A G w.maxMode).moveTo (w.calculateGravitation env) →
    env.checkWorkspacePosition w oldFrame oldClient = target A G w.maxMode

namespace Win

variable {env : Env} {cursor : Point} {w : Win}

/-- Maximized windows keep their borders, or those of this window may not be changed or are off in every mode, or the window
is put back. -/
def BordersAside (env : Env) (A G : Rect) (inEffect : Set Rect) (w : Win) : Prop :=
  env.borderlessMaximizedWindows → env.bordersAllowed →
    (env.backend = .x11 ∧ (env.appNoBorder ∨ env.motifNoBorder) ∧ w.userNoBorder) ∨ PutsBack env A G inEffect

/-- The frame is the one of the mode, at rest and on its screen. -/
structure InPlace (env : Env) (A G : Rect) (screen : Set Point) (inEffect : Set Rect) (w : Win) : Prop where
  fullscreen : w.fullscreen = false
  moving : w.moving = false
  electricMaximizing : w.electricMaximizing = false
  frame : w.frame = target A G w.maxMode
  center : w.pendingFrameGeometry.center ∈ screen
  synced : env.backend = .x11 → w.synced.frameGeometry ∈ inEffect
  borders : w.BordersAside env A G inEffect
  bordered : w.Bordered env

variable {A G : Rect} {screen : Set Point} {inEffect : Set Rect}

theorem InPlace.area (h : InPlace env A G screen inEffect w) (u : Undisturbed env A G screen) :
    w.getMaximizingArea env cursor = A := by
  rw [getMaximizingArea, h.electricMaximizing, if_neg Bool.false_ne_true]
  exact u.area _ h.center

theorem InPlace.setRestoreGeometry_eq (h : InPlace env A G screen inEffect w) (r : Rect) :
    w.setRestoreGeometry r =
      { w with restoreMaximize := if w.quicktiling = .none then r else w.restoreMaximize } := by
  unfold Win.setRestoreGeometry
  rw [if_neg (by simp [h.fullscreen])]
  by_cases hq : w.quicktiling = .none
  · rw [if_neg (not_not.mpr hq), if_neg (by simp [h.moving]), if_pos hq]
  · rw [if_pos hq, if_neg hq]

theorem InPlace.setRestoreGeometry (h : InPlace env A G screen inEffect w) (r : Rect) :
    InPlace env A G screen inEffect (w.setRestoreGeometry r) := by
  rw [h.setRestoreGeometry_eq]
  exact ⟨h.fullscreen, h.moving, h.electricMaximizing, h.frame, h.center, h.synced, h.borders, h.bordered⟩

/-- What a change of the borders does to the frame, before the position is checked. -/
private theorem destroyDecoration_frame (hp : w.pending) :
    (w.destroyDecoration env).frame = w.frame ∨
      env.backend = .x11 ∧ (w.destroyDecoration env).frame = w.frame.moveTo (w.calculateGravitation env) := by
  unfold destroyDecoration
  cases hb : env.backend with
  | wayland => exact .inl rfl
  | x11 =>
    dsimp only
    split
    · rcases move_frameOnly { w with decorated := false } (w.calculateGravitation env) with h | h
      · rw [h]
        exact .inl rfl
      · refine .inr ⟨rfl, ?_⟩
        rw [h, pendingFrameGeometry, if_pos hp]
        rfl
    · exact .inl rfl

private theorem createDecoration_frame (hp : w.pending) : (w.createDecoration env).frame = w.frame := by
  unfold createDecoration
  dsimp only
  split
  · split <;> rfl
  · split
    · rfl
    · rfl

/-- The position check follows each change of the borders. -/
private theorem updateDecoration_putBack (hp : w.pending) (hframe : w.frame = target A G w.maxMode)
    (hs : env.backend = .x11 → w.synced.frameGeometry ∈ inEffect) (hback : PutsBack env A G inEffect) :
    (w.updateDecoration env true).frame = w.frame := by
  have hold : env.backend = .x11 → w.geometryBefore env = target A G w.maxMode := fun hx => by
    rw [geometryBefore, hx]
    exact hframe
  unfold updateDecoration
  dsimp only
  split
  · rfl
  · rw [if_pos rfl]
    split
    · have hd := destroyDecoration_redecorated env w
      refine (hback _ _ _ (fun hx => ?_) (fun hx => ?_) ?_).trans ((congrArg (target A G) hd.maxMode).trans hframe.symm)
      · rw [hd.synced hx]
        exact hs hx
      · rw [hd.maxMode]
        exact hold hx
      · rw [hd.maxMode, ← hframe]
        refine (destroyDecoration_frame hp).imp_right fun ⟨hx, hmoved⟩ => ⟨hx, ?_⟩
        rw [hmoved, calculateGravitation, calculateGravitation, hd.synced hx]
    · next hno =>
      have hd := createDecoration_redecorated env w (Bool.eq_false_iff.mpr hno)
      refine (hback _ _ _ (fun hx => ?_) (fun hx => ?_) ?_).trans ((congrArg (target A G) hd.maxMode).trans hframe.symm)
      · rw [hd.synced hx]
        exact hs hx
      · rw [hd.maxMode]
        exact hold hx
      · rw [hd.maxMode, ← hframe]
        exact .inl (createDecoration_frame hp)

/-- Where the borders do not matter, the window has the frame of its mode after its borders were brought up to date. -/
private theorem updateNoBorder_inPlace (hp : w.pending) (hframe : w.frame = target A G w.maxMode)
    (hs : env.backend = .x11 → w.synced.frameGeometry ∈ inEffect) (hb : w.BordersAside env A G inEffect) :
    (w.updateNoBorder env).frame = w.frame ∧ (w.updateNoBorder env).BordersAside env A G inEffect := by
  unfold updateNoBorder
  split
  · exact ⟨rfl, hb⟩
  · next ho =>
    unfold setNoBorder
    split
    · exact ⟨rfl, hb⟩
    · next hallowed =>
      rcases hb (not_not.mp ho) (not_not.mp (not_or.mp hallowed).1) with ⟨hx, hno, huser⟩ | hback
      · have hwants : env.wantsNoBorder w.maxMode = true := by
          unfold Env.wantsNoBorder
          rw [hx]
          rcases hno with h | h <;> simp [h]
        rw [if_pos (huser.trans hwants.symm)]
        exact ⟨rfl, hb⟩
      · split
        · exact ⟨rfl, hb⟩
        · set v : Win := { w with userNoBorder := env.wantsNoBorder w.maxMode } with hv
          exact ⟨updateDecoration_putBack (w := v) hp hframe hs hback, fun _ _ => .inr hback⟩

/-- A frame that fits the new mode is in place, whatever the borders do. -/
private theorem inPlace_of_frame (u : Undisturbed env A G screen) (h : InPlace env A G screen inEffect w)
    (m : MaximizeMode) (r : Rect) (hr : r = target A G m) :
    InPlace env A G screen inEffect ({ w.setFrameGeometry r with maxMode := m }.updateNoBorder env) ∧
      ({ w.setFrameGeometry r with maxMode := m }.updateNoBorder env).maxMode = m := by
  set w₁ : Win := { w.setFrameGeometry r with maxMode := m } with hw₁
  have hd := updateNoBorder_redecorated env w₁
  obtain ⟨hsame, hborders⟩ := updateNoBorder_inPlace (w := w₁) rfl hr h.synced h.borders
  have hframe : (w₁.updateNoBorder env).frame = target A G m := hsame.trans hr
  refine ⟨⟨hd.fullscreen.trans h.fullscreen, hd.moving.trans h.moving,
    hd.electricMaximizing.trans h.electricMaximizing, ?_, ?_, fun hx => ?_, hborders, hd.bordered h.bordered⟩,
    hd.maxMode⟩
  · rw [hd.maxMode, hframe]
  · rw [pendingFrameGeometry, hd.pending rfl, if_pos rfl, hframe]
    exact u.onScreen m
  · rw [hd.synced hx]
    exact h.synced hx

/-- Where `w'` comes from: mode `m`, and the slot written with `r` unless the window is tiled. -/
structure Moved (env : Env) (A G : Rect) (screen : Set Point) (inEffect : Set Rect) (w w' : Win) (m : MaximizeMode) (r : Rect) : Prop where
  inPlace : InPlace env A G screen inEffect w'
  maxMode : w'.maxMode = m
  quicktiling : w'.quicktiling = w.quicktiling
  restoreMaximize : w'.restoreMaximize = if w.quicktiling = .none then r else w.restoreMaximize

/-- The last write to the slot counts. -/
theorem Moved.trans {w' w'' : Win} {m m' : MaximizeMode} {r r' : Rect} (h : Moved env A G screen inEffect w w' m r)
    (h' : Moved env A G screen inEffect w' w'' m' r') : Moved env A G screen inEffect w w'' m' r' := by
  refine ⟨h'.inPlace, h'.maxMode, h'.quicktiling.trans h.quicktiling, ?_⟩
  rw [h'.restoreMaximize, h.quicktiling, h.restoreMaximize]
  split <;> rfl

theorem Moved.setRestoreGeometry {w' : Win} {m : MaximizeMode} {r : Rect}
    (h : Moved env A G screen inEffect w w' m r) (slot : Rect) :
    Moved env A G screen inEffect w (w'.setRestoreGeometry slot) m slot := by
  refine h.trans ⟨h.inPlace.setRestoreGeometry slot, ?_, ?_, ?_⟩ <;>
    rw [h.inPlace.setRestoreGeometry_eq]
  exact h.maxMode

private theorem moved_of_frame (u : Undisturbed env A G screen) (h : InPlace env A G screen inEffect w)
    (m : MaximizeMode) (r slot : Rect) (hr : r = target A G m) :
    Moved env A G screen inEffect w
      (({ w.setFrameGeometry r with maxMode := m }.updateNoBorder env).setRestoreGeometry slot)
      m slot := by
  obtain ⟨hin, hm⟩ := inPlace_of_frame u h m r hr
  have hd := updateNoBorder_redecorated env { w.setFrameGeometry r with maxMode := m }
  refine ⟨hin.setRestoreGeometry slot, ?_, ?_, ?_⟩ <;> rw [hin.setRestoreGeometry_eq]
  · exact hm
  · exact hd.quicktiling
  · dsimp only
    rw [hd.quicktiling, hd.restoreMaximize]
    rfl

private theorem ofPointSize_eq_target {m : MaximizeMode} {d : Bool} {mode : SizeMode} {p : Point} {s : Size}
    (u : Undisturbed env A G screen) (hp : p = (target A G m).topLeft) (hs : s = (target A G m).size) :
    Rect.ofPointSize p (env.adjustedFrameSize d s mode) = target A G m := by
  rw [hp, hs, u.sizes, Rect.ofPointSize_topLeft_size]

theorem InPlace.maximizeVertically (h : InPlace env A G screen inEffect w) (u : Undisturbed env A G screen) :
    Moved env A G screen inEffect w (w.maximizeVertically env cursor) (w.maxMode.union .vertical) w.frame := by
  refine moved_of_frame u h (w.maxMode.union .vertical) _ _ (ofPointSize_eq_target u ?_ ?_) <;>
    rw [h.area u, h.frame]
  · cases w.maxMode <;> rfl
  · cases w.maxMode <;> rfl

theorem InPlace.maximizeHorizontally (h : InPlace env A G screen inEffect w) (u : Undisturbed env A G screen) :
    Moved env A G screen inEffect w (w.maximizeHorizontally env cursor) (w.maxMode.union .horizontal) w.frame := by
  refine moved_of_frame u h (w.maxMode.union .horizontal) _ _ (ofPointSize_eq_target u ?_ ?_) <;>
    rw [h.area u, h.frame]
  · cases w.maxMode <;> rfl
  · cases w.maxMode <;> rfl

theorem InPlace.maximizeRestore (h : InPlace env A G screen inEffect w) (u : Undisturbed env A G screen)
    (hslot : w.maxMode ≠ .restore → w.restoreMaximize = G) :
    Moved env A G screen inEffect w (w.maximizeRestore env cursor) .restore .null := by
  have hfinal : w.finalRestoreGeometry = G := by
    unfold finalRestoreGeometry
    rw [h.frame]
    cases hm : w.maxMode <;> rw [hm] at hslot <;> simp [target, MaximizeMode.hasVertical,
      MaximizeMode.hasHorizontal, Rect.setTop, Rect.setBottom, Rect.setLeft, Rect.setRight, hslot]
  have hupdate : w.updateFrameFromRestoreGeometry env cursor w.finalRestoreGeometry =
      w.setFrameGeometry G := by
    unfold updateFrameFromRestoreGeometry rectifyRestoreGeometry
    rw [hfinal, if_pos u.valid]
    cases env.backend with
    | x11 => rfl
    | wayland => dsimp only; rw [if_pos u.valid]
  unfold Win.maximizeRestore
  rw [hupdate]
  exact moved_of_frame u h .restore G .null rfl

/-- From a restored window, both directions in turn; the slot ends with the original frame. -/
theorem InPlace.updateMaximizedImpl (h : InPlace env A G screen inEffect w) (u : Undisturbed env A G screen)
    (hrest : w.maxMode = .restore) {mode : MaximizeMode} (hmode : mode ≠ .restore) :
    Moved env A G screen inEffect w (w.updateMaximizedImpl env cursor mode) mode G := by
  have hG : w.frame = G := by rw [h.frame, hrest]; rfl
  have hv : Moved env A G screen inEffect w (w.maximizeVertically env cursor) _ _ := h.maximizeVertically u
  have hh : Moved env A G screen inEffect w (w.maximizeHorizontally env cursor) _ _ := h.maximizeHorizontally u
  have hvh : Moved env A G screen inEffect _ ((w.maximizeVertically env cursor).maximizeHorizontally env cursor) _ _ :=
    hv.inPlace.maximizeHorizontally u
  unfold Win.updateMaximizedImpl
  rw [if_neg hmode, hrest, hG]
  cases mode with
  | restore => exact absurd rfl hmode
  | vertical =>
    rw [hrest] at hv
    exact hv.setRestoreGeometry G
  | horizontal =>
    rw [hrest] at hh
    exact hh.setRestoreGeometry G
  | full =>
    rw [hv.maxMode, hrest] at hvh
    exact (hv.trans hvh).setRestoreGeometry G

/-- Between calls: in place, tiled as maximized exactly in full mode, and with the way back kept. -/
structure Held (env : Env) (A G : Rect) (screen : Set Point) (inEffect : Set Rect) (w : Win) : Prop where
  inPlace : InPlace env A G screen inEffect w
  quicktiling : w.quicktiling = if w.maxMode = .full then .maximize else .none
  slot : w.maxMode ≠ .restore → w.restoreMaximize = G

private theorem InPlace.of_same_frame {w' : Win} (h : InPlace env A G screen inEffect w)
    (u : Undisturbed env A G screen) (hf : w'.frame = w.frame) (hm : w'.maxMode = w.maxMode)
    (hs : w'.fullscreen = w.fullscreen) (hmv : w'.moving = w.moving)
    (he : w'.electricMaximizing = w.electricMaximizing) (hsync : w'.synced = w.synced)
    (hdeco : w'.decorated = w.decorated) (huser : w'.userNoBorder = w.userNoBorder)
    (hp : w'.pending ∨ w'.pendingFrameGeometry = w.pendingFrameGeometry) : InPlace env A G screen inEffect w' := by
  refine ⟨hs.trans h.fullscreen, hmv.trans h.moving, he.trans h.electricMaximizing,
    by rw [hf, hm, h.frame], ?_, fun hx => by rw [hsync]; exact h.synced hx, ?_, ?_⟩
  rotate_left
  · unfold BordersAside
    rw [huser]
    exact h.borders
  · unfold Bordered hasNoBorder
    rw [hdeco, huser, hs]
    exact h.bordered
  rcases hp with hp | hp
  · rw [pendingFrameGeometry, if_pos hp, hf, h.frame]
    exact u.onScreen _
  · rw [hp]
    exact h.center

theorem Held.repeatMaximized (h : Held env A G screen inEffect w) (u : Undisturbed env A G screen) :
    Held env A G screen inEffect (w.repeatMaximized env cursor w.maxMode) := by
  have hv : Moved env A G screen inEffect w (w.maximizeVertically env cursor) _ _ := h.inPlace.maximizeVertically u
  have hh : Moved env A G screen inEffect w (w.maximizeHorizontally env cursor) _ _ := h.inPlace.maximizeHorizontally u
  have hvh : Moved env A G screen inEffect _ ((w.maximizeVertically env cursor).maximizeHorizontally env cursor) _ _ :=
    hv.inPlace.maximizeHorizontally u
  have hlast {w' : Win} (hm : Moved env A G screen inEffect w w' w.maxMode w.restoreMaximize) : Held env A G screen inEffect w' := by
    refine ⟨hm.inPlace, by rw [hm.quicktiling, hm.maxMode, h.quicktiling], fun hne => ?_⟩
    rw [hm.restoreMaximize, ite_self]
    exact h.slot (hm.maxMode ▸ hne)
  unfold Win.repeatMaximized
  cases hm : w.maxMode with
  | restore =>
    have hself : Moved env A G screen inEffect w w w.maxMode w.restoreMaximize :=
      ⟨h.inPlace, rfl, rfl, (ite_self _).symm⟩
    exact hlast (hself.setRestoreGeometry _)
  | vertical =>
    rw [hm] at hv hlast
    exact hlast (hv.setRestoreGeometry _)
  | horizontal =>
    rw [hm] at hh hlast
    exact hlast (hh.setRestoreGeometry _)
  | full =>
    rw [hv.maxMode, hm] at hvh
    rw [hm] at hlast
    exact hlast ((hv.trans hvh).setRestoreGeometry _)

theorem InPlace.tileAsMaximized (h : InPlace env A G screen inEffect w) (u : Undisturbed env A G screen)
    (hslot : w.maxMode ≠ .restore → w.restoreMaximize = G) :
    Held env A G screen inEffect (w.tileAsMaximized w.maxMode) := by
  unfold Win.tileAsMaximized
  generalize hq : (if w.maxMode = .full then Quicktiles.maximize else .none) = q
  dsimp only
  split
  · exact ⟨h.of_same_frame u rfl rfl rfl rfl rfl rfl rfl rfl (.inl rfl), hq.symm, hslot⟩
  · exact ⟨h.of_same_frame u rfl rfl rfl rfl rfl rfl rfl rfl (.inr rfl), hq.symm, hslot⟩

/-- The window that a maximized mode is set on is restored. It has the original frame in its
slot, or it is not tiled and so gets it there. -/
theorem Held.restoreFirst (h : Held env A G screen inEffect w) (u : Undisturbed env A G screen)
    {mode : MaximizeMode} (hmode : mode ≠ .restore) :
    InPlace env A G screen inEffect (w.restoreFirst env cursor mode) ∧
      (w.restoreFirst env cursor mode).maxMode = .restore ∧
      ((w.restoreFirst env cursor mode).quicktiling = .none ∨
        (w.restoreFirst env cursor mode).restoreMaximize = G) := by
  have hr : Moved env A G screen inEffect w (w.maximizeRestore env cursor) _ _ := h.inPlace.maximizeRestore u h.slot
  unfold Win.restoreFirst
  by_cases hw : w.maxMode = .restore
  · rw [if_neg fun hc => hc.1 hw]
    refine ⟨h.inPlace, hw, .inl ?_⟩
    rw [h.quicktiling, hw]
    rfl
  · rw [if_pos ⟨hw, hmode⟩]
    exact ⟨hr.inPlace.of_same_frame u rfl rfl rfl rfl rfl rfl rfl rfl (.inr rfl), hr.maxMode, .inr (h.slot hw)⟩

theorem Held.switch (h : Held env A G screen inEffect w) (u : Undisturbed env A G screen) (mode : MaximizeMode) :
    Held env A G screen inEffect
      (((w.restoreFirst env cursor mode).updateMaximizedImpl env cursor mode).tileAsMaximized mode) := by
  by_cases hmode : mode = .restore
  · have hr : Moved env A G screen inEffect w (w.maximizeRestore env cursor) _ _ := h.inPlace.maximizeRestore u h.slot
    rw [hmode, Win.restoreFirst, if_neg fun hc => hc.2 rfl]
    have ht := hr.inPlace.tileAsMaximized u fun hc => absurd hr.maxMode hc
    rwa [hr.maxMode] at ht
  · obtain ⟨hin, hrest, hslot⟩ : InPlace env A G screen inEffect (w.restoreFirst env cursor mode) ∧ _ ∧ _ :=
      h.restoreFirst u hmode
    have hi : Moved env A G screen inEffect _ ((w.restoreFirst env cursor mode).updateMaximizedImpl env cursor mode) _ _ :=
      hin.updateMaximizedImpl u hrest hmode
    have ht := hi.inPlace.tileAsMaximized u fun _ => by
      rw [hi.restoreMaximize]
      rcases hslot with hq | hs
      · rw [if_pos hq]
      · rw [hs, ite_self]
    rwa [hi.maxMode] at ht

theorem Held.updateMaximized (h : Held env A G screen inEffect w) (u : Undisturbed env A G screen)
    (mode : MaximizeMode) : Held env A G screen inEffect (w.updateMaximized env cursor mode) := by
  unfold Win.updateMaximized
  split
  · exact h
  · dsimp only
    split
    · next hm =>
      rw [hm]
      exact h.repeatMaximized u
    · exact h.switch u _

end Win

namespace Win
variable {env : Env} {w : Win} {A G : Rect} {screen : Set Point} {inEffect : Set Rect}

/-- Two screens side by side, where maximized windows lose their borders and X11 windows keep the corner of the frame. -/
def twoScreens : Env :=
  let screenAt (p : Point) : Rect := if p.x ≤ 1919 then ⟨0, 0, 1919, 1079⟩ else ⟨1920, 0, 3839, 1079⟩
  { Env.plain with
    backend := .x11
    clientArea := fun _ => screenAt
    screenGeometries := [⟨0, 0, 1919, 1079⟩, ⟨1920, 0, 3839, 1079⟩]
    borders := ⟨4, 20, 4, 4⟩
    bordersAllowed := true
    borderlessMaximizedWindows := true }.withWorkarea
      ⟨screenAt, ⟨[], [], [], []⟩, fun r => if r.left ≤ 1919 ∧ 1920 ≤ r.right then 2 else 1, ⟨0, 0⟩⟩

end Win
end KWinFT.Geometry
