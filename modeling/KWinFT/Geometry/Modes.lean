import KWinFT.Geometry.Fullscreen

/-! Which combinations of maximize mode and tiling occur. A window that is not maximized is never
tiled as maximized, whatever was asked of it before. -/
namespace KWinFT.Geometry
namespace Quicktiles

theorem sanitize_ne_maximize (q : Quicktiles) : q.sanitize ≠ maximize := by
  obtain ⟨l, r, t, b⟩ := q
  revert l r t b
  decide

theorem sanitize_sanitize (q : Quicktiles) : q.sanitize.sanitize = q.sanitize := by
  obtain ⟨l, r, t, b⟩ := q
  revert l r t b
  decide

theorem sanitize_swapSides (q : Quicktiles) :
    q.sanitize.swapSides.sanitize = q.sanitize.swapSides ∧ q.sanitize.swapSides ≠ maximize := by
  obtain ⟨l, r, t, b⟩ := q
  revert l r t b
  decide

end Quicktiles

namespace Win

/-- What maximizing leaves alone until it decides on the tiling. -/
structure Steady (env : Env) (w w' : Win) : Prop where
  fullscreen : w'.fullscreen = w.fullscreen
  moving : w'.moving = w.moving
  quicktiling : w'.quicktiling = w.quicktiling
  electricMaximizing : w'.electricMaximizing = w.electricMaximizing
  synced : env.backend = .x11 → w'.synced = w.synced
  bordered : w.Bordered env → w'.Bordered env

variable {env : Env} {cursor : Point} {w w' w'' : Win}

theorem Steady.refl (w : Win) : Steady env w w := ⟨rfl, rfl, rfl, rfl, fun _ => rfl, id⟩

theorem Steady.trans (h : Steady env w w') (h' : Steady env w' w'') : Steady env w w'' :=
  ⟨h'.fullscreen.trans h.fullscreen, h'.moving.trans h.moving, h'.quicktiling.trans h.quicktiling,
    h'.electricMaximizing.trans h.electricMaximizing, fun hb => (h'.synced hb).trans (h.synced hb), h'.bordered ∘ h.bordered⟩

theorem Redecorated.steady (h : Redecorated env w w') : Steady env w w' :=
  ⟨h.fullscreen, h.moving, h.quicktiling, h.electricMaximizing, h.synced, h.bordered⟩

theorem setFrameGeometry_steady (r : Rect) : Steady env w (w.setFrameGeometry r) :=
  ⟨rfl, rfl, rfl, rfl, fun _ => rfl, id⟩

theorem setRestoreGeometry_steady (r : Rect) : Steady env w (w.setRestoreGeometry r) := by
  unfold setRestoreGeometry
  split_ifs <;> exact ⟨rfl, rfl, rfl, rfl, fun _ => rfl, id⟩

@[simp] theorem setRestoreGeometry_maxMode (r : Rect) :
    (w.setRestoreGeometry r).maxMode = w.maxMode := by
  unfold setRestoreGeometry
  split_ifs <;> rfl

theorem maximizeRestore_steady : Steady env w (w.maximizeRestore env cursor) := by
  have hframe : Steady env w (w.updateFrameFromRestoreGeometry env cursor w.finalRestoreGeometry) := by
    unfold updateFrameFromRestoreGeometry
    split <;> exact setFrameGeometry_steady _
  have hmode : Steady env w
      { w.updateFrameFromRestoreGeometry env cursor w.finalRestoreGeometry with maxMode := .restore } :=
    ⟨hframe.fullscreen, hframe.moving, hframe.quicktiling, hframe.electricMaximizing, hframe.synced, hframe.bordered⟩
  exact (hmode.trans (updateNoBorder_redecorated env _).steady).trans (setRestoreGeometry_steady _)

@[simp] theorem maximizeRestore_maxMode : (w.maximizeRestore env cursor).maxMode = .restore := by
  unfold maximizeRestore
  rw [setRestoreGeometry_maxMode, (updateNoBorder_redecorated env _).maxMode]

theorem maximizeDirection_steady (dir : MaximizeMode) (p : Point) (s : Size) (mode : SizeMode) :
    Steady env w (w.maximizeDirection env dir p s mode) := by
  refine Steady.trans ?_ (setRestoreGeometry_steady _)
  refine Steady.trans ?_ (updateNoBorder_redecorated env _).steady
  exact ⟨rfl, rfl, rfl, rfl, fun _ => rfl, id⟩

@[simp] theorem maximizeDirection_maxMode (dir : MaximizeMode) (p : Point) (s : Size) (mode : SizeMode) :
    (w.maximizeDirection env dir p s mode).maxMode = w.maxMode.union dir := by
  unfold maximizeDirection
  rw [setRestoreGeometry_maxMode, (updateNoBorder_redecorated env _).maxMode]
  rfl

theorem maximizeVertically_steady : Steady env w (w.maximizeVertically env cursor) :=
  maximizeDirection_steady _ _ _ _

theorem maximizeHorizontally_steady : Steady env w (w.maximizeHorizontally env cursor) :=
  maximizeDirection_steady _ _ _ _

@[simp] theorem maximizeVertically_maxMode :
    (w.maximizeVertically env cursor).maxMode = w.maxMode.union .vertical :=
  maximizeDirection_maxMode _ _ _ _

@[simp] theorem maximizeHorizontally_maxMode :
    (w.maximizeHorizontally env cursor).maxMode = w.maxMode.union .horizontal :=
  maximizeDirection_maxMode _ _ _ _

/-- Every combination of steps that maximizing is made of is steady. -/
private theorem ite_steady {c : Prop} [Decidable c] {w₁ w₂ : Win} (h₁ : Steady env w w₁)
    (h₂ : Steady env w w₂) : Steady env w (if c then w₁ else w₂) := by
  split
  · exact h₁
  · exact h₂

theorem updateMaximizedImpl_steady (mode : MaximizeMode) :
    Steady env w (w.updateMaximizedImpl env cursor mode) := by
  have hrestore (c : Prop) [Decidable c] (w₁ : Win) (h : Steady env w w₁) :
      Steady env w (if c then w₁.maximizeRestore env cursor else w₁) :=
    ite_steady (h.trans maximizeRestore_steady) h
  refine ite_steady maximizeRestore_steady (Steady.trans ?_ (setRestoreGeometry_steady _))
  have hv : Steady env w
      (if mode.hasVertical then
        (if w.maxMode.hasHorizontal ∧ ¬ mode.hasHorizontal then w.maximizeRestore env cursor
          else w).maximizeVertically env cursor
      else w) :=
    ite_steady ((hrestore _ w (.refl w)).trans maximizeVertically_steady) (.refl w)
  exact ite_steady ((hrestore _ _ hv).trans maximizeHorizontally_steady) hv

/-- The mode asked for is the mode afterwards, when the window starts out restored. -/
theorem updateMaximizedImpl_maxMode {mode : MaximizeMode} (h : mode = .restore ∨ w.maxMode = .restore) :
    (w.updateMaximizedImpl env cursor mode).maxMode = mode := by
  unfold updateMaximizedImpl
  rcases h with h | h
  · rw [if_pos h, h, maximizeRestore_maxMode]
  · cases mode with
    | restore => exact maximizeRestore_maxMode
    | vertical =>
      have hv : (w.maximizeVertically env cursor).maxMode = .vertical := by
        rw [maximizeVertically_maxMode, h]; rfl
      rw [if_neg nofun, setRestoreGeometry_maxMode, h]
      exact hv
    | horizontal =>
      have hh : (w.maximizeHorizontally env cursor).maxMode = .horizontal := by
        rw [maximizeHorizontally_maxMode, h]; rfl
      rw [if_neg nofun, setRestoreGeometry_maxMode, h]
      exact hh
    | full =>
      have hvh : ((w.maximizeVertically env cursor).maximizeHorizontally env cursor).maxMode = .full := by
        rw [maximizeHorizontally_maxMode, maximizeVertically_maxMode, h]; rfl
      rw [if_neg nofun, setRestoreGeometry_maxMode, h]
      exact hvh

theorem restoreFirst_steady (mode : MaximizeMode) : Steady env w (w.restoreFirst env cursor mode) := by
  have h : Steady env w (w.updateMaximizedImpl env cursor .restore) := updateMaximizedImpl_steady .restore
  exact ite_steady ⟨h.fullscreen, h.moving, h.quicktiling, h.electricMaximizing, h.synced, h.bordered⟩ (.refl w)

theorem restoreFirst_maxMode {mode : MaximizeMode} (hmode : mode ≠ .restore) :
    (w.restoreFirst env cursor mode).maxMode = .restore := by
  unfold restoreFirst
  by_cases h : w.maxMode = .restore
  · rw [if_neg fun hc => hc.1 h, h]
  · rw [if_pos ⟨h, hmode⟩]
    exact updateMaximizedImpl_maxMode (.inl rfl)

theorem repeatMaximized_steady (mode : MaximizeMode) :
    Steady env w (w.repeatMaximized env cursor mode) := by
  have hv : Steady env w (if mode.hasVertical then w.maximizeVertically env cursor else w) :=
    ite_steady maximizeVertically_steady (.refl w)
  exact (ite_steady (hv.trans maximizeHorizontally_steady) hv).trans (setRestoreGeometry_steady _)

theorem repeatMaximized_maxMode : (w.repeatMaximized env cursor w.maxMode).maxMode = w.maxMode := by
  unfold repeatMaximized
  rw [setRestoreGeometry_maxMode]
  cases h : w.maxMode <;> simp [MaximizeMode.hasVertical, MaximizeMode.hasHorizontal, h] <;> rfl

/-- The tiling a window may have that is not maximized. -/
def ProperTile (q : Quicktiles) : Prop := q ≠ .maximize ∧ q.sanitize = q

theorem properTile_none : ProperTile .none := ⟨by decide, rfl⟩

theorem properTile_sanitize (q : Quicktiles) : ProperTile q.sanitize :=
  ⟨q.sanitize_ne_maximize, q.sanitize_sanitize⟩

/-- No interactive move goes on, and an X11 window has a proper frame on the screen. -/
structure Calm (env : Env) (proper : Rect → Prop) (w : Win) : Prop where
  moving : w.moving = false
  electricMaximizing : w.electricMaximizing = false
  synced : env.backend = .x11 → proper w.synced.frameGeometry
  bordered : w.Bordered env

variable {proper : Rect → Prop}

theorem Calm.of_steady (h : Calm env proper w) (hs : Steady env w w') : Calm env proper w' :=
  ⟨hs.moving.trans h.moving, hs.electricMaximizing.trans h.electricMaximizing,
    fun hb => by rw [hs.synced hb]; exact h.synced hb, hs.bordered h.bordered⟩

/-- The invariant of all runs. -/
structure Consistent (env : Env) (proper : Rect → Prop) (w : Win) : Prop extends Calm env proper w where
  tiling : w.maxMode = .restore → ProperTile w.quicktiling

theorem Consistent.of_steady (h : Consistent env proper w) (hs : Steady env w w')
    (hm : w'.maxMode = w.maxMode) : Consistent env proper w' := by
  refine ⟨h.toCalm.of_steady hs, fun hr => ?_⟩
  rw [hs.quicktiling]
  exact h.tiling (hm ▸ hr)

theorem Consistent.retile (h : Consistent env proper w) {q : Quicktiles} (hq : ProperTile q) :
    Consistent env proper { w with quicktiling := q } :=
  ⟨⟨h.moving, h.electricMaximizing, h.synced, h.bordered⟩, fun _ => hq⟩

theorem Consistent.setFrameGeometry (h : Consistent env proper w) (r : Rect) :
    Consistent env proper (w.setFrameGeometry r) := h.of_steady (setFrameGeometry_steady r) rfl

theorem Consistent.setRestoreMaximize (h : Consistent env proper w) (r : Rect) :
    Consistent env proper { w with restoreMaximize := r } :=
  ⟨⟨h.moving, h.electricMaximizing, h.synced, h.bordered⟩, h.tiling⟩

theorem Consistent.storeRestoreGeometry (h : Consistent env proper w) (r : Rect) :
    Consistent env proper (w.storeRestoreGeometry r) := by
  unfold Win.storeRestoreGeometry
  split
  · exact h
  · exact h.setRestoreMaximize r

theorem Consistent.setElectric (h : Consistent env proper w) (q : Quicktiles) :
    Consistent env proper { w with electric := q } :=
  ⟨⟨h.moving, h.electricMaximizing, h.synced, h.bordered⟩, h.tiling⟩

/-- The tiling follows the mode, and nothing else changes that counts here. -/
theorem tileAsMaximized_spec (env : Env) (proper : Rect → Prop) (w : Win) (mode : MaximizeMode) :
    (w.tileAsMaximized mode).maxMode = w.maxMode ∧
      (w.tileAsMaximized mode).quicktiling = (if mode = .full then .maximize else .none) ∧
      (Calm env proper w → Calm env proper (w.tileAsMaximized mode)) := by
  unfold tileAsMaximized
  generalize (if mode = .full then Quicktiles.maximize else .none) = q
  dsimp only
  split <;> exact ⟨rfl, rfl, fun h => ⟨h.moving, h.electricMaximizing, h.synced, h.bordered⟩⟩

section
variable (htool : ¬ env.toolbar)
include htool

theorem updateMaximized_maxMode (hres : w.isResizable env) (mode : MaximizeMode) :
    (w.updateMaximized env cursor mode).maxMode = w.respectMaximizingAspect env cursor mode := by
  unfold updateMaximized
  rw [if_neg (by simp [hres, htool])]
  dsimp only
  split
  · next hm => rw [hm, repeatMaximized_maxMode]
  · rw [(tileAsMaximized_spec env Rect.isValid _ _).1]
    by_cases hr : w.respectMaximizingAspect env cursor mode = .restore
    · exact updateMaximizedImpl_maxMode (.inl hr)
    · exact updateMaximizedImpl_maxMode (.inr (restoreFirst_maxMode hr))

omit htool in
theorem Calm.updateMaximized (h : Calm env proper w) (mode : MaximizeMode) :
    Calm env proper (w.updateMaximized env cursor mode) := by
  unfold Win.updateMaximized
  dsimp only
  split
  · exact h
  · split
    · exact h.of_steady (repeatMaximized_steady _)
    · refine (tileAsMaximized_spec env proper _ _).2.2 (h.of_steady ?_)
      exact (restoreFirst_steady _).trans (updateMaximizedImpl_steady _)

theorem Consistent.updateMaximized (h : Consistent env proper w) (mode : MaximizeMode) :
    Consistent env proper (w.updateMaximized env cursor mode) := by
  refine ⟨h.toCalm.updateMaximized mode, fun hr => ?_⟩
  by_cases hres : w.isResizable env
  · rw [updateMaximized_maxMode htool hres] at hr
    unfold Win.updateMaximized
    rw [if_neg (by simp [hres, htool]), hr]
    dsimp only
    split
    · next hm =>
      rw [(repeatMaximized_steady _).quicktiling]
      exact h.tiling hm.symm
    · rw [(tileAsMaximized_spec env proper _ _).2.1]
      exact properTile_none
  · unfold Win.updateMaximized at hr ⊢
    rw [if_pos (.inl hres)] at hr ⊢
    exact h.tiling hr

/-- Both directions and no direction are never overruled by the aspect. -/
theorem setMaximize_maxMode (hres : w.isResizable env) (both : Bool) :
    (w.setMaximize env cursor both both).maxMode = .ofFlags both both := by
  rw [setMaximize, updateMaximized_maxMode htool hres]
  unfold respectMaximizingAspect
  cases both <;> simp [MaximizeMode.ofFlags]

omit htool in
theorem Consistent.untile (h : Consistent env proper w) : Consistent env proper (w.untile env) := by
  set back : Win := { w with quicktiling := .none }.setFrameGeometry w.restoreMaximize with hdef
  have hback : Consistent env proper back := (h.retile properTile_none).setFrameGeometry _
  exact (hback.setFrameGeometry (env.checkWorkspacePosition back .null .null)).setRestoreMaximize .null

omit htool in
theorem Consistent.tileAt (h : Consistent env proper w) {q : Quicktiles} (hq : ProperTile q) (p : Point) :
    Consistent env proper (w.tileAt env q p) :=
  ((h.retile properTile_none).setFrameGeometry _).retile hq

omit htool in
theorem Consistent.tileNormal (h : Consistent env proper w) (q : Quicktiles) (keyboard : Bool) :
    Consistent env proper (w.tileNormal env cursor q.sanitize keyboard) := by
  unfold Win.tileNormal
  dsimp only
  split
  · exact h.untile
  · split
    · split
      · exact (h.setElectric _).untile
      · have hswap : ProperTile q.sanitize.swapSides :=
          ⟨q.sanitize_swapSides.2, q.sanitize_swapSides.1⟩
        exact ((h.setFrameGeometry _).setElectric _).tileAt hswap _
    · exact h.tileAt (properTile_sanitize q) _

theorem Consistent.tileFromMaximized (h : Consistent env proper w) (q : Quicktiles) (keyboard : Bool) :
    Consistent env proper (w.tileFromMaximized env cursor q.sanitize keyboard) := by
  have hnone : Consistent env proper { w with quicktiling := .none } := h.retile properTile_none
  unfold Win.tileFromMaximized
  dsimp only
  split
  · have hm : Consistent env proper (Win.updateMaximized env cursor _ (.ofFlags false false)) :=
      hnone.updateMaximized htool _
    exact ((hm.setFrameGeometry _).retile (properTile_sanitize q)).setRestoreMaximize _
  · next hq =>
    rw [not_not.mp hq]
    exact hnone.updateMaximized htool _

theorem Consistent.tileMaximize (h : Consistent env proper w) (hres : w.isResizable env) :
    Consistent env proper (w.tileMaximize env cursor) := by
  unfold Win.tileMaximize
  dsimp only
  split
  · exact (h.retile properTile_none).updateMaximized htool _
  · -- The tiling is set before the mode, so the state in between is calm but not consistent.
    have hcalm : Calm env proper { w with quicktiling := .maximize } :=
      ⟨h.moving, h.electricMaximizing, h.synced, h.bordered⟩
    have hfull : Consistent env proper ({ w with quicktiling := .maximize }.setMaximize env cursor true true) := by
      refine ⟨hcalm.updateMaximized _, fun hr => ?_⟩
      rw [setMaximize_maxMode htool (by exact hres)] at hr
      cases hr
    refine Consistent.setRestoreMaximize ?_ _
    split
    · exact hfull.setFrameGeometry _
    · exact hfull

theorem Consistent.setQuicktileMode (h : Consistent env proper w) (q : Quicktiles) (keyboard : Bool) :
    Consistent env proper (w.setQuicktileMode env cursor q keyboard) := by
  have hslot := h.storeRestoreGeometry w.synced.frameGeometry
  have hfull : (w.storeRestoreGeometry w.synced.frameGeometry).fullscreen = w.fullscreen := by
    unfold Win.storeRestoreGeometry
    split <;> rfl
  unfold Win.setQuicktileMode
  split
  · exact h
  · next hres =>
    dsimp only
    split
    · refine hslot.tileMaximize htool ?_
      rw [isResizable, hfull]
      exact not_not.mp hres
    · split
      · exact (hslot.setElectric _).tileFromMaximized htool q keyboard
      · exact (hslot.setElectric _).tileNormal q keyboard

theorem Consistent.updateFullscreenDisable (h : Consistent env proper w) :
    Consistent env proper (w.updateFullscreenDisable env cursor) := by
  unfold Win.updateFullscreenDisable fullscreenRestoreSpecialMode fullscreenRestoreGeometry
  split
  · split
    · exact h.updateMaximized htool _
    · split
      · exact ((h.setQuicktileMode htool _ _).setQuicktileMode htool _ _).setRestoreMaximize _
      · exact h
  · exact (h.setFrameGeometry _).setRestoreMaximize _

theorem Consistent.updateFullscreen (h : Consistent env proper w) (full user : Bool) :
    Consistent env proper (w.updateFullscreen env cursor full user) := by
  have hdeco : Consistent env proper
      (({ w with fullscreen := full }.endMoveResize env).updateDecoration env false) := by
    rw [endMoveResize, if_neg (by simp [h.moving])]
    have hd := updateDecoration_redecorated env { w with fullscreen := full } false
    refine ⟨⟨hd.moving.trans h.moving, hd.electricMaximizing.trans h.electricMaximizing, fun hb => ?_,
      updateDecoration_bordered env _ false⟩, fun hr => ?_⟩
    · rw [hd.synced hb]
      exact h.synced hb
    · rw [hd.quicktiling]
      exact h.tiling (hd.maxMode ▸ hr)
  unfold Win.updateFullscreen
  split
  · exact h
  · split
    · exact h
    · split
      · exact h
      · dsimp only
        split
        · exact (hdeco.storeRestoreGeometry _).setFrameGeometry _
        · exact hdeco.updateFullscreenDisable htool

omit htool in
theorem Consistent.release (h : Consistent env proper w) {s : Synced} (hs : proper s.frameGeometry) :
    Consistent env proper (w.release env s) := by
  have hr := release_released env w s
  refine ⟨⟨hr.moving.trans h.moving, hr.electricMaximizing.trans h.electricMaximizing, fun hb => ?_,
    hr.bordered h.bordered⟩, fun hm => ?_⟩
  · rw [hr.synced]
    split
    · exact hs
    · exact h.synced hb
  · rw [hr.quicktiling]
    exact h.tiling (hr.maxMode ▸ hm)

theorem Consistent.geometryCall (h : Consistent env Rect.isValid w) {c : GeometryCall} (hc : geometryCall env w c = some w') :
    Consistent env Rect.isValid w' := by
  unfold Win.geometryCall at hc
  split at hc
  · cases hc
  · next hs =>
    split at hc
    · cases hc
      exact (h.updateMaximized htool _).release (not_not.mp hs)
    · split at hc
      · cases hc
        exact (h.setFrameGeometry _).release (not_not.mp hs)
      · cases hc
    · cases hc
      exact (h.setQuicktileMode htool _ _).release (not_not.mp hs)
    · cases hc
      exact (h.updateFullscreen htool _ _).release (not_not.mp hs)

end

end Win
end KWinFT.Geometry
