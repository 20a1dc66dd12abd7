import KWinFT.Drm.Commits

/-! Whatever happens to an output keeps its buffers, its mode and what the compositor knows of it in step with the device. -/
namespace KWinFT.Drm
open Lib

namespace DrmOutput
variable {x y : DrmOutput} {b : BufferId} {test real : Reply}

section parts

theorem Listed.of_alike (h : Listed x) (ha : Alike x y) : Listed y := by
  obtain ⟨hd, he, hi, hs, hp⟩ := ha
  exact ⟨by rw [hs, hi, hp, h.swapPending], by rw [hi, hp]; exact h.disabled, by rw [hi, hd, he, h.enabled]⟩

theorem Steady.rests (h : Steady x) (hp : x.pageFlipPending = false) : Rests x := by
  rcases h.stage with hr | ⟨b, hf⟩
  · exact hr
  · exact absurd (hp.symm.trans hf.pageFlipPending) Bool.false_ne_true

theorem Steady.flies (h : Steady x) (hp : x.pageFlipPending) : ∃ b, Flies x b := by
  rcases h.stage with hr | hf
  · exact absurd (hr.pageFlipPending.symm.trans hp) Bool.false_ne_true
  · exact hf

/-- A picture that is on its way is one of an output that the compositor has. -/
theorem Listed.of_pending (h : Listed x) (hp : x.pageFlipPending) : x.inEnabledOutputs := by
  by_contra hn
  have hnot : x.pageFlipPending = false := h.disabled (Bool.eq_false_of_not_eq_true hn)
  exact Bool.false_ne_true (hnot.symm.trans hp)

/-- What the stage of an output is about stays the same. -/
structure SameStage (x y : DrmOutput) : Prop where
  current : y.primaryPlane.current = x.primaryPlane.current
  next : y.primaryPlane.next = x.primaryPlane.next
  nextPlanesFlipList : y.nextPlanesFlipList = x.nextPlanesFlipList
  pageFlipPending : y.pageFlipPending = x.pageFlipPending
  buffers : y.buffers = x.buffers
  queued : y.device.queued = x.device.queued
  flipEvents : y.device.flipEvents = x.device.flipEvents
  framebuffer : y.device.framebuffer = x.device.framebuffer
  dpms : x.dpms = .on → y.dpms = .on

theorem SameStage.rests (h : SameStage x y) (hr : Rests x) : Rests y := by
  obtain ⟨hc, hn, hl, hp, hb, hq, he, hf, -⟩ := h
  refine ⟨⟨hn.trans hr.next, ?_, hq.trans hr.queued, he.trans hr.flipEvents, ?_⟩, hp.trans hr.pageFlipPending,
    hl.trans hr.nextPlanesFlipList⟩
  · rw [hb, hc, hr.buffers]
  · rw [hf, hc, hr.framebuffer]

theorem SameStage.flies (h : SameStage x y) (hx : Flies x b) : Flies y b := by
  obtain ⟨hc, hn, hl, hp, hb, hq, he, hf, hd⟩ := h
  refine ⟨hp.trans hx.pageFlipPending, hn.trans hx.next, hl.trans hx.nextPlanesFlipList, ?_, ?_, ?_, hd hx.dpms⟩
  · rw [hc]
    exact hx.current
  · rw [hb, hc, hx.buffers]
  · rw [hq, he, hf, hc]
    exact hx.device

theorem SameStage.stage (h : SameStage x y) (hx : Rests x ∨ ∃ b, Flies x b) : Rests y ∨ ∃ b, Flies y b :=
  hx.imp h.rests fun ⟨b, hf⟩ => ⟨b, h.flies hf⟩

theorem Steady.settled (h : Steady x) (hp : x.pageFlipPending = false) : x.atomicOffPending = false := by
  by_contra hn
  have hw := (h.dpms.waits (Bool.eq_true_of_not_eq_false hn)).1
  exact Bool.false_ne_true (hp.symm.trans hw)

theorem Working.restore (h : Working x) : Working x.restore := by
  unfold DrmOutput.restore
  cases hw : x.lastWorkingState with
  | none => exact h
  | some w => exact ⟨fun v hv m hm => h.shown v (hw.trans hv) m hm, fun hn => absurd hn (by simp), h.off⟩

theorem Working.switchedOff (hoff : x.dpmsModePending ≠ .on) : Working x.switchedOff :=
  ⟨fun _ _ _ hm => absurd hm (by simp [DrmOutput.switchedOff]), fun _ hon => absurd hon hoff, fun _ => rfl⟩

/-- Without a new mode the device goes on with the last one. -/
theorem Working.handedOver (h : Working x) (hon : x.dpms = .on) (b : BufferId) : Working (x.handedOver b) := by
  unfold DrmOutput.handedOver
  by_cases hm : x.modesetRequested
  · rw [if_pos hm, if_pos hm]
    refine ⟨fun w hw m hmode => ?_, fun _ _ => ⟨_, rfl, rfl, rfl, rfl, rfl⟩, fun hn => absurd hon hn⟩
    obtain rfl := Option.some.inj hw
    exact ⟨(Option.some.inj hmode).symm, rfl⟩
  · rw [if_neg hm, if_neg hm]
    obtain ⟨w, hw, hmode, hx⟩ := h.kept (Bool.eq_false_of_not_eq_true hm) hon
    refine ⟨fun v hv m hdevice => ?_, fun _ _ => ⟨w, hw, hmode, hx⟩, fun hn => absurd hon hn⟩
    obtain rfl := Option.some.inj (hw.symm.trans hv)
    exact ⟨Option.some.inj (hdevice.symm.trans hmode), hx.2.2⟩

theorem Working.requested (h : Working x) (hd : y.device.mode = x.device.mode ∧ y.device.rotation = x.device.rotation)
    (hl : y.lastWorkingState = x.lastWorkingState) (hm : y.modesetRequested) (hoff : y.dpms ≠ .on → x.dpms ≠ .on) :
    Working y := by
  refine ⟨fun w hw m hmode => ?_, fun hn => absurd (hn.symm.trans hm) Bool.false_ne_true, fun hn => ?_⟩
  · rw [hd.2]
    exact h.shown w (hl.symm.trans hw) m (hd.1.symm.trans hmode)
  · exact hd.1.trans (h.off (hoff hn))

/-- What the compositor knows and where the output is are other matters. -/
theorem Steady.known (h : Steady x) (deleted enabled inEnabledOutputs : Bool) (swapPending : Option Bool)
    (globalPos : Geometry.Point) : Steady { x with deleted, enabled, inEnabledOutputs, swapPending, globalPos } := by
  have hs : SameStage x { x with deleted, enabled, inEnabledOutputs, swapPending, globalPos } :=
    ⟨rfl, rfl, rfl, rfl, rfl, rfl, rfl, rfl, id⟩
  exact ⟨hs.stage h.stage, h.numbered, ⟨h.working.shown, h.working.kept, h.working.off⟩, ⟨h.dpms.waits, h.dpms.agreed⟩⟩

/-- A new mode is asked for. -/
theorem Steady.requested (h : Steady x) (hs : SameStage x y) (hm : y.modesetRequested)
    (hd : y.device.mode = x.device.mode ∧ y.device.rotation = x.device.rotation) (hl : y.lastWorkingState = x.lastWorkingState)
    (hc : y.created = x.created)
    (hdpms : y.dpms = x.dpms ∧ y.dpmsModePending = x.dpmsModePending ∧ y.atomicOffPending = x.atomicOffPending) : Steady y := by
  obtain ⟨hdpms, hpending, hoff⟩ := hdpms
  refine ⟨hs.stage h.stage, fun b hb => ?_, h.working.requested hd hl hm (hdpms ▸ id), fun ha => ?_, fun ha => ?_⟩
  · rw [hs.buffers] at hb
    exact (h.numbered b hb).trans_eq hc.symm
  · obtain ⟨hp, hon, -⟩ := h.dpms.waits (hoff ▸ ha)
    exact ⟨hs.pageFlipPending ▸ hp, hpending ▸ hon, hm⟩
  · exact hpending.trans ((h.dpms.agreed (hoff ▸ ha)).trans hdpms.symm)

/-- The modes and rotations that are asked for are not shown before the next commit. -/
theorem Sound.requested (h : Sound x) (mode : Mode) (transform : Transform) (transformation : Transformation) :
    Sound { x with
      mode
      transform
      primaryPlane := { x.primaryPlane with transformation }
      modesetRequested := true } := by
  refine ⟨h.toSteady.requested ?_ rfl ⟨rfl, rfl⟩ rfl rfl ⟨rfl, rfl, rfl⟩, ?_⟩
  · exact ⟨rfl, rfl, rfl, rfl, rfl, rfl, rfl, rfl, id⟩
  · exact ⟨h.listed.swapPending, h.listed.disabled, h.listed.enabled⟩

end parts

section dpms

/-- Switching off, be it refused or done. -/
theorem Steady.dpmsAtomicOff (h : Rests x) (hn : ∀ b ∈ x.buffers, b < x.created) (hw : Working x)
    (hoff : x.dpmsModePending ≠ .on) (hm : x.modesetRequested) (test real : Reply) :
    Succeeds (x.dpmsAtomicOff test real) fun r => Steady r.1 ∧ Alike x r.1 := by
  refine (h.dpmsAtomicOff hoff hm test real).mono ?_
  rintro ⟨_, done⟩ (rfl | rfl | rfl)
  · refine ⟨⟨.inl ⟨⟨rfl, h.buffers, h.queued, h.flipEvents, h.framebuffer⟩, h.pageFlipPending, rfl⟩, hn, ?_, ?_⟩,
      ⟨rfl, rfl, rfl, rfl, rfl⟩⟩
    · exact ⟨hw.shown, hw.kept, hw.off⟩
    · exact ⟨fun hp => absurd hp Bool.false_ne_true, fun _ => rfl⟩
  · refine ⟨⟨.inl ⟨⟨rfl, rfl, h.queued, h.flipEvents, rfl⟩, h.pageFlipPending, rfl⟩, ?_, ?_, ?_⟩, ⟨rfl, rfl, rfl, rfl, rfl⟩⟩
    · exact fun b hb => absurd hb (Finset.notMem_empty b)
    · exact ⟨hw.shown, hw.kept, hw.off⟩
    · exact ⟨fun hp => absurd hp Bool.false_ne_true, fun _ => rfl⟩
  · refine ⟨⟨.inl ⟨⟨rfl, rfl, h.queued, h.flipEvents, rfl⟩, h.pageFlipPending, rfl⟩, ?_, .switchedOff hoff, ?_⟩,
      ⟨rfl, rfl, rfl, rfl, rfl⟩⟩
    · exact fun b hb => absurd hb (Finset.notMem_empty b)
    · exact ⟨fun hp => absurd hp Bool.false_ne_true, fun _ => rfl⟩

/-- An output that is switched off waits for the picture that was handed over. -/
theorem Steady.dpmsAtomicOffWhenFlipped (h : Steady x) (hm : x.modesetRequested) {mode : DpmsMode} (hoff : mode ≠ .on)
    (test real : Reply) :
    Succeeds ({ x with dpmsModePending := mode, atomicOffPending := true }.dpmsAtomicOffWhenFlipped test real) fun y =>
      Steady y ∧ Alike x y := by
  have hstage : SameStage x { x with dpmsModePending := mode, atomicOffPending := true } :=
    ⟨rfl, rfl, rfl, rfl, rfl, rfl, rfl, rfl, id⟩
  have hworking : Working { x with dpmsModePending := mode, atomicOffPending := true } :=
    ⟨h.working.shown, h.working.kept, h.working.off⟩
  refine Succeeds.ite (fun hp => Succeeds.some ⟨⟨hstage.stage h.stage, h.numbered, hworking, ?_⟩, ⟨rfl, rfl, rfl, rfl, rfl⟩⟩)
    fun hp => Succeeds.map ?_
  · exact ⟨fun _ => ⟨hp, hoff, hm⟩, fun hn => absurd hn (by simp)⟩
  · have hr := hstage.rests (h.rests (Bool.eq_false_of_not_eq_true hp))
    refine (Steady.dpmsAtomicOff hr h.numbered hworking hoff hm test real).mono ?_
    exact fun r hr => ⟨hr.1, hr.2.deleted, hr.2.enabled, hr.2.inEnabledOutputs, hr.2.swapPending, hr.2.pageFlipPending⟩

/-- An output that is switched on needs a new mode. -/
theorem Steady.dpmsAtomicOn (h : Steady x) : Succeeds ({ x with dpmsModePending := .on, modesetRequested := true }.dpmsAtomicOn)
    fun y => Steady y ∧ Alike x y := by
  have hstage : ∀ y : DrmOutput, y = { x with
      dpmsModePending := .on, modesetRequested := true, atomicOffPending := false, dpms := .on } → Steady y := by
    rintro _ rfl
    have hstage : SameStage x { x with
        dpmsModePending := .on, modesetRequested := true, atomicOffPending := false, dpms := .on } :=
      ⟨rfl, rfl, rfl, rfl, rfl, rfl, rfl, rfl, fun _ => rfl⟩
    refine ⟨hstage.stage h.stage, h.numbered, h.working.requested ⟨rfl, rfl⟩ rfl rfl fun hn => absurd rfl hn, ?_⟩
    exact ⟨fun hp => absurd hp Bool.false_ne_true, fun _ => rfl⟩
  unfold DrmOutput.dpmsAtomicOn
  dsimp only
  by_cases ha : x.atomicOffPending
  · rw [if_pos ha, if_pos (h.dpms.waits ha).1]
    exact Succeeds.some ⟨hstage _ rfl, ⟨rfl, rfl, rfl, rfl, rfl⟩⟩
  · rw [if_neg ha]
    refine Succeeds.some ⟨hstage _ ?_, ⟨rfl, rfl, rfl, rfl, rfl⟩⟩
    rw [← Bool.eq_false_of_not_eq_true ha]
    rfl

theorem Sound.updateDpms (h : Sound x) (mode : DpmsMode) (test real : Reply) :
    Succeeds (x.updateDpms mode test real) fun y => Sound y ∧ Alike x y := by
  have hsound {y : DrmOutput} (hy : Steady y ∧ Alike x y) : Sound y ∧ Alike x y := ⟨⟨hy.1, h.listed.of_alike hy.2⟩, hy.2⟩
  unfold DrmOutput.updateDpms
  refine Succeeds.ite (fun _ => Succeeds.some ⟨h, ⟨rfl, rfl, rfl, rfl, rfl⟩⟩) fun _ => ?_
  refine Succeeds.ite (fun hon => ?_) fun hoff => ?_
  · subst hon
    exact h.toSteady.dpmsAtomicOn.mono fun y => hsound
  · have hm : Steady { x with modesetRequested := true } :=
      (h.requested x.mode x.transform x.primaryPlane.transformation).toSteady
    refine (hm.dpmsAtomicOffWhenFlipped rfl hoff test real).mono fun y hy => hsound ⟨hy.1, ?_⟩
    exact ⟨hy.2.deleted, hy.2.enabled, hy.2.inEnabledOutputs, hy.2.swapPending, hy.2.pageFlipPending⟩

theorem releaseGbm_eq (h : Rests x ∨ ∃ b, Flies x b) : x.releaseGbm = some x := by
  have hmem (b : BufferId) (hb : x.primaryPlane.current = some b) : b ∈ x.buffers := by
    rcases h with hr | ⟨c, hf⟩
    · rw [hr.buffers, hb]
      exact Finset.mem_singleton_self b
    · rw [hf.buffers, hb]
      exact Finset.mem_insert_of_mem (Finset.mem_singleton_self b)
  unfold DrmOutput.releaseGbm
  split
  · rfl
  · next b hb => exact if_pos (hmem b hb)

theorem Listed.enabled_of (h : Listed x) (hd : x.deleted = false) (he : x.enabled) : x.inEnabledOutputs = true := by
  rw [h.enabled, hd, he]
  rfl

/-- Outputs are switched off for good when no picture is on its way. -/
theorem Sound.setEnabled (h : Sound x) (hd : x.deleted = false) {enable : Bool} (he : x.enabled ≠ enable)
    (hp : enable = false → x.pageFlipPending = false) (test real : Reply) :
    Succeeds (x.setEnabled enable test real) fun y => Sound y ∧ y.pageFlipPending = x.pageFlipPending := by
  cases enable with
  | true =>
    have hoff : x.enabled = false := Bool.eq_false_of_not_eq_true he
    have hin : x.inEnabledOutputs = false := by rw [h.listed.enabled, hoff, Bool.and_false]
    have hs : Steady { x with enabled := true } := h.known x.deleted true x.inEnabledOutputs x.swapPending x.globalPos
    refine Succeeds.bind hs.dpmsAtomicOn ?_
    rintro y ⟨hy, ha⟩
    have hyin : y.inEnabledOutputs = false := ha.inEnabledOutputs.trans hin
    have hyp : y.pageFlipPending = false := ha.pageFlipPending.trans (h.listed.disabled hin)
    have hyswap : y.swapPending = none := ha.swapPending.trans (h.listed.swapPending.trans (if_neg (by simp [hin])))
    unfold DrmOutput.enableOutput
    rw [if_neg (by simp [hyin]), if_pos rfl]
    have hlisted := hy.known y.deleted y.enabled true (some (y.swapPending.getD false)) y.globalPos
    refine Succeeds.some ⟨⟨hlisted, ?_⟩, ha.pageFlipPending⟩
    refine ⟨?_, fun hn => absurd hn (by simp), ?_⟩
    · rw [if_pos rfl, hyswap, hyp]
      rfl
    · dsimp only
      rw [ha.deleted, ha.enabled, hd]
      rfl
  | false =>
    have hon : x.enabled = true := Bool.eq_true_of_not_eq_false he
    have hin := h.listed.enabled_of hd hon
    have hpage := hp rfl
    let z : DrmOutput := { x with enabled := false, modesetRequested := true, inEnabledOutputs := false, swapPending := none }
    have hs : SameStage x z := ⟨rfl, rfl, rfl, rfl, rfl, rfl, rfl, rfl, id⟩
    have hz : Steady z := h.toSteady.requested hs rfl ⟨rfl, rfl⟩ rfl rfl ⟨rfl, rfl, rfl⟩
    have hlisted : Listed z := ⟨rfl, fun _ => hpage, (Bool.and_false _).symm⟩
    have hy : SameStage x { z with dpmsModePending := .off } := ⟨rfl, rfl, rfl, rfl, rfl, rfl, rfl, rfl, id⟩
    refine Succeeds.bind ⟨{ z with dpmsModePending := .off }, ?_, rfl⟩ ?_
    · unfold DrmOutput.enableOutput
      rw [if_neg (by simp [hin]), if_neg (by simp)]
      exact releaseGbm_eq (hy.stage h.stage)
    · rintro _ rfl
      refine (hz.dpmsAtomicOffWhenFlipped rfl (show DpmsMode.off ≠ .on by decide) test real).mono ?_
      rintro w ⟨hw, ha⟩
      exact ⟨⟨hw, hlisted.of_alike ha⟩, ha.pageFlipPending⟩

/-- A removed output takes its buffer along. -/
theorem Sound.removed (h : Sound x) (hp : x.pageFlipPending = false) :
    Succeeds x.removed fun y => Sound y ∧ y.pageFlipPending = false ∧ y.deleted := by
  have hr := h.rests hp
  let z : DrmOutput := { x with inEnabledOutputs := false, swapPending := none }
  have hz : Rests z := (⟨rfl, rfl, rfl, rfl, rfl, rfl, rfl, rfl, id⟩ : SameStage x z).rests hr
  refine Succeeds.bind ⟨z, releaseGbm_eq (.inl hz), rfl⟩ ?_
  rintro _ rfl
  refine Succeeds.bind ⟨_, hz.delete_current, rfl⟩ ?_
  rintro _ rfl
  refine Succeeds.some ⟨⟨⟨.inl ?_, ?_, ?_, ?_⟩, ?_⟩, hp, rfl⟩
  · exact ⟨⟨hz.next, rfl, hz.queued, hz.flipEvents, rfl⟩, hz.pageFlipPending, hz.nextPlanesFlipList⟩
  · exact fun b hb => absurd hb (Finset.notMem_empty b)
  · exact ⟨h.working.shown, h.working.kept, h.working.off⟩
  · exact ⟨h.dpms.waits, h.dpms.agreed⟩
  · exact ⟨rfl, fun _ => hp, rfl⟩

theorem Sound.connected (h : Sound x) (hd : x.deleted) (mode : Mode) :
    Sound (x.connected mode) ∧ (x.connected mode).pageFlipPending = x.pageFlipPending := by
  have hin : x.inEnabledOutputs = false := by rw [h.listed.enabled, hd, Bool.not_true, Bool.false_and]
  have hp := h.listed.disabled hin
  have hr := h.rests hp
  refine ⟨⟨⟨.inl ⟨⟨hr.next, hr.buffers, hr.queued, hr.flipEvents, hr.framebuffer⟩, rfl, rfl⟩, h.numbered, ?_, ?_⟩, ?_⟩, hp.symm⟩
  · exact ⟨fun w hw => absurd hw (by simp [DrmOutput.connected]), fun hn => absurd hn (by simp [DrmOutput.connected]),
      fun hn => absurd rfl hn⟩
  · exact ⟨fun ha => absurd ha (by simp [DrmOutput.connected]), fun _ => rfl⟩
  · exact ⟨rfl, fun hn => absurd hn (by simp [DrmOutput.connected]), rfl⟩

end dpms

section present
variable {B : Finset BufferId}

theorem delete_extra (hb : x.buffers = insert b B) (hnot : b ∉ B) (hf : x.device.framebuffer ≠ some b)
    (hq : x.device.queued ≠ some b) : x.delete (some b) = some { x with buffers := B } := by
  rw [delete_some (hb ▸ Finset.mem_insert_self b B), hb, Finset.erase_insert hnot, Device.rmFB, if_neg hf, if_neg hq]

/-- A picture that is not handed over is deleted, and nothing else. -/
theorem Sound.thrown (h : Sound { x with buffers := B }) (hp : x.pageFlipPending = false) (hb : x.buffers = insert b B)
    (hnot : b ∉ B) :
    Succeeds ((x.delete (some b)).map (·, false)) fun r => Sound r.1 ∧ r.1.pageFlipPending = false ∧ r.2 = false := by
  have hr : Rests { x with buffers := B } := h.rests hp
  have hf : x.device.framebuffer ≠ some b := by
    intro hf
    have hc : x.primaryPlane.current = some b := hr.framebuffer.symm.trans hf
    have hB : B = x.primaryPlane.current.toFinset := hr.buffers
    exact hnot (by simp [hB, hc])
  have hq : x.device.queued ≠ some b := fun hq => absurd (hr.queued.symm.trans hq) (by simp)
  rw [delete_extra hb hnot hf hq]
  exact Succeeds.some ⟨h, hp, rfl⟩

theorem Sound.refused (h : Sound x) (hp : x.pageFlipPending = false) : Sound x.refused := by
  have hr := h.rests hp
  refine ⟨⟨.inl ⟨⟨rfl, hr.buffers, hr.queued, hr.flipEvents, hr.framebuffer⟩, hp, rfl⟩, h.numbered, ?_, ?_⟩, ?_⟩
  · exact ⟨h.working.shown, h.working.kept, h.working.off⟩
  · exact ⟨fun ha => absurd ((h.settled hp).symm.trans ha) Bool.false_ne_true, fun _ => rfl⟩
  · exact ⟨h.listed.swapPending, h.listed.disabled, h.listed.enabled⟩

theorem Sound.restore (h : Sound x) : Sound x.restore := by
  have hw := h.working.restore
  unfold DrmOutput.restore at hw ⊢
  cases hl : x.lastWorkingState with
  | none => exact h
  | some w =>
    rw [hl] at hw
    refine ⟨⟨?_, h.numbered, hw, ?_⟩, ⟨h.listed.swapPending, h.listed.disabled, h.listed.enabled⟩⟩
    · refine SameStage.stage (x := x) ?_ h.stage
      exact ⟨rfl, rfl, rfl, rfl, rfl, rfl, rfl, rfl, id⟩
    · exact ⟨fun ha => ⟨(h.dpms.waits ha).1, (h.dpms.waits ha).2.1, rfl⟩, h.dpms.agreed⟩

theorem restore_buffers : x.restore.buffers = x.buffers ∧ x.restore.pageFlipPending = x.pageFlipPending ∧
    { x.restore with buffers := B } = { x with buffers := B }.restore := by
  obtain ⟨_, _, _, _, _, _, _, _, _, _, _, _, _, _, last, _, _, _⟩ := x
  cases last <;> exact ⟨rfl, rfl, rfl⟩

/-- A picture is handed over when none is on its way. -/
theorem Sound.handedOver (h : Sound x) (hp : x.pageFlipPending = false) (hin : x.inEnabledOutputs) (hon : x.dpms = .on)
    (hnot : b ∉ x.buffers) {created : Nat} (hc : ∀ c ∈ insert b x.buffers, c < created) :
    Sound { { x with buffers := insert b x.buffers, created }.handedOver b with swapPending := some true } := by
  have hr := h.rests hp
  have hw := h.working.handedOver hon b
  refine ⟨⟨.inr ⟨b, rfl, rfl, ?_, ?_, ?_, .inl ⟨rfl, hr.flipEvents, hr.framebuffer⟩, hon⟩, hc, ?_, ?_⟩, ?_⟩
  · exact congrArg (· + 1) hr.nextPlanesFlipList
  · intro hcurrent
    have hc : x.primaryPlane.current = some b := hcurrent
    exact hnot (by simp [hr.buffers, hc])
  · exact congrArg (insert b) hr.buffers
  · exact ⟨hw.shown, hw.kept, hw.off⟩
  · exact ⟨fun ha => absurd ((h.settled hp).symm.trans ha) Bool.false_ne_true, h.dpms.agreed⟩
  · exact ⟨(if_pos hin).symm, fun hn => absurd (hn.symm.trans hin) Bool.false_ne_true, h.listed.enabled⟩

theorem Sound.paint (h : Sound x) (active : Bool) (frame : Frame) :
    Succeeds (x.paint active frame) fun r => Sound r.1 ∧
      (r.2 → x.pageFlipPending = false ∧ r.1.pageFlipPending) ∧ (r.2 = false → r.1.pageFlipPending = x.pageFlipPending) := by
  unfold DrmOutput.paint
  refine Succeeds.ite (fun hswap => ?_) fun _ => Succeeds.some ⟨h, fun ht => absurd ht (by simp), fun _ => rfl⟩
  have hin : x.inEnabledOutputs = true := by
    by_contra hn
    exact absurd (hswap.symm.trans (h.listed.swapPending.trans (if_neg hn))) (by simp)
  have hp : x.pageFlipPending = false :=
    Option.some.inj ((h.listed.swapPending.trans (if_pos hin)).symm.trans hswap)
  have hnot : x.created ∉ x.buffers := fun hm => lt_irrefl _ (h.numbered _ hm)
  let x₁ : DrmOutput := { x with created := x.created + 1 }
  have h₁ : Sound x₁ := by
    have hs : SameStage x x₁ := ⟨rfl, rfl, rfl, rfl, rfl, rfl, rfl, rfl, id⟩
    refine ⟨⟨hs.stage h.stage, fun b hb => (h.numbered b hb).trans (Nat.lt_succ_self _), ?_, ?_⟩, ?_⟩
    · exact ⟨h.working.shown, h.working.kept, h.working.off⟩
    · exact ⟨h.dpms.waits, h.dpms.agreed⟩
    · exact ⟨h.listed.swapPending, h.listed.disabled, h.listed.enabled⟩
  have hthrown {y : DrmOutput} (hy : Sound { y with buffers := x.buffers }) (hyp : y.pageFlipPending = false)
      (hb : y.buffers = insert x.created x.buffers) :
      Succeeds ((y.delete (some x.created)).map (·, false)) fun r => Sound r.1 ∧
        (r.2 → x.pageFlipPending = false ∧ r.1.pageFlipPending) ∧ (r.2 = false → r.1.pageFlipPending = x.pageFlipPending) := by
    refine (Sound.thrown hy hyp hb hnot).mono fun r ⟨hr, hrp, hr2⟩ => ⟨hr, fun ht => ?_, fun _ => hrp.trans hp.symm⟩
    exact absurd (hr2.symm.trans ht) Bool.false_ne_true
  let x₂ : DrmOutput := { x₁ with buffers := insert x.created x.buffers }
  refine Succeeds.ite (fun _ => hthrown (y := x₂) h₁ hp rfl) fun _ => ?_
  have hpresent : Succeeds (x₂.present active x.created frame.test frame.real) fun r =>
      (r = (x₂.handedOver x.created, true) ∧ x.dpms = .on) ∨ r.2 = false ∧ Sound { r.1 with buffers := x.buffers } ∧
        r.1.pageFlipPending = false ∧ r.1.buffers = insert x.created x.buffers := by
    refine Succeeds.ite (fun _ => Succeeds.some (.inr ⟨rfl, h₁, hp, rfl⟩)) fun hon => ?_
    have hon : x₂.dpmsModePending = .on := not_not.mp hon
    have hrefused : Sound x₁.refused := h₁.refused hp
    refine (presentAtomically_cases (x := x₂) hon hp active x.created frame.test frame.real).mono ?_
    rintro _ (rfl | rfl | rfl | rfl)
    · exact .inr ⟨rfl, h₁, hp, rfl⟩
    · exact .inr ⟨rfl, hrefused, hp, rfl⟩
    · obtain ⟨hb, hpage, hwith⟩ := restore_buffers (x := x₂.refused) (B := x.buffers)
      refine .inr ⟨rfl, ?_, hpage.trans hp, hb⟩
      rw [hwith]
      exact hrefused.restore
    · exact .inl ⟨rfl, (h.dpms.agreed (h.settled hp)).symm.trans hon⟩
  refine Succeeds.bind hpresent ?_
  rintro ⟨y, done⟩ (⟨hy, hon⟩ | ⟨rfl, hy, hyp, hb⟩)
  · obtain ⟨rfl, rfl⟩ := Prod.mk.inj hy
    rw [if_pos rfl, if_pos (show (x₂.handedOver x.created).swapPending = some false from hswap)]
    refine Succeeds.some ⟨h.handedOver hp hin hon hnot fun c hc => ?_, fun _ => ⟨hp, rfl⟩, fun hn => absurd hn (by simp)⟩
    rcases Finset.mem_insert.mp hc with rfl | hc
    · exact Nat.lt_succ_self _
    · exact (h.numbered c hc).trans (Nat.lt_succ_self _)
  · rw [if_neg (by simp)]
    exact hthrown hy hyp hb

end present

section flips

theorem Sound.vblank (h : Sound x) : Sound { x with device := x.device.vblank } := by
  cases hq : x.device.queued with
  | none =>
    have hd : x.device.vblank = x.device := by
      unfold Device.vblank
      rw [hq]
    rw [hd]
    exact h
  | some b =>
    have hd : x.device.vblank =
        { x.device with framebuffer := some b, queued := none, flipEvents := x.device.flipEvents + 1 } := by
      unfold Device.vblank
      rw [hq]
    rw [hd]
    refine ⟨⟨.inr ?_, h.numbered, ⟨h.working.shown, h.working.kept, h.working.off⟩, ⟨h.dpms.waits, h.dpms.agreed⟩⟩,
      ⟨h.listed.swapPending, h.listed.disabled, h.listed.enabled⟩⟩
    rcases h.stage with hr | ⟨c, hf⟩
    · exact absurd (hr.queued.symm.trans hq) (by simp)
    · rcases hf.device with ⟨hc, he, -⟩ | ⟨hn, -⟩
      · obtain rfl := Option.some.inj (hc.symm.trans hq)
        refine ⟨c, hf.pageFlipPending, hf.next, hf.nextPlanesFlipList, hf.current, hf.buffers, .inr ⟨rfl, ?_, rfl⟩, hf.dpms⟩
        exact congrArg (· + 1) he
      · exact absurd (hn.symm.trans hq) (by simp)

/-- The buffer that was on the screen before goes when the next one is there. -/
theorem flipBufferWithDelete_eq (hn : x.primaryPlane.next = some b) (hc : x.primaryPlane.current ≠ some b)
    (hb : x.buffers = insert b x.primaryPlane.current.toFinset) (hf : x.device.framebuffer = some b)
    (hq : x.device.queued = none) : x.flipBufferWithDelete = some { x with
      buffers := {b}, primaryPlane := { x.primaryPlane with current := some b, next := none } } := by
  have hdelete : x.delete x.primaryPlane.current = some { x with buffers := {b} } := by
    cases hcurrent : x.primaryPlane.current with
    | none =>
      rw [hcurrent] at hb
      change x.buffers = {b} at hb
      have hx : x = { x with buffers := {b} } := by rw [← hb]
      exact congrArg some hx
    | some c =>
      rw [hcurrent] at hb
      change x.buffers = {b, c} at hb
      have hne : c ≠ b := fun e => hc (hcurrent.trans (congrArg some e))
      refine delete_extra ?_ (by simpa using hne) ?_ ?_
      · rw [hb, Finset.pair_comm]
      · rw [hf]
        exact fun e => hne (Option.some.inj e).symm
      · rw [hq]
        simp
  unfold flipBufferWithDelete
  rw [if_pos (by rw [hn]; exact hc), hdelete, Option.bind_eq_bind, Option.bind_some, DrmOutput.flipBuffer, hn]

/-- What is left of the event of a flip. -/
def eventRead (x : DrmOutput) : DrmOutput := { x with device := { x.device with flipEvents := x.device.flipEvents - 1 } }

theorem Sound.pageFlipped (h : Sound x) (he : x.device.flipEvents ≠ 0) (test real : Reply) :
    Succeeds (x.eventRead.pageFlipped test real) fun y => Steady y ∧ Alike { x with pageFlipPending := false } y := by
  rcases h.stage with hr | ⟨b, hf⟩
  · exact absurd hr.flipEvents he
  · obtain ⟨hq, hevents, hframebuffer⟩ : x.device.queued = none ∧ x.device.flipEvents = 1 ∧ x.device.framebuffer = some b := by
      rcases hf.device with ⟨-, hn, -⟩ | hd
      · exact absurd hn he
      · exact hd
    have hin : x.inEnabledOutputs = true := h.listed.of_pending hf.pageFlipPending
    have hdeleted : x.deleted = false := by
      have hl := h.listed.enabled.symm.trans hin
      rw [Bool.and_eq_true, Bool.not_eq_true'] at hl
      exact hl.1
    unfold DrmOutput.pageFlipped
    rw [if_neg (by simp [eventRead, hf.pageFlipPending])]
    dsimp only
    rw [if_neg (by simp [eventRead, hdeleted]), if_neg (by simp [eventRead, hf.next])]
    let y : DrmOutput := { x with
      pageFlipPending := false
      buffers := {b}
      primaryPlane := { x.primaryPlane with current := some b, next := none }
      nextPlanesFlipList := 0
      device := { x.device with flipEvents := x.device.flipEvents - 1 } }
    have hflip : DrmOutput.flipBuffersWithDelete { x.eventRead with pageFlipPending := false } x.nextPlanesFlipList =
        some { y with nextPlanesFlipList := x.nextPlanesFlipList } := by
      have hone := flipBufferWithDelete_eq (x := { x.eventRead with pageFlipPending := false }) hf.next hf.current hf.buffers
        hframebuffer hq
      rw [hf.nextPlanesFlipList, flipBuffersWithDelete, hone, ← hf.nextPlanesFlipList]
      rfl
    have hy : Rests y := ⟨⟨rfl, rfl, hq, Nat.sub_eq_zero_of_le hevents.le, hframebuffer⟩, rfl, rfl⟩
    have hnumbered : ∀ c ∈ y.buffers, c < y.created := by
      intro c hc
      obtain rfl := Finset.mem_singleton.mp hc
      exact h.numbered c (hf.buffers ▸ Finset.mem_insert_self c _)
    have hworking : Working y := ⟨h.working.shown, h.working.kept, h.working.off⟩
    refine Succeeds.bind ⟨_, hflip, rfl⟩ ?_
    rintro _ rfl
    refine Succeeds.ite (fun ha => ?_) fun ha => ?_
    · obtain ⟨-, hoff, hm⟩ := h.dpms.waits ha
      refine Succeeds.map ((Steady.dpmsAtomicOff hy hnumbered hworking hoff hm test real).mono fun r hr => ⟨hr.1, ?_⟩)
      exact ⟨hr.2.deleted, hr.2.enabled, hr.2.inEnabledOutputs, hr.2.swapPending, hr.2.pageFlipPending⟩
    · refine Succeeds.some ⟨⟨.inl hy, hnumbered, hworking, fun hn => absurd hn ha, ?_⟩, ⟨rfl, rfl, rfl, rfl, rfl⟩⟩
      exact h.dpms.agreed

/-- The event of a flip lets the compositor paint again. -/
theorem Sound.flipped (h : Sound x) (he : x.device.flipEvents ≠ 0) (test real : Reply) :
    Succeeds (x.eventRead.pageFlipped test real) fun y => Succeeds y.swapped fun z =>
      Sound z ∧ x.pageFlipPending ∧ z.pageFlipPending = false := by
  have hp : x.pageFlipPending = true := by
    by_contra hn
    exact he (h.rests (Bool.eq_false_of_not_eq_true hn)).flipEvents
  have hin : x.inEnabledOutputs = true := h.listed.of_pending hp
  refine (h.pageFlipped he test real).mono fun y ⟨hy, ha⟩ => ?_
  have hswap : y.swapPending = some true := ha.swapPending.trans (h.listed.swapPending.trans (by rw [if_pos hin, hp]))
  unfold DrmOutput.swapped
  rw [hswap]
  refine Succeeds.some ⟨⟨hy.known y.deleted y.enabled y.inEnabledOutputs (some false) y.globalPos, ?_⟩, hp, ha.pageFlipPending⟩
  have hyin : y.inEnabledOutputs = true := ha.inEnabledOutputs.trans hin
  have hyp : y.pageFlipPending = false := ha.pageFlipPending
  refine ⟨?_, fun _ => hyp, ?_⟩
  · dsimp only
    rw [if_pos hyin, hyp]
  · dsimp only
    rw [ha.inEnabledOutputs, ha.deleted, ha.enabled, h.listed.enabled]

end flips
end DrmOutput
end KWinFT.Drm
