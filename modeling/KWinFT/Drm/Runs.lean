import KWinFT.Drm.Steps
import KWinFT.Lib.Runs

/-! Runs of all outputs. -/
namespace KWinFT.Drm
open Lib

namespace DrmBackend
variable {σ : Hardware} {s t : DrmBackend} {o : OutputId} {x : DrmOutput}

theorem set_output (s : DrmBackend) (o : OutputId) (x : DrmOutput) (other : OutputId) :
    (s.set o x).output other = if other = o then x else s.output other := Function.update_apply ..

/-- All outputs are in step with the device. -/
def InStep (s : DrmBackend) : Prop := ∀ o, (s.output o).Sound

theorem InStep.set (h : s.InStep) (hx : x.Sound) : (s.set o x).InStep := by
  intro other
  rw [set_output]
  split
  · exact hx
  · exact h other

/-- When all outputs that are there are enabled, the list of enabled outputs is up to date. -/
theorem InStep.updateOutputs (h : s.InStep) (he : ∀ o, (s.output o).deleted = false → (s.output o).enabled) :
    s.updateOutputs = s := by
  have hout : (fun o => { s.output o with inEnabledOutputs := !(s.output o).deleted }) = s.output := by
    funext o
    have hl := (h o).listed.enabled
    have hin : (!(s.output o).deleted) = (s.output o).inEnabledOutputs := by
      rw [hl]
      cases hd : (s.output o).deleted with
      | true => rfl
      | false => rw [he o hd]; rfl
    rw [hin]
  exact congrArg (fun output => { s with output }) hout

theorem InStep.activate (h : s.InStep) (active : Bool) : (s.activate σ active).InStep := by
  unfold DrmBackend.activate
  dsimp only
  split
  · unfold reactivate
    split
    · exact h
    · intro o
      dsimp only
      split
      · exact (h o).requested (s.output o).mode (s.output o).transform (s.output o).primaryPlane.transformation
      · exact h o
  · exact h

/-- No step fails, and all outputs stay in step. -/
theorem InStep.respond (h : s.InStep) {e : Event} (hf : s.Fits e) : Succeeds (s.respond σ e) InStep := by
  cases e with
  | paint o frame =>
    refine Succeeds.bind ((h o).paint s.sessionActive frame) fun r ⟨hr, _⟩ => Succeeds.some ?_
    exact h.set hr
  | vblank o => exact Succeeds.some (h.set (h o).vblank)
  | pageFlip o test real =>
    refine Succeeds.ite (fun he => ?_) fun _ => Succeeds.some h
    have he : (s.output o).device.flipEvents ≠ 0 := by
      rw [Bool.and_eq_true, decide_eq_true_eq] at he
      exact he.2
    have hflip : Succeeds (((s.set o (s.output o).eventRead).output o).pageFlipped test real) fun y =>
        Succeeds y.swapped fun z => z.Sound ∧ (s.output o).pageFlipPending ∧ z.pageFlipPending = false := by
      rw [set_output, if_pos rfl]
      exact (h o).flipped he test real
    refine Succeeds.bind hflip fun y hy => Succeeds.bind hy fun z ⟨hz, _⟩ => Succeeds.some fun other => ?_
    change (((s.set o (s.output o).eventRead).set o z).output other).Sound
    rw [set_output]
    split
    · exact hz
    · next hne =>
      rw [set_output, if_neg hne]
      exact h other
  | updateDpms o mode test real =>
    refine Succeeds.ite (fun _ => ?_) fun _ => Succeeds.some h
    exact Succeeds.bind ((h o).updateDpms mode test real) fun y ⟨hy, _⟩ => Succeeds.some (h.set hy)
  | setEnabled o enable test real =>
    obtain ⟨hd, he, hp⟩ := hf
    exact Succeeds.bind ((h o).setEnabled hd he hp test real) fun y ⟨hy, _⟩ => Succeeds.some (h.set hy)
  | updateMode o modes modeIndex =>
    refine Succeeds.some (h.set ?_)
    unfold DrmOutput.updateMode
    cases modes[modeIndex]? with
    | none => exact h o
    | some mode =>
      dsimp only [Option.elim]
      split
      · exact h o
      · exact (h o).requested mode (s.output o).transform (s.output o).primaryPlane.transformation
  | updateTransform o transform => exact Succeeds.some (h.set ((h o).requested (s.output o).mode transform _))
  | setGeometry o globalPos =>
    have hs := (h o).toSteady.known (s.output o).deleted (s.output o).enabled (s.output o).inEnabledOutputs
      (s.output o).swapPending globalPos
    exact Succeeds.some (h.set ⟨hs, ⟨(h o).listed.swapPending, (h o).listed.disabled, (h o).listed.enabled⟩⟩)
  | sessionActiveChanged active => exact Succeeds.some (h.activate active)
  | disconnected o =>
    obtain ⟨hd, hp, hothers⟩ := hf
    refine Succeeds.bind ((h o).removed hp) fun y ⟨hy, _, hyd⟩ => Succeeds.some ?_
    have hset : (s.set o y).InStep := h.set hy
    rw [hset.updateOutputs]
    · exact hset
    · intro other hother
      rw [set_output] at hother ⊢
      split at hother
      · exact absurd (hyd.symm.trans hother) (by simp)
      · next hne =>
        rw [if_neg hne]
        exact hothers other hne hother
  | connected o mode =>
    obtain ⟨hd, hothers⟩ := hf
    have hset : (s.set o ((s.output o).connected mode)).InStep := h.set ((h o).connected hd mode).1
    refine Succeeds.some ?_
    rw [hset.updateOutputs]
    · exact hset
    · intro other hother
      rw [set_output] at hother ⊢
      split
      · rfl
      · next hne =>
        rw [if_neg hne] at hother
        exact hothers other hother

def plain : Hardware := ⟨fun _ => true, fun _ _ => false, true⟩

end DrmBackend
end KWinFT.Drm
