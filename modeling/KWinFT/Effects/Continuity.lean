import KWinFT.Effects.Animation
import KWinFT.Lib.Runs
import Mathlib.Tactic.NormNum

/-! What an animation shows goes on from where it was, but where a backward run ends. -/
namespace KWinFT.Effects
open Lib

variable {K : Type*} [Field K]

namespace TimeLine

/-- The position on the way from source to target. -/
def position (t : TimeLine K) : K := if t.direction = .backward then 1 - t.progress else t.progress

/-- Time that is left. -/
def remaining (t : TimeLine K) : Int := t.duration - t.elapsed

/-- The time line of an animation. -/
structure Sound (t : TimeLine K) : Prop where
  duration_pos : 0 < t.duration
  elapsed_nonneg : 0 ≤ t.elapsed
  elapsed_le : t.elapsed ≤ t.duration
  done_iff : t.done ↔ t.elapsed = t.duration
  strict : t.sourceRedirectMode = .strict
  relaxed : t.targetRedirectMode = .relaxed

section sound
variable {t : TimeLine K}

theorem Sound.update (h : Sound t) (delta : Nat) : Sound (t.update delta) := by
  have hpos := h.duration_pos
  have hnonneg := h.elapsed_nonneg
  unfold TimeLine.update
  split
  · exact h
  · next hdone =>
    dsimp only
    split
    · exact ⟨hpos, hpos.le, Int.le_refl _, iff_of_true rfl rfl, h.strict, h.relaxed⟩
    · next hlt =>
      refine ⟨hpos, ?_, ?_, iff_of_false hdone ?_, h.strict, h.relaxed⟩ <;> dsimp only <;> omega

theorem Sound.setDirection_eq (h : Sound t) {direction : Direction} (hne : t.direction ≠ direction) :
    t.setDirection direction =
      { t with direction, elapsed := t.duration - t.elapsed, done := decide (t.duration ≤ t.duration - t.elapsed) } := by
  have hdone : (if t.done = true ∧ t.targetRedirectMode = .relaxed then false else t.done) = false := by
    simp [h.relaxed]
  unfold TimeLine.setDirection
  rw [if_neg hne, if_pos (.inr h.strict), hdone]
  rfl

theorem Sound.setDirection (h : Sound t) (direction : Direction) : Sound (t.setDirection direction) := by
  have hpos := h.duration_pos
  have hnonneg := h.elapsed_nonneg
  have hle := h.elapsed_le
  by_cases hd : t.direction = direction
  · rw [TimeLine.setDirection, if_pos hd]
    exact h
  · rw [h.setDirection_eq hd]
    refine ⟨hpos, ?_, ?_, ?_, h.strict, h.relaxed⟩ <;> dsimp only
    · omega
    · omega
    · rw [decide_eq_true_iff]
      omega

theorem Sound.setElapsed (h : Sound t) : Sound (t.setElapsed t.duration) := by
  have hpos := h.duration_pos
  unfold TimeLine.setElapsed
  split
  · exact h
  · have hend : t.duration ≤ 0 + t.duration := by omega
    unfold TimeLine.update TimeLine.reset
    dsimp only
    rw [if_neg Bool.false_ne_true, if_pos hend]
    exact ⟨hpos, hpos.le, Int.le_refl _, iff_of_true rfl rfl, h.strict, h.relaxed⟩

theorem setDirection_direction {direction : Direction} : (t.setDirection direction).direction = direction := by
  unfold TimeLine.setDirection
  split
  · assumption
  · rfl

section position
variable [CharZero K]

theorem progress_eq_zero_iff (h : Sound t) : t.progress = 0 ↔ t.elapsed = 0 := by
  have hpos : (t.duration : K) ≠ 0 := Int.cast_ne_zero.mpr h.duration_pos.ne'
  rw [progress, div_eq_zero_iff, or_iff_left hpos, Int.cast_eq_zero]

theorem progress_eq_one_iff (h : Sound t) : t.progress = 1 ↔ t.elapsed = t.duration := by
  have hpos : (t.duration : K) ≠ 0 := Int.cast_ne_zero.mpr h.duration_pos.ne'
  rw [progress, div_eq_one_iff_eq hpos, Int.cast_inj]

/-- A run ends at the target, or back at the source. -/
theorem Sound.position_of_done (h : Sound t) (hdone : t.done) : t.position = if t.direction = .backward then 0 else 1 := by
  rw [position, (progress_eq_one_iff h).mpr (h.done_iff.mp hdone), sub_self]

/-- The way stays where it is when it turns. -/
theorem Sound.position_setDirection (h : Sound t) (direction : Direction) : (t.setDirection direction).position = t.position := by
  have hpos : (t.duration : K) ≠ 0 := Int.cast_ne_zero.mpr h.duration_pos.ne'
  by_cases hd : t.direction = direction
  · rw [TimeLine.setDirection, if_pos hd]
  · have hback : ((t.duration - t.elapsed : Int) : K) / t.duration = 1 - (t.elapsed : K) / t.duration := by
      rw [Int.cast_sub, sub_div, div_self hpos]
    rw [h.setDirection_eq hd]
    unfold position progress
    dsimp only
    rw [hback]
    cases ht : t.direction <;> cases direction <;> simp_all

end position
end sound
end TimeLine

namespace AniData

/-- What an animation shows once it has started. -/
structure Shown (clock : Int) (a : AniData K) : Prop where
  elapsed_nonneg : 0 ≤ a.timeLine.elapsed
  elapsed_le : a.timeLine.elapsed ≤ a.timeLine.duration
  done : a.timeLine.elapsed = a.timeLine.duration → a.timeLine.done
  interpolated : ∀ i, a.interpolated clock i =
    a.from_ i + a.timeLine.easingCurve.valueForProgress a.timeLine.position * (a.to_ i - a.from_ i)
  ended : a.timeLine.done → ∀ i, a.interpolated clock i =
    if a.timeLine.direction = .backward then a.from_ i else a.to_ i

/-- A step without a jump. -/
structure Continues (a : AniData K) (e : Int × AniEvent K) (a' : AniData K) : Prop extends Shown e.1 a' where
  redirect : ∀ direction flags, e.2 = .redirect direction flags → a'.interpolated e.1 = a.interpolated e.1
  retarget : ∀ target ms, e.2 = .retarget target ms → a'.interpolated e.1 = a.interpolated e.1
  remaining : ∀ target, e.2 = .retarget target (-1) → a'.timeLine.remaining = a.timeLine.remaining

/-- The event that leaves the animation at the end of a backward run. -/
def EndsBackward (a : AniData K) : AniEvent K → Prop
  | .update delta => a.timeLine.direction = .backward ∧ a.timeLine.duration ≤ a.timeLine.elapsed + delta
  | .redirect .backward _ => a.timeLine.position = 0
  | .redirect .forward _ => False
  | .complete => a.timeLine.direction = .backward
  | .retarget _ _ => False

/-- Backward runs end only where there is no way between source and target, and a new target comes with a time. -/
def Smooth (a : AniData K) (e : Int × AniEvent K) : Prop :=
  (a.EndsBackward e.2 → a.from_ = a.to_) ∧ ∀ target ms, e.2 = .retarget target ms → 0 < ms

/-- The states of smooth runs. -/
structure Kept (a : AniData K) : Prop where
  sound : a.timeLine.Sound
  home : a.timeLine.direction = .backward → a.timeLine.done → a.from_ = a.to_

section step
variable [CharZero K] {a a' : AniData K} {clock : Int}

theorem shown_iff (h : a.timeLine.Sound) (hstarted : ¬ clock < a.startTime) :
    Shown clock a ↔ (a.timeLine.direction = .backward → a.timeLine.done → a.from_ = a.to_) := by
  have hinterpolated : ∀ i, a.interpolated clock i = if a.timeLine.done then a.to_ i
      else a.from_ i + a.timeLine.easingCurve.valueForProgress a.timeLine.position * (a.to_ i - a.from_ i) := by
    intro i
    unfold interpolated TimeLine.value TimeLine.position
    rw [if_neg hstarted]
    cases a.timeLine.done <;> rfl
  constructor
  · intro hs hback hdone
    funext i
    have := hs.ended hdone i
    rw [if_pos hback, hinterpolated, if_pos hdone] at this
    exact this.symm
  · intro home
    refine ⟨h.elapsed_nonneg, h.elapsed_le, h.done_iff.mpr, fun i => ?_, fun hdone i => ?_⟩
    · rw [hinterpolated]
      split
      · next hdone =>
        rw [h.position_of_done hdone]
        split
        · next hback => rw [home hback hdone, EasingCurve.zero, zero_mul, add_zero]
        · rw [EasingCurve.one, one_mul, add_sub_cancel]
      · rfl
    · rw [hinterpolated, if_pos hdone]
      split
      · next hback => rw [home hback hdone]
      · rfl

theorem Kept.shown (h : Kept a) (hstarted : ¬ clock < a.startTime) : Shown clock a :=
  (shown_iff h.sound hstarted).mpr h.home

omit [CharZero K] in
private theorem continues_iff {e : AniEvent K} (he : ∀ target ms, e ≠ .retarget target ms)
    (hredirect : ∀ direction flags, e = .redirect direction flags → Shown clock a' →
      a'.interpolated clock = a.interpolated clock) : Continues a (clock, e) a' ↔ Shown clock a' :=
  ⟨fun h => h.toShown, fun h => ⟨h, fun _ _ hd => hredirect _ _ hd h, fun _ _ hd => absurd hd (he _ _),
    fun _ hd => absurd hd (he _ _)⟩⟩

omit [CharZero K] in
private theorem smooth_iff {e : AniEvent K} (he : ∀ target ms, e ≠ .retarget target ms) :
    Smooth a (clock, e) ↔ (a.EndsBackward e → a.from_ = a.to_) :=
  and_iff_left fun target ms hd => absurd hd (he target ms)

private theorem exact_update (h : Kept a) (hstarted : ¬ clock < a.startTime) (delta : Nat) :
    Continues a (clock, .update delta) (a.apply clock (.update delta)) ↔ Smooth a (clock, .update delta) := by
  have hend : (a.timeLine.update delta).direction = a.timeLine.direction ∧
      ((a.timeLine.update delta).done ↔ a.timeLine.duration ≤ a.timeLine.elapsed + delta) := by
    unfold TimeLine.update
    split
    · next hdone =>
      have := h.sound.done_iff.mp hdone
      exact ⟨rfl, iff_of_true hdone (by omega)⟩
    · next hdone =>
      dsimp only
      split
      · next hle => exact ⟨rfl, iff_of_true rfl hle⟩
      · next hle => exact ⟨rfl, iff_of_false hdone hle⟩
  have hshown := shown_iff (a := a.apply clock (.update delta)) (h.sound.update delta) hstarted
  rw [continues_iff (fun _ _ he => by cases he) (fun _ _ he => by cases he),
    smooth_iff (fun _ _ he => by cases he), hshown]
  change ((a.timeLine.update delta).direction = .backward → (a.timeLine.update delta).done → _) ↔ _
  rw [hend.1, hend.2]
  exact and_imp.symm

private theorem exact_complete (h : Kept a) (hstarted : ¬ clock < a.startTime) :
    Continues a (clock, .complete) (a.apply clock .complete) ↔ Smooth a (clock, .complete) := by
  have hend : (a.timeLine.setElapsed a.timeLine.duration).direction = a.timeLine.direction ∧
      (a.timeLine.setElapsed a.timeLine.duration).done := by
    have hpos := h.sound.duration_pos
    unfold TimeLine.setElapsed
    split
    · next heq => exact ⟨rfl, h.sound.done_iff.mpr heq.symm⟩
    · have hle : a.timeLine.duration ≤ 0 + a.timeLine.duration := by omega
      unfold TimeLine.update TimeLine.reset
      dsimp only
      rw [if_neg Bool.false_ne_true, if_pos hle]
      exact ⟨rfl, rfl⟩
  have hshown := shown_iff (a := a.apply clock .complete) h.sound.setElapsed hstarted
  rw [continues_iff (fun _ _ he => by cases he) (fun _ _ he => by cases he),
    smooth_iff (fun _ _ he => by cases he), hshown]
  change ((a.timeLine.setElapsed a.timeLine.duration).direction = .backward →
    (a.timeLine.setElapsed a.timeLine.duration).done → _) ↔ _
  rw [hend.1, imp_iff_right hend.2]
  rfl

private theorem exact_redirect (h : Kept a) (hstarted : ¬ clock < a.startTime) (direction : Direction)
    (flags : TerminationFlags) :
    Continues a (clock, .redirect direction flags) (a.apply clock (.redirect direction flags)) ↔
      Smooth a (clock, .redirect direction flags) := by
  have hsound := h.sound.setDirection direction
  have hposition := h.sound.position_setDirection direction
  have hshown := shown_iff (a := a.apply clock (.redirect direction flags)) hsound hstarted
  have hcurve : (a.timeLine.setDirection direction).easingCurve = a.timeLine.easingCurve := by
    unfold TimeLine.setDirection
    split <;> rfl
  have hstays : Shown clock (a.apply clock (.redirect direction flags)) →
      (a.apply clock (.redirect direction flags)).interpolated clock = a.interpolated clock := by
    intro hs
    funext i
    rw [hs.interpolated, (h.shown hstarted).interpolated]
    change _ + (a.timeLine.setDirection direction).easingCurve.valueForProgress
      (a.timeLine.setDirection direction).position * _ = _
    rw [hcurve, hposition]
    rfl
  rw [continues_iff (fun _ _ he => by cases he) (fun _ _ _ => hstays), smooth_iff (fun _ _ he => by cases he), hshown]
  change ((a.timeLine.setDirection direction).direction = .backward → (a.timeLine.setDirection direction).done → _) ↔ _
  rw [TimeLine.setDirection_direction]
  cases direction with
  | forward => exact iff_of_true (fun hd => by cases hd) False.elim
  | backward =>
    rw [imp_iff_right rfl, hsound.done_iff, ← TimeLine.progress_eq_one_iff hsound]
    change _ ↔ (a.timeLine.position = 0 → _)
    rw [← hposition, TimeLine.position, TimeLine.setDirection_direction, if_pos rfl, sub_eq_zero, eq_comm]
    rfl

private theorem exact_retarget (h : Kept a) (hstarted : ¬ clock < a.startTime) (target : FPx2 K) (ms : Int) :
    (Continues a (clock, .retarget target ms) (a.apply clock (.retarget target ms)) ↔
      Smooth a (clock, .retarget target ms)) ∧ (0 < ms → (a.apply clock (.retarget target ms)).timeLine.Sound) := by
  have hdirection := h.sound.setDirection .forward
  have hsmooth : Smooth a (clock, .retarget target ms) ↔ 0 < ms :=
    ⟨fun hs => hs.2 target ms rfl, fun hms => ⟨False.elim, fun _ _ he => by cases he; exact hms⟩⟩
  have hduration : ((a.timeLine.setDirection .forward).setDuration ms).duration = ms ∧
      ((a.timeLine.setDirection .forward).setDuration ms).direction = .forward ∧
      ((a.timeLine.setDirection .forward).setDuration ms).sourceRedirectMode = .strict ∧
      ((a.timeLine.setDirection .forward).setDuration ms).targetRedirectMode = .relaxed := by
    unfold TimeLine.setDuration
    split
    · next heq => exact ⟨heq.symm, TimeLine.setDirection_direction, hdirection.strict, hdirection.relaxed⟩
    · exact ⟨rfl, TimeLine.setDirection_direction, hdirection.strict, hdirection.relaxed⟩
  obtain ⟨hlength, hforward, hstrict, hrelaxed⟩ := hduration
  have hsound : 0 < ms → (a.apply clock (.retarget target ms)).timeLine.Sound := fun hms =>
    ⟨hlength.symm ▸ hms, Int.le_refl _, hlength.symm ▸ hms.le,
      iff_of_false Bool.false_ne_true fun heq => hms.ne (heq.trans hlength), hstrict, hrelaxed⟩
  refine ⟨?_, hsound⟩
  rw [hsmooth]
  constructor
  · intro hc
    have hle : 0 ≤ ms := hlength ▸ hc.elapsed_le
    have hne : (0 : Int) ≠ ms := fun heq => Bool.false_ne_true (hc.done (heq.trans hlength.symm))
    omega
  · intro hms
    have hshown := (shown_iff (a := a.apply clock (.retarget target ms)) (hsound hms) hstarted).mpr
      fun hback => by cases hforward.symm.trans hback
    have hprogress : (a.apply clock (.retarget target ms)).timeLine.position = 0 := by
      have hzero := (TimeLine.progress_eq_zero_iff (hsound hms)).mpr rfl
      rw [TimeLine.position, if_neg (fun hback => by cases hforward.symm.trans hback), hzero]
    refine ⟨hshown, fun _ _ he => (by cases he), fun _ _ _ => ?_, fun _ he => ?_⟩
    · funext i
      rw [hshown.interpolated, hprogress, EasingCurve.zero, zero_mul, add_zero]
      rfl
    · cases he
      exact absurd hms (by decide)

private theorem exact_step (h : Kept a) {e : Int × AniEvent K} (hs : a.step e = some a') :
    (Continues a e a' ↔ Smooth a e) ∧ (Smooth a e → a'.timeLine.Sound) ∧ ¬ e.1 < a'.startTime := by
  obtain ⟨hstarted, hs⟩ := Option.ite_none_left_eq_some.mp hs
  cases hs
  obtain ⟨clock, e⟩ := e
  cases e with
  | update delta => exact ⟨exact_update h hstarted delta, fun _ => h.sound.update delta, hstarted⟩
  | redirect direction flags =>
    exact ⟨exact_redirect h hstarted direction flags, fun _ => h.sound.setDirection direction, hstarted⟩
  | complete => exact ⟨exact_complete h hstarted, fun _ => h.sound.setElapsed, hstarted⟩
  | retarget target ms =>
    obtain ⟨hexact, hsound⟩ := exact_retarget h hstarted target ms
    exact ⟨hexact, fun hsmooth => hsound (hsmooth.2 target ms rfl), hstarted⟩

theorem Kept.step (h : Kept a) {e : Int × AniEvent K} (hok : Smooth a e) (hs : a.step e = some a') : Kept a' := by
  obtain ⟨hexact, hsound, hstarted⟩ := exact_step h hs
  exact ⟨hsound hok, (shown_iff (hsound hok) hstarted).mp (hexact.mpr hok).toShown⟩

omit [CharZero K] in
theorem Kept.animate {ms : Int} (hms : 0 < ms) (id : Nat) (to_ from_ : FPx2 K) (curve : EasingCurve K) (delay : Int)
    (waitAtSource keepAtTarget : Bool) :
    Kept (AniData.animate clock id ms to_ curve delay from_ waitAtSource keepAtTarget) := by
  have hstart : ((TimeLine.initial : TimeLine K).setDirection .forward).setDuration ms =
      { (TimeLine.initial : TimeLine K) with duration := ms } := by
    have hzero : qRound (((0 : Int) : ℚ) / ((1000 : Int) : ℚ) * ms) = 0 := by
      rw [Int.cast_zero, zero_div, zero_mul, qRound, Int.floor_eq_zero_iff]
      norm_num
    have hnot : (false || decide ((0 : Int) = ms)) = false := by simp [hms.ne]
    unfold TimeLine.setDirection TimeLine.initial
    rw [if_pos rfl]
    unfold TimeLine.setDuration
    split
    · next heq => rw [heq]
    · dsimp only
      rw [hzero, hnot]
  constructor
  · unfold AniData.animate
    rw [hstart]
    exact ⟨hms, Int.le_refl _, hms.le, iff_of_false Bool.false_ne_true hms.ne, rfl, rfl⟩
  · unfold AniData.animate
    rw [hstart]
    exact fun hback => by cases hback

end step

/-- An animation goes on without a jump through a run from its start exactly when it ends no backward run and gets no new
target without a time. -/
theorem continues_iff_smooth [CharZero K] (clock : Int) (id : Nat) (ms : Int) (to_ from_ : FPx2 K)
    (curve : EasingCurve K) (delay : Int) (waitAtSource keepAtTarget : Bool) (hms : 0 < ms)
    (es : List (Int × AniEvent K)) :
    let a := animate clock id ms to_ curve delay from_ waitAtSource keepAtTarget
    (∀ now, ¬ now < a.startTime → Shown now a) ∧ (EachStep step Continues a es ↔ Throughout step Smooth a es) := by
  have hkept : Kept (animate clock id ms to_ curve delay from_ waitAtSource keepAtTarget) :=
    .animate hms id to_ from_ curve delay waitAtSource keepAtTarget
  exact ⟨fun now hnow => hkept.shown hnow,
    eachStep_iff_throughout Kept (fun _ _ _ h hok hs => h.step hok hs) (fun _ _ _ h hs => (exact_step h hs).1) hkept es⟩

/-- From opaque to transparent and, half way, back again. -/
private def fading : AniData ℚ := animate 0 1 100 (fun _ => 0) (.linear ℚ) 0 (fun _ => 1) true false

/-- An animation that is turned twice before it is back at its source. -/
theorem fading_turned : (∀ now, ¬ now < fading.startTime → Shown now fading) ∧
    (EachStep step Continues fading [(16, .update 50), (32, .redirect .backward ⟨true, false⟩), (48, .update 20),
        (64, .redirect .forward ⟨true, false⟩), (80, .complete)] ↔
      Throughout step Smooth fading [(16, .update 50), (32, .redirect .backward ⟨true, false⟩), (48, .update 20),
        (64, .redirect .forward ⟨true, false⟩), (80, .complete)]) :=
  continues_iff_smooth 0 1 100 (fun _ => 0) (fun _ => 1) (.linear ℚ) 0 true false (by decide) _

/-- An animation that is turned at its source shows its target from then on. -/
theorem fading_jumps : ∃ a, fading.step (16, .redirect .backward ⟨false, false⟩) = some a ∧
    fading.interpolated 16 0 = 1 ∧ a.interpolated 16 0 = 0 ∧ a.isActive ∧
    ¬ Continues fading (16, .redirect .backward ⟨false, false⟩) a := by
  have hjump : (fading.apply 16 (.redirect .backward ⟨false, false⟩)).interpolated 16 0 = 0 := by decide +kernel
  have hshown : fading.interpolated 16 0 = 1 := by decide +kernel
  refine ⟨_, rfl, hshown, hjump, by decide +kernel, fun h => ?_⟩
  have hstays := congrFun (h.redirect .backward ⟨false, false⟩ rfl) 0
  rw [hshown] at hstays
  exact absurd (hjump.symm.trans hstays) (by decide)

end AniData
end KWinFT.Effects
