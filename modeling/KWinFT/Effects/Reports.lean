import KWinFT.Effects.Kept
import Mathlib.Order.Hom.Basic

/-! The pass after painting reports what has ended, and nothing is lost in it, exactly when no callback cancels an animation
that stands before the reported one in the list of its window. -/
namespace KWinFT.Effects
variable {K : Type*} [Field K]

namespace PostPaint
open AnimationEffect

section rounds
variable {e₀ : AnimationEffect K} {clock : Nat → Int} {s s' : PostPaint K} {w : Nat} {a : AniData K}
  {animationEnded : Callback K}

theorem round_over (hentry : s.entry = none) : s.round animationEnded clock = some s := by
  unfold round
  rw [hentry]

theorem round_leave (hentry : s.entry = some w) (hend : s.anim = (s.effect.animations w).length) :
    s.round animationEnded clock = some (s.leaveEntry w) := by
  have ha : (s.effect.animations w)[s.anim]? = none := List.getElem?_eq_none hend.ge
  unfold round
  rw [hentry]
  dsimp only
  rw [ha]
  exact if_pos hend

theorem round_pass (hentry : s.entry = some w) (ha : (s.effect.animations w)[s.anim]? = some a)
    (hended : ¬ a.ended (clock s.rounds)) :
    s.round animationEnded clock = some { s with
      anim := s.anim + 1, animCounter := s.animCounter + 1, rounds := s.rounds + 1, passed := s.passed ++ [a.id] } := by
  unfold round
  split
  · next he => rw [hentry] at he; cases he
  · next he =>
    obtain rfl := Option.some.inj (hentry.symm.trans he)
    rw [ha]
    exact if_neg hended

theorem round_report (hentry : s.entry = some w) (ha : (s.effect.animations w)[s.anim]? = some a)
    (hended : a.ended (clock s.rounds)) :
    s.round animationEnded clock =
      (s.report animationEnded clock w a).map fun s => { s with rounds := s.rounds + 1 } := by
  unfold round
  rw [hentry]
  dsimp only
  rw [ha]
  exact if_pos hended

/-- How far the pass has come. -/
def settled (s : PostPaint K) : Nat := (s.passed ++ s.reported).length

/-- Where the callback spares what is behind, a round does not fail and comes closer to the end, or something is started. -/
theorem Kept.round (h : Kept e₀ clock s) (hclock : Monotone clock) (hspares : Spares animationEnded clock s) :
    ∃ s', s.round animationEnded clock = some s' ∧ Kept e₀ clock s' ∧ (s.entry ≠ none →
      s'.entries + s.effect.started.length + s.settled < s.entries + s'.effect.started.length + s'.settled) := by
  rcases hentry : s.entry with _ | w
  · exact ⟨s, round_over hentry, h, fun hno => absurd rfl hno⟩
  · obtain ⟨hw, hanim, hle⟩ := h.place w hentry
    rcases ha : (s.effect.animations w)[s.anim]? with _ | a
    · obtain ⟨hkept, hless⟩ := h.leave hentry ha
      refine ⟨s.leaveEntry w, round_leave hentry (Nat.le_antisymm hle (List.getElem?_eq_none_iff.mp ha)), hkept, fun _ => ?_⟩
      exact Nat.add_lt_add_right (Nat.add_lt_add_right hless _) _
    · by_cases hended : a.ended (clock s.rounds) = true
      · obtain ⟨hkept, ⟨b, hb, hid⟩, hentries⟩ := h.callback hspares hentry ha hended
        have hkept' := hkept.remove hclock hentry hb
        obtain ⟨hw', -, -⟩ := hkept.place w hentry
        have hlt : s.anim < ((s.callback animationEnded clock w a).animations w).length := (List.getElem?_eq_some_iff.mp hb).1
        have hanim' : (if (s.callback animationEnded clock w a).animationsTouched then s.animCounter else s.anim) = s.anim := by
          rw [← hanim, ite_self]
        refine ⟨_, ?_, hkept', fun _ => ?_⟩
        · rw [round_report hentry ha hended]
          unfold report
          dsimp only
          rw [hanim', if_neg fun hno => hno.2 hw', if_pos hlt, ← hid]
          rfl
        · have hlen : (s.passed ++ (s.reported ++ [b.id])).length = s.settled + 1 := by
            rw [← List.append_assoc, List.length_append]
            rfl
          have hcloser := Nat.add_lt_add_of_le_of_lt hentries (Nat.lt_add_one s.settled)
          rw [← hlen] at hcloser
          exact hcloser
      · refine ⟨_, round_pass hentry ha hended, h.pass hclock hentry ha hended, fun _ => ?_⟩
        have hlen : ((s.passed ++ [a.id]) ++ s.reported).length = s.settled + 1 := by
          unfold settled
          simp only [List.length_append, List.length_singleton]
          omega
        have hcloser := Nat.add_lt_add_left (Nat.lt_add_one s.settled) (s.entries + s.effect.started.length)
        rw [← hlen] at hcloser
        exact hcloser

end rounds

section harmful
variable {e e' : AnimationEffect K} {clock : Nat → Int} {s : PostPaint K} {w : Nat} {a : AniData K} {action : Action K}

/-- The ids before an animation in the list of a window. -/
def before (e : AnimationEffect K) (w : Nat) (a : AniData K) : List Nat :=
  ((e.animations w).map (·.id)).takeWhile (· ≠ a.id)

private theorem takeWhile_filter {l : List Nat} {i j : Nat} (hj : i ≠ j) :
    (l.filter (· ≠ j)).takeWhile (· ≠ i) = (l.takeWhile (· ≠ i)).filter (· ≠ j) := by
  induction l with
  | nil => rfl
  | cons k l ih =>
    by_cases hk : k = j
    · have hki : k ≠ i := fun he => hj (he.symm.trans hk)
      rw [List.filter_cons_of_neg (by simpa using hk), List.takeWhile_cons_of_pos (by simpa using hki),
        List.filter_cons_of_neg (by simpa using hk), ih]
    · rw [List.filter_cons_of_pos (by simpa using hk)]
      by_cases hki : k = i
      · rw [List.takeWhile_cons_of_neg (by simpa using hki), List.takeWhile_cons_of_neg (by simpa using hki), List.filter_nil]
      · rw [List.takeWhile_cons_of_pos (by simpa using hki), List.takeWhile_cons_of_pos (by simpa using hki),
          List.filter_cons_of_pos (by simpa using hk), ih]

private theorem takeWhile_append {l l' : List Nat} {i : Nat} (hi : i ∈ l) :
    (l ++ l').takeWhile (· ≠ i) = l.takeWhile (· ≠ i) := by
  induction l with
  | nil => cases hi
  | cons k l ih =>
    by_cases hki : k = i
    · rw [List.cons_append, List.takeWhile_cons_of_neg (by simpa using hki), List.takeWhile_cons_of_neg (by simpa using hki)]
    · have hmem : i ∈ l := (List.mem_cons.mp hi).resolve_left (Ne.symm hki)
      rw [List.cons_append, List.takeWhile_cons_of_pos (by simpa using hki), List.takeWhile_cons_of_pos (by simpa using hki),
        ih hmem]

/-- What holds in the middle of the callback for an animation, whatever it cancels. -/
structure Tracked (s : PostPaint K) (w : Nat) (a : AniData K) (e : AnimationEffect K) : Prop where
  sound : e.Sound
  just : e.justEndedAnimation = a.id
  later : Later s.effect e
  origin : ∀ id, e.Present id → s.effect.Present id ∨ id ∈ e.started
  gone : ∀ id ∈ e.cancelled, id ≤ e.animCounter ∧ ¬ e.Present id
  at_ : a.id ∈ (e.animations w).map (·.id)
  before : (before e w a).Sublist (before s.effect w a)

private theorem ids_at (hjust : e.justEndedAnimation = a.id) (hat : a.id ∈ (e.animations w).map (·.id))
    (hp : Performed e (clock s.rounds) action e') :
    a.id ∈ (e'.animations w).map (·.id) ∧ (before e' w a).Sublist (before e w a) := by
  unfold before
  cases hp with
  | nothing same => exact ⟨same ▸ hat, same ▸ .refl _⟩
  | started window a' _ _ animations =>
    rw [animations, List.map_append, takeWhile_append hat]
    exact ⟨List.mem_append_left _ hat, .refl _⟩
  | modified animationId f _ hf _ animations =>
    rw [animations, map_changed_ids hf]
    exact ⟨hat, .refl _⟩
  | cancelled animationId _ other _ _ _ animations =>
    have hne : a.id ≠ animationId := hjust ▸ other.symm
    have hids : (e'.animations w).map (·.id) = ((e.animations w).map (·.id)).filter (· ≠ animationId) := by
      rw [animations, List.filter_map]
      rfl
    rw [hids, takeWhile_filter hne]
    exact ⟨List.mem_filter.mpr ⟨hat, decide_eq_true hne⟩, List.filter_sublist⟩

theorem Tracked.perform (h : Tracked s w a e) (clock : Nat → Int) (action : Action K) :
    Tracked s w a (e.perform (clock s.rounds) action) := by
  have hp := h.sound.performed (clock s.rounds) action
  have hl := Later.perform e (clock s.rounds) action
  generalize e.perform (clock s.rounds) action = e' at hp hl ⊢
  have hacc := hp.accounted h.sound
  obtain ⟨hat, hbefore⟩ := ids_at h.just h.at_ hp
  refine ⟨hp.sound h.sound, hacc.just.trans h.just, h.later.trans hl, fun id hid => ?_, fun id hid => ?_, hat,
    hbefore.trans h.before⟩
  · rcases hacc.origin id hid with hid | hid
    · exact (h.origin id hid).imp_right fun hid => hl.started hid
    · exact .inr hid
  · rcases hacc.cancelled id hid with hid | ⟨hle, hgone⟩
    · obtain ⟨hle, hgone⟩ := h.gone id hid
      exact ⟨hle.trans hl.counter, fun hp => hgone (hl.fresh id hle hp)⟩
    · exact ⟨hle.trans hl.counter, hgone⟩

/-- What is cancelled stays away, however the callback goes on. -/
private theorem tracked_callback (clock : Nat → Int) {actions : List (Action K)} {id : Nat} (h : Tracked s w a e) (hid : id ≤ s.effect.animCounter)
    (hother : id ≠ a.id) (hmem : .cancel id ∈ actions) :
    Tracked s w a (actions.foldl (fun e action => e.perform (clock s.rounds) action) e) ∧
      ¬ (actions.foldl (fun e action => e.perform (clock s.rounds) action) e).Present id := by
  obtain ⟨first, rest, rfl⟩ := List.append_of_mem hmem
  rw [List.foldl_append, List.foldl_cons]
  have hfirst := Lib.foldl_preserves (P := Tracked s w a) (f := fun e action => e.perform (clock s.rounds) action) first
    (fun e action _ he => he.perform clock action) h
  generalize first.foldl _ e = e₁ at hfirst ⊢
  have hgone : ¬ (e₁.perform (clock s.rounds) (.cancel id)).Present id :=
    hfirst.sound.cancel_gone (hfirst.just ▸ hother)
  have hcancel := hfirst.perform clock (.cancel id)
  refine Lib.foldl_preserves (P := fun e => Tracked s w a e ∧ ¬ e.Present id) rest (fun e action _ he => ?_)
    ⟨hcancel, hgone⟩
  exact ⟨he.1.perform clock action, fun hp => he.2 ((Later.perform e (clock s.rounds) action).fresh id (hid.trans he.1.later.counter) hp)⟩

private theorem ne_of_takeWhile_lt {l : List Nat} {i j k : Nat} (hl : l.Nodup) (hlt : (l.takeWhile (· ≠ i)).length < k)
    (hj : l[k]? = some j) : j ≠ i := by
  induction l generalizing k with
  | nil => cases hj
  | cons x l ih =>
    obtain ⟨hx, hl⟩ := List.nodup_cons.mp hl
    obtain ⟨k, rfl⟩ : ∃ k', k = k' + 1 := ⟨k - 1, by omega⟩
    rw [List.getElem?_cons_succ] at hj
    by_cases hxi : x = i
    · rintro rfl
      exact hx (hxi ▸ List.mem_of_getElem? hj)
    · rw [List.takeWhile_cons_of_pos (by simpa using hxi), List.length_cons] at hlt
      exact ih hl (Nat.lt_of_succ_lt_succ hlt) hj

theorem Kept.before_eq {e₀ : AnimationEffect K} (h : Kept e₀ clock s) (ha : (s.effect.animations w)[s.anim]? = some a) :
    before s.effect w a = ((s.effect.animations w).take s.anim).map (·.id) ∧
      a.id ∉ ((s.effect.animations w).take s.anim).map (·.id) := by
  have hdrop : (s.effect.animations w).drop s.anim = a :: (s.effect.animations w).drop (s.anim + 1) := by
    rw [List.drop_eq_getElem?_toList_append, ha]
    rfl
  have hids : (s.effect.animations w).map (·.id) = ((s.effect.animations w).take s.anim).map (·.id) ++
      a.id :: ((s.effect.animations w).drop (s.anim + 1)).map (·.id) := by
    conv_lhs => rw [← List.take_append_drop s.anim (s.effect.animations w), hdrop, List.map_append, List.map_cons]
  have hnodup := h.sound.nodup w
  rw [hids, List.nodup_append] at hnodup
  have hnot : a.id ∉ ((s.effect.animations w).take s.anim).map (·.id) := fun hmem =>
    hnodup.2.2 a.id hmem a.id List.mem_cons_self rfl
  have hpos : ∀ i ∈ ((s.effect.animations w).take s.anim).map (·.id), decide (i ≠ a.id) = true := fun i hi =>
    decide_eq_true (by rintro rfl; exact hnot hi)
  refine ⟨?_, hnot⟩
  unfold before
  rw [hids, List.takeWhile_append_of_pos hpos, List.takeWhile_cons_of_neg (by simp), List.append_nil]

variable {e₀ : AnimationEffect K} {s' : PostPaint K} {animationEnded : Callback K}

/-- What stands at the place when the callback is over, where one before it was cancelled. -/
private theorem Kept.misplaced (h : Kept e₀ clock s) (ha : (s.effect.animations w)[s.anim]? = some a)
    (hc : Tracked s w a e) {b x : AniData K} (hb : b ∈ (s.effect.animations w).take s.anim) (hgone : ¬ e.Present b.id)
    (hx : (e.animations w)[s.anim]? = some x) : x.id ≠ a.id := by
  obtain ⟨hbefore, -⟩ := h.before_eq ha
  refine ne_of_takeWhile_lt (hc.sound.nodup w) (k := s.anim) ?_ (by rw [List.getElem?_map, hx]; rfl)
  have hmem : b.id ∈ before s.effect w a := hbefore ▸ List.mem_map_of_mem hb
  have hlen : (before s.effect w a).length ≤ s.anim := by
    rw [hbefore, List.length_map, List.length_take]
    exact Nat.min_le_left _ _
  have hne : before e w a ≠ before s.effect w a := fun he => by
    have hin := (List.takeWhile_sublist _).subset (he ▸ hmem : b.id ∈ before e w a)
    obtain ⟨b', hb', hid⟩ := List.mem_map.mp hin
    exact hgone ⟨w, b', hb', hid⟩
  have hlt := lt_of_le_of_ne hc.before.length_le fun he => hne (hc.before.eq_of_length he)
  exact hlt.trans_le hlen

/-- Where the callback does not spare what is behind, an animation is lost if the round does not fail. -/
theorem Kept.harmful (h : Kept e₀ clock s) (hno : ¬ Spares animationEnded clock s)
    (hs' : s.round animationEnded clock = some s') :
    ∃ id, (e₀.Present id ∨ id ∈ s'.effect.started) ∧ ¬ s'.effect.Present id ∧ id ∉ s'.reported ∧
      id ∉ s'.effect.cancelled := by
  unfold Spares at hno
  push Not at hno
  obtain ⟨w, a, hentry, ha, hended, id, hmem, b, hb, rfl⟩ := hno
  obtain ⟨-, hanim, -⟩ := h.place w hentry
  have hother : b.id ≠ a.id := fun he => (h.before_eq ha).2 (he ▸ List.mem_map_of_mem hb)
  have hstart : Tracked s w a { s.effect with justEndedAnimation := a.id } :=
    ⟨⟨h.sound.sorted, h.sound.absent, h.sound.nodup, h.sound.apart, h.sound.known⟩, rfl,
      ⟨Nat.le_refl _, fun _ _ hp => hp, fun _ _ hp => .inl hp, List.Subset.refl _⟩, fun _ => .inl, h.cancelled_gone,
      List.mem_map_of_mem (List.mem_of_getElem? ha), .refl _⟩
  obtain ⟨hc, hgone⟩ := tracked_callback clock hstart
    (h.sound.known _ ⟨w, b, List.mem_of_mem_take hb, rfl⟩) hother hmem
  rw [round_report hentry ha hended] at hs'
  obtain ⟨s₁, hs₁, rfl⟩ := Option.map_eq_some_iff.mp hs'
  unfold report PostPaint.callback at hs₁
  generalize (animationEnded s w a).foldl _ _ = e at hc hgone hs₁
  dsimp only at hs₁
  rw [← hanim, ite_self] at hs₁
  split at hs₁
  · cases hs₁
  · split at hs₁
    · next hlt =>
      obtain rfl := Option.some.inj hs₁
      obtain ⟨x, hx⟩ : ∃ x, (e.animations w)[s.anim]? = some x := ⟨_, List.getElem?_eq_getElem hlt⟩
      have hmem : x ∈ e.animations w := List.mem_of_getElem? hx
      have hpresent : e.Present x.id := ⟨w, x, hmem, rfl⟩
      refine ⟨x.id, ?_, ?_, ?_, fun hid => (hc.gone x.id hid).2 hpresent⟩
      · rcases hc.origin x.id hpresent with hid | hid
        · exact (h.origin x.id hid).imp_right fun hid => hc.later.started hid
        · exact .inr hid
      · rintro ⟨w', b', hb', hid⟩
        dsimp only at hb'
        rw [eraseIdx_eq_filter (hc.sound.nodup w) hx, Function.update_apply] at hb'
        split at hb'
        · exact of_decide_eq_true (List.mem_filter.mp hb').2 hid
        · next hw => exact hw (hc.sound.apart w' w b' x hb' hmem hid)
      · intro hid
        rcases List.mem_append.mp hid with hid | hid
        · obtain ⟨hle, hno⟩ := h.reported_gone x.id hid
          exact hno (hc.later.fresh x.id hle hpresent)
        · exact h.misplaced ha hc hb hgone hx (List.mem_singleton.mp hid)
    · cases hs₁

end harmful

/-- The effect before a pass, with nothing of it done. -/
structure Idle (K : Type*) [Field K] extends AnimationEffect K where
  sound : toAnimationEffect.Sound
  started_nil : started = []
  cancelled_nil : cancelled = []
  resumed_nil : resumed = []

/-- A pass ends the animations as it should. It never fails, reports an animation once and removes it, removes no others but
the cancelled ones, and comes to an end with what had ended reported, unless it was cancelled or was set going again and had
not ended when the pass came to it, as long as only so many animations are started. -/
structure EndsAnimations (e : AnimationEffect K) (clock : Nat → Int) (animationEnded : Callback K) : Prop where
  safe : ∀ n, ∃ s, (start e).run animationEnded clock n = some s
  once : ∀ n s, (start e).run animationEnded clock n = some s → s.reported.Nodup ∧ ∀ id ∈ s.reported, ¬ s.effect.Present id
  account : ∀ n s, (start e).run animationEnded clock n = some s → ∀ id, e.Present id ∨ id ∈ s.effect.started →
    s.effect.Present id ∨ id ∈ s.reported ∨ id ∈ s.effect.cancelled
  ends : (∃ N, ∀ n s, (start e).run animationEnded clock n = some s → s.effect.started.length ≤ N) →
    ∃ n s, (start e).run animationEnded clock n = some s ∧ s.entry = none ∧ ∀ w, ∀ a ∈ e.animations w, a.ended (clock 0) →
      a.id ∈ s.effect.cancelled ∨ a.id ∈ s.reported ∨ a.id ∈ s.effect.resumed ∧ a.id ∈ s.passed

section run
variable {animationEnded : Callback K}

private theorem run_succ (s : PostPaint K) (clock : Nat → Int) (n : Nat) :
    s.run animationEnded clock (n + 1) = (s.run animationEnded clock n).bind fun s => s.round animationEnded clock :=
  Function.iterate_succ_apply' _ n _

private theorem kept_start (e : Idle K) (clock : Nat → Int) : Kept e.toAnimationEffect clock (start e.toAnimationEffect) := by
  have hsound := e.sound
  have hin : ∀ w, ∀ a ∈ e.animations w, w ∈ e.windows := fun w a ha => by_contra fun hno => by
    rw [hsound.absent w hno] at ha
    cases ha
  refine ⟨⟨hsound.sorted, hsound.absent, hsound.nodup, hsound.apart, hsound.known⟩, fun w hw => ?_, ?_, fun _ => .inl,
    fun id hid => ?_, fun id hid => ?_, fun id hid => ?_, fun id hid => ?_, .nil, fun w a ha hended => ?_⟩
  · exact ⟨List.mem_of_head? hw, rfl, Nat.zero_le _⟩
  · exact (congrArg (e.animCounter + ·.length) e.started_nil).symm
  · rcases hid with hid | hid
    · exact .inl hid
    · exact absurd (e.started_nil ▸ hid : id ∈ []) List.not_mem_nil
  · exact absurd (e.cancelled_nil ▸ hid : id ∈ []) List.not_mem_nil
  · cases hid
  · cases hid
  · refine .inr (.inr (.inr ⟨w, a, ?_, rfl, .inl hended⟩))
    have hw := hin w a ha
    rcases hwindows : e.windows with _ | ⟨w₀, rest⟩
    · rw [hwindows] at hw
      cases hw
    · have hentry : (start e.toAnimationEffect).entry = some w₀ := congrArg List.head? hwindows
      have hzero : (start e.toAnimationEffect).placeAt w = 0 := ite_self 0
      rw [mem_ahead hentry, hzero]
      refine ⟨?_, ha⟩
      have hsorted := hsound.sorted
      rw [hwindows] at hsorted hw
      rcases List.mem_cons.mp hw with rfl | hw
      · exact Nat.le_refl _
      · exact ((List.pairwise_cons.mp hsorted).1 w hw).le

section spares
variable {e : Idle K} {clock : Nat →o Int}
  (hspares : ∀ n s, (start e.toAnimationEffect).run animationEnded clock n = some s → Spares animationEnded clock s)
include hspares

private theorem run_keeps (n : Nat) :
    ∃ s, (start e.toAnimationEffect).run animationEnded clock n = some s ∧ Kept e.toAnimationEffect clock s := by
  induction n with
  | zero => exact ⟨_, rfl, kept_start e clock⟩
  | succ n ih =>
    obtain ⟨s, hs, hkept⟩ := ih
    obtain ⟨s', hs', hkept', -⟩ := hkept.round clock.monotone (hspares n s hs)
    exact ⟨s', by rw [run_succ, hs]; exact hs', hkept'⟩

/-- As long as the pass is not at its end, each round brings it on. -/
private theorem rounds_le
    (hentry : ∀ n s, (start e.toAnimationEffect).run animationEnded clock n = some s → s.entry ≠ none) (n : Nat) :
    ∀ s, (start e.toAnimationEffect).run animationEnded clock n = some s →
      s.entries + n ≤ (start e.toAnimationEffect).entries + s.effect.started.length + s.settled := by
  induction n with
  | zero =>
    rintro s hs
    obtain rfl : start e.toAnimationEffect = s := Option.some.inj hs
    omega
  | succ n ih =>
    intro s' hs'
    obtain ⟨s, hs, hkept⟩ := run_keeps hspares n
    obtain ⟨s₁, hs₁, -, hcloser⟩ := hkept.round clock.monotone (hspares n s hs)
    rw [run_succ, hs] at hs'
    obtain rfl : s₁ = s' := Option.some.inj (hs₁.symm.trans hs')
    have := ih s hs
    have := hcloser (hentry n s hs)
    omega

omit hspares in
/-- No animation is passed over or reported twice. -/
private theorem settled_le {e₀ : AnimationEffect K} {clock : Nat → Int} {s : PostPaint K} (h : Kept e₀ clock s) :
    s.settled ≤ s.effect.animCounter + 1 := by
  have hsubset : s.passed ++ s.reported ⊆ List.range (s.effect.animCounter + 1) := fun id hid => by
    refine List.mem_range.mpr (Nat.lt_succ_of_le ?_)
    rcases List.mem_append.mp hid with hid | hid
    · exact (h.passed_behind id hid).1
    · exact (h.reported_gone id hid).1
  have hlen := (List.subperm_of_subset h.nodup hsubset).length_le
  rwa [List.length_range] at hlen

private theorem comes_to_end {N : Nat}
    (hN : ∀ n s, (start e.toAnimationEffect).run animationEnded clock n = some s → s.effect.started.length ≤ N) :
    ∃ n s, (start e.toAnimationEffect).run animationEnded clock n = some s ∧ s.entry = none := by
  by_contra hno
  push Not at hno
  have hrun := run_keeps hspares ((start e.toAnimationEffect).entries + N + (e.animCounter + N + 1) + 1)
  obtain ⟨s, hs, hkept⟩ := hrun
  have hle := rounds_le hspares hno _ s hs
  have hstarted := hN _ s hs
  have hsettled := settled_le hkept
  have hcounter := hkept.counter
  omega

end spares

/-- A pass ends the animations as it should if and only if no callback in it cancels an animation that stands before the
reported one in the list of its window. -/
theorem endsAnimations_iff_spares (e : Idle K) (clock : Nat →o Int) (animationEnded : Callback K) :
    EndsAnimations e.toAnimationEffect clock animationEnded ↔
      ∀ n s, (start e.toAnimationEffect).run animationEnded clock n = some s → Spares animationEnded clock s := by
  refine ⟨fun h => ?_, fun hspares => ⟨fun n => ?_, fun n s hs => ?_, fun n s hs id hid => ?_, fun ⟨N, hN⟩ => ?_⟩⟩
  · have hnext : ∀ n s, (start e.toAnimationEffect).run animationEnded clock n = some s →
        Kept e.toAnimationEffect clock s → Spares animationEnded clock s := fun n s hs hkept => by
      by_contra hno
      obtain ⟨s', hs'⟩ := h.safe (n + 1)
      have hround := hs'
      rw [run_succ, hs] at hround
      obtain ⟨id, horigin, hgone, hreported, hcancelled⟩ := hkept.harmful hno hround
      rcases h.account (n + 1) s' hs' id horigin with hid | hid | hid
      · exact hgone hid
      · exact hreported hid
      · exact hcancelled hid
    have hall : ∀ n s, (start e.toAnimationEffect).run animationEnded clock n = some s →
        Kept e.toAnimationEffect clock s := fun n => by
      induction n with
      | zero => exact fun s hs => Option.some.inj hs ▸ kept_start e clock
      | succ n ih =>
        intro s' hs'
        obtain ⟨s, hs⟩ := h.safe n
        obtain ⟨s₁, hs₁, hkept₁, -⟩ := (ih s hs).round clock.monotone (hnext n s hs (ih s hs))
        rw [run_succ, hs] at hs'
        obtain rfl : s₁ = s' := Option.some.inj (hs₁.symm.trans hs')
        exact hkept₁
    exact fun n s hs => hnext n s hs (hall n s hs)
  · exact (run_keeps hspares n).imp fun _ hs => hs.1
  · obtain ⟨s₁, hs₁, hkept⟩ := run_keeps hspares n
    obtain rfl : s₁ = s := Option.some.inj (hs₁.symm.trans hs)
    exact ⟨(List.nodup_append.mp hkept.nodup).2.1, fun id hid => (hkept.reported_gone id hid).2⟩
  · obtain ⟨s₁, hs₁, hkept⟩ := run_keeps hspares n
    obtain rfl : s₁ = s := Option.some.inj (hs₁.symm.trans hs)
    exact hkept.account id hid
  · obtain ⟨n, s, hs, hentry⟩ := comes_to_end hspares hN
    obtain ⟨s₁, hs₁, hkept⟩ := run_keeps hspares n
    obtain rfl : s₁ = s := Option.some.inj (hs₁.symm.trans hs)
    refine ⟨n, s₁, hs, hentry, fun w a ha hended => ?_⟩
    rcases hkept.ended w a ha hended with hid | hid | hid | ⟨w', b, hb, -⟩
    · exact .inl hid
    · exact .inr (.inl hid)
    · exact .inr (.inr hid)
    · unfold ahead at hb
      rw [hentry] at hb
      cases hb

end run

private def shown (id : Nat) (done : Bool) : AniData ℚ :=
  { id, from_ := 0, to_ := 1, timeLine := { (TimeLine.initial : TimeLine ℚ) with done }, startTime := 0,
    waitAtSource := false, terminationFlags := ⟨true, true⟩ }

/-- One window with three animations, of which the second has ended. -/
private def threeShown : Idle ℚ where
  windows := [1]
  animations window := if window = 1 then [shown 1 false, shown 2 true, shown 3 false] else []
  animCounter := 3
  justEndedAnimation := 0
  animationsTouched := false
  started := []
  cancelled := []
  resumed := []
  sound := by
    refine ⟨List.pairwise_singleton _ _, fun w hw => if_neg fun he => hw (List.mem_singleton.mpr he), fun w => ?_,
      fun w w' a a' ha ha' _ => ?_, fun id hp => ?_⟩
    · dsimp only
      split
      · decide
      · decide
    · dsimp only at ha ha'
      split at ha
      · next hw =>
        split at ha'
        · next hw' => exact hw.trans hw'.symm
        · cases ha'
      · cases ha
    · obtain ⟨w, a, ha, rfl⟩ := hp
      dsimp only at ha
      split at ha
      · rcases ha with _ | ⟨_, ha⟩
        · decide
        · rcases ha with _ | ⟨_, ha⟩
          · decide
          · rw [List.mem_singleton.mp ha]
            decide
      · cases ha
  started_nil := rfl
  cancelled_nil := rfl
  resumed_nil := rfl

/-- The end of the second animation cancels the first: the third is removed for it. -/
theorem third_removed : ¬ EndsAnimations threeShown.toAnimationEffect (fun _ => 0) (fun _ _ _ => [.cancel 1]) := by
  intro h
  rcases h.account 2 _ rfl 3 (.inl ⟨1, shown 3 false, .tail _ (.tail _ (.head _)), rfl⟩) with ⟨w, a, ha, hid⟩ | hid | hid
  · change a ∈ Function.update (Function.update threeShown.animations 1 [shown 2 true, shown 3 false]) 1 [shown 2 true] w at ha
    by_cases hw : w = 1
    · rw [hw, Function.update_self] at ha
      rw [List.mem_singleton.mp ha] at hid
      exact absurd hid (by decide)
    · rw [Function.update_of_ne hw, Function.update_of_ne hw] at ha
      have hnil : threeShown.animations w = [] := if_neg hw
      rw [hnil] at ha
      cases ha
  · exact absurd hid (by decide)
  · exact absurd hid (by decide)

end PostPaint
end KWinFT.Effects
