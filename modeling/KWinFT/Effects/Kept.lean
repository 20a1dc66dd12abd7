import KWinFT.Effects.Performed
import KWinFT.Lib.Runs
import Mathlib.Data.Int.ConditionallyCompleteOrder

/-! What each round of the pass after painting keeps, as long as the callback does not cancel an animation that stands before
the reported one in the list of its window. -/
namespace KWinFT.Effects
variable {K : Type*} [Field K]

namespace PostPaint
open AnimationEffect

/-- Where the pass stands in the list of a window that it is at or has still to come to. -/
def placeAt (s : PostPaint K) (w' : Nat) : Nat := if s.entry = some w' then s.anim else 0

/-- What the pass has still to come to in the list of a window. -/
def ahead (s : PostPaint K) (w' : Nat) : List (AniData K) :=
  match s.entry with
  | none => []
  | some w => if w' = w then (s.effect.animations w).drop s.anim else if w < w' then s.effect.animations w' else []

/-- Entries that are ahead, with the one at hand. -/
def entries (s : PostPaint K) : Nat :=
  match s.entry with
  | none => 0
  | some w => (s.effect.windows.filter (w < ·)).length + 1

/-- The callback of the round at hand leaves what is before the reported animation in its list. -/
def Spares (animationEnded : Callback K) (clock : Nat → Int) (s : PostPaint K) : Prop :=
  ∀ w a, s.entry = some w → (s.effect.animations w)[s.anim]? = some a → a.ended (clock s.rounds) →
    ∀ id, .cancel id ∈ animationEnded s w a → ∀ b ∈ (s.effect.animations w).take s.anim, b.id ≠ id

/-- What holds in each round of a pass from some state of the effect. -/
structure Kept (e₀ : AnimationEffect K) (clock : Nat → Int) (s : PostPaint K) : Prop where
  sound : s.effect.Sound
  place : ∀ w, s.entry = some w →
    w ∈ s.effect.windows ∧ s.anim = s.animCounter ∧ s.anim ≤ (s.effect.animations w).length
  counter : s.effect.animCounter = e₀.animCounter + s.effect.started.length
  origin : ∀ id, s.effect.Present id → e₀.Present id ∨ id ∈ s.effect.started
  account : ∀ id, e₀.Present id ∨ id ∈ s.effect.started →
    s.effect.Present id ∨ id ∈ s.reported ∨ id ∈ s.effect.cancelled
  cancelled_gone : ∀ id ∈ s.effect.cancelled, id ≤ s.effect.animCounter ∧ ¬ s.effect.Present id
  reported_gone : ∀ id ∈ s.reported, id ≤ s.effect.animCounter ∧ ¬ s.effect.Present id
  passed_behind : ∀ id ∈ s.passed, id ≤ s.effect.animCounter ∧ ∀ w, ∀ a ∈ s.ahead w, a.id ≠ id
  nodup : (s.passed ++ s.reported).Nodup
  ended : ∀ w, ∀ a ∈ e₀.animations w, a.ended (clock 0) →
    a.id ∈ s.effect.cancelled ∨ a.id ∈ s.reported ∨ (a.id ∈ s.effect.resumed ∧ a.id ∈ s.passed) ∨
      ∃ w', ∃ b ∈ s.ahead w', b.id = a.id ∧ (b.ended (clock s.rounds) ∨ a.id ∈ s.effect.resumed)

section action
variable {e₀ e e' : AnimationEffect K} {clock : Nat → Int} {s : PostPaint K} {w : Nat} {a : AniData K} {action : Action K}

private theorem filter_behind {l : List (AniData K)} {k : Nat} {p : AniData K → Bool} (hl : ∀ b ∈ l.take k, p b)
    (hk : k ≤ l.length) : (l.filter p).take k = l.take k ∧ (l.filter p).drop k = (l.drop k).filter p := by
  have hfilter : l.filter p = l.take k ++ (l.drop k).filter p := by
    conv_lhs => rw [← List.take_append_drop k l]
    rw [List.filter_append, List.filter_eq_self.mpr hl]
  have hlen : (l.take k).length = k := List.length_take_of_le hk
  rw [hfilter]
  exact ⟨List.take_left' hlen, List.drop_left' hlen⟩

/-- The pass at its place with the effect as it is in the middle of a callback. -/
def withEffect (s : PostPaint K) (e : AnimationEffect K) : PostPaint K := { s with effect := e }

/-- What holds in the middle of the callback for an animation. -/
structure Held (e₀ : AnimationEffect K) (clock : Nat → Int) (s : PostPaint K) (w : Nat) (a : AniData K)
    (e : AnimationEffect K) : Prop where
  kept : Kept e₀ clock (s.withEffect e)
  just : e.justEndedAnimation = a.id
  ids : ((e.animations w).map (·.id)).take (s.anim + 1) = ((s.effect.animations w).map (·.id)).take (s.anim + 1)
  entries : (s.withEffect e).entries + s.effect.started.length ≤ s.entries + e.started.length

theorem mem_ahead (hentry : s.entry = some w) {w' : Nat} {b : AniData K} :
    b ∈ s.ahead w' ↔ w ≤ w' ∧ b ∈ (s.effect.animations w').drop (s.placeAt w') := by
  unfold ahead placeAt
  rw [hentry]
  dsimp only
  by_cases hw : w' = w
  · subst hw
    simp
  · rw [if_neg hw, if_neg fun he => hw (Option.some.inj he).symm, List.drop_zero]
    split
    · next hlt => rw [and_iff_right hlt.le]
    · next hlt => exact iff_of_false List.not_mem_nil fun hb => hlt (lt_of_le_of_ne hb.1 (Ne.symm hw))

section held
variable (h : Held e₀ clock s w a e) (hentry : s.entry = some w) (ha : (s.effect.animations w)[s.anim]? = some a)
include h ha

theorem Held.lt_length : s.anim < (e.animations w).length := by
  have hlen := congrArg List.length h.ids
  have hlt := (List.getElem?_eq_some_iff.mp ha).1
  rw [List.length_take, List.length_take, List.length_map, List.length_map] at hlen
  omega

theorem Held.id_at : ((e.animations w).get ⟨s.anim, h.lt_length ha⟩).id = a.id := by
  have hat := congrArg (·[s.anim]?) h.ids
  simp only [List.getElem?_take, Nat.lt_succ_self, if_true, List.getElem?_map, ha, Option.map_some] at hat
  rw [List.getElem?_eq_getElem (h.lt_length ha)] at hat
  exact Option.some.inj hat

/-- The animation itself cannot be cancelled. -/
private theorem Held.uncancelled {animationId : Nat}
    (hspares : ∀ b ∈ (s.effect.animations w).take s.anim, b.id ≠ animationId) (hother : animationId ≠ e.justEndedAnimation) :
    ∀ b ∈ (e.animations w).take (s.anim + 1), decide (b.id ≠ animationId) = true := by
  intro b hb
  rw [decide_eq_true_iff]
  have hid : b.id ∈ ((s.effect.animations w).map (·.id)).take (s.anim + 1) := by
    rw [← h.ids, ← List.map_take]
    exact List.mem_map_of_mem hb
  rw [← List.map_take, List.take_add_one, ha, List.map_append, List.mem_append] at hid
  rcases hid with hid | hid
  · obtain ⟨b', hb', hbid⟩ := List.mem_map.mp hid
    exact hbid ▸ hspares b' hb'
  · have hid : b.id = a.id := List.mem_singleton.mp hid
    rw [hid, ← h.just]
    exact hother.symm

/-- The place of the animation and what stands before it stay as they are, unless that is cancelled. -/
private theorem Held.ids_performed (hp : Performed e (clock s.rounds) action e')
    (hspares : ∀ id, action = .cancel id → ∀ b ∈ (s.effect.animations w).take s.anim, b.id ≠ id) :
    ((e'.animations w).map (·.id)).take (s.anim + 1) = ((e.animations w).map (·.id)).take (s.anim + 1) := by
  have hlt := h.lt_length ha
  cases hp with
  | nothing same => rw [same]
  | started window a' _ _ animations =>
    rw [animations, List.map_append, List.take_append_of_le_length]
    rw [List.length_map]
    exact hlt
  | modified animationId f _ hf _ animations => rw [animations, map_changed_ids hf]
  | cancelled animationId asked other _ _ _ animations =>
    rw [animations, ← List.map_take, ← List.map_take,
      (filter_behind (h.uncancelled ha (hspares animationId asked) other) hlt).1]

include hentry in
private theorem Held.placeAt_le (w' : Nat) : s.placeAt w' ≤ (e.animations w').length := by
  unfold placeAt
  split
  · next hw =>
    obtain rfl : w = w' := Option.some.inj (hentry.symm.trans hw)
    exact (h.lt_length ha).le
  · exact Nat.zero_le _

include hentry in
private theorem Held.uncancelled_at {animationId : Nat}
    (hspares : ∀ b ∈ (s.effect.animations w).take s.anim, b.id ≠ animationId) (hother : animationId ≠ e.justEndedAnimation)
    (w' : Nat) : ∀ b ∈ (e.animations w').take (s.placeAt w'), decide (b.id ≠ animationId) = true := by
  intro b hb
  unfold placeAt at hb
  split at hb
  · next hw =>
    obtain rfl : w = w' := Option.some.inj (hentry.symm.trans hw)
    exact h.uncancelled ha hspares hother b (List.take_subset_take_left _ (Nat.le_succ _) hb)
  · cases hb

include hentry in
/-- What comes to stand ahead was there, or is new. -/
private theorem Held.ahead_origin (hp : Performed e (clock s.rounds) action e')
    (hspares : ∀ id, action = .cancel id → ∀ b ∈ (s.effect.animations w).take s.anim, b.id ≠ id) (w' : Nat)
    (b : AniData K) (hb : b ∈ (s.withEffect e').ahead w') :
    (∃ b' ∈ (s.withEffect e).ahead w', b'.id = b.id) ∨ e.animCounter < b.id := by
  have hle := h.placeAt_le hentry ha w'
  have hmem : ∀ e b, b ∈ (s.withEffect e).ahead w' ↔ w ≤ w' ∧ b ∈ (e.animations w').drop (s.placeAt w') :=
    fun e _ => mem_ahead (s := s.withEffect e) hentry
  obtain ⟨hw, hb⟩ := (hmem e' b).mp hb
  cases hp with
  | nothing same => exact .inl ⟨b, (hmem e b).mpr ⟨hw, same ▸ hb⟩, rfl⟩
  | started window a' hid _ animations =>
    rw [animations, List.drop_append_of_le_length hle, List.mem_append] at hb
    refine hb.imp (fun hb => ⟨b, (hmem e b).mpr ⟨hw, hb⟩, rfl⟩) fun hb => ?_
    split at hb
    · rw [List.mem_singleton.mp hb]
      omega
    · cases hb
  | modified animationId f _ hf _ animations =>
    rw [animations, ← List.map_drop] at hb
    obtain ⟨b', hb', rfl⟩ := List.mem_map.mp hb
    refine .inl ⟨b', (hmem e b').mpr ⟨hw, hb'⟩, ?_⟩
    split
    · exact (hf b').symm
    · rfl
  | cancelled animationId asked other _ _ _ animations =>
    rw [animations, (filter_behind (h.uncancelled_at hentry ha (hspares animationId asked) other w') hle).2] at hb
    exact .inl ⟨b, (hmem e b).mpr ⟨hw, List.mem_of_mem_filter hb⟩, rfl⟩

include hentry in
/-- What stands ahead still does unless it is cancelled, and has still ended unless it is set going again. -/
private theorem Held.ahead_ended (hp : Performed e (clock s.rounds) action e')
    (hspares : ∀ id, action = .cancel id → ∀ b ∈ (s.effect.animations w).take s.anim, b.id ≠ id) (w' : Nat)
    (b : AniData K) (hb : b ∈ (s.withEffect e).ahead w') :
    b.id ∈ e'.cancelled ∨ ∃ b' ∈ (s.withEffect e').ahead w', b'.id = b.id ∧
      (b.ended (clock s.rounds) → b'.ended (clock s.rounds) ∨ b.id ∈ e'.resumed) := by
  have hle := h.placeAt_le hentry ha w'
  have hmem : ∀ e b, b ∈ (s.withEffect e).ahead w' ↔ w ≤ w' ∧ b ∈ (e.animations w').drop (s.placeAt w') :=
    fun e _ => mem_ahead (s := s.withEffect e) hentry
  obtain ⟨hw, hb⟩ := (hmem e b).mp hb
  cases hp with
  | nothing same => exact .inr ⟨b, (hmem e' b).mpr ⟨hw, same ▸ hb⟩, rfl, .inl⟩
  | started window a' hid _ animations =>
    refine .inr ⟨b, (hmem e' b).mpr ⟨hw, ?_⟩, rfl, .inl⟩
    rw [animations, List.drop_append_of_le_length hle]
    exact List.mem_append_left _ hb
  | modified animationId f _ hf _ animations _ _ _ _ resumes =>
    have hmem' := List.mem_map_of_mem (f := fun a => if a.id = animationId then f a else a) hb
    rw [List.map_drop, ← animations] at hmem'
    split at hmem'
    · next hid =>
      refine .inr ⟨f b, (hmem e' _).mpr ⟨hw, hmem'⟩, hf b, fun hended => ?_⟩
      by_cases hgoes : (f b).ended (clock s.rounds) = true
      · exact .inl hgoes
      · exact .inr (hid ▸ resumes w' b (List.mem_of_mem_drop hb) hid hended hgoes)
    · exact .inr ⟨b, (hmem e' b).mpr ⟨hw, hmem'⟩, rfl, .inl⟩
  | cancelled animationId asked other _ _ _ animations _ _ cancelled =>
    by_cases hid : b.id = animationId
    · exact .inl (by rw [cancelled, hid]; simp)
    · refine .inr ⟨b, (hmem e' b).mpr ⟨hw, ?_⟩, rfl, .inl⟩
      rw [animations, (filter_behind (h.uncancelled_at hentry ha (hspares animationId asked) other w') hle).2]
      exact List.mem_filter.mpr ⟨hb, decide_eq_true hid⟩

include hentry in
private theorem Held.place_of_ids (he' : e'.Sound)
    (hids : ((e'.animations w).map (·.id)).take (s.anim + 1) = ((e.animations w).map (·.id)).take (s.anim + 1)) :
    w ∈ e'.windows ∧ s.anim = s.animCounter ∧ s.anim ≤ (e'.animations w).length := by
  have hlen := congrArg List.length hids
  have hlt := h.lt_length ha
  rw [List.length_take, List.length_take, List.length_map, List.length_map] at hlen
  refine ⟨by_contra fun hno => ?_, (h.kept.place w hentry).2.1, by omega⟩
  rw [he'.absent w hno, List.length_nil] at hlen
  omega

/-- What the callback asks for next. -/
theorem Held.perform (hentry : s.entry = some w)
    (hspares : ∀ id, action = .cancel id → ∀ b ∈ (s.effect.animations w).take s.anim, b.id ≠ id) :
    Held e₀ clock s w a (e.perform (clock s.rounds) action) := by
  have he : e.Sound := h.kept.sound
  have hp := he.performed (clock s.rounds) action
  have hl := Later.perform e (clock s.rounds) action
  generalize e.perform (clock s.rounds) action = e' at hp hl ⊢
  have hacc := hp.accounted he
  have he' := hp.sound he
  have hids := h.ids_performed ha hp hspares
  refine ⟨⟨he', fun w' hw' => ?_, ?_, fun id hid => ?_, fun id hid => ?_, fun id hid => ?_, fun id hid => ?_,
    fun id hid => ?_, h.kept.nodup, fun w' b hb hended => ?_⟩, ?_, hids.trans h.ids, ?_⟩
  · obtain rfl : w = w' := Option.some.inj (hentry.symm.trans hw')
    exact h.place_of_ids hentry ha he' hids
  · have := h.kept.counter
    have := hacc.counter
    change e.animCounter = _ at *
    change e'.animCounter = e₀.animCounter + e'.started.length
    change e.animCounter = e₀.animCounter + e.started.length at this
    omega
  · rcases hacc.origin id hid with hid | hid
    · exact (h.kept.origin id hid).imp_right fun hid => hl.started hid
    · exact .inr hid
  · have hbefore : e.Present id ∨ id ∈ s.reported ∨ id ∈ e.cancelled ∨ e'.Present id := by
      rcases hid with hid | hid
      · exact (h.kept.account id (.inl hid)).imp_right (Or.imp_right .inl)
      · rcases hacc.started id hid with hid | hid
        · exact (h.kept.account id (.inr hid)).imp_right (Or.imp_right .inl)
        · exact .inr (.inr (.inr hid))
    rcases hbefore with hid | hid | hid | hid
    · exact (hacc.account id hid).imp_right .inr
    · exact .inr (.inl hid)
    · exact .inr (.inr (hacc.kept.1 hid))
    · exact .inl hid
  · rcases hacc.cancelled id hid with hid | ⟨hle, hgone⟩
    · obtain ⟨hle, hgone⟩ := h.kept.cancelled_gone id hid
      exact ⟨hle.trans hl.counter, fun hp => hgone (hl.fresh id hle hp)⟩
    · exact ⟨hle.trans hl.counter, hgone⟩
  · obtain ⟨hle, hgone⟩ := h.kept.reported_gone id hid
    exact ⟨hle.trans hl.counter, fun hp => hgone (hl.fresh id hle hp)⟩
  · obtain ⟨hle, hbehind⟩ := h.kept.passed_behind id hid
    refine ⟨hle.trans hl.counter, fun w' b hb hbid => ?_⟩
    rcases h.ahead_origin hentry ha hp hspares w' b hb with ⟨b', hb', hbid'⟩ | hnew
    · exact hbehind w' b' hb' (hbid'.trans hbid)
    · exact absurd hle (by change ¬ id ≤ e.animCounter; omega)
  · rcases h.kept.ended w' b hb hended with hid | hid | hid | ⟨w₁, b₁, hb₁, hid, hended₁⟩
    · exact .inl (hacc.kept.1 hid)
    · exact .inr (.inl hid)
    · exact .inr (.inr (.inl ⟨hacc.kept.2 hid.1, hid.2⟩))
    · rcases h.ahead_ended hentry ha hp hspares w₁ b₁ hb₁ with hgone | ⟨b₂, hb₂, hid₂, hended₂⟩
      · exact .inl (hid ▸ hgone)
      · refine .inr (.inr (.inr ⟨w₁, b₂, hb₂, hid₂.trans hid, ?_⟩))
        exact hended₁.elim (fun hended₁ => hid ▸ hended₂ hended₁) fun hgoes => .inr (hacc.kept.2 hgoes)
  · exact hacc.just.trans h.just
  · have hbefore := h.entries
    have hwindows := hacc.windows w
    have hentries : ∀ e, (s.withEffect e).entries = (e.windows.filter (w < ·)).length + 1 := fun e => by
      unfold PostPaint.entries withEffect
      rw [hentry]
    rw [hentries] at hbefore ⊢
    omega

end held
theorem Kept.flags (h : Kept e₀ clock (s.withEffect e)) (id : Nat) (touched : Bool) :
    Kept e₀ clock (s.withEffect { e with justEndedAnimation := id, animationsTouched := touched }) :=
  ⟨⟨h.sound.sorted, h.sound.absent, h.sound.nodup, h.sound.apart, h.sound.known⟩, h.place, h.counter, h.origin, h.account,
    h.cancelled_gone, h.reported_gone, h.passed_behind, h.nodup, h.ended⟩

/-- What the callback of a round leaves, where it spares what is behind. -/
theorem Kept.callback {animationEnded : Callback K} (h : Kept e₀ clock s) (hspares : Spares animationEnded clock s)
    (hentry : s.entry = some w) (ha : (s.effect.animations w)[s.anim]? = some a) (hended : a.ended (clock s.rounds)) :
    Kept e₀ clock (s.withEffect (s.callback animationEnded clock w a)) ∧
      (∃ b, ((s.callback animationEnded clock w a).animations w)[s.anim]? = some b ∧ b.id = a.id) ∧
      (s.withEffect (s.callback animationEnded clock w a)).entries + s.effect.started.length ≤
        s.entries + (s.callback animationEnded clock w a).started.length := by
  have hstart : Held e₀ clock s w a { s.effect with justEndedAnimation := a.id } :=
    ⟨h.flags (e := s.effect) a.id s.effect.animationsTouched, rfl, rfl, Nat.le_refl _⟩
  have hheld := Lib.foldl_preserves (P := Held e₀ clock s w a) (f := fun e action => e.perform (clock s.rounds) action)
    (animationEnded s w a) (fun e action hmem he => he.perform ha hentry
      (fun id hid => hspares w a hentry ha hended id (hid ▸ hmem))) hstart
  exact ⟨hheld.kept.flags 0 _, ⟨_, List.getElem?_eq_getElem (hheld.lt_length ha), hheld.id_at ha⟩, hheld.entries⟩

end action

section rounds
variable {e₀ : AnimationEffect K} {clock : Nat → Int} {s s' : PostPaint K} {w : Nat} {a : AniData K}
  {animationEnded : Callback K}

private theorem AniData.ended_mono {t t' : Int} (h : t ≤ t') (ha : a.ended t) : a.ended t' := by
  unfold AniData.ended at *
  simp only [Bool.not_or, Bool.not_and, Bool.and_eq_true, Bool.or_eq_true, Bool.not_eq_true', decide_eq_false_iff_not,
    Bool.not_not] at *
  exact ⟨ha.1, ha.2.imp_left fun hlt => by omega⟩

private theorem drop_eq_cons {l : List (AniData K)} {k : Nat} (ha : l[k]? = some a) : l.drop k = a :: l.drop (k + 1) := by
  rw [List.drop_eq_getElem?_toList_append, ha]
  rfl

private theorem ahead_of_place (hentry : s.entry = some w) (ha : (s.effect.animations w)[s.anim]? = some a) :
    a ∈ s.ahead w := by
  have hat : s.placeAt w = s.anim := if_pos hentry
  rw [mem_ahead hentry, hat, drop_eq_cons ha]
  exact ⟨Nat.le_refl w, List.mem_cons_self⟩

theorem Kept.apart_of_place (h : Kept e₀ clock s) (ha : (s.effect.animations w)[s.anim]? = some a) {w' : Nat}
    {b : AniData K} (hb : b ∈ s.effect.animations w') (hid : b.id = a.id) : w' = w ∧ b = a := by
  obtain rfl : w' = w := h.sound.apart w' w b a hb (List.mem_of_getElem? ha) hid
  exact ⟨rfl, List.inj_on_of_nodup_map (h.sound.nodup w') hb (List.mem_of_getElem? ha) hid⟩

/-- The animation at hand was neither passed over nor reported before. -/
private theorem Kept.unsettled (h : Kept e₀ clock s) (hentry : s.entry = some w)
    (ha : (s.effect.animations w)[s.anim]? = some a) : a.id ∉ s.passed ++ s.reported := fun hmem => by
  rcases List.mem_append.mp hmem with hmem | hmem
  · exact (h.passed_behind a.id hmem).2 w a (ahead_of_place hentry ha) rfl
  · exact (h.reported_gone a.id hmem).2 ⟨w, a, List.mem_of_getElem? ha, rfl⟩

/-- An animation is passed over. -/
theorem Kept.pass (h : Kept e₀ clock s) (hclock : Monotone clock) (hentry : s.entry = some w)
    (ha : (s.effect.animations w)[s.anim]? = some a) (hended : ¬ a.ended (clock s.rounds)) :
    Kept e₀ clock { s with
      anim := s.anim + 1, animCounter := s.animCounter + 1, rounds := s.rounds + 1, passed := s.passed ++ [a.id] } := by
  set s' : PostPaint K := { s with
    anim := s.anim + 1, animCounter := s.animCounter + 1, rounds := s.rounds + 1, passed := s.passed ++ [a.id] } with hs'
  have hpresent : s.effect.Present a.id := ⟨w, a, List.mem_of_getElem? ha, rfl⟩
  have hentry' : s'.entry = some w := hentry
  -- what is ahead of the next round is what was ahead but the animation
  have hdrop : ∀ w', w' ≠ w → s'.placeAt w' = s.placeAt w' := fun w' hw' => by
    have hne : s.entry ≠ some w' := fun he => hw' (Option.some.inj (hentry.symm.trans he)).symm
    unfold placeAt
    rw [if_neg hne, if_neg (show ¬ s'.entry = some w' from hne)]
  have hat : s.placeAt w = s.anim := if_pos hentry
  have hat' : s'.placeAt w = s.anim + 1 := if_pos hentry'
  have hahead : ∀ w' b, b ∈ s.ahead w' ↔ b ∈ s'.ahead w' ∨ w' = w ∧ b = a := fun w' b => by
    rw [mem_ahead hentry, mem_ahead hentry']
    change _ ↔ (w ≤ w' ∧ b ∈ (s.effect.animations w').drop (s'.placeAt w')) ∨ _
    by_cases hw : w' = w
    · subst hw
      rw [hat, hat', drop_eq_cons ha, List.mem_cons]
      tauto
    · rw [hdrop w' hw]
      tauto
  have hother : ∀ w' b, b ∈ s'.ahead w' → b.id ≠ a.id := fun w' b hb hid => by
    obtain ⟨-, hb⟩ := (mem_ahead hentry').mp hb
    obtain ⟨rfl, rfl⟩ := h.apart_of_place ha (List.mem_of_mem_drop hb) hid
    have hnodup := (h.sound.nodup w').sublist ((List.drop_sublist s.anim _).map _)
    rw [drop_eq_cons ha, List.map_cons, List.nodup_cons] at hnodup
    rw [hat'] at hb
    exact hnodup.1 (List.mem_map_of_mem hb)
  refine ⟨h.sound, fun w' hw' => ?_, h.counter, h.origin, h.account, h.cancelled_gone, h.reported_gone, fun id hid => ?_, ?_,
    fun w' b hb hb' => ?_⟩
  · obtain rfl : w = w' := Option.some.inj (hentry.symm.trans hw')
    obtain ⟨hw, hanim, -⟩ := h.place w hentry
    exact ⟨hw, congrArg (· + 1) hanim, (List.getElem?_eq_some_iff.mp ha).1⟩
  · rcases List.mem_append.mp hid with hid | hid
    · obtain ⟨hle, hbehind⟩ := h.passed_behind id hid
      exact ⟨hle, fun w' b hb => hbehind w' b ((hahead w' b).mpr (.inl hb))⟩
    · obtain rfl := List.mem_singleton.mp hid
      exact ⟨h.sound.known _ hpresent, hother⟩
  · rw [List.append_assoc]
    exact List.nodup_middle.mpr (List.nodup_cons.mpr ⟨h.unsettled hentry ha, h.nodup⟩)
  · rcases h.ended w' b hb hb' with hid | hid | hid | ⟨w₁, b₁, hb₁, hid, hb₁'⟩
    · exact .inl hid
    · exact .inr (.inl hid)
    · exact .inr (.inr (.inl ⟨hid.1, List.mem_append_left _ hid.2⟩))
    · rcases (hahead w₁ b₁).mp hb₁ with hb₁ | ⟨-, rfl⟩
      · exact .inr (.inr (.inr ⟨w₁, b₁, hb₁, hid, hb₁'.imp_left (AniData.ended_mono (hclock (Nat.le_succ _)))⟩))
      · exact .inr (.inr (.inl ⟨hb₁'.resolve_left hended, hid ▸ List.mem_append_right _ List.mem_cons_self⟩))

theorem eraseIdx_eq_filter {l : List (AniData K)} {k : Nat} (hl : (l.map (·.id)).Nodup) (ha : l[k]? = some a) :
    l.eraseIdx k = l.filter (·.id ≠ a.id) := by
  induction l generalizing k with
  | nil => rw [List.getElem?_nil] at ha; cases ha
  | cons b l ih =>
    obtain ⟨hb, hl⟩ := List.nodup_cons.mp hl
    cases k with
    | zero =>
      obtain rfl : b = a := Option.some.inj ha
      have hrest : l.filter (·.id ≠ b.id) = l := List.filter_eq_self.mpr fun c hc =>
        decide_eq_true fun he => hb (List.mem_map.mpr ⟨c, hc, he⟩)
      rw [List.eraseIdx_cons_zero, List.filter_cons_of_neg (by simp), hrest]
    | succ k =>
      rw [List.getElem?_cons_succ] at ha
      have hne : b.id ≠ a.id := fun he => hb (List.mem_map.mpr ⟨a, List.mem_of_getElem? ha, he.symm⟩)
      rw [List.eraseIdx_cons_succ, List.filter_cons_of_pos (by simpa using hne), ih hl ha]

/-- The pass when the animation at hand was reported and is removed. -/
def removeAt (s : PostPaint K) (w : Nat) (a : AniData K) : PostPaint K :=
  { s with
    effect := { s.effect with
      animationsTouched := false
      animations := Function.update s.effect.animations w ((s.effect.animations w).eraseIdx s.anim) }
    reported := s.reported ++ [a.id]
    rounds := s.rounds + 1 }

/-- No other list has an animation of that id. -/
private theorem Kept.animations_removeAt (h : Kept e₀ clock s) (ha : (s.effect.animations w)[s.anim]? = some a) (w' : Nat) :
    (s.removeAt w a).effect.animations w' = (s.effect.animations w').filter (·.id ≠ a.id) := by
  change Function.update _ _ _ w' = _
  rw [Function.update_apply]
  split
  · next hw =>
    rw [hw]
    exact eraseIdx_eq_filter (h.sound.nodup w) ha
  · next hw =>
    have hall : (s.effect.animations w').filter (·.id ≠ a.id) = s.effect.animations w' :=
      List.filter_eq_self.mpr fun b hb => decide_eq_true fun hid => hw (h.apart_of_place ha hb hid).1
    exact hall.symm

private theorem Kept.mem_removeAt (h : Kept e₀ clock s) (ha : (s.effect.animations w)[s.anim]? = some a) {w' : Nat}
    {b : AniData K} : b ∈ (s.removeAt w a).effect.animations w' ↔ b ∈ s.effect.animations w' ∧ b.id ≠ a.id := by
  rw [h.animations_removeAt ha, List.mem_filter, decide_eq_true_iff]

private theorem Kept.present_of_removeAt (h : Kept e₀ clock s) (ha : (s.effect.animations w)[s.anim]? = some a) {id : Nat}
    (hp : (s.removeAt w a).effect.Present id) : s.effect.Present id := by
  obtain ⟨w', b, hb, hid⟩ := hp
  exact ⟨w', b, ((h.mem_removeAt ha).mp hb).1, hid⟩

/-- Only the animation at hand is not ahead any more. -/
private theorem Kept.ahead_removeAt (h : Kept e₀ clock s) (hentry : s.entry = some w)
    (ha : (s.effect.animations w)[s.anim]? = some a) (w' : Nat) (b : AniData K) :
    b ∈ (s.removeAt w a).ahead w' ↔ b ∈ s.ahead w' ∧ b.id ≠ a.id := by
  have hplace : s.placeAt w' ≤ (s.effect.animations w').length := by
    unfold placeAt
    split
    · next hw => exact (h.place w' hw).2.2
    · exact Nat.zero_le _
  have hbehind : ∀ b ∈ (s.effect.animations w').take (s.placeAt w'), decide (b.id ≠ a.id) = true := by
    intro b hb
    refine decide_eq_true fun hid => ?_
    obtain ⟨rfl, rfl⟩ := h.apart_of_place ha (List.mem_of_mem_take hb) hid
    rw [show s.placeAt w' = s.anim from if_pos hentry] at hb
    have hnodup := h.sound.nodup w'
    rw [← List.take_append_drop s.anim (s.effect.animations w'), drop_eq_cons ha, List.map_append] at hnodup
    exact (List.nodup_append.mp hnodup).2.2 b.id (List.mem_map_of_mem hb) b.id List.mem_cons_self rfl
  rw [mem_ahead hentry, mem_ahead (s := s.removeAt w a) hentry]
  change w ≤ w' ∧ b ∈ ((s.removeAt w a).effect.animations w').drop (s.placeAt w') ↔ _
  rw [h.animations_removeAt ha, (filter_behind hbehind hplace).2, List.mem_filter, decide_eq_true_iff, and_assoc]

/-- The animation at hand is removed and was reported. -/
theorem Kept.remove (h : Kept e₀ clock s) (hclock : Monotone clock) (hentry : s.entry = some w)
    (ha : (s.effect.animations w)[s.anim]? = some a) : Kept e₀ clock (s.removeAt w a) := by
  have hpresent : s.effect.Present a.id := ⟨w, a, List.mem_of_getElem? ha, rfl⟩
  refine ⟨h.sound.of_sublist (.refl _) (fun _ hw hno => absurd hw hno) (fun w' => ?_) rfl, fun w' hw' => ?_, h.counter,
    fun id hid => h.origin id (h.present_of_removeAt ha hid), fun id hid => ?_, fun id hid => ?_, fun id hid => ?_,
    fun id hid => ?_, ?_, fun w' b hb hb' => ?_⟩
  · rw [h.animations_removeAt ha]
    exact List.filter_sublist.map _
  · obtain rfl : w = w' := Option.some.inj (hentry.symm.trans hw')
    obtain ⟨hw, hanim, -⟩ := h.place w hentry
    refine ⟨hw, hanim, ?_⟩
    have hlt := (List.getElem?_eq_some_iff.mp ha).1
    have hlist : (s.removeAt w a).effect.animations w = (s.effect.animations w).eraseIdx s.anim := Function.update_self ..
    rw [hlist, List.length_eraseIdx_of_lt hlt]
    change s.anim ≤ _
    omega
  · rcases h.account id hid with ⟨w', b, hb, rfl⟩ | hid | hid
    · by_cases hid : b.id = a.id
      · exact .inr (.inl (List.mem_append_right _ (List.mem_singleton.mpr hid)))
      · exact .inl ⟨w', b, (h.mem_removeAt ha).mpr ⟨hb, hid⟩, rfl⟩
    · exact .inr (.inl (List.mem_append_left _ hid))
    · exact .inr (.inr hid)
  · exact (h.cancelled_gone id hid).imp_right fun hno hp => hno (h.present_of_removeAt ha hp)
  · rcases List.mem_append.mp hid with hid | hid
    · exact (h.reported_gone id hid).imp_right fun hno hp => hno (h.present_of_removeAt ha hp)
    · obtain rfl := List.mem_singleton.mp hid
      exact ⟨h.sound.known _ hpresent, fun ⟨w', b, hb, hid⟩ => ((h.mem_removeAt ha).mp hb).2 hid⟩
  · exact (h.passed_behind id hid).imp_right fun hbehind w' b hb =>
      hbehind w' b ((h.ahead_removeAt hentry ha w' b).mp hb).1
  · change (s.passed ++ (s.reported ++ [a.id])).Nodup
    rw [← List.append_assoc, ← List.concat_eq_append]
    exact h.nodup.concat (h.unsettled hentry ha)
  · rcases h.ended w' b hb hb' with hid | hid | hid | ⟨w₁, b₁, hb₁, hid, hb₁'⟩
    · exact .inl hid
    · exact .inr (.inl (List.mem_append_left _ hid))
    · exact .inr (.inr (.inl hid))
    · by_cases hid₁ : b₁.id = a.id
      · exact .inr (.inl (List.mem_append_right _ (List.mem_singleton.mpr (hid.symm.trans hid₁))))
      · exact .inr (.inr (.inr ⟨w₁, b₁, (h.ahead_removeAt hentry ha w₁ b₁).mpr ⟨hb₁, hid₁⟩, hid,
          hb₁'.imp_left (AniData.ended_mono (hclock (Nat.le_succ _)))⟩))

private theorem following_some {w₁ : Nat} (h : s.following w = some w₁) (hsorted : s.effect.windows.Pairwise (· < ·)) :
    w₁ ∈ s.effect.windows ∧ w < w₁ ∧ ∀ w' ∈ s.effect.windows, w < w' → w₁ ≤ w' := by
  obtain ⟨hlt, before, behind, hwindows, hbefore⟩ := List.find?_eq_some_iff_append.mp h
  rw [hwindows] at hsorted ⊢
  refine ⟨List.mem_append_right _ List.mem_cons_self, of_decide_eq_true hlt, fun w' hw' hlt' => ?_⟩
  rcases List.mem_append.mp hw' with hw' | hw'
  · have := hbefore w' hw'
    simp [hlt'] at this
  · rcases List.mem_cons.mp hw' with rfl | hw'
    · exact Nat.le_refl _
    · exact ((List.pairwise_cons.mp (List.pairwise_append.mp hsorted).2.1).1 w' hw').le

private theorem leaveEntry_sublist (s : PostPaint K) (w : Nat) :
    (s.leaveEntry w).effect.windows.Sublist s.effect.windows := by
  change (if _ then _ else _ : List Nat).Sublist _
  split
  · exact List.erase_sublist
  · exact .refl _

private theorem mem_leaveEntry {w' : Nat} (hw' : w' ∈ s.effect.windows) (hne : w' ≠ w) :
    w' ∈ (s.leaveEntry w).effect.windows := by
  change _ ∈ (if _ then _ else _ : List Nat)
  split
  · exact (List.mem_erase_of_ne hne).mpr hw'
  · exact hw'

/-- With nothing left in the list of the window, the animations still to come are the same. -/
private theorem Kept.ahead_leave (h : Kept e₀ clock s) (hentry : s.entry = some w)
    (hend : (s.effect.animations w)[s.anim]? = none) (w' : Nat) (b : AniData K) :
    b ∈ s.ahead w' ↔ b ∈ (s.leaveEntry w).ahead w' := by
  have hlast : (s.effect.animations w).drop (s.placeAt w) = [] := by
    rw [show s.placeAt w = s.anim from if_pos hentry]
    exact List.drop_eq_nil_of_le (List.getElem?_eq_none_iff.mp hend)
  have hbehind : b ∈ s.ahead w' ↔ w < w' ∧ b ∈ s.effect.animations w' := by
    rw [mem_ahead hentry]
    by_cases hw : w' = w
    · subst hw
      rw [hlast]
      simp
    · rw [show s.placeAt w' = 0 from if_neg fun he => hw (Option.some.inj (he.symm.trans hentry)), List.drop_zero]
      exact and_congr_left fun _ => ⟨fun hle => lt_of_le_of_ne hle (Ne.symm hw), le_of_lt⟩
  rw [hbehind]
  have hin (hb : b ∈ s.effect.animations w') : w' ∈ s.effect.windows := by
    by_contra hno
    rw [h.sound.absent w' hno] at hb
    cases hb
  cases hnext : s.following w with
  | none =>
    have hnil : (s.leaveEntry w).ahead w' = [] := by
      unfold ahead
      rw [show (s.leaveEntry w).entry = none from hnext]
    rw [hnil]
    refine iff_of_false (fun hb => ?_) List.not_mem_nil
    exact List.find?_eq_none.mp hnext w' (hin hb.2) (decide_eq_true hb.1)
  | some w₁ =>
    obtain ⟨-, hlt, hfirst⟩ := following_some hnext h.sound.sorted
    have hzero : (s.leaveEntry w).placeAt w' = 0 := ite_self 0
    rw [mem_ahead (s := s.leaveEntry w) hnext, hzero, List.drop_zero]
    exact and_congr_left fun hb => ⟨fun hw => hfirst w' (hin hb) hw, hlt.trans_le⟩

/-- The loop has one window less to go through. -/
private theorem Kept.entries_leave (h : Kept e₀ clock s) (hentry : s.entry = some w) :
    (s.leaveEntry w).entries < s.entries := by
  unfold entries
  rw [hentry]
  change (match s.following w with
    | none => 0
    | some w₁ => ((s.leaveEntry w).effect.windows.filter (w₁ < ·)).length + 1) < _
  cases hnext : s.following w with
  | none => exact Nat.succ_pos _
  | some w₁ =>
    obtain ⟨hmem, hlt, -⟩ := following_some hnext h.sound.sorted
    have hsub := leaveEntry_sublist s w
    have hnodup : (w₁ :: (s.leaveEntry w).effect.windows.filter (w₁ < ·)).Nodup :=
      List.nodup_cons.mpr ⟨by simp, ((h.sound.sorted.imp Nat.ne_of_lt).sublist hsub).filter _⟩
    have hsubset : w₁ :: (s.leaveEntry w).effect.windows.filter (w₁ < ·) ⊆ s.effect.windows.filter (w < ·) := by
      refine List.cons_subset.mpr ⟨List.mem_filter.mpr ⟨hmem, decide_eq_true hlt⟩, fun w' hw' => ?_⟩
      obtain ⟨hw', hlt'⟩ := List.mem_filter.mp hw'
      exact List.mem_filter.mpr ⟨hsub.subset hw', decide_eq_true (hlt.trans (of_decide_eq_true hlt'))⟩
    have hlen := (List.subperm_of_subset hnodup hsubset).length_le
    rw [List.length_cons] at hlen
    exact Nat.lt_succ_of_le hlen

/-- The list of a window is at its end. -/
theorem Kept.leave (h : Kept e₀ clock s) (hentry : s.entry = some w)
    (hend : (s.effect.animations w)[s.anim]? = none) :
    Kept e₀ clock (s.leaveEntry w) ∧ (s.leaveEntry w).entries < s.entries := by
  have hahead := h.ahead_leave hentry hend
  refine ⟨⟨h.sound.of_sublist (leaveEntry_sublist s w) (fun w' hw' hno => ?_) (fun _ => .refl _) rfl, fun w₁ hw₁ => ?_,
    h.counter, h.origin, h.account, h.cancelled_gone, h.reported_gone, fun id hid => ?_, h.nodup,
    fun w' b hb hb' => ?_⟩, h.entries_leave hentry⟩
  · have hw : w' = w := by_contra fun hne => hno (mem_leaveEntry hw' hne)
    subst hw
    by_contra hlist
    exact hno (show w' ∈ if _ then _ else _ from (if_neg hlist).symm ▸ hw')
  · obtain ⟨hmem, hlt, -⟩ := following_some hw₁ h.sound.sorted
    exact ⟨mem_leaveEntry hmem hlt.ne', rfl, Nat.zero_le _⟩
  · exact (h.passed_behind id hid).imp_right fun hbehind w' b hb => hbehind w' b ((hahead w' b).mpr hb)
  · rcases h.ended w' b hb hb' with hid | hid | hid | ⟨w₁, b₁, hb₁, hid, hb₁'⟩
    · exact .inl hid
    · exact .inr (.inl hid)
    · exact .inr (.inr (.inl hid))
    · exact .inr (.inr (.inr ⟨w₁, b₁, (hahead w₁ b₁).mp hb₁, hid, hb₁'⟩))

end rounds
end PostPaint
end KWinFT.Effects
