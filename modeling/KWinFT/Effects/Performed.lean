import KWinFT.Effects.AnimationEffect

/-! What an action does to the animations of an effect. Each starts, changes or cancels at most one of them. -/
namespace KWinFT.Effects
variable {K : Type*} [Field K]

namespace AnimationEffect

def Present (e : AnimationEffect K) (id : Nat) : Prop := ∃ window, ∃ a ∈ e.animations window, a.id = id

/-- Windows in order, animations only at these, each with an id of its own. -/
structure Sound (e : AnimationEffect K) : Prop where
  sorted : e.windows.Pairwise (· < ·)
  absent : ∀ window ∉ e.windows, e.animations window = []
  nodup : ∀ window, ((e.animations window).map (·.id)).Nodup
  apart : ∀ window window' a a', a ∈ e.animations window → a' ∈ e.animations window' → a.id = a'.id → window = window'
  known : ∀ id, e.Present id → id ≤ e.animCounter

/-- What can be said of a later state whatever was done: ids are not used again, and what was cancelled was there. -/
structure Later (e e' : AnimationEffect K) : Prop where
  counter : e.animCounter ≤ e'.animCounter
  fresh : ∀ id ≤ e.animCounter, e'.Present id → e.Present id
  cancelled : ∀ id ≤ e.animCounter, id ∈ e'.cancelled → id ∈ e.cancelled ∨ e.Present id
  started : e.started ⊆ e'.started

section later
variable {e e' e'' : AnimationEffect K} {clock : Int}

theorem Later.refl (e : AnimationEffect K) : Later e e :=
  ⟨Nat.le_refl _, fun _ _ h => h, fun _ _ h => .inl h, List.Subset.refl _⟩

theorem Later.trans (h : Later e e') (h' : Later e' e'') : Later e e'' where
  counter := h.counter.trans h'.counter
  fresh id hid hp := h.fresh id hid (h'.fresh id (hid.trans h.counter) hp)
  cancelled id hid hc := (h'.cancelled id (hid.trans h.counter) hc).elim (h.cancelled id hid)
    fun hp => .inr (h.fresh id hid hp)
  started := List.Subset.trans h.started h'.started

/-- Where only one list is changed, and no id is new in it. -/
private theorem Later.of_update {window : Nat} {list : List (AniData K)}
    (hlist : ∀ a ∈ list, ∃ a' ∈ e.animations window, a'.id = a.id)
    (hanimations : e'.animations = Function.update e.animations window list) (hcounter : e'.animCounter = e.animCounter)
    (hcancelled : ∀ id ∈ e'.cancelled, id ∈ e.cancelled ∨ e.Present id) (hstarted : e'.started = e.started) :
    Later e e' where
  counter := hcounter.ge
  fresh id _ hp := by
    obtain ⟨window', a, ha, rfl⟩ := hp
    rw [hanimations, Function.update_apply] at ha
    split at ha
    · obtain ⟨a', ha', hid⟩ := hlist a ha
      exact ⟨window, a', ha', hid⟩
    · exact ⟨window', a, ha, rfl⟩
  cancelled id _ hc := hcancelled id hc
  started := hstarted ▸ List.Subset.refl _

theorem find_some {animationId window : Nat} (h : e.find animationId = some window) :
    window ∈ e.windows ∧ ∃ a ∈ e.animations window, a.id = animationId := by
  refine ⟨List.mem_of_find?_eq_some h, ?_⟩
  simpa using List.find?_some h

private theorem modify_ids {l : List (AniData K)} {i : Nat} {f : AniData K → AniData K} (hf : ∀ a, (f a).id = a.id) :
    (l.modify i f).map (·.id) = l.map (·.id) := by
  induction l generalizing i with
  | nil => rw [List.modify_nil]
  | cons a l ih =>
    cases i with
    | zero => simp [hf]
    | succ i => simp [ih]

private theorem later_modify {animationId : Nat} {f : AniData K → AniData K} (hf : ∀ a, (f a).id = a.id) :
    Later e (e.modify clock animationId f) := by
  unfold modify
  split
  · exact .refl e
  · split
    · exact .refl e
    · next window hfind =>
      refine .of_update (fun a ha => ?_) rfl rfl (fun _ hc => .inl hc) rfl
      have hmem : a.id ∈ ((e.animations window).modify ((e.animations window).findIdx (·.id = animationId)) f).map (·.id) :=
        List.mem_map_of_mem ha
      rw [modify_ids hf] at hmem
      obtain ⟨a', ha', hid⟩ := List.mem_map.mp hmem
      exact ⟨a', ha', hid⟩

private theorem later_cancel {animationId : Nat} : Later e (e.cancel animationId) := by
  unfold cancel
  split
  · exact .refl e
  · split
    · exact .refl e
    · next window hfind =>
      refine .of_update (fun a ha => ⟨a, List.mem_of_mem_eraseP ha, rfl⟩) rfl rfl (fun id hc => ?_) rfl
      rcases List.mem_append.mp hc with hc | hc
      · exact .inl hc
      · obtain ⟨-, a, ha, hid⟩ := find_some hfind
        exact .inr ⟨window, a, ha, hid.trans (List.mem_singleton.mp hc).symm⟩

private theorem later_animate {window : Nat} {ms : Int} {to_ : FPx2 K} {curve : EasingCurve K} {delay : Int}
    {from_ : FPx2 K} {waitAtSource keepAtTarget : Bool} :
    Later e (e.animate clock window ms to_ curve delay from_ waitAtSource keepAtTarget) where
  counter := Nat.le_succ _
  fresh id hid hp := by
    obtain ⟨window', a, ha, rfl⟩ := hp
    unfold animate at ha
    dsimp only at ha
    rw [Function.update_apply] at ha
    split at ha
    · rcases List.mem_append.mp ha with ha | ha
      · split at ha
        · exact ⟨window, a, ha, rfl⟩
        · cases ha
      · rw [List.mem_singleton.mp ha] at hid
        exact absurd hid (Nat.not_succ_le_self _)
    · exact ⟨window', a, ha, rfl⟩
  cancelled id _ hc := .inl hc
  started := List.subset_append_left _ _

theorem Later.perform (e : AnimationEffect K) (clock : Int) (action : Action K) : Later e (e.perform clock action) := by
  cases action with
  | animate => exact later_animate
  | retarget => exact later_modify fun _ => rfl
  | redirect => exact later_modify fun _ => rfl
  | complete => exact later_modify fun _ => rfl
  | cancel => exact later_cancel

end later

section lists
variable {l : List (AniData K)} {animationId : Nat}

private theorem eraseP_eq_filter (hl : (l.map (·.id)).Nodup) :
    l.eraseP (·.id = animationId) = l.filter (·.id ≠ animationId) := by
  induction l with
  | nil => rfl
  | cons a l ih =>
    obtain ⟨ha, hl⟩ := List.nodup_cons.mp hl
    by_cases hid : a.id = animationId
    · have hrest : l.filter (·.id ≠ animationId) = l := by
        refine List.filter_eq_self.mpr fun b hb => decide_eq_true fun he => ha ?_
        exact List.mem_map.mpr ⟨b, hb, he.trans hid.symm⟩
      simp only [List.eraseP_cons, List.filter_cons, hid, decide_true, cond_true, ne_eq, not_true, decide_false,
        Bool.false_eq_true, if_false]
      exact hrest.symm
    · simp only [List.eraseP_cons, List.filter_cons, hid, decide_false, cond_false, ne_eq, not_false_eq_true,
        decide_true, if_true]
      rw [ih hl]

private theorem modify_eq_map {f : AniData K → AniData K} (hl : (l.map (·.id)).Nodup) :
    l.modify (l.findIdx (·.id = animationId)) f = l.map fun a => if a.id = animationId then f a else a := by
  induction l with
  | nil => rw [List.modify_nil, List.map_nil]
  | cons a l ih =>
    obtain ⟨ha, hl⟩ := List.nodup_cons.mp hl
    by_cases hid : a.id = animationId
    · have hrest : l.map (fun a => if a.id = animationId then f a else a) = l := by
        refine (List.map_congr_left fun b hb => ?_).trans (List.map_id l)
        exact if_neg fun he => ha (List.mem_map.mpr ⟨b, hb, he.trans hid.symm⟩)
      rw [List.findIdx_cons, decide_eq_true hid, List.map_cons, if_pos hid, hrest]
      rfl
    · rw [List.findIdx_cons, decide_eq_false hid, List.map_cons, if_neg hid, ← ih hl]
      rfl

end lists

/-- What an action does to the animations: nothing, or one is started, changed in its place, or cancelled. -/
inductive Performed (e : AnimationEffect K) (clock : Int) (action : Action K) (e' : AnimationEffect K) : Prop
  | nothing (same : e' = e)
  | started (window : Nat) (a : AniData K) (id : a.id = e.animCounter + 1)
      (windows : e'.windows = if window ∈ e.windows then e.windows else e.windows.orderedInsert (· ≤ ·) window)
      (animations : ∀ w, e'.animations w = e.animations w ++ if w = window then [a] else [])
      (counter : e'.animCounter = e.animCounter + 1) (started : e'.started = e.started ++ [a.id])
      (cancelled : e'.cancelled = e.cancelled) (resumed : e'.resumed = e.resumed)
      (just : e'.justEndedAnimation = e.justEndedAnimation)
  | modified (animationId : Nat) (f : AniData K → AniData K) (other : animationId ≠ e.justEndedAnimation)
      (id : ∀ a, (f a).id = a.id) (windows : e'.windows = e.windows)
      (animations : ∀ w, e'.animations w = (e.animations w).map fun a => if a.id = animationId then f a else a)
      (counter : e'.animCounter = e.animCounter) (started : e'.started = e.started)
      (cancelled : e'.cancelled = e.cancelled) (resumed : e.resumed ⊆ e'.resumed)
      (resumes : ∀ w, ∀ a ∈ e.animations w, a.id = animationId → a.ended clock → ¬ (f a).ended clock →
        animationId ∈ e'.resumed)
      (just : e'.justEndedAnimation = e.justEndedAnimation)
  | cancelled (animationId : Nat) (asked : action = .cancel animationId) (other : animationId ≠ e.justEndedAnimation)
      (windows : e'.windows.Sublist e.windows) (left : ∀ w ∈ e.windows, w ∉ e'.windows → e'.animations w = [])
      (present : e.Present animationId)
      (animations : ∀ w, e'.animations w = (e.animations w).filter (·.id ≠ animationId))
      (counter : e'.animCounter = e.animCounter) (started : e'.started = e.started)
      (cancelled : e'.cancelled = e.cancelled ++ [animationId]) (resumed : e'.resumed = e.resumed)
      (just : e'.justEndedAnimation = e.justEndedAnimation)

section performed
variable {e : AnimationEffect K} {clock : Int} {action : Action K}

theorem find_none {animationId : Nat} (he : Sound e) (h : e.find animationId = none) : ¬ e.Present animationId := by
  rintro ⟨window, a, ha, hid⟩
  have hwindow : window ∈ e.windows := by
    by_contra hno
    rw [he.absent window hno] at ha
    cases ha
  have := List.find?_eq_none.mp h window hwindow
  exact this (List.any_eq_true.mpr ⟨a, ha, decide_eq_true hid⟩)

private theorem performed_animate (he : Sound e) {window : Nat} {ms : Int} {to_ : FPx2 K} {curve : EasingCurve K}
    {delay : Int} {from_ : FPx2 K} {waitAtSource keepAtTarget : Bool} :
    Performed e clock action (e.animate clock window ms to_ curve delay from_ waitAtSource keepAtTarget) := by
  refine .started window
    (.animate clock (e.animCounter + 1) ms to_ curve delay from_ waitAtSource keepAtTarget) rfl rfl (fun w => ?_) rfl rfl
    rfl rfl rfl
  have hlist : (if window ∈ e.windows then e.animations window else []) = e.animations window := by
    split
    · rfl
    · next hno => rw [he.absent window hno]
  unfold animate
  dsimp only
  rw [hlist, Function.update_apply]
  split
  · next hw => rw [hw]
  · rw [List.append_nil]

private theorem performed_modify (he : Sound e) {animationId : Nat} {f : AniData K → AniData K}
    (hf : ∀ a, (f a).id = a.id) : Performed e clock action (e.modify clock animationId f) := by
  unfold modify
  split
  · exact .nothing rfl
  · next hother =>
    split
    · exact .nothing rfl
    · next window hfind =>
      obtain ⟨-, a, ha, hid⟩ := find_some hfind
      refine .modified animationId f hother hf rfl (fun w => ?_) rfl rfl rfl ?_ (fun w b hb hbid hended hnot => ?_) rfl
      · dsimp only
        rw [modify_eq_map (he.nodup window), Function.update_apply]
        split
        · next hw => rw [hw]
        · next hw =>
          refine ((List.map_congr_left fun b hb => if_neg fun hbid => hw ?_).trans (List.map_id _)).symm
          exact he.apart w window b a hb ha (hbid.trans hid.symm)
      · dsimp only
        split
        · exact List.subset_append_left _ _
        · exact List.Subset.refl _
      · obtain rfl : w = window := he.apart w window b a hb ha (hbid.trans hid.symm)
        have hlt : (e.animations w).findIdx (·.id = animationId) < (e.animations w).length :=
          List.findIdx_lt_length_of_exists ⟨b, hb, decide_eq_true hbid⟩
        have hplace : ((e.animations w)[(e.animations w).findIdx (·.id = animationId)]?) = some b := by
          have hfound := List.findIdx_getElem (w := hlt)
          rw [List.getElem?_eq_getElem hlt]
          congr 1
          exact List.inj_on_of_nodup_map (he.nodup w) (List.getElem_mem hlt) hb
            ((of_decide_eq_true hfound).trans hbid.symm)
        dsimp only
        rw [hplace]
        simp [hended, hnot]

private theorem performed_cancel (he : Sound e) {animationId : Nat} (haction : action = .cancel animationId) :
    Performed e clock action (e.cancel animationId) := by
  unfold cancel
  split
  · exact .nothing rfl
  · next hother =>
    split
    · exact .nothing rfl
    · next window hfind =>
      obtain ⟨hwindow, a, ha, hid⟩ := find_some hfind
      refine .cancelled animationId haction hother ?_ (fun w hw hno => ?_) ⟨window, a, ha, hid⟩ (fun w => ?_) rfl rfl rfl rfl rfl
      · dsimp only
        split
        · exact List.erase_sublist
        · exact .refl _
      · dsimp only at hno ⊢
        split at hno
        · next hempty =>
          have hw : w = window := by
            by_contra hne
            exact hno ((List.mem_erase_of_ne hne).mpr hw)
          rw [hw, Function.update_self]
          exact hempty
        · exact absurd hw hno
      · dsimp only
        rw [eraseP_eq_filter (he.nodup window), Function.update_apply]
        split
        · next hw => rw [hw]
        · next hw =>
          have hall : (e.animations w).filter (·.id ≠ animationId) = e.animations w :=
            List.filter_eq_self.mpr fun b hb => decide_eq_true fun hbid =>
              hw (he.apart w window b a hb ha (hbid.trans hid.symm))
          exact hall.symm

theorem Sound.cancel_gone (he : Sound e) {animationId : Nat} (hother : animationId ≠ e.justEndedAnimation) :
    ¬ (e.cancel animationId).Present animationId := by
  unfold cancel
  rw [if_neg hother]
  split
  · next hfind => exact find_none he hfind
  · next window hfind =>
    obtain ⟨-, a, ha, hid⟩ := find_some hfind
    rintro ⟨w, b, hb, hbid⟩
    dsimp only at hb
    rw [eraseP_eq_filter (he.nodup window), Function.update_apply] at hb
    split at hb
    · exact of_decide_eq_true (List.mem_filter.mp hb).2 hbid
    · next hw => exact hw (he.apart w window b a hb ha (hbid.trans hid.symm))

theorem Sound.performed (he : Sound e) (clock : Int) (action : Action K) :
    Performed e clock action (e.perform clock action) := by
  cases action with
  | animate => exact performed_animate he
  | retarget => exact performed_modify he fun _ => rfl
  | redirect => exact performed_modify he fun _ => rfl
  | complete => exact performed_modify he fun _ => rfl
  | cancel => exact performed_cancel he rfl

/-- Where animations and windows only go. -/
theorem Sound.of_sublist {e' : AnimationEffect K} (he : Sound e) (hwindows : e'.windows.Sublist e.windows)
    (hleft : ∀ w ∈ e.windows, w ∉ e'.windows → e'.animations w = [])
    (hlists : ∀ w, ((e'.animations w).map (·.id)).Sublist ((e.animations w).map (·.id)))
    (hcounter : e'.animCounter = e.animCounter) : Sound e' where
  sorted := he.sorted.sublist hwindows
  absent w hw := by
    by_cases hmem : w ∈ e.windows
    · exact hleft w hmem hw
    · have := hlists w
      rw [he.absent w hmem, List.map_nil, List.sublist_nil, List.map_eq_nil_iff] at this
      exact this
  nodup w := (he.nodup w).sublist (hlists w)
  apart w w' a a' ha ha' hid := by
    obtain ⟨b, hb, hbid⟩ := List.mem_map.mp ((hlists w).subset (List.mem_map_of_mem ha))
    obtain ⟨b', hb', hbid'⟩ := List.mem_map.mp ((hlists w').subset (List.mem_map_of_mem ha'))
    exact he.apart w w' b b' hb hb' (hbid.trans (hid.trans hbid'.symm))
  known id hp := by
    obtain ⟨w, a, ha, rfl⟩ := hp
    obtain ⟨b, hb, hbid⟩ := List.mem_map.mp ((hlists w).subset (List.mem_map_of_mem ha))
    rw [hcounter]
    exact he.known _ ⟨w, b, hb, hbid⟩

theorem map_changed_ids {l : List (AniData K)} {animationId : Nat} {f : AniData K → AniData K}
    (hf : ∀ a, (f a).id = a.id) : (l.map fun a => if a.id = animationId then f a else a).map (·.id) = l.map (·.id) := by
  rw [List.map_map]
  refine List.map_congr_left fun a _ => ?_
  dsimp only [Function.comp_apply]
  split
  · exact hf a
  · rfl

theorem Performed.sound {e' : AnimationEffect K} (h : Performed e clock action e') (he : Sound e) : Sound e' := by
  cases h with
  | nothing same => exact same ▸ he
  | started window a id windows animations counter _ _ _ _ =>
    have hnew : ∀ w, a.id ∉ (e.animations w).map (·.id) := fun w hmem => by
      obtain ⟨b, hb, hbid⟩ := List.mem_map.mp hmem
      have := he.known _ ⟨w, b, hb, hbid⟩
      omega
    have hmem : ∀ {w b}, b ∈ e'.animations w ↔ b ∈ e.animations w ∨ w = window ∧ b = a := fun {w b} => by
      rw [animations, List.mem_append]
      split
      · next hw => rw [List.mem_singleton, and_iff_right hw]
      · next hw => simp [hw]
    refine ⟨?_, fun w hw => ?_, fun w => ?_, fun w w' b b' hb hb' hid => ?_, fun i hp => ?_⟩
    · rw [windows]
      split
      · exact he.sorted
      · next hno =>
        have hle : (e.windows.orderedInsert (· ≤ ·) window).Pairwise (· ≤ ·) :=
          (he.sorted.imp Nat.le_of_lt).orderedInsert window _
        have hne : (e.windows.orderedInsert (· ≤ ·) window).Pairwise (· ≠ ·) :=
          (List.perm_orderedInsert _ window e.windows).nodup_iff.mpr
            (List.nodup_cons.mpr ⟨hno, he.sorted.imp Nat.ne_of_lt⟩)
        exact hle.imp₂ (fun _ _ => Nat.lt_of_le_of_ne) hne
    · have hne : w ≠ window := by
        rintro rfl
        rw [windows] at hw
        split at hw
        · next hin => exact hw hin
        · exact hw ((List.mem_orderedInsert _).mpr (.inl rfl))
      have hno : w ∉ e.windows := by
        rw [windows] at hw
        split at hw
        · exact hw
        · exact fun hin => hw ((List.mem_orderedInsert _).mpr (.inr hin))
      rw [animations, he.absent w hno, if_neg hne, List.append_nil]
    · rw [animations, List.map_append]
      split
      · rw [List.map_singleton, ← List.concat_eq_append]
        exact (he.nodup w).concat (hnew w)
      · rw [List.map_nil, List.append_nil]
        exact he.nodup w
    · rcases hmem.mp hb with hb | ⟨rfl, rfl⟩ <;> rcases hmem.mp hb' with hb' | ⟨rfl, rfl⟩
      · exact he.apart w w' b b' hb hb' hid
      · exact absurd (List.mem_map.mpr ⟨b, hb, hid⟩) (hnew w)
      · exact absurd (List.mem_map.mpr ⟨b', hb', hid.symm⟩) (hnew w')
      · rfl
    · obtain ⟨w, b, hb, rfl⟩ := hp
      rw [counter]
      rcases hmem.mp hb with hb | ⟨-, rfl⟩
      · exact (he.known _ ⟨w, b, hb, rfl⟩).trans (Nat.le_succ _)
      · exact id.le
  | modified animationId f _ hf windows animations counter _ _ _ _ _ =>
    refine he.of_sublist (windows ▸ .refl _) (fun w hw hno => absurd (windows ▸ hw) hno) (fun w => ?_) counter
    rw [animations, map_changed_ids hf]
  | cancelled animationId _ _ windows left _ animations counter _ _ _ _ =>
    refine he.of_sublist windows left (fun w => ?_) counter
    rw [animations]
    exact List.filter_sublist.map _

/-- Nothing comes or goes unnoticed. -/
structure Accounted (e e' : AnimationEffect K) : Prop where
  counter : e'.animCounter + e.started.length = e.animCounter + e'.started.length
  origin : ∀ id, e'.Present id → e.Present id ∨ id ∈ e'.started
  account : ∀ id, e.Present id → e'.Present id ∨ id ∈ e'.cancelled
  started : ∀ id ∈ e'.started, id ∈ e.started ∨ e'.Present id
  cancelled : ∀ id ∈ e'.cancelled, id ∈ e.cancelled ∨ id ≤ e.animCounter ∧ ¬ e'.Present id
  kept : e.cancelled ⊆ e'.cancelled ∧ e.resumed ⊆ e'.resumed
  just : e'.justEndedAnimation = e.justEndedAnimation
  windows : ∀ w, (e'.windows.filter (w < ·)).length + e.started.length ≤ (e.windows.filter (w < ·)).length + e'.started.length

theorem Performed.accounted {e' : AnimationEffect K} (h : Performed e clock action e') (he : Sound e) :
    Accounted e e' := by
  cases h with
  | nothing same =>
    subst same
    exact ⟨rfl, fun _ => .inl, fun _ => .inl, fun _ => .inl, fun _ => .inl, ⟨List.Subset.refl _, List.Subset.refl _⟩, rfl,
      fun _ => Nat.le_refl _⟩
  | started window a id windows animations counter started cancelled resumed just =>
    have hstays : ∀ i, e.Present i → e'.Present i := fun i ⟨w, b, hb, hid⟩ =>
      ⟨w, b, by rw [animations]; exact List.mem_append_left _ hb, hid⟩
    have hnew : e'.Present a.id := ⟨window, a, by rw [animations, if_pos rfl]; simp, rfl⟩
    refine ⟨?_, fun i hp => ?_, fun i hp => .inl (hstays i hp), fun i hi => ?_, fun i hi => .inl (cancelled ▸ hi),
      ⟨cancelled ▸ List.Subset.refl _, resumed ▸ List.Subset.refl _⟩, just, fun w => ?_⟩
    · rw [counter, started, List.length_append, List.length_singleton]
      omega
    · obtain ⟨w, b, hb, rfl⟩ := hp
      rw [animations, List.mem_append] at hb
      rcases hb with hb | hb
      · exact .inl ⟨w, b, hb, rfl⟩
      · split at hb
        · rw [List.mem_singleton.mp hb, started]
          simp
        · cases hb
    · rw [started, List.mem_append, List.mem_singleton] at hi
      exact hi.imp_right (by rintro rfl; exact hnew)
    · rw [started, List.length_append, List.length_singleton, windows]
      split
      · omega
      · have hperm := ((List.perm_orderedInsert (· ≤ ·) window e.windows).filter (w < ·)).length_eq
        rw [hperm, List.filter_cons]
        split
        · rw [List.length_cons]
          omega
        · omega
  | modified animationId f _ hf windows animations counter started cancelled resumed _ just =>
    have hpresent : ∀ i, e'.Present i ↔ e.Present i := fun i => by
      refine exists_congr fun w => ?_
      have hids : (((e.animations w).map fun a => if a.id = animationId then f a else a).map (·.id)) =
          (e.animations w).map (·.id) := map_changed_ids hf
      rw [← animations w] at hids
      have := congrArg (i ∈ ·) hids
      simpa only [List.mem_map, eq_iff_iff] using this
    refine ⟨by rw [counter, started], fun i hp => .inl ((hpresent i).mp hp), fun i hp => .inl ((hpresent i).mpr hp),
      fun i hi => .inl (started ▸ hi), fun i hi => .inl (cancelled ▸ hi), ⟨cancelled ▸ List.Subset.refl _, resumed⟩, just,
      fun w => by rw [started, windows]⟩
  | cancelled animationId _ _ windows left present animations counter started cancelled resumed just =>
    have hmem : ∀ w b, b ∈ e'.animations w ↔ b ∈ e.animations w ∧ b.id ≠ animationId := fun w b => by
      rw [animations, List.mem_filter, decide_eq_true_iff]
    refine ⟨by rw [counter, started], fun i ⟨w, b, hb, hid⟩ => .inl ⟨w, b, ((hmem w b).mp hb).1, hid⟩,
      fun i ⟨w, b, hb, hid⟩ => ?_, fun i hi => .inl (started ▸ hi), fun i hi => ?_,
      ⟨cancelled ▸ List.subset_append_left _ _, resumed ▸ List.Subset.refl _⟩, just,
      fun w => started ▸ Nat.add_le_add_right (windows.filter _).length_le _⟩
    · by_cases hi : i = animationId
      · exact .inr (by rw [cancelled, hi]; simp)
      · exact .inl ⟨w, b, (hmem w b).mpr ⟨hb, hid ▸ hi⟩, hid⟩
    · rw [cancelled, List.mem_append, List.mem_singleton] at hi
      refine hi.imp_right ?_
      rintro rfl
      exact ⟨he.known _ present, fun ⟨w, b, hb, hid⟩ => ((hmem w b).mp hb).2 hid⟩

end performed
end AnimationEffect

end KWinFT.Effects
