import KWinFT.Gestures.Recognizer
import Mathlib.Tactic.Linarith
import Mathlib.Algebra.Order.Field.Rat

/-! Every gesture that a swipe starts is triggered or cancelled once, and what decides between the two. -/
namespace KWinFT.Gestures

/-- What a gesture hears apart from its progress. -/
def Signal.isTo (g : GestureId) : Signal → Bool
  | .started h | .triggered h | .cancelled h => h = g
  | .progress _ _ => false

def received (g : GestureId) (signals : List Signal) : List Signal := signals.filter (·.isTo g)

/-- Calls between the start of a swipe and its end. -/
def Event.withinSwipe : Event → Bool
  | .registerGesture _ | .unregisterGesture _ | .updateSwipeGesture _ => true
  | .startSwipeGesture _ _ | .cancelSwipeGesture | .endSwipeGesture => false

/-- The gesture stays registered and the swipe has its direction, unless it moves less than a pixel. -/
def Keeps (props : GestureId → SwipeGesture) (g : GestureId) : Event → Prop
  | .unregisterGesture h => h ≠ g
  | .updateSwipeGesture delta =>
    ¬ delta.isSubPixel → delta.width ≠ delta.height ∧ delta.swipeDirection = (props g).direction
  | _ => True

/-- The deltas reported since a swipe was last ended or cancelled. -/
def sinceClosed (es : List Event) : List SizeF :=
  es.foldl (fun deltas e => match e with
    | .updateSwipeGesture delta => deltas ++ [delta]
    | .cancelSwipeGesture | .endSwipeGesture => []
    | _ => deltas) []

/-- The minimum delta is reached along the direction, when it is relevant. -/
def SwipeGesture.Reaches (g : SwipeGesture) (sum : SizeF) : Prop :=
  ∀ minimum, g.minimumDelta = some minimum → |g.axis minimum| ≤ |g.axis sum|

/-- A minimum delta is not zero along the direction of the gesture only. -/
def SwipeGesture.Directed (g : SwipeGesture) : Prop :=
  ∀ minimum, g.minimumDelta = some minimum → (minimum.width = 0 ∧ minimum.height = 0) ∨ g.axis minimum ≠ 0

theorem minimumDeltaReached_iff {g : SwipeGesture} (hg : g.Directed) (sum : SizeF) :
    g.minimumDeltaReached sum ↔ g.Reaches sum := by
  unfold SwipeGesture.minimumDeltaReached SwipeGesture.minimumDeltaReachedProgress SwipeGesture.Reaches
  cases hm : g.minimumDelta with
  | none => simp
  | some minimum =>
    simp only [Option.some.injEq, forall_eq']
    by_cases hnull : minimum.width = 0 ∧ minimum.height = 0
    · have haxis : g.axis minimum = 0 := by
        unfold SwipeGesture.axis
        split
        · exact hnull.2
        · exact hnull.2
        · exact hnull.1
        · exact hnull.1
      simp [hnull, haxis]
    · have haxis : g.axis minimum ≠ 0 := (hg minimum hm).resolve_left hnull
      have hpos : 0 < |g.axis minimum| := abs_pos.mpr haxis
      simp only [hnull, if_false, progressRatio, haxis, decide_eq_true_eq, le_min_iff, le_refl, and_true]
      rw [le_div_iff₀ hpos, one_mul]

section received
variable {g : GestureId}

@[simp] private theorem received_append (a b : List Signal) : received g (a ++ b) = received g a ++ received g b :=
  List.filter_append ..

/-- Of a loop over gestures, each hears only its own round. -/
private theorem received_flatMap {l : List GestureId} (hl : l.Nodup) (f : GestureId → List Signal)
    (hf : ∀ h, h ≠ g → received g (f h) = []) :
    received g (l.flatMap f) = if g ∈ l then received g (f g) else [] := by
  induction l with
  | nil => rfl
  | cons h l ih =>
    obtain ⟨hnot, hl⟩ := List.nodup_cons.mp hl
    rw [List.flatMap_cons, received_append, ih hl]
    by_cases he : h = g
    · subst he
      simp [hnot]
    · simp [hf h he, Ne.symm he]

private theorem received_map {l : List GestureId} (hl : l.Nodup) (f : GestureId → Signal)
    (hf : ∀ h, (f h).isTo g ↔ h = g) : received g (l.map f) = if g ∈ l then [f g] else [] := by
  rw [List.map_eq_flatMap, received_flatMap hl]
  · simp [received, (hf g).mpr rfl]
  · intro h hne
    simp [received, mt (hf h).mp hne]

end received

/-- Gestures are registered and active at most once, and none is active without a swipe. -/
structure Sound (s : Swipes) : Prop where
  gestures : s.recognizer.gestures.Nodup
  activeSwipeGestures : s.recognizer.activeSwipeGestures.Nodup
  idle : s.active = false → s.recognizer.activeSwipeGestures = []

section step
variable {props : GestureId → SwipeGesture} {s s' : Swipes} {signals : List Signal} {e : Event}

/-- What an update does: nothing, a diagonal cancels all gestures, or those of other directions are cancelled. -/
private theorem updateSwipeGesture_cases (props : GestureId → SwipeGesture) (r : GestureRecognizer) (delta : SizeF) :
    (delta.isSubPixel ∧
      r.updateSwipeGesture props delta = ({ r with swipeUpdates := r.swipeUpdates ++ [delta] }, [])) ∨
    (¬ delta.isSubPixel ∧ delta.width = delta.height ∧ r.updateSwipeGesture props delta =
      ({ r with activeSwipeGestures := [], swipeUpdates := r.swipeUpdates ++ [delta] },
        r.activeSwipeGestures.map .cancelled)) ∨
    (¬ delta.isSubPixel ∧ delta.width ≠ delta.height ∧ r.updateSwipeGesture props delta =
      ({ r with
          activeSwipeGestures := r.activeSwipeGestures.filter fun g => (props g).direction = delta.swipeDirection
          swipeUpdates := r.swipeUpdates ++ [delta] },
        r.activeSwipeGestures.flatMap fun g =>
          if (props g).direction = delta.swipeDirection then
            if (props g).minimumDelta.isSome then
              [.progress g ((props g).minimumDeltaReachedProgress (combined (r.swipeUpdates ++ [delta])))]
            else []
          else [.cancelled g])) := by
  by_cases hsub : delta.isSubPixel
  · exact .inl ⟨hsub, if_pos hsub⟩
  · by_cases hdiag : delta.width = delta.height
    · exact .inr (.inl ⟨hsub, hdiag, (if_neg hsub).trans (if_pos hdiag)⟩)
    · exact .inr (.inr ⟨hsub, hdiag, (if_neg hsub).trans (if_neg hdiag)⟩)

private theorem Sound.step (hs : Sound s) (h : s.step props e = some (s', signals)) : Sound s' := by
  obtain ⟨hgestures, hactive, hidle⟩ := hs
  cases e with
  | registerGesture g =>
    obtain ⟨r, hr, he⟩ := Option.map_eq_some_iff.mp h
    cases he
    unfold GestureRecognizer.registerGesture at hr
    split at hr
    · cases hr
    · next hnot =>
      cases hr
      refine ⟨List.nodup_append.mpr ⟨hgestures, List.pairwise_singleton _ g, ?_⟩, hactive, hidle⟩
      rintro a ha b hb rfl
      exact hnot (List.mem_singleton.mp hb ▸ ha)
  | unregisterGesture g =>
    cases h
    exact ⟨hgestures.filter _, hactive.erase g, fun hi => by simp [hidle hi]⟩
  | startSwipeGesture fingerCount startPos =>
    simp only [Swipes.step] at h
    split at h
    · cases h
    · next hi =>
      cases h
      refine ⟨hgestures, ?_, fun hi => by cases hi⟩
      simp only [GestureRecognizer.startSwipeGesture, hidle (Bool.not_eq_true _ ▸ hi), List.nil_append]
      exact hgestures.filter _
  | updateSwipeGesture delta =>
    simp only [Swipes.step] at h
    obtain ⟨-, hu⟩ | ⟨-, -, hu⟩ | ⟨-, -, hu⟩ := updateSwipeGesture_cases props s.recognizer delta
    · rw [hu] at h
      cases h
      exact ⟨hgestures, hactive, hidle⟩
    · rw [hu] at h
      cases h
      exact ⟨hgestures, List.nodup_nil, fun _ => rfl⟩
    · rw [hu] at h
      cases h
      exact ⟨hgestures, hactive.filter _, fun hi => by simp [hidle hi]⟩
  | cancelSwipeGesture =>
    cases h
    exact ⟨hgestures, List.nodup_nil, fun _ => rfl⟩
  | endSwipeGesture =>
    cases h
    exact ⟨hgestures, List.nodup_nil, fun _ => rfl⟩

variable {g : GestureId}

/-- A gesture that is not active hears nothing. -/
private theorem step_inactive (hs : Sound s) (hg : g ∉ s.recognizer.activeSwipeGestures) (he : e.withinSwipe)
    (h : s.step props e = some (s', signals)) :
    g ∉ s'.recognizer.activeSwipeGestures ∧ received g signals = [] := by
  cases e with
  | registerGesture k =>
    obtain ⟨r, hr, he⟩ := Option.map_eq_some_iff.mp h
    cases he
    obtain ⟨-, hr⟩ := Option.ite_none_left_eq_some.mp hr
    cases hr
    exact ⟨hg, rfl⟩
  | unregisterGesture k =>
    cases h
    refine ⟨fun hm => hg (List.mem_of_mem_erase hm), ?_⟩
    split
    · next hk =>
      have hne : k ≠ g := fun he => hg (he ▸ hk)
      simp [received, Signal.isTo, hne]
    · rfl
  | updateSwipeGesture delta =>
    simp only [Swipes.step] at h
    obtain ⟨-, hu⟩ | ⟨-, -, hu⟩ | ⟨-, -, hu⟩ := updateSwipeGesture_cases props s.recognizer delta
    · rw [hu] at h
      cases h
      exact ⟨hg, rfl⟩
    · rw [hu] at h
      cases h
      refine ⟨List.not_mem_nil, ?_⟩
      rw [received_map hs.activeSwipeGestures _ (fun k => by simp [Signal.isTo]), if_neg hg]
    · rw [hu] at h
      cases h
      refine ⟨fun hm => hg (List.mem_filter.mp hm).1, ?_⟩
      rw [received_flatMap hs.activeSwipeGestures, if_neg hg]
      intro k hk
      split
      · split <;> rfl
      · simp [received, Signal.isTo, hk]
  | startSwipeGesture => cases he
  | cancelSwipeGesture => cases he
  | endSwipeGesture => cases he

/-- An active gesture stays active without hearing anything, or is cancelled. -/
private theorem step_active (hs : Sound s) (hg : g ∈ s.recognizer.activeSwipeGestures) (he : e.withinSwipe)
    (h : s.step props e = some (s', signals)) :
    (Keeps props g e ∧ g ∈ s'.recognizer.activeSwipeGestures ∧ received g signals = []) ∨
    (¬ Keeps props g e ∧ g ∉ s'.recognizer.activeSwipeGestures ∧ received g signals = [.cancelled g]) := by
  cases e with
  | registerGesture k =>
    obtain ⟨r, hr, he⟩ := Option.map_eq_some_iff.mp h
    cases he
    obtain ⟨-, hr⟩ := Option.ite_none_left_eq_some.mp hr
    cases hr
    exact .inl ⟨trivial, hg, rfl⟩
  | unregisterGesture k =>
    cases h
    simp only [Keeps]
    by_cases hk : k = g
    · subst hk
      refine .inr ⟨not_not.mpr rfl, hs.activeSwipeGestures.not_mem_erase, ?_⟩
      rw [if_pos hg]
      simp [received, Signal.isTo]
    · refine .inl ⟨hk, (List.mem_erase_of_ne (Ne.symm hk)).mpr hg, ?_⟩
      split
      · simp [received, Signal.isTo, hk]
      · rfl
  | updateSwipeGesture delta =>
    simp only [Swipes.step] at h
    obtain ⟨hsub, hu⟩ | ⟨hsub, hdiag, hu⟩ | ⟨hsub, hdiag, hu⟩ :=
      updateSwipeGesture_cases props s.recognizer delta
    · rw [hu] at h
      cases h
      exact .inl ⟨fun hn => absurd hsub hn, hg, rfl⟩
    · rw [hu] at h
      cases h
      refine .inr ⟨fun hk => (hk hsub).1 hdiag, List.not_mem_nil, ?_⟩
      rw [received_map hs.activeSwipeGestures _ (fun k => by simp [Signal.isTo]), if_pos hg]
    · rw [hu] at h
      cases h
      rw [received_flatMap hs.activeSwipeGestures, if_pos hg]
      · by_cases hdir : (props g).direction = delta.swipeDirection
        · refine .inl ⟨fun _ => ⟨hdiag, hdir.symm⟩, List.mem_filter.mpr ⟨hg, decide_eq_true hdir⟩, ?_⟩
          rw [if_pos hdir]
          split <;> rfl
        · refine .inr ⟨fun hk => hdir (hk hsub).2.symm, fun hm => hdir (of_decide_eq_true (List.mem_filter.mp hm).2), ?_⟩
          rw [if_neg hdir]
          simp [received, Signal.isTo]
      · intro k hk
        split
        · split <;> rfl
        · simp [received, Signal.isTo, hk]
  | startSwipeGesture => cases he
  | cancelSwipeGesture => cases he
  | endSwipeGesture => cases he

/-- The recognizer collects the deltas until the swipe is over. -/
private theorem step_swipeUpdates {es : List Event} (hs : s.recognizer.swipeUpdates = sinceClosed es)
    (h : s.step props e = some (s', signals)) : s'.recognizer.swipeUpdates = sinceClosed (es ++ [e]) := by
  rw [sinceClosed, List.foldl_append, List.foldl_cons, List.foldl_nil, ← sinceClosed]
  cases e with
  | registerGesture k =>
    obtain ⟨r, hr, he⟩ := Option.map_eq_some_iff.mp h
    cases he
    obtain ⟨-, hr⟩ := Option.ite_none_left_eq_some.mp hr
    cases hr
    exact hs
  | unregisterGesture k =>
    cases h
    exact hs
  | startSwipeGesture fingerCount startPos =>
    obtain ⟨-, h⟩ := Option.ite_none_left_eq_some.mp h
    cases h
    exact hs
  | updateSwipeGesture delta =>
    simp only [Swipes.step] at h
    obtain ⟨-, hu⟩ | ⟨-, -, hu⟩ | ⟨-, -, hu⟩ := updateSwipeGesture_cases props s.recognizer delta
    all_goals
      rw [hu] at h
      cases h
      exact congrArg (· ++ [delta]) hs
  | cancelSwipeGesture =>
    cases h
    rfl
  | endSwipeGesture =>
    cases h
    rfl

end step

section run
variable {props : GestureId → SwipeGesture} {s s' : Swipes} {signals : List Signal} {g : GestureId}

private theorem run_cons {e : Event} {es : List Event} (h : s.run props (e :: es) = some (s', signals)) :
    ∃ s₁ signals₁ signals₂, s.step props e = some (s₁, signals₁) ∧ s₁.run props es = some (s', signals₂) ∧
      signals = signals₁ ++ signals₂ := by
  obtain ⟨⟨s₁, signals₁⟩, hstep, h⟩ := Option.bind_eq_some_iff.mp h
  obtain ⟨⟨s₂, signals₂⟩, hrun, h⟩ := Option.bind_eq_some_iff.mp h
  cases h
  exact ⟨s₁, signals₁, signals₂, hstep, hrun, rfl⟩

private theorem run_sound {es : List Event} (hs : Sound s) (h : s.run props es = some (s', signals)) : Sound s' := by
  induction es generalizing s signals with
  | nil =>
    cases h
    exact hs
  | cons e es ih =>
    obtain ⟨s₁, _, _, hstep, hrun, -⟩ := run_cons h
    exact ih (hs.step hstep) hrun

private theorem run_swipeUpdates {es : List Event} (before : List Event) (hs : s.recognizer.swipeUpdates = sinceClosed before)
    (h : s.run props es = some (s', signals)) : s'.recognizer.swipeUpdates = sinceClosed (before ++ es) := by
  induction es generalizing s signals before with
  | nil =>
    cases h
    rw [List.append_nil]
    exact hs
  | cons e es ih =>
    obtain ⟨s₁, _, _, hstep, hrun, -⟩ := run_cons h
    rw [← List.singleton_append, ← List.append_assoc]
    exact ih _ (step_swipeUpdates hs hstep) hrun

private theorem run_inactive {mid : List Event} (hs : Sound s) (hg : g ∉ s.recognizer.activeSwipeGestures)
    (hmid : ∀ e ∈ mid, e.withinSwipe) (h : s.run props mid = some (s', signals)) :
    g ∉ s'.recognizer.activeSwipeGestures ∧ received g signals = [] := by
  induction mid generalizing s signals with
  | nil =>
    cases h
    exact ⟨hg, rfl⟩
  | cons e mid ih =>
    obtain ⟨s₁, signals₁, signals₂, hstep, hrun, rfl⟩ := run_cons h
    obtain ⟨hg₁, hr₁⟩ := step_inactive hs hg (hmid e List.mem_cons_self) hstep
    obtain ⟨hg', hr'⟩ := ih (hs.step hstep) hg₁ (fun e he => hmid e (List.mem_cons_of_mem _ he)) hrun
    exact ⟨hg', by rw [received_append, hr₁, hr', List.append_nil]⟩

/-- During a swipe an active gesture is cancelled once, by the first call that does not keep it. -/
private theorem run_active {mid : List Event} (hs : Sound s) (hg : g ∈ s.recognizer.activeSwipeGestures)
    (hmid : ∀ e ∈ mid, e.withinSwipe) (h : s.run props mid = some (s', signals)) :
    ((∀ e ∈ mid, Keeps props g e) ∧ g ∈ s'.recognizer.activeSwipeGestures ∧ received g signals = []) ∨
    (¬ (∀ e ∈ mid, Keeps props g e) ∧ g ∉ s'.recognizer.activeSwipeGestures ∧
      received g signals = [.cancelled g]) := by
  induction mid generalizing s signals with
  | nil =>
    cases h
    exact .inl ⟨by simp, hg, rfl⟩
  | cons e mid ih =>
    obtain ⟨s₁, signals₁, signals₂, hstep, hrun, rfl⟩ := run_cons h
    have hmid' : ∀ e ∈ mid, e.withinSwipe := fun e he => hmid e (List.mem_cons_of_mem _ he)
    obtain ⟨hk, hg₁, hr₁⟩ | ⟨hk, hg₁, hr₁⟩ := step_active hs hg (hmid e List.mem_cons_self) hstep
    · rw [List.forall_mem_cons, received_append, hr₁, List.nil_append]
      obtain ⟨hks, hr⟩ | ⟨hks, hr⟩ := ih (hs.step hstep) hg₁ hmid' hrun
      · exact .inl ⟨⟨hk, hks⟩, hr⟩
      · exact .inr ⟨fun h => hks h.2, hr⟩
    · obtain ⟨hg', hr'⟩ := run_inactive (hs.step hstep) hg₁ hmid' hrun
      refine .inr ⟨fun h => hk (List.forall_mem_cons.mp h).1, hg', ?_⟩
      rw [received_append, hr₁, hr', List.append_nil]

private theorem start_active (hs : Sound s) {fingerCount : Nat} {startPos : Option SizeF}
    (h : s.step props (.startSwipeGesture fingerCount startPos) = some (s', signals)) (hg : .started g ∈ signals) :
    g ∈ s'.recognizer.activeSwipeGestures ∧ received g signals = [.started g] := by
  obtain ⟨-, h⟩ := Option.ite_none_left_eq_some.mp h
  cases h
  obtain ⟨k, hk, he⟩ := List.mem_map.mp hg
  cases he
  refine ⟨List.mem_append_right _ hk, ?_⟩
  exact (received_map (hs.gestures.filter _) _ (fun k => by simp [Signal.isTo])).trans (if_pos hk)

private theorem end_received (props : GestureId → SwipeGesture) (g : GestureId) (hs : Sound s) : ∃ s' final, s.step props .endSwipeGesture = some (s', final) ∧
    received g final = if g ∈ s.recognizer.activeSwipeGestures then
      [if (props g).minimumDeltaReached (combined s.recognizer.swipeUpdates) then .triggered g else .cancelled g]
    else [] := by
  refine ⟨_, _, rfl, received_map hs.activeSwipeGestures _ fun k => ?_⟩
  split <;> simp [Signal.isTo]

private theorem cancel_received (props : GestureId → SwipeGesture) (g : GestureId) (hs : Sound s) : ∃ s' final, s.step props .cancelSwipeGesture = some (s', final) ∧
    received g final = if g ∈ s.recognizer.activeSwipeGestures then [.cancelled g] else [] :=
  ⟨_, _, rfl, received_map hs.activeSwipeGestures _ fun k => by simp [Signal.isTo]⟩

private theorem initial_sound : Sound {} := ⟨List.nodup_nil, List.nodup_nil, fun _ => rfl⟩

/-- A started gesture hears one answer before the swipe is over. It is triggered iff the swipe ends without being
cancelled, all calls kept it, and the deltas since the last swipe reach its minimum. -/
theorem started_answered_once (hdirected : (props g).Directed) {before : List Event} {earlier : List Signal}
    (hbefore : Swipes.run props {} before = some (s, earlier)) {fingerCount : Nat} {startPos : Option SizeF}
    {s₁ : Swipes} {first : List Signal}
    (hstart : s.step props (.startSwipeGesture fingerCount startPos) = some (s₁, first)) (hg : .started g ∈ first)
    {mid : List Event} (hmid : ∀ e ∈ mid, e.withinSwipe) {s₂ : Swipes} {during : List Signal}
    (hrun : s₁.run props mid = some (s₂, during)) {last : Event}
    (hlast : last = .endSwipeGesture ∨ last = .cancelSwipeGesture) :
    ∃ s₃ final, s₂.step props last = some (s₃, final) ∧ received g first = [.started g] ∧
      (received g (during ++ final) = [.triggered g] ∨ received g (during ++ final) = [.cancelled g]) ∧
      (received g (during ++ final) = [.triggered g] ↔
        last = .endSwipeGesture ∧ (∀ e ∈ mid, Keeps props g e) ∧
          (props g).Reaches (combined (sinceClosed (before ++ .startSwipeGesture fingerCount startPos :: mid)))) := by
  have hs := run_sound initial_sound hbefore
  have hupdates : s₂.recognizer.swipeUpdates =
      sinceClosed (before ++ .startSwipeGesture fingerCount startPos :: mid) := by
    rw [← List.singleton_append, ← List.append_assoc]
    exact run_swipeUpdates _ (step_swipeUpdates (run_swipeUpdates [] rfl hbefore) hstart) hrun
  have hs₁ := hs.step hstart
  have hs₂ := run_sound hs₁ hrun
  obtain ⟨hactive, hfirst⟩ := start_active hs hstart hg
  obtain ⟨hkeeps, hactive₂, hduring⟩ | ⟨hkeeps, hactive₂, hduring⟩ := run_active hs₁ hactive hmid hrun
  · rcases hlast with rfl | rfl
    · obtain ⟨s₃, final, hstep, hfinal⟩ := end_received props g hs₂
      rw [if_pos hactive₂, hupdates] at hfinal
      refine ⟨s₃, final, hstep, hfirst, ?_⟩
      rw [received_append, hduring, hfinal, List.nil_append, ← minimumDeltaReached_iff hdirected]
      split
      · next hr => exact ⟨.inl rfl, fun _ => ⟨rfl, hkeeps, hr⟩, fun _ => rfl⟩
      · next hr => exact ⟨.inr rfl, fun h => by simp at h, fun h => absurd h.2.2 hr⟩
    · obtain ⟨s₃, final, hstep, hfinal⟩ := cancel_received props g hs₂
      rw [if_pos hactive₂] at hfinal
      refine ⟨s₃, final, hstep, hfirst, ?_⟩
      rw [received_append, hduring, hfinal, List.nil_append]
      exact ⟨.inr rfl, fun h => by simp at h, fun h => by cases h.1⟩
  · obtain ⟨s₃, final, hstep, hfinal⟩ : ∃ s₃ final, s₂.step props last = some (s₃, final) ∧ received g final = [] := by
      rcases hlast with rfl | rfl
      · simpa only [if_neg hactive₂] using end_received props g hs₂
      · simpa only [if_neg hactive₂] using cancel_received props g hs₂
    refine ⟨s₃, final, hstep, hfirst, ?_⟩
    rw [received_append, hduring, hfinal, List.append_nil]
    exact ⟨.inr rfl, fun h => by simp at h, fun h => absurd h.2.1 hkeeps⟩

/-! A swipe down with a gesture that asks for ten pixels. -/

private def downProps (_ : GestureId) : SwipeGesture := { minimumDelta := some ⟨10, 10⟩ }

private def downRegistered : Swipes := ⟨⟨[0], [], []⟩, false⟩

private def downStarted : Swipes := ⟨⟨[0], [0], []⟩, true⟩

theorem downSwipe_triggered :
    Swipes.run downProps {} [.registerGesture 0] = some (downRegistered, []) ∧
    downRegistered.step downProps (.startSwipeGesture 1 none) = some (downStarted, [.started 0]) ∧
    downStarted.run downProps [.updateSwipeGesture ⟨0, 12⟩] =
      some (⟨⟨[0], [0], [⟨0, 12⟩]⟩, true⟩, [.progress 0 (some 1)]) ∧
    ∃ s final, Swipes.step downProps ⟨⟨[0], [0], [⟨0, 12⟩]⟩, true⟩ .endSwipeGesture = some (s, final) ∧
      received 0 ([.progress 0 (some 1)] ++ final) = [.triggered 0] := by
  have hregister : Swipes.run downProps {} [.registerGesture 0] = some (downRegistered, []) := by decide
  have hstart : downRegistered.step downProps (.startSwipeGesture 1 none) = some (downStarted, [.started 0]) := by decide
  have hrun : downStarted.run downProps [.updateSwipeGesture ⟨0, 12⟩] =
      some (⟨⟨[0], [0], [⟨0, 12⟩]⟩, true⟩, [.progress 0 (some 1)]) := by decide +kernel
  refine ⟨hregister, hstart, hrun, ?_⟩
  have hdirected : (downProps 0).Directed := by
    rintro _ ⟨⟩
    exact .inr (by decide)
  obtain ⟨s, final, hstep, -, -, hiff⟩ := started_answered_once hdirected hregister hstart (by decide) (by decide) hrun
    (.inl rfl)
  refine ⟨s, final, hstep, hiff.mpr ⟨rfl, ?_, ?_⟩⟩
  · intro e he
    cases List.mem_singleton.mp he
    exact fun _ => by decide +kernel
  · rintro _ ⟨⟩
    decide +kernel

/-- A swipe that is cancelled cancels a gesture that was not unregistered, was followed and reached its minimum. An update
between two swipes counts for the second, which triggers a gesture without a delta of its own. -/
theorem cancelledSwipe_not_triggered : (∃ s, Swipes.run downProps {}
      [.registerGesture 0, .startSwipeGesture 1 none, .updateSwipeGesture ⟨0, 12⟩, .cancelSwipeGesture] =
        some (s, [.started 0, .progress 0 (some 1), .cancelled 0]) ∧
    (∀ e ∈ [Event.updateSwipeGesture ⟨0, 12⟩], Keeps downProps 0 e) ∧
    (downProps 0).Reaches (combined [⟨0, 12⟩])) ∧
    ∃ s, Swipes.run downProps {}
      [.registerGesture 0, .updateSwipeGesture ⟨0, 12⟩, .startSwipeGesture 1 none, .endSwipeGesture] =
        some (s, [.started 0, .triggered 0]) ∧
    ¬ (downProps 0).Reaches (combined []) := by
  refine ⟨⟨⟨⟨[0], [], []⟩, false⟩, by decide +kernel, ?_, ?_⟩, ⟨⟨[0], [], []⟩, false⟩, by decide +kernel, fun h => ?_⟩
  · intro e he
    cases List.mem_singleton.mp he
    exact fun _ => by decide +kernel
  · rintro _ ⟨⟩
    decide +kernel
  · exact absurd (h ⟨10, 10⟩ rfl) (by decide +kernel)

end run

end KWinFT.Gestures
