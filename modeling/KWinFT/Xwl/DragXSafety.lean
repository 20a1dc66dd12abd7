import KWinFT.Lib.Runs
import KWinFT.Xwl.DragX

/-! What an X drag over Wayland windows relies on. A null pointer is used when the pointer leaves all windows, and when
a visit that was left is entered late with known offers; an announcement that is not awaited any more erases behind
the end. -/
namespace KWinFT.Xwl

section erase
variable {α : Type} {p : α → Bool} {l : List α}

/-- With one element to remove, that one is erased. -/
theorem eraseRemoved_of_count (h : l.countP p = 1) : eraseRemoved p l = some (l.filter fun a => !p a) := by
  have hlength : (l.filter fun a => !p a).length + 1 = l.length := by
    have hsum := List.length_eq_countP_add_countP p (l := l)
    have hfilter := List.countP_eq_length_filter (p := fun a => !p a) (l := l)
    simp only [decide_not, Bool.decide_eq_true] at hsum
    omega
  rw [eraseRemoved, if_neg (by omega), List.drop_eq_nil_of_le (by omega), List.append_nil]

end erase

theorem countP_fst_eq_one {mimes : Mimes} {mime : String} (hmem : mime ∈ mimes.map Prod.fst)
    (hnodup : (mimes.map Prod.fst).Nodup) : mimes.countP (fun m => m.1 = mime) = 1 := by
  have hcount : (mimes.map Prod.fst).count mime = 1 := List.count_eq_one_of_mem hnodup hmem
  rw [List.count, List.countP_map] at hcount
  rw [← hcount]
  exact List.countP_congr fun m _ => by simp

theorem addMimes_nodup (names : AtomNames) {offers : Mimes} (h : (offers.map Prod.fst).Nodup) (atom : Atom) :
    ((addMimes names offers atom).map Prod.fst).Nodup := by
  refine Lib.foldl_preserves (P := fun offers : Mimes => (offers.map Prod.fst).Nodup) _ ?_ h
  intro offers mime _ hoffers
  split
  · exact hoffers
  next hnew =>
    have hnot : mime ∉ offers.map Prod.fst := by
      intro hm
      obtain ⟨m, hm', rfl⟩ := List.mem_map.mp hm
      exact hnew (List.any_eq_true.mpr ⟨m, hm', by simp⟩)
    rw [List.map_append]
    refine List.nodup_append.mpr ⟨hoffers, List.nodup_singleton _, fun a ha b hb hab => hnot ?_⟩
    rwa [hab, List.mem_singleton.mp hb] at ha

/-- The offers of a message have each name once. -/
theorem offers_nodup (names : AtomNames) (types : EnterTypes) : ((types.offers names).map Prod.fst).Nodup := by
  cases types with
  | direct first second third =>
    exact Lib.foldl_preserves (P := fun offers : Mimes => (offers.map Prod.fst).Nodup) _
      (fun offers atom _ h => addMimes_nodup names h atom) List.nodup_nil
  | property reply =>
    exact Lib.foldl_preserves (P := fun offers : Mimes => (offers.map Prod.fst).Nodup) _
      (fun offers atom _ h => addMimes_nodup names h atom) List.nodup_nil

/-- A drag that does not finish by the timer does so without a visit, or after it and all requests. -/
def DragFinish.Due (f : DragFinish) : Prop :=
  f.timedOut ∨ ∀ v ∈ f.visit, v.finished ∧ f.dataRequests.all (·.2)

namespace XToWlDrag

/-- All offers of the latest enter message were announced. -/
def Announced (d : XToWlDrag) : Prop := ∀ mime ∈ d.sourceOffers.map Prod.fst, mime ∉ d.offered

/-- The entered window is the seat's target once its offers are known, and the drag finishes in time. -/
structure Sound (d : XToWlDrag) : Prop where
  target : ∀ v ∈ d.visit, v.entered → d.Announced → d.dragTarget = some v.target
  finishes : ∀ f ∈ d.finishes, f.Due

/-- There is a window under the pointer; an old visit is not entered with offers that need no announcement while
there is no visit; what is announced is awaited. -/
def calm (names : AtomNames) (s : Option XToWlDrag) : XDragEvent → Prop
  | .moveFilter target => target ≠ none
  | .clientMessage window (.enter _ _ types) => ∀ d ∈ s, d.visit = none → ∀ v ∈ d.oldVisits, v.window = window →
      ¬ v.entered → types.offers names ≠ [] ∧ types.offers names ≠ d.offers
  | .announce mime => ∀ d ∈ s, mime ∈ d.offersPending.map Prod.fst
  | _ => True

instance (names : AtomNames) (s : Option XToWlDrag) : ∀ event, Decidable (calm names s event)
  | .moveFilter target => inferInstanceAs (Decidable (target ≠ none))
  | .announce mime => inferInstanceAs (Decidable (∀ d ∈ s, mime ∈ d.offersPending.map Prod.fst))
  | .clientMessage window (.enter _ _ types) =>
    inferInstanceAs (Decidable (∀ d ∈ s, d.visit = none → ∀ v ∈ d.oldVisits, v.window = window →
      ¬ v.entered → types.offers names ≠ [] ∧ types.offers names ≠ d.offers))
  | .clientMessage _ (.position _ _ _) | .clientMessage _ (.drop _ _) | .clientMessage _ (.leave _)
  | .actionSelected _ | .endDrag | .dropPerformed | .dropFinished | .startTransfer _ | .transferFinished _
  | .timeout => .isTrue trivial

/-- What every step keeps, apart from the target. -/
structure Base (d : XToWlDrag) : Prop where
  nodup : (d.offersPending.map Prod.fst).Nodup
  flying : ∀ mime ∈ d.offersPending.map Prod.fst, mime ∈ d.offered
  timer : d.timer → d.current = false ∧ d.visit ≠ none
  finishes : ∀ f ∈ d.finishes, f.Due

/-- The target is set, or an offer is awaited. -/
structure Kept (d : XToWlDrag) : Prop extends Base d where
  target : ∀ v ∈ d.visit, v.entered → d.dragTarget = some v.target ∨ d.offersPending ≠ [] ∧
    ∀ m ∈ d.offersPending, m ∈ d.sourceOffers

variable {d d' : XToWlDrag} {names : AtomNames} {v v' : WlVisit}

theorem Kept.sound (h : Kept d) : d.Sound := by
  refine ⟨fun v hv hentered hannounced => ?_, h.finishes⟩
  rcases h.target v hv hentered with ht | ⟨hne, hmem⟩
  · exact ht
  · obtain ⟨m, hm⟩ := List.exists_mem_of_ne_nil _ hne
    exact absurd (h.flying m.1 (List.mem_map_of_mem hm)) (hannounced m.1 (List.mem_map_of_mem (hmem m hm)))

theorem Base.setDragTarget (h : Base d) (hvisit : d.visit ≠ none) : ∃ d', d.setDragTarget = some d' ∧ Kept d' ∧
    d'.offersPending = d.offersPending := by
  obtain ⟨v, hv⟩ := Option.ne_none_iff_exists'.mp hvisit
  refine ⟨{ d with dragTarget := some v.target }, by rw [XToWlDrag.setDragTarget, hv]; rfl, ?_, rfl⟩
  refine ⟨⟨h.nodup, h.flying, h.timer, h.finishes⟩, fun u hu _ => .inl ?_⟩
  rw [Option.mem_def, hv] at hu
  rw [Option.some.inj hu]

/-- Offers that need no announcement need a visit. -/
theorem Base.setOffers (h : Base d) {offers : Mimes} (hnodup : (offers.map Prod.fst).Nodup)
    (hvisit : d.visit = none → offers ≠ [] ∧ offers ≠ d.offers) : ∃ d', d.setOffers offers = some d' ∧ Kept d' := by
  have hbase : Base { d with sourceOffers := offers } := ⟨h.nodup, h.flying, h.timer, h.finishes⟩
  rw [XToWlDrag.setOffers]
  split
  next hnil =>
    obtain ⟨d', hd', hkept, -⟩ := hbase.setDragTarget fun hnone => (hvisit hnone).1 hnil
    exact ⟨d', hd', hkept⟩
  next hne =>
    split
    next hsame =>
      obtain ⟨d', hd', hkept, -⟩ := hbase.setDragTarget fun hnone => (hvisit hnone).2 hsame.symm
      exact ⟨d', hd', hkept⟩
    next =>
      exact ⟨_, rfl, ⟨hnodup, fun mime hm => List.mem_append_right _ hm, h.timer, h.finishes⟩,
        fun v _ _ => .inr ⟨hne, fun m hm => hm⟩⟩

/-- An awaited announcement is taken off, and the last one sets the target. -/
theorem Kept.offerCallback (h : Kept d) {mime : String} (hmem : mime ∈ d.offersPending.map Prod.fst) :
    ∃ d', { d with offered := d.offered.erase mime }.offerCallback mime = some d' ∧ Kept d' ∧
      d'.offersPending = d.offersPending.filter (·.1 ≠ mime) := by
  have herase : eraseRemoved (fun m => decide (m.1 = mime)) d.offersPending =
      some (d.offersPending.filter (·.1 ≠ mime)) := by
    rw [eraseRemoved_of_count (countP_fst_eq_one hmem h.nodup)]
    simp
  obtain ⟨e, he⟩ : ∃ e, e = { d with
    offered := d.offered.erase mime
    offersPending := d.offersPending.filter (·.1 ≠ mime) } := ⟨_, rfl⟩
  have hbase : Base e := by
    rw [he]
    refine ⟨h.nodup.sublist (List.filter_sublist.map _), fun m hm => ?_, h.timer, h.finishes⟩
    obtain ⟨p, hp, rfl⟩ := List.mem_map.mp hm
    obtain ⟨hp, hne⟩ := List.mem_filter.mp hp
    exact (List.mem_erase_of_ne (by simpa using hne)).mpr (h.flying _ (List.mem_map_of_mem hp))
  have hpending : e.offersPending = d.offersPending.filter (·.1 ≠ mime) := by rw [he]
  have hcall : { d with offered := d.offered.erase mime }.offerCallback mime =
      if e.offersPending = [] ∧ e.visit.any (·.entered) then e.setDragTarget else some e := by
    rw [XToWlDrag.offerCallback, herase, he]
    rfl
  rw [hcall]
  split
  next hlast =>
    have hvisit : e.visit ≠ none := fun hnone => by simp [hnone] at hlast
    obtain ⟨d', hd', hkept, hsame⟩ := hbase.setDragTarget hvisit
    exact ⟨d', hd', hkept, hsame.trans hpending⟩
  next hlast =>
    refine ⟨e, rfl, ⟨hbase, fun v hv hentered => ?_⟩, hpending⟩
    have hv' : v ∈ d.visit := by rw [he] at hv; exact hv
    rcases h.target v hv' hentered with ht | ⟨-, hsub⟩
    · left
      rw [he]
      exact ht
    · right
      refine ⟨fun hnil => hlast ⟨hnil, by rw [Option.mem_def.mp hv]; exact hentered⟩, fun m hm => ?_⟩
      rw [hpending] at hm
      rw [he]
      exact hsub m (List.mem_of_mem_filter hm)

theorem Kept.setVisit (h : Kept d) (hv : d.visit = some v) (htarget : v'.target = v.target)
    (hentered : v'.entered → v.entered) : Kept { d with visit := some v' } := by
  refine ⟨⟨h.nodup, h.flying, fun ht => ⟨(h.timer ht).1, Option.some_ne_none _⟩, h.finishes⟩, fun u hu hu' => ?_⟩
  obtain rfl := Option.some.inj hu
  have ht := h.target v hv (hentered hu')
  rwa [← htarget] at ht

theorem Kept.emitFinish (h : Kept d) {timedOut : Bool} (hdue : DragFinish.Due ⟨d.visit, d.dataRequests, timedOut⟩) :
    Kept (d.emitFinish timedOut) := by
  refine ⟨⟨h.nodup, h.flying, h.timer, fun f hf => ?_⟩, h.target⟩
  rcases List.mem_append.mp hf with hf | hf
  · exact h.finishes f hf
  · rw [List.mem_singleton.mp hf]
    exact hdue

theorem Kept.checkForFinished (h : Kept d) : Kept d.checkForFinished := by
  rw [XToWlDrag.checkForFinished]
  split
  next hv => exact h.emitFinish (.inr fun v hm => by rw [hv] at hm; cases hm)
  next v hv =>
    split
    next => exact h
    next hfinished =>
      split
      next => exact h
      next =>
        split
        next hall =>
          have hsent : Kept { d with sent := d.sent ++ [v.sendFinished] } :=
            ⟨⟨h.nodup, h.flying, h.timer, h.finishes⟩, h.target⟩
          refine hsent.emitFinish (.inr fun u hu => ?_)
          rw [Option.mem_def, hv] at hu
          obtain rfl := Option.some.inj hu
          exact ⟨not_not.mp hfinished, hall⟩
        next => exact h

theorem Kept.finish (h : Kept d) (v : WlVisit) : ∃ d', d.signalled v (some .finish) = some d' ∧ Kept d' := by
  refine ⟨_, rfl, ?_⟩
  have hchecked : Kept (if v.checks then d.checkForFinished else d) := by
    split
    · exact h.checkForFinished
    · exact h
  split
  · exact ⟨⟨hchecked.nodup, hchecked.flying, hchecked.timer, hchecked.finishes⟩, hchecked.target⟩
  · exact hchecked

/-- A message to the visit `v`, whose new state `put` stores. -/
theorem Kept.visitMessage (h : Kept d) (message : XdndRequest) (put : XToWlDrag → WlVisit → XToWlDrag)
    (hput : ∀ e v', Kept e → e.visit = d.visit → v'.target = v.target → (v'.entered → v.entered) → Kept (put e v'))
    (hbase : ∀ v', Base (put d v')) (henter : ∀ srcWindow version types, message = .enter srcWindow version types →
      ¬ v.entered → ∀ v', (put d v').visit = none →
        types.offers names ≠ [] ∧ types.offers names ≠ (put d v').offers) :
    ∃ d', (put (d.visitMessage names v message).1 (d.visitMessage names v message).2.1).signalled
      (d.visitMessage names v message).2.1 (d.visitMessage names v message).2.2 = some d' ∧ Kept d' := by
  cases message with
  | enter srcWindow version types =>
    simp only [XToWlDrag.visitMessage, WlVisit.handleEnter]
    split
    next => exact ⟨_, rfl, hput d v h rfl rfl id⟩
    next hentered => exact (hbase _).setOffers (offers_nodup names types) (henter _ _ _ rfl hentered _)
  | position srcWindow timestamp action =>
    refine ⟨_, rfl, hput _ _ ?_ rfl rfl id⟩
    exact ⟨⟨h.nodup, h.flying, h.timer, h.finishes⟩, h.target⟩
  | drop srcWindow timestamp =>
    have htime : Kept { d with timestamp := timestamp } := ⟨⟨h.nodup, h.flying, h.timer, h.finishes⟩, h.target⟩
    exact (hput _ (v.handleDrop srcWindow).1 htime rfl rfl id).finish _
  | leave srcWindow => exact (hput d (v.handleLeave srcWindow).1 h rfl rfl fun he => by cases he).finish _

theorem Kept.handleClientMessage (h : Kept d) {window : XWindow} {message : XdndRequest}
    (hcalm : calm names (some d) (.clientMessage window message)) :
    ∃ d', d.handleClientMessage names window message = some d' ∧ Kept d' := by
  rw [XToWlDrag.handleClientMessage]
  split
  next v hfind =>
    refine h.visitMessage message setOldVisit ?_ ?_ ?_
    · intro e v' he _ _ _
      exact ⟨⟨he.nodup, he.flying, he.timer, he.finishes⟩, he.target⟩
    · intro v'
      exact ⟨h.nodup, h.flying, h.timer, h.finishes⟩
    · rintro srcWindow version types rfl hentered v' hnone
      exact hcalm d rfl hnone v (List.mem_of_find?_eq_some hfind) (by simpa using List.find?_some hfind) hentered
  next =>
    split
    next v hv =>
      split
      next =>
        refine h.visitMessage message (fun e v' => { e with visit := some v' }) ?_ ?_ ?_
        · intro e v' he hvisit htarget hentered
          exact he.setVisit (hvisit.trans hv) htarget hentered
        · intro v'
          exact ⟨h.nodup, h.flying, fun ht => ⟨(h.timer ht).1, Option.some_ne_none _⟩, h.finishes⟩
        · rintro srcWindow version types - - v' hnone
          cases hnone
      next => exact ⟨d, rfl, h⟩
    next => exact ⟨d, rfl, h⟩

theorem Kept.moveFilter (h : Kept d) (hcurrent : d.current = true) (target : DropTarget) :
    ∃ d', d.moveFilter (some target) = some d' ∧ Kept d' := by
  have htimer : d.timer = false := by
    cases ht : d.timer with
    | false => rfl
    | true => exact absurd (h.timer ht).1 (by simp [hcurrent])
  rw [XToWlDrag.moveFilter]
  split
  next => exact ⟨d, rfl, h⟩
  next =>
    refine ⟨_, rfl, ?_⟩
    have hleft : d.leaveVisit.offersPending = d.offersPending ∧ d.leaveVisit.offered = d.offered ∧
        d.leaveVisit.finishes = d.finishes ∧ d.leaveVisit.timer = d.timer ∧ d.leaveVisit.visit = none := by
      rw [leaveVisit]
      split
      next hnone => exact ⟨rfl, rfl, rfl, rfl, hnone⟩
      next => split <;> exact ⟨rfl, rfl, rfl, rfl, rfl⟩
    obtain ⟨hpending, hoffered, hfinishes, ht, hvisit⟩ := hleft
    have hbase : ∀ visit dragTarget nextWindow, Base { d.leaveVisit with
        visit := visit, dragTarget := dragTarget, nextWindow := nextWindow } := by
      intro visit dragTarget nextWindow
      refine ⟨?_, ?_, fun htrue => ?_, ?_⟩
      · rw [hpending]
        exact h.nodup
      · rw [hpending, hoffered]
        exact h.flying
      · rw [ht, htimer] at htrue
        cases htrue
      · rw [hfinishes]
        exact h.finishes
    rw [arrive]
    split
    · refine ⟨hbase _ _ _, fun v hv hentered => ?_⟩
      obtain rfl := Option.some.inj hv
      cases hentered
    · refine ⟨hbase _ _ _, fun v hv => ?_⟩
      rw [Option.mem_def, hvisit] at hv
      cases hv

theorem Kept.dragAndDropPerformed (h : Kept d) (hcurrent : d.current = false) : Kept d.dragAndDropPerformed := by
  have hperformed : Kept { d with performed := true } := ⟨⟨h.nodup, h.flying, h.timer, h.finishes⟩, h.target⟩
  rw [XToWlDrag.dragAndDropPerformed]
  split
  next => exact hperformed.checkForFinished
  next v hv =>
    refine Kept.checkForFinished ?_
    have hset : Kept { d with performed := true, visit := some { v with checks := true } } :=
      hperformed.setVisit hv rfl id
    exact ⟨⟨hset.nodup, hset.flying, fun _ => ⟨hcurrent, Option.some_ne_none _⟩, hset.finishes⟩, hset.target⟩

theorem Kept.timeout (h : Kept d) (htimer : d.timer = true) : ∃ d', d.timeout = some d' ∧ Kept d' := by
  obtain ⟨v, hv⟩ := Option.ne_none_iff_exists'.mp (h.timer htimer).2
  have hoff : Kept { d with timer := false } :=
    ⟨⟨h.nodup, h.flying, fun ht => absurd ht Bool.false_ne_true, h.finishes⟩, h.target⟩
  have hsent : Kept { d with timer := false, sent := d.sent ++ [v.sendFinished] } :=
    ⟨⟨hoff.nodup, hoff.flying, hoff.timer, hoff.finishes⟩, hoff.target⟩
  refine ⟨{ d with timer := false }.expire v, by rw [XToWlDrag.timeout, hv]; rfl, ?_⟩
  rw [expire]
  split
  · exact hoff.emitFinish (.inl rfl)
  · split
    · exact hsent.emitFinish (.inl rfl)
    · exact hoff

theorem Kept.transferFinished (h : Kept d) (eventTime : Timestamp) : Kept (d.transferFinished eventTime) := by
  rw [XToWlDrag.transferFinished]
  split
  · exact h
  · exact Kept.checkForFinished ⟨⟨h.nodup, h.flying, h.timer, h.finishes⟩, h.target⟩

theorem Kept.startTransfer (h : Kept d) (mimeName : String) : Kept (d.startTransfer mimeName) := by
  rw [XToWlDrag.startTransfer]
  split
  · exact ⟨⟨h.nodup, h.flying, h.timer, h.finishes⟩, h.target⟩
  · exact h

private theorem of_guard {α : Type} {c : Prop} [Decidable c] {a b : α} (h : (if c then some a else none) = some b) :
    c ∧ a = b := by
  obtain ⟨hc, hab⟩ := Option.ite_none_right_eq_some.mp h
  exact ⟨hc, Option.some.inj hab⟩

/-- A calm step goes through. -/
theorem Kept.step (h : Kept d) {event : XDragEvent} {s : Option XToWlDrag} (hcalm : calm names (some d) event)
    (hstep : xDragStep names (some d) event = some s) : ∃ d', s = some d' ∧ Kept d' := by
  rw [xDragStep, Option.bind_some] at hstep
  split at hstep
  · cases hstep
  · cases event with
    | moveFilter target =>
      obtain ⟨t, rfl⟩ := Option.ne_none_iff_exists'.mp hcalm
      obtain ⟨hcurrent, rfl⟩ := of_guard hstep
      exact h.moveFilter hcurrent t
    | clientMessage window message =>
      obtain rfl := Option.some.inj hstep
      exact h.handleClientMessage hcalm
    | announce mime =>
      obtain ⟨-, rfl⟩ := of_guard hstep
      obtain ⟨d', hd', hkept, -⟩ := h.offerCallback (hcalm d rfl)
      exact ⟨d', hd', hkept⟩
    | actionSelected action =>
      obtain rfl := Option.some.inj hstep
      exact ⟨_, rfl, ⟨h.nodup, h.flying, h.timer, h.finishes⟩, h.target⟩
    | endDrag =>
      obtain ⟨-, rfl⟩ := of_guard hstep
      exact ⟨_, rfl, ⟨h.nodup, h.flying, fun ht => ⟨rfl, (h.timer ht).2⟩, h.finishes⟩, h.target⟩
    | dropPerformed =>
      obtain ⟨hend, rfl⟩ := of_guard hstep
      exact ⟨_, rfl, h.dragAndDropPerformed (by simpa using hend.1)⟩
    | dropFinished =>
      obtain ⟨-, rfl⟩ := of_guard hstep
      exact ⟨_, rfl, h.checkForFinished⟩
    | startTransfer mimeName =>
      obtain rfl := Option.some.inj hstep
      exact ⟨_, rfl, h.startTransfer mimeName⟩
    | transferFinished eventTime =>
      obtain rfl := Option.some.inj hstep
      exact ⟨_, rfl, h.transferFinished eventTime⟩
    | timeout =>
      obtain ⟨htimer, rfl⟩ := of_guard hstep
      exact h.timeout htimer

theorem Kept.create (timestamp : Timestamp) (nextWindow : XWindow) : Kept (create timestamp nextWindow) :=
  ⟨⟨List.nodup_nil, fun _ hm => absurd hm List.not_mem_nil, fun ht => absurd ht Bool.false_ne_true,
    fun _ hf => absurd hf List.not_mem_nil⟩, fun _ hv => absurd hv (Option.not_mem_none _)⟩

/-- An announcement takes its type, and no other, from those that are awaited. -/
def TakesOff (names : AtomNames) (d : XToWlDrag) (mime : String) : Prop :=
  ∀ s, xDragStep names (some d) (.announce mime) = some s →
    ∃ d', s = some d' ∧ d'.offersPending = d.offersPending.filter (·.1 ≠ mime)

/-- In every calm run no null pointer is used, announcements are taken off one by one, the entered window becomes the
target and the drag does not finish early. -/
theorem sound_of_calm (names : AtomNames) (timestamp : Timestamp) (nextWindow : XWindow) {s : Option XToWlDrag}
    (h : Lib.Reachable (xDragStep names) (calm names) (some (create timestamp nextWindow)) s) :
    ∃ d, s = some d ∧ d.Sound ∧ ∀ mime, calm names s (.announce mime) → TakesOff names d mime := by
  obtain ⟨d, rfl, hkept⟩ : ∃ d, s = some d ∧ Kept d := by
    refine h.invariant (fun s => ∃ d, s = some d ∧ Kept d) ⟨_, rfl, Kept.create timestamp nextWindow⟩ ?_
    rintro s event s' ⟨d, rfl, hkept⟩ hok hstep
    exact hkept.step hok hstep
  refine ⟨d, rfl, hkept.sound, fun mime hcalm s hstep => ?_⟩
  rw [xDragStep, Option.bind_some] at hstep
  split at hstep
  · cases hstep
  · obtain ⟨-, rfl⟩ := of_guard hstep
    obtain ⟨d', hd', -, hpending⟩ := hkept.offerCallback (hcalm d rfl)
    exact ⟨d', hd', hpending⟩

/-- Two types have names of their own, all other atoms are called alike. -/
def plainNames : AtomNames := ⟨11, 12, 13, 14, 15, fun atom => if atom = 20 then "text/html" else "x-special"⟩

/-- A drag from one Wayland window to another, with a drop there whose transfer ends. -/
theorem two_windows_sound :
    ∃ d, Lib.Reachable (xDragStep plainNames) (calm plainNames) (some (create 1 100)) (some d) ∧ d.deleted ∧
      d.finishes.length = 1 ∧ d.oldVisits = [] ∧ d.dragTarget = some ⟨2, some .wayland⟩ ∧ d.Sound := by
  obtain ⟨d, hrun, hdeleted, hfinishes, hold, htarget⟩ : ∃ d, Lib.execute
      (fun s e => if calm plainNames s e then xDragStep plainNames s e else none) (some (create 1 100))
      [.moveFilter (some ⟨1, some .wayland⟩), .clientMessage 100 (.enter 9 5 (.property (some [11, 12]))),
        .announce "text/plain", .moveFilter (some ⟨2, some .wayland⟩), .announce "text/plain;charset=utf-8",
        .clientMessage 100 (.leave 9), .clientMessage 101 (.enter 9 5 (.property (some [11, 12]))), .endDrag,
        .dropPerformed, .clientMessage 101 (.drop 9 7), .startTransfer "text/plain", .transferFinished 7] =
      some (some d) ∧ d.deleted ∧ d.finishes.length = 1 ∧ d.oldVisits = [] ∧
      d.dragTarget = some ⟨2, some .wayland⟩ := ⟨_, rfl, rfl, rfl, rfl, rfl⟩
  have h := Lib.Reachable.init.executeOk _ hrun
  obtain ⟨d', hd, hsound, -⟩ := sound_of_calm plainNames 1 100 h
  exact ⟨d, h, hdeleted, hfinishes, hold, htarget, by rw [Option.some.inj hd]; exact hsound⟩

/-- The pointer leaves all windows; a window that was left is entered late without a type; a type is announced that
the present window does not offer. -/
theorem drag_not_sound :
    Lib.Reachable (xDragStep plainNames) Lib.anyStep (some (create 1 100)) none ∧
    (∃ d, Lib.Reachable (xDragStep plainNames) Lib.anyStep (some (create 1 100)) (some d) ∧ d.visit = none ∧
      xDragStep plainNames (some d) (.clientMessage 100 (.enter 9 5 (.property none))) = some none) ∧
    ∃ d, Lib.Reachable (xDragStep plainNames) Lib.anyStep (some (create 1 100)) (some d) ∧
      "text/html" ∉ d.offersPending.map Prod.fst ∧ ¬ TakesOff plainNames d "text/html" := by
  refine ⟨Lib.Reachable.init.execute [.moveFilter none] rfl,
    ⟨_, Lib.Reachable.init.execute [.moveFilter (some ⟨1, some .wayland⟩), .moveFilter (some ⟨2, some .xwayland⟩)] rfl,
      rfl, rfl⟩, ?_⟩
  obtain ⟨d, hrun, hnot, hstep⟩ : ∃ d, Lib.execute (xDragStep plainNames) (some (create 1 100))
      [.moveFilter (some ⟨1, some .wayland⟩), .clientMessage 100 (.enter 9 5 (.property (some [20]))),
        .moveFilter (some ⟨2, some .wayland⟩), .clientMessage 101 (.enter 9 5 (.property (some [12])))] =
      some (some d) ∧ "text/html" ∉ d.offersPending.map Prod.fst ∧
      xDragStep plainNames (some d) (.announce "text/html") = some none := ⟨_, rfl, by decide, rfl⟩
  refine ⟨d, Lib.Reachable.init.execute _ hrun, hnot, fun h => ?_⟩
  obtain ⟨d', hnone, -⟩ := h none hstep
  cases hnone

end XToWlDrag
end KWinFT.Xwl
