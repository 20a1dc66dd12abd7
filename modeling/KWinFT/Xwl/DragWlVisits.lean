import KWinFT.Xwl.DragWlProtocol

/-! One drag over windows of X clients, visit by visit. A reply says which window it is from, not which visit it answers:
a window that is visited again must not owe one. -/
namespace KWinFT.Xwl

/-- The replies of a target. -/
inductive TargetReply
  | status (accepts : Bool) (action : ActionAtom)
  | finished
deriving Repr, DecidableEq

def TargetReply.event : TargetReply → DragEvent
  | status accepts action => .status accepts action
  | finished => .finished

namespace DragWorld

/-- A reply of a window is read by the visit that there is. -/
def handleClientMessage (w : DragWorld) (window : XWindow) : TargetReply → DragWorld
  | .status accepts action => w.take (w.visit.handleStatus window accepts action w.pointer).2
  | .finished => { w with visit := (w.visit.handleFinished window).2 }

/-- The target has replied to all positions. -/
def Answered (w : DragWorld) : Prop := w.statuses = w.received.length

instance (w : DragWorld) : Decidable w.Answered := inferInstanceAs (Decidable (_ = _))

end DragWorld

/-- A drag with its present visit and those before. -/
structure WlToXDrag where
  visit : Option DragWorld
  past : List DragWorld
deriving Repr, DecidableEq

/-- The pointer comes to a window of an X client with the version that it announces, or to none; a Wayland event or a reply
for the visit that there is; a reply of the target of an earlier visit. -/
inductive WlToXDragEvent
  | moveFilter (target : Option (XWindow × Option Nat)) (pos : Position)
  | visit (event : DragEvent)
  | late (i : Nat) (reply : TargetReply)
deriving Repr, DecidableEq

namespace WlToXDrag
variable (mimeTypes : List Atom) (d : WlToXDrag)

def visits : List DragWorld := d.visit.toList ++ d.past

/-- The visit that there is goes to the past ones. -/
def leaveVisit : Option (List DragWorld) :=
  match d.visit with
  | none => some d.past
  | some w => (dragStep mimeTypes w .targetChange).map (· :: d.past)

def moveFilter (target : Option (XWindow × Option Nat)) (pos : Position) : Option WlToXDrag :=
  if d.visit.map (·.visit.target) = target.map (·.1) then some d
  else (d.leaveVisit mimeTypes).map fun past => ⟨target.map fun t => .start t.1 t.2 pos, past⟩

/-- One event. Only here the target changes. -/
def step (d : WlToXDrag) : WlToXDragEvent → Option WlToXDrag
  | .moveFilter target pos => d.moveFilter mimeTypes target pos
  | .visit event =>
    if event = .targetChange then none
    else d.visit.bind fun w => (dragStep mimeTypes w event).map fun w' => { d with visit := some w' }
  | .late i reply =>
    d.past[i]?.bind fun w => (dragStep mimeTypes w reply.event).map fun w' =>
      ⟨d.visit.map (·.handleClientMessage w.visit.target reply), d.past.set i w'⟩

def start : WlToXDrag := ⟨none, []⟩

/-- Each step of a visit is proper, and a window that is visited has replied to all positions of earlier visits. -/
def proper (d : WlToXDrag) : WlToXDragEvent → Prop
  | .moveFilter target _ => ∀ t ∈ target, ∀ w ∈ d.past, w.visit.target = t.1 → w.Answered
  | .visit event => ∀ w ∈ d.visit, w.proper event
  | .late _ _ => True

end WlToXDrag

namespace DragWorld
variable {mimeTypes : List Atom} {w w' : DragWorld}

theorem take_nil (w : DragWorld) : w.take (w.visit, []) = w := by simp [take]

/-- A reply of another window is not taken. -/
theorem handleClientMessage_of_ne {window : XWindow} (h : window ≠ w.visit.target) (reply : TargetReply) :
    w.handleClientMessage window reply = w := by
  cases reply with
  | status accepts action =>
    rw [handleClientMessage, Xvisit.handleStatus, if_pos h]
    exact take_nil w
  | finished => rw [handleClientMessage, Xvisit.handleFinished, if_pos h]

theorem drop_target (v : Xvisit) : v.drop.1.target = v.target := by
  unfold Xvisit.drop Xvisit.sendDrop
  dsimp only
  split_ifs <;> rfl

theorem retrieveSupportedActions_target (v : Xvisit) (actions : DnDActions) (pos : Position) :
    (v.retrieveSupportedActions actions pos).1.target = v.target :=
  (determineProposedAction_steady _ pos).target

theorem receiveOffer_target (v : Xvisit) (actions : DnDActions) (pos : Position) :
    (v.receiveOffer mimeTypes actions pos).1.target = v.target := by
  unfold Xvisit.receiveOffer Xvisit.enter
  dsimp only
  split
  · rfl
  · exact (sendPosition_steady _ pos).target.trans (retrieveSupportedActions_target _ actions pos)

theorem handleStatus_target (v : Xvisit) (window : XWindow) (accepts : Bool) (action : ActionAtom) (pos : Position) :
    (v.handleStatus window accepts action pos).2.1.target = v.target := by
  unfold Xvisit.handleStatus
  split
  · rfl
  · set u : Xvisit := { v with accepts := accepts, pending := false } with hu
    dsimp only
    generalize hr : (if ¬ u.dropped = true then
      { u with preferredAction := atomToClientAction action }.determineProposedAction pos else (u, [])) = r
    have hproposed : r.1.target = v.target := by
      rw [← hr]
      split
      · exact (determineProposedAction_steady _ pos).target
      · rfl
    split
    · exact (sendPosition_steady _ _).target.trans hproposed
    · split
      · exact (drop_target _).trans hproposed
      · exact hproposed

theorem start_target (target : XWindow) (aware : Option Nat) (pos : Position) :
    (start target aware pos).visit.target = target := by
  cases aware with
  | none => rfl
  | some value =>
    simp only [start, Xvisit.create]
    split <;> rfl

/-- The target of a visit is set once. -/
theorem dragStep_target {event : DragEvent} (hstep : dragStep mimeTypes w event = some w') :
    w'.visit.target = w.visit.target := by
  cases event with
  | dragEntered actions =>
    obtain ⟨-, ⟨⟩⟩ := Option.ite_none_right_eq_some.mp hstep
    exact receiveOffer_target w.visit actions w.pointer
  | actionsChanged actions =>
    obtain ⟨-, ⟨⟩⟩ := Option.ite_none_right_eq_some.mp hstep
    exact retrieveSupportedActions_target w.visit actions w.pointer
  | motion pos =>
    simp only [dragStep] at hstep
    split at hstep
    · obtain rfl := Option.some.inj hstep
      exact (sendPosition_steady w.visit pos).target
    · obtain rfl := Option.some.inj hstep
      rfl
  | dropped =>
    obtain ⟨-, ⟨⟩⟩ := Option.ite_none_right_eq_some.mp hstep
    exact drop_target w.visit
  | targetChange =>
    obtain ⟨-, ⟨⟩⟩ := Option.ite_none_right_eq_some.mp hstep
    simp only [take, Xvisit.leave]
    split <;> rfl
  | status accepts action =>
    obtain ⟨-, hstep⟩ := Option.ite_none_right_eq_some.mp hstep
    dsimp only at hstep
    split at hstep
    · obtain rfl := Option.some.inj hstep
      rfl
    · obtain rfl := Option.some.inj hstep
      exact handleStatus_target w.visit w.visit.target accepts action w.pointer
  | finished =>
    obtain ⟨-, hstep⟩ := Option.ite_none_right_eq_some.mp hstep
    dsimp only at hstep
    split at hstep
    · obtain rfl := Option.some.inj hstep
      rfl
    · obtain rfl := Option.some.inj hstep
      simp only [Xvisit.handleFinished, ne_eq, not_true_eq_false, if_false]
      split <;> rfl

/-- A visit is left with a change of the target only. -/
theorem dragStep_gone {event : DragEvent} (hstep : dragStep mimeTypes w event = some w') :
    w'.gone = (w.gone || event = .targetChange) := by
  cases event with
  | dragEntered actions =>
    obtain ⟨-, ⟨⟩⟩ := Option.ite_none_right_eq_some.mp hstep
    simp [take]
  | actionsChanged actions =>
    obtain ⟨-, ⟨⟩⟩ := Option.ite_none_right_eq_some.mp hstep
    simp [take]
  | motion pos =>
    simp only [dragStep] at hstep
    split at hstep <;> obtain rfl := Option.some.inj hstep <;> simp [take]
  | dropped =>
    obtain ⟨-, ⟨⟩⟩ := Option.ite_none_right_eq_some.mp hstep
    simp [take]
  | targetChange =>
    obtain ⟨-, ⟨⟩⟩ := Option.ite_none_right_eq_some.mp hstep
    simp [take]
  | status accepts action =>
    obtain ⟨-, hstep⟩ := Option.ite_none_right_eq_some.mp hstep
    dsimp only at hstep
    split at hstep <;> obtain rfl := Option.some.inj hstep <;> simp [take]
  | finished =>
    obtain ⟨-, hstep⟩ := Option.ite_none_right_eq_some.mp hstep
    dsimp only at hstep
    split at hstep <;> obtain rfl := Option.some.inj hstep <;> simp

/-- A visit that was left had no drop, so what its target still replies to is a position. -/
theorem not_answered_of_reply {reply : TargetReply} (hphase : Phase w) (hgone : w.gone = true)
    (hstep : dragStep mimeTypes w reply.event = some w') : ¬ w.Answered := by
  have hended : Ended w := by
    cases hphase with
    | waiting target version h => exact absurd (h.gone.symm.trans hgone) Bool.false_ne_true
    | visiting e ps h => exact absurd (h.gone.symm.trans hgone) Bool.false_ne_true
    | closing e ps pos h => exact absurd (h.gone.symm.trans hgone) Bool.false_ne_true
    | dropSent e ps pos h => exact absurd (h.gone.symm.trans hgone) Bool.false_ne_true
    | ended h => exact h
  cases reply with
  | status accepts action =>
    obtain ⟨hlt, -⟩ := Option.ite_none_right_eq_some.mp hstep
    exact Nat.ne_of_lt hlt
  | finished =>
    obtain ⟨⟨hdrop, -⟩, -⟩ := Option.ite_none_right_eq_some.mp hstep
    rcases hended.sent with ⟨hsent, -⟩ | ⟨e, ps, trail, -, -⟩
    · rw [hsent] at hdrop
      cases hdrop
    · exact absurd hdrop trail.drop_not_mem

end DragWorld

namespace WlToXDrag
variable {mimeTypes : List Atom} {d d' : WlToXDrag}

/-- Each visit is in a phase, the past ones are over, and the window that is visited owes no reply for them. -/
structure Sound (d : WlToXDrag) : Prop where
  visit : ∀ w ∈ d.visit, w.Phase ∧ w.gone = false
  past : ∀ w ∈ d.past, w.Phase ∧ w.gone = true
  answered : ∀ v ∈ d.visit, ∀ w ∈ d.past, w.visit.target = v.visit.target → w.Answered

theorem Sound.conforms (h : d.Sound) {w : DragWorld} (hw : w ∈ d.visits) : w.Conforms := by
  rcases List.mem_append.mp hw with hw | hw
  · exact (h.visit w (Option.mem_toList.mp hw)).1.conforms
  · exact (h.past w hw).1.conforms

theorem Sound.moveFilter (h : d.Sound) {target : Option (XWindow × Option Nat)} {pos : Position}
    (hok : d.proper (.moveFilter target pos)) (hstep : d.moveFilter mimeTypes target pos = some d') : d'.Sound := by
  unfold WlToXDrag.moveFilter at hstep
  split at hstep
  · obtain rfl := Option.some.inj hstep
    exact h
  · next hchange =>
    obtain ⟨past, hpast, rfl⟩ := Option.map_eq_some_iff.mp hstep
    -- The visit that is left is over, and it was another window's.
    have hover : ∀ w ∈ past, (w.Phase ∧ w.gone = true) ∧
        (w ∈ d.past ∨ d.visit.map (·.visit.target) = some w.visit.target) := by
      unfold leaveVisit at hpast
      cases hv : d.visit with
      | none =>
        rw [hv] at hpast
        obtain rfl := Option.some.inj hpast
        exact fun w hw => ⟨h.past w hw, .inl hw⟩
      | some v =>
        rw [hv] at hpast
        obtain ⟨v', hv', rfl⟩ := Option.map_eq_some_iff.mp hpast
        intro w hw
        rcases List.mem_cons.mp hw with rfl | hw
        · have hproper : v.proper .targetChange := trivial
          refine ⟨⟨(h.visit v hv).1.step hproper hv', ?_⟩, .inr ?_⟩
          · rw [DragWorld.dragStep_gone hv']
            simp
          · rw [DragWorld.dragStep_target hv']
            rfl
        · exact ⟨h.past w hw, .inl hw⟩
    refine ⟨fun w hw => ?_, fun w hw => (hover w hw).1, fun v hv w hw heq => ?_⟩
    · obtain ⟨t, -, rfl⟩ := Option.map_eq_some_iff.mp hw
      exact ⟨DragWorld.Phase.start t.1 t.2 pos, rfl⟩
    · obtain ⟨t, ht, rfl⟩ := Option.map_eq_some_iff.mp hv
      rw [DragWorld.start_target] at heq
      rcases (hover w hw).2 with hw | hw
      · exact hok t ht w hw heq
      · refine absurd ?_ hchange
        rw [hw, heq, show target = some t from ht]
        rfl

theorem Sound.visit_step (h : d.Sound) {event : DragEvent} (hok : d.proper (.visit event))
    (hstep : WlToXDrag.step mimeTypes d (.visit event) = some d') : d'.Sound := by
  unfold WlToXDrag.step at hstep
  dsimp only at hstep
  split at hstep
  · cases hstep
  · next hevent =>
    obtain ⟨w, hw, hstep⟩ := Option.bind_eq_some_iff.mp hstep
    obtain ⟨w', hw', rfl⟩ := Option.map_eq_some_iff.mp hstep
    refine ⟨fun u hu => ?_, h.past, fun u hu v hv heq => ?_⟩
    · obtain rfl := Option.some.inj hu
      refine ⟨(h.visit w hw).1.step (hok w hw) hw', ?_⟩
      rw [DragWorld.dragStep_gone hw', (h.visit w hw).2]
      simp [hevent]
    · obtain rfl := Option.some.inj hu
      exact h.answered w hw v hv (heq.trans (DragWorld.dragStep_target hw'))

/-- A past visit had no drop, and the replies that it still gets are those of another window than the one visited. -/
theorem Sound.late (h : d.Sound) {i : Nat} {reply : TargetReply}
    (hstep : WlToXDrag.step mimeTypes d (.late i reply) = some d') : d'.Sound := by
  unfold WlToXDrag.step at hstep
  obtain ⟨w, hw, hstep⟩ := Option.bind_eq_some_iff.mp hstep
  obtain ⟨w', hw', rfl⟩ := Option.map_eq_some_iff.mp hstep
  have hmem : w ∈ d.past := List.mem_of_getElem? hw
  obtain ⟨hphase, hgone⟩ := h.past w hmem
  have howed : ¬ w.Answered := DragWorld.not_answered_of_reply hphase hgone hw'
  have hother (v : DragWorld) (hv : v ∈ d.visit) : w.visit.target ≠ v.visit.target := fun heq =>
    howed (h.answered v hv w hmem heq)
  have hvisit : d.visit.map (·.handleClientMessage w.visit.target reply) = d.visit := by
    cases hv : d.visit with
    | none => rfl
    | some v => exact congrArg some (DragWorld.handleClientMessage_of_ne (hother v hv) reply)
  rw [hvisit]
  have hset (u : DragWorld) (hu : u ∈ d.past.set i w') : u = w' ∨ u ∈ d.past := (List.mem_or_eq_of_mem_set hu).symm
  refine ⟨h.visit, fun u hu => ?_, fun v hv u hu heq => ?_⟩
  · rcases hset u hu with rfl | hu
    · refine ⟨hphase.step (by cases reply <;> trivial) hw', ?_⟩
      rw [DragWorld.dragStep_gone hw', hgone]
      rfl
    · exact h.past u hu
  · rcases hset u hu with rfl | hu
    · exact absurd ((DragWorld.dragStep_target hw').symm.trans heq) (hother v hv)
    · exact h.answered v hv u hu heq

theorem Sound.step (h : d.Sound) {event : WlToXDragEvent} (hok : d.proper event)
    (hstep : WlToXDrag.step mimeTypes d event = some d') : d'.Sound := by
  cases event with
  | moveFilter target pos => exact h.moveFilter hok hstep
  | visit event => exact h.visit_step hok hstep
  | late i reply => exact h.late hstep

/-- In every run whose steps are proper the target of each visit gets what it may expect. -/
theorem conforms_of_proper (mimeTypes : List Atom) (h : Lib.Reachable (WlToXDrag.step mimeTypes) proper start d) :
    ∀ w ∈ d.visits, w.Conforms := by
  have hsound : d.Sound := by
    have hstart : start.Sound :=
      ⟨fun w hw => absurd hw (Option.not_mem_none w), fun w hw => absurd hw List.not_mem_nil,
        fun v hv => absurd hv (Option.not_mem_none v)⟩
    exact h.invariant Sound hstart fun d event d' hd hok hstep => hd.step hok hstep
  exact fun w hw => hsound.conforms hw

instance (d : WlToXDrag) : (event : WlToXDragEvent) → Decidable (d.proper event)
  | .moveFilter target _ => inferInstanceAs (Decidable (∀ t ∈ target, ∀ w ∈ d.past, w.visit.target = t.1 → w.Answered))
  | .visit event => inferInstanceAs (Decidable (∀ w ∈ d.visit, w.proper event))
  | .late _ _ => inferInstanceAs (Decidable True)

/-- A window is left with a position unanswered and visited again when it has replied, and a drop comes while the first
position is unanswered and a second one is kept. -/
def secondVisit : List WlToXDragEvent :=
  [.moveFilter (some (7, some 5)) ⟨1, 2⟩, .visit (.dragEntered ⟨false, true, false⟩), .moveFilter none ⟨90, 90⟩,
    .late 0 (.status true .move), .moveFilter (some (7, some 5)) ⟨3, 4⟩, .visit (.dragEntered ⟨false, true, false⟩),
    .visit (.motion ⟨5, 6⟩), .visit .dropped, .visit (.status true .move), .visit (.status true .move), .visit .finished]

theorem secondVisit_conforms :
    ∃ d w, Lib.Reachable (WlToXDrag.step [31, 40]) proper start d ∧ w ∈ d.visits ∧ d.past.length = 1 ∧ w.visit.finished ∧
      .drop ∈ w.sent ∧ w.places = [⟨3, 4⟩, ⟨5, 6⟩] ∧ w.Conforms := by
  have hrun : Lib.Reachable (WlToXDrag.step [31, 40]) proper start _ := Lib.Reachable.init.executeOk secondVisit rfl
  exact ⟨_, _, hrun, List.mem_cons_self, rfl, rfl, by decide, by decide, conforms_of_proper [31, 40] hrun _ List.mem_cons_self⟩

/-- A source that offers to copy; a pointer above the screen; a drop before the offer; and a window that is visited again
while it owes a reply, which is taken for one to the first position of the second visit. -/
theorem visits_not_conform :
    (∃ d w, Lib.Reachable (WlToXDrag.step []) Lib.anyStep start d ∧ w ∈ d.visits ∧
      w.sent.head? = some (.position (Position.word ⟨3, 4⟩) .copy) ∧ ¬ w.Conforms) ∧
    (∃ d w, Lib.Reachable (WlToXDrag.step []) Lib.anyStep start d ∧ w ∈ d.visits ∧
      w.sent.filterMap DragWorld.pointOf = [⟨-1, -1⟩] ∧ ¬ w.Conforms) ∧
    (∃ d w, Lib.Reachable (WlToXDrag.step []) Lib.anyStep start d ∧ w ∈ d.visits ∧
      w.visit.dropped ∧ w.sent = [] ∧ ¬ w.Conforms) ∧
    ∃ d w, Lib.Reachable (WlToXDrag.step []) Lib.anyStep start d ∧ w ∈ d.visits ∧
      w.places = [⟨3, 4⟩, ⟨5, 6⟩] ∧ w.statuses = 0 ∧ ¬ w.Conforms := by
  refine ⟨⟨_, _, Lib.Reachable.init.execute [.moveFilter (some (7, some 5)) ⟨3, 4⟩,
      .visit (.dragEntered ⟨true, true, false⟩)] rfl, List.mem_cons_self, by decide, fun h => ?_⟩,
    ⟨_, _, Lib.Reachable.init.execute [.moveFilter (some (7, some 5)) ⟨3, -1⟩,
      .visit (.dragEntered ⟨false, true, false⟩)] rfl, List.mem_cons_self, by decide, fun h => ?_⟩,
    ⟨_, _, Lib.Reachable.init.execute [.moveFilter (some (7, some 5)) ⟨3, 4⟩, .visit .dropped] rfl, List.mem_cons_self, rfl, rfl,
      fun h => ?_⟩,
    ⟨_, _, Lib.Reachable.init.execute [.moveFilter (some (7, some 5)) ⟨1, 2⟩, .visit (.dragEntered ⟨false, true, false⟩),
      .moveFilter none ⟨90, 90⟩, .moveFilter (some (7, some 5)) ⟨3, 4⟩, .visit (.dragEntered ⟨false, true, false⟩),
      .late 0 (.status true .none), .visit (.motion ⟨5, 6⟩)] rfl, List.mem_cons_self, by decide, rfl, fun h => ?_⟩⟩
  · rcases h.order with hnil | ⟨e, ps, last, he, -, -, hsent⟩
    · cases hnil
    · have hhead := congrArg List.head? hsent
      obtain rfl := Option.some.inj hhead
      cases he
  · exact absurd h.decoded (by decide)
  · rcases h.alive rfl (by decide) with hlt | ⟨hm, -⟩
    · exact absurd hlt (by decide)
    · cases hm
  · exact absurd h.unanswered (by decide)

end WlToXDrag
end KWinFT.Xwl
