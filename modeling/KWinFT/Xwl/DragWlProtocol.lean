import KWinFT.Lib.Runs
import KWinFT.Xwl.DragWl

/-! What the target of a Wayland drag gets to see. A position goes out before the enter message if the first
proposal is to copy, a drop before it cuts the connection that would enter, and a negative second coordinate
overwrites the first. -/
namespace KWinFT.Xwl

namespace Position
variable (p : Position)

theorem decode_word_y : (decode p.word).y = p.y := by
  apply BitVec.eq_of_getElem_eq
  intro i hi
  simp only [decode, word, BitVec.getElem_extractLsb', BitVec.getLsbD_or, BitVec.getLsbD_shiftLeft,
    BitVec.getLsbD_signExtend]
  simp [hi]
  omega

theorem decode_word_x : (decode p.word).x = if p.y.msb then BitVec.allOnes 16 else p.x := by
  apply BitVec.eq_of_getElem_eq
  intro i hi
  have h : 16 + i < 32 := by omega
  have h' : ¬ 16 + i < 16 := by omega
  have h'' : i < 32 := by omega
  simp only [decode, word, BitVec.getElem_extractLsb', BitVec.getLsbD_or, BitVec.getLsbD_shiftLeft,
    BitVec.getLsbD_signExtend, h, h', h'', hi, decide_true, decide_false, Bool.not_false, Bool.true_and,
    Nat.add_sub_cancel_left, if_true, if_false]
  cases hy : p.y.msb with
  | false => simp [hi]
  | true =>
    rw [if_pos rfl, BitVec.getElem_allOnes]
    exact Bool.or_true _

/-- Points whose word is read as the point. -/
def Encodable : Prop := p.y.msb = false ∨ p.x = BitVec.allOnes 16

instance : Decidable p.Encodable := inferInstanceAs (Decidable (_ ∨ _))

theorem decode_word_iff : decode p.word = p ↔ p.Encodable := by
  have hx := decode_word_x p
  have hy := decode_word_y p
  constructor
  · intro h
    rw [h] at hx
    cases hm : p.y.msb with
    | false => exact .inl hm
    | true => exact .inr (by rw [hx, hm, if_pos rfl])
  · intro h
    have hx' : (decode p.word).x = p.x := by
      rcases h with h | h
      · rw [hx, h, if_neg Bool.false_ne_true]
      · rw [hx, h, ite_self]
    rw [show decode p.word = ⟨(decode p.word).x, (decode p.word).y⟩ from rfl, hx', hy]

end Position

namespace DragWorld

/-- The positions that were sent. -/
def positions (w : DragWorld) : List XdndMessage := w.sent.filter isPosition

/-- The point that a target reads from a message. -/
def pointOf : XdndMessage → Option Position
  | .position word _ => some (Position.decode word)
  | _ => none

/-- The last of the positions is a point. -/
def LastAt (ps : List XdndMessage) (pos : Position) : Prop :=
  ∃ word action, ps.getLast? = some (.position word action) ∧ Position.decode word = pos

/-- What a target may expect: to be entered, then positions of the pointer, one at a time, and one end. A drop
comes after the last position was answered, and there is always an answer to wait for. -/
structure Conforms (w : DragWorld) : Prop where
  order : w.sent = [] ∨ ∃ e ps last, isEnter e ∧ (∀ p ∈ ps, isPosition p) ∧
    (last = [] ∨ last = [.leave] ∨ last = [.drop]) ∧ w.sent = e :: ps ++ last
  unanswered : w.positions.length ≤ w.statuses + 1
  decoded : w.sent.filterMap pointOf = w.places
  drop_after : .drop ∈ w.sent → w.statuses = w.positions.length ∧ ∃ pos ∈ w.dropPos, LastAt w.positions pos
  alive : w.visit.dropped → ¬ w.visit.finished →
    w.statuses < w.positions.length ∨ (.drop ∈ w.sent ∧ ¬ w.finishedReply)

/-- The source does not offer to copy when the drag enters, the points that are sent can be read back, and the
drop is made after the enter message. -/
def proper (w : DragWorld) : DragEvent → Prop
  | .dragEntered actions => actions.copy = false ∧ w.pointer.Encodable
  | .motion pos => w.visit.motionConnection → pos.Encodable
  | .dropped => w.visit.entered
  | .actionsChanged _ | .targetChange | .status _ _ | .finished => True

instance (w : DragWorld) : (event : DragEvent) → Decidable (w.proper event)
  | .dragEntered actions => inferInstanceAs (Decidable (actions.copy = false ∧ w.pointer.Encodable))
  | .motion pos => inferInstanceAs (Decidable (w.visit.motionConnection → pos.Encodable))
  | .dropped => inferInstanceAs (Decidable (w.visit.entered = true))
  | .actionsChanged _ | .targetChange | .status _ _ | .finished => inferInstanceAs (Decidable True)

section traffic
variable {sent : List XdndMessage} {places : List Position} {statuses : Nat} {v v' : Xvisit} {e : XdndMessage}
  {ps : List XdndMessage} {pos pos' : Position} {out : List XdndMessage}

/-- The target was entered and got positions, of which the last one is unanswered while `pending`. -/
structure Traffic (sent : List XdndMessage) (places : List Position) (statuses : Nat) (v : Xvisit) (e : XdndMessage)
    (ps : List XdndMessage) : Prop where
  enter : isEnter e
  positions : ∀ p ∈ ps, isPosition p
  sent_eq : sent = e :: ps
  decoded : ps.filterMap pointOf = places
  count : statuses + (if v.pending then 1 else 0) = ps.length
  cached : v.cached → v.pending

/-- The place that the target knows, or will be told next. -/
def Latest (v : Xvisit) (ps : List XdndMessage) (pos : Position) : Prop :=
  if v.cached then v.cache = pos else LastAt ps pos

theorem Traffic.congr (h : Traffic sent places statuses v e ps) (hp : v'.pending = v.pending)
    (hc : v'.cached → v'.pending) : Traffic sent places statuses v' e ps :=
  ⟨h.enter, h.positions, h.sent_eq, h.decoded, by rw [hp]; exact h.count, hc⟩

/-- A position is sent at once or kept for later. -/
theorem Traffic.sendPosition (h : Traffic sent places statuses v e ps) (hpos : pos.Encodable) :
    ∃ ps', Traffic (sent ++ (v.sendPosition pos).2)
      (places ++ (v.sendPosition pos).2.filterMap fun m => if isPosition m then some pos else none) statuses (v.sendPosition pos).1 e ps' ∧
      Latest (v.sendPosition pos).1 ps' pos := by
  cases hp : v.pending with
  | true =>
    refine ⟨ps, ?_, ?_⟩
    · simp only [Xvisit.sendPosition, hp, if_true, List.append_nil, List.filterMap_nil]
      exact ⟨h.enter, h.positions, h.sent_eq, h.decoded, by simpa [hp] using h.count, fun _ => rfl⟩
    · simp [Latest, Xvisit.sendPosition, hp]
  | false =>
    have hcached : v.cached = false := by
      cases hc : v.cached with
      | false => rfl
      | true => exact absurd (h.cached hc) (by simp [hp])
    have hdecode := (Position.decode_word_iff pos).mpr hpos
    refine ⟨ps ++ [.position pos.word (clientActionToAtom v.proposedAction)], ?_, ?_⟩
    · simp only [Xvisit.sendPosition, hp, Bool.false_eq_true, if_false]
      refine ⟨h.enter, ?_, by rw [h.sent_eq]; rfl, ?_, ?_, fun hc => ?_⟩
      · intro p hp
        rcases List.mem_append.mp hp with hp | hp
        · exact h.positions p hp
        · rw [List.mem_singleton.mp hp]
          rfl
      · simp [h.decoded, pointOf, isPosition, hdecode]
      · have hcount := h.count
        simp only [hp, Bool.false_eq_true, if_false, Nat.add_zero] at hcount
        simp [hcount]
      · rfl
    · simp only [Latest, Xvisit.sendPosition, hp, Bool.false_eq_true, if_false, hcached]
      exact ⟨_, _, List.getLast?_concat, hdecode⟩

theorem Traffic.determineProposedAction (h : Traffic sent places statuses v e ps) (hlatest : Latest v ps pos)
    (hpos : pos.Encodable) :
    ∃ ps', Traffic (sent ++ (v.determineProposedAction pos).2)
      (places ++ (v.determineProposedAction pos).2.filterMap fun m => if isPosition m then some pos else none) statuses
      (v.determineProposedAction pos).1 e ps' ∧ Latest (v.determineProposedAction pos).1 ps' pos := by
  have h' : Traffic sent places statuses { v with proposedAction := v.proposal } e ps := h.congr rfl h.cached
  rw [Xvisit.determineProposedAction]
  split
  · exact h'.sendPosition hpos
  · exact ⟨ps, by simpa using h', hlatest⟩

/-- The unanswered position was answered. -/
theorem Traffic.answer (h : Traffic sent places statuses v e ps) (hp : v.pending = true) :
    Traffic sent places (statuses + 1) { v with pending := false, cached := false } e ps := by
  have hcount := h.count
  rw [if_pos hp] at hcount
  exact ⟨h.enter, h.positions, h.sent_eq, h.decoded, hcount, fun hc => by cases hc⟩

/-- All that the target got, up to the message that ends the visit. -/
structure Trail (sent : List XdndMessage) (places : List Position) (e : XdndMessage) (ps last : List XdndMessage) :
    Prop where
  enter : isEnter e
  positions : ∀ p ∈ ps, isPosition p
  sent_eq : sent = e :: ps ++ last
  decoded : ps.filterMap pointOf = places

theorem Traffic.trail (h : Traffic sent places statuses v e ps) (last : List XdndMessage) :
    Trail (sent ++ last) places e ps last :=
  ⟨h.enter, h.positions, by rw [h.sent_eq], h.decoded⟩

theorem Traffic.last (h : Traffic sent places statuses v e ps) (last : XdndMessage) (hlast : isPosition last = false) :
    Trail (sent ++ [last])
      (places ++ [last].filterMap fun m => if isPosition m then some pos else none) e ps [last] := by
  have hnone : ([last].filterMap fun m => if isPosition m then some pos else none) = [] := by simp [hlast]
  rw [hnone, List.append_nil]
  exact h.trail [last]

variable {last : List XdndMessage}

theorem Trail.filter_eq (h : Trail sent places e ps last) (hlast : last.filter isPosition = []) :
    sent.filter isPosition = ps := by
  have he : isPosition e = false := by
    cases e with
    | enter => rfl
    | position word action => exact absurd h.enter Bool.false_ne_true
    | leave => rfl
    | drop => rfl
  rw [h.sent_eq, List.cons_append, List.filter_cons_of_neg (by simp [he]), List.filter_append, hlast,
    List.append_nil, List.filter_eq_self.mpr h.positions]

theorem Trail.received_eq (h : Trail sent places e ps last) (hlast : last.filter isPosition = []) :
    (sent.dropWhile (!isEnter ·)).filter isPosition = ps := by
  have hsame : sent.dropWhile (!isEnter ·) = sent := by
    rw [h.sent_eq, List.cons_append, List.dropWhile_cons_of_neg (by simp [h.enter])]
  rw [hsame, h.filter_eq hlast]

theorem Trail.filterMap_eq (h : Trail sent places e ps last) (hlast : last.filterMap pointOf = []) :
    sent.filterMap pointOf = places := by
  have he : pointOf e = none := by
    cases e with
    | enter => rfl
    | position word action => exact absurd h.enter Bool.false_ne_true
    | leave => rfl
    | drop => rfl
  rw [h.sent_eq, List.cons_append, List.filterMap_cons_none he, List.filterMap_append, hlast, List.append_nil,
    h.decoded]

end traffic

/-- What the handlers of positions and actions leave alone. -/
structure Steady (v v' : Xvisit) : Prop where
  target : v'.target = v.target
  entered : v'.entered = v.entered
  dropped : v'.dropped = v.dropped
  finished : v'.finished = v.finished
  dataOffer : v'.dataOffer = v.dataOffer
  motionConnection : v'.motionConnection = v.motionConnection

theorem sendPosition_steady (v : Xvisit) (pos : Position) : Steady v (v.sendPosition pos).1 := by
  rw [Xvisit.sendPosition]
  split <;> exact ⟨rfl, rfl, rfl, rfl, rfl, rfl⟩

theorem determineProposedAction_steady (v : Xvisit) (pos : Position) : Steady v (v.determineProposedAction pos).1 := by
  rw [Xvisit.determineProposedAction]
  split
  · have h := sendPosition_steady { v with proposedAction := v.proposal } pos
    exact ⟨h.target, h.entered, h.dropped, h.finished, h.dataOffer, h.motionConnection⟩
  · exact ⟨rfl, rfl, rfl, rfl, rfl, rfl⟩

/-- No signal is connected. -/
structure Stopped (v : Xvisit) : Prop where
  enter : v.enterConnection = false
  motion : v.motionConnection = false
  action : v.actionConnection = false
  drop : v.dropConnection = false

theorem stopConnections_stopped (v : Xvisit) : Stopped v.stopConnections := ⟨rfl, rfl, rfl, rfl⟩

/-- A visit that waits for an offer. -/
def fresh (target : XWindow) (version : Nat) : Xvisit :=
  { Xvisit.blank target with version := version, enterConnection := true, dropConnection := true }

/-- The visit before its enter message. -/
structure Waiting (w : DragWorld) (target : XWindow) (version : Nat) : Prop where
  visit : w.visit = fresh target version
  undropped : w.dropPos = none
  gone : w.gone = false
  sent : w.sent = []
  places : w.places = []
  statuses : w.statuses = 0
  reply : w.finishedReply = false

structure Visiting (w : DragWorld) (e : XdndMessage) (ps : List XdndMessage) : Prop where
  traffic : Traffic w.sent w.places w.statuses w.visit e ps
  latest : Latest w.visit ps w.pointer
  good : w.pointer.Encodable
  undropped : w.dropPos = none
  gone : w.gone = false
  entered : w.visit.entered = true
  dropped : w.visit.dropped = false
  finished : w.visit.finished = false
  dataOffer : w.visit.dataOffer = true
  connected : w.visit.motionConnection = true
  reply : w.finishedReply = false

/-- A drop at `pos` waits for an answer. -/
structure Closing (w : DragWorld) (e : XdndMessage) (ps : List XdndMessage) (pos : Position) : Prop where
  traffic : Traffic w.sent w.places w.statuses w.visit e ps
  latest : Latest w.visit ps pos
  good : pos.Encodable
  dropPos : w.dropPos = some pos
  pending : w.visit.pending = true
  gone : w.gone = false
  entered : w.visit.entered = true
  dropped : w.visit.dropped = true
  finished : w.visit.finished = false
  stopped : Stopped w.visit
  reply : w.finishedReply = false

structure DropSent (w : DragWorld) (e : XdndMessage) (ps : List XdndMessage) (pos : Position) : Prop where
  trail : Trail w.sent w.places e ps [.drop]
  answered : w.statuses = ps.length
  lastAt : LastAt ps pos
  dropPos : w.dropPos = some pos
  dropped : w.visit.dropped = true
  gone : w.gone = false
  stopped : Stopped w.visit
  reply : w.visit.finished = true ∨ w.finishedReply = false

/-- A visit that ended without a drop, before its enter message or with a message to leave. -/
structure Ended (w : DragWorld) : Prop where
  finished : w.visit.finished = true
  stopped : Stopped w.visit
  sent : w.sent = [] ∧ w.places = [] ∨ ∃ e ps, Trail w.sent w.places e ps [.leave] ∧ ps.length ≤ w.statuses + 1 ∧
    (w.gone = false → w.statuses = ps.length)

inductive Phase (w : DragWorld) : Prop
  | waiting (target : XWindow) (version : Nat) (h : Waiting w target version)
  | visiting (e : XdndMessage) (ps : List XdndMessage) (h : Visiting w e ps)
  | closing (e : XdndMessage) (ps : List XdndMessage) (pos : Position) (h : Closing w e ps pos)
  | dropSent (e : XdndMessage) (ps : List XdndMessage) (pos : Position) (h : DropSent w e ps pos)
  | ended (h : Ended w)

section phases
variable {w w' : DragWorld} {mimeTypes : List Atom} {event : DragEvent} {target : XWindow} {version : Nat}
  {e : XdndMessage} {ps : List XdndMessage} {pos : Position}

theorem Traffic.drop_not_mem {sent : List XdndMessage} {places : List Position} {statuses : Nat} {v : Xvisit}
    (h : Traffic sent places statuses v e ps) : .drop ∉ sent := by
  intro hm
  rw [h.sent_eq] at hm
  rcases List.mem_cons.mp hm with rfl | hm
  · exact absurd h.enter Bool.false_ne_true
  · exact absurd (h.positions _ hm) Bool.false_ne_true

theorem Trail.drop_not_mem {sent : List XdndMessage} {places : List Position} (h : Trail sent places e ps [.leave]) :
    .drop ∉ sent := by
  intro hm
  rw [h.sent_eq] at hm
  rcases List.mem_cons.mp hm with rfl | hm
  · exact absurd h.enter Bool.false_ne_true
  · rcases List.mem_append.mp hm with hm | hm
    · exact absurd (h.positions _ hm) Bool.false_ne_true
    · cases List.mem_singleton.mp hm

theorem Waiting.conforms (h : Waiting w target version) : w.Conforms := by
  refine ⟨.inl h.sent, by simp [positions, h.sent], by simp [h.sent, h.places], by simp [h.sent], fun hd => ?_⟩
  rw [h.visit] at hd
  cases hd

/-- While the target is told positions only. -/
theorem Traffic.conforms (h : Traffic w.sent w.places w.statuses w.visit e ps)
    (halive : w.visit.dropped → w.visit.pending) : w.Conforms := by
  have htrail : Trail w.sent w.places e ps [] := by simpa using h.trail []
  have hps : w.positions = ps := htrail.filter_eq rfl
  have hcount := h.count
  refine ⟨.inr ⟨e, ps, [], h.enter, h.positions, .inl rfl, htrail.sent_eq⟩, ?_,
    htrail.filterMap_eq rfl, fun hm => absurd hm h.drop_not_mem, fun hd _ => .inl ?_⟩
  · rw [hps, ← hcount]
    split <;> omega
  · rw [if_pos (halive hd)] at hcount
    rw [hps]
    omega

theorem DropSent.conforms (h : DropSent w e ps pos) : w.Conforms := by
  have hps : w.positions = ps := h.trail.filter_eq rfl
  have hmem : .drop ∈ w.sent := by simp [h.trail.sent_eq]
  have hanswered := h.answered
  refine ⟨.inr ⟨e, ps, [.drop], h.trail.enter, h.trail.positions, .inr (.inr rfl), h.trail.sent_eq⟩, ?_,
    h.trail.filterMap_eq rfl, fun _ => ?_, fun _ hf => .inr ⟨hmem, ?_⟩⟩
  · rw [hps]
    omega
  · rw [hps]
    exact ⟨hanswered, pos, h.dropPos, h.lastAt⟩
  · rcases h.reply with hr | hr
    · exact absurd hr hf
    · simp [hr]

theorem Ended.conforms (h : Ended w) : w.Conforms := by
  rcases h.sent with ⟨hsent, hplaces⟩ | ⟨e, ps, trail, hle, -⟩
  · exact ⟨.inl hsent, by simp [positions, hsent], by simp [hsent, hplaces], by simp [hsent], fun _ hf => absurd h.finished hf⟩
  · have hps : w.positions = ps := trail.filter_eq rfl
    exact ⟨.inr ⟨e, ps, [.leave], trail.enter, trail.positions, .inr (.inl rfl), trail.sent_eq⟩, by rwa [hps],
      trail.filterMap_eq rfl, fun hm => absurd hm trail.drop_not_mem,
      fun _ hf => absurd h.finished hf⟩

theorem Phase.conforms (h : Phase w) : w.Conforms := by
  cases h with
  | waiting target version h => exact h.conforms
  | visiting e ps h => exact h.traffic.conforms fun hd => absurd hd (by simp [h.dropped])
  | closing e ps pos h => exact h.traffic.conforms fun _ => h.pending
  | dropSent e ps pos h => exact h.conforms
  | ended h => exact h.conforms

/-- A drop waits for an answer, or it ends the visit. -/
theorem Phase.drop (traffic : Traffic w.sent w.places w.statuses w.visit e ps) (latest : Latest w.visit ps pos)
    (good : pos.Encodable) (dropPos : w.dropPos = some pos) (gone : w.gone = false) (entered : w.visit.entered = true)
    (finished : w.visit.finished = false) (reply : w.finishedReply = false) : Phase (w.take w.visit.drop) := by
  cases hp : w.visit.pending with
  | true =>
    have hdrop : w.visit.drop = ({ w.visit with dropped := true }.stopConnections, []) := by
      simp [Xvisit.drop, Xvisit.stopConnections, entered, hp]
    rw [hdrop]
    refine .closing e ps pos ⟨?_, latest, good, dropPos, hp, gone, entered, rfl, finished,
      stopConnections_stopped _, reply⟩
    simp only [take, List.append_nil, List.filterMap_nil]
    exact traffic.congr rfl traffic.cached
  | false =>
    have hcount : w.statuses = ps.length := by simpa [hp] using traffic.count
    have hcached : w.visit.cached = false := by
      cases hc : w.visit.cached with
      | false => rfl
      | true => exact absurd (traffic.cached hc) (by simp [hp])
    have hlast : LastAt ps pos := by simpa [Latest, hcached] using latest
    cases ha : w.visit.accepts with
    | false =>
      have hdrop : w.visit.drop = ({ w.visit with dropped := true }.stopConnections.doFinish, [.leave]) := by
        simp [Xvisit.drop, Xvisit.stopConnections, Xvisit.sendLeave, entered, hp, ha]
      rw [hdrop]
      exact .ended ⟨rfl, stopConnections_stopped _, .inr ⟨e, ps, traffic.last .leave rfl, by simp [take, hcount], fun _ => hcount⟩⟩
    | true =>
      have hdrop : w.visit.drop = { w.visit with dropped := true }.stopConnections.sendDrop := by
        simp [Xvisit.drop, Xvisit.stopConnections, entered, hp, ha]
      rw [hdrop]
      refine .dropSent e ps pos ⟨traffic.last .drop rfl, hcount, hlast, dropPos, ?_, gone, ?_, .inr reply⟩
      · simp only [take, Xvisit.sendDrop]
        split <;> rfl
      · simp only [take, Xvisit.sendDrop]
        split <;> exact stopConnections_stopped _

/-- A target that is told nothing else is told a new proposal at once. -/
theorem determineProposedAction_cases {v : Xvisit} (hp : v.pending = false) (pos : Position) : ∃ proposed,
    v.determineProposedAction pos = ({ v with proposedAction := proposed }, []) ∨
    v.determineProposedAction pos = ({ v with proposedAction := proposed, pending := true },
      [.position pos.word (clientActionToAtom proposed)]) := by
  refine ⟨v.proposal, ?_⟩
  rw [Xvisit.determineProposedAction]
  split
  · right
    simp [Xvisit.sendPosition, hp]
  · exact .inl rfl

/-- What a reply to a position does before the drop: nothing, or one more position of the pointer is sent. -/
theorem handleStatus_cases {v : Xvisit} (accepts : Bool) (action : ActionAtom) {pos : Position}
    (hdropped : v.dropped = false) (hcache : v.cached → v.cache = pos) :
    let r := (v.handleStatus v.target accepts action pos).2
    Steady v r.1 ∧ ((r.2 = [] ∧ r.1.pending = false ∧ r.1.cached = false ∧ v.cached = false) ∨
      ∃ proposed, r.2 = [.position pos.word (clientActionToAtom proposed)] ∧ r.1.pending = true ∧
        (r.1.cached → r.1.cache = pos)) := by
  obtain ⟨u, hu⟩ : ∃ u : Xvisit, u =
    { v with accepts := accepts, pending := false, preferredAction := atomToClientAction action } := ⟨_, rfl⟩
  have hcached : u.cached = v.cached := by rw [hu]
  have hcache' : u.cache = v.cache := by rw [hu]
  have hdropped' : u.dropped = false := by rw [hu]; exact hdropped
  have hpending : u.pending = false := by rw [hu]
  have hsteady : Steady v u := by rw [hu]; exact ⟨rfl, rfl, rfl, rfl, rfl, rfl⟩
  have hstatus : (v.handleStatus v.target accepts action pos).2 =
      (let r := u.determineProposedAction pos
      let q := if r.1.cached then { r.1 with cached := false }.sendPosition r.1.cache
        else if r.1.dropped then r.1.drop
        else (r.1, [])
      (q.1, r.2 ++ q.2)) := by
    rw [Xvisit.handleStatus, if_neg (not_not.mpr rfl), hu]
    dsimp only
    rw [if_pos (show ¬ v.dropped = true by simp [hdropped])]
  obtain ⟨target, entered, dropped, finished, dataOffer, motion⟩ := hsteady
  obtain ⟨proposed, hdet | hdet⟩ := determineProposedAction_cases hpending pos
  · cases hc : v.cached with
    | false =>
      have hr : (v.handleStatus v.target accepts action pos).2 = ({ u with proposedAction := proposed }, []) := by
        simp [hstatus, hdet, hcached, hc, hdropped']
      rw [hr]
      exact ⟨⟨target, entered, dropped, finished, dataOffer, motion⟩,
        .inl ⟨rfl, hpending, by rw [← hc, ← hcached], rfl⟩⟩
    | true =>
      have hr : (v.handleStatus v.target accepts action pos).2 =
          ({ u with proposedAction := proposed, cached := false, pending := true },
            [.position pos.word (clientActionToAtom proposed)]) := by
        simp [hstatus, hdet, hcached, hc, hcache', hcache hc, hpending, Xvisit.sendPosition]
      rw [hr]
      exact ⟨⟨target, entered, dropped, finished, dataOffer, motion⟩, .inr ⟨proposed, rfl, rfl, fun h => by cases h⟩⟩
  · have hr : (v.handleStatus v.target accepts action pos).2 =
        ({ u with proposedAction := proposed, pending := true },
          [.position pos.word (clientActionToAtom proposed)]) := by
      cases hc : v.cached with
      | false => simp [hstatus, hdet, hcached, hc, hdropped']
      | true => simp [hstatus, hdet, hcached, hc, Xvisit.sendPosition]
    rw [hr]
    refine ⟨⟨target, entered, dropped, finished, dataOffer, motion⟩, .inr ⟨proposed, rfl, rfl, fun h => ?_⟩⟩
    exact hcache'.trans (hcache (hcached ▸ h))

/-- The first offer enters the target and tells it the place of the pointer. -/
theorem Waiting.receiveOffer (h : Waiting w target version) {actions : DnDActions} (hcopy : actions.copy = false)
    (good : w.pointer.Encodable) : Phase (w.take (w.visit.receiveOffer mimeTypes actions w.pointer)) := by
  have hproposal : { fresh target version with dataOffer := true, supportedActions := actions }.proposal = .none := by
    simp [Xvisit.proposal, fresh, Xvisit.blank, DnDActions.testFlag, hcopy]
  have hoffer : w.visit.receiveOffer mimeTypes actions w.pointer =
      ({ fresh target version with
          dataOffer := true
          supportedActions := actions
          actionConnection := true
          entered := true
          pending := true
          motionConnection := true },
        (fresh target version).sendEnter mimeTypes ++ [.position w.pointer.word .none]) := by
    rw [h.visit, Xvisit.receiveOffer, if_neg (by simp [fresh, Xvisit.blank]), Xvisit.retrieveSupportedActions,
      Xvisit.determineProposedAction, hproposal]
    rfl
  have hdecode := (Position.decode_word_iff w.pointer).mpr good
  rw [hoffer]
  refine .visiting _ [.position w.pointer.word .none]
    ⟨⟨?_, ?_, by rw [take, h.sent]; rfl, ?_, ?_, fun _ => rfl⟩, ⟨_, _, rfl, hdecode⟩, good, h.undropped, h.gone, rfl,
      rfl, rfl, rfl, rfl, h.reply⟩
  · rfl
  · simp [isPosition]
  · simp [take, h.places, h.undropped, pointOf, hdecode, isPosition, Xvisit.sendEnter]
  · simp [take, h.statuses]

theorem Waiting.step (h : Waiting w target version) (hok : w.proper event)
    (hstep : dragStep mimeTypes w event = some w') : Phase w' := by
  cases event with
  | dragEntered actions =>
    simp only [dragStep] at hstep
    split at hstep
    · obtain rfl := Option.some.inj hstep
      exact h.receiveOffer hok.1 hok.2
    · cases hstep
  | actionsChanged actions =>
    have haction : w.visit.actionConnection = false := by rw [h.visit]; rfl
    simp [dragStep, haction] at hstep
  | motion pos =>
    have hmotion : w.visit.motionConnection = false := by rw [h.visit]; rfl
    simp only [dragStep, hmotion, Bool.false_eq_true, and_false, if_false, Option.some.injEq] at hstep
    subst hstep
    exact .waiting target version ⟨h.visit, h.undropped, h.gone, h.sent, h.places, h.statuses, h.reply⟩
  | dropped =>
    rw [proper, h.visit] at hok
    cases hok
  | targetChange =>
    simp only [dragStep] at hstep
    split at hstep
    · obtain rfl := Option.some.inj hstep
      have hleave : w.visit.leave = (w.visit.doFinish, []) := by
        rw [h.visit]
        rfl
      rw [hleave]
      exact .ended ⟨rfl, stopConnections_stopped _, .inl (by simp [take, h.sent, h.places])⟩
    · cases hstep
  | status accepts action => simp [dragStep, received, h.sent] at hstep
  | finished => simp [dragStep, h.sent] at hstep

theorem Traffic.received_eq (h : Traffic w.sent w.places w.statuses w.visit e ps) : w.received = ps := by
  have htrail : Trail w.sent w.places e ps [] := by simpa using h.trail []
  exact htrail.received_eq rfl

theorem status_cases {accepts : Bool} {action : ActionAtom} (hgone : w.gone = false)
    (h : dragStep mimeTypes w (.status accepts action) = some w') : w.statuses < w.received.length ∧
      w' = { w with statuses := w.statuses + 1 }.take
        (w.visit.handleStatus w.visit.target accepts action w.pointer).2 := by
  simp only [dragStep] at h
  split at h
  next hlt =>
    rw [if_neg (show ¬ w.gone = true by simp [hgone])] at h
    exact ⟨hlt, (Option.some.inj h).symm⟩
  next => cases h

/-- A handler that leaves the visit as it is apart from positions and actions. -/
theorem Visiting.of_steady (h : Visiting w e ps) {v : Xvisit} {out ps' : List XdndMessage} {statuses : Nat}
    (hsteady : Steady w.visit v)
    (traffic : Traffic (w.sent ++ out)
      (w.places ++ out.filterMap fun m => if isPosition m then some w.pointer else none) statuses v e ps')
    (latest : Latest v ps' w.pointer) : Visiting ({ w with statuses := statuses }.take (v, out)) e ps' :=
  ⟨by simpa only [take, h.undropped, Option.getD_none] using traffic, latest, h.good, h.undropped, h.gone, hsteady.entered.trans h.entered, hsteady.dropped.trans h.dropped,
    hsteady.finished.trans h.finished, hsteady.dataOffer.trans h.dataOffer, hsteady.motionConnection.trans h.connected,
    h.reply⟩

theorem Visiting.motion (h : Visiting w e ps) (hpos : pos.Encodable) :
    Phase ({ w with pointer := pos }.take (w.visit.sendPosition pos)) := by
  obtain ⟨ps', htraffic, hlatest⟩ := h.traffic.sendPosition hpos
  have hs := sendPosition_steady w.visit pos
  exact .visiting e ps' ⟨by simpa only [take, h.undropped, Option.getD_none] using htraffic, hlatest, hpos,
    h.undropped, h.gone, hs.entered.trans h.entered,
    hs.dropped.trans h.dropped, hs.finished.trans h.finished, hs.dataOffer.trans h.dataOffer,
    hs.motionConnection.trans h.connected, h.reply⟩

theorem Visiting.status (h : Visiting w e ps) (accepts : Bool) (action : ActionAtom)
    (hlt : w.statuses < ps.length) :
    Phase ({ w with statuses := w.statuses + 1 }.take
      (w.visit.handleStatus w.visit.target accepts action w.pointer).2) := by
  have hpending : w.visit.pending = true := by
    cases hp : w.visit.pending with
    | true => rfl
    | false =>
      have hcount := h.traffic.count
      simp only [hp, Bool.false_eq_true, if_false] at hcount
      omega
  have hcache : w.visit.cached → w.visit.cache = w.pointer := by
    intro hc
    simpa [Latest, hc] using h.latest
  have hanswer := h.traffic.answer hpending
  obtain ⟨hsteady, ⟨hout, hp, hc, hc'⟩ | ⟨proposed, hout, hp, hc⟩⟩ := handleStatus_cases accepts action h.dropped hcache
  · refine .visiting e ps (h.of_steady hsteady ?_ ?_)
    · rw [hout, List.append_nil, List.filterMap_nil, List.append_nil]
      exact hanswer.congr hp (by simp [hc])
    · have hlast := h.latest
      simp only [Latest, hc', Bool.false_eq_true, if_false] at hlast
      simpa only [Latest, hc, Bool.false_eq_true, if_false] using hlast
  · have hanswer' : Traffic w.sent w.places (w.statuses + 1)
        { w.visit with pending := false, cached := false, proposedAction := proposed } e ps :=
      hanswer.congr rfl fun hc => by cases hc
    obtain ⟨ps', htraffic, hlatest⟩ := hanswer'.sendPosition h.good
    refine .visiting e ps' (h.of_steady hsteady ?_ ?_)
    · rw [hout]
      exact htraffic.congr hp fun _ => hp
    · rw [Latest]
      split
      · exact hc (by assumption)
      · simpa [Latest, Xvisit.sendPosition] using hlatest

theorem Visiting.step (h : Visiting w e ps) (hok : w.proper event) (hstep : dragStep mimeTypes w event = some w') :
    Phase w' := by
  cases event with
  | dragEntered actions => simp [dragStep, h.dataOffer] at hstep
  | actionsChanged actions =>
    simp only [dragStep] at hstep
    split at hstep
    · obtain rfl := Option.some.inj hstep
      have htraffic : Traffic w.sent w.places w.statuses { w.visit with supportedActions := actions } e ps :=
        h.traffic.congr rfl h.traffic.cached
      obtain ⟨ps', htraffic', hlatest⟩ := htraffic.determineProposedAction h.latest h.good
      have hs := determineProposedAction_steady { w.visit with supportedActions := actions } w.pointer
      exact .visiting e ps' (h.of_steady ⟨hs.target, hs.entered, hs.dropped, hs.finished, hs.dataOffer,
        hs.motionConnection⟩ htraffic' hlatest)
    · cases hstep
  | motion pos =>
    have hgo : ¬ w.gone = true ∧ w.visit.motionConnection = true := ⟨by simp [h.gone], h.connected⟩
    simp only [dragStep, if_pos hgo, Option.some.injEq] at hstep
    subst hstep
    exact h.motion (hok h.connected)
  | dropped =>
    simp only [dragStep] at hstep
    split at hstep
    · obtain rfl := Option.some.inj hstep
      exact .drop h.traffic h.latest h.good rfl h.gone h.entered h.finished h.reply
    · cases hstep
  | targetChange =>
    simp only [dragStep] at hstep
    split at hstep
    · obtain rfl := Option.some.inj hstep
      have hleave : w.visit.leave = (w.visit.doFinish, [.leave]) := by
        simp [Xvisit.leave, h.finished, h.entered, Xvisit.sendLeave]
      have hcount : ps.length ≤ w.statuses + 1 := by
        rw [← h.traffic.count]
        split <;> omega
      rw [hleave]
      exact .ended ⟨rfl, stopConnections_stopped _, .inr ⟨e, ps, h.traffic.last .leave rfl, hcount, fun hg => by cases hg⟩⟩
    · cases hstep
  | status accepts action =>
    obtain ⟨hlt, rfl⟩ := status_cases h.gone hstep
    exact h.status accepts action (by rwa [h.traffic.received_eq] at hlt)
  | finished => simp [dragStep, h.traffic.drop_not_mem] at hstep

theorem Closing.status (h : Closing w e ps pos) (accepts : Bool) (action : ActionAtom) :
    Phase ({ w with statuses := w.statuses + 1 }.take
      (w.visit.handleStatus w.visit.target accepts action w.pointer).2) := by
  have hanswer := h.traffic.answer h.pending
  cases hc : w.visit.cached with
  | true =>
    have hcache : w.visit.cache = pos := by simpa [Latest, hc] using h.latest
    have hstatus : (w.visit.handleStatus w.visit.target accepts action w.pointer).2 =
        { w.visit with accepts := accepts, pending := false, cached := false }.sendPosition pos := by
      simp [Xvisit.handleStatus, h.dropped, hc, hcache]
    have hanswer' : Traffic w.sent w.places (w.statuses + 1)
        { w.visit with accepts := accepts, pending := false, cached := false } e ps :=
      hanswer.congr rfl fun hc => by cases hc
    obtain ⟨ps', htraffic, hlatest⟩ := hanswer'.sendPosition h.good
    rw [hstatus]
    obtain ⟨enter, motion, action', drop⟩ := h.stopped
    exact .closing e ps' pos ⟨by simpa only [take, h.dropPos, Option.getD_some] using htraffic, hlatest, h.good, h.dropPos, rfl, h.gone, h.entered, h.dropped,
      h.finished, ⟨enter, motion, action', drop⟩, h.reply⟩
  | false =>
    have hstatus : (w.visit.handleStatus w.visit.target accepts action w.pointer).2 =
        { w.visit with accepts := accepts, pending := false }.drop := by
      simp [Xvisit.handleStatus, h.dropped, hc]
    have htraffic : Traffic w.sent w.places (w.statuses + 1) { w.visit with accepts := accepts, pending := false } e ps :=
      hanswer.congr rfl (by simp [hc])
    have hlast : Latest { w.visit with accepts := accepts, pending := false } ps pos := h.latest
    rw [hstatus]
    have hphase := Phase.drop (w := { w with
      visit := { w.visit with accepts := accepts, pending := false }
      statuses := w.statuses + 1 }) htraffic hlast h.good h.dropPos h.gone h.entered h.finished h.reply
    exact hphase

/-- Once no signal is connected only the replies of the target count, and the pointer moves on. -/
theorem Stopped.step_cases (h : Stopped w.visit) (hdropped : w.visit.dropped = true ∨ w.visit.finished = true)
    (hstep : dragStep mimeTypes w event = some w') :
    (∃ pos, w' = { w with pointer := pos }) ∨
    (w.visit.dropped = false ∧ w' = { w with gone := true }) ∨
    (∃ accepts action, event = .status accepts action) ∨ event = .finished := by
  cases event with
  | dragEntered actions => simp [dragStep, h.enter] at hstep
  | actionsChanged actions => simp [dragStep, h.action] at hstep
  | motion pos =>
    simp only [dragStep, h.motion, Bool.false_eq_true, and_false, if_false, Option.some.injEq] at hstep
    exact .inl ⟨pos, hstep.symm⟩
  | dropped => simp [dragStep, h.drop] at hstep
  | targetChange =>
    simp only [dragStep] at hstep
    split at hstep
    next hgo =>
      have hd : w.visit.dropped = false := by simpa using hgo.2
      have hf : w.visit.finished = true := hdropped.resolve_left (by simp [hd])
      obtain rfl := Option.some.inj hstep
      exact .inr (.inl ⟨hd, by simp [take, Xvisit.leave, hf]⟩)
    next => cases hstep
  | status accepts action => exact .inr (.inr (.inl ⟨accepts, action, rfl⟩))
  | finished => exact .inr (.inr (.inr rfl))

theorem Closing.step (h : Closing w e ps pos) (hstep : dragStep mimeTypes w event = some w') : Phase w' := by
  obtain ⟨p, rfl⟩ | ⟨hd, -⟩ | ⟨accepts, action, rfl⟩ | rfl := h.stopped.step_cases (.inl h.dropped) hstep
  · exact .closing e ps pos ⟨h.traffic, h.latest, h.good, h.dropPos, h.pending,
      h.gone, h.entered, h.dropped, h.finished, h.stopped, h.reply⟩
  · exact absurd h.dropped (by simp [hd])
  · obtain ⟨-, rfl⟩ := status_cases h.gone hstep
    exact h.status accepts action
  · simp [dragStep, h.traffic.drop_not_mem] at hstep

theorem DropSent.step (h : DropSent w e ps pos) (hstep : dragStep mimeTypes w event = some w') : Phase w' := by
  obtain ⟨p, rfl⟩ | ⟨hd, -⟩ | ⟨accepts, action, rfl⟩ | rfl := h.stopped.step_cases (.inl h.dropped) hstep
  · exact .dropSent e ps pos ⟨h.trail, h.answered, h.lastAt, h.dropPos, h.dropped, h.gone, h.stopped, h.reply⟩
  · exact absurd h.dropped (by simp [hd])
  · obtain ⟨hlt, -⟩ := status_cases h.gone hstep
    rw [received, h.trail.received_eq rfl, h.answered] at hlt
    exact absurd hlt (Nat.lt_irrefl _)
  · simp only [dragStep] at hstep
    split at hstep
    · rw [if_neg (show ¬ w.gone = true by simp [h.gone])] at hstep
      obtain rfl := Option.some.inj hstep
      have hfinished : (w.visit.handleFinished w.visit.target).2 = { w.visit with dataOffer := false }.doFinish := by
        simp [Xvisit.handleFinished, h.dropped]
      rw [hfinished]
      exact .dropSent e ps pos ⟨h.trail, h.answered, h.lastAt, h.dropPos, h.dropped, h.gone, stopConnections_stopped _,
        .inl rfl⟩
    · cases hstep

theorem Ended.step (h : Ended w) (hstep : dragStep mimeTypes w event = some w') : Phase w' := by
  obtain ⟨p, rfl⟩ | ⟨-, rfl⟩ | ⟨accepts, action, rfl⟩ | rfl := h.stopped.step_cases (.inr h.finished) hstep
  · refine .ended ⟨h.finished, h.stopped, h.sent.imp_right ?_⟩
    rintro ⟨e, ps, trail, hle, heq⟩
    exact ⟨e, ps, trail, hle, heq⟩
  · refine .ended ⟨h.finished, h.stopped, h.sent.imp_right ?_⟩
    rintro ⟨e, ps, trail, hle, -⟩
    exact ⟨e, ps, trail, hle, fun hg => by cases hg⟩
  · simp only [dragStep] at hstep
    split at hstep
    next hlt =>
      rcases h.sent with ⟨hsent, -⟩ | ⟨e, ps, trail, hle, heq⟩
      · simp [received, hsent] at hlt
      · rw [received, trail.received_eq rfl] at hlt
        have hgone : w.gone = true := by
          cases hg : w.gone with
          | true => rfl
          | false => exact absurd (heq hg) (Nat.ne_of_lt hlt)
        rw [if_pos (show w.gone = true from hgone)] at hstep
        obtain rfl := Option.some.inj hstep
        exact .ended ⟨h.finished, h.stopped, .inr ⟨e, ps, trail, by simp; omega, fun hg => Bool.noConfusion (hgone.symm.trans hg)⟩⟩
    next => cases hstep
  · rcases h.sent with ⟨hsent, -⟩ | ⟨e, ps, trail, -, -⟩
    · simp [dragStep, hsent] at hstep
    · simp [dragStep, trail.drop_not_mem] at hstep

theorem Phase.step (h : Phase w) (hok : w.proper event) (hstep : dragStep mimeTypes w event = some w') :
    Phase w' := by
  cases h with
  | waiting target version h => exact h.step hok hstep
  | visiting e ps h => exact h.step hok hstep
  | closing e ps pos h => exact h.step hstep
  | dropSent e ps pos h => exact h.step hstep
  | ended h => exact h.step hstep

theorem Phase.start (target : XWindow) (aware : Option Nat) (pointer : Position) :
    Phase (start target aware pointer) := by
  cases aware with
  | none => exact .ended ⟨rfl, stopConnections_stopped _, .inl ⟨rfl, rfl⟩⟩
  | some value =>
    rw [DragWorld.start, Xvisit.create]
    dsimp only
    split
    · exact .ended ⟨rfl, stopConnections_stopped _, .inl ⟨rfl, rfl⟩⟩
    · exact .waiting target _ ⟨rfl, rfl, rfl, rfl, rfl, rfl, rfl⟩

end phases

end DragWorld
end KWinFT.Xwl
