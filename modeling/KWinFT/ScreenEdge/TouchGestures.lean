import KWinFT.ScreenEdge.Edge

/-! The gesture of an edge against its state. Reservations by touch callbacks change whether the edge reacts to touches
without saying so. -/
namespace KWinFT.ScreenEdge

inductive EdgeEvent
  | reserve
  | unreserve
  | reserveObject (object : ObjectId) (slot : String)
  | unreserveObject (object : ObjectId)
  | reserveTouchCallBack (action : ActionId)
  | unreserveTouchCallBack (action : ActionId)
  | setTouchAction (action : ElectricBorderAction)
  | setClient (window : Option WindowId)
  | checkBlocking (activeClient : Option ActiveClient)
deriving Repr, DecidableEq

namespace Edge
variable {e : Edge}

def step (e : Edge) : EdgeEvent → Edge
  | .reserve => e.reserve
  | .unreserve => e.unreserve
  | .reserveObject object slot => e.reserveObject object slot
  | .unreserveObject object => e.unreserveObject object
  | .reserveTouchCallBack action => e.reserveTouchCallBack action
  | .unreserveTouchCallBack action => e.unreserveTouchCallBack action
  | .setTouchAction action => e.setTouchAction action
  | .setClient window => e.setClient window
  | .checkBlocking activeClient => e.checkBlocking activeClient

def run (e : Edge) (events : List EdgeEvent) : Edge := events.foldl step e

/-- The gesture is registered once when the edge is reserved and reacts to touches, and not otherwise. -/
def FollowsTouch (e : Edge) : Prop := e.registered = if e.isReserved ∧ e.activatesForTouchGesture then 1 else 0

/-- The count of reservations goes up by one: unless it becomes one, the edge has to be registered as it should be. -/
def MayReserve (e e' : Edge) : Prop :=
  (e.reserved = -1 → ¬ e.activatesForTouchGesture) ∧
    (e.reserved ≠ 0 ∧ e.reserved ≠ -1 → e.activatesForTouchGesture = e'.activatesForTouchGesture)

/-- The same for giving back a reservation. -/
def MayUnreserve (e e' : Edge) : Prop :=
  (e.reserved = 0 → ¬ e'.activatesForTouchGesture) ∧
    (e.reserved ≠ 0 ∧ e.reserved ≠ 1 → e.activatesForTouchGesture = e'.activatesForTouchGesture)

/-- Touch callbacks come and go only when the edge has no other reservation or reacts to touches anyway, and no more
reservations are given back than were made. -/
def Careful (e : Edge) : EdgeEvent → Prop
  | .reserve | .reserveObject _ _ => MayReserve e e
  | .unreserve => MayUnreserve e e
  | .unreserveObject object => (∃ slot, (object, slot) ∈ e.callBacks) → MayUnreserve e e
  | .reserveTouchCallBack action =>
    action ∉ e.touchActions → MayReserve e { e with touchActions := e.touchActions ++ [action] }
  | .unreserveTouchCallBack action =>
    action ∈ e.touchActions → MayUnreserve e { e with touchActions := e.touchActions.erase action }
  | _ => True

private theorem reserve_spec (e : Edge) : e.reserve.reserved = e.reserved + 1 ∧
    e.reserve.activatesForTouchGesture = e.activatesForTouchGesture ∧
    e.reserve.registered = if e.reserved = 0 ∧ e.activatesForTouchGesture then e.registered + 1 else e.registered := by
  have hact : { e with reserved := e.reserved + 1 }.activatesForTouchGesture = e.activatesForTouchGesture := rfl
  unfold reserve activate
  dsimp only
  rw [hact]
  by_cases hone : e.reserved + 1 = 1
  · have hzero : e.reserved = 0 := by omega
    rw [if_pos hone]
    cases h : e.activatesForTouchGesture with
    | true => exact ⟨rfl, h, by simp [hzero, registerGesture]⟩
    | false => exact ⟨rfl, h, by simp⟩
  · have hzero : e.reserved ≠ 0 := by omega
    rw [if_neg hone]
    exact ⟨rfl, hact, by simp [hzero]⟩

private theorem unreserve_spec (e : Edge) : e.unreserve.reserved = e.reserved - 1 ∧
    e.unreserve.activatesForTouchGesture = e.activatesForTouchGesture ∧
    e.unreserve.registered = if e.reserved = 1 then 0 else e.registered := by
  unfold unreserve
  dsimp only
  by_cases hone : e.reserved = 1
  · rw [if_pos (by omega), if_pos hone]
    exact ⟨rfl, rfl, rfl⟩
  · rw [if_neg (by omega), if_neg hone]
    exact ⟨rfl, rfl, rfl⟩

/-- A reservation after the reasons to react to touches changed from those of `e` to those of `e'`. -/
private theorem reserve_followsTouch (e' : Edge) (he : e.FollowsTouch) (hreserved : e'.reserved = e.reserved)
    (hregistered : e'.registered = e.registered) : e'.reserve.FollowsTouch ↔ MayReserve e e' := by
  obtain ⟨hr, ha, hg⟩ := reserve_spec e'
  unfold FollowsTouch isReserved at he
  unfold FollowsTouch MayReserve isReserved
  rw [hr, ha, hg, hreserved, hregistered, he]
  cases e.activatesForTouchGesture <;> cases e'.activatesForTouchGesture <;> simp <;> grind

private theorem unreserve_followsTouch (e' : Edge) (he : e.FollowsTouch) (hreserved : e'.reserved = e.reserved)
    (hregistered : e'.registered = e.registered) : e'.unreserve.FollowsTouch ↔ MayUnreserve e e' := by
  obtain ⟨hr, ha, hg⟩ := unreserve_spec e'
  unfold FollowsTouch isReserved at he
  unfold FollowsTouch MayUnreserve isReserved
  rw [hr, ha, hg, hreserved, hregistered, he]
  cases e.activatesForTouchGesture <;> cases e'.activatesForTouchGesture <;> simp <;> grind

/-- Changes that are announced keep the gesture right. -/
private theorem emitTouchChange_followsTouch {e' : Edge} (he : e.FollowsTouch) (hreserved : e'.reserved = e.reserved)
    (hregistered : e'.registered = e.registered) :
    (e'.emitTouchChange e.activatesForTouchGesture).FollowsTouch := by
  have hact (n : Nat) : { e' with registered := n }.activatesForTouchGesture = e'.activatesForTouchGesture := rfl
  unfold FollowsTouch isReserved at he
  rw [← hreserved, ← hregistered] at he
  unfold emitTouchChange updateGesture FollowsTouch isReserved registerGesture unregisterGesture
  split
  · next hchange =>
    split
    · next hres =>
      split
      · next hnow =>
        have hwas : e.activatesForTouchGesture = false := by simpa [hnow] using hchange
        dsimp only
        rw [hact, he]
        simp [hres, hnow, hwas]
      · next hnow =>
        dsimp only
        rw [hact]
        simp [hnow]
    · next hres => simp [hres] at he ⊢; exact he
  · next hsame =>
    rw [not_not] at hsame
    rw [he, hsame]

/-- One call keeps the gesture right exactly when it is careful. -/
theorem step_followsTouch_iff (he : e.FollowsTouch) (event : EdgeEvent) :
    (e.step event).FollowsTouch ↔ e.Careful event := by
  cases event with
  | reserve => exact reserve_followsTouch e he rfl rfl
  | unreserve => exact unreserve_followsTouch e he rfl rfl
  | reserveObject object slot => exact reserve_followsTouch _ he rfl rfl
  | unreserveObject object =>
    unfold step unreserveObject Careful
    dsimp only
    split
    · next hin =>
      obtain ⟨⟨_, slot⟩, hmem, hobject⟩ := List.any_eq_true.mp hin
      have hcall : ∃ slot, (object, slot) ∈ e.callBacks := ⟨slot, of_decide_eq_true hobject ▸ hmem⟩
      rw [unreserve_followsTouch { e with callBacks := e.callBacks.filter (·.1 ≠ object) } he rfl rfl]
      exact ⟨fun h _ => h, fun h => h hcall⟩
    · next hnot =>
      refine iff_of_true he fun ⟨slot, hmem⟩ => absurd ?_ hnot
      exact List.any_eq_true.mpr ⟨(object, slot), hmem, decide_eq_true rfl⟩
  | reserveTouchCallBack action =>
    unfold step reserveTouchCallBack Careful
    dsimp only
    split
    · next hin => exact iff_of_true he fun hnot => absurd hin hnot
    · next hnot =>
      rw [reserve_followsTouch { e with touchActions := e.touchActions ++ [action] } he rfl rfl]
      exact ⟨fun h _ => h, fun h => h hnot⟩
  | unreserveTouchCallBack action =>
    unfold step unreserveTouchCallBack Careful
    dsimp only
    split
    · next hin =>
      rw [unreserve_followsTouch { e with touchActions := e.touchActions.erase action } he rfl rfl]
      exact ⟨fun h _ => h, fun h => h hin⟩
    · next hnot => exact iff_of_true he fun hin => absurd hin hnot
  | setTouchAction action => exact iff_of_true (emitTouchChange_followsTouch he rfl rfl) trivial
  | setClient window => exact iff_of_true (emitTouchChange_followsTouch he rfl rfl) trivial
  | checkBlocking activeClient =>
    refine iff_of_true ?_ trivial
    unfold step checkBlocking
    dsimp only
    split
    · exact he
    · split
      · exact he
      · exact emitTouchChange_followsTouch he rfl rfl

/-- The gesture follows the state of an edge in all states of a run exactly when every call of the run is careful. -/
theorem run_followsTouch_iff (border : ElectricBorder) (geometry : Geometry.Rect) (events : List EdgeEvent) :
    (∀ k ≤ events.length, (run { border, geometry } (events.take k)).FollowsTouch) ↔
      ∀ (k : Nat) event, events[k]? = some event → (run { border, geometry } (events.take k)).Careful event := by
  have hinit : FollowsTouch { border, geometry } := by simp [FollowsTouch, isReserved]
  generalize ({ border, geometry } : Edge) = e at hinit ⊢
  induction events generalizing e with
  | nil => simpa [run] using hinit
  | cons first events ih =>
    have htake (k : Nat) : run e ((first :: events).take (k + 1)) = run (e.step first) (events.take k) := rfl
    constructor
    · intro h k event hk
      have hfirst : (e.step first).FollowsTouch := h 1 (by simp)
      cases k with
      | zero =>
        cases hk
        exact (step_followsTouch_iff hinit first).mp hfirst
      | succ k =>
        rw [htake]
        refine (ih _ hfirst).mp (fun j hj => ?_) k event hk
        rw [← htake]
        exact h (j + 1) (by simpa using hj)
    · intro h k hk
      have hfirst := (step_followsTouch_iff hinit first).mpr (h 0 first rfl)
      cases k with
      | zero => exact hinit
      | succ k =>
        rw [htake]
        refine (ih _ hfirst).mpr (fun j event hj => ?_) k (by simpa using hk)
        rw [← htake]
        exact h (j + 1) event hj

/-- An edge that is reserved for another reason does not register its gesture for a touch callback. -/
theorem touchCallBack_not_registered : ∃ events, (run { border := .left } events).isReserved ∧
    (run { border := .left } events).activatesForTouchGesture ∧ (run { border := .left } events).registered = 0 ∧
    ¬ (run { border := .left } events).FollowsTouch :=
  ⟨[.reserve, .reserveTouchCallBack 0], by decide, by decide, by decide, by unfold FollowsTouch; decide⟩

end Edge

end KWinFT.ScreenEdge
