import KWinFT.Lib.Runs
import KWinFT.ScreenEdge.Edges

/-! The count of reservations of an edge against the reasons for them. -/
namespace KWinFT.ScreenEdge
open KWinFT.Geometry Areas

namespace Edge
variable {e : Edge} {switches : Bool}

/-- How many reasons there are to reserve an edge, where `switches` says whether desktop switching is one. -/
def reasons (e : Edge) (switches : Bool) : Nat :=
  (if e.action = .none then 0 else 1) + (if e.touchAction = .none then 0 else 1) + (if switches then 1 else 0) +
    e.callBacks.length + e.touchActions.length + (if e.client.isSome then 1 else 0)

structure Balanced (e : Edge) (switches : Bool) : Prop where
  reserved : e.reserved = e.reasons switches
  callBacks : (e.callBacks.map Prod.fst).Nodup

/-! Apart from the gesture, each operation changes what it says. -/

private theorem reserve_eq (e : Edge) : ∃ n, e.reserve = { e with reserved := e.reserved + 1, registered := n } := by
  unfold reserve activate registerGesture
  dsimp only
  split
  · split <;> exact ⟨_, rfl⟩
  · exact ⟨_, rfl⟩

private theorem unreserve_eq (e : Edge) : ∃ n, e.unreserve = { e with reserved := e.reserved - 1, registered := n } := by
  unfold unreserve deactivate unregisterGesture
  dsimp only
  split <;> exact ⟨_, rfl⟩

private theorem emitTouchChange_eq (e : Edge) (wasTouch : Bool) :
    ∃ n, e.emitTouchChange wasTouch = { e with registered := n } := by
  unfold emitTouchChange updateGesture registerGesture unregisterGesture
  split
  · split
    · split <;> exact ⟨_, rfl⟩
    · exact ⟨e.registered, rfl⟩
  · exact ⟨e.registered, rfl⟩

private theorem setTouchAction_eq (e : Edge) (a : ElectricBorderAction) :
    ∃ n, e.setTouchAction a = { e with touchAction := a, registered := n } := emitTouchChange_eq _ _

private theorem setClient_eq (e : Edge) (c : Option WindowId) :
    ∃ n, e.setClient c = { e with client := c, registered := n } := emitTouchChange_eq _ _

/-- Desktop switching starts or stops to be a reason. -/
private theorem Balanced.reserve (h : e.Balanced false) : e.reserve.Balanced true := by
  obtain ⟨n, hn⟩ := reserve_eq e
  rw [hn]
  exact ⟨by simp only [reasons, h.reserved]; simp; omega, h.callBacks⟩

private theorem Balanced.unreserve (h : e.Balanced true) : e.unreserve.Balanced false := by
  obtain ⟨n, hn⟩ := unreserve_eq e
  rw [hn]
  exact ⟨by simp only [reasons, h.reserved]; simp; omega, h.callBacks⟩

private theorem Balanced.reserveObject (h : e.Balanced switches) {object : ObjectId} (slot : String)
    (hnew : object ∉ e.callBacks.map Prod.fst) : (e.reserveObject object slot).Balanced switches := by
  have hfilter : e.callBacks.filter (·.1 ≠ object) = e.callBacks := by
    refine List.filter_eq_self.mpr fun c hc => decide_eq_true fun he => hnew ?_
    exact he ▸ List.mem_map_of_mem hc
  unfold Edge.reserveObject
  rw [hfilter]
  obtain ⟨n, hn⟩ := reserve_eq { e with callBacks := e.callBacks ++ [(object, slot)] }
  rw [hn]
  refine ⟨?_, ?_⟩
  · simp only [reasons, h.reserved, List.length_append, List.length_singleton]
    omega
  · rw [List.map_append, List.map_singleton]
    exact List.nodup_append.mpr ⟨h.callBacks, List.pairwise_singleton _ _, by
      rintro a ha b hb rfl
      cases List.mem_singleton.mp hb
      exact hnew ha⟩

private theorem Balanced.unreserveObject (h : e.Balanced switches) (object : ObjectId) :
    (e.unreserveObject object).Balanced switches := by
  unfold Edge.unreserveObject
  split
  · next hin =>
    obtain ⟨c, hc, he⟩ := List.any_eq_true.mp hin
    have hmem : object ∈ e.callBacks.map Prod.fst := of_decide_eq_true he ▸ List.mem_map_of_mem hc
    have hlen : (e.callBacks.filter (·.1 ≠ object)).length = e.callBacks.length - 1 := by
      have hkeys : (e.callBacks.filter (·.1 ≠ object)).map Prod.fst = (e.callBacks.map Prod.fst).erase object := by
        rw [h.callBacks.erase_eq_filter, List.filter_map]
        congr 1
        refine List.filter_congr fun c _ => ?_
        simp [bne, beq_eq_decide]
      have hlength := congrArg List.length hkeys
      rwa [List.length_map, List.length_erase_of_mem hmem, List.length_map] at hlength
    have hpos := List.length_pos_of_mem hc
    obtain ⟨n, hn⟩ := unreserve_eq { e with callBacks := e.callBacks.filter (·.1 ≠ object) }
    rw [hn]
    refine ⟨?_, h.callBacks.sublist (List.filter_sublist.map _)⟩
    simp only [reasons, h.reserved]
    omega
  · exact h

private theorem Balanced.reserveTouchCallBack (h : e.Balanced switches) (action : ActionId) :
    (e.reserveTouchCallBack action).Balanced switches := by
  unfold Edge.reserveTouchCallBack
  split
  · exact h
  · obtain ⟨n, hn⟩ := reserve_eq { e with touchActions := e.touchActions ++ [action] }
    rw [hn]
    refine ⟨?_, h.callBacks⟩
    simp only [reasons, h.reserved, List.length_append, List.length_singleton]
    omega

private theorem Balanced.unreserveTouchCallBack (h : e.Balanced switches) (action : ActionId) :
    (e.unreserveTouchCallBack action).Balanced switches := by
  unfold Edge.unreserveTouchCallBack
  split
  · next hin =>
    have hlen := List.length_erase_of_mem hin
    have hpos := List.length_pos_of_mem hin
    obtain ⟨n, hn⟩ := unreserve_eq { e with touchActions := e.touchActions.erase action }
    rw [hn]
    refine ⟨?_, h.callBacks⟩
    simp only [reasons, h.reserved]
    omega
  · exact h

private theorem Balanced.addClient (h : e.Balanced switches) (hnone : e.client = none) (window : WindowId) :
    (e.setClient (some window)).reserve.Balanced switches := by
  obtain ⟨k, hk⟩ := setClient_eq e (some window)
  obtain ⟨n, hn⟩ := reserve_eq (e.setClient (some window))
  rw [hn, hk]
  refine ⟨?_, h.callBacks⟩
  simp only [reasons, h.reserved, hnone]
  simp

private theorem reserveIf_eq (p : Prop) [Decidable p] (e : Edge) : ∃ n, (if p then e.reserve else e) =
    { e with reserved := e.reserved + (if p then 1 else 0), registered := n } := by
  split
  · exact reserve_eq e
  · exact ⟨e.registered, by rw [Int.add_zero]⟩

private theorem unreserveIf_eq (p : Prop) [Decidable p] (e : Edge) : ∃ n, (if p then e.unreserve else e) =
    { e with reserved := e.reserved - (if p then 1 else 0), registered := n } := by
  split
  · exact unreserve_eq e
  · exact ⟨e.registered, by rw [Int.sub_zero]⟩

/-- A new action at an edge that has one exactly when its border has one. -/
def changeAction (kind : ActionKind) (old new : ElectricBorderAction) (e : Edge) : Edge :=
  let e := if old = .none then e.reserve else e
  let e := if new = .none then e.unreserve else e
  e.setActionOf kind new

/-- Apart from the gesture, it changes the count and the action. -/
private theorem changeAction_eq (kind : ActionKind) (old new : ElectricBorderAction) (e : Edge) : ∃ n,
    e.changeAction kind old new = { e with
      action := if kind = .pointer then new else e.action
      touchAction := if kind = .touch then new else e.touchAction
      reserved := e.reserved + (if old = .none then 1 else 0) - (if new = .none then 1 else 0)
      registered := n } := by
  obtain ⟨n₁, hn₁⟩ := reserveIf_eq (old = .none) e
  obtain ⟨n₂, hn₂⟩ := unreserveIf_eq (new = .none) (if old = .none then e.reserve else e)
  unfold changeAction
  dsimp only
  rw [hn₂, hn₁]
  cases kind with
  | pointer => exact ⟨n₂, rfl⟩
  | touch => exact setTouchAction_eq _ new

private theorem Balanced.changeAction (h : e.Balanced switches) {kind : ActionKind} {old new : ElectricBorderAction}
    (hne : old ≠ new) (hknown : e.actionOf kind = .none ↔ old = .none) :
    (e.changeAction kind old new).Balanced switches := by
  obtain ⟨n, hn⟩ := changeAction_eq kind old new e
  rw [hn]
  refine ⟨?_, h.callBacks⟩
  have hone : ¬ (old = .none ∧ new = .none) := fun hboth => hne (hboth.1.trans hboth.2.symm)
  simp only [reasons, h.reserved]
  cases kind with
  | pointer =>
    simp only [show e.action = .none ↔ old = .none from hknown]
    by_cases hold : old = .none <;> by_cases hnew : new = .none <;> simp [hold, hnew] at hone ⊢ <;> omega
  | touch =>
    simp only [show e.touchAction = .none ↔ old = .none from hknown]
    by_cases hold : old = .none <;> by_cases hnew : new = .none <;> simp [hold, hnew] at hone ⊢ <;> omega

private theorem Balanced.addAction (h : e.Balanced switches) (kind : ActionKind) (hnone : e.actionOf kind = .none)
    {a : ElectricBorderAction} (ha : a ≠ .none) : (e.reserve.setActionOf kind a).Balanced switches := by
  have hchange := h.changeAction ha.symm (iff_of_true hnone rfl)
  unfold Edge.changeAction at hchange
  dsimp only at hchange
  rwa [if_pos rfl, if_neg ha] at hchange

end Edge

namespace ScreenEdges
variable {s : ScreenEdges}

/-- Desktop switching is a reason for the edges of a border when there is another desktop in its direction; corners
serve all directions. -/
def switchesBorder (s : ScreenEdges) (border : ElectricBorder) : Bool :=
  (s.virtualDesktopLayout.horizontal || s.virtualDesktopLayout.vertical) && s.switchesAtCreation border

def switches (s : ScreenEdges) (border : ElectricBorder) : Bool := s.desktopSwitching && s.switchesBorder border

/-- Every edge is reserved as often as there are reasons. -/
def Balanced (s : ScreenEdges) : Prop := ∀ edge ∈ s.edges, edge.Balanced (s.switches edge.border)

/-- The objects with callbacks at the edges of a border that are not edges of windows. -/
def callBackObjects (s : ScreenEdges) (border : ElectricBorder) : List ObjectId :=
  (s.edges.filter fun edge => edge.client.isNone ∧ edge.border = border).flatMap fun edge => edge.callBacks.map Prod.fst

/-- Events that count right:
* when edges are made anew, no object has its callback at two old edges of a border, and with desktop switching there
  are several desktops, or no corners;
* a callback is not reserved again;
* when the action of a border changes, the edges of windows there have an action if the border has one. -/
def Careful (s : ScreenEdges) : EdgesEvent → Prop
  | .recreateEdges screens parts =>
    ∀ edge ∈ parts.flatMap { s with screens := screens }.createEdges,
      (s.callBackObjects edge.border).Nodup ∧ (s.desktopSwitching → edge.border.isCorner →
        s.virtualDesktopLayout.horizontal ∨ s.virtualDesktopLayout.vertical)
  | .reconfigure config => ∀ edge ∈ s.edges,
      (s.actions edge.border ≠ config.actions edge.border →
        (edge.action = .none ↔ s.actions edge.border = .none)) ∧
      (s.touchActions edge.border ≠ config.touchActions edge.border →
        (edge.touchAction = .none ↔ s.touchActions edge.border = .none))
  | .reserve border object _ => ∀ edge ∈ s.edges, edge.border = border → object ∉ edge.callBacks.map Prod.fst
  | _ => True

instance (event : EdgesEvent) : Decidable (s.Careful event) :=
  match event with
  | .recreateEdges _ parts => inferInstanceAs (Decidable (∀ edge ∈ parts.flatMap _, _))
  | .reconfigure _ => inferInstanceAs (Decidable (∀ edge ∈ s.edges, _))
  | .reserve border _ _ => inferInstanceAs (Decidable (∀ edge ∈ s.edges, edge.border = border → _))
  | .updateLayout _ | .unreserve _ _ | .reserveTouch _ _ | .unreserveTouch _ _ | .reserveWindow _ _ _ => isTrue trivial

private theorem switchesAtCreation_layout {border : ElectricBorder} (h : s.switchesAtCreation border)
    (hcorner : ¬ border.isCorner) : s.virtualDesktopLayout.horizontal ∨ s.virtualDesktopLayout.vertical := by
  simp only [switchesAtCreation, if_neg hcorner, Bool.or_eq_true, Bool.and_eq_true] at h
  tauto

/-- Edges of a border, changed one by one. -/
private theorem Balanced.mapBorder (h : s.Balanced) (border : ElectricBorder) (f : Edge → Edge)
    (hf : ∀ e ∈ s.edges, e.border = border → e.Balanced (s.switches e.border) →
      (f e).border = e.border ∧ (f e).Balanced (s.switches e.border)) : (s.mapBorder border f).Balanced := by
  intro edge hedge
  obtain ⟨e, he, rfl⟩ := List.mem_map.mp hedge
  split
  · next hb =>
    obtain ⟨hborder, hbal⟩ := hf e he hb (h e he)
    rw [hborder]
    exact hbal
  · exact h e he

/-! Desktop switching. -/

/-- The count of reservations where `f` says for which borders switching is a reason. -/
private def BalancedWith (f : ElectricBorder → Bool) (edges : List Edge) : Prop :=
  ∀ edge ∈ edges, edge.Balanced (f edge.border)

private theorem reserve_border (e : Edge) : e.reserve.border = e.border := by
  obtain ⟨n, hn⟩ := e.reserve_eq
  rw [hn]

private theorem unreserve_border (e : Edge) : e.unreserve.border = e.border := by
  obtain ⟨n, hn⟩ := e.unreserve_eq
  rw [hn]

private theorem reserveDesktopSwitching_true (h : BalancedWith (fun _ => false) s.edges) :
    BalancedWith s.switchesBorder (s.reserveDesktopSwitching true s.virtualDesktopLayout).edges := by
  unfold reserveDesktopSwitching
  split
  · next hnone =>
    intro edge hedge
    simp only [Bool.and_eq_true, Bool.not_eq_true'] at hnone
    simpa [switchesBorder, hnone] using h edge hedge
  · next hsome =>
    intro edge hedge
    obtain ⟨e, he, rfl⟩ := List.mem_map.mp hedge
    have hlayout : (s.virtualDesktopLayout.horizontal || s.virtualDesktopLayout.vertical) = true := by
      cases hh : s.virtualDesktopLayout.horizontal <;> cases hv : s.virtualDesktopLayout.vertical <;> simp_all
    split
    · next hs =>
      rw [if_pos rfl, reserve_border, switchesBorder, hs, hlayout]
      exact (h e he).reserve
    · next hs =>
      rw [switchesBorder, (Bool.not_eq_true _).mp hs, Bool.and_false]
      exact h e he

private theorem reserveDesktopSwitching_false (h : BalancedWith s.switchesBorder s.edges) :
    BalancedWith (fun _ => false) (s.reserveDesktopSwitching false s.virtualDesktopLayout).edges := by
  unfold reserveDesktopSwitching
  split
  · next hnone =>
    intro edge hedge
    simp only [Bool.and_eq_true, Bool.not_eq_true'] at hnone
    simpa [switchesBorder, hnone] using h edge hedge
  · next hsome =>
    intro edge hedge
    obtain ⟨e, he, rfl⟩ := List.mem_map.mp hedge
    have hlayout : (s.virtualDesktopLayout.horizontal || s.virtualDesktopLayout.vertical) = true := by
      cases hh : s.virtualDesktopLayout.horizontal <;> cases hv : s.virtualDesktopLayout.vertical <;> simp_all
    have hbal := h e he
    rw [switchesBorder, hlayout, Bool.true_and] at hbal
    split
    · next hs =>
      rw [hs] at hbal
      exact hbal.unreserve
    · next hs =>
      rw [(Bool.not_eq_true _).mp hs] at hbal
      exact hbal

private theorem reserveDesktopSwitching_settings (s : ScreenEdges) (isToReserve : Bool) (o : Orientations) :
    (s.reserveDesktopSwitching isToReserve o).desktopSwitching = s.desktopSwitching ∧
    (s.reserveDesktopSwitching isToReserve o).virtualDesktopLayout = s.virtualDesktopLayout ∧
    (s.reserveDesktopSwitching isToReserve o).actions = s.actions ∧
    (s.reserveDesktopSwitching isToReserve o).touchActions = s.touchActions := by
  unfold reserveDesktopSwitching
  split <;> exact ⟨rfl, rfl, rfl, rfl⟩

private theorem Balanced.setDesktopSwitching (h : s.Balanced) (enable : Bool) : (s.setDesktopSwitching enable).Balanced := by
  unfold ScreenEdges.setDesktopSwitching
  split
  · exact h
  · next hne =>
    obtain ⟨hds, hlayout, -, -⟩ := reserveDesktopSwitching_settings { s with desktopSwitching := enable } enable
      s.virtualDesktopLayout
    have hswitches (border : ElectricBorder) : ScreenEdges.switches
        (reserveDesktopSwitching { s with desktopSwitching := enable } enable s.virtualDesktopLayout) border =
          (enable && s.switchesBorder border) := by
      rw [switches, hds, switchesBorder, switchesAtCreation, hlayout]
      rfl
    intro edge hedge
    rw [hswitches]
    cases enable with
    | true =>
      have hoff : s.desktopSwitching = false := by simpa using hne
      have hbefore : BalancedWith (fun _ => false) s.edges := fun e he => by
        simpa [switches, hoff] using h e he
      exact reserveDesktopSwitching_true (s := { s with desktopSwitching := true }) hbefore edge hedge
    | false =>
      have hon : s.desktopSwitching = true := by simpa using hne
      have hbefore : BalancedWith s.switchesBorder s.edges := fun e he => by
        simpa [switches, hon] using h e he
      exact reserveDesktopSwitching_false (s := { s with desktopSwitching := false }) hbefore edge hedge

private theorem Balanced.updateLayout (h : s.Balanced) (desktopMatrix : Size) : (s.updateLayout desktopMatrix).Balanced := by
  unfold ScreenEdges.updateLayout
  dsimp only
  split
  · exact h
  · cases hds : s.desktopSwitching with
    | false =>
      rw [if_neg (by simp [hds]), if_neg (by simp)]
      intro edge hedge
      simpa [switches, hds] using h edge hedge
    | true =>
      obtain ⟨hds₁, -⟩ := reserveDesktopSwitching_settings (s := s) false s.virtualDesktopLayout
      rw [hds] at hds₁
      rw [if_pos rfl, if_pos hds₁]
      have hbefore : BalancedWith s.switchesBorder s.edges := fun e he => by
        simpa [switches, hds] using h e he
      have hoff := reserveDesktopSwitching_false hbefore
      generalize s.reserveDesktopSwitching false s.virtualDesktopLayout = t at hoff hds₁
      intro edge hedge
      have hbal := reserveDesktopSwitching_true
        (s := { t with virtualDesktopLayout := ⟨desktopMatrix.width > 1, desktopMatrix.height > 1⟩ }) hoff edge hedge
      obtain ⟨hds₂, hlayout, -, -⟩ := reserveDesktopSwitching_settings
        (s := { t with virtualDesktopLayout := ⟨desktopMatrix.width > 1, desktopMatrix.height > 1⟩ }) true
        ⟨desktopMatrix.width > 1, desktopMatrix.height > 1⟩
      rw [switches, hds₂, switchesBorder, switchesAtCreation, hlayout, hds₁, Bool.true_and]
      exact hbal

/-! Changes of actions. -/

/-- A change of an action goes through all edges of the border. -/
private theorem setActionOfBorder_edges {kind : ActionKind} {border : ElectricBorder} {new : ElectricBorderAction}
    (hne : s.actionsOf kind border ≠ new) : (s.setActionOfBorder kind border new).edges =
      (s.mapBorder border (Edge.changeAction kind (s.actionsOf kind border) new)).edges := by
  have hstore (t : ScreenEdges) (f) : (t.storeActions kind f).edges = t.edges := by cases kind <;> rfl
  unfold setActionOfBorder mapBorder Edge.changeAction
  dsimp only
  rw [if_neg hne]
  by_cases hold : s.actionsOf kind border = .none <;> by_cases hnew : new = .none <;>
    simp only [hold, hnew, hstore, if_true, if_false, List.map_map] <;>
    refine List.map_congr_left fun e _ => ?_ <;>
    by_cases hb : e.border = border <;> simp [hb, reserve_border, unreserve_border]

private theorem actionsOf_storeActions (t : ScreenEdges) (kind other : ActionKind)
    (f : ElectricBorder → ElectricBorderAction) :
    (t.storeActions kind f).actionsOf other = if other = kind then f else t.actionsOf other := by
  cases kind <;> cases other <;> rfl

private theorem setActionOfBorder_settings (s : ScreenEdges) (kind : ActionKind) (border : ElectricBorder)
    (new : ElectricBorderAction) :
    (s.setActionOfBorder kind border new).desktopSwitching = s.desktopSwitching ∧
    (s.setActionOfBorder kind border new).virtualDesktopLayout = s.virtualDesktopLayout ∧
    ∀ other b, (s.setActionOfBorder kind border new).actionsOf other b =
      if other = kind ∧ b = border then new else s.actionsOf other b := by
  unfold setActionOfBorder
  dsimp only
  by_cases hne : s.actionsOf kind border = new
  · rw [if_pos hne]
    refine ⟨rfl, rfl, fun other b => ?_⟩
    split
    · next hb => rw [hb.1, hb.2, hne]
    · rfl
  · rw [if_neg hne]
    -- edges are all that the maps change
    have hmap (t : ScreenEdges) (f : Edge → Edge) (other : ActionKind) (b : ElectricBorder) :
        (t.mapBorder border f).actionsOf other b = t.actionsOf other b := by cases other <;> rfl
    have hstore (t : ScreenEdges) (f) : (t.storeActions kind f).desktopSwitching = t.desktopSwitching ∧
        (t.storeActions kind f).virtualDesktopLayout = t.virtualDesktopLayout := by cases kind <;> exact ⟨rfl, rfl⟩
    refine ⟨(hstore _ _).1.trans ?_, (hstore _ _).2.trans ?_, fun other b => ?_⟩
    · split <;> split <;> rfl
    · split <;> split <;> rfl
    · have hsame (b : ElectricBorder) (other : ActionKind) : ScreenEdges.actionsOf (if new = .none then
          (if s.actionsOf kind border = .none then s.mapBorder border Edge.reserve else s).mapBorder border Edge.unreserve
        else if s.actionsOf kind border = .none then s.mapBorder border Edge.reserve else s) other b =
          s.actionsOf other b := by
        split <;> split <;> simp only [hmap]
      rw [hmap, actionsOf_storeActions]
      by_cases hk : other = kind
      · subst hk
        simp only [hsame, true_and, if_true]
      · simp only [hsame, hk, false_and, if_false]

private theorem changeAction_border (kind : ActionKind) (old new : ElectricBorderAction) (e : Edge) :
    (e.changeAction kind old new).border = e.border := by
  obtain ⟨n, hn⟩ := e.changeAction_eq kind old new
  rw [hn]

private theorem changeAction_other {kind other : ActionKind} (h : other ≠ kind) (old new : ElectricBorderAction) (e : Edge) :
    (e.changeAction kind old new).actionOf other = e.actionOf other := by
  obtain ⟨n, hn⟩ := e.changeAction_eq kind old new
  rw [hn]
  cases other with
  | pointer => exact if_neg h.symm
  | touch => exact if_neg h.symm

/-- At the edges of the given borders an action is set exactly when it is for the border, where it will change. -/
private def ActionsKnown (s : ScreenEdges) (kind : ActionKind) (borders : List ElectricBorder)
    (new : ElectricBorder → ElectricBorderAction) : Prop :=
  ∀ e ∈ s.edges, e.border ∈ borders → s.actionsOf kind e.border ≠ new e.border →
    (e.actionOf kind = .none ↔ s.actionsOf kind e.border = .none)

private theorem Balanced.setActionOfBorder (h : s.Balanced) (kind : ActionKind) (border : ElectricBorder)
    (new : ElectricBorderAction) (hknown : ∀ e ∈ s.edges, e.border = border → s.actionsOf kind border ≠ new →
      (e.actionOf kind = .none ↔ s.actionsOf kind border = .none)) : (s.setActionOfBorder kind border new).Balanced := by
  obtain ⟨hds, hlayout, -⟩ := setActionOfBorder_settings s kind border new
  by_cases hne : s.actionsOf kind border = new
  · rw [ScreenEdges.setActionOfBorder, if_pos hne]
    exact h
  · intro edge hedge
    rw [setActionOfBorder_edges hne] at hedge
    have hmap := h.mapBorder border (Edge.changeAction kind (s.actionsOf kind border) new) (fun e he hb hbal =>
      ⟨changeAction_border _ _ _ e, hbal.changeAction hne (hknown e he hb hne)⟩) edge hedge
    rw [switches, hds, switchesBorder, switchesAtCreation, hlayout]
    exact hmap

/-- Edges of other borders are not touched, nor are actions of the other kind. -/
private theorem mem_setActionOfBorder {kind : ActionKind} {border : ElectricBorder} {new : ElectricBorderAction} {edge : Edge}
    (h : edge ∈ (s.setActionOfBorder kind border new).edges) : ∃ e ∈ s.edges, edge.border = e.border ∧
      (∀ other, other ≠ kind → edge.actionOf other = e.actionOf other) ∧ (edge.border ≠ border → edge = e) := by
  by_cases hne : s.actionsOf kind border = new
  · rw [setActionOfBorder, if_pos hne] at h
    exact ⟨edge, h, rfl, fun _ _ => rfl, fun _ => rfl⟩
  · rw [setActionOfBorder_edges hne] at h
    obtain ⟨e, he, rfl⟩ := List.mem_map.mp h
    have hb := changeAction_border kind (s.actionsOf kind border) new e
    refine ⟨e, he, ?_⟩
    split
    · next hborder =>
      exact ⟨hb, fun other hother => changeAction_other hother _ new e, fun hn => absurd (hb.trans hborder) hn⟩
    · exact ⟨rfl, fun _ _ => rfl, fun _ => rfl⟩

/-- The loop over borders, for one kind of action; what is known of the other kind stays so. -/
private theorem foldl_setActionOfBorder (kind : ActionKind) {borders : List ElectricBorder} (hnd : borders.Nodup)
    (new : ElectricBorder → ElectricBorderAction) (h : s.Balanced) (hknown : s.ActionsKnown kind borders new) :
    (borders.foldl (fun s border => s.setActionOfBorder kind border (new border)) s).Balanced ∧
    ∀ other, other ≠ kind → ∀ otherBorders otherNew, s.ActionsKnown other otherBorders otherNew →
      (borders.foldl (fun s border => s.setActionOfBorder kind border (new border)) s).ActionsKnown other otherBorders
        otherNew := by
  induction borders generalizing s with
  | nil => exact ⟨h, fun _ _ _ _ ho => ho⟩
  | cons border borders ih =>
    obtain ⟨hnot, hnd⟩ := List.nodup_cons.mp hnd
    obtain ⟨-, -, hactions⟩ := setActionOfBorder_settings s kind border (new border)
    have hbal := h.setActionOfBorder kind border (new border) fun e he hb hne => by
      subst hb
      exact hknown e he List.mem_cons_self hne
    obtain ⟨hend, hothers⟩ := ih hnd hbal fun edge hedge hb hne => by
      obtain ⟨e, he, -, -, heq⟩ := mem_setActionOfBorder hedge
      have hother : edge.border ≠ border := fun hb' => hnot (hb' ▸ hb)
      obtain rfl := heq hother
      rw [hactions, if_neg fun hboth => hother hboth.2] at hne ⊢
      exact hknown edge he (List.mem_cons_of_mem _ hb) hne
    refine ⟨hend, fun other hkind otherBorders otherNew ho => hothers other hkind _ _ fun edge hedge hb hne => ?_⟩
    obtain ⟨e, he, hborder, hsame, -⟩ := mem_setActionOfBorder hedge
    rw [hactions, if_neg fun hboth => hkind hboth.1, hborder] at hne ⊢
    rw [hsame other hkind]
    exact ho e he (hborder ▸ hb) hne

/-- Desktop switching leaves the actions of edges and borders alone. -/
private theorem mem_setDesktopSwitching {enable : Bool} {edge : Edge} (h : edge ∈ (s.setDesktopSwitching enable).edges) :
    ∃ e ∈ s.edges, edge.border = e.border ∧ edge.action = e.action ∧ edge.touchAction = e.touchAction := by
  unfold setDesktopSwitching at h
  split at h
  · exact ⟨edge, h, rfl, rfl, rfl⟩
  · unfold reserveDesktopSwitching at h
    split at h
    · exact ⟨edge, h, rfl, rfl, rfl⟩
    · obtain ⟨e, he, rfl⟩ := List.mem_map.mp h
      obtain ⟨n, hn⟩ := e.reserve_eq
      obtain ⟨k, hk⟩ := e.unreserve_eq
      refine ⟨e, he, ?_⟩
      split
      · split
        · rw [hn]
          exact ⟨rfl, rfl, rfl⟩
        · rw [hk]
          exact ⟨rfl, rfl, rfl⟩
      · exact ⟨rfl, rfl, rfl⟩

private theorem setDesktopSwitching_settings (s : ScreenEdges) (enable : Bool) :
    (s.setDesktopSwitching enable).actions = s.actions ∧ (s.setDesktopSwitching enable).touchActions = s.touchActions := by
  unfold setDesktopSwitching
  split
  · exact ⟨rfl, rfl⟩
  · obtain ⟨-, -, ha, ht⟩ := reserveDesktopSwitching_settings { s with desktopSwitching := enable } enable
      s.virtualDesktopLayout
    exact ⟨ha, ht⟩

private theorem Balanced.reconfigure (h : s.Balanced) {config : EdgeConfig} (hc : s.Careful (.reconfigure config)) :
    (s.reconfigure config).Balanced := by
  have hswitch (t : ScreenEdges) (ht : t = s ∨ ∃ enable, t = s.setDesktopSwitching enable) : t.Balanced ∧
      t.ActionsKnown .pointer [.topLeft, .top, .topRight, .right, .bottomRight, .bottom, .bottomLeft, .left]
        config.actions ∧
      t.ActionsKnown .touch [.top, .right, .bottom, .left] config.touchActions := by
    rcases ht with rfl | ⟨enable, rfl⟩
    · exact ⟨h, fun e he _ => (hc e he).1, fun e he _ => (hc e he).2⟩
    · obtain ⟨hactions, htouch⟩ := setDesktopSwitching_settings s enable
      refine ⟨h.setDesktopSwitching enable, fun edge hedge _ hne => ?_, fun edge hedge _ hne => ?_⟩
      · obtain ⟨e, he, hb, ha, -⟩ := mem_setDesktopSwitching hedge
        simp only [actionsOf, Edge.actionOf, hactions, hb, ha] at hne ⊢
        exact (hc e he).1 hne
      · obtain ⟨e, he, hb, -, ht⟩ := mem_setDesktopSwitching hedge
        simp only [actionsOf, Edge.actionOf, htouch, hb, ht] at hne ⊢
        exact (hc e he).2 hne
  have hfold (t : ScreenEdges) (ht : t = s ∨ ∃ enable, t = s.setDesktopSwitching enable) := by
    obtain ⟨hbal, hact, htouch⟩ := hswitch t ht
    obtain ⟨hbal', hothers⟩ := foldl_setActionOfBorder .pointer (by decide) config.actions hbal hact
    exact (foldl_setActionOfBorder .touch (by decide) config.touchActions hbal'
      (hothers .touch (by decide) _ _ htouch)).1
  unfold ScreenEdges.reconfigure
  dsimp only
  split
  · exact hfold _ (.inr ⟨false, rfl⟩)
  · exact hfold _ (.inr ⟨false, rfl⟩)
  · exact hfold _ (.inr ⟨true, rfl⟩)
  · exact hfold _ (.inl rfl)

/-! New edges. -/

/-- An edge with the actions of its border. -/
private theorem addActions_balanced (border : ElectricBorder) (geometry : Rect) (a t : ElectricBorderAction) :
    ∀ e : Edge, e = (let e : Edge := { border, geometry }
      let e := if a ≠ .none then e.reserve.setAction a else e
      if t ≠ .none then e.reserve.setTouchAction t else e) →
    e.Balanced false ∧ e.border = border ∧ e.callBacks = [] ∧ e.client = none := by
  rintro _ rfl
  have hnew : Edge.Balanced { border, geometry } false := ⟨rfl, List.nodup_nil⟩
  dsimp only
  have hfirst : ∀ e : Edge, e = (if a ≠ .none then (Edge.reserve { border, geometry }).setAction a
      else { border, geometry }) →
      e.Balanced false ∧ e.border = border ∧ e.callBacks = [] ∧ e.client = none ∧ e.touchAction = .none := by
    rintro _ rfl
    split
    · next ha =>
      obtain ⟨n, hn⟩ := Edge.reserve_eq { border, geometry }
      refine ⟨hnew.addAction .pointer rfl ha, ?_⟩
      rw [hn]
      exact ⟨rfl, rfl, rfl, rfl⟩
    · exact ⟨hnew, rfl, rfl, rfl, rfl⟩
  obtain ⟨hbal, hborder, hcalls, hclient, htouch⟩ := hfirst _ rfl
  generalize (if a ≠ .none then (Edge.reserve { border, geometry }).setAction a else { border, geometry }) = e at *
  split
  · next ht =>
    obtain ⟨n, hn⟩ := e.reserve_eq
    obtain ⟨k, hk⟩ := e.reserve.setTouchAction_eq t
    refine ⟨hbal.addAction .touch htouch ht, ?_⟩
    rw [hk, hn]
    exact ⟨hborder, hcalls, hclient⟩
  · exact ⟨hbal, hborder, hcalls, hclient⟩

private theorem createEdge_spec (s : ScreenEdges) (border : ElectricBorder) (geometry : Rect) (createAction : Bool) :
    (s.createEdge border geometry createAction).Balanced (s.desktopSwitching && s.switchesAtCreation border) ∧
    (s.createEdge border geometry createAction).border = border ∧
    (s.createEdge border geometry createAction).callBacks = [] ∧
    (s.createEdge border geometry createAction).client = none := by
  have hplain : ∀ e : Edge, e = (if createAction then
      let e : Edge := { border, geometry }
      let e := if s.actions border ≠ .none then e.reserve.setAction (s.actions border) else e
      if s.touchActions border ≠ .none then e.reserve.setTouchAction (s.touchActions border) else e
    else { border, geometry }) → e.Balanced false ∧ e.border = border ∧ e.callBacks = [] ∧ e.client = none := by
    rintro _ rfl
    split
    · exact addActions_balanced border geometry _ _ _ rfl
    · exact ⟨⟨rfl, List.nodup_nil⟩, rfl, rfl, rfl⟩
  obtain ⟨hbal, hborder, hcalls, hclient⟩ := hplain _ rfl
  unfold createEdge
  dsimp only at hbal hborder hcalls hclient ⊢
  generalize (if createAction = true then _ else _) = e at *
  split
  · next hs =>
    rw [hs]
    obtain ⟨n, hn⟩ := e.reserve_eq
    refine ⟨hbal.reserve, ?_⟩
    rw [hn]
    exact ⟨hborder, hcalls, hclient⟩
  · next hs =>
    rw [(Bool.not_eq_true _).mp hs]
    exact ⟨hbal, hborder, hcalls, hclient⟩

/-- A new edge is reserved for switching as long as there is something to switch to. -/
private theorem switches_eq (s : ScreenEdges) {border : ElectricBorder} (hcorner : s.desktopSwitching → border.isCorner →
      s.virtualDesktopLayout.horizontal ∨ s.virtualDesktopLayout.vertical) :
    (s.desktopSwitching && s.switchesAtCreation border) = s.switches border := by
  unfold switches switchesBorder
  cases hds : s.desktopSwitching with
  | false => rfl
  | true =>
    cases hsw : s.switchesAtCreation border with
    | false => simp
    | true =>
      have hlayout : s.virtualDesktopLayout.horizontal ∨ s.virtualDesktopLayout.vertical := by
        by_cases hc : border.isCorner
        · exact hcorner hds hc
        · exact switchesAtCreation_layout hsw hc
      simp [hlayout]

private theorem foldl_reserveObject {cs : List (ObjectId × String)} {e : Edge} {switches : Bool} (h : e.Balanced switches)
    (hnd : (e.callBacks.map Prod.fst ++ cs.map Prod.fst).Nodup) :
    (cs.foldl (fun e c => e.reserveObject c.1 c.2) e).Balanced switches ∧
    (cs.foldl (fun e c => e.reserveObject c.1 c.2) e).callBacks.map Prod.fst =
      e.callBacks.map Prod.fst ++ cs.map Prod.fst ∧
    (cs.foldl (fun e c => e.reserveObject c.1 c.2) e).border = e.border := by
  induction cs generalizing e with
  | nil => exact ⟨h, by simp, rfl⟩
  | cons c cs ih =>
    have hnew : c.1 ∉ e.callBacks.map Prod.fst := fun hm =>
      (List.nodup_append.mp hnd).2.2 _ hm _ List.mem_cons_self rfl
    have hfilter : e.callBacks.filter (·.1 ≠ c.1) = e.callBacks := by
      refine List.filter_eq_self.mpr fun d hd => decide_eq_true fun he => hnew ?_
      exact he ▸ List.mem_map_of_mem hd
    obtain ⟨n, hn⟩ := Edge.reserve_eq { e with callBacks := e.callBacks ++ [c] }
    have heq : e.reserveObject c.1 c.2 =
        { e with callBacks := e.callBacks ++ [c], reserved := e.reserved + 1, registered := n } := by
      rw [Edge.reserveObject, hfilter]
      exact hn
    have hkeys : (e.reserveObject c.1 c.2).callBacks.map Prod.fst = e.callBacks.map Prod.fst ++ [c.1] := by
      rw [heq]
      simp
    obtain ⟨hbal, hcalls, hborder⟩ := ih (h.reserveObject c.2 hnew) (by
      rw [hkeys, List.append_assoc]
      exact hnd)
    refine ⟨hbal, ?_, ?_⟩
    · rw [List.foldl_cons, hcalls, hkeys, List.append_assoc]
      rfl
    · rw [List.foldl_cons, hborder, heq]

private theorem foldl_reserveTouchCallBack (actions : List ActionId) {e : Edge} {switches : Bool}
    (h : e.Balanced switches) : (actions.foldl Edge.reserveTouchCallBack e).Balanced switches ∧
      (actions.foldl Edge.reserveTouchCallBack e).callBacks = e.callBacks ∧
      (actions.foldl Edge.reserveTouchCallBack e).border = e.border := by
  refine Lib.foldl_preserves (P := fun e' : Edge => e'.Balanced switches ∧ e'.callBacks = e.callBacks ∧ e'.border = e.border)
    actions (fun e' a _ ⟨hb, hc, hborder⟩ => ⟨hb.reserveTouchCallBack a, ?_⟩) ⟨h, rfl, rfl⟩
  unfold Edge.reserveTouchCallBack
  split
  · exact ⟨hc, hborder⟩
  · obtain ⟨n, hn⟩ := Edge.reserve_eq { e' with touchActions := e'.touchActions ++ [a] }
    rw [hn]
    exact ⟨hc, hborder⟩

/-- Each old edge of the border adds its own objects. -/
private theorem foldl_copyReservations (olds : List Edge) {e : Edge} {switches : Bool} (h : e.Balanced switches)
    (hnd : (e.callBacks.map Prod.fst ++ (olds.filter fun old => old.client.isNone ∧ old.border = e.border).flatMap
      fun old => old.callBacks.map Prod.fst).Nodup) :
    (olds.foldl copyReservations e).Balanced switches ∧ (olds.foldl copyReservations e).border = e.border := by
  induction olds generalizing e with
  | nil => exact ⟨h, rfl⟩
  | cons old olds ih =>
    rw [List.foldl_cons]
    by_cases hold : old.client.isNone ∧ old.border = e.border
    · have hcopy : copyReservations e old = old.touchActions.foldl Edge.reserveTouchCallBack
          (old.callBacks.foldl (fun e c => e.reserveObject c.1 c.2) e) := by
        rw [copyReservations, if_neg (by simpa using hold.1), if_neg (by simpa using hold.2)]
      rw [List.filter_cons_of_pos (by simpa using hold), List.flatMap_cons, ← List.append_assoc] at hnd
      obtain ⟨hbal, hcalls, hborder⟩ := foldl_reserveObject h (List.nodup_append.mp hnd).1
      obtain ⟨hbal', hcalls', hborder'⟩ := foldl_reserveTouchCallBack old.touchActions hbal
      rw [hborder] at hborder'
      rw [hcopy]
      obtain ⟨hfinal, hfb⟩ := ih hbal' (by rw [hcalls', hcalls, hborder']; exact hnd)
      exact ⟨hfinal, hfb.trans hborder'⟩
    · have hcopy : copyReservations e old = e := by
        unfold copyReservations
        split
        · rfl
        · next hc =>
          rw [if_pos]
          exact fun hb => hold ⟨by simpa using hc, hb⟩
      rw [hcopy]
      rw [List.filter_cons_of_neg (by simpa using hold)] at hnd
      exact ih h hnd

/-- All new edges are made by `createEdge` with the actions of their borders. -/
private theorem mem_createEdges {part : Rect} {edge : Edge} (h : edge ∈ s.createEdges part) :
    ∃ border geometry, edge = s.createEdge border geometry true := by
  have hone (c : Prop) [Decidable c] (b : ElectricBorder) (g : Rect)
      (hl : edge ∈ if c then [s.createEdge b g true] else []) : ∃ border geometry, edge = s.createEdge border geometry true := by
    split at hl
    · exact ⟨b, g, List.mem_singleton.mp hl⟩
    · cases hl
  have hother (c : Prop) [Decidable c] (b : ElectricBorder) (g : Rect)
      (hl : edge ∈ if c then [] else [s.createEdge b g true]) : ∃ border geometry, edge = s.createEdge border geometry true := by
    split at hl
    · cases hl
    · exact ⟨b, g, List.mem_singleton.mp hl⟩
  have hvertical (border : ElectricBorder) (h : edge ∈ s.createVerticalEdge border part s.screens.displayGeometry) :
      ∃ border geometry, edge = s.createEdge border geometry true := by
    rcases List.mem_append.mp h with h | h
    · rcases List.mem_append.mp h with h | h
      · exact hone _ _ _ h
      · exact hone _ _ _ h
    · exact hother _ _ _ h
  have hif (c : Prop) [Decidable c] (l : List Edge) (hl : edge ∈ if c then l else []) : edge ∈ l := by
    split at hl
    · exact hl
    · cases hl
  rcases List.mem_append.mp h with h | h
  · rcases List.mem_append.mp h with h | h
    · rcases List.mem_append.mp h with h | h
      · exact hvertical _ (hif _ _ h)
      · exact hvertical _ (hif _ _ h)
    · exact hother _ _ _ (hif _ _ h)
  · exact hother _ _ _ (hif _ _ h)

private theorem Balanced.recreateEdges (screens : Screens) (parts : List Rect)
    (hc : s.Careful (.recreateEdges screens parts)) : (s.recreateEdges screens parts).Balanced := by
  intro edge hedge
  obtain ⟨e, he, rfl⟩ := List.mem_map.mp hedge
  obtain ⟨hnd, hcorner⟩ := hc e he
  obtain ⟨part, -, hpart⟩ := List.mem_flatMap.mp he
  obtain ⟨border, geometry, rfl⟩ := mem_createEdges hpart
  obtain ⟨hbal, hborder, hcalls, -⟩ := createEdge_spec { s with screens := screens } border geometry true
  rw [hborder] at hnd hcorner
  have hswitch := switches_eq { s with screens := screens } hcorner
  rw [hswitch] at hbal
  obtain ⟨hfinal, hfb⟩ := foldl_copyReservations s.edges hbal (by
    rw [hcalls, hborder]
    exact hnd)
  rw [hfb, hborder]
  exact hfinal

/-- Only the four sides have edges of windows. -/
private theorem clientEdgeGeometry_corner {geo : Rect} {border : ElectricBorder} (hcorner : border.isCorner) :
    s.clientEdgeGeometry geo border = none := by
  refine List.findSome?_eq_none_iff.mpr fun screen _ => ?_
  split
  · rfl
  · cases border <;> first | rfl | exact absurd hcorner (by decide)

private theorem Balanced.reserveWindow (h : s.Balanced) (window : WindowId) (geo : Rect) (border : ElectricBorder) :
    (s.reserveWindow window geo border).Balanced := by
  have hfilter : ScreenEdges.Balanced { s with edges := s.edges.filter (·.client ≠ some window) } := fun edge hedge =>
    h edge (List.mem_filter.mp hedge).1
  unfold ScreenEdges.reserveWindow
  dsimp only
  generalize { s with edges := s.edges.filter (·.client ≠ some window) } = s at hfilter ⊢
  split
  · unfold createEdgeForClient
    split
    · next geometry hgeo =>
      split
      · intro edge hedge
        rcases List.mem_append.mp hedge with hold | hnew
        · exact hfilter edge hold
        · obtain rfl := List.mem_singleton.mp hnew
          obtain ⟨hbal, hborder, -, hclient⟩ := createEdge_spec s border geometry false
          have hcorner : ¬ border.isCorner := fun hc => by
            rw [clientEdgeGeometry_corner hc] at hgeo
            cases hgeo
          rw [switches_eq s fun _ hc => absurd hc hcorner] at hbal
          have hsame : (((s.createEdge border geometry false).setClient (some window)).reserve).border = border := by
            obtain ⟨k, hk⟩ := (s.createEdge border geometry false).setClient_eq (some window)
            rw [reserve_border, hk]
            exact hborder
          rw [hsame]
          exact hbal.addClient hclient window
      · exact hfilter
    · exact hfilter
  · exact hfilter

/-- Callbacks do not move an edge to another border. -/
private theorem reserveObject_border (e : Edge) (object : ObjectId) (slot : String) :
    (e.reserveObject object slot).border = e.border := reserve_border _

private theorem unreserveObject_border (e : Edge) (object : ObjectId) : (e.unreserveObject object).border = e.border := by
  unfold Edge.unreserveObject
  split
  · exact unreserve_border _
  · rfl

private theorem reserveTouchCallBack_border (e : Edge) (action : ActionId) :
    (e.reserveTouchCallBack action).border = e.border := by
  unfold Edge.reserveTouchCallBack
  split
  · rfl
  · exact reserve_border _

private theorem unreserveTouchCallBack_border (e : Edge) (action : ActionId) :
    (e.unreserveTouchCallBack action).border = e.border := by
  unfold Edge.unreserveTouchCallBack
  split
  · exact unreserve_border _
  · rfl

private theorem Balanced.step (h : s.Balanced) {event : EdgesEvent} (hc : s.Careful event) : (s.step event).Balanced := by
  cases event with
  | recreateEdges screens parts => exact Balanced.recreateEdges screens parts hc
  | updateLayout desktopMatrix => exact h.updateLayout desktopMatrix
  | reconfigure config =>
    rw [ScreenEdges.step]
    exact h.reconfigure hc
  | reserve border object slot =>
    exact h.mapBorder border _ fun e he hb hbal =>
      ⟨reserveObject_border e object slot, hbal.reserveObject slot (hc e he hb)⟩
  | unreserve border object =>
    exact h.mapBorder border _ fun e _ _ hbal => ⟨unreserveObject_border e object, hbal.unreserveObject object⟩
  | reserveTouch border action =>
    exact h.mapBorder border _ fun e _ _ hbal => ⟨reserveTouchCallBack_border e action, hbal.reserveTouchCallBack action⟩
  | unreserveTouch border action =>
    exact h.mapBorder border _ fun e _ _ hbal =>
      ⟨unreserveTouchCallBack_border e action, hbal.unreserveTouchCallBack action⟩
  | reserveWindow window geo border => exact h.reserveWindow window geo border

/-- The count of every edge is the number of its reasons, which is not negative, and only edges with reasons are
reserved. -/
def ReservedByReasons (s : ScreenEdges) : Prop :=
  ∀ edge ∈ s.edges, edge.reserved = edge.reasons (s.switches edge.border) ∧ 0 ≤ edge.reserved ∧
    (edge.reasons (s.switches edge.border) = 0 → ¬ edge.isReserved)

instance : Decidable s.ReservedByReasons := inferInstanceAs (Decidable (∀ edge ∈ s.edges, _))

/-- Runs take every event. -/
def events (s : ScreenEdges) (event : EdgesEvent) : Option ScreenEdges := some (s.step event)

/-- From a state without edges on, careful events keep the counts right. -/
theorem careful_reservedByReasons {s₀ s : ScreenEdges} (hstart : s₀.edges = []) (h : Lib.Reachable events Careful s₀ s) :
    s.ReservedByReasons := by
  have hbal : s.Balanced := h.invariant Balanced (fun edge hedge => by rw [hstart] at hedge; cases hedge)
    fun s event s' hs hc hstep => by
      cases hstep
      exact hs.step hc
  intro edge hedge
  have hcount := (hbal edge hedge).reserved
  refine ⟨hcount, hcount ▸ Int.natCast_nonneg _, fun hzero => ?_⟩
  simp [Edge.isReserved, hcount, hzero]

/-! Two screens side by side. -/

private def twoScreens : List Rect := [⟨0, 0, 99, 99⟩, ⟨100, 0, 199, 99⟩]

private def connected : ScreenEdges :=
  ScreenEdges.step { screens := ⟨[]⟩, cornerOffset := 10 } (.recreateEdges ⟨twoScreens⟩ twoScreens)

private def withCallBack : ScreenEdges := connected.step (.reserve .top 1 "borderActivated")

private def ofOneScreen : ScreenEdges := withCallBack.step (.recreateEdges ⟨[⟨0, 0, 99, 99⟩]⟩ [⟨0, 0, 99, 99⟩])

theorem callBack_reservedByReasons : withCallBack.ReservedByReasons ∧
    (withCallBack.edges.filter (·.border = .top)).map Edge.reserved = [1, 1] := by
  have hrun : Lib.Reachable events Careful { screens := ⟨[]⟩, cornerOffset := 10 } withCallBack :=
    .step (.reserve .top 1 "borderActivated")
      (.step (.recreateEdges ⟨twoScreens⟩ twoScreens) .init (by decide) rfl) (by decide) rfl
  exact ⟨careful_reservedByReasons rfl hrun, by decide⟩

/-- The callback is taken over from the edges of both screens, so that the edge of the remaining one is reserved twice, and
stays reserved when the callback is gone. -/
theorem callBack_counted_twice :
    Lib.Reachable events Lib.anyStep { screens := ⟨[]⟩, cornerOffset := 10 } ofOneScreen ∧
    ¬ ofOneScreen.ReservedByReasons ∧
    (ofOneScreen.edges.filter (·.border = .top)).map (fun edge => (edge.reserved, edge.reasons false)) = [(2, 1)] ∧
    (((ofOneScreen.step (.unreserve .top 1)).edges.filter (·.border = .top)).map fun edge =>
      (edge.isReserved, edge.reasons false)) = [(true, 0)] := by
  refine ⟨Lib.Reachable.init.execute [.recreateEdges ⟨twoScreens⟩ twoScreens, .reserve .top 1 "borderActivated",
    .recreateEdges ⟨[⟨0, 0, 99, 99⟩]⟩ [⟨0, 0, 99, 99⟩]] rfl, by decide, by decide, by decide⟩

end ScreenEdges

end KWinFT.ScreenEdge
