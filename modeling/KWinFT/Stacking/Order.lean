import KWinFT.Lib.Runs
import KWinFT.Stacking.Constrained

/-! The function as a traversal: with a transient relation without cycles it never fails, and gives
the stack that placing the windows without a restacking lead one after the other gives. -/
namespace KWinFT.Stacking
open Lib
variable {α : Type*} [DecidableEq α] {ws : Workspace α} {w l c : α} {n : Nat}

namespace Workspace

/-- No duplicates, both directions of the transient relation agree and have no cycles, and the
unconstrained order has all leads and children of its windows. -/
structure Consistent (ws : Workspace α) : Prop where
  nodup : ws.unconstrained.Nodup
  nodup_children : ∀ w, (ws.children w).Nodup
  mirror : ∀ l c, l ∈ ws.leads c ↔ c ∈ ws.children l
  leads_mem : ∀ w ∈ ws.unconstrained, ∀ l ∈ ws.leads w, l ∈ ws.unconstrained
  children_mem : ∀ w ∈ ws.unconstrained, ∀ c ∈ ws.children w, c ∈ ws.unconstrained
  acyclic : Acyclic fun l c => c ∈ ws.children l

/-- The same where children may be missing in the unconstrained order: they are in a domain with it. -/
structure Grounded (ws : Workspace α) (dom : Finset α) : Prop where
  nodup : ws.unconstrained.Nodup
  nodup_children : ∀ w, (ws.children w).Nodup
  mirror : ∀ l c, l ∈ ws.leads c ↔ c ∈ ws.children l
  leads_mem : ∀ w ∈ ws.unconstrained, ∀ l ∈ ws.leads w, l ∈ ws.unconstrained
  listed : ∀ w ∈ ws.unconstrained, w ∈ dom
  closed : ∀ w ∈ dom, ∀ c ∈ ws.children w, c ∈ dom
  acyclic : Acyclic fun l c => c ∈ ws.children l

theorem Consistent.grounded (h : ws.Consistent) : ws.Grounded ws.unconstrained.toFinset where
  nodup := h.nodup
  nodup_children := h.nodup_children
  mirror := h.mirror
  leads_mem := h.leads_mem
  listed _ hw := List.mem_toFinset.mpr hw
  closed w hw c hc := List.mem_toFinset.mpr (h.children_mem w (List.mem_toFinset.mp hw) c hc)
  acyclic := h.acyclic

variable {dom : Finset α}

theorem mem_kids : c ∈ ws.kids l ↔ c ∈ ws.children l ∧ ws.childRestack l c := by
  rw [kids, List.mem_filter, ensureStackingOrder, mem_ensureStackingOrderInList]

theorem Grounded.finitary (h : ws.Grounded dom) : Finitary ws.kids dom where
  acyclic := h.acyclic.mono fun _ _ hk => (mem_kids.mp hk).1
  closed w hw c hc := h.closed w hw c (mem_kids.mp hc).1

theorem Consistent.finitary (h : ws.Consistent) : Finitary ws.kids ws.unconstrained.toFinset := h.grounded.finitary

theorem Grounded.pulled_iff (h : ws.Grounded dom) : ws.pulled c ↔ ∃ l, c ∈ ws.kids l := by
  unfold pulled
  rw [List.any_eq_true]
  simp only [mem_kids, h.mirror]

theorem pulled_iff (h : ws.Consistent) : ws.pulled c ↔ ∃ l, c ∈ ws.kids l := h.grounded.pulled_iff

theorem Consistent.card (h : ws.Consistent) : ws.unconstrained.toFinset.card = ws.unconstrained.length :=
  List.toFinset_card_of_nodup h.nodup

theorem Consistent.deep (h : ws.Consistent) (hw : w ∈ ws.unconstrained) :
    Deep ws.kids ws.unconstrained.toFinset ws.unconstrained.length w := by
  rw [← h.card]
  exact deep_card (List.mem_toFinset.mpr hw)

/-- One level of the descent, if the next one has answers. -/
private theorem foldlM_appendChildren {cs : List α} (list stacked : List α)
    (h : ∀ d ∈ cs, ∀ s, ws.appendChildren n d (s ++ [d]) = some (place ws.kids n d s)) :
    cs.foldlM (fun (acc : List α × List α) child =>
      (ws.appendChildren n child (acc.2 ++ [child])).map fun stacked =>
        (acc.1.filter (· ≠ child), stacked)) (list, stacked) =
      some (list.filter (· ∉ cs), cs.foldl (fun s d => place ws.kids n d s) stacked) := by
  induction cs generalizing list stacked with
  | nil => simp
  | cons d cs ih =>
    rw [List.foldlM_cons, h d List.mem_cons_self]
    change List.foldlM _ _ cs = _
    rw [ih _ _ fun e he => h e (List.mem_cons_of_mem d he), List.filter_filter, List.foldl_cons]
    refine congrArg some (Prod.ext (List.filter_congr fun e _ => ?_) rfl)
    simp [Bool.and_comm]

/-- The descent has an answer: the children leave the list and come back on top with all below. -/
theorem appendChildren_eq (h : Finitary ws.kids dom) (hw : Deep ws.kids dom (n + 1) w) (list : List α) :
    ws.appendChildren (n + 1) w list =
      some (list.filter (· ∉ ws.kids w) ++ placeAll ws.kids n (ws.kids w)) := by
  induction n generalizing w list with
  | zero =>
    have hnone : ws.kids w = [] := List.eq_nil_iff_forall_not_mem.mpr fun d hd =>
      h.deep_pos (h.deep_kid hw hd) rfl
    rw [appendChildren, hnone]
    simp [placeAll]
  | succ n ih =>
    rw [appendChildren, foldlM_appendChildren _ _ fun d hd s => ih (h.deep_kid hw hd) (s ++ [d])]
    rfl

omit [DecidableEq α] in
theorem layered_map_fst (minimum : Nat × Option Nat → Option Layer) (list : List α) :
    (ws.layered minimum list).map Prod.fst = list := by
  induction list generalizing minimum with
  | nil => rfl
  | cons w rest ih =>
    unfold layered
    dsimp only
    split <;> simp [ih]

/-- The layer of a window after the same-group promotion to the active layer. -/
def effectiveLayer (ws : Workspace α) (w : α) : Layer := (ws.windowLayers.lookup w).getD (ws.layer w)

/-- The order of layers, and in a layer that of the unconstrained stacking order. -/
def Before (ws : Workspace α) (a b : α) : Prop :=
  (ws.effectiveLayer a).index < (ws.effectiveLayer b).index ∨
    ws.effectiveLayer a = ws.effectiveLayer b ∧ ws.unconstrained.idxOf a < ws.unconstrained.idxOf b

theorem effectiveLayer_eq (h : ws.unconstrained.Nodup) {lay : Layer} (hm : (w, lay) ∈ ws.windowLayers) :
    ws.effectiveLayer w = lay := by
  have hn : (ws.windowLayers.map Prod.fst).Nodup := by
    rw [windowLayers, layered_map_fst]
    exact h
  obtain ⟨pre, post, hsplit⟩ := List.append_of_mem hm
  have hlookup : ws.windowLayers.lookup w = some lay := by
    refine List.lookup_eq_some_iff.mpr ⟨pre, post, hsplit, fun p hp => ?_⟩
    rw [hsplit, List.map_append, List.map_cons] at hn
    have hne := List.disjoint_of_nodup_append hn (List.mem_map_of_mem hp)
    exact bne_iff_ne.mpr fun heq => hne (by simp [heq])
  rw [effectiveLayer, hlookup]
  rfl

theorem preliminaryStack_sorted (h : ws.unconstrained.Nodup) : ws.preliminaryStack.Pairwise ws.Before := by
  have hpos : ws.unconstrained.Pairwise fun a b => ws.unconstrained.idxOf a < ws.unconstrained.idxOf b := by
    rw [List.pairwise_iff_getElem]
    intro i j hi hj hij
    rwa [h.idxOf_getElem, h.idxOf_getElem]
  have hlayer {lay : Layer} {a : α} (ha : a ∈ (ws.windowLayers.filter (·.2 = lay)).map Prod.fst) :
      ws.effectiveLayer a = lay := by
    obtain ⟨p, hp, rfl⟩ := List.mem_map.mp ha
    obtain ⟨hp, hlay⟩ := List.mem_filter.mp hp
    rw [effectiveLayer_eq h (show (p.1, p.2) ∈ ws.windowLayers from hp)]
    exact of_decide_eq_true hlay
  refine List.pairwise_flatMap.mpr ⟨fun lay _ => ?_, ?_⟩
  · have hsub : List.Sublist ((ws.windowLayers.filter (·.2 = lay)).map Prod.fst) ws.unconstrained := by
      have := (List.filter_sublist (p := (·.2 = lay)) (l := ws.windowLayers)).map Prod.fst
      rwa [windowLayers, layered_map_fst] at this
    refine (hpos.sublist hsub).imp_of_mem fun ha hb hab => .inr ⟨?_, hab⟩
    rw [hlayer ha, hlayer hb]
  · have hindex : Layer.all.Pairwise fun a b => a.index < b.index := by decide
    refine hindex.imp fun hab x hx y hy => .inl ?_
    rwa [hlayer hx, hlayer hy]

omit [DecidableEq α] in
theorem mem_preliminaryStack : w ∈ ws.preliminaryStack ↔ w ∈ ws.unconstrained := by
  have hall (lay : Layer) : lay ∈ Layer.all := by cases lay <;> decide
  have hfst : ws.unconstrained = ws.windowLayers.map Prod.fst := (layered_map_fst _ _).symm
  rw [hfst, preliminaryStack]
  simp only [List.mem_flatMap, List.mem_map, List.mem_filter]
  constructor
  · rintro ⟨_, _, p, ⟨hp, _⟩, rfl⟩
    exact ⟨p, hp, rfl⟩
  · rintro ⟨p, hp, rfl⟩
    exact ⟨p.2, hall p.2, p, ⟨hp, decide_eq_true rfl⟩, rfl⟩

theorem Consistent.preliminaryStack_sorted (h : ws.Consistent) : ws.preliminaryStack.Pairwise ws.Before :=
  Workspace.preliminaryStack_sorted h.nodup

theorem nodup_preliminaryStack (h : ws.unconstrained.Nodup) : ws.preliminaryStack.Nodup :=
  (preliminaryStack_sorted h).imp fun hab heq => by
    subst heq
    rcases hab with hlt | ⟨-, hlt⟩ <;> exact absurd hlt (lt_irrefl _)

theorem Grounded.deep (h : ws.Grounded dom) (hn : dom.card ≤ n) (hw : w ∈ ws.unconstrained) : Deep ws.kids dom n w :=
  ⟨h.listed w hw, hn.trans (Nat.le_add_left _ _)⟩

theorem Grounded.appendChildren_deep (h : ws.Grounded dom) (hw : Deep ws.kids dom n w) (stack : List α) :
    ws.appendChildren n w (stack ++ [w]) = some (place ws.kids n w stack) := by
  obtain ⟨m, rfl⟩ := Nat.exists_eq_succ_of_ne_zero (h.finitary.deep_pos hw)
  exact appendChildren_eq h.finitary hw (stack ++ [w])

/-- A window that no lead pulls up is not below any other. -/
theorem Grounded.eq_of_reaches_root (h : ws.Grounded dom) (hw : ws.pulled w = false)
    (hr : Reaches ws.kids c w) : c = w := by
  rcases Relation.ReflTransGen.cases_tail hr with heq | ⟨l, -, hl⟩
  · exact heq.symm
  · exact absurd (h.pulled_iff.mpr ⟨l, hl⟩) (by simp [hw])

theorem Consistent.roots_deep (h : ws.Consistent) (hw : w ∈ ws.roots) :
    Deep ws.kids ws.unconstrained.toFinset ws.unconstrained.length w :=
  h.deep (mem_preliminaryStack.mp (List.mem_filter.mp hw).1)

private theorem Grounded.foldlM_eq (h : ws.Grounded dom) (hn : dom.card ≤ n) {init rest : List α}
    (hsplit : ws.preliminaryStack = init ++ rest) :
    rest.foldlM (fun stack w =>
      if ws.pulled w then some stack
      else if w ∈ stack then none
      else ws.appendChildren n w (stack ++ [w]))
      (placeAll ws.kids n (init.filter fun w => !ws.pulled w)) =
    some (placeAll ws.kids n ws.roots) := by
  induction rest generalizing init with
  | nil =>
    rw [List.append_nil] at hsplit
    rw [roots, hsplit]
    rfl
  | cons w rest ih =>
    have hnext := ih (show ws.preliminaryStack = (init ++ [w]) ++ rest by simp [hsplit])
    have hmem : w ∈ ws.preliminaryStack := by simp [hsplit]
    rw [List.foldlM_cons]
    by_cases hp : ws.pulled w
    · rw [if_pos hp]
      rw [List.filter_append, List.filter_singleton, hp] at hnext
      simpa using hnext
    · have hdeep (d : α) (hd : d ∈ init.filter fun w => !ws.pulled w) :=
        h.deep hn (mem_preliminaryStack.mp (by rw [hsplit]; simp [(List.mem_filter.mp hd).1] : d ∈ ws.preliminaryStack))
      have hnew : w ∉ placeAll ws.kids n (init.filter fun w => !ws.pulled w) := by
        rw [h.finitary.mem_placeAll hdeep]
        rintro ⟨d, hd, hr⟩
        have heq := h.eq_of_reaches_root (Bool.eq_false_iff.mpr hp) hr
        have hnodup := nodup_preliminaryStack h.nodup
        rw [hsplit] at hnodup
        exact List.disjoint_of_nodup_append hnodup (heq ▸ (List.mem_filter.mp hd).1) List.mem_cons_self
      rw [if_neg hp, if_neg hnew, h.appendChildren_deep (h.deep hn (mem_preliminaryStack.mp hmem))]
      rw [List.filter_append, List.filter_singleton, Bool.eq_false_iff.mpr hp] at hnext
      simpa [placeAll] using hnext

/-- The assertion on the stack never fails, and the result is the traversal from the roots. -/
theorem Grounded.constrainedStackingOrder_eq (h : ws.Grounded dom) (hn : dom.card ≤ n) :
    ws.constrainedStackingOrderWithin n = some (placeAll ws.kids n ws.roots) :=
  h.foldlM_eq hn (show ws.preliminaryStack = [] ++ ws.preliminaryStack from rfl)

theorem Consistent.constrainedStackingOrder_eq (h : ws.Consistent) :
    ws.constrainedStackingOrder = some (placeAll ws.kids ws.unconstrained.length ws.roots) :=
  h.grounded.constrainedStackingOrder_eq h.card.le

/-- Every window is below one that stays where its layer puts it. -/
theorem Grounded.exists_root (h : ws.Grounded dom) (hw : w ∈ ws.unconstrained) :
    ∃ r ∈ ws.roots, Reaches ws.kids r w := by
  induction hk : rank (Kid ws.kids) ws.unconstrained.toFinset w using Nat.strong_induction_on generalizing w with
  | _ k ih =>
    subst hk
    by_cases hp : ws.pulled w
    · obtain ⟨l, hl⟩ := h.pulled_iff.mp hp
      have hmem : l ∈ ws.unconstrained := h.leads_mem w hw l ((h.mirror l w).mpr (mem_kids.mp hl).1)
      obtain ⟨r, hr, hrl⟩ := ih _ (h.finitary.acyclic.rank_lt (List.mem_toFinset.mpr hmem) hl) hmem rfl
      exact ⟨r, hr, hrl.tail hl⟩
    · exact ⟨w, List.mem_filter.mpr ⟨mem_preliminaryStack.mpr hw, by simp [hp]⟩, .refl⟩

theorem Consistent.exists_root (h : ws.Consistent) (hw : w ∈ ws.unconstrained) : ∃ r ∈ ws.roots, Reaches ws.kids r w :=
  h.grounded.exists_root hw

end Workspace
end KWinFT.Stacking
