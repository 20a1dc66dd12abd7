import KWinFT.Stacking.Order

/-! What the constrained stacking order guarantees. No window is ever lost and layers are kept;
whether a window occurs only once and above all its leads depends on the branches it is below. -/
namespace KWinFT.Stacking
open Lib

namespace Workspace
variable {α : Type*} [DecidableEq α] {ws : Workspace α}

/-- The function has a result, with every window and no other. -/
theorem mem_constrainedStackingOrder (h : ws.Consistent) : ∃ stack, ws.constrainedStackingOrder = some stack ∧
    ∀ w, w ∈ stack ↔ w ∈ ws.unconstrained := by
  refine ⟨_, h.constrainedStackingOrder_eq, fun w => ?_⟩
  rw [h.finitary.mem_placeAll fun r hr => h.roots_deep hr]
  refine ⟨?_, h.exists_root⟩
  rintro ⟨r, hr, hrw⟩
  exact List.mem_toFinset.mp (h.finitary.reaches_mem (h.roots_deep hr).mem hrw)

/-- The result has every window exactly once if and only if every window is below the roots in the
way of `Once`: where several windows side by side lead to it, the last of them is a lead itself. -/
theorem constrainedStackingOrder_perm_iff (h : ws.Consistent) :
    (∃ stack, ws.constrainedStackingOrder = some stack ∧ stack.Perm ws.unconstrained) ↔
      ∀ w ∈ ws.unconstrained, Once ws.kids w ws.roots := by
  have hcount (w : α) : (placeAll ws.kids ws.unconstrained.length ws.roots).count w = 1 ↔ Once ws.kids w ws.roots :=
    h.finitary.count_placeAll fun r hr => h.roots_deep hr
  obtain ⟨stack, hstack, hmem⟩ := mem_constrainedStackingOrder h
  rw [h.constrainedStackingOrder_eq] at hstack ⊢
  obtain rfl := Option.some.inj hstack
  constructor
  · rintro ⟨stack, hstack, hperm⟩ w hw
    obtain rfl := Option.some.inj hstack
    rw [← hcount, hperm.count_eq]
    exact List.count_eq_one_of_mem h.nodup hw
  · intro honce
    refine ⟨_, rfl, List.perm_iff_count.mpr fun w => ?_⟩
    by_cases hw : w ∈ ws.unconstrained
    · rw [(hcount w).mpr (honce w hw), List.count_eq_one_of_mem h.nodup hw]
    · rw [List.count_eq_zero.mpr hw, List.count_eq_zero, hmem]
      exact hw

/-- A child that is restacked stands above its lead, wherever the two are. -/
def KeepsAbove (ws : Workspace α) (stack : List α) : Prop :=
  ∀ l ∈ ws.unconstrained, ∀ c ∈ ws.children l, ws.childRestack l c → AboveIn stack l c

/-- Windows that no lead pulls up are sorted by layer and then as they were before. -/
def KeepsLayers (ws : Workspace α) (stack : List α) : Prop :=
  (stack.filter fun w => !ws.pulled w).Pairwise ws.Before

theorem Consistent.keepsLayers (h : ws.Consistent) :
    ws.KeepsLayers (placeAll ws.kids ws.unconstrained.length ws.roots) := by
  have hkid (l : α) (c : α) (hc : c ∈ ws.kids l) : (!ws.pulled c) = false := by
    rw [(pulled_iff h).mpr ⟨l, hc⟩]
    rfl
  unfold KeepsLayers
  rw [h.finitary.filter_placeAll hkid fun r hr => h.roots_deep hr, roots, List.filter_filter]
  exact h.preliminaryStack_sorted.filter _

/-- Layers are always kept. All restacked children are above their leads if and only if each is
lifted above it: nothing placed after the last of the lead's copies leaves one of the child below. -/
theorem constrainedStackingOrder_keeps_iff (h : ws.Consistent) :
    (∃ stack, ws.constrainedStackingOrder = some stack ∧ ws.KeepsAbove stack ∧ ws.KeepsLayers stack) ↔
      ∀ l ∈ ws.unconstrained, ∀ c ∈ ws.kids l, Lifted ws.kids l c ws.roots := by
  have habove {l c : α} (hc : c ∈ ws.kids l) := h.finitary.aboveIn_placeAll hc fun r hr => h.roots_deep hr
  rw [h.constrainedStackingOrder_eq]
  constructor
  · rintro ⟨stack, hstack, hkeeps, -⟩ l hl c hc
    obtain rfl := Option.some.inj hstack
    obtain ⟨hchild, hrestack⟩ := mem_kids.mp hc
    exact (habove hc).mp (hkeeps l hl c hchild hrestack)
  · refine fun hlifted => ⟨_, rfl, fun l hl c hchild hrestack => ?_, h.keepsLayers⟩
    have hc := mem_kids.mpr ⟨hchild, hrestack⟩
    exact (habove hc).mpr (hlifted l hl c hc)

section examples

/-- Plain X11 windows of one group, listed by pairs of a lead and a child. -/
def ofEdges (edges : List (Nat × Nat)) (n : Nat) : Workspace Nat where
  layer _ := .normal
  screen _ := 0
  x11 _ := true
  group _ := some 0
  remnant _ := false
  leads c := (edges.filter (·.2 = c)).map Prod.fst
  children l := (edges.filter (·.1 = l)).map Prod.snd
  keepTransientAbove _ _ := Kind.plain.keepTransientAbove Kind.plain
  keepDeletedTransientAbove _ _ := Kind.plain.keepDeletedTransientAbove Kind.plain
  unconstrained := List.range n
  stackingOrder := List.range n

private theorem ofEdges_consistent {edges : List (Nat × Nat)} {n : Nat} (hn : edges.Nodup)
    (hlt : ∀ e ∈ edges, e.1 < e.2 ∧ e.2 < n) : (ofEdges edges n).Consistent := by
  have hchild (l c : Nat) : c ∈ (ofEdges edges n).children l ↔ (l, c) ∈ edges := by
    simp [ofEdges]
  have hlead (l c : Nat) : l ∈ (ofEdges edges n).leads c ↔ (l, c) ∈ edges := by
    simp [ofEdges]
  refine ⟨List.nodup_range, fun w => ?_, fun l c => (hlead l c).trans (hchild l c).symm,
    fun w _ l hl => ?_, fun w _ c hc => ?_, ?_⟩
  · refine (hn.filter _).map_on fun a ha b hb hab => ?_
    obtain ⟨-, ha⟩ := List.mem_filter.mp ha
    obtain ⟨-, hb⟩ := List.mem_filter.mp hb
    exact Prod.ext ((of_decide_eq_true ha).trans (of_decide_eq_true hb).symm) hab
  · have := hlt _ ((hlead l w).mp hl)
    exact List.mem_range.mpr (this.1.trans this.2)
  · exact List.mem_range.mpr (hlt _ ((hchild w c).mp hc)).2
  · refine Acyclic.comap (r := fun a b : Nat => a < b) (fun x hx => ?_) id fun l c hc =>
      (hlt _ ((hchild l c).mp hc)).1
    rw [Relation.transGen_eq_self] at hx
    exact absurd hx (lt_irrefl x)

/-- A dialog that has two dialogs of one window as leads. -/
def diamond : Workspace Nat := ofEdges [(0, 1), (0, 2), (1, 3), (2, 3)] 4

/-- Two group transients of one window, where the second is a child of the first as well. -/
def groupTransients : Workspace Nat := ofEdges [(0, 1), (0, 2), (1, 2)] 3

/-- Two dialogs of one window lead to the last one, the first as its lead and the second through
another dialog. -/
def unevenBranches : Workspace Nat := ofEdges [(0, 1), (0, 2), (1, 4), (2, 3), (3, 4)] 5

private theorem diamond_consistent : diamond.Consistent := ofEdges_consistent (by decide) (by decide)

/-- The last of the two leads takes the dialog away from the first. -/
theorem diamond_once : diamond.Consistent ∧ ∀ w ∈ diamond.unconstrained, Once diamond.kids w diamond.roots :=
  ⟨diamond_consistent,
    (constrainedStackingOrder_perm_iff diamond_consistent).mp ⟨[0, 1, 2, 3], by decide, by decide⟩⟩

theorem diamond_lifted : diamond.Consistent ∧ ∀ l ∈ diamond.unconstrained, ∀ c ∈ diamond.kids l,
    Lifted diamond.kids l c diamond.roots := by
  refine ⟨diamond_consistent, (constrainedStackingOrder_keeps_iff diamond_consistent).mp
    ⟨List.range 4, by decide, fun l _ c hc _ i j hi hj => ?_, by unfold KeepsLayers Before; decide⟩⟩
  obtain ⟨_, rfl⟩ := List.getElem?_eq_some_iff.mp hi
  obtain ⟨_, rfl⟩ := List.getElem?_eq_some_iff.mp hj
  simp only [diamond, ofEdges, List.getElem_range] at hc
  simp at hc
  omega

theorem groupTransients_duplicate : groupTransients.Consistent ∧
    groupTransients.constrainedStackingOrder = some [0, 1, 2, 2] ∧
    ¬ List.Perm [0, 1, 2, 2] groupTransients.unconstrained :=
  ⟨ofEdges_consistent (by decide) (by decide), by decide, by decide⟩

/-- The last dialog is placed with its first lead, and again above the second one's dialog. -/
theorem unevenBranches_below : unevenBranches.Consistent ∧
    unevenBranches.constrainedStackingOrder = some [0, 1, 4, 2, 3, 4] ∧
    unevenBranches.childRestack 3 4 ∧ ¬ AboveIn [0, 1, 4, 2, 3, 4] 3 4 :=
  ⟨ofEdges_consistent (by decide) (by decide), by decide, by decide, fun h => absurd (h 4 2 rfl rfl) (by decide)⟩

end examples

end Workspace
end KWinFT.Stacking
