import KWinFT.Stacking.Order
import Mathlib.Data.List.Dedup

/-! The restacking of subsurfaces: the children of a window are put in the order that its surface has for them, and the
windows are stacked anew, which sorts children as they were stacked before. -/
namespace KWinFT.Stacking
open Lib
variable {α : Type*} [DecidableEq α] {σ : Type*} [DecidableEq σ]

/-- `subsurface_stacker`: the children that are left, and those for the subsurfaces in turn. -/
def subsurfaceStacker (surface : α → Option σ) : List σ → List α → List α × List α
  | [], children => (children, [])
  | s :: subsurfaces, children =>
    match children.find? (fun child => surface child = some s) with
    | none => subsurfaceStacker surface subsurfaces children
    | some child =>
      let rest := subsurfaceStacker surface subsurfaces (children.erase child)
      (rest.1, child :: rest.2)

namespace Workspace
variable (ws : Workspace α)

/-- The children of the window that are subsurfaces, in the order asked for. -/
def subsurfaceChildren (surface : α → Option σ) (window : α) (childSubsurfaces : List σ) : List α :=
  (subsurfaceStacker surface childSubsurfaces (ws.children window)).2

/-- Before the windows are stacked anew. -/
def restackSubsurfaces (surface : α → Option σ) (window : α) (childSubsurfaces : List σ) : Workspace α :=
  let stacked := subsurfaceStacker surface childSubsurfaces (ws.children window)
  { ws with children := Function.update ws.children window (stacked.1 ++ stacked.2) }

/-- A child that is part of a window: in its layer, not a remnant, kept above it as it is annexed, with no other lead. -/
structure Annexed (window child : α) : Prop where
  layer : ws.layer child = ws.layer window
  remnant : ws.remnant child = false
  above : ws.keepTransientAbove window child = true
  leads : ∀ lead ∈ ws.leads child, lead = window

/-- No window that is above on the way to this one has two leads. -/
def SingleLeads (window : α) : Prop :=
  ∀ x, Relation.ReflTransGen (fun l c => c ∈ ws.children l) x window → ∀ l ∈ ws.leads x, ∀ l' ∈ ws.leads x, l = l'

/-- Children that were not stacked before come first, the others are as they were stacked. -/
def StackedAs (asked : List α) : Prop :=
  asked.filter (· ∉ ws.stackingOrder) ++ ws.stackingOrder.dedup.filter (· ∈ asked) = asked

variable {ws}

theorem subsurfaceStacker_perm (surface : α → Option σ) (subsurfaces : List σ) (children : List α) :
    ((subsurfaceStacker surface subsurfaces children).1 ++ (subsurfaceStacker surface subsurfaces children).2).Perm
      children := by
  induction subsurfaces generalizing children with
  | nil => simp [subsurfaceStacker]
  | cons s subsurfaces ih =>
    unfold subsurfaceStacker
    split
    · exact ih children
    · next child hchild =>
      refine List.perm_middle.trans (((ih (children.erase child)).cons child).trans ?_)
      exact (List.perm_cons_erase (List.mem_of_find?_eq_some hchild)).symm

/-- The children asked for are those of the subsurfaces in turn, as far as there are any. -/
theorem subsurfaceStacker_order (surface : α → Option σ) (subsurfaces : List σ) (children : List α) :
    ((subsurfaceStacker surface subsurfaces children).2.map surface).Sublist (subsurfaces.map some) := by
  induction subsurfaces generalizing children with
  | nil => exact List.nil_sublist _
  | cons s subsurfaces ih =>
    unfold subsurfaceStacker
    split
    · exact (ih children).cons (some s)
    · next child hchild =>
      have hsurface : surface child = some s := by simpa using List.find?_some hchild
      rw [List.map_cons, List.map_cons, hsurface]
      exact (ih (children.erase child)).cons_cons (some s)

section restacked
variable {dom : Finset α} {n : Nat} {surface : α → Option σ} {window : α} {subsurfaces : List σ}

private theorem children_perm (ws : Workspace α) (surface : α → Option σ) (window : α) (subsurfaces : List σ) (w : α) :
    ((ws.restackSubsurfaces surface window subsurfaces).children w).Perm (ws.children w) := by
  unfold restackSubsurfaces
  dsimp only
  rw [Function.update_apply]
  split
  · next hw =>
    subst hw
    exact subsurfaceStacker_perm surface subsurfaces (ws.children w)
  · exact .refl _

theorem Grounded.restackSubsurfaces (h : ws.Grounded dom) (surface : α → Option σ) (window : α) (subsurfaces : List σ) :
    (ws.restackSubsurfaces surface window subsurfaces).Grounded dom where
  nodup := h.nodup
  nodup_children w := (children_perm ws surface window subsurfaces w).nodup_iff.mpr (h.nodup_children w)
  mirror l c := (h.mirror l c).trans (children_perm ws surface window subsurfaces l).mem_iff.symm
  leads_mem := h.leads_mem
  listed := h.listed
  closed w hw c hc := h.closed w hw c ((children_perm ws surface window subsurfaces w).mem_iff.mp hc)
  acyclic := h.acyclic.mono fun l _ hc => (children_perm ws surface window subsurfaces l).mem_iff.mp hc

omit [DecidableEq α] in
/-- Of two windows above another one is above the other, where none of them has two leads. -/
private theorem reaches_total {kids : α → List α} {a w : α} (ha : Reaches kids a w) :
    (∀ x, Reaches kids x w → ∀ l l', x ∈ kids l → x ∈ kids l' → l = l') → ∀ b, Reaches kids b w →
      Reaches kids a b ∨ Reaches kids b a := by
  induction ha with
  | refl => exact fun _ b hb => .inr hb
  | @tail l w hal hlw ih =>
    intro hsingle b hb
    rcases Relation.ReflTransGen.cases_tail hb with rfl | ⟨l', hbl', hlw'⟩
    · exact .inl (hal.tail hlw)
    · obtain rfl : l = l' := hsingle w .refl l l' hlw hlw'
      exact ih (fun x hx => hsingle x (hx.tail hlw)) b hbl'

private theorem single_kids (h : ws.Grounded dom) (hsingle : ws.SingleLeads window) (surface : α → Option σ)
    (subsurfaces : List σ) (x : α) (hx : Reaches (ws.restackSubsurfaces surface window subsurfaces).kids x window) (l l' : α)
    (hl : x ∈ (ws.restackSubsurfaces surface window subsurfaces).kids l)
    (hl' : x ∈ (ws.restackSubsurfaces surface window subsurfaces).kids l') : l = l' := by
  have hchild : ∀ l c, c ∈ (ws.restackSubsurfaces surface window subsurfaces).kids l → c ∈ ws.children l := fun l c hc =>
    (children_perm ws surface window subsurfaces l).mem_iff.mp (mem_kids.mp hc).1
  have hreach : Relation.ReflTransGen (fun l c => c ∈ ws.children l) x window :=
    Relation.ReflTransGen.mono (fun l c hc => hchild l c hc) _ _ hx
  exact hsingle x hreach l ((h.mirror l x).mpr (hchild l x hl)) l' ((h.mirror l' x).mpr (hchild l' x hl'))

/-- At most one of the windows side by side leads to the window. -/
private theorem kids_one (h : ws.Grounded dom)
    (hsingle : ∀ x, Reaches ws.kids x window → ∀ l l', x ∈ ws.kids l → x ∈ ws.kids l' → l = l') (c : α) :
    (ws.kids c).Pairwise fun a b => ¬ (Reaches ws.kids a window ∧ Reaches ws.kids b window) := by
  have hnodup : (ws.kids c).Nodup :=
    ((ensureStackingOrderInList_perm (h.nodup_children c)).nodup_iff.mpr (h.nodup_children c)).filter _
  have hbelow : ∀ a b, a ∈ ws.kids c → b ∈ ws.kids c → a ≠ b → Reaches ws.kids b window → ¬ Reaches ws.kids a b :=
    fun a b ha hb hne hbw hab => by
      rcases Relation.ReflTransGen.cases_tail hab with heq | ⟨l, hal, hlb⟩
      · exact hne heq.symm
      · obtain rfl := hsingle b hbw l c hlb hb
        exact h.finitary.not_reaches_of_kid ha hal
  refine hnodup.imp_of_mem fun {a b} ha hb hne ⟨haw, hbw⟩ => ?_
  rcases reaches_total haw hsingle b hbw with hab | hba
  · exact hbelow a b ha hb hne hbw hab
  · exact hbelow b a hb ha hne.symm haw hba

omit [DecidableEq α] in
private theorem pulled_of_root {r : α} (hr : r ∈ ws.roots) : ws.pulled r = false := by
  simpa using (List.mem_filter.mp hr).2

/-- At most one of the windows that stay where their layer puts them leads to the window. -/
private theorem roots_one (h : ws.Grounded dom)
    (hsingle : ∀ x, Reaches ws.kids x window → ∀ l l', x ∈ ws.kids l → x ∈ ws.kids l' → l = l') :
    ws.roots.Pairwise fun a b => ¬ (Reaches ws.kids a window ∧ Reaches ws.kids b window) := by
  refine ((nodup_preliminaryStack h.nodup).filter _).imp_of_mem fun {a b} ha hb hne ⟨haw, hbw⟩ => ?_
  rcases reaches_total haw hsingle b hbw with hab | hba
  · exact hne (h.eq_of_reaches_root (pulled_of_root hb) hab)
  · exact hne (h.eq_of_reaches_root (pulled_of_root ha) hba).symm

/-- The children asked for, as they are sorted. -/
private theorem kids_filter (h : ws.Grounded dom) (surface : α → Option σ) (subsurfaces : List σ)
    (hannexed : ∀ c ∈ ws.subsurfaceChildren surface window subsurfaces, ws.Annexed window c) :
    ((ws.restackSubsurfaces surface window subsurfaces).kids window).filter
        (· ∈ ws.subsurfaceChildren surface window subsurfaces) =
      (ws.subsurfaceChildren surface window subsurfaces).filter (· ∉ ws.stackingOrder) ++
        ws.stackingOrder.dedup.filter (· ∈ ws.subsurfaceChildren surface window subsurfaces) := by
  have hchildren : (ws.restackSubsurfaces surface window subsurfaces).children window =
      (subsurfaceStacker surface subsurfaces (ws.children window)).1 ++
        ws.subsurfaceChildren surface window subsurfaces := Function.update_self ..
  have hnodup := (h.restackSubsurfaces surface window subsurfaces).nodup_children window
  rw [hchildren, List.nodup_append] at hnodup
  have hrestack : ∀ c ∈ ws.subsurfaceChildren surface window subsurfaces,
      (ws.restackSubsurfaces surface window subsurfaces).childRestack window c = true := by
    intro c hc
    obtain ⟨hlayer, hremnant, habove, -⟩ := hannexed c hc
    unfold childRestack Workspace.restackSubsurfaces
    dsimp only
    rw [hlayer, hremnant, habove]
    simp
  rw [kids, List.filter_filter, ensureStackingOrder, hchildren]
  refine Eq.trans (List.filter_congr fun c _ => ?_) (ensureStackingOrderInList_filter hnodup.2.2)
  by_cases hc : c ∈ ws.subsurfaceChildren surface window subsurfaces
  · simp [hc, hrestack c hc]
  · simp [hc]

/-- They are all restacked. -/
private theorem kid_of_asked (h : ws.Grounded dom) (surface : α → Option σ) (subsurfaces : List σ)
    (hannexed : ∀ c ∈ ws.subsurfaceChildren surface window subsurfaces, ws.Annexed window c) {c : α}
    (hc : c ∈ ws.subsurfaceChildren surface window subsurfaces) :
    c ∈ (ws.restackSubsurfaces surface window subsurfaces).kids window := by
  refine List.mem_of_mem_filter (p := (· ∈ ws.subsurfaceChildren surface window subsurfaces)) ?_
  rw [kids_filter h surface subsurfaces hannexed]
  by_cases ho : c ∈ ws.stackingOrder
  · exact List.mem_append_right _ (List.mem_filter.mpr ⟨List.mem_dedup.mpr ho, decide_eq_true hc⟩)
  · exact List.mem_append_left _ (List.mem_filter.mpr ⟨hc, decide_eq_true ho⟩)

/-- The subsurfaces come to be stacked in the order asked for if and only if they were stacked so before, but for those that
were not stacked, which come first. -/
theorem restackSubsurfaces_keeps_iff (h : ws.Grounded dom) (hn : dom.card ≤ n) (hwindow : window ∈ ws.unconstrained)
    (hsingle : ws.SingleLeads window)
    (hannexed : ∀ c ∈ ws.subsurfaceChildren surface window subsurfaces, ws.Annexed window c) :
    ∃ stack, (ws.restackSubsurfaces surface window subsurfaces).constrainedStackingOrderWithin n = some stack ∧
      (stack.filter (· ∈ ws.subsurfaceChildren surface window subsurfaces) =
          ws.subsurfaceChildren surface window subsurfaces ↔
        ws.StackedAs (ws.subsurfaceChildren surface window subsurfaces)) := by
  have h' := h.restackSubsurfaces surface window subsurfaces
  have hsingle' := single_kids h hsingle surface subsurfaces
  have honly : ∀ l, ∀ c ∈ (ws.restackSubsurfaces surface window subsurfaces).kids l,
      decide (c ∈ ws.subsurfaceChildren surface window subsurfaces) = true → l = window := fun l c hc hin =>
    (hannexed c (of_decide_eq_true hin)).leads l ((h'.mirror l c).mpr (mem_kids.mp hc).1)
  have hlisted : ∀ r ∈ (ws.restackSubsurfaces surface window subsurfaces).roots,
      decide (r ∈ ws.subsurfaceChildren surface window subsurfaces) = false := fun r hr => by
    refine decide_eq_false fun hin => ?_
    have hkid := kid_of_asked h surface subsurfaces hannexed hin
    exact Bool.false_ne_true ((pulled_of_root hr).symm.trans (h'.pulled_iff.mpr ⟨window, hkid⟩))
  have hdeep : ∀ r ∈ (ws.restackSubsurfaces surface window subsurfaces).roots,
      Deep (ws.restackSubsurfaces surface window subsurfaces).kids dom n r := fun r hr =>
    h'.deep hn (mem_preliminaryStack.mp (List.mem_filter.mp hr).1)
  refine ⟨_, h'.constrainedStackingOrder_eq hn, ?_⟩
  rw [h'.finitary.filter_placeAll_kids honly (kids_one h' hsingle') hdeep hlisted (roots_one h' hsingle')
    (h'.exists_root hwindow), kids_filter h surface subsurfaces hannexed]
  exact Iff.rfl

/-- A window with two subsurfaces that were stacked as they are numbered. -/
def twoSubsurfaces : Workspace Nat where
  layer _ := .normal
  screen _ := 0
  x11 _ := false
  group _ := none
  remnant _ := false
  leads c := if c = 1 ∨ c = 2 then [0] else []
  children l := if l = 0 then [1, 2] else []
  keepTransientAbove _ _ := true
  keepDeletedTransientAbove _ _ := true
  unconstrained := [0, 1, 2]
  stackingOrder := [0, 1, 2]

private theorem twoSubsurfaces_edge {l c : Nat} : c ∈ twoSubsurfaces.children l ↔ l = 0 ∧ (c = 1 ∨ c = 2) := by
  unfold twoSubsurfaces
  dsimp only
  split <;> simp [*]

private theorem twoSubsurfaces_lead {l c : Nat} : l ∈ twoSubsurfaces.leads c ↔ l = 0 ∧ (c = 1 ∨ c = 2) := by
  unfold twoSubsurfaces
  dsimp only
  split <;> simp [*]

private theorem twoSubsurfaces_grounded : twoSubsurfaces.Grounded {0, 1, 2} where
  nodup := by decide
  nodup_children w := by
    unfold twoSubsurfaces
    dsimp only
    split <;> decide
  mirror l c := twoSubsurfaces_lead.trans twoSubsurfaces_edge.symm
  leads_mem w _ l hl := by
    rw [(twoSubsurfaces_lead.mp hl).1]
    decide
  listed w hw := by simpa [twoSubsurfaces] using hw
  closed w _ c hc := by
    obtain ⟨-, rfl | rfl⟩ := twoSubsurfaces_edge.mp hc <;> decide
  acyclic := by
    refine Acyclic.comap (r := fun a b : Nat => a < b) (fun x hx => ?_) id fun l c hc => ?_
    · rw [Relation.transGen_eq_self] at hx
      exact absurd hx (lt_irrefl x)
    · obtain ⟨rfl, rfl | rfl⟩ := twoSubsurfaces_edge.mp hc <;> decide

theorem twoSubsurfaces_restacked : ∃ stack,
    (twoSubsurfaces.restackSubsurfaces some 0 [1, 2]).constrainedStackingOrderWithin 3 = some stack ∧
      (stack.filter (· ∈ twoSubsurfaces.subsurfaceChildren some 0 [1, 2]) =
          twoSubsurfaces.subsurfaceChildren some 0 [1, 2] ↔
        twoSubsurfaces.StackedAs (twoSubsurfaces.subsurfaceChildren some 0 [1, 2])) := by
  refine restackSubsurfaces_keeps_iff twoSubsurfaces_grounded (by decide) (by decide) (fun x _ l hl l' hl' => ?_)
    fun c hc => ⟨rfl, rfl, rfl, fun l hl => (twoSubsurfaces_lead.mp hl).1⟩
  rw [(twoSubsurfaces_lead.mp hl).1, (twoSubsurfaces_lead.mp hl').1]

/-- The other order is asked for, and the windows stay as they are. -/
theorem twoSubsurfaces_unmoved : ¬ ∃ stack,
    (twoSubsurfaces.restackSubsurfaces some 0 [2, 1]).constrainedStackingOrderWithin 3 = some stack ∧
      stack.filter (· ∈ twoSubsurfaces.subsurfaceChildren some 0 [2, 1]) =
        twoSubsurfaces.subsurfaceChildren some 0 [2, 1] := by
  rintro ⟨stack, hstack, horder⟩
  have hresult : (twoSubsurfaces.restackSubsurfaces some 0 [2, 1]).constrainedStackingOrderWithin 3 = some [0, 1, 2] := by
    decide
  obtain rfl := Option.some.inj (hresult.symm.trans hstack)
  exact absurd horder (by decide)

end restacked

end Workspace
end KWinFT.Stacking
