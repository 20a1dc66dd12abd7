import Mathlib.Data.Finset.Card
import Mathlib.Logic.Relation

/-! Relations without cycles: which edits keep them so, and how far a walk along one can go. -/
namespace KWinFT.Lib
open Relation
variable {α : Type*} {r r' : α → α → Prop}

def Acyclic (r : α → α → Prop) : Prop := ∀ x, ¬ TransGen r x x

theorem Acyclic.mono (h : Acyclic r) (hr : ∀ a b, r' a b → r a b) : Acyclic r' :=
  fun x hx => h x (TransGen.mono hr _ _ hx)

/-- A relation that maps into one without cycles has none. -/
theorem Acyclic.comap {β : Type*} {q : β → β → Prop} (h : Acyclic r) (f : β → α)
    (hq : ∀ a b, q a b → r (f a) (f b)) : Acyclic q :=
  fun x hx => h (f x) (TransGen.lift f hq _ _ hx)

/-- The relation with one more edge. -/
def addEdge (r : α → α → Prop) (a b : α) : α → α → Prop := fun x y => r x y ∨ x = a ∧ y = b

theorem transGen_addEdge {a b x y : α} (h : TransGen (addEdge r a b) x y) :
    TransGen r x y ∨ ReflTransGen r x a ∧ ReflTransGen r b y := by
  induction h with
  | single h =>
    rcases h with h | ⟨rfl, rfl⟩
    · exact .inl (.single h)
    · exact .inr ⟨.refl, .refl⟩
  | tail _ h ih =>
    rcases h with h | ⟨rfl, rfl⟩
    · rcases ih with ih | ⟨ha, hb⟩
      · exact .inl (ih.tail h)
      · exact .inr ⟨ha, hb.tail h⟩
    · rcases ih with ih | ⟨ha, _⟩
      · exact .inr ⟨ih.to_reflTransGen, .refl⟩
      · exact .inr ⟨ha, .refl⟩

/-- A new edge closes a cycle exactly when its start can be reached from its end. -/
theorem Acyclic.addEdge_iff (h : Acyclic r) {a b : α} :
    Acyclic (addEdge r a b) ↔ ¬ ReflTransGen r b a := by
  constructor
  · intro hac hba
    refine hac b (TransGen.tail' ?_ (.inr ⟨rfl, rfl⟩))
    exact ReflTransGen.mono (fun _ _ => Or.inl) _ _ hba
  · intro hba x hx
    rcases transGen_addEdge hx with hx | ⟨hxa, hbx⟩
    · exact h x hx
    · exact hba (hbx.trans hxa)

/-- If it closes none, all cycles were there before. -/
theorem transGen_of_addEdge {a b x y : α} (hba : ¬ ReflTransGen r b a) (hxy : TransGen (addEdge r a b) x y)
    (hyx : TransGen (addEdge r a b) y x) : TransGen r x y := by
  rcases transGen_addEdge hxy with hxy | ⟨hxa, hby⟩
  · exact hxy
  · rcases transGen_addEdge hyx with hyx | ⟨hya, -⟩
    · exact absurd ((hby.trans hyx.to_reflTransGen).trans hxa) hba
    · exact absurd (hby.trans hya) hba

open Classical in
/-- The number of listed elements before `x`. -/
noncomputable def rank (r : α → α → Prop) (dom : Finset α) (x : α) : Nat :=
  (dom.filter fun y => TransGen r y x).card

theorem Acyclic.rank_lt (h : Acyclic r) {dom : Finset α} {x y : α} (hx : x ∈ dom) (hxy : r x y) :
    rank r dom x < rank r dom y := by
  classical
  refine Finset.card_lt_card (Finset.ssubset_iff_of_subset ?_ |>.mpr ⟨x, ?_, ?_⟩)
  · intro z hz
    rw [Finset.mem_filter] at hz ⊢
    exact ⟨hz.1, hz.2.tail hxy⟩
  · exact Finset.mem_filter.mpr ⟨hx, .single hxy⟩
  · exact fun hmem => h x (Finset.mem_filter.mp hmem).2

theorem Acyclic.rank_lt_card (h : Acyclic r) {dom : Finset α} {x : α} (hx : x ∈ dom) :
    rank r dom x < dom.card := by
  classical
  refine Finset.card_lt_card (Finset.ssubset_iff_of_subset (Finset.filter_subset _ _) |>.mpr ⟨x, hx, ?_⟩)
  exact fun hmem => h x (Finset.mem_filter.mp hmem).2

end KWinFT.Lib
