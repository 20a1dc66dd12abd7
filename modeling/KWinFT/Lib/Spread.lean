import Mathlib.Data.Finset.Card
import Mathlib.Logic.Function.Basic
import Mathlib.Logic.Relation

/-! Labels that are passed on along the edges of a graph. A node that gets the label `x` passes it on to its successors,
and may before have caused others to get another label `y`. -/
namespace KWinFT.Lib
open Relation
variable {α β : Type*} {succ : α → α → Prop} {x y : β} {f g k : α → β} {w : α}

/-- Nodes with the label keep it, and those that have got it have passed it on. -/
structure Spread (succ : α → α → Prop) (x : β) (f g : α → β) : Prop where
  keep : ∀ v, f v = x → g v = x
  closed : ∀ v, g v = x → f v ≠ x → ∀ n, succ v n → g n = x

theorem Spread.refl (succ : α → α → Prop) (x : β) (f : α → β) : Spread succ x f f :=
  ⟨fun _ h => h, fun _ h hne => absurd h hne⟩

theorem Spread.trans (h : Spread succ x f g) (h' : Spread succ x g k) : Spread succ x f k := by
  refine ⟨fun v hv => h'.keep v (h.keep v hv), fun v hv hne n hn => ?_⟩
  by_cases hg : g v = x
  · exact h'.keep n (h.closed v hg hne n hn)
  · exact h'.closed v hv hg n hn

/-- A node that has got the label has it passed on to everything that it reaches, where it was not before. -/
theorem Spread.reach (h : Spread succ x f g) {r : α} (hr : g r = x) (hnew : ∀ v, ReflTransGen succ r v → f v ≠ x)
    {v : α} (hv : ReflTransGen succ r v) : g v = x := by
  induction hv with
  | refl => exact hr
  | tail hpath hstep ih => exact h.closed _ ih (hnew _ hpath) _ hstep

/-- Nodes only get the label, along paths from the roots on which it is afterwards. -/
structure Excursion (succ : α → α → Prop) (y : β) (roots : α → Prop) (f g : α → β) : Prop where
  only : ∀ v, g v = f v ∨ g v = y
  path : ∀ v, g v ≠ f v → ∃ r, roots r ∧ g r = y ∧ ReflTransGen (fun a b => succ a b ∧ g b = y) r v

variable {roots : α → Prop}

theorem Excursion.refl (succ : α → α → Prop) (y : β) (roots : α → Prop) (f : α → β) : Excursion succ y roots f f :=
  ⟨fun _ => .inl rfl, fun _ h => absurd rfl h⟩

theorem Excursion.keep (h : Excursion succ y roots f g) {v : α} (hv : f v = y) : g v = y := by
  rcases h.only v with h | h
  · rw [h, hv]
  · exact h

theorem Excursion.trans (h : Excursion succ y roots f g) (h' : Excursion succ y roots g k) :
    Excursion succ y roots f k := by
  refine ⟨fun v => ?_, fun v hne => ?_⟩
  · rcases h'.only v with h₁ | h₁
    · rw [h₁]
      exact h.only v
    · exact .inr h₁
  · by_cases hg : k v = g v
    · obtain ⟨r, hr, hy, hpath⟩ := h.path v (hg ▸ hne)
      exact ⟨r, hr, h'.keep hy, ReflTransGen.mono (fun a b hab => ⟨hab.1, h'.keep hab.2⟩) _ _ hpath⟩
    · exact h'.path v hg

theorem Excursion.of_root (h : Excursion succ y (· = w) f g) (hw : roots w) : Excursion succ y roots f g := by
  refine ⟨h.only, fun v hne => ?_⟩
  obtain ⟨r, rfl, hpath⟩ := h.path v hne
  exact ⟨r, hw, hpath⟩

variable [DecidableEq α]

/-- A node gets the label itself before its successors do. -/
theorem Excursion.of_update (h : Excursion succ y (succ w) (Function.update f w y) g) :
    Excursion succ y (· = w) f g ∧ g w = y := by
  have hw : g w = y := h.keep (Function.update_self w y f)
  refine ⟨⟨fun v => ?_, fun v hne => ?_⟩, hw⟩
  · by_cases hv : v = w
    · exact .inr (hv ▸ hw)
    · rw [← Function.update_of_ne hv y f]
      exact h.only v
  · by_cases hv : v = w
    · exact ⟨w, rfl, hw, hv ▸ .refl⟩
    · rw [← Function.update_of_ne hv y f] at hne
      obtain ⟨r, hr, hy, hpath⟩ := h.path v hne
      exact ⟨w, rfl, hw, .head ⟨hr, hy⟩ hpath⟩

/-- A node gets the label and passes it on. -/
theorem Spread.of_update (h : Spread succ x (Function.update f w x) g) (hsucc : ∀ n, succ w n → g n = x) :
    Spread succ x f g ∧ g w = x := by
  have hw : g w = x := h.keep w (Function.update_self w x f)
  refine ⟨⟨fun v hv => ?_, fun v hv hne => ?_⟩, hw⟩
  · by_cases hvw : v = w
    · exact hvw ▸ hw
    · exact h.keep v (by rw [Function.update_of_ne hvw, hv])
  · by_cases hvw : v = w
    · exact hvw ▸ hsucc
    · exact h.closed v hv (by rwa [Function.update_of_ne hvw])

/-- What an excursion from the successors of a node takes away comes back when the node passes its label on. -/
theorem Spread.of_excursion (hxy : x ≠ y) (h : Excursion succ y (succ w) (Function.update f w x) g)
    (h' : Spread succ x g k) (hsucc : ∀ n, succ w n → k n = x) : Spread succ x f k ∧ k w = x := by
  have hback (v : α) (hv : Function.update f w x v = x) : k v = x := by
    by_cases hg : g v = x
    · exact h'.keep v hg
    · obtain ⟨r, hr, hy, hpath⟩ := h.path v fun he => hg (he.trans hv)
      -- All nodes of the path have lost the label or never had it, and so have passed it on again.
      suffices hboth : k v = x ∧ g v = y from hboth.1
      clear hg hv
      induction hpath with
      | refl => exact ⟨hsucc r hr, hy⟩
      | tail _ hab ih => exact ⟨h'.closed _ ih.1 (ih.2 ▸ hxy.symm) _ hab.1, hab.2⟩
  have hw : k w = x := hback w (Function.update_self w x f)
  refine ⟨⟨fun v hv => ?_, fun v hv hne => ?_⟩, hw⟩
  · by_cases hvw : v = w
    · exact hvw ▸ hw
    · exact hback v (by rw [Function.update_of_ne hvw, hv])
  · by_cases hvw : v = w
    · exact hvw ▸ hsucc
    · refine h'.closed v hv fun hg => ?_
      rcases h.only v with h₁ | h₁
      · rw [hg, Function.update_of_ne hvw] at h₁
        exact hne h₁.symm
      · exact hxy (hg.symm.trans h₁)

/-- The members that do not have the label. -/
def others [DecidableEq β] (members : List α) (x : β) (f : α → β) : Finset α := members.toFinset.filter (f · ≠ x)

theorem mem_others [DecidableEq β] {members : List α} {v : α} : v ∈ others members x f ↔ v ∈ members ∧ f v ≠ x := by
  rw [others, Finset.mem_filter, List.mem_toFinset]

/-- They get fewer if one gets the label and none loses it. -/
theorem others_lt [DecidableEq β] {members : List α} (hkeep : ∀ v, f v = x → g v = x) (hw : w ∈ members)
    (hf : f w ≠ x) (hg : g w = x) : (others members x g).card < (others members x f).card := by
  refine Finset.card_lt_card ((Finset.ssubset_iff_of_subset fun v hv => ?_).mpr
    ⟨w, mem_others.mpr ⟨hw, hf⟩, fun hw' => (mem_others.mp hw').2 hg⟩)
  obtain ⟨hmem, hv⟩ := mem_others.mp hv
  exact mem_others.mpr ⟨hmem, fun hf => hv (hkeep v hf)⟩

theorem Spread.others_lt [DecidableEq β] {members : List α} (h : Spread succ x (Function.update f w x) g)
    (hw : w ∈ members) (hne : f w ≠ x) : (others members x g).card < (others members x f).card := by
  refine Lib.others_lt (fun v hv => h.keep v ?_) hw hne (h.keep w (Function.update_self w x f))
  by_cases hvw : v = w
  · rw [hvw, Function.update_self]
  · rw [Function.update_of_ne hvw, hv]

end KWinFT.Lib
