import Mathlib.Data.List.Basic

/-! Layers painted over each other at one point: each layer is a function of the colour below it,
and a layer that ignores that colour hides all layers under it. -/
namespace KWinFT.Lib
variable {C : Type*} {f : C → C} {c d : C}

/-- The colour after painting the layers in order, the first one at the bottom. -/
def compose (layers : List (C → C)) (c : C) : C := layers.foldl (fun c f => f c) c

/-- The layer does not let the colour below shine through. -/
def Overwrites (f : C → C) : Prop := ∀ c d, f c = f d

@[simp] theorem compose_nil : compose [] c = c := rfl

@[simp] theorem compose_cons (layers : List (C → C)) : compose (f :: layers) c = compose layers (f c) := rfl

theorem compose_append (below above : List (C → C)) :
    compose (below ++ above) c = compose above (compose below c) := List.foldl_append

theorem overwrites_const (c : C) : Overwrites fun _ => c := fun _ _ => rfl

/-- Above an overwriting layer the colours below do not matter. -/
theorem compose_eq_of_overwrites (layers : List (C → C)) (h : ∃ f ∈ layers, Overwrites f) :
    compose layers c = compose layers d := by
  induction layers generalizing c d with
  | nil => simp at h
  | cons f layers ih =>
    rw [compose_cons, compose_cons]
    by_cases hf : Overwrites f
    · rw [hf c d]
    · obtain ⟨g, hg, ho⟩ := h
      rcases List.mem_cons.mp hg with rfl | hg
      · exact absurd ho hf
      · exact ih ⟨g, hg, ho⟩

/-- Layers that keep a colour do not change it together. -/
theorem compose_fixed (layers : List (C → C)) (h : ∀ f ∈ layers, f c = c) : compose layers c = c := by
  induction layers with
  | nil => rfl
  | cons f layers ih =>
    rw [compose_cons, h f List.mem_cons_self]
    exact ih fun g hg => h g (List.mem_cons_of_mem f hg)

/-- A list has a last member of a kind, or no member of it. -/
theorem exists_last {α : Type*} (p : α → Prop) (l : List α) :
    (∀ a ∈ l, ¬ p a) ∨ ∃ below a above, l = below ++ a :: above ∧ p a ∧ ∀ b ∈ above, ¬ p b := by
  induction l with
  | nil => exact .inl (by simp)
  | cons a l ih =>
    rcases ih with h | ⟨below, b, above, rfl, hb, h⟩
    · by_cases ha : p a
      · exact .inr ⟨[], a, l, rfl, ha, h⟩
      · exact .inl (by simpa [ha] using h)
    · exact .inr ⟨a :: below, b, above, rfl, hb, h⟩

end KWinFT.Lib
