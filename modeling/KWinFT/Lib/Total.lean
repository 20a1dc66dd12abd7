import Mathlib.Data.Option.Basic

/-! Computations that can fail, by what holds of their results when they do not. -/
namespace KWinFT.Lib
variable {α β : Type*} {P Q : α → Prop} {x : Option α}

/-- The computation does not fail, and its result has the property. -/
def Succeeds (x : Option α) (P : α → Prop) : Prop := ∃ a, x = some a ∧ P a

namespace Succeeds

theorem some {a : α} (h : P a) : Succeeds (some a) P := ⟨a, rfl, h⟩

theorem mono (hx : Succeeds x P) (h : ∀ a, P a → Q a) : Succeeds x Q := hx.imp fun a ha => ⟨ha.1, h a ha.2⟩

theorem bind {α β : Type _} {P : α → Prop} {Q : β → Prop} {x : Option α} {f : α → Option β} (hx : Succeeds x P)
    (hf : ∀ a, P a → Succeeds (f a) Q) : Succeeds (x >>= f) Q := by
  obtain ⟨a, rfl, ha⟩ := hx
  exact hf a ha

theorem map {P : β → Prop} {f : α → β} (hx : Succeeds x fun a => P (f a)) : Succeeds (x.map f) P := by
  obtain ⟨a, rfl, ha⟩ := hx
  exact ⟨f a, rfl, ha⟩

theorem isSome (hx : Succeeds x P) : x.isSome := by
  obtain ⟨a, rfl, -⟩ := hx
  rfl

theorem ite {c : Prop} [Decidable c] {y : Option α} (hx : c → Succeeds x P) (hy : ¬ c → Succeeds y P) :
    Succeeds (if c then x else y) P := by
  split
  · next h => exact hx h
  · next h => exact hy h

end Succeeds
end KWinFT.Lib
