import Mathlib.Algebra.Order.Ring.Int
import Mathlib.Data.Option.Basic
import Mathlib.Tactic.Common

/-! Arithmetic of 32 bits with a sign. An operation whose result does not fit is undefined. -/
namespace KWinFT.Lib

def IsInt (x : Int) : Prop := -2147483648 ≤ x ∧ x ≤ 2147483647

instance (x : Int) : Decidable (IsInt x) := inferInstanceAs (Decidable (_ ∧ _))

/-- The result of an operation. -/
def int (x : Int) : Option Int := if IsInt x then some x else none

variable {x y z : Int}

theorem int_eq_some : int x = some y ↔ IsInt x ∧ x = y := by
  unfold int
  split
  · next h => exact ⟨fun he => ⟨h, Option.some.inj he⟩, fun he => congrArg some he.2⟩
  · next h => exact ⟨fun he => absurd he (by simp), fun he => absurd he.1 h⟩

/-- An operation is carried on with only if it fits. -/
theorem int_bind_eq_some {α : Type} {f : Int → Option α} {a : α} : (int x >>= f) = some a ↔ IsInt x ∧ f x = some a := by
  unfold int
  split
  · next h => exact ⟨fun he => ⟨h, he⟩, fun he => he.2⟩
  · next h => exact ⟨fun he => absurd he (by simp), fun he => absurd he.1 h⟩

/-- Adds numbers one after the other. -/
def sumFrom (x : Int) : List Int → Option Int
  | [] => some x
  | y :: ys => int (x + y) >>= (sumFrom · ys)

/-- Every sum on the way fits. -/
def SumsFit (x : Int) : List Int → Prop
  | [] => True
  | y :: ys => IsInt (x + y) ∧ SumsFit (x + y) ys

def decidableSumsFit : (x : Int) → (ys : List Int) → Decidable (SumsFit x ys)
  | _, [] => inferInstanceAs (Decidable True)
  | x, y :: ys => @instDecidableAnd _ _ _ (decidableSumsFit (x + y) ys)

instance (x : Int) (ys : List Int) : Decidable (SumsFit x ys) := decidableSumsFit x ys

theorem sumFrom_eq_some {ys : List Int} : sumFrom x ys = some z ↔ SumsFit x ys ∧ x + ys.sum = z := by
  induction ys generalizing x with
  | nil => simp [sumFrom, SumsFit]
  | cons y ys ih => rw [sumFrom, SumsFit, int_bind_eq_some, ih, List.sum_cons, Int.add_assoc, and_assoc]

theorem IsInt.between (hx : IsInt x) (hz : IsInt z) (hxy : x ≤ y) (hyz : y ≤ z) : IsInt y :=
  ⟨Int.le_trans hx.1 hxy, Int.le_trans hyz hz.2⟩

theorem IsInt.max (hx : IsInt x) (hy : IsInt y) : IsInt (Max.max x y) := by
  rcases Int.le_total x y with h | h
  · rwa [Int.max_eq_right h]
  · rwa [Int.max_eq_left h]

theorem IsInt.min (hx : IsInt x) (hy : IsInt y) : IsInt (Min.min x y) := by
  rcases Int.le_total x y with h | h
  · rwa [Int.min_eq_left h]
  · rwa [Int.min_eq_right h]

end KWinFT.Lib
