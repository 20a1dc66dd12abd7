import Mathlib.Data.List.Basic
import Mathlib.Order.Bounds.Basic

/-! The running minimum of a search: a bound is moved up to each candidate that is nearer, but still past a limit. -/
namespace KWinFT.Lib
variable {α : Type*} [LinearOrder α] {lim lim' bound bound' : α} {xs : List α}

def nearest (lim bound : α) (xs : List α) : α := xs.foldl (fun b x => if x < b ∧ lim < x then x else b) bound

@[simp]
theorem nearest_nil : nearest lim bound [] = bound := rfl

theorem nearest_cons (x : α) (xs : List α) :
    nearest lim bound (x :: xs) = nearest lim (if x < bound ∧ lim < x then x else bound) xs := rfl

/-- It ends at the first of the bound and the candidates past the limit. -/
theorem isLeast_nearest (h : lim < bound) :
    IsLeast (insert bound {x | x ∈ xs ∧ lim < x}) (nearest lim bound xs) := by
  induction xs generalizing bound with
  | nil => simp
  | cons x xs ih =>
    rw [nearest_cons]
    split
    · rename_i hx
      obtain ⟨hmem, hle⟩ := ih hx.2
      refine ⟨?_, ?_⟩
      · rcases hmem with hmem | hmem
        · exact .inr ⟨List.mem_cons.mpr (.inl hmem), lt_of_lt_of_eq hx.2 hmem.symm⟩
        · exact .inr ⟨List.mem_cons_of_mem x hmem.1, hmem.2⟩
      · rintro y (rfl | ⟨hy, hlim⟩)
        · exact (hle (.inl rfl)).trans hx.1.le
        · rcases List.mem_cons.mp hy with rfl | hy
          · exact hle (.inl rfl)
          · exact hle (.inr ⟨hy, hlim⟩)
    · rename_i hx
      obtain ⟨hmem, hle⟩ := ih h
      refine ⟨?_, ?_⟩
      · exact hmem.imp id fun hmem => ⟨List.mem_cons_of_mem x hmem.1, hmem.2⟩
      · rintro y (rfl | ⟨hy, hlim⟩)
        · exact hle (.inl rfl)
        · rcases List.mem_cons.mp hy with rfl | hy
          · exact (hle (.inl rfl)).trans (not_lt.mp fun hlt => hx ⟨hlt, hlim⟩)
          · exact hle (.inr ⟨hy, hlim⟩)

theorem lt_nearest (h : lim < bound) : lim < nearest lim bound xs := by
  have hleast : IsLeast _ (nearest lim bound xs) := isLeast_nearest h
  rcases hleast.1 with he | he
  · exact lt_of_lt_of_eq h he.symm
  · exact he.2

theorem nearest_le (h : lim < bound) : nearest lim bound xs ≤ bound := (isLeast_nearest h).2 (.inl rfl)

theorem nearest_le_of_mem (h : lim < bound) {x : α} (hx : x ∈ xs) (hlim : lim < x) : nearest lim bound xs ≤ x :=
  (isLeast_nearest h).2 (.inr ⟨hx, hlim⟩)

theorem nearest_of_le (h : bound ≤ lim) : nearest lim bound xs = bound := by
  induction xs with
  | nil => rfl
  | cons x xs ih => rw [nearest_cons, if_neg fun hx => absurd (hx.1.trans_le h) hx.2.not_gt, ih]

/-- Two searches agree unless one bound comes before the other and before all candidates. -/
theorem nearest_eq_nearest_iff (h : lim < bound) (h' : lim < bound') : nearest lim bound xs = nearest lim bound' xs ↔
    bound = bound' ∨ ∃ x ∈ xs, lim < x ∧ x ≤ bound ∧ x ≤ bound' := by
  have hleast : IsLeast _ (nearest lim bound xs) := isLeast_nearest h
  have hleast' : IsLeast _ (nearest lim bound' xs) := isLeast_nearest h'
  constructor
  · intro heq
    rcases hleast.1 with hb | ⟨hmem, hlim⟩
    · rcases hleast'.1 with hb' | ⟨hmem, hlim⟩
      · exact .inl (hb.symm.trans (heq.trans hb'))
      · exact .inr ⟨_, hmem, hlim, (heq.symm.trans hb).le, nearest_le h'⟩
    · exact .inr ⟨_, hmem, hlim, nearest_le h, heq ▸ nearest_le h'⟩
  · rintro (rfl | ⟨x, hx, hlim, hb, hb'⟩)
    · rfl
    · refine le_antisymm ?_ ?_
      · rcases hleast'.1 with he | ⟨hmem, hlim'⟩
        · exact ((nearest_le_of_mem h hx hlim).trans hb').trans_eq he.symm
        · exact nearest_le_of_mem h hmem hlim'
      · rcases hleast.1 with he | ⟨hmem, hlim'⟩
        · exact ((nearest_le_of_mem h' hx hlim).trans hb).trans_eq he.symm
        · exact nearest_le_of_mem h' hmem hlim'

theorem nearest_congr_lim (h : ∀ x ∈ xs, lim < x ↔ lim' < x) : nearest lim bound xs = nearest lim' bound xs :=
  List.foldl_ext _ _ _ fun b x hx => by simp only [h x hx]

end KWinFT.Lib
