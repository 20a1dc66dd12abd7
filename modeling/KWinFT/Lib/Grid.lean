import Mathlib.Data.List.Nodup
import Mathlib.Data.List.Perm.Basic

/-! Ragged grids: lists of rows, read by column and row. A grid is determined by its cells, and a
value that sits in one cell only sits in the rows exactly once. -/
namespace KWinFT.Lib
variable {α : Type*} {rows : List (List α)} {a : α} {x y : Nat}

/-- The value in column `x` of row `y`. -/
def cell (rows : List (List α)) (x y : Nat) : Option α := rows[y]?.bind (·[x]?)

theorem cell_eq_some : cell rows x y = some a ↔ ∃ row, rows[y]? = some row ∧ row[x]? = some a :=
  Option.bind_eq_some_iff

theorem mem_flatten_iff_cell : a ∈ rows.flatten ↔ ∃ x y, cell rows x y = some a := by
  simp only [List.mem_flatten, cell_eq_some]
  constructor
  · rintro ⟨row, hrow, ha⟩
    obtain ⟨y, hy⟩ := List.mem_iff_getElem?.mp hrow
    obtain ⟨x, hx⟩ := List.mem_iff_getElem?.mp ha
    exact ⟨x, y, row, hy, hx⟩
  · rintro ⟨x, y, row, hy, hx⟩
    exact ⟨row, List.mem_of_getElem? hy, List.mem_of_getElem? hx⟩

/-- No value sits in two cells. -/
def Separate (rows : List (List α)) : Prop :=
  ∀ x y x' y' a, cell rows x y = some a → cell rows x' y' = some a → x = x' ∧ y = y'

theorem Separate.nodup_flatten (h : Separate rows) : rows.flatten.Nodup := by
  rw [List.nodup_flatten]
  refine ⟨fun row hrow => ?_, ?_⟩
  · obtain ⟨y, hy⟩ := List.mem_iff_getElem?.mp hrow
    rw [List.nodup_iff_injective_getElem]
    intro i j hij
    have hi : cell rows i y = some row[i] := cell_eq_some.mpr ⟨row, hy, List.getElem?_eq_getElem i.2⟩
    have hj : cell rows j y = some row[i] :=
      cell_eq_some.mpr ⟨row, hy, (List.getElem?_eq_getElem j.2).trans (congrArg some hij.symm)⟩
    exact Fin.ext (h _ _ _ _ _ hi hj).1
  · rw [List.pairwise_iff_getElem]
    intro i j hi hj hij a ha hb
    obtain ⟨x, hx⟩ := List.mem_iff_getElem?.mp ha
    obtain ⟨x', hx'⟩ := List.mem_iff_getElem?.mp hb
    have hc : cell rows x i = some a := cell_eq_some.mpr ⟨_, List.getElem?_eq_getElem hi, hx⟩
    have hc' : cell rows x' j = some a := cell_eq_some.mpr ⟨_, List.getElem?_eq_getElem hj, hx'⟩
    exact absurd (h _ _ _ _ _ hc hc').2 (Nat.ne_of_lt hij)

/-- Collecting the values of a partial function that is defined on a start segment. -/
theorem getElem?_filterMap_range {f : Nat → Option α} (hf : ∀ i, f i = none → f (i + 1) = none) (n i : Nat) :
    ((List.range n).filterMap f)[i]? = if i < n then f i else none := by
  have hsome {i j : Nat} (hij : i ≤ j) (hi : f i = none) : f j = none := by
    induction hij with
    | refl => exact hi
    | step _ ih => exact hf _ ih
  induction n generalizing i with
  | zero => simp
  | succ n ih =>
    rw [List.range_succ, List.filterMap_append]
    cases hn : f n with
    | none =>
      simp only [List.filterMap_cons, hn, List.filterMap_nil, List.append_nil, ih]
      by_cases hi : i < n
      · simp [hi, Nat.lt_succ_of_lt hi]
      · have hnone : f i = none := hsome (Nat.le_of_not_lt hi) hn
        simp [hi, hnone]
    | some a =>
      have hlen : ((List.range n).filterMap f).length = n := by
        refine Nat.le_antisymm (by simpa using List.length_filterMap_le f (List.range n)) ?_
        by_contra hlt
        have hlast := ih ((List.range n).filterMap f).length
        rw [List.getElem?_eq_none (Nat.le_refl _), if_pos (by omega)] at hlast
        have hnone : f n = none := hsome (Nat.le_of_not_le hlt) hlast.symm
        simp [hn] at hnone
      simp only [List.filterMap_cons, hn, List.filterMap_nil]
      rcases Nat.lt_trichotomy i n with hi | rfl | hi
      · rw [List.getElem?_append_left (by omega), ih, if_pos hi, if_pos (by omega)]
      · rw [List.getElem?_append_right (by omega), hlen]
        simp [hn]
      · rw [List.getElem?_append_right (by omega), hlen, if_neg (by omega)]
        simp [show i - n ≠ 0 by omega]

end KWinFT.Lib
