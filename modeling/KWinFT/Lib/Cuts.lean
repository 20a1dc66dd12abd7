import Mathlib.Algebra.Order.Archimedean.Basic
import Mathlib.Algebra.Order.Field.Basic
import Mathlib.Data.List.Pairwise
import Mathlib.Order.Filter.AtTopBot.Basic
import Mathlib.Tactic.Linarith

/-! An interval that is cut into pieces, and the loop that goes over it in steps of one length and cuts it at a grid. -/
namespace KWinFT.Lib
variable {K β : Type*}

section cuts
variable [LinearOrder K] {a b x : K} {l : List (K × K)} {s : K × K}

/-- Intervals one after the other, the first from `a` and the last to `b`. -/
def Cuts : K → List (K × K) → K → Prop
  | a, [], b => a = b
  | a, s :: rest, b => s.1 = a ∧ s.1 < s.2 ∧ Cuts s.2 rest b

theorem Cuts.le (h : Cuts a l b) : a ≤ b := by
  induction l generalizing a with
  | nil => exact le_of_eq h
  | cons s rest ih => exact h.1 ▸ h.2.1.le.trans (ih h.2.2)

theorem Cuts.ne_nil (h : Cuts a l b) (hlt : a < b) : l ≠ [] := by
  rintro rfl
  exact hlt.ne h

theorem Cuts.bounds (h : Cuts a l b) (hs : s ∈ l) : a ≤ s.1 ∧ s.1 < s.2 ∧ s.2 ≤ b := by
  induction l generalizing a with
  | nil => exact absurd hs List.not_mem_nil
  | cons t rest ih =>
    obtain ⟨hfirst, hlt, hrest⟩ := h
    obtain rfl | hs := List.mem_cons.mp hs
    · exact ⟨hfirst.ge, hlt, hrest.le⟩
    · obtain ⟨hle, hbounds⟩ := ih hrest hs
      exact ⟨(hfirst.ge.trans hlt.le).trans hle, hbounds⟩

/-- The pieces are the interval. -/
theorem Cuts.mem_iff (h : Cuts a l b) (hl : l ≠ []) : (∃ s ∈ l, s.1 ≤ x ∧ x ≤ s.2) ↔ a ≤ x ∧ x ≤ b := by
  induction l generalizing a with
  | nil => exact absurd rfl hl
  | cons s rest ih =>
    obtain ⟨rfl, hlt, hrest⟩ := h
    rw [List.exists_mem_cons_iff]
    by_cases hnil : rest = []
    · subst hnil
      obtain rfl : s.2 = b := hrest
      simp only [List.not_mem_nil, false_and, exists_false, or_false]
    · rw [ih hrest hnil]
      constructor
      · rintro (hx | hx)
        · exact ⟨hx.1, hx.2.trans hrest.le⟩
        · exact ⟨hlt.le.trans hx.1, hx.2⟩
      · rintro ⟨hfirst, hlast⟩
        obtain hx | hx := le_total x s.2
        · exact .inl ⟨hfirst, hx⟩
        · exact .inr ⟨hx, hlast⟩

/-- No piece reaches into a later one. -/
theorem Cuts.pairwise (h : Cuts a l b) : l.Pairwise fun s t => s.2 ≤ t.1 := by
  induction l generalizing a with
  | nil => exact .nil
  | cons s rest ih => exact .cons (fun t ht => (h.2.2.bounds ht).1) (ih h.2.2)

end cuts

section steps
variable [Field K] [LinearOrder K] [IsStrictOrderedRing K] {inc lo hi : K}

/-- A loop over the positions before `stop` at steps of `inc`, with what its rounds append, and `none` when a round fails
or the number of rounds is not enough. -/
def forSteps (inc stop : K) (body : K → Option (List β)) : Nat → K → Option (List β)
  | 0, _ => none
  | n + 1, x => if x < stop then (body x).bind fun first => (forSteps inc stop body n (x + inc)).map (first ++ ·) else some []

/-- The parts of an interval in the cells of a grid from `x` on. -/
def cells (inc lo hi : K) : Nat → K → List (K × K)
  | 0, _ => []
  | n + 1, x => if x < hi then (max x lo, min hi (x + inc)) :: cells inc lo hi n (x + inc) else []

private theorem next_reaches {x : K} {n : Nat} (h : hi ≤ x + (n + 1 : Nat) * inc) : hi ≤ x + inc + n * inc := by
  rw [Nat.cast_succ, add_one_mul] at h
  linarith

/-- With rounds enough the loop does for each part what its body does. -/
theorem forSteps_eq (hinc : 0 < inc) (hlt : lo < hi) {body : K → Option (List β)} {part : K × K → List β} {n : Nat} {x : K}
    (hx : lo < x + inc) (hreach : hi ≤ x + n * inc)
    (hbody : ∀ y, lo ≤ max y lo → max y lo < min hi (y + inc) → min hi (y + inc) ≤ hi →
      body y = some (part (max y lo, min hi (y + inc)))) :
    forSteps inc hi body (n + 1) x = some ((cells inc lo hi n x).flatMap part) := by
  induction n generalizing x with
  | zero =>
    rw [Nat.cast_zero, zero_mul, add_zero] at hreach
    exact if_neg hreach.not_gt
  | succ n ih =>
    unfold forSteps cells
    by_cases hstop : x < hi
    · have hpart : max x lo < min hi (x + inc) :=
        max_lt (lt_min hstop (lt_add_of_pos_right x hinc)) (lt_min hlt hx)
      have hnext := ih (hx.trans (lt_add_of_pos_right _ hinc)) (next_reaches hreach)
      rw [if_pos hstop, if_pos hstop, hbody x (le_max_right _ _) hpart (min_le_left _ _), Option.bind_some, hnext,
        Option.map_some, List.flatMap_cons]
    · rw [if_neg hstop, if_neg hstop]
      rfl

private theorem cells_cuts_from (hinc : 0 < inc) (hlt : lo < hi) {n : Nat} {x : K} (hx : lo < x + inc) (hstop : x < hi)
    (hreach : hi ≤ x + n * inc) : Cuts (max x lo) (cells inc lo hi n x) hi := by
  induction n generalizing x with
  | zero =>
    rw [Nat.cast_zero, zero_mul, add_zero] at hreach
    exact absurd hstop hreach.not_gt
  | succ n ih =>
    unfold cells
    rw [if_pos hstop]
    refine ⟨rfl, max_lt (lt_min hstop (lt_add_of_pos_right x hinc)) (lt_min hlt hx), ?_⟩
    dsimp only
    by_cases hnext : x + inc < hi
    · have hrest := ih (hx.trans (lt_add_of_pos_right _ hinc)) hnext (next_reaches hreach)
      rw [min_eq_right hnext.le]
      rwa [max_eq_left hx.le] at hrest
    · have hlast : cells inc lo hi n (x + inc) = [] := by
        cases n with
        | zero => rfl
        | succ n => exact if_neg hnext
      rw [hlast, min_eq_left (not_lt.mp hnext)]
      exact rfl

/-- From the cell with the lower end on, the cells cut the interval. -/
theorem cells_cuts (hinc : 0 < inc) (hlt : lo < hi) {n : Nat} {x : K} (hfirst : x ≤ lo) (hx : lo < x + inc)
    (hreach : hi ≤ x + n * inc) : Cuts lo (cells inc lo hi n x) hi := by
  have h := cells_cuts_from hinc hlt hx (hfirst.trans_lt hlt) hreach
  rwa [max_eq_right hfirst] at h

/-- Each part is in a cell. -/
theorem cells_within {n : Nat} {x : K} {s : K × K} (hs : s ∈ cells inc lo hi n x) :
    ∃ i : Nat, x + i * inc ≤ s.1 ∧ s.2 ≤ x + (i + 1) * inc := by
  induction n generalizing x with
  | zero => exact absurd hs List.not_mem_nil
  | succ n ih =>
    unfold cells at hs
    split at hs
    · obtain rfl | hs := List.mem_cons.mp hs
      · refine ⟨0, ?_, ?_⟩
        · rw [Nat.cast_zero, zero_mul, add_zero]
          exact le_max_left _ _
        · rw [Nat.cast_zero, zero_add, one_mul]
          exact min_le_right _ _
      · obtain ⟨i, hle, hge⟩ := ih hs
        refine ⟨i + 1, ?_, ?_⟩
        · rw [Nat.cast_succ]
          linarith
        · rw [Nat.cast_succ]
          linarith
    · exact absurd hs List.not_mem_nil

/-- More rounds than are enough find nothing more. -/
theorem cells_stable {n m : Nat} {x : K} (hreach : hi ≤ x + n * inc) (hle : n ≤ m) :
    cells inc lo hi m x = cells inc lo hi n x := by
  induction n generalizing x m with
  | zero =>
    rw [Nat.cast_zero, zero_mul, add_zero] at hreach
    cases m with
    | zero => rfl
    | succ m => exact if_neg hreach.not_gt
  | succ n ih =>
    cases m with
    | zero => exact absurd hle (Nat.not_succ_le_zero n)
    | succ m =>
      unfold cells
      rw [ih (next_reaches hreach) (Nat.le_of_succ_le_succ hle)]

/-- Rounds are enough at some time. -/
theorem eventually_reaches [Archimedean K] (hinc : 0 < inc) (x hi : K) :
    ∀ᶠ n : Nat in Filter.atTop, hi ≤ x + n * inc := by
  obtain ⟨N, hN⟩ := exists_nat_ge ((hi - x) / inc)
  refine Filter.eventually_atTop.mpr ⟨N, fun n hn => ?_⟩
  have hle : (hi - x) / inc ≤ n := hN.trans (Nat.cast_le.mpr hn)
  rw [div_le_iff₀ hinc] at hle
  linarith

end steps

end KWinFT.Lib
