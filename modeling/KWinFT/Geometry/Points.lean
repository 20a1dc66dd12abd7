import Mathlib.Data.Int.ConditionallyCompleteOrder
import Mathlib.Order.ConditionallyCompleteLattice.Basic
import KWinFT.Geometry.Rect

/-! Rectangles as sets of points. Sides of negative length are read backwards, as the intersection of the toolkit
does. -/
namespace KWinFT.Geometry.Rect

def points (r : Rect) : Set Point :=
  {p | p.x ∈ Set.Icc (span r.left r.right).1 (span r.left r.right).2 ∧
    p.y ∈ Set.Icc (span r.top r.bottom).1 (span r.top r.bottom).2}

/-- No side has negative length. -/
def Upright (r : Rect) : Prop := r.left ≤ r.right + 1 ∧ r.top ≤ r.bottom + 1

variable {r s : Rect} {p : Point}

theorem Upright.mem_points (h : r.Upright) :
    p ∈ r.points ↔ r.left ≤ p.x ∧ p.x ≤ r.right ∧ r.top ≤ p.y ∧ p.y ≤ r.bottom := by
  obtain ⟨hx, hy⟩ := h
  simp only [points, span, Set.mem_ofPred_eq, Set.mem_Icc]
  rw [if_neg (by omega), if_neg (by omega)]
  exact and_assoc

theorem Upright.nonempty_points (h : r.Upright) : r.points.Nonempty ↔ ¬ r.isEmpty := by
  constructor
  · rintro ⟨p, hp⟩ hempty
    rw [h.mem_points] at hp
    unfold isEmpty at hempty
    omega
  · intro hempty
    refine ⟨⟨r.left, r.top⟩, h.mem_points.mpr ?_⟩
    unfold isEmpty at hempty
    dsimp only
    omega

theorem upright_of_not_isEmpty (h : ¬ r.isEmpty) : r.Upright := by
  unfold isEmpty at h
  exact ⟨by omega, by omega⟩

/-- The corners of a part of a rectangle lie between those of the whole. -/
theorem within_of_points_subset (hr : ¬ r.isEmpty) (hs : ¬ s.isEmpty) (h : r.points ⊆ s.points) :
    s.left ≤ r.left ∧ s.top ≤ r.top ∧ r.right ≤ s.right ∧ r.bottom ≤ s.bottom := by
  have hrup := upright_of_not_isEmpty hr
  have hsup := upright_of_not_isEmpty hs
  have hx : r.left ≤ r.right := not_lt.mp fun hlt => hr (.inl hlt)
  have hy : r.top ≤ r.bottom := not_lt.mp fun hlt => hr (.inr hlt)
  have h₁ : (⟨r.left, r.top⟩ : Point) ∈ s.points := h (hrup.mem_points.mpr ⟨le_rfl, hx, le_rfl, hy⟩)
  have h₂ : (⟨r.right, r.bottom⟩ : Point) ∈ s.points := h (hrup.mem_points.mpr ⟨hx, le_rfl, hy, le_rfl⟩)
  rw [hsup.mem_points] at h₁ h₂
  exact ⟨h₁.1, h₁.2.2.1, h₂.2.1, h₂.2.2.2⟩

private theorem span_le (first last : Int) : (span first last).1 ≤ (span first last).2 + 1 := by
  unfold span
  split <;> dsimp only <;> omega

theorem upright_intersected (r s : Rect) : (r.intersected s).Upright := by
  unfold intersected
  split
  · next h =>
    simp only [intersects, Bool.and_eq_true, decide_eq_true_eq] at h
    have := span_le r.left r.right
    have := span_le r.top r.bottom
    have := span_le s.left s.right
    have := span_le s.top s.bottom
    exact ⟨by dsimp only; omega, by dsimp only; omega⟩
  · exact ⟨by decide, by decide⟩

private theorem points_of_isNull (h : r.isNull) : r.points = ∅ := by
  simp only [isNull, Bool.and_eq_true, decide_eq_true_eq] at h
  rw [← Set.not_nonempty_iff_eq_empty, Upright.nonempty_points ⟨by omega, by omega⟩, not_not]
  exact .inl (by omega)

theorem points_intersected (r s : Rect) : (r.intersected s).points = r.points ∩ s.points := by
  ext p
  rw [(upright_intersected r s).mem_points, Set.mem_inter_iff]
  unfold intersected
  split
  · simp only [points, Set.mem_ofPred_eq, Set.mem_Icc]
    omega
  · next h =>
    simp only [null]
    refine ⟨fun hp => by omega, fun ⟨hr, hs⟩ => absurd ?_ h⟩
    have hrn : r.isNull = false := by
      rw [← Bool.not_eq_true]
      intro hn
      rw [points_of_isNull hn] at hr
      exact hr
    have hsn : s.isNull = false := by
      rw [← Bool.not_eq_true]
      intro hn
      rw [points_of_isNull hn] at hs
      exact hs
    simp only [points, Set.mem_ofPred_eq, Set.mem_Icc] at hr hs
    simp only [intersects, hrn, hsn, Bool.not_false, Bool.true_and, Bool.and_eq_true, decide_eq_true_eq]
    omega

/-- Rectangles that meet in pairs have a common point: their sides are intervals. -/
theorem exists_common_point (rs : List Rect) (hne : rs ≠ []) :
    (∃ p, ∀ r ∈ rs, p ∈ r.points) ↔ ∀ r ∈ rs, ∀ s ∈ rs, (r.points ∩ s.points).Nonempty := by
  constructor
  · rintro ⟨p, hp⟩ r hr s hs
    exact ⟨p, hp r hr, hp s hs⟩
  · intro h
    have side (lo hi : Rect → Int) (hle : ∀ r ∈ rs, ∀ s ∈ rs, lo r ≤ hi s) :
        ∃ x, ∀ r ∈ rs, lo r ≤ x ∧ x ≤ hi r := by
      obtain ⟨r₀, hr₀⟩ := List.exists_mem_of_ne_nil rs hne
      obtain ⟨x, hlo, hhi⟩ := exists_between_of_forall_le (s := lo '' {r | r ∈ rs}) (t := hi '' {r | r ∈ rs})
        ⟨lo r₀, r₀, hr₀, rfl⟩ ⟨hi r₀, r₀, hr₀, rfl⟩ (by rintro _ ⟨r, hr, rfl⟩ _ ⟨s, hs, rfl⟩; exact hle r hr s hs)
      exact ⟨x, fun r hr => ⟨hlo ⟨r, hr, rfl⟩, hhi ⟨r, hr, rfl⟩⟩⟩
    obtain ⟨x, hx⟩ := side (fun r => (span r.left r.right).1) (fun r => (span r.left r.right).2) fun r hr s hs => by
      obtain ⟨p, ⟨hpr, -⟩, hps, -⟩ := h r hr s hs
      exact hpr.1.trans hps.2
    obtain ⟨y, hy⟩ := side (fun r => (span r.top r.bottom).1) (fun r => (span r.top r.bottom).2) fun r hr s hs => by
      obtain ⟨p, ⟨-, hpr⟩, -, hps⟩ := h r hr s hs
      exact hpr.1.trans hps.2
    exact ⟨⟨x, y⟩, fun r hr => ⟨hx r hr, hy r hr⟩⟩

end KWinFT.Geometry.Rect
