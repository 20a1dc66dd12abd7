import KWinFT.Effects.WindowQuad
import Mathlib.Data.List.Forall2
import Mathlib.Tactic.FieldSimp
import Mathlib.Tactic.Ring

/-! Splitting keeps the picture: the quads that take the place of another tile it, and show its texture where they are. -/
namespace KWinFT.Effects
open Lib

namespace WindowQuad

/-- An untransformed rectangle, with one texture coordinate along each of its sides. -/
structure Upright (q : WindowQuad) : Prop where
  untransformed : ∀ i, (q.verts i).px = (q.verts i).ox ∧ (q.verts i).py = (q.verts i).oy
  left : (q.verts 3).px = (q.verts 0).px
  right : (q.verts 2).px = (q.verts 1).px
  top : (q.verts 1).py = (q.verts 0).py
  bottom : (q.verts 3).py = (q.verts 2).py
  width : (q.verts 0).px ≤ (q.verts 1).px
  height : (q.verts 0).py ≤ (q.verts 2).py
  texture : if q.uvSwapped
    then ((q.verts 1).tx = (q.verts 0).tx ∧ (q.verts 3).tx = (q.verts 2).tx) ∧
      (q.verts 3).ty = (q.verts 0).ty ∧ (q.verts 1).ty = (q.verts 2).ty
    else ((q.verts 3).tx = (q.verts 0).tx ∧ (q.verts 1).tx = (q.verts 2).tx) ∧
      (q.verts 1).ty = (q.verts 0).ty ∧ (q.verts 3).ty = (q.verts 2).ty

/-- What takes the place of a quad: it tiles the quad, without new quads that have no size, and looks the same. A quad without
size stays, and the parts of another are in one place each. -/
structure Splits (inPlace : WindowQuad → Prop) (q : WindowQuad) (parts : List WindowQuad) : Prop where
  covers : ∀ p, (∃ r ∈ parts, r.Covers p) ↔ q.Covers p
  disjoint : parts.Pairwise fun r s => ∀ p, ¬ (r.Inside p ∧ s.Inside p)
  sized : ∀ r ∈ parts, r = q ∨ ¬ r.isFlat
  upright : ∀ r ∈ parts, r.Upright
  texture : ∀ r ∈ parts, ∀ p, r.Covers p → r.textureAt p = q.textureAt p
  quadType : ∀ r ∈ parts, r.quadType = q.quadType ∧ r.uvSwapped = q.uvSwapped
  flat : q.isFlat → parts = [q]
  inPlace : ¬ q.isFlat → ∀ r ∈ parts, inPlace r

variable {q : WindowQuad}

theorem left_eq (h : q.Upright) : q.left = (q.verts 0).px := by
  unfold left
  rw [h.left, h.right, min_eq_right h.width, min_eq_right h.width, min_self]

theorem right_eq (h : q.Upright) : q.right = (q.verts 1).px := by
  unfold right
  rw [h.left, h.right, max_eq_left h.width, max_self, max_eq_right h.width]

theorem top_eq (h : q.Upright) : q.top = (q.verts 0).py := by
  unfold top
  rw [h.top, h.bottom, min_self, min_eq_left h.height, min_self]

theorem bottom_eq (h : q.Upright) : q.bottom = (q.verts 2).py := by
  unfold bottom
  rw [h.top, h.bottom, max_self, max_eq_right h.height, max_eq_right h.height]

theorem left_le (i : Fin 4) : q.left ≤ (q.verts i).px := by
  unfold left
  fin_cases i <;> simp

theorem le_right (i : Fin 4) : (q.verts i).px ≤ q.right := by
  unfold right
  fin_cases i <;> simp

theorem top_le (i : Fin 4) : q.top ≤ (q.verts i).py := by
  unfold top
  fin_cases i <;> simp

theorem le_bottom (i : Fin 4) : (q.verts i).py ≤ q.bottom := by
  unfold bottom
  fin_cases i <;> simp

theorem not_isTransformed (h : q.Upright) : ¬ q.isTransformed := by
  unfold isTransformed
  rw [decide_eq_true_eq]
  rintro ⟨i, hi | hi⟩
  · exact hi (h.untransformed i).1
  · exact hi (h.untransformed i).2

/-- A quad that is not flat extends in both directions. -/
theorem sides_of_not_isFlat (h : q.Upright) (hflat : ¬ q.isFlat) : q.left < q.right ∧ q.top < q.bottom := by
  obtain ⟨hwidth, hheight⟩ := not_or.mp hflat
  refine ⟨lt_of_le_of_ne ?_ hwidth, lt_of_le_of_ne ?_ hheight⟩
  · rw [left_eq h, right_eq h]
    exact h.width
  · rw [top_eq h, bottom_eq h]
    exact h.height

/-- With one coordinate along each side the texture is interpolated in each direction on its own. -/
theorem textureAt_eq (h : q.Upright) (p : ℚ × ℚ) :
    let s := (p.1 - q.left) / (q.right - q.left)
    let t := (p.2 - q.top) / (q.bottom - q.top)
    q.textureAt p =
      ((q.verts 0).tx + (if q.uvSwapped then t else s) * ((q.verts 2).tx - (q.verts 0).tx),
        (q.verts 0).ty + (if q.uvSwapped then s else t) * ((q.verts 2).ty - (q.verts 0).ty)) := by
  have htexture := h.texture
  unfold textureAt bilinear
  dsimp only
  split at htexture
  · obtain ⟨⟨hu, hu'⟩, hv, hv'⟩ := htexture
    rw [hu, hu', hv, hv', if_pos ‹_›, if_pos ‹_›]
    ext <;> dsimp only <;> ring
  · obtain ⟨⟨hu, hu'⟩, hv, hv'⟩ := htexture
    rw [hu, hu', hv, hv', if_neg ‹_›, if_neg ‹_›]
    ext <;> dsimp only <;> ring

section subQuad
variable {x1 y1 x2 y2 : ℚ}

theorem subQuad_upright (hx : x1 ≤ x2) (hy : y1 ≤ y2) : (q.subQuad x1 y1 x2 y2).Upright := by
  unfold subQuad
  split
  · refine ⟨fun i => by fin_cases i <;> exact ⟨rfl, rfl⟩, rfl, rfl, rfl, rfl, hx, hy, ?_⟩
    rw [if_pos ‹_›]
    exact ⟨⟨rfl, rfl⟩, rfl, rfl⟩
  · refine ⟨fun i => by fin_cases i <;> exact ⟨rfl, rfl⟩, rfl, rfl, rfl, rfl, hx, hy, ?_⟩
    rw [if_neg ‹_›]
    exact ⟨⟨rfl, rfl⟩, rfl, rfl⟩

theorem subQuad_corners :
    ((q.subQuad x1 y1 x2 y2).verts 0).px = x1 ∧ ((q.subQuad x1 y1 x2 y2).verts 1).px = x2 ∧
      ((q.subQuad x1 y1 x2 y2).verts 0).py = y1 ∧ ((q.subQuad x1 y1 x2 y2).verts 2).py = y2 := by
  unfold subQuad
  split <;> exact ⟨rfl, rfl, rfl, rfl⟩

theorem subQuad_sides (hx : x1 ≤ x2) (hy : y1 ≤ y2) :
    (q.subQuad x1 y1 x2 y2).left = x1 ∧ (q.subQuad x1 y1 x2 y2).right = x2 ∧
      (q.subQuad x1 y1 x2 y2).top = y1 ∧ (q.subQuad x1 y1 x2 y2).bottom = y2 := by
  have h := subQuad_upright (q := q) hx hy
  rw [left_eq h, right_eq h, top_eq h, bottom_eq h]
  exact subQuad_corners

theorem subQuad_kept :
    (q.subQuad x1 y1 x2 y2).quadType = q.quadType ∧ (q.subQuad x1 y1 x2 y2).uvSwapped = q.uvSwapped := by
  unfold subQuad
  split <;> exact ⟨rfl, rfl⟩

/-- An interpolation from interpolated ends. -/
private theorem interpolated {first length x1 x2 x a b : ℚ} (hlength : length ≠ 0) (hx : x1 < x2) :
    ((x1 - first) / length * (b - a) + a) + (x - x1) / (x2 - x1) *
        (((x2 - first) / length * (b - a) + a) - ((x1 - first) / length * (b - a) + a)) =
      a + (x - first) / length * (b - a) := by
  have hne : x2 - x1 ≠ 0 := sub_ne_zero.mpr hx.ne'
  field_simp
  ring

/-- A part of a quad has the texture that the quad has there. -/
theorem subQuad_textureAt (h : q.Upright) (hflat : ¬ q.isFlat) (hx : x1 < x2) (hy : y1 < y2) (p : ℚ × ℚ) :
    (q.subQuad x1 y1 x2 y2).textureAt p = q.textureAt p := by
  obtain ⟨hwidth, hheight⟩ := sides_of_not_isFlat h hflat
  have hw : q.right - q.left ≠ 0 := sub_ne_zero.mpr hwidth.ne'
  have hh : q.bottom - q.top ≠ 0 := sub_ne_zero.mpr hheight.ne'
  obtain ⟨hleft, hright, htop, hbottom⟩ := subQuad_sides (q := q) hx.le hy.le
  rw [textureAt_eq (subQuad_upright hx.le hy.le), textureAt_eq h, hleft, hright, htop, hbottom, subQuad_kept.2]
  unfold subQuad
  cases q.uvSwapped with
  | true => exact Prod.ext (interpolated hh hy) (interpolated hw hx)
  | false => exact Prod.ext (interpolated hw hx) (interpolated hh hy)

theorem makeSubQuad_eq (h : q.Upright) (hx : x1 < x2) (hy : y1 < y2) (hleft : q.left ≤ x1) (hright : x2 ≤ q.right)
    (htop : q.top ≤ y1) (hbottom : y2 ≤ q.bottom) : q.makeSubQuad x1 y1 x2 y2 = some (q.subQuad x1 y1 x2 y2) :=
  if_pos ⟨⟨hx, hy, hleft, hright, htop, hbottom⟩, not_isTransformed h⟩

end subQuad

section tiling
variable {inPlace : WindowQuad → Prop} {cols rows : List (ℚ × ℚ)}

/-- The part of a quad in a column and a row. -/
def piece (q : WindowQuad) (col row : ℚ × ℚ) : WindowQuad := q.subQuad col.1 row.1 col.2 row.2

def pieces (q : WindowQuad) (cols rows : List (ℚ × ℚ)) : List WindowQuad :=
  rows.flatMap fun row => cols.flatMap fun col => [q.piece col row]

theorem mem_pieces {r : WindowQuad} :
    r ∈ q.pieces cols rows ↔ ∃ row ∈ rows, ∃ col ∈ cols, r = q.piece col row := by
  unfold pieces
  simp only [List.mem_flatMap, List.mem_singleton]

/-- A quad that is kept whole takes its own place. -/
theorem splits_whole (h : q.Upright) (hplace : ¬ q.isFlat → inPlace q) : Splits inPlace q [q] where
  covers p := by simp only [List.mem_singleton, exists_eq_left]
  disjoint := List.pairwise_singleton _ _
  sized := by simp only [List.forall_mem_singleton, true_or]
  upright := by simpa only [List.forall_mem_singleton] using h
  texture := by simp only [List.forall_mem_singleton, implies_true]
  quadType := by simp only [List.forall_mem_singleton, and_self]
  flat _ := rfl
  inPlace hflat := by simpa only [List.forall_mem_singleton] using hplace hflat

private theorem piece_bounds (hcols : Cuts q.left cols q.right) (hrows : Cuts q.top rows q.bottom) {col row : ℚ × ℚ}
    (hcol : col ∈ cols) (hrow : row ∈ rows) :
    col.1 < col.2 ∧ row.1 < row.2 ∧ (q.piece col row).left = col.1 ∧ (q.piece col row).right = col.2 ∧
      (q.piece col row).top = row.1 ∧ (q.piece col row).bottom = row.2 := by
  have hx := (hcols.bounds hcol).2.1
  have hy := (hrows.bounds hrow).2.1
  exact ⟨hx, hy, subQuad_sides hx.le hy.le⟩

/-- In one row the columns are apart, and else the rows. -/
private theorem pieces_disjoint (hcols : Cuts q.left cols q.right) (hrows : Cuts q.top rows q.bottom) :
    (q.pieces cols rows).Pairwise fun r s => ∀ p, ¬ (r.Inside p ∧ s.Inside p) := by
  unfold pieces
  simp only [← List.map_eq_flatMap]
  rw [List.pairwise_flatMap]
  refine ⟨fun row hrow => List.pairwise_map.mpr ?_, hrows.pairwise.imp_of_mem ?_⟩
  · refine hcols.pairwise.imp_of_mem fun {col col'} hcol hcol' hapart p ⟨hin, hin'⟩ => ?_
    obtain ⟨-, -, -, hright, -⟩ := piece_bounds hcols hrows hcol hrow
    obtain ⟨-, -, hleft, -⟩ := piece_bounds hcols hrows hcol' hrow
    have hlt := hin.1.2
    have hlt' := hin'.1.1
    rw [hright] at hlt
    rw [hleft] at hlt'
    exact (hlt.trans_le hapart).not_gt hlt'
  · intro row row' hrow hrow' hapart r hr s hs p ⟨hin, hin'⟩
    obtain ⟨col, hcol, rfl⟩ := List.mem_map.mp hr
    obtain ⟨col', hcol', rfl⟩ := List.mem_map.mp hs
    obtain ⟨-, -, -, -, -, hbottom⟩ := piece_bounds hcols hrows hcol hrow
    obtain ⟨-, -, -, -, htop, -⟩ := piece_bounds hcols hrows hcol' hrow'
    have hlt := hin.2.2
    have hlt' := hin'.2.1
    rw [hbottom] at hlt
    rw [htop] at hlt'
    exact (hlt.trans_le hapart).not_gt hlt'

/-- The pieces of a quad in columns and rows that cut it tile it. -/
theorem splits_pieces (h : q.Upright) (hflat : ¬ q.isFlat) (hcols : Cuts q.left cols q.right)
    (hrows : Cuts q.top rows q.bottom) (hplace : ∀ row ∈ rows, ∀ col ∈ cols, inPlace (q.piece col row)) :
    Splits inPlace q (q.pieces cols rows) := by
  obtain ⟨hwidth, hheight⟩ := sides_of_not_isFlat h hflat
  have hbounds {col row : ℚ × ℚ} (hcol : col ∈ cols) (hrow : row ∈ rows) := piece_bounds hcols hrows hcol hrow
  refine ⟨fun p => ?_, ?_, ?_, ?_, ?_, ?_, fun h => absurd h hflat, fun _ => ?_⟩
  · have hacross := hcols.mem_iff (x := p.1) (hcols.ne_nil hwidth)
    have halong := hrows.mem_iff (x := p.2) (hrows.ne_nil hheight)
    unfold Covers
    rw [← hacross, ← halong]
    constructor
    · rintro ⟨r, hr, hx, hy⟩
      obtain ⟨row, hrow, col, hcol, rfl⟩ := mem_pieces.mp hr
      obtain ⟨-, -, hleft, hright, htop, hbottom⟩ := hbounds hcol hrow
      rw [hleft, hright] at hx
      rw [htop, hbottom] at hy
      exact ⟨⟨col, hcol, hx⟩, ⟨row, hrow, hy⟩⟩
    · rintro ⟨⟨col, hcol, hx⟩, ⟨row, hrow, hy⟩⟩
      refine ⟨_, mem_pieces.mpr ⟨row, hrow, col, hcol, rfl⟩, ?_⟩
      obtain ⟨-, -, hleft, hright, htop, hbottom⟩ := hbounds hcol hrow
      rw [hleft, hright, htop, hbottom]
      exact ⟨hx, hy⟩
  · exact pieces_disjoint hcols hrows
  · intro r hr
    obtain ⟨row, hrow, col, hcol, rfl⟩ := mem_pieces.mp hr
    obtain ⟨hx, hy, hleft, hright, htop, hbottom⟩ := hbounds hcol hrow
    refine .inr (not_or.mpr ⟨?_, ?_⟩)
    · rw [hleft, hright]
      exact hx.ne
    · rw [htop, hbottom]
      exact hy.ne
  · intro r hr
    obtain ⟨row, hrow, col, hcol, rfl⟩ := mem_pieces.mp hr
    exact subQuad_upright (hbounds hcol hrow).1.le (hbounds hcol hrow).2.1.le
  · intro r hr p _
    obtain ⟨row, hrow, col, hcol, rfl⟩ := mem_pieces.mp hr
    exact subQuad_textureAt h hflat (hbounds hcol hrow).1 (hbounds hcol hrow).2.1 p
  · intro r hr
    obtain ⟨row, hrow, col, hcol, rfl⟩ := mem_pieces.mp hr
    exact subQuad_kept
  · intro r hr
    obtain ⟨row, hrow, col, hcol, rfl⟩ := mem_pieces.mp hr
    exact hplace row hrow col hcol

end tiling

/-- On one side of a vertical line. -/
def BesideX (x : ℚ) (r : WindowQuad) : Prop := r.right ≤ x ∨ x ≤ r.left

def BesideY (y : ℚ) (r : WindowQuad) : Prop := r.bottom ≤ y ∨ y ≤ r.top

/-- In a cell of the grid. -/
def InCell (left top xIncrement yIncrement : ℚ) (r : WindowQuad) : Prop :=
  (∃ i : ℤ, left + i * xIncrement ≤ r.left ∧ r.right ≤ left + (i + 1) * xIncrement) ∧
    ∃ j : ℤ, top + j * yIncrement ≤ r.top ∧ r.bottom ≤ top + (j + 1) * yIncrement

theorem splitAtX_splits (h : q.Upright) (x : ℚ) : ∃ parts, q.splitAtX x = some parts ∧ Splits (BesideX x) q parts := by
  unfold splitAtX
  rw [if_neg (not_isTransformed h)]
  split
  · rename_i hwhole
    refine ⟨[q], rfl, splits_whole h fun _ => ?_⟩
    obtain hleft | hright := hwhole
    · exact .inl ((right_eq h).trans_le (hleft 1))
    · exact .inr ((hright 0).le.trans_eq (left_eq h).symm)
  · rename_i hacross
    split
    · exact ⟨[q], rfl, splits_whole h fun hflat => absurd ‹_› hflat⟩
    · rename_i hflat
      obtain ⟨-, hheight⟩ := sides_of_not_isFlat h hflat
      obtain ⟨hnotLeft, hnotRight⟩ := not_or.mp hacross
      have hleft : q.left < x := not_le.mp fun hle => hnotRight fun i => hle.trans (left_le i)
      have hright : x < q.right := not_le.mp fun hle => hnotLeft fun i => (le_right i).trans hle
      refine ⟨q.pieces [(q.left, x), (x, q.right)] [(q.top, q.bottom)], ?_,
        splits_pieces h hflat ⟨rfl, hleft, rfl, hright, rfl⟩ ⟨rfl, hheight, rfl⟩ ?_⟩
      · rw [makeSubQuad_eq h hleft hheight le_rfl hright.le le_rfl le_rfl,
          makeSubQuad_eq h hright hheight hleft.le le_rfl le_rfl le_rfl]
        rfl
      · simp only [List.forall_mem_singleton, List.forall_mem_cons]
        exact ⟨.inl (subQuad_sides hleft.le hheight.le).2.1.le, .inr (subQuad_sides hright.le hheight.le).1.ge⟩

theorem splitAtY_splits (h : q.Upright) (y : ℚ) : ∃ parts, q.splitAtY y = some parts ∧ Splits (BesideY y) q parts := by
  unfold splitAtY
  rw [if_neg (not_isTransformed h)]
  split
  · rename_i hwhole
    refine ⟨[q], rfl, splits_whole h fun _ => ?_⟩
    obtain htop | hbottom := hwhole
    · exact .inl ((bottom_eq h).trans_le (htop 2))
    · exact .inr ((hbottom 0).le.trans_eq (top_eq h).symm)
  · rename_i hacross
    split
    · exact ⟨[q], rfl, splits_whole h fun hflat => absurd ‹_› hflat⟩
    · rename_i hflat
      obtain ⟨hwidth, -⟩ := sides_of_not_isFlat h hflat
      obtain ⟨hnotTop, hnotBottom⟩ := not_or.mp hacross
      have htop : q.top < y := not_le.mp fun hle => hnotBottom fun i => hle.trans (top_le i)
      have hbottom : y < q.bottom := not_le.mp fun hle => hnotTop fun i => (le_bottom i).trans hle
      refine ⟨q.pieces [(q.left, q.right)] [(q.top, y), (y, q.bottom)], ?_,
        splits_pieces h hflat ⟨rfl, hwidth, rfl⟩ ⟨rfl, htop, rfl, hbottom, rfl⟩ ?_⟩
      · rw [makeSubQuad_eq h hwidth htop le_rfl le_rfl le_rfl hbottom.le,
          makeSubQuad_eq h hwidth hbottom le_rfl le_rfl htop.le le_rfl]
        rfl
      · simp only [List.forall_mem_singleton, List.forall_mem_cons]
        exact ⟨.inl (subQuad_sides hwidth.le htop.le).2.2.2.le, .inr (subQuad_sides hwidth.le hbottom.le).2.2.1.ge⟩

section grid
variable {left top xIncrement yIncrement : ℚ}

/-- The cell that the upper left corner is in. -/
private theorem begin_bounds {first pos inc : ℚ} (hinc : 0 < inc) :
    first + ⌊(pos - first) / inc⌋ * inc ≤ pos ∧ pos < first + ⌊(pos - first) / inc⌋ * inc + inc := by
  have hle := (le_div_iff₀ hinc).mp (Int.floor_le ((pos - first) / inc))
  have hlt := (div_lt_iff₀ hinc).mp (Int.lt_floor_add_one ((pos - first) / inc))
  constructor
  · linarith
  · linarith

private theorem begin_within {first inc lo hi : ℚ} {begins : ℤ} {n : Nat} {s : ℚ × ℚ}
    (hs : s ∈ cells inc lo hi n (first + begins * inc)) :
    ∃ i : ℤ, first + i * inc ≤ s.1 ∧ s.2 ≤ first + (i + 1) * inc := by
  obtain ⟨i, hle, hge⟩ := cells_within hs
  refine ⟨begins + i, ?_, ?_⟩
  · push_cast
    linarith
  · push_cast
    linarith

/-- With rounds enough for both loops a quad is in the pieces that the cells cut out of it. -/
theorem inGrid_splits (h : q.Upright) (hsteps : ¬ q.isFlat → 0 < xIncrement ∧ 0 < yIncrement) :
    ∃ parts, (∀ᶠ n in Filter.atTop, q.inGrid left top xIncrement yIncrement n = some parts) ∧
      Splits (InCell left top xIncrement yIncrement) q parts := by
  by_cases hflat : q.isFlat
  · refine ⟨[q], .of_forall fun n => if_pos hflat, splits_whole h fun hsized => absurd hflat hsized⟩
  · obtain ⟨hx, hy⟩ := hsteps hflat
    obtain ⟨hwidth, hheight⟩ := sides_of_not_isFlat h hflat
    set xBegin := left + ⌊(q.left - left) / xIncrement⌋ * xIncrement with hxBegin
    set yBegin := top + ⌊(q.top - top) / yIncrement⌋ * yIncrement with hyBegin
    have hxb : xBegin ≤ q.left ∧ q.left < xBegin + xIncrement := begin_bounds hx
    have hyb : yBegin ≤ q.top ∧ q.top < yBegin + yIncrement := begin_bounds hy
    obtain ⟨N, hN⟩ := Filter.eventually_atTop.mp
      ((eventually_reaches hx xBegin q.right).and (eventually_reaches hy yBegin q.bottom))
    obtain ⟨hreachX, hreachY⟩ := hN N le_rfl
    have hcols := cells_cuts hx hwidth hxb.1 hxb.2 hreachX
    have hrows := cells_cuts hy hheight hyb.1 hyb.2 hreachY
    refine ⟨q.pieces (cells xIncrement q.left q.right N xBegin) (cells yIncrement q.top q.bottom N yBegin), ?_,
      splits_pieces h hflat hcols hrows fun row hrow col hcol => ?_⟩
    · refine Filter.eventually_atTop.mpr ⟨N + 1, fun n hn => ?_⟩
      obtain ⟨n, rfl⟩ := Nat.exists_eq_add_of_le' (Nat.one_le_of_lt hn)
      have hle : N ≤ n := Nat.le_of_succ_le_succ hn
      obtain ⟨hreachX', hreachY'⟩ := hN n hle
      unfold inGrid pieces
      rw [if_neg hflat, ← cells_stable hreachX hle, ← cells_stable hreachY hle]
      refine forSteps_eq hy hheight hyb.2 hreachY' fun y htop hrow hbottom => ?_
      refine forSteps_eq hx hwidth hxb.2 hreachX' fun x hleft hcol hright => ?_
      rw [makeSubQuad_eq h hcol hrow hleft hright htop hbottom]
      rfl
    · obtain ⟨-, -, hl, hr, ht, hb⟩ := piece_bounds hcols hrows hcol hrow
      unfold InCell
      rw [hl, hr, ht, hb]
      exact ⟨begin_within hcol, begin_within hrow⟩

end grid

end WindowQuad

open WindowQuad

/-- Each quad is split, and nothing else is in the list. -/
def SplitInto (inPlace : WindowQuad → Prop) (quads ret : List WindowQuad) : Prop :=
  ∃ parts : List (List WindowQuad), ret = parts.flatten ∧ List.Forall₂ (Splits inPlace) quads parts

/-- A loop over the quads ends when each of its rounds does. -/
theorem eachQuad_splitInto {f : Nat → WindowQuad → Option (List WindowQuad)} {inPlace : WindowQuad → Prop}
    {quads : List WindowQuad}
    (h : ∀ q ∈ quads, ∃ parts, (∀ᶠ n in Filter.atTop, f n q = some parts) ∧ Splits inPlace q parts) :
    ∃ ret, (∀ᶠ n in Filter.atTop, eachQuad (f n) quads = some ret) ∧ SplitInto inPlace quads ret := by
  induction quads with
  | nil => exact ⟨[], .of_forall fun _ => rfl, [], rfl, .nil⟩
  | cons q quads ih =>
    obtain ⟨parts, hparts, hsplits⟩ := h q List.mem_cons_self
    obtain ⟨ret, hret, rest, rfl, hrest⟩ := ih fun r hr => h r (List.mem_cons_of_mem q hr)
    refine ⟨parts ++ rest.flatten, ?_, parts :: rest, rfl, .cons hsplits hrest⟩
    filter_upwards [hparts, hret] with n hn hn'
    unfold eachQuad
    rw [hn, Option.bind_some, hn', Option.map_some]

private theorem foldl_bounds (quads : List WindowQuad) (b : Bounding) :
    let b' := quads.foldl (fun b quad =>
      ⟨min b.left quad.left, max b.right quad.right, min b.top quad.top, max b.bottom quad.bottom⟩) b
    (b'.left ≤ b.left ∧ b.right ≤ b'.right ∧ b'.top ≤ b.top ∧ b.bottom ≤ b'.bottom) ∧
      ∀ q ∈ quads, b'.left ≤ q.left ∧ q.right ≤ b'.right ∧ b'.top ≤ q.top ∧ q.bottom ≤ b'.bottom := by
  induction quads generalizing b with
  | nil => exact ⟨⟨le_rfl, le_rfl, le_rfl, le_rfl⟩, fun q hq => absurd hq List.not_mem_nil⟩
  | cons r quads ih =>
    obtain ⟨⟨hleft, hright, htop, hbottom⟩, hrest⟩ :=
      ih ⟨min b.left r.left, max b.right r.right, min b.top r.top, max b.bottom r.bottom⟩
    dsimp only [List.foldl_cons] at hleft hright htop hbottom hrest ⊢
    refine ⟨⟨hleft.trans (min_le_left _ _), (le_max_left _ _).trans hright, htop.trans (min_le_left _ _),
      (le_max_left _ _).trans hbottom⟩, fun q hq => ?_⟩
    obtain rfl | hq := List.mem_cons.mp hq
    · exact ⟨hleft.trans (min_le_right _ _), (le_max_right _ _).trans hright, htop.trans (min_le_right _ _),
        (le_max_right _ _).trans hbottom⟩
    · exact hrest q hq

/-- The bounding rectangle has all quads in it. -/
theorem boundingOf_bounds (first : WindowQuad) {quads : List WindowQuad} {q : WindowQuad} (hq : q ∈ quads) :
    (boundingOf first quads).left ≤ q.left ∧ q.right ≤ (boundingOf first quads).right ∧
      (boundingOf first quads).top ≤ q.top ∧ q.bottom ≤ (boundingOf first quads).bottom :=
  (foldl_bounds quads _).2 q hq

namespace WindowQuadList

/-- The rectangle that the grids start in. -/
def bounds : List WindowQuad → Bounding
  | [] => ⟨0, 0, 0, 0⟩
  | first :: quads => boundingOf first (first :: quads)

variable {quads : List WindowQuad}

private theorem any_isTransformed (h : ∀ q ∈ quads, q.Upright) : ¬ quads.any (·.isTransformed) = true := by
  rw [List.any_eq_true]
  rintro ⟨q, hq, htransformed⟩
  exact not_isTransformed (h q hq) htransformed

theorem makeGrid_splits (h : ∀ q ∈ quads, q.Upright) {maxQuadSize : Int} (hsize : 0 < maxQuadSize) :
    ∃ ret, (∀ᶠ n in Filter.atTop, makeGrid quads maxQuadSize n = some ret) ∧
      SplitInto (InCell (bounds quads).left (bounds quads).top maxQuadSize maxQuadSize) quads ret := by
  cases quads with
  | nil => exact ⟨[], .of_forall fun _ => rfl, [], rfl, .nil⟩
  | cons first quads =>
    have hinc : (0 : ℚ) < maxQuadSize := Int.cast_pos.mpr hsize
    obtain ⟨ret, hret, hsplit⟩ := eachQuad_splitInto fun q hq =>
      inGrid_splits (h q hq) fun _ => ⟨hinc, hinc⟩
    refine ⟨ret, hret.mono fun n hn => ?_, hsplit⟩
    unfold makeGrid
    dsimp only
    rw [if_neg (any_isTransformed h)]
    exact hn

theorem makeRegularGrid_splits (h : ∀ q ∈ quads, q.Upright) {xSubdivisions ySubdivisions : Int} (hx : 0 < xSubdivisions)
    (hy : 0 < ySubdivisions) :
    ∃ ret, (∀ᶠ n in Filter.atTop, makeRegularGrid quads xSubdivisions ySubdivisions n = some ret) ∧
      SplitInto (InCell (bounds quads).left (bounds quads).top (((bounds quads).right - (bounds quads).left) / xSubdivisions)
        (((bounds quads).bottom - (bounds quads).top) / ySubdivisions)) quads ret := by
  cases quads with
  | nil => exact ⟨[], .of_forall fun _ => rfl, [], rfl, .nil⟩
  | cons first quads =>
    obtain ⟨ret, hret, hsplit⟩ := eachQuad_splitInto fun q hq => inGrid_splits (h q hq) fun hflat => by
      obtain ⟨hwidth, hheight⟩ := sides_of_not_isFlat (h q hq) hflat
      obtain ⟨hleft, hright, htop, hbottom⟩ := boundingOf_bounds first hq
      -- A quad with a size gives the bounding rectangle one.
      exact ⟨div_pos (sub_pos.mpr ((hleft.trans_lt hwidth).trans_le hright)) (Int.cast_pos.mpr hx),
        div_pos (sub_pos.mpr ((htop.trans_lt hheight).trans_le hbottom)) (Int.cast_pos.mpr hy)⟩
    refine ⟨ret, hret.mono fun n hn => ?_, hsplit⟩
    unfold makeRegularGrid
    dsimp only
    rw [if_neg (any_isTransformed h)]
    exact hn

theorem splitAtX_splitInto (h : ∀ q ∈ quads, q.Upright) (x : ℚ) :
    ∃ ret, splitAtX quads x = some ret ∧ SplitInto (BesideX x) quads ret := by
  obtain ⟨ret, hret, hsplit⟩ := eachQuad_splitInto fun q hq => by
    obtain ⟨parts, hparts, hsplits⟩ := splitAtX_splits (h q hq) x
    exact ⟨parts, .of_forall fun _ : Nat => hparts, hsplits⟩
  exact ⟨ret, Filter.eventually_const.mp hret, hsplit⟩

theorem splitAtY_splitInto (h : ∀ q ∈ quads, q.Upright) (y : ℚ) :
    ∃ ret, splitAtY quads y = some ret ∧ SplitInto (BesideY y) quads ret := by
  obtain ⟨ret, hret, hsplit⟩ := eachQuad_splitInto fun q hq => by
    obtain ⟨parts, hparts, hsplits⟩ := splitAtY_splits (h q hq) y
    exact ⟨parts, .of_forall fun _ : Nat => hparts, hsplits⟩
  exact ⟨ret, Filter.eventually_const.mp hret, hsplit⟩

/-- Splitting upright quads ends within the precondition of each part, and what takes the place of each quad tiles it, is in
one half-plane or cell if the quad has a size, and looks the same. -/
theorem splits_tile (h : ∀ q ∈ quads, q.Upright) :
    (∀ x, ∃ ret, splitAtX quads x = some ret ∧ SplitInto (BesideX x) quads ret) ∧
      (∀ y, ∃ ret, splitAtY quads y = some ret ∧ SplitInto (BesideY y) quads ret) ∧
      (∀ maxQuadSize : Int, 0 < maxQuadSize →
        ∃ ret, (∀ᶠ n in Filter.atTop, makeGrid quads maxQuadSize n = some ret) ∧
          SplitInto (InCell (bounds quads).left (bounds quads).top maxQuadSize maxQuadSize) quads ret) ∧
      ∀ xSubdivisions ySubdivisions : Int, 0 < xSubdivisions → 0 < ySubdivisions →
        ∃ ret, (∀ᶠ n in Filter.atTop, makeRegularGrid quads xSubdivisions ySubdivisions n = some ret) ∧
          SplitInto (InCell (bounds quads).left (bounds quads).top
            (((bounds quads).right - (bounds quads).left) / xSubdivisions)
            (((bounds quads).bottom - (bounds quads).top) / ySubdivisions)) quads ret :=
  ⟨splitAtX_splitInto h, splitAtY_splitInto h, fun _ => makeGrid_splits h, fun _ _ => makeRegularGrid_splits h⟩

/-- A part of the contents from the origin on. -/
def contents (width height : ℚ) : WindowQuad where
  verts := ![⟨0, 0, 0, 0, 0, 0⟩, ⟨width, 0, width, 0, width, 0⟩, ⟨width, height, width, height, width, height⟩,
    ⟨0, height, 0, height, 0, height⟩]
  quadType := .contents
  uvSwapped := false
  quadID := -1

private theorem contents_upright {width height : ℚ} (hwidth : 0 ≤ width) (hheight : 0 ≤ height) :
    (contents width height).Upright :=
  ⟨fun i => by fin_cases i <;> exact ⟨rfl, rfl⟩, rfl, rfl, rfl, rfl, hwidth, hheight, ⟨rfl, rfl⟩, rfl, rfl⟩

theorem square_tiled : ∃ ret, splitAtX [contents 2 2] 1 = some ret ∧ SplitInto (BesideX 1) [contents 2 2] ret :=
  (splits_tile (List.forall_mem_singleton.mpr (contents_upright (by decide) (by decide)))).1 1

/-- A quad without height stays on both sides of the line that it is split at. -/
theorem line_whole :
    (contents 2 0).Upright ∧ ∃ ret, splitAtX [contents 2 0] 1 = some ret ∧ ∃ r ∈ ret, ¬ BesideX 1 r := by
  have hupright := contents_upright (show (0 : ℚ) ≤ 2 by decide) (le_refl 0)
  have hflat : (contents 2 0).isFlat := .inr ((top_eq hupright).trans (bottom_eq hupright).symm)
  obtain ⟨parts, hparts, hsplits⟩ := WindowQuad.splitAtX_splits hupright 1
  rw [hsplits.flat hflat] at hparts
  refine ⟨hupright, [contents 2 0], ?_, _, List.mem_singleton_self _, ?_⟩
  · unfold splitAtX eachQuad
    rw [hparts]
    rfl
  · unfold BesideX
    rw [left_eq hupright, right_eq hupright, not_or, not_le, not_le]
    exact ⟨show (1 : ℚ) < 2 by decide, show (0 : ℚ) < 1 by decide⟩

end WindowQuadList
end KWinFT.Effects
