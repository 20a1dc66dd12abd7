import KWinFT.Lib.Grid
import KWinFT.VirtualDesktops.Manager

/-! The grid of the desktops. Both ways to fill it put the desktop at each position of the list into
one cell, so coordinates and desktops determine each other. -/
namespace KWinFT.VirtualDesktops
open Lib
variable {ds : List Address} {d : Address}

/-- Conversion of a `uint` to `int`. -/
def toInt (n : Nat) : Int := if n < 2147483648 then n else (n : Int) - 4294967296

namespace VirtualDesktopGrid
variable (g : VirtualDesktopGrid)

/-- `width()`; the announced size is kept as `QSize`. -/
def intWidth : Int := toInt g.width

/-- `height()`. -/
def intHeight : Int := toInt g.height

/-- The loop of `gridCoords` from row `y` on. -/
def gridCoordsFrom (d : Address) : Nat → List (List Address) → Int × Int
  | _, [] => (-1, -1)
  | y, row :: rows =>
    match row.idxOf? d with
    | some x => (x, y)
    | none => gridCoordsFrom d (y + 1) rows

def gridCoords (d : Address) : Int × Int := gridCoordsFrom d 0 g.cells

/-- The desktop at the coordinates, if there is one. An index before the start of a row, or of the
rows, is outside of the memory. -/
def atCoords (coords : Int × Int) : Option (Option Address) :=
  if coords.2 ≥ g.cells.length then some none
  else if coords.2 < 0 then none
  else
    let row := g.cells[coords.2.toNat]?.getD []
    if coords.1 ≥ row.length then some none
    else if coords.1 < 0 then none
    else some row[coords.1.toNat]?

end VirtualDesktopGrid

section filling

theorem cell_fillRows (width height x y : Nat) :
    cell (fillRows width height ds) x y = if x < width ∧ y < height then ds[y * width + x]? else none := by
  induction height generalizing ds y with
  | zero => simp [cell, fillRows]
  | succ height ih =>
    cases y with
    | zero =>
      simp only [cell, fillRows, List.getElem?_cons_zero, Option.bind_some, List.getElem?_take]
      simp
    | succ y =>
      have hc : cell (fillRows width (height + 1) ds) x (y + 1) = cell (fillRows width height (ds.drop width)) x y := rfl
      rw [hc, ih, List.getElem?_drop, Nat.succ_mul]
      simp only [Nat.add_lt_add_iff_right, Nat.add_comm, Nat.add_left_comm]

theorem cell_fillColumns (width height x y : Nat) :
    cell (fillColumns width height ds) x y = if x < width ∧ y < height then ds[x * height + y]? else none := by
  by_cases hy : y < height
  · have hf (i : Nat) (hi : ds[i * height + y]? = none) : ds[(i + 1) * height + y]? = none := by
      rw [List.getElem?_eq_none_iff] at hi ⊢
      rw [Nat.succ_mul]
      omega
    simp only [cell, fillColumns, List.getElem?_map, List.getElem?_range hy, Option.map_some, Option.bind_some,
      getElem?_filterMap_range hf, hy, and_true]
  · simp [cell, fillColumns, hy]

/-- The position in the list of desktops that a cell of the grid shows. -/
def position (orientation : Orientation) (width height x y : Nat) : Nat :=
  match orientation with
  | .horizontal => y * width + x
  | .vertical => x * height + y

theorem cell_update (orientation : Orientation) (width height x y : Nat) :
    cell (VirtualDesktopGrid.update width height orientation ds).cells x y =
      if x < width ∧ y < height then ds[position orientation width height x y]? else none := by
  cases orientation with
  | horizontal => exact cell_fillRows width height x y
  | vertical => exact cell_fillColumns width height x y

private theorem line_unique {n i j i' j' : Nat} (hj : j < n) (hj' : j' < n) (h : i * n + j = i' * n + j') :
    i = i' ∧ j = j' := by
  have hmod := congrArg (· % n) h
  simp only [Nat.mul_add_mod_self_right, Nat.mod_eq_of_lt hj, Nat.mod_eq_of_lt hj'] at hmod
  have hdiv := congrArg (· / n) h
  simp only [Nat.mul_comm _ n, Nat.mul_add_div (Nat.lt_of_le_of_lt (Nat.zero_le j) hj), Nat.div_eq_of_lt hj,
    Nat.div_eq_of_lt hj'] at hdiv
  exact ⟨hdiv, hmod⟩

theorem separate_update (hds : ds.Nodup) (orientation : Orientation) (width height : Nat) :
    Separate (VirtualDesktopGrid.update width height orientation ds).cells := by
  intro x y x' y' d h h'
  rw [cell_update] at h h'
  split at h
  · next hx =>
    split at h'
    · next hx' =>
      have hpos := (List.getElem?_inj (List.getElem?_eq_some_iff.mp h).1 hds).mp (h.trans h'.symm)
      cases orientation with
      | horizontal =>
        obtain ⟨hy, hx⟩ := line_unique hx.1 hx'.1 hpos
        exact ⟨hx, hy⟩
      | vertical => exact line_unique hx.2 hx'.2 hpos
    · cases h'
  · cases h

/-- With room for all desktops, the grid shows each of them once and nothing else. -/
theorem update_perm (hds : ds.Nodup) (orientation : Orientation) {width height : Nat}
    (hroom : ds.length ≤ width * height) :
    (VirtualDesktopGrid.update width height orientation ds).cells.flatten.Perm ds := by
  rw [List.perm_ext_iff_of_nodup (separate_update hds orientation width height).nodup_flatten hds]
  intro d
  simp only [mem_flatten_iff_cell, cell_update]
  constructor
  · rintro ⟨x, y, h⟩
    split at h
    · exact List.mem_of_getElem? h
    · cases h
  · intro hd
    obtain ⟨i, hi⟩ := List.mem_iff_getElem?.mp hd
    have hlt : i < width * height := Nat.lt_of_lt_of_le (List.getElem?_eq_some_iff.mp hi).1 hroom
    have hw : 0 < width := Nat.pos_of_ne_zero (by rintro rfl; simp at hlt)
    have hh : 0 < height := Nat.pos_of_ne_zero (by rintro rfl; simp at hlt)
    cases orientation with
    | horizontal =>
      refine ⟨i % width, i / width, ?_⟩
      rw [if_pos ⟨Nat.mod_lt i hw, Nat.div_lt_of_lt_mul hlt⟩, position, Nat.div_add_mod' i width, hi]
    | vertical =>
      refine ⟨i / height, i % height, ?_⟩
      rw [if_pos ⟨Nat.div_lt_of_lt_mul (Nat.mul_comm width height ▸ hlt), Nat.mod_lt i hh⟩, position,
        Nat.div_add_mod' i height, hi]

end filling

namespace VirtualDesktopGrid
variable {g : VirtualDesktopGrid}

theorem atCoords_nat (x y : Nat) : g.atCoords (x, y) = some (cell g.cells x y) := by
  unfold atCoords cell
  by_cases hy : y < g.cells.length
  · have hrow : g.cells[y]? = some g.cells[y] := List.getElem?_eq_getElem hy
    by_cases hx : x < g.cells[y].length
    · simp [hrow, hx, Nat.not_le.mpr hy, Nat.not_le.mpr hx, Int.not_lt.mpr (Int.natCast_nonneg x)]
    · simp [hrow, Nat.le_of_not_lt hx, Nat.not_le.mpr hy]
  · simp [hy, Nat.le_of_not_lt hy]

theorem cell_of_atCoords {c : Int × Int} (h : g.atCoords c = some (some d)) :
    ∃ x y : Nat, c = (↑x, ↑y) ∧ cell g.cells x y = some d := by
  have hnat : 0 ≤ c.1 ∧ 0 ≤ c.2 := by
    unfold atCoords at h
    dsimp only at h
    split at h
    · cases h
    split at h
    · cases h
    split at h
    · cases h
    split at h
    · cases h
    omega
  refine ⟨c.1.toNat, c.2.toNat, ?_, ?_⟩
  · rw [Int.toNat_of_nonneg hnat.1, Int.toNat_of_nonneg hnat.2]
  · rw [← Option.some_inj, ← atCoords_nat, Int.toNat_of_nonneg hnat.1, Int.toNat_of_nonneg hnat.2, ← h]

private theorem gridCoordsFrom_eq (rows : List (List Address)) (y₀ x y : Nat) (hs : Separate rows)
    (hc : cell rows x y = some d) : gridCoordsFrom d y₀ rows = (↑x, ↑(y₀ + y)) := by
  induction rows generalizing y₀ y with
  | nil => simp [cell] at hc
  | cons row rows ih =>
    unfold gridCoordsFrom
    have hs' : Separate rows := fun x y x' y' a h h' => by
      obtain ⟨hx, hy⟩ := hs x (y + 1) x' (y' + 1) a h h'
      exact ⟨hx, by omega⟩
    split
    · next i hi =>
      have hi' : cell (row :: rows) i 0 = some d := by
        obtain ⟨hlt, heq, -⟩ := List.idxOf?_eq_some_iff.mp hi
        simp [cell, hlt, heq]
      obtain ⟨rfl, rfl⟩ := hs _ _ _ _ _ hi' hc
      simp
    · next hi =>
      cases y with
      | zero =>
        have hmem : d ∈ row := by
          simp only [cell, List.getElem?_cons_zero, Option.bind_some] at hc
          exact List.mem_of_getElem? hc
        exact absurd hmem (List.idxOf?_eq_none_iff.mp hi)
      | succ y =>
        rw [ih (y₀ + 1) y hs' hc]
        congr 2
        omega

/-- The coordinates of a desktop are those of its only cell. -/
theorem gridCoords_eq (hs : Separate g.cells) {x y : Nat} (hc : cell g.cells x y = some d) :
    g.gridCoords d = (↑x, ↑y) := by
  rw [gridCoords, gridCoordsFrom_eq g.cells 0 x y hs hc, Nat.zero_add]

end VirtualDesktopGrid

end KWinFT.VirtualDesktops
