import KWinFT.VirtualDesktops.Grid
import KWinFT.VirtualDesktops.Numbering

/-! The layout that every request leaves behind. The size grows until the desktops fit, in unsigned
arithmetic; it is read back as signed, so a negative number of columns from the root window spoils it. -/
namespace KWinFT.VirtualDesktops
open Lib

/-- A size that can grow by all desktops without leaving the range of `int`, in the one direction or
because the other makes the product large enough. -/
structure Fits (width height : Nat) : Prop where
  width_pos : 0 < width
  width_lt : width < 2147483648
  height_pos : 0 < height
  height_lt : height < 2147483648
  room : width + maximum < 2147483648 ∨ height + maximum < 2147483648

/-- The size of a grid that has room for the desktops. -/
structure Roomy (n width height : Nat) : Prop where
  width_lt : width < 2147483648
  height_lt : height < 2147483648
  le_mul : n ≤ width * height

theorem Fits.swap {width height : Nat} (h : Fits width height) : Fits height width :=
  ⟨h.height_pos, h.height_lt, h.width_pos, h.width_lt, h.room.symm⟩

theorem Roomy.swap {n width height : Nat} (h : Roomy n width height) : Roomy n height width :=
  ⟨h.height_lt, h.width_lt, Nat.mul_comm width height ▸ h.le_mul⟩

namespace VirtualDesktopManager

private theorem growLayout_vertical (n fuel width height : Nat) :
    growLayout .vertical n fuel width height = (growLayout .horizontal n fuel height width).swap := by
  induction fuel generalizing width height with
  | zero => rfl
  | succ fuel ih =>
    unfold growLayout
    rw [Nat.mul_comm width height]
    split
    · exact ih _ _
    · rfl

/-- The width ends at the first value with room; each round adds a row length below `2 ^ 32`. -/
private theorem growLayout_horizontal {n height : Nat} (fuel width : Nat) (hpos : 0 < height)
    (hlt : height ≤ 2147483648) (hn : n ≤ maximum) (hw : width + fuel < 4294967296)
    (hf : n ≤ fuel + width * height % 4294967296) :
    (growLayout .horizontal n fuel width height).2 = height ∧
      width ≤ (growLayout .horizontal n fuel width height).1 ∧
      (growLayout .horizontal n fuel width height).1 ≤ width + fuel ∧
      n ≤ (growLayout .horizontal n fuel width height).1 * height ∧
      ∀ v, width ≤ v → v < (growLayout .horizontal n fuel width height).1 → v * height % 4294967296 < n := by
  induction fuel generalizing width with
  | zero =>
    refine ⟨rfl, Nat.le_refl _, Nat.le_refl _, ?_, fun v h h' => absurd h' (Nat.not_lt.mpr h)⟩
    have := Nat.mod_le (width * height) (4294967296)
    simp only [growLayout]
    omega
  | succ fuel ih =>
    unfold growLayout
    split
    · next hless =>
      have hmod : (width + 1) % 4294967296 = width + 1 := Nat.mod_eq_of_lt (by omega)
      have hnext : (width + 1) * height % 4294967296 = width * height % 4294967296 + height := by
        rw [Nat.succ_mul, Nat.add_mod, Nat.mod_eq_of_lt (b := 4294967296) (a := height) (by omega)]
        unfold maximum at hn
        exact Nat.mod_eq_of_lt (by omega)
      dsimp only
      rw [hmod]
      obtain ⟨h2, hle, hge, hroom, hfirst⟩ := ih (width + 1) (by omega) (by omega)
      refine ⟨h2, by omega, by omega, hroom, fun v hv hv' => ?_⟩
      rcases Nat.eq_or_lt_of_le hv with rfl | hv
      · exact hless
      · exact hfirst v hv hv'
    · next hless =>
      have := Nat.mod_le (width * height) (4294967296)
      exact ⟨rfl, Nat.le_refl _, by simp, by simp only; omega, fun v h h' => absurd h' (Nat.not_lt.mpr h)⟩

private theorem le_largest_mul {height : Nat} (hpos : 0 < height) (hlt : height + maximum < 2147483648) :
    maximum ≤ 2147483647 * height % 4294967296 := by
  unfold maximum at *
  obtain ⟨k, rfl | rfl⟩ : ∃ k, height = 2 * k ∨ height = 2 * k + 1 := ⟨height / 2, by omega⟩
  · have hmul : 2147483647 * (2 * k) = (4294967296 - 2 * k) + 4294967296 * (k - 1) := by omega
    rw [hmul, Nat.add_mul_mod_self_left, Nat.mod_eq_of_lt (by omega)]
    omega
  · have hmul : 2147483647 * (2 * k + 1) = (2147483648 - (2 * k + 1)) + 4294967296 * k := by omega
    rw [hmul, Nat.add_mul_mod_self_left, Nat.mod_eq_of_lt (by omega)]
    omega

private theorem Fits.growHorizontal {n width height : Nat} (h : Fits width height) (hn : n ≤ maximum) :
    Roomy n (growLayout .horizontal n n width height).1 (growLayout .horizontal n n width height).2 := by
  obtain ⟨hw, hwlt, hh, hhlt, hroom⟩ := h
  obtain ⟨h2, hle, hge, hmul, hfirst⟩ :=
    growLayout_horizontal n width hh (Nat.le_of_lt hhlt) hn (by unfold maximum at hn; omega) (Nat.le_add_right n _)
  rw [h2]
  refine ⟨?_, hhlt, hmul⟩
  by_contra hover
  rcases hroom with hroom | hroom
  · omega
  · -- the largest `int` would have been too small
    have hlast := hfirst 2147483647 (by omega) (by omega)
    have hle := le_largest_mul hh hroom
    omega

private theorem Fits.grow {n width height : Nat} (h : Fits width height) (hn : n ≤ maximum)
    (orientation : Orientation) :
    Roomy n (growLayout orientation n n width height).1 (growLayout orientation n n width height).2 := by
  cases orientation with
  | horizontal => exact Fits.growHorizontal h hn
  | vertical =>
    rw [growLayout_vertical]
    exact (Fits.growHorizontal h.swap hn).swap

end VirtualDesktopManager

/-- What the root window reports can be taken over: the columns are not negative, and not both sizes
are at the end of the range of `int`. -/
def NETRootInfo.Sane (info : NETRootInfo) : Prop :=
  0 ≤ info.columns ∧ info.columns < 2147483648 ∧ info.rows < 2147483648 ∧
    (info.columns + maximum < 2147483648 ∨ info.rows + maximum < 2147483648)

/-- The grid shows the present desktops, with room for all of them. -/
structure Laid (m : VirtualDesktopManager) : Prop where
  rows_pos : 0 < m.rows
  grid : ∃ width height orientation, Roomy m.count width height ∧
    m.grid = .update width height orientation m.desktops

namespace VirtualDesktopManager
variable {m : VirtualDesktopManager}

theorem setNETDesktopLayout_laid (h : m.count ≤ maximum) (orientation : Orientation) {width height : Nat}
    (hfit : Fits width height) : Laid (m.setNETDesktopLayout orientation width height).1 := by
  have hw : ¬ (width = 0 ∧ height > 0) := fun hc => Nat.lt_irrefl 0 (hc.1 ▸ hfit.width_pos)
  have hh : ¬ (height = 0 ∧ width > 0) := fun hc => Nat.lt_irrefl 0 (hc.1 ▸ hfit.height_pos)
  unfold setNETDesktopLayout
  dsimp only
  rw [if_neg hw, if_neg hh]
  exact ⟨Nat.lt_of_lt_of_le Nat.one_pos (Nat.le_max_left 1 _), _, _, orientation, Fits.grow hfit h orientation, rfl⟩

private theorem fits_default {n : Nat} (hpos : 0 < n) (hn : n ≤ maximum) :
    Fits (n / if n = 1 then 1 else 2) (if n = 1 then 1 else 2) := by
  unfold maximum at hn
  split
  · next h => exact ⟨by omega, by omega, by omega, by omega, by unfold maximum; omega⟩
  · next h => exact ⟨by omega, by omega, by omega, by omega, by unfold maximum; omega⟩

private theorem fits_rows {n rows : Nat} (hpos : 0 < n) (hn : n ≤ maximum) (hr : 0 < rows) :
    0 < n / min rows n ∧ Fits (n / min rows n) (min rows n) := by
  have hmin : 0 < min rows n := by omega
  have hdiv : 0 < n / min rows n := Nat.div_pos (Nat.min_le_right _ _) hmin
  have hle : n / min rows n ≤ n := Nat.div_le_self _ _
  unfold maximum at hn
  exact ⟨hdiv, hdiv, by omega, hmin, by omega, by unfold maximum; omega⟩

private theorem fits_reported {info : NETRootInfo} (h : info.Sane) (hc : toUInt info.columns ≠ 0) :
    Fits (toUInt info.columns) (toUInt (max 1 info.rows)) := by
  obtain ⟨h0, hclt, hrlt, hroom⟩ := h
  unfold toUInt maximum at *
  exact ⟨by omega, by omega, by omega, by omega, by unfold maximum; omega⟩

/-- Redoing the layout gives room to any number of desktops. -/
theorem updateLayout_laid (hpos : 0 < m.count) (hcount : m.count ≤ maximum) (hrows : 0 < m.rows)
    (hinfo : ∀ info ∈ m.rootInfo, info.Sane) : Laid m.updateLayout.1 := by
  unfold updateLayout
  cases hr : m.rootInfo with
  | none =>
    obtain ⟨hdiv, hfit⟩ := fits_rows hpos hcount hrows
    simp only
    rw [if_neg (Nat.pos_iff_ne_zero.mp hdiv)]
    exact setNETDesktopLayout_laid (by exact hcount) _ hfit
  | some info =>
    simp only
    by_cases hc : toUInt info.columns = 0
    · rw [if_pos hc]
      exact setNETDesktopLayout_laid (by exact hcount) _ (fits_default hpos hcount)
    · rw [if_neg hc]
      exact setNETDesktopLayout_laid (by exact hcount) _ (fits_reported (hinfo info hr) hc)

@[simp] theorem updateLayout_rootInfo : m.updateLayout.1.rootInfo = m.rootInfo := rfl

end VirtualDesktopManager

end KWinFT.VirtualDesktops
