import KWinFT.VirtualDesktops.Layout

/-! The representation invariant of the manager. Every request ends with a new layout of the present
desktops, or does not touch them; so vector, numbers and grid agree as long as the root window
reports layouts that can be taken over. -/
namespace KWinFT.VirtualDesktops
open Lib

/-- The steps of a run in which all reported layouts are sane. -/
def saneReports (_ : VirtualDesktopManager) (op : Op) : Prop :=
  ∀ info, op = .reportLayout (some info) → info.Sane

/-- What every request keeps, before the first desktop exists as well. -/
structure Kept (m : VirtualDesktopManager) : Prop where
  numbered : Numbered m
  count_le : m.count ≤ maximum
  rows_pos : 0 < m.rows
  sane : ∀ info ∈ m.rootInfo, info.Sane
  laid : 0 < m.count → Laid m

namespace VirtualDesktopManager
variable (m : VirtualDesktopManager)

@[simp] theorem renumber_rows (ds : List Address) (n : Nat) : (m.renumber ds n).rows = m.rows := by
  induction ds generalizing m n with
  | nil => rfl
  | cons d ds ih => exact ih _ _

@[simp] theorem renumber_rootInfo (ds : List Address) (n : Nat) : (m.renumber ds n).rootInfo = m.rootInfo := by
  induction ds generalizing m n with
  | nil => rfl
  | cons d ds ih => exact ih _ _

theorem appendDesktops_same (ids : Nat → String) (n : Nat) :
    (appendDesktops ids n m).rows = m.rows ∧ (appendDesktops ids n m).rootInfo = m.rootInfo ∧
      (appendDesktops ids n m).count = m.count + n := by
  induction n generalizing m with
  | zero => exact ⟨rfl, rfl, rfl⟩
  | succ n ih =>
    obtain ⟨hr, hi, hc⟩ := ih { m.allocate _ with desktops := m.desktops ++ [m.next] }
    refine ⟨hr, hi, ?_⟩
    simp only [appendDesktops, hc]
    simp only [count, List.length_append, List.length_singleton]
    omega

end VirtualDesktopManager

namespace Kept
variable {m m' : VirtualDesktopManager}

theorem initial (translation : Translation) : Kept (.initial translation) :=
  ⟨.initial translation, Nat.zero_le _, Nat.two_pos, by simp [VirtualDesktopManager.initial],
    fun h => absurd h (Nat.lt_irrefl 0)⟩

/-- Any list of numbered desktops is laid out again. -/
theorem relayout (hn : Numbered m.updateLayout.1) (hpos : 0 < m.count) (hle : m.count ≤ maximum) (hrows : 0 < m.rows)
    (hs : ∀ info ∈ m.rootInfo, info.Sane) : Kept m.updateLayout.1 := by
  have hlaid := VirtualDesktopManager.updateLayout_laid hpos hle hrows hs
  exact ⟨hn, hle, hlaid.rows_pos, hs, fun _ => hlaid⟩

/-- The current desktop is not part of the layout. -/
theorem of_same (h : Kept m) (hn : Numbered m') (hd : m'.desktops = m.desktops) (hr : m'.rows = m.rows)
    (hg : m'.grid = m.grid) (hs : ∀ info ∈ m'.rootInfo, info.Sane) : Kept m' := by
  have hc : m'.count = m.count := congrArg List.length hd
  refine ⟨hn, hc ▸ h.count_le, hr ▸ h.rows_pos, hs, fun hpos => ?_⟩
  obtain ⟨hrows, w, ht, o, hroom, hgrid⟩ := h.laid (hc ▸ hpos)
  exact ⟨hr ▸ hrows, w, ht, o, hc ▸ hroom, by rw [hg, hd, hgrid]⟩

theorem setCurrentDesktop (h : Kept m) {d : Address} (hd : d ∈ m.desktops) :
    Kept (m.setCurrentDesktop d).1 := by
  have hn := h.numbered.setCurrentDesktop hd
  by_cases hc : m.current = some d
  · rw [VirtualDesktopManager.setCurrentDesktop, if_pos hc]
    exact h
  · rw [VirtualDesktopManager.setCurrentDesktop, if_neg hc] at hn ⊢
    exact h.of_same hn rfl rfl rfl h.sane

theorem setCurrent (h : Kept m) (n : Nat) : Kept (m.setCurrent n).1 := by
  unfold VirtualDesktopManager.setCurrent
  split
  · exact h
  · split
    · next d hd =>
      exact h.setCurrentDesktop (VirtualDesktopManager.mem_of_desktopForX11Id hd)
    · exact h

theorem setRows (h : Kept m) (rows : Nat) : Kept (m.setRows rows).1 := by
  unfold VirtualDesktopManager.setRows
  split
  · exact h
  · next hr =>
    simp only [not_or] at hr
    obtain ⟨h0, hle, -⟩ := hr
    have hmax := h.count_le
    have hdiv : m.count / rows ≤ m.count := Nat.div_le_self _ _
    refine relayout (h.numbered.of_same rfl rfl rfl h.numbered.current) (?_ : 0 < m.count) h.count_le
      (Nat.pos_of_ne_zero h0) ?_
    · omega
    · intro info hinfo
      obtain ⟨_, -, rfl⟩ := Option.map_eq_some_iff.mp hinfo
      generalize m.count / rows = columns at hdiv ⊢
      simp only [NETRootInfo.Sane, maximum] at *
      split <;> omega

theorem createVirtualDesktop (h : Kept m) (position : Nat) (name id : String) :
    Kept (m.createVirtualDesktop position name id).1 := by
  have hn := h.numbered.createVirtualDesktop position name id
  by_cases hc : m.count = maximum
  · rw [VirtualDesktopManager.createVirtualDesktop, if_pos hc]
    exact h
  · rw [VirtualDesktopManager.createVirtualDesktop, if_neg hc] at hn ⊢
    have hlen : (m.desktops.insertIdx (min position m.desktops.length) m.next).length = m.count + 1 :=
      List.length_insertIdx_of_le_length (Nat.min_le_right _ _) _
    have hle := h.count_le
    refine relayout hn ?_ ?_ ?_ ?_
    · simp only [VirtualDesktopManager.count, VirtualDesktopManager.renumber_desktops, hlen, Nat.succ_pos]
    · simp only [VirtualDesktopManager.count, VirtualDesktopManager.renumber_desktops, hlen]
      exact Nat.lt_of_le_of_ne hle hc
    · simpa [VirtualDesktopManager.allocate] using h.rows_pos
    · simpa [VirtualDesktopManager.allocate] using h.sane

theorem removeVirtualDesktop (h : Kept m) (id : String) {sigs : List Signal}
    (hr : m.removeVirtualDesktop id = some (m', sigs)) : Kept m' := by
  have hn := h.numbered.removeVirtualDesktop id hr
  unfold VirtualDesktopManager.removeVirtualDesktop at hr
  split at hr
  · cases hr; exact h
  next h1 =>
  split at hr
  · cases hr; exact h
  next d hd =>
  split at hr
  · cases hr
  dsimp only at hr
  split at hr
  · cases hr
  cases hr
  have hi : (m.heap d).x11DesktopNumber - 1 < m.desktops.length :=
    (List.getElem?_eq_some_iff.mp (h.numbered.getElem?_number (List.mem_of_find?_eq_some hd))).1
  have hle := h.count_le
  unfold VirtualDesktopManager.count at h1 hle
  refine relayout hn ?_ ?_ ?_ ?_
  · simp only [VirtualDesktopManager.count, VirtualDesktopManager.removeAt_desktops, List.length_eraseIdx_of_lt hi]
    omega
  · simp only [VirtualDesktopManager.count, VirtualDesktopManager.removeAt_desktops, List.length_eraseIdx_of_lt hi]
    omega
  · simpa [VirtualDesktopManager.removeAt] using h.rows_pos
  · simpa [VirtualDesktopManager.removeAt] using h.sane

theorem setCount (h : Kept m) (count : Nat) (ids : Nat → String) : Kept (m.setCount count ids).1 := by
  have hn := h.numbered.setCount count ids
  have hpos : 0 < max 1 (min count maximum) := by omega
  have hmax : max 1 (min count maximum) ≤ maximum := by unfold maximum; omega
  unfold VirtualDesktopManager.setCount at hn ⊢
  generalize max 1 (min count maximum) = n at *
  dsimp only at hn ⊢
  by_cases heq : n = m.count
  · rw [if_pos heq]
    exact h
  rw [if_neg heq] at hn ⊢
  by_cases hlt : n < m.count
  · rw [if_pos hlt] at hn ⊢
    have hlen : (m.desktops.take n).length = n := List.length_take_of_le (Nat.le_of_lt hlt)
    cases hcur : m.current with
    | none =>
      simp only [hcur] at hn ⊢
      exact relayout hn (by simpa [VirtualDesktopManager.count, hlen]) (by simpa [VirtualDesktopManager.count, hlen])
        h.rows_pos h.sane
    | some old =>
      simp only [hcur] at hn ⊢
      exact relayout hn (by simpa [VirtualDesktopManager.count, hlen]) (by simpa [VirtualDesktopManager.count, hlen])
        h.rows_pos h.sane
  · rw [if_neg hlt] at hn ⊢
    obtain ⟨hr, hi, hc⟩ := m.appendDesktops_same ids (n - m.count)
    exact relayout hn (by omega) (by omega) (hr ▸ h.rows_pos) (hi ▸ h.sane)

theorem step (h : Kept m) {op : Op} (hok : saneReports m op) (hs : VirtualDesktops.step m op = some m') :
    Kept m' := by
  cases op with
  | setCount count ids => cases hs; exact h.setCount count ids
  | createVirtualDesktop position name id => cases hs; exact h.createVirtualDesktop position name id
  | removeVirtualDesktop id =>
    obtain ⟨⟨m'', sigs⟩, hr, rfl⟩ := Option.map_eq_some_iff.mp hs
    exact h.removeVirtualDesktop id hr
  | setCurrent n => cases hs; exact h.setCurrent n
  | setCurrentDesktop d =>
    simp only [VirtualDesktops.step] at hs
    split at hs
    · next hd => cases hs; exact h.setCurrentDesktop hd
    · cases hs
  | setRows rows => cases hs; exact h.setRows rows
  | updateLayout =>
    simp only [VirtualDesktops.step] at hs
    split at hs
    · cases hs
    · next h0 =>
      cases hs
      exact relayout h.numbered.updateLayout (Nat.pos_of_ne_zero h0) h.count_le h.rows_pos h.sane
  | reportLayout info =>
    cases hs
    refine h.of_same (h.numbered.of_same rfl rfl rfl h.numbered.current) rfl rfl rfl fun i hi => ?_
    exact hok i (congrArg Op.reportLayout hi)

end Kept

/-- Vector, numbers and grid agree. -/
structure Represented (m : VirtualDesktopManager) : Prop where
  count_pos : 1 ≤ m.count
  count_le : m.count ≤ maximum
  number : ∀ i d, m.desktops[i]? = some d → (m.heap d).x11DesktopNumber = i + 1
  rows_pos : 1 ≤ m.rows
  size : (m.count : Int) ≤ m.grid.intWidth * m.grid.intHeight
  nodup : m.desktops.Nodup
  grid_perm : m.grid.cells.flatten.Perm m.desktops
  at_gridCoords : ∀ d ∈ m.desktops, m.grid.atCoords (m.grid.gridCoords d) = some (some d)
  gridCoords_at : ∀ c d, m.grid.atCoords c = some (some d) → m.grid.gridCoords d = c
  desktop_number : ∀ d ∈ m.desktops, m.desktopForX11Id (m.heap d).x11DesktopNumber = some d
  number_desktop : ∀ id d, m.desktopForX11Id id = some d → d ∈ m.desktops ∧ (m.heap d).x11DesktopNumber = id

theorem toInt_of_lt {n : Nat} (h : n < 2147483648) : toInt n = n := if_pos h

theorem Kept.separate {m : VirtualDesktopManager} (h : Kept m) (hl : Laid m) : Separate m.grid.cells := by
  obtain ⟨w, ht, o, -, hgrid⟩ := hl.grid
  rw [hgrid]
  exact separate_update h.numbered.nodup o w ht

theorem Kept.represented {m : VirtualDesktopManager} (h : Kept m) (hpos : 1 ≤ m.count) : Represented m := by
  have hlaid := h.laid hpos
  have hsep := h.separate hlaid
  obtain ⟨hrows, w, ht, o, hroom, hgrid⟩ := hlaid
  have hperm : m.grid.cells.flatten.Perm m.desktops := by
    rw [hgrid]
    exact update_perm h.numbered.nodup o hroom.le_mul
  refine ⟨hpos, h.count_le, h.numbered.number, hrows, ?_, h.numbered.nodup, hperm, fun d hd => ?_, fun c d hc => ?_,
    fun d hd => ?_, fun id d hd => ?_⟩
  · have hw : m.grid.intWidth = w := by rw [hgrid]; exact toInt_of_lt hroom.width_lt
    have hh : m.grid.intHeight = ht := by rw [hgrid]; exact toInt_of_lt hroom.height_lt
    rw [hw, hh]
    exact_mod_cast hroom.le_mul
  · obtain ⟨x, y, hc⟩ := mem_flatten_iff_cell.mp (hperm.mem_iff.mpr hd)
    rw [VirtualDesktopGrid.gridCoords_eq hsep hc, VirtualDesktopGrid.atCoords_nat, hc]
  · obtain ⟨x, y, rfl, hcell⟩ := VirtualDesktopGrid.cell_of_atCoords hc
    exact VirtualDesktopGrid.gridCoords_eq hsep hcell
  · exact (h.numbered.desktopForX11Id_iff hd).mpr rfl
  · have hmem := VirtualDesktopManager.mem_of_desktopForX11Id hd
    exact ⟨hmem, (h.numbered.desktopForX11Id_iff hmem).mp hd⟩

/-- As long as the root window reports layouts that can be taken over, every request leaves vector,
numbers and grid in agreement. -/
theorem represented_of_reachable {translation : Translation} {m : VirtualDesktopManager}
    (h : Lib.Reachable step saneReports (.initial translation) m)
    (hcount : 1 ≤ m.count) : Represented m :=
  (Lib.Reachable.invariant h Kept (.initial translation) fun _ _ _ hm hok hs => hm.step hok hs).represented hcount

/-- Desktops laid out as the root window asks. -/
def reported (n : Nat) (info : NETRootInfo) : VirtualDesktopManager :=
  { (VirtualDesktopManager.initial.setCount n fun i => toString i).1 with rootInfo := some info }.updateLayout.1

theorem reported_represented : Represented (reported 3 ⟨2, 2, .vertical⟩) := by
  refine represented_of_reachable (.step .updateLayout (.step (.reportLayout (some ⟨2, 2, .vertical⟩))
    (.step (.setCount 3 fun i => toString i) .init nofun rfl) ?_ rfl) nofun rfl) (by decide)
  intro info hinfo
  cases hinfo
  simp [NETRootInfo.Sane, maximum]

/-- With minus one columns the grid has a negative width. -/
theorem reported_negative : Reachable (reported 2 ⟨-1, 1, .horizontal⟩) ∧
    1 ≤ (reported 2 ⟨-1, 1, .horizontal⟩).count ∧ ¬ Represented (reported 2 ⟨-1, 1, .horizontal⟩) := by
  refine ⟨⟨.untranslated, Lib.Reachable.execute .init [.setCount 2 fun i => toString i,
    .reportLayout (some ⟨-1, 1, .horizontal⟩), .updateLayout] rfl⟩, by decide, fun h => ?_⟩
  exact absurd h.size (by decide)

end KWinFT.VirtualDesktops
