import KWinFT.Lib.Cyclic
import KWinFT.VirtualDesktops.Representation

/-! Going from one desktop to the next. The four directions walk along a line of the grid over cells
without a desktop, up to its announced end; `next` and `previous` walk along the list of desktops. -/
namespace KWinFT.VirtualDesktops
open Lib

/-- The loop of `toRight` and `below` on one coordinate: up, and from the end back to zero. As many
rounds as the line has coordinates and one more see all of them, so without a result it never ends. -/
def seekUp (read : Int → Option (Option Address)) (size : Int) (wrap : Bool) (desktop : Address) :
    Nat → Int → Option Address
  | 0, _ => none
  | fuel + 1, c =>
    let c := c + 1
    if size ≤ c ∧ wrap = false then some desktop
    else
      let c := if size ≤ c then 0 else c
      match read c with
      | none => none
      | some (some vd) => some vd
      | some none => seekUp read size wrap desktop fuel c

/-- The loop of `toLeft` and `above`: down, and from zero to the announced end. -/
def seekDown (read : Int → Option (Option Address)) (size : Int) (wrap : Bool) (desktop : Address) :
    Nat → Int → Option Address
  | 0, _ => none
  | fuel + 1, c =>
    let c := c - 1
    if c < 0 ∧ wrap = false then some desktop
    else
      let c := if c < 0 then size - 1 else c
      match read c with
      | none => none
      | some (some vd) => some vd
      | some none => seekDown read size wrap desktop fuel c

namespace VirtualDesktopManager
variable (m : VirtualDesktopManager)

/-- Without a desktop the current one is meant. -/
def startFrom (desktop : Option Address) (go : Address → Option Address) : Option Address :=
  (desktop.or m.current).bind go

def above (desktop : Option Address) (wrap : Bool) : Option Address :=
  m.startFrom desktop fun d =>
    let coords := m.grid.gridCoords d
    seekDown (fun y => m.grid.atCoords (coords.1, y)) m.grid.intHeight wrap d (m.grid.height + 1) coords.2

def toRight (desktop : Option Address) (wrap : Bool) : Option Address :=
  m.startFrom desktop fun d =>
    let coords := m.grid.gridCoords d
    seekUp (fun x => m.grid.atCoords (x, coords.2)) m.grid.intWidth wrap d (m.grid.width + 1) coords.1

def below (desktop : Option Address) (wrap : Bool) : Option Address :=
  m.startFrom desktop fun d =>
    let coords := m.grid.gridCoords d
    seekUp (fun y => m.grid.atCoords (coords.1, y)) m.grid.intHeight wrap d (m.grid.height + 1) coords.2

def toLeft (desktop : Option Address) (wrap : Bool) : Option Address :=
  m.startFrom desktop fun d =>
    let coords := m.grid.gridCoords d
    seekDown (fun x => m.grid.atCoords (x, coords.2)) m.grid.intWidth wrap d (m.grid.width + 1) coords.1

/-- `next`. -/
def nextDesktop (desktop : Option Address) (wrap : Bool) : Option Address :=
  m.startFrom desktop fun d =>
    match m.desktops.idxOf? d with
    | none => none
    | some i =>
      match m.desktops[i + 1]? with
      | some vd => some vd
      | none => if wrap then m.desktops.head? else some d

/-- `previous`. -/
def previousDesktop (desktop : Option Address) (wrap : Bool) : Option Address :=
  m.startFrom desktop fun d =>
    match m.desktops.idxOf? d with
    | none => none
    | some 0 => if wrap then m.desktops.getLast? else some d
    | some (i + 1) => m.desktops[i]?

end VirtualDesktopManager

section lines
variable {read : Int → Option (Option Address)} {lane : Nat → Option Address} {len size i c fuel : Nat}
  {wrap : Bool} {d : Address}

/-- The cells of a line, the first `len` of them with a desktop. -/
structure Line (read : Int → Option (Option Address)) (lane : Nat → Option Address) (len size : Nat) : Prop where
  read_nat : ∀ c : Nat, read c = some (lane c)
  isSome : ∀ c, (lane c).isSome ↔ c < len
  le_size : len ≤ size
  pos : 0 < len

theorem Line.eq_none (h : Line read lane len size) (hc : len ≤ c) : lane c = none := by
  rw [← Option.not_isSome_iff_eq_none, h.isSome]
  exact Nat.not_lt.mpr hc

theorem Line.eq_some (h : Line read lane len size) (hc : c < len) : ∃ vd, lane c = some vd :=
  Option.isSome_iff_exists.mp ((h.isSome c).mpr hc)

/-- From the last desktop on there is none up to the end. -/
private theorem Line.seekUp_end (h : Line read lane len size) (hlen : len ≤ c + 1) (hc : c < size)
    (hf : size ≤ fuel + c) : seekUp read size wrap d fuel c = if wrap then lane 0 else some d := by
  obtain ⟨first, hfirst⟩ := h.eq_some h.pos
  have hzero : read 0 = some (some first) := (h.read_nat 0).trans (congrArg some hfirst)
  induction fuel generalizing c with
  | zero => omega
  | succ fuel ih =>
    unfold seekUp
    by_cases hend : size ≤ c + 1
    · have hend' : (size : Int) ≤ c + 1 := by omega
      cases wrap with
      | false => simp [hend']
      | true => simp [hend', hzero, hfirst]
    · have hend' : ¬ (size : Int) ≤ c + 1 := by omega
      have hnone : read (c + 1) = some none := (h.read_nat (c + 1)).trans (congrArg some (h.eq_none hlen))
      simp only [hend', false_and, if_false, hnone]
      exact ih (c := c + 1) (by omega) (by omega) (by omega)

theorem Line.seekUp_eq (h : Line read lane len size) (hi : i < len) :
    seekUp read size wrap d (size + 1) i =
      if i + 1 < len then lane (i + 1) else if wrap then lane 0 else some d := by
  have hle := h.le_size
  split
  · next hnext =>
    obtain ⟨vd, hvd⟩ := h.eq_some hnext
    have hread : read (i + 1) = some (some vd) := (h.read_nat (i + 1)).trans (congrArg some hvd)
    have hend : ¬ (size : Int) ≤ i + 1 := by omega
    unfold seekUp
    simp [hend, hread, hvd]
  · exact h.seekUp_end (by omega) (by omega) (by omega)

/-- Down from beyond the last desktop the last one comes first. -/
private theorem Line.seekDown_last (h : Line read lane len size) (hlen : len ≤ c) (hf : c < fuel + len) :
    seekDown read size wrap d fuel c = lane (len - 1) := by
  have hpos := h.pos
  induction fuel generalizing c with
  | zero => omega
  | succ fuel ih =>
    unfold seekDown
    have hneg : ¬ (c : Int) - 1 < 0 := by omega
    have hcast : (c : Int) - 1 = (c - 1 : Nat) := by omega
    simp only [hneg, false_and, if_false]
    rw [hcast, h.read_nat]
    by_cases heq : c = len
    · obtain ⟨vd, hvd⟩ := h.eq_some (show len - 1 < len by omega)
      rw [heq, hvd]
    · rw [h.eq_none (show len ≤ c - 1 by omega)]
      exact ih (by omega) (by omega)

theorem Line.seekDown_eq (h : Line read lane len size) (hi : i < len) :
    seekDown read size wrap d (size + 1) i =
      if i = 0 then (if wrap then lane (len - 1) else some d) else lane (i - 1) := by
  have hle := h.le_size
  have hpos := h.pos
  split
  · next h0 =>
    subst h0
    cases wrap with
    | false => simp [seekDown]
    | true =>
      -- the first round reads what a round from beyond the end reads
      have hround : seekDown read size true d (size + 1) (0 : Nat) = seekDown read size true d (size + 1) size := by
        have hneg : ¬ (size : Int) - 1 < 0 := by omega
        rw [seekDown, seekDown]
        simp [hneg]
      rw [hround, h.seekDown_last hle (by omega)]
      rfl
  · next h0 =>
    obtain ⟨vd, hvd⟩ := h.eq_some (show i - 1 < len by omega)
    have hcast : (i : Int) - 1 = (i - 1 : Nat) := by omega
    have hneg : ¬ ((i - 1 : Nat) : Int) < 0 := by omega
    unfold seekDown
    simp only [hcast, hneg, false_and, if_false]
    rw [h.read_nat, hvd]

end lines

/-- The desktops of a row, and those of a column from top to bottom. -/
def VirtualDesktopGrid.row (g : VirtualDesktopGrid) (y : Nat) : List Address := g.cells[y]?.getD []

def VirtualDesktopGrid.column (g : VirtualDesktopGrid) (x : Nat) : List Address :=
  (List.range g.cells.length).filterMap (cell g.cells x)

theorem VirtualDesktopGrid.getElem?_row (g : VirtualDesktopGrid) (x y : Nat) :
    (g.row y)[x]? = cell g.cells x y := by
  unfold row cell
  cases g.cells[y]? <;> simp

section grid
variable {m : VirtualDesktopManager} {d : Address} {x y : Nat}

/-- A desktop lies above every cell of a column that has one. -/
theorem Laid.cell_above (h : Laid m) (hc : cell m.grid.cells x y = none) : cell m.grid.cells x (y + 1) = none := by
  obtain ⟨w, ht, o, -, hgrid⟩ := h.grid
  rw [hgrid, cell_update] at hc ⊢
  split
  · next hx =>
    rw [if_pos ⟨hx.1, by omega⟩, List.getElem?_eq_none_iff] at hc
    rw [List.getElem?_eq_none_iff]
    refine Nat.le_trans hc ?_
    cases o with
    | horizontal =>
      simp only [position, Nat.succ_mul]
      omega
    | vertical =>
      simp only [position]
      omega
  · rfl

theorem Laid.getElem?_column (h : Laid m) (x y : Nat) : (m.grid.column x)[y]? = cell m.grid.cells x y := by
  rw [VirtualDesktopGrid.column, getElem?_filterMap_range fun y hy => h.cell_above hy]
  split
  · rfl
  · next hy => simp [cell, Nat.le_of_not_lt hy]

private theorem isSome_getElem? {l : List Address} {f : Nat → Option Address} (h : ∀ i, l[i]? = f i) (i : Nat) :
    (f i).isSome ↔ i < l.length := by
  rw [← h]
  simp

theorem Laid.cell_lt (h : Laid m) (hc : cell m.grid.cells x y = some d) :
    x < m.grid.width ∧ y < m.grid.height := by
  obtain ⟨w, ht, o, -, hgrid⟩ := h.grid
  rw [hgrid, cell_update] at hc
  rw [hgrid]
  split at hc
  · next hx => exact hx
  · cases hc

/-- The row of a desktop, up to the announced width. -/
theorem Laid.rowLine (h : Laid m) (hc : cell m.grid.cells x y = some d) :
    Line (fun x => m.grid.atCoords (x, y)) (fun x => cell m.grid.cells x y) (m.grid.row y).length m.grid.width := by
  have hsome := isSome_getElem? (fun x => m.grid.getElem?_row x y)
  have hx := (hsome x).mp (by simp [hc])
  refine ⟨fun x => VirtualDesktopGrid.atCoords_nat x y, hsome, ?_, by omega⟩
  obtain ⟨vd, hvd⟩ := Option.isSome_iff_exists.mp ((hsome ((m.grid.row y).length - 1)).mpr (by omega))
  have := (h.cell_lt hvd).1
  omega

theorem Laid.columnLine (h : Laid m) (hc : cell m.grid.cells x y = some d) :
    Line (fun y => m.grid.atCoords (x, y)) (fun y => cell m.grid.cells x y) (m.grid.column x).length m.grid.height := by
  have hsome := isSome_getElem? (fun y => h.getElem?_column x y)
  have hy := (hsome y).mp (by simp [hc])
  refine ⟨fun y => VirtualDesktopGrid.atCoords_nat x y, hsome, ?_, by omega⟩
  obtain ⟨vd, hvd⟩ := Option.isSome_iff_exists.mp ((hsome ((m.grid.column x).length - 1)).mpr (by omega))
  have := (h.cell_lt hvd).2
  omega

end grid

/-- Two directions along a line of desktops: with wrapping they go around it, without they stop at its
ends. -/
structure Opposite (forward backward : Bool → Address → Option Address) (lane : List Address) : Prop where
  advances : Advances (forward true) lane
  retreats : Retreats (backward true) lane
  forward_stop : ∀ i d, lane[i]? = some d → forward false d = some (lane[i + 1]?.getD d)
  backward_stop : ∀ i d, lane[i]? = some d → backward false d = if i = 0 then some d else lane[i - 1]?

/-- What the user sees of it at one desktop: the directions undo each other, repeating one visits the
line in turn, and without wrapping the step is to the neighbour or none. -/
structure Navigable (forward backward : Bool → Address → Option Address) (lane : List Address) (i : Nat)
    (d : Address) : Prop where
  here : lane[i]? = some d
  forth_back : (forward true d).bind (backward true) = some d
  back_forth : (backward true d).bind (forward true) = some d
  forth : ∀ k, steps (forward true) k d = lane[(i + k) % lane.length]?
  back : ∀ k, steps (backward true) k d = lane[(i + k * (lane.length - 1)) % lane.length]?
  forward_stop : forward false d = some (lane[i + 1]?.getD d)
  backward_stop : backward false d = if i = 0 then some d else lane[i - 1]?

theorem Opposite.navigable {forward backward : Bool → Address → Option Address} {lane : List Address}
    (h : Opposite forward backward lane) {i : Nat} {d : Address} (hd : lane[i]? = some d) :
    Navigable forward backward lane i d :=
  ⟨hd, h.advances.bind_retreats h.retreats hd, h.retreats.bind_advances h.advances hd,
    h.advances.steps_eq hd, h.retreats.steps_eq hd, h.forward_stop i d hd, h.backward_stop i d hd⟩

/-- The two loops along one line are opposite directions. -/
theorem Line.opposite {read : Int → Option (Option Address)} {f : Nat → Option Address} {lane : List Address}
    {size : Nat} (h : Line read f lane.length size) (hf : ∀ i, lane[i]? = f i)
    {forward backward : Bool → Address → Option Address}
    (hforward : ∀ (i : Nat) d wrap, lane[i]? = some d → forward wrap d = seekUp read size wrap d (size + 1) i)
    (hbackward : ∀ (i : Nat) d wrap, lane[i]? = some d → backward wrap d = seekDown read size wrap d (size + 1) i) :
    Opposite forward backward lane := by
  have hlt {i : Nat} {d : Address} (hd : lane[i]? = some d) : i < lane.length := (List.getElem?_eq_some_iff.mp hd).1
  refine ⟨fun i d hd => ?_, fun i d hd => ?_, fun i d hd => ?_, fun i d hd => ?_⟩
  · rw [hforward i d true hd, h.seekUp_eq (hlt hd), hf]
    split
    · next hi => rw [Nat.mod_eq_of_lt hi]
    · next hi =>
      have heq : i + 1 = lane.length := by
        have := hlt hd
        omega
      simp [heq]
  · rw [hbackward i d true hd, h.seekDown_eq (hlt hd), hf]
    have := hlt hd
    split
    · next hi => simp [hi, Nat.mod_eq_of_lt (show lane.length - 1 < lane.length by omega)]
    · next hi =>
      have heq : i + (lane.length - 1) = (i - 1) + lane.length := by omega
      rw [heq, Nat.add_mod_right, Nat.mod_eq_of_lt (by omega)]
  · rw [hforward i d false hd, h.seekUp_eq (hlt hd), hf]
    split
    · next hi =>
      obtain ⟨vd, hvd⟩ := h.eq_some hi
      simp [hvd]
    · next hi => simp [h.eq_none (Nat.le_of_not_lt hi)]
  · rw [hbackward i d false hd, h.seekDown_eq (hlt hd), hf]
    simp

namespace VirtualDesktopManager
variable {m : VirtualDesktopManager} {x y : Nat} {d : Address}

theorem toRight_toLeft_opposite (hk : Kept m) (hl : Laid m) (hc : cell m.grid.cells x y = some d) :
    Opposite (fun wrap d => m.toRight (some d) wrap) (fun wrap d => m.toLeft (some d) wrap) (m.grid.row y) := by
  have hcoords {i : Nat} {d : Address} (hd : (m.grid.row y)[i]? = some d) : m.grid.gridCoords d = (↑i, ↑y) :=
    VirtualDesktopGrid.gridCoords_eq (hk.separate hl) ((m.grid.getElem?_row i y).symm.trans hd)
  have hwidth : m.grid.intWidth = m.grid.width := by
    obtain ⟨w, ht, o, hroom, hgrid⟩ := hl.grid
    rw [hgrid]
    exact toInt_of_lt hroom.width_lt
  refine (hl.rowLine hc).opposite (m.grid.getElem?_row · y) (fun i d wrap hd => ?_) (fun i d wrap hd => ?_)
  · simp [toRight, startFrom, hcoords hd, hwidth]
  · simp [toLeft, startFrom, hcoords hd, hwidth]

theorem below_above_opposite (hk : Kept m) (hl : Laid m) (hc : cell m.grid.cells x y = some d) :
    Opposite (fun wrap d => m.below (some d) wrap) (fun wrap d => m.above (some d) wrap) (m.grid.column x) := by
  have hcoords {i : Nat} {d : Address} (hd : (m.grid.column x)[i]? = some d) : m.grid.gridCoords d = (↑x, ↑i) :=
    VirtualDesktopGrid.gridCoords_eq (hk.separate hl) ((hl.getElem?_column x i).symm.trans hd)
  have hheight : m.grid.intHeight = m.grid.height := by
    obtain ⟨w, ht, o, hroom, hgrid⟩ := hl.grid
    rw [hgrid]
    exact toInt_of_lt hroom.height_lt
  refine (hl.columnLine hc).opposite (hl.getElem?_column x) (fun i d wrap hd => ?_) (fun i d wrap hd => ?_)
  · simp [below, startFrom, hcoords hd, hheight]
  · simp [above, startFrom, hcoords hd, hheight]

theorem next_previous_opposite (hn : m.desktops.Nodup) :
    Opposite (fun wrap d => m.nextDesktop (some d) wrap) (fun wrap d => m.previousDesktop (some d) wrap) m.desktops := by
  have hidx {i : Nat} {d : Address} (hd : m.desktops[i]? = some d) : m.desktops.idxOf? d = some i := by
    obtain ⟨hi, rfl⟩ := List.getElem?_eq_some_iff.mp hd
    rw [List.idxOf?_eq_some_iff]
    refine ⟨hi, rfl, fun j hj heq => ?_⟩
    have := (List.getElem_inj hn).mp heq
    omega
  have hlt {i : Nat} {d : Address} (hd : m.desktops[i]? = some d) : i < m.desktops.length :=
    (List.getElem?_eq_some_iff.mp hd).1
  have hnext {i : Nat} {d : Address} (hd : m.desktops[i]? = some d) (wrap : Bool) :
      m.nextDesktop (some d) wrap =
        if i + 1 < m.desktops.length then m.desktops[i + 1]? else if wrap then m.desktops.head? else some d := by
    simp only [nextDesktop, startFrom, Option.some_or, Option.bind_some, hidx hd]
    by_cases hi : i + 1 < m.desktops.length
    · simp [hi]
    · simp [hi]
  have hprev {i : Nat} {d : Address} (hd : m.desktops[i]? = some d) (wrap : Bool) :
      m.previousDesktop (some d) wrap =
        if i = 0 then (if wrap then m.desktops.getLast? else some d) else m.desktops[i - 1]? := by
    simp only [previousDesktop, startFrom, Option.some_or, Option.bind_some, hidx hd]
    cases i <;> simp
  refine ⟨fun i d hd => ?_, fun i d hd => ?_, fun i d hd => ?_, fun i d hd => ?_⟩
  · rw [hnext hd]
    have := hlt hd
    split
    · next hi => rw [Nat.mod_eq_of_lt hi]
    · next hi =>
      have heq : i + 1 = m.desktops.length := by omega
      simp [heq, List.head?_eq_getElem?]
  · rw [hprev hd]
    have := hlt hd
    split
    · next hi =>
      simp [hi, List.getLast?_eq_getElem?, Nat.mod_eq_of_lt (show m.desktops.length - 1 < m.desktops.length by omega)]
    · next hi =>
      have heq : i + (m.desktops.length - 1) = (i - 1) + m.desktops.length := by omega
      rw [heq, Nat.add_mod_right, Nat.mod_eq_of_lt (by omega)]
  · rw [hnext hd]
    split
    · next hi => simp [hi]
    · next hi => simp [hi]
  · rw [hprev hd]
    simp

end VirtualDesktopManager

/-- Every desktop can be left along its row, its column and the list of desktops, and reached again. -/
def Navigates (m : VirtualDesktopManager) : Prop :=
  ∀ d ∈ m.desktops, ∃ x y i : Nat, m.grid.gridCoords d = (↑x, ↑y) ∧
    Navigable (fun wrap d => m.toRight (some d) wrap) (fun wrap d => m.toLeft (some d) wrap) (m.grid.row y) x d ∧
    Navigable (fun wrap d => m.below (some d) wrap) (fun wrap d => m.above (some d) wrap) (m.grid.column x) y d ∧
    Navigable (fun wrap d => m.nextDesktop (some d) wrap) (fun wrap d => m.previousDesktop (some d) wrap) m.desktops i d

theorem Kept.navigates {m : VirtualDesktopManager} (h : Kept m) (hpos : 1 ≤ m.count) : Navigates m := by
  intro d hd
  have hl := h.laid hpos
  obtain ⟨x, y, hc⟩ := mem_flatten_iff_cell.mp ((h.represented hpos).grid_perm.mem_iff.mpr hd)
  obtain ⟨i, hi⟩ := List.mem_iff_getElem?.mp hd
  refine ⟨x, y, i, VirtualDesktopGrid.gridCoords_eq (h.separate hl) hc, ?_, ?_, ?_⟩
  · exact (m.toRight_toLeft_opposite h hl hc).navigable ((m.grid.getElem?_row x y).trans hc)
  · exact (m.below_above_opposite h hl hc).navigable ((hl.getElem?_column x y).trans hc)
  · exact (m.next_previous_opposite h.numbered.nodup).navigable hi

/-- The laws of navigation, in every layout reached without reports of the root window that cannot be
taken over. -/
theorem navigates_of_reachable {translation : Translation} {m : VirtualDesktopManager}
    (h : Lib.Reachable step saneReports (.initial translation) m)
    (hcount : 1 ≤ m.count) : Navigates m :=
  (Lib.Reachable.invariant h Kept (.initial translation) fun _ _ _ hm hok hs => hm.step hok hs).navigates hcount

theorem reported_navigates : 1 ≤ (reported 3 ⟨2, 2, .vertical⟩).count ∧ Navigates (reported 3 ⟨2, 2, .vertical⟩) := by
  refine ⟨by decide, navigates_of_reachable (.step .updateLayout (.step (.reportLayout (some ⟨2, 2, .vertical⟩))
    (.step (.setCount 3 fun i => toString i) .init nofun rfl) ?_ rfl) nofun rfl) (by decide)⟩
  intro info hinfo
  cases hinfo
  simp [NETRootInfo.Sane, maximum]

/-- With minus one columns, going left from the first desktop reads before the start of its row. -/
theorem reported_negative_toLeft : Reachable (reported 2 ⟨-1, 1, .horizontal⟩) ∧
    0 ∈ (reported 2 ⟨-1, 1, .horizontal⟩).desktops ∧
    (reported 2 ⟨-1, 1, .horizontal⟩).toLeft (some 0) true = none ∧
    ¬ Navigates (reported 2 ⟨-1, 1, .horizontal⟩) := by
  have hmem : 0 ∈ (reported 2 ⟨-1, 1, .horizontal⟩).desktops := by decide
  have hleft : (reported 2 ⟨-1, 1, .horizontal⟩).toLeft (some 0) true = none := by decide
  refine ⟨⟨.untranslated, Lib.Reachable.execute .init [.setCount 2 fun i => toString i,
    .reportLayout (some ⟨-1, 1, .horizontal⟩), .updateLayout] rfl⟩, hmem, hleft, fun h => ?_⟩
  obtain ⟨x, y, i, -, hrow, -⟩ := h 0 hmem
  have hback := hrow.back_forth
  simp [hleft] at hback

end KWinFT.VirtualDesktops
