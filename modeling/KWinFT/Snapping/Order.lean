import Mathlib.Algebra.Group.Basic
import Mathlib.Algebra.Group.Int.Defs
import KWinFT.Lib.Turns
import KWinFT.Snapping.Resize

/-! How far the edges of a resized window are moved, and that it does not depend on the order of the other windows
where no window is compared with an edge that another one has moved. -/
namespace KWinFT.Snapping
open KWinFT.Geometry Areas Placement

/-- The ends of an axis. -/
inductive End | low | high
deriving Repr, DecidableEq

/-- The end that a mode moves, in the axis of the rows or of the columns. -/
def movedEnd (mode : Position) (vertical : Bool) : Option End :=
  match vertical, mode with
  | true, .top | true, .topLeft | true, .topRight => some .low
  | true, .bottom | true, .bottomLeft | true, .bottomRight => some .high
  | false, .left | false, .topLeft | false, .bottomLeft => some .low
  | false, .right | false, .topRight | false, .bottomRight => some .high
  | _, _ => none

/-- The edge of a rectangle at an end. -/
def edgeOf (r : Rect) (vertical : Bool) : End → Int
  | .low => if vertical then r.top else r.left
  | .high => if vertical then r.bottom else r.right

namespace Span
variable (s : Span) (e : Option End) (sOWO : Bool)

def edge (s : Span) : End → Int
  | .low => s.c
  | .high => s.r

def border (lo hi stored : Int) : Span :=
  match e with
  | some .low => s.borderLow sOWO lo
  | some .high => s.borderHigh sOWO hi stored
  | none => s

variable (allowed : Bool) (l lr : Int)

def facing : Span :=
  match e with
  | some .low => s.windowLow sOWO allowed lr
  | some .high => s.windowHigh sOWO allowed l
  | none => s

def corner : Span :=
  match e with
  | some .low => s.cornerLow sOWO allowed l
  | some .high => s.cornerHigh sOWO allowed lr
  | none => s

/-- Some end is put elsewhere. -/
def put (s : Span) (d : End) (pos delta : Int) : Span :=
  match d with
  | .low => { s with c := pos, delta := delta }
  | .high => { s with r := pos, delta := delta }

/-- All that a test may do: nothing, or put the end that is moved to a place in reach. -/
def Pulls (reach : Int) (s' : Span) : Prop :=
  s' = s ∨ ∃ d pos delta, e = some d ∧ qAbs (pos - s.edge d) < reach ∧ s' = s.put d pos delta

variable {s e sOWO allowed l lr} {s' : Span} {d : End} {reach : Int}

theorem Pulls.edge_cases (h : s.Pulls e reach s') (d : End) :
    s'.edge d = s.edge d ∨ (e = some d ∧ qAbs (s'.edge d - s.edge d) < reach) := by
  rcases h with rfl | ⟨d', pos, delta, rfl, hpos, rfl⟩
  · exact .inl rfl
  · cases d <;> cases d' <;> first | exact .inl rfl | exact .inr ⟨rfl, hpos⟩

private theorem pulls_ite {ok : Prop} [Decidable ok] {pos delta : Int} (h : ok → qAbs (pos - s.edge d) < reach) :
    s.Pulls (some d) reach (if ok then s.put d pos delta else s) := by
  split
  · exact .inr ⟨d, pos, delta, rfl, h ‹ok›, rfl⟩
  · exact .inl rfl

theorem pulls_border (lo hi stored : Int) : s.Pulls e s.delta (s.border e sOWO lo hi stored) :=
  match e with
  | none => .inl rfl
  | some .low => pulls_ite (d := .low) fun h => h.2
  | some .high => pulls_ite (d := .high) fun h => h.2

theorem pulls_facing : s.Pulls e s.delta (s.facing e sOWO allowed l lr) :=
  match e with
  | none => .inl rfl
  | some .low => pulls_ite (d := .low) fun h => h.2.2
  | some .high => pulls_ite (d := .high) fun h => h.2.2

private theorem qAbs_add_one_lt {t bound : Int} (h : qAbs t < bound) : qAbs (t + 1) < bound + 1 := by
  rw [qAbs_eq] at *
  omega

private theorem qAbs_sub_one_lt {t bound : Int} (h : qAbs t < bound) : qAbs (t - 1) < bound + 1 := by
  rw [qAbs_eq] at *
  omega

/-- A corner may be a pixel further off. -/
theorem pulls_corner : s.Pulls e (s.delta + 1) (s.corner e sOWO allowed l lr) :=
  match e with
  | none => .inl rfl
  | some .low => pulls_ite (d := .low) fun h => add_sub_right_comm l 1 s.c ▸ qAbs_add_one_lt h.2.2
  | some .high => pulls_ite (d := .high) fun h => sub_right_comm lr 1 s.r ▸ qAbs_sub_one_lt h.2.2

end Span

/-- The axis of the rows or that of the columns. -/
def Buffers.span (vertical : Bool) (s : Buffers) : Span := if vertical then s.y else s.x

theorem Buffers.ext_span {s t : Buffers} (h : ∀ i, s.span i = t.span i) : s = t := by
  obtain ⟨x, y⟩ := s
  obtain ⟨x', y'⟩ := t
  exact congrArg₂ Buffers.mk (h false) (h true)

namespace Resizing
variable (R : Resizing) (geom : Rect) (mode : Position)

/-- The edges after the borders. -/
def bordered : Buffers :=
  let zone := R.options.borderSnapZone
  if zone ≠ 0 then
    let s := edges geom zone zone
    ⟨s.x.border (movedEnd mode false) R.options.snapOnlyWhenOverlapping R.maxRect.left R.maxRect.right s.x.r,
      s.y.border (movedEnd mode true) R.options.snapOnlyWhenOverlapping R.maxRect.top R.maxRect.bottom s.y.c⟩
  else edges geom R.maxRect.right R.maxRect.bottom

/-- What the edges of another window that face those of the frame do to them. -/
def faced (s : Buffers) (l : Window) : Buffers :=
  let y := s.y.facing (movedEnd mode true) R.options.snapOnlyWhenOverlapping (withinWidth geom l) l.ly l.lry
  ⟨s.x.facing (movedEnd mode false) R.options.snapOnlyWhenOverlapping (touches y.c y.r l.ly l.lry) l.lx l.lrx, y⟩

/-- What its corners do. -/
def cornered (s : Buffers) (l : Window) : Buffers :=
  let y := s.y.corner (movedEnd mode true) R.options.snapOnlyWhenOverlapping (s.x.beside l.lx l.lrx) l.ly l.lry
  ⟨s.x.corner (movedEnd mode false) R.options.snapOnlyWhenOverlapping (y.beside l.ly l.lry) l.lx l.lrx, y⟩

def turn (s : Buffers) (l : Window) : Buffers := R.cornered mode (R.faced geom mode s l) l

def others : List Window := R.clients.filter R.relevant

/-- Where the loop begins. -/
def start : Buffers := R.zoned (R.bordered geom mode)

/-- The edges in the end. -/
def settled : Buffers :=
  if R.options.windowSnapZone ≠ 0 then R.others.foldl (R.turn geom mode) (R.start geom mode) else R.bordered geom mode

def edgesOf (s : Buffers) : Rect := ⟨s.x.c, s.y.c, s.x.r, s.y.r⟩

/-- The screen that a geometry lies on. -/
def screenOf : Rect := R.scr.geometry (R.scr.number geom.center)

/-- The edges that the mode does not name stay. -/
def OnlyNamed (mode : Position) (geom result : Rect) : Prop :=
  ∀ i d, movedEnd mode i ≠ some d → edgeOf result i d = edgeOf geom i d

/-- Edges are moved by less than the zones together. -/
def Bounded (geom result : Rect) : Prop :=
  ∀ i d, edgeOf result i d ≠ edgeOf geom i d →
    qAbs (edgeOf result i d - edgeOf geom i d) < R.options.borderSnapZone + R.options.windowSnapZone

/-- The other screens do not matter. -/
def OwnScreen (result : Rect) : Prop :=
  { R with scr := ⟨[R.screenOf geom]⟩ }.adjustClientSize geom mode = some result

def OrderFree (result : Rect) : Prop :=
  ∀ clients, clients.Perm R.clients → { R with clients := clients }.adjustClientSize geom mode = some result

/-- The borders are those of the right screen, each edge is up to one window at most, which is not stopped or driven on
by what others have moved, and that window moves it by one of its edges only and stays in the zone. -/
structure Sound : Prop where
  zones : 0 ≤ R.options.borderSnapZone ∧ 0 ≤ R.options.windowSnapZone
  screen : R.options.borderSnapZone = 0 ∨ R.maxRect = R.screenOf geom
  independent : Lib.Independent (R.turn geom mode) Buffers.span (R.start geom mode) R.others
  apart : Lib.Apart (R.turn geom mode) Buffers.span (R.start geom mode) R.others
  once : ∀ l ∈ R.others, ∀ i, (R.faced geom mode (R.start geom mode) l).span i = (R.start geom mode).span i ∨
    (R.turn geom mode (R.start geom mode) l).span i = (R.faced geom mode (R.start geom mode) l).span i
  corner : R.options.borderSnapZone = 0 → 0 < R.options.windowSnapZone → ∀ l ∈ R.others, ∀ i d,
    qAbs (((R.turn geom mode (R.start geom mode) l).span i).edge d -
      ((R.faced geom mode (R.start geom mode) l).span i).edge d) ≠ R.options.windowSnapZone

variable {R geom mode}

private theorem borders_eq_some (hmode : mode ≠ .center) : R.borders geom mode = some (R.bordered geom mode) := by
  unfold borders bordered
  dsimp only
  split
  · cases mode <;> first | exact absurd rfl hmode | rfl
  · rfl

private theorem snapWindow_eq_some (hmode : mode ≠ .center) (s : Buffers) (l : Window) :
    R.snapWindow geom mode s l = some (R.turn geom mode s l) := by
  cases mode <;> first | exact absurd rfl hmode | rfl

private theorem windows_eq_some (hmode : mode ≠ .center) :
    R.windows geom mode (R.bordered geom mode) = some (R.settled geom mode) := by
  unfold windows settled
  split
  · rw [funext₂ (snapWindow_eq_some hmode)]
    exact List.foldlM_pure
  · rfl

private theorem adjustClientSize_eq_some (hmode : mode ≠ .center) : R.adjustClientSize geom mode =
    some (edgesOf (R.settled geom mode)) := by
  unfold adjustClientSize
  split
  · rw [borders_eq_some hmode, Option.bind_eq_bind, Option.bind_some, windows_eq_some hmode]
    rfl
  · rename_i hno
    obtain ⟨hw, hb⟩ := not_or.mp hno
    rw [settled, if_neg hw, bordered, if_neg hb]
    rfl

private theorem pulls_bordered (hb : R.options.borderSnapZone ≠ 0) (i : Bool) :
    ((edges geom R.options.borderSnapZone R.options.borderSnapZone).span i).Pulls (movedEnd mode i)
      R.options.borderSnapZone ((R.bordered geom mode).span i) := by
  rw [bordered, if_pos hb]
  cases i <;> exact Span.pulls_border ..

private theorem pulls_faced (s : Buffers) (l : Window) (i : Bool) :
    (s.span i).Pulls (movedEnd mode i) (s.span i).delta ((R.faced geom mode s l).span i) := by
  cases i <;> exact Span.pulls_facing

private theorem pulls_cornered (s : Buffers) (l : Window) (i : Bool) :
    (s.span i).Pulls (movedEnd mode i) ((s.span i).delta + 1) ((R.cornered mode s l).span i) := by
  cases i <;> exact Span.pulls_corner

private theorem edge_edges (x y : Int) (i : Bool) (d : End) : ((edges geom x y).span i).edge d = edgeOf geom i d := by
  cases i <;> cases d <;> rfl

/-- The borders move named edges only, by less than their zone. -/
private theorem edge_bordered (i : Bool) (d : End) :
    ((R.bordered geom mode).span i).edge d = edgeOf geom i d ∨ (movedEnd mode i = some d ∧
      R.options.borderSnapZone ≠ 0 ∧
      qAbs (((R.bordered geom mode).span i).edge d - edgeOf geom i d) < R.options.borderSnapZone) := by
  by_cases hb : R.options.borderSnapZone ≠ 0
  · rcases (pulls_bordered hb i).edge_cases d with h | ⟨hd, h⟩
    · exact .inl (h.trans (edge_edges _ _ i d))
    · exact .inr ⟨hd, hb, edge_edges _ _ i d ▸ h⟩
  · rw [bordered, if_neg hb]
    exact .inl (edge_edges _ _ i d)

private theorem edge_start (i : Bool) (d : End) :
    ((R.start geom mode).span i).edge d = ((R.bordered geom mode).span i).edge d := by
  cases i <;> cases d <;> rfl

private theorem delta_start (i : Bool) : ((R.start geom mode).span i).delta = R.options.windowSnapZone := by
  cases i <;> rfl

private theorem edge_settled_of_ne (i : Bool) (d : End) (hd : movedEnd mode i ≠ some d) :
    ((R.settled geom mode).span i).edge d = edgeOf geom i d := by
  have hbordered : ((R.bordered geom mode).span i).edge d = edgeOf geom i d :=
    (edge_bordered i d).resolve_right fun h => hd h.1
  have hturn (s : Buffers) (l : Window) : ((R.turn geom mode s l).span i).edge d = (s.span i).edge d :=
    (((pulls_cornered _ l i).edge_cases d).resolve_right fun h => hd h.1).trans
      (((pulls_faced s l i).edge_cases d).resolve_right fun h => hd h.1)
  unfold settled
  split
  · have hrun : ∀ (ls : List Window) (s : Buffers),
        ((ls.foldl (R.turn geom mode) s).span i).edge d = (s.span i).edge d := by
      intro ls
      induction ls with
      | nil => exact fun _ => rfl
      | cons l ls ih => exact fun s => (ih _).trans (hturn s l)
    rw [hrun, edge_start, hbordered]
  · exact hbordered

/-- A window that comes first moves an edge by less than the zone, or by as much where borders have a zone, too. -/
private theorem Sound.edge_turn (h : R.Sound geom mode) {l : Window} (hl : l ∈ R.others) (i : Bool) (d : End) :
    ((R.turn geom mode (R.start geom mode) l).span i).edge d = ((R.start geom mode).span i).edge d ∨
      qAbs (((R.turn geom mode (R.start geom mode) l).span i).edge d - ((R.start geom mode).span i).edge d) <
        if R.options.borderSnapZone = 0 then R.options.windowSnapZone else R.options.windowSnapZone + 1 := by
  have hw := h.zones.2
  rcases h.once l hl i with hfaced | hturn
  · rcases (pulls_cornered (R.faced geom mode (R.start geom mode) l) l i).edge_cases d with hc | ⟨-, hc⟩
    · exact .inl (hc.trans (by rw [hfaced]))
    · have hne := fun hb hpos => h.corner hb hpos l hl i d
      rw [hfaced, delta_start] at hc
      rw [hfaced] at hne
      change qAbs (((R.turn geom mode (R.start geom mode) l).span i).edge d - _) < _ at hc
      rw [qAbs_eq] at hc hne ⊢
      split <;> omega
  · rcases (pulls_faced (R.start geom mode) l i).edge_cases d with hf | ⟨-, hf⟩
    · exact .inl (by rw [hturn, hf])
    · rw [delta_start, ← hturn] at hf
      exact .inr (Int.lt_of_lt_of_le hf (by split <;> omega))

private theorem Sound.bounded (h : R.Sound geom mode) (i : Bool) (d : End)
    (hne : ((R.settled geom mode).span i).edge d ≠ edgeOf geom i d) :
    qAbs (((R.settled geom mode).span i).edge d - edgeOf geom i d) <
      R.options.borderSnapZone + R.options.windowSnapZone := by
  obtain ⟨hb, hw⟩ := h.zones
  have hborder := @edge_bordered R geom mode i d
  have hsettled : ((R.settled geom mode).span i).edge d = ((R.bordered geom mode).span i).edge d ∨
      qAbs (((R.settled geom mode).span i).edge d - ((R.bordered geom mode).span i).edge d) <
        if R.options.borderSnapZone = 0 then R.options.windowSnapZone else R.options.windowSnapZone + 1 := by
    unfold settled
    split
    · rw [← edge_start]
      rcases h.independent.foldl_cases i (List.Subperm.refl _) with ⟨hsame, -⟩ | ⟨l, hl, -, hmoved⟩
      · exact .inl (by rw [hsame])
      · rw [hmoved]
        exact h.edge_turn hl i d
    · exact .inl rfl
  simp only [qAbs_eq] at *
  split at hsettled <;> omega

private theorem edgeOf_edgesOf (s : Buffers) (i : Bool) (d : End) : edgeOf (edgesOf s) i d = (s.span i).edge d := by
  cases i <;> cases d <;> rfl

private theorem maxRect_single (R : Resizing) (r : Rect) : maxRect { R with scr := ⟨[r]⟩ } = r := by
  have hnumber (pos : Point) : Screens.number ⟨[r]⟩ pos = 0 := by
    unfold Screens.number Screens.numberFrom
    split_ifs <;> rfl
  rw [maxRect, hnumber]
  rfl

/-- Where no window is compared with what others have moved, resizing snaps as it is to. -/
theorem Sound.adjustClientSize (hmode : mode ≠ .center) (h : R.Sound geom mode) :
    ∃ result, R.adjustClientSize geom mode = some result ∧ OnlyNamed mode geom result ∧ R.Bounded geom result ∧
      R.OwnScreen geom mode result ∧ R.OrderFree geom mode result := by
  refine ⟨_, adjustClientSize_eq_some hmode, fun i d hd => ?_, fun i d hd => ?_, ?_, fun clients hperm => ?_⟩
  · rw [edgeOf_edgesOf]
    exact edge_settled_of_ne i d hd
  · rw [edgeOf_edgesOf] at hd ⊢
    exact h.bounded i d hd
  · rw [OwnScreen, adjustClientSize_eq_some hmode]
    have hsettled : edgesOf (settled { R with scr := ⟨[R.screenOf geom]⟩ } geom mode) = edgesOf (R.settled geom mode) := by
      rcases h.screen with hb | hmax
      · unfold settled start bordered
        simp only [hb, ne_eq, not_true_eq_false, if_false]
        split <;> rfl
      · have hsame : maxRect { R with scr := ⟨[R.screenOf geom]⟩ } = R.maxRect := (maxRect_single R _).trans hmax.symm
        have hbordered : bordered { R with scr := ⟨[R.screenOf geom]⟩ } geom mode = R.bordered geom mode := by
          rw [bordered, hsame]
          rfl
        rw [settled, start, hbordered]
        rfl
    rw [hsettled]
  · rw [adjustClientSize_eq_some hmode]
    have hsettled : settled { R with clients := clients } geom mode = R.settled geom mode := by
      have hloop := h.independent.foldl_perm h.apart (fun ht => Buffers.ext_span ht) (hperm.filter R.relevant)
      unfold settled
      split
      · exact hloop
      · rfl
    rw [hsettled]

end Resizing

end KWinFT.Snapping
