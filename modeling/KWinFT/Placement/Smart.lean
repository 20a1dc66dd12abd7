import KWinFT.Lib.Loops
import KWinFT.Lib.Nearest
import KWinFT.Placement.Windows

/-! Smart placement, a search from window edge to window edge for a position without overlap. It takes the first
position in reading order at which the window without its last column and row is free. -/
namespace KWinFT.Geometry.Rect

/-- The rectangles share a pixel. -/
def Meets (r s : Rect) : Prop :=
  max r.left s.left ≤ min r.right s.right ∧ max r.top s.top ≤ min r.bottom s.bottom

def Within (r s : Rect) : Prop := s.left ≤ r.left ∧ r.right ≤ s.right ∧ s.top ≤ r.top ∧ r.bottom ≤ s.bottom

instance (r s : Rect) : Decidable (r.Meets s) := inferInstanceAs (Decidable (_ ∧ _))
instance (r s : Rect) : Decidable (r.Within s) := inferInstanceAs (Decidable (_ ∧ _))

end KWinFT.Geometry.Rect

namespace KWinFT.Placement
open KWinFT.Geometry Areas

/-- A window to be placed in an area. -/
structure Request where
  session : Session
  area : Rect
  window : Toplevel
  stackingOrder : List Toplevel
  area_valid : area.isValid
  /-- A window has a pixel. -/
  frame_valid : window.frame.isValid
  size_nonneg : ∀ other ∈ stackingOrder, 0 ≤ other.frame.width ∧ 0 ≤ other.frame.height

/-- The variables of the search. -/
structure Search where
  x : Int
  y : Int
  minOverlap : Int
  xOptimal : Int
  yOptimal : Int
  firstPass : Bool
deriving Repr, DecidableEq

/-- Overlap types besides none, which is zero. -/
def hWrong : Int := -1
def wWrong : Int := -2

namespace Request
variable (R : Request)

def cw : Int := R.window.frame.width - 1
def ch : Int := R.window.frame.height - 1

def others : List Toplevel := R.window.relevant R.session R.stackingOrder

def overlapWith (x y : Int) (client : Toplevel) : Int :=
  let xl := client.frame.left
  let yt := client.frame.top
  let xr := xl + client.frame.width
  let yb := yt + client.frame.height
  if x < xr ∧ x + R.cw > xl ∧ y < yb ∧ y + R.ch > yt then
    let width := min (x + R.cw) xr - max x xl
    let height := min (y + R.ch) yb - max y yt
    if client.keepAbove then 16 * width * height
    else if client.keepBelow ∧ ¬ client.isDock then 0
    else width * height
  else 0

def overlap (x y : Int) : Int :=
  if y + R.ch > R.area.bottom ∧ R.ch < R.area.height then hWrong
  else if x + R.cw > R.area.right then wWrong
  else R.others.foldl (fun overlap client => overlap + R.overlapWith x y client) 0

/-- The first column of interest after `x`. -/
def nextX (x y : Int) : Int :=
  let possible := R.area.right
  let possible := if possible - R.cw > x then possible - R.cw else possible
  R.others.foldl (fun possible client =>
    if y < client.frame.top + client.frame.height ∧ client.frame.top < R.ch + y then
      let xr := client.frame.left + client.frame.width
      let possible := if xr > x ∧ possible > xr then xr else possible
      let basket := client.frame.left - R.cw
      if basket > x ∧ possible > basket then basket else possible
    else possible) possible

/-- The first row of interest after `y`. -/
def nextY (y : Int) : Int :=
  let possible := R.area.bottom
  let possible := if possible - R.ch > y then possible - R.ch else possible
  R.others.foldl (fun possible client =>
    let yb := client.frame.top + client.frame.height
    let possible := if yb > y ∧ possible > yb then yb else possible
    let basket := client.frame.top - R.ch
    if basket > y ∧ possible > basket then basket else possible) possible

/-- Saves the best position. -/
def save (s : Search) (overlap : Int) : Search :=
  if s.firstPass then { s with firstPass := false, minOverlap := overlap }
  else if overlap ≥ 0 ∧ overlap < s.minOverlap then
    { s with minOverlap := overlap, xOptimal := s.x, yOptimal := s.y }
  else s

/-- On to the next position to be tried. -/
def advance (s : Search) (overlap : Int) : Search :=
  if overlap > 0 then { s with x := R.nextX s.x s.y }
  else if overlap = wWrong then { s with x := R.area.left, y := R.nextY s.y }
  else s

/-- The body of the loop, and whether it is executed again. -/
def pass (s : Search) : Search × Bool :=
  let overlap := R.overlap s.x s.y
  if overlap = 0 then ({ s with xOptimal := s.x, yOptimal := s.y }, false)
  else
    let s := R.advance (save s overlap) overlap
    (s, overlap ≠ hWrong ∧ s.y < R.area.bottom)

def start : Search := ⟨R.area.left, R.area.top, 0, R.area.left, R.area.top, true⟩

/-- The position that the search ends with. -/
def chosen (s : Search) : Point := ⟨s.xOptimal, if R.ch ≥ R.area.height then R.area.top else s.yOptimal⟩

/-- The position, if the search takes no more than `n` rounds. -/
def placeSmart (n : Nat) : Option Point := (Lib.doWhile R.pass n R.start).map R.chosen

/-- What is kept below is not counted, unless it is a dock. -/
def counts (client : Toplevel) : Bool := client.keepAbove || !client.keepBelow || client.isDock

/-- The frame at a position. -/
def frameAt (p : Point) : Rect := ⟨p.x, p.y, p.x + R.cw, p.y + R.ch⟩

/-- The part of the frame that the search looks at. -/
def coreAt (p : Point) : Rect := ⟨p.x, p.y, p.x + R.cw - 1, p.y + R.ch - 1⟩

def FitsAt (p : Point) : Prop := (R.frameAt p).Within R.area

def Free (p : Point) : Prop := ∀ client ∈ R.others, counts client → ¬ (R.frameAt p).Meets client.frame

def CoreFree (p : Point) : Prop := ∀ client ∈ R.others, counts client → ¬ (R.coreAt p).Meets client.frame

/-- The window is no larger than the area. -/
def Fits : Prop := R.window.frame.width ≤ R.area.width ∧ R.window.frame.height ≤ R.area.height

/-- In reading order. -/
def Before (p q : Point) : Prop := p.y < q.y ∨ (p.y = q.y ∧ p.x < q.x)

/-- The first position at which the core is free. -/
def IsFirst (p : Point) : Prop :=
  R.FitsAt p ∧ R.CoreFree p ∧ ∀ q, R.FitsAt q → R.CoreFree q → ¬ Before q p

instance (p : Point) : Decidable (R.FitsAt p) := inferInstanceAs (Decidable (Rect.Within _ _))
instance (p : Point) : Decidable (R.Free p) := inferInstanceAs (Decidable (∀ _ ∈ _, _))

section search
variable {R}

private theorem cw_nonneg : 0 ≤ R.cw := by
  have := R.frame_valid.1
  simp only [cw, Rect.width]
  omega

private theorem ch_nonneg : 0 ≤ R.ch := by
  have := R.frame_valid.2
  simp only [ch, Rect.height]
  omega

private theorem size_nonneg_of_mem {client : Toplevel} (h : client ∈ R.others) :
    0 ≤ client.frame.width ∧ 0 ≤ client.frame.height := R.size_nonneg client (List.mem_filter.mp h).1

private theorem overlapWith_spec {client : Toplevel} (h : client ∈ R.others) (x y : Int) :
    0 ≤ R.overlapWith x y client ∧
      (0 < R.overlapWith x y client ↔ counts client ∧ (R.coreAt ⟨x, y⟩).Meets client.frame) := by
  obtain ⟨hw, hh⟩ := size_nonneg_of_mem h
  have hcw := cw_nonneg (R := R)
  have hch := ch_nonneg (R := R)
  have hmeets : (R.coreAt ⟨x, y⟩).Meets client.frame ↔
      0 < min (x + R.cw) (client.frame.left + client.frame.width) - max x client.frame.left ∧
        0 < min (y + R.ch) (client.frame.top + client.frame.height) - max y client.frame.top := by
    simp only [Rect.Meets, coreAt, Rect.width, Rect.height]
    omega
  rw [hmeets]
  simp only [overlapWith]
  split
  · have hwidth : 0 ≤ min (x + R.cw) (client.frame.left + client.frame.width) - max x client.frame.left := by omega
    have hheight : 0 ≤ min (y + R.ch) (client.frame.top + client.frame.height) - max y client.frame.top := by omega
    generalize min (x + R.cw) (client.frame.left + client.frame.width) - max x client.frame.left = width at *
    generalize min (y + R.ch) (client.frame.top + client.frame.height) - max y client.frame.top = height at *
    have harea : 0 < width * height ↔ 0 < width ∧ 0 < height := by
      refine ⟨fun hp => ⟨?_, ?_⟩, fun hp => Int.mul_pos hp.1 hp.2⟩
      · exact lt_of_le_of_ne hwidth fun he => by simp [← he] at hp
      · exact lt_of_le_of_ne hheight fun he => by simp [← he] at hp
    have hnonneg := Int.mul_nonneg hwidth hheight
    rw [← harea, Int.mul_assoc, counts]
    cases client.keepAbove <;> cases client.keepBelow <;> cases client.isDock <;> simp <;> omega
  · omega

private theorem foldl_overlap (x y : Int) (clients : List Toplevel) (hclients : ∀ c ∈ clients, c ∈ R.others)
    {overlap : Int} (h : 0 ≤ overlap) :
    overlap ≤ clients.foldl (fun overlap client => overlap + R.overlapWith x y client) overlap ∧
      (clients.foldl (fun overlap client => overlap + R.overlapWith x y client) overlap = 0 ↔
        overlap = 0 ∧ ∀ client ∈ clients, R.overlapWith x y client = 0) := by
  induction clients generalizing overlap with
  | nil => simp
  | cons client clients ih =>
    have hnonneg := (overlapWith_spec (hclients client List.mem_cons_self) x y).1
    obtain ⟨hle, hzero⟩ := ih (fun c hc => hclients c (List.mem_cons_of_mem client hc))
      (show 0 ≤ overlap + R.overlapWith x y client by omega)
    rw [List.foldl_cons]
    refine ⟨by omega, hzero.trans ?_⟩
    simp only [List.forall_mem_cons]
    exact ⟨fun h => ⟨by omega, by omega, h.2⟩, fun h => ⟨by omega, h.2.2⟩⟩

/-- Where there is room, the overlap is that of the core. -/
private theorem overlap_spec {x y : Int} (hh : ¬ (y + R.ch > R.area.bottom ∧ R.ch < R.area.height))
    (hw : ¬ x + R.cw > R.area.right) : 0 ≤ R.overlap x y ∧ (R.overlap x y = 0 ↔ R.CoreFree ⟨x, y⟩) := by
  obtain ⟨hle, hzero⟩ := foldl_overlap x y R.others (fun _ hc => hc) (Int.le_refl 0)
  rw [overlap, if_neg hh, if_neg hw]
  refine ⟨hle, hzero.trans ?_⟩
  simp only [true_and, CoreFree]
  refine forall_congr' fun client => forall_congr' fun hc => ?_
  obtain ⟨hnonneg, hpos⟩ := overlapWith_spec hc x y
  constructor
  · exact fun h hcounts hmeets => absurd (hpos.mpr ⟨hcounts, hmeets⟩) (by omega)
  · exact fun h => le_antisymm (not_lt.mp fun hlt => h (hpos.mp hlt).1 (hpos.mp hlt).2) hnonneg

private theorem nextX_eq (x y : Int) : R.nextX x y =
    Lib.nearest x (if R.area.right - R.cw > x then R.area.right - R.cw else R.area.right)
      (R.others.flatMap fun client =>
        if y < client.frame.top + client.frame.height ∧ client.frame.top < R.ch + y then
          [client.frame.left + client.frame.width, client.frame.left - R.cw] else []) := by
  rw [nextX, Lib.nearest, List.foldl_flatMap]
  refine List.foldl_ext _ _ _ fun possible client _ => ?_
  split
  · simp only [List.foldl_cons, List.foldl_nil, gt_iff_lt, and_comm]
  · rfl

private theorem nextY_eq (y : Int) : R.nextY y =
    Lib.nearest y (if R.area.bottom - R.ch > y then R.area.bottom - R.ch else R.area.bottom)
      (R.others.flatMap fun client => [client.frame.top + client.frame.height, client.frame.top - R.ch]) := by
  rw [nextY, Lib.nearest, List.foldl_flatMap]
  refine List.foldl_ext _ _ _ fun possible client _ => ?_
  simp only [List.foldl_cons, List.foldl_nil, gt_iff_lt, and_comm]

private theorem nextX_spec {x : Int} (y : Int) (hx : x < R.area.right) : x < R.nextX x y ∧
    ∀ client ∈ R.others, y ≤ client.frame.bottom → client.frame.top < R.ch + y → x ≤ client.frame.right →
      R.nextX x y ≤ client.frame.right + 1 := by
  rw [nextX_eq]
  have hlt : x < if R.area.right - R.cw > x then R.area.right - R.cw else R.area.right := by
    split <;> omega
  refine ⟨Lib.lt_nearest hlt, fun client hc hb ht hr => ?_⟩
  have hmem : client.frame.right + 1 ∈ R.others.flatMap fun client =>
      if y < client.frame.top + client.frame.height ∧ client.frame.top < R.ch + y then
        [client.frame.left + client.frame.width, client.frame.left - R.cw] else [] := by
    refine List.mem_flatMap.mpr ⟨client, hc, ?_⟩
    rw [if_pos ⟨by simp only [Rect.height]; omega, ht⟩]
    exact List.mem_cons.mpr (.inl (by simp only [Rect.width]; omega))
  exact Lib.nearest_le_of_mem hlt hmem (by omega)

private theorem nextY_spec {y : Int} (hy : y < R.area.bottom) : y < R.nextY y ∧
    ∀ client ∈ R.others, y ≤ client.frame.bottom → R.nextY y ≤ client.frame.bottom + 1 := by
  rw [nextY_eq]
  have hlt : y < if R.area.bottom - R.ch > y then R.area.bottom - R.ch else R.area.bottom := by
    split <;> omega
  refine ⟨Lib.lt_nearest hlt, fun client hc hb => ?_⟩
  have hmem : client.frame.bottom + 1 ∈ R.others.flatMap fun client =>
      [client.frame.top + client.frame.height, client.frame.top - R.ch] :=
    List.mem_flatMap.mpr ⟨client, hc, List.mem_cons.mpr (.inl (by simp only [Rect.height]; omega))⟩
  exact Lib.nearest_le_of_mem hlt hmem (by omega)

private theorem nextY_of_le {y : Int} (hy : R.area.bottom ≤ y) : R.nextY y = R.area.bottom := by
  have hch := ch_nonneg (R := R)
  rw [nextY_eq, if_neg (by omega), Lib.nearest_of_le hy]

variable (R) in
/-- What is known at the start of a round: nothing before the position is free. -/
private structure Searching (s : Search) : Prop where
  left : R.area.left ≤ s.x
  top : R.area.top ≤ s.y
  bottom : s.y < R.area.bottom ∨ R.area.bottom ≤ s.y ∧ s.y = R.area.top
  optimal : R.Fits → R.FitsAt ⟨s.xOptimal, s.yOptimal⟩
  before : ∀ q, R.FitsAt q → R.CoreFree q → ¬ Before q ⟨s.x, s.y⟩

private theorem fitsAt_iff {p : Point} : R.FitsAt p ↔ R.area.left ≤ p.x ∧ p.x + R.cw ≤ R.area.right ∧
    R.area.top ≤ p.y ∧ p.y + R.ch ≤ R.area.bottom := Iff.rfl

private theorem fits_iff : R.Fits ↔ R.cw < R.area.width ∧ R.ch < R.area.height := by
  simp only [Fits, cw, ch]
  omega

private theorem fits_of_fitsAt {p : Point} (h : R.FitsAt p) : R.Fits := by
  rw [fits_iff, Rect.width, Rect.height]
  have := fitsAt_iff.mp h
  omega

private theorem searching_start : R.Searching R.start where
  left := Int.le_refl _
  top := Int.le_refl _
  bottom := by
    rcases lt_or_ge R.area.top R.area.bottom with h | h
    · exact .inl h
    · exact .inr ⟨h, rfl⟩
  optimal h := by
    have := fits_iff.mp h
    simp only [Rect.width, Rect.height] at this
    exact fitsAt_iff.mpr ⟨Int.le_refl _, by simp only [start]; omega, Int.le_refl _, by simp only [start]; omega⟩
  before q hq _ hbefore := by
    have := fitsAt_iff.mp hq
    simp only [Before, start] at hbefore
    omega

private theorem save_position (s : Search) (overlap : Int) : (save s overlap).x = s.x ∧ (save s overlap).y = s.y := by
  unfold save
  split
  · exact ⟨rfl, rfl⟩
  · split <;> exact ⟨rfl, rfl⟩

private theorem save_optimal {s : Search} {overlap : Int} (h : R.Fits → R.FitsAt ⟨s.xOptimal, s.yOptimal⟩)
    (hs : 0 ≤ overlap → R.Fits → R.FitsAt ⟨s.x, s.y⟩) (hfits : R.Fits) :
    R.FitsAt ⟨(save s overlap).xOptimal, (save s overlap).yOptimal⟩ := by
  unfold save
  split
  · exact h hfits
  · split
    · rename_i hc
      exact hs hc.1 hfits
    · exact h hfits

/-- The three things a round may find. -/
private theorem overlap_cases (x y : Int) :
    (R.overlap x y = hWrong ∧ R.area.bottom < y + R.ch ∧ R.ch < R.area.height) ∨
    (R.overlap x y = wWrong ∧ R.area.right < x + R.cw) ∨
    (x + R.cw ≤ R.area.right ∧ (R.ch < R.area.height → y + R.ch ≤ R.area.bottom) ∧ 0 ≤ R.overlap x y ∧
      (R.overlap x y = 0 ↔ R.CoreFree ⟨x, y⟩)) := by
  by_cases hh : y + R.ch > R.area.bottom ∧ R.ch < R.area.height
  · exact .inl ⟨if_pos hh, hh⟩
  by_cases hw : x + R.cw > R.area.right
  · exact .inr (.inl ⟨(if_neg hh).trans (if_pos hw), hw⟩)
  · exact .inr (.inr ⟨by omega, by omega, overlap_spec hh hw⟩)

/-- A client that blocks a position blocks what follows up to its right edge. -/
private theorem not_coreFree_right {s : Search} (hs : R.Searching s) (h : ¬ R.CoreFree ⟨s.x, s.y⟩)
    (hx : s.x + R.cw ≤ R.area.right) : s.x < R.nextX s.x s.y ∧ s.x < R.area.right ∧ 1 ≤ R.ch ∧
      ∀ q, R.FitsAt q → R.CoreFree q → ¬ Before q ⟨R.nextX s.x s.y, s.y⟩ := by
  simp only [CoreFree, not_forall, not_not] at h
  obtain ⟨client, hc, hcounts, hmeets⟩ := h
  simp only [Rect.Meets, coreAt] at hmeets
  obtain ⟨hlt, hnext⟩ := nextX_spec s.y (show s.x < R.area.right by omega)
  refine ⟨hlt, by omega, by omega, fun q hq hfree hbefore => ?_⟩
  have hge := hs.before q hq hfree
  simp only [Before] at hge hbefore
  have := hnext client hc (by omega) (by omega) (by omega)
  refine hfree client hc hcounts ?_
  simp only [Rect.Meets, coreAt]
  omega

/-- Clients that block a whole row block the rows that follow up to one of their bottom edges. -/
private theorem not_coreFree_below {s : Search} (hs : R.Searching s) (hx : R.area.right < s.x + R.cw)
    (hy : s.y < R.area.bottom) (q : Point) (hq : R.FitsAt q) (hfree : R.CoreFree q) :
    ¬ Before q ⟨R.area.left, R.nextY s.y⟩ := by
  intro hbefore
  have hfits := fitsAt_iff.mp hq
  have hge := hs.before q hq hfree
  simp only [Before] at hge hbefore
  have habove : ¬ R.CoreFree ⟨q.x, s.y⟩ := by
    intro hfree'
    refine hs.before ⟨q.x, s.y⟩ (fitsAt_iff.mpr ⟨hfits.1, hfits.2.1, hs.top, ?_⟩) hfree' (.inr ⟨rfl, ?_⟩)
    · simp only
      omega
    · simp only
      omega
  simp only [CoreFree, not_forall, not_not] at habove
  obtain ⟨client, hc, hcounts, hmeets⟩ := habove
  simp only [Rect.Meets, coreAt] at hmeets
  have := (nextY_spec hy).2 client hc (by omega)
  refine hfree client hc hcounts ?_
  simp only [Rect.Meets, coreAt]
  omega

/-- What the loop ends with. -/
private def Found (R : Request) (p : Point) : Prop :=
  (R.Fits → R.FitsAt p) ∧ (R.IsFirst p ∨ ∀ q, R.FitsAt q → ¬ R.CoreFree q)

private theorem chosen_of_fits {s : Search} (h : R.Fits) : R.chosen s = ⟨s.xOptimal, s.yOptimal⟩ := by
  rw [chosen, if_neg (by have := fits_iff.mp h; omega)]

/-- Where no position is left, the best one is still in the area. -/
private theorem found_of_none {s : Search} (hopt : R.Fits → R.FitsAt ⟨s.xOptimal, s.yOptimal⟩)
    (h : ∀ q, R.FitsAt q → ¬ R.CoreFree q) : Found R (R.chosen s) :=
  ⟨fun hfits => chosen_of_fits hfits ▸ hopt hfits, .inr h⟩

private theorem pass_of_free {s : Search} (h : R.overlap s.x s.y = 0) :
    R.pass s = ({ s with xOptimal := s.x, yOptimal := s.y }, false) := if_pos h

private theorem pass_of_overlap {s : Search} (h : R.overlap s.x s.y ≠ 0) :
    R.pass s = (R.advance (save s (R.overlap s.x s.y)) (R.overlap s.x s.y),
      decide (R.overlap s.x s.y ≠ hWrong ∧
        (R.advance (save s (R.overlap s.x s.y)) (R.overlap s.x s.y)).y < R.area.bottom)) :=
  if_neg h

private theorem found_of_free {s : Search} (hs : R.Searching s) (h : R.overlap s.x s.y = 0) :
    Found R (R.chosen (R.pass s).1) := by
  rw [pass_of_free h]
  rcases overlap_cases (R := R) s.x s.y with ⟨he, -⟩ | ⟨he, -⟩ | ⟨hw, hh, -, hfree⟩
  · exact absurd (he.symm.trans h) (by decide)
  · exact absurd (he.symm.trans h) (by decide)
  by_cases hfits : R.Fits
  · have hat : R.FitsAt ⟨s.x, s.y⟩ := fitsAt_iff.mpr ⟨hs.left, hw, hs.top, hh (fits_iff.mp hfits).2⟩
    rw [Found, chosen_of_fits hfits]
    exact ⟨fun _ => hat, .inl ⟨hat, hfree.mp h, hs.before⟩⟩
  · exact found_of_none (fun h => absurd h hfits) fun q hq => absurd (fits_of_fitsAt hq) hfits

private theorem advance_right {s : Search} {overlap : Int} (h : 0 < overlap) :
    R.advance s overlap = { s with x := R.nextX s.x s.y } := if_pos h

private theorem advance_down {s : Search} :
    R.advance s wWrong = { s with x := R.area.left, y := R.nextY s.y } :=
  (if_neg (by decide)).trans (if_pos rfl)

private theorem advance_wrong {s : Search} : R.advance s hWrong = s :=
  (if_neg (by decide)).trans (if_neg (by decide))

/-- Rounds go on to the right or down. -/
private def measure (R : Request) (s : Search) : Nat × Nat :=
  ((R.area.bottom - s.y).toNat, (R.area.right - s.x).toNat)

private theorem pass_again {s : Search} (hs : R.Searching s) (h : (R.pass s).2 = true) :
    R.Searching (R.pass s).1 ∧ Prod.Lex (· < ·) (· < ·) (measure R (R.pass s).1) (measure R s) := by
  by_cases hzero : R.overlap s.x s.y = 0
  · rw [pass_of_free hzero] at h
    exact absurd h Bool.false_ne_true
  obtain ⟨hsx, hsy⟩ := save_position s (R.overlap s.x s.y)
  rw [pass_of_overlap hzero] at h ⊢
  simp only [decide_eq_true_eq] at h ⊢
  rcases overlap_cases (R := R) s.x s.y with ⟨he, -⟩ | ⟨he, hw⟩ | ⟨hw, hh, hnonneg, hfree⟩
  · exact absurd he h.1
  · -- the row is done
    rw [he, advance_down] at h ⊢
    rw [he] at hsx hsy
    simp only [hsy] at h ⊢
    have hy : s.y < R.area.bottom := by
      by_contra hy
      have := nextY_of_le (not_lt.mp hy)
      omega
    have hlt := (nextY_spec hy).1
    have htop := hs.top
    refine ⟨⟨Int.le_refl _, by simp only; omega, .inl h.2, ?_, not_coreFree_below hs hw hy⟩, ?_⟩
    · exact save_optimal hs.optimal (fun h => absurd h (by decide))
    · exact Prod.Lex.left _ _ (by simp only; omega)
  · have hpos : 0 < R.overlap s.x s.y := by omega
    rw [advance_right hpos] at h ⊢
    simp only [hsx, hsy] at h ⊢
    obtain ⟨hlt, hx, -, hbefore⟩ := not_coreFree_right hs (fun hc => hzero (hfree.mpr hc)) hw
    have hleft := hs.left
    refine ⟨⟨by simp only; omega, hs.top, .inl h.2, ?_, hbefore⟩, ?_⟩
    · refine save_optimal hs.optimal fun _ hfits => ?_
      exact fitsAt_iff.mpr ⟨hs.left, hw, hs.top, hh (fits_iff.mp hfits).2⟩
    · rw [measure, measure]
      exact Prod.Lex.right _ (by simp only; omega)

private theorem pass_last {s : Search} (hs : R.Searching s) (h : (R.pass s).2 = false) :
    Found R (R.chosen (R.pass s).1) := by
  by_cases hzero : R.overlap s.x s.y = 0
  · exact found_of_free hs hzero
  obtain ⟨hsx, hsy⟩ := save_position s (R.overlap s.x s.y)
  rw [pass_of_overlap hzero] at h ⊢
  simp only [decide_eq_false_iff_not, not_and, not_lt] at h ⊢
  rcases overlap_cases (R := R) s.x s.y with ⟨he, hh, -⟩ | ⟨he, hw⟩ | ⟨hw, hh, hnonneg, hfree⟩
  · rw [he, advance_wrong]
    refine found_of_none (save_optimal hs.optimal (fun h => absurd h (by decide))) fun q hq hfree => ?_
    have hge := hs.before q hq hfree
    have := fitsAt_iff.mp hq
    simp only [Before] at hge
    omega
  · have hlow := h (he ▸ by decide)
    rw [he, advance_down] at hlow ⊢
    rw [he] at hsx hsy
    simp only [hsy] at hlow
    refine found_of_none (save_optimal hs.optimal (fun h => absurd h (by decide))) fun q hq hfree => ?_
    have hfits := fitsAt_iff.mp hq
    have hge := hs.before q hq hfree
    simp only [Before] at hge
    have hch := ch_nonneg (R := R)
    rcases hs.bottom with hy | ⟨hy, htop⟩
    · have hbelow := not_coreFree_below hs hw hy q hq hfree
      simp only [Before] at hbelow
      -- a row left out can only be the last one, for a window of a single row, which has no core
      have hcorner : R.FitsAt ⟨R.area.left, R.area.top⟩ := fitsAt_iff.mpr ⟨Int.le_refl _, by simp only; omega,
        Int.le_refl _, by simp only; omega⟩
      have hstart := hs.before _ hcorner fun client _ _ hmeets => by
        simp only [Rect.Meets, coreAt] at hmeets
        omega
      simp only [Before] at hstart
      have := hs.top
      omega
    · omega
  · have hpos : 0 < R.overlap s.x s.y := by omega
    have hlow := h fun he => absurd (he ▸ hpos) (by decide)
    rw [advance_right hpos] at hlow ⊢
    obtain ⟨-, -, hch, -⟩ := not_coreFree_right hs (fun hc => hzero (hfree.mpr hc)) hw
    refine found_of_none (save_optimal hs.optimal fun _ hfits => ?_) fun q hq _ => ?_
    · exact fitsAt_iff.mpr ⟨hs.left, hw, hs.top, hh (fits_iff.mp hfits).2⟩
    · have := fitsAt_iff.mp hq
      have := hs.bottom
      simp only [hsy] at hlow
      omega

private theorem search_ends : ∃ s, Lib.Ends R.pass R.start s ∧ Found R (R.chosen s) :=
  Lib.exists_ends (InvImage.wf (measure R) (Prod.lex Nat.lt_wfRel Nat.lt_wfRel).wf) (fun _ => pass_again)
    (fun _ => pass_last) searching_start

end search

/-- The search ends with the position. -/
def Places (p : Point) : Prop := ∀ᶠ n in Filter.atTop, R.placeSmart n = some p

theorem Places.unique {R : Request} {p q : Point} (hp : R.Places p) (hq : R.Places q) : p = q := by
  obtain ⟨n, hn, hn'⟩ := (hp.and hq).exists
  exact Option.some.inj (hn.symm.trans hn')

private theorem exists_places (R : Request) : ∃ p, R.Places p ∧ Found R p := by
  obtain ⟨s, hends, hfound⟩ := search_ends (R := R)
  exact ⟨R.chosen s, hends.mono fun n hn => congrArg (Option.map R.chosen) hn, hfound⟩

/-- Smart placement keeps a window in the area, at the first free position if there is one. -/
theorem exists_places_isFirst {R : Request} (h : R.Fits) :
    ∃ p, R.Places p ∧ R.FitsAt p ∧ (R.IsFirst p ∨ ∀ q, ¬ R.IsFirst q) := by
  obtain ⟨p, hp, hfits, hfirst⟩ := exists_places R
  exact ⟨p, hp, hfits h, hfirst.imp_right fun hnone q hq => hnone q hq.1 hq.2.1⟩

/-- The search ends, with a position in the area if there is one, and without overlap if that is possible. -/
def Right : Prop := ∃ p, R.Places p ∧ (R.Fits → R.FitsAt p) ∧ ((∃ q, R.FitsAt q ∧ R.Free q) → R.Free p)

private theorem coreFree_of_free {R : Request} {p : Point} (h : R.Free p) : R.CoreFree p := by
  intro client hc hcounts hmeets
  refine h client hc hcounts ?_
  simp only [Rect.Meets, coreAt, frameAt] at hmeets ⊢
  omega

private theorem IsFirst.unique {R : Request} {p q : Point} (hp : R.IsFirst p) (hq : R.IsFirst q) : p = q := by
  have h := hp.2.2 q hq.1 hq.2.1
  have h' := hq.2.2 p hp.1 hp.2.1
  obtain ⟨x, y⟩ := p
  obtain ⟨x', y'⟩ := q
  simp only [Before, Point.mk.injEq] at h h' ⊢
  omega

/-- The search is right exactly where a window of which the core is free at the first such position does not touch
another one there with its last column or row, or has no free position. -/
theorem right_iff : R.Right ↔ ∀ q, R.FitsAt q → R.Free q → ∀ p, R.IsFirst p → R.Free p := by
  obtain ⟨chosen, hplace, hfits, hfirst⟩ := exists_places R
  constructor
  · rintro ⟨p, hp, -, hfree⟩ q hq hqfree p' hp'
    obtain rfl := hp.unique hplace
    have hchosen := hfirst.resolve_right fun hnone => hnone q hq (coreFree_of_free hqfree)
    exact hp'.unique hchosen ▸ hfree ⟨q, hq, hqfree⟩
  · refine fun h => ⟨chosen, hplace, hfits, ?_⟩
    rintro ⟨q, hq, hqfree⟩
    exact h q hq hqfree _ (hfirst.resolve_right fun hnone => hnone q hq (coreFree_of_free hqfree))

/-- A window of 51 columns beside one that starts in column 50. -/
private def tight : Request where
  session := ⟨false, 1⟩
  area := ⟨0, 0, 99, 99⟩
  window := { id := 0, frame := ⟨0, 0, 50, 39⟩ }
  stackingOrder := [{ id := 1, frame := ⟨50, 0, 99, 49⟩ }]
  area_valid := by decide
  frame_valid := by decide
  size_nonneg := by decide

/-- It is placed over the first column of the other one, although there is room below. -/
theorem not_right_tight : ¬ tight.Right := by
  rintro ⟨p, hp, -, hfree⟩
  obtain ⟨n, hn, hle⟩ := (hp.and (Filter.eventually_ge_atTop 1)).exists
  obtain ⟨n, rfl⟩ := Nat.exists_eq_add_of_le' hle
  have hplace : tight.placeSmart (n + 1) = some ⟨0, 0⟩ := by
    rw [placeSmart, Lib.doWhile_succ, if_neg (by decide)]
    decide
  obtain rfl : (⟨0, 0⟩ : Point) = p := Option.some.inj (hplace.symm.trans hn)
  exact absurd (hfree ⟨⟨0, 50⟩, by decide, by decide⟩) (by decide)

end Request

end KWinFT.Placement
