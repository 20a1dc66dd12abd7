import KWinFT.Placement.Packing

/-! Layouts seen in a mirror, and when packing to the right or down there is packing to the left or up here. -/
namespace KWinFT.Geometry

/-- The image about a vertical axis that sends zero to `a`. -/
def Point.mirror (a : Int) (p : Point) : Point := ⟨a - p.x, p.y⟩

def Rect.mirror (a : Int) (r : Rect) : Rect := ⟨a - r.right, r.top, a - r.left, r.bottom⟩

/-- The image about a horizontal axis. -/
def Rect.flip (a : Int) (r : Rect) : Rect := ⟨r.left, a - r.bottom, r.right, a - r.top⟩

/-- The image about the diagonal. -/
def Point.transpose (p : Point) : Point := ⟨p.y, p.x⟩

def Rect.transpose (r : Rect) : Rect := ⟨r.top, r.left, r.bottom, r.right⟩

end KWinFT.Geometry

namespace KWinFT.Areas.Screens
open KWinFT.Geometry

section image
variable {f : Point → Point} {g : Rect → Rect} {pos : Point}

theorem numberFrom_map (hcontains : ∀ r, (g r).contains (f pos) = r.contains pos)
    (hdistance : ∀ r, distance (g r) (f pos) = distance r pos) (rs : List Rect) (i bestScreen minDistance : Nat) :
    numberFrom (f pos) (rs.map g) i bestScreen minDistance = numberFrom pos rs i bestScreen minDistance := by
  induction rs generalizing i bestScreen minDistance with
  | nil => rfl
  | cons r rs ih => simp only [List.map_cons, numberFrom, hcontains, hdistance, ih]

theorem numberFrom_lt (rs : List Rect) {i bestScreen minDistance n : Nat} (hbest : bestScreen < n)
    (hn : i + rs.length ≤ n) : numberFrom pos rs i bestScreen minDistance < n := by
  induction rs generalizing i bestScreen minDistance with
  | nil => exact hbest
  | cons r rs ih =>
    rw [List.length_cons] at hn
    rw [numberFrom]
    split
    · omega
    split
    · exact ih (by omega) (by omega)
    · exact ih hbest (by omega)

end image

theorem number_lt {scr : Screens} (h : scr.geometries ≠ []) (pos : Point) : scr.number pos < scr.geometries.length :=
  numberFrom_lt _ (List.length_pos_of_ne_nil h) (by omega)

private theorem span_mirror (a first last : Int) :
    Rect.span (a - last) (a - first) = (a - (Rect.span first last).2, a - (Rect.span first last).1) := by
  unfold Rect.span
  rw [show a - first - (a - last) + 1 = last - first + 1 by omega]
  split <;> rfl

theorem contains_mirror (a : Int) (r : Rect) (p : Point) : (r.mirror a).contains (p.mirror a) = r.contains p := by
  unfold Rect.contains
  rw [decide_eq_decide, Rect.mirror, Point.mirror, span_mirror]
  dsimp only
  omega

theorem contains_transpose (r : Rect) (p : Point) : r.transpose.contains p.transpose = r.contains p := by
  unfold Rect.contains
  rw [decide_eq_decide, Rect.transpose, Point.transpose]
  tauto

private theorem manhattanLength_mirror (a : Int) (p q : Point) :
    manhattanLength (p.mirror a) (q.mirror a) = manhattanLength p q := by
  simp only [manhattanLength, Point.mirror]
  omega

private theorem manhattanLength_transpose (p q : Point) :
    manhattanLength p.transpose q.transpose = manhattanLength p q := Nat.add_comm ..

theorem distance_mirror (a : Int) (r : Rect) (p : Point) : distance (r.mirror a) (p.mirror a) = distance r p := by
  have hcorner : ∀ x y, manhattanLength ⟨a - x, y⟩ (p.mirror a) = manhattanLength ⟨x, y⟩ p := fun x y =>
    manhattanLength_mirror a ⟨x, y⟩ p
  simp only [distance, Rect.mirror, hcorner]
  omega

theorem distance_transpose (r : Rect) (p : Point) : distance r.transpose p.transpose = distance r p := by
  have hcorner : ∀ x y, manhattanLength ⟨y, x⟩ p.transpose = manhattanLength ⟨x, y⟩ p := fun x y =>
    manhattanLength_transpose ⟨x, y⟩ p
  simp only [distance, Rect.transpose, hcorner]
  omega

end KWinFT.Areas.Screens

namespace KWinFT.Placement
open KWinFT.Geometry Areas

def Toplevel.map (g : Rect → Rect) (w : Toplevel) : Toplevel := { w with frame := g w.frame }

namespace Layout
variable (callees : Callees) (L : Layout)

/-- The layout with every rectangle sent to its image. -/
def map (g : Rect → Rect) (m : Margins → Margins) : Layout where
  session := L.session
  scr := ⟨L.scr.geometries.map g⟩
  screenarea := L.screenarea.map g
  clients := L.clients.map (·.map g)
  window := L.window.map g
  pendingFrame := g L.pendingFrame
  margins := m L.margins
  movable := L.movable
  maximized := L.maximized
  checkScreen := L.checkScreen
  exists_screen := by simpa using L.exists_screen

def mirror (a : Int) : Layout := L.map (.mirror a) fun m => ⟨m.right, m.top, m.left, m.bottom⟩

def transpose : Layout := L.map .transpose fun m => ⟨m.top, m.left, m.bottom, m.right⟩

/-- No resize is pending, and what a change of the screen does to a window has no place: there is a single screen, or
the window is not maximized and no rule asks for another one. -/
def Settled : Prop :=
  L.pendingFrame.width = L.window.frame.width ∧ L.pendingFrame.height = L.window.frame.height ∧
    (L.scr.geometries.length = 1 ∨
      (¬ L.maximized ∧ ∀ screen < L.scr.geometries.length, L.checkScreen screen = screen))

section images
variable {L} {g : Rect → Rect} {m : Margins → Margins}

theorem others_map : (L.map g m).others = L.others.map (·.map g) := by
  change List.filter _ (L.clients.map (·.map g)) = (L.clients.filter _).map (·.map g)
  rw [List.filter_map]
  rfl

theorem maximizeArea_map {f : Point → Point} {p : Point} (hcontains : ∀ r, (g r).contains (f p) = r.contains p)
    (hdistance : ∀ r, Screens.distance (g r) (f p) = Screens.distance r p) :
    (L.map g m).maximizeArea (f p) = g (L.maximizeArea p) := by
  have hnumber : (L.map g m).scr.number (f p) = L.scr.number p := Screens.numberFrom_map hcontains hdistance ..
  have hlt := Screens.number_lt L.exists_screen p
  rw [maximizeArea, hnumber, maximizeArea]
  have hgeometry : (L.map g m).scr.geometry (L.scr.number p) = g (L.scr.geometry (L.scr.number p)) := by
    simp [map, Screens.geometry, List.getD, hlt]
  rw [hgeometry]
  simp only [map, List.getD, List.getElem?_map, Option.getD_map]

theorem maximizeArea_mirror (a : Int) (p : Point) :
    (L.mirror a).maximizeArea (p.mirror a) = (L.maximizeArea p).mirror a :=
  maximizeArea_map (fun r => Screens.contains_mirror a r p) fun r => Screens.distance_mirror a r p

theorem maximizeArea_transpose (p : Point) : L.transpose.maximizeArea p.transpose = (L.maximizeArea p).transpose :=
  maximizeArea_map (fun r => Screens.contains_transpose r p) fun r => Screens.distance_transpose r p

private theorem moveTo_congr {r r' : Rect} (hw : r.width = r'.width) (hh : r.height = r'.height) (p : Point) :
    r.moveTo p = r'.moveTo p := by
  simp only [Rect.width, Rect.height] at hw hh
  ext <;> simp only [Rect.moveTo, Rect.moveTop, Rect.moveLeft] <;> omega

variable {callees : Callees}

/-- A settled window is only moved. -/
private theorem packTo_of_settled (h : L.Settled) (left top : Int) :
    L.packTo callees left top = L.window.frame.moveTo ⟨left, top⟩ := by
  obtain ⟨hw, hh, hscreen⟩ := h
  rw [← moveTo_congr hw hh]
  have hlt : ∀ p, L.scr.number p < L.scr.geometries.length := Screens.number_lt L.exists_screen
  rcases hscreen with hone | ⟨hrestored, hrule⟩
  · have hzero (p : Point) : L.scr.number p = 0 := by
      have := hlt p
      omega
    simp only [packTo, hzero, ne_eq, not_true_eq_false, if_false]
  · simp only [packTo, hrule _ (hlt _), hrestored, if_true, if_false, Bool.false_eq_true, ite_self]

theorem Settled.mirror (h : L.Settled) (a : Int) : (L.mirror a).Settled := by
  obtain ⟨hw, hh, hscreen⟩ := h
  refine ⟨?_, hh, ?_⟩
  · change (L.pendingFrame.mirror a).width = (L.window.frame.mirror a).width
    simp only [Rect.mirror, Rect.width] at hw ⊢
    omega
  · simpa only [Layout.mirror, map, List.length_map] using hscreen

theorem Settled.transpose (h : L.Settled) : L.transpose.Settled := by
  obtain ⟨hw, hh, hscreen⟩ := h
  refine ⟨hh, hw, ?_⟩
  simpa only [Layout.transpose, map, List.length_map] using hscreen

end images

section right
variable {callees L} {a : Int}

/-- Where the window would end on its right: the right of an area that reaches past `edge`, or of the one next to it. -/
def rightBound (edge : Int) (area : Rect) : Int :=
  if area.right ≤ edge then (L.maximizeArea ⟨L.window.frame.right + 1, L.window.frame.center.y⟩).right else area.right

/-- Last columns before the windows to be met. -/
def obstacles : List Int := (L.others.filter fun other => ¬ L.apartY other).map (·.frame.left - 1)

/-- The centre that counts in the mirror, which is rounded the other way. -/
def mirroredCenter (a : Int) : Point := (L.pendingFrame.mirror a).center.mirror a

private theorem packPositionRight_eq (h : L.margins.right = 0) (oldX : Int) :
    L.packPositionRight oldX true = if L.rightBound oldX L.movementArea ≤ oldX then oldX else
      Lib.nearest oldX (L.rightBound oldX L.movementArea) L.obstacles := by
  simp only [packPositionRight, h, Int.add_zero, ite_self, Lib.nearest, obstacles, List.foldl_map, List.foldl_filter,
    rightBound, decide_eq_true_eq, ge_iff_le, gt_iff_lt, ite_true]
  congr 1
  refine List.foldl_ext _ _ _ fun x other _ => ?_
  grind

private theorem foldl_mirror (edge bound : Int) (others : List Toplevel) :
    (others.map (·.map (.mirror a))).foldl (fun newX other =>
      if other.frame.right + 1 > newX ∧ other.frame.right + 1 < a - edge ∧ ¬ (L.mirror a).apartY other then
        other.frame.right + 1 else newX) (a - bound) =
    a - Lib.nearest edge bound ((others.filter fun other => ¬ L.apartY other).map (·.frame.left - 1)) := by
  induction others generalizing bound with
  | nil => rfl
  | cons other others ih =>
    rw [List.map_cons, List.foldl_cons]
    have hright : (other.map (.mirror a)).frame.right = a - other.frame.left := rfl
    by_cases h : L.apartY other
    · rw [if_neg (fun hc => hc.2.2 h), ih, List.filter_cons_of_neg (by simpa using h)]
    · rw [List.filter_cons_of_pos (by simpa using h), List.map_cons, Lib.nearest_cons, ← ih]
      congr 1
      by_cases hx : other.frame.left - 1 < bound ∧ edge < other.frame.left - 1
      · rw [if_pos hx, if_pos ⟨by omega, by omega, h⟩]
        omega
      · rw [if_neg hx, if_neg fun hc => hx (by omega)]

private theorem packPositionLeft_mirror (h : L.margins.right = 0) :
    (L.mirror a).packPositionLeft (a - L.window.frame.right) true =
      a - (if L.rightBound L.window.frame.right (L.maximizeArea (L.mirroredCenter a)) ≤ L.window.frame.right then
        L.window.frame.right else Lib.nearest L.window.frame.right
          (L.rightBound L.window.frame.right (L.maximizeArea (L.mirroredCenter a))) L.obstacles) := by
  have hcenter : (L.mirror a).pendingFrame.center = (L.mirroredCenter a).mirror a := by
    simp only [mirroredCenter, Point.mirror, Int.sub_sub_self]
    rfl
  have harea : (L.mirror a).movementArea.left = a - (L.maximizeArea (L.mirroredCenter a)).right := by
    rw [movementArea, hcenter, maximizeArea_mirror]
    rfl
  have hpoint : (⟨(L.mirror a).window.frame.left - 1, (L.mirror a).window.frame.center.y⟩ : Point) =
      Point.mirror a ⟨L.window.frame.right + 1, L.window.frame.center.y⟩ :=
    congrArg (fun x => (⟨x, L.window.frame.center.y⟩ : Point)) (Int.sub_sub ..)
  have hbeyond :
      ((L.mirror a).maximizeArea (Point.mirror a ⟨L.window.frame.right + 1, L.window.frame.center.y⟩)).left =
      a - (L.maximizeArea ⟨L.window.frame.right + 1, L.window.frame.center.y⟩).right := by
    rw [maximizeArea_mirror]
    rfl
  have hbound : (if a - L.window.frame.right ≤ a - (L.maximizeArea (L.mirroredCenter a)).right then
      a - (L.maximizeArea ⟨L.window.frame.right + 1, L.window.frame.center.y⟩).right
      else a - (L.maximizeArea (L.mirroredCenter a)).right) =
        a - L.rightBound L.window.frame.right (L.maximizeArea (L.mirroredCenter a)) := by
    unfold rightBound
    split <;> split <;> omega
  have hothers : (L.mirror a).others = L.others.map (·.map (.mirror a)) := others_map
  simp only [packPositionLeft, hpoint, hbeyond, harea, hbound, show (L.mirror a).margins.left = 0 from h, Int.sub_zero,
    ite_self, ite_true]
  rw [hothers, foldl_mirror, ← obstacles]
  split <;> split <;> omega

/-- Packing ends at the same column in both directions. -/
def PacksAlike (a : Int) : Prop :=
  let edge := L.window.frame.right
  let bound := L.rightBound (edge + 1) L.movementArea
  let mirrored := L.rightBound edge (L.maximizeArea (L.mirroredCenter a))
  (bound ≤ edge + 1 ∧ edge < mirrored ∧ (mirrored = edge + 1 ∨ edge + 1 ∈ L.obstacles)) ∨
    (edge + 1 < bound ∧ edge + 1 < mirrored ∧ edge + 1 ∉ L.obstacles ∧
      (bound = mirrored ∨ ∃ x ∈ L.obstacles, edge + 1 < x ∧ x ≤ bound ∧ x ≤ mirrored))

private theorem column_eq_iff {edge bound mirrored : Int} {xs : List Int} :
    (if bound ≤ edge + 1 then edge + 1 else Lib.nearest (edge + 1) bound xs) =
      (if mirrored ≤ edge then edge else Lib.nearest edge mirrored xs) ↔
    (bound ≤ edge + 1 ∧ edge < mirrored ∧ (mirrored = edge + 1 ∨ edge + 1 ∈ xs)) ∨
      (edge + 1 < bound ∧ edge + 1 < mirrored ∧ edge + 1 ∉ xs ∧
        (bound = mirrored ∨ ∃ x ∈ xs, edge + 1 < x ∧ x ≤ bound ∧ x ≤ mirrored)) := by
  by_cases hm : mirrored ≤ edge
  · rw [if_pos hm]
    split
    · omega
    · have : edge + 1 < Lib.nearest (edge + 1) bound xs := Lib.lt_nearest (by omega)
      omega
  rw [if_neg hm]
  by_cases hnext : mirrored = edge + 1 ∨ edge + 1 ∈ xs
  · -- in the mirror, the window goes one step
    have hstep : Lib.nearest edge mirrored xs = edge + 1 := by
      have hlt : edge < Lib.nearest edge mirrored xs := Lib.lt_nearest (by omega)
      rcases hnext with h | h
      · have : Lib.nearest edge mirrored xs ≤ mirrored := Lib.nearest_le (by omega)
        omega
      · have := Lib.nearest_le_of_mem (show edge < mirrored by omega) h (by omega)
        omega
    rw [hstep]
    split
    · exact iff_of_true rfl (.inl ⟨by assumption, by omega, hnext⟩)
    · have : edge + 1 < Lib.nearest (edge + 1) bound xs := Lib.lt_nearest (by omega)
      refine iff_of_false (by omega) ?_
      rintro (h | ⟨-, h, hmem, -⟩)
      · omega
      · exact hnext.elim (by omega) hmem
  · obtain ⟨hne, hmem⟩ := not_or.mp hnext
    have hlim : Lib.nearest edge mirrored xs = Lib.nearest (edge + 1) mirrored xs :=
      Lib.nearest_congr_lim fun x hx => by
        have : x ≠ edge + 1 := fun he => hmem (he ▸ hx)
        omega
    rw [hlim]
    have hlt : edge + 1 < Lib.nearest (edge + 1) mirrored xs := Lib.lt_nearest (by omega)
    split
    · refine iff_of_false (by omega) ?_
      rintro (⟨-, -, h⟩ | h)
      · exact hnext h
      · omega
    · rw [Lib.nearest_eq_nearest_iff (by omega) (by omega)]
      constructor
      · exact fun h => .inr ⟨by omega, by omega, hmem, h⟩
      · rintro (h | h)
        · omega
        · exact h.2.2.2

/-- The window touches the outermost bound on its right. -/
def TouchesRight : Prop := L.window.frame.right =
  max L.movementArea.right (L.maximizeArea ⟨L.window.frame.right + 1, L.window.frame.center.y⟩).right

instance : Decidable L.TouchesRight := inferInstanceAs (Decidable (_ = _))

def TouchesLeft : Prop := L.window.frame.left =
  min L.movementArea.left (L.maximizeArea ⟨L.window.frame.left - 1, L.window.frame.center.y⟩).left

variable (callees) in
/-- Packing to the right is packing to the left in the mirror, and neither moves a window at the outermost bound. -/
def SymmetricX (a : Int) : Prop :=
  L.slotWindowPackRight callees = ((L.mirror a).slotWindowPackLeft callees).mirror a ∧
    (L.TouchesRight → L.slotWindowPackRight callees = L.window.frame) ∧
    (L.TouchesLeft → L.slotWindowPackLeft callees = L.window.frame)

private theorem slotWindowPackRight_of_movable (hsettled : L.Settled) (hmov : L.movable) :
    L.slotWindowPackRight callees = L.window.frame.moveRight (L.packPositionRight (L.window.frame.right + 1) true) := by
  have hold : L.window.frame.topLeft.x + L.window.frame.width = L.window.frame.right + 1 := by
    simp only [Rect.topLeft, Rect.width]
    omega
  rw [slotWindowPackRight, if_pos hmov, hold, packTo_of_settled hsettled]
  ext <;> simp only [Rect.moveTo, Rect.moveTop, Rect.moveLeft, Rect.moveRight, Rect.topLeft, Rect.width] <;> omega

private theorem slotWindowPackLeft_of_movable (hsettled : L.Settled) (hmov : L.movable) :
    L.slotWindowPackLeft callees = L.window.frame.moveLeft (L.packPositionLeft L.window.frame.left true) := by
  rw [slotWindowPackLeft, if_pos hmov, packTo_of_settled hsettled]
  simp [Rect.moveTo, Rect.moveTop, Rect.moveLeft, Rect.topLeft]

private theorem packPositionLeft_of_touchesLeft (h : L.margins.left = 0) (ht : L.TouchesLeft) :
    L.packPositionLeft L.window.frame.left true = L.window.frame.left := by
  have hleft : L.window.frame.left = min _ _ := ht
  simp only [packPositionLeft, h, Int.sub_zero, ite_self]
  rw [if_pos]
  split <;> omega

private theorem packPositionRight_of_touchesRight (h : L.margins.right = 0) (ht : L.TouchesRight) :
    L.packPositionRight (L.window.frame.right + 1) true = L.window.frame.right + 1 := by
  have hright : L.window.frame.right = max _ _ := ht
  rw [packPositionRight_eq h, if_pos]
  unfold rightBound
  split <;> omega

private theorem moveRight_eq_mirror_iff (r : Rect) (x x' : Int) :
    r.moveRight x = ((r.mirror a).moveLeft (a - x')).mirror a ↔ x = x' := by
  constructor
  · exact fun h => (congrArg Rect.right h).trans (by simp only [Rect.moveLeft, Rect.mirror]; omega)
  · rintro rfl
    ext <;> simp only [Rect.moveRight, Rect.moveLeft, Rect.mirror] <;> omega

/-- Without borders, both directions mirror each other exactly where a window to be moved is not at the outermost
bound and does not meet what stands next to it. -/
private theorem symmetricX_iff (hl : L.margins.left = 0) (hr : L.margins.right = 0)
    (hsettled : L.movable → L.Settled) :
    L.SymmetricX callees a ↔ (L.movable → L.PacksAlike a ∧ ¬ L.TouchesRight) := by
  by_cases hmov : L.movable
  · have hmov' : (L.mirror a).movable := hmov
    specialize hsettled hmov
    have hpacks : L.slotWindowPackRight callees = ((L.mirror a).slotWindowPackLeft callees).mirror a ↔
        L.PacksAlike a := by
      rw [slotWindowPackRight_of_movable hsettled hmov, slotWindowPackLeft_of_movable (hsettled.mirror a) hmov',
        show (L.mirror a).window.frame = L.window.frame.mirror a from rfl,
        show (L.window.frame.mirror a).left = a - L.window.frame.right from rfl, packPositionLeft_mirror hr,
        moveRight_eq_mirror_iff, packPositionRight_eq hr]
      exact column_eq_iff
    have hleft : L.TouchesLeft → L.slotWindowPackLeft callees = L.window.frame := by
      intro ht
      rw [slotWindowPackLeft_of_movable hsettled hmov, packPositionLeft_of_touchesLeft hl ht]
      simp [Rect.moveLeft]
    have hright : L.TouchesRight → L.slotWindowPackRight callees ≠ L.window.frame := by
      intro ht he
      rw [slotWindowPackRight_of_movable hsettled hmov, packPositionRight_of_touchesRight hr ht] at he
      have hedge : L.window.frame.right + 1 = L.window.frame.right := congrArg Rect.right he
      omega
    simp only [SymmetricX, hpacks, hmov, forall_const]
    exact ⟨fun h => ⟨h.1, fun ht => hright ht (h.2.1 ht)⟩, fun h => ⟨h.1, fun ht => absurd ht h.2, hleft⟩⟩
  · have hmov' : ¬ (L.mirror a).movable := hmov
    refine iff_of_true ?_ fun h => absurd h hmov
    rw [SymmetricX, slotWindowPackRight, slotWindowPackLeft, slotWindowPackLeft]
    simp only [hmov, hmov']
    refine ⟨?_, fun _ => rfl, fun _ => rfl⟩
    change L.window.frame = (L.window.frame.mirror a).mirror a
    ext <;> simp only [Rect.mirror] <;> omega

end right

section down
variable {callees L}

/-- The image about a horizontal axis. -/
def flip (a : Int) : Layout := L.map (.flip a) fun m => ⟨m.left, m.bottom, m.right, m.top⟩

def TouchesBottom : Prop := L.window.frame.bottom =
  max L.movementArea.bottom (L.maximizeArea ⟨L.window.frame.center.x, L.window.frame.bottom + 1⟩).bottom

def TouchesTop : Prop := L.window.frame.top =
  min L.movementArea.top (L.maximizeArea ⟨L.window.frame.center.x, L.window.frame.top - 1⟩).top

variable (callees) in
/-- The same of packing down and up. -/
def SymmetricY (a : Int) : Prop :=
  L.slotWindowPackDown callees = ((L.flip a).slotWindowPackUp callees).flip a ∧
    (L.TouchesBottom → L.slotWindowPackDown callees = L.window.frame) ∧
    (L.TouchesTop → L.slotWindowPackUp callees = L.window.frame)

private theorem movementArea_transpose : L.transpose.movementArea = L.movementArea.transpose :=
  maximizeArea_transpose L.pendingFrame.center

private theorem maximizeArea_beyond :
    L.transpose.maximizeArea ⟨L.transpose.window.frame.right + 1, L.transpose.window.frame.center.y⟩ =
      (L.maximizeArea ⟨L.window.frame.center.x, L.window.frame.bottom + 1⟩).transpose :=
  maximizeArea_transpose ⟨L.window.frame.center.x, L.window.frame.bottom + 1⟩

private theorem maximizeArea_before :
    L.transpose.maximizeArea ⟨L.transpose.window.frame.left - 1, L.transpose.window.frame.center.y⟩ =
      (L.maximizeArea ⟨L.window.frame.center.x, L.window.frame.top - 1⟩).transpose :=
  maximizeArea_transpose ⟨L.window.frame.center.x, L.window.frame.top - 1⟩

private theorem transpose_inj {r r' : Rect} : r.transpose = r'.transpose ↔ r = r' :=
  ⟨congrArg Rect.transpose, congrArg Rect.transpose⟩

private theorem packPositionDown_eq (h : L.margins.bottom = 0) (oldY : Int) :
    L.packPositionDown oldY true = L.transpose.packPositionRight oldY true := by
  have hothers : L.transpose.others = L.others.map (·.map .transpose) := others_map
  simp only [packPositionRight, packPositionDown, hothers, maximizeArea_beyond, movementArea_transpose, h,
    show L.transpose.margins.right = 0 from h, Int.add_zero, ite_self, List.foldl_map]
  rfl

private theorem packPositionUp_eq (h : L.margins.top = 0) (oldY : Int) :
    L.packPositionUp oldY true = L.transpose.packPositionLeft oldY true := by
  have hothers : L.transpose.others = L.others.map (·.map .transpose) := others_map
  simp only [packPositionLeft, packPositionUp, hothers, maximizeArea_before, movementArea_transpose,
    show L.transpose.margins.left = 0 from h, Int.sub_zero, ite_self, List.foldl_map]
  rfl

private theorem slotWindowPackDown_eq (h : L.margins.bottom = 0) (hsettled : L.movable → L.Settled) :
    L.slotWindowPackDown callees = (L.transpose.slotWindowPackRight callees).transpose := by
  rw [slotWindowPackDown, slotWindowPackRight, packPositionDown_eq h]
  by_cases hmov : L.movable
  · rw [if_pos hmov, if_pos (show L.transpose.movable from hmov), packTo_of_settled (hsettled hmov),
      packTo_of_settled (hsettled hmov).transpose]
    rfl
  · rw [if_neg hmov, if_neg (show ¬ L.transpose.movable from hmov)]
    rfl

private theorem slotWindowPackUp_eq (h : L.margins.top = 0) (hsettled : L.movable → L.Settled) :
    L.slotWindowPackUp callees = (L.transpose.slotWindowPackLeft callees).transpose := by
  rw [slotWindowPackUp, slotWindowPackLeft, packPositionUp_eq h]
  by_cases hmov : L.movable
  · rw [if_pos hmov, if_pos (show L.transpose.movable from hmov), packTo_of_settled (hsettled hmov),
      packTo_of_settled (hsettled hmov).transpose]
    rfl
  · rw [if_neg hmov, if_neg (show ¬ L.transpose.movable from hmov)]
    rfl

private theorem transpose_flip (a : Int) : (L.flip a).transpose = L.transpose.mirror a := by
  simp only [flip, transpose, mirror, map, List.map_map]
  rfl

private theorem Settled.flip (h : L.Settled) (a : Int) : (L.flip a).Settled := by
  obtain ⟨hw, hh, hscreen⟩ := h
  refine ⟨hw, ?_, ?_⟩
  · change (L.pendingFrame.flip a).height = (L.window.frame.flip a).height
    simp only [Rect.flip, Rect.height] at hh ⊢
    omega
  · simpa only [Layout.flip, map, List.length_map] using hscreen

private theorem symmetricY_iff (ht : L.margins.top = 0) (hb : L.margins.bottom = 0)
    (hsettled : L.movable → L.Settled) (a : Int) :
    L.SymmetricY callees a ↔ L.transpose.SymmetricX callees a := by
  have hbottom : L.TouchesBottom ↔ L.transpose.TouchesRight := by
    rw [TouchesBottom, TouchesRight, movementArea_transpose, maximizeArea_beyond]
    rfl
  have htop : L.TouchesTop ↔ L.transpose.TouchesLeft := by
    rw [TouchesTop, TouchesLeft, movementArea_transpose, maximizeArea_before]
    rfl
  have hframe : L.window.frame = L.transpose.window.frame.transpose := rfl
  have hmargin : (L.flip a).margins.top = 0 := hb
  rw [SymmetricY, SymmetricX, hbottom, htop, slotWindowPackDown_eq hb hsettled, slotWindowPackUp_eq ht hsettled,
    slotWindowPackUp_eq hmargin fun hmov => (hsettled hmov).flip a, transpose_flip, hframe, transpose_inj, transpose_inj,
    show ∀ r : Rect, r.transpose.flip a = (r.mirror a).transpose from fun _ => rfl, transpose_inj]

end down

/-- The two axes of a mirror. -/
inductive Axis
  | vertical
  | horizontal

/-- Packing in a direction across the axis is packing in the other one in the mirror. -/
def Symmetric (a : Int) : Axis → Prop
  | .vertical => L.SymmetricX callees a
  | .horizontal => L.SymmetricY callees a

/-- The layout turned so that the axis is vertical. -/
def turned : Axis → Layout
  | .vertical => L
  | .horizontal => L.transpose

/-- Settled windows without borders are packed alike in the mirror exactly where what stands next to them is not in the
way: packing to the right or down looks one pixel too far. -/
theorem symmetric_iff (hborders : L.margins = ⟨0, 0, 0, 0⟩) (hsettled : L.movable → L.Settled) (a : Int) (axis : Axis) :
    L.Symmetric callees a axis ↔
      ((L.turned axis).movable → (L.turned axis).PacksAlike a ∧ ¬ (L.turned axis).TouchesRight) := by
  cases axis with
  | vertical => exact symmetricX_iff (by rw [hborders]) (by rw [hborders]) hsettled
  | horizontal =>
    have hl : L.transpose.margins.left = 0 := congrArg Margins.top hborders
    have hr : L.transpose.margins.right = 0 := congrArg Margins.bottom hborders
    exact (symmetricY_iff hl hr hsettled a).trans (symmetricX_iff hl hr fun hmov => (hsettled hmov).transpose)

/-- Nothing more happens to a window on another screen. -/
private def leaveThere : Callees := ⟨fun _ _ frame => frame, fun _ frame => frame⟩

/-- A movable window on a screen of its own. -/
private def alone (frame : Rect) : Layout where
  session := ⟨false, 1⟩
  scr := ⟨[⟨0, 0, 99, 99⟩]⟩
  screenarea := []
  clients := []
  window := { id := 0, frame }
  pendingFrame := frame
  margins := ⟨0, 0, 0, 0⟩
  movable := true
  maximized := false
  checkScreen := id
  exists_screen := List.cons_ne_nil _ _

theorem symmetric_alone : (alone ⟨20, 20, 59, 59⟩).Symmetric leaveThere 99 .vertical :=
  (symmetric_iff leaveThere (alone ⟨20, 20, 59, 59⟩) rfl (fun _ => ⟨rfl, rfl, .inl rfl⟩) 99 .vertical).mpr fun _ =>
    ⟨.inr (by decide), by decide⟩

/-- At the right edge of the screen, a window is moved out by a pixel. -/
theorem not_symmetric_alone : (alone ⟨60, 20, 99, 59⟩).slotWindowPackRight leaveThere = ⟨61, 20, 100, 59⟩ ∧
    ¬ (alone ⟨60, 20, 99, 59⟩).Symmetric leaveThere 99 .vertical :=
  ⟨by decide, fun h => absurd (h.2.1 (by decide)) (by decide)⟩

end Layout

end KWinFT.Placement
