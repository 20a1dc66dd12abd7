import KWinFT.XdgShell.PopupSides

/-! A popup is adjusted in each direction on its own, and comes inside the bounds where its positioner lets it, if there is a
place for it at all. -/
namespace KWinFT.XdgShell
open KWinFT.Geometry Lib

namespace Popup

/-- A place with one direction exchanged. -/
def horizontally (place : Rect) (s : Side) : Rect := { place with left := s.first, right := s.last }
def vertically (place : Rect) (s : Side) : Rect := { place with top := s.first, bottom := s.last }

def across (r : Rect) : Side := ⟨r.left, r.right⟩
def along (r : Rect) : Side := ⟨r.top, r.bottom⟩

/-- The two directions of a popup for an edge and a gravity. -/
def horizontal (win : Popup) (edge gravity : Edges) : Direction :=
  ⟨across win.anchorRect, edge.left, edge.right, gravity.left, gravity.right, win.anchorOffset.x, win.leadPos.x,
    win.leadBorders.left, win.size.width⟩

def vertical (win : Popup) (edge gravity : Edges) : Direction :=
  ⟨along win.anchorRect, edge.top, edge.bottom, gravity.top, gravity.bottom, win.anchorOffset.y, win.leadPos.y,
    win.leadBorders.top, win.size.height⟩

/-- Where a popup goes, and where it is flipped to. -/
abbrev unadjustedX (win : Popup) : Direction := win.horizontal win.anchorEdge win.gravity
abbrev unadjustedY (win : Popup) : Direction := win.vertical win.anchorEdge win.gravity
abbrev flippedX (win : Popup) : Direction := win.horizontal win.anchorEdge.flippedX win.gravity.flippedX
abbrev flippedY (win : Popup) : Direction := win.vertical win.anchorEdge.flippedY win.gravity.flippedY

/-- The place of two directions. -/
def place (x y : Direction) : Rect := ⟨x.side.first, y.side.first, x.side.last, y.side.last⟩

variable {win : Popup} {bounds r place : Rect} {edge gravity : Edges}

theorem placeAt_eq_some : win.placeAt edge gravity = some r ↔
    ((win.horizontal edge gravity).Fits ∧ (win.vertical edge gravity).Fits) ∧
      Popup.place (win.horizontal edge gravity) (win.vertical edge gravity) = r := by
  have hx (x : Int) : alongSide edge.left edge.right win.anchorRect.left win.anchorRect.right = some x ↔ _ :=
    (win.horizontal edge gravity).alongSide_eq_some
  have hy (y : Int) : alongSide edge.top edge.bottom win.anchorRect.top win.anchorRect.bottom = some y ↔ _ :=
    (win.vertical edge gravity).alongSide_eq_some
  have hfirst : (win.horizontal edge gravity).anchorPos + gravityAdjust gravity.left gravity.right win.size.width +
      [win.anchorOffset.x, win.leadPos.x + win.leadBorders.left].sum = (win.horizontal edge gravity).first :=
    (win.horizontal edge gravity).first_eq
  have htop : (win.vertical edge gravity).anchorPos + gravityAdjust gravity.top gravity.bottom win.size.height +
      [win.anchorOffset.y, win.leadPos.y + win.leadBorders.top].sum = (win.vertical edge gravity).first :=
    (win.vertical edge gravity).first_eq
  unfold placeAt getAnchor parentPos placed
  simp only [Option.bind_eq_bind, Option.bind_eq_some_iff, hx, hy, int_eq_some, sumFrom_eq_some, Option.some.injEq]
  constructor
  · rintro ⟨_, ⟨_, ⟨hax, rfl⟩, _, ⟨hay, rfl⟩, _, ⟨hgx, rfl⟩, _, ⟨hgy, rfl⟩, rfl⟩, _, ⟨_, ⟨hlx, rfl⟩, _, ⟨hly, rfl⟩, rfl⟩,
      _, ⟨hpx, rfl⟩, _, ⟨hpy, rfl⟩, _, ⟨hwx, rfl⟩, _, ⟨hwy, rfl⟩, rfl⟩
    dsimp only at hwx hwy ⊢
    rw [hfirst] at hwx ⊢
    rw [htop] at hwy ⊢
    refine ⟨⟨⟨hax, hgx, hlx, hpx, hwx⟩, ⟨hay, hgy, hly, hpy, hwy⟩⟩, ?_⟩
    exact Rect.ext rfl rfl (win.horizontal edge gravity).last_eq.symm (win.vertical edge gravity).last_eq.symm
  · rintro ⟨⟨⟨hax, hgx, hlx, hpx, hwx⟩, ⟨hay, hgy, hly, hpy, hwy⟩⟩, rfl⟩
    refine ⟨_, ⟨_, ⟨hax, rfl⟩, _, ⟨hay, rfl⟩, _, ⟨hgx, rfl⟩, _, ⟨hgy, rfl⟩, rfl⟩, _, ⟨_, ⟨hlx, rfl⟩, _, ⟨hly, rfl⟩, rfl⟩,
      _, ⟨hpx, rfl⟩, _, ⟨hpy, rfl⟩, _, ⟨?_, rfl⟩, _, ⟨?_, rfl⟩, ?_⟩
    · dsimp only
      rw [hfirst]
      exact hwx
    · dsimp only
      rw [htop]
      exact hwy
    · dsimp only
      rw [hfirst, htop]
      exact Rect.ext rfl rfl (win.horizontal edge gravity).last_eq (win.vertical edge gravity).last_eq

theorem vertical_flippedX : win.vertical edge.flippedX gravity.flippedX = win.vertical edge gravity := by
  unfold vertical Edges.flippedX
  split <;> split <;> rfl

theorem horizontal_flippedY : win.horizontal edge.flippedY gravity.flippedY = win.horizontal edge gravity := by
  unfold horizontal Edges.flippedY
  split <;> split <;> rfl

theorem inBounds_horizontal : inBounds bounds place .horizontal = decide ((across place).Inside (across bounds)) := by
  simp only [inBounds, Edges.horizontal, Side.Inside, across]
  grind

theorem inBounds_vertical : inBounds bounds place .vertical = decide ((along place).Inside (along bounds)) := by
  simp only [inBounds, Edges.vertical, Side.Inside, along]
  grind

/-- A popup is flipped in one direction when its other direction is there. -/
theorem flipX_eq_some (hy : win.unadjustedY.Fits) : win.flipX bounds place = some r ↔
    (across place).FlipFits (across bounds) win.flippedX.side win.adjustments.flipX win.flippedX.Fits ∧
      horizontally place ((across place).flip (across bounds) win.adjustments.flipX win.flippedX.side) = r := by
  have hplace (f : Rect) : win.placeAt win.anchorEdge.flippedX win.gravity.flippedX = some f ↔
      win.flippedX.Fits ∧ Popup.place win.flippedX win.unadjustedY = f := by
    rw [placeAt_eq_some, vertical_flippedX, and_iff_left hy]
  have hacross : across (Popup.place win.flippedX win.unadjustedY) = win.flippedX.side := rfl
  unfold flipX Side.flip Side.FlipFits
  rw [inBounds_horizontal]
  by_cases h : win.adjustments.flipX = true ∧ ¬ (across place).Inside (across bounds)
  · rw [if_pos (by simp [h.1, h.2]), Option.bind_eq_bind, Option.bind_eq_some_iff]
    simp only [hplace, h.1, h.2, not_false_eq_true, true_implies, true_and, inBounds_horizontal, decide_eq_true_eq]
    constructor
    · rintro ⟨_, ⟨hfits, rfl⟩, hr⟩
      rw [hacross] at hr
      split at hr
      · next hinside =>
        obtain ⟨right, hmoved, rfl⟩ := Option.map_eq_some_iff.mp hr
        obtain ⟨hmove, rfl⟩ := movedAlong_eq_some.mp hmoved
        exact ⟨⟨hfits, fun _ => hmove⟩, if_pos hinside ▸ rfl⟩
      · next hinside =>
        cases hr
        exact ⟨⟨hfits, fun hin => absurd hin hinside⟩, if_neg hinside ▸ rfl⟩
    · rintro ⟨⟨hfits, hmove⟩, rfl⟩
      refine ⟨_, ⟨hfits, rfl⟩, ?_⟩
      rw [hacross]
      split
      · next hinside => exact Option.map_eq_some_iff.mpr ⟨_, movedAlong_eq_some.mpr ⟨hmove hinside, rfl⟩, rfl⟩
      · rfl
  · rw [if_neg (by simpa using h), if_neg fun hno => h ⟨hno.1, hno.2.1⟩]
    exact ⟨fun hr => ⟨fun hflip hout => absurd ⟨hflip, hout⟩ h, Option.some.inj hr⟩, fun hr => congrArg some hr.2⟩

theorem flipY_eq_some (hx : win.unadjustedX.Fits) : win.flipY bounds place = some r ↔
    (along place).FlipFits (along bounds) win.flippedY.side win.adjustments.flipY win.flippedY.Fits ∧
      vertically place ((along place).flip (along bounds) win.adjustments.flipY win.flippedY.side) = r := by
  have hplace (f : Rect) : win.placeAt win.anchorEdge.flippedY win.gravity.flippedY = some f ↔
      win.flippedY.Fits ∧ Popup.place win.unadjustedX win.flippedY = f := by
    rw [placeAt_eq_some, horizontal_flippedY, and_iff_right hx]
  have halong : along (Popup.place win.unadjustedX win.flippedY) = win.flippedY.side := rfl
  unfold flipY Side.flip Side.FlipFits
  rw [inBounds_vertical]
  by_cases h : win.adjustments.flipY = true ∧ ¬ (along place).Inside (along bounds)
  · rw [if_pos (by simp [h.1, h.2]), Option.bind_eq_bind, Option.bind_eq_some_iff]
    simp only [hplace, h.1, h.2, not_false_eq_true, true_implies, true_and, inBounds_vertical, decide_eq_true_eq]
    constructor
    · rintro ⟨_, ⟨hfits, rfl⟩, hr⟩
      rw [halong] at hr
      split at hr
      · next hinside =>
        obtain ⟨bottom, hmoved, rfl⟩ := Option.map_eq_some_iff.mp hr
        obtain ⟨hmove, rfl⟩ := movedAlong_eq_some.mp hmoved
        exact ⟨⟨hfits, fun _ => hmove⟩, if_pos hinside ▸ rfl⟩
      · next hinside =>
        cases hr
        exact ⟨⟨hfits, fun hin => absurd hin hinside⟩, if_neg hinside ▸ rfl⟩
    · rintro ⟨⟨hfits, hmove⟩, rfl⟩
      refine ⟨_, ⟨hfits, rfl⟩, ?_⟩
      rw [halong]
      split
      · next hinside => exact Option.map_eq_some_iff.mpr ⟨_, movedAlong_eq_some.mpr ⟨hmove hinside, rfl⟩, rfl⟩
      · rfl
  · rw [if_neg (by simpa using h), if_neg fun hno => h ⟨hno.1, hno.2.1⟩]
    exact ⟨fun hr => ⟨fun hflip hout => absurd ⟨hflip, hout⟩ h, Option.some.inj hr⟩, fun hr => congrArg some hr.2⟩

private theorem inBounds_sides :
    inBounds bounds place ⟨true, false, false, false⟩ = !decide (place.left < bounds.left) ∧
    inBounds bounds place ⟨false, true, false, false⟩ = !decide (bounds.right < place.right) ∧
    inBounds bounds place ⟨false, false, true, false⟩ = !decide (place.top < bounds.top) ∧
    inBounds bounds place ⟨false, false, false, true⟩ = !decide (bounds.bottom < place.bottom) := by
  simp [inBounds]

/-- A side is slid as far as both of its ends can be moved. -/
theorem slideX_eq_some : win.slideX bounds place = some r ↔
    (across place).SlideFits (across bounds) win.adjustments.slideX ∧
      horizontally place ((across place).slide (across bounds) win.adjustments.slideX) = r := by
  have hfirst (q : Rect) : (if place.left < bounds.left then moveLeft place bounds.left else some place) = some q ↔
      (place.left < bounds.left → Side.MoveFits place.left bounds.left place.right) ∧
        horizontally place ((across place).slidFirst (across bounds)) = q := by
    unfold Side.slidFirst
    by_cases h : (across place).first < (across bounds).first
    · rw [if_pos (show place.left < bounds.left from h), if_pos h, moveLeft, Option.map_eq_some_iff]
      simp only [movedAlong_eq_some]
      constructor
      · rintro ⟨_, ⟨hmove, rfl⟩, rfl⟩
        exact ⟨fun _ => hmove, rfl⟩
      · rintro ⟨hmove, rfl⟩
        exact ⟨_, ⟨hmove h, rfl⟩, rfl⟩
    · rw [if_neg (show ¬ place.left < bounds.left from h), if_neg h]
      exact ⟨fun hq => ⟨fun hno => absurd hno h, Option.some.inj hq⟩, fun hq => congrArg some hq.2⟩
  unfold slideX Side.slide Side.SlideFits
  simp only [inBounds_sides, Bool.not_not, decide_eq_true_eq]
  cases win.adjustments.slideX with
  | false => simp [horizontally, across]
  | true =>
    simp only [if_true, true_implies, Option.bind_eq_bind, Option.bind_eq_some_iff, hfirst]
    constructor
    · rintro ⟨_, ⟨hmove, rfl⟩, hr⟩
      split at hr
      · next h =>
        obtain ⟨_, hmoved, rfl⟩ := Option.map_eq_some_iff.mp hr
        obtain ⟨hmove', rfl⟩ := movedAlong_eq_some.mp hmoved
        exact ⟨⟨hmove, fun _ => hmove'⟩, by rw [if_pos (show (across bounds).last < ((across place).slidFirst (across bounds)).last from h)]; rfl⟩
      · next h =>
        cases hr
        exact ⟨⟨hmove, fun hno => absurd hno h⟩, by rw [if_neg (show ¬ (across bounds).last < ((across place).slidFirst (across bounds)).last from h)]⟩
    · rintro ⟨⟨hmove, hmove'⟩, rfl⟩
      refine ⟨_, ⟨hmove, rfl⟩, ?_⟩
      split
      · next h =>
        rw [if_pos (show (across bounds).last < ((across place).slidFirst (across bounds)).last from h)]
        exact Option.map_eq_some_iff.mpr ⟨_, movedAlong_eq_some.mpr ⟨hmove' h, rfl⟩, rfl⟩
      · next h => rw [if_neg (show ¬ (across bounds).last < ((across place).slidFirst (across bounds)).last from h)]

theorem slideY_eq_some : win.slideY bounds place = some r ↔
    (along place).SlideFits (along bounds) win.adjustments.slideY ∧
      vertically place ((along place).slide (along bounds) win.adjustments.slideY) = r := by
  have hfirst (q : Rect) : (if place.top < bounds.top then moveTop place bounds.top else some place) = some q ↔
      (place.top < bounds.top → Side.MoveFits place.top bounds.top place.bottom) ∧
        vertically place ((along place).slidFirst (along bounds)) = q := by
    unfold Side.slidFirst
    by_cases h : (along place).first < (along bounds).first
    · rw [if_pos (show place.top < bounds.top from h), if_pos h, moveTop, Option.map_eq_some_iff]
      simp only [movedAlong_eq_some]
      constructor
      · rintro ⟨_, ⟨hmove, rfl⟩, rfl⟩
        exact ⟨fun _ => hmove, rfl⟩
      · rintro ⟨hmove, rfl⟩
        exact ⟨_, ⟨hmove h, rfl⟩, rfl⟩
    · rw [if_neg (show ¬ place.top < bounds.top from h), if_neg h]
      exact ⟨fun hq => ⟨fun hno => absurd hno h, Option.some.inj hq⟩, fun hq => congrArg some hq.2⟩
  unfold slideY Side.slide Side.SlideFits
  simp only [inBounds_sides, Bool.not_not, decide_eq_true_eq]
  cases win.adjustments.slideY with
  | false => simp [vertically, along]
  | true =>
    simp only [if_true, true_implies, Option.bind_eq_bind, Option.bind_eq_some_iff, hfirst]
    constructor
    · rintro ⟨_, ⟨hmove, rfl⟩, hr⟩
      split at hr
      · next h =>
        obtain ⟨_, hmoved, rfl⟩ := Option.map_eq_some_iff.mp hr
        obtain ⟨hmove', rfl⟩ := movedAlong_eq_some.mp hmoved
        exact ⟨⟨hmove, fun _ => hmove'⟩, by rw [if_pos (show (along bounds).last < ((along place).slidFirst (along bounds)).last from h)]; rfl⟩
      · next h =>
        cases hr
        exact ⟨⟨hmove, fun hno => absurd hno h⟩, by rw [if_neg (show ¬ (along bounds).last < ((along place).slidFirst (along bounds)).last from h)]⟩
    · rintro ⟨⟨hmove, hmove'⟩, rfl⟩
      refine ⟨_, ⟨hmove, rfl⟩, ?_⟩
      split
      · next h =>
        rw [if_pos (show (along bounds).last < ((along place).slidFirst (along bounds)).last from h)]
        exact Option.map_eq_some_iff.mpr ⟨_, movedAlong_eq_some.mpr ⟨hmove' h, rfl⟩, rfl⟩
      · next h => rw [if_neg (show ¬ (along bounds).last < ((along place).slidFirst (along bounds)).last from h)]

private theorem clippedX_eq (place bounds : Rect) :
    (if bounds.right < (if place.left < bounds.left then place.setLeft bounds.left else place).right then
      (if place.left < bounds.left then place.setLeft bounds.left else place).setRight bounds.right
    else if place.left < bounds.left then place.setLeft bounds.left else place) =
      horizontally place ⟨max place.left bounds.left, min place.right bounds.right⟩ := by
  have hright : (if place.left < bounds.left then place.setLeft bounds.left else place).right = place.right := by
    split <;> rfl
  rw [hright]
  unfold horizontally
  by_cases hl : place.left < bounds.left <;> by_cases hr : bounds.right < place.right
  · rw [if_pos hr, if_pos hl, max_eq_right hl.le, min_eq_right hr.le]
    rfl
  · rw [if_neg hr, if_pos hl, max_eq_right hl.le, min_eq_left (not_lt.mp hr)]
    rfl
  · rw [if_pos hr, if_neg hl, max_eq_left (not_lt.mp hl), min_eq_right hr.le]
    rfl
  · rw [if_neg hr, if_neg hl, max_eq_left (not_lt.mp hl), min_eq_left (not_lt.mp hr)]

private theorem clippedY_eq (place bounds : Rect) :
    (if bounds.bottom < (if place.top < bounds.top then place.setTop bounds.top else place).bottom then
      (if place.top < bounds.top then place.setTop bounds.top else place).setBottom bounds.bottom
    else if place.top < bounds.top then place.setTop bounds.top else place) =
      vertically place ⟨max place.top bounds.top, min place.bottom bounds.bottom⟩ := by
  have hbottom : (if place.top < bounds.top then place.setTop bounds.top else place).bottom = place.bottom := by
    split <;> rfl
  rw [hbottom]
  unfold vertically
  by_cases hl : place.top < bounds.top <;> by_cases hr : bounds.bottom < place.bottom
  · rw [if_pos hr, if_pos hl, max_eq_right hl.le, min_eq_right hr.le]
    rfl
  · rw [if_neg hr, if_pos hl, max_eq_right hl.le, min_eq_left (not_lt.mp hr)]
    rfl
  · rw [if_pos hr, if_neg hl, max_eq_left (not_lt.mp hl), min_eq_right hr.le]
    rfl
  · rw [if_neg hr, if_neg hl, max_eq_left (not_lt.mp hl), min_eq_left (not_lt.mp hr)]

/-- Resizing is given up where nothing would be left, which the other direction has no part in. -/
theorem resizeX_eq (hplace : place.top ≤ place.bottom) : win.resizeX bounds place =
    horizontally place ((across place).resize (across bounds) win.adjustments.resizeX) := by
  have hvalid : (horizontally place ⟨max place.left bounds.left, min place.right bounds.right⟩).isValid ↔
      (across place).Meets (across bounds) := and_iff_left hplace
  unfold resizeX Side.resize
  simp only [inBounds_sides, Bool.not_not, decide_eq_true_eq]
  rw [clippedX_eq]
  by_cases h : (across place).Meets (across bounds)
  · rw [if_pos (hvalid.mpr h)]
    by_cases ha : win.adjustments.resizeX = true
    · rw [if_pos ha, if_pos ⟨ha, h⟩]
      rfl
    · rw [if_neg ha, if_neg fun hno => ha hno.1]
      rfl
  · rw [if_neg (mt hvalid.mp h), ite_self, if_neg fun hno => h hno.2]
    rfl

theorem resizeY_eq (hplace : place.left ≤ place.right) : win.resizeY bounds place =
    vertically place ((along place).resize (along bounds) win.adjustments.resizeY) := by
  have hvalid : (vertically place ⟨max place.top bounds.top, min place.bottom bounds.bottom⟩).isValid ↔
      (along place).Meets (along bounds) := and_iff_right hplace
  unfold resizeY Side.resize
  simp only [inBounds_sides, Bool.not_not, decide_eq_true_eq]
  rw [clippedY_eq]
  by_cases h : (along place).Meets (along bounds)
  · rw [if_pos (hvalid.mpr h)]
    by_cases ha : win.adjustments.resizeY = true
    · rw [if_pos ha, if_pos ⟨ha, h⟩]
      rfl
    · rw [if_neg ha, if_neg fun hno => ha hno.1]
      rfl
  · rw [if_neg (mt hvalid.mp h), ite_self, if_neg fun hno => h hno.2]
    rfl

theorem size_pos (win : Popup) : 0 < win.size.width ∧ 0 < win.size.height := by
  unfold size
  split
  · next h =>
    obtain ⟨hw, hh⟩ := h
    unfold Rect.size Rect.width Rect.height
    exact ⟨by dsimp only; omega, by dsimp only; omega⟩
  · exact win.initialSize_pos

/-- What becomes of the two directions. -/
def adjustedX (win : Popup) (bounds : Rect) : Side :=
  win.unadjustedX.side.adjust (across bounds) win.flippedX.side win.adjustments.flipX win.adjustments.slideX
    win.adjustments.resizeX

def adjustedY (win : Popup) (bounds : Rect) : Side :=
  win.unadjustedY.side.adjust (along bounds) win.flippedY.side win.adjustments.flipY win.adjustments.slideY
    win.adjustments.resizeY

/-- No sum is too big: not for the place, and if it is not inside, not for what is looked at and moved then. -/
structure NoOverflow (win : Popup) (bounds : Rect) : Prop where
  horizontal : win.unadjustedX.Fits
  vertical : win.unadjustedY.Fits
  adjusts : ¬ (win.unadjustedX.side.Inside (across bounds) ∧
      win.unadjustedY.side.Inside (along bounds)) →
    win.unadjustedX.side.AdjustFits (across bounds) win.flippedX.side win.adjustments.flipX win.adjustments.slideX
      win.flippedX.Fits ∧
    win.unadjustedY.side.AdjustFits (along bounds) win.flippedY.side win.adjustments.flipY win.adjustments.slideY
      win.flippedY.Fits

theorem side_valid (win : Popup) (edge gravity : Edges) :
    (win.horizontal edge gravity).side.first ≤ (win.horizontal edge gravity).side.last ∧
      (win.vertical edge gravity).side.first ≤ (win.vertical edge gravity).side.last := by
  obtain ⟨hwidth, hheight⟩ := win.size_pos
  unfold Direction.side Popup.horizontal Popup.vertical
  dsimp only
  omega

theorem inBounds_all : inBounds bounds place .all =
    decide ((across place).Inside (across bounds) ∧ (along place).Inside (along bounds)) := by
  simp only [inBounds, Edges.all, Side.Inside, across, along]
  grind

/-- What a popup is adjusted to that is not inside. -/
private theorem adjust_eq_some (hx : win.unadjustedX.Fits)
    (hy : win.unadjustedY.Fits) :
    (win.flipX bounds (Popup.place win.unadjustedX win.unadjustedY) >>=
      fun place => win.slideX bounds place >>= fun place => win.flipY bounds (win.resizeX bounds place) >>= fun place =>
      win.slideY bounds place >>= fun place => some (win.resizeY bounds place)) = some r ↔
    (win.unadjustedX.side.AdjustFits (across bounds) win.flippedX.side win.adjustments.flipX win.adjustments.slideX
        win.flippedX.Fits ∧
      win.unadjustedY.side.AdjustFits (along bounds) win.flippedY.side win.adjustments.flipY win.adjustments.slideY
        win.flippedY.Fits) ∧
      (⟨(win.adjustedX bounds).first, (win.adjustedY bounds).first, (win.adjustedX bounds).last,
        (win.adjustedY bounds).last⟩ : Rect) = r := by
  obtain ⟨hvalidX, hvalidY⟩ := win.side_valid win.anchorEdge win.gravity
  simp only [Option.bind_eq_bind, Option.bind_eq_some_iff, Option.some.injEq, flipX_eq_some hy, flipY_eq_some hx, slideX_eq_some, slideY_eq_some]
  constructor
  · rintro ⟨_, ⟨hflipX, rfl⟩, _, ⟨hslideX, rfl⟩, _, ⟨hflipY, rfl⟩, _, ⟨hslideY, rfl⟩, rfl⟩
    rw [resizeX_eq hvalidY] at hflipY hslideY ⊢
    rw [resizeY_eq (Side.adjust_valid hvalidX)]
    exact ⟨⟨⟨hflipX, hslideX⟩, hflipY, hslideY⟩, rfl⟩
  · rintro ⟨⟨⟨hflipX, hslideX⟩, hflipY, hslideY⟩, rfl⟩
    refine ⟨_, ⟨hflipX, rfl⟩, _, ⟨hslideX, rfl⟩, _, ⟨?_, rfl⟩, _, ⟨?_, rfl⟩, ?_⟩
    · rw [resizeX_eq hvalidY]
      exact hflipY
    · rw [resizeX_eq hvalidY]
      exact hslideY
    · rw [resizeX_eq hvalidY, resizeY_eq (Side.adjust_valid hvalidX)]
      rfl

/-- There is a place if no sum is too big, and each direction of it is adjusted on its own. -/
theorem popupPlacement_eq_some : win.popupPlacement bounds = some r ↔
    win.NoOverflow bounds ∧ (⟨(win.adjustedX bounds).first, (win.adjustedY bounds).first, (win.adjustedX bounds).last,
      (win.adjustedY bounds).last⟩ : Rect) = r := by
  unfold popupPlacement unadjusted
  simp only [Option.bind_eq_bind, Option.bind_eq_some_iff, placeAt_eq_some, inBounds_all, decide_eq_true_eq]
  have hacross : across (Popup.place win.unadjustedX win.unadjustedY) = win.unadjustedX.side := rfl
  have halong : along (Popup.place win.unadjustedX win.unadjustedY) = win.unadjustedY.side := rfl
  by_cases hin : win.unadjustedX.side.Inside (across bounds) ∧ win.unadjustedY.side.Inside (along bounds)
  · have hplace : (⟨(win.adjustedX bounds).first, (win.adjustedY bounds).first, (win.adjustedX bounds).last,
        (win.adjustedY bounds).last⟩ : Rect) =
        Popup.place win.unadjustedX win.unadjustedY := by
      unfold adjustedX adjustedY
      rw [Side.adjust_of_inside hin.1, Side.adjust_of_inside hin.2]
      rfl
    rw [hplace]
    constructor
    · rintro ⟨_, ⟨⟨hx, hy⟩, rfl⟩, hr⟩
      rw [hacross, halong, if_pos hin] at hr
      exact ⟨⟨hx, hy, fun hno => absurd hin hno⟩, Option.some.inj hr⟩
    · rintro ⟨⟨hx, hy, -⟩, rfl⟩
      refine ⟨_, ⟨⟨hx, hy⟩, rfl⟩, ?_⟩
      rw [hacross, halong, if_pos hin]
  · constructor
    · rintro ⟨_, ⟨⟨hx, hy⟩, rfl⟩, hr⟩
      rw [hacross, halong, if_neg hin] at hr
      obtain ⟨hfits, hr⟩ := (adjust_eq_some hx hy).mp hr
      exact ⟨⟨hx, hy, fun _ => hfits⟩, hr⟩
    · rintro ⟨⟨hx, hy, hfits⟩, hr⟩
      refine ⟨_, ⟨⟨hx, hy⟩, rfl⟩, ?_⟩
      rw [hacross, halong, if_neg hin]
      exact (adjust_eq_some hx hy).mpr ⟨hfits hin, hr⟩

/-- What a popup may expect of its place: that it stays if it is inside, that each direction comes inside that may slide and
has room, or that may only be resized and is there in part, and that what is allowed in one direction does not count in the
other. -/
structure RespectedBy (win : Popup) (bounds r : Rect) : Prop where
  fits : ∀ u, win.unadjusted = some u → (across u).Inside (across bounds) → (along u).Inside (along bounds) → r = u
  slidesX : win.adjustments.slideX → win.size.width ≤ bounds.width → (across r).Inside (across bounds)
  slidesY : win.adjustments.slideY → win.size.height ≤ bounds.height → (along r).Inside (along bounds)
  resizesX : ¬ win.adjustments.flipX → ¬ win.adjustments.slideX → win.adjustments.resizeX →
    ∀ u, win.unadjusted = some u → (across u).Meets (across bounds) → (across r).Inside (across bounds)
  resizesY : ¬ win.adjustments.flipY → ¬ win.adjustments.slideY → win.adjustments.resizeY →
    ∀ u, win.unadjusted = some u → (along u).Meets (along bounds) → (along r).Inside (along bounds)
  freeX : ∀ flips slides resizes r',
    { win with adjustments := { win.adjustments with flipY := flips, slideY := slides, resizeY := resizes } }.popupPlacement
      bounds = some r' → across r' = across r
  freeY : ∀ flips slides resizes r',
    { win with adjustments := { win.adjustments with flipX := flips, slideX := slides, resizeX := resizes } }.popupPlacement
      bounds = some r' → along r' = along r

/-- There is a place, and it respects the positioner. -/
def Respects (win : Popup) (bounds : Rect) : Prop := ∃ r, win.popupPlacement bounds = some r ∧ win.RespectedBy bounds r

private theorem unadjusted_sides {u : Rect} (h : win.unadjusted = some u) :
    across u = win.unadjustedX.side ∧ along u = win.unadjustedY.side := by
  obtain ⟨-, rfl⟩ := placeAt_eq_some.mp h
  exact ⟨rfl, rfl⟩

theorem adjusted_respected (win : Popup) (bounds : Rect) : win.RespectedBy bounds
    ⟨(win.adjustedX bounds).first, (win.adjustedY bounds).first, (win.adjustedX bounds).last, (win.adjustedY bounds).last⟩ := by
  have hlengthX : win.unadjustedX.length = win.size.width := rfl
  have hlengthY : win.unadjustedY.length = win.size.height := rfl
  refine ⟨fun u hu hx hy => ?_, fun hslide hroom => ?_, fun hslide hroom => ?_, fun hflip hslide hresize u hu hmeets => ?_,
    fun hflip hslide hresize u hu hmeets => ?_, fun _ _ _ r' hr' => ?_, fun _ _ _ r' hr' => ?_⟩
  · obtain ⟨hacross, halong⟩ := unadjusted_sides hu
    rw [hacross] at hx
    rw [halong] at hy
    unfold adjustedX adjustedY
    rw [Side.adjust_of_inside hx, Side.adjust_of_inside hy, ← hacross, ← halong]
    rfl
  · change (win.adjustedX bounds).Inside _
    rw [adjustedX, hslide]
    unfold Rect.width at hroom
    exact Side.adjust_of_slides (by unfold Direction.side across; dsimp only; omega)
  · change (win.adjustedY bounds).Inside _
    rw [adjustedY, hslide]
    unfold Rect.height at hroom
    exact Side.adjust_of_slides (by unfold Direction.side along; dsimp only; omega)
  · change (win.adjustedX bounds).Inside _
    rw [adjustedX, Bool.eq_false_iff.mpr hflip, Bool.eq_false_iff.mpr hslide, hresize]
    exact Side.adjust_of_resizes ((unadjusted_sides hu).1 ▸ hmeets)
  · change (win.adjustedY bounds).Inside _
    rw [adjustedY, Bool.eq_false_iff.mpr hflip, Bool.eq_false_iff.mpr hslide, hresize]
    exact Side.adjust_of_resizes ((unadjusted_sides hu).2 ▸ hmeets)
  · obtain ⟨-, rfl⟩ := popupPlacement_eq_some.mp hr'
    rfl
  · obtain ⟨-, rfl⟩ := popupPlacement_eq_some.mp hr'
    rfl

/-- A popup has a place that respects its positioner if and only if no sum on the way to it is too big. -/
theorem popupPlacement_respects_iff (win : Popup) (bounds : Rect) : win.Respects bounds ↔ win.NoOverflow bounds := by
  constructor
  · rintro ⟨r, hr, -⟩
    exact (popupPlacement_eq_some.mp hr).1
  · intro h
    exact ⟨_, popupPlacement_eq_some.mpr ⟨h, rfl⟩, win.adjusted_respected bounds⟩

/-- A menu of a hundred pixels, which may slide. -/
private def menu (offset : Int) : Popup where
  leadPos := ⟨0, 0⟩
  leadBorders := ⟨0, 0, 0, 0⟩
  anchorRect := ⟨0, 0, 9, 9⟩
  anchorEdge := ⟨true, false, true, false⟩
  gravity := ⟨false, true, false, true⟩
  anchorOffset := ⟨offset, 0⟩
  adjustments := ⟨false, false, true, true, false, false⟩
  frame := .null
  initialSize := ⟨100, 100⟩
  frame_fits := by decide
  initialSize_pos := by decide

theorem menu_respected : (menu 2000).popupPlacement ⟨0, 0, 999, 999⟩ = some ⟨900, 0, 999, 99⟩ ∧
    (menu 2000).Respects ⟨0, 0, 999, 999⟩ := by
  refine ⟨by decide, (popupPlacement_respects_iff _ _).mpr ⟨?_, ?_, fun _ => ⟨⟨?_, ?_⟩, ?_, ?_⟩⟩⟩
  · exact ⟨by decide, by decide, by decide, by decide, by decide⟩
  · exact ⟨by decide, by decide, by decide, by decide, by decide⟩
  · exact fun hflips => absurd hflips (by decide)
  · exact fun _ => ⟨fun _ => ⟨by decide, by decide⟩, fun _ => ⟨by decide, by decide⟩⟩
  · exact fun hflips => absurd hflips (by decide)
  · exact fun _ => ⟨fun _ => ⟨by decide, by decide⟩, fun _ => ⟨by decide, by decide⟩⟩

/-- Far out on the right it has no place, though it may slide. -/
theorem menu_tooFar : ¬ (menu 2147483600).Respects ⟨0, 0, 999, 999⟩ := by
  have hnone : (menu 2147483600).popupPlacement ⟨0, 0, 999, 999⟩ = none := by decide
  rintro ⟨r, hr, -⟩
  exact absurd (hnone.symm.trans hr) (by simp)

end Popup
end KWinFT.XdgShell
