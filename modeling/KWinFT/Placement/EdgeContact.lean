import KWinFT.Placement.Axis
import KWinFT.Placement.Reachable

/-! Whether a side of a window that touched its bound touches the new one after the check of its position. With no border
over to another screen the two directions do not depend on each other, and each is checked like any other axis. -/
namespace KWinFT.Placement
open KWinFT.Geometry

inductive Side
  | left
  | top
  | right
  | bottom
deriving Repr, DecidableEq

namespace Side

def ofRect (r : Rect) : Side → Int
  | left => r.left
  | top => r.top
  | right => r.right
  | bottom => r.bottom

/-- The last pixel inside. -/
def ofBounds (b : Bounds) : Side → Int
  | left => b.left
  | top => b.top
  | right => b.right - 1
  | bottom => b.bottom - 1

def Outside (r : Rect) (b : Bounds) : Side → Prop
  | left => r.left < b.left
  | top => r.top < b.top
  | right => b.right - 1 < r.right
  | bottom => b.bottom - 1 < r.bottom

instance (r : Rect) (b : Bounds) : (side : Side) → Decidable (side.Outside r b)
  | left => inferInstanceAs (Decidable (_ < _))
  | top => inferInstanceAs (Decidable (_ < _))
  | right => inferInstanceAs (Decidable (_ < _))
  | bottom => inferInstanceAs (Decidable (_ < _))

end Side

/-- What of a window touches: the frame, or only the client, with the border outside. -/
inductive Edge
  | frame
  | client
deriving Repr, DecidableEq

namespace PositionCheck
variable (c : PositionCheck)

def edgeBefore : Edge → Rect
  | .frame => c.oldFrame
  | .client => c.oldClient

def edgeAfter : Edge → Rect
  | .frame => c.checked
  | .client => c.checked.subMargins c.border

/-- Just one side touched its bound before the change. -/
structure Touched (side : Side) (edge : Edge) : Prop where
  touched : side.ofRect (c.edgeBefore edge) = side.ofBounds c.oldMax
  outside : edge = .client → side.Outside c.oldFrame c.oldMax
  only : ∀ other ≠ side, ∀ edge, other.ofRect (c.edgeBefore edge) ≠ other.ofBounds c.oldMax

def across : Axis where
  oldLo := c.oldFrame.left
  oldHi := c.oldFrame.right
  oldClientLo := c.oldClient.left
  oldClientHi := c.oldClient.right
  oldFirst := c.oldMax.left
  oldLast := c.oldMax.right - 1
  lo := c.frame.left
  hi := c.frame.right
  first := c.newMax.left
  last := c.newMax.right - 1
  borderLo := c.border.left
  borderHi := c.border.right
  padding := c.border.left
  areaLo := c.screenArea.left
  areaHi := c.screenArea.right
  partBefore := c.screenArea.width.tdiv 4
  partBehind := c.screenArea.width.tdiv 4

/-- The padding is the left border, and a window above the screen comes inside by a part of the width. -/
def along : Axis where
  oldLo := c.oldFrame.top
  oldHi := c.oldFrame.bottom
  oldClientLo := c.oldClient.top
  oldClientHi := c.oldClient.bottom
  oldFirst := c.oldMax.top
  oldLast := c.oldMax.bottom - 1
  lo := c.frame.top
  hi := c.frame.bottom
  first := c.newMax.top
  last := c.newMax.bottom - 1
  borderLo := c.border.top
  borderHi := c.border.bottom
  padding := c.border.left
  areaLo := c.screenArea.top
  areaHi := c.screenArea.bottom
  partBefore := c.screenArea.width.tdiv 4
  partBehind := c.screenArea.height.tdiv 4

/-- The frame is on one screen wherever the check asks for that. -/
structure OnOneScreen : Prop where
  atLeft : c.intersecting c.atLeft ≤ 1
  atTop : c.intersecting c.atTop ≤ 1
  atRight : c.intersecting c.atRight ≤ 1
  clientToLeft : c.intersecting (c.clientToLeft c.besideRight) ≤ 1
  atBottom : c.intersecting c.atBottom ≤ 1
  clientToTop : c.intersecting (c.clientToTop c.besideBottom) ≤ 1

/-- A decorated window that fits between its new bounds, on one screen. -/
structure Fits : Prop where
  left : 0 ≤ c.border.left
  top : 0 ≤ c.border.top
  right : 0 ≤ c.border.right
  bottom : 0 ≤ c.border.bottom
  client : c.border.left + c.border.right < c.frame.width ∧ c.border.top + c.border.bottom < c.frame.height
  width : c.frame.width ≤ c.newMax.right - c.newMax.left
  height : c.frame.height ≤ c.newMax.bottom - c.newMax.top
  onOneScreen : c.OnOneScreen

/-- On the left and at the top a contact gives way to an opposite side that is to be saved, if the window does not take all
the room, and at the top the border that comes to be outside is only as high as the left one is wide. -/
def Keeps : Side → Edge → Prop
  | .left, .frame => c.save.right → c.frame.width = c.newMax.right - c.newMax.left
  | .left, .client => c.save.right → c.border.left = 0 ∧ c.frame.width = c.newMax.right - c.newMax.left
  | .top, .frame => c.save.bottom → c.frame.height = c.newMax.bottom - c.newMax.top
  | .top, .client =>
    if c.save.bottom then c.border.top = 0 ∧ c.frame.height = c.newMax.bottom - c.newMax.top
    else c.client.top = c.newMax.top ∨
      c.border.top ≤ c.border.left ∧ c.screenArea.top < c.newMax.top - c.border.left + c.frame.height
  | .right, _ => True
  | .bottom, _ => True

private theorem le_foldl_max {l : List Rect} {beyond : Rect → Int} {empty : Rect → Prop} [DecidablePred empty] (start : Int) :
    start ≤ l.foldl (fun bound r => if empty r then bound else max bound (beyond r)) start := by
  induction l generalizing start with
  | nil => exact Int.le_refl start
  | cons r l ih =>
    refine Int.le_trans ?_ (ih _)
    dsimp only
    split
    · exact Int.le_refl start
    · exact Int.le_max_left _ _

private theorem foldl_min_le {l : List Rect} {beyond : Rect → Int} {empty : Rect → Prop} [DecidablePred empty] (start : Int) :
    l.foldl (fun bound r => if empty r then bound else min bound (beyond r)) start ≤ start := by
  induction l generalizing start with
  | nil => exact Int.le_refl start
  | cons r l ih =>
    refine Int.le_trans (ih _) ?_
    dsimp only
    split
    · exact Int.le_refl start
    · exact Int.min_le_left _ _

/-- Struts only narrow the screen. -/
theorem boundsFor_within (area frame : Rect) (struts : MoveAreas) :
    area.left ≤ (boundsFor area frame struts).left ∧ area.top ≤ (boundsFor area frame struts).top ∧
      (boundsFor area frame struts).right - 1 ≤ area.right ∧ (boundsFor area frame struts).bottom - 1 ≤ area.bottom := by
  have hright : (boundsFor area frame struts).right ≤ area.left + area.width := foldl_min_le _
  have hbottom : (boundsFor area frame struts).bottom ≤ area.top + area.height := foldl_min_le _
  refine ⟨le_foldl_max _, le_foldl_max _, ?_, ?_⟩
  · unfold Rect.width at hright
    omega
  · unfold Rect.height at hbottom
    omega

private theorem toLeft_eq (f : Rect) :
    c.toLeft f = ⟨(c.across.toLo (f.left, f.right)).1, f.top, (c.across.toLo (f.left, f.right)).2, f.bottom⟩ := by
  have hbound : max c.newMax.left c.screenArea.left = c.newMax.left := Int.max_eq_left (boundsFor_within _ _ _).1
  unfold toLeft Axis.toLo
  rw [hbound]
  by_cases h : (c.save.left || c.keep.left.1) = true
  · rw [if_pos h, if_pos (show (c.across.saveLo || c.across.keepLo.1) = true from h)]
    rfl
  · rw [if_neg h, if_neg (show ¬ (c.across.saveLo || c.across.keepLo.1) = true from h)]

private theorem toTop_eq (f : Rect) :
    c.toTop f = ⟨f.left, (c.along.toLo (f.top, f.bottom)).1, f.right, (c.along.toLo (f.top, f.bottom)).2⟩ := by
  have hbound : max c.newMax.top c.screenArea.top = c.newMax.top := Int.max_eq_left (boundsFor_within _ _ _).2.1
  unfold toTop Axis.toLo
  rw [hbound]
  by_cases h : (c.save.top || c.keep.top.1) = true
  · rw [if_pos h, if_pos (show (c.along.saveLo || c.along.keepLo.1) = true from h)]
    rfl
  · rw [if_neg h, if_neg (show ¬ (c.along.saveLo || c.along.keepLo.1) = true from h)]

private theorem toRight_eq (f : Rect) :
    c.toRight f = ⟨(c.across.toHi (f.left, f.right)).1, f.top, (c.across.toHi (f.left, f.right)).2, f.bottom⟩ := by
  have hbound : min (c.newMax.right - 1) c.screenArea.right = c.newMax.right - 1 :=
    Int.min_eq_left (boundsFor_within _ _ _).2.2.1
  unfold toRight Axis.toHi
  rw [hbound]
  by_cases h : (c.save.right || c.keep.right.1) = true
  · rw [if_pos h, if_pos (show (c.across.saveHi || c.across.keepHi.1) = true from h)]
    rfl
  · rw [if_neg h, if_neg (show ¬ (c.across.saveHi || c.across.keepHi.1) = true from h)]

private theorem toBottom_eq (f : Rect) :
    c.toBottom f = ⟨f.left, (c.along.toHi (f.top, f.bottom)).1, f.right, (c.along.toHi (f.top, f.bottom)).2⟩ := by
  have hbound : min (c.newMax.bottom - 1) c.screenArea.bottom = c.newMax.bottom - 1 :=
    Int.min_eq_left (boundsFor_within _ _ _).2.2.2
  unfold toBottom Axis.toHi
  rw [hbound]
  by_cases h : (c.save.bottom || c.keep.bottom.1) = true
  · rw [if_pos h, if_pos (show (c.along.saveHi || c.along.keepHi.1) = true from h)]
    rfl
  · rw [if_neg h, if_neg (show ¬ (c.along.saveHi || c.along.keepHi.1) = true from h)]

private theorem narrowLeft_eq {f : Rect} (hone : c.intersecting (c.clientToLeft f) ≤ 1) :
    c.narrowLeft f = ⟨(c.across.narrowLo (f.left, f.right)).1, f.top, (c.across.narrowLo (f.left, f.right)).2, f.bottom⟩ := by
  have hbound : max c.newMax.left c.screenArea.left = c.newMax.left := Int.max_eq_left (boundsFor_within _ _ _).1
  unfold narrowLeft Axis.narrowLo
  dsimp only
  rw [if_neg (Nat.not_lt.mpr hone)]
  unfold clientToLeft
  rw [hbound]
  split
  · rw [if_pos (show c.across.oldLo ≥ c.across.oldFirst ∧ f.left < c.across.first from ‹_›)]
    rfl
  · rw [if_neg (show ¬ (c.across.oldLo ≥ c.across.oldFirst ∧ f.left < c.across.first) from ‹_›)]
    split
    · rw [if_pos (show c.across.oldClientLo ≥ c.across.oldFirst ∧
        f.left + c.across.borderLo < c.across.first from ‹_›)]
      rfl
    · rw [if_neg (show ¬ (c.across.oldClientLo ≥ c.across.oldFirst ∧
        f.left + c.across.borderLo < c.across.first) from ‹_›)]

private theorem narrowTop_eq {f : Rect} (hone : c.intersecting (c.clientToTop f) ≤ 1) :
    c.narrowTop f = ⟨f.left, (c.along.narrowLo (f.top, f.bottom)).1, f.right, (c.along.narrowLo (f.top, f.bottom)).2⟩ := by
  have hbound : max c.newMax.top c.screenArea.top = c.newMax.top := Int.max_eq_left (boundsFor_within _ _ _).2.1
  unfold narrowTop Axis.narrowLo
  dsimp only
  rw [if_neg (Nat.not_lt.mpr hone)]
  unfold clientToTop
  rw [hbound]
  split
  · rw [if_pos (show c.along.oldLo ≥ c.along.oldFirst ∧ f.top < c.along.first from ‹_›)]
    rfl
  · rw [if_neg (show ¬ (c.along.oldLo ≥ c.along.oldFirst ∧ f.top < c.along.first) from ‹_›)]
    split
    · rw [if_pos (show c.along.oldClientLo ≥ c.along.oldFirst ∧
        f.top + c.along.borderLo < c.along.first from ‹_›)]
      rfl
    · rw [if_neg (show ¬ (c.along.oldClientLo ≥ c.along.oldFirst ∧
        f.top + c.along.borderLo < c.along.first) from ‹_›)]

variable {c}

/-- On one screen each direction is corrected on its own. -/
theorem corrected_eq (hone : c.OnOneScreen) :
    c.corrected = ⟨c.across.corrected.1, c.along.corrected.1, c.across.corrected.2, c.along.corrected.2⟩ := by
  have hleft : c.backFromLeft c.atLeft = c.atLeft := if_neg fun h => absurd h.2 (Nat.not_lt.mpr hone.atLeft)
  have htop : c.backFromTop c.atTop = c.atTop := if_neg fun h => absurd h.2 (Nat.not_lt.mpr hone.atTop)
  have hright : c.besideRight = c.atRight := if_neg fun h => absurd h.2 (Nat.not_lt.mpr hone.atRight)
  have hbottom : c.besideBottom = c.atBottom := if_neg fun h => absurd h.2 (Nat.not_lt.mpr hone.atBottom)
  unfold corrected
  rw [narrowTop_eq c hone.clientToTop, hbottom]
  unfold atBottom
  rw [toBottom_eq, narrowLeft_eq c hone.clientToLeft, hright]
  unfold atRight
  rw [toRight_eq, htop]
  unfold atTop
  rw [toTop_eq, hleft]
  unfold atLeft
  rw [toLeft_eq]
  rfl

/-- On one screen the whole check is that of the two directions. -/
theorem checked_eq (hone : c.OnOneScreen) :
    c.checked = ⟨c.across.checked.1, c.along.checked.1, c.across.checked.2, c.along.checked.2⟩ := by
  unfold checked
  rw [checkOffscreenPosition_eq, corrected_eq hone]
  have hacross (s : Int × Int) (top bottom : Int) :
      ((acrossOntoScreen ⟨s.1, top, s.2, bottom⟩ c.screenArea).left,
        (acrossOntoScreen ⟨s.1, top, s.2, bottom⟩ c.screenArea).right) = c.across.ontoScreen s := by
    unfold acrossOntoScreen Axis.ontoScreen
    split
    · exact (if_pos ‹_›).symm
    · refine Eq.trans ?_ (if_neg ‹_›).symm
      split
      · exact (if_pos ‹_›).symm
      · exact (if_neg ‹_›).symm
  have halong (s : Int × Int) (left right : Int) :
      ((alongOntoScreen ⟨left, s.1, right, s.2⟩ c.screenArea).top,
        (alongOntoScreen ⟨left, s.1, right, s.2⟩ c.screenArea).bottom) = c.along.ontoScreen s := by
    unfold alongOntoScreen Axis.ontoScreen
    split
    · exact (if_pos ‹_›).symm
    · refine Eq.trans ?_ (if_neg ‹_›).symm
      split
      · exact (if_pos ‹_›).symm
      · exact (if_neg ‹_›).symm
  unfold Axis.checked
  rw [← hacross _ c.along.corrected.1 c.along.corrected.2, ← halong _ c.across.corrected.1 c.across.corrected.2]

private theorem part_nonneg (hc : c.Fits) : 0 ≤ c.screenArea.width.tdiv 4 := by
  obtain ⟨hleft, -, hright, -, hclient, hwidth, -, -⟩ := hc
  have hbounds : c.screenArea.left ≤ c.newMax.left ∧ _ ∧ c.newMax.right - 1 ≤ c.screenArea.right ∧ _ :=
    boundsFor_within _ _ _
  refine Int.tdiv_nonneg ?_ (by decide)
  unfold Rect.width at *
  omega

private theorem across_roomy (hc : c.Fits) : c.across.Roomy := by
  have hbounds := boundsFor_within c.screenArea c.frame c.struts
  have hclient := hc.client.1
  have hwidth := hc.width
  unfold Rect.width at hclient hwidth
  exact ⟨hc.left, hc.right, by dsimp only [across]; omega, by dsimp only [across]; omega, hbounds.1, hbounds.2.2.1,
    hc.left, part_nonneg hc⟩

private theorem along_roomy (hc : c.Fits) : c.along.Roomy := by
  have hbounds := boundsFor_within c.screenArea c.frame c.struts
  have hclient := hc.client.2
  have hheight := hc.height
  unfold Rect.height at hclient hheight
  exact ⟨hc.top, hc.bottom, by dsimp only [along]; omega, by dsimp only [along]; omega, hbounds.2.1, hbounds.2.2.2,
    hc.left, part_nonneg hc⟩

private theorem left_kept_iff {edge : Edge} (ht : c.Touched .left edge) (hc : c.Fits) :
    Side.left.ofRect (c.edgeAfter edge) = Side.left.ofBounds c.newMax ↔ c.Keeps .left edge := by
  obtain ⟨htouched, houtside, honly⟩ := ht
  have hacross := across_roomy hc
  have hchecked := checked_eq hc.onOneScreen
  have hhi : c.across.UntouchedHi := ⟨honly .right (by decide) .frame, honly .right (by decide) .client⟩
  cases edge with
  | frame =>
    change c.checked.left = c.newMax.left ↔ (c.save.right → c.frame.width = c.newMax.right - c.newMax.left)
    rw [hchecked]
    refine (Axis.frameLo_iff hacross htouched hhi).trans (imp_congr_right fun _ => ?_)
    unfold Rect.width across
    dsimp only
    omega
  | client =>
    change c.checked.left + c.border.left = c.newMax.left ↔
      (c.save.right → c.border.left = 0 ∧ c.frame.width = c.newMax.right - c.newMax.left)
    rw [hchecked]
    refine (Axis.clientLo_iff hacross (houtside rfl) htouched hhi).trans ?_
    unfold Axis.KeepsClientLo
    by_cases hsave : c.save.right
    · rw [if_pos (show c.across.saveHi = true from hsave), forall_prop_of_true hsave]
      unfold Rect.width across
      dsimp only
      omega
    · -- The padding is the border here, and the client keeps the window on the screen.
      rw [if_neg (show ¬ c.across.saveHi = true from hsave)]
      have hroom := hacross.client
      have hfirst := hacross.first
      have hborder := hacross.borderHi
      refine iff_of_true (Or.inr ⟨Int.le_refl _, ?_⟩) fun h => absurd h hsave
      unfold across at *
      dsimp only at *
      omega

private theorem top_kept_iff {edge : Edge} (ht : c.Touched .top edge) (hc : c.Fits) :
    Side.top.ofRect (c.edgeAfter edge) = Side.top.ofBounds c.newMax ↔ c.Keeps .top edge := by
  obtain ⟨htouched, houtside, honly⟩ := ht
  have halong := along_roomy hc
  have hchecked := checked_eq hc.onOneScreen
  have hhi : c.along.UntouchedHi := ⟨honly .bottom (by decide) .frame, honly .bottom (by decide) .client⟩
  cases edge with
  | frame =>
    change c.checked.top = c.newMax.top ↔ (c.save.bottom → c.frame.height = c.newMax.bottom - c.newMax.top)
    rw [hchecked]
    refine (Axis.frameLo_iff halong htouched hhi).trans (imp_congr_right fun _ => ?_)
    unfold Rect.height along
    dsimp only
    omega
  | client =>
    change c.checked.top + c.border.top = c.newMax.top ↔ if c.save.bottom then _ else _
    rw [hchecked]
    refine (Axis.clientLo_iff halong (houtside rfl) htouched hhi).trans ?_
    unfold Axis.KeepsClientLo
    by_cases hsave : c.save.bottom
    · rw [if_pos (show c.along.saveHi = true from hsave), if_pos hsave]
      unfold Rect.height along
      dsimp only
      omega
    · rw [if_neg (show ¬ c.along.saveHi = true from hsave), if_neg hsave]
      refine or_congr Iff.rfl (and_congr Iff.rfl ?_)
      unfold Rect.height along
      dsimp only
      omega

private theorem right_kept_iff {edge : Edge} (ht : c.Touched .right edge) (hc : c.Fits) :
    Side.right.ofRect (c.edgeAfter edge) = Side.right.ofBounds c.newMax ↔ c.Keeps .right edge := by
  obtain ⟨htouched, houtside, honly⟩ := ht
  have hacross := across_roomy hc
  have hchecked := checked_eq hc.onOneScreen
  have hlo : c.across.UntouchedLo := ⟨honly .left (by decide) .frame, honly .left (by decide) .client⟩
  refine iff_of_true ?_ trivial
  cases edge with
  | frame =>
    change c.checked.right = _
    rw [hchecked]
    exact Axis.frameHi_kept hacross htouched hlo
  | client =>
    change c.checked.right - c.border.right = _
    rw [hchecked]
    exact Axis.clientHi_kept hacross (houtside rfl) htouched hlo

private theorem bottom_kept_iff {edge : Edge} (ht : c.Touched .bottom edge) (hc : c.Fits) :
    Side.bottom.ofRect (c.edgeAfter edge) = Side.bottom.ofBounds c.newMax ↔ c.Keeps .bottom edge := by
  obtain ⟨htouched, houtside, honly⟩ := ht
  have halong := along_roomy hc
  have hchecked := checked_eq hc.onOneScreen
  have hlo : c.along.UntouchedLo := ⟨honly .top (by decide) .frame, honly .top (by decide) .client⟩
  refine iff_of_true ?_ trivial
  cases edge with
  | frame =>
    change c.checked.bottom = _
    rw [hchecked]
    exact Axis.frameHi_kept halong htouched hlo
  | client =>
    change c.checked.bottom - c.border.bottom = _
    rw [hchecked]
    exact Axis.clientHi_kept halong (houtside rfl) htouched hlo

/-- After the check the same edge touches the new bound: on the right and at the bottom in each case, on the left and at the
top just under the conditions that come from the order of the steps and from the padding. -/
theorem touched_kept_iff {side : Side} {edge : Edge} (ht : c.Touched side edge) (hc : c.Fits) :
    side.ofRect (c.edgeAfter edge) = side.ofBounds c.newMax ↔ c.Keeps side edge := by
  cases side with
  | left => exact left_kept_iff ht hc
  | top => exact top_kept_iff ht hc
  | right => exact right_kept_iff ht hc
  | bottom => exact bottom_kept_iff ht hc

/-- A window with a title bar on a screen that a panel appears on, at the top or at the bottom. -/
def besidePanel (frame : Rect) (struts : MoveAreas) : PositionCheck where
  border := ⟨4, 20, 4, 4⟩
  oldFrameGeo := frame
  oldClientGeo := frame.subMargins ⟨4, 20, 4, 4⟩
  frame := frame
  oldScreenArea := ⟨0, 0, 999, 799⟩
  screenArea := ⟨0, 0, 999, 799⟩
  oldStruts := ⟨[], [], [], []⟩
  struts := struts
  intersecting := fun _ => 1

private theorem besidePanel_fits {frame : Rect} {struts : MoveAreas} (hwidth : 8 < frame.width) (hheight : 24 < frame.height)
    (hw : frame.width ≤ (besidePanel frame struts).newMax.right - (besidePanel frame struts).newMax.left)
    (hh : frame.height ≤ (besidePanel frame struts).newMax.bottom - (besidePanel frame struts).newMax.top) :
    (besidePanel frame struts).Fits :=
  ⟨Int.natCast_nonneg 4, Int.natCast_nonneg 20, Int.natCast_nonneg 4, Int.natCast_nonneg 4, ⟨hwidth, hheight⟩, hw, hh,
    ⟨Nat.le_refl 1, Nat.le_refl 1, Nat.le_refl 1, Nat.le_refl 1, Nat.le_refl 1, Nat.le_refl 1⟩⟩

/-- At the lower edge the client stays at its bound. -/
theorem atPanel_kept :
    Side.bottom.ofRect ((besidePanel ⟨100, 480, 507, 803⟩ ⟨[], [], [], [⟨0, 770, 999, 799⟩]⟩).edgeAfter .client) = 769 := by
  refine (@touched_kept_iff _ .bottom .client ⟨by decide, fun _ => by decide, ?_⟩
    (besidePanel_fits (by decide) (by decide) (by decide) (by decide))).mpr trivial
  intro other hother edge
  cases other <;> cases edge <;> first | exact absurd rfl hother | decide

/-- At the upper edge only the left border is outside, and the client is off its bound. -/
theorem underPanel_lost :
    let c := besidePanel ⟨100, -20, 507, 303⟩ ⟨[], [⟨0, 0, 999, 29⟩], [], []⟩
    c.Touched .top .client ∧ c.Fits ∧ Side.top.ofRect (c.edgeAfter .client) ≠ Side.top.ofBounds c.newMax := by
  refine ⟨⟨by decide, fun _ => by decide, fun other hother edge => ?_⟩,
    besidePanel_fits (by decide) (by decide) (by decide) (by decide), by decide⟩
  cases other <;> cases edge <;> first | exact absurd rfl hother | decide

end PositionCheck
end KWinFT.Placement
