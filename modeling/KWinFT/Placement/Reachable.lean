import KWinFT.Placement.Smart
import KWinFT.Placement.WorkspacePosition

/-! Whether a window is on the screen after the check of its position. The last step of the check brings it there from each
side, but from above by a part of the width of the screen, where it is a part of the height from below. -/
namespace KWinFT.Placement
open KWinFT.Geometry

/-- A window above the screen is moved by a length that the screen and the window are high enough for. -/
def HighEnough (frame screenArea : Rect) : Prop :=
  frame.bottom < screenArea.top → screenArea.width.tdiv 4 + 2 ≤ screenArea.height + frame.height

instance (frame screenArea : Rect) : Decidable (HighEnough frame screenArea) := inferInstanceAs (Decidable (_ → _))

private theorem quarter_le {length : Int} (h : 1 ≤ length) : 0 ≤ length.tdiv 4 ∧ length.tdiv 4 < length := by
  rw [Int.tdiv_eq_ediv_of_nonneg (by omega)]
  omega

private theorem moved_before_meets {first last first' last' part : Int} (hspan : first ≤ last) (hpart : 0 ≤ part)
    (hlength : part < last' - first' + 1) :
    max (last' - part) first' ≤ min (last + (last' - part - first)) last' := by
  omega

/-- The last step sideways. -/
def acrossOntoScreen (frame screenArea : Rect) : Rect :=
  if frame.left > screenArea.right then frame.moveLeft (screenArea.right - screenArea.width.tdiv 4)
  else if frame.right < screenArea.left then frame.moveRight (screenArea.left + screenArea.width.tdiv 4)
  else frame

/-- The last step up or down. -/
def alongOntoScreen (frame screenArea : Rect) : Rect :=
  if frame.top > screenArea.bottom then frame.moveTop (screenArea.bottom - screenArea.height.tdiv 4)
  else if frame.bottom < screenArea.top then frame.moveBottom (screenArea.top + screenArea.width.tdiv 4)
  else frame

/-- Each direction of the last step on its own. -/
theorem checkOffscreenPosition_eq (frame screenArea : Rect) :
    checkOffscreenPosition frame screenArea =
      ⟨(acrossOntoScreen frame screenArea).left, (alongOntoScreen frame screenArea).top,
        (acrossOntoScreen frame screenArea).right, (alongOntoScreen frame screenArea).bottom⟩ := by
  unfold checkOffscreenPosition acrossOntoScreen alongOntoScreen Rect.moveLeft Rect.moveRight Rect.moveTop Rect.moveBottom
  dsimp only
  split
  · split
    · rfl
    · split <;> rfl
  · split
    · split
      · rfl
      · split <;> rfl
    · split
      · rfl
      · split <;> rfl

/-- Sideways the last step brings each window onto the screen. -/
private theorem across_meets {frame screenArea : Rect} (hframe : frame.left ≤ frame.right)
    (harea : screenArea.left ≤ screenArea.right) :
    max (acrossOntoScreen frame screenArea).left screenArea.left ≤
      min (acrossOntoScreen frame screenArea).right screenArea.right := by
  have hpart := @quarter_le screenArea.width (by unfold Rect.width; omega)
  unfold acrossOntoScreen
  generalize screenArea.width.tdiv 4 = part at hpart
  unfold Rect.width at hpart
  split
  · unfold Rect.moveLeft
    exact moved_before_meets hframe hpart.1 hpart.2
  · split
    · unfold Rect.moveRight
      dsimp only
      omega
    · omega

private theorem along_meets_iff {frame screenArea : Rect} (hframe : frame.top ≤ frame.bottom) (harea : screenArea.isValid) :
    max (alongOntoScreen frame screenArea).top screenArea.top ≤
      min (alongOntoScreen frame screenArea).bottom screenArea.bottom ↔ HighEnough frame screenArea := by
  obtain ⟨hwidth, hheight⟩ := harea
  have hpart := @quarter_le screenArea.height (by unfold Rect.height; omega)
  have hwide := @quarter_le screenArea.width (by unfold Rect.width; omega)
  unfold HighEnough alongOntoScreen
  generalize screenArea.width.tdiv 4 = wide at hwide
  generalize screenArea.height.tdiv 4 = part at hpart
  unfold Rect.height at hpart ⊢
  split
  · rename_i hbelow
    unfold Rect.moveTop
    refine iff_of_true (moved_before_meets hframe hpart.1 hpart.2) fun habove => ?_
    omega
  · split
    · rename_i habove
      rw [forall_prop_of_true habove]
      unfold Rect.moveBottom
      dsimp only
      omega
    · rename_i habove
      exact iff_of_true (by omega) fun h => absurd h habove

/-- The last step brings a window onto the screen if and only if one above the screen is not moved too far. -/
theorem checkOffscreenPosition_meets_iff {frame screenArea : Rect} (hframe : frame.isValid) (harea : screenArea.isValid) :
    (checkOffscreenPosition frame screenArea).Meets screenArea ↔ HighEnough frame screenArea := by
  rw [checkOffscreenPosition_eq]
  unfold Rect.Meets
  dsimp only
  rw [along_meets_iff hframe.2 harea, and_iff_right (across_meets hframe.1 harea.1)]

/-- No step makes a window of what has no pixel. -/
theorem checkOffscreenPosition_isValid {frame screenArea : Rect} :
    (checkOffscreenPosition frame screenArea).isValid ↔ frame.isValid := by
  rw [checkOffscreenPosition_eq]
  unfold acrossOntoScreen alongOntoScreen Rect.isValid Rect.moveLeft Rect.moveRight Rect.moveTop Rect.moveBottom
  dsimp only
  refine and_congr ?_ ?_
  · split
    · dsimp only
      omega
    · split
      · dsimp only
        omega
      · rfl
  · split
    · dsimp only
      omega
    · split
      · dsimp only
        omega
      · rfl

theorem isValid_of_meets {r s : Rect} (h : r.Meets s) : r.isValid := by
  unfold Rect.Meets at h
  unfold Rect.isValid
  omega

namespace PositionCheck
variable (c : PositionCheck)

/-- The sides that were inside or touched their bounds and do not any more. -/
def putBack : Sides Bool :=
  ⟨c.save.left || c.keep.left.1, c.save.top || c.keep.top.1, c.save.right || c.keep.right.1,
    c.save.bottom || c.keep.bottom.1⟩

/-- The first and last pixels that struts and the screen leave. -/
def inner : Sides Int :=
  ⟨max c.newMax.left c.screenArea.left, max c.newMax.top c.screenArea.top,
    min (c.newMax.right - 1) c.screenArea.right, min (c.newMax.bottom - 1) c.screenArea.bottom⟩

/-- How far the left side is put over its bound for the client to touch it, unless several screens have a part of the window
then. -/
def leftPadding : Int :=
  if c.intersecting (c.frame.moveLeft (c.inner.left - c.keep.left.2)) > 1 then 0 else c.keep.left.2

def leftStart : Int := if c.putBack.left then c.inner.left - c.leftPadding else c.frame.left

def topPadding : Int :=
  if c.intersecting ((c.frame.moveLeft c.leftStart).moveTop (c.inner.top - c.keep.top.2)) > 1 then 0 else c.keep.top.2

def topStart : Int := if c.putBack.top then c.inner.top - c.topPadding else c.frame.top

def rightPadding : Int :=
  if c.intersecting ((c.frame.moveTop c.topStart).moveRight (c.inner.right + c.keep.right.2)) > 1 then 0
  else c.keep.right.2

/-- The right side decides about the left one. -/
def rightEnd : Int :=
  if c.putBack.right then c.inner.right + c.rightPadding else c.leftStart + (c.frame.right - c.frame.left)

/-- Where the first side of a direction goes, if it is over its bound and was inside with the frame or with the client. -/
def beginning (frameInside clientInside : Bool) (bound border frameStart clientStart first : Int) : Int :=
  if frameInside && first < bound then frameStart
  else if clientInside && first + border < bound then clientStart
  else first

def leftEnd : Int :=
  let narrow : Rect :=
    ⟨c.inner.left - c.border.left, c.topStart, c.rightEnd, c.topStart + (c.frame.bottom - c.frame.top)⟩
  beginning (c.oldMax.left ≤ c.oldFrame.left) (c.oldMax.left ≤ c.oldClient.left) c.newMax.left c.border.left c.inner.left
    (if c.intersecting narrow > 1 then c.inner.left else c.inner.left - c.border.left)
    (c.rightEnd - (c.frame.right - c.frame.left))

def bottomPadding : Int :=
  let low : Rect :=
    ⟨c.leftEnd, c.inner.bottom + c.keep.bottom.2 - (c.frame.bottom - c.frame.top), c.rightEnd,
      c.inner.bottom + c.keep.bottom.2⟩
  if c.intersecting low > 1 then 0 else c.keep.bottom.2

/-- The lower side decides about the upper one. -/
def bottomEnd : Int :=
  if c.putBack.bottom then c.inner.bottom + c.bottomPadding else c.topStart + (c.frame.bottom - c.frame.top)

def topEnd : Int :=
  let short : Rect := ⟨c.leftEnd, c.inner.top - c.border.top, c.rightEnd, c.bottomEnd⟩
  beginning (c.oldMax.top ≤ c.oldFrame.top) (c.oldMax.top ≤ c.oldClient.top) c.newMax.top c.border.top c.inner.top
    (if c.intersecting short > 1 then c.inner.top else c.inner.top - c.border.top)
    (c.bottomEnd - (c.frame.bottom - c.frame.top))

/-- The window is above the screen: because struts from below reach up to it, because of the padding, or it stays there. -/
def ComesAbove : Prop :=
  if c.putBack.bottom then c.inner.bottom + c.bottomPadding < c.screenArea.top
  else if c.putBack.top then c.inner.top - c.topPadding + (c.frame.bottom - c.frame.top) < c.screenArea.top
  else c.frame.bottom < c.screenArea.top

instance : Decidable c.ComesAbove := by
  unfold ComesAbove
  infer_instance

/-- The bounds leave a part of the window, and it is not above the screen, or the screen and the window are high enough for
the length that it is moved by then. -/
structure StaysReachable : Prop where
  across : c.leftEnd ≤ c.rightEnd
  along : c.topEnd ≤ c.bottomEnd
  above : c.ComesAbove → c.screenArea.width.tdiv 4 + 2 ≤ c.screenArea.height + (c.bottomEnd - c.topEnd + 1)

section steps
variable {c}

theorem comesAbove_iff : c.ComesAbove ↔ c.bottomEnd < c.screenArea.top := by
  unfold ComesAbove bottomEnd topStart
  split
  · rfl
  · split
    · rfl
    · rw [show c.frame.top + (c.frame.bottom - c.frame.top) = c.frame.bottom by omega]

/-- A padding is for a side that is put back. -/
private theorem touched_padding {oldSide oldClientSide oldBound side clientSide bound padding : Int}
    (h : (touched oldSide oldClientSide oldBound side clientSide bound padding).2 ≠ 0) :
    (touched oldSide oldClientSide oldBound side clientSide bound padding).1 = true := by
  unfold touched at h ⊢
  split_ifs at h ⊢ <;> simp_all

private theorem keep_padding (c : PositionCheck) : (c.keep.left.2 ≠ 0 → c.keep.left.1) ∧ (c.keep.top.2 ≠ 0 → c.keep.top.1) ∧
    (c.keep.right.2 ≠ 0 → c.keep.right.1) ∧ (c.keep.bottom.2 ≠ 0 → c.keep.bottom.1) := by
  unfold keep
  dsimp only
  refine ⟨fun h => ?_, fun h => ?_, fun h => ?_, fun h => ?_⟩
  all_goals
    split_ifs at h ⊢ with hboth
    · exact absurd rfl h
    · exact touched_padding h

/-- A side that is put at its bound, and back by the padding, is put there at once. -/
private theorem backFromLeft_toLeft (f : Rect) : c.backFromLeft (c.toLeft f) =
    if c.putBack.left then
      f.moveLeft (c.inner.left -
        (if c.intersecting (f.moveLeft (c.inner.left - c.keep.left.2)) > 1 then 0 else c.keep.left.2))
    else f := by
  have hkeep := (keep_padding c).1
  unfold backFromLeft toLeft putBack inner
  by_cases hput : c.save.left || c.keep.left.1
  · rw [if_pos hput, if_pos hput]
    unfold Rect.moveLeft
    dsimp only
    split_ifs <;> simp <;> omega
  · have hkept : ¬ c.keep.left.2 ≠ 0 := fun h => hput (by rw [hkeep h, Bool.or_true])
    rw [if_neg hput, if_neg hput, if_neg fun h => hkept h.1]

private theorem backFromTop_toTop (f : Rect) : c.backFromTop (c.toTop f) =
    if c.putBack.top then
      f.moveTop (c.inner.top -
        (if c.intersecting (f.moveTop (c.inner.top - c.keep.top.2)) > 1 then 0 else c.keep.top.2))
    else f := by
  have hkeep := (keep_padding c).2.1
  unfold backFromTop toTop putBack inner
  by_cases hput : c.save.top || c.keep.top.1
  · rw [if_pos hput, if_pos hput]
    unfold Rect.moveTop
    dsimp only
    split_ifs <;> simp <;> omega
  · have hkept : ¬ c.keep.top.2 ≠ 0 := fun h => hput (by rw [hkeep h, Bool.or_true])
    rw [if_neg hput, if_neg hput, if_neg fun h => hkept h.1]

private theorem backFromRight_toRight (f : Rect) : c.backFromRight (c.toRight f) =
    if c.putBack.right then
      f.moveRight (c.inner.right +
        (if c.intersecting (f.moveRight (c.inner.right + c.keep.right.2)) > 1 then 0 else c.keep.right.2))
    else f := by
  have hkeep := (keep_padding c).2.2.1
  unfold backFromRight toRight putBack inner
  by_cases hput : c.save.right || c.keep.right.1
  · rw [if_pos hput, if_pos hput]
    unfold Rect.moveRight
    dsimp only
    split_ifs <;> simp <;> omega
  · have hkept : ¬ c.keep.right.2 ≠ 0 := fun h => hput (by rw [hkeep h, Bool.or_true])
    rw [if_neg hput, if_neg hput, if_neg fun h => hkept h.1]

private theorem backFromBottom_toBottom (f : Rect) : c.backFromBottom (c.toBottom f) =
    if c.putBack.bottom then
      f.moveBottom (c.inner.bottom +
        (if c.intersecting (f.moveBottom (c.inner.bottom + c.keep.bottom.2)) > 1 then 0 else c.keep.bottom.2))
    else f := by
  have hkeep := (keep_padding c).2.2.2
  unfold backFromBottom toBottom putBack inner
  by_cases hput : c.save.bottom || c.keep.bottom.1
  · rw [if_pos hput, if_pos hput]
    unfold Rect.moveBottom
    dsimp only
    split_ifs <;> simp <;> omega
  · have hkept : ¬ c.keep.bottom.2 ≠ 0 := fun h => hput (by rw [hkeep h, Bool.or_true])
    rw [if_neg hput, if_neg hput, if_neg fun h => hkept h.1]

private theorem leftStart_eq : c.backFromLeft c.atLeft = c.frame.moveLeft c.leftStart := by
  unfold atLeft
  rw [backFromLeft_toLeft]
  unfold leftStart leftPadding
  split
  · rfl
  · simp [Rect.moveLeft]

private theorem topStart_eq : c.backFromTop c.atTop = (c.frame.moveLeft c.leftStart).moveTop c.topStart := by
  unfold atTop
  rw [leftStart_eq, backFromTop_toTop]
  unfold topStart topPadding
  split
  · rfl
  · simp [Rect.moveLeft, Rect.moveTop]

/-- What is done sideways, before the left side may be narrowed. -/
private theorem besideRight_eq : c.besideRight =
    ⟨c.rightEnd - (c.frame.right - c.frame.left), c.topStart, c.rightEnd, c.topStart + (c.frame.bottom - c.frame.top)⟩ := by
  have hasked : ((c.frame.moveLeft c.leftStart).moveTop c.topStart).moveRight (c.inner.right + c.keep.right.2) =
      (c.frame.moveTop c.topStart).moveRight (c.inner.right + c.keep.right.2) := by
    unfold Rect.moveLeft Rect.moveTop Rect.moveRight
    ext <;> dsimp only
    omega
  unfold besideRight atRight
  rw [topStart_eq, backFromRight_toRight, hasked]
  unfold rightEnd rightPadding Rect.moveRight Rect.moveTop Rect.moveLeft
  split_ifs <;> ext <;> dsimp only <;> omega

/-- The narrowing of a side leaves the others. -/
private theorem narrowLeft_besideRight : c.narrowLeft c.besideRight =
    ⟨c.leftEnd, c.topStart, c.rightEnd, c.topStart + (c.frame.bottom - c.frame.top)⟩ := by
  rw [besideRight_eq]
  unfold narrowLeft leftEnd beginning inner clientToLeft Rect.setLeft
  simp only [Bool.and_eq_true, decide_eq_true_eq, ge_iff_le]
  split_ifs <;> simp

private theorem besideBottom_eq : c.besideBottom =
    ⟨c.leftEnd, c.bottomEnd - (c.frame.bottom - c.frame.top), c.rightEnd, c.bottomEnd⟩ := by
  unfold besideBottom atBottom
  rw [narrowLeft_besideRight, backFromBottom_toBottom]
  have hasked : Rect.moveBottom ⟨c.leftEnd, c.topStart, c.rightEnd, c.topStart + (c.frame.bottom - c.frame.top)⟩
      (c.inner.bottom + c.keep.bottom.2) =
      ⟨c.leftEnd, c.inner.bottom + c.keep.bottom.2 - (c.frame.bottom - c.frame.top), c.rightEnd,
        c.inner.bottom + c.keep.bottom.2⟩ := by
    unfold Rect.moveBottom
    ext <;> dsimp only
    omega
  rw [hasked]
  unfold bottomEnd bottomPadding Rect.moveBottom
  split_ifs <;> ext <;> dsimp only <;> omega

private theorem narrowTop_besideBottom :
    c.narrowTop c.besideBottom = ⟨c.leftEnd, c.topEnd, c.rightEnd, c.bottomEnd⟩ := by
  rw [besideBottom_eq]
  unfold narrowTop topEnd beginning inner clientToTop Rect.setTop
  simp only [Bool.and_eq_true, decide_eq_true_eq, ge_iff_le]
  split_ifs <;> simp

/-- The steps up to the last one put the window where its bounds and what touched them say. -/
theorem corrected_ends : c.corrected = ⟨c.leftEnd, c.topEnd, c.rightEnd, c.bottomEnd⟩ := by
  unfold corrected
  exact narrowTop_besideBottom

end steps

variable {c}

/-- The check of a position leaves a window on the screen if and only if its bounds leave a part of it and it is not moved too
far from above. -/
theorem checked_meets_iff (harea : c.screenArea.isValid) : c.checked.Meets c.screenArea ↔ c.StaysReachable := by
  have hhigh : HighEnough c.corrected c.screenArea ↔
      (c.ComesAbove → c.screenArea.width.tdiv 4 + 2 ≤ c.screenArea.height + (c.bottomEnd - c.topEnd + 1)) := by
    rw [comesAbove_iff, corrected_ends]
    rfl
  have hvalid : c.corrected.isValid ↔ c.leftEnd ≤ c.rightEnd ∧ c.topEnd ≤ c.bottomEnd := by
    rw [corrected_ends]
    rfl
  unfold checked
  constructor
  · intro h
    have hframe : c.corrected.isValid := checkOffscreenPosition_isValid.mp (isValid_of_meets h)
    obtain ⟨hacross, halong⟩ := hvalid.mp hframe
    exact ⟨hacross, halong, hhigh.mp ((checkOffscreenPosition_meets_iff hframe harea).mp h)⟩
  · rintro ⟨hacross, halong, habove⟩
    exact (checkOffscreenPosition_meets_iff (hvalid.mpr ⟨hacross, halong⟩) harea).mpr (hhigh.mpr habove)

/-- A window without borders that was where it is, on one screen without struts. -/
def unmoved (frame screenArea : Rect) : PositionCheck where
  border := ⟨0, 0, 0, 0⟩
  oldFrameGeo := frame
  oldClientGeo := frame
  frame := frame
  oldScreenArea := screenArea
  screenArea := screenArea
  oldStruts := ⟨[], [], [], []⟩
  struts := ⟨[], [], [], []⟩
  intersecting := fun _ => 1

/-- From above a screen that is not very wide a window comes back. -/
theorem above_meets : (unmoved ⟨100, -500, 499, -401⟩ ⟨0, 0, 1919, 1079⟩).checked.Meets ⟨0, 0, 1919, 1079⟩ :=
  (checked_meets_iff (c := unmoved ⟨100, -500, 499, -401⟩ ⟨0, 0, 1919, 1079⟩) (by decide)).mpr
    ⟨by decide, by decide, by decide⟩

/-- On a wide screen it is below it afterwards. -/
theorem aboveWide_misses : ¬ (unmoved ⟨100, -500, 499, -401⟩ ⟨0, 0, 5119, 1079⟩).checked.Meets ⟨0, 0, 5119, 1079⟩ := by
  decide

end PositionCheck
end KWinFT.Placement
