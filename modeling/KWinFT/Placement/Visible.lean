import KWinFT.Placement.Policies

/-! How much of a window is to be seen in an area that it is kept in. With `partial` the left side of the area is enlarged
from the position of the window, where the other sides are from the area. -/
namespace KWinFT.Placement
open KWinFT.Geometry

/-- The pixels that two spans have in common, negative for a gap between them. -/
def overlap (first last first' last' : Int) : Int := min last last' - max first first' + 1

/-- A window that fits comes to be inside, or at least that much of it if it may be there in parts. -/
def KeepsVisible (adjusted : Size → Size) (frame area : Rect) : Bool → Prop
  | false => frame.width ≤ area.width → frame.height ≤ area.height →
    (keepInArea adjusted frame area false).Within area
  | true =>
    let kept := keepInArea adjusted frame area true
    min 100 frame.width ≤ overlap kept.left kept.right area.left area.right ∧
      min 100 frame.height ≤ overlap kept.top kept.bottom area.top area.bottom

/-- The area has room for as much, and the window is not further to its left than its width is from 100 pixels. -/
def Near (frame area : Rect) : Prop :=
  min 100 frame.width ≤ area.width ∧ min 100 frame.height ≤ area.height ∧
    area.left ≤ frame.left + (frame.width - 100).natAbs

instance (frame area : Rect) : Decidable (Near frame area) := inferInstanceAs (Decidable (_ ∧ _))

/-- Where a side comes to be. -/
def kept (pos length first last : Int) : Int :=
  if pos + length > last then last - length + 1 else if pos < first then first else pos

/-- Each side on its own, in an area with room for the window. -/
theorem movedInto_eq {frame area : Rect} (hw : 1 ≤ frame.width) (hh : 1 ≤ frame.height) (hwidth : frame.width ≤ area.width)
    (hheight : frame.height ≤ area.height) :
    movedInto frame area = frame.moveTo
      ⟨kept frame.left frame.width area.left area.right, kept frame.top frame.height area.top area.bottom⟩ := by
  have hspan : Rect.span area.left area.right = (area.left, area.right) ∧
      Rect.span area.top area.bottom = (area.top, area.bottom) := by
    unfold Rect.width at hwidth hw
    unfold Rect.height at hheight hh
    exact ⟨if_neg (by omega), if_neg (by omega)⟩
  unfold movedInto
  dsimp only [Rect.topLeft, Rect.size]
  refine congrArg frame.moveTo ?_
  simp only [Rect.contains, hspan, decide_eq_true_eq, and_iff_left hwidth, and_iff_left hheight]
  unfold kept
  unfold Rect.width at *
  unfold Rect.height at *
  split
  · congr 1
    · split <;> omega
    · split <;> omega
  · congr 1
    · split
      · split <;> omega
      · split <;> rfl
    · split
      · split <;> omega
      · split <;> rfl

theorem overlap_le (first last first' last' : Int) : overlap first last first' last' ≤ last' - first' + 1 := by
  unfold overlap
  omega

theorem moveTo_sides (r : Rect) (p : Point) : r.moveTo p = ⟨p.x, p.y, p.x + r.width - 1, p.y + r.height - 1⟩ := by
  unfold Rect.moveTo Rect.moveTop Rect.moveLeft Rect.width Rect.height
  ext <;> dsimp only <;> omega

private theorem enlarged {low length first last : Int} (hroom : min 100 length ≤ last - first + 1) :
    length ≤ max (last + length - 100) last - min (low - length + 100) first + 1 := by
  omega

/-- The left side, which is enlarged from the position. -/
private theorem left_iff {pos length first last : Int} (hlength : 1 ≤ length) (hroom : min 100 length ≤ last - first + 1) :
    min 100 length ≤ overlap (kept pos length (min (pos - length + 100) first) (max (last + length - 100) last))
        (kept pos length (min (pos - length + 100) first) (max (last + length - 100) last) + length - 1) first last ↔
      first ≤ pos + (length - 100).natAbs := by
  unfold kept overlap
  split
  · omega
  · split <;> omega

/-- The other sides, which are enlarged from the area. -/
private theorem top_holds {pos length first last : Int} (hlength : 1 ≤ length) (hroom : min 100 length ≤ last - first + 1) :
    min 100 length ≤ overlap (kept pos length (min (first - length + 100) first) (max (last + length - 100) last))
      (kept pos length (min (first - length + 100) first) (max (last + length - 100) last) + length - 1) first last := by
  unfold kept overlap
  split
  · omega
  · split <;> omega

/-- In parts, enough of a window is seen if and only if it is near. -/
private theorem partly_iff {adjusted : Size → Size} {frame area : Rect} (hframe : frame.isValid) :
    KeepsVisible adjusted frame area true ↔ Near frame area := by
  have hw : 1 ≤ frame.width := by
    have := hframe.1
    unfold Rect.width
    omega
  have hh : 1 ≤ frame.height := by
    have := hframe.2
    unfold Rect.height
    omega
  by_cases hroom : min 100 frame.width ≤ area.width ∧ min 100 frame.height ≤ area.height
  · have hkeep : keepInArea adjusted frame area true =
        frame.moveTo ⟨kept frame.left frame.width (min (frame.left - frame.width + 100) area.left)
            (max (area.right + frame.width - 100) area.right),
          kept frame.top frame.height (min (area.top - frame.height + 100) area.top)
            (max (area.bottom + frame.height - 100) area.bottom)⟩ := by
      exact movedInto_eq hw hh (enlarged hroom.1) (enlarged hroom.2)
    unfold KeepsVisible Near
    rw [hkeep, moveTo_sides]
    dsimp only
    rw [and_iff_left (top_holds hh hroom.2), left_iff hw hroom.1]
    exact ⟨fun hleft => ⟨hroom.1, hroom.2, hleft⟩, fun h => h.2.2⟩
  · refine iff_of_false (fun h => hroom ?_) fun h => hroom ⟨h.1, h.2.1⟩
    exact ⟨h.1.trans (overlap_le _ _ _ _), h.2.trans (overlap_le _ _ _ _)⟩

/-- A window that fits is kept inside in any case; in parts, enough of it is kept if and only if it is near. -/
theorem keepInArea_visible_iff {adjusted : Size → Size} {frame area : Rect} {partly : Bool} (hframe : frame.isValid) :
    KeepsVisible adjusted frame area partly ↔ (partly = true → Near frame area) := by
  cases partly with
  | true => rw [partly_iff hframe, forall_prop_of_true rfl]
  | false =>
    refine iff_of_true (fun hwidth hheight => ?_) fun h => absurd h (by decide)
    have hw : 1 ≤ frame.width := by
      have := hframe.1
      unfold Rect.width
      omega
    have hh : 1 ≤ frame.height := by
      have := hframe.2
      unfold Rect.height
      omega
    have hkeep : keepInArea adjusted frame area false = movedInto frame area := by
      unfold keepInArea
      dsimp only [Rect.size]
      rw [if_neg Bool.false_ne_true, if_neg (by omega)]
    rw [hkeep, movedInto_eq hw hh hwidth hheight, moveTo_sides]
    unfold kept Rect.Within
    dsimp only
    unfold Rect.width at *
    unfold Rect.height at *
    refine ⟨?_, ?_, ?_, ?_⟩ <;> split <;> (try split) <;> omega

/-- A window that reaches far out of its area to the right is pulled back to its last 100 pixels. -/
theorem farRight_visible : KeepsVisible id ⟨5000, 0, 5199, 99⟩ ⟨0, 0, 999, 999⟩ true :=
  (keepInArea_visible_iff (by decide)).mpr (by decide)

/-- One that is as far to the left of it stays where it is. -/
theorem farLeft_hidden : ¬ KeepsVisible id ⟨-5000, 0, -4801, 99⟩ ⟨0, 0, 999, 999⟩ true := by
  unfold KeepsVisible
  decide

end KWinFT.Placement
