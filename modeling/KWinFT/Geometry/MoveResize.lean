import KWinFT.Geometry.Rect
import KWinFT.Lib.Loops
import Mathlib.Order.WellFounded
import Mathlib.Data.Prod.Lex

/-! The loops of `move_resize_impl` that bring a window back pixel by pixel until enough of its title bar is seen. Moving back
ends at the previous geometry; resizing goes back over the title edge first and, where that does not help, over the others. -/
namespace KWinFT.Geometry

def sign (v : Int) : Int := if v > 0 then 1 else if v < 0 then -1 else 0

/-- What the loops of a restricted move or resize read. -/
structure MoveResize where
  /-- The screens without struts. -/
  availableArea : List Rect
  strut : List Rect
  screens : Nat
  topBorder : Int
  /-- `previousMoveResizeGeom`. -/
  previous : Rect

namespace MoveResize

/-- The state of the loop of a resize. -/
structure Resize where
  geometry : Rect
  lastVisiblePixels : Int
  lastTry : Rect
  titleFailed : Bool
deriving Repr, DecidableEq

variable (m : MoveResize)

def titleBarRect (requested : Rect) : Rect := Rect.ofPointSize ⟨0, 0⟩ ⟨requested.width, m.topBorder⟩

/-- The title bar is not transposed. -/
def requiredPixels (requested : Rect) : Int :=
  min (100 * (m.titleBarRect requested).height) (requested.width * requested.height)

def titleRect (requested geometry : Rect) : Rect := (m.titleBarRect requested).translated geometry.left geometry.top

def realVisiblePixels (titleRect : Rect) : Int :=
  m.availableArea.foldl (fun pixels area =>
    let r := area.intersected titleRect
    pixels + r.width * r.height) 0

/-- Only of parts as high as the title bar. -/
def visiblePixels (titleRect : Rect) : Int :=
  m.availableArea.foldl (fun pixels area =>
    let r := area.intersected titleRect
    if r.height = titleRect.height then pixels + r.width * r.height else pixels) 0

/-- One edge a pixel back, with whether one was left to go back. The lower edge counters the title and never goes. -/
def edgeBack (titleFailed : Bool) (g : Rect) : Rect × Bool :=
  let topChanged := !titleFailed && m.previous.top ≠ g.top
  let leftChanged := !topChanged && m.previous.left ≠ g.left
  let rightChanged := !topChanged && m.previous.right ≠ g.right
  if topChanged then (g.setTop (g.top + sign (m.previous.top - g.top)), true)
  else if leftChanged then (g.setLeft (g.left + sign (m.previous.left - g.left)), true)
  else if rightChanged then (g.setRight (g.right + sign (m.previous.right - g.right)), true)
  else (g, false)

/-- A round of the loop of a resize, and whether there is another. -/
def resizeRound (requested : Rect) (s : Resize) : Resize × Bool :=
  let real := m.realVisiblePixels (m.titleRect requested s.geometry)
  if m.visiblePixels (m.titleRect requested s.geometry) ≥ m.requiredPixels requested then (s, false)
  else if real ≤ s.lastVisiblePixels ∧ s.titleFailed ∧ real < s.lastVisiblePixels then (s, false)
  else
    let failed := real ≤ s.lastVisiblePixels
    let geometry := if failed ∧ ¬ s.titleFailed then s.lastTry else s.geometry
    let titleFailed := decide failed || s.titleFailed
    let back := m.edgeBack titleFailed geometry
    ({ geometry := back.1, lastVisiblePixels := real, lastTry := geometry, titleFailed }, back.2)

def resizeStart (requested : Rect) : Resize := ⟨requested, -1, requested, false⟩

/-- Below the first strut at the top that the window is over, with more than one screen. -/
def newTitleTop (g : Rect) : Int :=
  if m.screens > 1 then
    match m.strut.find? fun r => r.top = 0 && r.width > r.height && r.intersects g && g.top < r.bottom with
    | some r => r.bottom + 1
    | none => -1
  else -1

/-- One pixel back, sideways if a part of the title is seen. -/
def stepBack (visible : Int) (g : Rect) : Rect :=
  let dx := sign (m.previous.left - g.left)
  let dy := sign (m.previous.top - g.top)
  if visible ≠ 0 ∧ dx ≠ 0 then g.translated dx 0
  else if dy ≠ 0 then g.translated 0 dy
  else g.translated dx dy

/-- A round of the loop of a move, and whether there is another. -/
def moveRound (requested g : Rect) : Rect × Bool :=
  let visible := m.visiblePixels (m.titleRect requested g)
  if visible ≥ m.requiredPixels requested then (g, false)
  else
    let newTitleTop := m.newTitleTop g
    if newTitleTop > -1 then (g.moveTop newTitleTop, false)
    else
      let g := m.stepBack visible g
      (g, decide (g ≠ m.previous))

/-- How far the sides that the loops move are from where they were. -/
def distance (g : Rect) : Nat :=
  (m.previous.left - g.left).natAbs + (m.previous.top - g.top).natAbs + (m.previous.right - g.right).natAbs

end MoveResize

/-- A coordinate from the one to the other. -/
def Between (first last x : Int) : Prop := min first last ≤ x ∧ x ≤ max first last

/-- Each side is between those of the two rectangles. -/
structure Rect.Between (r s g : Rect) : Prop where
  left : Geometry.Between r.left s.left g.left
  top : Geometry.Between r.top s.top g.top
  right : Geometry.Between r.right s.right g.right
  bottom : Geometry.Between r.bottom s.bottom g.bottom

theorem Between.first (first last : Int) : Between first last first := by
  unfold Between
  omega

theorem Rect.Between.first (r s : Rect) : r.Between s r := ⟨.first .., .first .., .first .., .first ..⟩

private theorem add_sign_between {first last x : Int} (h : Between first last x) :
    Between first last (x + sign (last - x)) := by
  unfold Between sign at *
  split
  · omega
  · split <;> omega

private theorem add_sign_nearer {last x : Int} (h : last ≠ x) :
    (last - (x + sign (last - x))).natAbs < (last - x).natAbs := by
  unfold sign
  split
  · omega
  · split <;> omega

namespace MoveResize
variable {m : MoveResize}

theorem edgeBack_between {requested g : Rect} {titleFailed : Bool} (h : requested.Between m.previous g) :
    requested.Between m.previous (m.edgeBack titleFailed g).1 := by
  unfold edgeBack
  dsimp only
  split
  · exact { h with top := add_sign_between h.top }
  · split
    · exact { h with left := add_sign_between h.left }
    · split
      · exact { h with right := add_sign_between h.right }
      · exact h

/-- An edge that goes back is nearer to where it was. -/
theorem edgeBack_nearer {g : Rect} {titleFailed : Bool} (h : (m.edgeBack titleFailed g).2 = true) :
    m.distance (m.edgeBack titleFailed g).1 < m.distance g := by
  unfold edgeBack at *
  dsimp only at *
  split at h
  · rename_i htop
    rw [if_pos htop]
    simp only [Bool.and_eq_true, decide_eq_true_eq] at htop
    exact Nat.add_lt_add_right (Nat.add_lt_add_left (add_sign_nearer htop.2) _) _
  · rename_i htop
    rw [if_neg htop]
    split at h
    · rename_i hleft
      rw [if_pos hleft]
      simp only [Bool.and_eq_true, decide_eq_true_eq] at hleft
      exact Nat.add_lt_add_right (Nat.add_lt_add_right (add_sign_nearer hleft.2) _) _
    · rename_i hleft
      rw [if_neg hleft]
      split at h
      · rename_i hright
        rw [if_pos hright]
        simp only [Bool.and_eq_true, decide_eq_true_eq] at hright
        exact Nat.add_lt_add_left (add_sign_nearer hright.2) _
      · exact absurd h Bool.false_ne_true

/-- What the loop of a resize keeps: this and the last geometry are on the way back. -/
structure OnTheWay (m : MoveResize) (requested : Rect) (s : Resize) : Prop where
  geometry : requested.Between m.previous s.geometry
  lastTry : requested.Between m.previous s.lastTry

/-- The title edge fails once. Before and after, each round brings an edge nearer. -/
def remaining (m : MoveResize) (s : Resize) : Nat × Nat := (if s.titleFailed then 0 else 1, m.distance s.geometry)

theorem resizeRound_onTheWay {requested : Rect} {s : Resize} (hs : m.OnTheWay requested s) :
    m.OnTheWay requested (m.resizeRound requested s).1 := by
  unfold resizeRound
  dsimp only
  split
  · exact hs
  · split
    · exact hs
    · have hgeometry : requested.Between m.previous
          (if m.realVisiblePixels (m.titleRect requested s.geometry) ≤ s.lastVisiblePixels ∧ ¬ s.titleFailed
            then s.lastTry else s.geometry) := by
        split
        · exact hs.lastTry
        · exact hs.geometry
      exact ⟨edgeBack_between hgeometry, hgeometry⟩

/-- Another round goes back from the present geometry as before, or from the last one when the title edge fails. -/
theorem resizeRound_again {requested : Rect} {s : Resize} (hagain : (m.resizeRound requested s).2 = true) :
    ∃ failed g, (m.edgeBack failed g).2 = true ∧ (m.resizeRound requested s).1.titleFailed = failed ∧
      (m.resizeRound requested s).1.geometry = (m.edgeBack failed g).1 ∧
      (failed = s.titleFailed ∧ g = s.geometry ∨ s.titleFailed = false ∧ failed = true) := by
  unfold resizeRound at *
  dsimp only at *
  split at hagain
  · exact absurd hagain Bool.false_ne_true
  · rename_i henough
    rw [if_neg henough]
    split at hagain
    · exact absurd hagain Bool.false_ne_true
    · rename_i hworse
      rw [if_neg hworse]
      refine ⟨_, _, hagain, rfl, rfl, ?_⟩
      cases hfailed : s.titleFailed with
      | true => exact .inl ⟨Bool.or_true _, if_neg fun h => h.2 rfl⟩
      | false =>
        by_cases hless : m.realVisiblePixels (m.titleRect requested s.geometry) ≤ s.lastVisiblePixels
        · exact .inr ⟨rfl, by rw [decide_eq_true hless, Bool.true_or]⟩
        · exact .inl ⟨by rw [decide_eq_false hless, Bool.or_false], if_neg fun h => hless h.1⟩

theorem resizeRound_remaining {requested : Rect} {s : Resize} (hagain : (m.resizeRound requested s).2 = true) :
    Prod.Lex (· < ·) (· < ·) (m.remaining (m.resizeRound requested s).1) (m.remaining s) := by
  obtain ⟨failed, g, hback, htitle, hgeometry, hcase⟩ := resizeRound_again hagain
  unfold remaining
  rw [htitle, hgeometry]
  obtain ⟨rfl, rfl⟩ | ⟨hbefore, rfl⟩ := hcase
  · exact Prod.Lex.right _ (edgeBack_nearer hback)
  · rw [hbefore, if_pos rfl, if_neg Bool.false_ne_true]
    exact Prod.Lex.left _ _ Nat.zero_lt_one

private theorem resize_ends (m : MoveResize) (requested : Rect) :
    ∃ s, Lib.Ends (m.resizeRound requested) (resizeStart requested) s ∧ requested.Between m.previous s.geometry :=
  Lib.exists_ends (InvImage.wf m.remaining (WellFounded.prod_lex Nat.lt_wfRel.wf Nat.lt_wfRel.wf))
    (fun _ hs hagain => ⟨resizeRound_onTheWay hs, resizeRound_remaining hagain⟩)
    (fun _ hs _ => (resizeRound_onTheWay hs).geometry) ⟨.first .., .first ..⟩

/-- What the loop of a move keeps: the window has the size from before and is on the way back. -/
structure Moving (m : MoveResize) (requested g : Rect) : Prop where
  size : g.size = m.previous.size
  between : requested.Between m.previous g

private theorem translated_size (g : Rect) (dx dy : Int) : (g.translated dx dy).size = g.size := by
  unfold Rect.translated Rect.size Rect.width Rect.height
  congr 1 <;> dsimp only <;> omega

private theorem between_of_size {requested g : Rect} (hrequested : requested.size = m.previous.size)
    (hsize : g.size = m.previous.size) (hleft : Geometry.Between requested.left m.previous.left g.left)
    (htop : Geometry.Between requested.top m.previous.top g.top) : m.Moving requested g := by
  refine ⟨hsize, hleft, htop, ?_, ?_⟩
  · have hwidth := congrArg Size.width hsize
    have hwidth' := congrArg Size.width hrequested
    unfold Geometry.Between Rect.size Rect.width at *
    dsimp only at *
    omega
  · have hheight := congrArg Size.height hsize
    have hheight' := congrArg Size.height hrequested
    unfold Geometry.Between Rect.size Rect.height at *
    dsimp only at *
    omega

/-- One coordinate goes back: sideways if that is favoured or the only way left, else up or down. -/
theorem stepBack_eq (visible : Int) (g : Rect) :
    m.stepBack visible g = g.translated (sign (m.previous.left - g.left)) 0 ∧
        (m.previous.left ≠ g.left ∨ m.previous.top = g.top) ∨
      m.stepBack visible g = g.translated 0 (sign (m.previous.top - g.top)) ∧ m.previous.top ≠ g.top := by
  have hsign {v : Int} : sign v = 0 ↔ v = 0 := by
    unfold sign
    split
    · omega
    · split <;> omega
  unfold stepBack
  dsimp only
  split
  · rename_i h
    rw [ne_eq, ne_eq, hsign, Int.sub_eq_zero] at h
    exact .inl ⟨rfl, .inl h.2⟩
  · split
    · rename_i h
      rw [ne_eq, hsign, Int.sub_eq_zero] at h
      exact .inr ⟨rfl, h⟩
    · rename_i h
      rw [not_not] at h
      rw [h]
      exact .inl ⟨rfl, .inr (Int.sub_eq_zero.mp (hsign.mp h))⟩

theorem stepBack_moving {requested g : Rect} {visible : Int} (hrequested : requested.size = m.previous.size)
    (hg : m.Moving requested g) : m.Moving requested (m.stepBack visible g) := by
  obtain ⟨hstep, -⟩ | ⟨hstep, -⟩ := m.stepBack_eq visible g
  · rw [hstep]
    refine between_of_size hrequested ((translated_size ..).trans hg.size) (add_sign_between hg.between.left) ?_
    exact (congrArg (Geometry.Between _ _) (Int.add_zero g.top)).mpr hg.between.top
  · rw [hstep]
    refine between_of_size hrequested ((translated_size ..).trans hg.size) ?_ (add_sign_between hg.between.top)
    exact (congrArg (Geometry.Between _ _) (Int.add_zero g.left)).mpr hg.between.left

/-- How far the position is from where it was. -/
def offset (m : MoveResize) (g : Rect) : Nat := (m.previous.left - g.left).natAbs + (m.previous.top - g.top).natAbs

theorem stepBack_nearer {g : Rect} {visible : Int} (hsize : g.size = m.previous.size)
    (hstep : m.stepBack visible g ≠ m.previous) : m.offset (m.stepBack visible g) < m.offset g := by
  obtain ⟨hback, hcase⟩ | ⟨hback, htop⟩ := m.stepBack_eq visible g
  · have hleft : m.previous.left ≠ g.left := by
      intro hleft
      -- Where nothing is left to go back the window is the previous one, and the loop is over.
      refine hstep ?_
      have htop := hcase.resolve_left (not_not.mpr hleft)
      have hwidth := congrArg Size.width hsize
      have hheight := congrArg Size.height hsize
      rw [hback, hleft, Int.sub_self, show sign 0 = 0 from rfl]
      unfold Rect.translated Rect.size Rect.width Rect.height at *
      ext <;> dsimp only at * <;> omega
    rw [hback]
    unfold offset Rect.translated
    dsimp only
    rw [Int.add_zero]
    exact Nat.add_lt_add_right (add_sign_nearer hleft) _
  · rw [hback]
    unfold offset Rect.translated
    dsimp only
    rw [Int.add_zero]
    exact Nat.add_lt_add_left (add_sign_nearer htop) _

/-- Where the loop of a move ends: on the way back, or from there below a panel at the top. -/
def Arrived (m : MoveResize) (requested g : Rect) : Prop :=
  requested.Between m.previous g ∨
    ∃ before, requested.Between m.previous before ∧ m.newTitleTop before > -1 ∧ g = before.moveTop (m.newTitleTop before)

theorem moveRound_again {requested g : Rect} (hrequested : requested.size = m.previous.size) (hg : m.Moving requested g)
    (hagain : (m.moveRound requested g).2 = true) :
    m.Moving requested (m.moveRound requested g).1 ∧ m.offset (m.moveRound requested g).1 < m.offset g := by
  unfold moveRound at *
  dsimp only at *
  split at hagain
  · exact absurd hagain Bool.false_ne_true
  · rename_i henough
    rw [if_neg henough]
    split at hagain
    · exact absurd hagain Bool.false_ne_true
    · rename_i hpanel
      rw [if_neg hpanel]
      exact ⟨stepBack_moving hrequested hg, stepBack_nearer hg.size (of_decide_eq_true hagain)⟩

theorem moveRound_last {requested g : Rect} (hrequested : requested.size = m.previous.size) (hg : m.Moving requested g) :
    m.Arrived requested (m.moveRound requested g).1 := by
  unfold moveRound
  dsimp only
  split
  · exact .inl hg.between
  · split
    · exact .inr ⟨g, hg.between, ‹_›, rfl⟩
    · exact .inl (stepBack_moving hrequested hg).between

private theorem move_ends {requested : Rect} (hrequested : requested.size = m.previous.size) :
    ∃ g, Lib.Ends (m.moveRound requested) requested g ∧ m.Arrived requested g :=
  Lib.exists_ends (InvImage.wf m.offset Nat.lt_wfRel.wf) (fun _ hg hagain => moveRound_again hrequested hg hagain)
    (fun _ hg _ => moveRound_last hrequested hg) ⟨hrequested, .first ..⟩

/-- Both loops end, with each side between the requested and the previous geometry, but for the way below a panel. -/
theorem moveResize_ends (m : MoveResize) :
    (∀ requested, ∃ s, Lib.Ends (m.resizeRound requested) (resizeStart requested) s ∧
      requested.Between m.previous s.geometry) ∧
      ∀ topLeft, ∃ g, Lib.Ends (m.moveRound (m.previous.moveTo topLeft)) (m.previous.moveTo topLeft) g ∧
        m.Arrived (m.previous.moveTo topLeft) g := by
  refine ⟨resize_ends m, fun topLeft => move_ends ?_⟩
  unfold Rect.moveTo Rect.moveLeft Rect.moveTop Rect.size Rect.width Rect.height
  congr 1 <;> dsimp only <;> omega

end MoveResize
end KWinFT.Geometry
