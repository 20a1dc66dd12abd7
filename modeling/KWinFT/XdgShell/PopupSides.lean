import KWinFT.XdgShell.PopupPlacement
import Mathlib.Algebra.Order.Ring.Int

/-! One direction of a popup: what flipping, sliding and resizing make of a side, and which sums are taken for that. -/
namespace KWinFT.XdgShell
open KWinFT.Geometry Lib

/-- What a place takes of one direction. -/
structure Side where
  first : Int
  last : Int
deriving Repr, DecidableEq

namespace Side
variable (s bounds : Side)

def Inside : Prop := bounds.first ≤ s.first ∧ s.last ≤ bounds.last

instance : Decidable (s.Inside bounds) := inferInstanceAs (Decidable (_ ∧ _))

/-- Something of it is in the bounds. -/
def Meets : Prop := max s.first bounds.first ≤ min s.last bounds.last

instance : Decidable (s.Meets bounds) := inferInstanceAs (Decidable (_ ≤ _))

def flip (allowed : Bool) (flipped : Side) : Side :=
  if allowed ∧ ¬ s.Inside bounds ∧ flipped.Inside bounds then ⟨flipped.first, s.last + (flipped.first - s.first)⟩ else s

/-- Slid over the first end of the bounds only. -/
def slidFirst : Side := if s.first < bounds.first then ⟨bounds.first, s.last + (bounds.first - s.first)⟩ else s

def slide (allowed : Bool) : Side :=
  if allowed then
    let s := s.slidFirst bounds
    if bounds.last < s.last then ⟨s.first + (bounds.last - s.last), bounds.last⟩ else s
  else s

def resize (allowed : Bool) : Side :=
  if allowed ∧ s.Meets bounds then ⟨max s.first bounds.first, min s.last bounds.last⟩ else s

/-- All that may be done in one direction. -/
def adjust (flipped : Side) (flips slides resizes : Bool) : Side :=
  ((s.flip bounds flips flipped).slide bounds slides).resize bounds resizes

/-- One end can be moved, and the other one with it. -/
def MoveFits (old new other : Int) : Prop := IsInt (new - old) ∧ IsInt (other + (new - old))

/-- The flipped side is there where it is looked at, and can be moved to. -/
def FlipFits (flipped : Side) (flips : Bool) (placed : Prop) : Prop :=
  flips → ¬ s.Inside bounds → placed ∧ (flipped.Inside bounds → MoveFits s.first flipped.first s.last)

def SlideFits (slides : Bool) : Prop :=
  slides → (s.first < bounds.first → MoveFits s.first bounds.first s.last) ∧
    (bounds.last < (s.slidFirst bounds).last →
      MoveFits (s.slidFirst bounds).last bounds.last (s.slidFirst bounds).first)

def AdjustFits (flipped : Side) (flips slides : Bool) (placed : Prop) : Prop :=
  s.FlipFits bounds flipped flips placed ∧ (s.flip bounds flips flipped).SlideFits bounds slides

variable {s bounds} {flipped : Side} {flips slides resizes : Bool}

theorem flip_length (s bounds flipped : Side) (flips : Bool) : (s.flip bounds flips flipped).last - (s.flip bounds flips flipped).first = s.last - s.first := by
  unfold flip
  split
  · dsimp only
    omega
  · rfl

theorem slide_length (s bounds : Side) (slides : Bool) : (s.slide bounds slides).last - (s.slide bounds slides).first = s.last - s.first := by
  unfold slide slidFirst
  dsimp only
  split
  · split <;> split <;> dsimp only at * <;> omega
  · rfl

theorem adjust_of_inside (h : s.Inside bounds) : s.adjust bounds flipped flips slides resizes = s := by
  have hflip : s.flip bounds flips flipped = s := if_neg fun hno => hno.2.1 h
  have hslide : s.slide bounds slides = s := by
    unfold slide slidFirst
    dsimp only
    rw [if_neg (not_lt.mpr h.1), if_neg (not_lt.mpr h.2), ite_self]
  unfold adjust
  rw [hflip, hslide]
  unfold resize
  rw [max_eq_left h.1, min_eq_left h.2, ite_self]

/-- A side that may slide comes inside, if there is room. -/
theorem adjust_of_slides (hroom : s.last - s.first ≤ bounds.last - bounds.first) :
    (s.adjust bounds flipped flips true resizes).Inside bounds := by
  have hlength := flip_length s bounds flipped flips
  unfold adjust
  generalize s.flip bounds flips flipped = f at hlength ⊢
  have hslide : (f.slide bounds true).Inside bounds := by
    unfold slide slidFirst Inside
    dsimp only
    rw [if_pos rfl]
    split
    · split
      · dsimp only at *
        omega
      · dsimp only at *
        omega
    · split
      · dsimp only at *
        omega
      · omega
  have hstays : (f.slide bounds true).resize bounds resizes = f.slide bounds true := by
    unfold resize
    rw [max_eq_left hslide.1, min_eq_left hslide.2, ite_self]
  rw [hstays]
  exact hslide

/-- One that may only be resized comes inside, if something of it is there. -/
theorem adjust_of_resizes (hmeets : s.Meets bounds) : (s.adjust bounds flipped false false true).Inside bounds := by
  have hflip : s.flip bounds false flipped = s := if_neg fun h => Bool.false_ne_true h.1
  have hslide : s.slide bounds false = s := if_neg Bool.false_ne_true
  have hresize : s.resize bounds true = ⟨max s.first bounds.first, min s.last bounds.last⟩ := if_pos ⟨rfl, hmeets⟩
  unfold adjust
  rw [hflip, hslide, hresize]
  exact ⟨le_max_right _ _, min_le_right _ _⟩

theorem adjust_valid (hs : s.first ≤ s.last) :
    (s.adjust bounds flipped flips slides resizes).first ≤ (s.adjust bounds flipped flips slides resizes).last := by
  have hflip := flip_length s bounds flipped flips
  have hslide := slide_length (s.flip bounds flips flipped) bounds slides
  unfold adjust
  generalize (s.flip bounds flips flipped).slide bounds slides = x at hslide ⊢
  unfold resize
  split
  · next h => exact h.2
  · omega

end Side

/-- One direction of a popup beside its anchor. -/
structure Direction where
  anchor : Side
  lowEdge : Bool
  highEdge : Bool
  lowGravity : Bool
  highGravity : Bool
  offset : Int
  lead : Int
  border : Int
  length : Int

namespace Direction
variable (d : Direction)

def anchorPos : Int :=
  if d.lowEdge && !d.highEdge then d.anchor.first
  else if d.highEdge && !d.lowEdge then d.anchor.last + 1
  else roundedHalf (d.anchor.first + d.anchor.last + 1)

def adjust : Int := gravityAdjust d.lowGravity d.highGravity d.length

def first : Int := d.anchorPos + d.adjust + d.offset + (d.lead + d.border)

def side : Side := ⟨d.first, d.first + d.length - 1⟩

/-- No sum on the way to the place is too big. -/
structure Fits : Prop where
  anchor : (d.lowEdge && !d.highEdge) = false → SumsFit d.anchor.last [-d.anchor.first, 1] ∧ IsInt d.anchorPos
  adjust : IsInt (d.anchorPos + d.adjust)
  lead : IsInt (d.lead + d.border)
  pos : SumsFit (d.anchorPos + d.adjust) [d.offset, d.lead + d.border]
  last : SumsFit d.first [d.length, -1]

theorem alongSide_eq_some {x : Int} : alongSide d.lowEdge d.highEdge d.anchor.first d.anchor.last = some x ↔
    ((d.lowEdge && !d.highEdge) = false → SumsFit d.anchor.last [-d.anchor.first, 1] ∧ IsInt d.anchorPos) ∧
      d.anchorPos = x := by
  have hsum : d.anchor.last + [-d.anchor.first, 1].sum = d.anchor.last - d.anchor.first + 1 := by
    simp only [List.sum_cons, List.sum_nil]
    omega
  unfold alongSide anchorPos
  cases hlow : d.lowEdge && !d.highEdge with
  | true => simp
  | false =>
    simp only [Bool.false_eq_true, if_false, Option.bind_eq_bind, Option.bind_eq_some_iff, sumFrom_eq_some, hsum,
      true_implies]
    cases d.highEdge && !d.lowEdge with
    | true =>
      have hlast : d.anchor.first + (d.anchor.last - d.anchor.first + 1) = d.anchor.last + 1 := by omega
      simp only [if_true, int_eq_some]
      constructor
      · rintro ⟨_, ⟨hfits, rfl⟩, hint, rfl⟩
        exact ⟨⟨hfits, hlast ▸ hint⟩, hlast.symm⟩
      · rintro ⟨⟨hfits, hint⟩, rfl⟩
        exact ⟨_, ⟨hfits, rfl⟩, hlast ▸ hint, hlast⟩
    | false =>
      have hmiddle : 2 * d.anchor.first + (d.anchor.last - d.anchor.first + 1) = d.anchor.first + d.anchor.last + 1 := by
        omega
      simp only [Bool.false_eq_true, if_false, int_eq_some]
      constructor
      · rintro ⟨_, ⟨hfits, rfl⟩, hint, rfl⟩
        rw [hmiddle] at hint ⊢
        exact ⟨⟨hfits, hint⟩, rfl⟩
      · rintro ⟨⟨hfits, hint⟩, rfl⟩
        refine ⟨_, ⟨hfits, rfl⟩, ?_⟩
        rw [hmiddle]
        exact ⟨hint, rfl⟩

theorem first_eq : d.anchorPos + d.adjust + [d.offset, d.lead + d.border].sum = d.first := by
  simp only [List.sum_cons, List.sum_nil]
  unfold first
  omega

theorem last_eq : d.first + [d.length, -1].sum = d.side.last := by
  simp only [List.sum_cons, List.sum_nil]
  unfold side
  dsimp only
  omega

end Direction

theorem movedAlong_eq_some {old new other x : Int} :
    movedAlong old new other = some x ↔ Side.MoveFits old new other ∧ other + (new - old) = x := by
  unfold movedAlong Side.MoveFits
  rw [int_bind_eq_some, int_eq_some, and_assoc]

end KWinFT.XdgShell
