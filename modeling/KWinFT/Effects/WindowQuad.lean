import KWinFT.Lib.Cuts
import Mathlib.Data.Fin.VecNotation
import Mathlib.Data.Fintype.Basic
import Mathlib.Data.Rat.Floor
import Mathlib.Tactic.FinCases

/-! Window quads and the ways in which effects split them. Coordinates are exact; a failed assertion or a call of `qFatal` is
no result, and neither is a loop that does not come to its end within the rounds it is given. -/
namespace KWinFT.Effects

inductive WindowQuadType
  | error
  | contents
  | decoration
  | shadow
  | shadowTop
  | shadowTopRight
  | shadowRight
  | shadowBottomRight
  | shadowBottom
  | shadowBottomLeft
  | shadowLeft
  | shadowTopLeft
  | effect (number : Nat)
deriving Repr, DecidableEq

structure WindowVertex where
  px : ℚ
  py : ℚ
  /-- The original position. -/
  ox : ℚ
  oy : ℚ
  tx : ℚ
  ty : ℚ
deriving Repr, DecidableEq

/-- The vertices are clockwise from the upper left one. -/
structure WindowQuad where
  verts : Fin 4 → WindowVertex
  quadType : WindowQuadType
  uvSwapped : Bool
  quadID : Int

namespace WindowQuad
variable (q : WindowQuad)

def left : ℚ := min (q.verts 0).px (min (q.verts 1).px (min (q.verts 2).px (q.verts 3).px))
def right : ℚ := max (q.verts 0).px (max (q.verts 1).px (max (q.verts 2).px (q.verts 3).px))
def top : ℚ := min (q.verts 0).py (min (q.verts 1).py (min (q.verts 2).py (q.verts 3).py))
def bottom : ℚ := max (q.verts 0).py (max (q.verts 1).py (max (q.verts 2).py (q.verts 3).py))

def isTransformed : Bool := decide (∃ i, (q.verts i).px ≠ (q.verts i).ox ∨ (q.verts i).py ≠ (q.verts i).oy)

def Covers (p : ℚ × ℚ) : Prop := (q.left ≤ p.1 ∧ p.1 ≤ q.right) ∧ q.top ≤ p.2 ∧ p.2 ≤ q.bottom

def Inside (p : ℚ × ℚ) : Prop := (q.left < p.1 ∧ p.1 < q.right) ∧ q.top < p.2 ∧ p.2 < q.bottom

/-- Between the values at the corners, clockwise from the upper left one. -/
def bilinear (s t a b c d : ℚ) : ℚ := (1 - s) * (1 - t) * a + s * (1 - t) * b + s * t * c + (1 - s) * t * d

def textureAt (p : ℚ × ℚ) : ℚ × ℚ :=
  let s := (p.1 - q.left) / (q.right - q.left)
  let t := (p.2 - q.top) / (q.bottom - q.top)
  (bilinear s t (q.verts 0).tx (q.verts 1).tx (q.verts 2).tx (q.verts 3).tx,
    bilinear s t (q.verts 0).ty (q.verts 1).ty (q.verts 2).ty (q.verts 3).ty)

/-- The texture coordinates are taken from the first and the third vertex. -/
def subQuad (x1 y1 x2 y2 : ℚ) : WindowQuad :=
  let width := q.right - q.left
  let height := q.bottom - q.top
  let texWidth := (q.verts 2).tx - (q.verts 0).tx
  let texHeight := (q.verts 2).ty - (q.verts 0).ty
  if q.uvSwapped then
    let u0 := (y1 - q.top) / height * texWidth + (q.verts 0).tx
    let u1 := (y2 - q.top) / height * texWidth + (q.verts 0).tx
    let v0 := (x1 - q.left) / width * texHeight + (q.verts 0).ty
    let v1 := (x2 - q.left) / width * texHeight + (q.verts 0).ty
    { q with verts := ![⟨x1, y1, x1, y1, u0, v0⟩, ⟨x2, y1, x2, y1, u0, v1⟩, ⟨x2, y2, x2, y2, u1, v1⟩,
        ⟨x1, y2, x1, y2, u1, v0⟩] }
  else
    let u0 := (x1 - q.left) / width * texWidth + (q.verts 0).tx
    let u1 := (x2 - q.left) / width * texWidth + (q.verts 0).tx
    let v0 := (y1 - q.top) / height * texHeight + (q.verts 0).ty
    let v1 := (y2 - q.top) / height * texHeight + (q.verts 0).ty
    { q with verts := ![⟨x1, y1, x1, y1, u0, v0⟩, ⟨x2, y1, x2, y1, u1, v0⟩, ⟨x2, y2, x2, y2, u1, v1⟩,
        ⟨x1, y2, x1, y2, u0, v1⟩] }

def makeSubQuad (x1 y1 x2 y2 : ℚ) : Option WindowQuad :=
  if (x1 < x2 ∧ y1 < y2 ∧ x1 ≥ q.left ∧ x2 ≤ q.right ∧ y1 ≥ q.top ∧ y2 ≤ q.bottom) ∧ ¬ q.isTransformed then
    some (q.subQuad x1 y1 x2 y2)
  else none

/-- The quad has no size. -/
def isFlat : Prop := q.left = q.right ∨ q.top = q.bottom

instance : Decidable q.isFlat := inferInstanceAs (Decidable (_ ∨ _))

/-- A round of `splitAtX`. -/
def splitAtX (x : ℚ) : Option (List WindowQuad) :=
  if q.isTransformed then none
  else if (∀ i, (q.verts i).px ≤ x) ∨ ∀ i, (q.verts i).px ≥ x then some [q]
  else if q.isFlat then some [q]
  else do
    let l ← q.makeSubQuad q.left q.top x q.bottom
    let r ← q.makeSubQuad x q.top q.right q.bottom
    some [l, r]

/-- A round of `splitAtY`. -/
def splitAtY (y : ℚ) : Option (List WindowQuad) :=
  if q.isTransformed then none
  else if (∀ i, (q.verts i).py ≤ y) ∨ ∀ i, (q.verts i).py ≥ y then some [q]
  else if q.isFlat then some [q]
  else do
    let t ← q.makeSubQuad q.left q.top q.right y
    let b ← q.makeSubQuad q.left y q.right q.bottom
    some [t, b]

/-- A round of the second loop of both grids: the parts of the quad in the cells that it meets. -/
def inGrid (left top xIncrement yIncrement : ℚ) (n : Nat) : Option (List WindowQuad) :=
  if q.isFlat then some [q]
  else
    let xBegin := left + ⌊(q.left - left) / xIncrement⌋ * xIncrement
    let yBegin := top + ⌊(q.top - top) / yIncrement⌋ * yIncrement
    Lib.forSteps yIncrement q.bottom (fun y =>
      Lib.forSteps xIncrement q.right (fun x =>
        (q.makeSubQuad (max x q.left) (max y q.top) (min q.right (x + xIncrement)) (min q.bottom (y + yIncrement))).map
          ([·])) n xBegin) n yBegin

end WindowQuad

/-- The bounding rectangle. -/
structure Bounding where
  left : ℚ
  right : ℚ
  top : ℚ
  bottom : ℚ
deriving Repr, DecidableEq

def boundingOf (first : WindowQuad) (quads : List WindowQuad) : Bounding :=
  quads.foldl (fun b quad =>
    ⟨min b.left quad.left, max b.right quad.right, min b.top quad.top, max b.bottom quad.bottom⟩)
    ⟨first.left, first.right, first.top, first.bottom⟩

/-- A loop over the quads that appends what it has for each. -/
def eachQuad (f : WindowQuad → Option (List WindowQuad)) : List WindowQuad → Option (List WindowQuad)
  | [] => some []
  | quad :: quads => (f quad).bind fun parts => (eachQuad f quads).map (parts ++ ·)

namespace WindowQuadList

def splitAtX (quads : List WindowQuad) (x : ℚ) : Option (List WindowQuad) := eachQuad (·.splitAtX x) quads

def splitAtY (quads : List WindowQuad) (y : ℚ) : Option (List WindowQuad) := eachQuad (·.splitAtY y) quads

/-- The loops of a quad take at most `n` rounds each. -/
def makeGrid (quads : List WindowQuad) (maxQuadSize : Int) (n : Nat) : Option (List WindowQuad) :=
  match quads with
  | [] => some []
  | first :: _ =>
    if quads.any (·.isTransformed) then none
    else
      let b := boundingOf first quads
      eachQuad (·.inGrid b.left b.top maxQuadSize maxQuadSize n) quads

def makeRegularGrid (quads : List WindowQuad) (xSubdivisions ySubdivisions : Int) (n : Nat) : Option (List WindowQuad) :=
  match quads with
  | [] => some []
  | first :: _ =>
    if quads.any (·.isTransformed) then none
    else
      let b := boundingOf first quads
      let xIncrement := (b.right - b.left) / xSubdivisions
      let yIncrement := (b.bottom - b.top) / ySubdivisions
      eachQuad (·.inGrid b.left b.top xIncrement yIncrement n) quads

end WindowQuadList
end KWinFT.Effects
