import Mathlib.Tactic.Common

/-! Integer rectangles as the toolkit stores them: by their inclusive corners, so that a
size is off by one from a difference of coordinates and a default rectangle is invalid. The coordinates are those of
screens, far from the ends of a 32-bit `int`; where numbers of clients come in as they are sent (struts, hints, offsets,
requested frames), results are those of the code as long as no sum of them leaves that range. -/
namespace KWinFT.Geometry

structure Point where
  x : Int
  y : Int
deriving Repr, DecidableEq

structure Size where
  width : Int
  height : Int
deriving Repr, DecidableEq

structure Margins where
  left : Int
  top : Int
  right : Int
  bottom : Int
deriving Repr, DecidableEq

@[ext] structure Rect where
  left : Int
  top : Int
  right : Int
  bottom : Int
deriving Repr, DecidableEq

namespace Rect

/-- `QRect()`. -/
def null : Rect := ⟨0, 0, -1, -1⟩

def ofPointSize (p : Point) (s : Size) : Rect :=
  ⟨p.x, p.y, p.x + s.width - 1, p.y + s.height - 1⟩

variable (r : Rect)

def width : Int := r.right - r.left + 1
def height : Int := r.bottom - r.top + 1
def size : Size := ⟨r.width, r.height⟩
def topLeft : Point := ⟨r.left, r.top⟩

/-- Integer division of the toolkit truncates. -/
def center : Point := ⟨(r.left + r.right).tdiv 2, (r.top + r.bottom).tdiv 2⟩

def isValid : Prop := r.left ≤ r.right ∧ r.top ≤ r.bottom

instance : Decidable r.isValid := inferInstanceAs (Decidable (_ ∧ _))

def isEmpty : Prop := r.left > r.right ∨ r.top > r.bottom

instance : Decidable r.isEmpty := inferInstanceAs (Decidable (_ ∨ _))

def setLeft (x : Int) : Rect := { r with left := x }
def setTop (y : Int) : Rect := { r with top := y }
def setRight (x : Int) : Rect := { r with right := x }
def setBottom (y : Int) : Rect := { r with bottom := y }
def setSize (s : Size) : Rect := ofPointSize r.topLeft s

def moveLeft (x : Int) : Rect := { r with left := x, right := r.right + (x - r.left) }
def moveTop (y : Int) : Rect := { r with top := y, bottom := r.bottom + (y - r.top) }
def moveRight (x : Int) : Rect := { r with left := r.left + (x - r.right), right := x }
def moveBottom (y : Int) : Rect := { r with top := r.top + (y - r.bottom), bottom := y }
def moveTo (p : Point) : Rect := (r.moveLeft p.x).moveTop p.y

def translated (dx dy : Int) : Rect := ⟨r.left + dx, r.top + dy, r.right + dx, r.bottom + dy⟩

def addMargins (m : Margins) : Rect :=
  ⟨r.left - m.left, r.top - m.top, r.right + m.right, r.bottom + m.bottom⟩

def subMargins (m : Margins) : Rect :=
  ⟨r.left + m.left, r.top + m.top, r.right - m.right, r.bottom - m.bottom⟩

def isNull : Bool := r.right = r.left - 1 && r.bottom = r.top - 1

/-- A side of negative length is read backwards. -/
def span (first last : Int) : Int × Int := if last - first + 1 < 0 then (last, first) else (first, last)

def united (s : Rect) : Rect :=
  if r.isNull then s else if s.isNull then r else
    let rx := span r.left r.right
    let ry := span r.top r.bottom
    let sx := span s.left s.right
    let sy := span s.top s.bottom
    ⟨min rx.1 sx.1, min ry.1 sy.1, max rx.2 sx.2, max ry.2 sy.2⟩

def intersects (s : Rect) : Bool :=
  !r.isNull && !s.isNull && (span r.left r.right).1 ≤ (span s.left s.right).2 &&
    (span s.left s.right).1 ≤ (span r.left r.right).2 && (span r.top r.bottom).1 ≤ (span s.top s.bottom).2 &&
    (span s.top s.bottom).1 ≤ (span r.top r.bottom).2

def intersected (s : Rect) : Rect :=
  if r.intersects s then
    ⟨max (span r.left r.right).1 (span s.left s.right).1, max (span r.top r.bottom).1 (span s.top s.bottom).1,
      min (span r.left r.right).2 (span s.left s.right).2, min (span r.top r.bottom).2 (span s.top s.bottom).2⟩
  else null

@[simp] theorem ofPointSize_left (p : Point) (s : Size) : (ofPointSize p s).left = p.x := rfl
@[simp] theorem ofPointSize_top (p : Point) (s : Size) : (ofPointSize p s).top = p.y := rfl

@[simp] theorem ofPointSize_topLeft_size : ofPointSize r.topLeft r.size = r := by
  ext <;> simp only [ofPointSize, topLeft, size, width, height] <;> omega

end Rect

/-- `win::maximize_mode`, the two flags written out. -/
inductive MaximizeMode
  | restore
  | vertical
  | horizontal
  | full
deriving Repr, DecidableEq

namespace MaximizeMode

def hasVertical : MaximizeMode → Bool
  | vertical | full => true
  | restore | horizontal => false

def hasHorizontal : MaximizeMode → Bool
  | horizontal | full => true
  | restore | vertical => false

/-- The mode with the given flags. -/
def ofFlags : Bool → Bool → MaximizeMode
  | false, false => restore
  | true, false => vertical
  | false, true => horizontal
  | true, true => full

end MaximizeMode

/-- `win::position`, where the pointer holds a window. -/
inductive Position
  | center
  | left
  | right
  | top
  | bottom
  | topLeft
  | topRight
  | bottomLeft
  | bottomRight
deriving Repr, DecidableEq

end KWinFT.Geometry
