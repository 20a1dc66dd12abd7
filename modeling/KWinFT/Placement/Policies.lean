import KWinFT.Placement.Smart

/-! The other ways of placing a window. Random and cascaded placement remember positions from one window to the next,
in coordinates of the whole display. -/
namespace KWinFT.Placement
open KWinFT.Geometry Areas

/-- `DesktopCascadingInfo`. -/
structure Cascading where
  pos : Point := ⟨-1, -1⟩
  col : Int := 0
  row : Int := 0
deriving Repr, DecidableEq

/-- What is carried over between placements. -/
structure State where
  /-- The static coordinates of random placement. -/
  px : Int := 24
  py : Int := 48
  /-- By the number of the desktop. -/
  cci : Nat → Cascading := fun _ => {}

/-- A lead of a transient. -/
structure Lead where
  special : Bool
  onCurrentDesktop : Bool
  isDesktop : Bool
  frame : Rect
deriving Repr, DecidableEq

/-- A window to be placed, with what the placements read besides. -/
structure Task extends Request where
  /-- `cascadeOffset`. -/
  delta : Point
  cursor : Point
  leads : List Lead
  /-- `clientArea` with `PlacementArea` of a window with its centre there. -/
  placementArea : Point → Rect
  /-- `constrain_and_adjust_size`. -/
  adjusted : Size → Size
  /-- The frame that maximizing gives, when that is to come before the placement on a main window. -/
  maximized : Option Rect
  /-- Whether there is a border snap zone. -/
  borderSnap : Bool
  margins : Margins
  fullRect : Rect
  mode : MaximizeMode

def reinitCascading (s : State) (desktop : Nat) : State :=
  if desktop = 0 then { s with cci := fun _ => {} } else { s with cci := Function.update s.cci desktop {} }

/-- The end of `keep_in_area`, where the window has its size. -/
def movedInto (frame area : Rect) : Rect :=
  let pos := frame.topLeft
  let size := frame.size
  let tx := if pos.x + size.width > area.right ∧ size.width ≤ area.width then area.right - size.width + 1 else pos.x
  let ty := if pos.y + size.height > area.bottom ∧ size.height ≤ area.height then
    area.bottom - size.height + 1 else pos.y
  frame.moveTo (if area.contains pos then ⟨tx, ty⟩ else
    ⟨if tx < area.left then area.left else tx, if ty < area.top then area.top else ty⟩)

def keepInArea (adjusted : Size → Size) (frame area : Rect) (partly : Bool) : Rect :=
  let pos := frame.topLeft
  let size := frame.size
  if partly then
    movedInto frame ⟨min (pos.x - size.width + 100) area.left, min (area.top - size.height + 100) area.top,
      max (area.right + size.width - 100) area.right, max (area.bottom + size.height - 100) area.bottom⟩
  else if area.width < size.width ∨ area.height < size.height then
    movedInto (.ofPointSize pos (adjusted ⟨min area.width size.width, min area.height size.height⟩)) area
  else movedInto frame area

namespace Task
variable (t : Task)

/-- The next coordinate of random placement: a step on, or at the start of an area of which the middle is passed. -/
def stride (step p first extent : Int) : Int :=
  let p := if p < first then first else p
  if p + step > extent.tdiv 2 then first + 24 else p + step

def placeAtRandom (s : State) : State × Rect :=
  let px := stride 24 s.px t.area.left t.area.width
  let py := stride 48 s.py t.area.top t.area.height
  let size := t.window.frame.size
  let (px, tx) := if px + size.width > t.area.right then
    let tx := t.area.right - size.width
    (t.area.left, if tx < 0 then 0 else tx) else (px, px)
  let (py, ty) := if py + size.height > t.area.bottom then
    let ty := t.area.bottom - size.height
    (t.area.top, if ty < 0 then 0 else ty) else (py, py)
  ({ s with px, py }, t.window.frame.moveTo ⟨tx, ty⟩)

/-- The position to continue from, which starts anew in the corner of the area when it is not in it. -/
def cascading (c : Cascading) : Cascading :=
  if c.pos.x < 0 ∨ c.pos.x < t.area.left ∨ c.pos.y < t.area.top then ⟨t.area.topLeft, 0, 0⟩ else c

/-- Nothing when the window is left to smart placement, which is what the callers ask for then. -/
def placeCascaded (s : State) : State × Option Rect :=
  let dn := t.window.desktop t.session
  let ch := t.window.frame.height
  let cw := t.window.frame.width
  let X := t.area.left
  let Y := t.area.top
  let H := t.area.height
  let W := t.area.width
  let c := t.cascading (s.cci dn)
  let yp := if c.pos.y + ch > H then Y else c.pos.y
  if c.pos.x + cw > W ∧ yp = 0 then ({ s with cci := Function.update s.cci dn c }, none) else
  let xp := if c.pos.x + cw > W then X else c.pos.x
  let off := c.pos.x ≠ X ∧ c.pos.y ≠ Y
  let (c, xp) := if off ∧ xp ≠ X ∧ yp = Y then
    ({ c with col := c.col + 1 }, t.delta.x * (c.col + 1)) else (c, xp)
  let (c, yp) := if off ∧ yp ≠ Y ∧ xp = X then
    ({ c with row := c.row + 1 }, t.delta.y * (c.row + 1)) else (c, yp)
  if off ∧ (xp + cw > W - X ∨ yp + ch > H - Y) then ({ s with cci := Function.update s.cci dn c }, none) else
  ({ s with cci := Function.update s.cci dn { c with pos := ⟨xp + t.delta.x, yp + t.delta.y⟩ } },
    some (t.window.frame.moveTo ⟨xp, yp⟩))

def centered (frame : Rect) : Rect :=
  frame.moveTo ⟨t.area.left + (t.area.width - frame.width).tdiv 2, t.area.top + (t.area.height - frame.height).tdiv 2⟩

def placeCentered : Rect := t.centered t.window.frame

def placeZeroCornered : Rect := t.window.frame.moveTo t.area.topLeft

def placeUnderMouse : Rect := keepInArea t.adjusted (t.window.frame.moveCenter t.cursor) t.area false

/-- The end of `place`: a window is moved out by its borders at the edges of the display. -/
def snapped (r : Rect) : Rect :=
  if t.borderSnap then
    let dx := if t.mode.hasHorizontal then 0 else
      (if r.right = t.fullRect.right then t.margins.right else 0) -
        (if r.left = t.fullRect.left then t.margins.left else 0)
    let dy := if t.mode.hasVertical then 0 else if r.bottom = t.fullRect.bottom then t.margins.bottom else 0
    r.translated dx dy
  else r

/-- The loop over the leads: the one to be placed on, if there is a single candidate. -/
def scanLeads (single : Bool) : List Lead → Option Lead → Option Lead → Nat → Option Lead
  | [], placeOn, placeOn2, mainsCount => placeOn <|> if mainsCount ≠ 1 then none else placeOn2
  | lead :: leads, placeOn, placeOn2, mainsCount =>
    if ¬ single ∧ lead.special then scanLeads single leads placeOn placeOn2 mainsCount
    else if lead.onCurrentDesktop then
      if placeOn.isNone then scanLeads single leads (some lead) (some lead) (mainsCount + 1) else none
    else scanLeads single leads placeOn (some lead) (mainsCount + 1)

/-- The main window, unless the window is to be centred. -/
def mainWindow : Option Lead :=
  (scanLeads (t.leads.length ≤ 1) t.leads none none 0).filter fun lead => !lead.isDesktop

/-- The frame to be placed on a main window. -/
def frameToPlace : Rect := t.maximized.getD t.window.frame

def placeOnMainWindow : Rect :=
  match t.mainWindow with
  | none => t.snapped (t.centered t.frameToPlace)
  | some lead =>
    let geom := t.frameToPlace.moveCenter lead.frame.center
    keepInArea t.adjusted geom (t.placementArea geom.center) false

end Task

end KWinFT.Placement
