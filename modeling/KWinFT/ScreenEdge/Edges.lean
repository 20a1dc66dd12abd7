import KWinFT.ScreenEdge.Edge
import KWinFT.Areas.Struts

/-! All edges of the screens. They are made anew when the screens change; configuration, the grid of desktops, effects
and windows reserve those of a border. -/
namespace KWinFT.ScreenEdge
open KWinFT.Geometry Areas

/-- `Qt::Orientations`, for the directions in which there is more than one desktop. -/
structure Orientations where
  horizontal : Bool := false
  vertical : Bool := false
deriving Repr, DecidableEq

/-- The entry `ElectricBorders`; other numbers change nothing. -/
inductive ElectricBorders
  | disabled | moveOnly | always | other
deriving Repr, DecidableEq

/-- What is read in `reconfigure`. -/
structure EdgeConfig where
  desktopSwitching : ElectricBorders
  actions : ElectricBorder → ElectricBorderAction
  touchActions : ElectricBorder → ElectricBorderAction

/-- What an action is for. -/
inductive ActionKind
  | pointer | touch
deriving Repr, DecidableEq

def Edge.actionOf (e : Edge) : ActionKind → ElectricBorderAction
  | .pointer => e.action
  | .touch => e.touchAction

def Edge.setActionOf (e : Edge) (kind : ActionKind) (action : ElectricBorderAction) : Edge :=
  match kind with
  | .pointer => e.setAction action
  | .touch => e.setTouchAction action

structure ScreenEdges where
  screens : Screens
  cornerOffset : Int
  edges : List Edge := []
  desktopSwitching : Bool := false
  virtualDesktopLayout : Orientations := {}
  actions : ElectricBorder → ElectricBorderAction := fun _ => .none
  touchActions : ElectricBorder → ElectricBorderAction := fun _ => .none

section screens
variable (scr : Screens) (screen fullArea : Rect)

/-- Only one screen, an end of the full area, or no other screen completely beyond it. -/
def isOuterScreen (atEnd : Prop) [Decidable atEnd] (beyond : Rect → Prop) [DecidablePred beyond] : Bool :=
  scr.count = 1 ∨ atEnd ∨ ∀ other ∈ scr.geometries, other = screen ∨ ¬ beyond other

def isLeftScreen : Bool :=
  isOuterScreen scr screen (screen.left = fullArea.left) fun other => other.left + other.width ≤ screen.left

def isRightScreen : Bool :=
  isOuterScreen scr screen (screen.left + screen.width = fullArea.left + fullArea.width) fun other =>
    other.left ≥ screen.left + screen.width

def isTopScreen : Bool :=
  isOuterScreen scr screen (screen.top = fullArea.top) fun other => other.top + other.height ≤ screen.top

def isBottomScreen : Bool :=
  isOuterScreen scr screen (screen.top + screen.height = fullArea.top + fullArea.height) fun other =>
    other.top ≥ screen.top + screen.height

end screens

namespace ScreenEdges
variable (s : ScreenEdges)

/-- Desktop switching uses the edge of this border when it is created. -/
def switchesAtCreation (border : ElectricBorder) : Bool :=
  if border.isCorner then true
  else (s.virtualDesktopLayout.horizontal && (border.isLeft || border.isRight)) ||
    (s.virtualDesktopLayout.vertical && (border.isTop || border.isBottom))

def createEdge (border : ElectricBorder) (geometry : Rect) (createAction : Bool) : Edge :=
  let edge : Edge := { border, geometry }
  let edge := if createAction then
      let edge := if s.actions border ≠ .none then edge.reserve.setAction (s.actions border) else edge
      if s.touchActions border ≠ .none then edge.reserve.setTouchAction (s.touchActions border) else edge
    else edge
  if s.desktopSwitching && s.switchesAtCreation border then edge.reserve else edge

/-- The left or right edge of a part of a screen, with the corners next to it. -/
def createVerticalEdge (border : ElectricBorder) (screen fullArea : Rect) : List Edge :=
  let x := if border = .left then screen.left else screen.left + screen.width - 1
  let isTop := isTopScreen s.screens screen fullArea
  let isBottom := isBottomScreen s.screens screen fullArea
  let height := screen.height - (if isTop then s.cornerOffset else 0) - (if isBottom then s.cornerOffset else 0)
  let y := if isTop then screen.top + s.cornerOffset else screen.top
  (if isTop then [s.createEdge (if border = .left then .topLeft else .topRight)
      (.ofPointSize ⟨x, screen.top⟩ ⟨1, 1⟩) true] else []) ++
    (if isBottom then [s.createEdge (if border = .left then .bottomLeft else .bottomRight)
      (.ofPointSize ⟨x, screen.top + screen.height - 1⟩ ⟨1, 1⟩) true] else []) ++
    if height ≤ s.cornerOffset then [] else [s.createEdge border (.ofPointSize ⟨x, y⟩ ⟨1, height⟩) true]

def createHorizontalEdge (border : ElectricBorder) (screen fullArea : Rect) : List Edge :=
  let isLeft := isLeftScreen s.screens screen fullArea
  let isRight := isRightScreen s.screens screen fullArea
  let x := if isLeft then screen.left + s.cornerOffset else screen.left
  let width := screen.width - (if isLeft then s.cornerOffset else 0) - (if isRight then s.cornerOffset else 0)
  let y := if border = .top then screen.top else screen.top + screen.height - 1
  if width ≤ s.cornerOffset then [] else [s.createEdge border (.ofPointSize ⟨x, y⟩ ⟨width, 1⟩) true]

/-- The edges of one rectangle of a screen. -/
def createEdges (screenPart : Rect) : List Edge :=
  let fullArea := s.screens.displayGeometry
  (if isLeftScreen s.screens screenPart fullArea then s.createVerticalEdge .left screenPart fullArea else []) ++
    (if isRightScreen s.screens screenPart fullArea then s.createVerticalEdge .right screenPart fullArea else []) ++
    (if isTopScreen s.screens screenPart fullArea then s.createHorizontalEdge .top screenPart fullArea else []) ++
    if isBottomScreen s.screens screenPart fullArea then s.createHorizontalEdge .bottom screenPart fullArea else []

/-- Reservations of effects and scripts are taken over from every old edge of the same border. -/
def copyReservations (edge oldEdge : Edge) : Edge :=
  if oldEdge.client.isSome then edge
  else if oldEdge.border ≠ edge.border then edge
  else
    let edge := oldEdge.callBacks.foldl (fun edge callback => edge.reserveObject callback.1 callback.2) edge
    oldEdge.touchActions.foldl Edge.reserveTouchCallBack edge

/-- The screens have changed. Their parts are the rectangles of the regions that each screen adds. -/
def recreateEdges (screens : Screens) (parts : List Rect) : ScreenEdges :=
  let s := { s with screens := screens }
  { s with edges := (parts.flatMap s.createEdges).map fun edge => s.edges.foldl copyReservations edge }

def reserveDesktopSwitching (isToReserve : Bool) (o : Orientations) : ScreenEdges :=
  if !o.horizontal && !o.vertical then s
  else { s with edges := s.edges.map fun edge =>
    if s.switchesAtCreation edge.border then if isToReserve then edge.reserve else edge.unreserve else edge }

/-- The grid of desktops has the given size. -/
def updateLayout (desktopMatrix : Size) : ScreenEdges :=
  let newLayout : Orientations := ⟨desktopMatrix.width > 1, desktopMatrix.height > 1⟩
  if newLayout = s.virtualDesktopLayout then s
  else
    let s := if s.desktopSwitching then s.reserveDesktopSwitching false s.virtualDesktopLayout else s
    let s := { s with virtualDesktopLayout := newLayout }
    if s.desktopSwitching then s.reserveDesktopSwitching true s.virtualDesktopLayout else s

def setDesktopSwitching (enable : Bool) : ScreenEdges :=
  if enable = s.desktopSwitching then s
  else reserveDesktopSwitching { s with desktopSwitching := enable } enable s.virtualDesktopLayout

/-- All edges of a border. -/
def mapBorder (border : ElectricBorder) (f : Edge → Edge) : ScreenEdges :=
  { s with edges := s.edges.map fun edge => if edge.border = border then f edge else edge }

def actionsOf : ActionKind → ElectricBorder → ElectricBorderAction
  | .pointer => s.actions
  | .touch => s.touchActions

def storeActions (kind : ActionKind) (actions : ElectricBorder → ElectricBorderAction) : ScreenEdges :=
  match kind with
  | .pointer => { s with actions := actions }
  | .touch => { s with touchActions := actions }

/-- A border gets another action, and with it all its edges. -/
def setActionOfBorder (kind : ActionKind) (border : ElectricBorder) (newValue : ElectricBorderAction) : ScreenEdges :=
  let oldValue := s.actionsOf kind border
  if oldValue = newValue then s
  else
    let s := if oldValue = .none then s.mapBorder border Edge.reserve else s
    let s := if newValue = .none then s.mapBorder border Edge.unreserve else s
    let s := s.storeActions kind fun b => if b = border then newValue else s.actionsOf kind b
    s.mapBorder border fun edge => edge.setActionOf kind newValue

def setActionForBorder (border : ElectricBorder) (newValue : ElectricBorderAction) : ScreenEdges :=
  s.setActionOfBorder .pointer border newValue

def setActionForTouchBorder (border : ElectricBorder) (newValue : ElectricBorderAction) : ScreenEdges :=
  s.setActionOfBorder .touch border newValue

def reconfigure (config : EdgeConfig) : ScreenEdges :=
  let s := match config.desktopSwitching with
    | .disabled | .moveOnly => s.setDesktopSwitching false
    | .always => s.setDesktopSwitching true
    | .other => s
  let s := [ElectricBorder.topLeft, .top, .topRight, .right, .bottomRight, .bottom, .bottomLeft, .left].foldl
    (fun s border => s.setActionForBorder border (config.actions border)) s
  [ElectricBorder.top, .right, .bottom, .left].foldl
    (fun s border => s.setActionForTouchBorder border (config.touchActions border)) s

def reserveBorder (border : ElectricBorder) (object : ObjectId) (slot : String) : ScreenEdges :=
  s.mapBorder border fun edge => edge.reserveObject object slot

def unreserveBorder (border : ElectricBorder) (object : ObjectId) : ScreenEdges :=
  s.mapBorder border fun edge => edge.unreserveObject object

def reserveTouch (border : ElectricBorder) (action : ActionId) : ScreenEdges :=
  s.mapBorder border fun edge => edge.reserveTouchCallBack action

def unreserveTouch (border : ElectricBorder) (action : ActionId) : ScreenEdges :=
  s.mapBorder border fun edge => edge.unreserveTouchCallBack action

/-- The strip of a window along the border, on the first screen that has the whole window and is outermost there. -/
def clientEdgeGeometry (geo : Rect) (border : ElectricBorder) : Option Rect :=
  let fullArea := s.screens.displayGeometry
  s.screens.geometries.findSome? fun screen =>
    if !rectContainsRect screen geo then none
    else match border with
      | .top =>
        if screen.top = geo.top ∧ isTopScreen s.screens screen fullArea then
          some (.ofPointSize ⟨geo.left, geo.top⟩ ⟨geo.width, 1⟩) else none
      | .bottom =>
        if screen.top + screen.height = geo.top + geo.height ∧ isBottomScreen s.screens screen fullArea then
          some (.ofPointSize ⟨geo.left, geo.top + geo.height - 1⟩ ⟨geo.width, 1⟩) else none
      | .left =>
        if screen.left = geo.left ∧ isLeftScreen s.screens screen fullArea then
          some (.ofPointSize ⟨geo.left, geo.top⟩ ⟨1, geo.height⟩) else none
      | .right =>
        if screen.left + screen.width = geo.left + geo.width ∧ isRightScreen s.screens screen fullArea then
          some (.ofPointSize ⟨geo.left + geo.width - 1, geo.top⟩ ⟨1, geo.height⟩) else none
      | _ => none

/-- An edge of a window has no actions. -/
def createEdgeForClient (window : WindowId) (geo : Rect) (border : ElectricBorder) : ScreenEdges :=
  match s.clientEdgeGeometry geo border with
  | some geometry =>
    if geometry.width > 0 ∧ geometry.height > 0 then
      { s with edges := s.edges ++ [((s.createEdge border geometry false).setClient (some window)).reserve] }
    else s
  | none => s

/-- `reserve` for a window, which replaces the edge that it has. -/
def reserveWindow (window : WindowId) (geo : Rect) (border : ElectricBorder) : ScreenEdges :=
  let s := { s with edges := s.edges.filter (·.client ≠ some window) }
  if border ≠ .none then s.createEdgeForClient window geo border else s

end ScreenEdges

inductive EdgesEvent
  | recreateEdges (screens : Screens) (parts : List Rect)
  | updateLayout (desktopMatrix : Size)
  | reconfigure (config : EdgeConfig)
  | reserve (border : ElectricBorder) (object : ObjectId) (slot : String)
  | unreserve (border : ElectricBorder) (object : ObjectId)
  | reserveTouch (border : ElectricBorder) (action : ActionId)
  | unreserveTouch (border : ElectricBorder) (action : ActionId)
  | reserveWindow (window : WindowId) (geo : Rect) (border : ElectricBorder)

def ScreenEdges.step (s : ScreenEdges) : EdgesEvent → ScreenEdges
  | .recreateEdges screens parts => s.recreateEdges screens parts
  | .updateLayout desktopMatrix => s.updateLayout desktopMatrix
  | .reconfigure config => s.reconfigure config
  | .reserve border object slot => s.reserveBorder border object slot
  | .unreserve border object => s.unreserveBorder border object
  | .reserveTouch border action => s.reserveTouch border action
  | .unreserveTouch border action => s.unreserveTouch border action
  | .reserveWindow window geo border => s.reserveWindow window geo border

end KWinFT.ScreenEdge
