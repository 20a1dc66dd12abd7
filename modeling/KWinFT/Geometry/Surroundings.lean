import KWinFT.Geometry.Fullscreen
import KWinFT.Geometry.MaximizeRoundTrip
import KWinFT.Geometry.SizeHints
import KWinFT.Placement.InArea

/-! Surroundings of the geometry code that are themselves code. Smart placement finds a place for a window that has none
to return to, and the sizes that an X11 client takes decide on its frames, also when it is placed. -/
namespace KWinFT.Geometry
open Placement Lib

section smart

/-- What smart placement reads besides the frame and the area. -/
structure Neighbours where
  session : Session
  window : Toplevel
  stackingOrder : List Toplevel
  size_nonneg : ∀ other ∈ stackingOrder, 0 ≤ other.frame.width ∧ 0 ≤ other.frame.height

namespace Neighbours
variable (nearby : Neighbours) {frame area : Rect} {p : Point}

def request (h : area.isValid ∧ frame.isValid) : Request where
  session := nearby.session
  area := area
  window := { nearby.window with frame := frame }
  stackingOrder := nearby.stackingOrder
  area_valid := h.1
  frame_valid := h.2
  size_nonneg := nearby.size_nonneg

/-- The frame where smart placement moves it, if the search takes no more than so many rounds. -/
def placeSmart (rounds : Nat) (frame area : Rect) : Rect :=
  if h : area.isValid ∧ frame.isValid then ((nearby.request h).placeSmart rounds).elim frame frame.moveTo else frame

/-- The search ends, with a frame that is no larger than the area inside it. -/
theorem placeSmart_within (size : Size) (hw : 1 ≤ size.width ∧ size.width ≤ area.width)
    (hh : 1 ≤ size.height ∧ size.height ≤ area.height) :
    ∀ᶠ rounds in Filter.atTop, (nearby.placeSmart rounds (.ofPointSize p size) area).Within area := by
  have hvalid : area.isValid ∧ (Rect.ofPointSize p size).isValid := by
    simp only [Rect.isValid, Rect.ofPointSize, Rect.width, Rect.height] at hw hh ⊢
    omega
  have hsize : (Rect.ofPointSize p size).width = size.width ∧ (Rect.ofPointSize p size).height = size.height := by
    simp only [Rect.ofPointSize, Rect.width, Rect.height]
    omega
  obtain ⟨q, hplaces, hfits, -⟩ := Request.exists_places_isFirst (R := nearby.request hvalid)
    ⟨hsize.1.trans_le hw.2, hsize.2.trans_le hh.2⟩
  filter_upwards [hplaces] with rounds hrounds
  rw [placeSmart, dif_pos hvalid, hrounds, Option.elim_some, Task.moveTo_within_iff, hsize.1, hsize.2]
  simp only [Request.FitsAt, Request.frameAt, Request.cw, Request.ch, request, Rect.Within, hsize.1, hsize.2] at hfits
  simp only [Rect.width, Rect.height]
  omega

end Neighbours

def Env.withNeighbours (env : Env) (nearby : Neighbours) (rounds : Nat) : Env :=
  { env with placeSmart := nearby.placeSmart rounds }

namespace Win
variable {env : Env} {cursor : Point} {w : Win}

/-- A maximized window that has no place to return to gets one in the area. -/
theorem rectifyRestoreGeometry_within (nearby : Neighbours) {r : Rect} (hr : ¬ r.isValid)
    (harea : 2 ≤ (w.getMaximizingArea env cursor).width ∧ 2 ≤ (w.getMaximizingArea env cursor).height)
    (hsize : r.width ≤ (w.getMaximizingArea env cursor).width ∧ r.height ≤ (w.getMaximizingArea env cursor).height) :
    ∀ᶠ rounds in Filter.atTop, (w.rectifyRestoreGeometry (env.withNeighbours nearby rounds) cursor r).Within
      (w.getMaximizingArea env cursor) := by
  have hsome (length most : Int) (hmost : 2 ≤ most) (hlength : length ≤ most) :
      1 ≤ (if length > 0 then length else (most * 2).tdiv 3) ∧
        (if length > 0 then length else (most * 2).tdiv 3) ≤ most := by
    rw [Int.tdiv_eq_ediv_of_nonneg (by omega)]
    split <;> omega
  filter_upwards [nearby.placeSmart_within (defaultRestoreSize (w.getMaximizingArea env cursor) r)
    (hsome _ _ harea.1 hsize.1) (hsome _ _ harea.2 hsize.2)] with rounds hrounds
  rw [rectifyRestoreGeometry, if_neg hr]
  exact hrounds

/-- So does a fullscreen one, where its size hints take a size up to that of the area. -/
theorem rectifyFullscreenRestoreGeometry_within (nearby : Neighbours) (hr : ¬ w.restoreMaximize.isValid)
    {s : Size} (hs : env.adjustedFrameSize w.decorated ⟨twoThirds (w.clientArea env .placement).width,
      twoThirds (w.clientArea env .placement).height⟩ .fixedHeight = s)
    (hwidth : 1 ≤ s.width ∧ s.width ≤ (w.clientArea env .placement).width)
    (hheight : 1 ≤ s.height ∧ s.height ≤ (w.clientArea env .placement).height) :
    ∀ᶠ rounds in Filter.atTop, (w.rectifyFullscreenRestoreGeometry (env.withNeighbours nearby rounds)).Within
      (w.clientArea env .placement) := by
  filter_upwards [nearby.placeSmart_within s hwidth hheight] with rounds hrounds
  subst hs
  rw [rectifyFullscreenRestoreGeometry, if_neg hr]
  exact hrounds

end Win

end smart

namespace X11Client
variable (win : X11Client)

def frameToClientSize (s : Size) : Size :=
  ((Rect.ofPointSize ⟨0, 0⟩ s).subMargins win.borders |>.addMargins win.clientFrameExtents).size

def adjustedFrameSize (frameSize : Size) (mode : SizeMode) : Option Size :=
  win.sizeForClientSize (win.frameToClientSize frameSize) mode false

/-- With the work area of the window. -/
def constrainAndAdjustSize (workArea : Rect) (s : Size) : Option Size :=
  win.adjustedFrameSize ⟨min s.width workArea.width, min s.height workArea.height⟩ .any

/-- The client can be as small as a frame of that size wants it. -/
def Shrinks (frameSize : Size) : Prop :=
  max 1 win.leastSize.width ≤ (win.frameToClientSize frameSize).width ∧
    max 1 win.leastSize.height ≤ (win.frameToClientSize frameSize).height

def Takes (frameSize : Size) : Prop :=
  TakesLength (win.rules.checkStrictGeometry (!win.fullscreen)) win.leastSize.width win.maxSize.width
      win.incrementBase.width win.hints.resizeIncrements.width (win.frameToClientSize frameSize).width ∧
    TakesLength (win.rules.checkStrictGeometry (!win.fullscreen)) win.leastSize.height win.maxSize.height
      win.incrementBase.height win.hints.resizeIncrements.height (win.frameToClientSize frameSize).height

/-- With a decoration or without. -/
def withDecoration (borders : Margins) (decorated : Bool) : X11Client :=
  { win with decorated := decorated, borders := if decorated then borders else ⟨0, 0, 0, 0⟩ }

variable {win}

/-- It takes no more than it is given. -/
theorem adjustedFrameSize_le (h : win.Plain) {frameSize s : Size} {mode : SizeMode} (hshrinks : win.Shrinks frameSize)
    (hs : win.adjustedFrameSize frameSize mode = some s) : s.width ≤ frameSize.width ∧ s.height ≤ frameSize.height := by
  rw [adjustedFrameSize, sizeForClientSize_frame h, Option.map_eq_some_iff] at hs
  obtain ⟨clientSize, hclient, rfl⟩ := hs
  obtain ⟨hw, hh⟩ := sizeForClientSize_le h hshrinks.1 hshrinks.2 hclient
  simp only [frameToClientSize, clientToFrameSize, Rect.size, Rect.width, Rect.height, Rect.subMargins,
    Rect.addMargins, Rect.ofPointSize] at hw hh ⊢
  omega

theorem constrainAndAdjustSize_le (h : win.Plain) {workArea : Rect} (s : Size)
    (hshrinks : win.Shrinks ⟨min s.width workArea.width, min s.height workArea.height⟩) :
    ((win.constrainAndAdjustSize workArea s).getD s).width ≤ s.width ∧
      ((win.constrainAndAdjustSize workArea s).getD s).height ≤ s.height := by
  cases hs : win.constrainAndAdjustSize workArea s with
  | none => exact ⟨le_rfl, le_rfl⟩
  | some adjusted =>
    obtain ⟨hw, hh⟩ := adjustedFrameSize_le h hshrinks hs
    exact ⟨hw.trans (min_le_left _ _), hh.trans (min_le_left _ _)⟩

/-- What it takes it is given. -/
theorem adjustedFrameSize_self (h : win.Plain) {frameSize : Size} {mode : SizeMode} (ht : win.Takes frameSize) :
    win.adjustedFrameSize frameSize mode = some frameSize := by
  have hclient : win.sizeForClientSize (win.frameToClientSize frameSize) mode true =
      some (win.frameToClientSize frameSize) := sizeForClientSize_self h ht.1 ht.2
  rw [adjustedFrameSize, sizeForClientSize_frame h, hclient, Option.map_some]
  obtain ⟨width, height⟩ := frameSize
  simp only [frameToClientSize, clientToFrameSize, Rect.size, Rect.width, Rect.height, Rect.subMargins,
    Rect.addMargins, Rect.ofPointSize, Option.some.injEq, Size.mk.injEq]
  omega

end X11Client

/-- The surroundings of an X11 client. Where the sums of its hints do not fit, the size is as asked for. -/
def Env.withClient (env : Env) (client : X11Client) : Env :=
  { env with adjustedFrameSize := fun decorated s mode =>
      ((client.withDecoration env.borders decorated).adjustedFrameSize s mode).getD s }

/-- Maximization does not disturb a client that takes the frame of every mode. -/
theorem Undisturbed.withClient {env : Env} {client : X11Client} {A G : Rect} {screen : Set Point}
    (u : Undisturbed env A G screen) (hplain : ∀ d, (client.withDecoration env.borders d).Plain)
    (htakes : ∀ d m, (client.withDecoration env.borders d).Takes (target A G m).size) :
    Undisturbed (env.withClient client) A G screen where
  valid := u.valid
  area := u.area
  onScreen := u.onScreen
  sizes d m mode := by
    have hsize : (client.withDecoration env.borders d).adjustedFrameSize (target A G m).size mode =
        some (target A G m).size := X11Client.adjustedFrameSize_self (hplain d) (htakes d m)
    exact congrArg (Option.getD · _) hsize

/-- `placeMaximizing` without a placement after it, the frame that it leaves. -/
def Win.placeMaximizing (env : Env) (cursor : Point) (w : Win) (isMaximizable : Bool) (client : X11Client)
    (workArea area : Rect) : Rect :=
  if isMaximizable ∧ client.maxSize.width ≥ area.width ∧ client.maxSize.height ≥ area.height then
    if w.clientArea env .maximize = area then (w.updateMaximized env cursor .full).frame else area
  else
    let s : Size := ⟨min client.maxSize.width area.width, min client.maxSize.height area.height⟩
    .ofPointSize w.frame.topLeft ((client.constrainAndAdjustSize workArea s).getD s)

/-- The frame is no larger than the area. -/
theorem Win.Held.placeMaximizing {env : Env} {cursor : Point} {w : Win} {area G : Rect} {screen : Set Point}
    {inEffect : Set Rect} (h : w.Held env area G screen inEffect) (u : Undisturbed env area G screen)
    (hG : G.width ≤ area.width ∧ G.height ≤ area.height) {client : X11Client} (hplain : client.Plain) {workArea : Rect}
    (hshrinks : client.Shrinks ⟨min (min client.maxSize.width area.width) workArea.width,
      min (min client.maxSize.height area.height) workArea.height⟩) (isMaximizable : Bool) :
    (w.placeMaximizing env cursor isMaximizable client workArea area).width ≤ area.width ∧
      (w.placeMaximizing env cursor isMaximizable client workArea area).height ≤ area.height := by
  unfold Win.placeMaximizing
  split
  · split
    · rw [(h.updateMaximized u .full).inPlace.frame]
      cases (w.updateMaximized env cursor .full).maxMode with
      | restore => exact hG
      | vertical => exact ⟨hG.1, le_rfl⟩
      | horizontal => exact ⟨le_rfl, hG.2⟩
      | full => exact ⟨le_rfl, le_rfl⟩
    · exact ⟨le_rfl, le_rfl⟩
  · obtain ⟨hw, hh⟩ := X11Client.constrainAndAdjustSize_le hplain
      ⟨min client.maxSize.width area.width, min client.maxSize.height area.height⟩ hshrinks
    dsimp only [Rect.ofPointSize, Rect.width, Rect.height] at hw hh ⊢
    omega

end KWinFT.Geometry

namespace KWinFT.Placement
open KWinFT.Geometry

namespace Task

/-- The placement of an X11 client. -/
def withClient (t : Task) (client : X11Client) (workArea : Rect) : Task :=
  { t with adjusted := fun s => (client.constrainAndAdjustSize workArea s).getD s }

/-- There is room on the main window for a client that can be made as small as the area. -/
theorem withClient_hasRoom {t : Task} {client : X11Client} (hplain : client.Plain) {workArea : Rect} {lead : Lead}
    (hlead : t.mainWindow = some lead)
    (hshrinks : client.Shrinks
      ⟨min (min (t.areaFor .onMainWindow).width t.frameToPlace.size.width) workArea.width,
        min (min (t.areaFor .onMainWindow).height t.frameToPlace.size.height) workArea.height⟩) (s : State) :
    (t.withClient client workArea).HasRoom .onMainWindow s := by
  have hmain : (t.withClient client workArea).mainWindow = some lead := hlead
  simp only [HasRoom, hmain]
  intro _
  obtain ⟨hw, hh⟩ := X11Client.constrainAndAdjustSize_le hplain
    ⟨min (t.areaFor .onMainWindow).width t.frameToPlace.size.width,
      min (t.areaFor .onMainWindow).height t.frameToPlace.size.height⟩ hshrinks
  exact ⟨hw.trans (min_le_left _ _), hh.trans (min_le_left _ _)⟩

/-- The placement of a client that is to be maximized before it is placed on its main window. -/
def withMaximizing (t : Task) (env : Env) (w : Win) (isMaximizable : Bool) (client : X11Client) (workArea : Rect) : Task :=
  { t with maximized := some (w.placeMaximizing env t.cursor isMaximizable client workArea t.area) }

/-- A restored or maximized client has room where it is centred, having no main window to be placed on. -/
theorem withMaximizing_hasRoom {t : Task} {env : Env} {w : Win} {G : Rect} {screen : Set Point} {inEffect : Set Rect}
    (h : w.Held env t.area G screen inEffect) (u : Undisturbed env t.area G screen)
    (hG : G.width ≤ t.area.width ∧ G.height ≤ t.area.height) {client : X11Client} (hplain : client.Plain) {workArea : Rect}
    (hshrinks : client.Shrinks ⟨min (min client.maxSize.width t.area.width) workArea.width,
      min (min client.maxSize.height t.area.height) workArea.height⟩) {isMaximizable : Bool}
    (hnone : t.mainWindow = none) (s : State) :
    (t.withMaximizing env w isMaximizable client workArea).HasRoom .onMainWindow s := by
  have hmain : (t.withMaximizing env w isMaximizable client workArea).mainWindow = none := hnone
  simp only [HasRoom, hmain]
  exact h.placeMaximizing u hG hplain hshrinks isMaximizable

end Task

end KWinFT.Placement
