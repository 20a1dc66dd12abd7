import KWinFT.Geometry.Modes

/-! When leaving fullscreen gives back the frame a window had before. A partially maximized window
is rebuilt from its fullscreen frame, and a slot left over from an earlier mode is taken as is. -/
namespace KWinFT.Geometry
namespace Win
variable (env : Env) (w : Win)

/-- The window when its decoration went away on entering fullscreen. -/
def entered : Win := { w with fullscreen := true }.updateDecoration env false

/-- Where a window is whose decoration has gone away. An X11 window goes where its gravity has it. -/
def placeEntering : Rect :=
  if env.backend = .x11 ∧ w.decorated ∧ w.synced.frameGeometry.topLeft ≠ w.calculateGravitation env then
    w.synced.frameGeometry.moveTo (w.calculateGravitation env)
  else w.synced.frameGeometry

def fullscreenFrame : Rect := env.clientArea .fullScreen (w.placeEntering env).center

/-- Whether the window has borders before it takes its place again. On X11 it has only if it never
was fullscreen in effect. -/
def regainsBorders (s : Synced) : Bool :=
  match env.backend with
  | .x11 => !w.userNoBorder && !s.fullscreen
  | .wayland => env.bordersAllowed && !w.userNoBorder

/-- What is in effect when the window leaves. A Wayland window has grown by its borders. -/
def geometryLeaving (s : Synced) : Rect :=
  match env.backend with
  | .x11 => s.frameGeometry
  | .wayland => if w.regainsBorders env s then env.grown s.frameGeometry else s.frameGeometry

def frameLeaving (s : Synced) : Rect :=
  match env.backend with
  | .x11 => w.fullscreenFrame env
  | .wayland =>
    if w.regainsBorders env s ∧ s.frameGeometry ≠ env.grown s.frameGeometry then
      (w.fullscreenFrame env).setSize (env.grown s.frameGeometry).size
    else w.fullscreenFrame env

/-- The borders are those of the mode already, or may not be changed when the window leaves. -/
def BordersStay (s : Synced) : Prop :=
  env.borderlessMaximizedWindows → env.bordersAllowed → ¬ s.fullscreen → w.userNoBorder = env.wantsNoBorder w.maxMode

/-- A maximized window fills the area where it leaves, and goes along the rest of the frame that it
has there: its frame of before is lost. -/
def FillsArea (s : Synced) : Prop :=
  let area := env.clientArea .maximize (w.geometryLeaving env s).center
  let frame := w.frameLeaving env s
  let adjusted := env.adjustedFrameSize (w.regainsBorders env s)
  match w.maxMode with
  | .restore => True
  | .vertical =>
    ¬ (env.hasAspect ∧ env.tooWideWhenVertical area) ∧ w.frame.topLeft = ⟨frame.left, area.top⟩ ∧
      w.frame.size = adjusted ⟨frame.width, area.height⟩ .fixedHeight
  | .horizontal =>
    ¬ (env.hasAspect ∧ env.tooHighWhenHorizontal area) ∧ w.frame.topLeft = ⟨area.left, frame.top⟩ ∧
      w.frame.size = adjusted ⟨area.width, frame.height⟩ .fixedWidth
  | .full =>
    let tall := Rect.ofPointSize ⟨frame.left, area.top⟩ (adjusted ⟨frame.width, area.height⟩ .fixedHeight)
    let area' := env.clientArea .maximize tall.center
    w.frame.topLeft = ⟨area'.left, tall.top⟩ ∧ w.frame.size = adjusted ⟨area'.width, tall.height⟩ .fixedWidth

/-- An X11 window without its borders stays where it was. -/
def KeepsPlace : Prop :=
  env.backend = .x11 → w.decorated →
    w.synced.frameGeometry.topLeft = w.calculateGravitation env ∨
      w.synced.frameGeometry.moveTo (w.calculateGravitation env) = w.frame

/-- The condition for the way back, on the window before the calls: a maximized window fills the
area, a tiled one has the tile at the cursor, and any other one has its frame in the slot. -/
def Returns (user : Bool) (s : Synced) (cursor : Point) : Prop :=
  (env.specialWindow ∨ user ∧ ¬ env.userCanSetFullScreen) ∨
  if w.maxMode ≠ .restore then w.FillsArea env s ∧ w.BordersStay env s
  else if w.quicktiling ≠ .none then
    electricPart w.quicktiling (env.clientArea .maximize cursor) = w.frame
  else if w.restoreMaximize.isValid then w.restoreMaximize = w.frame
  else w.KeepsPlace env

variable {env w} {cursor : Point}

end Win
end KWinFT.Geometry
