import KWinFT.Geometry.Window

/-! Maximization, function by function. Switching between partial modes restores the window
first, and the code tells from the tiling whether it may write the slot. -/
namespace KWinFT.Geometry
namespace MaximizeMode

/-- `geo_update.max_mode |= mode`. -/
def union (a b : MaximizeMode) : MaximizeMode :=
  ofFlags (a.hasVertical || b.hasVertical) (a.hasHorizontal || b.hasHorizontal)

end MaximizeMode

namespace Win
variable (env : Env) (cursor : Point) (w : Win)

def setRestoreGeometry (r : Rect) : Win :=
  if w.fullscreen then w
  else if w.quicktiling ≠ .none then w
  else if w.moving then w
  else { w with restoreMaximize := r }

def getMaximizingArea : Rect :=
  if w.electricMaximizing then env.clientArea .maximize cursor else w.clientArea env .maximize

/-- The size a window gets that has no place to return to. -/
def defaultRestoreSize (area r : Rect) : Size :=
  ⟨if r.width > 0 then r.width else (area.width * 2).tdiv 3,
    if r.height > 0 then r.height else (area.height * 2).tdiv 3⟩

/-- A valid rectangle is kept. Else the window is placed for a moment to find one. -/
def rectifyRestoreGeometry (r : Rect) : Rect :=
  if r.isValid then r
  else
    let area := w.getMaximizingArea env cursor
    env.placeSmart (Rect.ofPointSize ⟨0, 0⟩ (defaultRestoreSize area r)) area

def updateFrameFromRestoreGeometry (r : Rect) : Win :=
  let rectified := w.rectifyRestoreGeometry env cursor r
  match env.backend with
  | .x11 => w.setFrameGeometry rectified
  | .wayland => w.setFrameGeometry (if r.isValid then rectified else rectified.setSize ⟨-1, -1⟩)

/-- Where a window of the given mode returns to: the slot counts in the maximized directions. -/
def finalRestoreGeometry : Rect :=
  let r := w.frame
  let r := if w.maxMode.hasVertical then
    (r.setTop w.restoreMaximize.top).setBottom w.restoreMaximize.bottom else r
  if w.maxMode.hasHorizontal then
    (r.setLeft w.restoreMaximize.left).setRight w.restoreMaximize.right else r

def maximizeRestore : Win :=
  let w := w.updateFrameFromRestoreGeometry env cursor w.finalRestoreGeometry
  let w := { w with maxMode := .restore }
  (w.updateNoBorder env).setRestoreGeometry .null

/-- The common shape of `maximize_vertically` and `maximize_horizontally`. -/
def maximizeDirection (dir : MaximizeMode) (pos : Point) (size : Size) (sizeMode : SizeMode) : Win :=
  let old := w.frame
  let w := w.setFrameGeometry (Rect.ofPointSize pos (env.adjustedFrameSize w.decorated size sizeMode))
  let w := { w with maxMode := w.maxMode.union dir }
  (w.updateNoBorder env).setRestoreGeometry old

def maximizeVertically : Win :=
  let area := w.getMaximizingArea env cursor
  w.maximizeDirection env .vertical ⟨w.frame.left, area.top⟩ ⟨w.frame.width, area.height⟩ .fixedHeight

def maximizeHorizontally : Win :=
  let area := w.getMaximizingArea env cursor
  w.maximizeDirection env .horizontal ⟨area.left, w.frame.top⟩ ⟨area.width, w.frame.height⟩ .fixedWidth

def updateMaximizedImpl (mode : MaximizeMode) : Win :=
  if mode = .restore then w.maximizeRestore env cursor
  else
    let oldFrame := w.frame
    let oldMode := w.maxMode
    let w :=
      if mode.hasVertical then
        let w := if oldMode.hasHorizontal ∧ ¬ mode.hasHorizontal then
          w.maximizeRestore env cursor else w
        w.maximizeVertically env cursor
      else w
    let w :=
      if mode.hasHorizontal then
        let w := if oldMode.hasVertical ∧ ¬ mode.hasVertical then
          w.maximizeRestore env cursor else w
        w.maximizeHorizontally env cursor
      else w
    w.setRestoreGeometry oldFrame

/-- A window of fixed aspect that would outgrow the area is maximized in both directions or
not at all. -/
def respectMaximizingAspect (mode : MaximizeMode) : MaximizeMode :=
  if ¬ env.hasAspect then mode
  else if mode ≠ .vertical ∧ mode ≠ .horizontal then mode
  else
    let area := w.getMaximizingArea env cursor
    if mode = .vertical ∨ w.maxMode.hasVertical then
      if env.tooWideWhenVertical area then
        if w.maxMode.hasHorizontal then .restore else .full
      else mode
    else if env.tooHighWhenHorizontal area then
      if w.maxMode.hasVertical then .restore else .full
    else mode

/-- The mode is unchanged: only the geometry is brought up to date. -/
def repeatMaximized (mode : MaximizeMode) : Win :=
  let restoreGeo := w.restoreMaximize
  let w := if mode.hasVertical then w.maximizeVertically env cursor else w
  let w := if mode.hasHorizontal then w.maximizeHorizontally env cursor else w
  w.setRestoreGeometry restoreGeo

/-- A switch between maximized modes restores the window first. That may clear the slot, so it
is put back. -/
def restoreFirst (mode : MaximizeMode) : Win :=
  if w.maxMode ≠ .restore ∧ mode ≠ .restore then
    { w.updateMaximizedImpl env cursor .restore with restoreMaximize := w.restoreMaximize }
  else w

/-- The tiling follows the mode, without an effect on the frame. -/
def tileAsMaximized (mode : MaximizeMode) : Win :=
  let tiled := { w with quicktiling := if mode = .full then .maximize else .none }
  if w.quicktiling ≠ tiled.quicktiling then tiled.setFrameGeometry w.frame else tiled

def updateMaximized (mode : MaximizeMode) : Win :=
  if ¬ w.isResizable env ∨ env.toolbar then w
  else
    let mode := w.respectMaximizingAspect env cursor mode
    if mode = w.maxMode then w.repeatMaximized env cursor mode
    else ((w.restoreFirst env cursor mode).updateMaximizedImpl env cursor mode).tileAsMaximized mode

end Win
end KWinFT.Geometry
