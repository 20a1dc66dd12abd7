import KWinFT.Geometry.Maximize

/-! Quick tiling. Tiling twice to the same side moves on to the next screen on that side, and
takes the window out of its tile where there is none. -/
namespace KWinFT.Geometry
namespace Win
variable (env : Env) (cursor : Point) (w : Win)

/-- The half or quarter of an area that the electric border stands for. -/
def electricPart (q : Quicktiles) (area : Rect) : Rect :=
  let r := area
  let r :=
    if q.left then r.setRight (r.left + r.width.tdiv 2 - 1)
    else if q.right then r.setLeft (r.right - (r.width - r.width.tdiv 2) + 1)
    else r
  if q.top then r.setBottom (r.top + r.height.tdiv 2 - 1)
  else if q.bottom then r.setTop (r.bottom - (r.height - r.height.tdiv 2) + 1)
  else r

def electricBorderMaximizeGeometry (pos : Point) : Rect :=
  if w.electric = .maximize then
    if w.synced.maxMode = .full then w.restoreMaximize else env.clientArea .maximize pos
  else electricPart w.electric (env.clientArea .maximize pos)

def setMaximize (vertically horizontally : Bool) : Win :=
  w.updateMaximized env cursor (.ofFlags vertically horizontally)

def setElectric (q : Quicktiles) : Win :=
  { w with electric := if q ≠ .maximize then q.sanitize else q }

/-- Whether screen `i` lies to the side the tile is on, and nearer than the best one so far. -/
def isNextScreen (mode : Quicktiles) (old best : Nat) (i : Nat) : Bool :=
  let geo (j : Nat) := env.screenGeometries.getD j .null
  let x := (geo i).center.x
  if i = old then false
  else if (geo i).bottom ≤ (geo old).top ∨ (geo i).top ≥ (geo old).bottom then false
  else if mode.left ∧ ¬ mode.right then
    ¬ (x ≥ (geo old).center.x ∨ old ≠ best ∧ x ≤ (geo best).center.x)
  else if mode.right ∧ ¬ mode.left then
    ¬ (x ≤ (geo old).center.x ∨ old ≠ best ∧ x ≥ (geo best).center.x)
  else true

def nextScreen (mode : Quicktiles) (old : Nat) : Nat :=
  (List.range env.screenGeometries.length).foldl
    (fun best i => if isNextScreen env mode old best i then i else best) old

/-- `set_quicktile_mode` for the mode that maximizes. -/
def tileMaximize : Win :=
  let oldRestore := w.restoreMaximize
  let w := { w with quicktiling := .none }
  if w.synced.maxMode = .full then w.setMaximize env cursor false false
  else
    let w := { w with quicktiling := .maximize }.setMaximize env cursor true true
    let area := w.clientArea env .maximize
    let geo := w.pendingFrameGeometry
    let w := if geo.top ≠ area.top then w.setFrameGeometry (geo.moveTop area.top) else w
    { w with restoreMaximize := oldRestore }

/-- `set_quicktile_mode` for a window that is maximized in some direction. -/
def tileFromMaximized (mode : Quicktiles) (keyboard : Bool) : Win :=
  if mode ≠ .none then
    let oldRestore := w.restoreMaximize
    let w := { w with quicktiling := .none }.setMaximize env cursor false false
    let pos := if keyboard then w.pendingFrameGeometry.center else cursor
    let w := w.setFrameGeometry (w.electricBorderMaximizeGeometry env pos)
    { w with quicktiling := mode, restoreMaximize := oldRestore }
  else { w with quicktiling := mode }.setMaximize env cursor false false

/-- The window leaves its tile. -/
def untile : Win :=
  let w := { w with quicktiling := .none }.setFrameGeometry w.restoreMaximize
  let w := w.setFrameGeometry (env.checkWorkspacePosition w .null .null)
  { w with restoreMaximize := .null }

/-- The window goes into a tile at the given position. -/
def tileAt (mode : Quicktiles) (pos : Point) : Win :=
  let w := { w with quicktiling := .none }
  let w := w.setFrameGeometry (w.electricBorderMaximizeGeometry env pos)
  { w with quicktiling := mode }

/-- `set_quicktile_mode` for a window that is not maximized. -/
def tileNormal (mode : Quicktiles) (keyboard : Bool) : Win :=
  if mode = .none then w.untile env
  else
    let target := if keyboard then w.pendingFrameGeometry.center else cursor
    if w.quicktiling = mode then
      let old := w.synced.screen
      let screen := nextScreen env mode old
      let geo (j : Nat) := env.screenGeometries.getD j .null
      if screen = old then (w.setElectric .none).untile env
      else
        let w := w.setFrameGeometry (w.restoreMaximize.translated
          ((geo screen).left - (geo old).left) ((geo screen).top - (geo old).top))
        let mode := mode.swapSides
        (w.setElectric mode).tileAt env mode (geo screen).center
    else w.tileAt env mode target

/-- The slot is filled if it has no valid geometry yet. -/
def storeRestoreGeometry (r : Rect) : Win :=
  if w.restoreMaximize.isValid then w else { w with restoreMaximize := r }

def setQuicktileMode (mode : Quicktiles) (keyboard : Bool) : Win :=
  if ¬ w.isResizable env then w
  else
    let w := w.storeRestoreGeometry w.synced.frameGeometry
    if mode = .maximize then w.tileMaximize env cursor
    else
      let mode := mode.sanitize
      let w := { w with electric := mode }
      if w.maxMode ≠ .restore then w.tileFromMaximized env cursor mode keyboard
      else w.tileNormal env cursor mode keyboard

end Win
end KWinFT.Geometry
