import KWinFT.Geometry.Rect

/-! The geometry of a controlled window as maximization, quick tiling and fullscreen see it:
the geometry aimed at, the geometry in effect, and the one slot that remembers where to return. -/
namespace KWinFT.Geometry

/-- `win::quicktiles`, the four flags written out. -/
structure Quicktiles where
  left : Bool
  right : Bool
  top : Bool
  bottom : Bool
deriving Repr, DecidableEq

namespace Quicktiles

def none : Quicktiles := ⟨false, false, false, false⟩
def maximize : Quicktiles := ⟨true, true, true, true⟩

/-- Both flags of a direction cancel out. -/
def sanitize (q : Quicktiles) : Quicktiles :=
  ⟨q.left && !q.right, q.right && !q.left, q.top && !q.bottom, q.bottom && !q.top⟩

/-- The other side of the screen, if there is a side. -/
def swapSides (q : Quicktiles) : Quicktiles :=
  if q.left ∨ q.right then { q with left := !q.left, right := !q.right } else q

end Quicktiles

/-- `win::size_mode`. -/
inductive SizeMode
  | any
  | fixedWidth
  | fixedHeight
  | max
deriving Repr, DecidableEq

/-- The options of `Workspace::clientArea` that are used here. -/
inductive AreaOption
  | maximize
  | placement
  | fullScreen
deriving Repr, DecidableEq

inductive Backend
  | x11
  | wayland
deriving Repr, DecidableEq

/-- What is in effect on the display. It follows the geometry aimed at when the client answers. -/
structure Synced where
  frameGeometry : Rect
  maxMode : MaximizeMode
  fullscreen : Bool
  screen : Nat
deriving Repr, DecidableEq

/-- `frame`, `maxMode`, `fullscreen` and `pending` make up `geometry_update`; `restoreMaximize`
is `restore_geometries.maximize`. -/
structure Win where
  frame : Rect
  maxMode : MaximizeMode
  fullscreen : Bool
  pending : Bool
  restoreMaximize : Rect
  quicktiling : Quicktiles
  electric : Quicktiles
  electricMaximizing : Bool
  moving : Bool
  decorated : Bool
  userNoBorder : Bool
  synced : Synced
deriving Repr, DecidableEq

/-- What the geometry code asks of its surroundings: the screens, the client's size hints, the
decoration and the options. Placement and the position check only choose a frame. -/
structure Env where
  backend : Backend
  clientArea : AreaOption → Point → Rect
  screenGeometries : List Rect
  adjustedFrameSize : Bool → Size → SizeMode → Size
  hasAspect : Bool
  tooWideWhenVertical : Rect → Bool
  tooHighWhenHorizontal : Rect → Bool
  borders : Margins
  gravityShift : Point
  bordersAllowed : Bool
  resizable : Bool
  toolbar : Bool
  /-- A desktop, a dock, a splash screen, a notification or an on screen display. -/
  specialType : Bool
  userCanSetFullScreen : Bool
  borderlessMaximizedWindows : Bool
  /-- An X11 application wants no borders, by its kind or shape or by its Motif hints. -/
  appNoBorder : Bool
  motifNoBorder : Bool
  placeSmart : Rect → Rect → Rect
  /-- For the window and the frame and client geometry it had. -/
  checkWorkspacePosition : Win → Rect → Rect → Rect
  finishMoveResize : Win → Win

/-- One screen with a panel at its bottom, and a resizable client without size hints. -/
def Env.plain : Env where
  backend := .wayland
  clientArea
    | .maximize, _ => ⟨0, 0, 99, 89⟩
    | .placement, _ => ⟨0, 0, 99, 89⟩
    | .fullScreen, _ => ⟨0, 0, 99, 99⟩
  screenGeometries := [⟨0, 0, 99, 99⟩]
  adjustedFrameSize _ s _ := s
  hasAspect := false
  tooWideWhenVertical _ := false
  tooHighWhenHorizontal _ := false
  borders := ⟨0, 0, 0, 0⟩
  gravityShift := ⟨0, 0⟩
  bordersAllowed := false
  resizable := true
  toolbar := false
  specialType := false
  userCanSetFullScreen := true
  borderlessMaximizedWindows := false
  appNoBorder := false
  motifNoBorder := false
  placeSmart r _ := r
  checkWorkspacePosition w _ _ := w.frame
  finishMoveResize w := w

def Env.specialWindow (env : Env) : Bool := env.toolbar || env.specialType

/-- A frame with borders around what it had without. -/
def Env.grown (env : Env) (r : Rect) : Rect :=
  Rect.ofPointSize r.topLeft
    ⟨r.width + (env.borders.left + env.borders.right), r.height + (env.borders.bottom + env.borders.top)⟩

/-- Whether maximized windows without borders are to have none in the given mode. -/
def Env.wantsNoBorder (env : Env) (mode : MaximizeMode) : Bool :=
  match env.backend with
  | .x11 => env.appNoBorder || env.motifNoBorder || mode = .full
  | .wayland => mode = .full

namespace Win

/-- A window that is neither maximized, tiled nor fullscreen. -/
def normal (r : Rect) : Win where
  frame := r
  maxMode := .restore
  fullscreen := false
  pending := false
  restoreMaximize := .null
  quicktiling := .none
  electric := .none
  electricMaximizing := false
  moving := false
  decorated := false
  userNoBorder := false
  synced := ⟨r, .restore, false, 0⟩

def pendingFrameGeometry (w : Win) : Rect := if w.pending then w.frame else w.synced.frameGeometry

/-- `setFrameGeometry` while geometry updates are blocked, as in all of the code here. -/
def setFrameGeometry (w : Win) (r : Rect) : Win := { w with frame := r, pending := true }

variable (env : Env) (w : Win)

def isResizable : Bool := env.resizable && !w.fullscreen

/-- `Workspace::clientArea` for a window looks at the centre of its frame. -/
def clientArea (opt : AreaOption) : Rect := env.clientArea opt w.pendingFrameGeometry.center

def move (p : Point) : Win :=
  let old := w.pendingFrameGeometry
  if old.topLeft = p then w else w.setFrameGeometry (old.moveTo p)

/-- `calculate_gravitation` of the inverse: where the client wants to be without its borders. -/
def calculateGravitation : Point :=
  ⟨w.synced.frameGeometry.left - env.gravityShift.x, w.synced.frameGeometry.top - env.gravityShift.y⟩

def destroyDecoration : Win :=
  match env.backend with
  | .x11 =>
    if w.decorated then { w with decorated := false }.move (w.calculateGravitation env) else w
  | .wayland => { w with decorated := false }

/-- A decorated Wayland window grows by its borders at once, an X11 window gets them only when
it is not fullscreen any more. -/
def createDecoration : Win :=
  match env.backend with
  | .x11 => if w.userNoBorder ∨ w.synced.fullscreen then w else { w with decorated := true }
  | .wayland =>
    let geo := w.synced.frameGeometry
    let grown := env.grown geo
    let w := { w with decorated := true }
    if geo = grown then w
    else
      { w with
        synced := { w.synced with frameGeometry := grown }
        frame := if w.pending then w.frame else w.frame.setSize grown.size }

def hasNoBorder : Bool :=
  match env.backend with
  | .x11 => w.userNoBorder || w.fullscreen
  | .wayland => if env.bordersAllowed then w.userNoBorder || w.fullscreen else true

/-- The frame that the position check takes for the old one when the borders change. -/
def geometryBefore : Rect :=
  match env.backend with
  | .x11 => w.frame
  | .wayland => w.synced.frameGeometry

def clientBefore : Rect :=
  (w.geometryBefore env).subMargins (if w.decorated then env.borders else ⟨0, 0, 0, 0⟩)

def updateDecoration (checkWorkspacePos : Bool) : Win :=
  if w.decorated = !w.hasNoBorder env then w
  else
    let changed := if w.hasNoBorder env then w.destroyDecoration env else w.createDecoration env
    if checkWorkspacePos then
      changed.setFrameGeometry (env.checkWorkspacePosition changed (w.geometryBefore env) (w.clientBefore env))
    else changed

def setNoBorder (set : Bool) : Win :=
  if ¬ env.bordersAllowed ∨ w.synced.fullscreen then w
  else if w.userNoBorder = set then w
  else { w with userNoBorder := set }.updateDecoration env true

def updateNoBorder : Win :=
  if ¬ env.borderlessMaximizedWindows then w else w.setNoBorder env (env.wantsNoBorder w.maxMode)

/-- An X11 window gets back its decoration only here. -/
def doSetFullscreen (full : Bool) : Win :=
  if w.synced.fullscreen = full then w
  else
    let w := { w with synced := { w.synced with fullscreen := full } }
    match env.backend with
    | .x11 => if full then w else w.updateDecoration env false
    | .wayland => w

/-- The last blocker goes: the geometry is sent out, and `synced` is in effect afterwards. -/
def release (synced : Synced) : Win :=
  if w.pending then
    let w := { w with pending := false, synced := { synced with fullscreen := w.synced.fullscreen } }
    -- A decoration that goes away there moves the frame, which is sent out once more.
    { w.doSetFullscreen env synced.fullscreen with pending := false, synced := synced }
  else w

/-- A window with a decoration is to have one. -/
def Bordered : Prop := w.decorated → w.hasNoBorder env = false

/-- What a change of the decoration leaves alone. Only a Wayland window changes its frame in
effect at once. -/
structure Redecorated (env : Env) (w w' : Win) : Prop where
  maxMode : w'.maxMode = w.maxMode
  fullscreen : w'.fullscreen = w.fullscreen
  moving : w'.moving = w.moving
  restoreMaximize : w'.restoreMaximize = w.restoreMaximize
  quicktiling : w'.quicktiling = w.quicktiling
  electric : w'.electric = w.electric
  electricMaximizing : w'.electricMaximizing = w.electricMaximizing
  pending : w.pending → w'.pending
  synced : env.backend = .x11 → w'.synced = w.synced
  bordered : w.Bordered env → w'.Bordered env

theorem Redecorated.refl : Redecorated env w w := by
  constructor <;> simp

@[simp] theorem setFrameGeometry_hasNoBorder (r : Rect) : (w.setFrameGeometry r).hasNoBorder env = w.hasNoBorder env := rfl

theorem move_frameOnly (p : Point) :
    w.move p = w ∨ w.move p = w.setFrameGeometry (w.pendingFrameGeometry.moveTo p) := by
  unfold move
  dsimp only
  split
  · exact .inl rfl
  · exact .inr rfl

theorem destroyDecoration_redecorated : Redecorated env w (w.destroyDecoration env) := by
  unfold destroyDecoration
  split
  · split
    · rcases move_frameOnly { w with decorated := false } (w.calculateGravitation env) with h | h
      · rw [h]
        constructor <;> simp [Bordered]
      · rw [h]
        constructor <;> simp [Bordered, setFrameGeometry]
    · exact .refl env w
  · constructor <;> simp [Bordered]

theorem destroyDecoration_decorated : (w.destroyDecoration env).decorated = false := by
  unfold destroyDecoration
  split
  · split
    · rcases move_frameOnly { w with decorated := false } (w.calculateGravitation env) with h | h <;> rw [h]
      rfl
    · next h => exact Bool.eq_false_iff.mpr h
  · rfl

theorem createDecoration_flags :
    (w.createDecoration env).userNoBorder = w.userNoBorder ∧ (w.createDecoration env).fullscreen = w.fullscreen := by
  unfold createDecoration
  dsimp only
  split
  · split <;> exact ⟨rfl, rfl⟩
  · split <;> exact ⟨rfl, rfl⟩

theorem createDecoration_hasNoBorder : (w.createDecoration env).hasNoBorder env = w.hasNoBorder env := by
  unfold hasNoBorder
  rw [(createDecoration_flags env w).1, (createDecoration_flags env w).2]

/-- Borders are only created for a window that is to have some. -/
theorem createDecoration_redecorated (h : w.hasNoBorder env = false) : Redecorated env w (w.createDecoration env) := by
  have hbordered : (w.createDecoration env).Bordered env := fun _ => (createDecoration_hasNoBorder env w).trans h
  refine ⟨?_, ?_, ?_, ?_, ?_, ?_, ?_, ?_, ?_, fun _ => hbordered⟩
  all_goals
    unfold createDecoration
    dsimp only
    split
    · split <;> simp
    · next hb => split <;> simp [hb]

theorem updateDecoration_redecorated (check : Bool) :
    Redecorated env w (w.updateDecoration env check) := by
  have hchange : Redecorated env w
      (if w.hasNoBorder env then w.destroyDecoration env else w.createDecoration env) := by
    split
    · exact destroyDecoration_redecorated env w
    · next h => exact createDecoration_redecorated env w (Bool.eq_false_iff.mpr h)
  unfold updateDecoration
  dsimp only
  split
  · exact .refl env w
  · split
    · exact { hchange with pending := fun _ => rfl }
    · exact hchange

/-- Whatever was there before, the decoration is right afterwards. -/
theorem updateDecoration_bordered (check : Bool) : (w.updateDecoration env check).Bordered env := by
  unfold updateDecoration
  dsimp only
  split
  · next h =>
    intro hd
    rw [hd] at h
    simpa using h
  · have hchange : Bordered env
        (if w.hasNoBorder env then w.destroyDecoration env else w.createDecoration env) := by
      split
      · intro hd
        rw [destroyDecoration_decorated] at hd
        cases hd
      · next hno =>
        exact fun _ => (createDecoration_hasNoBorder env w).trans (Bool.eq_false_iff.mpr hno)
    split
    · exact hchange
    · exact hchange

theorem updateNoBorder_redecorated : Redecorated env w (w.updateNoBorder env) := by
  unfold updateNoBorder setNoBorder
  split
  · exact .refl env w
  · split
    · exact .refl env w
    · split
      · exact .refl env w
      · obtain ⟨h₁, h₂, h₃, h₄, h₅, h₆, h₇, h₈, h₉, -⟩ := updateDecoration_redecorated env
          { w with userNoBorder := env.wantsNoBorder w.maxMode } true
        exact ⟨h₁, h₂, h₃, h₄, h₅, h₆, h₇, h₈, h₉, fun _ => updateDecoration_bordered env _ true⟩

/-- What the sending out of the geometry leaves alone. -/
structure Released (env : Env) (s : Synced) (w w' : Win) : Prop where
  maxMode : w'.maxMode = w.maxMode
  fullscreen : w'.fullscreen = w.fullscreen
  moving : w'.moving = w.moving
  restoreMaximize : w'.restoreMaximize = w.restoreMaximize
  quicktiling : w'.quicktiling = w.quicktiling
  electricMaximizing : w'.electricMaximizing = w.electricMaximizing
  userNoBorder : w'.userNoBorder = w.userNoBorder
  pending : w'.pending = false
  synced : w'.synced = if w.pending then s else w.synced
  bordered : w.Bordered env → w'.Bordered env
  frame : w.Bordered env → w'.frame = w.frame

theorem updateDecoration_userNoBorder (check : Bool) :
    (w.updateDecoration env check).userNoBorder = w.userNoBorder := by
  have hdestroy : (w.destroyDecoration env).userNoBorder = w.userNoBorder := by
    unfold destroyDecoration
    split
    · split
      · rcases move_frameOnly { w with decorated := false } (w.calculateGravitation env) with h | h <;> rw [h]
        rfl
      · rfl
    · rfl
  have hcreate := (createDecoration_flags env w).1
  unfold updateDecoration
  dsimp only
  split
  · rfl
  · split <;> split <;> first | exact hdestroy | exact hcreate

/-- A decoration that comes back on X11 does not move the frame, and one that is right does not go away. -/
theorem updateDecoration_frame (hb : env.backend = .x11) (h : w.Bordered env) :
    (w.updateDecoration env false).frame = w.frame := by
  unfold updateDecoration
  dsimp only
  split
  · rfl
  · next hwrong =>
    rw [if_neg Bool.false_ne_true]
    split
    · next hno =>
      refine absurd ?_ hwrong
      rw [hno]
      exact Bool.eq_false_iff.mpr fun hd => Bool.false_ne_true ((h hd).symm.trans hno)
    · unfold createDecoration
      rw [hb]
      dsimp only
      split <;> rfl

theorem doSetFullscreen_cases (full : Bool) :
    w.doSetFullscreen env full = w ∨ w.doSetFullscreen env full = { w with synced := { w.synced with fullscreen := full } } ∨
      env.backend = .x11 ∧ w.doSetFullscreen env full =
        ({ w with synced := { w.synced with fullscreen := full } } : Win).updateDecoration env false := by
  unfold doSetFullscreen
  split
  · exact .inl rfl
  · cases hb : env.backend with
    | wayland => exact .inr (.inl rfl)
    | x11 =>
      dsimp only
      split
      · exact .inr (.inl rfl)
      · exact .inr (.inr ⟨rfl, rfl⟩)

theorem release_released (s : Synced) : Released env s w (w.release env s) := by
  unfold release
  split
  · next hp =>
    dsimp only
    set v : Win := { w with pending := false, synced := { s with fullscreen := w.synced.fullscreen } } with hv
    rcases doSetFullscreen_cases env v s.fullscreen with h | h | ⟨hx, h⟩
    · rw [h]
      exact ⟨rfl, rfl, rfl, rfl, rfl, rfl, rfl, rfl, (if_pos hp).symm, id, fun _ => rfl⟩
    · rw [h]
      exact ⟨rfl, rfl, rfl, rfl, rfl, rfl, rfl, rfl, (if_pos hp).symm, id, fun _ => rfl⟩
    · rw [h]
      set u : Win := { v with synced := { v.synced with fullscreen := s.fullscreen } } with hu
      have hd := updateDecoration_redecorated env u false
      exact ⟨hd.maxMode, hd.fullscreen, hd.moving, hd.restoreMaximize, hd.quicktiling, hd.electricMaximizing,
        updateDecoration_userNoBorder env u false, rfl, (if_pos hp).symm, hd.bordered, updateDecoration_frame env u hx⟩
  · next hp => exact ⟨rfl, rfl, rfl, rfl, rfl, rfl, rfl, Bool.eq_false_iff.mpr hp, (if_neg hp).symm, id, fun _ => rfl⟩

end Win
end KWinFT.Geometry
