import KWinFT.Lib.Layers
import KWinFT.Scene.Window

/-! The painting pass without transformations, pass by pass as the scene runs it. The colours a window
paints with and the colours on the screen are parameters; no effect changes the paint data. -/
namespace KWinFT.Scene
open KWinFT.Geometry
variable {α C : Type*}

/-- `PAINT_WINDOW_OPAQUE` and `PAINT_WINDOW_TRANSLUCENT`. -/
inductive PaintMask
  | windowOpaque
  | windowTranslucent
deriving DecidableEq

/-- `Scene::Phase2Data`. -/
structure Phase2Data (α : Type*) where
  window : α
  region : Region
  clip : Region
  mask : PaintMask

/-- What one pass reads: the damage `region`, the part `repaintRegion` of the reused buffer that is out
of date, and the windows from bottom to top. The backend says in `wantsFullRepaint` when it extends
the region to paint to the whole display. -/
structure Frame (α : Type*) where
  screenSize : Size
  region : Region
  repaintRegion : Region
  backgroundFirst : Bool
  stackingOrder : List α
  window : α → Window
  wantsFullRepaint : Region → Bool → Bool

namespace Window
variable (w : Window)

/-- The content on the screen, as the branch of windows with alpha places it. -/
def clientShape : Region := Region.translated w.contentRenderRegion (w.frameToRenderPos w.pos)

def opaqueShape : Region :=
  Region.translated w.opaqueRegion
    ⟨(w.frameToClientPos w.pos).x - w.pos.x, (w.frameToClientPos w.pos).y - w.pos.y⟩

/-- The mask and the clip from the content. -/
def contentClip : PaintMask × Region :=
  if w.isOpaque then
    (.windowOpaque, Region.translated w.contentRenderRegion
      ⟨w.pos.x + w.bufferOffset.x, w.pos.y + w.bufferOffset.y⟩)
  else if w.hasAlpha ∧ w.opacity = 1 then
    (if w.clientShape = w.opaqueShape then .windowOpaque else .windowTranslucent,
      w.clientShape ∩ w.opaqueShape)
  else (.windowTranslucent, ∅)

/-- A decoration without alpha takes the place of the clip from the content. -/
def clip : Region :=
  if w.control.isSome ∧ ¬ w.decorationHasAlpha ∧ w.opacity = 1 then
    Region.translated w.decorationShape w.pos
  else w.contentClip.2

def opaqueFullscreen : Bool := w.isOpaque && w.control.any (·.fullscreen)

end Window

namespace Frame
variable (f : Frame α)

def displayRegion : Region := rectRegion (.ofPointSize ⟨0, 0⟩ f.screenSize)

def prePaintWindow (a : α) : Phase2Data α where
  window := a
  region := f.region ∪ (f.window a).repaints
  clip := (f.window a).clip
  mask := (f.window a).contentClip.1

/-- The state of the first loop. -/
structure Collected (α : Type*) where
  phase2data : List (Phase2Data α)
  dirtyArea : Region
  opaqueFullscreen : Bool

def collectWindow (s : Collected α) (a : α) : Collected α :=
  let data := f.prePaintWindow a
  let s := { s with opaqueFullscreen := (f.window a).opaqueFullscreen }
  if (f.window a).isPaintingEnabled then
    { s with phase2data := s.phase2data ++ [data], dirtyArea := s.dirtyArea ∪ data.region }
  else s

def collect : Collected α := f.stackingOrder.foldl f.collectWindow ⟨[], f.region, false⟩

def extendPaintRegion (r : Region) (opaqueFullscreen : Bool) : Region :=
  if f.wantsFullRepaint r opaqueFullscreen then f.displayRegion else r

/-- The area to paint after both unions and the extension. -/
def dirtyArea : Region :=
  let dirtyArea := f.collect.dirtyArea ∪ f.repaintRegion
  if dirtyArea = f.displayRegion then dirtyArea else f.extendPaintRegion dirtyArea f.collect.opaqueFullscreen

def fullRepaint : Bool := f.dirtyArea = f.displayRegion

/-- The state of the loop from the top that culls what is occluded. -/
structure Culled (α : Type*) where
  phase2data : List (Phase2Data α)
  allclips : Region
  upperTranslucentDamage : Region

/-- Without the parts that a higher window will draw over. -/
def culledRegion (data : Phase2Data α) (s : Culled α) : Region :=
  (if f.fullRepaint then f.displayRegion else data.region ∪ s.upperTranslucentDamage) \ s.allclips

def cullWindow (data : Phase2Data α) (s : Culled α) : Culled α :=
  let region := f.culledRegion data s
  if data.clip ≠ ∅ ∧ data.mask ≠ .windowTranslucent then
    { phase2data := { data with region } :: s.phase2data
      allclips := s.allclips ∪ data.clip
      upperTranslucentDamage :=
        if f.fullRepaint then s.upperTranslucentDamage else s.upperTranslucentDamage ∪ (region \ data.clip) }
  else
    { phase2data := { data with region } :: s.phase2data
      allclips := s.allclips
      upperTranslucentDamage :=
        if f.fullRepaint then s.upperTranslucentDamage else s.upperTranslucentDamage ∪ region }

def cull (phase2data : List (Phase2Data α)) : Culled α :=
  phase2data.foldr f.cullWindow ⟨[], ∅, f.repaintRegion⟩

/-- What the windows and the background paint with: a window blends over the colour below. -/
structure Contents (α C : Type*) where
  background : Pixel → C
  blend : α → Pixel → C → C

/-- The screen and the area painted so far. -/
structure Painting (C : Type*) where
  screen : Pixel → C
  paintedArea : Region

def paintBackground (x : Contents α C) (r : Region) (screen : Pixel → C) : Pixel → C :=
  fun p => if p ∈ r then x.background p else screen p

/-- An enabled window is not deleted, so none is left out for skipping its close animation. -/
def paintWindow (x : Contents α C) (a : α) (r : Region) (screen : Pixel → C) : Pixel → C :=
  fun p => if p ∈ r ∩ f.displayRegion then x.blend a p (screen p) else screen p

def paintPhase2 (x : Contents α C) (s : Painting C) (data : Phase2Data α) : Painting C :=
  let paintedArea := s.paintedArea ∪ data.region
  ⟨f.paintWindow x data.window paintedArea s.screen, paintedArea⟩

/-- The last two passes. -/
def paintAll (x : Contents α C) (buffer : Pixel → C) : Painting C :=
  let culled := f.cull f.collect.phase2data
  let paintedArea := if f.backgroundFirst then ∅ else f.dirtyArea \ culled.allclips
  culled.phase2data.foldl (f.paintPhase2 x) ⟨paintBackground x paintedArea buffer, paintedArea⟩

/-- The screen, `painted_region` and `damaged_region` after the pass. -/
structure Result (C : Type*) where
  screen : Pixel → C
  paintedRegion : Region
  damagedRegion : Region

def paintSimpleScreen (x : Contents α C) (buffer : Pixel → C) (paintedRegion : Region) : Result C :=
  let painting := f.paintAll x buffer
  let repaintClip := f.repaintRegion \ f.collect.dirtyArea
  if f.fullRepaint then ⟨painting.screen, f.displayRegion, f.displayRegion \ repaintClip⟩
  else ⟨painting.screen, paintedRegion ∪ painting.paintedArea, painting.paintedArea \ repaintClip⟩

end Frame

end KWinFT.Scene
