import Mathlib.Data.Option.Basic

/-! The pixmaps of a scene window: the current one, and the previous one as long as there is need of it. -/
namespace KWinFT.Scene

/-- What creating a pixmap finds. -/
structure PixmapSource where
  isDeleted : Bool
  shouldUseWaylandForCompositing : Bool
  /-- The surface, with its buffer. -/
  surface : Option (Option Nat)
  internalFramebufferObject : Option Nat
  internalImageObject : Option Nat
  namePixmapError : Bool
  isViewable : Bool
  /-- The frame has the size of the render geometry. -/
  sizeFits : Bool
  /-- The name generated for an X11 pixmap. -/
  pix : Nat
deriving Repr, DecidableEq

/-- A pixmap, with a number to tell it from others. -/
structure WindowPixmap where
  serial : Nat
  buffer : Option Nat
  fbo : Option Nat
  internalImage : Option Nat
  pixmap : Option Nat
  isDiscarded : Bool
deriving Repr, DecidableEq

namespace WindowPixmap

def isValid (p : WindowPixmap) : Bool :=
  p.buffer.isSome ∨ p.fbo.isSome ∨ p.internalImage.isSome ∨ p.pixmap.isSome

def updateBuffer (p : WindowPixmap) (source : PixmapSource) : WindowPixmap :=
  match source.surface with
  | some none => p
  | some (some buffer) => { p with buffer := some buffer }
  | none =>
    if source.internalFramebufferObject.isSome then { p with fbo := source.internalFramebufferObject }
    else if source.internalImageObject.isSome then { p with internalImage := source.internalImageObject }
    else { p with buffer := none }

/-- The pixmap afterwards, and whether the window is to unreference the previous one. -/
def create (p : WindowPixmap) (source : PixmapSource) : WindowPixmap × Bool :=
  if p.isValid ∨ source.isDeleted then (p, false)
  else if source.shouldUseWaylandForCompositing then
    let p := p.updateBuffer source
    (p, p.buffer.isSome ∨ p.fbo.isSome)
  else if source.namePixmapError ∨ ¬ source.isViewable ∨ ¬ source.sizeFits then (p, false)
  else ({ p with pixmap := some source.pix }, true)

end WindowPixmap

/-- The pixmaps of a `Scene::Window`. -/
structure WindowPixmaps where
  currentPixmap : Option WindowPixmap
  previousPixmap : Option WindowPixmap
  referencePixmapCounter : Int
  /-- As many were created so far. -/
  created : Nat
deriving Repr, DecidableEq

namespace WindowPixmaps

def initial : WindowPixmaps := ⟨none, none, 0, 0⟩

def referencePreviousPixmap (w : WindowPixmaps) : WindowPixmaps :=
  if w.previousPixmap.any WindowPixmap.isDiscarded then
    { w with referencePixmapCounter := w.referencePixmapCounter + 1 }
  else w

def unreferencePreviousPixmap (w : WindowPixmaps) : WindowPixmaps :=
  if w.previousPixmap.any WindowPixmap.isDiscarded then
    let counter := w.referencePixmapCounter - 1
    { w with
      referencePixmapCounter := counter
      previousPixmap := if counter = 0 then none else w.previousPixmap }
  else w

/-- Marking the pixmap as discarded references it. -/
def discardPixmap (w : WindowPixmaps) : WindowPixmaps :=
  match w.currentPixmap with
  | none => w
  | some p =>
    if p.isValid then
      referencePreviousPixmap
        { w with currentPixmap := none, previousPixmap := some { p with isDiscarded := true } }
    else { w with currentPixmap := none }

def createWindowPixmap (w : WindowPixmaps) : WindowPixmaps :=
  { w with currentPixmap := some ⟨w.created, none, none, none, none, false⟩, created := w.created + 1 }

def updatePixmap (w : WindowPixmaps) (source : PixmapSource) : WindowPixmaps :=
  let w := if w.currentPixmap.isNone then w.createWindowPixmap else w
  match w.currentPixmap with
  | none => w
  | some p =>
    if p.isValid then w
    else
      let (p, unreferences) := p.create source
      let w := { w with currentPixmap := some p }
      if unreferences then w.unreferencePreviousPixmap else w

end WindowPixmaps

/-- A lock of a cross-fade, or a pixmap that was discarded and has no successor yet. -/
inductive Holder
  | previousWindowPixmapLock (lock : Nat)
  | discarded
deriving Repr, DecidableEq

/-- A reference that was taken and not given back, with the previous pixmap that there was, if any. -/
structure Reference where
  holder : Holder
  pixmap : Option Nat
deriving Repr, DecidableEq

structure CrossFaded where
  window : WindowPixmaps
  references : List Reference
deriving Repr, DecidableEq

inductive PixmapEvent
  | reference (lock : Nat)
  | unreference (lock : Nat)
  | discardPixmap
  | updatePixmap (source : PixmapSource)
deriving Repr, DecidableEq

namespace CrossFaded

def initial : CrossFaded := ⟨.initial, []⟩

def without (s : CrossFaded) (holder : Holder) : List Reference := s.references.filter fun r => r.holder ≠ holder

/-- A lock references when it is made, once, and unreferences when it is destroyed. The reference of a discarded pixmap
is to end when its successor is there. -/
def step (s : CrossFaded) : PixmapEvent → Option CrossFaded
  | .reference lock =>
    if ∃ r ∈ s.references, r.holder = .previousWindowPixmapLock lock then none
    else some ⟨s.window.referencePreviousPixmap,
      ⟨.previousWindowPixmapLock lock, s.window.previousPixmap.map WindowPixmap.serial⟩ :: s.references⟩
  | .unreference lock =>
    if ∃ r ∈ s.references, r.holder = .previousWindowPixmapLock lock then
      some ⟨s.window.unreferencePreviousPixmap, s.without (.previousWindowPixmapLock lock)⟩
    else none
  | .discardPixmap =>
    let taken := (s.window.currentPixmap.filter WindowPixmap.isValid).toList.map fun p => ⟨.discarded, some p.serial⟩
    some ⟨s.window.discardPixmap, taken ++ s.references⟩
  | .updatePixmap source =>
    let window := s.window.updatePixmap source
    some ⟨window, if window.currentPixmap.any WindowPixmap.isValid then s.without .discarded else s.references⟩

end CrossFaded

end KWinFT.Scene
