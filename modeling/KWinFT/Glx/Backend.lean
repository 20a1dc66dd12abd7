import KWinFT.Scene.PaintScreen

/-! The GLX backend with buffer age. The driver hands back any buffer after a swap and tells how many swaps ago it was
presented; what is out of date in it is known from the damage of the frames since then. The screen keeps its size. -/
namespace KWinFT.Glx
open Scene
variable {α β C : Type*}

/-- The driver's choice of the next back buffer, with its contents if they are undefined. -/
structure Handover (β C : Type*) where
  buffer : β
  undefined : Option (Pixel → C)

/-- The buffers of the drawable. For a buffer with defined contents `presented` has the swap that showed it last. -/
structure SwapChain (β C : Type*) where
  contents : β → Pixel → C
  presented : β → Option Nat
  swaps : Nat
  back : β
  front : Option (Pixel → C)

namespace SwapChain
variable [DecidableEq β] (c : SwapChain β C)

def draw (screen : Pixel → C) : SwapChain β C := { c with contents := Function.update c.contents c.back screen }

/-- `glXSwapBuffers`. -/
def swapBuffers (next : Handover β C) : SwapChain β C :=
  let presented := Function.update c.presented c.back (some (c.swaps + 1))
  let shown := { c with presented, swaps := c.swaps + 1, back := next.buffer, front := some (c.contents c.back) }
  match next.undefined with
  | none => shown
  | some garbage =>
    { shown with
      contents := Function.update c.contents next.buffer garbage
      presented := Function.update presented next.buffer none }

/-- `GLX_BACK_BUFFER_AGE_EXT`: the swaps since the back buffer was presented, that one included. -/
def backBufferAge : Nat :=
  match c.presented c.back with
  | none => 0
  | some swap => c.swaps - swap + 1

end SwapChain

structure GlxBackend where
  lastDamage : Region
  damageHistory : List Region
  bufferAge : Nat

namespace GlxBackend
variable (b : GlxBackend)

def initial : GlxBackend := ⟨∅, [], 0⟩

def addToDamageHistory (region : Region) : GlxBackend :=
  let history := if b.damageHistory.length > 10 then b.damageHistory.dropLast else b.damageHistory
  { b with damageHistory := region :: history }

/-- All of the display is out of date when the contents are undefined or too old. -/
def accumulatedDamageHistory (displayRegion : Region) (bufferAge : Nat) : Region :=
  if 0 < bufferAge ∧ bufferAge ≤ b.damageHistory.length then (b.damageHistory.take (bufferAge - 1)).foldl (· ∪ ·) ∅
  else displayRegion

def prepareRenderingFrame (displayRegion : Region) : Region := b.accumulatedDamageHistory displayRegion b.bufferAge

end GlxBackend

/-- What is passed to `SceneOpenGL::paint`, or read by it, and the driver's answer if the frame is swapped. -/
structure Input (α β C : Type*) where
  frame : Frame α
  transformed : Bool
  contents : Frame.Contents α C
  next : Handover β C

/-- The backend and its buffers; `picture` is what the last frame should show. -/
structure State (β C : Type*) where
  backend : GlxBackend
  chain : SwapChain β C
  picture : Pixel → C

namespace State
variable [DecidableEq β] (s : State β C)

def initial (contents : β → Pixel → C) (back : β) (picture : Pixel → C) : State β C :=
  ⟨.initial, ⟨contents, fun _ => none, 0, back, none⟩, picture⟩

/-- With buffer age all buffers can be swapped. -/
def present (next : Handover β C) : State β C :=
  if s.backend.lastDamage = ∅ then s
  else
    let chain := s.chain.swapBuffers next
    { s with chain, backend := { s.backend with bufferAge := chain.backBufferAge, lastDamage := ∅ } }

/-- The back buffer is not posted if nothing is damaged; it is as the front buffer then. -/
def endRenderingFrame (renderedRegion damagedRegion : Region) (next : Handover β C) : State β C :=
  if damagedRegion = ∅ then { s with backend := { s.backend with lastDamage := ∅, bufferAge := 1 } }
  else
    let s := { s with backend := { s.backend with lastDamage := renderedRegion } }.present next
    { s with backend := s.backend.addToDamageHistory damagedRegion }

/-- The frame with the region to repair in the back buffer. -/
def frame (input : Input α β C) : Frame α :=
  { input.frame with repaintRegion := s.backend.prepareRenderingFrame input.frame.displayRegion }

def rendered (input : Input α β C) : Frame.Rendered C :=
  (s.frame input).paintScreen input.transformed input.contents (s.chain.contents s.chain.back)

def paint (input : Input α β C) : State β C :=
  let rendered := s.rendered input
  { s with chain := s.chain.draw rendered.screen, picture := input.frame.picture input.contents }.endRenderingFrame
    rendered.validRegion rendered.updateRegion input.next

/-- Flushes pending paints. -/
def idle (next : Handover β C) : State β C := if s.backend.lastDamage ≠ ∅ then s.present next else s

end State

inductive Event (α β C : Type*)
  | paint (input : Input α β C)
  | idle (next : Handover β C)

def step [DecidableEq β] (s : State β C) : Event α β C → Option (State β C)
  | .paint input => some (s.paint input)
  | .idle next => some (s.idle next)

end KWinFT.Glx
