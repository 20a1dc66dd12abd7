import KWinFT.Lib.CommandStream
import KWinFT.Lib.Runs

/-! The vertex buffer that all painting streams its vertices through. Ranges of its data store are handed out one behind the
other. The persistent buffer is a ring: its ranges are handed out again when a fence tells that the draws are done that
read them. -/
namespace KWinFT.VertexBuffer
open Lib

/-- A draw reads vertices from the data store that the buffer has at the time. -/
structure Draw where
  store : Nat
  start : Nat
  stop : Nat
deriving DecidableEq

inductive Command
  | draw (d : Draw)
  | fence
deriving DecidableEq

/-- The commands of the context, and the number of data stores that were created. -/
structure Gl where
  stream : CommandStream Command := {}
  stores : Nat := 0

def Gl.issue (gl : Gl) (c : Command) : Gl := { gl with stream := gl.stream.issue c }

/-- `glFenceSync`: the fence is known by its place. -/
def Gl.fenceSync (gl : Gl) : Nat × Gl := (gl.stream.next, gl.issue .fence)

/-- `glBufferData`, `glBufferStorage` and the invalidation of a whole buffer. A store that was there before lives on until the
draws are done that read it. -/
def Gl.createStore (gl : Gl) : Nat × Gl := (gl.stores, { gl with stores := gl.stores + 1 })

structure BufferFence where
  sync : Nat
  nextEnd : Int
deriving DecidableEq

def BufferFence.signaled (gl : Gl) (fence : BufferFence) : Bool := gl.stream.Signaled fence.sync

/-- A multiple of `bytes`, rounded up. The mask of the source is this for powers of two. -/
def align (value bytes : Nat) : Nat := (value + (bytes - 1)) / bytes * bytes

/-- The sizes of the last frames; `count` is the parameter of the template. -/
structure FrameSizesArray (count : Nat) where
  array : List Nat := List.replicate count 0
  index : Nat := 0

def FrameSizesArray.push {count : Nat} (f : FrameSizesArray count) (size : Nat) : FrameSizesArray count :=
  ⟨f.array.set f.index size, (f.index + 1) % count⟩

def FrameSizesArray.average {count : Nat} (f : FrameSizesArray count) : Nat := f.array.foldl (· + ·) 0 / count

/-- What the platform can do and how the buffer is used. -/
structure Kind where
  persistent : Bool
  hasMapBufferRange : Bool
  preferBufferSubData : Bool
  staticDraw : Bool

def Kind.mapsRanges (kind : Kind) : Bool := kind.hasMapBufferRange && !kind.preferBufferSubData

/-- `store` is the data store of the buffer object, for a persistent buffer also where its map points to. -/
structure GLVertexBuffer where
  kind : Kind
  store : Option Nat := none
  bufferSize : Nat := 0
  bufferEnd : Int := 0
  mappedSize : Nat := 0
  frameSize : Nat := 0
  nextOffset : Nat := 0
  baseAddress : Nat := 0
  fences : List BufferFence := []
  frameSizes : FrameSizesArray 4 := {}

/-- A range of a data store that the caller may write to, without any further synchronization. -/
structure Mapping where
  store : Nat
  start : Nat
  size : Nat
deriving DecidableEq

namespace GLVertexBuffer
variable (b : GLVertexBuffer) (gl : Gl)

/-- Old draws keep the old store. -/
def reallocatePersistentBuffer (size : Nat) : GLVertexBuffer × Gl :=
  let minSize := max (b.frameSizes.average * 3) (128 * 1024)
  let bufferSize := align (max size minSize) (64 * 1024)
  let (store, gl) := gl.createStore
  ({ b with store, bufferSize, fences := [], nextOffset := 0, bufferEnd := bufferSize }, gl)

/-- Fails when there is no fence to wait on. Otherwise tells if the fence was reached; `timely` is the answer of
`glClientWaitSync` where the code has to ask. -/
def awaitFence (stop : Nat) (timely : Bool) : Option (Bool × GLVertexBuffer × Gl) :=
  match b.fences.dropWhile (fun fence => fence.nextEnd < (stop : Int)) with
  | [] => none
  | fence :: fences =>
    if fence.signaled gl then some (true, { b with fences, bufferEnd := fence.nextEnd }, gl)
    else if timely then
      some (true, { b with fences, bufferEnd := fence.nextEnd }, { gl with stream := gl.stream.carryOut (fence.sync + 1) })
    else some (false, { b with fences := fence :: fences }, gl)

/-- Starts the ring anew. All offsets are of the coming round. -/
def wrapAround : GLVertexBuffer × Gl :=
  let (sync, gl) := gl.fenceSync
  let fences := b.fences.map fun fence => { fence with nextEnd := fence.nextEnd - b.bufferSize }
  ({ b with nextOffset := 0, bufferEnd := b.bufferEnd - b.bufferSize, fences := fences ++ [⟨sync, b.bufferSize⟩] }, gl)

/-- The range at the next offset, with the null pointer when the fence was not reached in time. -/
def awaitRange (size : Nat) (timely : Bool) : Option (Option Mapping × GLVertexBuffer × Gl) := do
  let (reached, b, gl) ← if b.bufferEnd < b.nextOffset + size then b.awaitFence gl (b.nextOffset + size) timely
    else some (true, b, gl)
  some (if reached then b.store.map (⟨·, b.nextOffset, size⟩) else none, b, gl)

def getIdleRange (size : Nat) (timely : Bool) : Option (Option Mapping × GLVertexBuffer × Gl) :=
  let (b, gl) := if b.bufferSize < size then b.reallocatePersistentBuffer gl (size * 2) else (b, gl)
  let (b, gl) := if b.bufferSize < b.nextOffset + size then b.wrapAround gl else (b, gl)
  b.awaitRange gl size timely

def reallocateBuffer (size : Nat) : GLVertexBuffer × Gl :=
  let alloc := if b.kind.staticDraw then size else align (max size 32768) 4096
  let (store, gl) := gl.createStore
  ({ b with store, bufferSize := alloc }, gl)

/-- Where the range starts over the buffer is invalidated, and the map not unsynchronized. -/
def mapNextFreeRange (size : Nat) : Option Mapping × GLVertexBuffer × Gl :=
  let (b, gl) :=
    if b.bufferSize < b.nextOffset + size then
      let (b, gl) :=
        if b.bufferSize < size then b.reallocateBuffer gl size
        else
          let (store, gl) := gl.createStore
          ({ b with store := some store }, gl)
      ({ b with nextOffset := 0 }, gl)
    else (b, gl)
  (b.store.map (⟨·, b.nextOffset, size⟩), b, gl)

/-- A range of the buffer, or local memory: then there is no mapping. -/
def map (size : Nat) (timely : Bool) : Option (Option Mapping × GLVertexBuffer × Gl) :=
  let b := { b with mappedSize := size, frameSize := b.frameSize + size }
  if b.kind.persistent then b.getIdleRange gl size timely
  else if b.kind.mapsRanges then some (b.mapNextFreeRange gl size)
  else some (none, b, gl)

/-- The next range starts behind this one, aligned to 16 bytes for SSE. -/
def advance : GLVertexBuffer :=
  { b with baseAddress := b.nextOffset, nextOffset := b.nextOffset + align b.mappedSize 16 }

def unmap : GLVertexBuffer × Gl :=
  let (b, gl) :=
    if b.kind.persistent || b.kind.mapsRanges then (b.advance, gl)
    else if b.kind.preferBufferSubData then
      let (b, gl) :=
        if b.bufferSize < b.nextOffset + b.mappedSize then
          let (b, gl) := b.reallocateBuffer gl b.mappedSize
          ({ b with nextOffset := 0 }, gl)
        else (b, gl)
      (b.advance, gl)
    else
      let (store, gl) := gl.createStore
      ({ b with store, baseAddress := 0 }, gl)
  ({ b with mappedSize := 0 }, gl)

/-- Draws some of the uploaded vertices. -/
def draw (first size : Nat) : Gl :=
  match b.store with
  | none => gl
  | some store => gl.issue (.draw ⟨store, b.baseAddress + first, b.baseAddress + first + size⟩)

/-- A fence after the draws of the frame, or no buffer at all if it has become too small. -/
def endOfFrame : GLVertexBuffer × Gl :=
  if !b.kind.persistent then (b, gl)
  else if b.frameSize = 0 then (b, gl)
  else
    let b := { b with frameSizes := b.frameSizes.push b.frameSize, frameSize := 0 }
    if b.bufferSize / 2 < b.frameSizes.average then
      ({ b with fences := [], store := none, bufferSize := 0, nextOffset := 0 }, gl)
    else
      let (sync, gl) := gl.fenceSync
      ({ b with fences := b.fences ++ [⟨sync, b.nextOffset + b.bufferSize⟩] }, gl)

/-- Finished fences but the last one are removed. The offset is where the writable range ends. -/
def removeFinished (gl : Gl) : List BufferFence → Int → List BufferFence × Int
  | fence :: next :: fences, bufferEnd =>
    if fence.signaled gl then removeFinished gl (next :: fences) fence.nextEnd else (fence :: next :: fences, bufferEnd)
  | fences, bufferEnd => (fences, bufferEnd)

def framePosted : GLVertexBuffer :=
  if !b.kind.persistent then b
  else
    let (fences, bufferEnd) := removeFinished gl b.fences b.bufferEnd
    { b with fences, bufferEnd }

end GLVertexBuffer

/-- `mapping` is what the last call to map returned, while the buffer is mapped. `uploaded` is the size of what was written to the
buffer last, since the last frame ended. -/
structure Painting where
  buffer : GLVertexBuffer
  gl : Gl := {}
  mapping : Option (Option Mapping) := none
  uploaded : Option Nat := none

inductive Event
  | map (size : Nat) (timely : Bool)
  | unmap
  | draw (first size : Nat)
  | endOfFrame
  | framePosted
  | progress (n : Nat)
deriving DecidableEq

/-- Fails where the code takes the front of an empty list of fences. -/
def step (s : Painting) : Event → Option Painting
  | .map size timely => do
    let (mapping, buffer, gl) ← s.buffer.map s.gl size timely
    some { buffer, gl, mapping := some mapping, uploaded := none }
  | .unmap =>
    let (buffer, gl) := s.buffer.unmap s.gl
    some { buffer, gl, mapping := none, uploaded := some s.buffer.mappedSize }
  | .draw first size => some { s with gl := s.buffer.draw s.gl first size }
  | .endOfFrame =>
    let (buffer, gl) := s.buffer.endOfFrame s.gl
    some { s with buffer, gl, uploaded := none }
  | .framePosted => some { s with buffer := s.buffer.framePosted s.gl }
  | .progress n => some { s with gl.stream := s.gl.stream.carryOut n }

/-- The callers map and unmap in turn. In between they draw only what they have just uploaded in this frame. -/
def Usage (s : Painting) : Event → Prop
  | .map .. | .endOfFrame | .framePosted => s.mapping = none
  | .unmap => s.mapping ≠ none
  | .draw first size => ∃ n, s.uploaded = some n ∧ first + size ≤ n
  | .progress _ => True

instance (s : Painting) : (e : Event) → Decidable (Usage s e)
  | .map .. | .endOfFrame | .framePosted => inferInstanceAs (Decidable (s.mapping = none))
  | .unmap => inferInstanceAs (Decidable (s.mapping ≠ none))
  | .draw first size => decidable_of_iff (s.uploaded.any (first + size ≤ ·)) (by simp [Usage, Option.any_eq_true])
  | .progress _ => inferInstanceAs (Decidable True)

end KWinFT.VertexBuffer
