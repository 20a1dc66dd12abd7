import Mathlib.Data.List.ModifyLast
import Mathlib.Data.List.Infix
import KWinFT.Lib.Runs

/-! The transfer of a selection from a Wayland source to an X window. The pipe fills chunks of a fixed
size, and the requestor drains them by deleting the property. -/
namespace KWinFT.Xwl

abbrev XWindow := Nat
abbrev Atom := Nat

def incrChunkSize : Nat := 63 * 1024

theorem incrChunkSize_pos : 0 < incrChunkSize := by decide

/-- The bytes that were read into an array of `size` bytes; what follows them is uninitialised. -/
structure Chunk where
  bytes : List UInt8
  size : Nat
deriving Repr, DecidableEq

/-- The whole array, where `none` is a byte that was never written. -/
def Chunk.value (c : Chunk) : List (Option UInt8) :=
  c.bytes.map some ++ List.replicate (c.size - c.bytes.length) none

structure SelectionRequest where
  requestor : XWindow
  property : Atom
  target : Atom
deriving Repr, DecidableEq

/-- What a transfer does to the outside, in order. -/
inductive Output
  | selectPropertyChange (select : Bool)
  | announceIncr (chunkSpace : Nat)
  | changeProperty (data : List (Option UInt8))
  | selectionNotify (success : Bool)
  | closeFd
  | finished
deriving Repr, DecidableEq

structure TransferWltoX where
  request : SelectionRequest
  fd : Bool
  socketNotifier : Bool
  incr : Bool
  chunks : List Chunk
  propertyIsSet : Bool
  flushPropertyOnDelete : Bool
deriving Repr, DecidableEq

inductive PropertyState
  | newValue
  | delete
deriving Repr, DecidableEq

structure PropertyNotify where
  window : XWindow
  atom : Atom
  state : PropertyState
deriving Repr, DecidableEq

namespace TransferWltoX

/-- A transfer after `startTransferFromSource`. -/
def start (request : SelectionRequest) : TransferWltoX := ⟨request, true, true, false, [], false, false⟩

variable (t : TransferWltoX)

def endTransfer : TransferWltoX × List Output :=
  ({ t with socketNotifier := false, fd := false }, (if t.fd then [.closeFd] else []) ++ [.finished])

/-- Writes the first chunk with all of its array. Without chunks this takes the first of an empty vector. -/
def flushSourceData : Option (TransferWltoX × List Output) :=
  match t.chunks with
  | [] => none
  | c :: chunks => some ({ t with chunks := chunks, propertyIsSet := true }, [.changeProperty c.value])

def startIncr : TransferWltoX × List Output :=
  ({ t with incr := true, flushPropertyOnDelete := true, propertyIsSet := true },
    [.selectPropertyChange true, .announceIncr (1024 + incrChunkSize), .selectionNotify true])

def isFull (c : Chunk) : Bool := c.bytes.length = incrChunkSize

/-- The chunks with one at the end that has room. -/
def appendChunk : List Chunk :=
  if t.chunks.getLast?.all isFull then t.chunks ++ [⟨[], incrChunkSize⟩] else t.chunks

/-- How much `read` may return. -/
def avail : Nat :=
  match t.appendChunk.getLast? with
  | none => 0
  | some c => incrChunkSize - c.bytes.length

/-- `readLen` bytes were read, or reading failed. -/
def readWlSource (read : Option (List UInt8)) : Option (TransferWltoX × List Output) :=
  let t := { t with chunks := t.appendChunk }
  match read with
  | none => some t.endTransfer
  | some bytes =>
    let t := { t with chunks := t.chunks.modifyLast fun c => { c with bytes := c.bytes ++ bytes } }
    if bytes = [] then
      let t := { t with chunks := t.chunks.modifyLast fun c => { c with size := c.bytes.length } }
      if t.incr then
        let t := { t with flushPropertyOnDelete := true }
        if ¬ t.propertyIsSet then
          t.flushSourceData.map fun (t, out) => ({ t with socketNotifier := false }, out)
        else some ({ t with socketNotifier := false }, [])
      else t.flushSourceData.map fun (t, out) =>
        (t.endTransfer.1, out ++ [.selectionNotify true] ++ t.endTransfer.2)
    else if t.chunks.getLast?.any isFull then
      if t.incr then
        let t := { t with flushPropertyOnDelete := true }
        if ¬ t.propertyIsSet then t.flushSourceData else some (t, [])
      else some t.startIncr
    else some (t, [])

def handlePropertyDelete : Option (TransferWltoX × List Output) :=
  if ¬ t.incr then some (t, [])
  else
    let t := { t with propertyIsSet := false }
    if t.flushPropertyOnDelete then
      if ¬ t.socketNotifier ∧ t.chunks = [] then
        let t := { t with flushPropertyOnDelete := false }
        some (t.endTransfer.1,
          [.selectPropertyChange false, .changeProperty []] ++ t.endTransfer.2)
      else t.flushSourceData
    else some (t, [])

/-- Whether the event was taken, and what became of the transfer. -/
def handlePropertyNotify (event : PropertyNotify) : Bool × Option (TransferWltoX × List Output) :=
  if event.window = t.request.requestor then
    if event.state = .delete ∧ event.atom = t.request.property then (true, t.handlePropertyDelete)
    else (true, some (t, []))
  else (false, some (t, []))

end TransferWltoX

/-- A transfer between a pipe and a requestor. `undeleted` counts the values that the requestor received
and has not deleted yet; `failed` records that a first chunk was taken where there is none. -/
structure Session where
  transfer : TransferWltoX
  remaining : List UInt8
  outputs : List Output
  undeleted : Nat
  failed : Bool
deriving Repr, DecidableEq

namespace Session

def start (request : SelectionRequest) (stream : List UInt8) : Session :=
  ⟨.start request, stream, [], 0, false⟩

def finished (s : Session) : Bool := s.outputs.contains .finished

/-- Property values set by the transfer, the announcement included. -/
def isPropertySet : Output → Bool
  | .announceIncr _ | .changeProperty _ => true
  | _ => false

/-- The values that carry data. -/
def values (outputs : List Output) : List (List (Option UInt8)) :=
  outputs.filterMap fun
    | .changeProperty data => some data
    | _ => none

/-- Takes over what a handler returned. -/
def take (s : Session) : Option (TransferWltoX × List Output) → Session
  | none => { s with failed := true }
  | some (t, out) =>
    { s with
      transfer := t
      outputs := s.outputs ++ out
      undeleted := s.undeleted + out.countP isPropertySet }

end Session

inductive SessionEvent
  | read (readLen : Nat)
  | delete
deriving Repr, DecidableEq

/-- One event. The pipe is at its end only when everything was read, and the requestor deletes the
property once after each value it received. -/
def sessionStep (s : Session) : SessionEvent → Option Session
  | .read readLen =>
    if ¬ s.failed ∧ s.transfer.socketNotifier ∧ readLen ≤ s.transfer.avail ∧
        readLen ≤ s.remaining.length ∧ (readLen = 0 → s.remaining = []) then
      some (({ s with remaining := s.remaining.drop readLen } : Session).take
        (s.transfer.readWlSource (some (s.remaining.take readLen))))
    else none
  | .delete =>
    if ¬ s.failed ∧ 0 < s.undeleted then
      let s' := { s with undeleted := s.undeleted - 1 }
      if s.finished then some s'
      else some (s'.take (s.transfer.handlePropertyNotify
        ⟨s.transfer.request.requestor, s.transfer.request.property, .delete⟩).2)
    else none

end KWinFT.Xwl
