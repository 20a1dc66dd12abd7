import KWinFT.Xwl.TransferWltoX
import KWinFT.Xwl.UrlReceivers

/-! The transfer of a selection from an X window to a Wayland client. A value of the property is written to
the pipe in as many pieces as the pipe takes, and only then the next value is asked for. -/
namespace KWinFT.Xwl

/-- The target of a conversion; three atoms are treated on their own. -/
inductive Target
  | targets
  | netscapeUrl
  | mozUrl
  | other (atom : Atom)
deriving Repr, DecidableEq

def atomNone : Atom := 0

/-- What does not change during a run: the property that receives selections, and the conversion of
UTF-16 text, which reads up to a terminator wherever that is. -/
structure Conventions where
  wlSelection : Atom
  wlSelection_ne : wlSelection ≠ atomNone
  toLatin1 : List UInt8 → List UInt8

/-- What is received. -/
def Outcome.toOption : Outcome → Option (List UInt8)
  | .received data => some data
  | .outside => none

/-- Every second line of a text is removed. A loop that ends does so before a start and a parity come back. -/
def everySecondLine (text : List UInt8) (length : Nat) : Option (List UInt8) :=
  (removeEverySecondLine length text (2 * (text.length + 2))).bind Outcome.toOption

inductive ReceiverKind
  | dataReceiver
  | netscapeUrlReceiver
  | mozUrlReceiver
deriving Repr, DecidableEq

structure DataReceiver where
  kind : ReceiverKind
  propertyReply : Bool
  propertyStart : Nat
  bytes : List UInt8
deriving Repr, DecidableEq

namespace DataReceiver
variable (env : Conventions) (r : DataReceiver)

/-- The data that a receiver makes of a value. -/
def setData (kind : ReceiverKind) (value : List UInt8) : Option (List UInt8) :=
  match kind with
  | .dataReceiver => some value
  | .netscapeUrlReceiver => everySecondLine value value.length
  | .mozUrlReceiver => everySecondLine (env.toLatin1 value) value.length

def transferFromProperty (value : List UInt8) : Option DataReceiver :=
  (setData env r.kind value).map fun bytes =>
    { r with propertyStart := 0, propertyReply := true, bytes := bytes }

def data : List UInt8 := r.bytes.drop r.propertyStart

def partRead (length : Nat) : DataReceiver :=
  let r := { r with propertyStart := r.propertyStart + length }
  if r.propertyStart = r.bytes.length then { r with propertyReply := false } else r

end DataReceiver

/-- What a transfer does to the outside, in order. -/
inductive XtoWlOutput
  | getProperty (delete : Bool)
  | write (bytes : List UInt8)
  | deleteProperty
  | closeFd
  | finished
deriving Repr, DecidableEq

structure TransferXtoWl where
  atom : Atom
  window : XWindow
  fd : Bool
  socketNotifier : Bool
  incr : Bool
  receiver : Option DataReceiver
deriving Repr, DecidableEq

/-- The value of a property, which announces an incremental transfer or has data. -/
structure PropertyValue where
  incr : Bool
  bytes : List UInt8
deriving Repr, DecidableEq

structure SelectionNotify where
  requestor : XWindow
  selection : Atom
  target : Target
  property : Atom
deriving Repr, DecidableEq

namespace TransferXtoWl
variable (env : Conventions) (t : TransferXtoWl)

def start (atom : Atom) (window : XWindow) : TransferXtoWl := ⟨atom, window, true, false, false, none⟩

def endTransfer : TransferXtoWl × List XtoWlOutput :=
  ({ t with socketNotifier := false, fd := false }, (if t.fd then [.closeFd] else []) ++ [.finished])

/-- The pipe takes what fits into its `room`; without a room, writing fails. -/
def dataSourceWrite (receiver : DataReceiver) (room : Option Nat) : TransferXtoWl × List XtoWlOutput :=
  let property := receiver.data
  match room with
  | none => t.endTransfer
  | some room =>
    let len := min room property.length
    let t := { t with receiver := some (receiver.partRead len) }
    let written := XtoWlOutput.write (property.take len)
    if len = property.length then
      if t.incr then ({ t with socketNotifier := false }, [written, .deleteProperty])
      else (t.endTransfer.1, written :: t.endTransfer.2)
    else ({ t with socketNotifier := true }, [written])

/-- `reply` is what the property holds; reading it deletes it. -/
def startTransfer (receiver : DataReceiver) (reply : Option PropertyValue) (room : Option Nat) :
    Option (TransferXtoWl × List XtoWlOutput) :=
  let t := { t with receiver := some receiver }
  match reply with
  | none => some (t.endTransfer.1, .getProperty true :: t.endTransfer.2)
  | some value =>
    if value.incr then some ({ t with incr := true }, [.getProperty true])
    else (receiver.transferFromProperty env value.bytes).map fun receiver =>
      let (t, out) := dataSourceWrite { t with incr := false } receiver room
      (t, .getProperty true :: out)

def getIncrChunk (reply : Option PropertyValue) (room : Option Nat) : Option (TransferXtoWl × List XtoWlOutput) :=
  if ¬ t.incr then some (t, [])
  else match t.receiver with
  | none => some (t, [])
  | some receiver =>
    match reply with
    | none => some (t.endTransfer.1, .getProperty false :: t.endTransfer.2)
    | some value =>
      if value.bytes.length > 0 then
        (receiver.transferFromProperty env value.bytes).map fun receiver =>
          let (t, out) := t.dataSourceWrite receiver room
          (t, .getProperty false :: out)
      else some (t.endTransfer.1, .getProperty false :: t.endTransfer.2)

/-- Whether the event was taken, and what became of the transfer. -/
def handlePropertyNotify (event : PropertyNotify) (reply : Option PropertyValue) (room : Option Nat) :
    Bool × Option (TransferXtoWl × List XtoWlOutput) :=
  if event.window = t.window then
    if event.state = .newValue ∧ event.atom = env.wlSelection then (true, t.getIncrChunk env reply room)
    else (true, some (t, []))
  else (false, some (t, []))

/-- The receiver for a target. -/
def receiverFor : Target → ReceiverKind
  | .netscapeUrl => .netscapeUrlReceiver
  | .mozUrl => .mozUrlReceiver
  | .targets | .other _ => .dataReceiver

def handleSelectionNotify (event : SelectionNotify) (reply : Option PropertyValue) (room : Option Nat) :
    Bool × Option (TransferXtoWl × List XtoWlOutput) :=
  if event.requestor ≠ t.window then (false, some (t, []))
  else if event.selection ≠ t.atom then (false, some (t, []))
  else if event.property = atomNone then (true, some (t, []))
  else if event.target = .targets then (true, some (t, []))
  else if t.receiver.isSome then (true, some (t, []))
  else (true, t.startTransfer env ⟨receiverFor event.target, false, 0, []⟩ reply room)

end TransferXtoWl
end KWinFT.Xwl
