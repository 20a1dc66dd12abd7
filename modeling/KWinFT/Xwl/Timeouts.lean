import KWinFT.Lib.ErasingLoop
import KWinFT.Lib.Runs
import Mathlib.Logic.Function.Basic

/-! The timer of a selection, which ends transfers in which nothing has happened for a while. -/
namespace KWinFT.Xwl.Timeouts

/-- The two lists of transfers, by where the data goes. -/
inductive Direction
  | xToWl
  | wlToX
deriving Repr, DecidableEq

structure Transfer where
  timestamp : Nat
  fd : Int
  notifier : Bool
  /-- `m_timeout`. -/
  timedOut : Bool
deriving Repr, DecidableEq

/-- A selection's transfers, by their addresses, and what was done with them. -/
structure Transfers where
  transfers : Direction → List Nat
  transfer : Nat → Transfer
  deleted : List Nat
  /-- `m_timeoutTransfers` is there. -/
  timer : Bool
  closed : List Int
  /-- Timestamps with which `transferFinished` was emitted. -/
  finished : List Nat
  /-- Transfers whose `timeout` was called. -/
  called : List Nat

namespace Transfers
variable (s : Transfers) (direction : Direction) (id : Nat)

def initial : Transfers := ⟨fun _ => [], fun _ => ⟨0, -1, false, false⟩, [], false, [], [], []⟩

def modify (f : Transfer → Transfer) : Transfers :=
  { s with transfer := Function.update s.transfer id (f (s.transfer id)) }

def startTimeoutTransfersTimer : Transfers := { s with timer := true }

def endTimeoutTransfersTimer : Transfers :=
  if s.transfers .xToWl = [] ∧ s.transfers .wlToX = [] then { s with timer := false } else s

/-- The handlers of `finished`. -/
def transferFinished : Transfers :=
  endTimeoutTransfersTimer
    { s with
      finished := s.finished ++ [(s.transfer id).timestamp]
      deleted := id :: s.deleted
      transfers := Function.update s.transfers direction ((s.transfers direction).erase id) }

def clearSocketNotifier : Transfers := s.modify id fun t => { t with notifier := false }

def closeFd : Transfers :=
  let fd := (s.transfer id).fd
  if fd < 0 then s else { s.modify id fun t => { t with fd := -1 } with closed := s.closed ++ [fd] }

def endTransfer : Transfers := ((s.clearSocketNotifier id).closeFd id).transferFinished direction id

/-- None for a transfer that was deleted. -/
def timeout : Option Transfers :=
  if id ∈ s.deleted then none
  else
    let s := { s with called := s.called ++ [id] }
    let s := if (s.transfer id).timedOut then s.endTransfer direction id else s
    some (s.modify id fun t => { t with timedOut := true })

def resetTimeout : Transfers := s.modify id fun t => { t with timedOut := false }

/-- A transfer to X begins with reading, so that it has a notifier. -/
def startTransfer (timestamp : Nat) (fd : Int) : Transfers :=
  startTimeoutTransfersTimer
    { s with
      transfers := Function.update s.transfers direction (s.transfers direction ++ [id])
      transfer := Function.update s.transfer id ⟨timestamp, fd, direction = .wlToX, false⟩ }

def timeoutLoop : Option Transfers :=
  Lib.forEach (fun s => s.transfers direction) (fun id s => s.timeout direction id) s

def timeoutTransfers : Option Transfers := (s.timeoutLoop .xToWl).bind fun s => s.timeoutLoop .wlToX

def running : List Nat := s.transfers .xToWl ++ s.transfers .wlToX

end Transfers

inductive TransferEvent
  | startTransfer (direction : Direction) (id : Nat) (timestamp : Nat) (fd : Int)
  | resetTimeout (id : Nat)
  | endTransfer (direction : Direction) (id : Nat)
  | timeoutTransfers
deriving Repr, DecidableEq

/-- The transfers, and those in which nothing has happened since the last run of `timeoutTransfers`, which they have
seen. -/
structure Watched where
  selection : Transfers
  idle : List Nat

namespace Watched

def initial : Watched := ⟨.initial, []⟩

/-- Transfers get new addresses, and what happens to a transfer happens while it is in its list. -/
def step (w : Watched) : TransferEvent → Option Watched
  | .startTransfer direction id timestamp fd =>
    if id ∈ w.selection.running ∨ id ∈ w.selection.deleted then none
    else some ⟨w.selection.startTransfer direction id timestamp fd, w.idle⟩
  | .resetTimeout id =>
    if id ∈ w.selection.running then some ⟨w.selection.resetTimeout id, w.idle.filter (· ≠ id)⟩ else none
  | .endTransfer direction id =>
    if id ∈ w.selection.transfers direction then some ⟨w.selection.endTransfer direction id, w.idle⟩ else none
  | .timeoutTransfers =>
    if w.selection.timer then w.selection.timeoutTransfers.map fun s => ⟨s, w.selection.running⟩ else none

end Watched

end KWinFT.Xwl.Timeouts
