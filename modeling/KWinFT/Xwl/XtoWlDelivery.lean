import Mathlib.Data.List.Forall2
import KWinFT.Xwl.TransferXtoWl

/-! What a Wayland client receives from an X source that keeps to the protocol. -/
namespace KWinFT.Xwl

/-- What a source does on a conversion: one value, or an announcement (with its lower bound) and then
values that end with an empty one. -/
inductive Offer
  | single (value : List UInt8)
  | incremental (bound : List UInt8) (chunks : List (List UInt8))

namespace Offer

def values : Offer → List (List UInt8)
  | single value => [value]
  | incremental _ chunks => chunks

/-- Only the closing value of an incremental transfer is empty. -/
def Conforming : Offer → Prop
  | single _ => True
  | incremental _ chunks => ∀ c ∈ chunks, c ≠ []

end Offer

inductive Notification
  | newValue
  | selectionNotify
deriving Repr, DecidableEq

/-- A transfer, the property of its window, the values that the source has not set yet, and the
notifications that were not handled yet. -/
structure XtoWlSession where
  transfer : TransferXtoWl
  property : Option PropertyValue
  toSend : List (List UInt8)
  queue : List Notification
  outputs : List XtoWlOutput
deriving Repr, DecidableEq

namespace XtoWlSession

/-- The source answered the conversion. -/
def start (atom : Atom) (window : XWindow) : Offer → XtoWlSession
  | .single value =>
    ⟨.start atom window, some ⟨false, value⟩, [], [.newValue, .selectionNotify], []⟩
  | .incremental bound chunks =>
    ⟨.start atom window, some ⟨true, bound⟩, chunks ++ [[]], [.newValue, .selectionNotify], []⟩

def finished (s : XtoWlSession) : Bool := s.outputs.contains .finished

/-- The outputs that delete the property on the X server. -/
def deletesProperty : XtoWlOutput → Bool
  | .getProperty delete => delete
  | .deleteProperty => true
  | _ => false

def written (outputs : List XtoWlOutput) : List UInt8 :=
  outputs.flatMap fun
    | .write bytes => bytes
    | _ => []

def take (s : XtoWlSession) (r : TransferXtoWl × List XtoWlOutput) : XtoWlSession :=
  { s with
    transfer := r.1
    property := if r.2.any deletesProperty then none else s.property
    outputs := s.outputs ++ r.2 }

@[simp] theorem take_outputs (s : XtoWlSession) (r : TransferXtoWl × List XtoWlOutput) :
    (s.take r).outputs = s.outputs ++ r.2 := rfl

@[simp] theorem take_property (s : XtoWlSession) (r : TransferXtoWl × List XtoWlOutput) :
    (s.take r).property = if r.2.any deletesProperty then none else s.property := rfl

@[simp] theorem written_nil : written [] = [] := rfl

@[simp] theorem written_cons (o : XtoWlOutput) (l : List XtoWlOutput) :
    written (o :: l) = (match o with | .write bytes => bytes | _ => []) ++ written l := rfl

@[simp] theorem written_append (o o' : List XtoWlOutput) : written (o ++ o') = written o ++ written o' := by
  simp [written]

end XtoWlSession

/-- The next notification is handled, the pipe takes more, or the source sets its next value. -/
inductive XtoWlEvent
  | handle (room : Nat)
  | writable (room : Nat)
  | set
deriving Repr, DecidableEq

/-- One event. A transfer that is over is gone, and the source sets a value only after the last one was
deleted. -/
def xToWlStep (env : Conventions) (target : Target) (s : XtoWlSession) : XtoWlEvent → Option XtoWlSession
  | .handle room =>
    match s.queue with
    | [] => none
    | n :: queue =>
      let s' := { s with queue := queue }
      if s.finished then some s'
      else match n with
        | .newValue =>
          (s.transfer.handlePropertyNotify env ⟨s.transfer.window, env.wlSelection, .newValue⟩ s.property
            (some room)).2.map s'.take
        | .selectionNotify =>
          (s.transfer.handleSelectionNotify env ⟨s.transfer.window, s.transfer.atom, target, env.wlSelection⟩
            s.property (some room)).2.map s'.take
  | .writable room =>
    if s.transfer.socketNotifier then
      s.transfer.receiver.map fun receiver => s.take (s.transfer.dataSourceWrite receiver (some room))
    else none
  | .set =>
    match s.property, s.toSend with
    | none, value :: toSend =>
      some { s with
        property := some ⟨false, value⟩
        toSend := toSend
        queue := s.queue ++ [.newValue] }
    | _, _ => none

/-- The bytes arrive in order and all of them, the pipe is closed once and then, and until then there is
something to wait for. -/
structure DeliversXtoWl (expected : List UInt8) (s : XtoWlSession) : Prop where
  written_sofar : XtoWlSession.written s.outputs <+: expected
  written_all : s.finished → XtoWlSession.written s.outputs = expected
  closed : s.finished → ∃ before, s.outputs = before ++ [.closeFd, .finished] ∧ .closeFd ∉ before
  opened : ¬ s.finished → .closeFd ∉ s.outputs
  alive : ¬ s.finished → s.queue ≠ [] ∨ s.transfer.socketNotifier ∨ (s.property = none ∧ s.toSend ≠ [])

/-- What the receiver of a kind makes of the values. -/
def Converts (env : Conventions) (kind : ReceiverKind) (values outs : List (List UInt8)) : Prop :=
  List.Forall₂ (fun v w => DataReceiver.setData env kind v = some w) values outs

section delivery
open XtoWlSession
variable {env : Conventions} {kind : ReceiverKind} {expected : List UInt8} {s s' : XtoWlSession}
  {r : DataReceiver} {ws : List (List UInt8)}

/-- The values that are still to come, as the client will see them. -/
def ToCome (env : Conventions) (kind : ReceiverKind) (incr : Bool) (toSend ws : List (List UInt8)) : Prop :=
  if incr then ∃ cs, toSend = cs ++ [[]] ∧ (∀ c ∈ cs, c ≠ []) ∧ Converts env kind cs ws
  else toSend = [] ∧ ws = []

/-- A transfer that has its receiver and is not over. -/
structure Running (kind : ReceiverKind) (s : XtoWlSession) (r : DataReceiver) : Prop where
  fd : s.transfer.fd = true
  receiver : s.transfer.receiver = some r
  kind_eq : r.kind = kind
  opened : .closeFd ∉ s.outputs
  unfinished : .finished ∉ s.outputs

/-- Before the notification of the selection; between two values; with a value that was set and not yet
read; with a value that is being written; and after the end. -/
inductive Stage (env : Conventions) (kind : ReceiverKind) (expected : List UInt8) (s : XtoWlSession) : Prop
  | asked (value : PropertyValue) (ws : List (List UInt8)) (transfer : s.transfer.fd = true)
      (notifier : s.transfer.socketNotifier = false) (incr : s.transfer.incr = false)
      (receiver : s.transfer.receiver = none) (outputs : s.outputs = [])
      (queue : s.queue = [.newValue, .selectionNotify] ∨ s.queue = [.selectionNotify])
      (property : s.property = some value)
      (offer : if value.incr then ToCome env kind true s.toSend ws ∧ ws.flatten = expected
        else s.toSend = [] ∧ DataReceiver.setData env kind value.bytes = some expected)
  | waiting (r : DataReceiver) (ws : List (List UInt8)) (running : Running kind s r)
      (notifier : s.transfer.socketNotifier = false) (incr : s.transfer.incr = true) (property : s.property = none)
      (queue : s.queue = []) (toCome : ToCome env kind true s.toSend ws)
      (sofar : written s.outputs ++ ws.flatten = expected)
  | offered (r : DataReceiver) (value : List UInt8) (ws : List (List UInt8)) (running : Running kind s r)
      (notifier : s.transfer.socketNotifier = false) (incr : s.transfer.incr = true)
      (property : s.property = some ⟨false, value⟩) (queue : s.queue = [.newValue])
      (toCome : ToCome env kind true (value :: s.toSend) ws)
      (sofar : written s.outputs ++ ws.flatten = expected)
  | writing (r : DataReceiver) (ws : List (List UInt8)) (running : Running kind s r)
      (notifier : s.transfer.socketNotifier = true) (queue : s.queue = [])
      (toCome : ToCome env kind s.transfer.incr s.toSend ws)
      (property : s.transfer.incr = true → s.property ≠ none)
      (sofar : written s.outputs ++ (r.data ++ ws.flatten) = expected)
  | ended (notifier : s.transfer.socketNotifier = false)
      (outputs : ∃ before, s.outputs = before ++ [.closeFd, .finished] ∧ .closeFd ∉ before)
      (all : written s.outputs = expected)

theorem Stage.delivers (h : Stage env kind expected s) : DeliversXtoWl expected s := by
  have hopen : .finished ∉ s.outputs → ¬ s.finished := fun hf => by simpa [finished] using hf
  cases h with
  | asked value ws transfer notifier incr receiver outputs queue property offer =>
    have hfin := hopen (by simp [outputs])
    refine ⟨by simp [outputs, written], fun hf => absurd hf hfin, fun hf => absurd hf hfin,
      fun _ => by simp [outputs], fun _ => .inl ?_⟩
    rcases queue with hq | hq <;> simp [hq]
  | waiting r ws running notifier incr property queue toCome sofar =>
    have hfin := hopen running.unfinished
    refine ⟨sofar ▸ List.prefix_append _ _, fun hf => absurd hf hfin, fun hf => absurd hf hfin,
      fun _ => running.opened, fun _ => .inr (.inr ⟨property, ?_⟩)⟩
    obtain ⟨cs, hcs, -⟩ := toCome
    simp [hcs]
  | offered r value ws running notifier incr property queue toCome sofar =>
    have hfin := hopen running.unfinished
    exact ⟨sofar ▸ List.prefix_append _ _, fun hf => absurd hf hfin, fun hf => absurd hf hfin,
      fun _ => running.opened, fun _ => .inl (by simp [queue])⟩
  | writing r ws running notifier queue toCome property sofar =>
    have hfin := hopen running.unfinished
    exact ⟨sofar ▸ List.prefix_append _ _, fun hf => absurd hf hfin, fun hf => absurd hf hfin,
      fun _ => running.opened, fun _ => .inr (.inl notifier)⟩
  | ended notifier outputs all =>
    have hfin : s.finished := by
      obtain ⟨before, ho, -⟩ := outputs
      simp [finished, ho]
    exact ⟨all ▸ List.prefix_rfl, fun _ => all, fun _ => outputs, fun hf => absurd hfin hf, fun hf => absurd hfin hf⟩

/-- Writing a value: all of the rest fits, or some of it. -/
private theorem dataSourceWrite_cases (t : TransferXtoWl) (r : DataReceiver) (room : Nat) (hfd : t.fd = true) :
    (∃ r', r'.kind = r.kind ∧ t.incr = true ∧ t.dataSourceWrite r (some room) =
      ({ t with receiver := some r', socketNotifier := false }, [.write r.data, .deleteProperty])) ∨
    (t.incr = false ∧ ∃ t', t'.socketNotifier = false ∧
      t.dataSourceWrite r (some room) = (t', [.write r.data, .closeFd, .finished])) ∨
    ∃ r', r'.kind = r.kind ∧ t.dataSourceWrite r (some room) =
      ({ t with receiver := some r', socketNotifier := true }, [.write (r.data.take room)]) ∧
      r.data.take room ++ r'.data = r.data := by
  have hkind : ∀ n, (r.partRead n).kind = r.kind := by
    intro n
    unfold DataReceiver.partRead
    dsimp only
    split <;> rfl
  have hdata : ∀ n, (r.partRead n).data = r.data.drop n := by
    intro n
    unfold DataReceiver.partRead
    dsimp only
    split <;> simp [DataReceiver.data, Nat.add_comm]
  rcases Nat.lt_or_ge room r.data.length with hlt | hge
  · refine .inr (.inr ⟨r.partRead room, hkind room, ?_, ?_⟩)
    · rw [TransferXtoWl.dataSourceWrite]
      simp only [Nat.min_eq_left (Nat.le_of_lt hlt), if_neg (Nat.ne_of_lt hlt)]
    · rw [hdata, List.take_append_drop]
  · cases hincr : t.incr with
    | true =>
      refine .inl ⟨r.partRead r.data.length, hkind _, rfl, ?_⟩
      simp [TransferXtoWl.dataSourceWrite, Nat.min_eq_right hge, hincr]
    | false =>
      refine .inr (.inl ⟨rfl, { t with
        receiver := some (r.partRead r.data.length)
        socketNotifier := false
        fd := false }, rfl, ?_⟩)
      simp [TransferXtoWl.dataSourceWrite, Nat.min_eq_right hge, hincr, TransferXtoWl.endTransfer, hfd]

/-- A value is written, after `before` was done to read it: its rest, if any, is left to the notifier. -/
private theorem Stage.write (t : TransferXtoWl) (before : List XtoWlOutput) {room : Nat}
    (hs : s.take ((t.dataSourceWrite r (some room)).1, before ++ (t.dataSourceWrite r (some room)).2) = s')
    (hfd : t.fd = true) (hkind : r.kind = kind) (hopen : .closeFd ∉ s.outputs) (hfin : .finished ∉ s.outputs)
    (hbefore : ∃ delete, before = [] ∨ before = [.getProperty delete] ∧ (t.incr = true → delete = false))
    (hqueue : s.queue = []) (hcome : ToCome env kind t.incr s.toSend ws)
    (hproperty : t.incr = true → s.property ≠ none)
    (hsofar : written s.outputs ++ (r.data ++ ws.flatten) = expected) : Stage env kind expected s' := by
  obtain ⟨delete, hbefore⟩ := hbefore
  have hb : written before = [] ∧ .closeFd ∉ before ∧ .finished ∉ before ∧
      (t.incr = true → before.any deletesProperty = false) := by
    rcases hbefore with rfl | ⟨rfl, hd⟩
    · simp [written]
    · exact ⟨rfl, by simp, by simp, fun hi => by simp [deletesProperty, hd hi]⟩
  obtain ⟨hbw, hbc, hbf, hbd⟩ := hb
  rcases dataSourceWrite_cases t r room hfd with ⟨r', hk, hincr, he⟩ | ⟨hincr, t', hn, he⟩ | ⟨r', hk, he, hrest⟩
  · rw [he] at hs
    subst hs
    refine .waiting r' ws ⟨hfd, rfl, hk.trans hkind, ?_, ?_⟩ rfl hincr ?_ hqueue (hincr ▸ hcome) ?_
    · simp [hopen, hbc]
    · simp [hfin, hbf]
    · simp [deletesProperty]
    · rw [← hsofar]
      simp [hbw]
  · rw [he] at hs
    subst hs
    have hws : ws = [] := by
      rw [hincr] at hcome
      exact hcome.2
    refine .ended hn ⟨s.outputs ++ (before ++ [.write r.data]), by simp, by simp [hopen, hbc]⟩ ?_
    rw [← hsofar, hws]
    simp [hbw]
  · rw [he] at hs
    subst hs
    refine .writing r' ws ⟨hfd, rfl, hk.trans hkind, ?_, ?_⟩ rfl hqueue hcome ?_ ?_
    · simp [hopen, hbc]
    · simp [hfin, hbf]
    · intro hi
      have hd := hbd hi
      simpa [hd, deletesProperty] using hproperty hi
    · have hsplit : r.data ++ ws.flatten = r.data.take room ++ (r'.data ++ ws.flatten) := by
        rw [← List.append_assoc, hrest]
      rw [← hsofar, hsplit]
      simp [hbw]

/-- The notification of the selection starts the transfer. -/
private theorem Stage.asked_handle {target : Target} {value : PropertyValue} {room : Nat}
    (htarget : target ≠ .targets) (hkind : TransferXtoWl.receiverFor target = kind) (hfd : s.transfer.fd = true)
    (hnotifier : s.transfer.socketNotifier = false) (hreceiver : s.transfer.receiver = none)
    (houtputs : s.outputs = []) (hqueue : s.queue = []) (hproperty : s.property = some value)
    (hoffer : if value.incr then ToCome env kind true s.toSend ws ∧ ws.flatten = expected
      else s.toSend = [] ∧ DataReceiver.setData env kind value.bytes = some expected)
    (hs : (s.transfer.handleSelectionNotify env ⟨s.transfer.window, s.transfer.atom, target, env.wlSelection⟩
      s.property (some room)).2.map s.take = some s') : Stage env kind expected s' := by
  simp only [TransferXtoWl.handleSelectionNotify, ne_eq, not_true_eq_false, if_false, if_neg env.wlSelection_ne,
    if_neg htarget, hreceiver, Option.isSome_none, Bool.false_eq_true, TransferXtoWl.startTransfer, hproperty,
    hkind] at hs
  split at hs
  · rename_i hincr
    rw [if_pos hincr] at hoffer
    cases hs
    refine .waiting ⟨kind, false, 0, []⟩ ws ⟨hfd, rfl, rfl, ?_, ?_⟩ hnotifier rfl rfl hqueue hoffer.1 ?_
    · simp [houtputs]
    · simp [houtputs]
    · simpa [houtputs, written] using hoffer.2
  · rename_i hincr
    rw [if_neg hincr] at hoffer
    obtain ⟨htoSend, hset⟩ := hoffer
    simp only [DataReceiver.transferFromProperty, hset, Option.map_some] at hs
    have hcome : ToCome env kind false s.toSend [] := ⟨htoSend, rfl⟩
    refine Stage.write { s.transfer with receiver := some ⟨kind, false, 0, []⟩, incr := false }
      [.getProperty true] (Option.some.inj hs) hfd rfl (by simp [houtputs]) (by simp [houtputs])
      ⟨true, .inr ⟨rfl, fun h => by cases h⟩⟩ hqueue hcome (fun h => by cases h) ?_
    simp [houtputs, written, DataReceiver.data]

/-- A new value is written, or ends the transfer if it is empty. -/
private theorem Stage.offered_handle {value : List UInt8} {room : Nat} (running : Running kind s r)
    (hincr : s.transfer.incr = true) (hproperty : s.property = some ⟨false, value⟩) (hqueue : s.queue = [])
    (hcome : ToCome env kind true (value :: s.toSend) ws) (hsofar : written s.outputs ++ ws.flatten = expected)
    (hs : (s.transfer.handlePropertyNotify env ⟨s.transfer.window, env.wlSelection, .newValue⟩ s.property
      (some room)).2.map s.take = some s') : Stage env kind expected s' := by
  simp only [TransferXtoWl.handlePropertyNotify, and_self, if_true, TransferXtoWl.getIncrChunk, hincr,
    not_true_eq_false, if_false, running.receiver, hproperty] at hs
  obtain ⟨cs, hcs, hne, hconv⟩ := hcome
  cases cs with
  | nil =>
    -- The empty value that closes the transfer.
    obtain ⟨rfl, -⟩ := List.cons.inj hcs
    cases hconv
    simp only [List.length_nil, gt_iff_lt, Nat.lt_irrefl, if_false, Option.map_some,
      TransferXtoWl.endTransfer, running.fd, if_true] at hs
    obtain rfl := Option.some.inj hs
    refine .ended rfl ⟨s.outputs ++ [.getProperty false], by simp, by simp [running.opened]⟩ ?_
    simpa using hsofar
  | cons c cs =>
    obtain ⟨rfl, hrest⟩ := List.cons.inj hcs
    cases hconv with
    | cons hset hconv =>
      have hpos : value.length > 0 := List.length_pos_iff.mpr (hne value List.mem_cons_self)
      simp only [hpos, if_true, DataReceiver.transferFromProperty, running.kind_eq, hset, Option.map_some] at hs
      have hcome : ToCome env kind true s.toSend _ :=
        ⟨cs, hrest, fun c hc => hne c (List.mem_cons_of_mem value hc), hconv⟩
      refine Stage.write s.transfer [.getProperty false] (Option.some.inj hs) running.fd rfl
        running.opened running.unfinished ⟨false, .inr ⟨rfl, fun _ => rfl⟩⟩ hqueue (hincr ▸ hcome)
        (fun _ => by simp [hproperty]) ?_
      simpa [DataReceiver.data] using hsofar

theorem Stage.step {target : Target} (htarget : target ≠ .targets) (hkind : TransferXtoWl.receiverFor target = kind)
    (h : Stage env kind expected s) {e : XtoWlEvent} (hs : xToWlStep env target s e = some s') :
    Stage env kind expected s' := by
  have hopen : .finished ∉ s.outputs → s.finished = false := fun hf => by simpa [finished] using hf
  cases h with
  | asked value ws transfer notifier incr receiver outputs queue property offer =>
    have hfin := hopen (by simp [outputs])
    cases e with
    | handle room =>
      rcases queue with hq | hq
      · -- The announcement or the value itself is not taken for a chunk.
        simp [xToWlStep, hq, hfin, TransferXtoWl.handlePropertyNotify, TransferXtoWl.getIncrChunk, incr] at hs
        subst hs
        exact .asked value ws transfer notifier incr receiver (by simp [outputs]) (.inr rfl) (by simp [property])
          offer
      · simp only [xToWlStep, hq, hfin, Bool.false_eq_true, if_false] at hs
        exact Stage.asked_handle (s := { s with queue := [] }) htarget hkind transfer notifier receiver outputs rfl
          property offer hs
    | writable room => simp [xToWlStep, notifier] at hs
    | set => simp [xToWlStep, property] at hs
  | waiting r ws running notifier incr property queue toCome sofar =>
    cases e with
    | handle room => simp [xToWlStep, queue] at hs
    | writable room => simp [xToWlStep, notifier] at hs
    | set =>
      obtain ⟨value, toSend, hv⟩ : ∃ value toSend, s.toSend = value :: toSend := by
        obtain ⟨cs, hcs, -⟩ := toCome
        exact List.exists_cons_of_ne_nil (by simp [hcs])
      simp only [xToWlStep, property, hv, queue] at hs
      obtain rfl := Option.some.inj hs
      exact .offered r value ws ⟨running.fd, running.receiver, running.kind_eq, running.opened, running.unfinished⟩
        notifier incr rfl rfl (hv ▸ toCome) sofar
  | offered r value ws running notifier incr property queue toCome sofar =>
    have hfin := hopen running.unfinished
    cases e with
    | handle room =>
      simp only [xToWlStep, queue, hfin, Bool.false_eq_true, if_false] at hs
      exact Stage.offered_handle (s := { s with queue := [] })
        ⟨running.fd, running.receiver, running.kind_eq, running.opened, running.unfinished⟩ incr property rfl toCome
        sofar hs
    | writable room => simp [xToWlStep, notifier] at hs
    | set => simp [xToWlStep, property] at hs
  | writing r ws running notifier queue toCome property sofar =>
    cases e with
    | handle room => simp [xToWlStep, queue] at hs
    | writable room =>
      simp only [xToWlStep, notifier, if_true, running.receiver, Option.map_some] at hs
      exact Stage.write s.transfer [] (Option.some.inj hs) running.fd running.kind_eq running.opened
        running.unfinished ⟨false, .inl rfl⟩ queue toCome property sofar
    | set =>
      cases hincr : s.transfer.incr with
      | false =>
        rw [hincr] at toCome
        simp [xToWlStep, toCome.1] at hs
      | true =>
        obtain ⟨v, hv⟩ := Option.ne_none_iff_exists'.mp (property hincr)
        simp [xToWlStep, hv] at hs
  | ended notifier outputs all =>
    have hfin : s.finished = true := by
      obtain ⟨before, ho, -⟩ := outputs
      simp [finished, ho]
    cases e with
    | handle room =>
      cases hq : s.queue with
      | nil => simp [xToWlStep, hq] at hs
      | cons n queue =>
        simp only [xToWlStep, hq, hfin, if_true] at hs
        obtain rfl := Option.some.inj hs
        exact .ended notifier outputs all
    | writable room => simp [xToWlStep, notifier] at hs
    | set =>
      simp only [xToWlStep] at hs
      split at hs
      · obtain rfl := Option.some.inj hs
        exact .ended notifier outputs all
      · cases hs

end delivery

/-- A source that keeps to the protocol has its values delivered in order, each as the receiver of the target
makes it; for all but the two URL formats these are the values themselves. -/
theorem xToWl_delivers (env : Conventions) (atom : Atom) (window : XWindow) {target : Target}
    (htarget : target ≠ .targets) {offer : Offer} (hoffer : offer.Conforming) {outs : List (List UInt8)}
    (houts : Converts env (TransferXtoWl.receiverFor target) offer.values outs) {s : XtoWlSession}
    (h : Lib.Reachable (xToWlStep env target) Lib.anyStep (.start atom window offer) s) :
    DeliversXtoWl outs.flatten s ∧ (target ≠ .netscapeUrl → target ≠ .mozUrl → outs = offer.values) := by
  have hstart : Stage env (TransferXtoWl.receiverFor target) outs.flatten (.start atom window offer) := by
    cases offer with
    | single value =>
      cases houts with
      | cons hset hnil =>
        cases hnil
        exact .asked ⟨false, value⟩ [] rfl rfl rfl rfl rfl (.inl rfl) rfl ⟨rfl, by simpa using hset⟩
    | incremental bound chunks =>
      exact .asked ⟨true, bound⟩ outs rfl rfl rfl rfl rfl (.inl rfl) rfl ⟨⟨chunks, rfl, hoffer, houts⟩, rfl⟩
  refine ⟨(h.invariant (Stage env (TransferXtoWl.receiverFor target) outs.flatten) hstart
    fun _ _ _ hst _ hs => hst.step htarget rfl hs).delivers, fun hn hm => ?_⟩
  have hplain : TransferXtoWl.receiverFor target = .dataReceiver := by
    cases target <;> simp_all [TransferXtoWl.receiverFor]
  rw [Converts, hplain] at houts
  have heq : List.Forall₂ Eq offer.values outs := houts.imp fun v w hvw => Option.some.inj hvw
  rw [List.forall₂_eq_eq_eq] at heq
  exact heq.symm

/-- Conventions under which UTF-16 text reads as the bytes it starts with. -/
def identityConventions : Conventions := ⟨1, Nat.one_ne_zero, id⟩

private def chunkedOffer : Offer := .incremental [3] [[1, 2], [3]]

/-- The first chunk takes two writes, and the second is read only after that. -/
private def chunkedRun : List XtoWlEvent :=
  [.handle 0, .handle 0, .set, .handle 1, .writable 0, .writable 4, .set, .handle 4, .set, .handle 4]

theorem chunkedOffer_delivered :
    ∃ s, Lib.Reachable (xToWlStep identityConventions (.other 5)) Lib.anyStep (.start 2 7 chunkedOffer) s ∧
      s.finished ∧ DeliversXtoWl [1, 2, 3] s := by
  have hconforming : chunkedOffer.Conforming := by
    intro c hc
    rcases List.mem_pair.mp hc with rfl | rfl <;> decide
  have hconverts : Converts identityConventions (TransferXtoWl.receiverFor (.other 5)) chunkedOffer.values
      [[1, 2], [3]] := .cons rfl (.cons rfl .nil)
  obtain ⟨s, hs, hfin⟩ : ∃ s, Lib.Reachable (xToWlStep identityConventions (.other 5)) Lib.anyStep
      (.start 2 7 chunkedOffer) s ∧ s.finished := ⟨_, Lib.Reachable.init.execute chunkedRun rfl, rfl⟩
  exact ⟨s, hs, hfin,
    (xToWl_delivers identityConventions 2 7 (fun h => by cases h) hconforming hconverts hs).1⟩

/-- A URL and its title: the title is not written. -/
theorem title_not_delivered :
    ∃ s, Lib.Reachable (xToWlStep identityConventions .netscapeUrl) Lib.anyStep
      (.start 2 7 (.single [117, 10, 116])) s ∧ s.finished ∧ ¬ DeliversXtoWl [117, 10, 116] s := by
  refine ⟨_, Lib.Reachable.init.execute [.handle 4, .handle 4] rfl, rfl, fun h => ?_⟩
  have hall := h.written_all rfl
  revert hall
  decide

end KWinFT.Xwl
