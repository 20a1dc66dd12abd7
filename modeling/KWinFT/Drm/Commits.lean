import KWinFT.Drm.Backend
import KWinFT.Lib.Total
import Mathlib.Data.Finset.Option

/-! What commits do to an output. Either no picture is handed over, and the buffer on the screen is the only one, or one is, and
the one before it is kept until then. -/
namespace KWinFT.Drm
open Lib

namespace DrmOutput
variable {x : DrmOutput} {b : BufferId} {test real : Reply}

/-- The buffer on the screen is the only one. -/
structure Shows (x : DrmOutput) : Prop where
  next : x.primaryPlane.next = none
  buffers : x.buffers = x.primaryPlane.current.toFinset
  queued : x.device.queued = none
  flipEvents : x.device.flipEvents = 0
  framebuffer : x.device.framebuffer = x.primaryPlane.current

/-- All pictures that were handed over are shown. -/
structure Rests (x : DrmOutput) : Prop extends Shows x where
  pageFlipPending : x.pageFlipPending = false
  nextPlanesFlipList : x.nextPlanesFlipList = 0

/-- The buffer is handed over. It is to be shown, or it is shown and the event is to be read. -/
structure Flies (x : DrmOutput) (b : BufferId) : Prop where
  pageFlipPending : x.pageFlipPending = true
  next : x.primaryPlane.next = some b
  nextPlanesFlipList : x.nextPlanesFlipList = 1
  current : x.primaryPlane.current ≠ some b
  buffers : x.buffers = insert b x.primaryPlane.current.toFinset
  device : (x.device.queued = some b ∧ x.device.flipEvents = 0 ∧ x.device.framebuffer = x.primaryPlane.current) ∨
    (x.device.queued = none ∧ x.device.flipEvents = 1 ∧ x.device.framebuffer = some b)
  dpms : x.dpms = .on

/-- The device shows the mode and rotation of the last working state, and without a request of a new mode these are the
output's own. -/
structure Working (x : DrmOutput) : Prop where
  shown : ∀ w, x.lastWorkingState = some w → ∀ m, x.device.mode = some m →
    m = w.mode ∧ x.device.rotation = w.planeTransformations
  kept : x.modesetRequested = false → x.dpms = .on → ∃ w, x.lastWorkingState = some w ∧ x.device.mode = some w.mode ∧
    x.mode = w.mode ∧ x.transform = w.transform ∧ x.primaryPlane.transformation = w.planeTransformations
  off : x.dpms ≠ .on → x.device.mode = none

/-- A wish to switch off waits for a flip only, and else the mode is the one that was asked for. -/
structure Dpms (x : DrmOutput) : Prop where
  waits : x.atomicOffPending → x.pageFlipPending ∧ x.dpmsModePending ≠ .on ∧ x.modesetRequested
  agreed : x.atomicOffPending = false → x.dpmsModePending = x.dpms

/-- The compositor has the outputs that are enabled, and waits for what they show. -/
structure Listed (x : DrmOutput) : Prop where
  swapPending : x.swapPending = if x.inEnabledOutputs then some x.pageFlipPending else none
  disabled : x.inEnabledOutputs = false → x.pageFlipPending = false
  enabled : x.inEnabledOutputs = (!x.deleted && x.enabled)

/-- What an output keeps, whatever the compositor knows of it. -/
structure Steady (x : DrmOutput) : Prop where
  stage : Rests x ∨ ∃ b, Flies x b
  numbered : ∀ b ∈ x.buffers, b < x.created
  working : Working x
  dpms : Dpms x

structure Sound (x : DrmOutput) : Prop extends Steady x where
  listed : Listed x

/-- The compositor knows as much of the output, and pictures are not handed over or shown. -/
structure Alike (x y : DrmOutput) : Prop where
  deleted : y.deleted = x.deleted
  enabled : y.enabled = x.enabled
  inEnabledOutputs : y.inEnabledOutputs = x.inEnabledOutputs
  swapPending : y.swapPending = x.swapPending
  pageFlipPending : y.pageFlipPending = x.pageFlipPending

section commits

/-- Without its buffers. -/
def darkened (x : DrmOutput) : DrmOutput :=
  { x with
    buffers := ∅
    primaryPlane := { x.primaryPlane with current := none, next := none, fbId := none }
    device := { x.device with framebuffer := none } }

/-- The plane is left alone, and so is the DPMS mode. -/
def refused (x : DrmOutput) : DrmOutput :=
  { x.setNext none with nextPlanesFlipList := 0, dpmsModePending := x.dpms }

def committed (x : DrmOutput) : DrmOutput :=
  { x with device := x.device.commit x.atomicReq (x.dpmsModePending = .on), modesetRequested := false }

theorem errorHandler_eq (h : x.nextPlanesFlipList ≠ 0) : x.errorHandler = some x.refused := by
  unfold errorHandler
  by_cases hd : x.dpms = x.dpmsModePending
  · rw [if_pos hd]
    refine congrArg some ((if_neg h).trans ?_)
    unfold refused setNext
    rw [hd]
  · rw [if_neg hd]
    by_cases hon : x.dpms = .on
    · rw [if_pos hon]
      exact congrArg some (if_neg h)
    · rw [if_neg hon, dpmsFinishOff, if_neg hon]
      exact congrArg some (if_neg h)

/-- A commit for an output that is on leaves it as it was when the device does not take it. -/
theorem doAtomicCommit_on (hon : x.dpmsModePending = .on) (hlist : x.nextPlanesFlipList ≠ 0) (mode : AtomicCommitMode)
    (reply : Reply) : x.doAtomicCommit mode reply = some (x.refused, false) ∨
      x.doAtomicCommit mode reply = some (if mode = .test then x else x.committed, true) := by
  unfold doAtomicCommit
  have hpopulate : (if x.modesetRequested then x.atomicReqModesetPopulate (x.dpmsModePending = .on) else some x) = some x := by
    rw [hon]
    exact ite_self _
  rw [hpopulate, Option.bind_eq_bind, Option.bind_some, errorHandler_eq hlist]
  split_ifs
  all_goals first | exact .inl rfl | exact .inr rfl

theorem delete_some (h : b ∈ x.buffers) :
    x.delete (some b) = some { x with buffers := x.buffers.erase b, device := x.device.rmFB b } := if_pos h

theorem Shows.delete_current (h : Shows x) : x.delete x.primaryPlane.current =
    some { x with buffers := ∅, device := { x.device with framebuffer := none } } := by
  obtain ⟨-, hb, hq, -, hf⟩ := h
  cases hc : x.primaryPlane.current with
  | none =>
    rw [hc] at hb hf
    change x.buffers = ∅ at hb
    have hx : x = { x with buffers := ∅, device := { x.device with framebuffer := none } } := by rw [← hb, ← hf]
    exact congrArg some hx
  | some b =>
    rw [hc] at hb hf
    change x.buffers = {b} at hb
    rw [delete_some (by simp [hb]), hb, Finset.erase_singleton, Device.rmFB, if_pos hf, hq, if_neg (by simp), ← hq]

theorem Shows.populate (h : Shows x) : x.atomicReqModesetPopulate false = some x.darkened := by
  unfold atomicReqModesetPopulate
  rw [if_neg (by simp), h.delete_current, Option.bind_eq_bind, Option.bind_some]
  change (delete _ x.primaryPlane.next).bind _ = _
  rw [h.next]
  rfl

theorem Shows.darkened (h : Shows x) : Shows x.darkened := ⟨rfl, rfl, h.queued, h.flipEvents, rfl⟩

/-- A commit that switches an output off gives up its buffers first. -/
theorem Shows.doAtomicCommit_off (h : Shows x) (hlist : x.nextPlanesFlipList ≠ 0) (hoff : x.dpmsModePending ≠ .on)
    (hm : x.modesetRequested) (mode : AtomicCommitMode) (reply : Reply) :
    ∃ y, (y = x ∨ y = x.darkened) ∧ (x.doAtomicCommit mode reply = some (y.refused, false) ∨
      x.doAtomicCommit mode reply = some (if mode = .test then x.darkened else x.darkened.committed, true)) := by
  unfold doAtomicCommit
  rw [if_pos hm, decide_eq_false hoff, h.populate, Option.bind_eq_bind, Option.bind_some, errorHandler_eq hlist]
  have hd : x.darkened.errorHandler = some x.darkened.refused := errorHandler_eq hlist
  rw [hd]
  split_ifs
  all_goals first | exact ⟨x, .inl rfl, .inl rfl⟩ | refine ⟨x.darkened, .inr rfl, ?_⟩
  all_goals first | exact .inl rfl | exact .inr rfl

/-- The output stays on, or it is off. -/
def stayedOn (x : DrmOutput) : DrmOutput := { x.refused with atomicOffPending := false }

def switchedOff (x : DrmOutput) : DrmOutput :=
  { x.darkened with
    atomicOffPending := false
    modesetRequested := false
    nextPlanesFlipList := 0
    dpms := x.dpmsModePending
    device := { x.device with mode := none, rotation := x.primaryPlane.transformation, framebuffer := none } }

theorem Rests.dpmsAtomicOff (h : Rests x) (hoff : x.dpmsModePending ≠ .on) (hm : x.modesetRequested) (test real : Reply) :
    Succeeds (x.dpmsAtomicOff test real) fun r => r.1 = x.stayedOn ∨ r.1 = x.darkened.stayedOn ∨ r.1 = x.switchedOff := by
  have hnext : delete { x with atomicOffPending := false } x.primaryPlane.next = some { x with atomicOffPending := false } := by
    rw [h.next]
    rfl
  refine Succeeds.bind ⟨_, hnext, rfl⟩ ?_
  rintro _ rfl
  let x₁ : DrmOutput := { setNext { x with atomicOffPending := false } none with nextPlanesFlipList := x.nextPlanesFlipList + 1 }
  have hs : Shows x₁ := ⟨rfl, h.buffers, h.queued, h.flipEvents, h.framebuffer⟩
  have hlist : x₁.nextPlanesFlipList ≠ 0 := Nat.succ_ne_zero _
  obtain ⟨y, hy, hrefused | htested⟩ := hs.doAtomicCommit_off hlist hoff hm .test test
  · refine Succeeds.bind ⟨_, hrefused, rfl⟩ ?_
    rintro _ rfl
    refine Succeeds.some ?_
    rcases hy with rfl | rfl
    · exact .inl rfl
    · exact .inr (.inl rfl)
  · refine Succeeds.bind ⟨_, htested, rfl⟩ ?_
    rintro _ rfl
    obtain ⟨y, hy, hrefused | hdone⟩ := hs.darkened.doAtomicCommit_off hlist hoff hm .real real
    · refine Succeeds.bind ⟨_, hrefused, rfl⟩ ?_
      rintro _ rfl
      refine Succeeds.some (.inr (.inl ?_))
      rcases hy with rfl | rfl <;> rfl
    · refine Succeeds.bind ⟨_, hdone, rfl⟩ ?_
      rintro _ rfl
      refine Succeeds.bind ⟨_, if_neg hoff, rfl⟩ ?_
      rintro _ rfl
      refine Succeeds.some (.inr (.inr ?_))
      have hreq : x₁.darkened.darkened.atomicReq = ⟨some none, some (none, x.primaryPlane.transformation)⟩ := by
        unfold atomicReq
        exact congrArg₂ AtomicReq.mk ((if_pos hm).trans (congrArg some (if_neg hoff))) (if_neg hlist)
      change { x₁.darkened.darkened with
        device := x₁.darkened.darkened.device.commit x₁.darkened.darkened.atomicReq (decide (x.dpmsModePending = DpmsMode.on))
        modesetRequested := false
        nextPlanesFlipList := 0
        dpms := x.dpmsModePending } = _
      rw [hreq, decide_eq_false hoff]
      rfl

/-- The buffer is handed over, with a new mode if that is asked for. -/
def handedOver (x : DrmOutput) (b : BufferId) : DrmOutput :=
  { x with
    primaryPlane := { x.primaryPlane with fbId := some b, next := some b }
    nextPlanesFlipList := x.nextPlanesFlipList + 1
    pageFlipPending := true
    modesetRequested := false
    lastWorkingState :=
      if x.modesetRequested then some ⟨x.mode, x.transform, x.primaryPlane.transformation, x.globalPos⟩ else x.lastWorkingState
    device := { x.device with
      mode := if x.modesetRequested then some x.mode else x.device.mode
      rotation := x.primaryPlane.transformation
      queued := some b } }

theorem presentAtomically_cases (hon : x.dpmsModePending = .on) (hp : x.pageFlipPending = false) (active : Bool) (b : BufferId)
    (test real : Reply) : Succeeds (x.presentAtomically active b test real) fun r =>
      r = (x, false) ∨ r = (x.refused, false) ∨ r = (x.refused.restore, false) ∨ r = (x.handedOver b, true) := by
  unfold presentAtomically
  refine Succeeds.ite (fun _ => Succeeds.some (.inl rfl)) fun _ => ?_
  rw [if_neg (by simp [hp])]
  let x₁ : DrmOutput := { x.setNext b with nextPlanesFlipList := x.nextPlanesFlipList + 1 }
  have hlist : x₁.nextPlanesFlipList ≠ 0 := Nat.succ_ne_zero _
  rcases doAtomicCommit_on (x := x₁) hon hlist .test test with hrefused | htested
  · refine Succeeds.bind ⟨_, hrefused, rfl⟩ ?_
    rintro _ rfl
    exact Succeeds.some (.inr (.inr (.inl rfl)))
  · refine Succeeds.bind ⟨_, htested, rfl⟩ ?_
    rintro _ rfl
    rcases doAtomicCommit_on (x := x₁) hon hlist .real real with hrefused | hdone
    · refine Succeeds.bind ⟨_, hrefused, rfl⟩ ?_
      rintro _ rfl
      exact Succeeds.some (.inr (.inl rfl))
    · have hcommitted : x₁.committed = { x₁ with
          modesetRequested := false
          device := { x.device with
            mode := if x.modesetRequested then some x.mode else x.device.mode
            rotation := x.primaryPlane.transformation
            queued := some b } } := by
        unfold committed atomicReq
        rw [if_neg hlist, if_pos (show x₁.dpmsModePending = .on from hon),
          decide_eq_true (show x₁.dpmsModePending = .on from hon)]
        by_cases hm : x.modesetRequested
        · rw [if_pos hm, if_pos (show x₁.modesetRequested from hm)]
          rfl
        · rw [if_neg hm, if_neg (show ¬ x₁.modesetRequested from hm)]
          rfl
      refine Succeeds.bind ⟨_, hdone, rfl⟩ ?_
      rintro _ rfl
      refine Succeeds.some (.inr (.inr (.inr ?_)))
      refine Prod.ext ?_ rfl
      change { (if x.modesetRequested then x₁.committed.storeWorkingState else x₁.committed) with pageFlipPending := true } = _
      rw [hcommitted]
      unfold handedOver
      by_cases hm : x.modesetRequested
      · rw [if_pos hm, if_pos hm, if_pos hm]
        rfl
      · rw [if_neg hm, if_neg hm, if_neg hm]
        rfl

end commits
end DrmOutput
end KWinFT.Drm
