import KWinFT.Glx.Backend
import KWinFT.Lib.Runs

/-! Which frames are shown. A frame that renders nothing on the screen but has damage outside of it is recorded in the
history without a swap, and the ages of the buffers do not fit the history any more. -/
namespace KWinFT.Glx
open Scene
variable {α β C : Type*} {p : Pixel}

section history

theorem mem_foldl_union {regions : List Region} {r : Region} :
    p ∈ regions.foldl (· ∪ ·) r ↔ p ∈ r ∨ ∃ region ∈ regions, p ∈ region := by
  induction regions generalizing r with
  | nil => simp
  | cons region regions ih => simp [ih, or_assoc]

/-- The regions that a history grows by keep their places, as far as the history goes. -/
theorem mem_addToDamageHistory {b : GlxBackend} {damage : Region} {n : Nat}
    (hn : n + 1 < (b.addToDamageHistory damage).damageHistory.length) :
    n < b.damageHistory.length ∧ ∀ region, region ∈ (b.addToDamageHistory damage).damageHistory.take (n + 1) ↔
      region = damage ∨ region ∈ b.damageHistory.take n := by
  simp only [GlxBackend.addToDamageHistory, List.length_cons, List.take_succ_cons, List.mem_cons] at hn ⊢
  split at hn
  · rw [List.length_dropLast] at hn
    rw [if_pos ‹_›, List.dropLast_eq_take, List.take_take, min_eq_left (by omega)]
    exact ⟨by omega, fun _ => Iff.rfl⟩
  · rw [if_neg ‹_›]
    exact ⟨by omega, fun _ => Iff.rfl⟩

/-- Buffers with defined contents were presented by this swap or before, and keep their contents. -/
theorem presented_swapBuffers [DecidableEq β] {c : SwapChain β C} {next : Handover β C} {b : β} {swap : Nat}
    (h : (c.swapBuffers next).presented b = some swap) : (c.swapBuffers next).contents b = c.contents b ∧
      ((b = c.back ∧ swap = c.swaps + 1) ∨ (b ≠ c.back ∧ c.presented b = some swap)) := by
  have hold (h : Function.update c.presented c.back (some (c.swaps + 1)) b = some swap) :
      (b = c.back ∧ swap = c.swaps + 1) ∨ (b ≠ c.back ∧ c.presented b = some swap) := by
    by_cases hb : b = c.back
    · rw [hb, Function.update_self] at h
      exact .inl ⟨hb, (Option.some.inj h).symm⟩
    · rw [Function.update_of_ne hb] at h
      exact .inr ⟨hb, h⟩
  unfold SwapChain.swapBuffers at h ⊢
  cases hu : next.undefined with
  | none =>
    rw [hu] at h
    exact ⟨rfl, hold h⟩
  | some garbage =>
    rw [hu] at h
    dsimp only at h ⊢
    by_cases hb : b = next.buffer
    · rw [hb, Function.update_self] at h
      cases h
    · rw [Function.update_of_ne hb] at h
      exact ⟨Function.update_of_ne hb _ _, hold h⟩

theorem swapBuffers_swaps [DecidableEq β] (c : SwapChain β C) (next : Handover β C) :
    (c.swapBuffers next).swaps = c.swaps + 1 := by
  unfold SwapChain.swapBuffers
  split <;> rfl

theorem swapBuffers_front [DecidableEq β] (c : SwapChain β C) (next : Handover β C) :
    (c.swapBuffers next).front = some (c.contents c.back) := by
  unfold SwapChain.swapBuffers
  split <;> rfl

end history

/-- The frame is for the screen of this size; what is rendered has the colour it should have, and the picture differs
from the one before only where there is visible damage. With an effect that transforms all may differ. -/
structure Drawable (size : Geometry.Size) (s : State β C) (input : Input α β C) : Prop where
  fits : input.frame.screenSize = size
  background : input.frame.backgroundFirst = false
  colours : ∀ p ∈ (s.rendered input).validRegion,
    (s.rendered input).screen p = input.frame.picture input.contents p
  confined : ∀ p ∈ input.frame.displayRegion, input.frame.picture input.contents p ≠ s.picture p →
    input.transformed ∨ (s.frame input).onScreen.VisiblyDamaged p

/-- The damage that is recorded for a frame. -/
def State.recorded (s : State β C) (input : Input α β C) : Option Region :=
  if (s.rendered input).updateRegion = ∅ then none else some (s.rendered input).updateRegion

/-- A swapped buffer shows the picture of the frame; the damage recorded has all that differs from what was shown
before, and nothing that was drawn only because it was out of date in the buffer. -/
structure ShownRight [DecidableEq β] (s : State β C) (input : Input α β C) : Prop where
  front : (s.paint input).chain.swaps ≠ s.chain.swaps → ∃ shown, (s.paint input).chain.front = some shown ∧
    ∀ p ∈ input.frame.displayRegion, shown p = input.frame.picture input.contents p
  differs : ∀ region, s.recorded input = some region → ∀ shown, s.chain.front = some shown →
    ∀ p ∈ input.frame.displayRegion, input.frame.picture input.contents p ≠ shown p → p ∈ region
  damaged : ∀ region, s.recorded input = some region → ¬ input.transformed →
    ∀ p ∈ region, p ∈ (s.frame input).repaintRegion → (s.frame input).onScreen.VisiblyDamaged p

/-- The frame may be drawn without harm: it renders something on the screen if there is visible damage anywhere, and
repairs no part of the buffer with occluded damage. -/
def Careful (s : State β C) (input : Input α β C) : Prop :=
  ¬ input.transformed → (s.frame input).RepairsApart ∧ (s.frame input).RendersOnScreen

/-- The buffers are out of date by what is recorded for the swaps since they were presented. -/
structure UpToDate (displayRegion : Region) (s : State β C) : Prop where
  flushed : s.backend.lastDamage = ∅
  front : ∀ shown, s.chain.front = some shown → ∀ p ∈ displayRegion, shown p = s.picture p
  back : ∀ p ∈ displayRegion, p ∉ s.backend.prepareRenderingFrame displayRegion →
    s.chain.contents s.chain.back p = s.picture p
  others : ∀ b ≠ s.chain.back, ∀ swap, s.chain.presented b = some swap → swap ≤ s.chain.swaps ∧
    (s.chain.swaps - swap < s.backend.damageHistory.length → ∀ p ∈ displayRegion,
      (∀ region ∈ s.backend.damageHistory.take (s.chain.swaps - swap), p ∉ region) →
        s.chain.contents b p = s.picture p)

section frame
variable {size : Geometry.Size} {s : State β C} {input : Input α β C}

/-- The picture changes only where the frame is damaged. -/
private theorem mem_update_of_changed (hd : Drawable size s input) (hp : p ∈ input.frame.displayRegion)
    (hne : input.frame.picture input.contents p ≠ s.picture p) : p ∈ (s.rendered input).updateRegion :=
  Frame.mem_update_of_visible hd.background hp (hd.confined p hp hne)

private theorem screen_eq (hs : UpToDate input.frame.displayRegion s) (hd : Drawable size s input)
    (hp : p ∈ input.frame.displayRegion) : (s.rendered input).screen p = input.frame.picture input.contents p := by
  by_cases hv : p ∈ (s.rendered input).validRegion
  · exact hd.colours p hv
  · have hr : p ∉ s.backend.prepareRenderingFrame input.frame.displayRegion := fun hr =>
      hv (Frame.mem_valid_of_repaint (f := s.frame input) hd.background hp hr)
    have hsame : input.frame.picture input.contents p = s.picture p := by
      by_contra hne
      exact hv (Frame.mem_valid_of_update (f := s.frame input) hd.background hp (mem_update_of_changed hd hp hne))
    rw [hsame, ← hs.back p hp hr]
    exact Frame.screen_of_not_valid (f := s.frame input) hd.background hp hv

variable [DecidableEq β]

private theorem paint_of_not_posted (hu : (s.rendered input).updateRegion = ∅) :
    s.paint input = ⟨{ s.backend with lastDamage := ∅, bufferAge := 1 }, s.chain.draw (s.rendered input).screen,
      input.frame.picture input.contents⟩ :=
  if_pos hu

/-- A frame that is not posted leaves the back buffer like the front buffer. -/
private theorem upToDate_of_not_posted (hs : UpToDate input.frame.displayRegion s) (hd : Drawable size s input)
    (hu : (s.rendered input).updateRegion = ∅) : UpToDate input.frame.displayRegion (s.paint input) := by
  have hsame : ∀ p ∈ input.frame.displayRegion, input.frame.picture input.contents p = s.picture p := by
    intro p hp
    by_contra hne
    have := mem_update_of_changed hd hp hne
    rw [hu] at this
    cases this
  rw [paint_of_not_posted hu]
  refine ⟨rfl, fun shown hshown p hp => ?_, fun p hp _ => ?_, fun b hb swap hswap => ?_⟩
  · exact (hs.front shown hshown p hp).trans (hsame p hp).symm
  · exact (congrFun (Function.update_self s.chain.back _ _) p).trans (screen_eq hs hd hp)
  · obtain ⟨hle, hold⟩ := hs.others b hb swap hswap
    refine ⟨hle, fun hlt p hp hnone => ?_⟩
    exact (congrFun (Function.update_of_ne hb _ _) p).trans ((hold hlt p hp hnone).trans (hsame p hp).symm)

/-- A frame that is posted and rendered is swapped, and recorded in the history. -/
private theorem paint_of_posted (hu : (s.rendered input).updateRegion ≠ ∅) (hv : (s.rendered input).validRegion ≠ ∅) :
    s.paint input =
      let chain := (s.chain.draw (s.rendered input).screen).swapBuffers input.next
      ⟨{ s.backend with lastDamage := ∅, bufferAge := chain.backBufferAge }.addToDamageHistory
        (s.rendered input).updateRegion, chain, input.frame.picture input.contents⟩ := by
  refine (if_neg hu).trans ?_
  simp only [State.present, if_neg hv]

private theorem upToDate_of_posted (hs : UpToDate input.frame.displayRegion s) (hd : Drawable size s input)
    (hu : (s.rendered input).updateRegion ≠ ∅) (hv : (s.rendered input).validRegion ≠ ∅) :
    UpToDate input.frame.displayRegion (s.paint input) := by
  rw [paint_of_posted hu hv]
  set chain := (s.chain.draw (s.rendered input).screen).swapBuffers input.next with hchain
  set backend := { s.backend with lastDamage := ∅, bufferAge := chain.backBufferAge }.addToDamageHistory
    (s.rendered input).updateRegion with hbackend
  have hswaps : chain.swaps = s.chain.swaps + 1 := swapBuffers_swaps _ _
  have hpresented : ∀ b swap, chain.presented b = some swap → swap ≤ chain.swaps ∧
      (chain.swaps - swap < backend.damageHistory.length → ∀ p ∈ input.frame.displayRegion,
        (∀ region ∈ backend.damageHistory.take (chain.swaps - swap), p ∉ region) →
          chain.contents b p = input.frame.picture input.contents p) := by
    intro b swap hb
    obtain ⟨hcontents, ⟨rfl, rfl⟩ | ⟨hne, hold⟩⟩ := presented_swapBuffers hb
    · refine ⟨hswaps.ge, fun _ p hp _ => ?_⟩
      rw [hcontents]
      exact (congrFun (Function.update_self s.chain.back _ _) p).trans (screen_eq hs hd hp)
    · obtain ⟨hle, hold⟩ := hs.others b hne swap hold
      have hsub : chain.swaps - swap = s.chain.swaps - swap + 1 := by omega
      rw [hsub]
      refine ⟨by omega, fun hlt p hp hnone => ?_⟩
      obtain ⟨hlt', hkeep⟩ := mem_addToDamageHistory hlt
      have hsame : input.frame.picture input.contents p = s.picture p := by
        by_contra hne
        exact hnone _ ((hkeep _).mpr (.inl rfl)) (mem_update_of_changed hd hp hne)
      rw [hcontents, hsame, ← hold hlt' p hp fun region hr => hnone region ((hkeep region).mpr (.inr hr))]
      exact congrFun (Function.update_of_ne hne _ _) p
  refine ⟨rfl, fun shown hshown p hp => ?_, fun p hp hr => ?_, fun b _ => hpresented b⟩
  · cases (swapBuffers_front _ _).symm.trans hshown
    exact (congrFun (Function.update_self s.chain.back _ _) p).trans (screen_eq hs hd hp)
  · rw [GlxBackend.prepareRenderingFrame, GlxBackend.accumulatedDamageHistory] at hr
    split at hr
    · next hage =>
      obtain ⟨swap, hswap, heq⟩ : ∃ swap, chain.presented chain.back = some swap ∧
          backend.bufferAge = chain.swaps - swap + 1 := by
        have hback : backend.bufferAge = chain.backBufferAge := rfl
        rw [hback, SwapChain.backBufferAge] at hage ⊢
        cases hb : chain.presented chain.back with
        | none =>
          rw [hb] at hage
          exact absurd hage.1 (Nat.lt_irrefl 0)
        | some swap => exact ⟨swap, rfl, rfl⟩
      rw [heq] at hage hr
      rw [Nat.add_sub_cancel, mem_foldl_union, not_or] at hr
      exact (hpresented _ swap hswap).2 hage.2 p hp fun region hmem hin => hr.2 ⟨region, hmem, hin⟩
    · exact absurd hp hr

/-- A careful frame is shown right, and the buffers stay up to date with the history. -/
private theorem shown_of_careful (hs : UpToDate input.frame.displayRegion s) (hd : Drawable size s input)
    (hc : Careful s input) : ShownRight s input ∧ UpToDate input.frame.displayRegion (s.paint input) := by
  have hvalid : (s.rendered input).updateRegion ≠ ∅ → (s.rendered input).validRegion ≠ ∅ :=
    Frame.valid_nonempty (f := s.frame input) hd.background hc
  have hrecorded (region : Region) (h : s.recorded input = some region) : region = (s.rendered input).updateRegion := by
    unfold State.recorded at h
    split at h
    · cases h
    · exact (Option.some.inj h).symm
  refine ⟨⟨fun hswaps => ?_, fun region hregion shown hshown p hp hne => ?_, fun region hregion ht p hp hr => ?_⟩, ?_⟩
  · by_cases hu : (s.rendered input).updateRegion = ∅
    · rw [paint_of_not_posted hu] at hswaps
      exact absurd rfl hswaps
    · refine ⟨(s.rendered input).screen, ?_, fun p hp => screen_eq hs hd hp⟩
      rw [paint_of_posted hu (hvalid hu)]
      refine (swapBuffers_front _ _).trans (congrArg some ?_)
      exact Function.update_self s.chain.back _ _
  · rw [hrecorded region hregion]
    rw [hs.front shown hshown p hp] at hne
    exact mem_update_of_changed hd hp hne
  · rw [hrecorded region hregion, State.rendered, Bool.eq_false_iff.mpr ht] at hp
    exact Frame.visible_of_update (f := s.frame input) hd.background (hc ht).1 hp hr
  · by_cases hu : (s.rendered input).updateRegion = ∅
    · exact upToDate_of_not_posted hs hd hu
    · exact upToDate_of_posted hs hd hu (hvalid hu)

end frame

section runs
variable {size : Geometry.Size} {contents : β → Pixel → C} {back : β} {picture : Pixel → C}

/-- Frames as the scene gives them. -/
def anyFrame (size : Geometry.Size) (s : State β C) : Event α β C → Prop
  | .paint input => Drawable size s input
  | .idle _ => True

/-- Frames as the scene gives them, in a run without harm. -/
def carefulFrame (size : Geometry.Size) (s : State β C) : Event α β C → Prop
  | .paint input => Drawable size s input ∧ Careful s input
  | .idle _ => True

private def display (size : Geometry.Size) : Region := rectRegion (.ofPointSize ⟨0, 0⟩ size)

private theorem displayRegion_eq {s : State β C} {input : Input α β C} (hd : Drawable size s input) :
    input.frame.displayRegion = display size := by
  rw [Frame.displayRegion, hd.fits, display]

private theorem upToDate_initial (displayRegion : Region) :
    UpToDate displayRegion (.initial contents back picture) := by
  refine ⟨rfl, fun _ h => ?_, fun p hp hr => absurd hp hr, fun _ _ _ h => ?_⟩
  · cases h
  · cases h

variable [DecidableEq β]

private theorem upToDate_step {s s' : State β C} (e : Event α β C) (hs : UpToDate (display size) s)
    (he : carefulFrame size s e) (h : step s e = some s') : UpToDate (display size) s' := by
  cases e with
  | paint input =>
    cases h
    obtain ⟨hd, hc⟩ := he
    rw [← displayRegion_eq hd] at hs ⊢
    exact (shown_of_careful hs hd hc).2
  | idle next =>
    cases h
    rw [State.idle, if_neg (not_not.mpr hs.flushed)]
    exact hs

/-- From any buffers on, every frame of a careful run is shown right. -/
theorem careful_shown_right {s : State β C}
    (h : Lib.Reachable step (carefulFrame (α := α) size) (.initial contents back picture) s) {input : Input α β C}
    (hd : Drawable size s input) (hc : Careful s input) : ShownRight s input := by
  have hs : UpToDate (display size) s :=
    h.invariant _ (upToDate_initial _) fun _ e _ hs he hstep => upToDate_step e hs he hstep
  rw [← displayRegion_eq hd] at hs
  exact (shown_of_careful hs hd hc).1

end runs

section stale
open Frame

/-- A translucent window that wants a repaint, on a screen of two pixels. -/
def twoPixels (region repaints : Region) : Frame Unit where
  screenSize := ⟨2, 1⟩
  region := region
  repaintRegion := ∅
  backgroundFirst := false
  stackingOrder := [()]
  window _ :=
    { frameGeometry := ⟨1, 0, 2, 0⟩, clientFrameExtents := ⟨0, 0, 0, 0⟩, remnantFrameMargins := none,
      hasInContentDeco := false, renderRegion := {(0, 0), (1, 0)}, hasAlpha := true, opacity := 1,
      opaqueRegion := ∅, control := none, repaintsRegion := ∅, layerRepaintsRegion := repaints,
      deleted := false, onCurrentDesktop := true, onCurrentActivity := true, hiddenInternal := false }
  wantsFullRepaint _ _ := false

/-- The frame shows these colours of the two pixels, and the driver then hands back this buffer. -/
def twoColours (region repaints : Region) (left right : Bool) (buffer : Nat) : Input Unit Nat Bool where
  frame := twoPixels region repaints
  transformed := false
  contents := ⟨fun p => if p = (0, 0) then left else right, fun _ _ colour => colour⟩
  next := ⟨buffer, none⟩

/-- Three buffers without contents, the second of which is drawn first. -/
def threeBuffers : State Nat Bool := .initial (fun _ _ => false) 1 fun _ => false

/-- What is rendered has the right colour, and all changes are in the damage. -/
private def Shows (s : State Nat Bool) (input : Input Unit Nat Bool) : Prop :=
  (∀ p ∈ (s.rendered input).validRegion, (s.rendered input).screen p = input.frame.picture input.contents p) ∧
    ∀ p ∈ input.frame.displayRegion, input.frame.picture input.contents p ≠ s.picture p →
      p ∈ (s.frame input).onScreen.region

private instance (s : State Nat Bool) (input : Input Unit Nat Bool) : Decidable (Shows s input) :=
  inferInstanceAs (Decidable (_ ∧ _))

variable {s : State Nat Bool} {region repaints : Region} {left right : Bool} {buffer : Nat}

private theorem drawable_of_shows (h : Shows s (twoColours region repaints left right buffer)) :
    Drawable ⟨2, 1⟩ s (twoColours region repaints left right buffer) :=
  ⟨rfl, rfl, h.1, fun p hp hne => .inr (.inl (h.2 p hp hne))⟩

/-- Without repaints of the window all damage is visible and on the screen. -/
private theorem careful_of_no_repaints : Careful s (twoColours region ∅ left right buffer) := by
  have hregion (p : Pixel) (h : (s.frame (twoColours region ∅ left right buffer)).onScreen.Damaged p) :
      p ∈ (s.frame (twoColours region ∅ left right buffer)).onScreen.region := by
    rcases h with h | ⟨a, -, ha⟩
    · exact h
    · have hnone : ((twoPixels region ∅).window a).repaints = ∅ := rfl
      have ha : p ∈ ((twoPixels region ∅).window a).repaints := ha
      rw [hnone] at ha
      cases ha
  refine fun _ => ⟨fun p _ hd => .inl (hregion p hd), fun ⟨p, hd, hp⟩ => ?_⟩
  exact absurd (Finset.mem_inter.mp (hregion p hd.damaged)).2 hp

private theorem careful_paint {s₀ : State Nat Bool} (h : Lib.Reachable step (carefulFrame (α := Unit) ⟨2, 1⟩) s₀ s)
    (hs : Shows s (twoColours region ∅ left right buffer)) :
    Lib.Reachable step (carefulFrame (α := Unit) ⟨2, 1⟩) s₀ (s.paint (twoColours region ∅ left right buffer)) :=
  .step (.paint _) h ⟨drawable_of_shows hs, careful_of_no_repaints⟩ rfl

private theorem any_paint {s₀ : State Nat Bool} (h : Lib.Reachable step (anyFrame (α := Unit) ⟨2, 1⟩) s₀ s)
    (hs : Shows s (twoColours region repaints left right buffer)) :
    Lib.Reachable step (anyFrame (α := Unit) ⟨2, 1⟩) s₀ (s.paint (twoColours region repaints left right buffer)) :=
  .step (.paint _) h (drawable_of_shows hs) rfl

/-- A buffer is repaired in a frame without damage, and used in the next one. -/
def repaired : State Nat Bool :=
  ((threeBuffers.paint (twoColours {(0, 0), (1, 0)} ∅ false false 2)).paint
    (twoColours {(0, 0)} ∅ true false 0)).paint (twoColours ∅ ∅ true false 0)

theorem repaired_shown_right : ShownRight repaired (twoColours {(1, 0)} ∅ true true 1) := by
  have h₀ : Lib.Reachable step (carefulFrame (α := Unit) ⟨2, 1⟩) threeBuffers threeBuffers := .init
  have h₁ := careful_paint h₀
    (show Shows _ (twoColours {(0, 0), (1, 0)} ∅ false false 2) by decide +kernel)
  have h₂ := careful_paint h₁ (show Shows _ (twoColours {(0, 0)} ∅ true false 0) by decide +kernel)
  have h₃ := careful_paint h₂ (show Shows _ (twoColours ∅ ∅ true false 0) by decide +kernel)
  exact careful_shown_right h₃ (drawable_of_shows (by decide +kernel)) careful_of_no_repaints

/-- Then the window is damaged outside of the screen only. When the first buffer comes back, the damage of the second
frame is not among the last two recorded. -/
theorem stale_shown : ∃ s, ∃ input : Input Unit Nat Bool,
    Lib.Reachable step (anyFrame (α := Unit) ⟨2, 1⟩) threeBuffers s ∧ Drawable ⟨2, 1⟩ s input ∧
      ¬ ShownRight s input := by
  have h₀ : Lib.Reachable step (anyFrame (α := Unit) ⟨2, 1⟩) threeBuffers threeBuffers := .init
  have h₁ := any_paint h₀
    (show Shows _ (twoColours {(0, 0), (1, 0)} ∅ false false 2) by decide +kernel)
  have h₂ := any_paint h₁ (show Shows _ (twoColours {(0, 0)} ∅ true false 0) by decide +kernel)
  have h₃ := any_paint h₂ (show Shows _ (twoColours ∅ ∅ true false 0) by decide +kernel)
  have h₄ := any_paint h₃ (show Shows _ (twoColours ∅ {(2, 0)} true false 0) by decide +kernel)
  have h₅ := any_paint h₄ (show Shows _ (twoColours {(1, 0)} ∅ true true 1) by decide +kernel)
  refine ⟨_, twoColours {(1, 0)} ∅ true false 0, h₅, drawable_of_shows (by decide +kernel), fun h => ?_⟩
  obtain ⟨shown, hfront, hshown⟩ := h.front (by decide +kernel)
  have hstale : shown (0, 0) = false := by
    have hcolour := congrArg (Option.map fun colours : Pixel → Bool => colours (0, 0)) hfront
    refine Option.some.inj (hcolour.symm.trans ?_)
    decide +kernel
  have hright : shown (0, 0) = true := hshown (0, 0) (by decide +kernel)
  rw [hstale] at hright
  cases hright

end stale

end KWinFT.Glx
