import KWinFT.Activation.Flags

/-! What activating a window and requesting the focus for it keep, with all that they call again. -/
namespace KWinFT.Activation
open Lib

/-- The active window and the flags agree, the windows that demand attention are listed, and no pointer dangles. A Wayland
window that is about to go may still be the active one. -/
structure Sound (σ : Setting) (live : Nat → Prop) (gone : Option Nat) (s : Workspace) : Prop where
  agree : ∀ v, s.active v ↔ s.activeClient = some v
  calm : ∀ v, s.activeClient = some v → ¬ s.demandsAttention v
  ordered : Ordered s
  remembered : ∀ v, s.activeClient = some v → s.lastActiveClient = some v ∨ gone = some v
  active_live : ∀ v, s.activeClient = some v → live v ∨ gone = some v ∧ σ.kind v ≠ .x11
  last_live : ∀ v, s.lastActiveClient = some v → live v
  external : ∀ v, s.activeClient = some v ∨ s.lastActiveClient = some v → σ.kind v ≠ .internal
  should_live : ∀ v ∈ s.shouldGetFocus, live v ∧ σ.kind v = .x11
  attention_live : ∀ v, s.demandsAttention v → σ.kind v = .x11 → live v
  delay_live : s.delayFocusTimer → ∀ v, s.delayfocusClient = some v → live v ∧ σ.kind v ≠ .internal
  timer_live : ∀ v, s.focusOutTimer v → live v ∧ σ.kind v = .x11

/-- What calls leave alone. No X11 window becomes active by them. -/
structure Onward (σ : Setting) (s s' : Workspace) : Prop where
  allClients : s'.allClients = s.allClients
  focusOutTimer : s'.focusOutTimer = s.focusOutTimer
  blockFocus : s'.blockFocus = s.blockFocus
  delayfocusClient : s'.delayfocusClient = s.delayfocusClient
  delayFocusTimer : s'.delayFocusTimer → s.delayFocusTimer
  activeClient : ∀ v, σ.kind v = .x11 → s'.activeClient = some v → s.activeClient = some v

/-- The other parts of the workspace answer with windows that are there, and no tool windows are activated as they are
shown. -/
structure Surroundings.Known (env : Surroundings) (live : Nat → Prop) : Prop where
  findModal : ∀ v m, env.findModal v = some m → live m
  next : ∀ v, env.next = some v → live v
  forActivation : ∀ v, env.forActivation = some v → live v
  desktopWindow : ∀ v, env.desktopWindow = some v → live v
  tools : env.tools = []

theorem Surroundings.Known.modalFor {env : Surroundings} {live : Nat → Prop} (hk : env.Known live) (take : Bool) (w : Nat) :
    ∀ m, env.modalFor take w = some m → live m := by
  intro m hm
  unfold Surroundings.modalFor at hm
  split at hm
  · exact hk.findModal w m (Option.filter_eq_some_iff.mp hm).1
  · exact absurd hm.symm (Option.some_ne_none m)

namespace Onward
variable {σ : Setting} {s t u : Workspace}

theorem refl : Onward σ s s := ⟨rfl, rfl, rfl, rfl, id, fun _ _ => id⟩

theorem trans (h : Onward σ s t) (h' : Onward σ t u) : Onward σ s u :=
  ⟨h'.allClients.trans h.allClients, h'.focusOutTimer.trans h.focusOutTimer, h'.blockFocus.trans h.blockFocus,
    h'.delayfocusClient.trans h.delayfocusClient, fun ht => h.delayFocusTimer (h'.delayFocusTimer ht),
    fun v hv ht => h.activeClient v hv (h'.activeClient v hv ht)⟩

end Onward

section sound
variable {σ : Setting} {live : Nat → Prop} {gone : Option Nat} {s t : Workspace}

theorem Sound.demandAttention (h : Sound σ live gone s) {w : Nat} {demand : Bool}
    (hw : demand → σ.kind w = .x11 → live w) : Sound σ live gone (s.setDemandsAttention w demand) := by
  have hdemands (v : Nat) (hv : (s.setDemandsAttention w demand).demandsAttention v) :
      s.demandsAttention v ∨ v = w ∧ demand ∧ ¬ s.active w := by
    rw [Workspace.setDemandsAttention_demandsAttention] at hv
    by_cases he : v = w
    · exact .inr ⟨he, by simpa [he] using hv⟩
    · exact .inl (by simpa [he] using hv)
  have hrest := Workspace.setDemandsAttention_rest s w demand
  refine ⟨?_, fun v hv => ?_, h.ordered.setDemandsAttention w demand, ?_, ?_, ?_, ?_, ?_, fun v hv hx => ?_, ?_, ?_⟩
  · simpa using h.agree
  · rw [Workspace.setDemandsAttention_activeClient] at hv
    intro hd
    rcases hdemands v hd with hd | ⟨rfl, -, hn⟩
    · exact h.calm v hv hd
    · exact hn ((h.agree v).mpr hv)
  · simpa using h.remembered
  · simpa using h.active_live
  · simpa using h.last_live
  · simpa using h.external
  · exact (congrArg Workspace.shouldGetFocus hrest).symm ▸ h.should_live
  · rcases hdemands v hv with hd | ⟨rfl, hd, -⟩
    · exact h.attention_live v hd hx
    · exact hw hd hx
  · exact (congrArg Workspace.delayFocusTimer hrest).symm ▸ (congrArg Workspace.delayfocusClient hrest).symm ▸ h.delay_live
  · exact (congrArg Workspace.focusOutTimer hrest).symm ▸ h.timer_live

/-- The active window stays. -/
theorem Sound.spared (h : Sound σ live gone s) (hg : ∀ w, gone = some w → s.activeClient ≠ some w) : Sound σ live none s :=
  { h with
    remembered := fun v hv => .inl ((h.remembered v hv).resolve_right fun e => hg v e hv)
    active_live := fun v hv => .inl ((h.active_live v hv).resolve_right fun e => hg v e.1 hv) }

/-- Flags are given to windows that are there only, and the one that is given becomes the active window. -/
theorem Activated.sound {window : Option Nat} {flags : Nat → Bool}
    (ha : Activated σ window { s with active := flags } t) (h : Sound σ live gone s)
    (hgone : window ≠ none → gone = none) (hflags : ∀ v, flags v → s.activeClient = some v ∨ window = some v)
    (hw : ∀ w, window = some w → flags w ∧ live w ∧ σ.kind w ≠ .internal) : Sound σ live none t := by
  have hlast (v : Nat) (hv : t.lastActiveClient = some v) : s.lastActiveClient = some v ∨ window = some v := by
    rw [ha.last] at hv
    split at hv
    · exact .inl hv
    · exact (Option.or_eq_some_iff.mp hv).symm.imp_left And.right
  have hrest := ha.rest
  refine ⟨fun v => ?_, fun v hv hd => ?_, ha.ordered, fun v hv => .inl ?_, fun v hv => ?_, fun v hv => ?_, fun v hv => ?_, ?_,
    fun v hv hx => ?_, ?_, ?_⟩
  · rw [ha.active, ha.activeClient]
    refine ⟨fun ⟨hf, hstay⟩ => (hflags v hf).elim hstay id, fun e => ⟨(hw v e).1, fun _ => e⟩⟩
  · obtain ⟨hc, hd⟩ := ha.calm v hd (ha.activeClient ▸ hv)
    exact h.calm v hc hd
  · rw [ha.activeClient] at hv
    subst hv
    rw [ha.last]
    split
    · next hc =>
      rcases h.remembered v hc with hr | hr
      · exact hr
      · rw [hgone (Option.some_ne_none v)] at hr
        exact absurd hr.symm (Option.some_ne_none v)
    · rfl
  · exact .inl (hw v (ha.activeClient ▸ hv)).2.1
  · exact (hlast v hv).elim (h.last_live v) fun e => (hw v e).2.1
  · rcases hv with hv | hv
    · exact (hw v (ha.activeClient ▸ hv)).2.2
    · exact (hlast v hv).elim (fun e => h.external v (.inr e)) fun e => (hw v e).2.2
  · exact (congrArg Workspace.shouldGetFocus hrest).symm ▸ h.should_live
  · rcases ha.demands v hv with hd | ⟨-, hc⟩
    · exact h.attention_live v hd hx
    · exact (h.active_live v hc).resolve_right fun hg => hg.2 hx
  · exact (congrArg Workspace.delayFocusTimer hrest).symm ▸ (congrArg Workspace.delayfocusClient hrest).symm ▸ h.delay_live
  · exact (congrArg Workspace.focusOutTimer hrest).symm ▸ h.timer_live

theorem Activated.onward {window : Option Nat} {flags : Nat → Bool}
    (ha : Activated σ window { s with active := flags } t)
    (hw : ∀ w, window = some w → σ.kind w = .x11 → s.activeClient = some w) : Onward σ s t := by
  have hrest := ha.rest
  exact ⟨(congrArg Workspace.allClients hrest :), (congrArg Workspace.focusOutTimer hrest :),
    (congrArg Workspace.blockFocus hrest :), (congrArg Workspace.delayfocusClient hrest :),
    fun ht => (congrArg Workspace.delayFocusTimer hrest :).symm.trans ht, fun v hv he => hw v (ha.activeClient.symm.trans he) hv⟩

end sound

section calls
variable {σ : Setting} {env : Surroundings} {live : Nat → Prop} {gone : Option Nat} {s : Workspace} {depth : Nat} {self : Self}

/-- Leaves the active window, also one that is about to go. -/
theorem setActiveClient_none_fine (htools : env.tools = []) (h : Sound σ live gone s) :
    Fine (fun t => Sound σ live none t ∧ Onward σ s t ∧ t.activeClient = none ∧ t.rest = s.rest)
      (setActiveClient σ env self depth none s) := by
  refine (setActiveClient_fine htools depth h.ordered (by simp)).mono fun t ht => ?_
  have ha : Activated σ none { s with active := s.active } t := ht
  exact ⟨ha.sound h (absurd rfl) (fun v hv => .inl ((h.agree v).mp hv)) (by simp), ha.onward (by simp), ha.activeClient, ha.rest⟩

/-- The calls that a window may be activated by: it is there. -/
def Call.named : Call → Option Nat
  | .requestFocus window _ | .activateClient window _ => window

/-- What calls come to. -/
def Safely (σ : Setting) (live : Nat → Prop) (s : Workspace) (x : Except Stop Workspace) : Prop :=
  Fine (fun t => Sound σ live none t ∧ Onward σ s t) x

/-- The calls of windows that are there do what is expected. -/
def Dutiful (σ : Setting) (live : Nat → Prop) (self : Self) : Prop :=
  ∀ call s, (∀ w, call.named = some w → live w) → Sound σ live none s → Safely σ live s (self call s)

theorem Safely.bind {x : Except Stop Workspace} {f : Workspace → Except Stop Workspace} (hx : Safely σ live s x)
    (hf : ∀ t, Sound σ live none t → Onward σ s t → Safely σ live t (f t)) : Safely σ live s (x >>= f) := by
  refine Safe.bind hx fun t ⟨ht, ho⟩ => ?_
  exact (hf t ht ho).mono fun u ⟨hu, ho'⟩ => ⟨hu, ho.trans ho'⟩

theorem Safely.ok (h : Sound σ live none s) : Safely σ live s (.ok s) := ⟨h, .refl⟩

/-- Only what is shown, and where, and whether the focus is blocked has changed before. -/
theorem Safely.of {t : Workspace} {x : Except Stop Workspace} (h : Safely σ live t x) (ho : Onward σ s t) :
    Safely σ live s x :=
  h.mono fun _ ⟨hu, ho'⟩ => ⟨hu, ho.trans ho'⟩

theorem setActive_wayland (htools : env.tools = []) {w : Nat} (h : Sound σ live none s) (hw : live w) (hk : σ.kind w = .wayland) :
    Safely σ live s (setActive σ env (setActiveClient σ env self depth) w true s) := by
  unfold setActive
  split
  · exact Safely.ok h
  · have ho : Ordered { s with active := Function.update s.active w true } := ⟨h.ordered.nodup, h.ordered.mem⟩
    refine Safe.bind (setActiveClient_fine htools depth ho ?_) fun t (ht : Activated σ (some w) _ t) => Fine.ok ?_
    · rintro v ⟨⟩
      exact Function.update_self ..
    · rw [if_neg fun hx => absurd (hk.symm.trans hx.1) (by simp)]
      refine ⟨ht.sound h (fun _ => rfl) (fun v hv => ?_) ?_, ht.onward ?_⟩
      · by_cases he : v = w
        · exact .inr (he ▸ rfl)
        · exact .inl ((h.agree v).mp (by simpa [he] using hv))
      · rintro v ⟨⟩
        exact ⟨Function.update_self .., hw, by simp [hk]⟩
      · rintro v ⟨⟩ hx
        exact absurd (hk.symm.trans hx) (by simp)

theorem setShowingDesktop_safely (hself : Dutiful σ live self) (hk : env.Known live) (h : Sound σ live none s) (showing : Bool) :
    Safely σ live s (setShowingDesktop env self showing s) := by
  have h' : Sound σ live none { s with showingDesktop := showing } := { h with ordered := ⟨h.ordered.nodup, h.ordered.mem⟩ }
  have ho : Onward σ s { s with showingDesktop := showing } := ⟨rfl, rfl, rfl, rfl, id, fun _ _ => id⟩
  unfold setShowingDesktop
  dsimp only
  refine Safely.of ?_ ho
  split
  · exact hself _ _ hk.desktopWindow h'
  · split
    · split
      · next client hc => exact hself _ _ (fun w hw => hk.forActivation w (hc.trans hw)) h'
      · exact Safely.ok h'
    · exact Safely.ok h'

theorem takeFocus_safely (hself : Dutiful σ live self) (hk : env.Known live) {w : Nat} (hw : live w)
    (h : Sound σ live none s) : Safely σ live s (takeFocus σ env depth self w s) := by
  unfold takeFocus
  split
  · next hx =>
    have hs : Sound σ live none (if env.acceptsFocus w then s else s.setDemandsAttention w false) := by
      split
      · exact h
      · exact h.demandAttention (by simp)
    have hr : (if env.acceptsFocus w then s else s.setDemandsAttention w false).rest = s.rest := by
      split
      · rfl
      · simp
    have hc : (if env.acceptsFocus w then s else s.setDemandsAttention w false).activeClient = s.activeClient := by
      split
      · rfl
      · simp
    generalize (if env.acceptsFocus w then s else s.setDemandsAttention w false) = t at hs hr hc
    have hs' : Sound σ live none (t.setShouldGetFocus w) := by
      refine { hs with ordered := ⟨hs.ordered.nodup, hs.ordered.mem⟩, should_live := fun v hv => ?_ }
      rcases List.mem_append.mp hv with hv | hv
      · exact hs.should_live v hv
      · obtain rfl := List.mem_singleton.mp hv
        exact ⟨hw, hx⟩
    have ho : Onward σ s (t.setShouldGetFocus w) := by
      refine ⟨(congrArg Workspace.allClients hr :), (congrArg Workspace.focusOutTimer hr :),
        (congrArg Workspace.blockFocus hr :), (congrArg Workspace.delayfocusClient hr :),
        fun ht => (congrArg Workspace.delayFocusTimer hr :).symm.trans ht, fun v _ hv => hc.symm.trans hv⟩
    dsimp only
    refine Safely.of ?_ ho
    split
    · exact setShowingDesktop_safely hself hk hs' false
    · exact Safely.ok hs'
  · next hx =>
    refine Safely.bind ?_ fun t ht _ => ?_
    · split
      · exact setActive_wayland hk.tools h hw hx
      · exact Safely.ok h
    · split
      · exact setShowingDesktop_safely hself hk ht false
      · exact Safely.ok ht
  · exact Safely.ok h

theorem requestFocus_safely (hself : Dutiful σ live self) (hk : env.Known live) {window : Option Nat}
    (hw : ∀ w, window = some w → live w) (force : Bool) (h : Sound σ live none s) :
    Safely σ live s (requestFocus σ env depth self window force s) := by
  unfold requestFocus
  dsimp only
  generalize (s.focusChangeEnabled || decide (s.activeClient = window)) = take
  cases window with
  | none => exact Safely.ok h
  | some w =>
    dsimp only
    have hmodal := hk.modalFor take w
    generalize env.modalFor take w = modal at hmodal
    have hlive : live (modal.getD w) := by
      cases modal with
      | none => exact hw w rfl
      | some m => exact hmodal m rfl
    refine Safely.bind ?_ fun t ht _ => ?_
    · cases modal with
      | none => exact Safely.ok h
      | some m =>
        show Safely σ live s (if _ then _ else _)
        split
        · exact hself _ _ hmodal h
        · exact Safely.ok h
    · have hs : Sound σ live none (if take then t.cancelDelayFocus else t) := by
        split
        · exact { ht with ordered := ⟨ht.ordered.nodup, ht.ordered.mem⟩, delay_live := by simp [Workspace.cancelDelayFocus] }
        · exact ht
      have ho : Onward σ t (if take then t.cancelDelayFocus else t) := by
        split
        · exact ⟨rfl, rfl, rfl, rfl, by simp [Workspace.cancelDelayFocus], fun _ _ => id⟩
        · exact .refl
      generalize (if take then t.cancelDelayFocus else t) = u at hs ho
      refine Safely.of ?_ ho
      split
      · exact takeFocus_safely hself hk hlive hs
      · exact Safely.ok hs

theorem activateClientOnNewDesktop_safely (hself : Dutiful σ live self) (hk : env.Known live) (h : Sound σ live none s) :
    Safely σ live s (activateClientOnNewDesktop σ env depth self s) := by
  unfold activateClientOnNewDesktop
  dsimp only
  have hfound : ∀ w, (if env.reasonable then env.forActivation
      else s.activeClient.filter fun w => s.shown w && s.onCurrentDesktop w) = some w → live w := by
    intro w hw
    split at hw
    · exact hk.forActivation w hw
    · exact (h.active_live w (Option.filter_eq_some_iff.mp hw).1).resolve_right fun hg => absurd hg.1 (by simp)
  generalize (if env.reasonable then env.forActivation
    else s.activeClient.filter fun w => s.shown w && s.onCurrentDesktop w) = found at hfound
  refine Safely.bind ?_ fun t ht _ => hself _ _ (fun w hw => ?_) ht
  · split
    · exact (setActiveClient_none_fine hk.tools h).mono fun t ht => ⟨ht.1, ht.2.1⟩
    · exact Safely.ok h
  · rcases Option.or_eq_some_iff.mp hw with hw | ⟨-, hw⟩
    · exact hfound w hw
    · exact hk.desktopWindow w hw

/-- An X11 window that another one is activated for is not the active one afterwards. -/
theorem activateNextClient_fine (hself : Dutiful σ live self) (hk : env.Known live) {window : Option Nat}
    (hg : ∀ w, gone = some w → window = some w) (h : Sound σ live gone s) :
    Fine (fun t => (Sound σ live none t ∧ Onward σ s t) ∧ ∀ w, window = some w → σ.kind w = .x11 → t.activeClient ≠ some w)
      (activateNextClient σ env depth self window s) := by
  unfold activateNextClient
  split
  · next hn =>
    rw [not_or] at hn
    refine Fine.ok ⟨⟨h.spared fun w hw hc => hn.1 ((hg w hw).trans hc.symm), .refl⟩, ?_⟩
    rintro w rfl - hc
    exact hn.1 hc.symm
  · have hleft : Fine (fun t => Sound σ live none t ∧ Onward σ s t ∧ (window ≠ none → t.activeClient ≠ window))
        (if window ≠ none ∧ window = s.activeClient then setActiveClient σ env self depth none s else .ok s) := by
      split
      · exact (setActiveClient_none_fine hk.tools h).mono fun t ht => ⟨ht.1, ht.2.1, fun hne => ht.2.2.1.trans_ne hne.symm⟩
      · next hn =>
        have hne (hw : window ≠ none) : s.activeClient ≠ window := fun e => hn ⟨hw, e.symm⟩
        refine Fine.ok ⟨h.spared fun w hw => ?_, .refl, hne⟩
        exact hg w hw ▸ hne (by simp [hg w hw])
    refine Safe.bind hleft fun t ⟨ht, ho, hne⟩ => ?_
    have hs : Sound σ live none { t with shouldGetFocus := t.shouldGetFocus.filter (some · ≠ window) } :=
      { ht with ordered := ⟨ht.ordered.nodup, ht.ordered.mem⟩, should_live := fun v hv => ht.should_live v (List.mem_filter.mp hv).1 }
    have ho' : Onward σ s { t with shouldGetFocus := t.shouldGetFocus.filter (some · ≠ window) } :=
      ho.trans ⟨rfl, rfl, rfl, rfl, id, fun _ _ => id⟩
    dsimp only
    change window ≠ none → { t with shouldGetFocus := t.shouldGetFocus.filter (some · ≠ window) }.activeClient ≠ window at hne
    generalize { t with shouldGetFocus := t.shouldGetFocus.filter (some · ≠ window) } = t' at hs ho' hne
    refine Safe.mono (P := fun u => Sound σ live none u ∧ Onward σ t' u) ?_ fun u ⟨hu, hou⟩ => ⟨⟨hu, ho'.trans hou⟩, ?_⟩
    · split
      · exact hself (.requestFocus env.next false) _ hk.next hs
      · exact Safely.ok hs
    · rintro w rfl hx hc
      exact hne (Option.some_ne_none w) (hou.activeClient w hx hc)

theorem Sound.turn (h : Sound σ live none s) (shown onCurrentDesktop : Nat → Bool) (blockFocus : Nat) :
    Sound σ live none { s with shown, onCurrentDesktop, blockFocus } :=
  { h with ordered := ⟨h.ordered.nodup, h.ordered.mem⟩ }

/-- The focus is not left blocked. -/
theorem Safely.unblock {f g : Workspace → Except Stop Workspace} (h : Sound σ live none s)
    (hg : ∀ t, Sound σ live none t → Safely σ live t (g t)) (hf : ∀ t, Sound σ live none t → Safely σ live t (f t)) :
    Safely σ live s (g { s with blockFocus := s.blockFocus + 1 } >>= fun t => f { t with blockFocus := t.blockFocus - 1 }) := by
  refine Safe.bind (hg _ (h.turn s.shown s.onCurrentDesktop (s.blockFocus + 1))) fun t ⟨ht, ho⟩ => ?_
  have hb : t.blockFocus - 1 = s.blockFocus := by
    rw [ho.blockFocus]
    rfl
  refine Safely.of (hf _ (ht.turn t.shown t.onCurrentDesktop (t.blockFocus - 1))) ?_
  exact ⟨ho.allClients, ho.focusOutTimer, hb, ho.delayfocusClient, ho.delayFocusTimer, ho.activeClient⟩

theorem updateClientVisibilityOnDesktopChange_safely (hself : Dutiful σ live self) (hk : env.Known live)
    (h : Sound σ live none s) : Safely σ live s (updateClientVisibilityOnDesktopChange σ env depth self s) := by
  have ho : Onward σ s { s with shown := env.switched, onCurrentDesktop := env.switchedTo } :=
    ⟨rfl, rfl, rfl, rfl, id, fun _ _ => id⟩
  refine Safely.bind (Safe.foldlM env.hidden (fun t w _ ⟨ht, ho⟩ => ?_) ⟨h.turn _ _ s.blockFocus, ho⟩) fun t ht _ => ?_
  · split
    · exact setShowingDesktop_safely hself hk ht false
    · exact Safely.ok ht
  · exact (activateNextClient_fine hself hk (by simp) ht).mono fun u ⟨⟨hu, ho'⟩, _⟩ => ⟨hu, ho.trans ho'⟩

theorem slotCurrentDesktopChanged_safely (hself : Dutiful σ live self) (hk : env.Known live) (h : Sound σ live none s) :
    Safely σ live s (slotCurrentDesktopChanged σ env depth self s) :=
  Safely.unblock h (fun _ => updateClientVisibilityOnDesktopChange_safely hself hk)
    fun _ => activateClientOnNewDesktop_safely hself hk

theorem activateClient_safely (hself : Dutiful σ live self) (hk : env.Known live) {window : Option Nat}
    (hw : ∀ w, window = some w → live w) (force : Bool) (h : Sound σ live none s) :
    Safely σ live s (activateClient σ env depth self window force s) := by
  unfold activateClient
  cases window with
  | none => exact (setActiveClient_none_fine hk.tools h).mono fun t ht => ⟨ht.1, ht.2.1⟩
  | some w =>
    refine Safely.bind ?_ fun t ht _ => ?_
    · split
      · exact Safely.ok h
      · exact Safely.unblock (f := .ok) h (fun _ => slotCurrentDesktopChanged_safely hself hk) fun _ => Safely.ok
    · have hs := ht.turn (Function.update t.shown w (env.shownAgain w)) t.onCurrentDesktop t.blockFocus
      have ho : Onward σ t { t with shown := Function.update t.shown w (env.shownAgain w) } :=
        ⟨rfl, rfl, rfl, rfl, id, fun _ _ => id⟩
      dsimp only
      refine Safely.of ?_ ho
      refine Safely.bind ?_ fun u hu _ => ?_
      · split
        · exact hself (.activateClient (some w) false) _ hw hs
        · exact Safely.ok hs
      · split
        · exact hself (.requestFocus (some w) force) _ hw hu
        · exact Safely.ok hu

theorem perform_dutiful (hk : env.Known live) (depth : Nat) : Dutiful σ live (perform σ env depth) := by
  induction depth with
  | zero => exact fun _ _ _ _ => Stop.noConfusion
  | succ depth ih =>
    intro call s hw h
    cases call with
    | requestFocus window force => exact requestFocus_safely ih hk hw force h
    | activateClient window force => exact activateClient_safely ih hk hw force h

end calls
end KWinFT.Activation
