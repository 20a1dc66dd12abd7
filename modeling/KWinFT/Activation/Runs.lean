import KWinFT.Activation.Calls

/-! Events one after the other. The active window and the pointers to windows stay sound, and the assertions on the active window
hold. -/
namespace KWinFT.Activation
open Lib

/-- Those that are there when an event has been dealt with, or when a window is about to go. -/
def Occasion.present (σ : Setting) (s : Workspace) : Event → List Nat
  | .removed w => if σ.kind w = .x11 then s.allClients else s.allClients.filter (· ≠ w)
  | _ => s.allClients

/-- Events are about windows that are there, and only X11 windows are told of the focus by the server. -/
def Event.Fits (σ : Setting) (s : Workspace) : Event → Prop
  | .focusIn w | .focusOut w => w ∈ s.allClients ∧ σ.kind w = .x11
  | .requestFocus window _ | .activateClient window _ => ∀ w, window = some w → w ∈ s.allClients
  | .demandAttention w _ => w ∈ s.allClients
  | .requestDelayFocus window => ∀ w, window = some w → w ∈ s.allClients ∧ σ.kind w ≠ .internal
  | .delayFocus => s.delayFocusTimer
  | _ => True

/-- The window that the server has given the focus to. -/
def Event.focused : Event → Option Nat
  | .focusIn w => some w
  | _ => none

def Regular (σ : Setting) (s : Workspace) (o : Occasion) : Prop :=
  o.env.Known (· ∈ Occasion.present σ s o.event) ∧ o.event.Fits σ s

/-- Between events nothing is about to go. -/
def Settled (σ : Setting) (s : Workspace) : Prop := Sound σ (· ∈ s.allClients) none s ∧ s.blockFocus = 0

/-- Of the X11 windows only this one may have become active. -/
def Granted (σ : Setting) (focused : Option Nat) (s s' : Workspace) : Prop :=
  ∀ v, σ.kind v = .x11 → s'.activeClient = some v → s.activeClient = some v ∨ focused = some v

section runs
variable {σ : Setting} {env : Surroundings} {s t : Workspace} {depth : Nat} {live : Nat → Prop}

theorem Sound.mono {gone : Option Nat} {live' : Nat → Prop} (h : Sound σ live gone s) (hl : ∀ v, live v → live' v) :
    Sound σ live' gone s :=
  { h with
    active_live := fun v hv => (h.active_live v hv).imp_left (hl v)
    last_live := fun v hv => hl v (h.last_live v hv)
    should_live := fun v hv => (h.should_live v hv).imp_left (hl v)
    attention_live := fun v hv hx => hl v (h.attention_live v hv hx)
    delay_live := fun ht v hv => (h.delay_live ht v hv).imp_left (hl v)
    timer_live := fun v hv => (h.timer_live v hv).imp_left (hl v) }

theorem Sound.cancelDelayFocus {gone : Option Nat} (h : Sound σ live gone s) : Sound σ live gone s.cancelDelayFocus :=
  { h with ordered := ⟨h.ordered.nodup, h.ordered.mem⟩, delay_live := fun hd => absurd hd Bool.false_ne_true }

theorem Onward.granted (h : Onward σ s t) (focused : Option Nat) : Granted σ focused s t :=
  fun v hv hc => .inl (h.activeClient v hv hc)

theorem Safely.settled {x : Except Stop Workspace} (h : Safely σ (· ∈ s.allClients) s x) (hb : s.blockFocus = 0)
    (focused : Option Nat) : Fine (fun t => Settled σ t ∧ Granted σ focused s t) x :=
  h.mono fun _ ⟨ht, ho⟩ => ⟨⟨ho.allClients ▸ ht, ho.blockFocus.trans hb⟩, ho.granted focused⟩

theorem restoreFocus_safely (hk : env.Known live) (h : Sound σ live none s) : Safely σ live s (restoreFocus σ env depth s) := by
  unfold restoreFocus
  split
  · exact perform_dutiful hk depth _ _ (fun w hw => (h.should_live w (List.mem_of_getLast? hw)).1) h
  · split
    · exact perform_dutiful hk depth _ _ h.last_live h
    · exact Safely.ok h

theorem Sound.gotFocusIn (h : Sound σ live none s) (w : Nat) : Sound σ live none (s.gotFocusIn w) := by
  unfold Workspace.gotFocusIn
  split
  · refine { h with ordered := ⟨h.ordered.nodup, h.ordered.mem⟩, should_live := fun v hv => h.should_live v ?_ }
    exact (List.dropWhile_suffix _).mem (List.mem_of_mem_tail hv)
  · exact h

/-- What also events keep by which X11 windows become active. -/
def Stays (σ : Setting) (live : Nat → Prop) (focused : Option Nat) (s : Workspace) (x : Except Stop Workspace) : Prop :=
  Fine (fun t => Sound σ live none t ∧ t.allClients = s.allClients ∧ t.blockFocus = s.blockFocus ∧ Granted σ focused s t) x

theorem Granted.refl {focused : Option Nat} : Granted σ focused s s := fun _ _ => .inl

theorem Safely.stays {x : Except Stop Workspace} (h : Safely σ live s x) (focused : Option Nat) : Stays σ live focused s x :=
  h.mono fun _ ⟨ht, ho⟩ => ⟨ht, ho.allClients, ho.blockFocus, ho.granted focused⟩

/-- An X11 window may demand attention again. -/
theorem setActive_stays (htools : env.tools = []) {self : Self} {w : Nat} {active : Bool} (h : Sound σ live none s)
    (hw : active → live w ∧ σ.kind w ≠ .internal) :
    Stays σ live (if active then some w else none) s (setActive σ env (setActiveClient σ env self depth) w active s) := by
  unfold setActive
  by_cases hne : s.active w = active
  · rw [if_pos hne]
    exact ⟨h, rfl, rfl, .refl⟩
  · rw [if_neg hne]
    have hlive : live w := by
      cases active with
      | true => exact (hw rfl).1
      | false =>
        refine (h.active_live w ((h.agree w).mp (by simpa using hne))).resolve_right fun hg => ?_
        exact absurd hg.1 (by simp)
    have ho : Ordered { s with active := Function.update s.active w active } := ⟨h.ordered.nodup, h.ordered.mem⟩
    have hflag : ∀ v, (if active then some w else none) = some v → v = w ∧ active := by
      intro v hv
      cases active with
      | true => exact ⟨(Option.some.inj hv).symm, rfl⟩
      | false => exact absurd hv.symm (Option.some_ne_none v)
    refine Safe.bind (setActiveClient_fine htools depth ho fun v hv => ?_) fun t (ht : Activated σ _ _ t) => ?_
    · obtain ⟨rfl, ha⟩ := hflag v hv
      exact (Function.update_self ..).trans ha
    · have hs : Sound σ live none t := by
        refine ht.sound h (fun _ => rfl) (fun v hv => ?_) fun v hv => ?_
        · by_cases he : v = w
          · subst he
            rw [Function.update_self] at hv
            exact .inr (if_pos hv)
          · exact .inl ((h.agree v).mp (by simpa [he] using hv))
        · obtain ⟨rfl, ha⟩ := hflag v hv
          exact ⟨(Function.update_self ..).trans ha, hw ha⟩
      have hrest : t.rest = s.rest := ht.rest
      have hall : t.allClients = s.allClients := (congrArg Workspace.allClients hrest :)
      have hblock : t.blockFocus = s.blockFocus := (congrArg Workspace.blockFocus hrest :)
      have hgrant : Granted σ (if active then some w else none) s t := fun v _ hv => .inr (ht.activeClient.symm.trans hv)
      by_cases hurgent : σ.kind w = .x11 ∧ env.urgent w
      · rw [if_pos hurgent]
        have hd := Workspace.setDemandsAttention_rest t w true
        refine ⟨hs.demandAttention fun _ _ => hlive, ?_, ?_, fun v hx hv => hgrant v hx ?_⟩
        · exact (congrArg Workspace.allClients hd :).trans hall
        · exact (congrArg Workspace.blockFocus hd :).trans hblock
        · exact (Workspace.setDemandsAttention_activeClient t w true).symm.trans hv
      · rw [if_neg hurgent]
        exact ⟨hs, hall, hblock, hgrant⟩

theorem Workspace.gotFocusIn_allClients (s : Workspace) (w : Nat) : (s.gotFocusIn w).allClients = s.allClients := by
  unfold Workspace.gotFocusIn
  split <;> rfl

theorem Workspace.gotFocusIn_activeClient (s : Workspace) (w : Nat) : (s.gotFocusIn w).activeClient = s.activeClient := by
  unfold Workspace.gotFocusIn
  split <;> rfl

theorem Workspace.gotFocusIn_blockFocus (s : Workspace) (w : Nat) : (s.gotFocusIn w).blockFocus = s.blockFocus := by
  unfold Workspace.gotFocusIn
  split <;> rfl

theorem focusInEvent_stays (hk : env.Known live) {w : Nat} (hw : live w) (hx : σ.kind w = .x11) (h : Sound σ live none s) :
    Stays σ live (some w) s (focusInEvent σ env depth w s) := by
  unfold focusInEvent
  split
  · exact ⟨h, rfl, rfl, .refl⟩
  · dsimp only
    generalize hq : { s with focusOutTimer := fun v => if σ.kind v = Kind.x11 then false else s.focusOutTimer v } = q
    have hs : Sound σ live none q := by
      subst hq
      refine { h with ordered := ⟨h.ordered.nodup, h.ordered.mem⟩, timer_live := fun v hv => h.timer_live v ?_ }
      dsimp only at hv
      split at hv
      · exact absurd hv Bool.false_ne_true
      · exact hv
    have hg := hs.gotFocusIn w
    have hall : (q.gotFocusIn w).allClients = s.allClients := (q.gotFocusIn_allClients w).trans (hq ▸ rfl)
    have hblock : (q.gotFocusIn w).blockFocus = s.blockFocus := (q.gotFocusIn_blockFocus w).trans (hq ▸ rfl)
    have hactive : (q.gotFocusIn w).activeClient = s.activeClient := (q.gotFocusIn_activeClient w).trans (hq ▸ rfl)
    split
    · refine (setActive_stays hk.tools hg fun _ => ⟨hw, by simp [hx]⟩).mono fun t ⟨ht, hall', hblock', hgrant⟩ => ?_
      exact ⟨ht, hall'.trans hall, hblock'.trans hblock, fun v hv hc => (hgrant v hv hc).imp_left hactive.symm.trans⟩
    · refine Safe.bind ((restoreFocus_safely hk hg).stays (some w)) fun t ⟨ht, hall', hblock', hgrant⟩ => ?_
      have hd := Workspace.setDemandsAttention_rest t w true
      refine ⟨ht.demandAttention fun _ _ => hw, ?_, ?_, fun v hv hc => ?_⟩
      · exact ((congrArg Workspace.allClients hd :).trans hall').trans hall
      · exact ((congrArg Workspace.blockFocus hd :).trans hblock').trans hblock
      · exact (hgrant v hv ((Workspace.setDemandsAttention_activeClient ..).symm.trans hc)).imp_left hactive.symm.trans

/-- What is left when the window is not among the windows any more. -/
theorem Sound.remove {gone : Option Nat} {w : Nat} {all : List Nat} (h : Sound σ (· ∈ all) gone s)
    (hw : s.activeClient = some w → gone = some w ∧ σ.kind w ≠ .x11) (hlast : s.lastActiveClient ≠ some w)
    (hshould : w ∉ s.shouldGetFocus) (hattention : s.demandsAttention w → σ.kind w ≠ .x11)
    (hdelay : s.delayFocusTimer → s.delayfocusClient ≠ some w) (htimer : ¬ s.focusOutTimer w) :
    Sound σ (· ∈ all.filter (· ≠ w)) gone s := by
  have left (v : Nat) (hv : v ∈ all) (hne : v ≠ w) : v ∈ all.filter (· ≠ w) := List.mem_filter.mpr ⟨hv, decide_eq_true hne⟩
  refine
    { h with
      active_live := fun v hv => ?_
      last_live := fun v hv => left v (h.last_live v hv) ?_
      should_live := fun v hv => (h.should_live v hv).imp_left fun hl => left v hl ?_
      attention_live := fun v hv hx => left v (h.attention_live v hv hx) ?_
      delay_live := fun ht v hv => (h.delay_live ht v hv).imp_left fun hl => left v hl ?_
      timer_live := fun v hv => (h.timer_live v hv).imp_left fun hl => left v hl ?_ }
  · by_cases he : v = w
    · subst he
      exact .inr (hw hv)
    · exact (h.active_live v hv).imp_left fun hl => left v hl he
  · rintro rfl
    exact hlast hv
  · rintro rfl
    exact hshould hv
  · rintro rfl
    exact hattention hv hx
  · rintro rfl
    exact hdelay ht hv
  · rintro rfl
    exact htimer hv

theorem Sound.forget {w : Nat} (h : Sound σ live none s) (hw : s.activeClient ≠ some w) : Sound σ live none (s.forget w) := by
  have hlast (v : Nat) : (s.forget w).lastActiveClient = some v ↔ s.lastActiveClient = some v ∧ v ≠ w := by
    show (if s.lastActiveClient = some w then none else s.lastActiveClient) = some v ↔ _
    split
    · next hc => simp [hc, eq_comm]
    · next hc => exact ⟨fun hv => ⟨hv, fun e => hc (e ▸ hv)⟩, And.left⟩
  have hdemands (v : Nat) : (s.forget w).demandsAttention v ↔ s.demandsAttention v ∧ v ≠ w := update_false_iff ..
  refine
    { h with
      calm := fun v hv hd => h.calm v hv ((hdemands v).mp hd).1
      ordered := ⟨h.ordered.nodup.filter _, fun v => ?_⟩
      remembered := fun v hv => .inl ((hlast v).mpr ⟨?_, ?_⟩)
      last_live := fun v hv => h.last_live v ((hlast v).mp hv).1
      external := fun v hv => h.external v (hv.imp_right fun e => ((hlast v).mp e).1)
      should_live := fun v hv => h.should_live v (List.mem_filter.mp hv).1
      attention_live := fun v hv hx => h.attention_live v ((hdemands v).mp hv).1 hx
      timer_live := fun v hv => h.timer_live v ((update_false_iff _ w v).mp hv).1 }
  · rw [hdemands, ← h.ordered.mem]
    exact List.mem_filter.trans (and_congr_right' decide_eq_true_iff)
  · exact (h.remembered v hv).resolve_right (by simp)
  · rintro rfl
    exact hw hv

/-- The released window is not the active one any more. -/
theorem removeClient_fine {w : Nat} (hk : env.Known (· ∈ s.allClients)) (hx : σ.kind w = .x11) (h : Settled σ s) :
    Fine (fun t => Settled σ t ∧ Granted σ none s t) (removeClient σ env depth w s) := by
  have h' := h.1.turn (Function.update s.shown w false) s.onCurrentDesktop s.blockFocus
  refine Safe.bind (activateNextClient_fine (perform_dutiful hk depth) hk (by simp) h') fun t ⟨⟨ht, ho⟩, hne⟩ => ?_
  have hw := hne w rfl hx
  rw [if_neg hw]
  have hall : t.allClients = s.allClients := ho.allClients
  have hblock : t.blockFocus = 0 := ho.blockFocus.trans h.2
  rw [← hall] at ht
  have hf := ht.forget hw
  have hlast : (t.forget w).lastActiveClient ≠ some w := by
    show (if t.lastActiveClient = some w then none else t.lastActiveClient) ≠ some w
    split
    · exact (Option.some_ne_none w).symm
    · assumption
  have hshould : w ∉ (t.forget w).shouldGetFocus := fun hm => of_decide_eq_true (List.mem_filter.mp hm).2 rfl
  have hattention : (t.forget w).demandsAttention w → σ.kind w ≠ .x11 := fun hd => absurd rfl ((update_false_iff _ w w).mp hd).2
  have htimer : ¬ (t.forget w).focusOutTimer w := fun hd => ((update_false_iff _ w w).mp hd).2 rfl
  refine Fine.ok ?_
  split
  · refine ⟨⟨?_, hblock⟩, ho.granted none⟩
    have hr := hf.cancelDelayFocus.remove (absurd · hw) hlast hshould hattention (fun hd => absurd hd Bool.false_ne_true) htimer
    exact { hr with ordered := ⟨hr.ordered.nodup, hr.ordered.mem⟩ }
  · next hd =>
    have hr := hf.remove (absurd · hw) hlast hshould hattention (fun _ => hd) htimer
    exact ⟨⟨{ hr with ordered := ⟨hr.ordered.nodup, hr.ordered.mem⟩ }, hblock⟩, ho.granted none⟩

/-- The window may be the active one until the next one is looked for. -/
theorem windowRemoved_fine {w : Nat} (hk : env.Known (· ∈ s.allClients.filter (· ≠ w))) (hx : σ.kind w = .wayland)
    (h : Settled σ s) : Fine (fun t => Settled σ t ∧ Granted σ none s t) (windowRemoved σ env depth w s) := by
  have hnot : σ.kind w ≠ .x11 := by simp [hx]
  have hs : Sound σ (· ∈ s.allClients) (some w)
      { s with lastActiveClient := if s.lastActiveClient = some w then none else s.lastActiveClient } := by
    have hlast (v : Nat) (hv : (if s.lastActiveClient = some w then none else s.lastActiveClient) = some v) :
        s.lastActiveClient = some v := by
      split at hv
      · exact absurd hv.symm (Option.some_ne_none v)
      · exact hv
    refine
      { h.1 with
        ordered := ⟨h.1.ordered.nodup, h.1.ordered.mem⟩
        remembered := fun v hv => ?_
        active_live := fun v hv => .inl ((h.1.active_live v hv).resolve_right (by simp))
        last_live := fun v hv => h.1.last_live v (hlast v hv)
        external := fun v hv => h.1.external v (hv.imp_right (hlast v)) }
    have hr := (h.1.remembered v hv).resolve_right (by simp)
    by_cases he : v = w
    · exact .inr (he ▸ rfl)
    · refine .inl ((if_neg fun hc => he ?_).trans hr)
      exact Option.some.inj (hr.symm.trans hc)
  have hlast : (if s.lastActiveClient = some w then none else s.lastActiveClient) ≠ some w := by
    split
    · exact (Option.some_ne_none w).symm
    · assumption
  have hshould : w ∉ s.shouldGetFocus := fun hm => hnot (h.1.should_live w hm).2
  have htimer : ¬ s.focusOutTimer w := fun ht => hnot (h.1.timer_live w ht).2
  have hgone : ∀ t, Sound σ (· ∈ s.allClients.filter (· ≠ w)) (some w) t → t.allClients = s.allClients.filter (· ≠ w) →
      t.blockFocus = 0 → t.activeClient = s.activeClient →
      Fine (fun t => Settled σ t ∧ Granted σ none s t)
        (activateNextClient σ env depth (perform σ env depth) (some w) t) := by
    intro t ht hall hblock hactive
    refine (activateNextClient_fine (perform_dutiful hk depth) hk (fun _ => id) ht).mono fun u ⟨⟨hu, ho⟩, _⟩ => ?_
    refine ⟨⟨(ho.allClients.trans hall).symm ▸ hu, ho.blockFocus.trans hblock⟩, fun v hv hc => .inl ?_⟩
    exact hactive.symm.trans (ho.activeClient v hv hc)
  unfold windowRemoved
  dsimp only
  split
  · have hr := hs.cancelDelayFocus.remove (fun _ => ⟨rfl, hnot⟩) hlast hshould (fun _ => hnot)
      (fun hd => absurd hd Bool.false_ne_true) htimer
    exact hgone _ { hr with ordered := ⟨hr.ordered.nodup, hr.ordered.mem⟩ } rfl h.2 rfl
  · next hd =>
    have hr := hs.remove (fun _ => ⟨rfl, hnot⟩) hlast hshould (fun _ => hnot) (fun _ => hd) htimer
    exact hgone _ { hr with ordered := ⟨hr.ordered.nodup, hr.ordered.mem⟩ } rfl h.2 rfl

theorem respond_fine {o : Occasion} (h : Settled σ s) (hr : Regular σ s o) :
    Fine (fun t => Settled σ t ∧ Granted σ o.event.focused s t) (respond σ o.depth s o.env o.event) := by
  obtain ⟨hk, hf⟩ := hr
  obtain ⟨depth, env, event⟩ := o
  cases event with
  | added w =>
    have hm : Sound σ (· ∈ s.allClients ++ [w]) none s := h.1.mono fun v hv => List.mem_append_left _ hv
    exact ⟨⟨{ hm with ordered := ⟨hm.ordered.nodup, hm.ordered.mem⟩ }, h.2⟩, .refl⟩
  | removed w =>
    unfold respond
    dsimp only
    split
    · next hx => exact removeClient_fine (by simpa [Occasion.present, hx] using hk) hx h
    · next hx => exact windowRemoved_fine (by simpa [Occasion.present, hx] using hk) hx h
    · next hx =>
      -- no pointer of the workspace leads to an internal window
      have hr := h.1.remove (w := w) (fun hc => absurd hx (h.1.external w (.inl hc))) (fun hc => h.1.external w (.inr hc) hx)
        (fun hm => absurd ((h.1.should_live w hm).2.symm.trans hx) (by simp)) (fun _ => by simp [hx])
        (fun hd hc => (h.1.delay_live hd w hc).2 hx) fun ht => absurd ((h.1.timer_live w ht).2.symm.trans hx) (by simp)
      exact ⟨⟨{ hr with ordered := ⟨hr.ordered.nodup, hr.ordered.mem⟩ }, h.2⟩, .refl⟩
  | focusIn w =>
    refine (focusInEvent_stays hk hf.1 hf.2 h.1).mono fun t ⟨ht, hall, hblock, hgrant⟩ => ?_
    exact ⟨⟨hall ▸ ht, hblock.trans h.2⟩, hgrant⟩
  | focusOut w =>
    refine ⟨⟨{ h.1 with ordered := ⟨h.1.ordered.nodup, h.1.ordered.mem⟩, timer_live := fun v hv => ?_ }, h.2⟩, .refl⟩
    by_cases he : v = w
    · exact he ▸ hf
    · exact h.1.timer_live v (by simpa [he] using hv)
  | focusOutTimeout w =>
    have hs : Sound σ (· ∈ s.allClients) none { s with focusOutTimer := Function.update s.focusOutTimer w false } :=
      { h.1 with
        ordered := ⟨h.1.ordered.nodup, h.1.ordered.mem⟩
        timer_live := fun v hv => h.1.timer_live v ((update_false_iff _ w v).mp hv).1 }
    refine (setActive_stays hk.tools hs fun e => absurd e Bool.false_ne_true).mono fun t ⟨ht, hall, hblock, hgrant⟩ => ?_
    exact ⟨⟨hall ▸ ht, hblock.trans h.2⟩, hgrant⟩
  | requestFocus window force =>
    exact (perform_dutiful hk depth (.requestFocus window force) _ hf h.1).settled h.2 none
  | activateClient window force =>
    exact (perform_dutiful hk depth (.activateClient window force) _ hf h.1).settled h.2 none
  | activateNextClient window =>
    refine (activateNextClient_fine (perform_dutiful hk depth) hk (by simp) h.1).mono fun t ⟨⟨ht, ho⟩, _⟩ => ?_
    exact ⟨⟨ho.allClients ▸ ht, ho.blockFocus.trans h.2⟩, ho.granted _⟩
  | currentDesktopChanged => exact (slotCurrentDesktopChanged_safely (perform_dutiful hk depth) hk h.1).settled h.2 none
  | setShowingDesktop showing => exact (setShowingDesktop_safely (perform_dutiful hk depth) hk h.1 showing).settled h.2 none
  | demandAttention w demand =>
    have hd := Workspace.setDemandsAttention_rest s w demand
    have hall : (s.setDemandsAttention w demand).allClients = s.allClients := (congrArg Workspace.allClients hd :)
    refine ⟨⟨?_, (congrArg Workspace.blockFocus hd :).trans h.2⟩, fun v _ hv => .inl ?_⟩
    · rw [hall]
      exact h.1.demandAttention fun _ _ => hf
    · exact (Workspace.setDemandsAttention_activeClient ..).symm.trans hv
  | requestDelayFocus window =>
    exact ⟨⟨{ h.1 with ordered := ⟨h.1.ordered.nodup, h.1.ordered.mem⟩, delay_live := fun _ => hf }, h.2⟩, .refl⟩
  | cancelDelayFocus => exact ⟨⟨h.1.cancelDelayFocus, h.2⟩, .refl⟩
  | delayFocus =>
    have hw : ∀ w, s.delayfocusClient = some w → w ∈ s.allClients := fun w hw => (h.1.delay_live hf w hw).1
    have hp := (perform_dutiful hk depth (.requestFocus s.delayfocusClient false) _ hw h.1).settled h.2 none
    exact Safe.bind hp fun t ⟨ht, hgrant⟩ => ⟨⟨ht.1.cancelDelayFocus, ht.2⟩, hgrant⟩
  | rearranged shown onCurrentDesktop => exact ⟨⟨h.1.turn shown onCurrentDesktop s.blockFocus, h.2⟩, .refl⟩

theorem start_settled : Settled σ {} := by
  refine ⟨⟨?_, ?_, ⟨List.nodup_nil, ?_⟩, ?_, ?_, ?_, ?_, ?_, ?_, ?_, ?_⟩, rfl⟩ <;> simp

/-- In every run of such events the flags agree with the one active window, which does not demand attention, those that do are
listed once each, no pointer of the workspace leads to a window that is gone, and the focus is not left blocked. No assertion on
the active window fails, and an X11 window becomes the active one only when the server reports that it got the focus. -/
theorem runs_settled (h : Reachable (step σ) (Regular σ) {} s) : Settled σ s ∧
    ∀ o, Regular σ s o → respond σ o.depth s o.env o.event ≠ .error .assertion ∧
      ∀ t, respond σ o.depth s o.env o.event = .ok t → Granted σ o.event.focused s t := by
  have hs : Settled σ s := by
    refine h.invariant (Settled σ) start_settled fun s o t hs hr ht => ?_
    have hfine := respond_fine hs hr
    unfold step at ht
    cases hres : respond σ o.depth s o.env o.event with
    | error e => simp [hres, Except.toOption] at ht
    | ok u =>
      obtain rfl : u = t := by simpa [hres, Except.toOption] using ht
      exact (hfine.of_ok hres).1
  exact ⟨hs, fun o hr => ⟨(respond_fine hs hr).not_error rfl, fun t ht => ((respond_fine hs hr).of_ok ht).2⟩⟩

/-! A Wayland window, an X11 window that gets the focus from it, and the release of the latter. -/

def pair : Setting := ⟨fun w => if w = 0 then .x11 else .wayland, fun a b => (a - b).toNat⟩

/-- No rules and no other windows. -/
def plain : Surroundings :=
  ⟨true, fun _ => none, fun _ => false, fun _ => false, fun _ => true, fun _ => false, fun _ => false, fun _ => true,
    fun _ => false, [], fun _ => true, fun _ => true, [], none, none, none, false, fun _ => .low, fun _ => .medium, fun _ => true, fun _ => 1,
    fun _ => false, fun _ _ => false⟩

def arrivals : List Event :=
  [.added 0, .added 1, .rearranged (fun _ => true) fun _ => true, .activateClient (some 1) false, .requestFocus (some 0) false,
    .focusIn 0]

private theorem plain_known (live : Nat → Prop) : plain.Known live := by
  constructor <;> simp [plain]

instance (σ : Setting) (s : Workspace) : (e : Event) → Decidable (e.Fits σ s)
  | .focusIn w | .focusOut w => inferInstanceAs (Decidable (w ∈ s.allClients ∧ σ.kind w = .x11))
  | .requestFocus window _ | .activateClient window _ => inferInstanceAs (Decidable (∀ w ∈ window, w ∈ s.allClients))
  | .demandAttention w _ => inferInstanceAs (Decidable (w ∈ s.allClients))
  | .requestDelayFocus window => inferInstanceAs (Decidable (∀ w ∈ window, w ∈ s.allClients ∧ σ.kind w ≠ .internal))
  | .delayFocus => inferInstanceAs (Decidable (s.delayFocusTimer = true))
  | .added _ | .removed _ | .focusOutTimeout _ | .activateNextClient _ | .currentDesktopChanged | .setShowingDesktop _
  | .cancelDelayFocus | .rearranged .. => .isTrue trivial

private theorem arrive {s : Workspace} (h : Reachable (fun s e => step pair s ⟨9, plain, e⟩) (fun s e => e.Fits pair s) {} s) :
    Reachable (step pair) (Regular pair) {} s := by
  induction h with
  | init => exact .init
  | step e _ hok hs ih => exact .step ⟨9, plain, e⟩ ih ⟨plain_known _, hok⟩ hs

/-- The X11 window is active when it is released. -/
theorem released_settled : ∃ s, s.activeClient = some 0 ∧ Settled pair s ∧
    respond pair 9 s plain (.removed 0) ≠ .error .assertion := by
  have hrun : (execute (fun s e => if e.Fits pair s then step pair s ⟨9, plain, e⟩ else none) {} arrivals).any
      fun s => s.activeClient = some 0 := by decide +kernel
  obtain ⟨s, hs, hactive⟩ := (Option.any_eq_true _ _).mp hrun
  obtain ⟨hsettled, hstep⟩ := runs_settled (arrive (Reachable.init.executeOk arrivals hs))
  exact ⟨s, of_decide_eq_true hactive, hsettled, (hstep ⟨9, plain, .removed 0⟩ ⟨plain_known _, trivial⟩).1⟩

end runs
end KWinFT.Activation
