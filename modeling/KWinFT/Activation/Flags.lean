import KWinFT.Activation.Workspace
import Mathlib.Tactic.SplitIfs

/-! What a change of the active window does to the flags of the windows, however deep the flag and the workspace call each
other. -/
namespace KWinFT.Activation
open Lib

/-- No assertion fails. -/
abbrev Fine (P : Workspace → Prop) (x : Except Stop Workspace) : Prop := Safe (· = .assertion) P x

/-- The windows that demand attention are listed once each. -/
structure Ordered (s : Workspace) : Prop where
  nodup : s.attentionChain.Nodup
  mem : ∀ v, v ∈ s.attentionChain ↔ s.demandsAttention v

namespace Workspace

/-- What flags and the active window are not part of. -/
def rest (s : Workspace) : Workspace :=
  { s with
    active := fun _ => false, demandsAttention := fun _ => false, attentionChain := [], activeClient := none,
    lastActiveClient := none }

@[simp] theorem setDemandsAttention_rest (s : Workspace) (w : Nat) (demand : Bool) :
    (s.setDemandsAttention w demand).rest = s.rest := by
  unfold setDemandsAttention
  dsimp only
  split <;> rfl

@[simp] theorem setDemandsAttention_active (s : Workspace) (w : Nat) (demand : Bool) :
    (s.setDemandsAttention w demand).active = s.active := by
  unfold setDemandsAttention
  dsimp only
  split <;> rfl

@[simp] theorem setDemandsAttention_activeClient (s : Workspace) (w : Nat) (demand : Bool) :
    (s.setDemandsAttention w demand).activeClient = s.activeClient := by
  unfold setDemandsAttention
  dsimp only
  split <;> rfl

@[simp] theorem setDemandsAttention_lastActiveClient (s : Workspace) (w : Nat) (demand : Bool) :
    (s.setDemandsAttention w demand).lastActiveClient = s.lastActiveClient := by
  unfold setDemandsAttention
  dsimp only
  split <;> rfl

/-- The active window never demands attention. -/
theorem setDemandsAttention_demandsAttention (s : Workspace) (w : Nat) (demand : Bool) :
    (s.setDemandsAttention w demand).demandsAttention =
      Function.update s.demandsAttention w (demand && !s.active w) := by
  unfold setDemandsAttention
  dsimp only
  split
  · next h => rw [← h, Function.update_eq_self]
  · rfl

end Workspace

theorem Ordered.setDemandsAttention {s : Workspace} (h : Ordered s) (w : Nat) (demand : Bool) :
    Ordered (s.setDemandsAttention w demand) := by
  unfold Workspace.setDemandsAttention
  dsimp only
  split
  · exact h
  · generalize (demand && !s.active w) = d
    unfold Workspace.clientAttentionChanged
    dsimp only
    have hmem (v : Nat) : v ∈ s.attentionChain.filter (· ≠ w) ↔ s.demandsAttention v ∧ v ≠ w := by
      rw [List.mem_filter, h.mem, decide_eq_true_eq]
    refine ⟨?_, fun v => ?_⟩
    · cases d with
      | false => exact h.nodup.filter _
      | true => exact List.nodup_cons.mpr ⟨fun hw => ((hmem w).mp hw).2 rfl, h.nodup.filter _⟩
    · by_cases hv : v = w
      · subst hv
        cases d <;> simp
      · cases d <;> simp [hv, h.mem]

/-- The window is the active one, and a former active window has lost its flag. -/
structure Activated (σ : Setting) (window : Option Nat) (s s' : Workspace) : Prop where
  rest : s'.rest = s.rest
  ordered : Ordered s'
  activeClient : s'.activeClient = window
  active : ∀ v, s'.active v ↔ s.active v ∧ (s.activeClient = some v → window = some v)
  last : s'.lastActiveClient = if s.activeClient = window then s.lastActiveClient else window.or s.lastActiveClient
  calm : ∀ v, s'.demandsAttention v → window = some v → s.activeClient = some v ∧ s.demandsAttention v
  demands : ∀ v, s'.demandsAttention v → s.demandsAttention v ∨ σ.kind v = .x11 ∧ s.activeClient = some v

/-- The flag of a window is gone, be it the active one or not. -/
structure Deactivated (σ : Setting) (w : Nat) (s s' : Workspace) : Prop where
  rest : s'.rest = s.rest
  ordered : Ordered s'
  active : ∀ v, s'.active v ↔ s.active v ∧ v ≠ w
  last : s'.lastActiveClient = s.lastActiveClient
  demands : ∀ v, s'.demandsAttention v → s.demandsAttention v ∨ σ.kind v = .x11 ∧ v = w

section flags
variable {σ : Setting} {env : Surroundings}

theorem Fine.ok {P : Workspace → Prop} {s : Workspace} (h : P s) : Fine P (.ok s) := h

theorem update_false_iff (f : Nat → Bool) (w v : Nat) : Function.update f w false v ↔ f v ∧ v ≠ w := by
  by_cases hv : v = w
  · simp [hv]
  · simp [hv]

/-- Taking the flag from the active window comes back here with none, and the flag is gone already. -/
theorem setActive_false_fine {self : Option Nat → Workspace → Except Stop Workspace}
    (hself : ∀ s, Ordered s → Fine (Activated σ none s) (self none s)) {w : Nat} {s : Workspace} (ho : Ordered s)
    (hw : s.activeClient = some w) : Fine (Deactivated σ w s) (setActive σ env self w false s) := by
  unfold setActive
  split
  · next h => exact Fine.ok ⟨rfl, ho, fun v => ⟨fun hv => ⟨hv, fun e => by simp [e, h] at hv⟩, (·.1)⟩, rfl, fun _ => .inl⟩
  · refine Safe.bind (hself { s with active := Function.update s.active w false } ⟨ho.nodup, ho.mem⟩) fun t ht => Fine.ok ?_
    have hactive (v : Nat) : t.active v ↔ s.active v ∧ v ≠ w := by
      rw [ht.active, update_false_iff]
      refine ⟨(·.1), fun h => ⟨h, fun e => absurd (Option.some.inj (hw.symm.trans e)).symm h.2⟩⟩
    have hlast : t.lastActiveClient = s.lastActiveClient := ht.last.trans (ite_self _)
    have hdemands (v : Nat) (hv : t.demandsAttention v) : s.demandsAttention v ∨ σ.kind v = .x11 ∧ v = w :=
      (ht.demands v hv).imp_right fun h => ⟨h.1, (Option.some.inj (hw.symm.trans h.2)).symm⟩
    split
    · next hx =>
      refine ⟨?_, ht.ordered.setDemandsAttention w true, ?_, ?_, fun v hv => ?_⟩
      · exact (Workspace.setDemandsAttention_rest ..).trans ht.rest
      · simpa using hactive
      · simpa using hlast
      · rw [Workspace.setDemandsAttention_demandsAttention] at hv
        by_cases he : v = w
        · exact .inr ⟨he ▸ hx.1, he⟩
        · exact hdemands v (by simpa [he] using hv)
    · exact ⟨ht.rest, ht.ordered, hactive, hlast, hdemands⟩

/-- The window itself does not demand attention any more. -/
private theorem demands_attended (t : Workspace) (w : Nat) :
    ∀ v, ({ t with activeClient := some w, lastActiveClient := some w }.setDemandsAttention w false).demandsAttention v ↔
      t.demandsAttention v ∧ v ≠ w := by
  intro v
  rw [Workspace.setDemandsAttention_demandsAttention, Bool.false_and, update_false_iff]

/-- The assertion that the new active window has its flag holds when the caller has set it. -/
theorem setActiveClient_fine {self : Self} (htools : env.tools = []) (depth : Nat) {window : Option Nat} {s : Workspace}
    (ho : Ordered s) (hw : ∀ w, window = some w → s.active w) :
    Fine (Activated σ window s) (setActiveClient σ env self depth window s) := by
  induction depth generalizing window s with
  | zero => exact nofun
  | succ depth ih =>
    unfold setActiveClient
    simp only [htools, List.foldlM_nil, bind_pure]
    split
    · next h =>
      refine Fine.ok ⟨rfl, ho, h, fun v => ⟨fun hv => ⟨hv, fun e => h.symm.trans e⟩, (·.1)⟩, (if_pos h).symm, ?_, fun _ => .inl⟩
      exact fun v hv he => ⟨h.trans he, hv⟩
    · next hne =>
      -- the flag of the old window is gone before the new one is looked at
      have hold : Fine (fun t => t.rest = s.rest ∧ Ordered t ∧ (∀ v, t.active v ↔ s.active v ∧ s.activeClient ≠ some v) ∧
          t.lastActiveClient = s.lastActiveClient ∧
          ∀ v, t.demandsAttention v → s.demandsAttention v ∨ σ.kind v = .x11 ∧ s.activeClient = some v)
          (s.activeClient.elim (.ok s) fun old => setActive σ env (setActiveClient σ env self depth) old false s) := by
        cases hc : s.activeClient with
        | none => exact Fine.ok ⟨rfl, ho, fun v => by simp, rfl, fun _ => .inl⟩
        | some old =>
          refine (setActive_false_fine (fun t ht => ih ht nofun) ho hc).mono fun t ht => ?_
          refine ⟨ht.rest, ht.ordered, fun v => ?_, ht.last, fun v hv => (ht.demands v hv).imp_right ?_⟩
          · rw [ht.active, ne_eq, ne_eq, Option.some.injEq, @eq_comm _ old]
          · rintro ⟨hx, rfl⟩
            exact ⟨hx, rfl⟩
      refine hold.bind fun t ⟨hrest, hord, hactive, hlast, hdemands⟩ => ?_
      have hkeeps (v : Nat) : t.active v ↔ s.active v ∧ (s.activeClient = some v → window = some v) := by
        rw [hactive]
        refine and_congr_right fun _ => ⟨fun h e => absurd e h, fun h e => hne (e.trans (h e).symm)⟩
      cases window with
      | none =>
        refine Fine.ok ⟨hrest, ⟨hord.nodup, hord.mem⟩, rfl, hkeeps, ?_, nofun, hdemands⟩
        rw [if_neg hne]
        exact hlast
      | some w =>
        have hflag : t.active w := (hkeeps w).mpr ⟨hw w rfl, fun _ => rfl⟩
        dsimp only
        rw [if_pos hflag]
        have hmem := demands_attended t w
        have hord : Ordered { t with activeClient := some w, lastActiveClient := some w } := ⟨hord.nodup, hord.mem⟩
        refine Fine.ok ⟨?_, ?_, ?_, ?_, ?_, ?_, fun v hv => hdemands v ((hmem v).mp hv).1⟩
        · exact (Workspace.setDemandsAttention_rest ..).trans hrest
        · exact hord.setDemandsAttention w false
        · exact Workspace.setDemandsAttention_activeClient ..
        · simpa using hkeeps
        · rw [if_neg hne]
          exact Workspace.setDemandsAttention_lastActiveClient ..
        · exact fun v hv he => absurd (Option.some.inj he).symm ((hmem v).mp hv).2

end flags
end KWinFT.Activation
