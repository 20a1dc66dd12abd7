import Mathlib.Logic.Relation

/-! Runs of a partial step function. A step may fail, and a run may be asked to take
only steps that meet a guard, so one induction serves every safety result. -/
namespace KWinFT.Lib
variable {S E : Type*}

/-- States reached from `s₀` by steps that meet the guard `ok` and do not fail. -/
inductive Reachable (step : S → E → Option S) (ok : S → E → Prop) (s₀ : S) : S → Prop
  | init : Reachable step ok s₀ s₀
  | step {s s' : S} (e : E) : Reachable step ok s₀ s → ok s e → step s e = some s' →
      Reachable step ok s₀ s'

/-- The guard of a run without restrictions. -/
def anyStep (_ : S) (_ : E) : Prop := True

theorem Reachable.invariant {step : S → E → Option S} {ok : S → E → Prop} {s₀ s : S}
    (h : Reachable step ok s₀ s) (inv : S → Prop) (base : inv s₀)
    (keep : ∀ s e s', inv s → ok s e → step s e = some s' → inv s') : inv s := by
  induction h with
  | init => exact base
  | step e _ hok hs ih => exact keep _ e _ ih hok hs

/-- Takes the listed steps in order; fails with the first step that fails. -/
def execute (step : S → E → Option S) : S → List E → Option S
  | s, [] => some s
  | s, e :: es => (step s e).bind fun s' => execute step s' es

/-- A listed run without failure reaches its last state. -/
theorem Reachable.execute {step : S → E → Option S} {s₀ s t : S}
    (h : Reachable step anyStep s₀ s) (es : List E) (he : execute step s es = some t) :
    Reachable step anyStep s₀ t := by
  induction es generalizing s with
  | nil => cases he; exact h
  | cons e es ih =>
    obtain ⟨s', hs, ht⟩ := Option.bind_eq_some_iff.mp he
    exact ih (.step e h trivial hs) ht

/-- A listed run whose steps all pass a decidable guard. -/
theorem Reachable.executeOk {step : S → E → Option S} {ok : S → E → Prop} [∀ s e, Decidable (ok s e)] {s₀ s t : S}
    (h : Reachable step ok s₀ s) (es : List E)
    (he : Lib.execute (fun s e => if ok s e then step s e else none) s es = some t) : Reachable step ok s₀ t := by
  induction es generalizing s with
  | nil => cases he; exact h
  | cons e es ih =>
    obtain ⟨s', hs, ht⟩ := Option.bind_eq_some_iff.mp he
    obtain ⟨hok, hs⟩ := Option.ite_none_right_eq_some.mp hs
    exact ih (.step e h hok hs) ht

/-- The listed steps lead only through such states, as far as none fails. -/
def Along (step : S → E → Option S) (good : S → Prop) : S → List E → Prop
  | s, [] => good s
  | s, e :: es => good s ∧ ∀ s', step s e = some s' → Along step good s' es

/-- The listed steps all meet the guard, as far as none fails. -/
def Throughout (step : S → E → Option S) (ok : S → E → Prop) : S → List E → Prop
  | _, [] => True
  | s, e :: es => ∀ s', step s e = some s' → ok s e ∧ Throughout step ok s' es

/-- When guarded steps keep an invariant and each other step leads to a bad state, the guard says which runs are good. -/
theorem along_iff_throughout {step : S → E → Option S} {good : S → Prop} {ok : S → E → Prop} (inv : S → Prop)
    (sound : ∀ s, inv s → good s) (keep : ∀ s e s', inv s → ok s e → step s e = some s' → inv s')
    (spoil : ∀ s e s', inv s → ¬ ok s e → step s e = some s' → ¬ good s') {s : S} (hs : inv s) (es : List E) :
    Along step good s es ↔ Throughout step ok s es := by
  induction es generalizing s with
  | nil => exact iff_of_true (sound s hs) trivial
  | cons e es ih =>
    rw [Along, and_iff_right (sound s hs), Throughout]
    refine forall₂_congr fun s' hstep => ⟨fun halong => ?_, fun ⟨hok, hrest⟩ => (ih (keep s e s' hs hok hstep)).mpr hrest⟩
    have hgood : good s' := by
      cases es with
      | nil => exact halong
      | cons => exact halong.1
    have hok : ok s e := Classical.byContradiction fun hbad => spoil s e s' hs hbad hstep hgood
    exact ⟨hok, (ih (keep s e s' hs hok hstep)).mp halong⟩

/-- Each of the listed steps is of a kind, as far as none fails. -/
def EachStep (step : S → E → Option S) (good : S → E → S → Prop) : S → List E → Prop
  | _, [] => True
  | s, e :: es => ∀ s', step s e = some s' → good s e s' ∧ EachStep step good s' es

/-- When the guard says which steps are good, and good steps keep what this rests on, it says which runs are. -/
theorem eachStep_iff_throughout {step : S → E → Option S} {good : S → E → S → Prop} {ok : S → E → Prop} (inv : S → Prop)
    (keep : ∀ s e s', inv s → ok s e → step s e = some s' → inv s')
    (exact : ∀ s e s', inv s → step s e = some s' → (good s e s' ↔ ok s e)) {s : S} (hs : inv s) (es : List E) :
    EachStep step good s es ↔ Throughout step ok s es := by
  induction es generalizing s with
  | nil => exact Iff.rfl
  | cons e es ih =>
    refine forall₂_congr fun s' hstep => ?_
    rw [exact s e s' hs hstep]
    exact and_congr_right fun hok => ih (keep s e s' hs hok hstep)

section fold
variable {α β : Type*} {P : β → Prop}

theorem foldl_preserves {f : β → α → β} (as : List α) (hf : ∀ b a, a ∈ as → P b → P (f b a)) {b : β}
    (hb : P b) : P (as.foldl f b) := by
  induction as generalizing b with
  | nil => exact hb
  | cons a as ih =>
    exact ih (fun b x hx => hf b x (List.mem_cons_of_mem a hx)) (hf b a List.mem_cons_self hb)

theorem foldlM_preserves {β : Type} {P : β → Prop} {f : β → α → Option β} (as : List α)
    (hf : ∀ b a b', a ∈ as → P b → f b a = some b' → P b') {b b' : β} (hb : P b)
    (h : as.foldlM f b = some b') : P b' := by
  induction as generalizing b with
  | nil => cases h; exact hb
  | cons a as ih =>
    rw [List.foldlM_cons] at h
    obtain ⟨b₁, h₁, h₂⟩ := Option.bind_eq_some_iff.mp h
    refine ih (fun b x b' hx => hf b x b' (List.mem_cons_of_mem a hx)) ?_ h₂
    exact hf b a b₁ List.mem_cons_self hb h₁

/-- Each iteration settles its element, and what is settled stays so. -/
theorem foldlM_settles {β : Type} {P : β → Prop} {Q : α → β → Prop} {f : β → α → Option β} (as : List α)
    (hf : ∀ b a b', a ∈ as → P b → f b a = some b' → P b' ∧ Q a b' ∧ ∀ x, Q x b → Q x b') {b b' : β} (hb : P b)
    (h : as.foldlM f b = some b') : P b' ∧ (∀ a ∈ as, Q a b') ∧ ∀ x, Q x b → Q x b' := by
  induction as generalizing b with
  | nil => cases h; exact ⟨hb, fun a ha => absurd ha List.not_mem_nil, fun _ hx => hx⟩
  | cons a as ih =>
    rw [List.foldlM_cons] at h
    obtain ⟨b₁, h₁, h₂⟩ := Option.bind_eq_some_iff.mp h
    obtain ⟨hp, hq, hstay⟩ := hf b a b₁ List.mem_cons_self hb h₁
    obtain ⟨hp', hall, hrest⟩ := ih (fun b x b' hx => hf b x b' (List.mem_cons_of_mem a hx)) hp h₂
    exact ⟨hp', List.forall_mem_cons.mpr ⟨hrest a hq, hall⟩, fun x hx => hrest x (hstay x hx)⟩

/-- A loop that cannot fail: each iteration succeeds and carries the invariant over to the elements done so far. -/
theorem foldlM_loop {β : Type} {f : β → α → Option β} (as : List α) (inv : List α → β → Prop)
    (step : ∀ done a todo b, as = done ++ a :: todo → inv done b → ∃ b', f b a = some b' ∧ inv (done ++ [a]) b')
    {b : β} (hb : inv [] b) : ∃ b', as.foldlM f b = some b' ∧ inv as b' := by
  have run : ∀ todo done b, as = done ++ todo → inv done b → ∃ b', todo.foldlM f b = some b' ∧ inv as b' := by
    intro todo
    induction todo with
    | nil =>
      intro done b has h
      rw [List.append_nil] at has
      exact ⟨b, rfl, has ▸ h⟩
    | cons a todo ih =>
      intro done b has h
      obtain ⟨b₁, hf, h₁⟩ := step done a todo b has h
      obtain ⟨b', hr, h'⟩ := ih (done ++ [a]) b₁ (by rw [has, List.append_assoc]; rfl) h₁
      exact ⟨b', by rw [List.foldlM_cons, hf]; exact hr, h'⟩
  exact run as [] b rfl hb

end fold

end KWinFT.Lib
