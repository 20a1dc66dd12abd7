import Mathlib.Order.Filter.AtTopBot.Basic

/-! Procedures that call each other, over a common state and with errors. A body is written against the procedures
it calls; unrolling it some number of times gives the calls that come back within that depth. -/
namespace KWinFT.Lib

universe u
variable {ε S C A : Type u}

/-- No error that is `bad`, and a result with the property. -/
def Safe (bad : ε → Prop) (P : S → Prop) : Except ε S → Prop
  | .ok s => P s
  | .error e => ¬ bad e

section safe
variable {bad : ε → Prop} {P : S → Prop}

theorem Safe.bind {T : Type u} {Q : T → Prop} {x : Except ε S} {f : S → Except ε T} (hx : Safe bad P x)
    (hf : ∀ s, P s → Safe bad Q (f s)) : Safe bad Q (x >>= f) := by
  cases x with
  | ok s => exact hf s hx
  | error e => exact hx

theorem Safe.mono {Q : S → Prop} {x : Except ε S} (hx : Safe bad P x) (h : ∀ s, P s → Q s) : Safe bad Q x := by
  cases x with
  | ok s => exact h s hx
  | error e => exact hx

theorem Safe.foldlM {f : S → A → Except ε S} (as : List A) (hf : ∀ s, ∀ a ∈ as, P s → Safe bad P (f s a)) {s : S}
    (hs : P s) : Safe bad P (as.foldlM f s) := by
  induction as generalizing s with
  | nil => exact hs
  | cons a as ih =>
    rw [List.foldlM_cons]
    refine (hf s a List.mem_cons_self hs).bind fun t ht => ih (fun t b hb => hf t b ?_) ht
    exact List.mem_cons_of_mem a hb

/-- Each iteration settles its element, and what is settled stays so. -/
theorem Safe.foldlM_settles {Q : A → S → Prop} {f : S → A → Except ε S} (as : List A)
    (hf : ∀ s, ∀ a ∈ as, P s → Safe bad (fun s' => P s' ∧ Q a s' ∧ ∀ x, Q x s → Q x s') (f s a)) {s : S} (hs : P s) :
    Safe bad (fun s' => P s' ∧ (∀ a ∈ as, Q a s') ∧ ∀ x, Q x s → Q x s') (as.foldlM f s) := by
  induction as generalizing s with
  | nil => exact ⟨hs, fun a ha => absurd ha List.not_mem_nil, fun _ hx => hx⟩
  | cons a as ih =>
    rw [List.foldlM_cons]
    refine (hf s a List.mem_cons_self hs).bind fun t ⟨ht, hq, hstay⟩ => ?_
    refine (ih (fun t b hb => hf t b (List.mem_cons_of_mem a hb)) ht).mono fun s' ⟨hs', hall, hrest⟩ => ?_
    exact ⟨hs', List.forall_mem_cons.mpr ⟨hrest a hq, hall⟩, fun x hx => hrest x (hstay x hx)⟩

theorem Safe.not_error {x : Except ε S} {e : ε} (hx : Safe bad P x) (he : bad e) : x ≠ .error e := by
  rintro rfl
  exact hx he

theorem Safe.of_ok {x : Except ε S} {s : S} (hx : Safe bad P x) (hs : x = .ok s) : P s := by
  rw [hs] at hx
  exact hx

end safe

/-- The calls that come back within some depth; those that do not are stopped with an error. -/
def unroll (stop : ε) (body : (C → S → Except ε S) → C → S → Except ε S) : Nat → C → S → Except ε S
  | 0 => fun _ _ => .error stop
  | n + 1 => body (unroll stop body n)

/-- If the body meets its contract as long as the calls that it makes do, all calls meet theirs. -/
theorem unroll_meets {stop : ε} {body : (C → S → Except ε S) → C → S → Except ε S} {bad : ε → Prop}
    (pre : C → S → Prop) (post : C → S → S → Prop) (hstop : ¬ bad stop)
    (hbody : ∀ self, (∀ c s, pre c s → Safe bad (post c s) (self c s)) → ∀ c s, pre c s →
      Safe bad (post c s) (body self c s)) (n : Nat) :
    ∀ c s, pre c s → Safe bad (post c s) (unroll stop body n c s) := by
  induction n with
  | zero => exact fun _ _ _ => hstop
  | succ n ih => exact hbody _ ih

/-- If the body makes allowed calls only and is safe when those are, all allowed calls are safe. -/
theorem unroll_safe {stop : ε} {body : (C → S → Except ε S) → C → S → Except ε S} {bad : ε → Prop} {P : S → Prop}
    (allowed : C → Prop) (hstop : ¬ bad stop)
    (hbody : ∀ self, (∀ c s, allowed c → P s → Safe bad P (self c s)) → ∀ c s, allowed c → P s →
      Safe bad P (body self c s)) (n : Nat) :
    ∀ c s, allowed c → P s → Safe bad P (unroll stop body n c s) :=
  fun c s hc hs => unroll_meets (fun c s => allowed c ∧ P s) (fun _ _ => P) hstop
    (fun self hself c s h => hbody self (fun c s hc hs => hself c s ⟨hc, hs⟩) c s h.1 h.2) n c s ⟨hc, hs⟩

/-! Calls that come back. -/

open Filter in
/-- The call comes back with this result, whatever the depth is from some one on. -/
def Returns (stop : ε) (body : (C → S → Except ε S) → C → S → Except ε S) (c : C) (s s' : S) : Prop :=
  ∀ᶠ n in atTop, unroll stop body n c s = .ok s'

section returns
open Filter
variable {stop : ε} {body : (C → S → Except ε S) → C → S → Except ε S}

theorem Returns.of_body {c : C} {s s' : S} (h : ∀ᶠ n in atTop, body (unroll stop body n) c s = .ok s') :
    Returns stop body c s s' := by
  obtain ⟨N, hN⟩ := eventually_atTop.mp h
  refine eventually_atTop.mpr ⟨N + 1, fun n hn => ?_⟩
  obtain ⟨n, rfl⟩ := Nat.exists_eq_add_of_le' hn
  exact hN (n + N) (Nat.le_add_left N n)

theorem bind_of_ok {x : Except ε S} {f : S → Except ε S} {s : S} (hx : x = .ok s) : (x >>= f) = f s := by
  rw [hx]
  rfl

/-- A loop over calls that come back: each carries the invariant over to the elements done so far. -/
theorem eventually_foldlM {f : ℕ → S → A → Except ε S} (as : List A) (inv : List A → S → Prop)
    (step : ∀ done a s, a ∈ as → inv done s → ∃ s', (∀ᶠ n in atTop, f n s a = .ok s') ∧ inv (done ++ [a]) s')
    {s : S} (hs : inv [] s) : ∃ s', (∀ᶠ n in atTop, as.foldlM (f n) s = .ok s') ∧ inv as s' := by
  have run : ∀ todo done s, done ++ todo = as → inv done s →
      ∃ s', (∀ᶠ n in atTop, todo.foldlM (f n) s = .ok s') ∧ inv as s' := by
    intro todo
    induction todo with
    | nil =>
      intro done s has h
      rw [List.append_nil] at has
      exact ⟨s, .of_forall fun _ => rfl, has ▸ h⟩
    | cons a todo ih =>
      intro done s has h
      obtain ⟨s₁, hf, h₁⟩ := step done a s (has ▸ List.mem_append_right _ List.mem_cons_self) h
      obtain ⟨s', hr, h'⟩ := ih (done ++ [a]) s₁ (by rw [← has, List.append_assoc]; rfl) h₁
      refine ⟨s', ?_, h'⟩
      filter_upwards [hf, hr] with n hf hr
      rw [List.foldlM_cons, hf]
      exact hr
  exact run as [] s rfl hs

end returns

end KWinFT.Lib
