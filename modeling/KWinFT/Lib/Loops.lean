import Mathlib.Order.Filter.AtTopBot.Basic

/-! Loops that test at their end: the body is executed and says whether it is to be executed again. -/
namespace KWinFT.Lib
variable {σ : Type*} {body : σ → σ × Bool}

/-- The state after the loop, if that takes no more than the given number of rounds. -/
def doWhile (body : σ → σ × Bool) : Nat → σ → Option σ
  | 0, _ => none
  | n + 1, s => if (body s).2 then doWhile body n (body s).1 else some (body s).1

theorem doWhile_succ (n : Nat) (s : σ) :
    doWhile body (n + 1) s = if (body s).2 then doWhile body n (body s).1 else some (body s).1 := rfl

open Filter in
/-- The loop ends in this state, given rounds enough. -/
def Ends (body : σ → σ × Bool) (s s' : σ) : Prop := ∀ᶠ n in atTop, doWhile body n s = some s'

theorem Ends.of_last {s : σ} (h : (body s).2 = false) : Ends body s (body s).1 := by
  refine Filter.eventually_atTop.mpr ⟨1, fun n hn => ?_⟩
  obtain ⟨n, rfl⟩ := Nat.exists_eq_add_of_le' hn
  rw [doWhile_succ, if_neg (by simp [h])]

theorem Ends.of_again {s s' : σ} (h : (body s).2 = true) (hrest : Ends body (body s).1 s') : Ends body s s' := by
  obtain ⟨N, hN⟩ := Filter.eventually_atTop.mp hrest
  refine Filter.eventually_atTop.mpr ⟨N + 1, fun n hn => ?_⟩
  obtain ⟨n, rfl⟩ := Nat.exists_eq_add_of_le' hn
  rw [← Nat.add_assoc, doWhile_succ, if_pos h]
  exact hN _ (Nat.le_add_left ..)

theorem Ends.unique {s t t' : σ} (h : Ends body s t) (h' : Ends body s t') : t = t' := by
  obtain ⟨n, hn, hn'⟩ := (h.and h').exists
  exact Option.some.inj (hn.symm.trans hn')

/-- A loop ends, with what its last round gives, when each other round keeps the invariant and goes down a
well-founded relation. -/
theorem exists_ends {r : σ → σ → Prop} (hr : WellFounded r) {inv post : σ → Prop}
    (hagain : ∀ s, inv s → (body s).2 = true → inv (body s).1 ∧ r (body s).1 s)
    (hlast : ∀ s, inv s → (body s).2 = false → post (body s).1) {s : σ} (hs : inv s) :
    ∃ s', Ends body s s' ∧ post s' := by
  induction s using hr.induction with
  | _ s ih =>
    cases h : (body s).2 with
    | false => exact ⟨(body s).1, .of_last h, hlast s hs h⟩
    | true =>
      obtain ⟨hinv, hlt⟩ := hagain s hs h
      obtain ⟨s', hends, hpost⟩ := ih (body s).1 hlt hinv
      exact ⟨s', .of_again h hends, hpost⟩

end KWinFT.Lib
