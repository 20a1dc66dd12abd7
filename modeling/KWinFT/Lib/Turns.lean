import Mathlib.Data.List.Induction
import Mathlib.Data.List.Perm.Subperm

/-! A state of several components on which actions take turns. Where each component is up to one action at most, and
the others leave it alone, the order of the turns does not matter. -/
namespace KWinFT.Lib
variable {σ α β ι : Type*}

/-- Taking turns from `s`, an action changes a component just where nothing has done so yet, and then as it would if it
came first. -/
def Independent (turn : σ → α → σ) (part : ι → σ → β) (s : σ) (as : List α) : Prop :=
  ∀ before a, (before ++ [a]).Subperm as → ∀ i,
    (part i (before.foldl turn s) = part i s →
      part i (turn (before.foldl turn s) a) = part i (turn s a)) ∧
    (part i (before.foldl turn s) ≠ part i s →
      part i (turn (before.foldl turn s) a) = part i (before.foldl turn s))

/-- No component is changed by two of the actions. -/
def Apart (turn : σ → α → σ) (part : ι → σ → β) (s : σ) (as : List α) : Prop :=
  ∀ a ∈ as, ∀ b ∈ as, ∀ i, part i (turn s a) ≠ part i s → part i (turn s b) ≠ part i s → a = b

section turns
variable {turn : σ → α → σ} {part : ι → σ → β} {s : σ} {as bs : List α}

/-- A component is as it was or as the action left it that changes it. -/
theorem Independent.foldl_cases (h : Independent turn part s as) (i : ι) : ∀ {done : List α}, done.Subperm as →
    (part i (done.foldl turn s) = part i s ∧ ∀ a ∈ done, part i (turn s a) = part i s) ∨
    ∃ a ∈ done, part i (turn s a) ≠ part i s ∧ part i (done.foldl turn s) = part i (turn s a) := by
  intro done
  induction done using List.reverseRecOn with
  | nil => exact fun _ => .inl ⟨rfl, by simp⟩
  | append_singleton done a ih =>
    intro hdone
    obtain ⟨hfresh, htaken⟩ := h done a hdone i
    rw [List.foldl_concat]
    rcases ih ((List.sublist_append_left done [a]).subperm.trans hdone) with ⟨hsame, hnone⟩ | ⟨b, hb, hne, heq⟩
    · rw [hfresh hsame]
      by_cases ha : part i (turn s a) = part i s
      · refine .inl ⟨ha, fun b hb => ?_⟩
        rcases List.mem_append.mp hb with hb | hb
        · exact hnone b hb
        · rwa [List.mem_singleton.mp hb]
      · exact .inr ⟨a, by simp, ha, rfl⟩
    · have htaken := htaken (heq.trans_ne hne)
      exact .inr ⟨b, List.mem_append_left _ hb, hne, htaken.trans heq⟩

/-- The order of the turns does not matter. -/
theorem Independent.foldl_perm (h : Independent turn part s as) (hapart : Apart turn part s as)
    (hext : ∀ {t u : σ}, (∀ i, part i t = part i u) → t = u) (hperm : bs.Perm as) :
    bs.foldl turn s = as.foldl turn s := by
  refine hext fun i => ?_
  rcases h.foldl_cases i hperm.subperm with ⟨hb, hnone⟩ | ⟨b, hmem, hne, hb⟩
  · rcases h.foldl_cases i (List.Subperm.refl as) with ⟨ha, -⟩ | ⟨a, hmem, hne, -⟩
    · exact hb.trans ha.symm
    · exact absurd (hnone a (hperm.mem_iff.mpr hmem)) hne
  · rcases h.foldl_cases i (List.Subperm.refl as) with ⟨-, hnone⟩ | ⟨a, hmem', hne', ha⟩
    · exact absurd (hnone b (hperm.mem_iff.mp hmem)) hne
    · rw [hb, ha, hapart b (hperm.mem_iff.mp hmem) a hmem' i hne hne']

end turns

end KWinFT.Lib
