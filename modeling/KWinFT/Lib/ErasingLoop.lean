import Mathlib.Data.List.Nodup
import Mathlib.Data.List.Basic

/-! A loop over a vector whose body erases the element it is given. The bounds of the loop are
taken before the first erasure and the buffer is never cleared, so the loop runs over shifted and
over stale elements. -/
namespace KWinFT.Lib
variable {α : Type*} [DecidableEq α]

/-- A vector's buffer: the first `size` places are its elements, the rest is left over. -/
structure Buffer (α : Type*) where
  places : List α
  size : Nat

/-- `erase(remove(begin, end, x), end)`: later elements move up, and the places they leave
keep what was in them. -/
def Buffer.removeAll (b : Buffer α) (x : α) : Buffer α :=
  let kept := (b.places.take b.size).filter (· ≠ x)
  ⟨kept ++ b.places.drop kept.length, kept.length⟩

/-- What the loop sees in its next `n` rounds, from place `i` on. -/
def visitsFrom : Nat → Nat → Buffer α → List α
  | 0, _, _ => []
  | n + 1, i, b =>
    match b.places[i]? with
    | none => []
    | some x => x :: visitsFrom n (i + 1) (b.removeAll x)

/-- The elements that the body is run for, in order. -/
def visits (l : List α) : List α := visitsFrom l.length 0 ⟨l, l.length⟩

theorem Buffer.mem_removeAll {b : Buffer α} {x y : α} (h : y ∈ (b.removeAll x).places) :
    y ∈ b.places := by
  rcases List.mem_append.mp h with h | h
  · exact List.mem_of_mem_take (List.mem_filter.mp h).1
  · exact List.mem_of_mem_drop h

theorem mem_of_mem_visitsFrom {n i : Nat} {b : Buffer α} {y : α} (h : y ∈ visitsFrom n i b) :
    y ∈ b.places := by
  induction n generalizing i b with
  | zero => cases h
  | succ n ih =>
    unfold visitsFrom at h
    split at h
    · cases h
    · next x hx =>
      rcases List.mem_cons.mp h with rfl | h
      · exact List.mem_of_getElem? hx
      · exact Buffer.mem_removeAll (ih h)

theorem mem_of_mem_visits {l : List α} {y : α} (h : y ∈ visits l) : y ∈ l :=
  mem_of_mem_visitsFrom h

/-- An element that has moved up to the front is passed over: it stands before the loop. -/
private theorem front_not_mem_visitsFrom {n i : Nat} {a : α} {rest : List α} {k : Nat}
    (ha : a ∉ rest) (hi : 0 < i) : a ∉ visitsFrom n i ⟨a :: rest, k + 1⟩ := by
  induction n generalizing i rest k with
  | zero => exact List.not_mem_nil
  | succ n ih =>
    obtain ⟨j, rfl⟩ : ∃ j, i = j + 1 := ⟨i - 1, by omega⟩
    unfold visitsFrom
    dsimp only
    rw [List.getElem?_cons_succ]
    split
    · exact List.not_mem_nil
    · next x hx =>
      have hax : a ≠ x := fun heq => ha (heq ▸ List.mem_of_getElem? hx)
      have hkeep : (Buffer.removeAll ⟨a :: rest, k + 1⟩ x) =
          ⟨a :: ((rest.take k).filter (· ≠ x) ++ rest.drop ((rest.take k).filter (· ≠ x)).length),
            ((rest.take k).filter (· ≠ x)).length + 1⟩ := by
        simp [Buffer.removeAll, hax]
      rw [List.mem_cons, hkeep]
      rintro (heq | hmem)
      · exact hax heq
      · refine ih ?_ (by omega) hmem
        intro hmem
        rcases List.mem_append.mp hmem with h | h
        · exact ha (List.mem_of_mem_take (List.mem_filter.mp h).1)
        · exact ha (List.mem_of_mem_drop h)

/-- The loop reaches every element exactly when there are at most two: of three or more the
second one moves to the front in the first round. -/
theorem visits_complete_iff {l : List α} (hl : l.Nodup) : (∀ x ∈ l, x ∈ visits l) ↔ l.length ≤ 2 := by
  match l, hl with
  | [], _ => simp
  | [a], _ => simp [visits, visitsFrom]
  | [a, b], hl =>
    have hab : b ≠ a := by
      rintro rfl
      simp at hl
    simp [visits, visitsFrom, Buffer.removeAll, hab]
  | a :: b :: c :: l, hl =>
    refine ⟨fun h => ?_, fun h => by simp at h⟩
    have hb := h b (by simp)
    obtain ⟨ha, hb', -⟩ : a ∉ b :: c :: l ∧ b ∉ c :: l ∧ (c :: l).Nodup := by simpa using hl
    have hba : b ≠ a := fun heq => ha (by simp [heq])
    have hfilter : (b :: c :: l).filter (· ≠ a) = b :: c :: l := by
      rw [List.filter_eq_self]
      intro x hx
      exact decide_eq_true fun heq => ha (heq ▸ hx)
    have hkept : Buffer.removeAll ⟨a :: b :: c :: l, (a :: b :: c :: l).length⟩ a =
        ⟨b :: (c :: l ++ (a :: b :: c :: l).drop (b :: c :: l).length), (c :: l).length + 1⟩ := by
      unfold Buffer.removeAll
      dsimp only
      rw [List.take_length, List.filter_cons_of_neg (by simp), hfilter]
      rfl
    unfold visits visitsFrom at hb
    dsimp only [List.length_cons, List.getElem?_cons_zero] at hb
    rcases List.mem_cons.mp hb with heq | hb
    · exact absurd heq hba
    · change b ∈ visitsFrom _ _ (Buffer.removeAll ⟨a :: b :: c :: l, (a :: b :: c :: l).length⟩ a) at hb
      rw [hkept] at hb
      refine absurd hb (front_not_mem_visitsFrom ?_ (by omega))
      intro hmem
      rcases List.mem_append.mp hmem with h | h
      · exact hb' h
      · have : b ∈ c :: l := by
          have hdrop : (a :: b :: c :: l).drop (b :: c :: l).length = (c :: l).drop l.length := by
            simp
          rw [hdrop] at h
          exact List.mem_of_mem_drop h
        exact hb' this

section rangeFor
variable {σ : Type*} {list : σ → List α} {body : α → σ → Option σ} {s s' : σ} {places : List α} {n i : Nat} {y : α}

omit [DecidableEq α]

/-- The rounds of a loop over a vector that its body changes in place: the vector is a part of the state, and behind its
elements there is what was left over. None where a round fails. -/
def rangeFor (list : σ → List α) (body : α → σ → Option σ) : Nat → Nat → List α → σ → Option σ
  | 0, _, _, s => some s
  | n + 1, i, places, s =>
    match places[i]? with
    | none => none
    | some x => (body x s).bind fun s' => rangeFor list body n (i + 1) (list s' ++ places.drop (list s').length) s'

/-- The loop from its beginning. -/
def forEach (list : σ → List α) (body : α → σ → Option σ) (s : σ) : Option σ :=
  rangeFor list body (list s).length 0 (list s) s

theorem rangeFor_succ {x : α} (hx : places[i]? = some x) : rangeFor list body (n + 1) i places s =
    (body x s).bind fun s' => rangeFor list body n (i + 1) (list s' ++ places.drop (list s').length) s' := by
  rw [rangeFor, hx]

/-- The loop takes elements that were in the vector, where the body adds none. -/
theorem rangeFor_invariant {P : σ → Prop} {l : List α}
    (hbody : ∀ x ∈ l, ∀ s s', P s → body x s = some s' → P s' ∧ list s' ⊆ l) (hplaces : places ⊆ l) (hP : P s)
    (h : rangeFor list body n i places s = some s') : P s' := by
  induction n generalizing i places s with
  | zero => cases h; exact hP
  | succ n ih =>
    cases hx : places[i]? with
    | none =>
      rw [rangeFor, hx] at h
      cases h
    | some x =>
      rw [rangeFor_succ hx] at h
      obtain ⟨s₁, h₁, h⟩ := Option.bind_eq_some_iff.mp h
      obtain ⟨hP₁, hlist⟩ := hbody x (hplaces (List.mem_of_getElem? hx)) s s₁ hP h₁
      exact ih (List.append_subset.mpr ⟨hlist, List.Subset.trans (List.drop_subset _ _) hplaces⟩) hP₁ h

/-- As long as the body leaves the vector as it is, the loop goes on to the next element. -/
theorem rangeFor_steady {P : List α → σ → Prop}
    (hbody : ∀ x xs s, P (x :: xs) s → ∃ s', body x s = some s' ∧ list s' = list s ∧ P xs s') (xs : List α)
    (hxs : xs <+: places.drop i) (hl : list s <+: places) (h : P xs s) : ∃ s', list s' = list s ∧ P [] s' ∧
      rangeFor list body (xs.length + n) i places s = rangeFor list body n (i + xs.length) places s' := by
  induction xs generalizing i s with
  | nil => exact ⟨s, rfl, h, by rw [List.length_nil, Nat.zero_add, Nat.add_zero]⟩
  | cons x xs ih =>
    obtain ⟨rest, hrest⟩ := hxs
    have hx : places[i]? = some x := by rw [← Nat.add_zero i, ← List.getElem?_drop, ← hrest]; rfl
    obtain ⟨s₁, h₁, hlist, hP⟩ := hbody x xs s h
    have hnext : xs <+: places.drop (i + 1) := ⟨rest, by rw [← List.drop_drop, ← hrest]; rfl⟩
    obtain ⟨s', hs', hdone, heq⟩ := ih (s := s₁) hnext (hlist ▸ hl) hP
    refine ⟨s', hs'.trans hlist, hdone, ?_⟩
    have hplaces : list s₁ ++ places.drop (list s₁).length = places := by
      obtain ⟨after, hafter⟩ := hlist ▸ hl
      rw [← hafter, List.drop_left]
    rw [List.length_cons, Nat.add_right_comm, rangeFor_succ hx, h₁, Option.bind_some, hplaces, heq]
    congr 1
    omega

/-- Where the vector shrinks, what is behind a place comes from behind it. -/
theorem mem_drop_shrunk {l l' : List α} (hl : l <+: places) (hsub : l'.Sublist l)
    (hy : y ∈ (l' ++ places.drop l'.length).drop i) : y ∈ places.drop i := by
  rw [List.drop_append] at hy
  rcases List.mem_append.mp hy with hy | hy
  · have hmem := (hsub.drop i).subset hy
    obtain ⟨rest, rfl⟩ := hl
    rw [List.drop_append]
    exact List.mem_append_left _ hmem
  · rw [List.drop_drop] at hy
    exact (List.drop_subset_drop_left places (by omega)) hy

/-- Elements before the place of a loop that only takes elements away are not visited any more. -/
theorem rangeFor_preserves {P : σ → Prop} (hbody : ∀ x s s', x ≠ y → P s → body x s = some s' → P s')
    (hsub : ∀ x s s', body x s = some s' → (list s').Sublist (list s)) (hl : list s <+: places)
    (hy : y ∉ places.drop i) (hP : P s) (h : rangeFor list body n i places s = some s') : P s' := by
  induction n generalizing i places s with
  | zero => cases h; exact hP
  | succ n ih =>
    cases hx : places[i]? with
    | none =>
      rw [rangeFor, hx] at h
      cases h
    | some x =>
      rw [rangeFor_succ hx] at h
      obtain ⟨s₁, h₁, h⟩ := Option.bind_eq_some_iff.mp h
      have hne : x ≠ y := fun heq => hy (List.mem_of_getElem? (i := 0) (by rw [List.getElem?_drop, Nat.add_zero, hx, heq]))
      refine ih (List.prefix_append _ _) (fun hmem => hy ?_) (hbody x s s₁ hne hP h₁) h
      have hbehind := mem_drop_shrunk hl (hsub x s s₁ h₁) hmem
      rw [← List.drop_drop] at hbehind
      exact List.drop_subset 1 _ hbehind

end rangeFor

end KWinFT.Lib
