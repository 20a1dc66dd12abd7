import Mathlib.Data.List.Rotate

/-! Partial functions that go around a list: one forwards, one backwards. They are inverse to each
other, and repeating one visits the members of the list in turn. -/
namespace KWinFT.Lib
variable {α : Type*} {f g : α → Option α} {lane : List α} {i : Nat} {a : α}

/-- The function taken several times. -/
def steps (f : α → Option α) : Nat → α → Option α
  | 0, a => some a
  | k + 1, a => (f a).bind (steps f k)

def Advances (f : α → Option α) (lane : List α) : Prop :=
  ∀ i a, lane[i]? = some a → f a = lane[(i + 1) % lane.length]?

def Retreats (f : α → Option α) (lane : List α) : Prop :=
  ∀ i a, lane[i]? = some a → f a = lane[(i + (lane.length - 1)) % lane.length]?

private theorem exists_getElem (h : lane[i]? = some a) (j : Nat) :
    ∃ b, lane[j % lane.length]? = some b := by
  have hlt := (List.getElem?_eq_some_iff.mp h).1
  exact ⟨_, List.getElem?_eq_getElem (Nat.mod_lt j (Nat.lt_of_le_of_lt (Nat.zero_le i) hlt))⟩

private theorem mod_self (h : lane[i]? = some a) : i % lane.length = i :=
  Nat.mod_eq_of_lt (List.getElem?_eq_some_iff.mp h).1

theorem Advances.steps_eq (hf : Advances f lane) (h : lane[i]? = some a) (k : Nat) :
    steps f k a = lane[(i + k) % lane.length]? := by
  induction k generalizing i a with
  | zero => rw [Nat.add_zero, mod_self h, h]; rfl
  | succ k ih =>
    obtain ⟨b, hb⟩ := exists_getElem h (i + 1)
    rw [steps, hf i a h, hb, Option.bind_some, ih hb, Nat.mod_add_mod, Nat.add_assoc, Nat.add_comm 1]

theorem Retreats.steps_eq (hf : Retreats f lane) (h : lane[i]? = some a) (k : Nat) :
    steps f k a = lane[(i + k * (lane.length - 1)) % lane.length]? := by
  induction k generalizing i a with
  | zero => rw [Nat.zero_mul, Nat.add_zero, mod_self h, h]; rfl
  | succ k ih =>
    obtain ⟨b, hb⟩ := exists_getElem h (i + (lane.length - 1))
    rw [steps, hf i a h, hb, Option.bind_some, ih hb, Nat.mod_add_mod, Nat.succ_mul, Nat.add_assoc,
      Nat.add_comm (k * (lane.length - 1))]

theorem Advances.bind_retreats (hf : Advances f lane) (hg : Retreats g lane) (h : lane[i]? = some a) :
    (f a).bind g = some a := by
  obtain ⟨b, hb⟩ := exists_getElem h (i + 1)
  have hlt := (List.getElem?_eq_some_iff.mp h).1
  rw [hf i a h, hb, Option.bind_some, hg _ b hb, Nat.mod_add_mod, Nat.add_assoc, Nat.add_sub_cancel' (by omega),
    Nat.add_mod_right, mod_self h, h]

theorem Retreats.bind_advances (hg : Retreats g lane) (hf : Advances f lane) (h : lane[i]? = some a) :
    (g a).bind f = some a := by
  obtain ⟨b, hb⟩ := exists_getElem h (i + (lane.length - 1))
  have hlt := (List.getElem?_eq_some_iff.mp h).1
  rw [hg i a h, hb, Option.bind_some, hf _ b hb, Nat.mod_add_mod, Nat.add_assoc, Nat.sub_add_cancel (by omega),
    Nat.add_mod_right, mod_self h, h]

/-- From any member on all members are visited in turn. -/
theorem Advances.map_steps (hf : Advances f lane) (h : lane[i]? = some a) :
    ((List.range lane.length).map fun k => steps f k a) = (lane.rotate i).map some := by
  apply List.ext_getElem?
  intro k
  rcases Nat.lt_or_ge k lane.length with hk | hk
  · have hmod : (k + i) % lane.length < lane.length := Nat.mod_lt _ (Nat.lt_of_le_of_lt (Nat.zero_le k) hk)
    rw [List.getElem?_map, List.getElem?_range hk, Option.map_some, hf.steps_eq h, List.getElem?_map,
      List.getElem?_rotate hk, Nat.add_comm i, List.getElem?_eq_getElem hmod, Option.map_some]
  · rw [List.getElem?_eq_none (by simpa using hk), List.getElem?_eq_none (by simpa using hk)]

theorem Advances.steps_length (hf : Advances f lane) (h : lane[i]? = some a) : steps f lane.length a = some a := by
  rw [hf.steps_eq h, Nat.add_mod_right, mod_self h, h]

theorem Advances.rotate (hf : Advances f lane) (n : Nat) : Advances f (lane.rotate n) := by
  intro i a h
  have hlt := (List.getElem?_eq_some_iff.mp h).1
  rw [List.length_rotate] at hlt
  rw [List.getElem?_rotate hlt] at h
  have hnext : (i + 1) % lane.length < lane.length := Nat.mod_lt _ (Nat.lt_of_le_of_lt (Nat.zero_le i) hlt)
  rw [hf _ a h, List.length_rotate, List.getElem?_rotate hnext, Nat.mod_add_mod, Nat.mod_add_mod, Nat.add_right_comm]

/-- Neighbours are reached from one another, and the first one from the last one. -/
theorem Advances.isChain (hf : Advances f lane) : lane.IsChain fun x y => f x = some y := by
  rw [List.isChain_iff_getElem]
  intro i hi
  rw [hf i _ (List.getElem?_eq_getElem (Nat.lt_of_succ_lt hi)), Nat.mod_eq_of_lt hi, List.getElem?_eq_getElem hi]

theorem Advances.getLast (hf : Advances f lane) (h : lane ≠ []) : f (lane.getLast h) = lane.head? := by
  have hpos : 0 < lane.length := List.length_pos_iff.mpr h
  rw [List.getLast_eq_getElem, hf (lane.length - 1) _ (List.getElem?_eq_getElem (by omega)), Nat.sub_add_cancel hpos,
    Nat.mod_self, List.head?_eq_getElem?]

theorem Retreats.reverse (hf : Retreats f lane) : Advances f lane.reverse := by
  intro i a h
  have hlt := (List.getElem?_eq_some_iff.mp h).1
  rw [List.length_reverse] at hlt
  rw [List.getElem?_reverse hlt] at h
  have hmod : (i + 1) % lane.length < lane.length := Nat.mod_lt _ (Nat.lt_of_le_of_lt (Nat.zero_le i) hlt)
  rw [hf _ a h, List.length_reverse, List.getElem?_reverse hmod]
  congr 1
  rcases Nat.lt_or_ge (i + 1) lane.length with hnext | hlast
  · have hwrap : lane.length - 1 - i + (lane.length - 1) = lane.length - 1 - (i + 1) + lane.length := by omega
    rw [Nat.mod_eq_of_lt hnext, hwrap, Nat.add_mod_right, Nat.mod_eq_of_lt (by omega)]
  · have hi : i + 1 = lane.length := by omega
    rw [hi, Nat.mod_self, Nat.mod_eq_of_lt (by omega)]
    omega

end KWinFT.Lib
