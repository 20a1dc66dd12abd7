import Mathlib.Data.List.Rotate
import Mathlib.Data.List.Nodup
import KWinFT.Lib.Cyclic
import KWinFT.TabBox.DesktopChain

/-! Which desktops a chain goes through. A chain that shrinks may lose desktops and name others twice, and
every desktop that is used comes back. -/
namespace KWinFT.TabBox
namespace DesktopChain

/-- All entries are existing desktops. -/
def Valid (chain : DesktopChain) : Prop := ∀ d ∈ chain, 1 ≤ d ∧ d ≤ chain.length

/-- A permutation of the existing desktops. -/
def Complete (chain : DesktopChain) : Prop := chain.Perm (init chain.length)

/-- From every desktop, `next` visits each existing one once and then returns. -/
def VisitsAll (chain : DesktopChain) : Prop :=
  ∀ d, 1 ≤ d → d ≤ chain.length →
    ((List.range chain.length).map fun k => chain.next^[k] d).Perm (init chain.length) ∧
      chain.next^[chain.length] d = d

/-- A chain that shrinks has the desktops before the last one that stays among the positions that stay. -/
def Keeps (chain : DesktopChain) (newSize : Nat) : Prop := ∀ d, 1 ≤ d → d < newSize → d ∈ chain.take newSize

variable {chain : DesktopChain} {desktop newSize : Nat}

theorem mem_init {n d : Nat} : d ∈ init n ↔ 1 ≤ d ∧ d ≤ n := by
  rw [init, List.mem_range'_1]
  omega

@[simp] theorem length_init (n : Nat) : (init n).length = n := List.length_range'

theorem nodup_init (n : Nat) : (init n).Nodup := List.nodup_range'

theorem Complete.mem_iff (h : Complete chain) {d : Nat} : d ∈ chain ↔ 1 ≤ d ∧ d ≤ chain.length := by
  rw [List.Perm.mem_iff h, mem_init]

theorem Complete.valid (h : Complete chain) : Valid chain := fun _ hd => h.mem_iff.mp hd

theorem Complete.nodup (h : Complete chain) : chain.Nodup := (List.Perm.nodup_iff h).mpr (nodup_init _)

/-- Distinct existing desktops, as many as there are. -/
theorem complete_of_nodup (hn : chain.Nodup) (hv : Valid chain) : Complete chain := by
  have hsub : chain ⊆ init chain.length := fun d hd => mem_init.mpr (hv d hd)
  exact (List.subperm_of_subset hn hsub).perm_of_length_le (by simp)

theorem complete_init (n : Nat) : Complete (init n) := by
  rw [Complete, length_init]

/-- What `add` does with an existing desktop. -/
theorem add_eq (hpos : 1 ≤ desktop) (hle : desktop ≤ chain.length) (hint : desktop < 2147483648) :
    chain.add desktop =
      desktop :: chain.eraseIdx (if desktop ∈ chain then chain.idxOf desktop else chain.length - 1) := by
  have hne : chain ≠ [] := by
    rintro rfl
    exact absurd (Nat.le_trans hpos hle) (by simp)
  have hlen := List.length_pos_iff.mpr hne
  have hcond : ¬ (chain = [] ∨ toInt desktop > chain.length) := by
    rintro (h | h)
    · exact hne h
    · rw [toInt, if_pos hint] at h
      omega
  rw [add, if_neg hcond]
  apply shift_set
  split
  · next hmem => exact List.idxOf_lt_length_of_mem hmem
  · omega

theorem add_of_gt (hgt : chain.length < desktop) (hint : desktop < 2147483648) : chain.add desktop = chain := by
  refine if_pos (.inr ?_)
  rw [toInt, if_pos hint]
  omega

theorem add_of_mem (hmem : desktop ∈ chain) (hpos : 1 ≤ desktop) (hle : desktop ≤ chain.length)
    (hint : desktop < 2147483648) : chain.add desktop = desktop :: chain.erase desktop := by
  rw [add_eq hpos hle hint, if_pos hmem, List.erase_eq_eraseIdx_of_idxOf rfl]

/-- A desktop that is missing takes the place of the last one. -/
theorem add_of_not_mem (hmem : desktop ∉ chain) (hpos : 1 ≤ desktop) (hle : desktop ≤ chain.length)
    (hint : desktop < 2147483648) : chain.add desktop = desktop :: chain.dropLast := by
  rw [add_eq hpos hle hint, if_neg hmem, List.eraseIdx_length_sub_one]

theorem length_add (hpos : 1 ≤ desktop) (hint : desktop < 2147483648) : (chain.add desktop).length = chain.length := by
  rcases Nat.lt_or_ge chain.length desktop with hgt | hle
  · rw [add_of_gt hgt hint]
  · by_cases hmem : desktop ∈ chain
    · rw [add_of_mem hmem hpos hle hint]
      exact List.length_cons.trans (List.length_erase_add_one hmem)
    · rw [add_of_not_mem hmem hpos hle hint, List.length_cons, List.length_dropLast]
      omega

theorem Valid.add (h : Valid chain) (hpos : 1 ≤ desktop) (hint : desktop < 2147483648) : Valid (chain.add desktop) := by
  intro d hd
  rw [length_add hpos hint]
  rcases Nat.lt_or_ge chain.length desktop with hgt | hle
  · rw [add_of_gt hgt hint] at hd
    exact h d hd
  · rw [add_eq hpos hle hint] at hd
    rcases List.mem_cons.mp hd with rfl | hd
    · exact ⟨hpos, hle⟩
    · exact h d (List.mem_of_mem_eraseIdx hd)

theorem Complete.add (h : Complete chain) (hpos : 1 ≤ desktop) (hint : desktop < 2147483648) :
    Complete (chain.add desktop) := by
  rcases Nat.lt_or_ge chain.length desktop with hgt | hle
  · rwa [add_of_gt hgt hint]
  · have hmem := h.mem_iff.mpr ⟨hpos, hle⟩
    have hperm : (chain.add desktop).Perm chain := by
      rw [add_of_mem hmem hpos hle hint]
      exact (List.perm_cons_erase hmem).symm
    rw [Complete, hperm.length_eq]
    exact hperm.trans h

theorem length_resize : (chain.resize chain.length newSize).length = newSize := by
  rcases Nat.lt_or_ge newSize chain.length with h | h
  · rw [resize_shrink h, List.length_map, List.length_take, Nat.min_eq_left (Nat.le_of_lt h)]
  · rw [resize_grow h, List.length_append, List.length_range']
    omega

theorem Valid.resize (h : Valid chain) : Valid (chain.resize chain.length newSize) := by
  intro d hd
  rw [length_resize]
  rcases Nat.lt_or_ge newSize chain.length with hlt | hge
  · rw [resize_shrink hlt] at hd
    obtain ⟨a, ha, rfl⟩ := List.mem_map.mp hd
    have := h a (List.mem_of_mem_take ha)
    have : 0 < newSize := by
      rcases Nat.eq_zero_or_pos newSize with rfl | h
      · simp at ha
      · exact h
    omega
  · rw [resize_grow hge, List.mem_append, List.mem_range'_1] at hd
    rcases hd with hd | hd
    · have := h d hd
      omega
    · omega

theorem Complete.grow (h : Complete chain) (hle : chain.length ≤ newSize) :
    Complete (chain.resize chain.length newSize) := by
  rw [Complete, length_resize, resize_grow hle]
  have hsplit : init newSize = init chain.length ++ List.range' (chain.length + 1) (newSize - chain.length) := by
    rw [init, init, Nat.add_comm chain.length 1, List.range'_append_1, Nat.add_sub_cancel' hle]
  rw [hsplit]
  exact List.Perm.append_right _ h

/-- Shrinking keeps a permutation exactly when it cuts off no desktop before the last one that stays. -/
theorem Complete.shrink_iff (h : Complete chain) (hlt : newSize < chain.length) :
    Complete (chain.resize chain.length newSize) ↔ chain.Keeps newSize := by
  have hmap := resize_shrink hlt
  constructor
  · intro hc d hpos hd
    have hmem : d ∈ chain.resize chain.length newSize := hc.mem_iff.mpr ⟨hpos, by rw [length_resize]; omega⟩
    rw [hmap] at hmem
    obtain ⟨a, ha, hmin⟩ := List.mem_map.mp hmem
    obtain rfl : a = d := by omega
    exact ha
  · intro hk
    refine complete_of_nodup ?_ h.valid.resize
    have hnodup : (chain.take newSize).Nodup := h.nodup.sublist (List.take_sublist _ _)
    have hlen : (chain.take newSize).length = newSize := by
      rw [List.length_take, Nat.min_eq_left (Nat.le_of_lt hlt)]
    rw [hmap]
    refine hnodup.map_on ?_
    -- Two large entries would leave too few positions for the small ones.
    intro a ha b hb hab
    by_contra hne
    have hbig : newSize ≤ a ∧ newSize ≤ b := by omega
    have hsub : a :: b :: init (newSize - 1) ⊆ chain.take newSize := by
      intro d hd
      rcases List.mem_cons.mp hd with rfl | hd
      · exact ha
      · rcases List.mem_cons.mp hd with rfl | hd
        · exact hb
        · have := mem_init.mp hd
          exact hk d this.1 (by omega)
    have hdistinct : (a :: b :: init (newSize - 1)).Nodup := by
      have hpos : 0 < newSize := hlen ▸ List.length_pos_of_mem ha
      refine List.nodup_cons.mpr ⟨fun hmem => ?_, List.nodup_cons.mpr ⟨fun hmem => ?_, nodup_init _⟩⟩
      · rcases List.mem_cons.mp hmem with rfl | hmem
        · exact hne rfl
        · have := mem_init.mp hmem
          omega
      · have := mem_init.mp hmem
        omega
    have := (List.subperm_of_subset hdistinct hsub).length_le
    simp only [List.length_cons, length_init, hlen] at this
    omega

theorem Complete.next_advances (h : Complete chain) : Lib.Advances (fun d => some (chain.next d)) chain := by
  intro i a hi
  obtain ⟨hlt, rfl⟩ := List.getElem?_eq_some_iff.mp hi
  have hidx : chain.idxOf chain[i] = i := h.nodup.idxOf_getElem i hlt
  rcases Nat.lt_or_ge (i + 1) chain.length with hlast | hlast
  · have hnext : chain.next chain[i] = chain[i + 1] := by
      simp [next, hidx, hlast]
    rw [Nat.mod_eq_of_lt hlast, List.getElem?_eq_getElem hlast, ← hnext]
  · have hnext : chain.next chain[i] = chain[0] := by
      simp [next, hidx, Nat.not_lt.mpr hlast, Nat.lt_of_le_of_lt (Nat.zero_le i) hlt]
    have hmod : (i + 1) % chain.length = 0 := by
      rw [show i + 1 = chain.length by omega, Nat.mod_self]
    rw [hmod, List.getElem?_eq_getElem (Nat.lt_of_le_of_lt (Nat.zero_le i) hlt), ← hnext]

private theorem steps_some {α : Type*} (f : α → α) (k : Nat) (a : α) :
    Lib.steps (fun d => some (f d)) k a = some (f^[k] a) := by
  induction k generalizing a with
  | zero => rfl
  | succ k ih => rw [Lib.steps, Option.bind_some, ih, Function.iterate_succ_apply]

theorem Complete.visitsAll (h : Complete chain) : VisitsAll chain := by
  intro d hpos hle
  obtain ⟨i, hi⟩ := List.mem_iff_getElem?.mp (h.mem_iff.mpr ⟨hpos, hle⟩)
  refine ⟨?_, ?_⟩
  · have hrotate : ((List.range chain.length).map fun k => chain.next^[k] d) = chain.rotate i := by
      apply List.map_injective_iff.mpr fun _ _ => Option.some.inj
      rw [← h.next_advances.map_steps hi, List.map_map]
      exact List.map_congr_left fun k _ => (steps_some _ k d).symm
    rw [hrotate]
    exact (List.rotate_perm chain i).trans h
  · have hend := h.next_advances.steps_length hi
    rw [steps_some] at hend
    exact Option.some.inj hend

/-- The used desktops, and only these, stand in front. -/
private def Fronted (used : List Nat) (chain : DesktopChain) : Prop :=
  ∃ front rest, chain = front ++ rest ∧ front.Nodup ∧ ∀ d, d ∈ front ↔ d ∈ used ∧ 1 ≤ d ∧ d ≤ chain.length

private theorem Fronted.add {used : List Nat} (h : Fronted used chain) (hpos : 1 ≤ desktop)
    (hint : desktop < 2147483648) : Fronted (desktop :: used) (chain.add desktop) := by
  obtain ⟨front, rest, hchain, hnodup, hmem⟩ := h
  rcases Nat.lt_or_ge chain.length desktop with hgt | hle
  · rw [add_of_gt hgt hint]
    refine ⟨front, rest, hchain, hnodup, fun d => ?_⟩
    rw [hmem, List.mem_cons]
    constructor
    · rintro ⟨hu, hd⟩
      exact ⟨.inr hu, hd⟩
    · rintro ⟨rfl | hu, hd⟩
      · omega
      · exact ⟨hu, hd⟩
  · have hmem' (d : Nat) : d ∈ desktop :: front ↔
        d ∈ desktop :: used ∧ 1 ≤ d ∧ d ≤ (chain.add desktop).length := by
      rw [length_add hpos hint, List.mem_cons, List.mem_cons, hmem]
      constructor
      · rintro (rfl | ⟨hu, hd⟩)
        · exact ⟨.inl rfl, hpos, hle⟩
        · exact ⟨.inr hu, hd⟩
      · rintro ⟨rfl | hu, hd⟩
        · exact .inl rfl
        · exact .inr ⟨hu, hd⟩
    by_cases hfront : desktop ∈ front
    · refine ⟨desktop :: front.erase desktop, rest, ?_, ?_, fun d => ?_⟩
      · rw [add_of_mem (hchain ▸ List.mem_append_left rest hfront) hpos hle hint]
        subst hchain
        rw [List.erase_append_left rest hfront, List.cons_append]
      · exact (List.perm_cons_erase hfront).nodup_iff.mp hnodup
      · rw [← (List.perm_cons_erase hfront).mem_iff, ← hmem', List.mem_cons]
        exact (or_iff_right_of_imp fun heq => heq ▸ hfront).symm
    · have hnodup' : (desktop :: front).Nodup := List.nodup_cons.mpr ⟨hfront, hnodup⟩
      by_cases hrest : desktop ∈ chain
      · refine ⟨desktop :: front, rest.erase desktop, ?_, hnodup', hmem'⟩
        rw [add_of_mem hrest hpos hle hint]
        subst hchain
        rw [List.erase_append_right rest hfront, List.cons_append]
      · have hroom : rest ≠ [] := by
          -- The desktop itself has no place yet.
          have hsub : desktop :: front ⊆ init chain.length := by
            intro d hd
            have := ((hmem' d).mp hd).2
            rw [length_add hpos hint] at this
            exact mem_init.mpr this
          have hlen := (List.subperm_of_subset hnodup' hsub).length_le
          rintro rfl
          rw [hchain, List.append_nil, length_init, List.length_cons] at hlen
          omega
        refine ⟨desktop :: front, rest.dropLast, ?_, hnodup', hmem'⟩
        rw [add_of_not_mem hrest hpos hle hint]
        subst hchain
        rw [List.dropLast_append_of_ne_nil hroom, List.cons_append]

/-- Whatever was lost, a chain is a permutation again when every desktop was used. -/
theorem complete_of_used (used : List Nat) (hused : ∀ d ∈ used, 1 ≤ d ∧ d < 2147483648)
    (hall : ∀ d, 1 ≤ d → d ≤ chain.length → d ∈ used) : Complete (used.foldl add chain) := by
  have hrun : ∀ (done todo : List Nat) (c : DesktopChain), (∀ d ∈ todo, 1 ≤ d ∧ d < 2147483648) →
      c.length = chain.length → Fronted done c →
      Fronted (todo.reverse ++ done) (todo.foldl add c) ∧ (todo.foldl add c).length = chain.length := by
    intro done todo
    induction todo generalizing done with
    | nil => exact fun c _ hlen h => ⟨h, hlen⟩
    | cons d todo ih =>
      intro c htodo hlen h
      obtain ⟨hpos, hint⟩ := htodo d List.mem_cons_self
      rw [List.reverse_cons, List.append_assoc]
      exact ih (d :: done) (c.add d) (fun x hx => htodo x (List.mem_cons_of_mem d hx))
        ((length_add hpos hint).trans hlen) (h.add hpos hint)
  obtain ⟨⟨front, rest, hchain, hnodup, hmem⟩, hlen⟩ := hrun [] used chain hused rfl ⟨[], chain, by simp⟩
  have hsub : init chain.length ⊆ front := by
    intro d hd
    have hd := mem_init.mp hd
    exact (hmem d).mpr ⟨by simpa using hall d hd.1 hd.2, by rwa [hlen]⟩
  have hle := (List.subperm_of_subset (nodup_init _) hsub).length_le
  rw [length_init, ← hlen, hchain, List.length_append] at hle
  obtain rfl : rest = [] := List.eq_nil_of_length_eq_zero (by omega)
  rw [List.append_nil] at hchain
  rw [hchain]
  refine complete_of_nodup hnodup fun d hd => ?_
  have := ((hmem d).mp hd).2
  rwa [hchain] at this

end DesktopChain
end KWinFT.TabBox
