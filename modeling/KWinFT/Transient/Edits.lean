import KWinFT.Transient.Grouping

/-! What adding and removing a child does to each list, and what it leaves alone. -/
namespace KWinFT.Transient
namespace Windows
variable {s : Windows} {l c x : Nat}

section fields
variable (s l c x)

theorem removeLead_leads (n : Node) : (n.removeLead l).leads = n.leads.filter (· ≠ l) := by
  unfold Node.removeLead
  split
  · rfl
  · next h =>
    refine (List.filter_eq_self.mpr fun y hy => ?_).symm
    exact decide_eq_true fun heq => h (heq ▸ hy)

@[simp] theorem removeChildBase_leads : ((s.removeChildBase l c).node x).leads =
    if x = c then (s.node c).leads.filter (· ≠ l) else (s.node x).leads := by
  unfold removeChildBase
  by_cases hx : x = c
  · subst hx
    rw [modify_node_same, removeLead_leads, if_pos rfl]
    by_cases hl : x = l
    · subst hl; rw [modify_node_same]
    · rw [modify_node_of_ne _ hl]
  · rw [modify_node_of_ne _ hx, if_neg hx]
    by_cases hl : x = l
    · subst hl; rw [modify_node_same]
    · rw [modify_node_of_ne _ hl]

@[simp] theorem removeChildBase_children : ((s.removeChildBase l c).node x).children =
    if x = l then (s.node l).children.filter (· ≠ c) else (s.node x).children := by
  have hkeep (n : Node) : (n.removeLead l).children = n.children := by
    unfold Node.removeLead
    split <;> rfl
  unfold removeChildBase
  by_cases hx : x = c
  · subst hx
    rw [modify_node_same, hkeep]
    by_cases hl : x = l
    · subst hl; rw [modify_node_same, if_pos rfl]
    · rw [modify_node_of_ne _ hl, if_neg hl]
  · rw [modify_node_of_ne _ hx]
    by_cases hl : x = l
    · subst hl; rw [modify_node_same, if_pos rfl]
    · rw [modify_node_of_ne _ hl, if_neg hl]

end fields

/-- What no edit of the relation touches. -/
structure SameFrame (s s' : Windows) : Prop where
  alive : ∀ x, (s'.node x).alive = (s.node x).alive
  x11 : ∀ x, (s'.node x).x11 = (s.node x).x11
  group : ∀ x, (s'.node x).group = (s.node x).group
  isRemnant : ∀ x, (s'.node x).remnant.isSome = (s.node x).remnant.isSome
  members : s'.members = s.members
  born : s'.born = s.born

theorem SameFrame.refl (s : Windows) : SameFrame s s :=
  ⟨fun _ => rfl, fun _ => rfl, fun _ => rfl, fun _ => rfl, rfl, rfl⟩

theorem SameFrame.trans {s₁ s₂ s₃ : Windows} (h : SameFrame s₁ s₂) (h' : SameFrame s₂ s₃) :
    SameFrame s₁ s₃ :=
  ⟨fun x => (h'.alive x).trans (h.alive x), fun x => (h'.x11 x).trans (h.x11 x),
    fun x => (h'.group x).trans (h.group x), fun x => (h'.isRemnant x).trans (h.isRemnant x),
    h'.members.trans h.members, h'.born.trans h.born⟩

theorem SameFrame.isClient {s' : Windows} (h : SameFrame s s') (w : Nat) : s'.isClient w = s.isClient w := by
  rw [Windows.isClient, Windows.isClient, h.alive, h.x11]

theorem sameFrame_modify (w : Nat) {f : Node → Node}
    (hf : ∀ n, (f n).alive = n.alive ∧ (f n).x11 = n.x11 ∧ (f n).group = n.group ∧
      (f n).remnant.isSome = n.remnant.isSome) : SameFrame s (s.modify w f) := by
  have h (y : Nat) : ((s.modify w f).node y).alive = (s.node y).alive ∧
      ((s.modify w f).node y).x11 = (s.node y).x11 ∧
      ((s.modify w f).node y).group = (s.node y).group ∧
      ((s.modify w f).node y).remnant.isSome = (s.node y).remnant.isSome := by
    by_cases hy : y = w
    · subst hy
      rw [modify_node_same]
      exact hf _
    · rw [modify_node_of_ne _ hy]
      exact ⟨rfl, rfl, rfl, rfl⟩
  exact ⟨fun y => (h y).1, fun y => (h y).2.1, fun y => (h y).2.2.1, fun y => (h y).2.2.2, rfl, rfl⟩

theorem removeChildBase_frame (s : Windows) (l c : Nat) : SameFrame s (s.removeChildBase l c) := by
  unfold removeChildBase
  refine SameFrame.trans (sameFrame_modify l ?_) (sameFrame_modify c fun n => ?_)
  · exact fun n => ⟨rfl, rfl, rfl, rfl⟩
  unfold Node.removeLead
  split
  · exact ⟨rfl, rfl, rfl, by simp⟩
  · exact ⟨rfl, rfl, rfl, rfl⟩

theorem removeChild_frame (s : Windows) (l c : Nat) : SameFrame s (s.removeChild l c) := by
  unfold removeChild
  dsimp only
  split
  · exact (removeChildBase_frame s l c).trans (sameFrame_modify c fun n => ⟨rfl, rfl, rfl, rfl⟩)
  · exact removeChildBase_frame s l c

theorem addChild_frame (s : Windows) (l c : Nat) : SameFrame s (s.addChild l c) := by
  unfold addChild
  split
  · exact .refl s
  · refine SameFrame.trans (sameFrame_modify l ?_) (sameFrame_modify c ?_)
    · exact fun n => ⟨rfl, rfl, rfl, rfl⟩
    · exact fun n => ⟨rfl, rfl, rfl, by simp [Node.addLead]⟩

@[simp] theorem removeChild_leads (s : Windows) (l c x : Nat) : ((s.removeChild l c).node x).leads =
    if x = c then (s.node c).leads.filter (· ≠ l) else (s.node x).leads := by
  rw [← removeChildBase_leads s l c x]
  unfold removeChild
  dsimp only
  split
  · by_cases hx : x = c
    · subst hx; rw [modify_node_same]
    · rw [modify_node_of_ne _ hx]
  · rfl

@[simp] theorem removeChild_children (s : Windows) (l c x : Nat) : ((s.removeChild l c).node x).children =
    if x = l then (s.node l).children.filter (· ≠ c) else (s.node x).children := by
  rw [← removeChildBase_children s l c x]
  unfold removeChild
  dsimp only
  split
  · by_cases hx : x = c
    · subst hx; rw [modify_node_same]
    · rw [modify_node_of_ne _ hx]
  · rfl

theorem addChild_leads (hne : l ≠ c) (hnew : c ∉ (s.node l).children) (x : Nat) :
    ((s.addChild l c).node x).leads = if x = c then (s.node c).leads ++ [l] else (s.node x).leads := by
  unfold addChild
  rw [if_neg hnew]
  by_cases hx : x = c
  · subst hx
    rw [modify_node_same, if_pos rfl, modify_node_of_ne _ hne.symm]
    rfl
  · rw [modify_node_of_ne _ hx, if_neg hx]
    by_cases hl : x = l
    · subst hl; rw [modify_node_same]
    · rw [modify_node_of_ne _ hl]

theorem addChild_children (hne : l ≠ c) (hnew : c ∉ (s.node l).children) (x : Nat) :
    ((s.addChild l c).node x).children =
      if x = l then (s.node l).children ++ [c] else (s.node x).children := by
  unfold addChild
  rw [if_neg hnew]
  by_cases hx : x = c
  · subst hx
    rw [modify_node_same, if_neg hne.symm, modify_node_of_ne _ hne.symm]
    rfl
  · rw [modify_node_of_ne _ hx]
    by_cases hl : x = l
    · subst hl; rw [modify_node_same, if_pos rfl]
    · rw [modify_node_of_ne _ hl, if_neg hl]

theorem mem_leads_removeChild (s : Windows) (l c l' c' : Nat) :
    l' ∈ ((s.removeChild l c).node c').leads ↔ l' ∈ (s.node c').leads ∧ ¬ (l' = l ∧ c' = c) := by
  rw [removeChild_leads]
  split
  · next h => subst h; simp
  · next h => simp [h]

theorem mem_children_removeChild (s : Windows) (l c l' c' : Nat) :
    c' ∈ ((s.removeChild l c).node l').children ↔ c' ∈ (s.node l').children ∧ ¬ (l' = l ∧ c' = c) := by
  rw [removeChild_children]
  split
  · next h => subst h; simp
  · next h => simp [h]

theorem mem_leads_addChild (hne : l ≠ c) (hnew : c ∉ (s.node l).children) (l' c' : Nat) :
    l' ∈ ((s.addChild l c).node c').leads ↔ l' ∈ (s.node c').leads ∨ l' = l ∧ c' = c := by
  rw [addChild_leads hne hnew]
  split
  · next h => subst h; simp
  · next h => simp [h]

theorem mem_children_addChild (hne : l ≠ c) (hnew : c ∉ (s.node l).children) (l' c' : Nat) :
    c' ∈ ((s.addChild l c).node l').children ↔ c' ∈ (s.node l').children ∨ l' = l ∧ c' = c := by
  rw [addChild_children hne hnew]
  split
  · next h => subst h; simp
  · next h => simp [h]

end Windows
end KWinFT.Transient
