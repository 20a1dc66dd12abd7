import KWinFT.Transient.Takeover

/-! The end of a window: what is left of it in the lists of the others. Its leads always forget it;
its children do so if the loop over them comes by. -/
namespace KWinFT.Transient
namespace Windows
variable {s : Windows} {l c w x : Nat} {tidy : Prop}

/-- A loop that edits one window in each round, where a second edit of it changes nothing. -/
private theorem foldl_node {g : Windows → Nat → Windows} {f : Node → Node} (hidem : ∀ n, f (f n) = f n)
    (hsame : ∀ u, (g u x).node x = f (u.node x)) (hother : ∀ u y, y ≠ x → (g u y).node x = u.node x)
    (ys : List Nat) (s : Windows) :
    (ys.foldl g s).node x = if x ∈ ys then f (s.node x) else s.node x := by
  induction ys generalizing s with
  | nil => rfl
  | cons y ys ih =>
    rw [List.foldl_cons, ih]
    by_cases hy : y = x
    · subst hy
      rw [hsame, hidem, ite_self, if_pos List.mem_cons_self]
    · rw [hother s y hy]
      simp only [List.mem_cons, Ne.symm hy, false_or]

private def forgetChild (w : Nat) (n : Node) : Node := { n with children := n.children.filter (· ≠ w) }

private theorem forgetChild_idem (w : Nat) (n : Node) : forgetChild w (forgetChild w n) = forgetChild w n := by
  simp [forgetChild]

private theorem removeLead_idem (w : Nat) (n : Node) : (n.removeLead w).removeLead w = n.removeLead w := by
  have hgone : w ∉ (n.removeLead w).leads := by
    rw [removeLead_leads]
    simp
  rw [Node.removeLead, if_neg hgone]

private theorem foldl_forgetChild (ys : List Nat) (s : Windows) (w x : Nat) :
    (ys.foldl (fun u y => u.modify y (forgetChild w)) s).node x =
      if x ∈ ys then forgetChild w (s.node x) else s.node x :=
  foldl_node (forgetChild_idem w) (fun u => modify_node_same u x _)
    (fun u _ hy => modify_node_of_ne u hy.symm _) ys s

private theorem foldl_removeChildBase (ys : List Nat) (s : Windows) (hx : x ≠ w) :
    (ys.foldl (fun u y => u.removeChildBase w y) s).node x =
      if x ∈ ys then (s.node x).removeLead w else s.node x := by
  refine foldl_node (removeLead_idem w) (fun u => ?_) (fun u y hy => ?_) ys s
  · rw [removeChildBase, modify_node_same, modify_node_of_ne _ hx]
  · rw [removeChildBase, modify_node_of_ne _ hy.symm, modify_node_of_ne _ hx]

theorem destroy_node_same (s : Windows) (w : Nat) : (s.destroy w).node w = .dead :=
  modify_node_same (s.destroyTransient w) w fun _ => .dead

/-- The state between the two loops. -/
private def disowned (s : Windows) (w : Nat) : Windows :=
  ((s.node w).leads.foldl (fun u y => u.modify y (forgetChild w)) s).modify w fun n => { n with leads := [] }

private theorem destroyTransient_eq (s : Windows) (w : Nat) : s.destroyTransient w =
    (Lib.visits ((disowned s w).node w).children).foldl (fun u y => u.removeChildBase w y) (disowned s w) :=
  rfl

theorem destroy_node_of_ne (hx : x ≠ w) (hself : w ∉ (s.node w).leads) : (s.destroy w).node x =
    let n := if x ∈ (s.node w).leads then { s.node x with children := (s.node x).children.filter (· ≠ w) }
      else s.node x
    if x ∈ Lib.visits (s.node w).children then n.removeLead w else n := by
  have hchildren : ((disowned s w).node w).children = (s.node w).children := by
    rw [disowned, modify_node_same, foldl_forgetChild, if_neg hself]
  unfold destroy
  rw [modify_node_of_ne _ hx, destroyTransient_eq, hchildren, foldl_removeChildBase _ _ hx, disowned,
    modify_node_of_ne _ hx, foldl_forgetChild]
  rfl

theorem mem_leads_destroy (hself : w ∉ (s.node w).leads) : l ∈ ((s.destroy w).node c).leads ↔
    c ≠ w ∧ l ∈ (s.node c).leads ∧ ¬ (l = w ∧ c ∈ Lib.visits (s.node w).children) := by
  by_cases hc : c = w
  · subst hc
    rw [destroy_node_same]
    simp [Node.dead]
  · rw [destroy_node_of_ne hc hself]
    dsimp only
    split <;> split <;> simp_all [removeLead_leads]

theorem Mirrored.mem_children_destroy (h : Mirrored tidy s) :
    c ∈ ((s.destroy w).node l).children ↔ l ≠ w ∧ c ≠ w ∧ c ∈ (s.node l).children := by
  have hkeep (n : Node) : (n.removeLead w).children = n.children := by
    unfold Node.removeLead
    split <;> rfl
  by_cases hl : l = w
  · subst hl
    rw [destroy_node_same]
    simp [Node.dead]
  have hnode : ((s.destroy w).node l).children =
      if l ∈ (s.node w).leads then (s.node l).children.filter (· ≠ w) else (s.node l).children := by
    rw [destroy_node_of_ne hl fun hm => h.ne w w hm rfl]
    dsimp only
    split <;> split <;> simp_all
  rw [hnode]
  split
  · simp [hl, and_comm]
  · next hlead =>
    refine ⟨fun hc => ⟨hl, ?_, hc⟩, fun hc => hc.2.2⟩
    rintro rfl
    by_cases ha : (s.node l).alive
    · exact hlead ((h.mirror l c ha).mpr hc)
    · rw [(h.dead l (Bool.eq_false_iff.mpr ha)).2] at hc
      cases hc

/-- No list of a window that remains holds the destroyed one, exactly if it had at most two children. -/
theorem Mirrored.forgotten_iff (h : Mirrored tidy s) (hw : (s.node w).alive) :
    (∀ x, x ≠ w → w ∉ ((s.destroy w).node x).leads ∧ w ∉ ((s.destroy w).node x).children) ↔
      (s.node w).children.length ≤ 2 := by
  have hself : w ∉ (s.node w).leads := fun hm => h.ne w w hm rfl
  rw [← Lib.visits_complete_iff (h.nodup_children w)]
  constructor
  · intro hgone x hx
    by_contra hskip
    refine (hgone x (h.children_ne hx).symm).1 ((mem_leads_destroy hself).mpr ?_)
    exact ⟨(h.children_ne hx).symm, (h.mirror w x hw).mpr hx, fun hv => hskip hv.2⟩
  · intro hall x hx
    constructor
    · intro hm
      obtain ⟨-, hlead, hskip⟩ := (mem_leads_destroy hself).mp hm
      exact hskip ⟨rfl, hall x ((h.mirror w x hw).mp hlead)⟩
    · exact fun hm => (h.mem_children_destroy.mp hm).2.1 rfl

theorem destroy_frame_of_ne (hx : x ≠ w) (hself : w ∉ (s.node w).leads) :
    ((s.destroy w).node x).alive = (s.node x).alive ∧ ((s.destroy w).node x).x11 = (s.node x).x11 ∧
      ((s.destroy w).node x).group = (s.node x).group ∧
      ((s.destroy w).node x).leadId = (s.node x).leadId ∧
      ((s.destroy w).node x).remnant.isSome = (s.node x).remnant.isSome := by
  rw [destroy_node_of_ne hx hself]
  unfold Node.removeLead
  dsimp only
  split <;> split <;> (try split) <;> simp

theorem destroy_members_born (s : Windows) (w : Nat) :
    (s.destroy w).members = s.members ∧ (s.destroy w).born = s.born := by
  unfold destroy
  rw [modify_members, modify_born, destroyTransient_eq]
  refine Lib.foldl_preserves (P := fun u : Windows => u.members = s.members ∧ u.born = s.born) _
    (fun u y _ hu => ?_) ?_
  · exact hu
  · rw [disowned, modify_members, modify_born]
    refine Lib.foldl_preserves (P := fun u : Windows => u.members = s.members ∧ u.born = s.born) _
      (fun u y _ hu => ?_) ⟨rfl, rfl⟩
    exact hu

theorem destroy_sublist (hself : w ∉ (s.node w).leads) (x : Nat) :
    List.Sublist ((s.destroy w).node x).leads (s.node x).leads ∧
      List.Sublist ((s.destroy w).node x).children (s.node x).children := by
  by_cases hx : x = w
  · subst hx
    rw [destroy_node_same]
    exact ⟨List.nil_sublist _, List.nil_sublist _⟩
  · rw [destroy_node_of_ne hx hself]
    unfold Node.removeLead
    dsimp only
    split <;> split <;> (try split) <;> simp [List.filter_sublist]

theorem Base.destroy (h : Base tidy s) (hw : (s.node w).alive) (hgroup : ∀ g, w ∉ s.members g)
    (htidy : tidy → (s.node w).children.length ≤ 2) : Base tidy (s.destroy w) := by
  have hself : w ∉ (s.node w).leads := fun hm => h.ne w w hm rfl
  have hframe {y : Nat} (hy : y ≠ w) := destroy_frame_of_ne hy hself
  obtain ⟨hmembers, hborn⟩ := destroy_members_born s w
  have hne {y : Nat} (hy : ((s.destroy w).node y).alive) : y ≠ w := by
    rintro rfl
    rw [destroy_node_same] at hy
    cases hy
  have hkeep {y : Nat} (hy : y ≠ w) (hn : (s.node y).remnant = none) :
      ((s.destroy w).node y).remnant = none := by
    rw [← Option.not_isSome_iff_eq_none, (hframe hy).2.2.2.2, hn]
    simp
  refine ⟨⟨fun g m hm => ?_, fun y hy => ?_, fun y hy => ?_, fun y hy => ?_⟩,
    ⟨fun y => ?_, fun y => ?_, fun l' c' hm => h.ne l' c' ((mem_leads_destroy hself).mp hm).2.1,
      fun l' c' ha => ?_, fun l' c' hm => ?_, fun l' c' hm => ?_, fun y hy => ?_, fun ht l' c' hm => ?_⟩⟩
  · rw [hmembers] at hm
    have hmw : m ≠ w := fun heq => hgroup g (heq ▸ hm)
    rw [Windows.isClient, (hframe hmw).1, (hframe hmw).2.1, (hframe hmw).2.2.1]
    exact h.member g m hm
  · rw [hborn]
    exact h.born y ((hframe (hne hy)).1 ▸ hy)
  · by_cases hyw : y = w
    · subst hyw; rw [destroy_node_same]; rfl
    · exact hkeep hyw (h.client y ((hframe hyw).2.1 ▸ hy))
  · by_cases hyw : y = w
    · subst hyw; rw [destroy_node_same]; rfl
    · exact hkeep hyw (h.gone y ((hframe hyw).1 ▸ hy))
  · exact (h.nodup_leads y).sublist (destroy_sublist hself y).1
  · exact (h.nodup_children y).sublist (destroy_sublist hself y).2
  · have hl := hne ha
    rw [mem_leads_destroy hself, h.toMirrored.mem_children_destroy]
    rw [(hframe hl).1] at ha
    rw [h.mirror l' c' ha]
    exact ⟨fun hc => ⟨hl, hc.1, hc.2.1⟩, fun hc => ⟨hc.2.1, hc.2.2, fun heq => hl heq.1⟩⟩
  · rw [hborn]
    exact h.lead_born l' c' ((mem_leads_destroy hself).mp hm).2.1
  · obtain ⟨hl, hc, hm⟩ := h.toMirrored.mem_children_destroy.mp hm
    rw [(hframe hc).1]
    exact h.child_alive l' c' hm
  · by_cases hyw : y = w
    · subst hyw; rw [destroy_node_same]; exact ⟨rfl, rfl⟩
    · rw [(hframe hyw).1] at hy
      obtain ⟨hl, hc⟩ := h.dead y hy
      exact ⟨List.eq_nil_of_subset_nil (hl ▸ (destroy_sublist hself y).1.subset),
        List.eq_nil_of_subset_nil (hc ▸ (destroy_sublist hself y).2.subset)⟩
  · obtain ⟨hc, hlead, -⟩ := (mem_leads_destroy hself).mp hm
    have hl : l' ≠ w := by
      rintro rfl
      exact ((h.toMirrored.forgotten_iff hw).mpr (htidy ht) c' hc).1 hm
    rw [(hframe hl).1]
    exact h.lead_alive ht l' c' hlead

end Windows
end KWinFT.Transient
