import KWinFT.Transient.Mirror

/-! The two edits that touch many windows at once: a remnant takes over all leads and children of
its window, and a window that is destroyed is forgotten by its leads and children. -/
namespace KWinFT.Transient
namespace Windows
variable {s s' : Windows} {l c w x r src : Nat} {tidy : Prop}

theorem Mirrored.mem_leads_addChild (h : Mirrored tidy s) (hl : (s.node l).alive) (hne : l ≠ c)
    (l' c' : Nat) :
    l' ∈ ((s.addChild l c).node c').leads ↔ l' ∈ (s.node c').leads ∨ l' = l ∧ c' = c := by
  by_cases hnew : c ∈ (s.node l).children
  · rw [Windows.addChild, if_pos hnew, iff_self_or]
    rintro ⟨rfl, rfl⟩
    exact (h.mirror l' c' hl).mpr hnew
  · exact Windows.mem_leads_addChild hne hnew l' c'

/-- Edges are replaced one by one. Nothing that is put in is taken out again. -/
theorem Base.exchange (new old : Nat → Nat × Nat) (xs : List Nat) (h : Base tidy s)
    (hnew : ∀ y ∈ xs, (s.node (new y).1).alive ∧ (s.node (new y).2).alive ∧ (new y).1 ≠ (new y).2)
    (hold : ∀ y ∈ xs, ∀ z ∈ xs, new y ≠ old z)
    (hs' : s' = xs.foldl (fun u y =>
      (u.addChild (new y).1 (new y).2).removeChild (old y).1 (old y).2) s) :
    Base tidy s' ∧ SameFrame s s' ∧ ∀ l c, l ∈ (s'.node c).leads ↔
      (l ∈ (s.node c).leads ∨ ∃ y ∈ xs, new y = (l, c)) ∧ ¬ ∃ y ∈ xs, old y = (l, c) := by
  induction xs generalizing s with
  | nil =>
    rw [hs']
    exact ⟨h, .refl s, fun l c => by simp⟩
  | cons y ys ih =>
    obtain ⟨ha₁, ha₂, hne⟩ := hnew y List.mem_cons_self
    set u := (s.addChild (new y).1 (new y).2).removeChild (old y).1 (old y).2 with hu
    have hframe : SameFrame s u := (addChild_frame s _ _).trans (removeChild_frame _ _ _)
    obtain ⟨hb, hf, hmem⟩ := ih ((h.addChild ha₁ ha₂ hne).removeChild _ _)
      (fun z hz => by
        rw [← hu, hframe.alive, hframe.alive]
        exact hnew z (List.mem_cons_of_mem y hz))
      (fun z hz z' hz' => hold z (List.mem_cons_of_mem y hz) z' (List.mem_cons_of_mem y hz')) hs'
    refine ⟨hb, hframe.trans hf, fun l c => ?_⟩
    rw [hmem, mem_leads_removeChild, h.toMirrored.mem_leads_addChild ha₁ hne]
    have hfst : (l = (new y).1 ∧ c = (new y).2) ↔ new y = (l, c) := by
      rw [Prod.ext_iff, eq_comm, @eq_comm _ c]
    have hsnd : (l = (old y).1 ∧ c = (old y).2) ↔ old y = (l, c) := by
      rw [Prod.ext_iff, eq_comm, @eq_comm _ c]
    rw [hfst, hsnd]
    simp only [List.mem_cons, exists_eq_or_imp]
    constructor
    · rintro ⟨⟨h₁ | h₁, h₂⟩ | ⟨z, hz, hzn⟩, h₃⟩
      · exact ⟨.inl h₁, not_or.mpr ⟨h₂, h₃⟩⟩
      · exact ⟨.inr (.inl h₁), not_or.mpr ⟨h₂, h₃⟩⟩
      · refine ⟨.inr (.inr ⟨z, hz, hzn⟩), not_or.mpr ⟨fun hy => ?_, h₃⟩⟩
        exact hold z (List.mem_cons_of_mem y hz) y List.mem_cons_self (hzn.trans hy.symm)
    · rintro ⟨h₁ | h₁ | h₁, h₂⟩
      · exact ⟨.inl ⟨.inl h₁, (not_or.mp h₂).1⟩, (not_or.mp h₂).2⟩
      · exact ⟨.inl ⟨.inr h₁, (not_or.mp h₂).1⟩, (not_or.mp h₂).2⟩
      · exact ⟨.inr h₁, (not_or.mp h₂).2⟩

theorem appear_node_of_ne (hx : x ≠ w) (x11 : Bool) : (s.appear w x11).node x = s.node x :=
  modify_node_of_ne s hx fun _ => .fresh x11

theorem appear_node_same (s : Windows) (w : Nat) (x11 : Bool) : (s.appear w x11).node w = .fresh x11 :=
  modify_node_same s w fun _ => .fresh x11

theorem Base.not_alive (h : Base tidy s) (hw : w ∉ s.born) : (s.node w).alive = false :=
  Bool.eq_false_iff.mpr fun ha => hw (h.born w ha)

/-- Nothing can refer to a window that was never there, so both lists stay as they are. -/
theorem Base.appear_lists (h : Base tidy s) (hw : w ∉ s.born) (x11 : Bool) (x : Nat) :
    ((s.appear w x11).node x).leads = (s.node x).leads ∧
      ((s.appear w x11).node x).children = (s.node x).children := by
  by_cases hx : x = w
  · subst hx
    obtain ⟨hl, hc⟩ := h.dead x (h.not_alive hw)
    rw [appear_node_same, hl, hc]
    exact ⟨rfl, rfl⟩
  · rw [appear_node_of_ne hx]
    exact ⟨rfl, rfl⟩

theorem appear_alive (hx : (s.node x).alive) (w : Nat) (x11 : Bool) : ((s.appear w x11).node x).alive := by
  by_cases h : x = w
  · subst h; rw [appear_node_same]; rfl
  · rwa [appear_node_of_ne h]

theorem Base.appear (h : Base tidy s) (hw : w ∉ s.born) (x11 : Bool) : Base tidy (s.appear w x11) := by
  have hlists := h.appear_lists hw x11
  have hne {y : Nat} (hy : (s.node y).alive) : y ≠ w := fun heq => hw (heq ▸ h.born y hy)
  have hother {y : Nat} (hy : ((s.appear w x11).node y).alive = false) : y ≠ w := by
    rintro rfl
    rw [appear_node_same] at hy
    cases hy
  refine ⟨⟨fun g m hm => ?_, fun y hy => ?_, fun y hy => ?_, fun y hy => ?_⟩,
    ⟨fun y => (hlists y).1 ▸ h.nodup_leads y, fun y => (hlists y).2 ▸ h.nodup_children y,
      fun l' c' hm => h.ne l' c' ((hlists c').1 ▸ hm), fun l' c' ha => ?_,
      fun l' c' hm => List.mem_cons_of_mem w (h.lead_born l' c' ((hlists c').1 ▸ hm)),
      fun l' c' hm => appear_alive (h.child_alive l' c' ((hlists l').2 ▸ hm)) w x11, fun y hy => ?_,
      fun ht l' c' hm => appear_alive (h.lead_alive ht l' c' ((hlists c').1 ▸ hm)) w x11⟩⟩
  · obtain ⟨hclient, hg⟩ := h.member g m hm
    have hm' := hne (isClient_alive hclient)
    rw [Windows.isClient, appear_node_of_ne hm']
    exact ⟨hclient, hg⟩
  · by_cases hyw : y = w
    · rw [hyw]; exact List.mem_cons_self
    · rw [appear_node_of_ne hyw] at hy
      exact List.mem_cons_of_mem w (h.born y hy)
  · by_cases hyw : y = w
    · subst hyw; rw [appear_node_same]; rfl
    · rw [appear_node_of_ne hyw] at hy ⊢
      exact h.client y hy
  · have hyw := hother hy
    rw [appear_node_of_ne hyw] at hy ⊢
    exact h.gone y hy
  · rw [(hlists c').1, (hlists l').2]
    by_cases hl : l' = w
    · -- the window that appeared has no children, and it was nobody's lead before
      subst hl
      rw [(h.dead l' (h.not_alive hw)).2]
      exact ⟨fun hm => absurd (h.lead_born l' c' hm) hw, fun hm => absurd hm List.not_mem_nil⟩
    · rw [appear_node_of_ne hl] at ha
      exact h.mirror l' c' ha
  · rw [(hlists y).1, (hlists y).2]
    have hyw := hother hy
    rw [appear_node_of_ne hyw] at hy
    exact h.dead y hy

/-- The relation after a transfer: the remnant stands where the window was. -/
theorem Base.transfer (h : Base tidy s) (hr : r ∉ s.born) (hsrc : (s.node src).alive)
    (hleads : ∀ l ∈ (s.node src).leads, (s.node l).alive) :
    Base tidy ((s.appear r false).transfer r src) ∧
      SameFrame (s.appear r false) ((s.appear r false).transfer r src) ∧
      ∀ l c, l ∈ (((s.appear r false).transfer r src).node c).leads ↔
        (l ∈ (s.node c).leads ∧ l ≠ src ∧ c ≠ src) ∨ (l ∈ (s.node src).leads ∧ c = r) ∨
          (l = r ∧ src ∈ (s.node c).leads) := by
  have hne {y : Nat} (hy : (s.node y).alive) : y ≠ r := fun heq => hr (heq ▸ h.born y hy)
  have hlists := h.appear_lists hr false
  have hsame (y : Nat) : (s.node y).alive → ((s.appear r false).node y).alive :=
    fun hy => appear_alive hy r false
  have hnolead (y : Nat) : r ∉ (s.node y).leads := fun hm => hr (h.lead_born r y hm)
  have hself : src ∉ (s.node src).leads := fun hm => h.ne src src hm rfl
  have hrfresh : ((s.appear r false).node r).alive := by rw [appear_node_same]; rfl
  obtain ⟨hb₁, hf₁, hmem₁⟩ := Base.exchange (fun l => (l, r)) (fun l => (l, src))
    ((s.appear r false).node src).leads (h.appear hr false)
    (fun y hy => by
      rw [(hlists src).1] at hy
      exact ⟨hsame y (hleads y hy), hrfresh, hne (hleads y hy)⟩)
    (fun y _ z _ heq => hne hsrc (Prod.mk.inj heq).2.symm) rfl
  set s₁ := ((s.appear r false).node src).leads.foldl (fun u y =>
    (u.addChild (y, r).1 (y, r).2).removeChild (y, src).1 (y, src).2) (s.appear r false)
  have hsrc₁ : (s₁.node src).alive := by rw [hf₁.alive]; exact hsame src hsrc
  have hchild (y : Nat) (hy : y ∈ (s₁.node src).children) : src ∈ (s.node y).leads := by
    rw [← hb₁.mirror src y hsrc₁, hmem₁] at hy
    obtain ⟨hy | ⟨z, hz, hzy⟩, -⟩ := hy
    · rwa [(hlists y).1] at hy
    · rw [(Prod.mk.inj hzy).1, (hlists src).1] at hz
      exact absurd hz hself
  obtain ⟨hb₂, hf₂, hmem₂⟩ := Base.exchange (fun c => (r, c)) (fun c => (src, c)) (s₁.node src).children
    hb₁ (fun y hy => by
      rw [hf₁.alive, hf₁.alive]
      have hy' := h.child_alive src y ((h.mirror src y hsrc).mp (hchild y hy))
      exact ⟨hrfresh, hsame y hy', (hne hy').symm⟩)
    (fun y _ z _ heq => hne hsrc (Prod.mk.inj heq).1.symm) rfl
  refine ⟨hb₂, hf₁.trans hf₂, fun l c => ?_⟩
  have hD : c ∈ (s₁.node src).children ↔ src ∈ (s.node c).leads := by
    refine ⟨hchild c, fun hc => ?_⟩
    rw [← hb₁.mirror src c hsrc₁, hmem₁, (hlists c).1]
    refine ⟨.inl hc, ?_⟩
    rintro ⟨y, hy, heq⟩
    rw [(hlists src).1, (Prod.mk.inj heq).1] at hy
    exact hself hy
  have h₂ := hmem₂ l c
  rw [hmem₁, (hlists c).1, (hlists src).1] at h₂
  simp only [Prod.mk.injEq] at h₂
  refine h₂.trans ?_
  have hsr := hne hsrc
  clear * - hself hnolead hsr hD
  constructor
  · grind
  · grind

/-- Edits of single windows that the relation is not part of. -/
theorem Mirrored.modify (h : Mirrored tidy s) (w : Nat) {f : Node → Node}
    (hf : ∀ n, (f n).leads = n.leads ∧ (f n).children = n.children ∧ (f n).alive = n.alive) :
    Mirrored tidy (s.modify w f) := by
  have hnode (y : Nat) : ((s.modify w f).node y).leads = (s.node y).leads ∧
      ((s.modify w f).node y).children = (s.node y).children ∧
      ((s.modify w f).node y).alive = (s.node y).alive := by
    by_cases hy : y = w
    · subst hy; rw [modify_node_same]; exact hf _
    · rw [modify_node_of_ne _ hy]; exact ⟨rfl, rfl, rfl⟩
  refine ⟨fun y => ?_, fun y => ?_, fun l' c' => ?_, fun l' c' => ?_, fun l' c' => ?_, fun l' c' => ?_,
    fun y => ?_, fun ht l' c' => ?_⟩
  · rw [(hnode y).1]; exact h.nodup_leads y
  · rw [(hnode y).2.1]; exact h.nodup_children y
  · rw [(hnode c').1]; exact h.ne l' c'
  · rw [(hnode c').1, (hnode l').2.1, (hnode l').2.2]; exact h.mirror l' c'
  · rw [(hnode c').1]; exact h.lead_born l' c'
  · rw [(hnode l').2.1, (hnode c').2.2]; exact h.child_alive l' c'
  · rw [(hnode y).1, (hnode y).2.1, (hnode y).2.2]; exact h.dead y
  · rw [(hnode c').1, (hnode l').2.2]; exact h.lead_alive ht l' c'

/-- What the takeover gives besides the transfer is only the count of references. -/
theorem Base.createRemnant (h : Base tidy s) (hr : r ∉ s.born) (hsrc : (s.node src).alive)
    (hleads : ∀ l ∈ (s.node src).leads, (s.node l).alive) : Base tidy (s.createRemnant r src) := by
  obtain ⟨hb, hf, -⟩ := h.transfer hr hsrc hleads
  have hnew : (((s.appear r false).transfer r src).node r).alive ∧
      (((s.appear r false).transfer r src).node r).x11 = false := by
    rw [hf.alive, hf.x11, appear_node_same]
    exact ⟨rfl, rfl⟩
  unfold Windows.createRemnant
  dsimp only
  refine ⟨⟨fun g m hm => ?_, fun y hy => ?_, fun y hy => ?_, fun y hy => ?_⟩,
    hb.toMirrored.modify r fun n => ?_⟩
  · obtain ⟨hc, hg⟩ := hb.member g m hm
    have hmr : m ≠ r := by
      rintro rfl
      unfold Windows.isClient at hc
      rw [hnew.2, Bool.and_false] at hc
      cases hc
    rw [Windows.isClient, modify_node_of_ne _ hmr]
    exact ⟨hc, hg⟩
  · by_cases hyr : y = r
    · exact hyr ▸ hb.born r hnew.1
    · rw [modify_node_of_ne _ hyr] at hy
      exact hb.born y hy
  · by_cases hyr : y = r
    · subst hyr
      rw [modify_node_same, hnew.2] at hy
      cases hy
    · rw [modify_node_of_ne _ hyr] at hy ⊢
      exact hb.client y hy
  · by_cases hyr : y = r
    · subst hyr
      rw [modify_node_same, hnew.1] at hy
      cases hy
    · rw [modify_node_of_ne _ hyr] at hy ⊢
      exact hb.gone y hy
  · exact ⟨rfl, rfl, rfl⟩

end Windows
end KWinFT.Transient
