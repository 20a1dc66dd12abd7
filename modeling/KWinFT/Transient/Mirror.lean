import KWinFT.Transient.Edits

/-! Both directions of the relation say the same of all windows that exist, and groups hold only
clients. Invariants of this kind pass through the grouping code by one set of lemmas. -/
namespace KWinFT.Transient
namespace Windows
variable {s s' : Windows} {l c : Nat} {tidy : Prop}

structure WellFormed (s : Windows) : Prop where
  member : ∀ g m, m ∈ s.members g → s.isClient m ∧ (s.node m).group = some g
  born : ∀ w, (s.node w).alive → w ∈ s.born
  client : ∀ w, (s.node w).x11 → (s.node w).remnant = none
  gone : ∀ w, (s.node w).alive = false → (s.node w).remnant = none

/-- Both directions agree on all windows that exist. A window that is gone may still be listed as
a lead, unless the state is `tidy`. -/
structure Mirrored (tidy : Prop) (s : Windows) : Prop where
  nodup_leads : ∀ w, (s.node w).leads.Nodup
  nodup_children : ∀ w, (s.node w).children.Nodup
  ne : ∀ l c, l ∈ (s.node c).leads → l ≠ c
  mirror : ∀ l c, (s.node l).alive → (l ∈ (s.node c).leads ↔ c ∈ (s.node l).children)
  lead_born : ∀ l c, l ∈ (s.node c).leads → l ∈ s.born
  child_alive : ∀ l c, c ∈ (s.node l).children → (s.node c).alive
  dead : ∀ w, (s.node w).alive = false → (s.node w).leads = [] ∧ (s.node w).children = []
  lead_alive : tidy → ∀ l c, l ∈ (s.node c).leads → (s.node l).alive

structure Base (tidy : Prop) (s : Windows) : Prop extends WellFormed s, Mirrored tidy s

theorem Mirrored.children_ne (h : Mirrored tidy s) (hc : c ∈ (s.node l).children) : l ≠ c := by
  by_cases ha : (s.node l).alive
  · exact h.ne l c ((h.mirror l c ha).mpr hc)
  · rw [(h.dead l (Bool.eq_false_iff.mpr ha)).2] at hc
    cases hc

theorem WellFormed.of_frame (h : WellFormed s) (hf : SameFrame s s') : WellFormed s' := by
  have hnone {w : Nat} (hr : (s.node w).remnant = none) : (s'.node w).remnant = none := by
    rw [← Option.not_isSome_iff_eq_none, hf.isRemnant w, Option.not_isSome_iff_eq_none]
    exact hr
  refine ⟨fun g m hm => ?_, fun w hw => ?_, fun w hw => hnone (h.client w (hf.x11 w ▸ hw)),
    fun w hw => hnone (h.gone w (hf.alive w ▸ hw))⟩
  · rw [hf.members] at hm
    rw [hf.isClient, hf.group]
    exact h.member g m hm
  · rw [hf.born]
    exact h.born w (hf.alive w ▸ hw)

theorem Mirrored.removeChild (h : Mirrored tidy s) (l c : Nat) : Mirrored tidy (s.removeChild l c) := by
  have hf := removeChild_frame s l c
  refine ⟨fun w => ?_, fun w => ?_, fun l' c' hm => ?_, fun l' c' ha => ?_, fun l' c' hm => ?_,
    fun l' c' hm => ?_, fun w hw => ?_, fun ht l' c' hm => ?_⟩
  · rw [removeChild_leads]
    split
    · exact (h.nodup_leads c).filter _
    · exact h.nodup_leads w
  · rw [removeChild_children]
    split
    · exact (h.nodup_children l).filter _
    · exact h.nodup_children w
  · exact h.ne l' c' ((mem_leads_removeChild s l c l' c').mp hm).1
  · rw [mem_leads_removeChild, mem_children_removeChild, h.mirror l' c' (hf.alive l' ▸ ha)]
  · rw [hf.born]
    exact h.lead_born l' c' ((mem_leads_removeChild s l c l' c').mp hm).1
  · rw [hf.alive]
    exact h.child_alive l' c' ((mem_children_removeChild s l c l' c').mp hm).1
  · rw [hf.alive] at hw
    obtain ⟨hl, hc⟩ := h.dead w hw
    constructor
    · rw [removeChild_leads]
      split
      · next heq => rw [← heq, hl]; rfl
      · exact hl
    · rw [removeChild_children]
      split
      · next heq => rw [← heq, hc]; rfl
      · exact hc
  · rw [hf.alive]
    exact h.lead_alive ht l' c' ((mem_leads_removeChild s l c l' c').mp hm).1

theorem Mirrored.addChild (h : Mirrored tidy s) (hw : WellFormed s) (hl : (s.node l).alive)
    (hc : (s.node c).alive) (hne : l ≠ c) : Mirrored tidy (s.addChild l c) := by
  by_cases hnew : c ∈ (s.node l).children
  · rwa [Windows.addChild, if_pos hnew]
  have hold : l ∉ (s.node c).leads := fun hm => hnew ((h.mirror l c hl).mp hm)
  have hf := addChild_frame s l c
  refine ⟨fun w => ?_, fun w => ?_, fun l' c' hm => ?_, fun l' c' ha => ?_, fun l' c' hm => ?_,
    fun l' c' hm => ?_, fun w hw' => ?_, fun ht l' c' hm => ?_⟩
  · rw [addChild_leads hne hnew]
    split
    · exact (h.nodup_leads c).append (List.nodup_singleton l) (by simpa using hold)
    · exact h.nodup_leads w
  · rw [addChild_children hne hnew]
    split
    · exact (h.nodup_children l).append (List.nodup_singleton c) (by simpa using hnew)
    · exact h.nodup_children w
  · rcases (mem_leads_addChild hne hnew l' c').mp hm with hm | ⟨rfl, rfl⟩
    · exact h.ne l' c' hm
    · exact hne
  · rw [mem_leads_addChild hne hnew, mem_children_addChild hne hnew,
      h.mirror l' c' (hf.alive l' ▸ ha)]
  · rw [hf.born]
    rcases (mem_leads_addChild hne hnew l' c').mp hm with hm | ⟨rfl, rfl⟩
    · exact h.lead_born l' c' hm
    · exact hw.born l' hl
  · rw [hf.alive]
    rcases (mem_children_addChild hne hnew l' c').mp hm with hm | ⟨rfl, rfl⟩
    · exact h.child_alive l' c' hm
    · exact hc
  · rw [hf.alive] at hw'
    obtain ⟨hl', hc'⟩ := h.dead w hw'
    constructor
    · rw [addChild_leads hne hnew, if_neg fun heq => by rw [← heq, hw'] at hc; cases hc]
      exact hl'
    · rw [addChild_children hne hnew, if_neg fun heq => by rw [← heq, hw'] at hl; cases hl]
      exact hc'
  · rw [hf.alive]
    rcases (mem_leads_addChild hne hnew l' c').mp hm with hm | ⟨rfl, rfl⟩
    · exact h.lead_alive ht l' c' hm
    · exact hl

theorem Base.removeChild (h : Base tidy s) (l c : Nat) : Base tidy (s.removeChild l c) :=
  ⟨h.toWellFormed.of_frame (removeChild_frame s l c), h.toMirrored.removeChild l c⟩

theorem Base.addChild (h : Base tidy s) (hl : (s.node l).alive) (hc : (s.node c).alive) (hne : l ≠ c) :
    Base tidy (s.addChild l c) :=
  ⟨h.toWellFormed.of_frame (addChild_frame s l c), h.toMirrored.addChild h.toWellFormed hl hc hne⟩

theorem isClient_alive {w : Nat} (h : s.isClient w) : (s.node w).alive := by
  unfold isClient at h
  simp only [Bool.and_eq_true] at h
  exact h.1

/-- What an invariant has to keep so that the grouping code keeps it: clients may lose leads they
are not transient for by their property, and get new ones where the code has looked for cycles. -/
structure Stable (tidy : Prop) (P : Windows → Prop) : Prop where
  base : ∀ s, P s → Base tidy s
  remove : ∀ s l c, P s → s.isClient l → s.isClient c → (s.node c).leadId ≠ .window l →
    P (s.removeChild l c)
  join : ∀ s l c, P s → s.isClient l → s.isClient c → l ≠ c → s.follows l c = some false →
    P (s.addChild l c)
  setGroup : ∀ s w g, P s → (∀ g', w ∈ s.members g' → g = some g') → P (s.setGroup w g)
  setMembers : ∀ s g ms, P s → (∀ m ∈ ms, s.isClient m ∧ (s.node m).group = some g) →
    P (s.setMembers g ms)

/-- The window that a client is transient for may be made its lead once more. -/
def Keeps (P : Windows → Prop) (win : Nat) : Prop :=
  ∀ s m, P s → s.isClient m → s.isClient win → m ≠ win → (s.node win).leadId = .window m →
    P (s.addChild m win)

theorem sameClient_setGroup (s : Windows) (w : Nat) (g : Option Nat) (x : Nat) :
    (s.setGroup w g).isClient x = s.isClient x := by
  unfold isClient setGroup
  by_cases hx : x = w
  · subst hx; rw [modify_node_same]
  · rw [modify_node_of_ne _ hx]

theorem mayLead_eq_true {kinds : Bool} {w x : Nat} (h : s.mayLead kinds w x = some true) :
    s.follows w x = some false := by
  unfold mayLead at h
  split at h
  · obtain ⟨b, hb, hn⟩ := Option.map_eq_some_iff.mp h
    cases b with
    | true => cases hn
    | false => exact hb
  · cases h

section stable
variable {P : Windows → Prop} (hP : Stable tidy P) {s₀ : Windows}
include hP

theorem Stable.joinMember {win m : Nat} {groupTr normalTr : Bool} (hwin : s₀.isClient win)
    (hm : s₀.isClient m) (hs : P s ∧ SameFrame s₀ s)
    (h : joinMember win groupTr normalTr s m = some s') : P s' ∧ SameFrame s₀ s' := by
  obtain ⟨hps, hf⟩ := hs
  rw [← hf.isClient] at hwin hm
  unfold Windows.joinMember at h
  split at h
  · cases h; exact ⟨hps, hf⟩
  · next hne =>
    obtain ⟨asChild, hchild, h⟩ := Option.bind_eq_some_iff.mp h
    split at h
    · next htrue =>
      cases h
      rw [htrue] at hchild
      exact ⟨hP.join s m win hps hm hwin hne (mayLead_eq_true hchild), hf.trans (addChild_frame s m win)⟩
    · obtain ⟨asLead, hlead, rfl⟩ := Option.map_eq_some_iff.mp h
      split
      · next htrue =>
        rw [htrue] at hlead
        exact ⟨hP.join s win m hps hwin hm (Ne.symm hne) (mayLead_eq_true hlead),
          hf.trans (addChild_frame s win m)⟩
      · exact ⟨hps, hf⟩

theorem Stable.releadMember {lead m : Nat} (hlead : s₀.isClient lead) (hm : s₀.isClient m)
    (hs : P s ∧ SameFrame s₀ s) (h : releadMember m s lead = some s') : P s' ∧ SameFrame s₀ s' := by
  obtain ⟨hps, hf⟩ := hs
  rw [← hf.isClient] at hlead hm
  unfold Windows.releadMember at h
  split at h
  · cases h; exact ⟨hps, hf⟩
  · next hne =>
    obtain ⟨below, _, h⟩ := Option.bind_eq_some_iff.mp h
    split at h
    · cases h; exact ⟨hps, hf⟩
    · obtain ⟨above, habove, rfl⟩ := Option.map_eq_some_iff.mp h
      cases above with
      | true => exact ⟨hps, hf⟩
      | false =>
        exact ⟨hP.join s lead m hps hlead hm hne habove, hf.trans (addChild_frame s lead m)⟩

theorem Stable.leaveMember {win m : Nat} (hk : Keeps P win) (hwin : s₀.isClient win) (hm : s₀.isClient m)
    (hne : m ≠ win) (hs : P s ∧ SameFrame s₀ s) : P (leaveMember win s m) ∧ SameFrame s₀ (leaveMember win s m) := by
  obtain ⟨hps, hf⟩ := hs
  rw [← hf.isClient] at hwin hm
  unfold Windows.leaveMember
  split
  · next hid => exact ⟨hk s m hps hm hwin hne hid, hf.trans (addChild_frame s m win)⟩
  · next hid => exact ⟨hP.remove s m win hps hm hwin hid, hf.trans (removeChild_frame s m win)⟩

theorem Stable.updateGroupAdd {win g : Nat} (hs : P s) (hwin : s.isClient win)
    (hg : (s.node win).group = some g) (h : s.updateGroupAdd win g = some s') :
    P s' ∧ (∀ x, s'.isClient x = s.isClient x) := by
  unfold Windows.updateGroupAdd at h
  dsimp only at h
  set s₁ := if win ∈ s.members g then s else s.setMembers g (s.members g ++ [win]) with hs₁
  have hp₁ : P s₁ := by
    rw [hs₁]
    split
    · exact hs
    · refine hP.setMembers s g _ hs fun m hm => ?_
      rcases List.mem_append.mp hm with hm | hm
      · exact (hP.base s hs).member g m hm
      · rw [List.mem_singleton.mp hm]
        exact ⟨hwin, hg⟩
  have hclient (x : Nat) : s₁.isClient x = s.isClient x := by
    rw [hs₁]
    split <;> rfl
  have hloop := Lib.foldlM_preserves (P := fun s => P s ∧ SameFrame s₁ s) (s₁.members g)
    (fun b m b' hm hb hstep => hP.joinMember (hclient win ▸ hwin)
      ((hP.base s₁ hp₁).member g m hm).1 hb hstep) ⟨hp₁, .refl s₁⟩ h
  exact ⟨hloop.1, fun x => (hloop.2.isClient x).trans (hclient x)⟩

theorem Stable.updateGroupRemove {win g : Nat} (hk : Keeps P win) (hs : P s) (hwin : s.isClient win)
    (hg : (s.node win).group = some g) (h : s.updateGroupRemove win g = some s') :
    P s' ∧ (∀ x, s'.isClient x = s.isClient x) ∧ ∀ g', win ∉ s'.members g' := by
  have hb := hP.base s hs
  unfold Windows.updateGroupRemove at h
  dsimp only at h
  set s₁ := s.setMembers g ((s.members g).filter (· ≠ win)) with hs₁
  have hmem : s₁.members g = (s.members g).filter (· ≠ win) := Function.update_self g _ _
  have hp₁ : P s₁ := hP.setMembers s g _ hs fun m hm => hb.member g m (List.mem_filter.mp hm).1
  have hclient (x : Nat) : s₁.isClient x = s.isClient x := rfl
  have hmc (m : Nat) (hm : m ∈ s₁.members g) : s₁.isClient m := ((hP.base s₁ hp₁).member g m hm).1
  have hloop := Lib.foldl_preserves (P := fun s => P s ∧ SameFrame s₁ s) (s₁.members g)
    (fun b m hm hb => hP.leaveMember hk hwin (hmc m hm)
      (by rw [hmem] at hm; simpa using (List.mem_filter.mp hm).2) hb) ⟨hp₁, .refl s₁⟩
  set s₂ := (s₁.members g).foldl (Windows.leaveMember win) s₁ with hs₂
  obtain ⟨s₃, hrel, rfl⟩ := Option.map_eq_some_iff.mp h
  have hrelead : P s₃ ∧ SameFrame s₁ s₃ := by
    refine Lib.foldlM_preserves (P := fun s => P s ∧ SameFrame s₁ s) (s₂.members g)
      (fun b m b' hm hb hstep => ?_) hloop hrel
    rw [hloop.2.members] at hm
    split at hstep
    · refine Lib.foldlM_preserves (P := fun s => P s ∧ SameFrame s₁ s) (b.members g)
        (fun u lead u' hl hu hu' => ?_) hb hstep
      rw [hb.2.members] at hl
      exact hP.releadMember (hmc lead hl) (hmc m hm) hu hu'
    · cases hstep; exact hb
  have hout (g' : Nat) : win ∉ s₃.members g' := by
    rw [hrelead.2.members]
    intro hm
    by_cases hgg : g' = g
    · subst hgg
      rw [hmem] at hm
      simp at hm
    · have hother : s₁.members g' = s.members g' := Function.update_of_ne hgg _ _
      rw [hother] at hm
      rw [(hb.member g' win hm).2] at hg
      exact hgg (Option.some.inj hg)
  refine ⟨hP.setGroup s₃ win none hrelead.1 fun g' hm => absurd hm (hout g'), fun x => ?_, hout⟩
  have hset : (s₃.setGroup win none).isClient x = s₃.isClient x :=
    (sameClient_setGroup s₃ win none x)
  rw [hset, hrelead.2.isClient, hclient]

theorem Stable.leaveGroup {win : Nat} {target : Option Nat} (hk : Keeps P win) (hs : P s) (hwin : s.isClient win)
    (h : s.leaveGroup win target = some s') :
    P s' ∧ (∀ x, s'.isClient x = s.isClient x) ∧ ∀ g, win ∈ s'.members g → target = some g := by
  unfold Windows.leaveGroup at h
  split at h
  · next g hg =>
    split at h
    · obtain ⟨hp, hc, hout⟩ := hP.updateGroupRemove hk hs hwin hg h
      exact ⟨hp, hc, fun g' hm => absurd hm (hout g')⟩
    · next heq =>
      cases h
      refine ⟨hs, fun _ => rfl, fun g' hm => ?_⟩
      rw [← not_not.mp heq, ← hg]
      exact ((hP.base s hs).member g' win hm).2
  · next hg =>
    cases h
    refine ⟨hs, fun _ => rfl, fun g' hm => ?_⟩
    have := ((hP.base s hs).member g' win hm).2
    rw [hg] at this
    cases this

theorem Stable.enterGroup {win : Nat} {target : Option Nat} (hk : Keeps P win) (hs : P s) (hwin : s.isClient win)
    (h : s.enterGroup win target = some s') : P s' ∧ ∀ x, s'.isClient x = s.isClient x := by
  obtain ⟨s₁, hleave, h⟩ := Option.bind_eq_some_iff.mp h
  obtain ⟨hp₁, hc₁, hout⟩ := hP.leaveGroup hk hs hwin hleave
  have hp₂ := hP.setGroup s₁ win target hp₁ hout
  have hc₂ (x : Nat) : (s₁.setGroup win target).isClient x = s.isClient x :=
    (sameClient_setGroup s₁ win target x).trans (hc₁ x)
  cases target with
  | none => cases h; exact ⟨hp₂, hc₂⟩
  | some g =>
    have hg : ((s₁.setGroup win (some g)).node win).group = some g := by
      rw [Windows.setGroup, modify_node_same]
    obtain ⟨hp, hc⟩ := hP.updateGroupAdd hp₂ (by rw [hc₂]; exact hwin) hg h
    exact ⟨hp, fun x => (hc x).trans (hc₂ x)⟩

theorem Stable.checkGroup {win : Nat} {choice : GroupChoice} (hk : ∀ w, Keeps P w) (hs : P s) (hwin : s.isClient win)
    (h : s.checkGroup win choice = some s') : P s' ∧ ∀ x, s'.isClient x = s.isClient x := by
  unfold Windows.checkGroup at h
  split at h
  · exact hP.enterGroup (hk win) hs hwin h
  · obtain ⟨s₁, hmerge, h⟩ := Option.bind_eq_some_iff.mp h
    obtain ⟨hp₁, hc₁⟩ := Lib.foldlM_preserves (P := fun u => P u ∧ ∀ x, u.isClient x = s.isClient x)
      choice.merged (fun u change u' _ hu hstep => by
        unfold changeClientLeaderGroup at hstep
        split at hstep
        · cases hstep
        · next hm =>
          split at hstep
          · cases hstep; exact hu
          · obtain ⟨hp, hc⟩ := hP.enterGroup (hk change.1) hu.1 (not_not.mp hm) hstep
            exact ⟨hp, fun x => (hc x).trans (hu.2 x)⟩) ⟨hs, fun _ => rfl⟩ hmerge
    obtain ⟨hp, hc⟩ := hP.enterGroup (hk win) hp₁ (by rw [hc₁]; exact hwin) h
    exact ⟨hp, fun x => (hc x).trans (hc₁ x)⟩

end stable

end Windows
end KWinFT.Transient
