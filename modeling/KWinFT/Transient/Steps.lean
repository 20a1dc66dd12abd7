import KWinFT.Transient.Destroy

/-! Every event keeps both directions of the relation in agreement, whatever came before it. Only
the destruction of a window can leave something behind. -/
namespace KWinFT.Transient
namespace Windows
variable {s s' : Windows} {w win l c : Nat} {tidy : Prop}

theorem Base.of_frame (h : Base tidy s) (w : Nat) {f : Node → Node}
    (hf : ∀ n, (f n).alive = n.alive ∧ (f n).x11 = n.x11 ∧ (f n).group = n.group ∧
      (f n).remnant.isSome = n.remnant.isSome) (hl : ∀ n, (f n).leads = n.leads)
    (hc : ∀ n, (f n).children = n.children) : Base tidy (s.modify w f) :=
  ⟨h.toWellFormed.of_frame (sameFrame_modify w hf),
    h.toMirrored.modify w fun n => ⟨hl n, hc n, (hf n).1⟩⟩

theorem Base.setLeadId (h : Base tidy s) (w : Nat) (id : LeadId) : Base tidy (s.setLeadId w id) :=
  h.of_frame w (fun _ => ⟨rfl, rfl, rfl, rfl⟩) (fun _ => rfl) fun _ => rfl

theorem Base.setGroup (h : Base tidy s) {g : Option Nat} (hg : ∀ g', w ∈ s.members g' → g = some g') :
    Base tidy (s.setGroup w g) := by
  have hkeep (y : Nat) : ((s.setGroup w g).node y).alive = (s.node y).alive ∧
      ((s.setGroup w g).node y).x11 = (s.node y).x11 ∧
      ((s.setGroup w g).node y).remnant = (s.node y).remnant := by
    unfold Windows.setGroup
    by_cases hy : y = w
    · subst hy; rw [modify_node_same]; exact ⟨rfl, rfl, rfl⟩
    · rw [modify_node_of_ne _ hy]; exact ⟨rfl, rfl, rfl⟩
  refine ⟨⟨fun g' m hm => ?_, fun y hy => ?_, fun y hy => ?_, fun y hy => ?_⟩,
    h.toMirrored.modify w fun _ => ⟨rfl, rfl, rfl⟩⟩
  · obtain ⟨hc, hm'⟩ := h.member g' m hm
    refine ⟨by rwa [sameClient_setGroup], ?_⟩
    unfold Windows.setGroup
    by_cases hmw : m = w
    · subst hmw; rw [modify_node_same]; exact hg g' hm
    · rw [modify_node_of_ne _ hmw]; exact hm'
  · exact h.born y ((hkeep y).1 ▸ hy)
  · rw [(hkeep y).2.2]; exact h.client y ((hkeep y).2.1 ▸ hy)
  · rw [(hkeep y).2.2]; exact h.gone y ((hkeep y).1 ▸ hy)

theorem Base.setMembers (h : Base tidy s) {g : Nat} {ms : List Nat}
    (hms : ∀ m ∈ ms, s.isClient m ∧ (s.node m).group = some g) : Base tidy (s.setMembers g ms) := by
  refine ⟨⟨fun g' m hm => ?_, h.born, h.client, h.gone⟩, ⟨h.nodup_leads, h.nodup_children, h.ne, h.mirror,
    h.lead_born, h.child_alive, h.dead, h.lead_alive⟩⟩
  change m ∈ Function.update s.members g ms g' at hm
  by_cases hg : g' = g
  · subst hg
    rw [Function.update_self] at hm
    exact hms m hm
  · rw [Function.update_of_ne hg] at hm
    exact h.member g' m hm

theorem Base.stable (tidy : Prop) : Stable tidy (Base tidy) where
  base _ h := h
  remove _ l c h _ _ _ := h.removeChild l c
  join _ _ _ h hl hc hne _ := h.addChild (isClient_alive hl) (isClient_alive hc) hne
  setGroup _ _ _ h hg := h.setGroup hg
  setMembers _ _ _ h hms := h.setMembers hms

theorem Base.keeps (tidy : Prop) (win : Nat) : Keeps (Base tidy) win :=
  fun _ _ h hm hwin hne _ => h.addChild (isClient_alive hm) (isClient_alive hwin) hne

theorem Base.detach (h : Base tidy s) (win : Nat) : Base tidy (s.detach win) :=
  Lib.foldl_preserves _ (fun _ lead _ hu => hu.removeChild lead win) h

theorem detach_frame (s : Windows) (win : Nat) : SameFrame s (s.detach win) :=
  Lib.foldl_preserves (P := SameFrame s) _ (fun u lead _ hu => hu.trans (removeChild_frame u lead win))
    (.refl s)

theorem setLeadId_frame (s : Windows) (w : Nat) (id : LeadId) : SameFrame s (s.setLeadId w id) :=
  sameFrame_modify w fun _ => ⟨rfl, rfl, rfl, rfl⟩

theorem findClient_eq_some {id : LeadId} (h : s.findClient id = some l) : id = .window l ∧ s.isClient l := by
  unfold findClient at h
  split at h
  · split at h
    · next hc => cases h; exact ⟨rfl, hc⟩
    · cases h
  · cases h

theorem attach_frame (s : Windows) (win l : Nat) : SameFrame s (s.attach win l) := by
  unfold attach
  split
  · exact (removeChild_frame s win l).trans (addChild_frame _ l win)
  · exact addChild_frame s l win

theorem Base.attach (h : Base tidy s) (hwin : (s.node win).alive) (hl : (s.node l).alive) (hne : l ≠ win) :
    Base tidy (s.attach win l) := by
  unfold Windows.attach
  split
  · refine (h.removeChild win l).addChild ?_ ?_ hne
    · rwa [(removeChild_frame s win l).alive]
    · rwa [(removeChild_frame s win l).alive]
  · exact h.addChild hl hwin hne

/-- An invariant of the grouping code survives a new lead if the window has it while it waits for
its group: with the leads dropped, the id set and the new lead attached. -/
theorem Stable.setTransientLead {P : Windows → Prop} {id : LeadId} {choice : GroupChoice}
    (hP : Stable tidy P) (hk : ∀ w, Keeps P w) (hs : P s) (hwin : s.isClient win)
    (hlead : ∀ l, id ≠ (s.node win).leadId → id = .window l → s.isClient l →
      P (((s.detach win).setLeadId win id).attach win l))
    (hnone : (∀ l, id ≠ .window l) → P ((s.detach win).setLeadId win id))
    (h : s.setTransientLead win id choice = some s') : P s' := by
  unfold Windows.setTransientLead at h
  split at h
  · cases h; exact hs
  next hid =>
  obtain ⟨s₁, hreplace, hcheck⟩ := Option.bind_eq_some_iff.mp h
  have hf : SameFrame s ((s.detach win).setLeadId win id) :=
    (detach_frame s win).trans (setLeadId_frame _ win id)
  suffices h₁ : P s₁ ∧ s₁.isClient win from (hP.checkGroup hk h₁.1 h₁.2 hcheck).1
  unfold replaceLead at hreplace
  dsimp only at hreplace
  split at hreplace
  · obtain ⟨lead, hfind, rfl⟩ := Option.map_eq_some_iff.mp hreplace
    obtain ⟨heq, hclient⟩ := findClient_eq_some hfind
    rw [hf.isClient] at hclient
    refine ⟨hlead lead hid heq hclient, ?_⟩
    rwa [(attach_frame _ win lead).isClient, hf.isClient]
  · next hno =>
    cases hreplace
    exact ⟨hnone hno, by rwa [hf.isClient]⟩

theorem Base.setTransientLead {id : LeadId} {choice : GroupChoice} (h : Base tidy s)
    (hwin : s.isClient win) (hid : id ≠ .window win) (hs : s.setTransientLead win id choice = some s') :
    Base tidy s' := by
  have hf : SameFrame s ((s.detach win).setLeadId win id) :=
    (detach_frame s win).trans (setLeadId_frame _ win id)
  refine (Base.stable tidy).setTransientLead (Base.keeps tidy) h hwin (fun l _ heq hl => ?_) (fun _ => ?_) hs
  · refine ((h.detach win).setLeadId win id).attach ?_ ?_ fun hself => hid (hself ▸ heq)
    · rw [hf.alive]; exact isClient_alive hwin
    · rw [hf.alive]; exact isClient_alive hl
  · exact (h.detach win).setLeadId win id

theorem transfer_frame (s : Windows) (r src : Nat) : SameFrame s (s.transfer r src) := by
  refine Lib.foldl_preserves (P := SameFrame s) _ (fun u y _ hu => ?_) ?_
  · exact hu.trans ((addChild_frame u r y).trans (removeChild_frame _ src y))
  · refine Lib.foldl_preserves (P := SameFrame s) _ (fun u y _ hu => ?_) (.refl s)
    exact hu.trans ((addChild_frame u y r).trans (removeChild_frame _ y src))

theorem createRemnant_frame_of_ne {r x : Nat} (src : Nat) (hx : x ≠ r) (s : Windows) :
    ((s.createRemnant r src).node x).alive = (s.node x).alive ∧
      ((s.createRemnant r src).node x).x11 = (s.node x).x11 ∧
      ((s.createRemnant r src).node x).group = (s.node x).group := by
  have hf := transfer_frame (s.appear r false) r src
  unfold createRemnant
  dsimp only
  rw [modify_node_of_ne _ hx, hf.alive, hf.x11, hf.group, appear_node_of_ne hx]
  exact ⟨rfl, rfl, rfl⟩

theorem Stable.cleanGrouping {P : Windows → Prop} (hP : Stable tidy P) (hk : Keeps P win)
    (hs : P (s.setLeadId win .none)) (hwin : s.isClient win) (h : s.cleanGrouping win = some s') :
    P s' ∧ (∀ x, s'.isClient x = s.isClient x) ∧ ∀ g, win ∉ s'.members g := by
  have hclient := (setLeadId_frame s win .none).isClient
  unfold Windows.cleanGrouping at h
  dsimp only at h
  split at h
  · next g hg =>
    obtain ⟨hp, hc, hout⟩ := hP.updateGroupRemove hk hs (by rwa [hclient]) hg h
    exact ⟨hp, fun x => (hc x).trans (hclient x), hout⟩
  · next hg =>
    cases h
    refine ⟨hs, hclient, fun g hm => ?_⟩
    have := ((hP.base _ hs).member g win hm).2
    rw [hg] at this
    cases this

/-- A client outside of all groups may stop being one. -/
theorem Base.unmanage (h : Base tidy s) (hw : ∀ g, w ∉ s.members g) :
    Base tidy (s.modify w fun n => { n with x11 := false }) := by
  refine ⟨⟨fun g m hm => ?_, fun y hy => ?_, fun y hy => ?_, fun y hy => ?_⟩,
    h.toMirrored.modify w fun _ => ⟨rfl, rfl, rfl⟩⟩
  · have hmw : m ≠ w := fun heq => hw g (heq ▸ hm)
    rw [isClient, modify_node_of_ne _ hmw]
    exact h.member g m hm
  · by_cases hyw : y = w
    · subst hyw; rw [modify_node_same] at hy; exact h.born y hy
    · rw [modify_node_of_ne _ hyw] at hy; exact h.born y hy
  · by_cases hyw : y = w
    · subst hyw; rw [modify_node_same] at hy; cases hy
    · rw [modify_node_of_ne _ hyw] at hy ⊢; exact h.client y hy
  · by_cases hyw : y = w
    · subst hyw; rw [modify_node_same] at hy ⊢; exact h.gone y hy
    · rw [modify_node_of_ne _ hyw] at hy ⊢; exact h.gone y hy

/-- A closing window either only hands over to its remnant, or is a client that leaves its group
and then is none any more. -/
theorem Stable.close {P : Windows → Prop} {r src : Nat} (hP : Stable tidy P) (hk : Keeps P src)
    (hb : Base tidy s) (hr : r ∉ s.born) (hsrc : (s.node src).alive)
    (hs : s.isClient src → P ((s.createRemnant r src).setLeadId src .none))
    (h : s.close r src = some s') : s.isClient src = false ∧ s' = s.createRemnant r src ∨
      ∃ s₁, P s₁ ∧ (∀ g, src ∉ s₁.members g) ∧ s' = s₁.modify src fun n => { n with x11 := false } := by
  have hne : src ≠ r := fun heq => hr (heq ▸ hb.born src hsrc)
  obtain ⟨halive, hx11, -⟩ := createRemnant_frame_of_ne src hne s
  have hclient : s.isClient src = ((s.createRemnant r src).node src).x11 := by
    rw [isClient, hx11, hsrc, Bool.true_and]
  unfold Windows.close at h
  dsimp only at h
  split at h
  · next hx =>
    obtain ⟨s₁, hclean, rfl⟩ := Option.map_eq_some_iff.mp h
    have hwin : (s.createRemnant r src).isClient src := by
      rw [isClient, halive, hsrc, hx]
      rfl
    obtain ⟨hp, -, hout⟩ := hP.cleanGrouping hk (hs (hclient.trans hx)) hwin hclean
    exact .inr ⟨s₁, hp, hout, rfl⟩
  · next hx =>
    cases h
    exact .inl ⟨by rw [hclient]; exact Bool.eq_false_iff.mpr hx, rfl⟩

theorem Base.close {r src : Nat} (h : Base tidy s) (hr : r ∉ s.born) (hsrc : (s.node src).alive)
    (hleads : ∀ l ∈ (s.node src).leads, (s.node l).alive) (hs : s.close r src = some s') :
    Base tidy s' := by
  have hb := h.createRemnant hr hsrc hleads
  rcases (Base.stable tidy).close (Base.keeps tidy src) h hr hsrc (fun _ => hb.setLeadId src .none) hs with
    ⟨-, rfl⟩ | ⟨s₁, hb₁, hout, rfl⟩
  · exact hb
  · exact hb₁.unmanage hout

theorem onRemnant_eq_some {r : Nat} {p : Remnant → Bool} {f : Remnant → Remnant}
    (h : s.onRemnant r p f = some s') : ∃ rem, (s.node r).remnant = some rem ∧ p rem ∧
      s' = s.modify r fun n => { n with remnant := n.remnant.map f } := by
  unfold onRemnant at h
  split at h
  · next rem hrem =>
    split at h
    · next hp => cases h; exact ⟨rem, hrem, hp, rfl⟩
    · cases h
  · cases h

theorem Base.mapRemnant (h : Base tidy s) (r : Nat) (f : Remnant → Remnant) :
    Base tidy (s.modify r fun n => { n with remnant := n.remnant.map f }) :=
  h.of_frame r (fun _ => ⟨rfl, rfl, rfl, by simp⟩) (fun _ => rfl) fun _ => rfl

theorem checkedLeadId_eq_window {id : LeadId} (h : s.checkedLeadId win id = .window l) :
    s.isClient l ∧ s.leadIdLoop win 20 (.window l) = false := by
  unfold checkedLeadId at h
  dsimp only at h
  by_cases hloop : s.leadIdLoop win 20 id
  · rw [if_pos hloop] at h
    simp at h
  · rw [if_neg hloop] at h
    split at h
    · cases h
    · next hok =>
      subst h
      refine ⟨?_, Bool.not_eq_true _ ▸ hloop⟩
      by_contra hc
      exact hok ⟨by simp, by simp [findClient, hc]⟩

/-- A verified id names another client, whose chain of lead ids does not come back. -/
theorem verifyTransientFor_eq_window {p : Property} (h : s.verifyTransientFor win p = .window l) :
    s.isClient l ∧ s.leadIdLoop win 20 (.window l) = false := by
  unfold verifyTransientFor at h
  extract_lets id id' id'' before found at h
  split at h
  · cases h
  · exact checkedLeadId_eq_window h

theorem leadIdLoop_step {n : Nat} (hl : s.isClient l) (h : s.leadIdLoop win (n + 1) (.window l) = false) :
    l ≠ win ∧ s.leadIdLoop win n (s.node l).leadId = false := by
  unfold leadIdLoop at h
  simpa [findClient, hl] using h

theorem Base.not_member_of_remnant (h : Base tidy s) (hw : (s.node w).remnant.isSome) (g : Nat) :
    w ∉ s.members g := by
  intro hm
  have hc := (h.member g w hm).1
  unfold isClient at hc
  rw [Bool.and_eq_true] at hc
  rw [h.client w hc.2] at hw
  cases hw

/-- What an event asks for and what it does. -/
def StepSpec (s s' : Windows) : Event → Prop
  | .manage w x11 => w ∉ s.born ∧ s' = s.appear w x11
  | .addChild l c => (s.node l).alive ∧ (s.node c).alive ∧ l ≠ c ∧ s' = s.addChild l c
  | .removeChild l c => s' = s.removeChild l c
  | .setTransientLead win id choice =>
    s.isClient win ∧ id ≠ .window win ∧ s.setTransientLead win id choice = some s'
  | .readTransientProperty win p choice => s.isClient win ∧ s.verifyTransientFor win p ≠ .window win ∧
    s.setTransientLead win (s.verifyTransientFor win p) choice = some s'
  | .checkGroup win choice => s.isClient win ∧ s.checkGroup win choice = some s'
  | .updateGroup win add => s.isClient win ∧ ∃ g, (s.node win).group = some g ∧
    (if add then s.updateGroupAdd win g else s.updateGroupRemove win g) = some s'
  | .close r src => r ∉ s.born ∧ (s.node src).alive ∧ (s.node src).remnant = none ∧
    (∀ l ∈ (s.node src).leads, (s.node l).alive) ∧ s.close r src = some s'
  | .destroy w => (s.node w).alive ∧ (s.node w).group = none ∧
    (∀ rem ∈ (s.node w).remnant, 0 < rem.scheduled) ∧ s' = s.destroy w
  | .ref r => s.onRemnant r (fun _ => true) (fun rem => { rem.ref with external := rem.external + 1 }) = some s'
  | .unref r => s.onRemnant r (fun rem => decide (0 < rem.external))
    (fun rem => { rem.unref with external := rem.external - 1 }) = some s'
  | .release r => s.onRemnant r (fun rem => !rem.released)
    (fun rem => { rem.unref with released := true }) = some s'
  | .timeout r => (∃ rem, (s.node r).remnant = some rem ∧ rem.timer) ∧ s' = s.timeout r
  | .discard r => (s.node r).remnant.isSome ∧ s' = s.destroy r

theorem step_spec {e : Event} (hs : step s e = some s') : StepSpec s s' e := by
  cases e with
  | manage w x11 =>
    simp only [step, Option.ite_none_left_eq_some, Option.some.injEq] at hs
    exact ⟨hs.1, hs.2.symm⟩
  | addChild l c =>
    simp only [step, Option.ite_none_right_eq_some, Option.some.injEq] at hs
    exact ⟨hs.1.1, hs.1.2.1, hs.1.2.2, hs.2.symm⟩
  | removeChild l c =>
    simp only [step, Option.ite_none_right_eq_some, Option.some.injEq] at hs
    exact hs.2.symm
  | setTransientLead win id choice =>
    simp only [step, Option.ite_none_right_eq_some] at hs
    exact ⟨hs.1.1, hs.1.2, hs.2⟩
  | readTransientProperty win p choice =>
    simp only [step, Option.ite_none_right_eq_some] at hs
    refine ⟨hs.1, fun hid => ?_, hs.2⟩
    obtain ⟨hl, hloop⟩ := verifyTransientFor_eq_window hid
    exact (leadIdLoop_step hl hloop).1 rfl
  | checkGroup win choice =>
    simp only [step, Option.ite_none_right_eq_some] at hs
    exact hs
  | updateGroup win add =>
    simp only [step, Option.ite_none_right_eq_some] at hs
    exact ⟨hs.1, Option.bind_eq_some_iff.mp hs.2⟩
  | close r src =>
    simp only [step, Option.ite_none_right_eq_some] at hs
    exact ⟨hs.1.1, hs.1.2.1, hs.1.2.2.1, List.all_eq_true.mp hs.1.2.2.2, hs.2⟩
  | destroy w =>
    simp only [step, Option.ite_none_right_eq_some, Option.some.injEq] at hs
    refine ⟨hs.1.1, hs.1.2.1, fun rem hrem => ?_, hs.2.symm⟩
    have := hs.1.2.2
    rw [Option.mem_def.mp hrem] at this
    exact of_decide_eq_true this
  | ref r | unref r | release r => exact hs
  | timeout r =>
    simp only [step, Option.ite_none_right_eq_some, Option.some.injEq] at hs
    refine ⟨?_, hs.2.symm⟩
    cases hrem : (s.node r).remnant with
    | none => rw [hrem] at hs; cases hs.1
    | some rem => rw [hrem] at hs; exact ⟨rem, rfl, hs.1⟩
  | discard r =>
    simp only [step, Option.ite_none_right_eq_some, Option.some.injEq] at hs
    exact ⟨hs.1, hs.2.symm⟩

/-- Every event keeps the two directions in agreement. It also keeps the relation tidy, if no
window with more than two children is destroyed. -/
theorem Base.step {e : Event} (h : Base tidy s)
    (htidy : tidy → ∀ w, e = .destroy w ∨ e = .discard w → (s.node w).children.length ≤ 2)
    (hs : step s e = some s') : Base tidy s' := by
  have hspec := step_spec hs
  cases e with
  | manage w x11 =>
    obtain ⟨hw, rfl⟩ := hspec
    exact h.appear hw x11
  | addChild l c =>
    obtain ⟨hl, hc, hne, rfl⟩ := hspec
    exact h.addChild hl hc hne
  | removeChild l c =>
    obtain rfl := hspec
    exact h.removeChild l c
  | setTransientLead win id choice | readTransientProperty win p choice =>
    obtain ⟨hwin, hid, hs⟩ := hspec
    exact h.setTransientLead hwin hid hs
  | checkGroup win choice =>
    obtain ⟨hwin, hs⟩ := hspec
    exact ((Base.stable tidy).checkGroup (Base.keeps tidy) h hwin hs).1
  | updateGroup win add =>
    obtain ⟨hwin, g, hg, hs⟩ := hspec
    split at hs
    · exact ((Base.stable tidy).updateGroupAdd h hwin hg hs).1
    · exact ((Base.stable tidy).updateGroupRemove (Base.keeps tidy win) h hwin hg hs).1
  | close r src =>
    obtain ⟨hr, hsrc, -, hleads, hs⟩ := hspec
    exact h.close hr hsrc hleads hs
  | destroy w =>
    obtain ⟨hw, hg, -, rfl⟩ := hspec
    refine h.destroy hw (fun g hm => ?_) fun ht => htidy ht w (.inl rfl)
    have := (h.member g w hm).2
    rw [hg] at this
    cases this
  | ref r | unref r | release r =>
    obtain ⟨-, -, -, rfl⟩ := onRemnant_eq_some hspec
    exact h.mapRemnant r _
  | timeout r =>
    obtain ⟨-, rfl⟩ := hspec
    exact h.mapRemnant r _
  | discard r =>
    obtain ⟨hr, rfl⟩ := hspec
    refine h.destroy ?_ (h.not_member_of_remnant hr) fun ht => htidy ht r (.inr rfl)
    by_contra ha
    rw [h.gone r (Bool.eq_false_iff.mpr ha)] at hr
    cases hr

theorem Base.initial (tidy : Prop) : Base tidy Windows.initial := by
  refine ⟨⟨fun _ _ h => ?_, fun _ h => ?_, fun _ _ => rfl, fun _ _ => rfl⟩,
    ⟨fun _ => List.nodup_nil, fun _ => List.nodup_nil, fun _ _ h => ?_, fun _ _ h => ?_, fun _ _ h => ?_,
      fun _ _ h => ?_, fun _ _ => ⟨rfl, rfl⟩, fun _ _ _ h => ?_⟩⟩ <;> cases h

theorem reachable_base (h : Lib.Reachable step Lib.anyStep Windows.initial s) : Base False s :=
  h.invariant (Base False) (Base.initial False) fun _ _ _ hs _ hstep => hs.step (fun hf => hf.elim) hstep

end Windows
end KWinFT.Transient
