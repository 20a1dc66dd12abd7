import KWinFT.Transient.Walks

/-! Runs that keep the relation without cycles. Group transients are checked for them in full, but
the property of a window is checked along the chain of lead ids only. -/
namespace KWinFT.Transient
open Relation
namespace Windows
variable {s s' : Windows} {w x l c win : Nat} {ex : Nat → Nat → Prop}

theorem addChild_leadId (s : Windows) (l c x : Nat) :
    ((s.addChild l c).node x).leadId = (s.node x).leadId := by
  have hadd (n : Node) : (n.addLead l).leadId = n.leadId := rfl
  unfold addChild
  split
  · rfl
  · by_cases hc : x = c
    · subst hc
      rw [modify_node_same, hadd]
      by_cases hl : x = l
      · subst hl; rw [modify_node_same]
      · rw [modify_node_of_ne _ hl]
    · rw [modify_node_of_ne _ hc]
      by_cases hl : x = l
      · subst hl; rw [modify_node_same]
      · rw [modify_node_of_ne _ hl]

theorem removeChildBase_leadId (s : Windows) (l c x : Nat) :
    ((s.removeChildBase l c).node x).leadId = (s.node x).leadId := by
  have hremove (n : Node) : (n.removeLead l).leadId = n.leadId := by
    unfold Node.removeLead
    split <;> rfl
  unfold removeChildBase
  by_cases hc : x = c
  · subst hc
    rw [modify_node_same, hremove]
    by_cases hl : x = l
    · subst hl; rw [modify_node_same]
    · rw [modify_node_of_ne _ hl]
  · rw [modify_node_of_ne _ hc]
    by_cases hl : x = l
    · subst hl; rw [modify_node_same]
    · rw [modify_node_of_ne _ hl]

/-- Losing a lead can only make a window forget which one it is transient for. -/
theorem removeChild_leadId (s : Windows) (l c x : Nat) :
    ((s.removeChild l c).node x).leadId = (s.node x).leadId ∨
      x = c ∧ ((s.removeChild l c).node x).leadId = .none := by
  unfold removeChild
  dsimp only
  split
  · by_cases hc : x = c
    · subst hc
      rw [modify_node_same]
      exact .inr ⟨rfl, rfl⟩
    · rw [modify_node_of_ne _ hc]
      exact .inl (removeChildBase_leadId s l c x)
  · exact .inl (removeChildBase_leadId s l c x)

/-- It remembers as long as it has another lead. -/
theorem removeChild_leadId_of_lead (s : Windows) (l : Nat) {c k : Nat} (hk : k ∈ (s.node c).leads) (hne : k ≠ l) :
    ((s.removeChild l c).node c).leadId = (s.node c).leadId := by
  unfold removeChild
  dsimp only
  rw [if_neg fun hlost => ?_]
  · exact removeChildBase_leadId s l c c
  · have hempty := hlost.2.1
    rw [removeChildBase_leads, if_pos rfl, List.filter_eq_nil_iff] at hempty
    exact hempty k hk (decide_eq_true hne)

theorem removeChild_leadId_window {m : Nat} (h : ((s.removeChild l c).node x).leadId = .window m) :
    (s.node x).leadId = .window m := by
  rcases removeChild_leadId s l c x with heq | ⟨-, heq⟩
  · rwa [heq] at h
  · rw [heq] at h
    cases h

/-- No cycles, and a client has the client that its lead id names as a lead. The pairs in `ex` are
in the middle of a change. -/
structure Sound (ex : Nat → Nat → Prop) (s : Windows) : Prop extends Base False s where
  acyclic : Lib.Acyclic (Edge s)
  named : ∀ w m, ¬ ex w m → s.isClient w → s.isClient m → (s.node w).leadId = .window m →
    m ∈ (s.node w).leads
  id_born : ∀ w m, (s.node w).leadId = .window m → m ∈ s.born

theorem Sound.mono {ex' : Nat → Nat → Prop} (h : Sound ex s) (hex : ∀ w m, ex w m → ex' w m) : Sound ex' s :=
  ⟨h.toBase, h.acyclic, fun w m hno => h.named w m fun he => hno (hex w m he), h.id_born⟩

theorem Sound.removeChild (h : Sound ex s) (hid : ex c l ∨ (s.node c).leadId ≠ .window l) :
    Sound ex (s.removeChild l c) := by
  have hf := removeChild_frame s l c
  refine ⟨h.toBase.removeChild l c, h.acyclic.mono fun a b hab => ?_, fun w m hno hw hm hlead => ?_,
    fun w m hlead => ?_⟩
  · exact ((mem_leads_removeChild s l c a b).mp hab).1
  · have hlead' := removeChild_leadId_window hlead
    rw [hf.isClient] at hw hm
    refine (mem_leads_removeChild s l c m w).mpr ⟨h.named w m hno hw hm hlead', ?_⟩
    rintro ⟨rfl, rfl⟩
    exact hid.elim hno fun hne => hne hlead'
  · rw [hf.born]
    exact h.id_born w m (removeChild_leadId_window hlead)

theorem Sound.addChild (h : Sound ex s) (hl : (s.node l).alive) (hc : (s.node c).alive) (hne : l ≠ c)
    (hno : ¬ ReflTransGen (Edge s) c l) : Sound ex (s.addChild l c) := by
  have hf := addChild_frame s l c
  have hmem := h.toMirrored.mem_leads_addChild hl hne
  refine ⟨h.toBase.addChild hl hc hne, ?_, fun w m hex hw hm hlead => ?_, fun w m hlead => ?_⟩
  · exact (h.acyclic.addEdge_iff.mpr hno).mono fun a b hab => (hmem a b).mp hab
  · rw [hf.isClient] at hw hm
    rw [addChild_leadId] at hlead
    exact (hmem m w).mpr (.inl (h.named w m hex hw hm hlead))
  · rw [hf.born]
    rw [addChild_leadId] at hlead
    exact h.id_born w m hlead

/-- The check for followers rules out the other direction. -/
theorem Sound.not_reaches (h : Sound ex s) (hl : (s.node l).alive) (hc : (s.node c).alive) (hne : l ≠ c)
    (hf : s.follows l c = some false) : ¬ ReflTransGen (Edge s) c l := by
  obtain ⟨b, hb, hiff⟩ := h.toBase.follows_spec h.acyclic hl hc
  obtain rfl : b = false := Option.some.inj (hb.symm.trans hf)
  rw [reflTransGen_iff_eq_or_transGen]
  rintro (heq | ht)
  · exact hne heq
  · exact absurd (hiff.mpr ht) Bool.false_ne_true

theorem Sound.modify {f : Node → Node} (h : Sound ex s) (hb : Base False (s.modify w f))
    (hf : ∀ n, (f n).leads = n.leads ∧ (f n).leadId = n.leadId ∧ (f n).alive = n.alive ∧ (f n).x11 = n.x11) :
    Sound ex (s.modify w f) := by
  have hnode (y : Nat) : ((s.modify w f).node y).leads = (s.node y).leads ∧
      ((s.modify w f).node y).leadId = (s.node y).leadId ∧ (s.modify w f).isClient y = s.isClient y := by
    unfold isClient
    by_cases hy : y = w
    · subst hy
      rw [modify_node_same, (hf _).2.2.1, (hf _).2.2.2]
      exact ⟨(hf _).1, (hf _).2.1, rfl⟩
    · rw [modify_node_of_ne _ hy]
      exact ⟨rfl, rfl, rfl⟩
  refine ⟨hb, h.acyclic.mono fun a b hab => ?_, fun y m => ?_, fun y m => ?_⟩
  · unfold Edge at hab
    rwa [(hnode b).1] at hab
  · rw [(hnode y).1, (hnode y).2.1, (hnode y).2.2, (hnode m).2.2]
    exact h.named y m
  · rw [(hnode y).2.1]
    exact h.id_born y m

theorem Sound.mapRemnant (h : Sound ex s) (r : Nat) (f : Remnant → Remnant) :
    Sound ex (s.modify r fun n => { n with remnant := n.remnant.map f }) :=
  h.modify (h.toBase.mapRemnant r f) fun _ => ⟨rfl, rfl, rfl, rfl⟩

theorem Sound.stable (ex : Nat → Nat → Prop) : Stable False (Sound ex) where
  base _ h := h.toBase
  remove _ _ _ h _ _ hid := h.removeChild (.inr hid)
  join _ _ _ h hl hc hne hf :=
    h.addChild (isClient_alive hl) (isClient_alive hc) hne
      (h.not_reaches (isClient_alive hl) (isClient_alive hc) hne hf)
  setGroup _ _ _ h hg := h.modify (h.toBase.setGroup hg) fun _ => ⟨rfl, rfl, rfl, rfl⟩
  setMembers _ _ _ h hms := ⟨h.toBase.setMembers hms, h.acyclic, h.named, h.id_born⟩

/-- The lead that the id names is there already. -/
theorem Sound.keeps (win : Nat) : Keeps (Sound fun _ _ => False) win := by
  intro s m h hm hwin _ hid
  have hchild := (h.mirror m win (isClient_alive hm)).mp (h.named win m (fun hf => hf) hwin hm hid)
  rwa [Windows.addChild, if_pos hchild]

theorem Sound.detach (h : Sound (fun _ _ => False) s) (win : Nat) :
    Sound (fun w _ => w = win) (s.detach win) :=
  Lib.foldl_preserves _ (fun _ _ _ hu => hu.removeChild (.inl rfl)) (h.mono fun _ _ hf => hf.elim)

theorem detach_leadId_of_ne (hx : x ≠ win) : ((s.detach win).node x).leadId = (s.node x).leadId := by
  refine Lib.foldl_preserves (P := fun u : Windows => (u.node x).leadId = (s.node x).leadId) _ (fun u lead _ hu => ?_) rfl
  rcases removeChild_leadId u lead win x with heq | ⟨heq, -⟩
  · exact heq.trans hu
  · exact absurd heq hx

theorem mem_leads_detach {win : Nat} (h : Edge (s.detach win) l c) : Edge s l c := by
  refine Lib.foldl_preserves (P := fun u => Edge u l c → Edge s l c) _ (fun u lead _ hu he => ?_) id h
  exact hu ((mem_leads_removeChild u lead win l c).mp he).1

theorem setLeadId_node (s : Windows) (w : Nat) (id : LeadId) (x : Nat) :
    ((s.setLeadId w id).node x).leads = (s.node x).leads ∧
      ((s.setLeadId w id).node x).children = (s.node x).children ∧
      ((s.setLeadId w id).node x).leadId = if x = w then id else (s.node x).leadId := by
  unfold setLeadId
  by_cases hx : x = w
  · subst hx; rw [modify_node_same, if_pos rfl]; exact ⟨rfl, rfl, rfl⟩
  · rw [modify_node_of_ne _ hx, if_neg hx]; exact ⟨rfl, rfl, rfl⟩

theorem Sound.setLeadId (h : Sound ex s) (id : LeadId) (hex : ∀ m, id = .window m → ex w m)
    (hid : ∀ m, id = .window m → m ∈ s.born) : Sound ex (s.setLeadId w id) := by
  have hnode := setLeadId_node s w id
  have hf := setLeadId_frame s w id
  refine ⟨h.toBase.setLeadId w id, h.acyclic.mono fun a b hab => ?_, fun y m hno hy hm hlead => ?_,
    fun y m hlead => ?_⟩
  · unfold Edge at hab
    rwa [(hnode b).1] at hab
  · rw [hf.isClient] at hy hm
    rw [(hnode y).2.2] at hlead
    rw [(hnode y).1]
    split at hlead
    · next hyw => exact absurd (hex m hlead) (hyw ▸ hno)
    · exact h.named y m hno hy hm hlead
  · rw [(hnode y).2.2] at hlead
    split at hlead
    · exact hid m hlead
    · exact h.id_born y m hlead

/-- Once its new lead is attached, nothing is open about the window any more. -/
theorem Sound.settle (h : Sound (fun w _ => w = win) s)
    (hid : ∀ m, (s.node win).leadId = .window m → m ∈ (s.node win).leads) : Sound (fun _ _ => False) s := by
  refine ⟨h.toBase, h.acyclic, fun y m _ hy hm hlead => ?_, h.id_born⟩
  by_cases hyw : y = win
  · subst hyw
    exact hid m hlead
  · exact h.named y m hyw hy hm hlead

/-- With the lead taken out of the children, adding the window to it closes no cycle. -/
private theorem Sound.addLead (h : Sound (fun w _ => w = win) s) (hwin : (s.node win).alive)
    (hl : (s.node l).alive) (hne : l ≠ win) (hid : (s.node win).leadId = .window l)
    (hno : ∀ c ∈ (s.node win).children, ¬ ReflTransGen (Edge s) c l) :
    Sound (fun _ _ => False) (s.addChild l win) := by
  refine (h.addChild hl hwin hne fun hr => ?_).settle fun m hm => ?_
  · rcases ReflTransGen.cases_head hr with heq | ⟨c, hc, hcl⟩
    · exact hne heq.symm
    · exact hno c ((h.mirror win c hwin).mp hc) hcl
  · rw [addChild_leadId, hid] at hm
    cases hm
    exact (h.toMirrored.mem_leads_addChild hl hne l win).mpr (.inr ⟨rfl, rfl⟩)

/-- The new lead may be a child, but not below another one. -/
theorem Sound.attach (h : Sound (fun w _ => w = win) s) (hwin : (s.node win).alive) (hl : (s.node l).alive)
    (hne : l ≠ win) (hid : (s.node win).leadId = .window l) (hback : (s.node l).leadId ≠ .window win)
    (hno : ∀ c ∈ (s.node win).children, c ≠ l → ¬ ReflTransGen (Edge s) c l) :
    Sound (fun _ _ => False) (s.attach win l) := by
  unfold Windows.attach
  split
  · have hf := removeChild_frame s win l
    refine (h.removeChild (.inr hback)).addLead (by rwa [hf.alive]) (by rwa [hf.alive]) hne ?_ fun c hc hr => ?_
    · rcases removeChild_leadId s win l win with heq | ⟨heq, -⟩
      · exact heq.trans hid
      · exact absurd heq.symm hne
    · obtain ⟨hc, hcl⟩ := (mem_children_removeChild s win l win c).mp hc
      refine hno c hc (fun heq => hcl ⟨rfl, heq⟩) (ReflTransGen.mono (fun a b hab => ?_) _ _ hr)
      exact ((mem_leads_removeChild s win l a b).mp hab).1
  · next hlc =>
    refine h.addLead hwin hl hne hid fun c hc => hno c hc ?_
    rintro rfl
    exact hlc hc

/-- A new lead by the property: the verified lead must not be below another child of the window. -/
theorem Sound.readTransientProperty {p : Property} {choice : GroupChoice} (h : Sound (fun _ _ => False) s)
    (hwin : s.isClient win)
    (hok : ∀ l, s.verifyTransientFor win p = .window l → (s.node win).leadId ≠ .window l →
      ∀ c ∈ (s.node win).children, c ≠ l → s.follows l c = some false)
    (hs : s.setTransientLead win (s.verifyTransientFor win p) choice = some s') :
    Sound (fun _ _ => False) s' := by
  have hwa := isClient_alive hwin
  refine (Sound.stable _).setTransientLead Sound.keeps h hwin (fun l hnew hid hl => ?_) (fun hnone => ?_) hs
  · have hla := isClient_alive hl
    have hloop := (verifyTransientFor_eq_window hid).2
    obtain ⟨hne, hnext⟩ := leadIdLoop_step hl hloop
    have hf := (detach_frame s win).trans (setLeadId_frame _ win (s.verifyTransientFor win p))
    have hnode := setLeadId_node (s.detach win) win (s.verifyTransientFor win p)
    have hsound : Sound (fun w _ => w = win) ((s.detach win).setLeadId win (s.verifyTransientFor win p)) := by
      refine (h.detach win).setLeadId _ (fun _ _ => rfl) fun m hm => ?_
      rw [(detach_frame s win).born]
      rw [hid] at hm
      cases hm
      exact h.born l hla
    refine hsound.attach (by rwa [hf.alive]) (by rwa [hf.alive]) hne ?_ ?_ fun c hc hcl hr => ?_
    · rw [(hnode win).2.2, if_pos rfl, hid]
    · rw [(hnode l).2.2, if_neg hne, detach_leadId_of_ne hne]
      intro hback
      rw [hback] at hnext
      exact (leadIdLoop_step hwin hnext).1 rfl
    · have hedge {a b : Nat} (hab : Edge ((s.detach win).setLeadId win (s.verifyTransientFor win p)) a b) :
          Edge s a b := by
        unfold Edge at hab
        rw [(hnode b).1] at hab
        exact mem_leads_detach hab
      have hc' : c ∈ (s.node win).children := by
        rw [← h.mirror win c hwa]
        exact hedge ((hsound.mirror win c (by rwa [hf.alive])).mpr hc)
      refine h.not_reaches hla (h.child_alive win c hc') hcl.symm (hok l hid ?_ c hc' hcl) ?_
      · rw [← hid]
        exact hnew.symm
      · exact ReflTransGen.mono (fun a b => hedge) _ _ hr
  · have hsound := (h.detach win).setLeadId (w := win) (s.verifyTransientFor win p)
      (fun m hm => absurd hm (hnone m)) fun m hm => absurd hm (hnone m)
    refine hsound.settle fun m hm => ?_
    rw [(setLeadId_node _ win _ win).2.2, if_pos rfl] at hm
    exact absurd hm (hnone m)

theorem appear_leadId {x11 : Bool} {m : Nat}
    (hlead : ((s.appear w x11).node x).leadId = .window m) : x ≠ w ∧ (s.node x).leadId = .window m := by
  by_cases hx : x = w
  · subst hx
    rw [appear_node_same] at hlead
    cases hlead
  · rw [appear_node_of_ne hx] at hlead
    exact ⟨hx, hlead⟩

theorem Sound.appear (h : Sound ex s) (hw : w ∉ s.born) (x11 : Bool) : Sound ex (s.appear w x11) := by
  have hlists := h.toBase.appear_lists hw x11
  refine ⟨h.toBase.appear hw x11, h.acyclic.mono fun a b hab => ?_, fun y m hno hy hm hlead => ?_,
    fun y m hlead => ?_⟩
  · unfold Edge at hab
    rwa [(hlists b).1] at hab
  · obtain ⟨hyw, hlead⟩ := appear_leadId hlead
    have hmw : m ≠ w := fun heq => hw (heq ▸ h.id_born y m hlead)
    unfold isClient at hy hm
    rw [appear_node_of_ne hyw] at hy
    rw [appear_node_of_ne hmw] at hm
    rw [(hlists y).1]
    exact h.named y m hno hy hm hlead
  · exact List.mem_cons_of_mem w (h.id_born y m (appear_leadId hlead).2)

theorem transfer_leadId {r src m : Nat} (h : ((s.transfer r src).node x).leadId = .window m) :
    (s.node x).leadId = .window m := by
  have hstep (a b a' b' : Nat) (u : Windows)
      (hu : (u.node x).leadId = .window m → (s.node x).leadId = .window m)
      (hlead : (((u.addChild a b).removeChild a' b').node x).leadId = .window m) :
      (s.node x).leadId = .window m := by
    have := removeChild_leadId_window hlead
    rw [addChild_leadId] at this
    exact hu this
  refine Lib.foldl_preserves (P := fun u : Windows => (u.node x).leadId = .window m → (s.node x).leadId = .window m)
    _ (fun u child _ => hstep r child src child u) ?_ h
  exact Lib.foldl_preserves (P := fun u : Windows => (u.node x).leadId = .window m → (s.node x).leadId = .window m)
    _ (fun u lead _ => hstep lead r lead src u) id

/-- The remnant stands for its window, so a cycle through it would be one through the window. -/
theorem Sound.createRemnant {r src : Nat} (h : Sound (fun _ _ => False) s) (hr : r ∉ s.born)
    (hsrc : (s.node src).alive) (hleads : ∀ l ∈ (s.node src).leads, (s.node l).alive) :
    Sound (fun w m => w = src ∨ m = src) (s.createRemnant r src) := by
  obtain ⟨-, -, hmem⟩ := h.toBase.transfer hr hsrc hleads
  have hb := h.toBase.createRemnant hr hsrc hleads
  have hnode (y : Nat) : ((s.createRemnant r src).node y).leads =
        (((s.appear r false).transfer r src).node y).leads ∧
      ((s.createRemnant r src).node y).leadId = (((s.appear r false).transfer r src).node y).leadId := by
    unfold Windows.createRemnant
    dsimp only
    by_cases hy : y = r
    · subst hy; rw [modify_node_same]; exact ⟨rfl, rfl⟩
    · rw [modify_node_of_ne _ hy]; exact ⟨rfl, rfl⟩
  have hlead {y m : Nat} (hy : ((s.createRemnant r src).node y).leadId = .window m) :
      y ≠ r ∧ (s.node y).leadId = .window m := by
    rw [(hnode y).2] at hy
    exact appear_leadId (transfer_leadId hy)
  have hborn : (s.createRemnant r src).born = r :: s.born :=
    (transfer_frame (s.appear r false) r src).born
  refine ⟨hb, h.acyclic.comap (fun y => if y = r then src else y) fun a b hab => ?_,
    fun y m hno hy hm hid => ?_, fun y m hid => ?_⟩
  · unfold Edge at hab ⊢
    rw [(hnode b).1, hmem] at hab
    have ha {y z : Nat} (hy : y ∈ (s.node z).leads) : y ≠ r := fun heq => hr (heq ▸ h.lead_born y z hy)
    have hb {y z : Nat} (hy : y ∈ (s.node z).leads) : z ≠ r := by
      rintro rfl
      rw [(h.dead z (h.toBase.not_alive hr)).1] at hy
      cases hy
    rcases hab with ⟨hab, -, -⟩ | ⟨hab, rfl⟩ | ⟨rfl, hab⟩
    · rwa [if_neg (ha hab), if_neg (hb hab)]
    · rwa [if_neg (ha hab), if_pos rfl]
    · rwa [if_pos rfl, if_neg (hb hab)]
  · obtain ⟨hyr, hid⟩ := hlead hid
    have hmr : m ≠ r := fun heq => hr (heq ▸ h.id_born y m hid)
    obtain ⟨hy₁, hy₂, -⟩ := createRemnant_frame_of_ne src hyr s
    obtain ⟨hm₁, hm₂, -⟩ := createRemnant_frame_of_ne src hmr s
    unfold isClient at hy hm
    rw [hy₁, hy₂] at hy
    rw [hm₁, hm₂] at hm
    rw [(hnode y).1, hmem]
    exact .inl ⟨h.named y m (fun hf => hf) hy hm hid, fun heq => hno (.inr heq), fun heq => hno (.inl heq)⟩
  · rw [hborn]
    exact List.mem_cons_of_mem r (h.id_born y m (hlead hid).2)

/-- While a client closes it has no lead id any more, so nothing is put back for it. -/
private theorem Sound.closing (src : Nat) :
    Stable False (fun s => Sound (fun w m => w = src ∨ m = src) s ∧ (s.node src).leadId = .none) ∧
      Keeps (fun s => Sound (fun w m => w = src ∨ m = src) s ∧ (s.node src).leadId = .none) src := by
  refine ⟨⟨fun _ h => h.1.toBase, fun s l c h hl hc hid => ?_, fun s l c h hl hc hne hf => ?_,
    fun s w g h hg => ?_, fun s g ms h hms => ?_⟩, fun s m h _ _ _ hid => ?_⟩
  · refine ⟨(Sound.stable _).remove s l c h.1 hl hc hid, ?_⟩
    rcases removeChild_leadId s l c src with heq | ⟨-, heq⟩
    · exact heq.trans h.2
    · exact heq
  · exact ⟨(Sound.stable _).join s l c h.1 hl hc hne hf, by rw [addChild_leadId]; exact h.2⟩
  · refine ⟨(Sound.stable _).setGroup s w g h.1 hg, ?_⟩
    unfold setGroup
    by_cases hw : src = w
    · subst hw; rw [modify_node_same]; exact h.2
    · rw [modify_node_of_ne _ hw]; exact h.2
  · exact ⟨(Sound.stable _).setMembers s g ms h.1 hms, h.2⟩
  · rw [h.2] at hid
    cases hid

theorem Sound.close {r src : Nat} (h : Sound (fun _ _ => False) s) (hr : r ∉ s.born)
    (hsrc : (s.node src).alive) (hleads : ∀ l ∈ (s.node src).leads, (s.node l).alive)
    (hs : s.close r src = some s') : Sound (fun _ _ => False) s' := by
  have hrem := h.createRemnant hr hsrc hleads
  have hne : src ≠ r := fun heq => hr (heq ▸ h.born src hsrc)
  -- whoever names the closed window, or is it, is not asked any more
  have hdone {u : Windows} (hu : Sound (fun w m => w = src ∨ m = src) u) (hclient : u.isClient src = false) :
      Sound (fun _ _ => False) u := by
    refine ⟨hu.toBase, hu.acyclic, fun y m _ hy hm => hu.named y m ?_ hy hm, hu.id_born⟩
    rintro (rfl | rfl)
    · rw [hclient] at hy; cases hy
    · rw [hclient] at hm; cases hm
  obtain ⟨hstable, hkeeps⟩ := Sound.closing src
  have hquiet : Sound (fun w m => w = src ∨ m = src) ((s.createRemnant r src).setLeadId src .none) ∧
      (((s.createRemnant r src).setLeadId src .none).node src).leadId = .none := by
    refine ⟨hrem.setLeadId _ (fun _ hm => ?_) (fun _ hm => ?_), ?_⟩
    · cases hm
    · cases hm
    · rw [(setLeadId_node _ src _ src).2.2, if_pos rfl]
  rcases hstable.close hkeeps h.toBase hr hsrc (fun _ => hquiet) hs with ⟨hclient, rfl⟩ | ⟨s₁, h₁, hout, rfl⟩
  · refine hdone hrem ?_
    obtain ⟨ha, hx, -⟩ := createRemnant_frame_of_ne src hne s
    unfold isClient
    rw [ha, hx]
    exact hclient
  · have hnode (y : Nat) : ((s₁.modify src fun n => { n with x11 := false }).node y).leads = (s₁.node y).leads ∧
        ((s₁.modify src fun n => { n with x11 := false }).node y).leadId = (s₁.node y).leadId := by
      by_cases hy : y = src
      · subst hy; rw [modify_node_same]; exact ⟨rfl, rfl⟩
      · rw [modify_node_of_ne _ hy]; exact ⟨rfl, rfl⟩
    have hclient {y : Nat} (hy : y ≠ src) :
        (s₁.modify src fun n => { n with x11 := false }).isClient y = s₁.isClient y := by
      unfold isClient
      rw [modify_node_of_ne _ hy]
    refine hdone ⟨h₁.1.toBase.unmanage hout, h₁.1.acyclic.mono fun a b hab => ?_,
      fun y m hno hy hm hlead => ?_, fun y m hlead => ?_⟩ ?_
    · unfold Edge at hab
      rwa [(hnode b).1] at hab
    · rw [hclient fun heq => hno (.inl heq)] at hy
      rw [hclient fun heq => hno (.inr heq)] at hm
      rw [(hnode y).2] at hlead
      rw [(hnode y).1]
      exact h₁.1.named y m hno hy hm hlead
    · rw [(hnode y).2] at hlead
      exact h₁.1.id_born y m hlead
    · unfold isClient
      rw [modify_node_same, Bool.and_false]

theorem Sound.destroy (h : Sound ex s) (hb : Base False (s.destroy w)) : Sound ex (s.destroy w) := by
  have hself : w ∉ (s.node w).leads := fun hm => h.ne w w hm rfl
  have hclient {y : Nat} (hy : (s.destroy w).isClient y) : y ≠ w ∧ s.isClient y := by
    have hyw : y ≠ w := by
      rintro rfl
      unfold isClient at hy
      rw [destroy_node_same] at hy
      cases hy
    unfold isClient at hy ⊢
    rw [(destroy_frame_of_ne hyw hself).1, (destroy_frame_of_ne hyw hself).2.1] at hy
    exact ⟨hyw, hy⟩
  have hlead {y m : Nat} (hy : ((s.destroy w).node y).leadId = .window m) : (s.node y).leadId = .window m := by
    by_cases hyw : y = w
    · subst hyw
      rw [destroy_node_same] at hy
      cases hy
    · rwa [(destroy_frame_of_ne hyw hself).2.2.2.1] at hy
  refine ⟨hb, h.acyclic.mono fun a b hab => ?_, fun y m hno hy hm hid => ?_, fun y m hid => ?_⟩
  · exact ((mem_leads_destroy hself).mp hab).2.1
  · obtain ⟨hyw, hy⟩ := hclient hy
    obtain ⟨hmw, hm⟩ := hclient hm
    exact (mem_leads_destroy hself).mpr ⟨hyw, h.named y m hno hy hm (hlead hid), fun heq => hmw heq.1⟩
  · rw [(destroy_members_born s w).2]
    exact h.id_born y m (hlead hid)

/-- The events of X11 windows. A property that makes a window transient for another one must not do
so while that one follows another child of the window. -/
def Unlooped (s : Windows) : Event → Prop
  | .addChild _ _ | .removeChild _ _ | .setTransientLead _ _ _ => False
  | .readTransientProperty win p _ => ∀ l, s.verifyTransientFor win p = .window l →
    (s.node win).leadId ≠ .window l → ∀ c ∈ (s.node win).children, c ≠ l → s.follows l c = some false
  | _ => True

theorem Sound.step {e : Event} (h : Sound (fun _ _ => False) s) (hok : Unlooped s e)
    (hs : step s e = some s') : Sound (fun _ _ => False) s' := by
  have hb : Base False s' := h.toBase.step (fun hf => hf.elim) hs
  have hspec := step_spec hs
  cases e with
  | manage w x11 =>
    obtain ⟨hw, rfl⟩ := hspec
    exact h.appear hw x11
  | addChild l c | removeChild l c | setTransientLead win id choice => exact hok.elim
  | readTransientProperty win p choice =>
    obtain ⟨hwin, -, hs⟩ := hspec
    exact h.readTransientProperty hwin hok hs
  | checkGroup win choice =>
    obtain ⟨hwin, hs⟩ := hspec
    exact ((Sound.stable _).checkGroup Sound.keeps h hwin hs).1
  | updateGroup win add =>
    obtain ⟨hwin, g, hg, hs⟩ := hspec
    split at hs
    · exact ((Sound.stable _).updateGroupAdd h hwin hg hs).1
    · exact ((Sound.stable _).updateGroupRemove (Sound.keeps win) h hwin hg hs).1
  | close r src =>
    obtain ⟨hr, hsrc, -, hleads, hs⟩ := hspec
    exact h.close hr hsrc hleads hs
  | destroy w =>
    obtain ⟨-, -, -, rfl⟩ := hspec
    exact h.destroy hb
  | ref r | unref r | release r =>
    obtain ⟨-, -, -, rfl⟩ := onRemnant_eq_some hspec
    exact h.mapRemnant r _
  | timeout r =>
    obtain ⟨-, rfl⟩ := hspec
    exact h.mapRemnant r _
  | discard r =>
    obtain ⟨-, rfl⟩ := hspec
    exact h.destroy hb

theorem Sound.initial : Sound (fun _ _ => False) Windows.initial := by
  refine ⟨Base.initial False, fun x hx => ?_, fun _ _ _ hw => ?_, fun _ _ hid => ?_⟩
  · obtain ⟨l, -, hl⟩ := TransGen.tail'_iff.mp hx
    cases hl
  · cases hw
  · cases hid

/-- In every run where no property closes a loop through group transients, no window is reached from
itself by its leads, and all walks along the relation end: the search for followers, that for the
lead of a raised window, and the stacking of children. -/
theorem leads_acyclic (h : Lib.Reachable step Unlooped Windows.initial s) :
    (∀ w, ¬ TransGen (Edge s) w w) ∧ ∀ w, (s.node w).alive →
      (∀ x, (s.node x).alive → (s.follows w x).isSome) ∧ (s.leadWalk s.born.length w).isSome ∧
      ∀ ws : Stacking.Workspace Nat, (∀ x, ws.children x = (s.node x).children) → ∀ list,
        (ws.appendChildren s.born.length w list).isSome := by
  have hs : Sound (fun _ _ => False) s := h.invariant (Sound fun _ _ => False) Sound.initial
    fun s e s' hs hok hstep => hs.step hok hstep
  refine ⟨hs.acyclic, fun w hw => ⟨fun x hx => ?_, ?_, fun ws hws list => ?_⟩⟩
  · obtain ⟨b, hb, -⟩ := hs.toBase.follows_spec hs.acyclic hw hx
    rw [hb]; rfl
  · obtain ⟨walk, hwalk⟩ := hs.toBase.leadWalk_isSome hs.acyclic (hs.toBase.rank_lt_born hs.acyclic hw)
    rw [hwalk]; rfl
  · obtain ⟨stack, hstack⟩ := hs.toBase.appendChildren_isSome hs.acyclic hws hw list
    rw [hstack]; rfl

/-- A group transient of the first window, and a dialog of the group transient. -/
theorem dialogOfTransient_acyclic : ∃ s, (s.node 2).leads = [1] ∧ (s.node 3).leads = [2] ∧
    ∀ w, ¬ TransGen (Edge s) w w := by
  obtain ⟨s, h, h₂, h₃⟩ : ∃ s, Lib.Reachable step Unlooped Windows.initial s ∧ (s.node 2).leads = [1] ∧
      (s.node 3).leads = [2] :=
    ⟨_, .step (.readTransientProperty 3 ⟨some (.window 2), false, []⟩ ⟨7, []⟩) (.step (.manage 3 true)
      (.step (.readTransientProperty 2 ⟨some .root, false, []⟩ ⟨7, []⟩) (.step (.manage 2 true)
        (.step (.checkGroup 1 ⟨7, []⟩) (.step (.manage 1 true) .init trivial rfl) trivial rfl) trivial rfl)
        (fun l _ _ c hc => by cases hc) rfl) trivial rfl) (fun l _ _ c hc => by cases hc) rfl, rfl, rfl⟩
  exact ⟨s, h₂, h₃, (leads_acyclic h).1⟩

/-- The same windows and one more, and then the first one is made transient for the dialog. -/
def loopRun : List Event :=
  [.manage 4 true, .manage 1 true, .checkGroup 1 ⟨7, []⟩, .manage 2 true,
    .readTransientProperty 2 ⟨some .root, false, []⟩ ⟨7, []⟩, .manage 3 true,
    .readTransientProperty 3 ⟨some (.window 2), false, []⟩ ⟨7, []⟩,
    .readTransientProperty 1 ⟨some (.window 3), false, []⟩ ⟨7, []⟩]

theorem loopRun_cycle : ∃ s, Lib.Reachable step Lib.anyStep Windows.initial s ∧ TransGen (Edge s) 1 1 ∧
    s.follows 1 4 = none := by
  obtain ⟨s, hs, h₁₂, h₂₃, h₃₁, hfollows⟩ : ∃ s, Lib.Reachable step Lib.anyStep Windows.initial s ∧
      (s.node 2).leads = [1] ∧ (s.node 3).leads = [2] ∧ (s.node 1).leads = [3] ∧ s.follows 1 4 = none :=
    ⟨_, Lib.Reachable.init.execute loopRun rfl, rfl, rfl, rfl, rfl⟩
  refine ⟨s, hs, .tail (.tail (.single (b := 2) ?_) (c := 3) ?_) ?_, hfollows⟩ <;> unfold Edge
  · rw [h₁₂]; exact List.mem_singleton_self 1
  · rw [h₂₃]; exact List.mem_singleton_self 2
  · rw [h₃₁]; exact List.mem_singleton_self 3

end Windows
end KWinFT.Transient
