import KWinFT.Transient.Acyclicity

/-! What is left of the relation between a window and its group when the window leaves. -/
namespace KWinFT.Transient
open Relation
namespace Windows
variable {s s' : Windows} {w x l c m win g : Nat}

/-- An edge in one direction, as the lead or the child has it in its list. -/
def Tied (s : Windows) (l c : Nat) : Prop := l ∈ (s.node c).leads ∨ c ∈ (s.node l).children

/-- What is to hold of the remaining members of the group. -/
structure LeftGroup (s : Windows) (win g : Nat) : Prop where
  untied : ∀ m ∈ s.members g, (s.Tied m win → (s.node win).leadId = .window m) ∧
    (s.Tied win m → (s.node m).leadId = .window win)
  related : ∀ m ∈ s.members g, s.groupTransient m → ∀ x ∈ s.members g, x ≠ m →
    Xor (TransGen (Edge s) x m) (TransGen (Edge s) m x)

/-- The edges without those from the leads that a member has in its group only. -/
def Remains (s : Windows) (win g l c : Nat) : Prop :=
  Edge s l c ∧ ¬ (c = win ∧ l ∈ s.members g ∧ (s.node win).leadId ≠ .window l)

/-- The other members that are children of the window are so by their lead id, and the group
transients among them are in no loop with a member. -/
structure Leavable (s : Windows) (win g : Nat) : Prop where
  children : ∀ m ∈ s.members g, m ∈ (s.node win).children → (s.node m).leadId = .window win
  unlooped : ∀ m ∈ s.members g, m ≠ win → s.groupTransient m → ∀ x ∈ s.members g, x ≠ win → x ≠ m →
    ¬ (TransGen (s.Remains win g) x m ∧ TransGen (s.Remains win g) m x)

theorem Base.tied_iff (h : Base False s) (hl : (s.node l).alive) : s.Tied l c ↔ Edge s l c := by
  unfold Tied Edge
  rw [h.mirror l c hl, or_self]

/-- Where the search for followers comes to an end it is right, with cycles or without. -/
theorem Base.isFollowerOf_sound (h : Base False s) (hx : (s.node x).alive) {n : Nat} {b : Bool}
    (hb : s.isFollowerOf x n w = some b) : b = true ↔ TransGen (Edge s) x w := by
  induction n generalizing w b with
  | zero => cases hb
  | succ n ih =>
    unfold isFollowerOf at hb
    split at hb
    · next hc =>
      cases hb
      exact iff_of_true rfl (.single ((h.mirror x w hx).mpr hc))
    · next hc =>
      rw [anyOf_sound hb fun l _ b hl => ih hl, transGen_iff_lead]
      exact ⟨.inr, fun hor => hor.resolve_left fun hl => hc ((h.mirror x w hx).mp hl)⟩

/-- What one round of the loop does when the window leaves, if its lead id is that of a lead. -/
theorem Base.leaveMember_spec (h : Base False s) (hm : s.isClient m) 
    (hnamed : ∀ k, s.isClient k → (s.node win).leadId = .window k → Edge s k win) :
    Base False (leaveMember win s m) ∧ SameFrame s (leaveMember win s m) ∧
      (∀ x, x ≠ win → ((leaveMember win s m).node x).leadId = (s.node x).leadId) ∧
      (∀ k, s.isClient k → (((leaveMember win s m).node win).leadId = .window k ↔ (s.node win).leadId = .window k)) ∧
      ∀ l c, Edge (leaveMember win s m) l c ↔
        Edge s l c ∧ ¬ (c = win ∧ l = m ∧ (s.node win).leadId ≠ .window l) := by
  unfold leaveMember
  split
  · next hid =>
    have hchild : win ∈ (s.node m).children := (h.mirror m win (isClient_alive hm)).mp (hnamed m hm hid)
    rw [Windows.addChild, if_pos hchild]
    refine ⟨h, .refl s, fun _ _ => rfl, fun _ _ => .rfl, fun l c => (and_iff_left ?_).symm⟩
    rintro ⟨-, rfl, hne⟩
    exact hne hid
  · next hid =>
    refine ⟨h.removeChild m win, removeChild_frame s m win, fun x hx => ?_, fun k hk => ⟨?_, fun hkid => ?_⟩,
      fun l c => ?_⟩
    · rcases removeChild_leadId s m win x with heq | ⟨rfl, -⟩
      · exact heq
      · exact absurd rfl hx
    · exact removeChild_leadId_window
    · rw [removeChild_leadId_of_lead s m (hnamed k hk hkid) (fun heq => hid (heq ▸ hkid))]
      exact hkid
    · refine (mem_leads_removeChild s m win l c).trans (and_congr_right fun _ => not_congr ?_)
      constructor
      · rintro ⟨rfl, rfl⟩
        exact ⟨rfl, rfl, hid⟩
      · rintro ⟨rfl, rfl, -⟩
        exact ⟨rfl, rfl⟩

/-- The whole loop takes away the leads that are members, apart from that of the lead id. -/
theorem Base.leaveMembers_spec {ms : List Nat} (h : Base False s) (hms : ∀ m ∈ ms, s.isClient m)
    (hnamed : ∀ k, s.isClient k → (s.node win).leadId = .window k → Edge s k win)
    (hs' : s' = ms.foldl (leaveMember win) s) :
    Base False s' ∧ SameFrame s s' ∧ (∀ x, x ≠ win → (s'.node x).leadId = (s.node x).leadId) ∧
      (∀ k, s.isClient k → ((s'.node win).leadId = .window k ↔ (s.node win).leadId = .window k)) ∧
      ∀ l c, Edge s' l c ↔ Edge s l c ∧ ¬ (c = win ∧ l ∈ ms ∧ (s.node win).leadId ≠ .window l) := by
  induction ms generalizing s with
  | nil =>
    rw [hs']
    exact ⟨h, .refl s, fun _ _ => rfl, fun _ _ => .rfl, fun l c => by simp⟩
  | cons m ms ih =>
    obtain ⟨hm, hms⟩ := List.forall_mem_cons.mp hms
    obtain ⟨hbase, hframe, hother, hid, hedge⟩ := h.leaveMember_spec hm hnamed
    have hclient (k : Nat) : (leaveMember win s m).isClient k ↔ s.isClient k := by rw [hframe.isClient]
    have hnamed' (k : Nat) (hk : (leaveMember win s m).isClient k)
        (hkid : ((leaveMember win s m).node win).leadId = .window k) : Edge (leaveMember win s m) k win := by
      have hkid := (hid k ((hclient k).mp hk)).mp hkid
      exact (hedge k win).mpr ⟨hnamed k ((hclient k).mp hk) hkid, fun hout => hout.2.2 hkid⟩
    obtain ⟨hbase', hframe', hother', hid', hedge'⟩ :=
      ih hbase (fun k hk => (hclient k).mpr (hms k hk)) hnamed' hs'
    refine ⟨hbase', hframe.trans hframe', fun x hx => (hother' x hx).trans (hother x hx),
      fun k hk => (hid' k ((hclient k).mpr hk)).trans (hid k hk), fun l c => ?_⟩
    rw [hedge', hedge, and_assoc, ← not_or]
    refine and_congr_right fun _ => not_congr ⟨?_, ?_⟩
    · rintro (⟨hc, rfl, hne⟩ | ⟨hc, hl, hne⟩)
      · exact ⟨hc, List.mem_cons_self, hne⟩
      · exact ⟨hc, List.mem_cons_of_mem m hl, fun heq => hne ((hid l (hms l hl)).mpr heq)⟩
    · rintro ⟨hc, hl, hne⟩
      rcases List.mem_cons.mp hl with rfl | hl
      · exact .inl ⟨hc, rfl, hne⟩
      · exact .inr ⟨hc, hl, fun heq => hne ((hid l (hms l hl)).mp heq)⟩

/-- How the relation may grow among `ms`: no cycle is new. -/
structure Grows (ms : List Nat) (s s' : Windows) : Prop where
  base : Base False s'
  frame : SameFrame s s'
  leadId : ∀ x, (s'.node x).leadId = (s.node x).leadId
  edge : ∀ l c, Edge s l c → Edge s' l c
  among : ∀ l c, Edge s' l c → Edge s l c ∨ l ∈ ms ∧ c ∈ ms
  cycle : ∀ a b, TransGen (Edge s') a b → TransGen (Edge s') b a → TransGen (Edge s) a b

theorem Grows.refl {ms : List Nat} (h : Base False s) : Grows ms s s :=
  ⟨h, .refl s, fun _ => rfl, fun _ _ he => he, fun _ _ he => .inl he, fun _ _ hab _ => hab⟩

theorem Grows.trans {ms : List Nat} {s₁ s₂ s₃ : Windows} (h : Grows ms s₁ s₂) (h' : Grows ms s₂ s₃) : Grows ms s₁ s₃ where
  base := h'.base
  frame := h.frame.trans h'.frame
  leadId x := (h'.leadId x).trans (h.leadId x)
  edge l c he := h'.edge l c (h.edge l c he)
  among l c he := (h'.among l c he).elim (h.among l c) .inr
  cycle a b hab hba := h.cycle a b (h'.cycle a b hab hba) (h'.cycle b a hba hab)

def Related (s : Windows) (a b : Nat) : Prop := TransGen (Edge s) a b ∨ TransGen (Edge s) b a

theorem Grows.related {ms : List Nat} (h : Grows ms s s') {a b : Nat} (hr : s.Related a b) : s'.Related a b :=
  hr.imp (TransGen.mono h.edge _ _) (TransGen.mono h.edge _ _)

theorem Base.releadMember_grows {ms : List Nat} {lead : Nat} (h : Base False s) (hms : ∀ k ∈ ms, s.isClient k)
    (hm : m ∈ ms) (hlead : lead ∈ ms) (hstep : releadMember m s lead = some s') :
    Grows ms s s' ∧ (lead ≠ m → s'.Related lead m) := by
  have hma := isClient_alive (hms m hm)
  have hla := isClient_alive (hms lead hlead)
  unfold releadMember at hstep
  split at hstep
  · next heq => cases hstep; exact ⟨.refl h, fun hne => absurd heq hne⟩
  next hne =>
  obtain ⟨below, hbelow, hstep⟩ := Option.bind_eq_some_iff.mp hstep
  have hb := h.isFollowerOf_sound hla hbelow
  split at hstep
  · next htrue => cases hstep; exact ⟨.refl h, fun _ => .inl (hb.mp htrue)⟩
  next hfalse =>
  obtain ⟨above, habove, rfl⟩ := Option.map_eq_some_iff.mp hstep
  have ha := h.isFollowerOf_sound hma habove
  split
  · next htrue => exact ⟨.refl h, fun _ => .inr (ha.mp htrue)⟩
  next hfree =>
  have hadd := h.toMirrored.mem_leads_addChild (c := m) hla hne
  have hno : ¬ ReflTransGen (Edge s) m lead := by
    rw [reflTransGen_iff_eq_or_transGen]
    rintro (heq | ht)
    · exact hne heq
    · exact hfree (ha.mpr ht)
  have hsub (a b : Nat) (hab : Edge (s.addChild lead m) a b) : Lib.addEdge (Edge s) lead m a b := (hadd a b).mp hab
  refine ⟨⟨h.addChild hla hma hne, addChild_frame s lead m, addChild_leadId s lead m,
    fun l c he => (hadd l c).mpr (.inl he), fun l c he => ?_, fun a b hab hba => ?_⟩,
    fun _ => .inl (.single ((hadd lead m).mpr (.inr ⟨rfl, rfl⟩)))⟩
  · rcases (hadd l c).mp he with he | ⟨rfl, rfl⟩
    · exact .inl he
    · exact .inr ⟨hlead, hm⟩
  · exact Lib.transGen_of_addEdge hno (TransGen.mono hsub _ _ hab) (TransGen.mono hsub _ _ hba)

/-- Both loops together relate the group transients to all other members. -/
theorem Base.releadMembers_grows (h : Base False s) (hms : ∀ k ∈ s.members g, s.isClient k)
    (hrelead : s.releadMembers g = some s') :
    Grows (s.members g) s s' ∧ ∀ m ∈ s.members g, s.groupTransient m → ∀ x ∈ s.members g, x ≠ m → s'.Related x m := by
  have hloop := Lib.foldlM_settles (P := Grows (s.members g) s)
    (Q := fun m u => s.groupTransient m → ∀ x ∈ s.members g, x ≠ m → u.Related x m) (s.members g)
    (fun u m u' hm hu hround => ?_) (.refl h) hrelead
  · exact ⟨hloop.1, hloop.2.1⟩
  have htr : u.groupTransient m = s.groupTransient m := by
    unfold groupTransient
    rw [hu.leadId]
  split at hround
  · have hinner := Lib.foldlM_settles (P := Grows (s.members g) u)
      (Q := fun x v => x ≠ m → v.Related x m) (u.members g) (fun v x v' hx hv hstep => ?_) (.refl hu.base) hround
    · refine ⟨hu.trans hinner.1, fun _ x hx => hinner.2.1 x (hu.frame.members ▸ hx), fun k hk hkt x hx hxk => ?_⟩
      exact hinner.1.related (hk hkt x hx hxk)
    · obtain ⟨hgrow, hrel⟩ := hv.base.releadMember_grows
        (fun k (hk : k ∈ s.members g) => by rw [hv.frame.isClient, hu.frame.isClient]; exact hms k hk) hm (hu.frame.members ▸ hx) hstep
      exact ⟨hv.trans hgrow, hrel, fun y hy hym => hgrow.related (hy hym)⟩
  · next hno =>
    cases hround
    exact ⟨hu, fun ht => absurd (htr.trans ht) hno, fun _ hk => hk⟩

/-- The first loop of `update_group(win, false)` takes away the leads in the group. -/
theorem Base.updateGroupRemove_spec (h : Base False s) (g : Nat)
    (hnamed : ∀ k, s.isClient k → (s.node win).leadId = .window k → Edge s k win) : ∃ u : Windows,
      s.updateGroupRemove win g = (u.releadMembers g).map (·.setGroup win none) ∧ Base False u ∧
      u.members g = (s.members g).filter (· ≠ win) ∧ (∀ x, x ≠ win → (u.node x).leadId = (s.node x).leadId) ∧
      (∀ k, s.isClient k → ((u.node win).leadId = .window k ↔ (s.node win).leadId = .window k)) ∧
      Edge u = s.Remains win g ∧ ∀ x, u.isClient x = s.isClient x := by
  set ms := (s.members g).filter (· ≠ win) with hms
  have hbase : Base False (s.setMembers g ms) :=
    h.setMembers fun m hm => h.member g m (List.mem_filter.mp hm).1
  have hmem : (s.setMembers g ms).members g = ms := Function.update_self g _ _
  obtain ⟨hu, hframe, hother, hid, hedge⟩ := hbase.leaveMembers_spec
    (fun m (hm : m ∈ ms) => (h.member g m (List.mem_filter.mp hm).1).1) hnamed rfl
  refine ⟨_, ?_, hu, hframe.members ▸ hmem, hother, hid, ?_, hframe.isClient⟩
  · unfold updateGroupRemove
    dsimp only
    rw [← hms, hmem]
  funext l c
  refine propext ((hedge l c).trans (and_congr_right fun he => not_congr (and_congr_right fun hc => ?_)))
  refine and_congr_left fun _ => ?_
  rw [hms, List.mem_filter, and_iff_left]
  subst hc
  exact decide_eq_true (h.ne l c he)

theorem setGroup_same (s : Windows) (w : Nat) (g : Option Nat) : Edge (s.setGroup w g) = Edge s ∧
    (∀ x, ((s.setGroup w g).node x).leadId = (s.node x).leadId ∧
      ((s.setGroup w g).node x).children = (s.node x).children ∧ ((s.setGroup w g).node x).leads = (s.node x).leads) ∧
    (s.setGroup w g).members = s.members := by
  have hnode (x : Nat) : ((s.setGroup w g).node x).leadId = (s.node x).leadId ∧
      ((s.setGroup w g).node x).children = (s.node x).children ∧
      ((s.setGroup w g).node x).leads = (s.node x).leads := by
    unfold setGroup
    by_cases hx : x = w
    · subst hx; rw [modify_node_same]; exact ⟨rfl, rfl, rfl⟩
    · rw [modify_node_of_ne _ hx]; exact ⟨rfl, rfl, rfl⟩
  refine ⟨?_, hnode, rfl⟩
  funext l c
  unfold Edge
  rw [(hnode c).2.2]

/-- What the members are to each other and to the window after it has left. -/
structure Departed (s : Windows) (win g : Nat) (s' : Windows) : Prop where
  mem_members : ∀ m, m ∈ s'.members g ↔ m ∈ s.members g ∧ m ≠ win
  leadId : ∀ m, m ≠ win → (s'.node m).leadId = (s.node m).leadId
  tied_to : ∀ m ∈ s'.members g, s'.Tied m win → (s'.node win).leadId = .window m
  tied_from : ∀ m ∈ s'.members g, s'.Tied win m ↔ m ∈ (s.node win).children
  loop : ∀ a b, TransGen (Edge s') a b ∧ TransGen (Edge s') b a ↔
    TransGen (s.Remains win g) a b ∧ TransGen (s.Remains win g) b a
  related : ∀ m ∈ s'.members g, s.groupTransient m → ∀ x ∈ s'.members g, x ≠ m → s'.Related x m

theorem Departed.groupTransient (h : Departed s win g s') (hm : m ≠ win) :
    s'.groupTransient m = s.groupTransient m := by
  unfold Windows.groupTransient
  rw [h.leadId m hm]

private theorem Base.departed (h : Base False s) (hwin : s.isClient win)
    (hnamed : ∀ k, s.isClient k → (s.node win).leadId = .window k → Edge s k win)
    (hs : s.updateGroupRemove win g = some s') : Departed s win g s' := by
  obtain ⟨u, heq, hu, hmem, hother, hid, hremains, hclient⟩ := h.updateGroupRemove_spec g hnamed
  rw [heq] at hs
  obtain ⟨v, hv, rfl⟩ := Option.map_eq_some_iff.mp hs
  obtain ⟨hedge, hnode, hmembers⟩ := setGroup_same v win none
  have hmu (m : Nat) : m ∈ u.members g ↔ m ∈ s.members g ∧ m ≠ win := by
    rw [hmem, List.mem_filter, decide_eq_true_eq]
  have huc {m : Nat} (hm : m ∈ u.members g) : u.isClient m :=
    (hclient m).trans (h.member g m ((hmu m).mp hm).1).1
  obtain ⟨hgrow, hrelated⟩ := hu.releadMembers_grows (fun m hm => huc hm) hv
  have hmv (m : Nat) : m ∈ (v.setGroup win none).members g ↔ m ∈ u.members g := by rw [hmembers, hgrow.frame.members]
  have htied {l : Nat} (hl : u.isClient l) (c : Nat) : (v.setGroup win none).Tied l c ↔ Edge v l c := by
    unfold Tied
    rw [(hnode c).2.2, (hnode l).2.1]
    exact hgrow.base.tied_iff (isClient_alive ((hgrow.frame.isClient l).trans hl))
  -- nothing is put back for the window itself
  have hkept {l c : Nat} (he : Edge v l c) (hw : l = win ∨ c = win) : s.Remains win g l c := by
    rcases hgrow.among l c he with he | ⟨hl, hc⟩
    · rwa [hremains] at he
    · exact (hw.elim ((hmu l).mp hl).2 ((hmu c).mp hc).2).elim
  refine ⟨fun m => (hmv m).trans (hmu m), fun m hm => ?_, fun m hm ht => ?_, fun m hm => ?_, fun a b => ?_,
    fun m hm ht x hx hxm => ?_⟩
  · rw [(hnode m).1, hgrow.leadId, hother m hm]
  · obtain ⟨hms, -⟩ := (hmu m).mp ((hmv m).mp hm)
    obtain ⟨-, hstay⟩ := hkept ((htied (huc ((hmv m).mp hm)) win).mp ht) (.inr rfl)
    rw [(hnode win).1, hgrow.leadId, hid m (h.member g m hms).1]
    by_contra hne
    exact hstay ⟨rfl, hms, hne⟩
  · rw [htied ((hclient win).trans hwin), ← h.mirror win m (isClient_alive hwin)]
    refine ⟨fun he => (hkept he (.inl rfl)).1, fun he => hgrow.edge win m ?_⟩
    rw [hremains]
    exact ⟨he, fun hout => ((hmu m).mp ((hmv m).mp hm)).2 hout.1⟩
  · rw [hedge, ← hremains]
    exact ⟨fun hab => ⟨hgrow.cycle a b hab.1 hab.2, hgrow.cycle b a hab.2 hab.1⟩,
      fun hab => ⟨TransGen.mono hgrow.edge _ _ hab.1, TransGen.mono hgrow.edge _ _ hab.2⟩⟩
  · have hid := hother m ((hmu m).mp ((hmv m).mp hm)).2
    have htr : u.groupTransient m = s.groupTransient m := by
      unfold Windows.groupTransient
      rw [hid]
    unfold Related
    rw [hedge]
    exact hrelated m ((hmv m).mp hm) (htr.trans ht) x ((hmv x).mp hx) hxm

private theorem Departed.leftGroup_iff (hd : Departed s win g s') (hchild : ∀ m ∈ (s.node win).children, m ≠ win) :
    s'.LeftGroup win g ↔ s.Leavable win g := by
  constructor
  · rintro ⟨huntied, hxor⟩
    refine ⟨fun m hm hmc => ?_, fun m hm hmw ht x hx hxw hxm hboth => ?_⟩
    · have hm := (hd.mem_members m).mpr ⟨hm, hchild m hmc⟩
      rw [← hd.leadId m (hchild m hmc)]
      exact (huntied m hm).2 ((hd.tied_from m hm).mpr hmc)
    · have hone := hxor m ((hd.mem_members m).mpr ⟨hm, hmw⟩) ((hd.groupTransient hmw).trans ht) x
        ((hd.mem_members x).mpr ⟨hx, hxw⟩) hxm
      obtain ⟨hxm, hmx⟩ := (hd.loop x m).mpr hboth
      rcases hone with ⟨-, hno⟩ | ⟨-, hno⟩
      · exact hno hmx
      · exact hno hxm
  · rintro ⟨hchildren, hunlooped⟩
    refine ⟨fun m hm => ⟨hd.tied_to m hm, fun ht => ?_⟩, fun m hm ht x hx hxm => ?_⟩
    · obtain ⟨hms, hmw⟩ := (hd.mem_members m).mp hm
      rw [hd.leadId m hmw]
      exact hchildren m hms ((hd.tied_from m hm).mp ht)
    · obtain ⟨hms, hmw⟩ := (hd.mem_members m).mp hm
      obtain ⟨hxs, hxw⟩ := (hd.mem_members x).mp hx
      have ht := (hd.groupTransient hmw).symm.trans ht
      have hno := mt (hd.loop x m).mp (hunlooped m hms hmw ht x hxs hxw hxm)
      rcases hd.related m hm ht x hx hxm with hxm | hmx
      · exact .inl ⟨hxm, fun hmx => hno ⟨hxm, hmx⟩⟩
      · exact .inr ⟨hmx, fun hxm => hno ⟨hxm, hmx⟩⟩

/-- The window leaves no relation behind, and the group transients keep theirs, exactly if it is
no lead of a member by the group only, and they are in no loop. -/
private theorem Base.leftGroup_iff (h : Base False s) (hwin : s.isClient win)
    (hnamed : ∀ k, s.isClient k → (s.node win).leadId = .window k → Edge s k win)
    (hs : s.updateGroupRemove win g = some s') : s'.LeftGroup win g ↔ s.Leavable win g :=
  (h.departed hwin hnamed hs).leftGroup_iff fun _ hm => (h.children_ne hm).symm

/-- Without cycles the search for followers always ends. -/
private theorem Base.releadMembers_isSome (h : Base False s) (hac : Lib.Acyclic (Edge s))
    (hms : ∀ k ∈ s.members g, s.isClient k) : (s.releadMembers g).isSome := by
  have hgrow {u : Windows} (hu : Grows (s.members g) s u) {k : Nat} (hk : k ∈ u.members g) :
      k ∈ s.members g ∧ (u.node k).alive := by
    rw [hu.frame.members] at hk
    exact ⟨hk, isClient_alive ((hu.frame.isClient k).trans (hms k hk))⟩
  have hstep {u : Windows} {m lead : Nat} (hu : Grows (s.members g) s u) (hm : m ∈ u.members g)
      (hlead : lead ∈ u.members g) : ∃ u', releadMember m u lead = some u' ∧ Grows (s.members g) s u' := by
    suffices hsome : ∃ u', releadMember m u lead = some u' by
      obtain ⟨u', hu'⟩ := hsome
      refine ⟨u', hu', hu.trans (hu.base.releadMember_grows (fun k hk => ?_) (hgrow hu hm).1 (hgrow hu hlead).1 hu').1⟩
      exact (hu.frame.isClient k).trans (hms k hk)
    have hacu : Lib.Acyclic (Edge u) := fun x hx => hac x (hu.cycle x x hx hx)
    obtain ⟨below, hbelow, -⟩ := hu.base.follows_spec hacu (hgrow hu hm).2 (hgrow hu hlead).2
    obtain ⟨above, habove, -⟩ := hu.base.follows_spec hacu (hgrow hu hlead).2 (hgrow hu hm).2
    unfold releadMember
    rw [hbelow, habove]
    by_cases heq : lead = m
    · exact ⟨u, if_pos heq⟩
    · cases below with
      | true => exact ⟨u, if_neg heq⟩
      | false => exact ⟨_, if_neg heq⟩
  have hloop := Lib.foldlM_loop (f := fun u m => if u.groupTransient m then (u.members g).foldlM (releadMember m) u else some u)
    (s.members g) (fun _ u => Grows (s.members g) s u) (fun done m todo u hall hu => ?_) (.refl h)
  · obtain ⟨v, hv, -⟩ := hloop
    exact Option.isSome_iff_exists.mpr ⟨v, hv⟩
  have hm : m ∈ u.members g := by
    rw [hu.frame.members, hall]
    simp
  split
  · have hinner := Lib.foldlM_loop (f := releadMember m)
      (u.members g) (fun _ u' => Grows (s.members g) s u' ∧ u'.members g = u.members g)
      (fun done lead todo u' hall hu' => ?_) ⟨hu, rfl⟩
    · obtain ⟨v, hv, hgrown, -⟩ := hinner
      exact ⟨v, hv, hgrown⟩
    have hlead : lead ∈ u.members g := by
      rw [hall]
      simp
    obtain ⟨u'', hu'', hgrown⟩ := hstep hu'.1 (hu'.2.symm ▸ hm) (hu'.2.symm ▸ hlead)
    exact ⟨u'', hu'', hgrown, by rw [hgrown.frame.members, ← hu.frame.members]⟩
  · exact ⟨u, rfl, hu⟩

private theorem Base.updateGroupRemove_isSome (h : Base False s) (hac : Lib.Acyclic (Edge s))
    (hnamed : ∀ k, s.isClient k → (s.node win).leadId = .window k → Edge s k win) :
    (s.updateGroupRemove win g).isSome := by
  obtain ⟨u, heq, hu, hmem, -, -, hremains, hclient⟩ := h.updateGroupRemove_spec g hnamed
  rw [heq, Option.isSome_map]
  refine hu.releadMembers_isSome (hac.mono fun l c he => ?_) fun k hk => ?_
  · rw [hremains] at he
    exact he.1
  · rw [hmem] at hk
    exact (hclient k).trans (h.member g k (List.mem_filter.mp hk).1).1

/-- In every state in which the window has the window of its lead id as a lead, if that is managed:
leaving undoes the group exactly if it can, and it comes to an end if there are no cycles. -/
theorem leftGroup_iff_leavable (h : Base False s) (hwin : s.isClient win)
    (hnamed : ∀ k, s.isClient k → (s.node win).leadId = .window k → Edge s k win) :
    (∀ s', s.updateGroupRemove win g = some s' → (s'.LeftGroup win g ↔ s.Leavable win g)) ∧
      (Lib.Acyclic (Edge s) → (s.updateGroupRemove win g).isSome) :=
  ⟨fun _ hs => h.leftGroup_iff hwin hnamed hs, fun hac => h.updateGroupRemove_isSome hac hnamed⟩

/-- A group transient of two windows goes. -/
theorem groupTransient_left : ∃ s s', Lib.Reachable step Lib.anyStep initial s ∧
    (s.node 3).leads = [1, 2] ∧ s.updateGroupRemove 3 7 = some s' ∧ s'.LeftGroup 3 7 := by
  obtain ⟨s, s', h, hleads, hclient, hid, hmembers, hnot, hs⟩ : ∃ s s', Lib.Reachable step Lib.anyStep initial s ∧
      (s.node 3).leads = [1, 2] ∧ s.isClient 3 ∧ (s.node 3).leadId = .root ∧ s.members 7 = [1, 2, 3] ∧
      ((s.node 3).children = [] ∧ ¬ s.groupTransient 1 ∧ ¬ s.groupTransient 2) ∧ s.updateGroupRemove 3 7 = some s' :=
    ⟨_, _, Lib.Reachable.init.execute [.manage 1 true, .manage 2 true, .checkGroup 1 ⟨7, []⟩, .checkGroup 2 ⟨7, []⟩,
      .manage 3 true, .readTransientProperty 3 ⟨some .root, false, []⟩ ⟨7, []⟩] rfl, rfl, rfl, rfl, rfl,
      ⟨rfl, by decide, by decide⟩, rfl⟩
  refine ⟨s, s', h, hleads, hs, ((leftGroup_iff_leavable (reachable_base h) hclient fun k _ hk => ?_).1 s' hs).mpr
    ⟨fun m _ hm => ?_, fun m hm hne ht => ?_⟩⟩
  · rw [hid] at hk
    cases hk
  · rw [hnot.1] at hm
    cases hm
  · rw [hmembers] at hm
    simp only [List.mem_cons, List.not_mem_nil, or_false] at hm
    rcases hm with rfl | rfl | rfl
    · exact absurd ht hnot.2.1
    · exact absurd ht hnot.2.2
    · exact absurd rfl hne

/-- In the runs without cycles only the children matter. -/
theorem leftGroup_of_run (h : Lib.Reachable step Unlooped initial s) (hwin : s.isClient win) :
    ∃ s', s.updateGroupRemove win g = some s' ∧ (s'.LeftGroup win g ↔
      ∀ m ∈ s.members g, m ∈ (s.node win).children → (s.node m).leadId = .window win) := by
  have hs : Sound (fun _ _ => False) s := h.invariant (Sound fun _ _ => False) Sound.initial
    fun s e s' hs hok hstep => hs.step hok hstep
  have hnamed (k : Nat) (hk : s.isClient k) (hid : (s.node win).leadId = .window k) : Edge s k win :=
    hs.named win k id hwin hk hid
  obtain ⟨s', hs'⟩ := Option.isSome_iff_exists.mp (hs.toBase.updateGroupRemove_isSome (g := g) hs.acyclic hnamed)
  refine ⟨s', hs', (hs.toBase.leftGroup_iff hwin hnamed hs').trans ⟨fun hl => hl.children, fun hc => ⟨hc, ?_⟩⟩⟩
  intro m _ _ _ x _ _ _ hboth
  have hsub (a b : Nat) (hab : s.Remains win g a b) : Edge s a b := hab.1
  exact hs.acyclic m ((TransGen.mono hsub _ _ hboth.2).trans (TransGen.mono hsub _ _ hboth.1))

/-- Its lead goes, and keeps it as a child. -/
theorem lead_keeps_groupTransient : ∃ s s', Lib.Reachable step Lib.anyStep initial s ∧
    s.updateGroupRemove 1 7 = some s' ∧ ¬ s'.LeftGroup 1 7 := by
  refine ⟨_, _, Lib.Reachable.init.execute [.manage 1 true, .checkGroup 1 ⟨7, []⟩, .manage 2 true,
    .readTransientProperty 2 ⟨some .root, false, []⟩ ⟨7, []⟩] rfl, rfl, fun hleft => ?_⟩
  exact absurd ((hleft.untied 2 (by decide)).2 (.inl (by decide))) (by decide)

end Windows
end KWinFT.Transient
