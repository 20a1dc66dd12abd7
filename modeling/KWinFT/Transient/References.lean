import KWinFT.Transient.Steps

/-! Who holds a reference to a remnant: its creator, effects, and its leads but for those that the
timer has given up. The count is right as long as nobody takes a reference that comes too late,
and no lead goes whose reference was given up already. -/
namespace KWinFT.Transient

/-- The count of a remnant with `n` leads, and that it is scheduled when the count gets to zero. -/
structure Remnant.Balanced (rem : Remnant) (n : Nat) : Prop where
  count : rem.refcount + rem.dropped = (if rem.released then 0 else 1) + rem.external + n
  dropped_le : rem.dropped ≤ n
  timer : rem.timer → rem.dropped = 0 ∧ rem.refcount ≠ 0
  zero : rem.refcount = 0 → rem.scheduled = 1
  pos : rem.refcount ≠ 0 → rem.scheduled = 0

namespace Remnant.Balanced
variable {rem : Remnant} {n k : Nat}

theorem created (n : Nat) (timer : Bool) : Balanced ⟨1 + n, timer, 0, false, 0, 0⟩ n := by
  constructor <;> grind

/-- An effect takes a reference. -/
theorem ref (h : rem.Balanced n) (hs : rem.scheduled = 0) :
    Balanced { rem.ref with external := rem.external + 1 } n := by
  obtain ⟨hc, hd, ht, hz, hp⟩ := h
  unfold Remnant.ref
  constructor <;> grind

theorem addLead (h : rem.Balanced n) (hs : rem.scheduled = 0) : rem.ref.Balanced (n + 1) := by
  obtain ⟨hc, hd, ht, hz, hp⟩ := h
  unfold Remnant.ref
  constructor <;> grind

theorem removeLead (h : rem.Balanced n) (hd : rem.dropped < n) : rem.unref.Balanced (n - 1) := by
  obtain ⟨hc, hd, ht, hz, hp⟩ := h
  unfold Remnant.unref
  constructor <;> grind

theorem unref (h : rem.Balanced n) (he : 0 < rem.external) :
    Balanced { rem.unref with external := rem.external - 1 } n := by
  obtain ⟨hc, hd, ht, hz, hp⟩ := h
  unfold Remnant.unref
  constructor <;> grind

theorem release (h : rem.Balanced n) (hr : rem.released = false) :
    Balanced { rem.unref with released := true } n := by
  obtain ⟨hc, hd, ht, hz, hp⟩ := h
  unfold Remnant.unref
  constructor <;> grind

theorem dropOne (h : rem.Balanced n) (ht : rem.timer = false) (hd : rem.dropped < n) :
    Balanced { rem.unref with dropped := rem.dropped + 1 } n := by
  obtain ⟨hc, hd, ht, hz, hp⟩ := h
  unfold Remnant.unref
  constructor <;> grind

/-- The timer runs once, so it can give up only references of leads that still count. -/
theorem dropRefs (h : rem.Balanced n) (ht : rem.timer = false) (hk : rem.dropped + k ≤ n) :
    (dropRefs k rem).Balanced n := by
  induction k generalizing rem with
  | zero => exact h
  | succ k ih =>
    have hone := h.dropOne ht (by omega)
    refine ih hone ?_ ?_
    · unfold Remnant.unref
      dsimp only
      split
      · exact ht
      · rfl
    · change rem.dropped + 1 + k ≤ n
      omega

theorem stopTimer (h : rem.Balanced n) : Balanced { rem with timer := false } n :=
  ⟨h.count, h.dropped_le, fun ht => (Bool.false_ne_true ht).elim, h.zero, h.pos⟩

end Remnant.Balanced

namespace Windows
variable {s s' : Windows} {w l c r src x : Nat} {tidy : Prop}

/-- The references of every remnant are counted right. -/
def Counted (s : Windows) : Prop :=
  ∀ x, ∀ rem ∈ (s.node x).remnant, rem.Balanced (s.node x).leads.length

/-- No event takes a reference to a remnant that is scheduled already, be it an effect's or that
of a new lead, and a remnant loses leads only while the timer has not given up all of them. -/
def Careful (s : Windows) : Event → Prop
  | .ref r => ∀ rem ∈ (s.node r).remnant, rem.scheduled = 0
  | .addChild l c => c ∉ (s.node l).children → ∀ rem ∈ (s.node c).remnant, rem.scheduled = 0
  | .removeChild l c => l ∈ (s.node c).leads → ∀ rem ∈ (s.node c).remnant, rem.dropped < (s.node c).leads.length
  | .close _ src => ∀ c ∈ (s.node src).children, ∀ rem ∈ (s.node c).remnant, rem.scheduled = 0
  | .destroy w | .discard w =>
    ∀ c ∈ (s.node w).children, ∀ rem ∈ (s.node c).remnant, rem.dropped < (s.node c).leads.length
  | _ => True

theorem Counted.modify (h : Counted s) {f : Node → Node}
    (hf : ∀ rem ∈ (f (s.node w)).remnant, rem.Balanced (f (s.node w)).leads.length) :
    Counted (s.modify w f) := by
  intro x rem hrem
  by_cases hx : x = w
  · subst hx
    rw [modify_node_same] at hrem ⊢
    exact hf rem hrem
  · rw [modify_node_of_ne _ hx] at hrem ⊢
    exact h x rem hrem

theorem Counted.addChild (h : Counted s) (hne : l ≠ c)
    (hs : c ∉ (s.node l).children → ∀ rem ∈ (s.node c).remnant, rem.scheduled = 0) :
    Counted (s.addChild l c) := by
  unfold Windows.addChild
  split
  · exact h
  · next hnew =>
    refine (h.modify fun rem hrem => h l rem hrem).modify fun rem hrem => ?_
    rw [modify_node_of_ne _ hne.symm] at hrem ⊢
    obtain ⟨rem₀, hrem₀, rfl⟩ := Option.map_eq_some_iff.mp hrem
    simpa [Node.addLead] using (h c rem₀ hrem₀).addLead (hs hnew rem₀ hrem₀)

private theorem Counted.removeLead {n : Node} (h : ∀ rem ∈ n.remnant, rem.Balanced n.leads.length)
    (hn : n.leads.Nodup) (hd : l ∈ n.leads → ∀ rem ∈ n.remnant, rem.dropped < n.leads.length) :
    ∀ rem ∈ (n.removeLead l).remnant, rem.Balanced (n.removeLead l).leads.length := by
  unfold Node.removeLead
  split
  · next hl =>
    intro rem hrem
    obtain ⟨rem₀, hrem₀, rfl⟩ := Option.map_eq_some_iff.mp hrem
    have hlength : (n.leads.filter (· ≠ l)).length = n.leads.length - 1 := by
      rw [← List.length_erase_of_mem hl, hn.erase_eq_filter]
      exact congrArg List.length (List.filter_congr fun y _ => by by_cases hy : y = l <;> simp [hy])
    dsimp only
    rw [hlength]
    exact (h rem₀ hrem₀).removeLead (hd hl rem₀ hrem₀)
  · exact h

theorem Counted.removeChild (h : Counted s) (hb : Base tidy s)
    (hd : l ∈ (s.node c).leads → ∀ rem ∈ (s.node c).remnant, rem.dropped < (s.node c).leads.length) :
    Counted (s.removeChild l c) := by
  have hbase : Counted (s.removeChildBase l c) := by
    have hfirst : Counted (s.modify l fun n => { n with children := n.children.filter (· ≠ c) }) :=
      h.modify (h l)
    refine hfirst.modify (Counted.removeLead (hfirst c) ?_ ?_)
    all_goals
      by_cases hc : c = l
      · subst hc; rw [modify_node_same]; first | exact hb.nodup_leads c | exact hd
      · rw [modify_node_of_ne _ hc]; first | exact hb.nodup_leads c | exact hd
  unfold Windows.removeChild
  dsimp only
  split
  · exact hbase.modify (hbase c)
  · exact hbase

theorem Base.client_no_remnant (h : Base tidy s) (hc : s.isClient c) : (s.node c).remnant = none := by
  unfold isClient at hc
  rw [Bool.and_eq_true] at hc
  exact h.client c hc.2

/-- Remnants are never the ones that change places in a group. -/
theorem Counted.stable : Stable False fun s => Base False s ∧ Counted s where
  base _ h := h.1
  remove s l c h _ hc _ := by
    refine ⟨h.1.removeChild l c, h.2.removeChild h.1 fun _ rem hrem => ?_⟩
    rw [h.1.client_no_remnant hc] at hrem
    cases hrem
  join s l c h hl hc hne _ := by
    refine ⟨h.1.addChild (isClient_alive hl) (isClient_alive hc) hne, h.2.addChild hne fun _ rem hrem => ?_⟩
    rw [h.1.client_no_remnant hc] at hrem
    cases hrem
  setGroup s w g h hg := ⟨h.1.setGroup hg, h.2.modify (h.2 w)⟩
  setMembers s g ms h hms := ⟨h.1.setMembers hms, h.2⟩

theorem Counted.keeps (win : Nat) : Keeps (fun s => Base False s ∧ Counted s) win := by
  intro s m h hm hwin hne _
  refine ⟨h.1.addChild (isClient_alive hm) (isClient_alive hwin) hne, h.2.addChild hne fun _ rem hrem => ?_⟩
  rw [h.1.client_no_remnant hwin] at hrem
  cases hrem

private theorem modify_remnant_children (s : Windows) (w x : Nat) (f : List Nat → List Nat) :
    ((s.modify w fun n => { n with children := f n.children }).node x).remnant = (s.node x).remnant := by
  by_cases hx : x = w
  · subst hx; rw [modify_node_same]
  · rw [modify_node_of_ne _ hx]

theorem addChild_remnant_of_ne (hx : x ≠ c) : ((s.addChild l c).node x).remnant = (s.node x).remnant := by
  unfold Windows.addChild
  split
  · rfl
  · rw [modify_node_of_ne _ hx]
    exact modify_remnant_children s l x (· ++ [c])

theorem removeChild_remnant_of_ne (hx : x ≠ c) :
    ((s.removeChild l c).node x).remnant = (s.node x).remnant := by
  have hbase : ((s.removeChildBase l c).node x).remnant = (s.node x).remnant := by
    rw [removeChildBase, modify_node_of_ne _ hx]
    exact modify_remnant_children s l x (·.filter (· ≠ c))
  unfold Windows.removeChild
  dsimp only
  split
  · rw [modify_node_of_ne _ hx]; exact hbase
  · exact hbase

/-- A remnant that is not scheduled may pass from one lead to another: the new reference is there
before the old one goes. -/
theorem Counted.handOver (h : Counted s) (hb : Base tidy s) (hr : (s.node r).alive) (hc : (s.node c).alive)
    (hne : r ≠ c) (hs : ∀ rem ∈ (s.node c).remnant, rem.scheduled = 0) (hnew : c ∉ (s.node r).children) :
    Counted ((s.addChild r c).removeChild src c) := by
  refine (h.addChild hne fun _ => hs).removeChild (hb.addChild hr hc hne) fun _ rem hrem => ?_
  have hnode : (s.addChild r c).node c = (s.node c).addLead r := by
    rw [Windows.addChild, if_neg hnew, modify_node_same, modify_node_of_ne _ hne.symm]
  rw [hnode] at hrem ⊢
  obtain ⟨rem₀, hrem₀, rfl⟩ := Option.map_eq_some_iff.mp hrem
  have := (h c rem₀ hrem₀).dropped_le
  simp only [Node.addLead, List.length_append, List.length_singleton]
  exact Nat.lt_succ_of_le this

private theorem Counted.handOverAll {cs : List Nat} (hcs : cs.Nodup) (h : Counted s) (hb : Base tidy s)
    (hr : (s.node r).alive) (hall : ∀ c ∈ cs, (s.node c).alive ∧ r ≠ c ∧ c ∉ (s.node r).children ∧
      ∀ rem ∈ (s.node c).remnant, rem.scheduled = 0) :
    Counted (cs.foldl (fun u c => (u.addChild r c).removeChild src c) s) := by
  induction cs generalizing s with
  | nil => exact h
  | cons c cs ih =>
    obtain ⟨hc, hne, hnew, hsched⟩ := hall c List.mem_cons_self
    have hframe : SameFrame s ((s.addChild r c).removeChild src c) :=
      (addChild_frame s r c).trans (removeChild_frame _ src c)
    refine ih (List.nodup_cons.mp hcs).2 (h.handOver hb hr hc hne hsched hnew)
      ((hb.addChild hr hc hne).removeChild src c) (by rwa [hframe.alive]) fun c' hc' => ?_
    obtain ⟨ha', hne', hnew', hsched'⟩ := hall c' (List.mem_cons_of_mem c hc')
    have hcc : c' ≠ c := fun heq => (List.nodup_cons.mp hcs).1 (heq ▸ hc')
    refine ⟨by rwa [hframe.alive], hne', fun hm => ?_, ?_⟩
    · rcases (mem_children_addChild hne hnew r c').mp ((mem_children_removeChild _ src c r c').mp hm).1
        with hm | hm
      · exact hnew' hm
      · exact hcc hm.2
    · rw [removeChild_remnant_of_ne hcc, addChild_remnant_of_ne hcc]
      exact hsched'

private theorem addChild_children_of_ne (hx : x ≠ l) :
    ((s.addChild l c).node x).children = (s.node x).children := by
  unfold Windows.addChild
  split
  · rfl
  · by_cases hc : x = c
    · subst hc
      rw [modify_node_same, modify_node_of_ne _ hx]
      rfl
    · rw [modify_node_of_ne _ hc, modify_node_of_ne _ hx]

/-- While the leads change from the window to its remnant, neither counts references yet. -/
private theorem Counted.takeLeads (h : Counted s) (r src : Nat) (ls : List Nat) (hb : Base tidy s)
    (hr : (s.node r).alive) (hrem : (s.node r).remnant = none) (hsrem : (s.node src).remnant = none)
    (hls : ∀ l ∈ ls, (s.node l).alive ∧ l ≠ r ∧ l ≠ src) :
    let u := ls.foldl (fun u l => (u.addChild l r).removeChild l src) s
    Counted u ∧ Base tidy u ∧ SameFrame s u ∧ (u.node src).children = (s.node src).children ∧
      (u.node r).children = (s.node r).children ∧
      ∀ x, x ≠ r → x ≠ src → (u.node x).remnant = (s.node x).remnant := by
  refine Lib.foldl_preserves (P := fun u => Counted u ∧ Base tidy u ∧ SameFrame s u ∧
    (u.node src).children = (s.node src).children ∧ (u.node r).children = (s.node r).children ∧
    ∀ x, x ≠ r → x ≠ src → (u.node x).remnant = (s.node x).remnant) ls (fun u l hl hu => ?_)
    ⟨h, hb, .refl s, rfl, rfl, fun _ _ _ => rfl⟩
  obtain ⟨hcount, hbase, hf, hsrc, hchild, hsame⟩ := hu
  obtain ⟨hla, hlr, hls⟩ := hls l hl
  have hnone {y : Nat} (hy : (s.node y).remnant = none) {v : Windows} (hv : SameFrame s v) (rem : Remnant)
      (hm : rem ∈ (v.node y).remnant) : False := by
    have := hv.isRemnant y
    rw [Option.mem_def.mp hm, hy] at this
    cases this
  have hadd := hbase.addChild (l := l) (c := r) (by rwa [hf.alive]) (by rwa [hf.alive]) hlr
  have hframe := hf.trans (addChild_frame u l r)
  refine ⟨?_, hadd.removeChild l src, hframe.trans (removeChild_frame _ l src), ?_, ?_, fun x hx hx' => ?_⟩
  · refine (hcount.addChild hlr fun _ rem hm => (hnone hrem hf rem hm).elim).removeChild hadd ?_
    exact fun _ rem hm => (hnone hsrem hframe rem hm).elim
  · rw [removeChild_children, if_neg hls.symm, addChild_children_of_ne hls.symm, hsrc]
  · rw [removeChild_children, if_neg hlr.symm, addChild_children_of_ne hlr.symm, hchild]
  · rw [removeChild_remnant_of_ne hx', addChild_remnant_of_ne hx, hsame x hx hx']

/-- The new remnant is held by its creator and by the leads it has taken over. -/
theorem Counted.createRemnant (h : Counted s) (hb : Base tidy s) (hr : r ∉ s.born)
    (hsrc : (s.node src).alive) (hsource : (s.node src).remnant = none)
    (hleads : ∀ l ∈ (s.node src).leads, (s.node l).alive)
    (hs : ∀ c ∈ (s.node src).children, ∀ rem ∈ (s.node c).remnant, rem.scheduled = 0) :
    Counted (s.createRemnant r src) := by
  have hne {y : Nat} (hy : (s.node y).alive) : y ≠ r := fun heq => hr (heq ▸ hb.born y hy)
  have happear : Counted (s.appear r false) := h.modify (f := fun _ => .fresh false) fun rem hm => by cases hm
  have hlists := hb.appear_lists hr false
  obtain ⟨htb, htf, hmem⟩ := hb.transfer hr hsrc hleads
  -- first loop
  obtain ⟨hc₁, hb₁, hf₁, hsrc₁, hr₁, hsame₁⟩ := happear.takeLeads r src
    ((s.appear r false).node src).leads (hb.appear hr false)
    (by rw [appear_node_same]; rfl) (by rw [appear_node_same]; rfl)
    (by rwa [appear_node_of_ne (hne hsrc)]) (fun l hl => by
      rw [(hlists src).1] at hl
      exact ⟨appear_alive (hleads l hl) r false, hne (hleads l hl), hb.ne l src hl⟩)
  -- second loop
  have hcount : Counted ((s.appear r false).transfer r src) := by
    refine Counted.handOverAll (hb₁.nodup_children src) hc₁ hb₁ ?_ fun c hc => ?_
    · rw [hf₁.alive, appear_node_same]; rfl
    · rw [hsrc₁, (hlists src).2] at hc
      have hca := hb.child_alive src c hc
      have hcr := hne hca
      rw [hf₁.alive, hr₁, hsame₁ c hcr (hb.toMirrored.children_ne hc).symm, appear_node_same,
        appear_node_of_ne hcr]
      exact ⟨hca, hcr.symm, List.not_mem_nil, hs c hc⟩
  have hlength : (((s.appear r false).transfer r src).node r).leads.length = (s.node src).leads.length := by
    refine ((List.perm_ext_iff_of_nodup (htb.nodup_leads r) (hb.nodup_leads src)).mpr fun l => ?_).length_eq
    rw [hmem, (hb.dead r (hb.not_alive hr)).1]
    simp
  unfold Windows.createRemnant
  dsimp only
  refine hcount.modify fun rem hm => ?_
  obtain rfl := Option.some.inj hm
  dsimp only
  rw [hlength]
  exact .created _ _

theorem Counted.destroy (h : Counted s) (hb : Base tidy s)
    (hd : ∀ c ∈ (s.node w).children, ∀ rem ∈ (s.node c).remnant, rem.dropped < (s.node c).leads.length) :
    Counted (s.destroy w) := by
  have hself : w ∉ (s.node w).leads := fun hm => hb.ne w w hm rfl
  intro x
  by_cases hx : x = w
  · subst hx
    rw [destroy_node_same]
    exact fun rem hm => by cases hm
  · rw [destroy_node_of_ne hx hself]
    dsimp only
    split
    · next hv =>
      have hchild := Lib.mem_of_mem_visits hv
      refine Counted.removeLead ?_ ?_ ?_
      · split <;> exact h x
      · split <;> exact hb.nodup_leads x
      · split <;> exact fun _ => hd x hchild
    · split <;> exact h x

theorem Counted.detach (h : Counted s) (hb : Base tidy s) (hc : (s.node c).remnant = none) :
    Counted (s.detach c) := by
  have hloop := Lib.foldl_preserves (P := fun u => Counted u ∧ Base tidy u ∧ (u.node c).remnant.isSome = false)
    (Lib.visits (s.node c).leads) (f := fun u lead => u.removeChild lead c) (fun u lead _ hu => by
      obtain ⟨hcount, hbase, hnone⟩ := hu
      refine ⟨hcount.removeChild hbase fun _ rem hm => ?_, hbase.removeChild lead c, ?_⟩
      · rw [Option.mem_def.mp hm] at hnone
        cases hnone
      · rw [(removeChild_frame u lead c).isRemnant]
        exact hnone) ⟨h, hb, by rw [hc]; rfl⟩
  exact hloop.1

theorem Counted.setTransientLead {win : Nat} {id : LeadId} {choice : GroupChoice} (h : Counted s)
    (hb : Base False s) (hwin : s.isClient win) (hid : id ≠ .window win)
    (hs : s.setTransientLead win id choice = some s') : Counted s' := by
  have hf : SameFrame s ((s.detach win).setLeadId win id) :=
    (detach_frame s win).trans (setLeadId_frame _ win id)
  have hb₁ := (hb.detach win).setLeadId win id
  have hdetach := h.detach hb (hb.client_no_remnant hwin)
  have hc₁ : Counted ((s.detach win).setLeadId win id) := hdetach.modify (hdetach win)
  have hwin₁ : ((s.detach win).setLeadId win id).isClient win := by rwa [hf.isClient]
  refine (Counted.stable.setTransientLead Counted.keeps ⟨hb, h⟩ hwin (fun l _ heq hl => ?_)
    (fun _ => ⟨hb₁, hc₁⟩) hs).2
  have hl₁ : ((s.detach win).setLeadId win id).isClient l := by rwa [hf.isClient]
  have hne : l ≠ win := fun hself => hid (hself ▸ heq)
  refine ⟨hb₁.attach (isClient_alive hwin₁) (isClient_alive hl₁) hne, ?_⟩
  have hadd {u : Windows} (hu : Counted u) (hub : Base False u) (hw : u.isClient win) :
      Counted (u.addChild l win) := by
    refine hu.addChild hne fun _ rem hm => ?_
    rw [hub.client_no_remnant hw] at hm
    cases hm
  unfold attach
  split
  · refine hadd (hc₁.removeChild hb₁ fun _ rem hm => ?_) (hb₁.removeChild win l) ?_
    · rw [hb₁.client_no_remnant hl₁] at hm
      cases hm
    · rwa [(removeChild_frame _ win l).isClient]
  · exact hadd hc₁ hb₁ hwin₁

theorem Counted.mapRemnant {f : Remnant → Remnant} (h : Counted s)
    (hf : ∀ rem, (s.node r).remnant = some rem → (f rem).Balanced (s.node r).leads.length) :
    Counted (s.modify r fun n => { n with remnant := n.remnant.map f }) := by
  refine h.modify fun rem hm => ?_
  obtain ⟨rem₀, hrem₀, rfl⟩ := Option.map_eq_some_iff.mp hm
  exact hf rem₀ hrem₀

/-- Every careful event keeps the references of all remnants counted. -/
theorem Counted.step {e : Event} (h : Counted s) (hb : Base False s) (hok : Careful s e)
    (hs : step s e = some s') : Counted s' := by
  have hspec := step_spec hs
  cases e with
  | manage w x11 =>
    obtain ⟨-, rfl⟩ := hspec
    exact h.modify (f := fun _ => .fresh x11) fun rem hm => by cases hm
  | addChild l c =>
    obtain ⟨-, -, hne, rfl⟩ := hspec
    exact h.addChild hne hok
  | removeChild l c =>
    obtain rfl := hspec
    exact h.removeChild hb hok
  | setTransientLead win id choice | readTransientProperty win p choice =>
    obtain ⟨hwin, hid, hs⟩ := hspec
    exact h.setTransientLead hb hwin hid hs
  | checkGroup win choice =>
    obtain ⟨hwin, hs⟩ := hspec
    exact (Counted.stable.checkGroup Counted.keeps ⟨hb, h⟩ hwin hs).1.2
  | updateGroup win add =>
    obtain ⟨hwin, g, hg, hs⟩ := hspec
    split at hs
    · exact (Counted.stable.updateGroupAdd ⟨hb, h⟩ hwin hg hs).1.2
    · exact (Counted.stable.updateGroupRemove (Counted.keeps win) ⟨hb, h⟩ hwin hg hs).1.2
  | close r src =>
    obtain ⟨hr, hsrc, hnone, hleads, hs⟩ := hspec
    have hcount := h.createRemnant hb hr hsrc hnone hleads hok
    rcases Counted.stable.close (Counted.keeps src) hb hr hsrc (fun _ =>
      ⟨(hb.createRemnant hr hsrc hleads).setLeadId src .none, hcount.modify (hcount src)⟩) hs with
      ⟨-, rfl⟩ | ⟨s₁, h₁, -, rfl⟩
    · exact hcount
    · exact h₁.2.modify (h₁.2 src)
  | destroy w =>
    obtain ⟨-, -, -, rfl⟩ := hspec
    exact h.destroy hb hok
  | ref r =>
    obtain ⟨-, -, -, rfl⟩ := onRemnant_eq_some hspec
    exact h.mapRemnant fun rem hrem => (h r rem hrem).ref (hok rem hrem)
  | unref r =>
    obtain ⟨rem₀, hrem₀, hext, rfl⟩ := onRemnant_eq_some hspec
    refine h.mapRemnant fun rem hrem => (h r rem hrem).unref ?_
    obtain rfl := Option.some.inj (hrem₀.symm.trans hrem)
    exact of_decide_eq_true hext
  | release r =>
    obtain ⟨rem₀, hrem₀, hrel, rfl⟩ := onRemnant_eq_some hspec
    refine h.mapRemnant fun rem hrem => (h r rem hrem).release ?_
    obtain rfl := Option.some.inj (hrem₀.symm.trans hrem)
    simpa using hrel
  | timeout r =>
    obtain ⟨⟨rem₀, hrem₀, htimer⟩, rfl⟩ := hspec
    refine h.mapRemnant fun rem hrem => (h r rem hrem).stopTimer.dropRefs rfl ?_
    obtain rfl := Option.some.inj (hrem₀.symm.trans hrem)
    have hzero := ((h r rem₀ hrem).timer htimer).1
    change rem₀.dropped + _ ≤ _
    rw [hzero, Nat.zero_add]
    exact List.countP_le_length
  | discard r =>
    obtain ⟨-, rfl⟩ := hspec
    exact h.destroy hb hok

/-- In every run of careful steps a remnant is scheduled once at most, and only when all effects
and its creator have let go of it. So its count is zero when it is deleted. -/
theorem remnant_scheduled_once (h : Lib.Reachable step Careful Windows.initial s) {rem : Remnant}
    (hrem : (s.node r).remnant = some rem) :
    rem.scheduled ≤ 1 ∧ (0 < rem.scheduled → rem.external = 0 ∧ rem.released) ∧
      ∀ s', step s (.destroy r) = some s' → rem.refcount = 0 := by
  obtain ⟨-, hcount⟩ := h.invariant (fun s => Base False s ∧ Counted s)
    ⟨Base.initial False, fun _ _ hm => by cases hm⟩ fun s e s' hs hok hstep =>
      ⟨hs.1.step (fun hf => hf.elim) hstep, hs.2.step hs.1 hok hstep⟩
  obtain ⟨hc, hd, -, hz, hp⟩ := hcount r rem hrem
  have hzero : 0 < rem.scheduled → rem.refcount = 0 := fun hs => by
    by_contra hne
    exact absurd (hp hne) (by omega)
  refine ⟨?_, fun hs => ?_, fun s' hs => ?_⟩
  · by_cases h0 : rem.refcount = 0
    · exact Nat.le_of_eq (hz h0)
    · rw [hp h0]; exact Nat.zero_le 1
  · have := hzero hs
    cases hrel : rem.released
    · rw [hrel] at hc
      simp only [Bool.false_eq_true, if_false] at hc
      omega
    · rw [hrel] at hc
      simp only [if_true] at hc
      exact ⟨by omega, rfl⟩
  · obtain ⟨-, -, hsched, -⟩ := step_spec hs
    exact hzero (hsched rem hrem)

/-- A dialog closes while an effect animates it and its main window stays: the timer gives up the
reference of the main window, and the effect's is the last one. -/
theorem animatedDialog_scheduled_once :
    ∃ (s : Windows) (rem : Remnant), (s.node 3).remnant = some rem ∧ rem.refcount = 0 ∧ rem.scheduled ≤ 1 ∧ rem.external = 0 := by
  obtain ⟨s, h, hrem, s', hs⟩ : ∃ s, Lib.Reachable step Careful Windows.initial s ∧
      (s.node 3).remnant = some ⟨0, false, 1, true, 0, 1⟩ ∧ ∃ s', step s (.destroy 3) = some s' :=
    ⟨_, .step (.unref 3) (.step (.timeout 3) (.step (.release 3) (.step (.ref 3) (.step (.close 3 2)
      (.step (.addChild 1 2) (.step (.manage 2 false) (.step (.manage 1 false) .init trivial rfl) trivial rfl)
        (fun _ rem hm => by cases hm) rfl) (fun c hc => by cases hc) rfl) (fun rem hm => by cases hm; rfl) rfl)
      trivial rfl) trivial rfl) trivial rfl, rfl, _, rfl⟩
  obtain ⟨honce, hreleased, hzero⟩ := remnant_scheduled_once h hrem
  exact ⟨s, _, hrem, hzero s' hs, honce, (hreleased Nat.zero_lt_one).1⟩

/-- The same dialog, but its main window closes and is gone before the effect ends: the remnant of
the main window gives up the reference that the timer gave up already. -/
def lateLeadRun : List Event :=
  [.manage 1 false, .manage 2 false, .addChild 1 2, .close 3 2, .ref 3, .release 3, .timeout 3,
    .close 4 1, .release 4, .destroy 4]

theorem lateLeadRun_schedules_early : ∃ s s' rem rem', Lib.Reachable step Lib.anyStep Windows.initial s ∧
    (s.node 3).remnant = some rem ∧ rem.scheduled = 1 ∧ rem.external = 1 ∧
    step s (.unref 3) = some s' ∧ (s'.node 3).remnant = some rem' ∧ rem'.scheduled = 2 ∧
    rem'.refcount = -1 :=
  ⟨_, _, _, _, Lib.Reachable.init.execute lateLeadRun rfl, rfl, rfl, rfl, rfl, rfl, rfl, rfl⟩

end Windows
end KWinFT.Transient
