import KWinFT.Transient.Steps

/-! The two loops that take a window out of the lists of others run over the list they shrink. What
they leave behind depends on its length alone, so runs that stay below it are complete. -/
namespace KWinFT.Transient
namespace Windows
variable {s : Windows} {w win l : Nat} {tidy : Prop}

/-- Each is in the list of the other exactly once, or not at all in both. -/
def Mutual (s : Windows) : Prop :=
  ∀ l c, (s.node l).children.count c = 1 ↔ (s.node c).leads.count l = 1

/-- No other window lists `w`. -/
def Forgotten (s : Windows) (w : Nat) : Prop :=
  ∀ x, x ≠ w → w ∉ (s.node x).leads ∧ w ∉ (s.node x).children

/-- The loops of this event, if it comes to them, run over at most two windows. -/
def Tractable (s : Windows) : Event → Prop
  | .setTransientLead win id _ => id ≠ (s.node win).leadId → (s.node win).leads.length ≤ 2
  | .readTransientProperty win p _ =>
    s.verifyTransientFor win p ≠ (s.node win).leadId → (s.node win).leads.length ≤ 2
  | .destroy w | .discard w => (s.node w).children.length ≤ 2
  | _ => True

theorem Base.mutual (h : Base True s) : Mutual s := by
  have hcount {ys : List Nat} (hys : ys.Nodup) (y : Nat) : ys.count y = 1 ↔ y ∈ ys :=
    ⟨fun hc => List.count_pos_iff.mp (by omega), List.count_eq_one_of_mem hys⟩
  intro l c
  rw [hcount (h.nodup_children l), hcount (h.nodup_leads c)]
  by_cases hl : (s.node l).alive
  · exact (h.mirror l c hl).symm
  · refine iff_of_false (fun hm => ?_) fun hm => hl (h.lead_alive trivial l c hm)
    rw [(h.dead l (Bool.eq_false_iff.mpr hl)).2] at hm
    cases hm

private theorem mem_leads_foldl (ls : List Nat) (s : Windows) (win l : Nat) :
    l ∈ ((ls.foldl (fun u lead => u.removeChild lead win) s).node win).leads ↔
      l ∈ (s.node win).leads ∧ l ∉ ls := by
  induction ls generalizing s with
  | nil => simp
  | cons lead ls ih =>
    rw [List.foldl_cons, ih, mem_leads_removeChild]
    simp [and_assoc]

/-- The leads are dropped completely exactly if there are at most two. -/
theorem Mirrored.detach_iff (h : Mirrored tidy s) (win : Nat) :
    (∀ l ∈ (s.node win).leads, l ∉ ((s.detach win).node win).leads) ↔ (s.node win).leads.length ≤ 2 := by
  rw [← Lib.visits_complete_iff (h.nodup_leads win)]
  refine forall₂_congr fun l hl => ?_
  rw [detach, mem_leads_foldl]
  simp [hl]

/-- In every run whose loops are tractable, the two directions mirror each other, and in every
state reached the loops are complete exactly for windows that keep them so. What `check_group`
adds after the leads were dropped is a new relation. -/
theorem mutual_and_complete {s : Windows}
    (h : Lib.Reachable step Tractable Windows.initial s) :
    Mutual s ∧
      (∀ win, (∀ l ∈ (s.node win).leads, l ∉ ((s.detach win).node win).leads) ↔
        (s.node win).leads.length ≤ 2) ∧
      ∀ w, (s.node w).alive → (Forgotten (s.destroy w) w ↔ (s.node w).children.length ≤ 2) := by
  have hb : Base True s := h.invariant (Base True) (Base.initial True) fun s e s' hs hok hstep =>
    hs.step (fun _ w he => by rcases he with rfl | rfl <;> exact hok) hstep
  exact ⟨hb.mutual, hb.toMirrored.detach_iff, fun w hw => hb.toMirrored.forgotten_iff hw⟩

/-- A dialog of two windows that is told to be transient for neither, then one of them goes. -/
theorem twoLeads_mutual_and_complete : ∃ s, (s.node 3).leads = [1, 2] ∧ Mutual s ∧
    (∀ l ∈ (s.node 3).leads, l ∉ ((s.detach 3).node 3).leads) ∧ Forgotten (s.destroy 1) 1 := by
  have h : Lib.Reachable step Tractable Windows.initial _ :=
    .step (.addChild 2 3) (.step (.addChild 1 3) (.step (.manage 3 true) (.step (.manage 2 true)
      (.step (.manage 1 true) .init trivial rfl) trivial rfl) trivial rfl) trivial rfl) trivial rfl
  obtain ⟨hm, hd, hf⟩ := mutual_and_complete h
  exact ⟨_, rfl, hm, (hd 3).mpr (by decide), (hf 1 rfl).mpr (by decide)⟩

/-- A group transient of three windows. -/
def groupRun : List Event :=
  [.manage 1 true, .manage 2 true, .manage 3 true, .manage 4 true, .checkGroup 1 ⟨7, []⟩,
    .checkGroup 2 ⟨7, []⟩, .checkGroup 3 ⟨7, []⟩, .readTransientProperty 4 ⟨some .root, false, []⟩ ⟨7, []⟩]

/-- A window with three children is destroyed. -/
def orphanRun : List Event :=
  [.manage 1 false, .manage 2 false, .manage 3 false, .manage 4 false, .addChild 1 2, .addChild 1 3,
    .addChild 1 4, .destroy 1]

theorem second_of_three_remains :
    (∃ s s', Lib.Reachable step Lib.anyStep Windows.initial s ∧ (s.node 4).leads = [1, 2, 3] ∧
      step s (.readTransientProperty 4 ⟨none, false, []⟩ ⟨7, []⟩) = some s' ∧
      (s'.node 4).leadId = .none ∧ (s'.node 4).leads = [2]) ∧
    ∃ s, Lib.Reachable step Lib.anyStep Windows.initial s ∧ ¬ Mutual s ∧ ¬ Forgotten s 1 := by
  refine ⟨⟨_, _, Lib.Reachable.init.execute groupRun rfl, rfl, rfl, rfl, rfl⟩,
    _, Lib.Reachable.init.execute orphanRun rfl, fun h => ?_, fun h => ?_⟩
  · exact absurd ((h 1 3).mpr (by decide)) (by decide)
  · exact absurd (h 3 (by decide)).1 (by decide)

end Windows
end KWinFT.Transient
