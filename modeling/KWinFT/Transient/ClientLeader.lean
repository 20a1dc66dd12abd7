import KWinFT.Transient.Steps

/-! The search for a group by the client leader. It is meant to merge groups, but its test for a
second one is the wrong way round, so that it leaves every window where it is. -/
namespace KWinFT.Transient

/-- What windows say of themselves: their client leader, and their group leader if they name one. -/
structure Hints where
  clientLeader : Nat → Nat
  groupLeader : Nat → Option Nat

namespace Windows
variable (h : Hints) (s : Windows) (win : Nat)

/-- A member of the group found is told to be in it, unless it is `win` or names a group leader. -/
def offerGroup (g : Nat) (s : Windows) (member : Nat) : Option Windows :=
  if member = win ∨ (h.groupLeader member).isSome then some s else s.changeClientLeaderGroup member g

/-- One round of the loop over all clients, with the group found so far. A window of a second
group replaces that group, and only one of the same group makes the members change. -/
def scanClient (found : Option Nat × Windows) (other : Nat) : Option (Option Nat × Windows) :=
  if other = win ∨ h.clientLeader other ≠ h.clientLeader win then some found
  else
    match found with
    | (none, s) => some ((s.node other).group, s)
    | (some g, s) =>
      if (s.node other).group ≠ some g then some ((s.node other).group, s)
      else ((s.members g).foldlM (offerGroup h win g) s).map (some g, ·)

/-- `find_client_leader_group`, with the clients that are managed. -/
def findClientLeaderGroup (clients : List Nat) : Option (Option Nat × Windows) :=
  clients.foldlM (scanClient h win) (none, s)

/-- `check_group` for a window without a lead that names no group leader. The group is `new` if
none is found. -/
def checkLeaderGroup (clients : List Nat) (new : Nat) : Option Windows :=
  (s.findClientLeaderGroup h win clients).bind fun found => found.2.enterGroup win (some (found.1.getD new))

/-- The other windows with the client leader of `win`. -/
def companions (clients : List Nat) : List Nat :=
  clients.filter fun other => other ≠ win ∧ h.clientLeader other = h.clientLeader win

/-- An X11 client that is to be in the group found: it shares the client leader, names no group
leader and is not transient for a particular window. -/
def Mergeable (clients : List Nat) (w : Nat) : Prop :=
  w ∈ companions h win clients ∧ s.isClient w ∧ h.groupLeader w = none ∧
    ((s.node w).leadId = .none ∨ (s.node w).leadId = .root)

/-- After the search: those windows are in the group found, and no others have changed theirs. -/
def Merged (clients : List Nat) (g : Nat) (s' : Windows) : Prop :=
  (∀ w, s.Mergeable h win clients w → (s'.node w).group = some g) ∧
    ∀ w, ¬ s.Mergeable h win clients w → (s'.node w).group = (s.node w).group

/-- They are in one group from the start, that of the last window with this client leader. -/
def SingleGroup (clients : List Nat) : Prop :=
  ∀ w, s.Mergeable h win clients w →
    ∀ last ∈ (companions h win clients).getLast?, (s.node w).group = (s.node last).group

variable {h s win} {s' : Windows} {g : Nat} {clients : List Nat}

theorem joinMember_frame {groupTr normalTr : Bool} {m : Nat} (hj : joinMember win groupTr normalTr s m = some s') :
    SameFrame s s' := by
  unfold joinMember at hj
  split at hj
  · cases hj; exact .refl s
  · obtain ⟨asChild, -, hj⟩ := Option.bind_eq_some_iff.mp hj
    split at hj
    · cases hj; exact addChild_frame s m win
    · obtain ⟨asLead, -, rfl⟩ := Option.map_eq_some_iff.mp hj
      split
      · exact addChild_frame s win m
      · exact .refl s

/-- To be put into the group one is in changes relations only. -/
theorem enterGroup_same {m : Nat} (hm : m ∈ s.members g) (hg : (s.node m).group = some g)
    (he : s.enterGroup m (some g) = some s') : SameFrame s s' := by
  have hset : SameFrame s (s.setGroup m (some g)) := by
    have hself (x : Nat) : ((s.setGroup m (some g)).node x) = s.node x := by
      unfold setGroup
      by_cases hx : x = m
      · subst hx
        rw [modify_node_same, ← hg]
      · rw [modify_node_of_ne _ hx]
    refine ⟨fun x => ?_, fun x => ?_, fun x => ?_, fun x => ?_, rfl, rfl⟩ <;> rw [hself x]
  unfold enterGroup leaveGroup at he
  rw [hg] at he
  simp only [ne_eq, not_true_eq_false, if_false, Option.bind_some] at he
  have hm' : m ∈ (s.setGroup m (some g)).members g := hm
  unfold updateGroupAdd at he
  simp only [if_pos hm'] at he
  exact Lib.foldlM_preserves (P := SameFrame s) _ (fun u x u' _ hu hstep => hu.trans (joinMember_frame hstep)) hset he

theorem offerGroup_frame {m : Nat} (hm : m ∈ s.members g) (hg : (s.node m).group = some g)
    (ho : offerGroup h win g s m = some s') : SameFrame s s' := by
  unfold offerGroup at ho
  split at ho
  · cases ho; exact .refl s
  · unfold changeClientLeaderGroup at ho
    split at ho
    · cases ho
    · split at ho
      · cases ho; exact .refl s
      · exact enterGroup_same hm hg ho

theorem WellFormed.offerGroups_frame (hs : WellFormed s) (ho : (s.members g).foldlM (offerGroup h win g) s = some s') :
    SameFrame s s' := by
  refine Lib.foldlM_preserves (P := SameFrame s) _ (fun u m u' hm hu hstep => ?_) (.refl s) ho
  refine hu.trans (offerGroup_frame (hu.members ▸ hm) ?_ hstep)
  rw [hu.group]
  exact (hs.member g m hm).2

/-- In each round the group of the window replaces the one found so far. -/
theorem WellFormed.scanClient_spec (hs : WellFormed s) {found found' : Option Nat} {other : Nat}
    (ho : ¬ (other = win ∨ h.clientLeader other ≠ h.clientLeader win))
    (hscan : scanClient h win (found, s) other = some (found', s')) :
    SameFrame s s' ∧ found' = (s.node other).group := by
  unfold scanClient at hscan
  rw [if_neg ho] at hscan
  cases found with
  | none => cases hscan; exact ⟨.refl _, rfl⟩
  | some g =>
    simp only at hscan
    split at hscan
    · cases hscan; exact ⟨.refl _, rfl⟩
    · next hsame =>
      obtain ⟨u, hu, heq⟩ := Option.map_eq_some_iff.mp hscan
      cases heq
      exact ⟨hs.offerGroups_frame hu, (not_not.mp hsame).symm⟩

/-- The group found is that of the last window with this client leader, and no window moves. -/
theorem WellFormed.scan_spec (hs : WellFormed s) {found found' : Option Nat}
    (hscan : clients.foldlM (scanClient h win) (found, s) = some (found', s')) :
    SameFrame s s' ∧
      found' = ((companions h win clients).getLast?.map fun last => (s.node last).group).getD found := by
  induction clients generalizing found s with
  | nil => cases hscan; exact ⟨.refl _, rfl⟩
  | cons other clients ih =>
    rw [List.foldlM_cons] at hscan
    obtain ⟨⟨found₁, s₁⟩, hround, hrest⟩ := Option.bind_eq_some_iff.mp hscan
    unfold companions
    by_cases ho : other = win ∨ h.clientLeader other ≠ h.clientLeader win
    · unfold scanClient at hround
      rw [if_pos ho] at hround
      cases hround
      rw [List.filter_cons_of_neg (by simpa [or_iff_not_imp_left] using ho)]
      exact ih hs hrest
    · obtain ⟨hframe, rfl⟩ := hs.scanClient_spec ho hround
      obtain ⟨hframe', rfl⟩ := ih (hs.of_frame hframe) hrest
      refine ⟨hframe.trans hframe', ?_⟩
      rw [List.filter_cons_of_pos (by simpa [not_or] using ho), List.getLast?_cons]
      unfold companions
      cases hlast : (clients.filter fun other => other ≠ win ∧ h.clientLeader other = h.clientLeader win).getLast? with
      | none => rfl
      | some last => simp [hframe.group]

private abbrev change (s : Windows) (c : Nat × Nat) : Option Windows := s.changeClientLeaderGroup c.1 c.2

private theorem offerGroups_choice {ms : List Nat} (ho : ms.foldlM (offerGroup h win g) s = some s') :
    ∃ merged : List (Nat × Nat), merged.foldlM change s = some s' := by
  induction ms generalizing s with
  | nil => exact ⟨[], ho⟩
  | cons m ms ih =>
    rw [List.foldlM_cons] at ho
    obtain ⟨u, hu, hrest⟩ := Option.bind_eq_some_iff.mp ho
    obtain ⟨merged, hmerged⟩ := ih hrest
    unfold offerGroup at hu
    split at hu
    · cases hu; exact ⟨merged, hmerged⟩
    · refine ⟨(m, g) :: merged, ?_⟩
      rw [List.foldlM_cons]
      exact Option.bind_eq_some_iff.mpr ⟨u, hu, hmerged⟩

/-- What the search makes the members do is one of the choices of a run. -/
private theorem scan_choice {found found' : Option Nat}
    (hscan : clients.foldlM (scanClient h win) (found, s) = some (found', s')) :
    ∃ merged : List (Nat × Nat), merged.foldlM change s = some s' := by
  induction clients generalizing found s with
  | nil => cases hscan; exact ⟨[], rfl⟩
  | cons other clients ih =>
    rw [List.foldlM_cons] at hscan
    obtain ⟨⟨found₁, s₁⟩, hround, hrest⟩ := Option.bind_eq_some_iff.mp hscan
    obtain ⟨merged, hmerged⟩ := ih hrest
    suffices h₁ : ∃ first : List (Nat × Nat), first.foldlM change s = some s₁ by
      obtain ⟨first, hfirst⟩ := h₁
      refine ⟨first ++ merged, ?_⟩
      rw [List.foldlM_append, hfirst]
      exact hmerged
    unfold scanClient at hround
    split at hround
    · cases hround; exact ⟨[], rfl⟩
    · split at hround
      · next heq => cases heq; cases hround; exact ⟨[], rfl⟩
      · next heq =>
        cases heq
        split at hround
        · cases hround; exact ⟨[], rfl⟩
        · obtain ⟨u, hu, heq⟩ := Option.map_eq_some_iff.mp hround
          cases heq
          exact offerGroups_choice hu

/-- So `check_group` with the search is a step of the runs above. -/
theorem checkLeaderGroup_step (hwin : s.isClient win) (hlead : (s.node win).leads = [])
    {new : Nat} (hcheck : s.checkLeaderGroup h win clients new = some s') :
    ∃ choice, step s (.checkGroup win choice) = some s' := by
  obtain ⟨⟨found, u⟩, hfind, henter⟩ := Option.bind_eq_some_iff.mp hcheck
  obtain ⟨merged, hmerged⟩ := scan_choice hfind
  refine ⟨⟨found.getD new, merged⟩, ?_⟩
  rw [step, if_pos hwin, checkGroup, hlead]
  simp only [List.head?_nil, hmerged]
  exact henter

/-- The windows with the client leader are in the group that is found, and all others stay where
they are, exactly if they all are in it already. -/
theorem merged_iff (hs : WellFormed s) (hfind : s.findClientLeaderGroup h win clients = some (some g, s')) :
    s.Merged h win clients g s' ↔ s.SingleGroup h win clients := by
  obtain ⟨hframe, hfound⟩ := hs.scan_spec hfind
  unfold Merged SingleGroup
  simp only [hframe.group, implies_true, and_true]
  refine forall₂_congr fun w hw => ?_
  cases hlast : (companions h win clients).getLast? with
  | none => rw [hlast] at hfound; cases hfound
  | some last =>
    rw [hlast] at hfound
    have hg : (s.node last).group = some g := hfound.symm
    simp [hg]

/-- Two clients that both name no group leader have been put into one group. -/
theorem oneGroup_merged : ∃ s s', Lib.Reachable step Lib.anyStep initial s ∧
    s.findClientLeaderGroup ⟨fun _ => 9, fun _ => none⟩ 3 [1, 2] = some (some 7, s') ∧
    s.Merged ⟨fun _ => 9, fun _ => none⟩ 3 [1, 2] 7 s' := by
  obtain ⟨s, s', h, hfind, h₁, h₂⟩ : ∃ s s', Lib.Reachable step Lib.anyStep initial s ∧
      s.findClientLeaderGroup ⟨fun _ => 9, fun _ => none⟩ 3 [1, 2] = some (some 7, s') ∧
      (s.node 1).group = some 7 ∧ (s.node 2).group = some 7 :=
    ⟨_, _, Lib.Reachable.init.execute [.manage 1 true, .manage 2 true, .checkGroup 1 ⟨7, []⟩,
      .checkGroup 2 ⟨7, []⟩] rfl, rfl, rfl, rfl⟩
  refine ⟨s, s', h, hfind, (merged_iff (reachable_base h).toWellFormed hfind).mpr fun w hw last hlast => ?_⟩
  have hcompanions : companions ⟨fun _ => 9, fun _ => none⟩ 3 [1, 2] = [1, 2] := rfl
  rw [hcompanions] at hlast
  obtain rfl : 2 = last := Option.some.inj hlast
  have hw := hw.1
  rw [hcompanions] at hw
  rcases List.mem_pair.mp hw with rfl | rfl
  · exact h₁.trans h₂.symm
  · rfl

/-- The second of them names a group leader. -/
def splitHints : Hints := ⟨fun _ => 9, fun w => if w = 2 then some 8 else none⟩

theorem secondGroup_not_merged : ∃ s s', Lib.Reachable step Lib.anyStep initial s ∧
    s.findClientLeaderGroup splitHints 3 [1, 2] = some (some 8, s') ∧ ¬ s.Merged splitHints 3 [1, 2] 8 s' := by
  refine ⟨_, _, Lib.Reachable.init.execute [.manage 1 true, .manage 2 true, .checkGroup 1 ⟨7, []⟩,
    .checkGroup 2 ⟨8, []⟩] rfl, rfl, fun hmerged => ?_⟩
  exact absurd (hmerged.1 1 ⟨by decide, rfl, rfl, .inl rfl⟩) (by decide)

end Windows
end KWinFT.Transient
