import KWinFT.Focus.Settled

/-! The requests to the manager, one by one. They keep the chains in line where no window of the
chains is affected by the desktops that come or go. -/
namespace KWinFT.Focus
open VirtualDesktops

/-- No window of the chains stays behind on a desktop that moves up when `a` is removed; and on X11
none is on `a` itself, which frees the object under it unless that was the last desktop. -/
def FreeAbove (env : Setup) (s : Workspace) (a : Address) : Prop :=
  (∀ w ∈ s.entered, env.wantsTabFocus w → a ∈ s.desktops w ∨ s.isOnAllDesktops env w ∨
    ∀ d, (s.manager.heap a).x11DesktopNumber < d → d ≤ s.manager.count → ¬ s.isOnDesktop env w d) ∧
  (env.operationMode = .x11 → ∀ w ∈ s.allClients, env.wantsTabFocus w → a ∈ s.desktops w →
    (s.manager.heap a).x11DesktopNumber = s.manager.count)

variable {env : Setup} {s s' : Workspace} {m m' : VirtualDesktopManager} {reactions : Reactions}

/-- Lists that agree on the first positions agree on the first numbers. -/
private theorem desktopForX11Id_of_prefix {n : Nat} (h : ∀ i, i < n → m'.desktops[i]? = m.desktops[i]?)
    {d : Nat} (hd : d ≤ n) : m'.desktopForX11Id d = m.desktopForX11Id d := by
  ext a
  rw [VirtualDesktopManager.desktopForX11Id_eq_some_iff, VirtualDesktopManager.desktopForX11Id_eq_some_iff]
  refine and_congr_right fun hpos => ?_
  rw [h (d - 1) (by omega)]

theorem Settled.createVirtualDesktop (h : Settled env s) {position : Nat} {name id : String}
    (hok : s.manager.count = maximum ∨ FreeFrom env s (min position s.manager.count))
    (hs : (s.manager.createVirtualDesktop position name id).2.foldlM (deliver env reactions)
      { s with manager := (s.manager.createVirtualDesktop position name id).1 } = some s') :
    Settled env s' := by
  have hn := h.numbered.createVirtualDesktop position name id
  unfold VirtualDesktopManager.createVirtualDesktop at hs hn
  split at hs
  · cases hs
    exact h
  rename_i hmax
  rw [if_neg hmax] at hn
  have hfree := hok.resolve_left hmax
  have hle : min position s.manager.count ≤ s.manager.desktops.length := Nat.min_le_right _ _
  dsimp only at hs hn
  generalize min position s.manager.count = p at hs hn hfree hle
  generalize hm : VirtualDesktopManager.updateRootInfo _ = r at hs hn
  have hds : r.1.desktops = s.manager.desktops.insertIdx p s.manager.next := by
    rw [← hm]
    simp [VirtualDesktopManager.updateRootInfo]
  have hcount : r.1.count = s.manager.count + 1 := by
    rw [VirtualDesktopManager.count, hds, List.length_insertIdx_of_le_length hle]
    rfl
  have hnext : s.manager.next ≤ r.1.next := by
    rw [← hm]
    simp [VirtualDesktopManager.updateRootInfo, VirtualDesktopManager.allocate]
  have hsilent : ∀ sig ∈ r.2, Silent sig := by
    rw [← hm]
    exact fun sig hsig => silent_updateLayout hsig
  rw [silent_append hsilent] at hs
  obtain rfl : _ = s' := Option.some.inj hs
  rw [hcount, Nat.add_sub_cancel, ← hcount]
  refine h.grow hn hnext (hcount ▸ Nat.le_succ _) ?_ ?_ ?_ hle hfree
  · intro a ha
    rw [hds]
    exact (List.mem_insertIdx hle).mpr (.inr ha)
  · intro d hd
    refine desktopForX11Id_of_prefix (fun i hi => ?_) hd
    rw [hds, List.getElem?_insertIdx_of_lt hi]
  · intro d a hd hX
    obtain ⟨hpos, hX⟩ := VirtualDesktopManager.desktopForX11Id_eq_some_iff.mp hX
    rw [hds] at hX
    rcases Nat.lt_or_ge p (d - 1) with hlt | hge
    · rw [List.getElem?_insertIdx_of_gt hlt] at hX
      exact .inr ⟨hlt, VirtualDesktopManager.desktopForX11Id_eq_some_iff.mpr ⟨by omega, hX⟩⟩
    · obtain rfl : d - 1 = p := by omega
      rw [List.getElem?_insertIdx_self, if_pos hle] at hX
      exact .inl (Nat.le_of_eq (Option.some.inj hX))

private theorem setCount_grow {n k : Nat} (ids : Nat → String) (hk : max 1 (min n maximum) = k)
    (hlt : m.count < k) :
    (m.setCount n ids).1.desktops = m.desktops ++ List.range' m.next (k - m.count) ∧
      m.next ≤ (m.setCount n ids).1.next ∧
      ∃ silent, (∀ sig ∈ silent, Silent sig) ∧
        (m.setCount n ids).2 = silent ++ [.countChanged m.count (m.setCount n ids).1.count] := by
  unfold VirtualDesktopManager.setCount
  rw [hk]
  dsimp only
  rw [if_neg (by omega), if_neg (by omega)]
  refine ⟨(m.appendDesktops_spec ids _).1, ?_, _, ?_, rfl⟩
  · exact (m.appendDesktops_next ids _) ▸ Nat.le_add_right _ _
  · intro sig hsig
    rcases List.mem_append.mp hsig with hsig | hsig
    · exact silent_updateLayout hsig
    · obtain ⟨vd, -, rfl⟩ := List.mem_map.mp hsig
      exact fun _ _ _ => rfl

private theorem setCount_shrink {n k : Nat} (ids : Nat → String) (hk : max 1 (min n maximum) = k)
    (hlt : k < m.count) :
    (m.setCount n ids).1.desktops = m.desktops.take k ∧ (m.setCount n ids).1.heap = m.heap ∧
      (m.setCount n ids).1.next = m.next ∧
      ∃ changed after, (∀ sig ∈ changed, ∃ old new, sig = .currentChanged old new) ∧
        (∀ sig ∈ after, Silent sig) ∧
        (m.setCount n ids).2 = changed ++ ([] ++ ((m.desktops.drop k).map .desktopRemoved ++
          (after ++ [.countChanged m.count (m.setCount n ids).1.count]))) := by
  unfold VirtualDesktopManager.setCount
  rw [hk]
  dsimp only
  rw [if_neg (by omega), if_pos hlt]
  -- The cases for the current desktop differ in that desktop and in the announced change.
  have hafter : ∀ c : VirtualDesktopManager × List Signal, c.1.desktops = m.desktops.take k →
      c.1.heap = m.heap → c.1.next = m.next → (∀ sig ∈ c.2, ∃ old new, sig = .currentChanged old new) →
      c.1.updateRootInfo.1.desktops = m.desktops.take k ∧ c.1.updateRootInfo.1.heap = m.heap ∧
        c.1.updateRootInfo.1.next = m.next ∧
        ∃ changed after, (∀ sig ∈ changed, ∃ old new, sig = .currentChanged old new) ∧
          (∀ sig ∈ after, Silent sig) ∧
          c.2 ++ (m.desktops.drop k).map .desktopRemoved ++ c.1.updateRootInfo.2 ++
              [.countChanged m.count c.1.updateRootInfo.1.count] =
            changed ++ ([] ++ ((m.desktops.drop k).map .desktopRemoved ++
              (after ++ [.countChanged m.count c.1.updateRootInfo.1.count]))) := by
    intro c hd hh hx hc
    refine ⟨hd, hh, hx, c.2, c.1.updateRootInfo.2, hc, fun sig hsig => silent_updateLayout hsig, ?_⟩
    rw [List.nil_append, List.append_assoc, List.append_assoc]
  cases m.current with
  | none => exact hafter (_, []) rfl rfl rfl (by simp)
  | some old =>
    refine hafter (_, _) rfl rfl rfl fun sig hsig => ?_
    dsimp only at hsig
    split at hsig
    · exact ⟨_, _, List.mem_singleton.mp hsig⟩
    · cases hsig

private theorem Settled.setCount_more (h : Settled env s) {n k : Nat} {ids : Nat → String} (hk : max 1 (min n maximum) = k)
    (hlt : s.manager.count < k) (hfree : FreeFrom env s s.manager.count)
    (hs : (s.manager.setCount n ids).2.foldlM (deliver env reactions)
      { s with manager := (s.manager.setCount n ids).1 } = some s') : Settled env s' := by
  have hn := h.numbered.setCount n ids
  obtain ⟨hds, hnext, silent, hsilent, hsigs⟩ := setCount_grow (m := s.manager) ids hk hlt
  have hcount : s.manager.count ≤ (s.manager.setCount n ids).1.count := by
    rw [VirtualDesktopManager.count, VirtualDesktopManager.count, hds, List.length_append]
    exact Nat.le_add_right _ _
  rw [hsigs, silent_append hsilent] at hs
  obtain rfl : _ = s' := Option.some.inj hs
  refine h.grow hn hnext hcount ?_ ?_ ?_ (Nat.le_refl _) hfree
  · intro a ha
    rw [hds]
    exact List.mem_append_left _ ha
  · intro d hd
    refine desktopForX11Id_of_prefix (fun i hi => ?_) hd
    rw [hds, List.getElem?_append_left hi]
  · intro d a hd hX
    obtain ⟨hpos, hX⟩ := VirtualDesktopManager.desktopForX11Id_eq_some_iff.mp hX
    rw [hds, List.getElem?_append_right (show s.manager.desktops.length ≤ d - 1 from Nat.le_sub_one_of_lt hd)] at hX
    exact .inl (List.mem_range'_1.mp (List.mem_of_getElem? hX)).1

private theorem Settled.setCount_less (h : Settled env s) {n k : Nat} {ids : Nat → String} (hk : max 1 (min n maximum) = k)
    (hk1 : 1 ≤ k) (hgt : k < s.manager.count)
    (hs : (s.manager.setCount n ids).2.foldlM (deliver env reactions)
      { s with manager := (s.manager.setCount n ids).1 } = some s') : Settled env s' := by
  have hn := h.numbered.setCount n ids
  obtain ⟨hds, hheap, hnext, changed, after, hchanged, hafter, hsigs⟩ :=
    setCount_shrink (m := s.manager) ids hk hgt
  have hcount : (s.manager.setCount n ids).1.count = k := by
    rw [VirtualDesktopManager.count, hds]
    exact List.length_take_of_le (Nat.le_of_lt hgt)
  have hnumber : ∀ a ∈ s.manager.desktops.drop k, k < (s.manager.heap a).x11DesktopNumber := by
    intro a ha
    obtain ⟨j, hj⟩ := List.mem_iff_getElem?.mp ha
    rw [List.getElem?_drop] at hj
    rw [h.numbered.number _ a hj]
    omega
  rw [hsigs] at hs
  refine Settled.deliver_shrink ?_ ?_ (hcount ▸ hk1) hchanged (by simp) hafter hs
  · refine h.shrink k hn hnext (by omega) ?_ ?_ ?_ ?_ ?_
    · intro a ha
      rw [hds, ← List.mem_append, List.take_append_drop]
      exact ha
    · intro d hd _
      refine desktopForX11Id_of_prefix (fun i hi => ?_) hd
      rw [hds, List.getElem?_take_of_lt hi]
    · intro d hlt hle
      omega
    · intro _ w _ _ a _ ha
      rw [hcount, hheap]
      exact hnumber a ha
    · intro w _ _ _
      exact .inl (Nat.le_of_eq hcount)
  · intro a ha
    refine ⟨fun hin => ?_, ?_⟩
    · have hle := hn.number_le_count hin
      rw [hcount, hheap] at hle
      exact Nat.not_lt_of_le hle (hnumber a ha)
    · rw [hheap]
      exact Nat.one_le_of_lt (hnumber a ha)

theorem Settled.setCount (h : Settled env s) {n : Nat} {ids : Nat → String}
    (hok : max 1 (min n maximum) ≤ s.manager.count ∨ FreeFrom env s s.manager.count)
    (hs : (s.manager.setCount n ids).2.foldlM (deliver env reactions)
      { s with manager := (s.manager.setCount n ids).1 } = some s') : Settled env s' := by
  generalize hk : max 1 (min n maximum) = k at hok
  have hk1 : 1 ≤ k := by omega
  rcases Nat.lt_trichotomy s.manager.count k with hlt | heq | hgt
  · exact h.setCount_more hk hlt (hok.resolve_left (by omega)) hs
  · rw [VirtualDesktopManager.setCount, hk, if_pos heq.symm] at hs
    cases hs
    exact h
  · exact h.setCount_less hk hk1 hgt hs

private theorem removeVirtualDesktop_cases (h : Numbered m) {id : String} {sigs : List Signal}
    (hr : m.removeVirtualDesktop id = some (m', sigs)) :
    (m' = m ∧ sigs = []) ∨ ∃ a i, m.count ≠ 1 ∧ m.desktopForId id = some a ∧ m.desktops[i]? = some a ∧
      m'.desktops = m.desktops.eraseIdx i ∧ m'.next = m.next ∧ m'.heap a = m.heap a ∧
      ∃ changed before, (∀ sig ∈ changed, ∃ old new, sig = .currentChanged old new) ∧
        (∀ sig ∈ before, Silent sig) ∧
        sigs = changed ++ (before ++ ([a].map .desktopRemoved ++ ([] ++ [.countChanged m.count m'.count]))) := by
  unfold VirtualDesktopManager.removeVirtualDesktop at hr
  split at hr
  · cases hr
    exact .inl ⟨rfl, rfl⟩
  rename_i h1
  split at hr
  · cases hr
    exact .inl ⟨rfl, rfl⟩
  rename_i a ha
  have hget := h.getElem?_number (List.mem_of_find?_eq_some ha)
  generalize (m.heap a).x11DesktopNumber - 1 = i at hr hget
  split at hr
  · cases hr
  rename_i old hold
  dsimp only at hr
  split at hr
  · cases hr
  rename_i new hnew
  generalize hc : (if (m.heap old).x11DesktopNumber ≠ min (m.heap old).x11DesktopNumber (m.removeAt i).count then
    [Signal.currentChanged _ _] else []) = changed at hr
  generalize hm : ({ m.removeAt i with current := some new } : VirtualDesktopManager) = m₁ at hr
  cases hr
  have hds : m₁.desktops = m.desktops.eraseIdx i := by
    rw [← hm]
    exact VirtualDesktopManager.removeAt_desktops m i
  have hlen : m₁.count + 1 = m.count := by
    have hi := (List.getElem?_eq_some_iff.mp hget).1
    rw [VirtualDesktopManager.count, hds, List.length_eraseIdx_of_lt hi]
    exact Nat.sub_add_cancel (Nat.lt_of_le_of_lt (Nat.zero_le i) hi)
  refine .inr ⟨a, i, h1, ha, hget, hds, ?_, ?_, changed, m₁.updateRootInfo.2, ?_,
    fun sig hsig => silent_updateLayout hsig, ?_⟩
  · subst hm
    exact VirtualDesktopManager.renumber_next _ _ _
  · -- Only the displaced desktops get new numbers, and the removed one is not among them.
    subst hm
    refine VirtualDesktopManager.renumber_heap_of_notMem _ _ _ _ fun hmem => ?_
    obtain ⟨j, hj⟩ := List.mem_iff_getElem?.mp hmem
    rw [List.getElem?_drop, List.getElem?_eraseIdx_of_ge (by omega)] at hj
    have := (List.getElem?_inj (List.getElem?_eq_some_iff.mp hget).1 h.nodup).mp (hget.trans hj.symm)
    omega
  · intro sig hsig
    subst hc
    split at hsig
    · exact ⟨_, _, List.mem_singleton.mp hsig⟩
    · cases hsig
  · rw [List.append_assoc, ← hlen]
    rfl

theorem Settled.removeVirtualDesktop (h : Settled env s) {id : String} {sigs : List Signal}
    (hok : s.manager.count = 1 ∨ ∀ a, s.manager.desktopForId id = some a → FreeAbove env s a)
    (hr : s.manager.removeVirtualDesktop id = some (m', sigs))
    (hs : sigs.foldlM (deliver env reactions) { s with manager := m' } = some s') : Settled env s' := by
  have hn := h.numbered.removeVirtualDesktop id hr
  rcases removeVirtualDesktop_cases h.numbered hr with
    ⟨rfl, rfl⟩ | ⟨a, i, h1, ha, hget, hds, hnext, hheap, changed, before, hchanged, hbefore, rfl⟩
  · cases hs
    exact h
  obtain ⟨hfree, hlast⟩ := hok.resolve_left h1 a ha
  have hnum : (s.manager.heap a).x11DesktopNumber = i + 1 := h.numbered.number i a hget
  have hi := (List.getElem?_eq_some_iff.mp hget).1
  have hcount : m'.count + 1 = s.manager.count := by
    rw [VirtualDesktopManager.count, hds, List.length_eraseIdx_of_lt hi]
    exact Nat.sub_add_cancel (Nat.lt_of_le_of_lt (Nat.zero_le i) hi)
  refine Settled.deliver_shrink ?_ ?_ (by omega) hchanged hbefore (by simp) hs
  · refine h.shrink i hn hnext (by omega) ?_ ?_ ?_ ?_ ?_
    · intro b hb
      rw [hds, List.mem_singleton]
      by_cases hba : b = a
      · exact .inr hba
      · obtain ⟨j, hj⟩ := List.mem_iff_getElem?.mp hb
        refine .inl (List.mem_eraseIdx_iff_getElem?.mpr ⟨j, ?_, hj⟩)
        rintro rfl
        exact hba (Option.some.inj (hj.symm.trans hget))
    · intro d hd _
      refine desktopForX11Id_of_prefix (fun j hj => ?_) hd
      rw [hds, List.getElem?_eraseIdx_of_lt hj]
    · intro d hlt _
      ext b
      rw [VirtualDesktopManager.desktopForX11Id_eq_some_iff, VirtualDesktopManager.desktopForX11Id_eq_some_iff,
        hds, List.getElem?_eraseIdx_of_ge (by omega), Nat.sub_add_cancel (by omega), Nat.add_sub_cancel]
      exact and_congr_left fun _ => iff_of_true (by omega) (Nat.succ_pos d)
    · intro hx w hw ht b hb hba
      obtain rfl := List.mem_singleton.mp hba
      have := hlast hx w hw ht hb
      rw [hheap]
      omega
    · intro w hw ht hout
      have hout : a ∉ s.desktops w := hout a List.mem_cons_self
      rcases hfree w hw ht with hin | hall | hfree
      · exact absurd hin hout
      · exact .inr (.inl (isOnAllDesktops_iff.mp hall))
      · by_cases hall : s.desktops w = []
        · exact .inr (.inl hall)
        · refine .inr (.inr fun d hlt hle hon => ?_)
          rcases Nat.lt_or_ge (i + 1) d with hgt | hge
          · exact hfree d (hnum ▸ hgt) hle hon
          · obtain rfl : d = i + 1 := by omega
            rcases (isOnDesktop_iff h.numbered (h.placed (h.clients w hw) ht)).mp hon with he | ⟨b, hb, hX⟩
            · exact hall he
            · have hX := (VirtualDesktopManager.desktopForX11Id_eq_some_iff.mp hX).2
              rw [Nat.add_sub_cancel, hget] at hX
              cases hX
              exact hout hb
  · intro b hb
    obtain rfl := List.mem_singleton.mp hb
    refine ⟨?_, by rw [hheap]; omega⟩
    rw [hds]
    intro hin
    obtain ⟨j, hj, hjb⟩ := List.mem_eraseIdx_iff_getElem?.mp hin
    exact hj ((List.getElem?_inj hi h.numbered.nodup).mp (hget.trans hjb.symm)).symm

/-- Requests that leave the desktops as they are. -/
theorem Settled.quiet (h : Settled env s) {sigs : List Signal} (hn : Numbered m')
    (hd : m'.desktops = s.manager.desktops) (hnext : m'.next = s.manager.next)
    (hsigs : ∀ sig ∈ sigs, Silent sig ∨ ∃ old new, sig = .currentChanged old new)
    (hs : sigs.foldlM (deliver env reactions) { s with manager := m' } = some s') : Settled env s' := by
  have hcount : m'.count = s.manager.count := congrArg List.length hd
  have hX : ∀ d, m'.desktopForX11Id d = s.manager.desktopForX11Id d := by
    intro d
    rw [VirtualDesktopManager.desktopForX11Id, VirtualDesktopManager.desktopForX11Id, hcount, hd]
  have hplaced : ∀ w ∈ s.allClients, env.wantsTabFocus w → Placed env { s with manager := m' } w := by
    intro w hw ht hx
    obtain ⟨hlen, hmem⟩ := h.placed hw ht hx
    exact ⟨hlen, fun a ha => hd ▸ hmem a ha⟩
  have ht : Tracking env m' (fun _ => []) m'.count { s with manager := m' } := by
    refine ⟨rfl, hn, hcount ▸ h.keyed, Nat.le_refl _, h.clients, fun w a ha => hnext ▸ h.allocated w a ha,
      fun w hw ht => .inr (hplaced w hw ht), fun w hw ht => .inr fun d h1 hle => ?_⟩
    have hle : d ≤ m'.count := hle
    refine (h.follows w hw ht d h1 (by omega)).trans ?_
    rw [isOnDesktop_iff h.numbered (h.placed (h.clients w hw) ht),
      isOnDesktop_iff hn (hplaced w (h.clients w hw) ht), hX]
  have ht' : Tracking env m' (fun _ => []) m'.count s' := by
    refine Lib.foldlM_preserves sigs ?_ ht hs
    intro t sig t' hsig ht hdel
    rcases hsigs sig hsig with hsilent | ⟨old, new, rfl⟩
    · rw [hsilent] at hdel
      cases hdel
      exact ht
    · exact ht.currentChanged hdel
  rw [Settled, ht'.manager]
  exact ht'

end KWinFT.Focus
