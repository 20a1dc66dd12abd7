import KWinFT.DesktopAreas.Workspace
import KWinFT.VirtualDesktops.Numbering

/-! What a request to the manager does to the desktops, and the signals that windows and areas follow it by. -/
namespace KWinFT.DesktopAreas
open VirtualDesktops

/-- Neither windows nor areas follow these. -/
def Silent : Signal → Prop
  | .desktopRemoved _ | .countChanged _ _ => False
  | _ => True

/-- Desktops were removed from `m`, which is announced before the change of the count. -/
structure Removes (m m' : VirtualDesktopManager) (pre : List Signal) : Prop where
  signals : ∀ sig ∈ pre, Silent sig ∨ ∃ d, sig = .desktopRemoved d ∧ d ∉ m'.desktops
  announced : ∀ d ∈ m.desktops, d ∉ m'.desktops → .desktopRemoved d ∈ pre
  count_pos : 1 ≤ m'.count
  count_le : m'.count ≤ m.count
  number : ∀ d ∈ m.desktops, 1 ≤ (m'.heap d).x11DesktopNumber ∧ (m'.heap d).x11DesktopNumber ≤ m.count
  side : ∀ d ∈ m.desktops, d ∉ m'.desktops → ∀ e ∈ m.desktops, e ∉ m'.desktops →
    (m'.heap d).x11DesktopNumber ≤ m'.count → (m'.heap e).x11DesktopNumber ≤ m'.count

/-- Desktops stay, desktops are added, or desktops are removed. -/
inductive Outcome (m m' : VirtualDesktopManager) : List Signal → Prop
  | same {sigs : List Signal} (desktops : m'.desktops = m.desktops) (silent : ∀ sig ∈ sigs, Silent sig) :
      Outcome m m' sigs
  | grown {pre : List Signal} (previous : Nat) (silent : ∀ sig ∈ pre, Silent sig)
      (desktops : ∀ d ∈ m.desktops, d ∈ m'.desktops) : Outcome m m' (pre ++ [.countChanged previous m'.count])
  | shrunk {pre : List Signal} (previous : Nat) (removes : Removes m m' pre) :
      Outcome m m' (pre ++ [.countChanged previous m'.count])

section outcomes
variable {m m' : VirtualDesktopManager} {sigs : List Signal}

theorem silent_updateLayout (m : VirtualDesktopManager) : ∀ sig ∈ m.updateLayout.2, Silent sig := by
  simp [VirtualDesktopManager.updateLayout, VirtualDesktopManager.setNETDesktopLayout, Silent]

private theorem silent_currentChanged (changed : Prop) [Decidable changed] (old new : Nat) :
    ∀ sig ∈ (if changed then [Signal.currentChanged old new] else []), Silent sig := by
  split <;> simp [Silent]

/-- The desktops behind the new last one are removed. -/
private theorem removes_behind (hn : Numbered m) {n : Nat} (hpos : 1 ≤ n) (hlt : n < m.count) (cur : VirtualDesktopManager)
    (changed : List Signal) (hheap : cur.heap = m.heap) (hdesktops : cur.desktops = m.desktops.take n)
    (hchanged : ∀ sig ∈ changed, Silent sig) :
    Removes m cur.updateRootInfo.1 (changed ++ (m.desktops.drop n).map .desktopRemoved ++ cur.updateRootInfo.2) := by
  have hcount : cur.updateRootInfo.1.count = n := by
    show cur.desktops.length = n
    rw [hdesktops, List.length_take]
    exact Nat.min_eq_left (Nat.le_of_lt hlt)
  have behind (d : Address) (hd : d ∈ m.desktops.drop n) : n < (m.heap d).x11DesktopNumber := by
    obtain ⟨i, hi⟩ := List.mem_iff_getElem?.mp hd
    rw [List.getElem?_drop] at hi
    rw [hn.number _ d hi]
    omega
  have before (d : Address) (hd : d ∈ m.desktops.take n) : (m.heap d).x11DesktopNumber ≤ n := by
    obtain ⟨i, hi⟩ := List.mem_iff_getElem?.mp hd
    rw [List.getElem?_take] at hi
    split at hi
    · rw [hn.number _ d hi]
      omega
    · cases hi
  have dropped (d : Address) (hd : d ∈ m.desktops) (hnot : d ∉ cur.desktops) : d ∈ m.desktops.drop n := by
    rw [← List.take_append_drop n m.desktops, List.mem_append] at hd
    exact hd.resolve_left (hdesktops ▸ hnot)
  refine ⟨fun sig hsig => ?_, fun d hd hnot => ?_, hcount ▸ hpos, ?_, fun d hd => ?_, fun d hd hnot _ _ _ hle => ?_⟩
  · rcases List.mem_append.mp hsig with hsig | hsig
    · rcases List.mem_append.mp hsig with hsig | hsig
      · exact .inl (hchanged sig hsig)
      · obtain ⟨d, hd, rfl⟩ := List.mem_map.mp hsig
        refine .inr ⟨d, rfl, fun hmem => ?_⟩
        have hle := before d (hdesktops ▸ hmem)
        exact absurd (behind d hd) (Nat.not_lt.mpr hle)
    · exact .inl (silent_updateLayout _ sig hsig)
  · refine List.mem_append_left _ (List.mem_append_right _ (List.mem_map_of_mem ?_))
    exact dropped d hd hnot
  · rw [hcount]
    exact Nat.le_of_lt hlt
  · show 1 ≤ (cur.heap d).x11DesktopNumber ∧ (cur.heap d).x11DesktopNumber ≤ m.count
    rw [hheap]
    exact ⟨hn.number_pos hd, hn.number_le_count hd⟩
  · have hgt := behind d (dropped d hd hnot)
    rw [hcount] at hle
    exact absurd hle (Nat.not_le.mpr ((congrArg (fun h => (h d).x11DesktopNumber) hheap).symm ▸ hgt))

theorem setCount_outcome (hn : Numbered m) (count : Nat) (ids : Nat → String) :
    Outcome m (m.setCount count ids).1 (m.setCount count ids).2 := by
  unfold VirtualDesktopManager.setCount
  have hpos : 1 ≤ max 1 (min count maximum) := le_max_left _ _
  generalize max 1 (min count maximum) = n at hpos ⊢
  dsimp only
  split
  · exact .same rfl nofun
  · split
    · next hlt =>
      cases m.current with
      | none => exact .shrunk _ (removes_behind hn hpos hlt { m with desktops := m.desktops.take n, current := none } [] rfl rfl nofun)
      | some old => exact .shrunk _ (removes_behind hn hpos hlt { m with desktops := m.desktops.take n, current := _ } _
          rfl rfl (silent_currentChanged _ _ _))
    · refine .grown _ (fun sig hsig => ?_) fun d hd => ?_
      · rcases List.mem_append.mp hsig with hsig | hsig
        · exact silent_updateLayout _ sig hsig
        · obtain ⟨d, -, rfl⟩ := List.mem_map.mp hsig
          trivial
      · show d ∈ (VirtualDesktopManager.appendDesktops ids (n - m.count) m).desktops
        rw [(m.appendDesktops_spec ids (n - m.count)).1]
        exact List.mem_append_left _ hd

theorem createVirtualDesktop_outcome (m : VirtualDesktopManager) (position : Nat) (name id : String) :
    Outcome m (m.createVirtualDesktop position name id).1 (m.createVirtualDesktop position name id).2 := by
  unfold VirtualDesktopManager.createVirtualDesktop
  split
  · exact .same rfl nofun
  · have hle : min position m.count ≤ m.desktops.length := Nat.min_le_right _ _
    generalize min position m.count = place at hle ⊢
    dsimp only
    rw [List.append_cons]
    refine .grown _ (fun sig hsig => ?_) fun d hd => ?_
    · rcases List.mem_append.mp hsig with hsig | hsig
      · exact silent_updateLayout _ sig hsig
      · rw [List.mem_singleton.mp hsig]
        trivial
    · simp only [VirtualDesktopManager.updateRootInfo, VirtualDesktopManager.updateLayout_desktops,
        VirtualDesktopManager.renumber_desktops]
      exact (List.perm_insertIdx m.next m.desktops hle).mem_iff.mpr (List.mem_cons_of_mem _ hd)

theorem setCurrentDesktop_outcome (m : VirtualDesktopManager) (d : Address) :
    Outcome m (m.setCurrentDesktop d).1 (m.setCurrentDesktop d).2 := by
  unfold VirtualDesktopManager.setCurrentDesktop
  split
  · exact .same rfl nofun
  · exact .same rfl (by simp [Silent])

theorem setCurrent_outcome (m : VirtualDesktopManager) (n : Nat) :
    Outcome m (m.setCurrent n).1 (m.setCurrent n).2 := by
  unfold VirtualDesktopManager.setCurrent
  split
  · exact .same rfl nofun
  · split
    · exact setCurrentDesktop_outcome m _
    · exact .same rfl nofun

theorem removeVirtualDesktop_outcome (hn : Numbered m) {id : String}
    (h : m.removeVirtualDesktop id = some (m', sigs)) : Outcome m m' sigs := by
  have hn' := hn.removeVirtualDesktop id h
  unfold VirtualDesktopManager.removeVirtualDesktop at h
  split at h
  · cases h
    exact .same rfl nofun
  · next hne =>
    split at h
    · cases h
      exact .same rfl nofun
    · next d hd =>
      have hmem : d ∈ m.desktops := List.mem_of_find?_eq_some hd
      split at h
      · cases h
      · next old _ =>
        dsimp only at h
        split at h
        · cases h
        · next new hnew =>
          cases h
          obtain ⟨i, hnum⟩ : ∃ i, (m.heap d).x11DesktopNumber = i + 1 :=
            ⟨_, hn.number _ d (hn.getElem?_number hmem)⟩
          have hi : m.desktops[i]? = some d := by
            have hi := hn.getElem?_number hmem
            rwa [hnum] at hi
          simp only [hnum, Nat.add_sub_cancel] at hn' hnew ⊢
          obtain ⟨hlt, hget⟩ := List.getElem?_eq_some_iff.mp hi
          have hperm : (d :: m.desktops.eraseIdx i).Perm m.desktops := hget ▸ List.getElem_cons_eraseIdx_perm hlt
          have hnotmem : d ∉ m.desktops.eraseIdx i := (List.nodup_cons.mp (hperm.nodup_iff.mpr hn.nodup)).1
          have hcount : (m.desktops.eraseIdx i).length + 1 = m.desktops.length := hperm.length_eq
          rw [List.append_cons]
          generalize hcur : VirtualDesktopManager.updateRootInfo _ = after at hn' ⊢
          have hdesktops : after.1.desktops = m.desktops.eraseIdx i := by
            rw [← hcur]
            simp [VirtualDesktopManager.updateRootInfo]
          have hafter : after.1.count + 1 = m.count :=
            (congrArg (fun l : List Address => l.length + 1) hdesktops).trans hcount
          have hheap : (after.1.heap d).x11DesktopNumber = i + 1 := by
            rw [← hcur, ← hnum]
            refine congrArg VirtualDesktop.x11DesktopNumber ?_
            exact VirtualDesktopManager.renumber_heap_of_notMem _ _ _ d fun hd' => hnotmem (List.mem_of_mem_drop hd')
          have only (e : Address) (he : e ∈ m.desktops) (hnot : e ∉ after.1.desktops) : e = d := by
            rw [hdesktops] at hnot
            exact (List.mem_cons.mp (hperm.mem_iff.mpr he)).resolve_right hnot
          refine .shrunk _ ⟨fun sig hsig => ?_, fun e he hnot => ?_, ?_, ?_, fun e he => ?_, fun e he hnot f hf hnot' hle => ?_⟩
          · rcases List.mem_append.mp hsig with hsig | hsig
            · rcases List.mem_append.mp hsig with hsig | hsig
              · exact .inl (silent_currentChanged _ _ _ sig hsig)
              · exact .inl (silent_updateLayout _ sig (hcur ▸ hsig))
            · exact .inr ⟨d, List.mem_singleton.mp hsig, hdesktops ▸ hnotmem⟩
          · rw [only e he hnot]
            exact List.mem_append_right _ (List.mem_singleton_self _)
          · omega
          · omega
          · by_cases hlive : e ∈ after.1.desktops
            · exact ⟨hn'.number_pos hlive, (hn'.number_le_count hlive).trans (by omega)⟩
            · rw [only e he hlive, hheap]
              exact ⟨Nat.succ_pos i, hlt⟩
          · rwa [only f hf hnot', ← only e he hnot]

/-- The request is carried out as the manager does it. -/
theorem respond_step (m : VirtualDesktopManager) (op : Op) : (respond m op).map Prod.fst = VirtualDesktops.step m op := by
  cases op with
  | setCurrentDesktop d => exact apply_ite (Option.map Prod.fst) (d ∈ m.desktops) _ _
  | updateLayout => exact apply_ite (Option.map Prod.fst) (m.count = 0) _ _
  | _ => rfl

theorem respond_numbered (hn : Numbered m) {op : Op} (h : respond m op = some (m', sigs)) : Numbered m' := by
  refine hn.step op ?_
  rw [← respond_step, h]
  rfl

theorem setRows_outcome (m : VirtualDesktopManager) (rows : Nat) : Outcome m (m.setRows rows).1 (m.setRows rows).2 := by
  unfold VirtualDesktopManager.setRows
  split
  · exact .same rfl nofun
  · exact .same rfl (silent_updateLayout _)

private theorem Outcome.of_some {after : VirtualDesktopManager × List Signal} (ho : Outcome m after.1 after.2)
    (h : some after = some (m', sigs)) : Outcome m m' sigs := by
  obtain rfl := Option.some.inj h
  exact ho

theorem respond_outcome (hn : Numbered m) {op : Op} (h : respond m op = some (m', sigs)) : Outcome m m' sigs := by
  cases op with
  | setCount count ids => exact (setCount_outcome hn count ids).of_some h
  | createVirtualDesktop position name id => exact (createVirtualDesktop_outcome m position name id).of_some h
  | removeVirtualDesktop id => exact removeVirtualDesktop_outcome hn h
  | setCurrent newDesktop => exact (setCurrent_outcome m newDesktop).of_some h
  | setCurrentDesktop d => exact (setCurrentDesktop_outcome m d).of_some (Option.ite_none_right_eq_some.mp h).2
  | setRows rows => exact (setRows_outcome m rows).of_some h
  | updateLayout =>
    have ho : Outcome m m.updateLayout.1 m.updateLayout.2 := .same rfl (silent_updateLayout m)
    exact ho.of_some (Option.ite_none_left_eq_some.mp h).2
  | reportLayout info =>
    cases h
    exact .same rfl nofun

end outcomes
end KWinFT.DesktopAreas
