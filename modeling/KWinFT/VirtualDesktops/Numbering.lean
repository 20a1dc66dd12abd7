import KWinFT.VirtualDesktops.Manager

/-! The numbers of the desktops follow their positions in every reachable state. -/
namespace KWinFT.VirtualDesktops
namespace VirtualDesktopManager
variable (m : VirtualDesktopManager)

/-! The layout functions touch neither the desktops nor the pointer to the current one. -/

@[simp] theorem updateLayout_heap : m.updateLayout.1.heap = m.heap := rfl
@[simp] theorem updateLayout_next : m.updateLayout.1.next = m.next := rfl
@[simp] theorem updateLayout_desktops : m.updateLayout.1.desktops = m.desktops := rfl
@[simp] theorem updateLayout_current : m.updateLayout.1.current = m.current := rfl
@[simp] theorem updateLayout_translation : m.updateLayout.1.translation = m.translation := rfl

@[simp] theorem renumber_desktops (ds : List Address) (n : Nat) :
    (m.renumber ds n).desktops = m.desktops := by
  induction ds generalizing m n with
  | nil => rfl
  | cons d ds ih => exact ih _ _

@[simp] theorem renumber_current (ds : List Address) (n : Nat) :
    (m.renumber ds n).current = m.current := by
  induction ds generalizing m n with
  | nil => rfl
  | cons d ds ih => exact ih _ _

@[simp] theorem renumber_next (ds : List Address) (n : Nat) :
    (m.renumber ds n).next = m.next := by
  induction ds generalizing m n with
  | nil => rfl
  | cons d ds ih => exact ih _ _

theorem renumber_heap_of_notMem (ds : List Address) (n : Nat) (a : Address) (ha : a ∉ ds) :
    (m.renumber ds n).heap a = m.heap a := by
  induction ds generalizing m n with
  | nil => rfl
  | cons d ds ih =>
    rw [List.mem_cons, not_or] at ha
    rw [renumber, ih _ _ ha.2, setX11DesktopNumber]
    exact Function.update_of_ne ha.1 _ _

theorem renumber_number (ds : List Address) (n k : Nat) (a : Address) (hd : ds.Nodup)
    (hk : ds[k]? = some a) : ((m.renumber ds n).heap a).x11DesktopNumber = n + k := by
  induction ds generalizing m n k with
  | nil => simp at hk
  | cons d ds ih =>
    obtain ⟨hnot, hd⟩ := List.nodup_cons.mp hd
    cases k with
    | zero =>
      obtain rfl : d = a := by simpa using hk
      rw [renumber, renumber_heap_of_notMem _ _ _ _ hnot]
      simp [setX11DesktopNumber]
    | succ k =>
      rw [renumber, ih _ _ _ hd (by simpa using hk)]
      omega

@[simp] theorem removeAt_desktops (i : Nat) :
    (m.removeAt i).desktops = m.desktops.eraseIdx i :=
  renumber_desktops _ _ _

/-- The new desktops follow the old ones; the objects that exist are not touched. -/
theorem appendDesktops_spec (ids : Nat → String) (n : Nat) :
    (appendDesktops ids n m).desktops = m.desktops ++ List.range' m.next n ∧
      (∀ a, a < m.next → (appendDesktops ids n m).heap a = m.heap a) ∧
      ∀ j, j < n → (appendDesktops ids n m).heap (m.next + j) =
        ⟨ids (m.count + j + 1), m.defaultName (m.count + j + 1), m.count + j + 1⟩ := by
  induction n generalizing m with
  | zero => simp [appendDesktops]
  | succ n ih =>
    let first : VirtualDesktop := ⟨ids (m.count + 1), m.defaultName (m.count + 1), m.count + 1⟩
    obtain ⟨hd, hold, hnew⟩ := ih { m.allocate first with desktops := m.desktops ++ [m.next] }
    have hcount : VirtualDesktopManager.count { m.allocate first with desktops := m.desktops ++ [m.next] } = m.count + 1 := by
      simp [count]
    refine ⟨?_, fun a ha => ?_, fun j hj => ?_⟩
    · rw [appendDesktops]
      exact hd.trans (by simp [allocate, List.range'_succ])
    · rw [appendDesktops]
      refine (hold a (Nat.lt_succ_of_lt ha)).trans ?_
      simp [allocate, Nat.ne_of_lt ha]
    · rw [appendDesktops]
      cases j with
      | zero =>
        refine (hold m.next (Nat.lt_succ_self _)).trans ?_
        simp [allocate, first]
      | succ j =>
        have h := hnew j (by omega)
        rw [hcount] at h
        have hnext : (VirtualDesktopManager.next { m.allocate first with desktops := m.desktops ++ [m.next] }) + j =
            m.next + (j + 1) := by
          exact (Nat.add_assoc m.next 1 j).trans (congrArg (m.next + ·) (Nat.add_comm 1 j))
        rw [hnext] at h
        rw [h, show m.count + 1 + j + 1 = m.count + (j + 1) + 1 by omega]
        rfl

theorem appendDesktops_translation (ids : Nat → String) (n : Nat) :
    (appendDesktops ids n m).translation = m.translation := by
  induction n generalizing m with
  | zero => rfl
  | succ n ih => exact ih _

theorem appendDesktops_next (ids : Nat → String) (n : Nat) : (appendDesktops ids n m).next = m.next + n := by
  induction n generalizing m with
  | zero => rfl
  | succ n ih =>
    rw [appendDesktops, ih]
    exact (Nat.add_right_comm m.next 1 n).trans (Nat.add_assoc m.next n 1)

variable {m} in
theorem desktopForX11Id_eq_some_iff {id : Nat} {d : Address} :
    m.desktopForX11Id id = some d ↔ 0 < id ∧ m.desktops[id - 1]? = some d := by
  unfold desktopForX11Id
  split
  · next h =>
    refine ⟨nofun, ?_⟩
    rintro ⟨hpos, hget⟩
    have hlt : id - 1 < m.count := (List.getElem?_eq_some_iff.mp hget).1
    omega
  · next h => exact (and_iff_right (by omega)).symm

variable {m} in
theorem mem_of_desktopForX11Id {id : Nat} {d : Address} (h : m.desktopForX11Id id = some d) :
    d ∈ m.desktops :=
  List.mem_of_getElem? (desktopForX11Id_eq_some_iff.mp h).2

end VirtualDesktopManager

/-- What every request re-establishes: distinct, allocated desktops that are numbered by
their position, and a current desktop among them. -/
structure Numbered (m : VirtualDesktopManager) : Prop where
  nodup : m.desktops.Nodup
  allocated : ∀ d ∈ m.desktops, d < m.next
  number : ∀ i d, m.desktops[i]? = some d → (m.heap d).x11DesktopNumber = i + 1
  current : ∀ c, m.current = some c → c ∈ m.desktops

namespace Numbered
variable {m : VirtualDesktopManager}

theorem initial (translation : Translation) : Numbered (.initial translation) :=
  ⟨List.nodup_nil, by simp [VirtualDesktopManager.initial],
    by simp [VirtualDesktopManager.initial], by simp [VirtualDesktopManager.initial]⟩

/-- The layout is not part of the invariant. -/
theorem of_same {m' : VirtualDesktopManager} (h : Numbered m) (hh : m'.heap = m.heap)
    (hn : m'.next = m.next) (hd : m'.desktops = m.desktops)
    (hc : ∀ c, m'.current = some c → c ∈ m.desktops) : Numbered m' :=
  ⟨hd ▸ h.nodup, by rw [hd, hn]; exact h.allocated, by rw [hd, hh]; exact h.number,
    by rw [hd]; exact hc⟩

theorem updateLayout (h : Numbered m) : Numbered m.updateLayout.1 :=
  h.of_same rfl rfl rfl h.current

theorem setRows (h : Numbered m) (rows : Nat) : Numbered (m.setRows rows).1 := by
  unfold VirtualDesktopManager.setRows
  split
  · exact h
  · exact h.of_same rfl rfl rfl h.current

theorem setCurrentDesktop (h : Numbered m) {d : Address} (hd : d ∈ m.desktops) :
    Numbered (m.setCurrentDesktop d).1 := by
  unfold VirtualDesktopManager.setCurrentDesktop
  split
  · exact h
  · refine h.of_same rfl rfl rfl ?_
    intro c hc
    cases hc
    exact hd

theorem setCurrent (h : Numbered m) (n : Nat) : Numbered (m.setCurrent n).1 := by
  unfold VirtualDesktopManager.setCurrent
  split
  · exact h
  · split
    · rename_i d hd
      exact h.setCurrentDesktop (VirtualDesktopManager.mem_of_desktopForX11Id hd)
    · exact h

/-- Renumbering the tail from position `i` completes a numbering of the first `i`. -/
theorem renumber_tail (i : Nat) (hnd : m.desktops.Nodup)
    (hnum : ∀ k d, k < i → m.desktops[k]? = some d → (m.heap d).x11DesktopNumber = k + 1)
    (k : Nat) (d : Address) (hk : m.desktops[k]? = some d) :
    ((m.renumber (m.desktops.drop i) (i + 1)).heap d).x11DesktopNumber = k + 1 := by
  by_cases hki : k < i
  · rw [VirtualDesktopManager.renumber_heap_of_notMem]
    · exact hnum k d hki hk
    · -- The desktop sits before the tail, so it cannot sit in it as well.
      intro hmem
      obtain ⟨j, hj⟩ := List.mem_iff_getElem?.mp hmem
      rw [List.getElem?_drop] at hj
      have := (List.getElem?_inj (List.getElem?_eq_some_iff.mp hk).1 hnd).mp (hk.trans hj.symm)
      omega
  · have hd : (m.desktops.drop i)[k - i]? = some d := by
      rw [List.getElem?_drop, Nat.add_sub_cancel' (Nat.le_of_not_lt hki), hk]
    rw [VirtualDesktopManager.renumber_number _ _ _ _ _ (hnd.sublist (List.drop_sublist _ _)) hd]
    omega

/-- A renumbered list of distinct desktops, with any current one among them. -/
theorem of_renumber (i : Nat) (current : Option Address) (hnd : m.desktops.Nodup)
    (hal : ∀ d ∈ m.desktops, d < m.next)
    (hnum : ∀ k d, k < i → m.desktops[k]? = some d → (m.heap d).x11DesktopNumber = k + 1)
    (hcur : ∀ c, current = some c → c ∈ m.desktops) :
    Numbered { m.renumber (m.desktops.drop i) (i + 1) with current := current } := by
  refine ⟨by simpa using hnd, by simpa using hal, ?_, by simpa using hcur⟩
  intro k d hk
  exact renumber_tail i hnd hnum k d (by simpa using hk)

theorem createVirtualDesktop (h : Numbered m) (position : Nat) (name id : String) :
    Numbered (m.createVirtualDesktop position name id).1 := by
  unfold VirtualDesktopManager.createVirtualDesktop
  split
  · exact h
  · have hfresh : m.next ∉ m.desktops := fun hmem => Nat.lt_irrefl _ (h.allocated _ hmem)
    have hle : min position m.count ≤ m.desktops.length := Nat.min_le_right _ _
    generalize min position m.count = p at hle ⊢
    have hperm := List.perm_insertIdx m.next m.desktops hle
    refine (of_renumber (m := { m.allocate ⟨id, name, p + 1⟩ with
      desktops := m.desktops.insertIdx p m.next }) (p + 1) m.current ?_ ?_ ?_ ?_).of_same rfl rfl rfl ?_
    · exact hperm.nodup_iff.mpr (List.nodup_cons.mpr ⟨hfresh, h.nodup⟩)
    · intro d hd
      rcases List.mem_cons.mp (hperm.mem_iff.mp hd) with rfl | hd
      · exact Nat.lt_succ_self _
      · exact Nat.lt_succ_of_lt (h.allocated d hd)
    · intro k d hk hkd
      by_cases hkp : k = p
      · subst hkp
        rw [List.getElem?_insertIdx_self, if_pos hle] at hkd
        obtain rfl : m.next = d := by simpa using hkd
        simp [VirtualDesktopManager.allocate]
      · rw [List.getElem?_insertIdx_of_lt (by omega)] at hkd
        have hne : d ≠ m.next := fun he => hfresh (he ▸ List.mem_of_getElem? hkd)
        simpa [VirtualDesktopManager.allocate, hne] using h.number k d hkd
    · intro c hc
      exact hperm.mem_iff.mpr (List.mem_cons_of_mem _ (h.current c hc))
    · intro c hc
      have hc : m.current = some c := by
        simpa [VirtualDesktopManager.updateRootInfo, VirtualDesktopManager.allocate] using hc
      simpa using hperm.mem_iff.mpr (List.mem_cons_of_mem _ (h.current c hc))

theorem appendDesktops (h : Numbered m) (ids : Nat → String) (n : Nat) :
    Numbered (VirtualDesktopManager.appendDesktops ids n m) := by
  induction n generalizing m with
  | zero => exact h
  | succ n ih =>
    have hfresh : m.next ∉ m.desktops := fun hmem => Nat.lt_irrefl _ (h.allocated _ hmem)
    apply ih
    refine ⟨?_, ?_, ?_, ?_⟩
    · refine List.nodup_append.mpr ⟨h.nodup, by simp, ?_⟩
      rintro a ha b hb rfl
      exact hfresh (List.mem_singleton.mp hb ▸ ha)
    · intro d hd
      rcases List.mem_append.mp hd with hd | hd
      · exact Nat.lt_succ_of_lt (h.allocated d hd)
      · obtain rfl := List.mem_singleton.mp hd
        exact Nat.lt_succ_self _
    · intro i d hi
      rcases Nat.lt_or_ge i m.desktops.length with hlt | hge
      · rw [List.getElem?_append_left hlt] at hi
        have hne : d ≠ m.next := fun he => hfresh (he ▸ List.mem_of_getElem? hi)
        simpa [VirtualDesktopManager.allocate, hne] using h.number i d hi
      · rw [List.getElem?_append_right hge, List.getElem?_singleton] at hi
        split at hi
        · obtain rfl : m.next = d := by simpa using hi
          have : i = m.count := by unfold VirtualDesktopManager.count; omega
          simp [VirtualDesktopManager.allocate, this]
        · cases hi
    · intro c hc
      exact List.mem_append_left _ (h.current c hc)

/-- Dropping the last desktops keeps the numbers of the others. -/
theorem take (h : Numbered m) (n : Nat) (current : Option Address)
    (hc : ∀ c, current = some c → c ∈ m.desktops.take n) :
    Numbered { m with desktops := m.desktops.take n, current := current } := by
  refine ⟨h.nodup.sublist (List.take_sublist _ _),
    fun d hd => h.allocated d (List.mem_of_mem_take hd), ?_, hc⟩
  intro i d hi
  refine h.number i d ?_
  rw [List.getElem?_take] at hi
  split at hi
  · exact hi
  · cases hi

theorem setCount (h : Numbered m) (count : Nat) (ids : Nat → String) :
    Numbered (m.setCount count ids).1 := by
  unfold VirtualDesktopManager.setCount
  generalize max 1 (min count maximum) = n
  dsimp only
  split
  · exact h
  · split
    · apply updateLayout
      cases hcur : m.current with
      | none => simpa [hcur] using h.take n none (by simp)
      | some old => exact h.take n _ fun c hc => List.mem_of_getElem? hc
    · exact (h.appendDesktops ids _).updateLayout

/-- The position of a desktop of the manager is one less than its number. -/
theorem getElem?_number (h : Numbered m) {d : Address} (hd : d ∈ m.desktops) :
    m.desktops[(m.heap d).x11DesktopNumber - 1]? = some d := by
  obtain ⟨i, hi⟩ := List.mem_iff_getElem?.mp hd
  rw [h.number i d hi, Nat.add_sub_cancel, hi]

theorem number_pos (h : Numbered m) {d : Address} (hd : d ∈ m.desktops) :
    0 < (m.heap d).x11DesktopNumber := by
  obtain ⟨i, hi⟩ := List.mem_iff_getElem?.mp hd
  rw [h.number i d hi]
  exact Nat.succ_pos i

theorem number_le_count (h : Numbered m) {d : Address} (hd : d ∈ m.desktops) :
    (m.heap d).x11DesktopNumber ≤ m.count := by
  obtain ⟨i, hi⟩ := List.mem_iff_getElem?.mp hd
  rw [h.number i d hi]
  exact (List.getElem?_eq_some_iff.mp hi).1

/-- Looking up a desktop by its number. -/
theorem desktopForX11Id_iff (h : Numbered m) {d : Address} (hd : d ∈ m.desktops) {id : Nat} :
    m.desktopForX11Id id = some d ↔ (m.heap d).x11DesktopNumber = id := by
  rw [VirtualDesktopManager.desktopForX11Id_eq_some_iff]
  constructor
  · rintro ⟨hpos, hget⟩
    rw [h.number _ d hget, Nat.sub_add_cancel hpos]
  · rintro rfl
    exact ⟨h.number_pos hd, h.getElem?_number hd⟩

/-- Taking out the desktop at position `i` and renumbering the rest. -/
theorem removeAt (h : Numbered m) (i : Nat) {new : Address} (hnew : new ∈ m.desktops.eraseIdx i) :
    Numbered { m.removeAt i with current := some new } := by
  refine of_renumber (m := { m with desktops := m.desktops.eraseIdx i }) i (some new) ?_ ?_ ?_ ?_
  · exact h.nodup.sublist (List.eraseIdx_sublist _ _)
  · exact fun d hd => h.allocated d (List.mem_of_mem_eraseIdx hd)
  · intro k d hk hkd
    simp only [List.getElem?_eraseIdx_of_lt hk] at hkd
    exact h.number k d hkd
  · intro c hc
    cases hc
    exact hnew

theorem removeVirtualDesktop (h : Numbered m) (id : String) {m' : VirtualDesktopManager}
    {sigs : List Signal} (hr : m.removeVirtualDesktop id = some (m', sigs)) : Numbered m' := by
  unfold VirtualDesktopManager.removeVirtualDesktop at hr
  split at hr
  · cases hr; exact h
  · split at hr
    · cases hr; exact h
    · split at hr
      · cases hr
      · dsimp only at hr
        split at hr
        · cases hr
        · rename_i new hnew
          cases hr
          rw [VirtualDesktopManager.removeAt_desktops] at hnew
          exact (h.removeAt _ (List.mem_of_getElem? hnew)).updateLayout

theorem step (h : Numbered m) (op : Op) {m' : VirtualDesktopManager}
    (hs : VirtualDesktops.step m op = some m') : Numbered m' := by
  cases op with
  | setCount count ids => cases hs; exact h.setCount count ids
  | createVirtualDesktop position name id => cases hs; exact h.createVirtualDesktop position name id
  | removeVirtualDesktop id =>
    obtain ⟨⟨m'', sigs⟩, hr, rfl⟩ := Option.map_eq_some_iff.mp hs
    exact h.removeVirtualDesktop id hr
  | setCurrent n => cases hs; exact h.setCurrent n
  | setCurrentDesktop d =>
    simp only [VirtualDesktops.step] at hs
    split at hs
    · rename_i hd
      cases hs
      exact h.setCurrentDesktop hd
    · cases hs
  | setRows rows => cases hs; exact h.setRows rows
  | updateLayout =>
    simp only [VirtualDesktops.step] at hs
    split at hs
    · cases hs
    · cases hs; exact h.updateLayout
  | reportLayout info => cases hs; exact h.of_same rfl rfl rfl h.current

end Numbered

/-- Every sequence of requests leaves the desktops numbered by position. -/
theorem Reachable.numbered {m : VirtualDesktopManager} (h : Reachable m) : Numbered m :=
  have ⟨translation, h⟩ := h
  h.invariant Numbered (.initial translation) fun _ op _ hm _ hs => hm.step op hs

end KWinFT.VirtualDesktops
