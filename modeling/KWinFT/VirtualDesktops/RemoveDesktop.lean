import KWinFT.VirtualDesktops.Numbering

/-! Removing a desktop and the desktop the user stays on. The new current desktop is
looked up by the old number after the desktops behind the removed one moved up. -/
namespace KWinFT.VirtualDesktops
namespace VirtualDesktopManager
variable {m : VirtualDesktopManager}

/-- The user is kept in place: removing another desktop keeps the current object, removing
the current one ends on a remaining desktop, and a change of object is announced. -/
def KeepsUser (m : VirtualDesktopManager) (id : String) : Prop :=
  ∃ m' sigs, m.removeVirtualDesktop id = some (m', sigs) ∧
    (∀ d, m.desktopForId id = some d →
      (m.current ≠ some d → m'.current = m.current) ∧
      (m.current = some d → ∃ c ∈ m'.desktops, m'.current = some c)) ∧
    (m'.current ≠ m.current → ∃ old new, Signal.currentChanged old new ∈ sigs)

/-- The removal does nothing, or there is a current desktop and it lies before the removed
one or is the last of all. -/
def StaysPut (m : VirtualDesktopManager) (id : String) : Prop :=
  m.count = 1 ∨ m.desktopForId id = none ∨
    ∃ d c, m.desktopForId id = some d ∧ m.current = some c ∧
      ((m.heap c).x11DesktopNumber < (m.heap d).x11DesktopNumber ∨
        (m.heap c).x11DesktopNumber = m.count)

private theorem mem_of_desktopForId {id : String} {d : Address}
    (h : m.desktopForId id = some d) : d ∈ m.desktops :=
  List.mem_of_find?_eq_some h

private theorem currentChanged_notMem_updateLayout (old new : Nat) :
    Signal.currentChanged old new ∉ m.updateLayout.2 := by
  simp [updateLayout, setNETDesktopLayout]

/-- The outcome of a removal that takes place, in positions: `i` of the removed desktop,
`j` of the current one, `n` desktops before. -/
theorem removeVirtualDesktop_spec (h : Numbered m) {id : String} {d c : Address} {i j n : Nat}
    (hn : m.count = n) (h1 : n ≠ 1) (hd : m.desktopForId id = some d) (hc : m.current = some c)
    (hi : m.desktops[i]? = some d) (hj : m.desktops[j]? = some c) :
    ∃ m' sigs new, m.removeVirtualDesktop id = some (m', sigs) ∧
      m'.desktops = m.desktops.eraseIdx i ∧ m'.current = some new ∧
      (m.desktops.eraseIdx i)[min (j + 1) (n - 1) - 1]? = some new ∧
      ((∃ old new, Signal.currentChanged old new ∈ sigs) ↔ j + 1 = n) := by
  have hin := (List.getElem?_eq_some_iff.mp hi).1
  have hjn := (List.getElem?_eq_some_iff.mp hj).1
  have hlen : (m.desktops.eraseIdx i).length = n - 1 := by
    rw [List.length_eraseIdx_of_lt hin]
    exact congrArg (· - 1) hn
  have hn' : m.desktops.length = n := hn
  obtain ⟨new, hnew⟩ : ∃ new, (m.desktops.eraseIdx i)[min (j + 1) (n - 1) - 1]? = some new :=
    ⟨_, List.getElem?_eq_getElem (by omega)⟩
  let m' : VirtualDesktopManager := { m.removeAt i with current := some new }
  have hr : m.removeVirtualDesktop id = some (m'.updateRootInfo.1,
      (if j + 1 ≠ min (j + 1) (n - 1) then [.currentChanged (j + 1) (min (j + 1) (n - 1))] else []) ++
        m'.updateRootInfo.2 ++ [.desktopRemoved d, .countChanged (n - 1 + 1) (n - 1)]) := by
    unfold removeVirtualDesktop
    rw [if_neg (hn ▸ h1), hd, hc]
    simp only [h.number i d hi, h.number j c hj, Nat.add_sub_cancel, count, removeAt_desktops,
      hlen, hnew, updateRootInfo, updateLayout_desktops, m']
  refine ⟨_, _, new, hr, by simp [updateRootInfo, m'], rfl, hnew, ?_⟩
  have hlast : j + 1 ≠ min (j + 1) (n - 1) ↔ j + 1 = n := by omega
  constructor
  · rintro ⟨old, new', hmem⟩
    by_contra hne
    rw [if_neg (mt hlast.mp hne)] at hmem
    simp [updateRootInfo, currentChanged_notMem_updateLayout] at hmem
  · intro he
    rw [if_pos (hlast.mpr he)]
    exact ⟨_, _, List.mem_append_left _ (List.mem_append_left _ List.mem_cons_self)⟩

/-- The desktop found under the old number is the old current one again if it lies before
the removed desktop, or if it is the last and its number is too high now. -/
private theorem same_current_iff (h : Numbered m) {c new : Address} {i j n : Nat}
    (hn : m.count = n) (hi : i < n) (hj : m.desktops[j]? = some c)
    (hnew : (m.desktops.eraseIdx i)[min (j + 1) (n - 1) - 1]? = some new) :
    new = c ↔ j < i ∨ i < j ∧ j + 1 = n := by
  have hjn := (List.getElem?_eq_some_iff.mp hj).1
  have hlen : m.desktops.length = n := hn
  have hpos (k : Nat) (hk : m.desktops[k]? = some new) : new = c ↔ k = j := by
    rw [← Option.some_inj, ← hk, ← hj]
    exact (List.getElem?_inj (List.getElem?_eq_some_iff.mp hk).1 h.nodup)
  rw [List.getElem?_eraseIdx] at hnew
  split at hnew
  · rw [hpos _ hnew]; omega
  · rw [hpos _ hnew]; omega

private theorem keepsUser_iff {m' : VirtualDesktopManager} {sigs : List Signal} {id : String}
    {d c new : Address} (hr : m.removeVirtualDesktop id = some (m', sigs))
    (hd : m.desktopForId id = some d) (hc : m.current = some c) (hnew : m'.current = some new)
    (hmem : new ∈ m'.desktops) :
    m.KeepsUser id ↔ (d ≠ c → new = c) ∧
      (new ≠ c → ∃ old new, Signal.currentChanged old new ∈ sigs) := by
  constructor
  · rintro ⟨_, _, hr', hk, hch⟩
    obtain ⟨rfl, rfl⟩ := Prod.mk.inj (Option.some.inj (hr.symm.trans hr'))
    refine ⟨fun hne => ?_, fun hne => hch (by simpa [hnew, hc] using hne)⟩
    have hsame := (hk d hd).1 (by simpa [hc] using Ne.symm hne)
    simpa [hnew, hc] using hsame
  · rintro ⟨hk, hch⟩
    refine ⟨m', sigs, hr, ?_, fun hne => hch (by simpa [hnew, hc] using hne)⟩
    intro e he
    obtain rfl : d = e := Option.some.inj (hd.symm.trans he)
    refine ⟨fun hne => ?_, fun _ => ⟨new, hmem, hnew⟩⟩
    rw [hnew, hc, hk (fun hdc => hne (hdc ▸ hc))]

/-- Removal keeps the user in place exactly when the current desktop lies before the removed
one, is the last of all, or nothing is removed: any other current desktop hands its number
to its successor, and that change is not announced. -/
theorem removeVirtualDesktop_keepsUser_iff (hm : Reachable m) (id : String) :
    m.KeepsUser id ↔ m.StaysPut id := by
  have h := hm.numbered
  by_cases h1 : m.count = 1
  · refine iff_of_true ⟨m, [], by simp [removeVirtualDesktop, h1], ?_, by simp⟩ (.inl h1)
    intro d hd
    exact ⟨fun _ => rfl, fun hc => ⟨d, mem_of_desktopForId hd, hc⟩⟩
  cases hd : m.desktopForId id with
  | none =>
    refine iff_of_true ⟨m, [], by simp [removeVirtualDesktop, hd], ?_, by simp⟩ (.inr (.inl hd))
    simp [hd]
  | some d =>
    cases hc : m.current with
    | none => simp [KeepsUser, StaysPut, removeVirtualDesktop, h1, hd, hc]
    | some c =>
      obtain ⟨i, hi⟩ := List.mem_iff_getElem?.mp (mem_of_desktopForId hd)
      obtain ⟨j, hj⟩ := List.mem_iff_getElem?.mp (h.current c hc)
      have hin := (List.getElem?_eq_some_iff.mp hi).1
      obtain ⟨m', sigs, new, hr, hds, hnew, hat, hsig⟩ :=
        removeVirtualDesktop_spec h rfl h1 hd hc hi hj
      have hput : m.StaysPut id ↔ j < i ∨ j + 1 = m.count := by
        simp [StaysPut, h1, hd, hc, h.number i d hi, h.number j c hj]
      -- Removed and current desktop coincide exactly when their positions do.
      have hdc : d = c ↔ i = j := by
        rw [← Option.some_inj, ← hi, ← hj]
        exact List.getElem?_inj hin h.nodup
      rw [hput, keepsUser_iff hr hd hc hnew (hds ▸ List.mem_of_getElem? hat), hsig, Ne, Ne, hdc,
        same_current_iff h rfl hin hj hat]
      omega

/-- Three desktops with the ids 1, 2, 3 and the second one current. -/
def threeDesktops : VirtualDesktopManager :=
  ((initial.setCount 3 fun n => toString n).1.setCurrent 2).1

private theorem threeDesktops_reachable : Reachable threeDesktops :=
  ⟨.untranslated, Lib.Reachable.execute .init [.setCount 3 fun n => toString n, .setCurrent 2] rfl⟩

/-- Removing the last of three desktops leaves the user on the second. -/
theorem removeVirtualDesktop_last_keepsUser : threeDesktops.KeepsUser "3" :=
  (removeVirtualDesktop_keepsUser_iff threeDesktops_reachable "3").mpr
    (.inr (.inr ⟨2, 1, by decide, by decide, by decide⟩))

/-- Removing the first of three desktops moves the user from the second to the third. -/
theorem removeVirtualDesktop_first_moves_user :
    ∃ m', Reachable m' ∧ m'.current = some 1 ∧ m'.desktopForId "1" = some 0 ∧ ¬ m'.KeepsUser "1" := by
  refine ⟨threeDesktops, threeDesktops_reachable, by decide, by decide, ?_⟩
  rintro ⟨m', sigs, hr, hk, -⟩
  have hcur : m'.current = some 2 := by
    have := congrArg (Option.map fun r => r.1.current) hr
    simpa using this.symm.trans (by decide : _ = some (some 2))
  have := (hk 0 (by decide)).1 (by decide)
  rw [hcur] at this
  exact absurd this (by decide)

end VirtualDesktopManager
end KWinFT.VirtualDesktops
