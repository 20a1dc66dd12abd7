import KWinFT.VirtualDesktops.Config

/-! Loading the configuration. The number of desktops is clamped when they are created but not when
their entries are read, and without a configuration the loading flag stays set. -/
namespace KWinFT.VirtualDesktops
namespace VirtualDesktopManager
variable (m : VirtualDesktopManager)

/-- The desktops after a change of their number, and what is known about their ids. -/
theorem setCount_spec (n : Nat) (ids : Nat → String) {k : Nat} (hk : k = max 1 (min n maximum)) :
    (k ≤ m.count → (m.setCount n ids).1.desktops = m.desktops.take k ∧ (m.setCount n ids).1.heap = m.heap) ∧
      (m.count < k → ∃ d ∈ (m.setCount n ids).1.desktops, ((m.setCount n ids).1.heap d).id = ids k) ∧
      (m.setCount n ids).1.count = k := by
  unfold setCount
  rw [← hk]
  dsimp only
  by_cases heq : k = m.count
  · rw [if_pos heq]
    refine ⟨fun _ => ⟨?_, rfl⟩, fun hlt => absurd heq (by omega), heq.symm⟩
    exact (List.take_of_length_le (Nat.le_of_eq heq.symm)).symm
  rw [if_neg heq]
  by_cases hlt : k < m.count
  · rw [if_pos hlt]
    have hlen : (m.desktops.take k).length = k := List.length_take_of_le (Nat.le_of_lt hlt)
    refine ⟨fun _ => ?_, fun hgt => absurd hgt (by omega), ?_⟩
    · cases m.current <;> exact ⟨rfl, rfl⟩
    · cases m.current <;> exact hlen
  · rw [if_neg hlt]
    obtain ⟨hd, -, hnew⟩ := m.appendDesktops_spec ids (k - m.count)
    refine ⟨fun hle => absurd hle (by omega), fun _ => ⟨m.next + (k - m.count - 1), ?_, ?_⟩, ?_⟩
    · simp only [updateRootInfo, updateLayout_desktops, hd, List.mem_append, List.mem_range'_1]
      omega
    · simp only [updateRootInfo, updateLayout_heap]
      rw [hnew _ (by omega)]
      exact congrArg ids (by omega)
    · have hlen : (appendDesktops ids (k - m.count) m).desktops.length = m.count + (k - m.count) := by
        rw [hd, List.length_append, List.length_range']
        rfl
      exact hlen.trans (by omega)

/-- What `load` makes of the desktop at position `i`. -/
def loaded (c : Config) (generate : Nat → String) (i : Nat) (vd : VirtualDesktop) : VirtualDesktop :=
  { vd with
    name := cString ((c.names (i + 1)).getD (m.defaultName (i + 1)))
    id := if vd.id = "" then (if (c.ids (i + 1)).getD "" = "" then generate (i + 1) else (c.ids (i + 1)).getD "")
      else vd.id }

theorem loadDesktops_spec (hnd : m.desktops.Nodup) (c : Config) (generate : Nat → String) {k : Nat}
    (hk : k ≤ m.count) : ∃ m', m.loadDesktops c generate k = some m' ∧ m'.desktops = m.desktops ∧
      m'.translation = m.translation ∧
      ∀ i d, m.desktops[i]? = some d → m'.heap d = if i < k then m.loaded c generate i (m.heap d) else m.heap d := by
  induction k with
  | zero => exact ⟨m, rfl, rfl, rfl, fun i d _ => by simp⟩
  | succ k ih =>
    obtain ⟨m', hm, hd, ht, hh⟩ := ih (by omega)
    obtain ⟨d, hdk⟩ : ∃ d, m.desktops[k]? = some d := ⟨_, List.getElem?_eq_getElem hk⟩
    have hheap : m'.heap d = m.heap d := by simpa using hh k d hdk
    let m'' : VirtualDesktopManager := { m' with heap := Function.update m'.heap d (m.loaded c generate k (m.heap d)) }
    have hround : m'.loadDesktop c generate (k + 1) = some m'' := by
      unfold loadDesktop
      rw [Nat.add_sub_cancel, hd, hdk]
      by_cases hid : (m.heap d).id = ""
      · simp [setName, setId, hheap, hid, loaded, defaultName, ht, m'']
      · simp [setName, hheap, hid, loaded, defaultName, ht, m'']
    refine ⟨m'', ?_, hd, ht, fun i e he => ?_⟩
    · rw [loadDesktops, hm, Option.bind_some, hround]
    · by_cases hik : i = k
      · subst hik
        obtain rfl : d = e := Option.some.inj (hdk.symm.trans he)
        simp [m'']
      · have hne : e ≠ d := by
          rintro rfl
          exact hik ((List.getElem?_inj (List.getElem?_eq_some_iff.mp he).1 hnd).mp (he.trans hdk.symm))
        simp only [m'', Function.update_of_ne hne, hh i e he]
        congr 1
        exact propext ⟨fun h => by omega, fun h => by omega⟩

theorem loadDesktops_eq_none (hnd : m.desktops.Nodup) (c : Config) (generate : Nat → String) {k : Nat}
    (hk : m.count < k) : m.loadDesktops c generate k = none := by
  induction k with
  | zero => omega
  | succ k ih =>
    rw [loadDesktops]
    rcases Nat.lt_or_ge m.count k with hlt | hge
    · rw [ih hlt, Option.bind_none]
    · obtain ⟨m', hm, hd, -⟩ := m.loadDesktops_spec hnd c generate hge
      have hnone : m'.desktops[k]? = none := by
        rw [hd, List.getElem?_eq_none_iff]
        exact Nat.le_of_lt_succ hk
      rw [hm, Option.bind_some, loadDesktop, Nat.add_sub_cancel, hnone]

end VirtualDesktopManager

/-- The manager after loading: the desktops have ids, the rows are within their number, and saving
works again. -/
structure Session.Restored (s : Session) : Prop where
  count_pos : 1 ≤ s.manager.count
  count_le : s.manager.count ≤ maximum
  ids : ∀ d ∈ s.manager.desktops, (s.manager.heap d).id ≠ ""
  rows_pos : 1 ≤ s.manager.rows
  rows_le : s.manager.rows ≤ s.manager.count
  persists : ∀ c, ({ s with config := some c } : Session).save.config = some (s.manager.store c)

/-- The configured number is in range; or it is not positive, and the desktops it stands for after
clamping exist already and have ids. -/
def Session.Loadable (s : Session) : Prop :=
  ∃ c, s.config = some c ∧
    ((1 ≤ (c.number.getD 1).toInt ∧ (c.number.getD 1).toInt ≤ maximum) ∨
      ((c.number.getD 1).toInt ≤ 0 ∧
        (if (c.number.getD 1).toInt = 0 then 1 else maximum) ≤ s.manager.count ∧
        ∀ d ∈ s.manager.desktops.take (if (c.number.getD 1).toInt = 0 then 1 else maximum),
          (s.manager.heap d).id ≠ ""))

namespace Session
variable {s : Session} {c : Config} {generate : Nat → String}

theorem not_restored_of_loading (h : s.loading = true) : ¬ s.Restored := by
  intro hr
  have hp := hr.persists ⟨none, none, fun _ => none, fun _ => none, 0, fun _ _ => rfl⟩
  rw [save, if_pos h] at hp
  have hrows := congrArg Config.rows (Option.some.inj hp)
  simp [VirtualDesktopManager.store] at hrows

theorem persists_of_not_loading (h : s.loading = false) (c : Config) :
    ({ s with config := some c } : Session).save.config = some (s.manager.store c) := by
  simp [save, h]

/-- What `load` starts from: the desktops for the clamped number, those that are new without an id. -/
private theorem clamp_toUInt (n : Int32) :
    max 1 (min (toUInt n.toInt) maximum) =
      if 1 ≤ n.toInt ∧ n.toInt ≤ maximum then n.toInt.toNat else if n.toInt = 0 then 1 else maximum := by
  have hlo := n.le_toInt
  have hhi := n.toInt_lt
  unfold toUInt maximum
  by_cases h1 : 1 ≤ n.toInt ∧ n.toInt ≤ (20 : Nat)
  · rw [if_pos h1]
    omega
  · rw [if_neg h1]
    by_cases h0 : n.toInt = 0
    · rw [if_pos h0]
      omega
    · rw [if_neg h0]
      omega

/-- With a number in range all desktops get the entries of the configuration. -/
theorem restored_of_range (hc : s.config = some c) (hn : Numbered s.manager) (hgen : ∀ i, generate i ≠ "")
    (h1 : 1 ≤ (c.number.getD 1).toInt) (h20 : (c.number.getD 1).toInt ≤ maximum) :
    ∃ s', s.load generate = some s' ∧ s'.Restored := by
  have hclamp := clamp_toUInt (c.number.getD 1)
  rw [if_pos ⟨h1, h20⟩] at hclamp
  obtain ⟨-, -, hcount⟩ := s.manager.setCount_spec (toUInt (c.number.getD 1).toInt) (fun _ => "") hclamp.symm
  have hnd := (hn.setCount (toUInt (c.number.getD 1).toInt) fun _ => "").nodup
  obtain ⟨m', hload, hd, -, hheap⟩ := VirtualDesktopManager.loadDesktops_spec _ hnd c generate (Nat.le_of_eq hcount.symm)
  have hcount' : m'.count = (c.number.getD 1).toInt.toNat := (congrArg List.length hd).trans hcount
  refine ⟨_, by rw [load, hc]; exact congrArg (Option.map _) hload, ?_⟩
  refine ⟨?_, ?_, fun d hmem => ?_, ?_, ?_, persists_of_not_loading rfl⟩
  · show 1 ≤ m'.count
    omega
  · show m'.count ≤ maximum
    omega
  · obtain ⟨i, hi⟩ := List.mem_iff_getElem?.mp hmem
    have hi' : (s.manager.setCount (toUInt (c.number.getD 1).toInt) fun _ => "").1.desktops[i]? = some d := by
      rw [← hd]
      exact hi
    have hlt : i < (c.number.getD 1).toInt.toNat := hcount ▸ (List.getElem?_eq_some_iff.mp hi').1
    show (m'.heap d).id ≠ ""
    rw [hheap i d hi', if_pos hlt]
    simp only [VirtualDesktopManager.loaded]
    split
    · split
      · exact hgen _
      · assumption
    · assumption
  · show 1 ≤ (max 1 (min (c.number.getD 1).toInt (c.rows.getD 2).toInt)).toNat
    omega
  · show (max 1 (min (c.number.getD 1).toInt (c.rows.getD 2).toInt)).toNat ≤ m'.count
    omega

/-- Beyond the maximum the loop leaves the desktops. -/
theorem load_eq_none (hc : s.config = some c) (hn : Numbered s.manager)
    (h20 : maximum < (c.number.getD 1).toInt) : s.load generate = none := by
  have hclamp := clamp_toUInt (c.number.getD 1)
  rw [if_neg (by omega), if_neg (by omega)] at hclamp
  obtain ⟨-, -, hcount⟩ := s.manager.setCount_spec (toUInt (c.number.getD 1).toInt) (fun _ => "") hclamp.symm
  have hnd := (hn.setCount (toUInt (c.number.getD 1).toInt) fun _ => "").nodup
  rw [load, hc]
  dsimp only
  rw [VirtualDesktopManager.loadDesktops_eq_none _ hnd c generate (by omega), Option.map_none]

/-- Without a positive number no entry is read, so the desktops need ids before. -/
theorem restored_iff_of_nonpos (hc : s.config = some c) (h0 : (c.number.getD 1).toInt ≤ 0) :
    (∃ s', s.load generate = some s' ∧ s'.Restored) ↔
      (if (c.number.getD 1).toInt = 0 then 1 else maximum) ≤ s.manager.count ∧
        ∀ d ∈ s.manager.desktops.take (if (c.number.getD 1).toInt = 0 then 1 else maximum),
          (s.manager.heap d).id ≠ "" := by
  have hclamp := clamp_toUInt (c.number.getD 1)
  rw [if_neg (by omega)] at hclamp
  generalize hk : (if (c.number.getD 1).toInt = 0 then 1 else maximum) = k at hclamp ⊢
  have hrange : 1 ≤ k ∧ k ≤ maximum := by
    unfold maximum at hk ⊢
    split at hk <;> omega
  obtain ⟨hold, hnew, hcount⟩ := s.manager.setCount_spec (toUInt (c.number.getD 1).toInt) (fun _ => "") hclamp.symm
  have hrows : (max 1 (min (c.number.getD 1).toInt (c.rows.getD 2).toInt)).toNat = 1 := by omega
  have hload : s.load generate = some { s with
      manager := { (s.manager.setCount (toUInt (c.number.getD 1).toInt) fun _ => "").1 with rows := 1 }
      loading := false } := by
    rw [load, hc]
    dsimp only
    rw [Int.toNat_of_nonpos h0, hrows]
    rfl
  constructor
  · rintro ⟨s', hs, hr⟩
    obtain rfl := Option.some.inj (hload.symm.trans hs)
    have hle : k ≤ s.manager.count := by
      by_contra hlt
      obtain ⟨d, hd, hid⟩ := hnew (Nat.lt_of_not_le hlt)
      exact hr.ids d hd hid
    refine ⟨hle, fun d hd => ?_⟩
    obtain ⟨hdesk, hheap⟩ := hold hle
    have := hr.ids d (by rw [← hdesk] at hd; exact hd)
    rwa [← hheap]
  · rintro ⟨hle, hids⟩
    obtain ⟨hdesk, hheap⟩ := hold hle
    refine ⟨_, hload, ?_⟩
    refine ⟨hcount ▸ hrange.1, hcount ▸ hrange.2, fun d hd => ?_, Nat.le_refl 1, hcount ▸ hrange.1,
      persists_of_not_loading rfl⟩
    have := hids d (by rw [← hdesk]; exact hd)
    rwa [← hheap] at this

/-- Loading restores the manager exactly when a configuration is set whose number is in range, or not
positive while the desktops exist already. -/
theorem restored_iff (hn : Numbered s.manager) (hgen : ∀ i, generate i ≠ "") :
    (∃ s', s.load generate = some s' ∧ s'.Restored) ↔ s.Loadable := by
  cases hc : s.config with
  | none =>
    refine iff_of_false ?_ ?_
    · rintro ⟨s', hs, hr⟩
      rw [load, hc] at hs
      obtain rfl := Option.some.inj hs
      exact not_restored_of_loading rfl hr
    · rintro ⟨c, hc', -⟩
      rw [hc] at hc'
      cases hc'
  | some c =>
    have hloadable : s.Loadable ↔ _ := ⟨fun ⟨c', hc', h⟩ => Option.some.inj (hc.symm.trans hc') ▸ h, fun h => ⟨c, hc, h⟩⟩
    rw [hloadable]
    rcases Int.lt_or_le (c.number.getD 1).toInt 1 with h0 | h1
    · rw [restored_iff_of_nonpos hc (by omega)]
      refine ⟨fun h => .inr ⟨by omega, h⟩, fun h => ?_⟩
      rcases h with h | h
      · omega
      · exact h.2
    · by_cases h20 : (c.number.getD 1).toInt ≤ maximum
      · exact iff_of_true (restored_of_range hc hn hgen h1 h20) (.inl ⟨h1, h20⟩)
      · refine iff_of_false ?_ (by omega)
        rintro ⟨s', hs, -⟩
        rw [load_eq_none hc hn (by omega)] at hs
        cases hs

/-- A fresh manager with a configuration that has only a number. -/
def fresh (number : Int32) : Session :=
  ⟨.initial, some ⟨some number, none, fun _ => none, fun _ => none, 0, fun _ _ => rfl⟩, false⟩

theorem fresh_three_restored : ∃ s', (fresh 3).load (fun _ => "id") = some s' ∧ s'.Restored :=
  (restored_iff (.initial _) fun _ => by decide).mpr ⟨_, rfl, .inl (by decide)⟩

/-- Too many desktops, none, and no configuration at all. -/
theorem fresh_not_restored : (fresh 21).load (fun _ => "id") = none ∧
    (¬ ∃ s', (fresh 0).load (fun _ => "id") = some s' ∧ s'.Restored) ∧
    ¬ ∃ s', (⟨.initial, none, false⟩ : Session).load (fun _ => "id") = some s' ∧ s'.Restored := by
  refine ⟨load_eq_none rfl (.initial _) (by decide), ?_, ?_⟩
  · rw [restored_iff_of_nonpos rfl (by decide)]
    exact fun h => absurd h.1 (by decide)
  · rintro ⟨s', hs, hr⟩
    obtain rfl := Option.some.inj hs
    exact not_restored_of_loading rfl hr

end Session

end KWinFT.VirtualDesktops
