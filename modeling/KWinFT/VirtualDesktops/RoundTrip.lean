import KWinFT.VirtualDesktops.Load
import KWinFT.VirtualDesktops.Representation
import Mathlib.Data.List.TakeWhile

/-! Saving and loading again. Every entry that loading reads is one that saving wrote or, for a name
that is the default of its position, deleted; so nothing older shows through. -/
namespace KWinFT.VirtualDesktops
open Lib

/-- The desktops can be told from the file: names and ids are there. -/
def Named (m : VirtualDesktopManager) : Prop :=
  ∀ d ∈ m.desktops, Text (m.heap d).name ∧ (m.heap d).id ≠ ""

namespace VirtualDesktopManager
variable (m : VirtualDesktopManager) (c : Config)

theorem cString_of_text {s : String} (h : Text s) : cString s = s := by
  rw [cString, List.takeWhile_eq_self_iff.mpr, String.ofList_toList]
  intro ch hc
  have hne : ch ≠ '\x00' := fun heq => h.no_nul (heq ▸ hc)
  simpa using hne

section store
variable {m c} {i j : Nat} {d : Address}

/-- One round writes the entries of its own number only. -/
theorem writeDesktop_of_ne (h : j ≠ i) : (m.writeDesktop c i).names j = c.names j ∧
    (m.writeDesktop c i).ids j = c.ids j ∧ (m.writeDesktop c i).number = c.number := by
  have hname (s : String) (c' : Config) (hc : c' = if s ≠ m.defaultName i then c.writeName i (some s)
      else if (c.names i).getD "" ≠ m.defaultName i then c.writeName i none else c) :
      c'.names j = c.names j ∧ c'.ids j = c.ids j ∧ c'.number = c.number := by
    subst hc
    split
    · simp [Config.writeName, h]
    · split
      · simp [Config.writeName, h]
      · exact ⟨rfl, rfl, rfl⟩
  have hc := hname (if m.name i = "" then m.defaultName i else m.name i) _ rfl
  unfold writeDesktop
  dsimp only
  split
  · simpa [Config.writeId, h] using hc
  · exact hc

theorem writeDesktop_number : (m.writeDesktop c i).number = c.number :=
  (writeDesktop_of_ne (Nat.succ_ne_self i)).2.2

/-- The entries of a desktop with a name, however the name was stored before. -/
theorem writeDesktop_self (hd : m.desktops[i]? = some d) (ht : (m.heap d).name ≠ "") :
    ((m.writeDesktop c (i + 1)).names (i + 1)).getD (m.defaultName (i + 1)) = (m.heap d).name ∧
      (m.writeDesktop c (i + 1)).ids (i + 1) = some (m.heap d).id := by
  have hname : m.name (i + 1) = (m.heap d).name := by
    unfold name
    rw [Nat.add_sub_cancel, hd]
  unfold writeDesktop
  rw [Nat.add_sub_cancel, hd, hname, if_neg ht]
  refine ⟨?_, by simp [Config.writeId]⟩
  simp only [Config.writeId]
  by_cases hs : (m.heap d).name = m.defaultName (i + 1)
  · rw [if_neg (not_not.mpr hs), hs]
    split
    · simp [Config.writeName]
    · next hold =>
      cases hc : c.names (i + 1) with
      | none => rfl
      | some old =>
        rw [hc] at hold
        exact not_not.mp hold
  · rw [if_pos hs]
    simp [Config.writeName]

theorem writeDesktops_number (k : Nat) : (m.writeDesktops c k).number = c.number := by
  induction k with
  | zero => rfl
  | succ k ih => rw [writeDesktops, writeDesktop_number, ih]

theorem writeDesktops_entries (hm : Named m) (k : Nat) (hi : i < k) (hd : m.desktops[i]? = some d) :
    ((m.writeDesktops c k).names (i + 1)).getD (m.defaultName (i + 1)) = (m.heap d).name ∧
      (m.writeDesktops c k).ids (i + 1) = some (m.heap d).id := by
  induction k with
  | zero => omega
  | succ k ih =>
    rw [writeDesktops]
    by_cases hik : i = k
    · subst hik
      exact writeDesktop_self hd (hm d (List.mem_of_getElem? hd)).1.ne_empty
    · obtain ⟨hn, hid, -⟩ := writeDesktop_of_ne (m := m) (c := m.writeDesktops c k) (show i + 1 ≠ k + 1 by omega)
      rw [hn, hid]
      exact ih (by omega)

theorem store_number : (m.store c).number = some (Int32.ofNat m.count) := writeDesktops_number m.count

theorem store_rows : (m.store c).rows = some (Int32.ofNat m.rows) := rfl

theorem store_entries (hm : Named m) (hd : m.desktops[i]? = some d) :
    ((m.store c).names (i + 1)).getD (m.defaultName (i + 1)) = (m.heap d).name ∧
      (m.store c).ids (i + 1) = some (m.heap d).id :=
  writeDesktops_entries hm m.count (List.getElem?_eq_some_iff.mp hd).1 hd

end store

end VirtualDesktopManager

/-- Name and id of a desktop, as the user and the session know it. -/
def identity (m : VirtualDesktopManager) (d : Address) : String × String := ((m.heap d).name, (m.heap d).id)

/-- Loading what was saved in the same language gives the same desktops and the same rows. -/
theorem load_store {m : VirtualDesktopManager} (hm : Named m) (hpos : 1 ≤ m.count) (hle : m.count ≤ maximum)
    (hrows : 1 ≤ m.rows ∧ m.rows ≤ m.count) (c : Config) (generate : Nat → String) :
    ∃ s', (⟨.initial m.translation, some (m.store c), false⟩ : Session).load generate = some s' ∧
      s'.manager.desktops.map (identity s'.manager) = m.desktops.map (identity m) ∧
      s'.manager.rows = m.rows := by
  have hn : ((m.store c).number.getD 1).toInt = m.count := by
    rw [VirtualDesktopManager.store_number, Option.getD_some, Int32.toInt_ofNat_of_lt]
    unfold maximum at hle
    omega
  have hr : ((m.store c).rows.getD 2).toInt = m.rows := by
    rw [VirtualDesktopManager.store_rows, Option.getD_some, Int32.toInt_ofNat_of_lt]
    unfold maximum at hle
    omega
  have hcount : m.count = max 1 (min (toUInt m.count) maximum) := by
    unfold toUInt maximum at *
    omega
  -- the fresh manager creates as many desktops, still without ids
  let fresh := VirtualDesktopManager.initial m.translation
  let m₀ := (fresh.setCount (toUInt m.count) fun _ => "").1
  have hm₀ : m₀ = (VirtualDesktopManager.appendDesktops (fun _ => "") m.count fresh).updateLayout.1 := by
    simp only [m₀, VirtualDesktopManager.setCount]
    rw [← hcount, if_neg (show ¬ m.count = fresh.count from Nat.ne_of_gt hpos),
      if_neg (show ¬ m.count < fresh.count from Nat.not_lt_zero _)]
    rfl
  have hlanguage (n : Nat) : m₀.defaultName n = m.defaultName n := by
    unfold VirtualDesktopManager.defaultName
    rw [hm₀, VirtualDesktopManager.updateLayout_translation, VirtualDesktopManager.appendDesktops_translation]
    rfl
  obtain ⟨hdesk, -, hheap⟩ := fresh.appendDesktops_spec (fun _ => "") m.count
  have hat (i : Nat) (hi : i < m.count) : m₀.desktops[i]? = some i ∧ (m₀.heap i).id = "" := by
    rw [hm₀, VirtualDesktopManager.updateLayout_desktops, VirtualDesktopManager.updateLayout_heap, hdesk]
    have := hheap i hi
    simp only [fresh, VirtualDesktopManager.initial, Nat.zero_add] at this ⊢
    rw [this]
    simp [hi]
  have hlen : m₀.count = m.count := (fresh.setCount_spec _ _ hcount).2.2
  obtain ⟨m', hload, hd', -, hh'⟩ := m₀.loadDesktops_spec ((Numbered.initial m.translation).setCount _ _).nodup
    (m.store c) generate (Nat.le_of_eq hlen.symm)
  refine ⟨⟨{ m' with rows := m.rows }, some (m.store c), false⟩, ?_, ?_, rfl⟩
  · simp only [Session.load, hn, hr]
    rw [Int.toNat_natCast]
    have hbound : (max 1 (min (m.count : Int) m.rows)).toNat = m.rows := by omega
    rw [hbound]
    exact congrArg (Option.map _) hload
  · refine List.ext_getElem? fun i => ?_
    simp only [List.getElem?_map, hd']
    by_cases hi : i < m.count
    · obtain ⟨hdi, hid⟩ := hat i hi
      obtain ⟨d, hmd⟩ : ∃ d, m.desktops[i]? = some d := ⟨_, List.getElem?_eq_getElem hi⟩
      obtain ⟨hname, hids⟩ := VirtualDesktopManager.store_entries (c := c) hm hmd
      obtain ⟨htext, hne⟩ := hm d (List.mem_of_getElem? hmd)
      rw [hdi, hmd]
      simp only [Option.map_some, identity, hh' i i hdi, if_pos hi, VirtualDesktopManager.loaded, hlanguage, hid,
        if_true, hids, Option.getD_some, if_neg hne, hname, VirtualDesktopManager.cString_of_text htext]
    · have hle : m.desktops.length ≤ i := Nat.le_of_not_lt hi
      have hle' : m₀.desktops.length ≤ i := by
        have : m₀.desktops.length = m.count := hlen
        omega
      rw [List.getElem?_eq_none hle, List.getElem?_eq_none hle']
      rfl

/-- Requests, and a desktop being renamed. -/
inductive Edit
  | request (op : Op)
  | setName (desktop : Address) (name : String)

def edit (m : VirtualDesktopManager) : Edit → Option VirtualDesktopManager
  | .request op => step m op
  | .setName d name => if d ∈ m.desktops then some (m.setName d name) else none

/-- Without a root window, with names that are texts, and with the ids that are generated. -/
def plainEdit (_ : VirtualDesktopManager) : Edit → Prop
  | .request (.setCount _ ids) => ∀ i, ids i ≠ ""
  | .request (.createVirtualDesktop _ name id) => Text name ∧ id ≠ ""
  | .request (.reportLayout info) => info = none
  | .request _ => True
  | .setName _ name => Text name

/-- What saving relies on. -/
structure Storable (m : VirtualDesktopManager) : Prop extends Kept m where
  rootInfo : m.rootInfo = none
  rows_le : 0 < m.count → m.rows ≤ m.count
  named : Named m

namespace VirtualDesktopManager
variable {m m' : VirtualDesktopManager}

private theorem growLayout_height (n fuel width height : Nat) :
    (growLayout .horizontal n fuel width height).2 = height := by
  induction fuel generalizing width with
  | zero => rfl
  | succ fuel ih =>
    unfold growLayout
    split
    · exact ih _
    · rfl

theorem updateLayout_rows_le (hi : m.rootInfo = none) (hpos : 0 < m.count) (hrows : 0 < m.rows) :
    m.updateLayout.1.rows ≤ m.count := by
  have hmin : 0 < min m.rows m.count := by omega
  have hdiv : 0 < m.count / min m.rows m.count := Nat.div_pos (Nat.min_le_right _ _) hmin
  unfold updateLayout setNETDesktopLayout
  rw [hi]
  dsimp only
  rw [if_neg (Nat.pos_iff_ne_zero.mp hdiv)]
  dsimp only
  rw [if_neg (by omega), if_neg (by omega), growLayout_height]
  dsimp only
  omega

theorem renumber_identity (ds : List Address) (n : Nat) (a : Address) :
    identity (m.renumber ds n) a = identity m a := by
  induction ds generalizing m n with
  | nil => rfl
  | cons d ds ih =>
    rw [renumber, ih]
    by_cases h : a = d
    · simp [identity, setX11DesktopNumber, h]
    · simp [identity, setX11DesktopNumber, h]

end VirtualDesktopManager

/-- The desktops that are left, with the texts they had. -/
theorem Named.mono {m m' : VirtualDesktopManager} (h : Named m) (hd : ∀ d ∈ m'.desktops, d ∈ m.desktops)
    (hi : ∀ d ∈ m'.desktops, identity m' d = identity m d) : Named m' := by
  intro d hmem
  obtain ⟨hn, hid⟩ := Prod.mk.inj (hi d hmem)
  rw [hn, hid]
  exact h d (hd d hmem)

namespace Storable
variable {m m' : VirtualDesktopManager}

theorem initial (translation : Translation) : Storable (.initial translation) where
  toKept := .initial translation
  rootInfo := rfl
  rows_le h := absurd h (Nat.lt_irrefl 0)
  named d hd := by simp [VirtualDesktopManager.initial] at hd

theorem relayout (hk : Kept m.updateLayout.1) (hi : m.rootInfo = none) (hrows : 0 < m.rows) (hn : Named m) :
    Storable m.updateLayout.1 :=
  ⟨hk, hi, fun hpos => VirtualDesktopManager.updateLayout_rows_le hi hpos hrows, hn⟩

theorem of_same (h : Storable m) (hk : Kept m') (hi : m'.rootInfo = none) (hd : m'.desktops = m.desktops)
    (hr : m'.rows = m.rows) (hn : Named m') : Storable m' := by
  have hc : m'.count = m.count := congrArg List.length hd
  exact ⟨hk, hi, fun hpos => by rw [hr, hc]; exact h.rows_le (hc ▸ hpos), hn⟩

theorem setCount (h : Storable m) (n : Nat) {ids : Nat → String} (hids : ∀ i, ids i ≠ "") :
    Storable (m.setCount n ids).1 := by
  have hk := h.toKept.setCount n ids
  unfold VirtualDesktopManager.setCount at hk ⊢
  generalize max 1 (min n maximum) = k at *
  dsimp only at hk ⊢
  by_cases heq : k = m.count
  · rw [if_pos heq]
    exact h
  rw [if_neg heq] at hk ⊢
  by_cases hlt : k < m.count
  · rw [if_pos hlt] at hk ⊢
    cases hcur : m.current with
    | none =>
      simp only [hcur] at hk ⊢
      exact relayout hk h.rootInfo h.rows_pos (h.named.mono (fun d hd => List.mem_of_mem_take hd) fun _ _ => rfl)
    | some old =>
      simp only [hcur] at hk ⊢
      exact relayout hk h.rootInfo h.rows_pos (h.named.mono (fun d hd => List.mem_of_mem_take hd) fun _ _ => rfl)
  · rw [if_neg hlt] at hk ⊢
    obtain ⟨hr, hi, -⟩ := m.appendDesktops_same ids (k - m.count)
    obtain ⟨hd, hold, hnew⟩ := m.appendDesktops_spec ids (k - m.count)
    refine relayout hk (hi.trans h.rootInfo) (hr ▸ h.rows_pos) fun d hmem => ?_
    rw [hd, List.mem_append, List.mem_range'_1] at hmem
    rcases hmem with hmem | ⟨hge, hlt⟩
    · rw [hold d (h.numbered.allocated d hmem)]
      exact h.named d hmem
    · have hat := hnew (d - m.next) (by omega)
      rw [Nat.add_sub_cancel' hge] at hat
      rw [hat]
      exact ⟨m.translation.text _, hids _⟩

theorem createVirtualDesktop (h : Storable m) (position : Nat) {name id : String} (ht : Text name) (hid : id ≠ "") :
    Storable (m.createVirtualDesktop position name id).1 := by
  have hk := h.toKept.createVirtualDesktop position name id
  by_cases hc : m.count = maximum
  · rw [VirtualDesktopManager.createVirtualDesktop, if_pos hc]
    exact h
  · rw [VirtualDesktopManager.createVirtualDesktop, if_neg hc] at hk ⊢
    refine relayout hk ?_ ?_ fun d hd => ?_
    · simpa [VirtualDesktopManager.allocate] using h.rootInfo
    · simpa [VirtualDesktopManager.allocate] using h.rows_pos
    · obtain ⟨hname, hident⟩ := Prod.mk.inj (VirtualDesktopManager.renumber_identity (m := _) _ _ d)
      rw [hname, hident]
      rw [VirtualDesktopManager.renumber_desktops] at hd
      rcases (List.mem_insertIdx (Nat.min_le_right _ _)).mp hd with rfl | hd
      · simpa [VirtualDesktopManager.allocate] using And.intro ht hid
      · have hne : d ≠ m.next := Nat.ne_of_lt (h.numbered.allocated d hd)
        simpa [VirtualDesktopManager.allocate, hne] using h.named d hd

theorem removeVirtualDesktop (h : Storable m) (id : String) {sigs : List Signal}
    (hr : m.removeVirtualDesktop id = some (m', sigs)) : Storable m' := by
  have hk := h.toKept.removeVirtualDesktop id hr
  unfold VirtualDesktopManager.removeVirtualDesktop at hr
  split at hr
  · cases hr; exact h
  split at hr
  · cases hr; exact h
  split at hr
  · cases hr
  dsimp only at hr
  split at hr
  · cases hr
  cases hr
  refine relayout hk ?_ ?_ (h.named.mono (fun d hd => ?_) fun d hd => ?_)
  · simpa [VirtualDesktopManager.removeAt] using h.rootInfo
  · simpa [VirtualDesktopManager.removeAt] using h.rows_pos
  · simp only [VirtualDesktopManager.removeAt_desktops] at hd
    exact List.mem_of_mem_eraseIdx hd
  · exact VirtualDesktopManager.renumber_identity _ _ d

theorem setRows (h : Storable m) (rows : Nat) : Storable (m.setRows rows).1 := by
  have hk := h.toKept.setRows rows
  by_cases hr : rows = 0 ∨ rows > m.count ∨ rows = m.rows
  · rw [VirtualDesktopManager.setRows, if_pos hr]
    exact h
  · rw [VirtualDesktopManager.setRows, if_neg hr] at hk ⊢
    refine relayout hk (by simp [h.rootInfo]) ?_ h.named
    simp only [not_or] at hr
    exact Nat.pos_of_ne_zero hr.1

theorem setCurrentDesktop (h : Storable m) {d : Address} (hd : d ∈ m.desktops) :
    Storable (m.setCurrentDesktop d).1 := by
  have hk := h.toKept.setCurrentDesktop hd
  by_cases hc : m.current = some d
  · rw [VirtualDesktopManager.setCurrentDesktop, if_pos hc]
    exact h
  · rw [VirtualDesktopManager.setCurrentDesktop, if_neg hc] at hk ⊢
    exact h.of_same hk h.rootInfo rfl rfl h.named

theorem setCurrent (h : Storable m) (n : Nat) : Storable (m.setCurrent n).1 := by
  unfold VirtualDesktopManager.setCurrent
  split
  · exact h
  · split
    · next d hd =>
      exact h.setCurrentDesktop (VirtualDesktopManager.mem_of_desktopForX11Id hd)
    · exact h

theorem setName (h : Storable m) (d : Address) {name : String} (ht : Text name) : Storable (m.setName d name) := by
  have hn : Numbered (m.setName d name) := by
    refine ⟨h.numbered.nodup, h.numbered.allocated, fun i e he => ?_, h.numbered.current⟩
    by_cases hed : e = d
    · simpa [VirtualDesktopManager.setName, hed] using h.numbered.number i d (hed ▸ he)
    · simpa [VirtualDesktopManager.setName, hed] using h.numbered.number i e he
  refine h.of_same (h.toKept.of_same hn rfl rfl rfl h.sane) h.rootInfo rfl rfl fun e he => ?_
  by_cases hed : e = d
  · simpa [VirtualDesktopManager.setName, hed] using And.intro ht (h.named d (hed ▸ he)).2
  · simpa [VirtualDesktopManager.setName, hed] using h.named e he

theorem edit (h : Storable m) {e : Edit} (hok : plainEdit m e) (hs : VirtualDesktops.edit m e = some m') :
    Storable m' := by
  cases e with
  | setName d name =>
    simp only [VirtualDesktops.edit] at hs
    split at hs
    · cases hs; exact h.setName d hok
    · cases hs
  | request op =>
    cases op with
    | setCount count ids => cases hs; exact h.setCount count hok
    | createVirtualDesktop position name id => cases hs; exact h.createVirtualDesktop position hok.1 hok.2
    | removeVirtualDesktop id =>
      obtain ⟨⟨m'', sigs⟩, hr, rfl⟩ := Option.map_eq_some_iff.mp hs
      exact h.removeVirtualDesktop id hr
    | setCurrent n => cases hs; exact h.setCurrent n
    | setCurrentDesktop d =>
      simp only [VirtualDesktops.edit, step] at hs
      split at hs
      · next hd => cases hs; exact h.setCurrentDesktop hd
      · cases hs
    | setRows rows => cases hs; exact h.setRows rows
    | updateLayout =>
      have hsane : saneReports m .updateLayout := fun info hi => by cases hi
      have hk := h.toKept.step hsane hs
      simp only [VirtualDesktops.edit, step] at hs
      split at hs
      · cases hs
      · cases hs; exact relayout hk h.rootInfo h.rows_pos h.named
    | reportLayout info =>
      have hsane : saneReports m (.reportLayout info) := fun i hi => by cases hok; cases hi
      have hk := h.toKept.step hsane hs
      cases hs
      exact h.of_same hk hok rfl rfl h.named

end Storable

/-- Whatever the configuration held before, saving and then loading it in a fresh manager gives the same
desktops in the same order, and the same rows. -/
theorem save_load {translation : Translation} {m : VirtualDesktopManager}
    (h : Lib.Reachable edit plainEdit (.initial translation) m) (hpos : 1 ≤ m.count) (c : Config)
    (generate : Nat → String) :
    ∃ s', (⟨.initial m.translation, (⟨m, some c, false⟩ : Session).save.config, false⟩ : Session).load generate =
        some s' ∧
      s'.manager.desktops.map (identity s'.manager) = m.desktops.map (identity m) ∧
      s'.manager.rows = m.rows := by
  have hs : Storable m :=
    Lib.Reachable.invariant h Storable (.initial translation) fun _ _ _ hm hok hs => hm.edit hok hs
  exact load_store hs.named hpos hs.count_le ⟨hs.rows_pos, hs.rows_le hpos⟩ c generate

/-- A configuration with a stale name and entries behind the last desktop. -/
def stale : Config where
  number := some 4
  rows := none
  names i := if i = 1 then some "Mail" else none
  ids i := if i = 3 then some "old" else none
  last := 3
  ids_last i hi := if_neg (by omega)

/-- Two desktops, the second renamed. -/
def renamed : VirtualDesktopManager :=
  (VirtualDesktopManager.initial.setCount 2 fun i => toString i).1.setName 1 "Web"

theorem renamed_save_load : 1 ≤ renamed.count ∧
    ∃ s', (⟨.initial, (⟨renamed, some stale, false⟩ : Session).save.config, false⟩ : Session).load (fun _ => "new") =
        some s' ∧
      s'.manager.desktops.map (identity s'.manager) = renamed.desktops.map (identity renamed) ∧
      s'.manager.rows = renamed.rows := by
  refine ⟨by decide, save_load (.step (.setName 1 "Web") (.step (.request (.setCount 2 fun i => toString i)) .init
    ?_ rfl) ⟨by decide, by decide⟩ rfl) (by decide) stale _⟩
  exact fun i => Nat.repr_ne_empty

end KWinFT.VirtualDesktops
