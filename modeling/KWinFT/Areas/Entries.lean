import Mathlib.Data.List.Basic
import KWinFT.Areas.Update
import KWinFT.Lib.Runs

/-! What an update leaves for each desktop: the windows that narrow it, applied one after the other to the whole
screens. -/
namespace KWinFT.Areas
open KWinFT.Geometry

/-- The windows whose struts an update applies to desktop `d`. -/
def Narrows (desktops : List Nat) (d : Nat) : Prop := desktops = [] ∨ lastDesktop desktops = d

instance (desktops : List Nat) (d : Nat) : Decidable (Narrows desktops d) := inferInstanceAs (Decidable (_ ∨ _))

section entries
variable {scr : Screens} {cur : Current} {a a' : ClientAreas} {n d : Nat}

/-- An X11 window narrows with the screen that its middle is on. -/
def X11Window.narrowOwn (scr : Screens) (w : X11Window) : DesktopArea → DesktopArea :=
  w.narrow scr (scr.geometry w.centerScreen)

/-- All windows applied to one desktop. -/
def areaOf (scr : Screens) (x11 : List X11Window) (wayland : List WaylandWindow) : DesktopArea :=
  wayland.foldl (fun d w => w.narrow scr d) (x11.foldl (fun d w => w.narrowOwn scr d) (fullArea scr))

theorem entry_eq_some {α : Type} {v : List α} {i : Nat} {x : α} : entry v i = some x ↔ v[i]? = some x := by
  rw [entry, if_pos (Int.natCast_nonneg i), Int.toNat_natCast]

/-- All entries past the unused one change, or one of them. -/
private theorem narrowDesktops_spec {f : DesktopArea → DesktopArea} {desktops : List Nat} {new new' : List DesktopArea}
    (h : narrowDesktops f desktops new = some new') : new'.length = new.length ∧
      ∀ d, 1 ≤ d → new'[d]? = (new[d]?).map fun x => if Narrows desktops d then f x else x := by
  unfold narrowDesktops at h
  split at h
  · next he =>
    cases h
    cases new with
    | nil => simp
    | cons x new =>
      refine ⟨by simp, fun d hd => ?_⟩
      obtain ⟨d, rfl⟩ := Nat.exists_eq_add_of_le' hd
      simp [Narrows, he]
  · next he =>
    split at h
    · cases h
      refine ⟨List.length_modify .., fun d _ => ?_⟩
      rw [List.getElem?_modify]
      simp only [Narrows, he, false_or]
      rfl
    · cases h

private theorem clientArea_screenArea {screen : Nat} {desktop : Int} {r : Rect}
    (h : clientArea scr cur a .screenArea screen desktop = some r) : r = scr.geometry screen := by
  simp only [clientArea, Option.bind_eq_bind, Option.bind_eq_some_iff] at h
  obtain ⟨_, _, _, _, h⟩ := h
  cases h
  rfl

private theorem addX11_spec {new new' : List DesktopArea} {w : X11Window} (h : addX11 scr cur a new w = some new') :
    new'.length = new.length ∧ ∀ d, 1 ≤ d → new'[d]? =
      (new[d]?).map fun x => if w.hasStrut scr ∧ Narrows w.desktops d then w.narrowOwn scr x else x := by
  unfold addX11 at h
  split at h
  · next hs =>
    obtain ⟨r, hr, h⟩ := Option.bind_eq_some_iff.mp h
    cases clientArea_screenArea hr
    simpa only [hs, true_and, X11Window.narrowOwn] using narrowDesktops_spec h
  · next hs =>
    cases h
    simp [hs]

private theorem addWayland_spec {new new' : List DesktopArea} {w : WaylandWindow} (h : addWayland scr new w = some new') :
    new'.length = new.length ∧ ∀ d, 1 ≤ d → new'[d]? =
      (new[d]?).map fun x => if w.hasStrut ∧ Narrows w.desktops d then w.narrow scr x else x := by
  unfold addWayland at h
  split at h
  · next hs => simpa only [hs, true_and] using narrowDesktops_spec h
  · next hs =>
    cases h
    simp [hs]

/-- A fold of such steps acts on each entry as the fold of the windows that narrow it. -/
private theorem foldlM_spec {ω : Type} {step : List DesktopArea → ω → Option (List DesktopArea)}
    (acts : ω → Nat → Bool) (f : ω → DesktopArea → DesktopArea)
    (hstep : ∀ new new' w, step new w = some new' → new'.length = new.length ∧
      ∀ d, 1 ≤ d → new'[d]? = (new[d]?).map fun x => if acts w d then f w x else x)
    (ws : List ω) {new new' : List DesktopArea} (h : ws.foldlM step new = some new') : new'.length = new.length ∧
      ∀ d, 1 ≤ d → new'[d]? = (new[d]?).map fun x => (ws.filter (acts · d)).foldl (fun x w => f w x) x := by
  induction ws generalizing new with
  | nil =>
    cases h
    simp
  | cons w ws ih =>
    rw [List.foldlM_cons] at h
    obtain ⟨new₁, h₁, h⟩ := Option.bind_eq_some_iff.mp h
    obtain ⟨hlen₁, hget₁⟩ := hstep new new₁ w h₁
    obtain ⟨hlen, hget⟩ := ih h
    refine ⟨hlen.trans hlen₁, fun d hd => ?_⟩
    rw [hget d hd, hget₁ d hd, Option.map_map, List.filter_cons]
    congr 1
    funext x
    by_cases ha : acts w d <;> simp [ha]

variable {x11 : List X11Window} {wayland : List WaylandWindow}

/-- The windows with struts that an update applies to desktop `d`. -/
def x11On (scr : Screens) (x11 : List X11Window) (d : Nat) : List X11Window :=
  x11.filter fun w => w.hasStrut scr ∧ Narrows w.desktops d

def waylandOn (wayland : List WaylandWindow) (d : Nat) : List WaylandWindow :=
  wayland.filter fun w => w.hasStrut ∧ Narrows w.desktops d

theorem newAreas_spec {new : List DesktopArea} (h : newAreas scr n cur x11 wayland a = some new) :
    new.length = n + 1 ∧ ∀ d, 1 ≤ d → d ≤ n → new[d]? = some (areaOf scr (x11On scr x11 d) (waylandOn wayland d)) := by
  obtain ⟨new₁, h₁, h⟩ := Option.bind_eq_some_iff.mp h
  obtain ⟨hlen₁, hget₁⟩ := foldlM_spec (fun w d => w.hasStrut scr ∧ Narrows w.desktops d)
    (fun w => w.narrowOwn scr) (fun new new' w h => by simpa using addX11_spec h) x11 h₁
  obtain ⟨hlen, hget⟩ := foldlM_spec (fun w d => w.hasStrut ∧ Narrows w.desktops d)
    (fun w => w.narrow scr) (fun new new' w h => by simpa using addWayland_spec h) wayland h
  refine ⟨by rw [hlen, hlen₁]; simp [initialAreas], fun d hd hdn => ?_⟩
  obtain ⟨d, rfl⟩ := Nat.exists_eq_add_of_le' hd
  have hinit : (initialAreas scr n)[d + 1]? = some (fullArea scr) := by
    rw [initialAreas, List.getElem?_cons_succ, List.getElem?_replicate, if_pos (by omega)]
  rw [hget _ hd, hget₁ _ hd, hinit]
  rfl

/-- The areas have entries for `n` desktops. -/
structure Fits (n : Nat) (a : ClientAreas) : Prop where
  workarea : n < a.workarea.length
  restrictedmovearea : n < a.restrictedmovearea.length
  screenarea : a.screenarea = [] ∨ n < a.screenarea.length

/-- The entries of one desktop, struts by their rectangles. -/
structure ClientAreas.At (a : ClientAreas) (d : Nat) (x : DesktopArea) : Prop where
  workarea : a.workarea[d]? = some x.work
  restrictedmovearea : ∃ restricted, a.restrictedmovearea[d]? = some restricted ∧ sameRects restricted x.restricted
  screenarea : a.screenarea[d]? = some x.screens

theorem sameRects_refl (s : List StrutRect) : sameRects s s := decide_eq_true rfl

private theorem at_ofNew {new : List DesktopArea} {x : DesktopArea} (h : new[d]? = some x) :
    (ClientAreas.ofNew new).At d x := by
  refine ⟨?_, ⟨x.restricted, ?_, sameRects_refl _⟩, ?_⟩ <;> simp [ClientAreas.ofNew, h]

private theorem changedFrom_false {i : Nat} {ds : List DesktopArea} (h : changedFrom a i ds = some false) {k : Nat}
    {x : DesktopArea} (hx : ds[k]? = some x) : a.At (i + k) x := by
  induction ds generalizing i k with
  | nil => simp at hx
  | cons y ds ih =>
    simp only [changedFrom, Option.bind_eq_bind, Option.bind_eq_some_iff, entry_eq_some] at h
    obtain ⟨work, hwork, restricted, hrestricted, screens, hscreens, h⟩ := h
    split at h
    · next heq =>
      obtain ⟨rfl, hsame, rfl⟩ := heq
      cases k with
      | zero =>
        cases hx
        exact ⟨hwork, ⟨restricted, hrestricted, hsame⟩, hscreens⟩
      | succ k =>
        have hat := ih h (k := k) hx
        rwa [Nat.add_assoc, Nat.add_comm 1 k] at hat
    · cases h

/-- Changed or not, the areas of each desktop are what its windows leave. -/
theorem updateClientArea_at {force : Bool} (h : updateClientArea scr n cur x11 wayland force a = some a') (hd : 1 ≤ d)
    (hdn : d ≤ n) : a'.At d (areaOf scr (x11On scr x11 d) (waylandOn wayland d)) := by
  obtain ⟨new, hnew, h⟩ := Option.bind_eq_some_iff.mp h
  have hx := (newAreas_spec hnew).2 d hd hdn
  split at h
  · cases h
    exact at_ofNew hx
  · obtain ⟨changed, hchanged, h⟩ := Option.bind_eq_some_iff.mp h
    cases h
    cases changed with
    | true => exact at_ofNew hx
    | false =>
      obtain ⟨k, rfl⟩ := Nat.exists_eq_add_of_le hd
      exact changedFrom_false hchanged (by rwa [List.getElem?_drop])

/-- Areas that are set anew have the edges of the struts too. -/
theorem updateClientArea_restricted {force : Bool} (h : updateClientArea scr n cur x11 wayland force a = some a')
    (hnew : force ∨ a.screenarea = []) (hd : 1 ≤ d) (hdn : d ≤ n) :
    a'.restrictedmovearea[d]? = some (areaOf scr (x11On scr x11 d) (waylandOn wayland d)).restricted := by
  obtain ⟨new, hareas, h⟩ := Option.bind_eq_some_iff.mp h
  rw [if_pos hnew] at h
  cases h
  simp [ClientAreas.ofNew, (newAreas_spec hareas).2 d hd hdn]

/-! The update runs through when all entries it needs are there. -/

theorem entry_isSome {α : Type} {v : List α} {i : Nat} (h : i < v.length) : ∃ x, entry v i = some x := by
  exact ⟨v[i], entry_eq_some.mpr (List.getElem?_eq_getElem h)⟩

/-- The desktops whose areas are read for a window: all, or a number that is in use. -/
def Existing (n : Nat) (desktops : List Nat) : Prop := ∀ d ∈ desktops, 1 ≤ d ∧ d ≤ n

theorem desktopOf_le {desktops : List Nat} (h : ∀ d ∈ desktops, d ≤ n) : desktopOf desktops ≤ n := by
  unfold desktopOf
  split
  · omega
  · next hne =>
    rw [Areas.lastDesktop, List.getLastD_eq_getLast?, List.getLast?_eq_getLast_of_ne_nil hne]
    exact Int.ofNat_le.mpr (h _ (List.getLast_mem hne))

/-- The number of a desktop, or of all. -/
theorem desktopOf_cases (desktops : List Nat) : desktopOf desktops = -1 ∨ 0 ≤ desktopOf desktops := by
  unfold desktopOf
  split
  · exact .inl rfl
  · exact .inr (Int.natCast_nonneg _)

/-- The desktop that is meant has an entry. -/
theorem Current.resolve_eq (hcur : cur.desktop ≤ n) {desktop : Int} (hd : desktop = -1 ∨ 0 ≤ desktop) (hn : desktop ≤ n) :
    ∃ k : Nat, cur.resolve desktop = k ∧ k ≤ n := by
  unfold Current.resolve
  split
  · exact ⟨cur.desktop, rfl, hcur⟩
  · exact ⟨desktop.toNat, by omega, by omega⟩

theorem clientArea_isSome (hf : Fits n a) (hcur : cur.desktop ≤ n) (opt : ClientAreaOption) (screen : Int) {desktop : Int}
    (hd : desktop = -1 ∨ 0 ≤ desktop) (hn : desktop ≤ n) : ∃ r, clientArea scr cur a opt screen desktop = some r := by
  obtain ⟨k, hk, hkn⟩ := Current.resolve_eq hcur hd hn
  obtain ⟨work, hwork⟩ := entry_isSome (Nat.lt_of_le_of_lt hkn hf.workarea)
  simp only [clientArea, hk, hwork, Option.bind_eq_bind, Option.bind_some]
  split
  · exact ⟨_, rfl⟩
  · next hne =>
    obtain ⟨row, hrow⟩ := entry_isSome (Nat.lt_of_le_of_lt hkn (hf.screenarea.resolve_left hne))
    rw [hrow]
    exact ⟨_, rfl⟩

theorem restrictedMoveArea_isSome (hf : Fits n a) (hcur : cur.desktop ≤ n) {desktop : Int}
    (hd : desktop = -1 ∨ 0 ≤ desktop) (hn : desktop ≤ n) : ∃ r, restrictedMoveArea cur a desktop = some r := by
  obtain ⟨k, hk, hkn⟩ := Current.resolve_eq hcur hd hn
  rw [restrictedMoveArea, hk]
  exact entry_isSome (Nat.lt_of_le_of_lt hkn hf.restrictedmovearea)

private theorem narrowDesktops_isSome {f : DesktopArea → DesktopArea} {desktops : List Nat} {new : List DesktopArea}
    (hlen : new.length = n + 1) (hd : desktopOf desktops ≤ n) :
    ∃ new', narrowDesktops f desktops new = some new' ∧ new'.length = n + 1 := by
  have hsome : ∃ new', narrowDesktops f desktops new = some new' := by
    unfold narrowDesktops
    split
    · exact ⟨_, rfl⟩
    · next hne =>
      rw [desktopOf, if_neg hne] at hd
      rw [if_pos (by omega)]
      exact ⟨_, rfl⟩
  obtain ⟨new', h⟩ := hsome
  exact ⟨new', h, (narrowDesktops_spec h).1.trans hlen⟩

private theorem addX11_isSome (hf : Fits n a) (hcur : cur.desktop ≤ n) {new : List DesktopArea} (hlen : new.length = n + 1)
    {w : X11Window} (hw : w.hasStrut scr → desktopOf w.desktops ≤ n) :
    ∃ new', addX11 scr cur a new w = some new' ∧ new'.length = n + 1 := by
  unfold addX11
  split
  · next hs =>
    obtain ⟨r, hr⟩ : ∃ r, clientArea scr cur a .screenArea w.centerScreen (desktopOf w.desktops) = some r :=
      clientArea_isSome hf hcur .screenArea w.centerScreen (desktopOf_cases w.desktops) (hw hs)
    rw [hr]
    exact narrowDesktops_isSome hlen (hw hs)
  · exact ⟨new, rfl, hlen⟩

private theorem addWayland_isSome {new : List DesktopArea} (hlen : new.length = n + 1) {w : WaylandWindow}
    (hw : w.hasStrut → desktopOf w.desktops ≤ n) : ∃ new', addWayland scr new w = some new' ∧ new'.length = n + 1 := by
  unfold addWayland
  split
  · next hs => exact narrowDesktops_isSome hlen (hw hs)
  · exact ⟨new, rfl, hlen⟩

/-- Only windows with struts have an entry read. -/
theorem newAreas_isSome (hf : Fits n a) (hcur : cur.desktop ≤ n) (hx : ∀ w ∈ x11, w.hasStrut scr → desktopOf w.desktops ≤ n)
    (hw : ∀ w ∈ wayland, w.hasStrut → desktopOf w.desktops ≤ n) :
    ∃ new, newAreas scr n cur x11 wayland a = some new := by
  have hinit : (initialAreas scr n).length = n + 1 := by simp [initialAreas]
  obtain ⟨new₁, h₁, hlen₁⟩ := Lib.foldlM_loop x11 (fun _ (new : List DesktopArea) => new.length = n + 1)
    (fun done w todo new hws hlen => addX11_isSome hf hcur hlen (hx w (by simp [hws]))) hinit
  obtain ⟨new, h, hlen⟩ := Lib.foldlM_loop wayland (fun _ (new : List DesktopArea) => new.length = n + 1)
    (fun done w todo new hws hlen => addWayland_isSome hlen (hw w (by simp [hws]))) hlen₁
  refine ⟨new, ?_⟩
  unfold newAreas
  rw [h₁]
  exact h

theorem changedFrom_isSome (hf : Fits n a) (hne : a.screenarea ≠ []) (i : Nat) (ds : List DesktopArea)
    (hi : i + ds.length ≤ n + 1) : ∃ changed, changedFrom a i ds = some changed := by
  induction ds generalizing i with
  | nil => exact ⟨false, rfl⟩
  | cons x ds ih =>
    rw [List.length_cons] at hi
    have hin : i ≤ n := by omega
    obtain ⟨work, hwork⟩ := entry_isSome (Nat.lt_of_le_of_lt hin hf.workarea)
    obtain ⟨restricted, hrestricted⟩ := entry_isSome (Nat.lt_of_le_of_lt hin hf.restrictedmovearea)
    obtain ⟨screens, hscreens⟩ := entry_isSome (Nat.lt_of_le_of_lt hin (hf.screenarea.resolve_left hne))
    simp only [changedFrom, hwork, hrestricted, hscreens, Option.bind_eq_bind, Option.bind_some]
    split
    · exact ih (i + 1) (by omega)
    · exact ⟨true, rfl⟩

/-- Nothing differs from entries that are the same. -/
theorem changedFrom_eq_false {i : Nat} {ds : List DesktopArea} (h : ∀ k x, ds[k]? = some x → a.At (i + k) x) :
    changedFrom a i ds = some false := by
  induction ds generalizing i with
  | nil => rfl
  | cons x ds ih =>
    obtain ⟨hwork, ⟨restricted, hrestricted, hsame⟩, hscreens⟩ : a.At i x := h 0 x rfl
    simp only [changedFrom, entry_eq_some.mpr hwork, entry_eq_some.mpr hrestricted, entry_eq_some.mpr hscreens,
      Option.bind_eq_bind, Option.bind_some, hsame, and_self, if_true]
    refine ih fun k y hy => ?_
    have hat := h (k + 1) y hy
    rwa [Nat.add_comm k 1, ← Nat.add_assoc] at hat

theorem updateClientArea_isSome (hf : Fits n a) (hcur : cur.desktop ≤ n) (hx : ∀ w ∈ x11, Existing n w.desktops)
    (hw : ∀ w ∈ wayland, Existing n w.desktops) (force : Bool) :
    ∃ a', updateClientArea scr n cur x11 wayland force a = some a' := by
  obtain ⟨new, hnew⟩ : ∃ new, newAreas scr n cur x11 wayland a = some new :=
    newAreas_isSome hf hcur (fun w h _ => desktopOf_le fun d hd => (hx w h d hd).2)
      fun w h _ => desktopOf_le fun d hd => (hw w h d hd).2
  have hlen := (newAreas_spec hnew).1
  unfold updateClientArea
  rw [hnew]
  dsimp only [Option.bind_eq_bind, Option.bind_some]
  split
  · exact ⟨_, rfl⟩
  · next hne =>
    obtain ⟨changed, hc⟩ := changedFrom_isSome hf (fun he => hne (.inr he)) 1 (new.drop 1)
      (by rw [List.length_drop]; omega)
    rw [hc]
    exact ⟨_, rfl⟩

/-- An update leaves entries for all desktops. -/
theorem Fits.updateClientArea {force : Bool} (hf : Fits n a)
    (h : updateClientArea scr n cur x11 wayland force a = some a') : Fits n a' := by
  obtain ⟨new, hnew, h⟩ := Option.bind_eq_some_iff.mp h
  have hlen := (newAreas_spec hnew).1
  have hofNew : Fits n (.ofNew new) := by
    constructor <;> simp [ClientAreas.ofNew, hlen]
  split at h
  · cases h
    exact hofNew
  · obtain ⟨changed, -, h⟩ := Option.bind_eq_some_iff.mp h
    cases h
    cases changed with
    | true => exact hofNew
    | false => exact hf

end entries

end KWinFT.Areas
