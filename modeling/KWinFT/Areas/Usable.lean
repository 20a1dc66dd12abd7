import KWinFT.Areas.Entries
import KWinFT.Geometry.Points

/-! Whether an update leaves part of every screen. X11 struts that would take the rest of a screen are ignored; panels
of Wayland clients are not checked, and two of them may take it together. -/
namespace KWinFT.Areas
open KWinFT.Geometry

/-- The areas that windows are placed and maximized in. -/
structure Usable (scr : Screens) (cur : Current) (n : Nat) (a : ClientAreas) : Prop where
  screenarea : ∀ d, 1 ≤ d → d ≤ n → ∀ (s : Nat) (g : Rect), scr.geometries[s]? = some g →
    ∃ (row : List Rect) (r : Rect), a.screenarea[d]? = some row ∧ row[s]? = some r ∧ ¬ r.isEmpty ∧
      g.left ≤ r.left ∧ g.top ≤ r.top ∧ r.right ≤ g.right ∧ r.bottom ≤ g.bottom
  clientArea : ∀ opt, opt = ClientAreaOption.placementArea ∨ opt = .maximizeArea →
    ∀ desktop : Int, desktop = -1 ∨ (0 ≤ desktop ∧ desktop ≤ n) → ∀ s < scr.count,
      ∃ r, clientArea scr cur a opt s desktop = some r ∧ r.isValid

/-! What struts leave as sets of points. -/

open Classical in
/-- Only the part in `Q` stays, unless that is nothing. -/
noncomputable def clip (P Q : Set Point) : Set Point := if (P ∩ Q).Nonempty then P ∩ Q else P

/-- What the X11 windows leave of a screen. -/
noncomputable def leftOver (scr : Screens) (x11 : List X11Window) (geometry : Rect) : Set Point :=
  x11.foldl (fun P w => clip P (w.adjustedClientArea scr (scr.geometry w.centerScreen) geometry).points)
    geometry.points

/-- On every screen, any two panels of a desktop leave a common part of what X11 struts leave. -/
def LeaveRoom (scr : Screens) (x11 : List X11Window) (wayland : List WaylandWindow) : Prop :=
  ∀ g ∈ scr.geometries, ∀ p ∈ wayland, ∀ q ∈ wayland,
    (leftOver scr x11 g ∩ ((p.remainder g).points ∩ (q.remainder g).points)).Nonempty

section screens
variable {scr : Screens}

def X11Window.screenAfter (scr : Screens) (x11 : List X11Window) (geometry : Rect) : Rect :=
  x11.foldl (fun area w => w.narrowScreen scr (scr.geometry w.centerScreen) area geometry) geometry

def WaylandWindow.screenAfter (wayland : List WaylandWindow) (area geometry : Rect) : Rect :=
  wayland.foldl (fun area w => area.intersected (w.remainder geometry)) area

private theorem foldl_screens {ω : Type} (f : ω → DesktopArea → DesktopArea) (step : ω → Rect → Rect → Rect)
    (hf : ∀ w d, (f w d).screens = List.zipWith (step w) d.screens scr.geometries) (ws : List ω) (F : Rect → Rect)
    {d : DesktopArea} (hd : d.screens = scr.geometries.map F) : (ws.foldl (fun d w => f w d) d).screens =
      scr.geometries.map fun g => ws.foldl (fun area w => step w area g) (F g) := by
  induction ws generalizing F d with
  | nil => exact hd
  | cons w ws ih =>
    refine ih (fun g => step w (F g) g) ?_
    rw [hf, hd, List.zipWith_map_left, List.zipWith_self]

/-- Each screen is narrowed on its own. -/
theorem areaOf_screens (scr : Screens) (x11 : List X11Window) (wayland : List WaylandWindow) :
    (areaOf scr x11 wayland).screens =
      scr.geometries.map fun g => WaylandWindow.screenAfter wayland (X11Window.screenAfter scr x11 g) g := by
  refine foldl_screens (fun w => w.narrow scr) (fun w area g => area.intersected (w.remainder g)) (fun _ _ => rfl)
    wayland (X11Window.screenAfter scr x11) ?_
  refine foldl_screens (fun w => w.narrowOwn scr) (fun w => w.narrowScreen scr (scr.geometry w.centerScreen))
    (fun _ _ => rfl) x11 id ?_
  rw [List.map_id]
  rfl

private theorem narrowScreen_points (w : X11Window) (screenArea area geometry : Rect) :
    (w.narrowScreen scr screenArea area geometry).points =
      clip area.points (w.adjustedClientArea scr screenArea geometry).points := by
  have hpoints := (Rect.upright_intersected area (w.adjustedClientArea scr screenArea geometry)).nonempty_points
  rw [Rect.points_intersected] at hpoints
  unfold X11Window.narrowScreen clip
  dsimp only
  split
  · next h => rw [if_neg (by rw [hpoints, not_not]; exact h)]
  · next h => rw [if_pos (hpoints.mpr h), Rect.points_intersected]

private theorem x11_points (x11 : List X11Window) (geometry : Rect) :
    (X11Window.screenAfter scr x11 geometry).points = leftOver scr x11 geometry :=
  (List.foldl_hom Rect.points fun area w => (narrowScreen_points w _ area geometry).symm).symm

private theorem wayland_points (wayland : List WaylandWindow) (area geometry : Rect) :
    (WaylandWindow.screenAfter wayland area geometry).points =
      {p ∈ area.points | ∀ w ∈ wayland, p ∈ (w.remainder geometry).points} := by
  unfold WaylandWindow.screenAfter
  induction wayland generalizing area with
  | nil => simp
  | cons w wayland ih =>
    rw [List.foldl_cons, ih, Rect.points_intersected]
    ext p
    simp [and_assoc]

/-- X11 struts leave part of a screen. -/
private theorem x11_not_isEmpty (scr : Screens) {g : Rect} (hg : ¬ g.isEmpty) (x11 : List X11Window) :
    ¬ (X11Window.screenAfter scr x11 g).isEmpty := by
  refine Lib.foldl_preserves (P := fun area : Rect => ¬ area.isEmpty) x11 (fun area w _ harea => ?_) hg
  unfold X11Window.narrowScreen
  dsimp only
  split
  · exact harea
  · assumption

private theorem clip_subset (P Q : Set Point) : clip P Q ⊆ P := by
  unfold clip
  split
  · exact Set.inter_subset_left
  · exact subset_rfl

private theorem leftOver_subset (x11 : List X11Window) (g : Rect) : leftOver scr x11 g ⊆ g.points :=
  Lib.foldl_preserves (P := (· ⊆ g.points)) x11 (fun _ _ _ h => (clip_subset _ _).trans h) subset_rfl

private theorem wayland_upright {area : Rect} (h : area.Upright) (wayland : List WaylandWindow) (g : Rect) :
    (WaylandWindow.screenAfter wayland area g).Upright :=
  Lib.foldl_preserves wayland (fun area _ _ _ => Rect.upright_intersected area _) h

section one
variable {g : Rect} (hg : ¬ g.isEmpty) (x11 : List X11Window) (wayland : List WaylandWindow)
include hg

/-- The rectangles left of one screen have a point iff they do in pairs. -/
private theorem screen_not_isEmpty_iff :
    ¬ (WaylandWindow.screenAfter wayland (X11Window.screenAfter scr x11 g) g).isEmpty ↔ ∀ p ∈ wayland, ∀ q ∈ wayland,
      (leftOver scr x11 g ∩ ((p.remainder g).points ∩ (q.remainder g).points)).Nonempty := by
  have hup := Rect.upright_of_not_isEmpty (x11_not_isEmpty scr hg x11)
  rw [← (wayland_upright hup wayland g).nonempty_points, wayland_points]
  cases wayland with
  | nil => simpa using hup.nonempty_points.mpr (x11_not_isEmpty scr hg x11)
  | cons w ws =>
    have hcommon := Rect.exists_common_point
      ((w :: ws).map fun w => (X11Window.screenAfter scr x11 g).intersected (w.remainder g)) (by simp)
    simp only [List.forall_mem_map, Rect.points_intersected, x11_points] at hcommon ⊢
    constructor
    · rintro ⟨p, hp, hws⟩ u hu v hv
      exact ⟨p, hp, hws u hu, hws v hv⟩
    · intro h
      obtain ⟨p, hp⟩ := hcommon.mpr fun u hu v hv => by
        rw [← Set.inter_inter_distrib_left]
        exact h u hu v hv
      exact ⟨p, (hp w List.mem_cons_self).1, fun u hu => (hp u hu).2⟩

private theorem screen_within {r : Rect}
    (hr : r = WaylandWindow.screenAfter wayland (X11Window.screenAfter scr x11 g) g) (hne : ¬ r.isEmpty) :
    g.left ≤ r.left ∧ g.top ≤ r.top ∧ r.right ≤ g.right ∧ r.bottom ≤ g.bottom := by
  have hsub : r.points ⊆ g.points := by
    rw [hr, wayland_points, x11_points]
    exact fun p hp => leftOver_subset x11 g hp.1
  exact Rect.within_of_points_subset hne hg hsub

end one

end screens

section usable
variable {scr : Screens} {cur : Current} {n : Nat} {a : ClientAreas}

/-- Zero and all desktops stand for the current one, which exists. -/
private theorem resolve_mem (hcur : 1 ≤ cur.desktop) (hcurn : cur.desktop ≤ n) {desktop : Int}
    (hd : desktop = -1 ∨ (0 ≤ desktop ∧ desktop ≤ n)) : ∃ d : Nat, cur.resolve desktop = d ∧ 1 ≤ d ∧ d ≤ n := by
  unfold Current.resolve
  split
  · exact ⟨cur.desktop, rfl, hcur, hcurn⟩
  · exact ⟨desktop.toNat, by omega, by omega, by omega⟩

private theorem clientArea_at {x : DesktopArea} {d s : Nat} {desktop : Int} {r : Rect} {opt : ClientAreaOption}
    (ha : a.At d x) (hd : cur.resolve desktop = d) (hr : x.screens[s]? = some r)
    (hopt : opt = .placementArea ∨ opt = .maximizeArea) : clientArea scr cur a opt s desktop = some r := by
  have hne : a.screenarea ≠ [] := by
    intro he
    simpa [he] using ha.screenarea
  have hs : ¬ (s : Int) = -1 := by omega
  simp only [clientArea, hd, if_neg hne, if_neg hs, Int.toNat_natCast, entry_eq_some.mpr ha.screenarea,
    entry_eq_some.mpr ha.workarea, Option.bind_eq_bind, Option.bind_some, List.getD_eq_getElem?_getD, hr]
  rcases hopt with rfl | rfl <;> rfl

/-- The areas of a screen can be used iff no one or two panels of a desktop take the rest of it. -/
theorem usable_iff_leaveRoom (x11 : List X11Window) (wayland : List WaylandWindow) (force : Bool)
    (hscr : ∀ g ∈ scr.geometries, ¬ g.isEmpty) (hcur : 1 ≤ cur.desktop) (hcurn : cur.desktop ≤ n) :
    (∀ a', updateClientArea scr n cur x11 wayland force a = some a' → (Usable scr cur n a' ↔
      ∀ d, 1 ≤ d → d ≤ n → LeaveRoom scr (x11On scr x11 d) (waylandOn wayland d))) ∧
    (Fits n a → (∀ w ∈ x11, Existing n w.desktops) → (∀ w ∈ wayland, Existing n w.desktops) →
      ∃ a', updateClientArea scr n cur x11 wayland force a = some a') := by
  refine ⟨fun a' h => ?_, fun hf hx hw => updateClientArea_isSome hf hcurn hx hw force⟩
  have hat := fun d hd hdn => updateClientArea_at h (d := d) hd hdn
  constructor
  · intro hu d hd hdn g hg
    obtain ⟨s, hs⟩ := List.mem_iff_getElem?.mp hg
    obtain ⟨row, r, hrow, hr, hne, -⟩ := hu.screenarea d hd hdn s g hs
    cases (hat d hd hdn).screenarea.symm.trans hrow
    rw [areaOf_screens, List.getElem?_map, hs] at hr
    cases hr
    exact (screen_not_isEmpty_iff (hscr g hg) _ _).mp hne
  · intro hroom
    have hscreen (d : Nat) (hd : 1 ≤ d) (hdn : d ≤ n) (s : Nat) (g : Rect) (hs : scr.geometries[s]? = some g) :
        ∃ r : Rect, (areaOf scr (x11On scr x11 d) (waylandOn wayland d)).screens[s]? = some r ∧ ¬ r.isEmpty ∧
          g.left ≤ r.left ∧ g.top ≤ r.top ∧ r.right ≤ g.right ∧ r.bottom ≤ g.bottom := by
      have hg := List.mem_of_getElem? hs
      have hne := (screen_not_isEmpty_iff (hscr g hg) (x11On scr x11 d) (waylandOn wayland d)).mpr
        (hroom d hd hdn g hg)
      refine ⟨_, ?_, hne, screen_within (hscr g hg) _ _ rfl hne⟩
      rw [areaOf_screens, List.getElem?_map, hs]
      rfl
    refine ⟨fun d hd hdn s g hs => ?_, fun opt hopt desktop hdesktop s hs => ?_⟩
    · obtain ⟨r, hr, hin⟩ := hscreen d hd hdn s g hs
      exact ⟨_, r, (hat d hd hdn).screenarea, hr, hin⟩
    · obtain ⟨d, hres, hd, hdn⟩ := resolve_mem hcur hcurn hdesktop
      obtain ⟨r, hr, hne, -⟩ := hscreen d hd hdn s _ (List.getElem?_eq_getElem hs)
      refine ⟨r, clientArea_at (hat d hd hdn) hres hr hopt, ?_⟩
      unfold Rect.isEmpty at hne
      exact ⟨by omega, by omega⟩

/-! One screen with panels at its sides. -/

private def oneScreen : Screens := ⟨[⟨0, 0, 99, 99⟩]⟩

private def leftPanel : WaylandWindow := ⟨true, ⟨0, 0, 59, 99⟩, 0, []⟩

private def rightPanel : WaylandWindow := ⟨true, ⟨40, 0, 99, 99⟩, 0, []⟩

private def beside : ClientAreas :=
  ⟨[.null, ⟨60, 0, 99, 99⟩], [[], [⟨⟨0, 0, 59, 99⟩, .left⟩]], [[], [⟨60, 0, 99, 99⟩]]⟩

theorem usable_beside_panel : (∀ g ∈ oneScreen.geometries, ¬ g.isEmpty) ∧
    updateClientArea oneScreen 1 ⟨1, 0⟩ [] [leftPanel] true ⟨[], [], []⟩ = some beside ∧
    Usable oneScreen ⟨1, 0⟩ 1 beside := by
  have hscr : ∀ g ∈ oneScreen.geometries, ¬ g.isEmpty := by decide
  have hupdate : updateClientArea oneScreen 1 ⟨1, 0⟩ [] [leftPanel] true ⟨[], [], []⟩ = some beside := by decide
  refine ⟨hscr, hupdate, ((usable_iff_leaveRoom (n := 1) [] [leftPanel] true hscr le_rfl le_rfl).1 _ hupdate).mpr ?_⟩
  intro d hd hdn g hg p hp q hq
  obtain rfl : d = 1 := by omega
  cases List.mem_singleton.mp hg
  cases List.mem_singleton.mp hp
  cases List.mem_singleton.mp hq
  have hroom : (⟨80, 50⟩ : Point) ∈ (leftPanel.remainder ⟨0, 0, 99, 99⟩).points := by
    refine ⟨⟨?_, ?_⟩, ⟨?_, ?_⟩⟩ <;> decide
  refine ⟨⟨80, 50⟩, ⟨⟨?_, ?_⟩, ⟨?_, ?_⟩⟩, hroom, hroom⟩ <;> decide

/-- Panels at opposite sides that are each wider than half of the screen leave nothing of it. -/
theorem panels_take_screen : (∀ g ∈ oneScreen.geometries, ¬ g.isEmpty) ∧
    ∃ a, updateClientArea oneScreen 1 ⟨1, 0⟩ [] [leftPanel, rightPanel] true ⟨[], [], []⟩ = some a ∧
      clientArea oneScreen ⟨1, 0⟩ a .placementArea 0 1 = some .null ∧ ¬ Usable oneScreen ⟨1, 0⟩ 1 a := by
  refine ⟨by decide, ⟨[.null, .null], [[], [⟨⟨0, 0, 59, 99⟩, .left⟩, ⟨⟨40, 0, 99, 99⟩, .right⟩]], [[], [.null]]⟩,
    by decide, by decide, fun hu => ?_⟩
  obtain ⟨row, r, hrow, hr, hne, -⟩ := hu.screenarea 1 le_rfl le_rfl 0 _ rfl
  cases hrow
  cases hr
  exact hne (by decide)

end usable

end KWinFT.Areas
