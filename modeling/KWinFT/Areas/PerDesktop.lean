import KWinFT.Areas.Entries

/-! Which windows decide the areas of a desktop. A window that is on several desktops is applied to the last of them
only. -/
namespace KWinFT.Areas
open KWinFT.Geometry

/-- `isOnDesktop`, which asks for a single desktop when windows are managed on X11. -/
def isOnDesktop (waylandMode : Bool) (desktops : List Nat) (d : Nat) : Prop :=
  (if waylandMode then d ∈ desktops else desktopOf desktops = d) ∨ desktops = []

instance (waylandMode : Bool) (desktops : List Nat) (d : Nat) : Decidable (isOnDesktop waylandMode desktops d) :=
  inferInstanceAs (Decidable (_ ∨ _))

section desktop
variable {scr : Screens} {n d : Nat} {mode : Bool} {x11 : List X11Window} {wayland : List WaylandWindow}

/-- The strut windows of a desktop. -/
def x11StrutsOn (scr : Screens) (mode : Bool) (x11 : List X11Window) (d : Nat) : List X11Window :=
  x11.filter fun w => w.hasStrut scr ∧ isOnDesktop mode w.desktops d

def waylandStrutsOn (mode : Bool) (wayland : List WaylandWindow) (d : Nat) : List WaylandWindow :=
  wayland.filter fun w => w.hasStrut ∧ isOnDesktop mode w.desktops d

/-- A window narrows only desktops that it is on. -/
theorem Narrows.isOnDesktop {desktops : List Nat} (h : Narrows desktops d) : isOnDesktop mode desktops d := by
  rcases h with he | he
  · exact .inr he
  · by_cases hne : desktops = []
    · exact .inr hne
    · subst he
      refine .inl ?_
      cases mode with
      | false => simp [desktopOf, hne]
      | true =>
        rw [lastDesktop, List.getLastD_eq_getLast?, List.getLast?_eq_getLast_of_ne_nil hne]
        exact List.getLast_mem hne

private theorem filter_narrows {ω : Type} (strut : ω → Bool) (desktops : ω → List Nat) (ws : List ω) :
    ws.filter (fun w => strut w ∧ Narrows (desktops w) d) =
      (ws.filter fun w => strut w ∧ isOnDesktop mode (desktops w) d).filter fun w => Narrows (desktops w) d := by
  rw [List.filter_filter]
  refine List.filter_congr fun w _ => ?_
  have hon : Narrows (desktops w) d → isOnDesktop mode (desktops w) d := Narrows.isOnDesktop
  simp only [← Bool.decide_and, decide_eq_decide]
  tauto

private theorem x11On_eq (mode : Bool) : x11On scr x11 d = (x11StrutsOn scr mode x11 d).filter fun w => Narrows w.desktops d :=
  filter_narrows (fun w : X11Window => w.hasStrut scr) X11Window.desktops x11

private theorem waylandOn_eq (mode : Bool) :
    waylandOn wayland d = (waylandStrutsOn mode wayland d).filter fun w => Narrows w.desktops d :=
  filter_narrows WaylandWindow.hasStrut WaylandWindow.desktops wayland

/-- Where all strut windows narrow the desktop, none is left out. -/
private theorem x11On_eq_strutsOn (h : ∀ w ∈ x11, w.hasStrut scr → isOnDesktop mode w.desktops d → Narrows w.desktops d) :
    x11On scr x11 d = x11StrutsOn scr mode x11 d := by
  rw [x11On_eq mode]
  refine List.filter_eq_self.mpr fun w hw => ?_
  obtain ⟨hw, hs⟩ := List.mem_filter.mp hw
  obtain ⟨hs, ho⟩ := of_decide_eq_true hs
  exact decide_eq_true (h w hw hs ho)

private theorem waylandOn_eq_strutsOn
    (h : ∀ w ∈ wayland, w.hasStrut → isOnDesktop mode w.desktops d → Narrows w.desktops d) :
    waylandOn wayland d = waylandStrutsOn mode wayland d := by
  rw [waylandOn_eq mode]
  refine List.filter_eq_self.mpr fun w hw => ?_
  obtain ⟨hw, hs⟩ := List.mem_filter.mp hw
  obtain ⟨hs, ho⟩ := of_decide_eq_true hs
  exact decide_eq_true (h w hw hs ho)

/-- Every window adds as many restricted rectangles as it has edges. -/
private theorem areaOf_restricted_length (scr : Screens) (x11 : List X11Window) (wayland : List WaylandWindow) :
    (areaOf scr x11 wayland).restricted.length = 4 * x11.length + wayland.length := by
  have hx (d : DesktopArea) : (x11.foldl (fun d w => w.narrowOwn scr d) d).restricted.length =
      d.restricted.length + 4 * x11.length := by
    induction x11 generalizing d with
    | nil => rfl
    | cons w x11 ih =>
      rw [List.foldl_cons, ih, List.length_cons]
      simp only [X11Window.narrowOwn, X11Window.narrow, X11Window.strutRects, List.length_append, List.length_map,
        List.length_cons, List.length_nil]
      omega
  have hw (d : DesktopArea) : (wayland.foldl (fun d w => w.narrow scr d) d).restricted.length =
      d.restricted.length + wayland.length := by
    induction wayland generalizing d with
    | nil => rfl
    | cons w wayland ih =>
      rw [List.foldl_cons, ih, List.length_cons]
      simp only [WaylandWindow.narrow, List.length_append, List.length_cons, List.length_nil]
      omega
  rw [areaOf, hw, hx]
  simp [fullArea]

/-- The entries of a desktop are of as many struts, whatever describes them. -/
private theorem at_length {a : ClientAreas} {x y : DesktopArea} (hx : a.At d x) (hy : a.At d y) :
    x.restricted.length = y.restricted.length := by
  obtain ⟨-, ⟨r, hr, hxr⟩, -⟩ := hx
  obtain ⟨-, ⟨s, hs, hys⟩, -⟩ := hy
  obtain rfl := Option.some.inj (hr.symm.trans hs)
  have hrects := (of_decide_eq_true hxr).symm.trans (of_decide_eq_true hys)
  simpa only [List.length_map] using congrArg List.length hrects

/-- Windows of other desktops do not count: an update with the strut windows of a desktop alone gives it the same
areas. -/
theorem updateClientArea_strutsOn {cur cur' : Current} {a a' b b' : ClientAreas} {force force' : Bool} (hd : 1 ≤ d)
    (hdn : d ≤ n) (h : updateClientArea scr n cur x11 wayland force a = some a')
    (h' : updateClientArea scr n cur' (x11StrutsOn scr mode x11 d) (waylandStrutsOn mode wayland d) force' b = some b') :
    ∃ x, a'.At d x ∧ b'.At d x := by
  have hat := updateClientArea_at h' hd hdn
  have hx : x11On scr (x11StrutsOn scr mode x11 d) d = x11On scr x11 d := by
    have hsame : x11StrutsOn scr mode (x11StrutsOn scr mode x11 d) d = x11StrutsOn scr mode x11 d := by
      simp [x11StrutsOn]
    rw [x11On_eq mode, hsame, ← x11On_eq mode]
  have hw : waylandOn (waylandStrutsOn mode wayland d) d = waylandOn wayland d := by
    have hsame : waylandStrutsOn mode (waylandStrutsOn mode wayland d) d = waylandStrutsOn mode wayland d := by
      simp [waylandStrutsOn]
    rw [waylandOn_eq mode, hsame, ← waylandOn_eq mode]
  rw [hx, hw] at hat
  exact ⟨_, updateClientArea_at h hd hdn, hat⟩

/-- The areas of a desktop are decided by its strut windows iff each of these is on all desktops or has it as the last
one. Struts are compared as rectangles, as the code does to find changes; areas that are set anew have the same edges too. -/
theorem decidedByDesktop_iff (scr : Screens) (cur : Current) (a : ClientAreas) (mode force : Bool) (x11 : List X11Window)
    (wayland : List WaylandWindow) (hd : 1 ≤ d) (hdn : d ≤ n) :
    (∀ a', updateClientArea scr n cur x11 wayland force a = some a' →
      (a'.At d (areaOf scr (x11StrutsOn scr mode x11 d) (waylandStrutsOn mode wayland d)) ↔
        (∀ w ∈ x11, w.hasStrut scr → isOnDesktop mode w.desktops d → w.desktops = [] ∨ lastDesktop w.desktops = d) ∧
        ∀ w ∈ wayland, w.hasStrut → isOnDesktop mode w.desktops d → w.desktops = [] ∨ lastDesktop w.desktops = d) ∧
      (force ∨ a.screenarea = [] →
        a'.At d (areaOf scr (x11StrutsOn scr mode x11 d) (waylandStrutsOn mode wayland d)) →
        a'.restrictedmovearea[d]? =
          some (areaOf scr (x11StrutsOn scr mode x11 d) (waylandStrutsOn mode wayland d)).restricted)) ∧
    (Fits n a → cur.desktop ≤ n → (∀ w ∈ x11, Existing n w.desktops) → (∀ w ∈ wayland, Existing n w.desktops) →
      ∃ a', updateClientArea scr n cur x11 wayland force a = some a') := by
  refine ⟨fun a' h => ?_, fun hf hcur hx hw => updateClientArea_isSome hf hcur hx hw force⟩
  have hat := updateClientArea_at h hd hdn
  have hiff : a'.At d (areaOf scr (x11StrutsOn scr mode x11 d) (waylandStrutsOn mode wayland d)) ↔
      (∀ w ∈ x11, w.hasStrut scr → isOnDesktop mode w.desktops d → Narrows w.desktops d) ∧
      ∀ w ∈ wayland, w.hasStrut → isOnDesktop mode w.desktops d → Narrows w.desktops d := by
    constructor
    · intro hon
      -- The lengths of the restricted areas tell that no window is left out.
      have hlen := at_length hat hon
      simp only [areaOf_restricted_length] at hlen
      rw [x11On_eq mode, waylandOn_eq mode] at hlen
      have hxle := List.length_filter_le (fun w => decide (Narrows w.desktops d)) (x11StrutsOn scr mode x11 d)
      have hwle := List.length_filter_le (fun w => decide (Narrows w.desktops d)) (waylandStrutsOn mode wayland d)
      have hxall := List.length_filter_eq_length_iff.mp (Nat.le_antisymm hxle (by omega))
      have hwall := List.length_filter_eq_length_iff.mp (Nat.le_antisymm hwle (by omega))
      refine ⟨fun w hw hs ho => ?_, fun w hw hs ho => ?_⟩
      · exact of_decide_eq_true (hxall w (List.mem_filter.mpr ⟨hw, by simp [hs, ho]⟩))
      · exact of_decide_eq_true (hwall w (List.mem_filter.mpr ⟨hw, by simp [hs, ho]⟩))
    · rintro ⟨hxall, hwall⟩
      rwa [x11On_eq_strutsOn hxall, waylandOn_eq_strutsOn hwall] at hat
  refine ⟨hiff, fun hnew hon => ?_⟩
  obtain ⟨hxall, hwall⟩ := hiff.mp hon
  have hrestricted := updateClientArea_restricted h hnew hd hdn
  rwa [x11On_eq_strutsOn hxall, waylandOn_eq_strutsOn hwall] at hrestricted

/-! A panel of two desktops. -/

private def screen : Screens := ⟨[⟨0, 0, 99, 99⟩]⟩

private def panel : WaylandWindow := ⟨true, ⟨0, 0, 99, 9⟩, 0, [1, 2]⟩

private def panelAreas : ClientAreas :=
  ⟨[.null, ⟨0, 0, 99, 99⟩, ⟨0, 10, 99, 99⟩], [[], [], [⟨⟨0, 0, 99, 9⟩, .top⟩]],
    [[], [⟨0, 0, 99, 99⟩], [⟨0, 10, 99, 99⟩]]⟩

private theorem panel_update :
    updateClientArea screen 2 ⟨1, 0⟩ [] [panel] true ⟨[], [], []⟩ = some panelAreas := by decide

theorem panel_decides_last : isOnDesktop true panel.desktops 2 ∧
    panelAreas.At 2 (areaOf screen (x11StrutsOn screen true [] 2) (waylandStrutsOn true [panel] 2)) := by
  have hiff := (decidedByDesktop_iff (n := 2) screen ⟨1, 0⟩ ⟨[], [], []⟩ true true [] [panel]
    (by decide : 1 ≤ 2) (Nat.le_refl 2)).1 _ panel_update
  exact ⟨by decide, hiff.1.mpr ⟨by decide, by decide⟩⟩

/-- The panel is on the first desktop too, whose areas it does not change. -/
theorem panel_not_on_first : isOnDesktop true panel.desktops 1 ∧
    updateClientArea screen 2 ⟨1, 0⟩ [] [panel] true ⟨[], [], []⟩ = some panelAreas ∧
    (areaOf screen (x11StrutsOn screen true [] 1) (waylandStrutsOn true [panel] 1)).work = ⟨0, 10, 99, 99⟩ ∧
    ¬ panelAreas.At 1 (areaOf screen (x11StrutsOn screen true [] 1) (waylandStrutsOn true [panel] 1)) := by
  refine ⟨by decide, panel_update, by decide, fun h => ?_⟩
  exact absurd h.workarea (by decide)

end desktop

end KWinFT.Areas
