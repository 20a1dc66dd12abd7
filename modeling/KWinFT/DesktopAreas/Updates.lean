import KWinFT.DesktopAreas.Calls

/-! Updates of the areas that stay in range. Either every window is on a desktop that is counted, and the areas may come out
otherwise, or the areas come out as they are, since no window with struts has moved. -/
namespace KWinFT.DesktopAreas
open Areas VirtualDesktops

theorem currentNumber_le_count {m : VirtualDesktopManager} (hn : Numbered m) : m.currentNumber ≤ m.count := by
  unfold VirtualDesktopManager.currentNumber
  split
  · next c hc => exact hn.number_le_count (hn.current c hc)
  · exact Nat.zero_le _

namespace Workspace
variable {s : Workspace} {w : Nat}

theorem desktop_le {n : Nat} (h : ∀ d ∈ s.desktops w, (s.vds.heap d).x11DesktopNumber ≤ n) : s.desktop w ≤ n := by
  refine desktopOf_le fun k hk => ?_
  obtain ⟨d, hd, rfl⟩ := List.mem_map.mp hk
  exact h d hd

/-- Live desktops are counted. -/
theorem desktop_le_count (hn : Numbered s.vds) (h : Live s.vds.desktops (s.desktops w)) : s.desktop w ≤ s.vds.count :=
  desktop_le fun d hd => hn.number_le_count (h d hd)

theorem x11Window_desktop {x : X11Window} (h : s.x11Window w = some x) : desktopOf x.desktops = s.desktop w := by
  unfold x11Window at h
  split at h
  · cases h
    rfl
  · cases h

theorem waylandWindow_desktop {x : WaylandWindow} (h : s.waylandWindow w = some x) :
    desktopOf x.desktops = s.desktop w := by
  unfold waylandWindow at h
  split at h
  · cases h
    rfl
  · cases h

theorem hasStrut_of_x11 {x : X11Window} (h : s.x11Window w = some x) (hx : x.hasStrut s.screens) : s.hasStrut w := by
  simp [hasStrut, h, hx]

theorem hasStrut_of_wayland {x : WaylandWindow} (h : s.waylandWindow w = some x) (hx : x.hasStrut) : s.hasStrut w := by
  simp [hasStrut, h, hx]

/-- The entry of each desktop is what the struts on it leave. -/
def UpToDate (s : Workspace) : Prop :=
  ∀ d, 1 ≤ d → d ≤ s.vds.count →
    s.areas.At d (areaOf s.screens (x11On s.screens s.x11Windows d) (waylandOn s.waylandPanels d))

theorem newAreas_isSome (hf : Fits s.vds.count s.areas) (hcur : s.vds.currentNumber ≤ s.vds.count)
    (hstrut : ∀ w, s.hasStrut w → s.desktop w ≤ s.vds.count) : ∃ new, s.newAreas = some new := by
  refine Areas.newAreas_isSome hf hcur (fun x hx hs => ?_) fun x hx hs => ?_
  · obtain ⟨w, -, hw⟩ := List.mem_filterMap.mp hx
    rw [x11Window_desktop hw]
    exact hstrut w (hasStrut_of_x11 hw hs)
  · obtain ⟨w, -, hw⟩ := List.mem_filterMap.mp hx
    rw [waylandWindow_desktop hw]
    exact hstrut w (hasStrut_of_wayland hw hs)

end Workspace

/-- Only the desktops of windows with struts are read for the new areas. -/
theorem computeAreas_inRange {s : Workspace} (force : Bool) (hf : Fits s.vds.count s.areas)
    (hcur : s.vds.currentNumber ≤ s.vds.count) (hstrut : ∀ w, s.hasStrut w → s.desktop w ≤ s.vds.count) :
    InRange (fun r => s.newAreas = some r.1 ∧
      (force ∨ s.areas.screenarea = [] → r.2) ∧
      (¬ (force ∨ s.areas.screenarea = []) → changedFrom s.areas 1 (r.1.drop 1) = some r.2)) (computeAreas force s) := by
  obtain ⟨new, hnew⟩ := Workspace.newAreas_isSome hf hcur hstrut
  have hlen := (newAreas_spec hnew).1
  unfold computeAreas
  rw [hnew]
  show InRange _ (if force ∨ s.areas.screenarea = [] then _ else _)
  split
  · next h => exact ⟨rfl, fun _ => rfl, absurd h⟩
  · next h =>
    obtain ⟨changed, hc⟩ := changedFrom_isSome hf (fun he => h (.inr he)) 1 (new.drop 1) (by rw [List.length_drop]; omega)
    rw [hc]
    exact ⟨rfl, fun h' => absurd h' h, fun _ => hc⟩

/-- Every window is on a counted desktop. What is known of its desktops otherwise holds of all lists of live ones. -/
structure Settled (s₀ : Workspace) (track : Nat → List Address → Prop) (s : Workspace) : Prop where
  vds : s.vds = s₀.vds
  allClients : s.allClients = s₀.allClients
  track : ∀ w, track w (s.desktops w)
  desktop : ∀ w, s.desktop w ≤ s₀.vds.count
  holds : s.Holds s₀.vds.count

/-- The kind of all windows. -/
def anyWindow (_ : Nat) : Prop := True

section settled
variable {p : Setting} {s₀ s : Workspace} {track : Nat → List Address → Prop}

/-- A window that was on a desktop which is not counted may be brought to live ones. -/
theorem settled_storeDesktops (hn : Numbered s₀.vds) (htrack : ∀ w l, Live s₀.vds.desktops l → track w l)
    (hvds : s.vds = s₀.vds) (hclients : s.allClients = s₀.allClients) (hholds : s.Holds s₀.vds.count) {w : Nat}
    (hothers : ∀ v, v ≠ w → track v (s.desktops v) ∧ s.desktop v ≤ s₀.vds.count) {l : List Address}
    (hl : Live s₀.vds.desktops l) : Settled s₀ track (s.storeDesktops w l) := by
  have hdesktops (v : Nat) : track v ((s.storeDesktops w l).desktops v) ∧
      (s.storeDesktops w l).desktop v ≤ s₀.vds.count := by
    have heq := s.storeDesktops_desktops w v l
    split at heq
    · rw [heq]
      refine ⟨htrack v l hl, Workspace.desktop_le fun d hd => ?_⟩
      rw [heq] at hd
      exact (congrArg (fun m => (m.heap d).x11DesktopNumber) hvds).trans_le (hn.number_le_count (hl d hd))
    · next hne =>
      refine ⟨heq ▸ (hothers v hne).1, ?_⟩
      unfold Workspace.desktop Workspace.numbers
      rw [heq]
      exact (hothers v hne).2
  exact ⟨hvds, hclients, fun v => (hdesktops v).1, fun v => (hdesktops v).2, hholds.fits, hholds.current, hholds.old⟩

theorem Settled.keeps (hn : Numbered s₀.vds) (htrack : ∀ w l, Live s₀.vds.desktops l → track w l) :
    Keeps anyWindow s₀.vds.desktops s₀.vds.count (Settled s₀ track) where
  vds s hs := congrArg VirtualDesktopManager.desktops hs.vds
  child _ _ _ _ _ _ := trivial
  lead _ _ _ _ _ _ _ := trivial
  storeDesktops s hs w _ l hl := settled_storeDesktops hn htrack hs.vds hs.allClients hs.holds
    (fun v _ => ⟨hs.track v, hs.desktop v⟩) hl
  storePlace s hs w _ place := ⟨hs.vds, hs.allClients, fun v => by rw [Workspace.storePlace_desktops]; exact hs.track v,
    fun v => by rw [Workspace.storePlace_desktop]; exact hs.desktop v, hs.holds.fits, hs.holds.current, hs.holds.old⟩
  restack s hs stacking := ⟨hs.vds, hs.allClients, hs.track, hs.desktop, hs.holds.fits, hs.holds.current, hs.holds.old⟩
  desktop s hs w _ := hs.desktop w
  holds s hs := hs.holds

theorem Settled.areas (hs : Settled s₀ track { s with oldrestrictedmovearea := [] }) {a : ClientAreas}
    (ha : Fits s₀.vds.count a) {old : List (List StrutRect)} (hold : old = [] ∨ s₀.vds.count < old.length) :
    Settled s₀ track { s with areas := a, oldrestrictedmovearea := old } :=
  ⟨hs.vds, hs.allClients, hs.track, hs.desktop, ha, hs.holds.current, hold⟩

/-- The areas from before the last update are overwritten. -/
theorem propagateAreas_inRange {self : Self}
    (hself : ∀ call t, call.Concerns anyWindow s₀.vds.desktops s₀.vds.count True → Settled s₀ track t →
      InRange (Settled s₀ track) (self call t))
    (hs : Settled s₀ track { s with oldrestrictedmovearea := [] }) {new : List DesktopArea}
    (hlen : new.length = s₀.vds.count + 1) : InRange (Settled s₀ track) (propagateAreas self new s) := by
  have hnew : Fits s₀.vds.count (.ofNew new) := by
    constructor <;> simp [ClientAreas.ofNew, hlen]
  have hstart := hs.areas hnew (.inr hs.holds.fits.restrictedmovearea)
  have hcheck (w : Nat) :
      (Call.checkWorkspacePosition w none).Concerns anyWindow s₀.vds.desktops s₀.vds.count True :=
    ⟨trivial, fun _ h => absurd h (Option.some_ne_none _).symm⟩
  refine (Lib.Safe.foldlM _ (fun t w _ ht => hself _ t (hcheck w) ht) hstart).bind fun t ht => ?_
  exact ⟨ht.vds, ht.allClients, ht.track, ht.desktop, ht.holds.fits, ht.holds.current, .inl rfl⟩

theorem Settled.computeAreas (hs : Settled s₀ track { s with oldrestrictedmovearea := [] }) (force : Bool) :
    InRange (fun r => r.1.length = s₀.vds.count + 1 ∧ (force → r.2)) (computeAreas force s) := by
  have hvds : s.vds = s₀.vds := hs.vds
  have hcount : s.vds.count = s₀.vds.count := congrArg VirtualDesktopManager.count hvds
  refine (computeAreas_inRange force (hcount ▸ hs.holds.fits) (hcount ▸ hs.holds.current)
    fun w _ => hcount ▸ hs.desktop w).mono fun r hr => ⟨?_, fun hforce => hr.2.1 (.inl hforce)⟩
  exact (newAreas_spec hr.1).1.trans (congrArg (· + 1) hcount)

theorem Settled.updates : Updates anyWindow s₀.vds.desktops s₀.vds.count True (Settled s₀ track) := by
  intro self hself force _ s hs
  have hs' : Settled s₀ track { s with oldrestrictedmovearea := [] } :=
    ⟨hs.vds, hs.allClients, hs.track, hs.desktop, hs.holds.fits, hs.holds.current, .inl rfl⟩
  refine (hs'.computeAreas force).bind fun r hr => ?_
  dsimp only
  split
  · exact propagateAreas_inRange hself hs' hr.1
  · exact hs

/-- All areas are computed anew for the desktops that there are. -/
theorem resetClientAreas_inRange (hn : Numbered s₀.vds) (htrack : ∀ w l, Live s₀.vds.desktops l → track w l)
    (hvds : s.vds = s₀.vds) (hclients : s.allClients = s₀.allClients) (hlists : ∀ w, track w (s.desktops w))
    (hdesktop : ∀ w, s.desktop w ≤ s₀.vds.count) (hcur : s₀.vds.currentNumber ≤ s₀.vds.count) (depth : Nat) :
    InRange (Settled s₀ track) (resetClientAreas (perform p depth) s₀.vds.count s) := by
  cases depth with
  | zero => exact nofun
  | succ depth =>
    have hfits : Fits s₀.vds.count ⟨List.replicate (s₀.vds.count + 1) .null, List.replicate (s₀.vds.count + 1) [], []⟩ := by
      constructor <;> simp
    have hstart : Settled s₀ track { s with
        areas := ⟨List.replicate (s₀.vds.count + 1) .null, List.replicate (s₀.vds.count + 1) [], []⟩
        oldrestrictedmovearea := [] } :=
      ⟨hvds, hclients, hlists, hdesktop, hfits, by rw [hvds]; exact hcur, .inl rfl⟩
    refine (hstart.computeAreas (s := { s with areas := _ }) true).bind fun r hr => ?_
    dsimp only
    rw [if_pos (hr.2 rfl)]
    exact propagateAreas_inRange (fun call t hcall ht =>
      perform_inRange (Settled.keeps hn htrack) Settled.updates depth call hcall ht) hstart hr.1

end settled

/-- Windows of one kind have no struts. All others are on desktops that are counted where they have struts, and the areas are
what these leave. -/
structure Strutless (s₀ : Workspace) (kin : Nat → Prop) (n : Nat) : Prop where
  numbered : Numbered s₀.vds
  count_pos : 1 ≤ s₀.vds.count
  count_le : s₀.vds.count ≤ n
  holds : s₀.Holds n
  child : ∀ w, kin w → ∀ c ∈ (s₀.windows w).children, kin c
  lead : ∀ w, kin w → (s₀.windows w).modal → ∀ l ∈ (s₀.windows w).leads, kin l
  struts : ∀ w, kin w → ¬ s₀.hasStrut w
  within : ∀ w, s₀.hasStrut w → s₀.desktop w ≤ s₀.vds.count
  upToDate : s₀.UpToDate

/-- Windows of that kind are on other desktops and in other places. -/
structure Untouched (s₀ : Workspace) (kin : Nat → Prop) (track : Nat → List Address → Prop) (s : Workspace) : Prop where
  vds : s.vds = s₀.vds
  allClients : s.allClients = s₀.allClients
  waylandWindows : s.waylandWindows = s₀.waylandWindows
  screens : s.screens = s₀.screens
  areas : s.areas = s₀.areas
  old : s.oldrestrictedmovearea = s₀.oldrestrictedmovearea
  windows : ∀ w, s.windows w = { s₀.windows w with desktops := s.desktops w, place := (s.windows w).place }
  others : ∀ w, ¬ kin w → s.windows w = s₀.windows w
  track : ∀ w, track w (s.desktops w)

section untouched
variable {p : Setting} {s₀ s : Workspace} {kin : Nat → Prop} {n : Nat} {track : Nat → List Address → Prop}

theorem Untouched.hasStrut (hs : Untouched s₀ kin track s) (w : Nat) : s.hasStrut w = s₀.hasStrut w := by
  unfold Workspace.hasStrut Workspace.x11Window Workspace.waylandWindow
  rw [hs.windows w, hs.screens]
  dsimp only
  cases (s₀.windows w).struts <;> rfl

theorem Untouched.x11Window (hs : Untouched s₀ kin track s) {w : Nat} (hw : ¬ kin w) : s.x11Window w = s₀.x11Window w := by
  unfold Workspace.x11Window Workspace.numbers Workspace.desktops
  rw [hs.others w hw, hs.vds]

theorem Untouched.waylandWindow (hs : Untouched s₀ kin track s) {w : Nat} (hw : ¬ kin w) :
    s.waylandWindow w = s₀.waylandWindow w := by
  unfold Workspace.waylandWindow Workspace.numbers Workspace.desktops
  rw [hs.others w hw, hs.vds]

/-- Windows without struts do not count. -/
theorem Untouched.x11On (hc : Strutless s₀ kin n) (hs : Untouched s₀ kin track s) (d : Nat) :
    x11On s.screens s.x11Windows d = x11On s₀.screens s₀.x11Windows d := by
  unfold Areas.x11On Workspace.x11Windows
  rw [hs.allClients, List.filter_filterMap, List.filter_filterMap]
  refine List.filterMap_congr fun w _ => ?_
  by_cases hw : kin w
  · have none_of (t : Workspace) (ht : ¬ t.hasStrut w) :
        (t.x11Window w).filter (fun x => x.hasStrut t.screens ∧ Narrows x.desktops d) = none := by
      refine Option.filter_eq_none_iff.mpr fun x hx hstrut => ht ?_
      exact Workspace.hasStrut_of_x11 hx (of_decide_eq_true hstrut).1
    rw [none_of s (hs.hasStrut w ▸ hc.struts w hw), none_of s₀ (hc.struts w hw)]
  · rw [hs.x11Window hw, hs.screens]

theorem Untouched.waylandOn (hc : Strutless s₀ kin n) (hs : Untouched s₀ kin track s) (d : Nat) :
    waylandOn s.waylandPanels d = waylandOn s₀.waylandPanels d := by
  unfold Areas.waylandOn Workspace.waylandPanels
  rw [hs.waylandWindows, List.filter_filterMap, List.filter_filterMap]
  refine List.filterMap_congr fun w _ => ?_
  by_cases hw : kin w
  · have none_of (t : Workspace) (ht : ¬ t.hasStrut w) :
        (t.waylandWindow w).filter (fun x => x.hasStrut ∧ Narrows x.desktops d) = none := by
      refine Option.filter_eq_none_iff.mpr fun x hx hstrut => ht ?_
      exact Workspace.hasStrut_of_wayland hx (of_decide_eq_true hstrut).1
    rw [none_of s (hs.hasStrut w ▸ hc.struts w hw), none_of s₀ (hc.struts w hw)]
  · rw [hs.waylandWindow hw]

theorem Untouched.upToDate (hc : Strutless s₀ kin n) (hs : Untouched s₀ kin track s) : s.UpToDate := by
  intro d hd hdn
  rw [hs.areas, hs.x11On hc, hs.waylandOn hc, hs.screens]
  exact hc.upToDate d hd (hs.vds ▸ hdn)

theorem Untouched.holds (hc : Strutless s₀ kin n) (hs : Untouched s₀ kin track s) : s.Holds n :=
  ⟨hs.areas ▸ hc.holds.fits, hs.vds ▸ hc.holds.current, hs.old ▸ hc.holds.old⟩

theorem Untouched.store {before : Nat → List Address → Prop} (hs : Untouched s₀ kin before s) {w : Nat} (hw : kin w)
    {x : Window} (hx : x = { s₀.windows w with desktops := x.desktops, place := x.place })
    (hothers : ∀ v, v ≠ w → track v (s.desktops v)) (htrack : track w x.desktops) :
    Untouched s₀ kin track { s with windows := Function.update s.windows w x } := by
  refine ⟨hs.vds, hs.allClients, hs.waylandWindows, hs.screens, hs.areas, hs.old, fun v => ?_, fun v hv => ?_, fun v => ?_⟩
  · unfold Workspace.desktops
    dsimp only
    by_cases hvw : v = w
    · subst hvw
      rw [Function.update_self]
      exact hx
    · rw [Function.update_of_ne hvw]
      exact hs.windows v
  · have hvw : v ≠ w := fun he => hv (he ▸ hw)
    exact (Function.update_of_ne hvw x s.windows).trans (hs.others v hv)
  · unfold Workspace.desktops
    dsimp only
    by_cases hvw : v = w
    · subst hvw
      rw [Function.update_self]
      exact htrack
    · rw [Function.update_of_ne hvw]
      exact hothers v hvw

theorem Untouched.storeDesktops {before : Nat → List Address → Prop} (hs : Untouched s₀ kin before s) {w : Nat} (hw : kin w)
    (hothers : ∀ v, v ≠ w → track v (s.desktops v)) {l : List Address} (hl : track w l) :
    Untouched s₀ kin track (s.storeDesktops w l) :=
  hs.store hw (by rw [hs.windows w]) hothers hl

theorem Untouched.keeps (hc : Strutless s₀ kin n) (htrack : ∀ w l, Live s₀.vds.desktops l → track w l)
    (hbound : ∀ w l, track w l → ∀ d ∈ l, (s₀.vds.heap d).x11DesktopNumber ≤ n) :
    Keeps kin s₀.vds.desktops n (Untouched s₀ kin track) where
  vds s hs := congrArg VirtualDesktopManager.desktops hs.vds
  child s hs w hw c h := hc.child w hw c (by rw [hs.windows w] at h; exact h)
  lead s hs w hw hm l h := by
    rw [hs.windows w] at hm h
    exact hc.lead w hw hm l h
  storeDesktops s hs w hw l hl := hs.storeDesktops hw (fun v _ => hs.track v) (htrack w l hl)
  storePlace s hs w hw place := hs.store hw (by rw [hs.windows w]) (fun v _ => hs.track v) (hs.track w)
  restack s hs stacking := ⟨hs.vds, hs.allClients, hs.waylandWindows, hs.screens, hs.areas, hs.old, hs.windows, hs.others,
    hs.track⟩
  desktop s hs w _ := Workspace.desktop_le fun d hd => by
    rw [hs.vds]
    exact hbound w _ (hs.track w) d hd
  holds s hs := hs.holds hc

/-- An update changes nothing. -/
theorem Untouched.updates (hc : Strutless s₀ kin n) : Updates kin s₀.vds.desktops n False (Untouched s₀ kin track) := by
  intro self _ force hforce s hs
  have hcount : s.vds.count = s₀.vds.count := congrArg VirtualDesktopManager.count hs.vds
  have hle : s.vds.count ≤ n := hcount ▸ hc.count_le
  have hfits : Fits n s.areas := (hs.holds hc).fits
  have hne : s.areas.screenarea ≠ [] := by
    intro he
    have hat := (hs.upToDate hc 1 le_rfl (hcount ▸ hc.count_pos)).screenarea
    rw [he] at hat
    cases hat
  have hcur : s.vds.currentNumber ≤ s.vds.count := hs.vds ▸ currentNumber_le_count hc.numbered
  refine (computeAreas_inRange force ⟨by have := hfits.workarea; omega, by have := hfits.restrictedmovearea; omega,
    .inr (by have := hfits.screenarea.resolve_left hne; omega)⟩ hcur fun w hw => ?_).bind fun r ⟨hnew, _, hchanged⟩ => ?_
  · have hnot : ¬ kin w := fun hk => hc.struts w hk (hs.hasStrut w ▸ hw)
    have heq : s.desktop w = s₀.desktop w := by
      unfold Workspace.desktop Workspace.numbers Workspace.desktops
      rw [hs.others w hnot, hs.vds]
    rw [heq, hcount]
    exact hc.within w (hs.hasStrut w ▸ hw)
  · have hsame : changedFrom s.areas 1 (r.1.drop 1) = some false := by
      refine changedFrom_eq_false fun k x hx => ?_
      rw [List.getElem?_drop] at hx
      have hlt := (List.getElem?_eq_some_iff.mp hx).1
      have hspec := newAreas_spec hnew
      have hk : 1 + k ≤ s.vds.count := by omega
      rw [hspec.2 (1 + k) (by omega) hk] at hx
      cases hx
      exact hs.upToDate hc (1 + k) (by omega) hk
    rw [hsame] at hchanged
    have hfalse : r.2 = false := (Option.some.inj (hchanged (fun h => h.elim hforce hne))).symm
    dsimp only
    rw [hfalse]
    exact hs

end untouched
end KWinFT.DesktopAreas
