import KWinFT.Areas.Entries
import KWinFT.DesktopAreas.Workspace
import KWinFT.VirtualDesktops.Numbering

/-! Calls that read the areas in range. What they rest on is a property of the workspace that each of their writes keeps;
which windows the calls may come to and how far the areas reach is part of it. -/
namespace KWinFT.DesktopAreas
open Areas VirtualDesktops

/-- The error that is meant. -/
def IsOutOfRange (e : Stop) : Prop := e = .outOfRange

/-- All accesses are in range, and the result has the property. -/
abbrev InRange {S : Type} (P : S → Prop) (x : Except Stop S) : Prop := Lib.Safe IsOutOfRange P x

/-- Desktops that are there. -/
def Live (live desktops : List Address) : Prop := ∀ d ∈ desktops, d ∈ live

theorem Live.nil {live : List Address} : Live live [] := fun _ h => absurd h List.not_mem_nil

theorem Live.oneDesktop {live desktops : List Address} (h : Live live desktops) (p : Setting) :
    Live live (p.oneDesktop desktops) := by
  unfold Setting.oneDesktop
  split
  · intro d hd
    rw [Option.mem_toList] at hd
    exact h d (List.mem_of_getLast? hd)
  · exact h

theorem inRange_access {α : Type} {x : Option α} (h : ∃ a, x = some a) : InRange (fun _ => True) (access x) := by
  obtain ⟨a, rfl⟩ := h
  trivial

namespace Workspace
variable {s : Workspace}

theorem mem_of_mem_ensureStackingOrder {list : List Nat} {c : Nat} (h : c ∈ s.ensureStackingOrder list) : c ∈ list := by
  rwa [Workspace.ensureStackingOrder, Stacking.mem_ensureStackingOrderInList] at h

theorem storeDesktops_desktops (s : Workspace) (w v : Nat) (desktops : List Address) :
    (s.storeDesktops w desktops).desktops v = if v = w then desktops else s.desktops v := by
  show (Function.update s.windows w { s.windows w with desktops := desktops } v).desktops = _
  rw [Function.update_apply]
  split <;> rfl

@[simp] theorem storePlace_desktops (s : Workspace) (w v : Nat) (place : Place) :
    (s.storePlace w place).desktops v = s.desktops v := by
  show (Function.update s.windows w { s.windows w with place := place } v).desktops = (s.windows v).desktops
  rw [Function.update_apply]
  split
  · next h => rw [h]
  · rfl

@[simp] theorem storePlace_desktop (s : Workspace) (w v : Nat) (place : Place) :
    (s.storePlace w place).desktop v = s.desktop v := by
  unfold Workspace.desktop numbers
  rw [storePlace_desktops]
  rfl

/-- The areas have entries for `n` desktops, of which one is current; so have those from before an update. -/
structure Holds (n : Nat) (s : Workspace) : Prop where
  fits : Fits n s.areas
  current : s.vds.currentNumber ≤ n
  old : s.oldrestrictedmovearea = [] ∨ n < s.oldrestrictedmovearea.length

end Workspace

/-- A number of a desktop, or of all, that has an entry. -/
def Reads (n : Nat) (desktop : Int) : Prop := (desktop = -1 ∨ 0 ≤ desktop) ∧ desktop ≤ n

theorem reads_desktop {s : Workspace} {n w : Nat} (h : s.desktop w ≤ n) : Reads n (s.desktop w) :=
  ⟨desktopOf_cases _, h⟩

section reads
variable {s : Workspace} {n w : Nat}

theorem readOldBounds_inRange (hs : s.Holds n) {oldDesktop : Int} (hd : Reads n oldDesktop) :
    InRange (fun _ => True) (readOldBounds w oldDesktop s) := by
  unfold readOldBounds
  split
  · refine (inRange_access (clientArea_isSome hs.fits hs.current _ _ hd.1 hd.2)).bind fun _ _ => ?_
    exact (inRange_access (restrictedMoveArea_isSome hs.fits hs.current hd.1 hd.2)).bind fun _ _ => trivial
  · next hold =>
    obtain ⟨k, hk, hkn⟩ := Current.resolve_eq (show s.current.desktop ≤ n from hs.current) hd.1 hd.2
    rw [hk]
    have hlt : k < s.oldrestrictedmovearea.length := Nat.lt_of_le_of_lt hkn (hs.old.resolve_left hold)
    exact (inRange_access (entry_isSome hlt)).bind fun _ _ => trivial

theorem readBounds_inRange (hs : s.Holds n) (hw : s.desktop w ≤ n) {oldDesktop : Option Int}
    (hd : ∀ d, oldDesktop = some d → Reads n d) : InRange (fun _ => True) (readBounds w oldDesktop s) := by
  have hw := reads_desktop hw
  unfold readBounds
  refine (inRange_access (clientArea_isSome hs.fits hs.current _ _ hw.1 hw.2)).bind fun _ _ => ?_
  split
  · have hold : Reads n (oldDesktop.getD (s.desktop w)) := by
      cases oldDesktop with
      | none => exact hw
      | some d => exact hd d rfl
    refine (readOldBounds_inRange hs hold).bind fun _ _ => ?_
    exact (inRange_access (restrictedMoveArea_isSome hs.fits hs.current hw.1 hw.2)).bind fun _ _ => trivial
  · trivial

end reads

/-- A property that changes of desktops keep. The changes come to windows of one kind, and bring them to live desktops. -/
structure Spreads (kin : Nat → Prop) (live : List Address) (P : Workspace → Prop) : Prop where
  vds : ∀ s, P s → s.vds.desktops = live
  child : ∀ s, P s → ∀ w, kin w → ∀ c ∈ (s.windows w).children, kin c
  lead : ∀ s, P s → ∀ w, kin w → (s.windows w).modal → ∀ l ∈ (s.windows w).leads, kin l
  storeDesktops : ∀ s, P s → ∀ w, kin w → ∀ l, Live live l → P (s.storeDesktops w l)

/-- A property that everything but an update of the areas keeps, while the areas have entries for `n` desktops. -/
structure Keeps (kin : Nat → Prop) (live : List Address) (n : Nat) (P : Workspace → Prop) : Prop
    extends Spreads kin live P where
  storePlace : ∀ s, P s → ∀ w, kin w → ∀ place, P (s.storePlace w place)
  restack : ∀ s, P s → ∀ stacking, P { s with stacking := stacking }
  desktop : ∀ s, P s → ∀ w, kin w → s.desktop w ≤ n
  holds : ∀ s, P s → s.Holds n

/-- Calls that change the desktops of such windows. -/
def Call.Moves (kin : Nat → Prop) (live : List Address) : Call → Prop
  | .setDesktops w desktops => kin w ∧ Live live desktops
  | .setDesktop w _ | .setOnAllDesktops w _ | .updateOnAllDesktopsOfTransients w => kin w
  | _ => False

/-- Calls for such windows. An update is to be forced only where it may be. -/
def Call.Concerns (kin : Nat → Prop) (live : List Address) (n : Nat) (forced : Prop) : Call → Prop
  | .checkWorkspacePosition w oldDesktop => kin w ∧ ∀ d, oldDesktop = some d → Reads n d
  | .sendClientToDesktop w _ => kin w
  | .updateClientArea force => force → forced
  | call => call.Moves kin live

section bodies
variable {p : Setting} {self : Self} {kin : Nat → Prop} {live : List Address} {n w : Nat} {forced : Prop}
  {P : Workspace → Prop} {s : Workspace}

theorem Call.Moves.concerns {call : Call} (h : call.Moves kin live) : call.Concerns kin live n forced := by
  cases call with
  | checkWorkspacePosition | sendClientToDesktop | updateClientArea => exact absurd h id
  | _ => exact h

theorem withControl_inRange {next : Except Stop Workspace} (h : InRange P next) : InRange P (withControl s w next) := by
  unfold withControl
  split
  · exact h
  · exact nofun

/-- The windows that desktops are passed on to are of the same kind. Of the window itself it is enough that the property holds once
it is on a live desktop. -/
theorem setDesktops_inRange (hP : Spreads kin live P)
    (hself : ∀ call t, call.Moves kin live → P t → InRange P (self call t)) {desktops : List Address} (hw : kin w)
    (hlive : Live live desktops) (hsame : Live live (s.desktops w) → P s)
    (hstore : ∀ l, Live live l → P (s.storeDesktops w l)) : InRange P (setDesktops p self w desktops s) := by
  have hlive := hlive.oneDesktop p
  unfold setDesktops
  dsimp only
  split
  · next he => exact hsame (he ▸ hlive)
  · have hs := hstore _ hlive
    refine withControl_inRange (Lib.Safe.bind (P := P) ?_ fun t₁ h₁ => ?_)
    · split
      · exact hself _ _ (show kin w from hw) hs
      · exact hs
    · refine (Lib.Safe.foldlM _ (fun t c hc ht => ?_) h₁).bind fun t₂ h₂ => ?_
      · split
        · exact ht
        · have hkin := hP.child t₁ h₁ w hw c (Workspace.mem_of_mem_ensureStackingOrder hc)
          exact hself _ _ ⟨hkin, hlive⟩ ht
      · split
        · next hmodal =>
          refine Lib.Safe.foldlM _ (fun t l hl ht => ?_) h₂
          exact hself (.setDesktops l _) t ⟨hP.lead t₂ h₂ w hw hmodal l hl, hlive⟩ ht
        · exact h₂

/-- A rule cannot bring a window to a desktop that is not there. -/
theorem ruledDesktops_inRange (hlive : s.vds.desktops = live) (desktop : Int) :
    InRange (Live live) (ruledDesktops p w desktop s) := by
  unfold ruledDesktops
  dsimp only
  generalize min (s.vds.count : Int) _ = ruled
  split
  · split
    · next d hd =>
      intro e he
      rw [List.mem_singleton.mp he, ← hlive]
      exact VirtualDesktopManager.mem_of_desktopForX11Id hd
    · exact nofun
  · exact Live.nil

theorem setDesktop_inRange (hlive : s.vds.desktops = live) (desktop : Int)
    (hself : ∀ l, Live live l → InRange P (self (.setDesktops w l) s)) : InRange P (setDesktop p self w desktop s) :=
  withControl_inRange ((ruledDesktops_inRange hlive desktop).bind hself)

private theorem moves_inRange (hP : Spreads kin live P)
    (hself : ∀ call t, call.Moves kin live → P t → InRange P (self call t)) (call : Call) (hcall : call.Moves kin live)
    (hs : P s) : InRange P (callBody p self call s) := by
  cases call with
  | setDesktops w desktops =>
    exact setDesktops_inRange hP hself hcall.1 hcall.2 (fun _ => hs) fun l hl => hP.storeDesktops s hs w hcall.1 l hl
  | setDesktop w desktop =>
    exact setDesktop_inRange (hP.vds s hs) desktop fun l hl => hself _ _ ⟨hcall, hl⟩ hs
  | setOnAllDesktops w set =>
    show InRange P (setOnAllDesktops self w set s)
    unfold setOnAllDesktops
    split
    · exact hs
    · exact hself _ _ (show kin w from hcall) hs
  | updateOnAllDesktopsOfTransients w =>
    refine Lib.Safe.foldlM _ (fun t c hc ht => ?_) hs
    split
    · exact hself _ _ (show kin c from hP.child s hs w hcall c hc) ht
    · exact ht
  | checkWorkspacePosition | sendClientToDesktop | updateClientArea => exact absurd hcall id

/-- Changes of desktops read no areas, and keep what their writes keep. -/
theorem perform_moves (hP : Spreads kin live P) (depth : Nat) (call : Call) (hcall : call.Moves kin live) (hs : P s) :
    InRange P (perform p depth call s) :=
  Lib.unroll_safe (Call.Moves kin live) (nofun : ¬ IsOutOfRange .depth)
    (fun _ hself call _ hcall hs => moves_inRange hP hself call hcall hs) depth call s hcall hs

/-- A window that is sent to live desktops is on live desktops. -/
theorem perform_setDesktops (hP : Spreads kin live P) (depth : Nat) {desktops : List Address} (hw : kin w)
    (hlive : Live live desktops) (hsame : Live live (s.desktops w) → P s)
    (hstore : ∀ l, Live live l → P (s.storeDesktops w l)) : InRange P (perform p depth (.setDesktops w desktops) s) := by
  cases depth with
  | zero => exact nofun
  | succ depth =>
    exact setDesktops_inRange hP (fun call t hcall ht => perform_moves hP depth call hcall ht) hw hlive hsame hstore

theorem perform_setDesktop (hP : Spreads kin live P) (depth : Nat) (desktop : Int) (hw : kin w)
    (hlive : s.vds.desktops = live) (hsame : Live live (s.desktops w) → P s)
    (hstore : ∀ l, Live live l → P (s.storeDesktops w l)) : InRange P (perform p depth (.setDesktop w desktop) s) := by
  cases depth with
  | zero => exact nofun
  | succ depth =>
    exact setDesktop_inRange hlive desktop fun l hl => perform_setDesktops hP depth hw hl hsame hstore

theorem checkWorkspacePosition_inRange {m : Nat} {oldDesktop : Option Int} (hs : s.Holds m) (hw : s.desktop w ≤ m)
    (hd : ∀ d, oldDesktop = some d → Reads m d) (hP : P s) (hplace : ∀ place, P (s.storePlace w place))
    (hself : ∀ t, P t → InRange P (self (.updateClientArea false) t)) :
    InRange P (checkWorkspacePosition p self w oldDesktop s) := by
  unfold checkWorkspacePosition
  split
  · exact hP
  · refine (readBounds_inRange hs hw hd).bind fun _ _ => ?_
    split
    · exact hP
    · next place _ =>
      dsimp only
      split
      · exact hself _ (hplace place)
      · exact hplace place

/-- Between the change of its desktops and the check of its position a window may have another property. -/
theorem sendClientToDesktop_inRange {Q : Workspace → Prop} (hP : Keeps kin live n P)
    (hself : ∀ call t, call.Concerns kin live n forced → P t → InRange P (self call t)) (hw : kin w) (desk : Int)
    (hstay : (desk < 1 ∧ desk ≠ -1) ∨ desk > s.vds.count → P s) (hset : InRange Q (self (.setDesktop w desk) s))
    (hQ : ∀ t, Q t → P t)
    (hcheck : ∀ t, Q t → ∀ stacking,
      InRange P (self (.checkWorkspacePosition w (some (s.desktop w))) { t with stacking := stacking })) :
    InRange P (sendClientToDesktop p self w desk s) := by
  unfold sendClientToDesktop
  split
  · next h => exact hstay h
  · refine hset.bind fun t₁ h₁ => ?_
    split
    · exact hQ t₁ h₁
    · refine (hcheck t₁ h₁ _).bind fun t₂ h₂ => ?_
      refine (Lib.Safe.foldlM _ (fun t c hc ht => ?_) h₂).bind fun t₃ h₃ => hself _ _ nofun h₃
      split
      · have hkin := hP.child t₂ h₂ w hw c (Workspace.mem_of_mem_ensureStackingOrder hc)
        exact hself _ _ (show kin c from hkin) ht
      · exact ht

/-- An update is in range when the calls that it makes are. -/
def Updates (kin : Nat → Prop) (live : List Address) (n : Nat) (forced : Prop) (P : Workspace → Prop) : Prop :=
  ∀ self : Self, (∀ call t, call.Concerns kin live n forced → P t → InRange P (self call t)) →
    ∀ force : Bool, (force → forced) → ∀ s, P s → InRange P (updateClientArea self force s)

private theorem concerns_inRange (hP : Keeps kin live n P) (hupdate : Updates kin live n forced P)
    (hself : ∀ call t, call.Concerns kin live n forced → P t → InRange P (self call t)) (call : Call)
    (hcall : call.Concerns kin live n forced) (hs : P s) : InRange P (callBody p self call s) := by
  have hmoves : ∀ call t, call.Moves kin live → P t → InRange P (self call t) :=
    fun call t hcall ht => hself call t hcall.concerns ht
  cases call with
  | checkWorkspacePosition w oldDesktop =>
    exact checkWorkspacePosition_inRange (hP.holds s hs) (hP.desktop s hs w hcall.1) hcall.2 hs
      (fun place => hP.storePlace s hs w hcall.1 place) fun t ht => hself _ _ nofun ht
  | sendClientToDesktop w desk =>
    have hw : kin w := hcall
    refine sendClientToDesktop_inRange hP hself hw desk (fun _ => hs) (hself _ _ (show kin w from hw) hs) (fun _ => id)
      fun t ht stacking => hself _ _ ⟨hw, ?_⟩ (hP.restack t ht stacking)
    rintro d ⟨⟩
    exact reads_desktop (hP.desktop s hs w hw)
  | updateClientArea force => exact hupdate self hself force hcall s hs
  | setDesktops w desktops => exact moves_inRange hP.toSpreads hmoves (.setDesktops w desktops) hcall hs
  | setDesktop w desktop => exact moves_inRange hP.toSpreads hmoves (.setDesktop w desktop) hcall hs
  | setOnAllDesktops w set => exact moves_inRange hP.toSpreads hmoves (.setOnAllDesktops w set) hcall hs
  | updateOnAllDesktopsOfTransients w =>
    exact moves_inRange hP.toSpreads hmoves (.updateOnAllDesktopsOfTransients w) hcall hs

/-- Calls stay in range, whatever calls they lead to. -/
theorem perform_inRange (hP : Keeps kin live n P) (hupdate : Updates kin live n forced P) (depth : Nat) (call : Call)
    (hcall : call.Concerns kin live n forced) (hs : P s) : InRange P (perform p depth call s) :=
  Lib.unroll_safe (Call.Concerns kin live n forced) (nofun : ¬ IsOutOfRange .depth)
    (fun _ hself call _ hcall hs => concerns_inRange hP hupdate hself call hcall hs) depth call s hcall hs

/-- The check after a change of desktops may read further than other calls. -/
theorem perform_checkWorkspacePosition (hP : Keeps kin live n P) (hupdate : Updates kin live n forced P) (depth : Nat)
    {m : Nat} {oldDesktop : Option Int} (hw : kin w) (hm : s.Holds m) (hdesktop : s.desktop w ≤ m)
    (hd : ∀ d, oldDesktop = some d → Reads m d) (hs : P s) :
    InRange P (perform p depth (.checkWorkspacePosition w oldDesktop) s) := by
  cases depth with
  | zero => exact nofun
  | succ depth =>
    exact checkWorkspacePosition_inRange hm hdesktop hd hs (fun place => hP.storePlace s hs w hw place)
      fun t ht => perform_inRange hP hupdate depth _ nofun ht

theorem Spreads.and_holds (hP : Spreads kin live P) (m : Nat) : Spreads kin live fun t => P t ∧ t.Holds m where
  vds t ht := hP.vds t ht.1
  child t ht := hP.child t ht.1
  lead t ht := hP.lead t ht.1
  storeDesktops t ht w hw l hl := ⟨hP.storeDesktops t ht.1 w hw l hl, ht.2.fits, ht.2.current, ht.2.old⟩

/-- A window is sent to a desktop that is there. Where it was may be further than the areas have to reach afterwards. -/
theorem perform_sendClientToDesktop (hP : Keeps kin live n P) (hupdate : Updates kin live n forced P) (depth : Nat)
    {m : Nat} (hnm : n ≤ m) {desk : Int} (hw : kin w) (hdesk : 1 ≤ desk ∧ desk ≤ s.vds.count)
    (hlive : s.vds.desktops = live) (hm : s.Holds m) (hdesktop : s.desktop w ≤ m) (hsame : Live live (s.desktops w) → P s)
    (hstore : ∀ l, Live live l → P (s.storeDesktops w l)) :
    InRange P (perform p depth (.sendClientToDesktop w desk) s) := by
  cases depth with
  | zero => exact nofun
  | succ depth =>
    refine sendClientToDesktop_inRange hP
      (fun call t hcall ht => perform_inRange hP hupdate depth call hcall ht) hw desk (fun h => by omega)
      (perform_setDesktop (hP.toSpreads.and_holds m) depth desk hw hlive (fun h => ⟨hsame h, hm⟩)
        fun l hl => ⟨hstore l hl, hm.fits, hm.current, hm.old⟩) (fun t ht => ht.1) fun t ht stacking => ?_
    have ht' := hP.restack t ht.1 stacking
    refine perform_checkWorkspacePosition hP hupdate depth hw ⟨ht.2.fits, ht.2.current, ht.2.old⟩ ?_ ?_ ht'
    · exact (hP.desktop _ ht' w hw).trans (Int.ofNat_le.mpr hnm)
    · rintro d ⟨⟩
      exact reads_desktop hdesktop

end bodies
end KWinFT.DesktopAreas
