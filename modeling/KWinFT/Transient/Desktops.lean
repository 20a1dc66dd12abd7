import KWinFT.Lib.Spread
import KWinFT.Transient.Cascades

/-! How the desktops of a window spread over its managed relatives. -/
namespace KWinFT.Transient
open Filter Relation

namespace Family
variable (t : Family)

/-- These windows are managed, and so not annexed, and they have all of their relatives among them. -/
structure Managed (members : List Nat) : Prop where
  control : ∀ w ∈ members, t.control w
  annexed : ∀ w ∈ members, ¬ t.annexed w
  children : ∀ w ∈ members, ∀ c ∈ t.children w, c ∈ members
  leads : ∀ w ∈ members, ∀ l ∈ t.leads w, l ∈ members

/-- A window passes its desktops on to its children that are not annexed and, if it is modal, to its leads. -/
def PassesOn (a b : Nat) : Prop := (b ∈ t.children a ∧ ¬ t.annexed b) ∨ (t.modal a ∧ b ∈ t.leads a)

def withDesktops (f : Nat → List Nat) : Family := { t with desktops := f }

variable {t}

theorem Managed.passesOn_child {members : List Nat} (ht : t.Managed members) {w c : Nat} (hw : w ∈ members)
    (hc : c ∈ t.children w) : t.PassesOn w c := .inl ⟨hc, ht.annexed c (ht.children w hw c hc)⟩

theorem Managed.passesOn {members : List Nat} (ht : t.Managed members) {w n : Nat} (hw : w ∈ members)
    (hn : t.PassesOn w n) : n ∈ members := by
  rcases hn with ⟨hn, -⟩ | ⟨-, hn⟩
  · exact ht.children w hw n hn
  · exact ht.leads w hw n hn

end Family

/-- There are desktops, and no rules for windows to be on certain ones. -/
structure Setting.Plain (p : Setting) : Prop where
  checkDesktop : ∀ w d, p.checkDesktop w d = d
  current : 1 ≤ p.current ∧ p.current ≤ p.count

section calls
variable {p : Setting} {t : Family} {f g : Nat → List Nat} {w : Nat} {x members : List Nat}

/-- A change of the desktops comes back. -/
private def Gives (p : Setting) (t : Family) (call : Call) (f g : Nat → List Nat) : Prop :=
  Lib.Returns .depth (callBody p) call (t.withDesktops f) (t.withDesktops g)

private theorem oneDesktop_idem (p : Setting) (desktops : List Nat) :
    p.oneDesktop (p.oneDesktop desktops) = p.oneDesktop desktops := by
  unfold Setting.oneDesktop
  split
  · next h =>
    cases hlast : desktops.getLast? with
    | none => simp
    | some d => simp
  · rfl

private theorem oneDesktop_singleton (p : Setting) (d : Nat) : p.oneDesktop [d] = [d] := by
  simp [Setting.oneDesktop]

private theorem oneDesktop_nil (p : Setting) : p.oneDesktop [] = [] := by
  simp [Setting.oneDesktop]

/-- The list of the current desktop. -/
private def currentList (p : Setting) : List Nat := [p.current.toNat]

private theorem ruledDesktops_current (hp : p.Plain) (w : Nat) : p.ruledDesktops w p.current = currentList p := by
  obtain ⟨h₁, h₂⟩ := hp.current
  have hne : p.current ≠ onAllDesktops := by
    simp only [onAllDesktops]
    omega
  have hclamp : min p.count (max 1 (min p.count p.current)) = p.current := by omega
  simp only [Setting.ruledDesktops, if_pos hne, hp.checkDesktop, hclamp]
  rw [Setting.desktopForX11Id, if_pos ⟨by omega, h₂⟩]
  rfl

private theorem ruledDesktops_all (hp : p.Plain) (w : Nat) : p.ruledDesktops w onAllDesktops = [] := by
  obtain ⟨h₁, h₂⟩ := hp.current
  have hmin : min p.count onAllDesktops = onAllDesktops := by
    simp only [onAllDesktops]
    omega
  simp [Setting.ruledDesktops, hp.checkDesktop, hmin]

private theorem gives_same (h : p.oneDesktop x = f w) : Gives p t (.setDesktops w x) f f := by
  refine Lib.Returns.of_body (.of_forall fun n => ?_)
  simp only [callBody, setDesktops]
  exact if_pos h

private theorem mem_ensureStackingOrder {list : List Nat} {c : Nat} : c ∈ t.ensureStackingOrder list ↔ c ∈ list := by
  rw [Family.ensureStackingOrder, Stacking.mem_ensureStackingOrderInList]

/-- The calls of a loop over relatives keep a property, and all relatives that are not skipped get the desktops. -/
private theorem foldlM_setDesktops (as : List Nat) (skip : Family → Nat → Bool)
    (hconst : ∀ g n, skip (t.withDesktops g) n = skip t n) (P : (Nat → List Nat) → Prop)
    (hcall : ∀ g n, P g → n ∈ as → ¬ skip t n → ∃ g', Gives p t (.setDesktops n x) g g' ∧ P g' ∧ g' n = x ∧
      ∀ v, g v = x → g' v = x) (hf : P f) :
    ∃ g, (∀ᶠ n in atTop, as.foldlM (fun s child => if skip s child then .ok s
        else perform p n (.setDesktops child x) s) (t.withDesktops f) = .ok (t.withDesktops g)) ∧
      P g ∧ (∀ n ∈ as, ¬ skip t n → g n = x) ∧ ∀ v, f v = x → g v = x := by
  let inv (done : List Nat) (s : Family) : Prop :=
    ∃ g, s = t.withDesktops g ∧ P g ∧ (∀ n ∈ done, ¬ skip t n → g n = x) ∧ ∀ v, f v = x → g v = x
  have hstep : ∀ done a s, a ∈ as → inv done s → ∃ s', (∀ᶠ n in atTop, (if skip s a then .ok s
      else perform p n (.setDesktops a x) s) = .ok s') ∧ inv (done ++ [a]) s' := by
    rintro done a _ ha ⟨g₁, rfl, hP, hdone, hkeep⟩
    by_cases hskip : skip t a
    · refine ⟨_, .of_forall fun n => if_pos (hconst g₁ a ▸ hskip), g₁, rfl, hP, fun n hn hnot => ?_, hkeep⟩
      rcases List.mem_append.mp hn with hn | hn
      · exact hdone n hn hnot
      · rw [List.mem_singleton.mp hn] at hnot
        exact absurd hskip hnot
    · obtain ⟨g₂, hgives, hP₂, ha₂, hkeep₂⟩ := hcall g₁ a hP ha hskip
      refine ⟨t.withDesktops g₂, ?_, g₂, rfl, hP₂, fun n hn hnot => ?_, fun v hv => hkeep₂ v (hkeep v hv)⟩
      · filter_upwards [hgives] with n hn
        rw [hconst g₁ a, if_neg hskip]
        exact hn
      · rcases List.mem_append.mp hn with hn | hn
        · exact hkeep₂ n (hdone n hn hnot)
        · rw [List.mem_singleton.mp hn]
          exact ha₂
  obtain ⟨_, hs, g, rfl, hinv⟩ := Lib.eventually_foldlM as inv hstep ⟨f, rfl, hf, by simp, fun _ h => h⟩
  exact ⟨g, hs, hinv⟩

/-- A window that gets other desktops passes them on to all of its relatives, by calls that keep a property. -/
private theorem gives_setDesktops (hx : p.oneDesktop x = x) (hne : x ≠ f w) (hw : t.control w)
    (P : (Nat → List Nat) → Prop)
    (hflip : decide (f w = []) ≠ decide (x = []) →
      ∃ g, Gives p t (.updateOnAllDesktopsOfTransients w) (Function.update f w x) g ∧ P g)
    (hsame : decide (f w = []) = decide (x = []) → P (Function.update f w x))
    (hcall : ∀ g n, P g → t.PassesOn w n → ∃ g', Gives p t (.setDesktops n x) g g' ∧ P g' ∧ g' n = x ∧
      ∀ v, g v = x → g' v = x) :
    ∃ g, Gives p t (.setDesktops w x) f g ∧ P g ∧ ∀ n, t.PassesOn w n → g n = x := by
  obtain ⟨f₂, hf₂, hfirst⟩ : ∃ f₂, P f₂ ∧ ∀ᶠ n in atTop, (if decide (f w = []) ≠ decide (x = []) then
      perform p n (.updateOnAllDesktopsOfTransients w) (t.withDesktops (Function.update f w x))
      else .ok (t.withDesktops (Function.update f w x))) = .ok (t.withDesktops f₂) := by
    by_cases hd : decide (f w = []) = decide (x = [])
    · exact ⟨_, hsame hd, .of_forall fun n => if_neg (not_not.mpr hd)⟩
    · obtain ⟨f₂, hgives, hf₂⟩ := hflip hd
      refine ⟨f₂, hf₂, ?_⟩
      filter_upwards [hgives] with n hn
      exact (if_pos hd).trans hn
  obtain ⟨f₃, hchildren, hf₃, hall₃, -⟩ := foldlM_setDesktops (t.ensureStackingOrder (t.children w)) Family.annexed
    (fun _ _ => rfl) P
    (fun g n hg hn hnot => hcall g n hg (.inl ⟨mem_ensureStackingOrder.mp hn, hnot⟩)) hf₂
  obtain ⟨f₄, hleads, hf₄, hall₄, hkeep₄⟩ := foldlM_setDesktops (if t.modal w then t.leads w else [])
    (fun _ _ => false) (fun _ _ => rfl) P
    (fun g n hg hn _ => by
      split at hn
      · next hm => exact hcall g n hg (.inr ⟨hm, hn⟩)
      · cases hn) hf₃
  refine ⟨f₄, Lib.Returns.of_body ?_, hf₄, fun n hn => ?_⟩
  · filter_upwards [hfirst, hchildren, hleads] with n hfirst hchildren hleads
    have hown : (Function.update f w x) w = x := Function.update_self w x f
    simp only [callBody, setDesktops, hx]
    refine (if_neg hne).trans ((if_pos hw).trans ?_)
    simp only [Family.isOnAllDesktops, Family.storeDesktops, Family.withDesktops, hown]
    refine (Lib.bind_of_ok hfirst).trans ((Lib.bind_of_ok hchildren).trans ?_)
    simp only [Bool.false_eq_true, if_false] at hleads
    by_cases hm : t.modal w
    · rw [if_pos hm] at hleads
      exact (if_pos hm).trans hleads
    · rw [if_neg hm] at hleads
      exact (if_neg hm).trans hleads
  · rcases hn with ⟨hn, hnot⟩ | ⟨hm, hn⟩
    · exact hkeep₄ n (hall₃ n (mem_ensureStackingOrder.mpr hn) hnot)
    · exact hall₄ n (by rwa [if_pos hm]) (by simp)

private theorem gives_setOnAllDesktops (hp : p.Plain) (hw : t.control w) {b : Bool} (hne : b ≠ decide (f w = []))
    (h : Gives p t (.setDesktops w (if b then [] else currentList p)) f g) :
    Gives p t (.setOnAllDesktops w b) f g := by
  have hruled : p.ruledDesktops w (if b then onAllDesktops else p.current) =
      if b then [] else currentList p := by
    cases b with
    | true => exact ruledDesktops_all hp w
    | false => exact ruledDesktops_current hp w
  have hone : Gives p t (.setDesktop w (if b then onAllDesktops else p.current)) f g := by
    refine Lib.Returns.of_body ?_
    filter_upwards [h] with n hn
    refine (if_pos hw).trans ?_
    rw [hruled]
    exact hn
  refine Lib.Returns.of_body ?_
  filter_upwards [hone] with n hn
  exact (if_neg hne).trans hn

/-- While a window tells its children whether it is on all desktops, they get no desktops but these. -/
private theorem gives_updateOnAllDesktops (hp : p.Plain) (hcontrol : ∀ m ∈ t.children w, t.control m)
    (P : (Nat → List Nat) → Prop) (hx : ∀ g, P g → (if g w = [] then [] else currentList p) = x)
    (hcall : ∀ g m, P g → m ∈ t.children w → ∃ g', Gives p t (.setDesktops m x) g g' ∧ P g') (hf : P f) :
    ∃ g, Gives p t (.updateOnAllDesktopsOfTransients w) f g ∧ P g := by
  let inv (s : Family) : Prop := ∃ g, s = t.withDesktops g ∧ P g
  have hstep : ∀ m s, m ∈ t.children w → inv s → ∃ s', (∀ᶠ n in atTop,
      (if s.isOnAllDesktops m ≠ s.isOnAllDesktops w then
        perform p n (.setOnAllDesktops m (s.isOnAllDesktops w)) s
      else .ok s) = .ok s') ∧ inv s' := by
    rintro m _ hm ⟨g, rfl, hg⟩
    by_cases hd : (t.withDesktops g).isOnAllDesktops m = (t.withDesktops g).isOnAllDesktops w
    · exact ⟨_, .of_forall fun n => if_neg (not_not.mpr hd), g, rfl, hg⟩
    · obtain ⟨g', hgives, hg'⟩ := hcall g m hg hm
      have hgives' : Gives p t (.setDesktops m (if decide (g w = []) then [] else currentList p)) g g' := by
        simpa [hx g hg] using hgives
      have hall := gives_setOnAllDesktops hp (hcontrol m hm) (Ne.symm hd) hgives'
      refine ⟨_, ?_, g', rfl, hg'⟩
      filter_upwards [hall] with n hn
      exact (if_pos hd).trans hn
  obtain ⟨_, hs, g, rfl, hg⟩ := Lib.eventually_foldlM (t.children w) (fun _ => inv) (fun _ => hstep) ⟨f, rfl, hf⟩
  exact ⟨g, Lib.Returns.of_body hs, hg⟩

/-- To be on all desktops or on the current one is passed on, and nothing else is on the way. -/
private theorem gives_pure (ht : t.Managed members) (hp : p.Plain)
    (hx : (if x = [] then [] else currentList p) = x) (k : Nat) :
    ∀ f w, w ∈ members → (Lib.others members x f).card ≤ k → ∃ g, Gives p t (.setDesktops w x) f g ∧
      Lib.Spread t.PassesOn x f g ∧ Lib.Excursion t.PassesOn x (· = w) f g ∧ g w = x := by
  have hone : p.oneDesktop x = x := by
    rw [← hx]
    split
    · exact oneDesktop_nil p
    · exact oneDesktop_singleton p _
  induction k with
  | zero =>
    intro f w hw hk
    have hf : f w = x := by
      by_contra hne
      have : w ∈ Lib.others members x f := Lib.mem_others.mpr ⟨hw, hne⟩
      rw [Finset.card_eq_zero.mp (Nat.le_zero.mp hk)] at this
      cases this
    exact ⟨f, gives_same (hone.trans hf.symm), .refl _ _ _, .refl _ _ _ _, hf⟩
  | succ k ih =>
    intro f w hw hk
    by_cases hf : f w = x
    · exact ⟨f, gives_same (hone.trans hf.symm), .refl _ _ _, .refl _ _ _ _, hf⟩
    · have hless {g : Nat → List Nat} (hg : Lib.Spread t.PassesOn x (Function.update f w x) g) :
          (Lib.others members x g).card ≤ k := by
        have := hg.others_lt hw hf
        omega
      let P (g : Nat → List Nat) : Prop := Lib.Spread t.PassesOn x (Function.update f w x) g ∧
        Lib.Excursion t.PassesOn x (t.PassesOn w) (Function.update f w x) g
      have hcall (g : Nat → List Nat) (n : Nat) (hg : P g) (hn : t.PassesOn w n) :
          ∃ g', Gives p t (.setDesktops n x) g g' ∧ P g' ∧ g' n = x ∧ ∀ v, g v = x → g' v = x := by
        obtain ⟨g', hgives, hspread, hpath, hn'⟩ := ih g n (ht.passesOn hw hn) (hless hg.1)
        exact ⟨g', hgives, ⟨hg.1.trans hspread, hg.2.trans (hpath.of_root hn)⟩, hn', hspread.keep⟩
      have hown (g : Nat → List Nat) (hg : P g) : (if g w = [] then [] else currentList p) = x := by
        rw [hg.1.keep w (Function.update_self w x f)]
        exact hx
      have hstart : P (Function.update f w x) := ⟨.refl _ _ _, .refl _ _ _ _⟩
      obtain ⟨g, hgives, hg, hall⟩ := gives_setDesktops hone (Ne.symm hf) (ht.control w hw) P
        (fun _ => gives_updateOnAllDesktops hp (fun m hm => ht.control m (ht.children w hw m hm)) P hown
          (fun g m hg hm => by
            obtain ⟨g', hgives, hg', -⟩ := hcall g m hg (ht.passesOn_child hw hm)
            exact ⟨g', hgives, hg'⟩) hstart) (fun _ => hstart) hcall
      exact ⟨g, hgives, (Lib.Spread.of_update hg.1 hall).1, Lib.Excursion.of_update hg.2⟩

/-- The windows on all desktops. -/
private def everywhere (members : List Nat) (f : Nat → List Nat) : Finset Nat := members.toFinset.filter (f · = [])

private theorem everywhere_subset (hx : x ≠ []) (hg : ∀ v, g v = [] → Function.update f w x v = []) :
    everywhere members g ⊆ (everywhere members f).erase w := by
  intro v hv
  obtain ⟨hmem, hv⟩ := Finset.mem_filter.mp hv
  have hvw : v ≠ w := by
    rintro rfl
    exact hx (Function.update_self v x f ▸ hg v hv)
  exact Finset.mem_erase.mpr ⟨hvw, Finset.mem_filter.mpr ⟨hmem, Function.update_of_ne hvw x f ▸ hg v hv⟩⟩

/-- Fewer windows are on all desktops after a window was taken from there; else fewer do not have the new ones. -/
private theorem lex_lt (hx : x ≠ []) (hw : w ∈ members) (hne : x ≠ f w)
    (hg : ∀ v, g v = [] → Function.update f w x v = [])
    (hspread : f w ≠ [] → Lib.Spread t.PassesOn x (Function.update f w x) g) :
    Prod.Lex (· < ·) (· < ·) ((everywhere members g).card, (Lib.others members x g).card)
      ((everywhere members f).card, (Lib.others members x f).card) := by
  have hsub : everywhere members g ⊆ (everywhere members f).erase w := everywhere_subset hx hg
  by_cases hfw : f w = []
  · have hmem : w ∈ everywhere members f := Finset.mem_filter.mpr ⟨List.mem_toFinset.mpr hw, hfw⟩
    exact .left _ _ ((Finset.card_le_card hsub).trans_lt (Finset.card_erase_lt_of_mem hmem))
  · have hle := Finset.card_le_card (hsub.trans (Finset.erase_subset w _))
    rcases hle.eq_or_lt with heq | hlt
    · rw [heq]
      exact .right _ ((hspread hfw).others_lt hw (Ne.symm hne))
    · exact .left _ _ hlt

/-- To be on some desktops is passed on, whatever there is on the way. -/
private theorem gives_spread (ht : t.Managed members) (hp : p.Plain) (hone : p.oneDesktop x = x) (hx : x ≠ [])
    (hcurrent : x ≠ currentList p) (f : Nat → List Nat) (w : Nat) (hw : w ∈ members) :
    ∃ g, Gives p t (.setDesktops w x) f g ∧ Lib.Spread t.PassesOn x f g ∧ g w = x ∧ ∀ v, g v = [] → f v = [] := by
  by_cases hf : f w = x
  · exact ⟨f, gives_same (hone.trans hf.symm), .refl _ _ _, hf, fun _ h => h⟩
  · let after (g : Nat → List Nat) : Prop :=
      Lib.Excursion t.PassesOn (currentList p) (t.PassesOn w) (Function.update f w x) g
    let P (g : Nat → List Nat) : Prop := (∃ g₂, after g₂ ∧ Lib.Spread t.PassesOn x g₂ g) ∧
      (∀ v, g v = [] → Function.update f w x v = []) ∧
      (f w ≠ [] → Lib.Spread t.PassesOn x (Function.update f w x) g)
    have hcall (g : Nat → List Nat) (n : Nat) (hg : P g) (hn : t.PassesOn w n) :
        ∃ g', Gives p t (.setDesktops n x) g g' ∧ P g' ∧ g' n = x ∧ ∀ v, g v = x → g' v = x := by
      have hless := lex_lt hx hw (Ne.symm hf) hg.2.1 hg.2.2
      obtain ⟨g', hgives, hspread, hn', hempty⟩ := gives_spread ht hp hone hx hcurrent g n (ht.passesOn hw hn)
      obtain ⟨⟨g₂, hg₂, hg⟩, hgempty, hgspread⟩ := hg
      exact ⟨g', hgives, ⟨⟨g₂, hg₂, hg.trans hspread⟩, fun v hv => hgempty v (hempty v hv),
        fun h => (hgspread h).trans hspread⟩, hn', hspread.keep⟩
    have hown (g : Nat → List Nat) (hg : after g) (v : Nat) (hv : g v = []) : Function.update f w x v = [] := by
      rcases hg.only v with h | h
      · rw [← h, hv]
      · rw [hv] at h
        cases h
    have hflip (hd : decide (f w = []) ≠ decide (x = [])) :
        ∃ g, Gives p t (.updateOnAllDesktopsOfTransients w) (Function.update f w x) g ∧ P g := by
      obtain ⟨g, hgives, hg⟩ := gives_updateOnAllDesktops hp (fun m hm => ht.control m (ht.children w hw m hm)) after
        (fun g hg => if_neg fun h => hx (Function.update_self w x f ▸ hown g hg w h))
        (fun g m hg hm => by
          obtain ⟨g', hgives, -, hpath, -⟩ := gives_pure ht hp (if_neg (by simp [currentList])) _ g m
            (ht.children w hw m hm) le_rfl
          exact ⟨g', hgives, hg.trans (hpath.of_root (ht.passesOn_child hw hm))⟩) (.refl _ _ _ _)
      exact ⟨g, hgives, ⟨g, hg, .refl _ _ _⟩, hown g hg, fun h => absurd (by simp [h, hx]) hd⟩
    obtain ⟨g, hgives, ⟨⟨g₂, hg₂, hspread⟩, hempty, -⟩, hall⟩ := gives_setDesktops hone (Ne.symm hf) (ht.control w hw) P
      hflip (fun _ => ⟨⟨_, .refl _ _ _ _, .refl _ _ _⟩, fun _ h => h, fun _ => .refl _ _ _⟩) hcall
    obtain ⟨hspread, hwx⟩ := Lib.Spread.of_excursion hcurrent hg₂ hspread hall
    refine ⟨g, hgives, hspread, hwx, fun v hv => ?_⟩
    have hvw : v ≠ w := by
      rintro rfl
      exact hx (hwx.symm.trans hv)
    rw [← Function.update_of_ne hvw x f]
    exact hempty v hv
termination_by ((everywhere members f).card, (Lib.others members x f).card)
decreasing_by exact hless

private theorem perform_oneDesktop (p : Setting) (win : Nat) (desktops : List Nat) (n : Nat) :
    perform p n (.setDesktops win desktops) = perform p n (.setDesktops win (p.oneDesktop desktops)) := by
  cases n with
  | zero => rfl
  | succ n =>
    funext t
    simp only [perform, Lib.unroll, callBody, setDesktops, oneDesktop_idem]

/-- Windows on the same desktops that a window passes its desktops on to get other ones with it: the change comes back,
and whatever the calls assign in between, all have the new desktops then. -/
theorem desktops_spread (hp : p.Plain) (ht : t.Managed members) {win : Nat} (hwin : win ∈ members)
    (hsame : ∀ v, ReflTransGen t.PassesOn win v → t.desktops v = t.desktops win) (desktops : List Nat) :
    ∃ t', Lib.Returns .depth (callBody p) (.setDesktops win desktops) t t' ∧
      ∀ v, ReflTransGen t.PassesOn win v → t'.desktops v = p.oneDesktop desktops := by
  suffices h : ∃ g, Gives p t (.setDesktops win (p.oneDesktop desktops)) t.desktops g ∧
      Lib.Spread t.PassesOn (p.oneDesktop desktops) t.desktops g ∧ g win = p.oneDesktop desktops by
    obtain ⟨g, hgives, hspread, hg⟩ := h
    refine ⟨t.withDesktops g, ?_, fun v hv => ?_⟩
    · filter_upwards [hgives] with n hn
      exact (congrFun (perform_oneDesktop p win desktops n) t).trans hn
    · by_cases hnew : t.desktops win = p.oneDesktop desktops
      · exact hspread.keep v ((hsame v hv).trans hnew)
      · exact hspread.reach hg (fun v hv => by rwa [hsame v hv]) hv
  by_cases hpure : (if p.oneDesktop desktops = [] then [] else currentList p) = p.oneDesktop desktops
  · obtain ⟨g, hgives, hspread, -, hg⟩ := gives_pure ht hp hpure _ t.desktops win hwin le_rfl
    exact ⟨g, hgives, hspread, hg⟩
  · have hx : p.oneDesktop desktops ≠ [] := fun h => hpure (by rw [if_pos h, h])
    have hcurrent : p.oneDesktop desktops ≠ currentList p := fun h => hpure (by rw [if_neg hx, h])
    obtain ⟨g, hgives, hspread, hg, -⟩ :=
      gives_spread ht hp (oneDesktop_idem p desktops) hx hcurrent t.desktops win hwin
    exact ⟨g, hgives, hspread, hg⟩

end calls

/-- Three desktops, of which the first is the current one. -/
def threeDesktops : Setting :=
  ⟨false, 3, 1, fun _ desktop => desktop, fun _ screen => screen, fun _ set => set,
    fun _ => .wayland false true, fun _ _ => false, fun _ _ screen => screen⟩

/-- A window and its modal dialog, both on all desktops. -/
def modalDialog : Family :=
  { Family.initial with
    windows := ((Windows.initial.appear 1 false).appear 2 false).addChild 1 2
    control := fun _ => true
    modal := (· = 2) }

/-- The dialog takes the window to the current desktop at first. -/
theorem modalDialog_desktops_spread :
    ∃ t', Lib.Returns .depth (callBody threeDesktops) (.setDesktops 1 [2]) modalDialog t' ∧
      t'.desktops 1 = [2] ∧ t'.desktops 2 = [2] := by
  have hmanaged : modalDialog.Managed [1, 2] := by
    constructor <;> decide
  obtain ⟨t', hreturns, hall⟩ := desktops_spread (p := threeDesktops) ⟨fun _ _ => rfl, by decide⟩ hmanaged
    List.mem_cons_self (fun _ _ => rfl) [2]
  exact ⟨t', hreturns, hall 1 .refl, hall 2 (.single (.inl (by decide)))⟩

end KWinFT.Transient
