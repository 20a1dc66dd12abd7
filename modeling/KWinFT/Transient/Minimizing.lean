import KWinFT.Transient.Desktops
import KWinFT.Transient.Steps
import KWinFT.Transient.Walks

/-! How the minimized state spreads from a window over its relatives, and back. A relative that
refuses to be minimized is told of its own state all the same, and restores its transients. An X11 transient that does
not want tab focus refuses as long as one of its leads is shown. -/
namespace KWinFT.Transient
open Filter Relation

namespace Family
variable (p : Setting) (t : Family)

def withMinimized (m : Nat → Bool) : Family := { t with minimized := m }

/-- Minimizable at all times: before anything is minimized. -/
def able (w : Nat) : Bool := p.isMinimizable (t.withMinimized fun _ => false) w

/-- With the windows of `m` minimized, telling the relatives of `c` about its state restores one: a
child of `c` itself if `c` is not minimized, else a child of one of its children that is not. -/
def restores (m : Nat → Bool) (c : Nat) : Bool :=
  if m c then (t.children c).any fun n => !t.modal n && !m n && (t.children n).any m
  else (t.children c).any m

/-- The windows that are minimized when `w` and, depth first, its relatives are, to some depth. Each
child is told of its state once more; there is no result if that restores a window. -/
def hide : Nat → (Nat → Bool) → Nat → Option (Nat → Bool)
  | 0, m, _ => some m
  | depth + 1, m, w =>
    if ¬ p.isMinimizable (t.withMinimized m) w ∨ m w then some m
    else
      ((t.children w).foldlM (fun m c =>
        if t.modal c ∨ m c then some m
        else (hide depth m c).filter fun m => !t.restores m c) (Function.update m w true)).bind fun m =>
      if t.modal w then (t.leads w).foldlM (hide depth) m else some m

/-- Nothing is restored on the way, however deep it goes. -/
def Undisturbed (win : Nat) : Prop := ∀ᶠ depth in atTop, (t.hide p depth (fun _ => false) win).isSome

/-- Leads have their transients as children. -/
def TwoWay : Prop := ∀ l c, l ∈ t.leads c → c ∈ t.children l

/-- A minimized modal window takes a lead with it that is minimizable at all times. -/
def TakesLead (a l : Nat) : Prop := t.modal a ∧ l ∈ t.leads a ∧ t.able p l

end Family

/-- Which windows are hidden does not change as others are minimized, and no rules keep windows minimized or shown. -/
structure Setting.Steady (p : Setting) (t : Family) : Prop where
  hidden : ∀ m w, p.hidden (t.withMinimized m) w = p.hidden t w
  checkMinimize : ∀ w set, p.checkMinimize w set = set

section able
variable {p : Setting} {t : Family} {m m' : Nat → Bool} {w : Nat}

/-- Beside the window one of its leads is shown, or none. -/
private def minimizableBeside (p : Setting) (t : Family) (w : Nat) (shown : Bool) : Bool :=
  if ¬ t.control w then false
  else
    match p.kind w with
    | .x11 isSpecialWindow wantsTabFocus =>
      if isSpecialWindow ∧ t.leads w = [] then false
      else if ¬ p.checkMinimize w true then false
      else if t.leads w ≠ [] ∧ ¬ shown then true
      else wantsTabFocus
    | .wayland layerSurface normalRole => !layerSurface && p.checkMinimize w true && normalRole
    | .internal => false

private theorem isMinimizable_eq : p.isMinimizable (t.withMinimized m) w =
    minimizableBeside p t w ((t.leads w).any (p.isShown (t.withMinimized m))) := rfl

private theorem isShown_withMinimized (hp : p.Steady t) (l : Nat) :
    p.isShown (t.withMinimized m) l = (t.control l && !m l && !p.hidden t l) := by
  rw [Setting.isShown, hp.hidden]
  rfl

/-- It depends on others only by the leads. -/
theorem isMinimizable_congr (hp : p.Steady t) (h : ∀ l ∈ t.leads w, m l = m' l) :
    p.isMinimizable (t.withMinimized m) w = p.isMinimizable (t.withMinimized m') w := by
  rw [isMinimizable_eq, isMinimizable_eq]
  congr 1
  rw [Bool.eq_iff_iff, List.any_eq_true, List.any_eq_true]
  refine exists_congr fun l => and_congr_right fun hl => ?_
  rw [isShown_withMinimized hp, isShown_withMinimized hp, h l hl]

/-- A window becomes minimizable when one of its leads is minimized. -/
theorem lead_of_isMinimizable (hp : p.Steady t) (h : ∀ v, m v = true → m' v = true)
    (hno : ¬ p.isMinimizable (t.withMinimized m) w) (ha : p.isMinimizable (t.withMinimized m') w) :
    ∃ l ∈ t.leads w, m l ≠ true ∧ m' l = true := by
  by_contra hnone
  refine hno ((isMinimizable_congr hp fun l hl => ?_).trans ha)
  cases hm : m l with
  | true => exact (h l hm).symm
  | false => exact (Bool.eq_false_iff.mpr fun hm' => hnone ⟨l, hl, by simp [hm], hm'⟩).symm

end able

section walk
variable {p : Setting} {t : Family} {m m' m₁ : Nat → Bool} {w c : Nat} {members : List Nat}

/-- Windows stay minimized, and those that were minimized have taken with them their children, as far as these are
minimizable by now, and if they are modal their leads. -/
structure Hides (p : Setting) (t : Family) (m m' : Nat → Bool) : Prop
    extends Lib.Spread (t.TakesLead p) true m m' where
  child : ∀ v, m' v = true → m v ≠ true → ∀ c ∈ t.children v, ¬ t.modal c →
    p.isMinimizable (t.withMinimized m') c → m' c = true

theorem Hides.refl (p : Setting) (t : Family) (m : Nat → Bool) : Hides p t m m :=
  ⟨.refl _ _ _, fun _ h hne => absurd h hne⟩

/-- A window that becomes minimizable is a child of one that was minimized, and is taken with it. -/
theorem Hides.late (h : Hides p t m m') (hp : p.Steady t) (ht : t.TwoWay) (hmodal : ¬ t.modal c)
    (hc : p.isMinimizable (t.withMinimized m) c → m c = true) (ha : p.isMinimizable (t.withMinimized m') c) :
    m' c = true := by
  by_cases hable : p.isMinimizable (t.withMinimized m) c
  · exact h.keep c (hc hable)
  · obtain ⟨l, hl, hno, hnew⟩ := lead_of_isMinimizable hp h.keep hable ha
    exact h.child l hnew hno c (ht l c hl) hmodal ha

theorem Hides.trans (h : Hides p t m m₁) (h' : Hides p t m₁ m') (hp : p.Steady t) (ht : t.TwoWay) :
    Hides p t m m' := by
  refine ⟨h.toSpread.trans h'.toSpread, fun v hv hne c hc hmodal ha => ?_⟩
  by_cases hv₁ : m₁ v = true
  · exact h'.late hp ht hmodal (h.child v hv₁ hne c hc hmodal) ha
  · exact h'.child v hv hv₁ c hc hmodal ha

/-- A window is minimized and takes its relatives with it. -/
theorem Hides.of_update (h : Hides p t (Function.update m w true) m')
    (hchildren : ∀ c ∈ t.children w, ¬ t.modal c → p.isMinimizable (t.withMinimized m') c → m' c = true)
    (hleads : ∀ l, t.TakesLead p w l → m' l = true) : Hides p t m m' ∧ m' w = true := by
  obtain ⟨hspread, hw⟩ := Lib.Spread.of_update h.toSpread hleads
  refine ⟨⟨hspread, fun v hv hne c hc hmodal ha => ?_⟩, hw⟩
  by_cases hvw : v = w
  · exact hchildren c (hvw ▸ hc) hmodal ha
  · exact h.child v hv (by rwa [Function.update_of_ne hvw]) c hc hmodal ha

namespace Family

end Family
end walk

section calls
variable {p : Setting} {t : Family} {m m' : Nat → Bool} {w c : Nat} {members : List Nat}

end calls

/-- Four clients of one group. The second becomes a group transient, and then the third. -/
def groupTransientsRun : List Event :=
  [.manage 1 true, .manage 2 true, .manage 3 true, .manage 4 true, .checkGroup 1 ⟨7, []⟩, .checkGroup 4 ⟨7, []⟩,
    .checkGroup 3 ⟨7, []⟩, .readTransientProperty 2 ⟨some .root, false, []⟩ ⟨7, []⟩,
    .readTransientProperty 3 ⟨some .root, false, []⟩ ⟨7, []⟩]

def groupTransients : Family :=
  { Family.initial with
    windows := (Lib.execute step Windows.initial groupTransientsRun).getD .initial
    control := fun _ => true }

end KWinFT.Transient
