import KWinFT.Lib.Runs
import KWinFT.Transient.Cascades

/-! Which relatives a change comes to. Children are passed on desktops unless they are annexed, and the leads of a
modal dialog always are; neither asks for a control, and no more does the helper for windows on all desktops. -/
namespace KWinFT.Transient

/-- The window can be minimized, or no rule keeps it from being shown. -/
def Setting.accepts (p : Setting) (t : Family) (w : Nat) (set : Bool) : Bool :=
  t.control w && if set then p.isMinimizable t w else !p.checkMinimize w false

/-- What can happen during a change: a call is made, a window is on some desktops, or it is minimized or not. The
relatives of a window are told while it is minimized or while it is not, and a window refuses to be minimized or shown. -/
inductive Fact
  | called (call : Call)
  | on (w : Nat) (desktops : List Nat)
  | minimized (w : Nat) (set : Bool)
  | updating (w : Nat) (set : Bool)
  | refused (w : Nat) (set : Bool)

section facts
variable (p : Setting) (s : Family) (start : Call)

/-- What can happen from a state on, whatever the order: windows are as they were or as a call has made them, and
every call that the window's state can lead to is made. -/
inductive Possible : Fact → Prop
  | start : Possible (.called start)
  | was_on (w : Nat) : Possible (.on w (s.desktops w))
  | was_minimized (w : Nat) : Possible (.minimized w (s.minimized w))
  | moved {w : Nat} {desktops : List Nat} (h : Possible (.called (.setDesktops w desktops))) (hc : s.control w) :
      Possible (.on w (p.oneDesktop desktops))
  | child {w c : Nat} {desktops before : List Nat} (h : Possible (.called (.setDesktops w desktops)))
      (hw : Possible (.on w before)) (hne : p.oneDesktop desktops ≠ before) (hc : c ∈ s.children w)
      (hannexed : ¬ s.annexed c) : Possible (.called (.setDesktops c (p.oneDesktop desktops)))
  | lead {w l : Nat} {desktops before : List Nat} (h : Possible (.called (.setDesktops w desktops)))
      (hw : Possible (.on w before)) (hne : p.oneDesktop desktops ≠ before) (hmodal : s.modal w) (hl : l ∈ s.leads w) :
      Possible (.called (.setDesktops l (p.oneDesktop desktops)))
  | spread {w : Nat} {desktops before : List Nat} (h : Possible (.called (.setDesktops w desktops)))
      (hw : Possible (.on w before)) (hne : (before = []) ≠ (p.oneDesktop desktops = [])) :
      Possible (.called (.updateOnAllDesktopsOfTransients w))
  | transient {w c : Nat} {now before : List Nat} (h : Possible (.called (.updateOnAllDesktopsOfTransients w)))
      (hw : Possible (.on w now)) (hc : c ∈ s.children w) (hb : Possible (.on c before))
      (hne : (before = []) ≠ (now = [])) : Possible (.called (.setOnAllDesktops c (now = [])))
  | single {w : Nat} {set : Bool} {before : List Nat} (h : Possible (.called (.setOnAllDesktops w set)))
      (hw : Possible (.on w before)) (hne : set ≠ decide (before = [])) :
      Possible (.called (.setDesktop w (if set then onAllDesktops else p.current)))
  | ruled {w : Nat} {desktop : Int} (h : Possible (.called (.setDesktop w desktop))) :
      Possible (.called (.setDesktops w (p.ruledDesktops w desktop)))
  | start_updating {w : Nat} (h : start = .updateMinimizedOfTransients w) : Possible (.updating w (s.minimized w))
  -- Whether a window accepts or refuses depends on which others are minimized at the time.
  | accepted {w : Nat} {set : Bool} {t : Family} (h : Possible (.called (.setMinimized w set)))
      (hne : Possible (.minimized w (!set))) (hwindows : t.windows = s.windows) (hcontrol : t.control = s.control)
      (hm : ∀ x, Possible (.minimized x (t.minimized x))) (ha : p.accepts t w set) : Possible (.updating w set)
  | refused {w : Nat} {set : Bool} {t : Family} (h : Possible (.called (.setMinimized w set)))
      (hne : Possible (.minimized w (!set))) (hwindows : t.windows = s.windows) (hcontrol : t.control = s.control)
      (hm : ∀ x, Possible (.minimized x (t.minimized x))) (ha : ¬ p.accepts t w set) : Possible (.refused w set)
  | stored {w : Nat} {set : Bool} (h : Possible (.updating w set)) : Possible (.minimized w set)
  | follower {w c : Nat} {set : Bool} (h : Possible (.updating w set)) (hc : c ∈ s.children w) (hcontrol : s.control c)
      (hmodal : set → ¬ s.modal c) (hne : Possible (.minimized c (!set))) : Possible (.called (.setMinimized c set))
  | again {w c : Nat} {set : Bool} (h : Possible (.updating w set)) (hc : c ∈ s.children w) (hcontrol : s.control c)
      (hmodal : set → ¬ s.modal c) (hr : Possible (.refused c set)) : Possible (.updating c (!set))
  | main {w l : Nat} {set : Bool} (h : Possible (.updating w set)) (hmodal : s.modal w) (hl : l ∈ s.leads w) :
      Possible (.called (.setMinimized l set))
  | sent {w c : Nat} {newScreen : Int} (h : Possible (.called (.sendToScreen w newScreen))) (hc : c ∈ s.children w)
      (hcontrol : s.control c) : Possible (.called (.sendToScreen c (p.checkScreen w newScreen)))

/-- During the change only what is possible has happened. -/
structure Within (t : Family) : Prop where
  windows : t.windows = s.windows
  control : t.control = s.control
  annexed : t.annexed = s.annexed
  modal : t.modal = s.modal
  on : ∀ w, Possible p s start (.on w (t.desktops w))
  minimized : ∀ w, Possible p s start (.minimized w (t.minimized w))

/-- Since another state, windows were minimized or shown only as the change can do it. -/
structure After (t t' : Family) : Prop extends Within p s start t' where
  changed : ∀ w, t'.minimized w = t.minimized w ∨ Possible p s start (.updating w (t'.minimized w))

/-- The call is possible; for the helper it matters whether the window is minimized. -/
def Asked (t : Family) : Call → Prop
  | .updateMinimizedOfTransients w => Possible p s start (.updating w (t.minimized w))
  | call => Possible p s start (.called call)

/-- A window that was not minimized or shown as it was asked to be has refused, unless it was changed back. -/
def Settled (t t' : Family) : Call → Prop
  | .setMinimized w set =>
    t.minimized w = set ∨ Possible p s start (.updating w (t'.minimized w)) ∨
      (t'.minimized w = !set) ∧ Possible p s start (.refused w set)
  | _ => True

end facts

section bodies
variable {p : Setting} {s t t' t₁ : Family} {start : Call} {self : Self}

theorem Within.refl : Within p s start s := ⟨rfl, rfl, rfl, rfl, .was_on, .was_minimized⟩

theorem Within.children (h : Within p s start t) (w : Nat) : t.children w = s.children w := by
  rw [Family.children, h.windows, Family.children]

theorem Within.leads (h : Within p s start t) (w : Nat) : t.leads w = s.leads w := by
  rw [Family.leads, h.windows, Family.leads]

theorem Within.storeDesktops (h : Within p s start t) {w : Nat} {desktops : List Nat}
    (hd : Possible p s start (.on w desktops)) : Within p s start (t.storeDesktops w desktops) := by
  refine ⟨h.windows, h.control, h.annexed, h.modal, fun x => ?_, h.minimized⟩
  rw [show (t.storeDesktops w desktops).desktops x = if x = w then desktops else t.desktops x from
    Function.update_apply t.desktops w desktops x]
  split
  next hx => rwa [hx]
  next => exact h.on x

theorem Within.storeMinimized (h : Within p s start t) {w : Nat} {set : Bool}
    (hm : Possible p s start (.minimized w set)) : Within p s start (t.storeMinimized w set) := by
  refine ⟨h.windows, h.control, h.annexed, h.modal, h.on, fun x => ?_⟩
  rw [show (t.storeMinimized w set).minimized x = if x = w then set else t.minimized x from
    Function.update_apply t.minimized w set x]
  split
  next hx => rwa [hx]
  next => exact h.minimized x

theorem Within.after (h : Within p s start t) (hm : t.minimized = t'.minimized) : After p s start t' t :=
  ⟨h, fun w => .inl (by rw [hm])⟩

theorem After.trans (h : After p s start t t₁) (h' : After p s start t₁ t') : After p s start t t' := by
  refine ⟨h'.toWithin, fun w => ?_⟩
  rcases h'.changed w with hw | hw
  · rw [hw]
    exact h.changed w
  · exact .inr hw

theorem mem_of_mem_ensureStackingOrder {list : List Nat} {c : Nat} (h : c ∈ t.ensureStackingOrder list) :
    c ∈ list := by
  rwa [Family.ensureStackingOrder, Stacking.mem_ensureStackingOrderInList] at h

/-- The error that is meant. -/
def IsNull (e : Stop) : Prop := e = .nullControl

/-- Calls that are possible are safe, and do what can be done. -/
def Callable (p : Setting) (s : Family) (start : Call) (self : Self) : Prop :=
  ∀ call t, Asked p s start t call ∧ Within p s start t →
    Lib.Safe IsNull (fun t' => After p s start t t' ∧ Settled p s start t t' call) (self call t)

/-- A further call in the middle of a body. -/
theorem Callable.next (hself : Callable p s start self) {call : Call} (h : After p s start t t₁)
    (hcall : Asked p s start t₁ call) : Lib.Safe IsNull (After p s start t) (self call t₁) :=
  (hself call t₁ ⟨hcall, h.toWithin⟩).mono fun _ h' => h.trans h'.1

end bodies

section dialog
variable {t : Family} (h₁ : t.children 1 = [2, 3]) (h₂ : t.children 2 = []) (hmodal₁ : t.modal 1 = false)
  (hmodal₂ : t.modal 2 = false) (hannexed : t.annexed 3 = true) (hdesktops₁ : t.desktops 1 = [1])
  (hdesktops₂ : t.desktops 2 = [1])
include h₁ h₂ hmodal₁ hmodal₂ hannexed hdesktops₁ hdesktops₂

end dialog

end KWinFT.Transient
