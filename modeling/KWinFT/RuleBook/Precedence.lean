import KWinFT.RuleBook.Settings

/-! What the rules of a window make of a value: the first rule that uses the property decides. -/
namespace KWinFT.RuleBook
open KWinFT.Geometry

namespace Policy
variable (rule : Policy) (init : Bool)

def checkSetRule : Bool :=
  rule.code > dontAffect.code ∧
    (rule.code = force.code ∨ rule.code = applyNow.code ∨ rule.code = forceTemporarily.code ∨ init)

def checkForceRule : Bool := rule.code = force.code ∨ rule.code = forceTemporarily.code

/-- `checkSetStop` and `checkForceStop`. -/
def checkStop : Bool := rule.code ≠ unused.code

end Policy

/-- The value after the rule, and whether no further one is asked. -/
def applySet {α : Type} (ruler : Ruler α) (target : α) (init : Bool) : α × Bool :=
  (if ruler.rule.checkSetRule init then ruler.data else target, ruler.rule.checkStop)

def applyForce {α : Type} (ruler : Ruler α) (target : α) : α × Bool :=
  (if ruler.rule.checkForceRule then ruler.data else target, ruler.rule.checkStop)

namespace Rules
variable (r : Rules)

def applyPosition (pos : Point) (init : Bool) : Point × Bool :=
  (if (r.set .position).data ≠ invalidPoint ∧ (r.set .position).rule.checkSetRule init then (r.set .position).data
    else pos, (r.set .position).rule.checkStop)

def applySize (s : Size) (init : Bool) : Size × Bool :=
  (if Size.isValid (r.set .size).data ∧ (r.set .size).rule.checkSetRule init then (r.set .size).data else s,
    (r.set .size).rule.checkStop)

def applyActivity := applySet (r.set .activity)
def applyMinimize := applySet (r.set .minimize)
def applySkipTaskbar := applySet (r.set .skiptaskbar)
def applySkipPager := applySet (r.set .skippager)
def applySkipSwitcher := applySet (r.set .skipswitcher)
def applyKeepAbove := applySet (r.set .above)
def applyKeepBelow := applySet (r.set .below)
def applyFullScreen := applySet (r.set .fullscreen)
def applyDesktop := applySet (r.set .desktop)
def applyScreen := applySet (r.set .screen)
def applyNoBorder := applySet (r.set .noborder)
def applyShortcut := applySet (r.set .shortcut)
def applyDesktopFile := applySet (r.set .desktopfile)
def applyIgnoreGeometry := applySet (r.set .ignoregeometry)

def applyPlacement := applyForce (r.force .placement)
def applyMinSize := applyForce (r.force .minsize)
def applyMaxSize := applyForce (r.force .maxsize)
def applyOpacityActive := applyForce (r.force .opacityactive)
def applyOpacityInactive := applyForce (r.force .opacityinactive)
def applyType := applyForce (r.force .type)
def applyDecoColor := applyForce (r.force .decocolor)
def applyBlockCompositing := applyForce (r.force .blockcompositing)
def applyFSP := applyForce (r.force .fsplevel)
def applyFPP := applyForce (r.force .fpplevel)
def applyAcceptFocus := applyForce (r.force .acceptfocus)
def applyCloseable := applyForce (r.force .closeable)
def applyAutogrouping := applyForce (r.force .autogroup)
def applyAutogroupInForeground := applyForce (r.force .autogroupfg)
def applyAutogroupById := applyForce (r.force .autogroupid)
def applyStrictGeometry := applyForce (r.force .strictgeometry)
def applyDisableGlobalShortcuts := applyForce (r.force .disableglobalshortcuts)

/-- The flag is only ever set. -/
def applyMaximizeHoriz (mode : MaximizeMode) (init : Bool) : MaximizeMode × Bool :=
  (if (r.set .maximizehoriz).rule.checkSetRule init ∧ (r.set .maximizehoriz).data then .ofFlags mode.hasVertical true
    else mode, (r.set .maximizehoriz).rule.checkStop)

def applyMaximizeVert (mode : MaximizeMode) (init : Bool) : MaximizeMode × Bool :=
  (if (r.set .maximizevert).rule.checkSetRule init ∧ (r.set .maximizevert).data then .ofFlags true mode.hasHorizontal
    else mode, (r.set .maximizevert).rule.checkStop)

end Rules

/-- The loop of `check_set` and `check_force` over the rules of a window. -/
def checkRules {α : Type} (apply : Rules → α → α × Bool) : List Rules → α → α
  | [], data => data
  | r :: rs, data => if (apply r data).2 then (apply r data).1 else checkRules apply rs (apply r data).1

namespace WindowRules
variable (rules : List Rules)

def checkSet {α : Type} (apply : Rules → α → Bool → α × Bool) (data : α) (init : Bool) : α :=
  checkRules (fun r data => apply r data init) rules data

def checkForce {α : Type} (apply : Rules → α → α × Bool) (data : α) : α := checkRules apply rules data

def checkPosition := checkSet rules Rules.applyPosition
def checkSize := checkSet rules Rules.applySize
def checkIgnoreGeometry := checkSet rules Rules.applyIgnoreGeometry
def checkDesktop := checkSet rules Rules.applyDesktop
def checkActivity := checkSet rules Rules.applyActivity
def checkMaximizeVert := checkSet rules Rules.applyMaximizeVert
def checkMaximizeHoriz := checkSet rules Rules.applyMaximizeHoriz
def checkMinimize := checkSet rules Rules.applyMinimize
def checkSkipTaskbar := checkSet rules Rules.applySkipTaskbar
def checkSkipPager := checkSet rules Rules.applySkipPager
def checkSkipSwitcher := checkSet rules Rules.applySkipSwitcher
def checkKeepAbove := checkSet rules Rules.applyKeepAbove
def checkKeepBelow := checkSet rules Rules.applyKeepBelow
def checkFullScreen := checkSet rules Rules.applyFullScreen
def checkNoBorder := checkSet rules Rules.applyNoBorder
def checkShortcut := checkSet rules Rules.applyShortcut
def checkDesktopFile := checkSet rules Rules.applyDesktopFile

def checkPlacement := checkForce rules Rules.applyPlacement
def checkMinSize := checkForce rules Rules.applyMinSize
def checkMaxSize := checkForce rules Rules.applyMaxSize
def checkOpacityActive := checkForce rules Rules.applyOpacityActive
def checkOpacityInactive := checkForce rules Rules.applyOpacityInactive
def checkType := checkForce rules Rules.applyType
def checkDecoColor := checkForce rules Rules.applyDecoColor
def checkBlockCompositing := checkForce rules Rules.applyBlockCompositing
def checkFSP := checkForce rules Rules.applyFSP
def checkFPP := checkForce rules Rules.applyFPP
def checkAcceptFocus := checkForce rules Rules.applyAcceptFocus
def checkCloseable := checkForce rules Rules.applyCloseable
def checkAutogrouping := checkForce rules Rules.applyAutogrouping
def checkAutogroupInForeground := checkForce rules Rules.applyAutogroupInForeground
def checkAutogroupById := checkForce rules Rules.applyAutogroupById
def checkStrictGeometry := checkForce rules Rules.applyStrictGeometry
def checkDisableGlobalShortcuts := checkForce rules Rules.applyDisableGlobalShortcuts

def checkMaximize (mode : MaximizeMode) (init : Bool) : MaximizeMode :=
  .ofFlags (checkMaximizeVert rules mode init).hasVertical (checkMaximizeHoriz rules mode init).hasHorizontal

/-- With the number of screens. -/
def checkScreen (count : Nat) (screen : Int) (init : Bool) : Int :=
  if rules.length = 0 then screen else
    let ret := checkSet rules Rules.applyScreen screen init
    if ret ≥ count then screen else ret

/-- `window::minSize` of a Wayland toplevel with its client's minimum size. -/
def minSize (minimumSize : Size) : Size := checkMinSize rules minimumSize

/-- `window::maxSize` of a Wayland toplevel, which asks for the minimum as well. -/
def maxSize (maximumSize : Size) : Size := checkMinSize rules maximumSize

/-- The function that checks each property but the two of the maximize mode. -/
def check (count : Nat) : (p : SetProperty) → p ≠ .maximizevert ∧ p ≠ .maximizehoriz → p.Data → Bool → p.Data
  | .above, _ => checkKeepAbove rules
  | .activity, _ => checkActivity rules
  | .below, _ => checkKeepBelow rules
  | .ignoregeometry, _ => checkIgnoreGeometry rules
  | .desktop, _ => checkDesktop rules
  | .desktopfile, _ => checkDesktopFile rules
  | .fullscreen, _ => checkFullScreen rules
  | .maximizehoriz, h => absurd rfl h.2
  | .maximizevert, h => absurd rfl h.1
  | .minimize, _ => checkMinimize rules
  | .noborder, _ => checkNoBorder rules
  | .position, _ => checkPosition rules
  | .screen, _ => checkScreen rules count
  | .shortcut, _ => checkShortcut rules
  | .size, _ => checkSize rules
  | .skippager, _ => checkSkipPager rules
  | .skipswitcher, _ => checkSkipSwitcher rules
  | .skiptaskbar, _ => checkSkipTaskbar rules

def checkForced : (p : ForceProperty) → p.Data → p.Data
  | .acceptfocus => checkAcceptFocus rules
  | .autogroup => checkAutogrouping rules
  | .autogroupfg => checkAutogroupInForeground rules
  | .autogroupid => checkAutogroupById rules
  | .blockcompositing => checkBlockCompositing rules
  | .closeable => checkCloseable rules
  | .decocolor => checkDecoColor rules
  | .disableglobalshortcuts => checkDisableGlobalShortcuts rules
  | .fpplevel => checkFPP rules
  | .fsplevel => checkFSP rules
  | .maxsize => checkMaxSize rules
  | .minsize => checkMinSize rules
  | .opacityactive => checkOpacityActive rules
  | .opacityinactive => checkOpacityInactive rules
  | .placement => checkPlacement rules
  | .strictgeometry => checkStrictGeometry rules
  | .type => checkType rules

end WindowRules

/-- The policies by which a set rule is to apply, and a force rule. -/
def Policy.applies (init : Bool) (rule : Policy) : Bool :=
  rule.code = force.code ∨ rule.code = applyNow.code ∨ rule.code = forceTemporarily.code ∨
    (init ∧ dontAffect.code < rule.code)

def Policy.forces (rule : Policy) : Bool := rule.code = force.code ∨ rule.code = forceTemporarily.code

/-- What the first rule that uses the property demands, if it is to apply. -/
def demanded {α : Type} (applies : Policy → Bool) (rulers : List (Ruler α)) : Option α :=
  (rulers.find? (·.rule.checkStop)).bind fun ruler => if applies ruler.rule then some ruler.data else none

def SetProperty.usable (count : Nat) : (p : SetProperty) → p.Data → Bool
  | .position, v => v ≠ invalidPoint
  | .size, v => Size.isValid v
  | .screen, v => 0 ≤ v ∧ v < count
  | .above, _ | .activity, _ | .below, _ | .ignoregeometry, _ | .desktop, _ | .desktopfile, _ | .fullscreen, _
  | .maximizehoriz, _ | .maximizevert, _ | .minimize, _ | .noborder, _ | .shortcut, _ | .skippager, _
  | .skipswitcher, _ | .skiptaskbar, _ => true

def ForceProperty.usable : (p : ForceProperty) → p.Data → Bool
  | .maxsize, v | .minsize, v => Size.isValid v
  | .acceptfocus, _ | .autogroup, _ | .autogroupfg, _ | .autogroupid, _ | .blockcompositing, _ | .closeable, _
  | .decocolor, _ | .disableglobalshortcuts, _ | .fpplevel, _ | .fsplevel, _ | .opacityactive, _
  | .opacityinactive, _ | .placement, _ | .strictgeometry, _ | .type, _ => true

section due
variable (count : Nat) (rules : List Rules)

def demandedSet (p : SetProperty) (init : Bool) : Option p.Data :=
  demanded (·.applies init) (rules.map (·.set p))

def demandedForce (p : ForceProperty) : Option p.Data := demanded Policy.forces (rules.map (·.force p))

/-- The value that is due: what is demanded, if that can be used, or else the value at hand. -/
def dueSet (p : SetProperty) (data : p.Data) (init : Bool) : p.Data :=
  ((demandedSet rules p init).filter (p.usable count)).getD data

def dueForce (p : ForceProperty) (data : p.Data) : p.Data := ((demandedForce rules p).filter p.usable).getD data

end due

/-- What may be asked of the rules, with the value at hand. -/
inductive Query
  | set (p : SetProperty) (h : p ≠ .maximizevert ∧ p ≠ .maximizehoriz) (data : p.Data) (init : Bool)
  | force (p : ForceProperty) (data : p.Data)
  | maximize (mode : MaximizeMode) (init : Bool)
  | minSize (minimumSize : Size)
  | maxSize (maximumSize : Size)

namespace Query
variable (count : Nat) (rules : List Rules)

/-- The answer is the value that is due. -/
def Right : Query → Prop
  | .set p h data init => WindowRules.check rules count p h data init = dueSet count rules p data init
  | .force p data => WindowRules.checkForced rules p data = dueForce rules p data
  | .maximize mode init => WindowRules.checkMaximize rules mode init =
      .ofFlags (dueSet count rules .maximizevert mode.hasVertical init)
        (dueSet count rules .maximizehoriz mode.hasHorizontal init)
  | .minSize minimumSize => WindowRules.minSize rules minimumSize = dueForce rules .minsize minimumSize
  | .maxSize maximumSize => WindowRules.maxSize rules maximumSize = dueForce rules .maxsize maximumSize

/-- No negative screen and no invalid size limit is demanded, nor that a mode be without a direction
that it has; and both size limits of a Wayland toplevel are to be the same. -/
def Answerable : Query → Prop
  | .set .screen _ data init => ∀ v ∈ demandedSet rules .screen init, v < 0 → v = data
  | .set _ _ _ _ => True
  | .force .minsize data => ∀ v ∈ demandedForce rules .minsize, Size.isValid v ∨ v = data
  | .force .maxsize data => ∀ v ∈ demandedForce rules .maxsize, Size.isValid v ∨ v = data
  | .force _ _ => True
  | .maximize mode init => (mode.hasVertical → demandedSet rules .maximizevert init ≠ some false) ∧
      (mode.hasHorizontal → demandedSet rules .maximizehoriz init ≠ some false)
  | .minSize minimumSize => ∀ v ∈ demandedForce rules .minsize, Size.isValid v ∨ v = minimumSize
  | .maxSize maximumSize => (demandedForce rules .minsize).getD maximumSize =
      ((demandedForce rules .maxsize).filter Size.isValid).getD maximumSize

end Query

section loop
variable {α β : Type} {rules : List Rules}

private theorem codes : Policy.unused.code = 0 ∧ Policy.dontAffect.code = 1 ∧ Policy.force.code = 2 ∧
    Policy.applyNow.code = 5 ∧ Policy.forceTemporarily.code = 6 := ⟨rfl, rfl, rfl, rfl, rfl⟩

theorem checkSetRule_eq (rule : Policy) (init : Bool) : rule.checkSetRule init = rule.applies init := by
  obtain ⟨-, h₁, h₂, h₅, h₆⟩ := codes
  rw [Policy.checkSetRule, Policy.applies, decide_eq_decide, h₁, h₂, h₅, h₆]
  cases init <;> simp <;> omega

private theorem code_of_unused {rule : Policy} (h : rule.checkStop = false) : rule.code = 0 :=
  not_not.mp (of_decide_eq_false h)

theorem applies_of_unused {rule : Policy} (h : rule.checkStop = false) (init : Bool) : rule.applies init = false := by
  obtain ⟨-, h₁, h₂, h₅, h₆⟩ := codes
  rw [Policy.applies, decide_eq_false_iff_not, h₁, h₂, h₅, h₆, code_of_unused h]
  omega

theorem forces_of_unused {rule : Policy} (h : rule.checkStop = false) : rule.forces = false := by
  obtain ⟨-, -, h₂, -, h₆⟩ := codes
  rw [Policy.forces, decide_eq_false_iff_not, h₂, h₆, code_of_unused h]
  omega

/-- The loop gives what the first rule that uses the property demands, where that is accepted. -/
theorem checkRules_eq {apply : Rules → β → β × Bool} (ruler : Rules → Ruler α) (applies : Policy → Bool)
    (accepts : α → Bool) (give : α → β → β)
    (happly : ∀ r data, apply r data = (if applies (ruler r).rule ∧ accepts (ruler r).data then
      give (ruler r).data data else data, (ruler r).rule.checkStop))
    (hunused : ∀ rule : Policy, rule.checkStop = false → applies rule = false) (data : β) :
    checkRules apply rules data = ((demanded applies (rules.map ruler)).filter accepts).elim data (give · data) := by
  induction rules with
  | nil => rfl
  | cons r rs ih =>
    rw [checkRules, happly, List.map_cons, demanded, List.find?_cons]
    cases hstop : (ruler r).rule.checkStop with
    | true =>
      by_cases ha : applies (ruler r).rule <;> by_cases hacc : accepts (ruler r).data <;>
        simp [ha, hacc, Option.filter]
    | false =>
      rw [← demanded, hunused _ hstop]
      simpa using ih

private theorem elim_const (o : Option α) (a : α) : o.elim a (fun v => v) = o.getD a := by
  cases o <;> rfl

private theorem filter_true (o : Option α) : o.filter (fun _ => true) = o := by
  cases o <;> rfl

theorem checkSet_eq (p : SetProperty) (data : p.Data) (init : Bool) :
    WindowRules.checkSet rules (fun r => applySet (r.set p)) data init = (demandedSet rules p init).getD data := by
  rw [WindowRules.checkSet, checkRules_eq (fun r => r.set p) (·.applies init) (fun _ => true) (fun v _ => v)
    (fun r data => by simp [applySet, checkSetRule_eq]) (fun _ h => applies_of_unused h init), elim_const, filter_true]
  rfl

theorem checkForce_eq (p : ForceProperty) (data : p.Data) :
    WindowRules.checkForce rules (fun r => applyForce (r.force p)) data = (demandedForce rules p).getD data := by
  rw [WindowRules.checkForce, checkRules_eq (fun r => r.force p) Policy.forces (fun _ => true) (fun v _ => v)
    (fun r data => by simp [applyForce, Policy.checkForceRule, Policy.forces]) (fun _ h => forces_of_unused h),
    elim_const, filter_true]
  rfl

theorem checkPosition_eq (data : Point) (init : Bool) : WindowRules.checkPosition rules data init =
    ((demandedSet rules .position init).filter (· ≠ invalidPoint)).getD data := by
  rw [WindowRules.checkPosition, WindowRules.checkSet, checkRules_eq (fun r => r.set .position) (·.applies init)
    (· ≠ invalidPoint) (fun v _ => v) (fun r data => by simp [Rules.applyPosition, checkSetRule_eq, and_comm])
    (fun _ h => applies_of_unused h init), elim_const]
  rfl

theorem checkSize_eq (data : Size) (init : Bool) : WindowRules.checkSize rules data init =
    ((demandedSet rules .size init).filter Size.isValid).getD data := by
  rw [WindowRules.checkSize, WindowRules.checkSet, checkRules_eq (fun r => r.set .size) (·.applies init)
    Size.isValid (fun v _ => v) (fun r data => by simp [Rules.applySize, checkSetRule_eq, and_comm])
    (fun _ h => applies_of_unused h init), elim_const]
  rfl

theorem checkMaximizeVert_eq (mode : MaximizeMode) (init : Bool) : WindowRules.checkMaximizeVert rules mode init =
    if demandedSet rules .maximizevert init = some true then .ofFlags true mode.hasHorizontal else mode := by
  rw [WindowRules.checkMaximizeVert, WindowRules.checkSet, checkRules_eq (fun r => r.set .maximizevert)
    (·.applies init) id (fun _ mode => .ofFlags true mode.hasHorizontal)
    (fun r data => by simp [Rules.applyMaximizeVert, checkSetRule_eq]) (fun _ h => applies_of_unused h init)]
  change Option.elim (Option.filter id (demandedSet rules .maximizevert init)) _ _ = _
  obtain - | - | - := demandedSet rules .maximizevert init <;> rfl

theorem checkMaximizeHoriz_eq (mode : MaximizeMode) (init : Bool) : WindowRules.checkMaximizeHoriz rules mode init =
    if demandedSet rules .maximizehoriz init = some true then .ofFlags mode.hasVertical true else mode := by
  rw [WindowRules.checkMaximizeHoriz, WindowRules.checkSet, checkRules_eq (fun r => r.set .maximizehoriz)
    (·.applies init) id (fun _ mode => .ofFlags mode.hasVertical true)
    (fun r data => by simp [Rules.applyMaximizeHoriz, checkSetRule_eq]) (fun _ h => applies_of_unused h init)]
  change Option.elim (Option.filter id (demandedSet rules .maximizehoriz init)) _ _ = _
  obtain - | - | - := demandedSet rules .maximizehoriz init <;> rfl

end loop

section queries
variable (count : Nat) (rules : List Rules)

private theorem right_screen_iff (data : Int) (init : Bool) (h) :
    Query.Right count rules (.set .screen h data init) ↔ Query.Answerable rules (.set .screen h data init) := by
  change WindowRules.checkScreen rules count data init = dueSet count rules .screen data init ↔
    ∀ v ∈ demandedSet rules .screen init, v < 0 → v = data
  have hcheck : WindowRules.checkSet rules Rules.applyScreen data init = (demandedSet rules .screen init).getD data :=
    checkSet_eq .screen data init
  by_cases hempty : rules.length = 0
  · rw [WindowRules.checkScreen, if_pos hempty, List.length_eq_zero_iff.mp hempty]
    simp [dueSet, demandedSet, demanded]
  rw [WindowRules.checkScreen, if_neg hempty, hcheck]
  unfold dueSet
  cases demandedSet rules .screen init with
  | none => simp
  | some v => simp [SetProperty.usable, Option.filter]; grind

private theorem right_limit_iff {o : Option Size} {data : Size} :
    o.getD data = (o.filter Size.isValid).getD data ↔ ∀ v ∈ o, Size.isValid v ∨ v = data := by
  cases o with
  | none => simp
  | some v => by_cases hv : Size.isValid v <;> simp [hv, Option.filter]

private theorem dueSet_of_usable {p : SetProperty} (hp : ∀ v : p.Data, p.usable count v = true) (data : p.Data)
    (init : Bool) : (demandedSet rules p init).getD data = dueSet count rules p data init := by
  rw [dueSet, show p.usable count = fun _ => true from funext hp, filter_true]

private theorem dueForce_of_usable {p : ForceProperty} (hp : ∀ v : p.Data, p.usable v = true) (data : p.Data) :
    (demandedForce rules p).getD data = dueForce rules p data := by
  rw [dueForce, show p.usable = fun _ => true from funext hp, filter_true]

private theorem right_maximize_iff (mode : MaximizeMode) (init : Bool) :
    Query.Right count rules (.maximize mode init) ↔ Query.Answerable rules (.maximize mode init) := by
  change WindowRules.checkMaximize rules mode init = _ ↔ _ ∧ _
  rw [WindowRules.checkMaximize, checkMaximizeVert_eq, checkMaximizeHoriz_eq,
    ← dueSet_of_usable count rules (fun _ => rfl), ← dueSet_of_usable count rules (fun _ => rfl)]
  obtain - | - | - := demandedSet rules .maximizevert init <;>
    obtain - | - | - := demandedSet rules .maximizehoriz init <;> cases mode <;> decide

private theorem right_set_iff (p : SetProperty) (h) (data : p.Data) (init : Bool) :
    Query.Right count rules (.set p h data init) ↔ Query.Answerable rules (.set p h data init) := by
  cases p with
  | maximizevert => exact absurd rfl h.1
  | maximizehoriz => exact absurd rfl h.2
  | screen => exact right_screen_iff count rules data init h
  | position => exact iff_of_true (checkPosition_eq data init) trivial
  | size => exact iff_of_true (checkSize_eq data init) trivial
  | _ =>
    exact iff_of_true ((checkSet_eq _ data init).trans (dueSet_of_usable count rules (fun _ => rfl) data init)) trivial

private theorem right_force_iff (p : ForceProperty) (data : p.Data) :
    Query.Right count rules (.force p data) ↔ Query.Answerable rules (.force p data) := by
  cases p with
  | maxsize => exact (checkForce_eq .maxsize data).congr_left.trans right_limit_iff
  | minsize => exact (checkForce_eq .minsize data).congr_left.trans right_limit_iff
  | _ => exact iff_of_true ((checkForce_eq _ data).trans (dueForce_of_usable rules (fun _ => rfl) data)) trivial

/-- What is asked of the rules is answered by the first one that uses the property exactly where that can be. -/
theorem right_iff_answerable (q : Query) : q.Right count rules ↔ q.Answerable rules := by
  cases q with
  | set p h data init => exact right_set_iff count rules p h data init
  | force p data => exact right_force_iff count rules p data
  | maximize mode init => exact right_maximize_iff count rules mode init
  | minSize minimumSize => exact (checkForce_eq .minsize minimumSize).congr_left.trans right_limit_iff
  | maxSize maximumSize => exact (checkForce_eq .minsize maximumSize).congr_left

private theorem demanded_mem {α : Type} {applies : Policy → Bool} {rulers : List (Ruler α)} {v : α}
    (h : v ∈ demanded applies rulers) : ∃ ruler ∈ rulers, ruler.data = v := by
  obtain ⟨ruler, hfind, hv⟩ := Option.bind_eq_some_iff.mp h
  split at hv
  · exact ⟨ruler, List.mem_of_find?_eq_some hfind, Option.some.inj hv⟩
  · exact absurd hv (by simp)

theorem readFromSettings_sizes_valid (m : CaseMapping) (l : Locator) (s : RuleSettings) :
    Size.isValid ((readFromSettings m l s).force .minsize).data ∧
      Size.isValid ((readFromSettings m l s).force .maxsize).data := by
  constructor
  · change Size.isValid (if Size.isValid (s (.forceData .minsize)) then _ else _)
    split
    · assumption
    · rfl
  · change Size.isValid (if Size.isEmpty (s (.forceData .maxsize)) then _ else _)
    split
    · rfl
    · rename_i h
      simp only [Size.isEmpty, Size.isValid, decide_eq_true_eq] at h ⊢
      omega

/-- Forced properties can always be answered when the rules come from settings. -/
theorem answerable_force_of_settings {m : CaseMapping} {l : Locator}
    (hrules : ∀ r ∈ rules, ∃ s, r = readFromSettings m l s) (p : ForceProperty) (data : p.Data) : (Query.force p data).Answerable rules := by
  have hvalid : ∀ r ∈ rules, Size.isValid (r.force .minsize).data ∧ Size.isValid (r.force .maxsize).data := by
    intro r hr
    obtain ⟨s, rfl⟩ := hrules r hr
    exact readFromSettings_sizes_valid m l s
  cases p with
  | minsize =>
    intro v hv
    obtain ⟨ruler, hmem, rfl⟩ := demanded_mem hv
    obtain ⟨r, hr, rfl⟩ := List.mem_map.mp hmem
    exact .inl (hvalid r hr).1
  | maxsize =>
    intro v hv
    obtain ⟨ruler, hmem, rfl⟩ := demanded_mem hv
    obtain ⟨r, hr, rfl⟩ := List.mem_map.mp hmem
    exact .inl (hvalid r hr).2
  | _ => trivial

/-- Rules of which every property is unused. -/
private def idle : Rules where
  wmclass := {}
  windowrole := {}
  clientmachine := {}
  title := {}
  temporaryState := 0
  description := []
  wmclasscomplete := false
  types := allTypesMask
  set p := ⟨p.default, .unused⟩
  force p := ⟨p.default, .unused⟩

/-- A forced false leaves a window full, and a forced maximum size is not asked for. -/
theorem not_right_of_forced : ¬ Query.Right 1
      [{ idle with set := Function.update idle.set .maximizevert ⟨false, .force⟩ }] (.maximize .full false) ∧
    ¬ Query.Right 1 [{ idle with force := Function.update idle.force .maxsize ⟨⟨300, 200⟩, .force⟩ }]
      (.maxSize ⟨800, 600⟩) := by
  constructor
  · change ¬ WindowRules.checkMaximize _ _ _ = _
    decide
  · change ¬ WindowRules.maxSize _ _ = _
    decide

end queries

end KWinFT.RuleBook
