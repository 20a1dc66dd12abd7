import KWinFT.Input.ModifierOnlyShortcuts
import Mathlib.Data.List.Perm.Subperm

/-! When a modifier that is pressed alone and released again makes its call, said of the events before. -/
namespace KWinFT.Input

namespace InputEvent

def modifiers : InputEvent → Option Modifiers
  | .key event => if event.isAutoRepeat then none else some event.modifiersRelevantForGlobalShortcuts
  | _ => none

def lockState : InputEvent → Option Bool
  | .locked isLocked => some isLocked
  | _ => none

def pressedButton : InputEvent → Option UInt32
  | .mouseButtonPress button => some button
  | _ => none

def releasedButton : InputEvent → Option UInt32
  | .mouseButtonRelease button => some button
  | _ => none

/-- A motion, or the repetition of the key that is held. -/
def Quiet : InputEvent → Prop
  | .mouseMove => True
  | .key event => event.isAutoRepeat
  | _ => False

def press (key : UInt32) (modifiers : Modifiers) : InputEvent := .key ⟨false, .press, key, modifiers⟩

def release (key : UInt32) (modifiers : Modifiers) : InputEvent := .key ⟨false, .release, key, modifiers⟩

end InputEvent

open InputEvent

/-- The key was pressed and not released since. -/
def KeyHeld (es : List InputEvent) (key : UInt32) : Prop :=
  ∃ before modifiers after, es = before ++ press key modifiers :: after ∧ ∀ modifiers', release key modifiers' ∉ after

/-- The button was pressed more often than released. -/
def ButtonHeld (es : List InputEvent) (button : UInt32) : Prop :=
  (es.filterMap releasedButton).count button < (es.filterMap pressedButton).count button

/-- The modifiers after the last press or release of a key. -/
def activeModifiers (es : List InputEvent) : Modifiers := (es.filterMap InputEvent.modifiers).getLast?.getD noModifier

def screenLocked (isLocked : Bool) (es : List InputEvent) : Bool := (es.filterMap lockState).getLast?.getD isLocked

/-- No key and no button is held, no modifier is active and the screen is not locked. -/
structure Idle (isLocked : Bool) (es : List InputEvent) : Prop where
  keys : ∀ key, ¬ KeyHeld es key
  buttons : ∀ button, ¬ ButtonHeld es button
  modifiers : activeModifiers es = noModifier
  unlocked : screenLocked isLocked es = false

/-- The key was pressed when nothing else was, which made these modifiers active, and nothing has happened since. -/
def PressedAlone (isLocked : Bool) (es : List InputEvent) (key : UInt32) (modifiers : Modifiers) : Prop :=
  ∃ before between, es = before ++ press key modifiers :: between ∧ Idle isLocked before ∧ ∀ e ∈ between, e.Quiet

/-- Every release of a button follows its press. -/
def Paired (es : List InputEvent) : Prop :=
  ∀ before, before <+: es → ∀ button,
    (before.filterMap releasedButton).count button ≤ (before.filterMap pressedButton).count button

section traces
variable {es : List InputEvent} {e : InputEvent} {key : UInt32} {modifiers : Modifiers} {isLocked : Bool}

private theorem exists_append_cons_concat {α : Type*} {l : List α} {a x : α} {P : List α → List α → Prop} :
    (∃ before after, l ++ [x] = before ++ a :: after ∧ P before after) ↔
      (∃ before after, l = before ++ a :: after ∧ P before (after ++ [x])) ∨ (x = a ∧ P l []) := by
  constructor
  · rintro ⟨before, after, heq, hP⟩
    rcases List.eq_nil_or_concat after with rfl | ⟨after, y, rfl⟩
    · obtain ⟨rfl, hx⟩ := List.append_inj' heq rfl
      cases hx
      exact .inr ⟨rfl, hP⟩
    · rw [List.concat_eq_append, ← List.cons_append, ← List.append_assoc] at heq
      obtain ⟨rfl, hx⟩ := List.append_inj' heq rfl
      cases hx
      exact .inl ⟨before, after, rfl, List.concat_eq_append ▸ hP⟩
  · rintro (⟨before, after, rfl, hP⟩ | ⟨rfl, hP⟩)
    · exact ⟨before, after ++ [x], by simp, hP⟩
    · exact ⟨l, [], rfl, hP⟩

private theorem keyHeld_concat : KeyHeld (es ++ [e]) key ↔
    (∃ modifiers, e = press key modifiers) ∨ (KeyHeld es key ∧ ∀ modifiers, e ≠ release key modifiers) := by
  constructor
  · rintro ⟨before, modifiers, after, heq, hno⟩
    rcases (exists_append_cons_concat (P := fun _ after => ∀ m, release key m ∉ after)).mp ⟨before, after, heq, hno⟩
      with ⟨before, after, heq, hno⟩ | ⟨rfl, -⟩
    · refine .inr ⟨⟨before, modifiers, after, heq, fun m hm => hno m (List.mem_append_left _ hm)⟩, fun m he => ?_⟩
      exact hno m (List.mem_append_right _ (he ▸ List.mem_singleton_self e))
    · exact .inl ⟨modifiers, rfl⟩
  · rintro (⟨modifiers, rfl⟩ | ⟨⟨before, modifiers, after, rfl, hno⟩, he⟩)
    · exact ⟨es, modifiers, [], rfl, fun _ => List.not_mem_nil⟩
    · refine ⟨before, modifiers, after ++ [e], by simp, fun m hm => ?_⟩
      rcases List.mem_append.mp hm with hm | hm
      · exact hno m hm
      · exact he m (List.mem_singleton.mp hm).symm

private theorem pressedAlone_concat : PressedAlone isLocked (es ++ [e]) key modifiers ↔
    (e.Quiet ∧ PressedAlone isLocked es key modifiers) ∨ (e = press key modifiers ∧ Idle isLocked es) := by
  unfold PressedAlone
  rw [exists_append_cons_concat]
  refine or_congr ?_ (and_congr_right fun _ => and_iff_left (by simp))
  simp only [List.forall_mem_append, List.forall_mem_singleton]
  constructor
  · rintro ⟨before, between, heq, hidle, hquiet, he⟩
    exact ⟨he, before, between, heq, hidle, hquiet⟩
  · rintro ⟨he, before, between, heq, hidle, hquiet⟩
    exact ⟨before, between, heq, hidle, hquiet, he⟩

private theorem modifiers_concat :
    activeModifiers (es ++ [e]) = e.modifiers.getD (activeModifiers es) := by
  unfold activeModifiers
  rw [List.filterMap_append]
  cases h : e.modifiers <;> simp [h]

private theorem locked_concat : screenLocked isLocked (es ++ [e]) = e.lockState.getD (screenLocked isLocked es) := by
  unfold screenLocked
  rw [List.filterMap_append]
  cases h : e.lockState <;> simp [h]

private theorem count_same (n : Int) : n = n + (0 : Nat) - (0 : Nat) := by simp

private theorem buttons_concat :
    (((es ++ [e]).filterMap pressedButton).length : Int) - ((es ++ [e]).filterMap releasedButton).length =
      (es.filterMap pressedButton).length - (es.filterMap releasedButton).length +
        e.pressedButton.toList.length - e.releasedButton.toList.length := by
  rw [List.filterMap_append, List.filterMap_append]
  cases hp : e.pressedButton <;> cases hr : e.releasedButton <;> simp [hp, hr] <;> omega

private theorem keyHeld_of_quiet (he : e.Quiet) : KeyHeld (es ++ [e]) key ↔ KeyHeld es key := by
  rw [keyHeld_concat, or_iff_right, and_iff_left]
  · rintro m rfl
    cases he
  · rintro ⟨m, rfl⟩
    cases he

private theorem PressedAlone.keyHeld_iff (h : PressedAlone isLocked es key modifiers) {j : UInt32} :
    KeyHeld es j ↔ j = key := by
  obtain ⟨before, between, rfl, hidle, hquiet⟩ := h
  induction between using List.reverseRecOn with
  | nil =>
    have hrelease : ∀ m, press key modifiers ≠ release j m := fun _ he => by cases he
    rw [keyHeld_concat, or_iff_left fun hheld => hidle.keys j hheld.1]
    simp [press, eq_comm]
  | append_singleton between e ih =>
    obtain ⟨hquiet, he⟩ := List.forall_mem_append.mp hquiet
    rw [← List.cons_append, ← List.append_assoc, keyHeld_of_quiet (List.forall_mem_singleton.mp he)]
    exact ih hquiet

/-- With all releases after their presses, none is held when as many were pressed as released. -/
private theorem buttons_free_iff (hpaired : Paired es) : (∀ button, ¬ ButtonHeld es button) ↔
    ((es.filterMap pressedButton).length : Int) - (es.filterMap releasedButton).length = 0 := by
  have hle := hpaired es (List.prefix_refl es)
  have hsub : List.Subperm (es.filterMap releasedButton) (es.filterMap pressedButton) :=
    List.subperm_ext_iff.mpr fun b _ => hle b
  constructor
  · intro hfree
    have hperm : (es.filterMap pressedButton).Perm (es.filterMap releasedButton) :=
      List.perm_iff_count.mpr fun b => Nat.le_antisymm (Nat.not_lt.mp (hfree b)) (hle b)
    rw [hperm.length_eq, Int.sub_self]
  · intro hzero b
    have hlen : (es.filterMap pressedButton).length = (es.filterMap releasedButton).length := by omega
    exact Nat.not_lt.mpr (Nat.le_of_eq ((hsub.perm_of_length_le (Nat.le_of_eq hlen)).count_eq b).symm)

end traces

/-- The state of the spy, as far as it is determined by the events. -/
structure Tracks (isLocked : Bool) (es : List InputEvent) (s : ModifierOnlyShortcuts) : Prop where
  keys : ∀ key, key ∈ s.pressedKeys ↔ KeyHeld es key
  buttons : s.buttonPressCount = ((es.filterMap pressedButton).length : Int) - (es.filterMap releasedButton).length
  modifiers : s.cachedMods = activeModifiers es
  locked : s.isLocked = screenLocked isLocked es
  modifier : ∀ modifier, modifier ≠ noModifier →
    (s.modifier = modifier ↔ ∃ key, PressedAlone isLocked es key modifier)


section tracks
variable {es : List InputEvent} {e : InputEvent} {s : ModifierOnlyShortcuts} {isLocked : Bool} {setting : Setting}

private theorem Tracks.initial : Tracks isLocked [] (.initial isLocked) where
  keys key := by simp [ModifierOnlyShortcuts.initial, KeyHeld]
  buttons := rfl
  modifiers := rfl
  locked := rfl
  modifier m hm := by simp [ModifierOnlyShortcuts.initial, PressedAlone, Ne.symm hm]

private theorem Tracks.quiet (h : Tracks isLocked es s) (he : e.Quiet) : Tracks isLocked (es ++ [e]) s := by
  have hnone : e.modifiers = none ∧ e.lockState = none ∧ e.pressedButton = none ∧ e.releasedButton = none := by
    cases e with
    | mouseMove => exact ⟨rfl, rfl, rfl, rfl⟩
    | key event => exact ⟨if_pos he, rfl, rfl, rfl⟩
    | _ => cases he
  refine ⟨fun key => (h.keys key).trans (keyHeld_of_quiet he).symm, ?_, ?_, ?_, fun m hm => (h.modifier m hm).trans ?_⟩
  · simp [h.buttons, List.filterMap_append, hnone]
  · rw [modifiers_concat, hnone.1, h.modifiers, Option.getD_none]
  · rw [locked_concat, hnone.2.1, h.locked, Option.getD_none]
  · refine exists_congr fun key => ?_
    rw [pressedAlone_concat, or_iff_left, and_iff_right he]
    rintro ⟨rfl, -⟩
    cases he

/-- The spy finds itself idle when it is. -/
private theorem Tracks.idle_iff (h : Tracks isLocked es s) (hpaired : Paired es) (key : UInt32) :
    (s.pressedKeys = ∅ ∧ (insert key s.pressedKeys).card = 1 ∧ ¬ s.isLocked ∧ s.buttonPressCount = 0 ∧
      s.cachedMods = noModifier) ↔ Idle isLocked es := by
  have hkeys : s.pressedKeys = ∅ ↔ ∀ key, ¬ KeyHeld es key := by
    rw [Finset.eq_empty_iff_forall_notMem]
    exact forall_congr' fun key => not_congr (h.keys key)
  constructor
  · rintro ⟨hempty, -, hlocked, hcount, hmods⟩
    refine ⟨hkeys.mp hempty, (buttons_free_iff hpaired).mpr (h.buttons ▸ hcount), h.modifiers ▸ hmods, ?_⟩
    exact h.locked ▸ Bool.not_eq_true _ ▸ hlocked
  · intro hidle
    have hempty := hkeys.mpr hidle.keys
    refine ⟨hempty, by rw [hempty]; rfl, ?_, h.buttons.trans ((buttons_free_iff hpaired).mp hidle.buttons),
      h.modifiers.trans hidle.modifiers⟩
    rw [h.locked, hidle.unlocked]
    exact Bool.false_ne_true

private theorem Tracks.press {key : UInt32} {m : Modifiers} (h : Tracks isLocked es s) (hpaired : Paired es) :
    Tracks isLocked (es ++ [InputEvent.press key m]) (s.inputEvent setting (InputEvent.press key m)).1 := by
  refine ⟨fun j => ?_, ?_, ?_, ?_, fun m' hm' => ?_⟩
  · have hpress : (∃ m', InputEvent.press key m = InputEvent.press j m') ↔ j = key := by
      simp [InputEvent.press, eq_comm]
    have hrelease : ∀ m', InputEvent.press key m ≠ InputEvent.release j m' := fun _ he => by cases he
    rw [keyHeld_concat, hpress, and_iff_left hrelease, ← h.keys]
    exact Finset.mem_insert
  · rw [buttons_concat, ← h.buttons]
    exact count_same _
  · rw [modifiers_concat]
    rfl
  · rw [locked_concat]
    exact h.locked
  · have hnew : ∀ j, PressedAlone isLocked (es ++ [InputEvent.press key m]) j m' ↔
        key = j ∧ m = m' ∧ Idle isLocked es := fun j => by
      rw [pressedAlone_concat, or_iff_right fun hquiet => by cases hquiet.1]
      simp [InputEvent.press, and_assoc]
    simp only [hnew, exists_eq_left']
    have hmodifier : (s.inputEvent setting (InputEvent.press key m)).1.modifier =
        if s.pressedKeys = ∅ ∧ (insert key s.pressedKeys).card = 1 ∧ ¬ s.isLocked ∧ s.buttonPressCount = 0 ∧
          s.cachedMods = noModifier then m else noModifier := rfl
    rw [hmodifier]
    split
    · next halone => exact (and_iff_left ((h.idle_iff hpaired key).mp halone)).symm
    · next halone => exact iff_of_false (Ne.symm hm') fun hall => halone ((h.idle_iff hpaired key).mpr hall.2)

private theorem Tracks.release {key : UInt32} {m : Modifiers} (h : Tracks isLocked es s) :
    Tracks isLocked (es ++ [InputEvent.release key m]) (s.inputEvent setting (InputEvent.release key m)).1 := by
  have hstate : (s.inputEvent setting (InputEvent.release key m)).1 =
      ⟨noModifier, m, s.buttonPressCount, s.pressedKeys.erase key, s.isLocked⟩ := by
    refine (?_ : ModifierOnlyShortcuts.mk (s.keyRelease setting ⟨false, .release, key, m⟩).1.modifier m
      (s.keyRelease setting ⟨false, .release, key, m⟩).1.buttonPressCount
      (s.keyRelease setting ⟨false, .release, key, m⟩).1.pressedKeys
      (s.keyRelease setting ⟨false, .release, key, m⟩).1.isLocked = _)
    unfold ModifierOnlyShortcuts.keyRelease ModifierOnlyShortcuts.reset
    split
    · next hempty => simp [hempty]
    · rfl
  rw [hstate]
  refine ⟨fun j => ?_, ?_, ?_, ?_, fun m' hm' => iff_of_false (Ne.symm hm') ?_⟩
  · have hpress : ¬ ∃ m', InputEvent.release key m = InputEvent.press j m' := fun ⟨_, he⟩ => by cases he
    have hrelease : (∀ m', InputEvent.release key m ≠ InputEvent.release j m') ↔ j ≠ key := by
      simp [InputEvent.release, eq_comm]
    rw [keyHeld_concat, or_iff_right hpress, hrelease, ← h.keys, and_comm]
    exact Finset.mem_erase
  · rw [buttons_concat, ← h.buttons]
    exact count_same _
  · rw [modifiers_concat]
    rfl
  · rw [locked_concat]
    exact h.locked
  · rintro ⟨j, halone⟩
    rcases pressedAlone_concat.mp halone with ⟨hquiet, -⟩ | ⟨he, -⟩
    · cases hquiet
    · cases he

/-- An event that is neither quiet nor of a key resets the spy. -/
private theorem Tracks.reset {s' : ModifierOnlyShortcuts} (h : Tracks isLocked es s) (hquiet : ¬ e.Quiet)
    (hkey : ∀ event, e ≠ .key event) (hkeys : s'.pressedKeys = s.pressedKeys) (hmods : s'.cachedMods = s.cachedMods)
    (hmodifier : s'.modifier = noModifier) (hlocked : s'.isLocked = e.lockState.getD s.isLocked)
    (hcount : s'.buttonPressCount = s.buttonPressCount + e.pressedButton.toList.length - e.releasedButton.toList.length) :
    Tracks isLocked (es ++ [e]) s' := by
  refine ⟨fun j => ?_, ?_, ?_, ?_, fun m' hm' => iff_of_false (hmodifier ▸ Ne.symm hm') ?_⟩
  · have hrelease : ∀ m, e ≠ InputEvent.release j m := fun m => hkey _
    rw [keyHeld_concat, or_iff_right fun ⟨_, he⟩ => hkey _ he, and_iff_left hrelease, ← h.keys, hkeys]
  · rw [buttons_concat, ← h.buttons, hcount]
  · have hnone : e.modifiers = none := by
      cases e with
      | key event => exact absurd rfl (hkey event)
      | _ => rfl
    rw [modifiers_concat, hnone, hmods, h.modifiers, Option.getD_none]
  · rw [locked_concat, hlocked, h.locked]
  · rintro ⟨j, halone⟩
    rcases pressedAlone_concat.mp halone with ⟨he, -⟩ | ⟨he, -⟩
    · exact hquiet he
    · exact hkey _ he

private theorem Tracks.step (h : Tracks isLocked es s) (hpaired : Paired es) :
    Tracks isLocked (es ++ [e]) (s.inputEvent setting e).1 := by
  cases e with
  | key event =>
    obtain ⟨isAutoRepeat, type, key, m⟩ := event
    cases isAutoRepeat with
    | true => exact h.quiet rfl
    | false =>
      cases type with
      | press => exact h.press hpaired
      | release => exact h.release
  | mouseMove => exact h.quiet trivial
  | mouseButtonPress button =>
    exact h.reset id (fun _ he => by cases he) rfl rfl rfl rfl (Int.sub_zero _).symm
  | mouseButtonRelease button =>
    exact h.reset id (fun _ he => by cases he) rfl rfl rfl rfl (congrArg (· - 1) (Int.add_zero _).symm)
  | wheel => exact h.reset id (fun _ he => by cases he) rfl rfl rfl rfl (count_same _)
  | locked isLocked => exact h.reset id (fun _ he => by cases he) rfl rfl rfl rfl (count_same _)

private theorem tracks_run {es : List (Setting × InputEvent)} (hpaired : Paired (es.map Prod.snd)) :
    Tracks isLocked (es.map Prod.snd) ((ModifierOnlyShortcuts.initial isLocked).run es) := by
  induction es using List.reverseRecOn with
  | nil => exact .initial
  | append_singleton es e ih =>
    rw [List.map_append, List.map_singleton] at hpaired ⊢
    have hbefore : Paired (es.map Prod.snd) := fun before hb => hpaired before (hb.trans (List.prefix_append _ _))
    rw [ModifierOnlyShortcuts.run, List.foldl_concat]
    exact (ih hbefore).step hbefore

private theorem exists_release {call : MethodCall} (h : (s.inputEvent setting e).2 = some call) :
    ∃ key m, e = InputEvent.release key m := by
  cases e with
  | key event =>
    obtain ⟨isAutoRepeat, type, key, m⟩ := event
    cases isAutoRepeat with
    | true => cases h
    | false =>
      cases type with
      | press => cases h
      | release => exact ⟨key, m, rfl⟩
  | _ => cases h

private theorem release_call_iff {call : MethodCall} {key : UInt32} {m : Modifiers} :
    (s.inputEvent setting (InputEvent.release key m)).2 = some call ↔ s.pressedKeys.Nonempty ∧
      s.pressedKeys.erase key = ∅ ∧ m = noModifier ∧ ¬ setting.globalShortcutsDisabled ∧ s.modifier ≠ noModifier ∧
        setting.action s.modifier = some call := by
  refine (?_ : (s.keyRelease setting ⟨false, .release, key, m⟩).2 = some call ↔ _)
  unfold ModifierOnlyShortcuts.keyRelease
  split
  · next hempty => simp [hempty]
  · next hne =>
    rw [and_iff_right (Finset.nonempty_iff_ne_empty.mpr hne), Option.ite_none_right_eq_some]
    simp only [and_assoc]

end tracks

/-- A call is made exactly when a key is released that was pressed alone, nothing has happened since, and shortcuts are
enabled; it is the one for the modifiers that the press made active. -/
theorem call_iff_pressedAlone (isLocked : Bool) (es : List (Setting × InputEvent)) (hpaired : Paired (es.map Prod.snd))
    (setting : Setting) (e : InputEvent) (call : MethodCall) :
    (((ModifierOnlyShortcuts.initial isLocked).run es).inputEvent setting e).2 = some call ↔
      ∃ key modifier, e = release key noModifier ∧ PressedAlone isLocked (es.map Prod.snd) key modifier ∧
        modifier ≠ noModifier ∧ ¬ setting.globalShortcutsDisabled ∧ setting.action modifier = some call := by
  have htracks : Tracks isLocked _ _ := tracks_run hpaired
  set s := (ModifierOnlyShortcuts.initial isLocked).run es
  constructor
  · intro hcall
    obtain ⟨key, m, rfl⟩ := exists_release hcall
    obtain ⟨-, hkeys, hm, henabled, hmodifier, haction⟩ := release_call_iff.mp hcall
    obtain ⟨j, halone⟩ := (htracks.modifier s.modifier hmodifier).mp rfl
    have hj : j ∈ s.pressedKeys := (htracks.keys j).mpr (halone.keyHeld_iff.mpr rfl)
    rw [(Finset.erase_eq_empty_iff ..).mp hkeys |>.resolve_left (Finset.ne_empty_of_mem hj), Finset.mem_singleton] at hj
    exact ⟨key, s.modifier, hm ▸ rfl, hj ▸ halone, hmodifier, henabled, haction⟩
  · rintro ⟨key, modifier, rfl, halone, hmodifier, henabled, haction⟩
    have hs : s.modifier = modifier := (htracks.modifier modifier hmodifier).mpr ⟨key, halone⟩
    have hkeys : s.pressedKeys = {key} := by
      ext j
      rw [htracks.keys, halone.keyHeld_iff, Finset.mem_singleton]
    refine release_call_iff.mpr ⟨?_, ?_, rfl, henabled, hs ▸ hmodifier, hs ▸ haction⟩
    · exact hkeys ▸ Finset.singleton_nonempty key
    · rw [hkeys, Finset.erase_singleton]

private def metaModifier : Modifiers := 0x10000000

private def launcher : Setting where
  globalShortcutsDisabled := false
  modifierOnlyDBusShortcut m :=
    if m = metaModifier then ["org.kde.plasmashell", "/PlasmaShell", "org.kde.PlasmaShell", "activateLauncherMenu"] else []

theorem launcherMenu_called :
    (((ModifierOnlyShortcuts.initial false).run [(launcher, press 125 metaModifier), (launcher, .mouseMove)]).inputEvent
      launcher (release 125 noModifier)).2 =
      some ⟨"org.kde.plasmashell", "/PlasmaShell", "org.kde.PlasmaShell", "activateLauncherMenu", []⟩ := by
  have hpaired : Paired [press 125 metaModifier, .mouseMove] := by
    intro before hb button
    have hnone : before.filterMap releasedButton = [] := List.filterMap_eq_nil_iff.mpr fun e he => by
      rcases List.mem_pair.mp (hb.subset he) with rfl | rfl <;> rfl
    rw [hnone]
    exact Nat.zero_le _
  have hidle : Idle false [] := (Tracks.initial.idle_iff (fun before hb button => ?_) 0).mp (by decide)
  · exact (call_iff_pressedAlone false [(launcher, press 125 metaModifier), (launcher, .mouseMove)] hpaired launcher _ _).mpr
      ⟨125, metaModifier, rfl, ⟨[], [.mouseMove], rfl, hidle, fun e he => List.mem_singleton.mp he ▸ trivial⟩,
        by decide, by decide, rfl⟩
  · rw [List.prefix_nil.mp hb]
    exact Nat.le_refl _

end KWinFT.Input
