import KWinFT.Lib.Runs
import KWinFT.NightColor.Manager

/-! The transitions that `updateTransitionTimings(false)` leaves, against those of a forced update at the same time and
place. -/
namespace KWinFT.NightColor

/-- What is assumed of the sun at a location: the timings that are asked for at some time begin on the date of the time,
the morning before the evening. They may change within a date, as those of `calculateSunTimings` do at midnight UTC. -/
structure Regular (sun : SunTimings) (location : Location) : Prop where
  onDate : ∀ (t : Int) (morning : Bool), date (getSunTimings sun t location morning).1 = date t
  morning_lt : ∀ t : Int, (getSunTimings sun t location true).1 < (getSunTimings sun t location false).1

/-- Where the old next transition is plausible as the new previous one, it is the one of today at the present location,
as it is computed now. -/
def Update.Current (sun : SunTimings) (u : Update) : Prop :=
  let switched := switchTimings sun u.now u.location u.before.1 u.before.2
  checkAutomaticSunTimings u.now switched.1 switched.2 →
    u.before.2 = some (getSunTimings sun u.now u.location (!daylight u.before.1 u.before.2))

/-- The present lies between the transitions. -/
def Update.Between (u : Update) : Prop :=
  ∃ prev next, u.after = (some prev, some next) ∧ prev.1 ≤ u.now ∧ u.now < next.1

section update
variable {sun : SunTimings} {location : Location} {now : Int}

private theorem date_addDays (t : Int) (n : Int) : date (addDays t n) = date t + n := by
  simp only [date, addDays, mscDay]
  omega

private theorem resetTimings_between (h : Regular sun location) (now : Int) :
    ∃ prev next, resetTimings sun now location = (some prev, some next) ∧ prev.1 ≤ now ∧ now < next.1 := by
  have hyesterday := h.onDate (addDays now (-1)) false
  have htomorrow := h.onDate (addDays now 1) true
  rw [date_addDays] at hyesterday htomorrow
  simp only [date, mscDay] at hyesterday htomorrow
  unfold resetTimings
  dsimp only
  split
  · next hm => exact ⟨_, _, rfl, by omega, hm⟩
  · next hm =>
    split
    · next he => exact ⟨_, _, rfl, by omega, he⟩
    · next he => exact ⟨_, _, rfl, by omega, by omega⟩

/-- The evening of today has begun: it is followed by the morning of tomorrow. -/
private theorem resetTimings_of_evening (h : Regular sun location)
    (hbegun : (getSunTimings sun now location false).1 ≤ now) :
    resetTimings sun now location =
      (some (getSunTimings sun now location false), some (getSunTimings sun (addDays now 1) location true)) := by
  have hlt := h.morning_lt now
  rw [resetTimings, if_neg (by omega)]
  exact if_neg (by omega)

/-- Between the morning and the evening of today. -/
private theorem resetTimings_of_morning (hbegun : (getSunTimings sun now location true).1 ≤ now)
    (hahead : now < (getSunTimings sun now location false).1) : resetTimings sun now location =
      (some (getSunTimings sun now location true), some (getSunTimings sun now location false)) := by
  rw [resetTimings, if_neg (by omega)]
  exact if_pos hahead

/-- The transitions of a forced update have the next one at the date that tells whether it is a morning. -/
private theorem resetTimings_cases (h : Regular sun location) {prev next : Int × Int}
    (heq : resetTimings sun now location = (some prev, some next)) :
    (date next.1 = date now + 1 → prev = getSunTimings sun now location false) ∧
    (next = getSunTimings sun now location false → prev = getSunTimings sun now location true) := by
  have hmor := h.onDate now true
  have heve := h.onDate now false
  have htomorrow := h.onDate (addDays now 1) true
  have hlt := h.morning_lt now
  rw [date_addDays] at htomorrow
  unfold resetTimings at heq
  dsimp only at heq
  split at heq
  · cases heq
    refine ⟨fun hd => absurd hd (by omega), fun hn => ?_⟩
    rw [hn] at hlt
    omega
  · split at heq
    · cases heq
      exact ⟨fun hd => absurd hd (by omega), fun _ => rfl⟩
    · cases heq
      refine ⟨fun _ => rfl, fun hn => ?_⟩
      rw [hn, heve] at htomorrow
      omega

/-- Switching gives the transitions of a forced update exactly if the old next one is current. -/
theorem sunTransitions_eq_iff {u : Update} (h : Regular sun u.location)
    (hafter : u.after = sunTransitions sun u.now u.location false u.before.1 u.before.2) :
    u.after = resetTimings sun u.now u.location ↔ u.Current sun := by
  rw [hafter, sunTransitions, if_neg Bool.false_ne_true, Update.Current]
  dsimp only
  split
  · next hcheck =>
    rw [forall_prop_of_true hcheck]
    unfold switchTimings at hcheck ⊢
    cases hold : u.before.2 with
    | none => split at hcheck <;> rw [hold] at hcheck <;> cases hcheck
    | some old =>
      rw [hold] at hcheck
      cases hday : daylight u.before.1 (some old) with
      | true =>
        rw [hday, if_pos rfl] at hcheck
        rw [if_pos rfl, Bool.not_true]
        simp only [checkAutomaticSunTimings, Bool.and_eq_true, decide_eq_true_eq] at hcheck
        constructor
        · intro heq
          refine congrArg some ((resetTimings_cases h heq.symm).1 ?_)
          rw [h.onDate, date_addDays]
        · intro hcur
          rw [Option.some.inj hcur] at hcheck ⊢
          exact (resetTimings_of_evening h hcheck.1.1).symm
      | false =>
        rw [hday, if_neg Bool.false_ne_true] at hcheck
        rw [if_neg Bool.false_ne_true, Bool.not_false]
        simp only [checkAutomaticSunTimings, Bool.and_eq_true, decide_eq_true_eq] at hcheck
        constructor
        · intro heq
          exact congrArg some ((resetTimings_cases h heq.symm).2 rfl)
        · intro hcur
          rw [Option.some.inj hcur] at hcheck ⊢
          exact (resetTimings_of_morning hcheck.1.1 hcheck.1.2).symm
  · next hcheck => exact ⟨fun _ hc => absurd hc hcheck, fun _ => rfl⟩

/-- Whether or not the switched transitions are taken, the present lies between those that are. -/
private theorem sunTransitions_between (h : Regular sun location) (now : Int) (force : Bool) (prev next : DateTimes) :
    ∃ p n, sunTransitions sun now location force prev next = (some p, some n) ∧ p.1 ≤ now ∧ now < n.1 := by
  unfold sunTransitions
  dsimp only
  split
  · exact resetTimings_between h now
  · split
    · next hcheck =>
      generalize switchTimings sun now location prev next = switched at hcheck
      obtain ⟨p, n⟩ := switched
      match p, n with
      | some p, some n =>
        simp only [checkAutomaticSunTimings, Bool.and_eq_true, decide_eq_true_eq] at hcheck
        exact ⟨p, n, rfl, hcheck.1.1, hcheck.1.2⟩
      | none, _ => cases hcheck
      | some _, none => cases hcheck
    · exact resetTimings_between h now

end update

namespace Manager
variable {sun : SunTimings} {m : Manager}

/-- All updates are logged as they were computed, and there was no error. -/
private structure Sound (sun : SunTimings) (m : Manager) : Prop where
  logged : ∀ u ∈ m.updates, u.after = sunTransitions sun u.now u.location false u.before.1 u.before.2
  noError : m.error = false

private theorem Sound.updateTransitionTimings (h : Sound sun m) (now : Int) (force : Bool) :
    Sound sun (m.updateTransitionTimings sun now force) := by
  have hsun (location : Location) : Sound sun { m with
      prev := (sunTransitions sun now location force m.prev m.next).1
      next := (sunTransitions sun now location force m.prev m.next).2
      updates := if force then m.updates else m.updates ++
        [⟨now, location, (m.prev, m.next), sunTransitions sun now location force m.prev m.next⟩] } := by
    refine ⟨fun u hu => ?_, h.noError⟩
    cases force with
    | true => exact h.logged u hu
    | false =>
      rcases List.mem_append.mp hu with hu | hu
      · exact h.logged u hu
      · cases List.mem_singleton.mp hu
        rfl
  unfold Manager.updateTransitionTimings
  split
  · exact ⟨h.logged, h.noError⟩
  · exact ⟨h.logged, h.noError⟩
  · exact hsun _

/-- Outside the constant mode the next transition is ahead. -/
private theorem next_ahead (hsun : ∀ location, Regular sun location) (now : Int) (force : Bool)
    (hmode : m.mode ≠ .constant) :
    ((m.updateTransitionTimings sun now force).next.any fun next => now < next.1) = true := by
  unfold Manager.updateTransitionTimings
  split
  · next hc => exact absurd hc hmode
  · have hmor := m.morning.inDay
    unfold fixedTransitions
    dsimp only
    split
    · next h => simpa using h.2
    · split
      · next h => simpa using h
      · simp only [Option.any_some, decide_eq_true_eq, dateTime, date, addDays, mscDay]
        omega
  · obtain ⟨p, n, heq, -, hlt⟩ := sunTransitions_between (hsun _) now force m.prev m.next
    dsimp only
    rw [heq]
    simpa using hlt

private theorem Sound.resetSlowUpdateStartTimer (hsun : ∀ location, Regular sun location) (h : Sound sun m) (now : Int) :
    Sound sun (m.resetSlowUpdateStartTimer sun now) := by
  unfold Manager.resetSlowUpdateStartTimer
  split
  · exact h
  · split
    · exact h
    · next hmode =>
      dsimp only
      rw [if_pos (next_ahead hsun now false hmode)]
      exact h.updateTransitionTimings now false

private theorem Sound.resetAllTimers (hsun : ∀ location, Regular sun location) (h : Sound sun m) (now : Int)
    (isOff : Bool) : Sound sun (m.resetAllTimers sun now isOff) := by
  unfold Manager.resetAllTimers cancelAllTimers resetQuickAdjustTimer
  dsimp only
  split
  · have hupdate : Sound sun (Manager.updateTransitionTimings sun
        { m with quickAdjustTimer := false, running := m.active && !isInhibited { m with quickAdjustTimer := false } }
        now false) := by
      refine Sound.updateTransitionTimings ?_ now false
      exact ⟨h.logged, h.noError⟩
    split
    · exact ⟨hupdate.logged, hupdate.noError⟩
    · exact hupdate.resetSlowUpdateStartTimer hsun now
  · exact ⟨h.logged, h.noError⟩

private theorem Sound.hardReset (hsun : ∀ location, Regular sun location) (h : Sound sun m) (now : Int) (isOff : Bool) :
    Sound sun (m.hardReset sun now isOff) := by
  have hcancel : Sound sun m.cancelAllTimers := ⟨h.logged, h.noError⟩
  have hupdate := hcancel.updateTransitionTimings now true
  unfold Manager.hardReset
  dsimp only
  split
  · refine Sound.resetAllTimers hsun ?_ now isOff
    exact ⟨hupdate.logged, hupdate.noError⟩
  · exact hupdate.resetAllTimers hsun now isOff

private theorem Sound.applyConfiguration (h : Sound sun m) (text : TimeText) (c : Configuration) :
    Sound sun (m.applyConfiguration text c) := by
  have hactive (m : Manager) (h : Sound sun m) : Sound sun (m.changeActive c.active) := by
    unfold changeActive
    split <;> exact ⟨h.logged, h.noError⟩
  have hmode (m : Manager) (h : Sound sun m) : Sound sun (m.changeMode c.mode) := by
    unfold changeMode
    split <;> exact ⟨h.logged, h.noError⟩
  have htemperature (m : Manager) (h : Sound sun m) : Sound sun (m.changeTemperature c.nightTemperature) := by
    unfold changeTemperature
    split <;> exact ⟨h.logged, h.noError⟩
  have hlocation (m : Manager) (h : Sound sun m) : Sound sun (m.changeLocation c.location) := by
    unfold changeLocation
    split <;> exact ⟨h.logged, h.noError⟩
  have htimings (m : Manager) (h : Sound sun m) : Sound sun (m.changeTimings text c.timings) := by
    unfold changeTimings
    split <;> exact ⟨h.logged, h.noError⟩
  exact htimings _ (hlocation _ (htemperature _ (hmode _ (hactive _ h))))

private theorem Sound.step (hsun : ∀ location, Regular sun location) (h : Sound sun m) (text : TimeText) (now : Int)
    (isOff : Bool) (event : Event) : Sound sun (m.step sun text now isOff event) := by
  cases event with
  | updateTransitionTimings force => exact h.updateTransitionTimings now force
  | autoLocationUpdate latitude longitude =>
    unfold Manager.step Manager.autoLocationUpdate
    dsimp only
    split
    · exact h
    · split
      · exact h
      · refine Sound.resetAllTimers hsun ?_ now isOff
        exact ⟨h.logged, h.noError⟩
  | changeConfiguration data =>
    unfold Manager.step Manager.changeConfiguration
    dsimp only
    split
    · exact h
    · next c _ =>
      have hcancel : Sound sun m.cancelAllTimers := ⟨h.logged, h.noError⟩
      split
      · exact (hcancel.applyConfiguration text c).resetAllTimers hsun now isOff
      · exact h.applyConfiguration text c
  | reparseConfigAndReset settings =>
    refine Sound.hardReset hsun ?_ now isOff
    exact ⟨h.logged, h.noError⟩
  | inhibit =>
    unfold Manager.step inhibit
    dsimp only
    split
    · refine Sound.resetAllTimers hsun ?_ now isOff
      exact ⟨h.logged, h.noError⟩
    · exact ⟨h.logged, h.noError⟩
  | uninhibit =>
    unfold Manager.step uninhibit
    dsimp only
    split
    · refine Sound.resetAllTimers hsun ?_ now isOff
      exact ⟨h.logged, h.noError⟩
    · exact ⟨h.logged, h.noError⟩
  | hardReset => exact h.hardReset hsun now isOff
  | cancelAllTimers => exact ⟨h.logged, h.noError⟩
  | resetSlowUpdateStartTimer => exact h.resetSlowUpdateStartTimer hsun now
  | finishQuickAdjust =>
    unfold Manager.step finishQuickAdjust
    dsimp only
    split
    · refine Sound.resetSlowUpdateStartTimer hsun ?_ now
      exact ⟨h.logged, h.noError⟩
    · exact h

/-- Each event has its time, and the temperature is or is not off then. -/
def events (sun : SunTimings) (text : TimeText) (m : Manager) (event : Int × Bool × Event) : Option Manager :=
  some (m.step sun text event.1 event.2.1 event.2.2)

/-- In every run the updates give the transitions of forced ones exactly if they find current ones, the present always
lies between the transitions, and there is no error in the time calculation. -/
theorem updates_forced_iff (text : TimeText) {m₀ : Manager} (hsun : ∀ location, Regular sun location)
    (hstart : m₀.updates = [] ∧ m₀.error = false) (hrun : Lib.Reachable (events sun text) Lib.anyStep m₀ m) :
    ((∀ u ∈ m.updates, u.after = resetTimings sun u.now u.location) ↔ ∀ u ∈ m.updates, u.Current sun) ∧
    (∀ u ∈ m.updates, u.Between) ∧ m.error = false := by
  have hsound : Sound sun m := hrun.invariant (Sound sun)
    ⟨fun u hu => absurd hu (by simp [hstart.1]), hstart.2⟩ fun m event m' h _ hstep => by
      cases hstep
      exact h.step hsun text _ _ _
  have hiff (u : Update) (hu : u ∈ m.updates) := sunTransitions_eq_iff (hsun u.location) (hsound.logged u hu)
  refine ⟨⟨fun h u hu => (hiff u hu).mp (h u hu), fun h u hu => (hiff u hu).mpr (h u hu)⟩, fun u hu => ?_,
    hsound.noError⟩
  obtain ⟨p, n, heq, hbetween⟩ := sunTransitions_between (hsun u.location) u.now false u.before.1 u.before.2
  exact ⟨p, n, (hsound.logged u hu).trans heq, hbetween⟩

/-! Two places with sunsets at six and at seven o'clock, and one eight hours west of Greenwich. -/

private def twoPlaces : SunTimings := fun t location morning =>
  let first := date t * mscDay + if morning then 21600000 else if 45 ≤ location.lat then 68400000 else 64800000
  (some first, some (first + 1800000))

private theorem twoPlaces_regular (location : Location) : Regular twoPlaces location := by
  refine ⟨fun t morning => ?_, fun t => ?_⟩
  · simp only [getSunTimings, twoPlaces]
    simp only [date, mscDay]
    split
    · omega
    · split <;> omega
  · simp only [getSunTimings, twoPlaces, if_true, Bool.false_eq_true, if_false]
    split <;> omega

/-- The sunset moves by some seconds from one date to the next, and the date is that of UTC. -/
private def pacificCoast : SunTimings := fun t _ morning =>
  let first := date t * mscDay + if morning then 21600000 else 57513554 - 3668 * (date (t + 28800000) % 2)
  (some first, some (first + 1800000))

private theorem pacificCoast_regular (location : Location) : Regular pacificCoast location := by
  refine ⟨fun t morning => ?_, fun t => ?_⟩
  · simp only [getSunTimings, pacificCoast]
    simp only [date, mscDay]
    split <;> omega
  · simp only [getSunTimings, pacificCoast, if_true, Bool.false_eq_true, if_false]
    omega

private def atStart : Manager :=
  { available := true
    settings := ⟨false, some .automatic, 4500, some 0, some 0, some 0, some 0, "0600", "1800", 30⟩ }

private def noonAndEvening : List (Int × Bool × Event) :=
  [(43200000, false, .updateTransitionTimings true), (66600000, false, .updateTransitionTimings false)]

private def noonAndNewPlace : List (Int × Bool × Event) :=
  [(43200000, false, .updateTransitionTimings true), (66600000, false, .autoLocationUpdate (some 50) (some 0))]

private def noonAndDusk : List (Int × Bool × Event) :=
  [(43200000, false, .updateTransitionTimings true), (59400000, false, .updateTransitionTimings false)]

private def run (sun : SunTimings) (es : List (Int × Bool × Event)) : Manager :=
  es.foldl (fun m e => m.step sun .twoDigitParts e.1 e.2.1 e.2.2) atStart

/-- At half past six, the sunset of six o'clock becomes the previous transition. -/
theorem evening_updates_forced :
    (run twoPlaces noonAndEvening).updates.map (fun u => (u.now, u.after)) =
      [(66600000, some (64800000, 66600000), some (108000000, 109800000))] ∧
    (∀ u ∈ (run twoPlaces noonAndEvening).updates, u.after = resetTimings twoPlaces u.now u.location) := by
  have hrun : Lib.Reachable (events twoPlaces .twoDigitParts) Lib.anyStep atStart (run twoPlaces noonAndEvening) :=
    Lib.Reachable.init.execute noonAndEvening rfl
  refine ⟨by decide, (updates_forced_iff _ twoPlaces_regular ⟨rfl, rfl⟩ hrun).1.mpr fun u hu => ?_⟩
  obtain rfl := List.mem_singleton.mp hu
  rintro -
  decide

private def newPlaceUpdate : Update where
  now := 66600000
  location := ⟨50, 0⟩
  before := (some (21600000, 23400000), some (64800000, 66600000))
  after := (some (64800000, 66600000), some (108000000, 109800000))

private def duskUpdate : Update where
  now := 59400000
  location := ⟨0, 0⟩
  before := (some (21600000, 23400000), some (57513554, 59313554))
  after := (some (57513554, 59313554), some (108000000, 109800000))

/-- At half past six in the new place the sunset of the old one is taken as past, although there it is still day. On the
coast, where at half past four another day has begun in UTC, the sunset is that of the day before. -/
theorem newPlace_update_not_forced :
    (Lib.Reachable (events twoPlaces .twoDigitParts) Lib.anyStep atStart (run twoPlaces noonAndNewPlace) ∧
      newPlaceUpdate ∈ (run twoPlaces noonAndNewPlace).updates ∧
      resetTimings twoPlaces newPlaceUpdate.now newPlaceUpdate.location =
        (some (21600000, 23400000), some (68400000, 70200000)) ∧
      newPlaceUpdate.after ≠ resetTimings twoPlaces newPlaceUpdate.now newPlaceUpdate.location) ∧
    (∀ location, Regular pacificCoast location) ∧
    Lib.Reachable (events pacificCoast .twoDigitParts) Lib.anyStep atStart (run pacificCoast noonAndDusk) ∧
    duskUpdate ∈ (run pacificCoast noonAndDusk).updates ∧
    duskUpdate.after ≠ resetTimings pacificCoast duskUpdate.now duskUpdate.location :=
  ⟨⟨Lib.Reachable.init.execute noonAndNewPlace rfl, by decide +kernel, by decide, by decide⟩, pacificCoast_regular,
    Lib.Reachable.init.execute noonAndDusk rfl, by decide +kernel, by decide⟩

end Manager

end KWinFT.NightColor
