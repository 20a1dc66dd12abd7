import KWinFT.NightColor.Transitions

/-! The limits of the configuration: which configurations leave the manager with a temperature and times that are within
bounds, are read back as they were saved, and never let a timer's interval overflow. -/
namespace KWinFT.NightColor
namespace Manager
variable {text : TimeText} {m : Manager}

structure InBounds (m : Manager) : Prop where
  temperature : minTemperature ≤ m.nightTargetTemp ∧ m.nightTargetTemp ≤ neutralTemperature
  ordered : m.morning.msecs < m.evening.msecs
  trTime : 1 ≤ m.trTime
  belowDay : m.trTime * 60 * 1000 < m.morning.msecsTo m.evening
  belowNight : m.trTime * 60 * 1000 < mscDay - m.morning.msecsTo m.evening

/-- The settings are read back as the present timings. -/
def Reloads (text : TimeText) (m : Manager) : Prop :=
  ((m.readConfig text).morning, (m.readConfig text).evening, (m.readConfig text).trTime) = (m.morning, m.evening, m.trTime)

/-- No interval of a slow update overflows while the fixed timings are in use, whatever the time and temperature. -/
def NoOverflow (m : Manager) : Prop :=
  ∀ (sun : SunTimings) (now later temp : Int) (force : Bool),
    (updateTransitionTimings sun { m with mode := .timings, currentTemp := temp } now force).resetSlowUpdateTimer later ≠
      .overflow

structure Limited (text : TimeText) (m : Manager) : Prop where
  inBounds : m.InBounds
  reloads : m.Reloads text
  noOverflow : m.NoOverflow

private theorem wrap_eq {x : Int} (h : -2 ^ 31 ≤ x ∧ x < 2 ^ 31) : wrap x = x := by
  simp only [wrap]
  omega

/-! Intervals. -/

private theorem fixedTransitions_length (m : Manager) (now : Int) :
    ∃ prev next, m.fixedTransitions now = (some prev, next) ∧ prev.2 = prev.1 + wrap (m.trTime * 60) * 1000 := by
  unfold fixedTransitions
  dsimp only
  split
  · exact ⟨_, _, rfl, rfl⟩
  · split
    · refine ⟨_, _, rfl, ?_⟩
      simp only [addDays]
      omega
    · exact ⟨_, _, rfl, rfl⟩

private theorem InBounds.trTime_lt (h : m.InBounds) : m.trTime * 60000 < 43200000 := by
  have := h.belowDay
  have := h.belowNight
  simp only [mscDay] at *
  omega

/-- A step of 50 K in 11 hours and 55 minutes is the longest that fits. -/
private theorem resetSlowUpdateTimer_ne_overflow {prev : Int × Int} (hprev : m.prev = some prev)
    (hlen : prev.2 ≤ prev.1 + 42900000) (later : Int) : m.resetSlowUpdateTimer later ≠ .overflow := by
  unfold resetSlowUpdateTimer
  dsimp only
  rw [hprev]
  generalize (if daylight (some prev) m.next then neutralTemperature else m.nightTargetTemp) = targetTemp
  dsimp only
  split
  · simp
  · next hne =>
    obtain ⟨-, hne⟩ := not_or.mp hne
    split
    · next hin =>
      rw [wrap_eq (by omega), temperatureStep, wrap_eq (by omega), if_neg]
      · simp
      · rintro (hov | hzero)
        · exact hov rfl
        · exact hne (sub_eq_zero.mp (abs_eq_zero.mp hzero)).symm
    · simp

private theorem InBounds.noOverflow_iff (h : m.InBounds) : m.NoOverflow ↔ m.trTime ≤ 715 := by
  have hlt := h.trTime_lt
  have hone := h.trTime
  have hwrap : wrap (m.trTime * 60) * 1000 = m.trTime * 60000 := by
    rw [wrap_eq (by omega)]
    omega
  constructor
  · intro hno
    by_contra hlong
    refine hno (fun _ _ _ => (none, none)) m.morning.msecs m.morning.msecs 1000 false ?_
    have hday : date m.morning.msecs = 0 := by
      have := m.morning.inDay
      simp only [date, mscDay] at *
      omega
    have heve : date m.evening.msecs = 0 := by
      have := m.evening.inDay
      simp only [date, mscDay] at *
      omega
    have hprev : fixedTransitions { m with mode := .timings, currentTemp := 1000 } m.morning.msecs =
        (some (m.morning.msecs, m.morning.msecs + m.trTime * 60000),
          some (m.evening.msecs, m.evening.msecs + m.trTime * 60000)) := by
      have := h.ordered
      simp only [fixedTransitions, dateTime, hday, hwrap, Int.zero_mul, Int.zero_add]
      rw [if_pos (by omega)]
    simp only [updateTransitionTimings, hprev, resetSlowUpdateTimer, daylight, Option.map_some, hday, heve,
      decide_true, if_true, neutralTemperature, temperatureStep]
    rw [if_neg (by omega), if_pos (by omega), wrap_eq (by omega), if_pos (by left; simp only [wrap]; omega)]
  · intro hle sun now later temp force
    obtain ⟨prev, next, heq, hlen⟩ := fixedTransitions_length { m with mode := .timings, currentTemp := temp } now
    simp only [hwrap] at hlen
    have hprev : (updateTransitionTimings sun { m with mode := .timings, currentTemp := temp } now force).prev =
        some prev := by simp only [updateTransitionTimings, heq]
    exact resetSlowUpdateTimer_ne_overflow hprev (by omega) later

private theorem limited_iff : m.Limited text ↔ m.InBounds ∧ m.Reloads text ∧ m.trTime ≤ 715 :=
  ⟨fun h => ⟨h.inBounds, h.reloads, h.inBounds.noOverflow_iff.mp h.noOverflow⟩,
    fun ⟨hb, hr, ht⟩ => ⟨hb, hr, hb.noOverflow_iff.mpr ht⟩⟩

def TemperatureFits (m : Manager) : Prop :=
  minTemperature ≤ m.nightTargetTemp ∧ m.nightTargetTemp ≤ neutralTemperature

/-- The times are in order, with room for a transition that is not too long, and are saved as they are. -/
structure TimingsFit (text : TimeText) (m : Manager) : Prop where
  ordered : m.morning.msecs < m.evening.msecs
  trTime : 1 ≤ m.trTime ∧ m.trTime ≤ 715
  belowDay : m.trTime * 60000 < m.morning.msecsTo m.evening
  belowNight : m.trTime * 60000 < mscDay - m.morning.msecsTo m.evening
  saved : readTimings text m.settings = (m.morning, m.evening, m.trTime)

private theorem limited_iff_fits : m.Limited text ↔ m.TemperatureFits ∧ m.TimingsFit text := by
  rw [limited_iff]
  constructor
  · rintro ⟨⟨htemp, hord, hone, hday, hnight⟩, hr, hle⟩
    exact ⟨htemp, hord, ⟨hone, hle⟩, by omega, by omega, hr⟩
  · rintro ⟨htemp, hord, ⟨hone, hle⟩, hday, hnight, hr⟩
    exact ⟨⟨htemp, hord, hone, by omega, by omega⟩, hr, hle⟩

/-! Reading the config. -/

private theorem storedTimes_spec (text : TimeText) (s : Settings) :
    (storedTimes text s).1.minutes = (storedTimes text s).1 ∧ (storedTimes text s).2.minutes = (storedTimes text s).2 ∧
    0 < (storedTimes text s).1.msecsTo (storedTimes text s).2 := by
  unfold storedTimes
  dsimp only
  cases htimes : Option.filter (fun times : Time × Time => decide (times.1.msecsTo times.2 > 0))
      ((text.hhmm s.morningBeginFixed).bind fun mrB => (text.hhmm s.eveningBeginFixed).map fun evB => (mrB, evB)) with
  | none => decide
  | some times =>
    obtain ⟨hsome, hpos⟩ := Option.filter_eq_some_iff.mp htimes
    obtain ⟨mrB, hmrB, hrest⟩ := Option.bind_eq_some_iff.mp hsome
    obtain ⟨evB, hevB, rfl⟩ := Option.map_eq_some_iff.mp hrest
    exact ⟨text.hhmm_minutes hmrB, text.hhmm_minutes hevB, of_decide_eq_true hpos⟩

private theorem readTimings_minutes (text : TimeText) (s : Settings) :
    (readTimings text s).1.minutes = (readTimings text s).1 ∧
    (readTimings text s).2.1.minutes = (readTimings text s).2.1 := by
  unfold readTimings
  dsimp only
  split
  · decide
  · exact ⟨(storedTimes_spec text s).1, (storedTimes_spec text s).2.1⟩

/-- What is stored gives a transition of at least a minute, or day and night are longer than a minute; and the transition
is shorter than 11 hours and 56 minutes. -/
def SensibleSettings (text : TimeText) (s : Settings) : Prop :=
  0 ≤ storedTrTime s → storedTrTime s < diffMin (storedTimes text s) →
    (60000 ≤ storedTrTime s ∨ 60000 < diffMin (storedTimes text s)) ∧ storedTrTime s < 42960000

theorem readConfig_limited_iff (text : TimeText) (m : Manager) :
    (m.readConfig text).Limited text ↔ SensibleSettings text m.settings := by
  have htemp : minTemperature ≤ (m.readConfig text).nightTargetTemp ∧
      (m.readConfig text).nightTargetTemp ≤ neutralTemperature := by
    simp only [readConfig, minTemperature, neutralTemperature]
    omega
  rw [limited_iff]
  have hreloads : (m.readConfig text).Reloads text := rfl
  by_cases hbad : storedTrTime m.settings < 0 ∨ diffMin (storedTimes text m.settings) ≤ storedTrTime m.settings
  · have htimings : readTimings text m.settings = (.six, .eighteen, max (fallbackSlowUpdateTime / 1000 / 60) 1) :=
      if_pos hbad
    refine ⟨fun _ h₀ h₁ => ?_, fun _ => ⟨⟨htemp, ?_, ?_, ?_, ?_⟩, hreloads, ?_⟩⟩
    · omega
    all_goals
      simp only [readConfig, htimings]
      decide
  · have htimings : readTimings text m.settings = ((storedTimes text m.settings).1, (storedTimes text m.settings).2,
        max (storedTrTime m.settings / 1000 / 60) 1) := if_neg hbad
    obtain ⟨-, -, hpos⟩ := storedTimes_spec text m.settings
    have hmor : (m.readConfig text).morning = (storedTimes text m.settings).1 := by simp only [readConfig, htimings]
    have heve : (m.readConfig text).evening = (storedTimes text m.settings).2 := by simp only [readConfig, htimings]
    have htr : (m.readConfig text).trTime = max (storedTrTime m.settings / 1000 / 60) 1 := by
      simp only [readConfig, htimings]
    obtain ⟨h₀, h₁⟩ := not_or.mp hbad
    have hmin : diffMin (storedTimes text m.settings) ≤ (storedTimes text m.settings).1.msecsTo
        (storedTimes text m.settings).2 ∧ diffMin (storedTimes text m.settings) ≤ mscDay -
        (storedTimes text m.settings).1.msecsTo (storedTimes text m.settings).2 := ⟨min_le_left _ _, min_le_right _ _⟩
    constructor
    · rintro ⟨hb, -, hle⟩ - -
      have hday := hb.belowDay
      have hnight := hb.belowNight
      rw [hmor, heve, htr] at hday hnight
      rw [htr] at hle
      have : diffMin (storedTimes text m.settings) = (storedTimes text m.settings).1.msecsTo
        (storedTimes text m.settings).2 ∨ diffMin (storedTimes text m.settings) = mscDay -
        (storedTimes text m.settings).1.msecsTo (storedTimes text m.settings).2 := min_choice _ _
      omega
    · intro hsens
      obtain ⟨hlong, hshort⟩ := hsens (by omega) (by omega)
      refine ⟨⟨htemp, ?_, ?_, ?_, ?_⟩, hreloads, ?_⟩
      · rw [hmor, heve]
        exact Int.sub_pos.mp hpos
      all_goals
        simp only [hmor, heve, htr]
        omega

/-! Changing the configuration. -/

/-- The part of the settings that timings are read from. -/
private def timingSettings (s : Settings) : String × String × Int :=
  (s.morningBeginFixed, s.eveningBeginFixed, s.transitionTime)

private theorem readTimings_congr {s s' : Settings} (h : timingSettings s = timingSettings s') :
    readTimings text s = readTimings text s' := by
  simp only [timingSettings, Prod.mk.injEq] at h
  obtain ⟨h₁, h₂, h₃⟩ := h
  have htimes : storedTimes text s = storedTimes text s' := by rw [storedTimes, storedTimes, h₁, h₂]
  have htr : storedTrTime s = storedTrTime s' := by rw [storedTrTime, storedTrTime, h₃]
  rw [readTimings, readTimings, htimes, htr]

/-- What the limits are about. -/
private def kept (m : Manager) : Int × (Time × Time × Int) × String × String × Int :=
  (m.nightTargetTemp, (m.morning, m.evening, m.trTime), timingSettings m.settings)

private theorem limited_kept {m' : Manager} (hk : m'.kept = m.kept) : m'.Limited text ↔ m.Limited text := by
  simp only [kept, Prod.mk.injEq] at hk
  obtain ⟨htemp, ⟨hmor, heve, htr⟩, hset⟩ := hk
  have hbounds : m'.InBounds ↔ m.InBounds := by
    constructor <;> rintro ⟨h₁, h₂, h₃, h₄, h₅⟩ <;> constructor <;> simp only [htemp, hmor, heve, htr] at * <;> assumption
  have hreloads : m'.Reloads text ↔ m.Reloads text := by
    simp only [Reloads, readConfig, readTimings_congr hset, hmor, heve, htr]
  rw [limited_iff, limited_iff, hbounds, hreloads, htr]

section timers
variable (sun : SunTimings) (now : Int)

private theorem updateTransitionTimings_kept (m : Manager) (force : Bool) :
    (m.updateTransitionTimings sun now force).kept = m.kept := by
  unfold updateTransitionTimings
  split <;> rfl

private theorem resetSlowUpdateStartTimer_kept (m : Manager) : (m.resetSlowUpdateStartTimer sun now).kept = m.kept := by
  unfold resetSlowUpdateStartTimer
  split
  · rfl
  · split
    · rfl
    · dsimp only
      split <;> exact updateTransitionTimings_kept sun now m false

private theorem resetAllTimers_kept (m : Manager) (isOff : Bool) : (m.resetAllTimers sun now isOff).kept = m.kept := by
  unfold resetAllTimers resetQuickAdjustTimer
  dsimp only
  split
  · split
    · exact updateTransitionTimings_kept sun now _ false
    · rw [resetSlowUpdateStartTimer_kept, updateTransitionTimings_kept]
      rfl
  · rfl

private theorem hardReset_kept (m : Manager) (isOff : Bool) : (m.hardReset sun now isOff).kept = m.kept := by
  unfold hardReset
  dsimp only
  split <;> rw [resetAllTimers_kept] <;> exact updateTransitionTimings_kept sun now _ true

/-- Events that neither change nor read the configuration leave the limits alone. -/
private theorem step_kept (text : TimeText) (m : Manager) (isOff : Bool) {event : Event}
    (hchange : ∀ data, event ≠ .changeConfiguration data) (hread : ∀ settings, event ≠ .reparseConfigAndReset settings) :
    (m.step sun text now isOff event).kept = m.kept := by
  cases event with
  | updateTransitionTimings force => exact updateTransitionTimings_kept sun now m force
  | autoLocationUpdate latitude longitude =>
    unfold step autoLocationUpdate
    dsimp only
    split
    · rfl
    · split
      · rfl
      · exact resetAllTimers_kept sun now _ isOff
  | changeConfiguration data => exact absurd rfl (hchange data)
  | reparseConfigAndReset settings => exact absurd rfl (hread settings)
  | inhibit =>
    unfold step inhibit
    dsimp only
    split
    · exact resetAllTimers_kept sun now _ isOff
    · rfl
  | uninhibit =>
    unfold step uninhibit
    dsimp only
    split
    · exact resetAllTimers_kept sun now _ isOff
    · rfl
  | hardReset => exact hardReset_kept sun now m isOff
  | cancelAllTimers => rfl
  | resetSlowUpdateStartTimer => exact resetSlowUpdateStartTimer_kept sun now m
  | finishQuickAdjust =>
    unfold step finishQuickAdjust
    dsimp only
    split
    · exact resetSlowUpdateStartTimer_kept sun now _
    · rfl

end timers

/-- The timings are changed after everything else. -/
private theorem applyConfiguration_kept (text : TimeText) (m : Manager) (c : Configuration) : ∃ m' : Manager,
    m.applyConfiguration text c = m'.changeTimings text c.timings ∧
    m'.kept = (c.nightTemperature, (m.morning, m.evening, m.trTime), timingSettings m.settings) := by
  have hactive (m : Manager) : (m.changeActive c.active).kept = m.kept := by
    unfold changeActive
    split <;> rfl
  have hmode (m : Manager) : (m.changeMode c.mode).kept = m.kept := by
    unfold changeMode
    split <;> rfl
  have htemperature (m : Manager) : (m.changeTemperature c.nightTemperature).kept =
      (c.nightTemperature, m.kept.2) := by
    unfold changeTemperature
    split
    · rfl
    · next heq => rw [← not_not.mp heq]; rfl
  have hlocation (m : Manager) : (m.changeLocation c.location).kept = m.kept := by
    unfold changeLocation
    split <;> rfl
  refine ⟨_, rfl, ?_⟩
  rw [hlocation, htemperature, hmode, hactive]
  rfl

private theorem changeTimings_kept (m : Manager) (timings : Time × Time × Int) :
    (m.changeTimings text timings).kept = if m.kept.2.1 ≠ timings then
      (m.kept.1, timings, text.toHhmm timings.1, text.toHhmm timings.2.1, timings.2.2) else m.kept := by
  unfold changeTimings
  split
  · next hne => exact (if_pos hne).symm
  · next heq => exact (if_neg heq).symm

private theorem cancelAllTimers_applyConfiguration_kept (m : Manager) (c : Configuration) :
    (m.cancelAllTimers.applyConfiguration text c).kept = (m.applyConfiguration text c).kept := by
  obtain ⟨m₁, h₁, hk₁⟩ := applyConfiguration_kept text m c
  obtain ⟨m₂, h₂, hk₂⟩ := applyConfiguration_kept text m.cancelAllTimers c
  rw [h₁, h₂, changeTimings_kept, changeTimings_kept, hk₁, hk₂]
  rfl

/-- Whole minutes and a transition that is not too long are read back as they are saved. -/
private theorem readTimings_saved {s : Settings} {mo ev : Time} {tT : Int} (hcheck : ConfigMap.checkTimings mo ev tT)
    (hs : timingSettings s = (text.toHhmm mo, text.toHhmm ev, tT)) (hmo : mo.minutes = mo) (hev : ev.minutes = ev)
    (hle : tT ≤ 715) : readTimings text s = (mo, ev, tT) := by
  simp only [timingSettings, Prod.mk.injEq] at hs
  obtain ⟨h₁, h₂, h₃⟩ := hs
  simp only [ConfigMap.checkTimings, Bool.not_eq_true', decide_eq_false_iff_not, not_or] at hcheck
  obtain ⟨hpos, hmin, hone⟩ := hcheck
  have htr : storedTrTime s = tT * 60000 := by
    rw [storedTrTime, h₃, wrap_eq (x := tT * 1000) (by omega), wrap_eq (by omega)]
    omega
  have htimes : storedTimes text s = (mo, ev) := by
    rw [storedTimes, h₁, h₂, text.hhmm_toHhmm, text.hhmm_toHhmm, hmo, hev]
    simp only [Option.bind_some, Option.map_some]
    rw [Option.filter_some, if_pos (decide_eq_true (not_le.mp hpos))]
    rfl
  rw [wrap_eq (x := tT * 60) (by omega), wrap_eq (by omega)] at hmin
  rw [readTimings, htimes, htr]
  dsimp only
  rw [if_neg (by simp only [diffMin]; omega)]
  congr 2
  omega

/-- Whole minutes, with a transition of at most 11 hours and 55 minutes. -/
def SensibleTimings (mo ev : Time) (tT : Int) : Prop := mo.minutes = mo ∧ ev.minutes = ev ∧ tT ≤ 715

/-- New timings of the map are sensible, and what the map does not change fits already. -/
structure SensibleChange (text : TimeText) (m : Manager) (data : ConfigMap) : Prop where
  temperature : data.nightTemperature = none → m.TemperatureFits
  changed : ∀ mo ev tT, data.timings text = some (some (mo, ev, tT)) →
    (mo, ev, tT) ≠ (m.morning, m.evening, m.trTime) → SensibleTimings mo ev tT
  same : (∀ timings, data.timings text = some (some timings) → timings = (m.morning, m.evening, m.trTime)) →
    m.TimingsFit text

private theorem checkTimings_of_timings {data : ConfigMap} {mo ev : Time} {tT : Int}
    (h : data.timings text = some (some (mo, ev, tT))) : ConfigMap.checkTimings mo ev tT := by
  unfold ConfigMap.timings at h
  split at h
  · obtain ⟨_, -, h⟩ := Option.bind_eq_some_iff.mp (Option.some.inj h)
    obtain ⟨_, -, h⟩ := Option.bind_eq_some_iff.mp h
    obtain ⟨_, -, h⟩ := Option.bind_eq_some_iff.mp h
    obtain ⟨_, -, h⟩ := Option.bind_eq_some_iff.mp h
    obtain ⟨_, -, h⟩ := Option.bind_eq_some_iff.mp h
    obtain ⟨hc, h⟩ := Option.ite_none_right_eq_some.mp h
    cases h
    exact hc
  · cases h

private theorem temperature_of_map {data : ConfigMap} {t : Int} (h : data.nightTemperature = some (some t)) :
    minTemperature ≤ t ∧ t ≤ neutralTemperature := by
  obtain ⟨v, -, h⟩ := Option.map_eq_some_iff.mp h
  obtain ⟨nT, -, h⟩ := Option.bind_eq_some_iff.mp h
  obtain ⟨hc, h⟩ := Option.ite_none_left_eq_some.mp h
  cases h
  omega

/-- What a request has is from the map, or as before. -/
private theorem requested_eq_some {data : ConfigMap} {c : Configuration} (h : m.requested text data = some c) :
    (c.nightTemperature = m.nightTargetTemp ∨ data.nightTemperature = some (some c.nightTemperature)) ∧
    (data.timings text = none ∧ c.timings = (m.morning, m.evening, m.trTime) ∨
      data.timings text = some (some c.timings)) := by
  obtain ⟨_, -, h⟩ := Option.bind_eq_some_iff.mp h
  obtain ⟨_, -, h⟩ := Option.bind_eq_some_iff.mp h
  obtain ⟨nightT, hnight, h⟩ := Option.bind_eq_some_iff.mp h
  obtain ⟨_, -, h⟩ := Option.bind_eq_some_iff.mp h
  obtain ⟨timings, htimings, rfl⟩ := Option.map_eq_some_iff.mp h
  constructor
  · cases hmap : data.nightTemperature with
    | none =>
      rw [hmap] at hnight
      exact .inl (Option.some.inj hnight).symm
    | some t =>
      rw [hmap] at hnight
      exact .inr (congrArg some hnight)
  · cases hmap : data.timings text with
    | none =>
      rw [hmap] at htimings
      exact .inl ⟨rfl, (Option.some.inj htimings).symm⟩
    | some t =>
      rw [hmap] at htimings
      exact .inr (congrArg some htimings)

private theorem requested_temperature {data : ConfigMap} {c : Configuration} (h : m.requested text data = some c)
    {t : Option Int} (hmap : data.nightTemperature = some t) : t = some c.nightTemperature := by
  obtain ⟨_, -, h⟩ := Option.bind_eq_some_iff.mp h
  obtain ⟨_, -, h⟩ := Option.bind_eq_some_iff.mp h
  obtain ⟨nightT, hnight, h⟩ := Option.bind_eq_some_iff.mp h
  obtain ⟨_, -, h⟩ := Option.bind_eq_some_iff.mp h
  obtain ⟨timings, -, rfl⟩ := Option.map_eq_some_iff.mp h
  rw [hmap] at hnight
  exact hnight

/-- Timings that fit are sensible. -/
private theorem TimingsFit.sensible (h : m.TimingsFit text) {mo ev : Time} {tT : Int}
    (heq : (m.morning, m.evening, m.trTime) = (mo, ev, tT)) : SensibleTimings mo ev tT := by
  obtain ⟨hmo, hev⟩ := readTimings_minutes text m.settings
  rw [h.saved, heq] at hmo hev
  cases heq
  exact ⟨hmo, hev, h.trTime.2⟩

/-- New timings that are accepted are sensible exactly if they are read back, without an overflow. -/
private theorem newTimings_fit_iff {m' : Manager} {mo ev : Time} {tT : Int}
    (hcheck : ConfigMap.checkTimings mo ev tT)
    (hkept : m'.kept.2 = ((mo, ev, tT), text.toHhmm mo, text.toHhmm ev, tT)) :
    m'.TimingsFit text ↔ SensibleTimings mo ev tT := by
  simp only [kept, Prod.mk.injEq] at hkept
  obtain ⟨⟨hmor, heve, htr⟩, hset⟩ := hkept
  constructor
  · exact fun h => h.sensible (by rw [hmor, heve, htr])
  · rintro ⟨hmo, hev, hle⟩
    have hread := readTimings_saved hcheck hset hmo hev hle
    simp only [ConfigMap.checkTimings, Bool.not_eq_true', decide_eq_false_iff_not, not_or] at hcheck
    obtain ⟨hpos, hmin, hone⟩ := hcheck
    rw [wrap_eq (x := tT * 60) (by omega), wrap_eq (by omega)] at hmin
    refine ⟨?_, htr ▸ ⟨by omega, hle⟩, ?_, ?_, by rw [hread, hmor, heve, htr]⟩
    · rw [hmor, heve]
      exact Int.sub_pos.mp (not_le.mp hpos)
    · rw [hmor, heve, htr]
      omega
    · rw [hmor, heve, htr]
      omega

private theorem timingsFit_congr {m' : Manager} (hk : m'.kept.2 = m.kept.2) : m'.TimingsFit text ↔ m.TimingsFit text := by
  simp only [kept, Prod.mk.injEq] at hk
  obtain ⟨⟨hmor, heve, htr⟩, hset⟩ := hk
  constructor <;> rintro ⟨h₁, h₂, h₃, h₄, h₅⟩ <;> constructor <;>
    simp only [readTimings_congr hset, hmor, heve, htr] at * <;> assumption

private theorem applyConfiguration_limited_iff {data : ConfigMap} {c : Configuration}
    (hc : m.requested text data = some c) : (m.applyConfiguration text c).Limited text ↔ m.SensibleChange text data := by
  obtain ⟨hnight, htimings⟩ := requested_eq_some hc
  have hkept : (m.applyConfiguration text c).kept = (c.nightTemperature,
      if (m.morning, m.evening, m.trTime) ≠ c.timings then
        (c.timings, text.toHhmm c.timings.1, text.toHhmm c.timings.2.1, c.timings.2.2) else m.kept.2) := by
    obtain ⟨m', happly, hm'⟩ := applyConfiguration_kept text m c
    rw [happly, changeTimings_kept, hm']
    split <;> rfl
  have htemperature : (m.applyConfiguration text c).TemperatureFits ↔ (data.nightTemperature = none → m.TemperatureFits) := by
    rw [TemperatureFits, show (m.applyConfiguration text c).nightTargetTemp = c.nightTemperature from
      congrArg Prod.fst hkept]
    cases hmap : data.nightTemperature with
    | none =>
      rw [hnight.resolve_right (by simp [hmap])]
      exact ⟨fun h _ => h, fun h => h rfl⟩
    | some t =>
      have ht := requested_temperature hc hmap
      exact ⟨fun _ h => (Option.some_ne_none _ h).elim, fun _ => temperature_of_map (hmap.trans (congrArg some ht))⟩
  rw [limited_iff_fits, htemperature]
  by_cases hne : (m.morning, m.evening, m.trTime) ≠ c.timings
  · rw [if_pos hne] at hkept
    have hmap : data.timings text = some (some c.timings) := htimings.resolve_left fun h => hne h.2.symm
    generalize c.timings = timings at hmap hne hkept
    obtain ⟨mo, ev, tT⟩ := timings
    rw [newTimings_fit_iff (checkTimings_of_timings hmap) (congrArg Prod.snd hkept)]
    constructor
    · rintro ⟨htemp, hs⟩
      refine ⟨htemp, fun mo' ev' tT' hmap' _ => ?_, fun hsame => absurd (hsame _ hmap).symm hne⟩
      rw [hmap] at hmap'
      cases hmap'
      exact hs
    · exact fun h => ⟨h.temperature, h.changed mo ev tT hmap fun heq => hne heq.symm⟩
  · rw [if_neg hne] at hkept
    have hfits : (m.applyConfiguration text c).TimingsFit text ↔ m.TimingsFit text :=
      timingsFit_congr (by rw [hkept])
    rw [hfits]
    have hsame (timings : Time × Time × Int) (hmap : data.timings text = some (some timings)) :
        timings = (m.morning, m.evening, m.trTime) := by
      rcases htimings with ⟨hnone, -⟩ | hmap'
      · rw [hnone] at hmap
        cases hmap
      · rw [hmap] at hmap'
        exact (Option.some.inj (Option.some.inj hmap')).trans (not_not.mp hne).symm
    constructor
    · rintro ⟨htemp, hfit⟩
      exact ⟨htemp, fun mo ev tT hmap hno => absurd (hsame _ hmap) hno, fun _ => hfit⟩
    · exact fun h => ⟨h.temperature, h.same hsame⟩

/-- A call that is refused changes nothing, and one that is not leaves the manager within the limits. -/
def AcceptsOrRefuses (text : TimeText) (m : Manager) (result : Bool × Manager) : Prop :=
  result = (false, m) ∨ (result.1 = true ∧ result.2.Limited text)

private theorem acceptsOrRefuses_iff (sun : SunTimings) (now : Int) (isOff : Bool) (data : ConfigMap) :
    AcceptsOrRefuses text m (m.changeConfiguration text sun now isOff data) ↔
      m.requested text data = none ∨ m.SensibleChange text data := by
  unfold changeConfiguration
  cases hc : m.requested text data with
  | none => exact ⟨fun _ => .inl rfl, fun _ => .inl rfl⟩
  | some c =>
    have hresult (result : Manager) (hk : result.kept = (m.applyConfiguration text c).kept) :
        AcceptsOrRefuses text m (true, result) ↔ some c = none ∨ m.SensibleChange text data := by
      rw [← applyConfiguration_limited_iff hc, ← limited_kept hk]
      simp [AcceptsOrRefuses]
    dsimp only
    split
    · refine hresult _ ?_
      rw [resetAllTimers_kept, cancelAllTimers_applyConfiguration_kept]
    · exact hresult _ rfl

/-- Which settings and which maps give the limits. -/
theorem limits_iff_sensible (text : TimeText) :
    (∀ m : Manager, (m.readConfig text).Limited text ↔ SensibleSettings text m.settings) ∧
    ∀ (m : Manager) (sun : SunTimings) (now : Int) (isOff : Bool) (data : ConfigMap),
      AcceptsOrRefuses text m (m.changeConfiguration text sun now isOff data) ↔
        m.requested text data = none ∨ m.SensibleChange text data :=
  ⟨readConfig_limited_iff text, fun _ => acceptsOrRefuses_iff⟩

/-- Settings are sensible when they are read, and a map that is accepted has sensible timings. -/
def careful (text : TimeText) (m : Manager) (event : Int × Bool × Event) : Prop :=
  match event.2.2 with
  | .changeConfiguration data => m.requested text data ≠ none →
      ∀ mo ev tT, data.timings text = some (some (mo, ev, tT)) → SensibleTimings mo ev tT
  | .reparseConfigAndReset settings => SensibleSettings text settings
  | _ => True

private theorem Limited.step {sun : SunTimings} {event : Int × Bool × Event} (h : m.Limited text)
    (hok : careful text m event) : (m.step sun text event.1 event.2.1 event.2.2).Limited text := by
  obtain ⟨now, isOff, event⟩ := event
  have hfits := limited_iff_fits.mp h
  cases event with
  | changeConfiguration data =>
    have hsensible : m.requested text data = none ∨ m.SensibleChange text data := by
      by_cases hrefused : m.requested text data = none
      · exact .inl hrefused
      · exact .inr ⟨fun _ => hfits.1, fun mo ev tT hmap _ => hok hrefused mo ev tT hmap, fun _ => hfits.2⟩
    change (m.changeConfiguration text sun now isOff data).2.Limited text
    rcases (acceptsOrRefuses_iff sun now isOff data).mpr hsensible with hsame | ⟨-, hlimited⟩
    · rw [hsame]
      exact h
    · exact hlimited
  | reparseConfigAndReset settings =>
    unfold Manager.step reparseConfigAndReset
    rw [limited_kept (hardReset_kept sun now _ isOff)]
    exact (readConfig_limited_iff text _).mpr hok
  | _ => exact (limited_kept (step_kept sun now text m isOff (by simp) (by simp))).mpr h

/-- In a run of sensible settings and maps the limits are kept. -/
theorem limited_of_careful (sun : SunTimings) (text : TimeText) {m₀ : Manager} (hstart : m₀.Limited text)
    (hrun : Lib.Reachable (events sun text) (careful text) m₀ m) : m.Limited text :=
  hrun.invariant (Limited text) hstart fun _ _ _ h hok hstep => by
    cases hstep
    exact h.step hok

/-! A manager with the default times. -/

private def sunless : SunTimings := fun _ _ _ => (none, none)

private def withTransition (minutes : Int) : Settings :=
  ⟨false, some .timings, 4500, some 0, some 0, some 0, some 0, "0600", "1800", minutes⟩

private def fresh : Manager := readConfig .twoDigitParts { available := true, settings := withTransition 30 }

private def timingsMap (morning evening : String) (minutes : Int) : ConfigMap := fun key =>
  if key = "MorningBeginFixed" then some { string := some morning }
  else if key = "EveningBeginFixed" then some { string := some evening }
  else if key = "TransitionTime" then some { int := some minutes }
  else none

private theorem fresh_limited : fresh.Limited .twoDigitParts :=
  (readConfig_limited_iff _ _).mpr fun _ _ => by decide +kernel

theorem fromSeven_limited :
    (fresh.changeConfiguration .twoDigitParts sunless 0 false (timingsMap "07:00:00" "21:00:00" 45)).2.trTime = 45 ∧
    AcceptsOrRefuses .twoDigitParts fresh
      (fresh.changeConfiguration .twoDigitParts sunless 0 false (timingsMap "07:00:00" "21:00:00" 45)) := by
  have hmap : (timingsMap "07:00:00" "21:00:00" 45).timings .twoDigitParts = some (some (⟨25200000, by decide⟩,
    ⟨75600000, by decide⟩, 45)) := by decide +kernel
  refine ⟨by decide +kernel, ((limits_iff_sensible _).2 fresh sunless 0 false _).mpr (.inr ⟨fun _ => ?_,
    fun mo ev tT h _ => ?_, fun h => ?_⟩)⟩
  · exact (limited_iff_fits.mp fresh_limited).1
  · rw [hmap] at h
    cases h
    exact ⟨rfl, rfl, by decide⟩
  · exact absurd (h _ hmap) (by decide +kernel)

/-- 71583 minutes are taken for 12.704 seconds, half a minute is lost when it is saved, and a day of one minute does not
have room for the transition that a stored zero becomes. -/
theorem wrapped_transition_accepted :
    (fresh.changeConfiguration .twoDigitParts sunless 0 false (timingsMap "06:00:00" "18:00:00" 71583)).2.trTime = 71583 ∧
    ¬ AcceptsOrRefuses .twoDigitParts fresh
      (fresh.changeConfiguration .twoDigitParts sunless 0 false (timingsMap "06:00:00" "18:00:00" 71583)) ∧
    ¬ AcceptsOrRefuses .twoDigitParts fresh
      (fresh.changeConfiguration .twoDigitParts sunless 0 false (timingsMap "06:00:30" "18:00:00" 30)) ∧
    ¬ (readConfig .twoDigitParts { available := true, settings := { withTransition 0 with eveningBeginFixed := "0601" } }
      ).InBounds := by
  have hlong : (fresh.changeConfiguration .twoDigitParts sunless 0 false
    (timingsMap "06:00:00" "18:00:00" 71583)).2.trTime = 71583 := by decide +kernel
  refine ⟨hlong, ?_, ?_, ?_⟩
  · rintro (h | ⟨-, h⟩)
    · exact absurd (congrArg Prod.fst h) (by decide +kernel)
    · have hlt := h.inBounds.trTime_lt
      rw [hlong] at hlt
      omega
  · rintro (h | ⟨-, h⟩)
    · exact absurd (congrArg Prod.fst h) (by decide +kernel)
    · exact absurd h.reloads (by unfold Reloads; decide +kernel)
  · intro h
    exact absurd h.belowDay (by decide +kernel)

end Manager

end KWinFT.NightColor
