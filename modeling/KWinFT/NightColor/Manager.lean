import KWinFT.NightColor.TimeText
import Mathlib.Algebra.Order.Ring.Rat

/-! Night Color: its configuration, the transitions of the color temperature before and after the present time, and the
timers that follow them. -/
namespace KWinFT.NightColor

def minTemperature : Int := 1000
def neutralTemperature : Int := 6500
/-- 30 minutes. -/
def fallbackSlowUpdateTime : Int := 1800000
def temperatureStep : Int := 50

/-- What an `int` keeps of a number. -/
def wrap (x : Int) : Int := (x + 2 ^ 31) % 2 ^ 32 - 2 ^ 31

/-! A point in time is given in milliseconds of the local clock, which is not changed. -/

def date (t : Int) : Int := t / mscDay

def addDays (t n : Int) : Int := t + n * mscDay

def dateTime (date : Int) (t : Time) : Int := date * mscDay + t.msecs

/-- Begin and end of a transition, where there is one. -/
abbrev DateTimes := Option (Int × Int)

/-- `double`, where only finite values matter. -/
abbrev Double := Option ℚ

structure Location where
  lat : ℚ
  lng : ℚ
deriving DecidableEq, Repr

/-- The coordinates as a location, if they are within bounds. -/
def checkLocation (lat lng : Double) : Option Location :=
  match lat, lng with
  | some lat, some lng => if -90 ≤ lat ∧ lat ≤ 90 ∧ -180 ≤ lng ∧ lng ≤ 180 then some ⟨lat, lng⟩ else none
  | _, _ => none

inductive NightColorMode
  | automatic | location | timings | constant
deriving DecidableEq, Repr

/-- The entries of the config group, where the mode can be another number. -/
structure Settings where
  active : Bool
  mode : Option NightColorMode
  nightTemperature : Int
  latitudeAuto : Double
  longitudeAuto : Double
  latitudeFixed : Double
  longitudeFixed : Double
  morningBeginFixed : String
  eveningBeginFixed : String
  transitionTime : Int

/-- What a `QVariant` can be converted to. -/
structure Variant where
  bool : Option Bool := none
  int : Option Int := none
  double : Option Double := none
  string : Option String := none

/-- A configuration as it comes over D-Bus. -/
abbrev ConfigMap := String → Option Variant

/-- A call of `updateTransitionTimings(false)` that depends on the sun: when and where, with the transitions before and
after it. -/
structure Update where
  now : Int
  location : Location
  before : DateTimes × DateTimes
  after : DateTimes × DateTimes
deriving DecidableEq

structure Manager where
  available : Bool
  active : Bool := false
  running : Bool := false
  inhibitReferenceCount : Int := 0
  mode : NightColorMode := .automatic
  prev : DateTimes := none
  next : DateTimes := none
  morning : Time := .six
  evening : Time := .eighteen
  /-- In minutes. -/
  trTime : Int := 30
  auto : Location := ⟨0, 0⟩
  fixed : Location := ⟨0, 0⟩
  currentTemp : Int := neutralTemperature
  nightTargetTemp : Int := 4500
  quickAdjustTimer : Bool := false
  /-- As saved. -/
  settings : Settings
  updates : List Update := []
  /-- The time calculation has failed. -/
  error : Bool := false

/-- The begin and end of the morning or evening of a date, as `calculateSunTimings` gives them, if they exist. -/
abbrev SunTimings := Int → Location → Bool → Option Int × Option Int

def daylight (prev next : DateTimes) : Bool := prev.map (date ·.1) = next.map (date ·.1)

/-- The present lies between the transitions, and they are less than 23 hours apart. -/
def checkAutomaticSunTimings (now : Int) (prev next : DateTimes) : Bool :=
  match prev, next with
  | some prev, some next => prev.1 ≤ now && now < next.1 && next.1 - prev.1 < mscDay * 23 / 24
  | _, _ => false

section sun
variable (sun : SunTimings)

/-- Near the poles there are default values. -/
def getSunTimings (when : Int) (location : Location) (morning : Bool) : Int × Int :=
  match sun when location morning with
  | (some first, some second) => (first, second)
  | (some first, none) => (first, first + fallbackSlowUpdateTime)
  | (none, some second) => (second - fallbackSlowUpdateTime, second)
  | (none, none) =>
    let first := dateTime (date when) (if morning then .six else .eighteen)
    (first, first + fallbackSlowUpdateTime)

/-- The next transition becomes the previous one. -/
def switchTimings (now : Int) (location : Location) (prev next : DateTimes) : DateTimes × DateTimes :=
  if daylight prev next then (next, some (getSunTimings sun (addDays now 1) location true))
  else (next, some (getSunTimings sun now location false))

/-- The transitions before and after the present. -/
def resetTimings (now : Int) (location : Location) : DateTimes × DateTimes :=
  let morning := getSunTimings sun now location true
  if now < morning.1 then (some (getSunTimings sun (addDays now (-1)) location false), some morning)
  else
    let evening := getSunTimings sun now location false
    if now < evening.1 then (some morning, some evening)
    else (some evening, some (getSunTimings sun (addDays now 1) location true))

/-- The two branches of `updateTransitionTimings` that depend on the sun. -/
def sunTransitions (now : Int) (location : Location) (force : Bool) (prev next : DateTimes) :
    DateTimes × DateTimes :=
  if force then resetTimings sun now location
  else
    let switched := switchTimings sun now location prev next
    if checkAutomaticSunTimings now switched.1 switched.2 then switched else resetTimings sun now location

namespace Manager
variable (m : Manager)

def fixedTransitions (now : Int) : DateTimes × DateTimes :=
  let morB := dateTime (date now) m.morning
  let morE := morB + wrap (m.trTime * 60) * 1000
  let eveB := dateTime (date now) m.evening
  let eveE := eveB + wrap (m.trTime * 60) * 1000
  if morB ≤ now ∧ now < eveB then (some (morB, morE), some (eveB, eveE))
  else if now < morB then (some (addDays eveB (-1), addDays eveE (-1)), some (morB, morE))
  else (some (eveB, eveE), some (addDays morB 1, addDays morE 1))

def updateTransitionTimings (now : Int) (force : Bool) : Manager :=
  match m.mode with
  | .constant => { m with prev := none, next := none }
  | .timings => { m with prev := (m.fixedTransitions now).1, next := (m.fixedTransitions now).2 }
  | mode =>
    let location := if mode = .automatic then m.auto else m.fixed
    let after := sunTransitions sun now location force m.prev m.next
    { m with
      prev := after.1
      next := after.2
      updates := if force then m.updates else m.updates ++ [⟨now, location, (m.prev, m.next), after⟩] }

/-- What `resetSlowUpdateTimer` does with its timer; `int` may not hold a number that it computes. -/
inductive SlowUpdate
  | none | interval (msecs : Int) | overflow
deriving DecidableEq, Repr

def resetSlowUpdateTimer (now : Int) : SlowUpdate :=
  let targetTemp := if daylight m.prev m.next then neutralTemperature else m.nightTargetTemp
  match m.prev with
  | .none => .none
  | some prev =>
    if prev.1 = prev.2 ∨ m.currentTemp = targetTemp then .none
    else if prev.1 ≤ now ∧ now ≤ prev.2 then
      let availTime := wrap (prev.2 - now)
      let difference := |targetTemp - m.currentTemp|
      if availTime * temperatureStep ≠ wrap (availTime * temperatureStep) ∨ difference = 0 then .overflow
      else .interval (max (availTime * temperatureStep / difference) 1)
    else .none

def resetSlowUpdateStartTimer (now : Int) : Manager :=
  if !m.running || m.quickAdjustTimer then m
  else if m.mode = .constant then m
  else
    let m := m.updateTransitionTimings sun now false
    if m.next.any fun next => now < next.1 then m else { m with error := true }

/-- The temperature may be further than a step from its target, and is then adjusted quickly. -/
def resetQuickAdjustTimer (now : Int) (isOff : Bool) : Manager :=
  let m := m.updateTransitionTimings sun now false
  if isOff then { m with quickAdjustTimer := true } else m.resetSlowUpdateStartTimer sun now

def cancelAllTimers : Manager := { m with quickAdjustTimer := false }

def isInhibited : Bool := m.inhibitReferenceCount ≠ 0

def resetAllTimers (now : Int) (isOff : Bool) : Manager :=
  let m := m.cancelAllTimers
  if m.available then
    resetQuickAdjustTimer sun { m with running := m.active && !m.isInhibited } now isOff
  else { m with running := false }

def hardReset (now : Int) (isOff : Bool) : Manager :=
  let m := m.cancelAllTimers.updateTransitionTimings sun now true
  let m := if m.available && m.active && !m.isInhibited then { m with running := true } else m
  m.resetAllTimers sun now isOff

/-- The last step of the quick adjustment. -/
def finishQuickAdjust (now : Int) : Manager :=
  if m.quickAdjustTimer then resetSlowUpdateStartTimer sun { m with quickAdjustTimer := false } now else m

def inhibit (now : Int) (isOff : Bool) : Manager :=
  let m := { m with inhibitReferenceCount := m.inhibitReferenceCount + 1 }
  if m.inhibitReferenceCount = 1 then m.resetAllTimers sun now isOff else m

def uninhibit (now : Int) (isOff : Bool) : Manager :=
  let m := { m with inhibitReferenceCount := m.inhibitReferenceCount - 1 }
  if m.inhibitReferenceCount = 0 then m.resetAllTimers sun now isOff else m

/-- Small deviations from the present location are tolerated. -/
def autoLocationUpdate (now : Int) (isOff : Bool) (latitude longitude : Double) : Manager :=
  match checkLocation latitude longitude with
  | none => m
  | some location =>
    if |m.auto.lat - location.lat| < 2 ∧ |m.auto.lng - location.lng| < 1 then m
    else
      let m := m.cancelAllTimers
      resetAllTimers sun { m with
        auto := location
        settings := { m.settings with latitudeAuto := latitude, longitudeAuto := longitude } } now isOff

end Manager

end sun

namespace Manager
variable (text : TimeText) (m : Manager)

/-- Invalid times are no time apart, and times that are not in order are replaced by defaults. -/
def storedTimes (s : Settings) : Time × Time :=
  let times := (text.hhmm s.morningBeginFixed).bind fun mrB => (text.hhmm s.eveningBeginFixed).map fun evB => (mrB, evB)
  (times.filter fun times => times.1.msecsTo times.2 > 0).getD (.six, .eighteen)

/-- The shorter one of day and night. -/
def diffMin (times : Time × Time) : Int := min (times.1.msecsTo times.2) (mscDay - times.1.msecsTo times.2)

def storedTrTime (s : Settings) : Int := wrap (wrap (s.transitionTime * 1000) * 60)

/-- The fixed times and the length of the transitions, in minutes. -/
def readTimings (s : Settings) : Time × Time × Int :=
  let trTime := storedTrTime s
  if trTime < 0 ∨ diffMin (storedTimes text s) ≤ trTime then
    (.six, .eighteen, max (fallbackSlowUpdateTime / 1000 / 60) 1)
  else ((storedTimes text s).1, (storedTimes text s).2, max (trTime / 1000 / 60) 1)

def readConfig : Manager :=
  let s := m.settings
  let timings := readTimings text s
  { m with
    active := s.active
    mode := s.mode.getD .automatic
    nightTargetTemp := max minTemperature (min neutralTemperature s.nightTemperature)
    auto := (checkLocation s.latitudeAuto s.longitudeAuto).getD ⟨0, 0⟩
    fixed := (checkLocation s.latitudeFixed s.longitudeFixed).getD ⟨0, 0⟩
    morning := timings.1
    evening := timings.2.1
    trTime := timings.2.2 }

end Manager

/-! What a configuration map asks for: `none` where it does not say, and `some none` where it is refused. -/

namespace ConfigMap
variable (data : ConfigMap)

def active : Option (Option Bool) := (data "Active").map (·.bool)

def mode : Option (Option NightColorMode) :=
  (data "Mode").map fun v => v.int.bind fun mo =>
    if mo = 0 then some .automatic else if mo = 1 then some .location else if mo = 2 then some .timings
    else if mo = 3 then some .constant else none

def nightTemperature : Option (Option Int) :=
  (data "NightTemperature").map fun v => v.int.bind fun nT =>
    if nT < minTemperature ∨ neutralTemperature < nT then none else some nT

def location : Option (Option Location) :=
  match data "LatitudeFixed", data "LongitudeFixed" with
  | some la, some ln => some (la.double.bind fun la => ln.double.bind fun ln => checkLocation la ln)
  | _, _ => none

/-- The morning has to be before the evening, and the transition shorter than day and night. -/
def checkTimings (mo ev : Time) (tT : Int) : Bool :=
  let diffME := mo.msecsTo ev
  !(diffME ≤ 0 ∨ min diffME (mscDay - diffME) ≤ wrap (wrap (tT * 60) * 1000) ∨ tT < 1)

def timings (text : TimeText) : Option (Option (Time × Time × Int)) :=
  match data "MorningBeginFixed", data "EveningBeginFixed", data "TransitionTime" with
  | some mo, some ev, some tT =>
    some (mo.string.bind fun mo => ev.string.bind fun ev => tT.int.bind fun tT =>
      (text.isoDate mo).bind fun mo => (text.isoDate ev).bind fun ev =>
        if checkTimings mo ev tT then some (mo, ev, tT) else none)
  | _, _, _ => none

end ConfigMap

/-- A configuration without refused entries. -/
structure Configuration where
  active : Bool
  mode : NightColorMode
  nightTemperature : Int
  location : Location
  timings : Time × Time × Int

namespace Manager
variable (text : TimeText) (m : Manager)

def configuration : Configuration := ⟨m.active, m.mode, m.nightTargetTemp, m.fixed, m.morning, m.evening, m.trTime⟩

/-- The present configuration with the changes of the map. -/
def requested (data : ConfigMap) : Option Configuration :=
  (data.active.getD (some m.active)).bind fun active =>
  (data.mode.getD (some m.mode)).bind fun mode =>
  (data.nightTemperature.getD (some m.nightTargetTemp)).bind fun nightT =>
  (data.location.getD (some m.fixed)).bind fun location =>
  ((data.timings text).getD (some (m.morning, m.evening, m.trTime))).map fun timings =>
    ⟨active, mode, nightT, location, timings⟩

/-! Only what is new is set and saved. -/

def changeActive (active : Bool) : Manager :=
  if m.active ≠ active then { m with active, settings := { m.settings with active } } else m

def changeMode (mode : NightColorMode) : Manager :=
  if m.mode ≠ mode then { m with mode, settings := { m.settings with mode := some mode } } else m

def changeTemperature (nightT : Int) : Manager :=
  if m.nightTargetTemp ≠ nightT then
    { m with nightTargetTemp := nightT, settings := { m.settings with nightTemperature := nightT } }
  else m

def changeLocation (location : Location) : Manager :=
  if m.fixed ≠ location then
    { m with
      fixed := location
      settings := { m.settings with latitudeFixed := location.lat, longitudeFixed := location.lng } }
  else m

def changeTimings (timings : Time × Time × Int) : Manager :=
  if (m.morning, m.evening, m.trTime) ≠ timings then
    { m with
      morning := timings.1
      evening := timings.2.1
      trTime := timings.2.2
      settings := { m.settings with
        morningBeginFixed := text.toHhmm timings.1
        eveningBeginFixed := text.toHhmm timings.2.1
        transitionTime := timings.2.2 } }
  else m

def applyConfiguration (c : Configuration) : Manager :=
  ((((m.changeActive c.active).changeMode c.mode).changeTemperature c.nightTemperature).changeLocation
    c.location).changeTimings text c.timings

/-- The timers follow changes that matter in the new mode. -/
def resetNeeded (c : Configuration) : Bool :=
  m.active ≠ c.active || m.mode ≠ c.mode || m.nightTargetTemp ≠ c.nightTemperature ||
    (m.fixed ≠ c.location && c.mode = .location) ||
    ((m.morning, m.evening, m.trTime) ≠ c.timings && c.mode = .timings)

def changeConfiguration (sun : SunTimings) (now : Int) (isOff : Bool) (data : ConfigMap) : Bool × Manager :=
  match m.requested text data with
  | none => (false, m)
  | some c =>
    if m.resetNeeded c then (true, (m.cancelAllTimers.applyConfiguration text c).resetAllTimers sun now isOff)
    else (true, m.applyConfiguration text c)

/-- `reparseConfigAndReset` of changed settings. -/
def reparseConfigAndReset (sun : SunTimings) (now : Int) (isOff : Bool) (settings : Settings) : Manager :=
  (readConfig text { m.cancelAllTimers with settings }).hardReset sun now isOff

end Manager

/-- What happens, with the time and whether the temperature is far from its target then. -/
inductive Event
  | updateTransitionTimings (force : Bool)
  | autoLocationUpdate (latitude longitude : Double)
  | changeConfiguration (data : ConfigMap)
  | reparseConfigAndReset (settings : Settings)
  | inhibit
  | uninhibit
  | hardReset
  | cancelAllTimers
  | resetSlowUpdateStartTimer
  | finishQuickAdjust

def Manager.step (sun : SunTimings) (text : TimeText) (m : Manager) (now : Int) (isOff : Bool) : Event → Manager
  | .updateTransitionTimings force => m.updateTransitionTimings sun now force
  | .autoLocationUpdate latitude longitude => m.autoLocationUpdate sun now isOff latitude longitude
  | .changeConfiguration data => (m.changeConfiguration text sun now isOff data).2
  | .reparseConfigAndReset settings => m.reparseConfigAndReset text sun now isOff settings
  | .inhibit => m.inhibit sun now isOff
  | .uninhibit => m.uninhibit sun now isOff
  | .hardReset => m.hardReset sun now isOff
  | .cancelAllTimers => m.cancelAllTimers
  | .resetSlowUpdateStartTimer => m.resetSlowUpdateStartTimer sun now
  | .finishQuickAdjust => m.finishQuickAdjust sun now

end KWinFT.NightColor
