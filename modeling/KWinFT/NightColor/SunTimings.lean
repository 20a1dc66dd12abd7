import KWinFT.NightColor.Manager
import Mathlib.Algebra.Order.Floor.Ring
import Mathlib.Data.Rat.Floor
import Mathlib.Tactic.Linarith
import Mathlib.Tactic.Ring

/-! Begin and end of dawn or dusk, from instants in Julian days to points in time of the local clock. Each one is put on
the date that was asked for, on whichever side of midnight it is. -/
namespace KWinFT.NightColor

/-- A conversion to `int`. -/
def truncated (x : ℚ) : Int := if 0 ≤ x then ⌊x⌋ else ⌈x⌉

/-- A `QTime`, which may be null. -/
def fromMSecsSinceStartOfDay (msecs : Int) : Option Time :=
  if h : 0 ≤ msecs ∧ msecs < mscDay then some ⟨msecs, h⟩ else none

private theorem emod_inDay (msecs : Int) : 0 ≤ msecs % mscDay ∧ msecs % mscDay < mscDay :=
  ⟨Int.emod_nonneg _ (by decide), Int.emod_lt_of_pos _ (by decide)⟩

/-- Goes around at midnight. -/
def Time.addSecs (t : Time) (s : Int) : Time := ⟨(t.msecs + s * 1000) % mscDay, emod_inDay _⟩

/-- The offset of the zone at the time that is asked about, in seconds. -/
def convertToLocalTime (utcOffset : Int) (utcTime : Option Time) : Option Time :=
  utcTime.map fun t => t.addSecs utcOffset

/-- `QDateTime(date, time)`, which takes midnight for a null time. -/
def ofDateAndTime (date : Int) (time : Option Time) : Int := dateTime date (time.getD ⟨0, by decide⟩)

def sunDateTime (utcOffset when : Int) (instant : ℚ) : Int :=
  let instant := instant + 1 / 2
  let dayFraction := instant - truncated instant
  ofDateAndTime (date when) (convertToLocalTime utcOffset (fromMSecsSinceStartOfDay (truncated (dayFraction * mscDay))))

/-- The instants are those of the position of the sun, where it gets there on that day. -/
def calculateSunTimings (utcOffset : Int → Int) (instants : Int → Location → Bool → Double × Double) : SunTimings :=
  fun when location morning =>
    let (beginning, ending) := instants when location morning
    (beginning.map (sunDateTime (utcOffset when) when), ending.map (sunDateTime (utcOffset when) when))

/-- The local time of an instant in milliseconds, counted on over midnight. -/
def localMsecs (utcOffset : Int) (instant : ℚ) : Int := ⌊(instant + 1 / 2) * mscDay⌋ + utcOffset * 1000

/-- In order, and as far apart as the instants up to what is lost with milliseconds. -/
def AsApart (timings : Int × Int) (beginning ending : ℚ) : Prop :=
  timings.1 ≤ timings.2 ∧ |((timings.2 - timings.1 : Int) : ℚ) - (ending - beginning) * mscDay| < 1

section instants
variable {utcOffset when : Int} {x beginning ending : ℚ}

private theorem truncated_of_nonneg (hx : 0 ≤ x) : truncated x = ⌊x⌋ := if_pos hx

private theorem floor_dayFraction : ⌊(x - ⌊x⌋) * mscDay⌋ = ⌊x * mscDay⌋ - ⌊x⌋ * mscDay := by
  rw [sub_mul, ← Int.cast_mul, Int.floor_sub_intCast]

private theorem mscDay_pos : (0 : ℚ) < mscDay := by
  rw [mscDay]
  norm_num

/-- What is shown of a local time is its place in the day. -/
private theorem sunDateTime_eq (hx : 0 ≤ x + 1 / 2) :
    sunDateTime utcOffset when x = date when * mscDay + localMsecs utcOffset x % mscDay := by
  set y := x + 1 / 2 with hy
  have hfract : 0 ≤ (y - ⌊y⌋) * mscDay := mul_nonneg (Int.fract_nonneg y) mscDay_pos.le
  have hlt : (y - ⌊y⌋) * mscDay < mscDay := by
    have := mul_lt_mul_of_pos_right (Int.fract_lt_one y) mscDay_pos
    rwa [one_mul] at this
  have hinDay : 0 ≤ ⌊(y - ⌊y⌋) * mscDay⌋ ∧ ⌊(y - ⌊y⌋) * mscDay⌋ < mscDay :=
    ⟨Int.floor_nonneg.mpr hfract, Int.floor_lt.mpr hlt⟩
  have htime : fromMSecsSinceStartOfDay (truncated ((y - truncated y) * mscDay)) =
      some ⟨⌊(y - ⌊y⌋) * mscDay⌋, hinDay⟩ := by
    rw [truncated_of_nonneg hx, truncated_of_nonneg hfract]
    exact dif_pos hinDay
  have hshown : (⌊(y - ⌊y⌋) * mscDay⌋ + utcOffset * 1000) % mscDay = localMsecs utcOffset x % mscDay := by
    rw [floor_dayFraction, localMsecs, sub_add_eq_add_sub, Int.sub_mul_emod_self_right]
  unfold sunDateTime
  dsimp only
  rw [← hy, htime, ← hshown]
  rfl

private theorem getSunTimings_eq {utcOffset : Int → Int} {instants : Int → Location → Bool → Double × Double}
    {location : Location} {morning : Bool} (h : instants when location morning = (some beginning, some ending))
    (hbeginning : 0 ≤ beginning + 1 / 2) (hending : 0 ≤ ending + 1 / 2) :
    getSunTimings (calculateSunTimings utcOffset instants) when location morning =
      (date when * mscDay + localMsecs (utcOffset when) beginning % mscDay,
        date when * mscDay + localMsecs (utcOffset when) ending % mscDay) := by
  unfold getSunTimings calculateSunTimings
  rw [h]
  exact Prod.ext (sunDateTime_eq hbeginning) (sunDateTime_eq hending)

private theorem localMsecs_le (h : beginning ≤ ending) : localMsecs utcOffset beginning ≤ localMsecs utcOffset ending := by
  have : (beginning + 1 / 2) * mscDay ≤ (ending + 1 / 2) * mscDay :=
    mul_le_mul_of_nonneg_right (by linarith) mscDay_pos.le
  exact Int.add_le_add_right (Int.floor_le_floor this) _

private theorem localMsecs_apart :
    |((localMsecs utcOffset ending - localMsecs utcOffset beginning : Int) : ℚ) - (ending - beginning) * mscDay| < 1 := by
  have h₁ := Int.floor_le ((beginning + 1 / 2) * mscDay)
  have h₂ := Int.lt_floor_add_one ((beginning + 1 / 2) * mscDay)
  have h₃ := Int.floor_le ((ending + 1 / 2) * mscDay)
  have h₄ := Int.lt_floor_add_one ((ending + 1 / 2) * mscDay)
  have heq : ((localMsecs utcOffset ending - localMsecs utcOffset beginning : Int) : ℚ) =
      ⌊(ending + 1 / 2) * mscDay⌋ - ⌊(beginning + 1 / 2) * mscDay⌋ := by
    unfold localMsecs
    push_cast
    ring
  rw [heq, abs_lt]
  constructor <;> linarith

private theorem asApart_iff_shown {day first second : Int} :
    AsApart (day * mscDay + first, day * mscDay + second) beginning ending ↔ AsApart (first, second) beginning ending := by
  unfold AsApart
  simp only [add_le_add_iff_left, add_sub_add_left_eq_sub]

/-- With midnight in between, the second one is shown first. -/
private theorem shown_asApart_iff {first second : Int} (hle : first ≤ second)
    (hapart : |((second - first : Int) : ℚ) - (ending - beginning) * mscDay| < 1) (hclose : ending - beginning < 1 / 2) :
    AsApart (first % mscDay, second % mscDay) beginning ending ↔ date first = date second := by
  have hwithin : second - first < mscDay := by
    have hhalf : (ending - beginning) * mscDay < 1 / 2 * mscDay := mul_lt_mul_of_pos_right hclose mscDay_pos
    have hlt : ((second - first : Int) : ℚ) < mscDay := by
      have hone : (2 : ℚ) < mscDay := by
        rw [mscDay]
        norm_num
      linarith [(abs_lt.mp hapart).2]
    exact_mod_cast hlt
  have hfirst := Int.mul_ediv_add_emod first mscDay
  have hsecond := Int.mul_ediv_add_emod second mscDay
  constructor
  · rintro ⟨hshown, -⟩
    change first / mscDay = second / mscDay
    unfold mscDay at *
    omega
  · intro hday
    change first / mscDay = second / mscDay at hday
    have hshown : second % mscDay - first % mscDay = second - first := by
      rw [hday] at hfirst
      omega
    refine ⟨?_, ?_⟩
    · change first % mscDay ≤ second % mscDay
      omega
    · change |((second % mscDay - first % mscDay : Int) : ℚ) - _| < 1
      rwa [hshown]

end instants

/-- The timings are in order and as far apart as the instants exactly when no local midnight lies between these. -/
theorem getSunTimings_asApart_iff (utcOffset : Int → Int) (instants : Int → Location → Bool → Double × Double)
    (when : Int) (location : Location) (morning : Bool) (beginning ending : ℚ)
    (hinstants : instants when location morning = (some beginning, some ending)) (horder : beginning ≤ ending)
    (hclose : ending - beginning < 1 / 2) (hjulian : 0 ≤ beginning + 1 / 2) :
    AsApart (getSunTimings (calculateSunTimings utcOffset instants) when location morning) beginning ending ↔
      date (localMsecs (utcOffset when) beginning) = date (localMsecs (utcOffset when) ending) := by
  rw [getSunTimings_eq hinstants hjulian (by linarith), asApart_iff_shown]
  exact shown_asApart_iff (localMsecs_le horder) localMsecs_apart hclose

/-- Civil dawn and the sun two degrees high, half an hour apart and within the same day. -/
theorem dawn_asApart :
    AsApart (getSunTimings (calculateSunTimings (fun _ => 3600) fun _ _ _ => (some 2458850, some (2458850 + 1 / 48)))
      0 ⟨50, 10⟩ true) 2458850 (2458850 + 1 / 48) :=
  (getSunTimings_asApart_iff (fun _ => 3600) (fun _ _ _ => (some 2458850, some (2458850 + 1 / 48))) 0 ⟨50, 10⟩ true 2458850
    (2458850 + 1 / 48) rfl (by norm_num) (by norm_num) (by norm_num)).mpr (by norm_num [localMsecs, mscDay, date])

/-- Where dusk begins an hour before midnight and ends in the first minutes of the next day, it ends first. -/
theorem dusk_over_midnight :
    ¬AsApart (getSunTimings (calculateSunTimings (fun _ => 7200)
        fun _ _ _ => (some (2458850 + 3 / 8), some (2458850 + 121 / 288))) 0 ⟨65, 10⟩ false)
      (2458850 + 3 / 8) (2458850 + 121 / 288) := by
  rw [getSunTimings_eq rfl (by norm_num) (by norm_num)]
  rintro ⟨hle, -⟩
  norm_num [localMsecs, mscDay] at hle

end KWinFT.NightColor
