import Mathlib.Tactic.Common

/-! Times of a day and the texts in which they are configured. -/
namespace KWinFT.NightColor

def mscDay : Int := 86400000

/-- A valid `QTime`. -/
structure Time where
  msecs : Int
  inDay : 0 ≤ msecs ∧ msecs < mscDay
deriving DecidableEq

namespace Time

def msecsTo (t u : Time) : Int := u.msecs - t.msecs

private theorem minutes_inDay (t : Time) : 0 ≤ t.msecs / 60000 * 60000 ∧ t.msecs / 60000 * 60000 < mscDay := by
  have := t.inDay
  omega

/-- Without seconds. -/
def minutes (t : Time) : Time := ⟨t.msecs / 60000 * 60000, minutes_inDay t⟩

private theorem six_inDay : (0 : Int) ≤ 21600000 ∧ 21600000 < mscDay := by decide

private theorem eighteen_inDay : (0 : Int) ≤ 64800000 ∧ 64800000 < mscDay := by decide

def six : Time := ⟨21600000, six_inDay⟩
def eighteen : Time := ⟨64800000, eighteen_inDay⟩

end Time

/-- The formats in which times are read and written: `Qt::ISODate` and `hhmm`, which has whole minutes. -/
structure TimeText where
  isoDate : String → Option Time
  hhmm : String → Option Time
  toHhmm : Time → String
  hhmm_minutes : ∀ {s t}, hhmm s = some t → t.minutes = t
  hhmm_toHhmm : ∀ t, hhmm (toHhmm t) = some t.minutes

namespace TimeText

private def twoDigits (a b : Char) : Option Int :=
  if a.isDigit ∧ b.isDigit then some (10 * ((a.toNat : Int) - 48) + (b.toNat - 48)) else none

private def digits (n : Nat) : List Char := [Nat.digitChar (n / 10), Nat.digitChar (n % 10)]

private theorem digitChar_isDigit : ∀ n < 10, (Nat.digitChar n).isDigit ∧ (Nat.digitChar n).toNat = n + 48 := by decide

private theorem twoDigits_digits {n : Nat} (h : n < 100) :
    twoDigits (Nat.digitChar (n / 10)) (Nat.digitChar (n % 10)) = some (n : Int) := by
  obtain ⟨h₁, e₁⟩ := digitChar_isDigit (n / 10) (by omega)
  obtain ⟨h₂, e₂⟩ := digitChar_isDigit (n % 10) (by omega)
  rw [twoDigits, if_pos ⟨h₁, h₂⟩, e₁, e₂]
  congr 1
  omega

private theorem parts_inDay {h m s : Int} (hp : 0 ≤ h ∧ h < 24 ∧ 0 ≤ m ∧ m < 60 ∧ 0 ≤ s ∧ s < 60) :
    0 ≤ h * 3600000 + m * 60000 + s * 1000 ∧ h * 3600000 + m * 60000 + s * 1000 < mscDay := by
  simp only [mscDay]
  omega

/-- The time of an hour, a minute and a second. -/
private def ofParts (h m s : Int) : Option Time :=
  if hp : 0 ≤ h ∧ h < 24 ∧ 0 ≤ m ∧ m < 60 ∧ 0 ≤ s ∧ s < 60 then
    some ⟨h * 3600000 + m * 60000 + s * 1000, parts_inDay hp⟩ else none

private def readHhmm (s : String) : Option Time :=
  match s.toList with
  | [a, b, c, d] => (twoDigits a b).bind fun h => (twoDigits c d).bind fun m => ofParts h m 0
  | _ => none

private def readIsoDate (s : String) : Option Time :=
  match s.toList with
  | [a, b, ':', c, d, ':', e, f] => (twoDigits a b).bind fun h => (twoDigits c d).bind fun m =>
    (twoDigits e f).bind fun s => ofParts h m s
  | _ => none

private def writeHhmm (t : Time) : String :=
  String.ofList (digits (t.msecs / 3600000).toNat ++ digits (t.msecs / 60000 % 60).toNat)

private theorem readHhmm_minutes {s : String} {t : Time} (h : readHhmm s = some t) : t.minutes = t := by
  unfold readHhmm at h
  split at h
  · obtain ⟨hour, -, h⟩ := Option.bind_eq_some_iff.mp h
    obtain ⟨minute, -, h⟩ := Option.bind_eq_some_iff.mp h
    unfold ofParts at h
    split at h
    · cases h
      simp only [Time.minutes, Time.mk.injEq]
      omega
    · cases h
  · cases h

private theorem readHhmm_writeHhmm (t : Time) : readHhmm (writeHhmm t) = some t.minutes := by
  have hday := t.inDay
  simp only [mscDay] at hday
  have hh := twoDigits_digits (n := (t.msecs / 3600000).toNat) (by omega)
  have hm := twoDigits_digits (n := (t.msecs / 60000 % 60).toNat) (by omega)
  simp only [readHhmm, writeHhmm, String.toList_ofList, digits, List.cons_append, List.nil_append, hh, hm,
    Option.bind_some, ofParts]
  rw [dif_pos (by omega)]
  simp only [Time.minutes, Option.some.injEq, Time.mk.injEq]
  omega

/-- Hours, minutes and seconds with two digits each. -/
def twoDigitParts : TimeText := ⟨readIsoDate, readHhmm, writeHhmm, readHhmm_minutes, readHhmm_writeHhmm⟩

end TimeText

end KWinFT.NightColor
