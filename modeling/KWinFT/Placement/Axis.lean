import KWinFT.Placement.WorkspacePosition

/-! The check of a position in one direction, on one screen. Both directions go through the same steps in the same order, so
that the upper side of each is the one that decides in the end. -/
namespace KWinFT.Placement
open PositionCheck (touched)

/-- One direction of a window: its sides before the change and now, and the first and last pixel that they may have. -/
structure Axis where
  oldLo : Int
  oldHi : Int
  oldClientLo : Int
  oldClientHi : Int
  oldFirst : Int
  oldLast : Int
  lo : Int
  hi : Int
  first : Int
  last : Int
  borderLo : Int
  borderHi : Int
  /-- Put between the lower side and its bound. -/
  padding : Int
  areaLo : Int
  areaHi : Int
  /-- How far inside the screen a window comes to be that was before or behind it. -/
  partBefore : Int
  partBehind : Int
deriving Repr, DecidableEq

namespace Axis
variable (a : Axis)

def saveLo : Bool := a.oldLo ≥ a.oldFirst && a.lo < a.first

def saveHi : Bool := a.oldHi ≤ a.oldLast && a.hi > a.last

def touchLo : Bool × Int := touched a.oldLo a.oldClientLo a.oldFirst a.lo (a.lo + a.borderLo) a.first a.padding

def touchHi : Bool × Int := touched a.oldHi a.oldClientHi a.oldLast a.hi (a.hi - a.borderHi) a.last a.borderHi

def keepLo : Bool × Int := if a.touchLo.1 && a.touchHi.1 then (false, 0) else a.touchLo

def keepHi : Bool × Int := if a.touchLo.1 && a.touchHi.1 then (false, 0) else a.touchHi

def toLo (s : Int × Int) : Int × Int :=
  if a.saveLo || a.keepLo.1 then (a.first - a.keepLo.2, s.2 + (a.first - a.keepLo.2 - s.1)) else s

def toHi (s : Int × Int) : Int × Int :=
  if a.saveHi || a.keepHi.1 then (s.1 + (a.last + a.keepHi.2 - s.2), a.last + a.keepHi.2) else s

def narrowLo (s : Int × Int) : Int × Int :=
  if a.oldLo ≥ a.oldFirst ∧ s.1 < a.first then (a.first, s.2)
  else if a.oldClientLo ≥ a.oldFirst ∧ s.1 + a.borderLo < a.first then (a.first - a.borderLo, s.2)
  else s

def corrected : Int × Int := a.narrowLo (a.toHi (a.toLo (a.lo, a.hi)))

def ontoScreen (s : Int × Int) : Int × Int :=
  if s.1 > a.areaHi then (a.areaHi - a.partBehind, s.2 + (a.areaHi - a.partBehind - s.1))
  else if s.2 < a.areaLo then (s.1 + (a.areaLo + a.partBefore - s.2), a.areaLo + a.partBefore)
  else s

def checked : Int × Int := a.ontoScreen a.corrected

/-- The window has a client and room between its bounds, which are on the screen. -/
structure Roomy : Prop where
  borderLo : 0 ≤ a.borderLo
  borderHi : 0 ≤ a.borderHi
  client : a.borderLo + a.borderHi ≤ a.hi - a.lo
  fits : a.hi - a.lo ≤ a.last - a.first
  first : a.areaLo ≤ a.first
  last : a.last ≤ a.areaHi
  padding : 0 ≤ a.padding
  partBefore : 0 ≤ a.partBefore

def UntouchedLo : Prop := a.oldLo ≠ a.oldFirst ∧ a.oldClientLo ≠ a.oldFirst

def UntouchedHi : Prop := a.oldHi ≠ a.oldLast ∧ a.oldClientHi ≠ a.oldLast

/-- When the contact of the lower side with the padding for the client is kept. -/
def KeepsClientLo : Prop :=
  if a.saveHi then a.borderLo = 0 ∧ a.hi - a.lo = a.last - a.first
  else a.lo + a.borderLo = a.first ∨ a.borderLo ≤ a.padding ∧ a.areaLo ≤ a.first - a.padding + (a.hi - a.lo)

instance : Decidable a.KeepsClientLo := by
  unfold KeepsClientLo
  infer_instance

private theorem touched_of_untouched {oldSide oldClientSide oldBound side clientSide bound padding : Int}
    (hside : oldSide ≠ oldBound) (hclient : oldClientSide ≠ oldBound) :
    touched oldSide oldClientSide oldBound side clientSide bound padding = (false, 0) := by
  unfold touched
  rw [if_neg hside, if_neg (fun h => hclient h.1)]

private theorem touched_of_frame {oldSide oldClientSide oldBound side clientSide bound padding : Int}
    (hside : oldSide = oldBound) :
    touched oldSide oldClientSide oldBound side clientSide bound padding = (decide (side ≠ bound), 0) := by
  unfold touched
  rw [if_pos hside]

private theorem touched_of_client {oldSide oldClientSide oldBound side clientSide bound padding : Int}
    (hside : oldSide ≠ oldBound) (hclient : oldClientSide = oldBound) :
    touched oldSide oldClientSide oldBound side clientSide bound padding =
      if clientSide ≠ bound then (true, padding) else (false, 0) := by
  unfold touched
  rw [if_neg hside]
  simp only [hclient, true_and]

variable {a}

theorem keep_of_untouchedHi (h : a.UntouchedHi) : a.keepLo = a.touchLo ∧ a.keepHi = (false, 0) := by
  have htouch : a.touchHi = (false, 0) := touched_of_untouched h.1 h.2
  unfold keepLo keepHi
  rw [htouch, Bool.and_false]
  exact ⟨if_neg Bool.false_ne_true, if_neg Bool.false_ne_true⟩

theorem keep_of_untouchedLo (h : a.UntouchedLo) : a.keepLo = (false, 0) ∧ a.keepHi = a.touchHi := by
  have htouch : a.touchLo = (false, 0) := touched_of_untouched h.1 h.2
  unfold keepLo keepHi
  rw [htouch, Bool.false_and]
  exact ⟨if_neg Bool.false_ne_true, if_neg Bool.false_ne_true⟩

/-- A window that is partly on the screen is not moved by the last step. -/
theorem ontoScreen_of_on {s : Int × Int} (hlo : s.1 ≤ a.areaHi) (hhi : a.areaLo ≤ s.2) : a.ontoScreen s = s := by
  unfold ontoScreen
  rw [if_neg (by omega), if_neg (by omega)]

/-- A frame at the lower bound stays there, unless the upper side is to be saved as well. -/
theorem frameLo_iff (ha : a.Roomy) (hframe : a.oldLo = a.oldFirst) (hhi : a.UntouchedHi) :
    a.checked.1 = a.first ↔ (a.saveHi → a.hi - a.lo = a.last - a.first) := by
  obtain ⟨hborderLo, hborderHi, hclient, hfits, hfirst, hlast, -, -⟩ := ha
  have hkeep : a.keepLo = (decide (a.lo ≠ a.first), 0) := (keep_of_untouchedHi hhi).1.trans (touched_of_frame hframe)
  have hlo : a.toLo (a.lo, a.hi) = (a.first, a.hi + (a.first - a.lo)) := by
    unfold toLo
    rw [hkeep]
    dsimp only
    split
    · rw [Int.sub_zero]
    · rename_i hstays
      simp only [Bool.or_eq_true, decide_eq_true_eq, not_or, not_not] at hstays
      rw [hstays.2, Int.sub_self, Int.add_zero]
  have hcorrected : a.corrected =
      if a.saveHi then (a.last - (a.hi - a.lo), a.last) else (a.first, a.hi + (a.first - a.lo)) := by
    unfold corrected narrowLo toHi
    rw [hlo, (keep_of_untouchedHi hhi).2]
    dsimp only
    rw [Bool.or_false]
    split
    · dsimp only
      rw [if_neg (by omega), if_neg (by omega)]
      ext <;> dsimp only <;> omega
    · dsimp only
      rw [if_neg (by omega), if_neg (by omega)]
  unfold checked
  rw [hcorrected]
  split
  · rename_i hsave
    rw [ontoScreen_of_on (by dsimp only; omega) (by dsimp only; omega), forall_prop_of_true hsave]
    dsimp only
    omega
  · rename_i hsave
    rw [ontoScreen_of_on (by dsimp only; omega) (by dsimp only; omega)]
    exact iff_of_true rfl fun h => absurd h hsave

/-- A client at the lower bound stays there, if the upper side is not saved and the padding is not less than the border. -/
theorem clientLo_iff (ha : a.Roomy) (hframe : a.oldLo < a.oldFirst) (hcontact : a.oldClientLo = a.oldFirst)
    (hhi : a.UntouchedHi) : a.checked.1 + a.borderLo = a.first ↔ a.KeepsClientLo := by
  obtain ⟨hborderLo, hborderHi, hclient, hfits, hfirst, hlast, hpadding, hpart⟩ := ha
  have hkeep : a.keepLo = if a.lo + a.borderLo ≠ a.first then (true, a.padding) else (false, 0) :=
    (keep_of_untouchedHi hhi).1.trans (touched_of_client (by omega) hcontact)
  have hsaveLo : a.saveLo = false := by
    unfold saveLo
    rw [decide_eq_false (by omega), Bool.false_and]
  have hlo : a.toLo (a.lo, a.hi) =
      if a.lo + a.borderLo ≠ a.first then (a.first - a.padding, a.hi + (a.first - a.padding - a.lo)) else (a.lo, a.hi) := by
    unfold toLo
    rw [hkeep, hsaveLo, Bool.false_or]
    by_cases hmoved : a.lo + a.borderLo ≠ a.first
    · rw [if_pos hmoved, if_pos hmoved, if_pos rfl]
    · rw [if_neg hmoved, if_neg hmoved, if_neg Bool.false_ne_true]
  have hhi' (s : Int × Int) : a.toHi s = if a.saveHi then (s.1 + (a.last - s.2), a.last) else s := by
    unfold toHi
    rw [(keep_of_untouchedHi hhi).2]
    dsimp only
    rw [Bool.or_false, Int.add_zero]
  have hnarrow (s : Int × Int) :
      a.narrowLo s = if s.1 + a.borderLo < a.first then (a.first - a.borderLo, s.2) else s := by
    unfold narrowLo
    rw [if_neg (by omega)]
    simp only [hcontact, ge_iff_le, Int.le_refl, true_and]
  unfold checked corrected KeepsClientLo
  rw [hnarrow, hhi', hlo]
  by_cases hsave : a.saveHi
  · rw [if_pos hsave, if_pos hsave]
    have hplace (s : Int × Int) (hs : s.2 - s.1 = a.hi - a.lo) :
        (a.ontoScreen (if s.1 + (a.last - s.2) + a.borderLo < a.first then (a.first - a.borderLo, a.last)
          else (s.1 + (a.last - s.2), a.last))).1 = a.last - (a.hi - a.lo) := by
      rw [if_neg (by omega), ontoScreen_of_on (by dsimp only; omega) (by dsimp only; omega)]
      dsimp only
      omega
    rw [hplace _ (by split <;> dsimp only; omega)]
    omega
  · rw [if_neg hsave, if_neg hsave]
    by_cases hmoved : a.lo + a.borderLo ≠ a.first
    · rw [if_pos hmoved, or_iff_right hmoved]
      dsimp only
      by_cases hnarrowed : a.borderLo < a.padding
      · rw [if_pos (by omega)]
        by_cases hon : a.areaLo ≤ a.first - a.padding + (a.hi - a.lo)
        · rw [ontoScreen_of_on (by dsimp only; omega) (by dsimp only; omega)]
          dsimp only
          omega
        · -- Before the screen, from where it comes to be behind its bound.
          unfold ontoScreen
          dsimp only
          rw [if_neg (by omega), if_pos (by omega)]
          dsimp only
          omega
      · rw [if_neg (by omega), ontoScreen_of_on (by dsimp only; omega) (by dsimp only; omega)]
        dsimp only
        omega
    · rw [if_neg hmoved]
      dsimp only
      rw [if_neg (by omega), ontoScreen_of_on (by dsimp only; omega) (by dsimp only; omega)]
      dsimp only
      omega

theorem narrowLo_of_inside {s : Int × Int} (hborder : 0 ≤ a.borderLo) (hinside : a.first ≤ s.1) : a.narrowLo s = s := by
  unfold narrowLo
  rw [if_neg (by omega), if_neg (by omega)]

theorem toLo_length (s : Int × Int) : (a.toLo s).2 - (a.toLo s).1 = s.2 - s.1 := by
  unfold toLo
  split
  · dsimp only
    omega
  · rfl

/-- With the upper side at its bound, or beyond it by a border, the window is where it fits. -/
private theorem corrected_of_hi (ha : a.Roomy) {beyond : Int} (hbeyond : 0 ≤ beyond) (hlo : a.UntouchedLo)
    (hmoved : (a.saveHi || a.keepHi.1) = true → a.keepHi.2 = beyond)
    (hstays : (a.saveHi || a.keepHi.1) = false → a.hi = a.last + beyond) :
    a.corrected = (a.last + beyond - (a.hi - a.lo), a.last + beyond) := by
  obtain ⟨hborderLo, -, -, hfits, -, -, -, -⟩ := ha
  have hhi : a.toHi (a.toLo (a.lo, a.hi)) = (a.last + beyond - (a.hi - a.lo), a.last + beyond) := by
    unfold toHi
    by_cases hmoves : (a.saveHi || a.keepHi.1) = true
    · have hlength := toLo_length (a := a) (a.lo, a.hi)
      rw [if_pos hmoves, hmoved hmoves]
      dsimp only at hlength ⊢
      rw [← hlength]
      ext <;> dsimp only
      omega
    · have hplace : a.hi = a.last + beyond := hstays (Bool.not_eq_true _ ▸ hmoves)
      have hinside : a.saveLo = false := by
        unfold saveLo
        rw [decide_eq_false (p := a.lo < a.first) (by omega), Bool.and_false]
      have hlow : a.toLo (a.lo, a.hi) = (a.lo, a.hi) := by
        unfold toLo
        rw [hinside, (keep_of_untouchedLo hlo).1]
        rfl
      rw [if_neg hmoves, hlow, ← hplace]
      ext <;> dsimp only
      omega
  unfold corrected
  rw [hhi]
  exact narrowLo_of_inside hborderLo (by dsimp only; omega)

/-- A frame at the upper bound stays there. -/
theorem frameHi_kept (ha : a.Roomy) (hframe : a.oldHi = a.oldLast) (hlo : a.UntouchedLo) : a.checked.2 = a.last := by
  have hkeep : a.keepHi = (decide (a.hi ≠ a.last), 0) := (keep_of_untouchedLo hlo).2.trans (touched_of_frame hframe)
  have hcorrected := corrected_of_hi ha (Int.le_refl 0) hlo (fun _ => by rw [hkeep]) fun hstays => by
    rw [hkeep, Bool.or_eq_false_iff, decide_eq_false_iff_not, not_not] at hstays
    omega
  obtain ⟨hborderLo, hborderHi, hclient, hfits, hfirst, hlast, -, -⟩ := ha
  unfold checked
  rw [hcorrected, ontoScreen_of_on (by dsimp only; omega) (by dsimp only; omega)]
  exact Int.add_zero _

/-- A client at the upper bound stays there. -/
theorem clientHi_kept (ha : a.Roomy) (hframe : a.oldLast < a.oldHi) (hcontact : a.oldClientHi = a.oldLast)
    (hlo : a.UntouchedLo) : a.checked.2 - a.borderHi = a.last := by
  have hkeep : a.keepHi = if a.hi - a.borderHi ≠ a.last then (true, a.borderHi) else (false, 0) :=
    (keep_of_untouchedLo hlo).2.trans (touched_of_client (by omega) hcontact)
  have hsaveHi : a.saveHi = false := by
    unfold saveHi
    rw [decide_eq_false (by omega), Bool.false_and]
  have hcorrected := corrected_of_hi ha ha.borderHi hlo
    (fun hmoved => by
      rw [hsaveHi, hkeep, Bool.false_or] at hmoved
      rw [hkeep]
      split at hmoved
      · rw [if_pos ‹_›]
      · exact absurd hmoved Bool.false_ne_true)
    (fun hstays => by
      rw [hsaveHi, hkeep, Bool.false_or] at hstays
      split at hstays
      · exact absurd hstays.symm Bool.false_ne_true
      · omega)
  obtain ⟨hborderLo, hborderHi, hclient, hfits, hfirst, hlast, -, -⟩ := ha
  unfold checked
  rw [hcorrected, ontoScreen_of_on (by dsimp only; omega) (by dsimp only; omega)]
  exact Int.add_sub_cancel _ _

end Axis
end KWinFT.Placement
