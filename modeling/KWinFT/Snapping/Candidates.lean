import Mathlib.Algebra.Order.Ring.Int
import KWinFT.Snapping.Move

/-! Which position a moved window snaps to in an axis, compared with all that it could snap to. -/
namespace KWinFT.Snapping
open KWinFT.Geometry Areas Placement

/-- An axis: the borders, the frame, the snap zones and the distances of the other windows' edges, of those that face
the frame and of those on the same side. -/
structure Axis where
  lo : Int
  hi : Int
  c : Int
  r : Int
  borderZone : Int
  zone : Int
  facing : List Int
  corners : List Int

theorem qAbs_nonneg (t : Int) : 0 ≤ qAbs t := by
  rw [qAbs_eq]
  omega

namespace Axis
variable (a : Axis)

/-- The distance of a border or facing edge in its zone. -/
def IsCandidate (d : Int) : Prop :=
  (d = qAbs (a.lo - a.c) ∧ d < a.borderZone) ∨ (d = qAbs (a.r - a.hi) ∧ d < a.borderZone) ∨ (d ∈ a.facing ∧ d < a.zone)

/-- The coordinate is no further off than any candidate, and the old one where there is nothing to snap to. -/
def Nearest (n : Int) : Prop :=
  (∀ d, a.IsCandidate d → qAbs (n - a.c) ≤ d) ∧
    ((∀ d, ¬ a.IsCandidate d) → (∀ d ∈ a.corners, a.zone ≤ d) → n = a.c)

/-- The frame starts inside of the border, which is in the zone. -/
def InsideLow : Prop := 0 < a.c - a.lo ∧ a.c - a.lo < a.borderZone

/-- The frame ends inside of the border, which is in the zone and is preferred to the one at the start. -/
def InsideHigh : Prop :=
  0 < a.hi - a.r ∧ a.hi - a.r < a.borderZone ∧
    a.hi - a.r < if qAbs (a.lo - a.c) < a.borderZone then a.lo - a.c else a.hi

instance : Decidable a.InsideLow := inferInstanceAs (Decidable (_ ∧ _))

instance : Decidable a.InsideHigh := inferInstanceAs (Decidable (_ ∧ _ ∧ _))

/-- The best position after the borders, of a window without borders of its own. -/
def start : Best := (Best.mk a.hi a.c).border false a.borderZone a.lo a.hi a.c a.r 0 0

/-- Where a border is snapped to from the inside, it is the nearest candidate. -/
def Clear : Prop :=
  (a.InsideLow → ∀ d, a.IsCandidate d → a.c - a.lo ≤ d) ∧
    (¬ a.InsideLow → a.InsideHigh → ∀ d, a.IsCandidate d → a.hi - a.r ≤ d)

end Axis

namespace Best

/-- The position is the old one or not further off than the distance to beat, which is no more than what was seen. -/
def Good (c : Int) (seen : Int → Prop) (b : Best) : Prop :=
  (b.pos = c ∨ qAbs (b.pos - c) ≤ b.delta) ∧ ∀ d, seen d → b.delta ≤ d

/-- The position is the old one or in reach of it. -/
def Near (c reach : Int) (b : Best) : Prop := b.pos = c ∨ qAbs (b.pos - c) < reach

section offers
variable {b : Best} {seen : Int → Prop} {snap c r l lr d pos reach : Int}

theorem Good.offer (h : b.Good c seen) (hd : qAbs (pos - c) = d) :
    (b.offer true snap d pos).Good c fun e => seen e ∨ (e = d ∧ d < snap) := by
  obtain ⟨hpos, hseen⟩ := h
  unfold Best.offer
  split
  · rename_i hc
    refine ⟨.inr hd.le, fun e he => ?_⟩
    rcases he with he | ⟨rfl, -⟩
    · exact hc.2.2.le.trans (hseen e he)
    · exact Int.le_refl _
  · rename_i hc
    refine ⟨hpos, fun e he => ?_⟩
    rcases he with he | ⟨rfl, hsnap⟩
    · exact hseen e he
    · exact not_lt.mp fun hlt => hc ⟨rfl, hsnap, hlt⟩

theorem Good.mono {seen' : Int → Prop} (h : b.Good c seen) (hs : ∀ d, seen' d → seen d) : b.Good c seen' :=
  ⟨h.1, fun d hd => h.2 d (hs d hd)⟩

theorem Near.offer (h : b.Near c reach) (hd : qAbs (pos - c) = d) (hsnap : snap ≤ reach) :
    (b.offer true snap d pos).Near c reach := by
  unfold Best.offer
  split
  · rename_i hc
    exact .inr (by simp only; omega)
  · exact h

theorem offer_of_le (h : snap ≤ d) : b.offer true snap d pos = b := if_neg (by omega)

theorem offer_of_neg (h : b.delta < 0) (hd : 0 ≤ d) : b.offer true snap d pos = b := if_neg (by omega)

private theorem qAbs_shift (l r c : Int) : qAbs (l - (r - c) - c) = qAbs (r - l) := by
  rw [qAbs_eq, qAbs_eq]
  omega

private theorem qAbs_sub_comm (s t : Int) : qAbs (s - t) = qAbs (t - s) := by
  rw [qAbs_eq, qAbs_eq]
  omega

theorem Good.facing (h : b.Good c seen) : (b.facing false snap c r l lr).Good c fun e =>
    seen e ∨ (e ∈ [qAbs (lr - c), qAbs (r - l)] ∧ e < snap) := by
  have hlr : (b.offer true snap (qAbs (lr - c)) lr).Good c _ := h.offer rfl
  have hl : (b.facing false snap c r l lr).Good c _ := hlr.offer (qAbs_shift l r c)
  refine hl.mono fun e he => ?_
  rcases he with he | ⟨he, hsnap⟩
  · exact .inl (.inl he)
  · rcases List.mem_pair.mp he with rfl | rfl
    · exact .inl (.inr ⟨rfl, hsnap⟩)
    · exact .inr ⟨rfl, hsnap⟩

theorem Good.corner (h : b.Good c seen) : (b.corner false snap c r l lr).Good c seen := by
  have hlr : (b.offer true snap (qAbs (lr - r)) (lr - (r - c))).Good c _ :=
    h.offer ((qAbs_shift lr r c).trans (qAbs_sub_comm r lr))
  have hl : (b.corner false snap c r l lr).Good c _ := hlr.offer (qAbs_sub_comm l c)
  exact hl.mono fun _ he => .inl (.inl he)

theorem Near.facing (h : b.Near c reach) (hsnap : snap ≤ reach) : (b.facing false snap c r l lr).Near c reach :=
  (h.offer rfl hsnap).offer (qAbs_shift l r c) hsnap

theorem Near.corner (h : b.Near c reach) (hsnap : snap ≤ reach) : (b.corner false snap c r l lr).Near c reach :=
  (h.offer ((qAbs_shift lr r c).trans (qAbs_sub_comm r lr)) hsnap).offer (qAbs_sub_comm l c) hsnap

theorem facing_of_neg (h : b.delta < 0) : b.facing false snap c r l lr = b := by
  simp [Best.facing, offer_of_neg h (qAbs_nonneg _)]

theorem corner_of_neg (h : b.delta < 0) : b.corner false snap c r l lr = b := by
  simp [Best.corner, offer_of_neg h (qAbs_nonneg _)]

theorem facing_of_le (h : snap ≤ qAbs (lr - c)) (h' : snap ≤ qAbs (r - l)) : b.facing false snap c r l lr = b := by
  simp [Best.facing, offer_of_le h, offer_of_le h']

theorem corner_of_le (h : snap ≤ qAbs (lr - r)) (h' : snap ≤ qAbs (c - l)) : b.corner false snap c r l lr = b := by
  simp [Best.corner, offer_of_le h, offer_of_le h']

/-- Next to a window, a position in reach of the old one is one whose facing edge is. -/
theorem Near.of_beside (h : b.Near c reach) (hreach : 0 < reach) (hb : b.Beside c r l lr) :
    qAbs (lr - c) < reach ∨ qAbs (r - l) < reach := by
  unfold Near at h
  unfold Beside at hb
  simp only [qAbs_eq] at h ⊢
  omega

end offers

/-- What the borders give: a distance that nothing beats, when one is snapped to from the inside. -/
theorem start_spec {a : Axis} :
    (a.InsideLow ∧ a.start.delta < 0 ∧ qAbs (a.start.pos - a.c) = a.c - a.lo) ∨
    (¬ a.InsideLow ∧ a.InsideHigh ∧ a.start.delta < 0 ∧ qAbs (a.start.pos - a.c) = a.hi - a.r) ∨
    (¬ a.InsideLow ∧ ¬ a.InsideHigh ∧ a.start.Good a.c fun d =>
      (d = qAbs (a.lo - a.c) ∧ d < a.borderZone) ∨ (d = qAbs (a.r - a.hi) ∧ d < a.borderZone)) := by
  have hgood : ∀ b : Best, (b.pos = a.c ∨ qAbs (b.pos - a.c) ≤ b.delta) →
      (qAbs (a.lo - a.c) < a.borderZone → b.delta ≤ qAbs (a.lo - a.c)) →
      (qAbs (a.r - a.hi) < a.borderZone → b.delta ≤ qAbs (a.r - a.hi)) → b.Good a.c fun d =>
        (d = qAbs (a.lo - a.c) ∧ d < a.borderZone) ∨ (d = qAbs (a.r - a.hi) ∧ d < a.borderZone) := by
    rintro b hpos hlo hhi
    refine ⟨hpos, fun d hd => ?_⟩
    rcases hd with ⟨rfl, hd⟩ | ⟨rfl, hd⟩
    · exact hlo hd
    · exact hhi hd
  have hhigh : qAbs (a.hi - a.r) = qAbs (a.r - a.hi) := qAbs_sub_comm ..
  simp only [Axis.InsideLow, Axis.InsideHigh]
  by_cases hlo : qAbs (a.lo - a.c) < a.borderZone
  · rw [if_pos hlo]
    by_cases hhi : qAbs (a.r - a.hi) < a.borderZone ∧ qAbs (a.r - a.hi) < a.lo - a.c
    · have hb : a.start = ⟨a.r - a.hi, a.hi - (a.r - a.c) + 0⟩ := by simp [Axis.start, Best.border, hlo, hhi, hhigh]
      rw [hb]
      simp only [qAbs_eq] at hlo hhi hgood ⊢
      by_cases hin : 0 < a.hi - a.r
      · exact .inr (.inl ⟨by omega, by omega, by omega, by omega⟩)
      · exact .inr (.inr ⟨by omega, by omega, hgood _ (.inr (by simp only; omega)) (fun _ => by simp only; omega)
          (fun _ => by simp only; omega)⟩)
    · have hb : a.start = ⟨a.lo - a.c, a.lo⟩ := by simp [Axis.start, Best.border, hlo, hhigh]; omega
      rw [hb]
      simp only [qAbs_eq] at hlo hhi hgood ⊢
      by_cases hin : 0 < a.c - a.lo
      · exact .inl ⟨by omega, by omega, by omega⟩
      · exact .inr (.inr ⟨by omega, by omega, hgood _ (.inr (by simp only; omega)) (fun _ => by simp only; omega)
          (fun _ => by simp only; omega)⟩)
  · rw [if_neg hlo]
    by_cases hhi : qAbs (a.r - a.hi) < a.borderZone ∧ qAbs (a.r - a.hi) < a.hi
    · have hb : a.start = ⟨a.r - a.hi, a.hi - (a.r - a.c) + 0⟩ := by simp [Axis.start, Best.border, hlo, hhi, hhigh]
      rw [hb]
      simp only [qAbs_eq] at hlo hhi hgood ⊢
      by_cases hin : 0 < a.hi - a.r
      · exact .inr (.inl ⟨by omega, by omega, by omega, by omega⟩)
      · exact .inr (.inr ⟨by omega, by omega, hgood _ (.inr (by simp only; omega)) (fun _ => by simp only; omega)
          (fun _ => by simp only; omega)⟩)
    · have hb : a.start = ⟨a.hi, a.c⟩ := by simp [Axis.start, Best.border, hlo, hhigh]; omega
      rw [hb]
      simp only [qAbs_eq] at hlo hhi hgood ⊢
      exact .inr (.inr ⟨by omega, by omega, hgood _ (.inl rfl) (fun _ => by simp only; omega)
        (fun _ => by simp only; omega)⟩)

theorem start_of_far {a : Axis} (hlo : a.borderZone ≤ qAbs (a.lo - a.c)) (hhi : a.borderZone ≤ qAbs (a.r - a.hi)) :
    a.start = ⟨a.hi, a.c⟩ := by
  simp only [Axis.start, Best.border]
  rw [if_neg (by omega), if_neg (by omega)]

end Best

theorem Best.near_start {a : Axis} {reach : Int} (h : a.borderZone ≤ reach) : a.start.Near a.c reach := by
  simp only [Axis.start, Best.border, qAbs_eq, Bool.false_eq_true, false_imp_iff, true_and]
  split_ifs
  · exact .inr (by simp only [qAbs_eq]; omega)
  · exact .inr (by simp only [qAbs_eq]; omega)
  · exact .inr (by simp only [qAbs_eq]; omega)
  · exact .inl rfl

/-- After the borders and a loop that only takes what is nearer, the nearest candidate has been taken exactly where
nothing is nearer than a border that was snapped to from the inside. -/
theorem Axis.nearest_iff {a : Axis} {b : Best} (hnonneg : ∀ d ∈ a.facing, 0 ≤ d)
    (hgood : ∀ seen, a.start.Good a.c seen → b.Good a.c fun d => seen d ∨ (d ∈ a.facing ∧ d < a.zone))
    (hneg : a.start.delta < 0 → b = a.start)
    (hle : (∀ d ∈ a.facing, a.zone ≤ d) → (∀ d ∈ a.corners, a.zone ≤ d) → b = a.start) :
    a.Nearest b.pos ↔ a.Clear := by
  rcases Best.start_spec (a := a) with ⟨hin, hdelta, hpos⟩ | ⟨hin, hhigh, hdelta, hpos⟩ | ⟨hin, hhigh, hb⟩
  · rw [← hneg hdelta] at hpos
    have hcand : a.IsCandidate (a.c - a.lo) := .inl ⟨by rw [qAbs_eq]; have := hin.1; omega, hin.2⟩
    rw [Nearest, Clear, hpos]
    exact ⟨fun h => ⟨fun _ => h.1, fun h' => absurd hin h'⟩, fun h => ⟨h.1 hin, fun hno => absurd hcand (hno _)⟩⟩
  · rw [← hneg hdelta] at hpos
    have hcand : a.IsCandidate (a.hi - a.r) := .inr (.inl ⟨by rw [qAbs_eq]; have := hhigh.1; omega, hhigh.2.1⟩)
    rw [Nearest, Clear, hpos]
    exact ⟨fun h => ⟨fun h' => absurd h' hin, fun _ _ => h.1⟩,
      fun h => ⟨h.2 hin hhigh, fun hno => absurd hcand (hno _)⟩⟩
  · obtain ⟨hpos, hseen⟩ := hgood _ hb
    refine iff_of_true ⟨fun d hd => ?_, fun hno hcorners => ?_⟩
      ⟨fun h => absurd h hin, fun _ h => absurd h hhigh⟩
    · have hdelta : b.delta ≤ d := hseen d (by unfold IsCandidate at hd; tauto)
      rcases hpos with hpos | hpos
      · rw [hpos, Int.sub_self]
        rcases hd with ⟨rfl, -⟩ | ⟨rfl, -⟩ | hd
        · exact qAbs_nonneg _
        · exact qAbs_nonneg _
        · exact hnonneg d hd.1
      · exact hpos.trans hdelta
    · have hfacing : ∀ d ∈ a.facing, a.zone ≤ d := fun d hd =>
        not_lt.mp fun hlt => hno d (.inr (.inr ⟨hd, hlt⟩))
      rw [hle hfacing hcorners, Best.start_of_far]
      · exact not_lt.mp fun hlt => hno _ (.inl ⟨rfl, hlt⟩)
      · exact not_lt.mp fun hlt => hno _ (.inr (.inl ⟨rfl, hlt⟩))

/-- First and exclusive last coordinate of a window in an axis. -/
def Window.spanX (l : Window) : Int × Int := (l.frame.left, l.frame.left + l.frame.width)

def Window.spanY (l : Window) : Int × Int := (l.frame.top, l.frame.top + l.frame.height)

section track
variable (span other : Window → Int × Int) (c r c' r' snap reach : Int)

/-- Distances of the edges that face the frame, of windows beside it. -/
def facingOf (ls : List Window) : List Int :=
  (ls.filter fun l => touches c' r' (other l).1 (other l).2).flatMap fun l =>
    [qAbs ((span l).2 - c), qAbs (r - (span l).1)]

/-- An edge that faces the frame in the other axis is in reach. -/
def InReach (l : Window) : Prop := qAbs ((other l).2 - c') < reach ∨ qAbs (r' - (other l).1) < reach

instance (l : Window) : Decidable (InReach other c' r' reach l) := inferInstanceAs (Decidable (_ ∨ _))

/-- Distances of the edges on the same sides, of windows that the frame may come to be next to. -/
def cornersOf (ls : List Window) : List Int :=
  (ls.filter fun l => InReach other c' r' reach l).flatMap fun l =>
    [qAbs ((span l).2 - r), qAbs (c - (span l).1)]

private def faced (b : Best) (l : Window) : Best :=
  if touches c' r' (other l).1 (other l).2 then b.facing false snap c r (span l).1 (span l).2 else b

/-- What the loop does to one axis. -/
private inductive Track : List Window → Best → Best → Prop
  | nil (b : Best) : Track [] b b
  | skip {l : Window} {ls : List Window} {b b' : Best} :
    Track ls (faced span other c r c' r' snap b l) b' → Track (l :: ls) b b'
  | corner {l : Window} {ls : List Window} {b b' : Best} : InReach other c' r' reach l →
    Track ls ((faced span other c r c' r' snap b l).corner false snap c r (span l).1 (span l).2) b' →
    Track (l :: ls) b b'

end track

section tracks
variable {span other : Window → Int × Int} {c r c' r' snap reach : Int} {ls : List Window} {b b' : Best}

private theorem good_faced {seen : Int → Prop} (h : b.Good c seen) (l : Window) :
    (faced span other c r c' r' snap b l).Good c fun d =>
      seen d ∨ (d ∈ facingOf span other c r c' r' [l] ∧ d < snap) := by
  unfold faced facingOf
  split
  · rename_i ht
    simpa [ht] using h.facing
  · rename_i ht
    simpa [ht] using h

private theorem facingOf_cons (l : Window) (ls : List Window) : facingOf span other c r c' r' (l :: ls) =
    facingOf span other c r c' r' [l] ++ facingOf span other c r c' r' ls := by
  rw [facingOf, ← List.singleton_append, List.filter_append, List.flatMap_append]
  rfl

private theorem cornersOf_cons (l : Window) (ls : List Window) : cornersOf span other c r c' r' reach (l :: ls) =
    cornersOf span other c r c' r' reach [l] ++ cornersOf span other c r c' r' reach ls := by
  rw [cornersOf, ← List.singleton_append, List.filter_append, List.flatMap_append]
  rfl

private theorem Track.good (h : Track span other c r c' r' snap reach ls b b') {seen : Int → Prop}
    (hb : b.Good c seen) : b'.Good c fun d => seen d ∨ (d ∈ facingOf span other c r c' r' ls ∧ d < snap) := by
  induction h generalizing seen with
  | nil b => exact hb.mono fun d hd => hd.resolve_right fun h => by simp [facingOf] at h
  | @skip l ls _ _ _ ih =>
    refine (ih (good_faced hb l)).mono fun d hd => ?_
    rw [facingOf_cons, List.mem_append] at hd
    tauto
  | @corner l ls _ _ _ _ ih =>
    refine (ih (good_faced hb l).corner).mono fun d hd => ?_
    rw [facingOf_cons, List.mem_append] at hd
    tauto

private theorem faced_of_neg (h : b.delta < 0) (l : Window) : faced span other c r c' r' snap b l = b := by
  unfold faced
  split
  · exact Best.facing_of_neg h
  · rfl

private theorem Track.of_neg (h : Track span other c r c' r' snap reach ls b b') (hb : b.delta < 0) : b' = b := by
  induction h with
  | nil b => rfl
  | skip _ ih =>
    rw [faced_of_neg hb] at ih
    exact ih hb
  | corner _ _ ih =>
    rw [faced_of_neg hb, Best.corner_of_neg hb] at ih
    exact ih hb

private theorem faced_of_le {l : Window} (h : ∀ d ∈ facingOf span other c r c' r' [l], snap ≤ d) :
    faced span other c r c' r' snap b l = b := by
  unfold faced
  split
  · rename_i ht
    simp only [facingOf, ht, List.filter_cons_of_pos, List.filter_nil, List.flatMap_cons, List.flatMap_nil,
      List.append_nil, List.forall_mem_cons] at h
    exact Best.facing_of_le h.1 h.2.1
  · rfl

private theorem Track.of_le (h : Track span other c r c' r' snap reach ls b b')
    (hfacing : ∀ d ∈ facingOf span other c r c' r' ls, snap ≤ d)
    (hcorners : ∀ d ∈ cornersOf span other c r c' r' reach ls, snap ≤ d) : b' = b := by
  induction h with
  | nil b => rfl
  | @skip l ls _ _ _ ih =>
    rw [facingOf_cons, List.forall_mem_append] at hfacing
    rw [cornersOf_cons, List.forall_mem_append] at hcorners
    rw [faced_of_le hfacing.1] at ih
    exact ih hfacing.2 hcorners.2
  | @corner l ls _ _ hreach _ ih =>
    rw [facingOf_cons, List.forall_mem_append] at hfacing
    rw [cornersOf_cons, List.forall_mem_append] at hcorners
    have hl := hcorners.1
    simp only [cornersOf, hreach, decide_true, List.filter_cons_of_pos, List.filter_nil, List.flatMap_cons,
      List.flatMap_nil, List.append_nil, List.forall_mem_cons] at hl
    rw [faced_of_le hfacing.1, Best.corner_of_le hl.1 hl.2.1] at ih
    exact ih hfacing.2 hcorners.2

private theorem near_faced (h : b.Near c reach) (hsnap : snap ≤ reach) (l : Window) :
    (faced span other c r c' r' snap b l).Near c reach := by
  unfold faced
  split
  · exact h.facing hsnap
  · exact h

end tracks

namespace Moving
variable (M : Moving) (pos : Point)

def others : List Window := M.clients.filter M.relevant

/-- How far a window may be moved in an axis by snapping. -/
def reach : Int := max 1 (max (M.snapAdjust M.options.borderSnapZone) (M.snapAdjust M.options.windowSnapZone))

def axisX : Axis where
  lo := (M.maxRect pos).left
  hi := (M.maxRect pos).right + 1
  c := pos.x
  r := pos.x + M.window.frame.width
  borderZone := M.snapAdjust M.options.borderSnapZone
  zone := M.snapAdjust M.options.windowSnapZone
  facing := facingOf Window.spanX Window.spanY pos.x (pos.x + M.window.frame.width) pos.y
    (pos.y + M.window.frame.height) M.others
  corners := cornersOf Window.spanX Window.spanY pos.x (pos.x + M.window.frame.width) pos.y
    (pos.y + M.window.frame.height) M.reach M.others

def axisY : Axis where
  lo := (M.maxRect pos).top
  hi := (M.maxRect pos).bottom + 1
  c := pos.y
  r := pos.y + M.window.frame.height
  borderZone := M.snapAdjust M.options.borderSnapZone
  zone := M.snapAdjust M.options.windowSnapZone
  facing := facingOf Window.spanY Window.spanX pos.y (pos.y + M.window.frame.height) pos.x
    (pos.x + M.window.frame.width) M.others
  corners := cornersOf Window.spanY Window.spanX pos.y (pos.y + M.window.frame.height) pos.x
    (pos.x + M.window.frame.width) M.reach M.others

/-- A window without borders that is not maximized, with plain border and window snapping. -/
structure Plain : Prop where
  mode : M.mode = .restore
  margins : M.margins = ⟨0, 0, 0, 0⟩
  overlapping : M.options.snapOnlyWhenOverlapping = false
  center : M.options.centerSnapZone = 0

/-- In each axis, the window comes to the nearest candidate or stays. -/
def SnapsToNearest : Prop :=
  (M.axisX pos).Nearest (M.adjustClientPosition pos).x ∧ (M.axisY pos).Nearest (M.adjustClientPosition pos).y

section plain
variable {M pos}

private theorem snapTo_eq (h : M.Plain) (snap : Int) (best : Best × Best) (l : Window) :
    let rx := pos.x + M.window.frame.width
    let ry := pos.y + M.window.frame.height
    let x := faced Window.spanX Window.spanY pos.x rx pos.y ry snap best.1 l
    let y := faced Window.spanY Window.spanX pos.y ry pos.x rx snap best.2 l
    let y := if x.Beside pos.x rx l.spanX.1 l.spanX.2 then y.corner false snap pos.y ry l.spanY.1 l.spanY.2 else y
    let x := if y.Beside pos.y ry l.spanY.1 l.spanY.2 then x.corner false snap pos.x rx l.spanX.1 l.spanX.2 else x
    M.snapTo pos snap best l = (x, y) := by
  have hh : M.guideHorizontal pos = false := by simp [guideHorizontal, h.mode, MaximizeMode.hasHorizontal]
  have hv : M.guideVertical pos = false := by simp [guideVertical, h.mode, MaximizeMode.hasVertical]
  simp only [snapTo, hh, hv, h.overlapping, Bool.false_eq_true, not_false_eq_true, true_and]
  rfl

private theorem tracks (h : M.Plain) {snap reach : Int} (hsnap : snap ≤ reach) (hreach : 0 < reach) (ls : List Window)
    {x y : Best} (hx : x.Near pos.x reach) (hy : y.Near pos.y reach) :
    Track Window.spanX Window.spanY pos.x (pos.x + M.window.frame.width) pos.y (pos.y + M.window.frame.height) snap reach
        ls x (ls.foldl (M.snapTo pos snap) (x, y)).1 ∧
      Track Window.spanY Window.spanX pos.y (pos.y + M.window.frame.height) pos.x (pos.x + M.window.frame.width) snap reach
        ls y (ls.foldl (M.snapTo pos snap) (x, y)).2 := by
  induction ls generalizing x y with
  | nil => exact ⟨.nil _, .nil _⟩
  | cons l ls ih =>
    rw [List.foldl_cons, snapTo_eq h]
    have hx' : (faced Window.spanX Window.spanY pos.x (pos.x + M.window.frame.width) pos.y
        (pos.y + M.window.frame.height) snap x l).Near pos.x reach := near_faced hx hsnap l
    have hy' : (faced Window.spanY Window.spanX pos.y (pos.y + M.window.frame.height) pos.x
        (pos.x + M.window.frame.width) snap y l).Near pos.y reach := near_faced hy hsnap l
    -- the corner of the other axis is looked at first, with the edge that this one has come to
    by_cases hcy : (faced Window.spanX Window.spanY pos.x (pos.x + M.window.frame.width) pos.y
        (pos.y + M.window.frame.height) snap x l).Beside pos.x (pos.x + M.window.frame.width) l.spanX.1 l.spanX.2
    · rw [if_pos hcy]
      have hreachX := hx'.of_beside hreach hcy
      split
      · rename_i hcx
        obtain ⟨h₁, h₂⟩ := ih (hx'.corner hsnap) (hy'.corner hsnap)
        exact ⟨.corner ((hy'.corner hsnap).of_beside hreach hcx) h₁, .corner hreachX h₂⟩
      · obtain ⟨h₁, h₂⟩ := ih hx' (hy'.corner hsnap)
        exact ⟨.skip h₁, .corner hreachX h₂⟩
    · rw [if_neg hcy]
      split
      · rename_i hcx
        obtain ⟨h₁, h₂⟩ := ih (hx'.corner hsnap) hy'
        exact ⟨.corner (hy'.of_beside hreach hcx) h₁, .skip h₂⟩
      · obtain ⟨h₁, h₂⟩ := ih hx' hy'
        exact ⟨.skip h₁, .skip h₂⟩

private theorem facingOf_nonneg {span other : Window → Int × Int} {c r c' r' : Int} {ls : List Window} :
    ∀ d ∈ facingOf span other c r c' r' ls, 0 ≤ d := by
  intro d hd
  obtain ⟨l, -, hd⟩ := List.mem_flatMap.mp hd
  rcases List.mem_pair.mp hd with rfl | rfl
  · exact qAbs_nonneg _
  · exact qAbs_nonneg _

private theorem borderSnapZone_eq (h : M.Plain) :
    M.borderSnapZone pos = ⟨M.options.borderSnapZone, M.options.borderSnapZone⟩ := by
  simp [borderSnapZone, guideHorizontal, guideVertical, h.mode, MaximizeMode.hasHorizontal, MaximizeMode.hasVertical]

private theorem borders_of_zero (pos : Point) (hzero : M.snapAdjust M.options.borderSnapZone = 0) :
    (M.axisX pos).start = ⟨(M.axisX pos).hi, pos.x⟩ ∧ (M.axisY pos).start = ⟨(M.axisY pos).hi, pos.y⟩ :=
  ⟨Best.start_of_far (hzero.trans_le (qAbs_nonneg _)) (hzero.trans_le (qAbs_nonneg _)),
    Best.start_of_far (hzero.trans_le (qAbs_nonneg _)) (hzero.trans_le (qAbs_nonneg _))⟩

private theorem borders_eq (h : M.Plain) : M.borders pos = ((M.axisX pos).start, (M.axisY pos).start) := by
  have hmargins : M.outerMargins pos = ⟨0, 0, 0, 0⟩ := by simp [outerMargins, h.margins]
  simp only [borders, borderSnapZone_eq h, hmargins, h.overlapping]
  split
  · rfl
  · rename_i hno
    obtain ⟨hx, hy⟩ := borders_of_zero pos (show M.snapAdjust M.options.borderSnapZone = 0 by tauto)
    rw [hx, hy]
    rfl

private theorem adjustClientPosition_eq (h : M.Plain) :
    M.adjustClientPosition pos = ⟨(M.windows pos).1.pos, (M.windows pos).2.pos⟩ := by
  rw [adjustClientPosition]
  split
  · simp only [center, h.center, M.snapAdjust_zero]
    rfl
  · -- nothing to snap to
    rename_i hno
    simp only [borderSnapZone_eq h, h.center, ne_eq, not_or, not_not] at hno
    have hzero : M.snapAdjust M.options.borderSnapZone = 0 := by rw [hno.2.1.1, M.snapAdjust_zero]
    obtain ⟨hx, hy⟩ := borders_of_zero pos hzero
    rw [windows, hno.1, M.snapAdjust_zero, borders_eq h, hx, hy]
    rfl

/-- Moved windows snap to the nearest candidate exactly where it is the border, in axes where that is snapped to from
the inside. -/
theorem snapsToNearest_iff (h : M.Plain) (pos : Point) :
    M.SnapsToNearest pos ↔ (M.axisX pos).Clear ∧ (M.axisY pos).Clear := by
  rw [SnapsToNearest, adjustClientPosition_eq h, windows, borders_eq h]
  split
  · have hx : (M.axisX pos).start.Near pos.x M.reach := Best.near_start (le_max_of_le_right (le_max_left _ _))
    have hy : (M.axisY pos).start.Near pos.y M.reach := Best.near_start (le_max_of_le_right (le_max_left _ _))
    obtain ⟨htx, hty⟩ := tracks h (le_max_of_le_right (le_max_right _ _))
      (Int.lt_of_lt_of_le Int.zero_lt_one (le_max_left _ _)) M.others hx hy
    exact and_congr
      (Axis.nearest_iff facingOf_nonneg (fun _ hb => htx.good hb) htx.of_neg htx.of_le)
      (Axis.nearest_iff facingOf_nonneg (fun _ hb => hty.good hb) hty.of_neg hty.of_le)
  · -- windows do not attract at all
    rename_i hzone
    have hzone : M.snapAdjust M.options.windowSnapZone = 0 := not_not.mp hzone
    have hnone : ∀ a : Axis, a.zone = 0 → (∀ d ∈ a.facing, 0 ≤ d) → (a.Nearest a.start.pos ↔ a.Clear) := by
      intro a hzero hnonneg
      refine Axis.nearest_iff hnonneg (fun seen hb => hb.mono fun d hd => ?_) (fun _ => rfl) fun _ _ => rfl
      exact hd.resolve_right fun h => by have := hnonneg d h.1; omega
    exact and_congr (hnone _ hzone facingOf_nonneg) (hnone _ hzone facingOf_nonneg)

end plain

/-- A window of 30 by 30 pixels on a screen of its own, with zones of 10 pixels. -/
private def zoned (clients : List Window) : Moving where
  session := ⟨false, 1⟩
  scr := ⟨[⟨0, 0, 99, 99⟩]⟩
  options := ⟨10, 10, 0, false⟩
  snapAdjust := id
  window := ⟨0, ⟨20, 20, 49, 49⟩, false, true, [1], true, false, false⟩
  margins := ⟨0, 0, 0, 0⟩
  mode := .restore
  maximizeArea _ := .null
  clients := clients
  unrestricted := false
  snapAdjust_zero := rfl

/-- A window whose last column is at 2 and that is as high as the moved one. -/
private def neighbour : Window := ⟨1, ⟨-30, 20, 2, 49⟩, false, true, [1], true, false, false⟩

/-- At 1, the border is nearer than the window. -/
theorem snapsToNearest_zoned : (zoned [neighbour]).SnapsToNearest ⟨1, 40⟩ := by
  refine (snapsToNearest_iff (M := zoned [neighbour]) ⟨rfl, rfl, rfl, rfl⟩ ⟨1, 40⟩).mpr
    ⟨⟨fun _ d hd => ?_, fun h => absurd (by decide) h⟩,
      ⟨fun h => absurd h (by decide), fun _ h => absurd h (by decide)⟩⟩
  rcases hd with ⟨rfl, -⟩ | ⟨rfl, -⟩ | ⟨hfacing, -⟩
  · decide
  · decide
  · exact (by decide : ∀ d ∈ ((zoned [neighbour]).axisX ⟨1, 40⟩).facing, 1 - 0 ≤ d) d hfacing

/-- At 5, the border is snapped to instead of the window, which ends at 3. -/
theorem not_snapsToNearest_zoned : (zoned [neighbour]).adjustClientPosition ⟨5, 40⟩ = ⟨0, 40⟩ ∧
    ¬ (zoned [neighbour]).SnapsToNearest ⟨5, 40⟩ :=
  ⟨by decide, fun h => absurd (h.1.1 2 (.inr (.inr ⟨by decide, by decide⟩))) (by decide)⟩

end Moving

end KWinFT.Snapping
