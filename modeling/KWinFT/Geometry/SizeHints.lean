import KWinFT.Geometry.Window
import KWinFT.Lib.Int32
import Mathlib.Algebra.Order.Ring.Int

/-! The size of an X11 client from its hints. A size is brought between the limits first, and then down to a step of the
increments, which may be below the least size again. Hints are numbers of 32 bits as the client sends them; there is no
size where the sums for the increments do not fit. -/
namespace KWinFT.Geometry
open Lib

/-- `Xcb::GeometryHints`, of those properties that count here. Each is there or not. -/
structure GeometryHints where
  min : Option Size
  max : Option Size
  increments : Option Size
  base : Option Size
  hasAspect : Bool
deriving Repr, DecidableEq

namespace GeometryHints
variable (hints : GeometryHints)

def maxSize : Size :=
  match hints.max with
  | none => ⟨2147483647, 2147483647⟩
  | some s => ⟨Max.max s.width 1, Max.max s.height 1⟩

def baseSize : Size := hints.base.getD ⟨0, 0⟩

def minSize : Size := hints.min.getD hints.baseSize

def resizeIncrements : Size :=
  match hints.increments with
  | none => ⟨1, 1⟩
  | some s => ⟨Max.max s.width 1, Max.max s.height 1⟩

end GeometryHints

/-- The rules of a window that bear on its size. -/
structure SizeRules where
  checkMinSize : Size → Size
  checkMaxSize : Size → Size
  checkSize : Size → Size
  checkStrictGeometry : Bool → Bool

structure X11Client where
  hints : GeometryHints
  rules : SizeRules
  decorated : Bool
  borders : Margins
  clientFrameExtents : Margins
  fullscreen : Bool
  /-- `size_aspect_adjust` with the hint, for the limits. -/
  aspectAdjust : Size → Size → Size → SizeMode → Size

namespace X11Client
variable (win : X11Client)

def minSize : Size := win.rules.checkMinSize win.hints.minSize
def maxSize : Size := win.rules.checkMaxSize win.hints.maxSize

def incrementGridAlign (originalLength baseLength increment : Int) : Option Int :=
  int (originalLength - baseLength) >>= fun length => int (length.tdiv increment) >>= fun s =>
    int (s * increment) >>= fun steps => int (steps + baseLength)

/-- The size that the increments are counted from. -/
def incrementBase : Size := if win.hints.base.isSome then win.hints.baseSize else win.hints.minSize

def clientSizeBaseAdjust (clientSize : Size) : Option Size := do
  let width ← incrementGridAlign clientSize.width win.incrementBase.width win.hints.resizeIncrements.width
  let height ← incrementGridAlign clientSize.height win.incrementBase.height win.hints.resizeIncrements.height
  some ⟨width, height⟩

def sizeAspectAdjust (clientSize minSize maxSize : Size) (mode : SizeMode) : Size :=
  if ¬ win.hints.hasAspect then clientSize else win.aspectAdjust clientSize minSize maxSize mode

def frameSize : Size := ⟨win.borders.left + win.borders.right, win.borders.top + win.borders.bottom⟩

def clientToFrameSize (s : Size) : Size :=
  ((Rect.ofPointSize ⟨0, 0⟩ s).subMargins win.clientFrameExtents |>.addMargins win.borders).size

/-- The least size that is taken, with a decoration not smaller than its borders. -/
def leastSize : Size :=
  if win.decorated then
    ⟨max win.frameSize.width win.minSize.width, max win.frameSize.height win.minSize.height⟩
  else win.minSize

def limited (least most length : Int) : Int := max least (min most (max 1 length))

def limitedSize (clientSize : Size) : Size :=
  ⟨limited win.leastSize.width win.maxSize.width clientSize.width,
    limited win.leastSize.height win.maxSize.height clientSize.height⟩

def sizeForClientSize (clientSize : Size) (mode : SizeMode) (noframe : Bool) : Option Size := do
  let size := win.limitedSize clientSize
  let size ← (if win.rules.checkStrictGeometry (!win.fullscreen) then
    (win.clientSizeBaseAdjust size).map (win.sizeAspectAdjust · win.leastSize win.maxSize mode) else some size)
  some (win.rules.checkSize (if noframe then size else win.clientToFrameSize size))

/-- No aspect hint, no rule for the size, and hints in order. -/
structure Plain : Prop where
  aspect : win.hints.hasAspect = false
  checkMinSize : win.rules.checkMinSize = id
  checkMaxSize : win.rules.checkMaxSize = id
  checkSize : win.rules.checkSize = id
  base_le : win.incrementBase.width ≤ win.minSize.width ∧ win.incrementBase.height ≤ win.minSize.height
  min_le : win.minSize.width ≤ win.maxSize.width ∧ win.minSize.height ≤ win.maxSize.height
  hints : ∀ s : Size, win.hints.min = some s ∨ win.hints.max = some s ∨ win.hints.base = some s →
    IsInt s.width ∧ IsInt s.height
  borders : IsInt win.frameSize.width ∧ IsInt win.frameSize.height

/-- There is a size for another one, it obeys the hints, and it is given for itself. -/
def Obeys (clientSize : Size) (mode : SizeMode) : Prop :=
  ∃ s, win.sizeForClientSize clientSize mode true = some s ∧
    (win.minSize.width ≤ s.width ∧ s.width ≤ win.maxSize.width ∧
      win.hints.resizeIncrements.width ∣ s.width - win.incrementBase.width) ∧
    (win.minSize.height ≤ s.height ∧ s.height ≤ win.maxSize.height ∧
      win.hints.resizeIncrements.height ∣ s.height - win.incrementBase.height) ∧
    win.sizeForClientSize s mode true = some s

/-- With strict geometry the limited length is not too far from the base, a step of the increments is between the least length
and the limited one, and none between the greatest length and that; else the limited length is a step itself. -/
def StepThere (strict : Bool) (least most base increment length : Int) : Prop :=
  if strict then
    length - base ≤ 2147483647 ∧ (∃ step, increment ∣ step - base ∧ least ≤ step ∧ step ≤ length) ∧
      ∀ step, increment ∣ step - base → step ≤ length → step ≤ most
  else increment ∣ length - base ∧ length ≤ most

def StepsThere (clientSize : Size) : Prop :=
  StepThere (win.rules.checkStrictGeometry (!win.fullscreen)) win.minSize.width win.maxSize.width win.incrementBase.width
      win.hints.resizeIncrements.width (win.limitedSize clientSize).width ∧
    StepThere (win.rules.checkStrictGeometry (!win.fullscreen)) win.minSize.height win.maxSize.height
      win.incrementBase.height win.hints.resizeIncrements.height (win.limitedSize clientSize).height

section length
variable {least bordered most base increment length : Int}

/-- The greatest step up to a length. -/
def gridAligned (length base increment : Int) : Int := (length - base) / increment * increment + base

theorem gridAligned_spec (length base : Int) (hinc : 0 < increment) :
    increment ∣ gridAligned length base increment - base ∧ gridAligned length base increment ≤ length ∧
    ∀ step, increment ∣ step - base → step ≤ length → step ≤ gridAligned length base increment := by
  unfold gridAligned
  rw [add_sub_cancel_right]
  refine ⟨Int.dvd_mul_left _ _, ?_, fun step hstep hle => ?_⟩
  · have := Int.ediv_mul_le (length - base) hinc.ne'
    omega
  · obtain ⟨k, hk⟩ := hstep
    have hkle : k ≤ (length - base) / increment := by
      rw [Int.le_ediv_iff_mul_le hinc, mul_comm]
      omega
    have := mul_le_mul_of_nonneg_right hkle hinc.le
    rw [mul_comm increment k] at hk
    omega

/-- A length that is not too far from the base is brought down to a step. -/
theorem incrementGridAlign_eq_some (hinc : 0 < increment) (hbase : base ≤ length) (hb : IsInt base) (hl : IsInt length)
    {x : Int} : incrementGridAlign length base increment = some x ↔
      length - base ≤ 2147483647 ∧ gridAligned length base increment = x := by
  have hroom : 0 ≤ length - base := by omega
  have hsteps : 0 ≤ (length - base) / increment := Int.ediv_nonneg hroom hinc.le
  have hcount : (length - base) / increment ≤ length - base := Int.ediv_le_self _ hroom
  have hlow : 0 ≤ (length - base) / increment * increment := mul_nonneg hsteps hinc.le
  have hhigh : (length - base) / increment * increment ≤ length - base := Int.ediv_mul_le _ hinc.ne'
  unfold incrementGridAlign gridAligned
  rw [int_bind_eq_some, int_bind_eq_some, int_bind_eq_some, int_eq_some, Int.tdiv_eq_ediv_of_nonneg hroom]
  constructor
  · rintro ⟨hfits, -, -, -, hx⟩
    exact ⟨hfits.2, hx⟩
  · rintro ⟨hfits, hx⟩
    exact ⟨⟨by omega, hfits⟩, ⟨by omega, by omega⟩, ⟨by omega, by omega⟩, hb.between hl (by omega) (by omega), hx⟩

/-- A length between a step and another that is brought down to it is brought down to it as well. -/
theorem gridAligned_between {length' : Int} (hinc : 0 < increment) (hle : gridAligned length base increment ≤ length')
    (hle' : length' ≤ length) : gridAligned length' base increment = gridAligned length base increment := by
  obtain ⟨hdvd, hstep, hmost⟩ := gridAligned_spec length base hinc
  obtain ⟨hdvd', hstep', hmost'⟩ := gridAligned_spec length' base hinc
  exact le_antisymm (hmost _ hdvd' (hstep'.trans hle')) (hmost' _ hdvd hle)

/-- What becomes of a length that was asked for. -/
def adjusted (strict : Bool) (bordered most base increment length : Int) : Option Int :=
  if strict then incrementGridAlign (limited bordered most length) base increment else some (limited bordered most length)

theorem limited_isInt (hb : IsInt bordered) (hm : IsInt most) (hone : 1 ≤ most) : IsInt (limited bordered most length) := by
  have hfirst : IsInt 1 := by decide
  exact hb.max (hfirst.between hm (le_min hone (le_max_left _ _)) (min_le_left _ _))

/-- A length that can be taken is not made longer. -/
theorem adjusted_le {strict : Bool} (hinc : 0 < increment) (hbase : base ≤ bordered) (hmost : 1 ≤ most)
    (hints : IsInt base ∧ IsInt bordered ∧ IsInt most) (hroom : max 1 bordered ≤ length) {x : Int}
    (hx : adjusted strict bordered most base increment length = some x) : x ≤ length := by
  obtain ⟨hb, hbordered, hm⟩ := hints
  have hle : limited bordered most length ≤ length := by
    unfold limited
    omega
  unfold adjusted at hx
  split at hx
  · have halign := (incrementGridAlign_eq_some hinc (hbase.trans (le_max_left _ _)) hb
      (limited_isInt hbordered hm hmost)).mp hx
    exact halign.2 ▸ ((gridAligned_spec _ base hinc).2.1.trans hle)
  · exact Option.some.inj hx ▸ hle

/-- A length between the limits, and on a step if there are to be steps. -/
def TakesLength (strict : Bool) (least most base increment length : Int) : Prop :=
  max 1 least ≤ length ∧ length ≤ most ∧ (strict → increment ∣ length - base ∧ length - base ≤ 2147483647)

theorem adjusted_self {strict : Bool} (hinc : 0 < increment) (hbase : base ≤ bordered) (hmost : 1 ≤ most)
    (hints : IsInt base ∧ IsInt bordered ∧ IsInt most) (ht : TakesLength strict bordered most base increment length) :
    adjusted strict bordered most base increment length = some length := by
  obtain ⟨hb, hbordered, hm⟩ := hints
  obtain ⟨hlow, hhigh, hstep⟩ := ht
  have hlimited : limited bordered most length = length := by
    unfold limited
    omega
  unfold adjusted
  split
  · next hstrict =>
    obtain ⟨hdvd, hfits⟩ := hstep hstrict
    have hl : IsInt length := hlimited ▸ limited_isInt hbordered hm hmost
    rw [hlimited, incrementGridAlign_eq_some hinc (hbase.trans ((le_max_right _ _).trans hlow)) hb hl]
    obtain ⟨-, hle, hgreatest⟩ := gridAligned_spec length base hinc
    exact ⟨hfits, le_antisymm hle (hgreatest length hdvd le_rfl)⟩
  · rw [hlimited]

/-- One direction. -/
theorem adjusted_obeys_iff {strict : Bool} (hinc : 0 < increment) (hbase : base ≤ least) (hleast : least ≤ bordered)
    (hmost : 1 ≤ most) (hints : IsInt base ∧ IsInt bordered ∧ IsInt most) :
    (∃ x, adjusted strict bordered most base increment length = some x ∧ (least ≤ x ∧ x ≤ most ∧ increment ∣ x - base) ∧
      adjusted strict bordered most base increment x = some x) ↔
    StepThere strict least most base increment (limited bordered most length) := by
  have hlow : bordered ≤ limited bordered most length := le_max_left _ _
  have hone : 1 ≤ limited bordered most length := by
    unfold limited
    omega
  unfold StepThere adjusted
  cases strict with
  | false =>
    simp only [Bool.false_eq_true, if_false, Option.some.injEq, exists_eq_left']
    refine ⟨fun h => ⟨h.1.2.2, h.1.2.1⟩, fun ⟨hdvd, hle⟩ => ⟨⟨hleast.trans hlow, hle, hdvd⟩, ?_⟩⟩
    generalize limited bordered most length = x at *
    unfold limited
    omega
  | true =>
    obtain ⟨hb, hbordered, hm⟩ := hints
    have halign (length : Int) {x : Int} :=
      incrementGridAlign_eq_some (x := x) hinc (hbase.trans (hleast.trans (le_max_left _ (min most (max 1 length))))) hb
        (limited_isInt hbordered hm hmost)
    obtain ⟨hdvd, hle, hgreatest⟩ := gridAligned_spec (limited bordered most length) base hinc
    simp only [if_true]
    constructor
    · rintro ⟨x, hx, ⟨hlo, hhi, -⟩, -⟩
      obtain ⟨hfits, rfl⟩ := (halign length).mp hx
      exact ⟨hfits, ⟨_, hdvd, hlo, hle⟩, fun step hstep hsle => (hgreatest step hstep hsle).trans hhi⟩
    · rintro ⟨hfits, ⟨step, hstep, hlo, hsle⟩, hnone⟩
      have hhi := hnone _ hdvd hle
      have hagain : limited bordered most (gridAligned (limited bordered most length) base increment) ≤
          limited bordered most length := max_le hlow ((min_le_right _ _).trans (max_le hone hle))
      refine ⟨_, (halign length).mpr ⟨hfits, rfl⟩, ⟨hlo.trans (hgreatest step hstep hsle), hhi, hdvd⟩, ?_⟩
      refine (halign _).mpr ⟨(sub_le_sub_right hagain base).trans hfits, gridAligned_between hinc ?_ hagain⟩
      exact le_max_of_le_right (le_min hhi (le_max_right _ _))

end length

variable {win}

private theorem sizeForClientSize_eq_some (h : win.Plain) {clientSize : Size} {mode : SizeMode} {s : Size} :
    win.sizeForClientSize clientSize mode true = some s ↔
      adjusted (win.rules.checkStrictGeometry (!win.fullscreen)) win.leastSize.width win.maxSize.width
          win.incrementBase.width win.hints.resizeIncrements.width clientSize.width = some s.width ∧
        adjusted (win.rules.checkStrictGeometry (!win.fullscreen)) win.leastSize.height win.maxSize.height
          win.incrementBase.height win.hints.resizeIncrements.height clientSize.height = some s.height := by
  unfold sizeForClientSize sizeAspectAdjust adjusted
  rw [h.checkSize, h.aspect]
  cases win.rules.checkStrictGeometry (!win.fullscreen) with
  | false =>
    cases s
    simp [limitedSize]
  | true =>
    cases s
    simp [clientSizeBaseAdjust, limitedSize, Option.bind_eq_some_iff]

private theorem least_le (win : X11Client) :
    win.minSize.width ≤ win.leastSize.width ∧ win.minSize.height ≤ win.leastSize.height := by
  unfold leastSize
  split
  · exact ⟨le_max_right _ _, le_max_right _ _⟩
  · exact ⟨le_rfl, le_rfl⟩

private theorem one_le_maxSize (h : win.Plain) : 1 ≤ win.maxSize.width ∧ 1 ≤ win.maxSize.height := by
  unfold maxSize GeometryHints.maxSize
  rw [h.checkMaxSize]
  split
  · decide
  · exact ⟨le_max_right _ _, le_max_right _ _⟩

private theorem increments_pos (hints : GeometryHints) :
    0 < hints.resizeIncrements.width ∧ 0 < hints.resizeIncrements.height := by
  unfold GeometryHints.resizeIncrements
  split
  · decide
  · exact ⟨Int.lt_of_lt_of_le Int.one_pos (le_max_right _ _), Int.lt_of_lt_of_le Int.one_pos (le_max_right _ _)⟩

/-- The numbers that a size is made from. -/
private theorem isInt_sizes (h : win.Plain) :
    (IsInt win.incrementBase.width ∧ IsInt win.leastSize.width ∧ IsInt win.maxSize.width) ∧
      IsInt win.incrementBase.height ∧ IsInt win.leastSize.height ∧ IsInt win.maxSize.height := by
  have hbase : IsInt win.hints.baseSize.width ∧ IsInt win.hints.baseSize.height := by
    unfold GeometryHints.baseSize
    cases hb : win.hints.base with
    | none => decide
    | some s => exact h.hints s (.inr (.inr hb))
  have hmin : IsInt win.hints.minSize.width ∧ IsInt win.hints.minSize.height := by
    unfold GeometryHints.minSize
    cases hm : win.hints.min with
    | none => exact hbase
    | some s => exact h.hints s (.inl hm)
  have hmax : IsInt win.maxSize.width ∧ IsInt win.maxSize.height := by
    unfold maxSize GeometryHints.maxSize
    rw [h.checkMaxSize]
    cases hm : win.hints.max with
    | none => decide
    | some s =>
      obtain ⟨hw, hh⟩ := h.hints s (.inr (.inl hm))
      exact ⟨hw.max (by decide), hh.max (by decide)⟩
  have hleast : IsInt win.leastSize.width ∧ IsInt win.leastSize.height := by
    unfold leastSize minSize
    rw [h.checkMinSize]
    split
    · exact ⟨h.borders.1.max hmin.1, h.borders.2.max hmin.2⟩
    · exact hmin
  have hincrement : IsInt win.incrementBase.width ∧ IsInt win.incrementBase.height := by
    unfold incrementBase
    split
    · exact hbase
    · exact hmin
  exact ⟨⟨hincrement.1, hleast.1, hmax.1⟩, hincrement.2, hleast.2, hmax.2⟩

/-- The size obeys the hints if and only if there are steps where it needs them. -/
theorem sizeForClientSize_obeys_iff (h : win.Plain) (clientSize : Size) (mode : SizeMode) :
    win.Obeys clientSize mode ↔ win.StepsThere clientSize := by
  have hleast := least_le win
  have hmost := one_le_maxSize h
  have hinc := increments_pos win.hints
  have hints := isInt_sizes h
  unfold Obeys StepsThere
  dsimp only [limitedSize]
  rw [← adjusted_obeys_iff hinc.1 h.base_le.1 hleast.1 hmost.1 hints.1,
    ← adjusted_obeys_iff hinc.2 h.base_le.2 hleast.2 hmost.2 hints.2]
  constructor
  · rintro ⟨s, hs, hwidth, hheight, hagain⟩
    obtain ⟨hw, hh⟩ := (sizeForClientSize_eq_some h).mp hs
    obtain ⟨haw, hah⟩ := (sizeForClientSize_eq_some h).mp hagain
    exact ⟨⟨s.width, hw, hwidth, haw⟩, s.height, hh, hheight, hah⟩
  · rintro ⟨⟨width, hw, hwidth, haw⟩, height, hh, hheight, hah⟩
    exact ⟨⟨width, height⟩, (sizeForClientSize_eq_some h).mpr ⟨hw, hh⟩, hwidth, hheight,
      (sizeForClientSize_eq_some h).mpr ⟨haw, hah⟩⟩

theorem sizeForClientSize_le (h : win.Plain) {clientSize s : Size} {mode : SizeMode}
    (hw : max 1 win.leastSize.width ≤ clientSize.width) (hh : max 1 win.leastSize.height ≤ clientSize.height)
    (hs : win.sizeForClientSize clientSize mode true = some s) :
    s.width ≤ clientSize.width ∧ s.height ≤ clientSize.height := by
  have hleast := least_le win
  have hmost := one_le_maxSize h
  have hinc := increments_pos win.hints
  have hints := isInt_sizes h
  obtain ⟨hswidth, hsheight⟩ := (sizeForClientSize_eq_some h).mp hs
  exact ⟨adjusted_le hinc.1 (h.base_le.1.trans hleast.1) hmost.1 hints.1 hw hswidth,
    adjusted_le hinc.2 (h.base_le.2.trans hleast.2) hmost.2 hints.2 hh hsheight⟩

theorem sizeForClientSize_self (h : win.Plain) {clientSize : Size} {mode : SizeMode}
    (hw : TakesLength (win.rules.checkStrictGeometry (!win.fullscreen)) win.leastSize.width win.maxSize.width
      win.incrementBase.width win.hints.resizeIncrements.width clientSize.width)
    (hh : TakesLength (win.rules.checkStrictGeometry (!win.fullscreen)) win.leastSize.height win.maxSize.height
      win.incrementBase.height win.hints.resizeIncrements.height clientSize.height) :
    win.sizeForClientSize clientSize mode true = some clientSize := by
  have hleast := least_le win
  have hmost := one_le_maxSize h
  have hinc := increments_pos win.hints
  have hints := isInt_sizes h
  exact (sizeForClientSize_eq_some h).mpr
    ⟨adjusted_self hinc.1 (h.base_le.1.trans hleast.1) hmost.1 hints.1 hw,
      adjusted_self hinc.2 (h.base_le.2.trans hleast.2) hmost.2 hints.2 hh⟩

theorem sizeForClientSize_frame (h : win.Plain) (clientSize : Size) (mode : SizeMode) :
    win.sizeForClientSize clientSize mode false =
      (win.sizeForClientSize clientSize mode true).map win.clientToFrameSize := by
  unfold sizeForClientSize
  rw [h.checkSize]
  dsimp only
  rw [Option.bind_eq_bind, Option.map_bind]
  rfl

/-- A terminal with cells of 6 by 12 pixels, which wants ten pixels at least. -/
def terminal : X11Client where
  hints := ⟨some ⟨10, 10⟩, none, some ⟨6, 12⟩, some ⟨4, 4⟩, false⟩
  rules := ⟨id, id, id, id⟩
  decorated := false
  borders := ⟨0, 0, 0, 0⟩
  clientFrameExtents := ⟨0, 0, 0, 0⟩
  fullscreen := false
  aspectAdjust s _ _ _ := s

theorem terminal_obeys : terminal.Obeys ⟨300, 300⟩ .any := by
  have hplain : terminal.Plain := by
    refine ⟨rfl, rfl, rfl, rfl, by decide, by decide, ?_, by decide⟩
    rintro s (hs | hs | hs) <;> cases hs <;> decide
  refine (sizeForClientSize_obeys_iff hplain _ _).mpr ⟨⟨by decide, ?_, ?_⟩, by decide, ?_, ?_⟩
  · exact ⟨298, by decide, by decide, by decide⟩
  · exact fun step _ hle => hle.trans (by decide)
  · exact ⟨292, by decide, by decide, by decide⟩
  · exact fun step _ hle => hle.trans (by decide)

/-- Twelve pixels of height come down to four, which is less than it wants. -/
theorem terminal_tooLow : ¬ terminal.Obeys ⟨12, 12⟩ .any := by
  rintro ⟨s, hs, -, ⟨hlow, -⟩, -⟩
  cases hs
  exact absurd hlow (by decide)

end X11Client
end KWinFT.Geometry
