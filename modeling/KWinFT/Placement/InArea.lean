import KWinFT.Placement.Policies

/-! When a window that is smaller than the area is placed in it, whatever was placed before. -/
namespace KWinFT.Placement
open KWinFT.Geometry Areas

/-- The functions that place a window. -/
inductive Way
  | random
  | cascaded
  | centered
  | zeroCornered
  | underMouse
  | onMainWindow
deriving Repr, DecidableEq

namespace Task
variable (t : Task)

/-- The frame of the placed window, if smart placement takes no more than `n` rounds where it is left to that. -/
def place (w : Way) (s : State) (n : Nat) : Option Rect :=
  match w with
  | .random => some (t.placeAtRandom s).2
  | .cascaded => (t.placeCascaded s).2 <|> (t.placeSmart n).map fun p => t.snapped (t.frameAt p)
  | .centered => some t.placeCentered
  | .zeroCornered => some t.placeZeroCornered
  | .underMouse => some t.placeUnderMouse
  | .onMainWindow => some t.placeOnMainWindow

def after (w : Way) (s : State) : State :=
  match w with
  | .random => (t.placeAtRandom s).1
  | .cascaded => (t.placeCascaded s).1
  | .centered | .zeroCornered | .underMouse | .onMainWindow => s

/-- The area that a window is placed in: beside its main window, that of the screen there. -/
def areaFor : Way → Rect
  | .onMainWindow =>
    match t.mainWindow with
    | none => t.area
    | some lead => t.placementArea (t.frameToPlace.moveCenter lead.frame.center).center
  | .random | .cascaded | .centered | .zeroCornered | .underMouse => t.area

def Smaller (w : Way) : Prop :=
  t.window.frame.width < (t.areaFor w).width ∧ t.window.frame.height < (t.areaFor w).height

instance (w : Way) : Decidable (t.Smaller w) := inferInstanceAs (Decidable (_ ∧ _))

/-- A window that is smaller than the area comes to be in it. -/
def InArea (w : Way) (s : State) : Prop :=
  t.Smaller w → ∃ r, (∀ᶠ n in Filter.atTop, t.place w s n = some r) ∧ r.Within (t.areaFor w)

section cascade
variable (c : Cascading)

/-- There is no room to the right of the position, were the area at the origin. -/
def Wide : Prop := t.area.width < c.pos.x + t.window.frame.width

def Tall : Prop := t.area.height < c.pos.y + t.window.frame.height

/-- Windows have been cascaded before. -/
def Off : Prop := c.pos.x ≠ t.area.left ∧ c.pos.y ≠ t.area.top

instance : Decidable (t.Wide c) := inferInstanceAs (Decidable (_ < _))
instance : Decidable (t.Tall c) := inferInstanceAs (Decidable (_ < _))
instance : Decidable (t.Off c) := inferInstanceAs (Decidable (_ ∧ _))

def NewColumn : Prop := t.Off c ∧ ¬ t.Wide c ∧ t.Tall c

def NewRow : Prop := t.Off c ∧ t.Wide c ∧ ¬ t.Tall c

instance : Decidable (t.NewColumn c) := inferInstanceAs (Decidable (_ ∧ _))
instance : Decidable (t.NewRow c) := inferInstanceAs (Decidable (_ ∧ _))

def column : Int :=
  if t.NewColumn c then t.delta.x * (c.col + 1) else if t.Wide c then t.area.left else c.pos.x

def row : Int := if t.NewRow c then t.delta.y * (c.row + 1) else if t.Tall c then t.area.top else c.pos.y

/-- The window is left to smart placement. -/
def Resorts : Prop :=
  (t.Wide c ∧ (if t.Tall c then t.area.top else c.pos.y) = 0) ∨
    (t.Off c ∧ (t.column c + t.window.frame.width > t.area.width - t.area.left ∨
      t.row c + t.window.frame.height > t.area.height - t.area.top))

instance : Decidable (t.Resorts c) := inferInstanceAs (Decidable (_ ∨ _))

/-- A new column or row does not start before the area, and there is room for the window at what starts anew and at
what was remembered. -/
def Continues : Prop :=
  (t.NewColumn c → t.area.left ≤ t.delta.x * (c.col + 1) ∧
      t.delta.x * (c.col + 1) + t.window.frame.width ≤ t.area.left + t.area.width) ∧
    (t.NewRow c → t.area.top ≤ t.delta.y * (c.row + 1) ∧
      t.delta.y * (c.row + 1) + t.window.frame.height ≤ t.area.top + t.area.height) ∧
    (¬ t.NewColumn c ∧ ¬ t.Wide c → c.pos.x + t.window.frame.width ≤ t.area.left + t.area.width) ∧
    (¬ t.NewRow c ∧ ¬ t.Tall c → c.pos.y + t.window.frame.height ≤ t.area.top + t.area.height)

instance : Decidable (t.Continues c) := inferInstanceAs (Decidable (_ ∧ _ ∧ _ ∧ _))

end cascade

/-- There is room at the coordinate, or for the window between zero and the end of the area. -/
def Room (p length last : Int) : Prop := p + length ≤ last ∨ length ≤ last + 1

/-- There is room for the window where it is put. -/
def HasRoom (w : Way) (s : State) : Prop :=
  match w with
  | .random => Room (stride 24 s.px t.area.left t.area.width) t.window.frame.width t.area.right ∧
      Room (stride 48 s.py t.area.top t.area.height) t.window.frame.height t.area.bottom
  | .cascaded =>
    ¬ t.Resorts (t.cascading (s.cci (t.window.desktop t.session))) →
      t.Continues (t.cascading (s.cci (t.window.desktop t.session)))
  | .onMainWindow =>
    match t.mainWindow with
    | none => t.frameToPlace.width ≤ t.area.width ∧ t.frameToPlace.height ≤ t.area.height
    | some _ =>
      let size := t.frameToPlace.size
      let area := t.areaFor .onMainWindow
      area.width < size.width ∨ area.height < size.height →
        (t.adjusted ⟨min area.width size.width, min area.height size.height⟩).width ≤ area.width ∧
          (t.adjusted ⟨min area.width size.width, min area.height size.height⟩).height ≤ area.height
  | .centered | .zeroCornered | .underMouse => True

/-- The window is not to be moved out by its borders: border snapping is off, or it is maximized that way, or there is
no border, or these edges are inside the display. -/
def Clear (left right bottom : Int) : Prop :=
  t.borderSnap →
    (¬ t.mode.hasHorizontal → (t.margins.left = 0 ∨ t.fullRect.left < left) ∧
      (t.margins.right = 0 ∨ right < t.fullRect.right)) ∧
    (¬ t.mode.hasVertical → t.margins.bottom = 0 ∨ bottom < t.fullRect.bottom)

/-- Where a window is left to smart placement or is centred, it is clear at the first free position, or all over the
area if there is none, or with half of the space that it leaves on each side. -/
def Unmoved (w : Way) (s : State) : Prop :=
  match w with
  | .cascaded =>
    t.Resorts (t.cascading (s.cci (t.window.desktop t.session))) →
      (∀ p, t.IsFirst p → t.Clear p.x (p.x + t.cw) (p.y + t.ch)) ∧
        ((∀ p, ¬ t.IsFirst p) → t.Clear t.area.left t.area.right t.area.bottom)
  | .onMainWindow =>
    t.mainWindow = none →
      let dx := t.area.width - t.frameToPlace.width
      let dy := t.area.height - t.frameToPlace.height
      t.Clear (t.area.left + dx / 2) (t.area.right - (dx + 1) / 2) (t.area.bottom - (dy + 1) / 2)
  | .random | .centered | .zeroCornered | .underMouse => True

/-- What is to hold before a placement. -/
def Stays (w : Way) (s : State) : Prop := t.HasRoom w s ∧ t.Unmoved w s

section proofs
variable {t}

theorem moveTo_within_iff {r area : Rect} {p : Point} : (r.moveTo p).Within area ↔
    area.left ≤ p.x ∧ p.x + r.width ≤ area.left + area.width ∧ area.top ≤ p.y ∧
      p.y + r.height ≤ area.top + area.height := by
  simp only [Rect.Within, Rect.moveTo, Rect.moveTop, Rect.moveLeft, Rect.width, Rect.height]
  omega

private theorem stride_ge (step p first extent : Int) (hstep : 0 ≤ step) : first ≤ stride step p first extent := by
  simp only [stride]
  split <;> split <;> omega

/-- One direction of random placement. -/
private theorem room_iff {p first last length : Int} (hp : first ≤ p) (hlength : length < last - first + 1) :
    (first ≤ (if p + length > last then if last - length < 0 then 0 else last - length else p) ∧
      (if p + length > last then if last - length < 0 then 0 else last - length else p) + length ≤ last + 1) ↔
    Room p length last := by
  unfold Room
  split
  · split <;> omega
  · omega

private theorem random_within_iff {s : State} (hw : t.window.frame.width < t.area.width)
    (hh : t.window.frame.height < t.area.height) :
    (t.placeAtRandom s).2.Within t.area ↔ t.HasRoom .random s := by
  have hx := stride_ge 24 s.px t.area.left t.area.width (by omega)
  have hy := stride_ge 48 s.py t.area.top t.area.height (by omega)
  have hplace : (t.placeAtRandom s).2 = t.window.frame.moveTo
      ⟨if stride 24 s.px t.area.left t.area.width + t.window.frame.width > t.area.right then
          if t.area.right - t.window.frame.width < 0 then 0 else t.area.right - t.window.frame.width
        else stride 24 s.px t.area.left t.area.width,
        if stride 48 s.py t.area.top t.area.height + t.window.frame.height > t.area.bottom then
          if t.area.bottom - t.window.frame.height < 0 then 0 else t.area.bottom - t.window.frame.height
        else stride 48 s.py t.area.top t.area.height⟩ := by
    by_cases hcx : stride 24 s.px t.area.left t.area.width + t.window.frame.width > t.area.right <;>
      by_cases hcy : stride 48 s.py t.area.top t.area.height + t.window.frame.height > t.area.bottom <;>
        simp only [placeAtRandom, Rect.size, hcx, hcy, if_true, if_false] <;> rfl
  rw [hplace, moveTo_within_iff, HasRoom, ← room_iff hx hw, ← room_iff hy hh]
  simp only [Rect.width, Rect.height]
  omega

private theorem centered_within {r : Rect} (hw : r.width ≤ t.area.width) (hh : r.height ≤ t.area.height) :
    (t.centered r).Within t.area := by
  rw [centered, moveTo_within_iff, Int.tdiv_eq_ediv_of_nonneg (by omega), Int.tdiv_eq_ediv_of_nonneg (by omega)]
  dsimp only
  omega

private theorem zeroCornered_within (hw : t.window.frame.width ≤ t.area.width)
    (hh : t.window.frame.height ≤ t.area.height) : t.placeZeroCornered.Within t.area := by
  rw [placeZeroCornered, moveTo_within_iff]
  simp only [Rect.topLeft]
  omega

private theorem movedInto_within_iff {frame area : Rect} (harea : area.isValid) :
    (movedInto frame area).Within area ↔ frame.width ≤ area.width ∧ frame.height ≤ area.height := by
  have hvalid : area.left ≤ area.right ∧ area.top ≤ area.bottom := harea
  have hspan : Rect.span area.left area.right = (area.left, area.right) ∧
      Rect.span area.top area.bottom = (area.top, area.bottom) := ⟨if_neg (by omega), if_neg (by omega)⟩
  rw [movedInto, moveTo_within_iff]
  simp only [Rect.contains, hspan, Rect.topLeft, Rect.size, decide_eq_true_eq]
  constructor
  · omega
  · rintro ⟨hw, hh⟩
    simp only [Rect.width, Rect.height] at hw hh ⊢
    split
    · dsimp only
      omega
    · dsimp only
      omega

private theorem keepInArea_within_iff {adjusted : Size → Size} {frame area : Rect} (harea : area.isValid) :
    (keepInArea adjusted frame area false).Within area ↔
      (area.width < frame.width ∨ area.height < frame.height →
        (adjusted ⟨min area.width frame.width, min area.height frame.height⟩).width ≤ area.width ∧
          (adjusted ⟨min area.width frame.width, min area.height frame.height⟩).height ≤ area.height) := by
  have hsize : ∀ (p : Point) (s : Size),
      (Rect.ofPointSize p s).width = s.width ∧ (Rect.ofPointSize p s).height = s.height := by
    intro p s
    simp only [Rect.ofPointSize, Rect.width, Rect.height]
    omega
  have hkeep : keepInArea adjusted frame area false = if area.width < frame.width ∨ area.height < frame.height then
      movedInto (.ofPointSize frame.topLeft (adjusted ⟨min area.width frame.width, min area.height frame.height⟩)) area
    else movedInto frame area := rfl
  rw [hkeep]
  by_cases h : area.width < frame.width ∨ area.height < frame.height
  · rw [if_pos h, movedInto_within_iff harea, (hsize _ _).1, (hsize _ _).2, forall_prop_of_true h]
  · rw [if_neg h, movedInto_within_iff harea]
    exact iff_of_true (by omega) fun hc => absurd hc h

private theorem placeCascaded_snd (s : State) : (t.placeCascaded s).2 =
    if t.Resorts (t.cascading (s.cci (t.window.desktop t.session))) then none else
      some (t.window.frame.moveTo ⟨t.column (t.cascading (s.cci (t.window.desktop t.session))),
        t.row (t.cascading (s.cci (t.window.desktop t.session)))⟩) := by
  simp only [placeCascaded]
  generalize t.cascading (s.cci (t.window.desktop t.session)) = c
  by_cases hoff : c.pos.x ≠ t.area.left ∧ c.pos.y ≠ t.area.top <;>
    by_cases hw : c.pos.x + t.window.frame.width > t.area.width <;>
      by_cases hh : c.pos.y + t.window.frame.height > t.area.height <;>
        simp [Resorts, column, row, NewColumn, NewRow, Wide, Tall, Off, hoff, hw, hh, ite_or, apply_ite Prod.snd]

private theorem cascading_ge (c : Cascading) :
    t.area.left ≤ (t.cascading c).pos.x ∧ t.area.top ≤ (t.cascading c).pos.y := by
  rw [cascading]
  split
  · exact ⟨Int.le_refl _, Int.le_refl _⟩
  · omega

private theorem continues_iff {c : Cascading} (hx : t.area.left ≤ c.pos.x) (hy : t.area.top ≤ c.pos.y)
    (hw : t.window.frame.width < t.area.width) (hh : t.window.frame.height < t.area.height) :
    (t.window.frame.moveTo ⟨t.column c, t.row c⟩).Within t.area ↔ t.Continues c := by
  have hcolumn : t.area.left ≤ t.column c ∧ t.column c + t.window.frame.width ≤ t.area.left + t.area.width ↔
      (t.NewColumn c → t.area.left ≤ t.delta.x * (c.col + 1) ∧
        t.delta.x * (c.col + 1) + t.window.frame.width ≤ t.area.left + t.area.width) ∧
      (¬ t.NewColumn c ∧ ¬ t.Wide c → c.pos.x + t.window.frame.width ≤ t.area.left + t.area.width) := by
    rw [column]
    split
    · simp_all
    split
    · simp_all
      omega
    · simp_all
  have hrow : t.area.top ≤ t.row c ∧ t.row c + t.window.frame.height ≤ t.area.top + t.area.height ↔
      (t.NewRow c → t.area.top ≤ t.delta.y * (c.row + 1) ∧
        t.delta.y * (c.row + 1) + t.window.frame.height ≤ t.area.top + t.area.height) ∧
      (¬ t.NewRow c ∧ ¬ t.Tall c → c.pos.y + t.window.frame.height ≤ t.area.top + t.area.height) := by
    rw [row]
    split
    · simp_all
    split
    · simp_all
      omega
    · simp_all
  rw [moveTo_within_iff, Continues]
  dsimp only
  rw [← and_assoc, hcolumn, hrow]
  tauto

/-- The same frame is given however many rounds there are. -/
private theorem exists_const_iff {frame area : Rect} :
    (∃ r, (∀ᶠ _ in (Filter.atTop : Filter Nat), some frame = some r) ∧ r.Within area) ↔ frame.Within area := by
  constructor
  · rintro ⟨r, hr, hin⟩
    obtain ⟨_, hr⟩ := hr.exists
    exact Option.some.inj hr ▸ hin
  · exact fun h => ⟨frame, .of_forall fun _ => rfl, h⟩

private theorem snapped_of_clear {r : Rect} {left right bottom : Int} (h : t.Clear left right bottom)
    (hleft : left ≤ r.left) (hright : r.right ≤ right) (hbottom : r.bottom ≤ bottom) : t.snapped r = r := by
  unfold snapped
  split
  · obtain ⟨hx, hy⟩ := h ‹_›
    have hdx : (if t.mode.hasHorizontal then 0 else (if r.right = t.fullRect.right then t.margins.right else 0) -
        (if r.left = t.fullRect.left then t.margins.left else 0)) = 0 := by
      split
      · rfl
      · obtain ⟨hl, hr⟩ := hx ‹_›
        rw [show (if r.right = t.fullRect.right then t.margins.right else 0) = 0 by split <;> omega,
          show (if r.left = t.fullRect.left then t.margins.left else 0) = 0 by split <;> omega]
        rfl
    have hdy : (if t.mode.hasVertical then 0 else if r.bottom = t.fullRect.bottom then t.margins.bottom else 0) = 0 := by
      split
      · rfl
      · have := hy ‹_›
        split <;> omega
    simp only [hdx, hdy, Rect.translated, Int.add_zero]
  · rfl

private theorem snapped_size (r : Rect) : (t.snapped r).width = r.width ∧ (t.snapped r).height = r.height := by
  unfold snapped
  split
  · simp only [Rect.translated, Rect.width, Rect.height]
    omega
  · exact ⟨rfl, rfl⟩

private theorem centered_size (r : Rect) : (t.centered r).width = r.width ∧ (t.centered r).height = r.height := by
  simp only [centered, Rect.moveTo, Rect.moveTop, Rect.moveLeft, Rect.width, Rect.height]
  omega

private theorem size_le_of_within {r area : Rect} (h : r.Within area) :
    r.width ≤ area.width ∧ r.height ≤ area.height := by
  simp only [Rect.Within, Rect.width, Rect.height] at h ⊢
  omega

/-- Smart placement ends in the area, where the window is clear. -/
private theorem cascaded_resorts {s : State} (h : t.Smaller .cascaded)
    (hresorts : t.Resorts (t.cascading (s.cci (t.window.desktop t.session)))) (hunmoved : t.Unmoved .cascaded s) :
    ∃ r, (∀ᶠ n in Filter.atTop, t.place .cascaded s n = some r) ∧ r.Within t.area := by
  obtain ⟨p, hplaces, hfits, hfirst⟩ := Request.exists_places_isFirst (R := t.toRequest) ⟨h.1.le, h.2.le⟩
  obtain ⟨hclear, hclear'⟩ := hunmoved hresorts
  have hsnapped : t.snapped (t.frameAt p) = t.frameAt p := by
    rcases hfirst with hfirst | hnone
    · exact snapped_of_clear (hclear p hfirst) (Int.le_refl _) (Int.le_refl _) (Int.le_refl _)
    · exact snapped_of_clear (hclear' hnone) hfits.1 hfits.2.1 hfits.2.2.2
  refine ⟨t.frameAt p, hplaces.mono fun n hn => ?_, hfits⟩
  simp only [place, placeCascaded_snd, hresorts, if_true, hn, Option.map_some, hsnapped]
  rfl

private theorem cascaded_continues {s : State} (h : t.Smaller .cascaded)
    (hresorts : ¬ t.Resorts (t.cascading (s.cci (t.window.desktop t.session)))) :
    (∃ r, (∀ᶠ n in Filter.atTop, t.place .cascaded s n = some r) ∧ r.Within t.area) ↔ t.HasRoom .cascaded s := by
  obtain ⟨hx, hy⟩ := cascading_ge (t := t) (s.cci (t.window.desktop t.session))
  simp only [place, placeCascaded_snd, HasRoom, hresorts, if_false, not_false_eq_true, forall_const]
  exact exists_const_iff.trans (continues_iff hx hy h.1 h.2)

private theorem moveCenter_size (r : Rect) (p : Point) :
    (r.moveCenter p).width = r.width ∧ (r.moveCenter p).height = r.height := by
  simp only [Rect.moveCenter, Rect.width, Rect.height]
  omega

private theorem underMouse_within (hw : t.window.frame.width ≤ t.area.width)
    (hh : t.window.frame.height ≤ t.area.height) : t.placeUnderMouse.Within t.area := by
  obtain ⟨hcw, hch⟩ := moveCenter_size t.window.frame t.cursor
  refine (keepInArea_within_iff t.area_valid).mpr fun hc => ?_
  omega

private theorem onMainWindow_some {lead : Lead} (h : t.Smaller .onMainWindow) (hmain : t.mainWindow = some lead) :
    t.placeOnMainWindow.Within (t.areaFor .onMainWindow) ↔ t.HasRoom .onMainWindow {} := by
  obtain ⟨hw, hh⟩ := h
  have hvalid : t.window.frame.left ≤ t.window.frame.right ∧ t.window.frame.top ≤ t.window.frame.bottom := t.frame_valid
  obtain ⟨hcw, hch⟩ := moveCenter_size t.frameToPlace lead.frame.center
  simp only [placeOnMainWindow, HasRoom, areaFor, hmain, Rect.size] at hw hh ⊢
  rw [keepInArea_within_iff, hcw, hch]
  simp only [Rect.width, Rect.height] at hw hh
  exact ⟨by omega, by omega⟩

private theorem onMainWindow_none (hmain : t.mainWindow = none) (hstays : t.Stays .onMainWindow {}) :
    t.placeOnMainWindow.Within t.area := by
  obtain ⟨hroom, hunmoved⟩ := hstays
  simp only [HasRoom, hmain] at hroom
  obtain ⟨hw, hh⟩ := hroom
  have hclear := hunmoved hmain
  have hin := centered_within hw hh
  have hsnapped : t.snapped (t.centered t.frameToPlace) = t.centered t.frameToPlace := by
    refine snapped_of_clear hclear ?_ ?_ ?_ <;>
      simp only [centered, Rect.moveTo, Rect.moveTop, Rect.moveLeft,
        Int.tdiv_eq_ediv_of_nonneg (show 0 ≤ t.area.width - t.frameToPlace.width by omega),
        Int.tdiv_eq_ediv_of_nonneg (show 0 ≤ t.area.height - t.frameToPlace.height by omega)] <;>
      simp only [Rect.width, Rect.height] <;> omega
  simp only [placeOnMainWindow, hmain, hsnapped]
  exact hin

theorem inArea_of_stays {w : Way} {s : State} (hstays : t.Smaller w → t.Stays w s) : t.InArea w s := by
  intro h
  specialize hstays h
  cases w with
  | random => exact exists_const_iff.mpr ((random_within_iff h.1 h.2).mpr hstays.1)
  | cascaded =>
    by_cases hresorts : t.Resorts (t.cascading (s.cci (t.window.desktop t.session)))
    · exact cascaded_resorts h hresorts hstays.2
    · exact (cascaded_continues h hresorts).mpr hstays.1
  | centered => exact exists_const_iff.mpr (centered_within h.1.le h.2.le)
  | zeroCornered => exact exists_const_iff.mpr (zeroCornered_within h.1.le h.2.le)
  | underMouse => exact exists_const_iff.mpr (underMouse_within h.1.le h.2.le)
  | onMainWindow =>
    refine exists_const_iff.mpr ?_
    cases hmain : t.mainWindow with
    | none => simpa only [areaFor, hmain] using onMainWindow_none hmain hstays
    | some lead => exact (onMainWindow_some h hmain).mpr hstays.1

theorem hasRoom_of_inArea {w : Way} {s : State} (hin : t.InArea w s) (h : t.Smaller w) : t.HasRoom w s := by
  specialize hin h
  cases w with
  | random => exact (random_within_iff h.1 h.2).mp (exists_const_iff.mp hin)
  | cascaded => exact fun hresorts => (cascaded_continues h hresorts).mp hin hresorts
  | centered | zeroCornered | underMouse => trivial
  | onMainWindow =>
    replace hin := exists_const_iff.mp hin
    cases hmain : t.mainWindow with
    | none =>
      simp only [placeOnMainWindow, areaFor, hmain] at hin
      have hsize := size_le_of_within hin
      rw [(snapped_size _).1, (snapped_size _).2, (centered_size _).1, (centered_size _).2] at hsize
      simpa only [HasRoom, hmain] using hsize
    | some lead => exact (onMainWindow_some h hmain).mp hin

end proofs

end Task

/-- Placements, and the initialization of cascading for a desktop or all of them. -/
inductive Event
  | place (t : Task) (w : Way)
  | reinitCascading (desktop : Nat)

namespace Event

def next (s : State) : Event → State
  | place t w => t.after w s
  | reinitCascading desktop => Placement.reinitCascading s desktop

def InArea (s : State) : Event → Prop
  | place t w => t.InArea w s
  | reinitCascading _ => True

/-- What is to hold before an event, of a window smaller than the area. -/
def Stays (s : State) : Event → Prop
  | place t w => t.Smaller w → t.Stays w s
  | reinitCascading _ => True

def HasRoom (s : State) : Event → Prop
  | place t w => t.Smaller w → t.HasRoom w s
  | reinitCascading _ => True

/-- Something holds before each event of a run. -/
def Along (P : State → Event → Prop) : State → List Event → Prop
  | _, [] => True
  | s, e :: es => P s e ∧ Along P (e.next s) es

theorem Along.imp {P Q : State → Event → Prop} (h : ∀ s e, P s e → Q s e) {s : State} {es : List Event}
    (hes : Along P s es) : Along Q s es := by
  induction es generalizing s with
  | nil => trivial
  | cons e es ih => exact ⟨h s e hes.1, ih hes.2⟩

/-- In a run, all windows smaller than their area are placed in it where there is room each time, and border snapping
has nothing to move; there has to be room. -/
theorem along_inArea (es : List Event) :
    (Along Stays {} es → Along InArea {} es) ∧ (Along InArea {} es → Along HasRoom {} es) := by
  constructor
  · refine Along.imp fun s e h => ?_
    cases e with
    | place t w => exact Task.inArea_of_stays h
    | reinitCascading desktop => trivial
  · refine Along.imp fun s e h => ?_
    cases e with
    | place t w => exact Task.hasRoom_of_inArea h
    | reinitCascading desktop => trivial

end Event

/-- A window to be placed alone, without borders. -/
private def plain (area frame : Rect) (delta : Point) (h : area.isValid) (h' : frame.isValid) : Task where
  session := ⟨false, 1⟩
  area := area
  window := { id := 0, frame }
  stackingOrder := []
  area_valid := h
  frame_valid := h'
  size_nonneg := by simp
  delta := delta
  cursor := ⟨0, 0⟩
  leads := []
  placementArea := fun _ => area
  adjusted := id
  maximized := none
  borderSnap := false
  margins := ⟨0, 0, 0, 0⟩
  fullRect := area
  mode := .restore

/-- A screen on the left of the origin. -/
private def onLeft : Task := plain ⟨-1920, 0, -1, 1079⟩ ⟨0, 0, 199, 99⟩ ⟨40, 22⟩ (by decide) (by decide)

/-- A screen with a panel on its left. -/
private def withPanel : Task := plain ⟨50, 0, 549, 399⟩ ⟨0, 0, 99, 389⟩ ⟨10, 8⟩ (by decide) (by decide)

/-- A screen at the origin. -/
private def atOrigin : Task := plain ⟨0, 0, 499, 399⟩ ⟨0, 0, 99, 389⟩ ⟨10, 8⟩ (by decide) (by decide)

private theorem atOrigin_unmoved (w : Way) (s : State) : atOrigin.Unmoved w s := by
  have hclear (left right bottom : Int) : atOrigin.Clear left right bottom := fun hsnap => nomatch hsnap
  cases w with
  | cascaded => exact fun _ => ⟨fun _ _ => hclear _ _ _, fun _ => hclear _ _ _⟩
  | onMainWindow => exact fun _ => hclear _ _ _
  | random | centered | zeroCornered | underMouse => trivial

theorem Event.along_inArea_atOrigin : Along InArea {}
    [place atOrigin .cascaded, place atOrigin .cascaded, place atOrigin .cascaded] :=
  (along_inArea _).1 ⟨fun _ => ⟨fun _ => by decide, atOrigin_unmoved _ _⟩,
    fun _ => ⟨fun _ => by decide, atOrigin_unmoved _ _⟩, fun _ => ⟨fun _ => by decide, atOrigin_unmoved _ _⟩, trivial⟩

private theorem not_inArea {t : Task} {w : Way} {s : State} {r : Rect} (hsmaller : t.Smaller w)
    (hplace : t.place w s 0 = some r) (hmono : ∀ n, t.place w s n = t.place w s 0) (hr : ¬ r.Within (t.areaFor w)) :
    ¬ t.InArea w s := by
  intro h
  obtain ⟨r', hr', hin⟩ := h hsmaller
  obtain ⟨n, hn⟩ := hr'.exists
  obtain rfl := Option.some.inj ((hmono n ▸ hn).symm.trans hplace)
  exact hr hin

/-- Random placement puts the first window at the origin, and the third one cascaded starts a column in the panel. -/
theorem not_along_inArea : ¬ Event.Along Event.InArea {} [.place onLeft .random] ∧
    ¬ Event.Along Event.InArea {}
      [.place withPanel .cascaded, .place withPanel .cascaded, .place withPanel .cascaded] := by
  constructor
  · exact fun h => not_inArea (r := ⟨0, 96, 199, 195⟩) (by decide) (by decide) (fun _ => rfl) (by decide) h.1
  · exact fun h => not_inArea (r := ⟨10, 0, 109, 389⟩) (by decide) (by decide) (fun _ => rfl) (by decide) h.2.2.1

end KWinFT.Placement
