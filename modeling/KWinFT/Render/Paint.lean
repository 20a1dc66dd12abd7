import KWinFT.Render.Requests

/-! Painting one output. Effects ask for repaints meanwhile, and of windows that other outputs have to paint too these are told
before. -/
namespace KWinFT.Render
open KWinFT.Geometry Scene PendingRepaints

/-- Each output that has something to paint is woken up, or for windows one of those that have. -/
structure Awake (σ : Setting) (s : Compositor) : Prop where
  output : ∀ o ∈ σ.outputs, (s.output o).repaintsRegion ≠ ∅ → (s.output o).Scheduled
  window : ∀ w ∈ s.windows, s.readyForPainting w → Attended σ s w

/-- Of the other outputs. -/
def AttendedElsewhere (σ : Setting) (o : OutputId) (s : Compositor) (w : Nat) : Prop :=
  (∃ x p, x ≠ o ∧ Wants σ s w x p) → ∃ x p, x ≠ o ∧ (s.output x).Scheduled ∧ Wants σ s w x p

/-- While an output is painted: the windows to come are its own matter. -/
structure Amid (σ : Setting) (o : OutputId) (todo : List Nat) (s : Compositor) : Prop where
  sound : Sound σ s
  on : s.outputsOn
  output : ∀ o ∈ σ.outputs, (s.output o).repaintsRegion ≠ ∅ → (s.output o).Scheduled
  later : ∀ w ∈ s.windows, s.readyForPainting w → w ∈ todo → AttendedElsewhere σ o s w
  done : ∀ w ∈ s.windows, s.readyForPainting w → w ∉ todo → Attended σ s w

/-- The output has this point to paint. -/
def Pending (σ : Setting) (s : Compositor) (o : OutputId) (p : Pixel) : Prop :=
  p ∈ (s.output o).repaintsRegion ∨ ∃ w ∈ s.windows, s.readyForPainting w ∧ Wants σ s w o p

section paint
variable {σ : Setting} {s t : Compositor} {o : OutputId} {w : Nat} {todo : List Nat}

theorem Asked.pending (h : Asked σ s t) {p : Pixel} (hp : Pending σ s o p) : Pending σ t o p := by
  refine hp.imp (h.region o ·) fun ⟨w, hw, hready, hwants⟩ => ⟨w, h.windows ▸ hw, ?_, h.kept w o p hwants⟩
  rw [h.ready]
  exact hready

theorem Asked.output (h : Asked σ s t) (hs : ∀ o ∈ σ.outputs, (s.output o).repaintsRegion ≠ ∅ → (s.output o).Scheduled) :
    ∀ o ∈ σ.outputs, (t.output o).repaintsRegion ≠ ∅ → (t.output o).Scheduled :=
  fun o ho hr => (h.filled o).elim (fun e => h.scheduled (hs o ho (e ▸ hr))) id

theorem Awake.request (ha : Awake σ s) (h : Sound σ s) (hon : s.outputsOn) {r : Request} (hf : r.Fits σ) :
    Awake σ (s.request σ r) := by
  have hasked := request_asked h hf
  refine ⟨hasked.output ha.output, fun w hw hready => ?_⟩
  rw [hasked.windows] at hw
  rw [hasked.ready] at hready
  exact request_attended h hf hon (ha.window w hw hready)

theorem Amid.request (h : Amid σ o todo s) {r : Request} (hn : r.Near σ) : Amid σ o todo (s.request σ r) := by
  have hasked := request_asked h.sound hn.fits
  have hdirect := request_direct h.sound hn
  refine ⟨request_sound h.sound hn.fits, hasked.outputsOn.trans h.on, hasked.output h.output, ?_, ?_⟩
  · intro w hw hready htodo
    rw [hasked.windows] at hw
    rw [hasked.ready] at hready
    rintro ⟨x, p, hx, hp⟩
    rcases hdirect h.on w x p hp with hold | hnew
    · obtain ⟨y, q, hy, hys, hq⟩ := h.later w hw hready htodo ⟨x, p, hx, hold⟩
      exact ⟨y, q, hy, hasked.scheduled hys, hasked.kept w y q hq⟩
    · exact ⟨x, p, hx, hnew, hp⟩
  · intro w hw hready htodo
    rw [hasked.windows] at hw
    rw [hasked.ready] at hready
    exact hdirect.attended hasked h.on (h.done w hw hready htodo)

/-- The effects that an output's painting runs only ask for repaints that are near. -/
theorem Amid.requests (rs : List Request) (hn : ∀ r ∈ rs, r.Near σ) (h : Amid σ o todo s) :
    Amid σ o todo (rs.foldl (Compositor.request σ) s) :=
  Lib.foldl_preserves rs (fun _ r hr ht => ht.request (hn r hr)) h

/-- The repaints of the window on the output are reset. -/
def reset (σ : Setting) (s : Compositor) (o : OutputId) (w : Nat) : Compositor :=
  { s with repaints := Function.update s.repaints w ((s.repaints w).resetRepaints (σ.placed w) o) }

/-- The other outputs still want what they wanted, the painted one nothing. -/
theorem wants_reset (v : Nat) (x : OutputId) (p : Pixel) :
    Wants σ (reset σ s o w) v x p ↔ Wants σ s v x p ∧ (v = w → x ≠ o) := by
  unfold Wants Compositor.waiting reset
  dsimp only
  by_cases hv : v = w
  · subst hv
    rw [Function.update_self, resetRepaints_outputs, List.mem_filter, decide_eq_true_eq]
    constructor
    · rintro ⟨hp, hpo, hx, hne⟩
      exact ⟨⟨((mem_repaints_reset o).mp hp).1, hpo, hx⟩, fun _ => hne⟩
    · rintro ⟨⟨hp, hpo, hx⟩, hne⟩
      have hstay := step_waits (w := σ.placed v) hpo ⟨hp, hx⟩ (e := .resetRepaints o) fun e => hne rfl
        (RepaintEvent.resetRepaints.inj e).symm
      exact ⟨hstay.1, hpo, hx, hne rfl⟩
  · rw [Function.update_of_ne hv]
    exact ⟨fun h => ⟨h, fun e => absurd e hv⟩, And.left⟩

theorem reset_sound (h : Sound σ s) : Sound σ (reset σ s o w) := by
  refine ⟨h.timely, fun v => ?_, fun v => ?_⟩
  · unfold reset
    dsimp only
    rw [Function.update_apply]
    split
    · rw [resetRepaints_outputs]
      exact fun x hx => h.enabled w x (List.mem_filter.mp hx).1
    · exact h.enabled v
  · unfold reset
    dsimp only
    rw [Function.update_apply]
    split
    · next hv =>
      subst hv
      unfold resetRepaints
      dsimp only
      split
      · exact (Finset.image_empty _).trans_subset (Finset.empty_subset _)
      · refine (translated_back _ _).trans_subset (Finset.sdiff_subset.trans (h.within v))
    · exact h.within v

theorem Amid.reset (h : Amid σ o (w :: todo) s) : Amid σ o todo (reset σ s o w) := by
  have helse (v : Nat) (hv : AttendedElsewhere σ o s v) : AttendedElsewhere σ o (Render.reset σ s o w) v := by
    rintro ⟨x, p, hx, hp⟩
    obtain ⟨y, q, hy, hys, hq⟩ := hv ⟨x, p, hx, ((wants_reset ..).mp hp).1⟩
    exact ⟨y, q, hy, hys, (wants_reset ..).mpr ⟨hq, fun _ => hy⟩⟩
  refine ⟨reset_sound h.sound, h.on, h.output, fun v hv hready htodo => ?_, fun v hv hready htodo => ?_⟩
  · exact helse v (h.later v hv hready (List.mem_cons_of_mem w htodo))
  · by_cases he : v = w
    · subst he
      rintro ⟨x, p, hp⟩
      obtain ⟨hp', hx⟩ := (wants_reset ..).mp hp
      obtain ⟨y, q, -, hys, hq⟩ := helse v (h.later v hv hready List.mem_cons_self) ⟨x, p, hx rfl, hp⟩
      exact ⟨y, q, hys, hq⟩
    · rintro ⟨x, p, hp⟩
      have hnot : v ∉ w :: todo := fun hm => (List.mem_cons.mp hm).elim he htodo
      obtain ⟨y, q, hys, hq⟩ := h.done v hv hready hnot ⟨x, p, ((wants_reset ..).mp hp).1⟩
      exact ⟨y, q, hys, (wants_reset ..).mpr ⟨hq, fun e => absurd e he⟩⟩

/-- Effects ask for what is near. -/
structure Paint.Near (σ : Setting) (p : Paint) : Prop where
  before : ∀ r ∈ p.before, r.Near σ
  during : ∀ w, ∀ r ∈ p.during w, r.Near σ
  after : ∀ r ∈ p.after, r.Near σ

theorem Amid.windows {during : Nat → List Request} (hn : ∀ w, ∀ r ∈ during w, r.Near σ) (h : Amid σ o todo s) :
    Amid σ o [] (todo.foldl (Compositor.prepareWindow σ · o during ·) s) := by
  induction todo generalizing s with
  | nil => exact h
  | cons w todo ih => exact ih (Amid.requests (during w) (hn w) h.reset)

end paint
end KWinFT.Render
