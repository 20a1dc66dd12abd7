import KWinFT.Snapping.Order

/-! A window is resized near few others: each of its edges is close to one edge or corner at most that it can snap to,
and what the other edge does makes no difference to that. Then no window is compared with an edge that another one has
moved. -/
namespace KWinFT.Snapping
open KWinFT.Geometry Areas Placement

/-- An edge is drawn to the facing edge of another window, or to the corner beside it. -/
inductive Kind | facing | corner
deriving Repr, DecidableEq

namespace Window
variable (l : Window) (vertical : Bool)

/-- The pixels before and after another window in an axis. -/
def before : Int := if vertical then l.ly else l.lx
def after : Int := if vertical then l.lry else l.lrx

/-- What an end is compared with. -/
def tested : End → Kind → Int
  | .low, .facing | .high, .corner => l.after vertical
  | .high, .facing | .low, .corner => l.before vertical

/-- Where it is put. -/
def target : End → Kind → Int
  | d, .facing => l.tested vertical d .facing
  | .low, .corner => l.before vertical + 1
  | .high, .corner => l.after vertical - 1

end Window

/-- The two edges of an axis. -/
def Span.edges (s : Span) : Int × Int := (s.c, s.r)

namespace Resizing
variable (R : Resizing) (geom : Rect) (mode : Position)

/-- Whether a window is looked at in an axis, which depends on the edges in the other one. -/
def allows (l : Window) (vertical : Bool) : Kind → Int × Int → Bool
  | .facing, other => if vertical then withinWidth geom l else touches other.1 other.2 l.ly l.lry
  | .corner, other => other.1 = l.after (!vertical) ∨ other.2 = l.before (!vertical)

/-- Where the edge of an axis is before windows are looked at. -/
def edge (i : Bool) (d : End) : Int := ((R.start geom mode).span i).edge d

/-- It can be reached in two steps. -/
def Near (i : Bool) (l : Window) (k : Kind) : Prop :=
  ∃ d, movedEnd mode i = some d ∧ qAbs (l.tested i d k - R.edge geom mode i d) < 2 * R.options.windowSnapZone

/-- The edges of an axis with the one that is moved at the target of a window. -/
def drawn (i : Bool) (l : Window) (k : Kind) (d : End) : Span :=
  ((R.start geom mode).span i).put d (l.target i d k) (qAbs (l.target i d k - R.edge geom mode i d))

/-- Edges that an axis may have in the course of it: those before, or with one that is drawn to something near. -/
def Spot (i : Bool) (edges : Int × Int) : Prop :=
  edges = ((R.start geom mode).span i).edges ∨ ∃ l ∈ R.others, ∃ k d, movedEnd mode i = some d ∧
    R.Near geom mode i l k ∧ edges = (R.drawn geom mode i l k d).edges

/-- The edge or corner of a window is near, and is looked at for some edges of the other axis. -/
def Candidate (i : Bool) (l : Window) (k : Kind) : Prop :=
  R.Near geom mode i l k ∧ ∃ other, R.Spot geom mode (!i) other ∧ allows geom l i k other

/-- The borders are those of the right screen. An axis has one window at most that is near, by its edge or its corner
only, and a corner not exactly the zone away where borders have none; whether it is looked at does not depend on the
window that is near in the other axis. -/
structure Sparse : Prop where
  zones : 0 ≤ R.options.borderSnapZone ∧ 0 ≤ R.options.windowSnapZone
  screen : R.options.borderSnapZone = 0 ∨ R.maxRect = R.screenOf geom
  alone : ∀ i, R.others.Pairwise fun l l' => ¬ ((∃ k, R.Candidate geom mode i l k) ∧ ∃ k, R.Candidate geom mode i l' k)
  once : ∀ i, ∀ l ∈ R.others, ¬ (R.Candidate geom mode i l .facing ∧ R.Candidate geom mode i l .corner)
  crossing : ∀ i, ∀ l ∈ R.others, ∀ l' ∈ R.others, ∀ k k' d, l ≠ l' → R.Candidate geom mode i l k →
    R.Candidate geom mode (!i) l' k' → movedEnd mode (!i) = some d →
    allows geom l i k (R.drawn geom mode (!i) l' k' d).edges = allows geom l i k ((R.start geom mode).span (!i)).edges
  corner : R.options.borderSnapZone = 0 → ∀ i, ∀ l ∈ R.others, ∀ d, movedEnd mode i = some d →
    R.Candidate geom mode i l .corner → qAbs (l.target i d .corner - R.edge geom mode i d) ≠ R.options.windowSnapZone

/-- One test of a window, on the edges of an axis and those of the other. -/
def test (i : Bool) (k : Kind) (l : Window) (u : Span) (other : Int × Int) : Span :=
  match k with
  | .facing => u.facing (movedEnd mode i) R.options.snapOnlyWhenOverlapping (allows geom l i .facing other)
      (l.before i) (l.after i)
  | .corner => u.corner (movedEnd mode i) R.options.snapOnlyWhenOverlapping (allows geom l i .corner other)
      (l.before i) (l.after i)

variable {R geom mode}

private theorem turn_eq_tests (s : Buffers) (l : Window) : R.turn geom mode s l =
    let y₁ := R.test geom mode true .facing l s.y s.x.edges
    let x₁ := R.test geom mode false .facing l s.x y₁.edges
    let y₂ := R.test geom mode true .corner l y₁ x₁.edges
    ⟨R.test geom mode false .corner l x₁ y₂.edges, y₂⟩ := rfl

private theorem faced_eq_tests (s : Buffers) (l : Window) : R.faced geom mode s l =
    let y₁ := R.test geom mode true .facing l s.y s.x.edges
    ⟨R.test geom mode false .facing l s.x y₁.edges, y₁⟩ := rfl

/-- A test that does something has found a window closer than the distance to beat. -/
private theorem test_cases (i : Bool) (k : Kind) (l : Window) (u : Span) (other : Int × Int) :
    R.test geom mode i k l u other = u ∨ ∃ d, movedEnd mode i = some d ∧ allows geom l i k other ∧
      qAbs (l.tested i d k - u.edge d) < u.delta ∧
      R.test geom mode i k l u other = u.put d (l.target i d k) (qAbs (l.target i d k - u.edge d)) := by
  unfold test
  cases k <;> cases hd : movedEnd mode i with
  | none => exact .inl rfl
  | some d =>
    cases d <;> simp only [Span.facing, Span.corner, Span.windowLow, Span.windowHigh, Span.cornerLow, Span.cornerHigh] <;>
    · split
      next h =>
        refine .inr ⟨_, rfl, h.2.1, h.2.2, ?_⟩
        simp only [Span.put, Span.edge, Window.target, Window.tested]
        try rw [show ∀ a b : Int, a + 1 - b = a - b + 1 from fun a b => by omega]
        try rw [show ∀ a b : Int, a - 1 - b = a - b - 1 from fun a b => by omega]
      next => exact .inl rfl

/-- The edges as a candidate has left them that was within the zone. -/
def Moved (R : Resizing) (geom : Rect) (mode : Position) (i : Bool) (l : Window) (k : Kind) (u : Span) : Prop :=
  R.Candidate geom mode i l k ∧ ∃ d, movedEnd mode i = some d ∧
    qAbs (l.target i d k - R.edge geom mode i d) ≤ R.options.windowSnapZone ∧ u = R.drawn geom mode i l k d

/-- The edges as they were, or as the window has left them by the tests that were made. -/
def Own (R : Resizing) (geom : Rect) (mode : Position) (i : Bool) (l : Window) (made : List Kind) (u : Span) : Prop :=
  u = (R.start geom mode).span i ∨ ∃ k ∈ made, R.Moved geom mode i l k u

/-- The edges as another window has left them, with nothing to do for this one. -/
def Foreign (R : Resizing) (geom : Rect) (mode : Position) (i : Bool) (l : Window) (u : Span) : Prop :=
  (∃ l' ∈ R.others, l ≠ l' ∧ ∃ k, R.Moved geom mode i l' k u) ∧ ∀ k, ¬ R.Candidate geom mode i l k

/-- In a turn of a window, the edges of an axis against those of its turn at the start: the same, or those that another
window has left where they stay at the start. -/
def Alike (R : Resizing) (geom : Rect) (mode : Position) (i : Bool) (l : Window) (made : List Kind) :
    Option Span → Span → Span → Prop
  | none, u, u₀ => u = u₀ ∧ R.Own geom mode i l made u
  | some v, u, u₀ => u = v ∧ u₀ = (R.start geom mode).span i ∧ R.Foreign geom mode i l v

/-- The edge that is moved is within the zone of where it was, and so is the distance to beat. -/
def Close (R : Resizing) (geom : Rect) (mode : Position) (i : Bool) (u : Span) : Prop :=
  ∀ d, movedEnd mode i = some d →
    qAbs (u.edge d - R.edge geom mode i d) ≤ R.options.windowSnapZone ∧ u.delta ≤ R.options.windowSnapZone

section turn
variable {i : Bool} {l : Window} {k k' : Kind} {u u₀ o o₀ : Span} {made made' : List Kind} {v w : Option Span}
  {other : Int × Int}

private theorem start_delta : ((R.start geom mode).span i).delta = R.options.windowSnapZone := by
  cases i <;> rfl

private theorem close_start (hzone : 0 ≤ R.options.windowSnapZone) :
    R.Close geom mode i ((R.start geom mode).span i) := by
  intro d _
  rw [edge, Int.sub_self, start_delta]
  exact ⟨hzone, Int.le_refl _⟩

private theorem Moved.close (h : R.Moved geom mode i l k u) : R.Close geom mode i u := by
  obtain ⟨-, d', hd', hclose, rfl⟩ := h
  intro d hd
  obtain rfl := Option.some.inj (hd.symm.trans hd')
  cases d <;> exact ⟨hclose, hclose⟩

private theorem Moved.spot (h : R.Moved geom mode i l k u) (hl : l ∈ R.others) : R.Spot geom mode i u.edges := by
  obtain ⟨hc, d, hd, -, rfl⟩ := h
  exact .inr ⟨l, hl, k, d, hd, hc.1, rfl⟩

private theorem Alike.close (h : R.Alike geom mode i l made v u u₀) (hzone : 0 ≤ R.options.windowSnapZone) :
    R.Close geom mode i u ∧ R.Close geom mode i u₀ := by
  cases v with
  | none =>
    obtain ⟨rfl, rfl | ⟨k, -, hmoved⟩⟩ := h
    · exact ⟨close_start hzone, close_start hzone⟩
    · exact ⟨hmoved.close, hmoved.close⟩
  | some v =>
    obtain ⟨rfl, rfl, ⟨_, -, -, _, hmoved⟩, -⟩ := h
    exact ⟨hmoved.close, close_start hzone⟩

private theorem Alike.spot (h : R.Alike geom mode i l made v u u₀) (hl : l ∈ R.others) :
    R.Spot geom mode i u.edges ∧ R.Spot geom mode i u₀.edges := by
  cases v with
  | none =>
    obtain ⟨rfl, rfl | ⟨k, -, hmoved⟩⟩ := h
    · exact ⟨.inl rfl, .inl rfl⟩
    · exact ⟨hmoved.spot hl, hmoved.spot hl⟩
  | some v =>
    obtain ⟨rfl, rfl, ⟨l', hl', -, _, hmoved⟩, -⟩ := h
    exact ⟨hmoved.spot hl', .inl rfl⟩

/-- What passes a test is a candidate. -/
private theorem candidate_of_pass (hclose : R.Close geom mode i u) (hspot : R.Spot geom mode (!i) other) {d : End}
    (hd : movedEnd mode i = some d) (hallows : allows geom l i k other)
    (hpass : qAbs (l.tested i d k - u.edge d) < u.delta) : R.Candidate geom mode i l k := by
  refine ⟨⟨d, hd, ?_⟩, other, hspot, hallows⟩
  obtain ⟨hedge, hdelta⟩ := hclose d hd
  rw [qAbs_eq] at *
  omega

private theorem test_of_not_candidate (hclose : R.Close geom mode i u) (hspot : R.Spot geom mode (!i) other)
    (hno : ¬ R.Candidate geom mode i l k) : R.test geom mode i k l u other = u := by
  rcases test_cases i k l u other with h | ⟨d, hd, hallows, hpass, -⟩
  · exact h
  · exact absurd (candidate_of_pass hclose hspot hd hallows hpass) hno

private theorem Sparse.kind_eq (h : R.Sparse geom mode) (hl : l ∈ R.others) (hk : R.Candidate geom mode i l k)
    (hk' : R.Candidate geom mode i l k') : k = k' := by
  cases k <;> cases k'
  · rfl
  · exact absurd ⟨hk, hk'⟩ (h.once i l hl)
  · exact absurd ⟨hk', hk⟩ (h.once i l hl)
  · rfl

private theorem target_close {d : End} {bound e : Int} (h : qAbs (l.tested i d k - e) < bound) :
    qAbs (l.target i d k - e) ≤ bound := by
  rw [qAbs_eq] at *
  cases k <;> cases d <;> simp only [Window.target, Window.tested] at * <;> omega

/-- Whether the other axis is as at the start or as another window has left it makes no difference. -/
private theorem test_congr (h : R.Sparse geom mode) (hl : l ∈ R.others) (hown : R.Own geom mode i l made u)
    (ho : R.Alike geom mode (!i) l made' w o o₀) (hk : k ∉ made) :
    R.test geom mode i k l u o.edges = R.test geom mode i k l u o₀.edges := by
  cases w with
  | none =>
    obtain ⟨rfl, -⟩ := ho
    rfl
  | some w =>
    obtain ⟨hspot, hspot₀⟩ := ho.spot hl
    by_cases hcandidate : R.Candidate geom mode i l k
    · rcases hown with rfl | ⟨k', hk', hmoved⟩
      · obtain ⟨rfl, rfl, ⟨l', hl', hne, k', hc', d, hd, -, rfl⟩, -⟩ := ho
        have hallows := h.crossing i l hl l' hl' k k' d hne hcandidate hc' hd
        cases k <;> simp only [test, hallows]
      · rw [h.kind_eq hl hcandidate hmoved.1] at hk
        exact absurd hk' hk
    · have hclose : R.Close geom mode i u := by
        rcases hown with rfl | ⟨k', -, hmoved⟩
        · exact close_start h.zones.2
        · exact hmoved.close
      rw [test_of_not_candidate hclose hspot hcandidate, test_of_not_candidate hclose hspot₀ hcandidate]

/-- A test leaves the edges of a turn alike. -/
private theorem Alike.test (h : R.Sparse geom mode) (hl : l ∈ R.others) (hu : R.Alike geom mode i l made v u u₀)
    (ho : R.Alike geom mode (!i) l made' w o o₀) (hk : k ∉ made) : R.Alike geom mode i l (k :: made) v
      (R.test geom mode i k l u o.edges) (R.test geom mode i k l u₀ o₀.edges) := by
  obtain ⟨hclose, hclose₀⟩ := hu.close h.zones.2
  obtain ⟨hspot, hspot₀⟩ := ho.spot hl
  cases v with
  | some v =>
    obtain ⟨rfl, rfl, hforeign⟩ := hu
    exact ⟨test_of_not_candidate hclose hspot (hforeign.2 k), test_of_not_candidate hclose₀ hspot₀ (hforeign.2 k),
      hforeign⟩
  | none =>
    obtain ⟨rfl, hown⟩ := hu
    refine ⟨test_congr h hl hown ho hk, ?_⟩
    rcases test_cases i k l u o.edges with hsame | ⟨d, hd, hallows, hpass, heq⟩
    · rw [hsame]
      exact hown.imp_right fun ⟨k', hk', hmoved⟩ => ⟨k', List.mem_cons_of_mem k hk', hmoved⟩
    · have hcandidate := candidate_of_pass hclose hspot hd hallows hpass
      rcases hown with rfl | ⟨k', hk', hmoved⟩
      · rw [start_delta] at hpass
        exact .inr ⟨k, List.mem_cons_self, hcandidate, d, hd, target_close hpass, heq⟩
      · rw [h.kind_eq hl hcandidate hmoved.1] at hk
        exact absurd hk' hk

/-- A whole turn does. -/
private theorem Alike.turn (h : R.Sparse geom mode) (hl : l ∈ R.others) {s : Buffers} {f : Bool → Option Span}
    (hs : ∀ i, R.Alike geom mode i l [] (f i) (s.span i) ((R.start geom mode).span i)) (i : Bool) :
    R.Alike geom mode i l [.corner, .facing] (f i) ((R.turn geom mode s l).span i)
      ((R.turn geom mode (R.start geom mode) l).span i) := by
  have hy₁ := Alike.test (k := .facing) h hl (hs true) (hs false) List.not_mem_nil
  have hx₁ := Alike.test (k := .facing) h hl (hs false) hy₁ List.not_mem_nil
  have hy₂ := Alike.test (k := .corner) h hl hy₁ hx₁ (by simp)
  have hx₂ := Alike.test (k := .corner) h hl hx₁ hy₂ (by simp)
  rw [turn_eq_tests, turn_eq_tests]
  cases i
  · exact hx₂
  · exact hy₂

end turn

/-- After some turns an axis is as at the start, or as one of the windows has left it. -/
private def Placed (R : Resizing) (geom : Rect) (mode : Position) (done : List Window) (s : Buffers) : Prop :=
  ∀ i, s.span i = (R.start geom mode).span i ∨ ∃ l ∈ done, ∃ k, R.Moved geom mode i l k (s.span i)

/-- An axis that was changed is left alone from then on. -/
private def changed (R : Resizing) (geom : Rect) (mode : Position) (s : Buffers) (i : Bool) : Option Span :=
  if s.span i = (R.start geom mode).span i then none else some (s.span i)

/-- Of windows that take turns, one at most is a candidate in an axis. -/
private theorem Sparse.alone_of_subperm (h : R.Sparse geom mode) {done : List Window} {l l' : Window} {k : Kind}
    {i : Bool} (hdone : (done ++ [l]).Subperm R.others) (hl' : l' ∈ done) (hk : R.Candidate geom mode i l' k) :
    ∀ k, ¬ R.Candidate geom mode i l k := by
  obtain ⟨between, hperm, hsub⟩ := hdone
  have halone := ((h.alone i).sublist hsub).perm hperm fun hno hboth => hno hboth.symm
  exact fun k' hk' => (List.pairwise_append.mp halone).2.2 l' hl' l (List.mem_singleton_self l) ⟨⟨k, hk⟩, k', hk'⟩

private theorem Sparse.alike (h : R.Sparse geom mode) {done : List Window} {l : Window} {s : Buffers}
    (hdone : (done ++ [l]).Subperm R.others) (hs : R.Placed geom mode done s) (i : Bool) :
    R.Alike geom mode i l [] (R.changed geom mode s i) (s.span i) ((R.start geom mode).span i) := by
  unfold changed
  split
  next hsame => exact ⟨hsame, .inl hsame⟩
  next hne =>
    obtain ⟨l', hl', k, hmoved⟩ := (hs i).resolve_left hne
    have hno := h.alone_of_subperm hdone hl' hmoved.1
    refine ⟨rfl, rfl, ⟨l', hdone.subset (List.mem_append_left _ hl'), ?_, k, hmoved⟩, hno⟩
    rintro rfl
    exact hno k hmoved.1

private theorem Sparse.placed (h : R.Sparse geom mode) : ∀ {done : List Window}, done.Subperm R.others →
    R.Placed geom mode done (done.foldl (R.turn geom mode) (R.start geom mode)) := by
  intro done
  induction done using List.reverseRecOn with
  | nil => exact fun _ i => .inl rfl
  | append_singleton done l ih =>
    intro hdone i
    have hs := ih ((List.sublist_append_left done [l]).subperm.trans hdone)
    have hl : l ∈ R.others := hdone.subset (by simp)
    rw [List.foldl_concat]
    have hturn := Alike.turn h hl (h.alike hdone hs) i
    unfold changed at hturn
    split at hturn
    next =>
      rcases hturn.2 with hstart | ⟨k, -, hmoved⟩
      · exact .inl hstart
      · exact .inr ⟨l, by simp, k, hmoved⟩
    next hne =>
      obtain ⟨l', hl', k, hmoved⟩ := (hs i).resolve_left hne
      rw [hturn.1]
      exact .inr ⟨l', List.mem_append_left _ hl', k, hmoved⟩

private theorem Sparse.independent (h : R.Sparse geom mode) :
    Lib.Independent (R.turn geom mode) Buffers.span (R.start geom mode) R.others := by
  intro done l hdone i
  have hs := h.placed ((List.sublist_append_left done [l]).subperm.trans hdone)
  have hturn := Alike.turn h (hdone.subset (by simp)) (h.alike hdone hs) i
  unfold changed at hturn
  constructor
  · intro hsame
    rw [if_pos hsame] at hturn
    exact hturn.1
  · intro hne
    rw [if_neg hne] at hturn
    exact hturn.1

/-- In the first turn an axis stays or is moved by a candidate, by its facing edge if not at last. -/
private theorem Sparse.own (h : R.Sparse geom mode) {l : Window} (hl : l ∈ R.others) (i : Bool) :
    R.Own geom mode i l [.corner, .facing] ((R.turn geom mode (R.start geom mode) l).span i) ∧
    R.Own geom mode i l [.facing] ((R.faced geom mode (R.start geom mode) l).span i) ∧
    ∃ other, R.Spot geom mode (!i) other ∧ (R.turn geom mode (R.start geom mode) l).span i =
      R.test geom mode i .corner l ((R.faced geom mode (R.start geom mode) l).span i) other := by
  have hstart (i : Bool) : R.Alike geom mode i l [] none ((R.start geom mode).span i) ((R.start geom mode).span i) :=
    ⟨rfl, .inl rfl⟩
  have hy₁ := Alike.test (k := .facing) h hl (hstart true) (hstart false) List.not_mem_nil
  have hx₁ := Alike.test (k := .facing) h hl (hstart false) hy₁ List.not_mem_nil
  have hy₂ := Alike.test (k := .corner) h hl hy₁ hx₁ (by simp)
  have hturn := (Alike.turn (f := fun _ => none) h hl hstart i).2
  rw [turn_eq_tests] at hturn ⊢
  rw [faced_eq_tests]
  cases i
  · exact ⟨hturn, hx₁.2, _, (hy₂.spot hl).1, rfl⟩
  · exact ⟨hturn, hy₁.2, _, (hx₁.spot hl).1, rfl⟩

private theorem Sparse.apart (h : R.Sparse geom mode) :
    Lib.Apart (R.turn geom mode) Buffers.span (R.start geom mode) R.others := by
  intro a ha b hb i hca hcb
  obtain ⟨k, -, hka, -⟩ := (h.own ha i).1.resolve_left hca
  obtain ⟨k', -, hkb, -⟩ := (h.own hb i).1.resolve_left hcb
  by_contra hne
  have hboth : ([a] ++ [b]).Subperm R.others := List.subperm_of_subset (by simpa using hne) (by simp [ha, hb])
  exact h.alone_of_subperm hboth (List.mem_singleton_self a) hka k' hkb

/-- A window that was drawn to a facing edge is not drawn to the corner, too. -/
private theorem Sparse.corner_of_faced (h : R.Sparse geom mode) {l : Window} (hl : l ∈ R.others) {i : Bool} {u : Span}
    {other : Int × Int} (hspot : R.Spot geom mode (!i) other) (hmoved : R.Moved geom mode i l .facing u) :
    R.test geom mode i .corner l u other = u :=
  test_of_not_candidate hmoved.close hspot fun hk => nomatch h.kind_eq hl hmoved.1 hk

theorem Sparse.sound (h : R.Sparse geom mode) : R.Sound geom mode where
  zones := h.zones
  screen := h.screen
  independent := h.independent
  apart := h.apart
  once l hl i := by
    obtain ⟨-, hfaced, other, hspot, hturn⟩ := h.own hl i
    rcases hfaced with hstart | ⟨k, hk, hmoved⟩
    · exact .inl hstart
    · rw [List.mem_singleton.mp hk] at hmoved
      exact .inr (hturn.trans (h.corner_of_faced hl hspot hmoved))
  corner hb hpos l hl i d := by
    obtain ⟨-, hfaced, other, hspot, hturn⟩ := h.own hl i
    rw [hturn]
    have hstays {x : Int} : qAbs (x - x) ≠ R.options.windowSnapZone := by
      rw [Int.sub_self, qAbs_eq]
      omega
    rcases hfaced with hstart | ⟨k, hk, hmoved⟩
    · rw [hstart]
      rcases test_cases i .corner l ((R.start geom mode).span i) other with hsame | ⟨d', hd', hallows, hpass, heq⟩
      · rw [hsame]
        exact hstays
      · have hclose : R.Close geom mode i ((R.start geom mode).span i) := close_start h.zones.2
        have hfar := h.corner hb i l hl d' hd' (candidate_of_pass hclose hspot hd' hallows hpass)
        rw [heq]
        cases d <;> cases d' <;> first | exact hstays | exact hfar
    · rw [List.mem_singleton.mp hk] at hmoved
      rw [h.corner_of_faced hl hspot hmoved]
      exact hstays

end Resizing

end KWinFT.Snapping
