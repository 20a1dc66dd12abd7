import KWinFT.Lib.Acyclic
import KWinFT.Stacking.Order
import KWinFT.Transient.Steps

/-! Without cycles every walk along the relation comes to an end within the number of windows, and
the check that guards new leads in a group tells exactly who follows whom. -/
namespace KWinFT.Transient
open Relation
namespace Windows
variable {s : Windows} {w x l c : Nat} {n : Nat} {tidy : Prop}

def Edge (s : Windows) (l c : Nat) : Prop := l ∈ (s.node c).leads

theorem anyOf_eq_some {α : Type} {f : α → Option Bool} {p : α → Prop} (as : List α)
    (h : ∀ a ∈ as, ∃ b, f a = some b ∧ (b = true ↔ p a)) :
    ∃ b, anyOf f as = some b ∧ (b = true ↔ ∃ a ∈ as, p a) := by
  induction as with
  | nil => exact ⟨false, rfl, by simp⟩
  | cons a as ih =>
    obtain ⟨b, hfa, hb⟩ := h a List.mem_cons_self
    obtain ⟨b', hrest, hb'⟩ := ih fun x hx => h x (List.mem_cons_of_mem a hx)
    unfold anyOf
    rw [hfa]
    cases b with
    | true => exact ⟨true, rfl, by simp [hb.mp rfl]⟩
    | false =>
      have hpa : ¬ p a := fun hpa => by simpa using hb.mpr hpa
      exact ⟨b', hrest, by simp [hb', hpa]⟩

/-- Where it comes to a result, that is the right one. -/
theorem anyOf_sound {α : Type} {f : α → Option Bool} {p : α → Prop} {as : List α} {b : Bool}
    (hb : anyOf f as = some b) (h : ∀ a ∈ as, ∀ b, f a = some b → (b = true ↔ p a)) :
    b = true ↔ ∃ a ∈ as, p a := by
  induction as with
  | nil => cases hb; simp
  | cons a as ih =>
    obtain ⟨ha, has⟩ := List.forall_mem_cons.mp h
    unfold anyOf at hb
    split at hb
    · cases hb
    · next hf =>
      cases hb
      simp [(ha true hf).mp rfl]
    · next hf =>
      have hpa : ¬ p a := fun hpa => by simpa using (ha false hf).mpr hpa
      simp [ih hb has, hpa]

/-- A window is reached over one of its leads. -/
theorem transGen_iff_lead : TransGen (Edge s) x w ↔
    x ∈ (s.node w).leads ∨ ∃ l ∈ (s.node w).leads, TransGen (Edge s) x l := by
  constructor
  · intro ht
    rcases TransGen.tail'_iff.mp ht with ⟨l, hxl, hlw⟩
    rcases reflTransGen_iff_eq_or_transGen.mp hxl with rfl | hxl
    · exact .inl hlw
    · exact .inr ⟨l, hlw, hxl⟩
  · rintro (hxw | ⟨l, hlw, hxl⟩)
    · exact .single hxw
    · exact hxl.tail hlw

/-- Leads have a lower rank, so the climb needs no more fuel than that. -/
theorem Base.isFollowerOf_spec (h : Base tidy s) (hac : Lib.Acyclic (Edge s)) (hx : (s.node x).alive)
    (hn : Lib.rank (Edge s) s.born.toFinset w < n) :
    ∃ b, s.isFollowerOf x n w = some b ∧ (b = true ↔ TransGen (Edge s) x w) := by
  induction n generalizing w with
  | zero => exact absurd hn (Nat.not_lt_zero _)
  | succ n ih =>
    unfold isFollowerOf
    split
    · next hc => exact ⟨true, rfl, by simp [transGen_iff_lead (w := w), (h.mirror x w hx).mpr hc]⟩
    · next hc =>
      obtain ⟨b, hb, hiff⟩ := anyOf_eq_some (f := s.isFollowerOf x n) (p := TransGen (Edge s) x)
        (s.node w).leads fun l hl => ih (by
          have := hac.rank_lt (List.mem_toFinset.mpr (h.lead_born l w hl)) (show Edge s l w from hl)
          omega)
      refine ⟨b, hb, hiff.trans ?_⟩
      rw [transGen_iff_lead, h.mirror x w hx]
      simp [hc]

theorem Base.rank_lt_born (h : Base tidy s) (hac : Lib.Acyclic (Edge s)) (hw : (s.node w).alive) :
    Lib.rank (Edge s) s.born.toFinset w < s.born.length :=
  (hac.rank_lt_card (List.mem_toFinset.mpr (h.born w hw))).trans_le (List.toFinset_card_le _)

theorem Base.follows_spec (h : Base tidy s) (hac : Lib.Acyclic (Edge s)) (hw : (s.node w).alive)
    (hx : (s.node x).alive) : ∃ b, s.follows w x = some b ∧ (b = true ↔ TransGen (Edge s) x w) :=
  h.isFollowerOf_spec hac hx (h.rank_lt_born hac hw)

theorem Base.leadWalk_isSome (h : Base tidy s) (hac : Lib.Acyclic (Edge s))
    (hn : Lib.rank (Edge s) s.born.toFinset w < n) : ∃ walk, s.leadWalk n w = some walk := by
  induction n generalizing w with
  | zero => exact absurd hn (Nat.not_lt_zero _)
  | succ n ih =>
    unfold leadWalk
    split
    · exact ⟨[w], rfl⟩
    · next lead hlead =>
      have hmem : lead ∈ (s.node w).leads := List.mem_of_mem_head? (Option.mem_def.mpr hlead)
      have := hac.rank_lt (List.mem_toFinset.mpr (h.lead_born lead w hmem)) (show Edge s lead w from hmem)
      obtain ⟨walk, hwalk⟩ := ih (w := lead) (by omega)
      exact ⟨w :: walk, by rw [hwalk]; rfl⟩

/-- Stacking the children above a window ends too, whichever of them are restacked. -/
theorem Base.appendChildren_isSome (h : Base tidy s) (hac : Lib.Acyclic (Edge s)) {ws : Stacking.Workspace Nat}
    (hws : ∀ w, ws.children w = (s.node w).children) (hw : (s.node w).alive) (list : List Nat) :
    ∃ stack, ws.appendChildren s.born.length w list = some stack := by
  have hkid {l c : Nat} (hc : c ∈ ws.kids l) : c ∈ (s.node l).children := hws l ▸ (Stacking.Workspace.mem_kids.mp hc).1
  have hfin : Lib.Finitary ws.kids s.born.toFinset := by
    refine ⟨hac.mono fun l c hc => ?_, fun l _ c hc => ?_⟩
    · refine (h.mirror l c ?_).mpr (hkid hc)
      by_contra hl
      have := hkid hc
      rw [(h.dead l (Bool.eq_false_iff.mpr hl)).2] at this
      cases this
    · exact List.mem_toFinset.mpr (h.born c (h.child_alive l c (hkid hc)))
  have hdeep : Lib.Deep ws.kids s.born.toFinset s.born.length w :=
    ⟨List.mem_toFinset.mpr (h.born w hw), (List.toFinset_card_le _).trans (Nat.le_add_left _ _)⟩
  obtain ⟨n, hn⟩ := Nat.exists_eq_succ_of_ne_zero (hfin.deep_pos hdeep)
  rw [hn] at hdeep ⊢
  exact ⟨_, Stacking.Workspace.appendChildren_eq hfin hdeep list⟩

end Windows
end KWinFT.Transient
