import Mathlib.Logic.Relation
import KWinFT.Lib.Runs
import KWinFT.Stacking.Unconstrained

/-! The stack without constraints holds the windows that got a place in it, once each, and what is not moved keeps its
order. -/
namespace KWinFT.Stacking
variable {α : Type*}

/-- Windows are taken out and put in elsewhere, the others stay in order. -/
structure Rearranges (moved : α → Prop) (l l' : List α) : Prop where
  nodup : l.Nodup → l'.Nodup
  mem : ∀ x, x ∈ l' ↔ x ∈ l ∨ moved x
  keeps : ∀ q : α → Bool, (∀ x, moved x → q x = false) → l'.filter q = l.filter q

section lists
variable {moved moved' : α → Prop} {l l' l'' : List α} {w x : α}

theorem Rearranges.refl (h : ∀ x, moved x → x ∈ l) : Rearranges moved l l :=
  ⟨id, fun x => ⟨.inl, fun hx => hx.elim id (h x)⟩, fun _ _ => rfl⟩

theorem Rearranges.trans (h : Rearranges moved l l') (h' : Rearranges moved' l' l'') :
    Rearranges (fun x => moved x ∨ moved' x) l l'' where
  nodup hl := h'.nodup (h.nodup hl)
  mem x := by rw [h'.mem, h.mem, or_assoc]
  keeps q hq := (h'.keeps q fun x hx => hq x (.inr hx)).trans (h.keeps q fun x hx => hq x (.inl hx))

theorem Rearranges.congr (h : Rearranges moved l l') (hmoved : ∀ x, moved x ↔ moved' x) : Rearranges moved' l l' := by
  have heq : moved = moved' := funext fun x => propext (hmoved x)
  exact heq ▸ h

theorem insertBefore_perm (p : α → Bool) (w : α) (l : List α) : (insertBefore p w l).Perm (w :: l) := by
  induction l with
  | nil => exact .refl _
  | cons x xs ih =>
    unfold insertBefore
    split
    · exact .refl _
    · exact (ih.cons x).trans (.swap w x xs)

theorem filter_insertBefore {p q : α → Bool} (h : q w = false) (l : List α) :
    (insertBefore p w l).filter q = l.filter q := by
  induction l with
  | nil => simp [insertBefore, h]
  | cons x xs ih =>
    unfold insertBefore
    split
    · simp [h]
    · rw [List.filter_cons, List.filter_cons, ih]

variable [DecidableEq α]

theorem filter_removeAll {q : α → Bool} (h : q w = false) : (removeAll w l).filter q = l.filter q := by
  rw [removeAll, List.filter_filter]
  refine List.filter_congr fun x _ => ?_
  by_cases hx : x = w
  · simp [hx, h]
  · simp [hx]

/-- Taking a window out and putting it in somewhere. -/
theorem Rearranges.of_perm (hperm : l'.Perm (w :: removeAll w l))
    (hkeeps : ∀ q : α → Bool, q w = false → l'.filter q = (removeAll w l).filter q) :
    Rearranges (· = w) l l' where
  nodup hl := hperm.nodup_iff.mpr (List.nodup_cons.mpr ⟨by simp, nodup_removeAll hl⟩)
  mem x := by
    rw [hperm.mem_iff, List.mem_cons, mem_removeAll]
    by_cases hx : x = w <;> simp [hx]
  keeps q hq := (hkeeps q (hq w rfl)).trans (filter_removeAll (hq w rfl))

theorem Rearranges.push_front : Rearranges (· = w) l (w :: removeAll w l) :=
  .of_perm (.refl _) fun _ hq => List.filter_cons_of_neg (by simp [hq])

theorem Rearranges.push_back : Rearranges (· = w) l (removeAll w l ++ [w]) :=
  .of_perm (List.perm_append_singleton w _) fun _ hq => by simp [hq]

theorem Rearranges.before (p : α → Bool) : Rearranges (· = w) l (insertBefore p w (removeAll w l)) :=
  .of_perm (insertBefore_perm p w _) fun _ hq => filter_insertBefore hq _

theorem insertAfter_perm {other : α} (h : other ∈ l) (w : α) : (insertAfter other w l).Perm (w :: l) := by
  induction l with
  | nil => cases h
  | cons x xs ih =>
    unfold insertAfter
    split
    · exact .swap w x xs
    · rename_i hx
      have hmem : other ∈ xs := (List.mem_cons.mp h).resolve_left fun he => hx he.symm
      exact ((ih hmem).cons x).trans (.swap w x xs)

theorem filter_insertAfter {other : α} {q : α → Bool} (h : q w = false) (l : List α) :
    (insertAfter other w l).filter q = l.filter q := by
  induction l with
  | nil => rfl
  | cons x xs ih =>
    unfold insertAfter
    split
    · simp only [List.filter_cons, h]
      rfl
    · rw [List.filter_cons, List.filter_cons, ih]

theorem Rearranges.after {other : α} (h : other ∈ l) (hne : other ≠ w) :
    Rearranges (· = w) l (insertAfter other w (removeAll w l)) :=
  .of_perm (insertAfter_perm (mem_removeAll.mpr ⟨h, hne⟩) w) fun _ hq => filter_insertAfter hq _

end lists

namespace Setting
variable {e : Setting α} {fuel : Nat} {lead window x : α} {acc ls : List α}

/-- A lead is followed by its first lead. -/
def First (e : Setting α) (lead next : α) : Prop := (e.leads lead).head? = some next

/-- A lead of the window, or on the way from one through first leads. -/
def AboveOf (e : Setting α) (window x : α) : Prop := ∃ lead ∈ e.leads window, Relation.ReflTransGen e.First lead x

variable [DecidableEq α]

theorem mem_climb (h : e.climb fuel lead acc = some ls) :
    x ∈ ls ↔ x ∈ acc ∨ Relation.ReflTransGen e.First lead x := by
  induction fuel generalizing lead acc with
  | zero => cases h
  | succ fuel ih =>
    have hacc : x ∈ (if lead ∈ acc then acc else acc ++ [lead]) ↔ x ∈ acc ∨ lead = x := by
      split
      · next hmem => exact ⟨.inl, fun hx => hx.elim id fun he => he ▸ hmem⟩
      · rw [List.mem_append, List.mem_singleton, eq_comm]
    rw [Relation.ReflTransGen.cases_head_iff]
    unfold climb at h
    cases hnext : (e.leads lead).head? with
    | none =>
      simp only [hnext, Option.some.injEq] at h
      rw [← h, hacc]
      refine or_congr_right ⟨.inl, fun hx => hx.elim id fun ⟨next, hnext', _⟩ => ?_⟩
      cases hnext.symm.trans hnext'
    | some next =>
      simp only [hnext] at h
      rw [ih h, hacc, or_assoc]
      refine or_congr_right (or_congr_right ⟨fun hx => ⟨next, hnext, hx⟩, fun ⟨next', hnext', hx⟩ => ?_⟩)
      cases hnext.symm.trans hnext'
      exact hx

theorem mem_allLeads (h : e.allLeads fuel window = some ls) : x ∈ ls ↔ e.AboveOf window x := by
  have hloop : ∀ (leads acc ls : List α), leads.foldlM (fun leads lead => e.climb fuel lead leads) acc = some ls →
      (x ∈ ls ↔ x ∈ acc ∨ ∃ lead ∈ leads, Relation.ReflTransGen e.First lead x) := by
    intro leads
    induction leads with
    | nil =>
      intro acc ls h
      cases h
      simp
    | cons lead leads ih =>
      intro acc ls h
      rw [List.foldlM_cons] at h
      obtain ⟨next, hnext, h⟩ := Option.bind_eq_some_iff.mp h
      rw [ih next ls h, mem_climb hnext, or_assoc, List.exists_mem_cons_iff]
  rw [hloop _ _ _ h, AboveOf]
  simp

/-- The walk ends where the chain of first leads does. -/
theorem exists_climb (h : Acc (fun next lead => e.First lead next) lead) :
    ∃ enough, ∀ fuel ≥ enough, ∀ acc, (e.climb fuel lead acc).isSome := by
  induction h with
  | intro lead _ ih =>
    cases hnext : (e.leads lead).head? with
    | none =>
      refine ⟨1, fun fuel hfuel acc => ?_⟩
      obtain ⟨fuel, rfl⟩ := Nat.exists_eq_add_of_le' hfuel
      simp [climb, hnext]
    | some next =>
      obtain ⟨enough, henough⟩ := ih next hnext
      refine ⟨enough + 1, fun fuel hfuel acc => ?_⟩
      obtain ⟨fuel, rfl⟩ := Nat.exists_eq_add_of_le' hfuel
      rw [← Nat.add_assoc, climb]
      simp only [hnext]
      exact henough _ (Nat.le_add_left ..) _

theorem exists_allLeads (h : ∀ lead ∈ e.leads window, Acc (fun next lead => e.First lead next) lead) :
    ∃ fuel, (e.allLeads fuel window).isSome := by
  have hloop : ∀ leads : List α, (∀ lead ∈ leads, Acc (fun next lead => e.First lead next) lead) →
      ∃ enough, ∀ fuel ≥ enough, ∀ acc,
        (leads.foldlM (fun leads lead => e.climb fuel lead leads) acc).isSome := by
    intro leads
    induction leads with
    | nil => exact fun _ => ⟨0, fun _ _ _ => rfl⟩
    | cons lead leads ih =>
      intro hleads
      obtain ⟨hlead, hleads⟩ := List.forall_mem_cons.mp hleads
      obtain ⟨n, hn⟩ := exists_climb hlead
      obtain ⟨m, hm⟩ := ih hleads
      refine ⟨max n m, fun fuel hfuel acc => ?_⟩
      obtain ⟨next, hnext⟩ := Option.isSome_iff_exists.mp (hn fuel (le_of_max_le_left hfuel) acc)
      rw [List.foldlM_cons, hnext]
      exact hm fuel (le_of_max_le_right hfuel) next
  obtain ⟨enough, henough⟩ := hloop _ h
  exact ⟨enough, henough enough (Nat.le_refl _) []⟩

end Setting

namespace Stack
variable {e : Setting α} {s s' t : Stack α} {moved moved' : α → Prop} {w window : α}

/-- The count of blockers is as it was, and windows have been rearranged. -/
structure Steady (moved : α → Prop) (s s' : Stack α) : Prop where
  blocked : s'.blockStackingUpdates = s.blockStackingUpdates
  rearranged : Rearranges moved s.unconstrained s'.unconstrained

@[simp]
theorem unconstrained_updateStackingOrder (propagateNewClients : Bool) :
    (s.updateStackingOrder e propagateNewClients).unconstrained = s.unconstrained := by
  unfold updateStackingOrder
  split <;> rfl

@[simp]
theorem blockStackingUpdates_updateStackingOrder (propagateNewClients : Bool) :
    (s.updateStackingOrder e propagateNewClients).blockStackingUpdates = s.blockStackingUpdates := by
  unfold updateStackingOrder
  split <;> rfl

@[simp]
theorem unconstrained_block : s.block.unconstrained = s.unconstrained := rfl

@[simp]
theorem blockStackingUpdates_block : s.block.blockStackingUpdates = s.blockStackingUpdates + 1 := rfl

@[simp]
theorem unconstrained_unblock : (s.unblock e).unconstrained = s.unconstrained := by
  unfold unblock
  dsimp only
  split <;> simp

@[simp]
theorem blockStackingUpdates_unblock : (s.unblock e).blockStackingUpdates = s.blockStackingUpdates - 1 := by
  unfold unblock
  dsimp only
  split <;> simp

theorem Steady.refl (h : ∀ x, moved x → x ∈ s.unconstrained) : Steady moved s s := ⟨rfl, .refl h⟩

theorem Steady.trans (h : Steady moved s s') (h' : Steady moved' s' t) :
    Steady (fun x => moved x ∨ moved' x) s t :=
  ⟨h'.blocked.trans h.blocked, h.rearranged.trans h'.rearranged⟩

theorem Steady.congr (h : Steady moved s s') (hmoved : ∀ x, moved x ↔ moved' x) : Steady moved' s s' :=
  ⟨h.blocked, h.rearranged.congr hmoved⟩

/-- What is done between making a blocker and letting it go. -/
theorem Steady.of_blocked (hb : s'.blockStackingUpdates = s.blockStackingUpdates + 1)
    (hr : Rearranges moved s.unconstrained s'.unconstrained) : Steady moved s (s'.unblock e) :=
  ⟨by rw [blockStackingUpdates_unblock, hb, Int.add_sub_cancel], by rwa [unconstrained_unblock]⟩

/-- A loop that moves some of its windows. -/
theorem Steady.foldlM {f : Stack α → α → Option (Stack α)} {p : α → Prop}
    (hf : ∀ s w s', f s w = some s' → Steady (fun x => x = w ∧ p w) s s') (ws : List α)
    (h : ws.foldlM f s = some s') : Steady (fun x => x ∈ ws ∧ p x) s s' := by
  induction ws generalizing s with
  | nil =>
    cases h
    exact .refl fun x hx => absurd hx.1 List.not_mem_nil
  | cons w ws ih =>
    rw [List.foldlM_cons] at h
    obtain ⟨u, hu, h⟩ := Option.bind_eq_some_iff.mp h
    refine ((hf s w u hu).trans (ih h)).congr fun x => ?_
    rw [List.mem_cons]
    constructor
    · rintro (⟨rfl, hp⟩ | ⟨hx, hp⟩)
      · exact ⟨.inl rfl, hp⟩
      · exact ⟨.inr hx, hp⟩
    · rintro ⟨rfl | hx, hp⟩
      · exact .inl ⟨rfl, hp⟩
      · exact .inr ⟨hx, hp⟩

variable [DecidableEq α]

@[simp]
theorem unconstrained_cleanup : (s.cleanup w).unconstrained = s.unconstrained := rfl

@[simp]
theorem blockStackingUpdates_cleanup : (s.cleanup w).blockStackingUpdates = s.blockStackingUpdates := rfl

/-- The other windows of the group that are lowered with a transient. -/
def LowersWith (e : Setting α) (window x : α) : Prop :=
  e.leads window ≠ [] ∧ ∃ members, e.members window = some members ∧ x ∈ members ∧ x ≠ window

theorem steady_lowerGroup (h : s.lowerGroup e window = some s') : Steady (LowersWith e window) s s' := by
  unfold lowerGroup at h
  split at h
  · next hnone =>
    cases h
    refine .refl fun x hx => ?_
    obtain ⟨hleads, members, hmembers, -⟩ := hx
    rw [if_neg (by simpa using hleads), hmembers] at hnone
    cases hnone
  · next members hmembers =>
    obtain ⟨hleads, hmembers⟩ := Option.ite_none_left_eq_some.mp hmembers
    have hloop := Steady.foldlM (p := (· ≠ window)) (fun s gwin u hu => ?_) _ h
    · refine hloop.congr fun x => ?_
      rw [List.mem_reverse, mem_ensureStackingOrderInList]
      constructor
      · rintro ⟨hx, hne⟩
        exact ⟨by simpa using hleads, members, hmembers, hx, hne⟩
      · rintro ⟨-, members', hmembers', hx, hne⟩
        cases hmembers.symm.trans hmembers'
        exact ⟨hx, hne⟩
    · split at hu
      · next heq =>
        cases hu
        exact .refl fun x hx => absurd heq hx.2
      · next hne =>
        obtain ⟨-, hu⟩ := Option.ite_none_right_eq_some.mp hu
        cases hu
        have hlow : Steady (· = gwin) s ((s.doLower gwin).unblock e) := .of_blocked rfl .push_front
        exact ⟨hlow.blocked, hlow.rearranged.congr fun x => by simp [hne]⟩

theorem steady_lowerWindow (h : s.lowerWindow e window = some s') :
    Steady (fun x => x = window ∨ LowersWith e window x) s s' := by
  obtain ⟨-, h⟩ := Option.ite_none_right_eq_some.mp h
  obtain ⟨u, hu, h⟩ := Option.bind_eq_some_iff.mp h
  cases h
  have hgroup := steady_lowerGroup hu
  exact .of_blocked (hgroup.blocked.trans rfl) (Rearranges.push_front.trans hgroup.rearranged)

theorem steady_lowerClientWithinApplication : Steady (· = window) s (s.lowerClientWithinApplication e window) := by
  refine .of_blocked rfl ?_
  dsimp only
  split
  · exact .before _
  · exact .push_front

/-- A raised window and those of its leads that have a control. -/
def RaisesWith (e : Setting α) (window x : α) : Prop := e.AboveOf window x ∧ e.control x

theorem steady_raiseWindow {fuel : Nat} (h : s.raiseWindow e fuel window = some s') :
    Steady (fun x => RaisesWith e window x ∨ x = window) s s' := by
  obtain ⟨-, h⟩ := Option.ite_none_right_eq_some.mp h
  obtain ⟨leads, hleads, h⟩ := Option.bind_eq_some_iff.mp h
  cases h
  have hloop : ∀ (ws : List α) (s : Stack α), Steady (fun x => x ∈ ws ∧ e.control x) s
      (ws.foldl (fun s lead => if e.control lead then (s.block.doRaise e lead).unblock e else s) s) := by
    intro ws s
    refine Steady.foldlM (p := fun x => e.control x = true)
      (f := fun s lead => some (if e.control lead then (s.block.doRaise e lead).unblock e else s))
      (fun s w u hu => ?_) ws List.foldlM_pure
    cases hu
    split
    · next hw => exact (Steady.of_blocked rfl .push_back).congr fun x => ⟨fun hx => ⟨hx, hx ▸ hw⟩, And.left⟩
    · next hw => exact .refl fun x hx => absurd (hx.1 ▸ hx.2) hw
  have hraised := hloop (ensureStackingOrderInList s.block.stackingOrder leads) s.block
  refine .of_blocked hraised.blocked ((hraised.rearranged.trans .push_back).congr fun x => ?_)
  rw [mem_ensureStackingOrderInList, Setting.mem_allLeads hleads, RaisesWith]

/-- Raising a window with a control comes to an end when the chains of first leads do. -/
theorem exists_raiseWindow (hcontrol : e.control window)
    (hleads : ∀ lead ∈ e.leads window, Acc (fun next lead => e.First lead next) lead) (s : Stack α) :
    ∃ fuel, (s.raiseWindow e fuel window).isSome := by
  obtain ⟨fuel, hfuel⟩ := Setting.exists_allLeads hleads
  obtain ⟨leads, hleads⟩ := Option.isSome_iff_exists.mp hfuel
  refine ⟨fuel, ?_⟩
  simp [raiseWindow, hcontrol, hleads]

theorem steady_raiseClientWithinApplication :
    Steady (fun x => x = window ∧ ∃ other ∈ s.unconstrained, other = window ∨ e.belongToSameClient other window) s
      (s.raiseClientWithinApplication e window) := by
  refine .of_blocked ?_ ?_
  · split
    · rfl
    · split <;> rfl
  · split
    · next hnone =>
      refine .refl fun x hx => ?_
      obtain ⟨-, other, hother, hsame⟩ := hx
      exact absurd hsame (by simpa using List.find?_eq_none.mp hnone other (by simpa using hother))
    · next other hsome =>
      have hmem : other ∈ s.unconstrained := by simpa using List.mem_of_find?_eq_some hsome
      have hsame : other = window ∨ e.belongToSameClient other window := by simpa using List.find?_some hsome
      split
      · next heq => exact .refl fun x hx => hx.1 ▸ heq ▸ hmem
      · next hne => exact (Rearranges.after hmem hne).congr fun x => ⟨fun hx => ⟨hx, other, hmem, hsame⟩, And.left⟩

theorem steady_restack {under : α} {force : Bool} (h : s.restack e window under force = some s') :
    Steady (· = window) s s' := by
  obtain ⟨-, h⟩ := Option.ite_none_right_eq_some.mp h
  obtain ⟨hmem, h⟩ := Option.ite_none_right_eq_some.mp h
  cases h
  refine ⟨?_, ?_⟩
  · rw [blockStackingUpdates_updateStackingOrder]
    split <;> rfl
  · rw [unconstrained_updateStackingOrder]
    revert hmem
    split
    · exact fun hmem => .refl fun x hx => hx ▸ hmem
    · exact fun _ => .before _

theorem steady_restoreSessionStackingOrder :
    Steady (fun x => x = window ∧ 0 ≤ e.smStackingOrder window) s (s.restoreSessionStackingOrder e window) := by
  unfold restoreSessionStackingOrder
  split
  · next hlt => exact .refl fun x hx => absurd hx.2 (Int.not_le.mpr hlt)
  · next hge =>
    exact (Steady.of_blocked rfl (.before _)).congr fun x => ⟨fun hx => ⟨hx, Int.not_lt.mp hge⟩, And.left⟩

end Stack

end KWinFT.Stacking
