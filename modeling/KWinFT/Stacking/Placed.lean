import KWinFT.Stacking.Stable

/-! Which windows are in the stack without constraints after any sequence of operations, and where. -/
namespace KWinFT.Stacking
variable {α : Type*} [DecidableEq α]

namespace Op

/-- The windows that an operation puts elsewhere, of those there or not. -/
def Moves (e : Setting α) (there : α → Prop) : Op α → α → Prop
  | .raise _ window, x => Stack.RaisesWith e window x ∨ x = window
  | .lower window, x => x = window ∨ Stack.LowersWith e window x
  | .raiseWithinApplication window, x =>
    x = window ∧ ∃ other, there other ∧ (other = window ∨ e.belongToSameClient other window)
  | .lowerWithinApplication window, x => x = window
  | .restack window _ _, x => x = window
  | .restoreSession window, x => x = window ∧ 0 ≤ e.smStackingOrder window
  | .add _, _ => False
  | .addDeleted _ _, _ => False
  | .removeDeleted _, _ => False

/-- What an operation makes of the stack. -/
def Effect (e : Setting α) (l l' : List α) : Op α → Prop
  | .add window => l' = if window ∈ l then l else l ++ [window]
  | .addDeleted remnant original =>
    l' = if original ∈ l then l.map fun x => if x = original then remnant else x else l ++ [remnant]
  | .removeDeleted window => l' = removeAll window l
  | op => Rearranges (op.Moves e (· ∈ l)) l l'

/-- A remnant is a window that was made for it. -/
def Fresh (s : Stack α) : Op α → Prop
  | .addDeleted remnant _ => remnant ∉ s.unconstrained
  | _ => True

end Op

/-- Operations, the last one first, each with the windows as they are then. -/
abbrev History (α : Type*) := List (Setting α × Op α)

/-- The windows that have a place: those added or moved, until they are removed or their remnants take it. -/
def Placed : History α → α → Prop
  | [], _ => False
  | (_, .add window) :: es, x => Placed es x ∨ x = window
  | (_, .addDeleted remnant original) :: es, x => (Placed es x ∧ x ≠ original) ∨ x = remnant
  | (_, .removeDeleted window) :: es, x => Placed es x ∧ x ≠ window
  | (e, op) :: es, x => Placed es x ∨ op.Moves e (Placed es) x

/-- The windows that were added, until they are removed or their remnants are added. -/
def Added : History α → α → Prop
  | [], _ => False
  | (_, .add window) :: es, x => Added es x ∨ x = window
  | (_, .addDeleted remnant original) :: es, x => (Added es x ∧ x ≠ original) ∨ x = remnant
  | (_, .removeDeleted window) :: es, x => Added es x ∧ x ≠ window
  | _ :: es, x => Added es x

/-- Operations from an empty stack on. Between them may happen what does not edit it. -/
inductive Run : History α → Stack α → Prop
  | start (s : Stack α) : s.unconstrained = [] → Run [] s
  | perform {es : History α} {s s' : Stack α} (e : Setting α) (op : Op α) :
    Run es s → op.Fresh s → s.perform e op = some s' → Run ((e, op) :: es) s'
  | other {es : History α} {s s' : Stack α} : Run es s → s'.unconstrained = s.unconstrained → Run es s'

section effects
variable {e : Setting α} {s s' : Stack α} {op : Op α} {l l' : List α} {remnant original : α}

theorem replace_eq_map (h : l.Nodup) (original remnant : α) :
    l.replace original remnant = l.map fun x => if x = original then remnant else x := by
  induction l with
  | nil => rfl
  | cons x xs ih =>
    obtain ⟨hx, hxs⟩ := List.nodup_cons.mp h
    rw [List.replace_cons, List.map_cons]
    by_cases heq : x = original
    · have hrest : (xs.map fun y => if y = original then remnant else y) = xs := by
        refine (List.map_congr_left fun y hy => if_neg fun hyo => hx ?_).trans (List.map_id' xs)
        rwa [heq, ← hyo]
      rw [hrest, if_pos heq, heq, beq_self_eq_true]
    · rw [if_neg heq, ← ih hxs, beq_false_of_ne (Ne.symm heq)]

theorem effect_perform (h : s.perform e op = some s') (hs : s.unconstrained.Nodup) :
    s'.blockStackingUpdates = s.blockStackingUpdates ∧ op.Effect e s.unconstrained s'.unconstrained := by
  cases op with
  | raise fuel window =>
    have := Stack.steady_raiseWindow h
    exact ⟨this.blocked, this.rearranged⟩
  | lower window =>
    have := Stack.steady_lowerWindow h
    exact ⟨this.blocked, this.rearranged⟩
  | raiseWithinApplication window =>
    cases h
    exact ⟨Stack.steady_raiseClientWithinApplication.blocked, Stack.steady_raiseClientWithinApplication.rearranged⟩
  | lowerWithinApplication window =>
    cases h
    exact ⟨Stack.steady_lowerClientWithinApplication.blocked, Stack.steady_lowerClientWithinApplication.rearranged⟩
  | restack window under force =>
    have := Stack.steady_restack h
    exact ⟨this.blocked, this.rearranged⟩
  | restoreSession window =>
    cases h
    exact ⟨Stack.steady_restoreSessionStackingOrder.blocked, Stack.steady_restoreSessionStackingOrder.rearranged⟩
  | add window =>
    cases h
    exact ⟨Stack.blockStackingUpdates_updateStackingOrder true, Stack.unconstrained_updateStackingOrder true⟩
  | addDeleted remnant original =>
    obtain ⟨-, h⟩ := Option.ite_none_left_eq_some.mp h
    cases h
    exact ⟨rfl, by rw [Op.Effect, replace_eq_map hs]⟩
  | removeDeleted window =>
    obtain ⟨-, h⟩ := Option.ite_none_right_eq_some.mp h
    cases h
    exact ⟨rfl, rfl⟩

theorem nodup_of_effect (h : op.Effect e l l') (hfresh : ∀ c o, op = .addDeleted c o → c ∉ l) (hl : l.Nodup) :
    l'.Nodup := by
  cases op with
  | add window =>
    rw [show l' = _ from h]
    split
    · exact hl
    · next hw => exact List.concat_eq_append ▸ hl.concat hw
  | addDeleted remnant original =>
    have hnew := hfresh remnant original rfl
    rw [show l' = _ from h]
    split
    · clear * - hl hnew
      refine List.Nodup.map_on (fun x hx y hy heq => ?_) hl
      split at heq <;> split at heq
      · next hxo hyo => rw [hxo, hyo]
      · exact absurd (heq ▸ hy) hnew
      · exact absurd (heq ▸ hx) hnew
      · exact heq
    · exact List.concat_eq_append ▸ hl.concat hnew
  | removeDeleted window =>
    rw [show l' = _ from h]
    exact nodup_removeAll hl
  | _ => exact Rearranges.nodup h hl

theorem mem_of_effect {es : History α} (h : op.Effect e l l') (hl : ∀ x, x ∈ l ↔ Placed es x) (x : α) :
    x ∈ l' ↔ Placed ((e, op) :: es) x := by
  have hthere : (· ∈ l) = Placed es := funext fun x => propext (hl x)
  cases op with
  | add window =>
    rw [show l' = _ from h, Placed, ← hl]
    split
    · next hw => exact ⟨.inl, fun hx => hx.elim id fun he => he ▸ hw⟩
    · rw [List.mem_append, List.mem_singleton]
  | addDeleted remnant original =>
    rw [show l' = _ from h, Placed, ← hl]
    split
    · next ho =>
      rw [List.mem_map]
      constructor
      · rintro ⟨y, hy, rfl⟩
        split
        · exact .inr rfl
        · next hyo => exact .inl ⟨hy, hyo⟩
      · rintro (⟨hx, hne⟩ | rfl)
        · exact ⟨x, hx, if_neg hne⟩
        · exact ⟨original, ho, if_pos rfl⟩
    · next ho =>
      rw [List.mem_append, List.mem_singleton]
      exact or_congr_left ⟨fun hx => ⟨hx, fun he => ho (he ▸ hx)⟩, And.left⟩
  | removeDeleted window =>
    rw [show l' = _ from h, Placed, ← hl, mem_removeAll]
  | _ => exact (Rearranges.mem h x).trans (or_congr (hl x) (by rw [hthere]))

end effects

theorem Run.stack_spec {es : History α} {s : Stack α} (h : Run es s) :
    s.unconstrained.Nodup ∧ ∀ x, x ∈ s.unconstrained ↔ Placed es x := by
  induction h with
  | start s hs =>
    rw [hs]
    exact ⟨List.nodup_nil, fun x => ⟨fun hx => absurd hx List.not_mem_nil, False.elim⟩⟩
  | perform e op _ hfresh hstep ih =>
    obtain ⟨hnodup, hmem⟩ := ih
    obtain ⟨-, heffect⟩ := effect_perform hstep hnodup
    refine ⟨nodup_of_effect heffect ?_ hnodup, mem_of_effect heffect hmem⟩
    rintro c o rfl
    exact hfresh
  | other _ hsame ih => rwa [hsame]

/-- After any sequence of operations, each window that has a place is in the stack once, and no others are. The next
operation leaves the blockers as they were and the order of what it does not move. -/
theorem Run.order_from_history {es : History α} {s : Stack α} (h : Run es s) :
    s.unconstrained.Nodup ∧ (∀ x, x ∈ s.unconstrained ↔ Placed es x) ∧
      ∀ e op s', s.perform e op = some s' → s'.blockStackingUpdates = s.blockStackingUpdates ∧
        op.Effect e s.unconstrained s'.unconstrained :=
  ⟨h.stack_spec.1, h.stack_spec.2, fun _ _ _ hstep => effect_perform hstep h.stack_spec.1⟩

/-- Window 1 is transient for 0, all have controls. -/
private def pair : Setting Nat where
  leads w := if w = 1 then [0] else []
  control _ := true
  members _ := none
  layer _ := .normal
  x11 _ := true
  belongToSameClient v w := v = w
  isSpecialWindow _ := false
  smStackingOrder _ := 0
  constrainedStackingOrder unconstrained _ := unconstrained

private def emptyStack : Stack Nat := ⟨[], [], [], 0, false, none⟩

private def pairHistory : History Nat :=
  [(pair, .addDeleted 3 0), (pair, .raise 2 1), (pair, .add 2), (pair, .add 1), (pair, .add 0)]

private theorem run_pairHistory : Run pairHistory ⟨[2, 3, 1], [2, 3, 1], [0, 1, 2, 3], 0, false, some 1⟩ := by
  have hadded : Run [(pair, .add 2), (pair, .add 1), (pair, .add 0)] _ :=
    .perform pair _ (.perform pair _ (.perform pair _ (.start emptyStack rfl) trivial rfl) trivial rfl) trivial rfl
  refine .perform pair _ (.perform pair _ hadded trivial rfl) ?_ rfl
  exact (by decide : (3 : Nat) ∉ [2, 0, 1])

theorem stable_pairHistory : ([2, 3, 1] : List Nat).Nodup ∧ (∀ x, x ∈ ([2, 3, 1] : List Nat) ↔ Placed pairHistory x) :=
  ⟨run_pairHistory.order_from_history.1, run_pairHistory.order_from_history.2.1⟩

/-- A window gets a place before it is added, when the stack of the last session is restored. -/
theorem not_added_restored : ¬ ∀ (es : History Nat) (s : Stack Nat), Run es s → ∀ x, x ∈ s.unconstrained ↔ Added es x := by
  intro h
  have hrun : Run [(pair, .restoreSession 1)] ⟨[1], [1], [], 0, false, none⟩ :=
    .perform pair _ (.start emptyStack rfl) trivial rfl
  exact (h _ _ hrun 1).mp List.mem_cons_self

end KWinFT.Stacking
