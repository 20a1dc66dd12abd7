import KWinFT.Lib.Runs
import Mathlib.Data.List.Dedup

/-! The windows of a list in the order of a stack. All that visits relatives of a window asks for them this way. -/
namespace KWinFT.Stacking
variable {α : Type*} [DecidableEq α] {w x : α} {l : List α}

def removeAll (w : α) (list : List α) : List α := list.filter (· ≠ w)

/-- Windows that are not in the stack come first. -/
def ensureStackingOrderInList (stackingOrder list : List α) : List α :=
  if list.length < 2 then list
  else stackingOrder.foldl (fun result c => if c ∈ result then removeAll c result ++ [c] else result) list

@[simp]
theorem mem_removeAll : x ∈ removeAll w l ↔ x ∈ l ∧ x ≠ w := by simp [removeAll]

theorem nodup_removeAll (h : l.Nodup) : (removeAll w l).Nodup := h.filter _

/-- A window that is moved to the end of a list is still in it. -/
theorem mem_removeAll_append (h : w ∈ l) : x ∈ removeAll w l ++ [w] ↔ x ∈ l := by
  rw [List.mem_append, mem_removeAll, List.mem_singleton]
  by_cases hx : x = w
  · simp [hx, h]
  · simp [hx]

variable {stackingOrder list : List α}

theorem mem_ensureStackingOrderInList : x ∈ ensureStackingOrderInList stackingOrder list ↔ x ∈ list := by
  unfold ensureStackingOrderInList
  split
  · rfl
  · refine Lib.foldl_preserves (P := fun result => x ∈ result ↔ x ∈ list) _ (fun result c _ hr => ?_) Iff.rfl
    split
    · rename_i hc
      exact (mem_removeAll_append hc).trans hr
    · exact hr

/-- Only the order changes, whatever the stack is. -/
theorem ensureStackingOrderInList_perm (h : list.Nodup) : (ensureStackingOrderInList stackingOrder list).Perm list := by
  unfold ensureStackingOrderInList
  split
  · exact .refl _
  refine Lib.foldl_preserves (P := fun result => List.Perm result list) _ (fun result c _ hr => ?_) (.refl _)
  split
  · next hc =>
    have hn : result.Nodup := hr.nodup_iff.mpr h
    refine List.Perm.trans ?_ hr
    rw [List.perm_ext_iff_of_nodup ((nodup_removeAll hn).append (List.nodup_singleton c) (by simp)) hn]
    exact fun x => mem_removeAll_append hc
  · exact hr

/-- From two windows on: the ones that are not in the stack, and then the others as the stack has them last. -/
theorem ensureStackingOrderInList_eq (hlen : ¬ list.length < 2) : ensureStackingOrderInList stackingOrder list =
    list.filter (· ∉ stackingOrder) ++ stackingOrder.dedup.filter (· ∈ list) := by
  unfold ensureStackingOrderInList
  rw [if_neg hlen]
  clear hlen
  -- The list changes with each window of the stack, but not what is in it.
  induction stackingOrder generalizing list with
  | nil => simp
  | cons c order ih =>
    rw [List.foldl_cons]
    by_cases hc : c ∈ list
    · rw [if_pos hc, ih, List.dedup_cons]
      have hrest : order.dedup.filter (· ∈ removeAll c list ++ [c]) = order.dedup.filter (· ∈ list) :=
        List.filter_congr fun x _ => by rw [decide_eq_decide]; exact mem_removeAll_append hc
      have hlist : (removeAll c list).filter (· ∉ order) = list.filter (· ∉ c :: order) := by
        rw [removeAll, List.filter_filter]
        exact List.filter_congr fun x _ => by simp [Bool.and_comm]
      rw [hrest, List.filter_append, hlist]
      by_cases ho : c ∈ order
      · rw [if_pos ho, List.filter_cons_of_neg (by simpa using ho), List.filter_nil, List.append_nil]
      · rw [if_neg ho, List.filter_cons_of_pos (by simpa using ho), List.filter_nil,
          List.filter_cons_of_pos (by simpa using hc), List.append_assoc, List.singleton_append]
    · have hlist : list.filter (· ∉ c :: order) = list.filter (· ∉ order) :=
        List.filter_congr fun x hx => by
          have hxc : x ≠ c := fun he => hc (he ▸ hx)
          simp [hxc]
      rw [if_neg hc, ih, List.dedup_cons, hlist]
      split
      · rfl
      · rw [List.filter_cons_of_neg (by simpa using hc)]

/-- A list that is too short to be sorted would stay as it is. -/
private theorem sorted_short {order : List α} (hlen : list.length < 2) :
    list.filter (· ∉ order) ++ order.dedup.filter (· ∈ list) = list := by
  match list, hlen with
  | [], _ => simp
  | [c], _ =>
    have hone : order.dedup.filter (· ∈ [c]) = order.dedup.filter (· = c) := List.filter_congr fun x _ => by simp
    rw [hone, List.filter_eq]
    by_cases hc : c ∈ order
    · rw [List.count_eq_one_of_mem (List.nodup_dedup order) (List.mem_dedup.mpr hc)]
      simp [hc]
    · rw [List.count_eq_zero.mpr (mt List.mem_dedup.mp hc)]
      simp [hc]

/-- The last windows of a list, as the whole list is sorted. -/
theorem ensureStackingOrderInList_filter {others : List α} (hdisjoint : ∀ a ∈ others, ∀ b ∈ list, a ≠ b) :
    (ensureStackingOrderInList stackingOrder (others ++ list)).filter (· ∈ list) =
      list.filter (· ∉ stackingOrder) ++ stackingOrder.dedup.filter (· ∈ list) := by
  have hothers : others.filter (· ∈ list) = [] :=
    List.filter_eq_nil_iff.mpr fun c hc hin => hdisjoint c hc c (of_decide_eq_true hin) rfl
  have hlist : list.filter (· ∈ list) = list := List.filter_eq_self.mpr fun c hc => decide_eq_true hc
  by_cases hlen : (others ++ list).length < 2
  · have hsame : ensureStackingOrderInList stackingOrder (others ++ list) = others ++ list := if_pos hlen
    rw [List.length_append] at hlen
    rw [hsame, List.filter_append, hothers, hlist, List.nil_append]
    exact (sorted_short (by omega)).symm
  · have hrest : (stackingOrder.dedup.filter (· ∈ others ++ list)).filter (· ∈ list) =
        stackingOrder.dedup.filter (· ∈ list) := by
      rw [List.filter_filter]
      refine List.filter_congr fun c _ => ?_
      by_cases hc : c ∈ list
      · simp [hc]
      · simp [hc]
    rw [ensureStackingOrderInList_eq hlen, List.filter_append, List.filter_comm, List.filter_append, hothers, hlist,
      List.nil_append, hrest]

end KWinFT.Stacking
