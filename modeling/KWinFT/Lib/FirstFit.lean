import Mathlib.Data.List.Nodup

/-! Handing out the elements of a list one by one: each taker gets the first one that fits, which is then gone. -/
namespace KWinFT.Lib
variable {α β γ : Type*}

def firstFit (fits : α → β → Bool) : List β → List α → List (Option β)
  | _, [] => []
  | bs, a :: as => bs.find? (fits a) :: firstFit fits (bs.eraseP (fits a)) as

section firstFit
variable {fits : α → β → Bool} {bs : List β}

@[simp]
theorem firstFit_nil : firstFit fits bs [] = [] := rfl

@[simp]
theorem firstFit_cons (a : α) (as : List α) :
    firstFit fits bs (a :: as) = bs.find? (fits a) :: firstFit fits (bs.eraseP (fits a)) as := rfl

/-- The takers may be looked at through a function. -/
theorem firstFit_map_left (f : γ → α) (bs : List β) (cs : List γ) :
    firstFit fits bs (cs.map f) = firstFit (fun c b => fits (f c) b) bs cs := by
  induction cs generalizing bs with
  | nil => rfl
  | cons c cs ih => rw [List.map_cons, firstFit_cons, firstFit_cons, ih]

/-- So may what is handed out. -/
theorem firstFit_map_right (g : γ → β) (cs : List γ) (as : List α) :
    firstFit fits (cs.map g) as = (firstFit (fun a c => fits a (g c)) cs as).map (Option.map g) := by
  induction as generalizing cs with
  | nil => rfl
  | cons a as ih =>
    rw [firstFit_cons, firstFit_cons, List.map_cons, List.find?_map, List.eraseP_map, ih]
    rfl

theorem mem_of_some_mem_firstFit {b : β} {as : List α} (h : some b ∈ firstFit fits bs as) : b ∈ bs := by
  induction as generalizing bs with
  | nil => cases h
  | cons a as ih =>
    rcases List.mem_cons.mp h with h | h
    · exact List.mem_of_find?_eq_some h.symm
    · exact List.mem_of_mem_eraseP (ih h)

/-- Nothing is handed out twice. -/
theorem nodup_firstFit (hbs : bs.Nodup) (as : List α) : ((firstFit fits bs as).filterMap id).Nodup := by
  induction as generalizing bs with
  | nil => exact List.nodup_nil
  | cons a as ih =>
    have hrest : ((firstFit fits (bs.eraseP (fits a)) as).filterMap id).Nodup := ih (hbs.sublist List.eraseP_sublist)
    rw [firstFit_cons]
    cases hfind : bs.find? (fits a) with
    | none => exact hrest
    | some b =>
      show (b :: (firstFit fits (bs.eraseP (fits a)) as).filterMap id).Nodup
      refine List.nodup_cons.mpr ⟨fun hb => ?_, hrest⟩
      obtain ⟨o, ho, rfl⟩ := List.mem_filterMap.mp hb
      have hmem := mem_of_some_mem_firstFit ho
      obtain ⟨hfit, pre, post, hsplit, hpre⟩ := List.find?_eq_some_iff_append.mp hfind
      have herase : bs.eraseP (fits a) = pre ++ post := by
        rw [hsplit, List.eraseP_append_right _ fun x hx => by simpa using hpre x hx, List.eraseP_cons_of_pos hfit]
      rw [herase] at hmem
      rw [hsplit] at hbs
      exact (List.nodup_middle.mp hbs).notMem hmem

/-- In their own order, elements that fit themselves take themselves. -/
theorem firstFit_own {fits : α → α → Bool} {pre : List α} (hfit : ∀ a ∈ pre, fits a a) (bs as : List α) :
    firstFit fits (pre ++ bs) (pre ++ as) = pre.map some ++ firstFit fits bs as := by
  induction pre with
  | nil => rfl
  | cons a pre ih =>
    obtain ⟨ha, hpre⟩ := List.forall_mem_cons.mp hfit
    rw [List.cons_append, List.cons_append, firstFit_cons, List.find?_cons_of_pos ha, List.eraseP_cons_of_pos ha,
      ih hpre]
    rfl

end firstFit

end KWinFT.Lib
