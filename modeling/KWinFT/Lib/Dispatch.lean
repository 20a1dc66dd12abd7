import Mathlib.Data.List.Basic

/-! An event that is offered to the members of a list in turn until one takes it. Whoever takes it keeps it
from the members behind, whether or not it has any use for it. -/
namespace KWinFT.Lib
variable {α ω : Type*}

/-- The member that took the event, and what became of the list. A handler tells whether it takes the event,
what stands in the place of its member, and the outputs; it may fail. -/
def dispatch (handle : α → Bool × Option (List α × List ω)) : List α → Option α × Option (List α × List ω)
  | [] => (none, some ([], []))
  | a :: as =>
    let r := handle a
    if r.1 then (some a, r.2.map fun (a', out) => (a' ++ as, out))
    else
      let rest := dispatch handle as
      (rest.1, r.2.bind fun (a', out) => rest.2.map fun (as', out') => (a' ++ as', out ++ out'))

/-- A member that leaves an event to the others. -/
def Declines (handle : α → Bool × Option (List α × List ω)) (a : α) : Prop := handle a = (false, some ([a], []))

variable (handle : α → Bool × Option (List α × List ω)) {before : List α} {a : α}

theorem dispatch_append (h : ∀ b ∈ before, Declines handle b) (as : List α) :
    dispatch handle (before ++ as) =
      ((dispatch handle as).1, (dispatch handle as).2.map fun (as', out) => (before ++ as', out)) := by
  induction before with
  | nil => simp
  | cons b before ih =>
    have hb : handle b = (false, some ([b], [])) := h b List.mem_cons_self
    rw [List.cons_append, dispatch, hb, ih fun c hc => h c (List.mem_cons_of_mem b hc)]
    simp [Function.comp_def]

theorem dispatch_taken (after : List α) (h : ∀ b ∈ before, Declines handle b) (ha : (handle a).1 = true) :
    dispatch handle (before ++ a :: after) =
      (some a, (handle a).2.map fun (a', out) => (before ++ a' ++ after, out)) := by
  rw [dispatch_append handle h, dispatch]
  simp [ha, Function.comp_def]

theorem dispatch_declined (h : ∀ b ∈ before, Declines handle b) :
    dispatch handle before = (none, some (before, [])) := by
  have happend := dispatch_append handle h []
  rw [List.append_nil] at happend
  simpa [dispatch] using happend

/-- Some member takes the event if not all decline: the first of those that do. -/
theorem exists_first_taker {l : List α} (hcases : ∀ b ∈ l, Declines handle b ∨ (handle b).1 = true)
    (htakes : ∃ b ∈ l, (handle b).1 = true) :
    ∃ before a after, l = before ++ a :: after ∧ (∀ b ∈ before, Declines handle b) ∧ (handle a).1 = true := by
  induction l with
  | nil =>
    obtain ⟨b, hb, -⟩ := htakes
    cases hb
  | cons c l ih =>
    rcases hcases c List.mem_cons_self with hdecl | htake
    · have htakes' : ∃ b ∈ l, (handle b).1 = true := by
        obtain ⟨b, hb, ht⟩ := htakes
        rcases List.mem_cons.mp hb with rfl | hb
        · rw [Declines] at hdecl
          rw [hdecl] at ht
          cases ht
        · exact ⟨b, hb, ht⟩
      obtain ⟨before, a, after, rfl, hbefore, ha⟩ := ih (fun b hb => hcases b (List.mem_cons_of_mem c hb)) htakes'
      refine ⟨c :: before, a, after, rfl, fun b hb => ?_, ha⟩
      rcases List.mem_cons.mp hb with rfl | hb
      · exact hdecl
      · exact hbefore b hb
    · exact ⟨[], c, l, rfl, fun b hb => absurd hb List.not_mem_nil, htake⟩

end KWinFT.Lib
