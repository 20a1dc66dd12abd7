import Mathlib.Data.List.Basic
import Mathlib.Order.MinMax

/-! Commands that a device takes in the order of their issue. A fence is a command of its own, known by its place in the
stream: once it is carried out, all that was issued before it is. -/
namespace KWinFT.Lib

structure CommandStream (C : Type*) where
  issued : List C := []
  done : Nat := 0

namespace CommandStream
variable {C : Type*} {s : CommandStream C} {c d : C} {k l : Nat}

def issue (s : CommandStream C) (c : C) : CommandStream C := { s with issued := s.issued ++ [c] }

/-- Commands up to this one are carried out, as far as they are issued. -/
def carryOut (s : CommandStream C) (n : Nat) : CommandStream C :=
  { s with done := max s.done (min n s.issued.length) }

/-- The place of the next command. -/
def next (s : CommandStream C) : Nat := s.issued.length

/-- The command at this place is carried out. -/
def Signaled (s : CommandStream C) (fence : Nat) : Prop := fence < s.done

instance (fence : Nat) : Decidable (s.Signaled fence) := inferInstanceAs (Decidable (fence < s.done))

/-- The command was issued at this place or after it. -/
def Since (s : CommandStream C) (k : Nat) (c : C) : Prop := ∃ i, k ≤ i ∧ s.issued[i]? = some c

/-- The command is not carried out yet. -/
def Outstanding (s : CommandStream C) (c : C) : Prop := s.Since s.done c

theorem Since.mono (h : s.Since l c) (hkl : k ≤ l) : s.Since k c := by
  obtain ⟨i, hi, hc⟩ := h
  exact ⟨i, hkl.trans hi, hc⟩

theorem since_issue (h : (s.issue d).Since k c) : s.Since k c ∨ c = d := by
  obtain ⟨i, hi, hc⟩ := h
  change (s.issued ++ [d])[i]? = some c at hc
  rcases lt_or_ge i s.issued.length with hlt | hge
  · rw [List.getElem?_append_left hlt] at hc
    exact .inl ⟨i, hi, hc⟩
  · rw [List.getElem?_append_right hge] at hc
    exact .inr (List.mem_singleton.mp (List.mem_of_getElem? hc))

/-- Nothing is issued yet at the place of the next command. -/
theorem not_since_next : ¬ s.Since s.next c := by
  rintro ⟨i, hi, hc⟩
  rw [List.getElem?_eq_none hi] at hc
  cases hc

@[simp] theorem since_carryOut {n : Nat} : (s.carryOut n).Since k c ↔ s.Since k c := Iff.rfl

theorem done_carryOut (s : CommandStream C) (n : Nat) : s.done ≤ (s.carryOut n).done := le_max_left _ _

/-- A fence is waited for. -/
theorem signaled_carryOut {fence : Nat} (h : fence < s.issued.length) : (s.carryOut (fence + 1)).Signaled fence := by
  show fence < max s.done (min (fence + 1) s.issued.length)
  rw [min_eq_left h]
  exact lt_max_of_lt_right (Nat.lt_succ_self fence)

end CommandStream

end KWinFT.Lib
