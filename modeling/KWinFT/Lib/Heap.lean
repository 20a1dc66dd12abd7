import Mathlib.Data.List.Nodup
import Mathlib.Logic.Function.Basic
import Mathlib.Tactic.Common

/-! Objects by address. An address is given out once, so one that was freed stays dead, and freeing it again fails. -/
namespace KWinFT.Lib

structure Heap (α : Type*) where
  objects : Nat → Option α
  next : Nat
  fresh : ∀ a, next ≤ a → objects a = none

namespace Heap
variable {α : Type*} (h : Heap α)

def empty : Heap α := ⟨fun _ => none, 0, fun _ _ => rfl⟩

def read (a : Nat) : Option α := h.objects a

def Alive (a : Nat) : Prop := (h.read a).isSome

instance (a : Nat) : Decidable (h.Alive a) := inferInstanceAs (Decidable (_ = true))

private theorem fresh_update (a : Nat) (x : Option α) (hx : h.next ≤ a → x = none) (b : Nat) (hb : h.next ≤ b) :
    Function.update h.objects a x b = none := by
  rcases eq_or_ne b a with rfl | hne
  · rw [Function.update_self, hx hb]
  · rw [Function.update_of_ne hne, h.fresh b hb]

/-- Changes the object at an address, if there is one. -/
def modify (a : Nat) (f : α → α) : Heap α :=
  ⟨Function.update h.objects a ((h.objects a).map f), h.next,
    h.fresh_update a _ fun ha => by rw [h.fresh a ha, Option.map_none]⟩

def erase (a : Nat) : Heap α := ⟨Function.update h.objects a none, h.next, h.fresh_update a _ fun _ => rfl⟩

/-- `delete`, which fails on a dead object. -/
def free (a : Nat) : Option (Heap α) := if h.Alive a then some (h.erase a) else none

/-- `new`; the address is the next one. -/
def alloc (x : α) : Heap α :=
  ⟨Function.update h.objects h.next (some x), h.next + 1, fun a ha => by
    rw [Function.update_of_ne (by omega), h.fresh a (by omega)]⟩

/-- Allocates in order; the addresses follow each other. -/
def allocAll : Heap α → List α → Heap α
  | h, [] => h
  | h, x :: xs => allocAll (h.alloc x) xs

@[simp] theorem read_modify (a b : Nat) (f : α → α) :
    (h.modify a f).read b = if b = a then (h.read a).map f else h.read b := by
  simp only [read, modify, Function.update_apply]

@[simp] theorem read_erase (a b : Nat) : (h.erase a).read b = if b = a then none else h.read b := by
  simp only [read, erase, Function.update_apply]

@[simp] theorem read_alloc (x : α) (b : Nat) : (h.alloc x).read b = if b = h.next then some x else h.read b := by
  simp only [read, alloc, Function.update_apply]

variable {h}

theorem Alive.lt {a : Nat} (ha : h.Alive a) : a < h.next := by
  by_contra hn
  rw [Alive, read, h.fresh a (Nat.le_of_not_lt hn)] at ha
  cases ha

theorem Alive.read_eq {a : Nat} (ha : h.Alive a) : ∃ x, h.read a = some x := Option.isSome_iff_exists.mp ha

theorem alive_of_read {a : Nat} {x : α} (hx : h.read a = some x) : h.Alive a := by rw [Alive, hx]; rfl

@[simp] theorem alive_modify (a b : Nat) (f : α → α) : (h.modify a f).Alive b ↔ h.Alive b := by
  simp only [Alive, read_modify]
  split
  · next hb => rw [hb, Option.isSome_map]
  · rfl

@[simp] theorem alive_erase (a b : Nat) : (h.erase a).Alive b ↔ b ≠ a ∧ h.Alive b := by
  simp only [Alive, read_erase]
  split
  · next hb => simp [hb]
  · next hb => simp [hb]

@[simp] theorem alive_alloc (x : α) (b : Nat) : (h.alloc x).Alive b ↔ b = h.next ∨ h.Alive b := by
  simp only [Alive, read_alloc]
  split
  · next hb => simp [hb]
  · next hb => simp [hb]

theorem free_eq {a : Nat} (ha : h.Alive a) : h.free a = some (h.erase a) := if_pos ha

/-- Addresses below are untouched by a row of allocations. -/
theorem read_allocAll_of_lt (xs : List α) {a : Nat} (ha : a < h.next) : (h.allocAll xs).read a = h.read a := by
  induction xs generalizing h with
  | nil => rfl
  | cons x xs ih =>
    rw [allocAll, ih (Nat.lt_succ_of_lt ha), read_alloc, if_neg (Nat.ne_of_lt ha)]

theorem alive_allocAll (xs : List α) : ∀ a ∈ List.range' h.next xs.length, (h.allocAll xs).Alive a := by
  induction xs generalizing h with
  | nil => simp
  | cons x xs ih =>
    intro a ha
    rcases List.mem_cons.mp (List.range'_succ ▸ ha) with rfl | ha
    · rw [Alive, allocAll, read_allocAll_of_lt xs (Nat.lt_succ_self h.next), read_alloc, if_pos rfl]
      rfl
    · exact ih a ha

end Heap
end KWinFT.Lib
