import Mathlib.Data.List.Nodup
import Mathlib.Data.List.Chain
import Mathlib.Data.List.Perm.Subperm

/-! A range-for loop over a vector whose body adds to the vector and takes from it. The loop keeps to the buffer and the
bounds from its beginning. -/
namespace KWinFT.Lib
variable {α σ : Type*}

/-- A `std::vector`: its elements, what is in the rest of its buffer, if anything, and how often it has got a new buffer. -/
structure Vec (α : Type*) where
  elements : List α
  spare : List (Option α)
  moves : Nat

namespace Vec

def capacity (v : Vec α) : Nat := v.elements.length + v.spare.length

theorem spare_eq_nil_iff {v : Vec α} : v.spare = [] ↔ v.elements.length = v.capacity := by
  rw [capacity, ← List.length_eq_zero_iff]
  omega

/-- A new buffer, with some room of the library's choice, where the old one is full. -/
def pushBack (room : Nat → Nat) (v : Vec α) (x : α) : Vec α :=
  match v.spare with
  | _ :: spare => ⟨v.elements ++ [x], spare, v.moves⟩
  | [] => ⟨v.elements ++ [x], List.replicate (room v.elements.length) none, v.moves + 1⟩

/-- `erase(remove(begin, end, x), end)`. -/
def removeAll [DecidableEq α] (v : Vec α) (x : α) : Vec α :=
  let kept := v.elements.filter (· ≠ x)
  ⟨kept, (v.elements.drop kept.length).map some ++ v.spare, v.moves⟩

def place (v : Vec α) (i : Nat) : Option α := (v.elements.map some ++ v.spare)[i]?.join

section pushBack
variable {room : Nat → Nat} {v : Vec α} {x : α}

@[simp] theorem pushBack_elements : (v.pushBack room x).elements = v.elements ++ [x] := by
  unfold pushBack
  split <;> rfl

theorem pushBack_moves : (v.pushBack room x).moves = if v.spare = [] then v.moves + 1 else v.moves := by
  unfold pushBack
  split
  · next h => rw [if_neg (by rw [h]; exact List.cons_ne_nil _ _)]
  · next h => rw [if_pos h]

theorem pushBack_capacity : (v.pushBack room x).capacity =
    if v.elements.length = v.capacity then v.elements.length + 1 + room v.elements.length else v.capacity := by
  unfold pushBack capacity
  split
  · next h => rw [h, if_neg (by simp)]; simp; omega
  · next h => rw [h, if_pos (by simp)]; simp

theorem lt_pushBack_capacity : v.elements.length < (v.pushBack room x).capacity := by
  rw [capacity, pushBack_elements, List.length_append, List.length_singleton]
  omega

end pushBack

section removeAll
variable [DecidableEq α] {v : Vec α} {x : α}

@[simp] theorem removeAll_elements : (v.removeAll x).elements = v.elements.filter (· ≠ x) := rfl

@[simp] theorem removeAll_moves : (v.removeAll x).moves = v.moves := rfl

@[simp] theorem removeAll_capacity : (v.removeAll x).capacity = v.capacity := by
  have := List.length_filter_le (· ≠ x) v.elements
  simp only [capacity, removeAll, List.length_append, List.length_map, List.length_drop]
  omega

theorem removeAll_of_not_mem (h : x ∉ v.elements) : v.removeAll x = v := by
  have hkept : v.elements.filter (· ≠ x) = v.elements :=
    List.filter_eq_self.mpr fun y hy => decide_eq_true fun he => h (he ▸ hy)
  unfold removeAll
  dsimp only
  rw [hkept, List.drop_length]
  rfl

end removeAll

theorem place_of_elements {v : Vec α} {before rest : List α} {x : α} (h : v.elements = before ++ x :: rest) :
    v.place before.length = some x := by
  unfold place
  rw [h, List.map_append, List.append_assoc, List.getElem?_append_right (by rw [List.length_map]), List.length_map,
    Nat.sub_self]
  rfl

/-- The rounds of the loop, from a place on. None where the buffer is not the vector's any more, or there is nothing at
the place. -/
def rounds (vec : σ → Vec α) (body : α → σ → Option σ) (moves : Nat) : Nat → Nat → σ → Option σ
  | 0, _, s => some s
  | n + 1, i, s =>
    if (vec s).moves ≠ moves then none
    else ((vec s).place i).bind fun x => (body x s).bind (rounds vec body moves n (i + 1))

def forEach (vec : σ → Vec α) (body : α → σ → Option σ) (s : σ) : Option σ :=
  rounds vec body (vec s).moves (vec s).elements.length 0 s

/-- The elements that a loop takes, where each one that it takes makes it pass over the next. -/
def taken (p : α → Bool) : Bool → List α → List α
  | _, [] => []
  | true, _ :: l => taken p false l
  | false, x :: l => if p x then x :: taken p true l else taken p false l

section taken
variable {p : α → Bool} {passing : Bool} {l : List α} {x : α}

theorem taken_sublist : (taken p passing l).Sublist l := by
  induction l generalizing passing with
  | nil => cases passing <;> exact .refl _
  | cons y l ih =>
    cases passing with
    | true => exact ih.cons y
    | false =>
      unfold taken
      split
      · exact ih.cons_cons y
      · exact ih.cons y

theorem of_mem_taken (h : x ∈ taken p passing l) : p x := by
  induction l generalizing passing with
  | nil => cases passing <;> cases h
  | cons y l ih =>
    cases passing with
    | true => exact ih h
    | false =>
      unfold taken at h
      split at h
      · next hy =>
        rcases List.mem_cons.mp h with rfl | h
        · exact hy
        · exact ih h
      · exact ih h

theorem taken_cons_neg (hx : ¬ p x) : taken p false (x :: l) = taken p false l := if_neg hx

theorem taken_concat_neg (hx : ¬ p x) : taken p passing (l ++ [x]) = taken p passing l := by
  induction l generalizing passing with
  | nil =>
    cases passing with
    | true => rfl
    | false => exact taken_cons_neg hx
  | cons y l ih =>
    cases passing with
    | true => exact ih
    | false =>
      rw [List.cons_append, taken, taken, ih, ih]

/-- The loop takes all it should exactly where no two of these are neighbours. -/
private theorem taken_complete_iff' (hl : l.Nodup) : (∀ x ∈ l, p x → x ∈ taken p passing l) ↔
    (l.IsChain fun a b => ¬ (p a ∧ p b)) ∧ (passing → ∀ x ∈ l.head?, ¬ p x) := by
  induction l generalizing passing with
  | nil => simp
  | cons y l ih =>
    obtain ⟨hy, hl⟩ := List.nodup_cons.mp hl
    have hno : ∀ passing, y ∉ taken p passing l := fun _ hmem => hy (taken_sublist.subset hmem)
    rw [List.forall_mem_cons, List.isChain_cons]
    cases passing with
    | true =>
      change (p y → y ∈ taken p false l) ∧ (∀ x ∈ l, p x → x ∈ taken p false l) ↔ _
      rw [ih hl]
      simp only [hno, List.head?_cons, Option.mem_def, Option.some.injEq, forall_eq']
      grind
    | false =>
      by_cases hp : p y
      · have hrest : (∀ x ∈ l, p x → x ∈ y :: taken p true l) ↔ ∀ x ∈ l, p x → x ∈ taken p true l := by
          refine forall₂_congr fun x hx => ?_
          rw [List.mem_cons, or_iff_right fun he : x = y => hy (he ▸ hx)]
        rw [taken, if_pos hp, hrest, ih hl]
        simp [hp, and_comm]
      · rw [taken_cons_neg hp, ih hl]
        simp [hp]

theorem taken_complete_iff (hl : l.Nodup) :
    (∀ x ∈ l, p x → x ∈ taken p false l) ↔ l.IsChain fun a b => ¬ (p a ∧ p b) := by
  rw [taken_complete_iff' hl]
  simp

theorem isChain_append_neg {l' : List α} (h : ∀ x ∈ l', ¬ p x) :
    ((l ++ l').IsChain fun a b => ¬ (p a ∧ p b)) ↔ l.IsChain fun a b => ¬ (p a ∧ p b) := by
  rw [List.isChain_append]
  refine ⟨fun h => h.1, fun hl => ⟨hl, ?_, fun x _ y hy hxy => h y (List.mem_of_mem_head? hy) hxy.2⟩⟩
  have hnone : l'.Pairwise fun a b => ¬ (p a ∧ p b) :=
    List.pairwise_of_forall_mem_list fun a ha _ _ hab => h a ha hab.1
  exact hnone.isChain

theorem taken_eq_filter (hl : l.Nodup) (h : l.IsChain fun a b => ¬ (p a ∧ p b)) : taken p false l = l.filter p := by
  have hsub : (taken p false l).Sublist (l.filter p) := by
    have : ((taken p false l).filter p).Sublist (l.filter p) := taken_sublist.filter p
    rwa [List.filter_eq_self.mpr fun x hx => of_mem_taken hx] at this
  have hall : l.filter p ⊆ taken p false l := fun x hx =>
    (taken_complete_iff hl).mpr h x (List.mem_of_mem_filter hx) (List.of_mem_filter hx)
  exact hsub.eq_of_length_le ((hl.filter p).subperm hall).length_le

end taken

/-- What a body does that takes the elements of one kind out of the vector, after another one was added for each. -/
structure Replaces [DecidableEq α] (vec : σ → Vec α) (body : α → σ → Option σ) (p : α → Bool) (new : α → Prop)
    (gone : σ → List α) (Inv : σ → Prop) : Prop where
  new_neg : ∀ r, new r → ¬ p r
  nodup : ∀ s, Inv s → (vec s).elements.Nodup
  skip : ∀ x s, Inv s → x ∈ (vec s).elements → ¬ p x → body x s = some s
  take : ∀ x s, Inv s → x ∈ (vec s).elements → p x → ∃ s' r, body x s = some s' ∧ Inv s' ∧ new r ∧
    (vec s').elements = (vec s).elements.filter (· ≠ x) ++ [r] ∧
    (vec s').spare ≠ [] ∧ (vec s').moves = (if (vec s).spare = [] then (vec s).moves + 1 else (vec s).moves) ∧
    gone s' = gone s ++ [x]

section Replaces
variable [DecidableEq α] {vec : σ → Vec α} {body : α → σ → Option σ} {p : α → Bool} {new : α → Prop} {gone : σ → List α}
  {Inv : σ → Prop} {s : σ} {before todo : List α}

omit [DecidableEq α] in
private theorem rounds_succ {n : Nat} {x : α} {rest : List α} (h : (vec s).elements = before ++ x :: rest) :
    rounds vec body (vec s).moves (n + 1) before.length s =
      (body x s).bind (rounds vec body (vec s).moves n (before.length + 1)) := by
  rw [rounds, if_neg (not_not_intro rfl), place_of_elements h]
  rfl

/-- The loop goes on over elements of other kinds. -/
theorem Replaces.rounds_skip (hb : Replaces vec body p new gone Inv) (hs : Inv s) (before : List α) {rest : List α} (n : Nat)
    (h : (vec s).elements = before ++ (todo ++ rest)) (htodo : ∀ x ∈ todo, ¬ p x) :
    rounds vec body (vec s).moves (todo.length + n) before.length s =
      rounds vec body (vec s).moves n (before ++ todo).length s := by
  induction todo generalizing before with
  | nil => rw [List.length_nil, Nat.zero_add, List.append_nil]
  | cons x todo ih =>
    have hx : x ∈ (vec s).elements := by simp [h]
    have hnext : (vec s).elements = (before ++ [x]) ++ (todo ++ rest) := by simp [h]
    have := ih (before ++ [x]) hnext fun y hy => htodo y (List.mem_cons_of_mem x hy)
    rw [List.length_append, List.length_singleton, List.append_assoc] at this
    rw [List.length_cons, Nat.add_right_comm, rounds_succ h, hb.skip x s hs hx (htodo x List.mem_cons_self)]
    exact this

private theorem filter_ne_append {x : α} {rest : List α} (h : (before ++ x :: rest).Nodup) :
    (before ++ x :: rest).filter (· ≠ x) = before ++ rest := by
  obtain ⟨-, hrest, hbefore⟩ := List.nodup_append.mp h
  have hx := (List.nodup_cons.mp hrest).1
  rw [List.filter_append, List.filter_cons_of_neg (by simp)]
  congr 1 <;> refine List.filter_eq_self.mpr fun y hy => decide_eq_true ?_
  · exact hbefore y hy x List.mem_cons_self
  · exact fun he => hx (he ▸ hy)

/-- With room for one more, the loop takes what it does not pass over. -/
theorem Replaces.rounds_taken (hb : Replaces vec body p new gone Inv) (hs : Inv s) (before : List α)
    (h : (vec s).elements = before ++ todo) (hspare : (vec s).spare ≠ []) : ∃ s' added,
      rounds vec body (vec s).moves todo.length before.length s = some s' ∧
      Inv s' ∧ (vec s').spare ≠ [] ∧ gone s' = gone s ++ taken p false todo ∧ (∀ r ∈ added, new r) ∧
      (vec s').elements = before ++ todo.filter (· ∉ taken p false todo) ++ added := by
  induction hn : todo.length generalizing before todo s with
  | zero =>
    cases List.eq_nil_of_length_eq_zero hn
    exact ⟨s, [], rfl, hs, hspare, (List.append_nil _).symm, List.forall_mem_nil _, by simpa using h⟩
  | succ n ih =>
    obtain ⟨x, rest, rfl⟩ := List.exists_cons_of_length_eq_add_one hn
    have hlen : rest.length = n := Nat.succ.inj hn
    have hx : x ∈ (vec s).elements := by simp [h]
    have hnodup := hb.nodup s hs
    rw [h] at hnodup
    obtain ⟨hxrest, hrest⟩ := List.nodup_cons.mp (List.nodup_append.mp hnodup).2.1
    by_cases hp : p x
    · obtain ⟨s₁, r, h₁, hs₁, hr, helements, hspare₁, hmoves, hgone⟩ := hb.take x s hs hx hp
      rw [if_neg hspare] at hmoves
      rw [h, filter_ne_append hnodup] at helements
      rw [rounds_succ h, h₁, Option.bind_some, ← hmoves]
      match rest, hlen with
      | [], hlen =>
        cases hlen
        refine ⟨s₁, [r], rfl, hs₁, hspare₁, ?_, by simpa using hr, ?_⟩
        · rw [hgone, taken, if_pos hp]
          rfl
        · rw [helements, taken, if_pos hp]
          simp
      | y :: rest, hlen =>
        -- The loop goes on behind `y`, which is now where `x` was.
        have hnext : (vec s₁).elements = (before ++ [y]) ++ (rest ++ [r]) := by simp [helements]
        obtain ⟨s', added, hrun, hs', hspare', hgone', hadded, helements'⟩ :=
          ih hs₁ (before ++ [y]) hnext hspare₁ (by simpa using hlen)
        rw [taken_concat_neg (hb.new_neg r hr)] at hgone' helements'
        rw [List.length_append, List.length_singleton] at hrun
        have hyrest := (List.nodup_cons.mp hrest).1
        refine ⟨s', r :: added, hrun, hs', hspare', ?_, ?_, ?_⟩
        · rw [hgone', hgone, List.append_assoc, taken, if_pos hp]
          rfl
        · exact List.forall_mem_cons.mpr ⟨hr, hadded⟩
        · have hyx : y ≠ x := fun he => hxrest (he ▸ List.mem_cons_self)
          have hyT : y ∉ taken p false rest := fun hmem => hyrest (taken_sublist.subset hmem)
          have hrT : r ∉ taken p false rest := fun hmem => hb.new_neg r hr (of_mem_taken hmem)
          have hsame : rest.filter (· ∉ x :: taken p false rest) = rest.filter (· ∉ taken p false rest) := by
            refine List.filter_congr fun z hz => decide_eq_decide.mpr (not_congr ?_)
            exact List.mem_cons.trans (or_iff_right fun he => hxrest (he ▸ List.mem_cons_of_mem y hz))
          have htaken : taken p false (x :: y :: rest) = x :: taken p false rest := if_pos hp
          have hleft : (x :: y :: rest).filter (· ∉ x :: taken p false rest) = y :: rest.filter (· ∉ taken p false rest) := by
            rw [← hsame, List.filter_cons_of_neg (by simp), List.filter_cons_of_pos (by simp [hyx, hyT])]
          have hlast : [r].filter (· ∉ taken p false rest) = [r] := List.filter_cons_of_pos (by simpa using hrT)
          rw [helements', htaken, hleft, List.filter_append, hlast]
          simp
    · have hnext : (vec s).elements = (before ++ [x]) ++ rest := by simp [h]
      obtain ⟨s', added, hrun, hs', hspare', hgone', hadded, helements'⟩ := ih hs (before ++ [x]) hnext hspare hlen
      have hxT : x ∉ taken p false rest := fun hmem => hxrest (taken_sublist.subset hmem)
      rw [List.length_append, List.length_singleton] at hrun
      refine ⟨s', added, ?_, hs', hspare', ?_, hadded, ?_⟩
      · rw [rounds_succ h, hb.skip x s hs hx hp]
        exact hrun
      · rw [hgone', taken_cons_neg hp]
      · have hleft : (x :: rest).filter (· ∉ taken p false rest) = x :: rest.filter (· ∉ taken p false rest) :=
          List.filter_cons_of_pos (by simpa using hxT)
        rw [helements', taken_cons_neg hp, hleft]
        simp

/-- What a loop that takes all of a kind leaves. -/
structure Replaced (vec : σ → Vec α) (p : α → Bool) (new : α → Prop) (gone : σ → List α) (Inv : σ → Prop) (s s' : σ) :
    Prop where
  inv : Inv s'
  gone : gone s' = gone s ++ (vec s).elements.filter p
  elements : ∃ added, (∀ r ∈ added, new r) ∧ (vec s').elements = (vec s).elements.filter (¬ p ·) ++ added
  spare : (∀ x ∈ (vec s).elements, ¬ p x) ∧ s' = s ∨ (∃ x ∈ (vec s).elements, p x) ∧ (vec s').spare ≠ []

/-- Elements of one kind that a loop can take one by one. -/
structure Loopable (p : α → Bool) (v : Vec α) : Prop where
  apart : v.elements.IsChain fun a b => ¬ (p a ∧ p b)
  /-- In a full buffer the first one is the last of all elements. -/
  last : v.spare = [] → ∀ x ∈ (v.elements.filter p).head?, v.elements.getLast? = some x

omit [DecidableEq α] in
private theorem exists_first (hp : ∃ x ∈ (vec s).elements, p x) : ∃ front x rest,
    (vec s).elements = front ++ x :: rest ∧ (∀ y ∈ front, ¬ p y) ∧ p x := by
  obtain ⟨x, hx⟩ := Option.isSome_iff_exists.mp (List.find?_isSome.mpr hp)
  obtain ⟨hpx, front, rest, heq, hfront⟩ := List.find?_eq_some_iff_append.mp hx
  exact ⟨front, x, rest, heq, by simpa using hfront, hpx⟩

/-- In a full buffer the first one that is taken makes the loop end, one way or the other. -/
private theorem Replaces.forEach_full (hb : Replaces vec body p new gone Inv) (hs : Inv s) (hspare : (vec s).spare = [])
    {front rest : List α} {x : α} (h : (vec s).elements = front ++ x :: rest) (hfront : ∀ y ∈ front, ¬ p y) (hx : p x) :
    if rest = [] then ∃ s', forEach vec body s = some s' ∧ Replaced vec p new gone Inv s s' else forEach vec body s = none := by
  obtain ⟨s₁, r, h₁, hs₁, hr, helements, hspare₁, hmoves, hgone⟩ := hb.take x s hs (by simp [h]) hx
  rw [if_pos hspare] at hmoves
  have hrun : forEach vec body s = rounds vec body (vec s).moves rest.length (front.length + 1) s₁ := by
    have hskip := hb.rounds_skip hs [] (rest.length + 1) h hfront
    rw [List.nil_append] at hskip
    rw [forEach, h, List.length_append, List.length_cons]
    exact hskip.trans (by rw [rounds_succ h, h₁]; rfl)
  split
  · next hrest =>
    subst hrest
    have hnodup := h ▸ hb.nodup s hs
    have hleft : (front ++ [x]).filter (¬ p ·) = front := by
      rw [List.filter_append, List.filter_cons_of_neg (by simpa using hx)]
      simpa using hfront
    refine ⟨s₁, hrun, hs₁, ?_, ⟨[r], by simpa using hr, ?_⟩, .inr ⟨⟨x, by simp [h], hx⟩, hspare₁⟩⟩
    · have hnone : front.filter p = [] := by simpa using hfront
      rw [hgone, h, List.filter_append, hnone, List.nil_append, List.filter_cons_of_pos hx]
      rfl
    · rw [helements, h, filter_ne_append hnodup, hleft, List.append_nil]
  · next hrest =>
    obtain ⟨y, rest, rfl⟩ := List.exists_cons_of_ne_nil hrest
    rw [hrun, List.length_cons, rounds, if_pos (by omega)]

private theorem Replaces.forEach_none (hb : Replaces vec body p new gone Inv) (hs : Inv s)
    (h : ∀ x ∈ (vec s).elements, ¬ p x) : forEach vec body s = some s := by
  have hall : (vec s).elements = [] ++ ((vec s).elements ++ []) := by rw [List.nil_append, List.append_nil]
  exact hb.rounds_skip hs [] 0 hall h

/-- A loop takes all of the kind if it can, -/
theorem Replaces.exists_forEach (hb : Replaces vec body p new gone Inv) (hs : Inv s) (h : Loopable p (vec s)) :
    ∃ s', forEach vec body s = some s' ∧ Replaced vec p new gone Inv s s' := by
  have hnodup := hb.nodup s hs
  by_cases hp : ∃ x ∈ (vec s).elements, p x
  · by_cases hspare : (vec s).spare = []
    · obtain ⟨front, x, rest, heq, hfront, hx⟩ := exists_first hp
      have hfull := hb.forEach_full hs hspare heq hfront hx
      have hfirst : ((vec s).elements.filter p).head? = some x := by
        have hnone : front.filter p = [] := by simpa using hfront
        rw [heq, List.filter_append, hnone, List.nil_append, List.filter_cons_of_pos hx]
        rfl
      have hlast := h.last hspare x hfirst
      have hrest : rest = [] := by
        rcases List.eq_nil_or_concat rest with rfl | ⟨front', y, rfl⟩
        · rfl
        · rw [heq] at hlast hnodup
          have hy : y = x := by
            rw [List.concat_eq_append, ← List.cons_append, ← List.append_assoc, List.getLast?_concat] at hlast
            exact Option.some.inj hlast
          have := (List.nodup_cons.mp (List.nodup_append.mp hnodup).2.1).1
          exact absurd (by simp [hy]) this
      rwa [if_pos hrest] at hfull
    · obtain ⟨s', added, hrun, hs', hspare', hgone, hadded, helements⟩ :=
        hb.rounds_taken hs [] (List.nil_append _).symm hspare
      have htaken : ∀ x ∈ (vec s).elements, x ∈ taken p false (vec s).elements ↔ p x := fun x hx =>
        ⟨of_mem_taken, (taken_complete_iff hnodup).mpr h.apart x hx⟩
      refine ⟨s', hrun, hs', ?_, ⟨added, hadded, ?_⟩, .inr ⟨hp, hspare'⟩⟩
      · rw [hgone, taken_eq_filter hnodup h.apart]
      · rw [helements, List.nil_append]
        congr 1
        exact List.filter_congr fun x hx => by rw [decide_eq_decide, htaken x hx]
  · have hnone : ∀ x ∈ (vec s).elements, ¬ p x := fun x hx hpx => hp ⟨x, hx, hpx⟩
    refine ⟨s, hb.forEach_none hs hnone, hs, ?_, ⟨[], List.forall_mem_nil _, ?_⟩, .inl ⟨hnone, rfl⟩⟩
    · have : (vec s).elements.filter p = [] := by simpa using hnone
      rw [this, List.append_nil]
    · have : (vec s).elements.filter (¬ p ·) = (vec s).elements := by simpa using hnone
      rw [this, List.append_nil]

/-- and takes none of another kind in any case, -/
theorem Replaces.gone_of_forEach (hb : Replaces vec body p new gone Inv) (hs : Inv s) {s' : σ}
    (h : forEach vec body s = some s') : Inv s' ∧ ∃ l, gone s' = gone s ++ l ∧ ∀ x ∈ l, p x := by
  by_cases hspare : (vec s).spare = []
  · by_cases hp : ∃ x ∈ (vec s).elements, p x
    · obtain ⟨front, x, rest, heq, hfront, hx⟩ := exists_first hp
      have hfull := hb.forEach_full hs hspare heq hfront hx
      split at hfull
      · obtain ⟨s₁, hrun, hs₁⟩ := hfull
        cases h.symm.trans hrun
        exact ⟨hs₁.inv, _, hs₁.gone, fun y hy => List.of_mem_filter hy⟩
      · rw [hfull] at h
        cases h
    · cases h.symm.trans (hb.forEach_none hs fun x hx hpx => hp ⟨x, hx, hpx⟩)
      exact ⟨hs, [], (List.append_nil _).symm, List.forall_mem_nil _⟩
  · obtain ⟨s₁, added, hrun, hs₁, -, hgone, -⟩ := hb.rounds_taken hs [] (List.nil_append _).symm hspare
    cases h.symm.trans hrun
    exact ⟨hs₁, _, hgone, fun y hy => of_mem_taken hy⟩

/-- and all of the kind only then. -/
theorem Replaces.loopable (hb : Replaces vec body p new gone Inv) (hs : Inv s) {s' : σ} (h : forEach vec body s = some s')
    (hgone : ∀ x ∈ gone s, x ∉ (vec s).elements) (hall : ∀ x ∈ (vec s).elements, p x → x ∈ gone s') :
    Loopable p (vec s) := by
  have hnodup := hb.nodup s hs
  by_cases hspare : (vec s).spare = []
  · by_cases hp : ∃ x ∈ (vec s).elements, p x
    · obtain ⟨front, x, rest, heq, hfront, hx⟩ := exists_first hp
      have hfull := hb.forEach_full hs hspare heq hfront hx
      split at hfull
      · next hrest =>
        subst hrest
        have hnone : front.filter p = [] := by simpa using hfront
        have happart : (front ++ [x]).Pairwise fun a b => ¬ (p a ∧ p b) := by
          refine List.pairwise_append.mpr ⟨?_, List.pairwise_singleton _ _, fun a ha _ _ hab => hfront a ha hab.1⟩
          exact List.pairwise_of_forall_mem_list fun a ha _ _ hab => hfront a ha hab.1
        refine ⟨heq ▸ happart.isChain, fun _ y hy => ?_⟩
        rw [heq, List.filter_append, hnone, List.nil_append, List.filter_cons_of_pos hx] at hy
        rw [heq, List.getLast?_concat]
        exact hy
      · rw [hfull] at h
        cases h
    · have hnone : ∀ x ∈ (vec s).elements, ¬ p x := fun x hx hpx => hp ⟨x, hx, hpx⟩
      refine ⟨(taken_complete_iff hnodup).mp fun x hx hpx => absurd hpx (hnone x hx), fun _ x hx => ?_⟩
      obtain ⟨hx, hpx⟩ := List.mem_filter.mp (List.mem_of_mem_head? hx)
      exact absurd hpx (hnone x hx)
  · refine ⟨(taken_complete_iff hnodup).mp fun x hx hpx => ?_, fun hfull => absurd hfull hspare⟩
    obtain ⟨s₁, added, hrun, -, -, hgone', -⟩ := hb.rounds_taken hs [] (List.nil_append _).symm hspare
    cases h.symm.trans hrun
    have hmem := hall x hx hpx
    rw [hgone'] at hmem
    exact (List.mem_append.mp hmem).resolve_left fun hmem => hgone x hmem hx

end Replaces

end Vec
end KWinFT.Lib
