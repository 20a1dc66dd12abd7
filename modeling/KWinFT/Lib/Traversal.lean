import KWinFT.Lib.Acyclic
import Mathlib.Data.List.Count
import Mathlib.Data.List.Induction

/-! A stack is built by going down a relation: each element is put on top of what is there, its
children are taken out of it and put above the element, each with its own children. An element
below two others on different branches may so be placed twice. -/
namespace KWinFT.Lib
open Relation
variable {α : Type*} (kids : α → List α)

/-- Being a child. -/
def Kid (a b : α) : Prop := b ∈ kids a

/-- One element can be reached from the other by going to children. -/
def Reaches : α → α → Prop := ReflTransGen (Kid kids)

/-- No cycles, and children of the domain belong to it. -/
structure Finitary (dom : Finset α) : Prop where
  acyclic : Acyclic (Kid kids)
  closed : ∀ c ∈ dom, ∀ d ∈ kids c, d ∈ dom

/-- Going down from `c` takes fewer than `n` steps, by what is above it in the domain. -/
structure Deep (dom : Finset α) (n : Nat) (c : α) : Prop where
  mem : c ∈ dom
  depth : dom.card ≤ rank (Kid kids) dom c + n

variable {kids} {dom : Finset α} {n : Nat} {c d x : α}

theorem deep_card (hc : c ∈ dom) : Deep kids dom dom.card c := ⟨hc, Nat.le_add_left _ _⟩

theorem Finitary.deep_pos (h : Finitary kids dom) (hd : Deep kids dom n c) : n ≠ 0 := by
  rintro rfl
  have := h.acyclic.rank_lt_card hd.mem
  have := hd.depth
  omega

theorem Finitary.deep_kid (h : Finitary kids dom) (hc : Deep kids dom (n + 1) c) (hd : d ∈ kids c) :
    Deep kids dom n d := by
  refine ⟨h.closed c hc.mem d hd, ?_⟩
  have := h.acyclic.rank_lt hc.mem (show Kid kids c d from hd)
  have := hc.depth
  omega

theorem Finitary.not_reaches_of_kid (h : Finitary kids dom) (hd : d ∈ kids c) : ¬ Reaches kids d c :=
  fun hr => h.acyclic c (TransGen.head' hd hr)

theorem Finitary.not_mem_kids_self (h : Finitary kids dom) : c ∉ kids c :=
  fun hc => h.not_reaches_of_kid hc .refl

theorem reaches_iff : Reaches kids c x ↔ x = c ∨ ∃ d ∈ kids c, Reaches kids d x := by
  unfold Reaches
  rw [ReflTransGen.cases_head_iff, eq_comm]
  rfl

theorem Finitary.reaches_mem (h : Finitary kids dom) (hc : c ∈ dom) (hr : Reaches kids c x) : x ∈ dom := by
  induction hr with
  | refl => exact hc
  | tail _ hk ih => exact h.closed _ ih _ hk

/-- Induction along the traversal: over the lists from the front and over the children of each
element that comes next. -/
theorem Finitary.traversal_induction (h : Finitary kids dom) {P : Nat → List α → Prop}
    (nil : ∀ n, P n []) (snoc : ∀ n init c, Deep kids dom (n + 1) c →
      (∀ d ∈ init, Deep kids dom (n + 1) d) → P (n + 1) init → P n (kids c) → P (n + 1) (init ++ [c]))
    {cs : List α} (hcs : ∀ c ∈ cs, Deep kids dom n c) : P n cs := by
  induction n generalizing cs with
  | zero =>
    cases cs with
    | nil => exact nil 0
    | cons c cs => exact absurd rfl (h.deep_pos (hcs c List.mem_cons_self))
  | succ n ih =>
    induction cs using List.reverseRecOn with
    | nil => exact nil (n + 1)
    | append_singleton init c ihc =>
      have hc : Deep kids dom (n + 1) c := hcs c (by simp)
      have hinit : ∀ d ∈ init, Deep kids dom (n + 1) d := fun d hd => hcs d (by simp [hd])
      exact snoc n init c hc hinit (ihc hinit) (ih fun d hd => h.deep_kid hc hd)

/-- `x` is below exactly one of the listed elements that count: the last one that reaches it, which
has it as a child if another one reaches it too; and so on below that one. -/
inductive Once (kids : α → List α) (x : α) : List α → Prop
  | skip {cs init : List α} {c : α} : cs = init ++ [c] → Once kids x init → ¬ Reaches kids c x → Once kids x cs
  | self {cs init : List α} : cs = init ++ [x] → (∀ d ∈ init, ¬ Reaches kids d x) → Once kids x cs
  | under {cs init : List α} {c : α} : cs = init ++ [c] → Once kids x (kids c) →
      (x ∈ kids c ∨ ∀ d ∈ init, ¬ Reaches kids d x) → Once kids x cs

private theorem snoc_inj {init init' : List α} {c c' : α} (h : init ++ [c] = init' ++ [c']) :
    init = init' ∧ c = c' := by
  obtain ⟨h₁, h₂⟩ := List.append_inj' h rfl
  exact ⟨h₁, List.singleton_inj.mp h₂⟩

theorem once_snoc {init : List α} : Once kids x (init ++ [c]) ↔ (Once kids x init ∧ ¬ Reaches kids c x) ∨
    (c = x ∧ ∀ d ∈ init, ¬ Reaches kids d x) ∨
    (Once kids x (kids c) ∧ (x ∈ kids c ∨ ∀ d ∈ init, ¬ Reaches kids d x)) := by
  constructor
  · rintro (⟨heq, ho, hr⟩ | ⟨heq, hno⟩ | ⟨heq, ho, hk⟩)
    · obtain ⟨rfl, rfl⟩ := snoc_inj heq; exact .inl ⟨ho, hr⟩
    · obtain ⟨rfl, rfl⟩ := snoc_inj heq; exact .inr (.inl ⟨rfl, hno⟩)
    · obtain ⟨rfl, rfl⟩ := snoc_inj heq; exact .inr (.inr ⟨ho, hk⟩)
  · rintro (⟨ho, hr⟩ | ⟨rfl, hno⟩ | ⟨ho, hk⟩)
    · exact .skip rfl ho hr
    · exact .self rfl hno
    · exact .under rfl ho hk

/-- How `b`, a child of `a`, comes to stand above every `a`: nothing from the last element on that
reaches `a` leaves a `b` below. That element is `a` itself, or a later one has `b` as a child and
so pulls it up again, or all is well below it and no earlier `b` is left. -/
inductive Lifted (kids : α → List α) (a b : α) : List α → Prop
  | nil : Lifted kids a b []
  | skip {cs init : List α} {c : α} : cs = init ++ [c] → Lifted kids a b init → ¬ Reaches kids c a →
      Lifted kids a b cs
  | again {cs init : List α} {c : α} : cs = init ++ [c] → b ∈ kids c → ¬ Reaches kids c a → Lifted kids a b cs
  | self {cs init : List α} : cs = init ++ [a] → Lifted kids a b cs
  | under {cs init : List α} {c : α} : cs = init ++ [c] → Lifted kids a b (kids c) →
      (b ∈ kids c ∨ ∀ d ∈ init, ¬ Reaches kids d b) → Lifted kids a b cs

theorem lifted_snoc {init : List α} {a b : α} : Lifted kids a b (init ++ [c]) ↔
    (Lifted kids a b init ∧ ¬ Reaches kids c a) ∨ (b ∈ kids c ∧ ¬ Reaches kids c a) ∨ c = a ∨
    (Lifted kids a b (kids c) ∧ (b ∈ kids c ∨ ∀ d ∈ init, ¬ Reaches kids d b)) := by
  constructor
  · intro h
    generalize hcs : init ++ [c] = cs at h
    cases h with
    | nil => simp at hcs
    | skip heq hl hr =>
      obtain ⟨rfl, rfl⟩ := snoc_inj (hcs.trans heq); exact .inl ⟨hl, hr⟩
    | again heq hb hr =>
      obtain ⟨rfl, rfl⟩ := snoc_inj (hcs.trans heq); exact .inr (.inl ⟨hb, hr⟩)
    | self heq =>
      obtain ⟨rfl, rfl⟩ := snoc_inj (hcs.trans heq); exact .inr (.inr (.inl rfl))
    | under heq hl hk =>
      obtain ⟨rfl, rfl⟩ := snoc_inj (hcs.trans heq); exact .inr (.inr (.inr ⟨hl, hk⟩))
  · rintro (⟨hl, hr⟩ | ⟨hb, hr⟩ | rfl | ⟨hl, hk⟩)
    · exact .skip rfl hl hr
    · exact .again rfl hb hr
    · exact .self rfl
    · exact .under rfl hl hk

/-- Every `b` stands above every `a`. -/
def AboveIn (stack : List α) (a b : α) : Prop :=
  ∀ i j : Nat, stack[i]? = some a → stack[j]? = some b → i < j

theorem aboveIn_iff_pairwise {stack : List α} {a b : α} (hab : a ≠ b) :
    AboveIn stack a b ↔ stack.Pairwise fun x y => ¬ (x = b ∧ y = a) := by
  rw [List.pairwise_iff_getElem]
  constructor
  · rintro h i j hi hj hij ⟨hb, ha⟩
    have := h j i (by rw [List.getElem?_eq_getElem hj, ha]) (by rw [List.getElem?_eq_getElem hi, hb])
    omega
  · intro h i j ha hb
    obtain ⟨hi, ha⟩ := List.getElem?_eq_some_iff.mp ha
    obtain ⟨hj, hb⟩ := List.getElem?_eq_some_iff.mp hb
    rcases Nat.lt_trichotomy i j with hij | rfl | hji
    · exact hij
    · exact absurd (ha.symm.trans hb) hab
    · exact absurd ⟨hb, ha⟩ (h j i hj hi hji)

private theorem pairwise_of_not_mem {stack : List α} {a b : α} (h : a ∉ stack ∨ b ∉ stack) :
    stack.Pairwise fun x y => ¬ (x = b ∧ y = a) := by
  refine List.pairwise_iff_forall_sublist.mpr fun {x y} hsub heq => ?_
  have hmem := hsub.subset
  rcases h with h | h
  · exact h (heq.2 ▸ hmem (by simp))
  · exact h (heq.1 ▸ hmem (by simp))

variable [DecidableEq α] {cs : List α}

variable (kids) in
/-- `c` goes on top of the stack, followed by all below it. -/
def place : Nat → α → List α → List α
  | 0, _, stack => stack
  | n + 1, c, stack =>
    ((stack ++ [c]).filter (· ∉ kids c)) ++ (kids c).foldl (fun above d => place n d above) []

variable (kids) in
/-- The elements of a list are placed one after the other. -/
def placeAll (n : Nat) (cs : List α) : List α := cs.foldl (fun stack c => place kids n c stack) []

theorem placeAll_snoc (n : Nat) (init : List α) (c : α) : placeAll kids (n + 1) (init ++ [c]) =
    ((placeAll kids (n + 1) init ++ [c]).filter (· ∉ kids c)) ++ placeAll kids n (kids c) := by
  simp [placeAll, place]

/-- Everything below the listed elements is placed, and nothing else. -/
theorem Finitary.mem_placeAll (h : Finitary kids dom) (hcs : ∀ c ∈ cs, Deep kids dom n c) :
    x ∈ placeAll kids n cs ↔ ∃ c ∈ cs, Reaches kids c x := by
  refine h.traversal_induction (P := fun n cs => x ∈ placeAll kids n cs ↔ ∃ c ∈ cs, Reaches kids c x)
    (fun n => by simp [placeAll]) (fun n init c _ _ hinit hkids => ?_) hcs
  have hself : x ∈ kids c → ∃ d ∈ kids c, Reaches kids d x := fun hx => ⟨x, hx, .refl⟩
  rw [placeAll_snoc, List.mem_append, hkids, List.mem_filter, List.mem_append, hinit]
  simp only [List.mem_append, List.mem_singleton, or_and_right, exists_or, exists_eq_left,
    decide_eq_true_eq]
  rw [reaches_iff (c := c)]
  by_cases hx : x ∈ kids c
  · simp [hx, hself hx]
  · simp [hx, or_assoc]

/-- An element is placed exactly once if and only if it is below one that counts at each level. -/
theorem Finitary.count_placeAll (h : Finitary kids dom) (hcs : ∀ c ∈ cs, Deep kids dom n c) :
    (placeAll kids n cs).count x = 1 ↔ Once kids x cs := by
  refine h.traversal_induction (P := fun n cs => (placeAll kids n cs).count x = 1 ↔ Once kids x cs)
    (fun n => ?_) (fun n init c hc hdeep hinit hkids => ?_) hcs
  · refine iff_of_false (by simp [placeAll]) ?_
    rintro (⟨heq, -, -⟩ | ⟨heq, -⟩ | ⟨heq, -, -⟩) <;> simp at heq
  have hmem : (placeAll kids (n + 1) init).count x = 0 ↔ ∀ d ∈ init, ¬ Reaches kids d x := by
    rw [List.count_eq_zero, h.mem_placeAll hdeep]
    simp
  have hmemk : (placeAll kids n (kids c)).count x = 0 ↔ ∀ d ∈ kids c, ¬ Reaches kids d x := by
    rw [List.count_eq_zero, h.mem_placeAll fun d hd => h.deep_kid hc hd]
    simp
  rw [once_snoc, placeAll_snoc, List.count_append, ← hinit, ← hkids, ← hmem, reaches_iff]
  by_cases hx : x ∈ kids c
  · have hcx : c ≠ x := fun heq => h.not_mem_kids_self (heq ▸ hx)
    have hdrop : ((placeAll kids (n + 1) init ++ [c]).filter (· ∉ kids c)).count x = 0 := by
      rw [List.count_eq_zero, List.mem_filter]
      simp [hx]
    have hreach : ∃ d ∈ kids c, Reaches kids d x := ⟨x, hx, .refl⟩
    rw [hdrop]
    simp [hcx, hx, hreach]
  · have hkeep : ((placeAll kids (n + 1) init ++ [c]).filter (· ∉ kids c)).count x =
        (placeAll kids (n + 1) init).count x + if c = x then 1 else 0 := by
      rw [List.count_filter (by simpa using hx), List.count_append, List.count_singleton]
      simp
    have hnone : (¬ ∃ d ∈ kids c, Reaches kids d x) ↔ (placeAll kids n (kids c)).count x = 0 := by
      rw [hmemk]
      simp
    rw [hkeep, not_or, hnone]
    by_cases hcx : c = x
    · have hzero : (placeAll kids n (kids c)).count x = 0 :=
        hmemk.mpr fun d hd hr => h.not_reaches_of_kid hd (hcx ▸ hr)
      subst hcx
      simp [hzero]
    · simp only [hcx, hx, if_false, Ne.symm hcx, not_false_eq_true, true_and, false_and, false_or]
      omega

section lift
variable {S T ks : List α} {a b : α}

/-- What is left below when `b` is pulled up has no say. -/
private theorem pairwise_lift_of_mem (hb : b ∈ ks) :
    ((S ++ [c]).filter (· ∉ ks) ++ T).Pairwise (fun x y => ¬ (x = b ∧ y = a)) ↔
      T.Pairwise fun x y => ¬ (x = b ∧ y = a) := by
  have hgone : b ∉ (S ++ [c]).filter (· ∉ ks) := fun hm => by simp [hb] at hm
  rw [List.pairwise_append]
  refine ⟨fun hp => hp.2.1, fun hp => ⟨pairwise_of_not_mem (.inr hgone), hp, ?_⟩⟩
  exact fun x hx y _ heq => hgone (heq.1 ▸ hx)

/-- If `a` comes on top, no `b` may be left. -/
private theorem pairwise_lift_of_above (hb : b ∉ ks) (hbc : b ≠ c) (ha : a ∈ T) :
    ((S ++ [c]).filter (· ∉ ks) ++ T).Pairwise (fun x y => ¬ (x = b ∧ y = a)) ↔
      T.Pairwise (fun x y => ¬ (x = b ∧ y = a)) ∧ b ∉ S := by
  have hmem : b ∈ (S ++ [c]).filter (· ∉ ks) ↔ b ∈ S := by simp [hb, hbc]
  rw [List.pairwise_append]
  constructor
  · rintro ⟨-, hpt, hcross⟩
    exact ⟨hpt, fun hbS => hcross b (hmem.mpr hbS) a ha ⟨rfl, rfl⟩⟩
  · rintro ⟨hpt, hbS⟩
    have hgone := fun hm => hbS (hmem.mp hm)
    exact ⟨pairwise_of_not_mem (.inr hgone), hpt, fun x hx y _ heq => hgone (heq.1 ▸ hx)⟩

/-- If neither is touched and no `a` comes on top, nothing changes. -/
private theorem pairwise_lift_of_not_above (hb : b ∉ ks) (hak : a ∉ ks) (hca : c ≠ a) (ha : a ∉ T) :
    ((S ++ [c]).filter (· ∉ ks) ++ T).Pairwise (fun x y => ¬ (x = b ∧ y = a)) ↔
      S.Pairwise fun x y => ¬ (x = b ∧ y = a) := by
  rw [List.pairwise_append, List.pairwise_filter, List.pairwise_append]
  constructor
  · rintro ⟨⟨hps, -, -⟩, -, -⟩
    refine hps.imp fun himp heq => ?_
    exact himp (by simpa [heq.1] using hb) (by simpa [heq.2] using hak) heq
  · intro hps
    refine ⟨⟨hps.imp fun hxy _ _ => hxy, List.pairwise_singleton _ _, fun x _ y hy _ _ heq => ?_⟩,
      pairwise_of_not_mem (.inl ha), fun x _ y hy heq => ha (heq.2 ▸ hy)⟩
    exact hca ((List.mem_singleton.mp hy).symm.trans heq.2)

end lift

/-- Every `b` is placed above every `a` if and only if it is lifted there at each level. -/
theorem Finitary.aboveIn_placeAll (h : Finitary kids dom) {a b : α} (hab : b ∈ kids a)
    (hcs : ∀ c ∈ cs, Deep kids dom n c) : AboveIn (placeAll kids n cs) a b ↔ Lifted kids a b cs := by
  have hne : a ≠ b := fun heq => h.not_mem_kids_self (heq ▸ hab)
  rw [aboveIn_iff_pairwise hne]
  refine h.traversal_induction (P := fun n cs =>
      (placeAll kids n cs).Pairwise (fun x y => ¬ (x = b ∧ y = a)) ↔ Lifted kids a b cs)
    (fun n => iff_of_true List.Pairwise.nil .nil) (fun n init c hc hdeep hinit hkids => ?_) hcs
  have hS : (∀ d ∈ init, ¬ Reaches kids d b) ↔ b ∉ placeAll kids (n + 1) init := by
    rw [h.mem_placeAll hdeep]
    simp
  have hT : a ∈ placeAll kids n (kids c) ↔ ∃ d ∈ kids c, Reaches kids d a :=
    h.mem_placeAll fun d hd => h.deep_kid hc hd
  have hno : ¬ Reaches kids c a → a ∉ placeAll kids n (kids c) :=
    fun hr ha => hr (reaches_iff.mpr (.inr (hT.mp ha)))
  rw [lifted_snoc, placeAll_snoc, ← hinit, ← hkids, hS]
  by_cases hb : b ∈ kids c
  · rw [pairwise_lift_of_mem hb]
    refine ⟨fun hp => .inr (.inr (.inr ⟨hp, .inl hb⟩)), ?_⟩
    rintro (⟨-, hca⟩ | ⟨-, hca⟩ | rfl | ⟨hp, -⟩)
    · exact pairwise_of_not_mem (.inl (hno hca))
    · exact pairwise_of_not_mem (.inl (hno hca))
    · refine pairwise_of_not_mem (.inl fun ha => ?_)
      obtain ⟨d, hd, hda⟩ := hT.mp ha
      exact h.not_reaches_of_kid hd hda
    · exact hp
  have hca : c ≠ a := fun heq => hb (heq ▸ hab)
  by_cases hr : Reaches kids c a
  · have ha := hT.mpr ((reaches_iff.mp hr).resolve_left hca.symm)
    rw [pairwise_lift_of_above hb (fun heq => h.not_reaches_of_kid hab (heq ▸ hr)) ha]
    simp [hr, hca, hb]
  · have hak : a ∉ kids c := fun hak => hr (reaches_iff.mpr (.inr ⟨a, hak, .refl⟩))
    rw [pairwise_lift_of_not_above hb hak hca (hno hr)]
    simp only [hr, not_false_eq_true, and_true, hca, hb, false_or]
    exact ⟨.inl, fun hp => hp.elim id fun hbS => pairwise_of_not_mem (.inr hbS.2)⟩

/-- Elements that are nobody's children stay in the order they are listed in. -/
theorem Finitary.filter_placeAll (h : Finitary kids dom) {p : α → Bool} (hp : ∀ c, ∀ d ∈ kids c, p d = false)
    (hcs : ∀ c ∈ cs, Deep kids dom n c) : (placeAll kids n cs).filter p = cs.filter p := by
  refine h.traversal_induction (P := fun n cs => (placeAll kids n cs).filter p = cs.filter p)
    (fun n => rfl) (fun n init c _ _ hinit hkids => ?_) hcs
  have hnone : (kids c).filter p = [] := List.filter_eq_nil_iff.mpr fun d hd => by simp [hp c d hd]
  have hkeep (l : List α) : (l.filter (· ∉ kids c)).filter p = l.filter p := by
    rw [List.filter_filter]
    refine List.filter_congr fun d _ => ?_
    by_cases hd : d ∈ kids c
    · simp [hp c d hd]
    · simp [hd]
  rw [placeAll_snoc, List.filter_append, hkids, hnone, List.append_nil, hkeep, List.filter_append, hinit,
    List.filter_append]

/-- The same for elements that are nobody's children below the listed ones. -/
theorem Finitary.filter_placeAll_below (h : Finitary kids dom) {p : α → Bool}
    (hp : ∀ r ∈ cs, ∀ c, Reaches kids r c → ∀ d ∈ kids c, p d = false) (hcs : ∀ c ∈ cs, Deep kids dom n c) :
    (placeAll kids n cs).filter p = cs.filter p := by
  refine h.traversal_induction (P := fun n cs => (∀ r ∈ cs, ∀ c, Reaches kids r c → ∀ d ∈ kids c, p d = false) →
    (placeAll kids n cs).filter p = cs.filter p) (fun n _ => rfl) (fun n init c _ _ hinit hkids hp => ?_) hcs hp
  have hself : ∀ d ∈ kids c, p d = false := hp c (by simp) c .refl
  have hnone : (kids c).filter p = [] := List.filter_eq_nil_iff.mpr fun d hd => by simp [hself d hd]
  have hkeep (l : List α) : (l.filter (· ∉ kids c)).filter p = l.filter p := by
    rw [List.filter_filter]
    refine List.filter_congr fun d _ => ?_
    by_cases hd : d ∈ kids c
    · simp [hself d hd]
    · simp [hd]
  have hbelow := hkids fun r hr x hx => hp c (by simp) x (.head hr hx)
  rw [placeAll_snoc, List.filter_append, hbelow, hnone, List.append_nil, hkeep, List.filter_append,
    hinit fun r hr => hp r (by simp [hr]), List.filter_append]

/-- Elements that are children of one element only, to which one of those side by side leads at most, are placed in the order
in which they are listed there. -/
theorem Finitary.filter_placeAll_kids (h : Finitary kids dom) {p : α → Bool} {w : α}
    (hp : ∀ c, ∀ d ∈ kids c, p d → c = w)
    (hone : ∀ c, (kids c).Pairwise fun a b => ¬ (Reaches kids a w ∧ Reaches kids b w))
    (hcs : ∀ c ∈ cs, Deep kids dom n c) (hlisted : ∀ d ∈ cs, p d = false)
    (hcsone : cs.Pairwise fun a b => ¬ (Reaches kids a w ∧ Reaches kids b w)) (hreach : ∃ d ∈ cs, Reaches kids d w) :
    (placeAll kids n cs).filter p = (kids w).filter p := by
  refine h.traversal_induction (P := fun n cs => (∀ d ∈ cs, p d = false) →
    (cs.Pairwise fun a b => ¬ (Reaches kids a w ∧ Reaches kids b w)) → (∃ d ∈ cs, Reaches kids d w) →
    (placeAll kids n cs).filter p = (kids w).filter p) (fun n _ _ hr => ?_)
    (fun n init c hc hdeep hinit hkids hlisted hcsone hreach => ?_) hcs hlisted hcsone hreach
  · obtain ⟨d, hd, -⟩ := hr
    cases hd
  have hdeepk : ∀ d ∈ kids c, Deep kids dom n d := fun d hd => h.deep_kid hc hd
  have hpc : p c = false := hlisted c (by simp)
  rw [List.pairwise_append] at hcsone
  obtain ⟨hinitone, -, hcross⟩ := hcsone
  rw [placeAll_snoc, List.filter_append]
  by_cases hr : Reaches kids c w
  · -- nothing of it is in what was placed before
    have hbefore : ((placeAll kids (n + 1) init ++ [c]).filter (· ∉ kids c)).filter p = [] := by
      refine List.filter_eq_nil_iff.mpr fun x hx hpx => ?_
      rcases List.mem_append.mp (List.mem_of_mem_filter hx) with hx | hx
      · obtain ⟨d, hd, hdx⟩ := (h.mem_placeAll hdeep).mp hx
        rcases Relation.ReflTransGen.cases_tail hdx with rfl | ⟨l, hdl, hlx⟩
        · exact absurd (hlisted x (by simp [hd])) (by simp [hpx])
        · exact hcross d hd c (by simp) ⟨hp l x hlx hpx ▸ hdl, hr⟩
      · rw [List.mem_singleton.mp hx, hpc] at hpx
        exact Bool.false_ne_true hpx
    rw [hbefore, List.nil_append]
    by_cases hcw : c = w
    · subst hcw
      refine h.filter_placeAll_below (fun r hrc x hrx d hd => ?_) hdeepk
      rw [Bool.eq_false_iff]
      intro hpd
      exact h.not_reaches_of_kid hrc (hp x d hd hpd ▸ hrx)
    · refine hkids (fun d hd => ?_) (hone c) ((reaches_iff.mp hr).resolve_left fun he => hcw he.symm)
      rw [Bool.eq_false_iff]
      exact fun hpd => hcw (hp c d hd hpd)
  · have hcw : c ≠ w := fun he => hr (he ▸ .refl)
    have habove : (placeAll kids n (kids c)).filter p = [] := by
      refine List.filter_eq_nil_iff.mpr fun x hx hpx => hr ?_
      obtain ⟨d, hd, hdx⟩ := (h.mem_placeAll hdeepk).mp hx
      rcases Relation.ReflTransGen.cases_tail hdx with rfl | ⟨l, hdl, hlx⟩
      · exact absurd (hp c x hd hpx) hcw
      · exact .head hd (hp l x hlx hpx ▸ hdl)
    have hstays : ((placeAll kids (n + 1) init ++ [c]).filter (· ∉ kids c)).filter p =
        (placeAll kids (n + 1) init).filter p := by
      rw [List.filter_filter, List.filter_append]
      have hlast : [c].filter (fun a => p a && decide (a ∉ kids c)) = [] := by simp [hpc]
      rw [hlast, List.append_nil]
      refine List.filter_congr fun d _ => ?_
      by_cases hd : d ∈ kids c
      · have : p d = false := Bool.eq_false_iff.mpr fun hpd => hcw (hp c d hd hpd)
        simp [this]
      · simp [hd]
    rw [habove, hstays, List.append_nil]
    refine hinit (fun d hd => hlisted d (by simp [hd])) hinitone ?_
    obtain ⟨d, hd, hdw⟩ := hreach
    rcases List.mem_append.mp hd with hd | hd
    · exact ⟨d, hd, hdw⟩
    · exact absurd (List.mem_singleton.mp hd ▸ hdw) hr

end KWinFT.Lib
