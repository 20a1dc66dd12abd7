import KWinFT.Lib.Runs
import KWinFT.RuleBook.Book

/-! Lifetime of rules. A rule of the book is shared, a temporary rule that left the book belongs to one window; on
that ground no operation follows a dead reference, as long as a rule that is used up has no other holder and a
reconfiguration comes past every window that holds rules of the old book. -/
namespace KWinFT.RuleBook

namespace Rules
variable (rule : Rules)

theorem isEmpty_iff : rule.isEmpty ↔ (∀ p, (rule.set p).rule = .unused) ∧ ∀ p, (rule.force p).rule = .unused := by
  simp only [isEmpty, List.all_eq_true, decide_eq_true_eq]
  exact ⟨fun h => ⟨fun p => h.1 p p.mem_all, fun p => h.2 p p.mem_all⟩, fun h => ⟨fun p _ => h.1 p, fun p _ => h.2 p⟩⟩

/-- Empty once its used up policies are gone. -/
def spent (withdrawn : Bool) : Bool := (rule.discardUsed withdrawn).isEmpty

theorem spent_discardUsed (withdrawn : Bool) : (rule.discardUsed withdrawn).spent withdrawn = rule.spent withdrawn := by
  have hset : ∀ p : Policy, (p.discardUsedSet withdrawn).discardUsedSet withdrawn = p.discardUsedSet withdrawn := by
    intro p
    cases p <;> cases withdrawn <;> rfl
  have hforce : ∀ p : Policy,
      (p.discardUsedForce withdrawn).discardUsedForce withdrawn = p.discardUsedForce withdrawn := by
    intro p
    cases p <;> cases withdrawn <;> rfl
  simp only [spent, discardUsed, hset, hforce]

theorem update_rule (values : Values) (selection : Nat) (p : SetProperty) :
    ((rule.update values selection).set p).rule = (rule.set p).rule := by
  simp only [update]
  split <;> rfl

theorem spent_update (values : Values) (selection : Nat) (withdrawn : Bool) :
    (rule.update values selection).spent withdrawn = rule.spent withdrawn := by
  rw [Bool.eq_iff_iff]
  simp only [spent, isEmpty_iff, discardUsed, update_rule]
  rfl

theorem isTemporary_iff : rule.isTemporary ↔ rule.temporaryState ≠ 0 := by
  simp only [isTemporary, decide_eq_true_eq, Nat.pos_iff_ne_zero]

end Rules

namespace World

def Temporary (s : World) (r : Ref) : Prop := ∃ rule, s.heap.read r = some rule ∧ rule.isTemporary

/-- Not used up. -/
def Kept (withdrawn : Bool) (s : World) (r : Ref) : Prop :=
  ∀ rule, s.heap.read r = some rule → rule.spent withdrawn = false

end World

/-- The book and the windows of `P` refer to live rules, and a temporary rule has one holder. -/
structure Sound (P : Window → Prop) (s : World) : Prop where
  bookAlive : ∀ r ∈ s.book, s.heap.Alive r
  bookNodup : s.book.Nodup
  alive : ∀ w, P w → ∀ r ∈ s.rules w, s.heap.Alive r
  nodup : ∀ w, P w → (s.rules w).Nodup
  outOfBook : ∀ w, P w → ∀ r ∈ s.rules w, s.Temporary r → r ∉ s.book
  alone : ∀ w w', P w → P w' → ∀ r ∈ s.rules w, r ∈ s.rules w' → s.Temporary r → w = w'

variable {P Q : Window → Prop} {s s' : World} {w : Window} {r : Ref}

namespace Sound

theorem mono (h : Sound P s) (hPQ : ∀ w, Q w → P w) : Sound Q s :=
  ⟨h.bookAlive, h.bookNodup, fun w hw => h.alive w (hPQ w hw), fun w hw => h.nodup w (hPQ w hw),
    fun w hw => h.outOfBook w (hPQ w hw), fun w w' hw hw' => h.alone w w' (hPQ w hw) (hPQ w' hw')⟩

/-- Dropping references keeps the world sound, when those that remain stay alive. -/
theorem shrink (h : Sound P s) (hb : s'.book.Sublist s.book) (hr : ∀ w, P w → (s'.rules w).Sublist (s.rules w))
    (hba : ∀ r ∈ s'.book, s'.heap.Alive r) (hra : ∀ w, P w → ∀ r ∈ s'.rules w, s'.heap.Alive r)
    (ht : ∀ r, s'.Temporary r → s.Temporary r) : Sound P s' where
  bookAlive := hba
  bookNodup := h.bookNodup.sublist hb
  alive := hra
  nodup w hw := (h.nodup w hw).sublist (hr w hw)
  outOfBook w hw r hm htmp hmem := h.outOfBook w hw r ((hr w hw).subset hm) (ht r htmp) (hb.subset hmem)
  alone w w' hw hw' r hm hm' htmp := h.alone w w' hw hw' r ((hr w hw).subset hm) ((hr w' hw').subset hm') (ht r htmp)

end Sound

/-! Uses that change no policy. -/

/-- The same references, and rules that are as temporary and as used up as before. -/
structure Touches (withdrawn : Bool) (s s' : World) : Prop where
  book : s'.book = s.book
  rules : s'.rules = s.rules
  read : ∀ r, (s'.heap.read r).map (fun rule => (rule.isTemporary, rule.spent withdrawn)) =
    (s.heap.read r).map fun rule => (rule.isTemporary, rule.spent withdrawn)

namespace Touches
variable {b : Bool} {s'' : World}

theorem refl (s : World) : Touches b s s := ⟨rfl, rfl, fun _ => rfl⟩

theorem trans (h : Touches b s s') (h' : Touches b s' s'') : Touches b s s'' :=
  ⟨h'.book.trans h.book, h'.rules.trans h.rules, fun r => (h'.read r).trans (h.read r)⟩

theorem alive (h : Touches b s s') (r : Ref) : s'.heap.Alive r ↔ s.heap.Alive r := by
  have hr := congrArg Option.isSome (h.read r)
  rw [Option.isSome_map, Option.isSome_map] at hr
  rw [Lib.Heap.Alive, Lib.Heap.Alive, hr]

/-- A rule that is there after was there before, with the same answers. -/
theorem read_some (h : Touches b s s') {rule' : Rules} (hr : s'.heap.read r = some rule') :
    ∃ rule, s.heap.read r = some rule ∧ rule.isTemporary = rule'.isTemporary ∧ rule.spent b = rule'.spent b := by
  have hm := h.read r
  rw [hr, Option.map_some, eq_comm, Option.map_eq_some_iff] at hm
  obtain ⟨rule, hrule, heq⟩ := hm
  exact ⟨rule, hrule, congrArg Prod.fst heq, congrArg Prod.snd heq⟩

theorem temporary (h : Touches b s s') (ht : s'.Temporary r) : s.Temporary r := by
  obtain ⟨rule', hr, ht⟩ := ht
  obtain ⟨rule, hrule, heq, _⟩ := h.read_some hr
  exact ⟨rule, hrule, heq.trans ht⟩

theorem kept (h : Touches b s s') (hk : s.Kept b r) : s'.Kept b r := by
  intro rule' hr
  obtain ⟨rule, hrule, _, heq⟩ := h.read_some hr
  rw [← heq, hk rule hrule]

theorem sound (h : Touches b s s') (hs : Sound P s) : Sound P s' := by
  apply hs.shrink
  · rw [h.book]
  · intro w _
    rw [h.rules]
  · intro r hr
    rw [h.alive]
    exact hs.bookAlive r (h.book ▸ hr)
  · intro w hw r hr
    rw [h.alive]
    exact hs.alive w hw r (h.rules ▸ hr)
  · exact fun r => h.temporary

/-- Changing rules in place so that these answers stay. -/
theorem modify (f : Rules → Rules) (hf : ∀ rule : Rules, (f rule).isTemporary = rule.isTemporary)
    (hs : ∀ rule : Rules, (f rule).spent b = rule.spent b) (stored : Bool) :
    Touches b s { s with heap := s.heap.modify r f, storageRequested := stored } where
  book := rfl
  rules := rfl
  read a := by
    rw [Lib.Heap.read_modify]
    split
    · next ha =>
      rw [ha, Option.map_map]
      congr 1
      funext rule
      simp only [Function.comp_apply, hf, hs]
    · rfl

end Touches

theorem updateWindowRules_touches (h : Sound P s) (hw : P w) (b : Bool) (values : Values) (selection : Nat) :
    ∃ s', s.updateWindowRules w values selection = some s' ∧ Touches b s s' := by
  unfold World.updateWindowRules
  split
  · exact ⟨s, rfl, .refl s⟩
  · refine Lib.foldlM_loop (s.rules w) (fun _ s' => Touches b s s') ?_ (.refl s)
    intro done r todo s₁ has ht
    have ha : s₁.heap.Alive r := by
      rw [ht.alive]
      exact h.alive w hw r (has ▸ by simp)
    obtain ⟨rule, hr⟩ := ha.read_eq
    refine ⟨_, by rw [World.updateRule, hr]; rfl, ht.trans ?_⟩
    exact .modify (·.update values selection) (fun _ => rfl) (fun rule => rule.spent_update values selection b) _

private theorem checkIn_eq (p : Property) (rs : List Ref) (ha : ∀ r ∈ rs, s.heap.Alive r) :
    s.checkIn p rs = some s := by
  induction rs with
  | nil => rfl
  | cons r rs ih =>
    obtain ⟨rule, hr⟩ := (ha r List.mem_cons_self).read_eq
    rw [World.checkIn, hr, Option.bind_eq_bind, Option.bind_some, ih fun r hr => ha r (List.mem_cons_of_mem _ hr)]
    exact ite_self _

theorem access_touches (h : Sound P s) (b : Bool) (a : Access) (ha : P a.window) :
    ∃ s', s.access a = some s' ∧ Touches b s s' := by
  cases a with
  | check w p => exact ⟨s, checkIn_eq p _ (h.alive w ha), .refl s⟩
  | update w values selection => exact updateWindowRules_touches h ha b values selection

theorem accesses_touch (h : Sound P s) (b : Bool) (as : List Access) (ha : ∀ a ∈ as, P a.window) :
    ∃ s', as.foldlM World.access s = some s' ∧ Touches b s s' := by
  refine Lib.foldlM_loop as (fun _ s' => Touches b s s') ?_ (.refl s)
  intro done a todo s₁ has ht
  obtain ⟨s₂, hs, ht'⟩ := access_touches (ht.sound h) b a (ha a (has ▸ by simp))
  exact ⟨s₂, hs, ht.trans ht'⟩

/-! Operations on one window. -/

private theorem findIn_spec (accepts : Rules → Bool) (ignoreTemporary : Bool) (rs : List Ref)
    (ha : ∀ r ∈ rs, s.heap.Alive r) (hn : rs.Nodup) : ∃ kept found, s.findIn accepts ignoreTemporary rs = some (kept, found) ∧
      kept.Sublist rs ∧ found.Sublist rs ∧ ∀ r ∈ found, s.Temporary r → r ∉ kept := by
  induction rs with
  | nil => exact ⟨[], [], rfl, .slnil, .slnil, by simp⟩
  | cons r rs ih =>
    obtain ⟨hr, hn⟩ := List.nodup_cons.mp hn
    obtain ⟨kept, found, heq, hk, hf, ht⟩ := ih (fun r hr => ha r (List.mem_cons_of_mem _ hr)) hn
    obtain ⟨rule, hrule⟩ := (ha r List.mem_cons_self).read_eq
    -- A rule found further on is not `r`, so `r` may stay in the book.
    have hstay : ∀ a ∈ found, s.Temporary a → a ∉ r :: kept := by
      intro a ha hta
      rw [List.mem_cons, not_or]
      exact ⟨fun h => hr (h ▸ hf.subset ha), ht a ha hta⟩
    simp only [World.findIn, hrule, heq, Option.bind_eq_bind, Option.bind_some]
    split
    · exact ⟨_, _, rfl, hk.cons_cons r, hf.cons r, hstay⟩
    split
    · split
      · refine ⟨_, _, rfl, hk.cons r, hf.cons_cons r, ?_⟩
        intro a ha hta
        rcases List.mem_cons.mp ha with rfl | ha
        · exact fun h => hr (hk.subset h)
        · exact ht a ha hta
      · next hnt =>
        refine ⟨_, _, rfl, hk.cons_cons r, hf.cons_cons r, ?_⟩
        intro a ha hta
        rcases List.mem_cons.mp ha with rfl | ha
        · obtain ⟨rule', hrule', hta⟩ := hta
          cases hrule.symm.trans hrule'
          exact absurd hta hnt
        · exact hstay a ha hta
    · exact ⟨_, _, rfl, hk.cons_cons r, hf.cons r, hstay⟩

/-- The window gets live rules, and the others keep theirs. -/
theorem setupRules_sound (h : Sound P s) (hQ : ∀ w', Q w' → w' = w ∨ P w') (m : Matcher) (id : Identity) (ignore : Bool) :
    ∃ s', s.setupRules m w id ignore = some s' ∧ Sound Q s' ∧ s'.heap = s.heap ∧ s'.book.Sublist s.book ∧
      ∀ w', w' ≠ w → s'.rules w' = s.rules w' := by
  obtain ⟨kept, found, heq, hk, hf, ht⟩ := findIn_spec (fun rule => rule.match m id) ignore s.book h.bookAlive h.bookNodup
  have hrules : ∀ w', Q w' → (w' = w ∧ Function.update s.rules w found w' = found) ∨
      (w' ≠ w ∧ P w' ∧ Function.update s.rules w found w' = s.rules w') := by
    intro w' hw'
    rcases eq_or_ne w' w with rfl | hne
    · exact .inl ⟨rfl, Function.update_self ..⟩
    · exact .inr ⟨hne, (hQ w' hw').resolve_left hne, Function.update_of_ne hne ..⟩
  -- A temporary rule that another window holds is not in the book, so it was not found.
  have hother : ∀ w', P w' → ∀ r ∈ found, s.Temporary r → r ∉ s.rules w' :=
    fun w' hw' r hr htmp hm => h.outOfBook w' hw' r hm htmp (hf.subset hr)
  refine ⟨{ s with book := kept }.setRules w found, by rw [World.setupRules, heq]; rfl, ?_, rfl, hk,
    fun w' hne => Function.update_of_ne hne ..⟩
  constructor
  · exact fun r hr => h.bookAlive r (hk.subset hr)
  · exact h.bookNodup.sublist hk
  · intro w' hw' r hr
    simp only [World.setRules] at hr
    rcases hrules w' hw' with ⟨_, he⟩ | ⟨_, hp, he⟩ <;> rw [he] at hr
    · exact h.bookAlive r (hf.subset hr)
    · exact h.alive w' hp r hr
  · intro w' hw'
    simp only [World.setRules]
    rcases hrules w' hw' with ⟨_, he⟩ | ⟨_, hp, he⟩ <;> rw [he]
    · exact h.bookNodup.sublist hf
    · exact h.nodup w' hp
  · intro w' hw' r hr htmp
    simp only [World.setRules] at hr
    rcases hrules w' hw' with ⟨_, he⟩ | ⟨_, hp, he⟩ <;> rw [he] at hr
    · exact ht r hr htmp
    · exact fun hm => h.outOfBook w' hp r hr htmp (hk.subset hm)
  · intro w₁ w₂ h₁ h₂ r hr hr' htmp
    simp only [World.setRules] at hr hr'
    rcases hrules w₁ h₁ with ⟨e₁, he₁⟩ | ⟨_, hp₁, he₁⟩ <;> rcases hrules w₂ h₂ with ⟨e₂, he₂⟩ | ⟨_, hp₂, he₂⟩ <;>
      rw [he₁] at hr <;> rw [he₂] at hr'
    · rw [e₁, e₂]
    · exact absurd hr' (hother w₂ hp₂ r hr htmp)
    · exact absurd hr (hother w₁ hp₁ r hr' htmp)
    · exact h.alone w₁ w₂ hp₁ hp₂ r hr hr' htmp

private theorem setRules_sublist {l : List Ref} (hl : l.Sublist (s.rules w)) (w' : Window) :
    ((s.setRules w l).rules w').Sublist (s.rules w') := by
  rcases eq_or_ne w' w with rfl | hne
  · rwa [World.setRules_self]
  · rw [World.setRules_of_ne s hne]

theorem finishRules_sound (h : Sound P s) (hw : P w) (values : Values) :
    ∃ s', s.finishRules w values = some s' ∧ Sound P s' := by
  obtain ⟨s₁, hs, ht⟩ := updateWindowRules_touches h hw false values selectAll
  have h₁ := ht.sound h
  have hsub := setRules_sublist (List.nil_sublist (s₁.rules w))
  refine ⟨s₁.setRules w [], by rw [World.finishRules, hs]; rfl, ?_⟩
  exact h₁.shrink (.refl _) (fun w' _ => hsub w') h₁.bookAlive
    (fun w' hw' r hr => h₁.alive w' hw' r ((hsub w').subset hr)) fun _ => id

/-- After some rules of a window: the temporary ones among them are gone, the others are in the list. -/
private structure DiscardedTemporary (s : World) (done : List Ref) (st : World × List Ref) : Prop where
  book : st.1.book = s.book
  rules : st.1.rules = s.rules
  list : st.2.Sublist done
  lasting : ∀ r ∈ st.2, ¬ s.Temporary r
  gone : ∀ r, r ∈ done → s.Temporary r → st.1.heap.read r = none
  read : ∀ r, ¬ (r ∈ done ∧ s.Temporary r) → st.1.heap.read r = s.heap.read r

private theorem discardTemporaryAt_spec {done : List Ref} {st : World × List Ref} (h : DiscardedTemporary s done st)
    (ha : s.heap.Alive r) (hr : r ∉ done) :
    ∃ st', World.discardTemporaryAt st r = some st' ∧ DiscardedTemporary s (done ++ [r]) st' := by
  obtain ⟨rule, hrule⟩ := ha.read_eq
  have hst : st.1.heap.read r = some rule := by rw [h.read r fun hc => hr hc.1, hrule]
  unfold World.discardTemporaryAt
  rw [hst, Option.bind_eq_bind, Option.bind_some]
  split
  · next hz =>
    have hlast : ¬ s.Temporary r := by
      rintro ⟨rule', hrule', ht⟩
      cases hrule.symm.trans hrule'
      exact (rule.isTemporary_iff.mp ht) hz
    refine ⟨_, rfl, h.book, h.rules, h.list.append (.refl _), ?_, ?_, ?_⟩
    · intro a ha
      rcases List.mem_append.mp ha with ha | ha
      · exact h.lasting a ha
      · rwa [List.mem_singleton.mp ha]
    · intro a ha hta
      rcases List.mem_append.mp ha with ha | ha
      · exact h.gone a ha hta
      · exact absurd (List.mem_singleton.mp ha ▸ hta) hlast
    · exact fun a hna => h.read a fun hc => hna ⟨List.mem_append_left _ hc.1, hc.2⟩
  · next hz =>
    have htmp : s.Temporary r := ⟨rule, hrule, rule.isTemporary_iff.mpr hz⟩
    rw [Lib.Heap.free_eq (Lib.Heap.alive_of_read hst), Option.bind_eq_bind, Option.bind_some]
    refine ⟨_, rfl, h.book, h.rules, h.list.trans (List.sublist_append_left ..), h.lasting, ?_, ?_⟩
    · intro a ha hta
      rw [Lib.Heap.read_erase]
      split
      · rfl
      · next hne =>
        rcases List.mem_append.mp ha with ha | ha
        · exact h.gone a ha hta
        · exact absurd (List.mem_singleton.mp ha) hne
    · intro a hna
      have hne : a ≠ r := by
        rintro rfl
        exact hna ⟨List.mem_append_right _ List.mem_cons_self, htmp⟩
      rw [Lib.Heap.read_erase, if_neg hne]
      exact h.read a fun hc => hna ⟨List.mem_append_left _ hc.1, hc.2⟩

theorem discardTemporary_sound (h : Sound P s) (hw : P w) : ∃ s', s.discardTemporary w = some s' ∧ Sound P s' := by
  have hloop := Lib.foldlM_loop (f := World.discardTemporaryAt) (s.rules w) (DiscardedTemporary s)
    (fun done r todo st has hst => discardTemporaryAt_spec hst (h.alive w hw r (has ▸ by simp)) (by
      have hn := has ▸ h.nodup w hw
      exact fun hm => (List.nodup_append.mp hn).2.2 r hm r List.mem_cons_self rfl))
    (b := (s, [])) ⟨rfl, rfl, .slnil, by simp, by simp, fun _ _ => rfl⟩
  obtain ⟨⟨s₁, kept⟩, hf, hd⟩ := hloop
  have hbook : s₁.book = s.book := hd.book
  have hrules : s₁.rules = s.rules := hd.rules
  refine ⟨s₁.setRules w kept, by rw [World.discardTemporary, hf]; rfl, ?_⟩
  have hsub : ∀ w', ((s₁.setRules w kept).rules w').Sublist (s.rules w') := by
    intro w'
    rw [← hrules]
    exact setRules_sublist (hrules ▸ hd.list) w'
  have halive : ∀ r, s.heap.Alive r → ¬ (r ∈ s.rules w ∧ s.Temporary r) → s₁.heap.Alive r := by
    intro r ha hr
    rw [Lib.Heap.Alive, hd.read r hr]
    exact ha
  apply h.shrink
  · exact hbook ▸ .refl _
  · exact fun w' _ => hsub w'
  · intro r hr
    have hr : r ∈ s.book := hbook ▸ hr
    exact halive r (h.bookAlive r hr) fun hc => h.outOfBook w hw r hc.1 hc.2 hr
  · intro w' hw' r hr
    refine halive r (h.alive w' hw' r ((hsub w').subset hr)) fun hc => ?_
    -- Another window does not hold a temporary rule of `w`, and `w` holds none any more.
    cases h.alone w w' hw hw' r hc.1 ((hsub w').subset hr) hc.2
    rw [World.setRules_self] at hr
    exact hd.lasting r hr hc.2
  · rintro r ⟨rule, hr, ht⟩
    by_cases hc : r ∈ s.rules w ∧ s.Temporary r
    · exact hc.2
    · exact ⟨rule, (hd.read r hc).symm.trans hr, ht⟩

/-! Operations on the book. -/

private theorem mapM_read (rs : List Ref) (ha : ∀ r ∈ rs, s.heap.Alive r) : ∃ rules, rs.mapM s.heap.read = some rules := by
  induction rs with
  | nil => exact ⟨[], rfl⟩
  | cons r rs ih =>
    obtain ⟨rule, hr⟩ := (ha r List.mem_cons_self).read_eq
    obtain ⟨rules, hrs⟩ := ih fun r hr => ha r (List.mem_cons_of_mem _ hr)
    exact ⟨rule :: rules, by rw [List.mapM_cons, hr, hrs]; rfl⟩

theorem temporaryRulesMessage_sound (h : Sound P s) (rule : Rules) :
    ∃ s', s.temporaryRulesMessage rule = some s' ∧ Sound P s' := by
  obtain ⟨rules, hrules⟩ := mapM_read s.book h.bookAlive
  refine ⟨_, by rw [World.temporaryRulesMessage, hrules]; rfl, ?_⟩
  have hne : ∀ r, s.heap.Alive r → r ≠ s.heap.next := fun r ha => Nat.ne_of_lt ha.lt
  -- What is held by a window is as it was.
  have htmp : ∀ w, P w → ∀ r ∈ s.rules w, (∃ rule', (s.heap.alloc { rule with temporaryState := 2 }).read r = some rule' ∧
      rule'.isTemporary) → s.Temporary r := by
    intro w hw r hr ht
    rwa [Lib.Heap.read_alloc, if_neg (hne r (h.alive w hw r hr))] at ht
  constructor
  · intro r hr
    rw [Lib.Heap.alive_alloc]
    exact (List.mem_cons.mp hr).imp_right (h.bookAlive r)
  · exact List.nodup_cons.mpr ⟨fun hm => hne _ (h.bookAlive _ hm) rfl, h.bookNodup⟩
  · exact fun w hw r hr => (Lib.Heap.alive_alloc _ r).mpr (.inr (h.alive w hw r hr))
  · exact h.nodup
  · intro w hw r hr ht
    rw [List.mem_cons, not_or]
    exact ⟨hne r (h.alive w hw r hr), h.outOfBook w hw r hr (htmp w hw r hr ht)⟩
  · exact fun w w' hw hw' r hr hr' ht => h.alone w w' hw hw' r hr hr' (htmp w hw r hr ht)

private theorem cleanupTemporaryAt_sound (h : Sound P s) (hr : r ∈ s.book) :
    ∃ s', World.cleanupTemporaryAt s r = some s' ∧ Sound P s' ∧ ∀ a ∈ s.book, a ≠ r → a ∈ s'.book := by
  obtain ⟨rule, hrule⟩ := (h.bookAlive r hr).read_eq
  unfold World.cleanupTemporaryAt
  rw [hrule, Option.bind_eq_bind, Option.bind_some]
  split
  · exact ⟨s, rfl, h, fun _ ha _ => ha⟩
  next hz =>
  have htmp : s.Temporary r := ⟨rule, hrule, rule.isTemporary_iff.mpr hz⟩
  split
  · rw [Lib.Heap.free_eq (h.bookAlive r hr), Option.bind_eq_bind, Option.bind_some]
    refine ⟨_, rfl, ?_, fun a ha hne => (List.mem_erase_of_ne hne).mpr ha⟩
    apply h.shrink
    · exact List.erase_sublist
    · exact fun _ _ => .refl _
    · intro a ha
      obtain ⟨hne, ha⟩ := (h.bookNodup.mem_erase_iff).mp ha
      exact (Lib.Heap.alive_erase r a).mpr ⟨hne, h.bookAlive a ha⟩
    · intro w hw a ha
      refine (Lib.Heap.alive_erase r a).mpr ⟨?_, h.alive w hw a ha⟩
      rintro rfl
      exact h.outOfBook w hw a ha htmp hr
    · rintro a ⟨rule', ha, ht⟩
      rw [Lib.Heap.read_erase] at ha
      split at ha
      · cases ha
      · exact ⟨rule', ha, ht⟩
  · refine ⟨_, rfl, ?_, fun _ ha _ => ha⟩
    apply h.shrink
    · exact .refl _
    · exact fun _ _ => .refl _
    · exact fun a ha => (Lib.Heap.alive_modify r a _).mpr (h.bookAlive a ha)
    · exact fun w hw a ha => (Lib.Heap.alive_modify r a _).mpr (h.alive w hw a ha)
    · rintro a ⟨rule', ha, ht⟩
      rw [Lib.Heap.read_modify] at ha
      split at ha
      · next he => exact he ▸ htmp
      · exact ⟨rule', ha, ht⟩

theorem cleanupTemporaryRules_sound (h : Sound P s) : ∃ s', s.cleanupTemporaryRules = some s' ∧ Sound P s' := by
  have hloop := Lib.foldlM_loop (f := World.cleanupTemporaryAt) s.book
    (fun done s' => Sound P s' ∧ ∀ a ∈ s.book, a ∉ done → a ∈ s'.book) (b := s) (by
      intro done r todo s₁ has hinv
      have hn := List.nodup_append.mp (has ▸ h.bookNodup)
      have hr : r ∈ s₁.book := hinv.2 r (has ▸ by simp) fun hm => hn.2.2 r hm r List.mem_cons_self rfl
      obtain ⟨s₂, hs, h₂, hb⟩ := cleanupTemporaryAt_sound hinv.1 hr
      refine ⟨s₂, hs, h₂, fun a ha hna => ?_⟩
      rw [List.mem_append, not_or, List.mem_singleton] at hna
      exact hb a (hinv.2 a ha hna.1) hna.2) ⟨h, fun _ ha _ => ha⟩
  obtain ⟨s', hs, h', _⟩ := hloop
  exact ⟨s', hs, h'⟩

/-! `discardUsed`. -/

/-- Of the rules in `bk`, those that the window uses up are held by no other window of `P`. -/
def Unshared (P : Window → Prop) (bk : List Ref) (w : Window) (withdrawn : Bool) (s : World) : Prop :=
  ∀ r ∈ bk, r ∈ s.rules w → ¬ s.Kept withdrawn r → ∀ w', P w' → w' ≠ w → r ∉ s.rules w'

/-- What `discardUsed` of a window may do: its rules and the book shrink, and a rule that stays is as used up as it was. -/
structure Discards (w : Window) (withdrawn : Bool) (s s' : World) : Prop where
  book : s'.book.Sublist s.book
  own : (s'.rules w).Sublist (s.rules w)
  others : ∀ w', w' ≠ w → s'.rules w' = s.rules w'
  kept : ∀ r, s.Kept withdrawn r → s'.Kept withdrawn r

variable {b : Bool}

theorem Discards.refl (s : World) : Discards w b s s := ⟨.refl _, .refl _, fun _ _ => rfl, fun _ h => h⟩

theorem Discards.trans {s'' : World} (h : Discards w b s s') (h' : Discards w b s' s'') : Discards w b s s'' :=
  ⟨h'.book.trans h.book, h'.own.trans h.own, fun w' hne => (h'.others w' hne).trans (h.others w' hne),
    fun r hr => h'.kept r (h.kept r hr)⟩

theorem Touches.discards (h : Touches b s s') : Discards w b s s' :=
  ⟨h.book ▸ .refl _, h.rules ▸ .refl _, fun _ _ => by rw [h.rules], fun _ => h.kept⟩

theorem Unshared.discards {bk : List Ref} (hu : Unshared P bk w b s) (h : Discards w b s s') : Unshared P bk w b s' := by
  intro r hr hm hk w' hw' hne
  rw [h.others w' hne]
  exact hu r hr (h.own.subset hm) (fun hs => hk (h.kept r hs)) w' hw' hne

/-- The state after a rule that is used up was deleted. -/
private theorem delete_sound (h : Sound P s) (hw : P w) (halone : ∀ w', P w' → w' ≠ w → r ∉ s.rules w')
    (heap : Lib.Heap Rules) (hread : ∀ a, heap.read a = if a = r then none else s.heap.read a) (stored : Bool) :
    let s' := { s with heap := heap, book := s.book.erase r, storageRequested := stored }.setRules w ((s.rules w).erase r)
    Sound P s' ∧ Discards w b s s' ∧ r ∉ s'.rules w := by
  intro s'
  have hsub : ∀ w', (s'.rules w').Sublist (s.rules w') :=
    setRules_sublist (s := { s with heap := heap, book := s.book.erase r, storageRequested := stored }) List.erase_sublist
  have hself : s'.rules w = (s.rules w).erase r := World.setRules_self ..
  have halive : ∀ a, a ≠ r → s.heap.Alive a → s'.heap.Alive a := by
    intro a hne ha
    change (heap.read a).isSome
    rwa [hread, if_neg hne]
  have hsome : ∀ a rule, s'.heap.read a = some rule → s.heap.read a = some rule := by
    intro a rule ha
    have ha : heap.read a = some rule := ha
    rw [hread] at ha
    split at ha
    · cases ha
    · exact ha
  have hgone : r ∉ s'.rules w := by
    rw [hself]
    exact fun hm => ((h.nodup w hw).mem_erase_iff.mp hm).1 rfl
  refine ⟨?_, ⟨List.erase_sublist, hsub w, fun w' hne => World.setRules_of_ne _ hne _, ?_⟩, hgone⟩
  · apply h.shrink
    · exact List.erase_sublist
    · exact fun w' _ => hsub w'
    · intro a ha
      obtain ⟨hne, ha⟩ := (h.bookNodup.mem_erase_iff).mp ha
      exact halive a hne (h.bookAlive a ha)
    · intro w' hw' a ha
      refine halive a ?_ (h.alive w' hw' a ((hsub w').subset ha))
      rintro rfl
      rcases eq_or_ne w' w with rfl | hne
      · exact hgone ha
      · exact halone w' hw' hne ((hsub w').subset ha)
    · rintro a ⟨rule, ha, ht⟩
      exact ⟨rule, hsome a rule ha, ht⟩
  · exact fun a hk rule ha => hk rule (hsome a rule ha)

private theorem discardUsedAt_spec (h : Sound P s) (hw : P w)
    (hu : r ∈ s.rules w → ¬ s.Kept b r → ∀ w', P w' → w' ≠ w → r ∉ s.rules w') :
    ∃ s', World.discardUsedAt w b s r = some s' ∧ Sound P s' ∧ Discards w b s s' ∧
      (r ∈ s'.rules w → s'.Kept b r) := by
  unfold World.discardUsedAt
  split
  · next hm =>
    obtain ⟨rule, hrule⟩ := (h.alive w hw r hm).read_eq
    rw [hrule, Option.bind_eq_bind, Option.bind_some]
    dsimp only
    split
    · next hspent =>
      have hnk : ¬ s.Kept b r := fun hk => Bool.false_ne_true ((hk rule hrule).symm.trans hspent)
      have halive : (s.heap.modify r (·.discardUsed b)).Alive r := (Lib.Heap.alive_modify r r _).mpr (h.alive w hw r hm)
      rw [Lib.Heap.free_eq halive, Option.bind_eq_bind, Option.bind_some]
      have hd := delete_sound (b := b) h hw (hu hm hnk) ((s.heap.modify r (·.discardUsed b)).erase r) (by
        intro a
        rw [Lib.Heap.read_erase, Lib.Heap.read_modify]
        split
        · rfl
        · rfl) (s.storageRequested ∨ rule.discardsUsed b)
      exact ⟨_, rfl, hd.1, hd.2.1, fun hm' => absurd hm' hd.2.2⟩
    · next hspent =>
      have ht : Touches b s { s with
          heap := s.heap.modify r (·.discardUsed b)
          storageRequested := s.storageRequested ∨ rule.discardsUsed b } :=
        .modify (·.discardUsed b) (fun _ => rfl) (fun rule => rule.spent_discardUsed b) _
      refine ⟨_, rfl, ht.sound h, ht.discards, fun _ => ht.kept fun rule' hr' => ?_⟩
      cases hrule.symm.trans hr'
      exact Bool.eq_false_iff.mpr hspent
  · next hm => exact ⟨s, rfl, h, .refl s, fun hm' => absurd hm' hm⟩

/-- Without other holders of what is used up, all stays alive, and the window is left with rules of the book that are
not used up. -/
theorem discardUsed_sound (h : Sound P s) (hw : P w) (hu : Unshared P s.book w b s) :
    ∃ s', s.discardUsed w b = some s' ∧ Sound P s' ∧ Discards w b s s' ∧
      ∀ r ∈ s.book, r ∈ s'.rules w → s'.Kept b r := by
  refine Lib.foldlM_loop s.book (fun done s' => Sound P s' ∧ Discards w b s s' ∧
    ∀ r ∈ done, r ∈ s'.rules w → s'.Kept b r) ?_ ⟨h, .refl s, by simp⟩
  rintro done r todo s₁ has ⟨h₁, hd, hk⟩
  have hr : r ∈ s.book := has ▸ by simp
  obtain ⟨s₂, hs, h₂, hd₂, hr₂⟩ := discardUsedAt_spec h₁ hw ((hu.discards hd) r hr)
  refine ⟨s₂, hs, h₂, hd.trans hd₂, fun a ha hm => ?_⟩
  rcases List.mem_append.mp ha with ha | ha
  · exact hd₂.kept a (hk a ha (hd₂.own.subset hm))
  · cases List.mem_singleton.mp ha
    exact hr₂ hm

/-! `slotReconfigure`. -/

private theorem deleteAll_spec (h : Sound P s) : ∃ heap, s.deleteAll = some { s with heap := heap, book := [] } ∧
    heap.next = s.heap.next ∧ ∀ r, heap.read r = if r ∈ s.book then none else s.heap.read r := by
  have hloop := Lib.foldlM_loop (f := fun (heap : Lib.Heap Rules) r => heap.free r) s.book
    (fun done heap => heap.next = s.heap.next ∧ ∀ r, heap.read r = if r ∈ done then none else s.heap.read r)
    (b := s.heap) (by
      rintro done r todo heap has ⟨hnext, hread⟩
      have hn := List.nodup_append.mp (has ▸ h.bookNodup)
      have hr : r ∉ done := fun hm => hn.2.2 r hm r List.mem_cons_self rfl
      have ha : heap.Alive r := by
        rw [Lib.Heap.Alive, hread, if_neg hr]
        exact h.bookAlive r (has ▸ by simp)
      refine ⟨_, Lib.Heap.free_eq ha, hnext, fun a => ?_⟩
      rw [Lib.Heap.read_erase, hread]
      simp only [List.mem_append, List.mem_singleton]
      split
      · next he => rw [if_pos (.inr he)]
      · next he => simp only [he, or_false]) ⟨rfl, fun r => by simp⟩
  obtain ⟨heap, hs, hnext, hread⟩ := hloop
  exact ⟨heap, by rw [World.deleteAll, hs]; rfl, hnext, hread⟩

/-- Windows of `P` hold no rule of the book that is used up. -/
def Settled (P : Window → Prop) (s : World) : Prop :=
  ∀ w, P w → ∀ r ∈ s.rules w, r ∈ s.book → s.Kept false r

/-- After `load` only windows without rules of the old book are in order. -/
private theorem load_spec (h : Sound (fun _ => True) s) (loaded : List Rules) : ∃ s', s.load loaded = some s' ∧
    Sound (fun w => ∀ r ∈ s.rules w, r ∉ s.book) s' ∧ Settled (fun w => ∀ r ∈ s.rules w, r ∉ s.book) s' := by
  obtain ⟨heap, hdel, hnext, hread⟩ := deleteAll_spec h
  refine ⟨_, by rw [World.load, hdel]; rfl, ?_⟩
  have hlt : ∀ w, ∀ r ∈ s.rules w, r < heap.next := fun w r hr => hnext ▸ (h.alive w trivial r hr).lt
  have hnot : ∀ w, ∀ r ∈ s.rules w, r ∉ List.range' heap.next loaded.length := by
    intro w r hr hm
    exact absurd (hlt w r hr) (Nat.not_lt_of_le (List.mem_range'_1.mp hm).1)
  -- What a window in order holds is as before.
  have hold : ∀ w, (∀ r ∈ s.rules w, r ∉ s.book) → ∀ r ∈ s.rules w,
      (heap.allocAll (loaded.map fun rule => { rule with temporaryState := 0 })).read r = s.heap.read r := by
    intro w hw r hr
    rw [Lib.Heap.read_allocAll_of_lt _ (hlt w r hr), hread, if_neg (hw r hr)]
  refine ⟨?_, fun w _ r hr hm => absurd hm (hnot w r hr)⟩
  constructor
  · intro r hr
    exact Lib.Heap.alive_allocAll _ r (by rwa [List.length_map])
  · exact List.nodup_range'
  · intro w hw r hr
    rw [Lib.Heap.Alive, hold w hw r hr]
    exact h.alive w trivial r hr
  · exact fun w _ => h.nodup w trivial
  · exact fun w _ r hr _ => hnot w r hr
  · rintro w w' hw _ r hr hr' ⟨rule, hrule, ht⟩
    exact h.alone w w' trivial trivial r hr hr' ⟨rule, (hold w hw r hr).symm.trans hrule, ht⟩

/-- A client comes in order, and those that are stay so. -/
private theorem reconfigureClient_spec (m : Matcher) (c : Client) (h : Sound P s) (hs : Settled P s)
    (ha : ∀ a ∈ c.applyWindowRules, a.window = c.window ∨ P a.window) :
    ∃ s', World.reconfigureClient m s c = some s' ∧ Sound (fun w => w = c.window ∨ P w) s' ∧
      Settled (fun w => w = c.window ∨ P w) s' := by
  obtain ⟨s₁, hs₁, h₁, hheap₁, hbook₁, hrules₁⟩ :=
    setupRules_sound (Q := fun w => w = c.window ∨ P w) (w := c.window) h (fun _ h => h) m c.identity true
  obtain ⟨s₂, hs₂, ht₂⟩ := accesses_touch h₁ false c.applyWindowRules ha
  -- Other windows are settled before the client uses up its own rules.
  have hothers : ∀ w, P w → w ≠ c.window → ∀ r ∈ s₂.rules w, r ∈ s₂.book → s₂.Kept false r := by
    intro w hw hne r hr hm
    rw [ht₂.rules, hrules₁ w hne] at hr
    refine ht₂.kept fun rule hrule => hs w hw r hr (hbook₁.subset (ht₂.book ▸ hm)) rule (hheap₁ ▸ hrule)
  have hu : Unshared (fun w => w = c.window ∨ P w) s₂.book c.window false s₂ :=
    fun r hr _ hk w hw hne hm => hk (hothers w (hw.resolve_left hne) hne r hm hr)
  obtain ⟨s₃, hs₃, h₃, hd₃, hk₃⟩ := discardUsed_sound (ht₂.sound h₁) (.inl rfl) hu
  refine ⟨s₃, by rw [World.reconfigureClient, hs₁, Option.bind_eq_bind, Option.bind_some, hs₂]; exact hs₃, h₃, ?_⟩
  intro w hw r hr hm
  have hm : r ∈ s₂.book := hd₃.book.subset hm
  rcases eq_or_ne w c.window with rfl | hne
  · exact hk₃ r hm hr
  · exact hd₃.kept r (hothers w (hw.resolve_left hne) hne r (hd₃.others w hne ▸ hr) hm)

/-- A reconfiguration comes past every window that holds rules of the book, and on its way a client's
`applyWindowRules` uses rules of windows that it has come past already or that hold none of these. -/
def Covered (s : World) (clients : List Client) : Prop :=
  (∀ w, (∃ r ∈ s.rules w, r ∈ s.book) → w ∈ clients.map Client.window) ∧
    ∀ done c todo, clients = done ++ c :: todo → ∀ a ∈ c.applyWindowRules,
      a.window = c.window ∨ a.window ∈ done.map Client.window ∨ ∀ r ∈ s.rules a.window, r ∉ s.book

theorem slotReconfigure_sound (m : Matcher) (h : Sound (fun _ => True) s) (loaded : List Rules) (clients : List Client)
    (hc : Covered s clients) : ∃ s', s.slotReconfigure m loaded clients = some s' ∧ Sound (fun _ => True) s' := by
  obtain ⟨s₁, hs₁, h₁, hset₁⟩ := load_spec h loaded
  have hloop := Lib.foldlM_loop (f := World.reconfigureClient m) clients
    (fun done s' => Sound (fun w => w ∈ done.map Client.window ∨ ∀ r ∈ s.rules w, r ∉ s.book) s' ∧
      Settled (fun w => w ∈ done.map Client.window ∨ ∀ r ∈ s.rules w, r ∉ s.book) s') (b := s₁) (by
      rintro done c todo s₂ has ⟨h₂, hset₂⟩
      obtain ⟨s₃, hs₃, h₃, hset₃⟩ := reconfigureClient_spec m c h₂ hset₂ (hc.2 done c todo has)
      have hin : ∀ w, (w ∈ (done ++ [c]).map Client.window ∨ ∀ r ∈ s.rules w, r ∉ s.book) →
          w = c.window ∨ w ∈ done.map Client.window ∨ ∀ r ∈ s.rules w, r ∉ s.book := by
        intro w hw
        rw [List.map_append, List.mem_append, List.map_singleton, List.mem_singleton] at hw
        tauto
      exact ⟨s₃, hs₃, h₃.mono hin, fun w hw => hset₃ w (hin w hw)⟩)
    ⟨h₁.mono fun w hw => hw.resolve_left (by simp), fun w hw => hset₁ w (hw.resolve_left (by simp))⟩
  obtain ⟨s', hs', h', _⟩ := hloop
  refine ⟨s', by rw [World.slotReconfigure, hs₁]; exact hs', h'.mono fun w _ => ?_⟩
  by_cases hw : ∃ r ∈ s.rules w, r ∈ s.book
  · exact .inl (hc.1 w hw)
  · exact .inr fun r hr hm => hw ⟨r, hr, hm⟩

theorem setUpdatesDisabled_sound (h : Sound (fun _ => True) s) (disable : Bool) (clients : List (Window × Values)) :
    ∃ s', s.setUpdatesDisabled disable clients = some s' ∧ Sound (fun _ => True) s' := by
  have h₀ : Sound (fun _ => True) { s with updatesDisabled := disable } := ⟨h.1, h.2, h.3, h.4, h.5, h.6⟩
  simp only [World.setUpdatesDisabled]
  split
  · exact ⟨_, rfl, h₀⟩
  · refine Lib.foldlM_loop clients (fun _ s' => Sound (fun _ => True) s') ?_ h₀
    intro done c todo s₁ _ h₁
    obtain ⟨s₂, hs, ht⟩ := updateWindowRules_touches h₁ (w := c.1) trivial false c.2 selectAll
    exact ⟨s₂, hs, ht.sound h₁⟩

/-- The steps that leave no reference to a deleted rule behind. -/
def Careful (s : World) : Event → Prop
  | .discardUsed w withdrawn => Unshared (fun _ => True) s.book w withdrawn s
  | .slotReconfigure _ clients => Covered s clients
  | _ => True

theorem step_sound (m : Matcher) (h : Sound (fun _ => True) s) (e : Event) (he : Careful s e) :
    ∃ s', step m s e = some s' ∧ Sound (fun _ => True) s' := by
  cases e with
  | setupRules w id ignoreTemporary =>
    obtain ⟨s', hs, h', _⟩ := setupRules_sound h (w := w) (fun _ h => .inr h) m id ignoreTemporary
    exact ⟨s', hs, h'⟩
  | access a =>
    obtain ⟨s', hs, ht⟩ := access_touches h false a trivial
    exact ⟨s', hs, ht.sound h⟩
  | finishRules w values => exact finishRules_sound h trivial values
  | discardTemporary w => exact discardTemporary_sound h trivial
  | temporaryRulesMessage rule => exact temporaryRulesMessage_sound h rule
  | cleanupTemporaryRules => exact cleanupTemporaryRules_sound h
  | discardUsed w withdrawn =>
    obtain ⟨s', hs, h', _⟩ := discardUsed_sound h trivial he
    exact ⟨s', hs, h'⟩
  | setUpdatesDisabled disable clients => exact setUpdatesDisabled_sound h disable clients
  | slotReconfigure loaded clients => exact slotReconfigure_sound m h loaded clients he

theorem init_sound : Sound P World.init :=
  ⟨nofun, .nil, fun _ _ => nofun, fun _ _ => .nil, fun _ _ => nofun, fun _ _ _ _ => nofun⟩

/-- In a run of careful steps every rule that a window refers to is alive, and the next careful step neither uses
nor deletes a rule that was deleted. -/
theorem rules_alive_of_careful (m : Matcher) (hs : Lib.Reachable (step m) Careful World.init s) :
    (∀ w, ∀ r ∈ s.rules w, s.heap.Alive r) ∧ ∀ e, Careful s e → (step m s e).isSome := by
  have h : Sound (fun _ => True) s := hs.invariant (Sound fun _ => True) init_sound (by
    intro s e s' h he hs
    obtain ⟨s₁, hs₁, h₁⟩ := step_sound m h e he
    cases hs₁.symm.trans hs
    exact h₁)
  refine ⟨fun w => h.alive w trivial, fun e he => ?_⟩
  obtain ⟨s', hs', _⟩ := step_sound m h e he
  rw [hs']
  rfl

section runs

/-- A rule for all windows that keeps them above others until they are withdrawn. -/
private def aboveTemporarily : Rules where
  wmclass := {}
  windowrole := {}
  clientmachine := {}
  title := {}
  temporaryState := 0
  description := []
  wmclasscomplete := false
  types := allTypesMask
  set p := ⟨p.default, if p = .above then .forceTemporarily else .unused⟩
  force p := ⟨p.default, .unused⟩

private def literalMatcher : Matcher := ⟨fun pattern text => pattern = text, fun _ _ => true⟩
private def anyWindow : Identity := ⟨0, [], [], [], [], true, []⟩
private def anyValues : Values :=
  ⟨true, [], false, 1, [], false, false, false, false, false, ⟨0, 0⟩, 0, ⟨100, 100⟩, false, false, false⟩

/-- Two windows get the rule. -/
private def twoWindows : List Event :=
  [.slotReconfigure [aboveTemporarily] [], .setupRules 1 anyWindow false, .setupRules 2 anyWindow false]

private def after (es : List Event) : World := (Lib.execute (step literalMatcher) .init es).getD .init

/-- The second of two windows with the rule is finished before the first uses it up. -/
theorem shared_rule_alive : ∃ s, s.rules 1 = [0] ∧ s.book = [0] ∧ (∀ w, ∀ r ∈ s.rules w, s.heap.Alive r) ∧
    Careful s (.discardUsed 1 true) ∧ (step literalMatcher s (.discardUsed 1 true)).isSome := by
  have hc : Covered .init [] := by
    constructor
    · rintro w ⟨r, hr, _⟩
      cases hr
    · intro done c todo h
      simp at h
  have h₁ : Lib.Reachable (step literalMatcher) Careful .init (after (twoWindows.take 1)) :=
    .step (Event.slotReconfigure [aboveTemporarily] []) .init hc rfl
  have h₂ : Lib.Reachable (step literalMatcher) Careful .init (after (twoWindows.take 2)) :=
    .step (Event.setupRules 1 anyWindow false) h₁ trivial rfl
  have h₃ : Lib.Reachable (step literalMatcher) Careful .init (after twoWindows) :=
    .step (Event.setupRules 2 anyWindow false) h₂ trivial rfl
  have h₄ : Lib.Reachable (step literalMatcher) Careful .init (after (twoWindows ++ [.finishRules 2 anyValues])) :=
    .step (Event.finishRules 2 anyValues) h₃ trivial rfl
  have hu : Careful (after (twoWindows ++ [.finishRules 2 anyValues])) (.discardUsed 1 true) := by
    intro r _ _ _ w _ hne hr
    change r ∈ Function.update (Function.update (Function.update (fun _ => []) 1 [0]) 2 [0]) 2 [] w at hr
    rcases eq_or_ne w 2 with rfl | hw
    · cases hr
    · rw [Function.update_of_ne hw, Function.update_of_ne hw, Function.update_of_ne hne] at hr
      cases hr
  have h := rules_alive_of_careful literalMatcher h₄
  exact ⟨_, rfl, rfl, h.1, hu, h.2 _ hu⟩

/-- Two windows have the rule and one of them is closed. The rule is deleted with it, and closing the other window
follows its dead reference. -/
theorem rule_used_after_delete : ¬ ∀ m s, Lib.Reachable (step m) Lib.anyStep World.init s →
    ∀ e, (step m s e).isSome := by
  intro h
  have hrun : ((Lib.execute (step literalMatcher) .init (twoWindows ++ [.discardUsed 1 true])).bind
      fun s => step literalMatcher s (.finishRules 2 anyValues)).isNone := by decide
  have hsome : (Lib.execute (step literalMatcher) .init (twoWindows ++ [.discardUsed 1 true])).isSome := by decide
  obtain ⟨s, hs⟩ := Option.isSome_iff_exists.mp hsome
  have hstep := h literalMatcher s (Lib.Reachable.init.execute _ hs) (.finishRules 2 anyValues)
  rw [hs, Option.bind_some] at hrun
  rw [Option.isNone_iff_eq_none.mp hrun] at hstep
  cases hstep

end runs

end KWinFT.RuleBook
