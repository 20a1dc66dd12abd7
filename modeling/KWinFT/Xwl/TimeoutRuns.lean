import KWinFT.Xwl.Timeouts

/-! A run of the timer asks each transfer once exactly when only the last two of each list are due. -/
namespace KWinFT.Xwl.Timeouts

namespace Transfers

def due (s : Transfers) (id : Nat) : Bool := (s.transfer id).timedOut

/-- The lists are apart and without duplicates, nothing in them is deleted, and the timer is there for them. -/
structure Kept (s : Transfers) : Prop where
  nodup : s.running.Nodup
  alive : ∀ id ∈ s.running, id ∉ s.deleted
  timer : s.timer ↔ s.running ≠ []

/-- What one run of the timer is to do. -/
structure AskedOnce (w : Watched) (s' : Transfers) : Prop where
  called : ∃ new, s'.called = w.selection.called ++ new ∧ new.Perm w.selection.running
  ended : ∀ id ∈ w.selection.running, id ∉ s'.running → id ∈ w.idle
  timer : s'.timer = false ↔ s'.running = []

/-- In each list none is due that has two others behind it. -/
def LastDue (s : Transfers) : Prop :=
  ∀ direction, ∀ id ∈ (s.transfers direction).take ((s.transfers direction).length - 2), ¬ s.due id

section timeout
variable {s s' : Transfers} {d : Direction} {id j : Nat}

theorem mem_running : id ∈ s.running ↔ ∃ d, id ∈ s.transfers d := by
  rw [running, List.mem_append]
  exact ⟨fun h => h.elim (⟨_, ·⟩) (⟨_, ·⟩), fun ⟨d, hd⟩ => by cases d <;> simp [hd]⟩

theorem Kept.list (h : Kept s) : (s.transfers d).Nodup := by
  have := List.nodup_append.mp h.nodup
  cases d
  · exact this.1
  · exact this.2.1

theorem Kept.apart (h : Kept s) {d' : Direction} (hd : id ∈ s.transfers d) (hd' : id ∈ s.transfers d') : d = d' := by
  have := (List.nodup_append.mp h.nodup).2.2
  cases d <;> cases d'
  · rfl
  · exact absurd rfl (this id hd id hd')
  · exact absurd rfl (this id hd' id hd)
  · rfl

private theorem due_modify (f : Transfer → Transfer) : (s.modify id f).due j =
    if j = id then (f (s.transfer id)).timedOut else s.due j := by
  unfold due modify Function.update
  by_cases hj : j = id
  · subst hj
    simp
  · simp [hj]

private theorem transferFinished_fields : let s' := s.transferFinished d id
    s'.called = s.called ∧ s'.transfer = s.transfer ∧
      s'.transfers = Function.update s.transfers d ((s.transfers d).erase id) ∧ s'.deleted = id :: s.deleted ∧
      s'.timer = (s.timer && !s'.running.isEmpty) := by
  unfold transferFinished endTimeoutTransfersTimer running
  dsimp only
  split
  · next h =>
    refine ⟨rfl, rfl, rfl, rfl, ?_⟩
    simp only [h, List.append_nil, List.isEmpty_nil, Bool.not_true, Bool.and_false]
  · next h =>
    refine ⟨rfl, rfl, rfl, rfl, ?_⟩
    rw [← List.append_eq_nil_iff, ← List.isEmpty_iff, Bool.not_eq_true] at h
    simp only [h, Bool.not_false, Bool.and_true]

private theorem due_closeFd : (s.closeFd id).due j = s.due j := by
  unfold closeFd
  dsimp only
  split
  · rfl
  · change (s.modify id fun t => { t with fd := -1 }).due j = s.due j
    rw [due_modify]
    split
    · next hj => rw [hj]; rfl
    · rfl

private theorem closeFd_fields : let s' := s.closeFd id
    s'.called = s.called ∧ s'.transfers = s.transfers ∧ s'.deleted = s.deleted ∧ s'.timer = s.timer := by
  unfold closeFd
  dsimp only
  split <;> exact ⟨rfl, rfl, rfl, rfl⟩

/-- What the end of a transfer changes of what matters here. -/
private theorem endTransfer_fields : let s' := s.endTransfer d id
    s'.called = s.called ∧ (∀ j, s'.due j = s.due j) ∧
      s'.transfers = Function.update s.transfers d ((s.transfers d).erase id) ∧ s'.deleted = id :: s.deleted ∧
      s'.timer = (s.timer && !s'.running.isEmpty) := by
  have hnotifier : ∀ j, (s.clearSocketNotifier id).due j = s.due j := fun j => by
    rw [clearSocketNotifier, due_modify]
    split
    · next hj => rw [hj]; rfl
    · rfl
  obtain ⟨hcalled, htransfers, hdeleted, htimer⟩ := @closeFd_fields (s.clearSocketNotifier id) id
  obtain ⟨hcalled', htransfer', htransfers', hdeleted', htimer'⟩ :=
    @transferFinished_fields ((s.clearSocketNotifier id).closeFd id) d id
  refine ⟨hcalled'.trans hcalled, fun j => ?_, ?_, ?_, ?_⟩
  · rw [← hnotifier j, ← @due_closeFd (s.clearSocketNotifier id), due, due, endTransfer, htransfer']
  · rw [endTransfer, htransfers', htransfers]
    rfl
  · rw [endTransfer, hdeleted', hdeleted]
    rfl
  · rw [endTransfer, htimer', htimer]
    rfl

/-- What a call of `timeout` does to the transfers: one that is due is ended, and all that were called are due. -/
structure TimedOut (s : Transfers) (d : Direction) (id : Nat) (s' : Transfers) : Prop where
  alive : id ∉ s.deleted
  called : s'.called = s.called ++ [id]
  due : ∀ j, s'.due j ↔ j = id ∨ s.due j
  transfers : s'.transfers =
    if s.due id then Function.update s.transfers d ((s.transfers d).erase id) else s.transfers
  deleted : s'.deleted = if s.due id then id :: s.deleted else s.deleted
  timer : s'.timer = if s.due id then s.timer && !s'.running.isEmpty else s.timer

theorem TimedOut.of_timeout (h : s.timeout d id = some s') : TimedOut s d id s' := by
  obtain ⟨halive, h⟩ := Option.ite_none_left_eq_some.mp h
  cases h
  set s₁ : Transfers := { s with called := s.called ++ [id] }
  have hdue : (s₁.transfer id).timedOut = s.due id := rfl
  rw [hdue]
  have hmodify (s₂ : Transfers) (hs₂ : ∀ j, s₂.due j = s.due j) (j : Nat) :
      (s₂.modify id fun t => { t with timedOut := true }).due j ↔ j = id ∨ s.due j := by
    rw [due_modify]
    split
    · next hj => exact iff_of_true rfl (.inl hj)
    · next hj => rw [hs₂, or_iff_right hj]
  cases hid : s.due id with
  | false => exact ⟨halive, rfl, hmodify _ fun _ => rfl, by rw [hid]; rfl, by rw [hid]; rfl, by rw [hid]; rfl⟩
  | true =>
    obtain ⟨hcalled, hdue', htransfers, hdeleted, htimer⟩ := @endTransfer_fields s₁ d id
    refine ⟨halive, hcalled, hmodify _ hdue', ?_, ?_, ?_⟩
    · rw [if_pos hid]
      exact htransfers
    · rw [if_pos hid]
      exact hdeleted
    · rw [if_pos hid]
      exact htimer

theorem exists_timeout (h : id ∉ s.deleted) : ∃ s', s.timeout d id = some s' ∧ TimedOut s d id s' := by
  have heq : s.timeout d id = some _ := if_neg h
  exact ⟨_, heq, .of_timeout heq⟩

private theorem running_update (hk : Kept s) (hid : id ∈ s.transfers d)
    (htransfers : s'.transfers = Function.update s.transfers d ((s.transfers d).erase id)) :
    s'.running = s.running.erase id := by
  rw [running, htransfers]
  cases d with
  | xToWl =>
    rw [running, List.erase_append_left _ hid]
    rfl
  | wlToX =>
    have hother : id ∉ s.transfers .xToWl := fun hmem => by cases hk.apart hmem hid
    rw [running, List.erase_append_right _ hother]
    rfl

private theorem Kept.ended (hk : Kept s) (hid : id ∈ s.transfers d)
    (htransfers : s'.transfers = Function.update s.transfers d ((s.transfers d).erase id))
    (hdeleted : s'.deleted = id :: s.deleted) (htimer : s'.timer = (s.timer && !s'.running.isEmpty)) : Kept s' := by
  have hrunning := running_update hk hid htransfers
  refine ⟨hrunning ▸ hk.nodup.erase id, fun j hj => ?_, ?_⟩
  · rw [hrunning, hk.nodup.mem_erase_iff] at hj
    rw [hdeleted, List.mem_cons, not_or]
    exact ⟨hj.1, hk.alive j hj.2⟩
  · have hs : s.timer = true := hk.timer.mpr (List.ne_nil_of_mem (mem_running.mpr ⟨d, hid⟩))
    rw [htimer, hs, Bool.true_and, Bool.not_eq_true', ← Bool.not_eq_true, List.isEmpty_iff]

theorem TimedOut.kept (h : TimedOut s d id s') (hk : Kept s) (hid : id ∈ s.transfers d) : Kept s' := by
  have htransfers := h.transfers
  have hdeleted := h.deleted
  have htimer := h.timer
  split at htransfers
  · next hdue =>
    rw [if_pos hdue] at hdeleted htimer
    exact hk.ended hid htransfers hdeleted htimer
  · next hdue =>
    rw [if_neg hdue] at hdeleted htimer
    have hrunning : s'.running = s.running := by rw [running, htransfers, running]
    exact ⟨hrunning ▸ hk.nodup, fun j hj => hdeleted ▸ hk.alive j (hrunning ▸ hj), hrunning ▸ htimer ▸ hk.timer⟩

/-- What a loop over one of the lists leaves as it was, whatever it visits. -/
structure Looped (s : Transfers) (d : Direction) (s' : Transfers) : Prop where
  kept : Kept s'
  called : ∃ new, s'.called = s.called ++ new ∧ new ⊆ s.transfers d
  others : ∀ d', d' ≠ d → s'.transfers d' = s.transfers d'
  due : ∀ j ∉ s.transfers d, s'.due j = s.due j
  fewer : (s'.transfers d).Sublist (s.transfers d)
  gone : ∀ j ∈ s.transfers d, j ∈ s'.transfers d ∨ j ∈ s'.deleted

private theorem TimedOut.transfers_self (h : TimedOut s d id s') :
    s'.transfers d = if s.due id then (s.transfers d).erase id else s.transfers d := by
  rw [h.transfers]
  split
  · rw [Function.update_self]
  · rfl

theorem Looped.of_timeoutLoop (hk : Kept s) (h : s.timeoutLoop d = some s') : Looped s d s' := by
  refine Lib.rangeFor_invariant (P := Looped s d) (l := s.transfers d) ?_ (List.Subset.refl _) ?_ h
  · intro x hx s₁ s₂ hs₁ hs₂
    have ht := TimedOut.of_timeout hs₂
    have hin : x ∈ s₁.transfers d := (hs₁.gone x hx).resolve_right ht.alive
    have hsub : (s₂.transfers d).Sublist (s₁.transfers d) := by
      rw [ht.transfers_self]
      split
      · exact List.erase_sublist
      · exact .refl _
    refine ⟨⟨ht.kept hs₁.kept hin, ?_, fun d' hd' => ?_, fun j hj => ?_, hsub.trans hs₁.fewer, fun j hj => ?_⟩,
      (hsub.trans hs₁.fewer).subset⟩
    · obtain ⟨new, hnew, hsubset⟩ := hs₁.called
      exact ⟨new ++ [x], by rw [ht.called, hnew, List.append_assoc],
        List.append_subset.mpr ⟨hsubset, List.cons_subset.mpr ⟨hx, List.nil_subset _⟩⟩⟩
    · rw [← hs₁.others d' hd', ht.transfers]
      split
      · rw [Function.update_of_ne hd']
      · rfl
    · have hne : j ≠ x := fun he => hj (he ▸ hx)
      rw [← hs₁.due j hj, Bool.eq_iff_iff, ht.due, or_iff_right hne]
    · rw [ht.transfers_self, ht.deleted]
      split
      · rw [hs₁.kept.list.mem_erase_iff, List.mem_cons]
        by_cases he : j = x
        · exact .inr (.inl he)
        · exact (hs₁.gone j hj).imp (⟨he, ·⟩) .inr
      · exact hs₁.gone j hj
  · exact ⟨hk, ⟨[], (List.append_nil _).symm, List.nil_subset _⟩, fun _ _ => rfl, fun _ _ => rfl, .refl _, fun _ => .inl⟩

/-- A loop that has called some transfers of which none was due. -/
private structure Passed (s : Transfers) (front todo : List Nat) (s' : Transfers) : Prop where
  kept : Kept s'
  transfers : s'.transfers = s.transfers
  done : ∃ done, done ++ todo = front ∧ s'.called = s.called ++ done ∧ ∀ j ∉ done, s'.due j = s.due j

private theorem Passed.step {x : Nat} {front todo : List Nat} {s₁ : Transfers} (h : Passed s front (x :: todo) s₁)
    (hfront : front ⊆ s.transfers d) (hnodup : front.Nodup) (hdue : ¬ s.due x) :
    ∃ s₂, s₁.timeout d x = some s₂ ∧ s₂.transfers d = s₁.transfers d ∧ Passed s front todo s₂ := by
  obtain ⟨done, hdone, hcalled, hsame⟩ := h.done
  have hx : x ∈ s₁.transfers d := h.transfers ▸ hfront (hdone ▸ List.mem_append_right _ List.mem_cons_self)
  have hnew : x ∉ done := fun hmem => by
    rw [← hdone] at hnodup
    exact (List.nodup_append.mp hnodup).2.2 x hmem x List.mem_cons_self rfl
  have hdue₁ : ¬ s₁.due x := by rwa [hsame x hnew]
  obtain ⟨s₂, h₂, ht⟩ := exists_timeout (h.kept.alive x (mem_running.mpr ⟨d, hx⟩)) (d := d)
  have htransfers := ht.transfers
  rw [if_neg hdue₁] at htransfers
  refine ⟨s₂, h₂, congrFun htransfers d, ht.kept h.kept hx, htransfers.trans h.transfers, done ++ [x], ?_, ?_, ?_⟩
  · rw [List.append_assoc, ← hdone]
    rfl
  · rw [ht.called, hcalled, List.append_assoc]
  · intro j hj
    rw [List.mem_append, List.mem_singleton, not_or] at hj
    rw [← hsame j hj.1, Bool.eq_iff_iff, ht.due, or_iff_right hj.2]

private theorem Passed.loop {front rest : List Nat} (hk : Kept s) (hl : s.transfers d = front ++ rest)
    (hdue : ∀ x ∈ front, ¬ s.due x) (n : Nat) : ∃ s₁, Passed s front [] s₁ ∧
      Lib.rangeFor (fun s => s.transfers d) (fun id s => s.timeout d id) (front.length + n) 0 (s.transfers d) s =
        Lib.rangeFor (fun s => s.transfers d) (fun id s => s.timeout d id) n front.length (s.transfers d) s₁ := by
  have hnodup : front.Nodup := (List.nodup_append.mp (hl ▸ hk.list (d := d))).1
  have hfront : front ⊆ s.transfers d := hl ▸ List.subset_append_left _ _
  have hP : ∀ x xs s₁, Passed s front (x :: xs) s₁ ∧ x :: xs ⊆ front → ∃ s₂, s₁.timeout d x = some s₂ ∧
      s₂.transfers d = s₁.transfers d ∧ Passed s front xs s₂ ∧ xs ⊆ front := by
    rintro x xs s₁ ⟨h, hsub⟩
    obtain ⟨hx, hsub⟩ := List.cons_subset.mp hsub
    obtain ⟨s₂, h₂, hsame, hpassed⟩ := h.step hfront hnodup (hdue x hx)
    exact ⟨s₂, h₂, hsame, hpassed, hsub⟩
  have hstart : Passed s front front s :=
    ⟨hk, rfl, [], List.nil_append _, (List.append_nil _).symm, fun _ _ => rfl⟩
  obtain ⟨s₁, -, hpassed, heq⟩ := @Lib.rangeFor_steady _ _ (fun s : Transfers => s.transfers d)
    (fun id s => s.timeout d id) s (s.transfers d) n 0 (fun xs s₁ => Passed s front xs s₁ ∧ xs ⊆ front)
    hP front ⟨rest, hl.symm⟩ (List.prefix_refl _) ⟨hstart, List.Subset.refl _⟩
  exact ⟨s₁, hpassed.1, heq.trans (by rw [Nat.zero_add])⟩

/-- The next of a due transfer moves up to its place, so that the loop does not come to it when there is another one
behind. -/
private theorem skips_next {front rest : List Nat} {x y z : Nat} (hk : Kept s)
    (hl : s.transfers d = front ++ x :: y :: z :: rest) (hfront : ∀ x ∈ front, ¬ s.due x) (hx : s.due x)
    (h : s.timeoutLoop d = some s') : s'.called.count y = s.called.count y := by
  obtain ⟨s₁, hpassed, heq⟩ := Passed.loop hk hl hfront (rest.length + 2 + 1)
  have hlen : (s.transfers d).length = front.length + (rest.length + 2 + 1) := by
    rw [hl, List.length_append]
    rfl
  have hnodup := hl ▸ hk.list (d := d)
  obtain ⟨hnodupfront, hnoduprest, hdisjoint⟩ := List.nodup_append.mp hnodup
  obtain ⟨hxrest, hyrest⟩ := List.nodup_cons.mp hnoduprest
  have hxfront : x ∉ front := fun hmem => hdisjoint x hmem x List.mem_cons_self rfl
  have hget : (s.transfers d)[front.length]? = some x := by
    rw [hl, List.getElem?_append_right (Nat.le_refl _), Nat.sub_self]
    rfl
  unfold timeoutLoop Lib.forEach at h
  rw [hlen, heq, Lib.rangeFor_succ hget] at h
  obtain ⟨s₂, h₂, h⟩ := Option.bind_eq_some_iff.mp h
  have ht := TimedOut.of_timeout h₂
  obtain ⟨done, hdone, hcalled, hsame⟩ := hpassed.done
  rw [List.append_nil] at hdone
  subst hdone
  have hlist : s₂.transfers d = done ++ y :: z :: rest := by
    rw [ht.transfers_self, if_pos (by rwa [hsame x hxfront]), hpassed.transfers, hl, List.erase_append_right _ hxfront,
      List.erase_cons_head]
  have hy₂ : s₂.called.count y = s.called.count y := by
    have hyx : x ≠ y := fun he => hxrest (he ▸ List.mem_cons_self)
    have hydone : y ∉ done := fun hmem => hdisjoint y hmem y (List.mem_cons_of_mem _ List.mem_cons_self) rfl
    rw [ht.called, hcalled, List.count_append, List.count_append, List.count_eq_zero_of_not_mem hydone,
      List.count_singleton, if_neg (by simpa using hyx), Nat.add_zero]
  refine Lib.rangeFor_preserves (P := fun s => s.called.count y = _) (y := y) ?_ ?_ (List.prefix_append _ _) ?_ hy₂ h
  · intro w u u' hw hcount hu
    rw [(TimedOut.of_timeout hu).called, List.count_append, List.count_singleton, if_neg (by simpa using hw)]
    exact hcount
  · intro w u u' hu
    rw [(TimedOut.of_timeout hu).transfers_self]
    split
    · exact List.erase_sublist
    · exact .refl _
  · have hbehind : (s.transfers d).drop (done.length + 2) = z :: rest := by
      rw [hl, ← List.drop_drop, List.drop_left]
      rfl
    rw [hlist]
    intro hmem
    rw [List.append_assoc, ← List.drop_drop, List.drop_left] at hmem
    have hno : y ∉ z :: rest := (List.nodup_cons.mp hyrest).1
    rcases List.mem_append.mp hmem with hmem | hmem
    · exact hno hmem
    · have hlater : done.length + 2 ≤ (done ++ y :: z :: rest).length := by
        rw [List.length_append, List.length_cons, List.length_cons]
        omega
      exact hno (hbehind ▸ List.drop_subset_drop_left _ hlater hmem)

private theorem TimedOut.eq_of_left (h : TimedOut s d id s') (hj : j ∈ s.transfers d) (hno : j ∉ s'.transfers d) :
    j = id ∧ s.due id := by
  rw [h.transfers_self] at hno
  split at hno
  · next hdue =>
    by_contra hcon
    exact hno ((List.mem_erase_of_ne fun he => hcon ⟨he, hdue⟩).mpr hj)
  · exact absurd hj hno

private theorem asks_next {places : List Nat} {n i : Nat} (hk : Kept s) (hget : places[i]? = some id)
    (hid : id ∈ s.transfers d) : ∃ s', TimedOut s d id s' ∧
      Lib.rangeFor (fun s => s.transfers d) (fun id s => s.timeout d id) (n + 1) i places s =
        Lib.rangeFor (fun s => s.transfers d) (fun id s => s.timeout d id) n (i + 1)
          (s'.transfers d ++ places.drop (s'.transfers d).length) s' := by
  obtain ⟨s', h, ht⟩ := exists_timeout (hk.alive id (mem_running.mpr ⟨d, hid⟩)) (d := d)
  exact ⟨s', ht, by rw [Lib.rangeFor_succ hget, h, Option.bind_some]⟩

private theorem asks_all (hk : Kept s)
    (hdue : ∀ x ∈ (s.transfers d).take ((s.transfers d).length - 2), ¬ s.due x) :
    ∃ s', s.timeoutLoop d = some s' ∧ s'.called = s.called ++ s.transfers d ∧
      ∀ j ∈ s.transfers d, j ∉ s'.transfers d → s.due j := by
  obtain ⟨front, tail, hl, hfront, htail⟩ : ∃ front tail : List Nat, s.transfers d = front ++ tail ∧
      (∀ x ∈ front, ¬ s.due x) ∧ tail.length ≤ 2 :=
    ⟨_, _, (List.take_append_drop _ _).symm, hdue, by rw [List.length_drop]; omega⟩
  obtain ⟨s₁, hpassed, heq⟩ := Passed.loop hk hl hfront tail.length
  obtain ⟨done, hdone, hcalled, hsame⟩ := hpassed.done
  rw [List.append_nil] at hdone
  subst hdone
  obtain ⟨-, hnoduptail, hdisjoint⟩ := List.nodup_append.mp (hl ▸ hk.list (d := d))
  have hsametail : ∀ x ∈ tail, s₁.due x = s.due x := fun x hx =>
    hsame x fun hmem => hdisjoint x hmem x hx rfl
  have hl₁ : s₁.transfers d = done ++ tail := by rw [hpassed.transfers, hl]
  have hloop : s.timeoutLoop d =
      Lib.rangeFor (fun s => s.transfers d) (fun id s => s.timeout d id) tail.length done.length (done ++ tail) s₁ := by
    unfold timeoutLoop Lib.forEach
    dsimp only
    rw [congrArg List.length hl, List.length_append, heq, hl]
  rw [hloop, hl]
  obtain _ | ⟨a, _ | ⟨b, _ | ⟨c, tail⟩⟩⟩ := tail
  · refine ⟨s₁, rfl, by rw [hcalled, List.append_nil], fun j hj hno => absurd ?_ hno⟩
    rwa [hl₁]
  · have hget : (done ++ [a])[done.length]? = some a := by simp
    have ha : a ∈ s₁.transfers d := hl₁ ▸ List.mem_append_right _ List.mem_cons_self
    obtain ⟨s₂, ht, heq⟩ := asks_next (n := 0) hpassed.kept hget ha
    refine ⟨s₂, heq, by rw [ht.called, hcalled, List.append_assoc], fun j hj hno => ?_⟩
    obtain ⟨rfl, hdue⟩ := ht.eq_of_left (hl₁ ▸ hj) hno
    rwa [← hsametail j List.mem_cons_self]
  · have hget : (done ++ [a, b])[done.length]? = some a := by simp
    have ha : a ∈ s₁.transfers d := hl₁ ▸ List.mem_append_right _ List.mem_cons_self
    have hb : b ∈ s₁.transfers d := hl₁ ▸ List.mem_append_right _ (List.mem_cons_of_mem _ List.mem_cons_self)
    have hba : b ≠ a := fun he => (List.nodup_cons.mp hnoduptail).1 (he ▸ List.mem_cons_self)
    obtain ⟨s₂, ht, heq⟩ := asks_next (n := 1) hpassed.kept hget ha
    have hb₂ : b ∈ s₂.transfers d := by
      by_contra hno
      exact hba (ht.eq_of_left hb hno).1
    -- Whether the first one of the two is ended or not, the second one is at its place.
    have hget₂ : (s₂.transfers d ++ (done ++ [a, b]).drop (s₂.transfers d).length)[done.length + 1]? = some b := by
      rw [ht.transfers_self, hl₁]
      split
      · have hadone : a ∉ done := fun hmem => hdisjoint a hmem a List.mem_cons_self rfl
        rw [List.erase_append_right _ hadone, List.erase_cons_head]
        have hrest : (done ++ [a, b]).drop (done ++ [b]).length = [b] := by
          rw [List.length_append, ← List.drop_drop, List.drop_left]
          rfl
        rw [hrest, List.getElem?_append_right (by simp), List.length_append, List.length_singleton, Nat.sub_self]
        rfl
      · rw [List.drop_length, List.append_nil, List.getElem?_append_right (by simp), Nat.add_sub_cancel_left]
        rfl
    obtain ⟨s₃, ht', heq'⟩ := asks_next (n := 0) (ht.kept hpassed.kept ha) hget₂ hb₂
    refine ⟨s₃, heq.trans heq', by rw [ht'.called, ht.called, hcalled]; simp, fun j hj hno => ?_⟩
    by_cases hj₂ : j ∈ s₂.transfers d
    · obtain ⟨rfl, hdue⟩ := ht'.eq_of_left hj₂ hno
      rw [← hsametail j (List.mem_cons_of_mem _ List.mem_cons_self)]
      exact ((ht.due j).mp hdue).resolve_left hba
    · obtain ⟨rfl, hdue⟩ := ht.eq_of_left (hl₁ ▸ hj) hj₂
      rwa [← hsametail j List.mem_cons_self]
  · simp only [List.length_cons] at htail
    omega

end timeout
end Transfers

namespace Watched
open Transfers

/-- The states of runs: the lists are kept, and transfers that are due have been idle. -/
structure Sound (w : Watched) : Prop where
  kept : Kept w.selection
  idle : ∀ id ∈ w.selection.running, w.selection.due id → id ∈ w.idle

private theorem timeoutTransfers_looped {s s' : Transfers} (hk : Kept s) (h : s.timeoutTransfers = some s') :
    ∃ s₁, s.timeoutLoop .xToWl = some s₁ ∧ s₁.timeoutLoop .wlToX = some s' ∧ Looped s .xToWl s₁ ∧ Looped s₁ .wlToX s' := by
  obtain ⟨s₁, h₁, h₂⟩ := Option.bind_eq_some_iff.mp h
  have hl := Looped.of_timeoutLoop hk h₁
  exact ⟨s₁, h₁, h₂, hl, .of_timeoutLoop hl.kept h₂⟩

private theorem running_start {s : Transfers} {d : Direction} {id timestamp : Nat} {fd : Int} :
    (s.startTransfer d id timestamp fd).running.Perm (id :: s.running) := by
  unfold startTransfer startTimeoutTransfersTimer Transfers.running
  cases d with
  | xToWl => exact (List.perm_append_singleton id _).append_right _
  | wlToX => exact (List.append_assoc .. ▸ List.perm_append_singleton id _ : (_ ++ (_ ++ [id])).Perm _)

private theorem Sound.step {w w' : Watched} {e : TransferEvent} (h : Sound w) (hs : w.step e = some w') : Sound w' := by
  cases e with
  | startTransfer d id timestamp fd =>
    obtain ⟨hnew, hs⟩ := Option.ite_none_left_eq_some.mp hs
    cases hs
    obtain ⟨hnew, hfresh⟩ := not_or.mp hnew
    have hperm := @running_start w.selection d id timestamp fd
    refine ⟨⟨hperm.nodup_iff.mpr (List.nodup_cons.mpr ⟨hnew, h.kept.nodup⟩), fun j hj => ?_, ?_⟩, fun j hj hdue => ?_⟩
    · rcases List.mem_cons.mp (hperm.mem_iff.mp hj) with rfl | hj
      · exact hfresh
      · exact h.kept.alive j hj
    · exact iff_of_true rfl (List.ne_nil_of_mem (hperm.mem_iff.mpr List.mem_cons_self))
    · have hne : j ≠ id := by
        rintro rfl
        simp [due, startTransfer, startTimeoutTransfersTimer] at hdue
      refine h.idle j ((List.mem_cons.mp (hperm.mem_iff.mp hj)).resolve_left hne) ?_
      simpa [due, startTransfer, startTimeoutTransfersTimer, Function.update_of_ne hne] using hdue
  | resetTimeout id =>
    obtain ⟨-, hs⟩ := Option.ite_none_right_eq_some.mp hs
    cases hs
    refine ⟨⟨h.kept.nodup, h.kept.alive, h.kept.timer⟩, fun j hj hdue => ?_⟩
    change (w.selection.modify id fun t => { t with timedOut := false }).due j = true at hdue
    rw [due_modify] at hdue
    split at hdue
    · cases hdue
    · next hne => exact List.mem_filter.mpr ⟨h.idle j hj hdue, decide_eq_true hne⟩
  | endTransfer d id =>
    obtain ⟨hid, hs⟩ := Option.ite_none_right_eq_some.mp hs
    cases hs
    obtain ⟨-, hdue, htransfers, hdeleted, htimer⟩ := @endTransfer_fields w.selection d id
    refine ⟨h.kept.ended hid htransfers hdeleted htimer, fun j hj hj' => h.idle j ?_ (hdue j ▸ hj')⟩
    exact List.mem_of_mem_erase (running_update h.kept hid htransfers ▸ hj)
  | timeoutTransfers =>
    obtain ⟨-, hs⟩ := Option.ite_none_right_eq_some.mp hs
    obtain ⟨s', hs', hw'⟩ := Option.map_eq_some_iff.mp hs
    cases hw'
    obtain ⟨s₁, -, -, hl₁, hl₂⟩ := timeoutTransfers_looped h.kept hs'
    refine ⟨hl₂.kept, fun j hj _ => ?_⟩
    rcases List.mem_append.mp hj with hj | hj
    · rw [hl₂.others _ (by decide)] at hj
      exact List.mem_append_left _ (hl₁.fewer.subset hj)
    · exact List.mem_append_right _ (hl₁.others .wlToX (by decide) ▸ hl₂.fewer.subset hj)

private theorem Sound.initial : Sound .initial where
  kept := ⟨List.nodup_nil, fun _ hmem => absurd hmem List.not_mem_nil, by decide⟩
  idle _ hmem := by cases hmem

/-- Of the transfers that are not the last two of a list the first one that is due. -/
private theorem exists_first_due {s : Transfers} {d : Direction}
    (h : ∃ x ∈ (s.transfers d).take ((s.transfers d).length - 2), s.due x) : ∃ front x y z rest,
      s.transfers d = front ++ x :: y :: z :: rest ∧ (∀ x ∈ front, ¬ s.due x) ∧ s.due x := by
  have hsome : (((s.transfers d).take ((s.transfers d).length - 2)).find? s.due).isSome := by
    rw [List.find?_isSome]
    exact h
  obtain ⟨x, hx⟩ := Option.isSome_iff_exists.mp hsome
  obtain ⟨hdue, front, after, heq, hfront⟩ := List.find?_eq_some_iff_append.mp hx
  have hl : s.transfers d = front ++ x :: (after ++ (s.transfers d).drop ((s.transfers d).length - 2)) := by
    rw [← List.cons_append, ← List.append_assoc, ← heq, List.take_append_drop]
  have hlong : 2 < (s.transfers d).length := by
    by_contra hshort
    rw [Nat.sub_eq_zero_of_le (Nat.not_lt.mp hshort), List.take_zero] at heq
    exact absurd heq (by simp)
  have htwo : ((s.transfers d).drop ((s.transfers d).length - 2)).length = 2 := by
    rw [List.length_drop]
    omega
  obtain ⟨a, b, hab⟩ := List.length_eq_two.mp htwo
  rw [hab] at hl
  obtain _ | ⟨y, _ | ⟨z, after⟩⟩ := after
  · exact ⟨front, x, a, b, [], hl, by simpa using hfront, hdue⟩
  · exact ⟨front, x, y, a, [b], hl, by simpa using hfront, hdue⟩
  · exact ⟨front, x, y, z, after ++ [a, b], hl, by simpa using hfront, hdue⟩

private theorem Sound.not_asked {w : Watched} {s' : Transfers} (h : Sound w) (hlast : ¬ w.selection.LastDue)
    (hs' : w.selection.timeoutTransfers = some s') : ¬ AskedOnce w s' := by
  rintro ⟨⟨new, hcalled, hperm⟩, -, -⟩
  obtain ⟨s₁, h₁, h₂, hl₁, hl₂⟩ := timeoutTransfers_looped h.kept hs'
  -- A transfer that is not called in its list is not called in the other one.
  suffices hskip : ∃ y ∈ w.selection.running, s'.called.count y = w.selection.called.count y by
    obtain ⟨y, hy, hcount⟩ := hskip
    rw [hcalled, List.count_append] at hcount
    have hpos := List.count_pos_iff.mpr (hperm.mem_iff.mpr hy)
    omega
  unfold LastDue at hlast
  push Not at hlast
  obtain ⟨d, hdue⟩ := hlast
  obtain ⟨front, x, y, z, rest, hl, hfront, hx⟩ := exists_first_due hdue
  have hy : y ∈ w.selection.transfers d := by simp [hl]
  refine ⟨y, mem_running.mpr ⟨d, hy⟩, ?_⟩
  cases d with
  | xToWl =>
    obtain ⟨new₂, hnew₂, hsub⟩ := hl₂.called
    have hno : y ∉ new₂ := fun hmem => by
      cases h.kept.apart hy (hl₁.others .wlToX (by decide) ▸ hsub hmem)
    rw [hnew₂, List.count_append, List.count_eq_zero_of_not_mem hno, Nat.add_zero]
    exact skips_next h.kept hl hfront hx h₁
  | wlToX =>
    obtain ⟨new₁, hnew₁, hsub⟩ := hl₁.called
    have hother : ∀ j ∈ w.selection.transfers .wlToX, j ∉ w.selection.transfers .xToWl := fun j hj hj' => by
      cases h.kept.apart hj hj'
    have hsame : ∀ j ∈ w.selection.transfers .wlToX, s₁.due j = w.selection.due j := fun j hj => hl₁.due j (hother j hj)
    rw [skips_next hl₁.kept ((hl₁.others .wlToX (by decide)).trans hl) ?_ ?_ h₂, hnew₁, List.count_append,
      List.count_eq_zero_of_not_mem fun hmem => hother y hy (hsub hmem), Nat.add_zero]
    · intro j hj
      rw [hsame j (hl ▸ List.mem_append_left _ hj)]
      exact hfront j hj
    · rw [hsame x (by simp [hl])]
      exact hx

private theorem Sound.asked {w : Watched} (h : Sound w) (hlast : w.selection.LastDue) :
    ∃ s', w.selection.timeoutTransfers = some s' ∧ AskedOnce w s' := by
  obtain ⟨s₁, h₁, hcalled₁, hended₁⟩ := asks_all h.kept (hlast .xToWl)
  have hl₁ := Looped.of_timeoutLoop h.kept h₁
  have hlist := hl₁.others .wlToX (by decide)
  have hsame : ∀ j ∈ w.selection.transfers .wlToX, s₁.due j = w.selection.due j := fun j hj =>
    hl₁.due j fun hj' => by cases h.kept.apart hj hj'
  obtain ⟨s', h₂, hcalled₂, hended₂⟩ := asks_all (s := s₁) (d := .wlToX) hl₁.kept fun x hx => by
    rw [hlist] at hx
    rw [hsame x (List.mem_of_mem_take hx)]
    exact hlast .wlToX x hx
  have hl₂ := Looped.of_timeoutLoop hl₁.kept h₂
  refine ⟨s', Option.bind_eq_some_iff.mpr ⟨s₁, h₁, h₂⟩, ⟨_, ?_, .refl _⟩, fun j hj hno => h.idle j hj ?_, ?_⟩
  · rw [hcalled₂, hcalled₁, hlist, List.append_assoc]
    rfl
  · obtain ⟨hno₁, hno₂⟩ := not_or.mp (mt List.mem_append.mpr hno)
    rcases List.mem_append.mp hj with hj | hj
    · exact hended₁ j hj (hl₂.others .xToWl (by decide) ▸ hno₁)
    · exact hsame j hj ▸ hended₂ j (hlist ▸ hj) hno₂
  · rw [← Bool.not_eq_true, hl₂.kept.timer, not_not]

end Watched

/-- A run of the timer, whenever it comes, does what it should exactly when only the last two of each list are due. -/
theorem timeoutTransfers_askedOnce_iff {w : Watched} (h : Lib.Reachable Watched.step Lib.anyStep .initial w) :
    (∃ s', w.selection.timeoutTransfers = some s' ∧ Transfers.AskedOnce w s') ↔ w.selection.LastDue := by
  have hsound := h.invariant Watched.Sound .initial fun _ _ _ hs _ hstep => hs.step hstep
  refine ⟨fun ⟨s', hs', hasked⟩ => ?_, fun hlast => hsound.asked hlast⟩
  by_contra hlast
  exact hsound.not_asked hlast hs' hasked

private def pair : List TransferEvent :=
  [.startTransfer .xToWl 1 100 5, .startTransfer .xToWl 2 200 6, .timeoutTransfers]

private def pairDue : Watched := (Lib.execute Watched.step .initial pair).getD .initial

/-- Both of two transfers are ended. -/
theorem pairDue_askedOnce : ∃ s', pairDue.selection.timeoutTransfers = some s' ∧ Transfers.AskedOnce pairDue s' := by
  have hreach : Lib.Reachable Watched.step Lib.anyStep .initial pairDue := Lib.Reachable.init.execute pair rfl
  have hshort : ∀ d, (pairDue.selection.transfers d).take ((pairDue.selection.transfers d).length - 2) = [] := by
    intro d
    cases d <;> rfl
  exact (timeoutTransfers_askedOnce_iff hreach).mpr fun d id hid => by rw [hshort] at hid; cases hid

private def three : List TransferEvent :=
  [.startTransfer .xToWl 1 100 5, .startTransfer .xToWl 2 200 6, .startTransfer .xToWl 3 300 7, .timeoutTransfers,
    .resetTimeout 2, .resetTimeout 3]

private def firstDue : Watched := (Lib.execute Watched.step .initial three).getD .initial

/-- With the first of three transfers due, the second one is not asked, and the last one is asked twice and ended in spite
of what has happened in it. -/
theorem firstDue_ends_last : Lib.Reachable Watched.step Lib.anyStep .initial firstDue ∧
    ∃ s', firstDue.selection.timeoutTransfers = some s' ∧ s'.called = firstDue.selection.called ++ [1, 3, 3] ∧
      s'.running = [2] ∧ 3 ∉ firstDue.idle ∧ ¬ Transfers.AskedOnce firstDue s' := by
  refine ⟨Lib.Reachable.init.execute three rfl, _, rfl, rfl, rfl, by decide, fun h => ?_⟩
  exact absurd (h.ended 3 (by decide) (by decide)) (by decide)

end KWinFT.Xwl.Timeouts
