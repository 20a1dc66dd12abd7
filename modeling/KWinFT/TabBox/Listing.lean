import KWinFT.TabBox.ClientList

/-! Which clients the switcher lists, once each and in which order. -/
namespace KWinFT.TabBox.Handler
open Focus
variable (h : Handler) (desktop : Int)

/-- The client that stands for a window: its modal dialog or itself. -/
def standIn (c : Window) : Window := (h.dialog c).getD c

/-- The checks that do not look at the list. -/
def passes (c : Window) : Bool :=
  h.checkDesktop desktop c ∧ h.checkActivity c ∧ h.checkMinimized c ∧ h.checkMultiScreen c ∧ h.wantsTabFocus c ∧
    ¬ h.skipSwitcher c

/-- Clients that are in the list for windows that have entered it, as far as the handler can tell. -/
def seen (entered : List Window) : List Window := if h.clientTabBox then entered.map h.standIn else []

/-- The windows that pass the checks, when they come in turn. -/
def entrants (turns : List Window) : List Window :=
  turns.foldl (fun entered c =>
    if h.passes desktop c ∧ h.checkApplications (h.seen entered) c then entered ++ [c] else entered) []

/-- The windows in the order in which the loop comes to them. -/
def turns (start : Option Window) : List Window :=
  match h.switchingMode with
  | .focusChain =>
    match h.first start with
    | none => []
    | some c =>
      let recent := h.chain.mostRecentlyUsed.reverse
      if c ∈ recent then recent.rotate (recent.idxOf c) else [c]
  | .stackingOrder =>
    match h.stackingOrder with
    | [] => []
    | stop :: rest => stop :: rest.takeWhile (· ≠ stop)

def entering (start : Option Window) : List Window := h.entrants desktop (h.turns start)

/-- The windows there are. -/
def offered : List Window :=
  match h.switchingMode with
  | .focusChain => h.chain.mostRecentlyUsed
  | .stackingOrder => h.stackingOrder

/-- With all windows of all applications, each window that passes the checks occurs or is represented. -/
def Covers (clients : List Window) : Prop :=
  h.applicationsMode = .allWindowsAllApplications → ∀ c ∈ h.offered, h.passes desktop c → h.standIn c ∈ clients ∧
    (c ∈ clients → h.dialog c ≠ none → ∃ c' ∈ h.offered, h.passes desktop c' ∧ h.dialog c' = some c)

/-- Along the chain the clients that are not first are in the order of turns, from the stack the start client is before
them. -/
def Ordered (start : Option Window) (clients : List Window) : Prop :=
  match h.switchingMode with
  | .focusChain => ∃ windows : List Window, windows.Sublist (h.turns start) ∧
    windows.map h.standIn = clients.filter fun c => !h.isFirstInTabBox c
  | .stackingOrder => ∀ s, start = some s → ∀ b ∈ clients, ¬ h.isFirstInTabBox b → b ≠ s → ¬ [b, s].Sublist clients

/-- What the list is to be like, with the entry for the desktop at its end. -/
def Right (start : Option Window) (clientList : List Window) : Prop :=
  ∃ clients, clientList = clients ++ h.desktopEntry (h.entering desktop start).isEmpty ∧ clientList.Nodup ∧
    clientList.Pairwise (fun a b => h.isFirstInTabBox b → h.isFirstInTabBox a) ∧
    h.Covers desktop clients ∧ h.Ordered start clients

/-- A window that comes after one with the same stand-in has a dialog, so that it can be seen that it is there, or it is
the start client in the stack. -/
def NoneTwice (moved : Option Window) (entered : List Window) : Prop :=
  entered.Pairwise fun a c => h.standIn a = h.standIn c → moved = some (h.standIn c) ∨
    (h.clientTabBox ∧ (h.dialog c).isSome)

/-- The windows before one that puts the start client in place stand for the start client. -/
def StartFirst (moved : Option Window) (entered : List Window) : Prop :=
  ∀ before c after, entered = before ++ c :: after → moved = some (h.standIn c) →
    (∀ d ∈ before, h.standIn d = h.standIn c) ∨
      (h.clientTabBox ∧ (h.dialog c).isSome ∧ h.standIn c ∈ before.map h.standIn)

/-- The client that the loop puts behind the others again. -/
def moved (start : Option Window) : Option Window :=
  match h.switchingMode with
  | .focusChain => none
  | .stackingOrder => start

structure Fitting (start : Option Window) : Prop where
  stack : h.switchingMode = .stackingOrder → h.stackingOrder ≠ []
  /-- Windows behind the place where the first one of the stack comes again are represented before. -/
  complete : h.applicationsMode = .allWindowsAllApplications → ∀ c ∈ h.offered, h.passes desktop c →
    h.standIn c ∈ (h.entering desktop start).map h.standIn
  desktopEntry : ∀ d ∈ h.desktopEntry (h.entering desktop start).isEmpty,
    d ∉ (h.entering desktop start).map h.standIn
  /-- All are first, or none is. -/
  firsts : (∀ c ∈ h.entering desktop start, h.isFirstInTabBox (h.standIn c)) ∨
    ((∀ c ∈ h.entering desktop start, ¬ h.isFirstInTabBox (h.standIn c)) ∧
      (∀ d ∈ h.desktopEntry (h.entering desktop start).isEmpty, ¬ h.isFirstInTabBox d) ∧
      h.NoneTwice (h.moved start) (h.entering desktop start) ∧ h.StartFirst (h.moved start) (h.entering desktop start))

/-- The list as far as it is determined by the windows that enter it. -/
def pushed (moved : Option Window) (entered : List Window) : List Window :=
  entered.foldl (fun l c =>
    if (h.dialog c).isSome ∧ h.clientTabBox ∧ h.standIn c ∈ l then l
    else if moved = some (h.standIn c) then removeAll (h.standIn c) l ++ [h.standIn c]
    else l ++ [h.standIn c]) []

/-- The clients that are not first, as they were added, and the others behind them. -/
private structure Body (moved : Option Window) (entered clients firsts : List Window) : Prop where
  eq : clients = ((h.pushed moved entered).filter fun x => !h.isFirstInTabBox x) ++ firsts
  nodup : firsts.Nodup
  mem_firsts : ∀ x, x ∈ firsts ↔ x ∈ entered.map h.standIn ∧ h.isFirstInTabBox x

section rounds
variable {h desktop} {moved start : Option Window} {entered turns l l' : List Window} {x c : Window}

private theorem checkApplications_congr (hl : ∀ x, x ∈ l ↔ x ∈ l') :
    h.checkApplications l c = h.checkApplications l' c := by
  unfold checkApplications
  split
  · rw [Bool.eq_iff_iff, List.all_eq_true, List.all_eq_true]
    exact forall_congr' fun x => by rw [hl]
  · rfl
  · rfl

private theorem mem_known {l : Listed} : x ∈ h.known l ↔ h.clientTabBox ∧ x ∈ l.clientList := by
  unfold known
  split <;> simp_all

private theorem mem_seen : x ∈ h.seen entered ↔ h.clientTabBox ∧ x ∈ entered.map h.standIn := by
  unfold seen
  split <;> simp_all

private theorem mem_stickyClients_addClient {l : Listed} {clientList : List Window} {add : Window} :
    x ∈ (h.addClient l clientList add).stickyClients ↔
      x ∈ l.stickyClients ∨ (x = add ∧ h.isFirstInTabBox x) := by
  unfold addClient
  dsimp only
  split
  · next hfirst =>
    rw [List.mem_append, List.mem_singleton]
    exact or_congr_right ⟨fun hx => ⟨hx, hx ▸ hfirst⟩, And.left⟩
  · next hfirst => exact ⟨.inl, fun hx => hx.elim id fun he => absurd (he.1 ▸ he.2) hfirst⟩

private theorem pushed_concat (entered : List Window) (c : Window) : h.pushed moved (entered ++ [c]) =
    if (h.dialog c).isSome ∧ h.clientTabBox ∧ h.standIn c ∈ h.pushed moved entered then h.pushed moved entered
    else if moved = some (h.standIn c) then removeAll (h.standIn c) (h.pushed moved entered) ++ [h.standIn c]
    else h.pushed moved entered ++ [h.standIn c] :=
  List.foldl_concat ..

private theorem mem_pushed : x ∈ h.pushed moved entered ↔ x ∈ entered.map h.standIn := by
  induction entered using List.reverseRecOn with
  | nil => rfl
  | append_singleton entered c ih =>
    rw [pushed_concat, List.map_append, List.mem_append, ← ih, List.map_singleton, List.mem_singleton]
    split
    · next hin => exact ⟨.inl, fun hx => hx.elim id fun he => he ▸ hin.2.2⟩
    · split
      · rw [List.mem_append, mem_removeAll, List.mem_singleton]
        by_cases hx : x = h.standIn c <;> simp [hx]
      · rw [List.mem_append, List.mem_singleton]

private theorem entrants_concat (turns : List Window) (c : Window) : h.entrants desktop (turns ++ [c]) =
    if h.passes desktop c ∧ h.checkApplications (h.seen (h.entrants desktop turns)) c then
      h.entrants desktop turns ++ [c] else h.entrants desktop turns :=
  List.foldl_concat ..

private theorem entrants_sublist (turns : List Window) : (h.entrants desktop turns).Sublist turns := by
  induction turns using List.reverseRecOn with
  | nil => exact .refl _
  | append_singleton turns c ih =>
    rw [entrants_concat]
    split
    · exact ih.append (.refl _)
    · exact ih.trans (List.sublist_append_left _ _)

private theorem clientToAddToList_eq (clientList : List Window) (c : Window) :
    h.clientToAddToList desktop clientList (some c) =
      if h.passes desktop c ∧ h.checkApplications clientList c then
        if (h.dialog c).isSome ∧ h.standIn c ∈ clientList then none else some (h.standIn c)
      else none := by
  unfold clientToAddToList
  refine ite_congr (propext ?_) (fun _ => ?_) fun _ => rfl
  · simp only [passes, decide_eq_true_eq]
    tauto
  · cases hd : h.dialog c with
    | none => simp [standIn, hd]
    | some modal => simp [standIn, hd]

/-- The loop adds what the windows that enter determine. -/
private theorem stackRounds_spec (turns : List Window) :
    let l := turns.foldl (h.stackRound desktop moved) ⟨[], []⟩
    l.clientList = h.pushed moved (h.entrants desktop turns) ∧
      ∀ x, x ∈ l.stickyClients ↔ x ∈ (h.entrants desktop turns).map h.standIn ∧ h.isFirstInTabBox x := by
  induction turns using List.reverseRecOn with
  | nil => exact ⟨rfl, by simp [entrants]⟩
  | append_singleton turns c ih =>
    obtain ⟨hlist, hsticky⟩ := ih
    set l := turns.foldl (h.stackRound desktop moved) ⟨[], []⟩ with hl
    set entered := h.entrants desktop turns with he
    have hknown : ∀ x, x ∈ h.known l ↔ x ∈ h.seen entered := fun x => by
      rw [mem_known, mem_seen, hlist, mem_pushed]
    rw [List.foldl_concat, ← hl, stackRound, clientToAddToList_eq, checkApplications_congr hknown, entrants_concat,
      ← he]
    by_cases hpass : h.passes desktop c ∧ h.checkApplications (h.seen entered) c
    · rw [if_pos hpass, if_pos hpass, pushed_concat, ← hlist, List.map_append, List.map_singleton]
      by_cases hin : (h.dialog c).isSome ∧ h.standIn c ∈ h.known l
      · obtain ⟨hctb, hmem⟩ := mem_known.mp hin.2
        rw [if_pos hin, if_pos ⟨hin.1, hctb, hmem⟩]
        refine ⟨rfl, fun x => ?_⟩
        rw [hlist, mem_pushed] at hmem
        rw [List.mem_append, List.mem_singleton]
        exact (hsticky x).trans (and_congr_left fun _ => ⟨.inl, fun hx => hx.elim id fun he => he ▸ hmem⟩)
      · rw [if_neg hin, if_neg fun hc => hin ⟨hc.1, mem_known.mpr hc.2⟩]
        have hsticky' (clientList : List Window) (x : Window) :
            x ∈ (h.addClient l clientList (h.standIn c)).stickyClients ↔
              x ∈ entered.map h.standIn ++ [h.standIn c] ∧ h.isFirstInTabBox x := by
          rw [mem_stickyClients_addClient, hsticky, List.mem_append, List.mem_singleton, or_and_right]
        dsimp only
        split
        · exact ⟨rfl, hsticky' _⟩
        · exact ⟨rfl, hsticky' _⟩
    · rw [if_neg hpass, if_neg hpass]
      exact ⟨hlist, hsticky⟩

/-- Where no client is moved, the list is in the order of turns. -/
private theorem exists_sublist_pushed (entered : List Window) :
    ∃ windows : List Window, windows.Sublist entered ∧ windows.map h.standIn = h.pushed none entered := by
  induction entered using List.reverseRecOn with
  | nil => exact ⟨[], .refl _, rfl⟩
  | append_singleton entered c ih =>
    obtain ⟨windows, hsub, hmap⟩ := ih
    rw [pushed_concat]
    split
    · exact ⟨windows, hsub.trans (List.sublist_append_left _ _), hmap⟩
    · exact ⟨windows ++ [c], hsub.append (.refl _), by rw [List.map_append, hmap, if_neg (by simp)]; rfl⟩

private theorem count_pushed (hx : moved = some x) : (h.pushed moved entered).count x ≤ 1 := by
  induction entered using List.reverseRecOn with
  | nil => exact Nat.zero_le _
  | append_singleton entered c ih =>
    rw [pushed_concat]
    split
    · exact ih
    · split
      · next hc =>
        cases hx.symm.trans hc
        rw [List.count_append, List.count_eq_zero_of_not_mem (by simp), Nat.zero_add]
        exact List.count_le_length
      · next hc =>
        have hne : ¬ (h.standIn c == x) = true := fun he => hc (by rw [hx, beq_iff_eq.mp he])
        rw [List.count_append, List.count_singleton, if_neg hne]
        exact ih

private theorem noneTwice_concat : h.NoneTwice moved (entered ++ [c]) ↔ h.NoneTwice moved entered ∧
    (h.standIn c ∈ entered.map h.standIn → moved = some (h.standIn c) ∨ (h.clientTabBox ∧ (h.dialog c).isSome)) := by
  rw [NoneTwice, List.pairwise_append]
  simp only [List.pairwise_singleton, List.mem_singleton, forall_eq, true_and, List.mem_map]
  exact and_congr_right fun _ => ⟨fun hall ⟨a, ha, he⟩ => hall a ha he, fun hall a ha he => hall ⟨a, ha, he⟩⟩

private theorem nodup_pushed : (h.pushed moved entered).Nodup ↔ h.NoneTwice moved entered := by
  induction entered using List.reverseRecOn with
  | nil => exact ⟨fun _ => .nil, fun _ => .nil⟩
  | append_singleton entered c ih =>
    rw [pushed_concat, noneTwice_concat, ← ih]
    split
    · next hin => exact ⟨fun hn => ⟨hn, fun _ => .inr ⟨hin.2.1, hin.1⟩⟩, And.left⟩
    · next hin =>
      split
      · next hmoved =>
        refine ⟨fun hn => ⟨List.nodup_iff_count_le_one.mpr fun y => ?_, fun _ => .inl hmoved⟩,
          fun hn => List.concat_eq_append ▸ (hn.1.filter _).concat (by simp)⟩
        by_cases hy : y = h.standIn c
        · exact count_pushed (hmoved.trans (congrArg some hy.symm))
        · have hrest : (removeAll (h.standIn c) (h.pushed moved entered)).Nodup :=
            hn.sublist (List.sublist_append_left _ _)
          rw [← List.count_filter (p := (· ≠ h.standIn c)) (by simpa using hy)]
          exact List.nodup_iff_count_le_one.mp hrest y
      · next hmoved =>
        have hmem : h.standIn c ∈ h.pushed moved entered ↔ h.standIn c ∈ entered.map h.standIn := mem_pushed
        rw [← List.concat_eq_append, List.nodup_concat, and_comm, hmem]
        refine and_congr_right fun _ => ⟨fun hno hyes => absurd hyes hno, fun hall hyes => ?_⟩
        rcases hall hyes with hm | ⟨hctb, hsome⟩
        · exact hmoved hm
        · exact hin ⟨hsome, hctb, hmem.mpr hyes⟩

private theorem startFirst_concat : h.StartFirst moved (entered ++ [c]) ↔ h.StartFirst moved entered ∧
    (moved = some (h.standIn c) → (∀ d ∈ entered, h.standIn d = h.standIn c) ∨
      (h.clientTabBox ∧ (h.dialog c).isSome ∧ h.standIn c ∈ entered.map h.standIn)) := by
  refine ⟨fun hall => ⟨fun before d after he => ?_, hall entered c [] rfl⟩, fun hall before d after he => ?_⟩
  · exact hall before d (after ++ [c]) (by rw [he]; simp)
  · rcases List.eq_nil_or_concat after with rfl | ⟨after, x, rfl⟩
    · obtain ⟨rfl, hd⟩ := List.append_inj' he rfl
      cases hd
      exact hall.2
    · rw [List.concat_eq_append, ← List.cons_append, ← List.append_assoc] at he
      exact hall.1 before d after (List.append_inj' he rfl).1

private theorem pair_sublist_concat {b s : Window} (hne : s ≠ x) : [b, s].Sublist (l ++ [x]) ↔ [b, s].Sublist l := by
  refine ⟨fun hsub => ?_, fun hsub => hsub.trans (List.sublist_append_left _ _)⟩
  obtain ⟨l₁, l₂, heq, h₁, h₂⟩ := List.sublist_append_iff.mp hsub
  rcases List.eq_nil_or_concat l₂ with rfl | ⟨l₂, y, rfl⟩
  · rwa [heq, List.append_nil]
  · rw [List.concat_eq_append, ← List.append_assoc] at heq
    have hy : s = y := by simpa using congrArg List.getLast? heq
    have hmem : s ∈ [x] := h₂.subset (by simp [hy])
    exact absurd (List.mem_singleton.mp hmem) hne

/-- No other client is before the start client. -/
private theorem start_before_iff {s : Window} :
    (∀ b ∈ h.pushed (some s) entered, b ≠ s → ¬ [b, s].Sublist (h.pushed (some s) entered)) ↔
      h.StartFirst (some s) entered := by
  induction entered using List.reverseRecOn with
  | nil => exact ⟨fun _ before d after he => by simp at he, fun _ b hb => absurd hb List.not_mem_nil⟩
  | append_singleton entered c ih =>
    rw [pushed_concat, startFirst_concat]
    split
    · next hin =>
      rw [ih]
      exact ⟨fun hs => ⟨hs, fun _ => .inr ⟨hin.2.1, hin.1, mem_pushed.mp hin.2.2⟩⟩, And.left⟩
    · next hin =>
      split
      · next hs =>
        cases hs
        have hno : ¬ (h.clientTabBox ∧ (h.dialog c).isSome ∧ h.standIn c ∈ entered.map h.standIn) :=
          fun hyes => hin ⟨hyes.2.1, hyes.1, mem_pushed.mpr hyes.2.2⟩
        rw [or_iff_left hno]
        constructor
        · intro hbefore
          have hall : ∀ d ∈ entered, h.standIn d = h.standIn c := by
            intro d hd
            by_contra hne
            have hmem : h.standIn d ∈ removeAll (h.standIn c) (h.pushed (some (h.standIn c)) entered) :=
              mem_removeAll.mpr ⟨mem_pushed.mpr (List.mem_map_of_mem hd), hne⟩
            exact hbefore _ (List.mem_append_left _ hmem) hne ((List.singleton_sublist.mpr hmem).append (.refl _))
          refine ⟨fun before d after he _ => .inl fun a ha => ?_, fun _ => hall⟩
          rw [hall a (by simp [he, ha]), hall d (by simp [he])]
        · rintro ⟨-, hall⟩ b hb hne
          rcases List.mem_append.mp hb with hb | hb
          · obtain ⟨d, hd, rfl⟩ := List.mem_map.mp (mem_pushed.mp (mem_removeAll.mp hb).1)
            exact absurd (hall rfl d hd) hne
          · exact absurd (List.mem_singleton.mp hb) hne
      · next hs =>
        have hne : s ≠ h.standIn c := fun he => hs (congrArg some he)
        rw [and_iff_left fun he => absurd he hs, ← ih]
        refine ⟨fun hall b hb hbs hsub => ?_, fun hall b hb hbs hsub => ?_⟩
        · exact hall b (List.mem_append_left _ hb) hbs ((pair_sublist_concat hne).mpr hsub)
        · have hsub' := (pair_sublist_concat hne).mp hsub
          exact hall b (hsub'.subset List.mem_cons_self) hbs hsub'

/-- The clients that are first come behind all others, once each. -/
private theorem moveSticky_eq (l : Listed) : ∃ stickies : List Window,
    moveSticky l = (l.clientList.filter fun x => x ∉ l.stickyClients) ++ stickies ∧ stickies.Nodup ∧
      ∀ x, x ∈ stickies ↔ x ∈ l.stickyClients := by
  obtain ⟨clientList, stickyClients⟩ := l
  induction stickyClients using List.reverseRecOn with
  | nil => exact ⟨[], by simp [moveSticky], .nil, fun x => Iff.rfl⟩
  | append_singleton stickyClients c ih =>
    obtain ⟨stickies, heq, hnodup, hmem⟩ := ih
    have hstep : moveSticky ⟨clientList, stickyClients ++ [c]⟩ =
        removeAll c (moveSticky ⟨clientList, stickyClients⟩) ++ [c] := List.foldl_concat ..
    refine ⟨removeAll c stickies ++ [c], ?_, ?_, fun x => ?_⟩
    · rw [hstep, heq, removeAll, List.filter_append, List.filter_filter, List.append_assoc, removeAll]
      congr 1
      refine List.filter_congr fun x _ => ?_
      simp [Bool.and_comm]
    · exact List.concat_eq_append ▸ (hnodup.filter _).concat (by simp)
    · rw [List.mem_append, mem_removeAll, List.mem_append, List.mem_singleton, hmem]
      by_cases hx : x = c <;> simp [hx]

private theorem stackLoop_eq (stop c : Window) (rest : List Window) (l : Listed) :
    h.stackLoop desktop start stop (c :: rest) l =
      (c :: rest.takeWhile (· ≠ stop)).foldl (h.stackRound desktop start) l := by
  induction rest generalizing c l with
  | nil => simp [stackLoop]
  | cons d rest ih =>
    rw [stackLoop]
    by_cases hd : d = stop
    · simp [hd]
    · rw [if_neg (by simpa using hd), ih, List.takeWhile_cons_of_pos (by simpa using hd)]
      rfl

private theorem chainRound_eq (l : Listed) (c : Window) :
    h.chainRound desktop l (some c) = h.stackRound desktop none l c := by
  unfold chainRound stackRound
  split <;> rfl

/-- The loop comes to the windows of a piece of the chain in turn, when it gets back to its beginning or nowhere after
them. -/
private theorem ends_chain {stop : Option Window} (vs : List Window) (a : Window) (l : Listed)
    (hchain : (a :: vs).IsChain fun x y => h.chain.nextMostRecentlyUsed x = some y)
    (hlast : ∀ y, h.chain.nextMostRecentlyUsed ((a :: vs).getLast (List.cons_ne_nil a vs)) = some y → stop = some y)
    (hvs : ∀ v ∈ vs, some v ≠ stop) : ∃ c, Lib.Ends (h.chainBody desktop stop) (some a, l)
      (c, (a :: vs).foldl (h.stackRound desktop none) l) := by
  induction vs generalizing a l with
  | nil =>
    refine ⟨_, .of_last ?_⟩
    cases hnext : h.chain.nextMostRecentlyUsed a with
    | none => simp [chainBody, hnext]
    | some y => simp [chainBody, hnext, hlast y hnext]
  | cons b vs ih =>
    obtain ⟨hnext, hchain⟩ := List.isChain_cons_cons.mp hchain
    obtain ⟨hb, hvs⟩ := List.forall_mem_cons.mp hvs
    have hagain : (h.chainBody desktop stop (some a, l)).2 = true := by simp [chainBody, hnext, hb]
    have hbody : (h.chainBody desktop stop (some a, l)).1 = (some b, h.stackRound desktop none l a) := by
      simp [chainBody, hnext, chainRound_eq]
    obtain ⟨c, hends⟩ := ih b (h.stackRound desktop none l a) hchain hlast hvs
    exact ⟨c, .of_again hagain (hbody ▸ hends)⟩

private theorem head?_rotate_idxOf (hx : x ∈ l) : (l.rotate (l.idxOf x)).head? = some x := by
  have hlt := List.idxOf_lt_length_of_mem hx
  rw [List.head?_rotate hlt, List.getElem?_eq_getElem hlt, List.getElem_idxOf]

/-- The loop begins outside of the chain only when that is empty. -/
private theorem next_first (hfirst : h.first start = some c) (hc : c ∉ h.chain.mostRecentlyUsed) :
    h.chain.nextMostRecentlyUsed c = none := by
  unfold first at hfirst
  unfold FocusChain.nextMostRecentlyUsed
  rw [if_pos hc]
  cases hhead : h.chain.mostRecentlyUsed.head? with
  | none => rfl
  | some x =>
    exfalso
    split at hfirst
    · next hany => exact hc (by simpa [hfirst] using hany)
    · rw [hhead] at hfirst
      cases hfirst
      exact hc (List.mem_of_mem_head? hhead)

private theorem addClients_spec (hchain : h.chain.mostRecentlyUsed.Nodup)
    (hstack : h.switchingMode = .stackingOrder → h.stackingOrder ≠ []) : ∀ᶠ fuel in Filter.atTop,
    h.addClients desktop fuel start =
      some ((h.turns start).foldl (h.stackRound desktop (h.moved start)) ⟨[], []⟩) := by
  unfold addClients turns moved
  cases hmode : h.switchingMode with
  | stackingOrder =>
    cases hs : h.stackingOrder with
    | nil => exact absurd hs (hstack hmode)
    | cons stop rest => exact .of_forall fun _ => by simp only [stackLoop_eq]
  | focusChain =>
    suffices hends : ∃ c, Lib.Ends (h.chainBody desktop (h.first start)) (h.first start, ⟨[], []⟩)
        (c, (match h.first start with
          | none => []
          | some c => if c ∈ h.chain.mostRecentlyUsed.reverse then
              h.chain.mostRecentlyUsed.reverse.rotate (h.chain.mostRecentlyUsed.reverse.idxOf c) else [c]).foldl
          (h.stackRound desktop none) ⟨[], []⟩) by
      obtain ⟨c, hends⟩ := hends
      filter_upwards [hends] with fuel hfuel
      simp only [hfuel]
      rfl
    cases hfirst : h.first start with
    | none => exact ⟨none, .of_last rfl⟩
    | some c =>
      dsimp only
      split
      · next hc =>
        have hadvances := (FocusChain.nextMostRecentlyUsed_retreats hchain).reverse.rotate
          (h.chain.mostRecentlyUsed.reverse.idxOf c)
        have hhead := head?_rotate_idxOf hc
        have hnodup := (List.nodup_rotate (n := h.chain.mostRecentlyUsed.reverse.idxOf c)).mpr
          (List.nodup_reverse.mpr hchain)
        generalize h.chain.mostRecentlyUsed.reverse.rotate (h.chain.mostRecentlyUsed.reverse.idxOf c) = lane at *
        obtain ⟨vs, rfl⟩ := List.head?_eq_some_iff.mp hhead
        refine ends_chain vs c _ hadvances.isChain (fun y hy => ?_) fun v hv he => ?_
        · rw [hadvances.getLast (List.cons_ne_nil c vs)] at hy
          exact hy
        · cases he
          exact (List.nodup_cons.mp hnodup).1 hv
      · next hc =>
        have hnone : h.chain.nextMostRecentlyUsed c = none := next_first hfirst (by simpa using hc)
        exact ends_chain [] c _ (.singleton c) (fun y hy => by cases hnone.symm.trans hy) (by simp)

private theorem passes_of_mem (hc : c ∈ h.entrants desktop turns) : h.passes desktop c := by
  induction turns using List.reverseRecOn with
  | nil => cases hc
  | append_singleton turns d ih =>
    rw [entrants_concat] at hc
    split at hc
    · next hpass =>
      rcases List.mem_append.mp hc with hc | hc
      · exact ih hc
      · exact List.mem_singleton.mp hc ▸ hpass.1
    · exact ih hc

private theorem offered_of_turns (hx : x ∈ h.offered) (hc : c ∈ h.turns start) : c ∈ h.offered := by
  unfold offered turns at *
  cases hmode : h.switchingMode with
  | stackingOrder =>
    cases hs : h.stackingOrder with
    | nil => simp [hmode, hs] at hx
    | cons stop rest =>
      simp only [hmode, hs] at hc
      exact List.cons_subset_cons stop (List.takeWhile_subset _) hc
  | focusChain =>
    simp only [hmode] at hx hc ⊢
    cases hfirst : h.first start with
    | none => simp [hfirst] at hc
    | some d =>
      simp only [hfirst] at hc
      split at hc
      · exact List.mem_reverse.mp (List.mem_rotate.mp hc)
      · next hd =>
        have hempty : h.chain.mostRecentlyUsed.head? = none := by
          have hnone := next_first hfirst (by simpa using hd)
          rwa [FocusChain.nextMostRecentlyUsed, if_pos (by simpa using hd)] at hnone
        rw [List.head?_eq_none_iff.mp hempty] at hx
        cases hx

section body
variable {clients firsts : List Window} (hb : h.Body moved entered clients firsts)
include hb

private theorem Body.mem : x ∈ clients ↔ x ∈ entered.map h.standIn := by
  rw [hb.eq, List.mem_append, List.mem_filter, hb.mem_firsts, mem_pushed, ← and_or_left]
  exact and_iff_left (by cases h.isFirstInTabBox x <;> simp)

private theorem Body.isEmpty : clients.isEmpty = entered.isEmpty := by
  rw [Bool.eq_iff_iff, List.isEmpty_iff, List.isEmpty_iff, List.eq_nil_iff_forall_not_mem]
  simp only [hb.mem]
  rw [← List.eq_nil_iff_forall_not_mem, List.map_eq_nil_iff]

private theorem Body.filter_eq : (clients.filter fun x => !h.isFirstInTabBox x) =
    (h.pushed moved entered).filter fun x => !h.isFirstInTabBox x := by
  have hfirsts : (firsts.filter fun x => !h.isFirstInTabBox x) = [] :=
    List.filter_eq_nil_iff.mpr fun x hx => by simp [((hb.mem_firsts x).mp hx).2]
  rw [hb.eq, List.filter_append, List.filter_filter, hfirsts, List.append_nil]
  simp only [Bool.and_self]

private theorem Body.eq_firsts (hall : ∀ c ∈ entered, h.isFirstInTabBox (h.standIn c)) : clients = firsts := by
  rw [hb.eq, List.filter_eq_nil_iff.mpr fun x hx => ?_, List.nil_append]
  obtain ⟨c, hc, rfl⟩ := List.mem_map.mp (mem_pushed.mp hx)
  simp [hall c hc]

private theorem Body.eq_pushed (hno : ∀ c ∈ entered, ¬ h.isFirstInTabBox (h.standIn c)) :
    clients = h.pushed moved entered := by
  have hfirsts : firsts = [] := List.eq_nil_iff_forall_not_mem.mpr fun x hx => by
    obtain ⟨hmem, hfirst⟩ := (hb.mem_firsts x).mp hx
    obtain ⟨c, hc, rfl⟩ := List.mem_map.mp hmem
    exact hno c hc hfirst
  rw [hb.eq, hfirsts, List.append_nil]
  refine List.filter_eq_self.mpr fun x hx => ?_
  obtain ⟨c, hc, rfl⟩ := List.mem_map.mp (mem_pushed.mp hx)
  simp [hno c hc]

/-- All clients are first or none is, where those that are first come before the others. -/
private theorem Body.pairwise_iff {entry : List Window} (hentry : entry.length ≤ 1) :
    (clients ++ entry).Pairwise (fun a b => h.isFirstInTabBox b → h.isFirstInTabBox a) ↔
      (∀ c ∈ entered, h.isFirstInTabBox (h.standIn c)) ∨
        ((∀ c ∈ entered, ¬ h.isFirstInTabBox (h.standIn c)) ∧ ∀ d ∈ entry, ¬ h.isFirstInTabBox d) := by
  have hshort : entry.Pairwise fun a b => h.isFirstInTabBox b → h.isFirstInTabBox a := by
    match entry, hentry with
    | [], _ => exact .nil
    | [d], _ => exact .cons (by simp) .nil
  rw [List.pairwise_append, and_iff_right hshort]
  constructor
  · rintro ⟨hclients, hcross⟩
    rw [hb.eq, List.pairwise_append] at hclients
    by_contra! hcon
    obtain ⟨⟨a, ha, hafirst⟩, hother⟩ := hcon
    have hain := List.mem_map_of_mem (f := h.standIn) ha
    obtain ⟨d, hd, hdfirst⟩ := hother fun c hc hcfirst =>
      hafirst (hclients.2.2 _ (List.mem_filter.mpr ⟨mem_pushed.mpr hain, by simpa using hafirst⟩) _
        ((hb.mem_firsts _).mpr ⟨List.mem_map_of_mem hc, hcfirst⟩) hcfirst)
    exact hafirst (hcross _ (hb.mem.mpr hain) d hd hdfirst)
  · rintro (hall | ⟨hno, hdesktop⟩)
    · have hfirst : ∀ x ∈ clients, h.isFirstInTabBox x := fun x hx => by
        obtain ⟨c, hc, rfl⟩ := List.mem_map.mp (hb.mem.mp hx)
        exact hall c hc
      exact ⟨List.pairwise_of_forall_mem_list fun a ha b _ _ => hfirst a ha, fun a ha d _ _ => hfirst a ha⟩
    · refine ⟨List.pairwise_of_forall_mem_list fun a _ x hx hfirst => ?_,
        fun a _ d hd hfirst => absurd hfirst (hdesktop d hd)⟩
      obtain ⟨c, hc, rfl⟩ := List.mem_map.mp (hb.mem.mp hx)
      exact absurd hfirst (hno c hc)

end body

private theorem Body.covers_iff {clients firsts : List Window}
    (hb : h.Body moved (h.entering desktop start) clients firsts) : h.Covers desktop clients ↔
      (h.applicationsMode = .allWindowsAllApplications → ∀ c ∈ h.offered, h.passes desktop c →
        h.standIn c ∈ (h.entering desktop start).map h.standIn) := by
  refine forall_congr' fun _ => forall₂_congr fun c hoffered => imp_congr_right fun _ => ?_
  rw [hb.mem]
  refine and_iff_left fun hc hdialog => ?_
  obtain ⟨a, ha, hstands⟩ := List.mem_map.mp (hb.mem.mp hc)
  have hturn : a ∈ h.turns start := (entrants_sublist (h.turns start)).subset ha
  refine ⟨a, offered_of_turns hoffered hturn, passes_of_mem ha, ?_⟩
  rw [standIn] at hstands
  cases ha : h.dialog a with
  | none =>
    rw [ha] at hstands
    cases hstands
    exact absurd ha hdialog
  | some d => rw [← hstands, ha]; rfl

/-- Along the chain the order is always right. -/
private theorem Body.ordered_of_chain {clients firsts : List Window}
    (hb : h.Body (h.moved start) (h.entering desktop start) clients firsts) (hmode : h.switchingMode = .focusChain) :
    h.Ordered start clients := by
  have hmoved : h.moved start = none := by rw [moved, hmode]
  obtain ⟨windows, hsub, hmap⟩ := exists_sublist_pushed (h := h) (h.entering desktop start)
  unfold Ordered
  rw [hmode]
  refine ⟨windows.filter fun c => !h.isFirstInTabBox (h.standIn c),
    List.filter_sublist.trans (hsub.trans (entrants_sublist _)), ?_⟩
  rw [hb.filter_eq, hmoved, ← hmap, List.filter_map]
  rfl

private theorem Body.ordered_of_firsts {clients firsts : List Window}
    (hb : h.Body (h.moved start) (h.entering desktop start) clients firsts)
    (hall : ∀ c ∈ h.entering desktop start, h.isFirstInTabBox (h.standIn c)) : h.Ordered start clients := by
  cases hmode : h.switchingMode with
  | focusChain => exact hb.ordered_of_chain hmode
  | stackingOrder =>
    unfold Ordered
    rw [hmode]
    intro s _ b hmem hfirst
    obtain ⟨c, hc, rfl⟩ := List.mem_map.mp (hb.mem.mp hmem)
    exact absurd (hall c hc) hfirst

private theorem Body.ordered_iff {clients firsts : List Window}
    (hb : h.Body (h.moved start) (h.entering desktop start) clients firsts)
    (hno : ∀ c ∈ h.entering desktop start, ¬ h.isFirstInTabBox (h.standIn c)) :
    h.Ordered start clients ↔ h.StartFirst (h.moved start) (h.entering desktop start) := by
  cases hmode : h.switchingMode with
  | focusChain =>
    have hmoved : h.moved start = none := by rw [moved, hmode]
    rw [hmoved]
    exact iff_of_true (hb.ordered_of_chain hmode) fun _ _ _ _ he => by cases he
  | stackingOrder =>
    have hmoved : h.moved start = start := by rw [moved, hmode]
    have hfirst : ∀ b ∈ clients, ¬ h.isFirstInTabBox b := fun b hmem => by
      obtain ⟨c, hc, rfl⟩ := List.mem_map.mp (hb.mem.mp hmem)
      exact hno c hc
    have heq := hb.eq_pushed hno
    unfold Ordered
    rw [hmode, hmoved]
    cases start with
    | none => exact iff_of_true (fun s he => by cases he) fun _ _ _ _ he => by cases he
    | some s =>
      rw [hmoved] at heq
      rw [← start_before_iff, ← heq]
      refine ⟨fun hall b hmem => hall s rfl b hmem (hfirst b hmem), fun hall s' he b hmem _ => ?_⟩
      cases he
      exact hall b hmem

private theorem exists_body (hchain : h.chain.mostRecentlyUsed.Nodup)
    (hstack : h.switchingMode = .stackingOrder → h.stackingOrder ≠ []) (partialReset : Bool)
    (previous : List (Option Window)) :
    let start := h.start partialReset previous
    let entered := h.entering desktop start
    ∃ clients firsts, h.Body (h.moved start) entered clients firsts ∧ ∀ᶠ fuel in Filter.atTop,
      h.createClientList desktop fuel partialReset previous = some (clients ++ h.desktopEntry entered.isEmpty) := by
  intro start entered
  obtain ⟨hlist, hsticky⟩ := @stackRounds_spec h desktop (h.moved start) (h.turns start)
  set l := (h.turns start).foldl (h.stackRound desktop (h.moved start)) ⟨[], []⟩ with hl
  obtain ⟨firsts, heq, hnodup, hmem⟩ := moveSticky_eq l
  have hfirsts : ∀ x, x ∈ firsts ↔ x ∈ entered.map h.standIn ∧ h.isFirstInTabBox x :=
    fun x => (hmem x).trans (hsticky x)
  have hbody : h.Body (h.moved start) entered (moveSticky l) firsts := by
    refine ⟨?_, hnodup, hfirsts⟩
    rw [heq, hlist]
    congr 1
    refine List.filter_congr fun x hx => ?_
    rw [Bool.eq_iff_iff, decide_eq_true_iff, hsticky, and_iff_right (mem_pushed.mp hx), Bool.not_eq_true,
      Bool.not_eq_true']
  refine ⟨moveSticky l, firsts, hbody, ?_⟩
  have hadd : ∀ᶠ fuel in Filter.atTop, h.addClients desktop fuel start = some l := addClients_spec hchain hstack
  filter_upwards [hadd] with fuel hfuel
  rw [createClientList, hfuel]
  exact congrArg (fun b => some (moveSticky l ++ h.desktopEntry b)) hbody.isEmpty

private theorem length_desktopEntry (isEmpty : Bool) : (h.desktopEntry isEmpty).length ≤ 1 := by
  unfold desktopEntry
  split
  · cases h.desktopClient <;> simp
  · exact Nat.zero_le _

private theorem nodup_append_entry {clients entry : List Window} (hentry : entry.length ≤ 1) :
    (clients ++ entry).Nodup ↔ clients.Nodup ∧ ∀ d ∈ entry, d ∉ clients := by
  match entry, hentry with
  | [], _ => simp
  | [d], _ => rw [← List.concat_eq_append, List.nodup_concat, and_comm]; simp

/-- The list of a loop that ends is right exactly in a fitting situation. -/
private theorem Body.list_right_iff {clients firsts : List Window}
    (hb : h.Body (h.moved start) (h.entering desktop start) clients firsts)
    (hstack : h.switchingMode = .stackingOrder → h.stackingOrder ≠ []) :
    h.Right desktop start (clients ++ h.desktopEntry (h.entering desktop start).isEmpty) ↔ h.Fitting desktop start := by
  have hlen := length_desktopEntry (h := h) (h.entering desktop start).isEmpty
  constructor
  · rintro ⟨clients', he, hnodup, hpair, hcovers, hordered⟩
    cases List.append_cancel_right he
    rw [nodup_append_entry hlen] at hnodup
    refine ⟨hstack, hb.covers_iff.mp hcovers, fun d hd hmem => hnodup.2 d hd (hb.mem.mpr hmem), ?_⟩
    refine ((hb.pairwise_iff hlen).mp hpair).imp_right fun ⟨hno, hentry⟩ =>
      ⟨hno, hentry, ?_, (hb.ordered_iff hno).mp hordered⟩
    exact nodup_pushed.mp (hb.eq_pushed hno ▸ hnodup.1)
  · rintro ⟨-, hcomplete, hentry, hfirsts⟩
    refine ⟨clients, rfl, (nodup_append_entry hlen).mpr ⟨?_, fun d hd hmem => hentry d hd (hb.mem.mp hmem)⟩,
      (hb.pairwise_iff hlen).mpr (hfirsts.imp_right fun h => ⟨h.1, h.2.1⟩), hb.covers_iff.mpr hcomplete, ?_⟩
    · rcases hfirsts with hall | ⟨hno, -, htwice, -⟩
      · exact hb.eq_firsts hall ▸ hb.nodup
      · exact hb.eq_pushed hno ▸ nodup_pushed.mpr htwice
    · rcases hfirsts with hall | ⟨hno, -, -, hstart⟩
      · exact hb.ordered_of_firsts hall
      · exact (hb.ordered_iff hno).mpr hstart

end rounds

/-- The switcher gets the list that it should exactly in a fitting situation. -/
theorem createClientList_right_iff (hchain : h.chain.mostRecentlyUsed.Nodup) (partialReset : Bool)
    (previous : List (Option Window)) :
    (∃ clientList, (∀ᶠ fuel in Filter.atTop, h.createClientList desktop fuel partialReset previous = some clientList) ∧
      h.Right desktop (h.start partialReset previous) clientList) ↔
    h.Fitting desktop (h.start partialReset previous) := by
  by_cases hstack : h.switchingMode = .stackingOrder → h.stackingOrder ≠ []
  · obtain ⟨clients, firsts, hb, hends⟩ := @exists_body h desktop hchain hstack partialReset previous
    rw [← hb.list_right_iff hstack]
    refine ⟨fun ⟨clientList, hends', hright⟩ => ?_, fun hright => ⟨_, hends, hright⟩⟩
    obtain ⟨fuel, hfuel, hfuel'⟩ := (hends.and hends').exists
    exact Option.some.inj (hfuel.symm.trans hfuel') ▸ hright
  · refine iff_of_false (fun ⟨clientList, hends, _⟩ => ?_) fun hfit => hstack hfit.stack
    obtain ⟨fuel, hfuel⟩ := hends.exists
    push Not at hstack
    rw [createClientList, addClients, hstack.1, hstack.2] at hfuel
    cases hfuel

/-- All windows are offered, those of the chain and the stack being 1 and 2, of which 2 is active. -/
private def pair (mode : ClientSwitchingMode) : Handler where
  chain := ⟨[1, 2], fun _ => none, none, 0⟩
  stackingOrder := [1, 2]
  activeClient := some 2
  desktopClient := none
  switchingMode := mode
  applicationsMode := .allWindowsAllApplications
  desktopMode := .all
  activitiesMode := .all
  minimizedMode := .all
  multiScreenMode := .all
  showDesktopClient := false
  clientTabBox := true
  isOnDesktop _ _ := true
  isOnCurrentActivity _ := true
  isMinimized _ := false
  isOnCurrentScreen _ := true
  wantsTabFocus _ := true
  skipSwitcher _ := false
  belongToSameClient _ _ := false
  findModal _ := none
  hasControl _ := true
  isFirstInTabBox _ := false

theorem pair_chain_right : ∃ clientList,
    (∀ᶠ fuel in Filter.atTop, (pair .focusChain).createClientList 1 fuel false [] = some clientList) ∧
      (pair .focusChain).Right 1 (some 2) clientList :=
  ((pair .focusChain).createClientList_right_iff 1 (by decide) false []).mpr
    ⟨by decide, by decide, by decide,
      .inr ⟨by decide, by decide, by unfold NoneTwice; decide, fun _ _ _ _ he => by cases he⟩⟩

theorem pair_stack_not_right : (pair .stackingOrder).chain.mostRecentlyUsed.Nodup ∧
    ∀ clientList, (∀ᶠ fuel in Filter.atTop,
      (pair .stackingOrder).createClientList 1 fuel false [] = some clientList) →
      ¬ (pair .stackingOrder).Right 1 ((pair .stackingOrder).start false []) clientList := by
  refine ⟨by decide, fun clientList hends ⟨clients, he, _, _, _, hordered⟩ => ?_⟩
  obtain ⟨fuel, hfuel⟩ := hends.exists
  have hlist : [1, 2] = clientList := Option.some.inj hfuel
  have hclients : clients = [1, 2] := by
    rw [← hlist] at he
    exact (he.trans (List.append_nil clients)).symm
  subst hclients
  exact hordered 2 rfl 1 (by decide) (by decide) (by decide) (by decide)

end KWinFT.TabBox.Handler
