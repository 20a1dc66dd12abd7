import KWinFT.Lib.FirstFit
import KWinFT.Session.Store
import Mathlib.Data.List.Count
import Mathlib.Data.List.Perm.Subperm

/-! Which window gets which entry of a saved session. -/
namespace KWinFT.Session

def savedClients (clients : List Client) : List Client := clients.filter Client.isSaved

/-- The entry of a window under its number. -/
def Client.info (c : Client) (activeClient : Int) (number : Nat) : SessionInfo :=
  ⟨number, c.identification, some c.windowType, c.savedState, activeClient = number⟩

/-- The number of the last active window that is saved, or none. -/
def activeNumber (clients : List Client) : Int :=
  (clients.foldl (SessionStore.Loop.visit .phase0) { entries := fun _ => none }).activeClient

/-! Storing and loading. -/

section loop
open SessionStore

private theorem visit_of_not_saved {phase : SMSavePhase} {l : Loop} {c : Client} (h : ¬ c.isSaved) :
    l.visit phase c = l := by
  unfold Loop.visit
  rw [if_pos (by simpa using h)]

private theorem foldl_visit_savedClients (phase : SMSavePhase) (clients : List Client) (l : Loop) :
    clients.foldl (Loop.visit phase) l = (savedClients clients).foldl (Loop.visit phase) l := by
  induction clients generalizing l with
  | nil => rfl
  | cons c clients ih =>
    by_cases hc : c.isSaved
    · rw [savedClients, List.filter_cons_of_pos hc, List.foldl_cons, List.foldl_cons]
      exact ih _
    · rw [savedClients, List.filter_cons_of_neg hc, List.foldl_cons, visit_of_not_saved hc]
      exact ih _

private theorem foldl_visit_count (phase : SMSavePhase) (cs : List Client) (hcs : ∀ c ∈ cs, c.isSaved) (l : Loop) :
    (cs.foldl (Loop.visit phase) l).count = l.count + cs.length := by
  induction cs generalizing l with
  | nil => rfl
  | cons c cs ih =>
    obtain ⟨hc, hcs⟩ := List.forall_mem_cons.mp hcs
    have hcount : (l.visit phase c).count = l.count + 1 := by simp [Loop.visit, hc]
    rw [List.foldl_cons, ih hcs, hcount, List.length_cons]
    omega

/-- What the loop leaves of its entries: those of the saved windows under the following numbers. -/
private theorem foldl_visit_entries {phase : SMSavePhase} (hphase : phase ≠ .phase0) (cs : List Client)
    (hcs : ∀ c ∈ cs, c.isSaved) (l : Loop) :
    (∀ n ≤ l.count, (cs.foldl (Loop.visit phase) l).entries n = l.entries n) ∧
    ∀ i (hi : i < cs.length), (cs.foldl (Loop.visit phase) l).entries (l.count + i + 1) =
      some ⟨cs[i].identification, cs[i].windowType.windowTypeToTxt.getD "", cs[i].savedState⟩ := by
  induction cs generalizing l with
  | nil => exact ⟨fun _ _ => rfl, fun i hi => absurd hi (Nat.not_lt_zero i)⟩
  | cons c cs ih =>
    obtain ⟨hc, hcs⟩ := List.forall_mem_cons.mp hcs
    have hcount : (l.visit phase c).count = l.count + 1 := by simp [Loop.visit, hc]
    have hentries : (l.visit phase c).entries = storeClient l.entries (l.count + 1) c := by
      simp [Loop.visit, hc, hphase]
    obtain ⟨hold, hnew⟩ := ih hcs (l.visit phase c)
    rw [hcount] at hold hnew
    refine ⟨fun n hn => ?_, fun i hi => ?_⟩
    · rw [List.foldl_cons, hold n (by omega), hentries, storeClient, if_neg (by omega)]
    · rw [List.foldl_cons]
      cases i with
      | zero =>
        rw [hold _ (by omega), hentries, storeClient, if_pos rfl]
        rfl
      | succ i =>
        have := hnew i (by simpa using hi)
        rw [show l.count + (i + 1) + 1 = l.count + 1 + i + 1 by omega, this]
        rfl

/-- The numbers do not depend on what is written. -/
private theorem foldl_visit_active (phase phase' : SMSavePhase) (cs : List Client) {l l' : Loop}
    (hcount : l.count = l'.count) (hactive : l.activeClient = l'.activeClient) :
    (cs.foldl (Loop.visit phase) l).activeClient = (cs.foldl (Loop.visit phase') l').activeClient := by
  induction cs generalizing l l' with
  | nil => exact hactive
  | cons c cs ih =>
    refine ih ?_ ?_
    · simp only [Loop.visit]
      split
      · exact hcount
      · rw [hcount]
    · simp only [Loop.visit]
      split
      · exact hactive
      · rw [hcount, hactive]

end loop

private theorem txtToWindowType_toTxt {type : WindowType} (h : type ∈ WindowType.upToSplash) :
    WindowType.txtToWindowType (type.windowTypeToTxt.getD "") = some type := by
  revert type
  decide

private theorem Client.isSaved_type {c : Client} (h : c.isSaved) : c.windowType ∈ WindowType.upToSplash := by
  simp only [Client.isSaved, Bool.and_eq_true, decide_eq_true_eq] at h
  exact h.1.2

/-- The loaded session has the entries of the windows that were saved last, with the active number of phase 0. -/
theorem loadSessionInfo_stored (s : SessionStore) (clients₀ clients₂ : List Client) (current₀ current₂ : Int) :
    ((s.storeSession .phase0 clients₀ current₀).storeSession .phase2 clients₂ current₂).loadSessionInfo =
      (savedClients clients₂).mapIdx fun i c => c.info (activeNumber clients₀) (i + 1) := by
  have hactive : (s.storeSession .phase0 clients₀ current₀).sessionActiveClient = activeNumber clients₀ :=
    foldl_visit_active _ _ _ rfl rfl
  generalize s.storeSession .phase0 clients₀ current₀ = s₀ at hactive
  have hall : ∀ c ∈ savedClients clients₂, c.isSaved := fun c hc => (List.mem_filter.mp hc).2
  have hcount := foldl_visit_count .phase2 (savedClients clients₂) hall { entries := s₀.entries }
  obtain ⟨-, hentries⟩ := foldl_visit_entries (by decide : SMSavePhase.phase2 ≠ .phase0)
    (savedClients clients₂) hall { entries := s₀.entries }
  rw [← foldl_visit_savedClients] at hcount hentries
  simp only [Nat.zero_add] at hcount hentries
  have hlen : ((s₀.storeSession .phase2 clients₂ current₂).count.getD 0).toNat = (savedClients clients₂).length := by
    simp only [SessionStore.storeSession, Option.getD_some, hcount, Int.toNat_natCast]
  refine List.ext_getElem ?_ fun i h₁ h₂ => ?_
  · rw [SessionStore.loadSessionInfo, hlen, List.length_map, List.length_range', List.length_mapIdx]
  · rw [List.length_mapIdx] at h₂
    simp only [SessionStore.loadSessionInfo, List.getElem_map, List.getElem_range', Nat.one_mul, List.getElem_mapIdx]
    have hsaved : (savedClients clients₂)[i].isSaved := (List.mem_filter.mp (List.getElem_mem h₂)).2
    have hentry : (s₀.storeSession .phase2 clients₂ current₂).entries (1 + i) =
        some ⟨(savedClients clients₂)[i].identification, (savedClients clients₂)[i].windowType.windowTypeToTxt.getD "",
          (savedClients clients₂)[i].savedState⟩ := by
      rw [Nat.add_comm]
      exact hentries i h₂
    have hmark : (s₀.storeSession .phase2 clients₂ current₂).active = some (activeNumber clients₀) := by
      rw [← hactive]
      rfl
    rw [SessionStore.readInfo, hentry, hmark, Client.info, Nat.add_comm 1 i]
    simp only [Option.getD_some, txtToWindowType_toTxt (Client.isSaved_type hsaved), (savedClients clients₂)[i].lower]

/-! Matching. -/

/-- A window takes the entry of a window, where it is first. -/
def Client.takes (c d : Client) : Bool := infoMatches c (d.info 0 0)

section takes
variable {c d e : Client}

/-- The features by which windows without a session id are matched. -/
private def features (c : Client) : Text × Text × WindowType × Text :=
  (c.identification.resourceName, c.identification.resourceClass, c.windowType, c.identification.wmCommand)

private theorem typeMatch_info : sessionInfoWindowTypeMatch c (d.info 0 0) ↔ d.windowType = c.windowType :=
  decide_eq_true_iff

private theorem infoMatches_of_sessionId {info : SessionInfo} (hc : c.identification.sessionId ≠ []) :
    infoMatches c info ↔ info.identification.sessionId = c.identification.sessionId ∧ sessionInfoWindowTypeMatch c info ∧
    info.identification.windowRole = c.identification.windowRole ∧ (c.identification.windowRole = [] →
      info.identification.resourceName = c.identification.resourceName ∧
      info.identification.resourceClass = c.identification.resourceClass) := by
  have hid : (!c.identification.sessionId.isEmpty) = true := by simpa using hc
  rw [infoMatches, if_pos hid]
  by_cases hrole : c.identification.windowRole = []
  · rw [if_neg (by simp [hrole])]
    simp only [Bool.and_eq_true, decide_eq_true_eq, List.isEmpty_iff, hrole]
    tauto
  · rw [if_pos (by simpa using hrole)]
    simp only [Bool.and_eq_true, decide_eq_true_eq]
    tauto

private theorem takes_of_sessionId (hc : c.identification.sessionId ≠ []) : c.takes d ↔
    d.identification.sessionId = c.identification.sessionId ∧ d.windowType = c.windowType ∧
    d.identification.windowRole = c.identification.windowRole ∧ (c.identification.windowRole = [] →
      d.identification.resourceName = c.identification.resourceName ∧
      d.identification.resourceClass = c.identification.resourceClass) := by
  rw [Client.takes, infoMatches_of_sessionId hc, typeMatch_info]
  rfl

private theorem infoMatches_of_no_sessionId {info : SessionInfo} (hc : c.identification.sessionId = [])
    (hcommand : c.identification.wmCommand ≠ []) :
    infoMatches c info ↔ info.identification.resourceName = c.identification.resourceName ∧
      info.identification.resourceClass = c.identification.resourceClass ∧ sessionInfoWindowTypeMatch c info ∧
      info.identification.wmCommand = c.identification.wmCommand := by
  rw [infoMatches, if_neg (by simp [hc])]
  simp only [Bool.and_eq_true, Bool.or_eq_true, decide_eq_true_eq, List.isEmpty_iff, hcommand, false_or]
  tauto

private theorem takes_of_no_sessionId (hc : c.identification.sessionId = []) (hsaved : c.isSaved) :
    c.takes d ↔ features d = features c := by
  have hcommand : c.identification.wmCommand ≠ [] := by
    intro h
    simp [Client.isSaved, hc, h] at hsaved
  rw [Client.takes, infoMatches_of_no_sessionId hc hcommand, typeMatch_info]
  simp only [features, Prod.mk.injEq]
  rfl

private theorem takes_self (hsaved : c.isSaved) : c.takes c := by
  by_cases hc : c.identification.sessionId = []
  · exact (takes_of_no_sessionId hc hsaved).mpr rfl
  · exact (takes_of_sessionId hc).mpr ⟨rfl, rfl, rfl, fun _ => ⟨rfl, rfl⟩⟩

/-- Windows with a session id match each other. -/
private theorem takes_symm_of_sessionId (hc : c.identification.sessionId ≠ []) (h : c.takes d) : d.takes c := by
  obtain ⟨hid, htype, hrole, hrest⟩ := (takes_of_sessionId hc).mp h
  refine (takes_of_sessionId (by rw [hid]; exact hc)).mpr ⟨hid.symm, htype.symm, hrole.symm, fun hr => ?_⟩
  obtain ⟨hname, hclass⟩ := hrest (hrole ▸ hr)
  exact ⟨hname.symm, hclass.symm⟩

/-- So do those without one. -/
private theorem takes_symm_of_no_sessionId (hc : c.identification.sessionId = []) (hd : d.identification.sessionId = [])
    (hsc : c.isSaved) (hsd : d.isSaved) (h : c.takes d) : d.takes c :=
  (takes_of_no_sessionId hd hsd).mpr ((takes_of_no_sessionId hc hsc).mp h).symm

/-- Entries without a session id are for windows without one. -/
private theorem sessionId_of_takes (hd : d.identification.sessionId = []) (h : c.takes d) :
    c.identification.sessionId = [] := by
  by_contra hc
  obtain ⟨hid, -⟩ := (takes_of_sessionId hc).mp h
  exact hc (hid ▸ hd)

/-- A window without a session id that has the features of another one. -/
private def sameFeatures (c d : Client) : Bool := d.identification.sessionId = [] ∧ features d = features c

end takes

/-- No later window takes the entry of this one, and it takes no earlier one. -/
def Alone (pre : List Client) (k : Client) (post : List Client) : Prop :=
  (∀ d ∈ pre, ¬ k.takes d) ∧ ∀ d ∈ post, ¬ d.takes k

instance (pre : List Client) (k : Client) (post : List Client) : Decidable (Alone pre k post) :=
  inferInstanceAs (Decidable (_ ∧ _))

section order
variable {pre post : List Client} {k : Client}

/-- While the window is still to come, its entry is there, and for the windows to come that have no session id there are
enough entries with their features. -/
private structure Waiting (pre : List Client) (k : Client) (post rest order : List Client) : Prop where
  own : ∃ before after, rest = before ++ k :: after ∧ before.Sublist pre ∧ after.Sublist post
  comers : ∀ c ∈ order, c ∈ pre ++ k :: post
  enough : ∀ c, order.countP (sameFeatures c) ≤ rest.countP (sameFeatures c)

/-- A window that comes before takes an entry before, if it fits that of the waiting one. -/
private theorem Waiting.fits_before (halone : Alone pre k post) (hsaved : ∀ c ∈ pre ++ k :: post, c.isSaved)
    {before after order : List Client} {c : Client} (h : Waiting pre k post (before ++ k :: after) (c :: order))
    (hafter : after.Sublist post) (hne : c ≠ k) (htakes : c.takes k) : ∃ d ∈ before, c.takes d := by
  have hc := h.comers c List.mem_cons_self
  have hk : k ∈ pre ++ k :: post := List.mem_append_right _ List.mem_cons_self
  have hpre : c ∈ pre := by
    rcases List.mem_append.mp hc with hc | hc
    · exact hc
    · rcases List.mem_cons.mp hc with hc | hc
      · exact absurd hc hne
      · exact absurd htakes (halone.2 c hc)
  have hc₀ : c.identification.sessionId = [] := by
    by_contra hid
    exact halone.1 c hpre (takes_symm_of_sessionId hid htakes)
  have hk₀ : k.identification.sessionId ≠ [] := fun hid =>
    halone.1 c hpre (takes_symm_of_no_sessionId hc₀ hid (hsaved c hc) (hsaved k hk) htakes)
  -- There is an entry left for each window with these features, and all of those entries are before.
  have hpos : 0 < (before ++ k :: after).countP (sameFeatures c) := by
    refine lt_of_lt_of_le ?_ (h.enough c)
    refine List.countP_pos_iff.mpr ⟨c, List.mem_cons_self, ?_⟩
    simp [sameFeatures, hc₀]
  obtain ⟨d, hd, hfeatures⟩ := List.countP_pos_iff.mp hpos
  obtain ⟨hd₀, hfeatures⟩ := of_decide_eq_true hfeatures
  have hdk : features k = features d := by
    rw [hfeatures]
    exact (takes_of_no_sessionId hc₀ (hsaved c hc)).mp htakes
  refine ⟨d, ?_, (takes_of_no_sessionId hc₀ (hsaved c hc)).mpr hfeatures⟩
  rcases List.mem_append.mp hd with hd | hd
  · exact hd
  · rcases List.mem_cons.mp hd with rfl | hd
    · exact absurd hd₀ hk₀
    · have hpost := hafter.subset hd
      have hds := hsaved d (List.mem_append_right _ (List.mem_cons_of_mem _ hpost))
      exact absurd ((takes_of_no_sessionId hd₀ hds).mpr hdk) (halone.2 d hpost)

/-- Entries of windows without a session id go to windows with their features. -/
private theorem countP_eraseP (hsaved : ∀ c ∈ pre ++ k :: post, c.isSaved) {rest order : List Client} {c : Client}
    (h : Waiting pre k post rest (c :: order)) (e : Client) :
    order.countP (sameFeatures e) ≤ (rest.eraseP c.takes).countP (sameFeatures e) := by
  have henough := h.enough e
  rw [List.countP_cons] at henough
  rcases List.exists_or_eq_self_of_eraseP c.takes rest with heq | ⟨d, l₁, l₂, -, htakes, hrest, herase⟩
  · rw [heq]
    omega
  · rw [herase]
    rw [hrest, List.countP_append, List.countP_cons] at henough
    rw [List.countP_append]
    by_cases hd : sameFeatures e d
    · obtain ⟨hd₀, hfeatures⟩ := of_decide_eq_true hd
      have hc₀ := sessionId_of_takes hd₀ htakes
      have hc : sameFeatures e c := by
        refine decide_eq_true ⟨hc₀, ?_⟩
        rw [← hfeatures]
        exact ((takes_of_no_sessionId hc₀ (hsaved c (h.comers c List.mem_cons_self))).mp htakes).symm
      rw [if_pos hc, if_pos hd] at henough
      omega
    · rw [if_neg hd] at henough
      omega

private theorem Waiting.step (halone : Alone pre k post) (hsaved : ∀ c ∈ pre ++ k :: post, c.isSaved)
    {rest order : List Client} {c : Client} (h : Waiting pre k post rest (c :: order)) (hne : c ≠ k) :
    Waiting pre k post (rest.eraseP c.takes) order := by
  refine ⟨?_, fun d hd => h.comers d (List.mem_cons_of_mem _ hd), countP_eraseP hsaved h⟩
  obtain ⟨before, after, rfl, hbefore, hafter⟩ := h.own
  by_cases hany : ∃ d ∈ before, c.takes d
  · obtain ⟨d, hd, htakes⟩ := hany
    rw [List.eraseP_append_left htakes _ hd]
    exact ⟨_, _, rfl, List.eraseP_sublist.trans hbefore, hafter⟩
  · have hnot : ¬ c.takes k := fun htakes => hany (h.fits_before halone hsaved hafter hne htakes)
    rw [List.eraseP_append_right _ fun d hd htakes => hany ⟨d, hd, htakes⟩, List.eraseP_cons_of_neg hnot]
    exact ⟨_, _, rfl, hbefore, List.eraseP_sublist.trans hafter⟩

private theorem Waiting.run (halone : Alone pre k post) (hsaved : ∀ c ∈ pre ++ k :: post, c.isSaved)
    {rest order : List Client} (h : Waiting pre k post rest order) (hk : k ∈ order) :
    (k, some k) ∈ order.zip (Lib.firstFit Client.takes rest order) := by
  induction order generalizing rest with
  | nil => cases hk
  | cons c order ih =>
    rw [Lib.firstFit_cons, List.zip_cons_cons]
    by_cases hne : c = k
    · subst hne
      obtain ⟨before, after, rfl, hbefore, -⟩ := h.own
      have hself := takes_self (hsaved c (h.comers c List.mem_cons_self))
      rw [List.find?_append, List.find?_eq_none.mpr fun d hd => halone.1 d (hbefore.subset hd), Option.none_or,
        List.find?_cons_of_pos hself]
      exact List.mem_cons_self
    · refine List.mem_cons_of_mem _ (ih (h.step halone hsaved hne) ?_)
      exact (List.mem_cons.mp hk).resolve_left (Ne.symm hne)

/-- A window gets its own entry in every order exactly if it is alone. -/
private theorem own_iff_alone (hsaved : ∀ c ∈ pre ++ k :: post, c.isSaved) (hnd : (pre ++ k :: post).Nodup) :
    (∀ order : List Client, order.Nodup → order ⊆ pre ++ k :: post → k ∈ order →
      (k, some k) ∈ order.zip (Lib.firstFit Client.takes (pre ++ k :: post) order)) ↔ Alone pre k post := by
  have hk := (List.nodup_middle.mp hnd).notMem
  have hpre : k ∉ pre := fun h => hk (List.mem_append_left _ h)
  have hpost : k ∉ post := fun h => hk (List.mem_append_right _ h)
  constructor
  · intro h
    refine ⟨fun d hd htakes => ?_, fun d hd htakes => ?_⟩
    · -- The window comes first.
      have hown := h [k] (List.nodup_singleton k) (by simp) List.mem_cons_self
      rw [Lib.firstFit_cons, Lib.firstFit_nil, List.zip_cons_cons, List.zip_nil_right, List.mem_singleton] at hown
      have hfind := (Prod.mk.inj hown).2
      cases hx : pre.find? k.takes with
      | none => exact absurd htakes (List.find?_eq_none.mp hx d hd)
      | some x =>
        rw [List.find?_append, hx] at hfind
        cases hfind
        exact hpre (List.mem_of_find?_eq_some hx)
    · -- The windows before it come first, and then the one that takes its entry.
      have hdk : d ≠ k := fun he => hpost (he ▸ hd)
      have hdpre : d ∉ pre := fun hin => (List.nodup_append.mp hnd).2.2 d hin d (List.mem_cons_of_mem _ hd) rfl
      have hown := h (pre ++ [d, k]) ?_ ?_ (by simp)
      · rw [Lib.firstFit_own (fun a ha => takes_self (hsaved a (List.mem_append_left _ ha))),
          List.zip_append (by simp), Lib.firstFit_cons, List.find?_cons_of_pos htakes, List.eraseP_cons_of_pos htakes,
          Lib.firstFit_cons, Lib.firstFit_nil] at hown
        rcases List.mem_append.mp hown with hown | hown
        · exact hpre (List.of_mem_zip hown).1
        · simp only [List.zip_cons_cons, List.zip_nil_right, List.mem_cons, Prod.mk.injEq, List.not_mem_nil,
            or_false] at hown
          rcases hown with ⟨he, -⟩ | ⟨-, hfind⟩
          · exact hdk he.symm
          · exact hpost (List.mem_of_find?_eq_some hfind.symm)
      · refine List.nodup_append.mpr ⟨(List.nodup_append.mp hnd).1, by simp [hdk], ?_⟩
        rintro a ha b hb rfl
        rcases List.mem_cons.mp hb with rfl | hb
        · exact hdpre ha
        · exact hpre (List.mem_singleton.mp hb ▸ ha)
      · intro a ha
        simp only [List.mem_append, List.mem_cons, List.not_mem_nil, or_false] at ha ⊢
        rcases ha with ha | rfl | rfl
        · exact .inl ha
        · exact .inr (.inr hd)
        · exact .inr (.inl rfl)
  · intro halone order hord hsub hin
    refine Waiting.run halone hsaved ⟨⟨pre, post, rfl, List.Sublist.refl _, List.Sublist.refl _⟩, hsub, fun c => ?_⟩ hin
    exact (hord.subperm hsub).countP_le _

end order

/-! The whole session. -/

private theorem takeAll_eq_firstFit (session : List SessionInfo) (cs : List Client) :
    takeAll session cs = Lib.firstFit infoMatches session cs := by
  induction cs generalizing session with
  | nil => rfl
  | cons c cs ih =>
    rw [takeAll, Lib.firstFit_cons, ih]
    rfl

section active
open SessionStore
variable {phase : SMSavePhase}

private theorem foldl_visit_inactive (cs : List Client) (hcs : ∀ c ∈ cs, ¬ c.active) (l : Loop) :
    (cs.foldl (Loop.visit phase) l).activeClient = l.activeClient := by
  induction cs generalizing l with
  | nil => rfl
  | cons c cs ih =>
    obtain ⟨hc, hcs⟩ := List.forall_mem_cons.mp hcs
    rw [List.foldl_cons, ih hcs]
    by_cases hs : c.isSaved <;> simp [Loop.visit, hs, hc]

private theorem activeNumber_none {clients : List Client} (h : ∀ c ∈ savedClients clients, ¬ c.active) :
    activeNumber clients = -1 := by
  rw [activeNumber, foldl_visit_savedClients, foldl_visit_inactive _ h]

private theorem activeNumber_eq {clients pre post : List Client} {k : Client}
    (hsaved : savedClients clients = pre ++ k :: post) (hk : k.active) (hpost : ∀ c ∈ post, ¬ c.active) :
    activeNumber clients = pre.length + 1 := by
  have hall : ∀ c ∈ pre ++ k :: post, c.isSaved := fun c hc => (List.mem_filter.mp (hsaved ▸ hc)).2
  have hks := hall k (List.mem_append_right _ List.mem_cons_self)
  rw [activeNumber, foldl_visit_savedClients, hsaved, List.foldl_append, List.foldl_cons,
    foldl_visit_inactive _ hpost]
  have hcount := foldl_visit_count .phase0 pre (fun c hc => hall c (List.mem_append_left _ hc))
    { entries := fun _ => none }
  simp only [Nat.zero_add] at hcount
  simp [Loop.visit, hks, hk, hcount]

end active

/-- For windows that are seen as they were saved, the loaded session is as good as their list. -/
private theorem takeAll_loaded {saved : List Client} (hnd : saved.Nodup) (activeClient : Int) {again : Client → Client}
    (hagain : ∀ c, (again c).identification = c.identification ∧ (again c).windowType = c.windowType)
    (order : List Client) :
    takeAll (saved.mapIdx fun i c => c.info activeClient (i + 1)) (order.map again) =
      (Lib.firstFit Client.takes saved order).map (Option.map fun d => d.info activeClient (saved.idxOf d + 1)) := by
  have hmap : (saved.mapIdx fun i c => c.info activeClient (i + 1)) =
      saved.map fun d => d.info activeClient (saved.idxOf d + 1) := by
    refine List.ext_getElem (by simp) fun i h₁ h₂ => ?_
    rw [List.getElem_mapIdx, List.getElem_map, hnd.idxOf_getElem]
  rw [hmap, takeAll_eq_firstFit, Lib.firstFit_map_left, Lib.firstFit_map_right]
  have hfits : (fun c d => infoMatches (again c) (d.info activeClient (saved.idxOf d + 1))) = Client.takes := by
    funext c d
    obtain ⟨hid, htype⟩ := hagain c
    simp only [infoMatches, sessionInfoWindowTypeMatch, hid, htype]
    rfl
  rw [hfits]

/-- The number of a window is that of its entry. -/
private theorem own_info_iff {saved pre post : List Client} {k : Client} (hnd : saved.Nodup)
    (hsaved : saved = pre ++ k :: post) (activeClient : Int) (order : List Client) :
    (k, some (k.info activeClient (pre.length + 1))) ∈ order.zip ((Lib.firstFit Client.takes saved order).map
      (Option.map fun d => d.info activeClient (saved.idxOf d + 1))) ↔
    (k, some k) ∈ order.zip (Lib.firstFit Client.takes saved order) := by
  have hpre : k ∉ pre := fun h => (List.nodup_middle.mp (hsaved ▸ hnd)).notMem (List.mem_append_left _ h)
  have hidx : saved.idxOf k = pre.length := by
    rw [hsaved, List.idxOf_append_of_notMem hpre, List.idxOf_cons_self, Nat.add_zero]
  rw [List.zip_map_right]
  constructor
  · intro h
    obtain ⟨⟨c, o⟩, hmem, heq⟩ := List.mem_map.mp h
    obtain ⟨hck, ho⟩ := Prod.mk.inj heq
    obtain rfl : c = k := hck
    obtain ⟨d, rfl, hd⟩ := Option.map_eq_some_iff.mp ho
    have hin : d ∈ saved := Lib.mem_of_some_mem_firstFit (List.of_mem_zip hmem).2
    have hnumber := congrArg SessionInfo.number hd
    simp only [Client.info] at hnumber
    have hdk : saved.idxOf d = saved.idxOf c := by omega
    have hcs : c ∈ saved := hsaved ▸ List.mem_append_right _ List.mem_cons_self
    rwa [(List.idxOf_inj hin).mp hdk] at hmem
  · intro h
    refine List.mem_map.mpr ⟨_, h, ?_⟩
    simp only [Prod.map, id, Option.map_some, hidx]

/-- The session after a round trip: it has the entries of the windows of phase 2, none of them is given to two windows,
and windows that reappear in any order get their own ones exactly if they are alone. An entry is marked active at most if
a window was active in phase 0, and it is that of this window if it has the same number in both phases. -/
theorem session_roundTrip (s : SessionStore) (clients₀ clients₂ : List Client) (current₀ current₂ : Int)
    (hnd : (clients₂.map Client.window).Nodup) {session : List SessionInfo}
    (hsession : session =
      ((s.storeSession .phase0 clients₀ current₀).storeSession .phase2 clients₂ current₂).loadSessionInfo) :
    session = (savedClients clients₂).mapIdx (fun i c => c.info (activeNumber clients₀) (i + 1)) ∧
    (∀ cs : List Client, (((takeAll session cs).filterMap id).map SessionInfo.number).Nodup) ∧
    (∀ again : Client → Client,
      (∀ c, (again c).identification = c.identification ∧ (again c).windowType = c.windowType) →
      ∀ pre k post, savedClients clients₂ = pre ++ k :: post →
      ((∀ order : List Client, order.Nodup → order ⊆ savedClients clients₂ → k ∈ order →
        (k, some (k.info (activeNumber clients₀) (pre.length + 1))) ∈ order.zip (takeAll session (order.map again))) ↔
        Alone pre k post)) ∧
    ((∀ c ∈ savedClients clients₀, ¬ c.active) → ∀ info ∈ session, ¬ info.active) ∧
    (∀ pre₀ k₀ post₀ pre k post, savedClients clients₀ = pre₀ ++ k₀ :: post₀ → k₀.active → (∀ c ∈ post₀, ¬ c.active) →
      savedClients clients₂ = pre ++ k :: post → k.window = k₀.window → pre.length = pre₀.length →
      ∀ info ∈ session, info.active ↔ info = k.info (activeNumber clients₀) (pre.length + 1)) := by
  have hloaded := hsession.trans (loadSessionInfo_stored s clients₀ clients₂ current₀ current₂)
  have hnodup : (savedClients clients₂).Nodup := (List.Nodup.of_map _ hnd).filter _
  have hall (c : Client) (hc : c ∈ savedClients clients₂) : c.isSaved := (List.mem_filter.mp hc).2
  have hactive (info : SessionInfo) (hinfo : info ∈ session) : ∃ (i : Nat) (hi : i < (savedClients clients₂).length),
      info = (savedClients clients₂)[i].info (activeNumber clients₀) (i + 1) := by
    rw [hloaded] at hinfo
    obtain ⟨i, hi, rfl⟩ := List.mem_iff_getElem.mp hinfo
    rw [List.length_mapIdx] at hi
    exact ⟨i, hi, List.getElem_mapIdx⟩
  refine ⟨hloaded, fun cs => ?_, fun again hagain pre k post hsaved => ?_, fun hnone info hinfo => ?_, ?_⟩
  · have hnumbers : (session.map SessionInfo.number).Nodup := by
      have hrange : session.map SessionInfo.number = List.range' 1 session.length := by
        refine List.ext_getElem (by simp) fun i h₁ h₂ => ?_
        simp only [hloaded, List.getElem_map, List.getElem_mapIdx, List.getElem_range', Client.info]
        omega
      rw [hrange]
      exact List.nodup_range'
    rw [takeAll_eq_firstFit]
    refine (Lib.nodup_firstFit (List.Nodup.of_map _ hnumbers) cs).map_on fun x hx y hy hxy => ?_
    have hmem (x : SessionInfo) (hx : x ∈ (Lib.firstFit infoMatches session cs).filterMap id) : x ∈ session := by
      obtain ⟨o, ho, rfl⟩ := List.mem_filterMap.mp hx
      exact Lib.mem_of_some_mem_firstFit ho
    exact List.inj_on_of_nodup_map hnumbers (hmem x hx) (hmem y hy) hxy
  · rw [hloaded]
    simp only [takeAll_loaded hnodup _ hagain, own_info_iff hnodup hsaved]
    have hsplit := own_iff_alone (fun c hc => hall c (hsaved ▸ hc)) (hsaved ▸ hnodup)
    rw [← hsaved] at hsplit
    exact hsplit
  · obtain ⟨i, hi, rfl⟩ := hactive info hinfo
    rw [activeNumber_none hnone]
    simp only [Client.info, decide_eq_true_eq]
    omega
  · intro pre₀ k₀ post₀ pre k post hsaved₀ hk hpost hsaved _ hlen info hinfo
    obtain ⟨i, hi, rfl⟩ := hactive info hinfo
    rw [activeNumber_eq hsaved₀ hk hpost]
    constructor
    · intro hmark
      simp only [Client.info, decide_eq_true_eq] at hmark
      have hi : i = pre.length := by omega
      subst hi
      simp [hsaved]
    · intro heq
      have hnumber := congrArg SessionInfo.number heq
      simp only [Client.info] at hnumber
      simp only [Client.info, decide_eq_true_eq]
      omega

/-! Windows of one program. -/

private theorem letter_range : (0 < 97 ∧ 97 < 128) ∧ 0 < 98 ∧ 98 < 128 := by decide

private def letterA : AsciiChar := ⟨97, letter_range.1⟩

private def letterB : AsciiChar := ⟨98, letter_range.2⟩

private def program (window : Nat) (windowRole resourceName : Text) : Client where
  window := window
  isX11 := true
  active := false
  windowType := .normal
  identification := ⟨[letterA], windowRole, [], resourceName, []⟩
  lower := rfl
  clientGeometry := ⟨0, 0, 9, 9⟩
  maximizeRestore := .null
  maximizeMode := 0
  fullscreen := false
  desktop := 1
  minimized := false
  opacity := 1
  onAllDesktops := false
  keepAbove := false
  keepBelow := false
  originalSkipTaskbar := false
  skipPager := false
  skipSwitcher := false
  userNoBorder := false
  shortcut := ""
  stackingIndex := 0
  activities := []

private def first : Client := program 1 [letterA] [letterA]

private def second : Client := program 2 [letterA] [letterB]

private def other : Client := program 2 [letterB] [letterB]

private def sessionOf (clients : List Client) : List SessionInfo :=
  ((SessionStore.storeSession .phase0 clients 1 {}).storeSession .phase2 clients 1).loadSessionInfo

/-- Two windows with different roles. -/
theorem roles_roundTrip : (other, some (other.info (-1) 2)) ∈
    [other, first].zip (takeAll (sessionOf [first, other]) [other, first]) := by
  obtain ⟨-, -, hown, -⟩ := session_roundTrip {} [first, other] [first, other] 1 1 (by decide) rfl
  exact (hown id (fun _ => ⟨rfl, rfl⟩) [first] other [] (by decide)).mpr (by decide)
    [other, first] (by decide) (by decide) (by decide)

/-- Of two windows with the same role, the one that reappears first gets the entry of the other one, although they have
different resource names. -/
theorem sameRole_exchanged : first.identification ≠ second.identification ∧
    takeAll (sessionOf [first, second]) [second, first] = [some (first.info (-1) 1), some (second.info (-1) 2)] := by
  decide +kernel

end KWinFT.Session
