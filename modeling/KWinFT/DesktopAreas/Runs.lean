import KWinFT.DesktopAreas.Removal
import KWinFT.DesktopAreas.Requests
import KWinFT.Lib.Runs

/-! Accesses to the areas over whole runs. They are in range as long as the windows on a removed desktop can be moved off it one
after the other. -/
namespace KWinFT.DesktopAreas
open Areas VirtualDesktops

/-- Between events all windows are on desktops that are there, and the areas have entries for these. -/
structure Sound (s : Workspace) : Prop where
  numbered : Numbered s.vds
  count_pos : 1 ≤ s.vds.count
  live : ∀ w, Live s.vds.desktops (s.desktops w)
  holds : s.Holds s.vds.count

section requests
variable {p : Setting} {op : Op} {depth b : Nat} {s s₁ t : Workspace} {m' : VirtualDesktopManager} {sigs pre : List Signal}

theorem react_silent {self : Self} {sig : Signal} (h : Silent sig) : react p self s sig = .ok s := by
  cases sig with
  | desktopRemoved | countChanged => exact absurd h id
  | _ => rfl

theorem react_silent_all {self : Self} (h : ∀ sig ∈ sigs, Silent sig) : sigs.foldlM (react p self) s = .ok s := by
  induction sigs with
  | nil => rfl
  | cons sig sigs ih =>
    obtain ⟨hsig, hrest⟩ := List.forall_mem_cons.mp h
    rw [List.foldlM_cons, react_silent hsig]
    exact ih hrest

/-- The windows follow the removed desktops, one after the other. -/
theorem signals_inRange {Q : Workspace → Prop} {self : Self} (hvds : ∀ t, Q t → t.vds = s₁.vds)
    (hclients : ∀ t, Q t → t.allClients = s₁.allClients)
    (hstep : ∀ d, d ∉ s₁.vds.desktops → ∀ t, Q t → Kept s₁ t → ∀ w ∈ s₁.allClients,
      InRange (Went p Q d t w) (moveAway p self d t w))
    (hpre : ∀ sig ∈ pre, Silent sig ∨ ∃ d, sig = .desktopRemoved d ∧ d ∉ s₁.vds.desktops) (hcore : Q s₁) :
    InRange (fun t => (Q t ∧ Kept s₁ t) ∧
      ∀ sig ∈ pre, ∀ d, sig = .desktopRemoved d → ∀ w ∈ s₁.allClients, p.mustGo d s₁ w → Live s₁.vds.desktops (t.desktops w))
      (pre.foldlM (react p self) s₁) := by
  have hloop : InRange (fun t => (Q t ∧ Kept s₁ t) ∧
      (∀ sig ∈ pre, ∀ d, sig = .desktopRemoved d → ∀ w ∈ s₁.allClients, p.mustGo d s₁ w →
        Live s₁.vds.desktops (t.desktops w)) ∧ _) (pre.foldlM (react p self) s₁) :=
    Lib.Safe.foldlM_settles pre (fun t sig hsig ht => ?_) ⟨hcore, fun _ => .inl rfl⟩
  · exact hloop.mono fun t ht => ⟨ht.1, ht.2.1⟩
  · rcases hpre sig hsig with hsilent | ⟨d, rfl, hd⟩
    · rw [react_silent hsilent]
      refine ⟨ht, fun d he => ?_, fun _ h => h⟩
      rw [he] at hsilent
      exact absurd hsilent id
    · refine (desktopRemoved_inRange hvds hclients (hstep d hd) ht.1 ht.2).mono fun t' ⟨ht', hkept, hgone⟩ => ⟨ht', ?_, ?_⟩
      · rintro e ⟨⟩
        exact hgone
      · intro sig' h e he w hw hgo
        rcases hkept w with heq | hlive
        · rw [heq]
          exact h e he w hw hgo
        · exact hvds t ht.1 ▸ hlive

/-- A window that is on a removed desktop has to go when this is announced. -/
theorem mustGo_of_left (ht : Tidy p s₁) {w : Nat} {d : Address} (hd : d ∈ s₁.desktops w) (hnot : d ∉ s₁.vds.desktops) :
    p.mustGo d s₁ w := by
  unfold Setting.mustGo
  split
  · next hx => exact ⟨List.ne_nil_of_mem hd, ht.last hx w ⟨d, hd, hnot⟩⟩
  · exact hd

/-- After all removed desktops were announced no window is on any of them. -/
theorem removed_inRange (hi : Interim p b s₁) (ht : Tidy p s₁) (hb : s₁.Holds b)
    (hpre : ∀ sig ∈ pre, Silent sig ∨ ∃ d, sig = .desktopRemoved d ∧ d ∉ s₁.vds.desktops)
    (hall : ∀ w, ∀ d ∈ s₁.desktops w, d ∉ s₁.vds.desktops → .desktopRemoved d ∈ pre) :
    InRange (fun t => t.vds = s₁.vds ∧ ∀ w, Live t.vds.desktops (t.desktops w))
      (pre.foldlM (react p (perform p depth)) s₁) := by
  have hcur := currentNumber_le_count hi.numbered
  have settle {core : Workspace → Prop} (hvds : ∀ t, core t → t.vds = s₁.vds) (t : Workspace)
      (h : (core t ∧ Kept s₁ t) ∧ ∀ sig ∈ pre, ∀ d, sig = .desktopRemoved d → ∀ w ∈ s₁.allClients, p.mustGo d s₁ w →
        Live s₁.vds.desktops (t.desktops w)) : t.vds = s₁.vds ∧ ∀ w, Live t.vds.desktops (t.desktops w) := by
    refine ⟨hvds t h.1.1, fun w => ?_⟩
    rw [hvds t h.1.1]
    rcases h.1.2 w with heq | hlive
    · by_cases hw : s₁.Left w
      · obtain ⟨d, hd, hnot⟩ := hw
        exact h.2 _ (hall w d hd hnot) d rfl w (ht.known w ⟨d, hd, hnot⟩) (mustGo_of_left ht hd hnot)
      · rw [heq]
        intro d hd
        by_contra hnot
        exact hw ⟨d, hd, hnot⟩
    · exact hlive
  rcases ht.moves with hunique | ⟨hupToDate, hstruts⟩
  · refine (signals_inRange (Q := Reaching b s₁) (fun t h => h.vds) (fun t h => h.allClients) ?_ hpre
      ⟨rfl, rfl, hb.mono hcur hi.count_le, fun _ => hb⟩).mono fun t h => settle (fun t h => h.vds) t h
    intro d hd t hs hkept w _
    refine moveAway_reaching hs (hi.kept hkept hs.vds) (hs.vds ▸ hd) fun w v hw hv => ?_
    exact hunique w v (hkept.past hi hs.vds hw) (hkept.past hi hs.vds hv)
  · have hc : Strutless s₁ s₁.Carried b := by
      refine ⟨hi.numbered, hi.count_pos, hi.count_le, hb, ?_, ?_, hstruts, fun w hw => ?_, hupToDate⟩
      · rintro w ⟨v, hv, hvw⟩ c hcw
        exact ⟨v, hv, hvw.tail (.inl hcw)⟩
      · rintro w ⟨v, hv, hvw⟩ hmodal l hl
        exact ⟨v, hv, hvw.tail (.inr ⟨hmodal, hl⟩)⟩
      · refine Workspace.desktop_le_count hi.numbered fun d hd => ?_
        by_contra hnot
        exact hstruts w ⟨w, ⟨d, hd, hnot⟩, .refl⟩ hw
    refine (signals_inRange (Q := Untouched s₁ s₁.Carried (keptTrack s₁)) (fun t h => h.vds) (fun t h => h.allClients) ?_
      hpre ⟨rfl, rfl, rfl, rfl, rfl, rfl, fun _ => rfl, fun _ _ => rfl, fun _ => .inl rfl⟩).mono
      fun t h => settle (fun t h => h.vds) t h
    intro d hd t hs _ w _
    exact moveAway_untouched hc hi hs hd

theorem sound_deleteRemoved (hs : Sound s) : Sound (s.deleteRemoved p) := by
  have hnumber (d : Address) (hd : d ∈ s.vds.desktops) : (s.deleteRemoved p).vds.heap d = s.vds.heap d := if_pos hd
  have hcur : (s.deleteRemoved p).vds.currentNumber = s.vds.currentNumber := by
    unfold VirtualDesktopManager.currentNumber
    rw [show (s.deleteRemoved p).vds.current = s.vds.current from rfl]
    cases hc : s.vds.current with
    | none => rfl
    | some c => exact congrArg VirtualDesktop.x11DesktopNumber (hnumber c (hs.numbered.current c hc))
  refine ⟨⟨hs.numbered.nodup, hs.numbered.allocated, fun i d hi => ?_, hs.numbered.current⟩, hs.count_pos, hs.live,
    hs.holds.fits, hcur.trans_le hs.holds.current, hs.holds.old⟩
  rw [hnumber d (List.mem_of_getElem? hi)]
  exact hs.numbered.number i d hi

/-- When all windows are on live desktops, the change of the count has all areas computed anew. -/
theorem reset_inRange (hn : Numbered t.vds) (hpos : 1 ≤ t.vds.count) (hlive : ∀ w, Live t.vds.desktops (t.desktops w))
    (previous : Nat) :
    InRange Sound (react p (perform p depth) t (.countChanged previous t.vds.count)) := by
  have htrack : ∀ w : Nat, ∀ l : List Address, Live t.vds.desktops l → Live t.vds.desktops l := fun _ _ => id
  refine (resetClientAreas_inRange hn htrack rfl rfl hlive (fun w => Workspace.desktop_le_count hn (hlive w))
    (currentNumber_le_count hn) depth).mono fun s hs => ?_
  exact ⟨hs.vds ▸ hn, hs.vds ▸ hpos, hs.vds ▸ hs.track, hs.vds ▸ hs.holds⟩

private theorem foldlM_concat {f : Workspace → Signal → Except Stop Workspace} (pre : List Signal) (sig : Signal) :
    (pre ++ [sig]).foldlM f s = pre.foldlM f s >>= fun s => f s sig := by
  simp

theorem requested_inRange (hs : Sound s) (hr : respond s.vds op = some (m', sigs))
    (ht : Tidy p { s with vds := m' }) : InRange Sound (sigs.foldlM (react p (perform p depth)) { s with vds := m' }) := by
  have hn' := respond_numbered hs.numbered hr
  have hcur := currentNumber_le_count hn'
  cases respond_outcome hs.numbered hr with
  | same desktops silent =>
    rw [react_silent_all silent]
    have hcount : m'.count = s.vds.count := congrArg List.length desktops
    exact ⟨hn', hcount ▸ hs.count_pos, desktops ▸ hs.live, hcount ▸ hs.holds.fits, hcur, hcount ▸ hs.holds.old⟩
  | grown previous silent desktops =>
    rw [foldlM_concat, react_silent_all silent]
    have hpos : 1 ≤ m'.count := by
      obtain ⟨d, hd⟩ := List.exists_mem_of_length_pos hs.count_pos
      exact List.length_pos_of_mem (desktops d hd)
    exact reset_inRange (t := { s with vds := m' }) hn' hpos (fun w d hd => desktops d (hs.live w d hd)) previous
  | shrunk previous removes =>
    have hb : Workspace.Holds s.vds.count { s with vds := m' } :=
      ⟨hs.holds.fits, hcur.trans removes.count_le, hs.holds.old⟩
    have hi : Interim p s.vds.count { s with vds := m' } :=
      ⟨hn', removes.count_pos, removes.count_le, fun w d hd => removes.number d (hs.live w d hd),
        fun w d hd hnot v e he hnot' => removes.side d (hs.live w d hd) hnot e (hs.live v e he) hnot', ht.once, ht.last⟩
    rw [foldlM_concat]
    refine (removed_inRange hi ht hb removes.signals fun w d hd hnot =>
      removes.announced d (hs.live w d hd) hnot).bind fun t ⟨hvds, hlive⟩ => ?_
    have heq : t.vds.count = m'.count := congrArg VirtualDesktopManager.count hvds
    rw [← heq]
    exact reset_inRange (hvds ▸ hn') (heq ▸ removes.count_pos) hlive previous

/-- A change of the desktops of a window, or an update of the areas. -/
theorem change_inRange (hs : Sound s) {call : Call} (hcall : call.fits s) : InRange Sound (perform p depth call s) := by
  have htrack : ∀ w : Nat, ∀ l : List Address, Live s.vds.desktops l → Live s.vds.desktops l := fun _ _ => id
  have hstart : Settled s (fun _ => Live s.vds.desktops) s :=
    ⟨rfl, rfl, hs.live, fun w => Workspace.desktop_le_count hs.numbered (hs.live w), hs.holds⟩
  have hconcerns : call.Concerns anyWindow s.vds.desktops s.vds.count True := by
    cases call with
    | setDesktops w desktops => exact ⟨trivial, fun d hd => of_decide_eq_true (List.all_eq_true.mp hcall d hd)⟩
    | checkWorkspacePosition w oldDesktop =>
      refine ⟨trivial, fun d hd => ?_⟩
      rw [hd] at hcall
      cases hcall
    | updateClientArea force => exact fun _ => trivial
    | _ => exact trivial
  refine (perform_inRange (Settled.keeps hs.numbered htrack) Settled.updates depth call hconcerns hstart).mono fun t ht => ?_
  exact ⟨ht.vds ▸ hs.numbered, ht.vds ▸ hs.count_pos, ht.vds ▸ ht.track, ht.vds ▸ ht.holds⟩

theorem setDesktops_sound (hs : Sound s) (w : Nat) {l : List Address} (hl : Live s.vds.desktops l) :
    InRange Sound (perform p depth (.setDesktops w l) s) :=
  change_inRange hs (List.all_eq_true.mpr fun d hd => decide_eq_true (hl d hd))

end requests

/-- Requests to the manager are made when the windows on desktops that they remove can be moved off one after the other. -/
def Orderly (p : Setting) : Except Stop Workspace → Event → Prop
  | .ok s, .request op _ => ∀ m' sigs, respond s.vds op = some (m', sigs) → Tidy p { s with vds := m' }
  | _, _ => True

section runs
variable {p : Setting} {s : Workspace}

theorem handle_inRange (hs : Sound s) {e : Event} (hok : Orderly p (.ok s) e) {r : Except Stop Workspace}
    (hr : handle p s e = some r) : InRange Sound r := by
  cases e with
  | request op depth =>
    obtain ⟨⟨m', sigs⟩, hrespond, rfl⟩ := Option.map_eq_some_iff.mp hr
    exact (requested_inRange hs hrespond (hok m' sigs hrespond)).bind fun s hs => sound_deleteRemoved hs
  | change call depth =>
    obtain ⟨hfits, h⟩ := Option.ite_none_right_eq_some.mp hr
    cases h
    exact change_inRange hs hfits
  | enterDesktop w d depth =>
    obtain ⟨hd, h⟩ := Option.ite_none_right_eq_some.mp hr
    cases h
    unfold enterDesktop
    split
    · exact hs
    · refine setDesktops_sound hs w fun e he => ?_
      rcases List.mem_append.mp he with he | he
      · exact hs.live w e he
      · exact List.mem_singleton.mp he ▸ hd
  | leaveDesktop w d depth =>
    obtain ⟨-, h⟩ := Option.ite_none_right_eq_some.mp hr
    cases h
    unfold leaveDesktop
    have hlive : Live s.vds.desktops (if s.desktops w = [] then s.vds.desktops else s.desktops w) := by
      split
      · exact fun _ he => he
      · exact hs.live w
    generalize (if s.desktops w = [] then s.vds.desktops else s.desktops w) = currentDesktops at hlive
    dsimp only
    split
    · exact hs
    · exact setDesktops_sound hs w fun e he => hlive e (List.mem_of_mem_erase he)
  | rearrange a =>
    cases hr
    exact ⟨hs.numbered, hs.count_pos, hs.live, hs.holds.fits, hs.holds.current, hs.holds.old⟩

theorem start_sound (screens : Screens) (count : Nat) (ids : Nat → String) : Sound (.start screens count ids) := by
  have hn : Numbered (VirtualDesktopManager.initial.setCount count ids).1 := (Numbered.initial _).setCount count ids
  have hcount : ((VirtualDesktopManager.initial.setCount count ids).1.setCurrent 1).1.count =
      (VirtualDesktopManager.initial.setCount count ids).1.count := by
    unfold VirtualDesktopManager.setCurrent
    split
    · rfl
    · split
      · unfold VirtualDesktopManager.setCurrentDesktop
        split <;> rfl
      · rfl
  have hpos : 1 ≤ (VirtualDesktopManager.initial.setCount count ids).1.count := by
    unfold VirtualDesktopManager.setCount
    have hn : 1 ≤ max 1 (min count maximum) := le_max_left _ _
    generalize max 1 (min count maximum) = n at hn ⊢
    dsimp only
    rw [if_neg (show ¬ n = VirtualDesktopManager.initial.count from Nat.ne_of_gt hn),
      if_neg (show ¬ n < VirtualDesktopManager.initial.count from Nat.not_lt_zero n)]
    show 1 ≤ (VirtualDesktopManager.appendDesktops ids n .initial).desktops.length
    rw [(VirtualDesktopManager.appendDesktops_spec _ ids n).1, List.length_append, List.length_range']
    exact hn.trans (Nat.le_add_left _ _)
  have hn' := hn.setCurrent 1
  refine ⟨hn', hcount.symm ▸ hpos, fun _ => Live.nil, ?_, currentNumber_le_count hn', .inl rfl⟩
  constructor <;> simp [Workspace.start, ClientAreas.ofNew, initialAreas, hcount]

theorem reachable_inRange {screens : Screens} {count : Nat} {ids : Nat → String} {r : Except Stop Workspace}
    (h : Lib.Reachable (step p) (Orderly p) (.ok (.start screens count ids)) r) : InRange Sound r :=
  h.invariant (InRange Sound) (start_sound screens count ids) fun r e r' hr hok hs => by
    cases r with
    | error => cases hs
    | ok s => exact handle_inRange hr hok (Option.filter_eq_some_iff.mp hs).1

/-- Over runs of such requests and of any changes of windows in between every access to the areas is in range, also while windows
are being moved off a removed desktop. -/
theorem accesses_inRange {screens : Screens} {count : Nat} {ids : Nat → String} {r : Except Stop Workspace}
    (h : Lib.Reachable (step p) (Orderly p) (.ok (.start screens count ids)) r) : r ≠ .error .outOfRange :=
  (reachable_inRange h).not_error rfl

/-- After each of these requests no window is left on a removed desktop, and there are areas for all desktops. -/
theorem windows_onDesktops {screens : Screens} {count : Nat} {ids : Nat → String}
    (h : Lib.Reachable (step p) (Orderly p) (.ok (.start screens count ids)) (.ok s)) :
    1 ≤ s.vds.count ∧ (∀ w, ∀ d ∈ s.desktops w, d ∈ s.vds.desktops) ∧ Fits s.vds.count s.areas := by
  have hs : Sound s := reachable_inRange h
  exact ⟨hs.count_pos, hs.live, hs.holds.fits⟩

/-! A panel on the last of two desktops, which is removed. -/

/-- No rules, and windows stay where they are. -/
def plain : Setting := ⟨false, fun _ d => d, fun s _ => s.stacking, fun _ _ _ => none, fun _ => 0⟩

def panelWindow : Window :=
  ⟨true, false, false, [], [], [], .x11 ⟨0, 0, 0, 0, 0, 0, 10, 0, 100, 0, 0, 0⟩ ⟨0, 0, 0, 0⟩, .exempt, ⟨⟨0, 0, 99, 9⟩, 0, 0⟩⟩

def panels (clients : List Nat) : Arrangement :=
  ⟨fun _ => panelWindow, clients, [], [], ⟨[⟨0, 0, 99, 99⟩]⟩, 0⟩

/-- The given panels are on the second desktop. -/
def onSecond (clients : List Nat) : Workspace :=
  clients.foldl (fun s w => s.storeDesktops w [1])
    ((Workspace.start ⟨[⟨0, 0, 99, 99⟩]⟩ 2 fun _ => "").rearrange (panels clients))

/-- One panel on the last desktop can be moved. -/
private theorem onSecond_orderly (ids : Nat → String) (depth : Nat) :
    Orderly plain (.ok (onSecond [0])) (.request (.setCount 1 ids) depth) := by
  intro m' sigs h
  have hdesktops : m'.desktops = [0] := by
    cases h
    rfl
  have on_second (w : Nat) (hne : (onSecond [0]).desktops w ≠ []) : w = 0 := by
    by_contra hw
    exact hne ((Workspace.storeDesktops_desktops _ 0 w [1]).trans (if_neg hw))
  have left (w : Nat) (hw : Workspace.Left { onSecond [0] with vds := m' } w) : w = 0 := by
    obtain ⟨d, hd, -⟩ := hw
    exact on_second w (List.ne_nil_of_mem hd)
  have past (w : Nat) (hw : Workspace.Past { onSecond [0] with vds := m' } w) : w = 0 := by
    refine on_second w fun he => ?_
    have hall : Workspace.desktop { onSecond [0] with vds := m' } w = -1 :=
      congrArg (fun l : List Address => desktopOf (l.map fun d => (m'.heap d).x11DesktopNumber)) he
    unfold Workspace.Past at hw
    omega
  refine ⟨fun w hw => ?_, fun w hw => ?_, nofun, .inl fun w v hw hv => (past w hw).trans (past v hv).symm⟩
  · rw [left w hw]
    exact List.mem_singleton_self 0
  obtain rfl := left w hw
  show ((onSecond [0]).desktops 0).countP (· ∉ m'.desktops) = 1
  rw [hdesktops]
  decide

private theorem onSecond_reachable : Lib.Reachable (step plain) (Orderly plain)
    (.ok (.start ⟨[⟨0, 0, 99, 99⟩]⟩ 2 fun _ => "")) (.ok (onSecond [0])) :=
  .step (.change (.setDesktops 0 [1]) 3) (.step (.rearrange (panels [0])) .init trivial rfl) trivial rfl

theorem lonePanel_inRange : ∃ r, step plain (.ok (onSecond [0])) (.request (.setCount 1 fun _ => "") 9) = some r ∧
    r ≠ .error .outOfRange := by
  have hsome : (step plain (.ok (onSecond [0])) (.request (.setCount 1 fun _ => "") 9)).isSome := by decide +kernel
  obtain ⟨r, hr⟩ := Option.isSome_iff_exists.mp hsome
  exact ⟨r, hr, accesses_inRange (.step _ onSecond_reachable (onSecond_orderly _ 9) hr)⟩

/-- The panel is on the first desktop then. -/
theorem lonePanel_onDesktop : ∃ s, step plain (.ok (onSecond [0])) (.request (.setCount 1 fun _ => "") 9) = some (.ok s) ∧
    s.desktops 0 ≠ [] ∧ ∀ d ∈ s.desktops 0, d ∈ s.vds.desktops := by
  have hmoved : (step plain (.ok (onSecond [0])) (.request (.setCount 1 fun _ => "") 9)).any
      fun r => r.toOption.any fun s => decide (s.desktops 0 ≠ []) := by decide +kernel
  obtain ⟨r, hr, hs⟩ := (Option.any_eq_true _ _).mp hmoved
  obtain ⟨s, hok, hs⟩ := (Option.any_eq_true _ _).mp hs
  obtain rfl : r = .ok s := by
    cases r with
    | error => cases hok
    | ok => exact congrArg Except.ok (Option.some.inj hok)
  exact ⟨s, hr, of_decide_eq_true hs,
    (windows_onDesktops (.step _ onSecond_reachable (onSecond_orderly _ 9) hr)).2.1 0⟩

private def stopOf : Except Stop Workspace → Option Stop
  | .error stop => some stop
  | .ok _ => none

private theorem stopOf_eq_some {r : Except Stop Workspace} {stop : Stop} : stopOf r = some stop ↔ r = .error stop := by
  cases r with
  | error e => simp [stopOf]
  | ok s => simp [stopOf]

/-- Of two panels the second is not yet moved when the areas are updated for the first. -/
theorem twoPanels_outOfRange : ¬ ∀ r, Lib.Reachable (step plain) (fun _ _ => True)
    (.ok (.start ⟨[⟨0, 0, 99, 99⟩]⟩ 2 fun _ => "")) r → r ≠ .error .outOfRange := by
  have hstops : (step plain (.ok (onSecond [0, 1])) (.request (.setCount 1 fun _ => "") 9)).bind stopOf =
      some .outOfRange := by decide +kernel
  obtain ⟨r, hbeyond, hr⟩ := Option.bind_eq_some_iff.mp hstops
  obtain rfl := stopOf_eq_some.mp hr
  have hon : Lib.Reachable (step plain) (fun _ _ => True) (.ok (.start ⟨[⟨0, 0, 99, 99⟩]⟩ 2 fun _ => ""))
      (.ok (onSecond [0, 1])) :=
    .step (.change (.setDesktops 1 [1]) 3) (.step (.change (.setDesktops 0 [1]) 3)
      (.step (.rearrange (panels [0, 1])) .init trivial rfl) trivial rfl) trivial rfl
  exact fun h => h _ (.step _ hon trivial hbeyond) rfl

end runs
end KWinFT.DesktopAreas
