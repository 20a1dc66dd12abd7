import KWinFT.Xwl.Clipboard

/-! Whether KWin's sources agree with the owner that the X server knows, once nothing is under way. KWin takes
the first notification after a disown for its echo, and the echo of a claim for a foreign one without a source. -/
namespace KWinFT.Xwl

/-- A source for X exists iff a foreign window is the owner, and one for Wayland iff KWin is. -/
def Agrees (σ : Selection) (owner : Option XWindow) : Prop :=
  (σ.xSource.isSome ↔ ∃ window, owner = some window ∧ window ≠ σ.window) ∧
    (σ.waylandSource.isSome ↔ owner = some σ.window)

namespace ClipboardWorld
variable (dataDeviceIface : Nat) (w : ClipboardWorld)

def hasWlSource : Bool := w.clipboard.selection.waylandSource.isSome

/-- A selection of a Wayland client, not of Xwayland. -/
def isNative (ddi : Option DataDevice) : Bool := ddi.any (·.id ≠ dataDeviceIface)

/-- The notifications that are not taken for the echo of a disown. -/
def unswallowed : List XfixesNotify :=
  if w.clipboard.selection.disownPending then w.notifications.tail else w.notifications

/-- KWin claims the clipboard only while no other change of its owner is on the way to it. -/
def Claimable : Prop := ∀ n ∈ w.unswallowed, n.owner = some w.clipboard.selection.window

/-- It gives it up only while nothing is under way, and other clients change the owner only while no request
of KWin is. -/
def orderly : ClipboardEvent → Prop
  | .wlSelectionChanged ddi =>
    (isNative dataDeviceIface ddi → w.Claimable) ∧ (¬ isNative dataDeviceIface ddi → w.hasWlSource → w.Quiet)
  | .clientActivated =>
    (isNative dataDeviceIface w.seat → ¬ w.hasWlSource → w.Claimable) ∧
      (¬ isNative dataDeviceIface w.seat → w.hasWlSource → w.Quiet)
  | .foreign owner time =>
    (w.server.setSelectionOwner ⟨owner, w.clipboard.selection.atom, time⟩).isSome → w.requests = []
  | .serve | .tick _ | .notify => True

end ClipboardWorld

section tracking
variable {σ σ' : Selection} {server server' : XServer} {requests rs : List SetSelectionOwner}
  {notifications ns : List XfixesNotify} {n : XfixesNotify}

/-- The owners that KWin will be told about, if the server handles all that it was asked. -/
def coming (requests : List SetSelectionOwner) (notifications : List XfixesNotify) : List (Option XWindow) :=
  notifications.map (·.owner) ++ requests.map (·.owner)

/-- Those of them that KWin will not take for the echo of a disown. -/
def toHandle (σ : Selection) (owners : List (Option XWindow)) : List (Option XWindow) :=
  if σ.disownPending then owners.tail else owners

def claim (σ : Selection) : SetSelectionOwner := ⟨some σ.window, σ.atom, currentTime⟩

/-- There are claims under way, and maybe a disown before them that the server will accept. -/
inductive Asked (σ : Selection) (server : XServer) (requests : List SetSelectionOwner)
    (notifications : List XfixesNotify) : Prop
  | claims (all : ∀ r ∈ requests, r = claim σ)
  | disown (time : Timestamp) (rs : List SetSelectionOwner) (requests_eq : requests = ⟨none, σ.atom, time⟩ :: rs)
      (all : ∀ r ∈ rs, r = claim σ) (quiet : notifications = []) (pending : σ.disownPending = true)
      (accepted : time = currentTime ∨ (server.lastChange ≤ time ∧ time ≤ server.clock))

/-- What KWin knows, does not know yet, and will know. -/
structure Tracked (σ : Selection) (server : XServer) (requests : List SetSelectionOwner)
    (notifications : List XfixesNotify) : Prop where
  clock : server.lastChange ≤ server.clock
  sources : σ.waylandSource.isSome → σ.xSource = none
  notified : ∀ n ∈ notifications, n.window = σ.window ∧ n.selection = σ.atom
  last : ∀ n, notifications.getLast? = some n →
    n.owner = server.owner ∧ (n.owner = some σ.window → n.timestamp = server.lastChange)
  asked : Asked σ server requests notifications
  pending : σ.disownPending = true → (coming requests notifications).head? = some none
  settled : coming requests notifications = [] → Agrees σ server.owner
  swallowed : σ.disownPending = true → coming requests notifications = [none] →
    σ.waylandSource = none ∧ σ.xSource = none
  ends : ∀ o, (toHandle σ (coming requests notifications)).getLast? = some o →
    o ≠ some σ.window ∨
      (σ.waylandSource.isSome ∧ ∀ o ∈ toHandle σ (coming requests notifications), o = some σ.window)
  timestamp : σ.waylandSource.isSome → coming requests notifications = [] → σ.timestamp = server.lastChange

theorem Tracked.start (atom : Atom) (window : XWindow) (timestamp clock : Timestamp) :
    Tracked ⟨atom, window, timestamp, none, none, [], [], false⟩ ⟨none, 0, clock⟩ [] [] where
  clock := Nat.zero_le clock
  sources h := by cases h
  notified n hn := by cases hn
  last n hn := by cases hn
  asked := .claims fun r hr => by cases hr
  pending h := by cases h
  settled _ := by simp [Agrees]
  swallowed h := by cases h
  ends o ho := by cases ho
  timestamp h := by cases h

theorem Tracked.exists_echo (h : Tracked σ server requests notifications) (hp : σ.disownPending = true) :
    ∃ l, coming requests notifications = none :: l := by
  have hhead := h.pending hp
  cases hc : coming requests notifications with
  | nil => simp [hc] at hhead
  | cons o l => exact ⟨l, by simpa [hc] using hhead⟩

theorem Tracked.notified_concat (h : Tracked σ server requests notifications) (owner : Option XWindow)
    (time : Timestamp) :
    ∀ n ∈ notifications ++ [⟨σ.window, σ.atom, owner, time⟩], n.window = σ.window ∧ n.selection = σ.atom := by
  intro n hn
  rcases List.mem_append.mp hn with hn | hn
  · exact h.notified n hn
  · obtain rfl := List.mem_singleton.mp hn
    exact ⟨rfl, rfl⟩

/-- The server accepts a request: what KWin will be told stays as it is. -/
theorem Tracked.serve {r : SetSelectionOwner} (h : Tracked σ server (r :: rs) notifications) :
    ∃ server', server.setSelectionOwner r = some server' ∧
      Tracked σ server' rs (notifications ++ [⟨σ.window, σ.atom, server'.owner, server'.clock⟩]) := by
  -- The time at which the request takes effect.
  obtain ⟨time, haccept, htime, howner, hrest⟩ : ∃ time, server.setSelectionOwner r =
      some ⟨r.owner, time, server.clock⟩ ∧ time ≤ server.clock ∧
      (r.owner = some σ.window → time = server.clock) ∧ ∀ r ∈ rs, r = claim σ := by
    cases h.asked with
    | claims all =>
      refine ⟨server.clock, ?_, Nat.le_refl _, fun _ => rfl, fun r hr => all r (List.mem_cons_of_mem _ hr)⟩
      rw [all r List.mem_cons_self]
      simp [XServer.setSelectionOwner, claim, h.clock]
    | disown time rs' requests_eq all quiet pending accepted =>
      obtain ⟨rfl, rfl⟩ := List.cons.inj requests_eq
      rcases accepted with rfl | ⟨hle, hclock⟩
      · refine ⟨server.clock, ?_, Nat.le_refl _, fun _ => rfl, all⟩
        simp [XServer.setSelectionOwner, h.clock]
      · by_cases hcurrent : time = currentTime
        · refine ⟨server.clock, ?_, Nat.le_refl _, fun _ => rfl, all⟩
          simp [XServer.setSelectionOwner, hcurrent, h.clock]
        · refine ⟨time, ?_, hclock, fun hcontra => (by cases hcontra), all⟩
          simp [XServer.setSelectionOwner, hcurrent, hle, hclock]
  refine ⟨_, haccept, ?_⟩
  have hcoming : coming rs (notifications ++ [⟨σ.window, σ.atom, r.owner, server.clock⟩]) =
      coming (r :: rs) notifications := by simp [coming]
  have hne : coming (r :: rs) notifications ≠ [] := by simp [coming]
  refine ⟨htime, h.sources, h.notified_concat _ _, ?_, .claims hrest, ?_, ?_, ?_, ?_, ?_⟩
  · intro n hn
    rw [List.getLast?_concat] at hn
    obtain rfl := Option.some.inj hn
    exact ⟨rfl, fun ho => (howner ho).symm⟩
  · rw [hcoming]
    exact h.pending
  · rw [hcoming]
    exact fun hnil => absurd hnil hne
  · rw [hcoming]
    exact h.swallowed
  · rw [hcoming]
    exact h.ends
  · rw [hcoming]
    exact fun _ hnil => absurd hnil hne

/-- Another client changes the owner while KWin has asked for nothing. -/
theorem Tracked.foreign {owner : Option XWindow} (h : Tracked σ server [] notifications)
    (howner : owner ≠ some σ.window) (hchange : server'.owner = owner)
    (hclock : server'.lastChange ≤ server'.clock) :
    Tracked σ server' [] (notifications ++ [⟨σ.window, σ.atom, server'.owner, server'.clock⟩]) := by
  subst hchange
  have hcoming : coming [] (notifications ++ [⟨σ.window, σ.atom, server'.owner, server'.clock⟩]) =
      coming [] notifications ++ [server'.owner] := by simp [coming]
  have hne : coming [] notifications ++ [server'.owner] ≠ [] := by simp
  refine ⟨hclock, h.sources, h.notified_concat _ _, ?_, .claims fun r hr => (by cases hr), ?_, ?_, ?_, ?_, ?_⟩
  · intro n hn
    rw [List.getLast?_concat] at hn
    obtain rfl := Option.some.inj hn
    exact ⟨rfl, fun ho => absurd ho howner⟩
  · intro hp
    rw [hcoming, List.head?_append, h.pending hp]
    rfl
  · rw [hcoming]
    exact fun hnil => absurd hnil hne
  · intro hp heq
    rw [hcoming] at heq
    obtain ⟨l, hl⟩ := h.exists_echo hp
    simp [hl] at heq
  · intro o ho
    rw [hcoming] at ho
    left
    have hlast : o = server'.owner := by
      unfold toHandle at ho
      split at ho
      · next hp =>
        obtain ⟨l, hl⟩ := h.exists_echo hp
        rw [hl, List.cons_append, List.tail_cons, List.getLast?_concat] at ho
        exact (Option.some.inj ho).symm
      · rw [List.getLast?_concat] at ho
        exact (Option.some.inj ho).symm
    rw [hlast]
    exact howner
  · rw [hcoming]
    exact fun _ hnil => absurd hnil hne

private theorem mem_concat_claim (all : ∀ r ∈ rs, r = claim σ) : ∀ r ∈ rs ++ [claim σ], r = claim σ := by
  intro r hr
  rcases List.mem_append.mp hr with hr | hr
  · exact all r hr
  · exact List.mem_singleton.mp hr

theorem Asked.concat_claim (h : Asked σ server requests notifications) :
    Asked σ server (requests ++ [claim σ]) notifications := by
  cases h with
  | claims all => exact .claims (mem_concat_claim all)
  | disown time rs requests_eq all quiet pending accepted =>
    subst requests_eq
    exact .disown time (rs ++ [claim σ]) rfl (mem_concat_claim all) quiet pending accepted

/-- Without a foreign change on its way, only claims are left for KWin to handle. -/
theorem Tracked.toHandle_eq (h : Tracked σ server requests notifications)
    (hfree : ∀ n ∈ (if σ.disownPending then notifications.tail else notifications), n.owner = some σ.window) :
    ∀ o ∈ toHandle σ (coming requests notifications), o = some σ.window := by
  have hclaims : ∀ rs : List SetSelectionOwner, (∀ r ∈ rs, r = Xwl.claim σ) →
      ∀ o ∈ rs.map (·.owner), o = some σ.window := by
    intro rs hrs o ho
    obtain ⟨r, hr, rfl⟩ := List.mem_map.mp ho
    rw [hrs r hr]
    rfl
  intro o ho
  cases h.asked with
  | claims all =>
    have hsplit : o ∈ (if σ.disownPending then notifications.tail else notifications).map (·.owner) ∨
        o ∈ requests.map (·.owner) := by
      cases hp : σ.disownPending with
      | false => simpa [toHandle, hp, coming] using ho
      | true =>
        cases notifications with
        | nil =>
          -- The echo would be a claim.
          obtain ⟨l, hl⟩ := h.exists_echo hp
          have hmem : none ∈ coming requests [] := hl ▸ List.mem_cons_self
          cases hclaims requests all none hmem
        | cons n ns => simpa [toHandle, hp, coming] using ho
    rcases hsplit with ho | ho
    · obtain ⟨n, hn, rfl⟩ := List.mem_map.mp ho
      exact hfree n hn
    · exact hclaims requests all o ho
  | disown time rs requests_eq all quiet pending accepted =>
    subst requests_eq quiet
    rw [toHandle, if_pos pending] at ho
    exact hclaims rs all o ho

/-- KWin claims the clipboard while it will be told about no other owner. -/
theorem Tracked.claim (h : Tracked σ server requests notifications) (source : WlSource)
    (hfree : ∀ n ∈ (if σ.disownPending then notifications.tail else notifications), n.owner = some σ.window) :
    Tracked { σ with waylandSource := some source, xSource := none } server (requests ++ [claim σ])
      notifications := by
  have hcoming : coming (requests ++ [Xwl.claim σ]) notifications =
      coming requests notifications ++ [some σ.window] := by simp [coming, Xwl.claim]
  have hne : coming requests notifications ++ [some σ.window] ≠ [] := by simp
  have hall : ∀ o ∈ toHandle σ (coming requests notifications ++ [some σ.window]), o = some σ.window := by
    intro o ho
    have hmem : o ∈ toHandle σ (coming requests notifications) ++ [some σ.window] := by
      cases hp : σ.disownPending with
      | false => simpa [toHandle, hp] using ho
      | true =>
        obtain ⟨l, hl⟩ := h.exists_echo hp
        simpa [toHandle, hp, hl] using ho
    rcases List.mem_append.mp hmem with ho | ho
    · exact h.toHandle_eq hfree o ho
    · exact List.mem_singleton.mp ho
  refine ⟨h.clock, fun _ => rfl, h.notified, h.last, ?_, ?_, ?_, ?_, ?_, ?_⟩
  · cases h.asked.concat_claim with
    | claims all => exact .claims all
    | disown time rs requests_eq all quiet pending accepted =>
      exact .disown time rs requests_eq all quiet pending accepted
  · intro hp
    obtain ⟨l, hl⟩ := h.exists_echo hp
    rw [hcoming, hl]
    rfl
  · rw [hcoming]
    exact fun hnil => absurd hnil hne
  · intro hp heq
    obtain ⟨l, hl⟩ := h.exists_echo hp
    rw [hcoming, hl] at heq
    simp at heq
  · rw [hcoming]
    exact fun o _ => .inr ⟨rfl, hall⟩
  · rw [hcoming]
    exact fun _ hnil => absurd hnil hne

/-- KWin gives the clipboard up while nothing is under way. -/
theorem Tracked.disown (h : Tracked σ server [] []) (hsource : σ.waylandSource.isSome) :
    Tracked { σ with waylandSource := none, xSource := none, disownPending := true } server
      [⟨none, σ.atom, σ.timestamp⟩] [] := by
  have htime := h.timestamp hsource rfl
  refine ⟨h.clock, fun _ => rfl, h.notified, h.last, ?_, fun _ => rfl, ?_, fun _ _ => ⟨rfl, rfl⟩, ?_, ?_⟩
  · refine .disown σ.timestamp [] rfl (fun r hr => by cases hr) rfl rfl (.inr ?_)
    rw [htime]
    exact ⟨Nat.le_refl _, h.clock⟩
  · intro hnil
    cases hnil
  · intro o ho
    cases ho
  · intro hs
    cases hs

/-- With a notification handled, what remains is as it was. -/
private theorem Tracked.asked_tail (h : Tracked σ server requests (n :: ns)) (hwindow : σ'.window = σ.window)
    (hatom : σ'.atom = σ.atom) : Asked σ' server requests ns := by
  cases h.asked with
  | claims all =>
    refine .claims fun r hr => ?_
    rw [all r hr, Xwl.claim, Xwl.claim, hwindow, hatom]
  | disown time rs requests_eq all quiet pending accepted => cases quiet

private theorem Tracked.last_tail (h : Tracked σ server requests (n :: ns)) (m : XfixesNotify)
    (hm : ns.getLast? = some m) :
    m.owner = server.owner ∧ (m.owner = some σ.window → m.timestamp = server.lastChange) := by
  refine h.last m ?_
  rw [List.getLast?_cons, hm]
  rfl

/-- The last notification is about the owner. -/
private theorem Tracked.owner_of_last (h : Tracked σ server requests (n :: ns)) (hnil : coming requests ns = []) :
    n.owner = server.owner ∧ (n.owner = some σ.window → n.timestamp = server.lastChange) := by
  obtain ⟨hns, -⟩ := List.append_eq_nil_iff.mp hnil
  exact h.last n (by simp [List.map_eq_nil_iff.mp hns])

/-- The notification that KWin takes for the echo of its disown is that echo. -/
theorem Tracked.notify_echo (h : Tracked σ server requests (n :: ns)) (hp : σ.disownPending = true) :
    Tracked { σ with disownPending := false } server requests ns := by
  obtain ⟨l, hl⟩ := h.exists_echo hp
  have hrest : coming requests ns = l := (List.cons.inj hl).2
  have hn : n.owner = none := (List.cons.inj hl).1
  refine ⟨h.clock, h.sources, fun m hm => h.notified m (List.mem_cons_of_mem n hm), h.last_tail,
    h.asked_tail rfl rfl, fun hf => ?_, ?_, fun hf => ?_, ?_, ?_⟩
  · cases hf
  · intro hnil
    have howner := (h.owner_of_last hnil).1
    rw [hrest] at hnil
    subst hnil
    obtain ⟨hw, hx⟩ := h.swallowed hp hl
    simp [Agrees, hw, hx, ← howner, hn]
  · cases hf
  · intro o ho
    have hends := h.ends o
    simp only [toHandle, hp, if_true, hl, List.tail_cons, Bool.false_eq_true, if_false, hrest] at hends ho ⊢
    exact hends ho
  · intro hs hnil
    rw [hrest] at hnil
    subst hnil
    rw [(h.swallowed hp hl).1] at hs
    cases hs

section handled
variable (h : Tracked σ server requests (n :: ns)) (hp : σ.disownPending = false)
include h hp

private theorem Tracked.ends_tail (o : Option XWindow) (ho : (coming requests ns).getLast? = some o) :
    o ≠ some σ.window ∨
      (σ.waylandSource.isSome ∧ ∀ o ∈ n.owner :: coming requests ns, o = some σ.window) := by
  have hends := h.ends o
  have hcoming : coming requests (n :: ns) = n.owner :: coming requests ns := rfl
  simp only [toHandle, hp, Bool.false_eq_true, if_false, hcoming, List.getLast?_cons, ho] at hends
  exact hends rfl

/-- The echo of a claim. -/
theorem Tracked.notify_claim {source : WlSource} (hsource : σ.waylandSource = some source)
    (hn : n.owner = some σ.window) :
    Tracked { σ with
      waylandSource := some { source with timestamp := n.timestamp }
      timestamp := n.timestamp } server requests ns := by
  have hx : σ.xSource = none := h.sources (by rw [hsource]; rfl)
  refine ⟨h.clock, fun _ => hx, fun m hm => h.notified m (List.mem_cons_of_mem n hm), h.last_tail,
    h.asked_tail rfl rfl, fun hf => ?_, fun hnil => ?_, fun hf => ?_, fun o ho => ?_, fun _ hnil => ?_⟩
  · rw [hp] at hf
    cases hf
  · have howner := (h.owner_of_last hnil).1
    rw [← howner, hn]
    simp [Agrees, hx]
  · rw [hp] at hf
    cases hf
  · simp only [toHandle, hp, Bool.false_eq_true, if_false] at ho ⊢
    rcases h.ends_tail hp o ho with ho | ⟨-, hall⟩
    · exact .inl ho
    · exact .inr ⟨rfl, fun o ho => hall o (List.mem_cons_of_mem _ ho)⟩
  · exact (h.owner_of_last hnil).2 hn

/-- Any other notification. -/
theorem Tracked.notify_other (hother : ¬ (σ.waylandSource.isSome ∧ n.owner = some σ.window)) :
    Tracked (Clipboard.doHandleXfixesNotify true σ n) server requests ns := by
  have hlast : ∀ o, (n.owner :: coming requests ns).getLast? = some o → o ≠ some σ.window := by
    intro o ho
    have hends := h.ends o
    simp only [toHandle, hp, Bool.false_eq_true, if_false] at hends
    rcases hends ho with ho | ⟨hs, hall⟩
    · exact ho
    · exact absurd ⟨hs, hall n.owner List.mem_cons_self⟩ hother
  obtain ⟨x, hx, hmatch⟩ : ∃ x : Option X11Source, Clipboard.doHandleXfixesNotify true σ n =
      { σ with waylandSource := none, xSource := x } ∧ (x.isSome ↔ n.owner.isSome) := by
    cases ho : n.owner with
    | none => exact ⟨none, by simp [Clipboard.doHandleXfixesNotify, Selection.createX11Source, ho], by simp⟩
    | some window =>
      exact ⟨some ⟨n.timestamp, σ.window, window⟩,
        by simp [Clipboard.doHandleXfixesNotify, Selection.createX11Source, ho], by simp⟩
  rw [hx]
  refine ⟨h.clock, fun hs => ?_, fun m hm => h.notified m (List.mem_cons_of_mem n hm), h.last_tail,
    h.asked_tail rfl rfl, fun hf => ?_, fun hnil => ?_, fun hf => ?_, fun o ho => .inl ?_, fun hs => ?_⟩
  · cases hs
  · rw [hp] at hf
    cases hf
  · have howner := (h.owner_of_last hnil).1
    have hne := hlast n.owner (by rw [hnil]; rfl)
    rw [← howner]
    refine ⟨hmatch.trans ?_, by simpa using hne⟩
    cases ho : n.owner with
    | none => simp
    | some window => simpa [ho] using hne
  · rw [hp] at hf
    cases hf
  · simp only [toHandle, hp, Bool.false_eq_true, if_false] at ho
    refine hlast o ?_
    rw [List.getLast?_cons, ho]
    rfl
  · cases hs

end handled

theorem Tracked.tick (h : Tracked σ server requests notifications) (time : Nat) :
    Tracked σ { server with clock := server.clock + time } requests notifications where
  clock := Nat.le_add_right_of_le h.clock
  sources := h.sources
  notified := h.notified
  last := h.last
  asked := by
    cases h.asked with
    | claims all => exact .claims all
    | disown t rs requests_eq all quiet pending accepted =>
      refine .disown t rs requests_eq all quiet pending (accepted.imp_right fun ⟨hle, hclock⟩ => ?_)
      exact ⟨hle, Nat.le_add_right_of_le hclock⟩
  pending := h.pending
  settled := h.settled
  swallowed := h.swallowed
  ends := h.ends
  timestamp := h.timestamp

end tracking

namespace Clipboard
variable {dataDeviceIface : Nat} {c : Clipboard} {seat : Option DataDevice}

/-- A Wayland client's selection is claimed. -/
theorem checkWlSource_native (hnative : ClipboardWorld.isNative dataDeviceIface seat)
    (hsource : c.selection.waylandSource = none) :
    ∃ source, c.checkWlSource dataDeviceIface true seat =
      ({ c with selection := { c.selection with waylandSource := some source, xSource := none } },
        [claim c.selection]) := by
  cases seat with
  | none => cases hnative
  | some ddi =>
    have hne : dataDeviceIface ≠ ddi.id := Ne.symm (by simpa [ClipboardWorld.isNative] using hnative)
    cases hd : ddi.selection with
    | none =>
      refine ⟨⟨currentTime, ddi, none, []⟩, ?_⟩
      simp only [checkWlSource, hne, if_false, not_true_eq_false, hsource, Option.isSome_none, Bool.false_eq_true, hd]
      rfl
    | some dsi =>
      refine ⟨WlSource.setDataSourceIface ⟨currentTime, ddi, none, []⟩ dsi, ?_⟩
      simp only [checkWlSource, hne, if_false, not_true_eq_false, hsource, Option.isSome_none, Bool.false_eq_true, hd]
      rfl

theorem checkWlSource_foreign (hforeign : ¬ ClipboardWorld.isNative dataDeviceIface seat) :
    c.checkWlSource dataDeviceIface true seat = removeSource { c with checkConnection := false } := by
  cases seat with
  | none => rfl
  | some ddi =>
    have heq : dataDeviceIface = ddi.id := Eq.symm (by simpa [ClipboardWorld.isNative] using hforeign)
    simp [checkWlSource, heq]

end Clipboard

namespace ClipboardWorld
variable {dataDeviceIface : Nat} {w w' : ClipboardWorld}

def IsTracked (w : ClipboardWorld) : Prop :=
  Tracked w.clipboard.selection w.server w.requests w.notifications

theorem IsTracked.send_removeSource (h : w.IsTracked) (hquiet : w.hasWlSource → w.Quiet) (connection : Bool) :
    (w.send (Clipboard.removeSource { w.clipboard with checkConnection := connection })).IsTracked := by
  cases hs : w.hasWlSource with
  | false =>
    have hnone : w.clipboard.selection.waylandSource.isSome = false := hs
    simp only [Clipboard.removeSource, hnone, Bool.false_eq_true, if_false, IsTracked, send, List.append_nil]
    exact h
  | true =>
    obtain ⟨hr, hn⟩ := hquiet hs
    have hsome : w.clipboard.selection.waylandSource.isSome = true := hs
    simp only [Clipboard.removeSource, hsome, if_true, IsTracked, send, hr, hn]
    rw [IsTracked, hr, hn] at h
    exact h.disown hs

theorem IsTracked.serve (h : w.IsTracked) (hs : clipboardStep dataDeviceIface w .serve = some w') : w'.IsTracked := by
  simp only [clipboardStep] at hs
  split at hs
  · cases hs
  · next request requests heq =>
    obtain rfl := Option.some.inj hs
    rw [IsTracked, heq] at h
    obtain ⟨server, haccept, htracked⟩ := h.serve
    simp only [ClipboardWorld.serve, haccept]
    exact htracked

theorem IsTracked.foreign (h : w.IsTracked) {owner : Option XWindow} {time : Timestamp}
    (hok : w.orderly dataDeviceIface (.foreign owner time))
    (hs : clipboardStep dataDeviceIface w (.foreign owner time) = some w') : w'.IsTracked := by
  simp only [clipboardStep] at hs
  split at hs
  · cases hs
  · next howner =>
    obtain rfl := Option.some.inj hs
    unfold ClipboardWorld.serve
    split
    · exact h
    · next server haccept =>
      have hr : w.requests = [] := hok (by rw [haccept]; rfl)
      rw [IsTracked, hr] at h
      have hserver : server.owner = owner ∧ server.lastChange ≤ server.clock := by
        obtain ⟨htime, hserver⟩ := Option.ite_none_right_eq_some.mp haccept
        obtain rfl := Option.some.inj hserver
        exact ⟨rfl, htime.2⟩
      simp only [IsTracked, hr]
      exact h.foreign howner hserver.1 hserver.2

theorem IsTracked.notify (h : w.IsTracked) (hs : clipboardStep dataDeviceIface w .notify = some w') :
    w'.IsTracked := by
  simp only [clipboardStep] at hs
  split at hs
  · cases hs
  · next event notifications heq =>
    obtain rfl := Option.some.inj hs
    rw [IsTracked, heq] at h
    obtain ⟨hwindow, hatom⟩ := h.notified event List.mem_cons_self
    simp only [IsTracked, Selection.handleXfixesNotify, hwindow, hatom, ne_eq, not_true_eq_false, if_false]
    split
    · next hp => exact h.notify_echo hp
    · next hp =>
      have hp : w.clipboard.selection.disownPending = false := by simpa using hp
      split
      · next source hsource =>
        split
        · next howner => exact h.notify_claim hp hsource howner
        · next howner => exact h.notify_other hp fun hother => howner hother.2
      · next hsource => exact h.notify_other hp fun hother => by simp [hsource] at hother

theorem IsTracked.wlSelectionChanged (h : w.IsTracked) {ddi : Option DataDevice}
    (hok : w.orderly dataDeviceIface (.wlSelectionChanged ddi)) :
    ({ w with seat := ddi }.send (w.clipboard.wlSelectionChanged dataDeviceIface true ddi ddi)).IsTracked := by
  by_cases hnative : isNative dataDeviceIface ddi
  · -- The source that there may be is removed first, and the clipboard is claimed again.
    obtain ⟨d, rfl⟩ : ∃ d, ddi = some d := by
      cases ddi with
      | none => cases hnative
      | some d => exact ⟨d, rfl⟩
    have hne : d.id ≠ dataDeviceIface := by simpa [isNative] using hnative
    obtain ⟨source, hcheck⟩ := Clipboard.checkWlSource_native (c := { w.clipboard with
      checkConnection := true
      selection := w.clipboard.selection.setWlSource none }) hnative rfl
    simp only [Clipboard.wlSelectionChanged, hne, ne_eq, not_false_eq_true, if_true, hcheck]
    exact Tracked.claim h source (hok.1 hnative)
  · have hsame : w.clipboard.wlSelectionChanged dataDeviceIface true ddi ddi =
        w.clipboard.checkWlSource dataDeviceIface true ddi := by
      cases ddi with
      | none => rfl
      | some d =>
        have heq : d.id = dataDeviceIface := by simpa [isNative] using hnative
        simp [Clipboard.wlSelectionChanged, heq]
    rw [hsame, Clipboard.checkWlSource_foreign hnative]
    exact IsTracked.send_removeSource (w := { w with seat := ddi }) h (hok.2 hnative) false

theorem IsTracked.clientActivated (h : w.IsTracked) (hok : w.orderly dataDeviceIface .clientActivated) :
    (w.send (w.clipboard.checkWlSource dataDeviceIface true w.seat)).IsTracked := by
  by_cases hnative : isNative dataDeviceIface w.seat
  · cases hsource : w.clipboard.selection.waylandSource with
    | none =>
      obtain ⟨source, hcheck⟩ := Clipboard.checkWlSource_native hnative hsource
      rw [hcheck]
      exact Tracked.claim h source (hok.1 hnative (by simp [hasWlSource, hsource]))
    | some source =>
      have hkeep : w.clipboard.checkWlSource dataDeviceIface true w.seat = (w.clipboard, []) := by
        cases hseat : w.seat with
        | none => simp [isNative, hseat] at hnative
        | some d =>
          have hne : dataDeviceIface ≠ d.id := Ne.symm (by simpa [isNative, hseat] using hnative)
          simp [Clipboard.checkWlSource, hne, hsource]
      rw [hkeep]
      simpa [IsTracked, send] using h
  · rw [Clipboard.checkWlSource_foreign hnative]
    exact h.send_removeSource (hok.2 hnative) false

theorem IsTracked.step (h : w.IsTracked) {e : ClipboardEvent} (hok : w.orderly dataDeviceIface e)
    (hs : clipboardStep dataDeviceIface w e = some w') : w'.IsTracked := by
  cases e with
  | wlSelectionChanged ddi =>
    obtain rfl := Option.some.inj hs
    exact h.wlSelectionChanged hok
  | clientActivated =>
    simp only [clipboardStep] at hs
    split at hs
    · obtain rfl := Option.some.inj hs
      exact h.clientActivated hok
    · obtain rfl := Option.some.inj hs
      exact h
  | serve => exact h.serve hs
  | foreign owner time => exact h.foreign hok hs
  | tick time =>
    obtain rfl := Option.some.inj hs
    exact Tracked.tick h time
  | notify => exact h.notify hs

/-- In an orderly run, KWin and the server agree whenever nothing is under way. -/
theorem agrees_of_reachable (dataDeviceIface : Nat) (atom : Atom) (window : XWindow) (timestamp clock : Timestamp)
    {w : ClipboardWorld} (h : Lib.Reachable (clipboardStep dataDeviceIface) (fun w e => w.orderly dataDeviceIface e)
      (start atom window timestamp clock) w) (hquiet : w.Quiet) : Agrees w.clipboard.selection w.server.owner := by
  have htracked : w.IsTracked := h.invariant IsTracked (Tracked.start atom window timestamp clock)
    fun _ _ _ hw hok hs => hw.step hok hs
  exact htracked.settled (by simp [coming, hquiet.1, hquiet.2])

private def textDevice : DataDevice := ⟨1, some ⟨2, ["text/plain"]⟩⟩

/-- The clipboard is offered to X, given up, and then owned by another client before KWin knows that it is
given up. -/
theorem foreign_claim_agrees :
    ∃ w, Lib.Reachable (clipboardStep 0) (fun w e => w.orderly 0 e) (start 4 100 0 5) w ∧ w.Quiet ∧
      w.server.owner = some 9 ∧ w.clipboard.selection.xSource.isSome ∧
      Agrees w.clipboard.selection w.server.owner := by
  have h₁ : Lib.Reachable (clipboardStep 0) (fun w e => w.orderly 0 e) (start 4 100 0 5) _ :=
    .step (.wlSelectionChanged (some textDevice)) .init ⟨fun _ _ hn => (by cases hn), fun _ hs => (by cases hs)⟩ rfl
  have h₂ := Lib.Reachable.step ClipboardEvent.serve h₁ trivial rfl
  have h₃ := Lib.Reachable.step ClipboardEvent.notify h₂ trivial rfl
  have h₄ := Lib.Reachable.step (ClipboardEvent.wlSelectionChanged none) h₃
    ⟨fun hn => (by cases hn), fun _ _ => ⟨rfl, rfl⟩⟩ rfl
  have h₅ := Lib.Reachable.step ClipboardEvent.serve h₄ trivial rfl
  have h₆ := Lib.Reachable.step (ClipboardEvent.foreign (some 9) currentTime) h₅ (fun _ => rfl) rfl
  have h₇ := Lib.Reachable.step ClipboardEvent.notify h₆ trivial rfl
  have h₈ := Lib.Reachable.step ClipboardEvent.notify h₇ trivial rfl
  exact ⟨_, h₈, ⟨rfl, rfl⟩, rfl, rfl, agrees_of_reachable 0 4 100 0 5 h₈ ⟨rfl, rfl⟩⟩

/-- Another client owns the clipboard when KWin gives it up: the server ignores the old request, and KWin takes
the notification about the new owner for its echo. -/
theorem swallowed_claim_disagrees :
    ∃ w, Lib.Reachable (clipboardStep 0) Lib.anyStep (start 4 100 0 5) w ∧ w.Quiet ∧ w.server.owner = some 9 ∧
      w.clipboard.selection.xSource = none ∧ ¬ Agrees w.clipboard.selection w.server.owner := by
  refine ⟨_, Lib.Reachable.init.execute [.wlSelectionChanged (some textDevice), .serve, .notify, .tick 1,
    .foreign (some 9) currentTime, .wlSelectionChanged none, .serve, .notify] rfl, ⟨rfl, rfl⟩, rfl, rfl, fun h => ?_⟩
  have hsource := h.1.mpr ⟨9, rfl, by decide⟩
  cases hsource

end ClipboardWorld
end KWinFT.Xwl
