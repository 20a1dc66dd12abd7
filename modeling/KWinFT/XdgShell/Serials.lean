import KWinFT.XdgShell.Window
import Mathlib.Order.Nat

/-! Serials of a toplevel's configure events. In every interleaving the pending records are the
recorded events behind the last applied one, in increasing order. -/
namespace KWinFT.XdgShell
open KWinFT.Geometry
namespace Window
variable {w : Window}

/-- What an event asks for, apart from the frame. -/
def key (e : ConfigureEvent) : Nat × MaximizeMode × Bool := (e.serial, e.maxMode, e.fullscreen)

/-- Bookkeeping of serials: the pending events are exactly the recorded ones behind the last
applied one, in the order of their serials. -/
structure Ordered (w : Window) : Prop where
  sorted : w.pendingConfigures.Pairwise fun e f => e.serial < f.serial
  unacked_sorted : (w.ackedConfigure :: w.unacked).Pairwise (· < ·)
  sent : ∀ u ∈ w.ackedConfigure :: w.unacked, u ≤ w.lastSerial
  recorded : ∀ e ∈ w.history, e.serial ≤ w.lastSerial
  unique : ∀ e ∈ w.history, ∀ f ∈ w.history, e.serial = f.serial → e = f
  pending_recorded : ∀ e ∈ w.pendingConfigures, ∃ f ∈ w.history, key f = key e
  pending_unapplied : ∀ e ∈ w.pendingConfigures, ∀ a ∈ w.applied, a < e.serial
  unapplied_pending : ∀ f ∈ w.history, (∀ a ∈ w.applied, a < f.serial) →
    ∃ e ∈ w.pendingConfigures, key e = key f
  applied_recorded : ∀ a ∈ w.applied, a ≤ w.ackedConfigure ∧ ∃ f ∈ w.history, f.serial = a

theorem Ordered.initial (rule : Option Bool) (plasma : Bool) : Ordered (initial rule plasma) := by
  constructor <;> simp [Window.initial]

/-- The bookkeeping reads neither geometry nor modes, and of a pending event only its key. -/
theorem Ordered.of_same {w' : Window} (h : Ordered w)
    (hp : w'.pendingConfigures.map key = w.pendingConfigures.map key)
    (ha : w'.ackedConfigure = w.ackedConfigure) (hl : w'.lastSerial = w.lastSerial)
    (hu : w'.unacked = w.unacked) (hh : w'.history = w.history) (hap : w'.applied = w.applied) :
    Ordered w' := by
  have hmem (k) : (∃ e ∈ w'.pendingConfigures, key e = k) ↔ ∃ e ∈ w.pendingConfigures, key e = k := by
    rw [← List.mem_map, ← List.mem_map, hp]
  have hser : w'.pendingConfigures.map (·.serial) = w.pendingConfigures.map (·.serial) := by
    simpa [Function.comp_def, key] using congrArg (List.map Prod.fst) hp
  refine ⟨?_, ?_, ?_, ?_, ?_, ?_, ?_, ?_, ?_⟩
  · have := List.pairwise_map.mpr h.sorted
    rw [← hser] at this
    exact List.pairwise_map.mp this
  · rw [ha, hu]; exact h.unacked_sorted
  · rw [ha, hu, hl]; exact h.sent
  · rw [hh, hl]; exact h.recorded
  · rw [hh]; exact h.unique
  · intro e he
    obtain ⟨f, hf, hk⟩ := (hmem (key e)).mp ⟨e, he, rfl⟩
    obtain ⟨g, hg, hk'⟩ := h.pending_recorded f hf
    exact ⟨g, hh ▸ hg, hk'.trans hk⟩
  · intro e he a hae
    obtain ⟨f, hf, hk⟩ := (hmem (key e)).mp ⟨e, he, rfl⟩
    have := h.pending_unapplied f hf a (hap ▸ hae)
    rwa [show f.serial = e.serial from congrArg Prod.fst hk] at this
  · intro f hf hlt
    rw [hh] at hf
    rw [hap] at hlt
    exact (hmem _).mpr (h.unapplied_pending f hf hlt)
  · rw [hap, ha, hh]; exact h.applied_recorded

theorem Ordered.send (h : Ordered w) {serial : Nat} (hs : w.lastSerial < serial) :
    Ordered (w.send serial) := by
  refine { h with unacked_sorted := ?_, sent := ?_, recorded := ?_ }
  · rw [Window.send, ← List.cons_append]
    refine List.pairwise_append.mpr ⟨h.unacked_sorted, by simp, ?_⟩
    intro a ha b hb
    rw [List.mem_singleton.mp hb]
    exact (h.sent a ha).trans_lt hs
  · intro u hu
    simp only [Window.send, ← List.cons_append, List.mem_append, List.mem_singleton] at hu ⊢
    rcases hu with hu | rfl
    · exact (h.sent u hu).trans hs.le
    · exact le_rfl
  · intro e he
    exact (h.recorded e he).trans hs.le

theorem Ordered.configureGeometry (h : Ordered w) (frame : Rect) {serial : Nat}
    (hs : w.lastSerial < serial) : Ordered (w.configureGeometry frame serial) := by
  have hsend := h.send hs
  have hnew : ∀ a ∈ w.applied, a < serial := by
    intro a ha
    exact ((h.applied_recorded a ha).1.trans (h.sent _ List.mem_cons_self)).trans_lt hs
  have hbelow : ∀ e ∈ w.history, e.serial < serial := fun e he => (h.recorded e he).trans_lt hs
  unfold Window.configureGeometry
  set ce : ConfigureEvent :=
    ⟨serial, frame, w.geometryUpdate.maxMode, w.geometryUpdate.fullscreen⟩ with hce
  refine ⟨?_, hsend.unacked_sorted, hsend.sent, ?_, ?_, ?_, ?_, ?_, ?_⟩
  · refine List.pairwise_append.mpr ⟨h.sorted, by simp, ?_⟩
    intro e he f hf
    obtain ⟨g, hg, hk⟩ := h.pending_recorded e he
    rw [List.mem_singleton.mp hf, ← show g.serial = e.serial from congrArg Prod.fst hk]
    exact hbelow g hg
  · intro e he
    rcases List.mem_append.mp he with he | he
    · exact (hbelow e he).le
    · rw [List.mem_singleton.mp he]; exact le_rfl
  · intro e he f hf heq
    rcases List.mem_append.mp he with he | he <;> rcases List.mem_append.mp hf with hf | hf
    · exact h.unique e he f hf heq
    · rw [List.mem_singleton.mp hf] at heq
      exact absurd heq (hbelow e he).ne
    · rw [List.mem_singleton.mp he] at heq
      exact absurd heq (hbelow f hf).ne'
    · rw [List.mem_singleton.mp he, List.mem_singleton.mp hf]
  · intro e he
    rcases List.mem_append.mp he with he | he
    · obtain ⟨f, hf, hk⟩ := h.pending_recorded e he
      exact ⟨f, List.mem_append_left _ hf, hk⟩
    · exact ⟨ce, by simp, by rw [List.mem_singleton.mp he]⟩
  · intro e he a ha
    rcases List.mem_append.mp he with he | he
    · exact h.pending_unapplied e he a ha
    · rw [List.mem_singleton.mp he]; exact hnew a ha
  · intro f hf hlt
    rcases List.mem_append.mp hf with hf | hf
    · obtain ⟨e, he, hk⟩ := h.unapplied_pending f hf hlt
      exact ⟨e, List.mem_append_left _ he, hk⟩
    · exact ⟨ce, by simp, by rw [List.mem_singleton.mp hf]⟩
  · intro a ha
    obtain ⟨hle, f, hf, hfa⟩ := h.applied_recorded a ha
    exact ⟨hle, f, List.mem_append_left _ hf, hfa⟩

theorem Ordered.configure (h : Ordered w) {serial : Nat} (hs : w.lastSerial < serial) :
    Ordered (w.configure serial) := by
  unfold Window.configure
  split
  · exact h
  · split
    · exact h
    · exact h.send hs

private theorem map_key_moveLast (p : Point) (es : List ConfigureEvent) :
    (moveLast p es).map key = es.map key := by
  fun_induction moveLast p es with
  | case1 => rfl
  | case2 => rfl
  | case3 e es _ ih => rw [List.map_cons, List.map_cons, ih]

theorem Ordered.doSetGeometry (h : Ordered w) (frame : Rect) : Ordered (w.doSetGeometry frame) := by
  unfold Window.doSetGeometry
  split
  · exact h
  · exact h.of_same rfl rfl rfl rfl rfl rfl

theorem Ordered.setFrameGeometry (h : Ordered w) (frame : Rect) {serial : Nat}
    (hs : w.lastSerial < serial) : Ordered (w.setFrameGeometry frame serial) := by
  have hset (u : GeometryUpdate) : Ordered { w with geometryUpdate := u } :=
    h.of_same rfl rfl rfl rfl rfl rfl
  unfold Window.setFrameGeometry
  dsimp only
  split
  · exact hset _
  · split
    · exact (hset _).configureGeometry frame hs
    · split
      · exact h.of_same (map_key_moveLast _ _) rfl rfl rfl rfl rfl
      · exact (hset _).doSetGeometry frame

theorem Ordered.blockGeometryUpdates (h : Ordered w) (block : Bool) {serial : Nat}
    (hs : w.lastSerial < serial) : Ordered (w.blockGeometryUpdates block serial) := by
  have hset (u : GeometryUpdate) : Ordered { w with geometryUpdate := u } :=
    h.of_same rfl rfl rfl rfl rfl rfl
  unfold Window.blockGeometryUpdates
  split
  · exact hset _
  · dsimp only
    split
    · exact (hset _).setFrameGeometry _ hs
    · exact hset _

/-- Reporting serials one by one leaves the last reported one as the acknowledged one. -/
private theorem foldl_handleConfigureAck (us : List Nat) (w : Window) :
    us.foldl handleConfigureAck w =
      { w with ackedConfigure := us.getLast?.getD w.ackedConfigure } := by
  induction us generalizing w with
  | nil => rfl
  | cons u us ih =>
    rw [List.foldl_cons, ih]
    cases us with
    | nil => rfl
    | cons v vs => simp [handleConfigureAck, List.getLast?_cons]

theorem Ordered.ack (h : Ordered w) (serial : Nat) : Ordered (w.ack serial) := by
  set reported := w.unacked.takeWhile (· ≤ serial) with hrep
  set rest := w.unacked.dropWhile (· ≤ serial) with hrest
  have hsplit : w.unacked = reported ++ rest := (List.takeWhile_append_dropWhile).symm
  have hsorted := h.unacked_sorted
  have hsent := h.sent
  have happ := h.applied_recorded
  have hack : w.ack serial = { w with
      unacked := rest, ackedConfigure := reported.getLast?.getD w.ackedConfigure } :=
    foldl_handleConfigureAck reported _
  rw [hack]
  rcases List.eq_nil_or_concat reported with hnil | ⟨front, u, hlast⟩
  · rw [hnil, List.nil_append] at hsplit
    rw [hnil]
    refine h.of_same rfl rfl rfl hsplit.symm rfl rfl
  · rw [hlast] at hsplit ⊢
    rw [hsplit] at hsorted hsent
    simp only [List.concat_eq_append, List.getLast?_append, List.getLast?_singleton,
      Option.some_or, Option.getD_some]
    have hle : w.ackedConfigure < u :=
      List.rel_of_pairwise_cons hsorted (by simp)
    refine { h with unacked_sorted := ?_, sent := ?_, applied_recorded := ?_ }
    · refine hsorted.sublist ?_
      simp
    · intro v hv
      refine hsent v ?_
      rcases List.mem_cons.mp hv with rfl | hv
      · simp
      · simp [hv]
    · intro a ha
      exact ⟨(happ a ha).1.trans hle.le, (happ a ha).2⟩

/-- With increasing serials the loop finds the event of the acknowledged serial, if there is one. -/
theorem matchAcked_spec (acked : Nat) {es : List ConfigureEvent}
    (hs : es.Pairwise fun e f => e.serial < f.serial) :
    match matchAcked acked es with
    | none => ∀ e ∈ es, e.serial ≠ acked
    | some (e, rest) => e.serial = acked ∧ ∃ front, es = front ++ e :: rest := by
  fun_induction matchAcked acked es with
  | case1 => simp
  | case2 e es hlt =>
    intro f hf
    rcases List.mem_cons.mp hf with rfl | hf
    · exact (Nat.ne_of_lt hlt).symm
    · exact (Nat.ne_of_lt (Nat.lt_trans hlt (List.rel_of_pairwise_cons hs hf))).symm
  | case3 e es hle heq => exact ⟨heq, [], rfl⟩
  | case4 e es hle hne ih =>
    have := ih hs.of_cons
    revert this
    cases matchAcked acked es with
    | none =>
      intro hall f hf
      rcases List.mem_cons.mp hf with rfl | hf
      · exact hne
      · exact hall f hf
    | some found =>
      rintro ⟨hser, front, rfl⟩
      exact ⟨hser, e :: front, rfl⟩

theorem Ordered.applyState (h : Ordered w) (p : Point) (m : MaximizeMode) (f s : Bool) (c : Commit) :
    Ordered (w.applyState p m f s c) := by
  unfold Window.applyState
  dsimp only
  split
  · exact h
  · refine (Ordered.doSetGeometry ?_ _).of_same rfl rfl rfl rfl rfl rfl
    split <;> exact h.of_same rfl rfl rfl rfl rfl rfl

/-- Applying an event drops it and everything before it. -/
theorem Ordered.drop (h : Ordered w) {front rest : List ConfigureEvent} {e : ConfigureEvent}
    (hp : w.pendingConfigures = front ++ e :: rest) (he : e.serial = w.ackedConfigure) :
    Ordered { w with pendingConfigures := rest, applied := w.applied ++ [e.serial] } := by
  have hsorted := h.sorted
  rw [hp] at hsorted
  have hrest : ∀ f ∈ rest, f ∈ w.pendingConfigures := by
    intro f hf
    rw [hp]
    simp [hf]
  have hbehind : ∀ f ∈ rest, e.serial < f.serial := fun f hf =>
    List.rel_of_pairwise_cons (List.pairwise_append.mp hsorted).2.1 hf
  refine { h with
    sorted := (List.pairwise_append.mp hsorted).2.1.of_cons
    pending_recorded := fun f hf => h.pending_recorded f (hrest f hf)
    pending_unapplied := ?_, unapplied_pending := ?_, applied_recorded := ?_ }
  · intro f hf a ha
    rcases List.mem_append.mp ha with ha | ha
    · exact h.pending_unapplied f (hrest f hf) a ha
    · rw [List.mem_singleton.mp ha]
      exact hbehind f hf
  · intro f hf hlt
    obtain ⟨g, hg, hk⟩ := h.unapplied_pending f hf fun a ha => hlt a (List.mem_append_left _ ha)
    have hge : e.serial < g.serial := by
      rw [show g.serial = f.serial from congrArg Prod.fst hk]
      exact hlt _ (by simp)
    refine ⟨g, ?_, hk⟩
    rw [hp] at hg
    rcases List.mem_append.mp hg with hg | hg
    · exact absurd ((List.pairwise_append.mp hsorted).2.2 g hg e (by simp)) (by omega)
    · rcases List.mem_cons.mp hg with rfl | hg
      · exact absurd hge (Nat.lt_irrefl _)
      · exact hg
  · intro a ha
    rcases List.mem_append.mp ha with ha | ha
    · exact h.applied_recorded a ha
    · obtain ⟨f, hf, hk⟩ := h.pending_recorded e (by rw [hp]; simp)
      rw [List.mem_singleton.mp ha]
      exact ⟨he.le, f, hf, congrArg Prod.fst hk⟩

theorem Ordered.applyPendingGeometry (h : Ordered w) (c : Commit) :
    Ordered (w.applyPendingGeometry c) := by
  have hspec := matchAcked_spec w.ackedConfigure h.sorted
  unfold Window.applyPendingGeometry
  split
  · exact h.applyState _ _ _ _ _
  · next e rest hm =>
    rw [hm] at hspec
    obtain ⟨he, front, hp⟩ := hspec
    exact (h.drop hp he).applyState _ _ _ _ _

/-- One event keeps the bookkeeping. -/
theorem Ordered.step (h : Ordered w) {ev : Event} {w' : Window} (hs : step w ev = some w') :
    Ordered w' := by
  cases ev with
  | update m f frame serial =>
    obtain ⟨hlt, hs⟩ := Option.ite_none_right_eq_some.mp hs
    cases hs
    refine Ordered.setFrameGeometry ?_ frame hlt
    exact h.of_same rfl rfl rfl rfl rfl rfl
  | blockGeometryUpdates block serial =>
    obtain ⟨hlt, hs⟩ := Option.ite_none_right_eq_some.mp hs
    cases hs
    exact h.blockGeometryUpdates block hlt
  | configureGeometry frame serial =>
    obtain ⟨hlt, hs⟩ := Option.ite_none_right_eq_some.mp hs
    cases hs
    exact h.configureGeometry frame hlt
  | configure serial =>
    obtain ⟨hlt, hs⟩ := Option.ite_none_right_eq_some.mp hs
    cases hs
    exact h.configure hlt
  | setMoveResize op => cases hs; exact h.of_same rfl rfl rfl rfl rfl rfl
  | setFrameMargins margins => cases hs; exact h.of_same rfl rfl rfl rfl rfl rfl
  | ack serial =>
    obtain ⟨_, hs⟩ := Option.ite_none_right_eq_some.mp hs
    cases hs
    exact h.ack serial
  | commit c => cases hs; exact h.applyPendingGeometry c

theorem Reachable.ordered {rule : Option Bool} {plasma : Bool} (h : Reachable rule plasma w) :
    Ordered w :=
  h.invariant Ordered (.initial rule plasma) fun _ _ _ ho _ hs => ho.step hs

end Window
end KWinFT.XdgShell
