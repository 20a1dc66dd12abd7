import KWinFT.Shutdown.Workspace

/-! The destructor of the workspace destroys all windows exactly when those that it finds in its loops over the windows
themselves are apart from each other. -/
namespace KWinFT.Shutdown
open Lib

/-- The capacity of a vector after some windows were destroyed, of which only those that are listed are in it. -/
def capacityThen (room : Nat → Nat) (listed : Window → Bool) : List Window → Nat → Nat → Nat
  | [], _, capacity => capacity
  | x :: l, size, capacity => capacityThen room listed l (if listed x then size else size + 1)
      (if size = capacity then size + 1 + room size else capacity)

namespace Workspace

/-- Windows are deleted once, and not while they are in the list. -/
structure Alive (w : Workspace) : Prop where
  nodup : w.windows.elements.Nodup
  alive : ∀ x ∈ w.windows.elements, x ∉ w.deleted
  deleted_nodup : w.deleted.Nodup
  no_remnant : ∀ x ∈ w.deleted, x.kind ≠ .remnant

/-- What a window leaves that was destroyed. -/
structure Destroyed (room : Nat → Nat) (w : Workspace) (x : Window) (w' : Workspace) : Prop where
  windows : w'.windows = (w.windows.pushBack room w.newRemnant).removeAll x
  deleted : w'.deleted = w.deleted ++ [x]

section destroy
variable {room : Nat → Nat} {w w' : Workspace} {x : Window}

theorem newRemnant_not_mem : w.newRemnant ∉ w.windows.elements := by
  have hbound : ∀ l : List Window, ∀ y ∈ l, y.id < (l.map (·.id + 1)).foldr max 0 := by
    intro l
    induction l with
    | nil => exact fun y hy => absurd hy List.not_mem_nil
    | cons z l ih =>
      intro y hy
      rcases List.mem_cons.mp hy with rfl | hy
      · exact Nat.lt_of_lt_of_le (Nat.lt_succ_self _) (Nat.le_max_left _ _)
      · exact Nat.lt_of_lt_of_le (ih y hy) (Nat.le_max_right _ _)
  intro hmem
  exact absurd (hbound _ _ hmem) (Nat.lt_irrefl _)

theorem createRemnant_eq :
    w.createRemnant room = some { w with windows := w.windows.pushBack room w.newRemnant } :=
  if_neg newRemnant_not_mem

theorem exists_destroyClient (hx : x ∉ w.deleted) : ∃ w', w.destroyClient room x = some w' ∧ Destroyed room w x w' := by
  unfold destroyClient
  rw [createRemnant_eq]
  exact ⟨_, if_neg hx, rfl, rfl⟩

theorem exists_destroy (hx : x ∉ w.deleted) : ∃ w', w.destroy room x = some w' ∧ Destroyed room w x w' := by
  unfold destroy
  rw [createRemnant_eq]
  exact ⟨_, if_neg hx, rfl, rfl⟩

theorem Destroyed.not_mem (h : Destroyed room w x w') : x ∉ w'.windows.elements := by
  rw [h.windows, Vec.removeAll_elements, List.mem_filter, not_and]
  exact fun _ hne => of_decide_eq_true hne rfl

theorem Destroyed.removeWindow (h : Destroyed room w x w') : w'.removeWindow x = w' := by
  unfold Workspace.removeWindow
  rw [Vec.removeAll_of_not_mem h.not_mem]

theorem Destroyed.elements (h : Destroyed room w x w') (hx : x.kind ≠ .remnant) :
    w'.windows.elements = w.windows.elements.filter (· ≠ x) ++ [w.newRemnant] := by
  have hne : w.newRemnant ≠ x := fun he => hx (he ▸ rfl)
  rw [h.windows, Vec.removeAll_elements, Vec.pushBack_elements, List.filter_append]
  simp [hne]

theorem Destroyed.length (h : Destroyed room w x w') (hw : Alive w) (hx : x.kind ≠ .remnant) :
    w'.windows.elements.length =
      if decide (x ∈ w.windows.elements) then w.windows.elements.length else w.windows.elements.length + 1 := by
  have herase : w.windows.elements.filter (· ≠ x) = w.windows.elements.erase x := by
    rw [hw.nodup.erase_eq_filter]
    exact List.filter_congr fun y _ => Bool.eq_iff_iff.mpr (by simp)
  rw [h.elements hx, List.length_append, List.length_singleton, herase, List.length_erase]
  split
  · next hmem =>
    have := List.length_pos_of_mem hmem
    rw [if_pos (decide_eq_true hmem)]
    omega
  · next hmem => rw [if_neg (by simpa using hmem)]

theorem Destroyed.alive (h : Destroyed room w x w') (hw : Alive w) (hx : x.kind ≠ .remnant) (hdeleted : x ∉ w.deleted) :
    Alive w' where
  nodup := by
    rw [h.elements hx, ← List.concat_eq_append]
    exact (hw.nodup.filter _).concat fun hmem => newRemnant_not_mem (List.mem_of_mem_filter hmem)
  alive y hy := by
    rw [h.deleted, List.mem_append, List.mem_singleton, not_or]
    refine ⟨?_, fun he => h.not_mem (he ▸ hy)⟩
    rw [h.elements hx, List.mem_append, List.mem_singleton] at hy
    rcases hy with hy | rfl
    · exact hw.alive y (List.mem_of_mem_filter hy)
    · exact fun hmem => hw.no_remnant _ hmem rfl
  deleted_nodup := by
    rw [h.deleted, ← List.concat_eq_append]
    exact hw.deleted_nodup.concat hdeleted
  no_remnant y hy := by
    rw [h.deleted, List.mem_append, List.mem_singleton] at hy
    rcases hy with hy | rfl
    · exact hw.no_remnant y hy
    · exact hx

/-- The loops over the windows themselves, as loops that take windows of their kind and get remnants instead. -/
theorem destroyIf_replaces {kind : Kind} (hkind : kind ≠ .remnant) {destroy : Window → Workspace → Option Workspace}
    (hdestroy : ∀ w x, x ∉ w.deleted → ∃ w', destroy x w = some w' ∧ Destroyed room w x w') :
    Vec.Replaces (·.windows) (destroyIf kind destroy) (·.kind = kind) (·.kind = .remnant) (·.deleted) Alive where
  new_neg r hr hp := hkind ((of_decide_eq_true hp).symm.trans hr)
  nodup _ hw := hw.nodup
  skip x w hw hx hp := by
    have hcast : w.qobjectCast x kind = some false := by
      unfold qobjectCast
      rw [if_neg (hw.alive x hx)]
      simpa using hp
    rw [destroyIf, hcast]
    rfl
  take x w hw hx hp := by
    have hdeleted := hw.alive x hx
    have hkindx : x.kind = kind := of_decide_eq_true hp
    have hremnant : x.kind ≠ .remnant := hkindx ▸ hkind
    have hcast : w.qobjectCast x kind = some true := by
      unfold qobjectCast
      rw [if_neg hdeleted, hkindx, decide_eq_true rfl]
    obtain ⟨w', hw', h⟩ := hdestroy w x hdeleted
    have helements := h.elements hremnant
    refine ⟨w', w.newRemnant, ?_, h.alive hw hremnant hdeleted, ?_, helements, ?_, ?_, h.deleted⟩
    · rw [destroyIf, hcast, Option.bind_some, if_pos rfl, hw', Option.map_some, h.removeWindow]
    · rfl
    · rw [Ne, Vec.spare_eq_nil_iff, helements, h.windows, Vec.removeAll_capacity]
      have hlen : (w.windows.elements.filter (· ≠ x)).length < w.windows.elements.length :=
        List.length_filter_lt_length_iff_exists.mpr ⟨x, hx, by simp⟩
      have hcap : w.windows.elements.length < (w.windows.pushBack room w.newRemnant).capacity := Vec.lt_pushBack_capacity
      rw [List.length_append, List.length_singleton]
      omega
    · rw [h.windows, Vec.removeAll_moves, Vec.pushBack_moves]

end destroy

section copies
variable {room : Nat → Nat} {w : Workspace} {l : List Window} {x : Window}

/-- What a loop over a copy of a list leaves that only deletes its windows. -/
structure Deleted (w : Workspace) (l : List Window) (w' : Workspace) : Prop where
  alive : Alive w'
  elements : w'.windows.elements = w.windows.elements.filter (· ∉ l)
  capacity : w'.windows.capacity = w.windows.capacity
  deleted : w'.deleted = w.deleted ++ l
  waylandWindows : w'.waylandWindows = w.waylandWindows

private theorem Deleted.nil (hw : Alive w) : Deleted w [] w :=
  ⟨hw, by simp, rfl, (List.append_nil _).symm, rfl⟩

private theorem Deleted.append {w₁ w₂ : Workspace} {l' : List Window} (h : Deleted w l w₁) (h' : Deleted w₁ l' w₂) :
    Deleted w (l ++ l') w₂ where
  alive := h'.alive
  elements := by
    rw [h'.elements, h.elements, List.filter_filter]
    refine List.filter_congr fun x _ => ?_
    rw [← Bool.decide_and, decide_eq_decide, List.mem_append, not_or, and_comm]
  capacity := h'.capacity.trans h.capacity
  deleted := by rw [h'.deleted, h.deleted, List.append_assoc]
  waylandWindows := h'.waylandWindows.trans h.waylandWindows

private theorem exists_deleted (hw : Alive w) (hx : x ∉ w.deleted) (hkind : x.kind ≠ .remnant) :
    ∃ w', (w.delete x).map (·.removeWindow x) = some w' ∧ Deleted w [x] w' := by
  have hdelete : w.delete x = some { w with deleted := w.deleted ++ [x] } := if_neg hx
  rw [hdelete]
  refine ⟨_, rfl, ⟨hw.nodup.filter _, fun y hy => ?_, ?_, fun y hy => ?_⟩, ?_, Vec.removeAll_capacity, rfl, rfl⟩
  · obtain ⟨hy, hne⟩ := List.mem_filter.mp hy
    exact fun hmem => (List.mem_append.mp hmem).elim (hw.alive y hy)
      fun hmem => of_decide_eq_true hne (List.mem_singleton.mp hmem)
  · exact List.concat_eq_append ▸ hw.deleted_nodup.concat hx
  · rcases List.mem_append.mp hy with hy | hy
    · exact hw.no_remnant y hy
    · exact List.mem_singleton.mp hy ▸ hkind
  · exact List.filter_congr fun y _ => by rw [decide_eq_decide, List.mem_singleton]

/-- A loop over a copy deletes all of it that it is to delete. -/
private theorem foldlM_deleted {body : Workspace → Window → Option Workspace} {p : Window → Bool}
    (hbody : ∀ w x, Alive w → x ∈ l → x ∉ w.deleted →
      ∃ w', body w x = some w' ∧ Deleted w (if p x then [x] else []) w')
    (hw : Alive w) (hl : l.Nodup) (hdeleted : ∀ x ∈ l, x ∉ w.deleted) :
    ∃ w', l.foldlM body w = some w' ∧ Deleted w (l.filter p) w' := by
  induction l generalizing w with
  | nil => exact ⟨w, rfl, .nil hw⟩
  | cons x l ih =>
    obtain ⟨hx, hl⟩ := List.nodup_cons.mp hl
    obtain ⟨w₁, h₁, hdel₁⟩ := hbody w x hw List.mem_cons_self (hdeleted x List.mem_cons_self)
    have hrest : ∀ y ∈ l, y ∉ w₁.deleted := by
      intro y hy hmem
      rw [hdel₁.deleted, List.mem_append] at hmem
      rcases hmem with hmem | hmem
      · exact hdeleted y (List.mem_cons_of_mem x hy) hmem
      · split at hmem
        · exact hx (List.mem_singleton.mp hmem ▸ hy)
        · cases hmem
    obtain ⟨w', hrun, hdel⟩ := ih (fun w y hw hy => hbody w y hw (List.mem_cons_of_mem x hy)) hdel₁.alive hl hrest
    refine ⟨w', by rw [List.foldlM_cons, h₁]; exact hrun, ?_⟩
    have := hdel₁.append hdel
    rw [List.filter_cons]
    split at this
    · next hp => rwa [if_pos hp]
    · next hp => rwa [if_neg hp]

theorem exists_releaseWindows (hw : Alive w) (hl : w.stackingOrder.Nodup) (hdeleted : w.deleted = []) :
    ∃ w', w.releaseWindows = some w' ∧ Deleted w (w.stackingOrder.filter (·.kind = .x11)) w' := by
  have hstart : Alive { w with stackingOrder := [] } := ⟨hw.nodup, hw.alive, hw.deleted_nodup, hw.no_remnant⟩
  have hbody : ∀ w x, Alive w → x ∉ w.deleted → ∃ w', ((w.qobjectCast x .x11).bind fun isX11 =>
      if isX11 then (w.releaseWindow x).map (·.removeWindow x) else some w) = some w' ∧
        Deleted w (if decide (x.kind = .x11) then [x] else []) w' := by
    intro w x hw hx
    have hcast : w.qobjectCast x .x11 = some (decide (x.kind = .x11)) := if_neg hx
    rw [hcast, Option.bind_some]
    split
    · next hkind => exact exists_deleted hw hx (of_decide_eq_true hkind ▸ by decide)
    · exact ⟨w, rfl, .nil hw⟩
  obtain ⟨w', hrun, hdel⟩ := foldlM_deleted (fun w x hw _ hx => hbody w x hw hx) hstart hl fun x _ hmem => by
    rw [hdeleted] at hmem
    cases hmem
  exact ⟨w', hrun, hdel.alive, hdel.elements, hdel.capacity, hdel.deleted, hdel.waylandWindows⟩

theorem exists_releaseUnmanagedWindows (hw : Alive w) :
    ∃ w', w.releaseUnmanagedWindows = some w' ∧ Deleted w w.unmanagedList w' := by
  have hbody : ∀ w₁ x, Alive w₁ → x ∈ w.unmanagedList → x ∉ w₁.deleted →
      ∃ w', (w₁.releaseUnmanaged x).map (·.removeWindow x) = some w' ∧ Deleted w₁ (if true then [x] else []) w' := by
    intro w₁ x hw₁ hx hdeleted
    have hkind : x.kind = .unmanaged := of_decide_eq_true (List.mem_filter.mp hx).2
    exact exists_deleted hw₁ hdeleted (hkind ▸ by decide)
  obtain ⟨w', hrun, hdel⟩ := foldlM_deleted hbody hw (hw.nodup.filter _) fun x hx => hw.alive x (List.mem_of_mem_filter hx)
  rw [List.filter_true] at hdel
  exact ⟨w', hrun, hdel⟩

private theorem capacityThen_congr {listed listed' : Window → Bool} (h : ∀ x ∈ l, listed x = listed' x)
    {size capacity : Nat} : capacityThen room listed l size capacity = capacityThen room listed' l size capacity := by
  induction l generalizing size capacity with
  | nil => rfl
  | cons x l ih =>
    rw [capacityThen, capacityThen, h x List.mem_cons_self, ih fun y hy => h y (List.mem_cons_of_mem x hy)]

/-- What the loop over the server's windows leaves. -/
structure Served (room : Nat → Nat) (w : Workspace) (l : List Window) (w' : Workspace) : Prop where
  alive : Alive w'
  elements : ∃ remnants, remnants.length = l.length ∧ (∀ r ∈ remnants, r.kind = .remnant) ∧
    w'.windows.elements = w.windows.elements.filter (· ∉ l) ++ remnants
  capacity : w'.windows.capacity =
    capacityThen room (· ∈ w.windows.elements) l w.windows.elements.length w.windows.capacity
  deleted : w'.deleted = w.deleted ++ l

private theorem foldlM_served (room : Nat → Nat) (hw : Alive w) (hl : l.Nodup) (hkind : ∀ x ∈ l, x.kind = .wayland)
    (hdeleted : ∀ x ∈ l, x ∉ w.deleted) :
    ∃ w', l.foldlM (fun w win => (w.destroy room win).map (·.removeWindow win)) w = some w' ∧ Served room w l w' := by
  induction l generalizing w with
  | nil => exact ⟨w, rfl, hw, ⟨[], rfl, List.forall_mem_nil _, by simp⟩, rfl, (List.append_nil _).symm⟩
  | cons x l ih =>
    obtain ⟨hx, hl⟩ := List.nodup_cons.mp hl
    have hxkind : x.kind ≠ .remnant := hkind x List.mem_cons_self ▸ by decide
    have hxdeleted := hdeleted x List.mem_cons_self
    obtain ⟨w₁, h₁, hd⟩ : ∃ w₁, w.destroy room x = some w₁ ∧ Destroyed room w x w₁ := exists_destroy hxdeleted
    have helements := hd.elements hxkind
    have hrest : ∀ y ∈ l, y ∉ w₁.deleted := by
      intro y hy hmem
      rw [hd.deleted, List.mem_append, List.mem_singleton] at hmem
      rcases hmem with hmem | rfl
      · exact hdeleted y (List.mem_cons_of_mem x hy) hmem
      · exact hx hy
    obtain ⟨w', hrun, halive, ⟨remnants, hlen, hremnants, helements'⟩, hcapacity, hdeleted'⟩ :=
      ih (hd.alive hw hxkind hxdeleted) hl (fun y hy => hkind y (List.mem_cons_of_mem x hy)) hrest
    refine ⟨w', ?_, halive, ⟨w.newRemnant :: remnants, ?_, ?_, ?_⟩, ?_, ?_⟩
    · rw [List.foldlM_cons, h₁, Option.map_some, hd.removeWindow]
      exact hrun
    · rw [List.length_cons, List.length_cons, hlen]
    · exact List.forall_mem_cons.mpr ⟨rfl, hremnants⟩
    · have hnew : w.newRemnant ∉ l := fun hmem => by cases hkind _ (List.mem_cons_of_mem x hmem)
      have hboth : (w.windows.elements.filter (· ≠ x)).filter (· ∉ l) = w.windows.elements.filter (· ∉ x :: l) := by
        rw [List.filter_filter]
        refine List.filter_congr fun y _ => ?_
        rw [← Bool.decide_and, decide_eq_decide, List.mem_cons, not_or, and_comm]
      have hone : [w.newRemnant].filter (· ∉ l) = [w.newRemnant] := List.filter_cons_of_pos (by simpa using hnew)
      rw [helements', helements, List.filter_append, hboth, hone, List.append_assoc]
      rfl
    · have hlisted : ∀ y ∈ l, decide (y ∈ w₁.windows.elements) = decide (y ∈ w.windows.elements) := by
        intro y hy
        have hyx : y ≠ x := fun he => hx (he ▸ hy)
        have hnew : y ≠ w.newRemnant := fun he => by cases he ▸ hkind y (List.mem_cons_of_mem x hy)
        rw [decide_eq_decide, helements, List.mem_append, List.mem_filter, List.mem_singleton, or_iff_left hnew]
        exact and_iff_left (decide_eq_true hyx)
      rw [hcapacity, capacityThen_congr hlisted, hd.length hw hxkind, hd.windows, Vec.removeAll_capacity,
        Vec.pushBack_capacity, capacityThen]
    · rw [hdeleted', hd.deleted, List.append_assoc]
      rfl

end copies

/-- What the loops over the windows themselves have to do with, but for remnants that come behind: the X11 windows, the
unmanaged ones and those that the server knows are gone. -/
def left (w : Workspace) : List Window :=
  w.windows.elements.filter fun x =>
    x.kind = .internal ∨ x.kind = .remnant ∨ x.kind = .wayland ∧ x ∉ w.waylandWindows

/-- No place is left in the buffer by then. -/
def Full (room : Nat → Nat) (w : Workspace) : Prop :=
  capacityThen room (· ∈ w.windows.elements) w.waylandWindows (w.windows.elements.filter (·.kind ≠ .x11)).length
    w.windows.capacity = w.left.length + w.waylandWindows.length

/-- The first one that these loops destroy. -/
def firstLeft (w : Workspace) : Option Window :=
  (w.left.filter (·.kind = .internal) ++ w.left.filter (·.kind = .wayland)).head?

/-- Neither internal windows nor, without these, Wayland windows are neighbours among what is left, and with no place in
the buffer the first one that is destroyed is the last of all. -/
structure Spaced (room : Nat → Nat) (w : Workspace) : Prop where
  internal : w.left.IsChain fun a b => ¬ (a.kind = .internal ∧ b.kind = .internal)
  wayland : (w.left.filter (·.kind ≠ .internal)).IsChain fun a b => ¬ (a.kind = .wayland ∧ b.kind = .wayland)
  last : w.Full room → ∀ x ∈ w.firstLeft, w.waylandWindows = [] ∧ w.left.getLast? = some x

/-- What the destructor is to do before its last loop. -/
structure Released (w w' : Workspace) : Prop where
  once : ∀ x ∈ w.windows.elements, x.kind = .internal ∨ x.kind = .wayland → w'.deleted.count x = 1
  remnants : ∀ x ∈ w'.windows.elements, x.kind = .remnant

theorem eraseRemnants_isSome_iff {l : List Window} : (eraseRemnants l).isSome ↔ ∀ x ∈ l, x.kind = .remnant := by
  induction l with
  | nil => simp [eraseRemnants]
  | cons x l ih =>
    rw [eraseRemnants, List.forall_mem_cons, ← ih]
    split
    · next hx => rw [and_iff_right hx]
    · next hx => exact iff_of_false (by simp) fun h => hx h.1

end Workspace

namespace Running
open Workspace
variable {room : Nat → Nat} (w : Running)

private theorem alive : Alive w.toWorkspace where
  nodup := w.windows_nodup
  alive x _ := by rw [w.nothing_deleted]; exact List.not_mem_nil
  deleted_nodup := by rw [w.nothing_deleted]; exact List.nodup_nil
  no_remnant x hx := by rw [w.nothing_deleted] at hx; cases hx

/-- What the loops over copies leave. -/
private structure Copied (room : Nat → Nat) (w : Running) (w' : Workspace) : Prop where
  alive : Alive w'
  elements : ∃ remnants, remnants.length = w.waylandWindows.length ∧ (∀ r ∈ remnants, r.kind = .remnant) ∧
    w'.windows.elements = w.left ++ remnants
  full : w'.windows.spare = [] ↔ w.Full room
  deleted : ∀ x, x.kind = .internal ∨ x.kind = .wayland → (x ∈ w'.deleted ↔ x ∈ w.waylandWindows)

private theorem exists_copied (room : Nat → Nat) : ∃ w', (∀ f : Workspace → Option Workspace, (w.releaseWindows.bind fun w =>
    (w.destroyWaylandWindows room).bind fun w => w.releaseUnmanagedWindows.bind f) = f w') ∧ Copied room w w' := by
  obtain ⟨w₁, h₁, hd₁⟩ := exists_releaseWindows w.alive w.stackingOrder_nodup w.nothing_deleted
  have hfree : ∀ x ∈ w₁.waylandWindows, x ∉ w₁.deleted := by
    intro x hx hmem
    rw [hd₁.waylandWindows] at hx
    rw [hd₁.deleted, w.nothing_deleted, List.nil_append, List.mem_filter] at hmem
    cases (w.waylandWindows_kind x hx).symm.trans (of_decide_eq_true hmem.2)
  obtain ⟨w₂, h₂, hs₂⟩ := foldlM_served room hd₁.alive (hd₁.waylandWindows ▸ w.waylandWindows_nodup)
    (hd₁.waylandWindows ▸ w.waylandWindows_kind) hfree
  obtain ⟨w₃, h₃, hd₃⟩ := exists_releaseUnmanagedWindows hs₂.alive
  obtain ⟨remnants, hlen, hremnants, helements₂⟩ := hs₂.elements
  rw [hd₁.waylandWindows] at hlen helements₂
  have helements₁ : w₁.windows.elements = w.windows.elements.filter (·.kind ≠ .x11) := by
    rw [hd₁.elements]
    refine List.filter_congr fun x hx => decide_eq_decide.mpr (not_congr ?_)
    rw [List.mem_filter, decide_eq_true_iff]
    exact ⟨fun h => h.2, fun h => ⟨w.x11_mem_stackingOrder x hx h, h⟩⟩
  have helements₃ : w₃.windows.elements = w.left ++ remnants := by
    have hmanaged : w₃.windows.elements = w₂.windows.elements.filter (·.kind ≠ .unmanaged) := by
      rw [hd₃.elements]
      refine List.filter_congr fun x hx => decide_eq_decide.mpr (not_congr ?_)
      rw [unmanagedList, List.mem_filter, decide_eq_true_iff, and_iff_right hx]
    have hremain : remnants.filter (·.kind ≠ .unmanaged) = remnants :=
      List.filter_eq_self.mpr fun r hr => by rw [hremnants r hr]; decide
    rw [hmanaged, helements₂, helements₁, List.filter_append, hremain, List.filter_filter, List.filter_filter, left]
    congr 1
    refine List.filter_congr fun x _ => ?_
    rw [← Bool.decide_and, ← Bool.decide_and, decide_eq_decide]
    have hwayland : x ∈ w.waylandWindows → x.kind = .wayland := w.waylandWindows_kind x
    cases hkind : x.kind <;> simp [hkind] at hwayland ⊢ <;> exact hwayland
  refine ⟨w₃, fun f => ?_, hd₃.alive, ⟨remnants, hlen, hremnants, helements₃⟩, ?_, fun x hx => ?_⟩
  · have h₂' : w₁.destroyWaylandWindows room = some w₂ := h₂
    rw [h₁, Option.bind_some, h₂', Option.bind_some, h₃, Option.bind_some]
  · have hlisted : ∀ x ∈ w.waylandWindows, decide (x ∈ w₁.windows.elements) = decide (x ∈ w.windows.elements) := by
      intro x hx
      rw [decide_eq_decide, helements₁, List.mem_filter]
      exact and_iff_left (decide_eq_true (w.waylandWindows_kind x hx ▸ by decide))
    rw [Vec.spare_eq_nil_iff, hd₃.capacity, hs₂.capacity, hd₁.waylandWindows, capacityThen_congr hlisted, hd₁.capacity,
      helements₁, helements₃, List.length_append, hlen, Full, eq_comm]
  · rw [hd₃.deleted, hs₂.deleted, hd₁.deleted, w.nothing_deleted, hd₁.waylandWindows, List.nil_append, List.mem_append,
      List.mem_append, List.mem_filter]
    have hx11 : ¬ decide (x.kind = .x11) = true := by rcases hx with hx | hx <;> rw [hx] <;> decide
    have hunmanaged : x ∉ w₂.unmanagedList := by
      rw [unmanagedList, List.mem_filter]
      rcases hx with hx | hx <;> rw [hx] <;> exact fun h => absurd h.2 (by decide)
    simp only [hx11, Bool.false_eq_true, hunmanaged, and_false, false_or, or_false]

private theorem kinds_iff {kind : Kind} {l : List Window} : (l.IsChain fun a b =>
    ¬ (decide (a.kind = kind) = true ∧ decide (b.kind = kind) = true)) ↔ l.IsChain fun a b => ¬ (a.kind = kind ∧ b.kind = kind) := by
  simp only [decide_eq_true_iff]

/-- The last one of what is left and of remnants behind it. -/
private theorem getLast?_left {l remnants : List Window} (hremnants : ∀ r ∈ remnants, r.kind = .remnant) {x : Window}
    (hx : x.kind ≠ .remnant) : (l ++ remnants).getLast? = some x ↔ remnants = [] ∧ l.getLast? = some x := by
  rcases List.eq_nil_or_concat remnants with rfl | ⟨front, r, rfl⟩
  · simp
  · rw [List.concat_eq_append, ← List.append_assoc, List.getLast?_concat]
    have hr : r ≠ x := fun he => hx (he ▸ hremnants r (by simp))
    simp [hr]

variable {w} {w₃ w₄ w' : Workspace} {kind : Kind}

private theorem filter_remnants {l remnants : List Window} (hremnants : ∀ r ∈ remnants, r.kind = .remnant)
    (hkind : kind ≠ .remnant) : (l ++ remnants).filter (·.kind = kind) = l.filter (·.kind = kind) := by
  have hnone : remnants.filter (·.kind = kind) = [] :=
    List.filter_eq_nil_iff.mpr fun r hr => by simpa [hremnants r hr] using hkind.symm
  rw [List.filter_append, hnone, List.append_nil]

private theorem Copied.last_iff (h : Copied room w w₃) (hkind : kind ≠ .remnant) :
    (w₃.windows.spare = [] → ∀ x ∈ (w₃.windows.elements.filter (·.kind = kind)).head?,
      w₃.windows.elements.getLast? = some x) ↔
    (w.Full room → ∀ x ∈ (w.left.filter (·.kind = kind)).head?, w.waylandWindows = [] ∧ w.left.getLast? = some x) := by
  obtain ⟨remnants, hlen, hremnants, helements⟩ := h.elements
  have hnil : remnants = [] ↔ w.waylandWindows = [] := by
    rw [← List.length_eq_zero_iff, hlen, List.length_eq_zero_iff]
  rw [h.full, helements, filter_remnants hremnants hkind]
  refine imp_congr_right fun _ => forall₂_congr fun x hx => ?_
  have hx : x.kind = kind := of_decide_eq_true (List.mem_filter.mp (List.mem_of_mem_head? hx)).2
  rw [getLast?_left hremnants (hx ▸ hkind), hnil]

private theorem Copied.apart_iff (h : Copied room w w₃) (hkind : kind ≠ .remnant) :
    (w₃.windows.elements.IsChain fun a b => ¬ (decide (a.kind = kind) = true ∧ decide (b.kind = kind) = true)) ↔
      w.left.IsChain fun a b => ¬ (a.kind = kind ∧ b.kind = kind) := by
  obtain ⟨remnants, -, hremnants, helements⟩ := h.elements
  rw [helements, Vec.isChain_append_neg fun r hr => by simpa [hremnants r hr] using hkind.symm, kinds_iff]

private theorem Copied.loopable_internal_iff (h : Copied room w w₃) : Vec.Loopable (·.kind = .internal) w₃.windows ↔
    (w.left.IsChain fun a b => ¬ (a.kind = .internal ∧ b.kind = .internal)) ∧
      (w.Full room → ∀ x ∈ (w.left.filter (·.kind = .internal)).head?,
        w.waylandWindows = [] ∧ w.left.getLast? = some x) := by
  rw [← h.apart_iff (by decide), ← h.last_iff (by decide)]
  exact ⟨fun h => ⟨h.apart, h.last⟩, fun h => ⟨h.1, h.2⟩⟩

private theorem Copied.loopable_wayland_iff (h : Copied room w w₃)
    (hr : Vec.Replaced (·.windows) (·.kind = .internal) (·.kind = .remnant) (·.deleted) Alive w₃ w₄) :
    Vec.Loopable (·.kind = .wayland) w₄.windows ↔
    ((w.left.filter (·.kind ≠ .internal)).IsChain fun a b => ¬ (a.kind = .wayland ∧ b.kind = .wayland)) ∧
      (w.left.filter (·.kind = .internal) = [] → w.Full room → ∀ x ∈ (w.left.filter (·.kind = .wayland)).head?,
        w.waylandWindows = [] ∧ w.left.getLast? = some x) := by
  obtain ⟨remnants, -, hremnants, helements⟩ := h.elements
  have hnone_iff : (∀ x ∈ w₃.windows.elements, ¬ decide (x.kind = .internal) = true) ↔
      w.left.filter (·.kind = .internal) = [] := by
    rw [← filter_remnants hremnants (by decide), ← helements, List.filter_eq_nil_iff]
  rcases hr.spare with ⟨hnone, rfl⟩ | ⟨hsome, hspare⟩
  · have hall : w.left.filter (·.kind ≠ .internal) = w.left :=
      List.filter_eq_self.mpr fun x hx => by
        simpa using hnone x (helements ▸ List.mem_append_left _ hx)
    rw [hall, ← h.apart_iff (by decide), imp_iff_right (hnone_iff.mp hnone), ← h.last_iff (by decide)]
    exact ⟨fun h => ⟨h.apart, h.last⟩, fun h => ⟨h.1, h.2⟩⟩
  · have hne : w.left.filter (·.kind = .internal) ≠ [] := fun hnil => by
      obtain ⟨x, hx, hp⟩ := hsome
      exact hnone_iff.mpr hnil x hx hp
    obtain ⟨added, hadded, helements₄⟩ := hr.elements
    have hapart : (w₄.windows.elements.IsChain fun a b =>
        ¬ (decide (a.kind = .wayland) = true ∧ decide (b.kind = .wayland) = true)) ↔
        (w.left.filter (·.kind ≠ .internal)).IsChain fun a b => ¬ (a.kind = .wayland ∧ b.kind = .wayland) := by
      have hno : ∀ l : List Window, (∀ r ∈ l, r.kind = .remnant) → ∀ r ∈ l, ¬ decide (r.kind = .wayland) = true :=
        fun l hl r hr => by simp [hl r hr]
      have hfilter : w₃.windows.elements.filter (fun x => decide ¬ decide (x.kind = .internal) = true) =
          w.left.filter (·.kind ≠ .internal) ++ remnants.filter (·.kind ≠ .internal) := by
        rw [helements, List.filter_append]
        simp
      rw [helements₄, hfilter, Vec.isChain_append_neg (hno added hadded),
        Vec.isChain_append_neg (hno _ fun r hr => hremnants r (List.mem_of_mem_filter hr)), kinds_iff]
    rw [← hapart]
    exact ⟨fun h => ⟨h.apart, fun hnil => absurd hnil hne⟩, fun h => ⟨h.1, fun hfull => absurd hfull hspare⟩⟩

private theorem spaced_iff : w.Spaced room ↔
    ((w.left.IsChain fun a b => ¬ (a.kind = .internal ∧ b.kind = .internal)) ∧
      (w.Full room → ∀ x ∈ (w.left.filter (·.kind = .internal)).head?,
        w.waylandWindows = [] ∧ w.left.getLast? = some x)) ∧
    ((w.left.filter (·.kind ≠ .internal)).IsChain fun a b => ¬ (a.kind = .wayland ∧ b.kind = .wayland)) ∧
      (w.left.filter (·.kind = .internal) = [] → w.Full room → ∀ x ∈ (w.left.filter (·.kind = .wayland)).head?,
        w.waylandWindows = [] ∧ w.left.getLast? = some x) := by
  have hfirst : (∀ x ∈ w.firstLeft, w.waylandWindows = [] ∧ w.left.getLast? = some x) ↔
      (∀ x ∈ (w.left.filter (·.kind = .internal)).head?, w.waylandWindows = [] ∧ w.left.getLast? = some x) ∧
        (w.left.filter (·.kind = .internal) = [] → ∀ x ∈ (w.left.filter (·.kind = .wayland)).head?,
          w.waylandWindows = [] ∧ w.left.getLast? = some x) := by
    unfold firstLeft
    cases w.left.filter (·.kind = .internal) <;> simp
  constructor
  · rintro ⟨hinternal, hwayland, hlast⟩
    exact ⟨⟨hinternal, fun hfull => (hfirst.mp (hlast hfull)).1⟩, hwayland,
      fun hnone hfull => (hfirst.mp (hlast hfull)).2 hnone⟩
  · rintro ⟨⟨hinternal, hlast⟩, hwayland, hlast'⟩
    exact ⟨hinternal, hwayland, fun hfull => hfirst.mpr ⟨hlast hfull, fun hnone => hlast' hnone hfull⟩⟩

private theorem internal_replaces (room : Nat → Nat) :
    Vec.Replaces (·.windows) (destroyIf .internal fun internal w => w.destroyClient room internal)
      (·.kind = .internal) (·.kind = .remnant) (·.deleted) Alive :=
  destroyIf_replaces (by decide) fun _ _ => exists_destroyClient

private theorem wayland_replaces (room : Nat → Nat) :
    Vec.Replaces (·.windows) (destroyIf .wayland fun win w => w.destroy room win)
      (·.kind = .wayland) (·.kind = .remnant) (·.deleted) Alive :=
  destroyIf_replaces (by decide) fun _ _ => exists_destroy

private theorem Copied.listed (h : Copied room w w₃) {x : Window} (hx : x ∈ w₃.windows.elements)
    (hkind : x.kind ≠ .remnant) : x ∈ w.windows.elements := by
  obtain ⟨remnants, -, hremnants, helements⟩ := h.elements
  rw [helements, List.mem_append] at hx
  exact hx.elim List.mem_of_mem_filter fun hx => absurd (hremnants x hx) hkind

/-- Both loops served all windows of their kind if each of these was deleted once. -/
private theorem Copied.loopable_of_released (hc : Copied room w w₃)
    (h₄ : Vec.forEach (·.windows) (destroyIf .internal fun internal w => w.destroyClient room internal) w₃ = some w₄)
    (h₅ : Vec.forEach (·.windows) (destroyIf .wayland fun win w => w.destroy room win) w₄ = some w')
    (hrel : Released w.toWorkspace w') : Vec.Loopable (·.kind = .internal) w₃.windows ∧
      Vec.Loopable (·.kind = .wayland) w₄.windows := by
  obtain ⟨halive₄, -⟩ := (internal_replaces room).gone_of_forEach hc.alive h₄
  obtain ⟨-, l, hl, hkinds⟩ := (wayland_replaces room).gone_of_forEach halive₄ h₅
  have hdeleted : ∀ x ∈ w.windows.elements, x.kind = .internal ∨ x.kind = .wayland → x ∈ w'.deleted := fun x hx hkind =>
    List.count_pos_iff.mp (by rw [hrel.once x hx hkind]; exact Nat.one_pos)
  have hloop : Vec.Loopable (·.kind = .internal) w₃.windows := by
    refine (internal_replaces room).loopable hc.alive h₄ (fun x hx hmem => hc.alive.alive x hmem hx) fun x hx hp => ?_
    have hkind := of_decide_eq_true hp
    have hmem := hdeleted x (hc.listed hx (hkind ▸ by decide)) (.inl hkind)
    rw [hl, List.mem_append] at hmem
    exact hmem.resolve_right fun hmem => by cases hkind.symm.trans (of_decide_eq_true (hkinds x hmem))
  refine ⟨hloop, ?_⟩
  obtain ⟨w₄', h₄', hr⟩ := (internal_replaces room).exists_forEach hc.alive hloop
  cases h₄.symm.trans h₄'
  refine (wayland_replaces room).loopable halive₄ h₅ (fun x hx hmem => halive₄.alive x hmem hx) fun x hx hp => ?_
  have hkind := of_decide_eq_true hp
  obtain ⟨added, hadded, helements₄⟩ := hr.elements
  rw [helements₄, List.mem_append] at hx
  rcases hx with hx | hx
  · exact hdeleted x (hc.listed (List.mem_of_mem_filter hx) (hkind ▸ by decide)) (.inr hkind)
  · cases hkind.symm.trans (hadded x hx)

/-- What both loops leave that served all windows of their kind. -/
private theorem Copied.released (hc : Copied room w w₃)
    (hr : Vec.Replaced (·.windows) (·.kind = .internal) (·.kind = .remnant) (·.deleted) Alive w₃ w₄)
    (hr' : Vec.Replaced (·.windows) (·.kind = .wayland) (·.kind = .remnant) (·.deleted) Alive w₄ w') :
    Released w.toWorkspace w' := by
  obtain ⟨remnants, -, hremnants, helements⟩ := hc.elements
  obtain ⟨added, hadded, helements₄⟩ := hr.elements
  obtain ⟨added', hadded', helements'⟩ := hr'.elements
  refine ⟨fun x hx hkind => ?_, fun x hx => ?_⟩
  · refine List.count_eq_one_of_mem hr'.inv.deleted_nodup ?_
    rw [hr'.gone, hr.gone]
    by_cases hserved : x ∈ w.waylandWindows
    · exact List.mem_append_left _ (List.mem_append_left _ ((hc.deleted x hkind).mpr hserved))
    have hx₃ : x ∈ w₃.windows.elements :=
      helements ▸ List.mem_append_left _ (List.mem_filter.mpr ⟨hx, by rcases hkind with h | h <;> simp [h, hserved]⟩)
    rcases hkind with hkind | hkind
    · exact List.mem_append_left _ (List.mem_append_right _ (List.mem_filter.mpr ⟨hx₃, decide_eq_true hkind⟩))
    · refine List.mem_append_right _ (List.mem_filter.mpr ⟨?_, decide_eq_true hkind⟩)
      exact helements₄ ▸ List.mem_append_left _ (List.mem_filter.mpr ⟨hx₃, by simp [hkind]⟩)
  · rw [helements', List.mem_append, List.mem_filter, helements₄, List.mem_append, List.mem_filter, helements,
      List.mem_append, left, List.mem_filter] at hx
    rcases hx with ⟨⟨⟨-, hkind⟩ | hx, hinternal⟩ | hx, hwayland⟩ | hx
    · have hkind := of_decide_eq_true hkind
      simp only [decide_eq_true_iff] at hinternal hwayland
      exact (hkind.resolve_left hinternal).resolve_right fun h => hwayland h.1
    · exact hremnants x hx
    · exact hadded x hx
    · exact hadded' x hx

/-- The destructor destroys each internal and each Wayland window once and finds only remnants in its last loop exactly
when the windows that its loops over the list find are spaced. -/
theorem releaseAll_iff (room : Nat → Nat) (w : Running) :
    (∃ w', w.releaseAll room = some w' ∧ Released w.toWorkspace w' ∧ (eraseRemnants w'.windows.elements).isSome) ↔
      w.Spaced room := by
  obtain ⟨w₃, hsteps, hc⟩ := w.exists_copied room
  rw [releaseAll, hsteps, spaced_iff, ← hc.loopable_internal_iff]
  constructor
  · rintro ⟨w', hrun, hrel, -⟩
    obtain ⟨w₄, h₄, h₅⟩ := Option.bind_eq_some_iff.mp hrun
    obtain ⟨hloop, hloop'⟩ := hc.loopable_of_released h₄ h₅ hrel
    obtain ⟨w₄', h₄', hr⟩ := (internal_replaces room).exists_forEach hc.alive hloop
    cases h₄.symm.trans h₄'
    exact ⟨hloop, (hc.loopable_wayland_iff hr).mp hloop'⟩
  · rintro ⟨hloop, hspaced⟩
    obtain ⟨w₄, h₄, hr⟩ := (internal_replaces room).exists_forEach hc.alive hloop
    obtain ⟨w', h₅, hr'⟩ := (wayland_replaces room).exists_forEach hr.inv ((hc.loopable_wayland_iff hr).mpr hspaced)
    have hrel := hc.released hr hr'
    exact ⟨w', Option.bind_eq_some_iff.mpr ⟨w₄, h₄, h₅⟩, hrel, eraseRemnants_isSome_iff.mpr hrel.remnants⟩

/-- Two internal windows, with room for two more. -/
private def neighbours : Running where
  windows := ⟨[⟨.internal, 1⟩, ⟨.internal, 2⟩], [none, none], 0⟩
  stackingOrder := []
  waylandWindows := []
  deleted := []
  windows_nodup := by decide
  stackingOrder_nodup := List.nodup_nil
  waylandWindows_nodup := List.nodup_nil
  x11_mem_stackingOrder := by decide
  waylandWindows_kind := List.forall_mem_nil _
  nothing_deleted := rfl

/-- The second of two internal windows is passed over, and the last loop's assertion fails. -/
theorem neighbours_left : ∃ w', neighbours.releaseAll id = some w' ∧ w'.deleted = [⟨.internal, 1⟩] ∧
    w'.windows.elements = [⟨.internal, 2⟩, ⟨.remnant, 3⟩] ∧ eraseRemnants w'.windows.elements = none ∧
    ¬ Released neighbours.toWorkspace w' := by
  refine ⟨_, rfl, rfl, rfl, rfl, fun h => ?_⟩
  exact absurd (h.once ⟨.internal, 2⟩ (by decide) (.inl rfl)) (by decide)

end Running
end KWinFT.Shutdown
