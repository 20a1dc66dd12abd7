import KWinFT.Xwl.Selection
import Mathlib.Data.List.Nodup

/-! Which transfer gets an event. The transfers are asked in turn, and one that knows the window of an event
takes it even if the event is about another transfer's property. -/
namespace KWinFT.Xwl
namespace Selection

/-- Every transfer to Wayland is one of this selection and has a window that is its own. -/
structure OwnWindows (σ : Selection) : Prop where
  distinct : (σ.xToWlTransfers.map (·.window)).Nodup
  apart : ∀ source, σ.xSource = some source → ∀ t ∈ σ.xToWlTransfers, t.window ≠ source.window
  atom_eq : ∀ t ∈ σ.xToWlTransfers, t.atom = σ.atom

/-- New transfers keep it so, as the X server gives out a window id once. -/
theorem OwnWindows.startTransferToWayland {σ : Selection} (h : σ.OwnWindows) {window : XWindow}
    (hnew : window ∉ σ.xToWlTransfers.map (·.window)) (hsource : ∀ source, σ.xSource = some source → window ≠ source.window) :
    (σ.startTransferToWayland window).OwnWindows where
  distinct := by
    unfold Selection.startTransferToWayland
    rw [List.map_append, List.map_singleton, ← List.concat_eq_append]
    exact h.distinct.concat hnew
  apart source hs t ht := by
    rcases List.mem_append.mp ht with ht | ht
    · exact h.apart source hs t ht
    · exact List.mem_singleton.mp ht ▸ hsource source hs
  atom_eq t ht := by
    rcases List.mem_append.mp ht with ht | ht
    · exact h.atom_eq t ht
    · exact List.mem_singleton.mp ht ▸ rfl

theorem OwnWindows.startTransferToX {σ : Selection} (h : σ.OwnWindows) (request : SelectionRequest) :
    (σ.startTransferToX request).OwnWindows := ⟨h.distinct, h.apart, h.atom_eq⟩

/-- The window and the property that a transfer to X writes to. -/
def place (t : TransferWltoX) : XWindow × Atom := (t.request.requestor, t.request.property)

/-- The notification that the requestor of a transfer deleted its property. -/
def deleteOf (t : TransferWltoX) : PropertyNotify := ⟨t.request.requestor, t.request.property, .delete⟩

variable (env : Conventions) (reply : XWindow → Option PropertyValue) (room : XWindow → Option Nat)

/-- A transfer gets the notification about its property, and only it is changed, by `handlePropertyDelete`. -/
def ProcessesDelete (σ : Selection) (before : List TransferWltoX) (t : TransferWltoX) (after : List TransferWltoX) :
    Prop :=
  σ.handlePropertyNotify env reply room (deleteOf t) =
    (some (.wlToX t), t.handlePropertyDelete.map fun r =>
      ({ σ with wlToXTransfers := before ++ (t.kept r).1 ++ after }, (t.kept r).2))

/-- A transfer gets an event about its window, and only it is changed. -/
def ReachesXtoWl (σ : Selection) (before : List TransferXtoWl) (t : TransferXtoWl) (after : List TransferXtoWl)
    (handled : Option (TransferXtoWl × List XtoWlOutput))
    (result : Option Taker × Option (Selection × List SelectionOutput)) : Prop :=
  result = (some (.xToWl t), handled.map fun r =>
    ({ σ with xToWlTransfers := before ++ (t.kept r).1 ++ after }, (t.kept r).2))

/-- No transfer that is asked before knows the window. -/
def Unobstructed (σ : Selection) (before : List TransferWltoX) (t : TransferWltoX) : Prop :=
  (∀ x ∈ σ.xToWlTransfers, x.window ≠ t.request.requestor) ∧
    ∀ u ∈ before, u.request.requestor ≠ t.request.requestor

section handlers
variable {env : Conventions} {reply : XWindow → Option PropertyValue} {room : XWindow → Option Nat}

theorem xToWl_declines (event : PropertyNotify) {t : TransferXtoWl} (h : t.window ≠ event.window) :
    Lib.Declines (xToWlPropertyNotify env reply room event) t := by
  simp [Lib.Declines, xToWlPropertyNotify, TransferXtoWl.handlePropertyNotify, h.symm, TransferXtoWl.kept]

theorem xToWl_takes (event : PropertyNotify) {t : TransferXtoWl} (h : t.window = event.window) :
    (xToWlPropertyNotify env reply room event t).1 = true := by
  simp only [xToWlPropertyNotify, TransferXtoWl.handlePropertyNotify, h.symm, if_true]
  split <;> rfl

theorem xToWl_declines_selection (event : SelectionNotify) {t : TransferXtoWl} (h : t.window ≠ event.requestor) :
    Lib.Declines (xToWlSelectionNotify env reply room event) t := by
  simp [Lib.Declines, xToWlSelectionNotify, TransferXtoWl.handleSelectionNotify, h.symm, TransferXtoWl.kept]

theorem xToWl_takes_selection (event : SelectionNotify) {t : TransferXtoWl} (h : t.window = event.requestor)
    (hatom : t.atom = event.selection) : (xToWlSelectionNotify env reply room event t).1 = true := by
  simp only [xToWlSelectionNotify, TransferXtoWl.handleSelectionNotify, h, hatom, ne_eq, not_true_eq_false, if_false]
  split
  · rfl
  · split
    · rfl
    · split <;> rfl

theorem wlToX_declines (event : PropertyNotify) {t : TransferWltoX} (h : t.request.requestor ≠ event.window) :
    Lib.Declines (wlToXPropertyNotify event) t := by
  simp [Lib.Declines, wlToXPropertyNotify, TransferWltoX.handlePropertyNotify, h.symm, TransferWltoX.kept]

theorem wlToX_takes (event : PropertyNotify) {t : TransferWltoX} (h : t.request.requestor = event.window) :
    (wlToXPropertyNotify event t).1 = true := by
  simp only [wlToXPropertyNotify, TransferWltoX.handlePropertyNotify, h.symm, if_true]
  split <;> rfl

end handlers

section results
variable {env : Conventions} {reply : XWindow → Option PropertyValue} {room : XWindow → Option Nat} {σ : Selection}

/-- Around a member of a list without repetitions, the others differ from it. -/
private theorem ne_of_nodup_map {α β : Type*} {f : α → β} {before after : List α} {a : α}
    (h : ((before ++ a :: after).map f).Nodup) : ∀ b ∈ before, f b ≠ f a := by
  intro b hb heq
  rw [List.map_append, List.map_cons, List.nodup_append] at h
  exact h.2.2 (f b) (List.mem_map_of_mem hb) (f a) List.mem_cons_self heq

theorem processesDelete_of_unobstructed {before after : List TransferWltoX} {t : TransferWltoX}
    (hsplit : σ.wlToXTransfers = before ++ t :: after) (h : σ.Unobstructed before t) :
    ProcessesDelete env reply room σ before t after := by
  have hx := Lib.dispatch_declined (xToWlPropertyNotify env reply room (deleteOf t))
    fun x hx => xToWl_declines (deleteOf t) (h.1 x hx)
  have hw := Lib.dispatch_taken (wlToXPropertyNotify (deleteOf t)) after
    (fun u hu => wlToX_declines (deleteOf t) (h.2 u hu)) (wlToX_takes (deleteOf t) rfl)
  have hhandled : (wlToXPropertyNotify (deleteOf t) t).2 = t.handlePropertyDelete.map t.kept := by
    simp [wlToXPropertyNotify, TransferWltoX.handlePropertyNotify, deleteOf]
  rw [ProcessesDelete, handlePropertyNotify, hx, hsplit, hw, hhandled]
  cases t.handlePropertyDelete with
  | none => rfl
  | some r => rfl

/-- A transfer that is asked before and knows the window takes the notification. -/
theorem unobstructed_of_processesDelete {before after : List TransferWltoX} {t : TransferWltoX}
    (hplaces : (σ.wlToXTransfers.map place).Nodup) (hsplit : σ.wlToXTransfers = before ++ t :: after)
    (h : ProcessesDelete env reply room σ before t after) : σ.Unobstructed before t := by
  have htaker := congrArg Prod.fst h
  have hxcases (x : TransferXtoWl) : Lib.Declines (xToWlPropertyNotify env reply room (deleteOf t)) x ∨
      (xToWlPropertyNotify env reply room (deleteOf t) x).1 = true := by
    by_cases hx : x.window = (deleteOf t).window
    · exact .inr (xToWl_takes _ hx)
    · exact .inl (xToWl_declines _ hx)
  have hwcases (u : TransferWltoX) : Lib.Declines (wlToXPropertyNotify (deleteOf t)) u ∨
      (wlToXPropertyNotify (deleteOf t) u).1 = true := by
    by_cases hu : u.request.requestor = (deleteOf t).window
    · exact .inr (wlToX_takes _ hu)
    · exact .inl (wlToX_declines _ hu)
  have hxs : ∀ x ∈ σ.xToWlTransfers, x.window ≠ t.request.requestor := by
    intro x hx heq
    obtain ⟨before', y, after', hl, hbefore, hy⟩ := Lib.exists_first_taker _ (fun x _ => hxcases x)
      ⟨x, hx, xToWl_takes (deleteOf t) heq⟩
    rw [handlePropertyNotify, hl, Lib.dispatch_taken _ _ hbefore hy] at htaker
    cases htaker
  refine ⟨hxs, fun u hu heq => ?_⟩
  have hx := Lib.dispatch_declined (xToWlPropertyNotify env reply room (deleteOf t))
    fun x hx => xToWl_declines (deleteOf t) (hxs x hx)
  obtain ⟨before', v, after', hl, hbefore, hv⟩ := Lib.exists_first_taker _ (fun u _ => hwcases u)
    ⟨u, hu, wlToX_takes (deleteOf t) heq⟩
  rw [handlePropertyNotify, hx, hsplit, hl, List.append_assoc, List.cons_append,
    Lib.dispatch_taken _ _ hbefore hv] at htaker
  obtain rfl : v = t := by simpa using htaker
  rw [hsplit] at hplaces
  exact ne_of_nodup_map hplaces v (hl ▸ by simp) rfl

theorem newValue_reaches (hwindows : σ.OwnWindows) {before after : List TransferXtoWl} {t : TransferXtoWl}
    (hsplit : σ.xToWlTransfers = before ++ t :: after) (event : PropertyNotify) (hevent : event.window = t.window) :
    ReachesXtoWl σ before t after (t.handlePropertyNotify env event (reply t.window) (room t.window)).2
      (σ.handlePropertyNotify env reply room event) := by
  have hothers : ∀ x ∈ before, x.window ≠ event.window := by
    rw [hevent]
    exact ne_of_nodup_map (f := fun x : TransferXtoWl => x.window) (hsplit ▸ hwindows.distinct)
  have hx := Lib.dispatch_taken (xToWlPropertyNotify env reply room event) after
    (fun x hx => xToWl_declines event (hothers x hx)) (xToWl_takes event hevent.symm)
  rw [ReachesXtoWl, handlePropertyNotify, hsplit, hx]
  simp only [xToWlPropertyNotify, Prod.map, Option.map_map]
  rfl

theorem selectionNotify_reaches (hwindows : σ.OwnWindows) {before after : List TransferXtoWl} {t : TransferXtoWl}
    (hsplit : σ.xToWlTransfers = before ++ t :: after) (event : SelectionNotify) (hevent : event.requestor = t.window)
    (hatom : event.selection = σ.atom) :
    ReachesXtoWl σ before t after (t.handleSelectionNotify env event (reply t.window) (room t.window)).2
      (σ.handleSelectionNotify env reply room event) := by
  have hmem : t ∈ σ.xToWlTransfers := hsplit ▸ List.mem_append_right before List.mem_cons_self
  have hothers : ∀ x ∈ before, x.window ≠ event.requestor := by
    rw [hevent]
    exact ne_of_nodup_map (f := fun x : TransferXtoWl => x.window) (hsplit ▸ hwindows.distinct)
  have hx := Lib.dispatch_taken (xToWlSelectionNotify env reply room event) after
    (fun x hx => xToWl_declines_selection event (hothers x hx))
    (xToWl_takes_selection event hevent.symm ((hwindows.atom_eq t hmem).trans hatom.symm))
  have hsource : ∀ source, σ.xSource = some source → source.handleSelectionNotify σ.atom event = (false, false) := by
    intro source hs
    exact if_pos (hevent ▸ hwindows.apart source hs t hmem)
  have hresult : σ.handleSelectionNotify env reply room event =
      ((Lib.dispatch (xToWlSelectionNotify env reply room event) σ.xToWlTransfers).1.map .xToWl,
        (Lib.dispatch (xToWlSelectionNotify env reply room event) σ.xToWlTransfers).2.map fun r =>
          ({ σ with xToWlTransfers := r.1 }, r.2)) := by
    unfold handleSelectionNotify
    cases hs : σ.xSource with
    | none => rfl
    | some source => simp only [Option.map_some, hsource source hs]
  rw [ReachesXtoWl, hresult, hsplit, hx]
  simp only [xToWlSelectionNotify, Prod.map, Option.map_map, Option.map_some]
  rfl

end results

/-- A transfer to X gets its notifications exactly when no transfer that is asked before knows its window; a
transfer to Wayland always does. -/
theorem routes_iff {σ : Selection} (hwindows : σ.OwnWindows) (hplaces : (σ.wlToXTransfers.map place).Nodup) :
    (∀ before t after, σ.wlToXTransfers = before ++ t :: after →
      (ProcessesDelete env reply room σ before t after ↔ σ.Unobstructed before t)) ∧
    ∀ before t after, σ.xToWlTransfers = before ++ t :: after →
      (∀ atom, ReachesXtoWl σ before t after
        (t.handlePropertyNotify env ⟨t.window, atom, .newValue⟩ (reply t.window) (room t.window)).2
        (σ.handlePropertyNotify env reply room ⟨t.window, atom, .newValue⟩)) ∧
      ∀ target property, ReachesXtoWl σ before t after
        (t.handleSelectionNotify env ⟨t.window, σ.atom, target, property⟩ (reply t.window) (room t.window)).2
        (σ.handleSelectionNotify env reply room ⟨t.window, σ.atom, target, property⟩) := by
  constructor
  · intro before t after hsplit
    exact ⟨unobstructed_of_processesDelete hplaces hsplit, processesDelete_of_unobstructed hsplit⟩
  · intro before t after hsplit
    exact ⟨fun atom => newValue_reaches hwindows hsplit _ rfl,
      fun target property => selectionNotify_reaches hwindows hsplit _ rfl rfl⟩

private def conventions : Conventions := ⟨1, Nat.one_ne_zero, id⟩

/-- A transfer whose last chunk waits for the property to be deleted. -/
private def waiting (request : SelectionRequest) : TransferWltoX :=
  ⟨request, true, false, true, [⟨[7], 1⟩], true, true⟩

/-- The transfers to X, and one to Wayland. -/
private def concurrent (transfers : List TransferWltoX) : Selection :=
  ⟨4, 100, 0, none, none, transfers, [.start 4 101], false⟩

private theorem concurrent_ownWindows (transfers : List TransferWltoX) : (concurrent transfers).OwnWindows where
  distinct := List.nodup_cons.mpr ⟨List.not_mem_nil, List.nodup_nil⟩
  apart _ h := by cases h
  atom_eq t ht := by
    obtain rfl := List.mem_singleton.mp ht
    rfl

/-- Of two transfers to one window, the first in the list gets its notification. -/
theorem first_transfer_processes :
    ProcessesDelete conventions (fun _ => none) (fun _ => some 0)
      (concurrent [waiting ⟨1, 2, 9⟩, .start ⟨1, 3, 9⟩]) [] (waiting ⟨1, 2, 9⟩) [.start ⟨1, 3, 9⟩] := by
  have hroutes := routes_iff conventions (fun _ => none) (fun _ => some 0)
    (concurrent_ownWindows [waiting ⟨1, 2, 9⟩, .start ⟨1, 3, 9⟩]) (by decide)
  refine (hroutes.1 [] (waiting ⟨1, 2, 9⟩) [.start ⟨1, 3, 9⟩] rfl).mpr ⟨fun x hx => ?_, fun u hu => ?_⟩
  · obtain rfl := List.mem_singleton.mp hx
    decide
  · cases hu

/-- In the other order the notification is taken from the transfer that waits for it. -/
theorem second_transfer_starves :
    ((concurrent [.start ⟨1, 3, 9⟩, waiting ⟨1, 2, 9⟩]).wlToXTransfers.map place).Nodup ∧
    (concurrent [.start ⟨1, 3, 9⟩, waiting ⟨1, 2, 9⟩]).OwnWindows ∧
    (concurrent [.start ⟨1, 3, 9⟩, waiting ⟨1, 2, 9⟩]).handlePropertyNotify conventions (fun _ => none)
      (fun _ => some 0) (deleteOf (waiting ⟨1, 2, 9⟩)) =
        (some (.wlToX (.start ⟨1, 3, 9⟩)), some (concurrent [.start ⟨1, 3, 9⟩, waiting ⟨1, 2, 9⟩], [])) ∧
    ¬ ProcessesDelete conventions (fun _ => none) (fun _ => some 0)
      (concurrent [.start ⟨1, 3, 9⟩, waiting ⟨1, 2, 9⟩]) [.start ⟨1, 3, 9⟩] (waiting ⟨1, 2, 9⟩) [] := by
  refine ⟨by decide, concurrent_ownWindows _, by decide, fun h => ?_⟩
  have htaker := congrArg Prod.fst h
  revert htaker
  decide

end Selection
end KWinFT.Xwl
