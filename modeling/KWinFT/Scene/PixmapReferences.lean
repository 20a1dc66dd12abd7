import KWinFT.Lib.Runs
import KWinFT.Scene.WindowPixmap
import Mathlib.Data.List.Nodup

/-! When the counter for the previous pixmap agrees with the references to it, over all runs. -/
namespace KWinFT.Scene
namespace CrossFaded

def holding (s : CrossFaded) : Nat := s.references.countP fun r => r.pixmap.isSome

/-- The references that found a previous pixmap are counted, and there is a previous pixmap as long as there are any. -/
structure Balanced (s : CrossFaded) : Prop where
  counted : s.window.referencePixmapCounter = s.holding
  nonneg : 0 ≤ s.window.referencePixmapCounter
  kept : ∀ r ∈ s.references, r.pixmap.isSome → s.window.previousPixmap.isSome
  gone : (∀ r ∈ s.references, r.pixmap = none) → s.window.previousPixmap = none

/-- The previous pixmap is the one that the references found. -/
def Unreleased (s : CrossFaded) : Prop :=
  ∀ r ∈ s.references, ∀ serial, r.pixmap = some serial → s.window.previousPixmap.map WindowPixmap.serial = some serial

end CrossFaded

/-- A pixmap created now gets an internal image and nothing else. -/
def PixmapSource.onlyImage (source : PixmapSource) : Prop :=
  ¬ source.isDeleted ∧ source.shouldUseWaylandForCompositing ∧ source.surface = none ∧
    source.internalFramebufferObject = none ∧ source.internalImageObject.isSome

def WindowPixmaps.hasValid (w : WindowPixmaps) : Bool := w.currentPixmap.any WindowPixmap.isValid

namespace CrossFaded

/-- A lock that found no previous pixmap goes while there is none, and an internal image does not follow a previous
pixmap. -/
def Matched (s : CrossFaded) : PixmapEvent → Prop
  | .unreference lock => ⟨.previousWindowPixmapLock lock, none⟩ ∈ s.references → s.window.previousPixmap = none
  | .updatePixmap source => s.window.previousPixmap.isSome → s.window.hasValid = false → ¬ source.onlyImage
  | _ => True

/-- No previous pixmap is exchanged for another one. -/
def Unexchanged (s : CrossFaded) : PixmapEvent → Prop
  | .discardPixmap => s.window.hasValid → s.window.previousPixmap = none
  | _ => True

/-- What holds of balanced states in addition. -/
structure Consistent (s : CrossFaded) : Prop where
  counted : s.window.referencePixmapCounter = s.holding
  previous : s.window.previousPixmap.isSome ↔ 0 < s.holding
  isDiscarded : ∀ p ∈ s.window.previousPixmap, p.isDiscarded
  holders : (s.references.map Reference.holder).Nodup
  found : ∀ r ∈ s.references, r.holder = .discarded → r.pixmap.isSome
  successor : .discarded ∈ s.references.map Reference.holder ↔
    s.window.previousPixmap.isSome ∧ s.window.hasValid = false
  serials : ∀ p ∈ s.window.previousPixmap, p.serial < s.window.created ∧ ∀ q ∈ s.window.currentPixmap, p.serial < q.serial
  created : ∀ q ∈ s.window.currentPixmap, q.serial < s.window.created

end CrossFaded

section pixmap
variable {p : WindowPixmap}

/-- A valid pixmap comes with an unreference, except for an internal image. -/
private theorem WindowPixmap.create_spec (source : PixmapSource) (hp : p.isValid = false) :
    (p.create source).1.serial = p.serial ∧
      ((p.create source).1.isValid ↔ (p.create source).2 ∨ source.onlyImage) ∧
      ((p.create source).2 → ¬ source.onlyImage) := by
  obtain ⟨serial, buffer, fbo, internalImage, pixmap, discarded⟩ := p
  obtain ⟨rfl, rfl, rfl, rfl⟩ : buffer = none ∧ fbo = none ∧ internalImage = none ∧ pixmap = none := by
    simpa [WindowPixmap.isValid] using hp
  unfold create PixmapSource.onlyImage
  cases hdeleted : source.isDeleted with
  | true => simp [hp]
  | false =>
    cases hwayland : source.shouldUseWaylandForCompositing with
    | false =>
      simp only [hp, Bool.false_eq_true, or_self, if_false, not_false_eq_true, false_and, and_false, or_false, implies_true,
        and_true]
      split <;> simp [WindowPixmap.isValid]
    | true =>
      unfold updateBuffer
      cases source.surface with
      | some buffer => cases buffer <;> simp [WindowPixmap.isValid]
      | none =>
        cases source.internalFramebufferObject with
        | some fbo => simp [WindowPixmap.isValid]
        | none => cases source.internalImageObject <;> simp [WindowPixmap.isValid]

end pixmap

section window
variable {w : WindowPixmaps} {source : PixmapSource}

private theorem WindowPixmaps.reference_eq (hd : ∀ p ∈ w.previousPixmap, p.isDiscarded) : w.referencePreviousPixmap =
    ⟨w.currentPixmap, w.previousPixmap,
      w.referencePixmapCounter + (if w.previousPixmap.isSome then 1 else 0 : Nat), w.created⟩ := by
  obtain ⟨current, _ | p, counter, created⟩ := w
  · simp [referencePreviousPixmap]
  · simp [referencePreviousPixmap, show p.isDiscarded = true from hd p rfl]

private theorem WindowPixmaps.unreference_of_some (hd : ∀ p ∈ w.previousPixmap, p.isDiscarded)
    (hs : w.previousPixmap.isSome) : w.unreferencePreviousPixmap =
      ⟨w.currentPixmap, if w.referencePixmapCounter - 1 = 0 then none else w.previousPixmap,
        w.referencePixmapCounter - 1, w.created⟩ := by
  obtain ⟨p, hp⟩ := Option.isSome_iff_exists.mp hs
  unfold unreferencePreviousPixmap
  rw [if_pos (by rw [hp]; exact hd p hp)]

private theorem WindowPixmaps.currentPixmap_unreference : w.unreferencePreviousPixmap.currentPixmap = w.currentPixmap := by
  unfold unreferencePreviousPixmap
  split <;> rfl

private theorem WindowPixmaps.mem_previous_unreference {p : WindowPixmap}
    (hp : p ∈ w.unreferencePreviousPixmap.previousPixmap) : p ∈ w.previousPixmap := by
  unfold unreferencePreviousPixmap at hp
  split at hp
  · dsimp only at hp
    split at hp
    · cases hp
    · exact hp
  · exact hp

private theorem WindowPixmaps.unreference_of_none (hn : w.previousPixmap = none) : w.unreferencePreviousPixmap = w := by
  unfold unreferencePreviousPixmap
  rw [if_neg (by simp [hn])]

private theorem WindowPixmaps.updatePixmap_of_valid (hv : w.hasValid) : w.updatePixmap source = w := by
  obtain ⟨_ | p, previous, counter, created⟩ := w
  · cases hv
  · have hp : p.isValid = true := hv
    unfold updatePixmap
    simp [hp]

/-- Without a valid pixmap creating one is tried, and a valid one comes with an unreference, except for an internal
image. -/
private theorem WindowPixmaps.updatePixmap_of_invalid (source : PixmapSource) (hv : w.hasValid = false)
    (hcreated : ∀ q ∈ w.currentPixmap, q.serial < w.created) : ∃ (q : WindowPixmap) (created : Nat) (unreferences : Bool),
      w.updatePixmap source = (let w' := ⟨some q, w.previousPixmap, w.referencePixmapCounter, created⟩
        if unreferences then w'.unreferencePreviousPixmap else w') ∧
      q.serial < created ∧ w.created ≤ created ∧ (w.currentPixmap.map WindowPixmap.serial = some q.serial ∨ q.serial = w.created) ∧
      (q.isValid ↔ unreferences ∨ source.onlyImage) ∧ (unreferences → ¬ source.onlyImage) := by
  obtain ⟨current, previous, counter, created⟩ := w
  cases current with
  | none =>
    obtain ⟨hserial, hvalid, honly⟩ := WindowPixmap.create_spec (p := ⟨created, none, none, none, none, false⟩) source rfl
    refine ⟨_, created + 1, _, rfl, ?_, Nat.le_succ _, .inr hserial, hvalid, honly⟩
    exact Nat.lt_succ_of_le (Nat.le_of_eq hserial)
  | some p =>
    have hp : p.isValid = false := hv
    obtain ⟨hserial, hvalid, honly⟩ := WindowPixmap.create_spec source hp
    refine ⟨(p.create source).1, created, (p.create source).2, ?_, ?_, Nat.le_refl _, .inl (congrArg some hserial.symm), hvalid, honly⟩
    · unfold updatePixmap
      simp [hp]
    · exact hserial ▸ hcreated p rfl

/-- A counted reference is given back, and with the last one the previous pixmap goes. -/
private theorem WindowPixmaps.unreference_counts {n : Nat} (hcount : w.referencePixmapCounter = n + 1)
    (hd : ∀ p ∈ w.previousPixmap, p.isDiscarded) (hs : w.previousPixmap.isSome) :
    let w' := w.unreferencePreviousPixmap
    w'.referencePixmapCounter = n ∧ (w'.previousPixmap.isSome ↔ 0 < n) ∧
      (∀ p ∈ w'.previousPixmap, p ∈ w.previousPixmap) ∧ w'.currentPixmap = w.currentPixmap ∧ w'.created = w.created := by
  intro w'
  have hn : w.referencePixmapCounter - 1 = n := by omega
  have hw : w' = ⟨w.currentPixmap, if n = 0 then none else w.previousPixmap, n, w.created⟩ := by
    have := unreference_of_some hd hs
    simpa only [hn, Int.natCast_eq_zero] using this
  rw [hw]
  refine ⟨rfl, ?_, fun p hp => ?_, rfl, rfl⟩
  · rcases Nat.eq_zero_or_pos n with hzero | hpos
    · simp [hzero]
    · simp [hs, Nat.ne_of_gt hpos, hpos]
  · rcases Nat.eq_zero_or_pos n with hzero | hpos
    · simp [hzero] at hp
    · simpa [Nat.ne_of_gt hpos] using hp

private theorem WindowPixmaps.mem_previous_updatePixmap {p : WindowPixmap}
    (hcreated : ∀ q ∈ w.currentPixmap, q.serial < w.created) (hp : p ∈ (w.updatePixmap source).previousPixmap) :
    p ∈ w.previousPixmap := by
  cases hv : w.hasValid with
  | true => rwa [updatePixmap_of_valid hv] at hp
  | false =>
    obtain ⟨q, created, unreferences, heq, -⟩ := updatePixmap_of_invalid source hv hcreated
    rw [heq] at hp
    cases unreferences with
    | false => exact hp
    | true =>
      exact mem_previous_unreference (w := ⟨some q, w.previousPixmap, w.referencePixmapCounter, created⟩) hp

end window

namespace CrossFaded
variable {s s' : CrossFaded} {e : PixmapEvent} {r : Reference} {holder : Holder}

private theorem mem_without : r ∈ s.without holder ↔ r ∈ s.references ∧ r.holder ≠ holder := by
  rw [without, List.mem_filter, decide_eq_true_iff]

private theorem countP_without (hnodup : (s.references.map Reference.holder).Nodup) (hr : r ∈ s.references) :
    s.holding = (s.without r.holder).countP (fun r => r.pixmap.isSome) + if r.pixmap.isSome then 1 else 0 := by
  obtain ⟨before, after, heq⟩ := List.append_of_mem hr
  rw [heq, List.map_append, List.map_cons, List.nodup_middle, List.nodup_cons, List.mem_append] at hnodup
  have hrest : ∀ l : List Reference, r.holder ∉ l.map Reference.holder → (l.filter fun x => x.holder ≠ r.holder) = l :=
    fun l hl => List.filter_eq_self.mpr fun x hx => decide_eq_true fun he => hl (he ▸ List.mem_map_of_mem hx)
  obtain ⟨hbefore, hafter⟩ := not_or.mp hnodup.1
  rw [holding, without, heq, List.filter_append, List.filter_cons_of_neg (by simp), hrest before hbefore,
    hrest after hafter, List.countP_append, List.countP_append, List.countP_cons, Nat.add_assoc]

theorem Consistent.balanced (h : Consistent s) : Balanced s where
  counted := h.counted
  nonneg := h.counted ▸ Int.natCast_nonneg _
  kept r hr hsome := h.previous.mpr (List.countP_pos_iff.mpr ⟨r, hr, hsome⟩)
  gone hnone := by
    rw [← Option.not_isSome_iff_eq_none, h.previous, holding, List.countP_pos_iff]
    rintro ⟨r, hr, hsome⟩
    rw [hnone r hr] at hsome
    cases hsome

theorem Consistent.initial : Consistent .initial := by
  constructor <;> simp [CrossFaded.initial, WindowPixmaps.initial, holding]

private theorem Consistent.reference {lock : Nat} (h : Consistent s) (hs : s.step (.reference lock) = some s') :
    Consistent s' := by
  obtain ⟨hnew, hs⟩ := Option.ite_none_left_eq_some.mp hs
  cases hs
  rw [WindowPixmaps.reference_eq h.isDiscarded]
  have hcount : List.countP (fun r => r.pixmap.isSome)
      (⟨.previousWindowPixmapLock lock, s.window.previousPixmap.map WindowPixmap.serial⟩ :: s.references) =
        s.holding + if s.window.previousPixmap.isSome then 1 else 0 := by
    simp [holding, List.countP_cons]
  refine ⟨?_, ?_, h.isDiscarded, ?_, ?_, ?_, h.serials, h.created⟩
  · exact (congrArg (· + _) h.counted).trans (congrArg Nat.cast hcount.symm)
  · refine Iff.trans ?_ (iff_of_eq (congrArg (0 < ·) hcount.symm))
    cases hprev : s.window.previousPixmap.isSome with
    | false => exact (iff_of_eq (congrArg (· = true) hprev.symm)).trans h.previous
    | true => simp
  · refine List.nodup_cons.mpr ⟨fun hmem => ?_, h.holders⟩
    obtain ⟨r, hr, heq⟩ := List.mem_map.mp hmem
    exact hnew ⟨r, hr, heq⟩
  · intro r hr heq
    rcases List.mem_cons.mp hr with rfl | hr
    · cases heq
    · exact h.found r hr heq
  · rw [List.map_cons, List.mem_cons, or_iff_right (by simp)]
    exact h.successor

/-- What the drop of a reference leaves, when that is counted or there is none. -/
private theorem Consistent.dropped {w : WindowPixmaps} (h : Consistent s) (hr : r ∈ s.references)
    (hcounter : w.referencePixmapCounter = s.window.referencePixmapCounter)
    (hprevious : w.previousPixmap = s.window.previousPixmap)
    (hfound : r.pixmap = none → s.window.previousPixmap = none) :
    let w' := w.unreferencePreviousPixmap
    let refs := s.without r.holder
    w'.referencePixmapCounter = (refs.countP fun r => r.pixmap.isSome : Nat) ∧
      (w'.previousPixmap.isSome ↔ 0 < refs.countP fun r => r.pixmap.isSome) ∧
      (∀ p ∈ w'.previousPixmap, p ∈ w.previousPixmap) ∧ w'.currentPixmap = w.currentPixmap ∧ w'.created = w.created := by
  have hcount := countP_without h.holders hr
  have hcounted := hcounter.trans h.counted
  cases hpix : r.pixmap with
  | some serial =>
    rw [hpix, Option.isSome_some, if_pos rfl] at hcount
    rw [hcount] at hcounted
    refine WindowPixmaps.unreference_counts hcounted (hprevious ▸ h.isDiscarded) ?_
    exact hprevious ▸ h.previous.mpr (by omega)
  | none =>
    rw [hpix, Option.isSome_none, if_neg Bool.false_ne_true, Nat.add_zero] at hcount
    have hnone := hprevious.trans (hfound hpix)
    intro w' refs
    rw [show w' = w from WindowPixmaps.unreference_of_none hnone, ← hcount, hprevious]
    exact ⟨hcounted, h.previous, fun _ hp => hp, rfl, rfl⟩

private theorem Consistent.unreference {lock : Nat} (h : Consistent s) (hok : s.Matched (.unreference lock))
    (hs : s.step (.unreference lock) = some s') : Consistent s' := by
  obtain ⟨⟨⟨holder, pixmap⟩, hr, hholder⟩, hs⟩ := Option.ite_none_right_eq_some.mp hs
  cases hs
  cases (show holder = .previousWindowPixmapLock lock from hholder)
  obtain ⟨hcounter, hprevious, hsub, hcurrent, hcreated⟩ := h.dropped hr rfl rfl fun hnone => hok (hnone ▸ hr)
  refine ⟨hcounter, hprevious, fun p hp => h.isDiscarded p (hsub p hp), ?_, ?_, ?_, ?_, ?_⟩
  · exact h.holders.sublist (List.filter_sublist.map _)
  · exact fun r hr => h.found r (mem_without.mp hr).1
  · have hsuccessor := h.successor
    rw [WindowPixmaps.hasValid] at hsuccessor ⊢
    dsimp only
    rw [hcurrent]
    constructor
    · intro hmem
      obtain ⟨r, hr, heq⟩ := List.mem_map.mp hmem
      have hvalid := hsuccessor.mp (List.mem_map.mpr ⟨r, (mem_without.mp hr).1, heq⟩)
      refine ⟨hprevious.mpr (List.countP_pos_iff.mpr ⟨r, hr, ?_⟩), hvalid.2⟩
      exact h.found r (mem_without.mp hr).1 heq
    · rintro ⟨hsome, hvalid⟩
      obtain ⟨p, hp⟩ := Option.isSome_iff_exists.mp hsome
      obtain ⟨r, hr, heq⟩ := List.mem_map.mp (hsuccessor.mpr ⟨Option.isSome_iff_exists.mpr ⟨p, hsub p hp⟩, hvalid⟩)
      exact List.mem_map.mpr ⟨r, mem_without.mpr ⟨hr, by rw [heq]; simp⟩, heq⟩
  · dsimp only
    rw [hcurrent, hcreated]
    exact fun p hp => h.serials p (hsub p hp)
  · dsimp only
    rw [hcurrent, hcreated]
    exact h.created

private theorem step_discard_of_invalid (hv : s.window.hasValid = false) : s.step .discardPixmap =
    some ⟨⟨none, s.window.previousPixmap, s.window.referencePixmapCounter, s.window.created⟩, s.references⟩ := by
  obtain ⟨⟨_ | p, previous, counter, created⟩, references⟩ := s
  · rfl
  · have hp : p.isValid = false := hv
    simp [step, WindowPixmaps.discardPixmap, Option.filter, hp]

private theorem step_discard_of_valid {p : WindowPixmap} (hp : s.window.currentPixmap = some p) (hv : p.isValid = true) :
    s.step .discardPixmap =
      some ⟨⟨none, some { p with isDiscarded := true }, s.window.referencePixmapCounter + 1, s.window.created⟩,
        ⟨.discarded, some p.serial⟩ :: s.references⟩ := by
  simp [step, WindowPixmaps.discardPixmap, WindowPixmaps.referencePreviousPixmap, Option.filter, hp, hv]

private theorem exists_valid (hv : s.window.hasValid = true) :
    ∃ p, s.window.currentPixmap = some p ∧ p.isValid = true := by
  rw [WindowPixmaps.hasValid, Option.any_eq_true] at hv
  exact hv

private theorem Consistent.discardPixmap (h : Consistent s) (hs : s.step .discardPixmap = some s') : Consistent s' := by
  cases hvalid : s.window.hasValid with
  | false =>
    cases (step_discard_of_invalid hvalid).symm.trans hs
    refine ⟨h.counted, h.previous, h.isDiscarded, h.holders, h.found, ?_, fun q hq => ⟨(h.serials q hq).1, ?_⟩, ?_⟩
    · exact h.successor.trans (and_congr_right fun _ => iff_of_true hvalid rfl)
    · exact fun _ hq => by cases hq
    · exact fun _ hq => by cases hq
  | true =>
    obtain ⟨p, hp, hv⟩ := exists_valid hvalid
    cases (step_discard_of_valid hp hv).symm.trans hs
    have hnew : .discarded ∉ s.references.map Reference.holder := fun hmem => by
      cases hvalid.symm.trans (h.successor.mp hmem).2
    have hcount : List.countP (fun r => r.pixmap.isSome) (⟨.discarded, some p.serial⟩ :: s.references) = s.holding + 1 :=
      List.countP_cons_of_pos rfl
    refine ⟨?_, ?_, ?_, List.nodup_cons.mpr ⟨hnew, h.holders⟩, ?_, iff_of_true List.mem_cons_self ⟨rfl, rfl⟩, ?_, ?_⟩
    · exact (congrArg (· + 1) h.counted).trans (congrArg Nat.cast hcount.symm)
    · exact iff_of_true rfl (Nat.lt_of_lt_of_eq (Nat.succ_pos _) hcount.symm)
    · rintro q ⟨⟩
      rfl
    · exact List.forall_mem_cons.mpr ⟨fun _ => rfl, h.found⟩
    · rintro q ⟨⟩
      exact ⟨h.created p hp, fun _ hq => by cases hq⟩
    · exact fun _ hq => by cases hq

private theorem without_discarded (hno : .discarded ∉ s.references.map Reference.holder) :
    s.without .discarded = s.references :=
  List.filter_eq_self.mpr fun _ hr => decide_eq_true fun he => hno (he ▸ List.mem_map_of_mem hr)

/-- The successor is valid: the reference that was held for it goes. -/
private theorem Consistent.succeeded (h : Consistent s) {q : WindowPixmap} {created : Nat}
    (hmem : .discarded ∈ s.references.map Reference.holder) (hq : q.isValid = true)
    (hserials : ∀ p ∈ s.window.previousPixmap, p.serial < created ∧ ∀ q' ∈ some q, p.serial < q'.serial)
    (hcreated : ∀ q' ∈ some q, q'.serial < created) :
    let w : WindowPixmaps := ⟨some q, s.window.previousPixmap, s.window.referencePixmapCounter, created⟩
    Consistent ⟨w.unreferencePreviousPixmap, s.without .discarded⟩ := by
  intro w
  obtain ⟨⟨holder, pixmap⟩, hr, hholder⟩ := List.mem_map.mp hmem
  cases (show holder = .discarded from hholder)
  have hfound : pixmap.isSome := h.found _ hr rfl
  obtain ⟨hcounter, hprevious, hsub, hcur, hcre⟩ := h.dropped (w := w) hr rfl rfl fun hnone => by
    rw [show pixmap = none from hnone] at hfound
    cases hfound
  refine ⟨hcounter, hprevious, fun p hp => h.isDiscarded p (hsub p hp), ?_, ?_, iff_of_false ?_ ?_, ?_, ?_⟩
  · exact h.holders.sublist (List.filter_sublist.map _)
  · exact fun r hr => h.found r (mem_without.mp hr).1
  · rintro hmem
    obtain ⟨r, hr, he⟩ := List.mem_map.mp hmem
    exact (mem_without.mp hr).2 he
  · rintro ⟨-, hinvalid⟩
    rw [WindowPixmaps.hasValid, hcur, Option.any_some, hq] at hinvalid
    cases hinvalid
  · dsimp only
    rw [hcur, hcre]
    exact fun p hp => hserials p (hsub p hp)
  · dsimp only
    rw [hcur, hcre]
    exact hcreated

private theorem Consistent.updatePixmap {source : PixmapSource} (h : Consistent s)
    (hok : s.Matched (.updatePixmap source)) (hs : s.step (.updatePixmap source) = some s') : Consistent s' := by
  cases hs
  cases hvalid : s.window.hasValid with
  | true =>
    have hno : .discarded ∉ s.references.map Reference.holder := fun hmem => by
      cases hvalid.symm.trans (h.successor.mp hmem).2
    rw [WindowPixmaps.updatePixmap_of_valid hvalid, without_discarded hno, ite_self]
    exact h
  | false =>
    obtain ⟨q, created, unreferences, heq, hserial, hgrown, hsame, hq, honly⟩ :=
      WindowPixmaps.updatePixmap_of_invalid source hvalid h.created
    have hcurrent : (s.window.updatePixmap source).currentPixmap = some q := by
      rw [heq]
      cases unreferences with
      | false => rfl
      | true => exact WindowPixmaps.currentPixmap_unreference
    have hserials : ∀ p ∈ s.window.previousPixmap, p.serial < created ∧ ∀ q' ∈ some q, p.serial < q'.serial := by
      intro p hp
      obtain ⟨hlt, hbefore⟩ := h.serials p hp
      refine ⟨Nat.lt_of_lt_of_le hlt hgrown, fun q' hq' => ?_⟩
      cases hq'
      rcases hsame with hsame | hsame
      · obtain ⟨c, hc, hcq⟩ := Option.map_eq_some_iff.mp hsame
        exact hcq ▸ hbefore c hc
      · exact hsame ▸ hlt
    have hcreated : ∀ q' ∈ some q, q'.serial < created := fun q' hq' => by
      cases hq'
      exact hserial
    rw [hcurrent, Option.any_some]
    cases hprev : s.window.previousPixmap with
    | none =>
      have hno : .discarded ∉ s.references.map Reference.holder := fun hmem => by
        have hsome := (h.successor.mp hmem).1
        rw [hprev] at hsome
        cases hsome
      have hwindow : s.window.updatePixmap source =
          ⟨some q, s.window.previousPixmap, s.window.referencePixmapCounter, created⟩ := by
        rw [heq]
        split
        · exact WindowPixmaps.unreference_of_none hprev
        · rfl
      rw [without_discarded hno, ite_self, hwindow]
      refine ⟨h.counted, h.previous, h.isDiscarded, h.holders, h.found, iff_of_false hno ?_, hserials, hcreated⟩
      simp [hprev]
    | some p =>
      have hsome : s.window.previousPixmap.isSome := by rw [hprev]; rfl
      rw [or_iff_left (hok hsome hvalid)] at hq
      have hmem := h.successor.mpr ⟨hsome, hvalid⟩
      rw [heq]
      cases unreferences with
      | false =>
        have hinvalid : q.isValid = false := by simpa using hq
        simp only [hinvalid, Bool.false_eq_true, if_false]
        exact ⟨h.counted, h.previous, h.isDiscarded, h.holders, h.found, iff_of_true hmem ⟨hsome, hinvalid⟩, hserials,
          hcreated⟩
      | true =>
        simp only [hq.mpr rfl, if_true]
        exact h.succeeded hmem (hq.mpr rfl) hserials hcreated

private theorem Consistent.step (h : Consistent s) (hok : s.Matched e) (hs : s.step e = some s') : Consistent s' := by
  cases e with
  | reference lock => exact h.reference hs
  | unreference lock => exact h.unreference hok hs
  | discardPixmap => exact h.discardPixmap hs
  | updatePixmap source => exact h.updatePixmap hok hs

private theorem Consistent.spoil (h : Consistent s) (hbad : ¬ s.Matched e) (hs : s.step e = some s') :
    ¬ Balanced s' := by
  intro hbalanced
  cases e with
  | reference lock => exact hbad trivial
  | discardPixmap => exact hbad trivial
  | unreference lock =>
    obtain ⟨hr, hprev⟩ := Classical.not_imp.mp hbad
    obtain ⟨-, hs⟩ := Option.ite_none_right_eq_some.mp hs
    cases hs
    -- The lock is not counted, yet the counter goes down.
    have hcount := countP_without h.holders hr
    have hcounted := hbalanced.counted
    rw [WindowPixmaps.unreference_of_some h.isDiscarded (Option.isSome_iff_ne_none.mpr hprev)] at hcounted
    have hsame : s.holding = (CrossFaded.mk s.window (s.without (.previousWindowPixmapLock lock))).holding := hcount
    have hbefore := h.counted
    rw [hsame] at hbefore
    exact absurd (hcounted.trans hbefore.symm) (by dsimp only; omega)
  | updatePixmap source =>
    obtain ⟨hsome, hbad⟩ := Classical.not_imp.mp hbad
    obtain ⟨hinvalid, honly⟩ := Classical.not_imp.mp hbad
    cases hs
    -- The reference of the discarded pixmap stays counted.
    obtain ⟨q, created, unreferences, heq, -, -, -, hq, himage⟩ :=
      WindowPixmaps.updatePixmap_of_invalid source hinvalid h.created
    cases unreferences with
    | true => exact himage rfl (not_not.mp honly)
    | false =>
      obtain ⟨⟨holder, pixmap⟩, hr, hholder⟩ := List.mem_map.mp (h.successor.mpr ⟨hsome, hinvalid⟩)
      cases (show holder = .discarded from hholder)
      have hcount : s.holding = (s.without .discarded).countP (fun r => r.pixmap.isSome) + 1 :=
        (countP_without h.holders hr).trans (congrArg _ (if_pos (h.found _ hr rfl)))
      have hcounted := hbalanced.counted
      have hvalid : q.isValid = true := hq.mpr (.inr (not_not.mp honly))
      simp only [heq, holding, Bool.false_eq_true, if_false, Option.any_some, hvalid, if_true] at hcounted
      rw [h.counted, hcount] at hcounted
      omega

/-- References that are still there have found what is still there. -/
private theorem Unreleased.of_fewer (h : Unreleased s) (hs' : Consistent s')
    (hprevious : ∀ p ∈ s'.window.previousPixmap, p ∈ s.window.previousPixmap)
    (hreferences : ∀ r ∈ s'.references, r ∈ s.references) : Unreleased s' := by
  intro r hr serial hserial
  obtain ⟨p, hp⟩ := Option.isSome_iff_exists.mp (hs'.balanced.kept r hr (by rw [hserial]; rfl))
  have hbefore := h r (hreferences r hr) serial hserial
  rw [hprevious p hp] at hbefore
  rw [hp, hbefore]

private theorem Unreleased.step (h : Unreleased s) (hc : Consistent s) (hok : s.Matched e) (hkept : s.Unexchanged e)
    (hs : s.step e = some s') : Unreleased s' := by
  have hc' := hc.step hok hs
  cases e with
  | reference lock =>
    obtain ⟨-, hs⟩ := Option.ite_none_left_eq_some.mp hs
    cases hs
    rw [WindowPixmaps.reference_eq hc.isDiscarded]
    exact List.forall_mem_cons.mpr ⟨fun _ hserial => hserial, h⟩
  | unreference lock =>
    obtain ⟨-, hs⟩ := Option.ite_none_right_eq_some.mp hs
    cases hs
    exact h.of_fewer hc' (fun _ hp => WindowPixmaps.mem_previous_unreference hp) fun r hr => (mem_without.mp hr).1
  | discardPixmap =>
    cases hvalid : s.window.hasValid with
    | false =>
      cases (step_discard_of_invalid hvalid).symm.trans hs
      exact h.of_fewer hc' (fun _ hp => hp) fun _ hr => hr
    | true =>
      obtain ⟨p, hp, hv⟩ := exists_valid hvalid
      cases (step_discard_of_valid hp hv).symm.trans hs
      refine List.forall_mem_cons.mpr ⟨fun _ hserial => hserial, fun r hr serial hserial => ?_⟩
      have hsome := hc.balanced.kept r hr (by rw [hserial]; rfl)
      rw [hkept hvalid] at hsome
      cases hsome
  | updatePixmap source =>
    refine h.of_fewer hc' ?_ ?_
    · cases hs
      exact fun _ hp => WindowPixmaps.mem_previous_updatePixmap hc.created hp
    · cases hs
      intro r hr
      dsimp only at hr
      split at hr
      · exact (mem_without.mp hr).1
      · exact hr

private theorem Unreleased.spoil (h : Unreleased s) (hc : Consistent s) (hbad : ¬ s.Unexchanged e)
    (hs : s.step e = some s') : ¬ Unreleased s' := by
  intro h'
  cases e with
  | reference lock => exact hbad trivial
  | unreference lock => exact hbad trivial
  | updatePixmap source => exact hbad trivial
  | discardPixmap =>
    obtain ⟨hvalid, hprev⟩ := Classical.not_imp.mp hbad
    obtain ⟨p, hp, hv⟩ := exists_valid hvalid
    obtain ⟨old, hold⟩ := Option.ne_none_iff_exists'.mp hprev
    obtain ⟨r, hr, hfound⟩ := List.countP_pos_iff.mp (hc.previous.mp (by rw [hold]; rfl))
    obtain ⟨serial, hserial⟩ := Option.isSome_iff_exists.mp hfound
    cases (step_discard_of_valid hp hv).symm.trans hs
    have hbefore := h r hr serial hserial
    have hafter := h' r (List.mem_cons_of_mem _ hr) serial hserial
    rw [hold, Option.map_some, Option.some_inj] at hbefore
    rw [Option.map_some, Option.some_inj] at hafter
    have hlt := (hc.serials old hold).2 p hp
    dsimp only at hafter
    omega

end CrossFaded

/-- The previous pixmap is counted right throughout a run exactly when references are matched, and no pixmap is released
while it has references exactly when none is exchanged either. -/
theorem previousPixmap_references_iff (es : List PixmapEvent) :
    (Lib.Along CrossFaded.step CrossFaded.Balanced .initial es ↔
      Lib.Throughout CrossFaded.step CrossFaded.Matched .initial es) ∧
    (Lib.Along CrossFaded.step (fun s => s.Balanced ∧ s.Unreleased) .initial es ↔
      Lib.Throughout CrossFaded.step (fun s e => s.Matched e ∧ s.Unexchanged e) .initial es) := by
  constructor
  · exact Lib.along_iff_throughout CrossFaded.Consistent (fun _ h => h.balanced) (fun _ _ _ h hok hs => h.step hok hs)
      (fun _ _ _ h hbad hs => h.spoil hbad hs) CrossFaded.Consistent.initial es
  · refine Lib.along_iff_throughout (fun s => s.Consistent ∧ s.Unreleased) (fun _ h => ⟨h.1.balanced, h.2⟩)
      (fun _ _ _ h hok hs => ⟨h.1.step hok.1 hs, h.2.step h.1 hok.1 hok.2 hs⟩) ?_
      ⟨.initial, fun _ hr => by cases hr⟩ es
    intro s e s' h hbad hs hgood
    rcases Classical.not_and_iff_not_or_not.mp hbad with hbad | hbad
    · exact h.1.spoil hbad hs hgood.1
    · exact h.2.spoil h.1 hbad hs hgood.2

/-- A surface with a buffer. -/
private def buffered (buffer : Nat) : PixmapSource :=
  ⟨false, true, some (some buffer), none, none, false, true, true, 0⟩

/-- The first lock finds no previous pixmap and the second one does; when the first one goes and the window has a new
pixmap, the previous one is gone although the second lock is there. -/
theorem early_lock_releases : ∃ s, Lib.execute CrossFaded.step .initial
    [.updatePixmap (buffered 1), .reference 1, .discardPixmap, .reference 2, .unreference 1, .updatePixmap (buffered 2)] =
      some s ∧ s.references = [⟨.previousWindowPixmapLock 2, some 0⟩] ∧ s.window.previousPixmap = none ∧ ¬ s.Balanced := by
  refine ⟨_, rfl, rfl, rfl, fun h => ?_⟩
  cases h.kept ⟨.previousWindowPixmapLock 2, some 0⟩ (by decide) rfl

end KWinFT.Scene
