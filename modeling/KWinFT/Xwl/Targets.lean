import KWinFT.Xwl.Selection
import Mathlib.Data.List.Nodup
import Mathlib.Data.List.Perm.Subperm

/-! The targets that a Wayland source announces to X clients. The list is put together from the types that a source has
when it is set and from its later offers; requests are served from the list of the source itself. -/
namespace KWinFT.Xwl

/-- The atoms of the selections, and those of other names. -/
structure Atoms where
  timestamp : Atom
  targets : Atom
  utf8String : Atom
  text : Atom
  uriList : Atom
  intern : String → Atom
  atomName : Atom → String

namespace Atoms
variable (a : Atoms)

def mimeTypeToAtom (mimeType : String) : Atom :=
  if mimeType = "text/plain;charset=utf-8" then a.utf8String
  else if mimeType = "text/plain" then a.text
  else if mimeType = "text/x-uri" then a.uriList
  else a.intern mimeType

def atomToMimeTypes (atom : Atom) : List String :=
  if atom = a.utf8String then ["text/plain;charset=utf-8"]
  else if atom = a.text then ["text/plain"]
  else if atom = a.uriList then ["text/uri-list", "text/x-uri"]
  else [a.atomName atom]

/-- A source may have the old or the new type for a list of addresses. -/
def matchesTarget (target : Atom) (mime : String) : Bool :=
  match a.atomToMimeTypes target with
  | [] => false
  | first :: _ => if first = "text/uri-list" then first = mime ∨ mime = "text/x-uri" else first = mime

end Atoms

/-- The source of a selection, with what all sources have offered so far; each connection brings the later offers of
a source once more. -/
structure Offering where
  source : WlSource
  types : Nat → List String
  connections : List Nat

namespace Offering
variable (o : Offering)

def initial (ddi : DataDevice) (types : Nat → List String) : Offering := ⟨⟨currentTime, ddi, none, []⟩, types, []⟩

def current : Option Nat := o.source.dsi.map (·.id)

def receiveOffer (mime : String) (source : WlSource) : WlSource := { source with offers := source.offers ++ [mime] }

/-- There is no source after one that does not exist was asked for its types. -/
def setDataSourceIface (dsi : Option Nat) : Option Offering :=
  if o.current = dsi then some o
  else dsi.map fun id =>
    { o with source := o.source.setDataSourceIface ⟨id, o.types id⟩, connections := o.connections ++ [id] }

def mimeTypeOffered (id : Nat) (mime : String) : Offering :=
  { o with
    types := Function.update o.types id (o.types id ++ [mime])
    source := (receiveOffer mime)^[o.connections.count id] o.source }

def sendTargets (a : Atoms) : List Atom := a.timestamp :: a.targets :: o.source.offers.map a.mimeTypeToAtom

/-- The type that is requested from the source. -/
def checkStartTransfer (a : Atoms) (target : Atom) : Option String :=
  o.current.bind fun id => (o.types id).find? (a.matchesTarget target)

end Offering

inductive OfferEvent
  | setDataSourceIface (dsi : Option Nat)
  | mimeTypeOffered (id : Nat) (mime : String)

def offerStep (o : Option Offering) (e : OfferEvent) : Option (Option Offering) :=
  o.map fun o =>
    match e with
    | .setDataSourceIface dsi => o.setDataSourceIface dsi
    | .mimeTypeOffered id mime => some (o.mimeTypeOffered id mime)

namespace Offering
variable (o : Offering) (a : Atoms)

/-- What the current source has offered so far. -/
def offered : List String := (o.current.map o.types).getD []

/-- The targets are those of the current source, each once, and all of them can be served. -/
def AnnouncesCurrent : Prop :=
  ∃ mimes : List String, o.sendTargets a = a.timestamp :: a.targets :: mimes.map a.mimeTypeToAtom ∧ mimes.Nodup ∧
    (∀ mime, mime ∈ mimes ↔ mime ∈ o.offered) ∧
    ∀ mime ∈ mimes, (o.checkStartTransfer a (a.mimeTypeToAtom mime)).isSome

end Offering

/-- Some of the types is found for the atom of this one. -/
def Atoms.Served (a : Atoms) (types : List String) (mime : String) : Prop :=
  ∃ b ∈ types, a.matchesTarget (a.mimeTypeToAtom mime) b

/-- A source is set only when the one before has offered nothing, and offers only as the current source; it offers no
type twice, and types that are found again from their atoms. -/
def Offering.Careful (a : Atoms) (o : Offering) : OfferEvent → Prop
  | .setDataSourceIface dsi => o.current = dsi ∨ o.offered = [] ∧ ∃ id, dsi = some id ∧ (o.types id).Nodup ∧
      ∀ mime ∈ o.types id, a.Served (o.types id) mime
  | .mimeTypeOffered id mime =>
      if o.current = some id then
        mime ∉ o.types id ∧ o.connections.count id = 1 ∧ a.Served (o.types id ++ [mime]) mime
      else id ∉ o.connections

namespace Offering
variable {a : Atoms} {o : Offering}

/-- The list of offers agrees with the types of the current source. -/
structure Agrees (a : Atoms) (o : Offering) : Prop where
  nodup : o.source.offers.Nodup
  mem : ∀ mime, mime ∈ o.source.offers ↔ mime ∈ o.offered
  served : ∀ mime ∈ o.offered, a.Served o.offered mime

private theorem Agrees.announcesCurrent (h : Agrees a o) : o.AnnouncesCurrent a := by
  refine ⟨o.source.offers, rfl, h.nodup, h.mem, fun mime hm => ?_⟩
  obtain ⟨b, hb, hmatch⟩ := h.served mime ((h.mem mime).mp hm)
  unfold offered at hb
  cases hc : o.current with
  | none =>
    rw [hc] at hb
    cases hb
  | some id =>
    rw [hc] at hb
    rw [checkStartTransfer, hc, Option.bind_some, List.find?_isSome]
    exact ⟨b, hb, hmatch⟩

private theorem Agrees.setDataSourceIface (h : Agrees a o) {dsi : Option Nat}
    (hc : o.Careful a (.setDataSourceIface dsi)) : ∃ o', o.setDataSourceIface dsi = some o' ∧ Agrees a o' := by
  unfold Offering.setDataSourceIface
  split
  · exact ⟨o, rfl, h⟩
  · next hne =>
    obtain hsame | ⟨hnone, id, rfl, hnodup, hserved⟩ := hc
    · exact absurd hsame hne
    · have hoffers : o.source.offers = [] := by
        refine List.eq_nil_iff_forall_not_mem.mpr fun mime hm => ?_
        rw [h.mem, hnone] at hm
        cases hm
      have hsource : o.source.setDataSourceIface ⟨id, o.types id⟩ =
          { o.source with offers := o.types id, dsi := some ⟨id, o.types id⟩ } := by
        refine (if_neg hne).trans ?_
        rw [hoffers, List.nil_append]
      refine ⟨_, rfl, ?_⟩
      dsimp only
      rw [hsource]
      exact ⟨hnodup, fun _ => Iff.rfl, hserved⟩

private theorem iterate_receiveOffer_dsi (mime : String) (n : Nat) (source : WlSource) :
    ((receiveOffer mime)^[n] source).dsi = source.dsi := by
  induction n generalizing source with
  | zero => rfl
  | succ n ih => rw [Function.iterate_succ_apply, ih, receiveOffer]

private theorem current_mimeTypeOffered (id : Nat) (mime : String) : (o.mimeTypeOffered id mime).current = o.current :=
  congrArg (Option.map fun dsi : DataSource => dsi.id) (iterate_receiveOffer_dsi mime _ o.source)

private theorem Agrees.mimeTypeOffered (h : Agrees a o) {id : Nat} {mime : String}
    (hc : o.Careful a (.mimeTypeOffered id mime)) : Agrees a (o.mimeTypeOffered id mime) := by
  simp only [Careful] at hc
  split at hc
  · next hcur =>
    obtain ⟨hnew, hcount, hserved⟩ := hc
    have hoffered : o.offered = o.types id := by rw [offered, hcur]; rfl
    have hoffered' : (o.mimeTypeOffered id mime).offered = o.types id ++ [mime] := by
      rw [offered, current_mimeTypeOffered, hcur]
      exact Function.update_self id _ _
    have hoffers : (o.mimeTypeOffered id mime).source.offers = o.source.offers ++ [mime] := by
      rw [Offering.mimeTypeOffered, hcount]
      rfl
    refine ⟨?_, fun m => ?_, fun m hm => ?_⟩
    · rw [hoffers, ← List.concat_eq_append]
      refine h.nodup.concat fun hm => hnew ?_
      rwa [h.mem, hoffered] at hm
    · rw [hoffers, hoffered', List.mem_append, List.mem_append, h.mem, hoffered]
    · rw [hoffered'] at hm ⊢
      rcases List.mem_append.mp hm with hm | hm
      · obtain ⟨b, hb, hmatch⟩ := h.served m (hoffered ▸ hm)
        exact ⟨b, List.mem_append_left _ (hoffered ▸ hb), hmatch⟩
      · rw [List.mem_singleton.mp hm]
        exact hserved
  · next hcur =>
    have hsource : (o.mimeTypeOffered id mime).source = o.source := by
      rw [Offering.mimeTypeOffered, List.count_eq_zero.mpr hc]
      rfl
    have hoffered : (o.mimeTypeOffered id mime).offered = o.offered := by
      rw [offered, current_mimeTypeOffered, offered]
      cases hd : o.current with
      | none => rfl
      | some d =>
        have hne : d ≠ id := fun he => hcur (he ▸ hd)
        exact Function.update_of_ne hne _ _
    exact ⟨hsource ▸ h.nodup, hsource ▸ hoffered ▸ h.mem, hoffered ▸ h.served⟩

end Offering

/-- Events that meet the condition, as long as there is a source. -/
def carefulOffers (a : Atoms) (o : Option Offering) (e : OfferEvent) : Prop := ∀ o', o = some o' → o'.Careful a e

/-- In a careful run the announced targets match the current source all the time. -/
theorem careful_announcesCurrent (a : Atoms) {ddi : DataDevice} {types : Nat → List String} {o : Option Offering}
    (h : Lib.Reachable offerStep (carefulOffers a) (some (.initial ddi types)) o) :
    ∃ o', o = some o' ∧ o'.AnnouncesCurrent a := by
  have hagrees : ∃ o', o = some o' ∧ o'.Agrees a := by
    refine h.invariant (fun o => ∃ o', o = some o' ∧ o'.Agrees a) ⟨_, rfl, List.nodup_nil, fun _ => Iff.rfl, ?_⟩ ?_
    · exact fun _ hm => nomatch hm
    · rintro _ e s' ⟨o', rfl, hagrees⟩ hok hstep
      have hc := hok o' rfl
      cases e with
      | setDataSourceIface dsi =>
        cases hstep
        exact hagrees.setDataSourceIface hc
      | mimeTypeOffered id mime =>
        cases hstep
        exact ⟨_, rfl, hagrees.mimeTypeOffered hc⟩
  obtain ⟨o', rfl, hagrees⟩ := hagrees
  exact ⟨o', rfl, hagrees.announcesCurrent⟩

def htmlAtoms : Atoms where
  timestamp := 1
  targets := 2
  utf8String := 3
  text := 4
  uriList := 5
  intern name := if name = "text/html" then 6 else 7
  atomName atom := if atom = 6 then "text/html" else ""

def htmlThenPlain : Offering := .initial ⟨0, none⟩ fun id => if id = 0 then ["text/html"] else ["text/plain"]

/-- The first source offers plain text later. -/
theorem later_offer_announced : ∃ o, Lib.Reachable offerStep (carefulOffers htmlAtoms) (some htmlThenPlain) (some o) ∧
    o.offered = ["text/html", "text/plain"] ∧ o.AnnouncesCurrent htmlAtoms := by
  have h₁ : Lib.Reachable offerStep (carefulOffers htmlAtoms) (some htmlThenPlain) _ :=
    .step (.setDataSourceIface (some 0)) .init (fun o ho => by
      cases ho
      exact .inr ⟨rfl, 0, rfl, by decide, by unfold Atoms.Served; decide⟩) rfl
  have h₂ := Lib.Reachable.step (OfferEvent.mimeTypeOffered 0 "text/plain") h₁ (fun o ho => by
    cases ho
    simp only [Offering.Careful]
    exact ⟨by decide, by decide, by unfold Atoms.Served; decide⟩) rfl
  obtain ⟨o, ho, hannounces⟩ := careful_announcesCurrent htmlAtoms h₂
  cases ho
  exact ⟨_, h₂, rfl, hannounces⟩

/-- The targets of the first source stay when a second one is set; to set none is fatal. -/
theorem replaced_source_announced :
    (∃ o, Lib.Reachable offerStep Lib.anyStep (some htmlThenPlain) (some o) ∧ o.offered = ["text/plain"] ∧
      o.sendTargets htmlAtoms = [1, 2, 6, 4] ∧ ¬ o.AnnouncesCurrent htmlAtoms) ∧
    Lib.Reachable offerStep Lib.anyStep (some htmlThenPlain) none := by
  refine ⟨⟨_, Lib.Reachable.init.execute [.setDataSourceIface (some 0), .setDataSourceIface (some 1)] rfl, rfl, rfl, ?_⟩,
    Lib.Reachable.init.execute [.setDataSourceIface (some 0), .setDataSourceIface none] rfl⟩
  rintro ⟨mimes, htargets, hnodup, hmem, -⟩
  have hlength : mimes.length = 2 := by
    have hlist : [1, 2, 6, 4] = 1 :: 2 :: mimes.map htmlAtoms.mimeTypeToAtom := htargets
    simpa using (congrArg List.length hlist).symm
  have hsub : mimes ⊆ ["text/plain"] := fun mime hm => (hmem mime).mp hm
  have hle := (List.subperm_of_subset hnodup hsub).length_le
  rw [hlength] at hle
  exact absurd hle (by decide)

end KWinFT.Xwl
