import Mathlib.Data.List.TakeWhile
import KWinFT.RuleBook.Settings

/-! Rules written to the configuration and read again. All policies and the data in use survive, and so do the match
strings but for three slips: bytes beyond ASCII change, an empty string leaves what an unused group stored, and a
color scheme with a dot or a slash in its name is not found again. -/
namespace KWinFT.RuleBook
open KWinFT.Geometry

/-! Codes and limits. -/

@[simp] theorem Policy.code_ofCode (code : Int) : (Policy.ofCode code).code = code := by
  unfold ofCode
  split <;> rfl

@[simp] theorem StringMatch.ofCode_code (kind : StringMatch) : StringMatch.ofCode kind.code = kind := by
  cases kind <;> rfl

theorem clamp_clamp (lo hi v : Int) : clamp lo hi (clamp lo hi v) = clamp lo hi v := by
  simp only [clamp]
  omega

theorem StringMatch.clamp_code (kind : StringMatch) : clamp 0 3 kind.code = kind.code := by
  cases kind <;> rfl

theorem ForceProperty.bound_bound (p : ForceProperty) (v : p.Data) : p.bound (p.bound v) = p.bound v := by
  cases p <;> first | rfl | exact clamp_clamp ..

theorem Key.bound_bound (k : Key) (v : k.Value) : k.bound (k.bound v) = k.bound v := by
  cases k with
  | wmclassmatch | windowrolematch | titlematch | clientmachinematch => exact clamp_clamp ..
  | setRule p => exact clamp_clamp ..
  | forceData p => exact p.bound_bound v
  | _ => rfl

namespace RuleSettings
variable (s : RuleSettings)

/-- What is saved is read again within its limits. -/
theorem ofGroup_save (k : Key) : ofGroup s.save k = k.bound (s k) := by
  simp only [ofGroup, save]
  split
  · next h => rw [h]; rfl
  · rfl

theorem set_self (k : Key) (v : k.Value) : s.set k v k = k.bound v := Function.update_self ..

theorem set_of_ne {k k' : Key} (h : k' ≠ k) (v : k.Value) : s.set k v k' = s k' := Function.update_of_ne h ..

end RuleSettings

/-! What `write` leaves in the settings. -/

section fold
variable {ι : Type} {f : RuleSettings → ι → RuleSettings} {k : Key} {i : ι} (s : RuleSettings)

private theorem foldl_apply_eq (is : List ι) (h : ∀ s, ∀ j ∈ is, f s j k = s k) : is.foldl f s k = s k := by
  induction is generalizing s with
  | nil => rfl
  | cons j is ih =>
    rw [List.foldl_cons, ih _ fun s j hj => h s j (List.mem_cons_of_mem _ hj), h s j List.mem_cons_self]

/-- The value that one member writes, and no other touches. -/
private theorem foldl_apply_of_mem {is : List ι} {v : k.Value} (hi : i ∈ is) (hv : ∀ s, f s i k = v)
    (h : ∀ s j, j ≠ i → f s j k = s k) : is.foldl f s k = v := by
  induction is generalizing s with
  | nil => cases hi
  | cons j is ih =>
    rw [List.foldl_cons]
    by_cases hmem : i ∈ is
    · exact ih _ hmem
    · obtain rfl : i = j := (List.mem_cons.mp hi).resolve_right hmem
      rw [foldl_apply_eq _ is fun s j hj => h s j fun he => hmem (he ▸ hj), hv]

end fold

namespace Rules
variable (r : Rules) (s : RuleSettings) {k : Key}

private theorem writeSet_of_ne (p : SetProperty) (hr : k ≠ .setRule p) (hd : k ≠ .setData p) :
    r.writeSet s p k = s k := by
  simp only [writeSet]
  split
  · rw [RuleSettings.set_of_ne _ hd, RuleSettings.set_of_ne _ hr]
  · rw [RuleSettings.set_of_ne _ hr]

private theorem writeForce_of_ne (p : ForceProperty) (hr : k ≠ .forceRule p) (hd : k ≠ .forceData p) :
    r.writeForce s p k = s k := by
  simp only [writeForce]
  split
  · rw [RuleSettings.set_of_ne _ hd, RuleSettings.set_of_ne _ hr]
  · rw [RuleSettings.set_of_ne _ hr]

/-- Keys of match strings are written before those of properties. -/
theorem write_string (hs : ∀ p, k ≠ .setRule p ∧ k ≠ .setData p) (hf : ∀ p, k ≠ .forceRule p ∧ k ≠ .forceData p) :
    r.write s k = r.writeStrings s k := by
  rw [write, foldl_apply_eq _ _ fun s p _ => r.writeForce_of_ne s p (hf p).1 (hf p).2,
    foldl_apply_eq _ _ fun s p _ => r.writeSet_of_ne s p (hs p).1 (hs p).2]

theorem write_setRule (p : SetProperty) : r.write s (.setRule p) = clamp 0 6 (r.set p).rule.code := by
  rw [write, foldl_apply_eq _ _ fun s q _ => r.writeForce_of_ne s q (by simp) (by simp)]
  refine foldl_apply_of_mem _ p.mem_all (fun s => ?_) fun s q hq =>
    r.writeSet_of_ne s q (by simpa using hq.symm) (by simp)
  simp only [writeSet]
  split
  · rw [RuleSettings.set_of_ne _ (by simp), RuleSettings.set_self]
    rfl
  · rw [RuleSettings.set_self]
    rfl

theorem write_setData (p : SetProperty) (hu : (r.set p).rule ≠ .unused) :
    r.write s (.setData p) = (r.set p).data := by
  rw [write, foldl_apply_eq _ _ fun s q _ => r.writeForce_of_ne s q (by simp) (by simp)]
  refine foldl_apply_of_mem _ p.mem_all (fun s => ?_) fun s q hq =>
    r.writeSet_of_ne s q (by simp) (by simpa using hq.symm)
  rw [writeSet, if_pos hu, RuleSettings.set_self]
  rfl

theorem write_forceRule (p : ForceProperty) : r.write s (.forceRule p) = (r.force p).rule.code := by
  refine foldl_apply_of_mem _ p.mem_written (fun s => ?_) fun s q hq =>
    r.writeForce_of_ne s q (by simpa using hq.symm) (by simp)
  simp only [writeForce]
  split
  · rw [RuleSettings.set_of_ne _ (by simp), RuleSettings.set_self]
    rfl
  · rw [RuleSettings.set_self]
    rfl

theorem write_forceData (p : ForceProperty) (hu : (r.force p).rule ≠ .unused) :
    r.write s (.forceData p) = p.bound (p.convert (r.force p).data) := by
  refine foldl_apply_of_mem _ p.mem_written (fun s => ?_) fun s q hq =>
    r.writeForce_of_ne s q (by simp) (by simpa using hq.symm)
  rw [writeForce, if_pos hu, RuleSettings.set_self]
  rfl

private theorem writeString_apply (isEmpty force : Bool) (data kind : RuleSettings → RuleSettings) (k : Key) :
    writeString isEmpty force data kind s k = if ¬ isEmpty ∨ force then data (kind s) k else kind s k := by
  unfold writeString
  split <;> rfl

/-- What is always written, and the strings: an empty one besides the first leaves what is there. -/
private theorem writeStrings_apply :
    (r.writeStrings s .wmclassmatch = r.wmclass.match.code ∧ r.writeStrings s .windowrolematch = r.windowrole.match.code ∧
      r.writeStrings s .titlematch = r.title.match.code ∧
      r.writeStrings s .clientmachinematch = r.clientmachine.match.code ∧
      r.writeStrings s .wmclasscomplete = r.wmclasscomplete ∧ r.writeStrings s .types = r.types) ∧
    r.writeStrings s .wmclass = fromUtf8 r.wmclass.data ∧
    (r.writeStrings s .windowrole = if r.windowrole.data = [] then s .windowrole else fromUtf8 r.windowrole.data) ∧
    (r.writeStrings s .title = if r.title.data = [] then s .title else r.title.data) ∧
    r.writeStrings s .clientmachine =
      if r.clientmachine.data = [] then s .clientmachine else fromUtf8 r.clientmachine.data := by
  simp [writeStrings, writeString_apply, RuleSettings.set_of_ne, RuleSettings.set_self, Key.bound,
    StringMatch.clamp_code]

theorem writeStrings_wmclass : r.writeStrings s .wmclass = fromUtf8 r.wmclass.data := (r.writeStrings_apply s).2.1

theorem writeStrings_windowrole : r.writeStrings s .windowrole =
    if r.windowrole.data = [] then s .windowrole else fromUtf8 r.windowrole.data := (r.writeStrings_apply s).2.2.1

theorem writeStrings_title : r.writeStrings s .title = if r.title.data = [] then s .title else r.title.data :=
  (r.writeStrings_apply s).2.2.2.1

theorem writeStrings_clientmachine : r.writeStrings s .clientmachine =
    if r.clientmachine.data = [] then s .clientmachine else fromUtf8 r.clientmachine.data :=
  (r.writeStrings_apply s).2.2.2.2

theorem writeStrings_kinds : r.writeStrings s .wmclassmatch = r.wmclass.match.code ∧
    r.writeStrings s .windowrolematch = r.windowrole.match.code ∧ r.writeStrings s .titlematch = r.title.match.code ∧
    r.writeStrings s .clientmachinematch = r.clientmachine.match.code ∧
    r.writeStrings s .wmclasscomplete = r.wmclasscomplete ∧ r.writeStrings s .types = r.types :=
  (r.writeStrings_apply s).1

end Rules

/-! One rule. -/

section one
variable (m : CaseMapping) (l : Locator) (g : Group) (base : RuleSettings)

/-- The rule that is read after `r` was written over `base` and saved. -/
def Rules.reread (r : Rules) : Rules := readFromSettings m l (.ofGroup (r.write base).save)

/-- The parts that must survive. -/
structure SameRule (r r' : Rules) : Prop where
  wmclass : r'.wmclass = r.wmclass
  windowrole : r'.windowrole = r.windowrole
  clientmachine : r'.clientmachine = r.clientmachine
  title : r'.title = r.title
  wmclasscomplete : r'.wmclasscomplete = r.wmclasscomplete
  types : r'.types = r.types
  set : ∀ p, (r'.set p).rule = (r.set p).rule ∧ ((r.set p).rule ≠ .unused → (r'.set p).data = (r.set p).data)
  force : ∀ p, (r'.force p).rule = (r.force p).rule ∧ ((r.force p).rule ≠ .unused → (r'.force p).data = (r.force p).data)

private theorem readSet_of_ne (s : RuleSettings) {p : SetProperty} (h : p ≠ .size) :
    readSet s p = ⟨s (.setData p), .ofCode (s (.setRule p))⟩ := by
  cases p <;> first | rfl | exact absurd rfl h

/-- Policies of set properties are within the limits of their key. -/
private theorem readSet_code (p : SetProperty) : clamp 0 6 (readSet (.ofGroup g) p).rule.code =
    (readSet (.ofGroup g) p).rule.code ∧ .ofCode (readSet (.ofGroup g) p).rule.code = (readSet (.ofGroup g) p).rule := by
  have hcode : ∀ v, clamp 0 6 (Policy.ofCode (clamp 0 6 v)).code = (Policy.ofCode (clamp 0 6 v)).code ∧
      Policy.ofCode (Policy.ofCode (clamp 0 6 v)).code = Policy.ofCode (clamp 0 6 v) := by
    intro v
    rw [Policy.code_ofCode, clamp_clamp]
    exact ⟨rfl, rfl⟩
  by_cases hp : p = .size
  · subst hp
    simp only [readSet]
    split
    · exact ⟨rfl, rfl⟩
    · exact hcode _
  · rw [readSet_of_ne _ hp]
    exact hcode _

/-- An empty size is remembered or unused. -/
private theorem readSet_size (s : RuleSettings) (he : Size.isEmpty (readSet s .size).data) :
    (readSet s .size).rule = .unused ∨ (readSet s .size).rule = .remember := by
  have he : Size.isEmpty (s (.setData .size)) = true := he
  simp only [readSet, he, true_and]
  split
  · exact .inl rfl
  · next hr => exact .inr (not_not.mp hr)

/-- Set properties survive: an empty size is either remembered or unused already. -/
theorem reread_set (p : SetProperty) :
    let r := readFromSettings m l (.ofGroup g)
    ((r.reread m l base).set p).rule = (r.set p).rule ∧
      ((r.set p).rule ≠ .unused → ((r.reread m l base).set p).data = (r.set p).data) := by
  intro r
  have hrule : RuleSettings.ofGroup (r.write base).save (.setRule p) = (r.set p).rule.code := by
    rw [RuleSettings.ofGroup_save, r.write_setRule]
    exact (clamp_clamp ..).trans (readSet_code g p).1
  have hdata : (r.set p).rule ≠ .unused → RuleSettings.ofGroup (r.write base).save (.setData p) = (r.set p).data := by
    intro hu
    rw [RuleSettings.ofGroup_save, r.write_setData base p hu]
    rfl
  have hback : Policy.ofCode (r.set p).rule.code = (r.set p).rule := (readSet_code g p).2
  change (readSet _ p).rule = _ ∧ (_ → (readSet _ p).data = _)
  by_cases hp : p = .size
  · subst hp
    refine ⟨?_, hdata⟩
    simp only [readSet, hrule, hback]
    split
    · next he =>
      by_contra hu
      rw [hdata (Ne.symm hu)] at he
      exact (readSet_size (.ofGroup g) he.1).elim (Ne.symm hu) he.2
    · rfl
  · rw [readSet_of_ne _ hp, hrule, hback]
    exact ⟨rfl, hdata⟩

private theorem readForce_of_ne (s : RuleSettings) {p : ForceProperty}
    (h : p ≠ .decocolor ∧ p ≠ .maxsize ∧ p ≠ .minsize ∧ p ≠ .type) :
    readForce l s p = ⟨s (.forceData p), .ofCode (s (.forceRule p))⟩ := by
  cases p <;> first | rfl | exact absurd rfl h.1 | exact absurd rfl h.2.1 | exact absurd rfl h.2.2.1 | exact absurd rfl h.2.2.2

private theorem readForce_code (s : RuleSettings) (p : ForceProperty) :
    .ofCode (readForce l s p).rule.code = (readForce l s p).rule := by
  cases p <;> simp only [readForce, Policy.code_ofCode] <;> split <;> first | rfl | rw [Policy.code_ofCode]

private theorem bound_readForce (p : ForceProperty) :
    p.bound (readForce l (.ofGroup g) p).data = (readForce l (.ofGroup g) p).data := by
  cases p <;> first | rfl | exact ForceProperty.bound_bound _ _

private theorem convert_of_ne {p : ForceProperty} (h : p ≠ .decocolor) (v : p.Data) : p.convert v = v := by
  cases p <;> first | rfl | exact absurd rfl h

/-- The force properties other than the color scheme survive. -/
theorem reread_force {p : ForceProperty} (hp : p ≠ .decocolor) :
    let r := readFromSettings m l (.ofGroup g)
    ((r.reread m l base).force p).rule = (r.force p).rule ∧
      ((r.force p).rule ≠ .unused → ((r.reread m l base).force p).data = (r.force p).data) := by
  intro r
  have hrule : RuleSettings.ofGroup (r.write base).save (.forceRule p) = (r.force p).rule.code := by
    rw [RuleSettings.ofGroup_save, r.write_forceRule]
    rfl
  have hdata : (r.force p).rule ≠ .unused → RuleSettings.ofGroup (r.write base).save (.forceData p) = (r.force p).data := by
    intro hu
    rw [RuleSettings.ofGroup_save, r.write_forceData base p hu, convert_of_ne hp]
    exact (p.bound_bound _).trans (bound_readForce l g p)
  have hback : Policy.ofCode (r.force p).rule.code = (r.force p).rule := readForce_code l _ p
  change (readForce l _ p).rule = _ ∧ (_ → (readForce l _ p).data = _)
  by_cases hmax : p = .maxsize
  · subst hmax
    refine ⟨by rw [← hback, ← hrule]; rfl, fun hu => ?_⟩
    simp only [readForce, hdata hu]
    -- What was read is not empty.
    split
    · next he =>
      change Size.isEmpty (if _ then _ else _) = true at he
      split at he
      · cases he
      · next hn => exact absurd he hn
    · rfl
  by_cases hmin : p = .minsize
  · subst hmin
    refine ⟨by rw [← hback, ← hrule]; rfl, fun hu => ?_⟩
    simp only [readForce, hdata hu]
    split
    · rfl
    · next he =>
      change ¬ Size.isValid (if _ then _ else _) = true at he
      split at he
      · next hv => exact absurd hv he
      · exact absurd rfl he
  by_cases htype : p = .type
  · subst htype
    refine ⟨?_, hdata⟩
    simp only [readForce, hrule, hback]
    split
    · next he =>
      by_contra hu
      rw [hdata (Ne.symm hu)] at he
      refine hu (Eq.symm ?_)
      change (if _ then _ else _) = _
      exact if_pos he
    · rfl
  · rw [readForce_of_ne l _ ⟨hp, hmax, hmin, htype⟩, hrule, hback]
    exact ⟨rfl, hdata⟩

private theorem baseName_append (dir : QString) {file : QString} (h : '/' ∉ file) :
    baseName (dir ++ '/' :: file) = file.takeWhile (· ≠ '.') := by
  have hfile : ∀ c ∈ file.reverse, decide (c ≠ '/') = true := by
    intro c hc
    rw [decide_eq_true_eq]
    exact fun he => h (List.mem_reverse.mp (he ▸ hc))
  rw [baseName, List.reverse_append, List.reverse_cons, List.append_assoc, List.takeWhile_append_of_pos hfile]
  simp

/-- A color scheme with a plain name is found again by the name of its file. -/
private theorem baseName_getDecoColor {name : QString} (hdot : '.' ∉ name) (hslash : '/' ∉ name)
    (h : getDecoColor l name ≠ []) : baseName (getDecoColor l name) = name := by
  rw [getDecoColor] at h ⊢
  split at h
  · exact absurd rfl h
  next hn =>
  rw [if_neg hn]
  obtain ⟨dir, hdir⟩ := (l.found (colorSchemes ++ name ++ colors)).resolve_left h
  have hpath : dir ++ '/' :: (colorSchemes ++ name ++ colors) =
      (dir ++ '/' :: colorSchemes.dropLast) ++ '/' :: (name ++ colors) := by
    simp [colorSchemes]
  have hname : ∀ c ∈ name, decide (c ≠ '.') = true := by
    intro c hc
    rw [decide_eq_true_eq]
    exact fun he => hdot (he ▸ hc)
  rw [hdir, hpath, baseName_append _ (by simp [hslash, colors]), List.takeWhile_append_of_pos hname]
  simp [colors]

private theorem colorToString_getDecoColor {name : QString} (h : getDecoColor l name ≠ []) :
    colorToString (getDecoColor l name) = baseName (getDecoColor l name) := by
  rw [colorToString, if_pos]
  rw [getDecoColor] at h ⊢
  split at h
  · exact absurd rfl h
  next hn =>
  obtain ⟨dir, hdir⟩ := (l.found (colorSchemes ++ name ++ colors)).resolve_left h
  rw [if_neg hn, hdir, List.isSuffixOf_iff_suffix]
  exact ⟨dir ++ '/' :: (colorSchemes ++ name), by simp⟩

private theorem baseName_plain (path : QString) : '.' ∉ baseName path ∧ '/' ∉ baseName path := by
  constructor
  · intro h
    exact absurd (List.mem_takeWhile_imp h) (by simp)
  · intro h
    have h := (List.takeWhile_sublist _).subset h
    exact absurd (List.mem_takeWhile_imp (List.mem_reverse.mp h)) (by simp)

/-- The color scheme in use is found under a plain name. -/
def PlainColorScheme (r : Rules) : Prop :=
  (r.force .decocolor).rule ≠ .unused →
    ∃ name, '.' ∉ name ∧ '/' ∉ name ∧ getDecoColor l name = (r.force .decocolor).data

theorem reread_decocolor :
    let r := readFromSettings m l (.ofGroup g)
    (((r.reread m l base).force .decocolor).rule = (r.force .decocolor).rule ∧
      ((r.force .decocolor).rule ≠ .unused → ((r.reread m l base).force .decocolor).data = (r.force .decocolor).data)) ↔
      PlainColorScheme l r := by
  intro r
  have hrule : RuleSettings.ofGroup (r.write base).save (.forceRule .decocolor) = (r.force .decocolor).rule.code := by
    rw [RuleSettings.ofGroup_save, r.write_forceRule]
    rfl
  have hback : Policy.ofCode (r.force .decocolor).rule.code = (r.force .decocolor).rule := readForce_code l _ .decocolor
  change ((readForce l _ .decocolor).rule = _ ∧ (_ → (readForce l _ .decocolor).data = _)) ↔ _
  simp only [readForce, hrule, hback]
  by_cases hu : (r.force .decocolor).rule = .unused
  · simp only [PlainColorScheme, hu, ite_self, ne_eq, not_true_eq_false, false_implies, and_self]
  -- A scheme in use was found.
  have hfound : getDecoColor l (RuleSettings.ofGroup g (.forceData .decocolor)) ≠ [] := fun he => hu (if_pos he)
  have hdata : (r.force .decocolor).data = getDecoColor l (RuleSettings.ofGroup g (.forceData .decocolor)) := rfl
  have hwritten : RuleSettings.ofGroup (r.write base).save (.forceData .decocolor) =
      baseName (r.force .decocolor).data := by
    rw [RuleSettings.ofGroup_save, r.write_forceData base .decocolor hu]
    exact colorToString_getDecoColor l hfound
  rw [hwritten]
  constructor
  · intro h _
    exact ⟨_, (baseName_plain _).1, (baseName_plain _).2, h.2 hu⟩
  · intro h
    obtain ⟨name, hdot, hslash, hname⟩ := h hu
    have hagain : getDecoColor l (baseName (r.force .decocolor).data) = (r.force .decocolor).data := by
      rw [← hname, baseName_getDecoColor l hdot hslash (by rw [hname]; exact hfound)]
    rw [hagain]
    exact ⟨if_neg hfound, fun _ => rfl⟩

/-- Only ASCII, and no zero byte. -/
def Ascii (bs : QByteArray) : Prop := ∀ b ∈ bs, b ≠ 0 ∧ b.toNat < 0x80

/-- A match string that is read back: written, or left as it was when it is empty. -/
private theorem readBytes_written (q stale : QString) :
    m.readBytes (if m.readBytes q = [] then stale else fromUtf8 (m.readBytes q)) = m.readBytes q ↔
      Ascii (m.readBytes q) ∧ (m.readBytes q = [] → stale = []) := by
  split
  · next he =>
    rw [he, m.readBytes_eq_nil]
    exact ⟨fun h => ⟨nofun, fun _ => h⟩, fun h => h.2 rfl⟩
  · next he =>
    rw [m.readBytes_fromUtf8_iff]
    exact ⟨fun h => ⟨h, fun he' => absurd he' he⟩, fun h => h.1⟩

private theorem bytesMatch_eq_iff (b : BytesMatch) (data : QByteArray) {code : Int} (hc : code = b.match.code) :
    (⟨data, .ofCode code⟩ : BytesMatch) = b ↔ data = b.data := by
  rw [hc, StringMatch.ofCode_code]
  exact ⟨fun h => congrArg BytesMatch.data h, fun h => by rw [h]⟩

/-- What lets a rule survive: bytes in ASCII, nothing in place of an empty match string, and a plain color scheme. -/
structure Restores (base : RuleSettings) (r : Rules) : Prop where
  wmclass : Ascii r.wmclass.data
  windowrole : Ascii r.windowrole.data ∧ (r.windowrole.data = [] → base .windowrole = ([] : QString))
  clientmachine : Ascii r.clientmachine.data ∧ (r.clientmachine.data = [] → base .clientmachine = ([] : QString))
  title : r.title.data = [] → base .title = ([] : QString)
  decocolor : PlainColorScheme l r

/-- The settings that a rule is read from again, at the keys of match strings. -/
private theorem ofGroup_write (r : Rules) {k : Key} (hs : ∀ p, k ≠ .setRule p ∧ k ≠ .setData p)
    (hf : ∀ p, k ≠ .forceRule p ∧ k ≠ .forceData p) :
    RuleSettings.ofGroup (r.write base).save k = k.bound (r.writeStrings base k) := by
  rw [RuleSettings.ofGroup_save, r.write_string base hs hf]

private theorem reread_wmclass : let r := readFromSettings m l (.ofGroup g)
    (r.reread m l base).wmclass = r.wmclass ↔ Ascii r.wmclass.data := by
  intro r
  have hdata := ofGroup_write base r (k := .wmclass) (by simp) (by simp)
  have hkind := ofGroup_write base r (k := .wmclassmatch) (by simp) (by simp)
  rw [r.writeStrings_wmclass] at hdata
  rw [(r.writeStrings_kinds base).1] at hkind
  refine (bytesMatch_eq_iff r.wmclass _ (hkind.trans (StringMatch.clamp_code _))).trans ?_
  rw [hdata]
  exact m.readBytes_fromUtf8_iff _

private theorem reread_windowrole : let r := readFromSettings m l (.ofGroup g)
    (r.reread m l base).windowrole = r.windowrole ↔
      Ascii r.windowrole.data ∧ (r.windowrole.data = [] → base .windowrole = ([] : QString)) := by
  intro r
  have hdata := ofGroup_write base r (k := .windowrole) (by simp) (by simp)
  have hkind := ofGroup_write base r (k := .windowrolematch) (by simp) (by simp)
  rw [r.writeStrings_windowrole] at hdata
  rw [(r.writeStrings_kinds base).2.1] at hkind
  refine (bytesMatch_eq_iff r.windowrole _ (hkind.trans (StringMatch.clamp_code _))).trans ?_
  rw [hdata]
  exact readBytes_written m _ _

private theorem reread_clientmachine : let r := readFromSettings m l (.ofGroup g)
    (r.reread m l base).clientmachine = r.clientmachine ↔
      Ascii r.clientmachine.data ∧ (r.clientmachine.data = [] → base .clientmachine = ([] : QString)) := by
  intro r
  have hdata := ofGroup_write base r (k := .clientmachine) (by simp) (by simp)
  have hkind := ofGroup_write base r (k := .clientmachinematch) (by simp) (by simp)
  rw [r.writeStrings_clientmachine] at hdata
  rw [(r.writeStrings_kinds base).2.2.2.1] at hkind
  refine (bytesMatch_eq_iff r.clientmachine _ (hkind.trans (StringMatch.clamp_code _))).trans ?_
  rw [hdata]
  exact readBytes_written m _ _

private theorem reread_title (r : Rules) : (r.reread m l base).title = r.title ↔
    (r.title.data = [] → base .title = ([] : QString)) := by
  have hdata := ofGroup_write base r (k := .title) (by simp) (by simp)
  have hkind := ofGroup_write base r (k := .titlematch) (by simp) (by simp)
  rw [r.writeStrings_title] at hdata
  rw [(r.writeStrings_kinds base).2.2.1] at hkind
  have hread : (r.reread m l base).title = ⟨if r.title.data = [] then base .title else r.title.data, r.title.match⟩ := by
    change (⟨_, .ofCode _⟩ : TextMatch) = _
    rw [hdata, hkind.trans (StringMatch.clamp_code _), StringMatch.ofCode_code]
    rfl
  rw [hread]
  constructor
  · intro h he
    have hd := congrArg TextMatch.data h
    simp only [he, if_true] at hd
    exact hd
  · intro h
    split
    · next he =>
      rw [h he, ← he]
    · rfl

/-- A rule that was read survives being written and read exactly under these conditions. -/
theorem sameRule_reread_iff :
    let r := readFromSettings m l (.ofGroup g)
    SameRule r (r.reread m l base) ↔ Restores l base r := by
  intro r
  have hcomplete : (r.reread m l base).wmclasscomplete = r.wmclasscomplete :=
    (ofGroup_write base r (k := .wmclasscomplete) (by simp) (by simp)).trans (r.writeStrings_kinds base).2.2.2.2.1
  have htypes : (r.reread m l base).types = r.types :=
    (ofGroup_write base r (k := .types) (by simp) (by simp)).trans (r.writeStrings_kinds base).2.2.2.2.2
  constructor
  · intro h
    exact ⟨(reread_wmclass m l g base).mp h.wmclass, (reread_windowrole m l g base).mp h.windowrole,
      (reread_clientmachine m l g base).mp h.clientmachine, (reread_title m l base r).mp h.title,
      (reread_decocolor m l g base).mp (h.force .decocolor)⟩
  · intro h
    refine ⟨(reread_wmclass m l g base).mpr h.wmclass, (reread_windowrole m l g base).mpr h.windowrole,
      (reread_clientmachine m l g base).mpr h.clientmachine, (reread_title m l base r).mpr h.title, hcomplete, htypes,
      reread_set m l g base, fun p => ?_⟩
    by_cases hp : p = .decocolor
    · exact hp ▸ (reread_decocolor m l g base).mpr h.decocolor
    · exact reread_force m l g base hp

end one

/-! The book. -/

namespace RuleBookSettings
variable (c : Config)

/-- The settings that rule number `i`, counted from zero, is written over: reset ones for a group of the old book,
otherwise what its group stores. -/
def writtenOver (i : Nat) : RuleSettings :=
  if i < (c.count.getD 0).toNat then Key.default else .ofGroup (c.groups (i + 1))

private theorem writeRules_getElem? {i j : Nat} (list : List RuleSettings) {rules : List Rules} {r : Rules}
    (hr : rules[j]? = some r) : (writeRules c i list rules)[j]? =
      some (r.write (if j < list.length then Key.default else .ofGroup (c.groups (i + j)))) := by
  induction rules generalizing i j list with
  | nil => simp at hr
  | cons r' rules ih =>
    cases j with
    | zero =>
      cases hr
      cases list with
      | nil => rfl
      | cons s list => rfl
    | succ j =>
      have hr : rules[j]? = some r := hr
      cases list with
      | nil =>
        rw [writeRules, List.getElem?_cons_succ, ih [] hr]
        simp only [List.length_nil, Nat.not_lt_zero, if_false, Nat.add_assoc, Nat.add_comm 1 j]
      | cons s list =>
        rw [writeRules, List.getElem?_cons_succ, ih list hr]
        simp only [List.length_cons, Nat.add_lt_add_iff_right, Nat.add_assoc, Nat.add_comm 1 j]

private theorem saveGroups_of_lt {i k : Nat} (h : k < i) (list : List RuleSettings) (groups : Nat → Group) :
    saveGroups i list groups k = groups k := by
  induction list generalizing i groups with
  | nil => rfl
  | cons s list ih => rw [saveGroups, ih (Nat.lt_succ_of_lt h), Function.update_of_ne (Nat.ne_of_lt h)]

private theorem saveGroups_getElem? {i j : Nat} {list : List RuleSettings} {s : RuleSettings} (hs : list[j]? = some s)
    (groups : Nat → Group) : saveGroups i list groups (i + j) = s.save := by
  induction list generalizing i j groups with
  | nil => simp at hs
  | cons s' list ih =>
    cases j with
    | zero =>
      cases hs
      exact (saveGroups_of_lt (Nat.lt_add_one i) ..).trans (Function.update_self ..)
    | succ j =>
      have hs : list[j]? = some s := hs
      rw [saveGroups, ← ih (i := i + 1) hs, Nat.add_assoc, Nat.add_comm 1 j]

variable (m : CaseMapping) (l : Locator) (groupListLength : Config → Int)

/-- The book that is read from the configuration after `rules` were stored in it. -/
def restored (rules : List Rules) : List Rules :=
  (ofConfig (((ofConfig c).setRules c rules).save c groupListLength)).rules m l

/-- Each rule comes back as it is read from its own group. -/
theorem restored_eq (rules : List Rules) : (restored c m l groupListLength rules).length = rules.length ∧
    ∀ (i : Nat) (r : Rules), rules[i]? = some r → (restored c m l groupListLength rules)[i]? = some (r.reread m l (writtenOver c i)) := by
  have hcount : (((ofConfig c).setRules c rules).save c groupListLength).count.getD 0 = (rules.length : Int) := by
    change (if (rules.length : Int) = 0 then none else some (rules.length : Int)).getD 0 = _
    split
    · next h => rw [h]; rfl
    · rfl
  have hgroup : ∀ (i : Nat) (r : Rules), rules[i]? = some r → (((ofConfig c).setRules c rules).save c groupListLength).groups (1 + i) =
      (r.write (writtenOver c i)).save := by
    intro i r hr
    have hi : i < rules.length := (List.getElem?_eq_some_iff.mp hr).1
    have hold : (ofConfig c).list.length = (c.count.getD 0).toNat := by
      rw [ofConfig, List.length_map, List.length_range']
    have hw := writeRules_getElem? c (i := 1) (ofConfig c).list hr
    rw [hold, Nat.add_comm 1 i] at hw
    rw [writtenOver, ← saveGroups_getElem? (i := 1) hw c.groups]
    -- The group is within the count, so it is not deleted.
    refine if_neg fun hdel => ?_
    have hdel : (rules.length : Int) < (1 + i : Nat) := hdel.1
    omega
  have hrules : restored c m l groupListLength rules = (List.range' 1 rules.length).map fun i =>
      readFromSettings m l (.ofGroup ((((ofConfig c).setRules c rules).save c groupListLength).groups i)) := by
    rw [restored, RuleBookSettings.rules]
    generalize hs : ((ofConfig c).setRules c rules).save c groupListLength = c' at hcount ⊢
    simp only [ofConfig, hcount, Int.toNat_natCast]
    rw [List.take_of_length_le (by simp), List.map_map]
    rfl
  rw [hrules]
  refine ⟨by simp, fun i r hr => ?_⟩
  have hi : i < rules.length := (List.getElem?_eq_some_iff.mp hr).1
  rw [List.getElem?_map, List.getElem?_range' hi, Option.map_some, Nat.one_mul, hgroup i r hr]
  rfl

/-- The book comes back: the same number of rules in the same order, and each of them the same. -/
def RoundTrips (rules : List Rules) : Prop :=
  (restored c m l groupListLength rules).length = rules.length ∧
    ∀ (i : Nat) (r r' : Rules), rules[i]? = some r → (restored c m l groupListLength rules)[i]? = some r' →
      SameRule r r'

/-- Rules that were read come back exactly when each of them has ASCII bytes and no zero among them, finds nothing stored in
place of its empty match strings, and uses a plain color scheme. -/
theorem roundTrips_iff (gs : List Group) :
    let rules := gs.map fun g => readFromSettings m l (.ofGroup g)
    RoundTrips c m l groupListLength rules ↔ ∀ (i : Nat) (r : Rules), rules[i]? = some r → Restores l (writtenOver c i) r := by
  intro rules
  obtain ⟨hlen, hread⟩ := restored_eq c m l groupListLength rules
  have hrule : ∀ (i : Nat) (r : Rules), rules[i]? = some r →
      (SameRule r (r.reread m l (writtenOver c i)) ↔ Restores l (writtenOver c i) r) := by
    intro i r hr
    obtain ⟨g, _, rfl⟩ := List.mem_map.mp (List.mem_of_getElem? hr)
    exact sameRule_reread_iff m l g (writtenOver c i)
  constructor
  · intro h i r hr
    exact (hrule i r hr).mp (h.2 i r _ hr (hread i r hr))
  · intro h
    refine ⟨hlen, fun i r r' hr hr' => ?_⟩
    cases (hread i r hr).symm.trans hr'
    exact (hrule i r hr).mpr (h i r hr)

private theorem toLatin1_singleton_length (c : Char) (hc : 0x100 ≤ c.toNat) : (toLatin1 [c]).length ≤ c.utf8Size := by
  rw [toLatin1, List.flatMap_singleton, latin1, if_neg (Nat.not_lt_of_le hc), utf8Size_eq]
  split_ifs <;> simp only [List.length_cons, List.length_nil] <;> omega

private theorem lowerChar_singleton (c : Char) (hc : 0x100 ≤ c.toNat) (d : Char) (hd : d ∈ [c]) :
    lowerChar (fun c => [c]) d = [d] := by
  rw [List.mem_singleton.mp hd, lowerChar, if_neg (Nat.not_lt_of_le hc)]

/-- Lower case that changes nothing beyond Latin-1. -/
private def latin1Case : CaseMapping where
  lower c := [c]
  short := toLatin1_singleton_length
  stable := lowerChar_singleton
  first c hc := ⟨c, [], rfl, .inl hc⟩
  replacement := rfl

/-- A group that stores a window class with an acute e. -/
private def accented : Group
  | .wmclass => some [Char.ofNat 0xE9]
  | _ => none

/-- The acute e is one byte, which is no UTF-8, and comes back as a question mark. -/
theorem accent_not_restored : ¬ ∀ c m l groupListLength (gs : List Group),
    RoundTrips c m l groupListLength (gs.map fun g => readFromSettings m l (.ofGroup g)) := by
  intro h
  let c : Config := ⟨none, fun _ _ => none⟩
  let l : Locator := ⟨fun _ => [], fun _ => .inl rfl⟩
  have hsame := (h c latin1Case l (fun _ => 0) [accented]).2 0 _ _ rfl
    ((restored_eq c latin1Case l (fun _ => 0) _).2 0 _ rfl)
  have hascii : Ascii (readFromSettings latin1Case l (.ofGroup accented)).wmclass.data :=
    (reread_wmclass latin1Case l accented (writtenOver c 0)).mp hsame.wmclass
  exact absurd (hascii 0xE9 (by decide)).2 (by decide)

end RuleBookSettings

end KWinFT.RuleBook
