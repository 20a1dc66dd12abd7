import KWinFT.Focus.Signals

/-! The state between two events, and what a longer or shorter list of desktops makes of it: chains
are resized at their end only, while the numbers of the desktops shift. -/
namespace KWinFT.Focus
open VirtualDesktops

/-- A window that was entered is in the chain of exactly the desktops it is on. -/
def Follows (env : Setup) (s : Workspace) : Prop :=
  ∀ w ∈ s.entered, env.wantsTabFocus w → Tracks env s w

/-- No window of the chains is on all desktops, or on one that would come after a new desktop
at the position. -/
def FreeFrom (env : Setup) (s : Workspace) (position : Nat) : Prop :=
  ∀ w ∈ s.entered, env.wantsTabFocus w →
    ¬ s.isOnAllDesktops env w ∧ ∀ d, position < d → d ≤ s.manager.count → ¬ s.isOnDesktop env w d

/-- Between two events no window waits, and every desktop number has its chain. -/
def Settled (env : Setup) (s : Workspace) : Prop :=
  Tracking env s.manager (fun _ => []) s.manager.count s

variable {env : Setup} {s s' : Workspace} {m' : VirtualDesktopManager} {reactions : Reactions}

theorem Settled.follows (h : Settled env s) : Follows env s :=
  fun w hw ht => (h.tracks w hw ht).resolve_left not_waits_nil

theorem Settled.placed (h : Settled env s) {w : Window} (hw : w ∈ s.allClients) (ht : env.wantsTabFocus w) :
    Placed env s w :=
  (Tracking.placed h w hw ht).resolve_left not_waits_nil

/-- `position` is where the new desktops start; the old ones behind it move by one. -/
theorem Settled.grow (h : Settled env s) {position : Nat} (hn : Numbered m')
    (hnext : s.manager.next ≤ m'.next) (hcount : s.manager.count ≤ m'.count)
    (hsub : ∀ a ∈ s.manager.desktops, a ∈ m'.desktops)
    (hold : ∀ d, d ≤ position → m'.desktopForX11Id d = s.manager.desktopForX11Id d)
    (hnew : ∀ d a, position < d → m'.desktopForX11Id d = some a →
      s.manager.next ≤ a ∨ (position < d - 1 ∧ s.manager.desktopForX11Id (d - 1) = some a))
    (hpos : position ≤ s.manager.count) (hfree : FreeFrom env s position) :
    Settled env { s with
      manager := m'
      focusChain := s.focusChain.resize s.manager.count m'.count } := by
  have hplaced : ∀ w ∈ s.allClients, env.wantsTabFocus w → Placed env { s with
      manager := m'
      focusChain := s.focusChain.resize s.manager.count m'.count } w := by
    intro w hw ht hx
    obtain ⟨hlen, hmem⟩ := h.placed hw ht hx
    exact ⟨hlen, fun a ha => hsub a (hmem a ha)⟩
  refine ⟨rfl, hn, h.keyed.resize _, Nat.le_refl _, h.clients, ?_, fun w hw ht => .inr (hplaced w hw ht), ?_⟩
  · exact fun w a ha => Nat.lt_of_lt_of_le (h.allocated w a ha) hnext
  intro w hw ht
  refine .inr fun d h1 hd => ?_
  have hcl := h.clients w hw
  have htr := h.follows w hw ht
  obtain ⟨hall, hfree⟩ := hfree w hw ht
  rw [isOnAllDesktops_iff] at hall
  refine FocusChain.contains_resize.trans (Iff.trans ?_ (isOnDesktop_iff hn (hplaced w hcl ht)).symm)
  rcases Nat.lt_or_ge position d with hlt | hge
  · -- The window is neither in the chain nor on the desktop that has the number now.
    refine iff_of_false ?_ ?_
    · rintro ⟨hc, hout, -⟩
      have hle : d ≤ s.manager.count := by
        have hd' : d ≤ m'.count := hd
        omega
      exact hfree d hlt hle ((htr d h1 hle).mp hc)
    · rintro (he | ⟨a, ha, hX⟩)
      · exact hall he
      · rcases hnew d a hlt hX with hle | ⟨hlt', hX'⟩
        · exact Nat.lt_irrefl _ (Nat.lt_of_lt_of_le (h.allocated w a ha) hle)
        · have hle := (List.getElem?_eq_some_iff.mp (VirtualDesktopManager.desktopForX11Id_eq_some_iff.mp hX').2).1
          refine hfree (d - 1) hlt' ?_ ((isOnDesktop_iff h.numbered (h.placed hcl ht)).mpr (.inr ⟨a, ha, hX'⟩))
          exact Nat.le_of_pred_lt hle
  · have hle : d ≤ s.manager.count := Nat.le_trans hge hpos
    have hout : ¬ (s.manager.count < d ∧ d ≤ m'.count) ∧ ¬ (m'.count < d ∧ d ≤ s.manager.count) := by omega
    rw [and_iff_left hout, htr d h1 hle, isOnDesktop_iff h.numbered (h.placed hcl ht), hold d hge]

/-- The desktops from `position` on move down by one; those in `removed` are gone. -/
theorem Settled.shrink (h : Settled env s) (position : Nat) {removed : List Address} (hn : Numbered m')
    (hnext : m'.next = s.manager.next) (hcount : m'.count ≤ s.manager.count)
    (hsplit : ∀ a ∈ s.manager.desktops, a ∈ m'.desktops ∨ a ∈ removed)
    (hold : ∀ d, d ≤ position → d ≤ m'.count → m'.desktopForX11Id d = s.manager.desktopForX11Id d)
    (hnew : ∀ d, position < d → d ≤ m'.count → m'.desktopForX11Id d = s.manager.desktopForX11Id (d + 1))
    (hx11 : env.operationMode = .x11 → ∀ w ∈ s.allClients, env.wantsTabFocus w → ∀ a ∈ s.desktops w,
      a ∈ removed → m'.count < (m'.heap a).x11DesktopNumber)
    (hfree : ∀ w ∈ s.entered, env.wantsTabFocus w → (∀ a ∈ removed, a ∉ s.desktops w) →
      m'.count ≤ position ∨ s.desktops w = [] ∨
        ∀ d, position < d → d ≤ s.manager.count → ¬ s.isOnDesktop env w d) :
    Tracking env m' (fun _ => removed) s.manager.count { s with manager := m' } := by
  have hplaced : ∀ w ∈ s.allClients, env.wantsTabFocus w →
      Waits env removed { s with manager := m' } w ∨ Placed env { s with manager := m' } w := by
    intro w hw ht
    by_cases hx : env.operationMode = .x11
    · obtain ⟨hlen, hmem⟩ := h.placed hw ht hx
      by_cases hr : ∃ a ∈ s.desktops w, a ∈ removed
      · obtain ⟨a, ha, har⟩ := hr
        have hds : s.desktops w = [a] := eq_singleton_of_mem ha hlen
        refine .inl ((waits_x11 hx).mpr ⟨List.ne_nil_of_mem har, ?_⟩)
        have hgt := hx11 hx w hw ht a ha har
        simp only [Workspace.desktop, hds, List.getLast?_singleton]
        omega
      · refine .inr fun _ => ⟨hlen, fun a ha => (hsplit a (hmem a ha)).resolve_right fun har => hr ⟨a, ha, har⟩⟩
    · exact .inr fun hx' => absurd hx' hx
  refine ⟨rfl, hn, h.keyed, hcount, h.clients, fun w a ha => hnext ▸ h.allocated w a ha, hplaced, ?_⟩
  intro w hw ht
  have hcl := h.clients w hw
  rcases hplaced w hcl ht with hwait | hpl
  · exact .inl hwait
  have htr := h.follows w hw ht
  by_cases hr : ∃ a ∈ removed, a ∈ s.desktops w
  · by_cases hx : env.operationMode = .x11
    · obtain ⟨a, har, ha⟩ := hr
      have hle := hn.number_le_count ((hpl hx).2 a ha)
      have hgt := hx11 hx w hcl ht a ha har
      omega
    · exact .inl ((waits_wayland hx).mpr hr)
  · refine .inr fun d h1 hd => ?_
    have hd' : d ≤ m'.count := hd
    rw [isOnDesktop_iff hn hpl]
    refine (htr d h1 (Nat.le_trans hd' hcount)).trans ?_
    rcases Nat.lt_or_ge position d with hlt | hge
    · rw [hnew d hlt hd']
      rcases hfree w hw ht fun a har ha => hr ⟨a, har, ha⟩ with hpos | hall | hfree
      · omega
      · exact iff_of_true ((isOnDesktop_iff h.numbered (h.placed hcl ht)).mpr (.inl hall)) (.inl hall)
      · refine iff_of_false (hfree d hlt (Nat.le_trans hd' hcount)) ?_
        rintro (hall | ⟨a, ha, hX⟩)
        · exact hfree d hlt (Nat.le_trans hd' hcount)
            ((isOnDesktop_iff h.numbered (h.placed hcl ht)).mpr (.inl hall))
        · have hle := (List.getElem?_eq_some_iff.mp (VirtualDesktopManager.desktopForX11Id_eq_some_iff.mp hX).2).1
          exact hfree (d + 1) (Nat.lt_succ_of_lt hlt) hle
            ((isOnDesktop_iff h.numbered (h.placed hcl ht)).mpr (.inr ⟨a, ha, hX⟩))
    · rw [hold d hge hd', isOnDesktop_iff h.numbered (h.placed hcl ht)]

/-- The signals of a request that removes desktops: the windows are sent away before the chains
are cut. -/
theorem Settled.deliver_shrink {removed : List Address} {changed before after : List Signal} {n : Nat}
    (h : Tracking env m' (fun _ => removed) n { s with manager := m' })
    (hout : ∀ a ∈ removed, a ∉ m'.desktops ∧ 1 ≤ (m'.heap a).x11DesktopNumber) (hpos : 1 ≤ m'.count)
    (hchanged : ∀ sig ∈ changed, ∃ old new, sig = .currentChanged old new)
    (hbefore : ∀ sig ∈ before, Silent sig) (hafter : ∀ sig ∈ after, Silent sig)
    (hs : (changed ++ (before ++ (removed.map Signal.desktopRemoved ++ (after ++ [Signal.countChanged n m'.count])))).foldlM
      (deliver env reactions) { s with manager := m' } = some s') : Settled env s' := by
  rw [List.foldlM_append] at hs
  obtain ⟨s₁, h₁, hs⟩ := Option.bind_eq_some_iff.mp hs
  have ht₁ : Tracking env m' (fun _ => removed) n s₁ := by
    refine Lib.foldlM_preserves changed ?_ h h₁
    rintro t sig t' hsig ht hd
    obtain ⟨old, new, rfl⟩ := hchanged sig hsig
    exact ht.currentChanged hd
  rw [silent_append hbefore, List.foldlM_append] at hs
  obtain ⟨s₂, h₂, hs⟩ := Option.bind_eq_some_iff.mp hs
  have ht₂ := ht₁.desktopsRemoved removed hout hpos h₂
  rw [silent_append hafter] at hs
  cases hs
  have ht₃ := ht₂.resize
  rw [Settled]
  have hm : s₂.manager = m' := ht₂.manager
  simpa only [hm] using ht₃

end KWinFT.Focus
