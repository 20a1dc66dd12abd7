import KWinFT.TabBox.Permutation

/-! Chains over whole runs: of one chain alone, and of all chains that the manager holds. -/
namespace KWinFT.TabBox
open DesktopChain

/-- Desktop numbers start at one and fit a signed integer. -/
def IsDesktop (d : Nat) : Prop := 1 ≤ d ∧ d < 2147483648

def anySize (_ : DesktopChain) (_ : Nat) : Prop := True

/-- A new size that keeps the chain a permutation. -/
def Shrinkable (chain : DesktopChain) (newSize : Nat) : Prop := newSize < chain.length → chain.Keeps newSize

def chainPermits (resizable : DesktopChain → Nat → Prop) (chain : DesktopChain) : ChainEvent → Prop
  | .add desktop => IsDesktop desktop
  | .resize newSize => resizable chain newSize

/-- A resize is made to all chains. -/
def managerPermits (resizable : DesktopChain → Nat → Prop) (m : DesktopChainManager) : ManagerEvent → Prop
  | .addDesktop _ currentDesktop => IsDesktop currentDesktop
  | .resize newSize => ∀ e ∈ m.chains, resizable e.chain newSize
  | .useChain _ => True

/-- A property of chains that the operations keep. -/
structure Kept (P : DesktopChain → Prop) (resizable : DesktopChain → Nat → Prop) : Prop where
  init : ∀ n, P (init n)
  add : ∀ chain d, P chain → IsDesktop d → P (chain.add d)
  resize : ∀ chain n, P chain → resizable chain n → P (chain.resize chain.length n)

theorem valid_kept : Kept Valid anySize where
  init n := (complete_init n).valid
  add _ _ h hd := h.add hd.1 hd.2
  resize _ _ h _ := h.resize

theorem complete_kept : Kept Complete Shrinkable where
  init := complete_init
  add _ _ h hd := h.add hd.1 hd.2
  resize chain n h hn := by
    rcases Nat.lt_or_ge n chain.length with hlt | hge
    · exact (h.shrink_iff hlt).mpr (hn hlt)
    · exact h.grow hge

section runs
variable {P : DesktopChain → Prop} {resizable : DesktopChain → Nat → Prop}

theorem Kept.of_reachable (hk : Kept P resizable) {n : Nat} {chain : DesktopChain}
    (h : Lib.Reachable chainStep (chainPermits resizable) (DesktopChain.init n) chain) : P chain := by
  refine h.invariant P (hk.init n) ?_
  intro c e c' hc hok hs
  cases e with
  | add desktop =>
    obtain rfl := Option.some.inj hs
    exact hk.add c desktop hc hok
  | resize newSize =>
    obtain rfl := Option.some.inj hs
    exact hk.resize c newSize hc hok

/-- All chains of a manager have its size and the property. -/
def Holds (P : DesktopChain → Prop) (m : DesktopChainManager) : Prop :=
  ∀ e ∈ m.chains, e.chain.length = m.maxChainSize ∧ P e.chain

/-- The entries after a lookup are those before it. -/
theorem Entry.mem_of_find {entries others : List Entry} {identifier : QString} {e : Entry}
    (h : Entry.find entries identifier = some (e, others)) : ∀ x ∈ e :: others, x ∈ entries := by
  obtain ⟨e', he, heq⟩ := Option.map_eq_some_iff.mp h
  obtain ⟨rfl, rfl⟩ := Prod.mk.inj heq
  intro x hx
  rcases List.mem_cons.mp hx with rfl | hx
  · exact List.mem_of_find?_eq_some he
  · exact List.mem_of_mem_filter hx

/-- An insertion adds no chain but the inserted one. -/
theorem Entry.insert_spec {Q : DesktopChain → Prop} {entries : List Entry} {value : DesktopChain}
    (identifier : QString) (hq : ∀ e ∈ entries, Q e.chain) (hv : Q value) :
    ∀ e ∈ (Entry.insert entries identifier value).1 :: (Entry.insert entries identifier value).2, Q e.chain := by
  unfold Entry.insert
  split
  · next e' others hfind =>
    intro e he
    rcases List.mem_cons.mp he with rfl | he
    · exact hv
    · exact hq e (Entry.mem_of_find hfind e (List.mem_cons_of_mem e' he))
  · intro e he
    rcases List.mem_cons.mp he with rfl | he
    · exact hv
    · exact hq e he

theorem Holds.useChain (hk : Kept P resizable) {m : DesktopChainManager} (h : Holds P m) (identifier : QString) :
    Holds P (m.useChain identifier) := by
  have hcurrent := h m.currentChain List.mem_cons_self
  unfold DesktopChainManager.useChain
  split
  · exact Entry.insert_spec (Q := fun c => c.length = m.maxChainSize ∧ P c) identifier
      (fun e he => h e (List.mem_cons_of_mem _ he)) hcurrent
  · split
    · next e others hfind => exact fun x hx => h x (Entry.mem_of_find hfind x hx)
    · exact Entry.insert_spec (Q := fun c => c.length = m.maxChainSize ∧ P c) identifier h
        ⟨length_init m.maxChainSize, hk.init m.maxChainSize⟩

theorem Kept.of_reachable_manager (hk : Kept P resizable) {m : DesktopChainManager}
    (h : Lib.Reachable managerStep (managerPermits resizable) .initial m) : Holds P m := by
  refine h.invariant (Holds P) ?_ ?_
  · intro e he
    obtain rfl := List.mem_singleton.mp he
    exact ⟨rfl, hk.init 0⟩
  · intro m e m' hm hok hs
    cases e with
    | addDesktop previousDesktop currentDesktop =>
      obtain rfl := Option.some.inj hs
      intro e he
      rcases List.mem_cons.mp he with rfl | he
      · have hcurrent := hm m.currentChain List.mem_cons_self
        exact ⟨(length_add hok.1 hok.2).trans hcurrent.1, hk.add _ _ hcurrent.2 hok⟩
      · exact hm e (List.mem_cons_of_mem _ he)
    | resize newSize =>
      obtain rfl := Option.some.inj hs
      have hresized : ∀ e ∈ m.chains, (e.chain.resize m.maxChainSize newSize).length = newSize ∧
          P (e.chain.resize m.maxChainSize newSize) := by
        intro e he
        obtain ⟨hlen, hp⟩ := hm e he
        rw [← hlen]
        exact ⟨length_resize, hk.resize _ _ hp (hok e he)⟩
      intro e he
      rcases List.mem_cons.mp he with rfl | he
      · exact hresized m.currentChain List.mem_cons_self
      · obtain ⟨e', he', rfl⟩ := List.mem_map.mp he
        exact hresized e' (List.mem_cons_of_mem _ he')
    | useChain identifier =>
      obtain rfl := Option.some.inj hs
      exact hm.useChain hk identifier

end runs

/-- Chains name existing desktops only. They are permutations as long as no resize cuts off a desktop that it
should keep, which is also necessary, and are so again when every desktop was used. -/
theorem chains_of_reachable :
    (∀ n chain, Lib.Reachable chainStep (chainPermits anySize) (init n) chain → Valid chain) ∧
    (∀ n chain, Lib.Reachable chainStep (chainPermits Shrinkable) (init n) chain →
      Complete chain ∧ VisitsAll chain) ∧
    (∀ m, Lib.Reachable managerStep (managerPermits anySize) .initial m → Holds Valid m) ∧
    (∀ m, Lib.Reachable managerStep (managerPermits Shrinkable) .initial m →
      Holds Complete m ∧ Holds VisitsAll m) ∧
    (∀ (chain : DesktopChain) newSize, Complete chain → newSize < chain.length →
      (Complete (chain.resize chain.length newSize) ↔ chain.Keeps newSize)) ∧
    (∀ (chain : DesktopChain) (used : List Nat), (∀ d ∈ used, IsDesktop d) → (∀ d, 1 ≤ d → d ≤ chain.length → d ∈ used) →
      Complete (used.foldl add chain)) := by
  refine ⟨fun _ _ h => valid_kept.of_reachable h, fun _ _ h => ?_, fun _ h => valid_kept.of_reachable_manager h,
    fun _ h => ?_, fun _ _ h hlt => h.shrink_iff hlt, fun _ used hused hall => complete_of_used used hused hall⟩
  · have hc := complete_kept.of_reachable h
    exact ⟨hc, hc.visitsAll⟩
  · have hm := complete_kept.of_reachable_manager h
    exact ⟨hm, fun e he => ⟨(hm e he).1, (hm e he).2.visitsAll⟩⟩

/-- Two chains in use when the last desktop is removed. -/
theorem two_chains_complete :
    ∃ m, Lib.Reachable managerStep (managerPermits Shrinkable) .initial m ∧
      m.chains.map (·.chain) = [[2, 1, 3], [3, 1, 2]] ∧ Holds VisitsAll m := by
  have hdesktop (d : Nat) (hpos : 1 ≤ d) (hlt : d < 5) : IsDesktop d := ⟨hpos, by omega⟩
  have h₁ : Lib.Reachable managerStep (managerPermits Shrinkable) .initial _ :=
    .step (.resize 4) .init (fun e he hlt => by
      obtain rfl := List.mem_singleton.mp he
      exact absurd hlt (by decide)) rfl
  have h₂ := Lib.Reachable.step (ManagerEvent.addDesktop 0 3) h₁ (hdesktop 3 (by decide) (by decide)) rfl
  have h₃ := Lib.Reachable.step (ManagerEvent.useChain (.text "test")) h₂ trivial rfl
  have h₄ := Lib.Reachable.step (ManagerEvent.useChain (.text "second chain")) h₃ trivial rfl
  have h₅ := Lib.Reachable.step (ManagerEvent.addDesktop 3 2) h₄ (hdesktop 2 (by decide) (by decide)) rfl
  have h₆ := Lib.Reachable.step (ManagerEvent.resize 3) h₅ (fun e he _ d hpos hlt => by
    obtain rfl | rfl : d = 1 ∨ d = 2 := by omega
    all_goals
      revert e
      decide) rfl
  exact ⟨_, h₆, by decide, (chains_of_reachable.2.2.2.1 _ h₆).2⟩

/-- Six desktops, of which the last three were used last, become three: the third stands for all of them. -/
theorem shrunk_chain_not_complete :
    ∃ chain, Lib.Reachable chainStep (chainPermits anySize) (init 6) chain ∧ chain = [3, 3, 3] ∧
      ¬ Complete chain ∧ ¬ VisitsAll chain := by
  refine ⟨[3, 3, 3], ?_, rfl, fun h => ?_, fun h => ?_⟩
  · have h₁ : Lib.Reachable chainStep (chainPermits anySize) (init 6) _ :=
      .step (.add 4) .init ⟨by decide, by decide⟩ rfl
    have h₂ := Lib.Reachable.step (ChainEvent.add 5) h₁ ⟨by decide, by decide⟩ rfl
    have h₃ := Lib.Reachable.step (ChainEvent.add 6) h₂ ⟨by decide, by decide⟩ rfl
    exact .step (.resize 3) h₃ trivial rfl
  · have hmem : 1 ∈ [3, 3, 3] := h.mem_iff.mpr (by decide)
    revert hmem
    decide
  · have hreturn := (h 1 (by decide) (by decide)).2
    revert hreturn
    decide

end KWinFT.TabBox
