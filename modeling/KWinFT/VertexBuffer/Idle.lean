import KWinFT.VertexBuffer.Buffer
import Mathlib.Data.List.TakeWhile
import Mathlib.Tactic

/-! Ranges that are handed out are idle. For each fence of the ring it is known which draws come after it, and how far the buffer
can be written to once the others are done. -/
namespace KWinFT.VertexBuffer
open Lib
variable {b : GLVertexBuffer} {gl : Gl} {s : Painting} {k : Nat} {stop : Int}

/-- Of the draws from this place on none reads in front of `stop` what is still to be written in this round. They read what was
written in this round, not more than a round before `stop`, or they read behind it. -/
def Covered (b : GLVertexBuffer) (gl : Gl) (k : Nat) (stop : Int) : Prop :=
  ∀ d, gl.stream.Since k (.draw d) → b.store = some d.store →
    (stop - b.bufferSize ≤ d.start ∧ d.stop ≤ b.nextOffset) ∨ stop ≤ d.start

/-- All that draws read was created, and what is created next is new. -/
structure Created (b : GLVertexBuffer) (gl : Gl) : Prop where
  draw : ∀ d, gl.stream.Since 0 (.draw d) → d.store < gl.stores
  store : ∀ n, b.store = some n → n < gl.stores

/-- A fence that covers what comes before it. -/
structure Fenced (b : GLVertexBuffer) (gl : Gl) (fence : BufferFence) : Prop where
  covered : Covered b gl fence.sync fence.nextEnd
  le : fence.nextEnd ≤ b.nextOffset + b.bufferSize
  issued : fence.sync < gl.stream.issued.length

/-- Fences are ordered by what they free, and one of them frees the rest of the round. -/
structure Ring (b : GLVertexBuffer) (gl : Gl) : Prop where
  offset_dvd : 16 ∣ b.nextOffset
  size_dvd : 16 ∣ b.bufferSize
  offset_le : b.nextOffset ≤ b.bufferSize
  end_le : b.bufferEnd ≤ b.nextOffset + b.bufferSize
  idle : Covered b gl gl.stream.done b.bufferEnd
  fenced : ∀ fence ∈ b.fences, Fenced b gl fence
  sorted : (b.bufferEnd :: b.fences.map BufferFence.nextEnd).Pairwise (· ≤ ·)
  round : (b.bufferSize : Int) ≤ b.bufferEnd ∨ ∃ fence ∈ b.fences, (b.bufferSize : Int) ≤ fence.nextEnd

/-- There is no data store, before the first use and after frames that were too large. -/
structure Unallocated (b : GLVertexBuffer) : Prop where
  store : b.store = none
  size : b.bufferSize = 0
  offset : b.nextOffset = 0
  fences : b.fences = []
  frame : b.frameSize = 0

/-- The buffer is only ever written behind all draws. -/
def Linear (b : GLVertexBuffer) (gl : Gl) : Prop :=
  ∀ d, gl.stream.Since 0 (.draw d) → b.store = some d.store → d.stop ≤ b.nextOffset

/-- Where the last upload is, it is behind all that fences free. -/
structure Uploaded (b : GLVertexBuffer) (n : Nat) : Prop where
  le : b.baseAddress + n ≤ b.nextOffset
  behind : b.bufferEnd - b.bufferSize ≤ b.baseAddress
  fences : ∀ fence ∈ b.fences, fence.nextEnd - b.bufferSize ≤ b.baseAddress

section align

theorem le_align (value : Nat) {bytes : Nat} (h : 0 < bytes) : value ≤ align value bytes := by
  unfold align
  have := Nat.div_add_mod' (value + (bytes - 1)) bytes
  have := Nat.mod_lt (value + (bytes - 1)) h
  omega

theorem dvd_align (value bytes : Nat) : bytes ∣ align value bytes := Nat.dvd_mul_left _ _

/-- Rounding up stays within what is a multiple already. -/
theorem align_le {value bytes n : Nat} (hn : bytes ∣ n) (h : value ≤ n) : align value bytes ≤ n := by
  obtain ⟨q, rfl⟩ := hn
  rcases Nat.eq_zero_or_pos bytes with rfl | hpos
  · simp [align]
  · unfold align
    rw [Nat.mul_comm bytes q] at h ⊢
    refine Nat.mul_le_mul_right bytes ?_
    refine Nat.le_of_lt_succ ((Nat.div_lt_iff_lt_mul hpos).mpr ?_)
    rw [Nat.succ_mul]
    omega

end align

section covered

theorem Covered.mono {l : Nat} (h : Covered b gl k stop) (hkl : k ≤ l) : Covered b gl l stop :=
  fun d hd hs => h d (hd.mono hkl) hs

/-- A fence that is reached frees what it covers. -/
theorem Fenced.idle {fence : BufferFence} (h : Fenced b gl fence) (hs : gl.stream.Signaled fence.sync) :
    Covered b gl gl.stream.done fence.nextEnd :=
  h.covered.mono (Nat.le_of_lt hs)

/-- After the last command nothing is to be covered. -/
theorem covered_next (b : GLVertexBuffer) (gl : Gl) (stop : Int) : Covered b gl gl.stream.next stop :=
  fun _ hd _ => absurd hd CommandStream.not_since_next

theorem covered_fenceSync (h : Covered b gl k stop) : Covered b gl.fenceSync.2 k stop := by
  intro d hd hs
  rcases CommandStream.since_issue hd with hold | heq
  · exact h d hold hs
  · cases heq

/-- A new store is read by nothing. -/
theorem covered_createStore (hc : Created b gl) {c : GLVertexBuffer} (hstore : c.store = some gl.stores) :
    Covered c gl.createStore.2 k stop := by
  intro d hd hs
  have hlt := hc.draw d (hd.mono (Nat.zero_le k))
  rw [hstore, Option.some.injEq] at hs
  omega

theorem created_createStore (hc : Created b gl) {c : GLVertexBuffer} (hstore : c.store = some gl.stores) :
    Created c gl.createStore.2 := by
  refine ⟨fun d hd => Nat.lt_succ_of_lt (hc.draw d hd), fun n hn => ?_⟩
  rw [hstore, Option.some.injEq] at hn
  exact hn ▸ Nat.lt_succ_self _

end covered

section persistent

theorem Created.congr (hc : Created b gl) {c : GLVertexBuffer} (h : c.store = b.store) : Created c gl :=
  ⟨hc.draw, fun n hn => hc.store n (h ▸ hn)⟩

theorem created_fenceSync (hc : Created b gl) : Created b gl.fenceSync.2 := by
  refine ⟨fun d hd => ?_, hc.store⟩
  rcases CommandStream.since_issue hd with hold | heq
  · exact hc.draw d hold
  · cases heq

theorem Fenced.fenceSync {fence : BufferFence} (h : Fenced b gl fence) : Fenced b gl.fenceSync.2 fence := by
  refine ⟨covered_fenceSync h.covered, h.le, ?_⟩
  show _ < (gl.stream.issued ++ [Command.fence]).length
  rw [List.length_append]
  exact Nat.lt_add_right _ h.issued

/-- A fence that is issued now covers all there is. -/
theorem fenced_fenceSync (h : stop ≤ b.nextOffset + b.bufferSize) : Fenced b gl.fenceSync.2 ⟨gl.fenceSync.1, stop⟩ := by
  refine ⟨covered_fenceSync (covered_next b gl stop), h, ?_⟩
  show gl.stream.issued.length < (gl.stream.issued ++ [Command.fence]).length
  rw [List.length_append]
  exact Nat.lt_succ_self _

theorem reallocatePersistentBuffer_ring (hc : Created b gl) (size : Nat) :
    Ring (b.reallocatePersistentBuffer gl size).1 (b.reallocatePersistentBuffer gl size).2 := by
  refine ⟨Nat.dvd_zero 16, Nat.dvd_trans (by decide) (dvd_align _ _), Nat.zero_le _, ?_, ?_, ?_, ?_, .inl le_rfl⟩
  · exact le_add_of_nonneg_left (Int.natCast_nonneg _)
  · exact covered_createStore hc rfl
  · exact fun _ h => absurd h List.not_mem_nil
  · exact List.pairwise_singleton _ _

theorem le_bufferSize_reallocate (b : GLVertexBuffer) (gl : Gl) (size : Nat) :
    size ≤ (b.reallocatePersistentBuffer gl size).1.bufferSize :=
  (le_max_left size _).trans (le_align _ (by decide))

theorem wrapAround_ring (hr : Ring b gl) : Ring (b.wrapAround gl).1 (b.wrapAround gl).2 := by
  have hoffset := hr.offset_le
  -- what was written in the last round is behind what is freed in this one
  have covered {k : Nat} {stop : Int} (h : Covered b gl k stop) :
      Covered (b.wrapAround gl).1 (b.wrapAround gl).2 k (stop - b.bufferSize) := by
    intro d hd hs
    right
    rcases covered_fenceSync h d hd hs with ⟨hstart, _⟩ | hbehind
    · exact hstart
    · have : (0 : Int) ≤ b.bufferSize := Int.natCast_nonneg _
      omega
  have hround : Fenced (b.wrapAround gl).1 (b.wrapAround gl).2 ⟨gl.fenceSync.1, b.bufferSize⟩ :=
    fenced_fenceSync (b := (b.wrapAround gl).1) (le_add_of_nonneg_left (Int.natCast_nonneg _))
  have hfences : (b.wrapAround gl).1.fences =
      b.fences.map (fun fence => { fence with nextEnd := fence.nextEnd - b.bufferSize }) ++
        [⟨gl.fenceSync.1, b.bufferSize⟩] := rfl
  have hle (x : Int) (hx : x ≤ b.nextOffset + b.bufferSize) : x - b.bufferSize ≤ b.bufferSize := by omega
  refine ⟨Nat.dvd_zero 16, hr.size_dvd, Nat.zero_le _, ?_, covered hr.idle, fun fence hf => ?_, ?_, .inr ?_⟩
  · show b.bufferEnd - b.bufferSize ≤ ((0 : Nat) : Int) + b.bufferSize
    have := hle _ hr.end_le
    omega
  · rw [hfences, List.mem_append, List.mem_map, List.mem_singleton] at hf
    rcases hf with ⟨old, hold, rfl⟩ | rfl
    · have hold := hr.fenced old hold
      refine ⟨covered hold.covered, ?_, hold.fenceSync.issued⟩
      show old.nextEnd - b.bufferSize ≤ ((0 : Nat) : Int) + b.bufferSize
      have := hle _ hold.le
      omega
    · exact hround
  · have hmap : (b.wrapAround gl).1.bufferEnd :: (b.wrapAround gl).1.fences.map BufferFence.nextEnd =
        (b.bufferEnd :: b.fences.map BufferFence.nextEnd).map (· - (b.bufferSize : Int)) ++ [(b.bufferSize : Int)] := by
      rw [hfences]
      simp [GLVertexBuffer.wrapAround, Function.comp_def]
    rw [hmap, List.pairwise_append]
    refine ⟨(List.pairwise_map.mpr (hr.sorted.imp fun h => by omega)), List.pairwise_singleton _ _, fun x hx y hy => ?_⟩
    rw [List.mem_singleton.mp hy]
    obtain ⟨z, hz, rfl⟩ := List.mem_map.mp hx
    refine hle z ?_
    rcases List.mem_cons.mp hz with rfl | hz
    · exact hr.end_le
    · obtain ⟨fence, hf, rfl⟩ := List.mem_map.mp hz
      exact (hr.fenced fence hf).le
  · exact ⟨_, hfences ▸ List.mem_append_right _ (List.mem_singleton_self _), le_rfl⟩

/-- Fences are removed from the front, and the range ends where the last of them says. -/
theorem Ring.drop (hr : Ring b gl) {removed fences : List BufferFence} {fence : BufferFence}
    (heq : b.fences = removed ++ fence :: fences) (hs : gl.stream.Signaled fence.sync) :
    Ring { b with fences, bufferEnd := fence.nextEnd } gl := by
  have hmem {f : BufferFence} (hf : f ∈ fence :: fences) : f ∈ b.fences := heq ▸ List.mem_append_right _ hf
  have hfence := hr.fenced fence (hmem List.mem_cons_self)
  have hsorted : (b.bufferEnd :: (removed.map BufferFence.nextEnd ++
      fence.nextEnd :: fences.map BufferFence.nextEnd)).Pairwise (· ≤ ·) := by
    have := hr.sorted
    rwa [heq, List.map_append, List.map_cons] at this
  refine ⟨hr.offset_dvd, hr.size_dvd, hr.offset_le, hfence.le, hfence.idle hs,
    fun f hf => ?_, (List.pairwise_append.mp (List.pairwise_cons.mp hsorted).2).2.1, ?_⟩
  · have := hr.fenced f (hmem (List.mem_cons_of_mem _ hf))
    exact ⟨this.covered, this.le, this.issued⟩
  · -- what frees the rest of the round is at the end of the range or a fence that is left
    have hbehind (x : Int) (hx : x ∈ removed.map BufferFence.nextEnd) : x ≤ fence.nextEnd :=
      (List.pairwise_append.mp (List.pairwise_cons.mp hsorted).2).2.2 x hx _ List.mem_cons_self
    rcases hr.round with hend | ⟨f, hf, hround⟩
    · left
      exact hend.trans ((List.pairwise_cons.mp hsorted).1 _ (List.mem_append_right _ List.mem_cons_self))
    · rw [heq, List.mem_append, List.mem_cons] at hf
      rcases hf with hf | rfl | hf
      · exact .inl (hround.trans (hbehind _ (List.mem_map_of_mem hf)))
      · exact .inl hround
      · exact .inr ⟨f, hf, hround⟩

/-- More commands are done. -/
theorem Ring.carryOut (hr : Ring b gl) (n : Nat) : Ring b { gl with stream := gl.stream.carryOut n } where
  __ := hr
  idle := hr.idle.mono (CommandStream.done_carryOut _ n)
  fenced fence hf := ⟨(hr.fenced fence hf).covered, (hr.fenced fence hf).le, (hr.fenced fence hf).issued⟩

/-- Fences in front that free too little are passed over. -/
theorem Ring.skip (hr : Ring b gl) {removed fences : List BufferFence} (heq : b.fences = removed ++ fences)
    (h : ∀ fence ∈ removed, fence.nextEnd < b.bufferSize) : Ring { b with fences } gl := by
  have hmem {f : BufferFence} (hf : f ∈ fences) : f ∈ b.fences := heq ▸ List.mem_append_right _ hf
  refine ⟨hr.offset_dvd, hr.size_dvd, hr.offset_le, hr.end_le, hr.idle, fun f hf => ?_, ?_, hr.round.imp_right ?_⟩
  · have := hr.fenced f (hmem hf)
    exact ⟨this.covered, this.le, this.issued⟩
  · refine hr.sorted.sublist (List.Sublist.cons_cons _ ?_)
    rw [heq, List.map_append]
    exact List.sublist_append_right _ _
  · rintro ⟨f, hf, hround⟩
    rw [heq, List.mem_append] at hf
    rcases hf with hf | hf
    · exact absurd hround (h f hf).not_ge
    · exact ⟨f, hf, hround⟩

/-- There is a fence to wait on. When it is reached the range is free. -/
theorem awaitFence_ring (hr : Ring b gl) (hc : Created b gl) {stop : Nat} (hend : b.bufferEnd < stop)
    (hstop : stop ≤ b.bufferSize) (timely : Bool) :
    ∃ reached fences bufferEnd gl', b.awaitFence gl stop timely = some (reached, { b with fences, bufferEnd }, gl') ∧
      Ring { b with fences, bufferEnd } gl' ∧ Created b gl' ∧ (reached → (stop : Int) ≤ bufferEnd) := by
  have heq := (List.takeWhile_append_dropWhile (p := fun fence => decide (fence.nextEnd < (stop : Int))) (l := b.fences)).symm
  unfold GLVertexBuffer.awaitFence
  generalize hdrop : b.fences.dropWhile (fun fence => decide (fence.nextEnd < (stop : Int))) = rest at heq ⊢
  have hremoved (fence : BufferFence) (hf : fence ∈ b.fences.takeWhile fun fence => decide (fence.nextEnd < (stop : Int))) :
      fence.nextEnd < stop := by
    have := List.mem_takeWhile_imp hf
    exact of_decide_eq_true this
  cases rest with
  | nil =>
    -- the fence that frees the rest of the round is still there
    rcases hr.round with h | ⟨fence, hf, hround⟩
    · omega
    · have := hremoved fence (by rwa [heq, List.append_nil] at hf)
      omega
  | cons fence fences =>
    have hnext : (stop : Int) ≤ fence.nextEnd := by
      have := List.head_dropWhile_not (fun fence : BufferFence => decide (fence.nextEnd < (stop : Int)))
        (l := b.fences) (by rw [hdrop]; exact List.cons_ne_nil _ _)
      simpa [hdrop] using this
    dsimp only
    split
    · next hs =>
      exact ⟨true, fences, fence.nextEnd, gl, rfl, hr.drop heq (of_decide_eq_true hs), hc, fun _ => hnext⟩
    · split
      · have hissued := (hr.fenced fence (heq ▸ List.mem_append_right _ List.mem_cons_self)).issued
        refine ⟨true, fences, fence.nextEnd, _, rfl, ?_, ⟨hc.draw, hc.store⟩, fun _ => hnext⟩
        exact (hr.carryOut (fence.sync + 1)).drop heq (CommandStream.signaled_carryOut hissued)
      · refine ⟨false, fence :: fences, b.bufferEnd, gl, rfl, ?_, hc, nofun⟩
        refine hr.skip heq fun f hf => ?_
        have := hremoved f hf
        omega

theorem endOfFrame_ring (hr : Ring b gl) (hc : Created b gl) :
    (Unallocated (b.endOfFrame gl).1 ∨ Ring (b.endOfFrame gl).1 (b.endOfFrame gl).2) ∧
      Created (b.endOfFrame gl).1 (b.endOfFrame gl).2 := by
  unfold GLVertexBuffer.endOfFrame
  split
  · exact ⟨.inr hr, hc⟩
  · split
    · exact ⟨.inr hr, hc⟩
    · dsimp only
      split
      · exact ⟨.inl ⟨rfl, rfl, rfl, rfl, rfl⟩, hc.draw, nofun⟩
      · have hfence : Fenced b gl.fenceSync.2 ⟨gl.fenceSync.1, b.nextOffset + b.bufferSize⟩ := fenced_fenceSync le_rfl
        refine ⟨.inr ⟨hr.offset_dvd, hr.size_dvd, hr.offset_le, hr.end_le, covered_fenceSync hr.idle, fun f hf => ?_, ?_, ?_⟩,
          (created_fenceSync hc).draw, hc.store⟩
        · rcases List.mem_append.mp hf with hf | hf
          · have := (hr.fenced f hf).fenceSync
            exact ⟨this.covered, this.le, this.issued⟩
          · cases List.mem_singleton.mp hf
            exact ⟨hfence.covered, hfence.le, hfence.issued⟩
        · rw [List.map_append, ← List.cons_append, List.pairwise_append]
          refine ⟨hr.sorted, List.pairwise_singleton _ _, fun x hx y hy => ?_⟩
          rw [List.mem_singleton.mp hy]
          rcases List.mem_cons.mp hx with rfl | hx
          · exact hr.end_le
          · obtain ⟨f, hf, rfl⟩ := List.mem_map.mp hx
            exact (hr.fenced f hf).le
        · exact hr.round.imp_right fun ⟨f, hf, h⟩ => ⟨f, List.mem_append_left _ hf, h⟩

/-- Removing finished fences is removing some from the front that were reached. -/
theorem removeFinished_ring {fences : List BufferFence} {bufferEnd : Int} (hr : Ring { b with fences, bufferEnd } gl) :
    Ring { b with
      fences := (GLVertexBuffer.removeFinished gl fences bufferEnd).1
      bufferEnd := (GLVertexBuffer.removeFinished gl fences bufferEnd).2 } gl := by
  fun_induction GLVertexBuffer.removeFinished gl fences bufferEnd with
  | case1 fence next fences bufferEnd hs ih =>
    exact ih (hr.drop (List.nil_append _).symm (of_decide_eq_true hs))
  | case2 | case3 => exact hr

/-- What was handed out is passed. -/
theorem advance_ring (hr : Ring b gl) (hle : b.nextOffset + b.mappedSize ≤ b.bufferSize) :
    Ring b.advance gl ∧ Uploaded b.advance b.mappedSize := by
  have halign : b.nextOffset + align b.mappedSize 16 ≤ b.bufferSize := by
    have := align_le ((Nat.dvd_sub_iff_left hr.offset_le hr.offset_dvd).mpr hr.size_dvd) (Nat.le_sub_of_add_le' hle)
    have := hr.offset_le
    omega
  have hmapped : b.mappedSize ≤ align b.mappedSize 16 := le_align b.mappedSize (by decide)
  have grow {x : Int} (h : x ≤ b.nextOffset + b.bufferSize) :
      x ≤ ((b.nextOffset + align b.mappedSize 16 : Nat) : Int) + b.bufferSize := by omega
  have covered {k : Nat} {stop : Int} (h : Covered b gl k stop) : Covered b.advance gl k stop := by
    intro d hd hs
    refine (h d hd hs).imp_left fun ⟨hstart, hstop⟩ => ⟨hstart, hstop.trans ?_⟩
    exact Nat.le_add_right _ _
  refine ⟨⟨?_, hr.size_dvd, halign, grow hr.end_le, covered hr.idle, fun f hf => ?_, hr.sorted, hr.round⟩, ?_, ?_, fun f hf => ?_⟩
  · exact Nat.dvd_add hr.offset_dvd (dvd_align _ _)
  · have := hr.fenced f hf
    exact ⟨covered this.covered, grow this.le, this.issued⟩
  · exact Nat.add_le_add_left hmapped _
  · have := hr.end_le
    show b.bufferEnd - b.bufferSize ≤ b.nextOffset
    omega
  · have := (hr.fenced f hf).le
    show f.nextEnd - b.bufferSize ≤ b.nextOffset
    omega

/-- Draws read from what was uploaded last. -/
theorem draw_ring (hr : Ring b gl) {n first size : Nat} (hu : Uploaded b n) (hle : first + size ≤ n) :
    Ring b (b.draw gl first size) := by
  unfold GLVertexBuffer.draw
  split
  · exact hr
  · next store hstore =>
    have hstop := hu.le
    have covered {k : Nat} {stop : Int} (h : Covered b gl k stop) (hbehind : stop - b.bufferSize ≤ b.baseAddress) :
        Covered b (gl.issue (.draw ⟨store, b.baseAddress + first, b.baseAddress + first + size⟩)) k stop := by
      intro d hd hs
      rcases CommandStream.since_issue hd with hold | heq
      · exact h d hold hs
      · cases heq
        exact .inl ⟨by push_cast; omega, by show b.baseAddress + first + size ≤ b.nextOffset; omega⟩
    refine ⟨hr.offset_dvd, hr.size_dvd, hr.offset_le, hr.end_le, covered hr.idle hu.behind, fun f hf => ?_, hr.sorted, hr.round⟩
    have hfenced := hr.fenced f hf
    refine ⟨covered hfenced.covered (hu.fences f hf), hfenced.le, hfenced.issued.trans_le ?_⟩
    show _ ≤ (gl.stream.issued ++ [_]).length
    rw [List.length_append]
    exact Nat.le_add_right _ _

end persistent

end KWinFT.VertexBuffer
