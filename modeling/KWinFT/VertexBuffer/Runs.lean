import KWinFT.VertexBuffer.Idle

/-! Painting over many frames, while the commands are carried out at any pace and waits may time out. -/
namespace KWinFT.VertexBuffer
open Lib
variable {b : GLVertexBuffer} {gl : Gl} {s s' : Painting}

/-- What map hands out: the range at the next offset of the store, within it. -/
structure Handed (b : GLVertexBuffer) (size : Nat) (r : Mapping) : Prop where
  store : b.store = some r.store
  start : r.start = b.nextOffset
  whole : r.size = size
  le : b.nextOffset + size ≤ b.bufferSize
  free : b.kind.persistent → (b.nextOffset + size : Int) ≤ b.bufferEnd

section map

/-- Room up to the end of the buffer is handed out when no draw reads from it any more. -/
theorem awaitRange_ring (hr : Ring b gl) (hc : Created b gl) {size : Nat} (hroom : b.nextOffset + size ≤ b.bufferSize)
    (timely : Bool) :
    ∃ m b' gl', b.awaitRange gl size timely = some (m, b', gl') ∧ Ring b' gl' ∧ Created b' gl' ∧
      b'.mappedSize = b.mappedSize ∧ b'.kind = b.kind ∧ b'.nextOffset + size ≤ b'.bufferSize ∧
      ∀ r, m = some r → Handed b' size r := by
  have handed (b₂ : GLVertexBuffer) (hroom : b₂.nextOffset + size ≤ b₂.bufferSize) (reached : Bool)
      (hfree : reached → (b₂.nextOffset + size : Int) ≤ b₂.bufferEnd) (r : Mapping)
      (h : (if reached then b₂.store.map (⟨·, b₂.nextOffset, size⟩) else none) = some r) : Handed b₂ size r := by
    split at h
    · next hreached =>
      obtain ⟨store, hstore, rfl⟩ := Option.map_eq_some_iff.mp h
      exact ⟨hstore, rfl, rfl, hroom, fun _ => hfree hreached⟩
    · cases h
  unfold GLVertexBuffer.awaitRange
  split
  · next hend =>
    have hstop : b.bufferEnd < ((b.nextOffset + size : Nat) : Int) := by
      push_cast
      exact hend
    obtain ⟨reached, fences, bufferEnd, gl', hawait, hr', hc', hfree⟩ := awaitFence_ring hr hc hstop hroom timely
    rw [hawait]
    refine ⟨_, _, _, rfl, hr', ⟨hc'.draw, hc'.store⟩, rfl, rfl, hroom, ?_⟩
    refine handed { b with fences, bufferEnd } hroom reached fun h => ?_
    exact (Int.natCast_add _ _).symm.trans_le (hfree h)
  · next hend => exact ⟨_, _, _, rfl, hr, hc, rfl, rfl, hroom, handed _ hroom true fun _ => not_lt.mp hend⟩

theorem getIdleRange_ring (hr : Ring b gl) (hc : Created b gl) {size : Nat} (hsize : size ≤ b.bufferSize) (timely : Bool) :
    ∃ m b' gl', b.getIdleRange gl size timely = some (m, b', gl') ∧ Ring b' gl' ∧ Created b' gl' ∧
      b'.mappedSize = b.mappedSize ∧ b'.kind = b.kind ∧ b'.nextOffset + size ≤ b'.bufferSize ∧
      ∀ r, m = some r → Handed b' size r := by
  unfold GLVertexBuffer.getIdleRange
  rw [if_neg (Nat.not_lt.mpr hsize)]
  dsimp only
  split
  · have hroom : (b.wrapAround gl).1.nextOffset + size ≤ (b.wrapAround gl).1.bufferSize := (Nat.zero_add size).trans_le hsize
    exact awaitRange_ring (wrapAround_ring hr) ((created_fenceSync hc).congr rfl) hroom timely
  · next hroom => exact awaitRange_ring hr hc (Nat.not_lt.mp hroom) timely

/-- A range that does not fit at all gets a store of its own. -/
theorem getIdleRange_reallocates (hc : Created b gl) {size : Nat} (hsize : b.bufferSize < size) (timely : Bool) :
    ∃ m b' gl', b.getIdleRange gl size timely = some (m, b', gl') ∧ Ring b' gl' ∧ Created b' gl' ∧
      b'.mappedSize = b.mappedSize ∧ b'.kind = b.kind ∧ b'.nextOffset + size ≤ b'.bufferSize ∧
      ∀ r, m = some r → Handed b' size r := by
  have hle := (Nat.le_mul_of_pos_right size (by decide)).trans (le_bufferSize_reallocate b gl (size * 2))
  have hr := reallocatePersistentBuffer_ring hc (size * 2)
  have hc' := created_createStore hc (c := (b.reallocatePersistentBuffer gl (size * 2)).1) rfl
  have hsame : (b.reallocatePersistentBuffer gl (size * 2)).1.mappedSize = b.mappedSize ∧
      (b.reallocatePersistentBuffer gl (size * 2)).1.kind = b.kind := ⟨rfl, rfl⟩
  change Created _ (b.reallocatePersistentBuffer gl (size * 2)).2 at hc'
  unfold GLVertexBuffer.getIdleRange
  rw [if_pos hsize]
  generalize b.reallocatePersistentBuffer gl (size * 2) = new at *
  obtain ⟨b₁, gl₁⟩ := new
  have := getIdleRange_ring hr hc' hle timely
  rw [GLVertexBuffer.getIdleRange, if_neg (Nat.not_lt.mpr hle), hsame.1, hsame.2] at this
  exact this

theorem linear_createStore (hc : Created b gl) {c : GLVertexBuffer} (hstore : c.store = some gl.stores) :
    Linear c gl.createStore.2 := by
  intro d hd hs
  have := hc.draw d hd
  rw [hstore, Option.some.injEq] at hs
  omega

theorem mapNextFreeRange_linear (hl : Linear b gl) (hc : Created b gl) (size : Nat) :
    ∃ m b' gl', b.mapNextFreeRange gl size = (m, b', gl') ∧ Linear b' gl' ∧ Created b' gl' ∧
      b'.mappedSize = b.mappedSize ∧ b'.kind = b.kind ∧
      ∀ r, m = some r → b.kind.persistent = false → Handed b' size r := by
  have handed (b₂ : GLVertexBuffer) (hkind : b₂.kind = b.kind) (hroom : b₂.nextOffset + size ≤ b₂.bufferSize) (r : Mapping)
      (h : b₂.store.map (⟨·, b₂.nextOffset, size⟩) = some r) (hp : b.kind.persistent = false) : Handed b₂ size r := by
    obtain ⟨store, hstore, rfl⟩ := Option.map_eq_some_iff.mp h
    exact ⟨hstore, rfl, rfl, hroom, fun h => absurd h (by rw [hkind, hp]; decide)⟩
  unfold GLVertexBuffer.mapNextFreeRange
  by_cases hroom : b.bufferSize < b.nextOffset + size
  · rw [if_pos hroom]
    by_cases hsize : b.bufferSize < size
    · rw [if_pos hsize]
      refine ⟨_, _, _, rfl, linear_createStore hc rfl, created_createStore hc rfl, rfl, rfl, handed _ rfl ?_⟩
      show 0 + size ≤ if b.kind.staticDraw then size else align (max size 32768) 4096
      rw [Nat.zero_add]
      split
      · exact le_rfl
      · exact (le_max_left _ _).trans (le_align _ (by decide))
    · rw [if_neg hsize]
      exact ⟨_, _, _, rfl, linear_createStore hc rfl, created_createStore hc rfl, rfl, rfl,
        handed _ rfl ((Nat.zero_add size).trans_le (Nat.not_lt.mp hsize))⟩
  · rw [if_neg hroom]
    exact ⟨_, _, _, rfl, hl, hc, rfl, rfl, handed _ rfl (Nat.not_lt.mp hroom)⟩

end map

/-- While the buffer is mapped nothing is drawn, and when it is not, what can be drawn is what was uploaded last. -/
structure Sound (s : Painting) : Prop where
  created : Created s.buffer s.gl
  ring : s.buffer.kind.persistent → Unallocated s.buffer ∨ Ring s.buffer s.gl
  linear : s.buffer.kind.persistent = false → s.buffer.kind.mapsRanges → Linear s.buffer s.gl
  mapped : ∀ m, s.mapping = some m → s.uploaded = none ∧
    (s.buffer.kind.persistent → s.buffer.nextOffset + s.buffer.mappedSize ≤ s.buffer.bufferSize) ∧
    ∀ r, m = some r → Handed s.buffer s.buffer.mappedSize r ∧ (s.buffer.kind.persistent ∨ s.buffer.kind.mapsRanges)
  uploaded : ∀ n, s.uploaded = some n →
    (s.buffer.kind.persistent → s.buffer.store ≠ none → Uploaded s.buffer n) ∧
    (s.buffer.kind.mapsRanges → s.buffer.baseAddress + n ≤ s.buffer.nextOffset)

section steps

theorem Ring.resized (hr : Ring b gl) (mappedSize frameSize : Nat) : Ring { b with mappedSize, frameSize } gl where
  __ := hr
  fenced f hf := ⟨(hr.fenced f hf).covered, (hr.fenced f hf).le, (hr.fenced f hf).issued⟩

theorem Unallocated.mapEmpty (hu : Unallocated b) {timely : Bool} {m : Option Mapping} {b' : GLVertexBuffer} {gl' : Gl}
    (h : b.getIdleRange gl 0 timely = some (m, b', gl')) : m = none ∧ b' = b ∧ gl' = gl := by
  unfold GLVertexBuffer.getIdleRange at h
  rw [if_neg (Nat.not_lt_zero _)] at h
  dsimp only at h
  rw [if_neg (show ¬ b.bufferSize < b.nextOffset + 0 by rw [hu.offset, hu.size]; decide)] at h
  unfold GLVertexBuffer.awaitRange at h
  dsimp only at h
  split at h
  · -- there are no fences to wait on
    unfold GLVertexBuffer.awaitFence at h
    rw [hu.fences] at h
    cases h
  · rw [Option.bind_eq_bind, Option.bind_some, hu.store] at h
    obtain ⟨rfl, rfl, rfl⟩ := h
    exact ⟨rfl, rfl, rfl⟩

/-- Mapping a range that is not empty never finds the fences missing. -/
theorem map_persistent (hs : Sound s) (hp : s.buffer.kind.persistent) {size : Nat} (hsize : 0 < size) (timely : Bool) :
    ∃ m b' gl', s.buffer.map s.gl size timely = some (m, b', gl') ∧ Ring b' gl' ∧ Created b' gl' ∧ b'.mappedSize = size ∧
      b'.kind = s.buffer.kind ∧ b'.nextOffset + size ≤ b'.bufferSize ∧ ∀ r, m = some r → Handed b' size r := by
  unfold GLVertexBuffer.map
  rw [if_pos hp]
  have hc : Created { s.buffer with mappedSize := size, frameSize := s.buffer.frameSize + size } s.gl :=
    hs.created.congr rfl
  rcases lt_or_ge s.buffer.bufferSize size with hlt | hge
  · exact getIdleRange_reallocates hc hlt timely
  · rcases hs.ring hp with hu | hr
    · have := hu.size
      omega
    · exact getIdleRange_ring (hr.resized _ _) hc hge timely

/-- The ring after a map. -/
theorem Ring.sound_map {b' : GLVertexBuffer} {gl' : Gl} {m : Option Mapping} (hr : Ring b' gl') (hc : Created b' gl')
    (hp : b'.kind.persistent) (hroom : b'.nextOffset + b'.mappedSize ≤ b'.bufferSize)
    (hm : ∀ r, m = some r → Handed b' b'.mappedSize r) : Sound { buffer := b', gl := gl', mapping := some m } := by
  refine ⟨hc, fun _ => .inr hr, fun h => absurd hp (by rw [h]; decide), ?_, nofun⟩
  rintro _ ⟨⟩
  exact ⟨rfl, fun _ => hroom, fun r hr => ⟨hm r hr, .inl hp⟩⟩

theorem sound_map_persistent (hs : Sound s) (hp : s.buffer.kind.persistent) {size : Nat} {timely : Bool} {m : Option Mapping}
    {b' : GLVertexBuffer} {gl' : Gl} (hmap : s.buffer.map s.gl size timely = some (m, b', gl')) :
    Sound { buffer := b', gl := gl', mapping := some m } := by
  rcases Nat.eq_zero_or_pos size with rfl | hsize
  · rw [GLVertexBuffer.map, if_pos hp] at hmap
    rcases hs.ring hp with hu | hr
    · have hu' : Unallocated { s.buffer with mappedSize := 0, frameSize := s.buffer.frameSize + 0 } :=
        ⟨hu.store, hu.size, hu.offset, hu.fences, hu.frame⟩
      obtain ⟨rfl, rfl, rfl⟩ := hu'.mapEmpty hmap
      refine ⟨hs.created.congr rfl, fun _ => .inl hu', fun h => absurd hp (by rw [h]; decide), ?_, nofun⟩
      rintro _ ⟨⟩
      exact ⟨rfl, fun _ => hu'.offset.trans_le (Nat.zero_le _), nofun⟩
    · obtain ⟨_, _, _, heq, hr', hc, hmapped, hkind, hroom, hm⟩ := getIdleRange_ring (hr.resized 0 _)
        (hs.created.congr rfl) (Nat.zero_le _) timely
      obtain ⟨rfl, rfl, rfl⟩ := Option.some.inj (heq.symm.trans hmap)
      exact hr'.sound_map hc (hkind ▸ hp) (hmapped ▸ hroom) (hmapped ▸ hm)
  · obtain ⟨_, _, _, heq, hr', hc, hmapped, hkind, hroom, hm⟩ := map_persistent hs hp hsize timely
    obtain ⟨rfl, rfl, rfl⟩ := Option.some.inj (heq.symm.trans hmap)
    exact hr'.sound_map hc (hkind ▸ hp) (hmapped.symm ▸ hroom) (hmapped.symm ▸ hm)

theorem sound_map (hs : Sound s) {size : Nat} {timely : Bool} (h : step s (.map size timely) = some s') : Sound s' := by
  obtain ⟨⟨m, b', gl'⟩, hmap, heq⟩ := Option.bind_eq_some_iff.mp h
  cases heq
  by_cases hp : s.buffer.kind.persistent
  · exact sound_map_persistent hs hp hmap
  · rw [GLVertexBuffer.map, if_neg hp] at hmap
    have hp := Bool.eq_false_iff.mpr hp
    by_cases hr : s.buffer.kind.mapsRanges
    · rw [if_pos hr] at hmap
      have hl : Linear { s.buffer with mappedSize := size, frameSize := s.buffer.frameSize + size } s.gl :=
        hs.linear hp hr
      obtain ⟨_, _, _, heq, hl', hc, hmapped, hkind, hm⟩ := mapNextFreeRange_linear hl (hs.created.congr rfl) size
      obtain ⟨rfl, rfl, rfl⟩ := heq.symm.trans (Option.some.inj hmap)
      have hp' : b'.kind.persistent = false := by rw [hkind]; exact hp
      refine ⟨hc, fun h => absurd h (by rw [hp']; decide), fun _ _ => hl', ?_, nofun⟩
      rintro _ ⟨⟩
      refine ⟨rfl, fun h => absurd h (by rw [hp']; decide), fun r hr' => ⟨?_, .inr (by rw [hkind]; exact hr)⟩⟩
      rw [hmapped]
      exact hm r hr' hp
    · rw [if_neg hr] at hmap
      obtain ⟨rfl, rfl, rfl⟩ := Option.some.inj hmap
      refine ⟨hs.created.congr rfl, fun h => absurd h (by rw [hp]; decide), fun _ h => absurd h hr, ?_, nofun⟩
      rintro _ ⟨⟩
      exact ⟨rfl, fun h => absurd h (by rw [hp]; decide), nofun⟩

theorem Linear.advance (hl : Linear b gl) : Linear b.advance gl :=
  fun d hd hs => (hl d hd hs).trans (Nat.le_add_right _ _)

theorem le_advance (b : GLVertexBuffer) : b.advance.baseAddress + b.mappedSize ≤ b.advance.nextOffset :=
  Nat.add_le_add_left (le_align _ (by decide)) _

theorem sound_indirect (hc : Created s.buffer s.gl) (hp : s.buffer.kind.persistent = false)
    (hr : s.buffer.kind.mapsRanges = false) (hm : s.mapping = none) : Sound s := by
  have hp (h : s.buffer.kind.persistent = true) : False := absurd h (by rw [hp]; decide)
  have hr (h : s.buffer.kind.mapsRanges = true) : False := absurd h (by rw [hr]; decide)
  refine ⟨hc, fun h => (hp h).elim, fun _ h => (hr h).elim, fun m h => absurd (hm.symm.trans h) nofun, ?_⟩
  exact fun _ _ => ⟨fun h => (hp h).elim, fun h => (hr h).elim⟩

theorem sound_unmap (hs : Sound s) (hm : s.mapping ≠ none) :
    Sound { buffer := (s.buffer.unmap s.gl).1, gl := (s.buffer.unmap s.gl).2, uploaded := some s.buffer.mappedSize } := by
  obtain ⟨m, hm⟩ := Option.ne_none_iff_exists'.mp hm
  have hmapped := hs.mapped m hm
  unfold GLVertexBuffer.unmap
  by_cases hdirect : (s.buffer.kind.persistent || s.buffer.kind.mapsRanges) = true
  · rw [if_pos hdirect]
    refine ⟨hs.created.congr rfl, fun hp => ?_, fun hp hr => (hs.linear hp hr).advance, nofun, ?_⟩
    · rcases hs.ring hp with hu | hr
      · left
        have hsize := hmapped.2.1 hp
        rw [hu.offset, hu.size, Nat.zero_add, Nat.le_zero] at hsize
        refine ⟨hu.store, hu.size, ?_, hu.fences, hu.frame⟩
        show s.buffer.nextOffset + align s.buffer.mappedSize 16 = 0
        rw [hu.offset, hsize]
        rfl
      · exact .inr ((advance_ring hr (hmapped.2.1 hp)).1.resized 0 _)
    · rintro n ⟨⟩
      refine ⟨fun hp hstore => ?_, fun _ => le_advance s.buffer⟩
      rcases hs.ring hp with hu | hr
      · exact absurd hu.store hstore
      · have := (advance_ring hr (hmapped.2.1 hp)).2
        exact ⟨this.le, this.behind, this.fences⟩
  · -- the data is passed to the driver, which takes care of the draws
    rw [if_neg hdirect]
    rw [Bool.or_eq_true, not_or, Bool.not_eq_true, Bool.not_eq_true] at hdirect
    by_cases hprefer : s.buffer.kind.preferBufferSubData = true
    · rw [if_pos hprefer]
      by_cases hroom : s.buffer.bufferSize < s.buffer.nextOffset + s.buffer.mappedSize
      · rw [if_pos hroom]
        exact sound_indirect (created_createStore hs.created rfl) hdirect.1 hdirect.2 rfl
      · rw [if_neg hroom]
        exact sound_indirect (hs.created.congr rfl) hdirect.1 hdirect.2 rfl
    · rw [if_neg hprefer]
      exact sound_indirect (created_createStore hs.created rfl) hdirect.1 hdirect.2 rfl

theorem created_draw (hc : Created b gl) (first size : Nat) : Created b (b.draw gl first size) := by
  unfold GLVertexBuffer.draw
  split
  · exact hc
  · next store hstore =>
    refine ⟨fun d hd => ?_, hc.store⟩
    rcases CommandStream.since_issue hd with hold | heq
    · exact hc.draw d hold
    · cases heq
      exact hc.store store hstore

theorem linear_draw (hl : Linear b gl) {n first size : Nat} (hu : b.baseAddress + n ≤ b.nextOffset) (hle : first + size ≤ n) :
    Linear b (b.draw gl first size) := by
  unfold GLVertexBuffer.draw
  split
  · exact hl
  · intro d hd hs
    rcases CommandStream.since_issue hd with hold | heq
    · exact hl d hold hs
    · cases heq
      show b.baseAddress + first + size ≤ b.nextOffset
      omega

theorem sound_draw (hs : Sound s) {first size : Nat} (hu : ∃ n, s.uploaded = some n ∧ first + size ≤ n) :
    Sound { s with gl := s.buffer.draw s.gl first size } := by
  obtain ⟨n, hn, hle⟩ := hu
  have hupload := hs.uploaded n hn
  refine ⟨created_draw hs.created _ _, fun hp => ?_, fun hp hr => linear_draw (hs.linear hp hr) (hupload.2 hr) hle,
    hs.mapped, hs.uploaded⟩
  rcases hs.ring hp with hunallocated | hr
  · exact .inl hunallocated
  · right
    by_cases hstore : s.buffer.store = none
    · show Ring s.buffer (s.buffer.draw s.gl first size)
      rw [GLVertexBuffer.draw, hstore]
      exact hr
    · exact draw_ring hr (hupload.1 hp hstore) hle

theorem sound_endOfFrame (hs : Sound s) (hm : s.mapping = none) :
    Sound { s with buffer := (s.buffer.endOfFrame s.gl).1, gl := (s.buffer.endOfFrame s.gl).2, uploaded := none } := by
  by_cases hp : s.buffer.kind.persistent
  · have hkind : (s.buffer.endOfFrame s.gl).1.kind = s.buffer.kind := by
      unfold GLVertexBuffer.endOfFrame
      split
      · rfl
      · split
        · rfl
        · dsimp only
          split <;> rfl
    have hkind : (s.buffer.endOfFrame s.gl).1.kind.persistent := hkind ▸ hp
    have hring : (Unallocated (s.buffer.endOfFrame s.gl).1 ∨
        Ring (s.buffer.endOfFrame s.gl).1 (s.buffer.endOfFrame s.gl).2) ∧
        Created (s.buffer.endOfFrame s.gl).1 (s.buffer.endOfFrame s.gl).2 := by
      rcases hs.ring hp with hu | hr
      · have : s.buffer.endOfFrame s.gl = (s.buffer, s.gl) := by
          unfold GLVertexBuffer.endOfFrame
          rw [if_neg (by rw [hp]; decide), if_pos hu.frame]
        rw [this]
        exact ⟨.inl hu, hs.created⟩
      · exact endOfFrame_ring hr hs.created
    refine ⟨hring.2, fun _ => hring.1, fun h => absurd hkind (by rw [h]; decide), fun m h => ?_, nofun⟩
    exact absurd (hm.symm.trans h) nofun
  · have heq : s.buffer.endOfFrame s.gl = (s.buffer, s.gl) := by
      unfold GLVertexBuffer.endOfFrame
      rw [if_pos (by rw [Bool.eq_false_iff.mpr hp]; decide)]
    rw [heq]
    exact ⟨hs.created, hs.ring, hs.linear, fun m h => absurd (hm.symm.trans h) nofun, nofun⟩

theorem removeFinished_spec (gl : Gl) (fences : List BufferFence) (bufferEnd : Int) :
    (GLVertexBuffer.removeFinished gl fences bufferEnd).1 ⊆ fences ∧
      ((GLVertexBuffer.removeFinished gl fences bufferEnd).2 = bufferEnd ∨
        ∃ fence ∈ fences, (GLVertexBuffer.removeFinished gl fences bufferEnd).2 = fence.nextEnd) := by
  fun_induction GLVertexBuffer.removeFinished gl fences bufferEnd with
  | case1 fence next fences bufferEnd hs ih =>
    refine ⟨List.Subset.trans ih.1 (List.subset_cons_self _ _), .inr ?_⟩
    rcases ih.2 with h | ⟨f, hf, h⟩
    · exact ⟨fence, List.mem_cons_self, h⟩
    · exact ⟨f, List.mem_cons_of_mem _ hf, h⟩
  | case2 | case3 => exact ⟨List.Subset.refl _, .inl rfl⟩

theorem sound_framePosted (hs : Sound s) (hm : s.mapping = none) : Sound { s with buffer := s.buffer.framePosted s.gl } := by
  by_cases hp : s.buffer.kind.persistent
  · have heq : s.buffer.framePosted s.gl = { s.buffer with
        fences := (GLVertexBuffer.removeFinished s.gl s.buffer.fences s.buffer.bufferEnd).1
        bufferEnd := (GLVertexBuffer.removeFinished s.gl s.buffer.fences s.buffer.bufferEnd).2 } := by
      rw [GLVertexBuffer.framePosted, if_neg (by rw [hp]; decide)]
    have hspec := removeFinished_spec s.gl s.buffer.fences s.buffer.bufferEnd
    rw [heq]
    refine ⟨hs.created.congr rfl, fun _ => ?_, fun h => absurd hp (by rw [h]; decide), fun m h => ?_, fun n hn => ?_⟩
    · refine (hs.ring hp).imp (fun hu => ⟨hu.store, hu.size, hu.offset, ?_, hu.frame⟩) fun hr => removeFinished_ring hr
      exact List.eq_nil_of_subset_nil (hu.fences ▸ hspec.1)
    · exact absurd (hm.symm.trans h) nofun
    · have hupload := hs.uploaded n hn
      refine ⟨fun hp hstore => ?_, hupload.2⟩
      have hu := hupload.1 hp hstore
      refine ⟨hu.le, ?_, fun fence hf => hu.fences fence (hspec.1 hf)⟩
      show (GLVertexBuffer.removeFinished s.gl s.buffer.fences s.buffer.bufferEnd).2 - _ ≤ _
      rcases hspec.2 with h | ⟨fence, hf, h⟩
      · rw [h]
        exact hu.behind
      · rw [h]
        exact hu.fences fence hf
  · have heq : s.buffer.framePosted s.gl = s.buffer := by
      rw [GLVertexBuffer.framePosted, if_pos (by rw [Bool.eq_false_iff.mpr hp]; decide)]
    rw [heq]
    exact hs

theorem sound_progress (hs : Sound s) (n : Nat) : Sound { s with gl.stream := s.gl.stream.carryOut n } :=
  ⟨⟨hs.created.draw, hs.created.store⟩, fun hp => (hs.ring hp).imp_right fun hr => hr.carryOut n, hs.linear, hs.mapped,
    hs.uploaded⟩

theorem sound_step (hs : Sound s) {e : Event} (hu : Usage s e) (h : step s e = some s') : Sound s' := by
  cases e with
  | map size timely => exact sound_map hs h
  | unmap => exact Option.some.inj h ▸ sound_unmap hs hu
  | draw first size => exact Option.some.inj h ▸ sound_draw hs hu
  | endOfFrame => exact Option.some.inj h ▸ sound_endOfFrame hs hu
  | framePosted => exact Option.some.inj h ▸ sound_framePosted hs hu
  | progress n => exact Option.some.inj h ▸ sound_progress hs n

end steps

def initial (kind : Kind) : Painting := { buffer := { kind } }

theorem sound_initial (kind : Kind) : Sound (initial kind) := by
  have nothing {k : Nat} {c : Command} : ¬ (initial kind).gl.stream.Since k c := by
    rintro ⟨i, _, hc⟩
    cases hc
  exact ⟨⟨fun d hd => absurd hd nothing, nofun⟩, fun _ => .inl ⟨rfl, rfl, rfl, rfl, rfl⟩, fun _ _ d hd => absurd hd nothing,
    nofun, nofun⟩

/-- A draw that is not done yet reads nothing of what the caller may write. -/
def Undisturbed (s : Painting) (r : Mapping) : Prop :=
  ∀ d, s.gl.stream.Outstanding (.draw d) → d.store = r.store → d.stop ≤ r.start ∨ r.start + r.size ≤ d.start

theorem Sound.undisturbed (hs : Sound s) {r : Mapping} (hm : s.mapping = some (some r)) :
    r.start + r.size ≤ s.buffer.bufferSize ∧ Undisturbed s r := by
  obtain ⟨_, _, hr⟩ := hs.mapped _ hm
  obtain ⟨hh, hdirect⟩ := hr r rfl
  have hstop : r.start + r.size = s.buffer.nextOffset + s.buffer.mappedSize := by rw [hh.start, hh.whole]
  refine ⟨hstop.trans_le hh.le, fun d hd hstore => ?_⟩
  have hstore : s.buffer.store = some d.store := by rw [hstore, hh.store]
  by_cases hp : s.buffer.kind.persistent
  · rcases hs.ring hp with hu | hring
    · rw [hu.store] at hstore
      cases hstore
    · refine (hring.idle d hd hstore).imp (fun h => h.2.trans hh.start.ge) fun h => ?_
      have := hh.free hp
      omega
  · left
    have := hs.linear (Bool.eq_false_iff.mpr hp) (hdirect.resolve_left hp) d (hd.mono (Nat.zero_le _)) hstore
    exact this.trans hh.start.ge

/-- In every run, whatever the pace of the device and whichever waits time out: what map hands out is within the store and is
read by no draw that is not done, and there is always a fence to wait on. -/
theorem mappings_undisturbed {kind : Kind} (h : Reachable step Usage (initial kind) s) :
    (∀ r, s.mapping = some (some r) → r.start + r.size ≤ s.buffer.bufferSize ∧ Undisturbed s r) ∧
      ∀ size timely, 0 < size → (step s (.map size timely)).isSome := by
  have hs : Sound s := h.invariant Sound (sound_initial kind) fun _ _ _ hs hu h => sound_step hs hu h
  refine ⟨fun r hm => hs.undisturbed hm, fun size timely hsize => ?_⟩
  show (Option.bind _ _).isSome
  by_cases hp : s.buffer.kind.persistent
  · obtain ⟨m, b', gl', hmap, _⟩ := map_persistent hs hp hsize timely
    rw [hmap]
    rfl
  · rw [GLVertexBuffer.map, if_neg hp]
    split <;> rfl

/-- Three frames, the last of which starts over at the front while the second is not done. -/
def startOver : List Event :=
  [.map 60000 true, .unmap, .draw 0 60000, .endOfFrame, .framePosted, .map 60000 true, .unmap, .draw 0 60000, .endOfFrame,
    .framePosted, .map 60000 true]

theorem startOver_undisturbed : ∃ s, s.mapping = some (some ⟨0, 0, 60000⟩) ∧
    s.gl.stream.Outstanding (.draw ⟨0, 60000, 120000⟩) ∧ Undisturbed s ⟨0, 0, 60000⟩ := by
  obtain ⟨s, hs⟩ := Option.isSome_iff_exists.mp (show (Lib.execute (fun s e => if Usage s e then step s e else none)
    (initial ⟨true, true, false, false⟩) startOver).isSome by decide +kernel)
  have hm : (some s).map Painting.mapping = some (some (some ⟨0, 0, 60000⟩)) := by
    rw [← hs]
    decide +kernel
  have hd : (some s).map (fun s => (s.gl.stream.done, s.gl.stream.issued[2]?)) = some (2, some (.draw ⟨0, 60000, 120000⟩)) := by
    rw [← hs]
    decide +kernel
  rw [Option.map_some, Option.some.injEq] at hm hd
  rw [Prod.mk.injEq] at hd
  exact ⟨s, hm, ⟨2, hd.1.le, hd.2⟩, ((mappings_undisturbed (Reachable.init.executeOk startOver hs)).1 _ hm).2⟩

end KWinFT.VertexBuffer
