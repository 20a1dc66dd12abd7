import KWinFT.Xwl.TransferWltoX

/-! What a requestor receives. The flag that asks for a flush on the next delete is never taken back, so a
delete that comes before a chunk is full takes what is there; and an empty chunk at the end of the pipe is
a second closing value. -/
namespace KWinFT.Xwl
open KWinFT.Xwl.Session

/-- No flush without chunks, and the values are what was read, in order; an incremental transfer ends
with its only empty value. Until then there is something to wait for. -/
structure Delivers (stream : List UInt8) (s : Session) : Prop where
  not_failed : s.failed = false
  values_sofar : (values s.outputs).flatten <+: stream.map some
  values_all : s.finished → (values s.outputs).flatten = stream.map some
  closed : s.finished → s.transfer.incr →
    (values s.outputs).getLast? = some [] ∧ (values s.outputs).count [] = 1
  alive : ¬ s.finished → s.transfer.socketNotifier ∨ 0 < s.undeleted

/-- A delete during the reading finds a first chunk that is full. -/
def timely (s : Session) : SessionEvent → Prop
  | .read _ => True
  | .delete => s.transfer.incr → s.transfer.socketNotifier → s.transfer.chunks.head?.any TransferWltoX.isFull

/-- Full chunks, and one that is being filled. -/
def filling (fulls : List (List UInt8)) (part : List UInt8) : List Chunk :=
  fulls.map (⟨·, incrChunkSize⟩) ++ if part = [] then [] else [⟨part, incrChunkSize⟩]

/-- The bytes of the values and of the chunks, and what is known of them while the pipe is read. -/
structure Read (stream : List UInt8) (s : Session) (vals fulls : List (List UInt8)) (part : List UInt8) :
    Prop where
  not_failed : s.failed = false
  open_ : s.finished = false
  notifier : s.transfer.socketNotifier = true
  chunks : s.transfer.chunks = filling fulls part
  vals_full : ∀ b ∈ vals, b.length = incrChunkSize
  fulls_full : ∀ b ∈ fulls, b.length = incrChunkSize
  part_lt : part.length < incrChunkSize
  stream_eq : vals.flatten ++ fulls.flatten ++ part ++ s.remaining = stream
  values_eq : values s.outputs = vals.map (List.map some)

/-- A transfer in one piece, an incremental one while the pipe is open, one that only has its chunks
left, and one that is over. -/
inductive Phase (stream : List UInt8) (s : Session) : Prop
  | single (part : List UInt8) (read : Read stream s [] [] part) (incr : s.transfer.incr = false)
      (undeleted : s.undeleted = 0)
  | reading (vals fulls : List (List UInt8)) (part : List UInt8) (read : Read stream s vals fulls part)
      (incr : s.transfer.incr = true) (isSet : s.transfer.propertyIsSet = true)
      (flush : s.transfer.flushPropertyOnDelete = true) (some_full : vals ≠ [] ∨ fulls ≠ [])
      (undeleted : s.undeleted = 1)
  | draining (vals rest : List (List UInt8)) (not_failed : s.failed = false) (open_ : s.finished = false)
      (notifier : s.transfer.socketNotifier = false) (incr : s.transfer.incr = true)
      (flush : s.transfer.flushPropertyOnDelete = true)
      (chunks : s.transfer.chunks = rest.map fun b => ⟨b, b.length⟩)
      (vals_ne : ∀ b ∈ vals, b ≠ []) (rest_ne : ∀ b ∈ rest, b ≠ [])
      (stream_eq : vals.flatten ++ rest.flatten = stream)
      (values_eq : values s.outputs = vals.map (List.map some)) (undeleted : s.undeleted = 1)
  | ended (not_failed : s.failed = false) (finished : s.finished = true)
      (notifier : s.transfer.socketNotifier = false)
      (all : (values s.outputs).flatten = stream.map some)
      (closed : s.transfer.incr = true → (values s.outputs).getLast? = some [] ∧
        (values s.outputs).count [] = 1)

variable {stream : List UInt8} {s s' : Session} {vals fulls : List (List UInt8)} {part bytes : List UInt8}

theorem flatten_map_map_some (l : List (List UInt8)) : (l.map (List.map some)).flatten = l.flatten.map some :=
  List.map_flatten.symm

theorem Phase.delivers (h : Phase stream s) : Delivers stream s := by
  cases h with
  | single part read incr undeleted =>
    have hopen : ¬ s.finished := by simp [read.open_]
    refine ⟨read.not_failed, ?_, fun hf => absurd hf hopen, fun hf => absurd hf hopen, fun _ => .inl read.notifier⟩
    rw [read.values_eq]
    exact List.nil_prefix
  | reading vals fulls part read incr isSet flush some_full undeleted =>
    have hopen : ¬ s.finished := by simp [read.open_]
    refine ⟨read.not_failed, ?_, fun hf => absurd hf hopen, fun hf => absurd hf hopen, fun _ => .inl read.notifier⟩
    rw [read.values_eq, flatten_map_map_some, ← read.stream_eq]
    simp only [List.append_assoc, List.map_append]
    exact List.prefix_append _ _
  | draining vals rest not_failed open_ notifier incr flush chunks vals_ne rest_ne stream_eq values_eq undeleted =>
    have hopen : ¬ s.finished := by simp [open_]
    refine ⟨not_failed, ?_, fun hf => absurd hf hopen, fun hf => absurd hf hopen, fun _ => .inr (by omega)⟩
    rw [values_eq, flatten_map_map_some, ← stream_eq, List.map_append]
    exact List.prefix_append _ _
  | ended not_failed finished notifier all closed =>
    exact ⟨not_failed, all ▸ List.prefix_rfl, fun _ => all, fun _ => closed, fun hf => absurd finished hf⟩

/-- The chunk that is read into is the one being filled, or a new one. -/
theorem Read.appendChunk (h : Read stream s vals fulls part) :
    s.transfer.appendChunk = fulls.map (⟨·, incrChunkSize⟩) ++ [⟨part, incrChunkSize⟩] := by
  rw [TransferWltoX.appendChunk, h.chunks, filling]
  by_cases hp : part = []
  · subst hp
    have hall : (fulls.map (fun b => (⟨b, incrChunkSize⟩ : Chunk))).getLast?.all TransferWltoX.isFull = true := by
      cases hl : fulls.getLast? with
      | none => simp [hl]
      | some b => simp [hl, TransferWltoX.isFull, h.fulls_full b (List.mem_of_getLast? hl)]
    rw [if_pos rfl, List.append_nil, if_pos hall]
  · have hlt := Nat.ne_of_lt h.part_lt
    simp [hp, TransferWltoX.isFull, hlt]

theorem Read.avail (h : Read stream s vals fulls part) : s.transfer.avail = incrChunkSize - part.length := by
  rw [TransferWltoX.avail, h.appendChunk, List.getLast?_concat]

/-- The chunks after bytes were put into the last one. -/
theorem Read.modifyLast (h : Read stream s vals fulls part) (f : Chunk → Chunk) :
    s.transfer.appendChunk.modifyLast f = fulls.map (⟨·, incrChunkSize⟩) ++ [f ⟨part, incrChunkSize⟩] := by
  rw [h.appendChunk, List.modifyLast_concat]

/-! What the readings of the pipe do: a chunk that becomes full, one that does not, and the end. -/

private theorem readWlSource_part (h : Read stream s vals fulls part) (hb : bytes ≠ [])
    (hlen : (part ++ bytes).length ≠ incrChunkSize) :
    s.transfer.readWlSource (some bytes) =
      some ({ s.transfer with chunks := filling fulls (part ++ bytes) }, []) := by
  have hne : part ++ bytes ≠ [] := by simp [hb]
  simp only [TransferWltoX.readWlSource, h.modifyLast, if_neg hb, filling, if_neg hne]
  rw [if_neg]
  simpa [TransferWltoX.isFull] using hlen

private theorem filling_concat (fulls : List (List UInt8)) (b : List UInt8) :
    fulls.map (⟨·, incrChunkSize⟩) ++ [(⟨b, incrChunkSize⟩ : Chunk)] = filling (fulls ++ [b]) [] := by
  simp [filling]

/-- The first chunk that becomes full makes the transfer an incremental one. -/
private theorem readWlSource_incr (h : Read stream s vals fulls part) (hb : bytes ≠ [])
    (hlen : (part ++ bytes).length = incrChunkSize) (hincr : s.transfer.incr = false) :
    s.transfer.readWlSource (some bytes) =
      some (TransferWltoX.startIncr { s.transfer with chunks := filling (fulls ++ [part ++ bytes]) [] }) := by
  simp only [TransferWltoX.readWlSource, h.modifyLast, if_neg hb, hincr, Bool.false_eq_true, if_false]
  rw [if_pos, filling_concat]
  simpa [TransferWltoX.isFull] using hlen

/-- Further full chunks wait for the property to be deleted. -/
private theorem readWlSource_queue (h : Read stream s vals fulls part) (hb : bytes ≠ [])
    (hlen : (part ++ bytes).length = incrChunkSize) (hincr : s.transfer.incr = true)
    (hset : s.transfer.propertyIsSet = true) :
    s.transfer.readWlSource (some bytes) =
      some ({ s.transfer with
        chunks := filling (fulls ++ [part ++ bytes]) []
        flushPropertyOnDelete := true }, []) := by
  simp only [TransferWltoX.readWlSource, h.modifyLast, if_neg hb, hincr, hset, not_true_eq_false, if_false, if_true]
  rw [if_pos, filling_concat]
  simpa [TransferWltoX.isFull] using hlen

/-- At the end of a pipe that never filled a chunk, one value has it all. -/
private theorem readWlSource_single (h : Read stream s [] [] part) (hincr : s.transfer.incr = false) :
    ∃ t out, s.transfer.readWlSource (some []) = some (t, out) ∧ values out = [part.map some] ∧
      .finished ∈ out ∧ t.socketNotifier = false ∧ t.incr = false := by
  have hval : Chunk.value ⟨part, part.length⟩ = part.map some := by simp [Chunk.value]
  simp only [TransferWltoX.readWlSource, h.modifyLast, List.map_nil, List.nil_append, List.append_nil, if_true,
    hincr, Bool.false_eq_true, if_false]
  rw [show [(⟨part, incrChunkSize⟩ : Chunk)] = [] ++ [⟨part, incrChunkSize⟩] from rfl, List.modifyLast_concat]
  simp only [List.nil_append, TransferWltoX.flushSourceData, Option.map_some, hval]
  refine ⟨_, _, rfl, ?_, by simp [TransferWltoX.endTransfer], rfl, rfl⟩
  cases s.transfer.fd <;> rfl

private theorem readWlSource_last (h : Read stream s vals fulls part) (hincr : s.transfer.incr = true)
    (hset : s.transfer.propertyIsSet = true) :
    s.transfer.readWlSource (some []) =
      some ({ s.transfer with
        chunks := (fulls ++ [part]).map fun b => ⟨b, b.length⟩
        flushPropertyOnDelete := true
        socketNotifier := false }, []) := by
  have hfulls : fulls.map (fun b => (⟨b, incrChunkSize⟩ : Chunk)) = fulls.map fun b => ⟨b, b.length⟩ := by
    refine List.map_congr_left fun b hb => ?_
    rw [h.fulls_full b hb]
  simp only [TransferWltoX.readWlSource, h.modifyLast, List.modifyLast_concat, List.append_nil, if_true, hincr, hset,
    not_true_eq_false, if_false]
  rw [hfulls, List.map_append]
  rfl

private theorem take_finished (s : Session) (t : TransferWltoX) (out : List Output) :
    (s.take (some (t, out))).finished = (s.finished || out.contains .finished) := by
  simp [Session.take, Session.finished]

private theorem take_open {t : TransferWltoX} {out : List Output} (h : s.finished = false)
    (hout : .finished ∉ out) : (s.take (some (t, out))).finished = false := by
  rw [take_finished, h, Bool.false_or]
  simpa using hout

private theorem take_values (s : Session) (t : TransferWltoX) (out : List Output) :
    values (s.take (some (t, out))).outputs = values s.outputs ++ values out := by
  simp [Session.take, values]

/-- Bytes that do not fill the chunk. -/
private theorem Read.more (h : Read stream s vals fulls part)
    (hrem : s.remaining = bytes ++ s'.remaining) (hlt : (part ++ bytes).length < incrChunkSize)
    (hf : s'.failed = false) (ho : s'.outputs = s.outputs)
    (ht : s'.transfer = { s.transfer with chunks := filling fulls (part ++ bytes) }) :
    Read stream s' vals fulls (part ++ bytes) where
  not_failed := hf
  open_ := by rw [finished, ho]; exact h.open_
  notifier := by rw [ht]; exact h.notifier
  chunks := by rw [ht]
  vals_full := h.vals_full
  fulls_full := h.fulls_full
  part_lt := hlt
  stream_eq := by rw [← h.stream_eq, hrem]; simp only [List.append_assoc]
  values_eq := by rw [ho]; exact h.values_eq

/-- Bytes that fill the chunk. -/
private theorem Read.full (h : Read stream s vals fulls part)
    (hrem : s.remaining = bytes ++ s'.remaining) (hlen : (part ++ bytes).length = incrChunkSize)
    (hf : s'.failed = false) (ho : s'.finished = false) (hn : s'.transfer.socketNotifier = true)
    (hc : s'.transfer.chunks = filling (fulls ++ [part ++ bytes]) [])
    (hv : values s'.outputs = values s.outputs) :
    Read stream s' vals (fulls ++ [part ++ bytes]) [] where
  not_failed := hf
  open_ := ho
  notifier := hn
  chunks := hc
  vals_full := h.vals_full
  fulls_full := by
    intro b hb
    rcases List.mem_append.mp hb with hb | hb
    · exact h.fulls_full b hb
    · rw [List.mem_singleton.mp hb, hlen]
  part_lt := incrChunkSize_pos
  stream_eq := by
    rw [← h.stream_eq, hrem]
    simp only [List.flatten_append, List.flatten_singleton, List.append_assoc, List.nil_append]
  values_eq := by rw [hv]; exact h.values_eq

/-- While the pipe is open only full chunks were handed on, so a stream that ends on a full chunk has the
length of whole chunks. -/
private theorem Read.part_ne_nil (h : Read stream s vals fulls part) (hrem : s.remaining = [])
    (hsome : vals ≠ [] ∨ fulls ≠ []) (hstream : stream = [] ∨ ¬ incrChunkSize ∣ stream.length) : part ≠ [] := by
  rintro rfl
  have hsum : ∀ l : List (List UInt8), (∀ b ∈ l, b.length = incrChunkSize) →
      l.flatten.length = l.length * incrChunkSize := by
    intro l hl
    rw [List.length_flatten, List.map_congr_left hl, List.map_const', List.sum_replicate_nat]
  have hlen : stream.length = (vals.length + fulls.length) * incrChunkSize := by
    rw [← h.stream_eq, hrem, List.append_nil, List.append_nil, List.length_append, hsum vals h.vals_full,
      hsum fulls h.fulls_full, Nat.add_mul]
  rcases hstream with rfl | hdvd
  · have hpos : 0 < vals.length + fulls.length := by
      rcases hsome with hv | hf
      · have := List.length_pos_iff.mpr hv
        omega
      · have := List.length_pos_iff.mpr hf
        omega
    exact Nat.ne_of_gt (Nat.mul_pos hpos incrChunkSize_pos) hlen.symm
  · exact hdvd (hlen ▸ Nat.dvd_mul_left _ _)

/-- A reading finds the end of the pipe, or bytes that leave room in the chunk, or bytes that fill it. -/
private theorem Read.step_cases (read : Read stream s vals fulls part) {n : Nat}
    (hs : sessionStep s (.read n) = some s') :
    ∃ bytes rest, s.remaining = bytes ++ rest ∧
      s' = ({ s with remaining := rest } : Session).take (s.transfer.readWlSource (some bytes)) ∧
      (bytes = [] ∧ s.remaining = [] ∨ bytes ≠ [] ∧ (part ++ bytes).length < incrChunkSize ∨
        bytes ≠ [] ∧ (part ++ bytes).length = incrChunkSize) := by
  simp only [sessionStep] at hs
  split at hs
  · next hok =>
    obtain ⟨-, -, havail, hn, hend⟩ := hok
    rw [read.avail] at havail
    have hlt := read.part_lt
    have hlenb : (s.remaining.take n).length = n := List.length_take_of_le hn
    refine ⟨s.remaining.take n, s.remaining.drop n, (List.take_append_drop n _).symm, (Option.some.inj hs).symm, ?_⟩
    rcases Nat.eq_zero_or_pos n with rfl | hpos
    · exact .inl ⟨List.take_zero, hend rfl⟩
    · have hb : s.remaining.take n ≠ [] := List.ne_nil_of_length_pos (by omega)
      rw [List.length_append, hlenb]
      rcases Nat.lt_or_ge (part.length + n) incrChunkSize with hroom | hfull
      · exact .inr (.inl ⟨hb, hroom⟩)
      · exact .inr (.inr ⟨hb, by omega⟩)
  · cases hs

/-- Reading in a transfer that is still in one piece. -/
private theorem Phase.single_read (read : Read stream s [] [] part) (incr : s.transfer.incr = false)
    (undeleted : s.undeleted = 0) {n : Nat} (hs : sessionStep s (.read n) = some s') : Phase stream s' := by
  obtain ⟨bytes, rest, hrem, rfl, ⟨rfl, hnil⟩ | ⟨hb, hroom⟩ | ⟨hb, hlen⟩⟩ := read.step_cases hs
  · obtain ⟨t, out, ht, hout, hfin, hnot, hincr⟩ := readWlSource_single read incr
    have hpart : part = stream := by simpa [hnil] using read.stream_eq
    rw [ht]
    refine .ended read.not_failed ?_ hnot ?_ ?_
    · rw [take_finished, List.contains_iff_mem.mpr hfin, Bool.or_true]
    · rw [take_values, read.values_eq, hout, List.map_nil, List.nil_append, List.flatten_singleton, hpart]
    · intro hi
      exact absurd hi (by simp [Session.take, hincr])
  · rw [readWlSource_part read hb (Nat.ne_of_lt hroom)]
    exact .single _ (read.more hrem hroom read.not_failed (List.append_nil _) rfl) incr undeleted
  · rw [readWlSource_incr read hb hlen incr]
    refine .reading [] [part ++ bytes] [] ?_ rfl rfl rfl (.inr (List.cons_ne_nil _ _)) ?_
    · refine read.full hrem hlen read.not_failed ?_ read.notifier rfl ?_
      · exact take_open read.open_ (by simp)
      · rw [TransferWltoX.startIncr, take_values]
        exact List.append_nil _
    · show s.undeleted + _ = 1
      rw [undeleted]
      rfl

/-- Reading in an incremental transfer, whose property is always set in between. -/
private theorem Phase.reading_read (read : Read stream s vals fulls part) (incr : s.transfer.incr = true)
    (isSet : s.transfer.propertyIsSet = true) (flush : s.transfer.flushPropertyOnDelete = true)
    (some_full : vals ≠ [] ∨ fulls ≠ []) (undeleted : s.undeleted = 1)
    (hstream : stream = [] ∨ ¬ incrChunkSize ∣ stream.length) {n : Nat}
    (hs : sessionStep s (.read n) = some s') : Phase stream s' := by
  obtain ⟨bytes, rest, hrem, rfl, ⟨rfl, hnil⟩ | ⟨hb, hroom⟩ | ⟨hb, hlen⟩⟩ := read.step_cases hs
  · have hpart := read.part_ne_nil hnil some_full hstream
    have hne : ∀ l : List (List UInt8), (∀ b ∈ l, b.length = incrChunkSize) → ∀ b ∈ l, b ≠ [] := by
      intro l hl b hb
      exact List.ne_nil_of_length_pos (hl b hb ▸ incrChunkSize_pos)
    rw [readWlSource_last read incr isSet]
    refine .draining vals (fulls ++ [part]) read.not_failed ?_ rfl incr rfl rfl (hne vals read.vals_full)
      ?_ ?_ ?_ undeleted
    · exact take_open read.open_ (by simp)
    · intro b hb
      rcases List.mem_append.mp hb with hb | hb
      · exact hne fulls read.fulls_full b hb
      · rw [List.mem_singleton.mp hb]
        exact hpart
    · rw [← read.stream_eq, hnil]
      simp only [List.flatten_append, List.flatten_singleton, List.append_assoc, List.append_nil]
    · rw [take_values]
      exact (List.append_nil _).trans read.values_eq
  · rw [readWlSource_part read hb (Nat.ne_of_lt hroom)]
    exact .reading vals fulls _ (read.more hrem hroom read.not_failed (List.append_nil _) rfl) incr isSet
      flush some_full undeleted
  · rw [readWlSource_queue read hb hlen incr isSet]
    refine .reading vals (fulls ++ [part ++ bytes]) [] ?_ incr isSet rfl (.inr (by simp)) undeleted
    refine read.full hrem hlen read.not_failed ?_ read.notifier rfl ?_
    · exact take_open read.open_ (by simp)
    · rw [take_values]
      exact List.append_nil _

/-- The handler runs on every delete of a property that the requestor got. -/
private theorem delete_eq (hf : s.failed = false) (hopen : s.finished = false) (hu : s.undeleted = 1)
    (hs : sessionStep s .delete = some s') :
    s' = ({ s with undeleted := 0 } : Session).take s.transfer.handlePropertyDelete := by
  simp only [sessionStep, hopen, hu, TransferWltoX.handlePropertyNotify] at hs
  simpa [hf] using hs.symm

private theorem handlePropertyDelete_flush (incr : s.transfer.incr = true)
    (flush : s.transfer.flushPropertyOnDelete = true) {c : Chunk} {rest : List Chunk}
    (hc : s.transfer.chunks = c :: rest) :
    s.transfer.handlePropertyDelete =
      some ({ s.transfer with chunks := rest, propertyIsSet := true }, [.changeProperty c.value]) := by
  simp [TransferWltoX.handlePropertyDelete, incr, flush, hc, TransferWltoX.flushSourceData]

private theorem Chunk.value_eq {b : List UInt8} {n : Nat} (h : b.length = n) :
    Chunk.value ⟨b, n⟩ = b.map some := by
  simp [Chunk.value, h]

private theorem Phase.reading_delete (read : Read stream s vals fulls part) (incr : s.transfer.incr = true)
    (flush : s.transfer.flushPropertyOnDelete = true) (undeleted : s.undeleted = 1) (hok : timely s .delete)
    (hs : sessionStep s .delete = some s') : Phase stream s' := by
  have hfull := hok incr read.notifier
  cases fulls with
  | nil =>
    -- Then the first chunk would be the one that is being filled.
    rw [read.chunks, filling] at hfull
    have hlt := Nat.ne_of_lt read.part_lt
    split at hfull <;> simp [TransferWltoX.isFull, hlt] at hfull
  | cons b fulls =>
    have hb := read.fulls_full b List.mem_cons_self
    have hc : s.transfer.chunks = ⟨b, incrChunkSize⟩ :: filling fulls part := by
      rw [read.chunks]
      rfl
    have hread : Read stream s' (vals ++ [b]) fulls part ∧ s'.undeleted = 1 ∧
        s'.transfer = { s.transfer with chunks := filling fulls part, propertyIsSet := true } := by
      obtain rfl := delete_eq read.not_failed read.open_ undeleted hs
      rw [handlePropertyDelete_flush incr flush hc, Chunk.value_eq hb]
      refine ⟨⟨read.not_failed, ?_, read.notifier, rfl, ?_, ?_, read.part_lt, ?_, ?_⟩, rfl, rfl⟩
      · exact take_open read.open_ (by simp)
      · intro x hx
        rcases List.mem_append.mp hx with hx | hx
        · exact read.vals_full x hx
        · rw [List.mem_singleton.mp hx, hb]
      · exact fun x hx => read.fulls_full x (List.mem_cons_of_mem b hx)
      · rw [← read.stream_eq]
        simp only [List.flatten_append, List.flatten_cons, List.append_assoc]
        rfl
      · rw [take_values, List.map_append, ← read.values_eq]
        rfl
    obtain ⟨hread, hu, ht⟩ := hread
    exact .reading _ fulls part hread (by rw [ht]; exact incr) (by rw [ht]) (by rw [ht]; exact flush)
      (.inl (by simp)) hu

private theorem Phase.draining_delete {rest : List (List UInt8)} (not_failed : s.failed = false)
    (open_ : s.finished = false) (notifier : s.transfer.socketNotifier = false) (incr : s.transfer.incr = true)
    (flush : s.transfer.flushPropertyOnDelete = true)
    (chunks : s.transfer.chunks = rest.map fun b => ⟨b, b.length⟩) (vals_ne : ∀ b ∈ vals, b ≠ [])
    (rest_ne : ∀ b ∈ rest, b ≠ []) (stream_eq : vals.flatten ++ rest.flatten = stream)
    (values_eq : values s.outputs = vals.map (List.map some)) (undeleted : s.undeleted = 1)
    (hs : sessionStep s .delete = some s') : Phase stream s' := by
  obtain rfl := delete_eq not_failed open_ undeleted hs
  cases rest with
  | nil =>
    have hv : values s.outputs ++ [[]] = vals.map (List.map some) ++ [[]] := by rw [values_eq]
    have hcount : (vals.map (List.map some)).count ([] : List (Option UInt8)) = 0 := by
      refine List.count_eq_zero.mpr fun hmem => ?_
      obtain ⟨b, hb, he⟩ := List.mem_map.mp hmem
      exact vals_ne b hb (List.map_eq_nil_iff.mp he)
    have hend : ∃ t out, s.transfer.handlePropertyDelete = some (t, out) ∧ values out = [[]] ∧
        .finished ∈ out ∧ t.socketNotifier = false := by
      refine ⟨_, _, by simp [TransferWltoX.handlePropertyDelete, incr, flush, chunks, notifier]; exact ⟨rfl, rfl⟩,
        ?_, by simp [TransferWltoX.endTransfer], rfl⟩
      cases s.transfer.fd <;> simp [values, TransferWltoX.endTransfer]
    obtain ⟨t, out, ht, hout, hfin, hnot⟩ := hend
    rw [ht]
    refine .ended not_failed ?_ hnot ?_ fun _ => ?_
    · rw [take_finished, List.contains_iff_mem.mpr hfin, Bool.or_true]
    · rw [take_values, hout, hv, List.flatten_append, flatten_map_map_some, ← stream_eq]
      simp
    · rw [take_values, hout, hv]
      exact ⟨List.getLast?_concat, by rw [List.count_append, hcount]; rfl⟩
  | cons b rest =>
    rw [handlePropertyDelete_flush incr flush chunks, Chunk.value_eq rfl]
    refine .draining (vals ++ [b]) rest not_failed ?_ notifier incr flush rfl ?_ ?_ ?_ ?_ rfl
    · exact take_open open_ (by simp)
    · intro x hx
      rcases List.mem_append.mp hx with hx | hx
      · exact vals_ne x hx
      · rw [List.mem_singleton.mp hx]
        exact rest_ne b List.mem_cons_self
    · exact fun x hx => rest_ne x (List.mem_cons_of_mem b hx)
    · rw [← stream_eq]
      simp [List.flatten_append]
    · rw [take_values, List.map_append, ← values_eq]
      rfl

theorem Phase.step (h : Phase stream s) (hstream : stream = [] ∨ ¬ incrChunkSize ∣ stream.length)
    {e : SessionEvent} (hok : timely s e) (hs : sessionStep s e = some s') : Phase stream s' := by
  -- A transfer that no longer watches the pipe does not read.
  have hclosed : ∀ {n}, s.transfer.socketNotifier = false → sessionStep s (.read n) = some s' → False := by
    intro n hn hs
    simp [sessionStep, hn] at hs
  cases h with
  | single part read incr undeleted =>
    cases e with
    | read n => exact Phase.single_read read incr undeleted hs
    | delete => simp [sessionStep, undeleted] at hs
  | reading vals fulls part read incr isSet flush some_full undeleted =>
    cases e with
    | read n => exact Phase.reading_read read incr isSet flush some_full undeleted hstream hs
    | delete => exact Phase.reading_delete read incr flush undeleted hok hs
  | draining vals rest not_failed open_ notifier incr flush chunks vals_ne rest_ne stream_eq values_eq undeleted =>
    cases e with
    | read n => exact (hclosed notifier hs).elim
    | delete =>
      exact Phase.draining_delete not_failed open_ notifier incr flush chunks vals_ne rest_ne stream_eq values_eq
        undeleted hs
  | ended not_failed finished notifier all closed =>
    cases e with
    | read n => exact (hclosed notifier hs).elim
    | delete =>
      simp only [sessionStep, finished, if_true] at hs
      split at hs
      · obtain rfl := Option.some.inj hs
        exact .ended not_failed finished notifier all closed
      · cases hs

theorem Phase.start (request : SelectionRequest) (stream : List UInt8) : Phase stream (Session.start request stream) :=
  .single [] ⟨rfl, rfl, rfl, rfl, by simp, by simp, incrChunkSize_pos, rfl, rfl⟩ rfl rfl

/-- A stream that does not end on a full chunk arrives as it is, whatever the order of reads and deletes,
as long as no delete during the reading comes before the first chunk is full. -/
theorem delivers_of_reachable (request : SelectionRequest)
    (hstream : stream = [] ∨ ¬ incrChunkSize ∣ stream.length)
    (h : Lib.Reachable sessionStep timely (Session.start request stream) s) : Delivers stream s :=
  (h.invariant (Phase stream) (.start request stream) fun _ _ _ hp hok hs => hp.step hstream hok hs).delivers

section overlong
variable (request : SelectionRequest) {full : List UInt8} (b : UInt8)

private def announced : List Output :=
  [.selectPropertyChange true, .announceIncr (1024 + incrChunkSize), .selectionNotify true]

private theorem read_chunk {request : SelectionRequest} (h : full.length = incrChunkSize) (rest : List UInt8) :
    sessionStep (.start request (full ++ rest)) (.read incrChunkSize) =
      some ⟨⟨request, true, true, true, [⟨full, incrChunkSize⟩], true, true⟩, rest, announced, 1, false⟩ := by
  have hne : full ≠ [] := List.ne_nil_of_length_pos (h ▸ incrChunkSize_pos)
  have hpos := Nat.ne_of_gt incrChunkSize_pos
  have ht : (full ++ rest).take incrChunkSize = full := List.take_left' h
  have hd : (full ++ rest).drop incrChunkSize = rest := List.drop_left' h
  simp [sessionStep, Session.start, TransferWltoX.start, TransferWltoX.avail, TransferWltoX.appendChunk, ht, hd, hpos,
    h, TransferWltoX.readWlSource, List.modifyLast, List.modifyLast.go, hne, TransferWltoX.isFull, Session.take,
    TransferWltoX.startIncr, announced]
  rfl

private theorem delete_flush {request : SelectionRequest} {c : Chunk} {chunks : List Chunk} {notifier : Bool} {rest : List UInt8}
    {out : List Output} (hout : .finished ∉ out) :
    sessionStep ⟨⟨request, true, notifier, true, c :: chunks, true, true⟩, rest, out, 1, false⟩ .delete =
      some ⟨⟨request, true, notifier, true, chunks, true, true⟩, rest, out ++ [.changeProperty c.value], 1, false⟩ := by
  simp [sessionStep, TransferWltoX.handlePropertyNotify, TransferWltoX.handlePropertyDelete, Session.finished, hout,
    TransferWltoX.flushSourceData, Session.take, isPropertySet]

private theorem delete_end {request : SelectionRequest} {rest : List UInt8} {out : List Output}
    (hout : .finished ∉ out) :
    sessionStep ⟨⟨request, true, false, true, [], true, true⟩, rest, out, 1, false⟩ .delete =
      some ⟨⟨request, false, false, true, [], false, false⟩, rest,
        out ++ [.selectPropertyChange false, .changeProperty [], .closeFd, .finished], 1, false⟩ := by
  simp [sessionStep, TransferWltoX.handlePropertyNotify, TransferWltoX.handlePropertyDelete, Session.finished, hout,
    TransferWltoX.endTransfer, Session.take]
  rfl

/-- All of it is read before the first chunk is asked for. -/
private theorem reachable_finished (h : full.length = incrChunkSize) :
    ∃ s, Lib.Reachable sessionStep timely (.start request (full ++ [b])) s ∧ s.finished ∧ s.transfer.incr := by
  have hone : 1 ≠ incrChunkSize := by decide
  have h₁ : Lib.Reachable sessionStep timely (.start request (full ++ [b]))
      ⟨⟨request, true, true, true, [⟨full, incrChunkSize⟩], true, true⟩, [b], announced, 1, false⟩ :=
    .step (.read incrChunkSize) .init trivial (read_chunk h [b])
  have h₂ : Lib.Reachable sessionStep timely (.start request (full ++ [b]))
      ⟨⟨request, true, true, true, [⟨full, incrChunkSize⟩, ⟨[b], incrChunkSize⟩], true, true⟩, [],
        announced, 1, false⟩ := by
    refine .step (.read 1) h₁ trivial ?_
    simp [sessionStep, TransferWltoX.avail, TransferWltoX.appendChunk, h, TransferWltoX.readWlSource,
      List.modifyLast, List.modifyLast.go, TransferWltoX.isFull, Session.take, hone]
    exact Nat.ne_of_gt incrChunkSize_pos
  have h₃ : Lib.Reachable sessionStep timely (.start request (full ++ [b]))
      ⟨⟨request, true, true, true, [⟨[b], incrChunkSize⟩], true, true⟩, [],
        announced ++ [.changeProperty (Chunk.value ⟨full, incrChunkSize⟩)], 1, false⟩ := by
    refine .step .delete h₂ ?_ (delete_flush (by simp [announced]))
    exact fun _ _ => by simpa [TransferWltoX.isFull] using h
  have h₄ : Lib.Reachable sessionStep timely (.start request (full ++ [b]))
      ⟨⟨request, true, false, true, [⟨[b], 1⟩], true, true⟩, [],
        announced ++ [.changeProperty (Chunk.value ⟨full, incrChunkSize⟩)], 1, false⟩ := by
    refine .step (.read 0) h₃ trivial ?_
    simp [sessionStep, TransferWltoX.avail, TransferWltoX.appendChunk, hone, TransferWltoX.readWlSource,
      List.modifyLast, List.modifyLast.go, TransferWltoX.isFull, Session.take]
  have h₅ := Lib.Reachable.step SessionEvent.delete h₄ (fun _ hn => by cases hn)
    (delete_flush (by simp [announced]))
  refine ⟨_, .step .delete h₅ (fun _ hn => by cases hn) (delete_end (by simp [announced])), ?_, rfl⟩
  simp [Session.finished]

/-- The requestor deletes the first chunk before more was read. -/
private theorem reachable_failed (h : full.length = incrChunkSize) :
    ∃ s, Lib.Reachable sessionStep Lib.anyStep (.start request (full ++ [b])) s ∧ s.failed := by
  have hrun : Lib.execute sessionStep (.start request (full ++ [b])) [.read incrChunkSize, .delete, .delete] =
      some ⟨⟨request, true, true, true, [], true, true⟩, [b],
        announced ++ [.changeProperty (Chunk.value ⟨full, incrChunkSize⟩)], 0, true⟩ := by
    simp only [Lib.execute, read_chunk h, Option.bind_some]
    rw [delete_flush (by simp [announced])]
    simp [announced, sessionStep, Session.finished, TransferWltoX.handlePropertyNotify,
      TransferWltoX.handlePropertyDelete, TransferWltoX.flushSourceData, Session.take]
  exact ⟨_, Lib.Reachable.init.execute _ hrun, rfl⟩

end overlong

/-- One byte more than a chunk. -/
def overlong : List UInt8 := List.replicate incrChunkSize 0 ++ [1]

theorem overlong_delivered :
    ∃ s, Lib.Reachable sessionStep timely (.start ⟨1, 2, 3⟩ overlong) s ∧ s.finished ∧ s.transfer.incr ∧
      Delivers overlong s := by
  have hdvd : ¬ incrChunkSize ∣ overlong.length := by
    rw [overlong, List.length_append, List.length_replicate, Nat.dvd_add_right (Nat.dvd_refl _)]
    decide
  obtain ⟨s, hs, hfin, hincr⟩ := reachable_finished ⟨1, 2, 3⟩ 1 (List.length_replicate (a := 0))
  exact ⟨s, hs, hfin, hincr, delivers_of_reachable ⟨1, 2, 3⟩ (.inr hdvd) hs⟩

/-- The next flush has no chunk to take. -/
theorem overlong_fails :
    ∃ s, Lib.Reachable sessionStep Lib.anyStep (.start ⟨1, 2, 3⟩ overlong) s ∧ ¬ Delivers overlong s := by
  obtain ⟨s, hs, hfailed⟩ := reachable_failed ⟨1, 2, 3⟩ 1 (List.length_replicate (a := 0))
  refine ⟨s, hs, fun h => ?_⟩
  rw [h.not_failed] at hfailed
  cases hfailed

end KWinFT.Xwl
