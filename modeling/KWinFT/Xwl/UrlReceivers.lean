import Mathlib.Data.List.Basic

/-! Receivers of addresses with titles from X clients: every second line of the data is dropped. The loop may not end,
and a text without a terminator is read past its buffer. -/
namespace KWinFT.Xwl

def lineBreak : UInt8 := 10

inductive Outcome
  | received (data : List UInt8)
  /-- Memory outside of the buffer is read. -/
  | outside
deriving Repr, DecidableEq

/-- The variables of the loop. -/
structure LineScan where
  start : Nat
  remLine : Bool
  data : List UInt8
deriving Repr, DecidableEq

/-- One round while `start < length`. The next start is the position of the line break in the remaining part. -/
def LineScan.round (length : Nat) (bytes : List UInt8) (s : LineScan) : LineScan ⊕ Outcome :=
  if s.start < length then
    if s.start ≤ bytes.length then
      let part := bytes.drop s.start
      let linebreak := part.idxOf lineBreak
      if linebreak = part.length then .inr (.received (if s.remLine then s.data else s.data ++ part))
      else .inl
        { start := linebreak + 1
          remLine := !s.remLine
          data := s.data ++ if s.remLine then [lineBreak] else part.take linebreak }
    else .inr .outside
  else .inr (.received s.data)

/-- The loop, for as many rounds as there is fuel. -/
def LineScan.run (length : Nat) (bytes : List UInt8) : Nat → LineScan → Option Outcome
  | 0, _ => none
  | fuel + 1, s =>
    match s.round length bytes with
    | .inl s => s.run length bytes fuel
    | .inr outcome => some outcome

/-- Data without line breaks is taken as it is. -/
def removeEverySecondLine (length : Nat) (bytes : List UInt8) (fuel : Nat) : Option Outcome :=
  if lineBreak ∈ bytes then LineScan.run length bytes fuel ⟨0, false, []⟩ else some (.received bytes)

def NetscapeUrlReceiver.setData (value : List UInt8) : Nat → Option Outcome :=
  removeEverySecondLine value.length value

/-- A buffer as 16-bit units in the byte order of the host. -/
def units : List UInt8 → List Nat
  | low :: high :: value => (low.toNat + 256 * high.toNat) :: units value
  | _ => []

/-- `QString::fromUtf16` after the end of the text was found: a byte order mark is taken off and followed. -/
def fromUtf16 : List Nat → List Nat
  | 0xFEFF :: us => us
  | 0xFFFE :: us => us.map fun u => u % 256 * 256 + u / 256
  | us => us

/-- A question mark stands for characters beyond Latin-1. -/
def toLatin1 (us : List Nat) : List UInt8 := us.map fun u => if u < 256 then UInt8.ofNat u else 63

/-- The text of a buffer up to a unit of zero. -/
def decodedText (value : List UInt8) : List UInt8 := toLatin1 (fromUtf16 ((units value).takeWhile (· ≠ 0)))

/-- The end of the text is searched without regard to the length of the buffer (a byte array of no bytes has its own
terminator), while the length of the buffer in bytes bounds the loop over the text. -/
def MozUrlReceiver.setData (value : List UInt8) (fuel : Nat) : Option Outcome :=
  if value = [] ∨ 0 ∈ units value then removeEverySecondLine value.length (decodedText value) fuel else some .outside

/-- The elements at positions 0, 2, 4 and so on. -/
def evenPositions {α : Type} : List α → List α
  | [] => []
  | [x] => [x]
  | x :: _ :: xs => x :: evenPositions xs

def evenLines (text : List UInt8) : List UInt8 :=
  [lineBreak].intercalate (evenPositions (text.splitOn lineBreak))

/-- The call returns, and keeps the even lines of a text with line breaks. -/
def KeepsEvenLines (setData : Nat → Option Outcome) (text : List UInt8) : Prop :=
  ∃ fuel data, setData fuel = some (.received data) ∧ (lineBreak ∈ text → data = evenLines text)

section scan
variable {length : Nat} {bytes : List UInt8}

/-- A line break is left that the scan has not passed. -/
private def Stuck (bytes : List UInt8) (s : LineScan) : Prop :=
  1 ≤ s.start ∧ ∃ p, s.start ≤ p ∧ bytes[p]? = some lineBreak

private theorem idxOf_drop_le {start p : Nat} (hp : bytes[p]? = some lineBreak) (hs : start ≤ p) :
    (bytes.drop start).idxOf lineBreak ≤ p - start ∧ (bytes.drop start).idxOf lineBreak < (bytes.drop start).length := by
  have hget : (bytes.drop start)[p - start]? = some lineBreak := by
    rw [List.getElem?_drop, Nat.add_sub_cancel' hs]
    exact hp
  refine ⟨?_, List.idxOf_lt_length_iff.mpr (List.mem_of_getElem? hget)⟩
  obtain ⟨hlt, he⟩ := List.getElem?_eq_some_iff.mp hget
  apply Nat.le_of_not_lt
  intro h
  have hne := List.not_of_lt_findIdx h
  rw [he] at hne
  simp at hne

/-- The start never gets past that line break: it is counted from the last start. -/
private theorem Stuck.round (hlen : bytes.length ≤ length) {s : LineScan} (h : Stuck bytes s) :
    ∃ s', s.round length bytes = .inl s' ∧ Stuck bytes s' := by
  obtain ⟨hpos, p, hs, hp⟩ := h
  have hplt : p < bytes.length := (List.getElem?_eq_some_iff.mp hp).1
  obtain ⟨hle, hlt⟩ := idxOf_drop_le hp hs
  unfold LineScan.round
  rw [if_pos (by omega), if_pos (by omega)]
  dsimp only
  rw [if_neg (by omega)]
  exact ⟨_, rfl, by dsimp only; omega, p, by dsimp only; omega, hp⟩

private theorem Stuck.run_eq_none (hlen : bytes.length ≤ length) {s : LineScan} (h : Stuck bytes s) (fuel : Nat) :
    s.run length bytes fuel = none := by
  induction fuel generalizing s with
  | zero => rfl
  | succ fuel ih =>
    obtain ⟨s', hround, h'⟩ := h.round hlen
    rw [LineScan.run, hround]
    exact ih h'

private theorem drop_append_cons (line : List UInt8) (rest : List UInt8) :
    (line ++ lineBreak :: rest).drop (line.length + 1) = rest := by
  rw [← List.drop_drop, List.drop_left, List.drop_one, List.tail_cons]

/-- The first round takes the first line. -/
private theorem round_first {line rest : List UInt8} (hline : lineBreak ∉ line)
    (hlen : (line ++ lineBreak :: rest).length ≤ length) :
    LineScan.round length (line ++ lineBreak :: rest) ⟨0, false, []⟩ = .inl ⟨line.length + 1, true, line⟩ := by
  have hidx : (line ++ lineBreak :: rest).idxOf lineBreak = line.length := by
    rw [List.idxOf_append_of_notMem hline, List.idxOf_cons_self, Nat.add_zero]
  rw [List.length_append, List.length_cons] at hlen
  unfold LineScan.round
  rw [if_pos (by dsimp only; omega), if_pos (by dsimp only; omega)]
  dsimp only
  rw [List.drop_zero, hidx, if_neg (by simp)]
  simp

private theorem round_second {line rest : List UInt8} (hrest : lineBreak ∉ rest) :
    LineScan.round length (line ++ lineBreak :: rest) ⟨line.length + 1, true, line⟩ = .inr (.received line) := by
  unfold LineScan.round
  dsimp only
  rw [drop_append_cons, List.idxOf_of_notMem hrest]
  split
  · rw [if_pos (by simp), if_pos rfl, if_pos rfl]
  · rfl

/-- The second round finds no other line break, or the loop is never left. -/
private theorem run_of_mem (hlen : bytes.length ≤ length) (hmem : lineBreak ∈ bytes) :
    (bytes.count lineBreak ≤ 1 → LineScan.run length bytes 2 ⟨0, false, []⟩ = some (.received (evenLines bytes))) ∧
    (1 < bytes.count lineBreak → ∀ fuel, LineScan.run length bytes fuel ⟨0, false, []⟩ = none) := by
  obtain ⟨line, rest, rfl, hline⟩ := List.eq_append_cons_of_mem hmem
  have hcount : (line ++ lineBreak :: rest).count lineBreak = rest.count lineBreak + 1 := by
    rw [List.count_append, List.count_eq_zero_of_not_mem hline, List.count_cons_self, Nat.zero_add]
  rw [hcount]
  constructor
  · intro hone
    have hrest : lineBreak ∉ rest := List.count_eq_zero.mp (by omega)
    have hlines : evenLines (line ++ lineBreak :: rest) = line := by
      have hsplit : (line ++ lineBreak :: rest).splitOn lineBreak = [line, rest] := by
        rw [List.splitOn_eq_splitOnP, List.splitOnP_append_cons _ _ (by simp), List.splitOnP_eq_singleton,
          List.splitOnP_eq_singleton]
        · rfl
        · exact fun x hx => beq_false_of_ne fun he => hrest (he ▸ hx)
        · exact fun x hx => beq_false_of_ne fun he => hline (he ▸ hx)
      rw [evenLines, hsplit]
      simp [evenPositions]
    rw [LineScan.run, round_first hline hlen, hlines]
    dsimp only
    rw [LineScan.run, round_second hrest]
  · intro hmore fuel
    cases fuel with
    | zero => rfl
    | succ fuel =>
      rw [LineScan.run, round_first hline hlen]
      refine Stuck.run_eq_none hlen ⟨Nat.le_add_left 1 _, ?_⟩ fuel
      obtain ⟨k, hk⟩ := List.mem_iff_getElem?.mp (List.count_pos_iff.mp (by omega : 0 < rest.count lineBreak))
      refine ⟨line.length + 1 + k, Nat.le_add_right _ _, ?_⟩
      rw [← List.getElem?_drop, drop_append_cons]
      exact hk

/-- Up to one line break the even lines are kept, and the loop does not end with more. -/
private theorem keepsEvenLines_iff (hlen : bytes.length ≤ length) :
    KeepsEvenLines (removeEverySecondLine length bytes) bytes ↔ bytes.count lineBreak ≤ 1 := by
  unfold KeepsEvenLines removeEverySecondLine
  by_cases hmem : lineBreak ∈ bytes
  · obtain ⟨hone, hmore⟩ := run_of_mem hlen hmem
    simp only [if_pos hmem]
    constructor
    · rintro ⟨fuel, data, hrun, -⟩
      apply Nat.le_of_not_lt
      intro h
      rw [hmore h fuel] at hrun
      cases hrun
    · exact fun h => ⟨2, _, hone h, fun _ => rfl⟩
  · simp only [if_neg hmem]
    have hcount : bytes.count lineBreak ≤ 1 := by rw [List.count_eq_zero.mpr hmem]; exact Nat.zero_le 1
    exact ⟨fun _ => hcount, fun _ => ⟨0, bytes, rfl, fun h => absurd h hmem⟩⟩

end scan

private theorem length_units_le (value : List UInt8) : (units value).length ≤ value.length := by
  fun_induction units value with
  | case1 low high value ih =>
    simp only [List.length_cons]
    omega
  | case2 => exact Nat.zero_le _

private theorem length_fromUtf16_le (us : List Nat) : (fromUtf16 us).length ≤ us.length := by
  unfold fromUtf16
  split <;> simp

private theorem length_decodedText_le (value : List UInt8) : (decodedText value).length ≤ value.length := by
  rw [decodedText, toLatin1, List.length_map]
  calc (fromUtf16 ((units value).takeWhile (· ≠ 0))).length
    _ ≤ ((units value).takeWhile (· ≠ 0)).length := length_fromUtf16_le _
    _ ≤ (units value).length := (List.takeWhile_prefix _).length_le
    _ ≤ value.length := length_units_le value

/-- Both receivers keep the even lines of texts with at most one line break only; the text of the second one needs its
terminator within the buffer. -/
theorem receivers_keepEvenLines_iff (value : List UInt8) :
    (KeepsEvenLines (NetscapeUrlReceiver.setData value) value ↔ value.count lineBreak ≤ 1) ∧
    (KeepsEvenLines (MozUrlReceiver.setData value) (decodedText value) ↔
      (value = [] ∨ 0 ∈ units value) ∧ (decodedText value).count lineBreak ≤ 1) := by
  refine ⟨keepsEvenLines_iff (Nat.le_refl _), ?_⟩
  by_cases hzero : value = [] ∨ 0 ∈ units value
  · have hset : MozUrlReceiver.setData value = removeEverySecondLine value.length (decodedText value) := by
      funext fuel
      exact if_pos hzero
    rw [hset, keepsEvenLines_iff (length_decodedText_le value)]
    exact ⟨fun h => ⟨hzero, h⟩, And.right⟩
  · refine ⟨fun ⟨fuel, data, hrun, _⟩ => ?_, fun h => absurd h.1 hzero⟩
    rw [MozUrlReceiver.setData, if_neg hzero] at hrun
    cases hrun

/-- Two lines that end in line breaks: the scan returns to the second line forever. A text of two lines in UTF-16 without
a terminator is read past its end. -/
theorem receivers_miss_lines :
    ¬ KeepsEvenLines (NetscapeUrlReceiver.setData [97, 10, 98, 10]) [97, 10, 98, 10] ∧
    MozUrlReceiver.setData [97, 0, 10, 0, 98, 0] 2 = some .outside ∧
    ¬ KeepsEvenLines (MozUrlReceiver.setData [97, 0, 10, 0, 98, 0]) (decodedText [97, 0, 10, 0, 98, 0]) := by
  refine ⟨fun h => absurd ((keepsEvenLines_iff (Nat.le_refl _)).mp h) (by decide), by decide, ?_⟩
  rintro ⟨fuel, data, hrun, -⟩
  cases hrun

end KWinFT.Xwl
