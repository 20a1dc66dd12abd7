import KWinFT.RuleBook.Text
import Mathlib.Data.List.TakeWhile

/-! Match strings are kept as lower case Latin-1 and go back to the settings as if they were UTF-8. What comes out is
the string again exactly when it is ASCII without a zero byte. -/
namespace KWinFT.RuleBook

/-- Lower case of a Latin-1 character. -/
def lowerLatin1 (n : Nat) : Nat := if (65 ≤ n ∧ n ≤ 90) ∨ (0xC0 ≤ n ∧ n ≤ 0xDE ∧ n ≠ 0xD7) then n + 32 else n

/-- One character of `QString::toLower`; beyond Latin-1 the mapping is given. -/
def lowerChar (lower : Char → QString) (c : Char) : QString :=
  if c.toNat < 0x100 then [Char.ofNat (lowerLatin1 c.toNat)] else lower c

/-- Unicode's lower case beyond Latin-1. It takes no more room than the character, is lower case itself, starts with
a character beyond Latin-1 but for five of them, and leaves the replacement character alone. -/
structure CaseMapping where
  lower : Char → QString
  short : ∀ c : Char, 0x100 ≤ c.toNat → (toLatin1 (lower c)).length ≤ c.utf8Size
  stable : ∀ c : Char, 0x100 ≤ c.toNat → ∀ d ∈ lower c, lowerChar lower d = [d]
  first : ∀ c : Char, 0x100 ≤ c.toNat → ∃ d ds, lower c = d :: ds ∧ (0x100 ≤ d.toNat ∨
    (c.toNat, d.toNat) ∈ [(0x130, 0x69), (0x178, 0xFF), (0x1E9E, 0xDF), (0x212A, 0x6B), (0x212B, 0xE5)])
  replacement : lower replacementCharacter = [replacementCharacter]

namespace CaseMapping
variable (m : CaseMapping)

def toLower (s : QString) : QString := s.flatMap (lowerChar m.lower)

/-- `data.toLower().toLatin1()`. -/
def readBytes (s : QString) : QByteArray := toLatin1 (m.toLower s)

/-- What one character leaves. -/
def bytesOf (c : Char) : QByteArray := toLatin1 (lowerChar m.lower c)

theorem readBytes_cons (c : Char) (s : QString) : m.readBytes (c :: s) = m.bytesOf c ++ m.readBytes s := by
  simp only [readBytes, toLower, bytesOf, toLatin1, List.flatMap_cons, List.flatMap_append]

end CaseMapping

/-! Numbers of characters and bytes. -/

private theorem toNat_ofNat {n : Nat} (h : n.isValidChar) : (Char.ofNat n).toNat = n := by
  rw [Char.ofNat, dif_pos h]
  rfl

private theorem toNat_uint8 {n : Nat} (h : n < 0x100) : (UInt8.ofNat n).toNat = n := Nat.mod_eq_of_lt h

theorem utf8Size_eq (c : Char) : c.utf8Size =
    if c.toNat ≤ 0x7F then 1 else if c.toNat ≤ 0x7FF then 2 else if c.toNat ≤ 0xFFFF then 3 else 4 := rfl

private theorem lowerLatin1_lt {n : Nat} (h : n < 0x100) : lowerLatin1 n < 0x100 := by
  unfold lowerLatin1
  split <;> omega

private theorem latin1_of_lt {c : Char} (h : c.toNat < 0x100) : latin1 c = [UInt8.ofNat c.toNat] := if_pos h

/-- A character beyond Latin-1 leaves question marks. -/
private theorem latin1_of_le {c : Char} (h : 0x100 ≤ c.toNat) : ∃ xs, latin1 c = 63 :: xs := by
  unfold latin1
  rw [if_neg (Nat.not_lt_of_le h)]
  split
  · exact ⟨[], rfl⟩
  · exact ⟨[63], rfl⟩

namespace CaseMapping
variable (m : CaseMapping)

theorem bytesOf_of_lt {c : Char} (h : c.toNat < 0x100) : m.bytesOf c = [UInt8.ofNat (lowerLatin1 c.toNat)] := by
  have hl := lowerLatin1_lt h
  have hv : (Char.ofNat (lowerLatin1 c.toNat)).toNat = lowerLatin1 c.toNat := toNat_ofNat (.inl (by omega))
  rw [bytesOf, lowerChar, if_pos h, toLatin1, List.flatMap_singleton, latin1_of_lt (by rwa [hv]), hv]

theorem bytesOf_of_le {c : Char} (h : 0x100 ≤ c.toNat) : m.bytesOf c = toLatin1 (m.lower c) := by
  rw [bytesOf, lowerChar, if_neg (Nat.not_lt_of_le h)]

theorem bytesOf_replacement : m.bytesOf replacementCharacter = [63] := by
  rw [m.bytesOf_of_le (by decide), m.replacement]
  decide

end CaseMapping

/-! One character of the decoder. -/

theorem nextChar_of_lt {b : UInt8} (h : b.toNat < 0x80) (bs : QByteArray) :
    nextChar b bs = some (Char.ofNat b.toNat, 0) := by
  have hv : b.toNat.isValidChar := .inl (by omega)
  simp [nextChar, leadByte, h, hv]

/-- A character that a byte beyond ASCII starts: its size, and the bits it has from that byte. -/
theorem nextChar_spec {b : UInt8} {bs : QByteArray} {c : Char} {n : Nat} (hb : 0x80 ≤ b.toNat)
    (h : nextChar b bs = some (c, n)) : n ≤ bs.length ∧ n + 1 = c.utf8Size ∧ 0x80 ≤ c.toNat ∧
      ((0xC2 ≤ b.toNat ∧ b.toNat < 0xE0 ∧ c.toNat / 64 = b.toNat % 32) ∨
        (0x800 ≤ c.toNat ∧ 0xE0 ≤ b.toNat ∧ b.toNat < 0xF0 ∧ c.toNat / 4096 = b.toNat % 16) ∨
        (0x10000 ≤ c.toNat ∧ b.toNat < 0xF5)) := by
  unfold nextChar at h
  split at h
  · cases h
  next n' least bits hl =>
  dsimp only at h
  split at h
  swap
  · cases h
  next hc =>
  obtain ⟨hlen, _, hleast, hvalid⟩ := hc
  simp only [Option.some.injEq, Prod.mk.injEq] at h
  obtain ⟨rfl, rfl⟩ := h
  rw [List.length_take] at hlen
  rw [utf8Size_eq, toNat_ofNat hvalid]
  generalize huc : (bs.take n').foldl (fun uc b => uc * 64 + b.toNat % 64) bits = uc at hleast hvalid ⊢
  refine ⟨by omega, ?_⟩
  -- One, two or three bytes follow; each number fixes the bytes taken.
  unfold leadByte at hl
  split_ifs at hl <;> simp only [Option.some.injEq, Prod.mk.injEq] at hl <;> obtain ⟨rfl, rfl, rfl⟩ := hl
  · omega
  · obtain ⟨x, rest, rfl⟩ : ∃ x rest, bs = x :: rest := List.exists_cons_of_length_pos (by omega)
    simp only [List.take_succ_cons, List.take_zero, List.foldl_cons, List.foldl_nil] at huc
    refine ⟨?_, by omega, by omega⟩
    rw [if_neg (by omega), if_pos (by omega)]
  · obtain ⟨x, y, rest, rfl⟩ : ∃ x y rest, bs = x :: y :: rest := by
      match bs, hlen with
      | x :: y :: rest, _ => exact ⟨x, y, rest, rfl⟩
    simp only [List.take_succ_cons, List.take_zero, List.foldl_cons, List.foldl_nil] at huc
    refine ⟨?_, by omega, by omega⟩
    rw [if_neg (by omega), if_neg (by omega), if_pos (by omega)]
  · refine ⟨?_, by omega, by omega⟩
    rw [if_neg (by omega), if_neg (by omega), if_neg (by omega)]

namespace CaseMapping
variable (m : CaseMapping) {b : UInt8} {bs : QByteArray} {c : Char} {n : Nat}

theorem bytesOf_length (h : nextChar b bs = some (c, n)) : n ≤ bs.length ∧ (m.bytesOf c).length ≤ n + 1 := by
  by_cases hb : b.toNat < 0x80
  · rw [nextChar_of_lt hb] at h
    cases h
    have hc : (Char.ofNat b.toNat).toNat = b.toNat := toNat_ofNat (.inl (by omega))
    rw [m.bytesOf_of_lt (by omega)]
    exact ⟨Nat.zero_le _, Nat.le_refl 1⟩
  · obtain ⟨hn, hsize, _⟩ := nextChar_spec (by omega) h
    refine ⟨hn, ?_⟩
    by_cases hc : c.toNat < 0x100
    · rw [m.bytesOf_of_lt hc]
      exact Nat.le_add_left 1 n
    · rw [m.bytesOf_of_le (by omega), hsize]
      exact m.short c (by omega)

/-- No character gives back the byte beyond ASCII that starts it. -/
theorem bytesOf_head_ne (hb : 0x80 ≤ b.toNat) (h : nextChar b bs = some (c, n)) :
    ∃ x xs, m.bytesOf c = x :: xs ∧ x ≠ b := by
  obtain ⟨_, _, hc, hlead⟩ := nextChar_spec hb h
  by_cases hlt : c.toNat < 0x100
  · refine ⟨_, _, m.bytesOf_of_lt hlt, fun hx => ?_⟩
    have hx := congrArg UInt8.toNat hx
    rw [toNat_uint8 (lowerLatin1_lt hlt), lowerLatin1] at hx
    split at hx <;> omega
  · obtain ⟨d, ds, hd, hfirst⟩ := m.first c (by omega)
    rw [m.bytesOf_of_le (by omega), hd, toLatin1, List.flatMap_cons]
    rcases hfirst with hbeyond | hfive
    · obtain ⟨xs, hxs⟩ := latin1_of_le hbeyond
      rw [hxs]
      refine ⟨63, _, rfl, fun hx => ?_⟩
      rw [← hx] at hb
      exact absurd hb (by decide)
    · have hd : d.toNat < 0x100 := by
        simp only [List.mem_cons, Prod.mk.injEq, List.not_mem_nil, or_false] at hfive
        omega
      rw [latin1_of_lt hd]
      refine ⟨_, _, rfl, fun hx => ?_⟩
      have hx := congrArg UInt8.toNat hx
      rw [toNat_uint8 hd] at hx
      simp only [List.mem_cons, Prod.mk.injEq, List.not_mem_nil, or_false] at hfive
      omega

/-- What is decoded takes no more room than the bytes it is decoded from. -/
theorem readBytes_decode_length (skip : Nat) (bs : QByteArray) :
    (m.readBytes (decodeUtf8 skip bs)).length ≤ bs.length - skip := by
  induction bs generalizing skip with
  | nil => cases skip <;> exact Nat.zero_le _
  | cons b bs ih =>
    cases skip with
    | succ skip =>
      rw [decodeUtf8, List.length_cons, Nat.add_sub_add_right]
      exact ih skip
    | zero =>
      rw [decodeUtf8]
      split
      · next c n h =>
        obtain ⟨hn, hlen⟩ := m.bytesOf_length h
        have hrest := ih n
        rw [m.readBytes_cons, List.length_append, List.length_cons]
        omega
      · have hrest := ih 0
        rw [m.readBytes_cons, m.bytesOf_replacement, List.length_append, List.length_cons]
        simp only [List.length_cons, List.length_nil]
        omega

/-- The first byte beyond ASCII is not given back. -/
theorem readBytes_decode_ne (bs : QByteArray) (h : ∃ b ∈ bs, 0x80 ≤ b.toNat) : m.readBytes (decodeUtf8 0 bs) ≠ bs := by
  induction bs with
  | nil =>
    obtain ⟨b, hb, _⟩ := h
    cases hb
  | cons b bs ih =>
    by_cases hb : b.toNat < 0x80
    · obtain ⟨x, hx, hbeyond⟩ := h
      have hx : x ∈ bs := (List.mem_cons.mp hx).resolve_left fun he => by rw [he] at hbeyond; omega
      have hc : (Char.ofNat b.toNat).toNat = b.toNat := toNat_ofNat (.inl (by omega))
      rw [decodeUtf8, nextChar_of_lt hb]
      simp only
      rw [m.readBytes_cons, m.bytesOf_of_lt (by omega), List.singleton_append]
      exact fun he => ih ⟨x, hx, hbeyond⟩ (List.cons.inj he).2
    · rw [decodeUtf8]
      split
      · next c n hn =>
        obtain ⟨x, xs, hx, hne⟩ := m.bytesOf_head_ne (by omega) hn
        rw [m.readBytes_cons, hx, List.cons_append]
        exact fun he => hne (List.cons.inj he).1
      · rw [m.readBytes_cons, m.bytesOf_replacement, List.singleton_append]
        intro he
        have he : b = 63 := (List.cons.inj he).1.symm
        rw [he] at hb
        exact hb (by decide)

theorem readBytes_decode_of_ascii (bs : QByteArray)
    (h : ∀ b ∈ bs, b.toNat < 0x80 ∧ lowerLatin1 b.toNat = b.toNat) : m.readBytes (decodeUtf8 0 bs) = bs := by
  induction bs with
  | nil => rfl
  | cons b bs ih =>
    obtain ⟨hb, hlow⟩ := h b List.mem_cons_self
    have hc : (Char.ofNat b.toNat).toNat = b.toNat := toNat_ofNat (.inl (by omega))
    rw [decodeUtf8, nextChar_of_lt hb]
    simp only
    rw [m.readBytes_cons, m.bytesOf_of_lt (by omega), hc, hlow, UInt8.ofNat_toNat, List.singleton_append,
      ih fun b hb => h b (List.mem_cons_of_mem _ hb)]

theorem lowerChar_stable (c d : Char) (hd : d ∈ lowerChar m.lower c) : lowerChar m.lower d = [d] := by
  unfold lowerChar at hd
  split at hd
  · next hc =>
    have hl := lowerLatin1_lt hc
    have hv : (Char.ofNat (lowerLatin1 c.toNat)).toNat = lowerLatin1 c.toNat := toNat_ofNat (.inl (by omega))
    have hid : lowerLatin1 (lowerLatin1 c.toNat) = lowerLatin1 c.toNat := by
      simp only [lowerLatin1]
      split_ifs <;> omega
    rw [List.mem_singleton.mp hd, lowerChar, hv, if_pos hl, hid]
  · next hc => exact m.stable c (by omega) d hd

/-- A match string is lower case. -/
theorem lowerLatin1_readBytes (s : QString) (b : UInt8) (hb : b ∈ m.readBytes s) :
    lowerLatin1 b.toNat = b.toNat := by
  obtain ⟨d, hd, hbd⟩ := List.mem_flatMap.mp hb
  obtain ⟨c, _, hdc⟩ := List.mem_flatMap.mp hd
  have hs := m.lowerChar_stable c d hdc
  by_cases hlat : d.toNat < 0x100
  · rw [latin1_of_lt hlat, List.mem_singleton] at hbd
    rw [lowerChar, if_pos hlat] at hs
    have hl := lowerLatin1_lt hlat
    have hn := congrArg Char.toNat (List.cons.inj hs).1
    rw [toNat_ofNat (.inl (by omega))] at hn
    rw [hbd, toNat_uint8 hlat, hn]
  · have hq : b = 63 := by
      rw [latin1, if_neg hlat] at hbd
      split at hbd <;> simpa using hbd
    rw [hq]
    decide

theorem readBytes_eq_nil (s : QString) : m.readBytes s = [] ↔ s = [] := by
  refine ⟨fun h => ?_, fun h => by rw [h]; rfl⟩
  cases s with
  | nil => rfl
  | cons c s =>
    rw [m.readBytes_cons, List.append_eq_nil_iff] at h
    by_cases hc : c.toNat < 0x100
    · rw [m.bytesOf_of_lt hc] at h
      cases h.1
    · obtain ⟨d, ds, hd, _⟩ := m.first c (by omega)
      have h := h.1
      rw [m.bytesOf_of_le (by omega), hd, toLatin1, List.flatMap_cons, List.append_eq_nil_iff, latin1] at h
      obtain ⟨h, _⟩ := h
      split_ifs at h

theorem untilZero_eq_self {bs : QByteArray} (h : ∀ b ∈ bs, b ≠ 0) : untilZero bs = bs :=
  List.takeWhile_eq_self_iff.mpr fun b hb => decide_eq_true (h b hb)

/-- Nothing from a zero byte on is given back. -/
theorem ne_zero_of_readBytes_fromUtf8 {bs : QByteArray} (h : m.readBytes (fromUtf8 bs) = bs) : ∀ b ∈ bs, b ≠ 0 := by
  have hprefix : untilZero bs <+: bs := List.takeWhile_prefix _
  have hdecoded : (m.readBytes (fromUtf8 bs)).length ≤ (untilZero bs).length :=
    Nat.le_trans (m.readBytes_decode_length _ _) (Nat.sub_le ..)
  rw [h] at hdecoded
  intro b hb
  rw [← hprefix.eq_of_length_le hdecoded] at hb
  unfold untilZero at hb
  simpa using List.mem_takeWhile_imp hb

/-- A match string survives being written and read exactly when it is ASCII without a zero byte. -/
theorem readBytes_fromUtf8_iff (s : QString) :
    m.readBytes (fromUtf8 (m.readBytes s)) = m.readBytes s ↔ ∀ b ∈ m.readBytes s, b ≠ 0 ∧ b.toNat < 0x80 := by
  constructor
  · intro h
    have hzero := m.ne_zero_of_readBytes_fromUtf8 h
    refine fun b hb => ⟨hzero b hb, ?_⟩
    revert b
    by_contra hn
    simp only [not_forall, Nat.not_lt, exists_prop] at hn
    rw [fromUtf8, untilZero_eq_self hzero] at h
    split at h
    · next hbom =>
      have hlen := m.readBytes_decode_length 3 (m.readBytes s)
      have h3 : 3 ≤ (m.readBytes s).length := (List.isPrefixOf_iff_prefix.mp hbom).length_le
      rw [h] at hlen
      omega
    · exact m.readBytes_decode_ne _ hn h
  · intro h
    have hbom : [0xEF, 0xBB, 0xBF].isPrefixOf (m.readBytes s) = false := by
      rw [Bool.eq_false_iff]
      intro hbom
      have hm := (List.isPrefixOf_iff_prefix.mp hbom).subset List.mem_cons_self
      exact absurd (h _ hm) (by decide)
    rw [fromUtf8, untilZero_eq_self fun b hb => (h b hb).1, hbom]
    exact m.readBytes_decode_of_ascii _ fun b hb => ⟨(h b hb).2, m.lowerLatin1_readBytes s b hb⟩

end CaseMapping

end KWinFT.RuleBook
