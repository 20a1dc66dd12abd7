import Mathlib.Data.List.Basic
import Mathlib.Tactic.Common

/-! Texts of rules. A text is its characters and a byte array its bytes; the conversions between them are those of
the toolkit, which reads bytes as UTF-8 and writes them as Latin-1. -/
namespace KWinFT.RuleBook

abbrev QString := List Char
abbrev QByteArray := List UInt8

def isContinuationByte (b : UInt8) : Bool := b.toNat / 64 = 2

/-- What a first byte says: the number of bytes that follow, the least character they may form, and its own bits. -/
def leadByte (b : Nat) : Option (Nat × Nat × Nat) :=
  if b < 0x80 then some (0, 0, b)
  else if b ≤ 0xC1 then none
  else if b < 0xE0 then some (1, 0x80, b % 32)
  else if b < 0xF0 then some (2, 0x800, b % 16)
  else if b < 0xF5 then some (3, 0x10000, b % 8)
  else none

/-- The character that starts with byte `b`, and how many of the next bytes belong to it. -/
def nextChar (b : UInt8) (bs : QByteArray) : Option (Char × Nat) :=
  match leadByte b.toNat with
  | none => none
  | some (n, least, bits) =>
    let uc := (bs.take n).foldl (fun uc b => uc * 64 + b.toNat % 64) bits
    if (bs.take n).length = n ∧ (bs.take n).all isContinuationByte ∧ least ≤ uc ∧ uc.isValidChar then
      some (Char.ofNat uc, n)
    else none

def replacementCharacter : Char := Char.ofNat 0xFFFD

/-- Decodes bytes, of which the first `skip` belong to a character that is out already. A byte that starts no
character becomes the replacement character. -/
def decodeUtf8 : Nat → QByteArray → QString
  | _, [] => []
  | skip + 1, _ :: bs => decodeUtf8 skip bs
  | 0, b :: bs =>
    match nextChar b bs with
    | some (c, n) => c :: decodeUtf8 n bs
    | none => replacementCharacter :: decodeUtf8 0 bs

/-- The bytes up to the first zero. -/
def untilZero (bs : QByteArray) : QByteArray := bs.takeWhile (· ≠ 0)

/-- `QString::fromUtf8` and the implicit conversion of a byte array. Both stop at a zero byte and drop a byte order mark. -/
def fromUtf8 (bs : QByteArray) : QString :=
  decodeUtf8 (if [0xEF, 0xBB, 0xBF].isPrefixOf (untilZero bs) then 3 else 0) (untilZero bs)

/-- One character in Latin-1: a question mark for each unit that is not in it. -/
def latin1 (c : Char) : QByteArray :=
  if c.toNat < 0x100 then [UInt8.ofNat c.toNat] else if c.toNat < 0x10000 then [63] else [63, 63]

def toLatin1 (s : QString) : QByteArray := s.flatMap latin1

end KWinFT.RuleBook
