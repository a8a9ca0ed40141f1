/-!
# Bytes as Text

Reading bytes that are meant to be UTF-8 text but need not be.  Where they are not, a replacement
character stands for every longest part that could have started a character.
-/

namespace Migrations.Text

/-- The character in place of bytes that are not text. -/
def replacement : Char := '\ufffd'

/-- The least and the greatest byte that may follow a first byte, how many bytes follow it in all,
and the bits that the first byte adds. -/
def shape? (b : Nat) : Option (Nat × Nat × Nat × Nat) :=
  if 0xC2 ≤ b ∧ b ≤ 0xDF then some (0x80, 0xBF, 1, b - 0xC0)
  else if b = 0xE0 then some (0xA0, 0xBF, 2, 0)
  else if b = 0xED then some (0x80, 0x9F, 2, 0xD)
  else if 0xE1 ≤ b ∧ b ≤ 0xEF then some (0x80, 0xBF, 2, b - 0xE0)
  else if b = 0xF0 then some (0x90, 0xBF, 3, 0)
  else if b = 0xF4 then some (0x80, 0x8F, 3, 4)
  else if 0xF1 ≤ b ∧ b ≤ 0xF3 then some (0x80, 0xBF, 3, b - 0xF0)
  else none

/-- A character that is being read: the bounds of its next byte, how many bytes are still to come,
and the bits so far. -/
structure Unfinished where
  least : Nat
  greatest : Nat
  more : Nat
  bits : Nat

/-- The characters that start with a byte, and the character that the byte leaves unfinished. -/
def start (b : Nat) : List Char × Option Unfinished :=
  if b < 0x80 then ([Char.ofNat b], none)
  else match shape? b with
    | some (least, greatest, more, bits) => ([], some ⟨least, greatest, more, bits⟩)
    | none => ([replacement], none)

/-- The characters of bytes, with the character that is being read. -/
def decodeFrom : Option Unfinished → List UInt8 → List Char
  | none, [] => []
  | some _, [] => [replacement]
  | none, b :: bytes =>
    let (cs, pending) := start b.toNat
    cs ++ decodeFrom pending bytes
  | some p, b :: bytes =>
    let b := b.toNat
    if p.least ≤ b ∧ b ≤ p.greatest then
      let bits := p.bits * 64 + (b - 0x80)
      if p.more = 1 then Char.ofNat bits :: decodeFrom none bytes
      else decodeFrom (some ⟨0x80, 0xBF, p.more - 1, bits⟩) bytes
    else
      let (cs, pending) := start b
      replacement :: cs ++ decodeFrom pending bytes

def decode (bytes : ByteArray) : List Char := decodeFrom none bytes.toList

end Migrations.Text
