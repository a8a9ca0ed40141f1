/-!
# Decimal Numerals

Reading and padding of numbers written in the ten ASCII digits.  Reading takes any number of
leading zeros and any length; signs, blanks and separators are not part of a numeral.  Where a number
has 64 bits, what does not fit is refused.
-/

namespace Migrations.Text

def numeral? (cs : List Char) : Option Nat :=
  if cs.isEmpty || !cs.all Char.isDigit then none else some (Nat.ofDigitChars 10 cs 0)

/-- A number in decimal, with zeros in front up to the given width. -/
def padded (width n : Nat) : List Char :=
  let digits := Nat.toDigits 10 n
  List.replicate (width - digits.length) '0' ++ digits

/-- The integer that an optional sign and one or more ASCII digits denote. -/
def integer? : List Char → Option Int
  | '-' :: cs => (numeral? cs).map fun n => -(n : Int)
  | '+' :: cs => (numeral? cs).map Int.ofNat
  | cs => (numeral? cs).map Int.ofNat

/-! ## 64-bit numbers -/

/-- A number as an unsigned 64-bit number, when it fits. -/
def unsigned64? (n : Nat) : Option UInt64 :=
  if n < UInt64.size then some (UInt64.ofNat n) else none

/-- The number that a digit after the digits of another number gives, when it fits. -/
def appendDigit? (n : UInt64) (c : Char) : Option UInt64 := do
  let shifted ← unsigned64? (n.toNat * 10)
  unsigned64? (shifted.toNat + (c.toNat - '0'.toNat))

/-- Digits as an unsigned 64-bit number, when the number fits at every one of them. -/
def digits64? (cs : List Char) : Option UInt64 := cs.foldlM appendDigit? 0

/-- An integer as a signed 64-bit number, when it fits. -/
def signed64? (n : Int) : Option Int64 :=
  if -0x8000000000000000 ≤ n ∧ n ≤ 0x7FFFFFFFFFFFFFFF then some (Int64.ofInt n) else none

/-- A text of an optional sign and digits as a signed 64-bit number, when it fits. -/
def int64? (cs : List Char) : Option Int64 := (integer? cs).bind signed64?

end Migrations.Text
