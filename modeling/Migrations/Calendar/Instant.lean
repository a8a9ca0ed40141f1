import Migrations.Text.Numeral
import Migrations.Text.Search

/-!
# Instants

A point in time in coordinated universal time, down to the nanosecond, on the proleptic Gregorian
calendar.  An instant is written as year, month, day and time of day, with a fraction of three, six
or nine digits when it has one, and read from the same form with any offset from universal time.
-/

namespace Migrations

/-- A point in time: seconds since the start of 1970 and the nanoseconds after that second. -/
structure Instant where
  /-- Seconds since the start of 1970, negative before it. -/
  seconds : Int
  nanos : Nat
  deriving DecidableEq, Repr, Inhabited

namespace Instant

/-! ## Days and dates -/

/-- The number of days from the start of 1970 to a date.  Years are counted from March here, so
that a leap day comes last, in cycles of four hundred years. -/
def daysOfDate (year : Int) (month day : Nat) : Int :=
  let y := if month ≤ 2 then year - 1 else year
  let era := y.fdiv 400
  let yearOfEra := y - era * 400
  let monthFromMarch : Int := ((month + 9) % 12 : Nat)
  let dayOfYear := (153 * monthFromMarch + 2) / 5 + (day : Int) - 1
  let dayOfEra := yearOfEra * 365 + yearOfEra / 4 - yearOfEra / 100 + dayOfYear
  era * 146097 + dayOfEra - 719468

/-- The date that lies the given number of days after the start of 1970. -/
def dateOfDays (days : Int) : Int × Nat × Nat :=
  let z := days + 719468
  let era := z.fdiv 146097
  let dayOfEra := z - era * 146097
  let yearOfEra :=
    (dayOfEra - dayOfEra / 1460 + dayOfEra / 36524 - dayOfEra / 146096) / 365
  let dayOfYear := dayOfEra - (365 * yearOfEra + yearOfEra / 4 - yearOfEra / 100)
  let monthFromMarch := (5 * dayOfYear + 2) / 153
  let day := (dayOfYear - (153 * monthFromMarch + 2) / 5 + 1).toNat
  let month := if monthFromMarch < 10 then (monthFromMarch + 3).toNat
    else (monthFromMarch - 9).toNat
  let year := yearOfEra + era * 400
  (if month ≤ 2 then year + 1 else year, month, day)

def daysOfMonth (year : Int) (month : Nat) : Nat :=
  if month = 2 then
    if year % 4 = 0 ∧ (year % 100 ≠ 0 ∨ year % 400 = 0) then 29 else 28
  else if month = 4 ∨ month = 6 ∨ month = 9 ∨ month = 11 then 30 else 31

/-! ## Writing -/

/-- A year in at least four digits, with a sign outside the years 0 to 9999. -/
def yearText (year : Int) : List Char :=
  if 0 ≤ year ∧ year ≤ 9999 then Text.padded 4 year.toNat
  else (if year < 0 then '-' else '+') :: Text.padded 4 year.natAbs

def parts (t : Instant) : (Int × Nat × Nat) × (Nat × Nat × Nat) :=
  let s := (t.seconds % 86400).toNat
  (dateOfDays (t.seconds / 86400), s / 3600, s / 60 % 60, s % 60)

/-- Date and time of day, with the given texts between date, time and their parts. -/
def stamp (dash gap colon : List Char) (t : Instant) : List Char :=
  let ((year, month, day), hour, minute, second) := t.parts
  yearText year ++ dash ++ Text.padded 2 month ++ dash ++ Text.padded 2 day ++ gap ++
    Text.padded 2 hour ++ colon ++ Text.padded 2 minute ++ colon ++ Text.padded 2 second

def toDisplay (t : Instant) : String := String.ofList (t.stamp ['-'] [' '] [':'])

def toStamp (t : Instant) : String := String.ofList (t.stamp [] [] [])

/-- The fraction of a second in three, six or nine digits, the fewest that are exact. -/
def fractionText (nanos : Nat) : List Char :=
  if nanos = 0 then []
  else if nanos % 1000000 = 0 then '.' :: Text.padded 3 (nanos / 1000000)
  else if nanos % 1000 = 0 then '.' :: Text.padded 6 (nanos / 1000)
  else '.' :: Text.padded 9 nanos

/-- The instant in the internet date format, in universal time: `2024-05-01T08:30:00.500Z`. -/
def toInternet (t : Instant) : String :=
  String.ofList (t.stamp ['-'] ['T'] [':'] ++ fractionText t.nanos ++ ['Z'])

/-! ## Reading -/

/-- The number that the first `n` characters denote, and the text after them. -/
def takeNumber (n : Nat) (cs : List Char) : Option (Nat × List Char) :=
  if cs.length < n then none
  else (Text.numeral? (cs.take n)).map fun k => (k, cs.drop n)

def takeChar (p : Char → Bool) : List Char → Option (List Char)
  | c :: cs => if p c then some cs else none
  | [] => none

/-- A fraction of a second, cut off after nine digits. -/
def takeFraction (cs : List Char) : Option (Nat × List Char) :=
  match cs with
  | '.' :: rest =>
    let digits := rest.takeWhile Char.isDigit
    if digits.isEmpty then none
    else some (Nat.ofDigitChars 10 ((digits ++ List.replicate 9 '0').take 9) 0,
      rest.dropWhile Char.isDigit)
  | _ => some (0, cs)

/-- The offset from universal time, in seconds, that ends the text. -/
def offset? : List Char → Option Int
  | ['Z'] => some 0
  | ['z'] => some 0
  | sign :: cs => do
    let factor : Int ← if sign = '+' then some 1 else if sign = '-' then some (-1) else none
    let (hours, cs) ← takeNumber 2 cs
    let cs ← takeChar (· == ':') cs
    let (minutes, cs) ← takeNumber 2 cs
    if cs.isEmpty && hours < 24 && minutes < 60 then
      some (factor * ((hours * 3600 + minutes * 60 : Nat) : Int))
    else none
  | [] => none

/-- The instant that a text in the internet date format denotes. -/
def ofInternet? (text : String) : Option Instant := do
  let (year, cs) ← takeNumber 4 text.toList
  let cs ← takeChar (· == '-') cs
  let (month, cs) ← takeNumber 2 cs
  let cs ← takeChar (· == '-') cs
  let (day, cs) ← takeNumber 2 cs
  let cs ← takeChar (fun c => c == 'T' || c == 't' || c == ' ') cs
  let (hour, cs) ← takeNumber 2 cs
  let cs ← takeChar (· == ':') cs
  let (minute, cs) ← takeNumber 2 cs
  let cs ← takeChar (· == ':') cs
  let (second, cs) ← takeNumber 2 cs
  let (nanos, cs) ← takeFraction cs
  let offset ← offset? cs
  if 1 ≤ month ∧ month ≤ 12 ∧ 1 ≤ day ∧ day ≤ daysOfMonth year month ∧
      hour < 24 ∧ minute < 60 ∧ second < 60 then
    let time : Int := ((hour * 3600 + minute * 60 + second : Nat) : Int)
    some ⟨daysOfDate year month day * 86400 + time - offset, nanos⟩
  else none

end Instant

end Migrations
