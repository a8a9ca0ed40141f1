import Migrations.Text.Numeral

/-!
# JSON Texts

Values in the JavaScript Object Notation, written without any blanks.  Quotes, backslashes and
control characters are escaped, the latter by a letter where there is one; all other characters
stand for themselves.
-/

namespace Migrations

/-- A JSON value. -/
inductive Json where
  | null
  | number (n : Nat)
  | string (s : String)
  /-- Fields in the order in which they are written. -/
  | object (fields : List (String × Json))

namespace Json

/-- A text or nothing. -/
def option : Option String → Json
  | some s => .string s
  | none => .null

/-- A digit of a number to the base sixteen. -/
def hexDigit (n : Nat) : Char := Nat.digitChar n

/-- How a character is written inside a text. -/
def escape (c : Char) : List Char :=
  if c = '"' then ['\\', '"']
  else if c = '\\' then ['\\', '\\']
  else if c = '\n' then ['\\', 'n']
  else if c = '\r' then ['\\', 'r']
  else if c = '\t' then ['\\', 't']
  else if c.toNat = 8 then ['\\', 'b']
  else if c.toNat = 12 then ['\\', 'f']
  else if c.toNat < 32 then
    ['\\', 'u', '0', '0', hexDigit (c.toNat / 16), hexDigit (c.toNat % 16)]
  else [c]

def quote (s : String) : List Char := '"' :: s.toList.flatMap escape ++ ['"']

mutual

/-- The characters of a value. -/
def write : Json → List Char
  | .null => "null".toList
  | .number n => Text.padded 0 n
  | .string s => quote s
  | .object fields => '\x7b' :: writeFields fields ++ ['\x7d']

/-- The characters of the fields of an object, with commas between them. -/
def writeFields : List (String × Json) → List Char
  | [] => []
  | [field] => quote field.1 ++ ':' :: write field.2
  | field :: other :: rest =>
    quote field.1 ++ ':' :: write field.2 ++ ',' :: writeFields (other :: rest)

end

def render (json : Json) : String := String.ofList json.write

end Json

end Migrations
