import Migrations.Text.Numeral
import Migrations.Text.Search

/-!
# YAML Nodes

The tree that a YAML document denotes, and what its scalars stand for.  A scalar keeps its text and
whether it was written plain: only a plain scalar can stand for nothing, a truth value or a number.
-/

namespace Migrations.Yaml

/-- A node of a document. -/
inductive Node where
  | scalar (text : String) (plain : Bool)
  | list (items : List Node)
  | map (entries : List (Node × Node))
  deriving Inhabited

/-- Why a text is not the expected document. -/
inductive Fault where
  | badCharacter
  | tab
  /-- A character that cannot stand where it does. -/
  | unexpected (c : Char)
  /-- A quoted text, a flow collection or a key that is not finished. -/
  | unclosed
  /-- An escape that quoted texts do not know. -/
  | badEscape
  | unknownAlias
  | manyDocuments
  | mismatch (expected : String)
  /-- A field that is given twice. -/
  | duplicate (field : String)
  deriving DecidableEq, Repr

def Fault.message : Fault → String
  | badCharacter => "control characters are not allowed"
  | tab => "found a tab character where indentation is expected"
  | unexpected c => s!"found character '{c}' that cannot stand here"
  | unclosed => "found unexpected end of input"
  | badEscape => "found unknown escape character"
  | unknownAlias => "unknown anchor"
  | manyDocuments => "more than one document is not supported"
  | mismatch expected => s!"invalid type: expected {expected}"
  | duplicate field => s!"duplicate field {field}"

namespace Node

/-! ## Scalars -/

/-- The node of a place where nothing is written. -/
def blank : Node := .scalar "" true

def isNothing : Node → Bool
  | scalar text plain =>
    plain && (text = "" || text = "~" || text = "null" || text = "Null" || text = "NULL")
  | _ => false

def text? : Node → Option String
  | scalar text _ => some text
  | _ => none

def bool? : Node → Option Bool
  | scalar text true =>
    if text = "true" ∨ text = "True" ∨ text = "TRUE" then some true
    else if text = "false" ∨ text = "False" ∨ text = "FALSE" then some false
    else none
  | _ => none

/-- The value of a digit in some base up to sixteen. -/
def digitValue? (base : Nat) (c : Char) : Option Nat :=
  let value := if c.isDigit then some (c.toNat - '0'.toNat)
    else if 'a' ≤ c ∧ c ≤ 'f' then some (c.toNat - 'a'.toNat + 10)
    else if 'A' ≤ c ∧ c ≤ 'F' then some (c.toNat - 'A'.toNat + 10)
    else none
  value.filter (· < base)

/-- The number that one or more digits of a base denote. -/
def digits? (base : Nat) (cs : List Char) : Option Int :=
  if cs.isEmpty then none
  else (cs.foldl (fun n c => do return (← n) * base + (← digitValue? base c))
    (some 0)).map Int.ofNat

/-- The number after a marker of its base, `0x`, `0o` or `0b`. -/
def marked? (cs : List Char) : Option Int :=
  match cs with
  | '0' :: 'x' :: cs => digits? 16 cs
  | '0' :: 'o' :: cs => digits? 8 cs
  | '0' :: 'b' :: cs => digits? 2 cs
  | _ => none

/-- The integer of a plain scalar: decimal without leading zeros, or with a marker of its base, and
with a sign or without. -/
def int? : Node → Option Int
  | scalar text true =>
    let unsigned (cs : List Char) : Option Int :=
      if cs.length > 1 && cs.head? == some '0' && cs.all Char.isDigit then none
      else (marked? cs).or (digits? 10 cs)
    match text.toList with
    | '-' :: cs => (unsigned cs).map (- ·)
    | '+' :: cs => unsigned cs
    | cs => unsigned cs
  | _ => none

end Node

end Migrations.Yaml
