import Migrations.Text.Numeral

/-!
# Change Ids

A change is identified by an unsigned 64-bit number, and changes are ordered by it.  Ids that are
read from file names or made for new scripts stay within the signed 64-bit range, because that is
what the ledger's id column holds.
-/

namespace Migrations

structure ChangeId where
  value : UInt64
  deriving DecidableEq, Repr, Hashable, Inhabited

namespace ChangeId

/-! ## Order -/

def toNat (id : ChangeId) : Nat := id.value.toNat

instance : LT ChangeId := ⟨fun a b => a.toNat < b.toNat⟩

instance : LE ChangeId := ⟨fun a b => a.toNat ≤ b.toNat⟩

instance (a b : ChangeId) : Decidable (a < b) := inferInstanceAs (Decidable (a.toNat < b.toNat))

instance (a b : ChangeId) : Decidable (a ≤ b) := inferInstanceAs (Decidable (a.toNat ≤ b.toNat))

theorem lt_def {a b : ChangeId} : a < b ↔ a.toNat < b.toNat := Iff.rfl

theorem le_def {a b : ChangeId} : a ≤ b ↔ a.toNat ≤ b.toNat := Iff.rfl

theorem toNat_inj {a b : ChangeId} : a.toNat = b.toNat ↔ a = b := by
  cases a
  cases b
  simp [toNat, UInt64.toNat_inj]

def order (a b : ChangeId) : Ordering := compare a.toNat b.toNat

/-! ## Range -/

/-- The id with the given number, taken modulo the width of an id. -/
def ofNat (n : Nat) : ChangeId := ⟨UInt64.ofNat n⟩

/-- The greatest number that the ledger can hold as an id. -/
def limit : Nat := 9223372036854775807

def greatest : ChangeId := ofNat limit

/-- The id, if the ledger can hold it. -/
def held? (id : ChangeId) : Option ChangeId := if id ≤ greatest then some id else none

/-- The id after an id, if the ledger can hold it. -/
def next? (id : ChangeId) : Option ChangeId :=
  (Text.unsigned64? (id.toNat + 1)).bind fun n => held? ⟨n⟩

/-! ## Texts -/

instance : ToString ChangeId := ⟨fun id => toString id.toNat⟩

/-- The id that a text of ASCII digits denotes, any number of leading zeros included; nothing for
any other text and for numbers that the ledger cannot hold. -/
def ofText? (text : String) : Option ChangeId :=
  if text.isEmpty || !text.toList.all Char.isDigit then none
  else (Text.digits64? text.toList).bind fun n => held? ⟨n⟩

/-- Why a text is not accepted as an id. -/
def rejection (text : String) : String :=
  s!"'{text}' is not a valid change id (expected decimal digits up to 9223372036854775807)"

end ChangeId

end Migrations
