import Mathlib.Data.List.Induction
import Mathlib.Data.Nat.Digits.Defs
import Migrations.Proofs.Text.Numeral

/-!
# The Range of Ids

The ledger holds ids as signed 64-bit numbers, and an id has one bit more.  A text is read as an id
when its digits, however many there are, denote a number that the ledger can hold; and counting on
from an id stops at the same number, long before the width of an id is reached.

## Main statements

- `Text.denoted_eq`: reading from the left gives each digit its weight.
- `ChangeId.ofText?_eq_some_iff`: which texts are ids, and of which number.
- `ChangeId.next?_eq_none`: which ids have no next one.
- `ChangeId.stays_in_range`: both, with the way back from an id to its text.
-/

namespace Migrations

/-! ## Digits -/

namespace Text

/-- The number that digits denote.  The last one counts as it is, and each of the others counts for
ten of the digit after it. -/
def denoted (cs : List Char) : Nat := Nat.ofDigits 10 (cs.reverse.map fun c => c.toNat - '0'.toNat)

theorem denoted_concat (cs : List Char) (c : Char) :
    denoted (cs ++ [c]) = (c.toNat - '0'.toNat) + 10 * denoted cs := by
  rw [denoted, List.reverse_concat, List.map_cons, Nat.ofDigits_cons]
  rfl

/-- Reading from the left gives each digit its weight. -/
theorem denoted_eq (cs : List Char) : Nat.ofDigitChars 10 cs 0 = denoted cs := by
  induction cs using List.reverseRecOn with
  | nil => rfl
  | append_singleton cs c ih =>
    rw [Nat.ofDigitChars_append, Nat.ofDigitChars_cons, Nat.ofDigitChars_nil, ih, denoted_concat,
      Nat.add_comm]

theorem numeral?_eq_some {cs : List Char} {n : Nat} :
    numeral? cs = some n ↔ cs ≠ [] ∧ (∀ c ∈ cs, '0' ≤ c ∧ c ≤ '9') ∧ denoted cs = n := by
  constructor
  · intro h
    obtain ⟨hne, hdigits⟩ := isDigit_of_numeral? h
    rw [numeral?, List.isEmpty_eq_false_iff.mpr hne, List.all_eq_true.mpr hdigits] at h
    exact ⟨hne, fun c hc => isDigit_iff.mp (hdigits c hc),
      (denoted_eq cs).symm.trans (Option.some.inj h)⟩
  · rintro ⟨hne, hdigits, rfl⟩
    have hall : cs.all Char.isDigit = true :=
      List.all_eq_true.mpr fun c hc => isDigit_iff.mpr (hdigits c hc)
    rw [numeral?, List.isEmpty_eq_false_iff.mpr hne, hall, denoted_eq]
    rfl

end Text

/-! ## Ids -/

namespace ChangeId

variable {text : String} {id next : ChangeId}

theorem le_greatest_iff : id ≤ greatest ↔ id.toNat ≤ 0x7FFFFFFFFFFFFFFF := Iff.rfl

/-- A number that the ledger can hold is the number of an id. -/
theorem exists_toNat_eq {n : Nat} (h : n ≤ 0x7FFFFFFFFFFFFFFF) :
    ∃ id : ChangeId, id.toNat = n ∧ id ≤ greatest := by
  have hn : (ofNat n).toNat = n := toNat_ofNat_of_le h
  exact ⟨ofNat n, hn, le_greatest_iff.mpr (hn.symm ▸ h)⟩

theorem ofText?_eq_some_iff :
    ofText? text = some id ↔ text ≠ "" ∧ (∀ c ∈ text.toList, '0' ≤ c ∧ c ≤ '9') ∧
      Text.denoted text.toList = id.toNat ∧ id.toNat ≤ 0x7FFFFFFFFFFFFFFF := by
  rw [ofText?_eq_some, Text.numeral?_eq_some, le_greatest_iff, ne_eq, String.toList_eq_nil_iff,
    and_assoc, and_assoc]

theorem exists_ofText?_iff :
    (∃ id, ofText? text = some id) ↔ text ≠ "" ∧ (∀ c ∈ text.toList, '0' ≤ c ∧ c ≤ '9') ∧
      Text.denoted text.toList ≤ 0x7FFFFFFFFFFFFFFF := by
  simp only [ofText?_eq_some_iff]
  constructor
  · rintro ⟨id, hne, hdigits, hid, hlimit⟩
    exact ⟨hne, hdigits, hid ▸ hlimit⟩
  · rintro ⟨hne, hdigits, hlimit⟩
    obtain ⟨id, hid, hle⟩ := exists_toNat_eq hlimit
    exact ⟨id, hne, hdigits, hid.symm, le_greatest_iff.mp hle⟩

theorem next?_eq_none : id.next? = none ↔ 0x7FFFFFFFFFFFFFFF < id.toNat + 1 := by
  rw [Option.eq_none_iff_forall_ne_some, ← Nat.not_le]
  constructor
  · intro h hle
    -- a number that the ledger can hold is that of an id, and this id comes next
    obtain ⟨next, hnext, hgreatest⟩ := exists_toNat_eq hle
    exact h next (next?_eq_some.mpr ⟨hnext.symm, hgreatest⟩)
  · intro h next hnext
    obtain ⟨hsucc, hle⟩ := next?_eq_some.mp hnext
    exact h (hsucc ▸ hle)

/-- Ids stay in the signed range.  A text is an id when it consists of one or more ASCII digits that
denote a number of this range, and then it is the id with this number.  An id of this range is read
from its own text.  The id after an id has the next number, and there is none when that number is out
of range, up to the greatest of all ids. -/
theorem stays_in_range :
    (∀ text, (∃ id, ofText? text = some id) ↔
      text ≠ "" ∧ (∀ c ∈ text.toList, '0' ≤ c ∧ c ≤ '9') ∧
        Text.denoted text.toList ≤ 0x7FFFFFFFFFFFFFFF) ∧
    (∀ text id, ofText? text = some id → id.toNat = Text.denoted text.toList) ∧
    (∀ id : ChangeId, id.toNat ≤ 0x7FFFFFFFFFFFFFFF → ofText? (toString id) = some id) ∧
    ∀ id : ChangeId,
      (∀ next, id.next? = some next ↔
        next.toNat = id.toNat + 1 ∧ id.toNat + 1 ≤ 0x7FFFFFFFFFFFFFFF) ∧
      (id.next? = none ↔ 0x7FFFFFFFFFFFFFFF < id.toNat + 1) := by
  refine ⟨fun text => exists_ofText?_iff, fun text id h => ?_, fun id h => ?_, fun id =>
    ⟨fun next => ?_, next?_eq_none⟩⟩
  · exact (ofText?_eq_some_iff.mp h).2.2.1.symm
  · exact ofText?_toString (le_greatest_iff.mpr h)
  · rw [next?_eq_some, le_greatest_iff]
    constructor
    · rintro ⟨hsucc, hle⟩
      exact ⟨hsucc.symm, hsucc ▸ hle⟩
    · rintro ⟨hnext, hle⟩
      exact ⟨hnext.symm, hnext ▸ hle⟩

/-- The last number of the range with zeros in front, the first number that is out of it, a number of
more than 64 bits, and the ids at the end of the range and at the end of all ids. -/
theorem stays_in_range_ends :
    (∃ id, ofText? "0000000000009223372036854775807" = some id ∧ id.toNat = limit) ∧
      (¬ ∃ id, ofText? "9223372036854775808" = some id) ∧
      (¬ ∃ id, ofText? "18446744073709551617" = some id) ∧
      ofText? (toString greatest) = some greatest ∧
      (∃ last, next? ⟨9223372036854775806⟩ = some last ∧ last = greatest) ∧
      greatest.next? = none ∧ next? ⟨18446744073709551615⟩ = none := by
  obtain ⟨hexists, hnumber, hback, hnext⟩ := stays_in_range
  have hlast : Text.denoted "0000000000009223372036854775807".toList = limit := by decide +kernel
  obtain ⟨id, hid⟩ := (hexists "0000000000009223372036854775807").mpr
    ⟨by decide, by simp, by rw [hlast]; decide⟩
  refine ⟨⟨id, hid, (hnumber _ id hid).trans hlast⟩, fun h => ?_, fun h => ?_,
    hback greatest (by decide), ⟨greatest, ?_, rfl⟩, ?_, ?_⟩
  · exact absurd ((hexists _).mp h).2.2 (by decide +kernel)
  · exact absurd ((hexists _).mp h).2.2 (by decide +kernel)
  · exact ((hnext _).1 greatest).mpr ⟨by decide, by decide⟩
  · exact (hnext greatest).2.mpr (by decide)
  · exact (hnext _).2.mpr (by decide)

end ChangeId

end Migrations
