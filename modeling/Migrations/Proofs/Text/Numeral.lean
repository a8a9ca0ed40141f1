import Migrations.Change.Id
import Migrations.Proofs.Text.Line

/-!
# Numerals that Are Read Back

A number in decimal is read back as itself, with zeros in front of it or without them.  So an id
that is written into a text is found there again, whatever the width that it is written in.  A number
of 64 bits is read digit by digit, and since no digit makes it smaller, a number that does not fit on
the way does not fit in the end either.

## Main statements

- `Text.numeral?_padded`: zeros in front do not count.
- `Text.digits64?_eq_some`: digits make a number of 64 bits when what they denote fits.
- `ChangeId.ofText?_eq_some`: a text denotes an id when it is a numeral that the ledger can hold.
- `ChangeId.ofText?_padded`, `ChangeId.ofText?_toString`: an id that the ledger can hold is the one
  that is read from its text.
- `ChangeId.next?_eq_some`: the next id is one more.
-/

namespace Migrations

namespace Text

theorem isDigit_of_mem_padded {width n : Nat} {c : Char} (h : c ∈ padded width n) :
    c.isDigit = true := by
  rcases List.mem_append.mp h with h | h
  · rw [List.eq_of_mem_replicate h]
    rfl
  · exact Nat.isDigit_of_mem_toDigits (by decide) (by decide) h

theorem numeral?_padded (width n : Nat) : numeral? (padded width n) = some n := by
  have hne : padded width n ≠ [] := fun h => Nat.toDigits_ne_nil (List.append_eq_nil_iff.mp h).2
  have hdigits : (padded width n).all Char.isDigit = true :=
    List.all_eq_true.mpr fun _ => isDigit_of_mem_padded
  -- the zeros in front add nothing to what the digits denote
  have hvalue : Nat.ofDigitChars 10 (padded width n) 0 = n := by
    rw [padded, Nat.ofDigitChars_append, Nat.ofDigitChars_replicate_zero, Nat.mul_zero,
      Nat.ofDigitChars_toDigits (by decide) (by decide)]
  rw [numeral?, List.isEmpty_eq_false_iff.mpr hne, hdigits, hvalue]
  rfl

/-- Without zeros in front a number is as wide as it is. -/
theorem padded_zero (n : Nat) : padded 0 n = Nat.toDigits 10 n := by
  rw [padded, Nat.zero_sub]
  rfl

theorem numeral?_toDigits (n : Nat) : numeral? (Nat.toDigits 10 n) = some n := by
  rw [← padded_zero, numeral?_padded]

/-! ## 64-bit numbers -/

theorem unsigned64?_eq_some {n : Nat} {m : UInt64} : unsigned64? n = some m ↔ n = m.toNat := by
  unfold unsigned64?
  constructor
  · intro h
    split at h
    · rename_i hfits
      cases h
      exact (UInt64.toNat_ofNat_of_lt' hfits).symm
    · cases h
  · rintro rfl
    rw [if_pos m.toNat_lt, UInt64.ofNat_toNat]

theorem exists_unsigned64? {n : Nat} {m : UInt64} (h : n ≤ m.toNat) :
    ∃ k : UInt64, n = k.toNat :=
  ⟨UInt64.ofNat n, (UInt64.toNat_ofNat_of_lt' (Nat.lt_of_le_of_lt h m.toNat_lt)).symm⟩

theorem appendDigit?_eq_some {n m : UInt64} {c : Char} :
    appendDigit? n c = some m ↔ 10 * n.toNat + (c.toNat - '0'.toNat) = m.toNat := by
  simp only [appendDigit?, Option.bind_eq_bind, Option.bind_eq_some_iff, unsigned64?_eq_some]
  constructor
  · rintro ⟨shifted, hshifted, hsum⟩
    omega
  · intro h
    -- what fits with the digit fits without it
    obtain ⟨shifted, hshifted⟩ := @exists_unsigned64? (n.toNat * 10) m (by omega)
    exact ⟨shifted, hshifted, by omega⟩

/-- More digits do not make a number smaller. -/
theorem le_ofDigitChars (cs : List Char) (n : Nat) : n ≤ Nat.ofDigitChars 10 cs n := by
  induction cs generalizing n with
  | nil => exact Nat.le_refl n
  | cons c cs ih =>
    rw [Nat.ofDigitChars_cons]
    have hrest := ih (10 * n + (c.toNat - '0'.toNat))
    omega

theorem foldlM_appendDigit? {cs : List Char} {n m : UInt64} :
    cs.foldlM appendDigit? n = some m ↔ Nat.ofDigitChars 10 cs n.toNat = m.toNat := by
  induction cs generalizing n with
  | nil =>
    show some n = some m ↔ n.toNat = m.toNat
    rw [Option.some_inj, UInt64.toNat_inj]
  | cons c cs ih =>
    rw [List.foldlM_cons, Option.bind_eq_bind, Option.bind_eq_some_iff, Nat.ofDigitChars_cons]
    constructor
    · rintro ⟨next, hnext, hrest⟩
      rw [appendDigit?_eq_some.mp hnext]
      exact ih.mp hrest
    · intro h
      obtain ⟨next, hnext⟩ := exists_unsigned64? (h ▸ le_ofDigitChars cs _)
      exact ⟨next, appendDigit?_eq_some.mpr hnext, ih.mpr (hnext ▸ h)⟩

theorem digits64?_eq_some {cs : List Char} {m : UInt64} :
    digits64? cs = some m ↔ Nat.ofDigitChars 10 cs 0 = m.toNat :=
  foldlM_appendDigit?

end Text

namespace ChangeId

/-! ## Ids -/

theorem toNat_ofNat_of_le {n : Nat} (h : n ≤ limit) : (ofNat n).toNat = n := by
  unfold limit at h
  exact UInt64.toNat_ofNat_of_lt' (Nat.lt_of_le_of_lt h (by decide))

theorem held?_eq_some {id other : ChangeId} : held? id = some other ↔ id = other ∧ id ≤ greatest := by
  unfold held?
  split
  · rename_i hle
    simp [hle]
  · rename_i hle
    simp [hle]

/-- The id after an id is one more, and the ledger can hold it. -/
theorem next?_eq_some {id next : ChangeId} :
    id.next? = some next ↔ id.toNat + 1 = next.toNat ∧ next ≤ greatest := by
  rw [next?, Option.bind_eq_some_iff]
  simp only [Text.unsigned64?_eq_some, held?_eq_some]
  constructor
  · rintro ⟨n, hn, rfl, hle⟩
    exact ⟨hn, hle⟩
  · rintro ⟨hsucc, hle⟩
    exact ⟨next.value, hsucc, rfl, hle⟩

/-- A text denotes an id when it is a numeral, and the ledger can hold its number. -/
theorem ofText?_eq_some {text : String} {id : ChangeId} :
    ofText? text = some id ↔ Text.numeral? text.toList = some id.toNat ∧ id ≤ greatest := by
  have hempty : text.isEmpty = text.toList.isEmpty := by
    rw [Bool.eq_iff_iff, String.isEmpty_iff, List.isEmpty_iff, String.toList_eq_nil_iff]
  rw [ofText?, Text.numeral?, hempty]
  split
  · simp
  · rw [Option.bind_eq_some_iff]
    simp only [Text.digits64?_eq_some, held?_eq_some, Option.some_inj]
    constructor
    · rintro ⟨n, hn, rfl, hle⟩
      exact ⟨hn, hle⟩
    · rintro ⟨hn, hle⟩
      exact ⟨id.value, hn, rfl, hle⟩

theorem ofText?_of_numeral {cs : List Char} {id : ChangeId}
    (hnumeral : Text.numeral? cs = some id.toNat) (hid : id ≤ greatest) :
    ofText? (String.ofList cs) = some id :=
  ofText?_eq_some.mpr ⟨(String.toList_ofList (l := cs)).symm ▸ hnumeral, hid⟩

theorem ofText?_padded (width : Nat) {id : ChangeId} (hid : id ≤ greatest) :
    ofText? (String.ofList (Text.padded width id.toNat)) = some id :=
  ofText?_of_numeral (Text.numeral?_padded width id.toNat) hid

theorem ofText?_toString {id : ChangeId} (hid : id ≤ greatest) :
    ofText? (toString id) = some id := by
  have htext : toString id = String.ofList (Nat.toDigits 10 id.toNat) := rfl
  rw [htext]
  exact ofText?_of_numeral (Text.numeral?_toDigits id.toNat) hid

end ChangeId

end Migrations
