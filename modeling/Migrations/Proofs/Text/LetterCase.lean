import Mathlib.Data.String.Basic
import Migrations.Text.LetterCase

/-!
# Lower Case of Texts

No character vanishes when a text is put in lower case.  Texts in ASCII are lowered letter by
letter, so how their letters are written does not matter afterwards.  Characters beyond ASCII can be
lowered into it, but no character is lowered to one of its capitals.

## Main statements

- `Text.lower_eq_empty`: only the empty text is empty in lower case.
- `Text.lower_of_ascii`: in ASCII only the capitals change.
- `Text.isUpper_of_mem_lower`: no capitals of ASCII are left in lower case.
-/

namespace Migrations.Text

/-! ## Empty texts -/

theorem lowerAfter_eq_nil {before cs : List Char} : lowerAfter before cs = [] ↔ cs = [] := by
  cases cs with
  | nil => exact ⟨fun _ => rfl, fun _ => rfl⟩
  | cons c cs =>
    refine ⟨fun h => ?_, fun h => nomatch h⟩
    -- a character is lowered to one character or, once, to two
    rw [lowerAfter] at h
    obtain ⟨hlowered, -⟩ := List.append_eq_nil_iff.mp h
    split at hlowered
    · cases hlowered
    · split at hlowered <;> cases hlowered

theorem lower_eq_empty {text : String} : lower text = "" ↔ text = "" := by
  rw [lower, ← String.toList_eq_nil_iff, String.toList_ofList, lowerAfter_eq_nil,
    String.toList_eq_nil_iff]

/-! ## ASCII -/

theorem lowerChar_of_ascii {c : Char} (h : c.toNat < 128) : lowerChar c = c.toLower := by
  by_cases hcapital : 65 ≤ c.toNat ∧ c.toNat ≤ 90
  · have hall : ∀ n : Fin 26, lowerChar (Char.ofNat (65 + n)) = (Char.ofNat (65 + n)).toLower := by
      decide +kernel
    have hc := hall ⟨c.toNat - 65, by omega⟩
    rwa [Nat.add_sub_cancel' hcapital.1, Char.ofNat_toNat] at hc
  · -- the capitals are the only ones in ASCII, and all other capitals are beyond it
    have hbeyond : ∀ range ∈ lowerRanges.tail, 128 ≤ range.first := by decide +kernel
    have hnone : lowerRanges.findSome? (·.shift? c.toNat) = none := by
      have hcapitals : lowerRanges = ⟨65, 90, 1, 32⟩ :: lowerRanges.tail := rfl
      rw [List.findSome?_eq_none_iff, hcapitals]
      refine List.forall_mem_cons.mpr ⟨if_neg fun hin => hcapital ⟨hin.1, hin.2.1⟩, ?_⟩
      exact fun range hmem => if_neg fun hin => absurd (hbeyond range hmem) (by omega)
    have hsame : c.toLower = c := dif_neg hcapital
    rw [lowerChar, hnone, hsame]

theorem lowerAfter_of_ascii {before cs : List Char} (h : ∀ c ∈ cs, c.toNat < 128) :
    lowerAfter before cs = cs.map Char.toLower := by
  induction cs generalizing before with
  | nil => rfl
  | cons c cs ih =>
    have hc := h c List.mem_cons_self
    -- the two characters that are lowered in a way of their own are beyond ASCII
    have hsigma : c ≠ 'Σ' := by
      rintro rfl
      exact absurd hc (by decide)
    have hdotted : c ≠ 'İ' := by
      rintro rfl
      exact absurd hc (by decide)
    rw [lowerAfter, if_neg hsigma, if_neg hdotted, lowerChar_of_ascii hc,
      ih fun d hd => h d (List.mem_cons_of_mem _ hd)]
    rfl

theorem lower_of_ascii {text : String} (h : ∀ c ∈ text.toList, c.toNat < 128) :
    lower text = text.toLower := by
  show String.ofList (lowerAfter [] text.toList) = text.map Char.toLower
  rw [lowerAfter_of_ascii h, ← String.toList_map, String.ofList_toList]

/-- What is an ASCII character in small letters is one as it is written. -/
theorem ascii_of_toLower {c : Char} (h : c.toLower.toNat < 128) : c.toNat < 128 := by
  by_cases hcapital : 'A'.val ≤ c.val ∧ c.val ≤ 'Z'.val
  · have hlast : c.toNat ≤ 90 := hcapital.2
    omega
  · have hsmall : c.toLower = c := dif_neg hcapital
    rwa [hsmall] at h

/-- A text that is the given one but for the case of its letters. -/
theorem lower_eq_of_toLower {text name : String} (h : text.toLower = name)
    (hname : name.toList.all (·.toNat < 128)) : lower text = name := by
  rw [← h]
  refine lower_of_ascii fun c hc =>
    ascii_of_toLower (of_decide_eq_true (List.all_eq_true.mp hname c.toLower ?_))
  show c.toLower ∈ name.toList
  rw [← h, show text.toLower = text.map Char.toLower from rfl, String.toList_map]
  exact List.mem_map_of_mem hc

/-! ## Capitals -/

theorem isUpper_iff {c : Char} : c.isUpper = true ↔ 65 ≤ c.toNat ∧ c.toNat ≤ 90 :=
  decide_eq_true_iff

theorem isLower_iff {c : Char} : c.isLower = true ↔ 'a' ≤ c ∧ c ≤ 'z' := by
  show (decide ('a' ≤ c) && decide (c ≤ 'z')) = true ↔ _
  rw [Bool.and_eq_true, decide_eq_true_eq, decide_eq_true_eq]

/-- A number that stands for no character stands for the first one. -/
theorem toNat_charOfNat (n : Nat) : (Char.ofNat n).toNat = n ∨ (Char.ofNat n).toNat = 0 := by
  by_cases h : n.isValidChar
  · exact .inl (congrArg Char.toNat (dif_pos h))
  · exact .inr (congrArg Char.toNat (dif_neg h))

theorem isUpper_lowerChar (c : Char) : (lowerChar c).isUpper = false := by
  -- the capitals are shifted away from where they are, and nothing is shifted to there
  have hshifts : ∀ range ∈ lowerRanges,
      (range.last : Int) + range.shift < 65 ∨ 90 < (range.first : Int) + range.shift := by
    decide +kernel
  rw [Bool.eq_false_iff, ne_eq, isUpper_iff, lowerChar]
  cases hfound : lowerRanges.findSome? (·.shift? c.toNat) with
  | none =>
    have hcapitals := List.findSome?_eq_none_iff.mp hfound ⟨65, 90, 1, 32⟩ List.mem_cons_self
    simp only [CaseRange.shift?, ite_eq_right_iff, reduceCtorEq, imp_false] at hcapitals
    dsimp only
    omega
  | some n =>
    obtain ⟨range, hmem, hshift⟩ := List.exists_of_findSome?_eq_some hfound
    have hrange := hshifts range hmem
    unfold CaseRange.shift? at hshift
    split at hshift
    · have hn := toNat_charOfNat n
      have hshifted := Option.some.inj hshift
      dsimp only
      omega
    · cases hshift

theorem isUpper_of_mem_lowerAfter {before cs : List Char} {c : Char}
    (h : c ∈ lowerAfter before cs) : c.isUpper = false := by
  induction cs generalizing before with
  | nil => cases h
  | cons first rest ih =>
    rw [lowerAfter, List.mem_append] at h
    rcases h with h | h
    · split at h
      · rw [List.mem_singleton.mp h]
        split <;> rfl
      · split at h
        · simp only [List.mem_cons, List.not_mem_nil, or_false] at h
          rcases h with rfl | rfl <;> rfl
        · rw [List.mem_singleton.mp h]
          exact isUpper_lowerChar first
    · exact ih h

theorem isUpper_of_mem_lower {text : String} {c : Char} (h : c ∈ (lower text).toList) :
    c.isUpper = false := by
  rw [lower, String.toList_ofList] at h
  exact isUpper_of_mem_lowerAfter h

/-- A text in ASCII without capitals is in lower case. -/
theorem lower_eq_self {text : String}
    (h : ∀ c ∈ text.toList, c.toNat < 128 ∧ c.isUpper = false) : lower text = text := by
  rw [lower, lowerAfter_of_ascii fun c hc => (h c hc).1]
  have hsame : text.toList.map Char.toLower = text.toList.map id :=
    List.map_congr_left fun c hc => dif_neg (of_decide_eq_false (h c hc).2)
  rw [hsame, List.map_id, String.ofList_toList]

end Migrations.Text
