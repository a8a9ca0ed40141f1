import Migrations.Proofs.Script.FileName

/-!
# File Names There and Back

A name is composed of the text of an id and of a description, and it is read into an id and a
description again.  The id comes back as the number that its text denotes.  Of the description come
back the words, which are the maximal runs of characters that are neither blank nor underscores, so
a description that consists of such words with single blanks between them comes back as it is.

## Main statements

- `Text.parted_iff`: a text has one parting into runs and what is between them.
- `Text.parted_join`: words that are joined by a separator are the runs of what comes out.
- `ScriptName.read_compose_words`: what comes back of an id and a description.
-/

namespace Migrations

namespace Text

/-! ## Texts in parts -/

/-- The texts `ws` are all the maximal runs of characters of a text that do not satisfy `p`, in
order: before each of them, and after the last one, stand characters that do. -/
inductive Parted (p : Char → Bool) : List Char → List (List Char) → Prop where
  | gap {gap : List Char} (hgap : ∀ c ∈ gap, p c = true) : Parted p gap []
  /-- A run goes on up to a separator or the end of the text. -/
  | run {gap w rest : List Char} {ws : List (List Char)} (hgap : ∀ c ∈ gap, p c = true)
    (hne : w ≠ []) (hw : ∀ c ∈ w, p c = false) (hend : ∀ c ∈ rest.head?, p c = true)
    (hrest : Parted p rest ws) : Parted p (gap ++ (w ++ rest)) (w :: ws)

variable {p : Char → Bool} {c : Char} {cs w gap rest : List Char} {ws : List (List Char)}

theorem runs_gap_append (hgap : ∀ c ∈ gap, p c = true) (cs : List Char) :
    runs p (gap ++ cs) = runs p cs := by
  have h := runs_between hgap (fun c hc => absurd hc List.not_mem_nil) cs
  rwa [List.append_nil] at h

/-- A run that does not go on is the first one. -/
theorem runs_run_append (hne : w ≠ []) (hw : ∀ c ∈ w, p c = false)
    (hend : ∀ c ∈ rest.head?, p c = true) : runs p (w ++ rest) = w :: runs p rest := by
  have hfirst : runs p w = [w] := by
    simp [runs, pieces_eq_singleton hw, hne]
  cases rest with
  | nil =>
    rw [List.append_nil, hfirst]
    rfl
  | cons c rest =>
    have hc : p c = true := hend c rfl
    rw [runs_append hc, hfirst, runs_cons_of_pos hc]
    rfl

theorem Parted.runs_eq (h : Parted p cs ws) : runs p cs = ws := by
  induction h with
  | gap hgap => exact runs_eq_nil hgap
  | run hgap hne hw hend _ ih => rw [runs_gap_append hgap, runs_run_append hne hw hend, ih]

/-- A separator in front of a text is not part of a run. -/
theorem Parted.cons (hc : p c = true) (h : Parted p cs ws) : Parted p (c :: cs) ws := by
  cases h with
  | gap hgap => exact .gap (List.forall_mem_cons.mpr ⟨hc, hgap⟩)
  | run hgap hne hw hend hrest =>
    rw [← List.cons_append]
    exact .run (List.forall_mem_cons.mpr ⟨hc, hgap⟩) hne hw hend hrest

/-- Any other character in front starts a run, or the first run starts with it now. -/
theorem Parted.exists_cons (hc : p c = false) (h : Parted p cs ws) :
    ∃ others, Parted p (c :: cs) others := by
  have hnil : ∀ d ∈ ([] : List Char), p d = true := fun d hd => absurd hd List.not_mem_nil
  have hsingle : ∀ d ∈ [c], p d = false := by simp [hc]
  by_cases hstart : ∀ d ∈ cs.head?, p d = true
  · exact ⟨[c] :: ws, .run hnil (List.cons_ne_nil c []) hsingle hstart h⟩
  · cases h with
    | gap hgap => exact absurd (fun d hd => hgap d (List.mem_of_mem_head? hd)) hstart
    | @run gap w rest ws hgap hne hw hend hrest =>
      cases gap with
      | nil =>
        exact ⟨(c :: w) :: ws, .run hnil (List.cons_ne_nil c w)
          (List.forall_mem_cons.mpr ⟨hc, hw⟩) hend hrest⟩
      | cons d gap =>
        refine absurd (fun e he => ?_) hstart
        cases he
        exact hgap d List.mem_cons_self

theorem exists_parted (p : Char → Bool) (cs : List Char) : ∃ ws, Parted p cs ws := by
  induction cs with
  | nil => exact ⟨[], .gap fun c hc => absurd hc List.not_mem_nil⟩
  | cons c cs ih =>
    obtain ⟨ws, h⟩ := ih
    cases hc : p c with
    | true => exact ⟨ws, h.cons hc⟩
    | false => exact h.exists_cons hc

/-- A text can be parted, and in one way only. -/
theorem parted_iff : Parted p cs ws ↔ runs p cs = ws := by
  constructor
  · exact Parted.runs_eq
  · rintro rfl
    obtain ⟨ws, h⟩ := exists_parted p cs
    rw [h.runs_eq]
    exact h

/-- Words that are joined by a separator are the runs of what comes out. -/
theorem parted_join (hc : p c = true) (hws : ∀ w ∈ ws, w ≠ [] ∧ ∀ d ∈ w, p d = false) :
    Parted p (join [c] ws) ws := by
  rw [parted_iff]
  induction ws with
  | nil => rfl
  | cons w ws ih =>
    obtain ⟨⟨hne, hw⟩, hrest⟩ := List.forall_mem_cons.mp hws
    cases ws with
    | nil => simp [join, runs, pieces_eq_singleton hw, hne]
    | cons v vs =>
      have hjoin : join [c] (w :: v :: vs) = w ++ c :: join [c] (v :: vs) :=
        List.append_assoc w [c] _
      have hend : ∀ d ∈ (c :: join [c] (v :: vs)).head?, p d = true := by simp [hc]
      rw [hjoin, runs_run_append hne hw hend, runs_cons_of_pos hc, ih hrest]

end Text

namespace ScriptName

open Text

/-! ## There and back -/

/-- The characters that stand between the words of a description. -/
def separates (c : Char) : Bool := isBlank c || c == '_'

theorem title_of_parted {description : String} {ws : List (List Char)}
    (h : Parted separates description.toList ws) :
    title description = String.ofList (join [' '] ws) :=
  congrArg (fun ws => String.ofList (join [' '] ws)) h.runs_eq

/-- A name that is composed of digits and a description is read as the number that the digits
denote, and as the runs of the description with single blanks between them.  So a description that
consists of words with single blanks between them comes back as it is. -/
theorem read_compose_words {text : String} (hne : text.toList ≠ [])
    (hdigits : ∀ c ∈ text.toList, c.isDigit = true)
    (hlimit : Nat.ofDigitChars 10 text.toList 0 ≤ ChangeId.limit) (description : String) :
    ∃ id : ChangeId, id.toNat = Nat.ofDigitChars 10 text.toList 0 ∧
      (∃ ws, Parted separates description.toList ws ∧
        read (compose text description) = .ok (id, String.ofList (join [' '] ws))) ∧
      ∀ ws, (∀ w ∈ ws, w ≠ [] ∧ ∀ c ∈ w, separates c = false) →
        description = String.ofList (join [' '] ws) →
        read (compose text description) = .ok (id, description) := by
  have hnumeral : numeral? text.toList = some (Nat.ofDigitChars 10 text.toList 0) := by
    rw [numeral?, List.isEmpty_eq_false_iff.mpr hne, List.all_eq_true.mpr hdigits]
    rfl
  have hid : ChangeId.ofText? text =
      some (ChangeId.ofNat (Nat.ofDigitChars 10 text.toList 0)) := by
    refine ChangeId.ofText?_eq_some.mpr ⟨?_, ?_⟩
    · rw [hnumeral, ChangeId.toNat_ofNat_of_le hlimit]
    · rwa [ChangeId.le_def, ChangeId.toNat_ofNat_of_le hlimit]
  refine ⟨_, ChangeId.toNat_ofNat_of_le hlimit, ?_, fun ws hws hdescription => ?_⟩
  · obtain ⟨ws, hparted⟩ := exists_parted separates description.toList
    exact ⟨ws, hparted, title_of_parted hparted ▸ read_compose hid description⟩
  · -- the words are the runs of the description, and put together they are the description
    have hparted : Parted separates description.toList ws := by
      rw [hdescription, String.toList_ofList]
      exact parted_join rfl hws
    have htitle : title description = description :=
      (title_of_parted hparted).trans hdescription.symm
    rw [read_compose hid, htitle]

/-- The greatest id with zeros in front of it, and a description with blanks, underscores, dots and
the end of a file name in it. -/
theorem read_compose_words_padded :
    let digits := "009223372036854775807"
    read (compose digits " _Größe__der\u00a0 x.sql_.sql ") =
        .ok (ChangeId.greatest, "Größe der x.sql .sql") ∧
      read (compose digits "Größe der x.sql .sql") =
        .ok (ChangeId.greatest, "Größe der x.sql .sql") := by
  intro digits
  have hdigits : ∀ c ∈ digits.toList, c.isDigit = true := by simp [digits]
  have hlimit : Nat.ofDigitChars 10 digits.toList 0 ≤ ChangeId.limit := by
    simp [digits, ChangeId.limit, Nat.ofDigitChars]
  have hgreatest : ∀ id : ChangeId, id.toNat = Nat.ofDigitChars 10 digits.toList 0 →
      id = ChangeId.greatest := fun id h => ChangeId.toNat_inj.mp (h.trans (by decide +kernel))
  constructor
  · obtain ⟨id, hid, ⟨ws, hparted, hread⟩, -⟩ :=
      read_compose_words (by decide) hdigits hlimit " _Größe__der\u00a0 x.sql_.sql "
    obtain rfl := hgreatest id hid
    obtain rfl := hparted.runs_eq
    have hwords : String.ofList (join [' '] (runs separates
        " _Größe__der\u00a0 x.sql_.sql ".toList)) = "Größe der x.sql .sql" := by decide +kernel
    rw [hread, hwords]
  · obtain ⟨id, hid, -, hsame⟩ :=
      read_compose_words (by decide) hdigits hlimit "Größe der x.sql .sql"
    obtain rfl := hgreatest id hid
    refine hsame ["Größe".toList, "der".toList, "x.sql".toList, ".sql".toList] ?_ ?_
    · simp [separates, isBlank]
    · decide +kernel

end ScriptName

end Migrations
