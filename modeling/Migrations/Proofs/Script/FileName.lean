import Migrations.Proofs.Text.Numeral
import Migrations.Proofs.Text.Pieces
import Migrations.Script.FileName

/-!
# Texts in Script File Names

What can stand in the name of a script that was read: a digit comes first, and the description has
no characters but blanks that the name does not have.  A name that is composed of an id and a
description is read back as the id and the words of the description, where an underscore is not part
of a word.

## Main statements

- `ScriptName.read_digit`: the name starts with a digit.
- `ScriptName.mem_description`: where the characters of the description come from.
- `ScriptName.read_compose`: reading a name that was composed.
- `ScriptName.isNumbered_compose`: such a name is the name of a numbered script.
-/

namespace Migrations

namespace Text

theorem eq_append_of_after? {p cs rest : List Char} (h : after? p cs = some rest) :
    cs = p ++ rest := by
  unfold after? at h
  split at h
  · rename_i hstarts
    obtain ⟨more, rfl⟩ := List.isPrefixOf_iff_prefix.mp hstarts
    rw [← Option.some.inj h, List.drop_left]
  · cases h

theorem eq_append_of_before? {s cs front : List Char} (h : before? s cs = some front) :
    cs = front ++ s := by
  obtain ⟨back, hback, rfl⟩ := Option.map_eq_some_iff.mp h
  rw [← List.reverse_reverse cs, eq_append_of_after? hback, List.reverse_append,
    List.reverse_reverse]

theorem before?_append (front s : List Char) : before? s (front ++ s) = some front := by
  have hstarts : s.reverse.isPrefixOf (s.reverse ++ front.reverse) = true :=
    List.isPrefixOf_iff_prefix.mpr (List.prefix_append _ _)
  rw [before?, List.reverse_append, after?, if_pos hstarts, List.drop_left, Option.map_some,
    List.reverse_reverse]

theorem mem_of_mem_pieces {p : Char → Bool} {cs w : List Char} {c : Char} (hw : w ∈ pieces p cs)
    (hc : c ∈ w) : c ∈ cs := by
  induction cs generalizing w with
  | nil =>
    rw [List.mem_singleton.mp hw] at hc
    cases hc
  | cons d cs ih =>
    rw [pieces] at hw
    split at hw
    · rcases List.mem_cons.mp hw with rfl | hw
      · cases hc
      · exact List.mem_cons_of_mem _ (ih hw hc)
    · split at hw
      · rw [List.mem_singleton.mp hw] at hc
        rw [List.mem_singleton.mp hc]
        exact List.mem_cons_self
      · rename_i first others hpieces
        rw [hpieces] at ih
        -- the character is in front of the first piece, the other pieces are the same
        rcases List.mem_cons.mp hw with rfl | hw
        · rcases List.mem_cons.mp hc with rfl | hc
          · exact List.mem_cons_self
          · exact List.mem_cons_of_mem _ (ih List.mem_cons_self hc)
        · exact List.mem_cons_of_mem _ (ih (List.mem_cons_of_mem _ hw) hc)

/-- The first piece starts the text. -/
theorem exists_of_pieces_eq {p : Char → Bool} {cs w : List Char} {ws : List (List Char)} {c : Char}
    (h : pieces p cs = (c :: w) :: ws) : ∃ rest, cs = c :: rest := by
  cases cs with
  | nil => cases h
  | cons d cs =>
    rw [pieces] at h
    split at h
    · cases h
    · split at h <;> cases h <;> exact ⟨_, rfl⟩

theorem mem_join {sep : List Char} {ws : List (List Char)} {c : Char} (h : c ∈ join sep ws) :
    c ∈ sep ∨ ∃ w ∈ ws, c ∈ w := by
  induction ws with
  | nil => cases h
  | cons w ws ih =>
    -- a separator only stands before another text
    cases ws with
    | nil => exact .inr ⟨w, List.mem_cons_self, h⟩
    | cons v vs =>
      rw [join, List.append_assoc, List.mem_append, List.mem_append] at h
      · rcases h with h | h | h
        · exact .inr ⟨w, List.mem_cons_self, h⟩
        · exact .inl h
        · rcases ih h with h | ⟨u, hu, hc⟩
          · exact .inl h
          · exact .inr ⟨u, List.mem_cons_of_mem _ hu, hc⟩
      · exact fun hnil => nomatch hnil

theorem mem_of_mem_runs {p : Char → Bool} {cs w : List Char} {c : Char} (hw : w ∈ runs p cs)
    (hc : c ∈ w) : c ∈ cs := mem_of_mem_pieces (List.mem_filter.mp hw).1 hc

end Text

namespace ScriptName

open Text

variable {name description : String} {id : ChangeId}

/-- The parts of a name. -/
theorem read_eq_ok (h : read name = .ok (id, description)) :
    ∃ stem first parts, name.toList = stem ++ extension.toList ∧
      pieces (· == '_') stem = first :: parts ∧ ChangeId.ofText? (String.ofList first) = some id ∧
      description.toList = join [' '] (parts.filter (fun part => !part.isEmpty)) := by
  unfold read at h
  split at h
  · cases h
  · rename_i stem hstem
    split at h
    · cases h
    · rename_i first parts hpieces
      dsimp only at h
      split at h
      · cases h
      · -- the first piece is the id
        rename_i found hfound
        cases h
        exact ⟨stem, first, parts, eq_append_of_before? hstem, hpieces, hfound,
          String.toList_ofList⟩

theorem read_digit (h : read name = .ok (id, description)) :
    ∃ c rest, name.toList = c :: rest ∧ c.isDigit = true := by
  obtain ⟨stem, first, parts, hname, hpieces, hid, -⟩ := read_eq_ok h
  have hnumeral := (ChangeId.ofText?_eq_some.mp hid).1
  rw [String.toList_ofList] at hnumeral
  obtain ⟨hne, hdigits⟩ := isDigit_of_numeral? hnumeral
  cases first with
  | nil => exact absurd rfl hne
  | cons c w =>
    obtain ⟨rest, rfl⟩ := exists_of_pieces_eq hpieces
    exact ⟨c, rest ++ extension.toList, hname, hdigits c List.mem_cons_self⟩

/-- The description has the characters of the name and blanks. -/
theorem mem_description (h : read name = .ok (id, description)) {c : Char}
    (hc : c ∈ description.toList) : c = ' ' ∨ c ∈ name.toList := by
  obtain ⟨stem, first, parts, hname, hpieces, -, hdescription⟩ := read_eq_ok h
  rw [hdescription] at hc
  rcases mem_join hc with hc | ⟨part, hpart, hc⟩
  · exact .inl (List.mem_singleton.mp hc)
  · have hmem : part ∈ pieces (· == '_') stem := by
      rw [hpieces]
      exact List.mem_cons_of_mem _ (List.mem_filter.mp hpart).1
    rw [hname]
    exact .inr (List.mem_append_left _ (mem_of_mem_pieces hmem hc))

/-- The name can be seen from its first character to its last one. -/
theorem tight_of_read (h : read name = .ok (id, description)) : Tight name.toList := by
  obtain ⟨stem, first, parts, hname, -, -, -⟩ := read_eq_ok h
  obtain ⟨c, rest, hfirst, hdigit⟩ := read_digit h
  refine ⟨by simp [hfirst], ?_, ?_⟩
  · simp only [hfirst, List.head_cons]
    exact isBlank_of_isDigit hdigit
  · simp only [hname]
    rw [List.getLast_append_of_ne_nil _ (by decide)]
    decide

/-! ## Composed names -/

variable {text : String}

/-- What is read of a description that a name was composed of: the maximal runs of characters that
are neither blank nor underscores, with single blanks between them. -/
def title (description : String) : String :=
  String.ofList (join [' '] (runs (fun c => isBlank c || c == '_') description.toList))

theorem toList_compose (text description : String) :
    (compose text description).toList =
      join ['_'] (text.toList :: words description.toList) ++ extension.toList := by
  unfold compose
  cases hwords : words description.toList with
  | nil => exact String.toList_append
  | cons w ws =>
    have hslug : (join ['_'] (w :: ws)).isEmpty = false := by
      have hw : w ≠ [] := ne_nil_of_mem_runs (hwords ▸ List.mem_cons_self)
      cases ws with
      | nil => exact List.isEmpty_eq_false_iff.mpr hw
      | cons v vs =>
        exact List.isEmpty_eq_false_iff.mpr fun h =>
          hw (List.append_eq_nil_iff.mp (List.append_eq_nil_iff.mp h).1).1
    simp only [hslug, Bool.false_eq_true, if_false, String.toList_append, String.toList_ofList]
    rfl

/-- Reading a name that was composed gives the id and the words of the description. -/
theorem read_compose (hid : ChangeId.ofText? text = some id) (description : String) :
    read (compose text description) = .ok (id, title description) := by
  -- there is no underscore in the text of an id, so the id is the first piece
  have hdigits := (isDigit_of_numeral? (ChangeId.ofText?_eq_some.mp hid).1).2
  have hfirst : pieces (· == '_') text.toList = [text.toList] := by
    refine pieces_eq_singleton fun c hc => ?_
    rw [beq_eq_false_iff_ne]
    rintro rfl
    exact absurd (hdigits '_' hc) (by decide)
  have hpieces : pieces (· == '_') (join ['_'] (text.toList :: words description.toList)) =
      text.toList :: (words description.toList).flatMap (pieces (· == '_')) := by
    rw [pieces_join rfl, List.flatMap_cons, hfirst]
    rfl
  -- the other pieces are those of the words, cut at underscores
  have hparts : ((words description.toList).flatMap (pieces (· == '_'))).filter
      (fun part => !part.isEmpty) = runs (fun c => isBlank c || c == '_') description.toList := by
    rw [runs_or, List.filter_flatMap]
    rfl
  rw [read, toList_compose, before?_append]
  simp only [hpieces, String.ofList_toList, hid, hparts]
  rfl

/-- A composed name is none that does not start with a digit. -/
theorem compose_ne (hid : ChangeId.ofText? text = some id) {description other : String}
    (hother : (other.toList.head?.all fun c => !c.isDigit) = true) :
    compose text description ≠ other := by
  rintro rfl
  obtain ⟨c, rest, hname, hdigit⟩ := read_digit (read_compose hid description)
  rw [hname] at hother
  simp [hdigit] at hother

/-- So it is neither of the names that are reserved. -/
theorem isNumbered_compose (hid : ChangeId.ofText? text = some id) (description : String) :
    isNumbered (compose text description) = true := by
  have hbootstrap : compose text description ≠ bootstrap := compose_ne hid (by decide)
  have honAbort : compose text description ≠ onAbort := compose_ne hid (by decide)
  rw [isNumbered, toList_compose, before?_append]
  simp [hbootstrap, honAbort]

/-- The names of numbered scripts are the names with the extension, apart from the reserved ones. -/
theorem isNumbered_iff : isNumbered name = true ↔
    (∃ stem, name = stem ++ extension) ∧ name ≠ bootstrap ∧ name ≠ onAbort := by
  have hends : (before? extension.toList name.toList).isSome = true ↔
      ∃ stem, name = stem ++ extension := by
    rw [Option.isSome_iff_exists]
    constructor
    · rintro ⟨stem, hstem⟩
      refine ⟨String.ofList stem, String.toList_inj.mp ?_⟩
      rw [eq_append_of_before? hstem, String.toList_append, String.toList_ofList]
    · rintro ⟨stem, rfl⟩
      exact ⟨stem.toList, by rw [String.toList_append, before?_append]⟩
  rw [isNumbered, Bool.and_eq_true, Bool.and_eq_true, hends, decide_eq_true_iff,
    decide_eq_true_iff, and_assoc]

/-- A character of a composed name that is not in the description. -/
theorem mem_compose {description : String} {c : Char}
    (hid : ChangeId.ofText? text = some id) (h : c ∈ (compose text description).toList) :
    c.isDigit = true ∨ c ∈ description.toList ∨ c = '_' ∨ c ∈ extension.toList := by
  rw [toList_compose, List.mem_append] at h
  rcases h with h | h
  · rcases mem_join h with h | ⟨w, hw, hc⟩
    · exact .inr (.inr (.inl (List.mem_singleton.mp h)))
    · rcases List.mem_cons.mp hw with rfl | hw
      · exact .inl ((isDigit_of_numeral? (ChangeId.ofText?_eq_some.mp hid).1).2 c hc)
      · exact .inr (.inl (mem_of_mem_runs hw hc))
  · exact .inr (.inr (.inr h))

/-- Blanks at the ends of a description are not read. -/
theorem title_trim (description : String) :
    title (String.ofList (trim description.toList)) = title description := by
  have hblank : ∀ c, isBlank c = true → (isBlank c || c == '_') = true := by
    intro c hc
    rw [hc, Bool.true_or]
  rw [title, title, String.toList_ofList, runs_trim hblank]

end ScriptName

end Migrations
