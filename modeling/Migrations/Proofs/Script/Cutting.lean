import Migrations.Proofs.Text.Line
import Migrations.Script.Statement

/-!
# Cutting Texts that Follow Each Other

What is carried from line to line while a text is cut into statements is the delimiter in force and
the text of the statement that is not ended yet.  A text that follows another one is cut in the
state that the first one leaves, so its statements are its own only when the first text has ended
all of its statements and the delimiter is the one that the second text expects.

## Main statements

- `StatementRules.fromLines_eq_run`: statements are what ended ones and the rest come to.
- `Cutting.run_trimRight`: blanks at the end of a text change nothing that is carried on.
- `Cutting.run_statement`: a statement with its delimiter takes along what was not ended before it.
- `StatementRules.glued_eq_iff`: it stands for itself just when nothing was left.
-/

namespace Migrations

open Text StatementRules

namespace StatementRules

theorem isComment_iff {trimmed : List Char} :
    isComment trimmed = true ↔ "--".toList <+: trimmed ∨ "//".toList <+: trimmed := by
  have hafter : ∀ p : List Char, after? p trimmed = none ↔ ¬ p <+: trimmed := by
    intro p
    rw [after?, ← List.isPrefixOf_iff_prefix]
    split <;> simp_all
  rw [isComment, Sections.afterOpener?, Option.isSome_iff_ne_none]
  split
  · rename_i rest hfirst
    have hdashes := mt (hafter ['-', '-']).mpr (by rw [hfirst]; exact Option.some_ne_none rest)
    simpa using .inl (Classical.not_not.mp hdashes)
  · rename_i hfirst
    rw [ne_eq, hafter, Classical.not_not]
    exact (or_iff_right ((hafter ['-', '-']).mp hfirst)).symm

theorem isComment_eq_false {trimmed : List Char} :
    isComment trimmed = false ↔ ¬ "--".toList <+: trimmed ∧ ¬ "//".toList <+: trimmed := by
  rw [← Bool.not_eq_true, isComment_iff, not_or]

/-- A line is no comment when it does not start like one after its blanks. -/
theorem isComment_trim {line : List Char}
    (h : ¬ "--".toList <+: trimLeft isBlank line ∧ ¬ "//".toList <+: trimLeft isBlank line) :
    isComment (trim line) = false := by
  obtain ⟨ws, -, hws⟩ := exists_trimRight (trimLeft isBlank line)
  have hpart : trim line <+: trimLeft isBlank line := ⟨ws, hws.symm⟩
  exact isComment_eq_false.mpr ⟨fun hopen => h.1 (hopen.trans hpart),
    fun hopen => h.2 (hopen.trans hpart)⟩

theorem directive?_eq_none {trimmed : List Char} (hcomment : isComment trimmed = false) :
    directive? trimmed = none := by
  rw [directive?, Option.not_isSome_iff_eq_none.mp (Bool.eq_false_iff.mp hcomment)]
  rfl

/-- A comment can only put a word in force. -/
theorem word_of_directive? {trimmed d : List Char} (h : directive? trimmed = some d) : Word d := by
  unfold directive? at h
  simp only [Option.bind_eq_bind, Option.bind_eq_some_iff] at h
  obtain ⟨opened, -, rest, -, h⟩ := h
  split at h
  · cases h
  · rename_i hsome
    cases h
    simp only [Bool.or_eq_true, not_or, List.isEmpty_iff] at hsome
    -- it is what comes before the next blank
    refine ⟨hsome.2, fun c hc => ?_⟩
    simpa using List.all_eq_true.mp List.all_takeWhile c hc

/-- A comment that starts with a digit puts no delimiter in force. -/
theorem directive?_numbered {c : Char} (hdigit : c.isDigit = true) (rest : List Char) :
    directive? ("-- ".toList ++ c :: rest) = none := by
  have hother : ∀ d : Char, d.isDigit = false → c ≠ d := by
    rintro d hd rfl
    rw [hdigit] at hd
    cases hd
  have hopened : Sections.afterOpener? ("-- ".toList ++ c :: rest) = some (' ' :: c :: rest) := rfl
  have hkept : trimLeft isBlank (c :: rest) = c :: rest :=
    List.dropWhile_cons_of_neg (by simp [isBlank_of_isDigit hdigit])
  have hgap : trimLeft isBlank (' ' :: c :: rest) = c :: rest := hkept
  have hslashes : after? ['/', '/'] (c :: rest) = none := by
    simp [after?, (hother '/' (by decide)).symm]
  have hword : afterWord? "@DELIMITER".toList (c :: rest) = none := by
    refine if_neg fun h => hother '@' (by decide) ?_
    have hfirst := (List.cons.inj h).1
    rwa [toUpper_of_isDigit hdigit] at hfirst
  rw [directive?, hopened]
  simp only [Option.bind_eq_bind, Option.bind_some, hgap, hslashes, Option.getD_none, hkept, hword,
    Option.bind_none]

end StatementRules

/-- The state between two lines of a text that is cut into statements. -/
structure Cutting where
  /-- What ends a statement. -/
  delimiter : List Char
  /-- The text of the statement that is not ended yet. -/
  collected : List Char

namespace Cutting

/-- The statements that a line ends, none or one, and the state after it. -/
def step (fullLine : Bool) (cutting : Cutting) (line : List Char) : List (List Char) × Cutting :=
  let trimmed := trim line
  if isComment trimmed then
    ([], { cutting with delimiter := (directive? trimmed).getD cutting.delimiter })
  else if ends fullLine cutting.delimiter trimmed then
    (flush (cutting.collected ++ (beforeLast cutting.delimiter line).getD []),
      { cutting with collected := [] })
  else if trimmed.isEmpty then ([], cutting)
  else ([], { cutting with collected := cutting.collected ++ line ++ ['\n'] })

/-- The statements that lines end, and the state after them. -/
def run (fullLine : Bool) (cutting : Cutting) : List (List Char) → List (List Char) × Cutting
  | [] => ([], cutting)
  | line :: rest =>
    let (done, next) := cutting.step fullLine line
    let (more, last) := next.run fullLine rest
    (done ++ more, last)

variable {fullLine : Bool} {cutting : Cutting}

theorem run_cons (line : List Char) (rest : List (List Char)) :
    cutting.run fullLine (line :: rest) =
      ((cutting.step fullLine line).1 ++ ((cutting.step fullLine line).2.run fullLine rest).1,
        ((cutting.step fullLine line).2.run fullLine rest).2) := rfl

theorem run_append (first second : List (List Char)) :
    cutting.run fullLine (first ++ second) =
      ((cutting.run fullLine first).1 ++
          ((cutting.run fullLine first).2.run fullLine second).1,
        ((cutting.run fullLine first).2.run fullLine second).2) := by
  induction first generalizing cutting with
  | nil => rfl
  | cons line rest ih => rw [List.cons_append, run_cons, run_cons, ih, List.append_assoc]

/-! ## Kinds of lines -/

theorem step_comment {line : List Char} (hcomment : isComment (trim line) = true) :
    cutting.step fullLine line =
      ([], ⟨(directive? (trim line)).getD cutting.delimiter, cutting.collected⟩) := by
  unfold step
  exact if_pos hcomment

/-- A line that ends a statement. -/
theorem step_ending {line : List Char} (hcomment : isComment (trim line) = false)
    (hends : ends fullLine cutting.delimiter (trim line) = true) :
    cutting.step fullLine line =
      (flush (cutting.collected ++ (beforeLast cutting.delimiter line).getD []),
        ⟨cutting.delimiter, []⟩) := by
  unfold step
  simp only [hcomment, hends, Bool.false_eq_true, if_false, if_true]

/-- A line in the middle of a statement. -/
theorem step_middle {line : List Char} (hcomment : isComment (trim line) = false)
    (hends : ends fullLine cutting.delimiter (trim line) = false)
    (hline : (trim line).isEmpty = false) :
    cutting.step fullLine line =
      ([], ⟨cutting.delimiter, cutting.collected ++ line ++ ['\n']⟩) := by
  unfold step
  simp only [hcomment, hends, hline, Bool.false_eq_true, if_false]

/-! ## Delimiters -/

theorem step_delimiter_eq (line : List Char) :
    (cutting.step fullLine line).2.delimiter =
      (directive? (trim line)).getD cutting.delimiter := by
  unfold step
  dsimp only
  split
  · rfl
  · rename_i hcomment
    rw [directive?_eq_none (Bool.eq_false_iff.mpr hcomment)]
    split
    · rfl
    · split <;> rfl

theorem word_step (hword : Word cutting.delimiter) (line : List Char) :
    Word (cutting.step fullLine line).2.delimiter := by
  rw [step_delimiter_eq]
  cases hdirective : directive? (trim line) with
  | none => exact hword
  | some d => exact word_of_directive? hdirective

theorem word_run (hword : Word cutting.delimiter) (lines : List (List Char)) :
    Word (cutting.run fullLine lines).2.delimiter := by
  induction lines generalizing cutting with
  | nil => exact hword
  | cons line rest ih => exact ih (word_step hword line)

/-! ## Blanks -/

theorem step_blank (hword : Word cutting.delimiter) {line : List Char}
    (hline : allBlank line = true) : cutting.step fullLine line = ([], cutting) := by
  have hends : ends fullLine cutting.delimiter [] = false := by
    unfold ends
    split
    · simpa using hword.ne_nil.symm
    · rw [occursIn, hword.beforeLast_blank rfl]
      rfl
  unfold step
  rw [trim_eq_nil.mpr hline]
  simp [hends, isComment, Sections.afterOpener?, after?]

theorem run_blanks (hword : Word cutting.delimiter) {blanks : List (List Char)}
    (hblanks : ∀ line ∈ blanks, allBlank line = true) :
    cutting.run fullLine blanks = ([], cutting) := by
  induction blanks with
  | nil => rfl
  | cons line rest ih =>
    rw [run_cons, step_blank hword (hblanks line List.mem_cons_self)]
    exact ih fun other hmem => hblanks other (List.mem_cons_of_mem _ hmem)

theorem run_blankLine (hword : Word cutting.delimiter) (rest : List Char) :
    cutting.run fullLine (lines ('\n' :: rest)) = cutting.run fullLine (lines rest) := by
  rw [lines_lineFeed, run_cons, step_blank hword rfl, List.nil_append]

/-- A state that carries on the same as another one, up to blanks. -/
structure Alike (cutting other : Cutting) : Prop where
  delimiter : cutting.delimiter = other.delimiter
  collected : trim cutting.collected = trim other.collected

/-- Blanks at the end of a line stay at the end of what is collected. -/
theorem step_append_blank (hword : Word cutting.delimiter) (line : List Char) {ws : List Char}
    (hws : allBlank ws = true) :
    (cutting.step fullLine (line ++ ws)).1 = (cutting.step fullLine line).1 ∧
      (cutting.step fullLine line).2.Alike (cutting.step fullLine (line ++ ws)).2 := by
  unfold step
  -- every decision is made on the trimmed line, so only a line that is collected keeps its blanks
  rw [trim_append_blank hws, hword.beforeLast_append_blank hws]
  dsimp only
  split
  · exact ⟨rfl, rfl, rfl⟩
  · split
    · exact ⟨rfl, rfl, rfl⟩
    · split
      · exact ⟨rfl, rfl, rfl⟩
      · have hmore : allBlank (ws ++ ['\n']) = true := by
          rw [allBlank_append, hws]
          rfl
        refine ⟨rfl, rfl, ?_⟩
        show trim (cutting.collected ++ line ++ ['\n']) =
          trim (cutting.collected ++ (line ++ ws) ++ ['\n'])
        rw [trim_append_blank rfl, ← List.append_assoc, List.append_assoc _ ws,
          trim_append_blank hmore]

/-- A text without the blanks at its end carries on the same. -/
theorem run_trimRight (hword : Word cutting.delimiter) (text : List Char) :
    ∃ after : Cutting, after.Alike (cutting.run fullLine (lines text)).2 ∧
      ∀ rest, cutting.run fullLine (lines (trimRight isBlank text ++ '\n' :: rest)) =
        ((cutting.run fullLine (lines text)).1 ++ (after.run fullLine (lines rest)).1,
          (after.run fullLine (lines rest)).2) := by
  by_cases hblank : allBlank text = true
  · -- nothing is left of a blank text but a blank line
    have hnone : trimRight isBlank text = [] := by
      have hgone := trimRight_append_blank hblank []
      rwa [List.nil_append] at hgone
    rw [run_blanks hword fun line => allBlank_of_mem_lines hblank]
    refine ⟨cutting, ⟨rfl, rfl⟩, fun rest => ?_⟩
    rw [hnone, List.nil_append, run_blankLine hword, List.nil_append]
  · obtain ⟨done, line, ws, blanks, hws, hblanks, htext, hlines⟩ :=
      lines_trimRight (Bool.not_eq_true _ ▸ hblank)
    have hdone := @word_run fullLine cutting hword done
    obtain ⟨hsame, halike⟩ := @step_append_blank fullLine _ hdone line ws hws
    -- the lines differ in the blanks of the last one alone, and blank lines after it do nothing
    rw [htext, run_append, run_cons, run_blanks (word_step hdone _) hblanks, hsame]
    refine ⟨_, halike, fun rest => ?_⟩
    rw [hlines, run_append, run_cons, List.append_nil, List.append_assoc]

/-! ## Statements that are put in -/

/-- A statement that can be put into a text with its delimiter: one line that is no comment and not
just one word. -/
structure Inserted (statement : List Char) : Prop where
  tight : Tight statement
  line : '\n' ∉ statement
  opening : ∀ more, isComment (statement ++ more) = false
  gap : ∃ c ∈ statement, isBlank c = true

/-- A statement by what it starts with and what it ends with. -/
theorem Inserted.of_ends {c : Char} {middle last : List Char} (hc : isBlank c = false)
    (hopening : ∀ more, isComment (c :: more) = false) (hgap : ' ' ∈ middle) (hlast : Tight last)
    (hmiddle : '\n' ∉ middle) (hend : '\n' ∉ last) : Inserted (c :: (middle ++ last)) where
  tight := hlast.cons_append hc middle
  line := by
    have hfirst : '\n' ≠ c := by
      rintro rfl
      exact absurd hc (by decide)
    simp [hfirst, hmiddle, hend]
  opening := fun more => hopening _
  gap := ⟨' ', by simp [hgap], by decide⟩

/-- The delimiter, on a line of its own where it has to be. -/
def ending (fullLine : Bool) (d : List Char) : List Char := if fullLine then '\n' :: d else d

variable {statement : List Char}

theorem flush_of_blank {ws : List Char} (hws : allBlank ws = true) : flush ws = [] := by
  simp [flush, trim_eq_nil.mpr hws]

theorem flush_append (htight : Tight statement) (front : List Char) :
    flush (front ++ statement) = [trim (front ++ statement)] := by
  have hne : trim (front ++ statement) ≠ [] := by
    rw [htight.trim_append]
    exact List.append_ne_nil_of_right_ne_nil _ htight.ne_nil
  simp [flush, hne]

/-- The delimiter at the end of a line. -/
theorem step_closed (hword : Word cutting.delimiter) {line : List Char}
    (hcomment : isComment (trim (line ++ cutting.delimiter)) = false) :
    cutting.step false (line ++ cutting.delimiter) =
      (flush (cutting.collected ++ line), ⟨cutting.delimiter, []⟩) := by
  have htrim := hword.tight.trim_append line
  rw [step_ending hcomment, beforeLast_append_self hword.ne_nil, Option.getD_some]
  rw [htrim, ends, if_neg Bool.false_ne_true, occursIn, beforeLast_append_self hword.ne_nil]
  rfl

/-- A statement and its delimiter on one line. -/
theorem step_inserted (hword : Word cutting.delimiter) (hstatement : Inserted statement) :
    cutting.step false (statement ++ cutting.delimiter) =
      ([trim (cutting.collected ++ statement)], ⟨cutting.delimiter, []⟩) := by
  rw [step_closed hword, flush_append hstatement.tight]
  rw [(hstatement.tight.append hword.tight).trim_eq]
  exact hstatement.opening _

/-- A statement on the line before the delimiter's one. -/
theorem step_inserted_line (hword : Word cutting.delimiter) (hstatement : Inserted statement) :
    cutting.step true statement =
      ([], ⟨cutting.delimiter, cutting.collected ++ statement ++ ['\n']⟩) := by
  have htrim := hstatement.tight.trim_eq
  -- the statement has a gap and the delimiter has none
  have hother : statement ≠ cutting.delimiter := by
    obtain ⟨c, hc, hblank⟩ := hstatement.gap
    rintro rfl
    rw [hword.solid c hc] at hblank
    cases hblank
  refine step_middle ?_ ?_ ?_
  · rw [htrim]
    have hopening := hstatement.opening []
    rwa [List.append_nil] at hopening
  · rw [htrim, ends, if_pos rfl]
    exact beq_false_of_ne hother
  · rw [htrim]
    exact List.isEmpty_eq_false_iff.mpr hstatement.tight.ne_nil

/-- The delimiter on a line of its own. -/
theorem step_delimiter (hword : Word cutting.delimiter)
    (hseen : isComment cutting.delimiter = false) :
    cutting.step true cutting.delimiter = (flush cutting.collected, ⟨cutting.delimiter, []⟩) := by
  have htrim := hword.tight.trim_eq
  have hnothing := beforeLast_append_self hword.ne_nil []
  rw [List.nil_append] at hnothing
  rw [step_ending, hnothing, Option.getD_some, List.append_nil]
  · rw [htrim]
    exact hseen
  · rw [htrim, ends, if_pos rfl]
    exact beq_self_eq_true _

/-- A statement with its delimiter takes along what was not ended before it. -/
theorem run_statement (hword : Word cutting.delimiter)
    (hseen : fullLine = true → isComment cutting.delimiter = false)
    (hstatement : Inserted statement) (rest : List Char) :
    cutting.run fullLine
        (lines (statement ++ ending fullLine cutting.delimiter ++ '\n' :: rest)) =
      (trim (cutting.collected ++ statement) ::
          ((Cutting.mk cutting.delimiter []).run fullLine (lines rest)).1,
        ((Cutting.mk cutting.delimiter []).run fullLine (lines rest)).2) := by
  -- the delimiter stands on the line of the statement or on the next one
  cases fullLine with
  | false =>
    have hline : '\n' ∉ statement ++ cutting.delimiter := by
      simp [hstatement.line, hword.lineFeed_notMem]
    rw [ending, if_neg Bool.false_ne_true,
      (hstatement.tight.append hword.tight).lines_lineFeed hline, run_cons,
      step_inserted hword hstatement]
    rfl
  | true =>
    have hflush : flush (cutting.collected ++ statement ++ ['\n']) =
        [trim (cutting.collected ++ statement)] := by
      rw [flush, trim_append_blank rfl, ← flush, flush_append hstatement.tight]
    have hend := @step_delimiter ⟨cutting.delimiter, cutting.collected ++ statement ++ ['\n']⟩
      hword (hseen rfl)
    rw [hflush] at hend
    rw [ending, if_pos rfl, List.append_assoc, List.cons_append,
      hstatement.tight.lines_lineFeed hstatement.line,
      hword.tight.lines_lineFeed hword.lineFeed_notMem, run_cons,
      step_inserted_line hword hstatement, run_cons, hend]
    rfl

end Cutting

namespace StatementRules

/-! ## Texts by their endings -/

variable {rules : StatementRules}

/-- The state before a text. -/
def start (rules : StatementRules) : Cutting := ⟨rules.delimiter.toList, []⟩

/-- The statements of a text that are ended, and the state at its end. -/
def cutting (rules : StatementRules) (text : String) : List (List Char) × Cutting :=
  rules.start.run rules.fullLine (lines text.toList)

/-- Every statement of the text is ended by the delimiter. -/
def Finishes (rules : StatementRules) (text : String) : Prop :=
  allBlank (rules.cutting text).2.collected = true

/-- The delimiter in force at the end of the text is the usual one. -/
def KeepsDelimiter (rules : StatementRules) (text : String) : Prop :=
  (rules.cutting text).2.delimiter = rules.delimiter.toList

instance (text : String) : Decidable (rules.Finishes text) :=
  inferInstanceAs (Decidable (_ = true))

instance (text : String) : Decidable (rules.KeepsDelimiter text) :=
  inferInstanceAs (Decidable (_ = _))

/-- The statements of lines are those that are ended and what is left at the end. -/
theorem fromLines_eq_run (fullLine : Bool) (cutting : Cutting) (lines : List (List Char)) :
    fromLines fullLine cutting.delimiter cutting.collected lines =
      (cutting.run fullLine lines).1 ++ flush (cutting.run fullLine lines).2.collected := by
  induction lines generalizing cutting with
  | nil => rfl
  | cons line rest ih =>
    rw [fromLines, Cutting.run_cons]
    dsimp only
    unfold Cutting.step
    dsimp only
    split
    · exact ih ⟨_, cutting.collected⟩
    · split
      · rw [List.append_assoc]
        exact congrArg _ (ih ⟨cutting.delimiter, []⟩)
      · split
        · exact ih cutting
        · exact ih ⟨cutting.delimiter, cutting.collected ++ line ++ ['\n']⟩

theorem map_statements (hpieces : rules.whole = false) (text : String) :
    (rules.statements text).map String.toList =
      (rules.cutting text).1 ++ flush (rules.cutting text).2.collected := by
  have hsame : String.toList ∘ String.ofList = id := funext fun _ => String.toList_ofList
  rw [statements, List.map_map, hsame, List.map_id, cut, if_neg (by simp [hpieces])]
  exact fromLines_eq_run _ rules.start _

/-- A statement that takes along what was left stands for itself just when nothing was. -/
theorem glued_eq_iff {statement left : List Char} (htight : Tight statement)
    {done more : List (List Char)} :
    trim (left ++ statement) :: done = flush left ++ statement :: more ↔
      allBlank left = true ∧ done = more := by
  rw [htight.trim_append]
  by_cases hleft : allBlank left = true
  · rw [trimLeft, dropWhile_blank hleft, Cutting.flush_of_blank hleft]
    simp [hleft]
  · have hsome : flush left = [trim left] := by simp [flush, trim_eq_nil, hleft]
    rw [hsome]
    refine ⟨fun h => ?_, fun h => absurd h.1 hleft⟩
    -- the statement would have to be empty
    have hhead : trimLeft isBlank left ++ statement = trim left := (List.cons.inj h).1
    obtain ⟨ws, -, hws⟩ := exists_trimRight (trimLeft isBlank left)
    have hlength := congrArg List.length hhead
    have hlonger := congrArg List.length hws
    have hpositive := List.length_pos_iff.mpr htight.ne_nil
    rw [← trim, List.length_append] at hlonger
    rw [List.length_append] at hlength
    omega

end StatementRules

end Migrations
