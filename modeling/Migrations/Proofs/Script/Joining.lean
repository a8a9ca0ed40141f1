import Migrations.Proofs.Script.Cutting
import Migrations.Proofs.Text.Occurrence

/-!
# Joining Statements

Cutting a text undoes joining: statements that are written one after the other, each with the
delimiter after it, come back as they were.  Their lines are collected one by one until the line of
the delimiter, where the delimiter is found at the end even if the statement ends with a part of it.

## Main statements

- `Cutting.run_middle`: the lines of a statement are collected as they are.
- `Cutting.run_closed`: a statement that is written with its delimiter comes back.
- `Cutting.run_open`: so does one without a delimiter at the end of the text.
- `StatementRules.statements_joined`: statements that are joined come back.
-/

namespace Migrations

open Text StatementRules

namespace StatementRules

variable {fullLine : Bool} {d : List Char}

/-! ## Statements that can be told apart -/

/-- A statement that a text can hold: it has no comment, no blank line and no delimiter in it, and
the line ends in it are line feeds. -/
structure Plain (fullLine : Bool) (d statement : List Char) : Prop where
  tight : Tight statement
  lineFeeds : '\r' ∉ statement
  written : ∀ line ∈ lines statement, allBlank line = false
  uncommented : ∀ line ∈ lines statement,
    ¬ "--".toList <+: trimLeft isBlank line ∧ ¬ "//".toList <+: trimLeft isBlank line
  undelimited : ∀ line ∈ lines statement, if fullLine then trim line ≠ d else ¬ d <:+: line

/-- The statement with the delimiter after it, and a line end. -/
def closed (fullLine : Bool) (d statement : List Char) : List Char :=
  statement ++ (Cutting.ending fullLine d ++ ['\n'])

/-- The text in which the statements follow each other, each with the delimiter after it. -/
def joined (rules : StatementRules) (statements : List String) : String :=
  String.ofList ((statements.map String.toList).flatMap
    (closed rules.fullLine rules.delimiter.toList))

/-- A delimiter that starts with no character of a comment opener makes no comment of what it is
put after. -/
theorem isComment_append {cs : List Char}
    (hplain : ¬ "--".toList <+: cs ∧ ¬ "//".toList <+: cs)
    (hdash : d.head? ≠ some '-') (hslash : d.head? ≠ some '/') : isComment (cs ++ d) = false := by
  -- the opener would go from the text into the delimiter, or be the start of it
  have hopener : ∀ c : Char, ¬ [c, c] <+: cs → d.head? ≠ some c → ¬ [c, c] <+: cs ++ d := by
    rintro c hnot hhead ⟨rest, hrest⟩
    match cs with
    | [] => exact hhead (congrArg List.head? hrest.symm)
    | [a] => exact hhead (congrArg List.head? (List.cons.inj hrest).2.symm)
    | a :: b :: more =>
      obtain ⟨rfl, hmore⟩ := List.cons.inj hrest
      obtain ⟨rfl, -⟩ := List.cons.inj hmore
      exact hnot ⟨more, rfl⟩
  exact isComment_eq_false.mpr ⟨hopener '-' hplain.1 hdash, hopener '/' hplain.2 hslash⟩

end StatementRules

namespace Cutting

variable {fullLine : Bool} {cutting : Cutting} {d line statement : List Char}

/-! ## Lines in the middle of a statement -/

/-- A line that is collected. -/
structure Middle (fullLine : Bool) (d line : List Char) : Prop where
  comment : isComment (trim line) = false
  ends : StatementRules.ends fullLine d (trim line) = false
  written : allBlank line = false

theorem run_middle {ls : List (List Char)}
    (hls : ∀ line ∈ ls, Middle fullLine cutting.delimiter line) :
    cutting.run fullLine ls = ([], ⟨cutting.delimiter, cutting.collected ++ unlines ls⟩) := by
  induction ls generalizing cutting with
  | nil =>
    rw [unlines, List.flatMap_nil, List.append_nil]
    rfl
  | cons line rest ih =>
    have hline := hls line List.mem_cons_self
    have hseen : (trim line).isEmpty = false := by
      rw [List.isEmpty_eq_false_iff, ne_eq, trim_eq_nil, hline.written]
      exact Bool.false_ne_true
    have hrest := @ih ⟨cutting.delimiter, cutting.collected ++ line ++ ['\n']⟩
      fun other hmem => hls other (List.mem_cons_of_mem _ hmem)
    rw [run_cons, step_middle hline.comment hline.ends hseen, hrest, unlines_cons]
    simp only [List.append_assoc, List.nil_append, List.singleton_append]

/-- No line of a plain statement ends it. -/
theorem Middle.of_plain (h : Plain fullLine d statement) (hline : line ∈ lines statement) :
    Middle fullLine d line where
  comment := isComment_trim (h.uncommented line hline)
  ends := by
    have hfree := h.undelimited line hline
    cases fullLine with
    | false =>
      obtain ⟨front, back, -, -, hparts⟩ := exists_trim line
      rw [StatementRules.ends, if_neg Bool.false_ne_true, ← Bool.not_eq_true, occursIn_iff]
      exact fun hpart => hfree (hpart.trans ⟨front, back, hparts.symm⟩)
    | true => exact beq_false_of_ne hfree
  written := h.written line hline

/-! ## Statements that come back -/

/-- A statement is what stands before its last line and that line. -/
theorem exists_plain_lines (h : Plain fullLine d statement) :
    ∃ done line, lines statement = done ++ [line] ∧ statement = unlines done ++ line := by
  refine exists_lines_eq h.tight.ne_nil (fun hlast => ?_) h.lineFeeds
  exact absurd (hlast ▸ h.tight.last) (by decide)

theorem unlines_lines (h : Plain fullLine d statement) :
    unlines (lines statement) = statement ++ ['\n'] := by
  obtain ⟨done, line, hlines, hstatement⟩ := exists_plain_lines h
  rw [hlines, unlines_concat, ← hstatement]

theorem flush_tight (htight : Tight statement) : flush statement = [statement] := by
  have hself := flush_append htight []
  rwa [List.nil_append, htight.trim_eq] at hself

/-- A statement whose lines are collected comes back. -/
theorem flush_lines (h : Plain fullLine d statement) :
    flush (unlines (lines statement)) = [statement] := by
  rw [unlines_lines h, flush, trim_append_blank rfl, ← flush, flush_tight h.tight]

theorem lineEnd_notMem (h : Plain fullLine d statement) :
    ∀ line ∈ lines statement, '\n' ∉ line ∧ '\r' ∉ line := fun _ hline =>
  ⟨lineFeed_notMem_of_mem_lines hline, fun hr => h.lineFeeds (mem_of_mem_lines hline hr)⟩

theorem run_lines (h : Plain fullLine d statement) :
    (Cutting.mk d []).run fullLine (lines statement) = ([], ⟨d, unlines (lines statement)⟩) :=
  run_middle fun _ => .of_plain h

/-- The last line of the statement ends with the delimiter, and what is collected with it is the
statement. -/
theorem run_closed_line (hword : Word d) (hdash : d.head? ≠ some '-')
    (hslash : d.head? ≠ some '/') (h : Plain false d statement) (rest : List Char) :
    (Cutting.mk d []).run false (lines (closed false d statement ++ rest)) =
      (statement :: ((Cutting.mk d []).run false (lines rest)).1,
        ((Cutting.mk d []).run false (lines rest)).2) := by
  obtain ⟨done, line, hlines, hstatement⟩ := exists_plain_lines h
  have hmem : line ∈ lines statement := by simp [hlines]
  have hdone : ∀ other ∈ done, other ∈ lines statement := fun other hother => by
    simp [hlines, hother]
  have hend : '\n' ∉ line ++ d ∧ '\r' ∉ line ++ d := by
    simp [lineEnd_notMem h line hmem, hword.lineEnd_notMem]
  have hall : lines (closed false d statement ++ rest) = done ++ (line ++ d) :: lines rest := by
    have hends := lines_unlines (fun other hother => lineEnd_notMem h other (hdone other hother))
      (line ++ d ++ '\n' :: rest)
    rw [lines_line hend.1 hend.2] at hends
    rw [← hends, closed, ending, if_neg Bool.false_ne_true, hstatement]
    simp only [List.append_assoc, List.singleton_append]
  have hcomment : isComment (trim (line ++ d)) = false := by
    rw [hword.tight.trim_append]
    exact isComment_append (h.uncommented line hmem) hdash hslash
  have hfirst : (Cutting.mk d []).run false done = ([], ⟨d, unlines done⟩) :=
    run_middle fun other hother => .of_plain h (hdone other hother)
  have hlast : (Cutting.mk d (unlines done)).step false (line ++ d) = ([statement], ⟨d, []⟩) := by
    rw [← flush_tight h.tight, hstatement]
    exact step_closed hword hcomment
  simp only [hall, run_append, hfirst, run_cons, hlast, List.nil_append, List.singleton_append]

/-- All lines of the statement are collected before the line of the delimiter. -/
theorem run_closed_fullLine (hword : Word d) (hdash : d.head? ≠ some '-')
    (hslash : d.head? ≠ some '/') (h : Plain true d statement) (rest : List Char) :
    (Cutting.mk d []).run true (lines (closed true d statement ++ rest)) =
      (statement :: ((Cutting.mk d []).run true (lines rest)).1,
        ((Cutting.mk d []).run true (lines rest)).2) := by
  have hall : lines (closed true d statement ++ rest) = lines statement ++ d :: lines rest := by
    have hends := lines_unlines (lineEnd_notMem h) (d ++ '\n' :: rest)
    rw [lines_line hword.lineEnd_notMem.1 hword.lineEnd_notMem.2, unlines_lines h] at hends
    rw [← hends, closed, ending, if_pos rfl]
    simp only [List.append_assoc, List.cons_append, List.nil_append]
  have hseen := @isComment_append d [] ⟨by decide, by decide⟩ hdash hslash
  have hlast : (Cutting.mk d (unlines (lines statement))).step true d = ([statement], ⟨d, []⟩) := by
    rw [← flush_lines h]
    exact step_delimiter hword hseen
  simp only [hall, run_append, run_lines h, run_cons, hlast, List.nil_append,
    List.singleton_append]

/-- A statement that is written with its delimiter comes back, whatever follows. -/
theorem run_closed (hword : Word d) (hdash : d.head? ≠ some '-') (hslash : d.head? ≠ some '/')
    (h : Plain fullLine d statement) (rest : List Char) :
    (Cutting.mk d []).run fullLine (lines (closed fullLine d statement ++ rest)) =
      (statement :: ((Cutting.mk d []).run fullLine (lines rest)).1,
        ((Cutting.mk d []).run fullLine (lines rest)).2) := by
  cases fullLine with
  | false => exact run_closed_line hword hdash hslash h rest
  | true => exact run_closed_fullLine hword hdash hslash h rest

theorem run_joined (hword : Word d) (hdash : d.head? ≠ some '-') (hslash : d.head? ≠ some '/')
    {statements : List (List Char)} (hplain : ∀ statement ∈ statements, Plain fullLine d statement)
    (rest : List Char) :
    (Cutting.mk d []).run fullLine (lines (statements.flatMap (closed fullLine d) ++ rest)) =
      (statements ++ ((Cutting.mk d []).run fullLine (lines rest)).1,
        ((Cutting.mk d []).run fullLine (lines rest)).2) := by
  induction statements with
  | nil => rfl
  | cons statement more ih =>
    have hmore := ih fun other hmem => hplain other (List.mem_cons_of_mem _ hmem)
    rw [List.flatMap_cons, List.append_assoc,
      run_closed hword hdash hslash (hplain statement List.mem_cons_self), hmore]
    rfl

/-- A statement without its delimiter is still collected at the end of the text. -/
theorem run_open (hword : Word d) (h : Plain fullLine d statement) {ws : List Char}
    (hws : allBlank ws = true) :
    ((Cutting.mk d []).run fullLine (lines (statement ++ ws))).1 = [] ∧
      flush ((Cutting.mk d []).run fullLine (lines (statement ++ ws))).2.collected =
        [statement] := by
  -- it is carried on like the statement with a line end alone, whose lines are all collected
  obtain ⟨after, halike, hrun⟩ := @run_trimRight fullLine ⟨d, []⟩ hword (statement ++ ws)
  have hstatement : trimRight isBlank (statement ++ ws) = statement := by
    rw [trimRight_append_blank hws]
    exact h.tight.trimRight_append []
  have hlines : lines (statement ++ ['\n']) = lines statement := by
    have hall := lines_unlines (lineEnd_notMem h) []
    rwa [List.append_nil, unlines_lines h, lines_eq_nil.mpr rfl, List.append_nil] at hall
  have hend := hrun []
  rw [hstatement, hlines, run_lines h] at hend
  obtain ⟨hdone, hafter⟩ := Prod.mk.inj hend
  have hcollected : after.collected = unlines (lines statement) := by
    simpa [run, lines_eq_nil.mpr] using congrArg collected hafter.symm
  constructor
  · exact (List.append_eq_nil_iff.mp hdone.symm).1
  · rw [flush, ← halike.collected, ← flush, hcollected, flush_lines h]

end Cutting

namespace StatementRules

variable {rules : StatementRules}

theorem cutting_joined (hword : Word rules.delimiter.toList)
    (hdash : rules.delimiter.toList.head? ≠ some '-')
    (hslash : rules.delimiter.toList.head? ≠ some '/') {statements : List String}
    (hplain : ∀ statement ∈ statements,
      Plain rules.fullLine rules.delimiter.toList statement.toList) (rest : String) :
    rules.cutting (rules.joined statements ++ rest) =
      (statements.map String.toList ++ (rules.cutting rest).1, (rules.cutting rest).2) := by
  rw [cutting, joined, String.toList_append, String.toList_ofList]
  refine Cutting.run_joined hword hdash hslash (fun statement hmem => ?_) rest.toList
  obtain ⟨text, htext, rfl⟩ := List.mem_map.mp hmem
  exact hplain text htext

/-- Statements that are written with their delimiters come back, and so they do without the last
delimiter, whatever blanks are left there. -/
theorem statements_joined {statements : List String} (hpieces : rules.whole = false)
    (hword : Word rules.delimiter.toList) (hdash : rules.delimiter.toList.head? ≠ some '-')
    (hslash : rules.delimiter.toList.head? ≠ some '/')
    (hplain : ∀ statement ∈ statements,
      Plain rules.fullLine rules.delimiter.toList statement.toList) :
    rules.statements (rules.joined statements) = statements ∧
    ∀ init last blanks, statements = init ++ [last] → allBlank blanks.toList = true →
      rules.statements (rules.joined init ++ last ++ blanks) = statements := by
  have hinjective : ∀ {texts others : List String},
      texts.map String.toList = others.map String.toList → texts = others :=
    (List.map_inj_right fun _ _ => String.toList_inj.mp).mp
  refine ⟨hinjective ?_, fun init last blanks hstatements hblanks => hinjective ?_⟩
  · have hall := cutting_joined hword hdash hslash hplain ""
    rw [String.append_empty] at hall
    rw [map_statements hpieces, hall]
    exact (List.append_nil _).trans (List.append_nil _)
  · subst hstatements
    have hinit := cutting_joined hword hdash hslash
      (fun statement hmem => hplain statement (List.mem_append_left _ hmem)) (last ++ blanks)
    have hlast := hplain last (List.mem_append_right _ List.mem_cons_self)
    obtain ⟨hdone, hflush⟩ : (rules.cutting (last ++ blanks)).1 = [] ∧
        flush (rules.cutting (last ++ blanks)).2.collected = [last.toList] := by
      rw [cutting, String.toList_append]
      exact Cutting.run_open hword hlast hblanks
    rw [map_statements hpieces, String.append_assoc, hinit, List.map_append]
    simp only [hdone, hflush, List.append_nil, List.map_cons, List.map_nil]

/-- A statement over several lines, the last of which could start the delimiter, and another one. -/
theorem statements_joined_lines :
    let rules : StatementRules := { delimiter := "$$" }
    let statements := ["CREATE TABLE t (\n  id INT,\n\tname TEXT) $", "INSERT INTO t VALUES (1)"]
    rules.joined statements =
      "CREATE TABLE t (\n  id INT,\n\tname TEXT) $$$\nINSERT INTO t VALUES (1)$$\n" ∧
    rules.statements (rules.joined statements) = statements ∧
    rules.statements
      "CREATE TABLE t (\n  id INT,\n\tname TEXT) $$$\nINSERT INTO t VALUES (1) \n\n" =
        statements := by
  intro rules statements
  have hplain : ∀ statement ∈ statements,
      Plain rules.fullLine rules.delimiter.toList statement.toList := by
    refine List.forall_mem_cons.mpr ⟨?_, List.forall_mem_singleton.mpr ?_⟩ <;>
      exact ⟨⟨by decide +kernel, by decide +kernel, by decide +kernel⟩, by decide +kernel,
        by decide +kernel, by decide +kernel, by decide +kernel⟩
  have hback := @statements_joined rules statements rfl (by decide +kernel)
    (by decide +kernel) (by decide +kernel) hplain
  have hopen := hback.2 ["CREATE TABLE t (\n  id INT,\n\tname TEXT) $"] "INSERT INTO t VALUES (1)"
    " \n\n" rfl (by decide +kernel)
  have htext : rules.joined ["CREATE TABLE t (\n  id INT,\n\tname TEXT) $"] ++
      "INSERT INTO t VALUES (1)" ++ " \n\n" =
        "CREATE TABLE t (\n  id INT,\n\tname TEXT) $$$\nINSERT INTO t VALUES (1) \n\n" := by
    decide +kernel
  rw [htext] at hopen
  exact ⟨by decide +kernel, hback.1, hopen⟩

end StatementRules

end Migrations
