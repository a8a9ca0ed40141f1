import Mathlib.Data.List.Basic
import Migrations.Proofs.Script.Cutting
import Migrations.Proofs.Text.Occurrence

/-!
# What Cutting Keeps

A text without comments is cut into statements line by line.  What the statements say, apart from
delimiters and blanks, is what is kept of the lines: of a line that ends a statement that is only
what stands before the last delimiter.  So nothing is lost exactly as long as nothing follows the
delimiter on its line, and text that does follow it is in no statement.

## Main statements

- `StatementRules.exists_of_ends`: the three parts of a line that ends a statement.
- `Cutting.run_content`: what lines say is in the statements that they end or is still collected.
- `StatementRules.content_statements`: what the statements of a text say, and when it is all.
- `StatementRules.content_dropped`: a text of which a part is lost.
-/

namespace Migrations

open Text StatementRules

namespace StatementRules

variable {fullLine : Bool} {d line : List Char}

/-! ## The parts of a line -/

/-- What is kept of a line: of one that ends a statement what stands before the last delimiter. -/
def kept (fullLine : Bool) (d line : List Char) : List Char :=
  if ends fullLine d (trim line) then (beforeLast d line).getD [] else line

/-- What is dropped of a line: of one that ends a statement what stands after the delimiter. -/
def dropped (fullLine : Bool) (d line : List Char) : List Char :=
  if ends fullLine d (trim line) then line.drop ((kept fullLine d line).length + d.length) else []

/-- A line that ends a statement is what is kept of it, the delimiter and what is dropped. -/
theorem exists_of_ends (h : ends fullLine d (trim line) = true) :
    line = kept fullLine d line ++ (d ++ dropped fullLine d line) ∧
      (d ≠ [] → ¬ d <:+: (d ++ dropped fullLine d line).tail) := by
  have hpart : d <:+: trim line := by
    cases fullLine with
    | false => exact occursIn_iff.mp h
    | true =>
      obtain rfl : trim line = d := beq_iff_eq.mp h
      exact List.infix_refl _
  obtain ⟨before, after, -, -, hline⟩ := exists_trim line
  have hoccurs : d <:+: line := hline ▸ hpart.trans ⟨before, after, rfl⟩
  obtain ⟨front, hfront⟩ := Option.isSome_iff_exists.mp (occursIn_iff.mpr hoccurs)
  obtain ⟨tail, hparts, htail⟩ := exists_beforeLast hfront
  have hkept : kept fullLine d line = front := by rw [kept, if_pos h, hfront, Option.getD_some]
  have hdropped : dropped fullLine d line = tail := by
    rw [dropped, if_pos h, hkept, hparts, ← List.length_append, List.drop_left]
  rw [hkept, hdropped, ← List.append_assoc]
  exact ⟨hparts, htail⟩

theorem kept_of_not_ends (h : ends fullLine d (trim line) = false) :
    kept fullLine d line = line := by
  rw [kept, if_neg (Bool.eq_false_iff.mp h)]

theorem dropped_of_not_ends (h : ends fullLine d (trim line) = false) :
    dropped fullLine d line = [] := by
  rw [dropped, if_neg (Bool.eq_false_iff.mp h)]

/-- What a line says is as long as what is kept and what is dropped of it say. -/
theorem length_substance_line (hword : Word d) (line : List Char) :
    (substance d line).length = (substance d (kept fullLine d line)).length +
      (substance d (dropped fullLine d line)).length := by
  cases hends : ends fullLine d (trim line) with
  | false =>
    rw [kept_of_not_ends hends, dropped_of_not_ends hends]
    rfl
  | true =>
    obtain ⟨hline, htail⟩ := exists_of_ends hends
    conv => lhs; rw [hline]
    exact hword.length_substance_cut (htail hword.ne_nil) _

/-- Nothing is said by what is dropped just when it is blank: there is no other delimiter in it. -/
theorem substance_dropped (hword : Word d) (line : List Char) :
    substance d (dropped fullLine d line) = [] ↔ allBlank (dropped fullLine d line) = true := by
  cases hends : ends fullLine d (trim line) with
  | false =>
    rw [dropped_of_not_ends hends]
    exact ⟨fun _ => rfl, fun _ => rfl⟩
  | true =>
    obtain ⟨c, rest, hd⟩ := List.exists_cons_of_ne_nil hword.ne_nil
    have htail := (exists_of_ends hends).2 hword.ne_nil
    refine substance_eq_nil fun h => htail (h.trans (List.IsSuffix.isInfix ⟨rest, ?_⟩))
    simp [hd]

/-- Where what is kept of a line says what the line says, nothing else was dropped. -/
theorem allBlank_dropped (hword : Word d)
    (hall : substance d (kept fullLine d line) = substance d line) :
    allBlank (dropped fullLine d line) = true := by
  have hlength := @length_substance_line fullLine d hword line
  rw [hall] at hlength
  exact (substance_dropped hword line).mp (List.eq_nil_of_length_eq_zero (by omega))

/-- With a delimiter that fills its line nothing else is on the line. -/
theorem substance_kept_fullLine (hword : Word d) (line : List Char) :
    substance d (kept true d line) = substance d line := by
  cases hends : ends true d (trim line) with
  | false => rw [kept_of_not_ends hends]
  | true =>
    have htrim : trim line = d := beq_iff_eq.mp hends
    obtain ⟨front, back, hfront, hback, hline⟩ := exists_trim line
    rw [htrim] at hline
    have hlast : beforeLast d line = some front := by
      rw [hline, hword.beforeLast_append_blank hback, beforeLast_append_self hword.ne_nil]
    have hnothing : substance d d = [] := by
      have hself := substance_self_append hword.ne_nil []
      rwa [List.append_nil] at hself
    rw [kept, if_pos hends, hlast, Option.getD_some, hword.substance_of_blank hfront,
      ← hword.substance_trim, htrim, hnothing]

/-- When occurrences do not overlap and what is dropped is blank, what is kept says everything. -/
theorem substance_kept_apart (hword : Word d) (hapart : Apart d)
    (hblank : allBlank (dropped fullLine d line) = true) :
    substance d (kept fullLine d line) = substance d line := by
  cases hends : ends fullLine d (trim line) with
  | false => rw [kept_of_not_ends hends]
  | true =>
    calc substance d (kept fullLine d line)
        = substance d (kept fullLine d line) ++ substance d (dropped fullLine d line) := by
          rw [hword.substance_of_blank hblank, List.append_nil]
      _ = substance d (kept fullLine d line ++ (d ++ dropped fullLine d line)) :=
          (hword.substance_cut hapart _ _).symm
      _ = substance d line := by rw [← (exists_of_ends hends).1]

end StatementRules

namespace Cutting

variable {fullLine : Bool} {d : List Char} {cutting : Cutting}

/-! ## What is carried on -/

theorem content_flush (hword : Word d) (collected : List Char) :
    content d (flush collected) = substance d collected := by
  rw [← hword.substance_trim, flush]
  split
  · rename_i hnone
    rw [List.isEmpty_iff.mp hnone]
    rfl
  · exact List.append_nil _

/-- No occurrence goes from what is collected into what is put after it. -/
def Sealed (d collected : List Char) : Prop :=
  ∀ more, substance d (collected ++ more) = substance d collected ++ substance d more

theorem sealed_nil : Sealed d [] := fun _ => rfl

theorem sealed_line (hword : Word d) (collected : List Char) : Sealed d (collected ++ ['\n']) := by
  intro more
  have hline : substance d (collected ++ ['\n']) = substance d collected :=
    hword.substance_append_blank rfl collected
  rw [hline, List.append_assoc]
  exact hword.substance_blank (by decide) collected more

/-- What is kept of a line goes into the statement that it ends or to what is collected. -/
theorem step_content {line : List Char} (hword : Word cutting.delimiter)
    (hsealed : Sealed cutting.delimiter cutting.collected)
    (hcomment : isComment (trim line) = false) :
    content cutting.delimiter (cutting.step fullLine line).1 ++
        substance cutting.delimiter (cutting.step fullLine line).2.collected =
      substance cutting.delimiter cutting.collected ++
        substance cutting.delimiter (kept fullLine cutting.delimiter line) ∧
    Sealed cutting.delimiter (cutting.step fullLine line).2.collected ∧
    (cutting.step fullLine line).2.delimiter = cutting.delimiter := by
  cases hends : ends fullLine cutting.delimiter (trim line) with
  | true =>
    rw [step_ending hcomment hends, kept, if_pos hends]
    refine ⟨?_, sealed_nil, rfl⟩
    show content _ _ ++ [] = _
    rw [List.append_nil, content_flush hword, hsealed]
  | false =>
    rw [kept_of_not_ends hends]
    by_cases hline : trim line = []
    -- a blank line says nothing and is left out
    · have hblank := trim_eq_nil.mp hline
      rw [step_blank hword hblank, hword.substance_of_blank hblank, List.append_nil]
      exact ⟨rfl, hsealed, rfl⟩
    · rw [step_middle hcomment hends (List.isEmpty_eq_false_iff.mpr hline)]
      refine ⟨?_, sealed_line hword _, rfl⟩
      show [] ++ substance _ (cutting.collected ++ line ++ ['\n']) = _
      rw [List.nil_append, hword.substance_append_blank rfl, hsealed]

/-- What is kept of lines is in the statements that they end or is still collected. -/
theorem run_content {ls : List (List Char)} (hword : Word cutting.delimiter)
    (hsealed : Sealed cutting.delimiter cutting.collected)
    (hcomments : ∀ line ∈ ls, isComment (trim line) = false) :
    content cutting.delimiter (cutting.run fullLine ls).1 ++
        substance cutting.delimiter (cutting.run fullLine ls).2.collected =
      substance cutting.delimiter cutting.collected ++
        content cutting.delimiter (ls.map (kept fullLine cutting.delimiter)) := by
  induction ls generalizing cutting with
  | nil => exact (List.append_nil _).symm
  | cons line rest ih =>
    obtain ⟨hline, hnext, hsame⟩ := @step_content fullLine cutting line hword hsealed
      (hcomments line List.mem_cons_self)
    -- the delimiter stays in force, so the rest is cut with the same one
    have hrest := ih (hsame ▸ hword) (hsame ▸ hnext)
      fun other hmem => hcomments other (List.mem_cons_of_mem _ hmem)
    rw [hsame] at hrest
    rw [run_cons, List.map_cons, content_append, List.append_assoc, hrest, ← List.append_assoc,
      hline, List.append_assoc]
    rfl

end Cutting

namespace StatementRules

variable {rules : StatementRules}

/-! ## The statements of a text -/

theorem content_flatMap_lines {d : List Char} (hword : Word d) (texts : List String) :
    content d (texts.flatMap fun text => lines text.toList) =
      content d (texts.map String.toList) := by
  rw [content, content, List.flatMap_assoc, List.flatMap_map]
  exact List.flatMap_congr fun text _ => hword.content_lines text.toList

section Parts

variable {α : Type} {f g : α → List Char} {xs : List α}

theorem length_flatMap_le (hle : ∀ x ∈ xs, (f x).length ≤ (g x).length) :
    (xs.flatMap f).length ≤ (xs.flatMap g).length := by
  induction xs with
  | nil => exact Nat.le_refl _
  | cons x xs ih =>
    have hx := hle x List.mem_cons_self
    have hrest := ih fun y hy => hle y (List.mem_cons_of_mem _ hy)
    rw [List.flatMap_cons, List.flatMap_cons, List.length_append, List.length_append]
    exact Nat.add_le_add hx hrest

/-- Parts that are no longer than others make up the same text only when they are the same. -/
theorem forall_eq_of_flatMap_eq (hle : ∀ x ∈ xs, (f x).length ≤ (g x).length)
    (h : xs.flatMap f = xs.flatMap g) : ∀ x ∈ xs, f x = g x := by
  induction xs with
  | nil => exact fun x hx => nomatch hx
  | cons x xs ih =>
    have hx := hle x List.mem_cons_self
    have hxs := fun y hy => hle y (List.mem_cons_of_mem x hy)
    have hrest := length_flatMap_le hxs
    rw [List.flatMap_cons, List.flatMap_cons] at h
    -- neither the first part nor the others can be shorter, so they end at the same place
    have hlength := congrArg List.length h
    rw [List.length_append, List.length_append] at hlength
    obtain ⟨hfirst, hothers⟩ := List.append_inj h (by omega)
    exact List.forall_mem_cons.mpr ⟨hfirst, ih hxs hothers⟩

end Parts

/-- What the statements of a text without comments say, apart from delimiters and blanks, is what is
kept of its lines.  When that is everything, nothing but blanks follows a delimiter on its line.
Then it is everything, as long as delimiters cannot overlap, and it always is when the delimiter has
to fill a line. -/
theorem content_statements {text : String} (hpieces : rules.whole = false)
    (hword : Word rules.delimiter.toList)
    (hplain : ∀ line ∈ lines text.toList, ¬ "--".toList <:+: line ∧ ¬ "//".toList <:+: line) :
    let d := rules.delimiter.toList
    let written := lines text.toList
    let said := content d ((rules.statements text).flatMap fun statement => lines statement.toList)
    said = content d (written.map (kept rules.fullLine d)) ∧
    (said = content d written →
      ∀ line ∈ written, allBlank (dropped rules.fullLine d line) = true) ∧
    (Apart d → (∀ line ∈ written, allBlank (dropped rules.fullLine d line) = true) →
      said = content d written) ∧
    (rules.fullLine = true → said = content d written) := by
  intro d written said
  have hcomments : ∀ line ∈ written, isComment (trim line) = false := by
    intro line hline
    obtain ⟨hdashes, hslashes⟩ := hplain line hline
    have hpart : trimLeft isBlank line <:+: line := (List.dropWhile_suffix _).isInfix
    exact isComment_trim ⟨fun h => hdashes (h.isInfix.trans hpart),
      fun h => hslashes (h.isInfix.trans hpart)⟩
  have haccount : said = content d (written.map (kept rules.fullLine d)) := by
    have hrun := @Cutting.run_content rules.fullLine rules.start written hword Cutting.sealed_nil
      hcomments
    show content d _ = _
    rw [content_flatMap_lines hword, map_statements hpieces, content_append,
      Cutting.content_flush hword]
    exact hrun
  refine ⟨haccount, fun heq => ?_, fun hapart hblank => ?_, fun hfull => ?_⟩
  · -- no line says more than what is kept of it, so each of them says just that
    rw [haccount, content, List.flatMap_map] at heq
    have hlines := forall_eq_of_flatMap_eq
      (fun line _ => by rw [length_substance_line hword line]; exact Nat.le_add_right _ _) heq
    exact fun line hline => allBlank_dropped hword (hlines line hline)
  · rw [haccount, content, List.flatMap_map]
    exact List.flatMap_congr fun line hline => substance_kept_apart hword hapart (hblank line hline)
  · rw [haccount, content, List.flatMap_map, hfull]
    exact List.flatMap_congr fun line _ => substance_kept_fullLine hword line

/-- Nothing is lost of a delimiter in quotes before another one and of a statement without one. -/
theorem content_statements_quoted :
    let rules : StatementRules := { delimiter := "GO" }
    let text := "SELECT 'a GO b' GO \n\nSELECT 3,\n  4"
    rules.statements text = ["SELECT 'a GO b'", "SELECT 3,\n  4"] ∧
      content "GO".toList ((rules.statements text).flatMap fun statement => lines statement.toList) =
        content "GO".toList (lines text.toList) := by
  have hcontent := @content_statements { delimiter := "GO" }
    "SELECT 'a GO b' GO \n\nSELECT 3,\n  4" rfl
    (by decide +kernel) (by decide +kernel)
  exact ⟨by decide +kernel, hcontent.2.2.1 (by decide +kernel) (by decide +kernel)⟩

/-- Of a text with two statements on one line the second one is lost. -/
theorem content_dropped :
    let rules : StatementRules := {}
    let text := "SELECT 1; SELECT 2"
    rules.whole = false ∧ Word rules.delimiter.toList ∧
    (∀ line ∈ lines text.toList, ¬ "--".toList <:+: line ∧ ¬ "//".toList <:+: line) ∧
    rules.statements text = ["SELECT 1"] ∧
    content rules.delimiter.toList
        ((rules.statements text).flatMap fun statement => lines statement.toList) ≠
      content rules.delimiter.toList (lines text.toList) := by
  exact ⟨rfl, by decide +kernel, by decide +kernel, by decide +kernel, by decide +kernel⟩

end StatementRules

end Migrations
