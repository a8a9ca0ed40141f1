import Migrations.Proofs.Script.Cutting
import Migrations.Proofs.Text.Occurrence

/-!
# Texts after Each Other

A text that follows another one is cut as if it stood alone, with the delimiter that the first text
leaves in force, as long as the first text has ended its last statement.  The delimiter is a matter
of comments alone, and blank lines and comments after the last statement end nothing and are not
collected.  This holds for every delimiter, empty or blank ones among them.

## Main statements

- `Cutting.run_delimiter`: the last comment with a delimiter puts it in force.
- `Cutting.run_idle`: blank lines and comments leave nothing where nothing is collected.
- `Cutting.collected_run`: nothing is carried on after the end of the last statement.
- `StatementRules.statements_append`: the statements of a text that follows another one.
-/

namespace Migrations

open Text StatementRules

namespace StatementRules

variable {d line : List Char}

/-! ## The delimiter in force -/

/-- The delimiter in force after lines: the one that the last comment with a delimiter sets. -/
def inForce (d : List Char) (ls : List (List Char)) : List Char :=
  ((ls.filterMap fun line => directive? (trim line)).getLast?).getD d

theorem inForce_cons (line : List Char) (ls : List (List Char)) :
    inForce d (line :: ls) = inForce ((directive? (trim line)).getD d) ls := by
  rw [inForce, List.filterMap_cons]
  cases directive? (trim line) with
  | none => rfl
  | some other => rw [List.getLast?_cons, Option.getD_some, Option.getD_some, inForce]

/-- Each line that is neither blank nor a comment, and after which there is no such line, ends a
statement with the delimiter that is in force there. -/
def Settles (fullLine : Bool) (d : List Char) (ls : List (List Char)) : Prop :=
  ∀ n, (h : n < ls.length) → isIdle ls[n] = false → (ls.drop (n + 1)).all isIdle = true →
    ends fullLine (inForce d (ls.take n)) (trim ls[n]) = true

instance (fullLine : Bool) (d : List Char) (ls : List (List Char)) :
    Decidable (Settles fullLine d ls) :=
  inferInstanceAs (Decidable (∀ n, (h : n < ls.length) → _))

/-- Lines after which there are only blank lines and comments. -/
theorem exists_lastWritten (ls : List (List Char)) :
    (∀ line ∈ ls, isIdle line = true) ∨
      ∃ before line after, ls = before ++ line :: after ∧ isIdle line = false ∧
        ∀ other ∈ after, isIdle other = true := by
  induction ls with
  | nil => exact .inl fun _ hmem => nomatch hmem
  | cons line ls ih =>
    obtain hidle | ⟨before, last, after, rfl, hlast, hafter⟩ := ih
    · cases hline : isIdle line with
      | true => exact .inl (List.forall_mem_cons.mpr ⟨hline, hidle⟩)
      | false => exact .inr ⟨[], line, ls, rfl, hline, hidle⟩
    · exact .inr ⟨line :: before, last, after, rfl, hlast, hafter⟩

theorem ends_of_settles {fullLine : Bool} {before after : List (List Char)}
    (hsettles : Settles fullLine d (before ++ line :: after)) (hline : isIdle line = false)
    (hafter : ∀ other ∈ after, isIdle other = true) :
    ends fullLine (inForce d before) (trim line) = true := by
  have hends := hsettles before.length (by simp)
  simp only [List.getElem_append_right, Nat.le_refl, Nat.sub_self, List.getElem_cons_zero,
    List.take_left'] at hends
  refine hends hline (List.all_eq_true.mpr fun other hother => hafter other ?_)
  simpa using hother

end StatementRules

namespace Cutting

variable {fullLine : Bool} {cutting : Cutting} {line : List Char}

/-- Comments alone decide which delimiter is in force. -/
theorem run_delimiter (ls : List (List Char)) :
    (cutting.run fullLine ls).2.delimiter = inForce cutting.delimiter ls := by
  induction ls generalizing cutting with
  | nil => rfl
  | cons line rest ih => rw [run_cons, ih, step_delimiter_eq, inForce_cons]

/-- Where nothing is collected, blank lines and comments end nothing and leave nothing, whatever
the delimiter is. -/
theorem step_idle (hnone : cutting.collected = []) (hidle : isIdle line = true) :
    (cutting.step fullLine line).1 = [] ∧ (cutting.step fullLine line).2.collected = [] := by
  unfold step
  dsimp only
  split
  · exact ⟨rfl, hnone⟩
  · rename_i hcomment
    have hblank : allBlank line = true := by
      have hempty := (Bool.or_eq_true_iff.mp hidle).resolve_right hcomment
      exact trim_eq_nil.mp (List.isEmpty_iff.mp hempty)
    split
    · -- an empty delimiter, or one made of blanks, ends a statement here, but there is none
      have hkept : allBlank ((beforeLast cutting.delimiter line).getD []) = true := by
        cases hlast : beforeLast cutting.delimiter line with
        | none => rfl
        | some front =>
          obtain ⟨tail, rfl, -⟩ := exists_beforeLast hlast
          rw [allBlank_append, allBlank_append, Bool.and_eq_true, Bool.and_eq_true] at hblank
          exact hblank.1.1
      rw [hnone, List.nil_append]
      exact ⟨flush_of_blank hkept, rfl⟩
    · rw [trim_eq_nil.mpr hblank]
      exact ⟨rfl, hnone⟩

theorem run_idle {ls : List (List Char)} (hnone : cutting.collected = [])
    (hidle : ∀ line ∈ ls, isIdle line = true) :
    (cutting.run fullLine ls).1 = [] ∧ (cutting.run fullLine ls).2.collected = [] := by
  induction ls generalizing cutting with
  | nil => exact ⟨rfl, hnone⟩
  | cons line rest ih =>
    obtain ⟨hdone, hnext⟩ := @step_idle fullLine _ _ hnone (hidle line List.mem_cons_self)
    obtain ⟨hmore, hlast⟩ := ih hnext fun other hmem => hidle other (List.mem_cons_of_mem _ hmem)
    rw [run_cons, hdone, hmore]
    exact ⟨rfl, hlast⟩

/-- Nothing is collected after lines whose last statement is ended. -/
theorem collected_run {ls : List (List Char)} (hnone : cutting.collected = [])
    (hsettles : Settles fullLine cutting.delimiter ls) :
    (cutting.run fullLine ls).2.collected = [] := by
  obtain hidle | ⟨before, line, after, rfl, hline, hafter⟩ := exists_lastWritten ls
  · exact (run_idle hnone hidle).2
  · have hends := ends_of_settles hsettles hline hafter
    rw [← run_delimiter] at hends
    have hcomment : isComment (trim line) = false := (Bool.or_eq_false_iff.mp hline).2
    rw [run_append, run_cons, step_ending hcomment hends]
    exact (run_idle rfl hafter).2

end Cutting

namespace StatementRules

variable {rules : StatementRules}

/-- The rules with the delimiter that is in force after the text. -/
def after (rules : StatementRules) (text : String) : StatementRules :=
  { rules with delimiter := String.ofList (inForce rules.delimiter.toList (lines text.toList)) }

/-- A text that has ended its last statement hands on nothing but the delimiter. -/
theorem start_after {text : String}
    (hsettles : Settles rules.fullLine rules.delimiter.toList (lines text.toList)) :
    (rules.after text).start = (rules.cutting text).2 := by
  have hdelimiter := @Cutting.run_delimiter rules.fullLine rules.start (lines text.toList)
  have hcollected := @Cutting.collected_run rules.fullLine rules.start _ rfl hsettles
  rw [start, after, String.toList_ofList]
  exact (congr (congrArg Cutting.mk hdelimiter) hcollected).symm

/-- The statements of a text that follows another one are those that it has when it stands alone and
is cut with the delimiter that the other text leaves in force. -/
theorem statements_append {first second : String} (hpieces : rules.whole = false)
    (hbreak : first = "" ∨ ∃ front, first = front ++ "\n")
    (hsettles : Settles rules.fullLine rules.delimiter.toList (lines first.toList)) :
    rules.statements (first ++ second) =
      rules.statements first ++ (rules.after first).statements second := by
  have hlines : lines (first ++ second).toList = lines first.toList ++ lines second.toList := by
    rcases hbreak with rfl | ⟨front, rfl⟩
    · rw [String.empty_append]
      rfl
    · rw [String.toList_append, String.toList_append, List.append_assoc]
      exact lines_break front.toList second.toList
  have hnothing : (rules.cutting first).2.collected = [] := by
    rw [← start_after hsettles]
    rfl
  -- the second text is cut from the state that the first one leaves
  have hcutting : rules.cutting (first ++ second) =
      ((rules.cutting first).1 ++ ((rules.after first).cutting second).1,
        ((rules.after first).cutting second).2) := by
    have hsecond : (rules.after first).cutting second =
        (rules.cutting first).2.run rules.fullLine (lines second.toList) := by
      rw [← start_after hsettles]
      rfl
    rw [hsecond]
    exact (congrArg _ hlines).trans (Cutting.run_append _ _)
  refine (List.map_inj_right fun _ _ => String.toList_inj.mp).mp ?_
  calc (rules.statements (first ++ second)).map String.toList
      = (rules.cutting first).1 ++ (((rules.after first).cutting second).1 ++
          flush ((rules.after first).cutting second).2.collected) := by
        rw [map_statements hpieces, hcutting, List.append_assoc]
    _ = (rules.statements first).map String.toList ++
          ((rules.after first).statements second).map String.toList := by
        rw [map_statements hpieces, @map_statements (rules.after first) hpieces, hnothing]
        exact congrArg (· ++ _) (List.append_nil _).symm
    _ = (rules.statements first ++ (rules.after first).statements second).map String.toList :=
        List.map_append.symm

/-- The second text is cut with the delimiter that the first one sets last, which keeps `d;` in its
statement. -/
theorem statements_append_directive :
    let rules : StatementRules := {}
    let first := "-- @DELIMITER GO\na; bGO\n-- @delimiter $$\nc\n$$\n // done\n \n"
    let second := "d;\ne$$\n"
    rules.after first = { delimiter := "$$" } ∧
    rules.statements first = ["a; b", "c"] ∧
    rules.statements (first ++ second) = ["a; b", "c", "d;\ne"] := by
  intro rules first second
  have happend := @statements_append rules first second rfl
    (.inr ⟨"-- @DELIMITER GO\na; bGO\n-- @delimiter $$\nc\n$$\n // done\n ", by decide +kernel⟩)
    (by decide +kernel)
  refine ⟨by decide +kernel, by decide +kernel, happend.trans ?_⟩
  decide +kernel

end StatementRules

end Migrations
