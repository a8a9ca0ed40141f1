import Migrations.Proofs.Script.Following
import Migrations.Proofs.Settings.Check

/-!
# Lines of the Delimiter

With a delimiter that has to fill a line, a line of the delimiter alone ends a statement, so the
texts before and after it are cut as if they stood alone.  This is so for a delimiter that is left
of its line when the line is trimmed, and that is no comment: `Standalone` delimiters.  Settings are
checked for the length of the delimiter only, and with any other delimiter that passes there are
texts that it does not part.

The delimiter itself may put another one in force, when it is a comment with a directive, or when
it has such a comment on one of several lines.  It is too short for two of them, so what is in force
after it is the same wherever in it the directive stands.

## Main statements

- `Cutting.step_fullLine`: a line of the delimiter ends what is collected, and nothing of the line
  goes with it.
- `Cutting.run_unended`: a delimiter that is not standalone ends nothing.
- `StatementRules.statements_parted`: a line of a standalone delimiter parts any two texts.
- `StatementRules.exists_unparted`: a line of another delimiter does not.
- `Settings.delimiterLine_parts_iff`: both, for settings that pass their checks.
-/

namespace Migrations

open Text StatementRules

namespace StatementRules

variable {d e line : List Char}

/-! ## Standalone delimiters -/

/-- A delimiter that a trimmed line can be, and that is no comment. -/
structure Standalone (d : List Char) : Prop where
  tight : Tight d
  line : '\n' ∉ d
  comment : isComment d = false

instance (d : List Char) : Decidable (Standalone d) :=
  decidable_of_iff ((d ≠ [] ∧ trim d = d) ∧ '\n' ∉ d ∧ isComment d = false)
    ⟨fun ⟨⟨hne, htrim⟩, hline, hcomment⟩ =>
      ⟨htrim ▸ tight_trim (htrim.symm ▸ hne), hline, hcomment⟩,
    fun h => ⟨⟨h.tight.ne_nil, h.tight.trim_eq⟩, h.line, h.comment⟩⟩

/-- A line that is the delimiter when it is trimmed shows that the delimiter is standalone. -/
theorem ends_eq_false (hd : d ≠ []) (hno : ¬ Standalone d) (hline : '\n' ∉ line)
    (hcomment : isComment (trim line) = false) : ends true d (trim line) = false := by
  rw [ends, if_pos rfl]
  apply beq_false_of_ne
  rintro rfl
  obtain ⟨front, back, -, -, hparts⟩ := exists_trim line
  refine hno ⟨tight_trim hd, fun h => hline ?_, hcomment⟩
  rw [hparts]
  exact List.mem_append_left _ (List.mem_append_right _ h)

/-- Nothing but blanks stands before the delimiter on a line of its own. -/
theorem allBlank_beforeLast_trim (line : List Char) :
    allBlank ((beforeLast (trim line) line).getD []) = true := by
  cases hlast : beforeLast (trim line) line with
  | none => rfl
  | some before =>
    obtain ⟨tail, hline, -⟩ := exists_beforeLast hlast
    obtain ⟨front, back, hfront, hback, hparts⟩ := exists_trim line
    have hgone : ∀ {ws : List Char}, allBlank ws = true → ws.filter (fun c => !isBlank c) = [] := by
      intro ws hws
      rw [List.filter_eq_nil_iff]
      intro c hc
      simp [allBlank_iff.mp hws c hc]
    -- all that there is to see on the line is in the delimiter
    have hcount := congrArg (fun cs => (cs.filter fun c => !isBlank c).length)
      (hline.symm.trans hparts)
    simp only [List.filter_append, List.length_append, hgone hfront, hgone hback,
      List.length_nil] at hcount
    have hnone : before.filter (fun c => !isBlank c) = [] :=
      List.eq_nil_of_length_eq_zero (by omega)
    rw [Option.getD_some, allBlank_iff]
    intro c hc
    simpa using List.filter_eq_nil_iff.mp hnone c hc

/-! ## Directives -/

/-- A text without a comment that puts a delimiter in force. -/
def Undirected (text : String) : Prop :=
  ∀ line ∈ lines text.toList, directive? (trim line) = none

instance (text : String) : Decidable (Undirected text) :=
  inferInstanceAs (Decidable (∀ line ∈ lines text.toList, directive? (trim line) = none))

/-- The delimiters that comments in the lines put in force. -/
def directives (ls : List (List Char)) : List (List Char) :=
  ls.filterMap fun line => directive? (trim line)

theorem directives_append (first second : List (List Char)) :
    directives (first ++ second) = directives first ++ directives second :=
  List.filterMap_append

theorem length_of_after? {p cs rest : List Char} (h : after? p cs = some rest) :
    rest.length ≤ cs.length := by
  unfold after? at h
  split at h
  · cases h
    rw [List.length_drop]
    exact Nat.sub_le _ _
  · cases h

theorem length_of_afterOpener? {cs rest : List Char} (h : Sections.afterOpener? cs = some rest) :
    rest.length ≤ cs.length := by
  unfold Sections.afterOpener? at h
  split at h
  · rename_i other hother
    cases h
    exact length_of_after? hother
  · exact length_of_after? h

theorem length_of_afterWord? {word cs rest : List Char} (h : afterWord? word cs = some rest) :
    word.length ≤ cs.length := by
  unfold afterWord? at h
  split at h
  · rename_i hword
    have hlength := congrArg List.length hword
    rw [List.length_map, List.length_take] at hlength
    omega
  · cases h

theorem length_trimLeft_le (p : Char → Bool) (cs : List Char) :
    (trimLeft p cs).length ≤ cs.length := (List.dropWhile_suffix p).length_le

theorem length_trim_le (cs : List Char) : (trim cs).length ≤ cs.length := by
  obtain ⟨front, back, -, -, hparts⟩ := exists_trim cs
  have hlength := congrArg List.length hparts
  simp only [List.length_append] at hlength
  omega

/-- A comment that puts a delimiter in force has room for the word that does so. -/
theorem length_of_directive? {trimmed : List Char} (h : directive? trimmed = some e) :
    10 ≤ trimmed.length := by
  unfold directive? at h
  simp only [Option.bind_eq_bind, Option.bind_eq_some_iff] at h
  obtain ⟨opened, hopened, rest, hrest, -⟩ := h
  -- the word is in what the opener, blanks and slashes leave of the comment
  have hslashes : ((after? ['/', '/'] (trimLeft isBlank opened)).getD
      (trimLeft isBlank opened)).length ≤ (trimLeft isBlank opened).length := by
    cases hafter : after? ['/', '/'] (trimLeft isBlank opened) with
    | none => exact Nat.le_refl _
    | some other => exact length_of_after? hafter
  calc 10 = "@DELIMITER".toList.length := by decide
    _ ≤ _ := length_of_afterWord? hrest
    _ ≤ _ := length_trimLeft_le isBlank _
    _ ≤ _ := hslashes
    _ ≤ opened.length := length_trimLeft_le isBlank opened
    _ ≤ trimmed.length := length_of_afterOpener? hopened

theorem length_directives_le (ls : List (List Char)) :
    10 * (directives ls).length ≤ ls.flatten.length := by
  induction ls with
  | nil => exact Nat.le_refl _
  | cons line ls ih =>
    rw [directives, List.filterMap_cons, List.flatten_cons, List.length_append]
    cases hline : directive? (trim line) with
    | none => exact ih.trans (Nat.le_add_left _ _)
    | some e =>
      have hword := (length_of_directive? hline).trans (length_trim_le line)
      rw [directives] at ih
      rw [List.length_cons]
      omega

/-- A short text has no room for two directives. -/
theorem directives_short {text : List Char} (hshort : text.length < 20) :
    directives (lines text) = [] ∨ ∃ e, directives (lines text) = [e] := by
  have hroom := (length_directives_le (lines text)).trans (length_flatten_lines text)
  match hfound : directives (lines text) with
  | [] => exact .inl rfl
  | [e] => exact .inr ⟨e, rfl⟩
  | _ :: _ :: _ =>
    rw [hfound, List.length_cons, List.length_cons] at hroom
    omega

theorem directives_eq_nil {ls : List (List Char)} :
    directives ls = [] ↔ ∀ line ∈ ls, directive? (trim line) = none :=
  List.filterMap_eq_nil_iff

theorem inForce_eq (ls : List (List Char)) : inForce d ls = (directives ls).getLast?.getD d := rfl

end StatementRules

namespace Cutting

variable {cutting : Cutting} {line : List Char}

/-! ## Lines under a delimiter that fills its line -/

/-- A line of the delimiter ends what is collected, and nothing of the line goes with it. -/
theorem step_fullLine (hcomment : isComment (trim line) = false)
    (hends : trim line = cutting.delimiter) :
    cutting.step true line = (flush cutting.collected, ⟨cutting.delimiter, []⟩) := by
  have hblank := allBlank_beforeLast_trim line
  rw [hends] at hblank
  have hfound : StatementRules.ends true cutting.delimiter (trim line) = true := by
    rw [StatementRules.ends, if_pos rfl, hends, beq_self_eq_true]
  rw [step_ending hcomment hfound, flush, trim_append_blank hblank, ← flush]

/-- A comment, or a line that is not the delimiter, ends no statement. -/
theorem step_unended (h : isComment (trim line) = false →
    StatementRules.ends true cutting.delimiter (trim line) = false) :
    (cutting.step true line).1 = [] := by
  unfold step
  dsimp only
  split
  · rfl
  · rename_i hcomment
    rw [if_neg (by rw [h (Bool.eq_false_iff.mpr hcomment)]; exact Bool.false_ne_true)]
    split <;> rfl

/-- Delimiters that are not standalone end nothing, whichever of them are put in force. -/
theorem run_unended {ls : List (List Char)} (hd : cutting.delimiter ≠ [])
    (hno : ¬ Standalone cutting.delimiter) (hls : ∀ line ∈ ls, '\n' ∉ line)
    (hothers : ∀ e ∈ directives ls, ¬ Standalone e) : (cutting.run true ls).1 = [] := by
  induction ls generalizing cutting with
  | nil => rfl
  | cons line rest ih =>
    have hline := hls line List.mem_cons_self
    have hstep : (cutting.step true line).1 = [] := step_unended (ends_eq_false hd hno hline)
    have hnext : (cutting.step true line).2.delimiter ≠ [] ∧
        ¬ Standalone (cutting.step true line).2.delimiter := by
      rw [step_delimiter_eq]
      cases hdirective : directive? (trim line) with
      | none => exact ⟨hd, hno⟩
      | some e =>
        refine ⟨(word_of_directive? hdirective).ne_nil, hothers e ?_⟩
        exact List.mem_filterMap.mpr ⟨line, List.mem_cons_self, hdirective⟩
    have hrest : ∀ e ∈ directives rest, ¬ Standalone e := by
      intro e he
      obtain ⟨other, hother, hdirective⟩ := List.mem_filterMap.mp he
      exact hothers e (List.mem_filterMap.mpr ⟨other, List.mem_cons_of_mem _ hother, hdirective⟩)
    have hlines : ∀ other ∈ rest, '\n' ∉ other :=
      fun other h => hls other (List.mem_cons_of_mem _ h)
    rw [run_cons, hstep, ih hnext.1 hnext.2 hlines hrest]
    rfl

theorem step_blank_fullLine (hd : cutting.delimiter ≠ []) (hline : allBlank line = true) :
    cutting.step true line = ([], cutting) := by
  have hends : StatementRules.ends true cutting.delimiter [] = false := beq_false_of_ne hd.symm
  unfold step
  rw [trim_eq_nil.mpr hline]
  simp [hends, isComment, Sections.afterOpener?, after?]

/-- Blanks at the end of a line are in no statement. -/
theorem step_append_blank_fullLine {ws : List Char} (hws : allBlank ws = true) (line : List Char) :
    (cutting.step true (line ++ ws)).1 ++ flush (cutting.step true (line ++ ws)).2.collected =
      (cutting.step true line).1 ++ flush (cutting.step true line).2.collected := by
  have htrim := trim_append_blank hws line
  by_cases hcomment : isComment (trim line) = true
  · rw [step_comment hcomment, step_comment (by rwa [htrim])]
  · have hplain := Bool.eq_false_iff.mpr hcomment
    by_cases hends : trim line = cutting.delimiter
    · rw [step_fullLine hplain hends, step_fullLine (by rwa [htrim]) (htrim.trans hends)]
    · have hother : StatementRules.ends true cutting.delimiter (trim line) = false :=
        beq_false_of_ne hends
      by_cases hline : trim line = []
      · have hd : cutting.delimiter ≠ [] := fun h => hends (hline.trans h.symm)
        rw [step_blank_fullLine hd (trim_eq_nil.mp hline),
          step_blank_fullLine hd (trim_eq_nil.mp (htrim.trans hline))]
      · have hsome := List.isEmpty_eq_false_iff.mpr hline
        rw [step_middle hplain hother hsome,
          step_middle (by rwa [htrim]) (by rwa [htrim]) (by rwa [htrim])]
        -- the blanks are at the end of what is collected
        have hmore : allBlank (ws ++ ['\n']) = true := by
          rw [allBlank_append, hws]
          rfl
        have hkept : trim (cutting.collected ++ (line ++ ws) ++ ['\n']) =
            trim (cutting.collected ++ line ++ ['\n']) := by
          have hfeed : allBlank ['\n'] = true := rfl
          rw [← List.append_assoc, List.append_assoc _ ws, trim_append_blank hmore,
            trim_append_blank hfeed]
        simp only [flush, hkept]

/-- A line end after a text changes none of its statements. -/
theorem run_lineFeed (text : List Char) (hd : (cutting.run true (lines text)).2.delimiter ≠ []) :
    (cutting.run true (lines (text ++ ['\n']))).1 ++
        flush (cutting.run true (lines (text ++ ['\n']))).2.collected =
      (cutting.run true (lines text)).1 ++ flush (cutting.run true (lines text)).2.collected := by
  obtain hmore | ⟨done, line, ws, hws, hlines, hmore⟩ := exists_lines_lineFeed text
  · rw [hmore, run_append, run_cons, step_blank_fullLine hd rfl]
    simp only [run, List.append_nil]
  · have hlast := @step_append_blank_fullLine (cutting.run true done).2 ws hws line
    rw [hlines, hmore, run_append, run_append]
    simp only [run, List.append_nil, List.append_assoc]
    rw [hlast]

end Cutting

namespace StatementRules

variable {rules : StatementRules} {d : List Char}

/-! ## Texts around a line of the delimiter -/

theorem directives_lineFeed (cs : List Char) :
    directives (lines (cs ++ ['\n'])) = directives (lines cs) := by
  obtain hmore | ⟨done, line, ws, hws, hlines, hmore⟩ := exists_lines_lineFeed cs
  · rw [hmore, directives_append]
    exact List.append_nil _
  · rw [hmore, hlines, directives_append, directives_append]
    simp only [directives, List.filterMap_cons, trim_append_blank hws]

theorem lines_parted (first second : List Char) :
    lines (first ++ '\n' :: (d ++ '\n' :: second)) =
      lines (first ++ ['\n']) ++ (lines (d ++ ['\n']) ++ lines second) := by
  rw [lines_break, lines_break d]

/-- A line of a standalone delimiter parts any two texts, as long as the first one leaves that
delimiter in force. -/
theorem statements_parted {first : String} (hpieces : rules.whole = false)
    (hfull : rules.fullLine = true) (h : Standalone rules.delimiter.toList)
    (hfirst : Undirected first) (second : String) :
    rules.statements (first ++ "\n" ++ rules.delimiter ++ "\n" ++ second) =
      rules.statements first ++ rules.statements second := by
  have hlines : lines (first ++ "\n" ++ rules.delimiter ++ "\n" ++ second).toList =
      lines (first.toList ++ ['\n']) ++ rules.delimiter.toList :: lines second.toList := by
    have hparts := @lines_parted rules.delimiter.toList first.toList second.toList
    rw [h.tight.lines_lineFeed h.line, lines_eq_nil.mpr rfl, List.singleton_append] at hparts
    simpa using hparts
  have hforce : ∀ ls, directives ls = [] →
      (rules.start.run true ls).2.delimiter = rules.delimiter.toList := by
    intro ls hls
    rw [Cutting.run_delimiter, inForce_eq, hls]
    rfl
  have hnone : directives (lines first.toList) = [] := directives_eq_nil.mpr hfirst
  have hclosed := hforce _ ((directives_lineFeed first.toList).trans hnone)
  -- the line of the delimiter ends what is left of the first text, and the second one starts afresh
  have htrim := h.tight.trim_eq
  have hstep := @Cutting.step_fullLine (rules.start.run true (lines (first.toList ++ ['\n']))).2
    rules.delimiter.toList (by rw [htrim]; exact h.comment) (htrim.trans hclosed.symm)
  rw [hclosed] at hstep
  have hfirstLine := @Cutting.run_lineFeed rules.start first.toList
    (by rw [hforce _ hnone]; exact h.tight.ne_nil)
  refine (List.map_inj_right fun _ _ => String.toList_inj.mp).mp ?_
  rw [List.map_append, map_statements hpieces, map_statements hpieces, map_statements hpieces,
    cutting, cutting, cutting, hfull, hlines, Cutting.run_append, Cutting.run_cons, hstep,
    ← hfirstLine]
  simp only [List.append_assoc]
  rfl

/-- A line that is no comment and not the delimiter is a statement. -/
theorem statements_line {text : String} (hpieces : rules.whole = false)
    (hfull : rules.fullLine = true) (h : Standalone text.toList)
    (hother : text.toList ≠ rules.delimiter.toList) : rules.statements text = [text] := by
  have htrim := h.tight.trim_eq
  have hstep : rules.start.step true text.toList =
      ([], ⟨rules.delimiter.toList, text.toList ++ ['\n']⟩) := by
    refine Cutting.step_middle (by rw [htrim]; exact h.comment) ?_ ?_
    · rw [htrim]
      exact beq_false_of_ne hother
    · rw [htrim]
      exact List.isEmpty_eq_false_iff.mpr h.tight.ne_nil
  have hflush : flush (text.toList ++ ['\n']) = [text.toList] := by
    have hfeed : allBlank ['\n'] = true := rfl
    rw [flush, trim_append_blank hfeed, htrim]
    simp [h.tight.ne_nil]
  refine (List.map_inj_right fun _ _ => String.toList_inj.mp).mp ?_
  rw [map_statements hpieces, cutting, hfull, lines_eq_singleton h.tight.ne_nil h.line,
    Cutting.run_cons, hstep]
  exact hflush

theorem length_flush_le (collected : List Char) : (flush collected).length ≤ 1 := by
  unfold flush
  dsimp only
  split
  · exact Nat.zero_le 1
  · exact Nat.le_refl 1

/-- Where no line ends a statement there is one at most. -/
theorem length_statements_le {text : String} (hpieces : rules.whole = false)
    (hnone : (rules.cutting text).1 = []) : (rules.statements text).length ≤ 1 := by
  have hall := congrArg List.length (map_statements hpieces text)
  rw [hnone, List.nil_append, List.length_map] at hall
  rw [hall]
  exact length_flush_le _

theorem lines_parted_toList (first second : String) :
    lines (first ++ "\n" ++ rules.delimiter ++ "\n" ++ second).toList =
      lines (first.toList ++ ['\n']) ++
        (lines (rules.delimiter.toList ++ ['\n']) ++ lines second.toList) := by
  rw [← lines_parted]
  simp

/-- A line that is no comment has no directive. -/
theorem undirected_of_standalone {text : String} (h : Standalone text.toList) :
    Undirected text := by
  intro line hline
  rw [lines_eq_singleton h.tight.ne_nil h.line, List.mem_singleton] at hline
  rw [hline, h.tight.trim_eq]
  exact directive?_eq_none h.comment

/-- A delimiter that puts no standalone one in force does not part two lines. -/
theorem unparted_of_unended (hpieces : rules.whole = false) (hfull : rules.fullLine = true)
    (hd : rules.delimiter.toList ≠ []) (hno : ¬ Standalone rules.delimiter.toList)
    (hothers : ∀ e ∈ directives (lines (rules.delimiter.toList ++ ['\n'])), ¬ Standalone e) :
    rules.statements ("x" ++ "\n" ++ rules.delimiter ++ "\n" ++ "y") ≠
      rules.statements "x" ++ rules.statements "y" := by
  have hother : ∀ text : String, Standalone text.toList → text.toList ≠ rules.delimiter.toList :=
    fun text htext heq => hno (heq ▸ htext)
  have hx : Standalone "x".toList := by decide
  have hy : Standalone "y".toList := by decide
  rw [statements_line hpieces hfull hx (hother _ hx),
    statements_line hpieces hfull hy (hother _ hy)]
  -- no line ends a statement, so what should be two statements is one
  have hnone : (rules.cutting ("x" ++ "\n" ++ rules.delimiter ++ "\n" ++ "y")).1 = [] := by
    rw [cutting, hfull]
    refine Cutting.run_unended hd hno (fun line => lineFeed_notMem_of_mem_lines) fun e he => ?_
    have hbefore : directives (lines ("x".toList ++ ['\n'])) = [] := by decide
    have hafter : directives (lines "y".toList) = [] := by decide
    rw [lines_parted_toList, directives_append, directives_append, hbefore, hafter,
      List.nil_append, List.append_nil] at he
    exact hothers e he
  intro heq
  have hone := length_statements_le hpieces hnone
  rw [heq] at hone
  exact absurd hone (by decide)

/-- A delimiter that puts a standalone one in force does not keep the texts after it as they are:
that delimiter is a statement where it stands alone, and ends one after the other delimiter. -/
theorem unparted_of_directive {other : String} (hpieces : rules.whole = false)
    (hfull : rules.fullLine = true) (hno : ¬ Standalone rules.delimiter.toList)
    (hother : directives (lines (rules.delimiter.toList ++ ['\n'])) = [other.toList])
    (h : Standalone other.toList) :
    ∃ second, Undirected second ∧
      rules.statements ("" ++ "\n" ++ rules.delimiter ++ "\n" ++ second) ≠
        rules.statements "" ++ rules.statements second := by
  -- what comes of the delimiter's lines, before the other text
  let before := lines ("".toList ++ ['\n']) ++ lines (rules.delimiter.toList ++ ['\n'])
  have hrun : ∀ second : String, rules.cutting ("" ++ "\n" ++ rules.delimiter ++ "\n" ++ second) =
      ((rules.start.run true before).1 ++
          ((rules.start.run true before).2.run true (lines second.toList)).1,
        ((rules.start.run true before).2.run true (lines second.toList)).2) := by
    intro second
    rw [cutting, hfull, lines_parted_toList, ← List.append_assoc, Cutting.run_append]
  have hforce : (rules.start.run true before).2.delimiter = other.toList := by
    have hnone : directives (lines ("".toList ++ ['\n'])) = [] := by decide
    rw [Cutting.run_delimiter, inForce_eq, directives_append, hnone, hother]
    rfl
  have hnothing : rules.statements "" = [] := by
    rw [statements, cut, hpieces]
    rfl
  by_cases hempty : rules.statements ("" ++ "\n" ++ rules.delimiter ++ "\n" ++ "") = []
  · refine ⟨other, undirected_of_standalone h, ?_⟩
    -- the delimiter in force is a statement alone, and none after the delimiter that is looked at
    have halone : rules.statements other = [other] :=
      statements_line hpieces hfull h fun heq => hno (heq ▸ h)
    have hended : (rules.start.run true before).1 = [] ∧
        flush (rules.start.run true before).2.collected = [] := by
      have hall := map_statements hpieces ("" ++ "\n" ++ rules.delimiter ++ "\n" ++ "")
      rw [hempty, hrun] at hall
      simpa [lines, Cutting.run] using hall
    have hstep := @Cutting.step_fullLine (rules.start.run true before).2 other.toList
      (by rw [h.tight.trim_eq]; exact h.comment) (by rw [h.tight.trim_eq, hforce])
    have hgone : (rules.statements ("" ++ "\n" ++ rules.delimiter ++ "\n" ++ other)).map
        String.toList = [] := by
      rw [map_statements hpieces, hrun, lines_eq_singleton h.tight.ne_nil h.line,
        Cutting.run_cons, hstep, hended.1, hended.2]
      rfl
    rw [List.map_eq_nil_iff.mp hgone, hnothing, halone]
    exact (List.cons_ne_nil _ _).symm
  · exact ⟨"", by decide, by rwa [hnothing, List.append_nil]⟩

/-- A line of a delimiter that is not standalone leaves some texts together. -/
theorem exists_unparted (hpieces : rules.whole = false) (hfull : rules.fullLine = true)
    (hd : rules.delimiter.toList ≠ []) (hshort : rules.delimiter.toList.length ≤ 16)
    (hno : ¬ Standalone rules.delimiter.toList) :
    ∃ first second, Undirected first ∧ Undirected second ∧
      rules.statements (first ++ "\n" ++ rules.delimiter ++ "\n" ++ second) ≠
        rules.statements first ++ rules.statements second := by
  have hroom : (rules.delimiter.toList ++ ['\n']).length < 20 := by
    rw [List.length_append, List.length_singleton]
    omega
  by_cases hothers : ∀ e ∈ directives (lines (rules.delimiter.toList ++ ['\n'])), ¬ Standalone e
  · exact ⟨"x", "y", by decide, by decide,
      unparted_of_unended hpieces hfull hd hno hothers⟩
  · push Not at hothers
    obtain ⟨e, hmem, hstandalone⟩ := hothers
    -- a delimiter is too short for a second directive
    have hother : directives (lines (rules.delimiter.toList ++ ['\n'])) =
        [(String.ofList e).toList] := by
      rw [String.toList_ofList]
      obtain hnone | ⟨other, honly⟩ := directives_short hroom
      · rw [hnone] at hmem
        cases hmem
      · rw [honly, List.mem_singleton] at hmem
        rw [honly, hmem]
    obtain ⟨second, hsecond, hunparted⟩ := unparted_of_directive hpieces hfull hno hother
      (by rwa [String.toList_ofList])
    exact ⟨"", second, by decide, hsecond, hunparted⟩

end StatementRules

namespace Settings

/-! ## Delimiters of checked settings -/

/-- Under settings that pass their checks, a line of a delimiter that fills its line parts all texts
without directives just when the delimiter is standalone. -/
theorem delimiterLine_parts_iff {settings : Settings} (hvalid : settings.check = .ok ())
    (hfull : settings.fullLineDelimiter = true) (hpieces : settings.sendFullScript = false) :
    (∀ first second : String, Undirected first → Undirected second →
      settings.statementRules.statements
          (first ++ "\n" ++ settings.delimiter ++ "\n" ++ second) =
        settings.statementRules.statements first ++ settings.statementRules.statements second) ↔
    Standalone settings.delimiter.toList := by
  obtain ⟨hne, hshort⟩ := length_delimiter hvalid
  constructor
  · intro hall
    by_contra hno
    obtain ⟨first, second, hfirst, hsecond, hunparted⟩ :=
      @exists_unparted settings.statementRules hpieces hfull hne hshort hno
    exact hunparted (hall first second hfirst hsecond)
  · intro h first second hfirst _
    exact @statements_parted settings.statementRules first hpieces hfull h hfirst second

/-- A delimiter with a blank in it, a text with the delimiter inside a line and without a line end,
and one that ends in a carriage return. -/
theorem delimiterLine_parts_iff_blank :
    let settings : Settings := { delimiter := "END GO", fullLineDelimiter := true }
    let first := "-- END\nCREATE x END GO;\n  BEGIN\r"
    let second := "SELECT 1"
    settings.check = .ok () ∧ Undirected first ∧ Undirected second ∧
    settings.statementRules.statements (first ++ "\n" ++ "END GO" ++ "\n" ++ second) =
      ["CREATE x END GO;\n  BEGIN", "SELECT 1"] := by
  intro settings first second
  have hvalid : settings.check = .ok () := by decide +kernel
  have hfirst : Undirected first := by decide +kernel
  have hsecond : Undirected second := by decide +kernel
  have hparts := (@delimiterLine_parts_iff settings hvalid rfl rfl).mpr (by decide +kernel)
    first second hfirst hsecond
  refine ⟨hvalid, hfirst, hsecond, hparts.trans ?_⟩
  decide +kernel

/-- A delimiter that starts with a blank passes, but a line of it ends nothing. -/
theorem delimiterLine_unparted :
    let settings : Settings := { delimiter := " GO", fullLineDelimiter := true }
    settings.check = .ok () ∧ settings.fullLineDelimiter = true ∧
    settings.sendFullScript = false ∧ Undirected "x" ∧ Undirected "y" ∧
    settings.statementRules.statements ("x" ++ "\n" ++ settings.delimiter ++ "\n" ++ "y") =
      ["x\n GO\ny"] ∧
    settings.statementRules.statements ("x" ++ "\n" ++ settings.delimiter ++ "\n" ++ "y") ≠
      settings.statementRules.statements "x" ++ settings.statementRules.statements "y" := by
  exact ⟨rfl, rfl, rfl, by decide +kernel, by decide +kernel, by decide +kernel, by decide +kernel⟩

end Settings

end Migrations
