import Mathlib.Data.List.TakeWhile
import Migrations.Proofs.Text.Line
import Migrations.Script.Statement

/-!
# Sections and Line Ends

The body of a script falls into its sections at the first marker line.  Nothing is lost on the way:
the sections and the marker line make up the lines of the body again, and sections that are put
together around a marker come apart there.  A carriage return that is left at the end of a line does
not decide whether the line is a marker, so the apply section has no marker line, however its lines
end.

A body whose lines end with a carriage return and a line feed has the same sections and the same
statements as with line feeds alone.

## Main statements

- `Text.unlines_lines`: a text that ends with a line feed is made of its lines.
- `Sections.ofLines_append`: the sections are the lines before and after the first marker.
- `Sections.isMarker_append_blank`: blanks at the end of a line do not make it a marker.
- `Sections.ofText_lossless`: bodies and their sections, in both directions.
- `Text.lines_withReturns`: both kinds of line ends make the same lines.
- `Sections.ofText_withReturns`: both make the same sections and the same statements.
-/

namespace Migrations

namespace Text

variable {c : Char} {cs : List Char}

/-! ## Texts that end with a line feed -/

/-- A text that is empty or has a line feed as its last character. -/
def Ended (cs : List Char) : Prop := cs = [] ∨ cs.getLast? = some '\n'

instance (cs : List Char) : Decidable (Ended cs) :=
  inferInstanceAs (Decidable (cs = [] ∨ cs.getLast? = some '\n'))

theorem Ended.tail (h : Ended (c :: cs)) : Ended cs := by
  obtain hnil | hlast := h
  · cases hnil
  · cases cs with
    | nil => exact .inl rfl
    | cons d cs => exact .inr (by rwa [List.getLast?_cons_cons] at hlast)

theorem Ended.lines_append (h : Ended cs) (rest : List Char) :
    lines (cs ++ rest) = lines cs ++ lines rest := by
  obtain rfl | hlast := h
  · rfl
  · obtain ⟨front, rfl⟩ := List.getLast?_eq_some_iff.mp hlast
    rw [List.append_assoc, List.singleton_append]
    exact lines_break front rest

theorem unlines_append (first second : List (List Char)) :
    unlines (first ++ second) = unlines first ++ unlines second := List.flatMap_append

/-- A text that ends with a line feed is made of its lines. -/
theorem unlines_lines (hends : Ended cs) (hreturn : '\r' ∉ cs) : unlines (lines cs) = cs := by
  induction cs using lines.induct with
  | case1 => rfl
  | case2 cs ih =>
    rw [lines_lineFeed, unlines_cons, ih hends.tail fun h => hreturn (List.mem_cons_of_mem _ h)]
    rfl
  | case3 cs ih => exact absurd List.mem_cons_self hreturn
  | case4 c cs hc hr hnil ih =>
    -- the only character would be the line feed
    obtain rfl := lines_eq_nil.mp hnil
    obtain h | hlast := hends
    · cases h
    · exact absurd (Option.some.inj hlast) hc
  | case5 c cs hc hr first others hlines ih =>
    have hrest := ih hends.tail fun h => hreturn (List.mem_cons_of_mem _ h)
    rw [hlines, unlines_cons] at hrest
    rw [lines.eq_4 c cs hc hr, hlines, unlines_cons, List.cons_append, hrest]

/-- The lines of lines that are put together are those, but for carriage returns at their ends. -/
theorem exists_of_mem_lines_unlines {ls : List (List Char)} (hls : ∀ line ∈ ls, '\n' ∉ line)
    {line : List Char} (hline : line ∈ lines (unlines ls)) :
    ∃ ws, allBlank ws = true ∧ line ++ ws ∈ ls := by
  induction ls with
  | nil => cases hline
  | cons first others ih =>
    obtain ⟨kept, ws, rfl, hws, hlines⟩ :=
      exists_firstLine_blank (hls first List.mem_cons_self) (unlines others)
    rw [unlines_cons, hlines] at hline
    rcases List.mem_cons.mp hline with rfl | hline
    · exact ⟨ws, hws, List.mem_cons_self⟩
    · obtain ⟨more, hmore, hmem⟩ := ih (fun other h => hls other (List.mem_cons_of_mem _ h)) hline
      exact ⟨more, hmore, List.mem_cons_of_mem _ hmem⟩

/-! ## Line ends -/

/-- The text with a carriage return before each line feed. -/
def withReturns (cs : List Char) : List Char :=
  cs.flatMap fun c => if c = '\n' then ['\r', '\n'] else [c]

theorem withReturns_lineFeed (cs : List Char) :
    withReturns ('\n' :: cs) = '\r' :: '\n' :: withReturns cs := rfl

theorem withReturns_cons {c : Char} (hc : c ≠ '\n') (cs : List Char) :
    withReturns (c :: cs) = c :: withReturns cs := by
  rw [withReturns, List.flatMap_cons, if_neg hc, List.singleton_append, withReturns]

/-- A carriage return that belongs to a line end is in no line. -/
theorem lines_withReturns (hreturn : '\r' ∉ cs) : lines (withReturns cs) = lines cs := by
  induction cs with
  | nil => rfl
  | cons c cs ih =>
    have hr : c ≠ '\r' := fun h => hreturn (h ▸ List.mem_cons_self)
    have hrest := ih fun h => hreturn (List.mem_cons_of_mem _ h)
    by_cases hc : c = '\n'
    · subst hc
      rw [withReturns_lineFeed, lines.eq_3, hrest, lines_lineFeed]
    · rw [withReturns_cons hc, lines_cons hc fun _ h => absurd h hr,
        lines_cons hc fun _ h => absurd h hr, hrest]

theorem unixEnds_withReturns (hreturn : '\r' ∉ cs) : unixEnds (withReturns cs) = cs := by
  induction cs with
  | nil => rfl
  | cons c cs ih =>
    have hr : c ≠ '\r' := fun h => hreturn (h ▸ List.mem_cons_self)
    have hrest := ih fun h => hreturn (List.mem_cons_of_mem _ h)
    by_cases hc : c = '\n'
    · subst hc
      rw [withReturns_lineFeed, unixEnds, hrest]
    · rw [withReturns_cons hc, unixEnds.eq_3 _ _ fun _ h => absurd h hr, hrest]

theorem unixEnds_eq_self (hreturn : '\r' ∉ cs) : unixEnds cs = cs := by
  induction cs with
  | nil => rfl
  | cons c cs ih =>
    have hr : c ≠ '\r' := fun h => hreturn (h ▸ List.mem_cons_self)
    rw [unixEnds.eq_3 _ _ fun _ h => absurd h hr, ih fun h => hreturn (List.mem_cons_of_mem _ h)]

end Text

namespace Sections

open Text

variable {cs ws line : List Char}

/-! ## Markers -/

/-- What blanks at the end of a text leave there when its start is trimmed. -/
theorem exists_trimLeft_append (p : Char → Bool) (hws : allBlank ws = true) (cs : List Char) :
    ∃ left, allBlank left = true ∧ trimLeft p (cs ++ ws) = trimLeft p cs ++ left := by
  rw [trimLeft, trimLeft, List.dropWhile_append]
  split
  · rename_i hnone
    refine ⟨ws.dropWhile p, ?_, by rw [List.isEmpty_iff.mp hnone, List.nil_append]⟩
    exact allBlank_iff.mpr fun c hc =>
      allBlank_iff.mp hws c ((List.dropWhile_suffix p).subset hc)
  · exact ⟨ws, hws, rfl⟩

theorem after?_append_blank {p : List Char} (hp : Word p) (hws : allBlank ws = true)
    (cs : List Char) : after? p (cs ++ ws) = (after? p cs).map (· ++ ws) := by
  rw [after?, after?, hp.isPrefixOf_append_blank hws]
  split
  · rename_i hprefix
    have hlength := (List.isPrefixOf_iff_prefix.mp hprefix).length_le
    rw [List.drop_append_of_le_length hlength, Option.map_some]
  · rfl

theorem afterOpener?_append_blank (hws : allBlank ws = true) (cs : List Char) :
    afterOpener? (cs ++ ws) = (afterOpener? cs).map (· ++ ws) := by
  rw [afterOpener?, afterOpener?, after?_append_blank (by decide) hws,
    after?_append_blank (by decide) hws]
  cases after? ['-', '-'] cs <;> rfl

/-- Blanks at the end of a line do not make it a marker. -/
theorem isMarker_append_blank (hws : allBlank ws = true) (line : List Char) :
    isMarker (line ++ ws) = isMarker line := by
  -- each part of the marker is looked for at the start of what is left, and is a word
  obtain ⟨opening, hopening, hline⟩ := exists_trimLeft_append isBlank hws line
  rw [isMarker, isMarker, hline, afterOpener?_append_blank hopening]
  cases afterOpener? (trimLeft isBlank line) with
  | none => rfl
  | some opened =>
    obtain ⟨gap, hgap, hopened⟩ := exists_trimLeft_append isGap hopening opened
    simp only [Option.map_some]
    rw [hopened, after?_append_blank (by decide) hgap]
    cases after? ['/', '/'] (trimLeft isGap opened) with
    | none => rfl
    | some rest =>
      obtain ⟨left, hleft, hrest⟩ := exists_trimLeft_append isGap hgap rest
      simp only [Option.map_some]
      rw [hrest, Word.isPrefixOf_append_blank (by decide) hleft]

/-! ## Sections -/

/-- Without a marker everything is in the apply section. -/
theorem ofLines_unmarked {ls : List (List Char)} (hls : ∀ line ∈ ls, isMarker line = false) :
    ofLines ls = ⟨String.ofList (unlines ls), none⟩ := by
  have hall : ∀ line ∈ ls, (!isMarker line) = true := fun line h => by rw [hls line h]; rfl
  have htake : ls.takeWhile (fun line => !isMarker line) = ls :=
    List.takeWhile_eq_self_iff.mpr hall
  have hdrop : ls.dropWhile (fun line => !isMarker line) = [] :=
    List.dropWhile_eq_nil_iff.mpr hall
  rw [ofLines, htake, hdrop]

/-- The sections are the lines before and after the first marker. -/
theorem ofLines_append {before after : List (List Char)} {m : List Char}
    (hbefore : ∀ line ∈ before, isMarker line = false) (hm : isMarker m = true) :
    ofLines (before ++ m :: after) =
      ⟨String.ofList (unlines before), some (String.ofList (unlines after))⟩ := by
  have hall : ∀ line ∈ before, (!isMarker line) = true := fun line h => by
    rw [hbefore line h]
    rfl
  rw [ofLines, List.takeWhile_append_of_pos hall, List.dropWhile_append_of_pos hall]
  simp [hm]

/-- No line of the apply section is a marker when none of its lines was one in the body. -/
theorem unmarked_unlines {before : List (List Char)} (hlines : ∀ line ∈ before, '\n' ∉ line)
    (hbefore : ∀ line ∈ before, isMarker line = false) :
    ∀ line ∈ lines (unlines before), isMarker line = false := by
  intro line hline
  obtain ⟨ws, hws, hmem⟩ := exists_of_mem_lines_unlines hlines hline
  rw [← isMarker_append_blank hws]
  exact hbefore _ hmem

/-- Sections that are put together around a marker come apart there. -/
theorem ofText_joined {up m down : String} (hup : Ended up.toList) (hdown : Ended down.toList)
    (hupReturn : '\r' ∉ up.toList) (hdownReturn : '\r' ∉ down.toList)
    (hunmarked : ∀ line ∈ lines up.toList, isMarker line = false)
    (hline : '\n' ∉ m.toList) (hm : isMarker m.toList = true) :
    ofText (up ++ m ++ "\n" ++ down) = ⟨up, some down⟩ := by
  -- a carriage return at the end of the marker line goes with the line end
  obtain ⟨kept, ws, hkept, hws, hfirst⟩ := exists_firstLine_blank hline down.toList
  have hmarker : isMarker kept = true := by
    rwa [hkept, isMarker_append_blank hws] at hm
  have hlines : lines (up ++ m ++ "\n" ++ down).toList =
      lines up.toList ++ kept :: lines down.toList := by
    rw [← hfirst, ← hup.lines_append]
    simp
  rw [ofText, hlines, ofLines_append hunmarked hmarker, unlines_lines hup hupReturn,
    unlines_lines hdown hdownReturn, String.ofList_toList, String.ofList_toList]

/-- A body without a marker line has an apply section alone, of all its lines.  Otherwise the
sections are what stands before and after the first marker line: no line of the apply section is a
marker, and with the marker line between them the sections make up all lines of the body.  And
whatever sections are put together around a marker line come back. -/
theorem ofText_lossless :
    (∀ content : String,
      let written := lines content.toList
      (written.find? isMarker = none → ofText content = ⟨String.ofList (unlines written), none⟩) ∧
      ∀ m, written.find? isMarker = some m → ∃ undo,
        (ofText content).down = some undo ∧
        (∀ line ∈ lines (ofText content).up.toList, isMarker line = false) ∧
        (ofText content).up.toList ++ m ++ '\n' :: undo.toList = unlines written) ∧
    ∀ up m down : String, Ended up.toList → Ended down.toList →
      '\r' ∉ up.toList → '\r' ∉ down.toList →
      (∀ line ∈ lines up.toList, isMarker line = false) →
      '\n' ∉ m.toList → isMarker m.toList = true →
      ofText (up ++ m ++ "\n" ++ down) = ⟨up, some down⟩ := by
  refine ⟨fun content => ⟨fun hnone => ?_, fun m hsome => ?_⟩, ?_⟩
  · refine ofLines_unmarked fun line hline => ?_
    simpa using List.find?_eq_none.mp hnone line hline
  · obtain ⟨hm, before, after, hsplit, hbefore⟩ := List.find?_eq_some_iff_append.mp hsome
    have hunmarked : ∀ line ∈ before, isMarker line = false := by simpa using hbefore
    have hlines : ∀ line ∈ before, '\n' ∉ line := fun line hline =>
      lineFeed_notMem_of_mem_lines (hsplit ▸ List.mem_append_left _ hline)
    rw [ofText, hsplit, ofLines_append hunmarked hm]
    refine ⟨_, rfl, ?_, ?_⟩
    · rw [String.toList_ofList]
      exact unmarked_unlines hlines hunmarked
    · rw [String.toList_ofList, String.toList_ofList, unlines_append, unlines_cons,
        List.append_assoc]
  · intro up m down
    exact ofText_joined

/-- A carriage return that stays at the end of a line, a second marker, and a marker line whose
carriage return goes with its line end. -/
theorem ofText_lossless_twice :
    let content := "A;\r\r\n--\t// @UNDO all\r\nB;\n-- //@UNDO\nC"
    (ofText content).up = "A;\r\n" ∧
    (∃ undo, (ofText content).down = some undo ∧
      (∀ line ∈ lines (ofText content).up.toList, isMarker line = false) ∧
      (ofText content).up.toList ++ "--\t// @UNDO all".toList ++ '\n' :: undo.toList =
        unlines (lines content.toList)) ∧
    ofText ("SELECT 1; -- //@UNDO\n\n" ++ " ////@UNDO\r" ++ "\n" ++ "-- //@UNDO\nB;\n") =
      ⟨"SELECT 1; -- //@UNDO\n\n", some "-- //@UNDO\nB;\n"⟩ := by
  intro content
  have hbody := (ofText_lossless.1 content).2 "--\t// @UNDO all".toList (by decide +kernel)
  have hjoined := ofText_lossless.2 "SELECT 1; -- //@UNDO\n\n" " ////@UNDO\r" "-- //@UNDO\nB;\n"
    (by decide +kernel) (by decide +kernel) (by decide +kernel) (by decide +kernel)
    (by decide +kernel) (by decide +kernel) (by decide +kernel)
  exact ⟨by decide +kernel, hbody, hjoined⟩

/-! ## Both kinds of line ends -/

/-- With a carriage return before each line feed a text has the same sections, and by any rules the
same statements. -/
theorem ofText_withReturns {text : String} (hreturn : '\r' ∉ text.toList) :
    let other := String.ofList (withReturns text.toList)
    ofText other = ofText text ∧
    ∀ rules : StatementRules, rules.statements other = rules.statements text := by
  intro other
  have hlines : lines other.toList = lines text.toList := by
    rw [String.toList_ofList, lines_withReturns hreturn]
  -- a text that is sent whole is sent with line feeds alone
  have hends : unixEnds other.toList = unixEnds text.toList := by
    rw [String.toList_ofList, unixEnds_withReturns hreturn, unixEnds_eq_self hreturn]
  refine ⟨congrArg ofLines hlines, fun rules => ?_⟩
  rw [StatementRules.statements, StatementRules.statements, StatementRules.cut, StatementRules.cut,
    hlines, hends]

/-- A delimiter that fills a line, a marker and a last line without a line end. -/
theorem ofText_withReturns_script :
    let text := "-- @DELIMITER GO\nA;\n B\n GO\n\n-- //@UNDO\nC"
    let other := "-- @DELIMITER GO\r\nA;\r\n B\r\n GO\r\n\r\n-- //@UNDO\r\nC"
    other = String.ofList (withReturns text.toList) ∧
    ofText other = ⟨"-- @DELIMITER GO\nA;\n B\n GO\n\n", some "C\n"⟩ ∧
    ({ fullLine := true } : StatementRules).statements other = ["A;\n B", "C"] ∧
    ({ whole := true } : StatementRules).statements other = [text] := by
  intro text other
  have hother : other = String.ofList (withReturns text.toList) := by decide +kernel
  obtain ⟨hsections, hstatements⟩ := @ofText_withReturns text (by decide +kernel)
  refine ⟨hother, ?_, ?_, ?_⟩
  · rw [hother, hsections]
    decide +kernel
  · rw [hother, hstatements]
    decide +kernel
  · rw [hother, hstatements]
    decide +kernel

end Sections

end Migrations
