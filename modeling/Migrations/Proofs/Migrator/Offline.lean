import Migrations.Migrator.Offline
import Migrations.Proofs.Migrator.Planning
import Migrations.Proofs.Script.Cutting
import Migrations.Proofs.Script.FileName

/-!
# Offline Scripts and Runs

An offline script puts the sections of scripts and the statements for their rows one after the
other, so cutting it up carries over from each section to the statement for its row.  What comes out
is what a run executes exactly when every section ends its last statement with the delimiter: a
statement that is left open is glued to the one for the row.

## Main statements

- `Migrator.run_renderScript`: what the part of one script is cut into.
- `Migrator.offline_matches_iff`: when the offline scripts of what is pending match the runs.
-/

namespace Migrations

open Attempt Text

/-! ## Texts without line feeds -/

theorem Instant.lineFeed_notMem_toDisplay (t : Instant) : '\n' ∉ t.toDisplay.toList := by
  have hyear : ∀ year, '\n' ∉ yearText year := by
    intro year
    unfold yearText
    split
    · exact lineFeed_notMem_padded _ _
    · rw [List.mem_cons, not_or]
      exact ⟨by split <;> decide, lineFeed_notMem_padded _ _⟩
  rw [toDisplay, String.toList_ofList]
  simp [stamp, hyear, lineFeed_notMem_padded]

theorem ChangeId.word_toString (id : ChangeId) : Word (toString id).toList := by
  have htext : (toString id).toList = Nat.toDigits 10 id.toNat := Nat.toList_repr
  rw [htext]
  exact word_toDigits id.toNat

namespace StatementRules

/-- The statements of a script for one direction; none when it has no such section. -/
def ofScript (rules : StatementRules) (direction : Direction) (script : Script) : List String :=
  match script.text direction with
  | .ok text => rules.statements text
  | .error _ => []

end StatementRules

/-- Settings under which statements are told apart line by line, by a delimiter that is a word and
can be seen where it has to fill a line. -/
structure Settings.Separating (settings : Settings) : Prop where
  pieces : settings.sendFullScript = false
  delimiter : Word settings.delimiter.toList
  seen : settings.fullLineDelimiter = true →
    StatementRules.isComment settings.delimiter.toList = false
  table : '\n' ∉ settings.changelogTable.toList

namespace Migrator

theorem lineFeed_notMem_doubled {text : String} (h : '\n' ∉ text.toList) :
    '\n' ∉ (doubled text).toList := by
  rw [doubled, String.toList_ofList, List.mem_flatMap]
  rintro ⟨c, hc, hmem⟩
  split at hmem
  · exact absurd hmem (by decide)
  · exact h (List.mem_singleton.mp hmem ▸ hc)

/-! ## The statements for rows -/

/-- The statement for the row of a script is one that can be told apart from what is around it. -/
theorem inserted_ledgerStatement {table time : String} {script : Script} (direction : Direction)
    (htable : '\n' ∉ table.toList) (htime : '\n' ∉ time.toList)
    (hdescription : '\n' ∉ script.description.toList) :
    Cutting.Inserted (ledgerStatement table time script direction).toList := by
  have hid := script.id.word_toString
  have hsame : ∀ text : String, toString text = text := fun _ => rfl
  -- only its first word and its last character matter, and that no part brings a line feed along
  cases direction with
  | up =>
    have htext : (ledgerStatement table time script .up).toList =
        'I' :: ("NSERT INTO ".toList ++ table.toList ++
          " (id, applied_at, description) VALUES (".toList ++ (toString script.id).toList ++
          ", '".toList ++ time.toList ++ "', '".toList ++ (doubled script.description).toList ++
          ['\''] ++ [')']) := by
      simp [ledgerStatement, hsame]
    rw [htext]
    have hdoubled := lineFeed_notMem_doubled hdescription
    refine .of_ends (by decide) (fun _ => rfl) ?_ ⟨by decide, by decide, by decide⟩ ?_ (by decide)
    · simp
    · simp [htable, hid.lineFeed_notMem, htime, hdoubled]
  | down =>
    have htext : (ledgerStatement table time script .down).toList =
        'D' :: ("ELETE FROM ".toList ++ table.toList ++ " WHERE id = ".toList ++
          (toString script.id).toList) := by
      simp [ledgerStatement, hsame]
    rw [htext]
    refine .of_ends (by decide) (fun _ => rfl) ?_ hid.tight ?_ hid.lineFeed_notMem
    · simp
    · simp [htable]

/-! ## Offline scripts -/

theorem tight_heading {script : Script}
    (hread : ScriptName.read script.filename = .ok (script.id, script.description)) :
    Tight ("-- ".toList ++ script.filename.toList) :=
  (ScriptName.tight_of_read hread).cons_append (by decide) ['-', ' ']

/-- The line that names a script is a comment, and one that puts no delimiter in force. -/
theorem step_heading {fullLine : Bool} {cutting : Cutting} {script : Script}
    (hread : ScriptName.read script.filename = .ok (script.id, script.description)) :
    cutting.step fullLine ("-- ".toList ++ script.filename.toList) = ([], cutting) := by
  have htight := tight_heading hread
  have hnone : StatementRules.directive? ("-- ".toList ++ script.filename.toList) = none := by
    obtain ⟨c, rest, hname, hdigit⟩ := ScriptName.read_digit hread
    rw [hname]
    exact StatementRules.directive?_numbered hdigit rest
  rw [Cutting.step_comment, htight.trim_eq, hnone]
  · rfl
  · rw [htight.trim_eq]
    rfl

/-- A script whose section leaves the delimiter as it is, under a name of one line that can be
read. -/
structure Legible (settings : Settings) (direction : Direction) (script : Script) : Prop where
  read : ScriptName.read script.filename = .ok (script.id, script.description)
  line : '\n' ∉ script.filename.toList
  text : ∃ text, script.text direction = .ok text ∧ settings.statementRules.KeepsDelimiter text

theorem Legible.inserted {settings : Settings} {direction : Direction} {script : Script}
    (hscript : Legible settings direction script) (hsettings : settings.Separating) {time : String}
    (htime : '\n' ∉ time.toList) :
    Cutting.Inserted (ledgerStatement settings.changelogTable time script direction).toList := by
  refine inserted_ledgerStatement direction hsettings.table htime fun hmem => ?_
  -- the description has nothing but blanks beside what the name has
  rcases ScriptName.mem_description hscript.read hmem with h | h
  · exact absurd h (by decide)
  · exact hscript.line h

/-- What offline scripts stand for: the statements that a run executes for each script, and the one
for its row. -/
def expectedStatements (settings : Settings) (time : String) (direction : Direction)
    (scripts : List Script) : List String :=
  scripts.flatMap fun script => settings.statementRules.ofScript direction script ++
    [ledgerStatement settings.changelogTable time script direction]

variable {settings : Settings} {time : String} {direction : Direction}

/-- The part of one script, with what follows it, as its lines are looked at: the heading, the
section, the statement for the row with its delimiter, and blank lines after both of them. -/
theorem renderScript_append {script : Script} {text : String}
    (htext : script.text direction = .ok text) :
    ∃ rendered, renderScript settings time direction script = .ok rendered ∧
      ∀ rest, rendered.toList ++ rest = ("-- ".toList ++ script.filename.toList) ++
        '\n' :: (trimRight isBlank text.toList ++ '\n' :: '\n' ::
          ((ledgerStatement settings.changelogTable time script direction).toList ++
            Cutting.ending settings.fullLineDelimiter settings.delimiter.toList ++
            '\n' :: '\n' :: rest)) := by
  have hending : (terminator settings).toList =
      Cutting.ending settings.fullLineDelimiter settings.delimiter.toList := by
    rw [terminator, Cutting.ending]
    split <;> simp
  refine ⟨_, by rw [renderScript, htext]; rfl, fun rest => ?_⟩
  simp [hending]

/-- The part of one script is cut into the ended statements of its section and the statement for its
row, which takes along what the section has left open. -/
theorem run_renderScript (hsettings : settings.Separating) (htime : '\n' ∉ time.toList)
    {script : Script} (hscript : Legible settings direction script) {text : String}
    (htext : script.text direction = .ok text) :
    ∃ rendered left, renderScript settings time direction script = .ok rendered ∧
      trim left = trim (settings.statementRules.cutting text).2.collected ∧
      ∀ rest, settings.statementRules.start.run settings.fullLineDelimiter
          (lines (rendered.toList ++ rest)) =
        ((settings.statementRules.cutting text).1 ++
          trim (left ++ (ledgerStatement settings.changelogTable time script direction).toList) ::
            (settings.statementRules.start.run settings.fullLineDelimiter (lines rest)).1,
          (settings.statementRules.start.run settings.fullLineDelimiter (lines rest)).2) := by
  obtain ⟨found, hsection, hkeeps⟩ := hscript.text
  obtain rfl : found = text := Except.ok.inj (hsection.symm.trans htext)
  have hword : Word settings.statementRules.start.delimiter := hsettings.delimiter
  obtain ⟨⟨delimiter, left⟩, halike, hrun⟩ :=
    @Cutting.run_trimRight settings.fullLineDelimiter _ hword found.toList
  -- the section leaves the usual delimiter in force
  obtain rfl : delimiter = settings.delimiter.toList := halike.delimiter.trans hkeeps
  obtain ⟨rendered, hrendered, hlines⟩ :=
    @renderScript_append settings time direction script found htext
  refine ⟨rendered, left, hrendered, halike.collected, fun rest => ?_⟩
  have hone : '\n' ∉ "-- ".toList ++ script.filename.toList := by simp [hscript.line]
  have hheading := (tight_heading hscript.read).lines_lineFeed hone
  have hstatement := @Cutting.run_statement settings.fullLineDelimiter
    ⟨settings.delimiter.toList, left⟩ _ hsettings.delimiter hsettings.seen
    (hscript.inserted hsettings htime) ('\n' :: rest)
  dsimp only at hstatement
  rw [hlines, hheading, Cutting.run_cons, step_heading hscript.read, hrun,
    @Cutting.run_blankLine _ ⟨settings.delimiter.toList, left⟩ hsettings.delimiter, hstatement,
    @Cutting.run_blankLine _ ⟨settings.delimiter.toList, []⟩ hsettings.delimiter]
  rfl

/-- What the first script stands for comes first. -/
theorem map_expectedStatements_cons (hsettings : settings.Separating) {script : Script}
    {text : String} (htext : script.text direction = .ok text) (rest : List Script) :
    (expectedStatements settings time direction (script :: rest)).map String.toList =
      (settings.statementRules.cutting text).1 ++
        (StatementRules.flush (settings.statementRules.cutting text).2.collected ++
          (ledgerStatement settings.changelogTable time script direction).toList ::
            (expectedStatements settings time direction rest).map String.toList) := by
  have hown : settings.statementRules.ofScript direction script =
      settings.statementRules.statements text := by
    rw [StatementRules.ofScript, htext]
  rw [expectedStatements, List.flatMap_cons, ← expectedStatements, hown, List.map_append,
    List.map_append, StatementRules.map_statements hsettings.pieces]
  simp

/-- The offline script of scripts is cut into what it stands for just when every section ends its
last statement, and it ends its own last one in any case. -/
theorem cutting_renderAll (hsettings : settings.Separating) (htime : '\n' ∉ time.toList)
    {scripts : List Script} (hscripts : ∀ script ∈ scripts, Legible settings direction script) :
    ∃ rendered, renderAll settings time direction scripts = .ok rendered ∧
      (settings.statementRules.cutting rendered).2.collected = [] ∧
      ((settings.statementRules.cutting rendered).1 =
          (expectedStatements settings time direction scripts).map String.toList ↔
        ∀ script ∈ scripts, ∀ text, script.text direction = .ok text →
          settings.statementRules.Finishes text) := by
  induction scripts with
  | nil => exact ⟨"", rfl, rfl, fun _ script hmem => (nomatch hmem), fun _ => rfl⟩
  | cons script rest ih =>
    obtain ⟨others, hothers, hclosed, hiff⟩ :=
      ih fun other hmem => hscripts other (List.mem_cons_of_mem _ hmem)
    have hscript := hscripts script List.mem_cons_self
    obtain ⟨text, htext, -⟩ := hscript.text
    obtain ⟨rendered, left, hrendered, hleft, hrun⟩ :=
      run_renderScript hsettings htime hscript htext
    have hcutting : settings.statementRules.cutting (rendered ++ others) =
        ((settings.statementRules.cutting text).1 ++
          trim (left ++ (ledgerStatement settings.changelogTable time script direction).toList) ::
            (settings.statementRules.cutting others).1,
          (settings.statementRules.cutting others).2) := by
      rw [StatementRules.cutting, String.toList_append]
      exact hrun others.toList
    -- what is left is the same up to blanks at the end of the section
    have hflush : StatementRules.flush (settings.statementRules.cutting text).2.collected =
        StatementRules.flush left := by
      rw [StatementRules.flush, StatementRules.flush, hleft]
    have hfinishes : allBlank left = true ↔ settings.statementRules.Finishes text := by
      rw [← trim_eq_nil, hleft, trim_eq_nil]
      rfl
    refine ⟨rendered ++ others, ?_, ?_, ?_⟩
    · rw [renderAll, hrendered, hothers]
      rfl
    · rw [hcutting]
      exact hclosed
    · have htight := (hscript.inserted hsettings htime).tight
      rw [hcutting, map_expectedStatements_cons hsettings htext, hflush]
      dsimp only
      rw [List.append_cancel_left_eq, StatementRules.glued_eq_iff htight, hfinishes, hiff,
        List.forall_mem_cons]
      -- the script has no other section for this direction
      refine and_congr_left' ⟨fun h other hother => ?_, fun h => h text htext⟩
      rwa [← Except.ok.inj (htext.symm.trans hother)]

/-! ## What is pending -/

variable {migrator : Migrator} {world : World}

/-- An offline script bears the time at which it is made. -/
theorem ends_render {scripts : List Script} {ok : String → World → Prop}
    {error : Failure → World → Prop} :
    Ends (migrator.render direction scripts) world ok error ↔
      let time := (world.clock world.readings).toDisplay
      let after := { world with readings := world.readings + 1 }
      match renderAll migrator.settings time direction scripts with
      | .ok text => ok text after
      | .error failure => error failure after := by
  rw [render, ends_bind, ends_lift, Access.run_now]
  dsimp only
  cases renderAll migrator.settings (world.clock world.readings).toDisplay direction scripts <;> rfl

theorem ends_pendingScripts {catalog : Catalog} {scripts : List Script}
    (hscan : migrator.folder.scan world.home = .ok catalog)
    (hreach : world.database.unreachable = false)
    (hscripts : catalog.loadAll world.home (catalog.pendingEntries (migrator.rows world)) =
      .ok scripts) {ok : List Script → World → Prop} {error : Failure → World → Prop} :
    Ends migrator.pendingScripts world ok error ↔ ok scripts world := by
  rw [pendingScripts, ends_bind, Migrator.catalog, Access.ends_files, hscan]
  dsimp only
  rw [ends_bind, Ledger.ends_changes, hreach, if_neg Bool.false_ne_true, Access.ends_files,
    rowsOf_ledger, hscripts]

/-- The offline script for what is pending, which is cut into what it stands for just when all
sections end their last statements. -/
theorem ends_render_legible {scripts : List Script} (hsettings : migrator.settings.Separating)
    (hscripts : ∀ script ∈ scripts, Legible migrator.settings direction script) :
    Ends (migrator.render direction scripts) world
      (fun text _ => migrator.settings.statementRules.statements text =
          expectedStatements migrator.settings (world.clock world.readings).toDisplay direction
            scripts ↔
        ∀ script ∈ scripts, ∀ text, script.text direction = .ok text →
          migrator.settings.statementRules.Finishes text)
      (fun _ _ => False) := by
  obtain ⟨rendered, hrendered, hclosed, hiff⟩ := cutting_renderAll hsettings
    (world.clock world.readings).lineFeed_notMem_toDisplay hscripts
  rw [ends_render]
  dsimp only
  rw [hrendered]
  dsimp only
  -- nothing is left over at the end, so the statements are those that were ended
  have hstatements :=
    @StatementRules.map_statements migrator.settings.statementRules hsettings.pieces rendered
  rw [hclosed, StatementRules.flush, trim_eq_nil.mpr rfl, List.isEmpty_nil, if_pos rfl,
    List.append_nil] at hstatements
  rw [← hiff, ← hstatements]
  exact (List.map_inj_right fun _ _ => String.toList_inj.mp).symm

/-- The offline scripts for what is pending are cut into the statements that runs would execute for
the pending scripts, in their order, each followed by the statement for its row, just when every
section ends its last statement.  The sections may change the delimiter as long as they change it
back; otherwise theirs stays in force for the statement of the row and what comes after it. -/
theorem offline_matches_iff {catalog : Catalog} {scripts : List Script}
    (hsettings : migrator.settings.Separating)
    (hscan : migrator.folder.scan world.home = .ok catalog)
    (hreach : world.database.unreachable = false)
    (hscripts : catalog.loadAll world.home (catalog.pendingEntries (migrator.rows world)) =
      .ok scripts)
    (hnames : ∀ script ∈ scripts, '\n' ∉ script.filename.toList) :
    let rules := migrator.settings.statementRules
    let time := (world.clock world.readings).toDisplay
    (scripts.map Script.id).Pairwise (· < ·) ∧
    (∀ id, id ∈ scripts.map Script.id ↔ id ∈ catalog.ids ∧ id ∉ migrator.appliedIds world) ∧
    ((∀ script ∈ scripts, rules.KeepsDelimiter script.up) →
      Ends migrator.scriptPending world
        (fun text _ => rules.statements text =
            expectedStatements migrator.settings time .up scripts ↔
          ∀ script ∈ scripts, rules.Finishes script.up)
        (fun _ _ => False)) ∧
    ((∀ script ∈ scripts, ∃ undo, script.down = some undo ∧ rules.KeepsDelimiter undo) →
      Ends migrator.scriptPendingUndo world
        (fun text _ => rules.statements text =
            expectedStatements migrator.settings time .down scripts.reverse ↔
          ∀ script ∈ scripts, ∀ undo, script.down = some undo → rules.Finishes undo)
        (fun _ _ => False)) := by
  have hread := ScriptFolder.read_loadAll hscan
    (fun entry hmem => (Catalog.mem_pendingEntries.mp hmem).1) hscripts
  refine ⟨pending_ascending hscan hscripts, mem_pending_ids hscan hscripts, fun hup => ?_,
    fun hdown => ?_⟩
  -- every script has a section upwards, and downwards those that can be undone have one
  · have hlegible : ∀ script ∈ scripts, Legible migrator.settings .up script :=
      fun script hmem => ⟨hread script hmem, hnames script hmem, _, rfl, hup script hmem⟩
    rw [scriptPending, ends_bind, ends_pendingScripts hscan hreach hscripts]
    refine (ends_render_legible hsettings hlegible).mono (fun text _ h => h.trans ?_) fun _ _ h => h
    exact forall₂_congr fun script hmem =>
      ⟨fun h => h script.up rfl, fun h text htext => by rwa [← Except.ok.inj htext]⟩
  · have hundo : ∀ {script : Script} {text : String},
        script.text .down = .ok text ↔ script.down = some text := by
      intro script text
      rw [Script.text]
      cases script.down <;> simp
    have hlegible : ∀ script ∈ scripts.reverse, Legible migrator.settings .down script := by
      intro script hmem
      have hmem := List.mem_reverse.mp hmem
      obtain ⟨text, htext, hkeeps⟩ := hdown script hmem
      exact ⟨hread script hmem, hnames script hmem, text, hundo.mpr htext, hkeeps⟩
    rw [scriptPendingUndo, ends_bind, ends_pendingScripts hscan hreach hscripts]
    refine (ends_render_legible hsettings hlegible).mono (fun text _ h => h.trans ?_) fun _ _ h => h
    simp only [List.mem_reverse, hundo]

private theorem separating_plain : plain.settings.Separating where
  pieces := rfl
  delimiter := by
    refine ⟨by decide, fun c hc => ?_⟩
    obtain rfl : c = ';' := List.mem_singleton.mp hc
    decide
  seen := fun h => nomatch h
  table := by decide

/-- A world with two scripts, one of which changes the delimiter and changes it back. -/
private def restoring : World where
  clock := fun _ => ⟨0, 0⟩
  home := ⟨[(["scripts"], .folder),
    (["scripts", "1_it's.sql"], .file "SELECT 1;\n-- //@UNDO\nSELECT -1;".toUTF8 false),
    (["scripts", "2_b.sql"],
      .file "-- @DELIMITER $$\nSELECT 2$$\n-- @DELIMITER ;\n-- //@UNDO\n".toUTF8 false)]⟩

private def restoringScripts : Catalog where
  entries := [⟨⟨1⟩, "it's", "1_it's.sql", .file ⟨"scripts/1_it's.sql"⟩⟩,
    ⟨⟨2⟩, "b", "2_b.sql", .file ⟨"scripts/2_b.sql"⟩⟩]
  ascending := by decide

private theorem scan_restoring : plain.folder.scan restoring.home = .ok restoringScripts :=
  ScriptFolder.scan_of_ascending (by rfl) (by rfl) (by rfl) restoringScripts.ascending

private theorem load_restoring :
    restoringScripts.loadAll restoring.home
      (restoringScripts.pendingEntries (plain.rows restoring)) =
    .ok [⟨⟨1⟩, "it's", "1_it's.sql", "SELECT 1;\n", some "SELECT -1;\n"⟩,
      ⟨⟨2⟩, "b", "2_b.sql", "-- @DELIMITER $$\nSELECT 2$$\n-- @DELIMITER ;\n", some ""⟩] :=
  eq_ok_of_toOption (by decide +kernel)

/-- All four sections end their last statements. -/
theorem offline_matches_iff_restoring :
    Ends plain.scriptPending restoring
      (fun text _ => plain.settings.statementRules.statements text = ["SELECT 1",
        "INSERT INTO changelog (id, applied_at, description) " ++
          "VALUES (1, '1970-01-01 00:00:00', 'it''s')",
        "SELECT 2",
        "INSERT INTO changelog (id, applied_at, description) " ++
          "VALUES (2, '1970-01-01 00:00:00', 'b')"])
      (fun _ _ => False) ∧
    Ends plain.scriptPendingUndo restoring
      (fun text _ => plain.settings.statementRules.statements text =
        ["DELETE FROM changelog WHERE id = 2", "SELECT -1", "DELETE FROM changelog WHERE id = 1"])
      (fun _ _ => False) := by
  obtain ⟨-, -, hup, hdown⟩ := offline_matches_iff separating_plain scan_restoring rfl
    load_restoring (by decide)
  constructor
  · refine (hup (by decide +kernel)).mono (fun text _ h => ?_) fun _ _ h => h
    exact h.mpr (by decide +kernel)
  · refine (hdown ?_).mono (fun text _ h => ?_) fun _ _ h => h
    · refine List.forall_mem_cons.mpr ⟨?_, List.forall_mem_singleton.mpr ?_⟩
      · exact ⟨"SELECT -1;\n", rfl, by decide +kernel⟩
      · exact ⟨"", rfl, by decide +kernel⟩
    · refine h.mpr (List.forall_mem_cons.mpr ⟨?_, List.forall_mem_singleton.mpr ?_⟩)
      · rintro _ ⟨⟩
        decide +kernel
      · rintro _ ⟨⟩
        decide +kernel

/-- A world with one script, whose section ends without a delimiter. -/
private def unended : World where
  clock := fun _ => ⟨0, 0⟩
  home := ⟨[(["scripts"], .folder),
    (["scripts", "1_a.sql"], .file "SELECT 1;\nSELECT 2".toUTF8 false)]⟩

private def unendedScripts : Catalog where
  entries := [⟨⟨1⟩, "a", "1_a.sql", .file ⟨"scripts/1_a.sql"⟩⟩]
  ascending := by decide

private theorem load_unended :
    unendedScripts.loadAll unended.home (unendedScripts.pendingEntries (plain.rows unended)) =
      .ok [⟨⟨1⟩, "a", "1_a.sql", "SELECT 1;\nSELECT 2\n", none⟩] :=
  eq_ok_of_toOption (by decide +kernel)

/-- Where a run executes two statements and then writes the row, the offline script has a statement
that is neither. -/
theorem offline_misses_unended :
    Ends plain.scriptPending unended
      (fun text _ => plain.settings.statementRules.statements text = ["SELECT 1",
        "SELECT 2\nINSERT INTO changelog (id, applied_at, description) " ++
          "VALUES (1, '1970-01-01 00:00:00', 'a')"])
      (fun _ _ => False) ∧
    expectedStatements plain.settings (unended.clock unended.readings).toDisplay .up
      [⟨⟨1⟩, "a", "1_a.sql", "SELECT 1;\nSELECT 2\n", none⟩] = ["SELECT 1", "SELECT 2",
        "INSERT INTO changelog (id, applied_at, description) " ++
          "VALUES (1, '1970-01-01 00:00:00', 'a')"] := by
  have hscan : plain.folder.scan unended.home = .ok unendedScripts :=
    ScriptFolder.scan_of_ascending (by rfl) (by rfl) (by rfl) unendedScripts.ascending
  have hrender : renderAll plain.settings (unended.clock unended.readings).toDisplay .up
      [⟨⟨1⟩, "a", "1_a.sql", "SELECT 1;\nSELECT 2\n", none⟩] =
      .ok ("-- 1_a.sql\nSELECT 1;\nSELECT 2\n\n" ++
        "INSERT INTO changelog (id, applied_at, description) " ++
        "VALUES (1, '1970-01-01 00:00:00', 'a');\n\n") := eq_ok_of_toOption (by decide +kernel)
  refine ⟨?_, by decide +kernel⟩
  rw [scriptPending, ends_bind, ends_pendingScripts hscan rfl load_unended, ends_render]
  dsimp only
  rw [hrender]
  show plain.settings.statementRules.statements _ = _
  decide +kernel

end Migrator

end Migrations
