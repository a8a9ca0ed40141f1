import Migrations.Proofs.Choice
import Migrations.Proofs.Migrator.Offline

/-!
# Ranges of Versions

The offline script from one version to another stands for the scripts with ids above the lower and
up to the higher version, so ranges that meet are put together by putting their texts together, in
either direction and at any version between them.  From zero on nothing is left out but a script
that has the id zero itself.

## Main statements

- `Migrator.between_append`: the entries of two ranges that meet.
- `Migrator.writes_up`, `Migrator.writes_down`: what is written for a range.
- `Migrator.rangeText_append`, `Migrator.script_append`: offline scripts of ranges that meet.
- `Migrator.script_zero_matches`: offline scripts from zero and runs on an empty ledger.
-/

namespace Migrations

open Attempt

/-! ## Entries of a range -/

theorem ChangeId.zero_lt {id : ChangeId} : (⟨0⟩ : ChangeId) < id ↔ id ≠ ⟨0⟩ := by
  rw [lt_def, ← toNat_inj.ne]
  exact Nat.pos_iff_ne_zero

namespace Migrator

variable {catalog : Catalog} {a b c : ChangeId}

theorem mem_between {entry : ScriptEntry} :
    entry ∈ between catalog a b ↔ entry ∈ catalog.entries ∧ a < entry.id ∧ entry.id ≤ b := by
  simp [between]

theorem between_ascending : (between catalog a b).Pairwise (fun a b => a.id < b.id) :=
  catalog.ascending.filter _

/-- The entries of a range are those of its two parts, wherever it is parted. -/
theorem between_append (hab : a < b) (hbc : b < c) :
    between catalog a c = between catalog a b ++ between catalog b c := by
  have hparts : (between catalog a b ++ between catalog b c).Pairwise (fun a b => a.id < b.id) := by
    refine List.pairwise_append.mpr ⟨between_ascending, between_ascending, ?_⟩
    intro entry hentry other hother
    exact Nat.lt_of_le_of_lt (mem_between.mp hentry).2.2 (mem_between.mp hother).2.1
  -- both are in the order of the ids, so it is enough that they have the same members
  refine eq_of_pairwise_of_mem (fun _ _ => ChangeId.lt_asymm) between_ascending hparts
    fun entry => ?_
  rw [List.mem_append, mem_between, mem_between, mem_between, ← and_or_left]
  refine and_congr_right fun _ => ?_
  simp only [ChangeId.lt_def, ChangeId.le_def] at *
  omega

theorem map_id_between : (between catalog a b).map ScriptEntry.id =
    catalog.ids.filter fun id => decide (a < id ∧ id ≤ b) := by
  rw [Catalog.ids, List.filter_map, between]
  refine congrArg (List.map ScriptEntry.id) (List.filter_congr fun entry _ => ?_)
  simp

/-! ## Texts of several scripts -/

/-- The offline script of two parts of scripts is that of the first one and that of the second. -/
theorem renderAll_append {settings : Settings} {time : String} {direction : Direction}
    {first second : List Script} {text : String} :
    renderAll settings time direction (first ++ second) = .ok text ↔
      ∃ before after, renderAll settings time direction first = .ok before ∧
        renderAll settings time direction second = .ok after ∧ text = before ++ after := by
  induction first generalizing text with
  | nil => simp [renderAll]
  | cons script rest ih =>
    rw [List.cons_append, renderAll, renderAll]
    constructor
    · intro h
      obtain ⟨head, hhead, h⟩ := bind_eq_ok.mp h
      obtain ⟨others, hothers, h⟩ := bind_eq_ok.mp h
      cases h
      obtain ⟨before, after, hbefore, hafter, rfl⟩ := ih.mp hothers
      exact ⟨head ++ before, after,
        bind_eq_ok.mpr ⟨head, hhead, bind_eq_ok.mpr ⟨before, hbefore, rfl⟩⟩, hafter,
        String.append_assoc.symm⟩
    · rintro ⟨before, after, hbefore, hafter, rfl⟩
      obtain ⟨head, hhead, hbefore⟩ := bind_eq_ok.mp hbefore
      obtain ⟨others, hothers, hbefore⟩ := bind_eq_ok.mp hbefore
      cases hbefore
      refine bind_eq_ok.mpr ⟨head, hhead, bind_eq_ok.mpr ⟨others ++ after, ?_, ?_⟩⟩
      · exact ih.mpr ⟨others, after, hothers, hafter, rfl⟩
      · rw [String.append_assoc]
        rfl

/-- Scripts in the order in which they are written for a direction. -/
def arranged : Direction → List Script → List Script
  | .up, scripts => scripts
  | .down, scripts => scripts.reverse

/-- The texts of older and of newer scripts in the order in which they are written. -/
def joined : Direction → String → String → String
  | .up, older, newer => older ++ newer
  | .down, older, newer => newer ++ older

theorem renderAll_arranged_append {settings : Settings} {time : String} {direction : Direction}
    {older newer : List Script} {text : String} :
    renderAll settings time direction (arranged direction (older ++ newer)) = .ok text ↔
      ∃ before after, renderAll settings time direction (arranged direction older) = .ok before ∧
        renderAll settings time direction (arranged direction newer) = .ok after ∧
        text = joined direction before after := by
  cases direction with
  | up => exact renderAll_append
  | down =>
    rw [arranged, List.reverse_append, renderAll_append]
    constructor
    · rintro ⟨after, before, hafter, hbefore, rfl⟩
      exact ⟨before, after, hbefore, hafter, rfl⟩
    · rintro ⟨before, after, hbefore, hafter, rfl⟩
      exact ⟨after, before, hafter, hbefore, rfl⟩

/-! ## What is written -/

/-- The offline script from one version to another is the text, made of the files of a home at a
time, whatever else there is in the world. -/
def Writes (migrator : Migrator) (home : Home) (time : Instant) (first last : ChangeId)
    (text : String) : Prop :=
  ∀ world : World, world.home = home → world.clock world.readings = time →
    Ends (migrator.script first last) world (fun written _ => written = text) (fun _ _ => False)

/-- The text is that of the scripts in a range. -/
def RangeText (migrator : Migrator) (home : Home) (time : Instant) (direction : Direction)
    (low high : ChangeId) (text : String) : Prop :=
  ∃ catalog scripts, migrator.folder.scan home = .ok catalog ∧
    catalog.loadAll home (between catalog low high) = .ok scripts ∧
    renderAll migrator.settings time.toDisplay direction (arranged direction scripts) = .ok text

/-- The scripts of a range. -/
def rangeScripts (migrator : Migrator) (low high : ChangeId) : Attempt Failure (List Script) := do
  let catalog ← migrator.catalog
  Access.files fun home => catalog.loadAll home (between catalog low high)

variable {migrator : Migrator} {home : Home} {time : Instant} {direction : Direction}
  {low high : ChangeId} {text : String}

theorem script_up (h : low < high) :
    migrator.script low high = migrator.rangeScripts low high >>= fun scripts =>
      migrator.render .up (arranged .up scripts) := by
  have hne : low ≠ high := by
    rintro rfl
    exact ChangeId.lt_irrefl _ h
  simp only [script, if_neg hne, if_pos h, rangeScripts, bind_assoc, arranged]

theorem script_down (h : low < high) :
    migrator.script high low = migrator.rangeScripts low high >>= fun scripts =>
      migrator.render .down (arranged .down scripts) := by
  have hne : high ≠ low := by
    rintro rfl
    exact ChangeId.lt_irrefl _ h
  simp only [script, if_neg hne, if_neg (ChangeId.lt_asymm h), rangeScripts, bind_assoc, arranged]

theorem ends_rangeScripts_render {world : World} :
    Ends (migrator.rangeScripts low high >>= fun scripts =>
        migrator.render direction (arranged direction scripts)) world
      (fun written _ => written = text) (fun _ _ => False) ↔
    migrator.RangeText world.home (world.clock world.readings) direction low high text := by
  rw [ends_bind, rangeScripts, ends_bind, Migrator.catalog, Access.ends_files, RangeText]
  cases migrator.folder.scan world.home with
  | error failure => simp
  | ok catalog =>
    dsimp only
    rw [Access.ends_files]
    cases hload : catalog.loadAll world.home (between catalog low high) with
    | error failure => simp [hload]
    | ok scripts =>
      dsimp only
      rw [ends_render]
      cases hrender : renderAll migrator.settings (world.clock world.readings).toDisplay direction
        (arranged direction scripts) <;> simp [hload, hrender, eq_comm]

/-- What is written depends on nothing but the scripts of the range and the time. -/
theorem writes_iff_rangeText {first last : ChangeId}
    (hscript : migrator.script first last = migrator.rangeScripts low high >>= fun scripts =>
      migrator.render direction (arranged direction scripts)) :
    migrator.Writes home time first last text ↔
      migrator.RangeText home time direction low high text := by
  rw [Writes, hscript]
  constructor
  · intro h
    have hends := h { home := home, clock := fun _ => time } rfl rfl
    rw [ends_rangeScripts_render] at hends
    exact hends
  · rintro h world rfl rfl
    exact ends_rangeScripts_render.mpr h

/-- Upwards the scripts of the range are written in the order of their ids. -/
theorem writes_up (h : low < high) :
    migrator.Writes home time low high text ↔ migrator.RangeText home time .up low high text :=
  writes_iff_rangeText (script_up h)

/-- Downwards the newest one is written first. -/
theorem writes_down (h : low < high) :
    migrator.Writes home time high low text ↔ migrator.RangeText home time .down low high text :=
  writes_iff_rangeText (script_down h)

theorem rangeText_iff_of_scan (hscan : migrator.folder.scan home = .ok catalog) :
    migrator.RangeText home time direction low high text ↔
      ∃ scripts, catalog.loadAll home (between catalog low high) = .ok scripts ∧
        renderAll migrator.settings time.toDisplay direction (arranged direction scripts) =
          .ok text := by
  simp [RangeText, hscan]

/-! ## Ranges that meet -/

theorem loadAll_between_append (hab : a < b) (hbc : b < c) {scripts : List Script} :
    catalog.loadAll home (between catalog a c) = .ok scripts ↔
      ∃ older newer, catalog.loadAll home (between catalog a b) = .ok older ∧
        catalog.loadAll home (between catalog b c) = .ok newer ∧ scripts = older ++ newer := by
  rw [between_append hab hbc]
  constructor
  · intro h
    obtain ⟨older, newer, hscripts, holder, hnewer⟩ := Catalog.loadAll_append h
    exact ⟨older, newer, holder, hnewer, hscripts⟩
  · rintro ⟨older, newer, holder, hnewer, rfl⟩
    exact Catalog.loadAll_append_of_parts holder hnewer

/-- The text of a range is put together from those of its two parts, wherever it is parted. -/
theorem rangeText_append (hab : a < b) (hbc : b < c) :
    migrator.RangeText home time direction a c text ↔
      ∃ before after, migrator.RangeText home time direction a b before ∧
        migrator.RangeText home time direction b c after ∧
        text = joined direction before after := by
  constructor
  · rintro ⟨catalog, scripts, hscan, hload, htext⟩
    obtain ⟨older, newer, holder, hnewer, rfl⟩ := (loadAll_between_append hab hbc).mp hload
    obtain ⟨before, after, hbefore, hafter, rfl⟩ := renderAll_arranged_append.mp htext
    exact ⟨before, after, ⟨catalog, older, hscan, holder, hbefore⟩,
      ⟨catalog, newer, hscan, hnewer, hafter⟩, rfl⟩
  · rintro ⟨before, after, ⟨catalog, older, hscan, holder, hbefore⟩,
      ⟨other, newer, hother, hnewer, hafter⟩, rfl⟩
    -- both parts are made of the same files
    obtain rfl : catalog = other := Except.ok.inj (hscan.symm.trans hother)
    exact ⟨catalog, older ++ newer, hscan,
      (loadAll_between_append hab hbc).mpr ⟨older, newer, holder, hnewer, rfl⟩,
      renderAll_arranged_append.mpr ⟨before, after, hbefore, hafter, rfl⟩⟩

/-- Offline scripts of ranges that meet are put together to that of the whole range: the whole one
can be written just when both parts can, in either direction and at any version between its ends.
Upwards and downwards the same scripts are written, those of the catalog above the lower and up to
the higher version, in opposite orders. -/
theorem script_append (hab : a < b) (hbc : b < c) :
    (∀ text, migrator.Writes home time a c text ↔
      ∃ before after, migrator.Writes home time a b before ∧
        migrator.Writes home time b c after ∧ text = before ++ after) ∧
    (∀ text, migrator.Writes home time c a text ↔
      ∃ before after, migrator.Writes home time c b before ∧
        migrator.Writes home time b a after ∧ text = before ++ after) ∧
    ∀ up down, migrator.Writes home time a c up → migrator.Writes home time c a down →
      ∃ catalog scripts, migrator.folder.scan home = .ok catalog ∧
        catalog.Loads home (catalog.ids.filter fun id => decide (a < id ∧ id ≤ c)) scripts ∧
        renderAll migrator.settings time.toDisplay .up scripts = .ok up ∧
        renderAll migrator.settings time.toDisplay .down scripts.reverse = .ok down := by
  have hac : a < c := Nat.lt_trans hab hbc
  refine ⟨fun text => ?_, fun text => ?_, fun up down hup hdown => ?_⟩
  · simp only [writes_up hac, writes_up hab, writes_up hbc]
    exact rangeText_append hab hbc
  · simp only [writes_down hac, writes_down hab, writes_down hbc]
    rw [rangeText_append hab hbc, exists_comm]
    -- the newer part comes first
    exact exists₂_congr fun _ _ => and_left_comm
  · obtain ⟨catalog, scripts, hscan, hload, hup⟩ := (writes_up hac).mp hup
    obtain ⟨other, others, hother, hothers, hdown⟩ := (writes_down hac).mp hdown
    obtain rfl : catalog = other := Except.ok.inj (hscan.symm.trans hother)
    obtain rfl : scripts = others := Except.ok.inj (hload.symm.trans hothers)
    have hloads := Catalog.loads_of_loadAll (fun entry hmem => (mem_between.mp hmem).1) hload
    rw [map_id_between] at hloads
    exact ⟨catalog, scripts, hscan, hloads, hup, hdown⟩

/-- The files of two scripts that can be undone. -/
private def numbered : Home :=
  ⟨[(["scripts"], .folder),
    (["scripts", "1_a.sql"], .file "a;\n-- //@UNDO\nxa;".toUTF8 false),
    (["scripts", "4_d.sql"], .file "d;\n-- //@UNDO\nxd;".toUTF8 false)]⟩

private def numberedScripts : Catalog where
  entries := [⟨⟨1⟩, "a", "1_a.sql", .file ⟨"scripts/1_a.sql"⟩⟩,
    ⟨⟨4⟩, "d", "4_d.sql", .file ⟨"scripts/4_d.sql"⟩⟩]
  ascending := by decide

private theorem scan_numbered : plain.folder.scan numbered = .ok numberedScripts :=
  ScriptFolder.scan_of_ascending (by rfl) (by rfl) (by rfl) numberedScripts.ascending

private def numberedBodies : List Script :=
  [⟨⟨1⟩, "a", "1_a.sql", "a;\n", some "xa;\n"⟩, ⟨⟨4⟩, "d", "4_d.sql", "d;\n", some "xd;\n"⟩]

private def numberedUp : String :=
  "-- 1_a.sql\na;\n\nINSERT INTO changelog (id, applied_at, description) " ++
    "VALUES (1, '1970-01-01 00:00:00', 'a');\n\n" ++
    "-- 4_d.sql\nd;\n\nINSERT INTO changelog (id, applied_at, description) " ++
    "VALUES (4, '1970-01-01 00:00:00', 'd');\n\n"

private def numberedDown : String :=
  "-- 4_d.sql\nxd;\n\nDELETE FROM changelog WHERE id = 4;\n\n" ++
    "-- 1_a.sql\nxa;\n\nDELETE FROM changelog WHERE id = 1;\n\n"

private theorem texts_numbered :
    (numberedScripts.loadAll numbered numberedScripts.entries).toOption = some numberedBodies ∧
    (renderAll plain.settings (⟨0, 0⟩ : Instant).toDisplay .up numberedBodies).toOption =
      some numberedUp ∧
    (renderAll plain.settings (⟨0, 0⟩ : Instant).toDisplay .down numberedBodies.reverse).toOption =
      some numberedDown := by decide +kernel

private theorem load_numbered :
    numberedScripts.loadAll numbered numberedScripts.entries = .ok numberedBodies :=
  eq_ok_of_toOption texts_numbered.1

private theorem writes_numbered {high : ChangeId} (hhigh : (⟨0⟩ : ChangeId) < high)
    (hall : between numberedScripts ⟨0⟩ high = numberedScripts.entries) :
    plain.Writes numbered ⟨0, 0⟩ ⟨0⟩ high numberedUp ∧
      plain.Writes numbered ⟨0, 0⟩ high ⟨0⟩ numberedDown := by
  rw [writes_up hhigh, writes_down hhigh, rangeText_iff_of_scan scan_numbered,
    rangeText_iff_of_scan scan_numbered, hall]
  exact ⟨⟨_, load_numbered, eq_ok_of_toOption texts_numbered.2.1⟩,
    ⟨_, load_numbered, eq_ok_of_toOption texts_numbered.2.2⟩⟩

/-- Parted at the first of two versions, on the way up and on the way down from far beyond. -/
theorem script_append_numbered :
    (∃ before after, plain.Writes numbered ⟨0, 0⟩ ⟨0⟩ ⟨1⟩ before ∧
      plain.Writes numbered ⟨0, 0⟩ ⟨1⟩ ⟨9⟩ after ∧ numberedUp = before ++ after) ∧
    ∃ before after, plain.Writes numbered ⟨0, 0⟩ ⟨9⟩ ⟨1⟩ before ∧
      plain.Writes numbered ⟨0, 0⟩ ⟨1⟩ ⟨0⟩ after ∧ numberedDown = before ++ after := by
  obtain ⟨hup, hdown, -⟩ :=
    @script_append ⟨0⟩ ⟨1⟩ ⟨9⟩ plain numbered ⟨0, 0⟩ (by decide) (by decide)
  obtain ⟨hwholeUp, hwholeDown⟩ := @writes_numbered ⟨9⟩ (by decide) (by rfl)
  exact ⟨(hup _).mp hwholeUp, (hdown _).mp hwholeDown⟩

/-! ## Ranges from zero on -/

variable {last : ChangeId}

theorem mem_selectUp_empty {entry : ScriptEntry} :
    entry ∈ catalog.selectUp [] (.through last) ↔ entry ∈ catalog.entries ∧ entry.id ≤ last := by
  rw [Catalog.mem_selectUp_through, Catalog.mem_pendingEntries]
  simp

theorem selectUp_empty_ascending :
    (catalog.selectUp [] (.through last)).Pairwise (fun a b => a.id < b.id) :=
  Catalog.pendingEntries_ascending.sublist (Catalog.selectUp_sublist _ _ _)

/-- Unless a script has the id zero, the range from zero on is what a run on an empty ledger
reaches. -/
theorem between_zero (hzero : ⟨0⟩ ∉ catalog.ids) :
    between catalog ⟨0⟩ last = catalog.selectUp [] (.through last) := by
  refine eq_of_pairwise_of_mem (fun _ _ => ChangeId.lt_asymm) between_ascending
    selectUp_empty_ascending fun entry => ?_
  rw [mem_between, mem_selectUp_empty]
  refine and_congr_right fun hentry => and_iff_right (ChangeId.zero_lt.mpr fun hid => ?_)
  exact hzero (hid ▸ List.mem_map_of_mem hentry)

/-- What can be said of the scripts of the range can be said of those of the plan, and there are the
former exactly when there is the latter. -/
theorem loads_between_zero_iff (hzero : ⟨0⟩ ∉ catalog.ids) (p : List Script → Prop) :
    (∃ scripts, catalog.loadAll home (between catalog ⟨0⟩ last) = .ok scripts ∧ p scripts) ↔
      ∃ plan, Plan.make catalog home [] .up (.through last) = .ok plan ∧ p plan.scripts := by
  rw [between_zero hzero]
  constructor
  · rintro ⟨scripts, hload, hp⟩
    exact ⟨_, Plan.make_up_eq_ok.mpr ⟨nofun, scripts, hload, rfl⟩, hp⟩
  · rintro ⟨plan, hplan, hp⟩
    obtain ⟨-, scripts, hload, rfl⟩ := Plan.make_up_eq_ok.mp hplan
    exact ⟨scripts, hload, hp⟩

/-- A script with the id zero is the first one that such a run reaches, and the range is what comes
after it. -/
theorem selectUp_zero (hzero : ⟨0⟩ ∈ catalog.ids) : ∃ first : ScriptEntry,
    first ∈ catalog.entries ∧ first.id = ⟨0⟩ ∧
      catalog.selectUp [] (.through last) = first :: between catalog ⟨0⟩ last := by
  obtain ⟨first, hfirst, hid⟩ := List.mem_map.mp hzero
  refine ⟨first, hfirst, hid, ?_⟩
  have hascending : (first :: between catalog ⟨0⟩ last).Pairwise (fun a b => a.id < b.id) := by
    refine List.pairwise_cons.mpr ⟨fun entry hentry => ?_, between_ascending⟩
    rw [hid]
    exact (mem_between.mp hentry).2.1
  refine eq_of_pairwise_of_mem (fun _ _ => ChangeId.lt_asymm) selectUp_empty_ascending hascending
    fun entry => ?_
  rw [mem_selectUp_empty, List.mem_cons, mem_between, ChangeId.zero_lt]
  constructor
  · rintro ⟨hentry, hle⟩
    by_cases hnew : entry.id = ⟨0⟩
    · exact .inl (ChangeId.eq_of_ascending catalog.ascending hentry hfirst (hnew.trans hid.symm))
    · exact .inr ⟨hentry, hnew, hle⟩
  · rintro (rfl | ⟨hentry, -, hle⟩)
    · exact ⟨hfirst, hid ▸ Nat.zero_le last.toNat⟩
    · exact ⟨hentry, hle⟩

/-- Unless a script has the id zero, the offline script from zero up to a version is that of the
scripts which a run up to the version executes on an empty ledger, and the one from the version down
to zero undoes them, the newest first.  A script with the id zero is the first one of the run, and
it is the only one that the offline scripts leave out. -/
theorem script_zero_matches (hscan : migrator.folder.scan home = .ok catalog)
    (hlast : ⟨0⟩ < last) :
    let planned := Plan.make catalog home [] .up (.through last)
    let rendered := renderAll migrator.settings time.toDisplay
    (⟨0⟩ ∉ catalog.ids → ∀ text,
      (migrator.Writes home time ⟨0⟩ last text ↔
        ∃ plan, planned = .ok plan ∧ rendered .up plan.scripts = .ok text) ∧
      (migrator.Writes home time last ⟨0⟩ text ↔
        ∃ plan, planned = .ok plan ∧ rendered .down plan.scripts.reverse = .ok text)) ∧
    (⟨0⟩ ∈ catalog.ids → ∀ plan, planned = .ok plan →
      ∃ first rest, plan.scripts = first :: rest ∧ first.id = ⟨0⟩ ∧ ∀ text,
        (migrator.Writes home time ⟨0⟩ last text ↔ rendered .up rest = .ok text) ∧
        (migrator.Writes home time last ⟨0⟩ text ↔ rendered .down rest.reverse = .ok text)) ∧
    ∀ world : World, world.home = home → migrator.rows world = [] →
      migrator.hooks.KeepLedger migrator.settings.changelogTable →
      Ends (migrator.up (.through last)) world
        (fun report _ => ∃ plan, planned = .ok plan ∧ report.committed = plan.ids)
        (fun _ _ => True) := by
  intro planned rendered
  refine ⟨fun hzero text => ?_, fun hzero plan hplan => ?_, ?_⟩
  · rw [writes_up hlast, writes_down hlast, rangeText_iff_of_scan hscan,
      rangeText_iff_of_scan hscan]
    exact ⟨loads_between_zero_iff hzero fun scripts => rendered .up scripts = .ok text,
      loads_between_zero_iff hzero fun scripts => rendered .down scripts.reverse = .ok text⟩
  · obtain ⟨-, scripts, hload, rfl⟩ := Plan.make_up_eq_ok.mp hplan
    obtain ⟨entry, hentry, hid, hselected⟩ := @selectUp_zero catalog last hzero
    rw [hselected] at hload
    obtain ⟨first, hfirst, hload⟩ := bind_eq_ok.mp hload
    obtain ⟨rest, hrest, hload⟩ := bind_eq_ok.mp hload
    cases hload
    have hfile := ScriptFolder.onFiles_scan hscan entry hentry
    refine ⟨first, rest, rfl, (Catalog.load_id hfile hfirst).trans hid, fun text => ?_⟩
    rw [writes_up hlast, writes_down hlast, rangeText_iff_of_scan hscan,
      rangeText_iff_of_scan hscan, hrest]
    simp [rendered, arranged]
  · rintro world rfl hrows hhooks
    refine (ends_up_recorded hhooks).mono (fun report _ h => ?_) fun _ _ _ => trivial
    obtain ⟨found, plan, hfound, hplan, hcommitted, -⟩ := h
    obtain rfl : catalog = found := Except.ok.inj (hscan.symm.trans hfound)
    rw [hrows] at hplan
    exact ⟨plan, hplan, hcommitted⟩

/-- Without a script of the id zero both scripts are written, as a run executes them. -/
theorem script_zero_matches_numbered :
    (∃ plan, Plan.make numberedScripts numbered [] .up (.through ⟨4⟩) = .ok plan ∧
      renderAll plain.settings (⟨0, 0⟩ : Instant).toDisplay .up plan.scripts = .ok numberedUp) ∧
    (∃ plan, Plan.make numberedScripts numbered [] .up (.through ⟨4⟩) = .ok plan ∧
      renderAll plain.settings (⟨0, 0⟩ : Instant).toDisplay .down plan.scripts.reverse =
        .ok numberedDown) ∧
    Ends (plain.up (.through ⟨4⟩)) { home := numbered }
      (fun report _ => report.committed = [⟨1⟩, ⟨4⟩]) (fun _ _ => True) := by
  have hplan : Plan.make numberedScripts numbered [] .up (.through ⟨4⟩) = .ok _ :=
    Plan.make_up_eq_ok.mpr ⟨nofun, numberedBodies, load_numbered, rfl⟩
  obtain ⟨hmatches, -, hrun⟩ :=
    @script_zero_matches _ plain numbered ⟨0, 0⟩ ⟨4⟩ scan_numbered (by decide)
  obtain ⟨hup, hdown⟩ := @writes_numbered ⟨4⟩ (by decide) (by rfl)
  refine ⟨((hmatches (by decide) _).1).mp hup, ((hmatches (by decide) _).2).mp hdown, ?_⟩
  refine (hrun _ rfl rfl fun _ _ hfind => nomatch hfind).mono (fun report _ h => ?_)
    fun _ _ _ => trivial
  obtain ⟨plan, hplanned, hcommitted⟩ := h
  obtain rfl := Except.ok.inj (hplan.symm.trans hplanned)
  exact hcommitted

/-- The files of two scripts, of which the first one has the id zero. -/
private def zeroed : Home :=
  ⟨[(["scripts"], .folder), (["scripts", "0_a.sql"], .file "a;".toUTF8 false),
    (["scripts", "1_b.sql"], .file "b;".toUTF8 false)]⟩

private def zeroedScripts : Catalog where
  entries := [⟨⟨0⟩, "a", "0_a.sql", .file ⟨"scripts/0_a.sql"⟩⟩,
    ⟨⟨1⟩, "b", "1_b.sql", .file ⟨"scripts/1_b.sql"⟩⟩]
  ascending := by decide

private theorem texts_zeroed :
    (zeroedScripts.loadAll zeroed zeroedScripts.entries).toOption =
      some [⟨⟨0⟩, "a", "0_a.sql", "a;\n", none⟩, ⟨⟨1⟩, "b", "1_b.sql", "b;\n", none⟩] ∧
    (zeroedScripts.loadAll zeroed (between zeroedScripts ⟨0⟩ ⟨1⟩)).toOption =
      some [⟨⟨1⟩, "b", "1_b.sql", "b;\n", none⟩] ∧
    (renderAll plain.settings (⟨0, 0⟩ : Instant).toDisplay .up
        [⟨⟨1⟩, "b", "1_b.sql", "b;\n", none⟩]).toOption =
      some ("-- 1_b.sql\nb;\n\nINSERT INTO changelog (id, applied_at, description) " ++
        "VALUES (1, '1970-01-01 00:00:00', 'b');\n\n") := by decide +kernel

/-- Where a run executes both scripts, the offline script has the second one only. -/
theorem script_zero_leaves_out :
    plain.Writes zeroed ⟨0, 0⟩ ⟨0⟩ ⟨1⟩
      ("-- 1_b.sql\nb;\n\nINSERT INTO changelog (id, applied_at, description) " ++
        "VALUES (1, '1970-01-01 00:00:00', 'b');\n\n") ∧
    Ends (plain.up (.through ⟨1⟩)) { home := zeroed }
      (fun report after => report.committed = [⟨0⟩, ⟨1⟩] ∧ after.database.log = ["a", "b"])
      (fun _ _ => False) := by
  have hscan : plain.folder.scan zeroed = .ok zeroedScripts :=
    ScriptFolder.scan_of_ascending (by rfl) (by rfl) (by rfl) zeroedScripts.ascending
  obtain ⟨hall, hrange, htext⟩ := texts_zeroed
  have hplan : Plan.make zeroedScripts zeroed [] .up (.through ⟨1⟩) = .ok _ :=
    Plan.make_up_eq_ok.mpr ⟨nofun, _, eq_ok_of_toOption hall, rfl⟩
  constructor
  · exact (writes_up (by decide)).mpr
      ⟨_, _, hscan, eq_ok_of_toOption hrange, eq_ok_of_toOption htext⟩
  · rw [up, ends_runTarget_of_plan (by decide) rfl hscan hplan]
    exact ⟨rfl, rfl⟩

end Migrator

end Migrations
