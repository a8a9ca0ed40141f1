import Migrations.Plan
import Migrations.Proofs.Procedure.Ending
import Migrations.Proofs.Selection
import Migrations.Script.Folder

/-!
# Plans and Ledgers

A plan that was made from a ledger suits that ledger: upwards it has no change that is in the
ledger, downwards none that is not, and in either direction it has no change twice.

## Main statements

- `Catalog.load?_of_loadAll`: what was loaded for a plan upwards can be loaded to be undone.
- `Plan.make_up_eq_ok`, `Plan.make_down_eq_ok`: when there is a plan, and which scripts it has.
- `Plan.suits_make`: a plan for a target suits its ledger.
- `Plan.suits_toVersion`: and so does a plan to a version.
-/

namespace Migrations

/-! ## Catalogs of files -/

namespace Catalog

/-- The scripts of the catalog are in files. -/
def OnFiles (catalog : Catalog) : Prop :=
  ∀ entry ∈ catalog.entries, ∃ path, entry.source = .file path

variable {catalog : Catalog} {home : Home}

/-- A script is known by what its entry says. -/
theorem load_names {entry : ScriptEntry} {script : Script}
    (hfile : ∃ path, entry.source = .file path) (h : catalog.load home entry = .ok script) :
    script.id = entry.id ∧ script.description = entry.description ∧
      script.filename = entry.filename := by
  obtain ⟨path, hpath⟩ := hfile
  rw [load, hpath] at h
  dsimp only at h
  cases htext : readFile home path entry.filename with
  | error failure =>
    rw [htext] at h
    cases h
  | ok text =>
    rw [htext] at h
    cases h
    exact ⟨rfl, rfl, rfl⟩

theorem load_id {entry : ScriptEntry} {script : Script}
    (hfile : ∃ path, entry.source = .file path) (h : catalog.load home entry = .ok script) :
    script.id = entry.id := (load_names hfile h).1

theorem mem_loadAll {entries : List ScriptEntry} {scripts : List Script}
    (h : catalog.loadAll home entries = .ok scripts) :
    ∀ script ∈ scripts, ∃ entry ∈ entries, catalog.load home entry = .ok script := by
  induction entries generalizing scripts with
  | nil =>
    cases h
    exact fun script hmem => nomatch hmem
  | cons entry rest ih =>
    rw [loadAll] at h
    obtain ⟨script, hscript, h⟩ := bind_eq_ok.mp h
    obtain ⟨others, hothers, h⟩ := bind_eq_ok.mp h
    cases h
    intro other hmem
    rcases List.mem_cons.mp hmem with rfl | hmem
    · exact ⟨entry, List.mem_cons_self, hscript⟩
    · obtain ⟨found, hfound, hload⟩ := ih hothers other hmem
      exact ⟨found, List.mem_cons_of_mem _ hfound, hload⟩

theorem loadAll_ids {entries : List ScriptEntry} {scripts : List Script}
    (hfiles : ∀ entry ∈ entries, ∃ path, entry.source = .file path)
    (h : catalog.loadAll home entries = .ok scripts) :
    scripts.map Script.id = entries.map ScriptEntry.id := by
  induction entries generalizing scripts with
  | nil =>
    cases h
    rfl
  | cons entry rest ih =>
    rw [loadAll] at h
    obtain ⟨script, hscript, h⟩ := bind_eq_ok.mp h
    obtain ⟨others, hothers, h⟩ := bind_eq_ok.mp h
    cases h
    rw [List.map_cons, List.map_cons, load_id (hfiles entry List.mem_cons_self) hscript,
      ih (fun other hmem => hfiles other (List.mem_cons_of_mem _ hmem)) hothers]

theorem loadApplied_ids {changes : List Change} {scripts : List Script} (hfiles : catalog.OnFiles)
    (h : catalog.loadApplied home changes = .ok scripts) :
    scripts.map Script.id = changes.map Change.id := by
  induction changes generalizing scripts with
  | nil =>
    cases h
    rfl
  | cons change rest ih =>
    rw [loadApplied] at h
    obtain ⟨script?, hscript, h⟩ := bind_eq_ok.mp h
    cases script? with
    | none => cases h
    | some script =>
      obtain ⟨others, hothers, h⟩ := bind_eq_ok.mp h
      cases h
      -- the entry is found by the id of the change, and its file gives a script with its id
      have hid : script.id = change.id := by
        unfold load? at hscript
        cases hfind : catalog.find? change.id with
        | none =>
          rw [hfind] at hscript
          cases hscript
        | some entry =>
          obtain ⟨hmem, hentry⟩ := find?_eq_some.mp hfind
          rw [hfind] at hscript
          cases hload : catalog.load home entry with
          | error failure => simp [hload, Except.map] at hscript
          | ok found =>
            have hsame : found = script := by simpa [hload, Except.map] using hscript
            rw [← hsame, load_id (hfiles entry hmem) hload, hentry]
      rw [List.map_cons, List.map_cons, hid, ih hothers]

/-- Entries that can be loaded one by one can be loaded together. -/
theorem exists_loadAll {entries : List ScriptEntry}
    (h : ∀ entry ∈ entries, ∃ script, catalog.load home entry = .ok script) :
    ∃ scripts, catalog.loadAll home entries = .ok scripts := by
  induction entries with
  | nil => exact ⟨[], rfl⟩
  | cons entry rest ih =>
    obtain ⟨script, hscript⟩ := h entry List.mem_cons_self
    obtain ⟨scripts, hscripts⟩ := ih fun other hmem => h other (List.mem_cons_of_mem _ hmem)
    exact ⟨script :: scripts, bind_eq_ok.mpr ⟨script, hscript, bind_eq_ok.mpr ⟨_, hscripts, rfl⟩⟩⟩

/-- The scripts of two parts of the entries are two parts of the scripts. -/
theorem loadAll_append {first second : List ScriptEntry} {scripts : List Script}
    (h : catalog.loadAll home (first ++ second) = .ok scripts) :
    ∃ done rest, scripts = done ++ rest ∧ catalog.loadAll home first = .ok done ∧
      catalog.loadAll home second = .ok rest := by
  induction first generalizing scripts with
  | nil => exact ⟨[], scripts, rfl, rfl, h⟩
  | cons entry others ih =>
    rw [List.cons_append, loadAll] at h
    obtain ⟨script, hscript, h⟩ := bind_eq_ok.mp h
    obtain ⟨more, hmore, h⟩ := bind_eq_ok.mp h
    cases h
    obtain ⟨done, rest, rfl, hdone, hrest⟩ := ih hmore
    exact ⟨script :: done, rest, rfl,
      bind_eq_ok.mpr ⟨script, hscript, bind_eq_ok.mpr ⟨done, hdone, rfl⟩⟩, hrest⟩

theorem loadAll_append_of_parts {first second : List ScriptEntry} {done rest : List Script}
    (hfirst : catalog.loadAll home first = .ok done)
    (hsecond : catalog.loadAll home second = .ok rest) :
    catalog.loadAll home (first ++ second) = .ok (done ++ rest) := by
  induction first generalizing done with
  | nil =>
    cases hfirst
    exact hsecond
  | cons entry others ih =>
    obtain ⟨script, hscript, h⟩ := bind_eq_ok.mp hfirst
    obtain ⟨more, hmore, h⟩ := bind_eq_ok.mp h
    cases h
    exact bind_eq_ok.mpr ⟨script, hscript, bind_eq_ok.mpr ⟨more ++ rest, ih hmore, rfl⟩⟩

/-- The scripts of two parts of the applied changes are two parts of the scripts. -/
theorem loadApplied_append {first second : List Change} {scripts : List Script}
    (h : catalog.loadApplied home (first ++ second) = .ok scripts) :
    ∃ done rest, scripts = done ++ rest ∧ catalog.loadApplied home first = .ok done ∧
      catalog.loadApplied home second = .ok rest := by
  induction first generalizing scripts with
  | nil => exact ⟨[], scripts, rfl, rfl, h⟩
  | cons change others ih =>
    rw [List.cons_append, loadApplied] at h
    obtain ⟨script?, hscript, h⟩ := bind_eq_ok.mp h
    cases script? with
    | none => cases h
    | some script =>
      obtain ⟨more, hmore, h⟩ := bind_eq_ok.mp h
      cases h
      obtain ⟨done, rest, rfl, hdone, hrest⟩ := ih hmore
      refine ⟨script :: done, rest, rfl, ?_, hrest⟩
      rw [loadApplied, hscript]
      exact bind_eq_ok.mpr ⟨_, rfl, bind_eq_ok.mpr ⟨done, hdone, rfl⟩⟩

/-- A first part of the scripts was loaded from a first part of the entries. -/
theorem loadAll_eq_append {entries : List ScriptEntry} {done rest : List Script}
    (h : catalog.loadAll home entries = .ok (done ++ rest)) :
    ∃ first second, entries = first ++ second ∧ catalog.loadAll home first = .ok done ∧
      catalog.loadAll home second = .ok rest := by
  induction done generalizing entries with
  | nil => exact ⟨[], entries, rfl, rfl, h⟩
  | cons script others ih =>
    cases entries with
    | nil => cases h
    | cons entry more =>
      rw [loadAll] at h
      obtain ⟨found, hfound, h⟩ := bind_eq_ok.mp h
      obtain ⟨scripts, hscripts, h⟩ := bind_eq_ok.mp h
      obtain ⟨rfl, rfl⟩ := List.cons.inj (Except.ok.inj h)
      obtain ⟨first, second, rfl, hfirst, hsecond⟩ := ih hscripts
      exact ⟨entry :: first, second, rfl,
        bind_eq_ok.mpr ⟨found, hfound, bind_eq_ok.mpr ⟨others, hfirst, rfl⟩⟩, hsecond⟩

theorem load?_eq_some {entry : ScriptEntry} {script : Script} (h : entry ∈ catalog.entries) :
    catalog.load? home entry.id = .ok (some script) ↔ catalog.load home entry = .ok script := by
  rw [load?, find?_of_mem h]
  dsimp only
  cases catalog.load home entry <;> simp [Except.map]

/-- There is no script for an id that the catalog does not have, and no body is read to find out. -/
theorem load?_of_notMem {id : ChangeId} (h : id ∉ catalog.ids) :
    catalog.load? home id = .ok none := by
  have hnone : catalog.find? id = none := by
    simpa [contains] using mt contains_iff.mp h
  rw [load?, hnone]

/-- What was loaded with other entries is found again by its id. -/
theorem load?_of_loadAll {entries : List ScriptEntry} {scripts : List Script}
    (hfiles : catalog.OnFiles) (hentries : ∀ entry ∈ entries, entry ∈ catalog.entries)
    (h : catalog.loadAll home entries = .ok scripts) :
    ∀ script ∈ scripts, catalog.load? home script.id = .ok (some script) := by
  induction entries generalizing scripts with
  | nil =>
    cases h
    exact fun script hmem => nomatch hmem
  | cons entry rest ih =>
    rw [loadAll] at h
    obtain ⟨script, hscript, h⟩ := bind_eq_ok.mp h
    obtain ⟨others, hothers, h⟩ := bind_eq_ok.mp h
    cases h
    intro other hmem
    rcases List.mem_cons.mp hmem with rfl | hmem
    · have hentry := hentries entry List.mem_cons_self
      rw [load_id (hfiles entry hentry) hscript, load?, find?_of_mem hentry]
      dsimp only
      rw [hscript]
      rfl
    · exact ih (fun entry hmem => hentries entry (List.mem_cons_of_mem _ hmem)) hothers other hmem

/-- The scripts of changes are loaded by the ids of the changes. -/
theorem loadApplied_of_load? {changes : List Change} {scripts : List Script}
    (hids : changes.map Change.id = scripts.map Script.id)
    (h : ∀ script ∈ scripts, catalog.load? home script.id = .ok (some script)) :
    catalog.loadApplied home changes = .ok scripts := by
  induction scripts generalizing changes with
  | nil =>
    rw [List.map_eq_nil_iff.mp hids]
    rfl
  | cons script rest ih =>
    cases changes with
    | nil => cases hids
    | cons change others =>
      obtain ⟨hid, hids⟩ := List.cons.inj hids
      have hrest := ih hids fun other hmem => h other (List.mem_cons_of_mem _ hmem)
      rw [loadApplied, hid, h script List.mem_cons_self]
      exact bind_eq_ok.mpr ⟨some script, rfl, bind_eq_ok.mpr ⟨rest, hrest, rfl⟩⟩

/-- Entries in the order of their ids do not clash. -/
theorem clash?_of_ascending {entries : List ScriptEntry}
    (h : entries.Pairwise (fun a b => a.id < b.id)) : ScriptEntry.clash? entries = none := by
  fun_induction ScriptEntry.clash? entries with
  | case1 a b rest heq =>
    have hlt := (List.pairwise_cons.mp h).1 b List.mem_cons_self
    exact absurd (heq ▸ hlt) (ChangeId.lt_irrefl _)
  | case2 a b rest hne ih => exact ih (List.pairwise_cons.mp h).2
  | case3 entries hshort => rfl

/-- There is one way to put entries in the order of their ids. -/
theorem mergeSort_eq_entries {entries : List ScriptEntry} (h : catalog.entries.Perm entries) :
    entries.mergeSort ScriptEntry.precedes = catalog.entries := by
  have hsorted : catalog.entries.Pairwise (fun a b => a.precedes b = true) :=
    catalog.ascending.imp fun hlt => by simp [ScriptEntry.precedes, hlt]
  have hperm : (entries.mergeSort ScriptEntry.precedes).Perm catalog.entries :=
    (List.mergeSort_perm entries _).trans h.symm
  refine hperm.eq_of_pairwise (fun a b ha hb hab hba => ?_)
    (List.pairwise_mergeSort ScriptEntry.precedes_trans ScriptEntry.precedes_total entries) hsorted
  have hid := ChangeId.le_antisymm (ScriptEntry.le_of_precedes hab)
    (ScriptEntry.le_of_precedes hba)
  exact ChangeId.eq_of_ascending catalog.ascending (hperm.subset ha) hb hid

/-- The catalog of entries has just these. -/
theorem ofEntries_eq_ok {entries : List ScriptEntry} {skipped : List String} {scope : Scope} :
    ofEntries entries skipped scope = .ok catalog ↔
      catalog.entries.Perm entries ∧ catalog.skipped = skipped ∧ catalog.scope = scope := by
  unfold ofEntries
  dsimp only
  constructor
  · intro h
    split at h
    · cases h
    · cases h
      exact ⟨List.mergeSort_perm _ _, rfl, rfl⟩
  · rintro ⟨hperm, hskipped, hscope⟩
    have hsorted := mergeSort_eq_entries hperm
    split
    · rename_i hfound
      rw [hsorted, clash?_of_ascending catalog.ascending] at hfound
      cases hfound
    · obtain ⟨found, _, _, hascending⟩ := catalog
      subst hskipped hscope
      simp only [hsorted]

end Catalog

namespace ScriptFolder

variable {folder : ScriptFolder}

theorem checkName_eq_ok {name : String} {parts : ChangeId × String} :
    folder.checkName name = .ok parts ↔ folder.readName name = .ok parts := by
  unfold checkName
  cases folder.readName name with
  | ok found => simp
  | error fault => simp

/-- With a filter or without one, a name that follows the rules is one that can be read. -/
theorem read_of_readName {name : String} {parts : ChangeId × String}
    (h : folder.readName name = .ok parts) : ScriptName.read name = .ok parts := by
  unfold readName at h
  split at h
  · split at h
    · exact h
    · cases h
  · exact h

/-- The entry belongs to a file of the folder whose name follows the rules. -/
structure Named (folder : ScriptFolder) (entry : ScriptEntry) : Prop where
  file : ∃ path, entry.source = .file path
  name : folder.readName entry.filename = .ok (entry.id, entry.description)

theorem named_classify {names : List String} {result : List ScriptEntry × List String}
    (h : folder.classify names = .ok result) : ∀ entry ∈ result.1, folder.Named entry := by
  induction names generalizing result with
  | nil =>
    cases h
    exact fun entry hmem => nomatch hmem
  | cons name rest ih =>
    rw [classify] at h
    split at h
    · rename_i id description hname
      obtain ⟨others, hothers, h⟩ := bind_eq_ok.mp h
      cases h
      intro entry hmem
      rcases List.mem_cons.mp hmem with rfl | hmem
      · exact ⟨⟨_, rfl⟩, checkName_eq_ok.mp hname⟩
      · exact ih hothers entry hmem
    · split at h
      · cases h
      · obtain ⟨others, hothers, h⟩ := bind_eq_ok.mp h
        cases h
        exact @ih others hothers

/-- What a scan finds: the entries of the names that are listed, in the order of their ids. -/
theorem scan_eq_ok {home : Home} {catalog : Catalog} :
    folder.scan home = .ok catalog ↔ home.isFolder folder.dir = true ∧
      ∃ listing entries skipped, home.list folder.dir = .ok listing ∧
        folder.classify (candidates listing) = .ok (entries, skipped) ∧
        catalog.entries.Perm entries ∧
        catalog.skipped = skipped.mergeSort (fun a b => decide (a ≤ b)) ∧
        catalog.scope = folder.scope := by
  unfold scan
  cases hfolder : home.isFolder folder.dir with
  | false =>
    constructor
    · intro h
      cases h
    · rintro ⟨⟨⟩, -⟩
  | true =>
    cases hlist : home.list folder.dir with
    | error fault =>
      constructor
      · intro h
        cases h
      · rintro ⟨-, _, _, _, ⟨⟩, -⟩
    | ok listing =>
      constructor
      · intro h
        obtain ⟨⟨entries, skipped⟩, hnames, h⟩ := bind_eq_ok.mp h
        exact ⟨rfl, listing, entries, skipped, rfl, hnames, Catalog.ofEntries_eq_ok.mp h⟩
      · rintro ⟨-, _, entries, skipped, ⟨⟩, hnames, h⟩
        exact bind_eq_ok.mpr ⟨(entries, skipped), hnames, Catalog.ofEntries_eq_ok.mpr h⟩

theorem named_scan {home : Home} {catalog : Catalog} (h : folder.scan home = .ok catalog) :
    ∀ entry ∈ catalog.entries, folder.Named entry := by
  obtain ⟨-, listing, entries, skipped, -, hnames, hperm, -⟩ := scan_eq_ok.mp h
  exact fun entry hmem => named_classify hnames entry (hperm.subset hmem)

/-- The catalog of a folder has its scripts in files. -/
theorem onFiles_scan {home : Home} {catalog : Catalog} (h : folder.scan home = .ok catalog) :
    catalog.OnFiles := fun entry hmem => (named_scan h entry hmem).file

theorem Named.read {entry : ScriptEntry} (h : folder.Named entry) :
    ScriptName.read entry.filename = .ok (entry.id, entry.description) := read_of_readName h.name

/-- Scripts that were loaded from the folder have names that can be read. -/
theorem read_loadAll {home : Home} {catalog : Catalog} {entries : List ScriptEntry}
    {scripts : List Script} (hscan : folder.scan home = .ok catalog)
    (hentries : ∀ entry ∈ entries, entry ∈ catalog.entries)
    (h : catalog.loadAll home entries = .ok scripts) :
    ∀ script ∈ scripts, ScriptName.read script.filename = .ok (script.id, script.description) := by
  intro script hmem
  obtain ⟨entry, hentry, hload⟩ := Catalog.mem_loadAll h script hmem
  have hnamed := named_scan hscan entry (hentries entry hentry)
  obtain ⟨hid, hdescription, hfilename⟩ := Catalog.load_names hnamed.file hload
  rw [hid, hdescription, hfilename]
  exact hnamed.read

/-- A folder whose scripts are listed in the order of their ids. -/
theorem scan_of_ascending {home : Home} {listing : List Home.Entry} {entries : List ScriptEntry}
    (hfolder : home.isFolder folder.dir = true) (hlist : home.list folder.dir = .ok listing)
    (hnames : folder.classify (candidates listing) = .ok (entries, []))
    (hascending : entries.Pairwise (fun a b => a.id < b.id)) :
    folder.scan home = .ok ⟨entries, [], folder.scope, hascending⟩ := by
  refine scan_eq_ok.mpr ⟨hfolder, listing, entries, [], hlist, hnames, List.Perm.refl _, ?_, rfl⟩
  rw [List.mergeSort_nil]

end ScriptFolder

/-! ## Selections -/

namespace Catalog

variable {catalog : Catalog} {ledger : List Change}

theorem selectUp_sublist (catalog : Catalog) (ledger : List Change) (target : Target) :
    (catalog.selectUp ledger target).Sublist (catalog.pendingEntries ledger) := by
  unfold selectUp within
  split
  · exact (List.take_sublist _ _).trans List.filter_sublist
  · exact List.filter_sublist

/-- The ids of a part of the pending entries are new and differ from each other. -/
theorem ids_pending {entries : List ScriptEntry}
    (h : entries.Sublist (catalog.pendingEntries ledger)) :
    (entries.map ScriptEntry.id).Nodup ∧
      ∀ id ∈ entries.map ScriptEntry.id, id ∉ ledger.map Change.id := by
  constructor
  · have hascending : entries.Pairwise (fun a b => a.id < b.id) :=
      (catalog.ascending.filter _).sublist h
    refine List.pairwise_map.mpr (hascending.imp fun hlt heq => ?_)
    exact Nat.lt_irrefl _ (ChangeId.lt_def.mp (heq ▸ hlt))
  · intro id hid hledger
    obtain ⟨entry, hentry, rfl⟩ := List.mem_map.mp hid
    have hpending := (List.mem_filter.mp (h.subset hentry)).2
    obtain ⟨change, hchange, heq⟩ := List.mem_map.mp hledger
    -- an entry with the id of a change in the ledger would not be pending
    have hrecorded : recorded ledger entry.id = true :=
      List.any_eq_true.mpr ⟨change, hchange, by simp [heq]⟩
    rw [hrecorded] at hpending
    cases hpending

theorem newestFirst_sublist (ledger : List Change) :
    (newestFirst ledger).Sublist (ledger.mergeSort (fun a b => decide (b.id ≤ a.id))) := by
  unfold newestFirst
  induction ledger.mergeSort (fun a b => decide (b.id ≤ a.id)) with
  | nil => exact .slnil
  | cons change rest ih => exact ((List.dropWhile_sublist _).trans ih).cons_cons change

theorem selectDown_sublist (ledger : List Change) (target : Target) :
    (selectDown ledger target).Sublist (newestFirst ledger) := by
  unfold selectDown
  split
  · exact List.take_sublist _ _
  · exact List.filter_sublist
  · exact List.take_sublist _ _

/-- The ids of a part of the applied changes are in the ledger and differ from each other. -/
theorem ids_applied {changes : List Change} (hledger : (ledger.map Change.id).Nodup)
    (h : changes.Sublist (newestFirst ledger)) :
    (changes.map Change.id).Nodup ∧
      ∀ id ∈ changes.map Change.id, id ∈ ledger.map Change.id := by
  -- sorting only reorders the ledger, and what is selected is a part of that
  have hsub := (h.trans (newestFirst_sublist ledger)).map Change.id
  have hperm : ((ledger.mergeSort (fun a b => decide (b.id ≤ a.id))).map Change.id).Perm
      (ledger.map Change.id) := (List.mergeSort_perm _ _).map _
  exact ⟨(hperm.nodup_iff.mpr hledger).sublist hsub, fun id hid =>
    hperm.subset (hsub.subset hid)⟩

end Catalog

/-! ## Plans -/

namespace Plan

/-- The plan has no change twice, and upwards only changes that are not in the ledger, downwards
only changes that are. -/
structure Suits (plan : Plan) (ledger : List ChangeId) : Prop where
  nodup : plan.ids.Nodup
  side : ∀ id ∈ plan.ids, id ∈ ledger ↔ plan.direction = .down

variable {catalog : Catalog} {home : Home} {ledger : List Change} {plan : Plan}

/-- A plan upwards has the scripts of the pending entries that it reaches. -/
theorem make_up_eq_ok {target : Target} :
    make catalog home ledger .up target = .ok plan ↔ target ≠ .steps 0 ∧ ∃ scripts,
      catalog.loadAll home (catalog.selectUp ledger target) = .ok scripts ∧
        plan = ⟨.up, scripts, catalog.missing ledger, catalog.skippedChanges ledger⟩ := by
  unfold make
  by_cases hsteps : target = .steps 0
  -- a plan for no steps is refused
  · rw [if_pos hsteps]
    exact ⟨(fun h => nomatch h), fun h => absurd hsteps h.1⟩
  · rw [if_neg hsteps]
    constructor
    · intro h
      obtain ⟨scripts, hscripts, h⟩ := bind_eq_ok.mp h
      exact ⟨hsteps, scripts, hscripts, (Except.ok.inj h).symm⟩
    · rintro ⟨-, scripts, hscripts, rfl⟩
      exact bind_eq_ok.mpr ⟨scripts, hscripts, rfl⟩

/-- A plan downwards has the scripts of the applied changes that it reaches. -/
theorem make_down_eq_ok {target : Target} :
    make catalog home ledger .down target = .ok plan ↔ target ≠ .steps 0 ∧ ∃ scripts,
      catalog.loadApplied home (Catalog.selectDown ledger target) = .ok scripts ∧
        plan = ⟨.down, scripts, catalog.missing ledger, catalog.skippedChanges ledger⟩ := by
  unfold make
  by_cases hsteps : target = .steps 0
  · rw [if_pos hsteps]
    exact ⟨(fun h => nomatch h), fun h => absurd hsteps h.1⟩
  · rw [if_neg hsteps]
    constructor
    · intro h
      obtain ⟨scripts, hscripts, h⟩ := bind_eq_ok.mp h
      exact ⟨hsteps, scripts, hscripts, (Except.ok.inj h).symm⟩
    · rintro ⟨-, scripts, hscripts, rfl⟩
      exact bind_eq_ok.mpr ⟨scripts, hscripts, rfl⟩

/-- The ids of a plan upwards are those of the entries that it reaches. -/
theorem ids_make_up (hfiles : catalog.OnFiles) {target : Target}
    (h : make catalog home ledger .up target = .ok plan) :
    plan.direction = .up ∧ plan.ids = (catalog.selectUp ledger target).map ScriptEntry.id := by
  obtain ⟨-, scripts, hscripts, rfl⟩ := make_up_eq_ok.mp h
  have hselected := Catalog.selectUp_sublist catalog ledger target
  exact ⟨rfl, Catalog.loadAll_ids (fun entry hmem => hfiles entry
    (List.mem_filter.mp (hselected.subset hmem)).1) hscripts⟩

/-- The ids of a plan downwards are those of the changes that it reaches. -/
theorem ids_make_down (hfiles : catalog.OnFiles) {target : Target}
    (h : make catalog home ledger .down target = .ok plan) :
    plan.direction = .down ∧ plan.ids = (Catalog.selectDown ledger target).map Change.id := by
  obtain ⟨-, scripts, hscripts, rfl⟩ := make_down_eq_ok.mp h
  exact ⟨rfl, Catalog.loadApplied_ids hfiles hscripts⟩

/-- Every plan names the rows that have no script. -/
theorem missing_make {direction : Direction} {target : Target}
    (h : make catalog home ledger direction target = .ok plan) :
    plan.missing = catalog.missing ledger := by
  cases direction with
  | up =>
    obtain ⟨-, scripts, -, rfl⟩ := make_up_eq_ok.mp h
    rfl
  | down =>
    obtain ⟨-, scripts, -, rfl⟩ := make_down_eq_ok.mp h
    rfl

theorem missing_toVersion {id : ChangeId} (h : toVersion catalog home ledger id = .ok plan) :
    plan.missing = catalog.missing ledger := by
  unfold toVersion at h
  split at h
  · exact missing_make h
  · split at h
    · cases h
      rfl
    · split at h
      · exact missing_make h
      · exact missing_make h

theorem suits_make (hfiles : catalog.OnFiles) (hledger : (ledger.map Change.id).Nodup)
    {direction : Direction} {target : Target}
    (h : make catalog home ledger direction target = .ok plan) :
    plan.Suits (ledger.map Change.id) := by
  cases direction with
  | up =>
    obtain ⟨hup, hids⟩ := ids_make_up hfiles h
    obtain ⟨hnodup, hnew⟩ :=
      Catalog.ids_pending (Catalog.selectUp_sublist catalog ledger target)
    exact ⟨by rwa [hids], fun id hid => by simp [hnew id (hids ▸ hid), hup]⟩
  | down =>
    obtain ⟨hdown, hids⟩ := ids_make_down hfiles h
    obtain ⟨hnodup, hold⟩ :=
      Catalog.ids_applied hledger (Catalog.selectDown_sublist ledger target)
    exact ⟨by rwa [hids], fun id hid => by simp only [hold id (hids ▸ hid), hdown]⟩

theorem suits_toVersion (hfiles : catalog.OnFiles) (hledger : (ledger.map Change.id).Nodup)
    {id : ChangeId} (h : toVersion catalog home ledger id = .ok plan) :
    plan.Suits (ledger.map Change.id) := by
  have hidle : (idle catalog ledger).Suits (ledger.map Change.id) :=
    ⟨List.nodup_nil, fun id hid => nomatch hid⟩
  unfold toVersion at h
  -- a version that is not applied is reached upwards, one that is applied downwards or not at all
  split at h
  · exact suits_make hfiles hledger h
  · split at h
    · cases h
      exact hidle
    · split at h
      · exact suits_make hfiles hledger h
      · exact suits_make hfiles hledger h

end Plan

end Migrations
