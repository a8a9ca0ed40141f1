import Mathlib.Data.List.Nodup
import Migrations.Proofs.Plan

/-!
# Catalogs of Entries

Entries make up a catalog when no two of them have one id, and otherwise two entries that share one
are named.  Neither depends on the order in which the entries come, as long as their file names
differ: sorting leaves only one order then.  Scripts that are given make up a catalog in the same way,
and there each of them is found by its id.

## Main statements

- `Catalog.exists_ofEntries_iff`: when entries make up a catalog.
- `Catalog.ofEntries_eq_error`: which two entries are named.
- `Catalog.ofEntries_perm`: entries in another order give the same result.
- `Catalog.ofScripts_finds`: what a catalog of given scripts holds, and what is found in it.
-/

namespace Migrations

/-! ## Order by id and name -/

namespace ScriptEntry

variable {entries : List ScriptEntry}

theorem filename_eq_of_precedes {a b : ScriptEntry} (hab : a.precedes b = true)
    (hba : b.precedes a = true) : a.filename = b.filename := by
  have hid : a.id = b.id :=
    ChangeId.le_antisymm (le_of_precedes hab) (le_of_precedes hba)
  have hname : ∀ {x y : ScriptEntry}, x.id = y.id → x.precedes y = true →
      x.filename ≤ y.filename := by
    intro x y hsame h
    simpa [precedes, hsame, ChangeId.lt_irrefl] using h
  exact String.le_antisymm (hname hid hab) (hname hid.symm hba)

/-- Entries with different names are sorted in one way. -/
theorem mergeSort_perm {other : List ScriptEntry} (hperm : other.Perm entries)
    (hnames : (entries.map filename).Nodup) :
    other.mergeSort precedes = entries.mergeSort precedes := by
  refine eq_mergeSort_of_perm precedes_trans precedes_total
    (List.pairwise_mergeSort precedes_trans precedes_total other)
    ((List.mergeSort_perm other _).trans hperm) fun a ha b hb hab hba => ?_
  exact List.inj_on_of_nodup_map hnames ha hb (filename_eq_of_precedes hab hba)

/-- Neighbours that clash share an id. -/
theorem clash?_eq_some {first second : ScriptEntry} (h : clash? entries = some (first, second)) :
    first.id = second.id ∧ [first, second].Sublist entries := by
  fun_induction clash? entries with
  | case1 a b rest heq =>
    cases h
    exact ⟨heq, ((List.nil_sublist rest).cons_cons second).cons_cons first⟩
  | case2 a b rest hne ih =>
    obtain ⟨hid, hpart⟩ := ih h
    exact ⟨hid, hpart.cons a⟩
  | case3 entries hshort => cases h

end ScriptEntry

/-! ## Catalogs -/

namespace Catalog

variable {entries : List ScriptEntry} {skipped : List String} {scope : Scope}

/-- The ids of a catalog differ from each other. -/
theorem nodup_ids (catalog : Catalog) : catalog.ids.Nodup := by
  refine List.pairwise_map.mpr (catalog.ascending.imp fun {a b} hlt heq => ?_)
  rw [heq] at hlt
  exact ChangeId.lt_irrefl _ hlt

/-- Entries are refused for the first two neighbours that clash in their order. -/
theorem ofEntries_eq_error {failure : Failure} :
    ofEntries entries skipped scope = .error failure ↔ ∃ first second,
      ScriptEntry.clash? (entries.mergeSort ScriptEntry.precedes) = some (first, second) ∧
        failure = .malformed second.filename (.duplicate second.id first.filename) := by
  unfold ofEntries
  dsimp only
  split
  · rename_i first second hclash
    rw [hclash]
    constructor
    · intro h
      cases h
      exact ⟨first, second, rfl, rfl⟩
    · rintro ⟨_, _, ⟨⟩, rfl⟩
      rfl
  · rename_i hclash
    constructor
    · intro h
      cases h
    · rintro ⟨first, second, hfound, -⟩
      rw [hclash] at hfound
      cases hfound

/-- Entries make up a catalog when no two of them have one id. -/
theorem exists_ofEntries_iff :
    (∃ catalog, ofEntries entries skipped scope = .ok catalog) ↔
      (entries.map ScriptEntry.id).Nodup := by
  constructor
  · rintro ⟨catalog, h⟩
    exact ((ofEntries_eq_ok.mp h).1.map _).nodup_iff.mp catalog.nodup_ids
  · intro hnodup
    have hperm := List.mergeSort_perm entries ScriptEntry.precedes
    -- sorted entries do not descend, and none of them has the id of another one
    have hsorted := List.pairwise_mergeSort ScriptEntry.precedes_trans
      ScriptEntry.precedes_total entries
    have hdistinct : (entries.mergeSort ScriptEntry.precedes).Pairwise (fun a b => a.id ≠ b.id) :=
      List.pairwise_map.mp ((hperm.map ScriptEntry.id).nodup_iff.mpr hnodup)
    have hascending : (entries.mergeSort ScriptEntry.precedes).Pairwise
        (fun a b => a.id < b.id) :=
      (hsorted.and hdistinct).imp fun h =>
        ChangeId.lt_of_le_of_ne (ScriptEntry.le_of_precedes h.1) h.2
    exact ⟨⟨_, skipped, scope, hascending⟩, ofEntries_eq_ok.mpr ⟨hperm, rfl, rfl⟩⟩

/-- What comes of entries does not depend on their order. -/
theorem ofEntries_perm {other : List ScriptEntry} (hperm : other.Perm entries)
    (hnames : (entries.map ScriptEntry.filename).Nodup) :
    ofEntries other skipped scope = ofEntries entries skipped scope := by
  cases h : ofEntries entries skipped scope with
  | ok catalog =>
    obtain ⟨hentries, hskipped, hscope⟩ := ofEntries_eq_ok.mp h
    exact ofEntries_eq_ok.mpr ⟨hentries.trans hperm.symm, hskipped, hscope⟩
  | error failure =>
    rw [ofEntries_eq_error] at h ⊢
    rwa [ScriptEntry.mergeSort_perm hperm hnames]

/-! ## Given scripts -/

variable {scripts : List Script} {catalog : Catalog} {home : Home} {id : ChangeId}

theorem exists_ofScripts_iff :
    (∃ catalog, ofScripts scripts = .ok catalog) ↔ (scripts.map Script.id).Nodup := by
  have hids : (scripts.map ScriptEntry.ofScript).map ScriptEntry.id = scripts.map Script.id := by
    rw [List.map_map]
    rfl
  rw [← hids]
  exact exists_ofEntries_iff

theorem ofScripts_perm {other : List Script} (h : ofScripts scripts = .ok catalog)
    (hperm : other.Perm scripts) : ofScripts other = .ok catalog := by
  obtain ⟨hentries, hskipped, hscope⟩ := ofEntries_eq_ok.mp h
  exact ofEntries_eq_ok.mpr ⟨hentries.trans (hperm.symm.map _), hskipped, hscope⟩

theorem mem_entries_ofScripts (h : ofScripts scripts = .ok catalog) {entry : ScriptEntry} :
    entry ∈ catalog.entries ↔ ∃ script ∈ scripts, ScriptEntry.ofScript script = entry := by
  rw [(ofEntries_eq_ok.mp h).1.mem_iff, List.mem_map]

theorem find?_ofScripts (h : ofScripts scripts = .ok catalog) {entry : ScriptEntry} :
    catalog.find? id = some entry ↔
      ∃ script ∈ scripts, script.id = id ∧ ScriptEntry.ofScript script = entry := by
  rw [find?_eq_some, mem_entries_ofScripts h]
  constructor
  · rintro ⟨⟨script, hmem, rfl⟩, hid⟩
    exact ⟨script, hmem, hid, rfl⟩
  · rintro ⟨script, hmem, hid, rfl⟩
    exact ⟨⟨script, hmem, rfl⟩, hid⟩

theorem contains_ofScripts (h : ofScripts scripts = .ok catalog) :
    catalog.contains id = true ↔ ∃ script ∈ scripts, script.id = id := by
  rw [contains, Option.isSome_iff_exists]
  simp only [find?_ofScripts h]
  constructor
  · rintro ⟨_, script, hmem, hid, -⟩
    exact ⟨script, hmem, hid⟩
  · rintro ⟨script, hmem, hid⟩
    exact ⟨_, script, hmem, hid, rfl⟩

/-- A given script is loaded as it is, so loading never fails. -/
theorem load?_ofScripts (h : ofScripts scripts = .ok catalog) :
    ∃ found, catalog.load? home id = .ok found ∧
      ∀ script, found = some script ↔ script ∈ scripts ∧ script.id = id := by
  cases hfind : catalog.find? id with
  | none =>
    refine ⟨none, by rw [load?, hfind], fun script => ⟨nofun, ?_⟩⟩
    rintro ⟨hmem, hid⟩
    rw [(find?_ofScripts h).mpr ⟨script, hmem, hid, rfl⟩] at hfind
    cases hfind
  | some entry =>
    obtain ⟨given, hgiven, hid, rfl⟩ := (find?_ofScripts h).mp hfind
    refine ⟨some given, by rw [load?, hfind]; rfl, fun script => ⟨?_, ?_⟩⟩
    · rintro ⟨⟩
      exact ⟨hgiven, hid⟩
    · rintro ⟨hmem, hsame⟩
      -- the ids of the scripts differ, so there is only one with the id
      have hnodup := exists_ofScripts_iff.mp ⟨catalog, h⟩
      exact congrArg some (List.inj_on_of_nodup_map hnodup hgiven hmem (hid.trans hsame.symm))

/-- Scripts make up a catalog when no two of them have one id.  Its entries are those of the scripts
in ascending order of their ids, in whatever order the scripts were given.  Under an id there is what
was given with this id, unchanged, and under other ids there is nothing. -/
theorem ofScripts_finds (scripts : List Script) :
    ((∃ catalog, ofScripts scripts = .ok catalog) ↔ (scripts.map Script.id).Nodup) ∧
    ∀ catalog, ofScripts scripts = .ok catalog →
      catalog.entries.Perm (scripts.map ScriptEntry.ofScript) ∧
      catalog.entries.Pairwise (fun a b => a.id < b.id) ∧
      (∀ other : List Script, other.Perm scripts → ofScripts other = .ok catalog) ∧
      ∀ id,
        (∀ entry, catalog.find? id = some entry ↔
          ∃ script ∈ scripts, script.id = id ∧ ScriptEntry.ofScript script = entry) ∧
        (catalog.contains id = true ↔ ∃ script ∈ scripts, script.id = id) ∧
        ∀ home, ∃ found, catalog.load? home id = .ok found ∧
          ∀ script, found = some script ↔ script ∈ scripts ∧ script.id = id :=
  ⟨exists_ofScripts_iff, fun catalog h =>
    ⟨(ofEntries_eq_ok.mp h).1, catalog.ascending, fun _ hperm => ofScripts_perm h hperm,
      fun _ => ⟨fun _ => find?_ofScripts h, contains_ofScripts h, fun _ => load?_ofScripts h⟩⟩⟩

/-- Four scripts in no order: the one at an end is found, and an id between others is not. -/
theorem ofScripts_finds_shuffled :
    let script (n : Nat) : Script := .ofUp (.ofNat n) "a" "a;"
    ∃ catalog, ofScripts [script 30, script 7, script 9, script 8] = .ok catalog ∧
      ofScripts [script 7, script 8, script 9, script 30] = .ok catalog ∧
      catalog.find? ⟨30⟩ = some (.ofScript (script 30)) ∧ catalog.contains ⟨10⟩ = false ∧
      catalog.load? ⟨[]⟩ ⟨7⟩ = .ok (some (script 7)) := by
  intro script
  obtain ⟨hexists, hfinds⟩ := ofScripts_finds [script 30, script 7, script 9, script 8]
  obtain ⟨catalog, hcatalog⟩ := hexists.mpr (by decide)
  obtain ⟨-, -, horder, hfinds⟩ := hfinds catalog hcatalog
  refine ⟨catalog, hcatalog, horder _ (by decide), ?_, ?_, ?_⟩
  · exact ((hfinds ⟨30⟩).1 _).mpr ⟨script 30, by decide, by decide, rfl⟩
  · exact eq_false_of_ne_true fun h => absurd ((hfinds ⟨10⟩).2.1.mp h) (by decide)
  · obtain ⟨found, hload, hfound⟩ := (hfinds ⟨7⟩).2.2 ⟨[]⟩
    rw [hload, (hfound (script 7)).mpr ⟨by decide, by decide⟩]

end Catalog

end Migrations
