import Migrations.Proofs.Home.Folder
import Migrations.Proofs.Plan
import Migrations.Proofs.Script.FileName

/-!
# Folders that Grow

The catalog of a folder is decided by the files directly in it.  A file that is added under the name
of a script with an id beyond all others adds one entry at the end, whatever else is in the folder
and whatever becomes of names that break the rules.

## Main statements

- `ScriptFolder.scan_congr`: a folder that was left alone has the same catalog.
- `ScriptFolder.scan_of_gainsFile`: a folder that gained a script.
-/

namespace Migrations

/-- The catalog with one more entry, the id of which is greater than all others. -/
def Catalog.extended (catalog : Catalog) (entry : ScriptEntry)
    (h : ∀ other ∈ catalog.entries, other.id < entry.id) : Catalog where
  entries := catalog.entries ++ [entry]
  skipped := catalog.skipped
  scope := catalog.scope
  ascending := List.pairwise_append.mpr ⟨catalog.ascending, List.pairwise_singleton _ _,
    fun other hother _ hentry => List.mem_singleton.mp hentry ▸ h other hother⟩

/-- The last id is the greatest one. -/
theorem Catalog.le_of_getLast? {catalog : Catalog} {last : ChangeId}
    (h : catalog.ids.getLast? = some last) : ∀ entry ∈ catalog.entries, entry.id ≤ last := by
  intro entry hentry
  obtain ⟨front, hids⟩ := List.getLast?_eq_some_iff.mp h
  have hascending : catalog.ids.Pairwise (fun a b => a < b) :=
    List.pairwise_map.mpr catalog.ascending
  have hmem : entry.id ∈ catalog.ids := List.mem_map_of_mem hentry
  rw [hids] at hmem hascending
  rcases List.mem_append.mp hmem with hmem | hmem
  · exact ChangeId.le_of_lt ((List.pairwise_append.mp hascending).2.2 _ hmem _ List.mem_cons_self)
  · exact List.mem_singleton.mp hmem ▸ ChangeId.le_refl _

/-- An id that no other one is beyond is the last one. -/
theorem Catalog.getLast?_ids {catalog : Catalog} {id : ChangeId} (hid : id ∈ catalog.ids)
    (h : ∀ entry ∈ catalog.entries, entry.id ≤ id) : catalog.ids.getLast? = some id := by
  obtain ⟨entry, hentry, rfl⟩ := List.mem_map.mp hid
  cases hlast : catalog.ids.getLast? with
  | none =>
    rw [List.getLast?_eq_none_iff.mp hlast] at hid
    cases hid
  | some last =>
    obtain ⟨other, hother, rfl⟩ := List.mem_map.mp (List.mem_of_getLast? hlast)
    exact congrArg some (ChangeId.le_antisymm (h other hother) (le_of_getLast? hlast entry hentry))

/-- What is beyond the last id is beyond all of them. -/
theorem Catalog.lt_of_lt_getLast? {catalog : Catalog} {id : ChangeId}
    (h : ∀ last, catalog.ids.getLast? = some last → last < id) :
    ∀ entry ∈ catalog.entries, entry.id < id := by
  intro entry hentry
  cases hlast : catalog.ids.getLast? with
  | none =>
    rw [List.getLast?_eq_none_iff, ids, List.map_eq_nil_iff] at hlast
    rw [hlast] at hentry
    cases hentry
  | some last => exact Nat.lt_of_le_of_lt (le_of_getLast? hlast entry hentry) (h last hlast)

namespace ScriptFolder

variable {folder : ScriptFolder} {home other : Home} {catalog : Catalog} {name description : String}
  {id : ChangeId}

/-- Looking into the folder again finds the same scripts. -/
theorem scan_congr (h : Home.SameFolder folder.dir home other) :
    folder.scan other = folder.scan home := by
  rw [scan, scan, h.isFolder, h.list]

/-- The place of a folder that can be scanned. -/
theorem exists_place_of_scan (h : folder.scan home = .ok catalog) :
    ∃ place, home.place folder.dir = .ok place ∧ home.node? place = some .folder :=
  Home.isFolder_iff.mp (scan_eq_ok.mp h).1

/-- The ids of a scan are within the range of the ledger. -/
theorem le_greatest_of_scan (h : folder.scan home = .ok catalog) :
    ∀ entry ∈ catalog.entries, entry.id ≤ ChangeId.greatest := by
  intro entry hentry
  obtain ⟨_, _, _, -, -, hid, -⟩ := ScriptName.read_eq_ok (named_scan h entry hentry).read
  exact (ChangeId.ofText?_eq_some.mp hid).2

/-- The entry of a file in the folder. -/
def entryOf (folder : ScriptFolder) (name : String) (id : ChangeId) (description : String) :
    ScriptEntry := ⟨id, description, name, .file (folder.dir.join name)⟩

/-- A name that follows the rules is classified for itself. -/
theorem classify_append (hname : folder.checkName name = .ok (id, description))
    {names : List String} {entries : List ScriptEntry} {skipped : List String}
    (h : folder.classify names = .ok (entries, skipped)) :
    folder.classify (names ++ [name]) =
      .ok (entries ++ [folder.entryOf name id description], skipped) := by
  -- whatever becomes of the names before it, the last name is reached or nothing is classified
  induction names generalizing entries skipped with
  | nil =>
    cases h
    rw [List.nil_append, classify, hname]
    rfl
  | cons first rest ih =>
    rw [List.cons_append]
    rw [classify] at h ⊢
    cases hfirst : folder.checkName first with
    | ok parts =>
      rw [hfirst] at h
      obtain ⟨⟨others, left⟩, hrest, h⟩ := bind_eq_ok.mp h
      cases h
      exact bind_eq_ok.mpr ⟨_, ih hrest, rfl⟩
    | error failure =>
      rw [hfirst] at h
      dsimp only at h ⊢
      cases hpolicy : folder.policy with
      | fail =>
        rw [hpolicy] at h
        cases h
      | skip =>
        rw [hpolicy] at h
        obtain ⟨⟨others, left⟩, hrest, h⟩ := bind_eq_ok.mp h
        cases h
        exact bind_eq_ok.mpr ⟨_, ih hrest, rfl⟩

/-- In a folder that gained the file of a script the scan finds that script, too. -/
theorem scan_of_gainsFile {place : List String} {bytes : ByteArray}
    (hgains : Home.GainsFile folder.dir name home other place bytes)
    (hscan : folder.scan home = .ok catalog) (hnumbered : ScriptName.isNumbered name = true)
    (hname : folder.checkName name = .ok (id, description))
    (hid : ∀ entry ∈ catalog.entries, entry.id < id) :
    folder.scan other = .ok (catalog.extended (folder.entryOf name id description) hid) := by
  obtain ⟨hfolder, listing, entries, skipped, hlist, hnames, hperm, hskipped, hscope⟩ :=
    scan_eq_ok.mp hscan
  obtain ⟨_, hthere, hnode⟩ := Home.isFolder_iff.mp hfolder
  obtain rfl := Except.ok.inj (hgains.stood.symm.trans hthere)
  have hcandidates :
      candidates (listing ++ [⟨some name, true⟩]) = candidates listing ++ [name] := by
    rw [candidates, List.filterMap_append]
    simp [candidates, hnumbered]
  -- the scan goes by the listing, which has the new name at its end
  rw [scan_congr hgains.sameFolder]
  refine scan_eq_ok.mpr ⟨Home.isFolder_iff.mpr ⟨place, Home.place_extended hthere,
    Home.node?_extended hnode⟩, _, _, skipped, Home.list_extended hthere hlist, ?_,
    hperm.append_right _, hskipped, hscope⟩
  rw [hcandidates]
  exact classify_append hname hnames

end ScriptFolder

end Migrations
