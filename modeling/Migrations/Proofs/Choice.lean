import Mathlib.Data.List.Dedup
import Migrations.Proofs.Plan

/-!
# What Plans Choose

Which scripts a plan has, said by ids: those that are offered in a direction, cut off where the
target says.  The bodies of other scripts have no part in it, so a plan is the same whatever they
hold and whether or not they can be read.

## Main statements

- `Catalog.find?_newestFirst`: of the changes with one id the first one counts.
- `Catalog.map_id_selectUp`, `Catalog.map_id_selectDown`: the ids that a run reaches.
- `Plan.make_of_offered`, `Plan.make_of_stranded`: with a script for each of them there is a plan,
  and otherwise the first one without a script is named.
- `Plan.make_chooses`: what comes of a direction and a target.
-/

namespace Migrations

/-! ## Sorting by ids -/

/-- Ids that descend are known by what they contain. -/
theorem ChangeId.eq_of_descending {first second : List ChangeId}
    (hfirst : first.Pairwise (fun a b => b < a)) (hsecond : second.Pairwise (fun a b => b < a))
    (h : ∀ id, id ∈ first ↔ id ∈ second) : first = second :=
  eq_of_pairwise_of_mem (fun _ _ => lt_asymm) hfirst hsecond h

/-- Sorting keeps changes of one id in their order. -/
theorem Change.filter_mergeSort {le : Change → Change → Bool}
    (htrans : ∀ a b c, le a b = true → le b c = true → le a c = true)
    (htotal : ∀ a b, (le a b || le b a) = true)
    (hsame : ∀ a b : Change, a.id = b.id → le a b = true)
    (changes : List Change) (id : ChangeId) :
    (changes.mergeSort le).filter (fun change => change.id == id) =
      changes.filter (fun change => change.id == id) := by
  have hordered : (changes.filter (fun change => change.id == id)).Pairwise
      (fun a b => le a b = true) := by
    refine List.pairwise_of_forall_mem_list fun a ha b hb => hsame a b ?_
    simp only [List.mem_filter, beq_iff_eq] at ha hb
    rw [ha.2, hb.2]
  -- they are a part of the sorted changes, and there are no others of the id
  have hpart := (List.sublist_mergeSort htrans htotal hordered List.filter_sublist).filter
    (fun change => change.id == id)
  have hsize := ((List.mergeSort_perm changes le).filter (fun change => change.id == id)).length_eq
  rw [List.filter_filter] at hpart
  simp only [Bool.and_self] at hpart
  exact (hpart.eq_of_length hsize.symm).symm

theorem Change.sort_ascending (changes : List Change) :
    (Change.sort changes).Pairwise (fun a b => a.id ≤ b.id) :=
  (List.pairwise_mergeSort (ChangeId.le_trans_by Change.id) (ChangeId.le_total_by Change.id)
    changes).imp of_decide_eq_true

theorem Change.filter_sort (changes : List Change) (id : ChangeId) :
    (Change.sort changes).filter (fun change => change.id == id) =
      changes.filter (fun change => change.id == id) :=
  filter_mergeSort (ChangeId.le_trans_by Change.id) (ChangeId.le_total_by Change.id)
    (fun a _ h => decide_eq_true (h ▸ ChangeId.le_refl a.id)) changes id

namespace Catalog

variable {catalog : Catalog} {home : Home} {ledger : List Change}

/-! ## The newest changes -/

/-- Behind a change of the given id or a later one, what is dropped at the start is all that there
is of the id. -/
theorem dropWhile_eq_filter {rows : List Change} {id : ChangeId}
    (hrows : rows.Pairwise (fun a b => b.id < a.id)) (hid : ∀ row ∈ rows, row.id ≤ id) :
    rows.dropWhile (fun row => row.id == id) = rows.filter (fun row => row.id != id) := by
  induction rows with
  | nil => rfl
  | cons row rest ih =>
    obtain ⟨hrow, hrest⟩ := List.pairwise_cons.mp hrows
    have hle := hid row List.mem_cons_self
    by_cases hsame : row.id = id
    · rw [List.dropWhile_cons_of_pos (by simpa using hsame),
        List.filter_cons_of_neg (by simpa using hsame)]
      exact ih hrest fun other hmem => hid other (List.mem_cons_of_mem _ hmem)
    · have hall : rest.filter (fun row => row.id != id) = rest := by
        refine List.filter_eq_self.mpr fun other hmem => ?_
        have hlt := ChangeId.lt_of_lt_of_le (hrow other hmem) hle
        simpa using fun heq => ChangeId.lt_irrefl _ (heq ▸ hlt)
      rw [List.dropWhile_cons_of_neg (by simpa using hsame),
        List.filter_cons_of_pos (by simpa using hsame), hall]

/-- Of rows in descending order the first one of each id is kept. -/
theorem first_of_descending {rows kept : List Change}
    (hrows : rows.Pairwise (fun a b => b.id ≤ a.id))
    (hkept : rows.foldr (fun change rest =>
      change :: rest.dropWhile (fun other => other.id == change.id)) [] = kept) :
    kept.Pairwise (fun a b => b.id < a.id) ∧ kept.Sublist rows ∧
      ∀ id, kept.find? (fun change => change.id == id) =
        rows.find? (fun change => change.id == id) := by
  induction rows generalizing kept with
  | nil =>
    subst hkept
    exact ⟨.nil, .slnil, fun _ => rfl⟩
  | cons row rest ih =>
    obtain ⟨hrow, hrest⟩ := List.pairwise_cons.mp hrows
    obtain ⟨others, hothers⟩ : ∃ others, rest.foldr (fun change rest =>
      change :: rest.dropWhile (fun other => other.id == change.id)) [] = others := ⟨_, rfl⟩
    obtain ⟨hdescending, hpart, hfind⟩ := ih hrest hothers
    have hle : ∀ other ∈ others, other.id ≤ row.id := fun other hmem =>
      hrow other (hpart.subset hmem)
    rw [List.foldr_cons, hothers, dropWhile_eq_filter hdescending hle] at hkept
    subst hkept
    refine ⟨List.pairwise_cons.mpr ⟨fun other hmem => ?_, hdescending.filter _⟩,
      (List.filter_sublist.trans hpart).cons_cons row, fun id => ?_⟩
    · obtain ⟨hmem, hne⟩ := List.mem_filter.mp hmem
      exact ChangeId.lt_of_le_of_ne (hle other hmem) (by simpa using hne)
    · by_cases hid : row.id = id
      · simp [hid]
      · rw [List.find?_cons_of_neg (by simpa using hid),
          List.find?_cons_of_neg (by simpa using hid), List.find?_filter, ← hfind id]
        -- what is dropped has the id of the row, which is another one
        refine congrArg (fun p => others.find? p) (funext fun other => ?_)
        rw [Bool.eq_iff_iff]
        simp only [decide_eq_true_eq, bne_iff_ne, beq_iff_eq, and_iff_right_iff_imp]
        rintro rfl
        exact fun heq => hid heq.symm

theorem newestFirst_descending (ledger : List Change) :
    (newestFirst ledger).Pairwise (fun a b => b.id < a.id) :=
  (first_of_descending (mergeSort_descending ledger) rfl).1

/-- Of the changes with one id the first one of the ledger counts. -/
theorem find?_newestFirst (ledger : List Change) (id : ChangeId) :
    (newestFirst ledger).find? (fun change => change.id == id) =
      ledger.find? (fun change => change.id == id) := by
  have hfirst := (first_of_descending (mergeSort_descending ledger) rfl).2.2 id
  have hstable := Change.filter_mergeSort
    (fun a b c hab hbc => ChangeId.le_trans_by Change.id c b a hbc hab)
    (fun a b => ChangeId.le_total_by Change.id b a)
    (fun a _ h => decide_eq_true (h ▸ ChangeId.le_refl a.id)) ledger id
  rw [newestFirst, hfirst, ← List.head?_filter, hstable, List.head?_filter]

/-- One of the newest changes is the first one of the ledger with its id. -/
theorem find?_of_newestFirst {change : Change} (h : change ∈ newestFirst ledger) :
    ledger.find? (fun other => other.id == change.id) = some change := by
  rw [← find?_newestFirst]
  cases hfind : (newestFirst ledger).find? (fun other => other.id == change.id) with
  | none => exact absurd (beq_self_eq_true change.id) (List.find?_eq_none.mp hfind change h)
  | some other =>
    have hascending := List.pairwise_reverse.mpr (newestFirst_descending ledger)
    have hid : other.id = change.id := by simpa using List.find?_some hfind
    exact congrArg some (ChangeId.eq_of_ascending hascending
      (List.mem_reverse.mpr (List.mem_of_find?_eq_some hfind)) (List.mem_reverse.mpr h) hid)

theorem mem_map_id_newestFirst {id : ChangeId} :
    id ∈ (newestFirst ledger).map Change.id ↔ id ∈ ledger.map Change.id := by
  have hfound : ∀ rows : List Change, id ∈ rows.map Change.id ↔
      (rows.find? (fun change => change.id == id)).isSome = true := by
    simp [List.find?_isSome]
  rw [hfound, hfound, find?_newestFirst]

/-! ## What is offered -/

/-- The ids that a run can reach, in its order: upwards those of the scripts that are not in the
ledger, ascending, and downwards those of the ledger, each once, descending. -/
def offered (catalog : Catalog) (ledger : List Change) : Direction → List ChangeId
  | .up => catalog.ids.filter fun id => decide (id ∉ ledger.map Change.id)
  | .down => (ledger.map Change.id).dedup.mergeSort fun a b => decide (b ≤ a)

end Catalog

/-- The first ones of the offered ids, as far as the target goes. -/
def Target.reached (target : Target) (direction : Direction) (offered : List ChangeId) :
    List ChangeId :=
  match target, direction with
  | .latest, .up => offered
  | .latest, .down => offered.take 1
  | .through id, .up => offered.filter fun other => decide (other ≤ id)
  | .through id, .down => offered.filter fun other => decide (id ≤ other)
  | .steps n, _ => offered.take n

namespace Catalog

variable {catalog : Catalog} {home : Home} {ledger : List Change}

theorem map_id_pendingEntries :
    (catalog.pendingEntries ledger).map ScriptEntry.id = catalog.offered ledger .up := by
  have hnew : (fun id => decide (id ∉ ledger.map Change.id)) ∘ ScriptEntry.id =
      fun entry => !recorded ledger entry.id := by
    funext entry
    rw [Function.comp_apply, Bool.eq_iff_iff, decide_eq_true_iff, ← recorded_iff]
    simp
  rw [offered, ids, List.filter_map, hnew]
  rfl

theorem map_id_newestFirst :
    (newestFirst ledger).map Change.id = catalog.offered ledger .down := by
  have hsorted := List.pairwise_mergeSort
    (fun a b c hab hbc => ChangeId.le_trans_by id c b a hbc hab)
    (fun a b => ChangeId.le_total_by id b a) (ledger.map Change.id).dedup
  have hnodup : (catalog.offered ledger .down).Nodup :=
    (List.mergeSort_perm _ _).nodup_iff.mpr (List.nodup_dedup _)
  -- both sides descend and have the ids of the ledger, and there is one such list
  refine ChangeId.eq_of_descending (List.pairwise_map.mpr (newestFirst_descending ledger)) ?_
    fun id => ?_
  · refine (hsorted.and hnodup).imp fun h => ?_
    exact ChangeId.lt_of_le_of_ne (of_decide_eq_true h.1) (Ne.symm h.2)
  · rw [mem_map_id_newestFirst, offered, List.mem_mergeSort, List.mem_dedup]

/-- The ids of the scripts that a run upwards reaches. -/
theorem map_id_selectUp (target : Target) :
    (catalog.selectUp ledger target).map ScriptEntry.id =
      target.reached .up (catalog.offered ledger .up) := by
  rw [← map_id_pendingEntries]
  cases target with
  | latest => rw [selectUp_latest, Target.reached]
  | through id =>
    rw [Target.reached, List.filter_map]
    rfl
  | steps n =>
    rw [Target.reached, ← List.map_take]
    exact congrArg (fun entries => (List.take n entries).map ScriptEntry.id) selectUp_latest

/-- The ids of the changes that a run downwards reaches. -/
theorem map_id_selectDown (target : Target) :
    (selectDown ledger target).map Change.id =
      target.reached .down (catalog.offered ledger .down) := by
  rw [← map_id_newestFirst]
  cases target with
  | latest => rw [selectDown, Target.reached, List.map_take]
  | through id =>
    rw [selectDown, Target.reached, List.filter_map]
    rfl
  | steps n => rw [selectDown, Target.reached, List.map_take]

/-- The changes whose scripts a plan has. -/
def selected (catalog : Catalog) (ledger : List Change) (target : Target) :
    Direction → List Change
  | .up => (catalog.selectUp ledger target).map ScriptEntry.change
  | .down => selectDown ledger target

theorem map_id_selected {target : Target} {direction : Direction} :
    (catalog.selected ledger target direction).map Change.id =
      target.reached direction (catalog.offered ledger direction) := by
  cases direction with
  | up =>
    rw [selected, List.map_map]
    exact map_id_selectUp target
  | down => exact map_id_selectDown target

theorem mem_ids_of_reached {target : Target} {id : ChangeId}
    (h : id ∈ target.reached .up (catalog.offered ledger .up)) : id ∈ catalog.ids := by
  rw [← map_id_selectUp] at h
  obtain ⟨entry, hentry, rfl⟩ := List.mem_map.mp h
  have hpending := (selectUp_first target).subset hentry
  exact List.mem_map_of_mem (mem_pendingEntries.mp hpending).1

/-! ## Bodies -/

/-- A catalog of files, or one of scripts that were given. -/
def Genuine (catalog : Catalog) : Prop :=
  catalog.OnFiles ∨ ∃ scripts, ofScripts scripts = .ok catalog

/-- The scripts are those with the ids, one for each. -/
def Loads (catalog : Catalog) (home : Home) (ids : List ChangeId) (scripts : List Script) : Prop :=
  ids.map (catalog.load? home) = scripts.map fun script => .ok (some script)

/-- The script for an id has this id. -/
theorem Genuine.id_eq (hgenuine : catalog.Genuine) {id : ChangeId} {script : Script}
    (h : catalog.load? home id = .ok (some script)) : script.id = id := by
  by_cases hid : id ∈ catalog.ids
  · obtain ⟨entry, hentry, rfl⟩ := List.mem_map.mp hid
    have hload := (load?_eq_some hentry).mp h
    -- a file gives the id of its entry, and an entry of a given script has the id of the script
    rcases hgenuine with hfiles | ⟨scripts, hscripts⟩
    · exact load_id (hfiles entry hentry) hload
    · obtain ⟨given, -, rfl⟩ := List.mem_map.mp ((ofEntries_eq_ok.mp hscripts).1.subset hentry)
      cases hload
      rfl
  · rw [load?_of_notMem hid] at h
    cases h

theorem Genuine.map_id_eq (hgenuine : catalog.Genuine) {ids : List ChangeId}
    {scripts : List Script} (h : catalog.Loads home ids scripts) : scripts.map Script.id = ids := by
  induction ids generalizing scripts with
  | nil =>
    rw [List.map_eq_nil_iff.mp h.symm]
    rfl
  | cons id rest ih =>
    cases scripts with
    | nil => cases h
    | cons script others =>
      obtain ⟨hscript, hothers⟩ := List.cons.inj h
      rw [List.map_cons, hgenuine.id_eq hscript, ih hothers]

/-- What can be read for an id of the catalog is a script. -/
theorem exists_load? {id : ChangeId} (hid : id ∈ catalog.ids)
    (hreadable : ∃ script?, catalog.load? home id = .ok script?) :
    ∃ script, catalog.load? home id = .ok (some script) := by
  obtain ⟨entry, hentry, rfl⟩ := List.mem_map.mp hid
  obtain ⟨script?, h⟩ := hreadable
  cases hload : catalog.load home entry with
  | ok script => exact ⟨script, (load?_eq_some hentry).mpr hload⟩
  | error failure =>
    rw [load?, find?_of_mem hentry] at h
    simp [hload, Except.map] at h

theorem exists_loads {ids : List ChangeId}
    (hreadable : ∀ id ∈ ids, ∃ script?, catalog.load? home id = .ok script?)
    (hids : ∀ id ∈ ids, id ∈ catalog.ids) : ∃ scripts, catalog.Loads home ids scripts := by
  induction ids with
  | nil => exact ⟨[], rfl⟩
  | cons id rest ih =>
    obtain ⟨scripts, hscripts⟩ := ih (fun id hmem => hreadable id (List.mem_cons_of_mem _ hmem))
      fun id hmem => hids id (List.mem_cons_of_mem _ hmem)
    obtain ⟨script, hscript⟩ :=
      exists_load? (hids id List.mem_cons_self) (hreadable id List.mem_cons_self)
    exact ⟨script :: scripts, congrArg₂ List.cons hscript hscripts⟩

/-- What is loaded for entries are the scripts with their ids. -/
theorem loads_of_loadAll {entries : List ScriptEntry} {scripts : List Script}
    (hentries : ∀ entry ∈ entries, entry ∈ catalog.entries)
    (h : catalog.loadAll home entries = .ok scripts) :
    catalog.Loads home (entries.map ScriptEntry.id) scripts := by
  induction entries generalizing scripts with
  | nil =>
    cases h
    rfl
  | cons entry rest ih =>
    rw [loadAll] at h
    obtain ⟨script, hscript, h⟩ := bind_eq_ok.mp h
    obtain ⟨others, hothers, h⟩ := bind_eq_ok.mp h
    cases h
    exact congrArg₂ List.cons ((load?_eq_some (hentries entry List.mem_cons_self)).mpr hscript)
      (ih (fun other hmem => hentries other (List.mem_cons_of_mem _ hmem)) hothers)

/-- Entries are loaded like changes with their ids. -/
theorem loadAll_eq_loadApplied {entries : List ScriptEntry}
    (hentries : ∀ entry ∈ entries, entry ∈ catalog.entries) :
    catalog.loadAll home entries = catalog.loadApplied home (entries.map ScriptEntry.change) := by
  induction entries with
  | nil => rfl
  | cons entry rest ih =>
    have hfind : catalog.find? entry.change.id = some entry :=
      find?_of_mem (hentries entry List.mem_cons_self)
    rw [List.map_cons, loadAll, loadApplied, load?, hfind,
      ih fun other hmem => hentries other (List.mem_cons_of_mem _ hmem)]
    dsimp only
    cases catalog.load home entry <;> rfl

theorem loadApplied_congr {other : Catalog} {away : Home} {selected : List Change}
    (h : ∀ id ∈ selected.map Change.id, other.load? away id = catalog.load? home id) :
    other.loadApplied away selected = catalog.loadApplied home selected := by
  induction selected with
  | nil => rfl
  | cons change rest ih =>
    rw [loadApplied, loadApplied, h change.id List.mem_cons_self,
      ih fun id hmem => h id (List.mem_cons_of_mem _ hmem)]

theorem loadApplied_of_loads {changes : List Change} {scripts : List Script}
    (h : catalog.Loads home (changes.map Change.id) scripts) :
    catalog.loadApplied home changes = .ok scripts := by
  induction changes generalizing scripts with
  | nil =>
    rw [List.map_eq_nil_iff.mp h.symm]
    rfl
  | cons change rest ih =>
    cases scripts with
    | nil => cases h
    | cons script others =>
      obtain ⟨hscript, hothers⟩ := List.cons.inj h
      rw [loadApplied]
      exact bind_eq_ok.mpr ⟨some script, hscript, bind_eq_ok.mpr ⟨others, ih hothers, rfl⟩⟩

/-- The first change without a script is named, once the bodies before it are read. -/
theorem loadApplied_of_stranded {changes : List Change} {change : Change}
    (hreadable : ∀ id ∈ changes.map Change.id, ∃ script?, catalog.load? home id = .ok script?)
    (hfirst : changes.find? (fun change => decide (change.id ∉ catalog.ids)) = some change) :
    catalog.loadApplied home changes = .error (.missingScript change.id change.description) := by
  -- the bodies of the changes before it are read, and none of them is the reason
  induction changes with
  | nil => cases hfirst
  | cons first rest ih =>
    rw [loadApplied]
    by_cases hid : first.id ∈ catalog.ids
    · rw [List.find?_cons_of_neg (by simpa using hid)] at hfirst
      have hrest := ih (fun id hmem => hreadable id (List.mem_cons_of_mem _ hmem)) hfirst
      obtain ⟨script, hscript⟩ := exists_load? hid (hreadable first.id List.mem_cons_self)
      rw [hscript, hrest]
      rfl
    · rw [List.find?_cons_of_pos (by simpa using hid)] at hfirst
      cases hfirst
      rw [load?_of_notMem hid]
      rfl

/-! ## What users are told -/

theorem filter_missing (id : ChangeId) :
    (catalog.missing ledger).filter (fun change => change.id == id) =
      if id ∈ catalog.ids then [] else ledger.filter fun change => change.id == id := by
  rw [missing, Change.filter_sort, List.filter_filter]
  split
  · rename_i hid
    refine List.filter_eq_nil_iff.mpr fun change _ => ?_
    simp only [Bool.and_eq_true, beq_iff_eq, not_and, Bool.not_eq_true', Bool.not_eq_false]
    rintro rfl
    exact contains_iff.mpr hid
  · rename_i hid
    refine List.filter_congr fun change _ => ?_
    rw [Bool.eq_iff_iff, Bool.and_eq_true, beq_iff_eq, and_iff_left_iff_imp]
    rintro rfl
    simpa using mt contains_iff.mp hid

theorem pending_eq : catalog.pending ledger =
    catalog.changes.filter fun change => decide (change.id ∉ ledger.map Change.id) := by
  rw [pending, pendingEntries, changes, List.filter_map]
  refine congrArg (List.map ScriptEntry.change) (List.filter_congr fun entry _ => ?_)
  rw [Bool.eq_iff_iff, Function.comp_apply, decide_eq_true_iff,
    show entry.change.id = entry.id from rfl, ← recorded_iff]
  simp

theorem skippedChanges_eq :
    catalog.skippedChanges ledger = catalog.changes.filter fun change =>
      decide (change.id ∉ ledger.map Change.id ∧ ∃ row ∈ ledger, change.id < row.id) := by
  rw [skippedChanges]
  split
  · rename_i latest hlatest
    -- a change is before some row exactly when it is before the latest one
    obtain ⟨hmem, hgreatest⟩ := latest?_eq_some.mp hlatest
    obtain ⟨last, hlast, rfl⟩ := List.mem_map.mp hmem
    rw [pending_eq, List.filter_filter]
    refine List.filter_congr fun change _ => ?_
    rw [Bool.eq_iff_iff, Bool.and_eq_true, decide_eq_true_iff, decide_eq_true_iff,
      decide_eq_true_iff, and_comm]
    refine and_congr_right fun _ => ⟨fun hlt => ⟨last, hlast, hlt⟩, ?_⟩
    rintro ⟨row, hrow, hlt⟩
    exact ChangeId.lt_of_lt_of_le hlt (hgreatest _ (List.mem_map_of_mem hrow))
  · rename_i hnone
    rw [latest?_eq_none.mp hnone]
    simp

/-! ## Catalogs with the same names -/

section SameNames

variable {other : Catalog} (hchanges : other.changes = catalog.changes)

include hchanges

theorem ids_congr : other.ids = catalog.ids := by
  have hids := congrArg (List.map Change.id) hchanges
  rwa [changes, changes, List.map_map, List.map_map] at hids

theorem missing_congr : other.missing ledger = catalog.missing ledger := by
  refine congrArg Change.sort (List.filter_congr fun change _ => ?_)
  rw [Bool.eq_iff_iff, Bool.not_eq_true', Bool.not_eq_true', ← Bool.not_eq_true, ← Bool.not_eq_true,
    contains_iff, contains_iff, ids_congr hchanges]

theorem selected_congr {target : Target} {direction : Direction} :
    other.selected ledger target direction = catalog.selected ledger target direction := by
  have hpending : other.pending ledger = catalog.pending ledger := by
    rw [pending_eq, pending_eq, hchanges]
  -- what is reached of the entries is reached of their changes
  have hsame : ∀ p : Change → Bool,
      ((other.pendingEntries ledger).filter (p ∘ ScriptEntry.change)).map ScriptEntry.change =
        ((catalog.pendingEntries ledger).filter (p ∘ ScriptEntry.change)).map
          ScriptEntry.change := by
    intro p
    rw [← List.filter_map, ← List.filter_map]
    exact congrArg (List.filter p) hpending
  cases direction with
  | up =>
    cases target with
    | latest => exact hsame fun _ => true
    | through id => exact hsame fun change => decide (change.id ≤ id)
    | steps n =>
      have htake := congrArg (List.take n) (hsame fun _ => true)
      rw [← List.map_take, ← List.map_take] at htake
      exact htake
  | down => rfl

end SameNames

end Catalog

/-! ## Plans -/

namespace Plan

variable {catalog : Catalog} {home : Home} {ledger : List Change} {direction : Direction}
  {target : Target}

theorem make_noSteps :
    make catalog home ledger direction (.steps 0) = .error (.argument .noSteps) := rfl

theorem make_eq (hsteps : target ≠ .steps 0) :
    make catalog home ledger direction target =
      (catalog.loadApplied home (catalog.selected ledger target direction)).map fun scripts =>
        ⟨direction, scripts, catalog.missing ledger, catalog.skippedChanges ledger⟩ := by
  rw [make, if_neg hsteps]
  cases direction with
  | up =>
    have hentries : ∀ entry ∈ catalog.selectUp ledger target, entry ∈ catalog.entries :=
      fun entry hmem => (Catalog.mem_pendingEntries.mp
        ((Catalog.selectUp_first target).subset hmem)).1
    dsimp only
    rw [Catalog.loadAll_eq_loadApplied hentries, Catalog.selected]
    rfl
  | down => rfl

/-- With a script for every id that the target reaches there is a plan of these scripts. -/
theorem make_of_offered {scripts : List Script} (hsteps : target ≠ .steps 0)
    (h : catalog.Loads home (target.reached direction (catalog.offered ledger direction)) scripts) :
    make catalog home ledger direction target =
      .ok ⟨direction, scripts, catalog.missing ledger, catalog.skippedChanges ledger⟩ := by
  rw [← Catalog.map_id_selected] at h
  rw [make_eq hsteps, Catalog.loadApplied_of_loads h]
  rfl

/-- Without a script for one of them there is none, and the first such change is named. -/
theorem make_of_stranded {id : ChangeId} (hsteps : target ≠ .steps 0)
    (hreadable : ∀ id ∈ target.reached direction (catalog.offered ledger direction),
      ∃ script?, catalog.load? home id = .ok script?)
    (hfirst : (target.reached direction (catalog.offered ledger direction)).find?
      (fun id => decide (id ∉ catalog.ids)) = some id) :
    ∃ change, ledger.find? (fun change => change.id == id) = some change ∧
      make catalog home ledger direction target =
        .error (.missingScript id change.description) := by
  cases direction with
  | up =>
    -- upwards only scripts of the catalog are reached
    have hmem := Catalog.mem_ids_of_reached (List.mem_of_find?_eq_some hfirst)
    exact absurd hmem (by simpa using List.find?_some hfirst)
  | down =>
    rw [← Catalog.map_id_selected] at hreadable hfirst
    rw [List.find?_map] at hfirst
    obtain ⟨change, hchange, rfl⟩ := Option.map_eq_some_iff.mp hfirst
    have hnewest := (Catalog.selectDown_sublist ledger target).subset
      (List.mem_of_find?_eq_some hchange)
    refine ⟨change, Catalog.find?_of_newestFirst hnewest, ?_⟩
    rw [make_eq hsteps, Catalog.loadApplied_of_stranded hreadable hchange]
    rfl

/-- A plan follows from the names of the scripts and the bodies of those that are reached. -/
theorem make_congr {other : Catalog} {away : Home} (hchanges : other.changes = catalog.changes)
    (hsame : ∀ id ∈ target.reached direction (catalog.offered ledger direction),
      other.load? away id = catalog.load? home id) :
    make other away ledger direction target = make catalog home ledger direction target := by
  by_cases hsteps : target = .steps 0
  · rw [hsteps, make_noSteps, make_noSteps]
  · rw [← Catalog.map_id_selected] at hsame
    rw [make_eq hsteps, make_eq hsteps, Catalog.selected_congr hchanges,
      Catalog.loadApplied_congr hsame, Catalog.missing_congr hchanges, Catalog.skippedChanges_eq,
      Catalog.skippedChanges_eq, hchanges]

/-- What a plan holds for the ids that it reaches. -/
structure Holds (plan : Plan) (catalog : Catalog) (home : Home) (ledger : List Change)
    (reached : List ChangeId) : Prop where
  /-- Each of the ids has its own script. -/
  scripts : catalog.Loads home reached plan.scripts
  ids : catalog.Genuine → plan.ids = reached
  missing_ascending : plan.missing.Pairwise (fun a b => a.id ≤ b.id)
  /-- What is missing are all changes of the ledger that have no script. -/
  missing : ∀ id, plan.missing.filter (fun change => change.id == id) =
    if id ∈ catalog.ids then [] else ledger.filter fun change => change.id == id
  /-- What is skipped are the scripts that are not in the ledger although a later change is. -/
  skipped : plan.skipped = catalog.changes.filter fun change =>
    decide (change.id ∉ ledger.map Change.id ∧ ∃ row ∈ ledger, change.id < row.id)

/-- The three things that can come of asking for a plan. -/
inductive Chosen (catalog : Catalog) (home : Home) (ledger : List Change) (direction : Direction)
    (target : Target) : Except Failure Plan → Prop where
  | refused (hsteps : target = .steps 0) :
      Chosen catalog home ledger direction target (.error (.argument .noSteps))
  | planned {plan : Plan} (hsteps : target ≠ .steps 0)
      (hall : ∀ id ∈ target.reached direction (catalog.offered ledger direction), id ∈ catalog.ids)
      (hdirection : plan.direction = direction)
      (hplan : plan.Holds catalog home ledger
        (target.reached direction (catalog.offered ledger direction))) :
      Chosen catalog home ledger direction target (.ok plan)
  | stranded {id : ChangeId} {change : Change} (hsteps : target ≠ .steps 0)
      (hfirst : (target.reached direction (catalog.offered ledger direction)).find?
        (fun id => decide (id ∉ catalog.ids)) = some id)
      (hledger : ledger.find? (fun change => change.id == id) = some change) :
      Chosen catalog home ledger direction target (.error (.missingScript id change.description))

theorem chosen_make
    (hreadable : ∀ id ∈ target.reached direction (catalog.offered ledger direction),
      ∃ script?, catalog.load? home id = .ok script?) :
    Chosen catalog home ledger direction target (make catalog home ledger direction target) := by
  by_cases hsteps : target = .steps 0
  · subst hsteps
    exact .refused rfl
  · -- whether there is a plan is decided by the first id without a script
    cases hfirst : (target.reached direction (catalog.offered ledger direction)).find?
        (fun id => decide (id ∉ catalog.ids)) with
    | none =>
      have hall : ∀ id ∈ target.reached direction (catalog.offered ledger direction),
          id ∈ catalog.ids := fun id hmem => by simpa using List.find?_eq_none.mp hfirst id hmem
      obtain ⟨scripts, hscripts⟩ := Catalog.exists_loads hreadable hall
      rw [make_of_offered hsteps hscripts]
      exact .planned hsteps hall rfl
        ⟨hscripts, fun hgenuine => hgenuine.map_id_eq hscripts, Change.sort_ascending _,
          Catalog.filter_missing, Catalog.skippedChanges_eq⟩
    | some id =>
      obtain ⟨change, hledger, hmake⟩ := make_of_stranded hsteps hreadable hfirst
      rw [hmake]
      exact .stranded hsteps hfirst hledger

/-- What comes of a direction and a target.  No steps are refused.  Otherwise the plan has the
scripts of the ids that the target reaches, unless one of them has no script, and then the first one
without a script is named with the description that the ledger gives it.  As long as the scripts
that are reached stay the same, the bodies of the other ones change nothing. -/
theorem make_chooses
    (hreadable : ∀ id ∈ target.reached direction (catalog.offered ledger direction),
      ∃ script?, catalog.load? home id = .ok script?) :
    let reached := target.reached direction (catalog.offered ledger direction)
    let result := make catalog home ledger direction target
    (∀ fault, result = .error (.argument fault) ↔ target = .steps 0 ∧ fault = .noSteps) ∧
    ((∃ plan, result = .ok plan) ↔ target ≠ .steps 0 ∧ ∀ id ∈ reached, id ∈ catalog.ids) ∧
    (∀ plan, result = .ok plan →
      plan.direction = direction ∧ plan.Holds catalog home ledger reached) ∧
    (∀ id description, result = .error (.missingScript id description) ↔
      target ≠ .steps 0 ∧ reached.find? (fun id => decide (id ∉ catalog.ids)) = some id ∧
        ∃ change, ledger.find? (fun change => change.id == id) = some change ∧
          change.description = description) ∧
    (∀ (other : Catalog) (away : Home), other.changes = catalog.changes →
      (∀ id ∈ reached, other.load? away id = catalog.load? home id) →
      make other away ledger direction target = result) := by
  intro reached result
  have hchosen : Chosen catalog home ledger direction target result := chosen_make hreadable
  have hcongr : ∀ (other : Catalog) (away : Home), other.changes = catalog.changes →
      (∀ id ∈ reached, other.load? away id = catalog.load? home id) →
      make other away ledger direction target = result := fun _ _ => make_congr
  generalize result = result at *
  cases hchosen with
  | refused hsteps =>
    refine ⟨fun fault => ?_, ?_, ?_, fun id description => ?_, hcongr⟩
    · simp [hsteps, eq_comm]
    · simp [hsteps]
    · rintro _ ⟨⟩
    · simp [hsteps]
  | planned hsteps hall hdirection hplan =>
    have hfirst : reached.find? (fun id => decide (id ∉ catalog.ids)) = none :=
      List.find?_eq_none.mpr fun id hmem => by simpa using hall id hmem
    refine ⟨fun fault => ?_, ⟨fun _ => ⟨hsteps, hall⟩, fun _ => ⟨_, rfl⟩⟩, ?_,
      fun id description => ?_, hcongr⟩
    · simp [hsteps]
    · rintro _ ⟨⟩
      exact ⟨hdirection, hplan⟩
    · rw [hfirst]
      simp
  | stranded hsteps hfirst hledger =>
    refine ⟨fun fault => ?_, ⟨?_, ?_⟩, ?_, fun id description => ⟨?_, ?_⟩, hcongr⟩
    · simp [hsteps]
    · rintro ⟨_, ⟨⟩⟩
    · rintro ⟨-, hall⟩
      have hmem := hall _ (List.mem_of_find?_eq_some hfirst)
      exact absurd hmem (by simpa using List.find?_some hfirst)
    · rintro _ ⟨⟩
    · rintro ⟨⟩
      exact ⟨hsteps, hfirst, _, hledger, rfl⟩
    · rintro ⟨-, hother, change, hchange, rfl⟩
      rw [hfirst] at hother
      cases hother
      rw [hledger] at hchange
      cases hchange
      rfl

/-- Scripts in files, of which the first one is gone. -/
private def gappedScripts : Catalog where
  entries := [⟨⟨1⟩, "a", "1_a.sql", .file ⟨"scripts/1_a.sql"⟩⟩,
    ⟨⟨2⟩, "b", "2_b.sql", .file ⟨"scripts/2_b.sql"⟩⟩,
    ⟨⟨4⟩, "d", "4_d.sql", .file ⟨"scripts/4_d.sql"⟩⟩]
  ascending := by decide

private def gappedHome : Home :=
  ⟨[(["scripts"], .folder), (["scripts", "2_b.sql"], .file "b;\n-- //@UNDO\nxb;".toUTF8 false),
    (["scripts", "4_d.sql"], .file "d;".toUTF8 false)]⟩

/-- A ledger that has a change without a script twice. -/
private def gappedLedger : List Change :=
  [.pending ⟨3⟩ "c", .pending ⟨3⟩ "other", .pending ⟨1⟩ "a"]

private theorem genuine_gapped : gappedScripts.Genuine := by
  refine .inl fun entry hmem => ?_
  simp only [gappedScripts, List.mem_cons, List.not_mem_nil, or_false] at hmem
  rcases hmem with rfl | rfl | rfl <;> exact ⟨_, rfl⟩

/-- The script that is gone was applied, so it is not read on the way up. -/
theorem make_chooses_gapped :
    (∃ plan, make gappedScripts gappedHome gappedLedger .up .latest = .ok plan ∧
      plan.ids = [⟨2⟩, ⟨4⟩] ∧ plan.skipped = [(Change.pending ⟨2⟩ "b").named "2_b.sql"]) ∧
    make gappedScripts gappedHome gappedLedger .down (.steps 1) =
      .error (.missingScript ⟨3⟩ "c") := by
  have hup : Target.latest.reached .up (gappedScripts.offered gappedLedger .up) = [⟨2⟩, ⟨4⟩] := by
    decide +kernel
  have hdown : (Target.steps 1).reached .down (gappedScripts.offered gappedLedger .down) =
      [⟨3⟩] := by
    have hdistinct : (gappedLedger.map Change.id).dedup = [⟨3⟩, ⟨1⟩] := by decide
    rw [Catalog.offered, hdistinct, List.mergeSort_of_pairwise (by decide)]
    rfl
  have hreadable : ∀ id ∈ ([⟨2⟩, ⟨4⟩] : List ChangeId),
      ∃ script?, gappedScripts.load? gappedHome id = .ok script? := by
    refine List.forall_mem_cons.mpr ⟨?_, List.forall_mem_singleton.mpr ?_⟩
    · exact ⟨some ⟨⟨2⟩, "b", "2_b.sql", "b;\n", some "xb;\n"⟩,
        eq_ok_of_toOption (by decide +kernel)⟩
    · exact ⟨some ⟨⟨4⟩, "d", "4_d.sql", "d;\n", none⟩, eq_ok_of_toOption (by decide +kernel)⟩
  constructor
  · obtain ⟨-, hplan, hholds, -, -⟩ := @make_chooses gappedScripts gappedHome gappedLedger .up
      .latest (hup ▸ hreadable)
    obtain ⟨plan, hmake⟩ := hplan.mpr ⟨by decide, by rw [hup]; decide⟩
    obtain ⟨-, hholds⟩ := hholds plan hmake
    refine ⟨plan, hmake, (hholds.ids genuine_gapped).trans hup, hholds.skipped.trans ?_⟩
    decide +kernel
  · obtain ⟨-, -, -, hmissing, -⟩ := @make_chooses gappedScripts gappedHome gappedLedger .down
      (.steps 1) (hdown ▸ List.forall_mem_singleton.mpr ⟨none, Catalog.load?_of_notMem (by decide)⟩)
    refine (hmissing ⟨3⟩ "c").mpr ⟨by decide, ?_, _, rfl, rfl⟩
    rw [hdown]
    decide +kernel

end Plan

end Migrations
