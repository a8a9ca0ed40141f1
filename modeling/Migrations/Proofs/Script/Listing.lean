import Migrations.Proofs.Script.Catalog
import Migrations.Proofs.Script.Folder

/-!
# Listings of a Folder

A directory is listed in no particular order.  The files that are named like numbered scripts are
divided into those whose names follow the rules, which become entries, and those whose names do not,
which are left out or make the folder unusable.  Both halves are the same in every order of the
listing, and so is what the entries make up.

## Main statements

- `ScriptFolder.mem_candidates`: which names are looked at.
- `ScriptFolder.classify_of_tolerated`, `ScriptFolder.classify_of_rejected`: what names are divided
  into, and when that fails.
- `ScriptFolder.catalogOf_partition`: what comes of a listing, in whatever order.
-/

namespace Migrations

namespace ScriptFolder

variable {folder : ScriptFolder} {listing other : List Home.Entry} {names : List String}

/-! ## Names -/

/-- The name of a regular file in the listing that ends like a script and is not reserved. -/
structure Numbered (listing : List Home.Entry) (name : String) : Prop where
  file : ⟨some name, true⟩ ∈ listing
  ends : ∃ stem, name = stem ++ ".sql"
  ne_bootstrap : name ≠ "bootstrap.sql"
  ne_onAbort : name ≠ "onabort.sql"

/-- The names that are looked at are those of numbered files. -/
theorem mem_candidates {name : String} : name ∈ candidates listing ↔ Numbered listing name := by
  rw [candidates, List.mem_filterMap]
  constructor
  · rintro ⟨⟨name?, isFile⟩, hmem, h⟩
    cases name? with
    | none => cases h
    | some found =>
      dsimp only at h
      split at h
      · rename_i hnumbered
        cases h
        obtain ⟨hfile, hname⟩ := Bool.and_eq_true_iff.mp hnumbered
        obtain ⟨hends, hbootstrap, honAbort⟩ := ScriptName.isNumbered_iff.mp hname
        exact ⟨hfile ▸ hmem, hends, hbootstrap, honAbort⟩
      · cases h
  · rintro ⟨hfile, hends, hbootstrap, honAbort⟩
    have hname := ScriptName.isNumbered_iff.mpr ⟨hends, hbootstrap, honAbort⟩
    exact ⟨_, hfile, by simp [hname]⟩

theorem candidates_sublist (listing : List Home.Entry) :
    (candidates listing).Sublist (listing.filterMap Home.Entry.name?) := by
  induction listing with
  | nil => exact .slnil
  | cons entry rest ih =>
    rw [candidates] at ih ⊢
    obtain ⟨name?, isFile⟩ := entry
    cases name? with
    | none => exact ih
    | some name =>
      rw [List.filterMap_cons, List.filterMap_cons]
      dsimp only
      -- the name is passed on or not
      by_cases hname : (isFile && ScriptName.isNumbered name) = true
      · rw [if_pos hname]
        exact ih.cons_cons name
      · rw [if_neg hname]
        exact ih.cons name

/-! ## Dividing names -/

/-- The entry of a name that follows the rules. -/
def entry? (folder : ScriptFolder) (name : String) : Option ScriptEntry :=
  match folder.readName name with
  | .ok (id, description) => some (folder.entryOf name id description)
  | .error _ => none

theorem entry?_eq_some {name : String} {entry : ScriptEntry} :
    folder.entry? name = some entry ↔ entry.filename = name ∧
      folder.readName name = .ok (entry.id, entry.description) ∧
        entry.source = .file (folder.dir.join name) := by
  unfold entry? entryOf
  constructor
  · intro h
    split at h
    · rename_i hname
      cases h
      exact ⟨rfl, hname, rfl⟩
    · cases h
  · rintro ⟨rfl, hname, hsource⟩
    rw [hname]
    dsimp only
    rw [← hsource]

theorem entry?_eq_none {name : String} :
    folder.entry? name = none ↔ ∃ fault, folder.readName name = .error fault := by
  unfold entry?
  cases folder.readName name <;> simp

/-- The entries of the names that follow the rules. -/
def accepted (folder : ScriptFolder) (names : List String) : List ScriptEntry :=
  names.filterMap folder.entry?

/-- The names that break the rules. -/
def rejected (folder : ScriptFolder) (names : List String) : List String :=
  names.filter fun name => (folder.entry? name).isNone

/-- The folder can do with the names: all of them follow the rules, or the others are left out. -/
def Tolerates (folder : ScriptFolder) (names : List String) : Prop :=
  folder.policy = .fail → folder.rejected names = []

theorem mem_accepted {entry : ScriptEntry} :
    entry ∈ folder.accepted names ↔ entry.filename ∈ names ∧
      folder.readName entry.filename = .ok (entry.id, entry.description) ∧
        entry.source = .file (folder.dir.join entry.filename) := by
  rw [accepted, List.mem_filterMap]
  constructor
  · rintro ⟨name, hname, hentry⟩
    obtain ⟨rfl, h⟩ := entry?_eq_some.mp hentry
    exact ⟨hname, h⟩
  · rintro ⟨hname, h⟩
    exact ⟨entry.filename, hname, entry?_eq_some.mpr ⟨rfl, h⟩⟩

theorem mem_rejected {name : String} :
    name ∈ folder.rejected names ↔ name ∈ names ∧ ∃ fault, folder.readName name = .error fault := by
  rw [rejected, List.mem_filter, Option.isNone_iff_eq_none, entry?_eq_none]

theorem tolerates_iff : folder.Tolerates names ↔
    (folder.policy = .fail → ∀ name ∈ names, ∀ fault, folder.readName name ≠ .error fault) := by
  refine imp_congr_right fun _ => ?_
  rw [List.eq_nil_iff_forall_not_mem]
  simp only [mem_rejected, not_and, not_exists]

theorem Tolerates.of_cons {name : String} (h : folder.Tolerates (name :: names)) :
    folder.Tolerates names :=
  tolerates_iff.mpr fun hpolicy other hother =>
    tolerates_iff.mp h hpolicy other (List.mem_cons_of_mem _ hother)

/-- Names are divided into those that follow the rules and those that break them. -/
theorem accepted_rejected_perm (folder : ScriptFolder) (names : List String) :
    ((folder.accepted names).map ScriptEntry.filename ++ folder.rejected names).Perm names := by
  -- an entry has the name that it comes from
  have hnames : (folder.accepted names).map ScriptEntry.filename =
      names.filter fun name => (folder.entry? name).isSome := by
    induction names with
    | nil => rfl
    | cons name rest ih =>
      rw [accepted] at ih ⊢
      cases hentry : folder.entry? name with
      | none => simp [hentry, ih]
      | some entry => simp [hentry, ih, (entry?_eq_some.mp hentry).1]
  have hrest : (fun name => (folder.entry? name).isNone) =
      fun name => !(folder.entry? name).isSome := by
    funext name
    cases folder.entry? name <;> rfl
  rw [hnames, rejected, hrest]
  exact List.filter_append_perm _ _

/-- A name that follows the rules becomes an entry. -/
theorem divide_ok {name description : String} {id : ChangeId}
    (h : folder.readName name = .ok (id, description)) (rest : List String) :
    folder.accepted (name :: rest) = folder.entryOf name id description :: folder.accepted rest ∧
      folder.rejected (name :: rest) = folder.rejected rest := by
  have hentry : folder.entry? name = some (folder.entryOf name id description) :=
    entry?_eq_some.mpr ⟨rfl, h, rfl⟩
  exact ⟨List.filterMap_cons_some hentry, List.filter_cons_of_neg (by simp [hentry])⟩

/-- A name that breaks the rules is set apart. -/
theorem divide_error {name : String} {fault : ScriptFault}
    (h : folder.readName name = .error fault) (rest : List String) :
    folder.accepted (name :: rest) = folder.accepted rest ∧
      folder.rejected (name :: rest) = name :: folder.rejected rest := by
  have hentry : folder.entry? name = none := entry?_eq_none.mpr ⟨fault, h⟩
  exact ⟨List.filterMap_cons_none hentry, List.filter_cons_of_pos (by simp [hentry])⟩

/-- Names that the folder can do with are divided. -/
theorem classify_of_tolerated (h : folder.Tolerates names) :
    folder.classify names = .ok (folder.accepted names, folder.rejected names) := by
  induction names with
  | nil => rfl
  | cons name rest ih =>
    rw [classify, ih h.of_cons]
    cases hname : folder.readName name with
    | ok parts =>
      obtain ⟨haccepted, hrejected⟩ := divide_ok hname rest
      rw [checkName_eq_ok.mpr hname, haccepted, hrejected]
      rfl
    | error fault =>
      obtain ⟨haccepted, hrejected⟩ := divide_error hname rest
      have hskip : folder.policy = .skip := by
        cases hpolicy : folder.policy with
        | skip => rfl
        | fail => exact absurd hname (tolerates_iff.mp h hpolicy name List.mem_cons_self fault)
      rw [checkName, hname, hskip, haccepted, hrejected]
      rfl

/-- Otherwise one of the names that break the rules is named. -/
theorem classify_of_rejected (h : ¬ folder.Tolerates names) :
    ∃ name ∈ names, ∃ fault, folder.readName name = .error fault ∧
      folder.classify names = .error (.malformed name fault) := by
  obtain ⟨hpolicy, hrejected⟩ := Classical.not_imp.mp h
  clear h
  -- the first name that breaks the rules ends the division
  induction names with
  | nil => exact absurd rfl hrejected
  | cons name rest ih =>
    rw [classify]
    cases hname : folder.readName name with
    | ok parts =>
      rw [(divide_ok hname rest).2] at hrejected
      obtain ⟨found, hfound, fault, hfault, hrest⟩ := ih hrejected
      refine ⟨found, List.mem_cons_of_mem _ hfound, fault, hfault, ?_⟩
      rw [checkName_eq_ok.mpr hname, hrest]
      rfl
    | error fault =>
      refine ⟨name, List.mem_cons_self, fault, hname, ?_⟩
      rw [checkName, hname, hpolicy]

/-! ## Listings -/

/-- What comes of a listing that the folder can do with. -/
theorem catalogOf_of_tolerated (h : folder.Tolerates (candidates listing)) :
    folder.catalogOf listing = Catalog.ofEntries (folder.accepted (candidates listing))
      ((folder.rejected (candidates listing)).mergeSort (fun a b => decide (a ≤ b)))
      folder.scope := by
  rw [catalogOf, classify_of_tolerated h]
  rfl

/-- A listing that the folder cannot do with is refused for one of its names. -/
theorem catalogOf_of_rejected (h : ¬ folder.Tolerates (candidates listing)) :
    ∃ name ∈ candidates listing, ∃ fault, folder.readName name = .error fault ∧
      folder.catalogOf listing = .error (.malformed name fault) := by
  obtain ⟨name, hmem, fault, hfault, hclassify⟩ := classify_of_rejected h
  refine ⟨name, hmem, fault, hfault, ?_⟩
  rw [catalogOf, hclassify]
  rfl

/-- A directory that can be listed is there, and its catalog is that of the listing. -/
theorem scan_of_list {home : Home} (h : home.list folder.dir = .ok listing) :
    folder.scan home = folder.catalogOf listing := by
  have hfolder : home.isFolder folder.dir = true := by
    rw [Home.isFolder_iff]
    rw [Home.list] at h
    split at h
    · cases h
    · rename_i place hplace
      split at h
      · rename_i hnode
        exact ⟨place, hplace, hnode⟩
      · cases h
      · cases h
  rw [scan, hfolder, h]
  rfl

/-- A fault of a name has nothing to do with other names. -/
theorem readName_ne_duplicate {name taker : String} {id : ChangeId} :
    folder.readName name ≠ .error (.duplicate id taker) := by
  have hread : ScriptName.read name ≠ .error (.duplicate id taker) := by
    unfold ScriptName.read
    split
    · simp
    · split
      · simp
      · dsimp only
        split <;> simp
  unfold readName
  split
  · split
    · exact hread
    · simp
  · exact hread

/-! ## Every order of the listing -/

theorem names_trans (a b c : String) (hab : decide (a ≤ b) = true) (hbc : decide (b ≤ c) = true) :
    decide (a ≤ c) = true :=
  decide_eq_true (String.le_trans (of_decide_eq_true hab) (of_decide_eq_true hbc))

theorem names_total (a b : String) : (decide (a ≤ b) || decide (b ≤ a)) = true := by
  simpa using String.le_total a b

section Order

variable (hperm : other.Perm listing)

include hperm

theorem candidates_perm : (candidates other).Perm (candidates listing) := hperm.filterMap _

theorem tolerates_perm :
    folder.Tolerates (candidates other) ↔ folder.Tolerates (candidates listing) := by
  rw [tolerates_iff, tolerates_iff]
  simp only [(candidates_perm hperm).mem_iff]

/-- A listing that the folder can do with has one catalog, or one reason not to have one, in
whatever order it comes. -/
theorem catalogOf_perm (hdistinct : (listing.filterMap Home.Entry.name?).Nodup)
    (htolerated : folder.Tolerates (candidates listing)) :
    folder.catalogOf other = folder.catalogOf listing := by
  have hnames := candidates_perm hperm
  have hfilenames :
      ((folder.accepted (candidates listing)).map ScriptEntry.filename).Nodup := by
    have hnodup := hdistinct.sublist (candidates_sublist listing)
    exact ((folder.accepted_rejected_perm _).nodup_iff.mpr hnodup).of_append_left
  -- the names that are left out have one order, too
  have hskipped : (folder.rejected (candidates other)).mergeSort (fun a b => decide (a ≤ b)) =
      (folder.rejected (candidates listing)).mergeSort (fun a b => decide (a ≤ b)) :=
    eq_mergeSort_of_perm names_trans names_total
      (List.pairwise_mergeSort names_trans names_total _)
      ((List.mergeSort_perm _ _).trans (hnames.filter _)) fun a _ b _ hab hba =>
        String.le_antisymm (of_decide_eq_true hab) (of_decide_eq_true hba)
  rw [catalogOf_of_tolerated htolerated,
    catalogOf_of_tolerated ((tolerates_perm hperm).mpr htolerated), hskipped]
  exact Catalog.ofEntries_perm (hnames.filterMap _) hfilenames

end Order

/-! ## What comes of a listing -/

/-- The numbered files of the listing are divided into the entries of the catalog and the names that
are left out. -/
structure Divides (folder : ScriptFolder) (listing : List Home.Entry) (catalog : Catalog) :
    Prop where
  /-- Every numbered file is an entry or is left out, and nothing else is. -/
  names : ∀ name, name ∈ catalog.entries.map ScriptEntry.filename ∨ name ∈ catalog.skipped ↔
    Numbered listing name
  /-- It is one of the two, and that once. -/
  once : (catalog.entries.map ScriptEntry.filename ++ catalog.skipped).Nodup
  /-- An entry has the id and the description of its name, which passes the filter. -/
  entry : ∀ entry ∈ catalog.entries,
    folder.readName entry.filename = .ok (entry.id, entry.description) ∧
      ScriptName.read entry.filename = .ok (entry.id, entry.description) ∧
        entry.source = .file (folder.dir.join entry.filename)
  /-- What is left out breaks the rules. -/
  skipped : ∀ name ∈ catalog.skipped, ∃ fault, folder.readName name = .error fault
  ascending : catalog.ids.Pairwise (fun a b => a < b)
  sorted : catalog.skipped.Pairwise (fun a b => a ≤ b)
  strict : folder.policy = .fail → catalog.skipped = []
  scope : catalog.scope = folder.scope

/-- What can be wrong with a listing. -/
inductive Refused (folder : ScriptFolder) (listing : List Home.Entry) : Failure → Prop where
  /-- A name breaks the rules, and none may. -/
  | rejected {name : String} {fault : ScriptFault} (hpolicy : folder.policy = .fail)
      (hname : Numbered listing name) (hfault : folder.readName name = .error fault) :
      Refused folder listing (.malformed name fault)
  /-- Two names that follow the rules have one id. -/
  | doubled {name taker description other : String} {id : ChangeId}
      (hname : Numbered listing name) (htaker : Numbered listing taker) (hne : name ≠ taker)
      (hread : folder.readName name = .ok (id, description))
      (hother : folder.readName taker = .ok (id, other)) :
      Refused folder listing (.malformed name (.duplicate id taker))

/-- Whatever is wrong with a listing, it has no catalog. -/
theorem exists_error_of_refused {failure : Failure} (h : folder.Refused listing failure) :
    ∃ failure, folder.catalogOf listing = .error failure := by
  by_cases htolerated : folder.Tolerates (candidates listing)
  · cases h with
    | rejected hpolicy hname hfault =>
      exact absurd hfault (tolerates_iff.mp htolerated hpolicy _ (mem_candidates.mpr hname) _)
    | @doubled name taker description other id hname htaker hne hread hother =>
      rw [catalogOf_of_tolerated htolerated]
      cases hentries : Catalog.ofEntries (folder.accepted (candidates listing))
          ((folder.rejected (candidates listing)).mergeSort (fun a b => decide (a ≤ b)))
          folder.scope with
      | error failure => exact ⟨failure, rfl⟩
      | ok catalog =>
        -- the entries of a catalog are known by their ids
        have hids := Catalog.exists_ofEntries_iff.mp ⟨catalog, hentries⟩
        have hsame := List.inj_on_of_nodup_map hids
          (mem_accepted.mpr ⟨mem_candidates.mpr hname, hread, rfl⟩ :
            folder.entryOf name id description ∈ folder.accepted (candidates listing))
          (mem_accepted.mpr ⟨mem_candidates.mpr htaker, hother, rfl⟩ :
            folder.entryOf taker id other ∈ folder.accepted (candidates listing)) rfl
        exact absurd (congrArg ScriptEntry.filename hsame) hne
  · obtain ⟨name, -, fault, -, herror⟩ := catalogOf_of_rejected htolerated
    exact ⟨_, herror⟩

section Results

variable (hdistinct : (listing.filterMap Home.Entry.name?).Nodup)

include hdistinct

/-- No two names that are looked at are the same, so no two entries have one name. -/
theorem nodup_divided : ((folder.accepted (candidates listing)).map ScriptEntry.filename ++
    folder.rejected (candidates listing)).Nodup :=
  (folder.accepted_rejected_perm _).nodup_iff.mpr (hdistinct.sublist (candidates_sublist listing))

theorem divides_of_catalogOf {catalog : Catalog} (h : folder.catalogOf listing = .ok catalog) :
    folder.Divides listing catalog := by
  have htolerated : folder.Tolerates (candidates listing) := by
    by_contra hnot
    obtain ⟨name, -, fault, -, herror⟩ := catalogOf_of_rejected hnot
    rw [h] at herror
    cases herror
  rw [catalogOf_of_tolerated htolerated] at h
  obtain ⟨hentries, hskipped, hscope⟩ := Catalog.ofEntries_eq_ok.mp h
  have hleft : catalog.skipped.Perm (folder.rejected (candidates listing)) :=
    hskipped ▸ List.mergeSort_perm _ _
  have hdivided := (hentries.map ScriptEntry.filename).append hleft
  refine ⟨fun name => ?_, hdivided.nodup_iff.mpr (nodup_divided hdistinct), fun entry hentry => ?_,
    fun name hname => (mem_rejected.mp (hleft.subset hname)).2,
    List.pairwise_map.mpr catalog.ascending, ?_, fun hpolicy => ?_, hscope⟩
  · rw [← List.mem_append, hdivided.mem_iff, (folder.accepted_rejected_perm _).mem_iff,
      mem_candidates]
  · obtain ⟨-, hname, hsource⟩ := mem_accepted.mp (hentries.subset hentry)
    exact ⟨hname, read_of_readName hname, hsource⟩
  · rw [hskipped]
    exact (List.pairwise_mergeSort names_trans names_total _).imp of_decide_eq_true
  · rw [hskipped, htolerated hpolicy, List.mergeSort_nil]

theorem refused_of_catalogOf {failure : Failure} (h : folder.catalogOf listing = .error failure) :
    folder.Refused listing failure := by
  by_cases htolerated : folder.Tolerates (candidates listing)
  · rw [catalogOf_of_tolerated htolerated, Catalog.ofEntries_eq_error] at h
    obtain ⟨first, second, hclash, rfl⟩ := h
    obtain ⟨hid, hpart⟩ := ScriptEntry.clash?_eq_some hclash
    have hsorted := List.mergeSort_perm (folder.accepted (candidates listing))
      ScriptEntry.precedes
    -- the two neighbours are different entries, and so they have different names
    have hnames : ([first, second].map ScriptEntry.filename).Nodup :=
      ((hsorted.map _).nodup_iff.mpr (nodup_divided hdistinct).of_append_left).sublist
        (hpart.map _)
    obtain ⟨hfirst, hread, -⟩ := mem_accepted.mp
      (hsorted.subset (hpart.subset List.mem_cons_self))
    obtain ⟨hsecond, hother, -⟩ := mem_accepted.mp
      (hsorted.subset (hpart.subset (List.mem_cons_of_mem _ List.mem_cons_self)))
    have hne : second.filename ≠ first.filename := fun heq => by simp [heq] at hnames
    exact .doubled (mem_candidates.mp hsecond) (mem_candidates.mp hfirst) hne hother (hid ▸ hread)
  · obtain ⟨name, hname, fault, hfault, herror⟩ := catalogOf_of_rejected htolerated
    rw [h] at herror
    cases herror
    exact .rejected (Classical.not_imp.mp htolerated).1 (mem_candidates.mp hname) hfault

end Results

/-- What comes of the listing of a directory, the names in which differ.  The catalog divides the
numbered files; there is none when names are refused; and the order of the listing changes nothing,
except which one of several names that break the rules is named. -/
theorem catalogOf_partition (folder : ScriptFolder) {listing : List Home.Entry}
    (hdistinct : (listing.filterMap Home.Entry.name?).Nodup) :
    (∀ home, home.list folder.dir = .ok listing →
      folder.scan home = folder.catalogOf listing) ∧
    (∀ catalog, folder.catalogOf listing = .ok catalog → folder.Divides listing catalog) ∧
    (∀ failure, folder.catalogOf listing = .error failure → folder.Refused listing failure) ∧
    ((∃ failure, folder.catalogOf listing = .error failure) ↔
      ∃ failure, folder.Refused listing failure) ∧
    ∀ other : List Home.Entry, other.Perm listing →
      (∀ catalog, folder.catalogOf other = .ok catalog ↔
        folder.catalogOf listing = .ok catalog) ∧
      (∀ name id taker,
        folder.catalogOf other = .error (.malformed name (.duplicate id taker)) ↔
          folder.catalogOf listing = .error (.malformed name (.duplicate id taker))) := by
  refine ⟨fun home => scan_of_list, fun catalog => divides_of_catalogOf hdistinct,
    fun failure => refused_of_catalogOf hdistinct, ⟨?_, ?_⟩, fun other hperm => ?_⟩
  · rintro ⟨failure, h⟩
    exact ⟨failure, refused_of_catalogOf hdistinct h⟩
  · rintro ⟨failure, h⟩
    exact exists_error_of_refused h
  · by_cases htolerated : folder.Tolerates (candidates listing)
    · rw [catalogOf_perm hperm hdistinct htolerated]
      exact ⟨fun _ => Iff.rfl, fun _ _ _ => Iff.rfl⟩
    · -- both are refused for a name that breaks the rules
      obtain ⟨name, -, fault, hfault, hlisting⟩ := catalogOf_of_rejected htolerated
      obtain ⟨name', -, fault', hfault', hother⟩ :=
        catalogOf_of_rejected (mt (tolerates_perm hperm).mp htolerated)
      rw [hlisting, hother]
      refine ⟨by simp, fun found id taker => ?_⟩
      constructor
      · rintro ⟨⟩
        exact absurd hfault' readName_ne_duplicate
      · rintro ⟨⟩
        exact absurd hfault readName_ne_duplicate

/-- A listing in which names of scripts stand among others: a reserved one, one that breaks the
rules, one that is not text, and those of a directory and of another kind of file. -/
private def mixed : List Home.Entry :=
  [⟨some "10_b.sql", true⟩, ⟨some "draft.sql", true⟩, ⟨some "bootstrap.sql", true⟩, ⟨none, true⟩,
    ⟨some "002_a__c.sql", true⟩, ⟨some "3_d.sql", false⟩, ⟨some "4_e.txt", true⟩]

private def lenient : ScriptFolder where
  dir := ⟨"scripts"⟩
  policy := .skip

private def mixedScripts : Catalog where
  entries := [⟨⟨2⟩, "a c", "002_a__c.sql", .file ⟨"scripts/002_a__c.sql"⟩⟩,
    ⟨⟨10⟩, "b", "10_b.sql", .file ⟨"scripts/10_b.sql"⟩⟩]
  skipped := ["draft.sql"]
  ascending := by decide

private theorem catalogOf_mixed : lenient.catalogOf mixed = .ok mixedScripts := by
  refine bind_eq_ok.mpr ⟨([⟨⟨10⟩, "b", "10_b.sql", .file ⟨"scripts/10_b.sql"⟩⟩,
    ⟨⟨2⟩, "a c", "002_a__c.sql", .file ⟨"scripts/002_a__c.sql"⟩⟩], ["draft.sql"]), by rfl, ?_⟩
  exact Catalog.ofEntries_eq_ok.mpr ⟨.swap _ _ _, (List.mergeSort_singleton _).symm, rfl⟩

/-- Listed from the end, the directory has the same catalog; with one more name for the id 10 it has
none. -/
theorem catalogOf_partition_mixed :
    (mixed.filterMap Home.Entry.name?).Nodup ∧ lenient.Divides mixed mixedScripts ∧
      lenient.catalogOf mixed.reverse = .ok mixedScripts ∧
      ∃ failure, lenient.catalogOf (⟨some "010_x.sql", true⟩ :: mixed) = .error failure := by
  have hdistinct : (mixed.filterMap Home.Entry.name?).Nodup := by decide
  have hmore : ((⟨some "010_x.sql", true⟩ :: mixed).filterMap Home.Entry.name?).Nodup := by decide
  obtain ⟨-, hdivides, -, -, horder⟩ := lenient.catalogOf_partition hdistinct
  obtain ⟨-, -, -, hrefused, -⟩ := lenient.catalogOf_partition hmore
  -- both names are of regular files and read as the id 10
  have hclash : lenient.Refused (⟨some "010_x.sql", true⟩ :: mixed)
      (.malformed "010_x.sql" (.duplicate ⟨10⟩ "10_b.sql")) :=
    @Refused.doubled _ _ _ _ "x" "b" _ ⟨by decide, ⟨"010_x", by decide⟩, by decide, by decide⟩
      ⟨by decide, ⟨"10_b", by decide⟩, by decide, by decide⟩ (by decide) (by rfl) (by rfl)
  exact ⟨hdistinct, hdivides _ catalogOf_mixed,
    ((horder _ (List.reverse_perm mixed)).1 _).mpr catalogOf_mixed, hrefused.mpr ⟨_, hclash⟩⟩

end ScriptFolder

end Migrations
