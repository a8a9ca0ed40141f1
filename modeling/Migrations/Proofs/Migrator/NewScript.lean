import Migrations.Migrator.NewScript
import Migrations.Proofs.Script.Folder

/-!
# New Scripts Come Last

A new script is one more file in the folder of the scripts, under a name that is read back: the next
scan finds what the last one found and, behind it, the new script.  So scripts that are made one
after the other have ascending ids, however fast the calls follow on each other and whatever happens
between them outside of the folder.

## Main statements

- `Migrator.exists_id_of_nextIdText`: the id of a new script is beyond all others.
- `Migrator.created_newScript`: what a call that gives a path has done.
- `Migrator.added_series`: what successive calls have done.
- `Migrator.newScript_comes_last`: both of them, and what happens when there is no id left.
-/

namespace Migrations

open Attempt

/-! ## Hooks -/

/-- The hook leaves the folder at the path alone when it is called outside of a transaction. -/
def Hook.SparesFolder (hook : Hook) (path : Path) : Prop :=
  ∀ context world, Home.SameFolder path world.home
    ((hook.call context none).run.run world).2.home

/-- The hooks around the creation of a script leave the folder at the path alone. -/
def Hooks.SpareFolder (hooks : Hooks) (path : Path) : Prop :=
  ∀ slot ∈ [HookSlot.beforeNew, HookSlot.afterNew], ∀ hook, hooks.find? slot = some hook →
    hook.SparesFolder path

/-- A hook that only acts on the database leaves all files alone. -/
theorem Hook.sparesFolder_callback (name : String)
    (f : HookContext → Database → Except HookFault Unit × Database) (path : Path) :
    (Hook.callback name f).SparesFolder path := by
  intro context world
  have hends : Ends ((Hook.callback name f).call context none) world
      (fun _ after => after.home = world.home) (fun _ after => after.home = world.home) := by
    unfold Hook.callback
    rw [ends_bind, Access.database, ends_act]
    rcases f context world.database with ⟨_ | _, db⟩ <;> rfl
  rw [hends.always]
  exact Home.SameFolder.refl path world.home

theorem Hooks.ends_dispatch_spare {hooks : Hooks} {path : Path} (h : hooks.SpareFolder path)
    {slot : HookSlot} (hslot : slot ∈ [HookSlot.beforeNew, HookSlot.afterNew])
    (context : HookContext) (world : World) :
    Ends (hooks.dispatch slot context none) world
      (fun _ after => Home.SameFolder path world.home after.home) (fun _ _ => True) := by
  unfold Hooks.dispatch
  cases hfind : hooks.find? slot with
  | none => exact Home.SameFolder.refl path world.home
  | some hook =>
    dsimp only
    -- the event of the call leaves the world alone, so the hook starts from the same one
    rw [ends_bind, ends_lift, ends_adapt]
    refine (ends_run_self (hook.call context none) world).mono (fun _ after hrun => ?_)
      fun _ _ _ => trivial
    have hspares := h slot hslot hook hfind context world
    rwa [hrun] at hspares

namespace Migrator

variable {migrator : Migrator} {description filename : String} {world after : World} {path : Path}
  {catalog : Catalog}

/-! ## The next id -/

theorem lt_of_idAfter {id next : ChangeId} (h : idAfter id = .ok next) :
    id < next ∧ next ≤ ChangeId.greatest := by
  unfold idAfter at h
  split at h
  · rename_i found hfound
    cases h
    obtain ⟨hsucc, hle⟩ := ChangeId.next?_eq_some.mp hfound
    exact ⟨ChangeId.lt_def.mpr (hsucc ▸ Nat.lt_succ_self _), hle⟩
  · cases h

/-- The text of the id of a new script denotes an id beyond the latest one. -/
theorem exists_id_of_nextIdText {pattern : Option String} {latest : Option ChangeId}
    {now : Instant} {text : String} (h : nextIdText pattern latest now = .ok text) :
    ∃ id, ChangeId.ofText? text = some id ∧ ∀ last, latest = some last → last < id := by
  unfold nextIdText at h
  -- the text is padded when there is a pattern, and plain otherwise
  cases pattern with
  | some pattern =>
    cases latest with
    | none =>
      cases h
      exact ⟨_, ChangeId.ofText?_padded _ (by decide), fun _ hlast => nomatch hlast⟩
    | some last =>
      obtain ⟨next, hnext, h⟩ := bind_eq_ok.mp h
      cases h
      obtain ⟨hlt, hle⟩ := lt_of_idAfter hnext
      exact ⟨next, ChangeId.ofText?_padded _ hle, fun _ hlast => Option.some.inj hlast ▸ hlt⟩
  | none =>
    dsimp only at h
    cases hstamp : ChangeId.ofText? now.toStamp with
    | none =>
      rw [hstamp] at h
      cases h
    | some id =>
      have hid := (ChangeId.ofText?_eq_some.mp hstamp).2
      rw [hstamp] at h
      cases latest with
      | none =>
        cases h
        exact ⟨id, ChangeId.ofText?_toString hid, fun _ hlast => nomatch hlast⟩
      | some last =>
        dsimp only at h
        by_cases hle : id ≤ last
        · -- the time has passed already, so the latest id counts
          rw [if_pos hle] at h
          cases hnext : idAfter last with
          | error failure =>
            rw [hnext] at h
            cases h
          | ok next =>
            rw [hnext] at h
            cases h
            obtain ⟨hlt, hle⟩ := lt_of_idAfter hnext
            exact ⟨next, ChangeId.ofText?_toString hle,
              fun _ hlast => Option.some.inj hlast ▸ hlt⟩
        · rw [if_neg hle] at h
          cases h
          exact ⟨id, ChangeId.ofText?_toString hid,
            fun _ hlast => Option.some.inj hlast ▸ ChangeId.not_le.mp hle⟩

/-- There is no id after the greatest one. -/
theorem exists_error_of_nextIdText (pattern : Option String) (now : Instant) :
    ∃ failure, nextIdText pattern (some ChangeId.greatest) now = .error failure := by
  have hnone : idAfter ChangeId.greatest = .error (.argument (.noIdAfter ChangeId.greatest)) := rfl
  unfold nextIdText
  cases pattern with
  | some pattern =>
    dsimp only
    rw [hnone]
    exact ⟨_, rfl⟩
  | none =>
    dsimp only
    cases hstamp : ChangeId.ofText? now.toStamp with
    | none => exact ⟨_, rfl⟩
    | some id =>
      dsimp only
      -- no time is beyond the greatest id
      rw [if_pos (ChangeId.ofText?_eq_some.mp hstamp).2, hnone]
      exact ⟨_, rfl⟩

/-! ## One call -/

/-- What a call that gives a path has done.  The path leads directly into the folder, which has
gained just this file, and the scan finds what it found before and behind it the new script. -/
structure Created (migrator : Migrator) (description : String) (path : Path) (before after : Home)
    (catalog : Catalog) (entry : ScriptEntry) : Prop where
  path_eq : path = migrator.folder.dir.join entry.filename
  single : Path.Single entry.filename
  files : ∃ place bytes,
    Home.GainsFile migrator.folder.dir entry.filename before after place bytes
  scanned : migrator.folder.scan before = .ok catalog
  greater : ∀ other ∈ catalog.entries, other.id < entry.id
  rescanned : migrator.folder.scan after = .ok (catalog.extended entry greater)
  bounded : entry.id.toNat ≤ ChangeId.limit
  described : entry.description = ScriptName.title description
  source : entry.source = .file path

theorem slash_notMem_of_checkDescription (h : checkDescription description = .ok ()) :
    '/' ∉ description.toList := by
  unfold checkDescription at h
  split at h
  · cases h
  · split at h
    · cases h
    · rename_i hnone
      intro hslash
      exact hnone (List.any_eq_true.mpr ⟨'/', hslash, rfl⟩)

/-- The name of a new script leads directly into the folder. -/
theorem single_compose {text : String} {id : ChangeId} (hid : ChangeId.ofText? text = some id)
    (h : '/' ∉ description.toList) : Path.Single (ScriptName.compose text description) := by
  refine ⟨fun hslash => ?_, ScriptName.compose_ne hid (by decide),
    ScriptName.compose_ne hid (by decide), ScriptName.compose_ne hid (by decide)⟩
  -- of what a name is composed of, only the description could have a slash
  rcases ScriptName.mem_compose hid hslash with hslash | hslash | hslash | hslash
  · exact absurd hslash (by decide)
  · exact h hslash
  · exact absurd hslash (by decide)
  · exact absurd hslash (by decide)

/-- A file that is created in the folder under the name of a new script is a new script. -/
theorem created_of_create {text : String} {id : ChangeId} {parts : ChangeId × String}
    {before second third last : Home} {bytes : ByteArray}
    (hscan : migrator.folder.scan before = .ok catalog)
    (hid : ChangeId.ofText? text = some id)
    (hlatest : ∀ latest, catalog.ids.getLast? = some latest → latest < id)
    (hslash : '/' ∉ description.toList)
    (hname : migrator.folder.checkName (ScriptName.compose text description) = .ok parts)
    (hsecond : Home.SameFolder migrator.folder.dir before second)
    (hcreate : second.create (migrator.folder.dir.join (ScriptName.compose text description))
      bytes = .ok third)
    (hlast : Home.SameFolder migrator.folder.dir third last) :
    Created migrator description (migrator.folder.dir.join (ScriptName.compose text description))
      before last catalog (migrator.folder.entryOf (ScriptName.compose text description) id
        (ScriptName.title description)) := by
  -- the name passed the filter, so it was read, and reading gives back what it was composed of
  have hread := ScriptName.read_compose hid description
  obtain rfl := Except.ok.inj
    (hread.symm.trans (ScriptFolder.read_of_readName (ScriptFolder.checkName_eq_ok.mp hname)))
  have hsingle := single_compose hid hslash
  obtain ⟨place, hplace, hfolder⟩ := ScriptFolder.exists_place_of_scan hscan
  have hgains := Home.gainsFile_of_create hplace hfolder hsingle hsecond hcreate hlast
  exact {
    path_eq := rfl
    single := hsingle
    files := ⟨place, bytes, hgains⟩
    scanned := hscan
    greater := Catalog.lt_of_lt_getLast? hlatest
    rescanned := ScriptFolder.scan_of_gainsFile hgains hscan
      (ScriptName.isNumbered_compose hid description) hname _
    bounded := (ChangeId.ofText?_eq_some.mp hid).2
    described := rfl
    source := rfl }

/-- The description that a name is composed of is the trimmed one, which reads the same. -/
theorem Created.of_trim {before last : Home} {entry : ScriptEntry}
    (h : Created migrator (String.ofList (Text.trim description.toList)) path before last catalog
      entry) : Created migrator description path before last catalog entry :=
  { h with described := h.described.trans (ScriptName.title_trim description) }

theorem ends_callNewHook (hhooks : migrator.hooks.SpareFolder migrator.folder.dir)
    {slot : HookSlot} (hslot : slot ∈ [HookSlot.beforeNew, HookSlot.afterNew])
    (description filename : String) (world : World) :
    Ends (migrator.callNewHook slot description filename) world
      (fun _ after => Home.SameFolder migrator.folder.dir world.home after.home)
      (fun _ _ => True) := by
  unfold callNewHook
  rw [ends_bind]
  exact Hooks.ends_dispatch_spare hhooks hslot _ world

/-- What follows once the name of the new file is known. -/
def createNamed (migrator : Migrator) (description filename : String) : Attempt Failure Path := do
  migrator.callNewHook .beforeNew description filename
  let template ← Access.files migrator.template
  let scope := migrator.folder.scope.push (Variables.ofList [("description", description)])
  let path := migrator.layout.scripts.join filename
  Access.changeFiles fun home =>
    (home.create path (scope.fill template).toUTF8).mapError Failure.file
  migrator.callNewHook .afterNew description filename
  return path

/-- Where a call stops: at the description, the scripts that there are, the id or the name.  Past
all of them the clock was read once and nothing else has happened. -/
theorem ends_newScript {ok : Path → World → Prop} {error : Failure → World → Prop} :
    Ends (migrator.newScript description) world ok error ↔
      match checkDescription (String.ofList (Text.trim description.toList)) with
      | .error failure => error failure world
      | .ok _ => match migrator.folder.scan world.home with
        | .error failure => error failure world
        | .ok catalog => match nextIdText migrator.settings.idPattern catalog.ids.getLast?
            (world.clock world.readings) with
          | .error failure => error failure { world with readings := world.readings + 1 }
          | .ok text => match migrator.folder.checkName
              (ScriptName.compose text (String.ofList (Text.trim description.toList))) with
            | .error failure => error failure { world with readings := world.readings + 1 }
            | .ok _ => Ends (migrator.createNamed
                (String.ofList (Text.trim description.toList))
                (ScriptName.compose text (String.ofList (Text.trim description.toList))))
                { world with readings := world.readings + 1 } ok error := by
  -- the description and the name stay closed, so that no step of the proof computes them
  generalize htrimmed : String.ofList (Text.trim description.toList) = trimmed
  have hparts : migrator.newScript description = (do
      ExceptT.mk (return checkDescription trimmed)
      let catalog ← migrator.catalog
      let now ← Access.now
      let id ← ExceptT.mk (return nextIdText migrator.settings.idPattern catalog.ids.getLast? now)
      let _ ← ExceptT.mk (return migrator.folder.checkName (ScriptName.compose id trimmed))
      migrator.createNamed trimmed (ScriptName.compose id trimmed)) := htrimmed ▸ rfl
  rw [hparts, ends_bind, ends_mk_pure]
  cases checkDescription trimmed with
  | error failure => exact Iff.rfl
  | ok _ =>
    dsimp only
    rw [ends_bind, Migrator.catalog, Access.ends_files]
    cases migrator.folder.scan world.home with
    | error failure => exact Iff.rfl
    | ok catalog =>
      dsimp only
      rw [ends_bind, ends_lift, Access.run_now, ends_bind, ends_mk_pure]
      cases nextIdText migrator.settings.idPattern catalog.ids.getLast?
        (world.clock world.readings) with
      | error failure => exact Iff.rfl
      | ok text =>
        dsimp only
        generalize ScriptName.compose text trimmed = filename
        rw [ends_bind, ends_mk_pure]
        cases migrator.folder.checkName filename with
        | error failure => exact Iff.rfl
        | ok parts => exact Iff.rfl

/-- The file is created between two hook calls, which leave the folder alone. -/
theorem ends_createNamed (hdir : migrator.layout.scripts = migrator.folder.dir)
    (hhooks : migrator.hooks.SpareFolder migrator.folder.dir) (description filename : String)
    (world : World) :
    Ends (migrator.createNamed description filename) world
      (fun path last => path = migrator.folder.dir.join filename ∧ ∃ second third bytes,
        Home.SameFolder migrator.folder.dir world.home second ∧
        second.create path bytes = .ok third ∧
        Home.SameFolder migrator.folder.dir third last.home)
      (fun _ _ => True) := by
  unfold createNamed
  rw [hdir, ends_bind]
  refine (ends_callNewHook hhooks (by decide) _ _ _).mono (fun _ second hsecond => ?_)
    fun _ _ h => h
  rw [ends_bind, Access.ends_files]
  cases migrator.template second.home with
  | error failure => trivial
  | ok template =>
    dsimp only
    rw [ends_bind, Access.ends_changeFiles]
    cases hcreate : second.home.create (migrator.folder.dir.join filename)
      ((migrator.folder.scope.push (Variables.ofList [("description", description)])).fill
        template).toUTF8 with
    | error fault => trivial
    | ok third =>
      dsimp only [Except.mapError]
      rw [ends_bind]
      refine (ends_callNewHook hhooks (by decide) _ _ _).mono (fun _ last hlast => ?_)
        fun _ _ h => h
      exact ⟨rfl, second.home, third, _, hsecond, hcreate, hlast⟩

/-- A call that gives a path has created a script. -/
theorem ends_newScript_created (hdir : migrator.layout.scripts = migrator.folder.dir)
    (hhooks : migrator.hooks.SpareFolder migrator.folder.dir) (description : String)
    (world : World) :
    Ends (migrator.newScript description) world
      (fun path after => ∃ catalog entry,
        Created migrator description path world.home after.home catalog entry)
      (fun _ _ => True) := by
  rw [ends_newScript]
  -- where the call stops there is nothing to show
  split
  · trivial
  · rename_i hcheck
    split
    · trivial
    · rename_i catalog hscan
      split
      · trivial
      · rename_i text htext
        obtain ⟨id, hid, hlatest⟩ := exists_id_of_nextIdText htext
        generalize hfilename : ScriptName.compose text
          (String.ofList (Text.trim description.toList)) = filename
        split
        · trivial
        · rename_i parts hname
          refine (ends_createNamed hdir hhooks _ _ _).mono (fun path last hlast => ?_)
            fun _ _ h => h
          obtain ⟨rfl, second, third, bytes, hsecond, hcreate, hthird⟩ := hlast
          subst hfilename
          exact ⟨catalog, _, (created_of_create hscan hid hlatest
            (slash_notMem_of_checkDescription hcheck) hname hsecond hcreate hthird).of_trim⟩

theorem created_newScript (hdir : migrator.layout.scripts = migrator.folder.dir)
    (hhooks : migrator.hooks.SpareFolder migrator.folder.dir)
    (hrun : (migrator.newScript description).run.run world = (.ok path, after)) :
    ∃ catalog entry, Created migrator description path world.home after.home catalog entry :=
  (ends_newScript_created hdir hhooks description world).of_ok hrun

/-! ## Successive calls -/

/-- Calls that give paths, one after the other.  Between two of them anything may happen that leaves
the folder alone, and the clock may have moved on or not. -/
inductive Series (migrator : Migrator) : Home → List String → List Path → Home → Prop
  | done {before after : Home} (h : Home.SameFolder migrator.folder.dir before after) :
    Series migrator before [] [] after
  | call {before after : Home} {world next : World} {description : String} {path : Path}
    {descriptions : List String} {paths : List Path}
    (h : Home.SameFolder migrator.folder.dir before world.home)
    (hrun : (migrator.newScript description).run.run world = (.ok path, next))
    (hrest : Series migrator next.home descriptions paths after) :
    Series migrator before (description :: descriptions) (path :: paths) after

/-- What a series of calls has done: the scan finds the new scripts in the order of the calls behind
those that it found before. -/
structure Added (migrator : Migrator) (descriptions : List String) (paths : List Path)
    (before after : Home) (entries : List ScriptEntry) : Prop where
  sources : entries.map ScriptEntry.source = paths.map ScriptSource.file
  described : entries.map ScriptEntry.description = descriptions.map ScriptName.title
  ascending : (entries.map ScriptEntry.id).Pairwise (fun a b => a < b)
  rescanned : ∀ catalog, migrator.folder.scan before = .ok catalog → ∃ grown,
    migrator.folder.scan after = .ok grown ∧ grown.entries = catalog.entries ++ entries ∧
      grown.skipped = catalog.skipped

theorem added_series (hdir : migrator.layout.scripts = migrator.folder.dir)
    (hhooks : migrator.hooks.SpareFolder migrator.folder.dir) {before last : Home}
    {descriptions : List String} {paths : List Path}
    (h : migrator.Series before descriptions paths last) :
    ∃ entries, Added migrator descriptions paths before last entries := by
  -- each call finds what the calls before it have left, so the scripts line up behind each other
  induction h with
  | @done before after h =>
    refine ⟨[], rfl, rfl, .nil, fun catalog hscan => ⟨catalog, ?_, ?_, rfl⟩⟩
    · rw [ScriptFolder.scan_congr h, hscan]
    · rw [List.append_nil]
  | @call before after world next description path descriptions paths h hrun hrest ih =>
    obtain ⟨catalog, entry, hcreated⟩ := created_newScript hdir hhooks hrun
    obtain ⟨entries, hadded⟩ := ih
    obtain ⟨grown, hscan, hentries, hskipped⟩ := hadded.rescanned _ hcreated.rescanned
    have hall : grown.entries = catalog.entries ++ entry :: entries := by
      rw [hentries]
      exact List.append_assoc catalog.entries [entry] entries
    have hascending : (entry :: entries).Pairwise (fun a b => a.id < b.id) :=
      (List.pairwise_append.mp (hall ▸ grown.ascending)).2.1
    refine ⟨entry :: entries, ?_, ?_, List.pairwise_map.mpr hascending, fun found hfound => ?_⟩
    · rw [List.map_cons, List.map_cons, hcreated.source, hadded.sources]
    · rw [List.map_cons, List.map_cons, hcreated.described, hadded.described]
    · -- what was found before the series is what the first call found
      obtain rfl : found = catalog := Except.ok.inj
        (hfound.symm.trans ((ScriptFolder.scan_congr h).symm.trans hcreated.scanned))
      exact ⟨grown, hscan, hall, hskipped⟩

/-! ## The last id -/

/-- A call in a folder with the last possible id fails before it does anything but read. -/
theorem ends_newScript_full (hscan : migrator.folder.scan world.home = .ok catalog)
    (hfull : ChangeId.greatest ∈ catalog.ids) (description : String) :
    Ends (migrator.newScript description) world (fun _ _ => False)
      (fun _ after => after.home = world.home ∧ after.database = world.database) := by
  have hlast := Catalog.getLast?_ids hfull (ScriptFolder.le_greatest_of_scan hscan)
  obtain ⟨failure, htext⟩ :=
    exists_error_of_nextIdText migrator.settings.idPattern (world.clock world.readings)
  rw [ends_newScript, hscan]
  dsimp only
  rw [hlast, htext]
  split
  · exact ⟨rfl, rfl⟩
  · exact ⟨rfl, rfl⟩

/-- A migrator that was made from settings creates scripts where it looks for them. -/
theorem scripts_eq_of_make {home : Home} {layout : Layout} {settings : Settings}
    (h : Migrator.make home layout settings = .ok migrator) :
    migrator.layout.scripts = migrator.folder.dir := by
  obtain ⟨folder, hfolder, h⟩ := bind_eq_ok.mp h
  obtain ⟨filter, -, hfolder⟩ := bind_eq_ok.mp hfolder
  cases hfolder
  split at h
  · cases h
  · cases h
    rfl

/-- Where hooks leave the folder alone, a call that gives a path has created one new script, which
comes last; so calls that follow on each other create scripts with ascending ids.  When the last
possible id is taken, a call fails and nothing is written. -/
theorem newScript_comes_last (hdir : migrator.layout.scripts = migrator.folder.dir)
    (hhooks : migrator.hooks.SpareFolder migrator.folder.dir) :
    (∀ description world path after,
      (migrator.newScript description).run.run world = (.ok path, after) →
      ∃ catalog entry, Created migrator description path world.home after.home catalog entry) ∧
    (∀ before descriptions paths last, migrator.Series before descriptions paths last →
      ∃ entries, Added migrator descriptions paths before last entries) ∧
    ∀ description world catalog, migrator.folder.scan world.home = .ok catalog →
      ChangeId.greatest ∈ catalog.ids →
      ∃ failure after, (migrator.newScript description).run.run world = (.error failure, after) ∧
        after.home = world.home ∧ after.database = world.database := by
  refine ⟨?created, ?added, ?full⟩
  case created =>
    intro description world path after hrun
    exact created_newScript hdir hhooks hrun
  case added =>
    intro before descriptions paths last hseries
    exact added_series hdir hhooks hseries
  case full =>
    intro description world catalog hscan hfull
    exact (ends_newScript_full hscan hfull description).exists_error

/-- A migrator with a hook that notes in the database that a script was created. -/
private def noting : Migrator where
  layout := .below ⟨""⟩
  settings := {}
  folder := { dir := ⟨"scripts"⟩ }
  hooks := {
    layout := default
    find? := fun
      | .afterNew => some (.callback "note" fun _ db =>
          (.ok (), { db with log := db.log ++ ["created"] }))
      | _ => none }

private theorem spareFolder_noting : noting.hooks.SpareFolder noting.folder.dir := by
  intro slot _ hook hfind
  cases slot with
  | afterNew =>
    cases hfind
    exact Hook.sparesFolder_callback _ _ _
  | _ => cases hfind

/-- A world with an empty folder for scripts, in which the clock stands still. -/
private def unmoved : World := { home := ⟨[(["scripts"], .folder)]⟩ }

private theorem ends_createNamed_noting {description : String}
    (hcreate : ∀ bytes, world.home.create (noting.folder.dir.join filename) bytes =
      .ok (world.home.extended ["scripts", filename] (.file bytes false))) :
    Ends (noting.createNamed description filename) world
      (fun path after => path = noting.folder.dir.join filename ∧ after.clock = world.clock ∧
        ∃ bytes, after.home = world.home.extended ["scripts", filename] (.file bytes false))
      (fun _ _ => False) := by
  have hbefore : ∀ {ok : Unit → World → Prop} {error : Failure → World → Prop},
      Ends (noting.callNewHook .beforeNew description filename) world ok error ↔ ok () world :=
    Iff.rfl
  have hfile : ∀ bytes, (world.home.create (noting.layout.scripts.join filename) bytes).mapError
      Failure.file = .ok (world.home.extended ["scripts", filename] (.file bytes false)) :=
    fun bytes => congrArg (Except.mapError Failure.file) (hcreate bytes)
  unfold createNamed
  rw [ends_bind, hbefore, ends_bind, Access.ends_files]
  show Ends _ world _ _
  rw [ends_bind, Access.ends_changeFiles, hfile]
  exact ⟨rfl, rfl, _, rfl⟩

/-- A call in a folder where nothing is in its way. -/
private theorem exists_newScript_noting {description text : String} {parts : ChangeId × String}
    (hcheck : checkDescription (String.ofList (Text.trim description.toList)) = .ok ())
    (hscan : noting.folder.scan world.home = .ok catalog)
    (htext : nextIdText none catalog.ids.getLast? (world.clock world.readings) = .ok text)
    (hfilename : ScriptName.compose text (String.ofList (Text.trim description.toList)) = filename)
    (hname : noting.folder.checkName filename = .ok parts)
    (hcreate : ∀ bytes, world.home.create (noting.folder.dir.join filename) bytes =
      .ok (world.home.extended ["scripts", filename] (.file bytes false))) :
    ∃ bytes after, (noting.newScript description).run.run world =
        (.ok (noting.folder.dir.join filename), after) ∧ after.clock = world.clock ∧
      after.home = world.home.extended ["scripts", filename] (.file bytes false) := by
  have hends : Ends (noting.newScript description) world
      (fun path after => path = noting.folder.dir.join filename ∧ after.clock = world.clock ∧
        ∃ bytes, after.home = world.home.extended ["scripts", filename] (.file bytes false))
      (fun _ _ => False) := by
    rw [ends_newScript, hcheck, hscan]
    dsimp only
    rw [show noting.settings.idPattern = none from rfl, htext]
    dsimp only
    rw [hfilename, hname]
    exact ends_createNamed_noting hcreate
  obtain ⟨path, after, hrun, rfl, hclock, bytes, hhome⟩ := hends.exists_ok
  exact ⟨bytes, after, hrun, hclock, hhome⟩

/-- The first of two calls within one second. -/
private theorem first_unmoved : ∃ bytes after,
    (noting.newScript " add orders_table").run.run unmoved =
        (.ok ⟨"scripts/19700101000000_add_orders_table.sql"⟩, after) ∧
      after.clock = unmoved.clock ∧ after.home = unmoved.home.extended
        ["scripts", "19700101000000_add_orders_table.sql"] (.file bytes false) := by
  have hscan : noting.folder.scan unmoved.home = .ok {} :=
    ScriptFolder.scan_of_ascending (by rfl) (by rfl) (by rfl) .nil
  have hplace : unmoved.home.place (noting.folder.dir.join
      "19700101000000_add_orders_table.sql") =
      .ok ["scripts", "19700101000000_add_orders_table.sql"] :=
    eq_ok_of_toOption (by decide +kernel)
  refine @exists_newScript_noting "19700101000000_add_orders_table.sql" unmoved {}
    " add orders_table" "19700101000000" (⟨19700101000000⟩, "add orders table")
    (eq_ok_of_toOption (by decide +kernel)) hscan (eq_ok_of_toOption (by decide +kernel))
    (by decide +kernel) (eq_ok_of_toOption (by decide +kernel)) fun bytes => ?_
  exact (Home.create_eq_ok hplace).mpr ⟨rfl, Home.all_isName_iff.mpr (by decide +kernel), rfl, rfl⟩

private def unmovedEntries : List ScriptEntry :=
  [⟨⟨19700101000000⟩, "add orders table", "19700101000000_add_orders_table.sql",
    .file ⟨"scripts/19700101000000_add_orders_table.sql"⟩⟩]

/-- The second one finds the script of the first one. -/
private theorem second_unmoved {between : World} {bytes : ByteArray}
    (hclock : between.clock = unmoved.clock)
    (hhome : between.home = unmoved.home.extended
      ["scripts", "19700101000000_add_orders_table.sql"] (.file bytes false)) :
    ∃ bytes after, (noting.newScript "drop it").run.run between =
        (.ok ⟨"scripts/19700101000001_drop_it.sql"⟩, after) ∧
      after.clock = between.clock ∧ after.home = between.home.extended
        ["scripts", "19700101000001_drop_it.sql"] (.file bytes false) := by
  have hscan : noting.folder.scan between.home =
      .ok ⟨unmovedEntries, [], {}, List.pairwise_singleton _ _⟩ := by
    rw [hhome]
    exact ScriptFolder.scan_of_ascending (by rfl) (by rfl) (by rfl) _
  have hplace : between.home.place (noting.folder.dir.join "19700101000001_drop_it.sql") =
      .ok ["scripts", "19700101000001_drop_it.sql"] := by
    rw [hhome]
    rfl
  refine @exists_newScript_noting "19700101000001_drop_it.sql" between _
    "drop it" "19700101000001" (⟨19700101000001⟩, "drop it")
    (eq_ok_of_toOption (by decide +kernel)) hscan ?_
    (by decide +kernel) (eq_ok_of_toOption (by decide +kernel)) fun bytes => ?_
  · rw [hclock]
    have hnow : unmoved.clock between.readings = ⟨0, 0⟩ := rfl
    rw [hnow]
    exact eq_ok_of_toOption (by decide +kernel)
  · rw [Home.create_eq_ok hplace, hhome]
    exact ⟨rfl, Home.all_isName_iff.mpr (by decide +kernel), rfl, rfl⟩

/-- A world with the last script that there can be. -/
private def complete : Home :=
  ⟨[(["scripts"], .folder), (["scripts", "9223372036854775807_end.sql"], .file "".toUTF8 false)]⟩

private def completeEntries : List ScriptEntry :=
  [⟨.greatest, "end", "9223372036854775807_end.sql", .file ⟨"scripts/9223372036854775807_end.sql"⟩⟩]

private theorem scan_complete : noting.folder.scan complete =
    .ok ⟨completeEntries, [], {}, List.pairwise_singleton _ _⟩ :=
  ScriptFolder.scan_of_ascending (by rfl) (by rfl) (by rfl) _

/-- The second of two calls within one second comes after the first one, and in a folder with the
last possible script there is no other one. -/
theorem newScript_comes_last_unmoved :
    noting.layout.scripts = noting.folder.dir ∧ noting.hooks.SpareFolder noting.folder.dir ∧
    (∃ last entries, Added noting [" add orders_table", "drop it"]
      [⟨"scripts/19700101000000_add_orders_table.sql"⟩, ⟨"scripts/19700101000001_drop_it.sql"⟩]
      unmoved.home last entries) ∧
    ∃ failure after,
      (noting.newScript "more").run.run { home := complete } = (.error failure, after) ∧
        after.home = complete ∧ after.database = {} := by
  obtain ⟨bytes, between, hfirst, hclock, hhome⟩ := first_unmoved
  obtain ⟨-, last, hsecond, -, -⟩ := second_unmoved hclock hhome
  have hseries : noting.Series unmoved.home _ _ last.home :=
    .call (Home.SameFolder.refl _ _) hfirst
      (.call (Home.SameFolder.refl _ _) hsecond (.done (Home.SameFolder.refl _ _)))
  obtain ⟨-, hadded, hfull⟩ := newScript_comes_last (by rfl) spareFolder_noting
  obtain ⟨entries, hentries⟩ := hadded _ _ _ _ hseries
  exact ⟨rfl, spareFolder_noting, ⟨last.home, entries, hentries⟩,
    hfull "more" { home := complete } _ scan_complete List.mem_cons_self⟩

end Migrator

end Migrations
