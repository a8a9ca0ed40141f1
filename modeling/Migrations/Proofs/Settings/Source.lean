import Migrations.Proofs.Procedure.Ending
import Migrations.Settings.Source

/-!
# The Sources of Settings

A setting has its value from one of three places: the variable that overrides it, the file of the
environment, or the defaults.  Every step of loading either gives one setting a value or leaves it
alone, so where a value comes from can be followed from the defaults through the entries of the file
and the overrides.

What users are told about sources is found out afterwards, from the variables and from whether there
was a file.  A setting that neither a variable nor the file gives a value is therefore said to be
from the file, as soon as there is one.

## Main statements

- `Settings.override_eq`, `Settings.setField?_field`: what a variable and what an entry does.
- `Settings.get_setFields`, `Settings.get_overridden`: what all entries and all variables do.
- `LoadedSettings.sources_tell_iff`: which of the sources that users are told are true.
-/

namespace Migrations

namespace Settings

open Yaml (Node Fault)

/-! ## Single settings -/

namespace Overridable

/-- The values that a setting can have. -/
def Value : Overridable → Type
  | databaseUrl | filenameFilter => Option String
  | changelogTable | delimiter => String
  | fullLineDelimiter | sendFullScript => Bool
  | transactionMode => TransactionMode
  | malformedScripts => MalformedPolicy
  | lockKey => Int64

def get : (which : Overridable) → Settings → which.Value
  | databaseUrl => Settings.databaseUrl
  | changelogTable => Settings.changelogTable
  | delimiter => Settings.delimiter
  | fullLineDelimiter => Settings.fullLineDelimiter
  | sendFullScript => Settings.sendFullScript
  | transactionMode => Settings.transactionMode
  | malformedScripts => Settings.malformedScripts
  | filenameFilter => Settings.filenameFilter
  | lockKey => Settings.lockKey

def put : (which : Overridable) → which.Value → Settings → Settings
  | databaseUrl, value, settings => { settings with databaseUrl := value }
  | changelogTable, value, settings => { settings with changelogTable := value }
  | delimiter, value, settings => { settings with delimiter := value }
  | fullLineDelimiter, value, settings => { settings with fullLineDelimiter := value }
  | sendFullScript, value, settings => { settings with sendFullScript := value }
  | transactionMode, value, settings => { settings with transactionMode := value }
  | malformedScripts, value, settings => { settings with malformedScripts := value }
  | filenameFilter, value, settings => { settings with filenameFilter := value }
  | lockKey, value, settings => { settings with lockKey := value }

/-- The value that the text of a variable stands for. -/
def parse : (which : Overridable) → String → Except SettingFault which.Value
  | databaseUrl, text => .ok (some text)
  | changelogTable, text => .ok text
  | delimiter, text => .ok text
  | fullLineDelimiter, text => truth fullLineDelimiter.variableName text
  | sendFullScript, text => truth sendFullScript.variableName text
  | transactionMode, text => TransactionMode.ofText text
  | malformedScripts, text => MalformedPolicy.ofText text
  | filenameFilter, text => .ok (some text)
  | lockKey, text =>
    match Text.int64? text.toList with
    | some key => .ok key
    | none => .error (.invalid lockKey.variableName text "a 64-bit signed integer")

/-- The value that a node of the file stands for. -/
def read : (which : Overridable) → Node → Except Fault which.Value
  | databaseUrl => readOptional
  | changelogTable => readText
  | delimiter => readText
  | fullLineDelimiter => readBool
  | sendFullScript => readBool
  | transactionMode => readChoice TransactionMode.ofName?
  | malformedScripts => readChoice MalformedPolicy.ofName?
  | filenameFilter => readOptional
  | lockKey => readKey

@[simp] theorem get_put (which : Overridable) (value : which.Value) (settings : Settings) :
    which.get (which.put value settings) = value := by
  cases which <;> rfl

theorem get_put_of_ne {which other : Overridable} (hne : other ≠ which) (value : which.Value)
    (settings : Settings) : other.get (which.put value settings) = other.get settings := by
  cases which <;> cases other <;> first | rfl | exact absurd rfl hne

end Overridable

variable {settings next : Settings}

/-- To override a setting is to put the value of the text in its place. -/
theorem override_eq (settings : Settings) (which : Overridable) (text : String) :
    settings.override which text =
      (which.parse text).map fun value => which.put value settings := by
  cases which with
  | lockKey =>
    cases hkey : Text.int64? text.toList <;>
      · simp only [override, Overridable.parse, hkey]
        rfl
  | _ => rfl

/-- An entry of the file puts the value of its node in the place of its field. -/
theorem setField?_field (settings : Settings) (which : Overridable) (node : Node) :
    settings.setField? which.field node =
      some ((which.read node).map fun value => which.put value settings) := by
  cases which <;> rfl

/-- An entry of another field leaves a setting alone. -/
theorem get_setField? {which : Overridable} {field : String} {node : Node}
    (hne : field ≠ which.field) (h : settings.setField? field node = some (.ok next)) :
    which.get next = which.get settings := by
  have hother : ∀ other : Overridable, other.field ≠ which.field →
      settings.setField? other.field node = some (.ok next) →
      which.get next = which.get settings := by
    intro other hfield hset
    rw [setField?_field] at hset
    obtain ⟨value, -, rfl⟩ := map_eq_ok.mp (Option.some.inj hset)
    exact Overridable.get_put_of_ne (fun heq => hfield (congrArg _ heq.symm)) value settings
  have hkept : ∀ {α : Type} {x : Except Fault α} {f : α → Settings},
      (∀ value, which.get (f value) = which.get settings) →
      some (x.map f) = some (.ok next) → which.get next = which.get settings := by
    intro α x f hf hset
    obtain ⟨value, -, rfl⟩ := map_eq_ok.mp (Option.some.inj hset)
    exact hf value
  -- the field belongs to one of the other settings, or to one that no variable overrides
  unfold setField? at h
  split at h
  · exact hother .databaseUrl hne h
  · exact hother .changelogTable hne h
  · exact hother .delimiter hne h
  · exact hother .fullLineDelimiter hne h
  · exact hother .sendFullScript hne h
  · exact hother .transactionMode hne h
  · exact hother .malformedScripts hne h
  · exact hother .filenameFilter hne h
  · exact hkept (fun value => by cases which <;> rfl) h
  · exact hkept (fun value => by cases which <;> rfl) h
  · exact hother .lockKey hne h
  · exact hkept (fun value => by cases which <;> rfl) h
  · exact hkept (fun value => by cases which <;> rfl) h
  · cases h

/-! ## The file -/

/-- The entries of the mapping that a settings file consists of; none when nothing is written. -/
def fileEntries (text : String) : Except SettingFault (List (Node × Node)) :=
  if Text.allBlank text.toList then .ok []
  else match Yaml.ofText text with
    | .error fault => .error (.document fault)
    | .ok none => .ok []
    | .ok (some node) => (entries node).mapError .document

/-- The node that entries give for a field, if there is one.  It may say that there is nothing. -/
def nodeFor? (given : List (Node × Node)) (field : String) : Option Node :=
  (given.find? fun entry => entry.1.text? == some field).map Prod.snd

/-- The node that the file gives for a setting. -/
def given? (home : Home) (file : Path) (which : Overridable) : Option Node :=
  ((home.readText file).toOption.bind fun text => (fileEntries text).toOption).bind
    (nodeFor? · which.field)

theorem ofText_eq_ok {text : String} :
    ofText text = .ok settings ↔
      ∃ given, fileEntries text = .ok given ∧ setFields [] given {} = .ok settings := by
  have hempty : (Except.ok {} : Except SettingFault Settings) = .ok settings ↔
      ∃ given, (Except.ok [] : Except SettingFault (List (Node × Node))) = .ok given ∧
        setFields [] given {} = .ok settings := by
    constructor
    · intro h
      exact ⟨[], rfl, congrArg _ (Except.ok.inj h)⟩
    · rintro ⟨_, ⟨⟩, h⟩
      exact congrArg _ (Except.ok.inj h)
  unfold ofText fileEntries
  split
  · exact hempty
  · cases Yaml.ofText text with
    | error fault => exact ⟨fun h => (nomatch h), fun ⟨_, h, _⟩ => nomatch h⟩
    | ok node? =>
      cases node? with
      | none => exact hempty
      | some node =>
        simp only [mapError_eq_ok, ← bind_eq_ok]
        show _ ↔ ofNode node = .ok settings
        cases ofNode node with
        | error fault => exact ⟨fun h => (nomatch h), fun h => nomatch h⟩
        | ok found => simp

variable {seen : List String} {key node : Node} {rest given : List (Node × Node)}

/-- An entry is passed over, or its field is set, and then for the first time. -/
theorem setFields_cons_eq_ok :
    setFields seen ((key, node) :: rest) settings = .ok next ↔
      ∃ field, key.text? = some field ∧
        ((settings.setField? field node = none ∧ setFields seen rest settings = .ok next) ∨
          ∃ set, settings.setField? field node = some (.ok set) ∧ field ∉ seen ∧
            setFields (field :: seen) rest set = .ok next) := by
  rw [setFields]
  cases key.text? with
  | none => exact ⟨fun h => (nomatch h), fun ⟨_, h, _⟩ => nomatch h⟩
  | some field =>
    simp only [Option.some.injEq, exists_eq_left']
    cases settings.setField? field node with
    | none => simp
    | some result =>
      cases result with
      | error fault => simp
      | ok set => by_cases hseen : field ∈ seen <;> simp [hseen]

/-- A field that is set already is not given again. -/
theorem nodeFor?_of_seen {which : Overridable} (hseen : which.field ∈ seen)
    (h : setFields seen given settings = .ok next) : nodeFor? given which.field = none := by
  induction given generalizing seen settings with
  | nil => rfl
  | cons entry rest ih =>
    obtain ⟨key, node⟩ := entry
    obtain ⟨field, hkey, hset⟩ := setFields_cons_eq_ok.mp h
    have hne : field ≠ which.field := by
      rintro rfl
      rcases hset with ⟨hnone, -⟩ | ⟨set, -, hnew, -⟩
      · rw [setField?_field] at hnone
        cases hnone
      · exact hnew hseen
    have hrest : nodeFor? rest which.field = none := by
      rcases hset with ⟨-, hrest⟩ | ⟨set, -, -, hrest⟩
      · exact ih hseen hrest
      · exact ih (List.mem_cons_of_mem _ hseen) hrest
    rw [nodeFor?, List.find?_cons_of_neg (by simp [hkey, hne])]
    exact hrest

/-- The entries of a file give a setting the value of its node, and leave it alone when there is
none. -/
theorem get_setFields (h : setFields seen given settings = .ok next) (which : Overridable) :
    match nodeFor? given which.field with
    | some node => which.read node = .ok (which.get next)
    | none => which.get next = which.get settings := by
  induction given generalizing seen settings with
  | nil =>
    cases h
    rfl
  | cons entry rest ih =>
    obtain ⟨key, node⟩ := entry
    obtain ⟨field, hkey, hset⟩ := setFields_cons_eq_ok.mp h
    by_cases hfield : field = which.field
    · subst hfield
      rw [nodeFor?, List.find?_cons_of_pos (by simp [hkey])]
      show which.read node = .ok (which.get next)
      rcases hset with ⟨hnone, -⟩ | ⟨set, hset, -, hrest⟩
      · rw [setField?_field] at hnone
        cases hnone
      · -- the entries after it do not set the field again
        have hkept := ih hrest
        rw [nodeFor?_of_seen List.mem_cons_self hrest] at hkept
        rw [setField?_field] at hset
        obtain ⟨value, hvalue, rfl⟩ := map_eq_ok.mp (Option.some.inj hset)
        rw [hvalue, hkept, Overridable.get_put]
    · have hnode : nodeFor? ((key, node) :: rest) which.field = nodeFor? rest which.field := by
        rw [nodeFor?, List.find?_cons_of_neg (by simp [hkey, hfield])]
        rfl
      rw [hnode]
      rcases hset with ⟨-, hrest⟩ | ⟨set, hset, -, hrest⟩
      · exact ih hrest
      · have hkept := ih hrest
        rwa [get_setField? hfield hset] at hkept

/-! ## The variables -/

theorem get_override {which : Overridable} {text : String}
    (h : settings.override which text = .ok next) :
    which.parse text = .ok (which.get next) ∧
      ∀ other, other ≠ which → other.get next = other.get settings := by
  rw [override_eq] at h
  obtain ⟨value, hvalue, rfl⟩ := map_eq_ok.mp h
  refine ⟨?_, fun other hne => Overridable.get_put_of_ne hne value settings⟩
  rw [hvalue, Overridable.get_put]

variable {process : Variables} {list : List Overridable}

theorem overrideEach_cons_eq_ok {which : Overridable} :
    overrideEach process (which :: list) settings = .ok next ↔
      ∃ set, overrideEach process list set = .ok next ∧
        match process.get? which.variableName with
        | none => set = settings
        | some text => settings.override which text = .ok set := by
  rw [overrideEach]
  cases process.get? which.variableName with
  | none => simp
  | some text =>
    dsimp only
    cases settings.override which text <;> simp

/-- The variables give a setting the value of the text of its variable, and leave it alone when
there is none. -/
theorem get_overrideEach (h : overrideEach process list settings = .ok next)
    (which : Overridable) :
    (∀ text, which ∈ list → process.get? which.variableName = some text →
      which.parse text = .ok (which.get next)) ∧
    (which ∉ list ∨ process.get? which.variableName = none →
      which.get next = which.get settings) := by
  induction list generalizing settings with
  | nil =>
    cases h
    exact ⟨fun _ hmem => (nomatch hmem), fun _ => rfl⟩
  | cons first rest ih =>
    obtain ⟨set, hrest, hfirst⟩ := overrideEach_cons_eq_ok.mp h
    obtain ⟨hgiven, hkept⟩ := ih hrest
    constructor
    · intro text hmem htext
      by_cases hlater : which ∈ rest
      · exact hgiven text hlater htext
      · -- the variable is read here, and the ones after it are those of other settings
        obtain rfl := (List.mem_cons.mp hmem).resolve_right hlater
        rw [htext] at hfirst
        rw [hkept (.inl hlater)]
        exact (get_override hfirst).1
    · intro hleft
      have hrestLeft : which ∉ rest ∨ process.get? which.variableName = none :=
        hleft.imp_left fun hnot hmem => hnot (List.mem_cons_of_mem _ hmem)
      rw [hkept hrestLeft]
      cases htext : process.get? first.variableName with
      | none =>
        rw [htext] at hfirst
        exact congrArg _ hfirst
      | some text =>
        rw [htext] at hfirst
        refine (get_override hfirst).2 which ?_
        rintro rfl
        rcases hleft with hnot | hnone
        · exact hnot List.mem_cons_self
        · rw [htext] at hnone
          cases hnone

/-- The variables of a process give each setting the value of its own variable. -/
theorem get_overridden (h : settings.overridden process = .ok next) (which : Overridable) :
    match process.get? which.variableName with
    | some text => which.parse text = .ok (which.get next)
    | none => which.get next = which.get settings := by
  obtain ⟨hgiven, hkept⟩ := get_overrideEach h which
  cases htext : process.get? which.variableName with
  | some text => exact hgiven text (by cases which <;> decide) htext
  | none => exact hkept (.inr htext)

end Settings

/-! ## Loading -/

namespace LoadedSettings

open Settings (Overridable given?)

variable {home : Home} {process : Variables} {layout : Layout} {environment : Environment}
  {loaded : LoadedSettings}

/-- What is loaded, before anything is overridden, is what the file gives, if there is one. -/
theorem get_ofFile {path : Path} (h : ofFile home path = .ok loaded) (which : Overridable) :
    loaded.file? = some path ∧
      match given? home path which with
      | some node => which.read node = .ok (which.get loaded.settings)
      | none => which.get loaded.settings = which.get {} := by
  unfold ofFile at h
  split at h
  · cases h
  · rename_i text htext
    obtain ⟨settings, hsettings, rfl⟩ := map_eq_ok.mp h
    obtain ⟨given, hgiven, hset⟩ := Settings.ofText_eq_ok.mp hsettings
    refine ⟨rfl, ?_⟩
    have hnode : given? home path which = Settings.nodeFor? given which.field := by
      rw [given?, htext]
      exact congrArg (Option.bind · _) (congrArg Except.toOption hgiven)
    rw [hnode]
    exact Settings.get_setFields hset which

/-- A file that is not there gives nothing. -/
theorem given?_of_hasPath {path : Path} (h : home.hasPath path = false) (which : Overridable) :
    given? home path which = none := by
  have hread : (home.readText path).toOption = none := by
    unfold Home.hasPath Home.find? at h
    unfold Home.readText Home.read
    cases hfind : home.find path with
    | error fault => rfl
    | ok node =>
      rw [hfind] at h
      cases h
  rw [given?, hread]
  rfl

/-- Loaded settings are those of the file, or the defaults without one, with the overrides of the
process. -/
theorem load_eq_ok (h : load home process layout environment = .ok loaded) :
    ∃ base : LoadedSettings,
      (if home.hasPath (layout.environmentFile environment) then
        ofFile home (layout.environmentFile environment) = .ok base else base = ⟨{}, none⟩) ∧
      base.settings.overridden process = .ok loaded.settings ∧ loaded.file? = base.file? := by
  have hrest : ∀ base : LoadedSettings,
      (do
        let settings ← base.settings.overridden process
        settings.checkFor environment
        return (⟨settings, base.file?⟩ : LoadedSettings)) = .ok loaded →
      base.settings.overridden process = .ok loaded.settings ∧ loaded.file? = base.file? := by
    intro base h
    obtain ⟨settings, hsettings, h⟩ := bind_eq_ok.mp h
    obtain ⟨-, -, h⟩ := bind_eq_ok.mp h
    cases h
    exact ⟨hsettings, rfl⟩
  unfold load at h
  dsimp only at h
  split at h
  · obtain ⟨base, hbase, h⟩ := bind_eq_ok.mp h
    exact ⟨base, by rwa [if_pos ‹_›], hrest base h⟩
  · exact ⟨⟨{}, none⟩, by rw [if_neg ‹_›], hrest _ h⟩

/-! ## True sources -/

/-- Where a setting has its value from when it is loaded for a file.  A variable that is set comes
before what the file gives, and that before the default. -/
inductive ComesFrom (home : Home) (process : Variables) (file : Path) (which : Overridable) :
    SettingSource → which.Value → Prop where
  | process {text : String} {value : which.Value}
    (hset : process.get? which.variableName = some text) (hvalue : which.parse text = .ok value) :
    ComesFrom home process file which (.process which.variableName) value
  | file {node : Yaml.Node} {value : which.Value}
    (hunset : process.get? which.variableName = none)
    (hgiven : given? home file which = some node) (hvalue : which.read node = .ok value) :
    ComesFrom home process file which (.file file) value
  | default (hunset : process.get? which.variableName = none)
    (hnone : given? home file which = none) :
    ComesFrom home process file which (.default which.defaultText) (which.get {})

/-- A setting has one source at most. -/
theorem ComesFrom.source_unique {file : Path} {which : Overridable} {source other : SettingSource}
    {value otherValue : which.Value} (h : ComesFrom home process file which source value)
    (hother : ComesFrom home process file which other otherValue) : source = other := by
  cases h <;> cases hother <;> first | rfl | simp_all

/-- Every setting that is loaded has a source: its variable, or else the file, or else the
defaults. -/
theorem comesFrom_load (h : load home process layout environment = .ok loaded)
    (which : Overridable) :
    let file := layout.environmentFile environment
    ∃ source, ComesFrom home process file which source (which.get loaded.settings) := by
  intro file
  obtain ⟨base, hbase, hoverridden, -⟩ := load_eq_ok h
  have hvalue := Settings.get_overridden hoverridden which
  cases hvariable : process.get? which.variableName with
  | some text =>
    rw [hvariable] at hvalue
    exact ⟨_, .process hvariable hvalue⟩
  | none =>
    rw [hvariable] at hvalue
    dsimp only at hvalue
    rw [hvalue]
    split at hbase
    · have hgives := (get_ofFile hbase which).2
      cases hgiven : given? home file which with
      | some node =>
        rw [hgiven] at hgives
        exact ⟨_, .file hvariable hgiven hgives⟩
      | none =>
        rw [hgiven] at hgives
        dsimp only at hgives
        rw [hgives]
        exact ⟨_, .default hvariable hgiven⟩
    · rename_i habsent
      rw [hbase]
      exact ⟨_, .default hvariable (given?_of_hasPath (Bool.eq_false_iff.mpr habsent) which)⟩

/-- What is told depends on the variable and on whether there is a file, not on what the file
gives. -/
theorem source_load (h : load home process layout environment = .ok loaded)
    (which : Overridable) :
    let file := layout.environmentFile environment
    loaded.source process which =
      if (process.get? which.variableName).isSome then .process which.variableName
      else if home.hasPath file then .file file else .default which.defaultText := by
  dsimp only
  obtain ⟨base, hbase, -, hfile⟩ := load_eq_ok h
  unfold source
  rw [hfile]
  split
  · rfl
  · split at hbase
    · rw [if_pos ‹_›, (get_ofFile hbase which).1]
    · rw [if_neg ‹_›, hbase]

/-- The sources that users are told.  They are told one of every setting, whatever environment was
loaded, and each of these settings has its value from its variable, from the file or from the
defaults.  It is said to be from its variable exactly when that is set.  What is said is true when
the variable is set, when there is no file, and when the file gives the setting; else the setting
has its default and is said to be from the file. -/
theorem sources_tell_iff (hload : load home process layout environment = .ok loaded) :
    let file := layout.environmentFile environment
    (∀ which : Overridable, which.field ∈ (loaded.sources process).map Prod.fst) ∧
    ∀ field told, (field, told) ∈ loaded.sources process →
      ∃ which : Overridable, which.field = field ∧
        let IsTrue := ComesFrom home process file which told (which.get loaded.settings)
        let IsSet := ∃ text, process.get? which.variableName = some text
        (∃ source, ComesFrom home process file which source (which.get loaded.settings)) ∧
        (told = .process which.variableName ↔ IsSet) ∧
        (IsTrue ↔
          IsSet ∨ home.hasPath file = false ∨ ∃ node, given? home file which = some node) ∧
        (¬ IsTrue → told = .file file ∧ which.get loaded.settings = which.get {}) := by
  intro file
  constructor
  · intro which
    rw [sources, List.map_map]
    exact List.mem_map_of_mem (by cases which <;> decide)
  intro field told hmem
  obtain ⟨which, -, hentry⟩ := List.mem_map.mp hmem
  obtain ⟨rfl, rfl⟩ := Prod.mk.inj hentry
  obtain ⟨origin, horigin⟩ := comesFrom_load hload which
  rw [source_load hload which]
  refine ⟨which, rfl, ⟨origin, horigin⟩, ?_⟩
  generalize which.get loaded.settings = value at horigin ⊢
  cases horigin with
  | @process text value hset hvalue =>
    rw [hset, if_pos Option.isSome_some]
    have htrue : ComesFrom home process file which (.process which.variableName) value :=
      .process hset hvalue
    exact ⟨⟨fun _ => ⟨text, rfl⟩, fun _ => rfl⟩,
      ⟨fun _ => .inl ⟨text, rfl⟩, fun _ => htrue⟩, fun hnot => absurd htrue hnot⟩
  | @file node value hunset hgiven hvalue =>
    have hthere : home.hasPath file = true := by
      cases habsent : home.hasPath file with
      | true => rfl
      | false => exact absurd (given?_of_hasPath habsent which) (by simp [file, hgiven])
    have htrue := ComesFrom.file hunset hgiven hvalue
    rw [hunset, if_neg (by simp), if_pos hthere]
    exact ⟨by simp, ⟨fun _ => .inr (.inr ⟨node, hgiven⟩), fun _ => htrue⟩,
      fun hnot => absurd htrue hnot⟩
  | default hunset hnone =>
    have htrue := ComesFrom.default hunset hnone
    rw [hunset, if_neg (by simp)]
    cases hthere : home.hasPath file with
    | false => exact ⟨by simp, ⟨fun _ => .inr (.inl rfl), fun _ => htrue⟩,
        fun hnot => absurd htrue hnot⟩
    | true =>
      -- the file is told, although it gives nothing
      rw [if_pos rfl]
      refine ⟨by simp, ⟨fun htold => ?_, ?_⟩, fun _ => ⟨rfl, rfl⟩⟩
      · cases htold.source_unique htrue
      · rintro (⟨_, h⟩ | h | ⟨_, h⟩)
        · cases h
        · cases h
        · cases hnone.symm.trans h

/-- A file that gives only the name of the ledger table. -/
private def sparse : Home :=
  ⟨[(["db"], .folder), (["db", "environments"], .folder),
    (["db", "environments", "development.yaml"], .file "changelog_table: log\n".toUTF8 false)]⟩

private def sparseFile : Path := ⟨"db/environments/development.yaml"⟩

/-- With a variable for the delimiter, the file is told as the source of the table that it gives,
and that is true. -/
theorem sources_tell_iff_overridden :
    let process := Variables.ofList [("SHIFT_DELIMITER", "GO")]
    let loaded : LoadedSettings :=
      ⟨{ changelogTable := "log", delimiter := "GO" }, some sparseFile⟩
    load sparse process (.below ⟨"db"⟩) .development = .ok loaded ∧
      ("changelog_table", .file sparseFile) ∈ loaded.sources process ∧
      ComesFrom sparse process sparseFile .changelogTable (.file sparseFile)
        (Overridable.changelogTable.get loaded.settings) := by
  intro process loaded
  have hload : load sparse process (.below ⟨"db"⟩) .development = .ok loaded :=
    eq_ok_of_toOption (by decide +kernel)
  have hmem : ("changelog_table", .file sparseFile) ∈ loaded.sources process := by decide +kernel
  refine ⟨hload, hmem, ?_⟩
  obtain ⟨which, hfield, -, -, htold, -⟩ :=
    (sources_tell_iff hload).2 "changelog_table" (.file sparseFile) hmem
  obtain rfl : which = .changelogTable := by
    cases which <;> first | rfl | exact absurd hfield (by decide)
  exact htold.mpr (.inr (.inr (Option.isSome_iff_exists.mp (by decide +kernel))))

/-- The file is told as the source of the delimiter as well, which no variable and no entry
gives. -/
theorem sources_tell_default_as_file :
    let loaded : LoadedSettings := ⟨{ changelogTable := "log" }, some sparseFile⟩
    load sparse {} (.below ⟨"db"⟩) .development = .ok loaded ∧
      ("delimiter", .file sparseFile) ∈ loaded.sources {} ∧
      ComesFrom sparse {} sparseFile .delimiter (.default ";")
        (Overridable.delimiter.get loaded.settings) ∧
      ¬ ComesFrom sparse {} sparseFile .delimiter (.file sparseFile)
        (Overridable.delimiter.get loaded.settings) := by
  intro loaded
  have htrue : ComesFrom sparse {} sparseFile .delimiter (.default ";")
      (Overridable.delimiter.get loaded.settings) :=
    .default rfl (Option.isNone_iff_eq_none.mp (by decide +kernel))
  refine ⟨eq_ok_of_toOption (by decide +kernel), by decide +kernel, htrue, fun htold => ?_⟩
  cases htold.source_unique htrue

end LoadedSettings

end Migrations
