import Migrations.Hook.Setting
import Migrations.Proofs.Settings.Check
import Migrations.Proofs.Text.LetterCase
import Migrations.Proofs.Text.Line

/-!
# The Form of Hook Settings

A hook setting starts with a kind and a file.  Whether it has that form is asked twice, when
settings are checked and when the hook is made, and not in the same way: the check counts the parts
of the setting that are not empty, wherever they stand, and the hook is made of the first two parts
without the blanks around them.  Every setting that a hook is made of passes the check, but not the
other way round.

## Main statements

- `Hook.ofSetting_eq_formFault_iff`: a hook is refused for its form when its setting has none.
- `Hook.Formed.two_le`: a setting with the form has two parts.
- `Hook.form_agrees_iff`: when both answers are the same.
-/

namespace Migrations

open Text

namespace Hook

/-! ## Settings with a kind and a file -/

/-- The setting has a kind and a file: its first two parts are not blank. -/
def Formed (setting : String) : Prop :=
  let parts := pieces (· == ':') setting.toList
  allBlank (parts.headD []) = false ∧ allBlank ((parts.drop 1).headD []) = false

instance (setting : String) : Decidable (Formed setting) := inferInstanceAs (Decidable (_ ∧ _))

/-- What is said of a setting without the form. -/
def formFault (name setting : String) : SettingFault :=
  .invalid s!"hooks.{name}" setting "'<kind>:<file>[:option...]'"

/-- A setting with the form has two parts that are not even empty. -/
theorem Formed.two_le {setting : String} (h : Formed setting) :
    2 ≤ (runs (· == ':') setting.toList).length := by
  obtain ⟨hkind, hfile⟩ := h
  unfold runs
  revert hkind hfile
  match pieces (· == ':') setting.toList with
  | [] => exact fun hkind => nomatch hkind
  | [_] => exact fun _ hfile => nomatch hfile
  | [] :: _ :: _ => exact fun hkind => nomatch hkind
  | (_ :: _) :: [] :: _ => exact fun _ hfile => nomatch hfile
  | (_ :: _) :: (_ :: _) :: _ =>
    intro _ _
    rw [List.filter_cons_of_pos rfl, List.filter_cons_of_pos rfl]
    exact Nat.le_add_left 2 _

/-! ## Making hooks -/

/-- Whether the kind or the file is empty when the blanks around them are gone. -/
theorem not_formed_iff {setting : String} :
    ¬ Formed setting ↔
      let parts := pieces (· == ':') setting.toList
      ((lower (String.ofList (trim (parts.headD [])))).isEmpty ||
        (trim ((parts.drop 1).headD [])).isEmpty) = true := by
  unfold Formed
  dsimp only
  rw [Bool.or_eq_true, String.isEmpty_iff, lower_eq_empty, String.ofList_eq_empty_iff,
    List.isEmpty_iff, trim_eq_nil, trim_eq_nil, not_and_or, Bool.not_eq_false, Bool.not_eq_false]

/-- What is wrong with an option is said of the options, and not of the form. -/
theorem ofParts_eq_error {invalid : String → SettingFault} {options : HookOptions}
    {parts : List (List Char)} {fault : SettingFault}
    (h : HookOptions.ofParts invalid options parts = .error fault) :
    ∃ expected, fault = invalid expected ∧ expected ≠ "'<kind>:<file>[:option...]'" := by
  induction parts generalizing options with
  | nil => cases h
  | cons part rest ih =>
    rw [HookOptions.ofParts] at h
    split at h
    · exact ih h
    · split at h
      · cases h
        exact ⟨_, rfl, by decide⟩
      · dsimp only at h
        split at h
        · cases h
          exact ⟨_, rfl, by decide⟩
        · exact ih h

variable {home : Home} {layout : Layout} {rules : StatementRules} {name setting : String}

/-- What is wrong with a hook whose file is there has nothing to do with the form. -/
theorem ofKind_ne_formFault {kind : String} {path : Path} {options : HookOptions}
    (other otherSetting : String) :
    ofKind rules name setting kind path options ≠ .error (formFault other otherSetting) := by
  intro h
  have htext : ∀ {field value expected : String},
      (.error (.invalid field value expected) : Except SettingFault Hook) =
        .error (formFault other otherSetting) → expected = "'<kind>:<file>[:option...]'" := by
    intro field value expected heq
    exact (SettingFault.invalid.inj (Except.error.inj heq)).2.2
  unfold ofKind at h
  dsimp only at h
  split at h
  · split at h
    · exact absurd (htext h) (by decide)
    · split at h
      · exact absurd (htext h) (by decide)
      · cases h
  · split at h
    · cases h
    · exact absurd (htext h) (by decide)

/-- A hook with the form is not refused for it. -/
theorem ofSetting_ne_formFault (h : Formed setting) (other otherSetting : String) :
    ofSetting home layout rules name setting ≠ .error (formFault other otherSetting) := by
  intro hrefused
  unfold ofSetting at hrefused
  dsimp only at hrefused
  rw [if_neg fun hempty => not_formed_iff.mpr hempty h] at hrefused
  cases hoptions : HookOptions.ofParts (SettingFault.invalid s!"hooks.{name}" setting) {}
      ((pieces (· == ':') setting.toList).drop 2) with
  | error fault =>
    rw [hoptions] at hrefused
    have hfault : fault = formFault other otherSetting := Except.error.inj hrefused
    obtain ⟨expected, hsaid, hne⟩ := ofParts_eq_error hoptions
    rw [hsaid] at hfault
    exact hne (SettingFault.invalid.inj hfault).2.2
  | ok options =>
    rw [hoptions] at hrefused
    replace hrefused : (if !home.isFolder layout.hooks then _ else _ : Except SettingFault Hook) =
      .error (formFault other otherSetting) := hrefused
    split at hrefused
    · cases hrefused
    · replace hrefused : (if !home.isFile _ then _ else _ : Except SettingFault Hook) =
        .error (formFault other otherSetting) := hrefused
      split at hrefused
      · cases hrefused
      · exact ofKind_ne_formFault other otherSetting hrefused

/-- A hook is refused for its form exactly when its setting lacks a kind or a file. -/
theorem ofSetting_eq_formFault_iff :
    ofSetting home layout rules name setting = .error (formFault name setting) ↔
      ¬ Formed setting := by
  refine ⟨fun hrefused h => ofSetting_ne_formFault h name setting hrefused, fun h => ?_⟩
  unfold ofSetting
  dsimp only
  rw [if_pos (not_formed_iff.mp h)]
  rfl

end Hook

namespace Hooks

/-- Hooks whose settings all have the form are not refused for it. -/
theorem addAll_ne_formFault {home : Home} {rules : StatementRules}
    {entries : List (HookSlot × String)} (h : ∀ entry ∈ entries, Hook.Formed entry.2)
    (hooks : Hooks) (name setting : String) :
    addAll home rules hooks entries ≠ .error (Hook.formFault name setting) := by
  induction entries generalizing hooks with
  | nil => exact fun hrefused => nomatch hrefused
  | cons entry rest ih =>
    obtain ⟨hform, hrest⟩ := List.forall_mem_cons.mp h
    intro hrefused
    rw [addAll] at hrefused
    cases hmade : Hook.ofSetting home hooks.layout rules entry.1.name entry.2 with
    | error fault =>
      rw [hmade] at hrefused
      have hfault : fault = Hook.formFault name setting := Except.error.inj hrefused
      exact Hook.ofSetting_ne_formFault hform name setting (hfault ▸ hmade)
    | ok hook =>
      rw [hmade] at hrefused
      exact ih hrest (hooks.register entry.1 hook) hrefused

end Hooks

/-! ## Both answers -/

namespace Hook

/-- The check and the making of a hook.  For every slot of settings that pass their checks, and for
every text that is set there: a hook that is not refused for its form passes the check; the two
agree exactly when the text has a kind and a file or fewer than two parts that are not empty; and
the hooks of settings that all have the form are never refused for it, wherever they are made. -/
theorem form_agrees_iff {settings : Settings} (hvalid : settings.check = .ok ()) (home : Home)
    (layout : Layout) (rules : StatementRules) (slot : HookSlot) (setting : String) :
    let Passes :=
      Settings.check { settings with hooks := settings.hooks.set slot setting } = .ok ()
    let Refused :=
      ofSetting home layout rules slot.name setting = .error (formFault slot.name setting)
    (¬ Refused → Passes) ∧
    ((Passes ↔ ¬ Refused) ↔
      Formed setting ∨ (runs (· == ':') setting.toList).length < 2) ∧
    ((∀ other otherSetting, settings.hooks.get? other = some otherSetting → Formed otherSetting) →
      ∀ name otherSetting,
        Hooks.ofSettings home layout settings ≠ .error (formFault name otherSetting)) := by
  intro Passes Refused
  have hpasses : Passes ↔ 2 ≤ (runs (· == ':') setting.toList).length :=
    (Settings.check_setHook_eq_ok hvalid slot setting).trans Settings.checkHook_eq_ok
  have hrefused : ¬ Refused ↔ Formed setting := by
    rw [show Refused ↔ ¬ Formed setting from ofSetting_eq_formFault_iff, not_not]
  refine ⟨fun h => hpasses.mpr (hrefused.mp h).two_le, ?_, fun hformed name otherSetting => ?_⟩
  · rw [hpasses, hrefused]
    constructor
    · intro hagree
      by_cases hform : Formed setting
      · exact .inl hform
      · exact .inr (Nat.not_le.mp fun htwo => hform (hagree.mp htwo))
    · rintro (hform | hfew)
      · exact ⟨fun _ => hform, fun _ => hform.two_le⟩
      · exact ⟨fun htwo => absurd htwo (Nat.not_le.mpr hfew), Formed.two_le⟩
  · refine Hooks.addAll_ne_formFault ?_ _ name otherSetting
    rintro ⟨other, found⟩ hmem
    exact hformed other found (HookSettings.mem_configured.mp hmem)

/-- Settings with one hook that has a kind and a file pass their check, another hook with both is
neither stopped by the check nor refused for its form, and the hooks of the settings are not refused
for it. -/
theorem form_agrees_iff_audited :
    let settings : Settings := { hooks := HookSettings.set {} (.before .up) "sql:audit.sql" }
    settings.check = .ok () ∧
      (Settings.check { settings with hooks := settings.hooks.set (.after .up) "cmd:check.sh" } =
          .ok () ↔
        ofSetting {} (.below ⟨"db"⟩) {} "after_up" "cmd:check.sh" ≠
          .error (formFault "after_up" "cmd:check.sh")) ∧
      Hooks.ofSettings {} (.below ⟨"db"⟩) settings ≠
        .error (formFault "before_up" "sql:audit.sql") := by
  intro settings
  have hvalid : settings.check = .ok () := eq_ok_of_toOption (by decide +kernel)
  obtain ⟨-, hagree, hall⟩ :=
    form_agrees_iff hvalid {} (.below ⟨"db"⟩) {} (.after .up) "cmd:check.sh"
  refine ⟨hvalid, hagree.mpr (.inl (by decide +kernel)), hall ?_ "before_up" "sql:audit.sql"⟩
  intro other found hfound
  rw [HookSettings.get?_set] at hfound
  split at hfound
  · cases hfound
    decide +kernel
  · cases hfound

/-- A setting with nothing before its first colon passes the check, and its hook is refused for
its form. -/
theorem form_disagrees :
    Settings.check { hooks := HookSettings.set {} (.before .up) ":sql:audit.sql" } = .ok () ∧
      ofSetting {} (.below ⟨"db"⟩) {} "before_up" ":sql:audit.sql" =
        .error (formFault "before_up" ":sql:audit.sql") :=
  ⟨eq_ok_of_toOption (by decide +kernel), ofSetting_eq_formFault_iff.mpr (by decide +kernel)⟩

end Hook

end Migrations
