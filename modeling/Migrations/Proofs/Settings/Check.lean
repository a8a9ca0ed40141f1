import Mathlib.Data.String.Basic
import Migrations.Proofs.Procedure.Ending
import Migrations.Settings.Check

/-!
# Checked Settings

What is known of settings that pass their checks.

## Main statements

- `Settings.check_eq_ok`: settings pass when each of their values does.
- `Settings.checkLength_eq_ok`: the length of a text is checked in bytes, from both sides.
- `Settings.check_setHook_eq_ok`: each hook is checked by itself.
- `Settings.length_delimiter`: the delimiter of checked settings has 1 to 16 characters.
-/

namespace Migrations

namespace Text

/-- A character takes at least one byte. -/
theorem length_le_utf8ByteSize (s : String) : s.toList.length ≤ s.utf8ByteSize := by
  rw [← String.utf8Len_toList]
  induction s.toList with
  | nil => exact Nat.le_refl _
  | cons c cs ih =>
    have hbyte := c.utf8Size_pos
    rw [String.utf8Len_cons, List.length_cons]
    omega

end Text

namespace HookSettings

/-- A hook is set in place of the one at its slot. -/
theorem get?_set (hooks : HookSettings) (slot other : HookSlot) (setting : String) :
    (hooks.set slot setting).get? other =
      if other = slot then some setting else hooks.get? other := by
  unfold get? set
  by_cases heq : other = slot
  · subst heq
    rw [if_pos rfl, List.find?_cons_of_pos (by simp)]
    rfl
  · rw [if_neg heq, List.find?_cons_of_neg (by simpa using Ne.symm heq), List.find?_filter]
    -- an entry of the other slot is none of those that were taken out
    have hsame : (fun entry : HookSlot × String =>
        decide (decide (entry.1 ≠ slot) = true ∧ (entry.1 == other) = true)) =
        fun entry => entry.1 == other := by
      funext entry
      by_cases hother : entry.1 = other
      · simp [hother, heq]
      · simp [hother]
    rw [hsame]

theorem mem_configured {hooks : HookSettings} {slot : HookSlot} {setting : String} :
    (slot, setting) ∈ hooks.configured ↔ hooks.get? slot = some setting := by
  have hall : slot ∈ HookSlot.all := by
    cases slot with
    | beforeNew => decide
    | afterNew => decide
    | _ direction => cases direction <;> decide
  unfold configured
  rw [List.mem_filterMap]
  constructor
  · rintro ⟨other, -, h⟩
    obtain ⟨found, hfound, heq⟩ := Option.map_eq_some_iff.mp h
    cases heq
    exact hfound
  · intro h
    exact ⟨slot, hall, by rw [h]; rfl⟩

end HookSettings

namespace Settings

variable {settings : Settings}

theorem check_eq_ok :
    settings.check = .ok () ↔
      optional (checkUrl "database_url") settings.databaseUrl = .ok () ∧
      checkIdentifier "changelog_table" settings.changelogTable = .ok () ∧
      checkLength 1 (some 16) "delimiter" settings.delimiter = .ok () ∧
      optional (checkPattern "filename_filter") settings.filenameFilter = .ok () ∧
      optional (checkIdPattern "id_pattern") settings.idPattern = .ok () ∧
      checkHooks settings.hooks.configured = .ok () := by
  -- a check gives no value, so one after the other means both
  have hunit : ∀ {x : Except SettingFault Unit} {f : Unit → Except SettingFault Unit},
      x >>= f = .ok () ↔ x = .ok () ∧ f () = .ok () := fun {x f} =>
    bind_eq_ok.trans ⟨fun ⟨_, hx, hf⟩ => ⟨hx, hf⟩, fun ⟨hx, hf⟩ => ⟨(), hx, hf⟩⟩
  unfold check
  rw [hunit, hunit, hunit, hunit, hunit]

theorem checkLength_eq_ok {least : Nat} {most : Option Nat} {field value : String} :
    checkLength least most field value = .ok () ↔
      least ≤ value.utf8ByteSize ∧ ∀ bound ∈ most, value.utf8ByteSize ≤ bound := by
  unfold checkLength
  dsimp only
  split
  · rename_i hshort
    exact ⟨fun h => (nomatch h), fun h => absurd h.1 (Nat.not_le.mpr hshort)⟩
  · rename_i hlong
    have hleast := Nat.not_lt.mp hlong
    cases most with
    | none => exact ⟨fun _ => ⟨hleast, fun _ h => nomatch h⟩, fun _ => rfl⟩
    | some bound =>
      simp only [Option.mem_some_iff, forall_eq']
      split
      · rename_i hover
        exact ⟨fun h => (nomatch h), fun h => absurd h.2 (Nat.not_le.mpr hover)⟩
      · rename_i hwithin
        exact ⟨fun _ => ⟨hleast, Nat.not_lt.mp hwithin⟩, fun _ => rfl⟩

/-! ## Hooks -/

theorem checkHook_eq_ok {slot : HookSlot} {setting : String} :
    checkHook slot setting = .ok () ↔ 2 ≤ (Text.runs (· == ':') setting.toList).length := by
  unfold checkHook
  split
  · rename_i hshort
    exact ⟨fun h => (nomatch h), fun h => absurd hshort (Nat.not_lt.mpr h)⟩
  · rename_i hlong
    exact ⟨fun _ => Nat.not_lt.mp hlong, fun _ => rfl⟩

theorem checkHooks_eq_ok {entries : List (HookSlot × String)} :
    checkHooks entries = .ok () ↔ ∀ entry ∈ entries, checkHook entry.1 entry.2 = .ok () := by
  induction entries with
  | nil => exact ⟨fun _ _ h => (nomatch h), fun _ => rfl⟩
  | cons entry rest ih =>
    rw [checkHooks, bind_eq_ok, List.forall_mem_cons, ← ih]
    exact ⟨fun ⟨_, hfirst, hrest⟩ => ⟨hfirst, hrest⟩, fun ⟨hfirst, hrest⟩ => ⟨(), hfirst, hrest⟩⟩

/-- Settings that pass still do with one more hook exactly when that hook passes. -/
theorem check_setHook_eq_ok (hvalid : settings.check = .ok ()) (slot : HookSlot)
    (setting : String) :
    Settings.check { settings with hooks := settings.hooks.set slot setting } = .ok () ↔
      checkHook slot setting = .ok () := by
  obtain ⟨hurl, htable, hdelimiter, hfilter, hpattern, hhooks⟩ := check_eq_ok.mp hvalid
  rw [check_eq_ok]
  constructor
  · rintro ⟨-, -, -, -, -, hset⟩
    refine checkHooks_eq_ok.mp hset (slot, setting) (HookSettings.mem_configured.mpr ?_)
    rw [HookSettings.get?_set, if_pos rfl]
  · intro hhook
    refine ⟨hurl, htable, hdelimiter, hfilter, hpattern, checkHooks_eq_ok.mpr ?_⟩
    rintro ⟨other, found⟩ hmem
    have hget := HookSettings.mem_configured.mp hmem
    rw [HookSettings.get?_set] at hget
    -- the hook at the slot is the new one, and every other hook was there before
    split at hget
    · rename_i heq
      cases heq
      cases hget
      exact hhook
    · exact checkHooks_eq_ok.mp hhooks (other, found) (HookSettings.mem_configured.mpr hget)

/-! ## Delimiters -/

/-- The delimiter of checked settings is not empty, and no longer than its bytes may be. -/
theorem length_delimiter (hvalid : settings.check = .ok ()) :
    settings.delimiter.toList ≠ [] ∧ settings.delimiter.toList.length ≤ 16 := by
  obtain ⟨hleast, hmost⟩ := checkLength_eq_ok.mp (check_eq_ok.mp hvalid).2.2.1
  constructor
  · intro hnil
    rw [String.toList_eq_nil_iff.mp hnil] at hleast
    exact absurd hleast (by decide)
  · exact (Text.length_le_utf8ByteSize _).trans (hmost 16 rfl)

end Settings

end Migrations
