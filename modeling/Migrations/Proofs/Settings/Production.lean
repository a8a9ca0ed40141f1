import Migrations.Database.Kind
import Migrations.Proofs.Settings.Check
import Migrations.Proofs.Settings.Environment
import Migrations.Proofs.Text.Occurrence

/-!
# Productive Environments

The scheme of a database URL is looked at three times: when settings are checked, when they are
checked for a productive environment, and when the kind of the database is found.  The last one pays
no attention to the case of letters and the first two do, and still they agree: settings that pass
their checks lead to a database, and in production to one that keeps its data.

## Main statements

- `Settings.checkUrl_eq_ok`: a URL passes when it starts with a known scheme.
- `DatabaseKind.ofUrl_of_scheme`: such a URL leads to the kind that its scheme names.
- `Settings.database_of_check`: the database of checked settings.
-/

namespace Migrations

open Text

/-! ## URLs -/

/-- A URL leads to the kind of its scheme, which ends where the first separator is. -/
theorem DatabaseKind.ofUrl_of_scheme {scheme url : String} (hscheme : ':' ∉ scheme.toList)
    (h : (scheme ++ "://").toList <+: url.toList) :
    DatabaseKind.ofUrl url = DatabaseKind.ofScheme scheme := by
  obtain ⟨rest, hrest⟩ := h
  have hbreak : breakOn "://".toList url.toList = some (scheme.toList, rest) := by
    rw [← hrest, String.toList_append]
    exact breakOn_append hscheme rest
  rw [ofUrl, hbreak]
  dsimp only
  rw [String.ofList_toList]

namespace Settings

theorem checkUrl_eq_ok {field value : String} :
    checkUrl field value = .ok () ↔
      ∃ scheme ∈ schemes, (scheme ++ "://").toList <+: value.toList := by
  unfold checkUrl
  constructor
  · intro h
    split at h
    · cases h
    · split at h
      · rename_i hany
        obtain ⟨scheme, hmem, hscheme⟩ := List.any_eq_true.mp hany
        exact ⟨scheme, hmem, List.isPrefixOf_iff_prefix.mp hscheme⟩
      · cases h
  · rintro ⟨scheme, hmem, hscheme⟩
    -- a URL that starts with a scheme is not empty
    have hsome : ¬ value.isEmpty = true := by
      intro hempty
      rw [String.isEmpty_iff.mp hempty, String.toList_append] at hscheme
      exact absurd (List.prefix_nil.mp hscheme) (by simp)
    rw [if_neg hsome,
      if_pos (List.any_eq_true.mpr ⟨scheme, hmem, List.isPrefixOf_iff_prefix.mpr hscheme⟩)]

/-- A URL that passes leads to a server, unless it leads to the memory. -/
theorem ofUrl_of_checkUrl {field url : String} (h : checkUrl field url = .ok ()) :
    DatabaseKind.ofUrl url = .ok .postgres ∨
      "memory://".toList <+: url.toList ∧ DatabaseKind.ofUrl url = .ok .memory := by
  obtain ⟨scheme, hmem, hscheme⟩ := checkUrl_eq_ok.mp h
  -- no known scheme has a colon, and each of them is written in small letters
  have hcolon : ∀ known ∈ schemes, ':' ∉ known.toList := by decide
  rw [DatabaseKind.ofUrl_of_scheme (hcolon scheme hmem) hscheme]
  simp only [schemes, List.mem_cons, List.not_mem_nil, or_false] at hmem
  rcases hmem with rfl | rfl | rfl
  · exact .inl (by decide +kernel)
  · exact .inl (by decide +kernel)
  · exact .inr ⟨hscheme, by decide +kernel⟩

/-! ## Production -/

theorem checkFor_eq_ok {settings : Settings} {environment : Environment} :
    settings.checkFor environment = .ok () ↔
      settings.check = .ok () ∧ (environment.isProduction = true →
        ∃ url, settings.databaseUrl = some url ∧ ¬ "memory://".toList <+: url.toList) := by
  unfold checkFor
  rw [bind_eq_ok]
  refine ⟨fun ⟨_, hcheck, h⟩ => ⟨hcheck, fun hproduction => ?_⟩, fun ⟨hcheck, h⟩ =>
    ⟨(), hcheck, ?_⟩⟩
  · rw [if_pos hproduction] at h
    cases hurl : settings.databaseUrl with
    | none =>
      rw [hurl] at h
      cases h
    | some url =>
      rw [hurl] at h
      dsimp only at h
      split at h
      · cases h
      · rename_i hmemory
        exact ⟨url, rfl, fun hscheme => hmemory (List.isPrefixOf_iff_prefix.mpr hscheme)⟩
  · split
    · rename_i hproduction
      obtain ⟨url, hurl, hmemory⟩ := h hproduction
      rw [hurl]
      dsimp only
      rw [if_neg fun hscheme => hmemory (List.isPrefixOf_iff_prefix.mp hscheme)]
    · rfl

/-- The database of checked settings.  Settings that pass the checks of an environment whose name is
production or prod, in whatever case, have a URL that leads to a server.  Where settings pass the
checks of all environments, their URL leads to some database if they have one. -/
theorem database_of_check {text : String} {environment : Environment}
    (hname : Environment.ofText text = .ok environment) (settings : Settings) :
    (environment.isProduction = true ↔ lower text = "production" ∨ lower text = "prod") ∧
    (text.toLower = "production" ∨ text.toLower = "prod" → environment.isProduction = true) ∧
    (environment.isProduction = true → settings.checkFor environment = .ok () →
      ∃ url, settings.databaseUrl = some url ∧ DatabaseKind.ofUrl url = .ok .postgres) ∧
    (settings.check = .ok () → ∀ url, settings.databaseUrl = some url →
      ∃ kind, DatabaseKind.ofUrl url = .ok kind) := by
  have hurl : settings.check = .ok () → ∀ url, settings.databaseUrl = some url →
      checkUrl "database_url" url = .ok () := by
    intro hcheck url hurl
    have hoptional := (check_eq_ok.mp hcheck).1
    rwa [hurl] at hoptional
  have hproductive := Environment.isProduction_iff hname
  refine ⟨hproductive, fun hletters => ?_, fun hproduction hchecked => ?_,
    fun hcheck url hset => ?_⟩
  · exact hproductive.mpr (hletters.imp (fun h => lower_eq_of_toLower h rfl)
      fun h => lower_eq_of_toLower h rfl)
  · obtain ⟨hcheck, hserver⟩ := checkFor_eq_ok.mp hchecked
    obtain ⟨url, hset, hmemory⟩ := hserver hproduction
    refine ⟨url, hset, ?_⟩
    -- the one kind that is left beside the memory is the server
    exact (ofUrl_of_checkUrl (hurl hcheck url hset)).resolve_right fun h => hmemory h.1
  · rcases ofUrl_of_checkUrl (hurl hcheck url hset) with h | h
    · exact ⟨.postgres, h⟩
    · exact ⟨.memory, h.2⟩

/-- The settings of a productive environment in capitals, with the longer name of the scheme. -/
theorem database_of_check_capitals :
    let settings : Settings := { databaseUrl := some "postgresql://app@db:5432/app" }
    Environment.ofText "PROD" = .ok .production ∧ settings.checkFor .production = .ok () ∧
      settings.check = .ok () ∧
      (∃ url, settings.databaseUrl = some url ∧ DatabaseKind.ofUrl url = .ok .postgres) ∧
      ∃ kind, DatabaseKind.ofUrl "postgresql://app@db:5432/app" = .ok kind := by
  intro settings
  have hname : Environment.ofText "PROD" = .ok .production := eq_ok_of_toOption (by decide +kernel)
  have hchecked : settings.checkFor .production = .ok () := eq_ok_of_toOption (by decide +kernel)
  have hcheck := (checkFor_eq_ok.mp hchecked).1
  obtain ⟨-, hcapitals, hserver, hany⟩ := database_of_check hname settings
  exact ⟨hname, hchecked, hcheck, hserver (hcapitals (.inr (by decide +kernel))) hchecked,
    hany hcheck _ rfl⟩

end Settings

end Migrations
