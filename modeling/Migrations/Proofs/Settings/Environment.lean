import Mathlib.Tactic.SplitIfs
import Migrations.Proofs.Home.Folder
import Migrations.Proofs.Text.LetterCase
import Migrations.Settings.Layout

/-!
# Names of Environments

A text names an environment whatever the case of its letters, and what it is lowered to decides which
one.  So an environment has one name to be written with, no other name than its two leads to
production, and the name of an environment can always be the name of its settings file.

## Main statements

- `Environment.ofText_eq_ok`: which environment a text names, said by its lower case.
- `Environment.ofText_toString`: an environment is read from its own name.
- `Environment.isProduction_iff`: production is known by two names, in any case of their letters.
- `Environment.ofText_canonical`: what is known of every environment that a text names.
-/

namespace Migrations

open Text

namespace Environment

/-! ## Characters of names -/

/-- A small letter, a digit, a hyphen or an underscore. -/
def Plain (c : Char) : Prop :=
  ('a' ≤ c ∧ c ≤ 'z') ∨ ('0' ≤ c ∧ c ≤ '9') ∨ c = '-' ∨ c = '_'

theorem Plain.ascii {c : Char} (h : Plain c) : c.toNat < 128 ∧ c.isUpper = false := by
  rw [Bool.eq_false_iff, ne_eq, isUpper_iff]
  rcases h with ⟨hfirst, hlast⟩ | ⟨hfirst, hlast⟩ | rfl | rfl
  · have hlow : 97 ≤ c.toNat := hfirst
    have hhigh : c.toNat ≤ 122 := hlast
    omega
  · have hhigh : c.toNat ≤ 57 := hlast
    omega
  · decide
  · decide

theorem plain_iff {c : Char} : Plain c ↔ isNameChar c = true ∧ c.isUpper = false := by
  have hsmall : c.isUpper = false → (isNameChar c = true ↔ Plain c) := by
    intro h
    show (c.isUpper || c.isLower || c.isDigit || c == '-' || c == '_') = true ↔ Plain c
    simp only [h, Bool.false_or, Bool.or_eq_true, beq_iff_eq, isLower_iff, isDigit_iff, or_assoc,
      Plain]
  exact ⟨fun h => ⟨(hsmall h.ascii.2).mpr h, h.ascii.2⟩, fun h => (hsmall h.2).mp h.1⟩

theorem plain_of_all {cs : List Char}
    (h : cs.all (fun c => isNameChar c && !c.isUpper) = true) : ∀ c ∈ cs, Plain c := by
  intro c hc
  simpa [plain_iff] using List.all_eq_true.mp h c hc

/-! ## Names -/

/-- The name of an environment other than the known ones. -/
structure Canonical (name : String) : Prop where
  ne_empty : name ≠ ""
  plain : ∀ c ∈ name.toList, Plain c
  unknown : name ∉ ["development", "dev", "testing", "test", "production", "prod"]

/-- The names that lead to an environment. -/
def names : Environment → List String
  | development => ["development", "dev"]
  | testing => ["testing", "test"]
  | production => ["production", "prod"]
  | named name => [name]

/-- Whether an environment is one that can be named. -/
def Nameable : Environment → Prop
  | named name => Canonical name
  | _ => True

variable {text other : String} {environment : Environment}

theorem names_of_ofText (h : ofText text = .ok environment) :
    lower text ∈ environment.names ∧ environment.Nameable := by
  unfold ofText at h
  dsimp only at h
  split_ifs at h with hdevelopment htesting hproduction hvalid <;> cases h
  · exact ⟨by simpa [names], trivial⟩
  · exact ⟨by simpa [names], trivial⟩
  · exact ⟨by simpa [names], trivial⟩
  · refine ⟨List.mem_singleton_self _, hvalid.1, fun c hc => ?_, ?_⟩
    · -- a capital would have been lowered
      exact plain_iff.mpr ⟨List.all_eq_true.mp hvalid.2 c hc, isUpper_of_mem_lower hc⟩
    · simp only [not_or] at hdevelopment htesting hproduction
      simp [hdevelopment, htesting, hproduction]

theorem ofText_of_names (hname : lower text ∈ environment.names)
    (hnameable : environment.Nameable) : ofText text = .ok environment := by
  cases environment with
  | development =>
    exact if_pos (by simpa [names] using hname)
  | testing =>
    have htesting : lower text = "testing" ∨ lower text = "test" := by simpa [names] using hname
    rcases htesting with h | h <;> simp [ofText, h]
  | production =>
    have hproduction : lower text = "production" ∨ lower text = "prod" := by
      simpa [names] using hname
    rcases hproduction with h | h <;> simp [ofText, h]
  | named name =>
    obtain rfl : lower text = name := List.mem_singleton.mp hname
    obtain ⟨hsome, hplain, hunknown⟩ := hnameable
    simp only [List.mem_cons, List.not_mem_nil, or_false, not_or] at hunknown
    have hvalid : (lower text).toList.all isNameChar = true :=
      List.all_eq_true.mpr fun c hc => (plain_iff.mp (hplain c hc)).1
    simp [ofText, hunknown, hsome, hvalid]

/-- A text names an environment when it is one of its names in lower case. -/
theorem ofText_eq_ok :
    ofText text = .ok environment ↔ lower text ∈ environment.names ∧ environment.Nameable :=
  ⟨names_of_ofText, fun h => ofText_of_names h.1 h.2⟩

theorem toOption_ofText_of_lower (h : lower text = lower other) :
    (ofText text).toOption = (ofText other).toOption := by
  -- the failures are not the same: each of them quotes the text that it is about
  have hsame : ∀ environment, ofText text = .ok environment ↔ ofText other = .ok environment := by
    intro environment
    rw [ofText_eq_ok, ofText_eq_ok, h]
  cases hother : ofText other with
  | ok environment => rw [(hsame environment).mpr hother]
  | error fault =>
    cases htext : ofText text with
    | ok environment => cases hother.symm.trans ((hsame environment).mp htext)
    | error fault => rfl

/-- An environment is productive when its name is one of two in small letters. -/
theorem isProduction_iff (h : ofText text = .ok environment) :
    environment.isProduction = true ↔ lower text = "production" ∨ lower text = "prod" := by
  obtain ⟨hname, hnameable⟩ := ofText_eq_ok.mp h
  cases environment with
  | development =>
    simp only [names, List.mem_cons, List.not_mem_nil, or_false] at hname
    rcases hname with h | h <;> simp [isProduction, h]
  | testing =>
    simp only [names, List.mem_cons, List.not_mem_nil, or_false] at hname
    rcases hname with h | h <;> simp [isProduction, h]
  | production => simpa [isProduction, names] using hname
  | named name =>
    -- the two names of production are none of the names that are left
    obtain rfl : lower text = name := List.mem_singleton.mp hname
    have hunknown := hnameable.unknown
    simp only [List.mem_cons, List.not_mem_nil, or_false, not_or] at hunknown
    simp [isProduction, hunknown]

/-! ## Written names -/

theorem toString_mem_names (environment : Environment) :
    toString environment ∈ environment.names := by
  cases environment <;> exact List.mem_cons_self

theorem Nameable.plain (h : environment.Nameable) : ∀ c ∈ (toString environment).toList, Plain c := by
  cases environment with
  | development => exact plain_of_all (by decide)
  | testing => exact plain_of_all (by decide)
  | production => exact plain_of_all (by decide)
  | named name => exact Canonical.plain h

theorem ofText_toString (h : environment.Nameable) :
    ofText (toString environment) = .ok environment := by
  have hlower : lower (toString environment) = toString environment :=
    lower_eq_self fun c hc => (h.plain c hc).ascii
  exact ofText_eq_ok.mpr ⟨hlower.symm ▸ toString_mem_names environment, h⟩

/-- The file of an environment is named by one name. -/
theorem Nameable.single (h : environment.Nameable) : Path.Single environment.fileName := by
  have htext : environment.fileName.toList = (toString environment).toList ++ ".yaml".toList :=
    String.toList_append
  -- what a single name must not be is shorter than the ending of the file
  have hne : ∀ short : String, short.toList.length < 5 → environment.fileName ≠ short := by
    rintro _ hshort rfl
    rw [htext, List.length_append] at hshort
    exact absurd hshort (Nat.not_lt.mpr (Nat.le_add_left _ _))
  refine ⟨fun hslash => ?_, hne "" (by decide), hne "." (by decide), hne ".." (by decide)⟩
  rw [htext, List.mem_append] at hslash
  rcases hslash with hslash | hslash
  · exact absurd (plain_iff.mp (h.plain _ hslash)).1 (by decide)
  · exact absurd hslash (by decide)

/-- Environments are named in one way.  Texts that are the same in lower case name the same
environment or none.  An environment that is named by a text is named by what it is written as; when
it is not one of the known ones it is written in small letters, digits, hyphens and underscores, and
none of the names of the known ones is left for it.  Its settings file is a single name directly in
the directory of the environments. -/
theorem ofText_canonical :
    (∀ text other, lower text = lower other →
      (ofText text).toOption = (ofText other).toOption) ∧
    ∀ text environment, ofText text = .ok environment →
      ofText (toString environment) = .ok environment ∧
      (∀ name, environment = .named name → Canonical name) ∧
      (environment.isProduction = true ↔ lower text = "production" ∨ lower text = "prod") ∧
      ∀ layout : Layout,
        (layout.environmentFile environment).DirectlyIn layout.environments environment.fileName ∧
        ∀ (home : Home) place, home.place layout.environments = .ok place →
          home.node? place = some .folder →
          home.place (layout.environmentFile environment) =
            .ok (place ++ [environment.fileName]) := by
  refine ⟨fun _ _ => toOption_ofText_of_lower, fun text environment h => ?_⟩
  obtain ⟨-, hnameable⟩ := ofText_eq_ok.mp h
  refine ⟨ofText_toString hnameable, ?_, isProduction_iff h, fun layout =>
    ⟨Path.directlyIn_join layout.environments hnameable.single, fun home place hplace hfolder =>
      Home.place_join hplace hfolder hnameable.single⟩⟩
  rintro name rfl
  exact hnameable

/-- The first letter is the sign of a unit, which is no letter of ASCII but is lowered to one. -/
theorem ofText_canonical_sign :
    let text := "\u212AIT_Qa-2"
    let layout := Layout.below ⟨"db"⟩
    let home : Home := ⟨[(["db"], .folder), (["db", "environments"], .folder)]⟩
    lower text = lower "KIT_qA-2" ∧ (ofText "KIT_qA-2").toOption = some (.named "kit_qa-2") ∧
      ofText text = .ok (.named "kit_qa-2") ∧ ofText "kit_qa-2" = .ok (.named "kit_qa-2") ∧
      Canonical "kit_qa-2" ∧
      (layout.environmentFile (.named "kit_qa-2")).fileName = "kit_qa-2.yaml" ∧
      home.place layout.environments = .ok ["db", "environments"] ∧
      home.node? ["db", "environments"] = some .folder ∧
      home.place (layout.environmentFile (.named "kit_qa-2")) =
        .ok ["db", "environments", "kit_qa-2.yaml"] := by
  intro text layout home
  obtain ⟨hsame, hnamed⟩ := ofText_canonical
  have hlower : lower text = lower "KIT_qA-2" := by decide +kernel
  have htext : ofText text = .ok (.named "kit_qa-2") := eq_ok_of_toOption (by decide +kernel)
  have hplace : home.place layout.environments = .ok ["db", "environments"] :=
    eq_ok_of_toOption (by decide +kernel)
  have hfolder : home.node? ["db", "environments"] = some .folder := rfl
  obtain ⟨hback, hcanonical, -, hfile⟩ := hnamed text _ htext
  obtain ⟨hdirectly, hfound⟩ := hfile layout
  exact ⟨hlower, (hsame _ _ hlower.symm).trans (congrArg Except.toOption htext), htext, hback,
    hcanonical _ rfl, hdirectly.fileName, hplace, hfolder, hfound home _ hplace hfolder⟩

end Environment

end Migrations
