import Migrations.Hook.Statements
import Migrations.Script.InPlace

/-!
# Layers of Variables

A name has its text from the highest layer that knows it.  Looking through the layers from the
highest one down gives the same as putting them one over the other from the lowest one up, so a text
is filled in the same way from the layers and from the one layer that they make.

## Main statements

- `Variables.get?_eq_some`: variables have the texts that their entries say.
- `Variables.get?_overlay`: of two layers the upper one is asked first.
- `Scope.lookup_push`: a new layer has a say in the names that it defines, and in no others.
- `Scope.flatten_resolves`: the layers and the one layer made of them agree.
- `Hook.lookup_scope`: the order in which the statements of a hook look for a name.
-/

namespace Migrations

/-! ## Variables -/

namespace Variables

variable {name other value : String} {vars : Variables} {first : String × String}
  {entries rest : List (String × String)}

/-! ### Entries -/

/-- The first entry is the only one for its name. -/
theorem find?_rest (h : (first :: rest).Pairwise (fun a b => a.1 < b.1)) :
    rest.find? (fun entry => entry.1 == first.1) = none := by
  refine List.find?_eq_none.mpr fun entry hmem hsame => ?_
  have hlt := (List.pairwise_cons.mp h).1 entry hmem
  rw [eq_of_beq hsame] at hlt
  exact String.lt_irrefl _ hlt

theorem find?_eq_some (h : entries.Pairwise (fun a b => a.1 < b.1)) :
    entries.find? (fun entry => entry.1 == name) = some (name, value) ↔
      (name, value) ∈ entries := by
  induction entries with
  | nil => simp
  | cons first rest ih =>
    have hrest := ih h.of_cons
    by_cases hname : first.1 = name
    · subst hname
      -- what has the name of the first entry is not among the other ones
      rw [find?_rest h] at hrest
      rw [List.find?_cons_of_pos (by simp), Option.some_inj, List.mem_cons, ← hrest]
      simp [eq_comm]
    · have hne : (name, value) ≠ first := by
        rintro rfl
        exact hname rfl
      rw [List.find?_cons_of_neg (by simpa using hname), hrest, List.mem_cons, or_iff_right hne]

theorem find?_put (entries : List (String × String)) :
    (put name value entries).find? (fun entry => entry.1 == other) =
      if other = name then some (name, value)
      else entries.find? (fun entry => entry.1 == other) := by
  by_cases hother : other = name
  · subst hother
    rw [if_pos rfl]
    fun_induction put other value entries with
    | case1 => simp
    | case2 first rest hname => simp
    | case3 first rest hname hlt => simp
    | case4 first rest hname hlt ih =>
      rw [List.find?_cons_of_neg (by simpa using Ne.symm hname), ih]
  · rw [if_neg hother]
    have hskip : ∀ first : String × String, name = first.1 → ∀ rest : List (String × String),
        (first :: rest).find? (fun entry => entry.1 == other) =
          rest.find? (fun entry => entry.1 == other) := fun first hname rest =>
      List.find?_cons_of_neg (by simpa [← hname] using Ne.symm hother)
    fun_induction put name value entries with
    | case1 => exact hskip _ rfl []
    | case2 first rest hname => rw [hskip _ rfl, hskip first hname]
    | case3 first rest hname hlt => exact hskip _ rfl _
    | case4 first rest hname hlt ih => rw [List.find?_cons, List.find?_cons, ih]

theorem get?_insert (vars : Variables) :
    (vars.insert name value).get? other = if other = name then some value else vars.get? other := by
  rw [get?, insert, find?_put]
  split <;> rfl

/-- What is put in later wins, and nothing is put over what was put in first. -/
theorem get?_foldl_insert (h : entries.Pairwise (fun a b => a.1 < b.1)) (vars : Variables) :
    (entries.foldl (fun vars entry => vars.insert entry.1 entry.2) vars).get? name =
      ((entries.find? (fun entry => entry.1 == name)).map Prod.snd).or (vars.get? name) := by
  induction entries generalizing vars with
  | nil => rfl
  | cons first rest ih =>
    rw [List.foldl_cons, ih h.of_cons, get?_insert]
    by_cases hname : name = first.1
    · subst hname
      rw [if_pos rfl, find?_rest h, List.find?_cons_of_pos (by simp)]
      rfl
    · rw [if_neg hname, List.find?_cons_of_neg (by simpa using Ne.symm hname)]

/-! ### Lookup -/

theorem get?_eq_some : vars.get? name = some value ↔ (name, value) ∈ vars.entries := by
  rw [← find?_eq_some vars.ascending, get?, Option.map_eq_some_iff]
  constructor
  · rintro ⟨entry, hfind, rfl⟩
    have hname : entry.1 = name := by simpa using List.find?_some hfind
    rw [hfind, ← hname]
  · exact fun hfind => ⟨_, hfind, rfl⟩

theorem get?_eq_none : vars.get? name = none ↔ name ∉ vars.entries.map Prod.fst := by
  rw [Option.eq_none_iff_forall_ne_some, List.mem_map, not_exists]
  constructor
  · rintro h entry ⟨hmem, rfl⟩
    exact h entry.2 (get?_eq_some.mpr hmem)
  · exact fun h value hvalue => h _ ⟨get?_eq_some.mp hvalue, rfl⟩

/-- The upper variables are asked first. -/
theorem get?_overlay (lower upper : Variables) (name : String) :
    (lower.overlay upper).get? name = (upper.get? name).or (lower.get? name) :=
  get?_foldl_insert upper.ascending lower

end Variables

/-! ## Scopes -/

namespace Scope

theorem lookup_single (vars : Variables) (name : String) :
    (single vars).lookup name = vars.get? name := by
  simp [lookup, single]

theorem lookup_push (scope : Scope) (vars : Variables) (name : String) :
    (scope.push vars).lookup name = (vars.get? name).or (scope.lookup name) := by
  rw [lookup, push, List.reverse_append, List.findSome?_append]
  simp [lookup]

/-- Layers put over a lowest one are asked before it. -/
theorem get?_foldl_overlay (layers : List Variables) (lowest : Variables) (name : String) :
    (layers.foldl Variables.overlay lowest).get? name =
      (layers.reverse.findSome? (·.get? name)).or (lowest.get? name) := by
  induction layers generalizing lowest with
  | nil => rfl
  | cons layer layers ih =>
    rw [List.foldl_cons, ih, Variables.get?_overlay, List.reverse_cons, List.findSome?_append,
      List.findSome?_singleton, Option.or_assoc]

theorem get?_flatten (scope : Scope) (name : String) :
    scope.flatten.get? name = scope.lookup name := by
  rw [flatten, get?_foldl_overlay]
  exact Option.or_none

theorem lookup_flatten (scope : Scope) : (single scope.flatten).lookup = scope.lookup := by
  funext name
  rw [lookup_single, get?_flatten]

/-- The layers of a scope and the one layer that is made of them give every name the same text, and
so every text is filled in the same way from either, turn by turn of the loops that fill it.  Another
layer on top gives the names that it defines its own texts, and leaves all other names alone. -/
theorem flatten_resolves (scope : Scope) :
    (∀ name, scope.lookup name = scope.flatten.get? name) ∧
    (∀ text, scope.fill text = (single scope.flatten).fill text) ∧
    (let lookup (scope : Scope) (name : List Char) :=
        (scope.lookup (String.ofList name)).map String.toList
      ∀ text n, InPlace.run (lookup scope) text n =
        InPlace.run (lookup (single scope.flatten)) text n) ∧
    ∀ vars name,
      (∀ value, (name, value) ∈ vars.entries → (scope.push vars).lookup name = some value) ∧
      (name ∉ vars.entries.map Prod.fst → (scope.push vars).lookup name = scope.lookup name) := by
  refine ⟨fun name => (get?_flatten scope name).symm, fun text => ?_, fun text n => ?_,
    fun vars name => ⟨fun value hmem => ?_, fun hnone => ?_⟩⟩
  · rw [fill, fill, lookup_flatten]
  · dsimp only
    rw [lookup_flatten]
  · rw [lookup_push, Variables.get?_eq_some.mpr hmem, Option.some_or]
  · rw [lookup_push, Variables.get?_eq_none.mpr hnone, Option.none_or]

/-- Three layers that overlap: the middle one hides the lowest one, and the highest one hides both. -/
theorem flatten_resolves_overlapping :
    let lowest := Variables.ofList [("a", "1"), ("b", "1"), ("c", "1")]
    let middle := Variables.ofList [("c", "2"), ("b", "2")]
    let highest := Variables.ofList [("c", "3")]
    let scope : Scope := ⟨[lowest, middle]⟩
    ("c", "3") ∈ highest.entries ∧ (scope.push highest).lookup "c" = some "3" ∧
      "b" ∉ highest.entries.map Prod.fst ∧ (scope.push highest).lookup "b" = scope.lookup "b" ∧
      scope.flatten.get? "b" = some "2" := by
  intro lowest middle highest scope
  obtain ⟨hlookup, -, -, hpush⟩ := flatten_resolves scope
  have hdefined : ("c", "3") ∈ highest.entries := by decide
  have hother : "b" ∉ highest.entries.map Prod.fst := by decide
  refine ⟨hdefined, (hpush highest "c").1 _ hdefined, hother, (hpush highest "b").2 hother, ?_⟩
  rw [← hlookup]
  decide

end Scope

/-! ## Statement hooks -/

/-- The statements of a hook look for a name in the options of the hook, then in the context, then in
the variables of the settings. -/
theorem Hook.lookup_scope (context : HookContext) (options : Variables) (name : String) :
    (scope context options).lookup name =
      (options.get? name).or ((context.hookVariables.get? name).or (context.vars.get? name)) := by
  rw [scope, Scope.lookup_push, Scope.lookup_push, Scope.lookup_single]

end Migrations
