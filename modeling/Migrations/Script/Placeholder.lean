/-!
# Placeholders

Scripts and templates name variables as placeholders, `${name}`.  A text is read into pieces: plain
characters, escaped openers, placeholders, and an opener that nothing closes.  Inside a name a
backslash before the closing brace makes that brace a part of the name.  Filling replaces the
placeholders of known names; all else stays as it is, and what is filled in is not read again.
-/

namespace Migrations

/-! ## Variables -/

/-- Named texts, in the order of their names and with one text for a name. -/
structure Variables where
  entries : List (String × String)
  ascending : entries.Pairwise (fun a b => a.1 < b.1)
  deriving DecidableEq, Repr

namespace Variables

def empty : Variables := ⟨[], .nil⟩

instance : EmptyCollection Variables := ⟨empty⟩

instance : Inhabited Variables := ⟨empty⟩

def get? (vars : Variables) (name : String) : Option String :=
  (vars.entries.find? (fun entry => entry.1 == name)).map Prod.snd

/-- Puts one entry into a list that is ordered by name. -/
def put (name value : String) : List (String × String) → List (String × String)
  | [] => [(name, value)]
  | entry :: rest =>
    if name = entry.1 then (name, value) :: rest
    else if name < entry.1 then (name, value) :: entry :: rest
    else entry :: put name value rest

theorem mem_put {name value : String} {entries : List (String × String)}
    {entry : String × String} (h : entry ∈ put name value entries) :
    entry = (name, value) ∨ entry ∈ entries := by
  fun_induction put name value entries with
  | case1 => exact .inl (List.mem_singleton.mp h)
  | case2 first rest hname =>
    exact (List.mem_cons.mp h).imp_right (List.mem_cons_of_mem _)
  | case3 first rest hname hlt => exact List.mem_cons.mp h
  | case4 first rest hname hlt ih =>
    rcases List.mem_cons.mp h with rfl | h
    · exact .inr List.mem_cons_self
    · exact (ih h).imp_right (List.mem_cons_of_mem _)

theorem put_ascending {name value : String} {entries : List (String × String)}
    (h : entries.Pairwise (fun a b => a.1 < b.1)) :
    (put name value entries).Pairwise (fun a b => a.1 < b.1) := by
  fun_induction put name value entries with
  | case1 => simp
  | case2 first rest hname =>
    obtain ⟨hfirst, hrest⟩ := List.pairwise_cons.mp h
    exact List.pairwise_cons.mpr ⟨fun entry hmem => hname ▸ hfirst entry hmem, hrest⟩
  | case3 first rest hname hlt =>
    obtain ⟨hfirst, -⟩ := List.pairwise_cons.mp h
    refine List.pairwise_cons.mpr ⟨fun entry hmem => ?_, h⟩
    rcases List.mem_cons.mp hmem with rfl | hmem
    · exact hlt
    · exact String.lt_trans hlt (hfirst entry hmem)
  | case4 first rest hname hlt ih =>
    obtain ⟨hfirst, hrest⟩ := List.pairwise_cons.mp h
    refine List.pairwise_cons.mpr ⟨fun entry hmem => ?_, ih hrest⟩
    rcases mem_put hmem with rfl | hmem
    · -- the name is neither that of the first entry nor before it
      exact String.not_le.mp fun hle =>
        hname (String.le_antisymm hle (String.not_lt.mp hlt))
    · exact hfirst entry hmem

/-- The variables with the name set to the text. -/
def insert (vars : Variables) (name value : String) : Variables :=
  ⟨put name value vars.entries, put_ascending vars.ascending⟩

/-- The variables with the names that are kept. -/
def filter (vars : Variables) (keep : String → Bool) : Variables :=
  ⟨vars.entries.filter (fun entry => keep entry.1), vars.ascending.filter _⟩

/-- The variables of a list; a later text for a name wins. -/
def ofList (entries : List (String × String)) : Variables :=
  entries.foldl (fun vars entry => vars.insert entry.1 entry.2) empty

/-- The variables of both; the second ones win. -/
def overlay (lower upper : Variables) : Variables :=
  upper.entries.foldl (fun vars entry => vars.insert entry.1 entry.2) lower

end Variables

/-! ## Pieces of a text -/

namespace Placeholder

/-- What a text with placeholders is made of. -/
inductive Piece where
  /-- A character that stands for itself. -/
  | plain (c : Char)
  /-- An opener after a backslash. -/
  | escapedOpener
  | hole (name : List Char)
  /-- An opener that nothing closes, with all the text after it. -/
  | unclosed (rest : List Char)
  deriving DecidableEq, Repr

/-- The two characters that start a placeholder. -/
def opener : List Char := ['$', '{']

/-- The name up to the closing brace, and the text after that brace. -/
def name? : List Char → Option (List Char × List Char)
  | [] => none
  | '\\' :: '}' :: cs => (name? cs).map fun (name, rest) => ('}' :: name, rest)
  | '}' :: cs => some ([], cs)
  | c :: cs => (name? cs).map fun (name, rest) => (c :: name, rest)

theorem length_lt_of_name? {cs name rest : List Char} (h : name? cs = some (name, rest)) :
    rest.length < cs.length := by
  fun_induction name? cs generalizing name rest with
  | case1 => simp at h
  | case2 cs ih =>
    obtain ⟨⟨n, r⟩, hr, heq⟩ := Option.map_eq_some_iff.1 h
    simp only [Prod.mk.injEq] at heq
    have := ih hr
    rw [← heq.2]
    simp only [List.length_cons]
    omega
  | case3 cs =>
    simp only [Option.some.injEq, Prod.mk.injEq] at h
    simp [h.2]
  | case4 c cs _ _ ih =>
    obtain ⟨⟨n, r⟩, hr, heq⟩ := Option.map_eq_some_iff.1 h
    simp only [Prod.mk.injEq] at heq
    have := ih hr
    rw [← heq.2]
    simp only [List.length_cons]
    omega

/-- The pieces of a text, from left to right. -/
def read : List Char → List Piece
  | [] => []
  | '\\' :: '$' :: '{' :: cs => .escapedOpener :: read cs
  | '$' :: '{' :: cs =>
    match h : name? cs with
    | some (name, rest) =>
      have := length_lt_of_name? h
      .hole name :: read rest
    | none => [.unclosed cs]
  | c :: cs => .plain c :: read cs
termination_by cs => cs.length

/-- What a piece becomes when the names have the given texts. -/
def Piece.fill (lookup : List Char → Option (List Char)) : Piece → List Char
  | .plain c => [c]
  | .escapedOpener => opener
  | .hole name => (lookup name).getD (opener ++ name ++ ['}'])
  | .unclosed rest => opener ++ rest

def fill (lookup : List Char → Option (List Char)) (text : List Char) : List Char :=
  (read text).flatMap (Piece.fill lookup)

end Placeholder

/-! ## Scopes -/

/-- Layers of variables, lowest first; a name has its text from the highest layer that knows it. -/
structure Scope where
  layers : List Variables := []
  deriving DecidableEq, Repr, Inhabited

namespace Scope

def single (vars : Variables) : Scope := ⟨[vars]⟩

def push (scope : Scope) (vars : Variables) : Scope := ⟨scope.layers ++ [vars]⟩

def lookup (scope : Scope) (name : String) : Option String :=
  scope.layers.reverse.findSome? (·.get? name)

/-- All layers as one. -/
def flatten (scope : Scope) : Variables := scope.layers.foldl Variables.overlay {}

/-- The text with its placeholders filled from the scope. -/
def fill (scope : Scope) (text : String) : String :=
  String.ofList (Placeholder.fill
    (fun name => (scope.lookup (String.ofList name)).map String.toList) text.toList)

end Scope

end Migrations
