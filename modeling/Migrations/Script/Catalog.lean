import Migrations.Script.Basic
import Migrations.Script.Section
import Migrations.Script.Placeholder

/-!
# Catalogs

The scripts of a project in ascending order of their ids, no two with one id, so that a script is
looked up by halving.  A catalog knows the names of its scripts; the text of a script is read when it
is needed.
-/

namespace Migrations

/-! ## Entries -/

inductive ScriptSource where
  | file (path : Path)
  | loaded (script : Script)
  deriving DecidableEq

structure ScriptEntry where
  id : ChangeId
  description : String
  filename : String
  source : ScriptSource
  deriving DecidableEq

namespace ScriptEntry

def ofScript (script : Script) : ScriptEntry where
  id := script.id
  description := script.description
  filename := script.filename
  source := .loaded script

def change (entry : ScriptEntry) : Change :=
  (Change.pending entry.id entry.description).named entry.filename

/-- Whether an entry may stand before another: by id, then by file name. -/
def precedes (a b : ScriptEntry) : Bool :=
  decide (a.id < b.id) || (a.id == b.id && decide (a.filename ≤ b.filename))

/-- The first two neighbours with one id. -/
def clash? : List ScriptEntry → Option (ScriptEntry × ScriptEntry)
  | a :: b :: rest => if a.id = b.id then some (a, b) else clash? (b :: rest)
  | _ => none

theorem le_of_precedes {a b : ScriptEntry} (h : a.precedes b = true) : a.id ≤ b.id := by
  simp only [precedes, Bool.or_eq_true, decide_eq_true_eq, Bool.and_eq_true, beq_iff_eq] at h
  rcases h with h | ⟨h, _⟩
  · exact Nat.le_of_lt h
  · exact Nat.le_of_eq (congrArg ChangeId.toNat h)

theorem precedes_trans (a b c : ScriptEntry) (hab : a.precedes b = true)
    (hbc : b.precedes c = true) : a.precedes c = true := by
  simp only [precedes, Bool.or_eq_true, decide_eq_true_eq, Bool.and_eq_true, beq_iff_eq] at *
  rcases hab with hab | ⟨hab, hfab⟩
  · rcases hbc with hbc | ⟨hbc, _⟩
    · exact .inl (Nat.lt_trans hab hbc)
    · exact .inl (hbc ▸ hab)
  · rcases hbc with hbc | ⟨hbc, hfbc⟩
    · exact .inl (hab ▸ hbc)
    · exact .inr ⟨hab.trans hbc, String.le_trans hfab hfbc⟩

theorem precedes_total (a b : ScriptEntry) : (a.precedes b || b.precedes a) = true := by
  simp only [precedes, Bool.or_eq_true, decide_eq_true_eq, Bool.and_eq_true, beq_iff_eq]
  rcases Nat.lt_trichotomy a.id.toNat b.id.toNat with h | h | h
  · exact .inl (.inl h)
  · have h := ChangeId.toNat_inj.1 h
    rcases String.le_total a.filename b.filename with hf | hf
    · exact .inl (.inr ⟨h, hf⟩)
    · exact .inr (.inr ⟨h.symm, hf⟩)
  · exact .inr (.inl h)

theorem pairwise_lt_of_clash? {entries : List ScriptEntry}
    (hsorted : entries.Pairwise (fun a b => a.precedes b = true)) (hclash : clash? entries = none) :
    entries.Pairwise (fun a b => a.id < b.id) := by
  fun_induction clash? entries with
  | case1 a b rest heq => simp at hclash
  | case2 a b rest hne ih =>
    obtain ⟨ha, hrest⟩ := List.pairwise_cons.1 hsorted
    have htail := ih hrest hclash
    have hab : a.id < b.id := by
      have hle := le_of_precedes (ha b List.mem_cons_self)
      have hne : a.id.toNat ≠ b.id.toNat := fun h => hne (ChangeId.toNat_inj.1 h)
      exact Nat.lt_of_le_of_ne hle hne
    refine List.pairwise_cons.2 ⟨fun x hx => ?_, htail⟩
    rcases List.mem_cons.1 hx with hx | hx
    · exact hx ▸ hab
    · exact Nat.lt_trans hab ((List.pairwise_cons.1 htail).1 x hx)
  | case3 entries hshort =>
    match entries with
    | [] => exact .nil
    | [a] => simp
    | a :: b :: rest => exact absurd rfl (hshort a b rest)

end ScriptEntry

/-! ## Catalogs -/

/-- The scripts of a project. -/
structure Catalog where
  entries : List ScriptEntry := []
  skipped : List String := []
  scope : Scope := {}
  ascending : entries.Pairwise (fun a b => a.id < b.id) := by simp

namespace Catalog

/-- The catalog of entries in any order; two of them must not have one id. -/
def ofEntries (entries : List ScriptEntry) (skipped : List String) (scope : Scope) :
    Except Failure Catalog :=
  let sorted := entries.mergeSort ScriptEntry.precedes
  match h : ScriptEntry.clash? sorted with
  | some (first, second) =>
    .error (.malformed second.filename (.duplicate second.id first.filename))
  | none =>
    .ok {
      entries := sorted
      skipped := skipped
      scope := scope
      ascending := ScriptEntry.pairwise_lt_of_clash?
        (List.pairwise_mergeSort ScriptEntry.precedes_trans ScriptEntry.precedes_total entries) h }

def ofScripts (scripts : List Script) : Except Failure Catalog :=
  ofEntries (scripts.map ScriptEntry.ofScript) [] {}

def ids (catalog : Catalog) : List ChangeId := catalog.entries.map ScriptEntry.id

def changes (catalog : Catalog) : List Change := catalog.entries.map ScriptEntry.change

/-! ## Lookup -/

/-- The one of `size` places from `base` on where an id can be.  The places are halved until a single
one is left: the lower ones stay when the entry in the middle comes after the id, and otherwise the
upper ones do. -/
def narrow (catalog : Catalog) (id : ChangeId) (base size : Nat) : Nat :=
  if 1 < size then
    let half := size / 2
    if catalog.entries[base + half]?.all (fun entry => decide (id < entry.id)) then
      catalog.narrow id base (size - half)
    else catalog.narrow id (base + half) (size - half)
  else base
termination_by size

/-- The entry with an id, if there is one. -/
def find? (catalog : Catalog) (id : ChangeId) : Option ScriptEntry :=
  catalog.entries[catalog.narrow id 0 catalog.entries.length]?.filter
    (fun entry => entry.id == id)

def contains (catalog : Catalog) (id : ChangeId) : Bool := (catalog.find? id).isSome

/-! ## Texts -/

def readFile (home : Home) (path : Path) (filename : String) : Except Failure String :=
  match home.read path with
  | .error fault => .error (.file fault)
  | .ok bytes =>
    match String.fromUTF8? bytes with
    | some text => .ok text
    | none => .error (.malformed filename .notText)

def load (catalog : Catalog) (home : Home) (entry : ScriptEntry) : Except Failure Script :=
  match entry.source with
  | .loaded script => .ok script
  | .file path =>
    (readFile home path entry.filename).map fun text =>
      let sections := Sections.ofText text
      { id := entry.id
        description := entry.description
        filename := entry.filename
        up := catalog.scope.fill sections.up
        down := sections.down.map catalog.scope.fill }

/-- The script with an id, if there is one. -/
def load? (catalog : Catalog) (home : Home) (id : ChangeId) : Except Failure (Option Script) :=
  match catalog.find? id with
  | some entry => (catalog.load home entry).map some
  | none => .ok none

end Catalog

end Migrations
