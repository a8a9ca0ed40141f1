import Migrations.Change.Basic

/-!
# Ledger Tables

A ledger table holds at most one row for a change id, and its rows stand in ascending order of the
ids.  Both are part of the type, so every table that exists has them.
-/

namespace Migrations

/-- The rows of a ledger. -/
structure Table where
  rows : List Change
  ascending : rows.Pairwise (fun a b => a.id < b.id)
  deriving DecidableEq

namespace Table

def empty : Table := ⟨[], .nil⟩

instance : Inhabited Table := ⟨empty⟩

def ids (table : Table) : List ChangeId := table.rows.map Change.id

def contains (table : Table) (id : ChangeId) : Bool := table.rows.any (fun row => row.id == id)

/-! ## Adding and removing rows -/

/-- Puts a row among ascending rows, in place of a row with its id. -/
def place (row : Change) : List Change → List Change
  | [] => [row]
  | other :: rest =>
    if row.id < other.id then row :: other :: rest
    else if row.id = other.id then row :: rest
    else other :: place row rest

theorem mem_of_mem_place {row x : Change} {rows : List Change} (h : x ∈ place row rows) :
    x = row ∨ x ∈ rows := by
  fun_induction place row rows with
  | case1 => simpa using h
  | case2 other rest _ => simpa using h
  | case3 other rest _ _ =>
    rcases List.mem_cons.1 h with h | h
    · exact .inl h
    · exact .inr (List.mem_cons_of_mem _ h)
  | case4 other rest _ _ ih =>
    rcases List.mem_cons.1 h with h | h
    · exact .inr (h ▸ List.mem_cons_self)
    · rcases ih h with h | h
      · exact .inl h
      · exact .inr (List.mem_cons_of_mem _ h)

theorem pairwise_place {row : Change} {rows : List Change}
    (h : rows.Pairwise (fun a b => a.id < b.id)) :
    (place row rows).Pairwise (fun a b => a.id < b.id) := by
  fun_induction place row rows with
  | case1 => simp
  | case2 other rest hlt =>
    refine List.pairwise_cons.2 ⟨fun x hx => ?_, h⟩
    rcases List.mem_cons.1 hx with hx | hx
    · exact hx ▸ hlt
    · exact Nat.lt_trans hlt ((List.pairwise_cons.1 h).1 x hx)
  | case3 other rest _ heq =>
    refine List.pairwise_cons.2 ⟨fun x hx => ?_, (List.pairwise_cons.1 h).2⟩
    exact heq ▸ (List.pairwise_cons.1 h).1 x hx
  | case4 other rest hlt hne ih =>
    refine List.pairwise_cons.2 ⟨fun x hx => ?_, ih (List.pairwise_cons.1 h).2⟩
    rcases mem_of_mem_place hx with hx | hx
    · subst hx
      have : other.id.toNat ≠ x.id.toNat := fun heq => hne (ChangeId.toNat_inj.1 heq.symm)
      have hlt : ¬ x.id.toNat < other.id.toNat := hlt
      exact (by omega : other.id.toNat < x.id.toNat)
    · exact (List.pairwise_cons.1 h).1 x hx

/-- The table with a row; a row with its id is replaced. -/
def insert (table : Table) (row : Change) : Table :=
  ⟨place row table.rows, pairwise_place table.ascending⟩

def erase (table : Table) (id : ChangeId) : Table :=
  ⟨table.rows.filter (fun row => row.id ≠ id), table.ascending.filter _⟩

end Table

end Migrations
