import Migrations.Database.Transaction

/-!
# Rows of Ledger Tables

What the operations of databases and transactions do to one ledger table, and what they leave alone.

## Main statements

- `Table.rows_insert_perm`: a new row is added to the rows that are there.
- `Transaction.table?_commit`: a commit does to a table what its writes do to it in order.
- `Transaction.commit_eq`: beside the tables a commit changes only the log of statements.
-/

namespace Migrations

/-! ## Tables -/

namespace Table

theorem mem_place {row x : Change} {rows : List Change}
    (h : rows.Pairwise (fun a b => a.id < b.id)) :
    x ∈ place row rows ↔ x = row ∨ x ∈ rows ∧ x.id ≠ row.id := by
  -- `place` walks along the ascending ids to the place of the new one
  fun_induction place row rows with
  | case1 => simp
  | case2 other rest hlt =>
    -- the new id is below all ids that are left, so it is none of them
    have hne : ∀ y ∈ other :: rest, y.id ≠ row.id := by
      intro y hy heq
      rcases List.mem_cons.mp hy with rfl | hrest
      · exact Nat.lt_irrefl _ (heq ▸ hlt : row.id < row.id)
      · have hyo : other.id < y.id := (List.pairwise_cons.mp h).1 y hrest
        exact Nat.lt_irrefl _ (Nat.lt_trans hlt (heq ▸ hyo : other.id < row.id))
    grind
  | case3 other rest hlt heq =>
    -- the row with this id is replaced, and no other row has the id
    have hne : ∀ y ∈ rest, y.id ≠ row.id := by
      intro y hy hyr
      have hyo : other.id < y.id := (List.pairwise_cons.mp h).1 y hy
      exact Nat.lt_irrefl _ (hyr.trans heq ▸ hyo : other.id < other.id)
    grind
  | case4 other rest hlt hne ih =>
    have := ih (List.pairwise_cons.mp h).2
    grind

theorem mem_insert {table : Table} {row x : Change} :
    x ∈ (table.insert row).rows ↔ x = row ∨ x ∈ table.rows ∧ x.id ≠ row.id :=
  mem_place table.ascending

theorem mem_erase {table : Table} {id : ChangeId} {x : Change} :
    x ∈ (table.erase id).rows ↔ x ∈ table.rows ∧ x.id ≠ id := by
  simp [erase]

theorem nodup_ids (table : Table) : table.ids.Nodup := by
  refine List.pairwise_map.mpr (table.ascending.imp fun hlt heq => ?_)
  exact Nat.lt_irrefl _ (ChangeId.lt_def.mp (heq ▸ hlt))

theorem mem_ids_insert {table : Table} {row : Change} {id : ChangeId} :
    id ∈ (table.insert row).ids ↔ id = row.id ∨ id ∈ table.ids := by
  simp only [ids, List.mem_map, mem_insert]
  constructor
  · rintro ⟨x, rfl | ⟨hx, -⟩, rfl⟩
    · exact .inl rfl
    · exact .inr ⟨x, hx, rfl⟩
  · rintro (rfl | ⟨x, hx, rfl⟩)
    · exact ⟨row, .inl rfl, rfl⟩
    -- a row whose id is taken over is gone, but its id is still there
    · by_cases heq : x.id = row.id
      · exact ⟨row, .inl rfl, heq.symm⟩
      · exact ⟨x, .inr ⟨hx, heq⟩, rfl⟩

theorem mem_ids_erase {table : Table} {id other : ChangeId} :
    other ∈ (table.erase id).ids ↔ other ∈ table.ids ∧ other ≠ id := by
  simp only [ids, List.mem_map, mem_erase]
  constructor
  · rintro ⟨x, ⟨hx, hne⟩, rfl⟩
    exact ⟨⟨x, hx, rfl⟩, hne⟩
  · rintro ⟨⟨x, hx, rfl⟩, hne⟩
    exact ⟨x, ⟨hx, hne⟩, rfl⟩

theorem contains_iff {table : Table} {id : ChangeId} :
    table.contains id = true ↔ id ∈ table.ids := by
  simp [contains, ids]

theorem contains_insert (table : Table) (row : Change) (id : ChangeId) :
    (table.insert row).contains id = (decide (row.id = id) || table.contains id) := by
  rw [Bool.eq_iff_iff, contains_iff, mem_ids_insert, Bool.or_eq_true, contains_iff,
    decide_eq_true_iff, eq_comm]

theorem contains_erase (table : Table) (id other : ChangeId) :
    (table.erase id).contains other = (table.contains other && decide (id ≠ other)) := by
  rw [Bool.eq_iff_iff, contains_iff, mem_ids_erase, Bool.and_eq_true, contains_iff,
    decide_eq_true_iff, ne_comm]

/-- A row with a new id is added to the rows that are there. -/
theorem rows_insert_perm {table : Table} {row : Change} (hnew : row.id ∉ table.ids) :
    (table.insert row).rows.Perm (row :: table.rows) := by
  -- with a new id nothing is replaced on the way to the place of the row
  have hplace : ∀ rows : List Change, row.id ∉ rows.map Change.id →
      (place row rows).Perm (row :: rows) := by
    intro rows
    fun_induction place row rows with
    | case1 => simp
    | case2 other rest => simp
    | case3 other rest hlt heq => simp [heq]
    | case4 other rest hlt hne ih =>
      intro hnew
      have hrest : row.id ∉ rest.map Change.id := fun h => hnew (List.mem_cons_of_mem _ h)
      exact ((ih hrest).cons other).trans (List.Perm.swap row other rest)
  exact hplace table.rows hnew

end Table

/-! ## Databases -/

namespace Database

@[simp] theorem table?_setTable (db : Database) (name other : String) (table : Table) :
    (db.setTable name table).table? other =
      if other = name then some table else db.table? other := by
  -- induction on the entries, since `putTable` replaces the first one with the name
  have hput : ∀ entries : List (String × Table),
      ((putTable name table entries).find? (fun entry => entry.1 == other)).map Prod.snd =
        if other = name then some table
        else (entries.find? (fun entry => entry.1 == other)).map Prod.snd := by
    intro entries
    induction entries with
    | nil => grind [putTable]
    | cons entry rest ih => grind [putTable]
  exact hput db.tables

theorem table?_insertRow (db : Database) (name other : String) (row : Change) :
    (db.insertRow name row).table? other =
      if other = name then some (((db.table? name).getD .empty).insert row)
      else db.table? other := by
  rw [insertRow, table?_setTable]

theorem table?_eraseRow (db : Database) (name other : String) (id : ChangeId) :
    (db.eraseRow name id).table? other =
      if other = name then (db.table? name).map (·.erase id) else db.table? other := by
  unfold eraseRow
  cases hname : db.table? name with
  | none =>
    by_cases heq : other = name
    · simp [heq, hname]
    · simp [heq]
  | some table => simp

theorem table?_createTable (db : Database) (name other : String) :
    (db.createTable name).table? other =
      if other = name then some ((db.table? name).getD .empty) else db.table? other := by
  unfold createTable
  cases hname : db.table? name with
  | none => simp
  | some table =>
    by_cases heq : other = name
    · simp [heq, hname]
    · simp [heq]

theorem reach_eq_ok {db : Database} {name : String} {table : Table} :
    db.reach name = .ok table ↔ db.unreachable = false ∧ db.table? name = some table := by
  unfold reach
  cases db.unreachable <;> cases db.table? name <;> simp

/-- Creating a table changes nothing but the tables. -/
theorem createTable_eq (db : Database) (name : String) :
    db.createTable name = { db with tables := (db.createTable name).tables } := by
  unfold createTable
  cases db.table? name <;> rfl

end Database

/-! ## Writes -/

namespace Write

/-- What a write does to the table of a name. -/
def onTable (name : String) (table? : Option Table) : Write → Option Table
  | statement _ => table?
  | insert other row => if other = name then some ((table?.getD .empty).insert row) else table?
  | delete other id => if other = name then table?.map (·.erase id) else table?

theorem table?_apply (write : Write) (db : Database) (name : String) :
    (write.apply db).table? name = write.onTable name (db.table? name) := by
  cases write with
  | statement sql => rfl
  | insert table row =>
    rw [apply, Database.table?_insertRow, onTable]
    by_cases heq : name = table
    · simp [heq]
    · simp [heq, Ne.symm heq]
  | delete table id =>
    rw [apply, Database.table?_eraseRow, onTable]
    by_cases heq : name = table
    · simp [heq]
    · simp [heq, Ne.symm heq]

/-- The statement that a write adds to the log, if it is one. -/
def statement? : Write → Option String
  | statement sql => some sql
  | insert _ _ => none
  | delete _ _ => none

/-- A write changes the tables and adds its statement to the log, and does nothing else. -/
theorem apply_eq (write : Write) (db : Database) :
    write.apply db = { db with
      tables := (write.apply db).tables
      log := db.log ++ write.statement?.toList } := by
  cases write with
  | statement sql => rfl
  | insert table row => simp [apply, Database.insertRow, Database.setTable, statement?]
  | delete table id =>
    cases htable : db.table? table <;>
      simp [apply, Database.eraseRow, Database.setTable, statement?, htable]

end Write

/-! ## Transactions -/

namespace Transaction

@[simp] theorem commit_empty (db : Database) : ({} : Transaction).commit db = db := rfl

@[simp] theorem commit_add (tx : Transaction) (write : Write) (db : Database) :
    (tx.add write).commit db = write.apply (tx.commit db) := by
  simp [commit, add]

/-- What the writes of a transaction do to the table of a name. -/
def onTable (tx : Transaction) (name : String) (table? : Option Table) : Option Table :=
  tx.writes.foldl (Write.onTable name) table?

@[simp] theorem onTable_add (tx : Transaction) (write : Write) (name : String)
    (table? : Option Table) :
    (tx.add write).onTable name table? = write.onTable name (tx.onTable name table?) := by
  simp [onTable, add]

theorem table?_commit (tx : Transaction) (db : Database) (name : String) :
    (tx.commit db).table? name = tx.onTable name (db.table? name) := by
  -- generalised over the database, which the writes before have changed already
  have hfold : ∀ (writes : List Write) (db : Database),
      (writes.foldl Write.apply db).table? name =
        writes.foldl (Write.onTable name) (db.table? name) := by
    intro writes
    induction writes with
    | nil => intro db; rfl
    | cons write rest ih =>
      intro db
      rw [List.foldl_cons, List.foldl_cons, ih, Write.table?_apply]
  exact hfold tx.writes db

/-- A commit changes the tables and adds the statements of the transaction to the log, and does
nothing else. -/
theorem commit_eq (tx : Transaction) (db : Database) :
    tx.commit db = { db with
      tables := (tx.commit db).tables
      log := db.log ++ tx.writes.filterMap Write.statement? } := by
  -- generalised over the database, whose log grows by one statement for each write that is one
  have hfold : ∀ (writes : List Write) (db : Database),
      writes.foldl Write.apply db = { db with
        tables := (writes.foldl Write.apply db).tables
        log := db.log ++ writes.filterMap Write.statement? } := by
    intro writes
    induction writes with
    | nil => intro db; simp
    | cons write rest ih =>
      intro db
      rw [List.foldl_cons, ih, Write.apply_eq write db]
      cases write <;> simp [Write.statement?, List.filterMap_cons]
  exact hfold tx.writes db

/-! ## Calls that succeed -/

/-- A row that is accepted is one more write. -/
theorem eq_add_of_insert {tx result : Transaction} {db : Database} {table : String} {row : Change}
    (h : tx.insert db table row = .ok result) : result = tx.add (.insert table row) := by
  unfold insert at h
  split at h
  · cases h
  · split at h
    · cases h
    · cases h
      rfl

/-- So is a removal, whether there was a row or not. -/
theorem eq_add_of_delete {tx : Transaction} {result : Transaction × Bool} {db : Database}
    {table : String} {id : ChangeId} (h : tx.delete db table id = .ok result) :
    result.1 = tx.add (.delete table id) := by
  unfold delete at h
  split at h
  · cases h
  · cases h
    rfl

/-! ## Statements of transactions -/

/-- The transaction after statements that do not fail. -/
def withStatements (tx : Transaction) (statements : List String) : Transaction :=
  ⟨tx.writes ++ statements.map .statement⟩

@[simp] theorem withStatements_nil (tx : Transaction) : tx.withStatements [] = tx := by
  simp [withStatements]

theorem withStatements_cons (tx : Transaction) (sql : String) (rest : List String) :
    tx.withStatements (sql :: rest) = (tx.add (.statement sql)).withStatements rest := by
  simp [withStatements, add]

@[simp] theorem commit_withStatements (tx : Transaction) (statements : List String)
    (db : Database) :
    (tx.withStatements statements).commit db =
      { tx.commit db with log := (tx.commit db).log ++ statements } := by
  induction statements generalizing tx with
  | nil => simp
  | cons sql rest ih => simp [withStatements_cons, ih, Write.apply]

theorem onTable_withStatements (tx : Transaction) (statements : List String) (name : String)
    (table? : Option Table) :
    (tx.withStatements statements).onTable name table? = tx.onTable name table? := by
  induction statements generalizing tx with
  | nil => simp
  | cons sql rest ih => rw [withStatements_cons, ih, onTable_add, Write.onTable]

end Transaction

end Migrations
