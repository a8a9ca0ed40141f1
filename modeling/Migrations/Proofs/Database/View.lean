import Migrations.Proofs.Database.Rows

/-!
# What Transactions See

A transaction answers as if its writes were committed already: the database that it sees is the one
that its commit would leave.  Two transactions that see the same database answer alike, however much
of that is committed and however much is still to be written.  The times of application play no part
in the answers, so they are left out of account.

## Main statements

- `Transaction.Fits.insert_eq`, `Transaction.Fits.delete_eq`: the ledger answers from the database
  that the transaction sees.
- `Transaction.Alike.insert`, `Transaction.Alike.delete`, `Transaction.Alike.execute`: transactions
  that see the same answer the same, and then see the same again.
-/

namespace Migrations

/-! ## The database that a transaction sees -/

namespace Transaction

/-- The tables that the transaction adds rows to are there. -/
def Fits (tx : Transaction) (db : Database) : Prop :=
  ∀ table row, .insert table row ∈ tx.writes → (db.table? table).isSome

theorem fits_empty (db : Database) : ({} : Transaction).Fits db := fun _ _ h => nomatch h

theorem Fits.add {tx : Transaction} {db : Database} {write : Write} (h : tx.Fits db)
    (hwrite : ∀ table row, write = .insert table row → (db.table? table).isSome) :
    (tx.add write).Fits db := by
  intro table row hmem
  rcases List.mem_append.mp hmem with hmem | hmem
  · exact h table row hmem
  · exact hwrite table row (List.mem_singleton.mp hmem).symm

/-- The rows that writes leave in a table are the ones that are seen through them. -/
theorem onTable_eq_some (name : String) (writes : List Write) (table : Table) :
    ∃ seen, writes.foldl (Write.onTable name) (some table) = some seen ∧
      ∀ id, seen.contains id = writes.foldl (sees name id) (table.contains id) := by
  induction writes generalizing table with
  | nil => exact ⟨table, rfl, fun _ => rfl⟩
  | cons write rest ih =>
    -- one write leaves a table of which exactly those ids are seen that are seen through it
    obtain ⟨next, hnext, hsees⟩ : ∃ next, write.onTable name (some table) = some next ∧
        ∀ id, next.contains id = sees name id (table.contains id) write := by
      cases write with
      | statement sql => exact ⟨table, rfl, fun _ => rfl⟩
      | insert other row =>
        by_cases hname : other = name
        · refine ⟨table.insert row, by simp [Write.onTable, hname], fun id => ?_⟩
          rw [Table.contains_insert, sees]
          by_cases hid : row.id = id <;> simp [hname, hid]
        · exact ⟨table, by simp [Write.onTable, hname], fun id => by simp [sees, hname]⟩
      | delete other deleted =>
        by_cases hname : other = name
        · refine ⟨table.erase deleted, by simp [Write.onTable, hname], fun id => ?_⟩
          rw [Table.contains_erase, sees]
          by_cases hid : deleted = id <;> simp [hname, hid]
        · exact ⟨table, by simp [Write.onTable, hname], fun id => by simp [sees, hname]⟩
    obtain ⟨seen, hseen, hcontains⟩ := ih next
    refine ⟨seen, by rw [List.foldl_cons, hnext, hseen], fun id => ?_⟩
    rw [hcontains, hsees, List.foldl_cons]

theorem onTable_eq_none (name : String) (writes : List Write)
    (h : ∀ row, .insert name row ∉ writes) :
    writes.foldl (Write.onTable name) none = none := by
  induction writes with
  | nil => rfl
  | cons write rest ih =>
    have hnone : write.onTable name none = none := by
      cases write with
      | statement sql => rfl
      | insert other row =>
        have hname : other ≠ name := fun hname => h row (hname ▸ List.mem_cons_self)
        simp [Write.onTable, hname]
      | delete other deleted => simp [Write.onTable]
    rw [List.foldl_cons, hnone]
    exact ih fun row hmem => h row (List.mem_cons_of_mem _ hmem)

namespace Fits

variable {tx : Transaction} {db : Database}

/-- A table can be reached through a transaction exactly when it can be reached at all, and then the
transaction sees the rows that its commit would leave. -/
theorem reach_commit (h : tx.Fits db) (name : String) :
    match db.reach name with
    | .error fault => (tx.commit db).reach name = .error fault
    | .ok table => ∃ seen, (tx.commit db).reach name = .ok seen ∧
        ∀ id, seen.contains id = tx.visible (table.contains id) name id := by
  have hreachable : (tx.commit db).unreachable = db.unreachable := by rw [commit_eq]
  have htable := table?_commit tx db name
  unfold Database.reach
  rw [hreachable, htable, onTable]
  cases db.unreachable with
  | true => rfl
  | false =>
    cases hname : db.table? name with
    | none =>
      -- without a table no row was added to it, so the commit leaves none either
      have hnone : ∀ row, .insert name row ∉ tx.writes := fun row hmem => by
        simpa [hname] using h name row hmem
      rw [onTable_eq_none name tx.writes hnone]
      rfl
    | some table =>
      obtain ⟨seen, hseen, hcontains⟩ := onTable_eq_some name tx.writes table
      rw [hseen]
      exact ⟨seen, rfl, hcontains⟩

theorem isSome_table? (h : tx.Fits db) {name : String} {table : Table}
    (hreach : (tx.commit db).reach name = .ok table) : (db.table? name).isSome := by
  have hcommit := h.reach_commit name
  cases hname : db.reach name with
  | error fault => simp [hname, hreach] at hcommit
  | ok table => simp [(Database.reach_eq_ok.mp hname).2]

/-- A row is refused when the transaction sees one with its id. -/
theorem insert_eq (h : tx.Fits db) (name : String) (row : Change) :
    tx.insert db name row =
      match (tx.commit db).reach name with
      | .error fault => .error fault
      | .ok table =>
        if table.contains row.id then .error (.duplicate row.id name)
        else .ok (tx.add (.insert name row)) := by
  have hreach := h.reach_commit name
  rw [insert]
  cases hname : db.reach name with
  | error fault =>
    rw [hname] at hreach
    simp only [hreach]
  | ok table =>
    rw [hname] at hreach
    obtain ⟨seen, hseen, hcontains⟩ := hreach
    simp only [hseen, hcontains]

theorem delete_eq (h : tx.Fits db) (name : String) (id : ChangeId) :
    tx.delete db name id =
      match (tx.commit db).reach name with
      | .error fault => .error fault
      | .ok table => .ok (tx.add (.delete name id), table.contains id) := by
  have hreach := h.reach_commit name
  rw [delete]
  cases hname : db.reach name with
  | error fault =>
    rw [hname] at hreach
    simp only [hreach]
  | ok table =>
    rw [hname] at hreach
    obtain ⟨seen, hseen, hcontains⟩ := hreach
    simp only [hseen, hcontains]

end Fits

end Transaction

/-! ## Times of application -/

/-- The change, with every time of application taken for the same. -/
def Change.timeless (change : Change) : Change :=
  { change with appliedAt := change.appliedAt.map fun _ => ⟨0, 0⟩ }

/-- The table, with every time of application taken for the same. -/
def Table.timeless (table : Table) : Table :=
  ⟨table.rows.map Change.timeless, List.pairwise_map.mpr table.ascending⟩

/-- The database, with every time of application taken for the same. -/
def Database.timeless (db : Database) : Database :=
  { db with tables := db.tables.map fun (name, table) => (name, table.timeless) }

/-- The write, with every time of application taken for the same. -/
def Write.timeless : Write → Write
  | insert table row => insert table row.timeless
  | write => write

theorem Table.timeless_contains (table : Table) (id : ChangeId) :
    table.timeless.contains id = table.contains id := by
  simp [timeless, contains, Change.timeless, Function.comp_def]

theorem Table.eq_of_rows {table other : Table} (h : table.rows = other.rows) : table = other := by
  cases table
  cases other
  cases h
  rfl

theorem Table.timeless_insert (table : Table) (row : Change) :
    (table.insert row).timeless = table.timeless.insert row.timeless := by
  -- the times play no part in where a row is placed
  have hplace : ∀ rows : List Change, (place row rows).map Change.timeless =
      place row.timeless (rows.map Change.timeless) := by
    intro rows
    induction rows with
    | nil => rfl
    | cons other rest ih =>
      rw [place, List.map_cons, place]
      -- the ids decide, and they stay as they are
      show List.map _ (if row.id < other.id then _ else if row.id = other.id then _ else _) =
        if row.id < other.id then _ else if row.id = other.id then _ else _
      split
      · rfl
      · split
        · rfl
        · rw [List.map_cons, ih]
  exact eq_of_rows (hplace table.rows)

theorem Table.timeless_erase (table : Table) (id : ChangeId) :
    (table.erase id).timeless = table.timeless.erase id := by
  apply eq_of_rows
  show (table.rows.filter _).map _ = (table.rows.map _).filter _
  rw [List.filter_map]
  rfl

namespace Database

theorem timeless_table? (db : Database) (name : String) :
    db.timeless.table? name = (db.table? name).map Table.timeless := by
  simp [table?, timeless, List.find?_map, Function.comp_def]

theorem timeless_setTable (db : Database) (name : String) (table : Table) :
    (db.setTable name table).timeless = db.timeless.setTable name table.timeless := by
  have hput : ∀ entries : List (String × Table),
      (putTable name table entries).map (fun (name, table) => (name, table.timeless)) =
        putTable name table.timeless
          (entries.map fun (name, table) => (name, table.timeless)) := by
    intro entries
    induction entries with
    | nil => rfl
    | cons entry rest ih =>
      rw [putTable, List.map_cons, putTable]
      split
      · rfl
      · rw [List.map_cons, ih]
  unfold setTable timeless
  rw [hput]

theorem timeless_reach (db : Database) (name : String) :
    db.timeless.reach name = (db.reach name).map Table.timeless := by
  unfold reach
  rw [timeless_table?]
  show (if db.unreachable then _ else _) = _
  split
  · rfl
  · cases db.table? name <;> rfl

end Database

/-- A write does the same to a database whose times are left out. -/
theorem Write.timeless_apply (write : Write) (db : Database) :
    (write.apply db).timeless = write.timeless.apply db.timeless := by
  cases write with
  | statement sql => rfl
  | insert table row =>
    show (db.insertRow table row).timeless = db.timeless.insertRow table row.timeless
    rw [Database.insertRow, Database.insertRow, Database.timeless_setTable,
      Database.timeless_table?, Table.timeless_insert]
    cases db.table? table <;> rfl
  | delete table id =>
    show (db.eraseRow table id).timeless = db.timeless.eraseRow table id
    rw [Database.eraseRow, Database.eraseRow, Database.timeless_table?]
    cases db.table? table with
    | none => rfl
    | some rows =>
      show (db.setTable table (rows.erase id)).timeless =
        db.timeless.setTable table (rows.timeless.erase id)
      rw [Database.timeless_setTable, Table.timeless_erase]

/-! ## Transactions that see the same -/

/-- The transactions see the same database, each over its own. -/
structure Transaction.Alike (tx : Transaction) (db : Database) (tx' : Transaction)
    (db' : Database) : Prop where
  fits : tx.Fits db
  fits' : tx'.Fits db'
  sees : (tx.commit db).timeless = (tx'.commit db').timeless

namespace Transaction.Alike

variable {tx tx' : Transaction} {db db' : Database}

/-- What was committed is seen as what is still to be written. -/
theorem commit (h : tx.Alike db tx' db') : Alike {} (tx.commit db) tx' db' where
  fits := fits_empty _
  fits' := h.fits'
  sees := h.sees

theorem failures (h : tx.Alike db tx' db') : db.failures = db'.failures := by
  have hsees := congrArg Database.failures h.sees
  change (tx.commit db).failures = (tx'.commit db').failures at hsees
  rwa [commit_eq, tx'.commit_eq] at hsees

/-- The tables that can be reached are seen with the same ids. -/
theorem reach (h : tx.Alike db tx' db') (name : String) :
    match (tx.commit db).reach name, (tx'.commit db').reach name with
    | .error fault, .error fault' => fault = fault'
    | .ok table, .ok table' => ∀ id, table.contains id = table'.contains id
    | _, _ => False := by
  -- both tables are the same but for their times, which do not show in the ids
  have hreach : ((tx.commit db).reach name).map Table.timeless =
      ((tx'.commit db').reach name).map Table.timeless := by
    rw [← Database.timeless_reach, ← Database.timeless_reach, h.sees]
  revert hreach
  rcases (tx.commit db).reach name with fault | table <;>
    rcases (tx'.commit db').reach name with fault' | table' <;> intro hreach
  · exact Except.error.inj hreach
  · cases hreach
  · cases hreach
  · intro id
    rw [← table.timeless_contains, Except.ok.inj hreach, table'.timeless_contains]

theorem add (h : tx.Alike db tx' db') {write write' : Write}
    (hwrite : write.timeless = write'.timeless) (hfits : (tx.add write).Fits db)
    (hfits' : (tx'.add write').Fits db') : (tx.add write).Alike db (tx'.add write') db' where
  fits := hfits
  fits' := hfits'
  -- the writes are the same but for their times, on databases that are the same but for theirs
  sees := by
    rw [commit_add, commit_add, Write.timeless_apply, Write.timeless_apply, hwrite, h.sees]

theorem withStatements (h : tx.Alike db tx' db') (statements : List String) :
    (tx.withStatements statements).Alike db (tx'.withStatements statements) db' := by
  induction statements generalizing tx tx' with
  | nil => simpa using h
  | cons sql rest ih =>
    rw [withStatements_cons, withStatements_cons]
    exact ih (h.add rfl (h.fits.add (by simp)) (h.fits'.add (by simp)))

theorem execute (h : tx.Alike db tx' db') (sql : String) :
    match tx.execute db sql, tx'.execute db' sql with
    | .ok tx, .ok tx' => Alike tx db tx' db'
    | .error fault, .error fault' => fault = fault'
    | _, _ => False := by
  have hfails : db.failing? sql = db'.failing? sql := by
    rw [Database.failing?, Database.failing?, h.failures]
  unfold Transaction.execute
  rw [hfails]
  cases db'.failing? sql with
  | some pattern => rfl
  | none => exact h.add rfl (h.fits.add (by simp)) (h.fits'.add (by simp))

/-- The same row, perhaps at another time, is added to both or refused by both. -/
theorem insert (h : tx.Alike db tx' db') (name : String) {row row' : Change}
    (hrow : row.timeless = row'.timeless) :
    match tx.insert db name row, tx'.insert db' name row' with
    | .ok tx, .ok tx' => Alike tx db tx' db'
    | .error fault, .error fault' => fault = fault'
    | _, _ => False := by
  -- rows that differ in their times only have one id, and it alone decides
  have hid : row.timeless.id = row'.timeless.id := by rw [hrow]
  change row.id = row'.id at hid
  have hreach := h.reach name
  rw [h.fits.insert_eq, h.fits'.insert_eq, hid]
  cases htable : (tx.commit db).reach name with
  | error fault =>
    cases htable' : (tx'.commit db').reach name with
    | error fault' => simpa [htable, htable'] using hreach
    | ok table' => simp [htable, htable'] at hreach
  | ok table =>
    cases htable' : (tx'.commit db').reach name with
    | error fault' => simp [htable, htable'] at hreach
    | ok table' =>
      rw [htable, htable'] at hreach
      dsimp only at hreach ⊢
      rw [hreach row'.id]
      cases table'.contains row'.id with
      | true => rfl
      | false =>
        -- both rows are written, and both tables are there to take them
        refine h.add (congrArg (Write.insert name) hrow)
          (h.fits.add fun _ _ hwrite => ?_) (h.fits'.add fun _ _ hwrite => ?_)
        · cases hwrite
          exact h.fits.isSome_table? htable
        · cases hwrite
          exact h.fits'.isSome_table? htable'

theorem delete (h : tx.Alike db tx' db') (name : String) (id : ChangeId) :
    match tx.delete db name id, tx'.delete db' name id with
    | .ok (tx, existed), .ok (tx', existed') => Alike tx db tx' db' ∧ existed = existed'
    | .error fault, .error fault' => fault = fault'
    | _, _ => False := by
  have hreach := h.reach name
  rw [h.fits.delete_eq, h.fits'.delete_eq]
  revert hreach
  rcases (tx.commit db).reach name with fault | table <;>
    rcases (tx'.commit db').reach name with fault' | table' <;> intro hreach
  · exact hreach
  · exact hreach.elim
  · exact hreach.elim
  · exact ⟨h.add rfl (h.fits.add (by simp)) (h.fits'.add (by simp)), hreach id⟩

end Transaction.Alike

end Migrations
