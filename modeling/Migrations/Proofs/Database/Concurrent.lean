import Mathlib.Data.List.Induction
import Migrations.Proofs.Database.Immediate

/-!
# Transactions Side by Side

Any number of transactions on one database, whose steps come in any order.  A transaction judges an
insertion by the rows that are committed at that time, and its commit asks nothing any more.  So a
transaction that begins to insert after another one has committed is refused an id that is there;
but two that are open at the same time can both be granted the same id, and nothing stops them from
committing both.

## Main statements

- `Transaction.row?_commit`: the row that a commit leaves under an id that it does not delete.
- `Scene.Step.row?`: what one step, of whichever transaction, does to a row.
- `Interleaved.commits_iff_overtakes`: which of the transactions that were granted one id commit,
  and whose row is there in the end.
-/

namespace Migrations

open Attempt

/-! ## The row of an id -/

/-- The row with an id. -/
def Table.row? (table : Table) (id : ChangeId) : Option Change :=
  table.rows.find? (fun row => row.id == id)

theorem Table.isSome_row? (table : Table) (id : ChangeId) :
    (table.row? id).isSome = table.contains id := by
  rw [Bool.eq_iff_iff]
  simp [row?, contains]

@[simp] theorem Table.row?_insert (table : Table) (row : Change) (id : ChangeId) :
    (table.insert row).row? id = if row.id = id then some row else table.row? id := by
  -- the rows that `place` passes or replaces have the id only when the new row has it
  have hplace : ∀ rows : List Change, (place row rows).find? (fun row => row.id == id) =
      if row.id = id then some row else rows.find? (fun row => row.id == id) := by
    intro rows
    fun_induction place row rows with
    | case1 => grind
    | case2 other rest hlt => grind
    | case3 other rest hlt heq => grind
    | case4 other rest hlt hne ih => grind
  exact hplace table.rows

@[simp] theorem Table.row?_erase (table : Table) (deleted id : ChangeId) :
    (table.erase deleted).row? id = if deleted = id then none else table.row? id := by
  rw [row?, row?, erase, List.find?_filter]
  by_cases heq : deleted = id
  · simp [heq]
  · rw [if_neg heq]
    congr 1
    funext row
    by_cases hrow : row.id = id
    · simp [hrow, Ne.symm heq]
    · simp [hrow]

@[simp] theorem Table.row?_empty (id : ChangeId) : empty.row? id = none := rfl

/-- The row with an id in the ledger table of a name. -/
def Database.row? (db : Database) (name : String) (id : ChangeId) : Option Change :=
  (db.table? name).bind (·.row? id)

/-- The row that a write puts under an id of a table. -/
def Write.row? (name : String) (id : ChangeId) : Write → Option Change
  | insert table row => if table = name ∧ row.id = id then some row else none
  | _ => none

theorem Write.row?_apply {write : Write} {name : String} {id : ChangeId}
    (h : write ≠ .delete name id) (db : Database) :
    (write.apply db).row? name id = (write.row? name id).or (db.row? name id) := by
  rw [Database.row?, Database.row?, Write.table?_apply]
  cases write with
  | statement sql => simp [onTable, Write.row?]
  | insert table row =>
    by_cases hname : table = name
    · cases db.table? name <;> by_cases hid : row.id = id <;>
        simp [onTable, Write.row?, hname, hid]
    · simp [onTable, Write.row?, hname]
  | delete table deleted =>
    by_cases hname : table = name
    · have hid : deleted ≠ id := fun hid => h (by rw [hname, hid])
      cases db.table? name <;> simp [onTable, Write.row?, hname, hid]
    · simp [onTable, Write.row?, hname]

namespace Transaction

/-- The rows that the writes put under an id of a table, in order. -/
def insertions (tx : Transaction) (name : String) (id : ChangeId) : List Change :=
  tx.writes.filterMap (Write.row? name id)

/-- A commit leaves the last row that it puts under an id, and else the one that is there. -/
theorem row?_commit {tx : Transaction} {name : String} {id : ChangeId}
    (h : .delete name id ∉ tx.writes) (db : Database) :
    (tx.commit db).row? name id = (tx.insertions name id).getLast?.or (db.row? name id) := by
  -- generalised over the database, which the writes before have changed already
  have hfold : ∀ (writes : List Write) (db : Database), .delete name id ∉ writes →
      (writes.foldl Write.apply db).row? name id =
        (writes.filterMap (Write.row? name id)).getLast?.or (db.row? name id) := by
    intro writes
    induction writes with
    | nil => intro db _; rfl
    | cons write rest ih =>
      intro db hkept
      have hwrite : write ≠ .delete name id := fun h => hkept (h ▸ List.mem_cons_self)
      rw [List.foldl_cons, ih _ fun h => hkept (List.mem_cons_of_mem _ h),
        Write.row?_apply hwrite]
      cases hrow : write.row? name id with
      | none => simp [hrow]
      | some row => simp [hrow, List.getLast?_cons]
  exact hfold tx.writes db h

theorem row?_eq_none_of_insert {tx result : Transaction} {db : Database} {name : String}
    {row : Change} (h : tx.insert db name row = .ok result) :
    (tx.commit db).row? name row.id = none := by
  unfold insert at h
  split at h
  · cases h
  · next rows hreach =>
    split at h
    · cases h
    · next hvisible =>
      -- what is seen through the writes is what they leave when they are applied
      obtain ⟨seen, hseen, hcontains⟩ := onTable_eq_some name tx.writes rows
      have htable : (tx.commit db).table? name = some seen := by
        rw [table?_commit, (Database.reach_eq_ok.mp hreach).2]
        exact hseen
      rw [Database.row?, htable, Option.bind_some, ← Option.not_isSome_iff_eq_none,
        Table.isSome_row?, hcontains]
      exact hvisible

theorem eq_add_of_execute {tx result : Transaction} {db : Database} {sql : String}
    (h : tx.execute db sql = .ok result) : result = tx.add (.statement sql) := by
  unfold execute at h
  split at h
  · cases h
  · cases h
    rfl

end Transaction

/-! ## Requests -/

/-- What a transaction collects when it grants a request. -/
def Request.write : Request → Write
  | execute sql => .statement sql
  | insert table row => .insert table row
  | delete table id => .delete table id

/-- A request that is granted is one more write, and one for a row is granted only when the
transaction sees none with the id.  Neither the one nor a refusal changes anything in the world. -/
theorem Access.ends_request_write (tx : Transaction) (next : Request) (world : World) :
    Ends (request tx next) world
      (fun result after => after = world ∧ result.1 = tx.add next.write ∧
        ∀ name row, next = .insert name row →
          (tx.commit world.database).row? name row.id = none)
      (fun _ after => after = world) := by
  cases next with
  | execute sql =>
    rw [request, ends_map, execute, ends_ask]
    cases hasked : tx.execute world.database sql with
    | error fault => exact rfl
    | ok result => exact ⟨rfl, Transaction.eq_add_of_execute hasked, by simp⟩
  | insert name row =>
    rw [request, ends_map, insert, ends_ask]
    cases hasked : tx.insert world.database name row with
    | error fault => exact rfl
    | ok result =>
      refine ⟨rfl, Transaction.eq_add_of_insert hasked, fun name' row' heq => ?_⟩
      cases heq
      exact Transaction.row?_eq_none_of_insert hasked
  | delete name id =>
    rw [request, ends_map, delete, ends_ask]
    cases hasked : tx.delete world.database name id with
    | error fault => exact rfl
    | ok result => exact ⟨rfl, Transaction.eq_add_of_delete hasked, by simp⟩

/-! ## Scenes -/

/-- Where a transaction stands. -/
inductive Standing where
  | absent
  | opened (tx : Transaction)
  /-- Committed or rolled back. -/
  | ended

/-- A world, and where the transactions on it stand. -/
structure Scene where
  world : World
  standing : Nat → Standing

/-- What happens to a transaction in one step. -/
inductive Deed where
  | begin
  | granted (request : Request) (reply : Reply)
  | refused (request : Request) (fault : DatabaseFault)
  /-- A commit has no fault to report. -/
  | commit
  | rollback

/-- The steps of all transactions, in the order in which they came. -/
abbrev Deeds := List (Nat × Deed)

namespace Scene

/-- No transaction has begun. -/
def start (world : World) : Scene := ⟨world, fun _ => .absent⟩

/-- The scene after a step of one transaction. -/
def put (scene : Scene) (who : Nat) (standing : Standing) (world : World) : Scene :=
  ⟨world, fun other => if other = who then standing else scene.standing other⟩

@[simp] theorem standing_put_self (scene : Scene) (who : Nat) (standing : Standing)
    (world : World) : (scene.put who standing world).standing who = standing := if_pos rfl

theorem standing_put_of_ne {who other : Nat} (hne : other ≠ who) (scene : Scene)
    (standing : Standing) (world : World) :
    (scene.put who standing world).standing other = scene.standing other := if_neg hne

/-- One step of a transaction. -/
inductive Step (scene : Scene) (who : Nat) : Deed → Scene → Prop where
  | begin {tx : Transaction} {after : World} (absent : scene.standing who = .absent)
    (run : Access.begin.run scene.world = (tx, after)) :
    Step scene who .begin (scene.put who (.opened tx) after)
  | granted {tx next : Transaction} {request : Request} {reply : Reply} {after : World}
    (opened : scene.standing who = .opened tx)
    (run : (Access.request tx request).run.run scene.world = (.ok (next, reply), after)) :
    Step scene who (.granted request reply) (scene.put who (.opened next) after)
  | refused {tx : Transaction} {request : Request} {fault : DatabaseFault} {after : World}
    (opened : scene.standing who = .opened tx)
    (run : (Access.request tx request).run.run scene.world = (.error fault, after)) :
    Step scene who (.refused request fault) (scene.put who (.opened tx) after)
  | commit {tx : Transaction} {after : World} (opened : scene.standing who = .opened tx)
    (run : (Access.commit tx).run scene.world = ((), after)) :
    Step scene who .commit (scene.put who .ended after)
  | rollback {tx : Transaction} {after : World} (opened : scene.standing who = .opened tx)
    (run : Access.rollback.run scene.world = ((), after)) :
    Step scene who .rollback (scene.put who .ended after)

end Scene

/-- The scene comes about from a world without transactions by the steps of the history. -/
inductive Interleaved (world : World) : Deeds → Scene → Prop where
  | start : Interleaved world [] (.start world)
  | step {history : Deeds} {scene next : Scene} {who : Nat} {deed : Deed}
    (past : Interleaved world history scene) (h : scene.Step who deed next) :
    Interleaved world (history ++ [(who, deed)]) next

namespace Interleaved

variable {world : World} {history before after : Deeds} {scene next : Scene} {who : Nat}
  {deed : Deed}

/-- The last step of a history that is not empty. -/
theorem of_snoc (run : Interleaved world (history ++ [(who, deed)]) next) :
    ∃ scene, Interleaved world history scene ∧ scene.Step who deed next := by
  generalize hall : history ++ [(who, deed)] = all at run
  cases run with
  | start => simp at hall
  | step past h =>
    obtain ⟨rfl, hlast⟩ := List.append_inj' hall rfl
    cases hlast
    exact ⟨_, past, h⟩

/-- Every beginning of a history led to a scene. -/
theorem of_append (run : Interleaved world (before ++ after) scene) :
    ∃ earlier, Interleaved world before earlier := by
  induction after using List.reverseRecOn generalizing scene with
  | nil => exact ⟨scene, by simpa using run⟩
  | append_singleton rest last ih =>
    rw [← List.append_assoc] at run
    obtain ⟨earlier, past, -⟩ := run.of_snoc
    exact ih past

/-- A step in the middle of a history. -/
theorem of_cons (run : Interleaved world (before ++ (who, deed) :: after) scene) :
    ∃ here next, Interleaved world before here ∧ here.Step who deed next ∧
      Interleaved world (before ++ [(who, deed)]) next := by
  have hsplit : before ++ (who, deed) :: after = before ++ [(who, deed)] ++ after := by simp
  rw [hsplit] at run
  obtain ⟨next, past⟩ := run.of_append
  obtain ⟨here, hhere, hstep⟩ := past.of_snoc
  exact ⟨here, next, hhere, hstep, past⟩

/-- What holds of the scenes that a history led to holds later on when the later steps keep it. -/
theorem later {P : Scene → Prop} (run : Interleaved world (before ++ after) scene)
    (hbefore : ∀ {here}, Interleaved world before here → P here)
    (hstep : ∀ (middle rest : Deeds) who deed here next,
      after = middle ++ (who, deed) :: rest → Interleaved world (before ++ middle) here →
        here.Step who deed next → P here → P next) : P scene := by
  induction after using List.reverseRecOn generalizing scene with
  | nil => exact hbefore (by simpa using run)
  | append_singleton rest last ih =>
    rw [← List.append_assoc] at run
    obtain ⟨here, past, h⟩ := run.of_snoc
    have hthere : P here := by
      apply ih past
      intro middle rest' who deed here next heq
      exact hstep middle (rest' ++ [last]) who deed here next (by simp [heq])
    exact hstep rest [] last.1 last.2 here scene rfl past h hthere

end Interleaved

/-! ## What history tells -/

namespace Deed

/-- What a step adds to the writes of its transaction. -/
def write? : Deed → Option Write
  | granted request _ => some request.write
  | _ => none

/-- The row of an id that a step adds to those that its transaction is going to write. -/
def row? (name : String) (id : ChangeId) (deed : Deed) : Option Change :=
  deed.write?.bind (Write.row? name id)

theorem row?_eq_some {deed : Deed} {name : String} {id : ChangeId} {row : Change} :
    deed.row? name id = some row ↔
      row.id = id ∧ ∃ reply, deed = .granted (.insert name row) reply := by
  cases deed with
  | granted request reply =>
    cases request with
    | insert table other =>
      simp only [row?, write?, Request.write, Option.bind_some, Write.row?]
      constructor
      · intro h
        split at h
        · next heq =>
          obtain ⟨rfl, hid⟩ := heq
          cases h
          exact ⟨hid, reply, rfl⟩
        · cases h
      · intro h
        obtain ⟨hid, reply', heq⟩ := h
        cases heq
        exact if_pos ⟨rfl, hid⟩
    | execute sql => simp [row?, write?, Request.write, Write.row?]
    | delete table other => simp [row?, write?, Request.write, Write.row?]
  | _ => simp [row?, write?]

end Deed

namespace Deeds

/-- The writes that a transaction has collected. -/
def writesOf (history : Deeds) (who : Nat) : List Write :=
  history.filterMap fun (other, deed) => if other = who then deed.write? else none

/-- The rows of an id that a transaction was granted in a table. -/
def rowsOf (history : Deeds) (who : Nat) (name : String) (id : ChangeId) : List Change :=
  (history.writesOf who).filterMap (Write.row? name id)

/-- The rows of an id that a step commits to a table. -/
def commits (history : Deeds) (who : Nat) (name : String) (id : ChangeId) : Deed → List Change
  | .commit => history.rowsOf who name id
  | _ => []

/-- A transaction was granted a row. -/
def Granted (history : Deeds) (who : Nat) (name : String) (row : Change) : Prop :=
  ∃ reply, (who, .granted (.insert name row) reply) ∈ history

/-- No transaction deletes the id from the table. -/
def Keeps (history : Deeds) (name : String) (id : ChangeId) : Prop :=
  ∀ who reply, (who, .granted (.delete name id) reply) ∉ history

/-- The second transaction was granted a row before the first one committed, and commits after
it. -/
def Overtakes (history : Deeds) (name : String) (first second : Nat) (row : Change) : Prop :=
  ∃ before middle after : Deeds, history =
      before ++ (first, .commit) :: (middle ++ (second, .commit) :: after) ∧
    before.Granted second name row

variable {history before after : Deeds} {who : Nat} {name : String} {id : ChangeId}
  {row : Change}

theorem writesOf_snoc_self (history : Deeds) (who : Nat) (deed : Deed) :
    writesOf (history ++ [(who, deed)]) who = history.writesOf who ++ deed.write?.toList := by
  cases hwrite : deed.write? <;> simp [writesOf, hwrite]

theorem writesOf_snoc_of_ne {other : Nat} (hne : other ≠ who) (deed : Deed) :
    writesOf (history ++ [(other, deed)]) who = history.writesOf who := by
  simp [writesOf, hne]

theorem rowsOf_snoc_self (history : Deeds) (who : Nat) (deed : Deed) :
    rowsOf (history ++ [(who, deed)]) who name id =
      history.rowsOf who name id ++ (deed.row? name id).toList := by
  rw [rowsOf, writesOf_snoc_self, List.filterMap_append, rowsOf, Deed.row?]
  cases deed.write? with
  | none => rfl
  | some write => cases hrow : write.row? name id <;> simp [hrow]

theorem rowsOf_snoc_of_ne {other : Nat} (hne : other ≠ who) (deed : Deed) :
    rowsOf (history ++ [(other, deed)]) who name id = history.rowsOf who name id := by
  rw [rowsOf, writesOf_snoc_of_ne hne, rowsOf]

theorem mem_writesOf {write : Write} :
    write ∈ history.writesOf who ↔ ∃ deed, (who, deed) ∈ history ∧ deed.write? = some write := by
  simp only [writesOf, List.mem_filterMap]
  constructor
  · intro h
    obtain ⟨⟨other, deed⟩, hmem, hwrite⟩ := h
    split at hwrite
    · next heq => exact ⟨deed, heq ▸ hmem, hwrite⟩
    · cases hwrite
  · intro h
    obtain ⟨deed, hmem, hwrite⟩ := h
    exact ⟨_, hmem, by simpa using hwrite⟩

theorem mem_rowsOf : row ∈ history.rowsOf who name id ↔
    row.id = id ∧ history.Granted who name row := by
  simp only [rowsOf, List.mem_filterMap, mem_writesOf]
  constructor
  · intro h
    obtain ⟨write, ⟨deed, hmem, hwrite⟩, hrow⟩ := h
    obtain ⟨hid, reply, rfl⟩ := Deed.row?_eq_some.mp (Option.bind_eq_some_iff.mpr ⟨_, hwrite, hrow⟩)
    exact ⟨hid, reply, hmem⟩
  · intro h
    obtain ⟨hid, reply, hmem⟩ := h
    obtain ⟨write, hwrite, hrow⟩ :=
      Option.bind_eq_some_iff.mp (Deed.row?_eq_some.mpr ⟨hid, reply, rfl⟩)
    exact ⟨write, ⟨_, hmem, hwrite⟩, hrow⟩

theorem Granted.append (h : before.Granted who name row) (after : Deeds) :
    Granted (before ++ after) who name row := by
  obtain ⟨reply, hmem⟩ := h
  exact ⟨reply, List.mem_append_left _ hmem⟩

theorem Keeps.of_append (h : Keeps (before ++ after) name id) :
    before.Keeps name id :=
  fun who reply hmem => h who reply (List.mem_append_left _ hmem)

theorem Keeps.not_mem_writesOf (h : history.Keeps name id) (who : Nat) :
    .delete name id ∉ history.writesOf who := by
  intro hmem
  obtain ⟨deed, hdeed, hwrite⟩ := mem_writesOf.mp hmem
  cases deed with
  | granted request reply =>
    cases request with
    | delete table id' =>
      cases hwrite
      exact h who reply hdeed
    | execute sql => cases hwrite
    | insert table row => cases hwrite
  | _ => cases hwrite

end Deeds

/-! ## Where transactions stand -/

/-- What history tells of where the transactions stand. -/
structure Scene.Accounts (history : Deeds) (scene : Scene) : Prop where
  absent : ∀ who, scene.standing who = .absent → history.writesOf who = []
  opened : ∀ who tx, scene.standing who = .opened tx → tx.writes = history.writesOf who
  committed : ∀ who, (who, .commit) ∈ history → scene.standing who = .ended

namespace Scene

variable {scene next : Scene} {who : Nat} {deed : Deed} {history : Deeds} {name : String}
  {id : ChangeId}

/-- Nothing stops a transaction that is open from committing, and the others stand where they
stood. -/
theorem exists_commit {tx : Transaction} (opened : scene.standing who = .opened tx) :
    ∃ next, scene.Step who .commit next ∧
      ∀ other, other ≠ who → next.standing other = scene.standing other :=
  ⟨_, .commit opened rfl, fun _ hne => standing_put_of_ne hne ..⟩

theorem Step.not_ended (h : scene.Step who deed next) : scene.standing who ≠ .ended := by
  intro hended
  cases h <;> simp_all

/-- The accounts go on with a step when they do for its transaction, since the others stand where
they stood. -/
theorem Accounts.put (h : Accounts history scene) {standing : Standing} {after : World}
    (hactive : scene.standing who ≠ .ended) (habsent : standing ≠ .absent)
    (hopened : ∀ tx, standing = .opened tx →
      tx.writes = history.writesOf who ++ deed.write?.toList)
    (hcommit : deed = .commit → standing = .ended) :
    Accounts (history ++ [(who, deed)]) (scene.put who standing after) where
  absent other hother := by
    by_cases heq : other = who
    · rw [heq, standing_put_self] at hother
      exact absurd hother habsent
    · rw [standing_put_of_ne heq] at hother
      rw [Deeds.writesOf_snoc_of_ne (Ne.symm heq)]
      exact h.absent other hother
  opened other tx hother := by
    by_cases heq : other = who
    · rw [heq, standing_put_self] at hother
      rw [heq, Deeds.writesOf_snoc_self]
      exact hopened tx hother
    · rw [standing_put_of_ne heq] at hother
      rw [Deeds.writesOf_snoc_of_ne (Ne.symm heq)]
      exact h.opened other tx hother
  committed other hother := by
    by_cases heq : other = who
    · subst heq
      rw [standing_put_self]
      rcases List.mem_append.mp hother with hpast | hlast
      · exact absurd (h.committed other hpast) hactive
      · cases List.mem_singleton.mp hlast
        exact hcommit rfl
    · rw [standing_put_of_ne heq]
      rcases List.mem_append.mp hother with hpast | hlast
      · exact h.committed other hpast
      · cases List.mem_singleton.mp hlast
        exact absurd rfl heq

theorem Accounts.step (h : Accounts history scene) (hstep : scene.Step who deed next) :
    Accounts (history ++ [(who, deed)]) next := by
  have hactive := hstep.not_ended
  cases hstep with
  | begin absent run =>
    cases run
    refine h.put hactive (by simp) (fun tx htx => ?_) (by simp)
    cases htx
    simp [h.absent who absent, Deed.write?]
  | @granted tx result request reply after opened run =>
    obtain ⟨-, hresult, -⟩ := (Access.ends_request_write tx request scene.world).of_ok run
    refine h.put hactive (by simp) (fun tx' htx => ?_) (by simp)
    cases htx
    have hwrites : result = tx.add request.write := hresult
    rw [hwrites, Transaction.add, h.opened who tx opened]
    rfl
  | refused opened run =>
    refine h.put hactive (by simp) (fun tx htx => ?_) (by simp)
    cases htx
    simp [h.opened who _ opened, Deed.write?]
  | commit opened run => exact h.put hactive (by simp) (by simp) fun _ => rfl
  | rollback opened run => exact h.put hactive (by simp) (by simp) (by simp)

/-- A commit leaves the last row that its transaction was granted for an id.  No other step changes
what is committed. -/
theorem Step.row? (h : scene.Step who deed next) (haccounts : Accounts history scene)
    (hkept : history.Keeps name id) :
    next.world.database.row? name id =
      (history.commits who name id deed).getLast?.or (scene.world.database.row? name id) := by
  cases h with
  | begin absent run =>
    cases run
    rfl
  | @granted tx result request reply after opened run =>
    obtain ⟨rfl, -⟩ := (Access.ends_request_write tx request scene.world).of_ok run
    rfl
  | @refused tx request fault after opened run =>
    obtain rfl := (Access.ends_request_write tx request scene.world).of_error run
    rfl
  | @commit tx after opened run =>
    cases run
    have hwrites := haccounts.opened who tx opened
    show (tx.commit scene.world.database).row? name id = _
    rw [Transaction.row?_commit (hwrites ▸ hkept.not_mem_writesOf who), Transaction.insertions,
      hwrites]
    rfl
  | rollback opened run =>
    cases run
    rfl

/-- A row is granted only when its id is free: no row with the id is committed, and its transaction
was granted none before. -/
theorem Step.free {row : Change} {reply : Reply}
    (h : scene.Step who (.granted (.insert name row) reply) next)
    (haccounts : Accounts history scene) (hkept : history.Keeps name row.id) :
    history.rowsOf who name row.id = [] ∧ scene.world.database.row? name row.id = none := by
  cases h with
  | @granted tx result request reply after opened run =>
    obtain ⟨-, -, hfree⟩ := (Access.ends_request_write tx _ scene.world).of_ok run
    have hwrites := haccounts.opened who tx opened
    have hnone := hfree name row rfl
    rw [Transaction.row?_commit (hwrites ▸ hkept.not_mem_writesOf who), Option.or_eq_none_iff,
      List.getLast?_eq_none_iff, Transaction.insertions, hwrites] at hnone
    exact hnone

end Scene

namespace Interleaved

variable {world : World} {history before after : Deeds} {scene : Scene} {who : Nat}
  {name : String} {id : ChangeId} {row : Change}

theorem accounts (run : Interleaved world history scene) : scene.Accounts history := by
  induction run with
  | start => exact ⟨by simp [Deeds.writesOf], by simp [Scene.start], by simp⟩
  | step past h ih => exact ih.step h

/-- After its commit a transaction takes no step. -/
theorem not_mem_after (run : Interleaved world (before ++ (who, .commit) :: after) scene)
    (deed : Deed) : (who, deed) ∉ after := by
  intro hmem
  obtain ⟨middle, rest, rfl⟩ := List.append_of_mem hmem
  have hsplit : before ++ (who, .commit) :: (middle ++ (who, deed) :: rest) =
      (before ++ (who, .commit) :: middle) ++ (who, deed) :: rest := by simp
  rw [hsplit] at run
  obtain ⟨here, next, past, hstep, -⟩ := run.of_cons
  exact hstep.not_ended (past.accounts.committed who (by simp))

/-- So it was granted before its commit whatever it was granted at all. -/
theorem granted_before (run : Interleaved world (before ++ (who, .commit) :: after) scene)
    (h : Deeds.Granted (before ++ (who, .commit) :: after) who name row) :
    before.Granted who name row := by
  obtain ⟨reply, hmem⟩ := h
  rcases List.mem_append.mp hmem with hbefore | hrest
  · exact ⟨reply, hbefore⟩
  · rcases List.mem_cons.mp hrest with heq | hafter
    · cases heq
    · exact absurd hafter (run.not_mem_after _)

/-- Once a transaction has committed a row, there is a row with its id. -/
theorem isSome_row? (run : Interleaved world history scene) (hkept : history.Keeps name row.id)
    (hrow : history.Granted who name row) (hcommit : (who, .commit) ∈ history) :
    (scene.world.database.row? name row.id).isSome := by
  obtain ⟨before, after, rfl⟩ := List.append_of_mem hcommit
  have hmem := Deeds.mem_rowsOf.mpr ⟨rfl, run.granted_before hrow⟩
  rw [List.append_cons] at run hkept
  apply run.later
  · -- the commit leaves one of the rows that the transaction was granted
    intro next hnext
    obtain ⟨here, past, hstep⟩ := hnext.of_snoc
    rw [hstep.row? past.accounts hkept.of_append.of_append, Deeds.commits, Option.isSome_or,
      List.getLast?_isSome.mpr (List.ne_nil_of_mem hmem), Bool.true_or]
  · -- and a later step leaves a row where there is one
    intro middle rest other deed here next heq past hstep hthere
    subst heq
    rw [← List.append_assoc] at hkept
    rw [hstep.row? past.accounts hkept.of_append, Option.isSome_or, hthere, Bool.or_true]

/-- A transaction is granted an id only once. -/
theorem length_rowsOf (run : Interleaved world history scene) (hkept : history.Keeps name id)
    (who : Nat) : (history.rowsOf who name id).length ≤ 1 := by
  induction run with
  | start => simp [Deeds.rowsOf, Deeds.writesOf]
  | @step history scene next other deed past h ih =>
    have hpast := ih hkept.of_append
    by_cases hne : other = who
    · subst hne
      rw [Deeds.rowsOf_snoc_self]
      cases hrow : deed.row? name id with
      | none => simpa using hpast
      | some row =>
        -- a row is granted only when its transaction was granted none before
        obtain ⟨rfl, reply, rfl⟩ := Deed.row?_eq_some.mp hrow
        rw [(h.free past.accounts hkept.of_append).1]
        simp
    · rwa [Deeds.rowsOf_snoc_of_ne hne]

/-- The row that a transaction has committed is there until another one commits a row with the
id. -/
theorem row?_of_last (run : Interleaved world (before ++ (who, .commit) :: after) scene)
    (hkept : Deeds.Keeps (before ++ (who, .commit) :: after) name row.id)
    (hrow : before.Granted who name row)
    (hlast : ∀ other row', row'.id = row.id →
      Deeds.Granted (before ++ (who, .commit) :: after) other name row' →
        (other, .commit) ∉ after) :
    scene.world.database.row? name row.id = some row := by
  have hmem := Deeds.mem_rowsOf.mpr ⟨rfl, hrow⟩
  rw [List.append_cons] at run hkept
  apply run.later
  · intro next hnext
    obtain ⟨here, past, hstep⟩ := hnext.of_snoc
    have hkept := hkept.of_append.of_append
    rw [hstep.row? past.accounts hkept, Deeds.commits]
    -- the transaction was granted this row and no other one
    have hrows : Deeds.rowsOf before who name row.id = [row] := by
      obtain ⟨only, honly⟩ := List.length_eq_one_iff.mp
        (Nat.le_antisymm (past.length_rowsOf hkept who) (List.length_pos_of_mem hmem))
      rw [honly] at hmem ⊢
      rw [List.mem_singleton.mp hmem]
    simp [hrows]
  · intro middle rest other deed here next heq past hstep hthere
    subst heq
    rw [← List.append_assoc] at hkept
    have hnone : Deeds.commits (before ++ [(who, .commit)] ++ middle) other name row.id deed =
        [] := by
      cases deed with
      | commit =>
        rw [Deeds.commits, List.eq_nil_iff_forall_not_mem]
        intro row' hrow'
        obtain ⟨hid, reply, hgranted⟩ := Deeds.mem_rowsOf.mp hrow'
        apply hlast other row' hid
        · rw [List.append_cons, ← List.append_assoc]
          exact Deeds.Granted.append ⟨reply, hgranted⟩ _
        · simp
      | _ => rfl
    rw [hstep.row? past.accounts hkept.of_append, hnone, hthere]
    rfl

/-- When a transaction has committed a row, no transaction is granted a row with the id any more. -/
theorem granted_before_commit {other : Nat} {row' : Change}
    (run : Interleaved world (before ++ (who, .commit) :: after) scene)
    (hkept : Deeds.Keeps (before ++ (who, .commit) :: after) name row.id)
    (hrow : Deeds.Granted (before ++ (who, .commit) :: after) who name row)
    (hother : Deeds.Granted (before ++ (who, .commit) :: after) other name row')
    (hid : row'.id = row.id) : before.Granted other name row' := by
  have hbefore := run.granted_before hrow
  obtain ⟨reply, hmem⟩ := hother
  rcases List.mem_append.mp hmem with hpast | hlater
  · exact ⟨reply, hpast⟩
  · rcases List.mem_cons.mp hlater with heq | hafter
    · cases heq
    · -- at that step there is a row with the id
      exfalso
      obtain ⟨middle, rest, rfl⟩ := List.append_of_mem hafter
      rw [← List.cons_append, ← List.append_assoc] at run hkept
      obtain ⟨here, next, past, hstep, -⟩ := run.of_cons
      have hkept' := hkept.of_append
      have hthere := past.isSome_row? hkept' (hbefore.append _) (by simp)
      rw [← hid] at hthere hkept'
      rw [(hstep.free past.accounts hkept').2] at hthere
      cases hthere

/-! ## Two transactions that were granted one id -/

/-- Two steps come one after the other. -/
theorem exists_order {x y : Nat × Deed} (hx : x ∈ history) (hy : y ∈ history) (hne : x ≠ y) :
    (∃ before middle after : Deeds, history = before ++ x :: (middle ++ y :: after)) ∨
      ∃ before middle after : Deeds, history = before ++ y :: (middle ++ x :: after) := by
  obtain ⟨front, rest, rfl⟩ := List.append_of_mem hx
  rcases List.mem_append.mp hy with hfront | hrest
  · obtain ⟨before, middle, rfl⟩ := List.append_of_mem hfront
    exact .inr ⟨before, middle, rest, by simp⟩
  · have hlater : y ∈ rest := by simpa [Ne.symm hne] using hrest
    obtain ⟨middle, after, rfl⟩ := List.append_of_mem hlater
    exact .inl ⟨front, middle, after, rfl⟩

/-- A commit that comes last leaves the row that its transaction was granted. -/
theorem row?_of_commit (run : Interleaved world (history ++ [(who, .commit)]) scene)
    (hkept : history.Keeps name row.id) (hrow : history.Granted who name row) :
    scene.world.database.row? name row.id = some row := by
  apply run.row?_of_last _ hrow
  · intro other row' hid hgranted
    simp
  · intro other reply hmem
    exact hkept other reply (by simpa using hmem)

/-- Of transactions that were all granted one id, which no transaction deletes, two both commit
exactly when the one overtakes the other: it was granted its row while the other one was still
open, and it commits after that one.  The row that stays is the one of the last of them that
commits.  No commit is refused, so two that are open can both commit, and the second replaces the
row of the first. -/
theorem commits_iff_overtakes {a b : Nat} {rowA rowB : Change}
    (run : Interleaved world history scene) (hkept : history.Keeps name id) (hne : a ≠ b)
    (hidA : rowA.id = id) (hidB : rowB.id = id) (hA : history.Granted a name rowA)
    (hB : history.Granted b name rowB) :
    ((a, .commit) ∈ history ∧ (b, .commit) ∈ history ↔
      history.Overtakes name a b rowB ∨ history.Overtakes name b a rowA) ∧
    (∀ before after : Deeds, history = before ++ (b, .commit) :: after →
      (∀ other row, row.id = id → history.Granted other name row → (other, .commit) ∉ after) →
        scene.world.database.row? name id = some rowB) ∧
    (∀ txA txB, scene.standing a = .opened txA → scene.standing b = .opened txB →
      ∃ middle last, Interleaved world (history ++ [(a, .commit)]) middle ∧
        middle.world.database.row? name id = some rowA ∧ middle.Step b .commit last ∧
        last.world.database.row? name id = some rowB) := by
  subst hidA
  refine ⟨⟨?_, ?_⟩, ?_, ?_⟩
  · intro h
    have hsteps : (a, Deed.commit) ≠ (b, Deed.commit) := by simp [hne]
    rcases exists_order h.1 h.2 hsteps with
      ⟨before, middle, after, rfl⟩ | ⟨before, middle, after, rfl⟩
    · exact .inl ⟨before, middle, after, rfl, run.granted_before_commit hkept hA hB hidB⟩
    · rw [← hidB] at hkept
      exact .inr ⟨before, middle, after, rfl, run.granted_before_commit hkept hB hA hidB.symm⟩
  · intro h
    rcases h with ⟨before, middle, after, rfl, -⟩ | ⟨before, middle, after, rfl, -⟩ <;> simp
  · intro before after heq hlast
    subst heq
    rw [← hidB] at hkept hlast ⊢
    exact run.row?_of_last hkept (run.granted_before hB) hlast
  · intro txA txB hopenedA hopenedB
    obtain ⟨middle, hstepA, hothers⟩ := Scene.exists_commit hopenedA
    obtain ⟨last, hstepB, -⟩ := Scene.exists_commit ((hothers b (Ne.symm hne)).trans hopenedB)
    have hrunA := run.step hstepA
    refine ⟨middle, last, hrunA, hrunA.row?_of_commit hkept hA, hstepB, ?_⟩
    rw [← hidB]
    apply (hrunA.step hstepB).row?_of_commit _ (hB.append _)
    intro other reply hmem
    rw [← hidB] at hkept
    exact hkept other reply (by simpa using hmem)

/-- A row that two transactions insert, each with its own description. -/
def rowOfOne (description : String) : Change := .pending (.ofNat 1) description

/-- Two transactions insert a row with the same id before the first of them commits. -/
def sameId : Deeds :=
  [(0, .begin), (1, .begin),
    (0, .granted (.insert "changelog" (rowOfOne "first")) .done),
    (1, .granted (.insert "changelog" (rowOfOne "second")) .done),
    (0, .commit), (1, .commit)]

/-- A world with a ledger that has no rows. -/
def blankLedger : World := { database := { tables := [("changelog", .empty)] } }

theorem interleaved_sameId : ∃ middle last,
    Interleaved blankLedger (sameId.take 5) middle ∧ Interleaved blankLedger sameId last ∧
      middle.world.database.select "changelog" = .ok [rowOfOne "first"] ∧
      last.world.database.select "changelog" = .ok [rowOfOne "second"] := by
  have begun : Interleaved blankLedger (sameId.take 2) _ :=
    .step (.step .start (.begin rfl rfl)) (.begin rfl rfl)
  have granted : Interleaved blankLedger (sameId.take 4) _ :=
    .step (.step begun (.granted rfl rfl)) (.granted rfl rfl)
  have first : Interleaved blankLedger (sameId.take 5) _ := granted.step (.commit rfl rfl)
  have second : Interleaved blankLedger sameId _ := first.step (.commit rfl rfl)
  exact ⟨_, _, first, second, rfl, rfl⟩

theorem keeps_sameId : sameId.Keeps "changelog" (.ofNat 1) := by
  intro who reply h
  simp [sameId] at h

theorem commits_iff_overtakes_sameId :
    sameId.Keeps "changelog" (.ofNat 1) ∧ sameId.Granted 0 "changelog" (rowOfOne "first") ∧
      sameId.Granted 1 "changelog" (rowOfOne "second") ∧
      (sameId.Overtakes "changelog" 0 1 (rowOfOne "second") ∨
        sameId.Overtakes "changelog" 1 0 (rowOfOne "first")) ∧
      ∃ last, Interleaved blankLedger sameId last ∧
        last.world.database.row? "changelog" (.ofNat 1) = some (rowOfOne "second") := by
  obtain ⟨-, last, -, run, -⟩ := interleaved_sameId
  have hfirst : sameId.Granted 0 "changelog" (rowOfOne "first") := ⟨.done, by simp [sameId]⟩
  have hsecond : sameId.Granted 1 "changelog" (rowOfOne "second") := ⟨.done, by simp [sameId]⟩
  obtain ⟨hboth, hlast, -⟩ :=
    commits_iff_overtakes run keeps_sameId (by decide) rfl rfl hfirst hsecond
  refine ⟨keeps_sameId, hfirst, hsecond, hboth.mp ⟨by simp [sameId], by simp [sameId]⟩, last, run,
    hlast (sameId.take 5) [] rfl ?_⟩
  intro other row hid hgranted
  simp

/-- Both commits succeed, and the second one takes the place of the row that the first one has
committed. -/
theorem both_commit_one_id : ∃ middle last,
    Interleaved blankLedger (sameId.take 5) middle ∧ Interleaved blankLedger sameId last ∧
      sameId.Keeps "changelog" (.ofNat 1) ∧
      sameId.Granted 0 "changelog" (rowOfOne "first") ∧
      sameId.Granted 1 "changelog" (rowOfOne "second") ∧
      (0, .commit) ∈ sameId ∧ (1, .commit) ∈ sameId ∧
      middle.world.database.select "changelog" = .ok [rowOfOne "first"] ∧
      last.world.database.select "changelog" = .ok [rowOfOne "second"] := by
  obtain ⟨middle, last, first, second, hmiddle, hlast⟩ := interleaved_sameId
  exact ⟨middle, last, first, second, keeps_sameId, ⟨.done, by simp [sameId]⟩,
    ⟨.done, by simp [sameId]⟩, by simp [sameId], by simp [sameId], hmiddle, hlast⟩

end Interleaved

end Migrations
