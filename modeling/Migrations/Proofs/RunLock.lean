import Migrations.Proofs.Procedure.Lockstep
import Migrations.RunLock

/-!
# Work under the Run Lock

How work under a lock ends, and how it is put together: what is done with the result of the work can
as well be done after the lock is given back, because it takes no steps.
-/

namespace Migrations.RunLock

open Attempt

variable {α β : Type} {key : Int64}

/-- The world after a lock was taken. -/
def taken (key : Int64) (world : World) : World :=
  { world with database := (world.database.tryLock key).2 }

/-- The world after a lock was given back, unless it is stuck. -/
def returned (key : Int64) (world : World) : World :=
  { world with database := (world.database.unlock key).2 }

theorem taken_of_held {world : World} (h : key ∈ world.database.locks) :
    taken key world = world := by
  unfold taken Database.tryLock
  rw [if_pos (List.contains_iff_mem.mpr h)]

theorem mem_locks_taken (key : Int64) (world : World) :
    key ∈ (taken key world).database.locks := by
  unfold taken Database.tryLock
  by_cases h : key ∈ world.database.locks
  · rw [if_pos (List.contains_iff_mem.mpr h)]
    exact h
  · rw [if_neg fun hcontains => h (List.contains_iff_mem.mp hcontains)]
    exact List.mem_append_right _ List.mem_cons_self

/-- Taking the lock changes nothing but the locks. -/
theorem taken_eq (key : Int64) (world : World) :
    taken key world = { world with
      database := { world.database with locks := (taken key world).database.locks } } := by
  unfold taken Database.tryLock
  split <;> rfl

theorem returned_eq (key : Int64) (world : World) :
    returned key world = { world with
      database := { world.database with locks := (returned key world).database.locks } } := by
  unfold returned Database.unlock
  split <;> rfl

theorem lockStuck_taken (key : Int64) (world : World) :
    (taken key world).database.lockStuck = world.database.lockStuck := by
  rw [taken_eq]

theorem lockStuck_returned (key : Int64) (world : World) :
    (returned key world).database.lockStuck = world.database.lockStuck := by
  rw [returned_eq]

theorem home_taken (key : Int64) (world : World) : (taken key world).home = world.home := by
  rw [taken_eq]

theorem home_returned (key : Int64) (world : World) :
    (returned key world).home = world.home := by
  rw [returned_eq]

theorem failures_taken (key : Int64) (world : World) :
    (taken key world).database.failures = world.database.failures := by
  rw [taken_eq]

theorem failures_returned (key : Int64) (world : World) :
    (returned key world).database.failures = world.database.failures := by
  rw [returned_eq]

theorem unreachable_returned (key : Int64) (world : World) :
    (returned key world).database.unreachable = world.database.unreachable := by
  rw [returned_eq]

theorem unreachable_taken (key : Int64) (world : World) :
    (taken key world).database.unreachable = world.database.unreachable := by
  rw [taken_eq]

/-- A lock that is stuck is not given back. -/
theorem returned_of_stuck {world : World} (h : world.database.lockStuck = true) :
    returned key world = world := by
  unfold returned Database.unlock
  rw [if_pos h]

/-- A lock that can be given back is free then. -/
theorem free_returned {world : World} (hstuck : world.database.lockStuck = false) :
    key ∉ (returned key world).database.locks := by
  unfold returned Database.unlock
  rw [if_neg (by simp [hstuck])]
  simp

theorem locks_taken {world : World} (hfree : key ∉ world.database.locks) :
    (taken key world).database.locks = world.database.locks ++ [key] := by
  unfold taken Database.tryLock
  rw [if_neg fun hcontains => hfree (List.contains_iff_mem.mp hcontains)]

/-- Of the locks only the new one is given back. -/
theorem filter_locks {locks : List Int64} (hfree : key ∉ locks) :
    (locks ++ [key]).filter (· ≠ key) = locks := by
  have hothers : locks.filter (· ≠ key) = locks := by
    refine List.filter_eq_self.mpr fun other hmem => decide_eq_true ?_
    rintro rfl
    exact hfree hmem
  rw [List.filter_append, hothers]
  simp

/-- A lock that was free is free again after it was taken and given back. -/
theorem returned_taken {world : World} (hfree : key ∉ world.database.locks)
    (hstuck : world.database.lockStuck = false) : returned key (taken key world) = world := by
  have hlocks : (returned key (taken key world)).database.locks = world.database.locks := by
    unfold returned Database.unlock
    rw [if_neg (by simp [lockStuck_taken, hstuck])]
    dsimp only
    rw [locks_taken hfree, filter_locks hfree]
  rw [returned_eq, hlocks, taken_eq]

/-- A lock that was taken can be given back and taken again. -/
theorem taken_returned {world now : World} (hfree : key ∉ world.database.locks)
    (hlocks : now.database.locks = (taken key world).database.locks)
    (hstuck : now.database.lockStuck = false) : taken key (returned key now) = now := by
  have hreturned : (returned key now).database.locks = world.database.locks := by
    unfold returned Database.unlock
    rw [if_neg (by simp [hstuck])]
    dsimp only
    rw [hlocks, locks_taken hfree, filter_locks hfree]
  have hagain : (taken key (returned key now)).database.locks = now.database.locks := by
    rw [locks_taken (free_returned hstuck), hreturned, hlocks, locks_taken hfree]
  rw [taken_eq, hagain, returned_eq]

/-- Which locks are held after one was given back depends on no other part of the world. -/
theorem locks_returned_congr {world other : World}
    (hlocks : world.database.locks = other.database.locks)
    (hstuck : world.database.lockStuck = other.database.lockStuck) :
    (returned key world).database.locks = (returned key other).database.locks := by
  unfold returned Database.unlock
  rw [hlocks, hstuck]
  split
  · exact hlocks
  · rfl

/-- The lock is no part of a ledger. -/
theorem table?_taken (key : Int64) (world : World) (name : String) :
    (taken key world).database.table? name = world.database.table? name := by
  rw [taken_eq]
  rfl

theorem table?_returned (key : Int64) (world : World) (name : String) :
    (returned key world).database.table? name = world.database.table? name := by
  rw [returned_eq]
  rfl

theorem run_tryLock (key : Int64) (world : World) :
    (Access.tryLock key).run world =
      if world.database.locks.contains key then (false, world) else (true, taken key world) := by
  show ((world.database.tryLock key).1, taken key world) = _
  unfold taken Database.tryLock
  split <;> rfl

theorem run_release (key : Int64) (world : World) :
    ((release key).run.run world).2 = returned key world := by
  show (Procedure.run (_ <$> (Access.unlock key).run) world).2 = _
  rw [map_eq_pure_bind, Procedure.run_bind]
  rfl

/-- Work is done while the lock is held; without the lock it is not begun. -/
theorem ends_holding {work : Attempt Failure α} {world : World} {ok : α → World → Prop}
    {error : Failure → World → Prop} :
    Ends (holding key work) world ok error ↔
      if world.database.locks.contains key then error (.concurrent key) world
      else Ends work (taken key world) (fun a after => ok a (returned key after))
        (fun failure after => error failure (returned key after)) := by
  unfold holding acquire
  rw [ends_bind, ends_bind, ends_lift, run_tryLock]
  split
  · rfl
  · show Ends (ExceptT.mk (work.run >>= fun result => (release key).run >>= fun _ =>
      pure result)) (taken key world) ok error ↔ _
    rw [ends_mk_bind]
    simp only [ends_mk_lift, run_release]
    rfl

/-- The first step of work under a lock is the one that tries to take it. -/
theorem run_holding (work : Attempt Failure α) :
    (holding key work).run = .step (.tryLock key) (taken key) fun world =>
      if world.database.locks.contains key then .done (.error (.concurrent key))
      else work.run >>= fun result => (release key).run >>= fun _ => pure result := by
  show Procedure.step _ _ _ = Procedure.step _ _ _
  congr 1
  funext world
  -- the attempt decides at once whether the work is begun
  by_cases hheld : world.database.locks.contains key = true
  · have htry : world.database.tryLock key = (false, world.database) := by
      rw [Database.tryLock, if_pos hheld]
    rw [if_pos hheld]
    show (((Procedure.done (world.database.tryLock key).1).andThen _).andThen _).andThen _ = _
    rw [htry]
    rfl
  · have htry : (world.database.tryLock key).1 = true := by
      rw [Database.tryLock, if_neg hheld]
    rw [if_neg hheld]
    show (((Procedure.done (world.database.tryLock key).1).andThen _).andThen _).andThen _ = _
    rw [htry]
    rfl

/-- Without the lock the work is not begun, and nothing is called or changed. -/
theorem run_holding_of_held {world : World} (hheld : key ∈ world.database.locks)
    (work : Attempt Failure α) :
    (holding key work).run.run world = (.error (.concurrent key), world) ∧
      (holding key work).run.calls world = [] := by
  have hcontains := List.contains_iff_mem.mpr hheld
  rw [run_holding]
  constructor
  · rw [Procedure.run, if_pos hcontains, taken_of_held hheld]
    rfl
  · rw [Procedure.calls_step rfl, if_pos hcontains]
    rfl

/-- With the lock the work is done, and the lock is given back whatever the work comes to. -/
theorem run_holding_of_free {world : World} (hfree : key ∉ world.database.locks)
    (work : Attempt Failure α) :
    let done := work.run.run (taken key world)
    (holding key work).run.run world = (done.1, returned key done.2) ∧
      (holding key work).run.calls world = work.run.calls (taken key world) := by
  have hcontains : ¬ world.database.locks.contains key = true :=
    fun h => hfree (List.contains_iff_mem.mp h)
  rw [run_holding]
  constructor
  · rw [Procedure.run, if_neg hcontains, Procedure.run_bind, Procedure.run_bind, run_release]
    rfl
  -- neither to take the lock nor to give it back is a call
  · rw [Procedure.calls_step rfl, if_neg hcontains, Procedure.calls_bind]
    exact List.append_nil _

/-- A result that is changed under the lock is changed after it. -/
theorem holding_bind (work : Attempt Failure α) (f : α → Except Failure β) :
    holding key (work >>= fun a => liftM (f a)) =
      holding key work >>= fun a => liftM (f a) := by
  unfold holding
  rw [bind_assoc]
  congr 1
  funext _
  show (work >>= fun a => liftM (f a)).run >>= (fun result => (release key).run >>= fun _ =>
      pure result) =
    ExceptT.run (ExceptT.mk (work.run >>= fun result => (release key).run >>= fun _ =>
      pure result) >>= fun a => liftM (f a))
  rw [ExceptT.run_bind, ExceptT.run_bind, ExceptT.run_mk]
  simp only [bind_assoc, pure_bind]
  congr 1
  -- a fault stays the same on both ways; a result is changed before or after the last step
  funext result
  cases result with
  | error failure => simp
  | ok a =>
    dsimp only
    cases f a <;> rfl

end Migrations.RunLock
