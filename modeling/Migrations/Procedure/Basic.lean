import Migrations.Database.Transaction
import Migrations.Hook.Context

/-!
# Procedures

What migrations do to the world, as a sequence of atomic steps.  The world is the database, the
files and the clock; every step carries an event that says what it does.  A procedure that is run
by itself takes one step after the other; it can also be run step by step, next to others that act
on the same world.

The main statements say that running and tracing a sequence of two procedures is running and tracing
the first and then the second.
-/

namespace Migrations

/-! ## The world -/

/-- What migrations act on. -/
structure World where
  database : Database := {}
  home : Home := {}
  /-- The successive readings of the clock. -/
  clock : Nat → Instant := fun _ => ⟨0, 0⟩
  /-- How many of the readings were taken. -/
  readings : Nat := 0

/-- What a step does. -/
inductive Event where
  | tryLock (key : Int64)
  | unlock (key : Int64)
  | hasTable (table : String)
  | createTable (table : String)
  | select (table : String)
  | begin
  | execute (sql : String)
  | insert (table : String) (row : Change)
  | delete (table : String) (id : ChangeId)
  | commit
  | rollback
  | hook (slot : HookSlot) (context : HookContext)
  | callback
  | program (path : Path)
  | files
  | clock
  deriving DecidableEq

/-! ## Procedures -/

/-- A sequence of atomic steps with a result.  A step changes the world, and what follows may depend
on the world that the step found. -/
inductive Procedure (α : Type) where
  | done (result : α)
  | step (event : Event) (update : World → World) (next : World → Procedure α)

/-- A procedure that can fail. -/
abbrev Attempt (ε α : Type) := ExceptT ε Procedure α

namespace Procedure

variable {α β γ : Type}

def andThen : Procedure α → (α → Procedure β) → Procedure β
  | done a, f => f a
  | step event update next, f => step event update fun world => andThen (next world) f

instance : Monad Procedure where
  pure := done
  bind := andThen

@[simp] theorem done_bind (a : α) (f : α → Procedure β) : done a >>= f = f a := rfl

@[simp] theorem step_bind (event : Event) (update : World → World) (next : World → Procedure α)
    (f : α → Procedure β) :
    step event update next >>= f = step event update fun world => next world >>= f := rfl

@[simp] theorem pure_eq_done (a : α) : (pure a : Procedure α) = done a := rfl

theorem bind_done (p : Procedure α) : p >>= done = p := by
  induction p with
  | done a => rfl
  | step event update next ih => simp [ih]

theorem bind_bind (p : Procedure α) (f : α → Procedure β) (g : β → Procedure γ) :
    p >>= f >>= g = p >>= fun a => f a >>= g := by
  induction p with
  | done a => rfl
  | step event update next ih => simp [ih]

instance : LawfulMonad Procedure :=
  LawfulMonad.mk' Procedure bind_done (fun _ _ => rfl) bind_bind

/-! ## Steps -/

/-- A step that gives a result and changes the world. -/
def act (event : Event) (f : World → α × World) : Procedure α :=
  step event (fun world => (f world).2) fun world => done (f world).1

def look (event : Event) (f : World → α) : Procedure α := act event fun world => (f world, world)

/-- A step that only says that something happens. -/
def mark (event : Event) : Procedure Unit := look event fun _ => ()

/-! ## Running -/

def run : Procedure α → World → α × World
  | done a, world => (a, world)
  | step _ update next, world => (next world).run (update world)

/-- The events of a procedure that runs by itself. -/
def trace : Procedure α → World → List Event
  | done _, _ => []
  | step event update next, world => event :: (next world).trace (update world)

@[simp] theorem run_done (a : α) (world : World) : (done a).run world = (a, world) := rfl

@[simp] theorem run_act (event : Event) (f : World → α × World) (world : World) :
    (act event f).run world = f world := rfl

@[simp] theorem run_bind (p : Procedure α) (f : α → Procedure β) (world : World) :
    (p >>= f).run world = (f (p.run world).1).run (p.run world).2 := by
  induction p generalizing world with
  | done a => rfl
  | step event update next ih => simp [run, ih]

@[simp] theorem trace_done (a : α) (world : World) : (done a).trace world = [] := rfl

@[simp] theorem trace_act (event : Event) (f : World → α × World) (world : World) :
    (act event f).trace world = [event] := rfl

@[simp] theorem trace_bind (p : Procedure α) (f : α → Procedure β) (world : World) :
    (p >>= f).trace world =
      p.trace world ++ (f (p.run world).1).trace (p.run world).2 := by
  induction p generalizing world with
  | done a => rfl
  | step event update next ih => simp [run, trace, ih]

end Procedure

end Migrations
