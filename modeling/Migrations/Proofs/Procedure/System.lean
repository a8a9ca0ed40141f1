import Migrations.Procedure.Basic

/-!
# Procedures Side by Side

Procedures that act on one world, each of them step by step.  Which of them takes the next step is
not determined, so a run of the system is any sequence of steps; what the run did is recorded as the
sequence of its actions.
-/

namespace Migrations

/-- What is left of procedures that share a world. -/
structure System (α : Type) where
  world : World
  processes : List (Procedure α)

/-- A step that a process took, with the worlds before and after it. -/
structure Action where
  process : Nat
  event : Event
  before : World
  after : World

namespace System

variable {α : Type}

/-- The next step of a process; there is none when the process is done. -/
def step? (system : System α) (i : Nat) : Option (Action × System α) :=
  match system.processes[i]? with
  | some (.step event update next) =>
    some (⟨i, event, system.world, update system.world⟩,
      ⟨update system.world, system.processes.set i (next system.world)⟩)
  | _ => none

/-- The system comes about from another one by the steps of a trace, in any order of the
processes. -/
inductive Runs (start : System α) : List Action → System α → Prop where
  | start : Runs start [] start
  | step {trace : List Action} {system next : System α} {action : Action} {i : Nat}
    (past : Runs start trace system) (h : system.step? i = some (action, next)) :
    Runs start (trace ++ [action]) next

/-- All processes are done. -/
def Finished (system : System α) : Prop := ∀ process ∈ system.processes, ∃ a, process = .done a

instance decidableDone (process : Procedure α) : Decidable (∃ a, process = .done a) :=
  match process with
  | .done a => isTrue ⟨a, rfl⟩
  | .step _ _ _ => isFalse nofun

instance (system : System α) : Decidable system.Finished :=
  inferInstanceAs (Decidable (∀ process ∈ system.processes, ∃ a, process = .done a))

/-- The run in which the processes take their steps in the given order.  A process that is done is
passed over. -/
def schedule (system : System α) : List Nat → List Action × System α
  | [] => ([], system)
  | i :: order =>
    match system.step? i with
    | none => system.schedule order
    | some (action, next) =>
      let (trace, last) := next.schedule order
      (action :: trace, last)

theorem runs_schedule {start system : System α} {trace : List Action} (order : List Nat)
    (past : start.Runs trace system) :
    start.Runs (trace ++ (system.schedule order).1) (system.schedule order).2 := by
  induction order generalizing trace system with
  | nil => simpa [schedule] using past
  | cons i order ih =>
    rw [schedule]
    cases hstep : system.step? i with
    | none => exact ih past
    | some result => simpa using ih (past.step hstep)

theorem step?_eq_some {system next : System α} {action : Action} {i : Nat}
    (h : system.step? i = some (action, next)) :
    ∃ event update rest, system.processes[i]? = some (.step event update rest) ∧
      action = ⟨i, event, system.world, update system.world⟩ ∧
      next = ⟨update system.world, system.processes.set i (rest system.world)⟩ := by
  unfold step? at h
  split at h
  · rename_i event update rest hprocess
    cases h
    exact ⟨event, update, rest, hprocess, rfl, rfl⟩
  · cases h

/-- What is left of the process that takes a step. -/
theorem getElem?_set_same {processes : List (Procedure α)} {i : Nat} {old : Procedure α}
    (h : processes[i]? = some old) (new : Procedure α) : (processes.set i new)[i]? = some new := by
  have hlt := (List.getElem?_eq_some_iff.mp h).1
  rw [List.getElem?_set_self hlt]

end System

end Migrations
