import Migrations.Proofs.Migrator.Steps
import Migrations.Proofs.Procedure.System

/-!
# Operations Side by Side

Operations that run at the same time on one database, under one run lock, in any interleaving of
their steps.  Every step of the system is one of four moves: an operation is refused because the
lock is held, an operation takes the lock, the holder works, or the holder gives the lock back.

## Main statements

- `tracked_of_runs`: every run of the system is made of these moves.
- `Tracked.holds_iff`: the lock is held by the process that took it last and did not give it back.
-/

namespace Migrations

open Procedure

/-! ## Jobs -/

/-- An operation that a migrator is asked for. -/
structure Job where
  migrator : Migrator
  operation : Operation

namespace Job

/-- The steps of the operation. -/
def procedure (job : Job) : Procedure (Except Failure Answer) :=
  (job.operation.perform job.migrator).run

/-- The operation runs under the lock of the key, with hooks that act through their transactions. -/
def Uses (job : Job) (key : Int64) : Prop :=
  job.migrator.settings.lockKey = key ∧ job.migrator.hooks.Confined

/-- An operation that has not begun is not done. -/
theorem procedure_ne_done (job : Job) {answer : Except Failure Answer} :
    job.procedure ≠ .done answer := by
  intro hdone
  rw [procedure, Operation.perform_eq_holding, RunLock.run_holding] at hdone
  cases hdone

end Job

/-- The jobs before the first step of any of them. -/
def launch (jobs : List Job) (world : World) : System (Except Failure Answer) :=
  ⟨world, jobs.map Job.procedure⟩

/-! ## The lock in a trace -/

/-- The action takes the lock. -/
def Action.acquires (key : Int64) (action : Action) : Bool :=
  action.event = .tryLock key ∧ key ∉ action.before.database.locks

/-- The action gives the lock back. -/
def Action.releases (key : Int64) (action : Action) : Bool := action.event = .unlock key

/-- The processes that took the lock, in the order in which they took it. -/
def acquirers (key : Int64) (trace : List Action) : List Nat :=
  (trace.filter (Action.acquires key)).map Action.process

/-- The processes that gave the lock back. -/
def releasers (key : Int64) (trace : List Action) : List Nat :=
  (trace.filter (Action.releases key)).map Action.process

/-- A process is between its successful attempt to take the lock and the end of its work. -/
def Holds (key : Int64) (trace : List Action) (i : Nat) : Prop :=
  i ∈ acquirers key trace ∧ i ∉ releasers key trace

/-! ## Moves -/

/-- What a step of the system can be, given who holds the lock before it and after it. -/
inductive Move (key : Int64) (jobs : List Job) :
    System (Except Failure Answer) → Option Nat → Action → System (Except Failure Answer) →
      Option Nat → Prop where
  /-- A process finds the lock held, and is done. -/
  | refuse {world : World} {processes : List (Procedure (Except Failure Answer))}
    {holder : Option Nat} {i : Nat} {job : Job} (hjob : jobs[i]? = some job)
    (hwaits : processes[i]? = some job.procedure) (hother : holder ≠ some i)
    (hheld : key ∈ world.database.locks) :
    Move key jobs ⟨world, processes⟩ holder ⟨i, .tryLock key, world, world⟩
      ⟨world, processes.set i (.done (.error (.concurrent key)))⟩ holder
  /-- A process takes the lock. -/
  | acquire {world : World} {processes : List (Procedure (Except Failure Answer))} {i : Nat}
    {job : Job} {rest : Procedure (Except Failure Answer)} (hjob : jobs[i]? = some job)
    (hwaits : processes[i]? = some job.procedure) (hfree : key ∉ world.database.locks)
    (hrest : rest.Critical key)
    (hrun : rest.run (RunLock.taken key world) = job.procedure.run world) :
    Move key jobs ⟨world, processes⟩ none ⟨i, .tryLock key, world, RunLock.taken key world⟩
      ⟨RunLock.taken key world, processes.set i rest⟩ (some i)
  /-- The holder of the lock takes a step of its work. -/
  | work {world : World} {processes : List (Procedure (Except Failure Answer))} {i : Nat}
    {event : Event} {update : World → World} {next : World → Procedure (Except Failure Answer)}
    (hprocess : processes[i]? = some (.step event update next)) (hquiet : Quiet event update)
    (hrest : (next world).Critical key) :
    Move key jobs ⟨world, processes⟩ (some i) ⟨i, event, world, update world⟩
      ⟨update world, processes.set i (next world)⟩ (some i)
  /-- The holder of the lock gives it back, and is done. -/
  | release {world : World} {processes : List (Procedure (Except Failure Answer))} {i : Nat}
    {next : World → Procedure (Except Failure Answer)} {answer : Except Failure Answer}
    (hprocess : processes[i]? = some (.step (.unlock key) (RunLock.returned key) next))
    (hnext : next world = .done answer) :
    Move key jobs ⟨world, processes⟩ (some i)
      ⟨i, .unlock key, world, RunLock.returned key world⟩
      ⟨RunLock.returned key world, processes.set i (.done answer)⟩ none

/-- A run that is made of moves, with the process that holds the lock in the end. -/
inductive Tracked (key : Int64) (jobs : List Job) (start : World) :
    List Action → System (Except Failure Answer) → Option Nat → Prop where
  | start : Tracked key jobs start [] (launch jobs start) none
  | move {trace : List Action} {system next : System (Except Failure Answer)} {action : Action}
    {holder holder' : Option Nat} (past : Tracked key jobs start trace system holder)
    (h : Move key jobs system holder action next holder') :
    Tracked key jobs start (trace ++ [action]) next holder'

/-! ## Every step is a move -/

/-- Everyone but the holder has not begun or is done, and the holder does its work under the
lock. -/
structure Controlled (key : Int64) (jobs : List Job) (system : System (Except Failure Answer))
    (holder : Option Nat) : Prop where
  others : ∀ i process, system.processes[i]? = some process → holder ≠ some i →
    (∃ job, jobs[i]? = some job ∧ process = job.procedure) ∨ ∃ answer, process = .done answer
  works : ∀ i, holder = some i → key ∈ system.world.database.locks ∧
    ∃ process, system.processes[i]? = some process ∧ process.Critical key

variable {key : Int64} {jobs : List Job} {start : World}
  {system next : System (Except Failure Answer)} {holder holder' : Option Nat} {action : Action}
  {trace : List Action}

theorem controlled_launch (key : Int64) (jobs : List Job) (world : World) :
    Controlled key jobs (launch jobs world) none where
  others := fun i process hprocess _ => by
    rw [launch, List.getElem?_map] at hprocess
    obtain ⟨job, hjob, rfl⟩ := Option.map_eq_some_iff.mp hprocess
    exact .inl ⟨job, hjob, rfl⟩
  works := fun i hi => by cases hi

/-- A step of a process is one of the moves. -/
theorem Controlled.move (h : Controlled key jobs system holder) (huses : ∀ job ∈ jobs, job.Uses key)
    {i : Nat} (hstep : system.step? i = some (action, next)) :
    ∃ holder', Move key jobs system holder action next holder' := by
  obtain ⟨event, update, rest, hprocess, rfl, rfl⟩ := System.step?_eq_some hstep
  obtain ⟨world, processes⟩ := system
  by_cases hholder : holder = some i
  · subst hholder
    obtain ⟨-, process, hsame, hcritical⟩ := h.works i rfl
    rw [hprocess] at hsame
    cases hsame
    -- the holder works on, or this is its last step
    rcases hcritical with ⟨hquiet, hrest⟩ | ⟨rfl, rfl, hdone⟩
    · exact ⟨some i, .work hprocess hquiet (hrest world)⟩
    · obtain ⟨answer, hanswer⟩ := hdone world
      dsimp only
      rw [hanswer]
      exact ⟨none, .release hprocess hanswer⟩
  · rcases h.others i _ hprocess hholder with ⟨job, hjob, hsame⟩ | ⟨answer, hdone⟩
    · obtain ⟨hkey, hhooks⟩ := huses job (List.mem_of_getElem? hjob)
      obtain ⟨next, hnext, hfirst⟩ := job.operation.run_perform hhooks.quiet hkey
      have hprocedure : job.procedure = .step (.tryLock key) (RunLock.taken key) next := hnext
      rw [hprocedure] at hsame
      cases hsame
      have hwaits : processes[i]? = some job.procedure := by rw [hprocedure]; exact hprocess
      have hrest := hfirst world
      -- the first step of an operation is its attempt to take the lock
      by_cases hheld : key ∈ world.database.locks
      · rw [if_pos hheld] at hrest
        dsimp only
        rw [hrest, RunLock.taken_of_held hheld]
        exact ⟨holder, .refuse hjob hwaits hholder hheld⟩
      · rw [if_neg hheld] at hrest
        -- a holder would hold the lock, which is free
        have hnone : holder = none := by
          cases holder with
          | none => rfl
          | some j => exact absurd (h.works j rfl).1 hheld
        subst hnone
        exact ⟨some i, .acquire hjob hwaits hheld hrest (by rw [hprocedure]; rfl)⟩
    · cases hdone

namespace Move

/-- The processes other than the one that moves stay as they are. -/
theorem others (h : Move key jobs system holder action next holder') {j : Nat}
    (hj : j ≠ action.process) : next.processes[j]? = system.processes[j]? := by
  cases h <;> exact List.getElem?_set_ne (Ne.symm hj)

/-- A process that moves is done afterwards or holds the lock. -/
theorem settles (h : Move key jobs system holder action next holder')
    (hholder : holder' ≠ some action.process) :
    ∃ answer, next.processes[action.process]? = some (.done answer) := by
  cases h with
  | refuse hjob hwaits => exact ⟨_, System.getElem?_set_same hwaits _⟩
  | acquire => exact absurd rfl hholder
  | work => exact absurd rfl hholder
  | release hprocess => exact ⟨_, System.getElem?_set_same hprocess _⟩

/-- Only the process that moves can begin or cease to hold the lock. -/
theorem holder_iff (h : Move key jobs system holder action next holder') {j : Nat}
    (hj : j ≠ action.process) : holder' = some j ↔ holder = some j := by
  cases h with
  | refuse => exact Iff.rfl
  | acquire => simpa using Ne.symm hj
  | work => exact Iff.rfl
  | release => simpa using Ne.symm hj

/-- After a step of the holder, it holds the lock or nobody does. -/
theorem holder_of_holder (h : Move key jobs system holder action next holder')
    (hholder : holder = some action.process) :
    holder' = some action.process ∨ holder' = none := by
  cases h with
  | refuse hjob hwaits hother => exact absurd hholder hother
  | acquire => cases hholder
  | work => exact .inl rfl
  | release => exact .inr rfl

/-- Nobody held the lock before a step that takes it. -/
theorem holder_of_taken (h : Move key jobs system holder action next holder')
    (hholder : holder ≠ some action.process) (hholder' : holder' = some action.process) :
    holder = none := by
  cases h with
  | refuse => exact absurd hholder' hholder
  | acquire => rfl
  | work => exact absurd rfl hholder
  | release => cases hholder'

/-- A process that moves was not done. -/
theorem not_done (h : Move key jobs system holder action next holder')
    (answer : Except Failure Answer) :
    system.processes[action.process]? ≠ some (.done answer) := by
  intro hdone
  cases h with
  | refuse hjob hwaits => exact Job.procedure_ne_done _ (Option.some.inj (hwaits.symm.trans hdone))
  | acquire hjob hwaits => exact Job.procedure_ne_done _ (Option.some.inj (hwaits.symm.trans hdone))
  | work hprocess => cases hprocess.symm.trans hdone
  | release hprocess => cases hprocess.symm.trans hdone

/-- The lock is taken by the move after which it is held and before which it was not. -/
theorem acquires_iff (h : Move key jobs system holder action next holder') :
    action.acquires key = true ↔ holder = none ∧ holder' = some action.process := by
  cases h with
  | refuse hjob hwaits hother hheld => simpa [Action.acquires, hheld] using fun _ => hother
  | acquire hjob hwaits hfree => simp [Action.acquires, hfree]
  | work hprocess hquiet => simp [Action.acquires, (hquiet.1 key).1]
  | release => simp [Action.acquires]

theorem releases_iff (h : Move key jobs system holder action next holder') :
    action.releases key = true ↔ holder = some action.process ∧ holder' = none := by
  cases h with
  | refuse hjob hwaits hother => simp [Action.releases, hother]
  | acquire => simp [Action.releases]
  | work hprocess hquiet => simp [Action.releases, (hquiet.1 key).2]
  | release => simp [Action.releases]

end Move

theorem Controlled.preserved (h : Controlled key jobs system holder)
    (hmove : Move key jobs system holder action next holder') :
    Controlled key jobs next holder' where
  others := fun j process hprocess hother => by
    -- the process that moved does not hold the lock now, so it is done; the others did not change
    by_cases hj : j = action.process
    · subst hj
      obtain ⟨answer, hdone⟩ := hmove.settles hother
      rw [hdone] at hprocess
      cases hprocess
      exact .inr ⟨answer, rfl⟩
    · rw [hmove.others hj] at hprocess
      exact h.others j process hprocess fun hholder => hother ((hmove.holder_iff hj).mpr hholder)
  works := fun j hholder => by
    cases hmove with
    | @refuse world processes holder i job hjob hwaits hother hheld =>
      obtain ⟨-, process, hprocess, hcritical⟩ := h.works j hholder
      -- the process that is refused is not the holder, which keeps the lock and what is left to do
      have hij : i ≠ j := fun hij => hother (hij ▸ hholder)
      exact ⟨hheld, process, (List.getElem?_set_ne hij).trans hprocess, hcritical⟩
    | acquire hjob hwaits hfree hrest hrun =>
      cases hholder
      exact ⟨RunLock.mem_locks_taken _ _, _, System.getElem?_set_same hwaits _, hrest⟩
    | work hprocess hquiet hrest =>
      cases hholder
      refine ⟨?_, _, System.getElem?_set_same hprocess _, hrest⟩
      -- the work leaves the lock with its holder
      have hheld := (h.works _ rfl).1
      rwa [(hquiet.2 _).1]
    | release => cases hholder

/-- When all processes are done, nobody holds the lock. -/
theorem Controlled.free_of_finished (h : Controlled key jobs system holder)
    (hfinished : system.Finished) : holder = none := by
  cases holder with
  | none => rfl
  | some i =>
    obtain ⟨-, process, hprocess, hcritical⟩ := h.works i rfl
    obtain ⟨answer, rfl⟩ := hfinished process (List.mem_of_getElem? hprocess)
    exact hcritical.elim

/-- Every run of the system is made of moves. -/
theorem tracked_of_runs (huses : ∀ job ∈ jobs, job.Uses key)
    (hruns : (launch jobs start).Runs trace system) :
    ∃ holder, Tracked key jobs start trace system holder ∧ Controlled key jobs system holder := by
  induction hruns with
  | start => exact ⟨none, .start, controlled_launch key jobs start⟩
  | step past hstep ih =>
    obtain ⟨holder, htracked, hcontrolled⟩ := ih
    obtain ⟨holder', hmove⟩ := hcontrolled.move huses hstep
    exact ⟨holder', .move htracked hmove, hcontrolled.preserved hmove⟩

/-! ## The holder -/

theorem mem_of_mem_concat {a : Action} (ha : a ∈ trace ++ [action])
    (hother : a.process ≠ action.process) : a ∈ trace := by
  rcases List.mem_append.mp ha with hold | hnew
  · exact hold
  · exact absurd (congrArg Action.process (List.mem_singleton.mp hnew)) hother

theorem acquirers_concat (key : Int64) (trace : List Action) (action : Action) :
    acquirers key (trace ++ [action]) =
      acquirers key trace ++ if action.acquires key then [action.process] else [] := by
  rw [acquirers, acquirers, List.filter_append, List.map_append]
  cases h : action.acquires key <;> simp [h]

theorem mem_acquirers_concat {i : Nat} :
    i ∈ acquirers key (trace ++ [action]) ↔
      i ∈ acquirers key trace ∨ (action.acquires key = true ∧ action.process = i) := by
  rw [acquirers_concat, List.mem_append]
  cases h : action.acquires key with
  | false => simp
  | true => simp [eq_comm]

theorem mem_releasers_concat {i : Nat} :
    i ∈ releasers key (trace ++ [action]) ↔
      i ∈ releasers key trace ∨ (action.releases key = true ∧ action.process = i) := by
  rw [releasers, releasers, List.filter_append, List.map_append, List.mem_append]
  cases h : action.releases key with
  | false => simp [h]
  | true =>
    rw [List.filter_cons_of_pos h, List.filter_nil, List.map_singleton, List.mem_singleton, eq_comm]
    simp only [true_and]

namespace Tracked

/-- A process that took a step holds the lock or is done. -/
theorem done_or_holder (h : Tracked key jobs start trace system holder) :
    ∀ a ∈ trace, holder = some a.process ∨
      ∃ answer, system.processes[a.process]? = some (.done answer) := by
  induction h with
  | start => exact fun a ha => nomatch ha
  | @move trace system next action holder holder' past hmove ih =>
    intro a ha
    -- the process of the last step holds the lock or is done by that step; others are as before
    by_cases hsame : a.process = action.process
    · rw [hsame]
      by_cases hholder : holder' = some action.process
      · exact .inl hholder
      · exact .inr (hmove.settles hholder)
    · rw [hmove.others hsame, hmove.holder_iff hsame]
      exact ih a (mem_of_mem_concat ha hsame)

/-- A process that does not hold the lock has taken no step before it moves. -/
theorem fresh (h : Tracked key jobs start trace system holder)
    (hmove : Move key jobs system holder action next holder')
    (hholder : holder ≠ some action.process) : ∀ a ∈ trace, a.process ≠ action.process := by
  intro a ha hsame
  rcases h.done_or_holder a ha with hother | ⟨answer, hdone⟩
  · exact hholder (hsame ▸ hother)
  · exact hmove.not_done answer (hsame ▸ hdone)

theorem not_acquired (h : Tracked key jobs start trace system holder)
    (hmove : Move key jobs system holder action next holder')
    (hholder : holder ≠ some action.process) : action.process ∉ acquirers key trace := by
  intro hmem
  obtain ⟨a, ha, hsame⟩ := List.mem_map.mp hmem
  exact h.fresh hmove hholder a (List.mem_filter.mp ha).1 hsame

theorem not_released (h : Tracked key jobs start trace system holder)
    (hmove : Move key jobs system holder action next holder')
    (hholder : holder ≠ some action.process) : action.process ∉ releasers key trace := by
  intro hmem
  obtain ⟨a, ha, hsame⟩ := List.mem_map.mp hmem
  exact h.fresh hmove hholder a (List.mem_filter.mp ha).1 hsame

/-- The process that holds the lock by the moves is the one that holds it by the trace. -/
theorem holds_iff (h : Tracked key jobs start trace system holder) (i : Nat) :
    Holds key trace i ↔ holder = some i := by
  induction h with
  | start => simp [Holds, acquirers]
  | @move trace system next action holder holder' past hmove ih =>
    unfold Holds at ih ⊢
    rw [mem_acquirers_concat, mem_releasers_concat, hmove.acquires_iff, hmove.releases_iff]
    by_cases hsame : i = action.process
    · subst hsame
      by_cases hholder : holder = some action.process
      · -- the holder still holds the lock unless this is the step that gives it back
        obtain ⟨hacquired, hreleased⟩ := ih.mpr hholder
        rcases hmove.holder_of_holder hholder with rfl | rfl
        · simp [hacquired, hreleased]
        · simp [hholder]
      · -- a process that did not hold the lock begins to when this step takes it
        have htaken := hmove.holder_of_taken hholder
        simp only [past.not_acquired hmove hholder, past.not_released hmove hholder, hholder,
          false_or, false_and, and_true, not_false_eq_true]
        exact ⟨fun h => h.2, fun h => ⟨htaken h, h⟩⟩
    · rw [hmove.holder_iff hsame, ← ih]
      simp [Ne.symm hsame]

end Tracked

end Migrations
