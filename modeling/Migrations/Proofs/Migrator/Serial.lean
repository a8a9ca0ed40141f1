import Migrations.Proofs.Migrator.Interleaving

/-!
# One Operation after the Other

Operations that run side by side under one run lock come to what those of them that get the lock
come to one after the other, in the order in which they get it.  While the lock is held the world is
the holder's alone: what is left of its operation ends as the whole operation would have ended after
the ones before it.

## Main statements

- `Tracked.undisturbed`: between two steps of an operation, the others are refused.
- `Tracked.sequential`: how far a run has come in the sequence of its operations.
- `serialised_of_runs`: what follows for whole runs.
-/

namespace Migrations

open Procedure

variable {key : Int64} {jobs : List Job} {start : World}
  {system next : System (Except Failure Answer)} {holder holder' : Option Nat} {action : Action}
  {trace : List Action}

/-! ## Refusals -/

/-- The action is a vain attempt to take the lock, which changes nothing. -/
def Action.Refused (key : Int64) (action : Action) : Prop :=
  action.event = .tryLock key ∧ key ∈ action.before.database.locks ∧ action.after = action.before

namespace Move

/-- A process that moves while another one holds the lock is refused. -/
theorem refused_of_holder (h : Move key jobs system holder action next holder') {i : Nat}
    (hholder : holder = some i) (hi : action.process ≠ i) : action.Refused key := by
  cases h with
  | refuse hjob hwaits hother hheld => exact ⟨rfl, hheld, rfl⟩
  | acquire => cases hholder
  | work => exact absurd (Option.some.inj hholder) hi
  | release => exact absurd (Option.some.inj hholder) hi

/-- A process that moves without the lock, and does not take it, is refused. -/
theorem refused_of_outside (h : Move key jobs system holder action next holder')
    (hholder : holder ≠ some action.process) (hacquires : action.acquires key = false) :
    action.Refused key ∧
      next.processes[action.process]? = some (.done (.error (.concurrent key))) := by
  cases h with
  | refuse hjob hwaits hother hheld =>
    exact ⟨⟨rfl, hheld, rfl⟩, System.getElem?_set_same hwaits _⟩
  | acquire hjob hwaits hfree => simp [Action.acquires, hfree] at hacquires
  | work => exact absurd rfl hholder
  | release => exact absurd rfl hholder

/-- A process that holds the lock is not done. -/
theorem not_done_of_holder (h : Move key jobs system holder action next holder')
    (hholder : holder' = some action.process) (answer : Except Failure Answer) :
    next.processes[action.process]? ≠ some (.done answer) := by
  intro hdone
  cases h with
  | refuse hjob hwaits hother => exact hother hholder
  | acquire hjob hwaits hfree hrest =>
    rw [System.getElem?_set_same hwaits] at hdone
    rw [Option.some.inj hdone] at hrest
    exact hrest
  | work hprocess hquiet hrest =>
    rw [System.getElem?_set_same hprocess] at hdone
    rw [Option.some.inj hdone] at hrest
    exact hrest
  | release => cases hholder

theorem run_unlock {rest : World → Procedure (Except Failure Answer)} {world : World}
    {answer : Except Failure Answer} (h : rest world = .done answer) :
    (step (.unlock key) (RunLock.returned key) rest).run world =
      (answer, RunLock.returned key world) := by
  rw [Procedure.run, h, Procedure.run]

/-- The last step of the holder is all that was left of its operation. -/
theorem run_of_done (h : Move key jobs system holder action next holder')
    (hholder : holder = some action.process) {process : Procedure (Except Failure Answer)}
    (hprocess : system.processes[action.process]? = some process) {answer : Except Failure Answer}
    (hdone : next.processes[action.process]? = some (.done answer)) :
    process.run system.world = (answer, next.world) := by
  rcases h.holder_of_holder hholder with hstill | hnone
  · exact absurd hdone (h.not_done_of_holder hstill answer)
  · cases h with
    | refuse hjob hwaits hother => exact absurd hholder hother
    | acquire => cases hnone
    | work => cases hnone
    | release hsame hnext =>
      cases hsame.symm.trans hprocess
      cases (System.getElem?_set_same hsame _).symm.trans hdone
      exact run_unlock hnext

end Move

namespace Tracked

/-- A process that takes another step holds the lock. -/
theorem holder_of_again (h : Tracked key jobs start trace system holder)
    (hmove : Move key jobs system holder action next holder') {a : Action} (ha : a ∈ trace)
    (hsame : a.process = action.process) : holder = some a.process := by
  by_cases hholder : holder = some a.process
  · exact hholder
  · exact absurd hsame (h.fresh hmove (hsame ▸ hholder) a ha)

/-- Since the holder took a step, the other processes were refused. -/
theorem alone (h : Tracked key jobs start trace system holder) :
    ∀ first a middle, trace = first ++ a :: middle → holder = some a.process →
      ∀ c ∈ middle, c.process ≠ a.process → c.Refused key := by
  induction h with
  | start => exact fun first a middle htrace => absurd htrace.symm (by simp)
  | @move trace system next action holder holder' past hmove ih =>
    intro first a middle htrace hholder c hc hother
    -- the step in question is the last one, or an earlier one that the trace had before
    obtain rfl | ⟨earlier, last, rfl⟩ := middle.eq_nil_or_concat
    · cases hc
    · have hsplit : trace ++ [action] = (first ++ a :: earlier) ++ [last] := by
        simpa using htrace
      obtain ⟨rfl, hlast⟩ := List.append_inj' hsplit rfl
      cases hlast
      -- the holder now was the holder before, for it had taken a step already
      have hbefore : holder = some a.process := by
        by_cases hsame : a.process = action.process
        · exact past.holder_of_again hmove (by simp) hsame
        · exact (hmove.holder_iff hsame).mp hholder
      rw [List.concat_eq_append] at hc
      rcases List.mem_append.mp hc with hold | hnew
      · exact ih first a earlier rfl hbefore c hold hother
      · cases List.mem_singleton.mp hnew
        exact hmove.refused_of_holder hbefore hother

/-- Between two steps of an operation, the other operations are refused. -/
theorem undisturbed (h : Tracked key jobs start trace system holder) :
    ∀ first a middle b last, trace = first ++ a :: middle ++ b :: last → a.process = b.process →
      ∀ c ∈ middle, c.process ≠ a.process → c.Refused key := by
  induction h with
  | start => exact fun first a middle b last htrace => absurd htrace.symm (by simp)
  | @move trace system next action holder holder' past hmove ih =>
    intro first a middle b last htrace hsame
    -- the second of the two steps is the last one of the trace, or one before it
    obtain rfl | ⟨earlier, final, rfl⟩ := last.eq_nil_or_concat
    · obtain ⟨rfl, hlast⟩ := List.append_inj' htrace rfl
      cases hlast
      exact past.alone first a middle rfl (past.holder_of_again hmove (by simp) hsame)
    · have hsplit : trace ++ [action] = (first ++ a :: middle ++ b :: earlier) ++ [final] := by
        simpa using htrace
      obtain ⟨rfl, -⟩ := List.append_inj' hsplit rfl
      exact ih first a middle b earlier rfl hsame

/-- An operation that does not get the lock is refused and answers that it was. -/
theorem refused (h : Tracked key jobs start trace system holder) :
    ∀ a ∈ trace, a.process ∉ acquirers key trace →
      a.Refused key ∧ system.processes[a.process]? = some (.done (.error (.concurrent key))) := by
  induction h with
  | start => exact fun a ha => nomatch ha
  | @move trace system next action holder holder' past hmove ih =>
    intro a ha hout
    rw [mem_acquirers_concat, not_or] at hout
    by_cases hsame : a.process = action.process
    -- the process did not get the lock, so this is its first step, and it is refused by it
    · have hholder : holder ≠ some action.process := by
        intro hholder
        exact hout.1 (hsame ▸ ((past.holds_iff _).mpr hholder).1)
      have hnew : a = action := by
        rcases List.mem_append.mp ha with hold | hnew
        · exact absurd hsame (past.fresh hmove hholder a hold)
        · exact List.mem_singleton.mp hnew
      subst hnew
      exact hmove.refused_of_outside hholder (by simpa using hout.2)
    · rw [hmove.others hsame]
      exact ih a (mem_of_mem_concat ha hsame) hout.1

/-- The operation of a process that took the lock and becomes done held the lock until then. -/
theorem holder_of_acquired (h : Tracked key jobs start trace system holder)
    (hmove : Move key jobs system holder action next holder')
    (hacquired : action.process ∈ acquirers key (trace ++ [action]))
    {answer : Except Failure Answer}
    (hdone : next.processes[action.process]? = some (.done answer)) :
    holder = some action.process := by
  rcases mem_acquirers_concat.mp hacquired with hold | ⟨hnew, -⟩
  · by_cases hholder : holder = some action.process
    · exact hholder
    · exact absurd hold (h.not_acquired hmove hholder)
  · exact absurd hdone (hmove.not_done_of_holder (hmove.acquires_iff.mp hnew).2 answer)

/-- A process that took no step is as it was launched. -/
theorem unmoved (h : Tracked key jobs start trace system holder) {i : Nat}
    (hi : ∀ a ∈ trace, a.process ≠ i) :
    system.processes[i]? = (launch jobs start).processes[i]? := by
  induction h with
  | start => rfl
  | @move trace system next action holder holder' past hmove ih =>
    rw [hmove.others (hi action (by simp)).symm]
    exact ih fun a ha => hi a (List.mem_append_left _ ha)

/-- An operation that is done without the lock was refused. -/
theorem refused_of_done (h : Tracked key jobs start trace system holder) {i : Nat}
    (hi : i ∉ acquirers key trace) {answer : Except Failure Answer}
    (hdone : system.processes[i]? = some (.done answer)) :
    answer = .error (.concurrent key) := by
  by_cases hmoved : ∃ a ∈ trace, a.process = i
  · obtain ⟨a, ha, rfl⟩ := hmoved
    cases (h.refused a ha hi).2.symm.trans hdone
    rfl
  · rw [h.unmoved fun a ha hsame => hmoved ⟨a, ha, hsame⟩, launch, List.getElem?_map] at hdone
    obtain ⟨job, -, hjob⟩ := Option.map_eq_some_iff.mp hdone
    exact absurd hjob job.procedure_ne_done

end Tracked

/-! ## The sequence of the operations -/

/-- The world after the jobs at these positions, one after the other. -/
def serial (jobs : List Job) (world : World) (order : List Nat) : World :=
  order.foldl (fun world i =>
    match jobs[i]? with
    | some job => (job.procedure.run world).2
    | none => world) world

theorem serial_concat (jobs : List Job) (world : World) (order : List Nat) {i : Nat} {job : Job}
    (hjob : jobs[i]? = some job) :
    serial jobs world (order ++ [i]) = (job.procedure.run (serial jobs world order)).2 := by
  rw [serial, List.foldl_append]
  simp only [List.foldl_cons, List.foldl_nil, hjob]
  rfl

/-- How far a run has come in the sequence of its operations: when nobody holds the lock, the
operations that took it have been run; else the last of them is at a point from where it ends as it
would have ended. -/
def Sequential (key : Int64) (jobs : List Job) (start : World) (trace : List Action)
    (system : System (Except Failure Answer)) : Option Nat → Prop
  | none => system.world = serial jobs start (acquirers key trace)
  | some i => ∃ earlier job process, acquirers key trace = earlier ++ [i] ∧ jobs[i]? = some job ∧
      system.processes[i]? = some process ∧
        process.run system.world = job.procedure.run (serial jobs start earlier)

namespace Tracked

/-- A run keeps to the sequence of its operations. -/
theorem sequential (h : Tracked key jobs start trace system holder) :
    Sequential key jobs start trace system holder := by
  induction h with
  | start => rfl
  | @move trace system next action holder holder' past hmove ih =>
    have hacquirers := acquirers_concat key trace action
    have hacquires := hmove.acquires_iff
    cases hmove with
    | @refuse world processes holder i job hjob hwaits hother hheld =>
      rw [if_neg (fun h => hother (hacquires.mp h).2), List.append_nil] at hacquirers
      cases holder with
      | none =>
        show world = _
        rw [hacquirers]
        exact ih
      | some j =>
        obtain ⟨earlier, job, process, hbefore, hjob, hprocess, hrun⟩ := ih
        -- the holder does not move, and the world stays as it is
        have hij : i ≠ j := fun hij => hother (congrArg some hij.symm)
        exact ⟨earlier, job, process, hacquirers.trans hbefore, hjob,
          (List.getElem?_set_ne hij).trans hprocess, hrun⟩
    | acquire hjob hwaits hfree hrest hrun =>
      rw [if_pos (hacquires.mpr ⟨rfl, rfl⟩)] at hacquirers
      -- the operation begins in the world that the ones before it left
      exact ⟨_, _, _, hacquirers, hjob, System.getElem?_set_same hwaits _,
        hrun.trans (congrArg _ ih)⟩
    | work hprocess hquiet hrest =>
      rw [if_neg (fun h => by cases (hacquires.mp h).1), List.append_nil] at hacquirers
      obtain ⟨earlier, job, process, hbefore, hjob, hsame, hrun⟩ := ih
      -- a step of the work does not change how what is left of it ends
      cases hprocess.symm.trans hsame
      exact ⟨earlier, job, _, hacquirers.trans hbefore, hjob,
        System.getElem?_set_same hprocess _, hrun⟩
    | @release world processes i after answer hprocess hnext =>
      rw [if_neg (fun h => by cases (hacquires.mp h).1), List.append_nil] at hacquirers
      obtain ⟨earlier, job, process, hbefore, hjob, hsame, hrun⟩ := ih
      cases hprocess.symm.trans hsame
      -- nothing is left to do, so the world is the one in which the operation ends
      show RunLock.returned key world = _
      rw [hacquirers, hbefore, serial_concat jobs start earlier hjob, ← hrun, Move.run_unlock hnext]

/-- An operation that got the lock and is done answers what it answers after the ones before it. -/
theorem answers (h : Tracked key jobs start trace system holder) :
    ∀ i ∈ acquirers key trace, ∀ answer, system.processes[i]? = some (.done answer) →
      ∃ earlier later job, acquirers key trace = earlier ++ i :: later ∧ jobs[i]? = some job ∧
        answer = (job.procedure.run (serial jobs start earlier)).1 := by
  induction h with
  | start => exact fun i hi => nomatch hi
  | @move trace system next action holder holder' past hmove ih =>
    intro i hi answer hdone
    by_cases hsame : i = action.process
    · -- this step gives the lock back, and the operation answers what is left of it answers
      subst hsame
      have hholder := past.holder_of_acquired hmove hi hdone
      subst hholder
      obtain ⟨earlier, job, process, hbefore, hjob, hprocess, hrun⟩ := past.sequential
      have hacquirers := acquirers_concat key trace action
      rw [if_neg (fun h => by cases (hmove.acquires_iff.mp h).1), List.append_nil] at hacquirers
      refine ⟨earlier, [], job, hacquirers.trans hbefore, hjob, ?_⟩
      rw [← hrun, hmove.run_of_done rfl hprocess hdone]
    · rw [hmove.others hsame] at hdone
      have hold : i ∈ acquirers key trace := by
        rcases mem_acquirers_concat.mp hi with hold | ⟨-, hnew⟩
        · exact hold
        · exact absurd hnew.symm hsame
      obtain ⟨earlier, later, job, hsplit, hjob, hanswer⟩ := ih i hold answer hdone
      rw [acquirers_concat, hsplit, List.append_assoc, List.cons_append]
      exact ⟨earlier, _, job, rfl, hjob, hanswer⟩

/-- An operation takes the lock at most once. -/
theorem nodup_acquirers (h : Tracked key jobs start trace system holder) :
    (acquirers key trace).Nodup := by
  induction h with
  | start => exact List.nodup_nil
  | @move trace system next action holder holder' past hmove ih =>
    rw [acquirers_concat]
    cases hacquires : action.acquires key with
    | false => simpa using ih
    | true =>
      have hfree := (hmove.acquires_iff.mp hacquires).1
      -- the process that takes the lock takes its first step, so it did not take the lock before
      have hnew := past.not_acquired hmove (by rw [hfree]; nofun)
      rw [if_pos rfl]
      refine List.nodup_append.mpr ⟨ih, by simp, ?_⟩
      rintro i hi _ hj rfl
      rw [List.mem_singleton.mp hj] at hi
      exact hnew hi

/-! ## A lock that is stuck -/

theorem lockStuck_eq (h : Tracked key jobs start trace system holder) :
    system.world.database.lockStuck = start.database.lockStuck := by
  induction h with
  | start => rfl
  | @move trace system next action holder holder' past hmove ih =>
    rw [← ih]
    cases hmove with
    | refuse => rfl
    | acquire => exact RunLock.lockStuck_taken _ _
    | work hprocess hquiet => exact (hquiet.2 _).2
    | release => exact RunLock.lockStuck_returned _ _

/-- A lock that is stuck stays held once it is taken, and nobody else gets it. -/
theorem acquirers_of_stuck (h : Tracked key jobs start trace system holder)
    (hstuck : start.database.lockStuck = true) :
    acquirers key trace = [] ∨
      ∃ i, acquirers key trace = [i] ∧ key ∈ system.world.database.locks := by
  induction h with
  | start => exact .inl rfl
  | @move trace system next action holder holder' past hmove ih =>
    have hworld := past.lockStuck_eq.trans hstuck
    rw [acquirers_concat]
    cases hmove with
    | refuse hjob hwaits hother hheld => simpa [Action.acquires, hheld] using ih
    | @acquire world processes i job rest hjob hwaits hfree =>
      -- the lock was free, so nobody took it before
      rcases ih with hnobody | ⟨j, -, hheld⟩
      · rw [hnobody]
        exact .inr ⟨i, by simp [Action.acquires, hfree], RunLock.mem_locks_taken _ _⟩
      · exact absurd hheld hfree
    | work hprocess hquiet =>
      rw [(hquiet.2 _).1]
      simpa [Action.acquires, (hquiet.1 key).1] using ih
    | release => simpa [Action.acquires, RunLock.returned_of_stuck hworld] using ih

end Tracked

/-! ## Whole runs -/

/-- What a run of operations side by side comes to, compared with the operations that got the lock
one after the other. -/
structure Serialised (key : Int64) (jobs : List Job) (start : World) (trace : List Action)
    (system : System (Except Failure Answer)) : Prop where
  /-- No two operations hold the lock. -/
  exclusive : ∀ i j, Holds key trace i → Holds key trace j → i = j
  /-- Between two steps of an operation that got the lock, the others are refused and change
  nothing. -/
  undisturbed : ∀ first a middle b last, trace = first ++ a :: middle ++ b :: last →
    a.process = b.process → ∀ c ∈ middle, c.process ≠ a.process → c.Refused key
  /-- The only step of an operation that does not get the lock is the vain attempt to take it, after
  which it is done. -/
  refused : ∀ a ∈ trace, a.process ∉ acquirers key trace →
    a.Refused key ∧ system.processes[a.process]? = some (.done (.error (.concurrent key)))
  /-- An operation that is done without the lock answers that another one runs. -/
  concurrent : ∀ i ∉ acquirers key trace, ∀ answer,
    system.processes[i]? = some (.done answer) → answer = .error (.concurrent key)
  /-- No operation gets the lock twice. -/
  once : (acquirers key trace).Nodup
  /-- An operation that got the lock answers what it answers after the ones before it. -/
  answers : ∀ i ∈ acquirers key trace, ∀ answer, system.processes[i]? = some (.done answer) →
    ∃ earlier later job, acquirers key trace = earlier ++ i :: later ∧ jobs[i]? = some job ∧
      answer = (job.procedure.run (serial jobs start earlier)).1
  /-- While nobody holds the lock, the world is the one after the operations that got it. -/
  idle : (∀ i, ¬Holds key trace i) → system.world = serial jobs start (acquirers key trace)
  /-- In the end nobody holds the lock. -/
  finished : system.Finished → ∀ i, ¬Holds key trace i
  /-- A lock that is stuck stays held once it is taken, and nobody else gets it. -/
  stuck : start.database.lockStuck = true → acquirers key trace = [] ∨
    ∃ i, acquirers key trace = [i] ∧ key ∈ system.world.database.locks

/-- Operations that run side by side under one run lock come to what the ones that get the lock come
to one after the other. -/
theorem serialised_of_runs (huses : ∀ job ∈ jobs, job.Uses key)
    (hruns : (launch jobs start).Runs trace system) :
    Serialised key jobs start trace system := by
  obtain ⟨holder, htracked, hcontrolled⟩ := tracked_of_runs huses hruns
  have hholds := htracked.holds_iff
  exact {
    exclusive := fun i j hi hj =>
      Option.some.inj (((hholds i).mp hi).symm.trans ((hholds j).mp hj))
    undisturbed := htracked.undisturbed
    refused := htracked.refused
    concurrent := fun i hi answer => htracked.refused_of_done hi
    once := htracked.nodup_acquirers
    answers := htracked.answers
    idle := fun hidle => by
      have hfree : holder = none := by
        cases holder with
        | none => rfl
        | some i => exact absurd ((hholds i).mpr rfl) (hidle i)
      subst hfree
      exact htracked.sequential
    finished := fun hfinished i hi => by
      have hfree := hcontrolled.free_of_finished hfinished
      cases hfree.symm.trans ((hholds i).mp hi)
    stuck := htracked.acquirers_of_stuck }

/-- A world with one script, which can be undone. -/
private def oneChange : World where
  home := ⟨[(["scripts"], .folder),
    (["scripts", "1_first.sql"], .file "create a;\n-- //@UNDO\ndrop a;".toUTF8 false)]⟩

/-- A migrator without hooks. -/
private def hookless : Migrator where
  layout := .below ⟨""⟩
  settings := {}
  folder := { dir := ⟨"scripts"⟩ }
  hooks := { layout := default }

/-- An operation that begins after another one took the lock is refused; one that begins after the
lock was given back is not. -/
theorem serialised_of_runs_threeJobs :
    let key := hookless.settings.lockKey
    let jobs := [Job.mk hookless (.up .latest), ⟨hookless, .up .latest⟩, ⟨hookless, .down .latest⟩]
    let order := 0 :: 1 :: (List.replicate 30 0 ++ List.replicate 30 2)
    let (trace, system) := (launch jobs oneChange).schedule order
    (acquirers key trace = [0, 2] ∧ system.Finished) ∧
      Serialised key jobs oneChange trace system := by
  intro key jobs order
  have huses : ∀ job ∈ jobs, job.Uses key := by
    intro job hjob
    have hmigrator : job.migrator = hookless := by
      simp only [jobs, List.mem_cons, List.not_mem_nil, or_false] at hjob
      rcases hjob with rfl | rfl | rfl <;> rfl
    rw [Job.Uses, hmigrator]
    exact ⟨rfl, fun slot hook hfind => by cases hfind⟩
  exact ⟨by decide +kernel, serialised_of_runs huses (System.runs_schedule order .start)⟩

end Migrations
