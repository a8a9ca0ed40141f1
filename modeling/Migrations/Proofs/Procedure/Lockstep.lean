import Migrations.Proofs.Procedure.Ending

/-!
# Attempts in Lockstep

Two attempts are in lockstep when they call the same hooks and execute the same statements, in the
same order, and when both succeed or both fail.  What they do otherwise need not be the same: one of
them can start and commit transactions where the other does nothing.

## Main statements

- `lockstep_bind`: sequences of attempts in lockstep are in lockstep.
- `lockstep_inTransaction_left`: work in a transaction of its own can be in lockstep with work that
  has none.
- `lockstep_executeAll`: the same statements are in lockstep where the same of them fail.
-/

namespace Migrations

/-! ## Calls -/

/-- Whether an event is the call of a hook or the execution of a statement. -/
def Event.isCall : Event → Bool
  | hook _ _ => true
  | execute _ => true
  | _ => false

/-- The calls that a procedure makes when it runs by itself. -/
def Procedure.calls {α : Type} (procedure : Procedure α) (world : World) : List Event :=
  (procedure.trace world).filter Event.isCall

@[simp] theorem Procedure.calls_bind {α β : Type} (procedure : Procedure α)
    (f : α → Procedure β) (world : World) :
    (procedure >>= f).calls world =
      procedure.calls world ++ (f (procedure.run world).1).calls (procedure.run world).2 := by
  simp [calls]

/-- A step that is no call leaves the calls to what follows. -/
theorem Procedure.calls_step {α : Type} {event : Event} (h : event.isCall = false)
    (update : World → World) (next : World → Procedure α) (world : World) :
    (step event update next).calls world = (next world).calls (update world) := by
  unfold calls
  rw [trace, List.filter_cons, if_neg (by simp [h])]

namespace Attempt

variable {ε δ α β γ κ : Type}

/-! ## Lockstep -/

/-- The attempts make the same calls, and both of them succeed with `ok` or both fail with
`error`. -/
def Lockstep (first : Attempt ε α) (world : World) (second : Attempt δ β) (other : World)
    (ok : α → World → β → World → Prop) (error : ε → World → δ → World → Prop) : Prop :=
  first.run.calls world = second.run.calls other ∧
    match first.run.run world, second.run.run other with
    | (.ok a, after), (.ok b, last) => ok a after b last
    | (.error fault, after), (.error other, last) => error fault after other last
    | _, _ => False

variable {world other : World} {ok : α → World → β → World → Prop}
  {error : ε → World → δ → World → Prop}

theorem Lockstep.mono {first : Attempt ε α} {second : Attempt δ β}
    {ok' : α → World → β → World → Prop} {error' : ε → World → δ → World → Prop}
    (h : Lockstep first world second other ok error)
    (hok : ∀ a after b last, ok a after b last → ok' a after b last)
    (herror : ∀ fault after fault' last, error fault after fault' last →
      error' fault after fault' last) :
    Lockstep first world second other ok' error' := by
  refine ⟨h.1, ?_⟩
  have hends := h.2
  split at hends
  · exact hok _ _ _ _ hends
  · exact herror _ _ _ _ hends
  · exact hends.elim

/-- When the second attempt succeeds, so does the first. -/
theorem Lockstep.reaches_left {first : Attempt ε α} {second : Attempt δ β} {last : World}
    {P : World → World → Prop} (h : Lockstep first world second other ok error)
    (hok : ∀ a after b last, ok a after b last → P after last)
    (hsecond : Reaches second other last) : ∃ after, Reaches first world after ∧ P after last := by
  obtain ⟨b, hrun⟩ := reaches_iff.mp hsecond
  have hends := h.2
  rw [hrun] at hends
  split at hends
  · rename_i a after b last hfirst hlast
    cases hlast
    exact ⟨after, reaches_iff.mpr ⟨a, hfirst⟩, hok _ _ _ _ hends⟩
  · rename_i hlast
    cases hlast
  · exact hends.elim

/-- When the first attempt succeeds, so does the second. -/
theorem Lockstep.reaches_right {first : Attempt ε α} {second : Attempt δ β} {after : World}
    {P : World → World → Prop} (h : Lockstep first world second other ok error)
    (hok : ∀ a after b last, ok a after b last → P after last)
    (hfirst : Reaches first world after) : ∃ last, Reaches second other last ∧ P after last := by
  obtain ⟨a, hrun⟩ := reaches_iff.mp hfirst
  have hends := h.2
  rw [hrun] at hends
  split at hends
  · rename_i a after b last hafter hsecond
    cases hafter
    exact ⟨last, reaches_iff.mpr ⟨b, hsecond⟩, hok _ _ _ _ hends⟩
  · rename_i hafter _
    cases hafter
  · exact hends.elim

theorem lockstep_pure {a : α} {b : β} (h : ok a world b other) :
    Lockstep (pure a : Attempt ε α) world (pure b : Attempt δ β) other ok error := ⟨rfl, h⟩

/-- The same result, known already. -/
theorem lockstep_result {result : Except ε α} {ok : α → World → α → World → Prop}
    {error : ε → World → ε → World → Prop}
    (hok : ∀ a, result = .ok a → ok a world a other)
    (herror : ∀ fault, result = .error fault → error fault world fault other) :
    Lockstep (liftM result : Attempt ε α) world (liftM result : Attempt ε α) other ok error := by
  cases result with
  | ok a => exact ⟨rfl, hok a rfl⟩
  | error fault => exact ⟨rfl, herror fault rfl⟩

/-- Procedures that cannot fail, as parts of attempts. -/
theorem lockstep_lift {first : Procedure α} {second : Procedure β}
    (hcalls : first.calls world = second.calls other)
    (h : ok (first.run world).1 (first.run world).2 (second.run other).1 (second.run other).2) :
    Lockstep (liftM first : Attempt ε α) world (liftM second : Attempt δ β) other ok error := by
  unfold Lockstep
  rw [run_lift, run_lift, Procedure.calls_bind, Procedure.calls_bind, hcalls, Procedure.run_bind,
    Procedure.run_bind]
  exact ⟨rfl, h⟩

/-- Attempts that go on in lockstep, after faults, too. -/
theorem lockstep_mk_bind {ε' δ' : Type} {first : Attempt ε' γ} {second : Attempt δ' κ}
    {f : Except ε' γ → Procedure (Except ε α)} {g : Except δ' κ → Procedure (Except δ β)}
    (h : Lockstep first world second other
      (fun a after b last => Lockstep (ExceptT.mk (f (.ok a))) after (ExceptT.mk (g (.ok b))) last
        ok error)
      (fun fault after fault' last => Lockstep (ExceptT.mk (f (.error fault))) after
        (ExceptT.mk (g (.error fault'))) last ok error)) :
    Lockstep (ExceptT.mk (first.run >>= f)) world (ExceptT.mk (second.run >>= g)) other
      ok error := by
  obtain ⟨hcalls, hends⟩ := h
  unfold Lockstep
  show (first.run >>= f).calls world = (second.run >>= g).calls other ∧
    match (first.run >>= f).run world, (second.run >>= g).run other with
    | (.ok a, after), (.ok b, last) => ok a after b last
    | (.error fault, after), (.error other, last) => error fault after other last
    | _, _ => False
  rw [Procedure.calls_bind, Procedure.calls_bind, Procedure.run_bind, Procedure.run_bind, hcalls]
  -- lockstep leaves two cases, both results or both faults; either way the rest makes equal calls
  split at hends
  · rename_i hfirst hsecond
    rw [hfirst, hsecond]
    exact ⟨congrArg _ hends.1, hends.2⟩
  · rename_i hfirst hsecond
    rw [hfirst, hsecond]
    exact ⟨congrArg _ hends.1, hends.2⟩
  · exact hends.elim

theorem lockstep_bind {first : Attempt ε γ} {second : Attempt δ κ} {f : γ → Attempt ε α}
    {g : κ → Attempt δ β}
    (h : Lockstep first world second other
      (fun a after b last => Lockstep (f a) after (g b) last ok error) error) :
    Lockstep (first >>= f) world (second >>= g) other ok error :=
  lockstep_mk_bind (h.mono (fun _ _ _ _ h => h) fun _ _ _ _ h => ⟨rfl, h⟩)

theorem lockstep_adapt {ε' δ' : Type} {first : Attempt ε' α} {second : Attempt δ' β}
    {f : ε' → ε} {g : δ' → δ}
    (h : Lockstep first world second other ok
      fun fault after fault' last => error (f fault) after (g fault') last) :
    Lockstep (first.adapt f) world (second.adapt g) other ok error := by
  have hmap : ∀ {ζ η θ : Type} (attempt : Attempt ζ θ) (k : ζ → η), attempt.adapt k =
      ExceptT.mk (attempt.run >>= fun result => pure (result.mapError k)) :=
    fun attempt k => run_adapt attempt k
  rw [hmap, hmap]
  exact lockstep_mk_bind (h.mono (fun _ _ _ _ h => ⟨rfl, h⟩) fun _ _ _ _ h => ⟨rfl, h⟩)

/-- Only the fault of the second attempt is put in other words. -/
theorem lockstep_adapt_right {δ' : Type} {first : Attempt ε α} {second : Attempt δ' β}
    {g : δ' → δ} (h : Lockstep first world second other ok
      fun fault after fault' last => error fault after (g fault') last) :
    Lockstep first world (second.adapt g) other ok error := by
  -- the first fault stays as it is, which is to put it in its own words
  have hid : first.adapt id = first := by
    have hmap : Except.mapError id = (id : Except ε α → Except ε α) := by
      funext result
      cases result <;> rfl
    show ExceptT.mk (Except.mapError id <$> first.run) = first
    rw [hmap, id_map]
    rfl
  rw [← hid]
  exact lockstep_adapt h

theorem lockstep_map_right {first : Attempt ε α} {second : Attempt δ κ} {g : κ → β}
    (h : Lockstep first world second other (fun a after b last => ok a after (g b) last) error) :
    Lockstep first world (g <$> second) other ok error := by
  rw [← id_map first, map_eq_pure_bind, map_eq_pure_bind]
  exact lockstep_bind (h.mono (fun _ _ _ _ h => lockstep_pure h) fun _ _ _ _ h => h)

theorem lockstep_map {first : Attempt ε γ} {second : Attempt δ κ} {f : γ → α} {g : κ → β}
    (h : Lockstep first world second other
      (fun a after b last => ok (f a) after (g b) last) error) :
    Lockstep (f <$> first) world (g <$> second) other ok error := by
  rw [map_eq_pure_bind, map_eq_pure_bind]
  exact lockstep_bind (h.mono (fun _ _ _ _ h => lockstep_pure h) fun _ _ _ _ h => h)

end Attempt

/-! ## Access to the world -/

namespace Access

open Attempt

variable {ε δ α β : Type} {world other : World}

/-- Steps that ask the databases for the same in lockstep. -/
theorem lockstep_ask {first second : Event} {f : Database → Except DatabaseFault α}
    {g : Database → Except DatabaseFault β} {ok : α → World → β → World → Prop}
    {error : DatabaseFault → World → DatabaseFault → World → Prop}
    (hcalls : [first].filter Event.isCall = [second].filter Event.isCall)
    (h : match f world.database, g other.database with
      | .ok a, .ok b => ok a world b other
      | .error fault, .error fault' => error fault world fault' other
      | _, _ => False) :
    Lockstep (ask first f) world (ask second g) other ok error := by
  have hfirst : (ask first f).run.run world = (f world.database, world) := rfl
  have hsecond : (ask second g).run.run other = (g other.database, other) := rfl
  refine ⟨hcalls, ?_⟩
  rw [hfirst, hsecond]
  cases hf : f world.database <;> cases hg : g other.database <;> rw [hf, hg] at h <;> exact h

/-- Starting a transaction and ending it are no calls. -/
theorem calls_inTransaction (work : Transaction → Attempt ε (Transaction × α)) (world : World) :
    (inTransaction work).run.calls world = (work {}).run.calls world := by
  -- what comes after the work is a commit or a rollback, and neither is a call
  show (begin >>= fun tx => (work tx).run >>= _).calls world = _
  rw [Procedure.calls_bind, Procedure.calls_bind, run_begin]
  show [] ++ ((work {}).run.calls world ++ _) = _
  rw [List.nil_append, List.append_right_eq_self]
  rcases (work {}).run.run world with ⟨_ | _, _⟩ <;> rfl

/-- Work in a transaction of its own next to an attempt that starts none. -/
theorem lockstep_inTransaction_left {work : Transaction → Attempt ε (Transaction × α)}
    {second : Attempt δ β} {ok : α → World → β → World → Prop}
    {error : ε → World → δ → World → Prop}
    (h : Lockstep (work {}) world second other
      (fun result after b last =>
        ok result.2 { after with database := result.1.commit after.database } b last) error) :
    Lockstep (inTransaction work) world second other ok error := by
  refine ⟨(calls_inTransaction work world).trans h.1, ?_⟩
  have hends := h.2
  rw [run_inTransaction]
  split at hends <;> simp_all

theorem lockstep_inTransaction_right {work : Transaction → Attempt δ (Transaction × β)}
    {first : Attempt ε α} {ok : α → World → β → World → Prop}
    {error : ε → World → δ → World → Prop}
    (h : Lockstep first world (work {}) other
      (fun a after result last =>
        ok a after result.2 { last with database := result.1.commit last.database }) error) :
    Lockstep first world (inTransaction work) other ok error := by
  refine ⟨h.1.trans (calls_inTransaction work other).symm, ?_⟩
  have hends := h.2
  rw [run_inTransaction]
  split at hends <;> simp_all

/-- The same statements in transactions of databases in which the same statements fail. -/
theorem lockstep_executeAll (tx tx' : Transaction) (statements : List String)
    (hfailures : world.database.failures = other.database.failures) :
    Lockstep (executeAll tx statements) world (executeAll tx' statements) other
      (fun result after result' last => after = world ∧ last = other ∧
        result = tx.withStatements statements ∧ result' = tx'.withStatements statements)
      (fun fault after fault' last => fault = fault' ∧ after = world ∧ last = other) := by
  induction statements generalizing tx tx' with
  | nil => exact lockstep_pure ⟨rfl, rfl, by simp, by simp⟩
  | cons sql rest ih =>
    -- the same patterns fail the same statement, so both go on or both stop here
    have hfails : world.database.failing? sql = other.database.failing? sql := by
      rw [Database.failing?, Database.failing?, hfailures]
    rw [executeAll, executeAll]
    refine lockstep_bind (lockstep_ask rfl ?_)
    rw [Transaction.execute, Transaction.execute, hfails]
    cases other.database.failing? sql with
    | some pattern => exact ⟨rfl, rfl, rfl⟩
    | none =>
      rw [Transaction.withStatements_cons, Transaction.withStatements_cons]
      exact ih _ _

end Access

end Migrations
