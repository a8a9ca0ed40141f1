import Migrations.Procedure.Access
import Migrations.Proofs.Database.Rows

/-!
# How Attempts End

`Ends attempt world ok error` says how an attempt ends that runs by itself: `ok` holds of its result
and the world that it leaves, or `error` of its fault and that world.  It is the weakest
precondition of the attempt for the two postconditions, so a goal about a sequence of attempts turns
into nested goals about its parts.

## Main statements

- `ends_bind`: a sequence ends as its first part followed by the second one.
- `ends_inTransaction`: work in a transaction of its own is committed when it succeeds, and leaves
  the database alone when it fails.
- `ends_executeAll`: statements are collected in order, up to the first that fails.
-/

namespace Migrations

/-- A sequence gives a result when both of its parts do. -/
theorem bind_eq_ok {ε α β : Type} {x : Except ε α} {f : α → Except ε β} {b : β} :
    x >>= f = .ok b ↔ ∃ a, x = .ok a ∧ f a = .ok b := by
  cases x with
  | error fault =>
    constructor
    · intro h
      cases h
    · rintro ⟨a, ha, -⟩
      cases ha
  | ok a =>
    constructor
    · intro h
      exact ⟨a, rfl, h⟩
    · rintro ⟨_, ⟨⟩, h⟩
      exact h

theorem map_eq_ok {ε α β : Type} {x : Except ε α} {f : α → β} {b : β} :
    x.map f = .ok b ↔ ∃ a, x = .ok a ∧ f a = b := by
  cases x with
  | error fault => exact ⟨fun h => (nomatch h), fun ⟨_, h, _⟩ => nomatch h⟩
  | ok a =>
    constructor
    · intro h
      exact ⟨a, rfl, Except.ok.inj h⟩
    · rintro ⟨_, ⟨⟩, rfl⟩
      rfl

theorem mapError_eq_ok {ε δ α : Type} {x : Except ε α} {f : ε → δ} {a : α} :
    x.mapError f = .ok a ↔ x = .ok a := by
  cases x with
  | error fault => exact ⟨fun h => (nomatch h), fun h => nomatch h⟩
  | ok b => exact ⟨fun h => congrArg _ (Except.ok.inj h), fun h => congrArg _ (Except.ok.inj h)⟩

/-- A result that is there. -/
theorem eq_ok_of_toOption {ε α : Type} {x : Except ε α} {a : α} (h : x.toOption = some a) :
    x = .ok a := by
  cases x with
  | error fault => cases h
  | ok b => exact congrArg _ (Option.some.inj h)

instance decidableEqExcept {ε α : Type} [DecidableEq ε] [DecidableEq α] :
    DecidableEq (Except ε α)
  | .ok a, .ok b => decidable_of_iff (a = b) (by simp)
  | .error fault, .error other => decidable_of_iff (fault = other) (by simp)
  | .ok _, .error _ => isFalse (by simp)
  | .error _, .ok _ => isFalse (by simp)

namespace Attempt

variable {ε δ α β : Type}

/-- The attempt gives a result with `ok`, or a fault with `error`. -/
def Ends (attempt : Attempt ε α) (world : World) (ok : α → World → Prop)
    (error : ε → World → Prop) : Prop :=
  match attempt.run.run world with
  | (.ok a, after) => ok a after
  | (.error fault, after) => error fault after

variable {world : World} {ok : α → World → Prop} {error : ε → World → Prop}

theorem Ends.mono {attempt : Attempt ε α} {ok' : α → World → Prop} {error' : ε → World → Prop}
    (h : Ends attempt world ok error) (hok : ∀ a after, ok a after → ok' a after)
    (herror : ∀ fault after, error fault after → error' fault after) :
    Ends attempt world ok' error' := by
  unfold Ends at h ⊢
  split at h
  · exact hok _ _ h
  · exact herror _ _ h

/-- Two things that hold of one ending. -/
theorem Ends.and {attempt : Attempt ε α} {ok' : α → World → Prop} {error' : ε → World → Prop}
    (h : Ends attempt world ok error) (h' : Ends attempt world ok' error') :
    Ends attempt world (fun a after => ok a after ∧ ok' a after)
      (fun fault after => error fault after ∧ error' fault after) := by
  unfold Ends at h h' ⊢
  split <;> simp_all

theorem Ends.of_ok {attempt : Attempt ε α} {a : α} {after : World}
    (h : Ends attempt world ok error) (hrun : attempt.run.run world = (.ok a, after)) :
    ok a after := by
  unfold Ends at h
  rwa [hrun] at h

theorem Ends.of_error {attempt : Attempt ε α} {fault : ε} {after : World}
    (h : Ends attempt world ok error) (hrun : attempt.run.run world = (.error fault, after)) :
    error fault after := by
  unfold Ends at h
  rwa [hrun] at h

/-- An attempt that cannot fail gives a result. -/
theorem Ends.exists_ok {attempt : Attempt ε α}
    (h : Ends attempt world ok (fun _ _ => False)) :
    ∃ a after, attempt.run.run world = (.ok a, after) ∧ ok a after := by
  unfold Ends at h
  split at h
  · rename_i a after hrun
    exact ⟨a, after, hrun, h⟩
  · exact h.elim

/-- An attempt that cannot succeed gives a fault. -/
theorem Ends.exists_error {attempt : Attempt ε α}
    (h : Ends attempt world (fun _ _ => False) error) :
    ∃ fault after, attempt.run.run world = (.error fault, after) ∧ error fault after := by
  unfold Ends at h
  split at h
  · exact h.elim
  · rename_i fault after hrun
    exact ⟨fault, after, hrun, h⟩

theorem Ends.run_eq {attempt : Attempt ε α} {a : α} {after : World}
    (h : Ends attempt world (fun result last => result = a ∧ last = after) (fun _ _ => False)) :
    attempt.run.run world = (.ok a, after) := by
  obtain ⟨_, _, hrun, rfl, rfl⟩ := h.exists_ok
  exact hrun

/-- An attempt that cannot end in another way. -/
theorem Ends.run_result {attempt : Attempt ε α} {result : Except ε α} {last : World}
    (h : Ends attempt world (fun a after => .ok a = result ∧ after = last)
      (fun fault after => .error fault = result ∧ after = last)) :
    attempt.run.run world = (result, last) := by
  unfold Ends at h
  split at h
  · rename_i hrun
    rw [hrun, h.1, h.2]
  · rename_i hrun
    rw [hrun, h.1, h.2]

/-- The attempt gives a result and leaves the world. -/
def Reaches (attempt : Attempt ε α) (world final : World) : Prop :=
  Ends attempt world (fun _ after => after = final) (fun _ _ => False)

theorem reaches_iff {attempt : Attempt ε α} {final : World} :
    attempt.Reaches world final ↔ ∃ a, attempt.run.run world = (.ok a, final) := by
  constructor
  · intro h
    obtain ⟨a, _, hrun, rfl⟩ := h.exists_ok
    exact ⟨a, hrun⟩
  · rintro ⟨a, hrun⟩
    unfold Reaches Ends
    rw [hrun]

/-- What holds of the world in the end, whatever the attempt gives. -/
theorem Ends.always {attempt : Attempt ε α} {P : World → Prop}
    (h : Ends attempt world (fun _ => P) (fun _ => P)) : P (attempt.run.run world).2 := by
  unfold Ends at h
  split at h <;> simp_all

/-- An attempt ends as it does when it runs. -/
theorem ends_run_self (attempt : Attempt ε α) (world : World) :
    Ends attempt world (fun a after => attempt.run.run world = (.ok a, after))
      (fun fault after => attempt.run.run world = (.error fault, after)) := by
  unfold Ends
  split
  · assumption
  · assumption

/-- Attempts that end in the same ways run in the same way. -/
theorem run_eq_of_ends {attempt other : Attempt ε α}
    (h : ∀ ok error, Ends attempt world ok error ↔ Ends other world ok error) :
    attempt.run.run world = other.run.run world := by
  have hself := (h _ _).mpr (ends_run_self other world)
  unfold Ends at hself
  split at hself
  · rename_i hrun
    rw [hrun, hself]
  · rename_i hrun
    rw [hrun, hself]

/-- Attempts that run in the same way end in the same ways. -/
theorem ends_congr_run {attempt other : Attempt ε α}
    (h : attempt.run.run world = other.run.run world) :
    Ends attempt world ok error ↔ Ends other world ok error := by
  unfold Ends
  rw [h]

/-- What an attempt ends with need only be compared where it can end. -/
theorem Ends.congr {attempt : Attempt ε α} {P ok' : α → World → Prop} {E error' : ε → World → Prop}
    (h : Ends attempt world P E) (hok : ∀ a after, P a after → (ok a after ↔ ok' a after))
    (herror : ∀ fault after, E fault after → (error fault after ↔ error' fault after)) :
    Ends attempt world ok error ↔ Ends attempt world ok' error' := by
  unfold Ends at h ⊢
  split at h
  · exact hok _ _ h
  · exact herror _ _ h

/-- How an attempt ends in a given world can be computed. -/
instance decidableEnds {attempt : Attempt ε α} [∀ a after, Decidable (ok a after)]
    [∀ fault after, Decidable (error fault after)] : Decidable (Ends attempt world ok error) :=
  match hrun : attempt.run.run world with
  | (.ok a, after) => decidable_of_iff (ok a after) (by unfold Ends; rw [hrun])
  | (.error fault, after) => decidable_of_iff (error fault after) (by unfold Ends; rw [hrun])

/-! ## Sequences -/

@[simp] theorem ends_pure (a : α) :
    Ends (pure a : Attempt ε α) world ok error ↔ ok a world := Iff.rfl

theorem ends_bind (attempt : Attempt ε α) (f : α → Attempt ε β) {ok : β → World → Prop} :
    Ends (attempt >>= f) world ok error ↔
      Ends attempt world (fun a after => Ends (f a) after ok error) error := by
  unfold Ends
  simp only [ExceptT.run_bind, Procedure.run_bind]
  rcases attempt.run.run world with ⟨_ | a, after⟩ <;> simp

@[simp] theorem ends_map (attempt : Attempt ε α) (f : α → β) {ok : β → World → Prop} :
    Ends (f <$> attempt) world ok error ↔
      Ends attempt world (fun a after => ok (f a) after) error := by
  rw [map_eq_pure_bind, ends_bind]
  rfl

theorem run_adapt (attempt : Attempt ε α) (f : ε → δ) :
    (attempt.adapt f).run = attempt.run >>= fun result => pure (result.mapError f) :=
  map_eq_pure_bind _ attempt.run

@[simp] theorem ends_adapt (attempt : Attempt ε α) (f : ε → δ) {error : δ → World → Prop} :
    Ends (attempt.adapt f) world ok error ↔
      Ends attempt world ok (fun fault after => error (f fault) after) := by
  unfold Ends
  rw [run_adapt, Procedure.run_bind]
  rcases attempt.run.run world with ⟨_ | a, after⟩ <;> rfl

theorem run_lift (procedure : Procedure α) :
    (liftM procedure : Attempt ε α).run = procedure >>= fun a => pure (.ok a) :=
  map_eq_pure_bind _ procedure

/-- A procedure that cannot fail, as a part of an attempt. -/
@[simp] theorem ends_lift (procedure : Procedure α) :
    Ends (liftM procedure : Attempt ε α) world ok error ↔
      ok (procedure.run world).1 (procedure.run world).2 := by
  -- the procedure has no fault to give, so only its result is wrapped up
  have hrun : (liftM procedure : Attempt ε α).run.run world =
      (.ok (procedure.run world).1, (procedure.run world).2) := by
    rw [run_lift, Procedure.run_bind]
    rfl
  unfold Ends
  rw [hrun]

/-- A result that is there already, as a part of an attempt. -/
@[simp] theorem ends_result (result : Except ε α) :
    Ends (liftM result : Attempt ε α) world ok error ↔
      match result with
      | .ok a => ok a world
      | .error fault => error fault world := by
  cases result <;> rfl

@[simp] theorem ends_mk_pure (result : Except ε α) :
    Ends (ExceptT.mk (pure result) : Attempt ε α) world ok error ↔
      match result with
      | .ok a => ok a world
      | .error fault => error fault world := ends_result result

/-- An attempt that goes on after a fault, too. -/
theorem ends_mk_bind {attempt : Attempt δ α}
    {f : Except δ α → Procedure (Except ε β)} {ok : β → World → Prop} :
    Ends (ExceptT.mk (attempt.run >>= f)) world ok error ↔
      Ends attempt world (fun a after => Ends (ExceptT.mk (f (.ok a))) after ok error)
        (fun fault after => Ends (ExceptT.mk (f (.error fault))) after ok error) := by
  -- what comes next sees the whole result here, so the fault does not end the sequence
  have hrun : (ExceptT.mk (attempt.run >>= f)).run.run world =
      (f (attempt.run.run world).1).run (attempt.run.run world).2 :=
    Procedure.run_bind _ _ _
  unfold Ends
  rw [hrun]
  rcases attempt.run.run world with ⟨_ | a, after⟩ <;> rfl

theorem ends_mk_lift {procedure : Procedure α} {f : α → Procedure (Except ε β)}
    {ok : β → World → Prop} :
    Ends (ExceptT.mk (procedure >>= f)) world ok error ↔
      Ends (ExceptT.mk (f (procedure.run world).1)) (procedure.run world).2 ok error := by
  have hrun : (ExceptT.mk (procedure >>= f)).run.run world =
      (f (procedure.run world).1).run (procedure.run world).2 :=
    Procedure.run_bind _ _ _
  unfold Ends
  rw [hrun]
  rfl

/-- An attempt of one step. -/
theorem ends_act {event : Event} {f : World → Except ε α × World} :
    Ends (ExceptT.mk (Procedure.act event f)) world ok error ↔
      match f world with
      | (.ok a, after) => ok a after
      | (.error fault, after) => error fault after := Iff.rfl

end Attempt

/-! ## Access to the world -/

namespace Access

open Attempt

variable {ε α : Type} {world : World}

/-- A step that only asks the database leaves the world as it is. -/
theorem ends_ask {event : Event} {f : Database → Except DatabaseFault α}
    {ok : α → World → Prop} {error : DatabaseFault → World → Prop} :
    Ends (ask event f) world ok error ↔
      match f world.database with
      | .ok a => ok a world
      | .error fault => error fault world := by
  have hrun : (ask event f).run.run world = (f world.database, world) := rfl
  unfold Ends
  rw [hrun]
  cases f world.database <;> rfl

theorem ends_files {f : Home → Except ε α} {ok : α → World → Prop} {error : ε → World → Prop} :
    Ends (files f) world ok error ↔
      match f world.home with
      | .ok a => ok a world
      | .error fault => error fault world := by
  have hrun : (files f).run.run world = (f world.home, world) := rfl
  unfold Ends
  rw [hrun]
  cases f world.home <;> rfl

theorem ends_changeFiles {f : Home → Except ε Home} {ok : Unit → World → Prop}
    {error : ε → World → Prop} :
    Ends (changeFiles f) world ok error ↔
      match f world.home with
      | .ok home => ok () { world with home := home }
      | .error fault => error fault world := by
  have hrun : (changeFiles f).run.run world = match f world.home with
      | .ok home => (.ok (), { world with home := home })
      | .error fault => (.error fault, world) := rfl
  unfold Ends
  rw [hrun]
  cases f world.home <;> rfl

/-- To look at the files is to see them all and to judge them then. -/
theorem files_bind {β : Type} (f : Home → Except ε α) (g : α → Attempt ε β) :
    files f >>= g =
      files .ok >>= fun home =>
        match f home with
        | .ok a => g a
        | .error fault => throw fault := rfl

@[simp] theorem run_now : now.run world =
    (world.clock world.readings, { world with readings := world.readings + 1 }) := rfl

@[simp] theorem run_begin : begin.run world = ({}, world) := rfl

@[simp] theorem run_createTable (name : String) : (createTable name).run world =
    ((), { world with database := world.database.createTable name }) := rfl

theorem run_inTransaction (work : Transaction → Attempt ε (Transaction × α)) :
    (inTransaction work).run.run world =
      match (work {}).run.run world with
      | (.ok (tx, a), after) =>
        (.ok a, { after with database := tx.commit after.database })
      | (.error fault, after) => (.error fault, after) := by
  -- the beginning leaves the world alone, so the work starts from it with no writes
  show (begin >>= fun tx => (work tx).run >>= _).run world = _
  rw [Procedure.run_bind, run_begin, Procedure.run_bind]
  rcases (work {}).run.run world with ⟨_ | _, _⟩ <;> rfl

/-- What work does in a transaction of its own: the writes of its transaction when it succeeds. -/
theorem ends_inTransaction {work : Transaction → Attempt ε (Transaction × α)}
    {ok : α → World → Prop} {error : ε → World → Prop} :
    Ends (inTransaction work) world ok error ↔
      Ends (work {}) world
        (fun result after =>
          ok result.2 { after with database := result.1.commit after.database }) error := by
  unfold Ends
  rw [run_inTransaction]
  rcases (work {}).run.run world with ⟨_ | _, _⟩ <;> rfl

/-! ## Statements -/

/-- The fault of the first statement that fails. -/
def firstFault? (db : Database) (statements : List String) : Option DatabaseFault :=
  statements.findSome? fun sql => (db.failing? sql).map fun pattern => .statement pattern sql

theorem firstFault?_congr {db other : Database} (h : db.failures = other.failures)
    (statements : List String) : firstFault? db statements = firstFault? other statements := by
  simp only [firstFault?, Database.failing?, h]

/-- Statements are collected in order, unless one of them fails. -/
theorem ends_executeAll (tx : Transaction) (statements : List String)
    {ok : Transaction → World → Prop} {error : DatabaseFault → World → Prop} :
    Ends (executeAll tx statements) world ok error ↔
      match firstFault? world.database statements with
      | none => ok (tx.withStatements statements) world
      | some fault => error fault world := by
  induction statements generalizing tx with
  | nil => simp [executeAll, firstFault?]
  | cons sql rest ih =>
    -- the first statement decides: either it fails here, or the rest goes on with it collected
    rw [executeAll, ends_bind, execute, ends_ask, firstFault?, Transaction.execute,
      List.findSome?_cons]
    cases world.database.failing? sql with
    | some pattern => rfl
    | none =>
      rw [Transaction.withStatements_cons]
      exact ih _

end Access

end Migrations
