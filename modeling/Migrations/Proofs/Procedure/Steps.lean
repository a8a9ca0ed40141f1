import Migrations.Proofs.Procedure.Ending

/-!
# Steps of Procedures

What holds of every step that a procedure can take, in whatever worlds it finds itself between its
steps.  This is how a procedure is judged that does not run by itself.

## Main statements

- `everyStep_bind`: a sequence takes the steps of its parts.
- `Attempt.takes_mk_bind`: so does a sequence that goes on after a fault.
- `Access.takes_inTransaction`: what holds of ordinary steps holds of work in a transaction when it
  holds of the steps of that work.
- `ordinary_quiet`: ordinary steps leave the locks alone.
-/

namespace Migrations

namespace Procedure

variable {α β : Type} {P : Event → (World → World) → Prop}

/-- Every step of the procedure is as given, whatever the worlds before its steps are. -/
def EveryStep (P : Event → (World → World) → Prop) : Procedure α → Prop
  | done _ => True
  | step event update next => P event update ∧ ∀ world, (next world).EveryStep P

theorem EveryStep.mono {procedure : Procedure α} {Q : Event → (World → World) → Prop}
    (h : procedure.EveryStep P) (hPQ : ∀ event update, P event update → Q event update) :
    procedure.EveryStep Q := by
  induction procedure with
  | done a => trivial
  | step event update next ih => exact ⟨hPQ event update h.1, fun world => ih world (h.2 world)⟩

theorem everyStep_act {event : Event} {f : World → α × World}
    (h : P event fun world => (f world).2) : (act event f).EveryStep P := ⟨h, fun _ => trivial⟩

theorem everyStep_bind {procedure : Procedure α} {f : α → Procedure β}
    (h : procedure.EveryStep P) (hf : ∀ a, (f a).EveryStep P) :
    (procedure >>= f).EveryStep P := by
  -- the steps of the second part come after those of the first one in every world
  induction procedure with
  | done a => exact hf a
  | step event update next ih => exact ⟨h.1, fun world => ih world (h.2 world)⟩

end Procedure

namespace Attempt

variable {ε δ α β : Type} {P : Event → (World → World) → Prop}

/-- All steps of the attempt are as given, whether it succeeds or not. -/
def Takes (P : Event → (World → World) → Prop) (attempt : Attempt ε α) : Prop :=
  attempt.run.EveryStep P

theorem takes_pure (a : α) : Takes P (pure a : Attempt ε α) := trivial

theorem takes_result (result : Except ε α) : Takes P (liftM result : Attempt ε α) := by
  cases result <;> trivial

theorem takes_lift {procedure : Procedure α} (h : procedure.EveryStep P) :
    Takes P (liftM procedure : Attempt ε α) := by
  unfold Takes
  rw [run_lift]
  exact Procedure.everyStep_bind h fun _ => trivial

theorem takes_mk_bind {attempt : Attempt δ α} {f : Except δ α → Procedure (Except ε β)}
    (h : attempt.Takes P) (hf : ∀ result, (f result).EveryStep P) :
    Takes P (ExceptT.mk (attempt.run >>= f)) :=
  Procedure.everyStep_bind h hf

theorem takes_bind {attempt : Attempt ε α} {f : α → Attempt ε β} (h : attempt.Takes P)
    (hf : ∀ a, (f a).Takes P) : Takes P (attempt >>= f) :=
  takes_mk_bind h fun result =>
    match result with
    | .ok a => hf a
    | .error _ => trivial

theorem takes_map {attempt : Attempt ε α} (f : α → β) (h : attempt.Takes P) :
    Takes P (f <$> attempt) := by
  rw [map_eq_pure_bind]
  exact takes_bind h fun _ => trivial

theorem takes_adapt {attempt : Attempt ε α} (f : ε → δ) (h : attempt.Takes P) :
    Takes P (attempt.adapt f) := by
  unfold Takes
  rw [run_adapt]
  exact Procedure.everyStep_bind h fun _ => trivial

end Attempt

/-! ## Steps that only look -/

/-- The step leaves the world as it is. -/
def Still (_ : Event) (update : World → World) : Prop := ∀ world, update world = world

/-! ## Steps on a database -/

/-- The event has to do neither with a run lock nor with the call of a hook. -/
def Event.isPlain : Event → Bool
  | tryLock _ => false
  | unlock _ => false
  | hook _ _ => false
  | _ => true

/-- The property holds of the steps of work on a database that asks for no lock and calls no hook:
those that only look, those that read the clock, and those that create a table or commit. -/
structure Ordinary (P : Event → (World → World) → Prop) : Prop where
  look : ∀ {event : Event}, event.isPlain = true → P event fun world => world
  now : P .clock fun world => { world with readings := world.readings + 1 }
  createTable : ∀ name, P (.createTable name) fun world =>
    { world with database := world.database.createTable name }
  commit : ∀ tx : Transaction, P .commit fun world =>
    { world with database := tx.commit world.database }

namespace Access

open Attempt

variable {ε α : Type} {P : Event → (World → World) → Prop} (hP : Ordinary P)

include hP

theorem takes_mark {event : Event} (h : event.isPlain = true) :
    (Procedure.mark event).EveryStep P :=
  Procedure.everyStep_act (hP.look h)

theorem takes_ask {event : Event} (f : Database → Except DatabaseFault α)
    (h : event.isPlain = true) : Takes P (ask event f) :=
  Procedure.everyStep_act (hP.look h)

theorem takes_files (f : Home → Except ε α) : Takes P (files f) :=
  Procedure.everyStep_act (hP.look rfl)

theorem takes_now : now.EveryStep P := Procedure.everyStep_act hP.now

theorem takes_commit (tx : Transaction) : (commit tx).EveryStep P :=
  Procedure.everyStep_act (hP.commit tx)

theorem takes_createTable (name : String) : (createTable name).EveryStep P :=
  Procedure.everyStep_act (hP.createTable name)

theorem takes_inTransaction {work : Transaction → Attempt ε (Transaction × α)}
    (h : ∀ tx, (work tx).Takes P) : Takes P (inTransaction work) := by
  -- the beginning, the work, and then either the commit or the mark of the rollback
  refine Procedure.everyStep_bind (takes_mark hP rfl) fun tx => ?_
  refine Procedure.everyStep_bind (h tx) fun result => ?_
  match result with
  | .ok (tx, a) => exact Procedure.everyStep_bind (takes_commit hP tx) fun _ => trivial
  | .error fault =>
    exact Procedure.everyStep_bind (takes_mark hP rfl) fun _ => trivial

theorem takes_executeAll (tx : Transaction) (statements : List String) :
    Takes P (executeAll tx statements) := by
  induction statements generalizing tx with
  | nil => exact takes_pure tx
  | cons sql rest ih => exact takes_bind (takes_ask hP _ rfl) ih

end Access

/-! ## Steps that leave the locks alone -/

/-- The step takes no lock, gives none back, and does not change which locks are held and whether
they are stuck. -/
def Quiet (event : Event) (update : World → World) : Prop :=
  (∀ key, event ≠ .tryLock key ∧ event ≠ .unlock key) ∧
    ∀ world, (update world).database.locks = world.database.locks ∧
      (update world).database.lockStuck = world.database.lockStuck

/-- Quiet steps, however many, leave the locks as they were. -/
theorem Procedure.run_of_quiet {α : Type} {procedure : Procedure α}
    (h : procedure.EveryStep Quiet) (world : World) :
    (procedure.run world).2.database.locks = world.database.locks ∧
      (procedure.run world).2.database.lockStuck = world.database.lockStuck := by
  induction procedure generalizing world with
  | done a => exact ⟨rfl, rfl⟩
  | step event update next ih =>
    obtain ⟨⟨-, hkept⟩, hrest⟩ := h
    obtain ⟨hlocks, hstuck⟩ := ih world (hrest world) (update world)
    exact ⟨hlocks.trans (hkept world).1, hstuck.trans (hkept world).2⟩

/-- All steps of the attempt leave the locks alone. -/
def Attempt.IsQuiet {ε α : Type} (attempt : Attempt ε α) : Prop := attempt.run.EveryStep Quiet

/-- Whatever work does on a database, the locks are no part of it. -/
theorem ordinary_quiet : Ordinary Quiet where
  look := by
    intro event hplain
    refine ⟨fun key => ⟨?_, ?_⟩, fun _ => ⟨rfl, rfl⟩⟩
    · rintro rfl
      cases hplain
    · rintro rfl
      cases hplain
  now := ⟨by simp, fun _ => ⟨rfl, rfl⟩⟩
  createTable name := by
    refine ⟨by simp, fun world => ?_⟩
    dsimp only
    rw [Database.createTable_eq]
    exact ⟨rfl, rfl⟩
  commit tx := by
    refine ⟨by simp, fun world => ?_⟩
    dsimp only
    rw [tx.commit_eq]
    exact ⟨rfl, rfl⟩

end Migrations
