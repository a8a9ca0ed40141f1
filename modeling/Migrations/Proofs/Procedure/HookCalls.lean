import Migrations.Proofs.Procedure.Steps

/-!
# Hook Calls of Attempts

Which hooks an attempt calls, with which contexts and in which order.
`Dispatches attempt before ok error` says it for an attempt that goes on after the calls `before`:
`ok` holds of all the calls up to its end when it succeeds, and `error` when it fails, in whatever
world it runs.  A sequence is followed from its first part to its second one by taking the calls
along.

## Main statements

- `Attempt.dispatches_mk_bind`, `Attempt.dispatches_bind`: the calls of a sequence.
- `Attempt.dispatches_of_silent`: an attempt without hook calls adds none.
- `Procedure.run_relabel`: other events on the steps of a procedure leave what it does as it is.
-/

namespace Migrations

/-! ## Hook calls -/

/-- The call of the hook at a slot. -/
structure HookCall where
  slot : HookSlot
  context : HookContext
  deriving DecidableEq

/-- The hook call that an event is. -/
def Event.hookCall? : Event → Option HookCall
  | hook slot context => some ⟨slot, context⟩
  | _ => none

/-- The step does not call a hook. -/
def Silent (event : Event) (_ : World → World) : Prop := event.hookCall? = none

/-- Ordinary steps call no hook. -/
theorem ordinary_silent : Ordinary Silent where
  look := by
    intro event hplain
    cases event with
    | hook slot context => cases hplain
    | _ => rfl
  now := rfl
  createTable _ := rfl
  commit _ := rfl

namespace Procedure

variable {α β : Type}

/-- The hooks that a procedure calls when it runs by itself. -/
def hookCalls (procedure : Procedure α) (world : World) : List HookCall :=
  (procedure.trace world).filterMap Event.hookCall?

@[simp] theorem hookCalls_bind (procedure : Procedure α) (f : α → Procedure β) (world : World) :
    (procedure >>= f).hookCalls world =
      procedure.hookCalls world ++
        (f (procedure.run world).1).hookCalls (procedure.run world).2 := by
  simp [hookCalls]

theorem hookCalls_of_silent {procedure : Procedure α} (h : procedure.EveryStep Silent)
    (world : World) : procedure.hookCalls world = [] := by
  induction procedure generalizing world with
  | done a => rfl
  | step event update next ih =>
    rw [hookCalls, trace, List.filterMap_cons_none h.1]
    exact ih world (h.2 world) (update world)

/-! ## Other events -/

/-- The procedure with other events on its steps. -/
def relabel (f : Event → Event) : Procedure α → Procedure α
  | done a => done a
  | step event update next => step (f event) update fun world => (next world).relabel f

theorem run_relabel (f : Event → Event) (procedure : Procedure α) (world : World) :
    (procedure.relabel f).run world = procedure.run world := by
  induction procedure generalizing world with
  | done a => rfl
  | step event update next ih => exact ih world (update world)

theorem everyStep_relabel {f : Event → Event} {P : Event → (World → World) → Prop}
    (h : ∀ event update, P (f event) update) (procedure : Procedure α) :
    (procedure.relabel f).EveryStep P := by
  induction procedure with
  | done a => trivial
  | step event update next ih => exact ⟨h event update, ih⟩

theorem relabel_eq_self {f : Event → Event} {procedure : Procedure α}
    (h : procedure.EveryStep fun event _ => f event = event) :
    procedure.relabel f = procedure := by
  induction procedure with
  | done a => rfl
  | step event update next ih =>
    rw [relabel, h.1]
    exact congrArg (step event update) (funext fun world => ih world (h.2 world))

end Procedure

/-! ## Calls of attempts -/

namespace Attempt

variable {ε δ α β : Type}

/-- No step of the attempt calls a hook. -/
def IsSilent (attempt : Attempt ε α) : Prop := attempt.run.EveryStep Silent

/-- After the calls before it the attempt makes calls with `ok` and gives a result, or calls with
`error` and fails. -/
def Dispatches (attempt : Attempt ε α) (before : List HookCall) (ok : List HookCall → Prop)
    (error : ε → List HookCall → Prop) : Prop :=
  ∀ world, match (attempt.run.run world).1 with
    | .ok _ => ok (before ++ attempt.run.hookCalls world)
    | .error fault => error fault (before ++ attempt.run.hookCalls world)

variable {before : List HookCall} {ok : List HookCall → Prop} {error : ε → List HookCall → Prop}

theorem Dispatches.mono {attempt : Attempt ε α} {ok' : List HookCall → Prop}
    {error' : ε → List HookCall → Prop} (h : attempt.Dispatches before ok error)
    (hok : ∀ now, ok now → ok' now) (herror : ∀ fault now, error fault now → error' fault now) :
    attempt.Dispatches before ok' error' := by
  intro world
  have hends := h world
  split at hends
  · exact hok _ hends
  · exact herror _ _ hends

theorem dispatches_pure (a : α) (h : ok before) :
    Dispatches (pure a : Attempt ε α) before ok error := by
  intro world
  show ok (before ++ [])
  rwa [List.append_nil]

theorem dispatches_fail (fault : ε) (h : error fault before) :
    Dispatches (ExceptT.mk (pure (.error fault)) : Attempt ε α) before ok error := by
  intro world
  show error fault (before ++ [])
  rwa [List.append_nil]

/-- An attempt without hook calls leaves the calls as they are, and ends as it does. -/
theorem dispatches_of_silent {attempt : Attempt ε α} (h : attempt.IsSilent)
    (hends : ∀ world, Ends attempt world (fun _ _ => ok before)
      (fun fault _ => error fault before)) :
    attempt.Dispatches before ok error := by
  intro world
  have hend := hends world
  unfold Ends at hend
  -- there is nothing to add to the calls before
  rw [Procedure.hookCalls_of_silent h, List.append_nil]
  generalize attempt.run.run world = ending at hend ⊢
  rcases ending with ⟨fault | a, after⟩
  · exact hend
  · exact hend

theorem dispatches_mk_bind {attempt : Attempt δ α} {f : Except δ α → Procedure (Except ε β)}
    {ok' : List HookCall → Prop} {error' : δ → List HookCall → Prop}
    (h : attempt.Dispatches before ok' error')
    (hok : ∀ a now, ok' now → Dispatches (ExceptT.mk (f (.ok a))) now ok error)
    (herror : ∀ fault now, error' fault now →
      Dispatches (ExceptT.mk (f (.error fault))) now ok error) :
    Dispatches (ExceptT.mk (attempt.run >>= f)) before ok error := by
  intro world
  have hfirst := h world
  show match ((attempt.run >>= f).run world).1 with
    | .ok _ => ok (before ++ (attempt.run >>= f).hookCalls world)
    | .error fault => error fault (before ++ (attempt.run >>= f).hookCalls world)
  rw [Procedure.hookCalls_bind, Procedure.run_bind, ← List.append_assoc]
  -- the second part starts in the world and with the calls that the first one leaves
  generalize attempt.run.run world = ending at hfirst ⊢
  rcases ending with ⟨fault | a, after⟩
  · exact herror fault _ hfirst after
  · exact hok a _ hfirst after

theorem dispatches_bind {attempt : Attempt ε α} {f : α → Attempt ε β} {ok' : List HookCall → Prop}
    (h : attempt.Dispatches before ok' error)
    (hf : ∀ a now, ok' now → (f a).Dispatches now ok error) :
    Dispatches (attempt >>= f) before ok error := by
  exact dispatches_mk_bind h hf fun fault _ hfault => dispatches_fail fault hfault

theorem dispatches_adapt {attempt : Attempt ε α} (f : ε → δ) {error : δ → List HookCall → Prop}
    (h : attempt.Dispatches before ok fun fault now => error (f fault) now) :
    Dispatches (attempt.adapt f) before ok error := by
  intro world
  have hends := h world
  rw [run_adapt, Procedure.hookCalls_bind, Procedure.run_bind]
  generalize attempt.run.run world = ending at hends ⊢
  rcases ending with ⟨fault | a, after⟩
  · show error (f fault) (before ++ (_ ++ []))
    rwa [List.append_nil]
  · show ok (before ++ (_ ++ []))
    rwa [List.append_nil]

theorem dispatches_map {attempt : Attempt ε α} (f : α → β)
    (h : attempt.Dispatches before ok error) : Dispatches (f <$> attempt) before ok error := by
  rw [map_eq_pure_bind]
  exact dispatches_bind h fun a _ hnow => dispatches_pure (f a) hnow

/-- A procedure that cannot fail, as a part of an attempt. -/
theorem dispatches_lift {procedure : Procedure α} {calls : List HookCall}
    (h : ∀ world, procedure.hookCalls world = calls) (hok : ok (before ++ calls)) :
    Dispatches (liftM procedure : Attempt ε α) before ok error := by
  intro world
  rw [run_lift, Procedure.hookCalls_bind, Procedure.run_bind, h]
  show ok (before ++ (calls ++ []))
  rwa [List.append_nil]

/-- The mark of a hook call is that call. -/
theorem dispatches_mark {slot : HookSlot} {context : HookContext}
    (h : ok (before ++ [⟨slot, context⟩])) :
    Dispatches (liftM (Procedure.mark (.hook slot context)) : Attempt ε Unit) before ok error :=
  dispatches_lift (fun _ => rfl) h

/-- A result that is there already, as a part of an attempt. -/
theorem dispatches_result {result : Except ε α} (hok : ∀ a, result = .ok a → ok before)
    (herror : ∀ fault, result = .error fault → error fault before) :
    Dispatches (liftM result : Attempt ε α) before ok error := by
  cases result with
  | ok a => exact dispatches_pure a (hok a rfl)
  | error fault => exact dispatches_fail fault (herror fault rfl)

end Attempt

/-! ## Access to the world -/

namespace Access

open Attempt

variable {ε α : Type}

/-- Work in a transaction of its own makes the calls of the work. -/
theorem hookCalls_inTransaction (work : Transaction → Attempt ε (Transaction × α))
    (world : World) :
    (inTransaction work).run.hookCalls world = (work {}).run.hookCalls world := by
  -- what comes after the work is a commit or a rollback, and neither calls a hook
  show (begin >>= fun tx => (work tx).run >>= _).hookCalls world = _
  rw [Procedure.hookCalls_bind, Procedure.hookCalls_bind, run_begin]
  show [] ++ ((work {}).run.hookCalls world ++ _) = _
  rw [List.nil_append, List.append_right_eq_self]
  rcases (work {}).run.run world with ⟨_ | _, _⟩ <;> rfl

theorem dispatches_inTransaction {work : Transaction → Attempt ε (Transaction × α)}
    {before : List HookCall} {ok : List HookCall → Prop} {error : ε → List HookCall → Prop}
    (h : (work {}).Dispatches before ok error) :
    Dispatches (inTransaction work) before ok error := by
  intro world
  have hends := h world
  rw [hookCalls_inTransaction, run_inTransaction]
  generalize (work {}).run.run world = ending at hends ⊢
  rcases ending with ⟨fault | ⟨tx, a⟩, after⟩
  · exact hends
  · exact hends

end Access

end Migrations
