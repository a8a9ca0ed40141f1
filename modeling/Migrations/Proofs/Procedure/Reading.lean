import Migrations.Proofs.Procedure.Lockstep

/-!
# Attempts that Only Read

An attempt that finds something out about the world: it gives what a function of the world says,
leaves the world as it is, and calls no hook and executes no statement on the way.  Such attempts
can be read as the functions that they compute.

## Main statements

- `finds_bind`: a sequence of attempts that read finds out what the functions give one after the
  other.
-/

namespace Migrations

namespace Attempt

variable {ε δ α β : Type}

/-- Whatever the world is, the attempt gives what the function says and does nothing else. -/
def Finds (attempt : Attempt ε α) (f : World → Except ε α) : Prop :=
  ∀ world, attempt.run.run world = (f world, world) ∧ attempt.run.calls world = []

theorem finds_pure (a : α) : Finds (pure a : Attempt ε α) fun _ => .ok a :=
  fun _ => ⟨rfl, rfl⟩

theorem finds_throw (fault : ε) : Finds (throw fault : Attempt ε α) fun _ => .error fault :=
  fun _ => ⟨rfl, rfl⟩

/-- An attempt that goes on with what was found stops where nothing was. -/
theorem finds_bind {attempt : Attempt ε α} {next : α → Attempt ε β} {f : World → Except ε α}
    {g : α → World → Except ε β} (h : attempt.Finds f) (hnext : ∀ a, (next a).Finds (g a)) :
    Finds (attempt >>= next) fun world => f world >>= fun a => g a world := by
  intro world
  obtain ⟨hrun, hcalls⟩ := h world
  rw [ExceptT.run_bind, Procedure.run_bind, Procedure.calls_bind, hrun, hcalls]
  dsimp only
  cases f world with
  | error fault => exact ⟨rfl, rfl⟩
  | ok a => exact hnext a world

theorem finds_ite {first second : Attempt ε α} {f g : World → Except ε α} {c : Bool}
    (hfirst : first.Finds f) (hsecond : second.Finds g) :
    Finds (if c then first else second) fun world => if c then f world else g world := by
  cases c with
  | true => exact hfirst
  | false => exact hsecond

theorem finds_adapt {attempt : Attempt ε α} {f : World → Except ε α} (g : ε → δ)
    (h : attempt.Finds f) : Finds (attempt.adapt g) fun world => (f world).mapError g := by
  intro world
  obtain ⟨hrun, hcalls⟩ := h world
  rw [run_adapt, Procedure.run_bind, Procedure.calls_bind, hrun, hcalls]
  exact ⟨rfl, rfl⟩

/-- To read in another way is to find the same. -/
theorem Finds.congr {attempt : Attempt ε α} {f g : World → Except ε α} (h : attempt.Finds f)
    (hsame : ∀ world, f world = g world) : attempt.Finds g := by
  intro world
  rw [← hsame]
  exact h world

end Attempt

namespace Access

open Attempt

variable {ε α : Type}

theorem finds_ask {event : Event} (f : Database → Except DatabaseFault α)
    (h : event.isCall = false) : Finds (ask event f) fun world => f world.database := by
  intro world
  refine ⟨rfl, ?_⟩
  show [event].filter Event.isCall = []
  rw [List.filter_cons, h]
  rfl

theorem finds_files (f : Home → Except ε α) : Finds (files f) fun world => f world.home :=
  fun _ => ⟨rfl, rfl⟩

end Access

end Migrations
