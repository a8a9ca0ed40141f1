import Migrations.Failure
import Migrations.Procedure.Access

/-!
# Run Locks

What changes the database runs under a lock, so that two such operations with one key exclude each
other.  The lock is given back whether the work under it succeeds or fails, and what becomes of that
does not change the result of the work.
-/

namespace Migrations

namespace RunLock

variable {α : Type}

/-- Takes the lock of a key; it must not be held. -/
def acquire (key : Int64) : Attempt Failure Unit := do
  if !(← Access.tryLock key) then throw (.concurrent key)

def release (key : Int64) : Attempt Failure Unit := (Access.unlock key).adapt .database

/-- Does work under the lock of a key. -/
def holding (key : Int64) (work : Attempt Failure α) : Attempt Failure α := do
  acquire key
  ExceptT.mk do
    let result ← work.run
    let _ ← (release key).run
    return result

end RunLock

end Migrations
