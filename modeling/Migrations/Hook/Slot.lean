import Migrations.Change.Basic

/-!
# Hook Slots

The points at which hooks run.  Around a run there are four of them for either direction: before the
run, before and after each script, and after the run.  Around the creation of a script there are
two.
-/

namespace Migrations

/-- What a hook runs around, and on which side of it. -/
inductive HookPhase where
  | before
  | beforeEach
  | afterEach
  | after
  | beforeNew
  | afterNew
  deriving DecidableEq, Repr, Inhabited

instance : ToString HookPhase :=
  ⟨fun
    | .before => "before"
    | .beforeEach => "before_each"
    | .afterEach => "after_each"
    | .after => "after"
    | .beforeNew => "before_new"
    | .afterNew => "after_new"⟩

/-- A point at which a hook can be registered. -/
inductive HookSlot where
  | before (direction : Direction)
  | beforeEach (direction : Direction)
  | afterEach (direction : Direction)
  | after (direction : Direction)
  | beforeNew
  | afterNew
  deriving DecidableEq, Repr, Inhabited

namespace HookSlot

def phase : HookSlot → HookPhase
  | before _ => .before
  | beforeEach _ => .beforeEach
  | afterEach _ => .afterEach
  | after _ => .after
  | beforeNew => .beforeNew
  | afterNew => .afterNew

def direction? : HookSlot → Option Direction
  | before direction => some direction
  | beforeEach direction => some direction
  | afterEach direction => some direction
  | after direction => some direction
  | beforeNew => none
  | afterNew => none

def name (slot : HookSlot) : String :=
  let phase := slot.phase
  match slot.direction? with
  | some direction => s!"{phase}_{direction}"
  | none => s!"{phase}"

/-- The slots in the order in which settings list them. -/
def all : List HookSlot :=
  [.before .up, .beforeEach .up, .afterEach .up, .after .up,
   .before .down, .beforeEach .down, .afterEach .down, .after .down,
   .beforeNew, .afterNew]

def ofName? (name : String) : Option HookSlot := all.find? (fun slot => slot.name == name)

def rejection (name : String) : String := s!"Unknown hook point: {name}"

end HookSlot

end Migrations
