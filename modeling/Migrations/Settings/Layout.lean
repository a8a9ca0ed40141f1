import Migrations.Home.Path
import Migrations.Settings.Environment

/-!
# Layouts

The directories of a migrations home: the base with the settings files, the scripts and the hooks
below it, each of which can be elsewhere instead.
-/

namespace Migrations

structure Layout where
  base : Path
  /-- One settings file per environment. -/
  environments : Path
  /-- The numbered scripts, and the reserved ones. -/
  scripts : Path
  /-- The files of hooks. -/
  hooks : Path
  deriving DecidableEq, Repr, Inhabited

namespace Layout

/-- The usual directories below a base. -/
def below (base : Path) : Layout where
  base := base
  environments := base.join "environments"
  scripts := base.join "scripts"
  hooks := base.join "hooks"

def environmentFile (layout : Layout) (environment : Environment) : Path :=
  layout.environments.join environment.fileName

end Layout

end Migrations
