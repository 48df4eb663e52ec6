import FrontendAudit.Disk.Tree
import FrontendAudit.Path

/-!
# The host of a run

What a run depends on besides its request and the files: the current directory, the environment
variables, the time, the name of the run, where the bundled rule files lie, and where a repository
is cloned to.
-/

namespace FrontendAudit

/-- The surroundings of a run, which it does not change. -/
structure Host where
  cwd : Path
  environment : List (String × String)
  now : String
  runId : String
  rulesDir : Path
  cloneDir : Path
  deriving Repr, Inhabited

namespace Host

/-- The value of an environment variable. -/
def valueOf? (h : Host) (name : String) : Option String :=
  (h.environment.find? (·.1 = name)).map (·.2)

/-- The parts of the absolute path that a path stands for. -/
def locate (h : Host) (p : Path) : List String :=
  (p.resolve h.cwd).parts

end Host

end FrontendAudit
