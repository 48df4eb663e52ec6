import FrontendAudit.Lint.Conversion
import FrontendAudit.World

/-!
# Linting a file

The linter is run on the file, again if it fails or writes no report. A file that it never reports
on, or without messages, has no findings; otherwise the file is read and its findings quote it.
-/

namespace FrontendAudit

/-- A linter set up for a project. -/
structure LintSetup where
  linter : Linter
  project : Path
  settings : Path
  excluded : List String
  deriving Repr, Inhabited

namespace LintSetup

/-- What is said of a run that ended without a report. -/
def exitText (s : LintSetup) (file : Path) (code : Int) (output errors : String) : String :=
  let said := Text.strip (if errors.isEmpty then output.toList else errors.toList)
  let detail := String.ofList (Text.joinWith [' '] ((Text.breakLines said).take 3))
  s.linter.name ++ " exited with " ++ toString code ++ " on " ++ file.toString ++ ": " ++ detail

/-- The messages about a file, from one run of the linter. -/
def messages (s : LintSetup) (file : Path) : Run (List Lint.Message) := do
  match ← Run.act (World.runTool s.linter.name (file.display s.project)) with
  | .notStarted => throw (.outside ("Could not start " ++
      ((s.linter.command s.settings.toString file.toString).headD "")))
  | .exited code output errors =>
    if s.linter.reportCodes.contains code then
      match Lint.parseReport s.linter output.toList errors.toList with
      | .ok messages => return messages
      | .error (.misfit .noMembers) => throw (.misfit .noMembers)
      | .error _ => throw (.outside
          ("Unreadable " ++ s.linter.name ++ " output for " ++ file.toString))
    else throw (.outside (s.exitText file code output errors))

/-- The lines of a file of the volume. -/
def readLines (file : Path) : Run (List (List Char)) := do
  match (← get).volume.tree.file? file.parts with
  | some data => return Text.sourceLines data.readTolerant
  | none => throw (.noFile file)

/-- The findings about a file. -/
def findings (s : LintSetup) (file : Path) : Run (List Finding) := do
  let path := file.display s.project
  let messages ← Run.retry {} (s.linter.name ++ " on " ++ path) (s.messages file)
  match messages.getD [] with
  | [] => return []
  | messages =>
    let lines ← readLines file
    Run.ofExcept .misfit
      (Lint.findings s.linter s.excluded path lines (messages.map Lint.Message.toRecord))

end LintSetup

end FrontendAudit
