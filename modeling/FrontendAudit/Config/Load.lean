import FrontendAudit.Config.Basic
import FrontendAudit.Host
import FrontendAudit.Json.Reader
import FrontendAudit.Text.Quoted

/-!
# Finding the settings of a project

Settings come from one file: that of the project, or else that of the current directory. Two numbers
may be overridden by environment variables. A file that cannot be understood is a fault of the
configuration, and so is an override that is no positive integer.
-/

namespace FrontendAudit

/-- What is wrong with a configuration. -/
inductive ConfigFault where
  | unreadable (file : Path)
  | notObject (file : Path)
  | invalid (issues : List Issue)
  | notInteger (setting value : String)
  | notPositive (setting : String) (value : Int)
  | noEslintRules
  | noStylelintRules
  deriving DecidableEq, Repr

/-- Why settings could not be loaded. -/
inductive LoadFault where
  | config (fault : ConfigFault)
  /-- The bytes of the file are no text. -/
  | undecodable
  deriving DecidableEq, Repr

namespace Config

/-- The name of the file with settings. -/
def fileName : String := "ui-code-audit.config.json"

/-- The variable that overrides how many files are scanned at once. -/
def batchVariable : String := "UI_AUDIT_BATCH_SIZE"

/-- The variable that overrides how many findings are kept. -/
def issuesVariable : String := "UI_AUDIT_MAX_ISSUES"

/-- Where settings are looked for, in order. -/
def searchPaths (host : Host) (project : Path) : List Path :=
  [(project.resolve host.cwd).child fileName, host.cwd.child fileName].eraseDups

/-- The settings as data: those of the first file that is there, or none. -/
def readFirst (host : Host) (disk : Disk.Tree) : List Path → Except LoadFault Json
  | [] => .ok (.obj [])
  | file :: files =>
    match disk.file? (host.locate file) with
    | none => readFirst host disk files
    | some data =>
      match data.readStrict? with
      | none => .error .undecodable
      | some text =>
        match Json.parse? text with
        | none => .error (.config (.unreadable file))
        | some (.obj ms) => .ok (.obj ms)
        | some _ => .error (.config (.notObject file))

/-- The number that a variable sets; none if it is not set or blank. -/
def override? (host : Host) (setting : String) : Except ConfigFault (Option Nat) :=
  match host.valueOf? setting with
  | none => .ok none
  | some value =>
    if Text.isBlankText value.toList then .ok none
    else match Text.settingInt? value.toList with
      | none => .error (.notInteger setting value)
      | some n => if n < 1 then .error (.notPositive setting n) else .ok (some n.toNat)

/-- The settings with the overrides of the environment. -/
def overridden (host : Host) (c : Config) : Except ConfigFault Config := do
  let batchSize ← override? host batchVariable
  let maxIssues ← override? host issuesVariable
  return { c with
    batchSize := batchSize.getD c.batchSize
    maxIssues := maxIssues.getD c.maxIssues }

/-- The settings for a project. -/
def load (host : Host) (disk : Disk.Tree) (project : Path) : Except LoadFault Config := do
  let data ← readFirst host disk (searchPaths host project)
  match check data with
  | .bad issues => .error (.config (.invalid issues))
  | .ok c => (overridden host c).mapError .config

end Config

/-- The text of a fault of the configuration. -/
def ConfigFault.message : ConfigFault → String
  | .unreadable file => "Could not read " ++ file.toString
  | .notObject file => file.toString ++ " must contain a JSON object"
  | .invalid _ => "Invalid " ++ Config.fileName
  | .notInteger setting value =>
    setting ++ " must be an integer, got " ++ String.ofList (Text.quoted value.toList)
  | .notPositive setting value => setting ++ " must be positive, got " ++ toString value
  | .noEslintRules => ".eslintrc file is missing"
  | .noStylelintRules => ".stylelintrc.json file is missing"

end FrontendAudit
