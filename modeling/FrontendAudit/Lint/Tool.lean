import FrontendAudit.Disk.Category

/-!
# Linters

A linter is run once per file, with the rules of one file of settings and a report in JSON. Its exit
code says whether there is a report at all.
-/

namespace FrontendAudit

/-- A linter. -/
inductive Linter where
  | eslint
  | stylelint
  deriving DecidableEq, Repr, Inhabited

namespace Linter

/-- The name of a linter, and of its category of audits. -/
def name : Linter → String
  | eslint => "eslint"
  | stylelint => "stylelint"

/-- The linter of a name. -/
def ofName? (s : String) : Option Linter := [eslint, stylelint].find? (·.name = s)

/-- The category of audits that a linter makes up. -/
def category : Linter → Category
  | eslint => .eslint
  | stylelint => .stylelint

/-- The name of a linter as progress shows it. -/
def label : Linter → String
  | eslint => "ESLint"
  | stylelint => "Stylelint"

/-- The exit codes after which there is a report: without problems, and with problems. -/
def reportCodes : Linter → List Int
  | eslint => [0, 1]
  | stylelint => [0, 2]

/-- The command that lints a file with the rules of a file of settings. -/
def command (linter : Linter) (settings file : String) : List String :=
  match linter with
  | eslint => ["npx", "--no-install", "eslint", "--no-eslintrc", "--config", settings, "--format",
      "json", file]
  | stylelint => ["npx", "--no-install", "stylelint", file, "--config", settings, "--formatter",
      "json"]

/-- The variables that are set for the command. -/
def environment : Linter → List (String × String)
  | eslint => [("ESLINT_USE_FLAT_CONFIG", "false")]
  | stylelint => []

end Linter

end FrontendAudit
