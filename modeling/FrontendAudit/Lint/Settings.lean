import FrontendAudit.Config.Load
import FrontendAudit.Lint.Tool
import FrontendAudit.Project.Kind

/-!
# The settings of linters

A linter takes its rules from one file. For ESLint, the rules bundled for the kind of project come
first; then, for both linters, the bundled rules if they are asked for, the project's own, and the
bundled rules otherwise.
-/

namespace FrontendAudit.Linter

/-- The bundled rules of a linter. -/
def bundledName : Linter → String
  | eslint => ".eslintrc.json"
  | stylelint => ".stylelintrc.json"

/-- The bundled ESLint rules for a kind of project. -/
def kindName : ProjectKind → String
  | .react => "eslintrc.react.json"
  | .node => "eslintrc.node.json"
  | .vanilla => "eslintrc.vanilla.json"
  | .typescript => "eslintrc.typescript.json"
  | .typescriptReact => "eslintrc.tsreact.json"

/-- The names that a project's own rules may have, in order. -/
def projectNames : Linter → List String
  | eslint => [".eslintrc", ".eslintrc.js", ".eslintrc.yml", ".eslintrc.json"]
  | stylelint => ["stylelint.config.js", ".stylelintrc.js", ".stylelintrc.yml", ".stylelintrc.json"]

/-- The fault when no rules are found. -/
def noRules : Linter → ConfigFault
  | eslint => .noEslintRules
  | stylelint => .noStylelintRules

/-- The files that may hold the rules of a linter, in order. -/
def candidates (linter : Linter) (project rules : Path) (kind : Option ProjectKind)
    (recommended : Bool) : List Path :=
  let ofKind := match linter, kind with
    | eslint, some kind => [rules.child (kindName kind)]
    | _, _ => []
  let bundled := rules.child linter.bundledName
  ofKind ++ (if recommended then [bundled] else []) ++
    linter.projectNames.map project.child ++ [bundled]

/-- The file with the rules of a linter. -/
def settings (linter : Linter) (host : Host) (disk : Disk.Tree) (project : Path)
    (kind : Option ProjectKind) (recommended : Bool) : Except ConfigFault Path :=
  match (linter.candidates project host.rulesDir kind recommended).find?
      fun file => disk.isFile (host.locate file) with
  | some file => .ok file
  | none => .error linter.noRules

end FrontendAudit.Linter
