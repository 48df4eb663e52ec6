import FrontendAudit.Json.Misfit
import FrontendAudit.Json.Reader
import FrontendAudit.Lint.Tool
import FrontendAudit.Severity
import FrontendAudit.Text.Blank

/-!
# Reports of linters

A report is JSON: a list of results, one per file, each with a list of messages. Nothing at all is
an empty report. The two linters name the parts of a message differently and grade them differently;
rule, line and text are kept as they came.
-/

namespace FrontendAudit.Lint

/-- A message of a linter. -/
structure Message where
  rule : Json
  severity : Severity
  line : Json
  text : Json
  deriving Repr

/-- What is wrong with a report. -/
inductive ReportFault where
  | notJson
  | misfit (m : Misfit)
  deriving DecidableEq, Repr

/-- Whether a value is the given whole number; true and false count as one and zero. -/
def isNumber (n : Int) : Json → Bool
  | .int m => m = n
  | .float x => x.toInt? = some n
  | .bool b => (if b then 1 else 0) = n
  | _ => false

/-- The severity of an ESLint message of a given grade. -/
def gradeSeverity (grade fatal : Json) : Severity :=
  if !fatal.isVacant || isNumber 2 grade then .high
  else if isNumber 1 grade then .medium
  else .low

/-- The severity of a Stylelint message of a given grade. -/
def wordSeverity (grade : Json) : Severity :=
  if grade == .str "error" then .high else .medium

/-- A message of an ESLint report. -/
def eslintMessage (v : Json) : Except Misfit Message := do
  let rule ← v.memberOrNull "ruleId"
  let grade ← v.memberOrNull "severity"
  let fatal ← v.memberOrNull "fatal"
  let line ← v.memberOrNull "line"
  let text ← v.member "message"
  return ⟨rule, gradeSeverity grade fatal, line, text.getD (.str "")⟩

/-- A message of a Stylelint report. -/
def stylelintMessage (v : Json) : Except Misfit Message := do
  let rule ← v.memberOrNull "rule"
  let grade ← v.memberOrNull "severity"
  let line ← v.memberOrNull "line"
  let text ← v.member "text"
  return ⟨rule, wordSeverity grade, line, text.getD (.str "")⟩

/-- The messages of a result under a key; none if there is no such member. -/
def resultMessages (key : String) (message : Json → Except Misfit Message) (result : Json) :
    Except Misfit (List Message) := do
  let messages ← ((← result.member key).getD (.arr [])).items
  messages.mapM message

/-- The messages of the results of a report. -/
def reportMessages (linter : Linter) (report : Json) : Except Misfit (List Message) := do
  let results ← report.items
  let messages ← results.mapM fun result =>
    match linter with
    | .eslint => resultMessages "messages" eslintMessage result
    | .stylelint => resultMessages "warnings" stylelintMessage result
  return messages.flatten

/-- The text of a linter's report: Stylelint may write it where errors go. -/
def reportText (linter : Linter) (output errors : List Char) : List Char :=
  match linter with
  | .eslint => output
  | .stylelint => if Text.isBlankText output then errors else output

/-- The messages of what a linter wrote. -/
def parseReport (linter : Linter) (output errors : List Char) :
    Except ReportFault (List Message) :=
  let text := reportText linter output errors
  if Text.isBlankText text then .ok []
  else match Json.parse? text with
    | none => .error .notJson
    | some report => (reportMessages linter report).mapError .misfit

end FrontendAudit.Lint
