import FrontendAudit.Json.Basic
import FrontendAudit.Path

/-!
# Names of reports

Each category has a report of its own; beside them stand the combined report, the page for people,
and the files for integration platforms.
-/

namespace FrontendAudit.Report

/-- The names of the reports of categories. -/
def categoryNames : List (String × String) :=
  [("accessibility", "accessibility-audit-report.json"),
   ("eslint", "eslint-report.json"),
   ("stylelint", "stylelint-report.json"),
   ("security", "security-audit-report.json"),
   ("performance", "performance-audit-report.json")]

/-- The name of the report of a category. -/
def nameOf (category : String) : String :=
  (Json.lookup? category categoryNames).getD (category ++ "-report.json")

/-- The report of a category in a directory. -/
def categoryPath (directory : Path) (category : String) : Path :=
  directory.child (nameOf category)

/-- The name of the combined report. -/
def combinedName : String := "audit-report.json"

/-- The name of the page. -/
def pageName : String := "audit-report.html"

/-- The name of the report as test suites. -/
def junitName : String := "ui-code-audit-junit.xml"

/-- The name of the report for static analysis. -/
def sarifName : String := "ui-code-audit.sarif"

/-- The name of the summary of the gate. -/
def summaryName : String := "ci-summary.json"

end FrontendAudit.Report
