import FrontendAudit.Finding.Record
import FrontendAudit.Summary
import FrontendAudit.Xml.Element

/-!
# Formats of results

The results of all categories, written as test suites and in the interchange format for static
analysis.
-/

/-!
## Results as test suites

Each category is a suite with one case per issue. The case of a high finding is a failure, with the
code as its text.
-/

namespace FrontendAudit

namespace Junit

/-- The place of an issue: its file or address, with the line if it is known and not zero. -/
def location (f : Finding) : String :=
  let place := f.location?.getD ""
  match f.line with
  | some n => if n = 0 then place else place ++ ":" ++ toString n
  | none => place

/-- The failure that a high finding is. -/
def failures (f : Finding) : List Xml.Element :=
  if f.severity = .high then
    [.mk "failure" [("message", f.message), ("type", f.severity.name)] (f.code.getD "") []]
  else []

/-- The case of an issue. -/
def testCase (category : String) (f : Finding) : Xml.Element :=
  let place := location f
  .mk "testcase"
    [("name", f.kind ++ ": " ++ f.message),
     ("classname", if place.isEmpty then category else category ++ "." ++ place)]
    "" (failures f)

/-- The suite of a category. -/
def suite (category : String) (r : AuditResult) : Xml.Element :=
  .mk "testsuite"
    [("name", category), ("tests", toString r.counts.total), ("failures", toString r.counts.high)]
    "" (r.issues.map (testCase category))

/-- The suites of all categories. -/
def suites (results : Results) (timestamp : String) : Xml.Element :=
  .mk "testsuites" [("timestamp", timestamp)] "" (results.map fun (category, r) => suite category r)

end Junit

/-!
## Results in the interchange format for static analysis

Every issue is a result with a rule, a level, a message and one location. The rule is named after
the category; a location has a region only where the line is known.
-/

namespace Sarif

/-- The name of the tool. -/
def toolName : String := "ui-code-audit"

/-- The version of the tool. -/
def toolVersion : String := "0.1.0"

/-- The schema of the format. -/
def schema : String := "https://json.schemastore.org/sarif-2.1.0.json"

/-- The level of a severity. -/
def level : Severity → String
  | .high => "error"
  | .medium => "warning"
  | .low => "note"

/-- The region of a finding, where its line is known and not zero. -/
def region (f : Finding) : List (String × Json) :=
  match f.line with
  | some n =>
    if n = 0 then [] else [("region", .obj [("startLine", .int n), ("startColumn", .int 1)])]
  | none => []

/-- The result of an issue. -/
def result (category : String) (f : Finding) : Json :=
  .obj [("ruleId", .str (category ++ "-" ++ (nonempty? f.rule).getD f.kind)),
    ("level", .str (level f.severity)),
    ("message", .obj [("text", .str f.message)]),
    ("locations", .arr [.obj [("physicalLocation",
      .obj (("artifactLocation", .obj [("uri", .str (f.location?.getD "unknown"))]) ::
        region f))]])]

/-- The results of all categories. -/
def resultsOf (results : Results) : List Json :=
  results.flatMap fun (category, r) => r.issues.map (result category)

/-- The log of all categories. -/
def log (results : Results) : Json :=
  .obj [("$schema", .str schema),
    ("version", .str "2.1.0"),
    ("runs", .arr [.obj
      [("tool", .obj [("driver",
        .obj [("name", .str toolName), ("version", .str toolVersion)])]),
       ("results", .arr (resultsOf results))]])]

end Sarif

end FrontendAudit
