import FrontendAudit.Config.Basic
import FrontendAudit.Journal
import FrontendAudit.Summary

/-!
# The quality gate

A category fails the gate when it has more high findings than its threshold allows; a category that
was not run, or has no threshold, cannot fail. The gate is passed when no category fails.
-/

namespace FrontendAudit

/-- What came of the gate. -/
structure GateReport where
  platform : String
  passed : Bool
  summary : List (String × Counts)
  thresholds : List (String × Int)
  failures : List String
  failOnHigh : Bool
  deriving DecidableEq, Repr, Inhabited

namespace GateReport

/-- The counts of each category. -/
def summaryOf (results : Results) : List (String × Counts) :=
  results.map fun (category, r) => (category, r.counts)

/-- The number of high findings of a category, if it is above its threshold. -/
def excess? (results : Results) (threshold : String × Int) : Option Int :=
  match Json.lookup? threshold.1 results with
  | some r => if threshold.2 < r.counts.high then some r.counts.high else none
  | none => none

/-- The categories that fail, in the order of the thresholds. -/
def failuresOf (results : Results) (thresholds : List (String × Int)) : List String :=
  (thresholds.filter fun t => (excess? results t).isSome).map (·.1)

/-- What came of the gate for some results. -/
def evaluate (results : Results) (config : GateConfig) (platform : String) : GateReport :=
  let failures := failuresOf results config.thresholds
  { platform
    passed := failures.isEmpty
    summary := summaryOf results
    thresholds := config.thresholds
    failures
    failOnHigh := config.failOnHigh }

/-- The warnings about categories that fail. -/
def warnings (results : Results) (thresholds : List (String × Int)) : List Note :=
  thresholds.filterMap fun t => (excess? results t).map fun high =>
    .warning (t.1 ++ ": " ++ toString high ++ " high issues (threshold: " ++ toString t.2 ++ ")")

/-- Counts of categories as an object. -/
def countsRecord (summary : List (String × Counts)) : Json :=
  .obj (summary.map fun (category, c) => (category, c.toRecord))

/-- Thresholds as an object. -/
def thresholdsRecord (thresholds : List (String × Int)) : Json :=
  .obj (thresholds.map fun (category, n) => (category, .int n))

/-- The record of the gate. -/
def toRecord (g : GateReport) : Json :=
  .obj [("platform", .str g.platform),
    ("passed", .bool g.passed),
    ("summary", countsRecord g.summary),
    ("thresholds", thresholdsRecord g.thresholds),
    ("failures", .arr (g.failures.map .str)),
    ("fail_on_high", .bool g.failOnHigh)]

/-- The record of the gate for integration platforms. -/
def toSummary (g : GateReport) (now : String) : Json :=
  .obj [("timestamp", .str now),
    ("ciPlatform", .str g.platform),
    ("passed", .bool g.passed),
    ("summary", countsRecord g.summary),
    ("thresholds", thresholdsRecord g.thresholds),
    ("failures", .arr (g.failures.map .str))]

end GateReport

end FrontendAudit
