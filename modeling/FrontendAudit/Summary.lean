import FrontendAudit.Finding.Record

/-!
# Results of an audit

The findings of a run are reduced to one per issue, the first of each kept in its place (`dedupe`),
and counted by severity. Counts of several audits add up column by column.
-/

namespace FrontendAudit

/-- Numbers of findings by severity. -/
structure Counts where
  high : Int := 0
  medium : Int := 0
  low : Int := 0
  total : Int := 0
  deriving DecidableEq, Repr, Inhabited

namespace Counts

/-- Adds column by column. -/
def add (a b : Counts) : Counts :=
  ⟨a.high + b.high, a.medium + b.medium, a.low + b.low, a.total + b.total⟩

/-- The counts as a record. -/
def toRecord (c : Counts) : Json :=
  .obj [("high", .int c.high), ("medium", .int c.medium), ("low", .int c.low),
    ("total", .int c.total)]

/-- The numbers of findings of each severity. -/
def ofFindings (fs : List Finding) : Counts :=
  let count (s : Severity) : Int := fs.countP (·.severity = s)
  { high := count .high, medium := count .medium, low := count .low
    total := count .high + count .medium + count .low }

end Counts

/-- Drops the findings whose key was seen before or stands earlier in the list. -/
def dedupeAfter (seen : List Finding.Key) : List Finding → List Finding
  | [] => []
  | f :: fs =>
    if f.key ∈ seen then dedupeAfter seen fs else f :: dedupeAfter (f.key :: seen) fs

/-- The first finding of each issue, in order. -/
def dedupe (fs : List Finding) : List Finding :=
  dedupeAfter [] fs

/-- What an audit of one category found. -/
structure AuditResult where
  timestamp : String
  counts : Counts
  issues : List Finding
  deriving DecidableEq, Repr, Inhabited

/-- The time that is given, or the time now when none is given. -/
def stamp (now : String) (time : Option String) : String :=
  (nonempty? time).getD now

/-- The result of a list of findings. -/
def summarize (now : String) (findings : List Finding) (time : Option String := none) :
    AuditResult :=
  let issues := dedupe findings
  { timestamp := stamp now time, counts := .ofFindings issues, issues }

/-- The results of several categories, in the order in which they were run. -/
abbrev Results := List (String × AuditResult)

/-- The counts of all categories together. -/
def mergeCounts (results : Results) : Counts :=
  results.foldl (fun total r => total.add r.2.counts) {}

namespace AuditResult

/-- The members of the record of a result, with a record for each issue. -/
def fields (r : AuditResult) (issue : Finding → Json) : Json :=
  .obj [("timestamp", .str r.timestamp),
    ("totalIssues", .int r.counts.total),
    ("highSeverity", .int r.counts.high),
    ("mediumSeverity", .int r.counts.medium),
    ("lowSeverity", .int r.counts.low),
    ("issues", .arr (r.issues.map issue))]

/-- The record of a result. -/
def toRecord (r : AuditResult) : Json :=
  r.fields Finding.toRecord

/-- Reads a result from its record. -/
def check : Json → Checked AuditResult :=
  Checked.record fun ms =>
    (fun timestamp total high medium low issues =>
        ({ timestamp, counts := { high, medium, low, total }, issues } : AuditResult))
      <$> Checked.field ["timestamp"] none Checked.text ms
      <*> Checked.field ["totalIssues", "total_issues"] (some 0) Checked.integer ms
      <*> Checked.field ["highSeverity", "high_severity"] (some 0) Checked.integer ms
      <*> Checked.field ["mediumSeverity", "medium_severity"] (some 0) Checked.integer ms
      <*> Checked.field ["lowSeverity", "low_severity"] (some 0) Checked.integer ms
      <*> Checked.field ["issues"] (some []) (Checked.list Finding.check) ms

end AuditResult

end FrontendAudit
