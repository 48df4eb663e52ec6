import FrontendAudit.Gate.Evaluation

/-!
# The response to a request

What a run answers: its name, the results of the categories, their counts together, the reports that
were written, and what came of the gate, if there was one.
-/

namespace FrontendAudit

/-- The answer of a run. -/
structure Response where
  scanId : String
  projectKind : Option String
  categories : Results
  summary : Counts
  reports : List String := []
  gate : Option GateReport := none
  deriving DecidableEq, Repr, Inhabited

namespace Response

/-- The answer for some results. -/
def ofResults (scanId : String) (projectKind : Option String) (results : Results)
    (gate : Option GateReport) : Response :=
  { scanId, projectKind, categories := results, summary := mergeCounts results, gate }

/-- The record of a response, with null for what is absent. -/
def toRecord (r : Response) : Json :=
  .obj [("scan_id", .str r.scanId),
    ("project_type", Json.ofOption .str r.projectKind),
    ("categories", .obj (r.categories.map fun (category, result) =>
      (category, result.fields Finding.toFullRecord))),
    ("summary", r.summary.toRecord),
    ("reports", .arr (r.reports.map .str)),
    ("ci", Json.ofOption GateReport.toRecord r.gate)]

/-- The record of the combined report. -/
def toCombined (r : Response) : Json :=
  .obj ([("scanId", .str r.scanId),
    ("projectType", Json.ofOption .str r.projectKind),
    ("summary", r.summary.toRecord),
    ("categories", .obj (r.categories.map fun (category, result) =>
      (category, result.toRecord)))] ++
    (r.gate.map fun g => ("ci", g.toRecord)).toList)

end Response

end FrontendAudit
