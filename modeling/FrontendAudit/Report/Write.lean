import FrontendAudit.Gate.Format
import FrontendAudit.Host
import FrontendAudit.Json.Printer
import FrontendAudit.Report.Page
import FrontendAudit.World

/-!
# Writing reports

Reports are written one by one. One that cannot be written is noted as an error and left out of the
list of reports; it never ends a run.

All reports are written alike, since every text here can be encoded and a write fails only where the
disk refuses it. Text with half of a surrogate pair is left out: it cannot be encoded, which would
keep a report in JSON from being written but end the run at the page or at the JUnit report.
-/

namespace FrontendAudit.Report

/-- A report that is to be written. -/
structure Artifact where
  path : Path
  text : String
  deriving DecidableEq, Repr

/-- The report of a category. -/
def categoryArtifact (directory : Path) (category : String) (result : AuditResult) : Artifact :=
  ⟨categoryPath directory category, result.toRecord.pretty⟩

/-- The combined report and the page. -/
def responseArtifacts (directory : Path) (r : Response) : List Artifact :=
  [⟨directory.child combinedName, r.toCombined.pretty⟩, ⟨directory.child pageName, page r⟩]

/-- The files for integration platforms. -/
def gateArtifacts (directory : Path) (now : String) (results : Results) (gate : GateReport) :
    List Artifact :=
  [⟨directory.child junitName, (Junit.suites results now).document⟩,
   ⟨directory.child sarifName, (Sarif.log results).pretty⟩,
   ⟨directory.child summaryName, (gate.toSummary now).pretty⟩]

/-- The error about a report that cannot be written. -/
def failureText (path : Path) : String := "Failed to write report " ++ path.toString

/-- Writes a report, if that is possible. -/
def write (host : Host) (a : Artifact) (w : World) : Option Path × World :=
  match w.volume.write? (host.locate a.path) (.text a.text) with
  | some volume => (some a.path, { w with volume })
  | none => (none, w.note [.error (failureText a.path)])

/-- Writes reports in order; the paths of those that were written. -/
def writeAll (host : Host) : List Artifact → World → List Path × World
  | [], w => ([], w)
  | a :: as, w =>
    let (path?, w) := write host a w
    let (paths, w) := writeAll host as w
    (path?.toList ++ paths, w)

end FrontendAudit.Report
