import FrontendAudit.Audit.Run
import FrontendAudit.Lint.Exclusions
import FrontendAudit.Lint.Scan
import FrontendAudit.Lint.Settings
import FrontendAudit.Page.Fetch
import FrontendAudit.Project.Manifest
import FrontendAudit.Rule.Accessibility.Detectors
import FrontendAudit.Rule.Performance.Detectors
import FrontendAudit.Security.Review
import FrontendAudit.Security.Service

/-!
# The audits of the categories

Accessibility scans sources line by line, joins the signals of all files, and checks served pages.
Performance scans scripts, weighs images and looks through the manifest. The linters are run file by
file. Security asks the review service and scans nothing itself.
-/

namespace FrontendAudit

namespace AuditSetup

/-- The tree of the project. -/
def projectTree (s : AuditSetup) (w : World) : Disk.Tree :=
  (w.volume.tree.at? (s.host.locate s.project)).getD (.dir [])

/-- The files of a category. -/
def files (s : AuditSetup) (category : Category) : Run (List Path) := do
  let files ← Run.ofExcept (fun _ => Failure.badGlob)
    (category.files s.config (s.projectTree (← get)))
  return files.map fun file => s.project.join (.ofString file)

/-- The data of a file. -/
def data (s : AuditSetup) (file : Path) : Run Disk.FileData := do
  match (← get).volume.tree.file? (s.host.locate file) with
  | some data => return data
  | none => throw (.noFile file)

/-- Findings cut to size, provided that each has a location. -/
def accepted (findings : List Finding) : Run (List Finding) :=
  Run.ofExcept .misfit (Finding.acceptAll findings).toExcept

end AuditSetup

namespace Audit

/-- Finds the signals and the findings of a source. -/
def accessibilityScan (s : AuditSetup) (file : Path) : Run FileScan := do
  let content := (← s.data file).readTolerant
  let findings ← Run.ofExcept .misfit
    (Accessibility.scan (file.display s.project) content s.config.components).toExcept
  return { findings, signals := .ofContent content }

/-- Accessibility of sources and of served pages. -/
def accessibility (s : AuditSetup) (urls : List String) : Audit where
  category := Category.accessibility.name
  label := "Accessibility"
  enumerate := s.files .accessibility
  scan := accessibilityScan s
  finalize tally := do
    -- a project without files says nothing about landmarks
    let missing := if tally.scanned = 0 then [] else Accessibility.projectFindings tally.signals
    let missing ← AuditSetup.accepted missing
    return missing ++ (← Page.checkAll {} urls)

/-- The findings of a linter. -/
def lint (s : AuditSetup) (setup : LintSetup) : Audit where
  category := setup.linter.name
  label := setup.linter.label
  enumerate := s.files setup.linter.category
  scan file := do
    let findings ← setup.findings file
    return { findings }
  finalize _ := return []

/-- Weighs an image, or finds what a script does wastefully. -/
def performanceScan (s : AuditSetup) (file : Path) : Run FileScan := do
  let path := file.display s.project
  let extension := (Path.ofString path).extension
  let data ← s.data file
  let findings :=
    if Performance.isImageExtension extension then
      Finding.acceptAll (Performance.checkAsset path extension data.size)
    else Performance.scan path data.readTolerant
  let findings ← Run.ofExcept .misfit findings.toExcept
  return { findings }

/-- The heavy packages of the project's manifest, if it has one that can be read. -/
def manifestFindings (s : AuditSetup) : Run (List Finding) := do
  let file := s.project.child "package.json"
  match (← get).volume.tree.file? (s.host.locate file) with
  | none => return []
  | some data =>
    match data.readStrict? with
    | none => throw .undecodable
    | some text =>
      match Json.parse? text with
      | none =>
        Run.note (.warning ("[performance] could not read " ++ file.toString))
        return []
      | some (.obj ms) =>
        AuditSetup.accepted (← Run.ofExcept .misfit (Manifest.heavyDependencies (.obj ms)))
      | some _ =>
        Run.note (.warning ("[performance] " ++ file.toString ++ " is not a JSON object"))
        return []

/-- Performance of scripts, images and packages. -/
def performance (s : AuditSetup) : Audit where
  category := Category.performance.name
  label := "Performance"
  enumerate := s.files .performance
  scan := performanceScan s
  finalize _ := manifestFindings s

/-- The findings of the review of a repository, if there is one to review. -/
def reviewFindings (s : AuditSetup) (repository : Option String) (service : Service) :
    Run (List Finding) := do
  match nonempty? repository with
  | none =>
    Run.note (.warning ("[security] no repo_url for " ++ s.project.toString ++
      "; security-review skipped"))
    return []
  | some repository =>
    let review ← Run.retry {} "security-review agent" (service.review repository)
    Run.ofExcept .misfit (Review.findings (review.getD .null))

/-- Security as the review service sees it. -/
def security (s : AuditSetup) (repository : Option String) (service : Service) : Audit where
  category := Category.security.name
  label := "Security"
  enumerate := return []
  scan _ := return {}
  finalize _ := reviewFindings s repository service

end Audit

end FrontendAudit
