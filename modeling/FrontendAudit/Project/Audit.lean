import FrontendAudit.Audit.Category
import FrontendAudit.Gate.Platform
import FrontendAudit.Request

/-!
# Auditing a project

First everything is checked that can be wrong with a request: the directory, the kind of project,
the settings, the rules of the linters. Then each category is audited in turn, the gate is evaluated
if it is asked for, and the reports are written. A repository is cloned first and its clone removed
at the end.
-/

namespace FrontendAudit

/-- The kind of project that a request names, if it names any. -/
def Request.kind (r : Request) : Except Failure (Option ProjectKind) :=
  match nonempty? r.projectKind with
  | none => .ok none
  | some name =>
    match ProjectKind.ofName? name with
    | some kind => .ok (some kind)
    | none => .error (.unknownKind name)

namespace Project

/-- What is needed to audit a project, besides the request. -/
structure Context where
  host : Host
  service : Service
  deriving Repr, Inhabited

/-- The directory of a project, which has to be there. -/
def directory (host : Host) (path : String) (w : World) : Except Failure Path :=
  let directory := (Path.ofString path).resolve host.cwd
  match w.volume.tree.at? (host.locate directory) with
  | none => .error (.noProject path)
  | some (.file _) => .error (.noDirectory path)
  | some (.dir _) => .ok directory

/-- The settings in force: those of the project, with the batch size of the request. -/
def settings (host : Host) (r : Request) (directory : Path) (w : World) : Except Failure Config :=
  match Config.load host w.volume.tree directory with
  | .error (.config fault) => .error (.config fault)
  | .error .undecodable => .error .undecodable
  | .ok c => .ok { c with batchSize := r.batchSize.getD c.batchSize }

/-- The audit of a category. -/
def auditOf (c : Context) (r : Request) (s : AuditSetup) (kind : Option ProjectKind) (w : World) :
    Category → Except Failure Audit
  | .accessibility => .ok (.accessibility s r.urls)
  | .performance => .ok (.performance s)
  | .security => .ok (.security s r.repository c.service)
  | .eslint => lintAudit .eslint
  | .stylelint => lintAudit .stylelint
where
  lintAudit (linter : Linter) : Except Failure Audit :=
    match linter.settings c.host w.volume.tree s.project kind r.recommendedRules with
    | .error fault => .error (.config fault)
    | .ok file => .ok (.lint s
        { linter, project := s.project, settings := file
          excluded := s.config.excludedRules linter.name linter.builtInExclusions })

/-- Everything that is settled before the first audit. -/
structure Plan where
  kind : Option ProjectKind
  setup : AuditSetup
  audits : List Audit

/-- Checks a request for the project at a path. -/
def plan (c : Context) (r : Request) (path : String) (w : World) : Except Failure Plan := do
  let directory ← directory c.host path w
  let kind ← r.kind
  let config ← settings c.host r directory w
  let setup : AuditSetup :=
    { host := c.host, project := directory, config, reportDir := r.reportPath }
  let audits ← r.distinctCategories.mapM (auditOf c r setup kind w)
  return { kind, setup, audits }

/-- What the audits gave, and the reports that they wrote. -/
structure Findings where
  results : Results := []
  reports : List Path := []

/-- Runs audits in turn, until one fails. -/
def runAudits (s : AuditSetup) : List Audit → World → Except Failure Findings × World
  | [], w => (.ok {}, w)
  | a :: as, w =>
    match a.run s {} w with
    | ⟨.error e, _, w⟩ => (.error e, w)
    | ⟨.ok result, state, w⟩ =>
      match runAudits s as w with
      | (.error e, w) => (.error e, w)
      | (.ok found, w) =>
        (.ok ⟨(a.category, result) :: found.results, state.report.toList ++ found.reports⟩, w)

/-- Whether the gate is evaluated: on request, and on an integration platform if the settings say
so. -/
def usesGate (r : Request) (config : Config) (platform : Platform) : Bool :=
  r.gate || (config.gate.enabled && platform != .here)

/-- What came of the gate, if it is evaluated. -/
def gate (r : Request) (config : Config) (platform : Platform) (results : Results) :
    Option GateReport :=
  if usesGate r config platform then
    some (.evaluate results config.gate platform.name)
  else none

/-- The warnings of the gate, if it is evaluated. -/
def gateNotes (r : Request) (config : Config) (platform : Platform) (results : Results) :
    List Note :=
  if usesGate r config platform then GateReport.warnings results config.gate.thresholds else []

/-- The reports about all categories together. -/
def artifacts (host : Host) (r : Request) (response : Response) : List Report.Artifact :=
  match r.reportPath with
  | none => []
  | some directory =>
    Report.responseArtifacts directory response ++
      match response.gate with
      | some g => Report.gateArtifacts directory host.now response.categories g
      | none => []

/-- Runs a plan. -/
def runPlan (c : Context) (r : Request) (p : Plan) (w : World) : Except Failure Response × World :=
  match runAudits p.setup p.audits w with
  | (.error e, w) => (.error e, w)
  | (.ok found, w) =>
    let platform := Platform.ofHost c.host
    let config := p.setup.config
    let w := w.note (gateNotes r config platform found.results)
    let response := Response.ofResults c.host.runId (p.kind.map ProjectKind.name) found.results
      (gate r config platform found.results)
    let (written, w) := Report.writeAll c.host (artifacts c.host r response) w
    (.ok { response with reports := (found.reports ++ written).map Path.toString }, w)

/-- Audits the project at a path. -/
def auditAt (c : Context) (r : Request) (path : String) (w : World) :
    Except Failure Response × World :=
  match plan c r path w with
  | .error e => (.error e, w)
  | .ok p => runPlan c r p w

/-- Clones a repository, if there is one to be had. -/
def clone (host : Host) (w : World) : Option World :=
  w.repository.bind fun tree =>
    (w.volume.mount? (host.locate host.cloneDir) tree).map fun volume => { w with volume }

/-- Audits a clone of a repository, which is gone afterwards. -/
def auditClone (c : Context) (r : Request) (repository : String) (w : World) :
    Except Failure Response × World :=
  let w := w.note [.cloned repository 1]
  match clone c.host w with
  | none => (.error .noClone, w)
  | some w =>
    let (result, w) := auditAt c r c.host.cloneDir.toString w
    (result, { w with volume := w.volume.remove (c.host.locate c.host.cloneDir) })

/-- Audits what a request asks for. -/
def audit (c : Context) (r : Request) (w : World) : Except Failure Response × World :=
  match nonempty? r.path, nonempty? r.repository with
  | some path, _ => auditAt c r path w
  | none, some repository => auditClone c r repository w
  | none, none => (.error .noLocation, w)

end Project

end FrontendAudit
