import FrontendAudit.Proofs.Audit.Refusals
import FrontendAudit.Proofs.Disk.Endings
import FrontendAudit.Proofs.Project.Categories

/-!
# Runs whose reports are refused

A report that cannot be written is left out of the list of reports, and nothing else is lost, as
long as no category looks at the report of one that is audited before it
(`refusals_change_reports`). The reports that are listed are those that can be written, in a fixed
order and each once. By default no category looks at the report of another
(`Plan.reportsUnseen_of_default`). One that does may find something else when the report was refused
(`refused_report_changes_findings`).
-/

namespace FrontendAudit

open Disk (Tree Volume)

/-! ## Names of reports -/

namespace Report

/-- The names of the reports about all categories together, with those of the gate if it is
evaluated. -/
def sharedNames (gated : Bool) : List String :=
  [combinedName, pageName] ++ if gated then [junitName, sarifName, summaryName] else []

/-- The names of the reports of a run, in the order in which they are written. -/
def names (categories : List Category) (gated : Bool) : List String :=
  categories.map (fun category => nameOf category.name) ++ sharedNames gated

theorem nameOf_injective : Function.Injective fun category : Category => nameOf category.name := by
  intro category other
  cases category <;> cases other <;> decide +kernel

/-- The report of a category has a name of its own. -/
theorem nameOf_not_mem_sharedNames (category : Category) (gated : Bool) :
    nameOf category.name ∉ sharedNames gated := by
  cases category <;> cases gated <;> decide +kernel

theorem isFileName_of_mem_names {categories : List Category} {gated : Bool} :
    ∀ name ∈ names categories gated, IsFileName name := by
  have hshared : ∀ name ∈ sharedNames gated, IsFileName name := by
    cases gated <;> decide +kernel
  intro name hname
  rcases List.mem_append.mp hname with hname | hname
  · obtain ⟨category, -, rfl⟩ := List.mem_map.mp hname
    exact isFileName_nameOf category
  · exact hshared name hname

/-- Reports have different names. -/
theorem nodup_names {categories : List Category} (h : categories.Nodup) (gated : Bool) :
    (names categories gated).Nodup := by
  have hshared : (sharedNames gated).Nodup := by
    cases gated <;> decide +kernel
  refine List.nodup_append.mpr ⟨h.map nameOf_injective, hshared, ?_⟩
  intro name hname other hother
  obtain ⟨category, -, rfl⟩ := List.mem_map.mp hname
  rintro rfl
  exact nameOf_not_mem_sharedNames category gated hother

end Report

/-! ## Runs of audits -/

/-- The same world, where other writes are refused. -/
def World.refusing (w : World) (refuses : List String → Bool) : World :=
  { w with volume := { w.volume with refuses } }

/-- A response without its list of reports. -/
def Response.unlisted (r : Response) : Response := { r with reports := [] }

namespace Project

open World (SameAnswers)

section

variable {s : AuditSetup} {v₀ v₀' : Volume} {entries : List (String × Tree)}
  {places reports : List (List String)} {categories requested : List Category} {audits : List Audit}
  {w w' : World}

/-- Audits come to the same results, whichever reports are refused, if none looks at a report of one
before it. -/
theorem runAudits_refused (h : s.Refusing v₀ v₀' entries places categories)
    (hrequested : ∀ category ∈ requested, category ∈ categories)
    (haudits : List.Forall₂ (fun category a => Audit.IsOf a s category) requested audits)
    (hreports : ∀ place ∈ reports, place ∈ places)
    (hunseen : ∀ category ∈ requested, s.Unseen entries reports category)
    (hlater : requested.Pairwise fun earlier later =>
      s.Unseen entries (s.reportPlaces earlier) later)
    (hvolumes : Volume.SameBut v₀ v₀' places reports w.volume w'.volume)
    (hanswers : ∀ category, SameAnswers category w w') :
    (runAudits s audits w).1.map Findings.results =
      (runAudits s audits w').1.map Findings.results := by
  induction haudits generalizing reports w w' with
  | nil => rfl
  | @cons category a requested audits ha hrest ih =>
      rw [List.forall_mem_cons] at hrequested hunseen
      rw [List.pairwise_cons] at hlater
      obtain ⟨hresult, hvolumes₁, hanswers₁⟩ :=
        Audit.run_refused h hrequested.1 ha hreports hunseen.1
        hvolumes hanswers
      -- the report of this audit is one more in which the volumes may differ
      have hreports₁ : ∀ place ∈ reports ++ s.reportPlaces category, place ∈ places := by
        intro place hplace
        rcases List.mem_append.mp hplace with hplace | hplace
        · exact hreports place hplace
        · exact h.writes.report category hrequested.1 place hplace
      have hunseen₁ : ∀ later ∈ requested,
          s.Unseen entries (reports ++ s.reportPlaces category) later := by
        intro later hmem
        exact (hunseen.2 later hmem).append (hlater.1 later hmem)
      rw [results_cons, results_cons, hresult,
        ih hrequested.2 hreports₁ hunseen₁ hlater.2 hvolumes₁ hanswers₁]

/-- The reports of audits that are written are those that the volume took from the start. -/
theorem reports_of_runAudits (h : s.WritesTo places categories) {directory : Path}
    (hdirectory : s.reportDir = some directory)
    (hrequested : ∀ category ∈ requested, category ∈ categories)
    (haudits : List.Forall₂ (fun category a => Audit.IsOf a s category) requested audits)
    (hfilled : v₀.Filled places w.volume) :
    v₀.Filled places (runAudits s audits w).2.volume ∧
      ∀ found, (runAudits s audits w).1 = .ok found →
        found.reports = (requested.map fun category =>
          Report.categoryPath directory category.name).filter fun file =>
            v₀.takes (s.host.locate file) := by
  induction haudits generalizing w with
  | nil =>
      refine ⟨hfilled, fun found hfound => ?_⟩
      obtain rfl : {} = found := Except.ok.inj hfound
      rfl
  | @cons category a requested audits ha hrest ih =>
      rw [List.forall_mem_cons] at hrequested
      -- only places of reports and streams were written, so what can be written is as it was
      obtain ⟨hfilled₁, hreport⟩ := Audit.report_of_run h hrequested.1 ha hfilled
      obtain ⟨hfilled₂, hmore⟩ := ih hrequested.2 hfilled₁
      constructor
      · rw [world_cons]
        split
        · exact hfilled₂
        · exact hfilled₁
      · intro found hfound
        obtain ⟨result, more, hresult, hrest, rfl⟩ := runAudits_cons_eq_ok hfound
        dsimp only
        rw [hreport result hresult, hmore more hrest, AuditSetup.reportFile?, hdirectory,
          Option.map_some, List.map_cons, List.filter_cons, Option.filter]
        split <;> rfl

end

/-! ## Reports about all categories -/

variable {c : Context} {r : Request} {path : String} {w : World} {p : Plan}

/-- The reports about all categories that are written are those that the volume took from the
start. -/
theorem written_of_writeAll {v₀ : Volume} {places : List (List String)} (hapart : Disk.Apart places)
    {host : Host} {artifacts : List Report.Artifact}
    (hplaces : ∀ a ∈ artifacts, host.locate a.path ∈ places) (hfilled : v₀.Filled places w.volume) :
    (Report.writeAll host artifacts w).1 =
      (artifacts.map Report.Artifact.path).filter fun file => v₀.takes (host.locate file) := by
  induction artifacts generalizing w with
  | nil => rfl
  | cons a artifacts ih =>
      rw [List.forall_mem_cons] at hplaces
      -- what was written before lies beside this report and not on the way to it
      have htakes := hfilled.isSome_write?_eq_takes hapart hplaces.1 (.text a.text)
      show (Report.write host a w).1.toList ++
          (Report.writeAll host artifacts (Report.write host a w).2).1 = _
      rw [ih hplaces.2 (filled_write hplaces.1 hfilled), List.map_cons, List.filter_cons, ← htakes]
      unfold Report.write
      split
      · next hwrite => simp [hwrite]
      · next hwrite => simp [hwrite]

/-- The reports about all categories, in the order in which they are written. -/
theorem paths_artifacts {directory : Path} (hdirectory : r.reportPath = some directory)
    (host : Host) (response : Response) : (artifacts host r response).map Report.Artifact.path =
      (Report.sharedNames response.gate.isSome).map directory.child := by
  unfold artifacts
  rw [hdirectory]
  dsimp only
  cases response.gate <;> rfl

/-- What a response says, apart from the reports, is a matter of the results. -/
theorem unlisted_runPlan (c : Context) (r : Request) (p : Plan) (w : World) :
    (runPlan c r p w).1.map Response.unlisted =
      ((runAudits p.setup p.audits w).1.map Findings.results).map fun results =>
        Response.ofResults c.host.runId (p.kind.map ProjectKind.name) results
          (gate r p.setup.config (Platform.ofHost c.host) results) := by
  unfold runPlan
  rcases runAudits p.setup p.audits w with ⟨e | found, w₁⟩ <;> rfl

/-! ## Plans -/

/-- The audits of a plan are those of the categories that are asked for, in order. -/
theorem isOf_of_plan (hplan : plan c r path w = .ok p) :
    List.Forall₂
      (fun category a => Audit.IsOf a p.setup category) r.distinctCategories p.audits := by
  obtain ⟨directory, kind, config, audits, -, -, -, haudits, rfl⟩ := plan_eq_ok.mp hplan
  exact (forall₂_of_mapM haudits).imp fun category a hof =>
    ⟨category_of_auditOf hof, fun _ hsight => agrees_of_auditOf hsight hof⟩

/-- The audits of a plan write in the places of the plan. -/
theorem writesTo_of_plan (hplan : plan c r path w = .ok p) :
    p.setup.WritesTo (p.places c r) r.distinctCategories := by
  obtain ⟨above, hplaces⟩ := p.reportPlaces c r
  have hhost := host_of_plan hplan
  have hreports := reportDir_of_plan hplan
  refine ⟨hplaces.apart, fun category hcategory file hfile =>
    ?_, fun category hcategory place hplace => ?_⟩
  · obtain ⟨directory, hdirectory, rfl⟩ := Option.map_eq_some_iff.mp hfile
    split at hdirectory
    · next hstreams =>
        rw [hhost]
        exact Plan.stream_mem_places hcategory (hreports ▸ hdirectory) hstreams
    · cases hdirectory
  · rw [AuditSetup.reportPlaces, Option.mem_toList, Option.map_eq_some_iff] at hplace
    obtain ⟨file, hfile, rfl⟩ := hplace
    obtain ⟨directory, hdirectory, rfl⟩ := Option.map_eq_some_iff.mp hfile
    rw [hhost]
    exact Plan.report_mem_places hcategory (hreports ▸ hdirectory)

/-- Files are written under names that files may have, if the current directory is under such
names. -/
theorem Plan.isFileName_of_mem_place (hcwd : ∀ name ∈ c.host.cwd.parts, IsFileName name)
    {place : List String} (hplace : place ∈ p.places c r) : ∀ name ∈ place, IsFileName name := by
  obtain ⟨file, hfile, rfl⟩ := List.mem_map.mp hplace
  cases hreports : r.reportPath with
  | none =>
      rw [artifacts, hreports] at hfile
      cases hfile
  | some directory =>
      obtain ⟨own, hown, rfl⟩ := artifacts_child c r _ hreports file hfile
      obtain ⟨text, -, rfl⟩ := Option.map_eq_some_iff.mp hreports
      have hproper := Report.isFileName_of_mem own (List.mem_append_left _ hown)
      intro name hname
      rw [c.host.locate_child _ hproper] at hname
      rcases List.mem_append.mp hname with hname | hname
      · exact c.host.isFileName_of_mem_locate hcwd text hname
      · exact List.mem_singleton.mp hname ▸ hproper

/-- The streams of a plan, if there are any, are refused by both of two volumes or by neither. -/
def Plan.SameStreams (r : Request) (p : Plan) (v v' : Volume) : Prop :=
  ∀ category ∈ r.categories, ∀ file, p.setup.streamFile? category.name = some file →
    v'.refuses (p.setup.host.locate file) = v.refuses (p.setup.host.locate file)

/-- No category looks at the report of one that is audited before it. -/
def Plan.ReportsUnseen (r : Request) (p : Plan) (w : World) : Prop :=
  r.distinctCategories.Pairwise fun earlier later =>
    ∀ names, names ≠ [] → p.setup.project.parts ++ names ∈ p.setup.reportPlaces earlier →
      ¬ later.LooksAt p.setup.config (p.setup.projectTree w) names

/-- A plan makes the same audits where other writes are refused, with the streams as they were. -/
theorem refusing_of_plan {refuses : List String → Bool} (hplan : plan c r path w = .ok p)
    (hcwd : ∀ name ∈ c.host.cwd.parts, IsFileName name) (hnamed : NamedProject c path w)
    (hstreams : p.SameStreams r w.volume (w.refusing refuses).volume) :
    ∃ entries, p.setup.projectTree w = .dir entries ∧
      p.setup.Refusing w.volume (w.refusing refuses).volume entries
        (p.places c r) r.distinctCategories := by
  have hwrites := writesTo_of_plan hplan
  obtain ⟨above, hplaces⟩ := p.reportPlaces c r
  obtain ⟨root, kind, config, audits, hroot, -, -, -, rfl⟩ := plan_eq_ok.mp hplan
  obtain ⟨rfl, entries, hat⟩ := directory_eq_ok hroot
  refine ⟨entries, AuditSetup.projectTree_of_holds ⟨_, rfl⟩ hat, ?_⟩
  exact {
    resolved := ⟨_, rfl⟩
    holds := hat
    tree := rfl
    named := hnamed _ hat
    placed := fun names hplace name hname =>
      Plan.isFileName_of_mem_place hcwd hplace name (List.mem_append_right _ hname)
    unread := hplaces.unread _
    writes := hwrites
    streams := fun category hcategory => hstreams category (List.mem_eraseDups.mp hcategory) }

/-! ## Runs -/

/-- The reports that a run lists are those that can be written. -/
theorem reports_of_runPlan (hplan : plan c r path w = .ok p) {directory : Path}
    (hdirectory : r.reportPath = some directory) {response : Response}
    (h : (runPlan c r p w).1 = .ok response) :
    response.reports =
      (((Report.names r.distinctCategories response.gate.isSome).map directory.child).filter
      fun file => w.volume.takes (c.host.locate file)).map Path.toString := by
  have hwrites := writesTo_of_plan hplan
  have haudits := isOf_of_plan hplan
  have hhost := host_of_plan hplan
  have hreports := (reportDir_of_plan hplan).trans hdirectory
  have hstart : w.volume.Filled (p.places c r) w.volume := .unwritten
  obtain ⟨hfilled, hfound⟩ :=
    reports_of_runAudits hwrites hreports (fun _ hcategory => hcategory) haudits hstart
  unfold runPlan at h
  rcases hruns : runAudits p.setup p.audits w with ⟨e | found, w₁⟩
  · rw [hruns] at h
    cases h
  · rw [hruns] at h hfilled hfound
    obtain rfl := Except.ok.inj h
    have hnoted : w.volume.Filled (p.places c r) (w₁.note (gateNotes r p.setup.config
      (Platform.ofHost c.host) found.results)).volume := hfilled
    dsimp only
    rw [hfound found rfl, written_of_writeAll hwrites.apart ?_ hnoted,
      paths_artifacts hdirectory, hhost, ← List.filter_append]
    · simp only [Report.names, List.map_append, List.map_map]
      rfl
    · exact artifacts_mem rfl

/-- A run comes to the same, but for its reports, whichever of them are refused. -/
theorem unlisted_of_unseen {refuses : List String → Bool} (hplan : plan c r path w = .ok p)
    (hcwd : ∀ name ∈ c.host.cwd.parts, IsFileName name) (hnamed : NamedProject c path w)
    (hstreams : p.SameStreams r w.volume (w.refusing refuses).volume)
    (hunseen : p.ReportsUnseen r w) :
    (runPlan c r p (w.refusing refuses)).1.map Response.unlisted =
      (runPlan c r p w).1.map Response.unlisted := by
  obtain ⟨entries, htree, hrefusing⟩ := refusing_of_plan hplan hcwd hnamed hstreams
  unfold Plan.ReportsUnseen at hunseen
  rw [htree] at hunseen
  -- at the start there is no report in which the volumes differ
  have hstart : Volume.SameBut w.volume (w.refusing refuses).volume (p.places c r) [] w.volume
      (w.refusing refuses).volume := ⟨.unwritten, .unwritten, fun _ _ => rfl⟩
  have hresults := runAudits_refused hrefusing (fun _ hcategory => hcategory) (isOf_of_plan hplan)
    (by simp) (fun _ _ _ _ hplace => by cases hplace) hunseen hstart
    fun category => ⟨rfl, fun _ => rfl, fun _ => rfl, fun _ => rfl⟩
  rw [unlisted_runPlan, unlisted_runPlan, hresults]

/-- Reports that cannot be written are left out of the list of reports, which has those that can be
written in the order of the categories, then the combined one and the page, then those of the gate
if it is evaluated, each once. Nothing else of the response changes, and no run fails for it, if no
category looks at the report of one that is audited before it. -/
theorem refusals_change_reports (c : Context) (r : Request) (path : String) (w : World)
    (refuses : List String → Bool) (directory : Path) (hdirectory : r.reportPath = some directory) :
    ((∀ name ∈ c.host.cwd.parts, IsFileName name) → NamedProject c path w →
      (∀ p, plan c r path w = .ok p → p.SameStreams r w.volume (w.refusing refuses).volume) →
      (∀ p, plan c r path w = .ok p → p.ReportsUnseen r w) →
      (auditAt c r path (w.refusing refuses)).1.map Response.unlisted =
        (auditAt c r path w).1.map Response.unlisted) ∧
    ∀ response, (auditAt c r path (w.refusing refuses)).1 = .ok response →
      response.reports =
        (((Report.names r.distinctCategories response.gate.isSome).map directory.child).filter
        fun file => (w.refusing refuses).volume.takes (c.host.locate file)).map Path.toString ∧
      response.reports.Nodup := by
  constructor
  · intro hcwd hnamed hstreams hunseen
    have hsame : plan c r path (w.refusing refuses) = plan c r path w := rfl
    unfold auditAt
    rw [hsame]
    cases hplan : plan c r path w with
    | error e => rfl
    | ok p => exact unlisted_of_unseen hplan hcwd hnamed (hstreams p hplan) (hunseen p hplan)
  · intro response h
    unfold auditAt at h
    split at h
    · cases h
    · next p hplan =>
        have hlisted := reports_of_runPlan hplan hdirectory h
        refine ⟨hlisted, ?_⟩
        -- different names in one directory have different texts
        have hall :
            (((Report.names r.distinctCategories response.gate.isSome).map directory.child).map
            Path.toString).Nodup := by
          rw [List.map_map]
          refine (Report.nodup_names (nodup_eraseDups r.categories) _).map_on ?_
          intro name hname other hother
          exact Path.child_toString_inj (Report.isFileName_of_mem_names name hname)
            (Report.isFileName_of_mem_names other hother)
        rw [hlisted]
        exact hall.sublist (List.filter_sublist.map Path.toString)

/-! ## Reports that are not seen -/

/-- By default no category looks at a report of another, wherever reports go. -/
theorem Plan.reportsUnseen_of_default (r : Request) (w : World)
    (hdefault : p.setup.config.DefaultPatterns) : p.ReportsUnseen r w := by
  refine List.pairwise_of_forall_mem_list fun earlier hearlier later hlater names hne hplace => ?_
  rw [AuditSetup.reportPlaces, Option.mem_toList, Option.map_eq_some_iff] at hplace
  obtain ⟨file, hfile, hlocate⟩ := hplace
  obtain ⟨directory, -, rfl⟩ := Option.map_eq_some_iff.mp hfile
  -- the last of the names is that of the report
  rw [Report.categoryPath,
    p.setup.host.locate_child _ (Report.isFileName_nameOf earlier)] at hlocate
  obtain ⟨front, last, rfl⟩ : ∃ front last, names = front ++ [last] :=
    ⟨_, _, (List.dropLast_concat_getLast hne).symm⟩
  rw [← List.append_assoc] at hlocate
  obtain ⟨-, hlast⟩ := List.append_inj' hlocate rfl
  obtain rfl := List.singleton_inj.mp hlast
  exact Category.not_looksAt_report_of_default hdefault _ front earlier

/-! ## Two sites -/

/-- A request for two categories and the gate, with reports in the site. -/
def gatedRequest : Request :=
  { path := some "site", categories := [.performance, .accessibility]
    reportDir := some "site/reports", gate := true }

/-- Refuses one of the reports of categories, and the page. -/
def refusesTwo (place : List String) : Bool :=
  [["work", "site", "reports", "performance-audit-report.json"],
    ["work", "site", "reports", "audit-report.html"]].contains place

theorem refusals_change_reports_onePage : ∃ response,
    (auditAt siteContext gatedRequest "site" ((site onePage).refusing refusesTwo)).1 =
      .ok response ∧
    (auditAt siteContext gatedRequest "site" ((site onePage).refusing refusesTwo)).1.map
      Response.unlisted =
      (auditAt siteContext gatedRequest "site" (site onePage)).1.map Response.unlisted ∧
    response.reports =
      ["site/reports/accessibility-audit-report.json", "site/reports/audit-report.json",
      "site/reports/ui-code-audit-junit.xml", "site/reports/ui-code-audit.sarif",
      "site/reports/ci-summary.json"] := by
  obtain ⟨hsame, hlisted⟩ := refusals_change_reports siteContext gatedRequest "site" (site onePage)
    refusesTwo (.ofString "site/reports") rfl
  have hgate : (auditAt siteContext gatedRequest "site"
      ((site onePage).refusing refusesTwo)).1.toOption.map (·.gate.isSome) = some true := by
    decide +kernel
  cases hrun : (auditAt siteContext gatedRequest "site" ((site onePage).refusing refusesTwo)).1 with
  | error e =>
      rw [hrun] at hgate
      cases hgate
  | ok response =>
      have hsetup : ∀ p, plan siteContext gatedRequest "site" (site onePage) = .ok p → p.setup =
          { host := siteContext.host, project := .absolute ["work", "site"], config := .default
            reportDir := some (.ofString "site/reports") } := by
        intro p hplan
        obtain ⟨directory, kind, config, audits, hdirectory, -, hconfig, -, rfl⟩ :=
          plan_eq_ok.mp hplan
        obtain ⟨rfl, -⟩ := directory_eq_ok hdirectory
        obtain rfl : Config.default = config := Except.ok.inj hconfig
        rfl
      rw [hrun] at hgate hlisted
      have hgated : response.gate.isSome = true := Option.some.inj hgate
      refine ⟨response, rfl, hrun ▸ hsame ?_ ?_ ?_ ?_, ?_⟩
      · decide +kernel
      · intro t ht
        obtain rfl : Tree.dir onePage = t := Option.some.inj ht
        decide +kernel
      · intro p hplan category hcategory file hfile
        rw [hsetup p hplan] at hfile ⊢
        obtain rfl : IssueLog.streamPath _ category.name = file := Option.some.inj hfile
        revert category
        decide +kernel
      · intro p hplan
        refine p.reportsUnseen_of_default _ _ ?_
        rw [hsetup p hplan]
        exact ⟨rfl, rfl, rfl, rfl⟩
      · rw [(hlisted response rfl).1, hgated]
        decide +kernel

/-- A site without pages whose settings have the reports audited like scripts. -/
def reportsAudited : World :=
  site [("ui-code-audit.config.json", .file (.text
    ("\x7b\"jsFilePathPattern\": [\"reports/*.json\"], " ++
      "\"htmlFilePathPattern\": [], \"scssFilePathPattern\": []\x7d")))]

def refusesOne (place : List String) : Bool :=
  place = ["work", "site", "reports", "performance-audit-report.json"]

/-- The second category finds the report of the first, and misses landmarks and a link to skip to
them; if that report is refused it finds no file and so nothing. -/
theorem refused_report_changes_findings :
    (auditAt siteContext { gatedRequest with gate := false } "site"
        (reportsAudited.refusing refusesOne)).1.map Response.unlisted ≠
      (auditAt siteContext { gatedRequest with gate := false } "site" reportsAudited).1.map
        Response.unlisted := by
  intro hsame
  let totals (response : Except Failure Response) : Option (List Int) :=
    response.toOption.map fun response => response.categories.map (·.2.counts.total)
  have hrefused : totals ((auditAt siteContext { gatedRequest with gate := false } "site"
      (reportsAudited.refusing refusesOne)).1.map Response.unlisted) =
        some [0, 0] := by decide +kernel
  have hwritten : totals ((auditAt siteContext { gatedRequest with gate := false } "site"
      reportsAudited).1.map Response.unlisted) = some [0, 2] := by decide +kernel
  rw [hsame, hwritten] at hrefused
  cases hrefused

end Project

end FrontendAudit
