import FrontendAudit.Proofs.Project.Plan

/-!
# Auditing a project again

The reports of a run are files, and a later run may come upon them. If no category that is asked for
looks at a place where a report is written, a second run finds what the first one found, or fails as
it failed (`second_run_agrees`); this is so when reports go to a directory outside the project. By
default it is also so when they go to a directory `report` in the project, but not when they go to
`reports`, where the page of the first run is taken for one of the project (`not_looksAt_report`,
`looksAt_page`). A second run that comes upon a report may find something else
(`stream_of_first_run_is_audited`).
-/

namespace FrontendAudit

open Disk (Tree Volume)

/-- What a response says of each category, apart from the time. -/
def Response.found (r : Response) : List (String × Counts × List Finding) :=
  r.categories.map fun (category, result) => (category, result.found)

namespace Project

open World (Alike)

/-- What the audits gave in each category, apart from the time. -/
def Findings.found (f : Findings) : List (String × Counts × List Finding) :=
  f.results.map fun (category, result) => (category, result.found)

/-- The files that a run with a plan may write. -/
def Plan.artifacts (c : Context) (r : Request) (p : Plan) : List Path :=
  match r.reportPath with
  | none => []
  | some directory =>
    (if p.setup.config.streamIssues then
      r.distinctCategories.map fun category => IssueLog.streamPath directory category.name
    else []) ++
    (r.distinctCategories.map fun category => Report.categoryPath directory category.name) ++
    [directory.child Report.combinedName, directory.child Report.pageName] ++
    if usesGate r p.setup.config (Platform.ofHost c.host) then
      [Report.junitName, Report.sarifName, Report.summaryName].map directory.child
    else []

/-- The places of the files that a run with a plan may write. -/
def Plan.places (c : Context) (r : Request) (p : Plan) : List (List String) :=
  (p.artifacts c r).map c.host.locate

section

variable {c : Context} {r : Request} {p : Plan} {path : String} {w w' : World}

/-! ## The places of reports -/

theorem Plan.artifacts_child (c : Context) (r : Request) (p : Plan) {directory : Path}
    (hdirectory : r.reportPath = some directory) :
    ∀ file ∈ p.artifacts c r, ∃ name ∈ Report.artifactNames, file = directory.child name := by
  have hcategory : ∀ category : Category, category.name ++ "-issues.jsonl" ∈ Report.artifactNames ∧
      Report.nameOf category.name ∈ Report.artifactNames := by
    intro category
    cases category <;> decide +kernel
  intro file hfile
  rw [artifacts, hdirectory] at hfile
  simp only [List.mem_append] at hfile
  rcases hfile with ((hfile | hfile) | hfile) | hfile
  · split at hfile
    · obtain ⟨category, -, rfl⟩ := List.mem_map.mp hfile
      exact ⟨_, (hcategory category).1, rfl⟩
    · cases hfile
  · obtain ⟨category, -, rfl⟩ := List.mem_map.mp hfile
    exact ⟨_, (hcategory category).2, rfl⟩
  · rcases List.mem_cons.mp hfile with rfl | hfile
    · exact ⟨_, by decide +kernel, rfl⟩
    · obtain rfl := List.mem_singleton.mp hfile
      exact ⟨_, by decide +kernel, rfl⟩
  · -- the reports of the gate
    split at hfile
    · obtain ⟨name, hname, rfl⟩ := List.mem_map.mp hfile
      refine ⟨name, ?_, rfl⟩
      exact List.mem_append_right _ (List.mem_cons_of_mem _ (List.mem_cons_of_mem _ hname))
    · cases hfile

theorem Plan.reportPlaces (c : Context) (r : Request) (p : Plan) :
    ∃ directory, ReportPlaces (p.places c r) directory := by
  cases hdirectory : r.reportPath with
  | none =>
      refine ⟨[], ⟨fun place hplace => ?_⟩⟩
      rw [places, artifacts, hdirectory] at hplace
      cases hplace
  | some directory =>
      refine ⟨c.host.locate directory, ⟨fun place hplace => ?_⟩⟩
      obtain ⟨file, hfile, rfl⟩ := List.mem_map.mp hplace
      obtain ⟨name, hname, rfl⟩ := p.artifacts_child c r hdirectory file hfile
      exact ⟨name, hname, c.host.locate_child _ (Report.isFileName_of_mem name
        (List.mem_append_left _ hname))⟩

section

variable {category : Category} {reports : Path}

/-- The stream of a category, if there is one, is a file that a run may write. -/
theorem Plan.stream_mem_places (hcategory : category ∈ r.distinctCategories)
    (hreports : r.reportPath = some reports) (hstreams : p.setup.config.streamIssues = true) :
    c.host.locate (IssueLog.streamPath reports category.name) ∈ p.places c r := by
  refine List.mem_map_of_mem ?_
  simp only [artifacts, hreports, hstreams, if_true, List.append_assoc, List.mem_append]
  exact .inl (List.mem_map_of_mem hcategory)

/-- So is its report. -/
theorem Plan.report_mem_places (hcategory : category ∈ r.distinctCategories)
    (hreports : r.reportPath = some reports) :
    c.host.locate (Report.categoryPath reports category.name) ∈ p.places c r := by
  refine List.mem_map_of_mem ?_
  simp only [artifacts, hreports, List.append_assoc, List.mem_append]
  exact .inr (.inl (List.mem_map_of_mem hcategory))

end

/-- No requested category looks at a file that a run may write. -/
def Plan.Unseen (c : Context) (r : Request) (p : Plan) (w : World) : Prop :=
  ∀ file ∈ p.artifacts c r, ∀ names, names ≠ [] →
    c.host.locate file = p.setup.project.parts ++ names →
    ∀ category ∈ r.categories, ¬ category.LooksAt p.setup.config (p.setup.projectTree w) names

/-- The names in a project are names that files may have. -/
def Plan.Named (p : Plan) (w : World) : Prop :=
  ∀ names ∈ (p.setup.projectTree w).paths, ∀ name ∈ names, IsFileName name

/-- The audits of a plan are disturbed by no report. -/
theorem undisturbed (hplan : plan c r path w = .ok p) (hnamed : p.Named w)
    (hunseen : p.Unseen c r w) :
    ∃ entries, ∀ category ∈ r.distinctCategories,
      p.setup.Undisturbed w.volume entries (p.places c r) category := by
  obtain ⟨directory, kind, config, audits, hdirectory, -, -, -, hp⟩ := plan_eq_ok.mp hplan
  obtain ⟨hresolved, entries, hat⟩ := directory_eq_ok hdirectory
  have hhost := host_of_plan hplan
  have hproject : p.setup.project = directory := by rw [hp]
  have hreports := reportDir_of_plan hplan
  have htree : p.setup.projectTree w = .dir entries := by
    rw [AuditSetup.projectTree, hhost, hproject, hresolved, c.host.locate_resolve, ← hresolved, hat]
    rfl
  obtain ⟨above, hplaces⟩ := p.reportPlaces c r
  rw [Plan.Named, htree] at hnamed
  refine ⟨entries, fun category hcategory => ?_⟩
  have hrequested : category ∈ r.categories := List.mem_eraseDups.mp hcategory
  exact {
    resolved := ⟨Path.ofString path, by rw [hproject, hhost, hresolved]⟩
    directory := by rw [hproject, hat]
    named := hnamed
    unseen := by
      intro names hne hnames
      obtain ⟨file, hfile, hplace⟩ := List.mem_map.mp hnames
      have hlooks := hunseen file hfile names hne hplace category hrequested
      rwa [htree] at hlooks
    unread := hplaces.unread _
    apart := hplaces.apart
    stream := by
      intro reports hstreams hreports'
      rw [hreports] at hreports'
      rw [hhost]
      exact Plan.stream_mem_places hcategory hreports' hstreams
    report := by
      intro reports hreports'
      rw [hreports] at hreports'
      rw [hhost]
      exact Plan.report_mem_places hcategory hreports' }

/-! ## The audits of a plan -/

section

variable (s : AuditSetup) (a : Audit) (audits : List Audit) (w : World)

/-- The results of audits are that of the first and those of the others, in the world that it
leaves. -/
theorem results_cons : (runAudits s (a :: audits) w).1.map Findings.results =
    (a.run s {} w).result.bind fun result =>
      ((runAudits s audits (a.run s {} w).world).1.map Findings.results).map fun results =>
        (a.category, result) :: results := by
  rw [runAudits]
  rcases a.run s {} w with ⟨e | result, state, w₁⟩
  · rfl
  · dsimp only
    rcases runAudits s audits w₁ with ⟨e | more, w₂⟩ <;> rfl

theorem found_cons : (runAudits s (a :: audits) w).1.map Findings.found =
    ((a.run s {} w).result.map AuditResult.found).bind fun found =>
      ((runAudits s audits (a.run s {} w).world).1.map Findings.found).map fun more =>
        (a.category, found) :: more := by
  rw [runAudits]
  rcases a.run s {} w with ⟨e | result, state, w₁⟩
  · rfl
  · dsimp only
    rcases runAudits s audits w₁ with ⟨e | more, w₂⟩ <;> rfl

/-- If the first audit has no result the others are not run. -/
theorem world_cons : (runAudits s (a :: audits) w).2 =
    if (a.run s {} w).result.isOk then (runAudits s audits (a.run s {} w).world).2
    else (a.run s {} w).world := by
  rw [runAudits]
  rcases a.run s {} w with ⟨e | result, state, w₁⟩
  · rfl
  · dsimp only
    rcases runAudits s audits w₁ with ⟨e | more, w₂⟩ <;> rfl

variable {s a audits w}

/-- Where audits have results, the first has one, and its report comes before those of the
others. -/
theorem runAudits_cons_eq_ok {found : Findings} (h : (runAudits s (a :: audits) w).1 = .ok found) :
    ∃ result more, (a.run s {} w).result = .ok result ∧
      (runAudits s audits (a.run s {} w).world).1 = .ok more ∧
      found = ⟨(a.category, result) :: more.results,
        (a.run s {} w).state.report.toList ++ more.reports⟩ := by
  rw [runAudits] at h
  split at h
  · cases h
  · next result state w₁ hrun =>
      split at h
      · cases h
      · next more w₂ hrest =>
          rw [hrun]
          exact ⟨result, more, rfl, congrArg Prod.fst hrest, (Except.ok.inj h).symm⟩

end

/-- Audits that are disturbed by no report find the same one after the other. -/
theorem runAudits_alike {s : AuditSetup} {v : Volume} {entries : List (String × Tree)}
    {places : List (List String)} {audits : List Audit}
    (haudits : ∀ a ∈ audits, ∃ category : Category, s.Undisturbed v entries places category ∧
      a.category = category.name ∧ a.Agrees (Alike v places))
    (now runId : String) (hw : Alike v places w w') :
    (runAudits s audits w).1.map Findings.found =
        (runAudits (s.later now runId) audits w').1.map Findings.found ∧
      Alike v places (runAudits s audits w).2 (runAudits (s.later now runId) audits w').2 := by
  induction audits generalizing w w' with
  | nil => exact ⟨rfl, hw⟩
  | cons a audits ih =>
      rw [List.forall_mem_cons] at haudits
      obtain ⟨⟨category, hundisturbed, hname, hagrees⟩, hrest⟩ := haudits
      obtain ⟨hfound, hafter⟩ := Audit.run_alike hundisturbed hname hagrees now runId hw
      -- the worlds that the first audit leaves are alike again
      obtain ⟨hmore, hlast⟩ := ih hrest hafter
      have hends : (a.run s {} w).result.isOk = (a.run (s.later now runId) {} w').result.isOk := by
        rw [← isOk_map _ AuditResult.found, hfound, isOk_map]
      constructor
      · rw [found_cons, found_cons, hfound, hmore]
      · rw [world_cons, world_cons, hends]
        split
        · exact hlast
        · exact hafter

/-! ## The reports of a run -/

theorem filled_write {v : Volume} {places : List (List String)} {host : Host} {a : Report.Artifact}
    (hplace : host.locate a.path ∈ places) (h : v.Filled places w.volume) :
    v.Filled places (Report.write host a w).2.volume := by
  unfold Report.write
  cases hwrite : w.volume.write? (host.locate a.path) (.text a.text) with
  | none => exact h
  | some volume => exact .write h hplace hwrite

theorem filled_writeAll {v : Volume} {places : List (List String)} {host : Host}
    {artifacts : List Report.Artifact} (hplaces : ∀ a ∈ artifacts, host.locate a.path ∈ places)
    (h : v.Filled places w.volume) :
    v.Filled places (Report.writeAll host artifacts w).2.volume := by
  induction artifacts generalizing w with
  | nil => exact h
  | cons a artifacts ih =>
      rw [List.forall_mem_cons] at hplaces
      exact ih hplaces.2 (filled_write hplaces.1 h)

/-- The reports about all categories are among the files that a run may write. -/
theorem artifacts_mem {response : Response} {results : Results}
    (hgate : response.gate = gate r p.setup.config (Platform.ofHost c.host) results) :
    ∀ a ∈ artifacts c.host r response, c.host.locate a.path ∈ p.places c r := by
  intro a ha
  refine List.mem_map_of_mem ?_
  unfold artifacts at ha
  unfold Plan.artifacts
  cases hdirectory : r.reportPath with
  | none =>
      rw [hdirectory] at ha
      cases ha
  | some directory =>
      rw [hdirectory] at ha
      simp only [hgate, gate] at ha
      simp only [List.mem_append]
      rcases List.mem_append.mp ha with ha | ha
      · refine .inl (.inr ?_)
        rcases List.mem_cons.mp ha with rfl | ha
        · exact List.mem_cons_self
        · obtain rfl := List.mem_singleton.mp ha
          exact List.mem_cons_of_mem _ List.mem_cons_self
      · -- reports of the gate are written when there is one, and then the plan counts on them
        refine .inr ?_
        split at ha
        · next hgated =>
            split at hgated
            · next huses =>
                rw [if_pos huses]
                have hpaths : a.path ∈ [Report.junitName, Report.sarifName, Report.summaryName].map
                    directory.child := List.mem_map_of_mem ha
                exact hpaths
            · cases hgated
        · cases ha

/-- What a run finds is what its audits find. -/
theorem found_runPlan (c : Context) (r : Request) (p : Plan) (w : World) :
    (runPlan c r p w).1.map Response.found =
      (runAudits p.setup p.audits w).1.map Findings.found := by
  unfold runPlan
  rcases runAudits p.setup p.audits w with ⟨e | found, w₁⟩ <;> rfl

theorem filled_runPlan {v : Volume}
    (h : v.Filled (p.places c r) (runAudits p.setup p.audits w).2.volume) :
    v.Filled (p.places c r) (runPlan c r p w).2.volume := by
  unfold runPlan
  rcases hruns : runAudits p.setup p.audits w with ⟨e | found, w₁⟩ <;> rw [hruns] at h
  · exact h
  · exact filled_writeAll (artifacts_mem rfl) h

/-! ## Two runs -/

/-- Every audit of a plan finds the same in worlds that are alike but for the reports. -/
theorem audits_agree (hplan : plan c r path w = .ok p) (hnamed : p.Named w)
    (hunseen : p.Unseen c r w) :
    ∃ entries, ∀ a ∈ p.audits, ∃ category : Category,
      p.setup.Undisturbed w.volume entries (p.places c r) category ∧
      a.category = category.name ∧ a.Agrees (Alike w.volume (p.places c r)) := by
  obtain ⟨entries, hundisturbed⟩ := undisturbed hplan hnamed hunseen
  obtain ⟨directory, kind, config, audits, -, -, -, haudits, rfl⟩ := plan_eq_ok.mp hplan
  refine ⟨entries, fun a ha => ?_⟩
  obtain ⟨category, hcategory, hof⟩ := exists_of_mem_mapM haudits ha
  have h := hundisturbed category hcategory
  exact ⟨category, h, category_of_auditOf hof, agrees_of_auditOf h.sight hof⟩

/-- A run after another, with the same request, on the same files and the reports of the first, and
with the same answers from outside, finds what the first one found, or fails as it failed. -/
def FindsAgain (c : Context) (r : Request) (path : String) (w : World)
    (now runId : String) : Prop :=
  (auditAt (c.later now runId) r path
      { w with volume := (auditAt c r path w).2.volume }).1.map Response.found =
    (auditAt c r path w).1.map Response.found

theorem findsAgain_of_unseen (now runId : String)
    (hnamed : ∀ p, plan c r path w = .ok p → p.Named w)
    (hunseen : ∀ p, plan c r path w = .ok p → p.Unseen c r w) :
    FindsAgain c r path w now runId := by
  unfold FindsAgain
  cases hplan : plan c r path w with
  | error e =>
      -- nothing was written
      have hfirst : auditAt c r path w = (.error e, w) := by rw [auditAt, hplan]
      have hagain : plan (c.later now runId) r path w = .error e := by rw [plan_later, hplan]; rfl
      rw [hfirst, auditAt, hagain]
  | ok p =>
      have hfirst : auditAt c r path w = runPlan c r p w := by rw [auditAt, hplan]
      obtain ⟨entries, haudits⟩ := audits_agree hplan (hnamed p hplan) (hunseen p hplan)
      -- the first run is compared with itself to see what it writes, then with the second
      have hself : Alike w.volume (p.places c r) w w := ⟨.unwritten, .unwritten, rfl, rfl, rfl, rfl⟩
      have hwritten : w.volume.Filled (p.places c r) (runPlan c r p w).2.volume :=
        filled_runPlan (runAudits_alike haudits now runId hself).2.filled
      let again : World := { w with volume := (runPlan c r p w).2.volume }
      have halike : Alike w.volume (p.places c r) w again :=
        ⟨.unwritten, hwritten, rfl, rfl, rfl, rfl⟩
      obtain ⟨above, hplaces⟩ := p.reportPlaces c r
      have hagain : plan (c.later now runId) r path again = .ok (p.later now runId) := by
        have hsame : plan c r path again = .ok p := plan_of_filled hplaces hwritten hplan
        rw [plan_later, hsame]
        rfl
      rw [hfirst, auditAt, hagain]
      dsimp only
      rw [found_runPlan, found_runPlan]
      exact (runAudits_alike haudits now runId halike).1.symm

/-- Reports that go to a directory outside the project are not seen. -/
theorem unseen_of_outside
    (houtside : ∀ directory, r.reportPath = some directory →
      ¬ ((Path.ofString path).resolve c.host.cwd).parts <+: c.host.locate directory)
    (hplan : plan c r path w = .ok p) : p.Unseen c r w := by
  intro file hfile names hne hplace
  cases hreports : r.reportPath with
  | none =>
      rw [Plan.artifacts, hreports] at hfile
      cases hfile
  | some reports =>
      obtain ⟨name, hname, rfl⟩ := p.artifacts_child c r hreports file hfile
      obtain ⟨directory, kind, config, audits, hdirectory, -, -, -, rfl⟩ := plan_eq_ok.mp hplan
      obtain ⟨rfl, -⟩ := directory_eq_ok hdirectory
      have hproper := Report.isFileName_of_mem name (List.mem_append_left _ hname)
      rw [c.host.locate_child _ hproper] at hplace
      obtain ⟨front, last, rfl⟩ : ∃ front last, names = front ++ [last] :=
        ⟨_, _, (List.dropLast_concat_getLast hne).symm⟩
      rw [← List.append_assoc] at hplace
      obtain ⟨hfront, -⟩ := List.append_inj' hplace rfl
      exact absurd ⟨front, hfront.symm⟩ (houtside reports hreports)

/-- Auditing twice with the same request, the outside answering alike both times, gives the same
issues and counts in every category, or fails both times in the same way, if no requested category
looks at a file that the run writes. That is so when reports go to a directory outside the
project. -/
theorem second_run_agrees (c : Context) (r : Request) (path : String) (w : World)
    (now runId : String) (hnamed : ∀ p, plan c r path w = .ok p → p.Named w) :
    ((∀ p, plan c r path w = .ok p → p.Unseen c r w) → FindsAgain c r path w now runId) ∧
    ((∀ directory, r.reportPath = some directory →
        ¬ ((Path.ofString path).resolve c.host.cwd).parts <+: c.host.locate directory) →
      FindsAgain c r path w now runId) := by
  refine ⟨fun hunseen => findsAgain_of_unseen now runId hnamed hunseen, fun houtside => ?_⟩
  exact findsAgain_of_unseen now runId hnamed fun p hplan => unseen_of_outside houtside hplan

end

/-! ## Directories in the project -/

/-- By default nothing in a directory `report` of a project is looked at. -/
theorem not_looksAt_report {project : Tree} (h : project.file? [Disk.ignoreFileName] = none)
    (name : String) :
    ¬ Category.accessibility.LooksAt Config.default project ["report", name] := by
  have hprunes : (Category.accessibility.patternGroups Config.default (.dir [])).all
      (fun group => (Selection.ofPatterns group).toOption.all (·.prunes "report")) = true := by
    decide +kernel
  rw [Category.looksAt_iff_of_no_ignoreFile h]
  rintro ⟨group, hgroup, s, hselection, hfinds⟩
  have hpruned : s.prunes "report" = true := by
    have hgroups := List.all_eq_true.mp hprunes group hgroup
    rw [hselection] at hgroups
    exact hgroups
  have hhides : s.hides ["report", name] = true := by
    rw [Selection.hides]
    show (s.prunes "report" || false) = true
    rw [hpruned, Bool.true_or]
  rw [Selection.finds, hhides, Bool.not_true, Bool.and_false, Bool.false_and] at hfinds
  cases hfinds

/-- The page of a run in a directory `reports` of a project is looked at by default. -/
theorem looksAt_page {project : Tree} (h : project.file? [Disk.ignoreFileName] = none) :
    Category.accessibility.LooksAt Config.default project ["reports", Report.pageName] := by
  rw [Category.looksAt_iff_of_no_ignoreFile h]
  decide +kernel

/-! ## Two sites -/

def siteContext : Context where
  host :=
    { cwd := .absolute ["work"], environment := [], now := "now", runId := "1"
      rulesDir := .absolute ["rules"], cloneDir := .absolute ["clone"] }
  service := { base := Service.defaultBase, key := none }

/-- A site in the current directory. -/
def site (files : List (String × Tree)) : World where
  volume := { tree := .dir [("work", .dir [("site", .dir files)])] }

def siteRequest (reports : String) : Request := { path := some "site", reportDir := some reports }

/-- A site with one page. -/
def onePage : List (String × Tree) := [("index.html", .file (.text "<p>Hello</p>\n"))]

theorem plan_onePage {reports : String} {p : Plan}
    (h : plan siteContext (siteRequest reports) "site" (site onePage) = .ok p) :
    p.setup.projectTree (site onePage) = .dir onePage ∧ p.setup.config = Config.default ∧
      p.setup.project = .absolute ["work", "site"] := by
  obtain ⟨directory, kind, config, audits, hdirectory, -, hconfig, -, rfl⟩ := plan_eq_ok.mp h
  have hroot : Project.directory siteContext.host "site" (site onePage) =
      .ok (.absolute ["work", "site"]) := rfl
  obtain rfl := Except.ok.inj (hroot.symm.trans hdirectory)
  have hdefault : settings siteContext.host (siteRequest reports) (.absolute ["work", "site"])
      (site onePage) = .ok Config.default := rfl
  exact ⟨rfl, Except.ok.inj (hconfig.symm.trans hdefault), rfl⟩

theorem second_run_agrees_onePage :
    FindsAgain siteContext (siteRequest "site/report") "site" (site onePage) "later" "2" ∧
      FindsAgain siteContext (siteRequest "/reports") "site" (site onePage) "later" "2" := by
  have hnamed : ∀ reports p, plan siteContext (siteRequest reports) "site" (site onePage) = .ok p →
      p.Named (site onePage) := by
    intro reports p hplan
    rw [Plan.Named, (plan_onePage hplan).1]
    decide +kernel
  constructor
  · refine (second_run_agrees siteContext (siteRequest "site/report") "site"
      (site onePage) "later" "2"
      (hnamed _)).1 ?_
    intro p hplan file hfile names hne hplace category hcategory
    -- a report lies in the directory `report` of the project, under its own name
    obtain ⟨htree, hconfig, hproject⟩ := plan_onePage hplan
    obtain rfl : category = .accessibility := List.mem_singleton.mp hcategory
    obtain ⟨name, hname, rfl⟩ := p.artifacts_child siteContext _ rfl file hfile
    have hproper := Report.isFileName_of_mem name (List.mem_append_left _ hname)
    rw [siteContext.host.locate_child _ hproper, hproject] at hplace
    have hreports : siteContext.host.locate (Path.ofString "site/report") =
        ["work", "site"] ++ ["report"] := rfl
    rw [hreports, List.append_assoc] at hplace
    obtain rfl : ["report"] ++ [name] = names := List.append_cancel_left hplace
    rw [htree, hconfig]
    exact not_looksAt_report rfl name
  · refine (second_run_agrees siteContext (siteRequest "/reports") "site" (site onePage) "later" "2"
      (hnamed _)).2 ?_
    intro directory hdirectory
    obtain rfl := Option.some.inj hdirectory
    decide +kernel

/-- A site without pages whose settings have the streams of issues audited like scripts. -/
def streamsAudited : World :=
  site [("ui-code-audit.config.json", .file (.text
    ("\x7b\"jsFilePathPattern\": [\"**/*.jsonl\"], " ++
      "\"htmlFilePathPattern\": [], \"scssFilePathPattern\": []\x7d")))]

/-- The first run finds no file and so nothing; the second finds the stream of the first, and misses
landmarks and a link to skip to them. -/
theorem stream_of_first_run_is_audited :
    ¬ FindsAgain siteContext (siteRequest "site/reports") "site" streamsAudited "later" "2" := by
  intro hagain
  let totals (found : Except Failure (List (String × Counts × List Finding))) : Option (List Int) :=
    found.toOption.map fun found => found.map (·.2.1.total)
  have hfirst : totals ((auditAt siteContext (siteRequest "site/reports") "site"
      streamsAudited).1.map Response.found) = some [0] := by decide +kernel
  have hsecond :
      totals ((auditAt (siteContext.later "later" "2") (siteRequest "site/reports") "site"
      { streamsAudited with volume := (auditAt siteContext (siteRequest "site/reports") "site"
        streamsAudited).2.volume }).1.map Response.found) = some [2] := by decide +kernel
  rw [hagain, hfirst] at hsecond
  cases hsecond

end Project

end FrontendAudit
