import FrontendAudit.Proofs.Audit.Beside
import FrontendAudit.Proofs.Project.Rerun
import FrontendAudit.Proofs.Project.Response

/-!
# Results of categories beside each other

The audits of a run follow each other in one world, and what one does the next may see. If reports
go to a place outside the project they see nothing of each other: an audit finds the project as it
was before the run, and its own answers from outside (`Runs.exists_of_mem`). So what is found in a
category does not depend on the other categories that are asked for, nor on what becomes of reports
and streams (`category_results_agree`).
-/

namespace FrontendAudit

open Disk (Tree Volume)

/-- The setup of the same audits with reports in another place, with or without streams. -/
def AuditSetup.reporting (s : AuditSetup) (reportDir : Option Path) (streams : Bool) : AuditSetup :=
  { s with reportDir, config := { s.config with streamIssues := streams } }

namespace Project

open World (SameAnswers)

/-! ## Audits in turn -/

/-- Each audit of a run finds the project and its own answers as they were before the run. -/
theorem Runs.exists_of_mem {s : AuditSetup} {entries : List (String × Tree)} {audits : List Audit}
    {w w' : World} {results : Results} (h : Runs s audits w results w')
    (helsewhere : s.ReportsElsewhere entries) (hof : ∀ a ∈ audits, ∃ category, a.IsOf s category)
    (hnodup : (audits.map (·.category)).Nodup) (hholds : s.Holds entries w.volume) {a : Audit}
    (ha : a ∈ audits) {category : Category} (hname : a.category = category.name) :
    ∃ v result, (a.run s {} v).result = .ok result ∧
      Json.lookup? category.name results = some result ∧ s.Holds entries v.volume ∧
      SameAnswers category w v := by
  induction h with
  | none w => cases ha
  | @next first audits w w' result results hfirst hrest ih =>
      rw [List.forall_mem_cons] at hof
      rw [List.map_cons, List.nodup_cons] at hnodup
      rcases List.mem_cons.mp ha with rfl | ha
      · refine ⟨w, result, hfirst, ?_, hholds, .refl category w⟩
        simp [Json.lookup?, hname]
      · -- the first audit is of another category, and leaves this one alone
        obtain ⟨other, hother⟩ := hof.1
        have hdiffers : first.category ≠ category.name := by
          intro hsame
          exact hnodup.1 (hsame ▸ hname ▸ List.mem_map_of_mem ha)
        have hne : category ≠ other := by
          rintro rfl
          exact hdiffers hother.name
        obtain ⟨hkept, hanswers⟩ := Audit.run_leaves helsewhere hother hholds
        obtain ⟨v, result', hrun, hlookup, hheld, hsame⟩ := ih hof.2 hnodup.2 hkept ha
        refine ⟨v, result', hrun, ?_, hheld, (hanswers category hne).trans hsame⟩
        rw [Json.lookup?, List.find?_cons_of_neg (by simpa using hdiffers)]
        exact hlookup

/-! ## The same project -/

/-- A request finds the same project in two worlds: the same files in it, the same settings but for
whether issues are streamed, the same rules for linters, and the same answers from outside. -/
structure SameProject (c : Context) (r : Request) (path : String) (w w' : World) : Prop where
  files : w'.volume.tree.at? (c.host.locate (.ofString path)) =
    w.volume.tree.at? (c.host.locate (.ofString path))
  settings : ∀ config config', settings c.host r ((Path.ofString path).resolve c.host.cwd) w =
    .ok config →
    settings c.host r ((Path.ofString path).resolve c.host.cwd) w' = .ok config' →
    config' = { config with streamIssues := config'.streamIssues }
  rules : ∀ (linter : Linter) kind, r.kind = .ok kind →
    linter.settings c.host w'.volume.tree ((Path.ofString path).resolve c.host.cwd) kind
        r.recommendedRules =
      linter.settings c.host w.volume.tree ((Path.ofString path).resolve c.host.cwd) kind
        r.recommendedRules
  answers : ∀ category, SameAnswers category w w'

/-- Reports, if there are to be any, go to a place outside the project. -/
def ReportsOutside (c : Context) (r : Request) (path : String) : Prop :=
  ∀ directory, r.reportPath = some directory →
    ¬ c.host.locate (.ofString path) <+: c.host.locate directory

/-- The names in a project are names that files may have. -/
def NamedProject (c : Context) (path : String) (w : World) : Prop :=
  ∀ t, w.volume.tree.at? (c.host.locate (.ofString path)) = some t →
    ∀ names ∈ t.paths, ∀ name ∈ names, IsFileName name

section

variable {c : Context} {r : Request} {path : String} {w w' : World} {p : Plan}

/-- The audits of a plan whose reports go elsewhere, each of its category. -/
theorem elsewhere_of_plan (hplan : plan c r path w = .ok p) (hnamed : NamedProject c path w)
    (houtside : ReportsOutside c r path) :
    ∃ entries, w.volume.tree.at? (c.host.locate (.ofString path)) = some (.dir entries) ∧
      p.setup.ReportsElsewhere entries ∧ p.setup.Holds entries w.volume ∧
      ∀ a ∈ p.audits, ∃ category, a.IsOf p.setup category := by
  obtain ⟨directory, kind, config, audits, hdirectory, -, -, haudits, rfl⟩ := plan_eq_ok.mp hplan
  obtain ⟨rfl, entries, hat⟩ := directory_eq_ok hdirectory
  refine ⟨entries, hat, ⟨⟨_, rfl⟩, hnamed _ hat, houtside⟩, hat, fun a ha => ?_⟩
  obtain ⟨category, -, hof⟩ := exists_of_mem_mapM haudits ha
  exact ⟨category, category_of_auditOf hof, fun _ hsight => agrees_of_auditOf hsight hof⟩

/-- A run that succeeds has run each audit of its plan. -/
theorem exists_runs_of_auditAt {response : Response} (h : (auditAt c r path w).1 = .ok response) :
    ∃ p w₁, plan c r path w = .ok p ∧ Runs p.setup p.audits w response.categories w₁ := by
  unfold auditAt at h
  split at h
  · cases h
  · next p hplan =>
      unfold runPlan at h
      split at h
      · cases h
      · next found w₁ hfound =>
          obtain rfl := Except.ok.inj h
          exact ⟨p, w₁, hplan, runs_of_runAudits hfound⟩

/-- The audit of a category is the same for the same project, whatever else is asked for, wherever
reports go, and whether or not issues are streamed. -/
theorem auditOf_same (hsame : SameProject c r path w w') (now runId : String)
    (categories : List Category) (reports : Option String) (gate : Bool) (s : AuditSetup)
    (hproject : s.project = (Path.ofString path).resolve c.host.cwd) (reportDir : Option Path)
    (streams : Bool) {kind : Option ProjectKind} (hkind : r.kind = .ok kind) (category : Category) :
    auditOf (c.later now runId) { r with categories, reportDir := reports, gate }
        ((s.reporting reportDir streams).later now runId) kind w' category =
      auditOf c r s kind w category := by
  have hlint : ∀ linter : Linter,
      auditOf.lintAudit (c.later now runId) { r with categories, reportDir := reports, gate }
        ((s.reporting reportDir streams).later now runId) kind w' linter =
      auditOf.lintAudit c r s kind w linter := by
    intro linter
    have hrules : linter.settings (c.later now runId).host w'.volume.tree s.project kind
        r.recommendedRules = linter.settings c.host w.volume.tree s.project kind
          r.recommendedRules := by
      rw [hproject]
      exact hsame.rules linter kind hkind
    unfold auditOf.lintAudit
    dsimp only [AuditSetup.later, AuditSetup.reporting]
    rw [hrules]
    cases linter <;> rfl
  cases category with
  | eslint => exact hlint .eslint
  | stylelint => exact hlint .stylelint
  | _ => rfl

/-- Two plans for the same project have the same audit of a category, in setups that differ in time,
in where reports go and in whether issues are streamed. -/
theorem exists_audit_of_plans (hsame : SameProject c r path w w') (now runId : String)
    (categories : List Category) (reports : Option String) (gate : Bool) {p p' : Plan}
    (hplan : plan c r path w = .ok p)
    (hplan' : plan (c.later now runId) { r with categories, reportDir := reports, gate } path w' =
      .ok p') :
    (∃ reportDir streams, p'.setup = (p.setup.reporting reportDir streams).later now runId) ∧
      ∀ category ∈ r.categories, category ∈ categories →
        ∃ a ∈ p.audits, a ∈ p'.audits ∧ a.category = category.name := by
  obtain ⟨directory, kind, config, audits, hdirectory, hkind, hconfig, haudits, rfl⟩ :=
    plan_eq_ok.mp hplan
  obtain ⟨directory', kind', config', audits', hdirectory', hkind', hconfig', haudits', rfl⟩ :=
    plan_eq_ok.mp hplan'
  obtain rfl : directory' = directory :=
    (directory_eq_ok hdirectory').1.trans (directory_eq_ok hdirectory).1.symm
  obtain rfl : kind' = kind := Except.ok.inj (hkind'.symm.trans hkind)
  have hproject := (directory_eq_ok hdirectory).1
  rw [settings_later, hproject] at hconfig'
  have hstreams := hsame.settings config config' (hproject ▸ hconfig) hconfig'
  rw [hstreams] at haudits' ⊢
  refine ⟨⟨_, _, rfl⟩, fun category hcategory hcategory' => ?_⟩
  obtain ⟨a, ha, hof⟩ := exists_mem_of_mapM haudits
    (List.mem_eraseDups.mpr hcategory : category ∈ r.distinctCategories)
  obtain ⟨a', ha', hof'⟩ := exists_mem_of_mapM haudits'
    (List.mem_eraseDups.mpr hcategory' : category ∈ categories.eraseDups)
  have hagain := auditOf_same hsame now runId categories reports gate
    { host := c.host, project := directory', config, reportDir := r.reportPath } hproject
    ((nonempty? reports).map Path.ofString) config'.streamIssues hkind category
  obtain rfl : a' = a := Except.ok.inj (hof'.symm.trans (hagain.trans hof))
  exact ⟨a', ha, ha', category_of_auditOf hof⟩

end

/-- What is found in a category does not depend on which other categories are asked for, in which
order and how often, nor on where reports go, whether they can be written, and whether issues are
streamed: if two runs on the same project succeed, with reports that go elsewhere, the results
differ in their times only. Each category that is asked for is audited once, in the order in which
the categories are first named. -/
theorem category_results_agree (c : Context) (r : Request) (categories : List Category)
    (reports : Option String) (gate : Bool) (path : String) (w w' : World) (now runId : String)
    (hsame : SameProject c r path w w') (hnamed : NamedProject c path w)
    (houtside : ReportsOutside c r path)
    (houtside' : ReportsOutside c { r with reportDir := reports } path)
    {response response' : Response} (h : (auditAt c r path w).1 = .ok response)
    (h' :
      (auditAt (c.later now runId) { r with categories, reportDir := reports, gate } path w').1 =
      .ok response') :
    (∀ category ∈ r.categories, category ∈ categories → ∃ result,
      Json.lookup? category.name response.categories = some result ∧
      Json.lookup? category.name response'.categories = some { result with timestamp := now }) ∧
    response.categories.map (·.1) = r.categories.eraseDups.map Category.name ∧
    ∃ p after, plan c r path w = .ok p ∧
      p.audits.map (·.category) = r.categories.eraseDups.map Category.name ∧
      Runs p.setup p.audits w response.categories after := by
  obtain ⟨p, after, hplan, hruns⟩ := exists_runs_of_auditAt h
  obtain ⟨p', after', hplan', hruns'⟩ := exists_runs_of_auditAt h'
  refine ⟨fun category hcategory hcategory' => ?_, ?_, p, after, hplan,
    categories_of_plan hplan, hruns⟩
  · have hnamed' : NamedProject (c.later now runId) path w' := by
      intro t ht
      exact hnamed t (hsame.files.symm.trans ht)
    obtain ⟨entries, hat, helsewhere, hholds, hof⟩ := elsewhere_of_plan hplan hnamed houtside
    obtain ⟨entries', hat', helsewhere', hholds', hof'⟩ :=
      elsewhere_of_plan hplan' hnamed' houtside'
    obtain rfl : entries' = entries :=
      Tree.dir.inj (Option.some.inj (hat'.symm.trans (hsame.files.trans hat)))
    obtain ⟨⟨reportDir, streams, hsetup⟩, haudits⟩ :=
      exists_audit_of_plans hsame now runId categories reports gate hplan hplan'
    obtain ⟨a, ha, ha', hname⟩ := haudits category hcategory hcategory'
    obtain ⟨v, result, hrun, hlookup, hheld, hanswers⟩ :=
      hruns.exists_of_mem helsewhere hof (nodup_categories_of_plan hplan) hholds ha hname
    obtain ⟨v', result', hrun', hlookup', hheld', hanswers'⟩ :=
      hruns'.exists_of_mem helsewhere' hof' (nodup_categories_of_plan hplan') hholds' ha' hname
    -- both runs of this audit see the project and its answers as they were at the start
    have halike : SameAnswers category v v' :=
      hanswers.symm.trans ((hsame.answers category).trans hanswers')
    obtain ⟨other, hother⟩ := hof a ha
    obtain rfl : other = category := Category.name_injective (hother.name.symm.trans hname)
    rw [hsetup] at helsewhere' hheld' hrun'
    have hfound : result.found = result'.found :=
      Audit.found_beside helsewhere helsewhere' rfl rfl rfl
      hother hheld hheld' halike hrun hrun'
    refine ⟨result, hlookup, hlookup'.trans (congrArg some ?_)⟩
    obtain ⟨hcounts, hissues⟩ := Prod.mk.inj hfound
    calc result' =
      ⟨now, result'.counts, result'.issues⟩ := by rw [Audit.result_eq_of_run hrun']; rfl
      _ = { result with timestamp := now } := by rw [← hcounts, ← hissues]
  · rw [hruns.keys, categories_of_plan hplan]
    rfl

/-- The site with one page where nothing can be written; settings of the directory above switch the
streams off. -/
def unwritableSite : World where
  volume :=
    { tree := .dir [("work", .dir [("site", .dir onePage),
        (Config.fileName, .file (.text "\x7b\"writeIssueStream\": false\x7d"))])]
      refuses := fun _ => true }

/-- A request that names one of two categories twice. -/
def repeatingRequest : Request :=
  { path := some "site", categories := [.performance, .accessibility, .performance]
    reportDir := some "/reports" }

theorem sameProject_unwritableSite :
    SameProject siteContext repeatingRequest "site" (site onePage) unwritableSite where
  files := rfl
  settings config config' h h' := by
    obtain rfl : Config.default = config := Except.ok.inj h
    have hread : (settings siteContext.host repeatingRequest (.absolute ["work", "site"])
        unwritableSite).toOption = some { Config.default with streamIssues := false } := by
      decide +kernel
    have hconfig : some config' = some { Config.default with streamIssues := false } := by
      rw [← hread]
      exact congrArg Except.toOption h'.symm
    obtain rfl := Option.some.inj hconfig
    rfl
  rules linter kind h := by
    obtain rfl : none = kind := Except.ok.inj h
    cases linter <;> rfl
  answers category := ⟨rfl, fun _ => rfl, fun _ => rfl, fun _ => rfl⟩

/-- The other request, for the second category and another one, in another order and with the
gate. -/
def otherRequest : Request :=
  { repeatingRequest with
    categories := [.accessibility, .security], reportDir := some "/other", gate := true }

theorem category_results_agree_unwritableSite : ∃ response response' result,
    (auditAt siteContext repeatingRequest "site" (site onePage)).1 = .ok response ∧
    (auditAt (siteContext.later "later" "2") otherRequest "site" unwritableSite).1 = .ok response' ∧
    Json.lookup? "accessibility" response.categories = some result ∧
    Json.lookup? "accessibility" response'.categories = some { result with timestamp := "later" } ∧
    result.issues.length = 2 := by
  have hlength :
      ((auditAt siteContext repeatingRequest "site" (site onePage)).1.toOption.bind fun response =>
      (Json.lookup? "accessibility" response.categories).map (·.issues.length)) = some 2 := by
    decide +kernel
  have hother : (auditAt (siteContext.later "later" "2") otherRequest "site"
      unwritableSite).1.toOption.isSome = true := by decide +kernel
  cases hrun : (auditAt siteContext repeatingRequest "site" (site onePage)).1 with
  | error e =>
      rw [hrun] at hlength
      cases hlength
  | ok response =>
      cases hrun' :
        (auditAt (siteContext.later "later" "2") otherRequest "site" unwritableSite).1 with
      | error e =>
          rw [hrun'] at hother
          cases hother
      | ok response' =>
          have hnamed : NamedProject siteContext "site" (site onePage) := by
            intro t ht
            obtain rfl : Tree.dir onePage = t := Option.some.inj ht
            decide +kernel
          have houtside : ∀ reports ∈ ["/reports", "/other"], ReportsOutside siteContext
              { repeatingRequest with reportDir := some reports } "site" := by
            intro reports hreports directory hdirectory
            obtain rfl : Path.ofString reports = directory := by
              rcases List.mem_cons.mp hreports with rfl | hreports
              · exact Option.some.inj hdirectory
              · obtain rfl := List.mem_singleton.mp hreports
                exact Option.some.inj hdirectory
            revert reports
            decide +kernel
          obtain ⟨result, hlookup, hlookup'⟩ := (category_results_agree siteContext repeatingRequest
            [.accessibility, .security] (some "/other") true "site"
              (site onePage) unwritableSite "later" "2"
            sameProject_unwritableSite hnamed (houtside "/reports" (by decide))
            (houtside "/other" (by decide)) hrun hrun').1 .accessibility (by decide) (by decide)
          refine ⟨response, response', result, rfl, rfl, hlookup, hlookup', ?_⟩
          rw [hrun] at hlength
          have hshown :
              (Json.lookup? "accessibility" response.categories).map (·.issues.length) = some 2 :=
            hlength
          rw [show Json.lookup? "accessibility" response.categories =
            some result from hlookup] at hshown
          exact Option.some.inj hshown

end Project

end FrontendAudit
