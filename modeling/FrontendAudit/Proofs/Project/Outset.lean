import FrontendAudit.Proofs.Audit.Failures
import FrontendAudit.Proofs.Project.Plan

/-!
# What is settled before the first audit

The directory of a project, its kind, the settings and the rules of the linters are settled before
any audit runs, whatever categories are asked for. None of the steps of an audit fails over them
(`runPlan_ne_refusal`), so that a run that is refused over one of them has done nothing: it leaves
the world as it was, and is refused in the same way whatever tools, pages and services there are
(`refusal_precedes_audits`).
-/

namespace FrontendAudit

open Failure (OfReading)

/-- What a run can be refused over: its settings or the rules of a linter, the directory of the
project, or its kind. -/
inductive Failure.Refusal : Failure → Prop
  | config (fault : ConfigFault) : Refusal (.config fault)
  | noProject (path : String) : Refusal (.noProject path)
  | noDirectory (path : String) : Refusal (.noDirectory path)
  | unknownKind (name : String) : Refusal (.unknownKind name)

namespace Project

variable {c : Context} {r : Request} {path : String} {w w' : World} {p : Plan} {e : Failure}

/-! ## No audit fails over what is settled -/

theorem failsIn_of_auditOf {s : AuditSetup} {kind : Option ProjectKind}
    {category : Category} {a : Audit} (h : auditOf c r s kind w category = .ok a) :
    a.FailsIn OfReading := by
  have hlint : ∀ linter : Linter, auditOf.lintAudit c r s kind w linter = .ok a →
      a.FailsIn OfReading := by
    intro linter hlinter
    unfold auditOf.lintAudit at hlinter
    split at hlinter
    · cases hlinter
    · obtain rfl := Except.ok.inj hlinter
      exact Audit.lint_failsIn _ _
  cases category with
  | accessibility =>
      obtain rfl := Except.ok.inj h
      exact Audit.accessibility_failsIn s r.urls
  | eslint => exact hlint .eslint h
  | stylelint => exact hlint .stylelint h
  | security =>
      obtain rfl := Except.ok.inj h
      exact Audit.security_failsIn s r.repository c.service
  | performance =>
      obtain rfl := Except.ok.inj h
      exact Audit.performance_failsIn s

theorem failsIn_of_plan (h : plan c r path w = .ok p) : ∀ a ∈ p.audits, a.FailsIn OfReading := by
  obtain ⟨directory, kind, config, audits, -, -, -, haudits, rfl⟩ := plan_eq_ok.mp h
  intro a ha
  obtain ⟨category, -, hof⟩ := exists_of_mem_mapM haudits ha
  exact failsIn_of_auditOf hof

/-- Audits in turn fail when one of them does. -/
theorem exists_of_runAudits_error {s : AuditSetup} {audits : List Audit}
    (h : (runAudits s audits w).1 = .error e) :
    ∃ a ∈ audits, ∃ w', (a.run s {} w').result = .error e := by
  induction audits generalizing w with
  | nil => cases h
  | cons a audits ih =>
      rw [runAudits] at h
      split at h
      · next hrun =>
          obtain rfl := Except.error.inj h
          exact ⟨a, List.mem_cons_self, w, by rw [hrun]⟩
      · split at h
        · next hrest =>
            obtain rfl := Except.error.inj h
            obtain ⟨b, hb, hfails⟩ := ih (congrArg Prod.fst hrest)
            exact ⟨b, List.mem_cons_of_mem a hb, hfails⟩
        · cases h

theorem exists_of_runPlan_error (h : (runPlan c r p w).1 = .error e) :
    ∃ a ∈ p.audits, ∃ w', (a.run p.setup {} w').result = .error e := by
  unfold runPlan at h
  split at h
  · next hfails =>
      obtain rfl := Except.error.inj h
      exact exists_of_runAudits_error (congrArg Prod.fst hfails)
  · cases h

/-- A plan that has been made is not refused, whatever world it is run in. -/
theorem runPlan_ne_refusal (he : e.Refusal) (hplan : plan c r path w = .ok p) :
    (runPlan c r p w').1 ≠ .error e := by
  intro h
  obtain ⟨a, ha, w₁, hfails⟩ := exists_of_runPlan_error h
  rcases (failsIn_of_plan hplan a ha).runPaced hfails with hown | hlog | ⟨-, rfl⟩
  · cases he <;> cases hown
  · cases he <;> cases hlog
  · cases he

/-! ## What a plan depends on -/

/-- Of the world a plan reads the files only. -/
theorem plan_congr (htree : w'.volume.tree = w.volume.tree) :
    plan c r path w' = plan c r path w := by
  have hdirectory : Project.directory c.host path w' = Project.directory c.host path w := by
    rw [Project.directory, Project.directory, htree]
  have hsettings : ∀ directory, settings c.host r directory w' = settings c.host r directory w :=
    fun directory => by
    rw [settings, settings, htree]
  have haudit : ∀ s kind, auditOf c r s kind w' = auditOf c r s kind w := fun s kind => by
    funext category
    cases category with
    | eslint | stylelint => rw [auditOf, auditOf, auditOf.lintAudit, auditOf.lintAudit, htree]
    | _ => rfl
  simp only [plan, hdirectory, hsettings, haudit]

/-- A plan fails in the same way whatever service there is. -/
theorem plan_eq_error_congr (service : Service) :
    plan { c with service } r path w = .error e ↔ plan c r path w = .error e := by
  have haudits :
      ∀ s kind, r.distinctCategories.mapM (auditOf { c with service } r s kind w) = .error e ↔
      r.distinctCategories.mapM (auditOf c r s kind w) = .error e := fun s kind =>
    mapM_eq_error_congr fun category => by cases category <;> rfl
  simp only [plan, bind_eq_error, haudits, pure, Except.pure, reduceCtorEq, and_false,
    exists_false, or_false]

/-! ## Refusals -/

/-- A run ends in a refusal exactly when its plan does. Once the plan is made none of its audits is
refused, in whatever world they run. A run that is refused leaves the world as it was: nothing is
noted, written or asked for. And it is refused in the same way over the same files, whatever tools,
pages, services and notes there are. -/
theorem refusal_precedes_audits (c : Context) (r : Request) (path : String) (he : e.Refusal) :
    (∀ w, (auditAt c r path w).1 = .error e ↔ plan c r path w = .error e) ∧
      (∀ w p, plan c r path w = .ok p → ∀ w', (runPlan c r p w').1 ≠ .error e) ∧
      ∀ w w', auditAt c r path w = (.error e, w') →
        w' = w ∧ ∀ service w₁, w₁.volume.tree = w.volume.tree →
          auditAt { c with service } r path w₁ = (.error e, w₁) := by
  have hrefused : ∀ w, (auditAt c r path w).1 = .error e ↔ plan c r path w = .error e := by
    intro w
    unfold auditAt
    cases hplan : plan c r path w with
    | error e' => simp
    | ok p => exact iff_of_false (runPlan_ne_refusal he hplan) nofun
  have hleft : ∀ {c : Context} {w}, plan c r path w = .error e →
      auditAt c r path w = (.error e, w) := by
    intro c w hplan
    rw [auditAt, hplan]
  refine ⟨hrefused, fun w p hplan w' => runPlan_ne_refusal he hplan, fun w w' h => ?_⟩
  have hplan : plan c r path w = .error e := (hrefused w).mp (by rw [h])
  refine ⟨(Prod.mk.inj (h.symm.trans (hleft hplan))).2, fun service w₁ htree => hleft ?_⟩
  rw [plan_congr htree]
  exact (plan_eq_error_congr service).mpr hplan

/-- A host without rules for linters. -/
def rulelessContext : Context where
  host :=
    { cwd := .absolute ["work"], environment := [], now := "now", runId := "1",
      rulesDir := .absolute ["rules"]
      cloneDir := .absolute ["clone"] }
  service := { base := Service.defaultBase, key := none }

/-- A page on disk and one on the net, with the issues that an earlier run has reported. -/
def reportedSite : World where
  volume :=
    { tree := .dir [("work", .dir [
        ("site", .dir [("index.html", .file (.text "<img>"))]),
        ("out", .dir [("accessibility-issues.jsonl", .file (.text "\x7b\x7d\n"))])])] }
  pages := [("https://site.test/", [.reply 200 none (.text "<img>")])]

/-- Pages are to be looked at first and scripts afterwards, but there are no rules for scripts: the
pages are not looked at, and the issues of the earlier run are still there. -/
theorem refusal_precedes_audits_reportedSite :
    let r : Request :=
      { categories := [.accessibility, .eslint], urls := ["https://site.test/"],
        reportDir := some "out" }
    auditAt rulelessContext r "site" reportedSite =
      (.error (.config .noEslintRules), reportedSite) ∧
      auditAt rulelessContext r "site" { reportedSite with pages := [] } =
        (.error (.config .noEslintRules), { reportedSite with pages := [] }) := by
  intro r
  obtain ⟨hrefused, -, huntouched⟩ :=
    refusal_precedes_audits rulelessContext r "site" (.config .noEslintRules)
  have hplan : plan rulelessContext r "site" reportedSite = .error (.config .noEslintRules) := rfl
  obtain ⟨hsame, hagain⟩ := huntouched reportedSite _ (Prod.ext ((hrefused _).mpr hplan) rfl)
  exact ⟨Prod.ext ((hrefused _).mpr hplan) hsame, hagain rulelessContext.service _ rfl⟩

end Project

end FrontendAudit
