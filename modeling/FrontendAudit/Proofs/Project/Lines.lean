import FrontendAudit.Gate.Format
import FrontendAudit.Proofs.Audit.Lines
import FrontendAudit.Proofs.Project.Verdict

/-!
# The lines that a run reports

Whatever a run finds has no line, or one from the first on, unless the source of the category has
named another: a linter in its messages, the review service in its reviews (`lines_of_audit`). A
result in the interchange format has a region exactly where its issue has a line other than zero
(`Sarif.regionsIn_result`), so the same holds of where regions start. Nothing keeps a source from
naming a line below the first, and then the run reports it (`lines_below_first`).
-/

namespace FrontendAudit

open World (AnswersAmong)

/-! ## Regions -/

namespace Sarif

/-- The regions that the locations of a result have. -/
def regionsIn (result : Json) : List Json :=
  match result.get? "locations" with
  | some (.arr locations) =>
    locations.filterMap fun location => (location.get? "physicalLocation").bind (·.get? "region")
  | _ => []

/-- The region that starts with a line. -/
def regionAt (n : Int) : Json := .obj [("startLine", .int n), ("startColumn", .int 1)]

theorem regionsIn_result (category : String) (f : Finding) :
    regionsIn (result category f) = (f.line.toList.filter (· ≠ 0)).map regionAt := by
  have hregions : regionsIn (result category f) = (Json.lookup? "region" (region f)).toList := rfl
  rw [hregions, region]
  cases f.line with
  | none => rfl
  | some n =>
      by_cases hzero : n = 0
      · subst hzero
        rfl
      · dsimp only
        rw [if_neg hzero]
        simp [hzero, regionAt, Json.lookup?]

end Sarif

/-- The source of a category names a line. -/
def World.NamesLine (w : World) (category : String) (n : Int) : Prop :=
  (∃ linter : Linter, linter.name = category ∧ w.LinterNames linter n) ∨
    Category.security.name = category ∧ w.ServiceNames n

theorem Audit.Gives.mono {I : World → Prop} {P Q : Finding → Prop} {a : Audit} (ha : a.Gives I P)
    (himp : ∀ f, P f → Q f) : a.Gives I Q where
  enumerate := ha.enumerate
  scan file := (ha.scan file).mono fun _ h f hf => himp f (h f hf)
  finalize tally := (ha.finalize tally).mono fun _ h f hf => himp f (h f hf)

namespace Project

variable {c : Context} {r : Request} {path : String} {w v v' : World}

/-! ## Steps -/

/-- Every step of an audit gives findings with lines from the first on, or that the source of its
category names. -/
theorem gives_of_auditOf {s : AuditSetup} {kind : Option ProjectKind}
    {category : Category} {a : Audit} (h : auditOf c r s kind v category = .ok a) :
    a.Gives (AnswersAmong w) (Finding.LineFrom (w.NamesLine a.category)) := by
  have hlint : ∀ linter : Linter, auditOf.lintAudit c r s kind v linter = .ok a →
      a.Gives (AnswersAmong w) (Finding.LineFrom (w.NamesLine a.category)) := by
    intro linter hlinter
    unfold auditOf.lintAudit at hlinter
    split at hlinter
    · cases hlinter
    · obtain rfl := Except.ok.inj hlinter
      exact (Audit.Gives.of_lint _ _).mono fun f hf n hn => (hf n hn).imp_right fun h =>
        .inl ⟨linter, rfl, h⟩
  cases category with
  | accessibility =>
      obtain rfl := Except.ok.inj h
      exact .of_accessibility s r.urls
  | eslint => exact hlint .eslint h
  | stylelint => exact hlint .stylelint h
  | security =>
      obtain rfl := Except.ok.inj h
      exact (Audit.Gives.of_security s r.repository c.service).mono fun f hf n hn =>
        (hf n hn).imp_right fun h => .inr ⟨rfl, h⟩
  | performance =>
      obtain rfl := Except.ok.inj h
      exact .of_performance s

theorem gives_of_plan {p : Plan} (h : plan c r path v = .ok p) :
    ∀ a ∈ p.audits, a.Gives (AnswersAmong w) (Finding.LineFrom (w.NamesLine a.category)) := by
  obtain ⟨directory, kind, config, audits, -, -, -, haudits, rfl⟩ := plan_eq_ok.mp h
  intro a ha
  obtain ⟨category, -, hof⟩ := exists_of_mem_mapM haudits ha
  exact gives_of_auditOf hof

/-! ## Runs -/

theorem Runs.lineFrom {s : AuditSetup} {audits : List Audit} {results : Results}
    (h : Runs s audits v results v') (hv : AnswersAmong w v)
    (hgives : ∀ a ∈ audits, a.Gives (AnswersAmong w) (Finding.LineFrom (w.NamesLine a.category))) :
    ∀ entry ∈ results, ∀ f ∈ entry.2.issues, f.LineFrom (w.NamesLine entry.1) := by
  have hunasked : ∀ v v', AnswersAmong w v → World.Unasked v v' → AnswersAmong w v' :=
    fun v v' h => h.unasked
  induction h with
  | none v => exact fun _ hentry => nomatch hentry
  | next first rest ih =>
      rw [List.forall_mem_cons] at hgives ⊢
      exact ⟨hgives.1.issues hunasked hv first, ih (hgives.1.run hunasked hv) hgives.2⟩

/-- The project of a request is audited where the outside has the answers that it has when the run
begins. -/
theorem Site.answersAmong (h : Site c r w path v) : AnswersAmong w v := by
  cases h with
  | path => exact .refl w
  | clone hpath hrepository hclone =>
      obtain ⟨tree, -, hmounted⟩ := Option.bind_eq_some_iff.mp hclone
      obtain ⟨volume, -, rfl⟩ := Option.map_eq_some_iff.mp hmounted
      exact (AnswersAmong.refl w).unasked rfl

/-- Each step of a run gives findings without lines, or with lines from the first on, or with lines
that the source of the category names. So do the issues that the run reports, and no region starts
with another line. -/
theorem lines_of_audit (c : Context) (r : Request) (w : World) :
    (∀ v path p, plan c r path v = .ok p →
      ∀ a ∈ p.audits, a.Gives (AnswersAmong w) (Finding.LineFrom (w.NamesLine a.category))) ∧
    ∀ response, (audit c r w).1 = .ok response →
      (∀ entry ∈ response.categories, ∀ f ∈ entry.2.issues, f.LineFrom (w.NamesLine entry.1)) ∧
      ∀ result ∈ Sarif.resultsOf response.categories, ∀ region ∈ Sarif.regionsIn result,
        ∃ n, region = Sarif.regionAt n ∧ n ≠ 0 ∧ (1 ≤ n ∨ ∃ category, w.NamesLine category n) := by
  refine ⟨fun v path p hplan => gives_of_plan hplan, fun response h => ?_⟩
  obtain ⟨path, v, hsite, hat⟩ := exists_site_of_audit h
  obtain ⟨p, v', hplan, hruns⟩ := exists_runs_of_auditAt hat
  have hissues := hruns.lineFrom hsite.answersAmong (gives_of_plan hplan)
  refine ⟨hissues, fun result hresult region hregion => ?_⟩
  obtain ⟨entry, hentry, hin⟩ := List.mem_flatMap.mp hresult
  obtain ⟨f, hf, rfl⟩ := List.mem_map.mp hin
  rw [Sarif.regionsIn_result] at hregion
  obtain ⟨n, hn, rfl⟩ := List.mem_map.mp hregion
  obtain ⟨hline, hzero⟩ := List.mem_filter.mp hn
  refine ⟨n, rfl, of_decide_eq_true hzero,
    (hissues entry hentry f hf n (Option.mem_toList.mp hline)).imp_right ?_⟩
  exact fun hnames => ⟨entry.1, hnames⟩

/-- A review with an entry about a line below the first, and one about another line. -/
def negativeReview : Json :=
  .obj [("findings", .obj
    [("secrets", .arr [.obj [("type", .str "token"), ("file", .str "a.js"), ("line", .int (-7))]]),
     ("logging", .arr [.obj [("pattern", .str "console.log(token)"), ("line", .int 3)]])])]

/-- A site with one script, about whose line -1 a linter has a message. -/
def outspokenSite : World :=
  { site [("a.js", .file (.text "a == 1\n")), (".eslintrc.json", .file (.text "\x7b\x7d"))] with
    toolRuns :=
      [(("eslint", "a.js"), [.exited 1 (Json.arr (LintSetup.resultsAt (.int (-1)))).compact ""])]
    service := [.reply 200 none (.json negativeReview)] }

def outspokenRequest : Request :=
  { path := some "site", repository := some "https://github.com/acme/web",
    categories := [.eslint, .security] }

theorem exists_outspoken_response : ∃ response,
    (audit siteContext outspokenRequest outspokenSite).1 = .ok response ∧
      response.categories.map (fun entry => (entry.1, entry.2.issues.map (·.line))) =
        [("eslint", [some (-1)]), ("security", [some (-7), some 3])] := by
  have hlines : (audit siteContext outspokenRequest outspokenSite).1.toOption.map (fun response =>
      response.categories.map fun entry => (entry.1, entry.2.issues.map (·.line))) =
        some [("eslint", [some (-1)]), ("security", [some (-7), some 3])] := by
    decide +kernel
  cases hrun : (audit siteContext outspokenRequest outspokenSite).1 with
  | error e =>
      rw [hrun] at hlines
      cases hlines
  | ok response =>
      rw [hrun] at hlines
      exact ⟨response, rfl, Option.some.inj hlines⟩

/-- The site is planned and audited, and the lines below the first are named. -/
theorem lines_of_audit_outspokenSite :
    (∃ p, plan siteContext outspokenRequest "site" outspokenSite = .ok p ∧
      p.audits.map (·.category) = ["eslint", "security"] ∧
      ∀ a ∈ p.audits, a.Gives (AnswersAmong outspokenSite)
        (Finding.LineFrom (outspokenSite.NamesLine a.category))) ∧
    ∃ response, (audit siteContext outspokenRequest outspokenSite).1 = .ok response ∧
      response.categories.map (fun entry => (entry.1, entry.2.issues.map (·.line))) =
        [("eslint", [some (-1)]), ("security", [some (-7), some 3])] ∧
      outspokenSite.NamesLine "eslint" (-1) ∧ outspokenSite.NamesLine "security" (-7) := by
  obtain ⟨response, hrun, hlines⟩ := exists_outspoken_response
  obtain ⟨hsteps, hall⟩ := lines_of_audit siteContext outspokenRequest outspokenSite
  obtain ⟨hissues, -⟩ := hall response hrun
  have hnamed : ∀ category lines n, n < 1 → (category, lines) ∈
      response.categories.map (fun entry => (entry.1, entry.2.issues.map (·.line))) →
      some n ∈ lines →
      outspokenSite.NamesLine category n := by
    intro category lines n hbelow hmem hn
    obtain ⟨entry, hentry, heq⟩ := List.mem_map.mp hmem
    obtain ⟨rfl, rfl⟩ := Prod.mk.inj heq
    obtain ⟨f, hf, hline⟩ := List.mem_map.mp hn
    exact (hissues entry hentry f hf n hline).resolve_left (by omega)
  rw [hlines] at hnamed
  refine ⟨?_, response, hrun, hlines, ?_, ?_⟩
  · have hcategories : (plan siteContext outspokenRequest "site" outspokenSite).toOption.map
        (fun p => p.audits.map (·.category)) = some ["eslint", "security"] := by
      decide +kernel
    cases hplan : plan siteContext outspokenRequest "site" outspokenSite with
    | error e =>
        rw [hplan] at hcategories
        cases hcategories
    | ok p =>
        rw [hplan] at hcategories
        exact ⟨p, rfl, Option.some.inj hcategories, hsteps outspokenSite "site" p hplan⟩
  · exact hnamed _ _ (-1) (by decide) List.mem_cons_self List.mem_cons_self
  · exact hnamed _ _ (-7) (by decide) (List.mem_cons_of_mem _ List.mem_cons_self) List.mem_cons_self

/-- An issue has the line below the first that its source named, and a region starts there. -/
theorem lines_below_first :
    ∃ response, (audit siteContext outspokenRequest outspokenSite).1 = .ok response ∧
      ¬ (∀ entry ∈ response.categories, ∀ f ∈ entry.2.issues, ∀ n ∈ f.line, 1 ≤ n) ∧
      ¬ (∀ result ∈ Sarif.resultsOf response.categories, ∀ region ∈ Sarif.regionsIn result,
        ∃ n, region = Sarif.regionAt n ∧ 1 ≤ n) := by
  obtain ⟨response, hrun, hlines⟩ := exists_outspoken_response
  obtain ⟨entry, hentry, f, hf, hline⟩ :
      ∃ entry ∈ response.categories, ∃ f ∈ entry.2.issues, f.line = some (-7) := by
    have hsecurity : ("security", [some (-7), some 3]) ∈
        response.categories.map (fun entry => (entry.1, entry.2.issues.map (·.line))) := by
      rw [hlines]
      exact List.mem_cons_of_mem _ List.mem_cons_self
    obtain ⟨entry, hentry, heq⟩ := List.mem_map.mp hsecurity
    have hfirst : some (-7) ∈ entry.2.issues.map (·.line) := by
      rw [(Prod.mk.inj heq).2]
      exact List.mem_cons_self
    obtain ⟨f, hf, hline⟩ := List.mem_map.mp hfirst
    exact ⟨entry, hentry, f, hf, hline⟩
  refine ⟨response, hrun, fun h => absurd (h entry hentry f hf (-7) hline) (by decide), fun h => ?_⟩
  have hregion : Sarif.regionAt (-7) ∈ Sarif.regionsIn (Sarif.result entry.1 f) := by
    rw [Sarif.regionsIn_result, hline]
    exact List.mem_cons_self
  have hresult : Sarif.result entry.1 f ∈ Sarif.resultsOf response.categories :=
    List.mem_flatMap.mpr ⟨entry, hentry, List.mem_map_of_mem hf⟩
  obtain ⟨n, hn, hfirst⟩ := h _ hresult _ hregion
  have hsame : (-7 : Int) = n := by
    simpa [Sarif.regionAt] using hn
  omega

end Project

end FrontendAudit
