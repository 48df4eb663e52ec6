import FrontendAudit.Proofs.Config.Load
import FrontendAudit.Proofs.Project.Outset

/-!
# The limits of an audit

How many files are scanned at once and how many findings are kept is settled before the first audit.
The first may be asked for; otherwise both are the numbers that are in force in the settings
(`limits_of_plan`). They are positive, so that no audit refuses to scan (`audit_ne_badBatchSize`).
-/

namespace FrontendAudit

open Disk (Tree)
open Failure (OfReading OfLog)

/-- How many files are scanned at once is what the request asks for, or else what the settings
say. -/
inductive Request.BatchSize (r : Request) (host : Host) (disk : Tree) (project : Path) : Nat → Prop
  | asked {n : Nat} (h : r.batchSize = some n) : BatchSize r host disk project n
  | settled {n : Nat} (h : r.batchSize = none)
      (hn : Config.InForce .batchSize host disk project n) :
      BatchSize r host disk project n

namespace Request

variable {r : Request} {host : Host} {disk : Tree} {project : Path} {n m : Nat}

theorem BatchSize.unique (hn : r.BatchSize host disk project n)
    (hm : r.BatchSize host disk project m) :
    n = m := by
  cases hn with
  | asked h =>
      cases hm with
      | asked h' => exact Option.some.inj (h.symm.trans h')
      | settled h' => cases h.symm.trans h'
  | settled h hn =>
      cases hm with
      | asked h' => cases h.symm.trans h'
      | settled _ hm => exact hn.unique hm

/-- A request that is accepted asks for at least one file at a time, if it asks for any number. -/
theorem one_le_of_check {v : Json} (h : check v = .ok r) (hn : r.batchSize = some n) : 1 ≤ n := by
  cases v with
  | obj ms =>
      obtain ⟨-, -, hfield⟩ := fields_of_check h
      rw [hn] at hfield
      rcases Checked.field_eq_ok hfield with hnone | ⟨name, v, -, hcheck⟩
      · cases hnone
      · have hne : v ≠ .null := by
          rintro rfl
          cases hcheck
        obtain ⟨n', hpositive, hsome⟩ := (Checked.optional_eq_ok_of_ne_null hne).mp hcheck
        obtain rfl := Option.some.inj hsome
        exact (Checked.positive_eq_ok.mp hpositive).2
  | _ => cases h

end Request

namespace Project

variable {c : Context} {r : Request} {path : String} {w : World} {p : Plan} {e : Failure}

/-- The limits of the settings in force are what they should be, and positive. -/
theorem limits_of_settings {data : Json} (hr : Request.check data = .ok r) {directory : Path}
    {config : Config} (h : settings c.host r directory w = .ok config) :
    (r.BatchSize c.host w.volume.tree directory config.batchSize ∧ 1 ≤ config.batchSize) ∧
      Config.InForce .maxIssues c.host w.volume.tree directory config.maxIssues ∧
      1 ≤ config.maxIssues := by
  obtain ⟨loaded, hload, rfl⟩ := settings_eq_ok h
  obtain ⟨⟨hbatch, hpositive⟩, hissues⟩ := Config.inForce_of_load hload
  refine ⟨?_, hissues⟩
  cases hasked : r.batchSize with
  | none => exact ⟨.settled hasked hbatch, hpositive⟩
  | some n => exact ⟨.asked hasked, Request.one_le_of_check hr hasked⟩

/-! ## No audit refuses to scan -/

/-- What fails before the first audit is not about how many files are scanned at once. -/
inductive PlanFailure : Failure → Prop
  | config (fault : ConfigFault) : PlanFailure (.config fault)
  | undecodable : PlanFailure .undecodable
  | noProject (path : String) : PlanFailure (.noProject path)
  | noDirectory (path : String) : PlanFailure (.noDirectory path)
  | unknownKind (name : String) : PlanFailure (.unknownKind name)

theorem directory_error (h : Project.directory c.host path w = .error e) : PlanFailure e := by
  unfold Project.directory at h
  dsimp only at h
  split at h
  · obtain rfl := Except.error.inj h
    exact .noProject path
  · obtain rfl := Except.error.inj h
    exact .noDirectory path
  · cases h

theorem kind_error (h : r.kind = .error e) : PlanFailure e := by
  unfold Request.kind at h
  split at h
  · cases h
  · split at h
    · cases h
    · obtain rfl := Except.error.inj h
      exact .unknownKind _

theorem settings_error {directory : Path} (h : settings c.host r directory w = .error e) :
    PlanFailure e := by
  unfold settings at h
  split at h
  · obtain rfl := Except.error.inj h
    exact .config _
  · obtain rfl := Except.error.inj h
    exact .undecodable
  · cases h

theorem auditOf_error {s : AuditSetup} {kind : Option ProjectKind} {category : Category}
    (h : auditOf c r s kind w category = .error e) : PlanFailure e := by
  have hlint : ∀ linter : Linter, auditOf.lintAudit c r s kind w linter = .error e →
      PlanFailure e := by
    intro linter hlinter
    unfold auditOf.lintAudit at hlinter
    split at hlinter
    · obtain rfl := Except.error.inj hlinter
      exact .config _
    · cases hlinter
  cases category with
  | eslint => exact hlint .eslint h
  | stylelint => exact hlint .stylelint h
  | _ => cases h

theorem plan_error (h : plan c r path w = .error e) : PlanFailure e := by
  unfold plan at h
  rcases bind_eq_error.mp h with h | ⟨directory, -, h⟩
  · exact directory_error h
  rcases bind_eq_error.mp h with h | ⟨kind, -, h⟩
  · exact kind_error h
  rcases bind_eq_error.mp h with h | ⟨config, -, h⟩
  · exact settings_error h
  rcases bind_eq_error.mp h with h | ⟨audits, -, h⟩
  · obtain ⟨category, -, hfails⟩ := exists_of_mapM_error h
    exact auditOf_error hfails
  · cases h

theorem limits_of_plan {data : Json} (hr : Request.check data = .ok r)
    (h : plan c r path w = .ok p) :
    (r.BatchSize c.host w.volume.tree
      ((Path.ofString path).resolve c.host.cwd) p.setup.config.batchSize ∧
        1 ≤ p.setup.config.batchSize) ∧
      Config.InForce .maxIssues c.host w.volume.tree ((Path.ofString path).resolve c.host.cwd)
        p.setup.config.maxIssues ∧ 1 ≤ p.setup.config.maxIssues := by
  obtain ⟨directory, kind, config, audits, hdirectory, -, hsettings, -, rfl⟩ := plan_eq_ok.mp h
  obtain ⟨rfl, -⟩ := directory_eq_ok hdirectory
  exact limits_of_settings hr hsettings

/-- An audit of a plan fails in one of its own steps or over its log. -/
theorem run_error {data : Json} (hr : Request.check data = .ok r)
    (hplan : plan c r path w = .ok p) {a : Audit} (ha : a ∈ p.audits) {pace : Pace}
    {state : AuditState} {w' : World} (h : (a.runPaced p.setup pace state w').result = .error e) :
    OfReading e ∨ OfLog a.category e := by
  rcases (failsIn_of_plan hplan a ha).runPaced h with hown | hlog | ⟨hsize, -⟩
  · exact .inl hown
  · exact .inr hlog
  · exact absurd hsize (Nat.not_lt.mpr (limits_of_plan hr hplan).1.2)

theorem auditAt_error {data : Json} (hr : Request.check data = .ok r)
    (h : (auditAt c r path w).1 = .error e) :
    PlanFailure e ∨ OfReading e ∨ ∃ category, OfLog category e := by
  unfold auditAt at h
  split at h
  · next hplan =>
      obtain rfl := Except.error.inj h
      exact .inl (plan_error hplan)
  · next p hplan =>
      obtain ⟨a, ha, w', hfails⟩ := exists_of_runPlan_error h
      rcases run_error hr hplan ha hfails with hown | hlog
      · exact .inr (.inl hown)
      · exact .inr (.inr ⟨_, hlog⟩)

/-- A request that is accepted is never refused over how many files are scanned at once. -/
theorem audit_ne_badBatchSize {data : Json} (hr : Request.check data = .ok r) (size : Int) :
    (audit c r w).1 ≠ .error (.badBatchSize size) := by
  have hat : ∀ {path w}, (auditAt c r path w).1 ≠ .error (.badBatchSize size) := by
    intro path w h
    rcases auditAt_error hr h with hplan | hown | ⟨category, hlog⟩
    · cases hplan
    · cases hown
    · cases hlog
  unfold audit
  split
  · exact hat
  · unfold auditClone
    dsimp only
    split
    · exact nofun
    · exact hat
  · exact nofun

/-- Whatever an accepted request, the files and the environment hold, the limits of a run that comes
to its audits are those in force, one number each; they are positive, and no audit refuses to scan
over them. -/
theorem limits_in_force {data : Json} {r : Request} (hr : Request.check data = .ok r)
    (c : Context) :
    (∀ path w p, plan c r path w = .ok p →
      (∀ n, p.setup.config.batchSize = n ↔
        r.BatchSize c.host w.volume.tree ((Path.ofString path).resolve c.host.cwd) n) ∧
      (∀ n, p.setup.config.maxIssues = n ↔
        Config.InForce .maxIssues c.host w.volume.tree
          ((Path.ofString path).resolve c.host.cwd) n) ∧
      1 ≤ p.setup.config.batchSize ∧ 1 ≤ p.setup.config.maxIssues ∧
      ∀ a ∈ p.audits, ∀ pace state w' size,
        (a.runPaced p.setup pace state w').result ≠ .error (.badBatchSize size)) ∧
    ∀ w size, (audit c r w).1 ≠ .error (.badBatchSize size) := by
  refine ⟨fun path w p hplan => ?_, fun w size => audit_ne_badBatchSize hr size⟩
  obtain ⟨⟨hbatch, hbatchPositive⟩, hissues, hissuesPositive⟩ := limits_of_plan hr hplan
  refine ⟨fun n => ⟨?_, hbatch.unique⟩, fun n => ⟨?_, hissues.unique⟩, hbatchPositive,
    hissuesPositive, ?_⟩
  · rintro rfl
    exact hbatch
  · rintro rfl
    exact hissues
  · intro a ha pace state w' size hfails
    rcases run_error hr hplan ha hfails with hown | hlog
    · cases hown
    · cases hlog

/-- A host whose environment leaves one limit blank and sets the other, in digits of another
script. -/
def limitedContext : Context where
  host :=
    { cwd := .absolute ["work"]
      environment := [(Config.batchVariable, "\t"), (Config.issuesVariable, " +\u0665_0\t")]
      now := "now", runId := "1", rulesDir := .absolute ["rules"], cloneDir := .absolute ["clone"] }
  service := { base := Service.defaultBase, key := none }

/-- A site with settings, in a directory with settings. -/
def nestedSite : World where
  volume :=
    { tree := .dir [("work", .dir [
        (Config.fileName, .file (.text "\x7b\"batchSize\": 3\x7d")),
        ("site", .dir [(Config.fileName, .file (.text "\x7b\"max_issues\": \" 7.0\"\x7d"))])])] }

/-- Five files at once are usual, since the settings above the site do not count, and fifty findings
are kept, as the environment says and not the settings of the site. -/
theorem limits_in_force_nestedSite : ∃ r p,
    Request.check (.obj [("path", .str "site"), ("batch_size", .null)]) = .ok r ∧
    plan limitedContext r "site" nestedSite = .ok p ∧
    (p.setup.config.batchSize = 5 ∧
      r.BatchSize limitedContext.host nestedSite.volume.tree (.absolute ["work", "site"]) 5) ∧
    (p.setup.config.maxIssues = 50 ∧
      Config.InForce .maxIssues limitedContext.host nestedSite.volume.tree
        (.absolute ["work", "site"]) 50) ∧
    ∀ size, (audit limitedContext r nestedSite).1 ≠ .error (.badBatchSize size) := by
  have hr : Request.check (.obj [("path", .str "site"), ("batch_size", .null)]) =
      .ok { path := some "site" } := rfl
  have hlimits : (plan limitedContext { path := some "site" } "site" nestedSite).toOption.map
      (fun p => (p.setup.config.batchSize, p.setup.config.maxIssues)) =
        some (5, 50) := by decide +kernel
  cases hplan : plan limitedContext { path := some "site" } "site" nestedSite with
  | error e =>
      rw [hplan] at hlimits
      cases hlimits
  | ok p =>
      rw [hplan] at hlimits
      obtain ⟨hbatch, hissues⟩ := Prod.mk.inj (Option.some.inj hlimits)
      obtain ⟨hplanned, hnever⟩ := limits_in_force hr limitedContext
      obtain ⟨hbatchIff, hissuesIff, -⟩ := hplanned "site" nestedSite p hplan
      exact ⟨_, p, hr, hplan, ⟨hbatch, (hbatchIff 5).mp hbatch⟩,
        ⟨hissues, (hissuesIff 50).mp hissues⟩, hnever nestedSite⟩

end Project

end FrontendAudit
