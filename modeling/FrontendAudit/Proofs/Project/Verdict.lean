import FrontendAudit.Gate.Platform
import FrontendAudit.Proofs.Gate.Growth
import FrontendAudit.Proofs.Project.Categories

/-!
# What the gate says of a run

A run that succeeds has loaded the settings of the project where it lies (`Site`), and its response
shows the gate if that is asked for, or if the settings say so and the run takes place on an
integration platform (`gate_eq_of_auditAt`). So the response tells of a gate that counts and is not
passed exactly when some category exceeds its threshold (`gate_fails_iff`).

The gate is passed exactly when no category that was run exceeds its threshold
(`GateReport.passed_evaluate_iff`). Whether a run takes place on an integration platform is told by
five variables of the environment (`Platform.ofHost_eq_here_iff`).
-/

namespace FrontendAudit

/-! ## Platforms -/

/-- One of the variables by which platforms make themselves known is set, two of them to a given
value. -/
def Host.OnPlatform (host : Host) : Prop :=
  host.valueOf? "GITHUB_ACTIONS" = some "true" ∨ host.valueOf? "GITLAB_CI" = some "true" ∨
    ∃ setting ∈ ["JENKINS_URL", "CIRCLECI", "TRAVIS"], ∃ value,
      host.valueOf? setting = some value ∧ value ≠ ""

theorem isSome_nonempty?_iff {s? : Option String} :
    (nonempty? s?).isSome = true ↔ ∃ s, s? = some s ∧ s ≠ "" := by
  cases s? with
  | none => simp [nonempty?]
  | some s => by_cases h : s = "" <;> simp [nonempty?, h]

theorem Platform.ofHost_eq_here_iff {host : Host} :
    Platform.ofHost host = .here ↔ ¬ host.OnPlatform := by
  unfold Host.OnPlatform Platform.ofHost
  simp only [List.mem_cons, List.not_mem_nil, or_false, exists_eq_or_imp, exists_eq_left,
    ← isSome_nonempty?_iff, decide_eq_true_eq, not_or]
  -- the first variable that is set decides
  split_ifs <;> simp_all

/-! ## Thresholds -/

/-- The gate is passed when no threshold is exceeded. -/
theorem GateReport.passed_evaluate_iff {now : String} {found : List (String × List Finding)}
    {config : GateConfig} {platform : String} :
    (evaluate (Results.ofFindings now found) config platform).passed = true ↔
      ∀ threshold ∈ config.thresholds, ¬ Exceeds found threshold := by
  show (failuresOf (Results.ofFindings now found) config.thresholds).isEmpty = true ↔ _
  simp only [failuresOf_ofFindings, List.isEmpty_iff, List.map_eq_nil_iff, List.filter_eq_nil_iff,
    decide_eq_true_eq]

/-! ## The response -/

namespace Project

/-- Where the project of a request lies when it is audited, and the world then: a path goes before
the clone of a repository. -/
inductive Site (c : Context) (r : Request) (w : World) : String → World → Prop
  | path {path : String} (hpath : nonempty? r.path = some path) : Site c r w path w
  | clone {repository : String} {cloned : World} (hpath : nonempty? r.path = none)
      (hrepository : nonempty? r.repository = some repository)
      (hclone : Project.clone c.host (w.note [.cloned repository 1]) = some cloned) :
      Site c r w c.host.cloneDir.toString cloned

/-- The gate is asked for, or the settings have it on an integration platform; it counts; and of the
findings that the results sum up, those of some category exceed its threshold. -/
def GateBlocks (c : Context) (r : Request) (w : World) (response : Response) : Prop :=
  ∃ path w' config found, Site c r w path w' ∧
    Config.load c.host w'.volume.tree ((Path.ofString path).resolve c.host.cwd) = .ok config ∧
    (r.gate = true ∨ config.gate.enabled = true ∧ c.host.OnPlatform) ∧
    config.gate.failOnHigh = true ∧
    response.categories = .ofFindings c.host.now found ∧
    ∃ threshold ∈ config.gate.thresholds, GateReport.Exceeds found threshold

section

variable {c : Context} {r : Request} {path path' : String} {w w' v : World} {response : Response}

theorem Site.unique (h : Site c r w path w') (h' : Site c r w path' v) : path = path' ∧ w' = v := by
  cases h with
  | path hpath =>
      cases h' with
      | path hpath' => exact ⟨Option.some.inj (hpath.symm.trans hpath'), rfl⟩
      | clone hnone => cases hpath.symm.trans hnone
  | clone hnone hrepository hclone =>
      cases h' with
      | path hpath => cases hpath.symm.trans hnone
      | clone _ hrepository' hclone' =>
          obtain rfl := Option.some.inj (hrepository.symm.trans hrepository')
          exact ⟨rfl, Option.some.inj (hclone.symm.trans hclone')⟩

/-- A run that succeeds is one of a project that lies somewhere. -/
theorem exists_site_of_audit (h : (audit c r w).1 = .ok response) :
    ∃ path w', Site c r w path w' ∧ (auditAt c r path w').1 = .ok response := by
  unfold audit at h
  split at h
  · next path hpath => exact ⟨path, w, .path hpath, h⟩
  · next repository hpath hrepository =>
      unfold auditClone at h
      dsimp only at h
      split at h
      · cases h
      · next cloned hclone => exact ⟨_, cloned, .clone hpath hrepository hclone, h⟩
  · cases h

/-- The results of audits in turn sum up the findings that their logs have kept. -/
theorem Runs.exists_ofFindings {s : AuditSetup} {audits : List Audit} {results : Results}
    (h : Runs s audits w results w') : ∃ found, results = .ofFindings s.host.now found := by
  induction h with
  | none w => exact ⟨[], rfl⟩
  | next first rest ih =>
      obtain ⟨kept, rfl⟩ := Audit.exists_kept_of_run first
      obtain ⟨found, rfl⟩ := ih
      exact ⟨(_, kept) :: found, rfl⟩

theorem usesGate_iff {config : Config} :
    usesGate r config (Platform.ofHost c.host) = true ↔
      r.gate = true ∨ config.gate.enabled = true ∧ c.host.OnPlatform := by
  rw [usesGate, Bool.or_eq_true, Bool.and_eq_true, bne_iff_ne, Ne,
    Platform.ofHost_eq_here_iff, not_not]

/-- The gate of a response, where the settings are loaded. -/
theorem gate_eq_of_auditAt (h : (auditAt c r path w).1 = .ok response) :
    ∃ config, Config.load c.host w.volume.tree ((Path.ofString path).resolve c.host.cwd) =
      .ok config ∧
      response.gate = gate r config (Platform.ofHost c.host) response.categories := by
  unfold auditAt at h
  split at h
  · cases h
  · next p hplan =>
      obtain ⟨directory, kind, config, audits, hdirectory, -, hsettings, -, rfl⟩ :=
        plan_eq_ok.mp hplan
      obtain ⟨rfl, -⟩ := directory_eq_ok hdirectory
      obtain ⟨loaded, hload, rfl⟩ := settings_eq_ok hsettings
      refine ⟨loaded, hload, ?_⟩
      unfold runPlan at h
      split at h
      · cases h
      · obtain rfl := Except.ok.inj h
        rfl

/-- The results of a response sum up findings. -/
theorem exists_ofFindings_of_auditAt (h : (auditAt c r path w).1 = .ok response) :
    ∃ found, response.categories = .ofFindings c.host.now found := by
  obtain ⟨p, w₁, hplan, hruns⟩ := exists_runs_of_auditAt h
  rw [← host_of_plan hplan]
  exact hruns.exists_ofFindings

/-- A response tells of a gate that counts and is not passed exactly when the gate blocks. -/
theorem gate_fails_iff (h : (audit c r w).1 = .ok response) :
    (∃ g, response.gate = some g ∧ g.passed = false ∧ g.failOnHigh = true) ↔
      GateBlocks c r w response := by
  obtain ⟨path, w', hsite, hat⟩ := exists_site_of_audit h
  obtain ⟨config, hload, hgate⟩ := gate_eq_of_auditAt hat
  rw [gate] at hgate
  constructor
  · rintro ⟨g, hg, hnot, hcounts⟩
    obtain ⟨found, hfound⟩ := exists_ofFindings_of_auditAt hat
    rw [hgate, hfound] at hg
    split at hg
    · next huses =>
        obtain rfl := Option.some.inj hg
        refine ⟨path, w', config, found, hsite, hload, usesGate_iff.mp huses, hcounts, hfound, ?_⟩
        by_contra hnone
        rw [GateReport.passed_evaluate_iff.mpr fun t ht hexceeds => hnone ⟨t, ht, hexceeds⟩] at hnot
        cases hnot
    · cases hg
  · rintro ⟨path', v, config', found, hsite', hload', huses, hcounts, hfound, threshold,
      hthreshold, hexceeds⟩
    obtain ⟨rfl, rfl⟩ := hsite.unique hsite'
    obtain rfl := Except.ok.inj (hload.symm.trans hload')
    rw [if_pos (usesGate_iff.mpr huses), hfound] at hgate
    refine ⟨_, hgate, ?_, hcounts⟩
    exact Bool.eq_false_iff.mpr fun hpassed =>
      GateReport.passed_evaluate_iff.mp hpassed threshold hthreshold hexceeds

end

end Project

end FrontendAudit
