import FrontendAudit.Project.Audit
import FrontendAudit.Proofs.Audit.Agreement
import FrontendAudit.Proofs.Fallible
import FrontendAudit.Proofs.Validation

/-!
# Plans and the files they read

A plan is made from the settings of the project, its own rules for linters and the rules that are
bundled. None of these has the name of a file that a run writes (`not_mem_artifactNames`), so that a
run that was planned can be planned again as it was when reports have been written
(`plan_of_filled`), and later (`plan_later`).
-/

namespace FrontendAudit

open Disk (Tree Volume)

/-! ## The names that runs write and read -/

namespace Report

/-- The names of all files that runs write. -/
def artifactNames : List String :=
  Category.all.flatMap (fun category =>
    [category.name ++ "-issues.jsonl", nameOf category.name]) ++
  [combinedName, pageName, junitName, sarifName, summaryName]

/-- The names of the files that are read besides those that a category finds. -/
def readNames : List String :=
  [Disk.ignoreFileName, "package.json", Config.fileName] ++
    [Linter.eslint, Linter.stylelint].flatMap (fun linter =>
      linter.bundledName :: linter.projectNames) ++
    ProjectKind.all.map Linter.kindName

theorem isFileName_of_mem : ∀ name ∈ artifactNames ++ readNames, IsFileName name := by
  decide +kernel

theorem not_mem_artifactNames : ∀ name ∈ readNames, name ∉ artifactNames := by
  decide +kernel

end Report

/-- Places of files that are written into one directory. -/
structure ReportPlaces (places : List (List String)) (directory : List String) : Prop where
  named : ∀ place ∈ places, ∃ name ∈ Report.artifactNames, place = directory ++ [name]

namespace ReportPlaces

variable {places : List (List String)} {directory : List String}

theorem apart (h : ReportPlaces places directory) : Disk.Apart places := by
  intro place hplace place' hplace' hprefix
  obtain ⟨name, -, rfl⟩ := h.named place hplace
  obtain ⟨name', -, rfl⟩ := h.named place' hplace'
  exact hprefix.eq_of_length (by rw [List.length_append, List.length_append]; rfl)

/-- What is read by its name lies elsewhere. -/
theorem not_mem (h : ReportPlaces places directory) {name : String}
    (hname : name ∈ Report.readNames) (above : List String) : above ++ [name] ∉ places := by
  intro hmem
  obtain ⟨written, hwritten, heq⟩ := h.named _ hmem
  obtain ⟨-, hsame⟩ := List.append_inj' heq rfl
  obtain rfl := List.singleton_inj.mp hsame
  exact Report.not_mem_artifactNames name hname hwritten

/-- So do the ignore file and the manifest of a project, even if reports go to the project's
directory. -/
theorem unread (h : ReportPlaces places directory) (above : List String) :
    ∀ name ∈ [Disk.ignoreFileName, "package.json"], above ++ [name] ∉ places := by
  have hread : ∀ name ∈ [Disk.ignoreFileName, "package.json"], name ∈ Report.readNames := by
    decide +kernel
  exact fun name hname => h.not_mem (hread name hname) above

/-- A file that is read by its name is the same, whatever reports have been written. -/
theorem file?_child (h : ReportPlaces places directory) {v v' : Volume}
    (hfilled : v.Filled places v') {name : String} (hname : name ∈ Report.readNames) (host : Host)
    (path : Path) :
    v'.tree.file? (host.locate (path.child name)) =
      v.tree.file? (host.locate (path.child name)) := by
  have hproper := Report.isFileName_of_mem name (List.mem_append_right _ hname)
  rw [host.locate_child path hproper]
  exact hfilled.file?_eq (h.not_mem hname _)

end ReportPlaces

/-! ## Requests -/

/-- What the fields of a request that is accepted were read from: those that say where the project
lies and its repository, and how many files are scanned at once. -/
theorem Request.fields_of_check {ms : List (String × Json)} {r : Request}
    (h : check (.obj ms) = .ok r) :
    Checked.field ["path"] (some none) (Checked.optional Checked.text) ms = .ok r.path ∧
      Checked.field ["repo_url"] (some none) (Checked.optional Checked.text) ms = .ok r.repository ∧
      Checked.field ["batch_size"] (some none) (Checked.optional Checked.positive) ms =
        .ok r.batchSize := by
  simp only [check, Checked.record, Checked.seq_eq_ok, Checked.map_eq_ok] at h
  obtain ⟨_, _,
      ⟨_, _, ⟨_, _, ⟨_, batchSize, ⟨_, _, ⟨_, _, ⟨_, _, ⟨_, repository, ⟨path, hpath, rfl⟩,
    hrepository, rfl⟩, -, rfl⟩, -, rfl⟩, -, rfl⟩, hbatchSize, rfl⟩, -, rfl⟩, -, rfl⟩, -, rfl⟩ := h
  exact ⟨hpath, hrepository, hbatchSize⟩

/-! ## Later runs -/

/-- The same host at another time, in a run of another name. -/
def Host.later (h : Host) (now runId : String) : Host := { h with now, runId }

theorem Config.readFirst_congr {host host' : Host} {disk disk' : Tree} {files : List Path}
    (h : ∀ file ∈ files, disk.file? (host.locate file) = disk'.file? (host'.locate file)) :
    readFirst host disk files = readFirst host' disk' files := by
  induction files with
  | nil => rfl
  | cons file files ih =>
      rw [List.forall_mem_cons] at h
      rw [readFirst, readFirst, h.1, ih h.2]

namespace Project

/-- What is needed to audit a project later, in a run of another name. -/
def Context.later (c : Context) (now runId : String) : Context :=
  { c with host := c.host.later now runId }

/-- The same plan for a later run. -/
def Plan.later (p : Plan) (now runId : String) : Plan :=
  { p with setup := p.setup.later now runId }

section

variable {c : Context} {r : Request} {path : String} {w w' : World} {now runId : String}

theorem auditOf_later (s : AuditSetup) (kind : Option ProjectKind) (category : Category) :
    auditOf (c.later now runId) r (s.later now runId) kind w category =
      auditOf c r s kind w category := by
  cases category <;> rfl

theorem settings_later (directory : Path) :
    settings (c.later now runId).host r directory w = settings c.host r directory w := by
  have hread : Config.readFirst (c.later now runId).host w.volume.tree
      (Config.searchPaths (c.later now runId).host directory) =
      Config.readFirst c.host w.volume.tree (Config.searchPaths c.host directory) :=
    Config.readFirst_congr fun _ _ => rfl
  rw [settings, settings, Config.load, Config.load, hread]
  rfl

theorem category_of_auditOf {s : AuditSetup} {kind : Option ProjectKind} {category : Category}
    {a : Audit} (h : auditOf c r s kind w category = .ok a) : a.category = category.name := by
  have hlint : ∀ linter : Linter, auditOf.lintAudit c r s kind w linter = .ok a →
      a.category = linter.name := by
    intro linter hlinter
    unfold auditOf.lintAudit at hlinter
    split at hlinter
    · cases hlinter
    · obtain rfl := Except.ok.inj hlinter
      rfl
  cases category with
  | eslint => exact hlint .eslint h
  | stylelint => exact hlint .stylelint h
  | _ =>
      obtain rfl := Except.ok.inj h
      rfl

/-- The audit of a category finds the same where it sees the same. -/
theorem agrees_of_auditOf {R : World → World → Prop} {s : AuditSetup} {kind : Option ProjectKind}
    {category : Category} {a : Audit} (h : s.Sight category R)
    (ha : auditOf c r s kind w category = .ok a) :
    a.Agrees R := by
  have hlint : ∀ linter : Linter, s.Sight linter.category R →
      auditOf.lintAudit c r s kind w linter = .ok a → a.Agrees R := by
    intro linter hsight hlinter
    unfold auditOf.lintAudit at hlinter
    split at hlinter
    · cases hlinter
    · obtain rfl := Except.ok.inj hlinter
      exact Audit.lint_agrees hsight
  cases category with
  | accessibility =>
      obtain rfl := Except.ok.inj ha
      exact Audit.accessibility_agrees h r.urls
  | eslint => exact hlint .eslint h ha
  | stylelint => exact hlint .stylelint h ha
  | security =>
      obtain rfl := Except.ok.inj ha
      exact Audit.security_agrees h r.repository c.service
  | performance =>
      obtain rfl := Except.ok.inj ha
      exact Audit.performance_agrees h

/-- The settings in force are those that are loaded, with the batch size of the request. -/
theorem settings_eq_ok {directory : Path} {config : Config}
    (h : settings c.host r directory w = .ok config) :
    ∃ loaded, Config.load c.host w.volume.tree directory = .ok loaded ∧
      config = { loaded with batchSize := r.batchSize.getD loaded.batchSize } := by
  unfold settings at h
  split at h
  · cases h
  · cases h
  · next loaded hload => exact ⟨loaded, hload, (Except.ok.inj h).symm⟩

/-- A plan is what everything that is settled before the first audit comes to. -/
theorem plan_eq_ok {p : Plan} : plan c r path w = .ok p ↔ ∃ directory kind config audits,
    Project.directory c.host path w = .ok directory ∧ r.kind = .ok kind ∧
      settings c.host r directory w = .ok config ∧
      r.distinctCategories.mapM (auditOf c r
        { host := c.host, project := directory, config, reportDir := r.reportPath } kind w) =
          .ok audits ∧
      p = ⟨kind, { host := c.host, project := directory, config, reportDir := r.reportPath },
        audits⟩ := by
  simp only [plan, bind_eq_ok, pure, Except.pure, Except.ok.injEq]
  constructor
  · rintro ⟨directory, hdirectory, kind, hkind, config, hconfig, audits, haudits, rfl⟩
    exact ⟨directory, kind, config, audits, hdirectory, hkind, hconfig, haudits, rfl⟩
  · rintro ⟨directory, kind, config, audits, hdirectory, hkind, hconfig, haudits, rfl⟩
    exact ⟨directory, hdirectory, kind, hkind, config, hconfig, audits, haudits, rfl⟩

theorem host_of_plan {p : Plan} (h : plan c r path w = .ok p) : p.setup.host = c.host := by
  obtain ⟨_, _, _, _, -, -, -, -, rfl⟩ := plan_eq_ok.mp h
  rfl

theorem reportDir_of_plan {p : Plan} (h : plan c r path w = .ok p) :
    p.setup.reportDir = r.reportPath := by
  obtain ⟨_, _, _, _, -, -, -, -, rfl⟩ := plan_eq_ok.mp h
  rfl

/-- A run that is planned later, with the same files, has the same plan or fails in the same way. -/
theorem plan_later :
    plan (c.later now runId) r path w = (plan c r path w).map (·.later now runId) := by
  unfold plan
  rw [show Project.directory (c.later now runId).host path w =
    Project.directory c.host path w from rfl]
  cases Project.directory c.host path w with
  | error e => rfl
  | ok directory =>
      cases r.kind with
      | error e => rfl
      | ok kind =>
          simp only [bind, Except.bind, settings_later]
          cases settings c.host r directory w with
          | error e => rfl
          | ok config =>
              let setup : AuditSetup :=
                { host := c.host, project := directory, config, reportDir := r.reportPath }
              have haudits : r.distinctCategories.mapM
                  (auditOf (c.later now runId) r (setup.later now runId) kind w) =
                r.distinctCategories.mapM (auditOf c r setup kind w) :=
                mapM_congr fun category _ => auditOf_later setup kind category
              dsimp only
              rw [show r.distinctCategories.mapM (auditOf (c.later now runId) r
                { host := (c.later now runId).host, project := directory, config
                  reportDir := r.reportPath } kind w) = _ from haudits]
              cases r.distinctCategories.mapM (auditOf c r setup kind w) <;> rfl

theorem directory_eq_ok {host : Host} {directory : Path}
    (h : Project.directory host path w = .ok directory) :
    directory = (Path.ofString path).resolve host.cwd ∧
      ∃ entries, w.volume.tree.at? directory.parts = some (.dir entries) := by
  unfold Project.directory at h
  dsimp only at h
  rw [host.locate_resolve] at h
  split at h
  · cases h
  · cases h
  · next entries hat =>
      obtain rfl := Except.ok.inj h
      exact ⟨rfl, entries, hat⟩

/-- The rules of a linter are looked for under names that runs read. -/
theorem candidates_child (linter : Linter) (project rules : Path) (kind : Option ProjectKind)
    (recommended : Bool) : ∀ file ∈ linter.candidates project rules kind recommended,
      ∃ directory : Path, ∃ name ∈ Report.readNames, file = directory.child name := by
  have hbundled : linter.bundledName ∈ Report.readNames := by cases linter <;> decide +kernel
  have hown : ∀ name ∈ linter.projectNames, name ∈ Report.readNames := by
    cases linter <;> decide +kernel
  have hkind : ∀ kind, Linter.kindName kind ∈ Report.readNames := by
    intro kind
    cases kind <;> decide +kernel
  intro file hfile
  unfold Linter.candidates at hfile
  simp only [List.mem_append, List.mem_map, List.mem_singleton] at hfile
  rcases hfile with ((hfile | hfile) | ⟨name, hname, rfl⟩) | rfl
  · cases linter with
    | stylelint => cases hfile
    | eslint =>
        cases kind with
        | none => cases hfile
        | some kind => exact ⟨rules, _, hkind kind, List.mem_singleton.mp hfile⟩
  · split at hfile
    · exact ⟨rules, _, hbundled, List.mem_singleton.mp hfile⟩
    · cases hfile
  · exact ⟨project, name, hown name hname, rfl⟩
  · exact ⟨rules, _, hbundled, rfl⟩

section

variable {places : List (List String)} {reports : List String}

/-- Reports make no difference to the settings. -/
theorem settings_of_filled (hplaces : ReportPlaces places reports)
    (hfilled : w.volume.Filled places w'.volume) (host : Host) (directory : Path) :
    settings host r directory w' = settings host r directory w := by
  have hread : Config.readFirst host w'.volume.tree (Config.searchPaths host directory) =
      Config.readFirst host w.volume.tree (Config.searchPaths host directory) := by
    refine Config.readFirst_congr fun file hfile => ?_
    obtain ⟨above, rfl⟩ : ∃ above : Path, file = above.child Config.fileName := by
      rw [Config.searchPaths, List.mem_eraseDups, List.mem_cons, List.mem_singleton] at hfile
      rcases hfile with rfl | rfl
      · exact ⟨_, rfl⟩
      · exact ⟨_, rfl⟩
    exact hplaces.file?_child hfilled (by decide +kernel) host above
  rw [settings, settings, Config.load, Config.load, hread]

/-- Reports make no difference to the rules that a linter is run with. -/
theorem auditOf_of_filled (hplaces : ReportPlaces places reports)
    (hfilled : w.volume.Filled places w'.volume) (s : AuditSetup) (kind : Option ProjectKind)
    (category : Category) : auditOf c r s kind w' category = auditOf c r s kind w category := by
  have hlint : ∀ linter : Linter,
      auditOf.lintAudit c r s kind w' linter = auditOf.lintAudit c r s kind w linter := by
    intro linter
    have hsettings : linter.settings c.host w'.volume.tree s.project kind r.recommendedRules =
        linter.settings c.host w.volume.tree s.project kind r.recommendedRules := by
      unfold Linter.settings
      rw [List.find?_congr fun file hfile => ?_]
      obtain ⟨above, name, hname, rfl⟩ := candidates_child _ _ _ _ _ file hfile
      rw [Tree.isFile, Tree.isFile, hplaces.file?_child hfilled hname]
    unfold auditOf.lintAudit
    rw [hsettings]
  cases category with
  | eslint => exact hlint .eslint
  | stylelint => exact hlint .stylelint
  | _ => rfl

/-- Reports make no difference to the plan of a run that could be planned. -/
theorem plan_of_filled (hplaces : ReportPlaces places reports)
    (hfilled : w.volume.Filled places w'.volume) {p : Plan} (h : plan c r path w = .ok p) :
    plan c r path w' = .ok p := by
  obtain ⟨directory, kind, config, audits, hdirectory, hkind, hconfig, haudits, rfl⟩ :=
    plan_eq_ok.mp h
  refine plan_eq_ok.mpr ⟨directory, kind, config, audits, ?_, hkind, ?_, ?_, rfl⟩
  · -- the directory of the project is still one
    obtain ⟨rfl, entries, hat⟩ := directory_eq_ok hdirectory
    obtain ⟨entries', hat', -⟩ := hfilled.directory hat
    unfold Project.directory
    dsimp only
    rw [c.host.locate_resolve, hat']
  · rw [← hconfig]
    exact settings_of_filled hplaces hfilled c.host directory
  · rw [← haudits]
    exact mapM_congr fun category _ => auditOf_of_filled hplaces hfilled _ kind category

end

end

end Project

end FrontendAudit
