import FrontendAudit.Proofs.Audit.Beside
import FrontendAudit.Proofs.Json.RoundTrip
import FrontendAudit.Proofs.Text.Utf8
import FrontendAudit.Proofs.Validation

/-!
# Manifests and the audit of performance

At its end an audit of performance looks through the manifest of the project. `Manifest.Declares`
says for every content what comes of that. A manifest that is absent, is no JSON or is no object
declares nothing; one whose bytes are no text, or with a section that is neither empty nor an
object, fails. So the audit is done exactly when the manifest does not fail, and then it keeps what
it found in the files (`performance_ends`); in the other cases all of that is lost
(`undecodable_manifest_ends_audit`). Manifests are read as in `Json.parse?`, without limits on depth
and digits.
-/

namespace FrontendAudit

open Disk (FileData)

namespace Manifest

/-- The names that a section of a manifest declares: none if it is absent or says nothing, and
otherwise the keys of an object. -/
inductive Section (ms : List (String × Json)) (key : String) : List String → Prop
  | vacant (h : ((Json.lookup? key ms).getD .null).isVacant = true) : Section ms key []
  | object {entries : List (String × Json)} (h : Json.lookup? key ms = some (.obj entries)) :
      Section ms key (entries.map (·.1))

/-- What a manifest declares, if there is one: the packages of its two sections, or a failure. -/
inductive Declares : Option FileData → Except Failure (List String) → Prop
  | absent : Declares none (.ok [])
  | notJson {data : FileData} {text : List Char} (htext : data.readStrict? = some text)
      (hparse : Json.parse? text = none) : Declares (some data) (.ok [])
  | notObject {data : FileData} {text : List Char} {v : Json} (htext : data.readStrict? = some text)
      (hparse : Json.parse? text = some v) (hother : ∀ ms, v ≠ .obj ms) :
      Declares (some data) (.ok [])
  | sections {data : FileData} {text : List Char} {ms : List (String × Json)}
      {names names' : List String} (htext : data.readStrict? = some text)
      (hparse : Json.parse? text = some (.obj ms)) (hnames : Section ms "dependencies" names)
      (hnames' : Section ms "devDependencies" names') :
      Declares (some data) (.ok (names ++ names'))
  | notSection {data : FileData} {text : List Char} {ms : List (String × Json)} {key : String}
      (htext : data.readStrict? = some text) (hparse : Json.parse? text = some (.obj ms))
      (hkey : key ∈ ["dependencies", "devDependencies"]) (hnot : ∀ names, ¬ Section ms key names) :
      Declares (some data) (.error (.misfit .noEntries))
  | undecodable {data : FileData} (hbytes : ∀ cs, ¬ data.Encodes cs) :
      Declares (some data) (.error .undecodable)

/-! ## Sections -/

section

variable {ms : List (String × Json)} {key : String} {names names' : List String}

theorem entries_of_vacant {v : Json} (h : v.isVacant = true) : v.entries = .ok [] := by
  cases v with
  | obj entries => rw [Json.entries, List.isEmpty_iff.mp h]
  | _ =>
      rw [Json.entries, if_pos h]
      exact nofun

theorem noEntries_of_entries {v : Json} {m : Misfit} (h : v.entries = .error m) :
    m = .noEntries := by
  unfold Json.entries at h
  split at h
  · cases h
  · split at h
    · cases h
    · exact (Except.error.inj h).symm

theorem Section.names_entries (h : Section ms key names) :
    ((Json.lookup? key ms).getD .null).entries.map (List.map (·.1)) = .ok names := by
  cases h with
  | vacant hvacant =>
      rw [entries_of_vacant hvacant]
      rfl
  | object hobject =>
      rw [hobject]
      rfl

theorem entries_of_not_section (h : ∀ names, ¬ Section ms key names) :
    ((Json.lookup? key ms).getD .null).entries = .error .noEntries := by
  have hvacant : ((Json.lookup? key ms).getD .null).isVacant = false :=
    Bool.eq_false_iff.mpr fun hvacant => h [] (.vacant hvacant)
  cases hlookup : Json.lookup? key ms with
  | none =>
      rw [hlookup] at hvacant
      cases hvacant
  | some v =>
      rw [hlookup, Option.getD_some] at hvacant
      rw [Option.getD_some]
      cases v with
      | obj entries => exact absurd (.object hlookup) (h _)
      | _ =>
          rw [Json.entries, if_neg (by rw [hvacant]; exact Bool.false_ne_true)]
          exact nofun

theorem declaredPackages_obj (ms : List (String × Json)) :
    declaredPackages (.obj ms) = do
      let dependencies ← ((Json.lookup? "dependencies" ms).getD .null).entries
      let development ← ((Json.lookup? "devDependencies" ms).getD .null).entries
      return (dependencies ++ development).map (·.1) :=
  rfl

theorem declaredPackages_of_sections (h : Section ms "dependencies" names)
    (h' : Section ms "devDependencies" names') :
    declaredPackages (.obj ms) = .ok (names ++ names') := by
  have hnames := h.names_entries
  have hnames' := h'.names_entries
  rw [declaredPackages_obj]
  cases hfirst : ((Json.lookup? "dependencies" ms).getD .null).entries with
  | error m =>
      rw [hfirst] at hnames
      cases hnames
  | ok dependencies =>
      cases hsecond : ((Json.lookup? "devDependencies" ms).getD .null).entries with
      | error m =>
          rw [hsecond] at hnames'
          cases hnames'
      | ok development =>
          rw [hfirst] at hnames
          rw [hsecond] at hnames'
          rw [← Except.ok.inj hnames, ← Except.ok.inj hnames', ← List.map_append]
          rfl

theorem declaredPackages_of_not_section (hkey : key ∈ ["dependencies", "devDependencies"])
    (h : ∀ names, ¬ Section ms key names) : declaredPackages (.obj ms) = .error .noEntries := by
  have herror := entries_of_not_section h
  rw [declaredPackages_obj]
  rcases List.mem_cons.mp hkey with rfl | hkey
  · rw [herror]
    rfl
  · obtain rfl := List.mem_singleton.mp hkey
    cases hfirst : ((Json.lookup? "dependencies" ms).getD .null).entries with
    | error m =>
        rw [noEntries_of_entries hfirst]
        rfl
    | ok dependencies =>
        rw [herror]
        rfl

end

/-! ## What a manifest comes to -/

/-- Every content comes to something. -/
theorem exists_declares (data? : Option FileData) : ∃ r, Declares data? r := by
  cases data? with
  | none => exact ⟨_, .absent⟩
  | some data =>
      cases htext : data.readStrict? with
      | none => exact ⟨_, .undecodable (FileData.readStrict?_eq_none_iff.mp htext)⟩
      | some text =>
          cases hparse : Json.parse? text with
          | none => exact ⟨_, .notJson htext hparse⟩
          | some v =>
              cases v with
              | obj ms =>
                  by_cases hfirst : ∃ names, Section ms "dependencies" names
                  · by_cases hsecond : ∃ names, Section ms "devDependencies" names
                    · exact ⟨_, .sections htext hparse hfirst.choose_spec hsecond.choose_spec⟩
                    · exact ⟨_, .notSection htext hparse (by simp) (not_exists.mp hsecond)⟩
                  · exact ⟨_, .notSection htext hparse (by simp) (not_exists.mp hfirst)⟩
              | _ => exact ⟨_, .notObject htext hparse fun ms h => by cases h⟩

theorem accepted_heavyDependencies (declared : List String) :
    AuditSetup.accepted (Performance.heavyDependencies declared) =
      pure (Performance.heavyDependencies declared) := by
  have haccepted :
      ∀ package ∈ Performance.heavyPackages, ∀ f ∈ Performance.heavyDependencies [package],
      f.accept = .ok f := by decide +kernel
  have hall : Finding.acceptAll (Performance.heavyDependencies declared) =
      .ok (Performance.heavyDependencies declared) := by
    refine Checked.inTurn_eq_ok fun f hf => ?_
    obtain ⟨package, hpackage, rfl⟩ := List.mem_map.mp hf
    have hheavy := List.mem_of_mem_filter hpackage
    refine haccepted package hheavy _
      (List.mem_map.mpr ⟨package, List.mem_filter.mpr ⟨hheavy, ?_⟩, rfl⟩)
    exact List.contains_iff_mem.mpr (List.mem_singleton_self package)
  rw [AuditSetup.accepted, hall]
  rfl

end Manifest

namespace Audit

variable {s : AuditSetup} {pace : Pace} {w : World}

/-- What is found at the end is what the manifest comes to. -/
theorem manifestFindings_of_declares {r : Except Failure (List String)}
    (h :
      Manifest.Declares (w.volume.tree.file? (s.host.locate (s.project.child "package.json"))) r) :
    (manifestFindings s w).1 = r.map Performance.heavyDependencies := by
  have hget : (MonadState.get : Run World) w = (.ok w, w) := rfl
  rw [manifestFindings, Run.bind_ok hget]
  generalize w.volume.tree.file? (s.host.locate (s.project.child "package.json")) = data? at h ⊢
  cases h with
  | absent => rfl
  | notJson htext hparse =>
      simp only [htext, hparse]
      rfl
  | @notObject data text v htext hparse hother =>
      simp only [htext, hparse]
      cases v with
      | obj ms => exact absurd rfl (hother ms)
      | _ => rfl
  | sections htext hparse hnames hnames' =>
      simp only [htext, hparse, Manifest.heavyDependencies,
        Manifest.declaredPackages_of_sections hnames hnames']
      show (AuditSetup.accepted (Performance.heavyDependencies _) w).1 = _
      rw [Manifest.accepted_heavyDependencies]
      rfl
  | notSection htext hparse hkey hnot =>
      simp only [htext, hparse, Manifest.heavyDependencies,
        Manifest.declaredPackages_of_not_section hkey hnot]
      rfl
  | undecodable hbytes =>
      simp only [FileData.readStrict?_eq_none_iff.mpr hbytes]
      rfl

theorem performanceScan_leavesWorld (s : AuditSetup) (file : Path) :
    Run.LeavesWorld (performanceScan s file) :=
  (data_leavesWorld s file).bind fun _ => (Run.LeavesWorld.ofExcept _ _).bind fun _ => .pure _

/-- No stream and no report is written in the place of a manifest. -/
theorem manifest_keptByWrites (s : AuditSetup) (category : Category) (data? : Option FileData) :
    s.KeptByWrites category
      (·.tree.file? (s.host.locate (s.project.child "package.json")) = data?) := by
  intro path hpath v d hkept
  obtain ⟨directory, name, hname, hother, rfl⟩ :
      ∃ (directory : Path) (name : String), IsFileName name ∧ name ≠ "package.json" ∧
        path = directory.child name := by
    rcases hpath with hstream | hreport
    · obtain ⟨directory, -, rfl⟩ := Option.map_eq_some_iff.mp hstream
      exact ⟨directory, _, IssueLog.isFileName_stream category, by cases category <;> decide, rfl⟩
    · obtain ⟨directory, -, rfl⟩ := Option.map_eq_some_iff.mp hreport
      exact ⟨directory, _, Report.isFileName_nameOf category, by cases category <;> decide, rfl⟩
  have hmanifest : IsFileName "package.json" := by decide +kernel
  cases hwrite : v.write? (s.host.locate (directory.child name)) d with
  | none => exact hkept
  | some v' =>
      rw [Option.getD_some, Disk.Volume.file?_write?_of_ne hwrite, hkept]
      rw [s.host.locate_child _ hmanifest, s.host.locate_child _ hname]
      intro hplace
      obtain ⟨-, hlast⟩ := List.append_inj' hplace rfl
      exact hother (List.singleton_inj.mp hlast).symm

/-- The manifest that is looked through is the one that was there from the start. -/
theorem Passage.manifest_after (p : (performance s).Passage s pace w) :
    p.after.volume.tree.file? (s.host.locate (s.project.child "package.json")) =
      w.volume.tree.file? (s.host.locate (s.project.child "package.json")) := by
  rw [p.after_eq (files_leavesWorld s _) (performanceScan_leavesWorld s)]
  exact openLog_keeps (manifest_keptByWrites s .performance _) rfl

/-- However an audit of performance is paced, and whatever the manifest holds: it is done exactly
when the manifest comes to declared packages, and then its issues are the findings of the scanned
files and those of the heavy packages, the first of them up to the limit and each once. Otherwise it
fails as the manifest does and has come no further than to closing its log. -/
theorem performance_ends (p : (performance s).Passage s pace w) (hsize : 1 ≤ s.config.batchSize) :
    (∃ r,
      Manifest.Declares (w.volume.tree.file? (s.host.locate (s.project.child "package.json"))) r) ∧
    ∀ r,
      Manifest.Declares (w.volume.tree.file? (s.host.locate (s.project.child "package.json"))) r →
      (((performance s).runPaced s pace {} w).state.phase = .done ↔ ∃ declared, r = .ok declared) ∧
      ((performance s).runPaced s pace {} w).issues = r.map (fun declared =>
        dedupe ((p.scanned.flatMap (·.findings) ++ Performance.heavyDependencies declared).take
          s.config.maxIssues)) ∧
      ∀ e, r = .error e → ((performance s).runPaced s pace {} w).state.phase = .closing ∧
        ((performance s).runPaced s pace {} w).result = .error e := by
  refine ⟨Manifest.exists_declares _, fun r hr => ?_⟩
  obtain ⟨notes, hissues⟩ := p.issues hsize
  rw [← p.manifest_after] at hr
  have hend := manifestFindings_of_declares (w := p.after.note notes) hr
  rw [show ((performance s).finalize _ (p.after.note notes)).1 = _ from hend] at hissues
  cases r with
  | ok declared =>
      have hdone := p.done_of_issues hissues
      exact ⟨⟨fun _ => ⟨declared, rfl⟩, fun _ => hdone⟩, hissues, fun e he => by cases he⟩
  | error e =>
      obtain ⟨hphase, hresult⟩ := p.closing_of_issues hissues
      refine ⟨⟨fun hdone => ?_, ?_⟩, hissues, ?_⟩
      · rw [hphase] at hdone
        cases hdone
      · rintro ⟨declared, hdeclared⟩
        cases hdeclared
      · rintro _ ⟨⟩
        exact ⟨hphase, hresult⟩

/-! ## One script and a manifest -/

/-- A project with a script that sets an interval, and perhaps a manifest. -/
def packaged (manifest? : Option FileData) : World where
  volume :=
    { tree := .dir [("project", .dir
        (("poll.js", .file (.text "setInterval(poll, 9)\n")) ::
          (manifest?.map fun data => ("package.json", .file data)).toList))] }

/-- The scripts of the project are audited, and nothing is written. -/
def unreportedSetup : AuditSetup :=
  { threeFileSetup 1 false with
    config := { Config.default with scripts := ["*.js"], assets := [] }, reportDir := none }

def runPackaged (manifest? : Option FileData) : AuditOutcome :=
  (performance unreportedSetup).run unreportedSetup {} (packaged manifest?)

/-- A manifest with a heavy package for development, and no others. -/
def heavyManifest : Json :=
  .obj [("dependencies", .null), ("devDependencies", .obj [("moment", .str "2")])]

/-- A manifest whose dependencies are a list. -/
def listedManifest : Json := .obj [("dependencies", .arr [.str "moment"])]

theorem file?_packaged (manifest? : Option FileData) :
    (packaged manifest?).volume.tree.file?
      (unreportedSetup.host.locate (unreportedSetup.project.child "package.json")) = manifest? := by
  have hmanifest : IsFileName "package.json" := by decide +kernel
  rw [unreportedSetup.host.locate_child _ hmanifest]
  cases manifest? <;> rfl

theorem exists_passage_packaged (manifest? : Option FileData)
    (h : ((performance unreportedSetup).enumerate (packaged manifest?)).1.isOk = true) :
    Nonempty ((performance unreportedSetup).Passage unreportedSetup
      (.together unreportedSetup.config.batchSize) (packaged manifest?)) := by
  rcases henumerates :
    (performance unreportedSetup).enumerate (packaged manifest?) with ⟨e | files, found⟩
  · rw [henumerates] at h
    cases h
  · obtain ⟨p, -⟩ := exists_passage_together (s := unreportedSetup) (by decide) henumerates rfl
    exact ⟨p⟩

/-- Three manifests: one that declares, one with a section that is no object, and one that is no
text. -/
theorem performance_ends_threeManifests :
    ((runPackaged (some (.text heavyManifest.pretty))).state.phase = .done ∧
      ∃ found, (runPackaged (some (.text heavyManifest.pretty))).issues =
        .ok (dedupe ((found ++ Performance.heavyDependencies ["moment"]).take 50000))) ∧
    ((runPackaged (some (.text listedManifest.pretty))).state.phase = .closing ∧
      (runPackaged (some (.text listedManifest.pretty))).result = .error (.misfit .noEntries)) ∧
    (runPackaged (some (.bytes [0xff]))).state.phase = .closing ∧
      (runPackaged (some (.bytes [0xff]))).result = .error .undecodable := by
  have hsize : 1 ≤ unreportedSetup.config.batchSize := by decide
  simp only [runPackaged, Audit.run]
  refine ⟨?_, ?_, ?_⟩
  · obtain ⟨p⟩ := exists_passage_packaged (some (.text heavyManifest.pretty)) (by decide +kernel)
    have htext :
        (FileData.text heavyManifest.pretty).readStrict? = some heavyManifest.pretty.toList := by
      decide +kernel
    have hparse : Json.parse? heavyManifest.pretty.toList = some heavyManifest :=
      Json.parse?_pretty ⟨by decide, trivial, ⟨by decide, trivial, trivial⟩, trivial⟩
    have hmoment :
        Manifest.Section [("dependencies", .null), ("devDependencies", .obj [("moment", .str "2")])]
        "devDependencies" ([("moment", Json.str "2")].map (·.1)) := .object rfl
    have hdeclares :
        Manifest.Declares (some (.text heavyManifest.pretty)) (.ok ([] ++ ["moment"])) :=
      .sections htext hparse (.vacant rfl) hmoment
    rw [← file?_packaged (some (.text heavyManifest.pretty))] at hdeclares
    obtain ⟨hphase, hissues, -⟩ := (performance_ends p hsize).2 _ hdeclares
    exact ⟨hphase.mpr ⟨_, rfl⟩, _, hissues⟩
  · obtain ⟨p⟩ := exists_passage_packaged (some (.text listedManifest.pretty)) (by decide +kernel)
    have htext :
        (FileData.text listedManifest.pretty).readStrict? = some listedManifest.pretty.toList := by
      decide +kernel
    have hparse : Json.parse? listedManifest.pretty.toList = some listedManifest :=
      Json.parse?_pretty ⟨by decide, ⟨trivial, trivial⟩, trivial⟩
    have hnot :
        ∀ names,
          ¬ Manifest.Section [("dependencies", .arr [.str "moment"])] "dependencies" names := by
      rintro names (hvacant | hobject)
      · cases hvacant
      · cases hobject
    have hdeclares :
        Manifest.Declares (some (.text listedManifest.pretty)) (.error (.misfit .noEntries)) :=
      .notSection htext hparse List.mem_cons_self hnot
    rw [← file?_packaged (some (.text listedManifest.pretty))] at hdeclares
    exact ((performance_ends p hsize).2 _ hdeclares).2.2 _ rfl
  · obtain ⟨p⟩ := exists_passage_packaged (some (.bytes [0xff])) (by decide +kernel)
    have hbytes : (FileData.bytes [0xff]).readStrict? = none := by decide +kernel
    have hdeclares : Manifest.Declares (some (.bytes [0xff])) (.error .undecodable) :=
      .undecodable (FileData.readStrict?_eq_none_iff.mp hbytes)
    rw [← file?_packaged (some (.bytes [0xff]))] at hdeclares
    exact ((performance_ends p hsize).2 _ hdeclares).2.2 _ rfl

/-- A manifest that is no text, or has a list of packages, costs an audit what it found in the
script, while it has that without any manifest. -/
theorem undecodable_manifest_ends_audit :
    (runPackaged (some (.bytes [0xff]))).result.isOk = false ∧
      (runPackaged (some (.text listedManifest.pretty))).result.isOk = false ∧
      (runPackaged none).state.phase = .done ∧
      ((runPackaged none).issues.toOption.map fun issues => issues.map (·.kind)) =
        some ["memory_leak"] := by
  decide +kernel

end Audit

end FrontendAudit
