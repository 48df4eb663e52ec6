import FrontendAudit.Proofs.Audit.Answers

/-!
# Audits in two worlds

An audit of a category that finds and reads the same in two volumes (`AuditSetup.SameFiles`), writes
its stream to both or to neither (`AuditSetup.SameWrites`) and has the same answers from outside
comes to the same result, or fails in the same way, and takes no answer from another category
(`Audit.run_beside`).

An audit whose reports go to a place outside the project leaves the project as it is, and what the
outside will answer to every other category (`Audit.run_leaves`). So its result does not depend on
what becomes of its stream and its report, as long as it comes to one (`Audit.found_beside`).
-/

namespace FrontendAudit

open Disk (Volume Tree)
open Run (Agrees)

/-! ## Files -/

namespace AuditSetup

/-- The directory of the project has these entries. -/
def Holds (s : AuditSetup) (entries : List (String × Tree)) (v : Volume) : Prop :=
  v.tree.at? s.project.parts = some (.dir entries)

/-- In volumes that are alike a category finds the same files and reads the same in them. -/
structure SameFiles (s : AuditSetup) (category : Category) (V : Volume → Volume → Prop) : Prop where
  resolved : ∃ p : Path, s.project = p.resolve s.host.cwd
  found : ∀ v v', V v v' → ∃ entries entries', s.Holds entries v ∧ s.Holds entries' v' ∧
    category.files s.config (.dir entries) = category.files s.config (.dir entries')
  named : ∀ v v', V v v' → ∀ entries, s.Holds entries v →
    ∀ names ∈ (Tree.dir entries).paths, ∀ name ∈ names, IsFileName name
  read : ∀ u u', V u u' → ∀ entries, s.Holds entries u → ∀ names, names ≠ [] →
    category.LooksAt s.config (.dir entries) names → ∀ v v', V v v' →
      v.tree.file? (s.project.parts ++ names) = v'.tree.file? (s.project.parts ++ names)
  manifest : ∀ v v', V v v' → category = .performance →
    v.tree.file? (s.project.parts ++ ["package.json"]) =
      v'.tree.file? (s.project.parts ++ ["package.json"])

variable {s : AuditSetup} {entries : List (String × Tree)} {category : Category}

theorem projectTree_of_holds {w : World} (hresolved : ∃ p : Path, s.project = p.resolve s.host.cwd)
    (hholds : s.Holds entries w.volume) : s.projectTree w = .dir entries := by
  obtain ⟨p, hp⟩ := hresolved
  rw [Holds, hp, ← s.host.locate_resolve p, ← hp] at hholds
  rw [projectTree, hholds]
  rfl

/-- Where an audit finds and reads the same and has the same answers, it sees the same. -/
theorem SameFiles.sight {V : Volume → Volume → Prop} (h : s.SameFiles category V)
    (before before' : World) : s.Sight category (World.Beside V before before' category) := by
  have hfound : ∀ w w', World.Beside V before before' category w w' → ∀ files w₁,
      s.files category w = (.ok files, w₁) → ∀ file ∈ files, ∃ names,
        World.ReadsAlike (World.Beside V before before' category) (s.project.parts ++ names) ∧
          s.host.locate file = s.project.parts ++ names ∧
          file.parts = s.project.parts ++ names := by
    intro w w' hw files w₁ hfiles file hfile
    obtain ⟨entries, -, hholds, -, -⟩ := h.found _ _ hw.volumes
    obtain ⟨names, hne, hlooks, hlocate, hparts⟩ := exists_of_found h.resolved
      (h.named _ _ hw.volumes _ hholds)
        (by rw [projectTree_of_holds h.resolved hholds]) hfiles file hfile
    exact ⟨names, fun v v' hv => h.read _ _ hw.volumes _ hholds names hne hlooks _ _ hv.volumes,
      hlocate, hparts⟩
  exact {
    notes := World.Beside.keptByNotes
    files := by
      refine Agrees.get (fun w w' hw => ?_) fun w => (Agrees.ofExcept _ _).bind fun _ => .pure _
      obtain ⟨entries, entries', hholds, hholds', hsame⟩ := h.found _ _ hw.volumes
      rw [projectTree_of_holds h.resolved hholds, projectTree_of_holds h.resolved hholds', hsame]
    located := by
      intro w w' hw files w₁ hfiles file hfile
      obtain ⟨names, hread, hlocate, -⟩ := hfound w w' hw files w₁ hfiles file hfile
      rw [hlocate]
      exact hread
    placed := by
      intro w w' hw files w₁ hfiles file hfile
      obtain ⟨names, hread, -, hparts⟩ := hfound w w' hw files w₁ hfiles file hfile
      rw [hparts]
      exact hread
    manifest := by
      intro hcategory w w' hw
      obtain ⟨p, hp⟩ := h.resolved
      have hproject : s.host.locate s.project = s.project.parts := by
        rw [hp]
        exact s.host.locate_resolve p
      rw [s.host.locate_child _ (by decide), hproject]
      exact h.manifest _ _ hw.volumes hcategory
    fetch := by
      rintro rfl
      exact World.Beside.fetch
    runTool := fun linter hlinter => World.Beside.runTool hlinter
    post := by
      rintro rfl
      exact World.Beside.post }

/-- In volumes that are the same an audit with the same answers sees the same. -/
theorem sight_of_eq {V : Volume → Volume → Prop} (hV : ∀ v v', V v v' → v = v')
    (before before' : World) :
    s.Sight category (World.Beside V before before' category) := by
  have hread : ∀ path, World.ReadsAlike (World.Beside V before before' category) path := by
    intro path w w' hw
    rw [hV _ _ hw.volumes]
  exact {
    notes := World.Beside.keptByNotes
    files := by
      refine Agrees.get (fun w w' hw => ?_) fun w => (Agrees.ofExcept _ _).bind fun _ => .pure _
      rw [projectTree, projectTree, hV _ _ hw.volumes]
    located := fun _ _ _ _ _ _ _ _ => hread _
    placed := fun _ _ _ _ _ _ _ _ => hread _
    manifest := fun _ => hread _
    fetch := by
      rintro rfl
      exact World.Beside.fetch
    runTool := fun linter hlinter => World.Beside.runTool hlinter
    post := by
      rintro rfl
      exact World.Beside.post }

/-! ## Streams and reports -/

/-- The report of a category, if there is to be one. -/
def reportFile? (s : AuditSetup) (category : String) : Option Path :=
  s.reportDir.map (Report.categoryPath · category)

/-- Volumes stay alike when a stream is made, in both or in neither, and when lines are put behind
it; they are alike in a weaker sense once a report was to be written. -/
structure SameWrites (s : AuditSetup) (category : Category)
    (V V' : Volume → Volume → Prop) : Prop where
  weaker : ∀ v v', V v v' → V' v v'
  stream : ∀ path, s.streamFile? category.name = some path → ∀ v v', V v v' → ∀ d,
    (v.write? (s.host.locate path) d).isSome = (v'.write? (s.host.locate path) d).isSome ∧
      V ((v.write? (s.host.locate path) d).getD v) ((v'.write? (s.host.locate path) d).getD v')
  appended : ∀ path, s.streamFile? category.name = some path → ∀ v v', V v v' → ∀ more,
    V ((v.append? (s.host.locate path) more).getD v)
      ((v'.append? (s.host.locate path) more).getD v')
  report : ∀ path, s.reportFile? category.name = some path → ∀ v v', V v v' → ∀ d d',
    V' ((v.write? (s.host.locate path) d).getD v) ((v'.write? (s.host.locate path) d').getD v')

/-- What is kept when a stream or a report is written. -/
def KeptByWrites (s : AuditSetup) (category : Category) (P : Volume → Prop) : Prop :=
  ∀ path, s.streamFile? category.name = some path ∨ s.reportFile? category.name = some path →
    ∀ v d, P v → P ((v.write? (s.host.locate path) d).getD v)

/-- The same is written to volumes that are the same, until a report is. -/
theorem KeptByWrites.sameWrites {P : Volume → Prop} (h : s.KeptByWrites category P) :
    s.SameWrites category (fun v v' => v = v' ∧ P v) (fun v v' => P v ∧ P v') where
  weaker v v' hv := ⟨hv.2, hv.1 ▸ hv.2⟩
  stream path hpath v v' hv d := by
    obtain ⟨rfl, hkept⟩ := hv
    exact ⟨rfl, rfl, h path (.inl hpath) v d hkept⟩
  appended path hpath v v' hv more := by
    obtain ⟨rfl, hkept⟩ := hv
    exact ⟨rfl, Volume.append?_induction hkept (fun d => h path (.inl hpath) v d hkept) more⟩
  report path hpath v v' hv d d' := by
    obtain ⟨rfl, hkept⟩ := hv
    exact ⟨h path (.inr hpath) v d hkept, h path (.inr hpath) v d' hkept⟩

end AuditSetup

namespace Audit

open AuditSetup World

variable {s : AuditSetup} {category : Category} {w w' : World} {V V' : Volume → Volume → Prop}

theorem unasked_openLog (s : AuditSetup) (category : String) (w : World) :
    Unasked w (openLog s category w).2 := by
  unfold openLog Unasked
  dsimp only
  split <;> rfl

theorem unasked_closeLog (s : AuditSetup) (faults : Nat → Option WriteFault) (log : IssueLog)
    (w : World) : Unasked w (closeLog s faults log w).2 := rfl

theorem unasked_emit (a : Audit) (s : AuditSetup) (result : AuditResult) (w : World) :
    Unasked w (a.emit s result w).2 := by
  unfold emit Report.write Unasked
  split
  · rfl
  · split <;> rfl

/-- A log is opened in both worlds or in neither. -/
theorem openLog_same (h : s.SameWrites category V V') (hw : V w.volume w'.volume) :
    (openLog s category.name w).1 = (openLog s category.name w').1 ∧
      V (openLog s category.name w).2.volume (openLog s category.name w').2.volume := by
  unfold openLog
  cases hdirectory : (if s.config.streamIssues then s.reportDir else none) with
  | none => exact ⟨rfl, hw⟩
  | some directory =>
      have hpath :
          s.streamFile? category.name = some (IssueLog.streamPath directory category.name) := by
        rw [streamFile?, hdirectory]
        rfl
      obtain ⟨hsame, hwritten⟩ := h.stream _ hpath _ _ hw (.text "")
      simp only [IssueLog.new, Option.map_some, Option.bind_some, hsame]
      split
      · exact ⟨rfl, hwritten⟩
      · exact ⟨rfl, hw⟩
      · exact ⟨rfl, hw⟩

theorem openLog_keeps {P : Volume → Prop} (hP : s.KeptByWrites category P) (hw : P w.volume) :
    P (openLog s category.name w).2.volume := by
  have hstart : w.volume = w.volume ∧ P w.volume := ⟨rfl, hw⟩
  exact (openLog_same hP.sameWrites hstart).2.2

theorem closeLog_same (h : s.SameWrites category V V') (faults : Nat → Option WriteFault)
    {log : IssueLog} (hlog : log.path = s.streamFile? category.name) (hw : V w.volume w'.volume) :
    V (closeLog s faults log w).2.volume (closeLog s faults log w').2.volume := by
  unfold closeLog
  cases log.closed with
  | true => exact hw
  | false =>
      cases hpath : log.path with
      | none => exact hw
      | some path => exact h.appended path (hlog.symm.trans hpath) _ _ hw _

/-- The report is written if that is possible. -/
theorem emit_eq (a : Audit) (s : AuditSetup) (result : AuditResult) (w : World) :
    (a.emit s result w).1 = (s.reportFile? a.category).filter (fun path =>
        (w.volume.write? (s.host.locate path) (.text result.toRecord.pretty)).isSome) ∧
      (a.emit s result w).2.volume = ((s.reportFile? a.category).bind fun path =>
        w.volume.write? (s.host.locate path) (.text result.toRecord.pretty)).getD w.volume := by
  unfold emit reportFile?
  cases s.reportDir with
  | none => exact ⟨rfl, rfl⟩
  | some directory =>
      dsimp only [Report.write, Report.categoryArtifact, Option.map_some, Option.bind_some,
        Option.filter]
      split
      · next volume hwrite => simp [hwrite]
      · next hwrite => simp [hwrite, note]

theorem emit_same (h : s.SameWrites category V V') {a : Audit} (hname : a.category = category.name)
    (result result' : AuditResult) (hw : V w.volume w'.volume) :
    V' (a.emit s result w).2.volume (a.emit s result' w').2.volume := by
  rw [(emit_eq a s result w).2, (emit_eq a s result' w').2, hname]
  cases hpath : s.reportFile? category.name with
  | none => exact h.weaker _ _ hw
  | some path => exact h.report path hpath _ _ hw _ _

/-! ## Runs -/

theorem logs_of_sameWrites (h : s.SameWrites category V V') (before before' : World) :
    s.Logs s category.name (Beside V before before' category)
      (Beside V' before before' category) where
  batchSize := rfl
  weaker w w' hw := ⟨h.weaker _ _ hw.volumes, hw.answers, hw.others, hw.others'⟩
  opened w w' hw := by
    obtain ⟨hlog, hvolumes⟩ := openLog_same h hw.volumes
    exact ⟨hlog, hw.of_unasked (unasked_openLog ..) (unasked_openLog ..) hvolumes⟩
  closed log faults hlog w w' hw :=
    hw.of_unasked (unasked_closeLog ..) (unasked_closeLog ..)
      (closeLog_same h faults hlog hw.volumes)
  emitted a ha result result' w w' hw :=
    hw.of_unasked (unasked_emit ..) (unasked_emit ..) (emit_same h ha result result' hw.volumes)

/-- An audit of a category, which finds the same wherever it sees the same. -/
structure IsOf (a : Audit) (s : AuditSetup) (category : Category) : Prop where
  name : a.category = category.name
  agrees : ∀ R, s.Sight category R → a.Agrees R

/-- An audit that sees the same in volumes that are alike, and writes to both or to neither, comes
to the same result or fails in the same way. -/
theorem run_beside {a : Audit} (ha : a.IsOf s category)
    (hsight : s.Sight category (Beside V w w' category)) (hwrites : s.SameWrites category V V')
    (hvolumes : V w.volume w'.volume) (hanswers : SameAnswers category w w') :
    (a.run s {} w).result.map AuditResult.found = (a.run s {} w').result.map AuditResult.found ∧
      Beside V' w w' category (a.run s {} w).world (a.run s {} w').world :=
  run_agrees (ha.agrees _ hsight) Beside.keptByNotes (ha.name ▸ logs_of_sameWrites hwrites w w')
    (.start hvolumes hanswers)

/-- A run keeps what writing its stream and its report keeps, and takes no answer from another
category; the report is there if it could be written when all else was done. -/
theorem run_keeps {P : Volume → Prop} (hP : s.KeptByWrites category P) {a : Audit}
    (ha : a.IsOf s category) (hw : P w.volume) :
    P (a.run s {} w).world.volume ∧
      (∀ other, other ≠ category → SameAnswers other w (a.run s {} w).world) ∧
      ∀ result, (a.run s {} w).result = .ok result → ∃ v, P v ∧
        (a.run s {} w).state.report = (s.reportFile? category.name).filter (fun path =>
          (v.write? (s.host.locate path) (.text result.toRecord.pretty)).isSome) := by
  -- the run is compared with itself
  have hlogs := logs_of_sameWrites hP.sameWrites w w
  have hsight : s.Sight category (Beside (fun v v' => v = v' ∧ P v) w w category) :=
    sight_of_eq (fun _ _ hv => hv.1) w w
  have hstart : Beside (fun v v' => v = v' ∧ P v) w w category w w :=
    .start ⟨rfl, hw⟩ (.refl category w)
  obtain ⟨-, hafter⟩ := run_agrees (ha.agrees _ hsight) Beside.keptByNotes (ha.name ▸ hlogs) hstart
  refine ⟨hafter.volumes.1, hafter.others, fun result hresult => ?_⟩
  obtain ⟨e, state, v, v', hrun, -⟩ | ⟨result₁, result₂, v, v', -, hv, hrun, -⟩ :=
    run_cases (ha.agrees _ hsight) Beside.keptByNotes (ha.name ▸ hlogs) hstart
  · rw [hrun] at hresult
    cases hresult
  · rw [hrun] at hresult ⊢
    obtain rfl : result₁ = result := Except.ok.inj hresult
    refine ⟨v.volume, hv.volumes.2, ?_⟩
    rw [← ha.name]
    exact (emit_eq a s result₁ v).1

end Audit

/-! ## Reports that go elsewhere -/

namespace AuditSetup

/-- The project is a directory with names that files may have, and reports go to no place in it. -/
structure ReportsElsewhere (s : AuditSetup) (entries : List (String × Tree)) : Prop where
  resolved : ∃ p : Path, s.project = p.resolve s.host.cwd
  named : ∀ names ∈ (Tree.dir entries).paths, ∀ name ∈ names, IsFileName name
  outside : ∀ directory, s.reportDir = some directory →
    ¬ s.project.parts <+: s.host.locate directory

variable {s : AuditSetup} {entries : List (String × Tree)} {category : Category}

/-- Where the project has the same entries, a category finds and reads the same. -/
theorem ReportsElsewhere.sameFiles (h : s.ReportsElsewhere entries) {V : Volume → Volume → Prop}
    (hV : ∀ v v', V v v' → s.Holds entries v ∧ s.Holds entries v') : s.SameFiles category V := by
  have hread : ∀ names v v', V v v' →
      v.tree.file? (s.project.parts ++ names) = v'.tree.file? (s.project.parts ++ names) := by
    intro names v v' hv
    rw [← Tree.file?_append (hV v v' hv).1, ← Tree.file?_append (hV v v' hv).2]
  exact {
    resolved := h.resolved
    found := fun v v' hv => ⟨entries, entries, (hV v v' hv).1, (hV v v' hv).2, rfl⟩
    named := by
      intro v v' hv entries' hholds
      obtain rfl : entries = entries' :=
        Tree.dir.inj (Option.some.inj ((hV v v' hv).1.symm.trans hholds))
      exact h.named
    read := fun _ _ _ _ _ names _ _ => hread names
    manifest := fun v v' hv _ => hread _ v v' hv }

end AuditSetup

theorem IssueLog.isFileName_stream (category : Category) :
    IsFileName (category.name ++ "-issues.jsonl") := by
  cases category <;> decide +kernel

theorem Report.isFileName_nameOf (category : Category) : IsFileName (nameOf category.name) := by
  cases category <;> decide +kernel

namespace AuditSetup

variable {s : AuditSetup} {entries : List (String × Tree)} {category : Category}

/-- Streams and reports are files in the directory of reports. -/
theorem exists_child_of_file {path : Path}
    (h : s.streamFile? category.name = some path ∨ s.reportFile? category.name = some path) :
    ∃ directory name, s.reportDir = some directory ∧ IsFileName name ∧
    path = directory.child name := by
  rcases h with h | h
  · obtain ⟨directory, hdirectory, rfl⟩ := Option.map_eq_some_iff.mp h
    split at hdirectory
    · exact ⟨directory, _, hdirectory, IssueLog.isFileName_stream category, rfl⟩
    · cases hdirectory
  · obtain ⟨directory, hdirectory, rfl⟩ := Option.map_eq_some_iff.mp h
    exact ⟨directory, _, hdirectory, Report.isFileName_nameOf category, rfl⟩

/-- Streams and reports that go elsewhere change nothing in the project. -/
theorem ReportsElsewhere.keptByWrites (h : s.ReportsElsewhere entries) :
    s.KeptByWrites category (s.Holds entries) := by
  intro path hpath v d hholds
  obtain ⟨directory, name, hdirectory, hname, rfl⟩ := exists_child_of_file hpath
  cases hwrite : v.write? (s.host.locate (directory.child name)) d with
  | none => exact hholds
  | some v' =>
      refine Volume.at?_write?_of_outside hwrite hholds ?_
      rw [s.host.locate_child _ hname, List.prefix_concat_iff]
      rintro (hproject | hbelow)
      · -- a directory has no file in its place
        obtain ⟨-, hdir, -⟩ := Volume.write?_eq_some_iff.mp hwrite
        rw [s.host.locate_child _ hname, ← hproject, Tree.isDir, hholds] at hdir
        cases hdir
      · exact h.outside directory hdirectory hbelow

end AuditSetup

namespace Audit

open AuditSetup World

variable {s : AuditSetup} {entries : List (String × Tree)} {category : Category} {w w' : World}

/-- An audit whose reports go elsewhere leaves the project as it is, and the answers to all other
categories. -/
theorem run_leaves (h : s.ReportsElsewhere entries) {a : Audit} (ha : a.IsOf s category)
    (hholds : s.Holds entries w.volume) :
    s.Holds entries (a.run s {} w).world.volume ∧
      ∀ other, other ≠ category → SameAnswers other w (a.run s {} w).world := by
  obtain ⟨hkept, hanswers, -⟩ := run_keeps h.keptByWrites ha hholds
  exact ⟨hkept, hanswers⟩

/-- Two runs of an audit on the same project, with the same answers, come to the same result if both
succeed, whatever becomes of their streams and reports. -/
theorem found_beside {s' : AuditSetup} (h : s.ReportsElsewhere entries)
    (h' : s'.ReportsElsewhere entries) (hproject : s'.project = s.project)
    (hbatch : s'.config.batchSize = s.config.batchSize)
    (hlimit : s'.config.maxIssues = s.config.maxIssues) {a : Audit} (ha : a.IsOf s category)
    (hholds : s.Holds entries w.volume) (hholds' : s.Holds entries w'.volume)
    (hanswers : SameAnswers category w w') {result result' : AuditResult}
    (hresult : (a.run s {} w).result = .ok result)
    (hresult' : (a.run s' {} w').result = .ok result') : result.found = result'.found := by
  let both (v v' : Volume) : Prop := s.Holds entries v ∧ s'.Holds entries v'
  have hboth : ∀ v v', both v v' → s.Holds entries v ∧ s.Holds entries v' := by
    intro v v' hv
    exact ⟨hv.1, by rw [Holds, ← hproject]; exact hv.2⟩
  have hfiles : s.SameFiles category both := h.sameFiles hboth
  have hstart : both w.volume w'.volume := ⟨hholds, by rw [Holds, hproject]; exact hholds'⟩
  refine found_of_runs (ha.agrees _ (hfiles.sight w w')) Beside.keptByNotes hbatch hlimit ?_
    (.start hstart hanswers) hresult hresult'
  intro w₁ w₁' log log' v v' hw hopens hopens'
  obtain rfl : _ = v := congrArg Prod.snd hopens
  obtain rfl : _ = v' := congrArg Prod.snd hopens'
  rw [ha.name]
  -- each of the two logs is opened without changing the project
  exact hw.of_unasked (unasked_openLog ..) (unasked_openLog ..)
    ⟨openLog_keeps h.keptByWrites hw.volumes.1, openLog_keeps h'.keptByWrites hw.volumes.2⟩

end Audit

end FrontendAudit
