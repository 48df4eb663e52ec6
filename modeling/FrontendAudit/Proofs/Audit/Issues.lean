import FrontendAudit.Audit.Category
import FrontendAudit.Proofs.Audit.Course
import FrontendAudit.Proofs.Audit.Scanning
import FrontendAudit.Proofs.Page.Fetch
import FrontendAudit.Proofs.Scan.Turns

/-!
# The issues of an audit

What an audit reports is decided by its files in the order in which they were found: the findings of
those that could be scanned, then those about all files together, the first of them up to the limit,
each issue once. In which batches the files are scanned, in which order the scans of a batch come to
an end, when the writer of the log works and whether there is a stream file at all has no part in it
(`issues_of_run`).
-/

namespace FrontendAudit

/-- The issues that an audit reports. -/
def AuditOutcome.issues (outcome : AuditOutcome) : Except Failure (List Finding) :=
  outcome.result.map (·.issues)

namespace Audit

open ScanningEvent (scans)

/-- A run of an audit up to the end of its scans: its files are found, its log can be opened, and
the events of its pace take the scans of all files to their end. -/
structure Passage (a : Audit) (s : AuditSetup) (pace : Pace) (w : World) where
  files : List Path
  found : World
  log : IssueLog
  opened : World
  scanned : List ScannedFile
  after : World
  final : Schedule
  enumerates : a.enumerate w = (.ok files, found)
  opens : openLog s a.category found = (.ok log, opened)
  scansAll : a.scanAll files opened = (scanned, after)
  runs : (Schedule.initial (a.labelFor files) s.config.batchSize {} scanned).run
    (scans (pace.events scanned)) = some final
  isDone : final.isDone = true

/-! ## The log of an audit -/

section

variable {s : AuditSetup} {category : String} {w : World}

/-- The log of an audit is a new one that could be opened. -/
theorem start_of_openLog {w' : World} {log : IssueLog} (h : openLog s category w = (.ok log, w')) :
    ∃ directory possible,
      (IssueLog.new category directory s.config.maxIssues).start possible = (.ok (), log) := by
  unfold openLog at h
  dsimp only at h
  split at h
  · next hstart =>
      obtain ⟨hlog, -⟩ := Prod.mk.inj h
      rw [← Except.ok.inj hlog]
      exact ⟨_, _, hstart⟩
  · cases (Prod.mk.inj h).1
  · cases (Prod.mk.inj h).1

/-- The log of an audit takes findings up to the limit of the configuration. -/
theorem openLog_took {w' : World} {log : IssueLog}
    (h : openLog s category w = (.ok log, w')) : log.Took s.config.maxIssues [] := by
  obtain ⟨directory, possible, hstart⟩ := start_of_openLog h
  exact IssueLog.Took.start _ hstart

theorem openLog_pages (s : AuditSetup) (category : String) (w : World) :
    (openLog s category w).2.pages = w.pages := by
  unfold openLog
  dsimp only
  split <;> rfl

theorem closeLog_kept (s : AuditSetup) (faults : Nat → Option WriteFault) (log : IssueLog)
    (w : World) : (closeLog s faults log w).1.kept = log.kept :=
  log.close_kept faults

end

/-! ## A run of any category -/

section

variable {a : Audit} {s : AuditSetup} {pace : Pace} {w : World}

/-- What the log has kept when everything is recorded: the findings of the scanned files, then those
that are found at the end, up to the limit. -/
theorem Passage.kept (p : a.Passage s pace w) (hsize : 1 ≤ s.config.batchSize) :
    ∃ notes, ((a.scanAndRecord s pace p.files p.log p.opened).1.map fun _ =>
        (a.scanAndRecord s pace p.files p.log p.opened).2.1.kept) =
      (a.finalize (.ofFiles {} (p.scanned.length ⌈/⌉ s.config.batchSize) p.scanned)
        (p.after.note notes)).1.map fun found =>
          (p.scanned.flatMap (·.findings) ++ found).take s.config.maxIssues := by
  obtain ⟨x, hfinish, htally, htook⟩ :=
    Scanning.finish?_start hsize (openLog_took p.opens) p.runs p.isDone
  refine ⟨x.notes ++ x.schedule.closingNotes, ?_⟩
  -- from here on only the finalization can fail: the log takes whatever it gives
  rw [scanAndRecord, if_neg (by omega), ← htally]
  simp only [p.scansAll, hfinish]
  rcases hend : a.finalize x.schedule.tally
    (p.after.note (x.notes ++ x.schedule.closingNotes)) with ⟨e | found, w'⟩
  · rfl
  · obtain ⟨log, notes, hrecord, hlog⟩ := htook.recordAll found
    simp only [recordAll, hrecord]
    show Except.ok log.kept = Except.ok _
    rw [hlog.kept]

/-- The issues of a run are what its log has kept, each once. -/
theorem Passage.issues_eq (p : a.Passage s pace w) :
    (a.runPaced s pace {} w).issues =
      (a.scanAndRecord s pace p.files p.log p.opened).1.map fun _ =>
        dedupe (a.scanAndRecord s pace p.files p.log p.opened).2.1.kept := by
  rw [runPaced_eq]
  simp only [p.enumerates, p.opens]
  rw [if_neg (fun hphase => hphase rfl)]
  rcases a.scanAndRecord s pace p.files p.log p.opened with ⟨e | _, log, w'⟩
  · rfl
  · show Except.ok (dedupe (closeLog s pace.faults log w').1.kept) = Except.ok (dedupe log.kept)
    rw [closeLog_kept]

/-- The issues of a run of any category, or the failure to find what can only be said at the end. -/
theorem Passage.issues (p : a.Passage s pace w) (hsize : 1 ≤ s.config.batchSize) :
    ∃ notes, (a.runPaced s pace {} w).issues =
      (a.finalize (.ofFiles {} (p.scanned.length ⌈/⌉ s.config.batchSize) p.scanned)
        (p.after.note notes)).1.map fun found =>
          dedupe ((p.scanned.flatMap (·.findings) ++ found).take s.config.maxIssues) := by
  obtain ⟨notes, hkept⟩ := p.kept hsize
  refine ⟨notes, ?_⟩
  have hmap : ∀ (x : Except Failure Unit) (kept : List Finding),
      (x.map fun _ => dedupe kept) = (x.map fun _ => kept).map dedupe := by
    intro x kept
    cases x <;> rfl
  rw [p.issues_eq, hmap, hkept]
  cases (a.finalize (.ofFiles {} (p.scanned.length ⌈/⌉ s.config.batchSize) p.scanned)
    (p.after.note notes)).1 <;> rfl

/-- A run whose log was opened is done when it has issues. -/
theorem Passage.done_of_issues (p : a.Passage s pace w) {issues : List Finding}
    (h : (a.runPaced s pace {} w).issues = .ok issues) :
    (a.runPaced s pace {} w).state.phase = .done := by
  rw [runPaced_eq] at h ⊢
  simp only [p.enumerates, p.opens] at h ⊢
  rw [if_neg (fun hphase => hphase rfl)] at h ⊢
  rcases hscanned : a.scanAndRecord s pace p.files p.log p.opened with ⟨e | _, log, w'⟩
  · rw [hscanned] at h
    cases h
  · rfl

/-- A run whose log was opened and that fails has come to closing its log. -/
theorem Passage.closing_of_issues (p : a.Passage s pace w) {e : Failure}
    (h : (a.runPaced s pace {} w).issues = .error e) :
    (a.runPaced s pace {} w).state.phase = .closing ∧
      (a.runPaced s pace {} w).result = .error e := by
  rw [runPaced_eq] at h ⊢
  simp only [p.enumerates, p.opens] at h ⊢
  rw [if_neg (fun hphase => hphase rfl)] at h ⊢
  rcases hscanned : a.scanAndRecord s pace p.files p.log p.opened with ⟨e' | _, log, w'⟩
  · rw [hscanned] at h
    obtain rfl : e' = e := Except.error.inj h
    exact ⟨rfl, rfl⟩
  · rw [hscanned] at h
    cases h

theorem scanAll_leavesWorld (hscan : ∀ file, Run.LeavesWorld (a.scan file)) (files : List Path)
    (w : World) : (a.scanAll files w).2 = w := by
  induction files generalizing w with
  | nil => rfl
  | cons file files ih =>
      show (a.scanAll files (a.scan file w).2).2 = w
      rw [ih, hscan file w]

/-- Where finding files and scanning them leave the world as it is, only the log has been opened
when the scans are over. -/
theorem Passage.after_eq (henumerate : Run.LeavesWorld a.enumerate)
    (hscan : ∀ file, Run.LeavesWorld (a.scan file)) (p : a.Passage s pace w) :
    p.after = (openLog s a.category w).2 := by
  have hfound : p.found = w := by
    have h := henumerate w
    rwa [p.enumerates] at h
  have hafter : p.after = p.opened := by
    have h := scanAll_leavesWorld hscan p.files p.opened
    rwa [p.scansAll] at h
  have hopened := p.opens
  rw [hfound] at hopened
  rw [hafter, hopened]

/-- Scans that end in order take a run to the end of its scans. -/
theorem exists_passage_together {files : List Path} {found opened : World} {log : IssueLog}
    (hsize : 1 ≤ s.config.batchSize) (henumerates : a.enumerate w = (.ok files, found))
    (hopens : openLog s a.category found = (.ok log, opened)) :
    ∃ p : a.Passage s (.together s.config.batchSize) w,
      p.scanned = (a.scanAll files opened).1 := by
  have hends := Schedule.initial_run_ofBatches (a.labelFor files) s.config.batchSize {}
    (a.scanAll files opened).1 hsize ((a.scanAll files opened).1.map fun _ => 0)
    (List.length_map _)
  obtain ⟨final, hrun, hdone⟩ := hends
  refine ⟨⟨files, found, log, opened, _, _, final, henumerates, hopens, rfl, ?_, hdone⟩, rfl⟩
  rw [Pace.together, ScanningEvent.scans_map_scan]
  exact hrun

end

/-! ## Accessibility -/

theorem data_leavesWorld (s : AuditSetup) (file : Path) : Run.LeavesWorld (s.data file) := by
  refine Run.LeavesWorld.get.bind fun w => ?_
  split
  · exact .pure _
  · exact .throw _

theorem files_leavesWorld (s : AuditSetup) (category : Category) :
    Run.LeavesWorld (s.files category) :=
  Run.LeavesWorld.get.bind fun _ => (Run.LeavesWorld.ofExcept _ _).bind fun _ => .pure _

theorem accessibilityScan_leavesWorld (s : AuditSetup) (file : Path) :
    Run.LeavesWorld (accessibilityScan s file) :=
  (data_leavesWorld s file).bind fun _ => (Run.LeavesWorld.ofExcept _ _).bind fun _ => .pure _

/-- What is missing from a project is said of the project as a whole, and needs no cutting. -/
theorem accepted_projectFindings (signals : Accessibility.Signals) :
    AuditSetup.accepted (Accessibility.projectFindings signals) =
      pure (Accessibility.projectFindings signals) := by
  obtain ⟨landmark, skipLink⟩ := signals
  cases landmark <;> cases skipLink <;> rfl

/-- The findings about all files together: those about the project, if some file was scanned, then
those about the pages. -/
theorem accessibility_finalize (s : AuditSetup) (urls : List String) (tally : Tally) (w : World) :
    ((accessibility s urls).finalize tally w).1 = (Page.checkAll {} urls w).1.map fun live =>
      (if tally.scanned = 0 then [] else Accessibility.projectFindings tally.signals) ++ live := by
  have haccepted : AuditSetup.accepted
      (if tally.scanned = 0 then [] else Accessibility.projectFindings tally.signals) =
      pure (if tally.scanned = 0 then [] else Accessibility.projectFindings tally.signals) := by
    split
    · rfl
    · exact accepted_projectFindings _
  simp only [accessibility, haccepted, pure_bind]
  rcases hlive : Page.checkAll {} urls w with ⟨e | live, w'⟩
  · rw [Run.bind_error hlive]
    rfl
  · rw [Run.bind_ok hlive]
    rfl

/-- The pages that are served do not change until all files are scanned. -/
theorem Passage.pages_after {s : AuditSetup} {urls : List String} {pace : Pace} {w : World}
    (p : (accessibility s urls).Passage s pace w) : p.after.pages = w.pages := by
  rw [p.after_eq (files_leavesWorld s _) (accessibilityScan_leavesWorld s)]
  exact openLog_pages s _ w

/-- What is missing from a project whose files are all in the tally. -/
theorem missing_ofFiles (batches : Nat) (files : List ScannedFile) :
    (if (Tally.ofFiles {} batches files).scanned = 0 then []
      else Accessibility.projectFindings (Tally.ofFiles {} batches files).signals) =
    if files.any (·.isScanned) then
      Accessibility.projectFindings
        { landmark := files.any (·.signals.landmark), skipLink := files.any (·.signals.skipLink) }
    else [] := by
  have hnone : (Tally.ofFiles {} batches files).scanned = 0 ↔ files.any (·.isScanned) = false := by
    show files.countP (·.isScanned) = 0 ↔ _
    rw [List.countP_eq_zero, List.any_eq_false]
  cases hany : files.any (·.isScanned) with
  | true =>
      have hsome : (Tally.ofFiles {} batches files).scanned ≠ 0 := by
        intro hzero
        rw [hnone.mp hzero] at hany
        cases hany
      rw [if_neg hsome, if_pos rfl]
      simp only [Tally.ofFiles, Bool.false_or]
  | false => rw [if_pos (hnone.mpr hany), if_neg Bool.false_ne_true]

/-- The issues of a run of the accessibility audit. -/
theorem Passage.accessibility_issues {s : AuditSetup} {urls : List String} {pace : Pace} {w : World}
    (p : (accessibility s urls).Passage s pace w) (hsize : 1 ≤ s.config.batchSize) :
    ((accessibility s urls).runPaced s pace {} w).issues =
      (Page.checkAll {} urls w).1.map fun live =>
        dedupe ((p.scanned.flatMap (·.findings) ++
          ((if p.scanned.any (·.isScanned) then
            Accessibility.projectFindings
              { landmark := p.scanned.any (·.signals.landmark)
                skipLink := p.scanned.any (·.signals.skipLink) }
            else []) ++ live)).take s.config.maxIssues) := by
  obtain ⟨notes, hissues⟩ := p.issues hsize
  have hlive := (Page.checkAll_dependsOnPages {} urls (p.after.note notes) w p.pages_after).1
  rw [hissues, accessibility_finalize, hlive, missing_ofFiles]
  cases (Page.checkAll {} urls w).1 <;> rfl

/-- Whatever the size of the batches, the order in which scans come to an end, the writer of the log
and its stream file, the issues are those of the scanned files in order and then those found at the
end, up to the limit and each once. For accessibility the latter are what is missing from the
project, if a file of it was scanned, and what is found on the pages. So runs whose scans end alike
and which find the same at the end have the same issues. -/
theorem issues_of_run :
    (∀ (a : Audit) (s : AuditSetup) (pace : Pace) (w : World) (p : a.Passage s pace w),
      1 ≤ s.config.batchSize →
      ∃ notes, (a.runPaced s pace {} w).issues =
        (a.finalize (.ofFiles {} (p.scanned.length ⌈/⌉ s.config.batchSize) p.scanned)
          (p.after.note notes)).1.map fun found =>
            dedupe ((p.scanned.flatMap (·.findings) ++ found).take s.config.maxIssues)) ∧
    (∀ (s : AuditSetup) (urls : List String) (pace : Pace) (w : World)
        (p : (accessibility s urls).Passage s pace w),
      1 ≤ s.config.batchSize →
      ((accessibility s urls).runPaced s pace {} w).issues =
        (Page.checkAll {} urls w).1.map fun live =>
          dedupe ((p.scanned.flatMap (·.findings) ++
            ((if p.scanned.any (·.isScanned) then
              Accessibility.projectFindings
                { landmark := p.scanned.any (·.signals.landmark)
                  skipLink := p.scanned.any (·.signals.skipLink) }
              else []) ++ live)).take s.config.maxIssues)) ∧
    (∀ (a a' : Audit) (s s' : AuditSetup) (pace pace' : Pace) (w w' : World)
        (p : a.Passage s pace w) (p' : a'.Passage s' pace' w'),
      1 ≤ s.config.batchSize → 1 ≤ s'.config.batchSize →
      s.config.maxIssues = s'.config.maxIssues → p.scanned = p'.scanned →
      (∀ notes notes',
        (a.finalize (.ofFiles {} (p.scanned.length ⌈/⌉ s.config.batchSize) p.scanned)
          (p.after.note notes)).1 =
        (a'.finalize (.ofFiles {} (p'.scanned.length ⌈/⌉ s'.config.batchSize) p'.scanned)
          (p'.after.note notes')).1) →
      (a.runPaced s pace {} w).issues = (a'.runPaced s' pace' {} w').issues) ∧
    (∀ (a : Audit) (s : AuditSetup) (w found opened : World) (files : List Path) (log : IssueLog),
      1 ≤ s.config.batchSize → a.enumerate w = (.ok files, found) →
      openLog s a.category found = (.ok log, opened) →
      ∃ p : a.Passage s (.together s.config.batchSize) w,
        p.scanned = (a.scanAll files opened).1) := by
  refine ⟨fun a s pace w p hsize => p.issues hsize,
    fun s urls pace w p hsize => p.accessibility_issues hsize, ?_,
    fun a s w found opened files log hsize => exists_passage_together hsize⟩
  intro a a' s s' pace pace' w w' p p' hsize hsize' hlimit hscanned hfinalize
  obtain ⟨notes, hissues⟩ := p.issues hsize
  obtain ⟨notes', hissues'⟩ := p'.issues hsize'
  rw [hissues, hissues', hfinalize notes notes', hlimit, hscanned]

/-- A finding of a kind about a file. -/
def plainFinding (kind file : String) : Finding :=
  { kind, severity := .high, message := "found", file := some file }

/-- An audit of three files, of which the second cannot be scanned. At the end it finds the issue of
the first file once more, and one of the project. -/
def threeFileAudit : Audit where
  category := "accessibility"
  label := "Accessibility"
  enumerate := pure [.ofString "a.html", .ofString "b.html", .ofString "c.html"]
  scan file :=
    if file.toString = "b.html" then throw (.noFile file)
    else pure { findings := [plainFinding "missing_alt" file.toString] }
  finalize _ := pure [plainFinding "missing_alt" "a.html", plainFinding "missing_landmark" "."]

/-- Three findings are kept; reports and the stream file go to a directory. -/
def threeFileSetup (batchSize : Nat) (streamIssues : Bool) : AuditSetup where
  host :=
    { cwd := .absolute [], environment := [], now := "now", runId := "1"
      rulesDir := .absolute ["rules"], cloneDir := .absolute ["clone"] }
  project := .absolute ["project"]
  config := { Config.default with batchSize, streamIssues, maxIssues := 3 }
  reportDir := some (.absolute ["reports"])

/-- Batches of two, the first starting and ending in reverse order; a write fails. -/
def reversePace : Pace where
  events _ := [.scan (.start 1), .scan (.start 0), .write none, .scan (.finish 1),
    .scan (.finish 0), .write (some (.broken "disk full")), .scan (.start 0), .scan (.finish 0)]

def emptyWorld : World := { volume := { tree := .dir [] } }

def reversePassage :
    threeFileAudit.Passage (threeFileSetup 2 true) reversePace emptyWorld where
  files := _
  found := _
  log := _
  opened := _
  scanned := _
  after := _
  final := _
  enumerates := rfl
  opens := rfl
  scansAll := rfl
  runs := rfl
  isDone := rfl

/-- Of three findings and one that is dropped two issues remain, and the same without a stream file
and file by file. -/
theorem issues_of_run_threeFiles :
    reversePassage.log.writing = true ∧
    (threeFileAudit.runPaced (threeFileSetup 2 true) reversePace {} emptyWorld).issues =
      .ok [plainFinding "missing_alt" "a.html", plainFinding "missing_alt" "c.html"] ∧
    (threeFileAudit.runPaced (threeFileSetup 2 true) reversePace {} emptyWorld).issues =
      (threeFileAudit.run (threeFileSetup 1 false) {} emptyWorld).issues := by
  refine ⟨rfl, ?_, ?_⟩
  · obtain ⟨notes, hissues⟩ := issues_of_run.1 threeFileAudit (threeFileSetup 2 true) reversePace
      emptyWorld reversePassage (by decide)
    rw [hissues]
    rfl
  · obtain ⟨p, hscanned⟩ := issues_of_run.2.2.2 threeFileAudit (threeFileSetup 1 false) emptyWorld
      _ _ _ _ (by decide) rfl rfl
    exact issues_of_run.2.2.1 threeFileAudit threeFileAudit _ _ reversePace _ emptyWorld emptyWorld
      reversePassage p (by decide) (by decide) rfl (hscanned ▸ rfl) (fun _ _ => rfl)

end Audit

end FrontendAudit
