import FrontendAudit.Proofs.Audit.Sight
import FrontendAudit.Proofs.Audit.Stream

/-!
# Whole runs in worlds that are alike

Where an audit finds the same in worlds that are alike, and its log and its report leave them alike
(`AuditSetup.Logs`), two runs of it come to the same result, or fail in the same way, and leave
worlds that are alike (`Audit.run_agrees`). Where both runs succeed their logs may differ besides: a
result does not depend on whether there is a stream file (`Audit.found_of_runs`).
-/

namespace FrontendAudit

open Run (KeptByNotes)

/-- The setup of the same audits at another time, in a run of another name. -/
def AuditSetup.later (s : AuditSetup) (now runId : String) : AuditSetup :=
  { s with host := { s.host with now, runId } }

/-- The stream file of a category, if there is to be one. -/
def AuditSetup.streamFile? (s : AuditSetup) (category : String) : Option Path :=
  (if s.config.streamIssues then s.reportDir else none).map (IssueLog.streamPath · category)

/-- What a result says apart from its time. -/
def AuditResult.found (r : AuditResult) : Counts × List Finding := (r.counts, r.issues)

/-! ## The path of a log -/

namespace IssueLog

theorem path_recordAll {fs : List Finding} {log log' : IssueLog} {notes : List Note}
    (h : log.recordAll fs = some (log', notes)) : log'.path = log.path := by
  induction fs generalizing log notes with
  | nil =>
      obtain ⟨rfl, -⟩ := Prod.mk.inj (Option.some.inj h)
      rfl
  | cons f fs ih =>
      rw [recordAll] at h
      cases hrecord : log.record f with
      | none =>
          rw [hrecord] at h
          cases h
      | some recorded =>
          obtain ⟨answer, log₁, notes₁⟩ := recorded
          rw [hrecord] at h
          obtain ⟨⟨log₂, more⟩, hrest, hlast⟩ := Option.map_eq_some_iff.mp h
          obtain ⟨rfl, -⟩ := Prod.mk.inj hlast
          rw [ih hrest, (record_fixed hrecord).2.1]

end IssueLog

namespace Scanning

theorem path_next {x x' : Scanning} {event : ScanningEvent} (h : x.next event = some x') :
    x'.log.path = x.log.path := by
  cases event with
  | scan e =>
      simp only [Scanning.next] at h
      split at h
      · cases h
      · obtain ⟨⟨log, notes⟩, hrecord, rfl⟩ := Option.map_eq_some_iff.mp h
        exact IssueLog.path_recordAll hrecord
  | write fault =>
      obtain rfl := Option.some.inj h
      exact (x.log.write_fixed fault).2.1

theorem path_finish? {x x' : Scanning} {events : List ScanningEvent}
    (h : x.finish? events = some x') : x'.log.path = x.log.path := by
  have hrun : x.run events = some x' := (Option.filter_eq_some_iff.mp h).1
  clear h
  induction events generalizing x with
  | nil =>
      obtain rfl := Option.some.inj hrun
      rfl
  | cons event events ih =>
      obtain ⟨x₁, hnext, hrest⟩ := Option.bind_eq_some_iff.mp hrun
      rw [ih hrest, path_next hnext]

end Scanning

namespace Audit

variable {a : Audit} {s s' : AuditSetup} {w w' : World} {R R' : World → World → Prop}

theorem path_scanAndRecord (a : Audit) (s : AuditSetup) (pace : Pace) (files : List Path)
    (log : IssueLog) (w : World) : (a.scanAndRecord s pace files log w).2.1.path = log.path := by
  unfold scanAndRecord
  split
  · rfl
  · dsimp only
    split
    · rfl
    · next x hfinish =>
        have hpath : x.log.path = log.path := Scanning.path_finish? hfinish
        split
        · exact hpath
        · unfold recordAll
          split
          · exact hpath
          · next hrecord => exact (IssueLog.path_recordAll hrecord).trans hpath

/-! ## Scans -/

theorem scanAll_alike {files : List Path}
    (hscan : ∀ file ∈ files, Run.Agrees R (a.scan file)) (hw : R w w') :
    (a.scanAll files w).1 = (a.scanAll files w').1 ∧
    R (a.scanAll files w).2 (a.scanAll files w').2 := by
  induction files generalizing w w' with
  | nil => exact ⟨rfl, hw⟩
  | cons file files ih =>
      rw [List.forall_mem_cons] at hscan
      obtain ⟨houtcome, hafter⟩ := hscan.1 w w' hw
      unfold scanAll
      rcases hstep : a.scan file w with ⟨outcome, w₁⟩
      rcases hstep' : a.scan file w' with ⟨outcome', w₁'⟩
      rw [hstep, hstep'] at houtcome hafter
      obtain rfl : outcome = outcome' := houtcome
      obtain ⟨hrest, hlast⟩ := ih hscan.2 hafter
      exact ⟨congrArg (_ :: ·) hrest, hlast⟩

/-- What is recorded in one world is recorded in the other. -/
theorem scanAndRecord_alike (hnotes : KeptByNotes R) {files : List Path}
    (hscan : ∀ file ∈ files, Run.Agrees R (a.scan file))
    (hfinalize : ∀ tally, Run.Agrees R (a.finalize tally)) (pace : Pace) (log : IssueLog)
    (hw : R w w') :
    (a.scanAndRecord s pace files log w).1 = (a.scanAndRecord s pace files log w').1 ∧
      (a.scanAndRecord s pace files log w).2.1 = (a.scanAndRecord s pace files log w').2.1 ∧
      R (a.scanAndRecord s pace files log w).2.2 (a.scanAndRecord s pace files log w').2.2 := by
  unfold scanAndRecord
  split
  · exact ⟨rfl, rfl, hw⟩
  obtain ⟨hscanned, hw₁⟩ := scanAll_alike hscan hw
  rcases hscans : a.scanAll files w with ⟨scanned, w₁⟩
  rcases hscans' : a.scanAll files w' with ⟨scanned', w₁'⟩
  rw [hscans, hscans'] at hscanned hw₁
  obtain rfl : scanned = scanned' := hscanned
  dsimp only
  -- how the scans take turns depends on nothing in the world, only on the pace
  split
  · exact ⟨rfl, rfl, hw₁⟩
  · next x hfinish =>
      obtain ⟨hfound, hw₂⟩ := hfinalize x.schedule.tally _ _
        (hnotes _ _ (x.notes ++ x.schedule.closingNotes) (x.notes ++ x.schedule.closingNotes) hw₁)
      rcases hend : a.finalize x.schedule.tally
        (w₁.note (x.notes ++ x.schedule.closingNotes)) with ⟨found, w₂⟩
      rcases hend' : a.finalize x.schedule.tally
        (w₁'.note (x.notes ++ x.schedule.closingNotes)) with ⟨found', w₂'⟩
      rw [hend, hend'] at hfound hw₂
      obtain rfl : found = found' := hfound
      cases found with
      | error e => exact ⟨rfl, rfl, hw₂⟩
      | ok found =>
          dsimp only [recordAll]
          split
          · exact ⟨rfl, rfl, hw₂⟩
          · exact ⟨rfl, rfl, hnotes _ _ _ _ hw₂⟩

end Audit

/-! ## Runs -/

/-- In worlds that are alike a log is opened in the same way, and worlds stay alike when it is
closed; they are alike in a weaker sense once a report was to be written. -/
structure AuditSetup.Logs (s s' : AuditSetup) (category : String) (R R' : World → World → Prop) :
    Prop where
  batchSize : s'.config.batchSize = s.config.batchSize
  weaker : ∀ w w', R w w' → R' w w'
  opened : ∀ w w', R w w' → (Audit.openLog s category w).1 = (Audit.openLog s' category w').1 ∧
    R (Audit.openLog s category w).2 (Audit.openLog s' category w').2
  closed : ∀ log faults, log.path = s.streamFile? category → ∀ w w', R w w' →
    R (Audit.closeLog s faults log w).2 (Audit.closeLog s' faults log w').2
  emitted : ∀ a : Audit, a.category = category → ∀ result result' w w', R w w' →
    R' (a.emit s result w).2 (a.emit s' result' w').2

namespace Audit

variable {a : Audit} {s s' : AuditSetup} {w w' : World} {R R' : World → World → Prop}

/-- A run closes the log that it opened, whatever was recorded in it. -/
theorem path_recorded {files : List Path} {found opened : World} {log : IssueLog}
    (h : openLog s a.category found = (.ok log, opened)) (pace : Pace) :
    (a.scanAndRecord s pace files log opened).2.1.path = s.streamFile? a.category :=
  (path_scanAndRecord a s pace files log opened).trans (openLog_eq_ok h).2.2.1

/-- Two runs in worlds that are alike both fail, and in the same way, or both come to the same
result, and then write their reports in worlds that are alike. -/
theorem run_cases (ha : a.Agrees R) (hnotes : KeptByNotes R) (hlogs : s.Logs s' a.category R R')
    (hw : R w w') :
    (∃ e state v v', a.run s {} w = ⟨.error e, state, v⟩ ∧ a.run s' {} w' = ⟨.error e, state, v'⟩ ∧
      R v v') ∨
    ∃ result result' v v', result.found = result'.found ∧ R v v' ∧
      a.run s {} w = ⟨.ok result, ⟨.done, (a.emit s result v).1⟩, (a.emit s result v).2⟩ ∧
      a.run s' {} w' =
        ⟨.ok result', ⟨.done, (a.emit s' result' v').1⟩, (a.emit s' result' v').2⟩ := by
  rw [run, run, runPaced_eq, runPaced_eq]
  rw [if_neg (fun hphase => hphase rfl), if_neg (fun hphase => hphase rfl)]
  obtain ⟨hfiles, hw₁⟩ := ha.enumerate w w' hw
  rcases henumerates : a.enumerate w with ⟨files, w₁⟩
  rcases henumerates' : a.enumerate w' with ⟨files', w₁'⟩
  rw [henumerates, henumerates'] at hfiles hw₁
  obtain rfl : files = files' := hfiles
  cases files with
  | error e => exact .inl ⟨e, _, w₁, w₁', rfl, rfl, hw₁⟩
  | ok files =>
      dsimp only
      obtain ⟨hopened, hw₂⟩ := hlogs.opened w₁ w₁' hw₁
      rcases hopens : openLog s a.category w₁ with ⟨log, w₂⟩
      rcases hopens' : openLog s' a.category w₁' with ⟨log', w₂'⟩
      rw [hopens, hopens'] at hopened hw₂
      obtain rfl : log = log' := hopened
      cases log with
      | error e => exact .inl ⟨e, _, w₂, w₂', rfl, rfl, hw₂⟩
      | ok log =>
          dsimp only
          -- the pace, and what is recorded at it, depend on the size of batches alone
          have hsame : a.scanAndRecord s' (.together s'.config.batchSize) files log w₂' =
              a.scanAndRecord s (.together s.config.batchSize) files log w₂' := by
            unfold scanAndRecord
            rw [hlogs.batchSize]
          rw [hsame, hlogs.batchSize]
          let pace := Pace.together s.config.batchSize
          obtain ⟨hscanned, hlog, hw₃⟩ := scanAndRecord_alike (s := s) hnotes
            (ha.scan w w' hw files w₁ henumerates) ha.finalize pace log hw₂
          have hpath : (a.scanAndRecord s pace files log w₂).2.1.path = s.streamFile? a.category :=
            path_recorded hopens pace
          rcases hrecorded : a.scanAndRecord s pace files log w₂ with ⟨ending, closing, w₃⟩
          rcases hrecorded' : a.scanAndRecord s pace files log w₂' with ⟨ending', closing', w₃'⟩
          rw [hrecorded, hrecorded'] at hscanned hlog hw₃
          rw [hrecorded] at hpath
          obtain rfl : ending = ending' := hscanned
          obtain rfl : closing = closing' := hlog
          have hw₄ := hlogs.closed closing pace.faults hpath w₃ w₃' hw₃
          cases ending with
          | error e => exact .inl ⟨e, _, _, _, rfl, rfl, hw₄⟩
          | ok _ =>
              let kept := (closing.close pace.faults).1.kept
              exact .inr ⟨summarize s.host.now kept, summarize s'.host.now kept, _, _, rfl,
                hw₄, rfl, rfl⟩

/-- An audit that finds the same in worlds that are alike comes to the same result in them, or fails
in both in the same way. -/
theorem run_agrees (ha : a.Agrees R) (hnotes : KeptByNotes R) (hlogs : s.Logs s' a.category R R')
    (hw : R w w') :
    (a.run s {} w).result.map AuditResult.found = (a.run s' {} w').result.map AuditResult.found ∧
      R' (a.run s {} w).world (a.run s' {} w').world := by
  obtain ⟨e, state, v, v', hrun, hrun', hv⟩ | ⟨result, result', v, v', hfound, hv, hrun, hrun'⟩ :=
    run_cases ha hnotes hlogs hw
  · rw [hrun, hrun']
    exact ⟨rfl, hlogs.weaker v v' hv⟩
  · rw [hrun, hrun']
    exact ⟨congrArg Except.ok hfound, hlogs.emitted a rfl _ _ _ _ hv⟩

/-- A result sums up what a log has kept, at the time of the run. -/
theorem exists_kept_of_run {result : AuditResult} (h : (a.run s {} w).result = .ok result) :
    ∃ kept, result = summarize s.host.now kept := by
  rw [run, runPaced_eq] at h
  rw [if_neg (fun hphase => hphase rfl)] at h
  split at h
  · cases h
  · split at h
    · cases h
    · dsimp only at h
      split at h
      · cases h
      · exact ⟨_, (Except.ok.inj h).symm⟩

/-- A result is that of its issues, at the time of the run. -/
theorem result_eq_of_run {result : AuditResult} (h : (a.run s {} w).result = .ok result) :
    result = ⟨s.host.now, .ofFindings result.issues, result.issues⟩ := by
  obtain ⟨kept, rfl⟩ := exists_kept_of_run h
  rfl

/-! ## Runs that succeed -/

/-- Two passages in worlds that are alike, which stay so when a log is opened, have the same issues,
at whatever pace. -/
theorem Passage.issues_agree {pace pace' : Pace} (p : a.Passage s pace w)
    (p' : a.Passage s' pace' w') (ha : a.Agrees R) (hnotes : KeptByNotes R)
    (hsize : 1 ≤ s.config.batchSize) (hbatch : s'.config.batchSize = s.config.batchSize)
    (hlimit : s'.config.maxIssues = s.config.maxIssues)
    (hopened : R p.found p'.found → R p.opened p'.opened) (hw : R w w') :
    (a.runPaced s pace {} w).issues = (a.runPaced s' pace' {} w').issues := by
  obtain ⟨hfiles, hfound⟩ := ha.enumerate w w' hw
  rw [p.enumerates, p'.enumerates] at hfiles hfound
  have hsame : p.files = p'.files := Except.ok.inj hfiles
  obtain ⟨hscanned, hafter⟩ := scanAll_alike (ha.scan w w' hw p.files p.found p.enumerates)
    (hopened hfound)
  have hscans' := p'.scansAll
  rw [← hsame] at hscans'
  rw [p.scansAll, hscans'] at hscanned hafter
  have hscanned : p.scanned = p'.scanned := hscanned
  obtain ⟨notes, hissues⟩ := p.issues hsize
  obtain ⟨notes', hissues'⟩ := p'.issues (by omega)
  rw [hissues, hissues', ← hscanned, hbatch, hlimit,
    (ha.finalize _ _ _ (hnotes _ _ notes notes' hafter)).1]

/-- A run that succeeds finds its files and opens its log. -/
theorem exists_passage_of_run {result : AuditResult} (h : (a.run s {} w).result = .ok result) :
    1 ≤ s.config.batchSize ∧ Nonempty (a.Passage s (.together s.config.batchSize) w) := by
  rw [run, runPaced_eq] at h
  rw [if_neg (fun hphase => hphase rfl)] at h
  split at h
  · cases h
  · next files found henumerates =>
      split at h
      · cases h
      · next log opened hopens =>
          by_cases hsize : s.config.batchSize < 1
          · -- without a size of batches nothing is scanned
            unfold scanAndRecord at h
            rw [if_pos hsize] at h
            cases h
          · have hsize : 1 ≤ s.config.batchSize := by omega
            obtain ⟨p, -⟩ := exists_passage_together hsize henumerates hopens
            exact ⟨hsize, ⟨p⟩⟩

/-- An audit that finds the same in worlds that are alike comes to the same result wherever it
succeeds, with or without a stream file, and whatever becomes of its report. -/
theorem found_of_runs (ha : a.Agrees R) (hnotes : KeptByNotes R)
    (hbatch : s'.config.batchSize = s.config.batchSize)
    (hlimit : s'.config.maxIssues = s.config.maxIssues)
    (hopened : ∀ w w' log log' v v', R w w' → openLog s a.category w = (.ok log, v) →
      openLog s' a.category w' = (.ok log', v') → R v v')
    (hw : R w w') {result result' : AuditResult} (h : (a.run s {} w).result = .ok result)
    (h' : (a.run s' {} w').result = .ok result') : result.found = result'.found := by
  obtain ⟨hsize, ⟨p⟩⟩ := exists_passage_of_run h
  obtain ⟨-, ⟨p'⟩⟩ := exists_passage_of_run h'
  have hissues := p.issues_agree p' ha hnotes hsize hbatch hlimit
    (fun hfound => hopened _ _ _ _ _ _ hfound p.opens p'.opens) hw
  change (a.run s {} w).result.map (·.issues) = (a.run s' {} w').result.map (·.issues) at hissues
  rw [h, h'] at hissues
  have hissues : result.issues = result'.issues := Except.ok.inj hissues
  rw [result_eq_of_run h, result_eq_of_run h', hissues]
  rfl

end Audit

end FrontendAudit
