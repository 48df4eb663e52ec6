import FrontendAudit.Audit.Scanning
import FrontendAudit.Report.Write
import FrontendAudit.Summary

/-!
# Running an audit

An audit of a category finds its files, opens its log, scans the files in batches, adds what can
only be said about all files together, closes the log, and writes the report of what the log kept.
Every step may fail. Whatever fails once the log is open, the log is closed; a report is written
only when nothing failed. An audit is run once, at a pace that the outside sets (`Audit.runPaced`).
-/

namespace FrontendAudit

/-- What the audits of a run have in common. -/
structure AuditSetup where
  host : Host
  project : Path
  config : Config
  reportDir : Option Path := none
  deriving Repr, Inhabited

/-- An audit of a category. -/
structure Audit where
  category : String
  label : String
  enumerate : Run (List Path)
  scan : Path → Run FileScan
  finalize : Tally → Run (List Finding)

/-- How far an audit has come, and the report that it has written. -/
structure AuditState where
  phase : Phase := .idle
  report : Option Path := none
  deriving DecidableEq, Repr, Inhabited

namespace AuditState

/-- Goes on to a later phase. -/
def enter (s : AuditState) (category : String) (next : Phase) : Except Failure AuditState :=
  if next.rank ≤ s.phase.rank then .error (.cannotMove category s.phase next)
  else .ok { s with phase := next }

end AuditState

/-- The parts of a run that can raise. -/
inductive AuditPart where
  | enumeration
  | opening
  /-- Scanning, and what is found at the end. -/
  | scanning
  /-- Going on to another phase. -/
  | entering
  deriving DecidableEq, Repr

/-- What is done in a run, as far as its order matters. -/
inductive Deed where
  | enters (phase : Phase)
  /-- Opens the log, with the stream file that it is to have. -/
  | opens (stream : Option Path)
  | raises (part : AuditPart) (failure : Failure)
  /-- Closes the log, as it was left and as it is then. -/
  | closes (left closed : IssueLog)
  | reports (report : Option Path)

/-- A run so far: how far the audit has come, the world, and what was done. -/
structure AuditCourse where
  state : AuditState := {}
  world : World
  deeds : List Deed := []

/-- A step of the run of an audit. -/
abbrev AuditRun := ExceptT Failure (StateM AuditCourse)

namespace AuditRun

/-- Puts down what was done. -/
def did (deed : Deed) : AuditRun Unit := fun c =>
  (.ok (), { c with deeds := c.deeds ++ [deed] })

/-- Goes on to a later phase. -/
def enter (category : String) (phase : Phase) : AuditRun Unit := fun c =>
  match c.state.enter category phase with
  | .ok state => (.ok (), { c with state, deeds := c.deeds ++ [.enters phase] })
  | .error e => (.error e, { c with deeds := c.deeds ++ [.raises .entering e] })

/-- Does a part of the run that acts on the world and may raise. -/
def perform (part : AuditPart) (step : Run α) : AuditRun α := fun c =>
  match step c.world with
  | (.ok x, w) => (.ok x, { c with world := w })
  | (.error e, w) => (.error e, { c with world := w, deeds := c.deeds ++ [.raises part e] })

end AuditRun

/-- What came of running an audit. -/
structure AuditOutcome where
  result : Except Failure AuditResult
  state : AuditState
  world : World

namespace Audit

open AuditRun (did enter perform)

/-- Scans files in order, keeping the reason where a scan fails. -/
def scanAll (a : Audit) : List Path → World → List ScannedFile × World
  | [], w => ([], w)
  | file :: files, w =>
    let (outcome, w) := a.scan file w
    let (scanned, w) := scanAll a files w
    let outcome := match outcome with
      | .ok scan => .scanned scan
      | .error e => .failed e.message
    (⟨file.toString, outcome⟩ :: scanned, w)

/-- Opens the log of a category. -/
def openLog (s : AuditSetup) (category : String) (w : World) : Except Failure IssueLog × World :=
  let directory := if s.config.streamIssues then s.reportDir else none
  let log := IssueLog.new category directory s.config.maxIssues
  let opened? := log.path.bind fun path => w.volume.write? (s.host.locate path) (.text "")
  match log.start opened?.isSome with
  | (.ok (), log) => (.ok log, { w with volume := opened?.getD w.volume })
  | (.error .openedBefore, _) => (.error (.logOpened category), w)
  | (.error (.noStream path), _) => (.error (.noStream path), w)

/-- Closes a log, once; what the writer wrote is then behind what its stream file held. -/
def closeLog (s : AuditSetup) (faults : Nat → Option WriteFault) (log : IssueLog) (w : World) :
    IssueLog × World :=
  let (closed, notes) := log.close faults
  let appended? :=
    if log.closed then none
    else log.path.bind fun path =>
      w.volume.append? (s.host.locate path) closed.streamText
  (closed, { w with volume := appended?.getD w.volume }.note notes)

/-- Records findings in order. -/
def recordAll (category : String) (findings : List Finding) (log : IssueLog) (w : World) :
    Except Failure Unit × IssueLog × World :=
  match log.recordAll findings with
  | none => (.error (.logNotOpen category), log, w)
  | some (log, notes) => (.ok (), log, w.note notes)

/-- The label of the progress of an audit; an audit without files shows none. -/
def labelFor (a : Audit) (files : List Path) : Option String :=
  if files.isEmpty then none else some a.label

/-- Scans files in batches and records what was found, then what is found at the end. Only a log
that takes nothing keeps a pace from coming to its end. -/
def scanAndRecord (a : Audit) (s : AuditSetup) (pace : Pace) (files : List Path) (log : IssueLog)
    (w : World) : Except Failure Unit × IssueLog × World :=
  if s.config.batchSize < 1 then (.error (.badBatchSize s.config.batchSize), log, w)
  else
    let (scanned, w) := a.scanAll files w
    let begun := Scanning.start (a.labelFor files) s.config.batchSize scanned log
    match begun.finish? (pace.events scanned) with
    | none => (.error (.logNotOpen a.category), log, w)
    | some x =>
      match a.finalize x.schedule.tally (w.note (x.notes ++ x.schedule.closingNotes)) with
      | (.error e, w) => (.error e, x.log, w)
      | (.ok findings, w) => recordAll a.category findings x.log w

/-- Writes the report of a result, if there is a directory for reports. -/
def emit (a : Audit) (s : AuditSetup) (result : AuditResult) (w : World) : Option Path × World :=
  match s.reportDir with
  | none => (none, w)
  | some directory => Report.write s.host (Report.categoryArtifact directory a.category result) w

/-! ## Runs -/

section

variable (a : Audit) (s : AuditSetup) (pace : Pace)

/-- The deed with which work ends. -/
def endDeeds : Except Failure Unit → List Deed
  | .error e => [.raises .scanning e]
  | .ok () => []

/-- Works with an open log, which is given back whether something was raised or not. -/
def work (files : List Path) (log : IssueLog) (c : AuditCourse) :
    Except Failure Unit × IssueLog × AuditCourse :=
  match enter a.category .scanning c with
  | (.error e, c) => (.error e, log, c)
  | (.ok (), c) =>
    let (came, log, w) := scanAndRecord a s pace files log c.world
    (came, log, { c with world := w, deeds := c.deeds ++ endDeeds came })

/-- Closes a log that was worked with, and raises again what was raised meanwhile. -/
def leave (came : Except Failure Unit) (log : IssueLog) : AuditRun IssueLog := fun c =>
  match enter a.category .closing c with
  | (.error e, c) => (.error e, c)
  | (.ok (), c) =>
    let (closed, w) := closeLog s pace.faults log c.world
    (came.map fun () => closed,
      { c with world := w, deeds := c.deeds ++ [.closes log closed] })

/-- Works with an open log and closes it, whatever comes of the work. -/
def withLog (files : List Path) (log : IssueLog) : AuditRun IssueLog := fun c =>
  let (came, log, c) := a.work s pace files log c
  a.leave s pace came log c

/-- Writes the report of a result. -/
def report (result : AuditResult) : AuditRun Unit := fun c =>
  let (report, w) := a.emit s result c.world
  (.ok (), ⟨{ c.state with report }, w, c.deeds ++ [.reports report]⟩)

/-- The run of an audit, phase by phase. -/
def follow : AuditRun AuditResult := do
  enter a.category .enumerating
  let files ← perform .enumeration a.enumerate
  let log ← perform .opening (openLog s a.category)
  did (.opens log.path)
  let log ← a.withLog s pace files log
  enter a.category .aggregating
  let result := summarize s.host.now log.kept
  enter a.category .emitting
  a.report s result
  enter a.category .done
  return result

/-- Runs an audit that has not been run, at the pace that the outside sets. -/
def runPaced (state : AuditState) (w : World) : AuditOutcome :=
  if state.phase ≠ .idle then ⟨.error (.alreadyRun a.category), state, w⟩
  else
    let (result, c) := a.follow s pace ⟨state, w, []⟩
    ⟨result, c.state, c.world⟩

end

/-- Runs an audit that has not been run, the scans of a batch ending in the order of its files. -/
def run (a : Audit) (s : AuditSetup) (state : AuditState) (w : World) : AuditOutcome :=
  a.runPaced s (.together s.config.batchSize) state w

end Audit

end FrontendAudit
