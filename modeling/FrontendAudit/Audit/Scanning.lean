import FrontendAudit.IssueLog
import FrontendAudit.Scan.Batches

/-!
# Scanning with a log

What a batch found goes into the log of the audit when the batch is complete, and the writer of the
log works through its queue at any time in between. An event is possible when the schedule allows it
and the log takes what it brings. A pace says what the outside makes of a run: the order in which
scans start and end, when the writer takes its steps, and which writes fail.
-/

namespace FrontendAudit

/-- The scan of a file starts or ends, or the writer of the log takes a step, which may meet with a
fault. -/
inductive ScanningEvent where
  | scan (event : ScanEvent)
  | write (fault : Option WriteFault)
  deriving DecidableEq, Repr

/-- The scans of an audit and its log. -/
structure Scanning where
  schedule : Schedule
  log : IssueLog
  notes : List Note := []
  deriving Repr, Inhabited

namespace Scanning

/-- Before any scan. -/
def start (label : Option String) (batchSize : Nat) (files : List ScannedFile) (log : IssueLog) :
    Scanning where
  schedule := .initial label batchSize {} files
  log

/-- The state after an event, if the event is possible. -/
def next (x : Scanning) : ScanningEvent → Option Scanning
  | .scan event =>
    match x.schedule.next event with
    | none => none
    | some schedule =>
      let found := schedule.tally.recorded.drop x.schedule.tally.recorded.length
      let shown := schedule.notes.drop x.schedule.notes.length
      (x.log.recordAll found).map fun (log, notes) =>
        { schedule, log, notes := x.notes ++ shown ++ notes }
  | .write fault =>
    let (log, notes) := x.log.write fault
    some { x with log, notes := x.notes ++ notes }

/-- The state after some events, if each is possible in its turn. -/
def run (x : Scanning) : List ScanningEvent → Option Scanning
  | [] => some x
  | event :: events => (x.next event).bind (run · events)

/-- The state at the end, if the events are possible and lead there. -/
def finish? (x : Scanning) (events : List ScanningEvent) : Option Scanning :=
  (x.run events).filter (·.schedule.isDone)

end Scanning

/-- What happens while the files of an audit are scanned, and what the writes meet with when its log
is closed. -/
structure Pace where
  events : List ScannedFile → List ScanningEvent
  faults : Nat → Option WriteFault := fun _ => none

/-- The scans of a batch all start and then end in order, and nothing is written before the log is
closed. -/
def Pace.together (batchSize : Nat) : Pace where
  events files := (ScanEvent.ofBatches batchSize files.length (files.map fun _ => 0)).map .scan

end FrontendAudit
