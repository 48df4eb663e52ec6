import FrontendAudit.Scan.Basic

/-!
# The schedule of a run

Files are scanned in batches of a fixed size. The scans of a batch may start and end in any order
and overlap as they like; the next batch begins only when the last scan of the batch has ended. What
the scans gave is added to the tally when the batch is complete, in the order of the files. The
state moves by single events (`Schedule.next`), and an event that is not possible leads nowhere.
-/

namespace FrontendAudit

/-- Where the scan of a file of the current batch stands. -/
inductive ScanStage where
  | waiting
  | running
  | ended
  deriving DecidableEq, Repr

/-- A file of the current batch and where its scan stands. -/
structure Slot where
  file : ScannedFile
  stage : ScanStage
  deriving DecidableEq, Repr

/-- The scan of a file of the current batch, by its place in it, starts or ends. -/
inductive ScanEvent where
  | start (place : Nat)
  | finish (place : Nat)
  deriving DecidableEq, Repr

/-- The state of a run that scans files. -/
structure Schedule where
  label : Option String
  batchSize : Nat
  total : Nat
  current : List Slot
  pending : List ScannedFile
  tally : Tally
  ended : Nat := 0
  peak : Nat := 0
  notes : List Note := []
  deriving Repr, Inhabited

namespace Schedule

/-- How many scans are under way. -/
def inFlight (s : Schedule) : Nat := s.current.countP (·.stage = .running)

/-- Whether the scans of the current batch have all ended. -/
def isSettled (s : Schedule) : Bool := s.current.all (·.stage = .ended)

/-- Whether there is nothing left to scan. -/
def isDone (s : Schedule) : Bool := s.current.isEmpty && s.pending.isEmpty

/-- Makes the first pending files the current batch. -/
def beginBatch (s : Schedule) : Schedule :=
  { s with
    current := (s.pending.take s.batchSize).map (⟨·, .waiting⟩)
    pending := s.pending.drop s.batchSize }

/-- The state before any scan. -/
def initial (label : Option String) (batchSize : Nat) (signals : Accessibility.Signals)
    (files : List ScannedFile) : Schedule :=
  beginBatch
    { label, batchSize, total := files.length, current := [], pending := files
      tally := { signals } }

/-- Once every scan of the batch has ended, adds the batch to the tally and begins the next. -/
def settle (s : Schedule) : Schedule :=
  if s.isSettled then
    beginBatch { s with tally := s.tally.addBatch (s.current.map (·.file)) }
  else s

/-- The progress that is shown when a number of scans have ended. -/
def progressText (label : String) (ended total : Nat) : String :=
  "\r[" ++ label ++ "] Progress: " ++ toString ended ++ "/" ++ toString total ++ " files checked"

/-- The notes about the end of a scan, the one of the given number. -/
def endNotes (s : Schedule) (file : ScannedFile) (number : Nat) : List Note :=
  (match file.outcome with
    | .failed reason => [.warning ("Could not scan " ++ file.path ++ ": " ++ reason)]
    | .scanned _ => []) ++
  (match s.label with
    | some label => [.progress (progressText label number s.total)]
    | none => [])

/-- The state when the scan of a file of the current batch starts. -/
def started (s : Schedule) (place : Nat) (file : ScannedFile) : Schedule :=
  let s := { s with current := s.current.set place ⟨file, .running⟩ }
  { s with peak := max s.peak s.inFlight }

/-- The state when the scan of a file of the current batch ends, the batch not settled yet. -/
def finished (s : Schedule) (place : Nat) (file : ScannedFile) : Schedule :=
  { s with
    current := s.current.set place ⟨file, .ended⟩
    ended := s.ended + 1
    notes := s.notes ++ s.endNotes file (s.ended + 1) }

/-- The state after an event, if the event is possible. -/
def next (s : Schedule) : ScanEvent → Option Schedule
  | .start place =>
    match s.current[place]? with
    | some ⟨file, .waiting⟩ => some (s.started place file)
    | _ => none
  | .finish place =>
    match s.current[place]? with
    | some ⟨file, .running⟩ => some (s.finished place file).settle
    | _ => none

/-- The state after some events, if each is possible in its turn. -/
def run (s : Schedule) : List ScanEvent → Option Schedule
  | [] => some s
  | event :: events => (s.next event).bind (run · events)

/-- The notes when nothing is left to scan. -/
def closingNotes (s : Schedule) : List Note :=
  (match s.label with
    | some label => [.progress (progressText label s.ended s.total ++ "\n")]
    | none => []) ++
  (match s.tally.failures.length with
    | 0 => []
    | failed => [.warning (toString failed ++ " of " ++ toString s.total ++
        " files could not be scanned")])

theorem run_append (s : Schedule) (es es' : List ScanEvent) :
    s.run (es ++ es') = (s.run es).bind (run · es') := by
  induction es generalizing s with
  | nil => rfl
  | cons e es ih =>
    rw [List.cons_append, run, run]
    cases s.next e with
    | none => rfl
    | some s' => exact ih s'

end Schedule

end FrontendAudit
