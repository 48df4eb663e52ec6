import FrontendAudit.Journal
import FrontendAudit.Rule.Accessibility.Landmarks

/-!
# Scans

Scanning a file gives findings and signals, or fails for some reason. The tally of a run keeps what
the scans of all batches gave, file by file in the order of the input; it does not know in which
order the scans of a batch came to an end.
-/

namespace FrontendAudit

open Accessibility (Signals)

/-- What scanning a file gives. -/
structure FileScan where
  findings : List Finding := []
  signals : Signals := {}
  deriving DecidableEq, Repr, Inhabited

/-- How the scan of a file ends. -/
inductive ScanEnd where
  | scanned (scan : FileScan)
  | failed (reason : String)
  deriving DecidableEq, Repr

/-- A file and how its scan ends. -/
structure ScannedFile where
  path : String
  outcome : ScanEnd
  deriving DecidableEq, Repr

/-- What the scans of a run came to. -/
structure Tally where
  scanned : Nat := 0
  batches : Nat := 0
  failures : List String := []
  signals : Signals := {}
  recorded : List Finding := []
  deriving DecidableEq, Repr, Inhabited

namespace Tally

/-- Adds what the scan of a file came to. -/
def add (t : Tally) (file : ScannedFile) : Tally :=
  match file.outcome with
  | .scanned scan => { t with
      scanned := t.scanned + 1
      signals := t.signals.merge scan.signals
      recorded := t.recorded ++ scan.findings }
  | .failed _ => { t with failures := t.failures ++ [file.path] }

/-- Adds a batch, file by file. -/
def addBatch (t : Tally) (batch : List ScannedFile) : Tally :=
  let t := batch.foldl add t
  { t with batches := t.batches + 1 }

theorem add_batches (t : Tally) (file : ScannedFile) : (t.add file).batches = t.batches := by
  unfold add
  split <;> rfl

theorem foldl_add_batches (files : List ScannedFile) (t : Tally) :
    (files.foldl add t).batches = t.batches := by
  induction files generalizing t with
  | nil => rfl
  | cons file files ih => rw [List.foldl_cons, ih, add_batches]

theorem addBatch_batches (t : Tally) (batch : List ScannedFile) :
    (t.addBatch batch).batches = t.batches + 1 := by
  rw [addBatch, foldl_add_batches]

end Tally

namespace ScannedFile

/-- Whether the scan of a file gave something. -/
def isScanned (file : ScannedFile) : Bool :=
  match file.outcome with
  | .scanned _ => true
  | .failed _ => false

/-- What the scan of a file found; nothing, if it failed. -/
def findings (file : ScannedFile) : List Finding :=
  match file.outcome with
  | .scanned scan => scan.findings
  | .failed _ => []

/-- What a file provides; nothing, if its scan failed. -/
def signals (file : ScannedFile) : Signals :=
  match file.outcome with
  | .scanned scan => scan.signals
  | .failed _ => {}

/-- The path of a file whose scan failed. -/
def failedPath? (file : ScannedFile) : Option String :=
  match file.outcome with
  | .scanned _ => none
  | .failed _ => some file.path

end ScannedFile

namespace Tally

/-- The tally of a run that began with some signals and scanned some files in some batches. -/
def ofFiles (signals : Signals) (batches : Nat) (files : List ScannedFile) : Tally where
  scanned := files.countP (·.isScanned)
  batches
  failures := files.filterMap (·.failedPath?)
  signals :=
    { landmark := signals.landmark || files.any (·.signals.landmark)
      skipLink := signals.skipLink || files.any (·.signals.skipLink) }
  recorded := files.flatMap (·.findings)

theorem ofFiles_nil (signals : Signals) (batches : Nat) :
    ofFiles signals batches [] = { signals, batches } := by
  simp [ofFiles]

theorem add_ofFiles (signals : Signals) (batches : Nat) (files : List ScannedFile)
    (file : ScannedFile) :
    (ofFiles signals batches files).add file = ofFiles signals batches (files ++ [file]) := by
  cases h : file.outcome with
  | scanned scan =>
    simp [ofFiles, add, h, Signals.merge, ScannedFile.isScanned, ScannedFile.findings,
      ScannedFile.signals, ScannedFile.failedPath?, Bool.or_assoc]
  | failed reason =>
    simp [ofFiles, add, h, ScannedFile.isScanned, ScannedFile.findings, ScannedFile.signals,
      ScannedFile.failedPath?]

theorem foldl_add_ofFiles (signals : Signals) (batches : Nat) (files batch : List ScannedFile) :
    batch.foldl add (ofFiles signals batches files) =
      ofFiles signals batches (files ++ batch) := by
  induction batch generalizing files with
  | nil => simp
  | cons file batch ih => rw [List.foldl_cons, add_ofFiles, ih, List.append_assoc]; rfl

theorem addBatch_ofFiles (signals : Signals) (batches : Nat) (files batch : List ScannedFile) :
    (ofFiles signals batches files).addBatch batch =
      ofFiles signals (batches + 1) (files ++ batch) := by
  simp only [addBatch, foldl_add_ofFiles]
  rfl

end Tally

end FrontendAudit
