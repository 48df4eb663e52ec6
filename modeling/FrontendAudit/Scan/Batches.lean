import FrontendAudit.Number.Binary64
import FrontendAudit.Scan.Schedule

/-!
# Scanning in batches

The events of a run in which every scan takes a known number of turns: the scans of a batch start in
order and then end turn by turn, in order within a turn.

The number of batches is a quotient of double precision, rounded up. No files make no batches,
whatever the size of a batch.
-/

namespace FrontendAudit

namespace ScanEvent

/-- The events of a batch whose scans take the given numbers of turns. -/
def ofTurns (turns : List Nat) : List ScanEvent :=
  let places := turns.zipIdx
  places.map (.start ·.2) ++ (places.mergeSort fun a b => a.1 ≤ b.1).map (.finish ·.2)

/-- The events of all batches, with fuel for as many batches. -/
def ofBatches (size : Nat) : Nat → List Nat → List ScanEvent
  | 0, _ => []
  | fuel + 1, turns =>
    match turns.take size with
    | [] => []
    | batch => ofTurns batch ++ ofBatches size fuel (turns.drop size)

end ScanEvent

/-- What a run in batches came to. -/
structure ScanReport where
  total : Nat
  tally : Tally
  peak : Nat
  notes : List Note
  deriving Repr, Inhabited

/-- Scans files in batches, each scan taking its number of turns. -/
def scanBatches (label : Option String) (batchSize : Nat) (signals : Accessibility.Signals)
    (files : List (ScannedFile × Nat)) : ScanReport :=
  let start := Schedule.initial label batchSize signals (files.map (·.1))
  let events := ScanEvent.ofBatches batchSize files.length (files.map (·.2))
  let final := (start.run events).getD start
  ⟨final.total, final.tally, final.peak, final.notes ++ final.closingNotes⟩

/-! ## Counting batches -/

/-- Why batches cannot be counted. -/
inductive CountFault where
  | noSize
  | tooLarge
  deriving DecidableEq, Repr

/-- The quotient of two integers, rounded to double precision. -/
def quotient (a b : Int) : Number.Binary64 :=
  .ofRatio ((a < 0) != (b < 0)) a.natAbs b.natAbs

/-- How many batches of a size there are. -/
def countBatches (total size : Int) : Except CountFault Int :=
  if total = 0 then .ok 0
  else if size = 0 then .error .noSize
  else match (quotient total size).ceil? with
    | some n => .ok n
    | none => .error .tooLarge

end FrontendAudit
