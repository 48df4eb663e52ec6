import FrontendAudit.Audit.Scanning
import FrontendAudit.Proofs.IssueLog.Kept
import FrontendAudit.Proofs.Scan.Batching

/-!
# The log goes along with the scans

A log that takes findings takes whatever the scans bring, and the steps of the writer change nothing
that the scans can see. So the events of a run are possible when its scans are (`InStep.run`), and
at the end the log was given what the scanned files found, in the order of the files
(`finish?_start`).
-/

namespace FrontendAudit

namespace Tally

theorem recorded_add (t : Tally) (file : ScannedFile) :
    (t.add file).recorded = t.recorded ++ file.findings := by
  cases h : file.outcome <;> simp [add, ScannedFile.findings, h]

theorem recorded_addBatch (t : Tally) (batch : List ScannedFile) :
    (t.addBatch batch).recorded = t.recorded ++ batch.flatMap (·.findings) := by
  show (batch.foldl add t).recorded = _
  induction batch generalizing t with
  | nil => simp
  | cons file batch ih =>
      rw [List.foldl_cons, ih, recorded_add, List.flatMap_cons, List.append_assoc]

end Tally

/-- What is recorded stays recorded. -/
theorem Schedule.recorded_next {s s' : Schedule} {e : ScanEvent} (h : s.next e = some s') :
    s.tally.recorded <+: s'.tally.recorded := by
  obtain ⟨place, file, -, -, rfl⟩ | ⟨place, file, -, -, rfl⟩ := next_cases h
  · exact List.prefix_refl _
  · rw [settle]
    split
    · show s.tally.recorded <+: (s.tally.addBatch _).recorded
      rw [Tally.recorded_addBatch]
      exact List.prefix_append _ _
    · exact List.prefix_refl _

namespace ScanningEvent

/-- The start or end of a scan that an event is, if it is none of the writer. -/
def scan? : ScanningEvent → Option ScanEvent
  | scan event => some event
  | write _ => none

/-- The starts and ends of scans among events. -/
def scans (events : List ScanningEvent) : List ScanEvent := events.filterMap scan?

theorem scans_map_scan (events : List ScanEvent) : scans (events.map .scan) = events := by
  rw [scans, List.filterMap_map]
  exact List.filterMap_some

end ScanningEvent

namespace Scanning

open ScanningEvent (scans)

/-- The log was given what the schedule has recorded. -/
def InStep (limit : Nat) (x : Scanning) : Prop := x.log.Took limit x.schedule.tally.recorded

section

variable {limit : Nat} {x : Scanning} {s' : Schedule}

/-- What a scan brings is taken. -/
theorem InStep.scan {e : ScanEvent} (h : x.InStep limit) (hnext : x.schedule.next e = some s') :
    ∃ x', x.next (.scan e) = some x' ∧ x'.schedule = s' ∧ x'.InStep limit := by
  -- what the scan brings is what the schedule has recorded since
  obtain ⟨found, hfound⟩ := Schedule.recorded_next hnext
  have hdrop : s'.tally.recorded.drop x.schedule.tally.recorded.length = found := by
    rw [← hfound, List.drop_left]
  obtain ⟨log, notes, hrecord, htook⟩ := IssueLog.Took.recordAll h found
  rw [hfound] at htook
  refine ⟨⟨s', log, x.notes ++ s'.notes.drop x.schedule.notes.length ++ notes⟩, ?_, rfl, htook⟩
  simp only [Scanning.next, hnext, hdrop, hrecord, Option.map_some]

/-- The writer goes its own way. -/
theorem InStep.write (h : x.InStep limit) (fault : Option WriteFault) :
    ∃ x', x.next (.write fault) = some x' ∧ x'.schedule = x.schedule ∧ x'.InStep limit :=
  ⟨_, rfl, rfl, IssueLog.Took.write h fault⟩

/-- The events are possible when their scans are, whatever the writer does in between. -/
theorem InStep.run {events : List ScanningEvent} (h : x.InStep limit)
    (hrun : x.schedule.run (scans events) = some s') :
    ∃ x', x.run events = some x' ∧ x'.schedule = s' ∧ x'.InStep limit := by
  induction events generalizing x with
  | nil => exact ⟨x, rfl, Option.some.inj hrun, h⟩
  | cons event events ih =>
      cases event with
      | scan e =>
          obtain ⟨s₁, hnext, hrest⟩ := Schedule.run_cons_eq_some.mp hrun
          obtain ⟨x₁, hstep, rfl, h₁⟩ := h.scan hnext
          obtain ⟨x', hrun', hschedule, h'⟩ := ih h₁ hrest
          exact ⟨x', by rw [Scanning.run, hstep]; exact hrun', hschedule, h'⟩
      | write fault =>
          obtain ⟨x₁, hstep, hsame, h₁⟩ := h.write fault
          obtain ⟨x', hrun', hschedule, h'⟩ := ih h₁ (by rw [hsame]; exact hrun)
          exact ⟨x', by rw [Scanning.run, hstep]; exact hrun', hschedule, h'⟩

end

/-- When the scans come to their end so does the run, and its log was given the findings of all
scanned files in order. -/
theorem finish?_start {label : Option String} {size limit : Nat} {files : List ScannedFile}
    {log : IssueLog} {events : List ScanningEvent} {final : Schedule} (hsize : 1 ≤ size)
    (hlog : log.Took limit [])
    (hrun : (Schedule.initial label size {} files).run (scans events) = some final)
    (hdone : final.isDone = true) :
    ∃ x, (start label size files log).finish? events = some x ∧
      x.schedule.tally = .ofFiles {} (files.length ⌈/⌉ size) files ∧
      x.log.Took limit (files.flatMap (·.findings)) := by
  have hconsistent := (Schedule.Consistent.initial label size {} files hsize).run hrun
  have htally := hconsistent.tally_of_isDone hsize hdone
  have hstart : (start label size files log).InStep limit := hlog
  obtain ⟨x, hx, rfl, hstep⟩ := hstart.run hrun
  refine ⟨x, ?_, htally, ?_⟩
  · rw [finish?, hx, Option.filter_some, if_pos hdone]
  · have hgiven : x.schedule.tally.recorded = files.flatMap (·.findings) := by rw [htally]; rfl
    rw [← hgiven]
    exact hstep

end Scanning

end FrontendAudit
