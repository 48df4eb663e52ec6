import FrontendAudit.Scan.Batches

/-!
# What every event of a schedule keeps

An event either starts the scan of a waiting file or ends that of a running one (`next_cases`). Both
keep a single invariant, `Consistent`: the batches before the current one are in the tally, the
files of the current batch are under scan, all others are pending, and the scans that have ended
were counted one by one. It holds at the beginning and so after any events (`Consistent.run`),
whatever their order.
-/

namespace FrontendAudit

namespace Schedule

open Accessibility (Signals)

/-! ## What an event can do -/

/-- An event starts a scan that was waiting, or ends one that was running and settles the batch. -/
theorem next_cases {s s' : Schedule} {e : ScanEvent} (h : s.next e = some s') :
    (∃ place file, e = .start place ∧ s.current[place]? = some ⟨file, .waiting⟩ ∧
      s' = s.started place file) ∨
    (∃ place file, e = .finish place ∧ s.current[place]? = some ⟨file, .running⟩ ∧
      s' = (s.finished place file).settle) := by
  cases e with
  | start place =>
      simp only [next] at h
      split at h
      · next file hslot => exact .inl ⟨place, file, rfl, hslot, (Option.some.inj h).symm⟩
      · cases h
  | finish place =>
      simp only [next] at h
      split at h
      · next file hslot => exact .inr ⟨place, file, rfl, hslot, (Option.some.inj h).symm⟩
      · cases h

theorem run_cons_eq_some {s s' : Schedule} {e : ScanEvent} {es : List ScanEvent} :
    s.run (e :: es) = some s' ↔ ∃ s₁, s.next e = some s₁ ∧ s₁.run es = some s' := by
  rw [run]
  exact Option.bind_eq_some_iff

/-! ## Slots -/

/-- The stage of a slot changes and its file stays. -/
theorem map_file_set {slots : List Slot} {place : Nat} {file : ScannedFile} {stage : ScanStage}
    (h : slots[place]? = some ⟨file, stage⟩) (stage' : ScanStage) :
    (slots.set place ⟨file, stage'⟩).map (·.file) = slots.map (·.file) := by
  refine List.ext_getElem? fun i => ?_
  rw [List.getElem?_map, List.getElem?_map]
  by_cases hi : place = i
  · obtain ⟨hlt, -⟩ := List.getElem?_eq_some_iff.mp h
    rw [← hi, List.getElem?_set_self hlt, h]
    rfl
  · rw [List.getElem?_set_ne hi]

/-- How the number of slots in a stage changes with the stage of one slot. -/
theorem countP_stage_set {slots : List Slot} {place : Nat} {file : ScannedFile}
    {stage : ScanStage} (h : slots[place]? = some ⟨file, stage⟩) (stage' wanted : ScanStage) :
    (slots.set place ⟨file, stage'⟩).countP (·.stage = wanted) +
        (if stage = wanted then 1 else 0) =
      slots.countP (·.stage = wanted) + (if stage' = wanted then 1 else 0) := by
  obtain ⟨hlt, hget⟩ := List.getElem?_eq_some_iff.mp h
  rw [List.countP_set hlt, hget]
  have hpos : stage = wanted → 0 < slots.countP (·.stage = wanted) := by
    intro heq
    refine List.countP_pos_iff.mpr ⟨slots[place], List.getElem_mem hlt, ?_⟩
    simp [hget, heq]
  by_cases hs : stage = wanted
  · have := hpos hs
    simp only [decide_eq_true_eq, hs, if_true]
    omega
  · simp only [decide_eq_true_eq, hs, if_false]
    omega

theorem countP_beginBatch (s : Schedule) (stage : ScanStage) (hstage : stage ≠ .waiting) :
    s.beginBatch.current.countP (·.stage = stage) = 0 := by
  rw [beginBatch, List.countP_eq_zero]
  intro slot hslot
  obtain ⟨file, -, rfl⟩ := List.mem_map.mp hslot
  simpa using hstage.symm

/-! ## The invariant -/

/-- The progress texts when a number of scans have ended. -/
def shownTexts (label : Option String) (ended total : Nat) : List String :=
  match label with
  | none => []
  | some label => (List.range ended).map fun n => progressText label (n + 1) total

theorem shownTexts_succ (label : Option String) (ended total : Nat) :
    shownTexts label (ended + 1) total =
      shownTexts label ended total ++ (label.map (progressText · (ended + 1) total)).toList := by
  cases label with
  | none => rfl
  | some label => simp only [shownTexts, List.range_succ, List.map_append]; rfl

/-- The batches before the current one are in the tally, the current one is under scan, and the
files after it are pending. -/
structure Consistent (label : Option String) (size : Nat) (signals : Signals)
    (files : List ScannedFile) (s : Schedule) : Prop where
  label_eq : s.label = label
  batchSize_eq : s.batchSize = size
  total_eq : s.total = files.length
  begun : s.tally.batches * size < files.length + size
  current : s.current.map (·.file) = (files.drop (s.tally.batches * size)).take size
  pending : s.pending = files.drop (s.tally.batches * size + size)
  tally : s.tally = .ofFiles signals s.tally.batches (files.take (s.tally.batches * size))
  ended : s.ended =
    min (s.tally.batches * size) files.length + s.current.countP (·.stage = .ended)
  peak : s.peak ≤ size
  shown : Note.progressTexts s.notes = shownTexts label s.ended files.length

section

variable {label : Option String} {size : Nat} {signals : Signals} {files : List ScannedFile}
  {s s' : Schedule}

namespace Consistent

theorem length_current (h : Consistent label size signals files s) :
    s.current.length = min size (files.length - s.tally.batches * size) := by
  have := congrArg List.length h.current
  simpa [List.length_take, List.length_drop] using this

theorem inFlight_le (h : Consistent label size signals files s) : s.inFlight ≤ size := by
  have hle : s.inFlight ≤ s.current.length := List.countP_le_length
  have := h.length_current
  omega

/-- Without a current batch nothing is pending. -/
theorem pending_of_current (h : Consistent label size signals files s) (hsize : 1 ≤ size)
    (hcurrent : s.current = []) : files.length ≤ s.tally.batches * size ∧ s.pending = [] := by
  have hlen := h.length_current
  rw [hcurrent, List.length_nil] at hlen
  have hle : files.length ≤ s.tally.batches * size := by omega
  exact ⟨hle, by rw [h.pending, List.drop_eq_nil_of_le (by omega)]⟩

theorem isDone_iff (h : Consistent label size signals files s) (hsize : 1 ≤ size) :
    s.isDone = true ↔ s.current = [] := by
  rw [isDone, Bool.and_eq_true, List.isEmpty_iff, List.isEmpty_iff]
  exact ⟨And.left, fun hcurrent => ⟨hcurrent, (h.pending_of_current hsize hcurrent).2⟩⟩

/-! ### Each event keeps it -/

theorem started {place : Nat} {file : ScannedFile} (h : Consistent label size signals files s)
    (hslot : s.current[place]? = some ⟨file, .waiting⟩) :
    Consistent label size signals files (s.started place file) := by
  have hended := countP_stage_set hslot .running .ended
  have hcurrent := map_file_set hslot .running
  have hkept : Consistent label size signals files
      { s with current := s.current.set place ⟨file, .running⟩ } := by
    refine { h with current := hcurrent.trans h.current, ended := ?_ }
    show s.ended = min (s.tally.batches * size) files.length +
      (s.current.set place ⟨file, .running⟩).countP (·.stage = .ended)
    have := h.ended
    simp only [reduceCtorEq, if_false] at hended
    omega
  have hpeak := hkept.inFlight_le
  exact { hkept with peak := Nat.max_le.mpr ⟨h.peak, hpeak⟩ }

theorem progressTexts_endNotes (h : Consistent label size signals files s) (file : ScannedFile)
    (number : Nat) :
    Note.progressTexts (s.endNotes file number) =
      (label.map (progressText · number files.length)).toList := by
  rw [endNotes, Note.progressTexts_append, h.label_eq, h.total_eq]
  cases file.outcome <;> cases label <;> rfl

theorem finished {place : Nat} {file : ScannedFile} (h : Consistent label size signals files s)
    (hslot : s.current[place]? = some ⟨file, .running⟩) :
    Consistent label size signals files (s.finished place file) := by
  have hended := countP_stage_set hslot .ended .ended
  refine { h with current := (map_file_set hslot .ended).trans h.current, ended := ?_, shown := ?_ }
  · have := h.ended
    simp only [reduceCtorEq, if_false, if_true] at hended
    show s.ended + 1 = min (s.tally.batches * size) files.length +
      (s.current.set place ⟨file, .ended⟩).countP (·.stage = .ended)
    omega
  · show Note.progressTexts (s.notes ++ s.endNotes file (s.ended + 1)) = _
    rw [Note.progressTexts_append, h.shown, h.progressTexts_endNotes, ← shownTexts_succ]
    rfl

/-- The files of all batches up to the current one. -/
theorem take_append_current (h : Consistent label size signals files s) :
    files.take (s.tally.batches * size) ++ s.current.map (·.file) =
      files.take ((s.tally.batches + 1) * size) := by
  rw [h.current, ← List.take_add, Nat.succ_mul]

/-- A batch is settled at the end of one of its scans, so that it is not empty. -/
theorem settle (h : Consistent label size signals files s) (hne : s.current ≠ []) :
    Consistent label size signals files s.settle := by
  rw [Schedule.settle]
  split
  · next hsettled =>
      have hlen := h.length_current
      have hpos := List.length_pos_iff.mpr hne
      have hall : s.current.countP (·.stage = .ended) = s.current.length :=
        List.countP_eq_length.mpr (by simpa [isSettled] using hsettled)
      have htally : s.tally.addBatch (s.current.map (·.file)) =
          .ofFiles signals (s.tally.batches + 1) (files.take ((s.tally.batches + 1) * size)) := by
        rw [← h.take_append_current, ← Tally.addBatch_ofFiles, ← h.tally]
      have hbatches := s.tally.addBatch_batches (s.current.map (·.file))
      have hmul : (s.tally.batches + 1) * size = s.tally.batches * size + size :=
        Nat.succ_mul _ _
      constructor
      · exact h.label_eq
      · exact h.batchSize_eq
      · exact h.total_eq
      · show (s.tally.addBatch _).batches * size < files.length + size
        rw [hbatches]
        omega
      · show ((s.pending.take s.batchSize).map (Slot.mk · .waiting)).map (·.file) =
          (files.drop ((s.tally.addBatch _).batches * size)).take size
        rw [hbatches, hmul, List.map_map, h.pending, h.batchSize_eq]
        exact List.map_id _
      · show s.pending.drop s.batchSize = files.drop ((s.tally.addBatch _).batches * size + size)
        rw [hbatches, hmul, h.pending, h.batchSize_eq, List.drop_drop]
      · show s.tally.addBatch _ = .ofFiles signals (s.tally.addBatch _).batches
          (files.take ((s.tally.addBatch _).batches * size))
        rw [hbatches]
        exact htally
      · rw [countP_beginBatch _ _ (by decide)]
        show s.ended = min ((s.tally.addBatch _).batches * size) files.length + 0
        have := h.ended
        rw [hbatches]
        omega
      · exact h.peak
      · exact h.shown
  · exact h

theorem initial (label : Option String) (size : Nat) (signals : Signals)
    (files : List ScannedFile) (hsize : 1 ≤ size) :
    Consistent label size signals files (.initial label size signals files) := by
  constructor
  · rfl
  · rfl
  · rfl
  · show 0 * size < files.length + size
    omega
  · show ((files.take size).map (Slot.mk · .waiting)).map (·.file) =
      (files.drop (0 * size)).take size
    rw [List.map_map, Nat.zero_mul, List.drop_zero]
    exact List.map_id _
  · show files.drop size = files.drop (0 * size + size)
    rw [Nat.zero_mul, Nat.zero_add]
  · show { signals } = Tally.ofFiles signals 0 (files.take (0 * size))
    rw [Nat.zero_mul, List.take_zero, Tally.ofFiles_nil]
  · rw [Schedule.initial, countP_beginBatch _ _ (by decide)]
    show 0 = min (0 * size) files.length + 0
    rw [Nat.zero_mul, Nat.zero_min]
  · exact Nat.zero_le size
  · show [] = shownTexts label 0 files.length
    cases label <;> rfl

theorem next {e : ScanEvent} (h : Consistent label size signals files s)
    (hnext : s.next e = some s') : Consistent label size signals files s' := by
  obtain ⟨place, file, -, hslot, rfl⟩ | ⟨place, file, -, hslot, rfl⟩ := next_cases hnext
  · exact h.started hslot
  · refine (h.finished hslot).settle ?_
    obtain ⟨hlt, -⟩ := List.getElem?_eq_some_iff.mp hslot
    refine List.ne_nil_of_length_pos ?_
    show 0 < (s.current.set place ⟨file, .ended⟩).length
    rw [List.length_set]
    omega

theorem run {es : List ScanEvent} (h : Consistent label size signals files s)
    (hrun : s.run es = some s') : Consistent label size signals files s' := by
  induction es generalizing s with
  | nil => exact Option.some.inj hrun ▸ h
  | cons e es ih =>
      obtain ⟨s₁, hnext, hrest⟩ := run_cons_eq_some.mp hrun
      exact ih (h.next hnext) hrest

end Consistent

/-! ## A run does not get stuck -/

/-- A batch that has ended altogether does not stay the current one. -/
def UnderWay (s : Schedule) : Prop := s.current ≠ [] → s.isSettled = false

theorem underWay_of_mem {slot : Slot} (hslot : slot ∈ s.current) (hstage : slot.stage ≠ .ended) :
    s.UnderWay := by
  intro _
  rw [isSettled, List.all_eq_false]
  exact ⟨slot, hslot, by simpa using hstage⟩

theorem underWay_beginBatch (s : Schedule) : s.beginBatch.UnderWay := by
  intro hne
  obtain ⟨slot, hslot⟩ := List.exists_mem_of_ne_nil _ hne
  refine underWay_of_mem hslot ?_ hne
  obtain ⟨file, -, rfl⟩ := List.mem_map.mp hslot
  exact ScanStage.noConfusion

theorem underWay_settle (s : Schedule) : s.settle.UnderWay := by
  rw [settle]
  split
  · exact underWay_beginBatch _
  · next hopen => exact fun _ => by simpa using hopen

theorem UnderWay.next {e : ScanEvent} (hnext : s.next e = some s') : s'.UnderWay := by
  obtain ⟨place, file, -, hslot, rfl⟩ | ⟨place, file, -, hslot, rfl⟩ := next_cases hnext
  · obtain ⟨hlt, -⟩ := List.getElem?_eq_some_iff.mp hslot
    exact underWay_of_mem (List.mem_set hlt _) ScanStage.noConfusion
  · exact underWay_settle _

theorem UnderWay.run {es : List ScanEvent} (h : s.UnderWay) (hrun : s.run es = some s') :
    s'.UnderWay := by
  induction es generalizing s with
  | nil => exact Option.some.inj hrun ▸ h
  | cons e es ih =>
      obtain ⟨s₁, hnext, hrest⟩ := run_cons_eq_some.mp hrun
      exact ih (UnderWay.next hnext) hrest

end

end Schedule

end FrontendAudit
